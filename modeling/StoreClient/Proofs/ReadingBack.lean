import StoreClient.Proofs.Decoding
import StoreClient.Proofs.FloatTextSize
import StoreClient.Proofs.Numerals
import StoreClient.Proofs.SafeValues
import StoreClient.Proofs.Texts
import StoreClient.Proofs.Writing

/-!
# Parts read back

The bytes that are written for the parts of a batch are what the parsers of those parts
take: sizes and counts, the payload of a safe scalar, the header of an array, and the
items of each kind of array. A size starts with a digit, so it is neither taken for the
tag of an element nor for the mark of a null.
-/

namespace StoreClient

/-- A digit is the tag of no scalar type. -/
theorem ScalarType.ofTag?_of_isDigit {b : UInt8} (h : Numeral.isDigit b = true) :
    ofTag? b = none := by
  rw [ofTag?, List.find?_eq_none]
  intro type _ htag
  rw [decide_eq_true_eq] at htag
  subst htag
  cases type <;> cases h

namespace Parse

/-- A count is read back from its numeral. -/
theorem Reads.countOf {n : Nat} (h : n < Numeral.bound) (what : String) :
    Reads (Parse.countOf what (Numeral.digits n)) [] n := by
  intro rest
  rw [Parse.countOf, Numeral.count?_digits h]
  rfl

/-- A count is read back from its line. -/
theorem Reads.count {n : Nat} (h : n < Numeral.bound) (what : String) :
    Reads (Parse.count what) (Wire.line (Numeral.digits n)) n :=
  (line (Numeral.not_mem_digits (by decide) n)).bindPure (countOf h what)

/-- The tag of an item is read back. -/
theorem Reads.itemType (type : ItemType) : Reads Parse.itemType [type.tag] type := by
  refine (byte type.tag).bindPure fun rest => ?_
  rw [ItemType.ofTag?_tag]
  rfl

/-- The turns of a repetition take their bytes one after the other. -/
theorem Reads.repeatedGo {α : Type} {item : Nat → Parse α} {bytes : List Bytes} {items : List α}
    (h : List.Forall₂ (fun a taken => ∀ turn, Reads (item turn) taken a) items bytes)
    (turn : Nat) (found : List α) :
    Reads (Parse.repeated.go item items.length turn found) bytes.flatten
      (found.reverse ++ items) := by
  induction h generalizing turn found with
  | nil =>
    rw [List.append_nil]
    exact pure found.reverse
  | @cons a taken items bytes hfirst _ ih =>
    have hrest := ih (turn + 1) (a :: found)
    rw [List.reverse_cons, List.append_assoc, List.singleton_append] at hrest
    exact (hfirst turn).bind hrest

/-- A repetition takes the bytes of its turns one after the other. -/
theorem Reads.repeated {α : Type} {item : Nat → Parse α} {bytes : List Bytes} {items : List α}
    (h : List.Forall₂ (fun a taken => ∀ turn, Reads (item turn) taken a) items bytes) :
    Reads (Parse.repeated item items.length) bytes.flatten items :=
  repeatedGo h 0 []

/-- The size in front of an element is read back: it starts with a digit, which is no tag. -/
theorem Reads.elementSize {n : Nat} (h : n < Numeral.bound) (element : ScalarType) :
    Reads (Parse.elementSize element) (Wire.line (Numeral.digits n)) (some n) := by
  obtain ⟨first, rest, hdigits, hfirst⟩ := Numeral.exists_digits_eq_cons n
  have htag := ScalarType.ofTag?_of_isDigit hfirst
  have hown : first ≠ element.tag := by
    rintro rfl
    rw [ScalarType.ofTag?_tag] at htag
    cases htag
  have hmark : first :: rest ≠ [0] := by
    rintro heq
    cases heq
    cases hfirst
  refine (line (Numeral.not_mem_digits (by decide) n)).bindPure ?_
  have hcount := (countOf h "element size").map some
  rw [hdigits] at hcount ⊢
  simpa only [if_neg hmark, if_neg hown, htag] using hcount

/-- An item without a tag is read back by its size: as a text, or as bytes that are none. -/
theorem Reads.anyItem {payload : Bytes} (h : payload.length < Numeral.bound) :
    Reads Parse.anyItem (Wire.line (Numeral.digits payload.length) ++ Wire.line payload)
      (textOrBinary payload) :=
  (count h "element size").bind ((Reads.payload payload).bindPure (pure (textOrBinary payload)))

/-- The mark of a null is read back in front of no element. -/
theorem Reads.nullSize (element : ScalarType) :
    Reads (Parse.elementSize element) (Wire.line Wire.nullMarker) none :=
  (line (show 10 ∉ Wire.nullMarker by decide)).bindPure (pure none)

/-- A scalar without a flaw may stand in an array. -/
theorem Reads.unflawed {parser : Parse Flawed} {bytes : Bytes} {v : Value}
    (h : Reads parser bytes (v, none)) : Reads (Parse.unflawed parser) bytes v :=
  h.bindPure (pure v)

/-- A payload of bytes is read back by its size. -/
theorem Reads.sizedBody {type : ScalarType} {payload : Bytes} {v : Value}
    (htype : type.isSized = true) (h : sizedValue type payload = (v, none)) :
    Reads (scalarBody type payload.length) (Wire.line payload) (v, none) := by
  unfold scalarBody
  rw [if_pos htype]
  refine (Reads.payload payload).bindPure ?_
  rw [h]
  exact pure (v, none)

/-- A payload without newlines is read back by its line. -/
theorem Reads.lineBody {type : ScalarType} {payload : Bytes} {v : Value}
    (htype : type.isSized = false) (hline : 10 ∉ payload)
    (h : lineValue type payload.length payload = Pure.pure (v, none)) :
    Reads (scalarBody type payload.length) (Wire.line payload) (v, none) := by
  unfold scalarBody
  rw [if_neg (by simp [htype])]
  refine (line hline).bindPure ?_
  rw [h]
  exact pure (v, none)

/-- A number that is read from its payload is the value of the line. -/
theorem lineValue_of_numberOf? {type : ScalarType} {payload : Bytes} {v : Value}
    (h : numberOf? type payload = some v) :
    lineValue type payload.length payload = Pure.pure (v, none) := by
  have hsize : sizeFlaw payload.length payload = none := if_pos rfl
  have hcode : type ≠ .responseCode := by
    rintro rfl
    cases h
  have hsupported : type.isSupported = true := by
    cases type with
    | json | signedSmall | unsignedSmall => cases h
    | _ => rfl
  simp only [lineValue, hsupported, h, hsize, if_neg hcode, Bool.not_true, Bool.false_eq_true,
    if_false]

/-- A response code that may come from the server is read back, unless it is the packet
error, which breaks the batch. -/
theorem lineValue_code {c : ReplyCode} (hserver : 0 ≤ c.number) (hpacket : c ≠ .packet) :
    lineValue .responseCode (Numeral.signedDigits c.number).length
      (Numeral.signedDigits c.number) = Pure.pure (.code c, none) := by
  cases c with
  | errorText | generic => exact absurd hserver (by decide)
  | packet => exact absurd rfl hpacket
  | _ => rfl

/-- Error text that is no numeral is read back. -/
theorem lineValue_errorText {text : String}
    (h : ¬(text ≠ "" ∧ ∀ c ∈ text.toList, c.isDigit = true)) :
    lineValue .responseCode (Utf8.encode text).length (Utf8.encode text) =
      Pure.pure (.errorText text, none) := by
  have hnumeral : Numeral.isNumeral (Utf8.encode text) ≠ true :=
    fun hdigits => h (Utf8.isDigit_of_isNumeral_encode hdigits)
  change responseCode _ _ = _
  rw [responseCode, if_neg hnumeral, Utf8.decodeLossy_encode]

end Parse

/-- The header of an array is read back behind its tag. -/
theorem ArrayShape.reads_opening {shape : ArrayShape} (hshape : shape.IsSendable) {count : Nat}
    (hcount : count < Numeral.bound) :
    Parse.Reads (Parse.arrayHeader shape.kind) (shape.opening count) (shape, count) := by
  have hdigits := Numeral.not_mem_digits (b := 10) (by decide) count
  have hread (shape : ArrayShape) :
      Parse.Reads (Parse.shapeOf shape (Numeral.digits count)) [] (shape, count) :=
    (Parse.Reads.countOf hcount "array length").bindPure (.pure (shape, count))
  rcases shape with _ | _ | _ | ⟨element, nonNull⟩
  · exact (Parse.Reads.line hdigits).bindPure (hread .nested)
  · exact (Parse.Reads.line hdigits).bindPure (hread .flat)
  · exact (Parse.Reads.line hdigits).bindPure (hread .any)
  · have helement := hshape element rfl
    rw [ScalarType.isElementType, Bool.and_eq_true] at helement
    have htag : 10 ∉ element.tag :: Numeral.digits count := by
      rw [List.mem_cons, not_or]
      exact ⟨by cases element <;> decide, hdigits⟩
    have htyped : Parse.Reads (Parse.typedShapeOf nonNull (element.tag :: Numeral.digits count)) []
        (.typed element nonNull, count) := by
      rw [Parse.typedShapeOf]
      simp only [ScalarType.ofTag?_tag, helement.1, if_true]
      exact hread (.typed element nonNull)
    cases nonNull
    · exact (Parse.Reads.line htag).bindPure htyped
    · exact (Parse.Reads.line htag).bindPure htyped

/-- A safe scalar has a payload whose size fits on the wire and which is read back. -/
theorem SafeScalar.exists_payload {type : ScalarType} {v : Value} (h : SafeScalar type v) :
    ∃ payload, v.payload? = some (type, payload) ∧ payload.length < Numeral.bound ∧
      Parse.Reads (Parse.scalarBody type payload.length) (Wire.line payload) (v, none) := by
  cases h with
  | string hlength =>
    refine ⟨_, rfl, hlength, .sizedBody rfl ?_⟩
    rw [Parse.sizedValue, Utf8.decode?_encode]
  | binary hlength => exact ⟨_, rfl, hlength, .sizedBody rfl rfl⟩
  | unsigned n =>
    have hhigh : n.toNat < Numeral.bound := n.toNat_lt
    have hread : Parse.numberOf? .unsigned (Numeral.digits n.toNat) = some (.unsigned n) := by
      rw [Parse.numberOf?, Numeral.unsigned?_digits hhigh, Option.map_some,
        UInt64.ofNat_toNat]
    exact ⟨_, rfl, Numeral.length_digits_lt hhigh,
      .lineBody rfl (Numeral.not_mem_digits (by decide) _) (Parse.lineValue_of_numberOf? hread)⟩
  | signed n =>
    have hlow : -(Numeral.signedBound : Int) ≤ n.toInt := n.le_toInt
    have hhigh : n.toInt < Numeral.signedBound := n.toInt_lt
    have hread : Parse.numberOf? .signed (Numeral.signedDigits n.toInt) = some (.signed n) := by
      rw [Parse.numberOf?, Numeral.signed?_signedDigits hlow hhigh, Option.map_some,
        Int64.ofInt_toInt]
    exact ⟨_, rfl, Numeral.length_signedDigits_lt hlow hhigh,
      .lineBody rfl (Numeral.newline_not_mem_signedDigits _) (Parse.lineValue_of_numberOf? hread)⟩
  | @float x hnumber =>
    have hread : Parse.numberOf? .float x.text = some (.float x) := by
      rw [Parse.numberOf?, Binary32.read?_text hnumber, Option.map_some]
    exact ⟨_, rfl, Binary32.length_text_lt hnumber,
      .lineBody rfl x.newline_not_mem_text (Parse.lineValue_of_numberOf? hread)⟩
  | @code c hserver hpacket =>
    have hbounds : -(Numeral.signedBound : Int) ≤ c.number ∧ c.number < Numeral.signedBound := by
      cases c <;> decide
    exact ⟨_, rfl, Numeral.length_signedDigits_lt hbounds.1 hbounds.2,
      .lineBody rfl (Numeral.newline_not_mem_signedDigits _)
        (Parse.lineValue_code hserver hpacket)⟩
  | errorText hlength hnewline hdigits =>
    exact ⟨_, rfl, hlength, .lineBody rfl (Utf8.newline_not_mem_encode hnewline)
      (Parse.lineValue_errorText hdigits)⟩

end StoreClient
