import StoreClient.Proofs.Decoding
import StoreClient.Proofs.SafeValues
import StoreClient.Proofs.Texts

/-!
# Decoded values are well formed

Callers rely on what the header of an array promises about its items. This file proves that
whatever bytes arrive, every entry that the decoder returns keeps these promises at every
depth, also the entries that are left of a broken batch. `Parse.Ensures` states a property
of everything that a parser answers with; it is proved for each parser of the format.
-/

namespace StoreClient

namespace Value

/-- The value stands for something that was read: it is neither null nor the placeholder of
a type that the client does not implement. -/
def isPresent : Value → Bool
  | null | unsupported _ => false
  | _ => true

/-- A code is one that travels and does not break the batch, and error text is one line that
is no numeral. -/
def IsProper : Value → Prop
  | code c => 0 ≤ c.number ∧ c ≠ .packet
  | errorText text =>
    '\n' ∉ text.toList ∧ ¬(text ≠ "" ∧ ∀ c ∈ text.toList, c.isDigit = true)
  | _ => True

/-- The value is a scalar of this type, as it may stand in an array. -/
structure IsScalarOf (type : ScalarType) (v : Value) : Prop where
  present : v.isPresent = true
  proper : v.IsProper
  scalarType?_eq : v.scalarType? = some type

end Value

/-- The item is one that the header of an array of this shape promises. -/
def ArrayShape.Holds : ArrayShape → Value → Prop
  | nested, item => item.isPresent = true
  | flat, item => item.isPresent = true ∧ item.isArray = false
  | any, item => (∃ text, item = .string text) ∨
    ∃ bytes, item = .binary bytes ∧ Utf8.decode? bytes = none
  | typed element nonNull, item => (item = .null ∧ nonNull = false) ∨
    (item.isPresent = true ∧ item.scalarType? = some element)

/-- A value with at most so many levels of arrays, in which every array holds what its header
promises and every scalar is proper. -/
inductive Value.WellFormed : (levels : Nat) → Value → Prop where
  | scalar {levels : Nat} {v : Value} : v.isArray = false → v.IsProper → WellFormed levels v
  | array {levels : Nat} {shape : ArrayShape} {items : List Value} :
      (∀ element, shape.element? = some element → element.isSupported = true) →
      (∀ item ∈ items, shape.Holds item) → (∀ item ∈ items, WellFormed levels item) →
      WellFormed (levels + 1) (.array shape items)

/-- An entry with a well-formed value. An array carries no local error, and a value without
one has the type that was announced. -/
structure Entry.WellFormed (entry : Entry) : Prop where
  value : entry.value.WellFormed maxDepth
  error_eq_none : entry.declared.isArray = true → entry.error = none
  itemType?_eq : entry.error = none → entry.value.itemType? = some entry.declared

namespace Value

variable {v : Value} {type : ScalarType}

/-- What has the type of a scalar is no array. -/
theorem isArray_eq_false_of_scalarType? (h : v.scalarType? = some type) : v.isArray = false := by
  cases v with
  | array => cases h
  | _ => rfl

/-- A scalar is well formed within any number of levels. -/
theorem IsScalarOf.wellFormed (h : v.IsScalarOf type) (levels : Nat) : v.WellFormed levels :=
  .scalar (isArray_eq_false_of_scalarType? h.scalarType?_eq) h.proper

end Value

namespace Parse

/-- Whatever the parser answers with has the property. -/
def Ensures {α : Type} (parser : Parse α) (property : α → Prop) : Prop :=
  ∀ bytes a rest, parser bytes = .ok (a, rest) → property a

/-- A scalar of this type with its flaw: without one the value has the type. -/
structure ReadAs (type : ScalarType) (flawed : Flawed) : Prop where
  isArray_eq_false : flawed.1.isArray = false
  proper : flawed.1.IsProper
  scalar : flawed.2 = none → flawed.1.IsScalarOf type

/-- A scalar with a flaw needs no type. -/
theorem ReadAs.flawed {type : ScalarType} {v : Value} (e : ProtocolError)
    (harray : v.isArray = false) (hproper : v.IsProper) : ReadAs type (v, some e) :=
  ⟨harray, hproper, nofun⟩

/-- A scalar of its type may have a flaw or none. -/
theorem ReadAs.ofScalar {type : ScalarType} {v : Value} (flaw : Option ProtocolError)
    (h : v.IsScalarOf type) : ReadAs type (v, flaw) :=
  ⟨Value.isArray_eq_false_of_scalarType? h.scalarType?_eq, h.proper, fun _ => h⟩

/-- A payload of bytes is read as its type. -/
theorem readAs_sizedValue (type : ScalarType) (payload : Bytes) :
    ReadAs type (sizedValue type payload) := by
  unfold sizedValue
  split
  · split
    · exact .ofScalar none ⟨rfl, trivial, rfl⟩
    · exact .flawed _ rfl trivial
  · exact .ofScalar none ⟨rfl, trivial, rfl⟩
  · exact .flawed _ rfl trivial

/-- A number has the type that it was read as. -/
theorem isScalarOf_of_numberOf? {type : ScalarType} {text : Bytes} {v : Value}
    (h : numberOf? type text = some v) : v.IsScalarOf type := by
  unfold numberOf? at h
  split at h
  · obtain ⟨n, _, rfl⟩ := Option.map_eq_some_iff.mp h
    exact ⟨rfl, trivial, rfl⟩
  · obtain ⟨n, _, rfl⟩ := Option.map_eq_some_iff.mp h
    exact ⟨rfl, trivial, rfl⟩
  · obtain ⟨x, _, rfl⟩ := Option.map_eq_some_iff.mp h
    exact ⟨rfl, trivial, rfl⟩
  · cases h

/-- The codes that are found by number are those that travel. -/
theorem zero_le_of_ofNumber? {n : Int} {c : ReplyCode} (h : ReplyCode.ofNumber? n = some c) :
    0 ≤ c.number := by
  have hfound := List.find?_some h
  rw [Bool.and_eq_true, decide_eq_true_eq] at hfound
  exact hfound.1

/-- Error text is read from one line that is no numeral. -/
theorem isProper_errorText {text : Bytes} (hline : 10 ∉ text)
    (hnumeral : Numeral.isNumeral text ≠ true) :
    (Value.errorText (Utf8.decodeLossy text)).IsProper := by
  refine ⟨Utf8.newline_not_mem_decodeLossy hline, ?_⟩
  rintro ⟨hne, hdigits⟩
  exact hnumeral (Utf8.isNumeral_of_isDigit_decodeLossy hne hdigits)

namespace Ensures

variable {α β : Type} {parser : Parse α} {property : α → Prop}

/-- A result that is known already. -/
theorem pure {a : α} (h : property a) : Ensures (Pure.pure a) property := by
  intro bytes b rest hok
  cases hok
  exact h

/-- A parser without a result ensures anything. -/
theorem fail (e : ProtocolError) : Ensures (Parse.fail e) property := by
  intro bytes a rest hok
  cases hok

/-- A parser without a result ensures anything. -/
theorem invalid (what : String) : Ensures (Parse.invalid what) property := fail _

/-- The second parser may rely on what the first one ensures. -/
theorem bind {next : α → Parse β} {result : β → Prop} (h : Ensures parser property)
    (hnext : ∀ a, property a → Ensures (next a) result) : Ensures (parser >>= next) result := by
  intro bytes b rest hok
  obtain ⟨a, behind, hfirst, hsecond⟩ := bind_eq_ok.mp hok
  exact hnext a (h _ _ _ hfirst) _ _ _ hsecond

/-- The second parser alone ensures the property. -/
theorem behind {next : α → Parse β} {result : β → Prop} (hnext : ∀ a, Ensures (next a) result) :
    Ensures (parser >>= next) result := by
  have hany : Ensures parser fun _ => True := fun _ _ _ _ => trivial
  exact hany.bind fun a _ => hnext a

/-- A weaker property is ensured too. -/
theorem mono {weaker : α → Prop} (h : Ensures parser property)
    (hweaker : ∀ a, property a → weaker a) : Ensures parser weaker := by
  intro bytes a rest hok
  exact hweaker a (h _ _ _ hok)

/-- Every turn of a repetition has the property, and there are as many as were asked for. -/
theorem repeatedGo {item : Nat → Parse α} (h : ∀ turn, Ensures (item turn) property)
    (n turn : Nat) {found : List α} (hfound : ∀ a ∈ found, property a) :
    Ensures (Parse.repeated.go item n turn found)
      fun all => all.length = found.length + n ∧ ∀ a ∈ all, property a := by
  induction n generalizing turn found with
  | zero => exact pure ⟨List.length_reverse, fun a ha => hfound a (List.mem_reverse.mp ha)⟩
  | succ n ih =>
    refine (h turn).bind fun a ha => (ih (turn + 1) ?_).mono fun all hall => ⟨?_, hall.2⟩
    · rintro b hb
      rcases List.mem_cons.mp hb with rfl | hb
      · exact ha
      · exact hfound b hb
    · rw [hall.1, List.length_cons]
      omega

/-- Every turn of a repetition has the property, and there are as many as were asked for. -/
theorem repeated {item : Nat → Parse α} (h : ∀ turn, Ensures (item turn) property) (n : Nat) :
    Ensures (Parse.repeated item n) fun all => all.length = n ∧ ∀ a ∈ all, property a := by
  have hnone : ∀ a ∈ ([] : List α), property a := nofun
  have hgo := repeatedGo h n 0 hnone
  rw [List.length_nil, Nat.zero_add] at hgo
  exact hgo

/-- A line holds no newline. -/
theorem line : Ensures Parse.line fun text => 10 ∉ text := by
  intro bytes text rest hok
  exact (line_eq_ok hok).1

/-- A line that holds a response code or error text. -/
theorem responseCode (size : Nat) {text : Bytes} (hline : 10 ∉ text) :
    Ensures (Parse.responseCode size text) (ReadAs .responseCode) := by
  unfold Parse.responseCode
  split
  · dsimp only
    split
    · exact fail _
    · rename_i code hpacket hcode
      exact pure (.ofScalar _ ⟨rfl, ⟨zero_le_of_ofNumber? hcode, hpacket⟩, rfl⟩)
    · exact pure (.flawed _ rfl trivial)
  · rename_i hnumeral
    exact pure (.ofScalar none ⟨rfl, isProper_errorText hline hnumeral, rfl⟩)

/-- A line that holds a scalar. -/
theorem lineValue (type : ScalarType) (size : Nat) {text : Bytes} (hline : 10 ∉ text) :
    Ensures (Parse.lineValue type size text) (ReadAs type) := by
  unfold Parse.lineValue
  split
  · exact pure (.flawed _ rfl trivial)
  · split
    · rename_i hcode
      subst hcode
      exact responseCode size hline
    · split
      · rename_i hvalue
        exact pure (.ofScalar _ (isScalarOf_of_numberOf? hvalue))
      · exact pure (.flawed _ rfl trivial)

/-- The payload of a scalar. -/
theorem scalarBody (type : ScalarType) (size : Nat) :
    Ensures (Parse.scalarBody type size) (ReadAs type) := by
  unfold Parse.scalarBody
  split
  · exact behind fun payload => pure (readAs_sizedValue type payload)
  · exact line.bind fun text hline => lineValue type size hline

/-- A scalar. -/
theorem scalar (type : ScalarType) : Ensures (Parse.scalar type) (ReadAs type) :=
  behind fun size => scalarBody type size

/-- A scalar inside an array has no flaw. -/
theorem unflawed {type : ScalarType} {parser : Parse Flawed} (h : Ensures parser (ReadAs type)) :
    Ensures (Parse.unflawed parser) (Value.IsScalarOf type) := by
  refine h.bind fun flawed hflawed => ?_
  obtain ⟨v, flaw⟩ := flawed
  cases flaw with
  | none => exact pure (hflawed.scalar rfl)
  | some e => exact fail e

/-- The shape that was announced. -/
theorem shapeOf {shape : ArrayShape} {property : ArrayShape × Nat → Prop}
    (h : ∀ count, property (shape, count)) (digits : Bytes) :
    Ensures (Parse.shapeOf shape digits) property :=
  behind fun count => pure (h count)

/-- A typed array names a supported type. -/
theorem typedShapeOf (nonNull : Bool) (header : Bytes) :
    Ensures (Parse.typedShapeOf nonNull header) fun announced =>
      ∃ element, element.isSupported = true ∧ announced.1 = .typed element nonNull := by
  unfold Parse.typedShapeOf
  split
  · exact invalid _
  · split
    · exact invalid _
    · rename_i element _
      split
      · rename_i hsupported
        exact shapeOf (fun _ => ⟨element, hsupported, rfl⟩) _
      · exact fail _

/-- The header of an array announces its kind, and a supported type if it names one. -/
theorem arrayHeader (kind : ArrayKind) :
    Ensures (Parse.arrayHeader kind) fun announced => announced.1.kind = kind ∧
      ∀ element, announced.1.element? = some element → element.isSupported = true := by
  have htyped (nonNull : Bool) (header : Bytes) :
      Ensures (Parse.typedShapeOf nonNull header) fun announced =>
        announced.1.kind = (ArrayShape.typed .string nonNull).kind ∧
        ∀ element, announced.1.element? = some element → element.isSupported = true := by
    refine (typedShapeOf nonNull header).mono ?_
    rintro ⟨_, count⟩ ⟨element, hsupported, rfl⟩
    refine ⟨by cases nonNull <;> rfl, ?_⟩
    rintro _ ⟨⟩
    exact hsupported
  refine behind fun header => ?_
  cases kind with
  | nested => exact shapeOf (fun _ => ⟨rfl, nofun⟩) _
  | flat => exact shapeOf (fun _ => ⟨rfl, nofun⟩) _
  | any => exact shapeOf (fun _ => ⟨rfl, nofun⟩) _
  | typed => exact htyped false header
  | typedNonNull => exact htyped true header

/-- An element of a typed array: a null where nulls are allowed, or a scalar of the type. -/
theorem typedElement (levels : Nat) (element : ScalarType) (nonNull : Bool) :
    Ensures (Parse.typedElement element nonNull) fun v =>
      (ArrayShape.typed element nonNull).Holds v ∧ v.WellFormed levels := by
  refine behind fun size => ?_
  cases size with
  | none =>
    dsimp only
    split
    · exact fail _
    · rename_i hnull
      exact pure ⟨.inl ⟨rfl, by simpa using hnull⟩, .scalar rfl trivial⟩
  | some size =>
    refine (unflawed (scalarBody element size)).mono fun v hv => ⟨.inr ?_, hv.wellFormed levels⟩
    exact ⟨hv.present, hv.scalarType?_eq⟩

/-- An item of a flat array. -/
theorem flatItem (levels index : Nat) :
    Ensures (Parse.flatItem index) fun v => ArrayShape.flat.Holds v ∧ v.WellFormed levels := by
  refine behind fun type => ?_
  cases type with
  | scalar type =>
    refine (unflawed (scalar type)).mono fun v hv => ⟨⟨hv.present, ?_⟩, hv.wellFormed levels⟩
    exact Value.isArray_eq_false_of_scalarType? hv.scalarType?_eq
  | array kind => exact fail _

/-- An item without a tag is a text, or bytes that are none. -/
theorem anyItem (levels : Nat) :
    Ensures Parse.anyItem fun v => ArrayShape.any.Holds v ∧ v.WellFormed levels := by
  refine behind fun size => behind fun payload => pure ?_
  unfold textOrBinary
  split
  · exact ⟨.inl ⟨_, rfl⟩, .scalar rfl trivial⟩
  · rename_i hdecode
    exact ⟨.inr ⟨_, rfl, hdecode⟩, .scalar rfl trivial⟩

/-- An array, by induction on the levels of arrays that it has room for. -/
theorem array (room : Nat) (kind : ArrayKind) :
    Ensures (Parse.array room kind) fun v => v.arrayKind? = some kind ∧ v.WellFormed room := by
  induction room generalizing kind with
  | zero => exact fail _
  | succ room ih =>
    have hitem (shape : ArrayShape) (index : Nat) :
        Ensures (arrayItem room shape index) fun v => shape.Holds v ∧ v.WellFormed room := by
      cases shape with
      | nested =>
        refine behind fun type => ?_
        cases type with
        | scalar type =>
          exact (unflawed (scalar type)).mono fun v hv => ⟨hv.present, hv.wellFormed room⟩
        | array kind =>
          refine (ih kind).mono fun v hv => ⟨?_, hv.2⟩
          cases v with
          | array => rfl
          | _ => cases hv.1
      | flat => exact flatItem room index
      | any => exact anyItem room
      | typed element nonNull => exact typedElement room element nonNull
    rw [array_succ]
    refine (arrayHeader kind).bind fun announced hannounced => ?_
    refine (repeated (hitem announced.1) announced.2).bind fun items hitems => pure ?_
    refine ⟨congrArg some hannounced.1, .array hannounced.2 ?_ ?_⟩
    · exact fun item hmem => (hitems.2 item hmem).1
    · exact fun item hmem => (hitems.2 item hmem).2

/-- An entry of a batch. -/
theorem entry : Ensures Parse.entry Entry.WellFormed := by
  refine behind fun declared => ?_
  cases declared with
  | scalar type =>
    refine (scalar type).bind fun flawed hflawed => pure ⟨?_, nofun, fun hnone => ?_⟩
    · exact .scalar hflawed.isArray_eq_false hflawed.proper
    · have hscalar := hflawed.scalar (Option.map_eq_none_iff.mp hnone)
      rw [Value.itemType?, hscalar.scalarType?_eq]
      rfl
  | array kind =>
    refine (array maxDepth kind).bind fun v hv => pure ⟨hv.2, fun _ => rfl, fun _ => ?_⟩
    cases v with
    | array shape items => rw [Value.itemType?, hv.1]; rfl
    | _ => cases hv.1

end Ensures

end Parse

/-- The entries that come with an answer of the decoder. -/
def Decoded.entries : Decoded → List Entry
  | incomplete => []
  | complete entries _ => entries
  | broken failure => failure.entries

/-- A count is the value of a numeral. -/
theorem Numeral.count?_eq_some {digits : Bytes} {n : Nat} (h : count? digits = some n) :
    isNumeral digits = true ∧ value digits = n := by
  simp only [count?, below?, valueByHalves_eq, Bool.and_eq_true, decide_eq_true_eq] at h
  split at h
  · rename_i hnumeral
    cases h
    exact ⟨hnumeral.1, rfl⟩
  · cases h

/-- A line that is read as a count holds a numeral. -/
theorem Parse.count_eq_ok {what : String} {bytes rest : Bytes} {n : Nat}
    (h : count what bytes = .ok (n, rest)) :
    ∃ digits, bytes = digits ++ 10 :: rest ∧ Numeral.isNumeral digits = true ∧
      Numeral.value digits = n := by
  obtain ⟨digits, behind, hline, hdigits⟩ := bind_eq_ok.mp h
  obtain ⟨_, rfl⟩ := line_eq_ok hline
  rw [countOf] at hdigits
  cases hcount : Numeral.count? digits with
  | none =>
    rw [hcount] at hdigits
    cases hdigits
  | some n =>
    rw [hcount] at hdigits
    cases hdigits
    exact ⟨digits, by simp, Numeral.count?_eq_some hcount⟩

namespace Batch

/-- The header of a batch is its mark and the numeral of the number of entries. -/
theorem batchHeader_eq_ok {bytes rest : Bytes} {count : Nat}
    (h : Parse.batchHeader bytes = .ok (count, rest)) :
    ∃ digits, bytes = '*'.toUInt8 :: (digits ++ 10 :: rest) ∧
      Numeral.isNumeral digits = true ∧ Numeral.value digits = count := by
  obtain ⟨start, behind, hbyte, hcount⟩ := Parse.bind_eq_ok.mp h
  have hbytes : bytes = start :: behind := by
    cases bytes with
    | nil => cases hbyte
    | cons b tail => cases hbyte; rfl
  split at hcount
  · rename_i hstart
    obtain ⟨digits, rfl, hdigits⟩ := Parse.count_eq_ok hcount
    exact ⟨digits, by rw [hbytes, hstart], hdigits⟩
  · cases hcount

/-- The entries in front of a stop are well formed. -/
theorem entriesGo_wellFormed (n : Nat) {found : List Entry} (bytes : Bytes)
    (hfound : ∀ entry ∈ found, entry.WellFormed) :
    ∀ entry ∈ (entries.go n found bytes).1, entry.WellFormed := by
  induction n generalizing found bytes with
  | zero => exact fun entry hentry => hfound entry (List.mem_reverse.mp hentry)
  | succ n ih =>
    unfold entries.go
    cases hentry : Parse.entry bytes with
    | error stop => exact fun entry hmem => hfound entry (List.mem_reverse.mp hmem)
    | ok result =>
      refine ih result.2 fun entry hmem => ?_
      rcases List.mem_cons.mp hmem with rfl | hmem
      · exact Parse.Ensures.entry _ _ _ hentry
      · exact hfound entry hmem

/-- The entries that are left of a batch that was cut short are well formed. -/
theorem decodedEntries_wellFormed (bytes : Bytes) :
    ∀ entry ∈ decodedEntries bytes, entry.WellFormed := by
  unfold decodedEntries
  split
  · nofun
  · exact entriesGo_wellFormed _ _ nofun

/-- A batch has as many entries as its header announces. -/
theorem length_of_decode_eq_complete {bytes : Bytes} {found : List Entry} {size : Nat}
    (h : decode bytes = .complete found size) :
    ∃ digits rest, bytes = '*'.toUInt8 :: (digits ++ 10 :: rest) ∧
      Numeral.isNumeral digits = true ∧ Numeral.value digits = found.length := by
  obtain ⟨after, hbatch, _⟩ := decode_eq_complete_iff.mp h
  obtain ⟨count, rest, hheader, hentries⟩ := Parse.bind_eq_ok.mp hbatch
  obtain ⟨digits, hbytes, hnumeral, hvalue⟩ := batchHeader_eq_ok hheader
  have hlength := (Parse.Ensures.repeated (fun _ => Parse.Ensures.entry) count _ _ _ hentries).1
  exact ⟨digits, rest, hbytes, hnumeral, hvalue.trans hlength.symm⟩

/-- What the parser of an entry ensures holds of every entry of a batch. -/
theorem forall_of_decode {bytes : Bytes} {found : List Entry} {size : Nat} {property : Entry → Prop}
    (hentry : Parse.Ensures Parse.entry property) (h : decode bytes = .complete found size) :
    ∀ entry ∈ found, property entry := by
  obtain ⟨_, hbatch, _⟩ := decode_eq_complete_iff.mp h
  obtain ⟨count, _, _, hentries⟩ := Parse.bind_eq_ok.mp hbatch
  exact (Parse.Ensures.repeated (fun _ => hentry) count _ _ _ hentries).2

/-- Everything that comes of some bytes is well formed: the entries of a batch, those in
front of the place where it breaks, and those that are left when it is cut short. A batch
has exactly as many entries as its header announces. -/
theorem decoded_entries_wellFormed (bytes : Bytes) :
    (∀ entry ∈ (decode bytes).entries, entry.WellFormed) ∧
    (∀ entry ∈ decodedEntries bytes, entry.WellFormed) ∧
    ∀ found size, decode bytes = .complete found size →
      ∃ digits rest, bytes = '*'.toUInt8 :: (digits ++ 10 :: rest) ∧
        Numeral.isNumeral digits = true ∧ Numeral.value digits = found.length := by
  refine ⟨?_, decodedEntries_wellFormed bytes, fun found size => length_of_decode_eq_complete⟩
  rw [decode_eq]
  rcases hbatch : Parse.batch bytes with (_ | e) | ⟨found, rest⟩
  · nofun
  · exact decodedEntries_wellFormed bytes
  · obtain ⟨count, behind, _, hentries⟩ := Parse.bind_eq_ok.mp hbatch
    exact (Parse.Ensures.repeated (fun _ => Parse.Ensures.entry) count _ _ _ hentries).2

/-- A batch of a typed array with a null in it and a response code. -/
theorem decoded_entries_wellFormed_typed :
    let bytes : Bytes := [42, 50, 10, 64, 43, 49, 10, 0, 10, 33, 49, 10, 55, 10]
    let found : List Entry := [⟨.array .typed, .array (.typed .string false) [.null], none⟩,
      ⟨.scalar .responseCode, .code .wrongType, none⟩]
    decode bytes = .complete found 14 ∧ (∀ entry ∈ found, entry.WellFormed) ∧
      ∃ digits rest, bytes = '*'.toUInt8 :: (digits ++ 10 :: rest) ∧
        Numeral.isNumeral digits = true ∧ Numeral.value digits = found.length := by
  intro bytes found
  have hdecode : decode bytes = .complete found 14 := by rfl
  obtain ⟨hentries, _, hlength⟩ := decoded_entries_wellFormed bytes
  rw [hdecode] at hentries
  exact ⟨hdecode, hentries, hlength found 14 hdecode⟩

end Batch

end StoreClient
