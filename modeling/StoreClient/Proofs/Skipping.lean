import StoreClient.Proofs.Decoding
import StoreClient.Proofs.ReadingBack

/-!
# Passing over items

The scan passes over the items that the decoder reads. It reads the headers of arrays and the
sizes of elements by itself, and finds there what the decoder finds, up to the error that a broken
one is reported with: `Alike` says so of two parsers. Of the items it checks less: where the
decoder finds an item broken the scan may go on. Where the decoder reads an item, or waits for
more bytes, the scan takes the same bytes, or waits as well. `Covers` says so of two parsers; it
is proved here for every item that is not an array.
-/

namespace StoreClient

namespace Parse

/-- Two parsers come to the same on all bytes, up to the error that they break with. -/
structure Alike {α : Type} (parser other : Parse α) : Prop where
  ok_iff : ∀ {bytes a rest}, parser bytes = .ok (a, rest) ↔ other bytes = .ok (a, rest)
  waits_iff : ∀ {bytes}, parser bytes = .error .incomplete ↔ other bytes = .error .incomplete

namespace Alike

variable {α β : Type} {parser other : Parse α} {next then' : α → Parse β} {bytes : Bytes}

/-- A parser comes to the same as itself. -/
theorem refl (parser : Parse α) : Alike parser parser := ⟨.rfl, .rfl⟩

/-- A parser comes to the same as one that it is equal to. -/
theorem of_eq (h : parser = other) : Alike parser other := h ▸ refl parser

/-- Two parsers that always break may do so with different errors. -/
theorem fail (e found : ProtocolError) : Alike (Parse.fail e : Parse α) (Parse.fail found) := by
  constructor
  · simp [Parse.fail]
  · simp [Parse.fail]

/-- What comes to the same goes on to the same. -/
theorem bind (h : Alike parser other) (hnext : ∀ a, Alike (next a) (then' a)) :
    Alike (parser >>= next) (other >>= then') := by
  constructor
  · simp only [bind_eq_ok, h.ok_iff, (hnext _).ok_iff, implies_true]
  · simp only [bind_eq_error, h.ok_iff, h.waits_iff, (hnext _).waits_iff, implies_true]

/-- Where one of the parsers breaks, so does the other one. -/
theorem exists_broken (h : Alike parser other) {e : ProtocolError}
    (hbroken : other bytes = .error (.broken e)) :
    ∃ found, parser bytes = .error (.broken found) := by
  cases hparser : parser bytes with
  | ok result =>
    have hother := h.ok_iff.mp hparser
    rw [hbroken] at hother
    cases hother
  | error stop =>
    cases stop with
    | broken found => exact ⟨found, rfl⟩
    | incomplete =>
      have hother := h.waits_iff.mp hparser
      rw [hbroken] at hother
      cases hother

end Alike

/-- The frame of an array is found from its length. -/
theorem frameOf_eq (shape : ArrayShape) (digits : Bytes) :
    Progress.frameOf shape digits =
      (fun header => ⟨header.1, header.2⟩) <$> shapeOf shape digits := by
  rw [shapeOf, Progress.frameOf, map_bind]
  rfl

/-- The frame of a typed array is found from its header. The scan refuses a type that is not
implemented as one that is unknown. -/
theorem typedFrameOf_alike (nonNull : Bool) (header : Bytes) :
    Alike (Progress.typedFrameOf nonNull header)
      ((fun header => ⟨header.1, header.2⟩) <$> typedShapeOf nonNull header) := by
  cases header with
  | nil => exact .fail _ _
  | cons tag digits =>
    rw [typedShapeOf, Progress.typedFrameOf]
    cases ScalarType.ofTag? tag with
    | none => exact .fail _ _
    | some element =>
      cases hsupported : element.isSupported with
      | false =>
        simp only [Option.filter, hsupported, Bool.false_eq_true, if_false]
        exact .fail _ _
      | true =>
        simp only [Option.filter, hsupported, if_true]
        exact .of_eq (frameOf_eq _ digits)

/-- The scan reads the header of an array as the decoder does. -/
theorem frameHeader_alike (kind : ArrayKind) :
    Alike (Progress.frameHeader kind)
      ((fun header => ⟨header.1, header.2⟩) <$> arrayHeader kind) := by
  rw [Progress.frameHeader, arrayHeader, map_bind]
  refine Alike.bind (.refl line) fun header => ?_
  cases kind with
  | nested => exact .of_eq (frameOf_eq _ header)
  | flat => exact .of_eq (frameOf_eq _ header)
  | any => exact .of_eq (frameOf_eq _ header)
  | typed => exact typedFrameOf_alike false header
  | typedNonNull => exact typedFrameOf_alike true header

/-- Behind the size of an element comes its payload; a null has none. -/
def skipSized (element : ScalarType) : Option Nat → Parse Unit
  | none => pure ()
  | some size => Progress.skipBody element size

/-- A count that starts with a tag breaks. -/
theorem countOf_of_tag {first : UInt8} {type : ScalarType} (what : String) (rest : Bytes)
    (h : ScalarType.ofTag? first = some type) :
    ∃ e, countOf what (first :: rest) = fail e := by
  have hdigit : Numeral.isDigit first = false := by
    cases hdigit : Numeral.isDigit first with
    | false => rfl
    | true =>
      rw [ScalarType.ofTag?_of_isDigit hdigit] at h
      cases h
  have hcount : Numeral.count? (first :: rest) = none := by
    simp [Numeral.count?, Numeral.below?, Numeral.isNumeral, hdigit]
  rw [countOf, hcount]
  exact ⟨_, rfl⟩

/-- The scan passes over an element of a typed array behind the size that the decoder reads. Where
the decoder finds the tag of another type, the scan finds a line that is no size. -/
theorem skipTypedElement_alike (element : ScalarType) :
    Alike (Progress.skipTypedElement element) (elementSize element >>= skipSized element) := by
  rw [Progress.skipTypedElement, elementSize, bind_assoc]
  refine Alike.bind (.refl line) fun start => ?_
  cases start with
  | nil =>
    rw [bind_map_left]
    exact .refl _
  | cons first rest =>
    by_cases hnull : first :: rest = [0]
    · simp only [if_pos hnull]
      exact .refl _
    · by_cases hown : first = element.tag
      · simp only [if_neg hnull, if_pos hown, Progress.untagged, bind_map_left]
        exact .refl _
      · simp only [if_neg hnull, if_neg hown, Progress.untagged]
        cases hother : ScalarType.ofTag? first with
        | none =>
          rw [bind_map_left]
          exact .refl _
        | some found =>
          obtain ⟨e, he⟩ := countOf_of_tag "element size" rest hother
          rw [he]
          exact .fail _ _

/-- Wherever the item is read, `skip` takes the same bytes and answers with `b`; where
the item waits for more bytes, `skip` does so too. -/
structure Covers {α β : Type} (skip : Parse β) (b : β) (item : Parse α) : Prop where
  passes : ∀ {bytes a rest}, item bytes = .ok (a, rest) → skip bytes = .ok (b, rest)
  waits : ∀ {bytes}, item bytes = .error .incomplete → skip bytes = .error .incomplete

/-- The parser judges bytes that were taken before: it takes none and waits for none. -/
def IsVerdict {α : Type} (parser : Parse α) : Prop :=
  (∃ a, parser = pure a) ∨ ∃ e, parser = fail e

/-- The value of a response code is judged from its line. -/
theorem responseCode_isVerdict (size : Nat) (text : Bytes) :
    IsVerdict (responseCode size text) := by
  unfold responseCode
  split
  · dsimp only
    split
    · exact .inr ⟨_, rfl⟩
    · exact .inl ⟨_, rfl⟩
    · exact .inl ⟨_, rfl⟩
  · exact .inl ⟨_, rfl⟩

/-- The value of a scalar is judged from its line. -/
theorem lineValue_isVerdict (type : ScalarType) (size : Nat) (text : Bytes) :
    IsVerdict (lineValue type size text) := by
  unfold lineValue
  split
  · exact .inl ⟨_, rfl⟩
  · split
    · exact responseCode_isVerdict size text
    · split
      · exact .inl ⟨_, rfl⟩
      · exact .inl ⟨_, rfl⟩

/-- What is judged from a judgement is judged. -/
theorem IsVerdict.bind {α β : Type} {parser : Parse α} {next : α → Parse β} (h : IsVerdict parser)
    (hnext : ∀ a, IsVerdict (next a)) : IsVerdict (parser >>= next) := by
  obtain ⟨a, rfl⟩ | ⟨e, rfl⟩ := h
  · exact hnext a
  · exact .inr ⟨e, rfl⟩

/-- A count is judged from its line. -/
theorem countOf_isVerdict (what : String) (digits : Bytes) : IsVerdict (countOf what digits) := by
  unfold countOf
  split
  · exact .inl ⟨_, rfl⟩
  · exact .inr ⟨_, rfl⟩

/-- The shape of an array is judged from its header. -/
theorem shapeOf_isVerdict (shape : ArrayShape) (digits : Bytes) :
    IsVerdict (shapeOf shape digits) :=
  (countOf_isVerdict _ _).bind fun _ => .inl ⟨_, rfl⟩

/-- The shape of a typed array is judged from its header. -/
theorem typedShapeOf_isVerdict (nonNull : Bool) (header : Bytes) :
    IsVerdict (typedShapeOf nonNull header) := by
  unfold typedShapeOf
  split
  · exact .inr ⟨_, rfl⟩
  · split
    · exact .inr ⟨_, rfl⟩
    · split
      · exact shapeOf_isVerdict _ _
      · exact .inr ⟨_, rfl⟩

namespace Covers

variable {α β γ : Type}

/-- What covers an item may be replaced by what comes to the same. -/
theorem ofAlike {skip other : Parse β} {b : β} {item : Parse α} (h : Alike skip other)
    (hother : Covers other b item) : Covers skip b item where
  passes hok := h.ok_iff.mpr (hother.passes hok)
  waits hwait := h.waits_iff.mpr (hother.waits hwait)

/-- What breaks always need not be passed over. -/
theorem fail (skip : Parse β) (b : β) (e : ProtocolError) :
    Covers skip b (Parse.fail e : Parse α) where
  passes h := by cases h
  waits h := by cases h

/-- A verdict is passed over by taking nothing. -/
theorem ofVerdict (b : β) {item : Parse α} (h : IsVerdict item) : Covers (Pure.pure b) b item := by
  obtain ⟨a, rfl⟩ | ⟨e, rfl⟩ := h
  · exact ⟨fun h => by cases h; rfl, fun h => by cases h⟩
  · exact fail _ b e

/-- The item may be judged after it was read. -/
theorem verdict {skip : Parse β} {b : β} {item : Parse α} {next : α → Parse γ}
    (h : Covers skip b item) (hnext : ∀ a, IsVerdict (next a)) : Covers skip b (item >>= next) where
  passes hok := by
    obtain ⟨a, behind, hitem, hverdict⟩ := bind_eq_ok.mp hok
    obtain ⟨c, hc⟩ | ⟨e, he⟩ := hnext a
    · rw [hc] at hverdict
      cases hverdict
      exact h.passes hitem
    · rw [he] at hverdict
      cases hverdict
  waits hwait := by
    obtain hitem | ⟨a, behind, _, hverdict⟩ := bind_eq_error.mp hwait
    · exact h.waits hitem
    · obtain ⟨c, hc⟩ | ⟨e, he⟩ := hnext a
      · rw [hc] at hverdict
        cases hverdict
      · rw [he] at hverdict
        cases hverdict

/-- Both may start with the same parser. -/
theorem bind {first : Parse γ} {skip : γ → Parse β} {b : β} {item : γ → Parse α}
    (h : ∀ c, Covers (skip c) b (item c)) : Covers (first >>= skip) b (first >>= item) where
  passes hok := by
    obtain ⟨c, behind, hfirst, hitem⟩ := bind_eq_ok.mp hok
    exact bind_eq_ok.mpr ⟨c, behind, hfirst, (h c).passes hitem⟩
  waits hwait := by
    obtain hfirst | ⟨c, behind, hfirst, hitem⟩ := bind_eq_error.mp hwait
    · exact bind_eq_error.mpr (.inl hfirst)
    · exact bind_eq_error.mpr (.inr ⟨c, behind, hfirst, (h c).waits hitem⟩)

/-- The answer of passing over the item may be changed. -/
theorem answer {skip : Parse γ} {c : γ} {item : Parse α} (b : β) (h : Covers skip c item) :
    Covers (skip >>= fun _ => Pure.pure b) b item where
  passes hok := bind_eq_ok.mpr ⟨c, _, h.passes hok, rfl⟩
  waits hwait := bind_eq_error.mpr (.inl (h.waits hwait))

/-- A payload is passed over by its size alone. -/
theorem scalarBody (type : ScalarType) (size : Nat) :
    Covers (Progress.skipBody type size) () (Parse.scalarBody type size) := by
  unfold Progress.skipBody Parse.scalarBody
  split
  · exact bind fun bytes => ofVerdict () (.inl ⟨_, rfl⟩)
  · exact bind fun text => ofVerdict () (lineValue_isVerdict type size text)

/-- A scalar. -/
theorem scalar (type : ScalarType) :
    Covers (Progress.skipScalar type) () (Parse.scalar type) :=
  bind fun size => scalarBody type size

/-- A scalar inside an array. -/
theorem unflawed {skip : Parse β} {b : β} {item : Parse Flawed} (h : Covers skip b item) :
    Covers skip b (Parse.unflawed item) := by
  refine h.verdict fun flawed => ?_
  obtain ⟨value, flaw⟩ := flawed
  cases flaw with
  | none => exact .inl ⟨value, rfl⟩
  | some e => exact .inr ⟨e, rfl⟩

/-- An element of a typed array. -/
theorem typedElement (element : ScalarType) (nonNull : Bool) :
    Covers (Progress.skipTypedElement element) () (Parse.typedElement element nonNull) := by
  refine ofAlike (skipTypedElement_alike element) (bind fun size => ?_)
  cases size with
  | none =>
    refine ofVerdict () ?_
    dsimp only
    split
    · exact .inr ⟨_, rfl⟩
    · exact .inl ⟨_, rfl⟩
  | some size => exact unflawed (scalarBody element size)

/-- An item of a flat array. -/
theorem flatItem (index : Nat) : Covers Progress.skipFlatItem () (Parse.flatItem index) := by
  refine bind fun type => ?_
  cases type with
  | scalar type => exact unflawed (scalar type)
  | array kind => exact fail _ () _

/-- An item without a tag. -/
theorem anyItem : Covers Progress.skipAnyItem () Parse.anyItem :=
  bind fun _ => bind fun _ => ofVerdict () (.inl ⟨_, rfl⟩)

end Covers

end Parse

end StoreClient
