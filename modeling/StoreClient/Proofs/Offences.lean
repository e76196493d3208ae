import StoreClient.Proofs.InPlace
import Mathlib.Data.List.Lex

/-!
# What cannot be written

A value is refused for something in it that cannot be sent where it stands. `Offends` lists what
that can be, and `Offends.At` says where in a value it is. The writer finds the first of these
places: an array is looked at before its items, and an item before those behind it. Values in which
there is none are the encodable ones.
-/

namespace StoreClient

/-- Where a value stands. -/
inductive Place where
  /-- By itself, with a tag or without. -/
  | alone (typed : Bool)
  /-- In an array of this shape. -/
  | inside (shape : ArrayShape)
  deriving DecidableEq, Repr

namespace Place

/-- An array can stand here. -/
def TakesArrays (place : Place) : Prop := place = alone true ∨ place = inside .nested

/-- The parts of a value and where they stand. A path says which item to go to, array by array. -/
def part? (place : Place) (v : Value) : List Nat → Option (Place × Value)
  | [] => some (place, v)
  | n :: path =>
    match v with
    | .array shape items => items[n]?.bind fun item => (inside shape).part? item path
    | _ => none

end Place

/-- What cannot be sent where it stands, and why. The parts of an array do not matter here. -/
inductive Offends : Place → Value → EncodeError → Prop where
  /-- A null by itself. -/
  | null {typed : Bool} : Offends (.alone typed) .null (.unsupportedValue "null")
  /-- A null in an array that has no nulls. -/
  | nullItem {shape : ArrayShape} : (∀ element, shape ≠ .typed element false) →
      Offends (.inside shape) .null (.nullElement shape.kind)
  /-- An array without a tag. -/
  | untaggedArray {shape : ArrayShape} {items : List Value} :
      Offends (.alone false) (.array shape items) (.missingTypeInfo shape.kind)
  /-- An array in a flat array. -/
  | arrayInFlat {shape : ArrayShape} {items : List Value} :
      Offends (.inside .flat) (.array shape items) .nestedArray
  /-- An array among byte strings. -/
  | arrayInAny {shape : ArrayShape} {items : List Value} :
      Offends (.inside .any) (.array shape items) (.arrayElement .any)
  /-- An array in a typed array. -/
  | arrayInTyped {element : ScalarType} {nonNull : Bool} {shape : ArrayShape}
      {items : List Value} :
      Offends (.inside (.typed element nonNull)) (.array shape items)
        (.arrayElement (ArrayShape.typed element nonNull).kind)
  /-- An array whose header names a type that elements cannot have. -/
  | header {place : Place} {element : ScalarType} {nonNull : Bool} {items : List Value} :
      place.TakesArrays → ¬ (element.isSupported = true ∧ element ≠ .responseCode) →
      Offends place (.array (.typed element nonNull) items) (.invalidElementType element)
  /-- A scalar of another type than the array around it. -/
  | elementType {element : ScalarType} {nonNull : Bool} {v : Value} :
      v ≠ .null → v.isArray = false → v.scalarType? ≠ some element →
      Offends (.inside (.typed element nonNull)) v (.elementType element v.display)
  /-- A placeholder. If it stands in a typed array, then the type is the right one. -/
  | unsupported {place : Place} {tag : UInt8} :
      (∀ element nonNull, place = .inside (.typed element nonNull) →
        ScalarType.ofTag? tag = some element) →
      Offends place (.unsupported tag) (.unsupportedValue "unsupported")

/-- The parts of an array are those of its items. -/
theorem Place.part?_array (place : Place) (shape : ArrayShape) (items : List Value) (n : Nat)
    (path : List Nat) :
    place.part? (.array shape items) (n :: path) =
      items[n]?.bind fun item => (inside shape).part? item path := rfl

/-- The value may stand here, as far as its items do not matter. -/
def Place.Fits (place : Place) (v : Value) : Prop := ∀ e, ¬ Offends place v e

namespace Offends

variable {place : Place} {v part : Value} {shape : ArrayShape} {items : List Value}
  {e : EncodeError} {path : List Nat} {n : Nat}

/-- Something is wrong with the part at the end of the path. -/
def At (place : Place) (v : Value) (path : List Nat) (e : EncodeError) : Prop :=
  ∃ inner part, place.part? v path = some (inner, part) ∧ Offends inner part e

/-- The first thing that is wrong. Paths are compared from their start, so that an array comes
before its items, and each item with all its parts before the next one. -/
def First (place : Place) (v : Value) (e : EncodeError) : Prop :=
  ∃ path, At place v path e ∧
    ∀ other e', At place v other e' → other = path ∨ List.Lex (· < ·) path other

/-- Nothing is wrong. -/
def Nowhere (place : Place) (v : Value) : Prop := ∀ path e, ¬ At place v path e

/-- What is wrong with an item is wrong within the array. -/
theorem At.within (hitem : items[n]? = some part) (h : At (.inside shape) part path e) :
    At place (.array shape items) (n :: path) e := by
  obtain ⟨inner, innermost, hpart, hoffends⟩ := h
  refine ⟨inner, innermost, ?_, hoffends⟩
  rw [Place.part?_array, hitem]
  exact hpart

/-- What is wrong within a value is wrong with itself or within an item. -/
theorem At.cases (h : At place v path e) :
    path = [] ∧ Offends place v e ∨
    ∃ shape items n rest item, v = .array shape items ∧ path = n :: rest ∧
      items[n]? = some item ∧ At (.inside shape) item rest e := by
  obtain ⟨inner, part, hpart, hoffends⟩ := h
  cases path with
  | nil =>
    cases hpart
    exact .inl ⟨rfl, hoffends⟩
  | cons n rest =>
    cases v with
    | array shape items =>
      rw [Place.part?_array, Option.bind_eq_some_iff] at hpart
      obtain ⟨item, hitem, hpart⟩ := hpart
      exact .inr ⟨shape, items, n, rest, item, rfl, rfl, hitem, inner, part, hpart, hoffends⟩
    | _ => cases hpart

/-- What is wrong with a value itself comes first. -/
theorem First.here (h : Offends place v e) : First place v e := by
  refine ⟨[], ⟨place, v, rfl, h⟩, fun other _ _ => ?_⟩
  cases other with
  | nil => exact .inl rfl
  | cons => exact .inr .nil

/-- The first thing that is wrong with the items is the first one within the array, if the array
itself may stand where it does. -/
theorem First.within {before after : List Value}
    (hfits : place.Fits (.array shape (before ++ part :: after)))
    (hbefore : ∀ item ∈ before, Nowhere (.inside shape) item) (h : First (.inside shape) part e) :
    First place (.array shape (before ++ part :: after)) e := by
  obtain ⟨path, hat, hfirst⟩ := h
  have hpart : (before ++ part :: after)[before.length]? = some part := by
    rw [List.getElem?_append_right (Nat.le_refl _), Nat.sub_self]
    rfl
  refine ⟨before.length :: path, hat.within hpart, fun other e' hother => ?_⟩
  rcases hother.cases with ⟨-, hoffends⟩ | ⟨_, _, n, rest, item, hv, rfl, hitem, hinner⟩
  · exact absurd hoffends (hfits e')
  cases hv
  rcases Nat.lt_trichotomy n before.length with hlt | rfl | hgt
  · rw [List.getElem?_append_left hlt] at hitem
    exact absurd hinner (hbefore item (List.mem_of_getElem? hitem) rest e')
  · cases hpart.symm.trans hitem
    rcases hfirst rest e' hinner with rfl | hlater
    · exact .inl rfl
    · exact .inr (.cons hlater)
  · exact .inr (.rel hgt)

/-- Nothing is wrong within an array if it may stand where it does, and each item in it. -/
theorem nowhere_array : Nowhere place (.array shape items) ↔
    place.Fits (.array shape items) ∧ ∀ item ∈ items, Nowhere (.inside shape) item := by
  constructor
  · refine fun h => ⟨fun e he => h [] e ⟨place, _, rfl, he⟩, fun item hmem path e hat => ?_⟩
    obtain ⟨n, hn⟩ := List.getElem?_of_mem hmem
    exact h (n :: path) e (hat.within hn)
  · rintro ⟨hfits, hitems⟩ path e hat
    rcases hat.cases with ⟨-, hoffends⟩ | ⟨_, _, n, rest, item, hv, -, hitem, hinner⟩
    · exact hfits e hoffends
    · cases hv
      exact hitems item (List.mem_of_getElem? hitem) rest e hinner

/-- Nothing is wrong within what is no array if it may stand where it does. -/
theorem nowhere_of_isArray_eq_false (h : v.isArray = false) : Nowhere place v ↔ place.Fits v := by
  constructor
  · exact fun hnowhere e he => hnowhere [] e ⟨place, v, rfl, he⟩
  · rintro hfits path e hat
    rcases hat.cases with ⟨-, hoffends⟩ | ⟨_, _, _, _, _, rfl, -⟩
    · exact hfits e hoffends
    · cases h

end Offends

namespace Place

open Offends

variable {place : Place} {v : Value} {shape : ArrayShape} {items : List Value} {e : EncodeError}

/-- Whether a header may name this type. -/
theorem isElementType_iff {element : ScalarType} :
    element.isElementType = true ↔ element.isSupported = true ∧ element ≠ .responseCode := by
  simp [ScalarType.isElementType]

/-- A null fits into typed arrays that have nulls. -/
theorem fits_null : place.Fits .null ↔ ∃ element, place = .inside (.typed element false) := by
  constructor
  · intro h
    cases place with
    | alone typed => exact absurd .null (h _)
    | inside shape =>
      by_contra hnone
      refine h _ (.nullItem fun element hshape => hnone ⟨element, ?_⟩)
      rw [hshape]
  · rintro ⟨element, rfl⟩ e he
    cases he with
    | nullItem hnonNull => exact hnonNull element rfl
    | elementType hnull => exact hnull rfl

/-- A placeholder fits nowhere. -/
theorem not_fits_unsupported (tag : UInt8) : ¬ place.Fits (.unsupported tag) := by
  intro h
  by_cases hmatches : ∀ element nonNull, place = .inside (.typed element nonNull) →
      ScalarType.ofTag? tag = some element
  · exact h _ (.unsupported hmatches)
  · push Not at hmatches
    obtain ⟨element, nonNull, rfl, htype⟩ := hmatches
    exact h _ (.elementType nofun rfl htype)

/-- An array fits where arrays can stand, if its header can be sent. -/
theorem fits_array : place.Fits (.array shape items) ↔ place.TakesArrays ∧ shape.IsSendable := by
  constructor
  · intro h
    have htakes : place.TakesArrays := by
      rcases place with (_ | _) | (_ | _ | _ | _)
      · exact absurd .untaggedArray (h _)
      · exact .inl rfl
      · exact .inr rfl
      · exact absurd .arrayInFlat (h _)
      · exact absurd .arrayInAny (h _)
      · exact absurd .arrayInTyped (h _)
    refine ⟨htakes, fun element helement => ?_⟩
    cases shape with
    | typed type nonNull =>
      cases helement
      by_contra hinvalid
      rw [isElementType_iff] at hinvalid
      exact h _ (.header htakes hinvalid)
    | _ => cases helement
  · rintro ⟨htakes, hsendable⟩ e he
    cases he with
    | header _ hinvalid => exact hinvalid (isElementType_iff.mp (hsendable _ rfl))
    | elementType _ harray => cases harray
    | _ => rcases htakes with htakes | htakes <;> cases htakes

/-- A scalar fits everywhere but into the arrays of another type. -/
theorem fits_scalar {type : ScalarType} {payload : Bytes} (h : v.payload? = some (type, payload)) :
    place.Fits v ↔
      ∀ element nonNull, place = .inside (.typed element nonNull) → type = element := by
  have htype := Value.scalarType?_of_payload? h
  constructor
  · rintro hfits element nonNull rfl
    by_contra hother
    refine hfits _ (.elementType ?_ ?_ fun hsame => hother ?_)
    · rintro rfl
      cases h
    · cases v <;> first | rfl | cases h
    · exact Option.some.inj (htype.symm.trans hsame)
  · intro hsame e he
    cases he with
    | elementType _ _ hother => exact hother (by rw [htype, hsame _ _ rfl])
    | _ => cases h

/-- An item is fine in an array if it is a null that the array has, or fine by itself and of the
type that the header names. -/
theorem nowhere_inside : Nowhere (.inside shape) v ↔
    (v = .null ∧ ∃ element, shape = .typed element false) ∨
    (Nowhere (.alone shape.tagsItems) v ∧
      ∀ element nonNull, shape = .typed element nonNull → v.scalarType? = some element) := by
  cases v with
  | null =>
    rw [nowhere_of_isArray_eq_false rfl, nowhere_of_isArray_eq_false rfl, fits_null, fits_null]
    simp
  | array inner items =>
    have htakes : (inside shape).TakesArrays ↔ (alone shape.tagsItems).TakesArrays ∧
        ∀ element nonNull, shape ≠ .typed element nonNull := by
      cases shape <;> simp [TakesArrays, ArrayShape.tagsItems]
    rw [nowhere_array, nowhere_array, fits_array, fits_array, htakes]
    simp only [reduceCtorEq, false_and, false_or, Value.scalarType?]
    tauto
  | unsupported tag =>
    rw [nowhere_of_isArray_eq_false rfl, nowhere_of_isArray_eq_false rfl]
    simp [not_fits_unsupported]
  | _ =>
    rw [nowhere_of_isArray_eq_false rfl, nowhere_of_isArray_eq_false rfl, fits_scalar rfl,
      fits_scalar rfl]
    simp [Value.scalarType?]

/-- What is fine in an array that names no type is what is fine by itself. -/
theorem nowhere_inside_untyped (h : shape.element? = none) :
    Nowhere (.inside shape) v ↔ Nowhere (.alone shape.tagsItems) v := by
  rw [nowhere_inside]
  cases shape with
  | typed => cases h
  | _ => simp

end Place

/-- What the writer takes. -/
inductive Encodable : Bool → Value → Prop where
  /-- A scalar. -/
  | scalar {typed : Bool} {v : Value} : v.isArray = false → v ≠ .null →
      (∀ tag, v ≠ .unsupported tag) → Encodable typed v
  /-- An array of what has tags. -/
  | nested {items : List Value} : (∀ item ∈ items, Encodable true item) →
      Encodable true (.array .nested items)
  /-- An array of what has no tags, which are scalars. -/
  | untagged {shape : ArrayShape} {items : List Value} : shape = .flat ∨ shape = .any →
      (∀ item ∈ items, Encodable false item) → Encodable true (.array shape items)
  /-- An array of scalars of the type that its header names, and of nulls if it has them. -/
  | typed {element : ScalarType} {nonNull : Bool} {items : List Value} :
      element.isSupported = true → element ≠ .responseCode →
      (nonNull = true → .null ∉ items) → (∀ item ∈ items, item ≠ .null → Encodable false item) →
      (∀ item ∈ items, item ≠ .null → item.scalarType? = some element) →
      Encodable true (.array (.typed element nonNull) items)

namespace Encodable

open Offends Place

/-- An array is encodable with a tag, if its header can be sent and its items are fine. -/
theorem array_iff {typed : Bool} {shape : ArrayShape} {items : List Value}
    (hitems : ∀ item ∈ items, ∀ typed, Encodable typed item ↔ Nowhere (.alone typed) item) :
    Encodable typed (.array shape items) ↔
      (typed = true ∧ shape.IsSendable) ∧ ∀ item ∈ items, Nowhere (.inside shape) item := by
  constructor
  · intro h
    cases h with
    | scalar harray => cases harray
    | nested hin =>
      refine ⟨⟨rfl, .untyped rfl⟩, fun item hmem => ?_⟩
      exact (nowhere_inside_untyped rfl).mpr ((hitems item hmem true).mp (hin item hmem))
    | untagged hshape hin =>
      rcases hshape with rfl | rfl <;> refine ⟨⟨rfl, .untyped rfl⟩, fun item hmem => ?_⟩ <;>
        exact (nowhere_inside_untyped rfl).mpr ((hitems item hmem false).mp (hin item hmem))
    | typed hsupported hcode hnull hin htype =>
      refine ⟨⟨rfl, ?_⟩, fun item hmem => nowhere_inside.mpr ?_⟩
      · rintro _ ⟨⟩
        exact isElementType_iff.mpr ⟨hsupported, hcode⟩
      by_cases hitem : item = .null
      · subst hitem
        exact .inl ⟨rfl, _, by rw [Bool.eq_false_iff.mpr fun hnonNull => hnull hnonNull hmem]⟩
      · refine .inr ⟨(hitems item hmem false).mp (hin item hmem hitem), ?_⟩
        rintro _ _ ⟨⟩
        exact htype item hmem hitem
  · rintro ⟨⟨rfl, hsendable⟩, hin⟩
    have huntyped (h : shape.element? = none) (item : Value) (hmem : item ∈ items) :
        Encodable shape.tagsItems item :=
      (hitems item hmem _).mpr ((nowhere_inside_untyped h).mp (hin item hmem))
    cases shape with
    | nested => exact .nested (huntyped rfl)
    | flat => exact .untagged (.inl rfl) (huntyped rfl)
    | any => exact .untagged (.inr rfl) (huntyped rfl)
    | typed element nonNull =>
      obtain ⟨hsupported, hcode⟩ := isElementType_iff.mp (hsendable element rfl)
      have hother (item : Value) (hmem : item ∈ items) (hnull : item ≠ .null) :=
        (nowhere_inside.mp (hin item hmem)).resolve_left fun h => hnull h.1
      refine .typed hsupported hcode ?_ (fun item hmem hnull => ?_) fun item hmem hnull => ?_
      · rintro rfl hmem
        have hfits := (nowhere_of_isArray_eq_false rfl).mp (hin .null hmem)
        obtain ⟨_, ⟨⟩⟩ := fits_null.mp hfits
      · exact (hitems item hmem false).mpr (hother item hmem hnull).1
      · exact (hother item hmem hnull).2 element nonNull rfl

/-- Encodable are the values in which nothing is wrong. -/
theorem iff_nowhere (typed : Bool) (v : Value) : Encodable typed v ↔ Nowhere (.alone typed) v := by
  cases v with
  | array shape items =>
    rw [nowhere_array, fits_array, array_iff fun item _ typed => iff_nowhere typed item]
    simp [TakesArrays]
  | null =>
    rw [nowhere_of_isArray_eq_false rfl, fits_null]
    constructor
    · rintro (⟨-, hnull, -⟩)
      exact absurd rfl hnull
    · rintro ⟨_, ⟨⟩⟩
  | unsupported tag =>
    rw [nowhere_of_isArray_eq_false rfl]
    constructor
    · rintro (⟨-, -, hsupported⟩)
      exact absurd rfl (hsupported tag)
    · exact fun h => absurd h (not_fits_unsupported tag)
  | _ =>
    rw [nowhere_of_isArray_eq_false rfl, fits_scalar rfl]
    exact ⟨fun _ => nofun, fun _ => .scalar rfl nofun nofun⟩

end Encodable

/-- Behind what is written, the next writer fails. -/
theorem Writes.bind_error {writer next : Bytes → Except EncodeError Bytes} {bytes : Bytes}
    {e : EncodeError} (h : Writes writer bytes) (hnext : ∀ buffer, next buffer = .error e)
    (buffer : Bytes) : writer buffer >>= next = .error e := by
  rw [h]
  exact hnext _

/-- Write a value where it stands. -/
def Place.append (place : Place) (v : Value) : Bytes → Except EncodeError Bytes :=
  match place with
  | .alone typed => v.append typed
  | .inside shape => appendItem shape v

namespace Place

open Offends

variable {place : Place} {v : Value} {shape : ArrayShape} {items : List Value} {e : EncodeError}

/-- An array takes the items that fit. -/
theorem refuses_of_fits (h : (inside shape).Fits v) : shape.refuses v = none := by
  cases v with
  | null =>
    obtain ⟨element, ⟨⟩⟩ := fits_null.mp h
    rfl
  | array =>
    obtain ⟨htakes | htakes, -⟩ := fits_array.mp h <;> cases htakes
    rfl
  | unsupported tag => exact absurd h (not_fits_unsupported tag)
  | _ =>
    have htype := (fits_scalar rfl).mp h
    cases shape with
    | typed element nonNull =>
      cases htype element nonNull rfl
      rfl
    | _ => rfl

/-- Where arrays can stand, an array is written with its header and its items. -/
theorem append_array (h : place.TakesArrays) (shape : ArrayShape) (items : List Value) :
    place.append (.array shape items) = fun buffer =>
      appendArrayHeader shape.kind shape.element? items.length buffer >>=
        appendItems shape items := by
  funext buffer
  rcases h with rfl | rfl
  · change (Value.array shape items).append true buffer = _
    rw [Value.append, if_pos rfl]
  · change (Value.array shape items).append true buffer = _
    rw [Value.append, if_pos rfl]

/-- What fits and is no array is written. -/
theorem exists_writes (harray : v.isArray = false) (h : place.Fits v) :
    ∃ bytes, Writes (place.append v) bytes := by
  have hscalar {type : ScalarType} {payload : Bytes} (hnull : v.isNull = false)
      (hpayload : v.payload? = some (type, payload)) : ∃ bytes, Writes (place.append v) bytes := by
    cases place with
    | alone typed => exact ⟨_, Value.writes_scalar hpayload typed⟩
    | inside shape =>
      exact ⟨_, writes_appendItem (refuses_of_fits h) hnull (Value.writes_scalar hpayload _)⟩
  cases v with
  | null =>
    obtain ⟨element, rfl⟩ := fits_null.mp h
    exact ⟨_, fun buffer => rfl⟩
  | array => cases harray
  | unsupported tag => exact absurd h (not_fits_unsupported tag)
  | _ => exact hscalar rfl rfl

/-- Nothing is written of what cannot be sent where it stands. -/
theorem append_of_offends (h : Offends place v e) (buffer : Bytes) :
    place.append v buffer = .error e := by
  cases h with
  | null => rw [append, Value.append]
  | @nullItem shape hnonNull =>
    have hrefuses : shape.refuses .null = some (.nullElement shape.kind) := by
      rcases shape with _ | _ | _ | ⟨element, _ | _⟩
      · rfl
      · rfl
      · rfl
      · exact absurd rfl (hnonNull element)
      · rfl
    rw [append, appendItem, hrefuses]
  | untaggedArray =>
    rw [append, Value.append]
    rfl
  | arrayInFlat => rfl
  | arrayInAny => rfl
  | arrayInTyped => rfl
  | @header _ element nonNull items htakes hinvalid =>
    have htyped : (ArrayShape.typed element nonNull).kind.isTyped = true := by
      cases nonNull <;> rfl
    have hheader : appendArrayHeader (ArrayShape.typed element nonNull).kind (some element)
        items.length buffer = .error (.invalidElementType element) := by
      rw [appendArrayHeader, if_pos htyped]
      exact if_neg fun hvalid => hinvalid (isElementType_iff.mp hvalid)
    rw [append_array htakes]
    exact congrArg (· >>= appendItems (.typed element nonNull) items) hheader
  | elementType hnull harray htype =>
    have hisNull : v.isNull = false := by
      cases v <;> first | rfl | exact absurd rfl hnull
    simp [append, appendItem, ArrayShape.refuses, hisNull, harray, htype]
  | @unsupported place tag hmatches =>
    cases place with
    | alone typed => rw [append, Value.append]
    | inside shape =>
      have hrefuses : shape.refuses (.unsupported tag) = none := by
        cases shape with
        | typed element nonNull => exact if_pos (hmatches element nonNull rfl)
        | _ => rfl
      simp [append, appendItem, hrefuses, Value.isNull, Value.append]

/-- A value is written as a whole, and then nothing is wrong in it, or its first offence is
reported. It does not matter what the buffer holds. -/
inductive Settles (place : Place) (v : Value) : Prop
  | written {bytes : Bytes} : Writes (place.append v) bytes → Nowhere place v → Settles place v
  | refused {e : EncodeError} : (∀ buffer, place.append v buffer = .error e) → First place v e →
      Settles place v

/-- The items of an array are written as a whole, or the first offence of the first one that has any
is reported. -/
theorem items_settle (hitems : ∀ item ∈ items, (inside shape).Settles item) :
    ((∃ bytes, Writes (appendItems shape items) bytes) ∧
      ∀ item ∈ items, Nowhere (.inside shape) item) ∨
    ∃ before item after e, items = before ++ item :: after ∧
      (∀ earlier ∈ before, Nowhere (.inside shape) earlier) ∧ First (.inside shape) item e ∧
      ∀ buffer, appendItems shape items buffer = .error e := by
  induction items with
  | nil =>
    exact .inl ⟨⟨[], fun buffer => by rw [appendItems, List.append_nil]⟩, nofun⟩
  | cons item rest ih =>
    rw [InPlace.appendItems_cons]
    cases hitems item List.mem_cons_self with
    | @refused e hrefused hfirst =>
      refine .inr ⟨[], item, rest, e, rfl, nofun, hfirst, fun buffer => ?_⟩
      exact congrArg (· >>= appendItems shape rest) (hrefused buffer)
    | @written bytes hwrites hnowhere =>
      rcases ih fun item hmem => hitems item (List.mem_cons_of_mem _ hmem) with
        ⟨⟨more, hmore⟩, hclean⟩ | ⟨before, culprit, after, e, rfl, hbefore, hfirst, hrefused⟩
      · exact .inl ⟨⟨_, Writes.bind hwrites hmore⟩, List.forall_mem_cons.mpr ⟨hnowhere, hclean⟩⟩
      · refine .inr ⟨item :: before, culprit, after, e, rfl,
          List.forall_mem_cons.mpr ⟨hnowhere, hbefore⟩, hfirst, hwrites.bind_error hrefused⟩

/-- A value settles wherever it stands. -/
theorem settles (place : Place) (v : Value) : place.Settles v := by
  by_cases hfits : place.Fits v
  · cases v with
    | array shape items =>
      obtain ⟨htakes, hsendable⟩ := fits_array.mp hfits
      have hitems : ∀ item ∈ items, (inside shape).Settles item := fun item _ => settles _ item
      have happend := append_array htakes shape items
      have hheader := ArrayShape.writes_opening hsendable items.length
      rcases items_settle hitems with
        ⟨⟨bytes, hwrites⟩, hnowhere⟩ | ⟨before, item, after, e, hv, hbefore, hfirst, hrefused⟩
      · have hwhole := hheader.bind hwrites
        rw [← happend] at hwhole
        exact .written hwhole (nowhere_array.mpr ⟨hfits, hnowhere⟩)
      · subst hv
        have hwhole := hheader.bind_error hrefused
        exact .refused (fun buffer => by rw [happend]; exact hwhole buffer)
          (hfirst.within hfits hbefore)
    | _ =>
      obtain ⟨bytes, hwrites⟩ := exists_writes rfl hfits
      exact .written hwrites ((nowhere_of_isArray_eq_false rfl).mpr hfits)
  · simp only [Fits, not_forall, not_not] at hfits
    obtain ⟨e, he⟩ := hfits
    exact .refused (append_of_offends he) (.here he)

end Place

/-- There is one first offence. -/
theorem Offends.First.unique {place : Place} {v : Value} {e e' : EncodeError}
    (h : First place v e) (h' : First place v e') : e = e' := by
  obtain ⟨path, hat, hfirst⟩ := h
  obtain ⟨path', hat', hfirst'⟩ := h'
  have hpath : path = path' := by
    rcases hfirst' path e hat with heq | hbefore
    · exact heq
    · rcases hfirst path' e' hat' with heq | hafter
      · exact heq.symm
      · exact absurd hafter (asymm hbefore)
  subst hpath
  obtain ⟨inner, part, hpart, hoffends⟩ := hat
  obtain ⟨_, _, hpart', hoffends'⟩ := hat'
  cases hpart.symm.trans hpart'
  exact Except.error.inj ((Place.append_of_offends hoffends []).symm.trans
    (Place.append_of_offends hoffends' []))

/-- The writer takes exactly the encodable values, and of any other it reports the first offence:
the one on the first path through the value, where an array is looked at before its items. Neither
depends on what the buffer holds. -/
theorem Value.append_reports_first_offence (v : Value) (typed : Bool) (buffer : Bytes) :
    ((∃ after, v.append typed buffer = .ok after) ↔ Encodable typed v) ∧
    ∀ e, v.append typed buffer = .error e ↔ Offends.First (.alone typed) v e := by
  rw [Encodable.iff_nowhere]
  cases Place.settles (.alone typed) v with
  | @written bytes hwrites hnowhere =>
    have hok : v.append typed buffer = .ok (buffer ++ bytes) := hwrites buffer
    refine ⟨⟨fun _ => hnowhere, fun _ => ⟨_, hok⟩⟩, fun e => ⟨fun herror => ?_, ?_⟩⟩
    · cases hok.symm.trans herror
    · rintro ⟨path, hat, -⟩
      exact absurd hat (hnowhere path e)
  | @refused e hrefused hfirst =>
    have herror : v.append typed buffer = .error e := hrefused buffer
    refine ⟨⟨fun ⟨after, hok⟩ => ?_, fun hnowhere => ?_⟩, fun e' => ⟨fun h => ?_, fun h => ?_⟩⟩
    · cases hok.symm.trans herror
    · obtain ⟨path, hat, -⟩ := hfirst
      exact absurd hat (hnowhere path e)
    · cases herror.symm.trans h
      exact hfirst
    · rw [herror, hfirst.unique h]

/-- A null stands behind a placeholder in a nested array, and the tag of the placeholder is the one
that the header of the nested array names. The placeholder is reported. -/
example :
    let inner : Value := .array (.typed .unsigned true) [.unsigned 7, .unsupported 58]
    (Value.array .nested [inner, .null]).append true [] =
      .error (.unsupportedValue "unsupported") := by
  with_unfolding_all rfl

end StoreClient
