import StoreClient.Wire.Encoding
import Mathlib.Data.List.Basic

/-!
# What is written

A writer appends to a buffer. `Writes` says which bytes it appends, whatever the buffer
holds; writers in a row append their bytes in a row. The bytes of scalars and of array
headers are given here.
-/

namespace StoreClient

/-- The writer succeeds and appends exactly these bytes to whatever buffer. -/
def Writes (writer : Bytes → Except EncodeError Bytes) (bytes : Bytes) : Prop :=
  ∀ buffer, writer buffer = .ok (buffer ++ bytes)

namespace Writes

variable {writer next : Bytes → Except EncodeError Bytes} {first second : Bytes}

/-- A writer that appends nothing. -/
theorem nil : Writes .ok [] := fun buffer => by rw [List.append_nil]

/-- Two writers in a row append the bytes of each. -/
theorem bind (h : Writes writer first) (hnext : Writes next second) :
    Writes (fun buffer => writer buffer >>= next) (first ++ second) := by
  intro buffer
  change (writer buffer >>= next) = _
  rw [h, ← List.append_assoc]
  exact hnext (buffer ++ first)

/-- Writers for the members of a list append the bytes of each in order. -/
theorem foldlM {α : Type} {items : List α} {write : α → Bytes → Except EncodeError Bytes}
    {bytes : List Bytes} (h : List.Forall₂ (fun a => Writes (write a)) items bytes) :
    Writes (fun buffer => items.foldlM (fun buffer a => write a buffer) buffer) bytes.flatten := by
  induction h with
  | nil => exact nil
  | cons hfirst _ ih =>
    intro buffer
    have hrow := hfirst.bind ih buffer
    rw [List.flatten_cons, ← hrow]
    exact List.foldlM_cons

end Writes

namespace Value

/-- The type and the payload that a scalar is sent with. -/
def payload? : Value → Option (ScalarType × Bytes)
  | string text => some (.string, Utf8.encode text)
  | binary bytes => some (.binary, bytes)
  | unsigned n => some (.unsigned, Numeral.digits n.toNat)
  | signed n => some (.signed, Numeral.signedDigits n.toInt)
  | float x => some (.float, x.text)
  | code c => some (.responseCode, Numeral.signedDigits c.number)
  | errorText text => some (.responseCode, Utf8.encode text)
  | null | array .. | unsupported _ => none

/-- A scalar has the type that it is sent as. -/
theorem scalarType?_of_payload? {v : Value} {type : ScalarType} {payload : Bytes}
    (h : v.payload? = some (type, payload)) : v.scalarType? = some type := by
  cases v <;> cases h <;> rfl

/-- A scalar is written with its type and payload. -/
theorem writes_scalar {v : Value} {type : ScalarType} {payload : Bytes}
    (h : v.payload? = some (type, payload)) (typed : Bool) :
    Writes (v.append typed) (Wire.scalar type payload typed) := by
  intro buffer
  cases v <;> cases h <;> rw [append]

end Value

namespace ArrayShape

/-- The header of an array behind its tag. -/
def opening (shape : ArrayShape) (count : Nat) : Bytes :=
  match shape with
  | typed element _ => element.tag :: Wire.line (Numeral.digits count)
  | nested | flat | any => Wire.line (Numeral.digits count)

/-- The elements of the array may have the type that its header names. -/
def IsSendable (shape : ArrayShape) : Prop := ∀ element, shape.element? = some element →
  element.isElementType = true

/-- An array that names no type may be sent. -/
theorem IsSendable.untyped {shape : ArrayShape} (h : shape.element? = none) : shape.IsSendable := by
  intro element helement
  rw [h] at helement
  cases helement

/-- The header of an array is written with its tag. -/
theorem writes_opening {shape : ArrayShape} (h : shape.IsSendable) (count : Nat) :
    Writes (appendArrayHeader shape.kind shape.element? count)
      (shape.kind.tag :: shape.opening count) := by
  intro buffer
  rcases shape with _ | _ | _ | ⟨element, _ | _⟩
  · rfl
  · rfl
  · rfl
  · have helement := h element rfl
    simp [appendArrayHeader, kind, element?, ArrayKind.isTyped, helement, Wire.typedHeader, opening]
  · have helement := h element rfl
    simp [appendArrayHeader, kind, element?, ArrayKind.isTyped, helement, Wire.typedHeader, opening]

end ArrayShape

/-- Append one item of an array of a given shape. -/
def appendItem (shape : ArrayShape) (item : Value) (buffer : Bytes) : Except EncodeError Bytes :=
  match shape.refuses item with
  | some e => .error e
  | none =>
    if item.isNull && shape.element?.isSome then .ok (buffer ++ Wire.line Wire.nullMarker)
    else item.append shape.tagsItems buffer

/-- An item that an array takes is written without further ado. -/
theorem writes_appendItem {shape : ArrayShape} {item : Value} {bytes : Bytes}
    (htaken : shape.refuses item = none) (hnull : item.isNull = false)
    (h : Writes (item.append shape.tagsItems) bytes) : Writes (appendItem shape item) bytes := by
  intro buffer
  simp only [appendItem, htaken, hnull, Bool.false_and, Bool.false_eq_true, if_false]
  exact h buffer

/-- The items of an array are written one after the other. -/
theorem appendItems_eq (shape : ArrayShape) (items : List Value) (buffer : Bytes) :
    appendItems shape items buffer =
      items.foldlM (fun buffer item => appendItem shape item buffer) buffer := by
  induction items generalizing buffer with
  | nil => rw [appendItems]; rfl
  | cons item rest ih =>
    have hrest : appendItems shape rest =
        fun buffer => rest.foldlM (fun buffer item => appendItem shape item buffer) buffer :=
      funext ih
    rw [appendItems, List.foldlM_cons]
    conv_rhs => rw [appendItem]
    cases shape.refuses item with
    | some e => rfl
    | none =>
      dsimp only
      rw [← hrest]
      split <;> rfl

/-- An array is written as its header and its items. -/
theorem Writes.array {shape : ArrayShape} (h : shape.IsSendable) {items : List Value}
    {bytes : List Bytes}
    (hitems : List.Forall₂ (fun v => Writes (appendItem shape v)) items bytes) :
    Writes ((Value.array shape items).append true)
      (shape.kind.tag :: (shape.opening items.length ++ bytes.flatten)) := by
  intro buffer
  rw [Value.append, if_pos rfl]
  have hopened := (ArrayShape.writes_opening h items.length).bind (Writes.foldlM hitems) buffer
  simp only [appendItems_eq]
  exact hopened

/-- Append a batch of values: its header, and every value with its tag. -/
def Batch.append (values : List Value) (buffer : Bytes) : Except EncodeError Bytes :=
  values.foldlM (fun buffer value => value.append true buffer)
    (appendBatchHeader values.length buffer)

/-- A batch is written as its header and its values. -/
theorem Writes.batch {values : List Value} {bytes : List Bytes}
    (h : List.Forall₂ (fun v => Writes (Value.append v true)) values bytes) :
    Writes (Batch.append values) (Wire.batchHeader values.length ++ bytes.flatten) := by
  intro buffer
  have hvalues := Writes.foldlM h (appendBatchHeader values.length buffer)
  rw [appendBatchHeader, List.append_assoc] at hvalues
  exact hvalues

end StoreClient
