import StoreClient.Wire.Value

/-!
# Values of other types

Numbers, texts and bytes as they are sent. Whole numbers without a sign become
unsigned values and those with one signed values, whatever their width.
-/

namespace StoreClient

/-- A type whose members can be sent. -/
class ToValue (α : Type) where
  /-- The value that is sent. -/
  toValue : α → Value

export ToValue (toValue)

instance : ToValue UInt8 := ⟨fun n => .unsigned n.toUInt64⟩
instance : ToValue UInt16 := ⟨fun n => .unsigned n.toUInt64⟩
instance : ToValue UInt32 := ⟨fun n => .unsigned n.toUInt64⟩
instance : ToValue UInt64 := ⟨.unsigned⟩
instance : ToValue Int8 := ⟨fun n => .signed n.toInt64⟩
instance : ToValue Int16 := ⟨fun n => .signed n.toInt64⟩
instance : ToValue Int32 := ⟨fun n => .signed n.toInt64⟩
instance : ToValue Int64 := ⟨.signed⟩
instance : ToValue Binary32 := ⟨.float⟩
instance : ToValue String := ⟨.string⟩
instance : ToValue Bytes := ⟨.binary⟩

/-- What is absent is sent as null. -/
instance {α : Type} [ToValue α] : ToValue (Option α) := ⟨fun a => (a.map toValue).getD .null⟩

end StoreClient
