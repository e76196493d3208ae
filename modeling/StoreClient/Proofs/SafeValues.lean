import StoreClient.Wire.Encoding

/-!
# Values that survive the wire

Not every value comes back as it was sent: a packet error breaks the batch, error text
made of digits is read as a code, and an item without a tag loses its type. `WireSafe`
describes the values without such an accident. Sizes and counts on the wire stay below
`2 ^ 64`, so the lengths of texts, byte strings and arrays do too.
-/

namespace StoreClient

/-- A scalar of this type that comes back from the wire as it was sent. -/
inductive SafeScalar : ScalarType → Value → Prop where
  | string {text : String} : (Utf8.encode text).length < Numeral.bound →
      SafeScalar .string (.string text)
  | binary {bytes : Bytes} : bytes.length < Numeral.bound → SafeScalar .binary (.binary bytes)
  | unsigned (n : UInt64) : SafeScalar .unsigned (.unsigned n)
  | signed (n : Int64) : SafeScalar .signed (.signed n)
  | float {x : Binary32} : x.isNaN = false → SafeScalar .float (.float x)
  | code {c : ReplyCode} : 0 ≤ c.number → c ≠ .packet → SafeScalar .responseCode (.code c)
  | errorText {text : String} : (Utf8.encode text).length < Numeral.bound → '\n' ∉ text.toList →
      ¬(text ≠ "" ∧ ∀ c ∈ text.toList, c.isDigit = true) →
      SafeScalar .responseCode (.errorText text)

/-- An item of an array without tags that comes back as it was sent: a text, or bytes that
are none. -/
inductive SafeAnyItem : Value → Prop where
  | string {text : String} : (Utf8.encode text).length < Numeral.bound →
      SafeAnyItem (.string text)
  | binary {bytes : Bytes} : bytes.length < Numeral.bound → Utf8.decode? bytes = none →
      SafeAnyItem (.binary bytes)

/-- A value with at most so many levels of arrays that comes back as it was sent. -/
inductive WireSafe : (levels : Nat) → Value → Prop where
  | scalar {levels : Nat} {type : ScalarType} {v : Value} : SafeScalar type v → WireSafe levels v
  | typed {levels : Nat} {element : ScalarType} {nonNull : Bool} {items : List Value} :
      element.isElementType = true → items.length < Numeral.bound →
      (∀ item ∈ items, (item = .null ∧ nonNull = false) ∨ SafeScalar element item) →
      WireSafe (levels + 1) (.array (.typed element nonNull) items)
  | emptyFlat {levels : Nat} : WireSafe (levels + 1) (.array .flat [])
  | any {levels : Nat} {items : List Value} : items.length < Numeral.bound →
      (∀ item ∈ items, SafeAnyItem item) → WireSafe (levels + 1) (.array .any items)
  | nested {levels : Nat} {items : List Value} : items.length < Numeral.bound →
      (∀ item ∈ items, WireSafe levels item) → WireSafe (levels + 1) (.array .nested items)

namespace Value

/-- What the tag of a value announces; null has no tag. -/
def itemType? (v : Value) : Option ItemType :=
  (v.scalarType?.map .scalar).or (v.arrayKind?.map .array)

end Value

namespace SafeScalar

variable {type : ScalarType} {v : Value}

/-- A scalar has the type that it is safe for. -/
theorem scalarType?_eq (h : SafeScalar type v) : v.scalarType? = some type := by
  cases h <;> rfl

/-- The tag of a scalar announces its type. -/
theorem itemType?_eq (h : SafeScalar type v) : v.itemType? = some (.scalar type) := by
  rw [Value.itemType?, h.scalarType?_eq]
  rfl

/-- A safe scalar is not null. -/
theorem isNull_eq_false (h : SafeScalar type v) : v.isNull = false := by
  cases h <;> rfl

/-- A safe scalar is no array. -/
theorem isArray_eq_false (h : SafeScalar type v) : v.isArray = false := by
  cases h <;> rfl

end SafeScalar

namespace WireSafe

variable {levels : Nat} {v : Value}

/-- A safe value is not null. -/
theorem isNull_eq_false (h : WireSafe levels v) : v.isNull = false := by
  cases h with
  | scalar hscalar => exact hscalar.isNull_eq_false
  | typed => rfl
  | emptyFlat => rfl
  | any => rfl
  | nested => rfl

end WireSafe

end StoreClient
