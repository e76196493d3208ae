import StoreClient.Proofs.NumberLines
import StoreClient.Proofs.Texts
import StoreClient.Wire.Encoding

/-!
# The grammar of a batch

What a batch is, said of its bytes alone: a mark, a number, and so many items. An item is a
scalar or an array of one of the five kinds, and arrays are nested at most 128 deep. The leaves
of a batch are kept beside its bytes, so that a reader can say what it wants of them apart from
the grammar. `Language.Accepts` puts the two together.
-/

namespace StoreClient

/-- A leaf of a batch. -/
inductive Leaf where
  /-- A scalar, on its own or `inside` an array, with its announced size and its body. -/
  | scalar (inside : Bool) (type : ScalarType) (size : Nat) (body : Bytes)
  /-- The mark of a null in a typed array. -/
  | null (nonNull : Bool)

/-- Strings of bytes, each with the leaves that stand in it. -/
abbrev Language := List Leaf → Bytes → Prop

/-- So many strings of a language in a row. -/
inductive Language.Times (item : Language) : Nat → Language where
  | none : Times item 0 [] []
  | more {n : Nat} {first others : List Leaf} {bytes rest : Bytes} :
      item first bytes → Times item n others rest →
      Times item (n + 1) (first ++ others) (bytes ++ rest)

namespace Grammar

/-- A number: digits, at least one, with a value below `2 ^ 64`. -/
structure Num (n : Nat) (digits : Bytes) : Prop extends Digits n digits where
  lt_bound : n < 2 ^ 64

/-- The digits of a number hold no newline. -/
theorem Num.newline_not_mem {n : Nat} {digits : Bytes} (h : Num n digits) : 10 ∉ digits := by
  intro hmem
  exact absurd (h.isDigit 10 hmem) (by decide)

/-- A number starts with a digit. -/
theorem Num.exists_cons {n : Nat} {digits : Bytes} (h : Num n digits) :
    ∃ first rest, digits = first :: rest ∧ Numeral.isDigit first = true := by
  obtain ⟨first, rest, rfl⟩ := List.exists_cons_of_ne_nil h.ne_nil
  exact ⟨first, rest, rfl, Numeral.isDigit_iff.mpr (h.isDigit first List.mem_cons_self)⟩

/-- A count is read from the digits of a number, and from nothing else. -/
theorem num_iff {n : Nat} {digits : Bytes} : Num n digits ↔ Numeral.count? digits = some n := by
  rw [Numeral.count?, Numeral.below?_eq_some_iff_digits]
  constructor
  · exact fun h => ⟨h.toDigits, h.lt_bound⟩
  · exact fun ⟨hdigits, hbound⟩ => ⟨hdigits, hbound⟩

/-- The types whose body has as many bytes as the size says. -/
def sizedTypes : List ScalarType := [.string, .binary, .json]

/-- The types that the client does not implement. -/
def foreignTypes : List ScalarType := [.json, .signedSmall, .unsignedSmall]

/-- The decoder takes so many bytes for the sized types, and a line for the others. -/
theorem isSized_iff {type : ScalarType} : type.isSized = true ↔ type ∈ sizedTypes := by
  cases type <;> decide

/-- The client implements every type but the foreign ones. -/
theorem isSupported_iff {type : ScalarType} : type.isSupported = true ↔ type ∉ foreignTypes := by
  cases type <;> decide

/-- The body of a scalar: as many bytes as its size says, or one line. -/
def Body (type : ScalarType) (size : Nat) (body : Bytes) : Prop :=
  if type ∈ sizedTypes then body.length = size else 10 ∉ body

/-- The body of a sized type is of that size. -/
theorem body_of_isSized {type : ScalarType} (h : type.isSized = true) {size : Nat} {body : Bytes} :
    Body type size body ↔ body.length = size := by
  rw [Body, if_pos (isSized_iff.mp h)]

/-- The body of any other type is a line. -/
theorem body_of_not_isSized {type : ScalarType} (h : ¬type.isSized = true) {size : Nat}
    {body : Bytes} : Body type size body ↔ 10 ∉ body := by
  rw [Body, if_neg (isSized_iff.not.mp h)]

/-- The size of a scalar on a line, and its body with a newline behind it. -/
inductive Untagged (inside : Bool) (type : ScalarType) : Language where
  | mk {size : Nat} {digits body : Bytes} : Num size digits → Body type size body →
      Untagged inside type [.scalar inside type size body] (Wire.line digits ++ Wire.line body)

/-- A scalar behind its tag. -/
inductive Scalar (inside : Bool) : Language where
  | mk {type : ScalarType} {leaves : List Leaf} {bytes : Bytes} :
      Untagged inside type leaves bytes → Scalar inside leaves (type.tag :: bytes)

/-- An element of a typed array: the mark of a null, or a scalar that may repeat its tag. -/
inductive Element (element : ScalarType) (nonNull : Bool) : Language where
  | null : Element element nonNull [.null nonNull] (Wire.line [0])
  | bare {leaves : List Leaf} {bytes : Bytes} :
      Untagged true element leaves bytes → Element element nonNull leaves bytes
  | tagged {leaves : List Leaf} {bytes : Bytes} :
      Untagged true element leaves bytes → Element element nonNull leaves (element.tag :: bytes)

/-- An item of an array without tags: a size, and so many bytes with a newline behind them. -/
inductive Blob : Language where
  | mk {digits body : Bytes} : Num body.length digits →
      Blob [] (Wire.line digits ++ Wire.line body)

/-- The header of an array of this shape and length, behind its tag. A typed array names a
supported type in front of the length. -/
inductive Header : ArrayShape → Nat → Bytes → Prop where
  | nested {n : Nat} {digits : Bytes} : Num n digits → Header .nested n digits
  | flat {n : Nat} {digits : Bytes} : Num n digits → Header .flat n digits
  | any {n : Nat} {digits : Bytes} : Num n digits → Header .any n digits
  | typed {element : ScalarType} {nonNull : Bool} {n : Nat} {digits : Bytes} :
      element ∉ foreignTypes → Num n digits →
      Header (.typed element nonNull) n (element.tag :: digits)

/-- What an array of this shape holds. `item` is what a nested array holds. -/
def Content (item : Language) : ArrayShape → Language
  | .nested => item
  | .flat => Scalar true
  | .any => Blob
  | .typed element nonNull => Element element nonNull

/-- What stands in an array of this kind behind its tag: the header of a shape of the kind, and as
many items as it announces. -/
inductive Members (item : Language) (kind : ArrayKind) : Language where
  | mk {shape : ArrayShape} {n : Nat} {header bytes : Bytes} {leaves : List Leaf} :
      shape.kind = kind → Header shape n header → (Content item shape).Times n leaves bytes →
      Members item kind leaves (Wire.line header ++ bytes)

/-- A tagged item: a scalar, or one of these arrays. -/
inductive Item (array : ArrayKind → Language) (inside : Bool) : Language where
  | scalar {leaves : List Leaf} {bytes : Bytes} :
      Scalar inside leaves bytes → Item array inside leaves bytes
  | array {kind : ArrayKind} {leaves : List Leaf} {bytes : Bytes} :
      array kind leaves bytes → Item array inside leaves (kind.tag :: bytes)

/-- Arrays that are nested at most so many levels deep, behind their tag. -/
def Nested : (levels : Nat) → ArrayKind → Language
  | 0, _ => fun _ _ => False
  | levels + 1, kind => Members (Item (Nested levels) true) kind

/-- A batch: its mark, the number of its entries, and the entries. -/
inductive Batch : Language where
  | mk {n : Nat} {digits bytes : Bytes} {leaves : List Leaf} : Num n digits →
      (Item (Nested 128) false).Times n leaves bytes →
      Batch leaves ('*'.toUInt8 :: (Wire.line digits ++ bytes))

end Grammar

/-- The body is the code that says that the server lost track of the stream. -/
def IsPacketError (type : ScalarType) (body : Bytes) : Prop :=
  type = .responseCode ∧ Grammar.Digits 4 body

/-- The packet error is the numeral of four. -/
theorem isPacketError_iff {type : ScalarType} {body : Bytes} : IsPacketError type body ↔
    type = .responseCode ∧ Numeral.isNumeral body = true ∧ Numeral.value body = 4 := by
  rw [IsPacketError, Numeral.digits_iff]

/-- The payload is a line that holds a number. -/
def ScalarType.IsNumber (type : ScalarType) : Prop :=
  type = .unsigned ∨ type = .signed ∨ type = .float

/-- What can be wrong with a scalar alone. -/
inductive IsFlawed : ScalarType → Nat → Bytes → Prop where
  /-- The client does not implement its type. -/
  | unsupported {type : ScalarType} {size : Nat} {body : Bytes} :
      type ∈ Grammar.foreignTypes → IsFlawed type size body
  /-- A string is not well-formed UTF-8. -/
  | notText {size : Nat} {body : Bytes} : (∀ text, Utf8.encode text ≠ body) →
      IsFlawed .string size body
  /-- A line is not the number that it should be. -/
  | notNumber {type : ScalarType} {size : Nat} {body : Bytes} : type.IsNumber →
      ¬Grammar.NumberLine type body → IsFlawed type size body
  /-- A number has another size than announced. -/
  | numberSize {type : ScalarType} {size : Nat} {body : Bytes} : type.IsNumber →
      body.length ≠ size → IsFlawed type size body
  /-- A code is none that the client knows. -/
  | unknownCode {size n : Nat} {body : Bytes} : Grammar.Digits n body → 11 < n →
      IsFlawed .responseCode size body
  /-- A code has another size than announced. -/
  | codeSize {size n : Nat} {body : Bytes} : Grammar.Digits n body → body.length ≠ size →
      IsFlawed .responseCode size body

namespace IsFlawed

variable {type : ScalarType} {size : Nat} {body : Bytes}

/-- A number is flawed when it cannot be read or has another size. -/
theorem number_iff (h : type.IsNumber) :
    IsFlawed type size body ↔ Parse.numberOf? type body = none ∨ body.length ≠ size := by
  rw [Option.eq_none_iff_forall_ne_some, ← not_exists, Parse.exists_numberOf?_iff]
  constructor
  · intro hflawed
    cases hflawed with
    | unsupported hforeign => rcases h with rfl | rfl | rfl <;> exact absurd hforeign (by decide)
    | notText => rcases h with h | h | h <;> cases h
    | notNumber _ hnone => exact .inl hnone
    | numberSize _ hsize => exact .inr hsize
    | unknownCode => rcases h with h | h | h <;> cases h
    | codeSize => rcases h with h | h | h <;> cases h
  · rintro (hnone | hsize)
    · exact notNumber h hnone
    · exact numberSize h hsize

/-- A code is flawed when it is unknown or has another size. Error text never is. -/
theorem code_iff :
    IsFlawed .responseCode size body ↔ Numeral.isNumeral body = true ∧
      (11 < Numeral.value body ∨ body.length ≠ size) := by
  constructor
  · intro hflawed
    cases hflawed with
    | unsupported hforeign => exact absurd hforeign (by decide)
    | notNumber h => rcases h with h | h | h <;> cases h
    | numberSize h => rcases h with h | h | h <;> cases h
    | unknownCode hdigits hunknown =>
      obtain ⟨hnumeral, rfl⟩ := Numeral.digits_iff.mp hdigits
      exact ⟨hnumeral, .inl hunknown⟩
    | codeSize hdigits hsize => exact ⟨(Numeral.digits_iff.mp hdigits).1, .inr hsize⟩
  · rintro ⟨hnumeral, hunknown | hsize⟩
    · exact unknownCode (Numeral.digits_iff.mpr ⟨hnumeral, rfl⟩) hunknown
    · exact codeSize (Numeral.digits_iff.mpr ⟨hnumeral, rfl⟩) hsize

/-- A string is flawed when it is no text. -/
theorem string_iff : IsFlawed .string size body ↔ Utf8.decode? body = none := by
  rw [Utf8.decode?_eq_none_iff]
  constructor
  · intro hflawed
    cases hflawed with
    | unsupported hforeign => exact absurd hforeign (by decide)
    | notText hnone => exact hnone
    | notNumber h => rcases h with h | h | h <;> cases h
    | numberSize h => rcases h with h | h | h <;> cases h
  · exact notText

/-- Binary data is never flawed. -/
theorem not_binary : ¬IsFlawed .binary size body := by
  intro hflawed
  cases hflawed with
  | unsupported hforeign => exact absurd hforeign (by decide)
  | notNumber h => rcases h with h | h | h <;> cases h
  | numberSize h => rcases h with h | h | h <;> cases h

end IsFlawed

/-- What the client wants of a leaf: no packet error, no flaw inside an array, and no null in an
array without nulls. -/
def Leaf.IsAccepted : Leaf → Prop
  | scalar inside type size body =>
    ¬IsPacketError type body ∧ (inside = true → ¬IsFlawed type size body)
  | null nonNull => nonNull = false

/-- The bytes are of the language, and the client accepts every leaf in them. -/
def Language.Accepts (language : Language) (bytes : Bytes) : Prop :=
  ∃ leaves, language leaves bytes ∧ ∀ leaf ∈ leaves, leaf.IsAccepted

end StoreClient
