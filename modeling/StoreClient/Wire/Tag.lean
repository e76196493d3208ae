import StoreClient.Text.Quoted

/-!
# Type tags

Every item on the wire starts with a byte that gives its type. Scalar types and
kinds of array have disjoint tags, so a tag names at most one of them.
-/

namespace StoreClient

/-- The scalar types of the wire. -/
inductive ScalarType where
  | string | responseCode | json | signedSmall | unsignedSmall
  | signed | unsigned | float | binary
  deriving DecidableEq, Repr

namespace ScalarType

/-- Every scalar type. -/
def all : List ScalarType :=
  [string, responseCode, json, signedSmall, unsignedSmall, signed, unsigned, float, binary]

/-- The tag as a character. -/
def symbol : ScalarType → Char
  | string => '+'
  | responseCode => '!'
  | json => '$'
  | signedSmall => '-'
  | unsignedSmall => '.'
  | signed => ';'
  | unsigned => ':'
  | float => '%'
  | binary => '?'

/-- The byte that stands for the type on the wire. -/
def tag (type : ScalarType) : UInt8 := type.symbol.toUInt8

/-- The type that a byte stands for. -/
def ofTag? (tag : UInt8) : Option ScalarType := all.find? (·.tag = tag)

/-- The client reads and writes payloads of this type. -/
def isSupported : ScalarType → Bool
  | json | signedSmall | unsignedSmall => false
  | _ => true

/-- The payload is a string of bytes whose length the size gives. The payload of
every other type is one line. -/
def isSized : ScalarType → Bool
  | string | binary | json => true
  | _ => false

/-- The bare name of the type. -/
def label : ScalarType → String
  | string => "String"
  | responseCode => "ResponseCode"
  | json => "Json"
  | signedSmall => "SignedSmallInt"
  | unsignedSmall => "UnsignedSmallInt"
  | signed => "SignedInt64"
  | unsigned => "UnsignedInt64"
  | float => "Float32"
  | binary => "BinaryString"

/-- The name of the type with its tag. -/
def name (type : ScalarType) : String := s!"{type.label} ('{type.symbol}')"

/-- The tag of a scalar type stands for that type. -/
theorem ofTag?_tag (type : ScalarType) : ofTag? type.tag = some type := by
  cases type <;> rfl

/-- Only the tag of a scalar type stands for it. -/
theorem eq_tag_of_ofTag? {tag : UInt8} {type : ScalarType} (h : ofTag? tag = some type) :
    tag = type.tag := by
  have htag := List.find?_some h
  exact (of_decide_eq_true htag).symm

end ScalarType

/-- The kinds of array on the wire. -/
inductive ArrayKind where
  /-- Tagged items of any type, arrays included. -/
  | nested
  /-- Tagged scalars. -/
  | flat
  /-- Scalars of one type or nulls. -/
  | typed
  /-- Byte strings without tags; commands are sent this way. -/
  | any
  /-- Scalars of one type, without nulls. -/
  | typedNonNull
  deriving DecidableEq, Repr

namespace ArrayKind

/-- Every kind of array. -/
def all : List ArrayKind := [nested, flat, typed, any, typedNonNull]

/-- The tag as a character. -/
def symbol : ArrayKind → Char
  | nested => '&'
  | flat => '_'
  | typed => '@'
  | any => '~'
  | typedNonNull => '^'

/-- The byte that stands for the kind on the wire. -/
def tag (kind : ArrayKind) : UInt8 := kind.symbol.toUInt8

/-- The kind that a byte stands for. -/
def ofTag? (tag : UInt8) : Option ArrayKind := all.find? (·.tag = tag)

/-- The header of the array names the type of its elements. -/
def isTyped : ArrayKind → Bool
  | typed | typedNonNull => true
  | _ => false

/-- The bare name of the kind. -/
def label : ArrayKind → String
  | nested => "Array"
  | flat => "FlatArray"
  | typed => "TypedArray"
  | any => "AnyArray"
  | typedNonNull => "TypedNonNullArray"

/-- The name of the kind with its tag. -/
def name (kind : ArrayKind) : String := s!"{kind.label} ('{kind.symbol}')"

/-- The tag of a kind of array stands for that kind. -/
theorem ofTag?_tag (kind : ArrayKind) : ofTag? kind.tag = some kind := by
  cases kind <;> rfl

end ArrayKind

/-- What a tag on the wire announces. -/
inductive ItemType where
  | scalar (type : ScalarType)
  | array (kind : ArrayKind)
  deriving DecidableEq, Repr

namespace ItemType

/-- What a byte announces. -/
def ofTag? (tag : UInt8) : Option ItemType :=
  ((ScalarType.ofTag? tag).map scalar).or ((ArrayKind.ofTag? tag).map array)

/-- The byte on the wire. -/
def tag : ItemType → UInt8
  | scalar type => type.tag
  | array kind => kind.tag

/-- The tag announces an array. -/
def isArray : ItemType → Bool
  | scalar _ => false
  | array _ => true

/-- The name of the type or kind with its tag. -/
def name : ItemType → String
  | scalar type => type.name
  | array kind => kind.name

/-- No tag of an array is the tag of a scalar, so every tag is read back. -/
theorem ofTag?_tag (type : ItemType) : ofTag? type.tag = some type := by
  rcases type with type | kind
  · cases type <;> rfl
  · cases kind <;> rfl

/-- Only the tag of an item announces it. -/
theorem eq_tag_of_ofTag? {tag : UInt8} {type : ItemType} (h : ofTag? tag = some type) :
    tag = type.tag := by
  rcases Option.or_eq_some_iff.mp h with hscalar | ⟨_, harray⟩
  · obtain ⟨scalar, hfound, rfl⟩ := Option.map_eq_some_iff.mp hscalar
    exact ScalarType.eq_tag_of_ofTag? hfound
  · obtain ⟨kind, hfound, rfl⟩ := Option.map_eq_some_iff.mp harray
    have htag := List.find?_some hfound
    exact (of_decide_eq_true htag).symm

end ItemType

end StoreClient
