import StoreClient.Number.Binary32.Decimal
import StoreClient.Wire.ReplyCode
import StoreClient.Wire.Tag

/-!
# Values

What the client sends and receives: scalars, arrays of the five kinds, and a
placeholder for types that the client does not implement.
-/

namespace StoreClient

/-- What an array's header says besides its length. -/
inductive ArrayShape where
  /-- Tagged items of any type. -/
  | nested
  /-- Tagged scalars. -/
  | flat
  /-- Byte strings without tags. -/
  | any
  /-- Elements of one type; nulls are allowed unless `nonNull`. -/
  | typed (element : ScalarType) (nonNull : Bool)
  deriving DecidableEq, Repr

/-- The kind of array that the header announces. -/
def ArrayShape.kind : ArrayShape → ArrayKind
  | nested => .nested
  | flat => .flat
  | any => .any
  | typed _ false => .typed
  | typed _ true => .typedNonNull

/-- A value of the wire. -/
inductive Value where
  | null
  | string (text : String)
  | binary (bytes : Bytes)
  | unsigned (n : UInt64)
  | signed (n : Int64)
  | float (x : Binary32)
  | code (code : ReplyCode)
  /-- Free text that the server sent in place of a response code. -/
  | errorText (text : String)
  | array (shape : ArrayShape) (items : List Value)
  /-- An item whose type the client does not implement. -/
  | unsupported (tag : UInt8)
  deriving Repr, Inhabited

namespace Value

/-- The type that a scalar is sent as. -/
def scalarType? : Value → Option ScalarType
  | string _ => some .string
  | binary _ => some .binary
  | unsigned _ => some .unsigned
  | signed _ => some .signed
  | float _ => some .float
  | code _ | errorText _ => some .responseCode
  | unsupported tag => ScalarType.ofTag? tag
  | null | array .. => none

/-- The kind of an array. -/
def arrayKind? : Value → Option ArrayKind
  | array shape _ => some shape.kind
  | _ => none

/-- The value is null. -/
def isNull : Value → Bool
  | null => true
  | _ => false

/-- The value is an array. -/
def isArray : Value → Bool
  | array .. => true
  | _ => false

/-- The text of a string. -/
def text? : Value → Option String
  | string text => some text
  | _ => none

/-- The bytes of a string or of binary data. -/
def bytes? : Value → Option Bytes
  | binary bytes => some bytes
  | string text => some (Utf8.encode text)
  | _ => none

/-- The number of an unsigned integer. -/
def unsigned? : Value → Option UInt64
  | unsigned n => some n
  | _ => none

/-- The response code; error text counts as the code that stands for it. -/
def code? : Value → Option ReplyCode
  | code c => some c
  | errorText _ => some .errorText
  | _ => none

mutual

/-- Equality of values, which compares numbers numerically. A value that holds
something that is not a number differs from every value, itself included. -/
def equal : Value → Value → Bool
  | null, null => true
  | string a, string b => a = b
  | binary a, binary b => a = b
  | unsigned a, unsigned b => a = b
  | signed a, signed b => a = b
  | float a, float b => a.equal b
  | code a, code b => a = b
  | errorText a, errorText b => a = b
  | array shape items, array shape' items' => shape = shape' && equalItems items items'
  | unsupported a, unsupported b => a = b
  | _, _ => false

/-- Equality of lists of values, position by position. -/
def equalItems : List Value → List Value → Bool
  | [], [] => true
  | a :: rest, b :: rest' => equal a b && equalItems rest rest'
  | _, _ => false

end

/-- How messages show a value: scalars by their content, arrays by their length. -/
def display : Value → String
  | null => "null"
  | string text => Text.quoted text
  | binary bytes => s!"<{bytes.length} bytes>"
  | unsigned n => toString n.toNat
  | signed n => toString n.toInt
  | float x => Utf8.decodeLossy x.text
  | code c => c.name
  | errorText text => s!"error string {Text.quoted text}"
  | array .nested items => s!"array ({items.length} elements)"
  | array .flat items => s!"flat array ({items.length} elements)"
  | array .any items => s!"any array ({items.length} elements)"
  | array (.typed element nonNull) items =>
    s!"{(ArrayShape.typed element nonNull).kind.name} of {element.name} ({items.length} elements)"
  | unsupported tag => s!"unsupported '{Text.charOfByte tag}'"

end Value

end StoreClient
