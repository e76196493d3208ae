import StoreClient.Error
import StoreClient.Wire.Value

/-!
# Writing values

Each function appends to a buffer and answers with the longer buffer, or with the
reason why the value cannot be sent. Scalars are written as a size line and a
payload line, with a tag in front where the place needs one. Arrays are a header
line and their items, and always start with a tag.
-/

namespace StoreClient

namespace Wire

/-- The byte that ends a line. -/
def newline : UInt8 := 10

/-- The element of a typed array that stands for null, without its newline. -/
def nullMarker : Bytes := [0]

/-- A line as it stands on the wire. -/
def line (content : Bytes) : Bytes := content ++ [newline]

/-- A scalar as it stands on the wire: its tag where the place needs one, the size
of the payload, and the payload. -/
def scalar (type : ScalarType) (payload : Bytes) (typed : Bool) : Bytes :=
  (if typed then [type.tag] else []) ++ line (Numeral.digits payload.length) ++ line payload

/-- The header of an array whose elements need no type. -/
def header (kind : ArrayKind) (count : Nat) : Bytes := kind.tag :: line (Numeral.digits count)

/-- The header of an array that names the type of its elements. -/
def typedHeader (kind : ArrayKind) (element : ScalarType) (count : Nat) : Bytes :=
  kind.tag :: element.tag :: line (Numeral.digits count)

/-- The header of a batch. -/
def batchHeader (count : Nat) : Bytes := '*'.toUInt8 :: line (Numeral.digits count)

end Wire

/-- The elements of a typed array may have this type. -/
def ScalarType.isElementType (type : ScalarType) : Bool :=
  type.isSupported && type ≠ .responseCode

/-- Append the header of an array. The element type matters for typed arrays only. -/
def appendArrayHeader (kind : ArrayKind) (element : Option ScalarType) (count : Nat)
    (buffer : Bytes) : Except EncodeError Bytes :=
  if kind.isTyped then
    match element with
    | none => .error (.missingElementType kind)
    | some type =>
      if type.isElementType then .ok (buffer ++ Wire.typedHeader kind type count)
      else .error (.invalidElementType type)
  else .ok (buffer ++ Wire.header kind count)

namespace ArrayShape

/-- The type that the header names. -/
def element? : ArrayShape → Option ScalarType
  | typed element _ => some element
  | nested | flat | any => none

/-- Items carry their own tags. -/
def tagsItems : ArrayShape → Bool
  | nested => true
  | flat | any | typed .. => false

/-- Why an array of this shape does not take the item. -/
def refuses (shape : ArrayShape) (item : Value) : Option EncodeError :=
  match shape with
  | nested => if item.isNull then some (.nullElement .nested) else none
  | flat =>
    if item.isArray then some .nestedArray
    else if item.isNull then some (.nullElement .flat)
    else none
  | any =>
    if item.isNull then some (.nullElement .any)
    else if item.isArray then some (.arrayElement .any)
    else none
  | typed element nonNull =>
    if item.isNull then if nonNull then some (.nullElement shape.kind) else none
    else if item.isArray then some (.arrayElement shape.kind)
    else if item.scalarType? = some element then none
    else some (.elementType element item.display)

end ArrayShape

mutual

/-- Append a value. Only a typed place takes an array. -/
def Value.append (value : Value) (typed : Bool) (buffer : Bytes) : Except EncodeError Bytes :=
  match value with
  | .null => .error (.unsupportedValue "null")
  | .string text => .ok (buffer ++ Wire.scalar .string (Utf8.encode text) typed)
  | .binary bytes => .ok (buffer ++ Wire.scalar .binary bytes typed)
  | .unsigned n => .ok (buffer ++ Wire.scalar .unsigned (Numeral.digits n.toNat) typed)
  | .signed n => .ok (buffer ++ Wire.scalar .signed (Numeral.signedDigits n.toInt) typed)
  | .float x => .ok (buffer ++ Wire.scalar .float x.text typed)
  | .code c => .ok (buffer ++ Wire.scalar .responseCode (Numeral.signedDigits c.number) typed)
  | .errorText text => .ok (buffer ++ Wire.scalar .responseCode (Utf8.encode text) typed)
  | .array shape items =>
    if typed then do
      let opened ← appendArrayHeader shape.kind shape.element? items.length buffer
      appendItems shape items opened
    else .error (.missingTypeInfo shape.kind)
  | .unsupported _ => .error (.unsupportedValue "unsupported")

/-- Append the items of an array of a given shape. -/
def appendItems (shape : ArrayShape) (items : List Value) (buffer : Bytes) :
    Except EncodeError Bytes :=
  match items with
  | [] => .ok buffer
  | item :: rest =>
    match shape.refuses item with
    | some e => .error e
    | none => do
      let longer ←
        if item.isNull && shape.element?.isSome then .ok (buffer ++ Wire.line Wire.nullMarker)
        else item.append shape.tagsItems buffer
      appendItems shape rest longer

end

/-- Append the header of a batch of so many queries. -/
def appendBatchHeader (count : Nat) (buffer : Bytes) : Bytes := buffer ++ Wire.batchHeader count

/-- Append a command: an array of byte strings that starts with the verb. -/
def appendCommand (segments : List Value) (buffer : Bytes) : Except EncodeError Bytes :=
  (Value.array .any segments).append true buffer

end StoreClient
