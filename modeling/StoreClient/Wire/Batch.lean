import StoreClient.Wire.Entry
import StoreClient.Wire.Parse

/-!
# Reading a batch

A response is a batch: the number of its entries, then the entries. An error that
concerns one scalar entry alone stays with the entry and reading goes on. An error
inside an array, or in the framing, breaks the whole batch.
-/

namespace StoreClient

/-- Arrays may be nested this deep. -/
def maxDepth : Nat := 128

namespace Parse

/-- The number of entries at the start of a batch. -/
def batchHeader : Parse Nat := do
  let start ← byte
  if start = '*'.toUInt8 then count "batch size"
  else invalid ("batch must start with '*', got " ++ Text.quotedChar (Text.charOfByte start))

/-- A scalar with what is wrong with it alone. -/
abbrev Flawed := Value × Option ProtocolError

/-- A type that the client does not implement. -/
def notImplemented (type : ScalarType) : Flawed :=
  (.unsupported type.tag, some (.notImplemented type.symbol))

/-- A payload that its type cannot be read from. -/
def malformed (type : ScalarType) (value : Value) (payload : Bytes) : Flawed :=
  (value, some (.invalidPayload type (Utf8.decodeLossy payload)))

/-- The size of a line does not match its declared size. -/
def sizeFlaw (size : Nat) (line : Bytes) : Option ProtocolError :=
  if line.length = size then none else some (.sizeMismatch size line.length)

/-- A payload of bytes as a value of its type. -/
def sizedValue (type : ScalarType) (payload : Bytes) : Flawed :=
  match type with
  | .string =>
    match Utf8.decode? payload with
    | some text => (.string text, none)
    | none => malformed .string (.binary payload) payload
  | .binary => (.binary payload, none)
  | other => notImplemented other

/-- The number that a payload line stands for. -/
def numberOf? (type : ScalarType) (line : Bytes) : Option Value :=
  match type with
  | .unsigned => (Numeral.unsigned? Numeral.bound line).map fun n => .unsigned (UInt64.ofNat n)
  | .signed => (Numeral.signed? Numeral.signedBound line).map fun n => .signed (Int64.ofInt n)
  | .float => (Binary32.read? line).map .float
  | _ => none

/-- The largest code number that can be told apart from larger ones. -/
def largestCode : Nat := Numeral.signedBound - 1

/-- A response code, or error text if the line is no numeral. A packet error breaks
the batch, since the server has lost track of the stream. -/
def responseCode (size : Nat) (line : Bytes) : Parse Flawed :=
  if Numeral.isNumeral line then
    let number := min (Numeral.valueByHalves line) largestCode
    match ReplyCode.ofNumber? number with
    | some .packet => fail .packetError
    | some code => pure (.code code, sizeFlaw size line)
    | none => pure (.null, some (.unknownCode number))
  else pure (.errorText (Utf8.decodeLossy line), none)

/-- A payload line as a value of its type. -/
def lineValue (type : ScalarType) (size : Nat) (line : Bytes) : Parse Flawed :=
  if !type.isSupported then pure (notImplemented type)
  else if type = .responseCode then responseCode size line
  else
    match numberOf? type line with
    | some value => pure (value, sizeFlaw size line)
    | none => pure (malformed type .null line)

/-- The payload of a scalar whose size was read. -/
def scalarBody (type : ScalarType) (size : Nat) : Parse Flawed := do
  if type.isSized then
    let bytes ← payload size
    pure (sizedValue type bytes)
  else lineValue type size (← line)

/-- A scalar whose tag was read. -/
def scalar (type : ScalarType) : Parse Flawed := do
  let size ← count "payload size"
  scalarBody type size

/-- Inside an array every flaw breaks the batch. -/
def unflawed (scalar : Parse Flawed) : Parse Value := do
  match ← scalar with
  | (value, none) => pure value
  | (_, some e) => fail e

/-- The shape of an array with its length. -/
def shapeOf (shape : ArrayShape) (digits : Bytes) : Parse (ArrayShape × Nat) := do
  let length ← countOf "array length" digits
  pure (shape, length)

/-- The shape of a typed array: the tag of its elements stands before the length. -/
def typedShapeOf (nonNull : Bool) (header : Bytes) : Parse (ArrayShape × Nat) :=
  match header with
  | [] => invalid "typed array header without element type"
  | tag :: digits =>
    match ScalarType.ofTag? tag with
    | none => invalid ("invalid element type " ++ Text.quotedChar (Text.charOfByte tag))
    | some element =>
      if element.isSupported then shapeOf (.typed element nonNull) digits
      else fail (.notImplemented element.symbol)

/-- The rest of an array's header: the shape of the array and its length. -/
def arrayHeader (kind : ArrayKind) : Parse (ArrayShape × Nat) := do
  let header ← line
  match kind with
  | .nested => shapeOf .nested header
  | .flat => shapeOf .flat header
  | .any => shapeOf .any header
  | .typed => typedShapeOf false header
  | .typedNonNull => typedShapeOf true header

/-- The line in front of a typed array's element: the size of the payload, or
nothing for null. The element may repeat its tag. -/
def elementSize (element : ScalarType) : Parse (Option Nat) := do
  let start ← line
  match start with
  | [] => some <$> countOf "element size" start
  | first :: rest =>
    if start = [0] then pure none
    else if first = element.tag then some <$> countOf "element size" rest
    else
      match ScalarType.ofTag? first with
      | some found => fail (.elementTypeMismatch element found)
      | none => some <$> countOf "element size" start

/-- The header of a batch takes its mark and a newline at least. -/
theorem Takes.batchHeader : Takes 2 batchHeader := by
  unfold Parse.batchHeader
  refine Takes.byte.bind (k := 1) fun start => ?_
  split
  · exact Takes.count _
  · exact Takes.invalid 1 _

/-- The header line of an array was taken before. -/
theorem Takes.shapeOf (shape : ArrayShape) (digits : Bytes) : Takes 0 (shapeOf shape digits) :=
  (Takes.countOf _ _).first fun _ => Takes.pure _

/-- The header line of a typed array was taken before. -/
theorem Takes.typedShapeOf (nonNull : Bool) (header : Bytes) :
    Takes 0 (typedShapeOf nonNull header) := by
  unfold Parse.typedShapeOf
  split
  · exact Takes.invalid 0 _
  · split
    · exact Takes.invalid 0 _
    · split
      · exact Takes.shapeOf _ _
      · exact Takes.fail 0 _

/-- The header of an array takes at least a newline. -/
theorem Takes.arrayHeader (kind : ArrayKind) : Takes 1 (arrayHeader kind) := by
  unfold Parse.arrayHeader
  refine Takes.line.first fun header => ?_
  cases kind
  · exact Takes.shapeOf _ _
  · exact Takes.shapeOf _ _
  · exact Takes.typedShapeOf _ _
  · exact Takes.shapeOf _ _
  · exact Takes.typedShapeOf _ _

/-- An element of a typed array. -/
def typedElement (element : ScalarType) (nonNull : Bool) : Parse Value := do
  match ← elementSize element with
  | none => if nonNull then fail .nullInNonNullArray else pure .null
  | some size => unflawed (scalarBody element size)

/-- An item of a flat array. -/
def flatItem (index : Nat) : Parse Value := do
  match ← itemType with
  | .scalar type => unflawed (scalar type)
  | .array _ => fail (.arrayInFlatArray index)

/-- Bytes as a string if they are well-formed UTF-8, and as binary data if not. -/
def textOrBinary (bytes : Bytes) : Value :=
  match Utf8.decode? bytes with
  | some text => .string text
  | none => .binary bytes

/-- An item of an array without tags. -/
def anyItem : Parse Value := do
  let size ← count "element size"
  let bytes ← payload size
  pure (textOrBinary bytes)

/-- An array whose tag was read, with `room` for so many levels of arrays. -/
def array : (room : Nat) → ArrayKind → Parse Value
  | 0, _ => fail (.nestingTooDeep maxDepth)
  | room + 1, kind => do
    let (shape, count) ← arrayHeader kind
    let item (index : Nat) : Parse Value :=
      match shape with
      | .nested => do
        match ← itemType with
        | .scalar type => unflawed (scalar type)
        | .array kind => array room kind
      | .flat => flatItem index
      | .any => anyItem
      | .typed element nonNull => typedElement element nonNull
    return .array shape (← repeated item count)

/-- An entry of a batch. -/
def entry : Parse Entry := do
  let declared ← itemType
  match declared with
  | .scalar type =>
    let (value, flaw) ← scalar type
    return ⟨declared, value, flaw.map .protocol⟩
  | .array kind => return ⟨declared, ← array maxDepth kind, none⟩

end Parse

/-- What the front of some bytes says about the batch that they start with. -/
inductive Decoded where
  /-- More bytes are needed. -/
  | incomplete
  /-- The entries of the batch and the number of bytes that it takes. -/
  | complete (entries : List Entry) (size : Nat)
  /-- The bytes break the protocol after some entries. -/
  | broken (failure : FailedRead)
  deriving Repr

namespace Batch

/-- Read `n` entries. Answers with the entries before the end or the stop, and with
the bytes after the last of `n`. -/
def entries (n : Nat) (bytes : Bytes) : List Entry × Except Stop Bytes := go n [] bytes
where
  /-- The entries still to read, and those found so far in reverse. -/
  go : Nat → List Entry → Bytes → List Entry × Except Stop Bytes
    | 0, found, rest => (found.reverse, .ok rest)
    | n + 1, found, bytes =>
      match Parse.entry bytes with
      | .ok (entry, rest) => go n (entry :: found) rest
      | .error stop => (found.reverse, .error stop)

/-- Read the batch at the front of the bytes. -/
def decode (bytes : Bytes) : Decoded :=
  match Parse.batchHeader bytes with
  | .error .incomplete => .incomplete
  | .error (.broken e) => .broken ⟨[], .protocol e⟩
  | .ok (n, rest) =>
    match entries n rest with
    | (found, .ok after) => .complete found (bytes.length - after.length)
    | (_, .error .incomplete) => .incomplete
    | (found, .error (.broken e)) => .broken ⟨found, .protocol e⟩

/-- The complete entries at the front of a batch that was cut short. -/
def decodedEntries (bytes : Bytes) : List Entry :=
  match Parse.batchHeader bytes with
  | .error _ => []
  | .ok (n, rest) => (entries n rest).1

end Batch

end StoreClient
