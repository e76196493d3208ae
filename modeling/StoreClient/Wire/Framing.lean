import StoreClient.Wire.Batch

/-!
# Framing

Whether a buffer holds a whole batch, found out without building values. The scan
reads the headers of arrays and the sizes of elements on its own. It remembers the end
of the last complete item and resumes there when more bytes have arrived. Arrays in
progress are kept on a stack, so no array needs to be complete. `Progress.step_takes`
says that every step takes at least one byte, which bounds the scan.
-/

namespace StoreClient

/-- An array in progress. -/
structure Frame where
  shape : ArrayShape
  /-- The number of items still to come. -/
  remaining : Nat
  deriving DecidableEq, Repr

/-- What is still to come of a batch. -/
structure Progress where
  /-- The number of entries still to come, once the header was read. -/
  remaining : Option Nat
  /-- The arrays in progress, the innermost first. -/
  stack : List Frame
  deriving DecidableEq, Repr

namespace Progress

/-- A batch of which nothing was read. -/
def start : Progress := ⟨none, []⟩

/-- Pass over the payload of a scalar whose size was read. -/
def skipBody (type : ScalarType) (size : Nat) : Parse Unit :=
  if type.isSized then do
    let _ ← Parse.payload size
  else do
    let _ ← Parse.line

/-- Pass over a scalar whose tag was read. -/
def skipScalar (type : ScalarType) : Parse Unit := do
  skipBody type (← Parse.count "payload size")

/-- The line in front of an element without the tag, which the element may repeat there. -/
def untagged (element : ScalarType) (start : Bytes) : Bytes :=
  match start with
  | [] => []
  | first :: rest => if first = element.tag then rest else first :: rest

/-- Pass over an element of a typed array, or over the mark of a null. -/
def skipTypedElement (element : ScalarType) : Parse Unit := do
  let start ← Parse.line
  if start = [0] then pure ()
  else skipBody element (← Parse.countOf "element size" (untagged element start))

/-- Pass over an item of an array without tags. -/
def skipAnyItem : Parse Unit := do
  let size ← Parse.count "element size"
  let _ ← Parse.payload size

/-- Pass over an item of a flat array. -/
def skipFlatItem : Parse Unit := do
  match ← Parse.itemType with
  | .scalar type => skipScalar type
  | .array _ => Parse.invalid "array inside a flat array"

/-- The frame of an array of this shape with so many items. -/
def frameOf (shape : ArrayShape) (digits : Bytes) : Parse Frame := do
  let count ← Parse.countOf "array length" digits
  pure ⟨shape, count⟩

/-- The frame of a typed array: the tag of its elements stands before their number. -/
def typedFrameOf (nonNull : Bool) (header : Bytes) : Parse Frame :=
  match header with
  | [] => Parse.invalid "typed array header without element type"
  | tag :: digits =>
    match (ScalarType.ofTag? tag).filter ScalarType.isSupported with
    | some element => frameOf (.typed element nonNull) digits
    | none => Parse.invalid ("invalid element type " ++ Text.quotedChar (Text.charOfByte tag))

/-- Pass over the rest of an array's header. Answers with the frame of the array. -/
def frameHeader (kind : ArrayKind) : Parse Frame := do
  let header ← Parse.line
  match kind with
  | .nested => frameOf .nested header
  | .flat => frameOf .flat header
  | .any => frameOf .any header
  | .typed => typedFrameOf false header
  | .typedNonNull => typedFrameOf true header

/-- Pass over a tagged item, `depth` arrays deep. Of an array with items only the
header is passed over, and answered as the frame to open. -/
def skipTagged (depth : Nat) : Parse (Option Frame) := do
  match ← Parse.itemType with
  | .scalar type =>
    skipScalar type
    pure none
  | .array kind =>
    let frame ← frameHeader kind
    if maxDepth ≤ depth then Parse.fail (.nestingTooDeep maxDepth)
    else if frame.remaining = 0 then pure none
    else pure (some frame)

/-- Pass over an item of the innermost array, or over an entry. -/
def skipItem : List Frame → Parse (Option Frame)
  | [] => skipTagged 0
  | frame :: outer =>
    match frame.shape with
    | .nested => skipTagged (outer.length + 1)
    | .flat => do skipFlatItem; pure none
    | .any => do skipAnyItem; pure none
    | .typed element _ => do skipTypedElement element; pure none

/-- Count a finished item against the arrays in progress; an array without further
items is itself a finished item of the array around it. Answers with the arrays
that are still in progress, or with nothing if an entry was finished. -/
def finishItem : List Frame → Option (List Frame)
  | [] => none
  | frame :: outer =>
    if 1 < frame.remaining then some ({ frame with remaining := frame.remaining - 1 } :: outer)
    else finishItem outer

/-- Count a finished item. Answers whether it was the last entry of the batch. -/
def finish (progress : Progress) : Bool × Progress :=
  match finishItem progress.stack with
  | some stack => (false, { progress with stack })
  | none =>
    let remaining := progress.remaining.getD 1 - 1
    (remaining = 0, ⟨some remaining, []⟩)

/-- Pass over the next item that is complete. Answers whether the batch ends there. -/
def step (progress : Progress) : Parse (Bool × Progress) :=
  match progress.remaining with
  | none => do
    let count ← Parse.batchHeader
    pure (count = 0, { progress with remaining := some count })
  | some _ => do
    match ← skipItem progress.stack with
    | some frame => pure (false, { progress with stack := frame :: progress.stack })
    | none => pure progress.finish

/-- A payload takes at least its newline. -/
theorem skipBody_takes (type : ScalarType) (size : Nat) : Parse.Takes 1 (skipBody type size) := by
  unfold skipBody
  split
  · exact ((Parse.Takes.payload size).first fun _ => Parse.Takes.pure _).mono (by omega)
  · exact Parse.Takes.line.first fun _ => Parse.Takes.pure _

/-- A scalar takes at least one byte. -/
theorem skipScalar_takes (type : ScalarType) : Parse.Takes 1 (skipScalar type) :=
  ((Parse.Takes.count _).bind fun size => skipBody_takes type size).mono (by omega)

/-- An element of a typed array takes at least one byte. -/
theorem skipTypedElement_takes (element : ScalarType) :
    Parse.Takes 1 (skipTypedElement element) := by
  unfold skipTypedElement
  refine Parse.Takes.line.first fun start => ?_
  split
  · exact Parse.Takes.pure _
  · exact (Parse.Takes.countOf _ _).first fun size => (skipBody_takes element size).mono (by omega)

/-- An item without a tag takes at least one byte. -/
theorem skipAnyItem_takes : Parse.Takes 1 skipAnyItem :=
  (Parse.Takes.count _).first fun size =>
    ((Parse.Takes.payload size).first fun _ => Parse.Takes.pure _).mono (by omega)

/-- An item of a flat array takes at least one byte. -/
theorem skipFlatItem_takes : Parse.Takes 1 skipFlatItem := by
  unfold skipFlatItem
  refine Parse.Takes.itemType.first fun type => ?_
  cases type with
  | scalar type => exact (skipScalar_takes type).mono (by omega)
  | array kind => exact Parse.Takes.invalid 0 _

/-- The header line of an array was taken before. -/
theorem frameOf_takes (shape : ArrayShape) (digits : Bytes) :
    Parse.Takes 0 (frameOf shape digits) :=
  (Parse.Takes.countOf _ _).first fun _ => Parse.Takes.pure _

/-- The header line of a typed array was taken before. -/
theorem typedFrameOf_takes (nonNull : Bool) (header : Bytes) :
    Parse.Takes 0 (typedFrameOf nonNull header) := by
  unfold typedFrameOf
  split
  · exact Parse.Takes.invalid 0 _
  · split
    · exact frameOf_takes _ _
    · exact Parse.Takes.invalid 0 _

/-- The header of an array takes at least a newline. -/
theorem frameHeader_takes (kind : ArrayKind) : Parse.Takes 1 (frameHeader kind) := by
  unfold frameHeader
  refine Parse.Takes.line.first fun header => ?_
  cases kind
  · exact frameOf_takes _ _
  · exact frameOf_takes _ _
  · exact typedFrameOf_takes _ _
  · exact frameOf_takes _ _
  · exact typedFrameOf_takes _ _

/-- A tagged item takes at least its tag. -/
theorem skipTagged_takes (depth : Nat) : Parse.Takes 1 (skipTagged depth) := by
  unfold skipTagged
  refine Parse.Takes.itemType.first fun type => ?_
  cases type with
  | scalar type =>
    exact ((skipScalar_takes type).first fun _ => Parse.Takes.pure _).mono (by omega)
  | array kind =>
    refine Parse.Takes.mono ((frameHeader_takes kind).first fun frame => ?_) (by omega)
    split
    · exact Parse.Takes.fail 0 _
    · split
      · exact Parse.Takes.pure _
      · exact Parse.Takes.pure _

/-- Whatever comes next takes at least one byte. -/
theorem skipItem_takes (stack : List Frame) : Parse.Takes 1 (skipItem stack) := by
  unfold skipItem
  split
  · exact skipTagged_takes 0
  · split
    · exact skipTagged_takes _
    · exact skipFlatItem_takes.first fun _ => Parse.Takes.pure _
    · exact skipAnyItem_takes.first fun _ => Parse.Takes.pure _
    · exact (skipTypedElement_takes _).first fun _ => Parse.Takes.pure _

/-- Every step of the scan takes at least one byte. -/
theorem step_takes (progress : Progress) : Parse.Takes 1 progress.step := by
  unfold step
  split
  · exact (Parse.Takes.batchHeader.first fun _ => Parse.Takes.pure _).mono (by omega)
  · refine (skipItem_takes _).first fun frame => ?_
    cases frame with
    | none => exact Parse.Takes.pure _
    | some frame => exact Parse.Takes.pure _

/-- Pass over the complete items at the front of the bytes. Answers whether the batch
is complete or broken, what is still to come, and the bytes behind the last complete
item. -/
def run (progress : Progress) (bytes : Bytes) : Bool × Progress × Bytes :=
  match _h : progress.step bytes with
  | .ok ((done, next), rest) => if done then (true, next, rest) else next.run rest
  | .error .incomplete => (false, progress, bytes)
  | .error (.broken _) => (true, progress, bytes)
  termination_by bytes.length
  decreasing_by
    have := progress.step_takes bytes _ rest _h
    omega

end Progress

/-- How far into a buffer a batch is known to be complete. -/
structure Scan where
  /-- The end of the last complete item. -/
  pos : Nat
  /-- What is still to come after it. -/
  progress : Progress
  deriving DecidableEq, Repr

namespace Scan

/-- The scan of a batch of which nothing was read. -/
def start : Scan := ⟨0, .start⟩

/-- Scan a buffer on from where the scan stands. Answers whether the buffer is worth
decoding: the batch is complete or broken. -/
def advance (scan : Scan) (buffer : Bytes) : Bool × Scan :=
  let unread := buffer.drop scan.pos
  let (ready, progress, rest) := scan.progress.run unread
  (ready, ⟨scan.pos + (unread.length - rest.length), progress⟩)

end Scan

end StoreClient
