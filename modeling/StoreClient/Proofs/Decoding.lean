import StoreClient.Proofs.Stability

/-!
# The decoder as a parser

Apart from the entries that it keeps when it fails, the decoder is one parser: the
header of a batch, and then as many entries as it announces. `decode_eq` says so.
Every parser in it is stable, so the whole decoder is.
-/

namespace StoreClient

namespace Parse

/-- The reader of one item of an array of a given shape, with `room` for so many
levels of arrays inside it. -/
def arrayItem (room : Nat) (shape : ArrayShape) (index : Nat) : Parse Value :=
  match shape with
  | .nested => do
    match ← itemType with
    | .scalar type => unflawed (scalar type)
    | .array kind => array room kind
  | .flat => flatItem index
  | .any => anyItem
  | .typed element nonNull => typedElement element nonNull

/-- An array is its header and then its items. -/
theorem array_succ (room : Nat) (kind : ArrayKind) :
    array (room + 1) kind = arrayHeader kind >>= fun header =>
      Value.array header.1 <$> repeated (arrayItem room header.1) header.2 := by
  rfl

/-- A batch: its header, and as many entries as the header announces. -/
def batch : Parse (List Entry) :=
  batchHeader >>= fun count => repeated (fun _ => entry) count

namespace Stable

/-- The header of a batch. -/
theorem batchHeader : Stable Parse.batchHeader := by
  refine byte.bind fun start => ?_
  split
  · exact count _
  · exact invalid _

/-- A line that holds a response code or error text. -/
theorem responseCode (size : Nat) (text : Bytes) : Stable (Parse.responseCode size text) := by
  unfold Parse.responseCode
  split
  · dsimp only
    split
    · exact fail _
    · exact pure _
    · exact pure _
  · exact pure _

/-- A line that holds a scalar. -/
theorem lineValue (type : ScalarType) (size : Nat) (text : Bytes) :
    Stable (Parse.lineValue type size text) := by
  unfold Parse.lineValue
  split
  · exact pure _
  · split
    · exact responseCode _ _
    · split
      · exact pure _
      · exact pure _

/-- The payload of a scalar. -/
theorem scalarBody (type : ScalarType) (size : Nat) : Stable (Parse.scalarBody type size) := by
  unfold Parse.scalarBody
  split
  · exact (payload size).bind fun bytes => pure _
  · exact line.bind fun text => lineValue type size text

/-- A scalar. -/
theorem scalar (type : ScalarType) : Stable (Parse.scalar type) :=
  (count _).bind fun size => scalarBody type size

/-- A scalar inside an array. -/
theorem unflawed {parser : Parse Flawed} (h : Stable parser) : Stable (Parse.unflawed parser) := by
  refine h.bind fun flawed => ?_
  obtain ⟨value, flaw⟩ := flawed
  cases flaw with
  | none => exact pure value
  | some e => exact fail e

/-- The shape and the length of an array. -/
theorem shapeOf (shape : ArrayShape) (digits : Bytes) : Stable (Parse.shapeOf shape digits) :=
  (countOf _ _).bind fun _ => pure _

/-- The shape and the length of a typed array. -/
theorem typedShapeOf (nonNull : Bool) (header : Bytes) :
    Stable (Parse.typedShapeOf nonNull header) := by
  unfold Parse.typedShapeOf
  split
  · exact invalid _
  · split
    · exact invalid _
    · split
      · exact shapeOf _ _
      · exact fail _

/-- The header of an array. -/
theorem arrayHeader (kind : ArrayKind) : Stable (Parse.arrayHeader kind) := by
  refine line.bind fun header => ?_
  cases kind with
  | nested => exact shapeOf _ _
  | flat => exact shapeOf _ _
  | typed => exact typedShapeOf _ _
  | any => exact shapeOf _ _
  | typedNonNull => exact typedShapeOf _ _

/-- The line in front of an element of a typed array. -/
theorem elementSize (element : ScalarType) : Stable (Parse.elementSize element) := by
  refine line.bind fun start => ?_
  split
  · exact (countOf _ _).map some
  · split
    · exact pure _
    · split
      · exact (countOf _ _).map some
      · split
        · exact fail _
        · exact (countOf _ _).map some

/-- An element of a typed array. -/
theorem typedElement (element : ScalarType) (nonNull : Bool) :
    Stable (Parse.typedElement element nonNull) := by
  refine (elementSize element).bind fun size => ?_
  cases size with
  | none =>
    dsimp only
    split
    · exact fail _
    · exact pure _
  | some size => exact unflawed (scalarBody element size)

/-- An item of a flat array. -/
theorem flatItem (index : Nat) : Stable (Parse.flatItem index) := by
  refine itemType.bind fun type => ?_
  cases type with
  | scalar type => exact unflawed (scalar type)
  | array kind => exact fail _

/-- An item without a tag. -/
theorem anyItem : Stable Parse.anyItem :=
  (count _).bind fun size => (payload size).bind fun _ => pure _

/-- An array, by induction on the levels of arrays that it has room for. -/
theorem array (room : Nat) (kind : ArrayKind) : Stable (Parse.array room kind) := by
  induction room generalizing kind with
  | zero => exact fail _
  | succ room ih =>
    rw [array_succ]
    refine (arrayHeader kind).bind fun header => (repeated (fun index => ?_) _).map _
    obtain ⟨shape, length⟩ := header
    cases shape with
    | nested =>
      refine itemType.bind fun type => ?_
      cases type with
      | scalar type => exact unflawed (scalar type)
      | array kind => exact ih kind
    | flat => exact flatItem index
    | any => exact anyItem
    | typed element nonNull => exact typedElement element nonNull

/-- An entry of a batch. -/
theorem entry : Stable Parse.entry := by
  refine itemType.bind fun declared => ?_
  cases declared with
  | scalar type => exact (scalar type).bind fun _ => pure _
  | array kind => exact (array maxDepth kind).bind fun _ => pure _

/-- A batch. -/
theorem batch : Stable Parse.batch :=
  batchHeader.bind fun count => repeated (fun _ => entry) count

end Stable

end Parse

namespace Batch

/-- The entries read so far do not change how the entries still to come are read. -/
theorem repeatedGo_entry (n turn : Nat) (found : List Entry) (bytes : Bytes) :
    Parse.repeated.go (fun _ => Parse.entry) n turn found bytes =
      (entries.go n found bytes).2.map fun rest => ((entries.go n found bytes).1, rest) := by
  induction n generalizing turn found bytes with
  | zero => rfl
  | succ n ih =>
    change (Parse.entry >>= fun a => Parse.repeated.go (fun _ => Parse.entry) n (turn + 1)
      (a :: found)) bytes = _
    rw [Parse.bind_run]
    unfold entries.go
    cases Parse.entry bytes with
    | error stop => rfl
    | ok r => exact ih (turn + 1) (r.1 :: found) r.2

/-- Reading the entries of a batch is a repetition that also keeps the entries in
front of a stop. -/
theorem repeated_entry (n : Nat) (bytes : Bytes) :
    Parse.repeated (fun _ => Parse.entry) n bytes =
      (entries n bytes).2.map fun rest => ((entries n bytes).1, rest) :=
  repeatedGo_entry n 0 [] bytes

/-- The decoder answers what the parser of a batch does, with the entries in front of
a stop. -/
theorem decode_eq (bytes : Bytes) : decode bytes =
    match Parse.batch bytes with
    | .ok (found, rest) => .complete found (bytes.length - rest.length)
    | .error .incomplete => .incomplete
    | .error (.broken e) => .broken ⟨decodedEntries bytes, .protocol e⟩ := by
  rw [Parse.batch, Parse.bind_run]
  unfold decode decodedEntries
  rcases hheader : Parse.batchHeader bytes with (_ | e) | ⟨count, rest⟩
  · rfl
  · rfl
  · dsimp only [bind, Except.bind]
    rw [repeated_entry]
    rcases hentries : entries count rest with ⟨found, (_ | e) | after⟩ <;> rfl

/-- A batch is complete when its parser succeeds. -/
theorem decode_eq_complete_iff {bytes : Bytes} {found : List Entry} {size : Nat} :
    decode bytes = .complete found size ↔
      ∃ rest, Parse.batch bytes = .ok (found, rest) ∧ size = bytes.length - rest.length := by
  rw [decode_eq]
  rcases Parse.batch bytes with (_ | e) | ⟨entries, rest⟩
  · simp
  · simp
  · constructor
    · intro h
      cases h
      exact ⟨rest, rfl, rfl⟩
    · rintro ⟨_, h, rfl⟩
      cases h
      rfl

/-- More bytes are needed when the parser of a batch runs out of bytes. -/
theorem decode_eq_incomplete_iff {bytes : Bytes} :
    decode bytes = .incomplete ↔ Parse.batch bytes = .error .incomplete := by
  rw [decode_eq]
  rcases Parse.batch bytes with (_ | e) | ⟨entries, rest⟩ <;> simp

/-- A batch is broken when its parser is. The entries in front of the break are the complete ones
of the buffer. -/
theorem decode_eq_broken_iff {bytes : Bytes} {failure : FailedRead} :
    decode bytes = .broken failure ↔ ∃ e, Parse.batch bytes = .error (.broken e) ∧
      failure = ⟨decodedEntries bytes, .protocol e⟩ := by
  rw [decode_eq]
  rcases Parse.batch bytes with (_ | e) | ⟨entries, rest⟩
  · simp
  · simp [eq_comm]
  · simp

end Batch

end StoreClient
