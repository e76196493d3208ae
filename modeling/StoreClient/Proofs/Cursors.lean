import StoreClient.Proofs.Skipping

/-!
# Reading a buffer in place

The decoder stands for a reader that walks through one buffer with a cursor: it slices the buffer
behind the cursor, subtracts the cursor from the length, and moves the cursor on. `Walk` is that
reader, and it halts as soon as a slice, a difference or a position is out of range. It also counts
the turns of its loops, and notes the deepest level of arrays. This file proves that it never is out
of range and answers what the decoder answers, and that it pays for every turn with two bytes.
-/

namespace StoreClient

/-- A place in a buffer, and what was spent on the way to it. -/
structure Cursor where
  pos : Nat
  /-- The completed turns of all loops. -/
  turns : Nat
  /-- The deepest level of arrays that was entered. -/
  deepest : Nat
  deriving DecidableEq, Repr

/-- The start of a buffer. -/
def Cursor.start : Cursor := ⟨0, 0, 0⟩

/-- Why a walk through a buffer halts. -/
inductive Walk.Halt where
  | stop (stop : Stop)
  /-- A place in the buffer is used that the buffer does not have. -/
  | outOfRange
  deriving DecidableEq, Repr

/-- A reader of a buffer in place. It leaves the cursor where it halts. -/
def Walk (α : Type) : Type := Bytes → Cursor → Except Walk.Halt α × Cursor

instance : Monad Walk where
  pure a := fun _ cursor => (.ok a, cursor)
  bind walk next := fun buffer cursor =>
    match walk buffer cursor with
    | (.ok a, reached) => next a buffer reached
    | (.error halt, reached) => (.error halt, reached)

namespace Walk

/-- Go no further. -/
def halt {α : Type} (why : Halt) : Walk α := fun _ cursor => (.error why, cursor)

/-- The place of the cursor. -/
def pos : Walk Nat := fun _ cursor => (.ok cursor.pos, cursor)

/-- The length of the buffer. -/
def length : Walk Nat := fun buffer cursor => (.ok buffer.length, cursor)

/-- The byte at a place, if the buffer has the place. -/
def byteAt? (place : Nat) : Walk (Option UInt8) := fun buffer cursor =>
  (.ok buffer[place]?, cursor)

/-- The bytes between two places of the buffer. -/
def slice (first last : Nat) : Walk Bytes := fun buffer cursor =>
  if first ≤ last ∧ last ≤ buffer.length then
    (.ok ((buffer.drop first).take (last - first)), cursor)
  else (.error .outOfRange, cursor)

/-- A difference that is not below zero. -/
def subtract (m n : Nat) : Walk Nat :=
  if n ≤ m then pure (m - n) else halt .outOfRange

/-- Move the cursor to a place of the buffer. A place that does not fit into a machine word is
behind the end of every buffer. -/
def moveTo (place : Nat) : Walk Unit := fun buffer cursor =>
  if place ≤ buffer.length then (.ok (), { cursor with pos := place })
  else (.error .outOfRange, cursor)

/-- Note that the turn of a loop is complete. -/
def completeTurn : Walk Unit := fun _ cursor =>
  (.ok (), { cursor with turns := cursor.turns + 1 })

/-- Note that arrays are entered at a level. -/
def enter (level : Nat) : Walk Unit := fun _ cursor =>
  (.ok (), { cursor with deepest := max cursor.deepest level })

/-- Judge bytes that were read before. -/
def judge {α : Type} (verdict : Parse α) : Walk α :=
  match verdict [] with
  | .ok (a, _) => pure a
  | .error stop => halt (.stop stop)

/-- The next byte. -/
def byte : Walk UInt8 := do
  let place ← pos
  match ← byteAt? place with
  | none => halt (.stop .incomplete)
  | some b =>
    moveTo (place + 1)
    pure b

/-- The bytes up to the next newline, which is passed too. -/
def line : Walk Bytes := do
  let place ← pos
  let rest ← slice place (← length)
  match rest.idxOf? 10 with
  | none => halt (.stop .incomplete)
  | some last =>
    moveTo (place + (last + 1))
    pure (rest.take last)

/-- The next `n` bytes. -/
def take (n : Nat) : Walk Bytes := do
  let place ← pos
  let left ← subtract (← length) place
  if left < n then halt (.stop .incomplete)
  else
    let taken ← slice place (place + n)
    moveTo (place + n)
    pure taken

/-- The newline after a payload. -/
def endOfPayload : Walk Unit := do
  let b ← byte
  judge (if b = 10 then pure ()
    else .invalid ("expected newline after payload, got " ++ Text.quotedChar (Text.charOfByte b)))

/-- A payload of `n` bytes and its newline. -/
def payload (n : Nat) : Walk Bytes := do
  let bytes ← take n
  endOfPayload
  pure bytes

/-- A line that holds a count or a size. -/
def count (what : String) : Walk Nat := do
  judge (.countOf what (← line))

/-- A type tag. -/
def itemType : Walk ItemType := do
  let tag ← byte
  judge (match ItemType.ofTag? tag with
    | some type => pure type
    | none => .invalid ("unknown type tag " ++ Text.quotedChar (Text.charOfByte tag)))

/-- The turn of a loop, which is counted when it is complete. -/
def counted {α : Type} (item : Walk α) : Walk α := do
  let a ← item
  completeTurn
  pure a

/-- One reader `n` times, the number of each turn given to it. The results found so far are kept
in reverse. -/
def repeated {α : Type} (item : Nat → Walk α) (n : Nat) : Walk (List α) := go n 0 []
where
  /-- The remaining turns, the number of the next one, and the results so far. -/
  go : Nat → Nat → List α → Walk (List α)
    | 0, _, found => pure found.reverse
    | n + 1, turn, found => do
      let a ← counted (item turn)
      go n (turn + 1) (a :: found)

/-- The number of entries at the start of a batch. -/
def batchHeader : Walk Nat := do
  let start ← byte
  if start = '*'.toUInt8 then count "batch size"
  else judge (.invalid
    ("batch must start with '*', got " ++ Text.quotedChar (Text.charOfByte start)))

/-- The payload of a scalar whose size was read. -/
def scalarBody (type : ScalarType) (size : Nat) : Walk Parse.Flawed := do
  if type.isSized then
    let bytes ← payload size
    pure (Parse.sizedValue type bytes)
  else judge (.lineValue type size (← line))

/-- A scalar whose tag was read. -/
def scalar (type : ScalarType) : Walk Parse.Flawed := do
  let size ← count "payload size"
  scalarBody type size

/-- Inside an array every flaw breaks the batch. -/
def unflawed (scalar : Walk Parse.Flawed) : Walk Value := do
  let flawed ← scalar
  judge (match flawed with
    | (value, none) => pure value
    | (_, some e) => .fail e)

/-- The rest of an array's header: the shape of the array and its length. -/
def arrayHeader (kind : ArrayKind) : Walk (ArrayShape × Nat) := do
  let header ← line
  judge (match kind with
    | .nested => .shapeOf .nested header
    | .flat => .shapeOf .flat header
    | .any => .shapeOf .any header
    | .typed => .typedShapeOf false header
    | .typedNonNull => .typedShapeOf true header)

/-- The line in front of a typed array's element: the size of the payload, or nothing for null. The
element may repeat its tag. -/
def elementSize (element : ScalarType) : Walk (Option Nat) := do
  let start ← line
  judge (match start with
    | [] => some <$> .countOf "element size" start
    | first :: rest =>
      if start = [0] then pure none
      else if first = element.tag then some <$> .countOf "element size" rest
      else
        match ScalarType.ofTag? first with
        | some found => .fail (.elementTypeMismatch element found)
        | none => some <$> .countOf "element size" start)

/-- An element of a typed array. -/
def typedElement (element : ScalarType) (nonNull : Bool) : Walk Value := do
  match ← elementSize element with
  | none => judge (if nonNull then .fail .nullInNonNullArray else pure .null)
  | some size => unflawed (scalarBody element size)

/-- An item of a flat array. -/
def flatItem (index : Nat) : Walk Value := do
  match ← itemType with
  | .scalar type => unflawed (scalar type)
  | .array _ => judge (.fail (.arrayInFlatArray index))

/-- An item of an array without tags. -/
def anyItem : Walk Value := do
  let size ← count "element size"
  let bytes ← payload size
  pure (Parse.textOrBinary bytes)

/-- An array whose tag was read, at a level that is counted from the outermost array. -/
def array (level : Nat) (kind : ArrayKind) : Walk Value :=
  if maxDepth < level then judge (.fail (.nestingTooDeep maxDepth))
  else do
    enter level
    let (shape, count) ← arrayHeader kind
    let item (index : Nat) : Walk Value :=
      match shape with
      | .nested => do
        match ← itemType with
        | .scalar type => unflawed (scalar type)
        | .array kind => array (level + 1) kind
      | .flat => flatItem index
      | .any => anyItem
      | .typed element nonNull => typedElement element nonNull
    return .array shape (← repeated item count)
termination_by maxDepth + 1 - level

/-- An entry of a batch. -/
def entry : Walk Entry := do
  let declared ← itemType
  match declared with
  | .scalar type =>
    let (value, flaw) ← scalar type
    return ⟨declared, value, flaw.map .protocol⟩
  | .array kind => return ⟨declared, ← array 1 kind, none⟩

/-- The entries that are found, until as many were read as were asked for or the walk halts. -/
def entries : Nat → List Entry → Bytes → Cursor → List Entry × Except Halt Unit × Cursor
  | 0, found, _, cursor => (found.reverse, .ok (), cursor)
  | n + 1, found, buffer, cursor =>
    match counted entry buffer cursor with
    | (.ok a, reached) => entries n (a :: found) buffer reached
    | (.error why, reached) => (found.reverse, .error why, reached)

/-- What the front of a buffer says about the batch that it starts with, and the last place of the
cursor. There is no answer if a place is used that the buffer does not have. -/
def decode (buffer : Bytes) : Option Decoded × Cursor :=
  match batchHeader buffer .start with
  | (.error (.stop .incomplete), reached) => (some .incomplete, reached)
  | (.error (.stop (.broken e)), reached) => (some (.broken ⟨[], .protocol e⟩), reached)
  | (.error .outOfRange, reached) => (none, reached)
  | (.ok n, reached) =>
    match entries n [] buffer reached with
    | (found, .ok (), last) => (some (.complete found last.pos), last)
    | (_, .error (.stop .incomplete), last) => (some .incomplete, last)
    | (found, .error (.stop (.broken e)), last) => (some (.broken ⟨found, .protocol e⟩), last)
    | (_, .error .outOfRange, last) => (none, last)

end Walk

/-- The cursor moves on within the buffer. For every turn that was completed it passes two bytes,
and `spare` bytes more. -/
structure Cursor.Moves (buffer : Bytes) (spare : Nat) (cursor reached : Cursor) : Prop where
  inside : reached.pos ≤ buffer.length
  turns_le : cursor.turns ≤ reached.turns
  paid : 2 * reached.turns + cursor.pos + spare ≤ 2 * cursor.turns + reached.pos
  deepest_le : reached.deepest ≤ max cursor.deepest maxDepth

namespace Cursor.Moves

variable {buffer : Bytes} {j k : Nat} {cursor reached last : Cursor}

/-- A cursor may stay where it is. -/
theorem refl (h : cursor.pos ≤ buffer.length) : cursor.Moves buffer 0 cursor := by
  constructor
  · exact h
  · omega
  · omega
  · omega

/-- Two moves in a row. -/
theorem trans (h : cursor.Moves buffer j reached) (hlast : reached.Moves buffer k last) :
    cursor.Moves buffer (j + k) last := by
  obtain ⟨_, hturns, hpaid, hdeepest⟩ := h
  obtain ⟨hinside, hturns', hpaid', hdeepest'⟩ := hlast
  constructor
  · exact hinside
  · omega
  · omega
  · omega

/-- Fewer bytes may be spared. -/
theorem mono (h : cursor.Moves buffer k reached) (hjk : j ≤ k) :
    cursor.Moves buffer j reached := by
  obtain ⟨hinside, hturns, hpaid, hdeepest⟩ := h
  constructor
  · exact hinside
  · exact hturns
  · omega
  · exact hdeepest

/-- Moving to a place in front passes the bytes up to there. -/
theorem ahead (h : cursor.pos + k ≤ buffer.length) :
    cursor.Moves buffer k { cursor with pos := cursor.pos + k } := by
  constructor
  · exact h
  · simp
  · dsimp only
    omega
  · dsimp only
    omega

end Cursor.Moves

namespace Walk

variable {α β : Type}

/-- A walk from some place halts like a parser of the bytes behind it, or it finds the same and
stands behind what the parser took. -/
inductive Agrees (buffer : Bytes) (cursor : Cursor) (spare : Nat) :
    Except Stop (α × Bytes) → Except Halt α × Cursor → Prop where
  | finds {a : α} {reached : Cursor} : cursor.Moves buffer spare reached →
      Agrees buffer cursor spare (.ok (a, buffer.drop reached.pos)) (.ok a, reached)
  | halts {stop : Stop} {reached : Cursor} : cursor.Moves buffer 0 reached →
      Agrees buffer cursor spare (.error stop) (.error (.stop stop), reached)

namespace Agrees

variable {buffer : Bytes} {cursor reached : Cursor} {j k : Nat}
  {answer : Except Stop (α × Bytes)} {result : Except Halt α × Cursor}

/-- Fewer bytes may be spared. -/
theorem mono (h : Agrees buffer cursor k answer result) (hjk : j ≤ k) :
    Agrees buffer cursor j answer result := by
  cases h with
  | finds hmoves => exact .finds (hmoves.mono hjk)
  | halts hmoves => exact .halts hmoves

/-- The walk may have come from further back. -/
theorem behind (hmoves : cursor.Moves buffer j reached) (h : Agrees buffer reached k answer result) :
    Agrees buffer cursor (j + k) answer result := by
  cases h with
  | finds hlast => exact .finds (hmoves.trans hlast)
  | halts hlast => exact .halts ((hmoves.trans hlast).mono (Nat.zero_le _))

end Agrees

/-- Wherever it starts, the walk is never out of range, and it answers what the parser answers. It
passes two bytes for each turn of its loops, and `spare` bytes more when it succeeds. -/
def Follows (spare : Nat) (walk : Walk α) (parser : Parse α) : Prop :=
  ∀ buffer cursor, cursor.pos ≤ buffer.length →
    Agrees buffer cursor spare (parser (buffer.drop cursor.pos)) (walk buffer cursor)

/-- Two walks in a row. -/
theorem bind_run (walk : Walk α) (next : α → Walk β) (buffer : Bytes) (cursor : Cursor) :
    (walk >>= next) buffer cursor =
      match walk buffer cursor with
      | (.ok a, reached) => next a buffer reached
      | (.error why, reached) => (.error why, reached) := rfl

@[simp] theorem pure_run (a : α) (buffer : Bytes) (cursor : Cursor) :
    (pure a : Walk α) buffer cursor = (.ok a, cursor) := rfl

@[simp] theorem halt_run (why : Halt) (buffer : Bytes) (cursor : Cursor) :
    (halt why : Walk α) buffer cursor = (.error why, cursor) := rfl

@[simp] theorem pos_run (buffer : Bytes) (cursor : Cursor) :
    pos buffer cursor = (.ok cursor.pos, cursor) := rfl

@[simp] theorem length_run (buffer : Bytes) (cursor : Cursor) :
    length buffer cursor = (.ok buffer.length, cursor) := rfl

@[simp] theorem byteAt?_run (place : Nat) (buffer : Bytes) (cursor : Cursor) :
    byteAt? place buffer cursor = (.ok buffer[place]?, cursor) := rfl

/-- A slice of the buffer, if the buffer has it. -/
@[simp] theorem slice_run {first last : Nat} {buffer : Bytes} (hle : first ≤ last)
    (hlast : last ≤ buffer.length) (cursor : Cursor) :
    slice first last buffer cursor = (.ok ((buffer.drop first).take (last - first)), cursor) :=
  if_pos ⟨hle, hlast⟩

/-- A difference, if there is one. -/
@[simp] theorem subtract_run {m n : Nat} (h : n ≤ m) (buffer : Bytes) (cursor : Cursor) :
    subtract m n buffer cursor = (.ok (m - n), cursor) := by
  rw [subtract, if_pos h, pure_run]

/-- A move to a place that the buffer has. -/
@[simp] theorem moveTo_run {place : Nat} {buffer : Bytes} (h : place ≤ buffer.length)
    (cursor : Cursor) :
    moveTo place buffer cursor = (.ok (), { cursor with pos := place }) :=
  if_pos h

/-- The first newline stands right behind what has none. -/
theorem idxOf?_newline {text : Bytes} (htext : 10 ∉ text) (rest : Bytes) :
    (text ++ 10 :: rest).idxOf? 10 = some text.length := by
  have hnone : text.findIdx? (· == 10) = none := by
    rw [List.findIdx?_eq_none_iff]
    intro b hb
    have hne : b ≠ 10 := by
      rintro rfl
      exact htext hb
    simp [hne]
  rw [List.idxOf?, List.findIdx?_append, hnone]
  simp [List.findIdx?_cons]

/-- Without a newline there is no line yet. -/
theorem line_of_notMem {bytes : Bytes} (h : 10 ∉ bytes) :
    Parse.line bytes = .error .incomplete := by
  cases hline : Parse.line bytes with
  | ok found =>
    obtain ⟨_, hbytes⟩ := Parse.line_eq_ok hline
    rw [hbytes] at h
    simp at h
  | error stop =>
    cases stop with
    | incomplete => rfl
    | broken e => exact absurd hline (Parse.line_ne_broken _ e)

/-- A line is found in the buffer, or the buffer ends first. -/
theorem line_cases {buffer : Bytes} {cursor : Cursor} (hpos : cursor.pos ≤ buffer.length) :
    (∃ text : Bytes, cursor.pos + (text.length + 1) ≤ buffer.length ∧
      Parse.line (buffer.drop cursor.pos) =
        .ok (text, buffer.drop (cursor.pos + (text.length + 1))) ∧
      line buffer cursor = (.ok text, { cursor with pos := cursor.pos + (text.length + 1) })) ∨
    Parse.line (buffer.drop cursor.pos) = .error .incomplete ∧
      line buffer cursor = (.error (.stop .incomplete), cursor) := by
  have hslice : (buffer.drop cursor.pos).take (buffer.length - cursor.pos) =
      buffer.drop cursor.pos := by
    rw [← List.length_drop, List.take_length]
  by_cases hmem : (10 : UInt8) ∈ buffer.drop cursor.pos
  · obtain ⟨text, rest, hsplit, htext⟩ := List.eq_append_cons_of_mem hmem
    have hlast : (buffer.drop cursor.pos).idxOf? 10 = some text.length := by
      rw [hsplit]
      exact idxOf?_newline htext rest
    have hlength := congrArg List.length hsplit
    rw [List.length_drop, List.length_append, List.length_cons] at hlength
    have hmove : cursor.pos + (text.length + 1) ≤ buffer.length := by omega
    have hrest : rest = buffer.drop (cursor.pos + (text.length + 1)) := by
      rw [← List.drop_drop, hsplit]
      simp
    have hparser : Parse.line (buffer.drop cursor.pos) = .ok (text, rest) := by
      rw [hsplit]
      simpa using Parse.Reads.line htext rest
    have hwalk : Walk.line buffer cursor =
        (.ok text, { cursor with pos := cursor.pos + (text.length + 1) }) := by
      have htake : (buffer.drop cursor.pos).take text.length = text := by
        rw [hsplit]
        simp
      simp [Walk.line, bind_run, hpos, hslice, hlast, hmove, htake]
    exact .inl ⟨text, hmove, hrest ▸ hparser, hwalk⟩
  · have hlast : (buffer.drop cursor.pos).idxOf? 10 = none := List.idxOf?_eq_none_iff.mpr hmem
    have hwalk : Walk.line buffer cursor = (.error (.stop .incomplete), cursor) := by
      simp [Walk.line, bind_run, hpos, hslice, hlast]
    exact .inr ⟨line_of_notMem hmem, hwalk⟩

namespace Follows

variable {j k : Nat} {walk : Walk α} {parser : Parse α}

/-- Fewer bytes may be spared. -/
theorem mono (h : Follows k walk parser) (hjk : j ≤ k) : Follows j walk parser := by
  intro buffer cursor hpos
  exact (h buffer cursor hpos).mono hjk

/-- Two walks in a row follow two parsers in a row. -/
theorem bind {next : α → Walk β} {nextParser : α → Parse β} (h : Follows j walk parser)
    (hnext : ∀ a, Follows k (next a) (nextParser a)) :
    Follows (j + k) (walk >>= next) (parser >>= nextParser) := by
  intro buffer cursor hpos
  have hagrees := h buffer cursor hpos
  rw [bind_run, Parse.bind_run]
  generalize parser (buffer.drop cursor.pos) = answer at hagrees ⊢
  generalize walk buffer cursor = result at hagrees ⊢
  cases hagrees with
  | halts hmoves => exact .halts hmoves
  | @finds a reached hmoves => exact .behind hmoves (hnext a buffer reached hmoves.inside)

/-- What follows a walk may take nothing. -/
theorem first {next : α → Walk β} {nextParser : α → Parse β} (h : Follows k walk parser)
    (hnext : ∀ a, Follows 0 (next a) (nextParser a)) :
    Follows k (walk >>= next) (parser >>= nextParser) :=
  h.bind hnext

/-- A result that is known already. -/
theorem pure (a : α) : Follows 0 (Pure.pure a) (Pure.pure a : Parse α) := by
  intro buffer cursor hpos
  exact .finds (.refl hpos)

/-- Another result of the same walk. -/
theorem map (f : α → β) (h : Follows k walk parser) : Follows k (f <$> walk) (f <$> parser) :=
  h.bind fun a => pure (f a)

/-- A verdict that breaks the batch spares whatever is asked for. -/
theorem fail (k : Nat) (e : ProtocolError) :
    Follows k (judge (Parse.fail e)) (Parse.fail e : Parse α) := by
  intro buffer cursor hpos
  exact .halts (.refl hpos)

/-- A verdict follows itself, since it takes no bytes. -/
theorem judge {verdict : Parse α} (h : Parse.IsVerdict verdict) :
    Follows 0 (judge verdict) verdict := by
  obtain ⟨a, rfl⟩ | ⟨e, rfl⟩ := h
  · exact pure a
  · exact fail 0 e

/-- The next byte. -/
theorem byte : Follows 1 byte Parse.byte := by
  intro buffer cursor hpos
  by_cases hend : cursor.pos < buffer.length
  · have hbyte : buffer[cursor.pos]? = some buffer[cursor.pos] := List.getElem?_eq_getElem hend
    have hmove : cursor.pos + 1 ≤ buffer.length := hend
    have hparser : Parse.byte (buffer.drop cursor.pos) =
        .ok (buffer[cursor.pos], buffer.drop (cursor.pos + 1)) := by
      rw [List.drop_eq_getElem_cons hend]
      rfl
    have hwalk : Walk.byte buffer cursor =
        (.ok buffer[cursor.pos], { cursor with pos := cursor.pos + 1 }) := by
      simp [Walk.byte, bind_run, hbyte, hmove]
    rw [hparser, hwalk]
    exact .finds (.ahead hmove)
  · have hnone : buffer[cursor.pos]? = none := List.getElem?_eq_none (by omega)
    have hparser : Parse.byte (buffer.drop cursor.pos) = .error .incomplete := by
      rw [List.drop_eq_nil_of_le (by omega)]
      rfl
    have hwalk : Walk.byte buffer cursor = (.error (.stop .incomplete), cursor) := by
      simp [Walk.byte, bind_run, hnone]
    rw [hparser, hwalk]
    exact .halts (.refl hpos)

/-- The bytes up to the next newline. -/
theorem line : Follows 1 line Parse.line := by
  intro buffer cursor hpos
  obtain ⟨text, hmove, hparser, hwalk⟩ | ⟨hparser, hwalk⟩ := line_cases hpos
  · rw [hparser, hwalk]
    exact .finds ((Cursor.Moves.ahead hmove).mono (by omega))
  · rw [hparser, hwalk]
    exact .halts (.refl hpos)

/-- A line that must not be empty takes two bytes. -/
theorem lineBind {next : Bytes → Walk β} {nextParser : Bytes → Parse β}
    (hempty : Follows (k + 1) (next []) (nextParser []))
    (hnext : ∀ text, Follows k (next text) (nextParser text)) :
    Follows (k + 2) (Walk.line >>= next) (Parse.line >>= nextParser) := by
  intro buffer cursor hpos
  rw [bind_run, Parse.bind_run]
  obtain ⟨text, hmove, hparser, hwalk⟩ | ⟨hparser, hwalk⟩ := line_cases hpos
  · rw [hparser, hwalk]
    have hmoves := Cursor.Moves.ahead hmove
    cases text with
    | nil => exact (Agrees.behind hmoves (hempty _ _ hmove)).mono (by simp; omega)
    | cons b text => exact (Agrees.behind hmoves (hnext _ _ _ hmove)).mono (by simp; omega)
  · rw [hparser, hwalk]
    exact .halts (.refl hpos)

/-- A number of bytes. -/
theorem take (n : Nat) : Follows n (take n) (Parse.take n) := by
  intro buffer cursor hpos
  by_cases hleft : buffer.length - cursor.pos < n
  · have hparser : Parse.take n (buffer.drop cursor.pos) = .error .incomplete := by
      have hshort : ((buffer.drop cursor.pos).take n).length ≠ n := by
        rw [List.length_take, List.length_drop]
        omega
      simp only [Parse.take, if_neg hshort]
    have hwalk : Walk.take n buffer cursor = (.error (.stop .incomplete), cursor) := by
      simp [Walk.take, bind_run, hpos, hleft]
    rw [hparser, hwalk]
    exact .halts (.refl hpos)
  · have hmove : cursor.pos + n ≤ buffer.length := by omega
    have hparser : Parse.take n (buffer.drop cursor.pos) =
        .ok ((buffer.drop cursor.pos).take n, buffer.drop (cursor.pos + n)) := by
      have hlong : ((buffer.drop cursor.pos).take n).length = n := by
        rw [List.length_take, List.length_drop]
        omega
      simp only [Parse.take, if_pos hlong, List.drop_drop]
    have hwalk : Walk.take n buffer cursor =
        (.ok ((buffer.drop cursor.pos).take n), { cursor with pos := cursor.pos + n }) := by
      simp [Walk.take, bind_run, hpos, hleft, hmove]
    rw [hparser, hwalk]
    exact .finds (.ahead hmove)

/-- The newline after a payload. -/
theorem endOfPayload : Follows 1 endOfPayload Parse.endOfPayload := by
  apply byte.first
  intro b
  apply judge
  split
  · exact .inl ⟨_, rfl⟩
  · exact .inr ⟨_, rfl⟩

/-- A payload. -/
theorem payload (n : Nat) : Follows (n + 1) (payload n) (Parse.payload n) := by
  apply (take n).bind (k := 1)
  intro bytes
  apply endOfPayload.first
  intro _
  exact pure bytes

/-- A count. -/
theorem count (what : String) : Follows 1 (count what) (Parse.count what) := by
  apply line.first
  intro digits
  exact judge (Parse.countOf_isVerdict what digits)

/-- A type tag. -/
theorem itemType : Follows 1 itemType Parse.itemType := by
  apply byte.first
  intro tag
  apply judge
  split
  · exact .inl ⟨_, rfl⟩
  · exact .inr ⟨_, rfl⟩

/-- The header of a batch. -/
theorem batchHeader : Follows 1 batchHeader Parse.batchHeader := by
  apply byte.first
  intro start
  split
  · exact (count _).mono (by omega)
  · exact fail 0 _

/-- The payload of a scalar. -/
theorem scalarBody (type : ScalarType) (size : Nat) :
    Follows 1 (scalarBody type size) (Parse.scalarBody type size) := by
  unfold Walk.scalarBody Parse.scalarBody
  split
  · apply ((payload size).mono (Nat.le_add_left 1 size)).first
    intro bytes
    exact pure _
  · apply line.first
    intro text
    exact judge (Parse.lineValue_isVerdict type size text)

/-- A scalar. -/
theorem scalar (type : ScalarType) : Follows 2 (scalar type) (Parse.scalar type) := by
  apply bind (j := 1) (k := 1) (count _)
  intro size
  exact scalarBody type size

/-- A scalar inside an array. -/
theorem unflawed {walk : Walk Parse.Flawed} {parser : Parse Parse.Flawed}
    (h : Follows k walk parser) : Follows k (unflawed walk) (Parse.unflawed parser) := by
  apply h.first
  rintro ⟨value, _ | e⟩
  · exact pure value
  · exact fail 0 e

/-- The header of an array. -/
theorem arrayHeader (kind : ArrayKind) :
    Follows 1 (arrayHeader kind) (Parse.arrayHeader kind) := by
  apply line.first
  intro header
  apply judge
  cases kind with
  | nested => exact Parse.shapeOf_isVerdict _ _
  | flat => exact Parse.shapeOf_isVerdict _ _
  | any => exact Parse.shapeOf_isVerdict _ _
  | typed => exact Parse.typedShapeOf_isVerdict _ _
  | typedNonNull => exact Parse.typedShapeOf_isVerdict _ _

/-- The line in front of an element of a typed array is not empty. -/
theorem elementSize (element : ScalarType) :
    Follows 2 (elementSize element) (Parse.elementSize element) := by
  have hcount (digits : Bytes) :
      Parse.IsVerdict (some <$> Parse.countOf "element size" digits) :=
    (Parse.countOf_isVerdict _ _).bind fun _ => .inl ⟨_, rfl⟩
  apply lineBind
  · exact fail 1 _
  · intro start
    apply judge
    split
    · exact hcount _
    · split
      · exact .inl ⟨_, rfl⟩
      · split
        · exact hcount _
        · split
          · exact .inr ⟨_, rfl⟩
          · exact hcount _

/-- An element of a typed array. -/
theorem typedElement (element : ScalarType) (nonNull : Bool) :
    Follows 2 (typedElement element nonNull) (Parse.typedElement element nonNull) := by
  apply (elementSize element).first
  intro size
  cases size with
  | none =>
    apply judge
    cases nonNull with
    | false => exact .inl ⟨_, rfl⟩
    | true => exact .inr ⟨_, rfl⟩
  | some size => exact (unflawed (scalarBody element size)).mono (Nat.zero_le _)

/-- An item of a flat array. -/
theorem flatItem (index : Nat) : Follows 2 (flatItem index) (Parse.flatItem index) := by
  apply bind (j := 1) (k := 1) itemType
  intro declared
  cases declared with
  | scalar type => exact (unflawed (scalar type)).mono (by omega)
  | array kind => exact fail 1 _

/-- An item without a tag. -/
theorem anyItem : Follows 2 anyItem Parse.anyItem := by
  apply bind (j := 1) (k := 1) (count _)
  intro size
  apply ((payload size).mono (Nat.le_add_left 1 size)).first
  intro bytes
  exact pure _

/-- A turn that takes two bytes is paid for. -/
theorem counted (h : Follows 2 walk parser) : Follows 0 (counted walk) parser := by
  intro buffer cursor hpos
  have hagrees := h buffer cursor hpos
  rw [Walk.counted, bind_run]
  generalize parser (buffer.drop cursor.pos) = answer at hagrees ⊢
  generalize walk buffer cursor = result at hagrees ⊢
  cases hagrees with
  | halts hmoves => exact .halts hmoves
  | @finds a reached hmoves =>
    obtain ⟨hinside, hturns, hpaid, hdeepest⟩ := hmoves
    have hmoves : cursor.Moves buffer 0 { reached with turns := reached.turns + 1 } := by
      constructor
      · exact hinside
      · dsimp only
        omega
      · dsimp only
        omega
      · exact hdeepest
    exact .finds hmoves

/-- The turns of a loop that are still to come, by induction on their number. -/
theorem repeatedGo {item : Nat → Walk α} {itemParser : Nat → Parse α}
    (h : ∀ turn, Follows 2 (item turn) (itemParser turn)) (n turn : Nat) (found : List α) :
    Follows 0 (repeated.go item n turn found) (Parse.repeated.go itemParser n turn found) := by
  induction n generalizing turn found with
  | zero => exact pure _
  | succ n ih =>
    apply (h turn).counted.first
    intro a
    exact ih (turn + 1) (a :: found)

/-- A loop whose turns take two bytes each. -/
theorem repeated {item : Nat → Walk α} {itemParser : Nat → Parse α}
    (h : ∀ turn, Follows 2 (item turn) (itemParser turn)) (n : Nat) :
    Follows 0 (repeated item n) (Parse.repeated itemParser n) :=
  repeatedGo h n 0 []

/-- Arrays are entered on levels that are within the limit. -/
theorem enter {level : Nat} (hlevel : level ≤ maxDepth) (h : Follows k walk parser) :
    Follows k (enter level >>= fun _ => walk) parser := by
  intro buffer cursor hpos
  have hmoves : cursor.Moves buffer 0 { cursor with deepest := max cursor.deepest level } := by
    constructor
    · exact hpos
    · simp
    · simp
    · dsimp only
      omega
  have hbehind := Agrees.behind hmoves (h buffer _ hpos)
  rw [Nat.zero_add] at hbehind
  exact hbehind

end Follows

/-- The reader of one item of an array at a level. -/
def arrayItem (level : Nat) (shape : ArrayShape) (index : Nat) : Walk Value :=
  match shape with
  | .nested => do
    match ← itemType with
    | .scalar type => unflawed (scalar type)
    | .array kind => array (level + 1) kind
  | .flat => flatItem index
  | .any => anyItem
  | .typed element nonNull => typedElement element nonNull

/-- An array is its header and then its items, unless it is nested too deep. -/
theorem array_of_le {level : Nat} (h : level ≤ maxDepth) (kind : ArrayKind) :
    array level kind = enter level >>= fun _ => arrayHeader kind >>= fun header =>
      Value.array header.1 <$> repeated (arrayItem level header.1) header.2 := by
  rw [array, if_neg (by omega)]
  rfl

namespace Follows

/-- An array, by induction on the levels that are left: the walk counts the levels that it has
entered, and the parser those that it has room for. -/
theorem array {level room : Nat} (h : level + room = maxDepth + 1) (kind : ArrayKind) :
    Follows 1 (array level kind) (Parse.array room kind) := by
  induction room generalizing level kind with
  | zero =>
    rw [Walk.array, if_pos (by omega)]
    exact fail 1 _
  | succ room ih =>
    have hitem (shape : ArrayShape) (index : Nat) :
        Follows 2 (arrayItem level shape index) (Parse.arrayItem room shape index) := by
      cases shape with
      | nested =>
        apply bind (j := 1) (k := 1) itemType
        intro declared
        cases declared with
        | scalar type => exact (unflawed (scalar type)).mono (by omega)
        | array kind => exact ih (by omega) kind
      | flat => exact flatItem index
      | any => exact anyItem
      | typed element nonNull => exact typedElement element nonNull
    rw [array_of_le (by omega), Parse.array_succ]
    apply enter (by omega)
    apply (arrayHeader kind).first
    intro header
    exact (repeated (hitem header.1) header.2).map _

/-- An entry of a batch. -/
theorem entry : Follows 2 entry Parse.entry := by
  apply bind (j := 1) (k := 1) itemType
  intro declared
  cases declared with
  | scalar type =>
    apply ((scalar type).mono (Nat.le_succ 1)).first
    intro flawed
    exact pure _
  | array kind =>
    have harray : Follows 1 (Walk.array 1 kind) (Parse.array maxDepth kind) :=
      array (Nat.add_comm 1 maxDepth) kind
    apply harray.first
    intro value
    exact pure _

end Follows

/-- A walk through the entries of a batch halts like their decoder, or it finds the same entries and
stands behind them. -/
inductive EntriesAgree (buffer : Bytes) (cursor : Cursor) :
    List Entry × Except Stop Bytes → List Entry × Except Halt Unit × Cursor → Prop where
  | finds {found : List Entry} {reached : Cursor} : cursor.Moves buffer 0 reached →
      EntriesAgree buffer cursor (found, .ok (buffer.drop reached.pos)) (found, .ok (), reached)
  | halts {found : List Entry} {stop : Stop} {reached : Cursor} : cursor.Moves buffer 0 reached →
      EntriesAgree buffer cursor (found, .error stop) (found, .error (.stop stop), reached)

/-- The entries that are still to come may be read from further back. -/
theorem EntriesAgree.behind {buffer : Bytes} {cursor reached : Cursor}
    {answer : List Entry × Except Stop Bytes} {result : List Entry × Except Halt Unit × Cursor}
    (hmoves : cursor.Moves buffer 0 reached) (h : EntriesAgree buffer reached answer result) :
    EntriesAgree buffer cursor answer result := by
  cases h with
  | finds hlast => exact .finds (hmoves.trans hlast)
  | halts hlast => exact .halts (hmoves.trans hlast)

/-- The entries of a batch, by induction on the number of those still to come. -/
theorem entries_agree (n : Nat) (found : List Entry) {buffer : Bytes} {cursor : Cursor}
    (hpos : cursor.pos ≤ buffer.length) :
    EntriesAgree buffer cursor (Batch.entries.go n found (buffer.drop cursor.pos))
      (entries n found buffer cursor) := by
  induction n generalizing found cursor with
  | zero => exact .finds (.refl hpos)
  | succ n ih =>
    have hagrees := Follows.entry.counted buffer cursor hpos
    unfold entries Batch.entries.go
    generalize Parse.entry (buffer.drop cursor.pos) = answer at hagrees ⊢
    generalize counted entry buffer cursor = result at hagrees ⊢
    cases hagrees with
    | halts hmoves => exact .halts hmoves
    | @finds a reached hmoves => exact .behind hmoves (ih (a :: found) hmoves.inside)

/-- **The decoder may walk through the buffer.** The walk is never out of range, answers what the
decoder answers, and pays for its turns. -/
theorem decode_agrees (buffer : Bytes) : ∃ reached,
    decode buffer = (some (Batch.decode buffer), reached) ∧ Cursor.start.Moves buffer 0 reached := by
  have hheader := Follows.batchHeader buffer .start (Nat.zero_le _)
  unfold decode Batch.decode
  change Agrees buffer .start 1 (Parse.batchHeader buffer) _ at hheader
  generalize Parse.batchHeader buffer = answer at hheader ⊢
  generalize batchHeader buffer .start = result at hheader ⊢
  cases hheader with
  | @halts stop reached hmoves =>
    cases stop with
    | incomplete => exact ⟨reached, rfl, hmoves⟩
    | broken e => exact ⟨reached, rfl, hmoves⟩
  | @finds n reached hmoves =>
    have hentries := entries_agree n [] hmoves.inside
    change EntriesAgree buffer reached (Batch.entries n (buffer.drop reached.pos)) _ at hentries
    dsimp only
    generalize Batch.entries n (buffer.drop reached.pos) = answer at hentries ⊢
    generalize entries n [] buffer reached = result at hentries ⊢
    have hstart := hmoves.mono (Nat.zero_le 1)
    cases hentries with
    | @halts found stop last hlast =>
      cases stop with
      | incomplete => exact ⟨last, rfl, hstart.trans hlast⟩
      | broken e => exact ⟨last, rfl, hstart.trans hlast⟩
    | @finds found last hlast =>
      have hsize : buffer.length - (buffer.drop last.pos).length = last.pos := by
        have hinside := hlast.inside
        rw [List.length_drop]
        omega
      refine ⟨last, ?_, hstart.trans hlast⟩
      dsimp only
      rw [hsize]

end Walk

end StoreClient
