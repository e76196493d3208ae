import StoreClient.Proofs.Resumption
import StoreClient.Proofs.Skipping

/-!
# The scan agrees with the decoder

The decoder recurses into arrays; the scan keeps a stack of the arrays in progress
with the number of items still to come. `Follows` relates the two: in front of an item
that the decoder reads, the scan arrives behind it with the item counted. The height of
the stack and the room that the decoder has left always make up the greatest depth.
-/

namespace StoreClient

namespace Progress

/-- The scan from behind a finished item on. -/
def afterItem (progress : Progress) (bytes : Bytes) : Bool × Progress × Bytes :=
  if progress.finish.1 then (true, progress.finish.2, bytes) else progress.finish.2.run bytes

/-- From here the scan follows a reader of the next item: it arrives behind an item that
is read, with the item counted, and waits in an item that lacks bytes. -/
structure Follows {α : Type} (progress : Progress) (item : Parse α) : Prop where
  arrives : ∀ {bytes a rest}, item bytes = .ok (a, rest) →
    progress.run bytes = progress.afterItem rest
  waits : ∀ {bytes}, item bytes = .error .incomplete → (progress.run bytes).1 = false

variable {α : Type} {stack : List Frame} {bytes behind rest : Bytes} {count room : Nat}

/-- A step that passes over a whole item counts it. -/
theorem run_of_skipItem_none (h : skipItem stack bytes = .ok (none, rest)) :
    run ⟨some count, stack⟩ bytes = afterItem ⟨some count, stack⟩ rest :=
  run_of_step_ok (Parse.bind_eq_ok.mpr ⟨none, rest, h, rfl⟩)

/-- A step that passes over the header of an array puts the array on the stack. -/
theorem run_of_skipItem_some {frame : Frame} (h : skipItem stack bytes = .ok (some frame, rest)) :
    run ⟨some count, stack⟩ bytes = run ⟨some count, frame :: stack⟩ rest := by
  have hstep : step ⟨some count, stack⟩ bytes =
      .ok ((false, ⟨some count, frame :: stack⟩), rest) :=
    Parse.bind_eq_ok.mpr ⟨some frame, rest, h, rfl⟩
  simpa using run_of_step_ok hstep

/-- A step that lacks bytes waits. -/
theorem run_of_skipItem_incomplete (h : skipItem stack bytes = .error .incomplete) :
    (run ⟨some count, stack⟩ bytes).1 = false := by
  rw [run_of_step_incomplete (Parse.bind_eq_error.mpr (.inl h))]

/-- The scan follows the items that one step passes over. -/
theorem Follows.ofCovers {item : Parse α} (h : Parse.Covers (skipItem stack) none item) :
    Follows ⟨some count, stack⟩ item where
  arrives hok := run_of_skipItem_none (h.passes hok)
  waits hwait := run_of_skipItem_incomplete (h.waits hwait)

/-- The scan follows a repetition if it follows each turn and counts down by turns:
`left n` is the scan with `n` turns left. -/
theorem run_repeated (left : Nat → Progress) {item : Nat → Parse α} {found all : List α}
    {n turn : Nat} (hitem : ∀ turn n, Follows (left (n + 1)) (item turn))
    (hmore : ∀ n bytes, (left (n + 2)).afterItem bytes = (left (n + 1)).run bytes)
    (h : Parse.repeated.go item (n + 1) turn found bytes = .ok (all, rest)) :
    (left (n + 1)).run bytes = (left 1).afterItem rest := by
  induction n generalizing turn found bytes with
  | zero =>
    obtain ⟨a, behind, hfirst, hrest⟩ := Parse.bind_eq_ok.mp h
    cases hrest
    exact (hitem turn 0).arrives hfirst
  | succ n ih =>
    obtain ⟨a, behind, hfirst, hrest⟩ := Parse.bind_eq_ok.mp h
    rw [(hitem turn (n + 1)).arrives hfirst, hmore]
    exact ih hrest

/-- The scan waits in a repetition that lacks bytes. -/
theorem run_repeated_incomplete (left : Nat → Progress) {item : Nat → Parse α} {found : List α}
    {n turn : Nat} (hitem : ∀ turn n, Follows (left (n + 1)) (item turn))
    (hmore : ∀ n bytes, (left (n + 2)).afterItem bytes = (left (n + 1)).run bytes)
    (h : Parse.repeated.go item n turn found bytes = .error .incomplete) :
    ((left n).run bytes).1 = false := by
  induction n generalizing turn found bytes with
  | zero => cases h
  | succ n ih =>
    rcases Parse.bind_eq_error.mp h with hfirst | ⟨a, behind, hfirst, hrest⟩
    · exact (hitem turn n).waits hfirst
    · cases n with
      | zero => cases hrest
      | succ n =>
        rw [(hitem turn (n + 1)).arrives hfirst, hmore]
        exact ih hrest

/-- A finished item that is not the last one of its array is counted there. -/
theorem afterItem_of_more (shape : ArrayShape) (n : Nat) (bytes : Bytes) :
    afterItem ⟨some count, ⟨shape, n + 2⟩ :: stack⟩ bytes =
      run ⟨some count, ⟨shape, n + 1⟩ :: stack⟩ bytes := by
  have hfinish : finish ⟨some count, ⟨shape, n + 2⟩ :: stack⟩ =
      (false, ⟨some count, ⟨shape, n + 1⟩ :: stack⟩) := by
    simp [finish, finishItem]
  simp [afterItem, hfinish]

/-- The last item of an array finishes the array. -/
theorem afterItem_of_last (shape : ArrayShape) (bytes : Bytes) :
    afterItem ⟨some count, ⟨shape, 1⟩ :: stack⟩ bytes = afterItem ⟨some count, stack⟩ bytes := by
  have hfinish : finish ⟨some count, ⟨shape, 1⟩ :: stack⟩ = finish ⟨some count, stack⟩ := by
    simp [finish, finishItem]
  simp only [afterItem, hfinish]

/-- A finished entry that is not the last one of its batch is counted there. -/
theorem afterItem_of_moreEntries (n : Nat) (bytes : Bytes) :
    afterItem ⟨some (n + 2), []⟩ bytes = run ⟨some (n + 1), []⟩ bytes := by
  simp [afterItem, finish, finishItem]

/-- The stack stands in front of a tagged item of any type: no array is in progress, or
the innermost one takes such items. -/
def TakesTagged (stack : List Frame) : Prop := skipItem stack = skipTagged stack.length

/-- Entries of any type are taken where no array is in progress. -/
theorem TakesTagged.nil : TakesTagged [] := rfl

/-- Items of any type are taken inside a nested array. -/
theorem TakesTagged.nested (n : Nat) (stack : List Frame) : TakesTagged (⟨.nested, n⟩ :: stack) :=
  rfl

/-- In front of a tagged array the scan follows the decoder, which has `room` for so
many levels of arrays. -/
structure FollowsArrays (room : Nat) : Prop where
  arrives : ∀ {stack kind bytes behind value rest}, TakesTagged stack →
    room + stack.length = maxDepth → Parse.itemType bytes = .ok (.array kind, behind) →
    Parse.array room kind behind = .ok (value, rest) →
    ∀ count, run ⟨some count, stack⟩ bytes = afterItem ⟨some count, stack⟩ rest
  waits : ∀ {stack kind bytes behind}, TakesTagged stack →
    room + stack.length = maxDepth → Parse.itemType bytes = .ok (.array kind, behind) →
    Parse.array room kind behind = .error .incomplete →
    ∀ count, (run ⟨some count, stack⟩ bytes).1 = false

/-- The scan follows a tagged item, which is a scalar or an array. -/
theorem FollowsArrays.tagged (h : FollowsArrays room) (htagged : TakesTagged stack)
    (hdepth : room + stack.length = maxDepth) {item : ItemType → Parse α}
    {f : ArrayKind → Value → α}
    (hscalar : ∀ type, Parse.Covers (skipScalar type) () (item (.scalar type)))
    (harray : ∀ kind, item (.array kind) = f kind <$> Parse.array room kind) :
    Follows ⟨some count, stack⟩ (Parse.itemType >>= item) where
  arrives {bytes a rest} hok := by
    obtain ⟨type, behind, htype, hitem⟩ := Parse.bind_eq_ok.mp hok
    cases type with
    | scalar type =>
      refine run_of_skipItem_none ?_
      rw [htagged]
      exact Parse.bind_eq_ok.mpr ⟨_, _, htype, ((hscalar type).answer none).passes hitem⟩
    | array kind =>
      rw [harray] at hitem
      obtain ⟨value, hvalue, rfl⟩ := Parse.map_eq_ok.mp hitem
      exact h.arrives htagged hdepth htype hvalue count
  waits {bytes} hwait := by
    have hskip (h : skipTagged stack.length bytes = .error .incomplete) :
        (run ⟨some count, stack⟩ bytes).1 = false :=
      run_of_skipItem_incomplete (htagged ▸ h)
    rcases Parse.bind_eq_error.mp hwait with htype | ⟨type, behind, htype, hitem⟩
    · exact hskip (Parse.bind_eq_error.mpr (.inl htype))
    · cases type with
      | scalar type =>
        exact hskip (Parse.bind_eq_error.mpr
          (.inr ⟨_, _, htype, ((hscalar type).answer none).waits hitem⟩))
      | array kind =>
        rw [harray] at hitem
        exact h.waits htagged hdepth htype (Parse.map_eq_error.mp hitem) count

/-- The scan follows the items of an array of any shape. -/
theorem FollowsArrays.arrayItem (h : FollowsArrays room)
    (hdepth : room + (stack.length + 1) = maxDepth) (shape : ArrayShape) (index n : Nat) :
    Follows ⟨some count, ⟨shape, n⟩ :: stack⟩ (Parse.arrayItem room shape index) := by
  cases shape with
  | nested =>
    refine h.tagged (.nested n stack) hdepth (f := fun _ => id) ?_ ?_
    · exact fun type => .unflawed (.scalar type)
    · exact fun kind => (id_map _).symm
  | flat => exact .ofCovers ((Parse.Covers.flatItem index).answer none)
  | any => exact .ofCovers (Parse.Covers.anyItem.answer none)
  | typed element nonNull =>
    exact .ofCovers ((Parse.Covers.typedElement element nonNull).answer none)

/-- Passing over the header of an array opens it, unless it is empty. -/
theorem skipItem_header {kind : ArrayKind} {shape : ArrayShape} {length : Nat}
    (htagged : TakesTagged stack) (hdepth : stack.length < maxDepth)
    (htype : Parse.itemType bytes = .ok (.array kind, behind))
    (hheader : Parse.arrayHeader kind behind = .ok ((shape, length), rest)) :
    skipItem stack bytes = .ok (if length = 0 then none else some ⟨shape, length⟩, rest) := by
  have hframe : frameHeader kind behind = .ok (⟨shape, length⟩, rest) :=
    (Parse.frameHeader_alike kind).ok_iff.mpr (Parse.map_eq_ok.mpr ⟨_, hheader, rfl⟩)
  rw [htagged]
  refine Parse.bind_eq_ok.mpr ⟨_, _, htype, Parse.bind_eq_ok.mpr ⟨_, _, hframe, ?_⟩⟩
  simp only [if_neg (Nat.not_le.mpr hdepth)]
  split <;> rfl

/-- The scan follows an array if it follows arrays nested less deeply. -/
theorem FollowsArrays.succ (h : FollowsArrays room) : FollowsArrays (room + 1) where
  arrives {stack kind bytes behind value rest} htagged hdepth htype hok count := by
    rw [Parse.array_succ] at hok
    obtain ⟨⟨shape, length⟩, inner, hheader, hvalue⟩ := Parse.bind_eq_ok.mp hok
    obtain ⟨items, hitems, _⟩ := Parse.map_eq_ok.mp hvalue
    have hskip := skipItem_header htagged (by omega) htype hheader
    cases length with
    | zero =>
      -- An empty array is a finished item at once and never gets onto the stack.
      cases hitems
      exact run_of_skipItem_none hskip
    | succ n =>
      let left (n : Nat) : Progress := ⟨some count, ⟨shape, n⟩ :: stack⟩
      have hitem (turn n : Nat) : Follows (left (n + 1)) (Parse.arrayItem room shape turn) :=
        h.arrayItem (by omega) shape turn (n + 1)
      calc
        run ⟨some count, stack⟩ bytes = run (left (n + 1)) inner := run_of_skipItem_some hskip
        _ = afterItem (left 1) rest := run_repeated left hitem (afterItem_of_more shape) hitems
        _ = afterItem ⟨some count, stack⟩ rest := afterItem_of_last shape rest
  waits {stack kind bytes behind} htagged hdepth htype hwait count := by
    rw [Parse.array_succ] at hwait
    rcases Parse.bind_eq_error.mp hwait with hheader | ⟨⟨shape, length⟩, inner, hheader, hitems⟩
    · have hframe : frameHeader kind behind = .error .incomplete :=
        (Parse.frameHeader_alike kind).waits_iff.mpr (Parse.map_eq_error.mpr hheader)
      refine run_of_skipItem_incomplete ?_
      rw [htagged]
      exact Parse.bind_eq_error.mpr (.inr ⟨_, _, htype, Parse.bind_eq_error.mpr (.inl hframe)⟩)
    · have hskip := skipItem_header htagged (by omega) htype hheader
      have hitems := Parse.map_eq_error.mp hitems
      cases length with
      | zero => cases hitems
      | succ n =>
        rw [run_of_skipItem_some hskip]
        exact run_repeated_incomplete (fun n => ⟨some count, ⟨shape, n⟩ :: stack⟩)
          (fun turn n => h.arrayItem (by omega) shape turn (n + 1)) (afterItem_of_more shape) hitems

/-- The scan follows arrays, by induction on the room that the decoder has left. -/
theorem followsArrays (room : Nat) : FollowsArrays room := by
  induction room with
  | zero =>
    constructor
    · intro _ _ _ _ _ _ _ _ _ h
      cases h
    · intro _ _ _ _ _ _ _ h
      cases h
  | succ room ih => exact ih.succ

/-- The scan follows the entries of a batch. -/
theorem follows_entry (count : Nat) : Follows ⟨some count, []⟩ Parse.entry := by
  refine (followsArrays maxDepth).tagged .nil rfl
    (f := fun kind value => ⟨.array kind, value, none⟩) ?_ fun _ => rfl
  exact fun type => (Parse.Covers.scalar type).verdict fun _ => .inl ⟨_, rfl⟩

/-- Where a batch is complete the scan ends with nothing left to come. -/
theorem run_of_batch {entries : List Entry} (h : Parse.batch bytes = .ok (entries, rest)) :
    start.run bytes = (true, ⟨some 0, []⟩, rest) := by
  obtain ⟨count, behind, hheader, hentries⟩ := Parse.bind_eq_ok.mp h
  have hstep : start.step bytes = .ok ((count = 0, ⟨some count, []⟩), behind) :=
    Parse.bind_eq_ok.mpr ⟨count, behind, hheader, rfl⟩
  rw [run_of_step_ok hstep]
  cases count with
  | zero =>
    cases hentries
    rfl
  | succ n =>
    rw [if_neg (by simp)]
    rw [run_repeated (fun n => ⟨some n, []⟩) (fun _ n => follows_entry (n + 1))
      afterItem_of_moreEntries hentries]
    rfl

/-- Where a batch lacks bytes the scan waits. -/
theorem run_of_batch_incomplete (h : Parse.batch bytes = .error .incomplete) :
    (start.run bytes).1 = false := by
  rcases Parse.bind_eq_error.mp h with hheader | ⟨count, behind, hheader, hentries⟩
  · rw [run_of_step_incomplete (Parse.bind_eq_error.mpr (.inl hheader))]
  · have hstep : start.step bytes = .ok ((count = 0, ⟨some count, []⟩), behind) :=
      Parse.bind_eq_ok.mpr ⟨count, behind, hheader, rfl⟩
    rw [run_of_step_ok hstep]
    cases count with
    | zero => cases hentries
    | succ n =>
      rw [if_neg (by simp)]
      exact run_repeated_incomplete (fun n => ⟨some n, []⟩) (fun _ n => follows_entry (n + 1))
        afterItem_of_moreEntries hentries

end Progress

namespace Scan

/-- A fresh scan of a complete batch is ready behind it, with nothing left to come. -/
theorem advance_of_complete {bytes : Bytes} {entries : List Entry} {size : Nat}
    (h : Batch.decode bytes = .complete entries size) :
    start.advance bytes = (true, ⟨size, ⟨some 0, []⟩⟩) := by
  obtain ⟨rest, hbatch, rfl⟩ := Batch.decode_eq_complete_iff.mp h
  simp only [advance, start, List.drop_zero, Progress.run_of_batch hbatch, Nat.zero_add]

/-- A fresh scan of an incomplete batch is not ready. -/
theorem advance_of_incomplete {bytes : Bytes} (h : Batch.decode bytes = .incomplete) :
    (start.advance bytes).1 = false := by
  have hbatch := Batch.decode_eq_incomplete_iff.mp h
  simpa only [advance, start, List.drop_zero] using Progress.run_of_batch_incomplete hbatch

/-- The scan agrees with the decoder. A buffer that is found ready is never one that
lacks bytes, whether the scan is fresh or was fed with the buffer in pieces; and a
buffer with a complete batch is found ready behind the batch, with no array in progress
and no entry still to come. -/
theorem advance_agrees_with_decode (buffer : Bytes) :
    ((start.advance buffer).1 = true → Batch.decode buffer ≠ .incomplete) ∧
    (∀ entries size, Batch.decode buffer = .complete entries size →
      start.advance buffer = (true, ⟨size, ⟨some 0, []⟩⟩)) ∧
    (∀ scan seen, Fed scan seen → seen <+: buffer → (scan.advance buffer).1 = true →
      Batch.decode buffer ≠ .incomplete) := by
  have hfresh (hready : (start.advance buffer).1 = true) : Batch.decode buffer ≠ .incomplete := by
    intro hincomplete
    rw [advance_of_incomplete hincomplete] at hready
    cases hready
  refine ⟨hfresh, fun entries size => advance_of_complete, fun scan seen hfed hseen hready => ?_⟩
  obtain ⟨more, rfl⟩ := hseen
  rw [hfed.advance_eq] at hready
  exact hfresh hready

/-- A batch of two arrays, one of which holds another array with a null, and a byte behind
it. The scan stops where the batch ends. -/
theorem advance_agrees_with_decode_nested :
    let batch : Bytes := [42, 50, 10, 38, 50, 10, 43, 49, 10, 97, 10, 64, 58, 50, 10,
      49, 10, 55, 10, 0, 10, 126, 49, 10, 50, 10, 104, 105, 10]
    let entries : List Entry :=
      [⟨.array .nested,
          .array .nested [.string "a", .array (.typed .unsigned false) [.unsigned 7, .null]], none⟩,
        ⟨.array .any, .array .any [.string "hi"], none⟩]
    Batch.decode (batch ++ [42]) = .complete entries 29 ∧
      start.advance (batch ++ [42]) = (true, ⟨29, ⟨some 0, []⟩⟩) ∧
      Fed start [] ∧ (start.advance (batch ++ [42])).1 = true ∧
      Batch.decode (batch ++ [42]) ≠ .incomplete := by
  intro batch entries
  have hdecode : Batch.decode (batch ++ [42]) = .complete entries 29 := by rfl
  have hadvance := (advance_agrees_with_decode (batch ++ [42])).2.1 entries 29 hdecode
  have hready : (start.advance (batch ++ [42])).1 = true := by rw [hadvance]
  exact ⟨hdecode, hadvance, .start, hready,
    (advance_agrees_with_decode (batch ++ [42])).2.2 start [] .start List.nil_prefix hready⟩

end Scan

end StoreClient
