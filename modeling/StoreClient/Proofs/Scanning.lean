import StoreClient.Proofs.Resumption
import Mathlib.Data.List.Chain

/-!
# Scanning in place

The library takes a step of the scan as a function that answers with the next progress. A program
works on one progress: it counts down, puts frames on the stack and takes them off, and whatever it
changed before it ran out of bytes stays changed. This file follows such a program and proves that
it does what the library says: everything is read before anything is changed, so an item that is
cut anywhere leaves the scan as it was. The main statement is `Scan.resumes_anywhere`: a scan that
was fed with growing buffers stands where a fresh scan of the last one stands.
-/

namespace StoreClient

/-- A step of the scan on a progress in place. Where it stops, the progress stays as it is then. -/
abbrev Scanning := StateT Bytes (ExceptT Stop (StateM Progress))

/-- A scan that passes over an item goes on behind it. -/
theorem Scan.advance_of_step_ok {scan : Scan} {buffer rest : Bytes} {next : Progress}
    (h : scan.progress.step (buffer.drop scan.pos) = .ok ((false, next), rest)) :
    scan.advance buffer =
      advance ⟨scan.pos + ((buffer.drop scan.pos).length - rest.length), next⟩ buffer := by
  obtain ⟨taken, hdrop, -⟩ := (Parse.Stable.step scan.progress).reads h
  have hlength : (buffer.drop scan.pos).length - rest.length = taken.length := by
    rw [hdrop, List.length_append, Nat.add_sub_cancel]
  have hrest : buffer.drop (scan.pos + taken.length) = rest := by
    rw [← List.drop_drop, hdrop, List.drop_left]
  have hshort := (Progress.run_suffix next rest).length_le
  rw [advance, advance, Progress.run_of_step_ok h, if_neg Bool.false_ne_true, hlength]
  rcases hrun : next.run rest with ⟨ready, last, behind⟩
  rw [hrun] at hshort
  simp only [hrest, hrun]
  rw [hdrop, List.length_append]
  dsimp only at hshort
  congr 2
  omega

namespace Scanning

/-- Take bytes from the front. -/
def read {α : Type} (parser : Parse α) : Scanning α :=
  fun bytes progress => (parser bytes, progress)

/-- Look at the progress. -/
def progress : Scanning Progress := fun bytes progress => (.ok (progress, bytes), progress)

/-- Change the progress. -/
def change (f : Progress → Progress) : Scanning Unit :=
  fun bytes progress => (.ok ((), bytes), f progress)

/-- Put arrays in progress in the place of those that there are. -/
def setStack (stack : List Frame) : Scanning Unit := change ({ · with stack })

/-- Count a finished item against the innermost array. If it was the last one, the array is taken
off the stack and counted against the array around it. Answers whether an entry was finished. -/
def countItem : List Frame → Scanning Bool
  | [] => pure true
  | frame :: outer => do
    setStack ({ frame with remaining := frame.remaining - 1 } :: outer)
    if 0 < frame.remaining - 1 then pure false
    else
      setStack outer
      countItem outer

/-- Count a finished item. Answers whether it was the last entry of the batch. -/
def finishItem : Scanning Bool := do
  if ← countItem (← progress).stack then
    let remaining := (← progress).remaining.getD 1 - 1
    change ({ · with remaining := some remaining })
    pure (remaining = 0)
  else pure false

/-- Pass over a tagged item. An array with items is put on the stack. -/
def tagged : Scanning Bool := do
  match ← read Parse.itemType with
  | .scalar type =>
    read (Progress.skipScalar type)
    finishItem
  | .array kind =>
    let frame ← read (Progress.frameHeader kind)
    let stack := (← progress).stack
    if maxDepth ≤ stack.length then read (Parse.fail (.nestingTooDeep maxDepth))
    else if 0 < frame.remaining then
      setStack (frame :: stack)
      pure false
    else finishItem

/-- Pass over the next item. Answers whether the batch ends there. -/
def step : Scanning Bool := do
  match (← progress).remaining with
  | none =>
    let count ← read Parse.batchHeader
    change ({ · with remaining := some count })
    pure (count = 0)
  | some _ =>
    match (← progress).stack.head?.map Frame.shape with
    | some (.typed element _) =>
      read (Progress.skipTypedElement element)
      finishItem
    | some .any =>
      read Progress.skipAnyItem
      finishItem
    | some .flat =>
      read Progress.skipFlatItem
      finishItem
    | some .nested | none => tagged

/-- Two steps in a row. What the first one changed stays changed, also if the second one stops. -/
theorem bind_run {α β : Type} (scanning : Scanning α) (next : α → Scanning β) (bytes : Bytes)
    (current : Progress) : (scanning >>= next) bytes current =
      match scanning bytes current with
      | (.ok (a, rest), middle) => next a rest middle
      | (.error stop, left) => (.error stop, left) := by
  change StateT.run (ExceptT.bindCont (fun result => next result.1 result.2)
    (scanning bytes current).1 : StateM Progress _) (scanning bytes current).2 = _
  cases h : scanning bytes current with
  | mk result left =>
    cases result with
    | ok result => rfl
    | error stop => rfl

/-- Whatever the bytes are, nothing of them is taken, and the step comes to this answer and this
progress. -/
def Changes {α : Type} (scanning : Scanning α) (current : Progress) (a : α) (after : Progress) :
    Prop := ∀ bytes, scanning bytes current = (.ok (a, bytes), after)

/-- In place the step comes to what the parser answers. A step that stops leaves the progress as it
was. -/
def Whole {α : Type} (scanning : Scanning α) (current : Progress)
    (parser : Parse (α × Progress)) : Prop :=
  ∀ bytes, scanning bytes current =
    match parser bytes with
    | .ok ((a, after), rest) => (.ok (a, rest), after)
    | .error stop => (.error stop, current)

section Steps

variable {α β : Type} {scanning : Scanning α} {next : α → Scanning β}
  {current middle after : Progress} {a : α} {b : β}

/-- Two changes in a row. -/
theorem Changes.bind (h : scanning.Changes current a middle)
    (hnext : (next a).Changes middle b after) : Changes (scanning >>= next) current b after := by
  intro bytes
  rw [bind_run, h]
  exact hnext bytes

/-- Nothing is changed. -/
theorem Changes.pure (a : α) : Changes (Pure.pure a) current a current := fun _ => rfl

/-- The progress is looked at. -/
theorem Changes.progress : progress.Changes current current current := fun _ => rfl

/-- The progress is changed. -/
theorem Changes.change (f : Progress → Progress) : (change f).Changes current () (f current) :=
  fun _ => rfl

/-- What reads nothing does not stop. -/
theorem Changes.whole (h : scanning.Changes current a after) :
    scanning.Whole current (Pure.pure (a, after)) := h

/-- The progress is looked at before anything is read. -/
theorem Whole.look {next : Progress → Scanning α} {parser : Parse (α × Progress)}
    (h : (next current).Whole current parser) : Whole (progress >>= next) current parser := h

/-- Bytes are read before anything is changed. -/
theorem Whole.read {parser : Parse α} {then' : α → Parse (β × Progress)}
    (h : ∀ a, (next a).Whole current (then' a)) :
    Whole (read parser >>= next) current (parser >>= then') := by
  intro bytes
  rw [bind_run, Parse.bind_run, Scanning.read]
  cases parser bytes with
  | error stop => rfl
  | ok result => exact h result.1 result.2

end Steps

/-- The arrays that a finished item ends are taken off the stack. -/
theorem countItem_changes (remaining : Option Nat) (stack : List Frame) :
    (countItem stack).Changes ⟨remaining, stack⟩ (Progress.finishItem stack).isNone
      ⟨remaining, (Progress.finishItem stack).getD []⟩ := by
  induction stack with
  | nil => exact .pure true
  | cons frame outer ih =>
    rw [countItem, Progress.finishItem]
    refine (Changes.change _).bind ?_
    by_cases hmore : 1 < frame.remaining
    · rw [if_pos hmore, if_pos (by omega)]
      exact .pure false
    · rw [if_neg hmore, if_neg (by omega)]
      exact (Changes.change _).bind ih

/-- A finished item is counted as the library says. -/
theorem finishItem_changes (current : Progress) :
    finishItem.Changes current current.finish.1 current.finish.2 := by
  refine (Changes.progress).bind ((countItem_changes current.remaining current.stack).bind ?_)
  unfold Progress.finish
  cases Progress.finishItem current.stack with
  | some stack => exact .pure false
  | none => exact Changes.progress.bind ((Changes.change _).bind (.pure _))

/-- What the library makes of an item that was passed over: the array that it opens is put on the
stack, and any other item is counted. -/
def settle (current : Progress) : Option Frame → Parse (Bool × Progress)
  | some frame => pure (false, { current with stack := frame :: current.stack })
  | none => pure current.finish

/-- An item that opens no array is read, and then counted. -/
theorem count_whole (parser : Parse Unit) (current : Progress) :
    (do read parser; finishItem).Whole current ((do parser; pure none) >>= settle current) := by
  rw [bind_assoc]
  exact .read fun _ => (finishItem_changes current).whole

/-- A tagged item is passed over as the library says. -/
theorem tagged_whole (current : Progress) :
    tagged.Whole current (Progress.skipTagged current.stack.length >>= settle current) := by
  unfold Progress.skipTagged
  rw [bind_assoc]
  refine .read fun type => ?_
  cases type with
  | scalar type => exact count_whole (Progress.skipScalar type) current
  | array kind =>
    rw [bind_assoc]
    refine .read fun frame => .look ?_
    dsimp only
    by_cases hdeep : maxDepth ≤ current.stack.length
    · rw [if_pos hdeep, if_pos hdeep]
      exact fun _ => rfl
    · rw [if_neg hdeep, if_neg hdeep]
      by_cases hempty : frame.remaining = 0
      · rw [if_pos hempty, if_neg (by omega)]
        exact (finishItem_changes current).whole
      · rw [if_neg hempty, if_pos (by omega)]
        exact ((Changes.change _).bind (.pure false)).whole

/-- A step comes to what the library says, and changes nothing where it stops. -/
theorem step_whole (current : Progress) : step.Whole current current.step := by
  -- In every case the reads come first, and what changes the progress does not stop.
  obtain ⟨_ | remaining, stack⟩ := current
  · exact .look (.read fun count => ((Changes.change _).bind (.pure (decide (count = 0)))).whole)
  · change step.Whole _ (Progress.skipItem stack >>= settle _)
    refine .look (.look ?_)
    cases stack with
    | nil => exact tagged_whole _
    | cons frame outer =>
      obtain ⟨shape, count⟩ := frame
      cases shape with
      | nested => exact tagged_whole _
      | flat => exact count_whole Progress.skipFlatItem _
      | any => exact count_whole Progress.skipAnyItem _
      | typed element nonNull => exact count_whole (Progress.skipTypedElement element) _

/-- A step that comes to an end is one of the library, with the same progress. -/
theorem eq_ok_of_step {current after : Progress} {bytes rest : Bytes} {ends : Bool}
    (h : step bytes current = (.ok (ends, rest), after)) :
    current.step bytes = .ok ((ends, after), rest) := by
  rw [step_whole] at h
  cases hstep : current.step bytes with
  | error stop => rw [hstep] at h; cases h
  | ok result => rw [hstep] at h; cases h; rfl

/-- A step that stops stops in the library, and has changed nothing. -/
theorem eq_error_of_step {current left : Progress} {bytes : Bytes} {stop : Stop}
    (h : step bytes current = (.error stop, left)) :
    current.step bytes = .error stop ∧ left = current := by
  rw [step_whole] at h
  cases hstep : current.step bytes with
  | error stop => rw [hstep] at h; cases h; exact ⟨rfl, rfl⟩
  | ok result => rw [hstep] at h; cases h

/-- Scan a buffer on in place, item by item, from where the scan stands. Answers whether the buffer
is worth decoding. -/
def advance (buffer : Bytes) (scan : Scan) : Bool × Scan :=
  match _h : step (buffer.drop scan.pos) scan.progress with
  | (.ok (ends, rest), progress) =>
    let next : Scan := ⟨scan.pos + ((buffer.drop scan.pos).length - rest.length), progress⟩
    if ends then (true, next) else advance buffer next
  | (.error .incomplete, progress) => (false, { scan with progress })
  | (.error (.broken _), progress) => (true, { scan with progress })
  termination_by buffer.length - scan.pos
  decreasing_by
    have := scan.progress.step_takes _ _ rest (eq_ok_of_step _h)
    rw [List.length_drop] at this ⊢
    omega

/-- In place the scan gets where the library's scan gets. -/
theorem advance_eq (buffer : Bytes) (scan : Scan) : advance buffer scan = scan.advance buffer := by
  fun_induction advance buffer scan with
  | case1 scan rest progress next hstep =>
    rw [Scan.advance, Progress.run_of_step_ok (eq_ok_of_step hstep)]
    rfl
  | case2 scan ends rest progress hstep next hends ih =>
    rw [Bool.not_eq_true] at hends
    subst hends
    rw [ih, Scan.advance_of_step_ok (eq_ok_of_step hstep)]
  | case3 scan progress hstep =>
    obtain ⟨hstop, rfl⟩ := eq_error_of_step hstep
    rw [Scan.advance, Progress.run_of_step_incomplete hstop]
    simp
  | case4 scan progress e hstep =>
    obtain ⟨hstop, rfl⟩ := eq_error_of_step hstep
    rw [Scan.advance, Progress.run_of_step_broken hstop]
    simp

end Scanning

/-- An item that is cut anywhere is not passed over, and nothing is found wrong with it. -/
theorem Progress.step_of_cut {progress : Progress} {item cut : Bytes} {result : Bool × Progress}
    (h : progress.step item = .ok (result, [])) (hcut : cut <+: item) (hne : cut ≠ item) :
    progress.step cut = .error .incomplete := by
  obtain ⟨more, rfl⟩ := hcut
  have hstable := Parse.Stable.step progress
  cases hstep : progress.step cut with
  | ok found =>
    have hwhole := hstable.append hstep more
    rw [h] at hwhole
    cases hmore : more with
    | nil => rw [hmore, List.append_nil] at hne; exact absurd rfl hne
    | cons byte more => rw [hmore] at hwhole; simp at hwhole
  | error stop =>
    cases stop with
    | incomplete => rfl
    | broken e =>
      have hwhole := hstable.breaks hstep more
      rw [h] at hwhole
      cases hwhole

namespace Scan

variable {scan next : Scan} {front item cut buffer : Bytes} {prefixes : List Bytes}

/-- Feed growing buffers to a scan. There is no scan any more once one of them is worth decoding. -/
def feed (scan : Scan) : List Bytes → Option Scan
  | [] => some scan
  | buffer :: later =>
    match scan.advance buffer with
    | (true, _) => none
    | (false, next) => next.feed later

/-- A scan that is fed with buffers one by one is fed with a front of every buffer that has grown from
the last one. -/
theorem Fed.exists_of_feed {seen : Bytes} (h : Fed scan seen)
    (hgrow : (seen :: (prefixes ++ [buffer])).IsChain (· <+: ·))
    (hfeed : scan.feed prefixes = some next) : ∃ last, Fed next last ∧ last <+: buffer := by
  induction prefixes generalizing scan seen with
  | nil =>
    cases hfeed
    exact ⟨seen, h, by simpa using hgrow⟩
  | cons longer later ih =>
    rw [List.cons_append, List.isChain_cons_cons] at hgrow
    obtain ⟨⟨more, rfl⟩, hgrow⟩ := hgrow
    unfold feed at hfeed
    split at hfeed
    · cases hfeed
    · rename_i middle hadvance
      exact ih (h.grow hadvance) hgrow hfeed

/-- Growing buffers that are fed to a fresh scan. -/
theorem exists_fed_of_feed (hgrow : (prefixes ++ [buffer]).IsChain (· <+: ·))
    (hfeed : start.feed prefixes = some next) : ∃ last, Fed next last ∧ last <+: buffer :=
  Fed.start.exists_of_feed (hgrow.cons fun _ _ => List.nil_prefix) hfeed

/-- A scan that stands before an item of which the end is still to come stays as it is. -/
theorem advance_of_cut {result : Bool × Progress} (hpos : front.length = scan.pos)
    (hitem : scan.progress.step item = .ok (result, [])) (hcut : cut <+: item) (hne : cut ≠ item) :
    scan.advance (front ++ cut) = (false, scan) := by
  have hstop := Progress.step_of_cut hitem hcut hne
  rw [advance, ← hpos, List.drop_left, Progress.run_of_step_incomplete hstop]
  simp [hpos]

/-- The scan may be resumed at any point. Fed with growing buffers of which none is worth decoding,
it finds in the next one what a fresh scan finds there, and stands where that stands. An item that
is cut anywhere by the end of the buffer changes nothing of the scan. Both hold of a scan that
counts in place, which gets where the library's scan gets. -/
theorem resumes_anywhere :
    (∀ {prefixes : List Bytes} {buffer : Bytes} {scan : Scan},
      (prefixes ++ [buffer]).IsChain (· <+: ·) → start.feed prefixes = some scan →
      scan.advance buffer = start.advance buffer) ∧
    (∀ {scan : Scan} {front item cut : Bytes} {result : Bool × Progress},
      front.length = scan.pos → scan.progress.step item = .ok (result, []) →
      cut <+: item → cut ≠ item → scan.advance (front ++ cut) = (false, scan)) ∧
    ∀ buffer scan, Scanning.advance buffer scan = scan.advance buffer := by
  refine ⟨fun hgrow hfeed => ?_, advance_of_cut, Scanning.advance_eq⟩
  obtain ⟨last, hfed, more, rfl⟩ := exists_fed_of_feed hgrow hfeed
  exact hfed.advance_eq more

/-- A batch that arrives in four parts. The second part ends with an item, and the others cut one:
the tag and the size of a number, and the header of the second entry. -/
theorem resumes_anywhere_nested :
    let batch : Bytes := [42, 50, 10, 38, 50, 10, 43, 49, 10, 97, 10, 64, 58, 50, 10,
      49, 10, 55, 10, 0, 10, 126, 49, 10, 50, 10, 104, 105, 10]
    let prefixes := [batch.take 9, batch.take 19, batch.take 28]
    let scan : Scan := ⟨24, ⟨some 1, [⟨.any, 1⟩]⟩⟩
    (prefixes ++ [batch]).IsChain (· <+: ·) ∧ start.feed prefixes = some scan ∧
      scan.advance batch = start.advance batch ∧
      scan.advance (batch.take 24 ++ [50, 10]) = (false, scan) := by
  intro batch prefixes scan
  have hgrow : (prefixes ++ [batch]).IsChain (· <+: ·) := by decide
  have hfeed : start.feed prefixes = some scan := by decide +kernel
  have hitem : scan.progress.step [50, 10, 104, 105, 10] = .ok ((true, ⟨some 0, []⟩), []) := by
    rfl
  exact ⟨hgrow, hfeed, resumes_anywhere.1 hgrow hfeed,
    resumes_anywhere.2.1 rfl hitem (by decide) (by decide)⟩

end Scan

end StoreClient
