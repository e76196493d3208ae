import StoreClient.Proofs.Normalizing
import StoreClient.Proofs.Scanning
import StoreClient.Proofs.Skipping
import Mathlib.Data.Nat.PSub

/-!
# The counters of a scan

A scan counts down the entries of its batch and the items of each array in progress, and every count
comes from whoever sent the bytes. The library subtracts natural numbers, where nothing less one is
nothing, and takes one for a count that is missing. This file runs the scan with counters that
cannot go below zero and have no default (`Scan.advance?`), and proves that nothing changes. The
invariant is `Progress.Counts`: until the batch ends every counter stands at one or more.
-/

namespace StoreClient

/-- The number counts something that is still to come, and it can be announced. -/
def IsCount (n : Nat) : Prop := 1 ≤ n ∧ n < Numeral.bound

namespace Progress

/-- The counters of a batch that has not ended. -/
structure Counts (progress : Progress) : Prop where
  depth_le : progress.stack.length ≤ maxDepth
  frames : ∀ frame ∈ progress.stack, IsCount frame.remaining
  isSome_of_ne_nil : progress.stack ≠ [] → progress.remaining.isSome = true
  entries : ∀ n, progress.remaining = some n → IsCount n

/-- Count a finished item against the arrays in progress. There is no answer if one of them has no
item to come. -/
def finishItem? : List Frame → Option (Option (List Frame))
  | [] => some none
  | frame :: outer => do
    let remaining ← frame.remaining.ppred
    if 0 < remaining then some (some ({ frame with remaining } :: outer)) else finishItem? outer

/-- Count a finished item. There is no answer if a counter is missing, or stands at zero. -/
def finish? (progress : Progress) : Option (Bool × Progress) := do
  match ← finishItem? progress.stack with
  | some stack => some (false, { progress with stack })
  | none =>
    let remaining ← progress.remaining.bind Nat.ppred
    some (remaining = 0, ⟨some remaining, []⟩)

/-- Pass over the next item that is complete, with counters that may fail. -/
def step? (progress : Progress) : Parse (Option (Bool × Progress)) :=
  match progress.remaining with
  | none => do
    let count ← Parse.batchHeader
    pure (some (count = 0, { progress with remaining := some count }))
  | some _ => do
    match ← skipItem progress.stack with
    | some frame => pure (some (false, { progress with stack := frame :: progress.stack }))
    | none => pure progress.finish?

/-- Every step takes at least one byte, whatever the counters say. -/
theorem step?_takes (progress : Progress) : Parse.Takes 1 progress.step? := by
  unfold step?
  split
  · exact (Parse.Takes.batchHeader.first fun _ => Parse.Takes.pure _).mono (by omega)
  · refine (skipItem_takes _).first fun frame => ?_
    cases frame with
    | none => exact Parse.Takes.pure _
    | some frame => exact Parse.Takes.pure _

/-- Arrays that have items to come are counted down without a failure. -/
theorem finishItem?_eq {stack : List Frame} (h : ∀ frame ∈ stack, 1 ≤ frame.remaining) :
    finishItem? stack = some (finishItem stack) := by
  induction stack with
  | nil => rfl
  | cons frame outer ih =>
    have hframe : 1 ≤ frame.remaining := h frame (by simp)
    have hpred : frame.remaining.ppred = some (frame.remaining - 1) := by simp; omega
    simp only [finishItem?, finishItem, hpred, Option.bind_eq_bind, Option.bind_some]
    by_cases hmore : 1 < frame.remaining
    · rw [if_pos hmore, if_pos (by omega)]
    · rw [if_neg hmore, if_neg (by omega)]
      apply ih
      intro frame hmem
      apply h
      simp [hmem]

/-- The arrays that are left in progress by a finished item have items to come, and there are no
more of them than before. -/
theorem counts_of_finishItem {stack left : List Frame} (h : ∀ frame ∈ stack, IsCount frame.remaining)
    (hleft : finishItem stack = some left) :
    left.length ≤ stack.length ∧ ∀ frame ∈ left, IsCount frame.remaining := by
  induction stack with
  | nil => cases hleft
  | cons frame outer ih =>
    have hframe : IsCount frame.remaining := h frame (by simp)
    have houter : ∀ frame ∈ outer, IsCount frame.remaining := by
      intro frame hmem
      apply h
      simp [hmem]
    unfold finishItem at hleft
    by_cases hmore : 1 < frame.remaining
    · rw [if_pos hmore] at hleft
      cases hleft
      constructor
      · simp
      · intro other hmem
        obtain rfl | hmem := List.mem_cons.mp hmem
        · obtain ⟨-, hlt⟩ := hframe
          constructor
          · dsimp only
            omega
          · dsimp only
            omega
        · exact houter other hmem
    · rw [if_neg hmore] at hleft
      obtain ⟨hlength, hcounts⟩ := ih houter hleft
      constructor
      · simp
        omega
      · exact hcounts

/-- A batch of which nothing was read. -/
theorem Counts.start : start.Counts := by
  constructor
  · decide
  · simp [Progress.start]
  · simp [Progress.start]
  · simp [Progress.start]

section Steps

variable {progress next : Progress} {bytes rest : Bytes} {ends : Bool}

/-- Where no counter is missing or at zero, none of them fails. -/
theorem Counts.finish?_eq (h : progress.Counts) (hheader : progress.remaining.isSome = true) :
    progress.finish? = some progress.finish := by
  have hframes : ∀ frame ∈ progress.stack, 1 ≤ frame.remaining := fun frame hmem =>
    (h.frames frame hmem).1
  unfold finish? finish
  simp only [finishItem?_eq hframes, Option.bind_eq_bind, Option.bind_some]
  cases finishItem progress.stack with
  | some stack => rfl
  | none =>
    obtain ⟨count, hcount⟩ := Option.isSome_iff_exists.mp hheader
    obtain ⟨hpos, -⟩ := h.entries count hcount
    have hpred : count.ppred = some (count - 1) := by simp; omega
    simp [hcount, hpred]

/-- In a step no counter fails. -/
theorem Counts.step?_eq (h : progress.Counts) : progress.step? = some <$> progress.step := by
  unfold step? step
  cases hremaining : progress.remaining with
  | none => simp only [map_bind, map_pure]
  | some count =>
    have hfinish := h.finish?_eq (by simp [hremaining])
    simp only [hfinish, map_bind]
    congr 1
    funext opened
    cases opened with
    | none => rfl
    | some frame => rfl

/-- A step that comes to an end does so with counters that may fail. -/
theorem Counts.step?_of_ok (h : progress.Counts)
    (hstep : progress.step bytes = .ok ((ends, next), rest)) :
    progress.step? bytes = .ok (some (ends, next), rest) := by
  rw [h.step?_eq]
  exact Parse.map_eq_ok.mpr ⟨_, hstep, rfl⟩

/-- A step that stops does so with counters that may fail. -/
theorem Counts.step?_of_error {stop : Stop} (h : progress.Counts)
    (hstep : progress.step bytes = .error stop) : progress.step? bytes = .error stop := by
  rw [h.step?_eq]
  exact Parse.map_eq_error.mpr hstep

/-- What a step comes to: it reads the header of the batch, or it passes over an item, which either
opens an array or is finished. -/
theorem step_eq_ok (h : progress.step bytes = .ok ((ends, next), rest)) :
    (progress.remaining = none ∧ ∃ count, Parse.batchHeader bytes = .ok (count, rest) ∧
      ends = decide (count = 0) ∧ next = { progress with remaining := some count }) ∨
    (progress.remaining.isSome = true ∧
      ((∃ frame, skipItem progress.stack bytes = .ok (some frame, rest) ∧ ends = false ∧
        next = { progress with stack := frame :: progress.stack }) ∨
      progress.finish = (ends, next))) := by
  unfold step at h
  cases hremaining : progress.remaining with
  | none =>
    rw [hremaining] at h
    obtain ⟨count, behind, hheader, hpure⟩ := Parse.bind_eq_ok.mp h
    cases hpure
    exact .inl ⟨rfl, count, hheader, rfl, rfl⟩
  | some count =>
    rw [hremaining] at h
    obtain ⟨opened, behind, hskip, hpure⟩ := Parse.bind_eq_ok.mp h
    refine .inr ⟨rfl, ?_⟩
    cases opened with
    | some frame =>
      cases hpure
      exact .inl ⟨frame, hskip, rfl, rfl⟩
    | none =>
      change Except.ok (progress.finish, behind) = _ at hpure
      simp only [Except.ok.injEq, Prod.mk.injEq] at hpure
      exact .inr hpure.1

end Steps

end Progress

namespace Parse.Sizes

/-- The number of entries can be announced. -/
theorem batchHeader : Ensures Parse.batchHeader (· < Numeral.bound) := by
  intro bytes count rest hok
  obtain ⟨digits, hnum, -⟩ := batchHeader_sound hok
  exact hnum.lt_bound

/-- The length of an array can be announced. -/
theorem frameHeader (kind : ArrayKind) :
    Ensures (Progress.frameHeader kind) (·.remaining < Numeral.bound) := by
  intro bytes frame rest hok
  obtain ⟨announced, hheader, rfl⟩ := map_eq_ok.mp ((frameHeader_alike kind).ok_iff.mp hok)
  exact arrayHeader kind _ _ _ hheader

/-- An array that is opened by a tagged item has items, and there is room for it. -/
theorem skipTagged (depth : Nat) : Ensures (Progress.skipTagged depth) fun opened =>
    ∀ frame, opened = some frame → IsCount frame.remaining ∧ depth < maxDepth := by
  unfold Progress.skipTagged
  refine .behind fun type => ?_
  cases type with
  | scalar type => exact .behind fun _ => .pure (by simp)
  | array kind =>
    refine (frameHeader kind).bind fun opened hcount => ?_
    by_cases hdeep : maxDepth ≤ depth
    · rw [if_pos hdeep]
      exact .fail _
    · rw [if_neg hdeep]
      by_cases hempty : opened.remaining = 0
      · rw [if_pos hempty]
        exact .pure (by simp)
      · rw [if_neg hempty]
        refine .pure ?_
        rintro frame ⟨⟩
        have hpos : 1 ≤ opened.remaining := by omega
        exact ⟨⟨hpos, hcount⟩, by omega⟩

/-- So has every array that is opened by an item. -/
theorem skipItem (stack : List Frame) : Ensures (Progress.skipItem stack) fun opened =>
    ∀ frame, opened = some frame → IsCount frame.remaining ∧ stack.length < maxDepth := by
  unfold Progress.skipItem
  split
  · exact skipTagged 0
  · split
    · exact skipTagged _
    · exact .behind fun _ => .pure (by simp)
    · exact .behind fun _ => .pure (by simp)
    · exact .behind fun _ => .pure (by simp)

end Parse.Sizes

namespace Progress

section Steps

variable {progress next : Progress} {bytes rest : Bytes}

/-- A finished item that does not end the batch leaves counters that stand at one or more. -/
theorem Counts.of_finish (h : progress.Counts) (hheader : progress.remaining.isSome = true)
    (hfinish : progress.finish = (false, next)) : next.Counts := by
  unfold finish at hfinish
  cases hleft : finishItem progress.stack with
  | some left =>
    obtain ⟨hlength, hframes⟩ := counts_of_finishItem h.frames hleft
    rw [hleft] at hfinish
    cases hfinish
    constructor
    · have := h.depth_le
      dsimp only
      omega
    · exact hframes
    · exact fun _ => hheader
    · exact h.entries
  | none =>
    rw [hleft] at hfinish
    simp only [Prod.mk.injEq, decide_eq_false_iff_not] at hfinish
    obtain ⟨hmore, rfl⟩ := hfinish
    obtain ⟨count, hcount⟩ := Option.isSome_iff_exists.mp hheader
    obtain ⟨-, hlt⟩ := h.entries count hcount
    simp only [hcount, Option.getD_some] at hmore ⊢
    constructor
    · simp
    · simp
    · simp
    · intro n hn
      cases hn
      constructor
      · omega
      · omega

/-- A step that does not end the batch leaves counters that stand at one or more. -/
theorem Counts.step (h : progress.Counts)
    (hstep : progress.step bytes = .ok ((false, next), rest)) : next.Counts := by
  obtain ⟨hnone, count, hheader, hmore, rfl⟩ | ⟨hsome, ⟨frame, hskip, -, rfl⟩ | hfinish⟩ :=
    step_eq_ok hstep
  · have hlt : count < Numeral.bound := Parse.Sizes.batchHeader _ _ _ hheader
    have hpos : count ≠ 0 := by simpa using hmore
    constructor
    · exact h.depth_le
    · exact h.frames
    · simp
    · intro n hn
      cases hn
      constructor
      · omega
      · exact hlt
  · obtain ⟨hcount, hroom⟩ := Parse.Sizes.skipItem _ _ _ _ hskip frame rfl
    constructor
    · simp
      omega
    · intro other hmem
      obtain rfl | hmem := List.mem_cons.mp hmem
      · exact hcount
      · exact h.frames other hmem
    · exact fun _ => hsome
    · exact h.entries
  · exact h.of_finish hsome hfinish

/-- The step that ends the batch leaves no array in progress and no entry to come. -/
theorem Counts.step_ends (h : progress.Counts)
    (hstep : progress.step bytes = .ok ((true, next), rest)) : next = ⟨some 0, []⟩ := by
  obtain ⟨hnone, count, hheader, hmore, rfl⟩ | ⟨hsome, ⟨frame, hskip, hends, rfl⟩ | hfinish⟩ :=
    step_eq_ok hstep
  · have hcount : count = 0 := by simpa using hmore
    have hstack : progress.stack = [] := by
      by_contra hne
      have := h.isSome_of_ne_nil hne
      simp [hnone] at this
    simp [hcount, hstack]
  · cases hends
  · unfold finish at hfinish
    cases hleft : finishItem progress.stack with
    | some left => simp [hleft] at hfinish
    | none =>
      simp only [hleft, Prod.mk.injEq, decide_eq_true_eq] at hfinish
      obtain ⟨hzero, rfl⟩ := hfinish
      simp [hzero]

end Steps

end Progress

namespace Scan

/-- The scan that has passed over what stands in front of the rest. -/
def behind (scan : Scan) (buffer rest : Bytes) (next : Progress) : Scan :=
  ⟨scan.pos + ((buffer.drop scan.pos).length - rest.length), next⟩

/-- Scan a buffer on with counters that may fail. There is no answer if one of them does. -/
def advance? (scan : Scan) (buffer : Bytes) : Option (Bool × Scan) :=
  match _h : scan.progress.step? (buffer.drop scan.pos) with
  | .ok (none, _) => none
  | .ok (some (ends, next), rest) =>
    if ends then some (true, scan.behind buffer rest next)
    else (scan.behind buffer rest next).advance? buffer
  | .error .incomplete => some (false, scan)
  | .error (.broken _) => some (true, scan)
  termination_by buffer.length - scan.pos
  decreasing_by
    have := scan.progress.step?_takes _ _ rest _h
    simp only [List.length_drop, behind] at this ⊢
    omega

/-- So many items are passed over one after the other, and the batch does not end with any of
them. -/
inductive Passes (buffer : Bytes) : Nat → Scan → Scan → Prop where
  | nothing (scan : Scan) : Passes buffer 0 scan scan
  | item {n : Nat} {scan last : Scan} {next : Progress} {rest : Bytes} :
      scan.progress.step (buffer.drop scan.pos) = .ok ((false, next), rest) →
      Passes buffer n (scan.behind buffer rest next) last → Passes buffer (n + 1) scan last

/-- What the scan answers that gets this far and no further. It stands before an item that is not
there as a whole or breaks the batch, or behind the item that ends the batch. -/
inductive Stops (buffer : Bytes) (scan : Scan) : Bool × Scan → Prop where
  | incomplete : scan.progress.step (buffer.drop scan.pos) = .error .incomplete →
      Stops buffer scan (false, scan)
  | broken {e : ProtocolError} :
      scan.progress.step (buffer.drop scan.pos) = .error (.broken e) → Stops buffer scan (true, scan)
  | ended {next : Progress} {rest : Bytes} :
      scan.progress.step (buffer.drop scan.pos) = .ok ((true, next), rest) →
      Stops buffer scan (true, scan.behind buffer rest next)

/-- The scan stands within the buffer, and its batch has not ended. -/
structure Underway (scan : Scan) (buffer : Bytes) : Prop where
  pos_le : scan.pos ≤ buffer.length
  counts : scan.progress.Counts

section Buffer

variable {buffer seen more rest : Bytes} {scan last : Scan} {next : Progress} {ends : Bool} {n : Nat}

/-- A step takes bytes, and takes them from the buffer. -/
theorem lt_pos_behind (hstep : scan.progress.step (buffer.drop scan.pos) = .ok ((ends, next), rest)) :
    scan.pos < (scan.behind buffer rest next).pos ∧
      (scan.behind buffer rest next).pos ≤ buffer.length := by
  have htakes := scan.progress.step_takes _ _ rest hstep
  rw [List.length_drop] at htakes
  simp only [behind, List.length_drop]
  constructor
  · omega
  · omega

/-- The batch is still underway behind an item that does not end it. -/
theorem Underway.behind (h : scan.Underway buffer)
    (hstep : scan.progress.step (buffer.drop scan.pos) = .ok ((false, next), rest)) :
    (scan.behind buffer rest next).Underway buffer where
  pos_le := (lt_pos_behind hstep).2
  counts := h.counts.step hstep

/-- More bytes may arrive. -/
theorem Underway.grow (h : scan.Underway seen) (hgrow : seen <+: buffer) : scan.Underway buffer where
  pos_le := h.pos_le.trans hgrow.length_le
  counts := h.counts

/-- Each item that was passed over took a byte at least, and the batch is still underway. -/
theorem Underway.passes (h : scan.Underway buffer) (hpasses : scan.Passes buffer n last) :
    last.Underway buffer ∧ scan.pos + n ≤ last.pos := by
  induction hpasses with
  | nothing scan => exact ⟨h, by omega⟩
  | item hstep hrest ih =>
    obtain ⟨hlast, hpos⟩ := ih (h.behind hstep)
    have hlt := (lt_pos_behind hstep).1
    exact ⟨hlast, by omega⟩

/-- A scan passes over items until it stops. -/
theorem exists_passes_stops (buffer : Bytes) (scan : Scan) :
    ∃ n last, scan.Passes buffer n last ∧ last.Stops buffer (scan.advance buffer) := by
  rw [← Scanning.advance_eq]
  fun_induction Scanning.advance buffer scan with
  | case1 scan rest progress next hstep =>
    exact ⟨0, scan, .nothing scan, .ended (Scanning.eq_ok_of_step hstep)⟩
  | case2 scan ends rest progress hstep next hends ih =>
    rw [Bool.not_eq_true] at hends
    subst hends
    obtain ⟨n, last, hpasses, hstops⟩ := ih
    exact ⟨n + 1, last, .item (Scanning.eq_ok_of_step hstep) hpasses, hstops⟩
  | case3 scan progress hstep =>
    obtain ⟨hstop, rfl⟩ := Scanning.eq_error_of_step hstep
    exact ⟨0, scan, .nothing scan, .incomplete hstop⟩
  | case4 scan progress e hstep =>
    obtain ⟨hstop, rfl⟩ := Scanning.eq_error_of_step hstep
    exact ⟨0, scan, .nothing scan, .broken hstop⟩

/-- The scan with counters that may fail, step by step. -/
theorem advance?_run (scan : Scan) (buffer : Bytes) : scan.advance? buffer =
    match scan.progress.step? (buffer.drop scan.pos) with
    | .ok (none, _) => none
    | .ok (some (ends, next), rest) =>
      if ends then some (true, scan.behind buffer rest next)
      else (scan.behind buffer rest next).advance? buffer
    | .error .incomplete => some (false, scan)
    | .error (.broken _) => some (true, scan) := by
  rw [advance?]
  split
  · rename_i hstep
    rw [hstep]
  · rename_i hstep
    rw [hstep]
  · rename_i hstep
    rw [hstep]
  · rename_i hstep
    rw [hstep]

/-- No counter fails before the scan stops, and none where it stops. -/
theorem Underway.advance?_of_passes {result : Bool × Scan} (h : scan.Underway buffer)
    (hpasses : scan.Passes buffer n last) (hstops : last.Stops buffer result) :
    scan.advance? buffer = some result := by
  induction hpasses with
  | nothing scan =>
    rw [advance?_run]
    cases hstops with
    | incomplete hstop => rw [h.counts.step?_of_error hstop]
    | broken hstop => rw [h.counts.step?_of_error hstop]
    | ended hstep => simp [h.counts.step?_of_ok hstep]
  | item hstep hrest ih =>
    rw [advance?_run, h.counts.step?_of_ok hstep]
    exact ih (h.behind hstep) hstops

/-- A scan that was fed with growing buffers, none of them worth decoding, is underway. -/
theorem Fed.underway (h : Fed scan seen) : scan.Underway seen := by
  induction h with
  | start => exact ⟨Nat.zero_le _, .start⟩
  | @grow scan next seen more hfed hadvance ih =>
    obtain ⟨n, last, hpasses, hstops⟩ := exists_passes_stops (seen ++ more) scan
    rw [hadvance] at hstops
    cases hstops with
    | incomplete => exact ((ih.grow (List.prefix_append seen more)).passes hpasses).1

end Buffer

/-- The counters of a scan hold out. While a scan is fed with growing buffers of which none is worth
decoding, whatever counts they declare, each state that it goes through stands within the buffer,
with at most as many arrays in progress as may be nested, and counters that stand at one or more. So
a scan whose counters must be there and cannot go below zero never fails, and comes to the same
answer. A step takes a byte at least, so a scan of a buffer has no more steps than bytes to come;
where one ends the batch, no array is in progress and no entry is to come. -/
theorem counters_hold_out {prefixes : List Bytes} {buffer : Bytes} {scan : Scan}
    (hgrow : (prefixes ++ [buffer]).IsChain (· <+: ·)) (hfeed : start.feed prefixes = some scan) :
    (∀ n state, scan.Passes buffer n state →
      state.pos ≤ buffer.length ∧ state.progress.Counts ∧ scan.pos + n ≤ state.pos ∧
      (state.progress.remaining.isSome = true →
        state.progress.finish? = some state.progress.finish) ∧
      ∀ ends next rest, state.progress.step (buffer.drop state.pos) = .ok ((ends, next), rest) →
        state.pos < (state.behind buffer rest next).pos ∧
        (state.behind buffer rest next).pos ≤ buffer.length ∧
        (ends = true → next = ⟨some 0, []⟩)) ∧
    (∃ n last, scan.Passes buffer n last ∧ last.Stops buffer (scan.advance buffer)) ∧
    scan.advance? buffer = some (scan.advance buffer) := by
  obtain ⟨seen, hfed, hseen⟩ := exists_fed_of_feed hgrow hfeed
  have hunderway : scan.Underway buffer := hfed.underway.grow hseen
  obtain ⟨count, last, hpasses, hstops⟩ := exists_passes_stops buffer scan
  refine ⟨?_, ⟨count, last, hpasses, hstops⟩, hunderway.advance?_of_passes hpasses hstops⟩
  intro n state hstate
  obtain ⟨hhere, hpos⟩ := hunderway.passes hstate
  refine ⟨hhere.pos_le, hhere.counts, hpos, hhere.counts.finish?_eq, ?_⟩
  intro ends next rest hstep
  obtain ⟨hlt, hle⟩ := lt_pos_behind hstep
  refine ⟨hlt, hle, ?_⟩
  rintro rfl
  exact hhere.counts.step_ends hstep

/-- A batch that announces as many entries as can be announced, the first of them an array with as
many items, of which one is there. It arrives in two parts. -/
theorem counters_hold_out_huge :
    let buffer := Utf8.encode "*18446744073709551615\n&18446744073709551615\n+1\na\n"
    let prefixes := [buffer.take 30]
    let scan : Scan := ⟨22, ⟨some 18446744073709551615, []⟩⟩
    let state : Scan := ⟨49, ⟨some 18446744073709551615, [⟨.nested, 18446744073709551614⟩]⟩⟩
    (prefixes ++ [buffer]).IsChain (· <+: ·) ∧ start.feed prefixes = some scan ∧
      scan.Passes buffer 2 state ∧ state.pos ≤ buffer.length ∧ state.progress.Counts ∧
      scan.pos + 2 ≤ state.pos ∧ state.progress.finish? = some state.progress.finish ∧
      scan.advance? buffer = some (scan.advance buffer) := by
  intro buffer prefixes scan state
  have hgrow : (prefixes ++ [buffer]).IsChain (· <+: ·) := by decide +kernel
  have hfeed : start.feed prefixes = some scan := by decide +kernel
  have harray : scan.progress.step (buffer.drop scan.pos) =
      .ok ((false, ⟨some 18446744073709551615, [⟨.nested, 18446744073709551615⟩]⟩),
        buffer.drop 44) := by
    rfl
  have hitem : Progress.step ⟨some 18446744073709551615, [⟨.nested, 18446744073709551615⟩]⟩
      (buffer.drop 44) = .ok ((false, state.progress), []) := by
    rfl
  have hpasses : scan.Passes buffer 2 state := .item harray (.item hitem (.nothing _))
  obtain ⟨hstates, -, hadvance⟩ := counters_hold_out hgrow hfeed
  obtain ⟨hpos, hcounts, hsteps, hfinish, -⟩ := hstates 2 state hpasses
  exact ⟨hgrow, hfeed, hpasses, hpos, hcounts, hsteps, hfinish rfl, hadvance⟩

end Scan

end StoreClient
