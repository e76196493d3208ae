import StoreClient.Proofs.Decoding

/-!
# Resuming the scan

A scan that ran out of bytes resumes at the end of the last complete item. This file
proves that it then finds what a fresh scan of the longer buffer finds: a step that
lacks bytes changes nothing, and a step that has them does not look behind them.
-/

namespace StoreClient

namespace Parse.Stable

open Progress

/-- Passing over a payload. -/
theorem skipBody (type : ScalarType) (size : Nat) : Stable (skipBody type size) := by
  unfold Progress.skipBody
  split
  · exact (payload size).bind fun _ => pure ()
  · exact line.bind fun _ => pure ()

/-- Passing over a scalar. -/
theorem skipScalar (type : ScalarType) : Stable (skipScalar type) :=
  (count _).bind fun size => skipBody type size

/-- Passing over an element of a typed array. -/
theorem skipTypedElement (element : ScalarType) : Stable (skipTypedElement element) := by
  refine line.bind fun start => ?_
  split
  · exact pure ()
  · exact (countOf _ _).bind fun size => skipBody element size

/-- Passing over an item without a tag. -/
theorem skipAnyItem : Stable skipAnyItem :=
  (count _).bind fun size => (payload size).bind fun _ => pure ()

/-- Passing over an item of a flat array. -/
theorem skipFlatItem : Stable skipFlatItem := by
  refine itemType.bind fun type => ?_
  cases type with
  | scalar type => exact skipScalar type
  | array kind => exact invalid _

/-- The frame of an array, from the line that holds its length. -/
theorem frameOf (shape : ArrayShape) (digits : Bytes) : Stable (frameOf shape digits) :=
  (countOf _ _).bind fun _ => pure _

/-- The frame of a typed array, from its header. -/
theorem typedFrameOf (nonNull : Bool) (header : Bytes) : Stable (typedFrameOf nonNull header) := by
  unfold Progress.typedFrameOf
  split
  · exact invalid _
  · split
    · exact frameOf _ _
    · exact invalid _

/-- Passing over the header of an array. -/
theorem frameHeader (kind : ArrayKind) : Stable (frameHeader kind) := by
  refine line.bind fun header => ?_
  cases kind with
  | nested => exact frameOf _ _
  | flat => exact frameOf _ _
  | typed => exact typedFrameOf _ _
  | any => exact frameOf _ _
  | typedNonNull => exact typedFrameOf _ _

/-- Passing over a tagged item. -/
theorem skipTagged (depth : Nat) : Stable (skipTagged depth) := by
  refine itemType.bind fun type => ?_
  cases type with
  | scalar type => exact (skipScalar type).bind fun _ => pure none
  | array kind =>
    refine (frameHeader kind).bind fun frame => ?_
    split
    · exact fail _
    · split
      · exact pure _
      · exact pure _

/-- Passing over whatever comes next. -/
theorem skipItem (stack : List Frame) : Stable (skipItem stack) := by
  unfold Progress.skipItem
  split
  · exact skipTagged 0
  · split
    · exact skipTagged _
    · exact skipFlatItem.bind fun _ => pure none
    · exact skipAnyItem.bind fun _ => pure none
    · exact (skipTypedElement _).bind fun _ => pure none

/-- A step of the scan. -/
theorem step (progress : Progress) : Stable progress.step := by
  unfold Progress.step
  split
  · exact batchHeader.bind fun _ => pure _
  · refine (skipItem _).bind fun frame => ?_
    cases frame with
    | none => exact pure _
    | some frame => exact pure _

end Parse.Stable

namespace Progress

variable {progress next : Progress} {bytes rest : Bytes}

/-- A step that succeeds is followed by the rest of the scan, unless the batch ends. -/
theorem run_of_step_ok {ends : Bool} (h : progress.step bytes = .ok ((ends, next), rest)) :
    progress.run bytes = if ends then (true, next, rest) else next.run rest := by
  rw [run]
  split
  · rename_i heq
    cases h.symm.trans heq
    rfl
  · rename_i heq
    cases h.symm.trans heq
  · rename_i heq
    cases h.symm.trans heq

/-- A step that lacks bytes ends the scan where it stands. -/
theorem run_of_step_incomplete (h : progress.step bytes = .error .incomplete) :
    progress.run bytes = (false, progress, bytes) := by
  rw [run]
  split
  · rename_i heq
    cases h.symm.trans heq
  · rfl
  · rename_i heq
    cases h.symm.trans heq

/-- A step that breaks makes the buffer worth decoding. -/
theorem run_of_step_broken {e : ProtocolError} (h : progress.step bytes = .error (.broken e)) :
    progress.run bytes = (true, progress, bytes) := by
  rw [run]
  split
  · rename_i heq
    cases h.symm.trans heq
  · rename_i heq
    cases h.symm.trans heq
  · rfl

/-- The scan takes bytes from the front. -/
theorem run_suffix (progress : Progress) (bytes : Bytes) :
    (progress.run bytes).2.2 <:+ bytes := by
  fun_induction run progress bytes with
  | case1 progress bytes next rest h =>
    obtain ⟨taken, rfl, _⟩ := (Parse.Stable.step progress).reads h
    exact List.suffix_append taken rest
  | case2 progress bytes ends next rest h _ ih =>
    obtain ⟨taken, rfl, _⟩ := (Parse.Stable.step progress).reads h
    exact ih.trans (List.suffix_append taken rest)
  | case3 => exact List.suffix_refl _
  | case4 => exact List.suffix_refl _

/-- A scan that ran out of bytes goes on, when more of them arrive, as if they had been
there before. -/
theorem run_append (h : progress.run bytes = (false, next, rest)) (more : Bytes) :
    progress.run (bytes ++ more) = next.run (rest ++ more) := by
  fun_induction run progress bytes with
  | case1 progress bytes after behind hstep => cases h
  | case2 progress bytes ends after behind hstep hends ih =>
    rw [run_of_step_ok ((Parse.Stable.step progress).append hstep more), if_neg hends]
    exact ih h
  | case3 progress bytes hstep => cases h; rfl
  | case4 progress bytes e hstep => cases h

end Progress

namespace Scan

/-- The scan was fed with growing buffers up to this one, and none of them was worth
decoding. -/
inductive Fed : Scan → Bytes → Prop
  | start : Fed .start []
  | grow {scan next : Scan} {seen more : Bytes} (h : Fed scan seen)
      (hmore : scan.advance (seen ++ more) = (false, next)) : Fed next (seen ++ more)

/-- A fresh scan that was not ready resumes as if it were fresh. -/
theorem advance_of_start {next : Scan} {seen : Bytes} (h : start.advance seen = (false, next))
    (more : Bytes) : next.advance (seen ++ more) = start.advance (seen ++ more) := by
  rcases hrun : Progress.start.run seen with ⟨ready, progress, rest⟩
  have hadvance : start.advance seen = (ready, ⟨0 + (seen.length - rest.length), progress⟩) := by
    simp only [advance, start, List.drop_zero, hrun]
  rw [hadvance] at h
  cases h
  obtain ⟨taken, rfl⟩ : rest <:+ seen := by
    have hsuffix := Progress.run_suffix Progress.start seen
    rwa [hrun] at hsuffix
  have hdrop : (taken ++ rest ++ more).drop (0 + ((taken ++ rest).length - rest.length)) =
      rest ++ more := by
    simp
  rcases hmore : progress.run (rest ++ more) with ⟨ready', progress', rest'⟩
  have hshort : rest'.length ≤ (rest ++ more).length := by
    have hsuffix := Progress.run_suffix progress (rest ++ more)
    rw [hmore] at hsuffix
    exact hsuffix.length_le
  simp only [advance, start, hdrop, hmore, List.drop_zero, Progress.run_append hrun more]
  simp only [List.length_append] at hshort ⊢
  congr 2
  omega

/-- A scan that was fed with growing buffers finds what a fresh scan finds. -/
theorem Fed.advance_eq {scan : Scan} {seen : Bytes} (h : Fed scan seen) (more : Bytes) :
    scan.advance (seen ++ more) = Scan.start.advance (seen ++ more) := by
  induction h generalizing more with
  | start => rfl
  | grow h hmore ih =>
    rw [ih] at hmore
    exact advance_of_start hmore more

end Scan

end StoreClient
