import StoreClient.Proofs.Breaking
import StoreClient.Proofs.Calls
import StoreClient.Proofs.Sessions

/-!
# How grave errors are

An error that stays with an entry is never fatal, and one that breaks a batch is fatal, with one
exception: inside an array the flaw of a scalar breaks the batch and keeps its own error. This
file proves that these flaws are the only errors which close a connection without being fatal.
-/

namespace StoreClient

/-- A flaw is not fatal. -/
theorem Error.isFatal_eq_false_of_isFlaw {e : Error} (h : e.isFlaw = true) : e.isFatal = false := by
  cases e with
  | protocol cause => exact ProtocolError.isFatal_eq_false_of_isFlaw h
  | _ => cases h

namespace Parse

/-- What is wrong with an entry is a flaw. -/
theorem entry_onlyFlaw :
    Ensures entry fun entry => ∀ e, entry.error = some e → e.isFlaw = true := by
  refine .behind fun declared => ?_
  cases declared with
  | scalar type =>
    refine (scalar_onlyFlaw type).bind fun flawed hflawed => .pure fun e he => ?_
    obtain ⟨cause, hcause, rfl⟩ := Option.map_eq_some_iff.mp he
    exact hflawed cause hcause
  | array kind => exact .behind fun value => .pure nofun

/-- An array among the bytes breaks with a flaw, which has nothing to stay with. -/
def BreaksInArray (bytes : Bytes) (e : ProtocolError) : Prop :=
  ∃ front kind behind, bytes = front ++ kind.tag :: behind ∧
    array maxDepth kind behind = .error (.broken e) ∧ e.isFlaw = true

/-- The parser breaks with a fatal error, or with the flaw of an array. -/
def BreaksGraded {α : Type} (parser : Parse α) : Prop :=
  ∀ bytes e, parser bytes = .error (.broken e) → e.isFatal = true ∨ BreaksInArray bytes e

/-- An array that stands behind other bytes. -/
theorem BreaksInArray.behind {bytes : Bytes} {e : ProtocolError} (h : BreaksInArray bytes e)
    (taken : Bytes) : BreaksInArray (taken ++ bytes) e := by
  obtain ⟨front, kind, behind, rfl, hflaw⟩ := h
  exact ⟨taken ++ front, kind, behind, by rw [List.append_assoc], hflaw⟩

/-- The flaw of an array is not fatal. -/
theorem BreaksInArray.not_isFatal {bytes : Bytes} {e : ProtocolError} (h : BreaksInArray bytes e) :
    ¬ e.isFatal = true := by
  obtain ⟨-, -, -, -, -, hflaw⟩ := h
  rw [ProtocolError.isFatal_eq_false_of_isFlaw hflaw]
  decide

namespace BreaksGraded

variable {α β : Type} {parser : Parse α}

/-- A parser that knows fatal errors only. -/
theorem ofGrave (h : Breaks parser IsGrave) : BreaksGraded parser :=
  fun bytes e hbroken => .inl (h bytes e hbroken)

/-- Two parsers in a row. The second one starts behind the bytes that the first one took. -/
theorem bind {next : α → Parse β} (h : BreaksGraded parser) (hstable : Stable parser)
    (hnext : ∀ a, BreaksGraded (next a)) : BreaksGraded (parser >>= next) := by
  intro bytes e hbroken
  rcases bind_eq_error.mp hbroken with hfirst | ⟨a, behind, hfirst, hsecond⟩
  · exact h bytes e hfirst
  · obtain ⟨taken, rfl, -⟩ := hstable.reads hfirst
    exact (hnext a behind e hsecond).imp_right fun harray => harray.behind taken

/-- An entry breaks in its array, if it is one. -/
theorem entry : BreaksGraded Parse.entry := by
  intro bytes e hbroken
  rcases bind_eq_error.mp hbroken with htype | ⟨type, behind, htype, hvalue⟩
  · exact .inl (Breaks.itemType bytes e htype)
  · cases type with
    | scalar type => exact .inl (((Breaks.scalar type).bind fun _ => .pure _) behind e hvalue)
    | array kind =>
      have harray : array maxDepth kind behind = .error (.broken e) := by
        rcases bind_eq_error.mp hvalue with harray | ⟨_, _, _, hpure⟩
        · exact harray
        · cases hpure
      have hbytes : bytes = kind.tag :: behind := itemType_eq_ok htype
      rcases Breaks.array maxDepth kind behind e harray with hfatal | hflaw
      · exact .inl hfatal
      · exact .inr ⟨[], kind, behind, hbytes, harray, hflaw⟩

/-- The entries of a batch that are still to come. -/
theorem repeatedGo_entry (n turn : Nat) (found : List Entry) :
    BreaksGraded (repeated.go (fun _ => Parse.entry) n turn found) := by
  induction n generalizing turn found with
  | zero => exact ofGrave (.pure _)
  | succ n ih => exact entry.bind .entry fun entry => ih (turn + 1) (entry :: found)

/-- A batch. -/
theorem batch : BreaksGraded Parse.batch :=
  (ofGrave .batchHeader).bind .batchHeader fun count => repeatedGo_entry count 0 []

end BreaksGraded

end Parse

namespace Batch

/-- What is wrong with an entry of a complete batch is a flaw. -/
theorem isFlaw_of_decode {bytes : Bytes} {found : List Entry} {size : Nat}
    (h : decode bytes = .complete found size) :
    ∀ entry ∈ found, ∀ e, entry.error = some e → e.isFlaw = true :=
  forall_of_decode Parse.entry_onlyFlaw h

/-- What breaks a batch is fatal, or the flaw of an array in it. -/
theorem grade_of_decode {bytes : Bytes} {failure : FailedRead}
    (h : decode bytes = .broken failure) :
    failure.error.isFatal = true ∨
      ∃ e, Parse.BreaksInArray bytes e ∧ failure.error = .protocol e := by
  obtain ⟨e, hbatch, rfl⟩ := decode_eq_broken_iff.mp h
  exact (Parse.BreaksGraded.batch bytes e hbatch).imp_right fun harray => ⟨e, harray, rfl⟩

end Batch

namespace Reader

/-- A poll fails with a fatal error, or with the flaw of an array in the buffer. -/
theorem grade_of_poll {reader after : Reader} {failure : FailedRead}
    (h : reader.poll = .failed failure after) :
    failure.error.isFatal = true ∨
      ∃ e, Parse.BreaksInArray reader.buffer e ∧ failure.error = .protocol e := by
  cases polls_of_poll_eq h with
  | broken hbroken => exact Batch.grade_of_decode hbroken
  | full => exact .inl rfl

/-- A read fails with a fatal error, or with the flaw of an array in the bytes that arrived. -/
theorem grade_of_read (reader : Reader) (ended : Bool) (arrivals : List Arrival)
    {failure : FailedRead} (h : (reader.read ended arrivals).outcome = .failed failure) :
    failure.error.isFatal = true ∨
      ∃ (chunks : List Bytes) (e : ProtocolError), chunks.map .bytes <+: arrivals ∧
        Parse.BreaksInArray (reader.buffer ++ chunks.flatten) e ∧ failure.error = .protocol e := by
  fun_induction read reader ended arrivals with
  | case1 arrivals reader entries after hpoll => cases h
  | case2 arrivals reader failure after hpoll =>
    cases h
    refine (grade_of_poll hpoll).imp_right ?_
    rintro ⟨e, harray, he⟩
    exact ⟨[], e, List.nil_prefix, by simpa using harray, he⟩
  | case3 reader after hpoll hended =>
    cases h
    exact .inl rfl
  | case4 reader after hpoll hended => cases h
  | case5 reader after hpoll rest =>
    cases h
    exact .inl rfl
  | case6 reader after hpoll kind rest =>
    cases h
    exact .inl rfl
  | case7 reader after hpoll chunk rest hne ih =>
    refine (ih h).imp_right ?_
    rintro ⟨chunks, e, hprefix, harray, he⟩
    refine ⟨chunk :: chunks, e, List.prefix_cons_inj _ |>.mpr hprefix, ?_, he⟩
    rw [List.flatten_cons, ← List.append_assoc, ← buffer_of_poll hpoll]
    exact harray

end Reader

namespace Connection

/-- An exchange on an open connection that fails closes it exactly if the error is fatal or a
flaw. Without either nothing was sent. -/
theorem isClosed_iff_of_exchange {actions : List Action} {line after : Line} {stream : Stream}
    {e : Error} (hstream : line.conn.stream = some stream)
    (h : exchange actions line = (.error (.failed e), after)) :
    after.conn.isClosed = true ↔ e.isFatal = true ∨ e.isFlaw = true := by
  unfold exchange at h
  split at h
  · cases h
    simp [isClosed, hstream, Error.isFatal, Error.isClosed, Error.isFlaw]
  · rw [hstream] at h
    dsimp only at h
    split at h
    · cases h
      exact iff_of_true rfl (.inl rfl)
    · rename_i written hwrite
      split at h
      · cases h
      · rename_i failed hanswered
        cases h
        refine iff_of_true rfl ?_
        cases houtcome : (line.conn.reader.read written.ended written.inbound).outcome with
        | batch entries =>
          rw [houtcome, answered] at hanswered
          split at hanswered
          · cases hanswered
          · cases hanswered
            exact .inl rfl
        | failed failure =>
          rw [houtcome, answered] at hanswered
          cases hanswered
          refine (Reader.grade_of_read _ _ _ houtcome).imp_right ?_
          rintro ⟨chunks, cause, -, ⟨-, -, -, -, -, hflaw⟩, he⟩
          rw [he]
          exact hflaw
        | stalled =>
          rw [houtcome] at hanswered
          cases hanswered
      · cases h

/-- Sending a packet that has actions on an open connection is an exchange. -/
theorem send_eq_exchange {actions : List Action} {line : Line} {stream : Stream}
    (hstream : line.conn.stream = some stream) (hactions : actions ≠ []) :
    send actions false line = exchange actions ⟨line.conn.noteAbandoned, line.net⟩ := by
  have hempty : actions.isEmpty = false := by simpa using hactions
  have hopen : line.conn.noteAbandoned.isClosed = false := by
    unfold noteAbandoned isClosed
    split <;> simp [hstream]
  unfold send
  simp only [hempty, Bool.false_eq_true, if_false, Call.bind_run]
  change (if line.conn.noteAbandoned.isClosed = true then _ else exchange actions) _ = _
  rw [hopen]
  rfl

/-- A packet that fails on an open connection closes it exactly if the error is fatal or a
flaw. -/
theorem isClosed_iff_of_send {actions : List Action} {line after : Line} {stream : Stream}
    {e : Error} (hstream : line.conn.stream = some stream) (hactions : actions ≠ [])
    (h : send actions false line = (.error (.failed e), after)) :
    after.conn.isClosed = true ↔ e.isFatal = true ∨ e.isFlaw = true := by
  rw [send_eq_exchange hstream hactions] at h
  have hnoted : line.conn.noteAbandoned.stream = some stream := by
    unfold noteAbandoned
    split <;> exact hstream
  exact isClosed_iff_of_exchange hnoted h

/-- What is wrong with an entry of a complete batch is not fatal. What makes the decoder or a
read of a stream give up is fatal unless it is the flaw of an array. So a packet that fails on an
open connection closes it exactly if the error is fatal or such a flaw, which is not fatal. -/
theorem closes_on_fatal_or_flaw (bytes : Bytes) (reader : Reader) (ended : Bool)
    (arrivals : List Arrival) (actions : List Action) (line : Line) :
    (∀ found size, Batch.decode bytes = .complete found size →
      ∀ entry ∈ found, ∀ e, entry.error = some e → e.isFatal = false) ∧
    (∀ failure, Batch.decode bytes = .broken failure →
      (failure.error.isFatal = true ↔
        ¬ ∃ e, Parse.BreaksInArray bytes e ∧ failure.error = .protocol e)) ∧
    (∀ failure, (reader.read ended arrivals).outcome = .failed failure →
      (failure.error.isFatal = true ↔
        ¬ ∃ (chunks : List Bytes) (e : ProtocolError), chunks.map .bytes <+: arrivals ∧
          Parse.BreaksInArray (reader.buffer ++ chunks.flatten) e ∧
          failure.error = .protocol e)) ∧
    ∀ stream e after, line.conn.stream = some stream → actions ≠ [] →
      send actions false line = (.error (.failed e), after) →
      (after.conn.isClosed = true ↔ e.isFatal = true ∨ e.isFlaw = true) ∧
        (e.isFlaw = true → e.isFatal = false) := by
  refine ⟨?_, fun failure hdecode => ?_, fun failure hread => ?_, ?_⟩
  · intro found size hdecode entry hmem e he
    exact Error.isFatal_eq_false_of_isFlaw (Batch.isFlaw_of_decode hdecode entry hmem e he)
  · refine ⟨?_, (Batch.grade_of_decode hdecode).resolve_right⟩
    rintro hfatal ⟨e, harray, he⟩
    rw [he] at hfatal
    exact harray.not_isFatal hfatal
  · refine ⟨?_, (reader.grade_of_read ended arrivals hread).resolve_right⟩
    rintro hfatal ⟨chunks, e, -, harray, he⟩
    rw [he] at hfatal
    exact harray.not_isFatal hfatal
  · intro stream e after hstream hactions hsend
    exact ⟨isClosed_iff_of_send hstream hactions hsend, Error.isFatal_eq_false_of_isFlaw⟩

/-- A batch of one number, the size of which is wrong. -/
def flawedNumber : Bytes := [42, 49, 10, 58, 50, 10, 55, 10]

/-- A batch of one array, which holds that number. -/
def flawedArray : Bytes := [42, 49, 10, 38, 49, 10, 58, 50, 10, 55, 10]

/-- An open connection to a server that answers with the array. -/
def flawedLine : Line :=
  ⟨start (.ofAddress "127.0.0.1:2003") ⟨0, [.sending flawedArray false], [], false⟩, .ofDials []⟩

/-- The packet fails with the flaw of the number. -/
theorem send_flawedLine : ∃ after,
    send [.heya none] false flawedLine =
      (.error (.failed (.protocol (.sizeMismatch 2 1))), after) := by
  have hhalt : (match send [.heya none] false flawedLine with
      | (.error halt, _) => some halt
      | (.ok _, _) => none) = some (.failed (.protocol (.sizeMismatch 2 1))) := by
    decide +kernel
  cases hsend : send [.heya none] false flawedLine with
  | mk result after =>
    rw [hsend] at hhalt
    cases result with
    | ok entries => cases hhalt
    | error halt =>
      cases hhalt
      exact ⟨after, rfl⟩

/-- On its own the number is an entry with an error. In the array it breaks the batch with the
same error, and closes the connection. -/
theorem closes_on_fatal_or_flaw_array :
    Batch.decode flawedNumber =
      .complete [⟨.scalar .unsigned, .unsigned 7, some (.protocol (.sizeMismatch 2 1))⟩] 8 ∧
    Batch.decode flawedArray = .broken ⟨[], .protocol (.sizeMismatch 2 1)⟩ ∧
    (Error.protocol (.sizeMismatch 2 1)).isFatal = false ∧
    Parse.BreaksInArray flawedArray (.sizeMismatch 2 1) ∧
    ∃ after, send [.heya none] false flawedLine =
      (.error (.failed (.protocol (.sizeMismatch 2 1))), after) ∧ after.conn.isClosed = true := by
  have hnumber : Batch.decode flawedNumber =
      .complete [⟨.scalar .unsigned, .unsigned 7, some (.protocol (.sizeMismatch 2 1))⟩] 8 := by rfl
  have harray : Batch.decode flawedArray = .broken ⟨[], .protocol (.sizeMismatch 2 1)⟩ := by rfl
  have hnotFatal : (Error.protocol (.sizeMismatch 2 1)).isFatal = false :=
    (closes_on_fatal_or_flaw flawedNumber (.start 0) true [] [] flawedLine).1 _ _ hnumber _
      (List.mem_singleton.mpr rfl) _ rfl
  obtain ⟨-, hbreaks, -, hcloses⟩ :=
    closes_on_fatal_or_flaw flawedArray (.start 0) true [] [.heya none] flawedLine
  refine ⟨hnumber, harray, hnotFatal, ?_, ?_⟩
  · by_contra hnone
    have hfatal := (hbreaks _ harray).mpr fun ⟨e, hinside, he⟩ => by
      cases he
      exact hnone hinside
    cases hfatal
  · obtain ⟨after, hsend⟩ := send_flawedLine
    have hclosed := (hcloses _ _ _ rfl (List.cons_ne_nil _ _) hsend).1
    exact ⟨after, hsend, hclosed.mpr (.inr rfl)⟩

/-- Not every error that breaks a batch is fatal, and an error may close the connection without
being fatal. -/
theorem not_closes_on_fatal_only :
    (¬ ∀ bytes failure, Batch.decode bytes = .broken failure → failure.error.isFatal = true) ∧
    ¬ ∀ actions line stream e after, line.conn.stream = some stream → actions ≠ [] →
      send actions false line = (.error (.failed e), after) →
      (after.conn.isClosed = true ↔ e.isFatal = true) := by
  constructor
  · intro hfatal
    have harray : Batch.decode flawedArray = .broken ⟨[], .protocol (.sizeMismatch 2 1)⟩ := by rfl
    cases hfatal _ _ harray
  · intro hcloses
    obtain ⟨after, hsend⟩ := send_flawedLine
    have hclosed := (isClosed_iff_of_send rfl (List.cons_ne_nil _ _) hsend).mpr (.inr rfl)
    cases (hcloses _ _ _ _ _ rfl (List.cons_ne_nil _ _) hsend).mp hclosed

end Connection

end StoreClient
