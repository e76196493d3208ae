import StoreClient.Proofs.Limits
import Mathlib.Data.List.Forall2

/-!
# What a failed read keeps

A read fails where the response breaks, where it grows too large, and where the stream ends or
fails. In each case the entries that are complete by then are kept, and all else is forgotten.
`Batch.Complete` says of the bytes alone which entries these are. The main statement is
`Reader.failed_read_keeps_complete_entries`; it also says that the reader is a fresh one then.
-/

namespace StoreClient

namespace Batch

/-- The entries are the complete ones of a batch that may be cut short or broken. -/
inductive Complete (bytes : Bytes) : List Entry → Prop where
  /-- The header is incomplete or broken. -/
  | headless {stop : Stop} : Parse.batchHeader bytes = .error stop → Complete bytes []
  /-- The entries stand one after the other behind a header. They are as many as it announces, or
  fewer, and then the next one is incomplete or broken. -/
  | headed {count : Nat} {header rest : Bytes} {parts : List Bytes} {found : List Entry} :
      bytes = header ++ (parts.flatten ++ rest) → Parse.Reads Parse.batchHeader header count →
      List.Forall₂ (fun entry part => Parse.Reads Parse.entry part entry) found parts →
      (found.length = count ∨ found.length < count ∧ ∃ stop, Parse.entry rest = .error stop) →
      Complete bytes found

/-- The entries that are read behind those found so far stand one after the other, up to the last
one or to one that cannot be read. -/
theorem entriesGo_stand (n : Nat) (found : List Entry) (bytes : Bytes) :
    ∃ more parts rest, (entries.go n found bytes).1 = found.reverse ++ more ∧
      bytes = List.flatten parts ++ rest ∧
      List.Forall₂ (fun entry part => Parse.Reads Parse.entry part entry) more parts ∧
      (more.length = n ∨ more.length < n ∧ ∃ stop, Parse.entry rest = .error stop) := by
  induction n generalizing found bytes with
  | zero => exact ⟨[], [], bytes, (List.append_nil _).symm, rfl, .nil, .inl rfl⟩
  | succ n ih =>
    unfold entries.go
    cases hentry : Parse.entry bytes with
    | error stop =>
      exact ⟨[], [], bytes, (List.append_nil _).symm, rfl, .nil,
        .inr ⟨Nat.succ_pos n, stop, hentry⟩⟩
    | ok result =>
      obtain ⟨entry, behind⟩ := result
      obtain ⟨part, rfl, hreads⟩ := Parse.Stable.entry.reads hentry
      obtain ⟨more, parts, rest, hgo, rfl, hstand, hend⟩ := ih (entry :: found) behind
      refine ⟨entry :: more, part :: parts, rest, ?_, ?_, .cons hreads hstand, ?_⟩
      · simpa using hgo
      · simp
      · simpa using hend

/-- Entries that stand in front are read first. -/
theorem entriesGo_of_stand {n : Nat} {more : List Entry} {parts : List Bytes}
    (h : List.Forall₂ (fun entry part => Parse.Reads Parse.entry part entry) more parts)
    (found : List Entry) (rest : Bytes) :
    entries.go (more.length + n) found (parts.flatten ++ rest) =
      entries.go n (more.reverse ++ found) rest := by
  induction h generalizing found with
  | nil => simp
  | @cons entry part more parts hreads _ ih =>
    rw [List.length_cons, Nat.add_right_comm, List.flatten_cons, List.append_assoc]
    conv_lhs => unfold entries.go
    rw [hreads]
    dsimp only
    rw [ih (entry :: found)]
    simp

/-- What is left of some bytes are their complete entries, and nothing else. -/
theorem complete_iff {bytes : Bytes} {found : List Entry} :
    Complete bytes found ↔ found = decodedEntries bytes := by
  constructor
  · intro h
    unfold decodedEntries
    cases h with
    | headless hstop => rw [hstop]
    | @headed count header rest parts _ hbytes hheader hstand hend =>
      rw [hbytes, hheader]
      dsimp only
      rcases hend with hall | ⟨hfewer, stop, hstop⟩
      · have hgo := entriesGo_of_stand hstand (n := 0) [] rest
        rw [Nat.add_zero, hall] at hgo
        simp [entries, hgo, entries.go]
      · obtain ⟨n, rfl⟩ := Nat.exists_eq_add_of_lt hfewer
        have hgo := entriesGo_of_stand hstand (n := n + 1) [] rest
        rw [← Nat.add_assoc] at hgo
        rw [entries, hgo, entries.go, hstop]
        simp
  · rintro rfl
    unfold decodedEntries
    cases hheader : Parse.batchHeader bytes with
    | error stop => exact .headless hheader
    | ok result =>
      obtain ⟨count, behind⟩ := result
      obtain ⟨header, rfl, hreads⟩ := Parse.Stable.batchHeader.reads hheader
      obtain ⟨more, parts, rest, hgo, rfl, hstand, hend⟩ := entriesGo_stand count [] behind
      have hmore : (entries count (parts.flatten ++ rest)).1 = more := hgo
      dsimp only
      rw [hmore]
      exact .headed rfl hreads hstand hend

/-- The entries found so far stay in front. -/
theorem reverse_prefix_entriesGo (n : Nat) (found : List Entry) (bytes : Bytes) :
    found.reverse <+: (entries.go n found bytes).1 := by
  obtain ⟨more, -, -, hgo, -⟩ := entriesGo_stand n found bytes
  rw [hgo]
  exact List.prefix_append _ _

/-- With more bytes, more of the entries are complete. -/
theorem entriesGo_prefix (n : Nat) (found : List Entry) (bytes more : Bytes) :
    (entries.go n found bytes).1 <+: (entries.go n found (bytes ++ more)).1 := by
  induction n generalizing found bytes with
  | zero => exact List.prefix_refl _
  | succ n ih =>
    cases hentry : Parse.entry bytes with
    | error stop =>
      have hstopped : (entries.go (n + 1) found bytes).1 = found.reverse := by
        unfold entries.go
        rw [hentry]
      rw [hstopped]
      exact reverse_prefix_entriesGo _ _ _
    | ok result =>
      unfold entries.go
      rw [hentry, Parse.Stable.entry.append hentry more]
      exact ih (result.1 :: found) result.2

/-- More bytes keep the complete entries and may complete others behind them. -/
theorem decodedEntries_prefix (bytes more : Bytes) :
    decodedEntries bytes <+: decodedEntries (bytes ++ more) := by
  unfold decodedEntries
  cases hheader : Parse.batchHeader bytes with
  | error stop => exact List.nil_prefix
  | ok result =>
    rw [Parse.Stable.batchHeader.append hheader more]
    exact entriesGo_prefix result.1 [] result.2 more

/-- All entries of a batch are complete. -/
theorem decodedEntries_of_complete {bytes : Bytes} {found : List Entry} {size : Nat}
    (h : decode bytes = .complete found size) : decodedEntries bytes = found := by
  unfold decode at h
  unfold decodedEntries
  split at h
  · cases h
  · cases h
  · rename_i hheader
    rw [hheader]
    split at h
    · rename_i hentries
      cases h
      exact congrArg Prod.fst hentries
    · cases h
    · cases h

end Batch

namespace Reader

variable {reader after : Reader} {limit : Nat} {ended : Bool} {arrivals left : List Arrival}
  {failure : FailedRead}

/-- Why a read fails when the reader holds these bytes, and which of the arrivals still to come it
leaves. -/
inductive Fails (limit : Nat) (ended : Bool) (buffer : Bytes) :
    List Arrival → FailedRead → List Arrival → Prop where
  /-- The response breaks. -/
  | broken {later : List Arrival} {failure : FailedRead} :
      Batch.decode buffer = .broken failure → Fails limit ended buffer later failure later
  /-- The response is too large. -/
  | full {later : List Arrival} : limit ≤ buffer.length →
      Fails limit ended buffer later ⟨Batch.decodedEntries buffer, tooLarge limit⟩ later
  /-- Nothing more comes. -/
  | over : ended = true →
      Fails limit ended buffer [] ⟨Batch.decodedEntries buffer, endOfStream⟩ []
  /-- The stream ends. -/
  | closed {later : List Arrival} :
      Fails limit ended buffer (.bytes [] :: later)
        ⟨Batch.decodedEntries buffer, endOfStream⟩ later
  /-- The transport fails. -/
  | lost {kind : IoKind} {later : List Arrival} :
      Fails limit ended buffer (.failure kind :: later)
        ⟨Batch.decodedEntries buffer, readFailure kind⟩ later

/-- Wherever a read fails, it keeps the entries that are complete in the buffer. -/
theorem Fails.entries_eq {buffer : Bytes} (h : Fails limit ended buffer arrivals failure left) :
    failure.entries = Batch.decodedEntries buffer := by
  cases h with
  | broken hbroken =>
    obtain ⟨_, -, rfl⟩ := Batch.decode_eq_broken_iff.mp hbroken
    rfl
  | _ => rfl

/-- A poll that wants more bytes leaves a scan that can be resumed. -/
theorem Resumable.of_poll (h : reader.Resumable) (hpoll : reader.poll = .wanting after) :
    after.Resumable := by
  have hwait {scan : Scan} (hscan : Resumable { reader with scan })
      (hwanting : wait { reader with scan } = .wanting after) : after.Resumable := by
    unfold wait at hwanting
    split at hwanting
    · cases hwanting
    · cases hwanting
      exact hscan
  cases hready : (Scan.start.advance reader.buffer).1 with
  | false =>
    obtain ⟨scan, hunready, hscan⟩ := poll_of_unready h hready
    exact hwait hscan (hunready.symm.trans hpoll)
  | true =>
    unfold poll at hpoll
    rw [h.advance_eq] at hpoll
    split at hpoll
    · rename_i hunready
      rw [hunready] at hready
      cases hready
    · split at hpoll
      · cases hpoll
      · cases hpoll
      · exact hwait (.of_start reader.buffer reader.limit) hpoll

/-- Every read leaves a scan that can be resumed. -/
theorem Resumable.read (h : reader.Resumable) (ended : Bool) (arrivals : List Arrival) :
    (reader.read ended arrivals).reader.Resumable := by
  fun_induction Reader.read reader ended arrivals with
  | case1 arrivals reader entries after hpoll =>
    cases polls_of_poll_eq hpoll
    exact .of_start _ _
  | case2 arrivals reader failure after hpoll =>
    cases polls_of_poll_eq hpoll <;> exact .of_start _ _
  | case3 reader after hpoll => exact .of_start _ _
  | case4 reader after hpoll => exact h.of_poll hpoll
  | case5 reader after hpoll => exact .of_start _ _
  | case6 reader after hpoll => exact .of_start _ _
  | case7 reader after hpoll chunk rest hne ih => exact ih ((h.of_poll hpoll).receive chunk)

/-- Reads in a row take arrivals from the front, and leave a reader of the same limit with a scan
that can be resumed. -/
theorem reads_spec {outcomes : List Outcome} {k : Nat}
    (h : (start limit).reads ended arrivals k = (outcomes, reader, left)) :
    reader.Resumable ∧ reader.limit = limit ∧ ∃ taken, arrivals = taken ++ left := by
  induction k generalizing outcomes reader left with
  | zero =>
    cases h
    exact ⟨.of_start [] limit, rfl, [], rfl⟩
  | succ k ih =>
    rcases hbefore : (start limit).reads ended arrivals k with ⟨earlier, before, behind⟩
    rw [reads_succ hbefore] at h
    cases h
    obtain ⟨hresumable, hlimit, taken, htaken⟩ := ih hbefore
    obtain ⟨more, hmore, -⟩ := read_taken before ended behind
    refine ⟨hresumable.read ended behind, (limit_read before ended behind).trans hlimit,
      taken ++ more, ?_⟩
    rw [List.append_assoc, ← hmore, htaken]

/-- After so many chunks more, without a whole batch in its buffer, the reader fails. -/
def FailsOn (reader : Reader) (ended : Bool) (arrivals : List Arrival) (failure : FailedRead)
    (left : List Arrival) : Prop :=
  ∃ (chunks : List Bytes) (later : List Arrival), arrivals = chunks.map .bytes ++ later ∧
    (∀ found size, Batch.decode (reader.buffer ++ chunks.flatten) ≠ .complete found size) ∧
    Fails reader.limit ended (reader.buffer ++ chunks.flatten) later failure left

/-- A poll that finds no batch may be the last one. -/
theorem FailsOn.of_poll {poll : Poll} (h : reader.Resumable) (hpoll : reader.poll = poll)
    (hnone : ∀ found after, poll ≠ .batch found after)
    (hfails : Fails reader.limit ended reader.buffer arrivals failure left) :
    reader.FailsOn ended arrivals failure left := by
  refine ⟨[], arrivals, rfl, ?_⟩
  rw [List.flatten_nil, List.append_nil]
  refine ⟨fun found size hdecode => ?_, hfails⟩
  exact hnone _ _ (hpoll.symm.trans (poll_of_complete h hdecode))

/-- A read that fails does so after some of the chunks. -/
theorem failsOn_of_read (h : reader.Resumable)
    (hfailed : (reader.read ended arrivals).outcome = .failed failure) :
    reader.FailsOn ended arrivals failure (reader.read ended arrivals).arrivals := by
  fun_induction Reader.read reader ended arrivals with
  | case1 arrivals reader entries after hpoll => cases hfailed
  | case2 arrivals reader failure after hpoll =>
    cases hfailed
    cases polls_of_poll_eq hpoll with
    | broken hbroken => exact .of_poll h hpoll (by simp) (.broken hbroken)
    | full hfull => exact .of_poll h hpoll (by simp) (.full hfull)
  | case3 reader after hpoll hended =>
    cases hfailed
    cases polls_of_poll_eq hpoll
    exact .of_poll h hpoll (by simp) (.over hended)
  | case4 reader after hpoll hended => cases hfailed
  | case5 reader after hpoll rest =>
    cases hfailed
    cases polls_of_poll_eq hpoll
    exact .of_poll h hpoll (by simp) .closed
  | case6 reader after hpoll kind rest =>
    cases hfailed
    cases polls_of_poll_eq hpoll
    exact .of_poll h hpoll (by simp) .lost
  | case7 reader after hpoll chunk rest hne ih =>
    obtain ⟨chunks, later, rfl, hnone, hfails⟩ := ih ((h.of_poll hpoll).receive chunk) hfailed
    cases polls_of_poll_eq hpoll
    rw [List.append_assoc] at hnone hfails
    exact ⟨chunk :: chunks, later, rfl, hnone, hfails⟩

/-- A read that fails leaves a fresh reader. -/
theorem reader_of_failed (hfailed : (reader.read ended arrivals).outcome = .failed failure) :
    (reader.read ended arrivals).reader = start reader.limit := by
  fun_induction Reader.read reader ended arrivals with
  | case1 arrivals reader entries after hpoll => cases hfailed
  | case2 arrivals reader failure after hpoll => cases polls_of_poll_eq hpoll <;> rfl
  | case4 reader after hpoll hended => cases hfailed
  | case3 reader after hpoll | case5 reader after hpoll | case6 reader after hpoll =>
    cases polls_of_poll_eq hpoll
    rfl
  | case7 reader after hpoll chunk rest hne ih =>
    cases polls_of_poll_eq hpoll
    exact ih hfailed

/-- A read that fails keeps exactly the complete entries. However a stream is cut, and whatever
reads came before, the read fails for one of the reasons, with what was not taken by a batch and so
many chunks more in its buffer. No whole batch is there. The entries that come with the error are
the complete ones of the buffer, and the first ones of every batch that it could have grown into.
Nothing stays buffered, and whatever is read then is read as by a fresh reader of the rest of the
stream. -/
theorem failed_read_keeps_complete_entries {outcomes : List Outcome} {k : Nat}
    (hreads : (start limit).reads ended arrivals k = (outcomes, reader, left))
    (hfailed : (reader.read ended left).outcome = .failed failure) :
    (∃ (chunks : List Bytes) (later : List Arrival), left = chunks.map .bytes ++ later ∧
      Fails limit ended (reader.buffer ++ chunks.flatten) later failure
        (reader.read ended left).arrivals ∧
      (∀ found size, Batch.decode (reader.buffer ++ chunks.flatten) ≠ .complete found size) ∧
      (∀ found, Batch.Complete (reader.buffer ++ chunks.flatten) found ↔
        found = failure.entries) ∧
      ∀ more found size,
        Batch.decode (reader.buffer ++ chunks.flatten ++ more) = .complete found size →
        failure.entries <+: found) ∧
    (reader.read ended left).reader.buffer = [] ∧
    ∃ taken, arrivals = taken ++ (reader.read ended left).arrivals ∧
      ∀ n, (reader.read ended left).reader.reads ended (reader.read ended left).arrivals n =
        (start limit).reads ended (arrivals.drop taken.length) n := by
  obtain ⟨hresumable, rfl, taken, rfl⟩ := reads_spec hreads
  obtain ⟨more, hmore, -⟩ := read_taken reader ended left
  have hfresh := reader_of_failed hfailed
  refine ⟨?_, congrArg Reader.buffer hfresh, taken ++ more, ?_, fun n => ?_⟩
  · obtain ⟨chunks, later, hleft, hnone, hfails⟩ := failsOn_of_read hresumable hfailed
    have hentries := hfails.entries_eq
    refine ⟨chunks, later, hleft, hfails, hnone, fun found => ?_, fun more found size hdecode => ?_⟩
    · rw [hentries]
      exact Batch.complete_iff
    · rw [hentries, ← Batch.decodedEntries_of_complete hdecode]
      exact Batch.decodedEntries_prefix _ _
  · rw [List.append_assoc, ← hmore]
  · rw [hfresh]
    conv_rhs => rw [hmore, ← List.append_assoc, List.drop_left]

/-- A response that is reset inside the second of two entries, behind a batch that was read. The
reader keeps the first entry, and reads the next response from its start. -/
theorem failed_read_keeps_complete_entries_reset :
    let arrivals : List Arrival :=
      [.bytes [42, 49, 10, 58, 49, 10, 55, 10, 42, 50, 10, 58], .bytes [49, 10, 56, 10, 58, 49],
        .failure .connectionReset, .bytes [42, 49, 10, 58, 49, 10, 57, 10]]
    let reader : Reader := ⟨[42, 50, 10, 58], .start, 64⟩
    let kept : List Entry := [⟨.scalar .unsigned, .unsigned 8, none⟩]
    (start 64).reads false arrivals 1 =
        ([.batch [⟨.scalar .unsigned, .unsigned 7, none⟩]], reader, arrivals.drop 1) ∧
      (reader.read false (arrivals.drop 1)).outcome =
        .failed ⟨kept, readFailure .connectionReset⟩ ∧
      (∃ (chunks : List Bytes) (later : List Arrival),
        arrivals.drop 1 = chunks.map .bytes ++ later ∧
        ∀ found, Batch.Complete (reader.buffer ++ chunks.flatten) found ↔ found = kept) ∧
      (reader.read false (arrivals.drop 1)).reader.buffer = [] ∧
      ((reader.read false (arrivals.drop 1)).reader.reads false
        (reader.read false (arrivals.drop 1)).arrivals 1).1 =
        [.batch [⟨.scalar .unsigned, .unsigned 9, none⟩]] := by
  intro arrivals reader kept
  have hreads : (start 64).reads false arrivals 1 =
      ([.batch [⟨.scalar .unsigned, .unsigned 7, none⟩]], reader, arrivals.drop 1) := by
    with_unfolding_all rfl
  have hfailed : (reader.read false (arrivals.drop 1)).outcome =
      .failed ⟨kept, readFailure .connectionReset⟩ := by
    with_unfolding_all rfl
  have hleft : (reader.read false (arrivals.drop 1)).arrivals = arrivals.drop 3 := by
    with_unfolding_all rfl
  obtain ⟨⟨chunks, later, hchunks, -, -, hcomplete, -⟩, hbuffer, taken, htaken, hfresh⟩ :=
    failed_read_keeps_complete_entries hreads hfailed
  refine ⟨hreads, hfailed, ⟨chunks, later, hchunks, hcomplete⟩, hbuffer, ?_⟩
  have hlength : taken.length = 3 := by
    rw [hleft] at htaken
    have hsum := congrArg List.length htaken
    rw [List.length_append] at hsum
    exact Nat.add_right_cancel hsum.symm
  rw [hfresh 1, hlength]
  with_unfolding_all rfl

end Reader

end StoreClient
