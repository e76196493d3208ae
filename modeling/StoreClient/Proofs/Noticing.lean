import StoreClient.Connection
import StoreClient.Proofs.Breaking
import StoreClient.Proofs.Streaming

/-!
# When a broken response is noticed

The reader decodes what it has received only once the scan finds it complete or broken, and the
scan checks less than the decoder. `Parse.Spots` says that passing over an item breaks where
reading it breaks the framing; `Progress.Notices` says so of the scan. A response that breaks the
framing is reported at once, as `Reader.read_reports_break` states. Any other break, the packet
error of a server among them, is reported when the scan is through, and may be lost before.
-/

namespace StoreClient

/-- The error shows in the framing, without a look at what a scalar says. -/
def ProtocolError.breaksFraming : ProtocolError → Bool
  | invalidPacket _ | elementTypeMismatch .. | arrayInFlatArray _ => true
  | _ => false

/-- The error shows in the framing, without a look at what a scalar says. -/
def Error.breaksFraming : Error → Bool
  | protocol cause => cause.breaksFraming
  | _ => false

/-- A flaw does not show in the framing. -/
theorem ProtocolError.breaksFraming_eq_false_of_isFlaw {e : ProtocolError} (h : e.isFlaw = true) :
    e.breaksFraming = false := by
  cases e with
  | sizeMismatch | notImplemented | unknownCode | invalidPayload => rfl
  | _ => cases h

namespace Parse

/-- Where reading the item breaks the framing, `skip` breaks as well. -/
def Spots {α β : Type} (skip : Parse β) (item : Parse α) : Prop :=
  ∀ bytes e, item bytes = .error (.broken e) → e.breaksFraming = true →
    ∃ found, skip bytes = .error (.broken found)

/-- The framing stands. -/
def KeepsFraming (e : ProtocolError) : Prop := e.breaksFraming = false

/-- The value of a scalar does not break the framing. -/
theorem Breaks.lineValue_keepsFraming (type : ScalarType) (size : Nat) (text : Bytes) :
    Breaks (Parse.lineValue type size text) KeepsFraming := by
  unfold Parse.lineValue
  split
  · exact pure _
  · split
    · unfold Parse.responseCode
      split
      · dsimp only
        split
        · exact fail rfl
        · exact pure _
        · exact pure _
      · exact pure _
    · split
      · exact pure _
      · exact pure _

namespace Spots

variable {α β γ : Type} {skip : Parse β} {item : Parse α}

/-- What keeps the framing need not be spotted. -/
theorem ofKeeps (skip : Parse β) (h : Breaks item KeepsFraming) : Spots skip item := by
  intro bytes e hbroken hframing
  rw [h bytes e hbroken] at hframing
  cases hframing

/-- Both may start with the same parser. -/
theorem bind {first : Parse γ} {skip : γ → Parse β} {item : γ → Parse α}
    (h : ∀ c, Spots (skip c) (item c)) : Spots (first >>= skip) (first >>= item) := by
  intro bytes e hbroken hframing
  rcases bind_eq_error.mp hbroken with hfirst | ⟨c, behind, hfirst, hitem⟩
  · exact ⟨e, bind_eq_error.mpr (.inl hfirst)⟩
  · obtain ⟨found, hfound⟩ := h c behind e hitem hframing
    exact ⟨found, bind_eq_error.mpr (.inr ⟨c, behind, hfirst, hfound⟩)⟩

/-- The item may be judged after it was read, as long as this keeps the framing. -/
theorem verdict {result : α → Prop} {next : α → Parse γ} (h : Spots skip item)
    (hresult : Ensures item result) (hnext : ∀ a, result a → Breaks (next a) KeepsFraming) :
    Spots skip (item >>= next) := by
  intro bytes e hbroken hframing
  rcases bind_eq_error.mp hbroken with hitem | ⟨a, behind, hitem, hverdict⟩
  · exact h bytes e hitem hframing
  · rw [hnext a (hresult _ _ _ hitem) behind e hverdict] at hframing
    cases hframing

/-- The answer of passing over the item may be changed. -/
theorem answer (b : γ) (h : Spots skip item) : Spots (skip >>= fun _ => Pure.pure b) item := by
  intro bytes e hbroken hframing
  obtain ⟨found, hfound⟩ := h bytes e hbroken hframing
  exact ⟨found, bind_eq_error.mpr (.inl hfound)⟩

/-- What spots an item may be replaced by what comes to the same. -/
theorem ofAlike {other : Parse β} (h : Alike skip other) (hother : Spots other item) :
    Spots skip item := by
  intro bytes e hbroken hframing
  obtain ⟨found, hfound⟩ := hother bytes e hbroken hframing
  exact h.exists_broken hfound

/-- The payload of a scalar: a missing newline is spotted. -/
theorem scalarBody (type : ScalarType) (size : Nat) :
    Spots (Progress.skipBody type size) (Parse.scalarBody type size) := by
  unfold Progress.skipBody Parse.scalarBody
  split
  · exact bind fun bytes => ofKeeps _ (.pure _)
  · exact bind fun text => ofKeeps _ (.lineValue_keepsFraming type size text)

/-- A scalar. -/
theorem scalar (type : ScalarType) : Spots (Progress.skipScalar type) (Parse.scalar type) :=
  bind fun size => scalarBody type size

/-- A scalar inside an array. Its flaw breaks the batch, but not the framing. -/
theorem unflawed {item : Parse Flawed} (h : Spots skip item) (hflaw : Ensures item OnlyFlaw) :
    Spots skip (Parse.unflawed item) := by
  refine h.verdict hflaw fun flawed hlocal => ?_
  obtain ⟨value, flaw⟩ := flawed
  cases flaw with
  | none => exact .pure value
  | some e => exact .fail (ProtocolError.breaksFraming_eq_false_of_isFlaw (hlocal e rfl))

/-- An element of a typed array. A null where none is allowed keeps the framing. -/
theorem typedElement (element : ScalarType) (nonNull : Bool) :
    Spots (Progress.skipTypedElement element) (Parse.typedElement element nonNull) := by
  refine ofAlike (skipTypedElement_alike element) (bind fun size => ?_)
  cases size with
  | none =>
    refine ofKeeps _ ?_
    dsimp only
    split
    · exact .fail rfl
    · exact .pure _
  | some size => exact (scalarBody element size).unflawed (scalarBody_onlyFlaw element size)

/-- An item of a flat array. -/
theorem flatItem (index : Nat) : Spots Progress.skipFlatItem (Parse.flatItem index) := by
  refine bind fun type => ?_
  cases type with
  | scalar type => exact (scalar type).unflawed (scalar_onlyFlaw type)
  | array kind => exact fun _ _ _ _ => ⟨_, rfl⟩

/-- An item without a tag. -/
theorem anyItem : Spots Progress.skipAnyItem Parse.anyItem :=
  bind fun _ => bind fun _ => ofKeeps _ (.pure _)

end Spots

end Parse

namespace Progress

variable {α : Type} {progress : Progress} {stack : List Frame} {bytes behind rest : Bytes}
  {count room : Nat}

/-- A buffer that is worth decoding stays so when more bytes arrive. -/
theorem run_append_of_ready (h : (progress.run bytes).1 = true) (more : Bytes) :
    (progress.run (bytes ++ more)).1 = true := by
  fun_induction run progress bytes with
  | case1 progress bytes after behind hstep =>
    rw [run_of_step_ok ((Parse.Stable.step progress).append hstep more)]
    rfl
  | case2 progress bytes ends after behind hstep hends ih =>
    rw [run_of_step_ok ((Parse.Stable.step progress).append hstep more), if_neg hends]
    exact ih h
  | case3 progress bytes hstep => cases h
  | case4 progress bytes e hstep =>
    rw [run_of_step_broken ((Parse.Stable.step progress).breaks hstep more)]

/-- From here the scan notices where a reader of the next item breaks the framing. -/
def Notices (progress : Progress) (item : Parse α) : Prop :=
  ∀ bytes e, item bytes = .error (.broken e) → e.breaksFraming = true →
    (progress.run bytes).1 = true

/-- A step that breaks is noticed. -/
theorem run_of_skipItem_broken {e : ProtocolError}
    (h : skipItem stack bytes = .error (.broken e)) :
    (run ⟨some count, stack⟩ bytes).1 = true := by
  rw [run_of_step_broken (Parse.bind_eq_error.mpr (.inl h))]

/-- The scan notices what one step spots. -/
theorem Notices.ofSpots {item : Parse α} (h : Parse.Spots (skipItem stack) item) :
    Notices ⟨some count, stack⟩ item := by
  intro bytes e hbroken hframing
  obtain ⟨found, hfound⟩ := h bytes e hbroken hframing
  exact run_of_skipItem_broken hfound

/-- The scan notices a break in any turn of a repetition that it follows. -/
theorem run_repeated_broken (left : Nat → Progress) {item : Nat → Parse α} {found : List α}
    {n turn : Nat} {e : ProtocolError} (hitem : ∀ turn n, Follows (left (n + 1)) (item turn))
    (hnotices : ∀ turn n, Notices (left (n + 1)) (item turn))
    (hmore : ∀ n bytes, (left (n + 2)).afterItem bytes = (left (n + 1)).run bytes)
    (h : Parse.repeated.go item n turn found bytes = .error (.broken e))
    (hframing : e.breaksFraming = true) : ((left n).run bytes).1 = true := by
  induction n generalizing turn found bytes with
  | zero => cases h
  | succ n ih =>
    rcases Parse.bind_eq_error.mp h with hfirst | ⟨a, behind, hfirst, hrest⟩
    · exact hnotices turn n bytes e hfirst hframing
    · cases n with
      | zero => cases hrest
      | succ n =>
        rw [(hitem turn (n + 1)).arrives hfirst, hmore]
        exact ih hrest

/-- The scan notices where a tagged array breaks the framing. The decoder has `room` for so many
levels of arrays. -/
def NoticesArrays (room : Nat) : Prop :=
  ∀ {stack kind bytes behind e}, TakesTagged stack → room + stack.length = maxDepth →
    Parse.itemType bytes = .ok (.array kind, behind) →
    Parse.array room kind behind = .error (.broken e) → e.breaksFraming = true →
    ∀ count, (run ⟨some count, stack⟩ bytes).1 = true

/-- The scan notices where a tagged item breaks the framing. -/
theorem NoticesArrays.tagged (h : NoticesArrays room) (htagged : TakesTagged stack)
    (hdepth : room + stack.length = maxDepth) {item : ItemType → Parse α}
    {f : ArrayKind → Value → α}
    (hscalar : ∀ type, Parse.Spots (skipScalar type) (item (.scalar type)))
    (harray : ∀ kind, item (.array kind) = f kind <$> Parse.array room kind) :
    Notices ⟨some count, stack⟩ (Parse.itemType >>= item) := by
  intro bytes e hbroken hframing
  have hskip {found : ProtocolError}
      (hfound : skipTagged stack.length bytes = .error (.broken found)) :
      (run ⟨some count, stack⟩ bytes).1 = true := run_of_skipItem_broken (htagged ▸ hfound)
  rcases Parse.bind_eq_error.mp hbroken with htype | ⟨type, behind, htype, hitem⟩
  · exact hskip (Parse.bind_eq_error.mpr (.inl htype))
  · cases type with
    | scalar type =>
      obtain ⟨found, hfound⟩ := ((hscalar type).answer none) behind e hitem hframing
      exact hskip (Parse.bind_eq_error.mpr (.inr ⟨_, _, htype, hfound⟩))
    | array kind =>
      rw [harray] at hitem
      exact h htagged hdepth htype (Parse.map_eq_error.mp hitem) hframing count

/-- The scan notices where an item of an array of any shape breaks the framing. -/
theorem NoticesArrays.arrayItem (h : NoticesArrays room)
    (hdepth : room + (stack.length + 1) = maxDepth) (shape : ArrayShape) (index n : Nat) :
    Notices ⟨some count, ⟨shape, n⟩ :: stack⟩ (Parse.arrayItem room shape index) := by
  cases shape with
  | nested =>
    refine h.tagged (.nested n stack) hdepth (f := fun _ => id) ?_ ?_
    · exact fun type => (Parse.Spots.scalar type).unflawed (Parse.scalar_onlyFlaw type)
    · exact fun kind => (id_map _).symm
  | flat => exact .ofSpots ((Parse.Spots.flatItem index).answer none)
  | any => exact .ofSpots (Parse.Spots.anyItem.answer none)
  | typed element nonNull => exact .ofSpots ((Parse.Spots.typedElement element nonNull).answer none)

/-- The scan notices where arrays break the framing, by induction on the room that the decoder
has left. -/
theorem noticesArrays (room : Nat) : NoticesArrays room := by
  induction room with
  | zero =>
    -- The decoder gives up on the depth, which keeps the framing.
    rintro stack kind bytes behind e htagged hdepth htype ⟨⟩ ⟨⟩
  | succ room ih =>
    intro stack kind bytes behind e htagged hdepth htype hbroken hframing count
    rw [Parse.array_succ] at hbroken
    rcases Parse.bind_eq_error.mp hbroken with hheader | ⟨⟨shape, length⟩, inner, hheader, hitems⟩
    · obtain ⟨found, hframe⟩ :=
        (Parse.frameHeader_alike kind).exists_broken (Parse.map_eq_error.mpr hheader)
      refine run_of_skipItem_broken (e := found) ?_
      rw [htagged]
      exact Parse.bind_eq_error.mpr (.inr ⟨_, _, htype, Parse.bind_eq_error.mpr (.inl hframe)⟩)
    · have hskip := skipItem_header htagged (by omega) htype hheader
      have hitems := Parse.map_eq_error.mp hitems
      cases length with
      | zero => cases hitems
      | succ n =>
        rw [run_of_skipItem_some hskip]
        exact run_repeated_broken (fun n => ⟨some count, ⟨shape, n⟩ :: stack⟩)
          (fun turn n => (followsArrays room).arrayItem (by omega) shape turn (n + 1))
          (fun turn n => ih.arrayItem (by omega) shape turn (n + 1)) (afterItem_of_more shape)
          hitems hframing

/-- The scan notices where an entry of a batch breaks the framing. -/
theorem notices_entry (count : Nat) : Notices ⟨some count, []⟩ Parse.entry := by
  have hany (type : ScalarType) : Parse.Ensures (Parse.scalar type) fun _ => True :=
    fun _ _ _ _ => trivial
  refine NoticesArrays.tagged (noticesArrays maxDepth) .nil rfl
    (f := fun kind value => ⟨.array kind, value, none⟩) ?_ fun _ => rfl
  exact fun type => (Parse.Spots.scalar type).verdict (hany type) fun _ _ => .pure _

/-- The scan notices where a batch breaks the framing. -/
theorem run_of_batch_broken {e : ProtocolError} (h : Parse.batch bytes = .error (.broken e))
    (hframing : e.breaksFraming = true) : (start.run bytes).1 = true := by
  rcases Parse.bind_eq_error.mp h with hheader | ⟨count, behind, hheader, hentries⟩
  · rw [run_of_step_broken (Parse.bind_eq_error.mpr (.inl hheader))]
  · have hstep : start.step bytes = .ok ((count = 0, ⟨some count, []⟩), behind) :=
      Parse.bind_eq_ok.mpr ⟨count, behind, hheader, rfl⟩
    rw [run_of_step_ok hstep]
    cases count with
    | zero => cases hentries
    | succ n =>
      rw [if_neg (by simp)]
      exact run_repeated_broken (fun n => ⟨some n, []⟩) (fun _ n => follows_entry (n + 1))
        (fun _ n => notices_entry (n + 1)) afterItem_of_moreEntries hentries hframing

end Progress

namespace Scan

variable {bytes : Bytes} {failure : FailedRead}

/-- A fresh scan notices where a batch breaks the framing. -/
theorem advance_of_broken (h : Batch.decode bytes = .broken failure)
    (hframing : failure.error.breaksFraming = true) : (start.advance bytes).1 = true := by
  obtain ⟨e, hbatch, rfl⟩ := Batch.decode_eq_broken_iff.mp h
  simpa only [advance, start, List.drop_zero] using Progress.run_of_batch_broken hbatch hframing

/-- A buffer that is worth decoding stays so when more bytes arrive. -/
theorem advance_append_of_ready (h : (start.advance bytes).1 = true) (more : Bytes) :
    (start.advance (bytes ++ more)).1 = true := by
  simp only [advance, start, List.drop_zero] at h ⊢
  exact Progress.run_append_of_ready h more

end Scan

namespace Reader

variable {reader : Reader} {failure : FailedRead} {chunks : List Bytes}

/-- What a read may fail with in place of a break that it did not notice: the limit, the end of
the stream, or a failure of the transport. -/
inductive Masks (limit : Nat) : Error → Prop
  | limit : Masks limit (.protocol (.responseTooLarge limit))
  | ended : Masks limit endOfStream
  | failed (kind : IoKind) : Masks limit (readFailure kind)

/-- A read that fails with a break in the buffer keeps the entries in front of the break. -/
theorem abort_of_broken (h : Batch.decode reader.buffer = .broken failure) (e : Error) :
    reader.abort e = ⟨failure.entries, e⟩ := by
  obtain ⟨_, -, rfl⟩ := Batch.decode_eq_broken_iff.mp h
  rfl

/-- A break that is noticed is what the poll fails with. -/
theorem poll_of_broken (h : reader.Resumable)
    (hbroken : Batch.decode reader.buffer = .broken failure)
    (hready : (Scan.start.advance reader.buffer).1 = true) :
    reader.poll = .failed failure reader.reset := by
  unfold poll
  rw [h.advance_eq]
  rcases hadvance : Scan.start.advance reader.buffer with ⟨ready, scan⟩
  rw [hadvance] at hready
  subst hready
  simp only [hbroken]

/-- A break that has arrived and is noticed is what the read fails with, at the latest when all of
the chunks are there. Whatever comes behind them is not looked at. -/
theorem read_of_noticed (ended : Bool) (later : List Arrival) (hreader : reader.Resumable)
    (hchunks : ∀ chunk ∈ chunks, chunk ≠ [])
    (hlimit : ∀ k < chunks.length,
      (reader.buffer ++ (chunks.take k).flatten).length < reader.limit)
    (hbroken : Batch.decode (reader.buffer ++ chunks.flatten) = .broken failure)
    (hready : (Scan.start.advance (reader.buffer ++ chunks.flatten)).1 = true) :
    ∃ taken ≤ chunks.length, reader.read ended (chunks.map .bytes ++ later) =
      ⟨.failed failure, reader.reset, (chunks.drop taken).map .bytes ++ later⟩ := by
  -- On the chunks still to come: the break is noticed in the buffer, or one more is let in.
  induction chunks generalizing reader with
  | nil =>
    rw [List.flatten_nil, List.append_nil] at hbroken hready
    refine ⟨0, le_rfl, ?_⟩
    rw [read, poll_of_broken hreader hbroken hready]
    rfl
  | cons chunk chunks ih =>
    cases hnow : (Scan.start.advance reader.buffer).1 with
    | true =>
      have hfound : Batch.decode reader.buffer ≠ .incomplete := by
        intro hincomplete
        rw [Scan.advance_of_incomplete hincomplete] at hnow
        cases hnow
      rw [Batch.decode_append hfound] at hbroken
      refine ⟨0, Nat.zero_le _, ?_⟩
      rw [read, poll_of_broken hreader hbroken hnow]
      rfl
    | false =>
      have hbelow : reader.buffer.length < reader.limit := by simpa using hlimit 0 (by simp)
      obtain ⟨scan, hpoll, hscan⟩ := poll_of_unready hreader hnow
      have hwanting := hpoll.trans (wait_of_lt hbelow)
      obtain ⟨taken, htaken, hread⟩ := ih (hscan.receive chunk)
        (fun c hc => hchunks c (List.mem_cons_of_mem _ hc))
        (fun k hk => by simpa using hlimit (k + 1) (by simpa using hk))
        (by simpa using hbroken) (by simpa using hready)
      refine ⟨taken + 1, by simpa using htaken, ?_⟩
      obtain ⟨b, bytes, rfl⟩ := List.exists_cons_of_ne_nil (hchunks chunk List.mem_cons_self)
      rw [List.map_cons, List.cons_append, read, hwanting]
      exact hread

/-- As long as the scan is not through, the read takes one chunk after the other. -/
theorem read_of_unnoticed (ended : Bool) (later : List Arrival) (hreader : reader.Resumable)
    (hchunks : ∀ chunk ∈ chunks, chunk ≠ [])
    (hlimit : ∀ k < chunks.length,
      (reader.buffer ++ (chunks.take k).flatten).length < reader.limit)
    (hunready : (Scan.start.advance (reader.buffer ++ chunks.flatten)).1 = false) :
    ∃ scan, Resumable ⟨reader.buffer ++ chunks.flatten, scan, reader.limit⟩ ∧
      reader.read ended (chunks.map .bytes ++ later) =
        read ⟨reader.buffer ++ chunks.flatten, scan, reader.limit⟩ ended later := by
  induction chunks generalizing reader with
  | nil =>
    refine ⟨reader.scan, ?_, ?_⟩
    · rwa [List.flatten_nil, List.append_nil]
    · rw [List.flatten_nil, List.append_nil]
      rfl
  | cons chunk chunks ih =>
    have hnow : (Scan.start.advance reader.buffer).1 = false := by
      rw [← Bool.not_eq_true]
      intro hready
      rw [Scan.advance_append_of_ready hready] at hunready
      cases hunready
    have hbelow : reader.buffer.length < reader.limit := by simpa using hlimit 0 (by simp)
    obtain ⟨scan, hpoll, hscan⟩ := poll_of_unready hreader hnow
    have hwanting := hpoll.trans (wait_of_lt hbelow)
    obtain ⟨last, hlast, hread⟩ := ih (hscan.receive chunk)
      (fun c hc => hchunks c (List.mem_cons_of_mem _ hc))
      (fun k hk => by simpa using hlimit (k + 1) (by simpa using hk))
      (by simpa using hunready)
    refine ⟨last, by simpa using hlast, ?_⟩
    obtain ⟨b, bytes, rfl⟩ := List.exists_cons_of_ne_nil (hchunks chunk List.mem_cons_self)
    rw [List.map_cons, List.cons_append, read, hwanting]
    simpa using hread

/-- Below the limit, with nothing more to come, a read whose scan is not through fails with the end
of the stream, or waits. -/
theorem outcome_of_unready (ended : Bool) (hreader : reader.Resumable)
    (hunready : (Scan.start.advance reader.buffer).1 = false)
    (hbelow : reader.buffer.length < reader.limit) :
    (reader.read ended []).outcome =
      if ended then .failed (reader.abort endOfStream) else .stalled := by
  obtain ⟨scan, hpoll, -⟩ := poll_of_unready hreader hunready
  have hwanting := hpoll.trans (wait_of_lt hbelow)
  rw [read, hwanting]
  cases ended with
  | true => rfl
  | false => rfl

/-- A break that has arrived and is not noticed is masked by the end of the stream. -/
theorem outcome_of_unnoticed (ended : Bool) (hreader : reader.Resumable)
    (hchunks : ∀ chunk ∈ chunks, chunk ≠ [])
    (hlimit : ∀ k < chunks.length,
      (reader.buffer ++ (chunks.take k).flatten).length < reader.limit)
    (hbroken : Batch.decode (reader.buffer ++ chunks.flatten) = .broken failure)
    (hunready : (Scan.start.advance (reader.buffer ++ chunks.flatten)).1 = false)
    (hbelow : (reader.buffer ++ chunks.flatten).length < reader.limit) :
    (reader.read ended (chunks.map .bytes)).outcome =
      if ended then .failed ⟨failure.entries, endOfStream⟩ else .stalled := by
  obtain ⟨scan, hscan, hread⟩ := read_of_unnoticed ended [] hreader hchunks hlimit hunready
  rw [List.append_nil] at hread
  rw [hread, outcome_of_unready ended hscan hunready hbelow, abort_of_broken hbroken]

/-- With a break in the buffer a poll does not find a batch. If it fails, the entries in front of
the break come with the error. -/
theorem poll_cases_of_broken (hreader : reader.Resumable)
    (hbroken : Batch.decode reader.buffer = .broken failure) :
    (∃ e, reader.poll = .failed ⟨failure.entries, e⟩ reader.reset ∧
      (e = failure.error ∨ Masks reader.limit e)) ∨
    ∃ scan, reader.poll = .wanting { reader with scan } ∧ Resumable { reader with scan } := by
  cases hnow : (Scan.start.advance reader.buffer).1 with
  | true => exact .inl ⟨failure.error, poll_of_broken hreader hbroken hnow, .inl rfl⟩
  | false =>
    obtain ⟨scan, hpoll, hscan⟩ := poll_of_unready hreader hnow
    by_cases hbelow : reader.buffer.length < reader.limit
    · exact .inr ⟨scan, hpoll.trans (wait_of_lt hbelow), hscan⟩
    · refine .inl ⟨_, ?_, .inr .limit⟩
      rw [hpoll, wait, if_pos (Nat.not_lt.mp hbelow)]
      exact congrArg (Poll.failed · reader.reset) (abort_of_broken hbroken _)

/-- With a break in the buffer no read returns a batch. If it fails, the entries in front of the
break come with the error, which is that of the break or one that masks it. -/
theorem outcome_of_broken (ended : Bool) (arrivals : List Arrival) (hreader : reader.Resumable)
    (hbroken : Batch.decode reader.buffer = .broken failure) :
    (reader.read ended arrivals).outcome = .stalled ∨
      ∃ e, (reader.read ended arrivals).outcome = .failed ⟨failure.entries, e⟩ ∧
        (e = failure.error ∨ Masks reader.limit e) := by
  induction arrivals generalizing reader with
  | nil =>
    obtain ⟨e, hpoll, he⟩ | ⟨scan, hpoll, hscan⟩ := poll_cases_of_broken hreader hbroken
    · rw [read, hpoll]
      exact .inr ⟨e, rfl, he⟩
    · rw [read, hpoll]
      cases ended with
      | true =>
        have habort : abort { reader with scan } endOfStream = ⟨failure.entries, endOfStream⟩ :=
          abort_of_broken hbroken endOfStream
        exact .inr ⟨endOfStream, congrArg Outcome.failed habort, .inr .ended⟩
      | false => exact .inl rfl
  | cons arrival later ih =>
    obtain ⟨e, hpoll, he⟩ | ⟨scan, hpoll, hscan⟩ := poll_cases_of_broken hreader hbroken
    · rw [read, hpoll]
      exact .inr ⟨e, rfl, he⟩
    · have habort (e : Error) : abort { reader with scan } e = ⟨failure.entries, e⟩ :=
        abort_of_broken hbroken e
      rw [read, hpoll]
      rcases arrival with (_ | ⟨b, chunk⟩) | kind
      · exact .inr ⟨endOfStream, congrArg Outcome.failed (habort _), .inr .ended⟩
      · have hmore : Batch.decode (reader.buffer ++ b :: chunk) = .broken failure := by
          rw [← hbroken]
          exact Batch.decode_append (by rw [hbroken]; simp) (b :: chunk)
        exact ih (hscan.receive (b :: chunk)) hmore
      · exact .inr ⟨readFailure kind, congrArg Outcome.failed (habort _), .inr (.failed kind)⟩

/-- A response that breaks the framing is reported as what it is, as soon as the break is there:
the scan is through then, so the read fails with that very break whatever comes next. The same
holds of any other break for which the scan is through. As long as it is not, the break is masked
by what happens to the stream: with nothing more to come the read fails with the end of the stream,
or waits. The entries in front of the break are the right ones in either case. -/
theorem read_reports_break (ended : Bool) (later : List Arrival) (hreader : reader.Resumable)
    (hchunks : ∀ chunk ∈ chunks, chunk ≠ [])
    (hlimit : ∀ k < chunks.length,
      (reader.buffer ++ (chunks.take k).flatten).length < reader.limit)
    (hbroken : Batch.decode (reader.buffer ++ chunks.flatten) = .broken failure) :
    (failure.error.breaksFraming = true →
      (Scan.start.advance (reader.buffer ++ chunks.flatten)).1 = true) ∧
    ((Scan.start.advance (reader.buffer ++ chunks.flatten)).1 = true →
      ∃ taken ≤ chunks.length, reader.read ended (chunks.map .bytes ++ later) =
        ⟨.failed failure, reader.reset, (chunks.drop taken).map .bytes ++ later⟩) ∧
    ((Scan.start.advance (reader.buffer ++ chunks.flatten)).1 = false →
      (reader.buffer ++ chunks.flatten).length < reader.limit →
      (reader.read true (chunks.map .bytes)).outcome =
          .failed ⟨failure.entries, endOfStream⟩ ∧
        (reader.read false (chunks.map .bytes)).outcome = .stalled) ∧
    ((reader.read ended (chunks.map .bytes ++ later)).outcome = .stalled ∨
      ∃ e, (reader.read ended (chunks.map .bytes ++ later)).outcome =
          .failed ⟨failure.entries, e⟩ ∧
        (e = failure.error ∨ Masks reader.limit e)) := by
  refine ⟨Scan.advance_of_broken hbroken,
    read_of_noticed ended later hreader hchunks hlimit hbroken, fun hunready hbelow => ?_, ?_⟩
  · have houtcome (ended : Bool) :=
      outcome_of_unnoticed ended hreader hchunks hlimit hbroken hunready hbelow
    exact ⟨houtcome true, houtcome false⟩
  · cases hnow : (Scan.start.advance (reader.buffer ++ chunks.flatten)).1 with
    | true =>
      obtain ⟨taken, -, hread⟩ := read_of_noticed ended later hreader hchunks hlimit hbroken hnow
      rw [hread]
      exact .inr ⟨failure.error, rfl, .inl rfl⟩
    | false =>
      obtain ⟨scan, hscan, hread⟩ := read_of_unnoticed ended later hreader hchunks hlimit hnow
      rw [hread]
      exact outcome_of_broken ended later hscan hbroken

/-- The start of a batch of three entries: a number, and then an array of numbers that starts
with a text. -/
def wrongElement : List Bytes := [[42, 51, 10, 58, 49], [10, 55, 10, 64, 58, 49], [10, 43, 49, 10]]

/-- The text is reported before the stream fails, and the number comes with it. -/
theorem read_reports_break_wrongElement :
    let failure : FailedRead := ⟨[⟨.scalar .unsigned, .unsigned 7, none⟩],
      .protocol (.elementTypeMismatch .unsigned .string)⟩
    (start 64).Resumable ∧ (∀ chunk ∈ wrongElement, chunk ≠ []) ∧
      (∀ k < wrongElement.length, ([] ++ (wrongElement.take k).flatten).length < 64) ∧
      Batch.decode ([] ++ wrongElement.flatten) = .broken failure ∧
      ∃ taken ≤ wrongElement.length,
        (start 64).read false (wrongElement.map .bytes ++ [.failure .connectionReset]) =
          ⟨.failed failure, start 64,
            (wrongElement.drop taken).map .bytes ++ [.failure .connectionReset]⟩ := by
  intro failure
  have hresumable : (start 64).Resumable := .of_start [] 64
  have hchunks : ∀ chunk ∈ wrongElement, chunk ≠ [] := by decide
  have hlimit : ∀ k < wrongElement.length, ([] ++ (wrongElement.take k).flatten).length < 64 := by
    decide
  have hbroken : Batch.decode ([] ++ wrongElement.flatten) = .broken failure := by rfl
  obtain ⟨hnoticed, hreports, -⟩ := read_reports_break false [.failure .connectionReset]
    hresumable hchunks hlimit hbroken
  exact ⟨hresumable, hchunks, hlimit, hbroken, hreports (hnoticed rfl)⟩

/-- A packet error, where a batch of two entries was to come. -/
def packetError : Bytes := [42, 50, 10, 33, 49, 10, 52, 10]

/-- An open connection to a server that answers with the packet error and closes the stream. -/
def deniedLine : Line :=
  ⟨.start (.ofAddress "127.0.0.1:2003") ⟨0, [.sending packetError true], [], false⟩, .ofDials []⟩

/-- Not every fatal break is reported: the packet error of a server that closes the stream is
masked by the end of the stream, for the reader and for the packet that was sent. -/
theorem not_read_reports_fatal :
    Batch.decode packetError = .broken ⟨[], .protocol .packetError⟩ ∧
    (¬ ∀ (limit : Nat) (chunks : List Bytes) (ended : Bool) (later : List Arrival)
      (failure : FailedRead), (∀ chunk ∈ chunks, chunk ≠ []) →
      (∀ k < chunks.length, (chunks.take k).flatten.length < limit) →
      Batch.decode chunks.flatten = .broken failure → failure.error.isFatal = true →
      ∃ taken ≤ chunks.length, (start limit).read ended (chunks.map .bytes ++ later) =
        ⟨.failed failure, start limit, (chunks.drop taken).map .bytes ++ later⟩) ∧
    ∃ after, Connection.send [.heya none, .heya none] false deniedLine =
      (.error (.failed endOfStream), after) := by
  have hbroken : Batch.decode packetError = .broken ⟨[], .protocol .packetError⟩ := by rfl
  refine ⟨hbroken, fun hall => ?_, ?_⟩
  · have hchunks : ∀ chunk ∈ [packetError], chunk ≠ [] := by decide
    have hunready : (Scan.start.advance packetError).1 = false := by decide +kernel
    have hmasked := outcome_of_unnoticed true (.of_start [] 16) hchunks (by decide) hbroken
      hunready (by decide)
    obtain ⟨taken, -, hread⟩ := hall 16 [packetError] true [] _ hchunks (by decide) hbroken rfl
    cases hmasked.symm.trans (congrArg Step.outcome hread)
  · have hhalt : (match Connection.send [.heya none, .heya none] false deniedLine with
        | (.error halt, _) => some halt
        | (.ok _, _) => none) = some (.failed endOfStream) := by
      decide +kernel
    cases hsend : Connection.send [.heya none, .heya none] false deniedLine with
    | mk result after =>
      rw [hsend] at hhalt
      cases result with
      | ok entries => cases hhalt
      | error halt =>
        cases hhalt
        exact ⟨after, rfl⟩

end Reader

end StoreClient
