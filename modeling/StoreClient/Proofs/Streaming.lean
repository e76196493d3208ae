import StoreClient.Reader
import StoreClient.Proofs.Agreement
import StoreClient.Proofs.Prefixes

/-!
# Reading a stream in pieces

A stream of batches arrives in chunks that are cut anywhere. This file proves that the
reader returns the batches in order, however the stream is cut, takes no chunk before
it needs it, and keeps exactly the bytes behind the batches that it returned. The
invariant is that the scan was fed with prefixes of the buffer, so that resuming it is
scanning the whole buffer.
-/

namespace StoreClient

namespace Reader

/-- The scan was fed with prefixes of the buffer. -/
def Resumable (reader : Reader) : Prop :=
  ∃ seen, Scan.Fed reader.scan seen ∧ seen <+: reader.buffer

/-- A scan that starts anew may stand before any buffer. -/
theorem Resumable.of_start (buffer : Bytes) (limit : Nat) : Resumable ⟨buffer, .start, limit⟩ :=
  ⟨[], .start, List.nil_prefix⟩

/-- More bytes may arrive. -/
theorem Resumable.receive {reader : Reader} (h : reader.Resumable) (chunk : Bytes) :
    Resumable { reader with buffer := reader.buffer ++ chunk } := by
  obtain ⟨seen, hfed, hseen⟩ := h
  exact ⟨seen, hfed, hseen.trans (List.prefix_append _ _)⟩

/-- Resuming the scan finds what a fresh scan of the buffer finds. -/
theorem Resumable.advance_eq {reader : Reader} (h : reader.Resumable) :
    reader.scan.advance reader.buffer = Scan.start.advance reader.buffer := by
  obtain ⟨seen, hfed, more, hmore⟩ := h
  rw [← hmore]
  exact hfed.advance_eq more

/-- A batch at the front of the buffer is taken, and the bytes behind it stay. -/
theorem poll_of_complete {reader : Reader} {entries : List Entry} {size : Nat}
    (h : reader.Resumable) (hdecode : Batch.decode reader.buffer = .complete entries size) :
    reader.poll =
      .batch entries { reader with buffer := reader.buffer.drop size, scan := .start } := by
  unfold poll
  rw [h.advance_eq, Scan.advance_of_complete hdecode]
  simp only [hdecode]

/-- A reader whose scan is not through waits for more bytes, unless the limit is reached. -/
theorem poll_of_unready {reader : Reader} (h : reader.Resumable)
    (hunready : (Scan.start.advance reader.buffer).1 = false) :
    ∃ scan, reader.poll = wait { reader with scan } ∧ Resumable { reader with scan } := by
  rcases hadvance : Scan.start.advance reader.buffer with ⟨ready, scan⟩
  rw [hadvance] at hunready
  subst hunready
  refine ⟨scan, ?_, reader.buffer, Scan.Fed.start.grow hadvance, List.prefix_refl _⟩
  unfold poll
  rw [h.advance_eq, hadvance]

/-- Below the limit a reader waits. -/
theorem wait_of_lt {reader : Reader} (h : reader.buffer.length < reader.limit) :
    reader.wait = .wanting reader := if_neg (Nat.not_le.mpr h)

/-- An incomplete batch below the limit waits for more bytes. -/
theorem poll_of_incomplete {reader : Reader} (h : reader.Resumable)
    (hdecode : Batch.decode reader.buffer = .incomplete)
    (hlimit : reader.buffer.length < reader.limit) :
    ∃ scan, reader.poll = .wanting { reader with scan } ∧ Resumable { reader with scan } := by
  obtain ⟨scan, hpoll, hscan⟩ := poll_of_unready h (Scan.advance_of_incomplete hdecode)
  exact ⟨scan, hpoll.trans (wait_of_lt hlimit), hscan⟩

/-- A batch that is buffered as a whole is returned without another chunk. -/
theorem read_of_buffered {reader : Reader} (ended : Bool) {batch : Bytes} {entries : List Entry}
    (arrivals : List Arrival) (hreader : reader.Resumable)
    (hbatch : Batch.decode batch = .complete entries batch.length)
    (hbuffer : batch <+: reader.buffer) :
    reader.read ended arrivals =
      ⟨.batch entries, ⟨reader.buffer.drop batch.length, .start, reader.limit⟩, arrivals⟩ := by
  have hdecode : Batch.decode reader.buffer = .complete entries batch.length := by
    obtain ⟨more, hmore⟩ := hbuffer
    rw [← hmore, ← hbatch]
    exact Batch.decode_append (by rw [hbatch]; simp) more
  unfold read
  rw [poll_of_complete hreader hdecode]

/-- A batch of which a part is missing lets the next chunk in, below the limit. -/
theorem read_of_missing {reader : Reader} (ended : Bool) {batch chunk : Bytes}
    {entries : List Entry} (arrivals : List Arrival) (hreader : reader.Resumable)
    (hbatch : Batch.decode batch = .complete entries batch.length)
    (hbuffer : reader.buffer <+: batch) (hmissing : reader.buffer.length < batch.length)
    (hbelow : reader.buffer.length < reader.limit) (hchunk : chunk ≠ []) :
    ∃ scan, Resumable { reader with scan } ∧
      reader.read ended (.bytes chunk :: arrivals) =
        read { reader with buffer := reader.buffer ++ chunk, scan } ended arrivals := by
  have hdecode := Batch.decode_of_prefix hbatch hbuffer hmissing
  obtain ⟨scan, hpoll, hscan⟩ := poll_of_incomplete hreader hdecode hbelow
  refine ⟨scan, hscan, ?_⟩
  obtain ⟨b, chunk, rfl⟩ := List.exists_cons_of_ne_nil hchunk
  rw [read, hpoll]

/-- One read of a batch that becomes whole before the limit is reached. A part of it may be
buffered. The read takes the fewest chunks that bring the whole batch. -/
theorem read_of_fitting {reader : Reader} (ended : Bool) {batch rest : Bytes}
    {entries : List Entry} {chunks : List Bytes} (later : List Arrival)
    (hreader : reader.Resumable) (hbatch : Batch.decode batch = .complete entries batch.length)
    (hfits : ∀ k ≤ chunks.length,
      (reader.buffer ++ (chunks.take k).flatten).length < batch.length →
      (reader.buffer ++ (chunks.take k).flatten).length < reader.limit)
    (hchunks : ∀ chunk ∈ chunks, chunk ≠ [])
    (hstream : reader.buffer ++ chunks.flatten = batch ++ rest) :
    ∃ taken ≤ chunks.length,
      batch.length ≤ (reader.buffer ++ (chunks.take taken).flatten).length ∧
      (∀ fewer < taken, (reader.buffer ++ (chunks.take fewer).flatten).length < batch.length) ∧
      reader.read ended (chunks.map .bytes ++ later) =
        ⟨.batch entries,
          ⟨(reader.buffer ++ (chunks.take taken).flatten).drop batch.length, .start, reader.limit⟩,
          (chunks.drop taken).map .bytes ++ later⟩ := by
  have hprefix : batch <+: reader.buffer ++ chunks.flatten := ⟨rest, hstream.symm⟩
  -- On the chunks still to come: the batch is buffered as a whole, or one more is let in.
  induction chunks generalizing reader with
  | nil =>
    rw [List.flatten_nil, List.append_nil] at hprefix
    refine ⟨0, le_rfl, by simpa using hprefix.length_le,
      fun _ h => absurd h (Nat.not_lt_zero _), ?_⟩
    rw [read_of_buffered ended _ hreader hbatch hprefix]
    simp
  | cons chunk chunks ih =>
    by_cases hmissing : reader.buffer.length < batch.length
    · have hbuffer : reader.buffer <+: batch :=
        List.prefix_of_prefix_length_le (List.prefix_append _ _) hprefix hmissing.le
      have hbelow : reader.buffer.length < reader.limit := by
        simpa using hfits 0 (Nat.zero_le _) (by simpa using hmissing)
      obtain ⟨scan, hscan, hread⟩ := read_of_missing ended (chunks.map .bytes ++ later) hreader
        hbatch hbuffer hmissing hbelow (hchunks chunk List.mem_cons_self)
      obtain ⟨taken, htaken, hcovered, hfewest, hrest⟩ := ih (hscan.receive chunk)
        (fun k hk => by simpa using hfits (k + 1) (by simpa using hk))
        (fun c hc => hchunks c (List.mem_cons_of_mem _ hc)) (by simpa using hstream)
        (by simpa using hprefix)
      refine ⟨taken + 1, by simpa using htaken, by simpa using hcovered, fun fewer hfewer => ?_, ?_⟩
      · cases fewer with
        | zero => simpa using hmissing
        | succ fewer => simpa using hfewest fewer (by omega)
      · rw [List.map_cons, List.cons_append, hread, hrest]
        simp
    · have hbuffer : batch <+: reader.buffer :=
        List.prefix_of_prefix_length_le hprefix (List.prefix_append _ _) (by omega)
      refine ⟨0, Nat.zero_le _, by simpa using hbuffer.length_le,
        fun _ h => absurd h (Nat.not_lt_zero _), ?_⟩
      rw [read_of_buffered ended _ hreader hbatch hbuffer]
      simp

/-- One read of a batch within the limit, of which a part may be buffered. It takes the fewest
chunks that bring the whole batch. -/
theorem read_of_batch {reader : Reader} (ended : Bool) {batch rest : Bytes}
    {entries : List Entry} {chunks : List Bytes} (later : List Arrival)
    (hreader : reader.Resumable) (hbatch : Batch.decode batch = .complete entries batch.length)
    (hlimit : batch.length ≤ reader.limit) (hchunks : ∀ chunk ∈ chunks, chunk ≠ [])
    (hstream : reader.buffer ++ chunks.flatten = batch ++ rest) :
    ∃ taken ≤ chunks.length,
      batch.length ≤ (reader.buffer ++ (chunks.take taken).flatten).length ∧
      (∀ fewer < taken, (reader.buffer ++ (chunks.take fewer).flatten).length < batch.length) ∧
      reader.read ended (chunks.map .bytes ++ later) =
        ⟨.batch entries,
          ⟨(reader.buffer ++ (chunks.take taken).flatten).drop batch.length, .start, reader.limit⟩,
          (chunks.drop taken).map .bytes ++ later⟩ :=
  read_of_fitting ended later hreader hbatch (fun _ _ h => h.trans_le hlimit) hchunks hstream

/-- Reads in a row: their outcomes, the reader behind them, and the arrivals that they
did not take. -/
def reads (reader : Reader) (ended : Bool) (arrivals : List Arrival) :
    Nat → List Outcome × Reader × List Arrival
  | 0 => ([], reader, arrivals)
  | n + 1 =>
    let (outcomes, reader, arrivals) := reads reader ended arrivals n
    let step := reader.read ended arrivals
    (outcomes ++ [step.outcome], step.reader, step.arrivals)

/-- One read more. -/
theorem reads_succ {reader after : Reader} {ended : Bool} {arrivals left : List Arrival}
    {outcomes : List Outcome} {k : Nat}
    (h : reader.reads ended arrivals k = (outcomes, after, left)) :
    reader.reads ended arrivals (k + 1) =
      (outcomes ++ [(after.read ended left).outcome], (after.read ended left).reader,
        (after.read ended left).arrivals) := by
  rw [reads, h]

/-- Behind `k` batches of a stream that arrives in chunks: so many chunks were taken, fewer
would not have brought the batches, and the buffer holds what they brought besides. -/
structure Behind (batches : List (Bytes × List Entry)) (tail : Bytes) (chunks : List Bytes)
    (k taken : Nat) (buffer : Bytes) : Prop where
  taken_le : taken ≤ chunks.length
  fewest : ∀ fewer < taken,
    (chunks.take fewer).flatten.length < ((batches.take k).flatMap Prod.fst).length
  length_eq : buffer.length + ((batches.take k).flatMap Prod.fst).length =
    (chunks.take taken).flatten.length
  rest_eq : buffer ++ (chunks.drop taken).flatten = (batches.drop k).flatMap Prod.fst ++ tail

namespace Behind

variable {batches : List (Bytes × List Entry)} {tail buffer : Bytes} {chunks : List Bytes}
  {k taken more : Nat}

/-- Before the first batch no chunk was taken. -/
theorem zero (hstream : chunks.flatten = batches.flatMap Prod.fst ++ tail) :
    Behind batches tail chunks 0 0 [] where
  taken_le := Nat.zero_le _
  fewest _ h := absurd h (Nat.not_lt_zero _)
  length_eq := by simp
  rest_eq := by simpa using hstream

/-- The next batch stands in front of what is left of the stream. -/
theorem next_eq (h : Behind batches tail chunks k taken buffer) (hk : k < batches.length) :
    buffer ++ (chunks.drop taken).flatten =
      batches[k].1 ++ ((batches.drop (k + 1)).flatMap Prod.fst ++ tail) := by
  rw [h.rest_eq, List.drop_eq_getElem_cons hk, List.flatMap_cons, List.append_assoc]

/-- The next batch is covered by the fewest chunks more that bring the whole of it. -/
theorem succ (h : Behind batches tail chunks k taken buffer) (hk : k < batches.length)
    (hmore : more ≤ (chunks.drop taken).length)
    (hcovered : batches[k].1.length ≤
      (buffer ++ ((chunks.drop taken).take more).flatten).length)
    (hfewest : ∀ fewer < more,
      (buffer ++ ((chunks.drop taken).take fewer).flatten).length < batches[k].1.length) :
    Behind batches tail chunks (k + 1) (taken + more)
      ((buffer ++ ((chunks.drop taken).take more).flatten).drop batches[k].1.length) := by
  have hconsumed : ((batches.take (k + 1)).flatMap Prod.fst).length =
      ((batches.take k).flatMap Prod.fst).length + batches[k].1.length := by
    rw [List.take_succ_eq_append_getElem hk, List.flatMap_append, List.length_append]
    simp
  have hreceived (n : Nat) : (chunks.take (taken + n)).flatten.length =
      (chunks.take taken).flatten.length + ((chunks.drop taken).take n).flatten.length := by
    rw [List.take_add, List.flatten_append, List.length_append]
  have hlength := h.length_eq
  refine ⟨?_, fun fewer hfewer => ?_, ?_, ?_⟩
  · have htaken := h.taken_le
    rw [List.length_drop] at hmore
    omega
  · by_cases hearlier : fewer < taken
    · have hbefore := h.fewest fewer hearlier
      omega
    · have hlater := hfewest (fewer - taken) (by omega)
      have hsofar := hreceived (fewer - taken)
      rw [Nat.add_sub_cancel' (by omega)] at hsofar
      rw [List.length_append] at hlater
      omega
  · rw [List.length_append] at hcovered
    rw [List.length_drop, List.length_append, hreceived, hconsumed]
    omega
  · have hsplit : (chunks.drop taken).flatten =
        ((chunks.drop taken).take more).flatten ++ (chunks.drop (taken + more)).flatten := by
      rw [← List.flatten_append, ← List.drop_drop, List.take_append_drop]
    rw [← List.drop_append_of_le_length hcovered, List.append_assoc, ← hsplit, h.next_eq hk,
      List.drop_left]

end Behind

/-- Reading a stream of batches. However the stream is cut into chunks, each read returns
the next batch, and takes no more chunks than are needed to bring it. What stays
buffered is what arrived less the batches returned: the bytes behind them. -/
theorem reads_of_batches {limit : Nat} {batches : List (Bytes × List Entry)} {tail : Bytes}
    {chunks : List Bytes} (ended : Bool) (later : List Arrival)
    (hbatches : ∀ batch ∈ batches, Batch.decode batch.1 = .complete batch.2 batch.1.length ∧
      batch.1.length ≤ limit)
    (hchunks : ∀ chunk ∈ chunks, chunk ≠ [])
    (hstream : chunks.flatten = batches.flatMap Prod.fst ++ tail) {k : Nat}
    (hk : k ≤ batches.length) :
    ∃ taken ≤ chunks.length, ∃ buffer,
      (start limit).reads ended (chunks.map .bytes ++ later) k =
        ((batches.take k).map fun batch => .batch batch.2, ⟨buffer, .start, limit⟩,
          (chunks.drop taken).map .bytes ++ later) ∧
      (∀ fewer < taken,
        (chunks.take fewer).flatten.length < ((batches.take k).flatMap Prod.fst).length) ∧
      buffer.length + ((batches.take k).flatMap Prod.fst).length =
        (chunks.take taken).flatten.length ∧
      buffer ++ (chunks.drop taken).flatten =
        (batches.drop k).flatMap Prod.fst ++ tail := by
  suffices hreads : ∃ taken buffer, Behind batches tail chunks k taken buffer ∧
      (start limit).reads ended (chunks.map .bytes ++ later) k =
        ((batches.take k).map fun batch => .batch batch.2, ⟨buffer, .start, limit⟩,
          (chunks.drop taken).map .bytes ++ later) by
    obtain ⟨taken, buffer, hbehind, hreads⟩ := hreads
    exact ⟨taken, hbehind.taken_le, buffer, hreads, hbehind.fewest, hbehind.length_eq,
      hbehind.rest_eq⟩
  induction k with
  | zero => exact ⟨0, [], .zero hstream, rfl⟩
  | succ k ih =>
    obtain ⟨taken, buffer, hbehind, hreads⟩ := ih (by omega)
    obtain ⟨hdecode, hlimit⟩ := hbatches batches[k] (List.getElem_mem hk)
    obtain ⟨more, hmore, hcovered, hfewest, hread⟩ := read_of_batch ended later
      (Resumable.of_start buffer limit) hdecode hlimit
      (fun chunk hchunk => hchunks chunk (List.mem_of_mem_drop hchunk)) (hbehind.next_eq hk)
    refine ⟨taken + more, _, hbehind.succ hk hmore hcovered hfewest, ?_⟩
    rw [reads_succ hreads, hread, List.take_succ_eq_append_getElem hk, List.drop_drop,
      List.map_append]
    rfl

/-- Two batches and the start of a third one, cut inside a size, inside a text and in front
of a newline. Both reads return their batch. -/
theorem reads_of_batches_cut :
    let batches : List (Bytes × List Entry) :=
      [([42, 49, 10, 43, 50, 10, 104, 105, 10], [⟨.scalar .string, .string "hi", none⟩]),
        ([42, 49, 10, 58, 49, 10, 55, 10], [⟨.scalar .unsigned, .unsigned 7, none⟩])]
    let chunks : List Bytes :=
      [[42, 49], [10, 43, 50, 10, 104], [105, 10, 42, 49, 10, 58, 49], [10, 55], [10, 42]]
    (∀ batch ∈ batches, Batch.decode batch.1 = .complete batch.2 batch.1.length ∧
        batch.1.length ≤ 9) ∧
      (∀ chunk ∈ chunks, chunk ≠ []) ∧
      chunks.flatten = batches.flatMap Prod.fst ++ [42] ∧
      ∃ taken ≤ chunks.length, ∃ buffer,
        (start 9).reads false (chunks.map .bytes ++ [.bytes [51]]) 2 =
          (batches.map fun batch => .batch batch.2, ⟨buffer, .start, 9⟩,
            (chunks.drop taken).map .bytes ++ [.bytes [51]]) ∧
        buffer.length + 17 = (chunks.take taken).flatten.length ∧
        buffer ++ (chunks.drop taken).flatten = [42] := by
  intro batches chunks
  have hbatches : ∀ batch ∈ batches,
      Batch.decode batch.1 = .complete batch.2 batch.1.length ∧ batch.1.length ≤ 9 := by
    rw [List.forall_mem_cons, List.forall_mem_cons]
    exact ⟨⟨by rfl, by decide⟩, ⟨by rfl, by decide⟩, nofun⟩
  have hchunks : ∀ chunk ∈ chunks, chunk ≠ [] := by decide
  have hstream : chunks.flatten = batches.flatMap Prod.fst ++ [42] := by rfl
  obtain ⟨taken, htaken, buffer, hreads, -, hlength, hbehind⟩ :=
    reads_of_batches false [.bytes [51]] hbatches hchunks hstream (k := 2) (by decide)
  exact ⟨hbatches, hchunks, hstream, taken, htaken, buffer, hreads, hlength, hbehind⟩

end Reader

end StoreClient
