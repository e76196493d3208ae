import StoreClient.Proofs.Severity
import StoreClient.Proofs.Streaming

/-!
# What the limit of a reader bounds

The limit is compared with the buffered bytes between one chunk and the next, and only while the
batch is incomplete. So it does not bound a response: a longer one is returned if the chunk that
completes it arrives in time. This file proves for which cuts of a stream a batch is returned, for
which it is too large, and by how much a batch that is returned can exceed the limit.
-/

namespace StoreClient

namespace Batch

/-- The bytes that a batch takes are a batch. -/
theorem decode_take {bytes : Bytes} {found : List Entry} {size : Nat}
    (h : decode bytes = .complete found size) :
    decode (bytes.take size) = .complete found (bytes.take size).length := by
  obtain ⟨rest, hbatch, hsize⟩ := decode_eq_complete_iff.mp h
  obtain ⟨batch, rfl, hreads⟩ := Parse.Stable.batch.reads hbatch
  have htake : (batch ++ rest).take size = batch := by
    rw [hsize, List.length_append, Nat.add_sub_cancel, List.take_left]
  rw [htake]
  exact decode_eq_complete_iff.mpr ⟨[], by simpa using hreads [], by simp⟩

end Batch

namespace Reader

variable {reader : Reader} {chunk batch rest : Bytes} {chunks : List Bytes} {entries : List Entry}
  {size : Nat}

/-- What a reader holds once so many of the chunks have arrived. -/
def holding (reader : Reader) (chunks : List Bytes) (k : Nat) : Bytes :=
  reader.buffer ++ (chunks.take k).flatten

/-- At some point between the chunks the limit is reached, and a batch of this size is not there
as a whole. -/
def Overflows (reader : Reader) (chunks : List Bytes) (size : Nat) : Prop :=
  ∃ k ≤ chunks.length,
    reader.limit ≤ (reader.holding chunks k).length ∧ (reader.holding chunks k).length < size

/-- The error of a response that is too large. -/
def tooLarge (limit : Nat) : Error := .protocol (.responseTooLarge limit)

@[simp]
theorem holding_zero (reader : Reader) (chunks : List Bytes) :
    reader.holding chunks 0 = reader.buffer := by
  simp [holding]

/-- The first chunk may be counted as buffered, whatever the scan has made of it. -/
theorem holding_succ (reader : Reader) (chunk : Bytes) (chunks : List Bytes) (k : Nat)
    (scan : Scan) :
    reader.holding (chunk :: chunks) (k + 1) =
      holding ⟨reader.buffer ++ chunk, scan, reader.limit⟩ chunks k := by
  simp [holding]

/-- A reader holds its buffer at least. -/
theorem length_le_holding (reader : Reader) (chunks : List Bytes) (k : Nat) :
    reader.buffer.length ≤ (reader.holding chunks k).length := by
  simp [holding]

/-- A batch overflows the reader before the first chunk, or later. -/
theorem overflows_cons (scan : Scan) :
    reader.Overflows (chunk :: chunks) size ↔
      (reader.limit ≤ reader.buffer.length ∧ reader.buffer.length < size) ∨
        Overflows ⟨reader.buffer ++ chunk, scan, reader.limit⟩ chunks size := by
  constructor
  · rintro ⟨k, hk, hlimit, hsize⟩
    cases k with
    | zero =>
      rw [holding_zero] at hlimit hsize
      exact .inl ⟨hlimit, hsize⟩
    | succ k =>
      rw [holding_succ _ _ _ _ scan] at hlimit hsize
      exact .inr ⟨k, by simpa using hk, hlimit, hsize⟩
  · rintro (⟨hlimit, hsize⟩ | ⟨k, hk, hlimit, hsize⟩)
    · exact ⟨0, Nat.zero_le _, by simpa using hlimit, by simpa using hsize⟩
    · rw [← holding_succ] at hlimit hsize
      exact ⟨k + 1, by simpa using hk, hlimit, hsize⟩

/-- No batch within the limit overflows the reader. -/
theorem not_overflows_of_le (h : size ≤ reader.limit) : ¬ reader.Overflows chunks size := by
  rintro ⟨k, -, hlimit, hsize⟩
  omega

/-- No batch that is buffered overflows the reader. -/
theorem not_overflows_of_buffered (h : size ≤ reader.buffer.length) :
    ¬ reader.Overflows chunks size := by
  rintro ⟨k, -, -, hsize⟩
  have hheld := length_le_holding reader chunks k
  omega

/-- A batch that does not overflow the reader exceeds the limit by less than a chunk, unless it
is buffered. -/
theorem size_lt_of_not_overflows (hsize : size ≤ (reader.buffer ++ chunks.flatten).length)
    (h : ¬ reader.Overflows chunks size) :
    size ≤ reader.buffer.length ∨ ∃ chunk ∈ chunks, size < reader.limit + chunk.length := by
  induction chunks generalizing reader with
  | nil => exact .inl (by simpa using hsize)
  | cons chunk chunks ih =>
    by_cases hbuffered : size ≤ reader.buffer.length
    · exact .inl hbuffered
    · right
      obtain ⟨hbelow, hlater⟩ := not_or.mp ((overflows_cons reader.scan).not.mp h)
      have hlimit : reader.buffer.length < reader.limit := by omega
      rcases ih (by simpa using hsize) hlater with hcompleted | ⟨later, hmem, hlength⟩
      · rw [List.length_append] at hcompleted
        exact ⟨chunk, List.mem_cons_self, by omega⟩
      · exact ⟨later, List.mem_cons_of_mem _ hmem, hlength⟩

/-- If the bytes arrive one by one, the reader holds exactly as many as the limit at some point,
so a batch that exceeds the limit overflows it. -/
theorem overflows_of_bytes (hbytes : ∀ chunk ∈ chunks, chunk.length = 1)
    (hbuffer : reader.buffer.length ≤ reader.limit) (hlimit : reader.limit < size)
    (hsize : size ≤ (reader.buffer ++ chunks.flatten).length) : reader.Overflows chunks size := by
  induction chunks generalizing reader with
  | nil =>
    rw [List.flatten_nil, List.append_nil] at hsize
    omega
  | cons chunk chunks ih =>
    have hchunk := hbytes chunk List.mem_cons_self
    apply (overflows_cons reader.scan).mpr
    by_cases hfull : reader.limit ≤ reader.buffer.length
    · exact .inl ⟨hfull, by omega⟩
    · right
      apply ih (fun c hc => hbytes c (List.mem_cons_of_mem _ hc))
      · simp only [List.length_append]
        omega
      · exact hlimit
      · simpa using hsize

/-- An incomplete batch that reaches the limit is too large. -/
theorem read_of_full (ended : Bool) (arrivals : List Arrival) (hreader : reader.Resumable)
    (hdecode : Batch.decode reader.buffer = .incomplete)
    (hfull : reader.limit ≤ reader.buffer.length) :
    reader.read ended arrivals =
      ⟨.failed ⟨Batch.decodedEntries reader.buffer, tooLarge reader.limit⟩, reader.reset,
        arrivals⟩ := by
  obtain ⟨scan, hpoll, -⟩ := poll_of_unready hreader (Scan.advance_of_incomplete hdecode)
  rw [wait, if_pos hfull] at hpoll
  unfold read
  rw [hpoll]
  rfl

/-- A batch that overflows the reader is too large. The read takes the fewest chunks that reach
the limit, and keeps the entries that are complete then. -/
theorem read_of_overflowing (ended : Bool) (later : List Arrival) (hreader : reader.Resumable)
    (hbatch : Batch.decode batch = .complete entries batch.length)
    (hchunks : ∀ chunk ∈ chunks, chunk ≠ [])
    (hstream : reader.buffer ++ chunks.flatten = batch ++ rest)
    (hoverflows : reader.Overflows chunks batch.length) :
    ∃ k ≤ chunks.length,
      reader.limit ≤ (reader.holding chunks k).length ∧
      (∀ fewer < k, (reader.holding chunks fewer).length < reader.limit) ∧
      reader.read ended (chunks.map .bytes ++ later) =
        ⟨.failed ⟨Batch.decodedEntries (reader.holding chunks k), tooLarge reader.limit⟩,
          reader.reset, (chunks.drop k).map .bytes ++ later⟩ := by
  have hprefix : batch <+: reader.buffer ++ chunks.flatten := ⟨rest, hstream.symm⟩
  -- On the chunks still to come: the limit is reached now, or one more is let in.
  induction chunks generalizing reader with
  | nil =>
    obtain ⟨k, -, hlimit, hsize⟩ := hoverflows
    have hheld : reader.holding [] k = reader.buffer := by simp [holding]
    rw [hheld] at hlimit hsize
    rw [List.flatten_nil, List.append_nil] at hprefix
    exact absurd hprefix.length_le (by omega)
  | cons chunk chunks ih =>
    have hmissing : reader.buffer.length < batch.length := by
      obtain ⟨k, -, -, hsize⟩ := hoverflows
      exact (length_le_holding _ _ k).trans_lt hsize
    have hbuffer : reader.buffer <+: batch :=
      List.prefix_of_prefix_length_le (List.prefix_append _ _) hprefix hmissing.le
    by_cases hfull : reader.limit ≤ reader.buffer.length
    · refine ⟨0, Nat.zero_le _, by simpa using hfull, fun _ h => absurd h (Nat.not_lt_zero _), ?_⟩
      rw [read_of_full ended _ hreader (Batch.decode_of_prefix hbatch hbuffer hmissing) hfull]
      simp
    · obtain ⟨scan, hscan, hread⟩ := read_of_missing ended (chunks.map .bytes ++ later) hreader
        hbatch hbuffer hmissing (Nat.not_le.mp hfull) (hchunks chunk List.mem_cons_self)
      have hreceived : Resumable ⟨reader.buffer ++ chunk, scan, reader.limit⟩ :=
        hscan.receive chunk
      have hlater := ((overflows_cons scan).mp hoverflows).resolve_left fun h => hfull h.1
      obtain ⟨k, hk, hlimit, hfewest, hrest⟩ := ih hreceived
        (fun c hc => hchunks c (List.mem_cons_of_mem _ hc)) (by simpa using hstream) hlater
        (by simpa using hprefix)
      rw [← holding_succ] at hlimit hrest
      refine ⟨k + 1, by simpa using hk, hlimit, fun fewer hfewer => ?_, ?_⟩
      · cases fewer with
        | zero => simpa using hfull
        | succ fewer =>
          rw [holding_succ _ _ _ _ scan]
          exact hfewest fewer (by omega)
      · rw [List.map_cons, List.cons_append, hread, hrest]
        rfl

/-- Only below the limit a reader wants more bytes. -/
theorem length_lt_of_poll {after : Reader} (h : reader.poll = .wanting after) :
    reader.buffer.length < reader.limit := by
  cases polls_of_poll_eq h with
  | wanting hbelow => exact hbelow

/-- A batch that a poll takes stands at the front of the buffer. -/
theorem decode_of_poll {after : Reader} (h : reader.poll = .batch entries after) :
    ∃ size, Batch.decode reader.buffer = .complete entries size := by
  cases polls_of_poll_eq h with
  | batch hdecode => exact ⟨_, hdecode⟩

/-- So it stands at the front of the whole stream, and is there as a whole. -/
theorem decode_append_of_poll {after : Reader} (h : reader.poll = .batch entries after)
    (chunks : List Bytes) :
    ∃ size, Batch.decode (reader.buffer ++ chunks.flatten) = .complete entries size ∧
      ¬ reader.Overflows chunks size := by
  obtain ⟨size, hdecode⟩ := decode_of_poll h
  refine ⟨size, ?_, not_overflows_of_buffered (Batch.size_le_length hdecode)⟩
  rw [← hdecode]
  exact Batch.decode_append (by rw [hdecode]; simp) _

/-- A batch that a read of chunks returns stands at the front of them, and does not overflow the
reader. -/
theorem decode_of_read {ended : Bool} (hchunks : ∀ chunk ∈ chunks, chunk ≠ [])
    (h : (reader.read ended (chunks.map .bytes)).outcome = .batch entries) :
    ∃ size, Batch.decode (reader.buffer ++ chunks.flatten) = .complete entries size ∧
      ¬ reader.Overflows chunks size := by
  induction chunks generalizing reader with
  | nil =>
    unfold read at h
    cases hpoll : reader.poll with
    | batch found after =>
      rw [hpoll] at h
      cases h
      exact decode_append_of_poll hpoll []
    | failed failure after =>
      rw [hpoll] at h
      cases h
    | wanting after =>
      rw [hpoll] at h
      cases ended <;> cases h
  | cons chunk chunks ih =>
    rw [List.map_cons, read] at h
    cases hpoll : reader.poll with
    | batch found after =>
      rw [hpoll] at h
      cases h
      exact decode_append_of_poll hpoll _
    | failed failure after =>
      rw [hpoll] at h
      cases h
    | wanting after =>
      rw [hpoll] at h
      obtain ⟨b, bytes, rfl⟩ := List.exists_cons_of_ne_nil (hchunks chunk List.mem_cons_self)
      have hbelow := length_lt_of_poll hpoll
      have hlimit : after.limit = reader.limit := limit_of_poll_eq hpoll
      obtain ⟨size, hdecode, hfits⟩ := ih (fun c hc => hchunks c (List.mem_cons_of_mem _ hc)) h
      rw [buffer_of_poll hpoll] at hdecode hfits
      rw [hlimit] at hfits
      refine ⟨size, by simpa using hdecode, fun hoverflows => ?_⟩
      rcases (overflows_cons after.scan).mp hoverflows with hfull | hlater
      · omega
      · exact hfits hlater

/-- A batch at the front of the chunks is returned if it does not overflow the reader. -/
theorem read_of_decode (ended : Bool) (hreader : reader.Resumable)
    (hchunks : ∀ chunk ∈ chunks, chunk ≠ [])
    (hdecode : Batch.decode (reader.buffer ++ chunks.flatten) = .complete entries size)
    (hfits : ¬ reader.Overflows chunks size) :
    (reader.read ended (chunks.map .bytes)).outcome = .batch entries := by
  have hlength : ((reader.buffer ++ chunks.flatten).take size).length = size :=
    List.length_take_of_le (Batch.size_le_length hdecode)
  have hbelow : ∀ k ≤ chunks.length,
      (reader.holding chunks k).length < ((reader.buffer ++ chunks.flatten).take size).length →
      (reader.holding chunks k).length < reader.limit := by
    intro k hk hmissing
    rw [hlength] at hmissing
    by_contra hfull
    exact hfits ⟨k, hk, by omega, hmissing⟩
  obtain ⟨taken, -, -, -, hread⟩ := read_of_fitting ended [] hreader (Batch.decode_take hdecode)
    hbelow hchunks (List.take_append_drop size _).symm
  rw [List.append_nil] at hread
  rw [hread]

/-- What the limit does. A read of chunks returns a batch exactly if the batch stands at the
front of them and the reader does not reach the limit before the batch is whole. A batch at the
front that is not returned is too large. So every batch within the limit is returned however the
chunks are cut, a batch that is returned exceeds the limit by less than one chunk unless it was
buffered, and the limit is exact if the bytes arrive one by one. -/
theorem read_is_limited_between_chunks (ended : Bool) (hreader : reader.Resumable)
    (hchunks : ∀ chunk ∈ chunks, chunk ≠ []) :
    (∀ entries, (reader.read ended (chunks.map .bytes)).outcome = .batch entries ↔
      ∃ size, Batch.decode (reader.buffer ++ chunks.flatten) = .complete entries size ∧
        ¬ reader.Overflows chunks size) ∧
    ∀ entries size, Batch.decode (reader.buffer ++ chunks.flatten) = .complete entries size →
      (reader.Overflows chunks size →
        ∃ k ≤ chunks.length,
          reader.limit ≤ (reader.holding chunks k).length ∧
          (∀ fewer < k, (reader.holding chunks fewer).length < reader.limit) ∧
          reader.read ended (chunks.map .bytes) =
            ⟨.failed ⟨Batch.decodedEntries (reader.holding chunks k), tooLarge reader.limit⟩,
              reader.reset, (chunks.drop k).map .bytes⟩) ∧
      (size ≤ reader.limit →
        (reader.read ended (chunks.map .bytes)).outcome = .batch entries) ∧
      ((reader.read ended (chunks.map .bytes)).outcome = .batch entries →
        size ≤ reader.buffer.length ∨ ∃ chunk ∈ chunks, size < reader.limit + chunk.length) ∧
      (reader.buffer.length ≤ reader.limit → (∀ chunk ∈ chunks, chunk.length = 1) →
        ((reader.read ended (chunks.map .bytes)).outcome = .batch entries ↔
          size ≤ reader.limit)) := by
  refine ⟨fun entries => ⟨decode_of_read hchunks, ?_⟩, fun entries size hdecode => ?_⟩
  · rintro ⟨size, hdecode, hfits⟩
    exact read_of_decode ended hreader hchunks hdecode hfits
  · have hwhole := Batch.size_le_length hdecode
    have hreturned (h : (reader.read ended (chunks.map .bytes)).outcome = .batch entries) :
        ¬ reader.Overflows chunks size := by
      obtain ⟨found, hfound, hfits⟩ := decode_of_read hchunks h
      rw [hdecode] at hfound
      cases hfound
      exact hfits
    refine ⟨fun hoverflows => ?_, fun hsize => ?_, fun h => ?_, fun hbuffer hbytes => ⟨?_, ?_⟩⟩
    · have hlength := List.length_take_of_le hwhole
      rw [← hlength] at hoverflows
      have hread := read_of_overflowing ended [] hreader (Batch.decode_take hdecode) hchunks
        (List.take_append_drop size _).symm hoverflows
      simpa only [List.append_nil] using hread
    · exact read_of_decode ended hreader hchunks hdecode (not_overflows_of_le hsize)
    · exact size_lt_of_not_overflows hwhole (hreturned h)
    · intro h
      by_contra hlimit
      exact hreturned h (overflows_of_bytes hbytes hbuffer (by omega) hwhole)
    · intro hsize
      exact read_of_decode ended hreader hchunks hdecode (not_overflows_of_le hsize)

/-- A batch of one response code. -/
def okayBatch : Bytes := [42, 49, 10, 33, 49, 10, 48, 10]

/-- The response code of the batch. -/
def okayEntry : Entry := ⟨.scalar .responseCode, .code .okay, none⟩

/-- The two halves of the batch. -/
def okayHalves : List Bytes := [okayBatch.take 4, okayBatch.drop 4]

/-- In one chunk the batch is whole before the limit is looked at. -/
theorem okayBatch_fits : ¬ (start 4).Overflows [okayBatch] 8 := by
  rintro ⟨k, hk, hlimit, hsize⟩
  have hbound : k ≤ 1 := hk
  obtain rfl | rfl : k = 0 ∨ k = 1 := by omega
  · exact absurd hlimit (by decide)
  · exact absurd hsize (by decide)

/-- The first half reaches the limit. -/
theorem okayHalves_overflow : (start 4).Overflows okayHalves 8 :=
  ⟨1, by decide, by decide, by decide⟩

/-- With a limit of half the batch, the batch is returned if it comes in one chunk. Cut in the
middle it is too large, and the second half is not taken. -/
theorem read_is_limited_between_chunks_halves :
    (start 4).Resumable ∧ (∀ chunk ∈ [okayBatch], chunk ≠ []) ∧ (∀ chunk ∈ okayHalves, chunk ≠ []) ∧
      ((start 4).read false ([okayBatch].map .bytes)).outcome = .batch [okayEntry] ∧
      (start 4).read false (okayHalves.map .bytes) =
        ⟨.failed ⟨[], tooLarge 4⟩, start 4, [.bytes (okayBatch.drop 4)]⟩ := by
  have hstart : (start 4).Resumable := .of_start [] 4
  have hchunk : ∀ chunk ∈ [okayBatch], chunk ≠ [] := by decide
  have hhalves : ∀ chunk ∈ okayHalves, chunk ≠ [] := by decide
  have hdecode : Batch.decode okayBatch = .complete [okayEntry] 8 := by rfl
  refine ⟨hstart, hchunk, hhalves, ?_, ?_⟩
  · exact ((read_is_limited_between_chunks false hstart hchunk).1 [okayEntry]).mpr
      ⟨8, hdecode, okayBatch_fits⟩
  · obtain ⟨k, hk, hlimit, hfewest, hread⟩ :=
      ((read_is_limited_between_chunks false hstart hhalves).2 [okayEntry] 8 hdecode).1
        okayHalves_overflow
    have hbound : k ≤ 2 := hk
    obtain rfl | rfl | rfl : k = 0 ∨ k = 1 ∨ k = 2 := by omega
    · exact absurd hlimit (by decide)
    · exact hread
    · exact absurd (hfewest 1 (by decide)) (by decide)

/-- The limit is no bound on a response, and two cuts of one stream may differ in whether the
response is accepted. -/
theorem not_read_bounded :
    (¬ ∀ (limit : Nat) (chunks : List Bytes) (entries : List Entry) (size : Nat),
      (∀ chunk ∈ chunks, chunk ≠ []) →
      Batch.decode chunks.flatten = .complete entries size →
      ((start limit).read false (chunks.map .bytes)).outcome = .batch entries →
      size ≤ limit) ∧
    ¬ ∀ (limit : Nat) (chunks others : List Bytes) (entries : List Entry),
      (∀ chunk ∈ chunks, chunk ≠ []) → (∀ chunk ∈ others, chunk ≠ []) →
      chunks.flatten = others.flatten →
      ((start limit).read false (chunks.map .bytes)).outcome = .batch entries →
      ((start limit).read false (others.map .bytes)).outcome = .batch entries := by
  have hdecode : Batch.decode okayBatch = .complete [okayEntry] 8 := by rfl
  have hread : ((start 4).read false ([okayBatch].map .bytes)).outcome = .batch [okayEntry] :=
    read_of_decode false (.of_start [] 4) (by decide) hdecode okayBatch_fits
  constructor
  · intro hbounded
    have hsize := hbounded 4 [okayBatch] [okayEntry] 8 (by decide) hdecode hread
    omega
  · intro hsame
    have hhalves := hsame 4 [okayBatch] okayHalves [okayEntry] (by decide) (by decide) (by decide)
      hread
    obtain ⟨size, hfound, hfits⟩ := decode_of_read (by decide) hhalves
    have hsize : size = 8 := by
      have hwhole : Batch.decode ((start 4).buffer ++ okayHalves.flatten) =
          .complete [okayEntry] 8 := hdecode
      rw [hwhole] at hfound
      cases hfound
      rfl
    rw [hsize] at hfits
    exact hfits okayHalves_overflow

end Reader

end StoreClient
