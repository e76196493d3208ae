import StoreClient.Proofs.Decoding
import Mathlib.Data.Nat.Find

/-!
# Decoding the prefixes of a stream

While a stream arrives, the decoder is asked about longer and longer prefixes of it.
This file proves that it answers "more bytes are needed" up to some point and one
fixed thing from there on, and that it never takes a byte more than it needs.
-/

namespace StoreClient

namespace Batch

/-- Entries that were read, or broken, in a short buffer are so in a longer one. -/
theorem entriesGo_append (n : Nat) (found : List Entry) (bytes more : Bytes)
    (h : (entries.go n found bytes).2 ≠ .error .incomplete) :
    entries.go n found (bytes ++ more) =
      ((entries.go n found bytes).1, (entries.go n found bytes).2.map (· ++ more)) := by
  induction n generalizing found bytes with
  | zero => rfl
  | succ n ih =>
    unfold entries.go at h ⊢
    rcases hentry : Parse.entry bytes with (_ | e) | ⟨entry, rest⟩
    · rw [hentry] at h
      exact absurd rfl h
    · rw [Parse.Stable.entry.breaks hentry more]
      rfl
    · rw [hentry] at h
      rw [Parse.Stable.entry.append hentry more]
      exact ih (entry :: found) rest h

/-- A buffer that broke keeps its complete entries when more bytes arrive. -/
theorem decodedEntries_append {bytes : Bytes} {e : ProtocolError}
    (h : Parse.batch bytes = .error (.broken e)) (more : Bytes) :
    decodedEntries (bytes ++ more) = decodedEntries bytes := by
  unfold decodedEntries
  rcases Parse.bind_eq_error.mp h with hheader | ⟨count, rest, hheader, hentries⟩
  · rw [hheader, Parse.Stable.batchHeader.breaks hheader more]
  · rw [hheader, Parse.Stable.batchHeader.append hheader more]
    have hne : (entries count rest).2 ≠ .error .incomplete := by
      intro hincomplete
      rw [repeated_entry, hincomplete] at hentries
      cases hentries
    have hmore : entries count (rest ++ more) = _ := entriesGo_append count [] rest more hne
    dsimp only
    rw [hmore]
    rfl

/-- More bytes do not change an answer that was found. -/
theorem decode_append {bytes : Bytes} (h : decode bytes ≠ .incomplete) (more : Bytes) :
    decode (bytes ++ more) = decode bytes := by
  rw [decode_eq, decode_eq]
  rcases hbatch : Parse.batch bytes with (_ | e) | ⟨found, rest⟩
  · exact absurd (decode_eq_incomplete_iff.mpr hbatch) h
  · rw [Parse.Stable.batch.breaks hbatch more, decodedEntries_append hbatch more]
  · rw [Parse.Stable.batch.append hbatch more]
    simp only [List.length_append, Nat.add_sub_add_right]

/-- A shorter prefix than what a batch takes does not make a batch. -/
theorem decode_of_prefix {bytes part : Bytes} {found : List Entry} {size : Nat}
    (h : decode bytes = .complete found size) (hpart : part <+: bytes)
    (hshort : part.length < size) : decode part = .incomplete := by
  obtain ⟨more, rfl⟩ := hpart
  by_contra hne
  have hpart := decode_append hne more
  rw [h] at hpart
  obtain ⟨rest, hbatch, hsize⟩ := decode_eq_complete_iff.mp hpart.symm
  omega

/-- A batch lies within its buffer. -/
theorem size_le_length {bytes : Bytes} {found : List Entry} {size : Nat}
    (h : decode bytes = .complete found size) : size ≤ bytes.length := by
  obtain ⟨rest, _, hsize⟩ := decode_eq_complete_iff.mp h
  omega

/-- The buffers of a growing chain are prefixes of the later ones. -/
theorem prefix_of_le {buffers : Nat → Bytes} (hgrows : ∀ k, buffers k <+: buffers (k + 1))
    {j k : Nat} (h : j ≤ k) : buffers j <+: buffers k := by
  induction h with
  | refl => exact List.prefix_refl _
  | step _ ih => exact ih.trans (hgrows _)

/-- The decoder settles once. More bytes never change an answer that was found, and a
batch takes as few bytes as can be. So along any growing buffer the decoder asks for
more bytes up to one point, and has one fixed answer from there on. -/
theorem decode_settles (bytes : Bytes) :
    (∀ more, decode bytes ≠ .incomplete → decode (bytes ++ more) = decode bytes) ∧
    (∀ found size, decode bytes = .complete found size →
      size ≤ bytes.length ∧
      ∀ part, part <+: bytes → part.length < size → decode part = .incomplete) ∧
    (∀ buffers : Nat → Bytes, (∀ k, buffers k <+: buffers (k + 1)) →
      ∃ point outcome, (∀ k < point, decode (buffers k) = .incomplete) ∧
        ∀ k ≥ point, decode (buffers k) = outcome) := by
  refine ⟨fun more h => decode_append h more,
    fun found size h => ⟨size_le_length h, fun part => decode_of_prefix h⟩,
    fun buffers hgrows => ?_⟩
  by_cases hsettles : ∃ k, decode (buffers k) ≠ .incomplete
  · -- The first buffer with an answer is the point; every later one extends it.
    classical
    refine ⟨Nat.find hsettles, decode (buffers (Nat.find hsettles)), fun k hk => ?_, fun k hk => ?_⟩
    · exact not_not.mp (Nat.find_min hsettles hk)
    · obtain ⟨more, hmore⟩ := prefix_of_le hgrows hk
      rw [← hmore]
      exact decode_append (Nat.find_spec hsettles) more
  · refine ⟨0, .incomplete, fun k hk => absurd hk k.not_lt_zero, fun k _ => ?_⟩
    exact not_not.mp fun hne => hsettles ⟨k, hne⟩

/-- A batch of one string, with a byte behind it, cut short, and growing byte by byte. -/
theorem decode_settles_string :
    let batch : Bytes := [42, 49, 10, 43, 50, 10, 104, 105, 10]
    decode batch = .complete [⟨.scalar .string, .string "hi", none⟩] 9 ∧
      decode (batch ++ [42]) = decode batch ∧
      decode (batch.take 8) = .incomplete ∧
      ∃ point outcome, (∀ k < point, decode (batch.take k) = .incomplete) ∧
        ∀ k ≥ point, decode (batch.take k) = outcome := by
  intro batch
  have hbatch : decode batch = .complete [⟨.scalar .string, .string "hi", none⟩] 9 := by rfl
  refine ⟨hbatch, ?_, ?_, ?_⟩
  · exact (decode_settles batch).1 [42] (by rw [hbatch]; simp)
  · exact ((decode_settles batch).2.1 _ 9 hbatch).2 (batch.take 8) (List.take_prefix 8 batch)
      (by decide)
  · exact (decode_settles batch).2.2 (fun k => batch.take k) fun k =>
      List.take_prefix_take_left (Nat.le_succ k)

end Batch

end StoreClient
