import StoreClient.Wire.Framing
import Mathlib.Data.List.TakeWhile

/-!
# Parsers depend on what they take

A parser sees a whole buffer, yet its answer should rest only on the bytes that it
takes: more bytes behind them change nothing, and an error that was found stays.
`Stable` says so. It is proved for every parser of the batch format and for every
step of the scan.
-/

namespace StoreClient

namespace Parse

/-- The parser takes exactly these bytes and answers with this result, whatever
stands behind them. -/
def Reads {α : Type} (parser : Parse α) (bytes : Bytes) (a : α) : Prop :=
  ∀ rest, parser (bytes ++ rest) = .ok (a, rest)

/-- The answer of the parser rests on the bytes that it takes, and an error that it
finds does not depend on the bytes still to come. -/
structure Stable {α : Type} (parser : Parse α) : Prop where
  reads : ∀ {bytes a rest}, parser bytes = .ok (a, rest) →
    ∃ taken, bytes = taken ++ rest ∧ Reads parser taken a
  breaks : ∀ {bytes e}, parser bytes = .error (.broken e) →
    ∀ more, parser (bytes ++ more) = .error (.broken e)

/-- Two parsers in a row run the second one on what the first one left. -/
theorem bind_run {α β : Type} (parser : Parse α) (next : α → Parse β) (bytes : Bytes) :
    (parser >>= next) bytes = parser bytes >>= fun r => next r.1 r.2 := rfl

/-- Two parsers in a row succeed when both do. -/
theorem bind_eq_ok {α β : Type} {parser : Parse α} {next : α → Parse β} {bytes rest : Bytes}
    {b : β} : (parser >>= next) bytes = .ok (b, rest) ↔
      ∃ a behind, parser bytes = .ok (a, behind) ∧ next a behind = .ok (b, rest) := by
  rw [bind_run]
  cases hp : parser bytes with
  | error stop =>
    change (Except.error stop : Except Stop (β × Bytes)) = .ok (b, rest) ↔ _
    simp
  | ok r =>
    change next r.1 r.2 = .ok (b, rest) ↔ _
    constructor
    · exact fun h => ⟨r.1, r.2, rfl, h⟩
    · rintro ⟨a, behind, heq, h⟩
      cases heq
      exact h

/-- Two parsers in a row stop where the first one or the second one stops. -/
theorem bind_eq_error {α β : Type} {parser : Parse α} {next : α → Parse β} {bytes : Bytes}
    {stop : Stop} : (parser >>= next) bytes = .error stop ↔
      parser bytes = .error stop ∨
        ∃ a behind, parser bytes = .ok (a, behind) ∧ next a behind = .error stop := by
  rw [bind_run]
  cases hp : parser bytes with
  | error found =>
    change (Except.error found : Except Stop (β × Bytes)) = .error stop ↔ _
    simp
  | ok r =>
    change next r.1 r.2 = .error stop ↔ _
    constructor
    · exact fun h => .inr ⟨r.1, r.2, rfl, h⟩
    · rintro (h | ⟨a, behind, heq, h⟩)
      · cases h
      · cases heq
        exact h

/-- Changing the result changes neither success nor the bytes taken. -/
theorem map_eq_ok {α β : Type} {f : α → β} {parser : Parse α} {bytes rest : Bytes} {b : β} :
    (f <$> parser) bytes = .ok (b, rest) ↔ ∃ a, parser bytes = .ok (a, rest) ∧ f a = b := by
  change (parser >>= fun a => pure (f a)) bytes = _ ↔ _
  rw [bind_eq_ok]
  constructor
  · rintro ⟨a, behind, hparser, hpure⟩
    cases hpure
    exact ⟨a, hparser, rfl⟩
  · rintro ⟨a, hparser, rfl⟩
    exact ⟨a, rest, hparser, rfl⟩

/-- Changing the result changes nothing about a stop. -/
theorem map_eq_error {α β : Type} {f : α → β} {parser : Parse α} {bytes : Bytes} {stop : Stop} :
    (f <$> parser) bytes = .error stop ↔ parser bytes = .error stop := by
  change (parser >>= fun a => pure (f a)) bytes = _ ↔ _
  rw [bind_eq_error]
  constructor
  · rintro (hparser | ⟨a, behind, _, hpure⟩)
    · exact hparser
    · cases hpure
  · exact .inl

namespace Reads

/-- A result that is known already takes nothing. -/
theorem pure {α : Type} (a : α) : Reads (Pure.pure a : Parse α) [] a := fun _ => rfl

/-- Two parsers in a row take the bytes of each. -/
theorem bind {α β : Type} {parser : Parse α} {next : α → Parse β} {first second : Bytes} {a : α}
    {b : β} (h : Reads parser first a) (hnext : Reads (next a) second b) :
    Reads (parser >>= next) (first ++ second) b := by
  intro rest
  rw [bind_run, List.append_assoc, h]
  exact hnext rest

/-- A parser may be followed by one that takes nothing more. -/
theorem bindPure {α β : Type} {parser : Parse α} {next : α → Parse β} {bytes : Bytes} {a : α}
    {b : β} (h : Reads parser bytes a) (hnext : Reads (next a) [] b) :
    Reads (parser >>= next) bytes b := by
  simpa using h.bind hnext

/-- Changing the result changes nothing about the bytes. -/
theorem map {α β : Type} {parser : Parse α} {bytes : Bytes} {a : α} (f : α → β)
    (h : Reads parser bytes a) : Reads (f <$> parser) bytes (f a) := by
  change Reads (parser >>= fun a => Pure.pure (f a)) bytes (f a)
  exact h.bindPure (pure (f a))

/-- The next byte is taken. -/
theorem byte (b : UInt8) : Reads Parse.byte [b] b := fun _ => rfl

/-- A line ends with its first newline. -/
theorem line {content : Bytes} (h : 10 ∉ content) : Reads Parse.line (content ++ [10]) content := by
  intro rest
  have hne : ∀ b ∈ content, decide (b ≠ 10) = true := by
    intro b hb
    simpa using fun heq : b = 10 => h (heq ▸ hb)
  have hdrop : (content ++ [10] ++ rest).dropWhile (fun b => decide (b ≠ 10)) = 10 :: rest := by
    rw [List.append_assoc, List.dropWhile_append_of_pos hne]
    rfl
  have htake : (content ++ [10] ++ rest).takeWhile (fun b => decide (b ≠ 10)) = content := by
    rw [List.append_assoc, List.takeWhile_append_of_pos hne]
    simp
  unfold Parse.line
  rw [hdrop, htake]

/-- As many bytes are taken as were asked for. -/
theorem take (bytes : Bytes) : Reads (Parse.take bytes.length) bytes bytes := by
  intro rest
  simp [Parse.take]

/-- A payload is taken with its newline. -/
theorem payload (bytes : Bytes) : Reads (Parse.payload bytes.length) (bytes ++ [10]) bytes :=
  (take bytes).bind ((byte 10).bindPure (pure ()) |>.bindPure (pure bytes))

end Reads

/-- A line is the bytes in front of the first newline. -/
theorem line_eq_ok {bytes content rest : Bytes} (h : line bytes = .ok (content, rest)) :
    10 ∉ content ∧ bytes = content ++ [10] ++ rest := by
  have hsplit :=
    List.takeWhile_append_dropWhile (p := fun b : UInt8 => decide (b ≠ 10)) (l := bytes)
  unfold line at h
  split at h
  · cases h
  · rename_i mark behind hdrop
    cases h
    have hmark : mark = 10 := by
      have hhead := List.head?_dropWhile_not (fun b : UInt8 => decide (b ≠ 10)) bytes
      rw [hdrop] at hhead
      simpa using hhead
    subst hmark
    refine ⟨fun hmem => ?_, ?_⟩
    · simpa using List.mem_takeWhile_imp hmem
    · rw [hdrop] at hsplit
      simpa using hsplit.symm

/-- A line never breaks the protocol. -/
theorem line_ne_broken (bytes : Bytes) (e : ProtocolError) : line bytes ≠ .error (.broken e) := by
  unfold line
  split <;> simp

/-- A tag is one byte. -/
theorem itemType_eq_ok {bytes rest : Bytes} {announced : ItemType}
    (h : itemType bytes = .ok (announced, rest)) : bytes = announced.tag :: rest := by
  obtain ⟨tag, behind, hbyte, htag⟩ := bind_eq_ok.mp h
  cases bytes with
  | nil => cases hbyte
  | cons first others =>
    cases hbyte
    cases hfound : ItemType.ofTag? tag with
    | none =>
      rw [hfound] at htag
      cases htag
    | some found =>
      rw [hfound] at htag
      cases htag
      rw [ItemType.eq_tag_of_ofTag? hfound]

namespace Stable

variable {α β : Type}

/-- A stable parser answers the same on a longer buffer. -/
theorem append {parser : Parse α} (hs : Stable parser) {bytes rest : Bytes} {a : α}
    (h : parser bytes = .ok (a, rest)) (more : Bytes) :
    parser (bytes ++ more) = .ok (a, rest ++ more) := by
  obtain ⟨taken, rfl, hreads⟩ := hs.reads h
  rw [List.append_assoc]
  exact hreads (rest ++ more)

/-- A result that is known already. -/
theorem pure (a : α) : Stable (Pure.pure a : Parse α) where
  reads h := by cases h; exact ⟨[], rfl, .pure a⟩
  breaks h := by cases h

/-- A parser that always stops with the same error. -/
theorem fail (e : ProtocolError) : Stable (Parse.fail e : Parse α) where
  reads h := by cases h
  breaks h _ := by cases h; rfl

/-- A parser that finds no packet. -/
theorem invalid (what : String) : Stable (Parse.invalid what : Parse α) := fail _

/-- Two stable parsers in a row. -/
theorem bind {parser : Parse α} {next : α → Parse β} (h : Stable parser)
    (hnext : ∀ a, Stable (next a)) : Stable (parser >>= next) where
  reads hok := by
    obtain ⟨a, behind, hfirst, hsecond⟩ := bind_eq_ok.mp hok
    obtain ⟨first, rfl, hreads⟩ := h.reads hfirst
    obtain ⟨second, rfl, hreads'⟩ := (hnext a).reads hsecond
    exact ⟨first ++ second, by simp, hreads.bind hreads'⟩
  breaks herr more := by
    rcases bind_eq_error.mp herr with hfirst | ⟨a, behind, hfirst, hsecond⟩
    · exact bind_eq_error.mpr (.inl (h.breaks hfirst more))
    · exact bind_eq_error.mpr (.inr ⟨a, behind ++ more, h.append hfirst more,
        (hnext a).breaks hsecond more⟩)

/-- Changing the result of a stable parser. -/
theorem map {parser : Parse α} (f : α → β) (h : Stable parser) : Stable (f <$> parser) :=
  h.bind fun a => pure (f a)

/-- One byte. -/
theorem byte : Stable Parse.byte where
  reads {bytes a rest} h := by
    cases bytes with
    | nil => cases h
    | cons b behind => cases h; exact ⟨[a], rfl, .byte a⟩
  breaks {bytes e} h := by cases bytes <;> cases h

/-- A line. -/
theorem line : Stable Parse.line where
  reads h := by
    obtain ⟨hcontent, hbytes⟩ := line_eq_ok h
    exact ⟨_, hbytes, .line hcontent⟩
  breaks h := absurd h (line_ne_broken _ _)

/-- A number of bytes. -/
theorem take (n : Nat) : Stable (Parse.take n) where
  reads {bytes a rest} h := by
    simp only [Parse.take] at h
    split at h
    · rename_i hlen
      cases h
      have hreads := Reads.take (bytes.take n)
      rw [hlen] at hreads
      exact ⟨bytes.take n, (List.take_append_drop n bytes).symm, hreads⟩
    · cases h
  breaks {bytes e} h := by
    simp only [Parse.take] at h
    split at h <;> cases h

/-- The newline after a payload. -/
theorem endOfPayload : Stable Parse.endOfPayload := by
  refine byte.bind fun b => ?_
  split
  · exact pure ()
  · exact invalid _

/-- A payload. -/
theorem payload (n : Nat) : Stable (Parse.payload n) :=
  (take n).bind fun bytes => endOfPayload.bind fun _ => pure bytes

/-- The number that a line stands for. -/
theorem countOf (what : String) (digits : Bytes) : Stable (Parse.countOf what digits) := by
  unfold Parse.countOf
  split
  · exact pure _
  · exact invalid _

/-- A count. -/
theorem count (what : String) : Stable (Parse.count what) :=
  line.bind fun digits => countOf what digits

/-- A type tag. -/
theorem itemType : Stable Parse.itemType := by
  refine byte.bind fun tag => ?_
  split
  · exact pure _
  · exact invalid _

/-- The turns of a repetition that are still to come. -/
theorem repeatedGo {item : Nat → Parse α} (h : ∀ turn, Stable (item turn)) (n turn : Nat)
    (found : List α) : Stable (Parse.repeated.go item n turn found) := by
  induction n generalizing turn found with
  | zero => exact pure _
  | succ n ih => exact (h turn).bind fun a => ih (turn + 1) (a :: found)

/-- A repetition of stable parsers. -/
theorem repeated {item : Nat → Parse α} (h : ∀ turn, Stable (item turn)) (n : Nat) :
    Stable (Parse.repeated item n) := repeatedGo h n 0 []

end Stable

end Parse

end StoreClient
