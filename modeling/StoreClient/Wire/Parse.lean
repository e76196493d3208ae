import StoreClient.Error
import StoreClient.Number.Numeral

/-!
# Parsing bytes

A parser takes bytes from the front and answers with a result and the bytes after
it. It stops in two ways: the bytes end too early, or they break the protocol.
`Takes` bounds from below how many bytes a parser takes.
-/

namespace StoreClient

/-- Why a parser stopped. -/
inductive Stop where
  /-- The bytes end before the item does. -/
  | incomplete
  /-- The bytes break the protocol. -/
  | broken (e : ProtocolError)
  deriving DecidableEq, Repr

/-- A parser of bytes. -/
abbrev Parse := StateT Bytes (Except Stop)

namespace Parse

/-- Stop because the bytes break the protocol. -/
def fail {α : Type} (e : ProtocolError) : Parse α := fun _ => .error (.broken e)

/-- Stop because the bytes are no packet. -/
def invalid {α : Type} (what : String) : Parse α := fail (.invalidPacket what)

/-- The next byte. -/
def byte : Parse UInt8 := fun bytes =>
  match bytes with
  | [] => .error .incomplete
  | b :: rest => .ok (b, rest)

/-- The bytes up to the next newline, which is taken too. -/
def line : Parse Bytes := fun bytes =>
  match bytes.dropWhile (· ≠ 10) with
  | [] => .error .incomplete
  | _ :: rest => .ok (bytes.takeWhile (· ≠ 10), rest)

/-- The next `n` bytes. -/
def take (n : Nat) : Parse Bytes := fun bytes =>
  let taken := bytes.take n
  if taken.length = n then .ok (taken, bytes.drop n) else .error .incomplete

/-- The newline after a payload. -/
def endOfPayload : Parse Unit := do
  let b ← byte
  if b = 10 then pure ()
  else invalid ("expected newline after payload, got " ++ Text.quotedChar (Text.charOfByte b))

/-- A payload of `n` bytes and its newline. -/
def payload (n : Nat) : Parse Bytes := do
  let bytes ← take n
  endOfPayload
  pure bytes

/-- The count or size that a line stands for; `what` names it in the error. -/
def countOf (what : String) (digits : Bytes) : Parse Nat :=
  match Numeral.count? digits with
  | some n => pure n
  | none => invalid (s!"invalid {what} " ++ Text.quoted (Utf8.decodeLossy digits))

/-- A line that holds a count or a size. -/
def count (what : String) : Parse Nat := do
  countOf what (← line)

/-- A type tag. -/
def itemType : Parse ItemType := do
  let tag ← byte
  match ItemType.ofTag? tag with
  | some type => pure type
  | none => invalid ("unknown type tag " ++ Text.quotedChar (Text.charOfByte tag))

/-- One parser `n` times, the number of each turn given to it. The results found so
far are kept in reverse. -/
def repeated {α : Type} (item : Nat → Parse α) (n : Nat) : Parse (List α) := go n 0 []
where
  /-- The remaining turns, the number of the next one, and the results so far. -/
  go : Nat → Nat → List α → Parse (List α)
    | 0, _, found => pure found.reverse
    | n + 1, turn, found => do
      let a ← item turn
      go n (turn + 1) (a :: found)

/-- Whenever the parser succeeds it takes at least `k` bytes. -/
def Takes {α : Type} (k : Nat) (parser : Parse α) : Prop :=
  ∀ bytes a rest, parser bytes = .ok (a, rest) → rest.length + k ≤ bytes.length

namespace Takes

/-- A parser that takes at least `k` bytes takes at least any smaller number. -/
theorem mono {α : Type} {j k : Nat} {parser : Parse α} (h : Takes k parser) (hjk : j ≤ k) :
    Takes j parser := fun bytes a rest hok => by
  have := h bytes a rest hok
  omega

/-- A result that is known already takes nothing. -/
theorem pure {α : Type} (a : α) : Takes 0 (Pure.pure a : Parse α) := fun bytes b rest hok => by
  cases hok
  simp

/-- Two parsers in a row take what each of them takes. -/
theorem bind {α β : Type} {j k : Nat} {parser : Parse α} {next : α → Parse β}
    (h : Takes j parser) (hnext : ∀ a, Takes k (next a)) : Takes (j + k) (parser >>= next) := by
  intro bytes b rest hok
  change (parser bytes >>= fun r => next r.1 r.2) = _ at hok
  cases hp : parser bytes with
  | error stop => rw [hp] at hok; cases hok
  | ok r =>
    rw [hp] at hok
    have h₁ := h bytes r.1 r.2 hp
    have h₂ := hnext r.1 r.2 b rest hok
    omega

/-- A parser takes what it takes, whatever follows it. -/
theorem first {α β : Type} {k : Nat} {parser : Parse α} {next : α → Parse β}
    (h : Takes k parser) (hnext : ∀ a, Takes 0 (next a)) : Takes k (parser >>= next) :=
  h.bind hnext

/-- A parser that never succeeds meets every bound. -/
theorem fail {α : Type} (k : Nat) (e : ProtocolError) : Takes k (Parse.fail e : Parse α) :=
  fun _ _ _ hok => by cases hok

/-- A parser that never succeeds meets every bound. -/
theorem invalid {α : Type} (k : Nat) (what : String) : Takes k (Parse.invalid what : Parse α) :=
  fail k _

/-- One byte is taken. -/
theorem byte : Takes 1 Parse.byte := by
  intro bytes b rest hok
  cases bytes with
  | nil => cases hok
  | cons b bytes => cases hok; simp

/-- A line takes at least its newline. -/
theorem line : Takes 1 Parse.line := by
  intro bytes a rest hok
  have hsub := (List.dropWhile_suffix (l := bytes) (fun b => decide (b ≠ 10))).length_le
  unfold Parse.line at hok
  split at hok
  · cases hok
  · rename_i hdrop
    cases hok
    rw [hdrop] at hsub
    simpa using hsub

/-- `n` bytes are taken. -/
theorem take (n : Nat) : Takes n (Parse.take n) := by
  intro bytes a rest hok
  unfold Parse.take at hok
  simp only [List.length_take] at hok
  split at hok
  · cases hok
    rw [List.length_drop]
    omega
  · cases hok

/-- The newline after a payload is taken. -/
theorem endOfPayload : Takes 1 Parse.endOfPayload := by
  unfold Parse.endOfPayload
  refine byte.first fun b => ?_
  split
  · exact pure ()
  · exact invalid 0 _

/-- A payload takes its bytes and a newline. -/
theorem payload (n : Nat) : Takes (n + 1) (Parse.payload n) :=
  (take n).bind fun _ => endOfPayload.first fun _ => pure _

/-- The digits of a count were taken before. -/
theorem countOf (what : String) (digits : Bytes) : Takes 0 (Parse.countOf what digits) := by
  unfold Parse.countOf
  split
  · exact pure _
  · exact invalid 0 _

/-- A count takes at least its newline. -/
theorem count (what : String) : Takes 1 (Parse.count what) :=
  line.first fun _ => countOf what _

/-- A tag takes one byte. -/
theorem itemType : Takes 1 Parse.itemType := by
  unfold Parse.itemType
  refine byte.first fun tag => ?_
  split
  · exact pure _
  · exact invalid 0 _

end Takes

end Parse

end StoreClient
