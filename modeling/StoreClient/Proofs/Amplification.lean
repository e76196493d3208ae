import StoreClient.Proofs.Cursors
import StoreClient.Proofs.Salvage
import StoreClient.Proofs.WellFormed

/-!
# Headers buy no work

The header of a batch or an array may announce any count, and the decoder loops as often as the
header says. Every turn takes two bytes or more, so the loops end with the bytes. So it is with the
values that come of them: what is returned takes two bytes for each value, at all depths.
`Parse.Pays` says so of a parser. The main statement is `Batch.headers_buy_no_work`.
-/

namespace StoreClient

namespace Value

mutual

/-- How many values there are in a value, itself included. -/
def count : Value → Nat
  | array _ items => 1 + countItems items
  | _ => 1

/-- How many values there are in a list of values. -/
def countItems : List Value → Nat
  | [] => 0
  | item :: items => count item + countItems items

end

mutual

/-- How many levels of arrays there are in a value. -/
def levels : Value → Nat
  | array _ items => levelsOfItems items + 1
  | _ => 0

/-- How many levels of arrays there are in a list of values. -/
def levelsOfItems : List Value → Nat
  | [] => 0
  | item :: items => max (levels item) (levelsOfItems items)

end

/-- A value counts itself. -/
theorem one_le_count (v : Value) : 1 ≤ v.count := by
  cases v with
  | array shape items =>
    rw [count]
    omega
  | _ => exact Nat.le_refl 1

/-- What is no array is one value. -/
theorem count_of_isArray_eq_false {v : Value} (h : v.isArray = false) : v.count = 1 := by
  cases v with
  | array => cases h
  | _ => rfl

/-- The values of two lists in a row are counted list by list. -/
theorem countItems_append (items more : List Value) :
    countItems (items ++ more) = countItems items + countItems more := by
  induction items with
  | nil => simp [countItems]
  | cons item items ih =>
    rw [List.cons_append, countItems, countItems, ih]
    omega

/-- The order of the items does not count. -/
theorem countItems_reverse (items : List Value) : countItems items.reverse = countItems items := by
  induction items with
  | nil => rfl
  | cons item items ih =>
    rw [List.reverse_cons, countItems_append, ih, countItems, countItems, countItems]
    omega

/-- A list of values has no more levels than each of them may have. -/
theorem levelsOfItems_le {n : Nat} {items : List Value} (h : ∀ item ∈ items, item.levels ≤ n) :
    levelsOfItems items ≤ n := by
  induction items with
  | nil => exact Nat.zero_le n
  | cons item items ih =>
    have hitem : item.levels ≤ n := h item List.mem_cons_self
    have hitems : levelsOfItems items ≤ n := ih fun a ha => h a (List.mem_cons_of_mem item ha)
    rw [levelsOfItems]
    omega

/-- A well-formed value has no more levels than it may have. -/
theorem WellFormed.levels_le {n : Nat} {v : Value} (h : v.WellFormed n) : v.levels ≤ n := by
  induction h with
  | @scalar n v hscalar _ =>
    cases v with
    | array => cases hscalar
    | _ => exact Nat.zero_le n
  | array _ _ _ ih =>
    have hitems := levelsOfItems_le ih
    rw [levels]
    omega

end Value

/-- Only arrays with tagged items hold arrays. -/
theorem ArrayShape.Holds.isArray_eq_false {shape : ArrayShape} {v : Value} (h : shape.Holds v)
    (hshape : shape ≠ .nested) : v.isArray = false := by
  cases shape with
  | nested => exact absurd rfl hshape
  | flat => exact h.2
  | any =>
    obtain ⟨text, rfl⟩ | ⟨bytes, rfl, _⟩ := h
    · rfl
    · rfl
  | typed element nonNull =>
    obtain ⟨rfl, _⟩ | ⟨_, htype⟩ := h
    · rfl
    · exact Value.isArray_eq_false_of_scalarType? htype

namespace Parse

variable {α β : Type}

/-- What the parser answers with costs no more bytes than it took. -/
def Pays (cost : α → Nat) (parser : Parse α) : Prop :=
  ∀ bytes a rest, parser bytes = .ok (a, rest) → rest.length + cost a ≤ bytes.length

/-- What a walk passes is taken by the parser that it follows. -/
theorem Takes.of_follows {k : Nat} {walk : Walk α} {parser : Parse α}
    (h : Walk.Follows k walk parser) : Takes k parser := by
  intro bytes a rest hok
  have hagrees := h bytes .start (Nat.zero_le _)
  change Walk.Agrees bytes .start k (parser bytes) _ at hagrees
  rw [hok] at hagrees
  generalize walk bytes .start = result at hagrees
  cases hagrees with
  | finds hmoves =>
    obtain ⟨hinside, -, hpaid, -⟩ := hmoves
    simp only [Cursor.start] at hpaid
    rw [List.length_drop]
    omega

namespace Pays

variable {cost : α → Nat} {price : β → Nat} {j k : Nat} {parser : Parse α}

/-- What takes enough bytes pays for what it ensures to cost no more. -/
theorem of_takes (h : Takes k parser) (hcost : Ensures parser fun a => cost a ≤ k) :
    Pays cost parser := by
  intro bytes a rest hok
  have htaken := h bytes a rest hok
  have hcheap := hcost bytes a rest hok
  omega

/-- A parser pays for what costs less. -/
theorem mono {cheaper : α → Nat} (h : Pays cost parser) (hcost : ∀ a, cheaper a ≤ cost a) :
    Pays cheaper parser := by
  intro bytes a rest hok
  have hpaid := h bytes a rest hok
  have hcheaper := hcost a
  omega

/-- Two parsers in a row pay with the bytes of both. -/
theorem bind {next : α → Parse β} (h : Takes k parser) (hnext : ∀ a, Pays price (next a)) :
    Pays (fun b => k + price b) (parser >>= next) := by
  intro bytes b rest hok
  obtain ⟨a, behind, hfirst, hsecond⟩ := bind_eq_ok.mp hok
  have htaken := h bytes a behind hfirst
  have hpaid := hnext a behind b rest hsecond
  dsimp only
  omega

/-- Another answer at the same cost. -/
theorem map (f : α → β) (h : Pays cost parser) (hcost : ∀ a, price (f a) ≤ cost a) :
    Pays price (f <$> parser) := by
  intro bytes b rest hok
  obtain ⟨a, hfirst, rfl⟩ := map_eq_ok.mp hok
  have hpaid := h bytes a rest hfirst
  have hprice := hcost a
  omega

/-- The turns that are still to come pay for what they answer with. -/
theorem repeatedGo {item : Nat → Parse Value} (h : ∀ turn, Pays (fun v => 2 * v.count) (item turn))
    (n turn : Nat) (found : List Value) {bytes rest : Bytes} {all : List Value}
    (hok : Parse.repeated.go item n turn found bytes = .ok (all, rest)) :
    rest.length + 2 * Value.countItems all ≤ bytes.length + 2 * Value.countItems found := by
  induction n generalizing turn found bytes with
  | zero =>
    cases hok
    rw [Value.countItems_reverse]
  | succ n ih =>
    obtain ⟨v, behind, hitem, hgo⟩ := bind_eq_ok.mp hok
    have hpaid := h turn bytes v behind hitem
    have hrest := ih (turn + 1) (v :: found) hgo
    rw [Value.countItems] at hrest
    dsimp only at hpaid
    omega

/-- Every turn of a repetition pays for its value. -/
theorem repeated {item : Nat → Parse Value} (h : ∀ turn, Pays (fun v => 2 * v.count) (item turn))
    (n : Nat) : Pays (fun items => 2 * Value.countItems items) (Parse.repeated item n) := by
  intro bytes items rest hok
  exact repeatedGo h n 0 [] hok

/-- What is no array costs two bytes. -/
theorem ofScalar {parser : Parse Value} (h : Takes 2 parser)
    (hscalar : Ensures parser fun v => v.isArray = false) :
    Pays (fun v => 2 * v.count) parser := by
  apply of_takes h
  intro bytes v rest hok
  rw [Value.count_of_isArray_eq_false (hscalar bytes v rest hok)]

/-- A scalar inside an array. -/
theorem unflawedScalar (type : ScalarType) :
    Pays (fun v => 2 * v.count) (Parse.unflawed (Parse.scalar type)) := by
  apply ofScalar (Takes.of_follows (Walk.Follows.scalar type).unflawed)
  intro bytes v rest hok
  have hscalar := Ensures.unflawed (Ensures.scalar type) bytes v rest hok
  exact Value.isArray_eq_false_of_scalarType? hscalar.scalarType?_eq

/-- An item that is no array by the shape of its array. -/
theorem ofHolds {parser : Parse Value} {shape : ArrayShape} (h : Takes 2 parser)
    (hholds : Ensures parser fun v => shape.Holds v ∧ v.WellFormed 0) (hshape : shape ≠ .nested) :
    Pays (fun v => 2 * v.count) parser := by
  apply ofScalar h
  intro bytes v rest hok
  exact (hholds bytes v rest hok).1.isArray_eq_false hshape

/-- An item costs two bytes for each of its values, if the arrays inside it do but for one byte, which
is their tag. -/
theorem arrayItem {room : Nat}
    (hinner : ∀ kind, Pays (fun v => 2 * v.count - 1) (Parse.array room kind))
    (shape : ArrayShape) (index : Nat) :
    Pays (fun v => 2 * v.count) (Parse.arrayItem room shape index) := by
  cases shape with
  | nested =>
    have htagged : Pays (fun v => 1 + (2 * v.count - 1))
        (Parse.arrayItem room .nested index) := by
      apply bind Takes.itemType
      intro declared
      cases declared with
      | scalar type =>
        apply (unflawedScalar type).mono
        intro v
        omega
      | array kind => exact hinner kind
    apply htagged.mono
    intro v
    have hcount := v.one_le_count
    omega
  | flat =>
    have htakes : Takes 2 (flatItem index) := .of_follows (Walk.Follows.flatItem index)
    exact ofHolds htakes (Ensures.flatItem 0 index) (by decide)
  | any =>
    have htakes : Takes 2 anyItem := .of_follows Walk.Follows.anyItem
    exact ofHolds htakes (Ensures.anyItem 0) (by decide)
  | typed element nonNull =>
    have htakes : Takes 2 (typedElement element nonNull) :=
      .of_follows (Walk.Follows.typedElement element nonNull)
    exact ofHolds htakes (Ensures.typedElement 0 element nonNull) (by simp)

/-- An array costs two bytes for each of its values, but its own tag was taken before. This is by
induction on the levels of arrays that it has room for. -/
theorem array (room : Nat) (kind : ArrayKind) :
    Pays (fun v => 2 * v.count - 1) (Parse.array room kind) := by
  induction room generalizing kind with
  | zero =>
    intro bytes v rest hok
    cases hok
  | succ room ih =>
    rw [array_succ]
    have hpays : Pays (fun v => 1 + (2 * v.count - 2))
        (arrayHeader kind >>= fun header =>
          Value.array header.1 <$> Parse.repeated (Parse.arrayItem room header.1) header.2) := by
      apply bind (Takes.arrayHeader kind)
      intro header
      apply (repeated (arrayItem ih header.1) header.2).map
      intro items
      rw [Value.count]
      omega
    apply hpays.mono
    intro v
    have hcount := v.one_le_count
    omega

/-- An entry costs two bytes for each of its values. -/
theorem entry : Pays (fun e => 2 * e.value.count) Parse.entry := by
  have hpays : Pays (fun e => 1 + (2 * e.value.count - 1)) Parse.entry := by
    apply bind Takes.itemType
    intro declared
    cases declared with
    | scalar type =>
      have hscalar : Takes 2 (Parse.scalar type) := Takes.of_follows (Walk.Follows.scalar type)
      intro bytes e rest hok
      obtain ⟨flawed, behind, hfirst, hpure⟩ := bind_eq_ok.mp hok
      have htaken := hscalar bytes flawed behind hfirst
      have hread := Ensures.scalar type bytes flawed behind hfirst
      cases hpure
      have hcount := Value.count_of_isArray_eq_false hread.isArray_eq_false
      dsimp only
      omega
    | array kind =>
      have hentry := fun v : Value => Nat.le_refl (2 * v.count - 1)
      exact (array maxDepth kind).map (fun v => (⟨.array kind, v, none⟩ : Entry)) hentry
  apply hpays.mono
  intro e
  have hcount := e.value.one_le_count
  omega

end Pays

end Parse

namespace Batch

/-- The entries stand in these parts of the buffer, one after the other behind the header. -/
def StandIn (buffer : Bytes) (found : List Entry) (parts : List Bytes) : Prop :=
  found = [] ∧ parts = [] ∨ ∃ count header rest, Parse.Reads Parse.batchHeader header count ∧
    buffer = header ++ (parts.flatten ++ rest) ∧
    List.Forall₂ (fun entry part => Parse.Reads Parse.entry part entry) found parts

/-- The entries of a batch cost two bytes for each of their values. -/
theorem two_mul_count_le {found : List Entry} {parts : List Bytes}
    (h : List.Forall₂ (fun entry part => Parse.Reads Parse.entry part entry) found parts) :
    2 * Value.countItems (found.map Entry.value) ≤ parts.flatten.length := by
  induction h with
  | nil => exact Nat.le_refl 0
  | @cons entry part found parts hreads _ ih =>
    have hentry := hreads []
    rw [List.append_nil] at hentry
    have hpaid := Parse.Pays.entry part entry [] hentry
    rw [List.map_cons, Value.countItems, List.flatten_cons, List.length_append]
    simp only [List.length_nil] at hpaid
    omega

/-- What is left of a batch stands in the buffer, and costs two bytes for each value. -/
theorem exists_parts (buffer : Bytes) : ∃ parts, StandIn buffer (decodedEntries buffer) parts ∧
    2 * Value.countItems ((decodedEntries buffer).map Entry.value) ≤ parts.flatten.length := by
  have hcomplete : Complete buffer (decodedEntries buffer) := complete_iff.mpr rfl
  generalize decodedEntries buffer = found at hcomplete ⊢
  cases hcomplete with
  | headless _ => exact ⟨[], .inl ⟨rfl, rfl⟩, Nat.le_refl 0⟩
  | @headed count header rest parts _ hbuffer hheader hstand _ =>
    exact ⟨parts, .inr ⟨count, header, rest, hheader, hbuffer, hstand⟩, two_mul_count_le hstand⟩

/-- The decoder returns the entries that are left of the batch, or none while it is incomplete. -/
theorem entries_decode (buffer : Bytes) :
    (decode buffer).entries = decodedEntries buffer ∨ (decode buffer).entries = [] := by
  cases hdecode : decode buffer with
  | incomplete => exact .inr rfl
  | complete found size => exact .inl (decodedEntries_of_complete hdecode).symm
  | broken failure =>
    obtain ⟨e, -, rfl⟩ := decode_eq_broken_iff.mp hdecode
    exact .inl rfl

/-- **Headers buy no work.** Whatever counts and sizes the buffer announces, a reader in place
decodes it without using a place outside of it. Together its loops complete no more than one turn
for two bytes that it passed, and it enters no more levels of arrays than the limit. The entries that
are returned, and those that are left of a batch that breaks, hold no more levels of arrays either,
and no more values at all depths than one for two bytes that they stand in. -/
theorem headers_buy_no_work (buffer : Bytes) :
    (∃ reached, Walk.decode buffer = (some (decode buffer), reached) ∧
      reached.pos ≤ buffer.length ∧ 2 * reached.turns ≤ reached.pos ∧
      reached.deepest ≤ maxDepth) ∧
    ∀ found, found = (decode buffer).entries ∨ found = decodedEntries buffer →
      (∀ entry ∈ found, entry.value.levels ≤ maxDepth) ∧
      ∃ parts, StandIn buffer found parts ∧
        2 * Value.countItems (found.map Entry.value) ≤ parts.flatten.length := by
  constructor
  · obtain ⟨reached, hdecode, hinside, -, hpaid, hdeepest⟩ := Walk.decode_agrees buffer
    simp only [Cursor.start] at hpaid hdeepest
    refine ⟨reached, hdecode, hinside, ?_, ?_⟩
    · omega
    · omega
  · intro found hfound
    have hcases : found = decodedEntries buffer ∨ found = [] := by
      rcases hfound with rfl | rfl
      · exact entries_decode buffer
      · exact .inl rfl
    rcases hcases with rfl | rfl
    · constructor
      · intro entry hentry
        exact (decodedEntries_wellFormed buffer entry hentry).value.levels_le
      · exact exists_parts buffer
    · constructor
      · simp
      · exact ⟨[], .inl ⟨rfl, rfl⟩, Nat.le_refl 0⟩

/-- A batch that announces as many entries as can be announced. The first is an array of two values,
and the second breaks the batch. -/
theorem headers_buy_no_work_huge :
    let buffer := Utf8.encode "*18446744073709551615\n&2\n+1\na\n&0\n!1\n4\n"
    let first : Entry := ⟨.array .nested, .array .nested [.string "a", .array .nested []], none⟩
    decode buffer = .broken ⟨[first], .protocol .packetError⟩ ∧
      ∃ parts, StandIn buffer [first] parts ∧ 2 * 3 ≤ parts.flatten.length := by
  intro buffer first
  have hdecode : decode buffer = .broken ⟨[first], .protocol .packetError⟩ := by rfl
  obtain ⟨-, hentries⟩ := headers_buy_no_work buffer
  rw [hdecode] at hentries
  obtain ⟨-, hparts⟩ := hentries [first] (.inl rfl)
  exact ⟨hdecode, hparts⟩

end Batch

end StoreClient
