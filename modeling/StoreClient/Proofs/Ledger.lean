import StoreClient.Pool
import Mathlib.Data.Multiset.UnionInter
import Mathlib.Logic.Relation

/-!
# The ledger of a pool

A pool keeps three accounts of its connections: how many there are, the numbers of the open
ones, and the queue of the idle ones. They are changed in different places, while members
are lent, opened, given back and dropped in any order. This file proves that the accounts
agree after every order of steps, and that nothing is ever taken from the count that was
not counted before.
-/

namespace StoreClient

/-- A pool with everything that it has given out. -/
structure Ledger where
  pool : Pool
  /-- The members with their borrowers, those that a broadcast holds included. -/
  lent : Multiset Member
  /-- How many members are being opened, each in room that was reserved for it. -/
  openings : Nat

namespace Ledger

/-- The ledger of a pool that has given out nothing. -/
def start (pool : Pool) : Ledger := ⟨pool, 0, 0⟩

/-- One step of a pool and its borrowers. Whatever happens to a connection that is being
opened or lent is left open. -/
inductive Step : Ledger → Ledger → Prop where
  /-- An idle member is borrowed. -/
  | lend {pool rest : Pool} {lent : Multiset Member} {openings : Nat} {wouldWait : Bool}
      {member : Member} : pool.borrow wouldWait = .lent member rest →
      Step ⟨pool, lent, openings⟩ ⟨rest, member ::ₘ lent, openings⟩
  /-- Room is reserved, and the opening of a member starts. -/
  | reserve {pool reserved : Pool} {lent : Multiset Member} {openings : Nat} {wouldWait : Bool} :
      pool.borrow wouldWait = .reserved reserved →
      Step ⟨pool, lent, openings⟩ ⟨reserved, lent, openings + 1⟩
  /-- An opening succeeds, and the member is lent. -/
  | opened {pool enrolled : Pool} {lent : Multiset Member} {openings : Nat} {conn : Connection}
      {member : Member} : pool.enroll conn = (.ok member, enrolled) →
      Step ⟨pool, lent, openings + 1⟩ ⟨enrolled, member ::ₘ lent, openings⟩
  /-- An opening succeeds, but the pool does not take the member any more. -/
  | openedLate {pool refused : Pool} {lent : Multiset Member} {openings : Nat}
      {conn : Connection} {e : Error} : pool.enroll conn = (.error e, refused) →
      Step ⟨pool, lent, openings + 1⟩ ⟨refused, lent, openings⟩
  /-- An opening fails, wherever it does, or is given up. -/
  | openFails {pool : Pool} {lent : Multiset Member} {openings : Nat} :
      Step ⟨pool, lent, openings + 1⟩ ⟨pool.unreserve, lent, openings⟩
  /-- A lent member is used, which may close it. -/
  | use {pool : Pool} {lent : Multiset Member} {openings : Nat} {member : Member}
      (conn : Connection) :
      Step ⟨pool, member ::ₘ lent, openings⟩ ⟨pool, { member with conn } ::ₘ lent, openings⟩
  /-- A lent member comes back. -/
  | release {pool : Pool} {lent : Multiset Member} {openings : Nat} {member : Member} :
      Step ⟨pool, member ::ₘ lent, openings⟩ ⟨pool.release member, lent, openings⟩
  /-- A broadcast takes an idle member. -/
  | visit {pool rest : Pool} {lent : Multiset Member} {openings : Nat} {member : Member}
      {broadcast after : Broadcast} : broadcast.next pool = .visit member after rest →
      Step ⟨pool, lent, openings⟩ ⟨rest, member ::ₘ lent, openings⟩
  /-- The settings of new members change. -/
  | settings {pool : Pool} {lent : Multiset Member} {openings : Nat} (template : Config) :
      Step ⟨pool, lent, openings⟩ ⟨{ pool with template }, lent, openings⟩
  /-- The pool is closed. -/
  | close {pool : Pool} {lent : Multiset Member} {openings : Nat} :
      Step ⟨pool, lent, openings⟩ ⟨pool.close, lent, openings⟩

/-- Steps in a row. -/
abbrev Reaches : Ledger → Ledger → Prop := Relation.ReflTransGen Step

/-- The accounts of a pool of this capacity agree. -/
structure Balanced (capacity : Nat) (ledger : Ledger) : Prop where
  capacity_eq : ledger.pool.capacity = capacity
  /-- The count is that of the idle members, the lent ones and the rooms reserved. -/
  opened_eq : ledger.pool.opened =
    ledger.pool.idle.length + ledger.lent.card + ledger.openings
  opened_le : ledger.pool.opened ≤ capacity
  /-- The open members are the idle and the lent ones. -/
  live_eq : (ledger.pool.live : Multiset Nat) =
    Multiset.ofList (ledger.pool.idle.map Member.id) + ledger.lent.map Member.id
  /-- No number is given twice. -/
  nodup_live : ledger.pool.live.Nodup
  lt_nextId : ∀ id ∈ ledger.pool.live, id < ledger.pool.nextId

/-- Whatever is taken from the count now was counted before. Each field is one of the
places where the pool takes from it. -/
structure Covered (ledger : Ledger) : Prop where
  /-- An opening that fails. -/
  unreserve : ledger.openings ≠ 0 → ledger.pool.unreserve.opened + 1 = ledger.pool.opened
  /-- An opening that ends when the pool is closed. -/
  enroll : ledger.openings ≠ 0 → ledger.pool.closed = true → ∀ conn,
    (ledger.pool.enroll conn).2.opened + 1 = ledger.pool.opened
  /-- A member that comes back and is dropped. -/
  release : ∀ member ∈ ledger.lent, member.conn.isClosed = true ∨ ledger.pool.closed = true →
    (ledger.pool.release member).opened + 1 = ledger.pool.opened
  /-- The idle members that are closed with the pool. -/
  close : ledger.pool.close.opened + ledger.pool.idle.length = ledger.pool.opened

end Ledger

namespace Pool

variable {pool after : Pool} {member : Member} {conn : Connection}

/-- Only an idle member is lent, and it leaves the queue. -/
theorem borrow_eq_lent {wouldWait : Bool} (h : pool.borrow wouldWait = .lent member after) :
    pool.idle = member :: after.idle ∧ after = { pool with idle := after.idle } := by
  unfold borrow at h
  split at h
  · cases h
  · split at h
    · rename_i hidle
      cases h
      exact ⟨hidle, rfl⟩
    · split at h <;> cases h

/-- Room is reserved below the capacity only. -/
theorem borrow_eq_reserved {wouldWait : Bool} (h : pool.borrow wouldWait = .reserved after) :
    pool.opened < pool.capacity ∧ after = { pool with opened := pool.opened + 1 } := by
  unfold borrow at h
  split at h
  · cases h
  · split at h
    · cases h
    · split at h
      · rename_i hroom
        cases h
        rw [Bool.and_eq_true, decide_eq_true_eq] at hroom
        exact ⟨hroom.2, rfl⟩
      · cases h

/-- A closed pool reserves no room. -/
theorem closed_of_borrow {wouldWait : Bool} (h : pool.borrow wouldWait = .reserved after) :
    after.closed = false := by
  rw [(borrow_eq_reserved h).2]
  unfold borrow at h
  split at h
  · cases h
  · rename_i hopen
    exact Bool.not_eq_true _ ▸ hopen

/-- Giving the room back undoes reserving it. -/
theorem unreserve_of_borrow {wouldWait : Bool} (h : pool.borrow wouldWait = .reserved after) :
    after.unreserve = pool := by
  rw [(borrow_eq_reserved h).2]
  rfl

/-- A new member gets a number of its own. -/
theorem enroll_eq_ok (h : pool.enroll conn = (.ok member, after)) :
    member.id = pool.nextId ∧
      after = { pool with nextId := pool.nextId + 1, live := pool.nextId :: pool.live } := by
  unfold enroll at h
  dsimp only at h
  split at h
  · cases h
  · cases h
    exact ⟨rfl, rfl⟩

/-- A pool that does not take a new member drops its room. -/
theorem enroll_eq_error {e : Error} (h : pool.enroll conn = (.error e, after)) :
    after = { pool with nextId := pool.nextId + 1, opened := pool.opened - 1 } := by
  unfold enroll at h
  dsimp only at h
  split at h
  · cases h
    rfl
  · cases h

/-- Erasing what a search finds takes out just that item. -/
theorem perm_cons_eraseP {α : Type} {p : α → Bool} {items : List α} {a : α}
    (h : items.find? p = some a) : items.Perm (a :: items.eraseP p) := by
  induction items with
  | nil => cases h
  | cons first rest ih =>
    by_cases hfirst : p first = true
    · rw [List.find?_cons_of_pos hfirst] at h
      cases h
      rw [List.eraseP_cons_of_pos hfirst]
    · rw [List.find?_cons_of_neg hfirst] at h
      rw [List.eraseP_cons_of_neg hfirst]
      exact ((ih h).cons first).trans (List.Perm.swap a first _)

/-- Of numbers that are all different, those that are not in one part are the other part. -/
theorem filter_not_contains {live idle : List Nat} {lent : Multiset Nat} (hnodup : live.Nodup)
    (h : (live : Multiset Nat) = (idle : Multiset Nat) + lent) :
    ((live.filter fun id => !idle.contains id : List Nat) : Multiset Nat) = lent := by
  have hapart : Disjoint (idle : Multiset Nat) lent := by
    have hsum := Multiset.coe_nodup.mpr hnodup
    rw [h, Multiset.nodup_add] at hsum
    exact hsum.2.2
  have hidle : ∀ id ∈ (idle : Multiset Nat), ¬ (!idle.contains id) = true := by
    intro id hid
    rw [List.contains_iff_mem.mpr hid]
    decide
  have hlent : ∀ id ∈ lent, (!idle.contains id) = true := by
    intro id hid
    have hnot : id ∉ idle := fun hmem => Multiset.disjoint_left.mp hapart hmem hid
    simpa using hnot
  calc ((live.filter fun id => !idle.contains id : List Nat) : Multiset Nat)
      = Multiset.filter (fun id => (!idle.contains id) = true) live := by simp
    _ = Multiset.filter (fun id => (!idle.contains id) = true) (idle + lent) := by rw [h]
    _ = lent := by
      rw [Multiset.filter_add, Multiset.filter_eq_nil.mpr hidle, Multiset.filter_eq_self.mpr hlent,
        Multiset.zero_add]

/-- A broadcast takes its member out of the queue. -/
theorem visit_eq {broadcast next : Broadcast} (h : broadcast.next pool = .visit member next after) :
    (pool.idle : Multiset Member) = member ::ₘ (after.idle : Multiset Member) ∧
      after = { pool with idle := after.idle } := by
  unfold Broadcast.next at h
  split at h
  · cases h
  · split at h
    · cases h
    · dsimp only at h
      split at h
      · rename_i found hfound
        cases h
        exact ⟨Multiset.coe_eq_coe.mpr (perm_cons_eraseP hfound), rfl⟩
      · split at h <;> cases h

end Pool

/-- A pool starts without a connection. -/
theorem Pool.create_eq_ok {template : Config} {capacity : Nat} {pool : Pool}
    (h : create template capacity = .ok pool) :
    capacity ≠ 0 ∧ pool = ⟨capacity, template, [], [], false, 0, 1⟩ := by
  unfold create checkCapacity at h
  split at h
  · cases h
  · rename_i hcapacity
    cases h
    exact ⟨hcapacity, rfl⟩

namespace Ledger

namespace Balanced

variable {capacity : Nat} {pool rest : Pool} {lent : Multiset Member} {openings : Nat}
  {member : Member}

/-- A pool without a connection is balanced. -/
theorem start {template : Config} (h : Pool.create template capacity = .ok pool) :
    Balanced capacity (Ledger.start pool) := by
  obtain ⟨_, rfl⟩ := Pool.create_eq_ok h
  exact ⟨rfl, rfl, Nat.zero_le capacity, rfl, List.nodup_nil, nofun⟩

/-- A member that leaves the queue is lent. -/
theorem lend (h : Balanced capacity ⟨pool, lent, openings⟩)
    (hidle : (pool.idle : Multiset Member) = member ::ₘ (rest.idle : Multiset Member))
    (hrest : rest = { pool with idle := rest.idle }) :
    Balanced capacity ⟨rest, member ::ₘ lent, openings⟩ := by
  have hlength : pool.idle.length = rest.idle.length + 1 := by
    simpa using congrArg Multiset.card hidle
  have hids : Multiset.ofList (pool.idle.map Member.id) =
      member.id ::ₘ Multiset.ofList (rest.idle.map Member.id) := by
    simpa using congrArg (Multiset.map Member.id) hidle
  have hopened := h.opened_eq
  have hlive := h.live_eq
  rw [hrest]
  refine ⟨h.capacity_eq, ?_, h.opened_le, ?_, h.nodup_live, h.lt_nextId⟩
  · rw [Multiset.card_cons]
    dsimp only at hopened ⊢
    omega
  · dsimp only at hlive ⊢
    rw [hlive, hids, Multiset.map_cons, Multiset.cons_add, Multiset.add_cons]

/-- Room that is reserved counts. -/
theorem reserve (h : Balanced capacity ⟨pool, lent, openings⟩)
    (hroom : pool.opened < pool.capacity) :
    Balanced capacity ⟨{ pool with opened := pool.opened + 1 }, lent, openings + 1⟩ := by
  have hopened := h.opened_eq
  have hcapacity := h.capacity_eq
  refine ⟨hcapacity, ?_, ?_, h.live_eq, h.nodup_live, h.lt_nextId⟩
  · dsimp only at hopened ⊢
    omega
  · dsimp only at hcapacity ⊢
    omega

/-- A new member takes the room that was reserved for it, under a number of its own. -/
theorem opened (h : Balanced capacity ⟨pool, lent, openings + 1⟩) (hid : member.id = pool.nextId) :
    Balanced capacity
      ⟨{ pool with nextId := pool.nextId + 1, live := pool.nextId :: pool.live },
        member ::ₘ lent, openings⟩ := by
  have hopened := h.opened_eq
  have hlive := h.live_eq
  have hfresh : pool.nextId ∉ pool.live := fun hmem => absurd (h.lt_nextId _ hmem) (lt_irrefl _)
  refine ⟨h.capacity_eq, ?_, h.opened_le, ?_, List.nodup_cons.mpr ⟨hfresh, h.nodup_live⟩, ?_⟩
  · rw [Multiset.card_cons]
    dsimp only at hopened ⊢
    omega
  · dsimp only at hlive ⊢
    rw [← Multiset.cons_coe, hlive, Multiset.map_cons, hid, Multiset.add_cons]
  · rintro id hmem
    rcases List.mem_cons.mp hmem with rfl | hmem
    · exact Nat.lt_succ_self _
    · exact Nat.lt_succ_of_lt (h.lt_nextId id hmem)

/-- Room that is given back counts no more. -/
theorem openFails (h : Balanced capacity ⟨pool, lent, openings + 1⟩) {nextId : Nat}
    (hnext : pool.nextId ≤ nextId) :
    Balanced capacity ⟨{ pool with nextId, opened := pool.opened - 1 }, lent, openings⟩ := by
  have hopened := h.opened_eq
  have hle := h.opened_le
  refine ⟨h.capacity_eq, ?_, ?_, h.live_eq, h.nodup_live, fun id hid => ?_⟩
  · dsimp only at hopened ⊢
    omega
  · dsimp only at hle ⊢
    omega
  · exact Nat.lt_of_lt_of_le (h.lt_nextId id hid) hnext

/-- A member keeps its number when it is used. -/
theorem use (h : Balanced capacity ⟨pool, member ::ₘ lent, openings⟩) (conn : Connection) :
    Balanced capacity ⟨pool, { member with conn } ::ₘ lent, openings⟩ := by
  have hopened := h.opened_eq
  have hlive := h.live_eq
  rw [Multiset.card_cons] at hopened
  rw [Multiset.map_cons] at hlive
  refine ⟨h.capacity_eq, ?_, h.opened_le, ?_, h.nodup_live, h.lt_nextId⟩
  · rw [Multiset.card_cons]
    exact hopened
  · rw [Multiset.map_cons]
    exact hlive

/-- A member that comes back is queued, or it is dropped with its number and its room. -/
theorem release (h : Balanced capacity ⟨pool, member ::ₘ lent, openings⟩) :
    Balanced capacity ⟨pool.release member, lent, openings⟩ := by
  have hopened := h.opened_eq
  have hle := h.opened_le
  have hlive := h.live_eq
  rw [Multiset.card_cons] at hopened
  rw [Multiset.map_cons, Multiset.add_cons] at hlive
  unfold Pool.release
  split
  · refine ⟨h.capacity_eq, ?_, ?_, ?_, h.nodup_live.erase _, fun id hid => ?_⟩
    · dsimp only at hopened ⊢
      omega
    · dsimp only at hle ⊢
      omega
    · dsimp only at hlive ⊢
      rw [← Multiset.coe_erase, hlive, Multiset.erase_cons_head]
    · exact h.lt_nextId id (List.mem_of_mem_erase hid)
  · refine ⟨h.capacity_eq, ?_, h.opened_le, ?_, h.nodup_live, h.lt_nextId⟩
    · rw [List.length_append]
      dsimp only [List.length_singleton] at hopened ⊢
      omega
    · dsimp only at hlive ⊢
      rw [hlive, List.map_append, List.map_singleton, ← Multiset.coe_add, Multiset.coe_singleton,
        Multiset.add_assoc, Multiset.singleton_add, Multiset.add_cons]

/-- The idle members are dropped with their numbers and their rooms. -/
theorem close (h : Balanced capacity ⟨pool, lent, openings⟩) :
    Balanced capacity ⟨pool.close, lent, openings⟩ := by
  have hopened := h.opened_eq
  have hle := h.opened_le
  have hlive := h.live_eq
  refine ⟨h.capacity_eq, ?_, ?_, ?_, h.nodup_live.filter _, fun id hid => ?_⟩
  · dsimp only [Pool.close, List.length_nil] at hopened ⊢
    omega
  · dsimp only [Pool.close] at hle ⊢
    omega
  · rw [Pool.close, Pool.filter_not_contains h.nodup_live hlive]
    exact (Multiset.zero_add _).symm
  · exact h.lt_nextId id (List.mem_of_mem_filter hid)

/-- The count of a balanced pool covers everything that is taken from it. -/
theorem covered {ledger : Ledger} (h : Balanced capacity ledger) : ledger.Covered := by
  have hopened := h.opened_eq
  constructor
  · intro hopenings
    dsimp only [Pool.unreserve]
    omega
  · intro hopenings hclosed conn
    rw [Pool.enroll, if_pos hclosed]
    dsimp only [Pool.unreserve]
    omega
  · intro member hmember hdropped
    have hlent := Multiset.card_pos_iff_exists_mem.mpr ⟨member, hmember⟩
    rw [Pool.release, if_pos (by simpa using hdropped)]
    dsimp only
    omega
  · dsimp only [Pool.close]
    omega

end Balanced

/-- Every step keeps the accounts balanced. -/
theorem Step.balanced {capacity : Nat} {ledger after : Ledger} (h : Step ledger after)
    (hledger : Balanced capacity ledger) : Balanced capacity after := by
  cases h with
  | lend hborrow =>
    obtain ⟨hidle, hrest⟩ := Pool.borrow_eq_lent hborrow
    exact hledger.lend (congrArg Multiset.ofList hidle) hrest
  | reserve hborrow =>
    obtain ⟨hroom, rfl⟩ := Pool.borrow_eq_reserved hborrow
    exact hledger.reserve hroom
  | opened henroll =>
    obtain ⟨hid, rfl⟩ := Pool.enroll_eq_ok henroll
    exact hledger.opened hid
  | openedLate henroll =>
    rw [Pool.enroll_eq_error henroll]
    exact hledger.openFails (Nat.le_succ _)
  | openFails => exact hledger.openFails (le_refl _)
  | use conn => exact hledger.use conn
  | release => exact hledger.release
  | visit hvisit =>
    obtain ⟨hidle, hrest⟩ := Pool.visit_eq hvisit
    exact hledger.lend hidle hrest
  | settings template =>
    exact ⟨hledger.capacity_eq, hledger.opened_eq, hledger.opened_le, hledger.live_eq,
      hledger.nodup_live, hledger.lt_nextId⟩
  | close => exact hledger.close

/-- The accounts stay balanced over steps in a row. -/
theorem Reaches.balanced {capacity : Nat} {ledger after : Ledger} (h : ledger.Reaches after)
    (hledger : Balanced capacity ledger) : Balanced capacity after := by
  induction h with
  | refl => exact hledger
  | tail _ hstep ih => exact hstep.balanced ih

end Ledger

end StoreClient
