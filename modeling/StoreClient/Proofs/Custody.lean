import StoreClient.Proofs.Lending

/-!
# Who has a member

The numbers of a pool are given once: one that was given and is not open any more stays out of
the pool. The queue holds open members only, so whatever is taken from it is open. Both are
kept by every step of a ledger, and so by every run, whatever becomes of the members that come
back.
-/

namespace StoreClient

/-- A pool with room starts without a connection. -/
theorem Pool.create_eq (template : Config) {capacity : Nat} (h : 1 ≤ capacity) :
    create template capacity = .ok ⟨capacity, template, [], [], false, 0, 1⟩ := by
  unfold create checkCapacity
  rw [if_neg (Nat.one_le_iff_ne_zero.mp h)]
  rfl

/-- A desk starts with such a pool. -/
theorem Desk.create_eq (template : Config) {capacity : Nat} (h : 1 ≤ capacity) (net : Network) :
    create template capacity net =
      .ok ⟨⟨capacity, template, [], [], false, 0, 1⟩, net, [], []⟩ := by
  unfold create
  rw [Pool.create_eq template h]
  rfl

namespace Pool

/-- The open numbers of a later pool are open numbers of this one, or new ones. -/
structure Renews (pool later : Pool) : Prop where
  nextId_le : pool.nextId ≤ later.nextId
  live_or_new : ∀ id ∈ later.live, id ∈ pool.live ∨ pool.nextId ≤ id

namespace Renews

variable {pool middle later : Pool}

/-- A change that concerns neither the open numbers nor the next one. -/
theorem of_eq (hlive : later.live = pool.live) (hnext : later.nextId = pool.nextId) :
    pool.Renews later :=
  ⟨hnext.ge, fun _ hid => .inl (hlive ▸ hid)⟩

/-- One change after the other. -/
theorem trans (h : pool.Renews middle) (hlater : middle.Renews later) : pool.Renews later := by
  refine ⟨h.nextId_le.trans hlater.nextId_le, fun id hid => ?_⟩
  rcases hlater.live_or_new id hid with hmiddle | hnew
  · exact h.live_or_new id hmiddle
  · exact .inr (h.nextId_le.trans hnew)

/-- A number that was given and is not open is never open again. -/
theorem not_mem_live (h : pool.Renews later) {id : Nat} (hgiven : id < pool.nextId)
    (hgone : id ∉ pool.live) : id ∉ later.live := by
  intro hid
  rcases h.live_or_new id hid with hlive | hnew
  · exact hgone hlive
  · exact absurd hnew (Nat.not_le.mpr hgiven)

end Renews

/-- The member is dropped when it comes back. -/
def drops (pool : Pool) (member : Member) : Bool := member.conn.isClosed || pool.closed

/-- A member that is dropped takes its number and its room with it. -/
theorem release_of_drops {pool : Pool} {member : Member} (h : pool.drops member = true) :
    pool.release member =
      { pool with live := pool.live.erase member.id, opened := pool.opened - 1 } := if_pos h

/-- A member that is not dropped waits for the next borrower. -/
theorem release_of_keeps {pool : Pool} {member : Member} (h : pool.drops member = false) :
    pool.release member = { pool with idle := pool.idle ++ [member] } :=
  if_neg (Bool.eq_false_iff.mp h)

/-- Of members that come back, those that are not dropped are queued in their order. -/
theorem releaseAll_eq (pool : Pool) (members : List Member) :
    pool.releaseAll members =
      { pool with
        idle := pool.idle ++ members.filter fun member => !pool.drops member
        live := pool.live.diff ((members.filter pool.drops).map Member.id)
        opened := pool.opened - (members.filter pool.drops).length } := by
  induction members generalizing pool with
  | nil => simp [releaseAll]
  | cons member rest ih =>
    have hrest : pool.releaseAll (member :: rest) = (pool.release member).releaseAll rest := rfl
    have hdrops : (pool.release member).drops = pool.drops := by
      funext other
      unfold drops release
      split <;> rfl
    rw [hrest, ih, hdrops]
    by_cases hmember : pool.drops member = true
    · rw [List.filter_cons_of_pos hmember, List.filter_cons_of_neg (by simpa using hmember)]
      rw [release_of_drops hmember, List.map_cons, List.diff_cons, List.length_cons, Nat.add_comm,
        Nat.sub_add_eq]
    · rw [List.filter_cons_of_neg hmember, List.filter_cons_of_pos (by simpa using hmember)]
      rw [release_of_keeps (Bool.eq_false_iff.mpr hmember), List.append_assoc,
        List.singleton_append]

/-- Which members are dropped does not change on the way. -/
theorem drops_releaseAll (pool : Pool) (members : List Member) :
    (pool.releaseAll members).drops = pool.drops := by
  rw [releaseAll_eq]
  rfl

/-- A member that comes back and is not dropped is idle. -/
theorem mem_idle_releaseAll {pool : Pool} {members : List Member} {member : Member}
    (hmember : member ∈ members) (hkept : pool.drops member = false) :
    member ∈ (pool.releaseAll members).idle := by
  rw [releaseAll_eq]
  exact List.mem_append_right _ (List.mem_filter.mpr ⟨hmember, by rw [hkept]; rfl⟩)

/-- A member that comes back and is dropped is not open any more. -/
theorem not_mem_live_releaseAll {pool : Pool} {members : List Member} {member : Member}
    (hnodup : pool.live.Nodup) (hmember : member ∈ members) (hdropped : pool.drops member = true) :
    member.id ∉ (pool.releaseAll members).live := by
  rw [releaseAll_eq, hnodup.mem_sdiff_iff]
  have hmem : member.id ∈ (members.filter pool.drops).map Member.id :=
    List.mem_map_of_mem (List.mem_filter.mpr ⟨hmember, hdropped⟩)
  exact fun hdiff => hdiff.2 hmem

/-- The count is lowered by one for each member that is dropped. -/
theorem opened_releaseAll {pool : Pool} {members : List Member}
    (hcounted : members.length ≤ pool.opened) :
    (pool.releaseAll members).opened + members.countP pool.drops = pool.opened := by
  have hle : members.countP pool.drops ≤ members.length := List.countP_le_length
  rw [releaseAll_eq, ← List.countP_eq_length_filter]
  dsimp only
  omega

/-- A member that comes back brings no new number. -/
theorem renews_release (pool : Pool) (member : Member) : pool.Renews (pool.release member) := by
  unfold release
  split
  · exact ⟨le_refl _, fun id hid => .inl (List.mem_of_mem_erase hid)⟩
  · exact .of_eq rfl rfl

/-- Members that come back bring no new number. -/
theorem renews_releaseAll (pool : Pool) (members : List Member) :
    pool.Renews (pool.releaseAll members) := by
  induction members generalizing pool with
  | nil => exact .of_eq rfl rfl
  | cons member rest ih => exact (pool.renews_release member).trans (ih (pool.release member))

/-- Closing brings no new number. -/
theorem renews_close (pool : Pool) : pool.Renews pool.close :=
  ⟨le_refl _, fun _ hid => .inl (List.mem_of_mem_filter hid)⟩

/-- Every idle member is open. -/
def IdleOpen (pool : Pool) : Prop := ∀ member ∈ pool.idle, member.conn.isClosed = false

/-- There is nothing in an empty queue. -/
theorem idleOpen_of_eq_nil {pool : Pool} (h : pool.idle = []) : pool.IdleOpen := by
  intro member hmember
  rw [h] at hmember
  exact absurd hmember List.not_mem_nil

/-- A member that comes back is queued only if it is open. -/
theorem IdleOpen.release {pool : Pool} (h : pool.IdleOpen) (member : Member) :
    (pool.release member).IdleOpen := by
  by_cases hdrops : pool.drops member = true
  · rw [release_of_drops hdrops]
    exact h
  · have hkeeps := Bool.eq_false_iff.mpr hdrops
    rw [release_of_keeps hkeeps]
    intro other hother
    rcases List.mem_append.mp hother with hidle | hback
    · exact h other hidle
    · rw [List.mem_singleton.mp hback]
      exact (Bool.or_eq_false_iff.mp hkeeps).1

/-- The first member of a pool: there is room for it, it has the number one, and it is idle when it
comes back open. -/
theorem first_member (template : Config) {capacity : Nat} (h : 1 ≤ capacity) {conn : Connection}
    (hopen : conn.isClosed = false) :
    borrow ⟨capacity, template, [], [], false, 0, 1⟩ false =
        .reserved ⟨capacity, template, [], [], false, 1, 1⟩ ∧
      enroll ⟨capacity, template, [], [], false, 1, 1⟩ conn =
        (.ok ⟨1, conn⟩, ⟨capacity, template, [], [1], false, 1, 2⟩) ∧
      release ⟨capacity, template, [], [1], false, 1, 2⟩ ⟨1, conn⟩ =
        ⟨capacity, template, [⟨1, conn⟩], [1], false, 1, 2⟩ := by
  refine ⟨?_, rfl, ?_⟩
  · simp [borrow, Nat.pos_of_ne_zero (Nat.one_le_iff_ne_zero.mp h)]
  · simp [release, hopen]

end Pool

namespace Ledger

variable {ledger after : Ledger} {capacity : Nat}

/-- A step gives only new numbers. -/
theorem Step.renews (h : Step ledger after) : ledger.pool.Renews after.pool := by
  cases h with
  | lend hborrow =>
    rw [(Pool.borrow_eq_lent hborrow).2]
    exact .of_eq rfl rfl
  | reserve hborrow =>
    rw [(Pool.borrow_eq_reserved hborrow).2]
    exact .of_eq rfl rfl
  | opened henroll =>
    rw [(Pool.enroll_eq_ok henroll).2]
    refine ⟨Nat.le_succ _, fun id hid => ?_⟩
    rcases List.mem_cons.mp hid with rfl | hid
    · exact .inr (le_refl _)
    · exact .inl hid
  | openedLate henroll =>
    rw [Pool.enroll_eq_error henroll]
    exact ⟨Nat.le_succ _, fun id hid => .inl hid⟩
  | openFails => exact .of_eq rfl rfl
  | use conn => exact .of_eq rfl rfl
  | release => exact Pool.renews_release _ _
  | visit hvisit =>
    rw [(Pool.visit_eq hvisit).2]
    exact .of_eq rfl rfl
  | settings template => exact .of_eq rfl rfl
  | close => exact Pool.renews_close _

/-- Steps in a row give only new numbers. -/
theorem Reaches.renews (h : ledger.Reaches after) : ledger.pool.Renews after.pool := by
  induction h with
  | refl => exact .of_eq rfl rfl
  | tail _ hstep ih => exact ih.trans hstep.renews

/-- A step keeps the queue free of closed members. -/
theorem Step.idleOpen (h : Step ledger after) (hidle : ledger.pool.IdleOpen) :
    after.pool.IdleOpen := by
  cases h with
  | lend hborrow =>
    intro member hmember
    refine hidle member ?_
    rw [(Pool.borrow_eq_lent hborrow).1]
    exact List.mem_cons_of_mem _ hmember
  | reserve hborrow =>
    rw [(Pool.borrow_eq_reserved hborrow).2]
    exact hidle
  | opened henroll =>
    rw [(Pool.enroll_eq_ok henroll).2]
    exact hidle
  | openedLate henroll =>
    rw [Pool.enroll_eq_error henroll]
    exact hidle
  | openFails => exact hidle
  | use conn => exact hidle
  | release => exact hidle.release _
  | visit hvisit =>
    intro member hmember
    refine hidle member ?_
    rw [← Multiset.mem_coe, (Pool.visit_eq hvisit).1]
    exact Multiset.mem_cons_of_mem hmember
  | settings template => exact hidle
  | close => exact Pool.idleOpen_of_eq_nil rfl

/-- Steps in a row keep the queue free of closed members. -/
theorem Reaches.idleOpen (h : ledger.Reaches after) (hidle : ledger.pool.IdleOpen) :
    after.pool.IdleOpen := by
  induction h with
  | refl => exact hidle
  | tail _ hstep ih => exact hstep.idleOpen ih

/-- The numbers of the idle and the lent members are all different. -/
theorem Balanced.nodup_ids (h : Balanced capacity ledger) :
    (Multiset.ofList (ledger.pool.idle.map Member.id) + ledger.lent.map Member.id).Nodup := by
  rw [← h.live_eq]
  exact Multiset.coe_nodup.mpr h.nodup_live

/-- A pool comes to have one idle member: it is opened, and given back. -/
theorem reaches_idle (template : Config) {capacity : Nat} (h : 1 ≤ capacity) {conn : Connection}
    (hopen : conn.isClosed = false) :
    (Ledger.start ⟨capacity, template, [], [], false, 0, 1⟩).Reaches
      ⟨⟨capacity, template, [⟨1, conn⟩], [1], false, 1, 2⟩, 0, 0⟩ := by
  obtain ⟨hroom, henroll, hback⟩ := Pool.first_member template h hopen
  rw [← hback]
  exact ((Relation.ReflTransGen.single (.reserve hroom)).tail (.opened henroll)).tail .release

end Ledger

end StoreClient
