import StoreClient.Pool.Desk
import StoreClient.Proofs.Ledger
import Mathlib.Algebra.BigOperators.Group.List.Basic
import Mathlib.Algebra.Group.Prod
import Mathlib.Algebra.GroupWithZero.Nat
import Mathlib.Algebra.Order.Group.Multiset

/-!
# The ledger behind a desk

Whatever is done at a desk, its pool takes only the steps of its ledger: borrowing, opening,
one-shot requests and broadcasts are such steps in a row, also where they wait, fail or are
given up on the way. The accounts of the pool therefore agree after every list of tasks.
-/

namespace StoreClient

/-- What a call has of a pool: members, and rooms in which members are being opened. -/
abbrev Stake := Multiset Member × Nat

namespace Desk

/-- What a waiting call has of the pool. -/
def Waiting.stake : Waiting → Stake
  | .borrow _ | .once _ => 0
  | .opening => (0, 1)
  | .broadcast visiting _ _ => (visiting.held, 0)

/-- What a call has of the pool after an attempt to go on. -/
def Attempt.stake : Attempt → Stake
  | .ended _ => 0
  | .waits waiting => waiting.stake

/-- What a borrower has of the pool after an attempt to borrow. -/
def Borrowed.stake : Borrowed → Stake
  | .lent member => ({member}, 0)
  | .failed _ => 0
  | .waits => 0
  | .opening => (0, 1)

/-- What calls have of the pool together. -/
def stakes (calls : List (String × Waiting)) : Stake := (calls.map fun call => call.2.stake).sum

/-- The ledger of a desk, if calls have a stake in its pool. -/
def ledgerWith (desk : Desk) (stake : Stake) : Ledger :=
  ⟨desk.pool, Multiset.ofList (desk.lent.map Prod.snd) + stake.1, stake.2⟩

/-- The ledger of a desk. -/
def ledger (desk : Desk) : Ledger := desk.ledgerWith (stakes desk.waiting)

/-- Do tasks, one after the other. -/
def runAll (desk : Desk) (tasks : List Task) : Desk :=
  tasks.foldl (fun desk task => (desk.run task).2.2) desk

/-- Nothing is lent twice under one name. -/
def Named (desk : Desk) : Prop := (desk.lent.map Prod.fst).Nodup

/-- A call goes from one stake in the pool to another by steps of the ledger, whatever other
calls have. -/
structure Moves (desk : Desk) (stake : Stake) (after : Desk) (left : Stake) : Prop where
  reaches : ∀ others, (desk.ledgerWith (stake + others)).Reaches (after.ledgerWith (left + others))
  waiting_eq : after.waiting = desk.waiting
  named : after.Named

/-- What is done at a desk is a row of steps of its ledger. -/
structure Advances (desk after : Desk) : Prop where
  reaches : desk.ledger.Reaches after.ledger
  named : after.Named

end Desk

namespace Ledger

variable {pool : Pool} {lent : Multiset Member} {openings : Nat}

/-- Members that come back one after the other. -/
theorem reaches_releaseAll (members : List Member) (pool : Pool) :
    Reaches ⟨pool, (members : Multiset Member) + lent, openings⟩
      ⟨pool.releaseAll members, lent, openings⟩ := by
  induction members generalizing pool with
  | nil =>
    rw [Multiset.coe_nil, zero_add]
    exact .refl
  | cons member rest ih =>
    rw [← Multiset.cons_coe, Multiset.cons_add]
    exact .head .release (ih (pool.release member))

end Ledger

namespace Broadcast

/-- What a broadcast holds after a turn, if it goes on. -/
def Turn.held? : Turn → Option (List Member)
  | .visit _ next _ => some next.held
  | .waits next => some next.held
  | _ => none

/-- A broadcast that goes on keeps what it holds. -/
theorem held_of_next {pool : Pool} {broadcast : Broadcast} {held : List Member}
    (h : (broadcast.next pool).held? = some held) : held = broadcast.held := by
  unfold Broadcast.next at h
  split at h
  · cases h
  · split at h
    · cases h
    · dsimp only at h
      split at h
      · cases h
        rfl
      · split at h
        · cases h
        · cases h
          rfl

/-- A member that was visited is held besides those that were held before. -/
theorem perm_hold (broadcast : Broadcast) (member : Member) :
    (member :: broadcast.held).Perm (broadcast.hold member).held :=
  (List.perm_append_singleton member broadcast.held).symm

end Broadcast

namespace Desk

variable {desk after : Desk} {stake left : Stake} {name : String} {member : Member}

/-- The ledger with calls that have nothing, but for what others have. -/
theorem ledgerWith_none (desk : Desk) (others : Stake) :
    desk.ledgerWith (0 + others) =
      ⟨desk.pool, Multiset.ofList (desk.lent.map Prod.snd) + others.1, others.2⟩ := by
  rw [zero_add, ledgerWith]

/-- The ledger with calls that have members. -/
theorem ledgerWith_members (desk : Desk) (members : Multiset Member) (others : Stake) :
    desk.ledgerWith ((members, 0) + others) =
      ⟨desk.pool, members + (Multiset.ofList (desk.lent.map Prod.snd) + others.1), others.2⟩ := by
  rw [ledgerWith, Prod.fst_add, Prod.snd_add, zero_add, add_left_comm]

/-- The ledger with a call that has one member. -/
theorem ledgerWith_member (desk : Desk) (member : Member) (others : Stake) :
    desk.ledgerWith (({member}, 0) + others) =
      ⟨desk.pool, member ::ₘ (Multiset.ofList (desk.lent.map Prod.snd) + others.1), others.2⟩ := by
  rw [ledgerWith_members, Multiset.singleton_add]

/-- The ledger with a call that has room. -/
theorem ledgerWith_room (desk : Desk) (others : Stake) :
    desk.ledgerWith ((0, 1) + others) =
      ⟨desk.pool, Multiset.ofList (desk.lent.map Prod.snd) + others.1, others.2 + 1⟩ := by
  rw [ledgerWith, Prod.fst_add, Prod.snd_add, zero_add, Nat.add_comm]

namespace Moves

/-- Nothing happens. -/
theorem refl (h : desk.Named) (stake : Stake) : desk.Moves stake desk stake :=
  ⟨fun _ => .refl, rfl, h⟩

/-- One thing happens after the other. -/
theorem trans {middle : Desk} {between : Stake} (h : desk.Moves stake middle between)
    (hnext : middle.Moves between after left) : desk.Moves stake after left :=
  ⟨fun others => (h.reaches others).trans (hnext.reaches others),
    hnext.waiting_eq.trans h.waiting_eq, hnext.named⟩

/-- What others have does not matter. -/
theorem frame (h : desk.Moves stake after left) (others : Stake) :
    desk.Moves (stake + others) after (left + others) := by
  refine ⟨fun more => ?_, h.waiting_eq, h.named⟩
  rw [add_assoc, add_assoc]
  exact h.reaches (others + more)

/-- A call that had nothing and has nothing at the end advances the desk. -/
theorem advances (h : desk.Moves 0 after 0) : desk.Advances after := by
  refine ⟨?_, h.named⟩
  have hreaches := h.reaches (stakes desk.waiting)
  rw [zero_add] at hreaches
  rw [ledger, ledger, h.waiting_eq]
  exact hreaches

end Moves

/-- With names that are all different, an entry that a search finds is the only one of its
name. -/
theorem perm_of_find?_name {α : Type} {entries : List (String × α)} {entry : String × α}
    (hnodup : (entries.map Prod.fst).Nodup) (h : entries.find? (·.1 = name) = some entry) :
    entry.1 = name ∧ entries.Perm (entry :: entries.filter (·.1 ≠ name)) := by
  induction entries with
  | nil => cases h
  | cons first rest ih =>
    rw [List.map_cons, List.nodup_cons] at hnodup
    by_cases hfirst : first.1 = name
    · rw [List.find?_cons_of_pos (by simpa using hfirst)] at h
      cases h
      have hrest : ∀ other ∈ rest, decide (other.1 ≠ name) = true := by
        intro other hother
        rw [decide_eq_true_eq]
        rintro hname
        refine hnodup.1 ?_
        rw [hfirst, ← hname]
        exact List.mem_map_of_mem hother
      rw [List.filter_cons_of_neg (by simpa using hfirst), List.filter_eq_self.mpr hrest]
      exact ⟨hfirst, .refl _⟩
    · rw [List.find?_cons_of_neg (by simpa using hfirst)] at h
      obtain ⟨hname, hperm⟩ := ih hnodup.2 h
      rw [List.filter_cons_of_pos (by simpa using hfirst)]
      exact ⟨hname, (hperm.cons first).trans (List.Perm.swap entry first _)⟩

/-- The lent members are the one of a name and those of the other names. -/
theorem lent_eq_of_member? (hnamed : desk.Named) (h : desk.member? name = some member) :
    Multiset.ofList (desk.lent.map Prod.snd) =
      member ::ₘ Multiset.ofList ((desk.forget name).lent.map Prod.snd) := by
  obtain ⟨entry, hentry, rfl⟩ := Option.map_eq_some_iff.mp h
  obtain ⟨_, hperm⟩ := perm_of_find?_name hnamed hentry
  exact Multiset.coe_eq_coe.mpr (hperm.map Prod.snd)

/-- Forgetting a name leaves the names different, and nothing is lent under it. -/
theorem named_forget (hnamed : desk.Named) (name : String) :
    (desk.forget name).Named ∧ name ∉ (desk.forget name).lent.map Prod.fst := by
  refine ⟨(List.filter_sublist.map Prod.fst).nodup hnamed, ?_⟩
  rintro hmem
  obtain ⟨entry, hentry, rfl⟩ := List.mem_map.mp hmem
  simpa using (List.mem_filter.mp hentry).2

/-- The member of a name comes back. -/
theorem moves_giveBack (hnamed : desk.Named) (name : String) (stake : Stake) :
    desk.Moves stake (desk.giveBack name) stake := by
  unfold giveBack
  split
  · rename_i member hmember
    refine ⟨fun others => ?_, rfl, (named_forget hnamed name).1⟩
    unfold ledgerWith
    rw [lent_eq_of_member? hnamed hmember, Multiset.cons_add]
    exact .single .release
  · exact .refl hnamed stake

/-- Nothing is lent under a name after its member came back. -/
theorem name_not_mem_giveBack (hnamed : desk.Named) (name : String) :
    name ∉ (desk.giveBack name).lent.map Prod.fst := by
  unfold giveBack
  split
  · exact (named_forget hnamed name).2
  · rename_i hnone
    rintro hmem
    obtain ⟨entry, hentry, rfl⟩ := List.mem_map.mp hmem
    have hfind := List.find?_eq_none.mp (Option.map_eq_none_iff.mp hnone) entry hentry
    simp at hfind

/-- A member goes to a borrower. -/
theorem moves_lend (hnamed : desk.Named) (name : String) (member : Member) :
    desk.Moves ({member}, 0) (desk.lend name member) 0 := by
  have hback := moves_giveBack hnamed name ({member}, 0)
  refine ⟨fun others => ?_, hback.waiting_eq, ?_⟩
  · have hreaches := hback.reaches others
    unfold lend ledgerWith at *
    rw [List.map_append, ← Multiset.coe_add, zero_add, List.map_singleton, Multiset.coe_singleton,
      add_assoc]
    simpa using hreaches
  · unfold Named lend
    rw [List.map_append, List.map_singleton, List.nodup_append_comm, List.singleton_append,
      List.nodup_cons]
    exact ⟨name_not_mem_giveBack hnamed name, hback.named⟩

/-- An opening ends with a member, without one, or not at all; its room is taken, given back
or kept. -/
theorem moves_openMember (hnamed : desk.Named) :
    desk.Moves (0, 1) desk.openMember.2 desk.openMember.1.stake := by
  unfold openMember
  split
  · split
    · rename_i member enrolled henroll
      refine ⟨fun others => ?_, rfl, hnamed⟩
      rw [ledgerWith_room, Borrowed.stake, ledgerWith_member]
      exact .single (.opened henroll)
    · rename_i e refused henroll
      refine ⟨fun others => ?_, rfl, hnamed⟩
      rw [ledgerWith_room, Borrowed.stake, ledgerWith_none]
      exact .single (.openedLate henroll)
  · refine ⟨fun others => ?_, rfl, hnamed⟩
    rw [ledgerWith_room, Borrowed.stake, ledgerWith_none]
    exact .single .openFails
  · refine ⟨fun others => ?_, rfl, hnamed⟩
    rw [ledgerWith_room, Borrowed.stake, ledgerWith_room]

/-- Borrowing ends with a member, with room that is taken, or with nothing. -/
theorem moves_borrow (hnamed : desk.Named) (wouldWait : Bool) :
    desk.Moves 0 (desk.borrow wouldWait).2 (desk.borrow wouldWait).1.stake := by
  unfold borrow
  split
  · exact .refl hnamed 0
  · rename_i member rest hborrow
    refine ⟨fun others => ?_, rfl, hnamed⟩
    rw [ledgerWith_none, Borrowed.stake, ledgerWith_member]
    exact .single (.lend hborrow)
  · rename_i reserved hborrow
    have hreserve : desk.Moves 0 { desk with pool := reserved } (0, 1) := by
      refine ⟨fun others => ?_, rfl, hnamed⟩
      rw [ledgerWith_none, ledgerWith_room]
      exact .single (.reserve hborrow)
    exact hreserve.trans (moves_openMember hreserve.named)
  · exact .refl hnamed 0

/-- A borrower that gets an error leaves the pool as it was, wherever an opening failed. -/
theorem pool_eq_of_borrow_eq_failed {wouldWait : Bool} {e : Error}
    (h : desk.borrow wouldWait = (.failed e, after)) : after.pool = desk.pool := by
  unfold borrow at h
  split at h
  · cases h
    rfl
  · cases h
  · rename_i reserved hborrow
    have hback := Pool.unreserve_of_borrow hborrow
    have hopen : reserved.closed = false := Pool.closed_of_borrow hborrow
    unfold openMember at h
    split at h
    · split at h
      · cases h
      · rename_i refused henroll
        rw [Pool.enroll, hopen] at henroll
        cases henroll
    · cases h
      exact hback
    · cases h
  · cases h

/-- Members come back, in whatever order. -/
theorem moves_releaseAll (hnamed : desk.Named) {returned members : List Member}
    (hreturned : returned.Perm members) :
    desk.Moves (members, 0) { desk with pool := desk.pool.releaseAll returned } 0 := by
  refine ⟨fun others => ?_, rfl, hnamed⟩
  rw [ledgerWith_members, ledgerWith_none, ← Multiset.coe_eq_coe.mpr hreturned]
  exact Ledger.reaches_releaseAll returned desk.pool

/-- The members that a broadcast holds come back when it ends. -/
theorem moves_endBroadcast (hnamed : desk.Named) (broadcast : Broadcast) :
    desk.Moves (broadcast.held, 0) (desk.endBroadcast broadcast) 0 :=
  moves_releaseAll hnamed (.refl broadcast.held)

/-- A member that a broadcast visits is held by it. -/
theorem moves_visit (hnamed : desk.Named) {broadcast next : Broadcast} {rest : Pool}
    (h : broadcast.next desk.pool = .visit member next rest) (conn : Connection) (net : Network) :
    desk.Moves (broadcast.held, 0) { desk with pool := rest, net }
      ((next.hold { member with conn }).held, 0) := by
  refine ⟨fun others => ?_, rfl, hnamed⟩
  have hheld : next.held = broadcast.held :=
    Broadcast.held_of_next (congrArg Broadcast.Turn.held? h)
  rw [ledgerWith_members, ledgerWith_members, Broadcast.hold, hheld, ← Multiset.coe_add,
    Multiset.coe_singleton, add_assoc, Multiset.singleton_add, Multiset.add_cons]
  exact .tail (.single (.visit h)) (.use conn)

/-- A broadcast keeps the members that it visits until it ends. -/
theorem moves_continueBroadcast (hnamed : desk.Named) (request : Request)
    (visits : List (Except Error Answer)) (broadcast : Broadcast) :
    desk.Moves (broadcast.held, 0) (desk.continueBroadcast request visits broadcast).2
      (desk.continueBroadcast request visits broadcast).1.stake := by
  fun_induction continueBroadcast desk request visits broadcast with
  | case1 => exact moves_endBroadcast hnamed _
  | case2 => exact moves_endBroadcast hnamed _
  | case3 desk visits broadcast next hnext =>
    have hheld : next.held = broadcast.held :=
      Broadcast.held_of_next (congrArg Broadcast.Turn.held? hnext)
    rw [Attempt.stake, Waiting.stake, hheld]
    exact .refl hnamed _
  | case4 desk visits broadcast member next rest hnext line after held answer _ ih =>
    have hvisit := moves_visit hnamed hnext line.conn line.net
    exact hvisit.trans (ih hvisit.named)
  | case5 desk visits broadcast member next rest hnext line after held e =>
    have hvisit := moves_visit hnamed hnext line.conn line.net
    exact hvisit.trans (moves_endBroadcast hvisit.named held)
  | case6 desk visits broadcast member next rest hnext line after returned =>
    have hvisit := moves_visit hnamed hnext line.conn line.net
    exact hvisit.trans (moves_releaseAll hvisit.named (Broadcast.perm_hold _ _))

/-- A call that is given up loses what it has. -/
theorem moves_abandon (hnamed : desk.Named) (waiting : Waiting) :
    desk.Moves waiting.stake (desk.abandon waiting) 0 := by
  cases waiting with
  | borrow wouldWait => exact .refl hnamed 0
  | opening =>
    refine ⟨fun others => ?_, rfl, hnamed⟩
    rw [Waiting.stake, ledgerWith_room, ledgerWith_none]
    exact .single .openFails
  | broadcast visiting request visits => exact moves_endBroadcast hnamed visiting
  | once request => exact .refl hnamed 0

/-- A member that was borrowed is used and given back. -/
theorem moves_useOnce (hnamed : desk.Named) (member : Member) (conn : Connection)
    (net : Network) :
    desk.Moves ({member}, 0)
      { desk with net, pool := desk.pool.release { member with conn } } 0 := by
  refine ⟨fun others => ?_, rfl, hnamed⟩
  rw [ledgerWith_member, ledgerWith_none]
  exact .tail (.single (.use conn)) .release

/-- A one-shot request borrows a member, uses it, and gives it back, or it waits for one. -/
theorem moves_once (hnamed : desk.Named) (request : Request) :
    desk.Moves 0 (desk.once request).2 (desk.once request).1.stake := by
  have hborrow := moves_borrow hnamed false
  unfold once
  cases hresult : desk.borrow false with
  | mk result after =>
    rw [hresult] at hborrow
    cases result with
    | lent member =>
      dsimp only
      cases hanswer : Connection.answer request ⟨member.conn, after.net⟩ with
      | mk result line =>
        have huse := hborrow.trans (moves_useOnce hborrow.named member line.conn line.net)
        cases result with
        | ok answer => exact huse
        | error halt =>
          cases halt with
          | failed e => exact huse
          | stalled => exact huse
    | failed e => exact hborrow
    | waits => exact hborrow
    | opening => exact hborrow.trans (moves_abandon hborrow.named .opening)

/-- A call goes on, and has a stake as long as it waits. -/
theorem moves_attempt (hnamed : desk.Named) (name : String) (waiting : Waiting) :
    desk.Moves waiting.stake (desk.attempt name waiting).2
      (desk.attempt name waiting).1.stake := by
  cases waiting with
  | borrow wouldWait =>
    have hborrow := moves_borrow hnamed wouldWait
    unfold attempt
    dsimp only
    cases hresult : desk.borrow wouldWait with
    | mk result after =>
      rw [hresult] at hborrow
      cases result with
      | lent member => exact hborrow.trans (moves_lend hborrow.named name member)
      | failed e => exact hborrow
      | waits => exact hborrow
      | opening => exact hborrow
  | opening => exact .refl hnamed _
  | broadcast visiting request visits =>
    exact moves_continueBroadcast hnamed request visits visiting
  | once request => exact moves_once hnamed request

/-- Calls that are given up one after the other lose what they have. -/
theorem moves_abandonAll (hnamed : desk.Named) (calls : List (String × Waiting)) :
    desk.Moves (stakes calls) (calls.foldl (fun desk call => desk.abandon call.2) desk) 0 := by
  induction calls generalizing desk with
  | nil => exact .refl hnamed 0
  | cons call rest ih =>
    have hfirst := (moves_abandon hnamed call.2).frame (stakes rest)
    rw [zero_add] at hfirst
    rw [stakes, List.map_cons, List.sum_cons]
    exact hfirst.trans (ih hfirst.named)

/-- A member that is used stays lent under its name. -/
theorem moves_use (hnamed : desk.Named) (h : desk.member? name = some member)
    (conn : Connection) (net : Network) :
    desk.Moves 0
      { desk with
        net
        lent := desk.lent.map fun entry =>
          if entry.1 = name then (name, { member with conn }) else entry } 0 := by
  obtain ⟨entry, hentry, rfl⟩ := Option.map_eq_some_iff.mp h
  obtain ⟨hname, hperm⟩ := perm_of_find?_name hnamed hentry
  have hothers : (desk.lent.filter (·.1 ≠ name)).map (fun other =>
      if other.1 = name then (name, { entry.2 with conn }) else other) =
        desk.lent.filter (·.1 ≠ name) := by
    refine (List.map_congr_left fun other hother => ?_).trans (List.map_id _)
    have hne : other.1 ≠ name := by simpa using (List.mem_filter.mp hother).2
    rw [if_neg hne, id]
  refine ⟨fun others => ?_, rfl, ?_⟩
  · have hbefore := Multiset.coe_eq_coe.mpr (hperm.map Prod.snd)
    have hafter := Multiset.coe_eq_coe.mpr ((hperm.map fun other : String × Member =>
      if other.1 = name then (name, { entry.2 with conn }) else other).map Prod.snd)
    rw [List.map_cons, ← Multiset.cons_coe] at hbefore
    rw [List.map_cons, if_pos hname, hothers, List.map_cons, ← Multiset.cons_coe] at hafter
    rw [ledgerWith_none, ledgerWith_none, hbefore, hafter, Multiset.cons_add, Multiset.cons_add]
    exact .single (.use conn)
  · have hnames : ∀ other ∈ desk.lent,
        (if other.1 = name then (name, { entry.2 with conn }) else other).1 = other.1 := by
      intro other _
      split
      · rename_i hother
        exact hother.symm
      · rfl
    unfold Named
    rw [List.map_map]
    exact (List.map_congr_left hnames).symm ▸ hnamed

/-- Asking something of a lent member only uses it. -/
theorem moves_ask (hnamed : desk.Named) (name : String) (request : Request) :
    desk.Moves 0 (desk.ask name request).2 0 := by
  unfold ask
  split
  · exact .refl hnamed 0
  · rename_i member hmember
    cases hanswer : Connection.answer request ⟨member.conn, desk.net⟩ with
    | mk result line =>
      have huse := moves_use hnamed hmember line.conn line.net
      cases result with
      | ok answer => exact huse
      | error halt =>
        cases halt with
        | failed e => exact huse
        | stalled => exact huse

/-- A desk whose pool has other settings. -/
theorem moves_settings (hnamed : desk.Named) (template : Config) :
    desk.Moves 0 { desk with pool := { desk.pool with template } } 0 := by
  refine ⟨fun others => ?_, rfl, hnamed⟩
  rw [ledgerWith_none, ledgerWith_none]
  exact .single (.settings template)

/-- What calls have does not depend on their order. -/
theorem stakes_perm {calls others : List (String × Waiting)} (h : calls.Perm others) :
    stakes calls = stakes others :=
  (h.map _).sum_eq

/-- What calls have is what each part of them has. -/
theorem stakes_append (calls others : List (String × Waiting)) :
    stakes (calls ++ others) = stakes calls + stakes others := by
  rw [stakes, List.map_append, List.sum_append]
  rfl

namespace Advances

/-- One thing is done after the other. -/
theorem trans {middle : Desk} (h : desk.Advances middle) (hnext : middle.Advances after) :
    desk.Advances after :=
  ⟨h.reaches.trans hnext.reaches, hnext.named⟩

/-- A new call ends, or is kept. -/
theorem begin (hnamed : desk.Named) (name : String) {waiting : Waiting}
    (hnothing : waiting.stake = 0) : desk.Advances (desk.begin name waiting).2 := by
  have hattempt := moves_attempt hnamed name waiting
  rw [hnothing] at hattempt
  unfold Desk.begin
  cases hresult : desk.attempt name waiting with
  | mk result after =>
    rw [hresult] at hattempt
    cases result with
    | ended outcome => exact hattempt.advances
    | waits waiting =>
      refine ⟨?_, hattempt.named⟩
      have hreaches := hattempt.reaches (stakes desk.waiting)
      have hwaiting : stakes (after.waiting ++ [(name, waiting)]) =
          waiting.stake + stakes desk.waiting := by
        rw [hattempt.waiting_eq, stakes_append, add_comm, stakes, List.map_singleton,
          List.sum_singleton]
      rw [zero_add] at hreaches
      unfold ledger
      rw [hwaiting]
      exact hreaches

/-- Calls that are dropped lose what they have. -/
theorem dropWaiting (hnamed : desk.Named) (name : String) :
    desk.Advances (desk.dropWaiting name).2 := by
  let kept : Desk := { desk with waiting := desk.waiting.filter (·.1 ≠ name) }
  have hsplit : stakes desk.waiting =
      stakes (desk.waiting.filter (·.1 = name)) + stakes kept.waiting := by
    rw [← stakes_append]
    refine stakes_perm ((List.filter_append_perm (·.1 = name) desk.waiting).symm.trans ?_)
    simp [kept]
  have hkept : kept.Named := hnamed
  have hdropped := moves_abandonAll hkept (desk.waiting.filter (·.1 = name))
  have hreaches := hdropped.reaches (stakes kept.waiting)
  rw [← hsplit, zero_add, ← hdropped.waiting_eq] at hreaches
  exact ⟨hreaches, hdropped.named⟩

/-- New settings, and a broadcast of them. -/
theorem settings (hnamed : desk.Named) (template : Config) (request : Request) :
    desk.Advances (askAll { desk with pool := { desk.pool with template } } request).2 := by
  have hsettings := moves_settings hnamed template
  exact hsettings.advances.trans (begin hsettings.named ownName rfl)

/-- A task, without the calls that wait. -/
theorem perform (hnamed : desk.Named) (task : Task) : desk.Advances (desk.perform task).2 := by
  have hnothing := (Moves.refl hnamed 0).advances
  cases task with
  | borrow name wouldWait => exact begin hnamed name rfl
  | release name =>
    dsimp only [Desk.perform]
    split
    · exact (moves_giveBack hnamed name 0).advances
    · exact hnothing
  | ask name request => exact (moves_ask hnamed name request).advances
  | askEach name request => exact begin hnamed name rfl
  | dropWaiting name => exact dropWaiting hnamed name
  | useNamespace path => exact settings hnamed _ _
  | login credentials => exact settings hnamed _ _
  | once request => exact begin hnamed ownName rfl
  | close => exact ⟨.single .close, hnamed⟩
  | stopListening => exact ⟨.refl, hnamed⟩

/-- The waiting calls go on until one ends. -/
theorem continueOne (hnamed : desk.Named) (before calls : List (String × Waiting))
    {ledger : Ledger} (h : ledger.Reaches (desk.ledgerWith (stakes (before ++ calls)))) :
    ledger.Reaches (desk.continueOne before calls).2.ledger ∧
      (desk.continueOne before calls).2.Named := by
  induction calls generalizing desk before with
  | nil =>
    rw [List.append_nil] at h
    exact ⟨h, hnamed⟩
  | cons call rest ih =>
    obtain ⟨name, waiting⟩ := call
    have hattempt := moves_attempt hnamed name waiting
    have hsplit : stakes (before ++ (name, waiting) :: rest) =
        waiting.stake + stakes (before ++ rest) := by
      rw [stakes_perm List.perm_middle, stakes, List.map_cons, List.sum_cons]
      rfl
    have hreaches := h.trans (hsplit ▸ hattempt.reaches (stakes (before ++ rest)))
    unfold Desk.continueOne
    cases hresult : desk.attempt name waiting with
    | mk result after =>
      rw [hresult] at hattempt hreaches
      cases result with
      | ended outcome =>
        rw [Attempt.stake, zero_add] at hreaches
        exact ⟨hreaches, hattempt.named⟩
      | waits waiting =>
        refine ih hattempt.named (before ++ [(name, waiting)]) ?_
        have hback : (stakes (before ++ [(name, waiting)] ++ rest) =
            waiting.stake + stakes (before ++ rest)) := by
          rw [List.append_assoc, List.singleton_append, stakes_perm List.perm_middle, stakes,
            List.map_cons, List.sum_cons]
          rfl
        rw [hback]
        exact hreaches

/-- The waiting calls go on until none ends. -/
theorem continueMany (hnamed : desk.Named) (n : Nat) : desk.Advances (desk.continueMany n).2 := by
  induction n generalizing desk with
  | zero => exact (Moves.refl hnamed 0).advances
  | succ n ih =>
    obtain ⟨hreaches, hafter⟩ := continueOne hnamed [] desk.waiting .refl
    unfold Desk.continueMany
    cases hresult : desk.continueOne [] desk.waiting with
    | mk woken after =>
      rw [hresult] at hreaches hafter
      cases woken with
      | none => exact ⟨hreaches, hafter⟩
      | some call => exact trans ⟨hreaches, hafter⟩ (ih hafter)

/-- A task, and the calls that go on after it. -/
theorem run (hnamed : desk.Named) (task : Task) : desk.Advances (desk.run task).2.2 := by
  have hperform := perform hnamed task
  exact hperform.trans (continueMany hperform.named _)

/-- Tasks, one after the other. -/
theorem runAll (hnamed : desk.Named) (tasks : List Task) : desk.Advances (desk.runAll tasks) := by
  induction tasks generalizing desk with
  | nil => exact (Moves.refl hnamed 0).advances
  | cons task rest ih =>
    have hrun := run hnamed task
    exact hrun.trans (ih hrun.named)

end Advances

end Desk

/-- The accounts of a pool agree, in every order in which its members are lent, opened, used,
given back, visited by broadcasts and dropped: the count is that of the idle members, the lent
ones and the rooms that are reserved, it is at most the capacity, the open numbers are those of
the idle and the lent members, and nothing is taken from the count that was not counted. What
is done at a desk is such an order, and a borrower that gets an error leaves the pool as it
was, wherever the opening failed. -/
theorem Pool.accounts_agree (template : Config) {capacity : Nat} (hcapacity : 1 ≤ capacity) :
    ∃ pool, Pool.create template capacity = .ok pool ∧
      (∀ ledger, (Ledger.start pool).Reaches ledger → ledger.Balanced capacity ∧ ledger.Covered) ∧
      ∀ net tasks, ∃ desk, Desk.create template capacity net = .ok desk ∧
        (Ledger.start pool).Reaches (desk.runAll tasks).ledger ∧
        ∀ wouldWait e after, (desk.runAll tasks).borrow wouldWait = (.failed e, after) →
          after.pool = (desk.runAll tasks).pool := by
  have hpositive : capacity ≠ 0 := Nat.one_le_iff_ne_zero.mp hcapacity
  have hcreate : Pool.create template capacity =
      .ok ⟨capacity, template, [], [], false, 0, 1⟩ := by
    unfold create checkCapacity
    rw [if_neg hpositive]
    rfl
  refine ⟨_, hcreate, fun ledger hreaches => ?_, fun net tasks => ?_⟩
  · have hbalanced := hreaches.balanced (.start hcreate)
    exact ⟨hbalanced, hbalanced.covered⟩
  · refine ⟨⟨⟨capacity, template, [], [], false, 0, 1⟩, net, [], []⟩, ?_, ?_,
      fun _ _ _ => Desk.pool_eq_of_borrow_eq_failed⟩
    · unfold Desk.create
      rw [hcreate]
      rfl
    · have hnamed : Desk.Named ⟨⟨capacity, template, [], [], false, 0, 1⟩, net, [], []⟩ :=
        List.nodup_nil
      exact (Desk.Advances.runAll hnamed tasks).reaches

/-- A pool with room for two members that is closed while the first one is being opened: the
room still counts, and it is covered when the opening ends. -/
theorem Pool.accounts_agree_closed :
    1 ≤ 2 ∧ ∃ pool ledger, Pool.create (.ofAddress "127.0.0.1:2003") 2 = .ok pool ∧
      (Ledger.start pool).Reaches ledger ∧ ledger.Balanced 2 ∧ ledger.Covered ∧
      ledger.openings = 1 ∧ ledger.pool.closed = true ∧ ledger.pool.opened = 1 := by
  obtain ⟨pool, hcreate, hledgers, -⟩ :=
    Pool.accounts_agree (.ofAddress "127.0.0.1:2003") (by decide : 1 ≤ 2)
  obtain ⟨-, rfl⟩ := Pool.create_eq_ok hcreate
  have hborrow : Pool.borrow ⟨2, .ofAddress "127.0.0.1:2003", [], [], false, 0, 1⟩ false =
      .reserved ⟨2, .ofAddress "127.0.0.1:2003", [], [], false, 1, 1⟩ := rfl
  have hreserve : Ledger.Step (Ledger.start _) _ := .reserve hborrow
  have hreaches := Relation.ReflTransGen.tail (.single hreserve) .close
  obtain ⟨hbalanced, hcovered⟩ := hledgers _ hreaches
  exact ⟨by decide, _, _, hcreate, hreaches, hbalanced, hcovered, rfl, rfl, rfl⟩

end StoreClient
