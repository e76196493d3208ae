import StoreClient.Proofs.Broadcasts

/-!
# Closing is final

Members that are lent when the pool is closed come back later, openings that were on their way
end later, and broadcasts go on. This file proves that a closed pool only winds down, whatever
happens in it: nothing is idle again, nobody gets a member, no broadcast makes a call, and every
member that comes back lowers the count by one. What is counted at the end are the openings that
have not ended.
-/

namespace StoreClient

namespace Pool

variable {pool : Pool}

/-- Closing a pool again changes nothing. -/
theorem close_of_closed (hclosed : pool.closed = true) (hidle : pool.idle = []) :
    pool.close = pool := by
  obtain ⟨capacity, template, idle, live, closed, opened, nextId⟩ := pool
  obtain rfl : closed = true := hclosed
  obtain rfl : idle = [] := hidle
  simp [close]

/-- A closed pool lends nothing, and reserves no room. -/
theorem borrow_of_closed (hclosed : pool.closed = true) (wouldWait : Bool) :
    pool.borrow wouldWait = .refused := if_pos hclosed

/-- A closed pool takes no new member. -/
theorem enroll_of_closed (hclosed : pool.closed = true) (conn : Connection) :
    (pool.enroll conn).1 = .error .poolClosed := by
  unfold enroll
  rw [if_pos hclosed]

/-- A closed pool drops every member that comes back. -/
theorem drops_of_closed (hclosed : pool.closed = true) (member : Member) :
    pool.drops member = true := by
  rw [drops, hclosed, Bool.or_true]

/-- Whether a pool is closed does not change when members come back. -/
theorem closed_releaseAll (pool : Pool) (members : List Member) :
    (pool.releaseAll members).closed = pool.closed := by
  rw [releaseAll_eq]

end Pool

namespace Broadcast

variable {broadcast : Broadcast} {pool : Pool}

/-- What a broadcast returns that goes on in a closed pool. -/
def cutShort (broadcast : Broadcast) : Except Error Unit :=
  if broadcast.targets.isEmpty then .ok () else .error .poolClosed

/-- In a closed pool every turn is the last one. -/
theorem next_of_closed (hclosed : pool.closed = true) (broadcast : Broadcast) :
    broadcast.next pool = if broadcast.targets.isEmpty then .finished else .refused := by
  unfold next
  rw [if_pos hclosed]

/-- In a closed pool no member is visited. -/
theorem next_ne_visit (hclosed : pool.closed = true) (broadcast : Broadcast) (member : Member)
    (after : Broadcast) (rest : Pool) : broadcast.next pool ≠ .visit member after rest := by
  rw [next_of_closed hclosed]
  split <;> simp

end Broadcast

namespace Ledger

variable {capacity : Nat} {ledger middle later : Ledger}

/-- What a closed pool comes to: it stays closed, nothing becomes idle, nobody has a member that
was not lent before, and no opening starts. -/
structure WindsDown (ledger later : Ledger) : Prop where
  closed : later.pool.closed = true
  idle_sublist : later.pool.idle.Sublist ledger.pool.idle
  lent_le : later.lent.map Member.id ≤ ledger.lent.map Member.id
  openings_le : later.openings ≤ ledger.openings

/-- One thing happens after the other. -/
theorem WindsDown.trans (h : ledger.WindsDown middle) (hlater : middle.WindsDown later) :
    ledger.WindsDown later where
  closed := hlater.closed
  idle_sublist := hlater.idle_sublist.trans h.idle_sublist
  lent_le := hlater.lent_le.trans h.lent_le
  openings_le := hlater.openings_le.trans h.openings_le

/-- A closed pool winds down with every step. -/
theorem Step.windsDown (h : Step ledger later) (hclosed : ledger.pool.closed = true) :
    ledger.WindsDown later := by
  cases h with
  | lend hborrow =>
    rw [Pool.borrow_of_closed hclosed] at hborrow
    cases hborrow
  | reserve hborrow =>
    rw [Pool.borrow_of_closed hclosed] at hborrow
    cases hborrow
  | opened henroll =>
    have hresult := congrArg Prod.fst henroll
    rw [Pool.enroll_of_closed hclosed] at hresult
    cases hresult
  | openedLate henroll =>
    rw [Pool.enroll_eq_error henroll]
    exact ⟨hclosed, List.Sublist.refl _, le_rfl, Nat.le_succ _⟩
  | openFails => exact ⟨hclosed, List.Sublist.refl _, le_rfl, Nat.le_succ _⟩
  | use conn =>
    refine ⟨hclosed, List.Sublist.refl _, ?_, le_rfl⟩
    rw [Multiset.map_cons, Multiset.map_cons]
  | @release pool lent openings member =>
    rw [Pool.release_of_drops (Pool.drops_of_closed hclosed member)]
    refine ⟨hclosed, List.Sublist.refl _, ?_, le_rfl⟩
    rw [Multiset.map_cons]
    exact Multiset.le_cons_self _ _
  | visit hvisit => exact absurd hvisit (Broadcast.next_ne_visit hclosed _ _ _ _)
  | settings template => exact ⟨hclosed, List.Sublist.refl _, le_rfl, le_rfl⟩
  | close => exact ⟨rfl, List.nil_sublist _, le_rfl, le_rfl⟩

/-- A closed pool winds down over steps in a row. -/
theorem Reaches.windsDown (h : ledger.Reaches later) (hclosed : ledger.pool.closed = true) :
    ledger.WindsDown later := by
  induction h with
  | refl => exact ⟨hclosed, List.Sublist.refl _, le_rfl, le_rfl⟩
  | tail _ hstep ih => exact ih.trans (hstep.windsDown ih.closed)

/-- The ledger when its pool is closed now. -/
def close (ledger : Ledger) : Ledger := ⟨ledger.pool.close, ledger.lent, ledger.openings⟩

/-- A pool that is closed for good. -/
structure Final (ledger : Ledger) : Prop where
  closed : ledger.pool.closed = true
  idle_eq : ledger.pool.idle = []
  /-- Nobody gets a member, and nobody may open one. -/
  borrow_eq : ∀ wouldWait, ledger.pool.borrow wouldWait = .refused
  /-- A member that is opened now comes too late. -/
  enroll_eq : ∀ conn, (ledger.pool.enroll conn).1 = .error .poolClosed
  /-- Whether an opening fails or comes too late, it gives its room back. -/
  opening_ends : ledger.openings ≠ 0 →
    ledger.pool.unreserve.opened + 1 = ledger.pool.opened ∧
      ∀ conn, (ledger.pool.enroll conn).2.opened + 1 = ledger.pool.opened
  next_ne : ∀ broadcast member after rest,
    Broadcast.next broadcast ledger.pool ≠ .visit member after rest
  /-- A member that comes back is dropped and counts no more, whatever has become of it. -/
  release_eq : ∀ member ∈ ledger.lent,
    (ledger.pool.release member).opened + 1 = ledger.pool.opened ∧
      (ledger.pool.release member).idle = [] ∧
      member.id ∉ (ledger.pool.release member).live
  /-- The count is that of the members that are still lent and of the openings on their way. -/
  opened_eq : ledger.pool.opened = ledger.lent.card + ledger.openings
  close_eq : ledger.close = ledger

/-- A closed pool with nothing idle is closed for good, if its accounts agree. -/
theorem Balanced.final (h : Balanced capacity ledger) (hclosed : ledger.pool.closed = true)
    (hidle : ledger.pool.idle = []) : ledger.Final := by
  constructor
  · exact hclosed
  · exact hidle
  · exact Pool.borrow_of_closed hclosed
  · exact Pool.enroll_of_closed hclosed
  · exact fun hopenings => ⟨h.covered.unreserve hopenings, h.covered.enroll hopenings hclosed⟩
  · exact Broadcast.next_ne_visit hclosed
  · intro member hmember
    refine ⟨h.covered.release member hmember (.inr hclosed), ?_⟩
    rw [Pool.release_of_drops (Pool.drops_of_closed hclosed member)]
    exact ⟨hidle, h.nodup_live.not_mem_erase⟩
  · have hopened := h.opened_eq
    rw [hidle, List.length_nil] at hopened
    omega
  · rw [Ledger.close, Pool.close_of_closed hclosed hidle]

/-- After a pool was closed it stays closed for good. -/
theorem Balanced.final_of_close (h : Balanced capacity ledger)
    (hlater : ledger.close.Reaches later) : later.Final ∧ ledger.close.WindsDown later := by
  have hdown := hlater.windsDown (rfl : ledger.close.pool.closed = true)
  have hidle : later.pool.idle = [] := List.sublist_nil.mp hdown.idle_sublist
  exact ⟨(hlater.balanced h.close).final hdown.closed hidle, hdown⟩

end Ledger

namespace Tour

variable {tour after : Tour}

/-- A broadcast makes no call in a closed pool. -/
theorem Step.visited_eq (h : tour.Step after) (hclosed : tour.ledger.pool.closed = true) :
    after.ledger.pool.closed = true ∧ after.visited = tour.visited := by
  have hended (held : List Member) : (tour.ledger.pool.releaseAll held).closed = true :=
    (Pool.closed_releaseAll _ _).trans hclosed
  cases h with
  | others hothers => exact ⟨(hothers.windsDown hclosed).closed, rfl⟩
  | visit hphase hnext => exact absurd hnext (Broadcast.next_ne_visit hclosed _ _ _ _)
  | succeed conn answer hphase => exact ⟨hclosed, rfl⟩
  | fail conn e hphase => exact ⟨hended _, rfl⟩
  | wait hphase hnext => exact ⟨hclosed, rfl⟩
  | finish hphase hnext => exact ⟨hended _, rfl⟩
  | refuse hphase hnext => exact ⟨hended _, rfl⟩
  | giveUp hphase => exact ⟨hended _, rfl⟩
  | giveUpCall conn hphase => exact ⟨hended _, rfl⟩

/-- Once the pool is closed, a broadcast never makes a call again. -/
theorem Reaches.visited_eq (h : tour.Reaches after) (hclosed : tour.ledger.pool.closed = true) :
    after.ledger.pool.closed = true ∧ after.visited = tour.visited := by
  induction h with
  | refl => exact ⟨hclosed, rfl⟩
  | tail _ hstep ih =>
    obtain ⟨hlater, hvisited⟩ := hstep.visited_eq ih.1
    exact ⟨hlater, hvisited.trans ih.2⟩

end Tour

namespace Desk

variable {desk : Desk}

/-- What a desk does with a closed pool. Nothing of it touches the network, and only a broadcast
that ends changes anything: it gives back what it holds. -/
structure Refuses (desk : Desk) : Prop where
  borrow : ∀ name wouldWait,
    desk.perform (.borrow name wouldWait) = (.failed .poolClosed, desk)
  once : ∀ request, desk.perform (.once request) = (.failed .poolClosed, desk)
  /-- A borrower that has waited. -/
  attempt_borrow : ∀ name wouldWait,
    desk.attempt name (.borrow wouldWait) = (.ended (.failed .poolClosed), desk)
  askEach : ∀ name request, ∃ result,
    desk.perform (.askEach name request) = (.visited [] result, desk)
  askAll : ∀ request, (desk.askAll request).2 = desk
  /-- A broadcast that has waited. -/
  attempt_broadcast : ∀ name broadcast request visits,
    desk.attempt name (.broadcast broadcast request visits) =
      (.ended (.visited visits broadcast.cutShort), desk.endBroadcast broadcast)
  close : desk.perform .close = (.done, desk)

/-- A borrower at a closed pool gets an error, and no server is dialed. -/
theorem borrow_of_closed (hclosed : desk.pool.closed = true) (wouldWait : Bool) :
    desk.borrow wouldWait = (.failed .poolClosed, desk) := by
  unfold borrow
  rw [Pool.borrow_of_closed hclosed]

/-- A broadcast that goes on in a closed pool ends without a call. -/
theorem continueBroadcast_of_closed (hclosed : desk.pool.closed = true) (request : Request)
    (visits : List (Except Error Answer)) (broadcast : Broadcast) :
    desk.continueBroadcast request visits broadcast =
      (.ended (.visited visits broadcast.cutShort), desk.endBroadcast broadcast) := by
  have hnext := Broadcast.next_of_closed hclosed broadcast
  rw [continueBroadcast, Broadcast.cutShort]
  by_cases hempty : broadcast.targets.isEmpty = true
  · rw [if_pos hempty] at hnext ⊢
    split
    · rfl
    all_goals
      rename_i hother
      cases hother.symm.trans hnext
  · rw [if_neg hempty] at hnext ⊢
    split
    case h_2 => rfl
    all_goals
      rename_i hother
      cases hother.symm.trans hnext

/-- A broadcast that starts in a closed pool changes nothing. -/
theorem endBroadcast_start (desk : Desk) (pool : Pool) :
    desk.endBroadcast (.start pool) = desk := rfl

/-- A desk with a pool that is closed for good refuses whatever needs a member. -/
theorem refuses_of_final (h : desk.ledger.Final) : desk.Refuses := by
  have hclosed : desk.pool.closed = true := h.closed
  have hborrow := borrow_of_closed hclosed
  have hcontinue := continueBroadcast_of_closed hclosed
  have hattempt (name : String) (wouldWait : Bool) :
      desk.attempt name (.borrow wouldWait) = (.ended (.failed .poolClosed), desk) := by
    rw [attempt, hborrow]
  constructor
  · intro name wouldWait
    rw [perform, begin, hattempt]
  · intro request
    rw [perform, begin, attempt, Desk.once, hborrow]
  · exact hattempt
  · intro name request
    refine ⟨(Broadcast.start desk.pool).cutShort, ?_⟩
    rw [perform, begin, attempt, hcontinue, endBroadcast_start]
  · intro request
    rw [Desk.askAll, begin, attempt, hcontinue, endBroadcast_start]
  · intro name broadcast request visits
    exact hcontinue request visits broadcast
  · have hpool : desk.pool.close = desk.pool := congrArg Ledger.pool h.close_eq
    rw [perform, hpool]

/-- Closing the pool of a desk, and whatever is done there afterwards. -/
theorem reaches_of_close (hnamed : desk.Named) (tasks : List Task) :
    desk.ledger.close.Reaches (desk.runAll (.close :: tasks)).ledger := by
  have hclosed : Named { desk with pool := desk.pool.close } := hnamed
  have hcontinued := Advances.continueMany hclosed desk.waiting.length
  exact hcontinued.reaches.trans (Advances.runAll hcontinued.named tasks).reaches

end Desk

/-- Closing a pool is final. Whatever happens afterwards, nothing is idle, nobody gets a member
and no opening starts, no broadcast makes a call again, each member that was lent is dropped when
it comes back and lowers the count by one, and closing again changes nothing. When all of them
are back, the count is that of the openings that were on their way when the pool was closed and
have not ended; each of these ends without a member and gives its room back. At a desk, whoever
wants a member gets the error that the pool is closed, and no server is dialed for it. -/
theorem Pool.close_is_final (template : Config) {capacity : Nat} (hcapacity : 1 ≤ capacity) :
    ∃ pool, Pool.create template capacity = .ok pool ∧
      (∀ ledger, (Ledger.start pool).Reaches ledger → ∀ later, ledger.close.Reaches later →
        later.Final ∧ ledger.close.WindsDown later ∧
          (later.lent = 0 → later.pool.opened = later.openings) ∧
          (ledger.openings = 0 → later.lent = 0 → later.pool.opened = 0)) ∧
      (∀ ledger tour, (Ledger.start pool).Reaches ledger → (Tour.start ledger).Reaches tour →
        tour.ledger.pool.closed = true → ∀ after, tour.Reaches after →
          after.visited = tour.visited) ∧
      ∀ net tasks more, ∃ desk, Desk.create template capacity net = .ok desk ∧
        (Ledger.start pool).Reaches (desk.runAll tasks).ledger ∧
        (desk.runAll tasks).ledger.close.Reaches
          (desk.runAll (tasks ++ .close :: more)).ledger ∧
        (desk.runAll (tasks ++ .close :: more)).Refuses := by
  have hcreate := Pool.create_eq template hcapacity
  refine ⟨_, hcreate, fun ledger hledger later hlater => ?_, ?_, fun net tasks more => ?_⟩
  · have hbalanced := hledger.balanced (.start hcreate)
    obtain ⟨hfinal, hdown⟩ := hbalanced.final_of_close hlater
    have hopened := hfinal.opened_eq
    have hopenings := hdown.openings_le
    refine ⟨hfinal, hdown, fun hback => ?_, fun hnone hback => ?_⟩
    · rw [hopened, hback, Multiset.card_zero, Nat.zero_add]
    · rw [hopened, hback, Multiset.card_zero, Nat.zero_add]
      exact Nat.le_zero.mp (hnone ▸ hopenings)
  · intro ledger tour _ _ hclosed after hafter
    exact (hafter.visited_eq hclosed).2
  · have hnamed : Desk.Named ⟨⟨capacity, template, [], [], false, 0, 1⟩, net, [], []⟩ :=
      List.nodup_nil
    have hbefore := Desk.Advances.runAll hnamed tasks
    have hsplit (desk : Desk) :
        desk.runAll (tasks ++ .close :: more) = (desk.runAll tasks).runAll (.close :: more) :=
      List.foldl_append
    have hafter := Desk.reaches_of_close hbefore.named more
    have hbalanced := hbefore.reaches.balanced (.start hcreate)
    refine ⟨_, Desk.create_eq template hcapacity net, hbefore.reaches, ?_, ?_⟩
    · rw [hsplit]
      exact hafter
    · rw [hsplit]
      exact Desk.refuses_of_final (hbalanced.final_of_close hafter).1

/-- A pool with one member, which is lent when the pool is closed: the member is dropped when it
comes back, and then nothing is open. -/
theorem Pool.close_is_final_lent :
    1 ≤ 2 ∧ ∃ pool ledger member, Pool.create (.ofAddress "127.0.0.1:2003") 2 = .ok pool ∧
      (Ledger.start pool).Reaches ledger ∧ ledger.lent = {member} ∧ ledger.pool.opened = 1 ∧
      ∃ later, ledger.close.Reaches later ∧ later.Final ∧ later.lent = 0 ∧
        later.pool.opened = 0 := by
  let config : Config := .ofAddress "127.0.0.1:2003"
  obtain ⟨pool, hcreate, hfinal, -⟩ := Pool.close_is_final config (by decide : 1 ≤ 2)
  obtain ⟨-, rfl⟩ := Pool.create_eq_ok hcreate
  let conn : Connection := .start config ⟨0, [], [], false⟩
  have hidle := Ledger.reaches_idle config (by decide : 1 ≤ 2) (rfl : conn.isClosed = false)
  have hborrow : Pool.borrow ⟨2, config, [⟨1, conn⟩], [1], false, 1, 2⟩ false =
      .lent ⟨1, conn⟩ ⟨2, config, [], [1], false, 1, 2⟩ := rfl
  have hlent := hidle.tail (.lend hborrow)
  have hback : Ledger.Reaches
      ⟨Pool.close ⟨2, config, [], [1], false, 1, 2⟩, {⟨1, conn⟩}, 0⟩ _ := .single .release
  obtain ⟨hlater, -, -, hopened⟩ := hfinal _ hlent _ hback
  exact ⟨by decide, _, _, ⟨1, conn⟩, hcreate, hlent, rfl, rfl, _, hback, hlater, rfl,
    hopened rfl rfl⟩

/-- A pool may count one more when every member that was lent is back: here none was lent when it
was closed, and an opening was on its way. -/
theorem Pool.not_opened_eq_zero :
    (¬ ∀ (template : Config) (capacity : Nat) (pool : Pool) (ledger later : Ledger),
      Pool.create template capacity = .ok pool → (Ledger.start pool).Reaches ledger →
      ledger.close.Reaches later → later.lent = 0 → later.pool.opened = 0) ∧
    ∃ desk, Desk.create (.ofAddress "127.0.0.1:2003") 1 (.ofDials [.accepted [.silence]]) =
        .ok desk ∧
      (desk.runAll [.borrow "first" false, .close]).lent = [] ∧
      (desk.runAll [.borrow "first" false, .close]).pool.opened = 1 := by
  let config : Config := .ofAddress "127.0.0.1:2003"
  constructor
  · intro hzero
    have hcreate := Pool.create_eq config (by decide : 1 ≤ 1)
    have hborrow : Pool.borrow ⟨1, config, [], [], false, 0, 1⟩ false =
        .reserved ⟨1, config, [], [], false, 1, 1⟩ := rfl
    have hreserve : (Ledger.start _).Reaches _ := .single (.reserve hborrow)
    cases hzero _ _ _ _ _ hcreate hreserve .refl rfl
  · refine ⟨_, Desk.create_eq config (by decide) _, List.length_eq_zero_iff.mp ?_, ?_⟩
    · decide +kernel
    · decide +kernel

end StoreClient
