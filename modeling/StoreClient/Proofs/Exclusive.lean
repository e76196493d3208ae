import StoreClient.Proofs.Custody
import StoreClient.Proofs.Discipline

/-!
# Members are lent to one holder, and open

Whoever gets a member gets it alone, and gets it open: it was idle, and then it is open and
nobody else has it, or it was just established on a stream of its own. A member that comes back
closed is dropped, and its number is never seen again.
-/

namespace StoreClient

/-- The connection is open on the stream of this number. -/
def Line.OnStream (number : Nat) (line : Line) : Prop :=
  ∃ stream, line.conn.stream = some stream ∧ stream.number = number

/-- A connection on a stream is open. -/
theorem Line.OnStream.isClosed_eq_false {number : Nat} {line : Line} (h : line.OnStream number) :
    line.conn.isClosed = false := by
  obtain ⟨stream, hstream, -⟩ := h
  rw [Connection.isClosed, hstream]
  rfl

/-- If the call succeeds, it leaves its connection on the stream that it was on. -/
def Call.StaysOn {α : Type} (call : Call α) (number : Nat) : Prop :=
  call.Meets (Line.OnStream number) (fun _ => Line.OnStream number) fun _ _ => True

namespace Call.StaysOn

variable {α β : Type} {call : Call α} {number : Nat}

/-- A result that is known already, or a failure. -/
theorem ofExcept (result : Except Error α) : (Call.ofExcept result).StaysOn number :=
  Meets.ofExcept (fun _ _ _ h => h) fun _ _ _ => trivial

/-- Two calls in a row. -/
theorem bind {next : α → Call β} (h : call.StaysOn number)
    (hnext : ∀ a, (next a).StaysOn number) : (call >>= next).StaysOn number :=
  Meets.bind h hnext

end Call.StaysOn

namespace Connection

variable {number : Nat} {config : Config} {net after : Network} {conn : Connection}

/-- An exchange that succeeds leaves the connection on its stream. -/
theorem exchange_staysOn (actions : List Action) : (exchange actions).StaysOn number := by
  refine ⟨fun {line after entries} hstream hrun => ?_, fun _ _ => trivial⟩
  obtain ⟨stream, hsome, rfl⟩ := hstream
  have hexchanged := exchange_exchanged actions line
  rw [hrun] at hexchanged
  cases hexchanged with
  | answered hused _ _ _ hleft hnumber _ =>
    obtain rfl := Option.some.inj (hsome.symm.trans hused)
    exact ⟨_, hleft, hnumber⟩

/-- A round trip that succeeds leaves the connection on its stream. -/
theorem roundTrip_staysOn (action : Action) : (roundTrip action).StaysOn number :=
  (exchange_staysOn [action]).bind fun _ => .ofExcept _

/-- A handshake that succeeds leaves the connection on its stream. -/
theorem handshake_staysOn : handshake.StaysOn number := by
  have hsteps : handshakeSteps.StaysOn number :=
    handshakeSteps_meets_of roundTrip_staysOn (fun _ => Call.StaysOn.ofExcept _)
      fun _ => Call.StaysOn.ofExcept _
  exact Call.Meets.onFailure hsteps (fun _ _ _ => trivial) fun _ _ => trivial

/-- A connection that was just established is open, on the stream that was opened for it. -/
theorem establish_onStream (h : establish config net = (.ok conn, after)) :
    Line.OnStream net.accepted ⟨conn, after⟩ := by
  have hdialed := net.dial_dialed config.address
  unfold establish at h
  split at h
  · cases h
  · rename_i stream dialed hdial
    rw [hdial] at hdialed
    have hready : Line.OnStream net.accepted ⟨start config stream, dialed⟩ := by
      cases hdialed with
      | accepted hnumber _ _ => exact ⟨stream, rfl, hnumber⟩
    split at h
    · rename_i line hhandshake
      cases h
      exact handshake_staysOn.ok hready hhandshake
    · cases h

end Connection

namespace Ledger

/-- Every member has one holder, and everyone who gets a member gets it open. -/
structure Exclusive (ledger : Ledger) : Prop where
  /-- No member is in two places: in the queue twice, lent twice, or both. -/
  nodup_ids :
    (Multiset.ofList (ledger.pool.idle.map Member.id) + ledger.lent.map Member.id).Nodup
  open_of_idle : ∀ member ∈ ledger.pool.idle, member.conn.isClosed = false
  open_of_borrow : ∀ wouldWait member rest,
    ledger.pool.borrow wouldWait = .lent member rest → member.conn.isClosed = false
  open_of_visit : ∀ broadcast member next rest,
    Broadcast.next broadcast ledger.pool = .visit member next rest → member.conn.isClosed = false
  /-- The number of a new member is not the number of any later one. -/
  id_of_enroll : ∀ conn member enrolled openings, ledger.openings = openings + 1 →
    ledger.pool.enroll conn = (.ok member, enrolled) →
    ∀ later, Reaches ⟨enrolled, member ::ₘ ledger.lent, openings⟩ later →
    ∀ conn other enrolled, later.pool.enroll conn = (.ok other, enrolled) → other.id ≠ member.id
  /-- A member that comes back closed counts no more, and nobody ever gets it again. -/
  release_closed : ∀ member rest, ledger.lent = member ::ₘ rest → member.conn.isClosed = true →
    (ledger.pool.release member).opened + 1 = ledger.pool.opened ∧
    ∀ later, Reaches ⟨ledger.pool.release member, rest, ledger.openings⟩ later →
      member.id ∉ Multiset.ofList (later.pool.idle.map Member.id) + later.lent.map Member.id
  /-- A member that comes back open to an open pool waits for the next borrower. -/
  release_open : ∀ member rest, ledger.lent = member ::ₘ rest → member.conn.isClosed = false →
    ledger.pool.closed = false →
    (ledger.pool.release member).opened = ledger.pool.opened ∧
      (ledger.pool.release member).idle = ledger.pool.idle ++ [member]

variable {capacity : Nat} {ledger : Ledger}

/-- A member that comes back closed is not open any more, and never again. -/
theorem Balanced.not_mem_of_release {pool : Pool} {rest : Multiset Member} {openings : Nat}
    {member : Member} (h : Balanced capacity ⟨pool, member ::ₘ rest, openings⟩)
    (hclosed : member.conn.isClosed = true) {later : Ledger}
    (hlater : Reaches ⟨pool.release member, rest, openings⟩ later) :
    member.id ∉ Multiset.ofList (later.pool.idle.map Member.id) + later.lent.map Member.id := by
  have hlive : member.id ∈ pool.live := by
    rw [← Multiset.mem_coe, h.live_eq, Multiset.map_cons]
    exact Multiset.mem_add.mpr (.inr (Multiset.mem_cons_self _ _))
  have hdrops : pool.drops member = true := by rw [Pool.drops, hclosed, Bool.true_or]
  have hgone : member.id ∉ (pool.release member).live := by
    rw [Pool.release_of_drops hdrops]
    exact h.nodup_live.not_mem_erase
  have hgiven : member.id < (pool.release member).nextId := by
    rw [Pool.release_of_drops hdrops]
    exact h.lt_nextId member.id hlive
  rw [← (hlater.balanced h.release).live_eq, Multiset.mem_coe]
  exact hlater.renews.not_mem_live hgiven hgone

/-- A balanced pool without a closed member in its queue lends exclusively. -/
theorem Balanced.exclusive (h : Balanced capacity ledger) (hidle : ledger.pool.IdleOpen) :
    ledger.Exclusive := by
  have hcovered := h.covered
  constructor
  · exact h.nodup_ids
  · exact hidle
  · intro wouldWait member rest hborrow
    refine hidle member ?_
    rw [(Pool.borrow_eq_lent hborrow).1]
    exact List.mem_cons_self
  · intro broadcast member next rest hvisit
    refine hidle member ?_
    rw [← Multiset.mem_coe, (Pool.visit_eq hvisit).1]
    exact Multiset.mem_cons_self _ _
  · intro conn member enrolled openings hopenings henroll later hlater last other after hlast
    obtain ⟨hid, henrolled⟩ := Pool.enroll_eq_ok henroll
    have hnext := hlater.renews.nextId_le
    have hother := (Pool.enroll_eq_ok hlast).1
    rw [henrolled] at hnext
    dsimp only at hnext
    omega
  · intro member rest hlent hclosed
    obtain ⟨pool, lent, openings⟩ := ledger
    obtain rfl : lent = member ::ₘ rest := hlent
    have hmem : member ∈ member ::ₘ rest := Multiset.mem_cons_self member rest
    exact ⟨hcovered.release member hmem (.inl hclosed), fun later => h.not_mem_of_release hclosed⟩
  · intro member rest hlent hopen hpool
    have hkeeps : ledger.pool.drops member = false := by
      rw [Pool.drops, hopen, hpool, Bool.or_false]
    rw [Pool.release_of_keeps hkeeps]
    exact ⟨rfl, rfl⟩

end Ledger

/-- A new member has the connection that it was opened with. -/
theorem Pool.conn_of_enroll {pool enrolled : Pool} {conn : Connection} {member : Member}
    (h : pool.enroll conn = (.ok member, enrolled)) : member.conn = conn := by
  unfold enroll at h
  dsimp only at h
  split at h
  · cases h
  · cases h
    rfl

/-- Whoever borrows at a desk gets a connection that was idle, or one that was just established
on a new stream under a new number. -/
theorem Desk.idle_or_new_of_borrow {desk after : Desk} {wouldWait : Bool} {member : Member}
    (h : desk.borrow wouldWait = (.lent member, after)) :
    member ∈ desk.pool.idle ∨
      member.id = desk.pool.nextId ∧ Line.OnStream desk.net.accepted ⟨member.conn, after.net⟩ := by
  unfold borrow at h
  split at h
  · cases h
  · rename_i rest hborrow
    cases h
    rw [(Pool.borrow_eq_lent hborrow).1]
    exact .inl List.mem_cons_self
  · rename_i reserved hborrow
    have hreserved := (Pool.borrow_eq_reserved hborrow).2
    unfold openMember at h
    split at h
    · rename_i conn net hestablish
      split at h
      · rename_i found enrolled henroll
        cases h
        have hid := (Pool.enroll_eq_ok henroll).1
        rw [hreserved] at hid
        have hconn : member.conn = conn := Pool.conn_of_enroll henroll
        refine .inr ⟨hid, ?_⟩
        rw [hconn]
        exact Connection.establish_onStream hestablish
      · cases h
    · cases h
    · cases h
  · cases h

/-- In every order in which members are lent, opened, used, broken, given back, visited by
broadcasts and dropped, each member has a number of its own and is in one place, and everyone
who gets one gets it open. A member that comes back closed counts no more and is never seen
again; one that comes back open to an open pool is idle again. At a desk no connection comes
back under another number either: whatever is borrowed was idle, or it was just established on
a stream that was not there before. -/
theorem Pool.lends_exclusively (template : Config) {capacity : Nat} (hcapacity : 1 ≤ capacity) :
    ∃ pool, Pool.create template capacity = .ok pool ∧
      (∀ ledger, (Ledger.start pool).Reaches ledger → ledger.Exclusive) ∧
      ∀ net tasks, ∃ desk, Desk.create template capacity net = .ok desk ∧
        (Ledger.start pool).Reaches (desk.runAll tasks).ledger ∧
        ∀ wouldWait member after, (desk.runAll tasks).borrow wouldWait = (.lent member, after) →
          member.conn.isClosed = false ∧
            (member ∈ (desk.runAll tasks).pool.idle ∨
              member.id = (desk.runAll tasks).pool.nextId ∧
                Line.OnStream (desk.runAll tasks).net.accepted ⟨member.conn, after.net⟩) := by
  have hcreate := Pool.create_eq template hcapacity
  have hexclusive (ledger : Ledger) (h : (Ledger.start _).Reaches ledger) : ledger.Exclusive :=
    (h.balanced (.start hcreate)).exclusive (h.idleOpen (Pool.idleOpen_of_eq_nil rfl))
  refine ⟨_, hcreate, hexclusive, fun net tasks => ?_⟩
  have hnamed : Desk.Named ⟨⟨capacity, template, [], [], false, 0, 1⟩, net, [], []⟩ :=
    List.nodup_nil
  have hreaches := (Desk.Advances.runAll hnamed tasks).reaches
  refine ⟨_, Desk.create_eq template hcapacity net, hreaches, ?_⟩
  intro wouldWait member after hborrow
  have hcase := Desk.idle_or_new_of_borrow hborrow
  refine ⟨?_, hcase⟩
  rcases hcase with hidle | ⟨-, hstream⟩
  · exact (hexclusive _ hreaches).open_of_idle member hidle
  · exact hstream.isClosed_eq_false

/-- A member that breaks while it is lent is dropped, and the next one has another number. -/
theorem Pool.lends_exclusively_broken :
    let config : Config := .ofAddress "127.0.0.1:2003"
    let e : Error := .communication "failed to write to conn" .brokenPipe
    1 ≤ 2 ∧ ∃ pool ledger member, Pool.create config 2 = .ok pool ∧
      (Ledger.start pool).Reaches ledger ∧ ledger.Exclusive ∧ ledger.lent = {member} ∧
      member.conn.failure = some e ∧ member.conn.isClosed = true ∧ ledger.pool.opened = 1 ∧
      (ledger.pool.release member).opened = 0 ∧
      ∃ later other, Ledger.Reaches ⟨ledger.pool.release member, 0, 0⟩ later ∧
        later.lent = {other} ∧ other.id ≠ member.id := by
  intro config e
  obtain ⟨pool, hcreate, hexclusive, -⟩ := Pool.lends_exclusively config (by decide : 1 ≤ 2)
  obtain ⟨-, rfl⟩ := Pool.create_eq_ok hcreate
  let conn : Connection := .start config ⟨0, [], [], false⟩
  have hidle := Ledger.reaches_idle config (by decide : 1 ≤ 2) (rfl : conn.isClosed = false)
  have hborrow : Pool.borrow ⟨2, config, [⟨1, conn⟩], [1], false, 1, 2⟩ false =
      .lent ⟨1, conn⟩ ⟨2, config, [], [1], false, 1, 2⟩ := rfl
  have hbroken := (hidle.tail (.lend hborrow)).tail (.use (conn.broken e))
  have hledger := hexclusive _ hbroken
  obtain ⟨hopened, hgone⟩ := hledger.release_closed ⟨1, conn.broken e⟩ 0 rfl rfl
  have hroom : Pool.borrow ⟨2, config, [], [], false, 0, 2⟩ false =
      .reserved ⟨2, config, [], [], false, 1, 2⟩ := rfl
  have henroll : Pool.enroll ⟨2, config, [], [], false, 1, 2⟩ conn =
      (.ok ⟨2, conn⟩, ⟨2, config, [], [2], false, 1, 3⟩) := rfl
  have hlater : Ledger.Reaches
      ⟨Pool.release ⟨2, config, [], [1], false, 1, 2⟩ ⟨1, conn.broken e⟩, 0, 0⟩
      ⟨⟨2, config, [], [2], false, 1, 3⟩, {⟨2, conn⟩}, 0⟩ :=
    (Relation.ReflTransGen.single (.reserve hroom)).tail (.opened henroll)
  have hother : (2 : Nat) ≠ 1 := by
    rintro heq
    exact hgone _ hlater (by simp [heq])
  exact ⟨by decide, _, _, _, hcreate, hbroken, hledger, rfl, rfl, rfl, rfl, Nat.succ.inj hopened,
    _, _, hlater, rfl, hother⟩

end StoreClient
