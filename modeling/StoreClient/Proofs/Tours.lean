import StoreClient.Proofs.Custody

/-!
# Broadcasts visit the members that existed

A broadcast lasts: between its turns, and while it calls, others borrow, open and give back
members or close the pool, and the call may do all that too. This file proves that in every
such order each member that was open at the start is visited once or is gone before its turn,
that no other member is visited, and that whatever was visited comes back when the broadcast
ends, however it ends.
-/

namespace StoreClient

namespace Ledger

/-- A step does not depend on what others have. -/
theorem Step.frame {pool rest : Pool} {lent left : Multiset Member} {openings opening : Nat}
    (h : Step ⟨pool, lent, openings⟩ ⟨rest, left, opening⟩) (more : Multiset Member) :
    Step ⟨pool, lent + more, openings⟩ ⟨rest, left + more, opening⟩ := by
  cases h with
  | lend hborrow => exact Multiset.cons_add _ _ _ ▸ .lend hborrow
  | reserve hborrow => exact .reserve hborrow
  | opened henroll => exact Multiset.cons_add _ _ _ ▸ .opened henroll
  | openedLate henroll => exact .openedLate henroll
  | openFails => exact .openFails
  | use conn =>
    rw [Multiset.cons_add, Multiset.cons_add]
    exact .use conn
  | release => exact Multiset.cons_add _ _ _ ▸ .release
  | visit hvisit => exact Multiset.cons_add _ _ _ ▸ .visit hvisit
  | settings template => exact .settings template
  | close => exact .close

end Ledger

namespace Broadcast

/-- What is known of a turn that a broadcast takes in this pool. -/
inductive Takes (broadcast : Broadcast) (pool : Pool) : Turn → Prop where
  /-- Every target that is left is gone. -/
  | finished : (∀ id ∈ broadcast.targets, id ∉ pool.live) → Takes broadcast pool .finished
  | refused : pool.closed = true → Takes broadcast pool .refused
  /-- Only a target is visited, and it is no target any more. -/
  | visit {member : Member} {after : Broadcast} {rest : Pool} : member.id ∈ broadcast.targets →
      after.targets = (broadcast.targets.filter pool.live.contains).filter (· ≠ member.id) →
      after.held = broadcast.held → Takes broadcast pool (.visit member after rest)
  /-- The targets that are gone are forgotten. -/
  | waits {after : Broadcast} : after.targets = broadcast.targets.filter pool.live.contains →
      after.held = broadcast.held → Takes broadcast pool (.waits after)

/-- A broadcast without targets that are open has none left. -/
theorem not_live_of_isEmpty {broadcast : Broadcast} {pool : Pool}
    (h : (broadcast.targets.filter pool.live.contains).isEmpty = true) :
    ∀ id ∈ broadcast.targets, id ∉ pool.live := by
  intro id hid hlive
  have hnone := List.filter_eq_nil_iff.mp (List.isEmpty_iff.mp h) id hid
  exact hnone (List.contains_iff_mem.mpr hlive)

/-- The turn that a broadcast takes. -/
theorem takes_next (broadcast : Broadcast) (pool : Pool) :
    broadcast.Takes pool (broadcast.next pool) := by
  unfold next
  split
  · rename_i hempty
    refine .finished (not_live_of_isEmpty ?_)
    rw [List.isEmpty_iff.mp hempty]
    rfl
  · split
    · rename_i hclosed
      exact .refused hclosed
    · dsimp only
      split
      · rename_i member hfound
        have htarget := List.find?_some hfound
        exact .visit (List.mem_of_mem_filter (List.contains_iff_mem.mp htarget)) rfl rfl
      · split
        · rename_i hempty
          exact .finished (not_live_of_isEmpty hempty)
        · exact .waits rfl rfl

variable {broadcast after : Broadcast} {pool rest : Pool} {member : Member}

/-- Only a target is visited, and it is no target any more. -/
theorem next_eq_visit (h : broadcast.next pool = .visit member after rest) :
    member.id ∈ broadcast.targets ∧
      after.targets = (broadcast.targets.filter pool.live.contains).filter (· ≠ member.id) ∧
      after.held = broadcast.held := by
  have htakes := broadcast.takes_next pool
  rw [h] at htakes
  cases htakes with
  | visit htarget htargets hheld => exact ⟨htarget, htargets, hheld⟩

/-- A broadcast that waits has forgotten the targets that are gone. -/
theorem next_eq_waits (h : broadcast.next pool = .waits after) :
    after.targets = broadcast.targets.filter pool.live.contains ∧
      after.held = broadcast.held := by
  have htakes := broadcast.takes_next pool
  rw [h] at htakes
  cases htakes with
  | waits htargets hheld => exact ⟨htargets, hheld⟩

/-- A broadcast is finished when every target that is left is gone. -/
theorem next_eq_finished (h : broadcast.next pool = .finished) :
    ∀ id ∈ broadcast.targets, id ∉ pool.live := by
  have htakes := broadcast.takes_next pool
  rw [h] at htakes
  cases htakes with
  | finished hgone => exact hgone

end Broadcast

/-- Where a broadcast is. -/
inductive Tour.Phase where
  /-- It looks for a member to visit. -/
  | choosing
  /-- It calls, with this member. -/
  | calling (member : Member)
  /-- It has ended with a result. -/
  | returned (result : Except Error Unit)
  /-- It was given up. -/
  | givenUp

/-- The broadcast has ended. -/
def Tour.Phase.isOver : Tour.Phase → Bool
  | choosing | calling _ => false
  | returned _ | givenUp => true

/-- A broadcast on its way through a pool. -/
structure Tour where
  /-- The pool, with what others than the broadcast have of it. -/
  ledger : Ledger
  broadcast : Broadcast
  phase : Tour.Phase
  /-- The numbers of the members that the call was made on, in order. -/
  visited : List Nat
  /-- What came of the calls, in order. -/
  results : List (Except Error Answer)

namespace Tour

/-- A broadcast that starts. -/
def start (ledger : Ledger) : Tour := ⟨ledger, .start ledger.pool, .choosing, [], []⟩

/-- What the broadcast has of the pool. -/
def stake (tour : Tour) : Multiset Member :=
  match tour.phase with
  | .choosing => tour.broadcast.held
  | .calling member => member ::ₘ (tour.broadcast.held : Multiset Member)
  | .returned _ | .givenUp => 0

/-- The pool with what anyone has of it. -/
def whole (tour : Tour) : Ledger :=
  ⟨tour.ledger.pool, tour.ledger.lent + tour.stake, tour.ledger.openings⟩

/-- The call has ended: it leaves a connection and a result. -/
def answered (tour : Tour) (member : Member) (conn : Connection)
    (result : Except Error Answer) : Tour :=
  { tour with
    broadcast := tour.broadcast.hold { member with conn }
    results := tour.results ++ [result] }

/-- The broadcast has ended: these members come back, in this order. -/
def endedWith (tour : Tour) (returned : List Member) (phase : Phase) : Tour :=
  { tour with
    ledger := { tour.ledger with pool := tour.ledger.pool.releaseAll returned }
    phase }

/-- The broadcast has ended: what it holds comes back. -/
def ended (tour : Tour) (phase : Phase) : Tour := tour.endedWith tour.broadcast.held phase

/-- The call is given up and leaves a connection: its member comes back, and then what the
broadcast holds. -/
def cutOff (tour : Tour) (member : Member) (conn : Connection) : Tour :=
  { tour with broadcast := tour.broadcast.hold { member with conn } }.endedWith
    ({ member with conn } :: tour.broadcast.held) .givenUp

/-- One step of a broadcast, or of others while it lasts and after. What a call does with its
connection is left open, and whatever it does with the pool is a step of others. -/
inductive Step : Tour → Tour → Prop where
  /-- Others do something, or the call does. -/
  | others {tour : Tour} {ledger : Ledger} : tour.ledger.Step ledger →
      Step tour { tour with ledger }
  /-- A member is taken, and the call starts. -/
  | visit {tour : Tour} {member : Member} {after : Broadcast} {rest : Pool} :
      tour.phase = .choosing → tour.broadcast.next tour.ledger.pool = .visit member after rest →
      Step tour { tour with
        ledger := { tour.ledger with pool := rest }
        broadcast := after
        phase := .calling member
        visited := tour.visited ++ [member.id] }
  /-- The call succeeds. -/
  | succeed {tour : Tour} {member : Member} (conn : Connection) (answer : Answer) :
      tour.phase = .calling member →
      Step tour { tour.answered member conn (.ok answer) with phase := .choosing }
  /-- The call fails. -/
  | fail {tour : Tour} {member : Member} (conn : Connection) (e : Error) :
      tour.phase = .calling member →
      Step tour ((tour.answered member conn (.error e)).ended (.returned (.error e)))
  /-- The targets that are left are lent. -/
  | wait {tour : Tour} {after : Broadcast} :
      tour.phase = .choosing → tour.broadcast.next tour.ledger.pool = .waits after →
      Step tour { tour with broadcast := after }
  /-- No target is left. -/
  | finish {tour : Tour} :
      tour.phase = .choosing → tour.broadcast.next tour.ledger.pool = .finished →
      Step tour (tour.ended (.returned (.ok ())))
  /-- The pool was closed. -/
  | refuse {tour : Tour} :
      tour.phase = .choosing → tour.broadcast.next tour.ledger.pool = .refused →
      Step tour (tour.ended (.returned (.error .poolClosed)))
  /-- The broadcast is given up between its calls. -/
  | giveUp {tour : Tour} : tour.phase = .choosing → Step tour (tour.ended .givenUp)
  /-- The broadcast is given up in a call. -/
  | giveUpCall {tour : Tour} {member : Member} (conn : Connection) :
      tour.phase = .calling member →
      Step tour (tour.cutOff member conn)

/-- Steps in a row. -/
abbrev Reaches : Tour → Tour → Prop := Relation.ReflTransGen Step

/-- The number of the member that the call is made on now. -/
def Phase.current : Phase → List Nat
  | calling member => [member.id]
  | _ => []

/-- A broadcast that started in this pool is in order. -/
structure Orderly (first : Pool) (tour : Tour) : Prop where
  renews : first.Renews tour.ledger.pool
  nodup_visited : tour.visited.Nodup
  live_of_visited : ∀ id ∈ tour.visited, id ∈ first.live
  of_target : ∀ id ∈ tour.broadcast.targets, id ∈ first.live ∧ id ∉ tour.visited
  /-- No member is forgotten: it is a target still, or it was visited, or it is gone. -/
  accounted : ∀ id ∈ first.live,
    id ∈ tour.broadcast.targets ∨ id ∈ tour.visited ∨ id ∉ tour.ledger.pool.live
  held_eq : tour.broadcast.held.map Member.id ++ tour.phase.current = tour.visited
  /-- Every call was made on a member that was visited, unless one was given up. -/
  length_eq : tour.phase ≠ .givenUp →
    tour.results.length + tour.phase.current.length = tour.visited.length
  /-- Nothing comes after an error, and the broadcast returns it. -/
  error_last : ∀ before e later, tour.results = before ++ .error e :: later →
    later = [] ∧ tour.phase = .returned (.error e)
  /-- The pool is closed, or an error is that of a call. -/
  error_mem : ∀ e, tour.phase = .returned (.error e) → .error e ∈ tour.results ∨ e = .poolClosed
  finished : tour.phase = .returned (.ok ()) →
    ∀ id ∈ first.live, id ∈ tour.visited ∨ id ∉ tour.ledger.pool.live

namespace Orderly

variable {first : Pool} {tour after : Tour}

/-- A broadcast that starts is in order. -/
theorem start (ledger : Ledger) : Orderly ledger.pool (Tour.start ledger) where
  renews := .of_eq rfl rfl
  nodup_visited := List.nodup_nil
  live_of_visited := nofun
  of_target := fun _ hid => ⟨hid, List.not_mem_nil⟩
  accounted := fun _ hid => .inl hid
  held_eq := rfl
  length_eq := fun _ => rfl
  error_last := by
    intro before e later hresults
    simp [Tour.start] at hresults
  error_mem := nofun
  finished := nofun

/-- As long as the broadcast goes on, no call has failed. -/
theorem error_not_mem (h : Orderly first tour) (hphase : tour.phase.isOver = false) (e : Error) :
    .error e ∉ tour.results := by
  intro hmem
  obtain ⟨before, later, hresults⟩ := List.append_of_mem hmem
  rw [(h.error_last before e later hresults).2] at hphase
  cases hphase

/-- The order is kept while the pool changes, since no number is given again. -/
theorem renew (h : Orderly first tour) (hgiven : ∀ id ∈ first.live, id < first.nextId)
    {ledger : Ledger} (hrenews : tour.ledger.pool.Renews ledger.pool) :
    Orderly first { tour with ledger } := by
  have hgone : ∀ id ∈ first.live, id ∉ tour.ledger.pool.live → id ∉ ledger.pool.live :=
    fun id hid => hrenews.not_mem_live (Nat.lt_of_lt_of_le (hgiven id hid) h.renews.nextId_le)
  refine { h with renews := h.renews.trans hrenews, accounted := ?_, finished := ?_ }
  · intro id hid
    exact (h.accounted id hid).imp_right fun hcase => hcase.imp_right (hgone id hid)
  · intro hphase id hid
    exact (h.finished hphase id hid).imp_right (hgone id hid)

/-- A target is visited. -/
theorem visit (h : Orderly first tour) (hphase : tour.phase = .choosing) {member : Member}
    {next : Broadcast} {rest : Pool}
    (hnext : tour.broadcast.next tour.ledger.pool = .visit member next rest) :
    Orderly first { tour with
      ledger := { tour.ledger with pool := rest }
      broadcast := next
      phase := .calling member
      visited := tour.visited ++ [member.id] } := by
  obtain ⟨htarget, htargets, hheld⟩ := Broadcast.next_eq_visit hnext
  have hrest := (Pool.visit_eq hnext).2
  have hvisited := h.of_target member.id htarget
  have hleft : ∀ id, id ∈ next.targets ↔
      (id ∈ tour.broadcast.targets ∧ id ∈ tour.ledger.pool.live) ∧ id ≠ member.id := by
    intro id
    rw [htargets]
    simp only [List.mem_filter, List.contains_iff_mem, decide_eq_true_eq]
  have hnone := h.error_not_mem (by rw [hphase]; rfl)
  constructor
  · rw [hrest]
    exact h.renews.trans (.of_eq rfl rfl)
  · rw [List.nodup_append_comm, List.singleton_append, List.nodup_cons]
    exact ⟨hvisited.2, h.nodup_visited⟩
  · intro id hid
    rcases List.mem_append.mp hid with hold | hnew
    · exact h.live_of_visited id hold
    · rw [List.mem_singleton.mp hnew]
      exact hvisited.1
  · intro id hid
    obtain ⟨⟨hold, -⟩, hne⟩ := (hleft id).mp hid
    obtain ⟨hlive, hnot⟩ := h.of_target id hold
    exact ⟨hlive, by simp [hnot, hne]⟩
  · intro id hid
    by_cases hmember : id = member.id
    · exact .inr (.inl (by simp [hmember]))
    · rcases h.accounted id hid with hold | hold | hgone
      · by_cases hlive : id ∈ tour.ledger.pool.live
        · exact .inl ((hleft id).mpr ⟨⟨hold, hlive⟩, hmember⟩)
        · rw [hrest]
          exact .inr (.inr hlive)
      · exact .inr (.inl (List.mem_append_left _ hold))
      · rw [hrest]
        exact .inr (.inr hgone)
  · have hids := h.held_eq
    rw [hphase] at hids
    rw [← hids, hheld]
    simp [Phase.current]
  · intro _
    have hlength := h.length_eq (by rw [hphase]; nofun)
    rw [hphase] at hlength
    rw [List.length_append, ← hlength]
    rfl
  · intro before e later hresults
    exact absurd (by rw [hresults]; simp) (hnone e)
  · nofun
  · nofun

/-- A broadcast that waits forgets targets that are gone. -/
theorem wait (h : Orderly first tour) {next : Broadcast}
    (hnext : tour.broadcast.next tour.ledger.pool = .waits next) :
    Orderly first { tour with broadcast := next } := by
  obtain ⟨htargets, hheld⟩ := Broadcast.next_eq_waits hnext
  refine { h with of_target := ?_, accounted := ?_, held_eq := ?_ }
  · intro id hid
    rw [htargets] at hid
    exact h.of_target id (List.mem_of_mem_filter hid)
  · intro id hid
    rcases h.accounted id hid with hold | hcase
    · by_cases hlive : id ∈ tour.ledger.pool.live
      · rw [htargets]
        exact .inl (List.mem_filter.mpr ⟨hold, List.contains_iff_mem.mpr hlive⟩)
      · exact .inr (.inr hlive)
    · exact .inr hcase
  · rw [hheld]
    exact h.held_eq

/-- If none of the results before is an error, only the last one may be. -/
theorem eq_error_of_append {results before later : List (Except Error Answer)}
    {last : Except Error Answer} {e : Error} (hnone : ∀ e, .error e ∉ results)
    (h : results ++ [last] = before ++ .error e :: later) : later = [] ∧ last = .error e := by
  rcases List.eq_nil_or_concat later with rfl | ⟨front, final, rfl⟩
  · exact ⟨rfl, List.singleton_inj.mp (List.append_inj' h rfl).2⟩
  · have hsplit : results ++ [last] = (before ++ .error e :: front) ++ [final] := by
      rw [h, List.concat_eq_append, List.append_assoc, List.cons_append]
    have hresults := (List.append_inj' hsplit rfl).1
    exact absurd (by rw [hresults]; simp) (hnone e)

/-- A call that has ended leaves its member to the broadcast. -/
theorem held_of_hold (h : Orderly first tour) {member : Member}
    (hphase : tour.phase = .calling member) (conn : Connection) :
    (tour.broadcast.hold { member with conn }).held.map Member.id = tour.visited := by
  rw [← h.held_eq, hphase, Broadcast.hold, List.map_append]
  rfl

/-- A call that has ended leaves its result. -/
theorem length_of_hold (h : Orderly first tour) {member : Member}
    (hphase : tour.phase = .calling member) (result : Except Error Answer) :
    (tour.results ++ [result]).length = tour.visited.length := by
  rw [← h.length_eq (by rw [hphase]; nofun), hphase, List.length_append]
  rfl

/-- A call succeeds. -/
theorem succeed (h : Orderly first tour) {member : Member} (hphase : tour.phase = .calling member)
    (conn : Connection) (answer : Answer) :
    Orderly first { tour.answered member conn (.ok answer) with phase := .choosing } := by
  have hnone := h.error_not_mem (by rw [hphase]; rfl)
  refine { h with
    held_eq := ?_, length_eq := ?_, error_last := ?_, error_mem := nofun, finished := nofun }
  · exact (List.append_nil _).trans (h.held_of_hold hphase conn)
  · exact fun _ => h.length_of_hold hphase (.ok answer)
  · intro before e later hresults
    cases (eq_error_of_append hnone hresults).2

/-- The first call that fails ends the broadcast. -/
theorem fail (h : Orderly first tour) {member : Member} (hphase : tour.phase = .calling member)
    (conn : Connection) (e : Error) :
    Orderly first { tour.answered member conn (.error e) with phase := .returned (.error e) } := by
  have hnone := h.error_not_mem (by rw [hphase]; rfl)
  refine { h with
    held_eq := ?_, length_eq := ?_, error_last := ?_, error_mem := ?_, finished := nofun }
  · exact (List.append_nil _).trans (h.held_of_hold hphase conn)
  · exact fun _ => h.length_of_hold hphase (.error e)
  · intro before found later hresults
    obtain ⟨hlater, hlast⟩ := eq_error_of_append hnone hresults
    cases hlast
    exact ⟨hlater, rfl⟩
  · rintro found ⟨⟩
    exact .inl (List.mem_append_right _ (List.mem_singleton.mpr rfl))

/-- A broadcast ends between its calls: when no target is left, or without success. -/
theorem stop (h : Orderly first tour) (hphase : tour.phase = .choosing) (phase : Phase)
    (hover : phase.isOver = true) (herror : ∀ e, phase = .returned (.error e) → e = .poolClosed)
    (hok : phase = .returned (.ok ()) →
      ∀ id ∈ tour.broadcast.targets, id ∉ tour.ledger.pool.live) :
    Orderly first { tour with phase } := by
  have hnone := h.error_not_mem (by rw [hphase]; rfl)
  have hids := h.held_eq
  have hlength := h.length_eq (by rw [hphase]; nofun)
  rw [hphase] at hids hlength
  have hcurrent : phase.current = [] := by
    cases phase with
    | calling member => cases hover
    | _ => rfl
  refine { h with
    held_eq := ?_, length_eq := ?_, error_last := ?_, error_mem := ?_, finished := ?_ }
  · dsimp only
    rw [hcurrent]
    exact hids
  · intro _
    dsimp only
    rw [hcurrent]
    exact hlength
  · intro before e later hresults
    exact absurd (by rw [hresults]; simp) (hnone e)
  · exact fun e he => .inr (herror e he)
  · intro hreturned id hid
    rcases h.accounted id hid with htarget | hcase
    · exact .inr (hok hreturned id htarget)
    · exact hcase

/-- A broadcast is given up in a call. -/
theorem giveUpCall (h : Orderly first tour) {member : Member}
    (hphase : tour.phase = .calling member) (conn : Connection) :
    Orderly first { tour with
      broadcast := tour.broadcast.hold { member with conn }
      phase := .givenUp } := by
  have hnone := h.error_not_mem (by rw [hphase]; rfl)
  refine { h with
    held_eq := ?_, length_eq := ?_, error_last := ?_, error_mem := nofun, finished := nofun }
  · exact (List.append_nil _).trans (h.held_of_hold hphase conn)
  · exact fun hphase => absurd rfl hphase
  · intro before e later hresults
    exact absurd (by rw [hresults]; simp) (hnone e)

/-- The members come back at the end. -/
theorem endedWith (hgiven : ∀ id ∈ first.live, id < first.nextId) {phase : Phase}
    (h : Orderly first { tour with phase }) (returned : List Member) :
    Orderly first (tour.endedWith returned phase) :=
  h.renew hgiven (Pool.renews_releaseAll _ _)

/-- Every step keeps a broadcast in order. -/
theorem step (h : Orderly first tour) (hgiven : ∀ id ∈ first.live, id < first.nextId)
    (hstep : tour.Step after) : Orderly first after := by
  cases hstep with
  | others hothers => exact h.renew hgiven hothers.renews
  | visit hphase hnext => exact h.visit hphase hnext
  | succeed conn answer hphase => exact h.succeed hphase conn answer
  | fail conn e hphase => exact (h.fail hphase conn e).endedWith hgiven _
  | wait _ hnext => exact h.wait hnext
  | finish hphase hnext =>
    have hgone := Broadcast.next_eq_finished hnext
    exact (h.stop hphase (.returned (.ok ())) rfl nofun fun _ => hgone).endedWith hgiven _
  | refuse hphase hnext =>
    refine (h.stop hphase (.returned (.error .poolClosed)) rfl ?_ nofun).endedWith hgiven _
    rintro e ⟨⟩
    rfl
  | giveUp hphase => exact (h.stop hphase .givenUp rfl nofun nofun).endedWith hgiven _
  | giveUpCall conn hphase => exact (h.giveUpCall hphase conn).endedWith hgiven _

/-- A whole run keeps a broadcast in order. -/
theorem reaches (h : Orderly first tour) (hgiven : ∀ id ∈ first.live, id < first.nextId)
    (hreaches : tour.Reaches after) : Orderly first after := by
  induction hreaches with
  | refl => exact h
  | tail _ hstep ih => exact ih.step hgiven hstep

end Orderly

/-- What a broadcast has visited comes back when it ends. Each member is idle again, or it was
dropped and counts no more, and nobody has it. -/
structure Returns (tour after : Tour) : Prop where
  held_eq : after.broadcast.held.map Member.id = after.visited
  lent_eq : after.ledger.lent = tour.ledger.lent
  not_lent : ∀ id ∈ after.visited, id ∉ after.ledger.lent.map Member.id
  idle_of_kept : ∀ member ∈ after.broadcast.held, after.ledger.pool.drops member = false →
    member ∈ after.ledger.pool.idle
  gone_of_dropped : ∀ member ∈ after.broadcast.held, after.ledger.pool.drops member = true →
    member.id ∉ after.ledger.pool.live
  opened_eq : after.ledger.pool.opened + after.broadcast.held.countP after.ledger.pool.drops =
    tour.ledger.pool.opened

variable {capacity : Nat} {tour after : Tour} {member : Member}

/-- The pool, with what others have and what the broadcast holds. -/
def holding (tour : Tour) : Ledger :=
  ⟨tour.ledger.pool, tour.ledger.lent + tour.broadcast.held, tour.ledger.openings⟩

/-- A broadcast that calls holds its member besides. -/
theorem whole_calling (hphase : tour.phase = .calling member) :
    tour.whole = ⟨tour.ledger.pool, member ::ₘ (tour.ledger.lent + tour.broadcast.held),
      tour.ledger.openings⟩ := by
  rw [whole, stake, hphase, Multiset.add_cons]

/-- A broadcast between its calls has what it holds. -/
theorem whole_choosing (hphase : tour.phase = .choosing) : tour.whole = tour.holding := by
  rw [whole, stake, hphase, holding]

/-- A broadcast that is over has nothing. -/
theorem whole_over (hphase : tour.phase.isOver = true) : tour.whole = tour.ledger := by
  unfold whole stake
  cases hcase : tour.phase with
  | choosing =>
    rw [hcase] at hphase
    cases hphase
  | calling member =>
    rw [hcase] at hphase
    cases hphase
  | returned result => rw [add_zero]
  | givenUp => rw [add_zero]

/-- A call that ends leaves its member, with some connection. -/
theorem reaches_hold (hphase : tour.phase = .calling member) (conn : Connection) :
    tour.whole.Reaches ⟨tour.ledger.pool,
      tour.ledger.lent + (tour.broadcast.hold { member with conn }).held,
      tour.ledger.openings⟩ := by
  have hheld : tour.ledger.lent +
      ((tour.broadcast.hold { member with conn }).held : Multiset Member) =
      { member with conn } ::ₘ (tour.ledger.lent + (tour.broadcast.held : Multiset Member)) := by
    rw [Broadcast.hold, ← Multiset.coe_add, ← add_assoc, Multiset.coe_singleton, add_comm,
      Multiset.singleton_add]
  rw [whole_calling hphase, hheld]
  exact .single (.use conn)

/-- The members that are held come back, in whatever order. -/
theorem reaches_endedWith (tour : Tour) {returned : List Member}
    (hreturned : returned.Perm tour.broadcast.held) {phase : Phase}
    (hover : phase.isOver = true) : tour.holding.Reaches (tour.endedWith returned phase).whole := by
  have hwhole : (tour.endedWith returned phase).whole = (tour.endedWith returned phase).ledger :=
    whole_over hover
  rw [hwhole, holding, ← Multiset.coe_eq_coe.mpr hreturned, add_comm]
  exact Ledger.reaches_releaseAll returned tour.ledger.pool

/-- The members that are held come back. -/
theorem reaches_ended (tour : Tour) {phase : Phase} (hover : phase.isOver = true) :
    tour.holding.Reaches (tour.ended phase).whole := tour.reaches_endedWith (.refl _) hover

/-- A step of a broadcast is a row of steps of its pool. -/
theorem Step.whole (h : tour.Step after) : tour.whole.Reaches after.whole := by
  cases h with
  | others hothers => exact .single (hothers.frame tour.stake)
  | visit hphase hnext =>
    have hheld := (Broadcast.next_eq_visit hnext).2.2
    rw [whole_choosing hphase, whole_calling rfl]
    dsimp only
    rw [hheld]
    exact .single (.visit hnext)
  | succeed conn answer hphase => exact reaches_hold hphase conn
  | @fail member conn e hphase =>
    refine (reaches_hold hphase conn).trans ?_
    exact reaches_ended (tour.answered member conn (.error e)) rfl
  | @wait next hphase hnext =>
    have hheld := (Broadcast.next_eq_waits hnext).2
    have hafter : { tour with broadcast := next }.whole = { tour with broadcast := next }.holding :=
      whole_choosing hphase
    rw [whole_choosing hphase, hafter, holding, holding]
    dsimp only
    rw [hheld]
  | finish hphase hnext =>
    rw [whole_choosing hphase]
    exact reaches_ended tour rfl
  | refuse hphase hnext =>
    rw [whole_choosing hphase]
    exact reaches_ended tour rfl
  | giveUp hphase =>
    rw [whole_choosing hphase]
    exact reaches_ended tour rfl
  | @giveUpCall member conn hphase =>
    refine (reaches_hold hphase conn).trans ?_
    exact reaches_endedWith { tour with broadcast := tour.broadcast.hold { member with conn } }
      (Broadcast.perm_hold _ _) rfl

/-- A run of a broadcast is a row of steps of its pool. -/
theorem Reaches.whole (h : tour.Reaches after) : tour.whole.Reaches after.whole := by
  induction h with
  | refl => exact .refl
  | tail _ hstep ih => exact ih.trans hstep.whole

/-- What is held comes back if the accounts of the pool agree, in whatever order. -/
theorem returns_endedWith (hbalanced : tour.holding.Balanced capacity) {returned : List Member}
    (hreturned : returned.Perm tour.broadcast.held) (phase : Phase)
    (hheld : tour.broadcast.held.map Member.id = tour.visited) :
    Returns tour (tour.endedWith returned phase) := by
  have hdrops := Pool.drops_releaseAll tour.ledger.pool returned
  have hcounted : returned.length ≤ tour.ledger.pool.opened := by
    have hopened := hbalanced.opened_eq
    dsimp only [holding] at hopened
    rw [Multiset.card_add, Multiset.coe_card, ← hreturned.length_eq] at hopened
    omega
  have hapart : Disjoint (tour.ledger.lent.map Member.id)
      ((tour.broadcast.held : Multiset Member).map Member.id) := by
    have hids := (Multiset.nodup_add.mp hbalanced.nodup_ids).2.1
    rw [holding, Multiset.map_add] at hids
    exact (Multiset.nodup_add.mp hids).2.2
  constructor
  · exact hheld
  · rfl
  · intro id hid hlent
    have hmem : id ∈ (tour.broadcast.held : Multiset Member).map Member.id := by
      rw [Multiset.map_coe, hheld]
      exact hid
    exact Multiset.disjoint_left.mp hapart hlent hmem
  · intro member hmember hkept
    refine Pool.mem_idle_releaseAll (hreturned.mem_iff.mpr hmember) ?_
    rw [← hdrops]
    exact hkept
  · intro member hmember hdropped
    refine Pool.not_mem_live_releaseAll hbalanced.nodup_live (hreturned.mem_iff.mpr hmember) ?_
    rw [← hdrops]
    exact hdropped
  · have hopened := Pool.opened_releaseAll hcounted
    rw [← hdrops, hreturned.countP_eq] at hopened
    exact hopened

/-- Whatever ends a broadcast, what it has visited comes back. -/
theorem Step.returns {first : Pool} (hbalanced : tour.whole.Balanced capacity)
    (horderly : Orderly first tour) (h : tour.Step after) (hphase : tour.phase.isOver = false)
    (hover : after.phase.isOver = true) : Returns tour after := by
  have hids := horderly.held_eq
  have hbetween (hchoosing : tour.phase = .choosing) (phase : Phase) :
      Returns tour (tour.ended phase) := by
    rw [whole_choosing hchoosing] at hbalanced
    rw [hchoosing] at hids
    exact returns_endedWith hbalanced (.refl _) phase ((List.append_nil _).symm.trans hids)
  cases h with
  | others hothers =>
    dsimp only at hover
    rw [hphase] at hover
    cases hover
  | visit => cases hover
  | succeed => cases hover
  | @fail member conn e hcalling =>
    have hheld := (reaches_hold hcalling conn).balanced hbalanced
    have hreturns : Returns (tour.answered member conn (.error e)) _ :=
      returns_endedWith hheld (.refl _) (.returned (.error e)) (horderly.held_of_hold hcalling conn)
    exact { hreturns with lent_eq := rfl }
  | wait =>
    dsimp only at hover
    rw [hphase] at hover
    cases hover
  | finish hchoosing => exact hbetween hchoosing _
  | refuse hchoosing => exact hbetween hchoosing _
  | giveUp hchoosing => exact hbetween hchoosing _
  | @giveUpCall member conn hcalling =>
    have hheld := (reaches_hold hcalling conn).balanced hbalanced
    have hreturns : Returns { tour with broadcast := tour.broadcast.hold { member with conn } } _ :=
      returns_endedWith hheld (Broadcast.perm_hold _ _) .givenUp
        (horderly.held_of_hold hcalling conn)
    exact { hreturns with lent_eq := rfl }

end Tour

end StoreClient
