import StoreClient.Proofs.Tours

/-!
# Broadcasts at a desk

What a desk does for a broadcast is a run of its tour, also where the broadcast waits and goes on
later, when others have done something. So whatever is proved of tours holds of the broadcasts
at a desk.
-/

namespace StoreClient

/-- The tour is where an attempt to continue the broadcast has left it. -/
def Tour.Shows (tour : Tour) : Desk.Attempt → Prop
  | .ended (.visited visits result) => tour.phase = .returned result ∧ tour.results = visits
  | .ended _ => tour.phase = .givenUp
  | .waits (.broadcast broadcast _ visits) =>
    tour.phase = .choosing ∧ tour.broadcast = broadcast ∧ tour.results = visits
  | .waits _ => False

/-- Continuing a broadcast at a desk is a run of its tour, in which others do nothing. -/
theorem Desk.tour_continueBroadcast (desk : Desk) (request : Request)
    (visits : List (Except Error Answer)) (broadcast : Broadcast) {tour : Tour}
    (hpool : tour.ledger.pool = desk.pool)
    (hshows : tour.Shows (.waits (.broadcast broadcast request visits))) :
    ∃ after, tour.Reaches after ∧
      after.ledger = ⟨(desk.continueBroadcast request visits broadcast).2.pool, tour.ledger.lent,
        tour.ledger.openings⟩ ∧
      after.Shows (desk.continueBroadcast request visits broadcast).1 := by
  fun_induction Desk.continueBroadcast desk request visits broadcast generalizing tour with
  | case1 desk visits broadcast hnext =>
    obtain ⟨hphase, rfl, rfl⟩ := hshows
    rw [← hpool] at hnext
    refine ⟨_, .single (.finish hphase hnext), ?_, rfl, rfl⟩
    rw [Tour.ended, Tour.endedWith, hpool]
    rfl
  | case2 desk visits broadcast hnext =>
    obtain ⟨hphase, rfl, rfl⟩ := hshows
    rw [← hpool] at hnext
    refine ⟨_, .single (.refuse hphase hnext), ?_, rfl, rfl⟩
    rw [Tour.ended, Tour.endedWith, hpool]
    rfl
  | case3 desk visits broadcast next hnext =>
    obtain ⟨hphase, rfl, rfl⟩ := hshows
    rw [← hpool] at hnext
    refine ⟨_, .single (.wait hphase hnext), ?_, hphase, rfl, rfl⟩
    rw [← hpool]
  | case4 desk visits broadcast member next rest hnext line after held answer hanswer =>
    rename_i ih
    obtain ⟨hphase, rfl, rfl⟩ := hshows
    rw [← hpool] at hnext
    have hvisit := Relation.ReflTransGen.single (Tour.Step.visit hphase hnext)
    let middle : Tour := ⟨⟨rest, tour.ledger.lent, tour.ledger.openings⟩, held, .choosing,
      tour.visited ++ [member.id], tour.results ++ [.ok answer]⟩
    have hmiddle : tour.Reaches middle := hvisit.tail (.succeed line.conn answer rfl)
    obtain ⟨last, hreaches, hledger, hlast⟩ := @ih middle rfl ⟨rfl, rfl, rfl⟩
    exact ⟨last, hmiddle.trans hreaches, hledger, hlast⟩
  | case5 desk visits broadcast member next rest hnext line after held e =>
    obtain ⟨hphase, rfl, rfl⟩ := hshows
    rw [← hpool] at hnext
    have hvisit := Relation.ReflTransGen.single (Tour.Step.visit hphase hnext)
    exact ⟨_, hvisit.tail (.fail line.conn e rfl), rfl, rfl, rfl⟩
  | case6 desk visits broadcast member next rest hnext line after held =>
    obtain ⟨hphase, rfl, rfl⟩ := hshows
    rw [← hpool] at hnext
    have hvisit := Relation.ReflTransGen.single (Tour.Step.visit hphase hnext)
    exact ⟨_, hvisit.tail (.giveUpCall line.conn rfl), rfl, rfl⟩

/-- What others do is a run of a tour. -/
theorem Tour.Reaches.others {tour : Tour} {ledger : Ledger} (h : tour.ledger.Reaches ledger) :
    tour.Reaches { tour with ledger } := by
  induction h with
  | refl => exact .refl
  | tail _ hstep ih => exact ih.tail (.others hstep)

namespace Desk

variable {pool : Pool} {desk after : Desk} {stake left others : Stake} {waiting : Waiting}
  {name : String} {calls rest : List (String × Waiting)} {call : String × Waiting}

/-- A broadcast changes nothing of what is lent under a name. -/
theorem lent_continueBroadcast (desk : Desk) (request : Request)
    (visits : List (Except Error Answer)) (broadcast : Broadcast) :
    (desk.continueBroadcast request visits broadcast).2.lent = desk.lent := by
  fun_induction continueBroadcast desk request visits broadcast with
  | case4 desk visits broadcast member next rest hnext line after held answer _ ih => exact ih
  | _ => rfl

/-- If the call is a broadcast, it is on a tour through the pool, where others have so much. -/
def OnTour (pool : Pool) (desk : Desk) (others : Stake) (waiting : Waiting) : Prop :=
  ∀ broadcast request visits, waiting = .broadcast broadcast request visits →
    ∃ ledger tour, (Ledger.start pool).Reaches ledger ∧ (Tour.start ledger).Reaches tour ∧
      tour.ledger = desk.ledgerWith others ∧ tour.Shows (.waits waiting)

/-- Each of the calls that is a broadcast is on a tour, where the other calls are others. -/
def Tours (pool : Pool) (desk : Desk) (calls : List (String × Waiting)) : Prop :=
  ∀ call rest, calls.Perm (call :: rest) → desk.OnTour pool (stakes rest) call.2

/-- What others do happens on the tour. -/
theorem OnTour.moves (h : desk.OnTour pool (stake + others) waiting)
    (hmoves : desk.Moves stake after left) : after.OnTour pool (left + others) waiting := by
  intro broadcast request visits hwaiting
  obtain ⟨ledger, tour, hledger, htour, heq, hshows⟩ := h broadcast request visits hwaiting
  have hothers := hmoves.reaches others
  rw [← heq] at hothers
  refine ⟨ledger, _, hledger, htour.trans (Tour.Reaches.others hothers), rfl, ?_⟩
  subst hwaiting
  exact hshows

/-- A one-shot request that waits is the same further on. -/
theorem once_waits (desk : Desk) (request : Request) (next : Waiting)
    (h : (desk.once request).1 = .waits next) : next = .once request := by
  unfold once at h
  split at h
  · -- A member that is lent answers, fails or stays silent, and the request ends each time.
    dsimp only at h
    split at h
    split at h <;> cases h
  · cases h
  · cases h
    rfl
  · cases h

/-- A call that goes on stays on its tour. -/
theorem OnTour.attempt (h : desk.OnTour pool others waiting) {next : Waiting}
    (hattempt : desk.attempt name waiting = (.waits next, after)) :
    after.OnTour pool others next := by
  intro broadcast request visits hnext
  subst hnext
  cases waiting with
  | borrow wouldWait =>
    unfold Desk.attempt at hattempt
    dsimp only at hattempt
    cases hborrow : desk.borrow wouldWait with
    | mk result middle =>
      rw [hborrow] at hattempt
      cases result <;> cases hattempt
  | opening => cases hattempt
  | broadcast old asked answers =>
    obtain ⟨ledger, tour, hledger, htour, heq, hshows⟩ := h old asked answers rfl
    have hpool : tour.ledger.pool = desk.pool := by rw [heq, ledgerWith]
    have hlent := lent_continueBroadcast desk asked answers old
    obtain ⟨last, hlast, hafter, hends⟩ :=
      tour_continueBroadcast desk asked answers old hpool hshows
    have hcontinued : desk.continueBroadcast asked answers old =
      (.waits (.broadcast broadcast request visits), after) := hattempt
    rw [hcontinued] at hlent hafter hends
    refine ⟨ledger, last, hledger, htour.trans hlast, ?_, hends⟩
    rw [hafter, heq, ledgerWith, ledgerWith, hlent]
  | once asked =>
    have hresult : (desk.once asked).1 = .waits (.broadcast broadcast request visits) :=
      congrArg Prod.fst hattempt
    cases once_waits desk asked _ hresult

/-- In another order of some calls, the first one is the same, or it is among those behind. -/
theorem perm_cons_cases {α : Type} {a b : α} {front back : List α}
    (h : (a :: front).Perm (b :: back)) :
    (b = a ∧ front.Perm back) ∨ ∃ more, front.Perm (b :: more) ∧ back.Perm (a :: more) := by
  have hmem : b ∈ a :: front := h.mem_iff.mpr List.mem_cons_self
  rcases List.mem_cons.mp hmem with rfl | hfront
  · exact .inl ⟨rfl, (List.perm_cons _).mp h⟩
  · obtain ⟨left, right, rfl⟩ := List.append_of_mem hfront
    have hmiddle : (left ++ b :: right).Perm (b :: (left ++ right)) := List.perm_middle
    refine .inr ⟨left ++ right, hmiddle, (List.perm_cons b).mp ?_⟩
    exact h.symm.trans ((hmiddle.cons a).trans (.swap b a _))

namespace Tours

/-- The order of the calls does not matter. -/
theorem perm (h : desk.Tours pool calls) (hperm : calls.Perm rest) : desk.Tours pool rest :=
  fun call others hothers => h call others (hperm.trans hothers)

/-- What others do happens on every tour. -/
theorem moves (h : desk.Tours pool (calls ++ rest)) (hmoves : desk.Moves (stakes calls) after 0) :
    after.Tours pool rest := by
  intro call others hothers
  have hperm : (calls ++ rest).Perm (call :: (calls ++ others)) :=
    (hothers.append_left calls).trans List.perm_middle
  have htour := h call (calls ++ others) hperm
  rw [stakes_append] at htour
  have hmoved := htour.moves hmoves
  rw [zero_add] at hmoved
  exact hmoved

/-- A call that ends leaves the others on their tours. -/
theorem ended (hnamed : desk.Named) (h : desk.Tours pool (call :: rest)) {outcome : Outcome}
    (hattempt : desk.attempt call.1 call.2 = (.ended outcome, after)) : after.Tours pool rest := by
  have hmoves := moves_attempt hnamed call.1 call.2
  have hstake : stakes [call] = call.2.stake := by
    rw [stakes, List.map_singleton, List.sum_singleton]
  rw [hattempt, ← hstake] at hmoves
  exact moves h hmoves

/-- A call that goes on stays on its tour, and so do the others. -/
theorem waits (hnamed : desk.Named) (h : desk.Tours pool (call :: rest)) {next : Waiting}
    (hattempt : desk.attempt call.1 call.2 = (.waits next, after)) :
    after.Tours pool ((call.1, next) :: rest) := by
  have hmoves := moves_attempt hnamed call.1 call.2
  rw [hattempt] at hmoves
  intro other others hothers
  rcases perm_cons_cases hothers with ⟨rfl, hsame⟩ | ⟨more, hrest, hmore⟩
  · exact (h call others (hsame.cons call)).attempt hattempt
  · have htour := h other (call :: more) ((hrest.cons call).trans (.swap other call more))
    rw [stakes, List.map_cons, List.sum_cons] at htour
    rw [stakes_perm hmore, stakes, List.map_cons, List.sum_cons]
    exact htour.moves hmoves

/-- A call that starts has nothing yet. -/
theorem cons (h : desk.Tours pool rest) (hnothing : call.2.stake = 0)
    (hcall : desk.OnTour pool (stakes rest) call.2) : desk.Tours pool (call :: rest) := by
  intro other others hothers
  rcases perm_cons_cases hothers with ⟨rfl, hsame⟩ | ⟨more, hrest, hmore⟩
  · rw [← stakes_perm hsame]
    exact hcall
  · rw [stakes_perm hmore, stakes, List.map_cons, List.sum_cons, hnothing, zero_add]
    exact h other more hrest

end Tours

/-- A desk with this pool: whatever has happened at it were steps of the pool, and the
broadcasts that wait are on their tours. -/
structure Hosts (desk : Desk) (pool : Pool) : Prop where
  reaches : (Ledger.start pool).Reaches desk.ledger
  named : desk.Named
  tours : desk.Tours pool desk.waiting

namespace Hosts

/-- A desk at which nothing has happened. -/
theorem start (pool : Pool) (net : Network) : Hosts ⟨pool, net, [], []⟩ pool := by
  refine ⟨.refl, List.nodup_nil, fun call rest hperm => ?_⟩
  cases hperm.nil_eq

/-- Something is done that leaves the waiting calls alone. -/
theorem moves (h : desk.Hosts pool) (hmoves : desk.Moves 0 after 0) : after.Hosts pool := by
  refine ⟨h.reaches.trans hmoves.advances.reaches, hmoves.named, ?_⟩
  rw [hmoves.waiting_eq]
  have htours : desk.Tours pool ([] ++ desk.waiting) := h.tours
  exact htours.moves hmoves

/-- A call starts. -/
theorem begin (h : desk.Hosts pool) (name : String) (hnothing : waiting.stake = 0)
    (hcall : desk.OnTour pool (stakes desk.waiting) waiting) :
    (desk.begin name waiting).2.Hosts pool := by
  have hadvances := Advances.begin h.named name hnothing
  refine ⟨h.reaches.trans hadvances.reaches, hadvances.named, ?_⟩
  have hmoves := moves_attempt h.named name waiting
  have htours : desk.Tours pool ((name, waiting) :: desk.waiting) := h.tours.cons hnothing hcall
  unfold Desk.begin
  cases hattempt : desk.attempt name waiting with
  | mk result after =>
    rw [hattempt] at hmoves
    cases result with
    | ended outcome =>
      dsimp only
      rw [hmoves.waiting_eq]
      exact htours.ended h.named hattempt
    | waits next =>
      dsimp only
      rw [hmoves.waiting_eq]
      exact (htours.waits h.named hattempt).perm (List.perm_append_singleton _ _).symm

/-- Calls are dropped. -/
theorem dropWaiting (h : desk.Hosts pool) (name : String) :
    (desk.dropWaiting name).2.Hosts pool := by
  have hadvances := Advances.dropWaiting h.named name
  refine ⟨h.reaches.trans hadvances.reaches, hadvances.named, ?_⟩
  let kept : Desk := { desk with waiting := desk.waiting.filter (·.1 ≠ name) }
  have hkept : kept.Named := h.named
  have hdropped := moves_abandonAll hkept (desk.waiting.filter (·.1 = name))
  have hsplit : desk.waiting.Perm (desk.waiting.filter (·.1 = name) ++ kept.waiting) := by
    refine (List.filter_append_perm (·.1 = name) desk.waiting).symm.trans ?_
    simp [kept]
  have htours : kept.Tours pool (desk.waiting.filter (·.1 = name) ++ kept.waiting) :=
    h.tours.perm hsplit
  have hmoved := htours.moves hdropped
  rw [← hdropped.waiting_eq] at hmoved
  exact hmoved

/-- A new broadcast starts its tour. -/
theorem onTour_start (h : desk.Hosts pool) (request : Request) :
    desk.OnTour pool (stakes desk.waiting) (.broadcast (.start desk.pool) request []) := by
  rintro broadcast asked visits ⟨⟩
  exact ⟨desk.ledger, Tour.start desk.ledger, h.reaches, .refl, rfl, rfl, rfl, rfl⟩

/-- A task, without the calls that wait. -/
theorem perform (h : desk.Hosts pool) (task : Task) : (desk.perform task).2.Hosts pool := by
  have hsettings (template : Config) (request : Request) :
      (askAll { desk with pool := { desk.pool with template } } request).2.Hosts pool := by
    have hset := h.moves (moves_settings h.named template)
    exact hset.begin ownName rfl (hset.onTour_start request)
  cases task with
  | borrow name wouldWait => exact h.begin name rfl nofun
  | release name =>
    dsimp only [Desk.perform]
    split
    · exact h.moves (moves_giveBack h.named name 0)
    · exact h
  | ask name request => exact h.moves (moves_ask h.named name request)
  | askEach name request => exact h.begin name rfl (h.onTour_start request)
  | dropWaiting name => exact h.dropWaiting name
  | useNamespace path => exact hsettings _ _
  | login credentials => exact hsettings _ _
  | once request => exact h.begin ownName rfl nofun
  | close => exact h.moves ⟨fun _ => .single .close, rfl, h.named⟩
  | stopListening => exact h.moves ⟨fun _ => .refl, rfl, h.named⟩

/-- The waiting calls go on until one ends. -/
theorem tours_continueOne (hnamed : desk.Named) (before calls : List (String × Waiting))
    (h : desk.Tours pool (before ++ calls)) :
    (desk.continueOne before calls).2.Tours pool (desk.continueOne before calls).2.waiting := by
  induction calls generalizing desk before with
  | nil =>
    rw [List.append_nil] at h
    exact h
  | cons call rest ih =>
    obtain ⟨name, waiting⟩ := call
    have hmoves := moves_attempt hnamed name waiting
    have htours := h.perm List.perm_middle
    unfold Desk.continueOne
    cases hattempt : desk.attempt name waiting with
    | mk result after =>
      rw [hattempt] at hmoves
      cases result with
      | ended outcome =>
        have hended := htours.ended hnamed hattempt
        exact hended
      | waits next =>
        refine ih hmoves.named (before ++ [(name, next)]) ?_
        rw [List.append_assoc, List.singleton_append]
        exact (htours.waits hnamed hattempt).perm List.perm_middle.symm

/-- The waiting calls go on until one ends. -/
theorem continueOne (h : desk.Hosts pool) : (desk.continueOne [] desk.waiting).2.Hosts pool := by
  obtain ⟨hreaches, hnamed⟩ := Advances.continueOne h.named [] desk.waiting .refl
  exact ⟨h.reaches.trans hreaches, hnamed, tours_continueOne h.named [] desk.waiting h.tours⟩

/-- The waiting calls go on until none ends. -/
theorem continueMany (h : desk.Hosts pool) (n : Nat) : (desk.continueMany n).2.Hosts pool := by
  induction n generalizing desk with
  | zero => exact h
  | succ n ih =>
    have hone := h.continueOne
    unfold Desk.continueMany
    cases hresult : desk.continueOne [] desk.waiting with
    | mk woken after =>
      rw [hresult] at hone
      cases woken with
      | none => exact hone
      | some call => exact ih hone

/-- Tasks, one after the other. -/
theorem runAll (h : desk.Hosts pool) (tasks : List Task) : (desk.runAll tasks).Hosts pool := by
  induction tasks generalizing desk with
  | nil => exact h
  | cons task rest ih => exact ih ((h.perform task).continueMany _)

end Hosts

end Desk

/-- What a broadcast promises that started when this pool was as it is. -/
structure Tour.Fair (first : Pool) (tour : Tour) : Prop where
  nodup_visited : tour.visited.Nodup
  live_of_visited : ∀ id ∈ tour.visited, id ∈ first.live
  /-- Without an error, whatever was open was visited or is gone. -/
  visited_or_gone : tour.phase = .returned (.ok ()) →
    ∀ id ∈ first.live, id ∈ tour.visited ∨ id ∉ tour.ledger.pool.live
  /-- The call that fails is the last one, on the last member, and its error is returned. -/
  error_last : ∀ before e later, tour.results = before ++ .error e :: later →
    later = [] ∧ tour.results.length = tour.visited.length ∧ tour.phase = .returned (.error e)
  error_mem : ∀ e, tour.phase = .returned (.error e) → .error e ∈ tour.results ∨ e = .poolClosed
  /-- Whatever ends the broadcast, what it has visited comes back. -/
  returns : ∀ after, tour.Step after → tour.phase.isOver = false → after.phase.isOver = true →
    tour.Returns after

/-- Every broadcast in a balanced pool is fair. -/
theorem Ledger.Balanced.fair {capacity : Nat} {ledger : Ledger} {tour : Tour}
    (h : ledger.Balanced capacity) (htour : (Tour.start ledger).Reaches tour) :
    tour.Fair ledger.pool := by
  have horderly := (Tour.Orderly.start ledger).reaches h.lt_nextId htour
  have hstart : (Tour.start ledger).whole = ledger := by
    rw [Tour.whole, Tour.stake, Tour.start, Broadcast.start, Multiset.coe_nil, add_zero]
  have hbalanced : tour.whole.Balanced capacity := by
    refine (Tour.Reaches.whole htour).balanced ?_
    rw [hstart]
    exact h
  refine ⟨horderly.nodup_visited, horderly.live_of_visited, horderly.finished, ?_,
    horderly.error_mem, fun after hstep => hstep.returns hbalanced horderly⟩
  intro before e later hresults
  obtain ⟨hlater, hphase⟩ := horderly.error_last before e later hresults
  have hlength := horderly.length_eq (by simp [hphase])
  rw [hphase] at hlength
  exact ⟨hlater, hlength, hphase⟩

/-- The desk goes on with a broadcast as a tour through its pool does. -/
theorem Desk.OnTour.continues {pool : Pool} {desk : Desk} {others : Stake} {broadcast : Broadcast}
    {request : Request} {visits : List (Except Error Answer)}
    (h : desk.OnTour pool others (.broadcast broadcast request visits)) :
    ∃ ledger tour after, (Ledger.start pool).Reaches ledger ∧ (Tour.start ledger).Reaches tour ∧
      tour.Shows (.waits (.broadcast broadcast request visits)) ∧
      tour.ledger.pool = desk.pool ∧ tour.Reaches after ∧
      after.Shows (desk.continueBroadcast request visits broadcast).1 ∧
      after.ledger.pool = (desk.continueBroadcast request visits broadcast).2.pool := by
  obtain ⟨ledger, tour, hledger, htour, heq, hshows⟩ := h broadcast request visits rfl
  have hpool : tour.ledger.pool = desk.pool := by rw [heq, ledgerWith]
  obtain ⟨after, hafter, hleft, hends⟩ :=
    tour_continueBroadcast desk request visits broadcast hpool hshows
  exact ⟨ledger, tour, after, hledger, htour, hshows, hpool, hafter, hends, by rw [hleft]⟩

/-- A broadcast visits the members that were open when it started, each of them at most once, and
no others. If it succeeds, whatever was open then was visited or is gone. If a call fails, it is
the last one, and the broadcast returns its error. Whatever ends it, the members that it visited
come back: they are idle, or they are dropped and count no more. This holds whatever others and
the calls do meanwhile. What a desk does for a broadcast is such a run, when it starts and when
it goes on after it has waited. -/
theorem Broadcast.visits_each_once (template : Config) {capacity : Nat} (hcapacity : 1 ≤ capacity) :
    ∃ pool, Pool.create template capacity = .ok pool ∧
      (∀ ledger tour, (Ledger.start pool).Reaches ledger → (Tour.start ledger).Reaches tour →
        tour.Fair ledger.pool) ∧
      ∀ net tasks, ∃ desk, Desk.create template capacity net = .ok desk ∧
        ∀ name broadcast request visits,
          (name, .broadcast broadcast request visits) ∈ (desk.runAll tasks).waiting ∨
            broadcast = .start (desk.runAll tasks).pool ∧ visits = [] →
          ∃ ledger tour after, (Ledger.start pool).Reaches ledger ∧
            (Tour.start ledger).Reaches tour ∧
            tour.Shows (.waits (.broadcast broadcast request visits)) ∧
            tour.ledger.pool = (desk.runAll tasks).pool ∧ tour.Reaches after ∧
            after.Shows ((desk.runAll tasks).continueBroadcast request visits broadcast).1 ∧
            after.ledger.pool =
              ((desk.runAll tasks).continueBroadcast request visits broadcast).2.pool := by
  have hcreate := Pool.create_eq template hcapacity
  refine ⟨_, hcreate, fun ledger tour hledger htour => ?_, fun net tasks => ?_⟩
  · exact (hledger.balanced (.start hcreate)).fair htour
  · refine ⟨_, Desk.create_eq template hcapacity net, ?_⟩
    intro name broadcast request visits hcase
    have hrun := (Desk.Hosts.start ⟨capacity, template, [], [], false, 0, 1⟩ net).runAll tasks
    rcases hcase with hwaiting | ⟨rfl, rfl⟩
    · obtain ⟨before, later, hsplit⟩ := List.append_of_mem hwaiting
      have hperm := (List.Perm.of_eq hsplit).trans List.perm_middle
      exact (hrun.tours _ _ hperm).continues
    · exact (hrun.onTour_start request).continues

/-- The only member of a pool is visited. The call opens another one, and fails with its own
connection broken: the member is dropped, and the other one is not visited. -/
theorem Broadcast.visits_each_once_broken :
    let config : Config := .ofAddress "127.0.0.1:2003"
    let e : Error := .communication "failed to write to conn" .brokenPipe
    1 ≤ 2 ∧ ∃ pool ledger tour after, Pool.create config 2 = .ok pool ∧
      (Ledger.start pool).Reaches ledger ∧ ledger.pool.live = [1] ∧
      (Tour.start ledger).Reaches tour ∧ tour.Step after ∧ tour.Returns after ∧
      after.Fair ledger.pool ∧ after.phase = .returned (.error e) ∧ after.visited = [1] ∧
      after.ledger.pool.live = [2] ∧ after.ledger.pool.opened = 1 := by
  intro config e
  obtain ⟨pool, hcreate, hfair, -⟩ := Broadcast.visits_each_once config (by decide : 1 ≤ 2)
  obtain ⟨-, rfl⟩ := Pool.create_eq_ok hcreate
  let conn : Connection := .start config ⟨0, [], [], false⟩
  have hledger := Ledger.reaches_idle config (by decide : 1 ≤ 2) (rfl : conn.isClosed = false)
  have hroom : Pool.borrow ⟨2, config, [], [1], false, 1, 2⟩ false =
      .reserved ⟨2, config, [], [1], false, 2, 2⟩ := rfl
  have henroll : Pool.enroll ⟨2, config, [], [1], false, 2, 2⟩ conn =
      (.ok ⟨2, conn⟩, ⟨2, config, [], [2, 1], false, 2, 3⟩) := rfl
  let calling : Tour := ⟨⟨⟨2, config, [], [2, 1], false, 2, 3⟩, {⟨2, conn⟩}, 0⟩, ⟨[], []⟩,
    .calling ⟨1, conn⟩, [1], []⟩
  have hcalling :
      Tour.Reaches (.start ⟨⟨2, config, [⟨1, conn⟩], [1], false, 1, 2⟩, 0, 0⟩) calling :=
    ((Relation.ReflTransGen.single (.visit rfl rfl)).tail (.others (.reserve hroom))).tail
      (.others (.opened henroll))
  have hfail : calling.Step _ := .fail (conn.broken e) e rfl
  have hreturns := (hfair _ _ hledger hcalling).returns _ hfail rfl rfl
  exact ⟨by decide, _, _, calling, _, hcreate, hledger, rfl, hcalling, hfail, hreturns,
    hfair _ _ hledger (hcalling.tail hfail), rfl, rfl, rfl, rfl⟩

end StoreClient
