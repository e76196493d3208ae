import StoreClient.Proofs.Settings

/-!
# Settings of every member

The members have settings of their own, next to those for new members. A broadcast that selects a
namespace changes them one by one, on each member on which the call succeeds. This file shows that
once it has succeeded every member has the namespace, so that it rules every stream that is opened
from then on. Credentials are no such setting: a login is asked of the members, and only the new
ones log in with it again.
-/

namespace StoreClient

/-- If settings for new members are written, they have this one. -/
def Deed.WritesOnly (setting : Setting) (deed : Deed) : Prop :=
  ∀ template, deed = .write template → setting.HeldBy template

/-- Without an opening on its way at the start, every one on its way has the setting. -/
theorem Site.Governed.heldBy_pending {site before : Site} {setting : Setting}
    (h : site.Governed setting.HeldBy before) (hpending : before.pending = 0) :
    ∀ config ∈ site.pending, setting.HeldBy config := by
  intro config hconfig
  rcases h.pending config hconfig with hheld | hold
  · exact hheld
  · rw [hpending] at hold
    exact absurd hold (Multiset.notMem_zero _)

/-- Every member has the namespace, but for those with these numbers. -/
def Site.SelectedBut (site : Site) (path : String) (ids : List Nat) : Prop :=
  ∀ member ∈ site.members, member.id ∈ ids ∨ (Setting.select path).HeldBy member.conn.config

/-- A step in which no other namespace is selected, but on members with these numbers. -/
theorem Site.keeps_selectedBut {before : Site} {path : String} {ids : List Nat} {deed : Deed}
    (hpending : before.pending = 0) (hwrites : deed.WritesOnly (.select path))
    (hasks : ∀ id request result, deed = .ask id request result →
      id ∈ ids ∨ Connection.selectedBy (some path) request result = some path) :
    Keeps deed fun site =>
      site.Governed (Setting.select path).HeldBy before ∧ site.SelectedBut path ids := by
  rintro site after ⟨hgoverned, hselected⟩ hstep
  refine ⟨keeps_governed hwrites hgoverned hstep, fun member hmember => ?_⟩
  cases hstep.follows.members member hmember with
  | kept hold => exact hselected member hold
  | @used old request result hold hid hask hused =>
    -- Unless the member is excepted, the request selects the same namespace, or none.
    rw [hid]
    rcases hselected old hold with hout | hheld
    · exact .inl hout
    · rcases hasks _ _ _ hask with hout | hsame
      · exact .inl hout
      · right
        rw [(hused.config_eq (hgoverned.fits old hold)).1]
        have hpath : old.conn.config.defaultNamespace = some path := hheld
        rw [hpath, hsame]
        rfl
  | opened hid hconfig hestablish =>
    right
    rw [(Connection.under_of_establish hestablish).config_eq]
    exact hgoverned.heldBy_pending hpending _ hconfig

/-- The open members are those of the site. -/
theorem Site.live_eq {site : Site} {capacity : Nat} (h : site.ledger.Balanced capacity) :
    (site.pool.live : Multiset Nat) = site.members.map Member.id := by
  rw [members, Multiset.map_add, Multiset.map_coe]
  exact h.live_eq

/-- A member is open. -/
theorem Site.mem_live {site : Site} {capacity : Nat} (h : site.ledger.Balanced capacity)
    {member : Member} (hmember : member ∈ site.members) : member.id ∈ site.pool.live := by
  rw [← Multiset.mem_coe, live_eq h]
  exact Multiset.mem_map_of_mem _ hmember

/-- No two members have one number. -/
theorem Site.eq_of_id_eq {site : Site} {capacity : Nat} (h : site.ledger.Balanced capacity)
    {member other : Member} (hmember : member ∈ site.members) (hother : other ∈ site.members)
    (hid : member.id = other.id) : member = other := by
  have hnodup : (site.members.map Member.id).Nodup := by
    rw [← live_eq h]
    exact Multiset.coe_nodup.mpr h.nodup_live
  exact Multiset.inj_on_of_nodup_map hnodup member hmember other hother hid

/-- No call of the broadcast has failed, and it was not given up. -/
def Tour.Phase.isWell : Tour.Phase → Bool
  | choosing | calling _ | returned (.ok ()) => true
  | returned (.error _) | givenUp => false

namespace Errand

variable {errand after : Errand} {before : Site} {request : Request} {deed : Deed} {path : String}
  {capacity : Nat}

/-- The numbers of the members on which the call has not ended. -/
def awaited (errand : Errand) : List Nat := errand.broadcast.targets ++ errand.phase.current

/-- Between its calls a broadcast awaits its targets. -/
theorem awaited_choosing (hphase : errand.phase = .choosing) :
    errand.awaited = errand.broadcast.targets := by
  rw [awaited, hphase]
  exact List.append_nil _

/-- Others write no other namespace for new members, and select none but on members that the
broadcast has not visited. -/
def Spares (path : String) (errand : Errand) (deed : Deed) : Prop :=
  deed.WritesOnly (.select path) ∧ ∀ id request result, deed = .ask id request result →
    id ∈ errand.awaited ∨ Connection.selectedBy (some path) request result = some path

/-- What concerns no settings spares the selection. -/
theorem spares_other (path : String) (errand : Errand) : errand.Spares path .other :=
  ⟨nofun, nofun⟩

/-- Selecting the namespace itself spares the selection. -/
theorem spares_use (path : String) (errand : Errand) (id : Nat) (result : Except Halt Answer) :
    errand.Spares path (.ask id (.use path) result) := by
  refine ⟨nofun, fun _ _ _ hask => .inr ?_⟩
  cases hask
  cases result <;> rfl

/-- A broadcast that selects a namespace, on its course. -/
structure OnCourse (errand : Errand) (path : String) (capacity : Nat) (before : Site) : Prop where
  balanced : errand.whole.ledger.Balanced capacity
  governed : errand.whole.Governed (Setting.select path).HeldBy before
  selected : errand.phase.isWell = true → errand.whole.SelectedBut path errand.awaited

/-- The targets that are left are those that are open. -/
theorem mem_targets_of_waits (hbalanced : errand.whole.ledger.Balanced capacity)
    {next : Broadcast} (hnext : errand.broadcast.next errand.site.pool = .waits next)
    {member : Member} (hmember : member ∈ errand.whole.members)
    (htarget : member.id ∈ errand.broadcast.targets) : member.id ∈ next.targets := by
  rw [(Broadcast.next_eq_waits hnext).1]
  have hlive : member.id ∈ errand.site.pool.live := Site.mem_live hbalanced hmember
  exact List.mem_filter.mpr ⟨htarget, List.contains_iff_mem.mpr hlive⟩

/-- The targets that are left are those that are open, but for the one that is visited. -/
theorem mem_targets_of_visit (hbalanced : errand.whole.ledger.Balanced capacity)
    {next : Broadcast} {rest : Pool} {visited member : Member}
    (hnext : errand.broadcast.next errand.site.pool = .visit visited next rest)
    (hmember : member ∈ errand.whole.members) (htarget : member.id ∈ errand.broadcast.targets) :
    member.id ∈ next.targets ++ [visited.id] := by
  rw [(Broadcast.next_eq_visit hnext).2.1]
  have hlive : member.id ∈ errand.site.pool.live := Site.mem_live hbalanced hmember
  by_cases hvisited : member.id = visited.id
  · simp [hvisited]
  · simp [htarget, hlive, hvisited]

/-- A visit only moves a member. -/
theorem members_visit (hphase : errand.phase = .choosing) {next : Broadcast} {rest : Pool}
    {member : Member} (hnext : errand.broadcast.next errand.site.pool = .visit member next rest) :
    (errand.visit member next rest).whole.members = errand.whole.members := by
  have hafter : (errand.visit member next rest).whole = _ := whole_calling rfl
  obtain ⟨hidle, -⟩ := Pool.visit_eq hnext
  rw [hafter, whole_choosing hphase, Errand.visit, (Broadcast.next_eq_visit hnext).2.2,
    Site.members, Site.members, hidle, Multiset.add_cons, Multiset.cons_add]

/-- A member on which the call succeeds has selected the namespace, and no other member has its
number. -/
theorem selectedBut_settle {member : Member} {answer : Answer} {conn : Connection}
    (hused : Connection.Used (.use path) member.conn (.ok answer) conn) (hfits : member.conn.Fits)
    (hbalanced : (errand.settle member conn (.ok answer)).whole.ledger.Balanced capacity)
    (hselected : (errand.settle member conn (.ok answer)).whole.SelectedBut path
      (errand.broadcast.targets ++ [member.id])) :
    (errand.settle member conn (.ok answer)).whole.SelectedBut path errand.broadcast.targets := by
  have hheld : { member with conn } ∈ (errand.settle member conn (.ok answer)).whole.members := by
    rw [whole_choosing rfl]
    simp [settle, Broadcast.hold, Site.members]
  intro other hother
  rcases hselected other hother with hid | hselects
  · rcases List.mem_append.mp hid with htarget | hcalled
    · exact .inl htarget
    · have hsame := Site.eq_of_id_eq hbalanced hother hheld (List.mem_singleton.mp hcalled)
      have hconfig := (hused.config_eq hfits).1
      right
      rw [hsame]
      exact congrArg Config.defaultNamespace hconfig
  · exact .inr hselects

/-- A step of the broadcast after which no call has failed keeps every member selected but for
those that are awaited. -/
theorem Step.selectedBut (h : Step (.use path) errand deed after)
    (hfits : ∀ member ∈ errand.whole.members, member.conn.Fits)
    (hbalanced : errand.whole.ledger.Balanced capacity)
    (hafter : after.whole.ledger.Balanced capacity) (hwell : after.phase.isWell = true)
    (hselected : after.whole.SelectedBut path errand.awaited) :
    after.whole.SelectedBut path after.awaited := by
  cases h with
  | others => exact hselected
  | @visit member next rest hphase hnext =>
    have hmembers := members_visit hphase hnext
    intro other hother
    refine (hselected other hother).imp_left fun hawaited => ?_
    rw [awaited_choosing hphase] at hawaited
    exact mem_targets_of_visit hbalanced hnext (hmembers ▸ hother) hawaited
  | @call member result conn hphase hused =>
    rw [awaited, hphase, Tour.Phase.current] at hselected
    cases result with
    | error halt => cases halt <;> cases hwell
    | ok answer =>
      have hmember : member ∈ errand.whole.members := by
        rw [whole_calling hphase]
        simp [Site.members]
      have hdone := selectedBut_settle hused (hfits member hmember) hafter hselected
      rw [awaited, show (errand.settle member conn (.ok answer)).phase.current = [] from rfl,
        List.append_nil]
      exact hdone
  | @wait next hphase hnext =>
    intro other hother
    refine (hselected other hother).imp_left fun hawaited => ?_
    rw [awaited_choosing hphase] at hawaited
    rw [whole_waits hphase hnext] at hother
    exact List.mem_append_left _ (mem_targets_of_waits hbalanced hnext hother hawaited)
  | finish hphase =>
    rw [awaited, hphase] at hselected
    exact hselected
  | refuse => cases hwell
  | giveUp => cases hwell

/-- A step after which no call has failed comes after one of which this holds. -/
theorem Step.isWell (h : Step request errand deed after) (hwell : after.phase.isWell = true) :
    errand.phase.isWell = true := by
  cases h with
  | others => exact hwell
  | visit hphase => rw [hphase]; rfl
  | call hphase => rw [hphase]; rfl
  | wait => exact hwell
  | finish hphase => rw [hphase]; rfl
  | refuse hphase => rw [hphase]; rfl
  | giveUp hphase => rw [hphase]; rfl

/-- A step that spares the selection keeps the broadcast on its course. -/
theorem OnCourse.step (h : errand.OnCourse path capacity before) (hpending : before.pending = 0)
    (hspares : errand.Spares path deed) (hstep : Step (.use path) errand deed after) :
    after.OnCourse path capacity before := by
  have hledger {deed : Deed} : Site.Keeps deed fun site => site.ledger.Balanced capacity :=
    fun _ _ hbalanced hstep => hstep.ledger.balanced hbalanced
  have hbalanced : after.whole.ledger.Balanced capacity :=
    hstep.keeps hledger hledger h.balanced
  have hgoverned : after.whole.Governed (Setting.select path).HeldBy before :=
    hstep.keeps (Site.keeps_governed nofun) (Site.keeps_governed hspares.1) h.governed
  refine ⟨hbalanced, hgoverned, fun hwell => ?_⟩
  have hselected := h.selected (hstep.isWell hwell)
  have hother : Site.Keeps .other fun site =>
      site.Governed (Setting.select path).HeldBy before ∧ site.SelectedBut path errand.awaited :=
    Site.keeps_selectedBut hpending (spares_other path errand).1 (spares_other path errand).2
  have hdeed := Site.keeps_selectedBut hpending hspares.1 hspares.2
  have hkept := hstep.keeps hother hdeed ⟨h.governed, hselected⟩
  exact hstep.selectedBut h.governed.fits h.balanced hbalanced hwell hkept.2

/-- A run that spares the selection keeps the broadcast on its course. -/
theorem OnCourse.reaches (h : errand.OnCourse path capacity before) (hpending : before.pending = 0)
    (hreaches : Reaches (.use path) (Spares path) errand after) :
    after.OnCourse path capacity before := by
  induction hreaches with
  | refl => exact h
  | tail _ hstep ih =>
    obtain ⟨deed, hspares, hstep⟩ := hstep
    exact ih.step hpending hspares hstep

/-- Once the broadcast has succeeded, every member has selected the namespace. -/
theorem OnCourse.selected_of_returned (h : errand.OnCourse path capacity before) {first : Pool}
    (horderly : errand.tour.Orderly first) (hphase : errand.phase = .returned (.ok ())) :
    ∀ member ∈ errand.whole.members, (Setting.select path).HeldBy member.conn.config := by
  intro member hmember
  have hwell : errand.phase.isWell = true := by rw [hphase]; rfl
  have hlive : member.id ∈ errand.site.pool.live := Site.mem_live h.balanced hmember
  rcases h.selected hwell member hmember with hawaited | hheld
  · -- A target that is left is gone.
    rw [awaited, hphase, show Tour.Phase.current _ = [] from rfl, List.append_nil] at hawaited
    obtain ⟨hfirst, hvisited⟩ := horderly.of_target _ hawaited
    rcases horderly.finished hphase _ hfirst with hdone | hgone
    · exact absurd hdone hvisited
    · exact absurd hlive hgone
  · exact hheld

end Errand

/-- A broadcast at a site that a pool has reached is on its course from the start. -/
theorem Errand.onCourse_start {template : Config} {capacity : Nat} {pool : Pool}
    (hcreate : Pool.create template capacity = .ok pool) {before : Site}
    (hbefore : (Site.start pool).Reaches before) (path : String) {written : Config}
    (hwritten : (Setting.select path).HeldBy written) :
    (Errand.start (before.write written)).OnCourse path capacity before := by
  have hbalanced := hbefore.ledger.balanced (.start hcreate)
  have hwrite : (before.write written).ledger.Balanced capacity :=
    (Site.Step.settings written).ledger.balanced hbalanced
  obtain ⟨-, rfl⟩ := Pool.create_eq_ok hcreate
  constructor
  · rw [whole_start]
    exact hwrite
  · rw [whole_start]
    exact Site.governed_write (hbefore.fits rfl) hwritten
  · intro _ member hmember
    rw [whole_start] at hmember
    rw [awaited_choosing rfl]
    exact .inl (Site.mem_live hwrite hmember)

/-- What a broadcast rules when the pool has no opening on its way. From the moment in which
credentials are written, every opening that starts and every new member logs in with them, as long
as no others are written; a member that was there logs in with those that it was opened with, also
after the broadcast has succeeded. A namespace rules more: once its broadcast has succeeded, every
opening and every member, new or not, selects it on each stream that is opened, as long as nobody
selects another one. -/
theorem Pool.broadcast_rules_streams (template : Config) {capacity : Nat}
    (hcapacity : 1 ≤ capacity) :
    ∃ pool, Pool.create template capacity = .ok pool ∧
      ∀ before, (Site.start pool).Reaches before → before.pending = 0 →
        (∀ credentials errand,
          Errand.Reaches (.login credentials.username credentials.token)
            (fun _ deed => deed.WritesOnly (.login credentials))
            (.start (before.write ((Setting.login credentials).on before.pool.template))) errand →
          (Setting.login credentials).RulesNew errand.site.pool.template ∧
          (∀ config ∈ errand.site.pending, (Setting.login credentials).RulesNew config) ∧
          ∀ member ∈ errand.whole.members,
            before.pool.nextId ≤ member.id ∧ (Setting.login credentials).Rules member.conn ∨
            ∃ old ∈ before.members, old.id = member.id ∧
              ∀ former, (Setting.login former).HeldBy old.conn.config →
                (Setting.login former).Rules member.conn) ∧
        ∀ path errand,
          Errand.Reaches (.use path) (Errand.Spares path)
            (.start (before.write ((Setting.select path).on before.pool.template))) errand →
          errand.phase = .returned (.ok ()) →
          (Setting.select path).RulesNew errand.site.pool.template ∧
          (∀ config ∈ errand.site.pending, (Setting.select path).RulesNew config) ∧
          ∀ member ∈ errand.site.members, (Setting.select path).Rules member.conn := by
  have hcreate := Pool.create_eq template hcapacity
  refine ⟨_, hcreate, fun before hbefore hpending => ⟨fun credentials errand herrand => ?_,
    fun path errand herrand hphase => ?_⟩⟩
  · have hgoverned : errand.whole.Governed (Setting.login credentials).HeldBy before :=
      Errand.governed_of_write hcreate hbefore (Setting.heldBy_on _ _)
        (fun _ template honly => honly template rfl) herrand
    refine ⟨hgoverned.template.rulesNew, fun config hconfig => ?_, fun member hmember => ?_⟩
    · exact (hgoverned.heldBy_pending hpending config hconfig).rulesNew
    · have hfits := hgoverned.fits member hmember
      cases hgoverned.inherits member hmember with
      | older path hold hid hconfig =>
        refine .inr ⟨_, hold, hid, fun former hformer => Setting.HeldBy.rules ?_ hfits⟩
        rw [hconfig]
        exact hformer
      | newer path hid hgood hconfig =>
        refine .inl ⟨hid, Setting.HeldBy.rules ?_ hfits⟩
        rw [hconfig]
        -- An opening that had started before would log in with what the pool had then.
        rcases hgood with hheld | hnone
        · exact hheld
        · rw [hpending] at hnone
          exact absurd hnone (Multiset.notMem_zero _)
  · have hwritten := Setting.heldBy_on (.select path) before.pool.template
    have hcourse := (Errand.onCourse_start hcreate hbefore path hwritten).reaches hpending herrand
    have hbalanced := hbefore.ledger.balanced (.start hcreate)
    let written := before.write ((Setting.select path).on before.pool.template)
    have horderly := (Tour.Orderly.start written.ledger).reaches hbalanced.lt_nextId herrand.tour
    have hselected := hcourse.selected_of_returned horderly hphase
    have hgoverned := hcourse.governed
    rw [Errand.whole_over (by rw [hphase]; rfl)] at hselected hgoverned
    refine ⟨hgoverned.template.rulesNew, fun config hconfig => ?_, fun member hmember => ?_⟩
    · exact (hgoverned.heldBy_pending hpending config hconfig).rulesNew
    · exact (hselected member hmember).rules (hgoverned.fits member hmember)

/-- The request is answered with success on this network, and leaves the connection open. -/
def Connection.succeeds (conn : Connection) (net : Network) (request : Request) : Bool :=
  match answer request ⟨conn, net⟩ with
  | (.ok _, line) => !line.conn.isClosed
  | _ => false

/-- A request that succeeds has an answer. -/
theorem Connection.exists_answer_of_succeeds {conn : Connection} {net : Network} {request : Request}
    (h : conn.succeeds net request = true) :
    ∃ a line, answer request ⟨conn, net⟩ = (.ok a, line) ∧ line.conn.isClosed = false := by
  unfold succeeds at h
  split at h
  · rename_i a line hanswer
    exact ⟨a, line, hanswer, Bool.not_eq_true' _ ▸ h⟩
  · cases h

/-- The only member selects a namespace and logs in with new credentials. Its next streams are
opened with the new namespace, and with the credentials that it was opened with. -/
theorem Pool.broadcast_rules_streams_only :
    let config := Connection.reconnecting
    1 ≤ 2 ∧ ∃ pool before, Pool.create config 2 = .ok pool ∧ (Site.start pool).Reaches before ∧
      before.pending = 0 ∧
      (∃ errand, Errand.Reaches (.use "shop") (Errand.Spares "shop")
          (.start (before.write ((Setting.select "shop").on before.pool.template))) errand ∧
        errand.phase = .returned (.ok ()) ∧
        ∃ member ∈ errand.site.members, (Setting.select "shop").Rules member.conn) ∧
      ∃ errand, Errand.Reaches (.login "root" "new")
          (fun _ deed => deed.WritesOnly (.login ⟨"root", "new"⟩))
          (.start (before.write ((Setting.login ⟨"root", "new"⟩).on before.pool.template))) errand ∧
        errand.phase = .returned (.ok ()) ∧
        (Setting.login ⟨"root", "new"⟩).RulesNew errand.site.pool.template ∧
        ∃ member ∈ errand.whole.members, (Setting.login ⟨"root", "secret"⟩).Rules member.conn := by
  intro config
  obtain ⟨pool, hcreate, hrules⟩ := Pool.broadcast_rules_streams config (by decide : 1 ≤ 2)
  obtain ⟨-, rfl⟩ := Pool.create_eq_ok hcreate
  have hopens : Connection.opensTo config Connection.silentServer
      (fun conn net => conn.succeeds net (.use "shop") && conn.succeeds net (.login "root" "new")) =
        true := by
    decide +kernel
  have honly (template : Config) (conn : Connection) : (⟨1, conn⟩ : Member) ∈
      Site.members ⟨⟨2, template, [⟨1, conn⟩], [1], false, 1, 2⟩, 0, 0⟩ :=
    Site.mem_members_of_idle (List.mem_singleton.mpr rfl)
  obtain ⟨conn, net, hestablish, haccepts⟩ := Connection.exists_of_opensTo hopens
  obtain ⟨huse, hlogin⟩ := Bool.and_eq_true_iff.mp haccepts
  obtain ⟨_, selected, hselected, hopen⟩ := Connection.exists_answer_of_succeeds huse
  obtain ⟨_, logged, hlogged, hstill⟩ := Connection.exists_answer_of_succeeds hlogin
  have hbefore := Site.reaches_idle config (by decide : 1 ≤ 2) hestablish
  have hconfig : conn.config = config := (Connection.under_of_establish hestablish).config_eq
  obtain ⟨hlogins, hselects⟩ := hrules _ hbefore rfl
  refine ⟨by decide, _, _, hcreate, hbefore, rfl, ?_, ?_⟩
  · have herrand := @Errand.reaches_only_returned (.use "shop") (Errand.Spares "shop")
      (Errand.spares_other "shop") (Errand.spares_use "shop")
      ((Setting.select "shop").on config) 2 (by decide) net conn _ selected hselected hopen
    have hmember := honly ((Setting.select "shop").on config) selected.conn
    exact ⟨_, herrand, rfl, _, hmember, (hselects "shop" _ herrand rfl).2.2 _ hmember⟩
  · have herrand := @Errand.reaches_only_returned (.login "root" "new")
      (fun _ deed => deed.WritesOnly (.login ⟨"root", "new"⟩)) (fun _ => nofun) (fun _ _ _ => nofun)
      ((Setting.login ⟨"root", "new"⟩).on config) 2 (by decide) net conn _ logged hlogged hstill
    obtain ⟨hnew, -, hmembers⟩ := hlogins ⟨"root", "new"⟩ _ herrand
    have hmember := honly ((Setting.login ⟨"root", "new"⟩).on config) logged.conn
    rw [Errand.whole_over rfl] at hmembers
    rcases hmembers _ hmember with ⟨hlater, -⟩ | ⟨old, hold, -, hformer⟩
    · dsimp only at hlater
      omega
    · obtain rfl : old = ⟨1, conn⟩ := by simpa [Site.members] using hold
      refine ⟨_, herrand, rfl, hnew, _, ?_, hformer _ (congrArg Config.auth hconfig)⟩
      rw [Errand.whole_over rfl]
      exact hmember

/-- The second batch on a stream after a task that succeeds and others, if the stream was not there
before the others. -/
def Desk.secondBatchAfter (desk : Desk) (task : Desk.Task) (later : List Desk.Task)
    (stream : Nat) : Option Bytes :=
  match desk.perform task with
  | (.done, after) =>
    if after.net.accepted ≤ stream then ((after.runAll later).net.sentOn stream)[1]? else none
  | _ => none

/-- Credentials do not rule the streams of the members that were there when they were written: here
the only member logs in with the new ones, the server falls silent, and on the next stream the
member logs in with the old ones. -/
theorem Pool.not_login_rules_redialing :
    (¬ ∀ (template : Config) (capacity : Nat) (net : Network) (tasks later : List Desk.Task)
        (credentials : Credentials) (desk after : Desk) (stream : Nat) (batch : Bytes),
      Desk.create template capacity net = .ok desk → template.auth.isSome = true →
      (desk.runAll tasks).waiting = [] →
      (desk.runAll tasks).perform (.login credentials) = (.done, after) →
      (∀ other, .login other ∉ later) → after.net.accepted ≤ stream →
      ((after.runAll later).net.sentOn stream)[1]? = some batch →
      Packet.encode [.login credentials.username credentials.token] = .ok batch) ∧
    ∃ desk batch, Desk.create Connection.reconnecting 1 Connection.silentServer = .ok desk ∧
      Packet.encode [.login "root" "secret"] = .ok batch ∧
      (desk.runAll [.borrow "first" false, .release "first"]).secondBatchAfter
        (.login ⟨"root", "new"⟩) [.borrow "second" false, .ask "second" .heya, .ask "second" .heya]
        1 = some batch := by
  let config := Connection.reconnecting
  let start : Desk := ⟨⟨1, config, [], [], false, 0, 1⟩, Connection.silentServer, [], []⟩
  have hcreate : Desk.create config 1 Connection.silentServer = .ok start :=
    Desk.create_eq config (by decide) _
  have hformer : (start.runAll [.borrow "first" false, .release "first"]).secondBatchAfter
      (.login ⟨"root", "new"⟩) [.borrow "second" false, .ask "second" .heya, .ask "second" .heya] 1
      = (Packet.encode [.login "root" "secret"]).toOption := by
    decide +kernel
  have hidle : (start.runAll [.borrow "first" false, .release "first"]).waiting.isEmpty = true := by
    decide +kernel
  have hdiffer : (Packet.encode [.login "root" "new"]).toOption ≠
      (Packet.encode [.login "root" "secret"]).toOption := by
    decide +kernel
  obtain ⟨batch, hbatch⟩ : ∃ batch, Packet.encode [.login "root" "secret"] = .ok batch :=
    ⟨_, rfl⟩
  rw [hbatch] at hformer hdiffer
  refine ⟨fun hrules => hdiffer ?_, start, batch, hcreate, hbatch, hformer⟩
  have hruled := fun after => hrules config 1 Connection.silentServer
    [.borrow "first" false, .release "first"]
    [.borrow "second" false, .ask "second" .heya, .ask "second" .heya] ⟨"root", "new"⟩ start after
    1 batch hcreate rfl (List.isEmpty_iff.mp hidle)
  generalize start.runAll [.borrow "first" false, .release "first"] = desk at hformer hruled
  unfold Desk.secondBatchAfter at hformer
  split at hformer
  · rename_i after hdone
    split at hformer
    · rename_i hlater
      have hencode := hruled after hdone (by simp) hlater hformer
      rw [hencode]
    · cases hformer
  · cases hformer

end StoreClient
