import StoreClient.Proofs.Broadcasts
import StoreClient.Proofs.Lifetimes
import StoreClient.Proofs.Exclusive
import StoreClient.Proofs.Redialing

/-!
# Pools with their settings

The settings of a pool are in three places: in the pool, in the openings that have started, and
in each of its members. A site is a pool with all of them, and with calls that are made for good:
a member that is used has the connection that some request leaves, on some network. This file
says once what a step can do to the settings, and shows that a broadcast at a site is a tour.
-/

namespace StoreClient

namespace Connection

/-- What becomes of a connection of which something is asked, on whatever network: the call ends,
or it is given up, or it is dropped on its way. -/
inductive Used (request : Request) (conn : Connection) :
    Except Halt Answer → Connection → Prop where
  | asked {net : Network} {result : Except Halt Answer} {after : Line} :
      answer request ⟨conn, net⟩ = (result, after) → Used request conn result after.conn
  /-- What a call that is dropped has sent is what one has sent that is given up there. -/
  | dropped {net : Network} {after : Line} : Line.Drops ⟨conn, net⟩ after →
      Used request conn (.error .stalled) after.conn

/-- A connection that is used keeps its settings, but for a namespace that is selected. -/
theorem Used.config_eq {request : Request} {conn after : Connection} {result : Except Halt Answer}
    (h : Used request conn result after) (hfits : conn.Fits) :
    after.config = conn.config.selecting
        (selectedBy conn.config.defaultNamespace request result) ∧ after.Fits := by
  cases h with
  | asked hanswer =>
    have hafter := under_of_answer ⟨rfl, hfits⟩ hanswer
    exact ⟨hafter.config_eq, hafter.fits⟩
  | dropped hdrops =>
    rw [selectedBy_error]
    have hafter := under_of_drops hdrops ⟨rfl, hfits⟩
    exact ⟨hafter.config_eq, hafter.fits⟩

end Connection

/-- A pool with everything that it has given out, and with the settings of its openings. -/
structure Site where
  pool : Pool
  /-- The members with their borrowers. -/
  lent : Multiset Member
  /-- The settings of the members that are being opened, as they were when the openings started. -/
  pending : Multiset Config

/-- What is done at a site that concerns the settings. -/
inductive Deed where
  /-- Something was asked of a member, and this came of it. -/
  | ask (id : Nat) (request : Request) (result : Except Halt Answer)
  /-- The pool has new settings. -/
  | write (template : Config)
  | other

namespace Site

/-- The site of a pool that has given out nothing. -/
def start (pool : Pool) : Site := ⟨pool, 0, 0⟩

/-- The ledger of a site. -/
def ledger (site : Site) : Ledger := ⟨site.pool, site.lent, site.pending.card⟩

/-- The members, idle or lent. -/
def members (site : Site) : Multiset Member := Multiset.ofList site.pool.idle + site.lent

/-- An idle member is a member. -/
theorem mem_members_of_idle {site : Site} {member : Member} (h : member ∈ site.pool.idle) :
    member ∈ site.members := Multiset.mem_add.mpr (.inl (Multiset.mem_coe.mpr h))

/-- The site with other settings for new members. -/
def write (site : Site) (template : Config) : Site :=
  { site with pool := { site.pool with template } }

/-- One step at a site. The settings of a new member are those of the pool when its opening
started. -/
inductive Step : Site → Deed → Site → Prop where
  | lend {pool rest : Pool} {lent : Multiset Member} {pending : Multiset Config}
      {wouldWait : Bool} {member : Member} : pool.borrow wouldWait = .lent member rest →
      Step ⟨pool, lent, pending⟩ .other ⟨rest, member ::ₘ lent, pending⟩
  | reserve {pool reserved : Pool} {lent : Multiset Member} {pending : Multiset Config}
      {wouldWait : Bool} : pool.borrow wouldWait = .reserved reserved →
      Step ⟨pool, lent, pending⟩ .other ⟨reserved, lent, pool.template ::ₘ pending⟩
  | opened {pool enrolled : Pool} {lent : Multiset Member} {pending : Multiset Config}
      {config : Config} {net after : Network} {conn : Connection} {member : Member} :
      Connection.establish config net = (.ok conn, after) →
      pool.enroll conn = (.ok member, enrolled) →
      Step ⟨pool, lent, config ::ₘ pending⟩ .other ⟨enrolled, member ::ₘ lent, pending⟩
  | openedLate {pool refused : Pool} {lent : Multiset Member} {pending : Multiset Config}
      {config : Config} {conn : Connection} {e : Error} :
      pool.enroll conn = (.error e, refused) →
      Step ⟨pool, lent, config ::ₘ pending⟩ .other ⟨refused, lent, pending⟩
  | openFails {pool : Pool} {lent : Multiset Member} {pending : Multiset Config}
      {config : Config} :
      Step ⟨pool, lent, config ::ₘ pending⟩ .other ⟨pool.unreserve, lent, pending⟩
  | use {pool : Pool} {lent : Multiset Member} {pending : Multiset Config} {member : Member}
      {request : Request} {result : Except Halt Answer} {conn : Connection} :
      Connection.Used request member.conn result conn →
      Step ⟨pool, member ::ₘ lent, pending⟩ (.ask member.id request result)
        ⟨pool, { member with conn } ::ₘ lent, pending⟩
  | release {pool : Pool} {lent : Multiset Member} {pending : Multiset Config}
      {member : Member} :
      Step ⟨pool, member ::ₘ lent, pending⟩ .other ⟨pool.release member, lent, pending⟩
  | visit {pool rest : Pool} {lent : Multiset Member} {pending : Multiset Config}
      {member : Member} {broadcast after : Broadcast} :
      broadcast.next pool = .visit member after rest →
      Step ⟨pool, lent, pending⟩ .other ⟨rest, member ::ₘ lent, pending⟩
  | settings {site : Site} (template : Config) : Step site (.write template) (site.write template)
  | close {pool : Pool} {lent : Multiset Member} {pending : Multiset Config} :
      Step ⟨pool, lent, pending⟩ .other ⟨pool.close, lent, pending⟩

/-- Steps in a row. -/
abbrev Reaches : Site → Site → Prop :=
  Relation.ReflTransGen fun site after => ∃ deed, site.Step deed after

variable {site after : Site} {deed : Deed}

/-- A step at a site is a step of its ledger. -/
theorem Step.ledger (h : site.Step deed after) : site.ledger.Step after.ledger := by
  cases h with
  | lend hborrow => exact .lend hborrow
  | reserve hborrow =>
    rw [Site.ledger, Site.ledger, Multiset.card_cons]
    exact .reserve hborrow
  | opened hestablish henroll =>
    rw [Site.ledger, Site.ledger, Multiset.card_cons]
    exact .opened henroll
  | openedLate henroll =>
    rw [Site.ledger, Site.ledger, Multiset.card_cons]
    exact .openedLate henroll
  | openFails =>
    rw [Site.ledger, Site.ledger, Multiset.card_cons]
    exact .openFails
  | use hused => exact .use _
  | release => exact .release
  | visit hvisit => exact .visit hvisit
  | settings template => exact .settings template
  | close => exact .close

/-- Steps at a site are steps of its ledger. -/
theorem Reaches.ledger (h : site.Reaches after) : site.ledger.Reaches after.ledger := by
  induction h with
  | refl => exact .refl
  | tail _ hstep ih =>
    obtain ⟨deed, hstep⟩ := hstep
    exact ih.tail hstep.ledger

end Site

/-- Where a member of the pool comes from that is there after a step: it was there with the same
connection, or with the one that something was asked of, or it was opened under settings that
were pending. -/
inductive Member.Descends (members : Multiset Member) (pending : Multiset Config) (nextId : Nat)
    (asked : Nat → Request → Except Halt Answer → Prop) (member : Member) : Prop where
  | kept : member ∈ members → Descends members pending nextId asked member
  | used {old : Member} {request : Request} {result : Except Halt Answer} : old ∈ members →
      member.id = old.id → asked old.id request result →
      Connection.Used request old.conn result member.conn →
      Descends members pending nextId asked member
  | opened {config : Config} {net after : Network} : member.id = nextId → config ∈ pending →
      Connection.establish config net = (.ok member.conn, after) →
      Descends members pending nextId asked member

namespace Site

variable {site after : Site} {deed : Deed}

/-- What a step does to the settings. -/
structure Follows (site : Site) (deed : Deed) (after : Site) : Prop where
  template : after.pool.template = site.pool.template ∨ deed = .write after.pool.template
  pending : ∀ config ∈ after.pending, config ∈ site.pending ∨ config = site.pool.template
  members : ∀ member ∈ after.members, member.Descends site.members site.pending site.pool.nextId
    fun id request result => deed = .ask id request result

/-- A step that leaves the members where they are, or lends an idle one. -/
theorem Follows.of_members_eq (htemplate : after.pool.template = site.pool.template)
    (hpending : ∀ config ∈ after.pending, config ∈ site.pending ∨ config = site.pool.template)
    (hmembers : after.members = site.members) : site.Follows deed after :=
  ⟨.inl htemplate, hpending, fun _ hmember => .kept (hmembers ▸ hmember)⟩

/-- Lending an idle member changes nothing. -/
theorem Follows.lend {pool rest : Pool} {lent : Multiset Member} {pending : Multiset Config}
    {member : Member} (hidle : (pool.idle : Multiset Member) = member ::ₘ (rest.idle : Multiset _))
    (hrest : rest = { pool with idle := rest.idle }) :
    Follows ⟨pool, lent, pending⟩ deed ⟨rest, member ::ₘ lent, pending⟩ := by
  apply Follows.of_members_eq
  · rw [hrest]
  · exact fun config hconfig => .inl hconfig
  · rw [Site.members, Site.members, hidle, Multiset.add_cons, Multiset.cons_add]

/-- What a step does to the settings. -/
theorem Step.follows (h : site.Step deed after) : site.Follows deed after := by
  cases h with
  | lend hborrow =>
    obtain ⟨hidle, hrest⟩ := Pool.borrow_eq_lent hborrow
    exact .lend (congrArg Multiset.ofList hidle) hrest
  | visit hvisit =>
    obtain ⟨hidle, hrest⟩ := Pool.visit_eq hvisit
    exact .lend hidle hrest
  | reserve hborrow =>
    rw [(Pool.borrow_eq_reserved hborrow).2]
    exact .of_members_eq rfl (fun config hconfig => (Multiset.mem_cons.mp hconfig).symm) rfl
  | opened hestablish henroll =>
    have hconn := Pool.conn_of_enroll henroll
    obtain ⟨hid, henrolled⟩ := Pool.enroll_eq_ok henroll
    rw [henrolled]
    refine ⟨.inl rfl, fun _ hmem => .inl (Multiset.mem_cons_of_mem hmem), fun other hother => ?_⟩
    rw [members, Multiset.add_cons] at hother
    rcases Multiset.mem_cons.mp hother with rfl | hold
    · exact .opened hid (Multiset.mem_cons_self _ _) (hconn ▸ hestablish)
    · exact .kept hold
  | openedLate henroll =>
    rw [Pool.enroll_eq_error henroll]
    exact .of_members_eq rfl (fun _ hmem => .inl (Multiset.mem_cons_of_mem hmem)) rfl
  | openFails => exact .of_members_eq rfl (fun _ hmem => .inl (Multiset.mem_cons_of_mem hmem)) rfl
  | @use pool lent pending member request result conn hused =>
    refine ⟨.inl rfl, fun _ hmem => .inl hmem, fun other hother => ?_⟩
    have hmember : member ∈ members ⟨pool, member ::ₘ lent, pending⟩ := by
      rw [members, Multiset.add_cons]
      exact Multiset.mem_cons_self _ _
    rw [members, Multiset.add_cons] at hother
    rcases Multiset.mem_cons.mp hother with rfl | hold
    · exact .used hmember rfl rfl hused
    · refine .kept ?_
      rw [members, Multiset.add_cons]
      exact Multiset.mem_cons_of_mem hold
  | @release pool lent pending member =>
    have hsite : members ⟨pool, member ::ₘ lent, pending⟩ =
        member ::ₘ (Multiset.ofList pool.idle + lent) := Multiset.add_cons _ _ _
    by_cases hdrops : pool.drops member = true
    · rw [Pool.release_of_drops hdrops]
      refine ⟨.inl rfl, fun _ hmem => .inl hmem, fun other hother => .kept ?_⟩
      rw [hsite]
      exact Multiset.mem_cons_of_mem hother
    · rw [Pool.release_of_keeps (Bool.eq_false_iff.mpr hdrops)]
      refine .of_members_eq rfl (fun _ hmem => .inl hmem) ?_
      have hidle : Multiset.ofList (pool.idle ++ [member]) = member ::ₘ Multiset.ofList pool.idle :=
        Multiset.coe_eq_coe.mpr (List.perm_append_singleton _ _)
      rw [hsite, members, hidle, Multiset.cons_add]
  | settings template =>
    exact ⟨.inr rfl, fun _ hmem => .inl hmem, fun _ hmember => .kept hmember⟩
  | close =>
    refine ⟨.inl rfl, fun _ hmem => .inl hmem, fun other hother => .kept ?_⟩
    exact Multiset.mem_of_le (Multiset.add_le_add_right (Multiset.zero_le _)) hother

/-- A site comes to have one idle member: it is opened, and given back. -/
theorem reaches_idle (template : Config) {capacity : Nat} (h : 1 ≤ capacity) {net after : Network}
    {conn : Connection} (hestablish : Connection.establish template net = (.ok conn, after)) :
    (start ⟨capacity, template, [], [], false, 0, 1⟩).Reaches
      ⟨⟨capacity, template, [⟨1, conn⟩], [1], false, 1, 2⟩, 0, 0⟩ := by
  have hopen := (Connection.establish_onStream hestablish).isClosed_eq_false
  obtain ⟨hroom, henroll, hback⟩ := Pool.first_member template h hopen
  rw [← hback]
  refine Relation.ReflTransGen.tail (.tail (.single ⟨.other, .reserve hroom⟩) ?_) ⟨.other, .release⟩
  exact ⟨.other, .opened hestablish henroll⟩

/-- A step does not depend on what others have. -/
theorem Step.frame (h : site.Step deed after) (more : Multiset Member) :
    Step { site with lent := site.lent + more } deed { after with lent := after.lent + more } := by
  cases h with
  | lend hborrow => exact Multiset.cons_add _ _ _ ▸ .lend hborrow
  | reserve hborrow => exact .reserve hborrow
  | opened hestablish henroll => exact Multiset.cons_add _ _ _ ▸ .opened hestablish henroll
  | openedLate henroll => exact .openedLate henroll
  | openFails => exact .openFails
  | use hused =>
    dsimp only
    rw [Multiset.cons_add, Multiset.cons_add]
    exact .use hused
  | release => exact Multiset.cons_add _ _ _ ▸ .release
  | visit hvisit => exact Multiset.cons_add _ _ _ ▸ .visit hvisit
  | settings template => exact .settings template
  | close => exact .close

/-- The steps with this deed keep the property. -/
def Keeps (deed : Deed) (property : Site → Prop) : Prop :=
  ∀ ⦃site after : Site⦄, property site → site.Step deed after → property after

/-- What is kept by every step that concerns no settings is kept when members come back. -/
theorem keeps_releaseAll {property : Site → Prop} (hother : Keeps .other property)
    (members : List Member) {pool : Pool} {lent : Multiset Member} {pending : Multiset Config}
    (h : property ⟨pool, (members : Multiset Member) + lent, pending⟩) :
    property ⟨pool.releaseAll members, lent, pending⟩ := by
  induction members generalizing pool with
  | nil =>
    rw [Multiset.coe_nil, zero_add] at h
    exact h
  | cons member rest ih =>
    rw [← Multiset.cons_coe, Multiset.cons_add] at h
    exact ih (hother h .release)

end Site

/-- A broadcast at a site. -/
structure Errand where
  /-- The site, with what others than the broadcast have of it. -/
  site : Site
  broadcast : Broadcast
  phase : Tour.Phase
  /-- The numbers of the members that the call was made on, in order. -/
  visited : List Nat
  /-- What came of the calls, in order. -/
  results : List (Except Error Answer)

namespace Errand

/-- A broadcast that starts. -/
def start (site : Site) : Errand := ⟨site, .start site.pool, .choosing, [], []⟩

/-- The tour of the broadcast. -/
def tour (errand : Errand) : Tour :=
  ⟨errand.site.ledger, errand.broadcast, errand.phase, errand.visited, errand.results⟩

/-- The site with what anyone has of it. -/
def whole (errand : Errand) : Site :=
  { errand.site with lent := errand.site.lent + errand.tour.stake }

/-- The broadcast has ended: these members come back, in this order. -/
def endedWith (errand : Errand) (returned : List Member) (phase : Tour.Phase) : Errand :=
  { errand with
    site := { errand.site with pool := errand.site.pool.releaseAll returned }
    phase }

/-- The broadcast has ended: what it holds comes back. -/
def ended (errand : Errand) (phase : Tour.Phase) : Errand :=
  errand.endedWith errand.broadcast.held phase

/-- A member was taken, and the call starts. -/
def visit (errand : Errand) (member : Member) (after : Broadcast) (rest : Pool) : Errand where
  site := { errand.site with pool := rest }
  broadcast := after
  phase := .calling member
  visited := errand.visited ++ [member.id]
  results := errand.results

/-- The call on the member is over, and left this connection. -/
def settle (errand : Errand) (member : Member) (conn : Connection) :
    Except Halt Answer → Errand
  | .ok answer => { errand with
      broadcast := errand.broadcast.hold { member with conn }
      phase := .choosing
      results := errand.results ++ [.ok answer] }
  | .error (.failed e) => { errand with
      broadcast := errand.broadcast.hold { member with conn }
      results := errand.results ++ [.error e] : Errand }.ended (.returned (.error e))
  | .error .stalled =>
    { errand with broadcast := errand.broadcast.hold { member with conn } : Errand }.endedWith
      ({ member with conn } :: errand.broadcast.held) .givenUp

/-- One step of the broadcast of a request, or of others while it lasts and after. -/
inductive Step (request : Request) : Errand → Deed → Errand → Prop where
  /-- Others do something. -/
  | others {errand : Errand} {deed : Deed} {site : Site} : errand.site.Step deed site →
      Step request errand deed { errand with site }
  /-- A member is taken, and the call starts. -/
  | visit {errand : Errand} {member : Member} {after : Broadcast} {rest : Pool} :
      errand.phase = .choosing →
      errand.broadcast.next errand.site.pool = .visit member after rest →
      Step request errand .other (errand.visit member after rest)
  /-- The call is over. -/
  | call {errand : Errand} {member : Member} {result : Except Halt Answer} {conn : Connection} :
      errand.phase = .calling member → Connection.Used request member.conn result conn →
      Step request errand (.ask member.id request result) (errand.settle member conn result)
  /-- The targets that are left are lent. -/
  | wait {errand : Errand} {after : Broadcast} :
      errand.phase = .choosing → errand.broadcast.next errand.site.pool = .waits after →
      Step request errand .other { errand with broadcast := after }
  /-- No target is left. -/
  | finish {errand : Errand} :
      errand.phase = .choosing → errand.broadcast.next errand.site.pool = .finished →
      Step request errand .other (errand.ended (.returned (.ok ())))
  /-- The pool was closed. -/
  | refuse {errand : Errand} :
      errand.phase = .choosing → errand.broadcast.next errand.site.pool = .refused →
      Step request errand .other (errand.ended (.returned (.error .poolClosed)))
  /-- The broadcast is given up between its calls. -/
  | giveUp {errand : Errand} : errand.phase = .choosing →
      Step request errand .other (errand.ended .givenUp)

/-- Steps in a row whose deeds are allowed. -/
abbrev Reaches (request : Request) (allows : Errand → Deed → Prop) : Errand → Errand → Prop :=
  Relation.ReflTransGen fun errand after =>
    ∃ deed, allows errand deed ∧ Step request errand deed after

variable {errand after : Errand} {request : Request} {deed : Deed} {member : Member}
  {allows : Errand → Deed → Prop}

/-- The broadcast of a request is a tour. -/
theorem Step.tour (h : Step request errand deed after) : errand.tour.Step after.tour := by
  cases h with
  | others hstep => exact .others hstep.ledger
  | visit hphase hnext => exact .visit hphase hnext
  | @call member result conn hphase hused =>
    cases result with
    | ok answer => exact .succeed conn answer hphase
    | error halt =>
      cases halt with
      | failed e => exact .fail conn e hphase
      | stalled => exact .giveUpCall conn hphase
  | wait hphase hnext => exact .wait hphase hnext
  | finish hphase hnext => exact .finish hphase hnext
  | refuse hphase hnext => exact .refuse hphase hnext
  | giveUp hphase => exact .giveUp hphase

/-- The broadcast of a request is a tour. -/
theorem Reaches.tour (h : Reaches request allows errand after) :
    errand.tour.Reaches after.tour := by
  induction h with
  | refl => exact .refl
  | tail _ hstep ih =>
    obtain ⟨deed, -, hstep⟩ := hstep
    exact ih.tail hstep.tour

/-- A broadcast between its calls has what it holds. -/
theorem whole_choosing (hphase : errand.phase = .choosing) :
    errand.whole = ⟨errand.site.pool, (errand.broadcast.held : Multiset Member) + errand.site.lent,
      errand.site.pending⟩ := by
  have hstake : errand.tour.stake = errand.broadcast.held := by
    unfold Tour.stake tour
    rw [hphase]
  rw [whole, hstake, add_comm]

/-- A broadcast that calls holds its member besides. -/
theorem whole_calling (hphase : errand.phase = .calling member) :
    errand.whole = ⟨errand.site.pool,
      member ::ₘ ((errand.broadcast.held : Multiset Member) + errand.site.lent),
      errand.site.pending⟩ := by
  have hstake : errand.tour.stake = member ::ₘ (errand.broadcast.held : Multiset Member) := by
    unfold Tour.stake tour
    rw [hphase]
  rw [whole, hstake, add_comm, Multiset.cons_add]

/-- A broadcast that is over has nothing. -/
theorem whole_over (hphase : errand.phase.isOver = true) : errand.whole = errand.site := by
  have hstake : errand.tour.stake = 0 := by
    unfold Tour.stake tour
    cases hcase : errand.phase with
    | choosing => simp [hcase, Tour.Phase.isOver] at hphase
    | calling member => simp [hcase, Tour.Phase.isOver] at hphase
    | returned result => rfl
    | givenUp => rfl
  rw [whole, hstake, add_zero]

/-- A broadcast that waits keeps what it has. -/
theorem whole_waits {next : Broadcast} (hphase : errand.phase = .choosing)
    (hnext : errand.broadcast.next errand.site.pool = .waits next) :
    { errand with broadcast := next : Errand }.whole = errand.whole := by
  have hafter : { errand with broadcast := next : Errand }.whole = _ := whole_choosing hphase
  rw [hafter, whole_choosing hphase]
  dsimp only
  rw [(Broadcast.next_eq_waits hnext).2]

section Keeps

variable {property : Site → Prop}

/-- What every step keeps that concerns no settings is kept when the broadcast ends. -/
theorem keeps_endedWith (hother : Site.Keeps .other property) {returned : List Member}
    {phase : Tour.Phase} (hover : phase.isOver = true)
    (h : property ⟨errand.site.pool, (returned : Multiset Member) + errand.site.lent,
      errand.site.pending⟩) :
    property (errand.endedWith returned phase).whole := by
  have hwhole : (errand.endedWith returned phase).whole = (errand.endedWith returned phase).site :=
    whole_over hover
  rw [hwhole]
  exact Site.keeps_releaseAll hother _ h

/-- A call that is over is a step at the site, and then the broadcast may end. -/
theorem keeps_settle (hother : Site.Keeps .other property) {result : Except Halt Answer}
    {conn : Connection} (hdeed : Site.Keeps (.ask member.id request result) property)
    (hphase : errand.phase = .calling member)
    (hused : Connection.Used request member.conn result conn) (h : property errand.whole) :
    property (errand.settle member conn result).whole := by
  have hheld : ((errand.broadcast.hold { member with conn }).held : Multiset Member) +
      errand.site.lent =
      { member with conn } ::ₘ ((errand.broadcast.held : Multiset Member) + errand.site.lent) := by
    rw [Broadcast.hold, ← Multiset.cons_add]
    exact congrArg (· + _) (Multiset.coe_eq_coe.mpr (List.perm_append_singleton _ _))
  rw [whole_calling hphase] at h
  have hcalled := hdeed h (.use hused)
  cases result with
  | ok answer =>
    rw [← hheld] at hcalled
    rw [whole_choosing rfl]
    exact hcalled
  | error halt =>
    cases halt with
    | failed e =>
      rw [← hheld] at hcalled
      exact keeps_endedWith hother rfl hcalled
    | stalled =>
      rw [← Multiset.cons_add, Multiset.cons_coe] at hcalled
      exact keeps_endedWith hother rfl hcalled

/-- What the steps at a site keep, the steps of a broadcast keep of its whole site. -/
theorem Step.keeps (h : Step request errand deed after) (hother : Site.Keeps .other property)
    (hdeed : Site.Keeps deed property) (hwhole : property errand.whole) :
    property after.whole := by
  cases h with
  | others hstep =>
    -- Others do not see what the broadcast has, so they step on the whole site as well.
    exact hdeed hwhole (hstep.frame _)
  | @visit member next rest hphase hnext =>
    rw [whole_choosing hphase] at hwhole
    have hafter : (errand.visit member next rest).whole = _ := whole_calling rfl
    rw [hafter, Errand.visit, (Broadcast.next_eq_visit hnext).2.2]
    exact hother hwhole (.visit hnext)
  | call hphase hused => exact keeps_settle hother hdeed hphase hused hwhole
  | wait hphase hnext =>
    rw [whole_waits hphase hnext]
    exact hwhole
  | finish hphase =>
    rw [whole_choosing hphase] at hwhole
    exact keeps_endedWith hother rfl hwhole
  | refuse hphase =>
    rw [whole_choosing hphase] at hwhole
    exact keeps_endedWith hother rfl hwhole
  | giveUp hphase =>
    rw [whole_choosing hphase] at hwhole
    exact keeps_endedWith hother rfl hwhole

end Keeps

/-- A turn in which a member is visited. -/
theorem reaches_settle (hother : ∀ errand, allows errand .other)
    (hask : ∀ errand id result, allows errand (.ask id request result)) {next : Broadcast}
    {rest : Pool} {result : Except Halt Answer} {conn : Connection}
    (hphase : errand.phase = .choosing)
    (hnext : errand.broadcast.next errand.site.pool = .visit member next rest)
    (hused : Connection.Used request member.conn result conn) :
    Reaches request allows errand ((errand.visit member next rest).settle member conn result) :=
  .tail (.single ⟨.other, hother _, .visit hphase hnext⟩) ⟨_, hask _ _ _, .call rfl hused⟩

/-- A broadcast at a site with one member, which is idle: the call on it is over. -/
theorem reaches_only (hother : ∀ errand, allows errand .other)
    (hask : ∀ errand id result, allows errand (.ask id request result)) (template : Config)
    (capacity : Nat) {net : Network} {conn : Connection} {result : Except Halt Answer} {line : Line}
    (hanswer : Connection.answer request ⟨conn, net⟩ = (result, line)) :
    Reaches request allows (.start ⟨⟨capacity, template, [⟨1, conn⟩], [1], false, 1, 2⟩, 0, 0⟩)
      (settle ⟨⟨⟨capacity, template, [], [1], false, 1, 2⟩, 0, 0⟩, ⟨[], []⟩, .calling ⟨1, conn⟩,
        [1], []⟩ ⟨1, conn⟩ line.conn result) := by
  have hnext : Broadcast.next (.start ⟨capacity, template, [⟨1, conn⟩], [1], false, 1, 2⟩)
      ⟨capacity, template, [⟨1, conn⟩], [1], false, 1, 2⟩ =
      .visit ⟨1, conn⟩ ⟨[], []⟩ ⟨capacity, template, [], [1], false, 1, 2⟩ := rfl
  have hused : Connection.Used request (Member.conn ⟨1, conn⟩) result line.conn := .asked hanswer
  exact reaches_settle hother hask rfl hnext hused

/-- A broadcast at a site with one member, which is idle: it succeeds, and the member is idle
again. -/
theorem reaches_only_returned (hother : ∀ errand, allows errand .other)
    (hask : ∀ errand id result, allows errand (.ask id request result)) (template : Config)
    {capacity : Nat} (h : 1 ≤ capacity) {net : Network} {conn : Connection} {answer : Answer}
    {line : Line} (hanswer : Connection.answer request ⟨conn, net⟩ = (.ok answer, line))
    (hopen : line.conn.isClosed = false) :
    Reaches request allows (.start ⟨⟨capacity, template, [⟨1, conn⟩], [1], false, 1, 2⟩, 0, 0⟩)
      ⟨⟨⟨capacity, template, [⟨1, line.conn⟩], [1], false, 1, 2⟩, 0, 0⟩, ⟨[], [⟨1, line.conn⟩]⟩,
        .returned (.ok ()), [1], [.ok answer]⟩ := by
  obtain ⟨-, -, hback⟩ := Pool.first_member template h hopen
  have hcalled := reaches_only hother hask template capacity hanswer
  rw [← hback]
  exact hcalled.tail ⟨.other, hother _, .finish rfl rfl⟩

end Errand

/-- Continuing a broadcast at a desk is a broadcast at its site, in which others do nothing. -/
theorem Desk.errand_continueBroadcast (desk : Desk) (request : Request)
    (visits : List (Except Error Answer)) (broadcast : Broadcast) {errand : Errand}
    {allows : Errand → Deed → Prop} (hother : ∀ errand, allows errand .other)
    (hask : ∀ errand id result, allows errand (.ask id request result))
    (hpool : errand.site.pool = desk.pool)
    (hshows : errand.tour.Shows (.waits (.broadcast broadcast request visits))) :
    ∃ after, Errand.Reaches request allows errand after ∧
      after.site = ⟨(desk.continueBroadcast request visits broadcast).2.pool, errand.site.lent,
        errand.site.pending⟩ ∧
      after.tour.Shows (desk.continueBroadcast request visits broadcast).1 := by
  fun_induction Desk.continueBroadcast desk request visits broadcast generalizing errand with
  | case1 desk visits broadcast hnext =>
    obtain ⟨hphase, rfl, rfl⟩ := hshows
    rw [← hpool] at hnext
    refine ⟨_, .single ⟨.other, hother _, .finish hphase hnext⟩, ?_, rfl, rfl⟩
    rw [Errand.ended, Errand.endedWith, hpool]
    rfl
  | case2 desk visits broadcast hnext =>
    obtain ⟨hphase, rfl, rfl⟩ := hshows
    rw [← hpool] at hnext
    refine ⟨_, .single ⟨.other, hother _, .refuse hphase hnext⟩, ?_, rfl, rfl⟩
    rw [Errand.ended, Errand.endedWith, hpool]
    rfl
  | case3 desk visits broadcast next hnext =>
    obtain ⟨hphase, rfl, rfl⟩ := hshows
    rw [← hpool] at hnext
    refine ⟨_, .single ⟨.other, hother _, .wait hphase hnext⟩, ?_, hphase, rfl, rfl⟩
    rw [← hpool]
  | case4 desk visits broadcast member next rest hnext line after held answer hanswer =>
    rename_i ih
    obtain ⟨hphase, rfl, rfl⟩ := hshows
    rw [← hpool] at hnext
    have hturn := Errand.reaches_settle hother hask hphase hnext (.asked hanswer)
    let middle := (errand.visit member next rest).settle member line.conn (.ok answer)
    obtain ⟨last, hreaches, hsite, hlast⟩ := @ih middle rfl ⟨rfl, rfl, rfl⟩
    exact ⟨last, hturn.trans hreaches, hsite, hlast⟩
  | case5 desk visits broadcast member next rest hnext line after held e =>
    rename_i hanswer
    obtain ⟨hphase, rfl, rfl⟩ := hshows
    rw [← hpool] at hnext
    have hturn := Errand.reaches_settle hother hask hphase hnext (.asked hanswer)
    exact ⟨_, hturn, rfl, rfl, rfl⟩
  | case6 desk visits broadcast member next rest hnext line after held =>
    rename_i hanswer
    obtain ⟨hphase, rfl, rfl⟩ := hshows
    rw [← hpool] at hnext
    have hturn := Errand.reaches_settle hother hask hphase hnext (.asked hanswer)
    exact ⟨_, hturn, rfl, rfl⟩

end StoreClient
