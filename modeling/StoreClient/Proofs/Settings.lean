import StoreClient.Proofs.Sites

/-!
# Settings that a pool broadcasts

A pool that selects a namespace, or logs in, writes the setting for new members first, and then
broadcasts a request to the members that it has. This file proves that what is written stays,
whatever comes of the broadcast, and rules every stream that is opened for a new member, while a
member that was there keeps its own settings but for the namespaces that it selects.
-/

namespace StoreClient

/-- What a pool can set for its members and for new ones. -/
inductive Setting where
  | select (path : String)
  | login (credentials : Credentials)

namespace Setting

/-- What is broadcast to the members. -/
def request : Setting → Request
  | select path => .use path
  | login credentials => .login credentials.username credentials.token

/-- The task at a desk. -/
def task : Setting → Desk.Task
  | select path => .useNamespace path
  | login credentials => .login credentials

/-- The settings for new members, with this one written. -/
def on (setting : Setting) (config : Config) : Config :=
  match setting with
  | select path => { config with defaultNamespace := some path }
  | login credentials => { config with auth := some (.fixed credentials) }

/-- This setting is among those. -/
def HeldBy (setting : Setting) (config : Config) : Prop :=
  match setting with
  | select path => config.defaultNamespace = some path
  | login credentials => config.auth = some (.fixed credentials)

/-- The preparing action for the setting. -/
def action : Setting → Action
  | select path => .use path
  | login credentials => .login credentials.username credentials.token

/-- The place of the preparing action among the batches of a stream. -/
def place (setting : Setting) (config : Config) : Nat :=
  match setting with
  | select _ => config.selection
  | login _ => 1

/-- The batch at the place of the preparing action, if that many were sent, is this one. -/
def SentIn (setting : Setting) (config : Config) (batches : List Bytes) : Prop :=
  ∀ batch, batches[setting.place config]? = some batch →
    Packet.encode [setting.action] = .ok batch

/-- The setting is what is sent on every stream that is opened with these settings, on whatever
network. -/
def RulesNew (setting : Setting) (config : Config) : Prop :=
  ∀ ⦃net after : Network⦄ ⦃result : Except Halt Connection⦄ ⦃stream : Nat⦄, net.Numbered →
    Connection.establish config net = (result, after) →
    net.accepted ≤ stream → stream < after.accepted →
    setting.SentIn config (after.sentOn stream)

/-- The setting is what is sent on every stream that a call on the connection opens, whatever is
asked of it and on whatever network. -/
def Rules (setting : Setting) (conn : Connection) : Prop :=
  ∀ ⦃request : Request⦄ ⦃net : Network⦄ ⦃after : Line⦄ ⦃result : Except Halt Answer⦄
    ⦃stream : Nat⦄, net.Numbered → Connection.answer request ⟨conn, net⟩ = (result, after) →
    net.accepted ≤ stream → stream < after.net.accepted →
    setting.SentIn conn.config (after.net.sentOn stream)

variable {setting : Setting} {config : Config}

/-- A setting that was written is there. -/
theorem heldBy_on (setting : Setting) (config : Config) : setting.HeldBy (setting.on config) := by
  cases setting <;> rfl

/-- What prepares a stream is what the settings have. -/
theorem HeldBy.sentIn (h : setting.HeldBy config) {stream : Nat} {batches : List Bytes}
    (hprepared : config.PreparedBy stream batches) : setting.SentIn config batches := by
  intro batch hbatch
  cases setting with
  | select path => exact hprepared.use h hbatch
  | login credentials => exact hprepared.login h hbatch

/-- Settings rule the streams that are opened with them. -/
theorem HeldBy.rulesNew (h : setting.HeldBy config) : setting.RulesNew config :=
  fun _ _ _ _ hnet hopen hle hlt => h.sentIn (Connection.prepared_of_establish hnet hopen hle hlt)

/-- The settings of a connection rule the streams that it opens. -/
theorem HeldBy.rules {conn : Connection} (h : setting.HeldBy conn.config) (hfits : conn.Fits) :
    setting.Rules conn :=
  fun _ _ _ _ _ hnet hanswer hle hlt =>
    h.sentIn (Connection.prepared_of_answer hfits hnet hanswer hle hlt)

end Setting

/-- Where the settings of a member come from that is there some time after another site: it was
there already, or it was opened since. A namespace may have been selected besides. -/
inductive Member.Inherits (good : Config → Prop) (before : Site) (member : Member) : Prop where
  | older {old : Member} (path : Option String) : old ∈ before.members → old.id = member.id →
      member.conn.config = old.conn.config.selecting path → Inherits good before member
  | newer {config : Config} (path : Option String) : before.pool.nextId ≤ member.id →
      good config ∨ config ∈ before.pending → member.conn.config = config.selecting path →
      Inherits good before member

/-- A member that selects a namespace inherits the same. -/
theorem Member.Inherits.selecting {good : Config → Prop} {before : Site} {old member : Member}
    (h : old.Inherits good before) (hid : member.id = old.id) {path : Option String}
    (hconfig : member.conn.config = old.conn.config.selecting path) :
    member.Inherits good before := by
  cases h with
  | older former hold hsame hformer =>
    refine .older path hold (hsame.trans hid.symm) ?_
    rw [hconfig, hformer]
    rfl
  | newer former hnew hgood hformer =>
    refine .newer path (hid ▸ hnew) hgood ?_
    rw [hconfig, hformer]
    rfl

namespace Site

variable {good : Config → Prop} {before site after : Site} {deed : Deed}

/-- Since another site, the settings for new members were good. -/
structure Governed (site : Site) (good : Config → Prop) (before : Site) : Prop where
  nextId_le : before.pool.nextId ≤ site.pool.nextId
  template : good site.pool.template
  pending : ∀ config ∈ site.pending, good config ∨ config ∈ before.pending
  fits : ∀ member ∈ site.members, member.conn.Fits
  inherits : ∀ member ∈ site.members, member.Inherits good before

/-- A step in which nothing bad is written leaves the settings for new members good. -/
theorem keeps_template (good : Config → Prop)
    (hdeed : ∀ template, deed = .write template → good template) :
    Keeps deed fun site => good site.pool.template := by
  intro site after hgood hstep
  rcases hstep.follows.template with hsame | hwrite
  · rw [hsame]
    exact hgood
  · exact hdeed _ hwrite

/-- A step in which nothing bad is written keeps a site governed. -/
theorem keeps_governed (hdeed : ∀ template, deed = .write template → good template) :
    Keeps deed fun site => site.Governed good before := by
  intro site after h hstep
  obtain ⟨-, hpending, hmembers⟩ := hstep.follows
  constructor
  · exact h.nextId_le.trans hstep.ledger.renews.nextId_le
  · exact keeps_template good hdeed h.template hstep
  · intro config hconfig
    rcases hpending config hconfig with hold | rfl
    · exact h.pending config hold
    · exact .inl h.template
  · intro member hmember
    cases hmembers member hmember with
    | kept hold => exact h.fits member hold
    | used hold _ _ hused => exact (hused.config_eq (h.fits _ hold)).2
    | opened _ _ hestablish => exact (Connection.under_of_establish hestablish).fits
  · intro member hmember
    cases hmembers member hmember with
    | kept hold => exact h.inherits member hold
    | used hold hid _ hused =>
      exact (h.inherits _ hold).selecting hid (hused.config_eq (h.fits _ hold)).1
    | @opened config _ _ hid hconfig hestablish =>
      have hunder := Connection.under_of_establish hestablish
      exact .newer config.defaultNamespace (hid ▸ h.nextId_le) (h.pending config hconfig)
        hunder.config_eq

/-- The readers of all members fit their settings. -/
theorem Reaches.fits {pool : Pool} (hidle : pool.idle = []) (h : (start pool).Reaches site) :
    ∀ member ∈ site.members, member.conn.Fits := by
  -- The readers are part of what is governed, whatever settings are good.
  have hgoverned : site.Governed (fun _ => True) (start pool) := by
    induction h with
    | refl =>
      have hnone : (start pool).members = 0 := by
        rw [members, start, hidle]
        rfl
      constructor
      · exact le_refl _
      · trivial
      · exact fun config hconfig => .inr hconfig
      · simp [hnone]
      · simp [hnone]
    | tail _ hstep ih =>
      obtain ⟨deed, hstep⟩ := hstep
      exact keeps_governed (fun _ _ => trivial) ih hstep
  exact hgoverned.fits

/-- A site where good settings are written is governed from then on. -/
theorem governed_write {written : Config} (hfits : ∀ member ∈ before.members, member.conn.Fits)
    (hgood : good written) : (before.write written).Governed good before :=
  ⟨le_refl _, hgood, fun _ hconfig => .inr hconfig, hfits,
    fun member hmember => .older member.conn.config.defaultNamespace hmember rfl rfl⟩

end Site

namespace Errand

variable {good : Config → Prop} {before : Site} {errand after : Errand} {request : Request}
  {allows : Errand → Deed → Prop}

/-- A broadcast that starts has nothing. -/
theorem whole_start (site : Site) : (start site).whole = site := by
  rw [whole_choosing rfl]
  rw [show (start site).broadcast.held = [] from rfl, Multiset.coe_nil, zero_add]
  rfl

/-- Others may do anything but write the settings for new members. -/
def Unwritten (_errand : Errand) (deed : Deed) : Prop := ∀ template, deed ≠ .write template

/-- While nothing bad is written, the settings for new members stay good. -/
theorem Reaches.template (good : Config → Prop) (h : Reaches request allows errand after)
    (hallows : ∀ errand template, allows errand (.write template) → good template)
    (hgood : good errand.site.pool.template) : good after.site.pool.template := by
  induction h with
  | refl => exact hgood
  | tail _ hstep ih =>
    obtain ⟨deed, hallowed, hstep⟩ := hstep
    refine hstep.keeps (Site.keeps_template good ?_) (Site.keeps_template good ?_) ih
    · nofun
    · rintro template rfl
      exact hallows _ template hallowed

/-- While nothing bad is written, the site of a broadcast stays governed. -/
theorem Reaches.governed (h : Reaches request allows errand after)
    (hallows : ∀ errand template, allows errand (.write template) → good template)
    (hgoverned : errand.whole.Governed good before) : after.whole.Governed good before := by
  induction h with
  | refl => exact hgoverned
  | tail _ hstep ih =>
    obtain ⟨deed, hallowed, hstep⟩ := hstep
    refine hstep.keeps (Site.keeps_governed nofun) (Site.keeps_governed ?_) ih
    rintro template rfl
    exact hallows _ template hallowed

end Errand

namespace Desk

/-- A broadcast at a desk keeps the settings for new members. -/
theorem template_continueBroadcast (desk : Desk) (request : Request) :
    (desk.continueBroadcast request [] (.start desk.pool)).2.pool.template =
      desk.pool.template := by
  obtain ⟨after, hreaches, hsite, -⟩ := @errand_continueBroadcast desk request []
    (.start desk.pool) (.start (.start desk.pool)) Errand.Unwritten (fun _ => nofun)
    (fun _ _ _ => nofun) rfl ⟨rfl, rfl, rfl⟩
  have htemplate := hreaches.template (· = desk.pool.template)
    (fun _ template hwrites => absurd rfl (hwrites template)) rfl
  rw [hsite] at htemplate
  exact htemplate

/-- The settings for new members stay while something is asked of every member. -/
theorem template_askAll (desk : Desk) (request : Request) :
    (desk.askAll request).2.pool.template = desk.pool.template := by
  have htemplate := desk.template_continueBroadcast request
  unfold askAll begin attempt
  dsimp only
  cases hresult : desk.continueBroadcast request [] (.start desk.pool) with
  | mk result after =>
    rw [hresult] at htemplate
    cases result with
    | ended outcome => exact htemplate
    | waits waiting => exact htemplate

/-- A desk writes the setting, whatever comes of the broadcast, also if it waits. -/
theorem template_perform (desk : Desk) (setting : Setting) :
    (desk.perform setting.task).2.pool.template = setting.on desk.pool.template := by
  cases setting with
  | select path => exact template_askAll _ _
  | login credentials => exact template_askAll _ _

end Desk

/-- A server that accepts what prepares a stream, twice, and no selection of a namespace. -/
def rejectingServer : Network :=
  let reply (text : String) : Reply := .sending (Utf8.encode text) false
  let replies := [reply "*1\n+11\nSkyhash-1.1\n", reply "*1\n!1\n5\n"]
  .ofDials [.accepted replies, .accepted replies]

/-- While the only member is lent the namespace is written, and the broadcast waits for it. -/
example :
    let start : Desk :=
      ⟨⟨1, .ofAddress "127.0.0.1:2003", [], [], false, 0, 1⟩, rejectingServer, [], []⟩
    let waiting := start.runAll [.borrow "first" false, .useNamespace "nope"]
    waiting.pool.template.defaultNamespace = some "nope" ∧ waiting.waiting.length = 1 ∧
      (waiting.runAll [.release "first"]).waiting.length = 0 := by
  decide +kernel

/-- A broadcast at a site that a pool has reached, since the setting was written, keeps the site
governed as long as only good settings are written. -/
theorem Errand.governed_of_write {template : Config} {capacity : Nat} {pool : Pool}
    (hcreate : Pool.create template capacity = .ok pool) {before : Site}
    (hbefore : (Site.start pool).Reaches before) {good : Config → Prop} {written : Config}
    (hgood : good written) {request : Request} {allows : Errand → Deed → Prop}
    (hallows : ∀ errand template, allows errand (.write template) → good template)
    {errand : Errand} (h : Errand.Reaches request allows (.start (before.write written)) errand) :
    errand.whole.Governed good before := by
  obtain ⟨-, rfl⟩ := Pool.create_eq_ok hcreate
  refine h.governed hallows ?_
  rw [whole_start]
  exact Site.governed_write (hbefore.fits rfl) hgood

/-- What a pool sets stays set, whatever comes of its broadcast: also if a member rejects the
request or breaks, or the pool is closed. Unless others write something else, the settings for new
members are from then on those with this one written, and so are those of every opening that
starts, while the members that were there keep their own but for namespaces. What is set is what
prepares the streams of new members. At a desk it is written in every case, also while the
broadcast waits. A single connection, on the other hand, keeps its settings when a request
fails. -/
theorem Pool.setting_stays_written (template : Config) {capacity : Nat} (hcapacity : 1 ≤ capacity) :
    ∃ pool, Pool.create template capacity = .ok pool ∧
      (∀ (before : Site) (setting : Setting) (errand : Errand), (Site.start pool).Reaches before →
        Errand.Reaches setting.request Errand.Unwritten
          (.start (before.write (setting.on before.pool.template))) errand →
        errand.whole.Governed (· = setting.on before.pool.template) before ∧
          setting.RulesNew errand.site.pool.template) ∧
      (∀ net tasks (setting : Setting), ∃ desk, Desk.create template capacity net = .ok desk ∧
        ((desk.runAll tasks).perform setting.task).2.pool.template =
          setting.on (desk.runAll tasks).pool.template) ∧
      ∀ site, (Site.start pool).Reaches site → ∀ member ∈ site.members,
        ∀ request halt conn, Connection.Used request member.conn (.error halt) conn →
          conn.config = member.conn.config := by
  have hcreate := Pool.create_eq template hcapacity
  refine ⟨_, hcreate, fun before setting errand hbefore herrand => ?_,
    fun net tasks setting => ?_, fun site hsite member hmember request halt conn hused => ?_⟩
  · have hgoverned : errand.whole.Governed (· = setting.on before.pool.template) before := by
      refine Errand.governed_of_write hcreate hbefore ?_ ?_ herrand
      · rfl
      · exact fun _ template hwrites => absurd rfl (hwrites template)
    have htemplate : errand.site.pool.template = setting.on before.pool.template :=
      hgoverned.template
    refine ⟨hgoverned, ?_⟩
    rw [htemplate]
    exact (Setting.heldBy_on setting _).rulesNew
  · exact ⟨_, Desk.create_eq template hcapacity net, Desk.template_perform _ setting⟩
  · have hconfig := (hused.config_eq (hsite.fits rfl member hmember)).1
    rw [Connection.selectedBy_error] at hconfig
    exact hconfig

/-- A connection can be opened with these settings on this network, and passes the test. -/
def Connection.opensTo (config : Config) (net : Network) (test : Connection → Network → Bool) :
    Bool :=
  match establish config net with
  | (.ok conn, after) => test conn after
  | _ => false

/-- A connection that can be opened, and passes the test. -/
theorem Connection.exists_of_opensTo {config : Config} {net : Network}
    {test : Connection → Network → Bool} (h : opensTo config net test = true) :
    ∃ conn after, establish config net = (.ok conn, after) ∧ test conn after = true := by
  unfold opensTo at h
  split at h
  · exact ⟨_, _, ‹_›, h⟩
  · cases h

/-- A call for the request ends with an error on this network. -/
def Connection.rejects (conn : Connection) (net : Network) (request : Request) : Bool :=
  match answer request ⟨conn, net⟩ with
  | (.error (.failed _), _) => true
  | _ => false

/-- A request that is rejected has an error. -/
theorem Connection.exists_answer_of_rejects {conn : Connection} {net : Network} {request : Request}
    (h : conn.rejects net request = true) :
    ∃ e line, answer request ⟨conn, net⟩ = (.error (.failed e), line) := by
  unfold rejects at h
  split at h
  · exact ⟨_, _, ‹_›⟩
  · cases h

/-- The only member rejects the namespace, and the pool goes on to select it for new ones. -/
theorem Pool.setting_stays_written_rejected :
    1 ≤ 2 ∧ ∃ pool before errand e, Pool.create (.ofAddress "127.0.0.1:2003") 2 = .ok pool ∧
      (Site.start pool).Reaches before ∧ before.pool.template.defaultNamespace = none ∧
      Errand.Reaches (.use "nope") Errand.Unwritten
        (.start (before.write ((Setting.select "nope").on before.pool.template))) errand ∧
      errand.phase = .returned (.error e) ∧
      errand.site.pool.template.defaultNamespace = some "nope" ∧
      (Setting.select "nope").RulesNew errand.site.pool.template := by
  let config : Config := .ofAddress "127.0.0.1:2003"
  obtain ⟨pool, hcreate, hstays, -⟩ := Pool.setting_stays_written config (by decide : 1 ≤ 2)
  obtain ⟨-, rfl⟩ := Pool.create_eq_ok hcreate
  have hopens : Connection.opensTo config rejectingServer
      (fun conn net => conn.rejects net (.use "nope")) = true := by
    decide +kernel
  obtain ⟨conn, net, hestablish, hrejects⟩ := Connection.exists_of_opensTo hopens
  obtain ⟨e, line, hanswer⟩ := Connection.exists_answer_of_rejects hrejects
  have hbefore := Site.reaches_idle config (by decide : 1 ≤ 2) hestablish
  have herrand := @Errand.reaches_only (.use "nope") Errand.Unwritten (fun _ _ => nofun)
    (fun _ _ _ _ => nofun) ((Setting.select "nope").on config) 2 net conn _ line hanswer
  obtain ⟨hgoverned, hrules⟩ := hstays _ (.select "nope") _ hbefore herrand
  exact ⟨by decide, _, _, _, e, hcreate, hbefore, rfl, herrand, rfl,
    congrArg Config.defaultNamespace hgoverned.template, hrules⟩

/-- The namespace for new members after a task that fails. -/
def Desk.namespaceAfterFailure (desk : Desk) (task : Desk.Task) : Option (Option String) :=
  match desk.perform task with
  | (.failed _, after) => some after.pool.template.defaultNamespace
  | _ => none

/-- A failed broadcast does not leave the settings for new members as they were: here the only
member rejects the namespace, and then the pool cannot open another one. -/
theorem Pool.not_setting_restored :
    (¬ ∀ (template : Config) (capacity : Nat) (net : Network) (tasks : List Desk.Task)
        (setting : Setting) (desk after : Desk) (e : Error),
      Desk.create template capacity net = .ok desk →
      (desk.runAll tasks).perform setting.task = (.failed e, after) →
      after.pool.template = (desk.runAll tasks).pool.template) ∧
    ∃ desk, Desk.create (.ofAddress "127.0.0.1:2003") 2 rejectingServer = .ok desk ∧
      (desk.runAll [.borrow "first" false, .release "first"]).namespaceAfterFailure
          (.useNamespace "nope") = some (some "nope") ∧
      (desk.runAll [.borrow "first" false, .release "first", .useNamespace "nope",
        .borrow "second" false]).namespaceAfterFailure (.borrow "third" false) =
          some (some "nope") := by
  let config : Config := .ofAddress "127.0.0.1:2003"
  let start : Desk := ⟨⟨2, config, [], [], false, 0, 1⟩, rejectingServer, [], []⟩
  have hcreate : Desk.create config 2 rejectingServer = .ok start :=
    Desk.create_eq config (by decide) rejectingServer
  have hwritten : (start.runAll [.borrow "first" false, .release "first"]).namespaceAfterFailure
      (.useNamespace "nope") = some (some "nope") := by
    decide +kernel
  have hrejected : (start.runAll [.borrow "first" false, .release "first", .useNamespace "nope",
      .borrow "second" false]).namespaceAfterFailure (.borrow "third" false) =
        some (some "nope") := by
    decide +kernel
  have hbefore : (start.runAll [.borrow "first" false,
      .release "first"]).pool.template.defaultNamespace = none := by
    decide +kernel
  refine ⟨fun hrestored => ?_, start, hcreate, hwritten, hrejected⟩
  have hsame := fun after e => hrestored config 2 rejectingServer
    [.borrow "first" false, .release "first"] (.select "nope") start after e hcreate
  generalize start.runAll [.borrow "first" false, .release "first"] = desk at hwritten hbefore hsame
  unfold Desk.namespaceAfterFailure at hwritten
  split at hwritten
  · rename_i e after hfailed
    rw [hsame after e hfailed, hbefore] at hwritten
    cases hwritten
  · cases hwritten

end StoreClient
