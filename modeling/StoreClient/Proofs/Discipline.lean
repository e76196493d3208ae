import StoreClient.Connection.Request
import StoreClient.Proofs.Calls
import StoreClient.Proofs.Records

/-!
# The discipline of a connection

A connection opens one stream after the other. Whatever its owner asks and however the server
behaves, the log of each stream is a session under the settings that applied when it was
opened: the configured ones, with the namespace that was selected last.
-/

namespace StoreClient

namespace Line

/-- A connection that has its settings still, but for the namespace, on a network that records
the sessions on its streams. -/
structure Keeps (config : Config) (first : Nat) (paths : List (Option String))
    (current : Option String) (line : Line) : Prop where
  records : line.net.Records config first paths
  config_eq : line.conn.config = config.selecting current
  limit_eq : line.conn.reader.limit = config.maxResponseSize

/-- If the connection has a stream, it is the one that was opened last, and so much is due on
it. -/
def Awaits (config : Config) (first : Nat) (paths : List (Option String)) (due : Due)
    (line : Line) : Prop :=
  ∀ stream, line.conn.stream = some stream →
    ∃ i path, stream.number = first + i ∧ paths.length = i + 1 ∧ paths[i]? = some path ∧
      Served stream.number (config.selecting path) line.conn.reader due
        (line.net.logOf stream.number)

/-- The connection may send what is due on its stream, if it has one. -/
def Ready (config : Config) (first : Nat) (paths : List (Option String))
    (current : Option String) (due : Due) (line : Line) : Prop :=
  line.Keeps config first paths current ∧ line.Awaits config first paths due

/-- What the handshake leaves when it halts. If it was given up, an exchange has the stream. -/
def Halts (config : Config) (first : Nat) (paths : List (Option String))
    (current : Option String) (halt : Halt) (line : Line) : Prop :=
  line.Keeps config first paths current ∧ (halt = .stalled → line.conn.stream = none)

/-- The connection has no stream. -/
structure Closed (config : Config) (first : Nat) (paths : List (Option String))
    (current : Option String) (line : Line) : Prop
    extends line.Keeps config first paths current where
  stream_eq : line.conn.stream = none

/-- The connection has no stream, and nothing is left of the one before. -/
structure Blank (config : Config) (first : Nat) (paths : List (Option String))
    (current : Option String) (line : Line) : Prop
    extends line.Closed config first paths current where
  reader_eq : line.conn.reader = .start config.maxResponseSize

variable {config : Config} {first : Nat} {paths : List (Option String)} {current : Option String}
  {due : Due} {line : Line} {conn : Connection}

/-- A connection without a stream awaits nothing. -/
theorem Awaits.of_none (h : line.conn.stream = none) (due : Due) :
    line.Awaits config first paths due := by
  intro stream hstream
  rw [h] at hstream
  cases hstream

/-- What a connection awaits depends on its stream and its reader only. -/
theorem Awaits.change (h : line.Awaits config first paths due)
    (hstream : conn.stream = line.conn.stream) (hreader : conn.reader = line.conn.reader) :
    Awaits config first paths due ⟨conn, line.net⟩ := by
  intro stream hsome
  rw [hreader]
  exact h stream (hstream.symm.trans hsome)

/-- A change of the connection that leaves its settings and the limit of its reader. -/
theorem Keeps.change (h : line.Keeps config first paths current)
    (hconfig : conn.config = line.conn.config)
    (hlimit : conn.reader.limit = line.conn.reader.limit) :
    Keeps config first paths current ⟨conn, line.net⟩ :=
  ⟨h.records, hconfig.trans h.config_eq, hlimit.trans h.limit_eq⟩

/-- What happens on one of the streams is added to its log. -/
theorem Keeps.record {i : Nat} {path : Option String} {events : List Event}
    (h : line.Keeps config first paths current) (hpath : paths[i]? = some path)
    (hevents : ∀ event ∈ events, event.stream = first + i)
    (hsession : Session (first + i) (config.selecting path)
      (line.net.logOf (first + i) ++ events))
    (hconfig : conn.config = line.conn.config)
    (hlimit : conn.reader.limit = line.conn.reader.limit) :
    Keeps config first paths current ⟨conn, line.net.record events⟩ :=
  ⟨h.records.record hpath hevents hsession, hconfig.trans h.config_eq, hlimit.trans h.limit_eq⟩

/-- A connection on a stream that was just opened has to prepare it. -/
theorem Ready.opened {net after : Network} {stream : Stream}
    (h : net.Records config first paths) (hdial : net.Dialed (.ok stream) after)
    (hconfig : conn.config = config.selecting current)
    (hstream : conn.stream = some stream) (hreader : conn.reader = .start config.maxResponseSize) :
    Ready config first (paths ++ [current]) current
      (.ofConfig (config.selecting current) (first + (paths ++ [current]).length))
      ⟨conn, after⟩ := by
  cases hdial with
  | accepted hnumber haccepted hevents =>
    obtain ⟨hrecords, hlog⟩ := h.opened current haccepted hevents
    have hcount := h.accepted_eq
    refine ⟨⟨hrecords, hconfig, by rw [hreader]; rfl⟩, fun other hother => ?_⟩
    obtain rfl : stream = other := Option.some.inj (hstream.symm.trans hother)
    refine ⟨paths.length, current, hnumber.trans hcount, List.length_append, by simp, ?_⟩
    have hopened : first + (paths ++ [current]).length = net.accepted + 1 :=
      hrecords.accepted_eq.symm.trans haccepted
    rw [hnumber, hlog, hreader, hopened]
    exact .opened

end Line

namespace Connection

variable {config : Config} {first : Nat} {paths : List (Option String)} {current : Option String}
  {due : Due} {actions : List Action}

/-- An exchange of actions that may be sent is added to the log of its stream. If it fails or
is given up, the connection has no stream any more, or nothing was sent. -/
theorem exchange_meets (hallows : due.Allows actions) :
    (exchange actions).Meets (Line.Ready config first paths current due)
      (fun entries line => (∃ outcome, answered actions outcome = .ok entries) ∧
        line.Keeps config first paths current ∧
        (due.AcceptedBy entries → line.Awaits config first paths due.tail))
      fun halt line => line.Keeps config first paths current ∧
        (line.conn.stream = none ∨
          (∃ e, halt = .failed e) ∧ line.Awaits config first paths due) := by
  constructor
  · intro line after entries hready hrun
    obtain ⟨hkeeps, hawaits⟩ := hready
    have hexchanged := exchange_exchanged actions line
    rw [hrun] at hexchanged
    cases hexchanged with
    | @answered stream left batch conn ended taken _ hstream hbatch hconfig hreader hleft hnumber
        hentries =>
      obtain ⟨i, path, hi, hlength, hpath, hserved⟩ := hawaits stream hstream
      have hsaid := Packet.encode_eq_ok_iff.mp hbatch
      rw [hi] at hserved hnumber ⊢
      have hevents : ∀ event ∈ [Event.sent (first + i) batch, .received (first + i) taken,
          .judged (first + i) entries], event.stream = first + i := by
        simp [Event.stream]
      have hlimit : conn.reader.limit = line.conn.reader.limit := by
        rw [hreader]
        exact Reader.limit_read _ _ _
      have hlog : (line.net.record _).logOf (first + i) = line.net.logOf (first + i) ++ _ :=
        Network.logOf_record hevents
      refine ⟨⟨_, hentries⟩, ?_, ?_⟩
      · refine hkeeps.record hpath hevents ?_ hconfig hlimit
        by_cases haccepted : due.AcceptedBy entries
        · exact .served (.exchanged hserved hallows hsaid hentries haccepted)
        · exact .refused hserved hallows hsaid hentries haccepted
      · intro haccepted other hother
        obtain rfl : left = other := Option.some.inj (hleft.symm.trans hother)
        refine ⟨i, path, hnumber, hlength, hpath, ?_⟩
        rw [hnumber, hlog]
        dsimp only
        rw [hreader]
        exact hserved.exchanged hallows hsaid hentries haccepted
  · intro line after halt hready hrun
    obtain ⟨hkeeps, hawaits⟩ := hready
    have hexchanged := exchange_exchanged actions line
    rw [hrun] at hexchanged
    cases hexchanged with
    | unsent e => exact ⟨hkeeps, .inr ⟨⟨e, rfl⟩, hawaits⟩⟩
    | @unwritten stream batch conn e hstream hbatch hconfig hlimit hnone =>
      obtain ⟨i, path, hi, hlength, hpath, hserved⟩ := hawaits stream hstream
      rw [hi] at hserved ⊢
      have hevents : ∀ event ∈ [Event.halted (first + i)], event.stream = first + i := by
        simp [Event.stream]
      have hsession := Session.unwritten hserved hallows (Packet.encode_eq_ok_iff.mp hbatch)
      exact ⟨hkeeps.record hpath hevents hsession hconfig hlimit, .inl hnone⟩
    | @unanswered stream batch conn ended taken halt hstream hbatch hconfig hlimit hnone hhalt =>
      obtain ⟨i, path, hi, hlength, hpath, hserved⟩ := hawaits stream hstream
      rw [hi] at hserved ⊢
      have hevents : ∀ event ∈ [Event.sent (first + i) batch, .received (first + i) taken,
          .halted (first + i)], event.stream = first + i := by
        simp [Event.stream]
      have hsession := Session.unanswered hserved hallows (Packet.encode_eq_ok_iff.mp hbatch) hhalt
      exact ⟨hkeeps.record hpath hevents hsession hconfig hlimit, .inl hnone⟩

/-- A preparing action is sent when it is due. When its value suits, the rest is due. -/
theorem roundTrip_meets (action : Action) (later : Due) :
    (roundTrip action).Meets (Line.Ready config first paths current (.ok action :: later))
      (fun value line => action.accepts value = true ∧ line.Keeps config first paths current ∧
        (Due.Suits action value → line.Awaits config first paths later))
      (Line.Halts config first paths current) := by
  have hallows : Due.Allows (.ok action :: later) [action] := rfl
  refine ((exchange_meets hallows).mono (fun _ h => h) (fun _ _ h => h) ?_).bind fun entries => ?_
  · rintro halt line ⟨hkeeps, hnone | ⟨⟨e, rfl⟩, -⟩⟩
    · exact ⟨hkeeps, fun _ => hnone⟩
    · exact ⟨hkeeps, nofun⟩
  · refine .ofExcept ?_ fun e line h => ⟨h.2.1, nofun⟩
    rintro value line hfirst ⟨⟨outcome, hanswered⟩, hkeeps, hawaits⟩
    obtain ⟨haccepts, entry, hentries, hsound, hvalue⟩ := exists_of_answered hanswered hfirst
    refine ⟨haccepts, hkeeps, fun hsuits => hawaits ?_⟩
    rintro _ _ heq
    cases heq
    exact ⟨entry, hentries, hsound, hvalue ▸ hsuits⟩

/-- If what the action accepts suits, the rest is due when it is answered. -/
theorem roundTrip_ready {action : Action}
    (hsuits : ∀ value, action.accepts value = true → Due.Suits action value) (later : Due) :
    (roundTrip action).Meets (Line.Ready config first paths current (.ok action :: later))
      (fun _ => Line.Ready config first paths current later)
      (Line.Halts config first paths current) :=
  (roundTrip_meets action later).mono (fun _ h => h)
    (fun value _ h => ⟨h.2.1, h.2.2 (hsuits value h.1)⟩) fun _ _ h => h

/-- A login accepts the code okay alone. -/
theorem suits_login (username token : String) (value : Value)
    (h : (Action.login username token).accepts value = true) :
    Due.Suits (.login username token) value := by
  cases value with
  | code c =>
    cases c with
    | okay => exact .login username token
    | _ => cases h
  | _ => cases h

/-- The selection of a namespace accepts the code okay alone. -/
theorem suits_use (path : String) (value : Value) (h : (Action.use path).accepts value = true) :
    Due.Suits (.use path) value := by
  cases value with
  | code c =>
    cases c with
    | okay => exact .use path
    | _ => cases h
  | _ => cases h

/-- The version that the server answers suits if it passes the check. -/
theorem suits_of_checkVersion {version : Value} (h : checkVersion version = .ok ()) :
    Due.Suits (.sysInfo .protocol) version := by
  unfold checkVersion at h
  split at h
  · rename_i htext
    cases version with
    | string text =>
      cases htext
      exact .version
    | _ => cases htext
  · cases h

/-- If the provider gives credentials on the stream that was opened last, the login with them is
due. -/
theorem credentialsOf_meets (provider : AuthProvider) (later : Due) :
    (Call.ofExcept (credentialsOf (provider.answer (first + paths.length)))).Meets
      (Line.Ready config first paths current
        (Due.login provider (first + paths.length) :: later))
      (fun login => Line.Ready config first paths current
        (.ok (.login login.username login.token) :: later))
      (Line.Halts config first paths current) := by
  refine .ofExcept (fun login line hlogin hready => ?_) fun e line h => ⟨h.1, nofun⟩
  have hdue : Due.login provider (first + paths.length) =
      .ok (.login login.username login.token) := by
    rw [Due.login]
    cases hanswer : provider.answer (first + paths.length) with
    | error e =>
      rw [hanswer] at hlogin
      cases hlogin
    | ok given =>
      rw [hanswer] at hlogin
      cases hlogin
      rfl
  rw [hdue] at hready
  exact hready

/-- The namespace is selected if there is one. -/
theorem select_meets (path : Option String) :
    (match path with
      | some path => do
        let _ ← roundTrip (.use path)
        pure ()
      | _ => pure () : Call Unit).Meets
      (Line.Ready config first paths current (path.toList.map fun path => .ok (.use path)))
      (fun _ => Line.Ready config first paths current [])
      (Line.Halts config first paths current) := by
  cases path with
  | none => exact .pure fun _ h => h
  | some path =>
    exact (roundTrip_ready (suits_use path) []).bind fun _ => .pure fun _ h => h

/-- The preparing actions are sent in order, each after the one before was accepted. -/
theorem handshakeSteps_meets :
    handshakeSteps.Meets
      (Line.Ready config first paths current
        (.ofConfig (config.selecting current) (first + paths.length)))
      (fun _ => Line.Ready config first paths current [])
      (Line.Halts config first paths current) := by
  have hversion : ∀ version, (Call.ofExcept (checkVersion version)).Meets
      (fun line => (Action.sysInfo .protocol).accepts version = true ∧
        line.Keeps config first paths current ∧
        (Due.Suits (.sysInfo .protocol) version → line.Awaits config first paths
          (Due.ofConfig (config.selecting current) (first + paths.length)).tail))
      (fun _ => Line.Ready config first paths current
        (Due.ofConfig (config.selecting current) (first + paths.length)).tail)
      (Line.Halts config first paths current) := by
    intro version
    refine .ofExcept ?_ fun e line h => ⟨h.2.1, nofun⟩
    rintro ⟨⟩ line hcheck ⟨-, hkeeps, hawaits⟩
    exact ⟨hkeeps, hawaits (suits_of_checkVersion hcheck)⟩
  unfold handshakeSteps
  refine (roundTrip_meets _ _).bind fun version => (hversion version).bind fun _ =>
    Call.Meets.get.bind fun seen => ?_
  have hseen : ∀ line, seen = line ∧ Line.Ready config first paths current
      (Due.ofConfig (config.selecting current) (first + paths.length)).tail line →
      seen.conn.config = config.selecting current ∧
        seen.net.accepted = first + paths.length := by
    rintro line ⟨rfl, hkeeps, -⟩
    exact ⟨hkeeps.config_eq, hkeeps.records.accepted_eq⟩
  refine .assuming hseen fun ⟨hconfig, haccepted⟩ => ?_
  refine Call.Meets.mono ?_ (fun line h => h.2) (fun _ _ h => h) fun _ _ h => h
  dsimp only
  rw [hconfig, haccepted, Due.ofConfig, List.tail_cons]
  dsimp only [Config.selecting]
  cases config.auth with
  | none => exact select_meets current
  | some provider =>
    refine (credentialsOf_meets provider _).bind fun login => ?_
    have hsuits := suits_login login.username login.token
    exact (roundTrip_ready hsuits _).bind fun _ => select_meets current

/-- A handshake leaves a stream on which nothing is due, or none. -/
theorem handshake_meets :
    handshake.Meets
      (Line.Ready config first paths current
        (.ofConfig (config.selecting current) (first + paths.length)))
      (fun _ => Line.Ready config first paths current [])
      fun _ => Line.Closed config first paths current := by
  refine handshakeSteps_meets.onFailure ?_ ?_
  · rintro e line ⟨hkeeps, -⟩
    exact ⟨hkeeps.change rfl rfl, rfl⟩
  · rintro line ⟨hkeeps, hnone⟩
    exact ⟨hkeeps, hnone rfl⟩

/-- Dialing again opens a stream, or leaves the connection without one. -/
theorem redial_meets :
    redial.Meets (Line.Blank config first paths current)
      (fun _ => Line.Ready config first (paths ++ [current]) current
        (.ofConfig (config.selecting current) (first + (paths ++ [current]).length)))
      fun _ => Line.Closed config first paths current := by
  constructor
  · intro line after _ hblank hrun
    have hdialed := line.net.dial_dialed line.conn.config.address
    unfold redial at hrun
    split at hrun
    · cases hrun
    · rename_i stream net hdial
      rw [hdial] at hdialed
      cases hrun
      exact .opened hblank.records hdialed hblank.config_eq rfl hblank.reader_eq
  · intro line after halt hblank hrun
    have hdialed := line.net.dial_dialed line.conn.config.address
    unfold redial at hrun
    split at hrun
    · rename_i kind net hdial
      rw [hdial] at hdialed
      cases hrun
      cases hdialed with
      | refused _ haccepted hevents =>
        have hrecords := hblank.records.refused haccepted hevents
        exact ⟨⟨hrecords, hblank.config_eq, hblank.limit_eq⟩, hblank.stream_eq⟩
    · cases hrun

/-- The connection is between two requests: since some earlier moment only streams under the
current namespace were opened, and nothing is due on the last one. -/
def Settled (config : Config) (first : Nat) (paths : List (Option String))
    (current : Option String) (line : Line) : Prop :=
  ∃ opened, line.Ready config first (paths ++ List.replicate opened current) current []

/-- A change of the connection that leaves its settings, its stream and its reader. -/
theorem Settled.change {line : Line} {conn : Connection}
    (h : Settled config first paths current line) (hconfig : conn.config = line.conn.config)
    (hstream : conn.stream = line.conn.stream) (hreader : conn.reader = line.conn.reader) :
    Settled config first paths current ⟨conn, line.net⟩ := by
  obtain ⟨opened, hkeeps, hawaits⟩ := h
  exact ⟨opened, hkeeps.change hconfig (congrArg Reader.limit hreader),
    hawaits.change hstream hreader⟩

/-- A connection without a stream is settled. -/
theorem Settled.of_closed {line : Line} {opened : Nat}
    (h : line.Closed config first (paths ++ List.replicate opened current) current) :
    Settled config first paths current line :=
  ⟨opened, h.toKeeps, .of_none h.stream_eq []⟩

/-- A stream that is dialed and prepared is one more under the current namespace. -/
theorem redialed_meets (opened : Nat) :
    (do redial; handshake).Meets
      (Line.Blank config first (paths ++ List.replicate opened current) current)
      (fun _ => Settled config first paths current)
      fun _ => Settled config first paths current := by
  have hmore : paths ++ List.replicate opened current ++ [current] =
      paths ++ List.replicate (opened + 1) current := by
    rw [List.replicate_succ', List.append_assoc]
  refine (redial_meets.mono (fun _ h => h) (fun _ _ h => h) ?_).bind fun _ => ?_
  · exact fun _ _ h => .of_closed h
  · rw [hmore]
    exact handshake_meets.mono (fun _ h => h) (fun _ _ h => ⟨opened + 1, h⟩)
      fun _ _ h => .of_closed h

/-- A closed connection that is opened again is settled, whether that succeeds or not. -/
theorem reopen_meets :
    reopen.Meets
      (fun line => Settled config first paths current line ∧ line.conn.stream = none)
      (fun _ => Settled config first paths current)
      fun _ => Settled config first paths current := by
  have hreset : (Call.update fun conn => { conn with reader := conn.reader.reset }).Meets
      (fun line => Settled config first paths current line ∧ line.conn.stream = none)
      (fun _ line => ∃ opened,
        line.Blank config first (paths ++ List.replicate opened current) current)
      fun _ => Settled config first paths current := by
    refine .update ?_
    rintro line ⟨⟨opened, hkeeps, -⟩, hnone⟩
    have hreader := congrArg Reader.start hkeeps.limit_eq
    exact ⟨opened, ⟨hkeeps.change rfl rfl, hnone⟩, hreader⟩
  have hredialed : (Call.onFailure (do redial; handshake) fun e conn =>
      { conn with failure := some e }).Meets
      (fun line => ∃ opened,
        line.Blank config first (paths ++ List.replicate opened current) current)
      (fun _ => Settled config first paths current)
      fun _ => Settled config first paths current :=
    Call.Meets.onFailure (.exists_intro fun opened => redialed_meets opened)
      (fun e line h => Settled.change h rfl rfl rfl) fun _ h => h
  exact hreset.bind fun _ => hredialed.bind fun _ => .update fun line h =>
    Settled.change h rfl rfl rfl

/-- Sending a packet keeps what its parts keep: noting that an exchange was abandoned, opening the
connection again if it has no stream, and the exchange. -/
theorem send_preserves_of {property : Line → Prop} {actions : List Action} (cancelled : Bool)
    (hnote : (Call.update noteAbandoned).Preserves property)
    (hreopen : reopen.Meets (fun line => property line ∧ line.conn.stream = none)
      (fun _ => property) fun _ => property)
    (hexchange : (exchange actions).Preserves property) :
    (send actions cancelled).Preserves property := by
  unfold send
  dsimp only
  split
  · exact .fail_bind _ _
  · split
    · exact .fail_bind _ _
    · refine hnote.bind fun _ => Call.Meets.get.bind fun seen => ?_
      split
      · rename_i hclosed
        split
        · exact (Call.Preserves.fail_bind _ _).mono (fun _ h => h.2) (fun _ _ h => h) fun _ _ h => h
        · refine (hreopen.mono ?_ (fun _ _ h => h) fun _ _ h => h).bind fun _ => hexchange
          rintro line ⟨rfl, hline⟩
          exact ⟨hline, Option.isNone_iff_eq_none.mp hclosed⟩
      · exact hexchange.mono (fun _ h => h.2) (fun _ _ h => h) fun _ _ h => h

/-- Sending a packet leaves the connection settled. -/
theorem send_preserves (actions : List Action) (cancelled : Bool) :
    (send actions cancelled).Preserves (Settled config first paths current) := by
  have hexchange : (exchange actions).Preserves (Settled config first paths current) := by
    have hany : Due.Allows [] actions := trivial
    refine .exists_intro fun opened => (exchange_meets hany).mono (fun _ h => h) ?_ ?_
    · rintro entries line ⟨-, hkeeps, hawaits⟩
      exact ⟨opened, hkeeps, hawaits nofun⟩
    · rintro halt line ⟨hkeeps, hnone | ⟨-, hawaits⟩⟩
      · exact .of_closed ⟨hkeeps, hnone⟩
      · exact ⟨opened, hkeeps, hawaits⟩
  have hnote : (Call.update noteAbandoned).Preserves (Settled config first paths current) := by
    refine .update fun line h => ?_
    unfold noteAbandoned
    split
    · exact Settled.change h rfl rfl rfl
    · exact h
  exact send_preserves_of cancelled hnote reopen_meets hexchange

section Answers

variable {request : Request} {path : String} {pre post selected : Line → Prop}

/-- Every request but the selection of a namespace sends one packet, or none. So what a packet
leaves, the answer leaves. -/
theorem answer_meets_of_send (hother : ∀ path, request ≠ .use path)
    (hstay : ∀ line, pre line → post line)
    (hclose : ∀ line, pre line → post ⟨line.conn.close, line.net⟩)
    (hsend : ∀ actions cancelled,
      (send actions cancelled).Meets pre (fun _ => post) fun _ => post) :
    (answer request).Meets pre (fun _ => post) fun _ => post := by
  have hknown {α : Type} (result : Except Error α) :
      (Call.ofExcept result).Meets post (fun _ => post) fun _ => post :=
    .ofExcept (fun _ _ _ h => h) fun _ _ h => h
  have hexec (action : Action) : (exec action).Meets pre (fun _ => post) fun _ => post :=
    (hsend [action] false).bind fun _ => hknown _
  have hdone {α β : Type} {call : Call α} (h : call.Meets pre (fun _ => post) fun _ => post)
      (b : β) : (do let _ ← call; pure b : Call β).Meets pre (fun _ => post) fun _ => post :=
    h.bind fun _ => .pure fun _ hline => hline
  cases request with
  | exec action => exact (hexec action).map _
  | batch actions cancelled view =>
    cases view with
    | entries => exact (hsend actions cancelled).map _
    | response => exact (hsend actions cancelled).map _
    | values => exact (hsend actions cancelled).bind fun _ => (hknown _).map _
  | command line => exact (hexec _).map _
  | heya => exact hdone (hexec _) _
  | login username token => exact hdone (hdone (hexec _) ()) _
  | loginWith asked =>
    have hlogin : (loginWith asked).Meets pre (fun _ => post) fun _ => post := by
      unfold loginWith
      cases credentialsOf asked with
      | ok credentials => exact hdone (hexec _) ()
      | error e => exact .fail_bind hstay
    exact hdone hlogin _
  | use path => exact absurd rfl (hother path)
  | protocol => exact ((hexec _).bind fun _ => hknown _).map _
  | version => exact ((hexec _).bind fun _ => hknown _).map _
  | get key => exact (hexec _).map _
  | set key value => exact hdone (hexec _) _
  | del keys => exact ((hexec _).bind fun _ => hknown _).map _
  | «exists» keys => exact ((hexec _).bind fun _ => hknown _).map _
  | close => exact hdone (.update hclose) _

/-- Selecting a namespace sends one packet, and changes the settings if it is accepted. -/
theorem answer_use_meets (hexec : (exec (.use path)).Meets pre (fun _ => post) fun _ => post)
    (hselect : ∀ line, post line →
      selected ⟨{ line.conn with config := line.conn.config.selecting (some path) }, line.net⟩) :
    (answer (.use path)).Meets pre (fun _ => selected) fun _ => post := by
  have huse : (useNamespace path).Meets pre (fun _ => selected) fun _ => post :=
    hexec.bind fun _ => .update hselect
  exact huse.bind fun _ => .pure fun _ h => h

end Answers

/-- Running an action leaves the connection settled. -/
theorem exec_preserves (action : Action) :
    (exec action).Preserves (Settled config first paths current) :=
  (send_preserves [action] false).bind fun _ => .ofExcept _

/-- Every request but the selection of a namespace leaves the connection settled. -/
theorem answer_preserves {request : Request} (h : ∀ path, request ≠ .use path) :
    (answer request).Preserves (Settled config first paths current) := by
  apply answer_meets_of_send h
  · exact fun _ hline => hline
  · rintro line ⟨opened, hkeeps, -⟩
    exact .of_closed ⟨hkeeps.change rfl rfl, rfl⟩
  · exact send_preserves

/-- The namespace that is selected last, after one more request. -/
def selectedBy (current : Option String) : Request → Except Halt Answer → Option String
  | .use path, .ok _ => some path
  | _, _ => current

/-- Only a selection that succeeds changes the current namespace. -/
theorem selectedBy_of_other {request : Request} (hother : ∀ path, request ≠ .use path)
    (current : Option String) (result : Except Halt Answer) :
    selectedBy current request result = current := by
  cases request with
  | use path => exact absurd rfl (hother path)
  | _ => rfl

/-- A request that has no answer selects nothing. -/
theorem selectedBy_error (current : Option String) (request : Request) (halt : Halt) :
    selectedBy current request (.error halt) = current := by
  cases request <;> rfl

/-- Answering a request opens streams under the current namespace, and may select another. -/
theorem answer_meets (request : Request) :
    (answer request).Meets (Line.Ready config first paths current [])
      (fun a line => ∃ opened, line.Ready config first (paths ++ List.replicate opened current)
        (selectedBy current request (.ok a)) [])
      fun halt line => ∃ opened, line.Ready config first (paths ++ List.replicate opened current)
        (selectedBy current request (.error halt)) [] := by
  have hsettled : ∀ line, line.Ready config first paths current [] →
      Settled config first paths current line := by
    intro line h
    refine ⟨0, ?_⟩
    rw [List.replicate_zero, List.append_nil]
    exact h
  by_cases huse : ∃ path, request = .use path
  · obtain ⟨path, rfl⟩ := huse
    have hselect : (answer (.use path)).Meets (Settled config first paths current)
        (fun _ line => ∃ opened,
          line.Ready config first (paths ++ List.replicate opened current) (some path) [])
        fun _ => Settled config first paths current := by
      refine answer_use_meets (exec_preserves (.use path)) ?_
      rintro line ⟨opened, hkeeps, hawaits⟩
      refine ⟨opened, ⟨hkeeps.records, ?_, hkeeps.limit_eq⟩, hawaits.change rfl rfl⟩
      dsimp only
      rw [hkeeps.config_eq]
      rfl
    exact hselect.mono hsettled (fun _ _ h => h) fun _ _ h => h
  · have hother : ∀ path, request ≠ .use path := fun path h => huse ⟨path, h⟩
    refine (answer_preserves hother).mono hsettled ?_ ?_
    · intro a line h
      rw [selectedBy_of_other hother]
      exact h
    · intro halt line h
      rw [selectedBy_of_other hother]
      exact h

end Connection

/-- A run of a connection. -/
structure Run where
  line : Line
  /-- The namespace of the last selection that succeeded, and else the configured one. -/
  selected : Option String
  /-- The namespaces that were selected when the streams of the connection were opened, in
  order. -/
  paths : List (Option String)

namespace Run

/-- The run of a connection that was just opened. -/
def start (config : Config) (line : Line) : Run :=
  ⟨line, config.defaultNamespace, [config.defaultNamespace]⟩

/-- Ask one more thing. The streams that it opens are opened under the namespace that is
selected before it. -/
def ask (run : Run) (request : Request) : Run :=
  let (result, line) := Connection.answer request run.line
  { line
    selected := Connection.selectedBy run.selected request result
    paths := run.paths ++
      List.replicate (line.net.accepted - run.line.net.accepted) run.selected }

/-- Ask one thing after the other. -/
def askAll (run : Run) (requests : List Request) : Run := requests.foldl ask run

variable {config : Config} {first : Nat} {run : Run}

/-- The run records sessions, and the connection may go on with any request. -/
def Disciplined (config : Config) (first : Nat) (run : Run) : Prop :=
  run.line.Ready config first run.paths run.selected []

/-- A request keeps the discipline. -/
theorem Disciplined.ask (h : run.Disciplined config first) (request : Request) :
    (run.ask request).Disciplined config first := by
  have hopened : ∀ {line : Line} {selected : Option String},
      (∃ opened, line.Ready config first (run.paths ++ List.replicate opened run.selected)
        selected []) →
      line.Ready config first (run.paths ++
        List.replicate (line.net.accepted - run.line.net.accepted) run.selected) selected [] := by
    rintro line selected ⟨opened, hready⟩
    have hafter := hready.1.records.accepted_eq
    have hbefore := h.1.records.accepted_eq
    rw [List.length_append, List.length_replicate] at hafter
    have hcount : line.net.accepted - run.line.net.accepted = opened := by omega
    rw [hcount]
    exact hready
  unfold Disciplined Run.ask
  cases hanswer : Connection.answer request run.line with
  | mk result line =>
    cases result with
    | ok a => exact hopened ((Connection.answer_meets request).ok h hanswer)
    | error halt => exact hopened ((Connection.answer_meets request).halt h hanswer)

/-- A whole run keeps the discipline. -/
theorem Disciplined.askAll (h : run.Disciplined config first) (requests : List Request) :
    (run.askAll requests).Disciplined config first := by
  induction requests generalizing run with
  | nil => exact h
  | cons request rest ih => exact ih (h.ask request)

end Run

namespace Connection

variable {config : Config} {net : Network}

/-- No stream was opened yet. -/
theorem records_nil (h : net.Numbered) : net.Records config net.accepted [] :=
  ⟨rfl, h, nofun⟩

/-- Opening a connection opens one stream, or none, and prepares it. -/
theorem establish_records (hnet : net.Numbered) {result : Except Halt Connection}
    {after : Network} (h : establish config net = (result, after)) :
    (∀ conn, result = .ok conn → (Run.start config ⟨conn, after⟩).Disciplined config net.accepted) ∧
      ∃ opened, after.Records config net.accepted
        (List.replicate opened config.defaultNamespace) := by
  have hdialed := net.dial_dialed config.address
  unfold establish at h
  split at h
  · rename_i kind refused hdial
    rw [hdial] at hdialed
    cases h
    cases hdialed with
    | refused _ haccepted hevents =>
      refine ⟨fun conn hconn => ?_, 0, (records_nil hnet).refused haccepted hevents⟩
      cases hconn
  · rename_i stream dialed hdial
    rw [hdial] at hdialed
    have hready : Line.Ready config net.accepted [config.defaultNamespace]
        config.defaultNamespace
        (.ofConfig (config.selecting config.defaultNamespace) (net.accepted + 1))
        ⟨start config stream, dialed⟩ := .opened (records_nil hnet) hdialed rfl rfl rfl
    split at h
    · rename_i line hhandshake
      cases h
      have hline := handshake_meets.ok hready hhandshake
      refine ⟨fun conn hconn => ?_, 1, hline.1.records⟩
      cases hconn
      exact hline
    · rename_i halt line hhandshake
      cases h
      refine ⟨fun conn hconn => ?_, 1, (handshake_meets.halt hready hhandshake).1.records⟩
      cases hconn

/-- Whatever is asked of a connection, and however the server behaves, the log of each of its
streams is a session: first the preparing actions, in order, each sent after the one before was
accepted, under the namespace of the last selection that had succeeded when the stream was
opened and with the credentials that the provider gives for that stream; then packets of the
owner; and nothing after the first exchange that fails or is given up, or after a preparing action
that is refused. Only the right version and the code okay accept a preparing action. Each batch is
what its actions say, word by word. Each answer is read, by a reader
that was empty when the stream was opened, from what was received on that stream. The same holds if
the connection cannot be opened. -/
theorem streams_are_sessions (config : Config) (net : Network) (hnet : net.Numbered) :
    (∃ opened, (establish config net).2.Records config net.accepted
      (List.replicate opened config.defaultNamespace)) ∧
    ∀ conn after, establish config net = (.ok conn, after) → ∀ requests,
      ((Run.start config ⟨conn, after⟩).askAll requests).line.net.Records config net.accepted
        ((Run.start config ⟨conn, after⟩).askAll requests).paths := by
  refine ⟨(establish_records hnet rfl).2, fun conn after h requests => ?_⟩
  have hstart := (establish_records hnet h).1 conn rfl
  exact (hstart.askAll requests).1.records

/-- Settings with credentials and a namespace, under which a connection is opened again. -/
def reconnecting : Config :=
  { Config.ofAddress "127.0.0.1:2003" with
    auth := some (.fixed ⟨"root", "secret"⟩)
    defaultNamespace := some "apps"
    autoReconnect := true }

/-- Settings with a provider whose token is replaced: the old one is given to the first stream,
asking fails on the second, and from then on the new one is given. -/
def rotating : Config :=
  { reconnecting with
    auth := some ⟨fun opened =>
      if opened = 1 then .ok ⟨"root", "old"⟩
      else if opened = 2 then .error (.config "sealed")
      else .ok ⟨"root", "new"⟩⟩ }

/-- A server that accepts three streams. It falls silent on the first one. -/
def rotatingServer : Network :=
  let reply (text : String) : Reply := .sending (Utf8.encode text) false
  let okay := reply "*1\n!1\n0\n"
  let version := reply "*1\n+11\nSkyhash-1.1\n"
  .ofDials [.accepted [version, okay, okay, okay, .silence], .accepted [version],
    .accepted [version, okay, okay, reply "*1\n+1\nv\n"]]

/-- The batches that this server receives: each is one command with these words. -/
def rotatingRequests : List (List Bytes) :=
  let version := ["SYS", "INFO", "PROTOCOL"]
  let login (token : String) := ["AUTH", "LOGIN", "root", token]
  let streams :=
    [[version, login "old", ["USE", "apps"], ["USE", "shop"], ["GET", "k"]], [version],
      [version, login "new", ["USE", "shop"], ["GET", "k"]]]
  streams.map fun commands => commands.map fun words => Wire.batch [words.map Utf8.encode]

/-- After a selection and an exchange that was given up, the next request opens a second stream,
on which nothing is sent once the provider fails. The third stream logs in with the new token and
selects the new namespace before the packet is sent. -/
theorem streams_are_sessions_rotating :
    rotatingServer.Numbered ∧
      ∃ conn after, establish rotating rotatingServer = (.ok conn, after) ∧
        let run := (Run.start rotating ⟨conn, after⟩).askAll
          [.use "shop", .get "k", .get "k", .get "k"]
        run.line.net.Records rotating 0 [some "apps", some "shop", some "shop"] ∧
          run.line.net.requests = rotatingRequests := by
  have hnumbered : rotatingServer.Numbered := nofun
  have hfacts : (match establish rotating rotatingServer with
      | (.ok conn, after) =>
        let run := (Run.start rotating ⟨conn, after⟩).askAll
          [.use "shop", .get "k", .get "k", .get "k"]
        (run.paths, run.line.net.requests)
      | (.error _, _) => ([], [])) =
      ([some "apps", some "shop", some "shop"], rotatingRequests) := by
    decide +kernel
  refine ⟨hnumbered, ?_⟩
  cases hopen : establish rotating rotatingServer with
  | mk result after =>
    rw [hopen] at hfacts
    cases result with
    | error halt => cases hfacts
    | ok conn =>
      simp only [Prod.mk.injEq] at hfacts
      obtain ⟨hpaths, hrequests⟩ := hfacts
      refine ⟨conn, after, rfl, ?_, hrequests⟩
      have hrun := (streams_are_sessions rotating rotatingServer hnumbered).2 conn after hopen
        [.use "shop", .get "k", .get "k", .get "k"]
      rw [← hpaths]
      exact hrun

end Connection

end StoreClient
