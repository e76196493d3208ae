import StoreClient.Proofs.Condition
import StoreClient.Proofs.Redialing

/-!
# The runs of a connection

An owner asks something of a connection again and again, and may drop a call on its way. A call is
dropped where it waits: while it dials, while it writes, or while it reads. `Line.Drops` follows the
steps of a call up to such a point, and nothing that comes behind it happens. The main statement is
`Connection.condition_of_run`: along every run the connection is sound.
-/

namespace StoreClient

/-- What an owner may do with a connection. -/
inductive Operation where
  /-- Ask for something, and wait for the answer or give up on a server that stays silent. -/
  | ask (request : Request)
  /-- Send a packet, and drop the call on its way. -/
  | drop

namespace Line

/-- An exchange of these actions is dropped. It has taken the stream, which nobody puts back. What
of its batch the server has received is left open. -/
inductive DropsExchange (actions : List Action) (line : Line) : Line → Prop where
  /-- While it writes. -/
  | writing {batch : Bytes} {stream : Stream} {net : Network} :
      Packet.encode actions = .ok batch → line.conn.stream = some stream →
      DropsExchange actions line ⟨{ line.conn with stream := none, inFlight := true }, net⟩
  /-- While it reads: it has received some of the answer, and waits for more. -/
  | reading {batch : Bytes} {stream : Stream} {arrivals : List Arrival} {reader : Reader}
      {net : Network} :
      Packet.encode actions = .ok batch → line.conn.stream = some stream →
      line.conn.reader.read false arrivals = ⟨.stalled, reader, []⟩ →
      DropsExchange actions line
        ⟨{ line.conn with reader, stream := none, inFlight := true }, net⟩

/-- The login of a handshake succeeds, if the settings ask for one. -/
inductive LogsIn (line : Line) : Line → Prop where
  | unasked : line.conn.config.auth = none → LogsIn line line
  | accepted {provider : AuthProvider} {login : Credentials} {value : Value} {after : Line} :
      line.conn.config.auth = some provider →
      Connection.credentialsOf (provider.answer line.net.accepted) = .ok login →
      Connection.roundTrip (.login login.username login.token) line = (.ok value, after) →
      LogsIn line after

/-- A handshake is dropped in one of its exchanges, when those before it have succeeded. -/
inductive DropsHandshake (line : Line) : Line → Prop where
  | version {after : Line} :
      line.DropsExchange [.sysInfo .protocol] after → DropsHandshake line after
  | login {version : Value} {checked after : Line} {provider : AuthProvider}
      {login : Credentials} :
      Connection.roundTrip (.sysInfo .protocol) line = (.ok version, checked) →
      Connection.checkVersion version = .ok () →
      checked.conn.config.auth = some provider →
      Connection.credentialsOf (provider.answer checked.net.accepted) = .ok login →
      checked.DropsExchange [.login login.username login.token] after →
      DropsHandshake line after
  | use {version : Value} {checked ready after : Line} {path : String} :
      Connection.roundTrip (.sysInfo .protocol) line = (.ok version, checked) →
      Connection.checkVersion version = .ok () → checked.LogsIn ready →
      checked.conn.config.defaultNamespace = some path →
      ready.DropsExchange [.use path] after → DropsHandshake line after

/-- The line when the reader has been reset, before anything is dialed. -/
def resetReader (line : Line) : Line :=
  ⟨{ line.conn with reader := line.conn.reader.reset }, line.net⟩

/-- Opening the connection again is dropped: while it dials, or in the handshake. -/
inductive DropsReopening (line : Line) : Line → Prop where
  | dialing {net : Network} : DropsReopening line ⟨line.resetReader.conn, net⟩
  | handshake {dialed after : Line} :
      Connection.redial line.resetReader = (.ok (), dialed) → dialed.DropsHandshake after →
      DropsReopening line after

/-- The line when an exchange that was given up before has been noted. -/
def noted (line : Line) : Line := ⟨line.conn.noteAbandoned, line.net⟩

/-- The connection is closed, and a packet opens it again. -/
def Reopens (line : Line) : Prop :=
  line.conn.isClosed = true ∧ line.conn.shut = false ∧ line.conn.config.autoReconnect = true

/-- A call that sends a packet is dropped on its way: while it opens the connection again, or in the
exchange of the packet. -/
inductive Drops (line : Line) : Line → Prop where
  | exchange {actions : List Action} {after : Line} :
      line.conn.isClosed = false → line.noted.DropsExchange actions after → Drops line after
  | reopening {after : Line} :
      line.Reopens → line.noted.DropsReopening after → Drops line after
  | reopened {actions : List Action} {opened after : Line} :
      line.Reopens → Connection.reopen line.noted = (.ok (), opened) →
      opened.DropsExchange actions after → Drops line after

/-- A call is only dropped on a connection that is open, or that it opens again. -/
theorem Drops.usable {line after : Line} (h : line.Drops after) :
    line.conn.isClosed = false ∨ line.Reopens := by
  cases h with
  | exchange hopen _ => exact .inl hopen
  | reopening hreopens _ => exact .inr hreopens
  | reopened hreopens _ _ => exact .inr hreopens

/-- An exchange that is dropped has the stream. -/
theorem DropsExchange.stream_eq {line after : Line} {actions : List Action}
    (h : line.DropsExchange actions after) : after.conn.stream = none := by
  cases h with
  | writing => rfl
  | reading => rfl

/-- A call that is dropped leaves no stream. -/
theorem Drops.stream_eq {line after : Line} (h : line.Drops after) :
    after.conn.stream = none := by
  cases h with
  | exchange _ hdrops => exact hdrops.stream_eq
  | reopened _ _ hdrops => exact hdrops.stream_eq
  | reopening hreopens hdrops =>
    cases hdrops with
    | dialing =>
      have hclosed := (Connection.isClosed_noteAbandoned line.conn).trans hreopens.1
      exact Option.isNone_iff_eq_none.mp hclosed
    | handshake _ hdrops =>
      cases hdrops with
      | version hdrops => exact hdrops.stream_eq
      | login _ _ _ _ hdrops => exact hdrops.stream_eq
      | use _ _ _ _ hdrops => exact hdrops.stream_eq

end Line

/-- A read that stalls has received all that there is, on a stream that has not ended. -/
theorem Reader.read_of_stalled {reader : Reader} {ended : Bool} {arrivals : List Arrival}
    (h : (reader.read ended arrivals).outcome = .stalled) :
    reader.read false arrivals = ⟨.stalled, (reader.read ended arrivals).reader, []⟩ := by
  fun_induction read reader ended arrivals with
  | case4 reader after hpoll hopen =>
    rw [read, hpoll]
    rfl
  | case7 reader after hpoll chunk rest hne ih =>
    rw [read_bytes hpoll hne]
    exact ih h
  | _ => cases h

namespace Call

variable {α β : Type} {call : Call α} {next : α → Call β} {line after : Line} {halt : Halt}

/-- Two calls in a row halt where the first one does, or where the second one does. -/
theorem bind_eq_halt (h : (call >>= next) line = (.error halt, after)) :
    call line = (.error halt, after) ∨
      ∃ a middle, call line = (.ok a, middle) ∧ next a middle = (.error halt, after) := by
  rw [bind_run] at h
  cases hcall : call line with
  | mk result middle =>
    rw [hcall] at h
    cases result with
    | ok a => exact .inr ⟨a, middle, rfl, h⟩
    | error found =>
      cases h
      exact .inl rfl

/-- What is known already is not waited for. -/
theorem ofExcept_ne_stalled {result : Except Error α} :
    ofExcept result line ≠ (.error .stalled, after) := by
  rw [ofExcept_run]
  cases result with
  | ok a => nofun
  | error e => nofun

/-- A check that was passed leaves the line as it is. -/
theorem eq_ok_of_ofExcept {result : Except Error α} {a : α}
    (h : ofExcept result line = (.ok a, after)) : result = .ok a ∧ after = line := by
  rw [ofExcept_run] at h
  cases result with
  | ok b =>
    cases h
    exact ⟨rfl, rfl⟩
  | error e => cases h

/-- A call that changes the connection if it fails is given up where the call is. -/
theorem eq_stalled_of_onFailure {f : Error → Connection → Connection}
    (h : call.onFailure f line = (.error .stalled, after)) :
    call line = (.error .stalled, after) := by
  unfold Call.onFailure at h
  split at h
  · cases h
  · exact h

end Call

namespace Connection

variable {line after : Line} {actions : List Action}

/-- An exchange waits where its read does. -/
theorem answered_eq_stalled {outcome : Reader.Outcome}
    (h : answered actions outcome = .error .stalled) : outcome = .stalled := by
  cases outcome with
  | stalled => rfl
  | failed failure => cases h
  | batch found =>
    rw [answered] at h
    split at h
    · cases h
    · cases h

/-- An exchange that is given up on a silent server is dropped while it reads. -/
theorem dropsExchange_of_stalled (h : exchange actions line = (.error .stalled, after)) :
    line.DropsExchange actions after := by
  unfold exchange at h
  split at h
  · cases h
  · rename_i batch hbatch
    split at h
    · cases h
    · rename_i stream hstream
      split at h
      · cases h
      · rename_i written hwritten
        dsimp only at h
        split at h
        · cases h
        · cases h
        · rename_i hstalled
          cases h
          have houtcome := answered_eq_stalled hstalled
          exact .reading hbatch hstream (Reader.read_of_stalled houtcome)

/-- So is an exchange of one action for its value. -/
theorem dropsExchange_of_roundTrip {action : Action}
    (h : roundTrip action line = (.error .stalled, after)) :
    line.DropsExchange [action] after := by
  obtain hexchange | ⟨_, _, _, hfirst⟩ := Call.bind_eq_halt h
  · exact dropsExchange_of_stalled hexchange
  · exact absurd hfirst Call.ofExcept_ne_stalled

/-- A handshake is given up in the exchange that is dropped. -/
theorem dropsHandshake_of_stalled (h : handshakeSteps line = (.error .stalled, after)) :
    line.DropsHandshake after := by
  unfold handshakeSteps at h
  obtain hversion | ⟨version, checked, hversion, hcheck⟩ := Call.bind_eq_halt h
  · exact .version (dropsExchange_of_roundTrip hversion)
  obtain hfails | ⟨_, seen, hpasses, hsteps⟩ := Call.bind_eq_halt hcheck
  · exact absurd hfails Call.ofExcept_ne_stalled
  obtain ⟨hok, rfl⟩ := Call.eq_ok_of_ofExcept hpasses
  have hselect {ready : Line} {select : Call Unit} (hlogin : seen.LogsIn ready)
      (hnone : seen.conn.config.defaultNamespace = none → select = pure ())
      (hsome : ∀ path, seen.conn.config.defaultNamespace = some path →
        select = do let _ ← roundTrip (.use path))
      (h : select ready = (.error .stalled, after)) : line.DropsHandshake after := by
    cases hspace : seen.conn.config.defaultNamespace with
    | none =>
      rw [hnone hspace] at h
      cases h
    | some path =>
      rw [hsome path hspace] at h
      obtain huse | ⟨_, _, _, hdone⟩ := Call.bind_eq_halt h
      · exact .use hversion hok hlogin hspace (dropsExchange_of_roundTrip huse)
      · cases hdone
  obtain hget | ⟨_, _, hget, hlater⟩ := Call.bind_eq_halt hsteps
  · cases hget
  cases hget
  dsimp only at hlater
  cases hauth : seen.conn.config.auth with
  | none =>
    rw [hauth] at hlater
    exact hselect (.unasked hauth) (fun h => by rw [h]) (fun _ h => by rw [h]) hlater
  | some provider =>
    rw [hauth] at hlater
    obtain hfails | ⟨login, asked, hanswer, hlogin⟩ := Call.bind_eq_halt hlater
    · exact absurd hfails Call.ofExcept_ne_stalled
    obtain ⟨hcredentials, rfl⟩ := Call.eq_ok_of_ofExcept hanswer
    obtain hstalled | ⟨_, ready, haccepted, hrest⟩ := Call.bind_eq_halt hlogin
    · exact .login hversion hok hauth hcredentials (dropsExchange_of_roundTrip hstalled)
    · have haccepted : asked.LogsIn ready := .accepted hauth hcredentials haccepted
      exact hselect haccepted (fun h => by rw [h]) (fun _ h => by rw [h]) hrest

/-- A dial never stalls, so opening the connection again is given up in the handshake. -/
theorem dropsReopening_of_stalled (h : reopen line = (.error .stalled, after)) :
    line.DropsReopening after := by
  unfold reopen at h
  obtain hreset | ⟨_, _, hreset, hprepare⟩ := Call.bind_eq_halt h
  · cases hreset
  cases hreset
  obtain hstalled | ⟨_, _, _, hdone⟩ := Call.bind_eq_halt hprepare
  · have hopening := Call.eq_stalled_of_onFailure hstalled
    obtain hdial | ⟨_, dialed, hdialed, hsteps⟩ := Call.bind_eq_halt hopening
    · unfold redial at hdial
      split at hdial
      · cases hdial
      · cases hdial
    · have hhandshake := Call.eq_stalled_of_onFailure hsteps
      exact .handshake hdialed (dropsHandshake_of_stalled hhandshake)
  · cases hdone

/-- A packet that is given up on a silent server is one of those that are dropped. -/
theorem drops_of_stalled {cancelled : Bool}
    (h : send actions cancelled line = (.error .stalled, after)) : line.Drops after := by
  unfold send at h
  dsimp only at h
  split at h
  · cases h
  split at h
  · cases h
  obtain hnote | ⟨_, _, hnote, hlater⟩ := Call.bind_eq_halt h
  · cases hnote
  cases hnote
  obtain hget | ⟨_, _, hget, hsend⟩ := Call.bind_eq_halt hlater
  · cases hget
  cases hget
  split at hsend
  · rename_i hnoted
    split at hsend
    · cases hsend
    · rename_i husable
      have hreopens : line.Reopens := ⟨by simpa using hnoted, by simpa using husable⟩
      obtain hreopen | ⟨_, opened, hopened, hexchange⟩ := Call.bind_eq_halt hsend
      · exact .reopening hreopens (dropsReopening_of_stalled hreopen)
      · exact .reopened hreopens hopened (dropsExchange_of_stalled hexchange)
  · rename_i hnoted
    refine .exchange ?_ (dropsExchange_of_stalled hsend)
    simpa using hnoted

end Connection

namespace Line

/-- An operation on a connection leads to another line. What the network is like after a call that
was dropped is left open. -/
inductive Operates : Operation → Line → Line → Prop where
  | asked (request : Request) (line : Line) :
      Operates (.ask request) line (Connection.answer request line).2
  | dropped {line after : Line} : line.Drops after → Operates .drop line after

/-- One operation after the other leads to a line. -/
inductive Reaches (line : Line) : List Operation → Line → Prop where
  | start : Reaches line [] line
  | step {operations : List Operation} {operation : Operation} {middle after : Line} :
      Reaches line operations middle → Operates operation middle after →
      Reaches line (operations ++ [operation]) after

end Line

namespace Connection

variable {line after : Line} {shut : Bool} {operation : Operation} {operations : List Operation}

/-- An exchange that is dropped leaves the connection closed and the exchange in flight. What was
known of a failure before is known still. -/
theorem is_of_dropsExchange {actions : List Action} {failure : Option Error}
    (h : line.DropsExchange actions after) (hopen : line.Is false failure false) :
    after.Is true failure true := by
  cases h with
  | writing => exact ⟨rfl, hopen.failure_eq, rfl, hopen.shut_eq⟩
  | reading => exact ⟨rfl, hopen.failure_eq, rfl, hopen.shut_eq⟩

/-- The login of a handshake leaves the connection open. -/
theorem is_of_logsIn {failure : Option Error} (h : line.LogsIn after)
    (hopen : line.Is false failure false) : after.Is false failure false := by
  cases h with
  | unasked => exact hopen
  | accepted _ _ hlogin => exact (roundTrip_keepsOpen _).ok hopen hlogin

/-- So does a handshake that is dropped. -/
theorem is_of_dropsHandshake {failure : Option Error} (h : line.DropsHandshake after)
    (hopen : line.Is false failure false) : after.Is true failure true := by
  cases h with
  | version hdrops => exact is_of_dropsExchange hdrops hopen
  | login hversion _ _ _ hdrops =>
    have hchecked := (roundTrip_keepsOpen _).ok hopen hversion
    exact is_of_dropsExchange hdrops hchecked
  | use hversion _ hlogin _ hdrops =>
    have hchecked := (roundTrip_keepsOpen _).ok hopen hversion
    exact is_of_dropsExchange hdrops (is_of_logsIn hlogin hchecked)

/-- A call that is dropped while it opens the connection again leaves the failure known that closed
it before. -/
theorem sound_of_dropsReopening {e : Error} (h : line.DropsReopening after)
    (hclosed : line.Is true (some e) false) : after.conn.Sound false := by
  have hreset : line.resetReader.Is true (some e) false :=
    ⟨hclosed.closed_eq, hclosed.failure_eq, hclosed.inFlight_eq, hclosed.shut_eq⟩
  cases h with
  | @dialing net =>
    have hafter : Line.Is true (some e) false ⟨line.resetReader.conn, net⟩ :=
      ⟨hreset.closed_eq, hreset.failure_eq, hreset.inFlight_eq, hreset.shut_eq⟩
    exact hafter.sound_closed
  | handshake hdialed hdrops =>
    have hopen := redial_halts.ok hreset hdialed
    exact (is_of_dropsHandshake hdrops hopen).sound_inFlight

/-- A call that is dropped leaves a sound connection. One that is shut has no call to drop. -/
theorem sound_of_drops (h : line.Drops after) (hsound : line.conn.Sound shut) :
    shut = false ∧ after.conn.Sound false := by
  have hshut : shut = false := by
    rw [← hsound.shut_eq]
    rcases h.usable with hopen | ⟨-, hshut, -⟩
    · rw [← Bool.not_eq_true]
      intro hshut
      rw [hsound.of_shut (hsound.shut_eq.symm.trans hshut)] at hopen
      cases hopen
    · exact hshut
  subst hshut
  refine ⟨rfl, ?_⟩
  have hbefore : SoundWith line.conn.lastError line := ⟨hsound, rfl⟩
  have hnoted : line.noted.Is false none false ∨
      ∃ e, line.conn.lastError = some e ∧ line.noted.Is true (some e) false :=
    noteAbandoned_meets.ok hbefore rfl
  have hclosed (hreopens : line.Reopens) : ∃ e, line.noted.Is true (some e) false := by
    obtain hopen | ⟨e, -, hnoted⟩ := hnoted
    · have hclosed : line.noted.conn.isClosed = true :=
        (isClosed_noteAbandoned line.conn).trans hreopens.1
      rw [hopen.closed_eq] at hclosed
      cases hclosed
    · exact ⟨e, hnoted⟩
  cases h with
  | exchange hopen hdrops =>
    obtain hnoted | ⟨e, -, hnoted⟩ := hnoted
    · exact (is_of_dropsExchange hdrops hnoted).sound_inFlight
    · have hstays : line.noted.conn.isClosed = false :=
        (isClosed_noteAbandoned line.conn).trans hopen
      rw [hnoted.closed_eq] at hstays
      cases hstays
  | reopening hreopens hdrops =>
    obtain ⟨e, he⟩ := hclosed hreopens
    exact sound_of_dropsReopening hdrops he
  | reopened hreopens hopened hdrops =>
    obtain ⟨e, he⟩ := hclosed hreopens
    have hopen := (reopen_settles none).ok he hopened
    exact (is_of_dropsExchange hdrops hopen).sound_inFlight

/-- An exchange that is dropped keeps the settings. -/
theorem under_of_dropsExchange {config : Config} {actions : List Action}
    (h : line.DropsExchange actions after) (hunder : line.Under config) : after.Under config := by
  cases h with
  | writing => exact hunder.change rfl rfl
  | @reading _ _ arrivals _ _ _ _ hread =>
    have hlimit := Reader.limit_read line.conn.reader false arrivals
    rw [hread] at hlimit
    exact hunder.change rfl hlimit

/-- So does a handshake that is dropped. -/
theorem under_of_dropsHandshake {config : Config} (h : line.DropsHandshake after)
    (hunder : line.Under config) : after.Under config := by
  cases h with
  | version hdrops => exact under_of_dropsExchange hdrops hunder
  | login hversion _ _ _ hdrops =>
    have hchecked := (roundTrip_preserves_under _).ok hunder hversion
    exact under_of_dropsExchange hdrops hchecked
  | use hversion _ hlogin _ hdrops =>
    have hchecked := (roundTrip_preserves_under _).ok hunder hversion
    refine under_of_dropsExchange hdrops ?_
    cases hlogin with
    | unasked => exact hchecked
    | accepted _ _ hlogin => exact (roundTrip_preserves_under _).ok hchecked hlogin

/-- A call that is dropped keeps the settings. -/
theorem under_of_drops {config : Config} (h : line.Drops after) (hunder : line.Under config) :
    after.Under config := by
  have hnoted : line.noted.Under config := under_noteAbandoned hunder
  cases h with
  | exchange _ hdrops => exact under_of_dropsExchange hdrops hnoted
  | reopening _ hdrops =>
    have hreset : line.noted.resetReader.Under config := hnoted.change rfl rfl
    cases hdrops with
    | dialing => exact hreset.change rfl rfl
    | handshake hdialed hdrops =>
      have hopen := redial_preserves_under.ok hreset hdialed
      exact under_of_dropsHandshake hdrops hopen
  | reopened _ hopened hdrops =>
    have hopen := reopen_preserves_under.ok hnoted hopened
    exact under_of_dropsExchange hdrops hopen

/-- An operation keeps a connection sound. Only closing it shuts it. -/
theorem sound_of_operates (h : line.Operates operation after) (hsound : line.conn.Sound shut) :
    ∃ shut', after.conn.Sound shut' ∧ (shut' = true ↔ shut = true ∨ operation = .ask .close) := by
  cases h with
  | dropped hdrops =>
    obtain ⟨rfl, hafter⟩ := sound_of_drops hdrops hsound
    exact ⟨false, hafter, by simp⟩
  | asked request line =>
    cases shut with
    | true =>
      obtain ⟨result, after, hafter, hanswer⟩ := answer_of_shut hsound request
      refine ⟨true, ?_, by simp⟩
      rw [hanswer line.net]
      exact hafter
    | false =>
      by_cases hclose : request = .close
      · subst hclose
        exact ⟨true, sound_of_shut rfl rfl, by simp⟩
      · refine ⟨false, ?_, by simpa using hclose⟩
        cases hanswer : answer request line with
        | mk result after =>
          cases result with
          | ok a => exact ((answer_settles hclose).ok ⟨hsound, rfl⟩ hanswer).sound_open
          | error halt => exact ((answer_settles hclose).halt ⟨hsound, rfl⟩ hanswer).1

/-- A run keeps a connection sound. Only closing it shuts it. -/
theorem sound_of_reaches (h : line.Reaches operations after) (hsound : line.conn.Sound shut) :
    ∃ shut', after.conn.Sound shut' ∧
      (shut' = true ↔ shut = true ∨ .ask .close ∈ operations) := by
  induction h with
  | start => exact ⟨shut, hsound, by simp⟩
  | step _ hoperates ih =>
    obtain ⟨middle, hmiddle, hmiddleIff⟩ := ih
    obtain ⟨last, hlast, hlastIff⟩ := sound_of_operates hoperates hmiddle
    refine ⟨last, hlast, ?_⟩
    rw [hlastIff, hmiddleIff, List.mem_append, List.mem_singleton, or_assoc]
    exact or_congr_right (or_congr_right eq_comm)

/-- Whatever is done with a connection that is shut, it stays closed, and the network stays as it
is. -/
theorem net_of_reaches (h : line.Reaches operations after) (hsound : line.conn.Sound true) :
    after.conn.Sound true ∧ after.net = line.net := by
  induction h with
  | start => exact ⟨hsound, rfl⟩
  | @step _ _ middle _ _ hoperates ih =>
    obtain ⟨hmiddle, hnet⟩ := ih
    cases hoperates with
    | dropped hdrops => cases (sound_of_drops hdrops hmiddle).1
    | asked request =>
      obtain ⟨result, after, hafter, hanswer⟩ := answer_of_shut hmiddle request
      rw [hanswer middle.net]
      exact ⟨hafter, hnet⟩

/-- A connection that was just opened is sound. -/
theorem sound_of_establish {config : Config} {net after : Network} {conn : Connection}
    (h : establish config net = (.ok conn, after)) : conn.Sound false := by
  unfold establish at h
  split at h
  · cases h
  · rename_i stream dialed _
    have hstart : Line.Is false none false ⟨start config stream, dialed⟩ := ⟨rfl, rfl, rfl, rfl⟩
    split at h
    · rename_i line hhandshake
      cases h
      exact (handshake_halts.ok hstart hhandshake).sound_open
    · cases h

/-- Along every run of a connection that was opened, whatever the server does and whatever calls
are dropped: while it is open it has no last error, and no exchange is in flight; when it is closed
and its owner did not close it, it has a last error; a request that is refused because it is closed
says just this error; and once its owner closed it, it stays closed for ever, and no request has to
do with the network any more, which means that nothing is dialed, written or read. -/
theorem condition_of_run {config : Config} {net opened : Network} {conn : Connection}
    (hopen : establish config net = (.ok conn, opened))
    (hrun : Line.Reaches ⟨conn, opened⟩ operations line) :
    (line.conn.isClosed = false → line.conn.lastError = none ∧ line.conn.inFlight = false) ∧
    (line.conn.isClosed = true → .ask .close ∉ operations →
      ∃ e, line.conn.lastError = some e) ∧
    (∀ request e left, answer request line = (.error (.failed e), left) → e.isClosed = true →
      e = .closedAfter line.conn.lastError ∧ left.conn.lastError = line.conn.lastError) ∧
    (.ask .close ∈ operations →
      (∀ more left, line.Reaches more left → left.conn.isClosed = true ∧ left.net = line.net) ∧
      ∀ request, ∃ result left,
        ∀ net, answer request ⟨line.conn, net⟩ = (result, ⟨left, net⟩)) := by
  obtain ⟨shut, hsound, hshut⟩ := sound_of_reaches hrun (sound_of_establish hopen)
  simp only [Bool.false_eq_true, false_or] at hshut
  refine ⟨hsound.of_open, fun hclosed hnone => ?_, fun request e left => refusal_of_sound hsound,
    fun hclose => ?_⟩
  · have hfalse : shut = false := by simpa [← hshut] using hnone
    exact Option.isSome_iff_exists.mp (hsound.of_closed hclosed hfalse)
  · obtain rfl : shut = true := hshut.mpr hclose
    refine ⟨fun more left hmore => ?_, fun request => ?_⟩
    · obtain ⟨hleft, hnet⟩ := net_of_reaches hmore hsound
      exact ⟨hleft.of_shut rfl, hnet⟩
    · obtain ⟨result, left, -, hanswer⟩ := answer_of_shut hsound request
      exact ⟨result, left, hanswer⟩

/-- A server that accepts what prepares a stream, twice. On the first stream it accepts one more
action, and stays silent then. -/
def silentServer : Network :=
  let reply (text : String) : Reply := .sending (Utf8.encode text) false
  let okay := reply "*1\n!1\n0\n"
  let welcome := [reply "*1\n+11\nSkyhash-1.1\n", okay, okay]
  .ofDials [.accepted (welcome ++ [okay, .silence]), .accepted (welcome ++ [reply "*1\n+1\nv\n"])]

/-- The server stays silent, and then the call that dials again is dropped. The connection knows
of the exchange that was given up, until it is closed for good. -/
theorem condition_of_run_silent :
    ∃ conn opened line, establish reconnecting silentServer = (.ok conn, opened) ∧
      Line.Reaches ⟨conn, opened⟩ [.ask (.use "shop"), .ask (.get "k"), .drop] line ∧
      line.conn.isClosed = true ∧ (∃ e, line.conn.lastError = some e) ∧
      ∀ more left, (answer .close line).2.Reaches more left →
        left.conn.isClosed = true ∧ left.net = line.net := by
  have hfacts : (match establish reconnecting silentServer with
      | (.ok conn, opened) =>
        let line := (answer (.get "k") (answer (.use "shop") ⟨conn, opened⟩).2).2
        (line.conn.isClosed, line.conn.shut, line.conn.config.autoReconnect)
      | (.error _, _) => (false, false, false)) = (true, false, true) := by
    decide +kernel
  cases hopen : establish reconnecting silentServer with
  | mk result opened =>
    rw [hopen] at hfacts
    cases result with
    | error halt => cases hfacts
    | ok conn =>
      let asked := (answer (.get "k") (answer (.use "shop") ⟨conn, opened⟩).2).2
      have hasked : Line.Reaches ⟨conn, opened⟩ [.ask (.use "shop"), .ask (.get "k")] asked :=
        .step (.step .start (.asked _ _)) (.asked _ _)
      obtain ⟨hclosed, hshut, hreconnect⟩ : asked.conn.isClosed = true ∧
          asked.conn.shut = false ∧ asked.conn.config.autoReconnect = true := by
        simpa only [Prod.mk.injEq] using hfacts
      let line : Line := asked.noted.resetReader
      have hdrops : asked.Drops line := .reopening ⟨hclosed, hshut, hreconnect⟩ .dialing
      have hleft : line.conn.isClosed = true := (isClosed_noteAbandoned asked.conn).trans hclosed
      have hrun : Line.Reaches ⟨conn, opened⟩
          [.ask (.use "shop"), .ask (.get "k"), .drop] line := .step hasked (.dropped hdrops)
      have hclosing : Line.Reaches ⟨conn, opened⟩
          [.ask (.use "shop"), .ask (.get "k"), .drop, .ask .close] (answer .close line).2 :=
        .step hrun (.asked _ _)
      have hknown := (condition_of_run hopen hrun).2.1 hleft (by simp)
      have hforever := ((condition_of_run hopen hclosing).2.2.2 (by simp)).1
      exact ⟨conn, opened, line, rfl, hrun, hleft, hknown, hforever⟩

end Connection

end StoreClient
