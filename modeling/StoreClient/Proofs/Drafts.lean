import StoreClient.Connection.Request
import StoreClient.Proofs.Calls
import StoreClient.Proofs.InPlace

/-!
# Drafting packets

A program keeps one buffer for all the packets of a connection. Each packet is drafted there before
it is sent, over whatever the packet before it left. A `Station` is a line with this buffer, and
`Station.Does` says what a call does at a station: every exchange goes through the buffer, and the
bytes that are sent are those that it holds. This file proves that the buffer does not matter: at
every station each request can be carried out, and it comes to what it comes to on the line.
-/

namespace StoreClient

/-- Whether an action can be sent does not depend on what the buffer holds. -/
theorem Action.append_cases (action : Action) :
    (∃ bytes, ∀ buffer, action.append buffer = .ok (buffer ++ bytes)) ∨
      ∃ e, ∀ buffer, action.append buffer = .error e := by
  rcases InPlace.command_appendsWhole action.segments with ⟨bytes, h⟩ | ⟨e, h⟩
  · exact .inl ⟨bytes, fun buffer => (h buffer).2⟩
  · exact .inr ⟨e, fun buffer => (h buffer).2⟩

namespace Packet

/-- The actions can be sent, each of them. -/
def Sendable (actions : List Action) : Prop :=
  ∀ action ∈ actions, ∃ bytes, action.append [] = .ok bytes

/-- Actions that can be sent are appended to whatever the buffer holds. -/
theorem Sendable.appendActions {actions : List Action} (h : Sendable actions) (buffer : Bytes) :
    ∃ bytes, Packet.appendActions actions buffer = .ok bytes := by
  induction actions generalizing buffer with
  | nil => exact ⟨buffer, rfl⟩
  | cons first rest ih =>
    rcases first.append_cases with ⟨bytes, hfirst⟩ | ⟨e, hfirst⟩
    · obtain ⟨all, hrest⟩ := ih (fun action hmem => h action (.tail _ hmem)) (buffer ++ bytes)
      refine ⟨all, ?_⟩
      rw [Packet.appendActions, List.foldlM_cons, hfirst]
      exact hrest
    · obtain ⟨bytes, hbytes⟩ := h first (.head _)
      simp [hfirst] at hbytes

/-- Actions that can be sent make a batch. -/
theorem Sendable.exists_encode {actions : List Action} (h : Sendable actions) :
    ∃ batch, encode actions = .ok batch := h.appendActions _

/-- If an action cannot be sent, the first such action says why the packet cannot. -/
theorem Sendable.encode_eq_error {before behind : List Action} {action : Action} {e : EncodeError}
    (h : Sendable before) (haction : action.append [] = .error e) :
    encode (before ++ action :: behind) = .error e := by
  obtain ⟨bytes, hbefore⟩ := h.appendActions
    (appendBatchHeader (before ++ action :: behind).length [])
  have hstop (buffer : Bytes) : action.append buffer = .error e := by
    rcases action.append_cases with ⟨more, hmore⟩ | ⟨found, hfound⟩
    · simp [hmore] at haction
    · rw [hfound] at haction
      cases haction
      exact hfound buffer
  rw [Packet.appendActions] at hbefore
  rw [encode, Packet.appendActions, List.foldlM_append, hbefore]
  change ((action :: behind).foldlM (fun buffer action => action.append buffer) bytes :
    Except EncodeError Bytes) = _
  rw [List.foldlM_cons, hstop]
  rfl

end Packet

namespace InPlace

/-- Empty the buffer. -/
def clear : InPlace Unit := set ([] : Bytes)

/-- Empty the buffer if the writer fails. -/
def orClear (writer : InPlace Unit) : InPlace Unit := fun buffer =>
  match writer buffer with
  | (.error e, _) => (.error e, [])
  | written => written

/-- Draft a batch of actions in the buffer, over whatever it holds. Nothing is left of a batch of
which an action cannot be sent. -/
def batch (actions : List Action) : InPlace Unit := do
  clear
  orClear do
    put (Wire.batchHeader actions.length)
    actions.forM action

/-- The commands of actions are put one after the other. -/
theorem actions_matches (actions : List Action) :
    Matches (actions.forM action) (Packet.appendActions actions) := by
  induction actions with
  | nil => exact .written .pure fun buffer => by rw [List.append_nil]; rfl
  | cons first rest ih => exact (command_appendsWhole first.segments).matches.bind ih

/-- Whatever the buffer held, a batch that can be sent is all that it holds then, and nothing is
left of one that cannot. -/
theorem batch_run (actions : List Action) (buffer : Bytes) :
    batch actions buffer =
      match Packet.encode actions with
      | .ok bytes => (.ok (), bytes)
      | .error e => (.error e, []) := by
  have hheader : Matches (put (Wire.batchHeader actions.length))
      (fun buffer => .ok (appendBatchHeader actions.length buffer)) :=
    .written (.put _) fun _ => rfl
  have hclear : batch actions buffer =
      orClear (do put (Wire.batchHeader actions.length); actions.forM action) [] := rfl
  rw [hclear, orClear]
  cases hheader.bind (actions_matches actions) with
  | written hputs hwrites =>
    have hencode : Packet.encode actions = _ := hwrites []
    rw [hputs, hencode]
  | failed hputs herror =>
    have hencode : Packet.encode actions = _ := herror []
    rw [hputs, hencode]

end InPlace

/-- A line with the buffer in which its packets are drafted. -/
structure Station where
  line : Line
  draft : Bytes

namespace Connection

/-- What an exchange does with the batch that was drafted: send its bytes, and read the answer. -/
def transmit (actions : List Action) (batch : Bytes) : Call (List Entry) := fun line =>
  match line.conn.stream with
  | none => (.error (.failed line.conn.closedError), line)
  | some stream =>
    match stream.write with
    | .error kind =>
      let e : Error := .communication "failed to write to conn" kind
      (.error (.failed e), ⟨line.conn.broken e, line.net.record [.halted stream.number]⟩)
    | .ok stream =>
      let step := line.conn.reader.read stream.ended stream.inbound
      let taken := stream.inbound.take (stream.inbound.length - step.arrivals.length)
      let net := line.net.record [.sent stream.number batch, .received stream.number taken]
      let conn := { line.conn with reader := step.reader }
      match answered actions step.outcome with
      | .ok entries =>
        (.ok entries,
          ⟨{ conn with
              stream := some { stream with inbound := step.arrivals }
              inFlight := false
              exchanges := conn.exchanges + 1 },
            net.record [.judged stream.number entries]⟩)
      | .error (.failed e) =>
        (.error (.failed e), ⟨conn.broken e, net.record [.halted stream.number]⟩)
      | .error .stalled =>
        (.error .stalled,
          ⟨{ conn with stream := none, inFlight := true }, net.record [.halted stream.number]⟩)

/-- An exchange drafts its batch, and then sends it. -/
theorem exchange_eq (actions : List Action) (line : Line) :
    exchange actions line =
      match Packet.encode actions with
      | .error e => (.error (.failed (.encode e)), line)
      | .ok batch => transmit actions batch line := by
  unfold exchange transmit
  rfl

end Connection

namespace Station

open Connection

/-- The call has nothing to do with packets. -/
inductive Plain : {α : Type} → Call α → Prop where
  | pure {α : Type} (a : α) : Plain (Pure.pure a : Call α)
  | fail {α : Type} (e : Error) : Plain (Call.fail e : Call α)
  | get : Plain (MonadState.get : Call Line)
  | update (f : Connection → Connection) : Plain (Call.update f)
  | redial : Plain redial

/-- The station with the connection changed if the call failed. -/
def afterFailure {α : Type} (f : Error → Connection → Connection) (station : Station) :
    Except Halt α → Station
  | .error (.failed e) => { station with line := ⟨f e station.line.conn, station.line.net⟩ }
  | _ => station

/-- What a call does at a station: its result, and the station that it leaves. An exchange drafts its
batch in the buffer and sends what the buffer then holds. Nothing else uses the buffer. -/
inductive Does : {α : Type} → Call α → Station → Except Halt α → Station → Prop where
  | plain {α : Type} {call : Call α} (station : Station) : Plain call →
      Does call station (call station.line).1 { station with line := (call station.line).2 }
  | undrafted {actions : List Action} {line : Line} {before after : Bytes} {e : EncodeError} :
      InPlace.batch actions before = (.error e, after) →
      Does (exchange actions) ⟨line, before⟩ (.error (.failed (.encode e))) ⟨line, after⟩
  | drafted {actions : List Action} {line : Line} {before after : Bytes} :
      InPlace.batch actions before = (.ok (), after) →
      Does (exchange actions) ⟨line, before⟩ (transmit actions after line).1
        ⟨(transmit actions after line).2, after⟩
  | bind {α β : Type} {call : Call α} {next : α → Call β} {before middle after : Station} {a : α}
      {result : Except Halt β} :
      Does call before (.ok a) middle → Does (next a) middle result after →
      Does (call >>= next) before result after
  | halt {α β : Type} {call : Call α} {next : α → Call β} {before after : Station} {halt : Halt} :
      Does call before (.error halt) after → Does (call >>= next) before (.error halt) after
  | onFailure {α : Type} {call : Call α} {f : Error → Connection → Connection}
      {before after : Station} {result : Except Halt α} :
      Does call before result after →
      Does (call.onFailure f) before result (after.afterFailure f result)

/-- What a call does at a station is what it does on the line. -/
theorem Does.run_eq {α : Type} {call : Call α} {before after : Station} {result : Except Halt α}
    (h : Does call before result after) : call before.line = (result, after.line) := by
  -- Only an exchange looks at the buffer, and it clears the buffer before it drafts.
  induction h with
  | plain station hplain => rfl
  | @undrafted actions line before after e hbatch =>
    rw [InPlace.batch_run] at hbatch
    cases hencode : Packet.encode actions with
    | error found =>
      rw [hencode] at hbatch
      cases hbatch
      rw [exchange_eq, hencode]
    | ok bytes => rw [hencode] at hbatch; cases hbatch
  | @drafted actions line before after hbatch =>
    rw [InPlace.batch_run] at hbatch
    cases hencode : Packet.encode actions with
    | error found => rw [hencode] at hbatch; cases hbatch
    | ok bytes =>
      rw [hencode] at hbatch
      cases hbatch
      rw [exchange_eq, hencode]
      rfl
  | bind hcall hnext ih ihnext =>
    rw [Call.bind_run, ih]
    exact ihnext
  | halt hcall ih =>
    rw [Call.bind_run, ih]
  | @onFailure _ _ _ _ _ result hcall ih =>
    rw [Call.onFailure, ih]
    rcases result with (e | -) | a <;> rfl

/-- At every station the call can be carried out. -/
def Carries {α : Type} (call : Call α) : Prop :=
  ∀ station, ∃ result after, Does call station result after

namespace Carries

variable {α β : Type} {call : Call α}

/-- A call that has nothing to do with packets. -/
theorem plain (h : Plain call) : Carries call := fun station => ⟨_, _, .plain station h⟩

/-- A result that is known already, or a failure. -/
theorem ofExcept (result : Except Error α) : Carries (Call.ofExcept result) := by
  cases result with
  | ok a => exact plain (.pure a)
  | error e => exact plain (.fail e)

/-- Two calls in a row. -/
theorem bind {next : α → Call β} (h : Carries call) (hnext : ∀ a, Carries (next a)) :
    Carries (call >>= next) := by
  intro station
  obtain ⟨result, middle, hcall⟩ := h station
  cases result with
  | error halt => exact ⟨_, _, .halt hcall⟩
  | ok a =>
    obtain ⟨result, after, hafter⟩ := hnext a middle
    exact ⟨_, _, .bind hcall hafter⟩

/-- Nothing comes after a failure. -/
theorem fail_bind (e : Error) (next : α → Call β) : Carries (Call.fail e >>= next) :=
  fun station => ⟨_, _, .halt (.plain station (.fail e))⟩

/-- A result in another form. -/
theorem map (h : Carries call) (f : α → β) : Carries (f <$> call) := by
  rw [← bind_pure_comp]
  exact h.bind fun a => plain (.pure (f a))

/-- Only that the call is done is of interest. -/
theorem followedBy (h : Carries call) (b : β) : Carries (do let _ ← call; pure b) :=
  h.bind fun _ => plain (.pure b)

/-- A change of the connection if the call fails. -/
theorem onFailure (h : Carries call) (f : Error → Connection → Connection) :
    Carries (call.onFailure f) := by
  intro station
  obtain ⟨result, after, hcall⟩ := h station
  exact ⟨_, _, .onFailure hcall⟩

/-- An exchange. -/
theorem exchange (actions : List Action) : Carries (exchange actions) := by
  intro ⟨line, draft⟩
  cases hbatch : InPlace.batch actions draft with
  | mk result left =>
    cases result with
    | ok => exact ⟨_, _, .drafted hbatch⟩
    | error e => exact ⟨_, _, .undrafted hbatch⟩

/-- A preparing action. -/
theorem roundTrip (action : Action) : Carries (roundTrip action) :=
  (exchange [action]).bind fun _ => ofExcept _

/-- The preparing actions. -/
theorem handshakeSteps : Carries handshakeSteps := by
  unfold Connection.handshakeSteps
  refine (roundTrip _).bind fun version => (ofExcept _).bind fun _ =>
    (plain .get).bind fun seen => ?_
  dsimp only
  cases seen.conn.config.auth with
  | none =>
    cases seen.conn.config.defaultNamespace with
    | none => exact plain (.pure ())
    | some path => exact (roundTrip _).followedBy ()
  | some provider =>
    refine (ofExcept _).bind fun login => (roundTrip _).bind fun _ => ?_
    cases seen.conn.config.defaultNamespace with
    | none => exact plain (.pure ())
    | some path => exact (roundTrip _).followedBy ()

/-- Opening a connection again. -/
theorem reopen : Carries reopen :=
  (plain (.update _)).bind fun _ =>
    (((plain .redial).bind fun _ => handshakeSteps.onFailure _).onFailure _).bind fun _ =>
      plain (.update _)

/-- Sending actions. -/
theorem send (actions : List Action) (cancelled : Bool) : Carries (send actions cancelled) := by
  unfold Connection.send
  dsimp only
  split
  · exact fail_bind _ _
  · split
    · exact fail_bind _ _
    · refine (plain (.update _)).bind fun _ => (plain .get).bind fun seen => ?_
      split
      · split
        · exact fail_bind _ _
        · exact reopen.bind fun _ => exchange actions
      · exact exchange actions

/-- Running an action. -/
theorem exec (action : Action) : Carries (exec action) :=
  (send [action] false).bind fun _ => ofExcept _

/-- Every request. -/
theorem answer (request : Request) : Carries (answer request) := by
  cases request with
  | exec action => exact (exec action).map _
  | batch actions cancelled view =>
    cases view with
    | entries => exact (send actions cancelled).map _
    | response => exact (send actions cancelled).map _
    | values => exact (send actions cancelled).bind fun _ => (ofExcept _).map _
  | command line => exact (exec _).map _
  | heya => exact (exec _).followedBy _
  | login username token => exact ((exec _).followedBy ()).followedBy _
  | loginWith asked =>
    exact ((ofExcept _).bind fun login => (exec _).followedBy ()).followedBy _
  | use path => exact ((exec _).bind fun _ => plain (.update _)).followedBy _
  | protocol => exact ((exec _).bind fun _ => ofExcept _).map _
  | version => exact ((exec _).bind fun _ => ofExcept _).map _
  | get key => exact (exec _).map _
  | set key value => exact (exec _).followedBy _
  | del keys => exact ((exec _).bind fun _ => ofExcept _).map _
  | «exists» keys => exact ((exec _).bind fun _ => ofExcept _).map _
  | close => exact (plain (.update _)).followedBy _

end Carries

end Station

end StoreClient
