import StoreClient.Config.Url
import StoreClient.Network

/-!
# Connections

A connection owns one stream and a reader. Its one operation is the exchange: send
a batch of actions, read the batch of their answers, and let each action check its
own answer. A failed exchange closes the connection. A closed connection refuses
every packet, or dials again if it is set to.

A call runs on a connection and its network. A call that waits for a server which
stays silent is given up: it ends where it stands, and leaves its exchange in
flight.
-/

namespace StoreClient

/-- The version of the protocol that this client implements. -/
def protocolVersion : String := "Skyhash-1.1"

/-- A connection to a server. -/
structure Connection where
  config : Config
  /-- The open stream. There is none once the connection is closed, and none while
  an exchange has it. -/
  stream : Option Stream
  reader : Reader
  /-- The failure that closed the connection. -/
  failure : Option Error
  /-- The connection was closed by its owner, and stays closed. -/
  shut : Bool
  /-- An exchange has taken the stream and not finished. -/
  inFlight : Bool
  /-- How often the connection was opened again. -/
  reopenings : Nat
  /-- How many exchanges succeeded. -/
  exchanges : Nat

/-- A connection with the network that it is on. -/
structure Line where
  conn : Connection
  net : Network

/-- Why a call has no result. -/
inductive Halt where
  | failed (e : Error)
  /-- The server stays silent, and the call is given up. -/
  | stalled
  deriving DecidableEq, Repr

/-- A call on a connection. -/
abbrev Call := ExceptT Halt (StateM Line)

namespace Call

/-- The call fails. -/
def fail {α : Type} (e : Error) : Call α := throw (.failed e)

/-- The call ends with a result that is known already. -/
def ofExcept {α : Type} : Except Error α → Call α
  | .ok a => pure a
  | .error e => fail e

/-- Change the connection. -/
def update (f : Connection → Connection) : Call Unit :=
  modify fun line => { line with conn := f line.conn }

/-- A call that changes the connection if it fails. A call that is given up changes
nothing more. -/
def onFailure {α : Type} (call : Call α) (f : Error → Connection → Connection) : Call α :=
  fun line =>
    match call line with
    | (.error (.failed e), line) => (.error (.failed e), { line with conn := f e line.conn })
    | ended => ended

end Call

namespace Connection

/-- A connection on a stream that was just opened. -/
def start (config : Config) (stream : Stream) : Connection where
  config := config
  stream := some stream
  reader := .start config.maxResponseSize
  failure := none
  shut := false
  inFlight := false
  reopenings := 0
  exchanges := 0

/-- The connection has no stream. -/
def isClosed (conn : Connection) : Bool := conn.stream.isNone

/-- The failure of an exchange that was given up. -/
def abandonedExchange : Error :=
  .communication "exchange dropped before the response was read" .interrupted

/-- The failure that closed the connection, which may be an exchange that was given
up. -/
def lastError (conn : Connection) : Option Error :=
  conn.failure.or (if conn.inFlight then some abandonedExchange else none)

/-- The error of using the connection when it is closed. -/
def closedError (conn : Connection) : Error := .closedAfter conn.lastError

/-- The connection closed by a failure. -/
def broken (e : Error) (conn : Connection) : Connection :=
  { conn with stream := none, inFlight := false, reader := conn.reader.reset, failure := some e }

/-- The connection with an exchange that was given up turned into its failure. -/
def noteAbandoned (conn : Connection) : Connection :=
  if conn.inFlight then { conn with inFlight := false, failure := conn.lastError } else conn

/-- The connection closed by its owner. -/
def close (conn : Connection) : Connection := { conn with shut := true, stream := none }

/-- An entry with the verdict of its action, unless it has an error already. -/
def judged (entry : Entry) (action : Action) : Entry :=
  match entry.error, action.validate entry.value with
  | none, .error e => { entry with error := some e }
  | _, _ => entry

/-- What an exchange makes of a read: the judged entries if there is one for each
action, and else the failure. -/
def answered (actions : List Action) : Reader.Outcome → Except Halt (List Entry)
  | .batch entries =>
    if entries.length = actions.length then .ok (entries.zipWith judged actions)
    else .error (.failed (.protocol (.entryCountMismatch actions.length entries.length)))
  | .failed failure => .error (.failed failure.error)
  | .stalled => .error .stalled

/-- Exchange a batch of actions for their entries. The stream is taken for the time
of the exchange, and put back only when it succeeds. -/
def exchange (actions : List Action) : Call (List Entry) := fun line =>
  match Packet.encode actions with
  | .error e => (.error (.failed (.encode e)), line)
  | .ok batch =>
    match line.conn.stream with
    | none => (.error (.failed line.conn.closedError), line)
    | some stream =>
      match stream.write with
      | .error kind =>
        let e : Error := .communication "failed to write to conn" kind
        (.error (.failed e), ⟨line.conn.broken e, line.net.record [.halted stream.number]⟩)
      | .ok stream =>
        let step := line.conn.reader.read stream.ended stream.inbound
        let taken := stream.inbound.take (stream.inbound.length - step.arrivals.length)
        let net := line.net.record [.sent stream.number batch, .received stream.number taken]
        let conn := { line.conn with reader := step.reader }
        match answered actions step.outcome with
        | .ok entries =>
          (.ok entries,
            ⟨{ conn with
                stream := some { stream with inbound := step.arrivals }
                inFlight := false
                exchanges := conn.exchanges + 1 },
              net.record [.judged stream.number entries]⟩)
        | .error (.failed e) =>
          (.error (.failed e), ⟨conn.broken e, net.record [.halted stream.number]⟩)
        | .error .stalled =>
          (.error .stalled,
            ⟨{ conn with stream := none, inFlight := true }, net.record [.halted stream.number]⟩)

/-- Exchange one action for its value, whatever the state of the connection. -/
def roundTrip (action : Action) : Call Value := do
  Call.ofExcept (Response.first (← exchange [action]))

/-- The credentials that a provider answered with, or that it failed. -/
def credentialsOf (answer : Except Error Credentials) : Except Error Credentials :=
  answer.mapError fun e => .authProvider e.message

/-- The server speaks the version of the protocol that this client implements. -/
def checkVersion (version : Value) : Except Error Unit :=
  if version.text? = some protocolVersion then .ok ()
  else .error (.versionMismatch protocolVersion (version.text?.getD version.display))

/-- Check the version, log in, and select the namespace, each after the server
accepted what came before. -/
def handshakeSteps : Call Unit := do
  Call.ofExcept (checkVersion (← roundTrip (.sysInfo .protocol)))
  let line ← get
  if let some provider := line.conn.config.auth then
    let login ← Call.ofExcept (credentialsOf (provider.answer line.net.accepted))
    let _ ← roundTrip (.login login.username login.token)
  if let some path := line.conn.config.defaultNamespace then
    let _ ← roundTrip (.use path)

/-- Prepare a new stream for use. Without success the stream is dropped. -/
def handshake : Call Unit :=
  Call.onFailure handshakeSteps fun _ conn => { conn with stream := none }

/-- The error of a dial that fails. -/
def dialFailure (kind : IoKind) : Error := .communication "failed to dial server" kind

/-- Open a connection. -/
def establish (config : Config) (net : Network) : Except Halt Connection × Network :=
  match net.dial config.address with
  | (.error kind, net) => (.error (.failed (dialFailure kind)), net)
  | (.ok stream, net) =>
    match handshake ⟨start config stream, net⟩ with
    | (.ok (), line) => (.ok line.conn, line.net)
    | (.error halt, line) => (.error halt, line.net)

/-- Open a connection with the settings that a URL gives. -/
def establishUrl (url : String) (net : Network) : Except Halt Connection × Network :=
  match Config.ofUrl url with
  | .ok config => establish config net
  | .error e => (.error (.failed e), net)

/-- Dial again for a connection that is closed. -/
def redial : Call Unit := fun line =>
  match line.net.dial line.conn.config.address with
  | (.error kind, net) => (.error (.failed (dialFailure kind)), { line with net })
  | (.ok stream, net) => (.ok (), ⟨{ line.conn with stream := some stream }, net⟩)

/-- Open the connection again. -/
def reopen : Call Unit := do
  Call.update fun conn => { conn with reader := conn.reader.reset }
  Call.onFailure (do redial; handshake) fun e conn => { conn with failure := some e }
  Call.update fun conn => { conn with failure := none, reopenings := conn.reopenings + 1 }

/-- Send actions in one batch. The cancellation is looked at once, before anything
else; a packet without actions is refused before the connection is. -/
def send (actions : List Action) (cancelled : Bool) : Call (List Entry) := do
  if cancelled then Call.fail .cancelled
  if actions.isEmpty then Call.fail .emptyPacket
  Call.update noteAbandoned
  let conn := (← get).conn
  if conn.isClosed then
    if conn.shut || !conn.config.autoReconnect then Call.fail conn.closedError
    reopen
  exchange actions

/-- Send a packet. -/
def sendPacket (packet : Packet) (flags : CancellationFlags) : Call (List Entry) :=
  send packet.actions (packet.isCancelled flags)

/-- Run one action and answer with its value. -/
def exec (action : Action) : Call Value := do
  Call.ofExcept (Response.first (← send [action] false))

end Connection

end StoreClient
