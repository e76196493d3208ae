import StoreClient.Address
import StoreClient.Packet
import StoreClient.Reader

/-!
# The network

The server's side of every connection, as scripts. A script says how the server
answers each batch of requests that arrives on one connection. The network keeps a
record of what was accepted, sent, received and judged, and of the exchanges that
failed, by the number of the stream.
-/

namespace StoreClient

/-- How the server answers one batch of requests. -/
structure Reply where
  /-- What the client's reads bring. -/
  arrivals : List Arrival
  /-- The server ends its sending side afterwards. It still receives. -/
  closes : Bool
  /-- The batch cannot be written at all. -/
  unwritable : Option IoKind
  deriving DecidableEq, Repr

namespace Reply

/-- One read brings at most this many bytes. -/
def readSize : Nat := 8192

/-- The reads that bring some bytes which are sent in one piece. -/
def arrivalsOf (data : Bytes) : List Arrival :=
  if data = [] then [] else .bytes (data.take readSize) :: arrivalsOf (data.drop readSize)
  termination_by data.length
  decreasing_by
    have := List.length_pos_iff.2 ‹data ≠ []›
    rw [List.length_drop, readSize]
    omega

/-- An answer of some bytes. -/
def sending (data : Bytes) (closes : Bool) : Reply := ⟨arrivalsOf data, closes, none⟩

/-- No answer, and no end either. -/
def silence : Reply := sending [] false

/-- The end of the server's sending side, which answers every batch that a script
does not foresee. -/
def closing : Reply := sending [] true

end Reply

/-- The answers on one connection, in order. -/
abbrev Script := List Reply

/-- An open stream to the server. -/
structure Stream where
  /-- The number of streams that were accepted before. -/
  number : Nat
  /-- The answers still to come. -/
  script : Script
  /-- What was sent to the client and not read yet. -/
  inbound : List Arrival
  /-- The server has ended its sending side. -/
  ended : Bool
  deriving Repr

/-- Write one batch: the stream with the server's answer on its way, or the failure
of writing. After its end the server sends nothing more. -/
def Stream.write (stream : Stream) : Except IoKind Stream :=
  let reply := stream.script.headD .closing
  match reply.unwritable with
  | some kind => .error kind
  | none =>
    let answered :=
      if stream.ended then stream
      else { stream with inbound := stream.inbound ++ reply.arrivals, ended := reply.closes }
    .ok { answered with script := stream.script.tail }

/-- What happens when the server is dialed. -/
inductive Dial where
  | accepted (script : Script)
  | refused (kind : IoKind)

/-- What happened on the network. -/
inductive Event where
  | accepted (stream : Nat)
  | sent (stream : Nat) (batch : Bytes)
  | received (stream : Nat) (arrivals : List Arrival)
  /-- The answers to a batch arrived, one for each action. -/
  | judged (stream : Nat) (entries : List Entry)
  /-- An exchange failed, or was given up. -/
  | halted (stream : Nat)
  deriving Repr

/-- The network with the server on it. -/
structure Network where
  /-- What the next dials meet. Every dial after those is accepted, without a
  script. -/
  dials : List Dial
  /-- No dial gets through, for this reason. -/
  outage : Option IoKind
  /-- The number of streams that were accepted. -/
  accepted : Nat
  /-- What happened, in order. -/
  events : List Event

namespace Network

/-- A network on which the given dials are to come and nothing has happened. -/
def ofDials (dials : List Dial) : Network := ⟨dials, none, 0, []⟩

/-- Add events to the record. -/
def record (net : Network) (events : List Event) : Network :=
  { net with events := net.events ++ events }

/-- The server stops listening. A network that gets no dial through stays as it is. -/
def stopListening (net : Network) : Network :=
  { net with outage := net.outage.or (some .connectionRefused) }

/-- Dial the server. -/
def dial (net : Network) (address : String) : Except IoKind Stream × Network :=
  if !Address.isDialable address then (.error .invalidInput, net)
  else
    match net.outage with
    | some kind => (.error kind, net)
    | none =>
      match net.dials.headD (.accepted []) with
      | .refused kind => (.error kind, { net with dials := net.dials.tail })
      | .accepted script =>
        let stream : Stream := ⟨net.accepted, script, [], false⟩
        (.ok stream,
          { net with dials := net.dials.tail, accepted := net.accepted + 1 }.record
            [.accepted net.accepted])

/-- The batches that the server received on a stream, in order. -/
def sentOn (net : Network) (stream : Nat) : List Bytes :=
  net.events.filterMap fun event =>
    match event with
    | .sent number batch => if number = stream then some batch else none
    | _ => none

/-- The batches that the server received, by the stream. -/
def requests (net : Network) : List (List Bytes) := (List.range net.accepted).map net.sentOn

end Network

end StoreClient
