import StoreClient.Action
import StoreClient.Wire.Entry

/-!
# Packets

A packet is an ordered list of actions that are sent together and answered
together. It may hold a cancellation token, which it shares with whoever may
cancel it.
-/

namespace StoreClient

/-- The cancellation flags that tokens refer to, by number. -/
structure CancellationFlags where
  cancelled : List Bool
  deriving Repr

/-- A token. Tokens with one number share one flag. -/
structure Cancellation where
  flag : Nat
  deriving DecidableEq, Repr

namespace CancellationFlags

/-- No flags. -/
def empty : CancellationFlags := ⟨[]⟩

/-- A token with a flag of its own, which is not cancelled. -/
def create (flags : CancellationFlags) : Cancellation × CancellationFlags :=
  (⟨flags.cancelled.length⟩, ⟨flags.cancelled ++ [false]⟩)

/-- The token's flag is cancelled. -/
def isCancelled (flags : CancellationFlags) (token : Cancellation) : Bool :=
  flags.cancelled[token.flag]?.getD false

/-- Cancel the token's flag. Answers whether it was not cancelled before. -/
def cancel (flags : CancellationFlags) (token : Cancellation) : Bool × CancellationFlags :=
  (!flags.isCancelled token, ⟨flags.cancelled.set token.flag true⟩)

end CancellationFlags

/-- Actions that are sent in one batch. -/
structure Packet where
  actions : List Action
  token : Option Cancellation
  deriving Repr

namespace Packet

/-- The packet without actions. -/
def empty : Packet := ⟨[], none⟩

/-- The packet of one action. -/
def single (action : Action) : Packet := ⟨[action], none⟩

/-- Add an action at the end. -/
def push (packet : Packet) (action : Action) : Packet :=
  { packet with actions := packet.actions ++ [action] }

/-- Attach a token in place of an earlier one. -/
def attach (packet : Packet) (token : Cancellation) : Packet := { packet with token := some token }

/-- The packet's token is cancelled. -/
def isCancelled (packet : Packet) (flags : CancellationFlags) : Bool :=
  packet.token.any flags.isCancelled

/-- Append the commands of actions, one after the other. -/
def appendActions (actions : List Action) (buffer : Bytes) : Except EncodeError Bytes :=
  actions.foldlM (fun buffer action => action.append buffer) buffer

/-- The bytes of a batch of actions, or the error of the first one that cannot be
sent. -/
def encode (actions : List Action) : Except EncodeError Bytes :=
  appendActions actions (appendBatchHeader actions.length [])

end Packet

namespace Response

/-- The value of each entry, or the error of the first one that has one. -/
def values (entries : List Entry) : Except Error (List Value) := entries.mapM Entry.result

/-- The result of the first entry, for a packet of one action. -/
def first (entries : List Entry) : Except Error Value :=
  match entries with
  | entry :: _ => entry.result
  | [] => .error (.protocol (.entryCountMismatch 1 0))

end Response

end StoreClient
