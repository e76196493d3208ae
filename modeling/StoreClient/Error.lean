import StoreClient.Wire.ReplyCode
import StoreClient.Wire.Tag

/-!
# Errors

Everything that can go wrong, by cause. The wording of each cause stands here
and nowhere else. An error is fatal if the connection that it happened on cannot
be used again.
-/

namespace StoreClient

/-- What a transport failed with. -/
inductive IoKind where
  | notFound | permissionDenied | connectionRefused | connectionReset | hostUnreachable
  | networkUnreachable | connectionAborted | notConnected | addrInUse | addrNotAvailable
  | networkDown | brokenPipe | alreadyExists | wouldBlock | invalidInput | invalidData
  | timedOut | writeZero | interrupted | unsupported | unexpectedEof | outOfMemory | other
  deriving DecidableEq, Repr

/-- Why a value cannot be written. -/
inductive EncodeError where
  | missingTypeInfo (kind : ArrayKind)
  | nestedArray
  | arrayElement (kind : ArrayKind)
  | nullElement (kind : ArrayKind)
  | elementType (expected : ScalarType) (found : String)
  | invalidElementType (type : ScalarType)
  | unsupportedValue (what : String)
  | missingElementType (kind : ArrayKind)
  deriving DecidableEq, Repr

/-- The wording of an error. -/
def EncodeError.message : EncodeError → String
  | missingTypeInfo kind => s!"{kind.name} cannot be appended without type info"
  | nestedArray => "a flat array cannot contain another array"
  | arrayElement kind => s!"{kind.name} cannot contain an array"
  | nullElement kind => s!"null element in {kind.name}"
  | elementType expected found => s!"{found} element in a typed array of {expected.name}"
  | invalidElementType type => s!"{type.name} is not a valid element type for a typed array"
  | unsupportedValue what => s!"{what} values cannot be sent to the server"
  | missingElementType kind => s!"{kind.name} requires an element type"

/-- What a response does against the protocol. -/
inductive ProtocolError where
  | invalidPacket (what : String)
  | sizeMismatch (declared actual : Nat)
  | notImplemented (symbol : Char)
  | elementTypeMismatch (expected found : ScalarType)
  | nullInNonNullArray
  | arrayInFlatArray (index : Nat)
  | unknownCode (number : Int)
  | invalidPayload (type : ScalarType) (payload : String)
  | packetError
  | entryCountMismatch (expected actual : Nat)
  | responseTooLarge (limit : Nat)
  | nestingTooDeep (limit : Nat)
  | unexpectedResponse (action value : String)
  deriving DecidableEq, Repr

namespace ProtocolError

/-- The wording of an error. -/
def message : ProtocolError → String
  | invalidPacket what => s!"invalid packet: {what}"
  | sizeMismatch declared actual => s!"data length mismatch: declared {declared}, got {actual}"
  | notImplemented symbol => s!"data type '{symbol}' not implemented"
  | elementTypeMismatch expected found =>
    s!"typed array of {expected.name} contains a {found.name} element"
  | nullInNonNullArray => "null element in a non-null typed array"
  | arrayInFlatArray index => s!"read a compound entry (#{index}) in a flat array"
  | unknownCode number => s!"unknown response code {number}"
  | invalidPayload type payload => s!"malformed {type.name} payload {Text.quoted payload}"
  | packetError => "server sent a packet error; the stream is out of sync"
  | entryCountMismatch expected actual => s!"response has {actual} entries for {expected} actions"
  | responseTooLarge limit => s!"response exceeds {limit} bytes"
  | nestingTooDeep limit => s!"arrays nested deeper than {limit} levels"
  | unexpectedResponse action value => s!"{action}: unexpected response element: {value}"

/-- Nothing that follows on the stream can be trusted after the error. -/
def isFatal : ProtocolError → Bool
  | invalidPacket _ | elementTypeMismatch .. | nullInNonNullArray | arrayInFlatArray _
  | packetError | entryCountMismatch .. | responseTooLarge _ | nestingTooDeep _ => true
  | sizeMismatch .. | notImplemented _ | unknownCode _ | invalidPayload ..
  | unexpectedResponse .. => false

end ProtocolError

/-- An error that the server answered with. -/
inductive ServerError where
  | code (code : ReplyCode)
  | text (text : String)
  deriving DecidableEq, Repr

/-- The wording of an error. -/
def ServerError.message : ServerError → String
  | code c => s!"skytable response error code: {c.name}"
  | text said => s!"skytable response error string: {said}"

/-- An error of the client. -/
inductive Error where
  /-- A packet without an action. -/
  | emptyPacket
  /-- The connection is closed, and no failure closed it. -/
  | closed
  /-- The connection is closed because of an earlier failure. -/
  | closedBy (cause : Error)
  /-- A value cannot be sent. -/
  | encode (cause : EncodeError)
  /-- The pool is closed. -/
  | poolClosed
  /-- A setting is invalid. -/
  | config (what : String)
  /-- The credentials could not be obtained. -/
  | authProvider (what : String)
  /-- The transport failed. -/
  | communication (context : String) (kind : IoKind)
  /-- The response is not what the protocol or the action allows. -/
  | protocol (cause : ProtocolError)
  /-- The server reported an error. -/
  | server (cause : ServerError)
  /-- The server implements another version of the protocol. -/
  | versionMismatch (expected actual : String)
  /-- The packet was cancelled before it was sent. -/
  | cancelled
  deriving DecidableEq, Repr, Inhabited

namespace Error

/-- The error of using a connection that is closed, with the failure that closed it
if one did. -/
def closedAfter : Option Error → Error
  | none => closed
  | some cause => closedBy cause

/-- The caller's mistakes in words, without the family's name in front. -/
def usageMessage? : Error → Option String
  | emptyPacket => some "empty packet (0 action)"
  | closed | closedBy _ => some "the connection is already closed"
  | encode cause => some s!"incorrect usage: {cause.message}"
  | poolClosed => some "the connection pool is closed"
  | config what => some s!"invalid configuration: {what}"
  | authProvider what => some s!"auth provider failed: {what}"
  | communication .. | protocol _ | server _ | versionMismatch .. | cancelled => none

/-- The wording of an error. -/
def message : Error → String
  | communication context _ => s!"communication error: {context}"
  | protocol cause => s!"protocol error: {cause.message}"
  | server cause => cause.message
  | versionMismatch expected actual =>
    s!"protocol version mismatch: client implements {expected}, server implements {actual}"
  | cancelled => "packet was cancelled before it was sent"
  | usage => "usage error: " ++ usage.usageMessage?.getD ""

/-- The server reported that the object does not exist. -/
def isNotFound (e : Error) : Bool := e = server (.code .nil)

/-- The error was raised because the connection is closed. -/
def isClosed : Error → Bool
  | closed | closedBy _ => true
  | _ => false

/-- The connection that the error happened on cannot be used again. -/
def isFatal : Error → Bool
  | communication .. => true
  | protocol cause => cause.isFatal
  | e => e.isClosed

/-- The response code behind the error. -/
def code? : Error → Option ReplyCode
  | server (.code c) => some c
  | server (.text _) => some .errorText
  | protocol .packetError => some .packet
  | _ => none

/-- One step on the way from an error to its first cause. -/
inductive Cause where
  | said (text : String)
  | io (kind : IoKind)
  deriving DecidableEq, Repr

/-- The causes behind an error, the nearest first. A mistake of the caller stands
behind its own family, and behind a closed connection the failure that closed it. -/
def causes : Error → List Cause
  | communication _ kind => [.io kind]
  | protocol cause => [.said cause.message]
  | server cause => [.said cause.message]
  | versionMismatch .. | cancelled => []
  | closedBy cause => .said "the connection is already closed" :: .said cause.message :: cause.causes
  | encode cause => [.said s!"incorrect usage: {cause.message}", .said cause.message]
  | usage => (usage.usageMessage?.map Cause.said).toList

end Error

end StoreClient
