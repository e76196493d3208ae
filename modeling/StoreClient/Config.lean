import StoreClient.Number.Numeral
import StoreClient.Reader

/-!
# Settings

The settings of a connection, and how a URL gives them.
-/

namespace StoreClient

/-- What a login needs. -/
structure Credentials where
  username : String
  token : String
  deriving DecidableEq, Repr

/-- Where the credentials of a login come from. It is asked anew each time a connection
logs in, and its answer may change from one stream to the next: a token is replaced, or
asking fails. -/
structure AuthProvider where
  /-- What it answers when so many streams have been opened. -/
  answer : Nat → Except Error Credentials

/-- It always answers with the same credentials. -/
def AuthProvider.fixed (login : Credentials) : AuthProvider := ⟨fun _ => .ok login⟩

/-- The settings of a connection. -/
structure Config where
  /-- The host and the service to dial. -/
  address : String
  /-- Whom to ask for credentials to log in with. -/
  auth : Option AuthProvider
  /-- The namespace to select after opening. -/
  defaultNamespace : Option String
  /-- Dial again when a closed connection is used. -/
  autoReconnect : Bool
  /-- Milliseconds to wait for the server when dialing. -/
  connectTimeout : Option Nat
  /-- The limit of the reader. -/
  maxResponseSize : Nat

namespace Config

/-- The settings that apply if none are given. -/
def ofAddress (address : String) : Config where
  address := address
  auth := none
  defaultNamespace := none
  autoReconnect := false
  connectTimeout := none
  maxResponseSize := Reader.defaultLimit

end Config

/-- A pool with room for no connection makes no sense. -/
def checkCapacity (capacity : Nat) : Except Error Unit :=
  if capacity = 0 then .error (.config "pool capacity must be at least 1") else .ok ()

end StoreClient
