import StoreClient.Connection

/-!
# Requests

What the owner of a connection can ask of it, and the answer in the form that the
owner wants. Each request is one action, but for logging in with a provider, which
can fail before anything is sent, and for closing, which sends nothing.
-/

namespace StoreClient

/-- What is wanted of the response to a batch. -/
inductive BatchView where
  /-- Its entries, one by one. -/
  | entries
  /-- The response as a whole. -/
  | response
  /-- The values of its entries, or the error of the first entry with one. -/
  | values
  deriving DecidableEq, Repr

/-- Something to ask of a connection. -/
inductive Request where
  | exec (action : Action)
  | batch (actions : List Action) (cancelled : Bool) (view : BatchView)
  | command (line : String)
  | heya
  | login (username token : String)
  /-- Log in with the credentials of a provider, which is asked once and answers this. -/
  | loginWith (asked : Except Error Credentials)
  | use (path : String)
  | protocol
  | version
  | get (key : String)
  | set (key : String) (value : Value)
  | del (keys : List String)
  | exists (keys : List String)
  | close

/-- What a connection answers. -/
inductive Answer where
  | done
  | value (value : Value)
  | entries (entries : List Entry)
  | response (entries : List Entry)
  | values (values : List Value)
  | text (text : String)
  | count (n : UInt64)
  deriving Repr

namespace Connection

/-- The text of a string, for the action with the given label. -/
def expectText (label : String) (value : Value) : Except Error String :=
  match value with
  | .string text => .ok text
  | other => .error (.protocol (.unexpectedResponse label other.display))

/-- The number of an unsigned integer, for the action with the given label. -/
def expectCount (label : String) (value : Value) : Except Error UInt64 :=
  match value with
  | .unsigned n => .ok n
  | other => .error (.protocol (.unexpectedResponse label other.display))

/-- Log in. -/
def login (username token : String) : Call Unit := do
  let _ ← exec (.login username token)

/-- Log in with what a provider answered. -/
def loginWith (asked : Except Error Credentials) : Call Unit := do
  let credentials ← Call.ofExcept (credentialsOf asked)
  login credentials.username credentials.token

/-- Select the namespace, which is selected again when the connection is opened
again. -/
def useNamespace (path : String) : Call Unit := do
  let _ ← exec (.use path)
  Call.update fun conn => { conn with config := { conn.config with defaultNamespace := some path } }

/-- What the server says about itself. -/
def systemInfo (property : SystemProperty) : Call String := do
  Call.ofExcept (expectText s!"SYS INFO {property.word}" (← exec (.sysInfo property)))

/-- How many of the keys were deleted. -/
def delete (keys : List String) : Call UInt64 := do
  Call.ofExcept (expectCount "DEL" (← exec (.del keys)))

/-- How many of the keys exist. -/
def countExisting (keys : List String) : Call UInt64 := do
  Call.ofExcept (expectCount "EXISTS" (← exec (.exists keys)))

/-- Answer a request. -/
def answer : Request → Call Answer
  | .exec action => .value <$> exec action
  | .batch actions cancelled .entries => .entries <$> send actions cancelled
  | .batch actions cancelled .response => .response <$> send actions cancelled
  | .batch actions cancelled .values => do
    .values <$> Call.ofExcept (Response.values (← send actions cancelled))
  | .command line => .value <$> exec (.ofLine line)
  | .heya => do
    let _ ← exec (.heya none)
    pure .done
  | .login username token => do login username token; pure .done
  | .loginWith asked => do loginWith asked; pure .done
  | .use path => do useNamespace path; pure .done
  | .protocol => .text <$> systemInfo .protocol
  | .version => .text <$> systemInfo .version
  | .get key => .value <$> exec (.get key)
  | .set key value => do
    let _ ← exec (.set key value)
    pure .done
  | .del keys => .count <$> delete keys
  | .exists keys => .count <$> countExisting keys
  | .close => do Call.update close; pure .done

end Connection

end StoreClient
