import StoreClient.Text.Blank
import StoreClient.Wire.Encoding

/-!
# Actions

An action is one command together with the answers that it accepts. It is sent as
its segments, the verb first, and it never touches the connection.
-/

namespace StoreClient

/-- What a server can be asked about itself. -/
inductive SystemProperty where
  | protocol | version
  deriving DecidableEq, Repr

/-- The word that asks for the property. -/
def SystemProperty.word : SystemProperty → String
  | protocol => "PROTOCOL"
  | version => "VERSION"

/-- A command and what it means. -/
inductive Action where
  /-- Ask for a sign of life, which repeats the given text. -/
  | heya (echo : Option String)
  | login (username token : String)
  /-- Select a keyspace or table. -/
  | use (path : String)
  | sysInfo (property : SystemProperty)
  | get (key : String)
  /-- Set a key that does not exist yet. -/
  | set (key : String) (value : Value)
  | del (keys : List String)
  | exists (keys : List String)
  /-- Any command, whose answer the caller interprets. -/
  | command (segments : List Value)
  deriving Repr

namespace Action

/-- The command of a line: its words, the verb first. -/
def ofLine (line : String) : Action := command ((Text.words line).map .string)

/-- What is sent for the action. -/
def segments : Action → List Value
  | heya none => [.string "HEYA"]
  | heya (some echo) => [.string "HEYA", .string echo]
  | login username token => [.string "AUTH", .string "LOGIN", .string username, .string token]
  | use path => [.string "USE", .string path]
  | sysInfo property => [.string "SYS", .string "INFO", .string property.word]
  | get key => [.string "GET", .string key]
  | set key value => [.string "SET", .string key, value]
  | del keys => .string "DEL" :: keys.map .string
  | «exists» keys => .string "EXISTS" :: keys.map .string
  | command segments => segments

/-- Append the action's command to a buffer. -/
def append (action : Action) (buffer : Bytes) : Except EncodeError Bytes :=
  appendCommand action.segments buffer

/-- The words that name the action in errors. -/
def label : Action → String
  | heya _ => "HEYA"
  | login .. => "AUTH LOGIN"
  | use _ => "USE"
  | sysInfo _ => "SYS INFO"
  | get _ => "GET"
  | set .. => "SET"
  | del _ => "DEL"
  | «exists» _ => "EXISTS"
  | command _ => ""

/-- The value is an answer that the action asks for. -/
def accepts : Action → Value → Bool
  | heya echo, .string text => text = echo.getD "HEY!"
  | sysInfo _, .string _ => true
  | get _, .string _ | get _, .binary _ => true
  | login .., .code .okay | use _, .code .okay | set .., .code .okay => true
  | del _, .unsigned _ | «exists» _, .unsigned _ => true
  | command _, _ => true
  | _, _ => false

/-- The error for an answer that was not asked for: what the server reports, or else
a violation of the protocol. -/
def rejection (label : String) : Value → Error
  | .code c =>
    if c.isOkay then .protocol (.unexpectedResponse label (Value.code c).display)
    else .server (.code c)
  | .errorText text => .server (.text text)
  | value => .protocol (.unexpectedResponse label value.display)

/-- Check the answer to the action. -/
def validate (action : Action) (value : Value) : Except Error Unit :=
  if action.accepts value then .ok () else .error (rejection action.label value)

/-- How logs show a login. The token stays out of them. -/
def loginLog (username : String) : String :=
  "Login \x7b username: " ++ Text.quoted username ++ ", token: " ++
    Text.quoted "<redacted>" ++ " \x7d"

end Action

end StoreClient
