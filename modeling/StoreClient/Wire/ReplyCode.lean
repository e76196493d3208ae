/-!
# Response codes

The codes that a server answers with instead of a value. Two codes stand for
situations that only the client names, and never travel.
-/

namespace StoreClient

/-- A response code. -/
inductive ReplyCode where
  | errorText | generic
  | okay | nil | overwrite | action | packet | server | other | wrongType
  | unknownDataType | encoding | badCredentials | authRealm
  deriving DecidableEq, Repr

namespace ReplyCode

/-- Every code. -/
def all : List ReplyCode :=
  [errorText, generic, okay, nil, overwrite, action, packet, server, other, wrongType,
    unknownDataType, encoding, badCredentials, authRealm]

/-- The number of a code. The client's own codes are below zero. -/
def number : ReplyCode → Int
  | errorText => -1
  | generic => -2
  | okay => 0
  | nil => 1
  | overwrite => 2
  | action => 3
  | packet => 4
  | server => 5
  | other => 6
  | wrongType => 7
  | unknownDataType => 8
  | encoding => 9
  | badCredentials => 10
  | authRealm => 11

/-- The code of a number that may come from the server. -/
def ofNumber? (n : Int) : Option ReplyCode :=
  all.find? fun code => 0 ≤ code.number && code.number = n

/-- What the code means, in words. -/
def label : ReplyCode → String
  | errorText => "error string"
  | generic => "generic error"
  | okay => "okay"
  | nil => "nil"
  | overwrite => "overwrite error"
  | action => "action error"
  | packet => "packet error"
  | server => "server error"
  | other => "other error"
  | wrongType => "wrongtype error"
  | unknownDataType => "unknown data type"
  | encoding => "encoding error"
  | badCredentials => "bad credentials"
  | authRealm => "authn realm error"

/-- The meaning of the code with its number. -/
def name (code : ReplyCode) : String := s!"{code.label} ({code.number})"

/-- The code reports success. -/
def isOkay (code : ReplyCode) : Bool := code = okay

end ReplyCode

end StoreClient
