import StoreClient.Error
import StoreClient.Wire.Value

/-!
# Entries of a response

A response has one entry for each action, in the order of the actions. An error
that concerns one entry alone stays with that entry.
-/

namespace StoreClient

/-- One entry of a response. -/
structure Entry where
  /-- The type that the entry was announced with. -/
  declared : ItemType
  value : Value
  /-- What is wrong with this entry alone. -/
  error : Option Error
  deriving Repr

namespace Entry

/-- The entry carries no error. -/
def isOk (entry : Entry) : Bool := entry.error.isNone

/-- The value of the entry, or its error. -/
def result (entry : Entry) : Except Error Value :=
  match entry.error with
  | some e => .error e
  | none => .ok entry.value

end Entry

/-- A read that failed after some entries. The entries are for diagnosis only. -/
structure FailedRead where
  entries : List Entry
  error : Error
  deriving Repr

/-- The wording of the error with the number of entries before it. -/
def FailedRead.message (failure : FailedRead) : String :=
  s!"{failure.error.message} (after {failure.entries.length} decoded entries)"

end StoreClient
