import StoreClient.Number.Numeral

/-!
# Addresses

An address is a host and the number of a service on it, with a colon between them.
The cuts at an item are for every text whose parts are separated by single
characters.
-/

namespace StoreClient

/-- The part of a list before the first occurrence of an item, and the part behind it. -/
def cutAtFirst {α : Type} [DecidableEq α] (item : α) (items : List α) : Option (List α × List α) :=
  match items.dropWhile (· ≠ item) with
  | [] => none
  | _ :: behind => some (items.takeWhile (· ≠ item), behind)

/-- The part of a list before the last occurrence of an item, and the part behind it. -/
def cutAtLast {α : Type} [DecidableEq α] (item : α) (items : List α) : Option (List α × List α) :=
  (cutAtFirst item items.reverse).map fun parts => (parts.2.reverse, parts.1.reverse)

namespace Address

/-- The service that a server offers if no other is named. -/
def defaultService : Nat := 2003

/-- The numbers of services are below this bound. -/
def serviceBound : Nat := 65536

/-- The number of a service. -/
def service? (text : List Char) : Option Nat :=
  Numeral.unsigned? serviceBound (Utf8.encode (String.ofList text))

/-- The address names a host and a service, so it can be dialed. -/
def isDialable (address : String) : Bool :=
  match cutAtLast ':' address.toList with
  | some (_, service) => (service? service).isSome
  | none => false

end Address

end StoreClient
