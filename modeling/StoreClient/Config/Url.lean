import StoreClient.Address
import StoreClient.Config

/-!
# Connection URLs

A URL names a scheme, credentials, a host, a service and a namespace; all but the
scheme and the host are optional. The last `@` ends the credentials, the first
slash after it starts the namespace, and the last colon between them starts the
number of the service.
-/

namespace StoreClient.Config

/-- The rest of a URL behind its scheme. -/
def schemeRest? (url : List Char) : Option (List Char) :=
  let drop? (scheme : String) : Option (List Char) :=
    if scheme.toList.isPrefixOf url then some (url.drop scheme.length) else none
  (drop? "skyhash://").or (drop? "skytable://")

/-- The host and the service that an address names, or the default service. -/
def endpoint (address : List Char) : Except Error (List Char × Nat) :=
  match cutAtLast ':' address with
  | none => .ok (address, Address.defaultService)
  | some (host, digits) =>
    match Address.service? digits with
    | some service => .ok (host, service)
    | none => .error (.config ("invalid port: " ++ String.ofList digits))

/-- User name and token, separated by the first colon. -/
def credentials (text : List Char) : Except Error Credentials :=
  match cutAtFirst ':' text with
  | some (username, token) => .ok ⟨String.ofList username, String.ofList token⟩
  | none => .error (.config "credentials must be user:token")

/-- The settings that a URL gives. -/
def ofUrl (url : String) : Except Error Config := do
  let some rest := schemeRest? url.toList
    | .error (.config ("invalid URL scheme in " ++ Text.quoted url))
  let (login, target) :=
    match cutAtLast '@' rest with
    | some (login, target) => (some login, target)
    | none => (none, rest)
  let (address, path) := (cutAtFirst '/' target).getD (target, [])
  let (host, service) ← endpoint address
  if host.isEmpty then .error (.config ("missing host in " ++ Text.quoted url))
  let auth ← match login with
    | some login => (fun c => some (.fixed c)) <$> credentials login
    | none => .ok none
  return { ofAddress (String.ofList host ++ ":" ++ toString service) with
    auth := auth
    defaultNamespace := if path.isEmpty then none else some (String.ofList path) }

end StoreClient.Config
