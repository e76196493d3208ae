import StoreClient.Config.Url
import StoreClient.Proofs.Numerals
import StoreClient.Proofs.Texts
import Mathlib.Data.List.TakeWhile

/-!
# The parts of a URL

A URL is put together from a scheme, credentials, a host, a service and a path, and all
but the scheme and the host may be missing. The parts may hold the characters that
separate other parts: a token may hold every character, and a host with a service may
hold colons. What each part must not hold is said with it, and that is enough for every
URL to be taken apart at the right places. A URL that is accepted has been put together
in this way.
-/

namespace StoreClient

section Cuts

variable {α : Type} [DecidableEq α] {item : α} {items front behind : List α}

/-- A list is cut in front of the item if it is nowhere in the front. -/
theorem cutAtFirst_append (h : item ∉ front) :
    cutAtFirst item (front ++ item :: behind) = some (front, behind) := by
  have hfront : ∀ a ∈ front, decide (a ≠ item) = true := by
    intro a ha
    have hne : a ≠ item := by
      rintro rfl
      exact h ha
    simp [hne]
  rw [cutAtFirst, List.dropWhile_append_of_pos hfront, List.takeWhile_append_of_pos hfront]
  simp

/-- A list is not cut at all if it does not have the item. -/
theorem cutAtFirst_eq_none_iff : cutAtFirst item items = none ↔ item ∉ items := by
  constructor
  · intro hcut hmem
    obtain ⟨front, behind, rfl, hfront⟩ := List.eq_append_cons_of_mem hmem
    rw [cutAtFirst_append hfront] at hcut
    cases hcut
  · intro hmem
    have hnone : items.dropWhile (· ≠ item) = [] := by
      rw [List.dropWhile_eq_nil_iff]
      intro a ha
      have hne : a ≠ item := by
        rintro rfl
        exact hmem ha
      simp [hne]
    rw [cutAtFirst, hnone]

/-- A cut at the first occurrence leaves none in the front. -/
theorem cutAtFirst_eq_some_iff :
    cutAtFirst item items = some (front, behind) ↔
      item ∉ front ∧ items = front ++ item :: behind := by
  constructor
  · intro hcut
    by_cases hmem : item ∈ items
    · obtain ⟨front', behind', rfl, hfront⟩ := List.eq_append_cons_of_mem hmem
      rw [cutAtFirst_append hfront] at hcut
      cases hcut
      exact ⟨hfront, rfl⟩
    · rw [cutAtFirst_eq_none_iff.mpr hmem] at hcut
      cases hcut
  · rintro ⟨hfront, rfl⟩
    exact cutAtFirst_append hfront

/-- A cut at the last occurrence is not made either if there is none. -/
theorem cutAtLast_eq_none_iff : cutAtLast item items = none ↔ item ∉ items := by
  simp [cutAtLast, cutAtFirst_eq_none_iff]

/-- A cut at the last occurrence leaves none behind it. -/
theorem cutAtLast_eq_some_iff :
    cutAtLast item items = some (front, behind) ↔
      item ∉ behind ∧ items = front ++ item :: behind := by
  simp only [cutAtLast, Option.map_eq_some_iff, Prod.exists, cutAtFirst_eq_some_iff, Prod.mk.injEq]
  constructor
  · rintro ⟨upper, lower, ⟨hmem, hitems⟩, rfl, rfl⟩
    rw [List.reverse_eq_iff] at hitems
    simp [hmem, hitems]
  · rintro ⟨hmem, rfl⟩
    refine ⟨behind.reverse, front.reverse, ?_, List.reverse_reverse front,
      List.reverse_reverse behind⟩
    simp [hmem]

end Cuts

/-- A spelling of the number of a service. -/
structure ServiceText where
  plus : Bool
  zeros : Nat
  number : Nat
  number_lt : number < Address.serviceBound

namespace ServiceText

/-- The number with its zeros and its plus sign. -/
def text (service : ServiceText) : String :=
  (if service.plus then "+" else "") ++
    (String.ofList (List.replicate service.zeros '0') ++ toString service.number)

/-- A spelling holds digits and a plus sign only. -/
theorem eq_plus_or_isDigit {service : ServiceText} {c : Char} (h : c ∈ service.text.toList) :
    c = '+' ∨ c.isDigit = true := by
  have hdigits : c ∈ Nat.toDigits 10 service.number → c.isDigit = true := fun hc =>
    Nat.isDigit_of_mem_toDigits (by decide) (by decide) hc
  have hzero : c = '0' → c.isDigit = true := by
    rintro rfl
    rfl
  cases hplus : service.plus with
  | true =>
    simp [text, hplus, Nat.toString_eq_repr, Nat.repr] at h
    tauto
  | false =>
    simp [text, hplus, Nat.toString_eq_repr, Nat.repr] at h
    tauto

/-- A character that is neither a plus sign nor a digit is in no spelling. -/
theorem not_mem_text {c : Char} (hplus : c ≠ '+') (hdigit : c.isDigit = false)
    (service : ServiceText) : c ∉ service.text.toList := by
  intro h
  rcases eq_plus_or_isDigit h with h | h
  · exact hplus h
  · rw [hdigit] at h
    cases h

/-- The bytes of a spelling. -/
theorem encode_text (service : ServiceText) :
    Utf8.encode service.text = (if service.plus then ['+'.toUInt8] else []) ++
      (List.replicate service.zeros '0'.toUInt8 ++ Numeral.digits service.number) := by
  have hzeros : Utf8.encode (String.ofList (List.replicate service.zeros '0')) =
      List.replicate service.zeros '0'.toUInt8 := by
    rw [Utf8.encode_of_isDigit, List.map_replicate]
    intro c hc
    rw [List.eq_of_mem_replicate hc]
    rfl
  have hplus : Utf8.encode (if service.plus then "+" else "") =
      if service.plus then ['+'.toUInt8] else [] := by
    cases service.plus with
    | true => rfl
    | false => rfl
  rw [text, Utf8.encode_append, Utf8.encode_append, hzeros, hplus, Utf8.encode_toString]

end ServiceText

/-- The number of a service is read from its spellings and from nothing else. -/
theorem Address.service?_eq_some_iff {text : List Char} {number : Nat} :
    service? text = some number ↔
      ∃ service : ServiceText, text = service.text.toList ∧ number = service.number := by
  rw [service?, Numeral.unsigned?_eq_some_iff]
  constructor
  · rintro ⟨hbound, plus, zeros, hbytes⟩
    have hservice := ServiceText.encode_text ⟨plus, zeros, number, hbound⟩
    have htext := Utf8.encode_inj (hbytes.trans hservice.symm)
    refine ⟨⟨plus, zeros, number, hbound⟩, ?_, rfl⟩
    rw [← htext, String.toList_ofList]
  · rintro ⟨service, rfl, rfl⟩
    refine ⟨service.number_lt, service.plus, service.zeros, ?_⟩
    rw [String.ofList_toList, ServiceText.encode_text]

/-- The schemes of a URL. -/
inductive UrlScheme where
  | skyhash | skytable
  deriving DecidableEq, Repr

/-- How a URL starts. -/
def UrlScheme.text : UrlScheme → String
  | skyhash => "skyhash://"
  | skytable => "skytable://"

/-- The parts that a URL is put together from. -/
structure UrlParts where
  scheme : UrlScheme
  login : Option Credentials
  host : String
  service : Option ServiceText
  path : Option String
  /-- The first colon ends the user name. -/
  colon_not_mem_username : ∀ credentials ∈ login, ':' ∉ credentials.username.toList
  host_ne_empty : host ≠ ""
  /-- The last `@` ends the login. -/
  at_not_mem_host : '@' ∉ host.toList
  at_not_mem_path : ∀ name ∈ path, '@' ∉ name.toList
  /-- The first slash behind the login ends the host and the service. -/
  slash_not_mem_host : '/' ∉ host.toList
  /-- The last colon starts the service. -/
  colon_not_mem_host : service = none → ':' ∉ host.toList

namespace UrlParts

/-- The login, with the `@` that ends it. -/
def loginText (parts : UrlParts) : String :=
  parts.login.elim "" fun credentials =>
    credentials.username ++ ":" ++ credentials.token ++ "@"

/-- The service, with the colon that starts it. -/
def serviceText (parts : UrlParts) : String :=
  parts.service.elim "" fun service => ":" ++ service.text

/-- The path, with the slash that starts it. -/
def pathText (parts : UrlParts) : String :=
  parts.path.elim "" fun name => "/" ++ name

/-- The URL that is put together from the parts. -/
def text (parts : UrlParts) : String :=
  parts.scheme.text ++ parts.loginText ++ parts.host ++ parts.serviceText ++ parts.pathText

/-- The number of the service, which has a default. -/
def number (parts : UrlParts) : Nat :=
  parts.service.elim Address.defaultService ServiceText.number

/-- The namespace that the path names. A slash alone names none. -/
def defaultNamespace (parts : UrlParts) : Option String :=
  parts.path.filter (· ≠ "")

/-- The settings that the parts stand for. -/
def config (parts : UrlParts) : Config :=
  { Config.ofAddress (parts.host ++ ":" ++ toString parts.number) with
    auth := parts.login.map .fixed
    defaultNamespace := parts.defaultNamespace }

end UrlParts

namespace Config

/-- A URL has a scheme and something behind it. -/
theorem schemeRest?_eq_some_iff {url rest : List Char} :
    schemeRest? url = some rest ↔ ∃ scheme : UrlScheme, url = scheme.text.toList ++ rest := by
  have hdrop : ∀ scheme : String,
      (if scheme.toList.isPrefixOf url then some (url.drop scheme.length) else none) = some rest ↔
        url = scheme.toList ++ rest := by
    intro scheme
    rw [Option.ite_none_right_eq_some, Option.some.injEq, List.isPrefixOf_iff_prefix,
      ← String.length_toList]
    constructor
    · rintro ⟨⟨behind, rfl⟩, rfl⟩
      simp
    · rintro rfl
      simp
  simp only [schemeRest?, Option.or_eq_some_iff, hdrop]
  constructor
  · rintro (h | ⟨_, h⟩)
    · exact ⟨.skyhash, h⟩
    · exact ⟨.skytable, h⟩
  · rintro ⟨scheme, rfl⟩
    cases scheme with
    | skyhash => exact Or.inl rfl
    | skytable => exact Or.inr ⟨rfl, rfl⟩

/-- The login in front of the last `@`, if there is one, and what stands behind it. -/
def splitLogin (rest : List Char) : Option (List Char) × List Char :=
  match cutAtLast '@' rest with
  | some (login, target) => (some login, target)
  | none => (none, rest)

/-- The address in front of the first slash and the path behind it. -/
def splitPath (target : List Char) : List Char × List Char :=
  (cutAtFirst '/' target).getD (target, [])

/-- What a login gives. -/
def loginAuth : Option (List Char) → Except Error (Option AuthProvider)
  | some login => (fun found => some (.fixed found)) <$> credentials login
  | none => .ok none

/-- The settings that the pieces of a URL stand for. -/
def ofPieces (host : List Char) (number : Nat) (auth : Option AuthProvider)
    (path : List Char) : Config :=
  { ofAddress (String.ofList host ++ ":" ++ toString number) with
    auth := auth
    defaultNamespace := if path.isEmpty then none else some (String.ofList path) }

/-- The login is what stands in front of an `@` that no other follows. -/
theorem splitLogin_eq_iff {rest target : List Char} {login : Option (List Char)} :
    splitLogin rest = (login, target) ↔
      '@' ∉ target ∧ rest = login.elim [] (· ++ ['@']) ++ target := by
  unfold splitLogin
  constructor
  · intro h
    cases hcut : cutAtLast '@' rest with
    | none =>
      rw [hcut, Prod.mk.injEq] at h
      obtain ⟨rfl, rfl⟩ := h
      exact ⟨cutAtLast_eq_none_iff.mp hcut, rfl⟩
    | some cut =>
      obtain ⟨front, behind⟩ := cut
      rw [hcut, Prod.mk.injEq] at h
      obtain ⟨rfl, rfl⟩ := h
      obtain ⟨hmem, hrest⟩ := cutAtLast_eq_some_iff.mp hcut
      exact ⟨hmem, by simp [hrest]⟩
  · rintro ⟨hmem, rfl⟩
    cases login with
    | none =>
      have hcut : cutAtLast '@' target = none := cutAtLast_eq_none_iff.mpr hmem
      simp [hcut]
    | some front =>
      have hcut : cutAtLast '@' (front ++ '@' :: target) = some (front, target) :=
        cutAtLast_eq_some_iff.mpr ⟨hmem, rfl⟩
      simp [hcut]

/-- The address holds no slash, and a slash starts the path. -/
theorem splitPath_eq_iff {target address path : List Char} :
    splitPath target = (address, path) ↔ '/' ∉ address ∧ ∃ name : Option String,
      target = address ++ name.elim [] (fun name => '/' :: name.toList) ∧
      path = name.elim [] String.toList := by
  unfold splitPath
  constructor
  · intro h
    cases hcut : cutAtFirst '/' target with
    | none =>
      rw [hcut, Option.getD_none, Prod.mk.injEq] at h
      obtain ⟨rfl, rfl⟩ := h
      exact ⟨cutAtFirst_eq_none_iff.mp hcut, none, by simp⟩
    | some cut =>
      rw [hcut, Option.getD_some] at h
      rw [h] at hcut
      obtain ⟨hmem, htarget⟩ := cutAtFirst_eq_some_iff.mp hcut
      exact ⟨hmem, some (String.ofList path), by simp [htarget]⟩
  · rintro ⟨hmem, name, rfl, rfl⟩
    cases name with
    | none =>
      have hcut : cutAtFirst '/' address = none := cutAtFirst_eq_none_iff.mpr hmem
      simp [hcut]
    | some name =>
      have hcut : cutAtFirst '/' (address ++ '/' :: name.toList) = some (address, name.toList) :=
        cutAtFirst_append hmem
      simp [hcut]

/-- A host and a service have a colon between them. A host alone has no colon. -/
theorem endpoint_eq_ok_iff {address host : List Char} {number : Nat} :
    endpoint address = .ok (host, number) ↔ ∃ service : Option ServiceText,
      (service = none → ':' ∉ host) ∧
      address = host ++ service.elim [] (fun service => ':' :: service.text.toList) ∧
      number = service.elim Address.defaultService ServiceText.number := by
  unfold endpoint
  constructor
  · intro h
    cases hcut : cutAtLast ':' address with
    | none =>
      rw [hcut] at h
      cases h
      have hmem : ':' ∉ address := cutAtLast_eq_none_iff.mp hcut
      exact ⟨none, fun _ => hmem, by simp⟩
    | some cut =>
      obtain ⟨front, digits⟩ := cut
      obtain ⟨hmem, haddress⟩ := cutAtLast_eq_some_iff.mp hcut
      cases hservice : Address.service? digits with
      | none => simp [hcut, hservice] at h
      | some found =>
        simp only [hcut, hservice, Except.ok.injEq, Prod.mk.injEq] at h
        obtain ⟨rfl, rfl⟩ := h
        obtain ⟨service, rfl, hnumber⟩ := Address.service?_eq_some_iff.mp hservice
        exact ⟨some service, by simp, haddress, hnumber⟩
  · rintro ⟨service, hmem, rfl, rfl⟩
    cases service with
    | none =>
      have hcut : cutAtLast ':' host = none := cutAtLast_eq_none_iff.mpr (hmem rfl)
      simp [hcut]
    | some service =>
      have hcut : cutAtLast ':' (host ++ ':' :: service.text.toList) =
          some (host, service.text.toList) :=
        cutAtLast_eq_some_iff.mpr ⟨service.not_mem_text (by decide) rfl, rfl⟩
      have hservice : Address.service? service.text.toList = some service.number :=
        Address.service?_eq_some_iff.mpr ⟨service, rfl, rfl⟩
      simp [hcut, hservice]

/-- Credentials are a user name without a colon, a colon and a token. -/
theorem credentials_eq_ok_iff {text : List Char} {found : Credentials} :
    credentials text = .ok found ↔
      ':' ∉ found.username.toList ∧ text = found.username.toList ++ ':' :: found.token.toList := by
  unfold credentials
  constructor
  · intro h
    cases hcut : cutAtFirst ':' text with
    | none =>
      rw [hcut] at h
      cases h
    | some cut =>
      rw [hcut] at h
      cases h
      simpa using cutAtFirst_eq_some_iff.mp hcut
  · rintro ⟨hmem, rfl⟩
    rw [cutAtFirst_append hmem]
    simp

/-- A login has credentials, and without a login there are none. -/
theorem loginAuth_eq_ok_iff {login : Option (List Char)} {auth : Option AuthProvider} :
    loginAuth login = .ok auth ↔
      ∃ found : Option Credentials, (∀ c ∈ found, ':' ∉ c.username.toList) ∧
        login = found.map (fun c => c.username.toList ++ ':' :: c.token.toList) ∧
        auth = found.map .fixed := by
  constructor
  · intro h
    cases login with
    | none =>
      cases h
      exact ⟨none, by simp, rfl, rfl⟩
    | some login =>
      rw [loginAuth] at h
      cases hfound : credentials login with
      | error e =>
        rw [hfound] at h
        cases h
      | ok found =>
        rw [hfound] at h
        cases h
        obtain ⟨hmem, hlogin⟩ := credentials_eq_ok_iff.mp hfound
        exact ⟨some found, by simpa using hmem, by simp [hlogin], rfl⟩
  · rintro ⟨found, hmem, rfl, rfl⟩
    cases found with
    | none => rfl
    | some found =>
      have hfound := credentials_eq_ok_iff.mpr ⟨hmem found rfl, rfl⟩
      simp [loginAuth, hfound]

/-- A URL is taken apart step by step. -/
theorem ofUrl_eq (url : String) :
    ofUrl url = match schemeRest? url.toList with
      | none => .error (.config ("invalid URL scheme in " ++ Text.quoted url))
      | some rest => do
        let (host, number) ← endpoint (splitPath (splitLogin rest).2).1
        if host.isEmpty then .error (.config ("missing host in " ++ Text.quoted url))
        let auth ← loginAuth (splitLogin rest).1
        return ofPieces host number auth (splitPath (splitLogin rest).2).2 := by
  unfold ofUrl
  cases schemeRest? url.toList with
  | none => rfl
  | some rest =>
    dsimp only [splitLogin]
    cases cutAtLast '@' rest with
    | none => rfl
    | some cut => rfl

/-- The steps of a URL that is accepted, and what they find. -/
def StepsTo (url : String) (config : Config) : Prop :=
  ∃ rest host number auth, schemeRest? url.toList = some rest ∧
    endpoint (splitPath (splitLogin rest).2).1 = .ok (host, number) ∧ host ≠ [] ∧
    loginAuth (splitLogin rest).1 = .ok auth ∧
    config = ofPieces host number auth (splitPath (splitLogin rest).2).2

/-- A URL is accepted if each of its steps succeeds. -/
theorem ofUrl_of_stepsTo {url : String} {config : Config} (h : StepsTo url config) :
    ofUrl url = .ok config := by
  obtain ⟨rest, host, number, auth, hrest, hendpoint, hhost, hauth, rfl⟩ := h
  rw [ofUrl_eq]
  simp [hrest, hendpoint, hhost, hauth, bind, Except.bind, pure, Except.pure]

/-- An address is refused as a wrong setting. -/
theorem endpoint_error {address : List Char} {e : Error} (h : endpoint address = .error e) :
    ∃ what, e = .config what := by
  unfold endpoint at h
  split at h
  · cases h
  · split at h
    · cases h
    · cases h
      exact ⟨_, rfl⟩

/-- A login is refused as a wrong setting. -/
theorem loginAuth_error {login : Option (List Char)} {e : Error} (h : loginAuth login = .error e) :
    ∃ what, e = .config what := by
  cases login with
  | none => cases h
  | some login =>
    cases hcut : cutAtFirst ':' login with
    | none =>
      simp [loginAuth, credentials, hcut] at h
      exact ⟨_, h.symm⟩
    | some cut =>
      simp [loginAuth, credentials, hcut] at h

/-- A URL is taken apart, or it is refused as a wrong setting. -/
theorem stepsTo_or_refused (url : String) :
    (∃ config, StepsTo url config) ∨ ∃ what, ofUrl url = .error (.config what) := by
  rw [ofUrl_eq]
  cases hrest : schemeRest? url.toList with
  | none => exact .inr ⟨_, rfl⟩
  | some rest =>
    cases hendpoint : endpoint (splitPath (splitLogin rest).2).1 with
    | error e =>
      obtain ⟨what, rfl⟩ := endpoint_error hendpoint
      exact .inr ⟨what, by simp [hendpoint, bind, Except.bind]⟩
    | ok found =>
      obtain ⟨host, number⟩ := found
      by_cases hhost : host = []
      · exact .inr ⟨_, by simp [hendpoint, hhost, bind, Except.bind]; rfl⟩
      · cases hauth : loginAuth (splitLogin rest).1 with
        | error e =>
          obtain ⟨what, rfl⟩ := loginAuth_error hauth
          exact .inr ⟨what, by simp [hendpoint, hhost, hauth, bind, Except.bind]⟩
        | ok auth => exact .inl ⟨_, rest, host, number, auth, hrest, hendpoint, hhost, hauth, rfl⟩

/-- Only a URL whose steps succeed is accepted. -/
theorem stepsTo_of_ofUrl {url : String} {config : Config} (h : ofUrl url = .ok config) :
    StepsTo url config := by
  obtain ⟨found, hsteps⟩ | ⟨what, hrefused⟩ := stepsTo_or_refused url
  · have hfound : ofUrl url = .ok found := ofUrl_of_stepsTo hsteps
    rw [h] at hfound
    cases hfound
    exact hsteps
  · rw [h] at hrefused
    cases hrefused

end Config

namespace UrlParts

/-- The host and the service. -/
def address (parts : UrlParts) : List Char :=
  parts.host.toList ++ parts.service.elim [] fun service => ':' :: service.text.toList

/-- What stands behind the login. -/
def target (parts : UrlParts) : List Char :=
  parts.address ++ parts.path.elim [] fun name => '/' :: name.toList

/-- The login without the `@` that ends it. -/
def loginChars (parts : UrlParts) : Option (List Char) :=
  parts.login.map fun login => login.username.toList ++ ':' :: login.token.toList

/-- What stands behind the scheme. -/
def rest (parts : UrlParts) : List Char :=
  parts.loginChars.elim [] (· ++ ['@']) ++ parts.target

/-- The characters of a URL. -/
theorem toList_text (parts : UrlParts) :
    parts.text.toList = parts.scheme.text.toList ++ parts.rest := by
  have hlogin : parts.loginText.toList = parts.loginChars.elim [] (· ++ ['@']) := by
    unfold loginText loginChars
    cases parts.login with
    | none => rfl
    | some login => simp
  have hservice : parts.serviceText.toList =
      parts.service.elim [] fun service => ':' :: service.text.toList := by
    unfold serviceText
    cases parts.service with
    | none => rfl
    | some service => simp
  have hpath : parts.pathText.toList = parts.path.elim [] fun name => '/' :: name.toList := by
    unfold pathText
    cases parts.path with
    | none => rfl
    | some name => simp
  simp [text, rest, target, address, hlogin, hservice, hpath]

/-- The settings in terms of the pieces that are cut out of a URL. -/
theorem config_eq (parts : UrlParts) :
    parts.config = Config.ofPieces parts.host.toList parts.number (parts.login.map .fixed)
      (parts.path.elim [] String.toList) := by
  have hname : parts.defaultNamespace =
      if (parts.path.elim [] String.toList).isEmpty then none
      else some (String.ofList (parts.path.elim [] String.toList)) := by
    unfold defaultNamespace
    cases parts.path with
    | none => rfl
    | some name =>
      by_cases h : name = ""
      · subst h
        rfl
      · simp [h]
  simp [config, Config.ofPieces, hname]

/-- The address holds only what may stand in a host or in a spelling of a number. -/
theorem not_mem_address {c : Char} {parts : UrlParts} (hhost : c ∉ parts.host.toList)
    (hcolon : c ≠ ':') (hplus : c ≠ '+') (hdigit : c.isDigit = false) : c ∉ parts.address := by
  unfold address
  cases parts.service with
  | none => simpa using hhost
  | some service =>
    have hservice := service.not_mem_text hplus hdigit
    simp [hhost, hcolon, hservice]

/-- No `@` follows the login. -/
theorem at_not_mem_target (parts : UrlParts) : '@' ∉ parts.target := by
  have haddress : '@' ∉ parts.address :=
    not_mem_address parts.at_not_mem_host (by decide) (by decide) rfl
  have hpath := parts.at_not_mem_path
  unfold target
  cases hname : parts.path with
  | none => simpa using haddress
  | some name =>
    have hmem : '@' ∉ name.toList := hpath name hname
    simp [haddress, hmem]

end UrlParts

namespace Config

/-- A URL that is put together from its parts is accepted, with the settings that the parts
stand for. -/
theorem ofUrl_text (parts : UrlParts) : ofUrl parts.text = .ok parts.config := by
  have hrest : schemeRest? parts.text.toList = some parts.rest :=
    schemeRest?_eq_some_iff.mpr ⟨parts.scheme, parts.toList_text⟩
  have hlogin : splitLogin parts.rest = (parts.loginChars, parts.target) :=
    splitLogin_eq_iff.mpr ⟨parts.at_not_mem_target, rfl⟩
  have hpath : splitPath parts.target = (parts.address, parts.path.elim [] String.toList) := by
    have haddress : '/' ∉ parts.address :=
      UrlParts.not_mem_address parts.slash_not_mem_host (by decide) (by decide) rfl
    exact splitPath_eq_iff.mpr ⟨haddress, parts.path, rfl, rfl⟩
  have hendpoint : endpoint parts.address = .ok (parts.host.toList, parts.number) :=
    endpoint_eq_ok_iff.mpr ⟨parts.service, parts.colon_not_mem_host, rfl, rfl⟩
  have hhost : parts.host.toList ≠ [] := by
    simp [parts.host_ne_empty]
  have hauth : loginAuth parts.loginChars = .ok (parts.login.map .fixed) :=
    loginAuth_eq_ok_iff.mpr ⟨parts.login, parts.colon_not_mem_username, rfl, rfl⟩
  rw [UrlParts.config_eq]
  apply ofUrl_of_stepsTo
  refine ⟨parts.rest, parts.host.toList, parts.number, parts.login.map .fixed, hrest, ?_⟩
  rw [hlogin, hpath]
  exact ⟨hendpoint, hhost, hauth, rfl⟩

/-- A URL that is accepted is put together from parts that stand for its settings. -/
theorem exists_parts_of_ofUrl {url : String} {config : Config} (h : ofUrl url = .ok config) :
    ∃ parts : UrlParts, url = parts.text ∧ config = parts.config := by
  obtain ⟨rest, host, number, auth, hrest, hendpoint, hhost, hauth, rfl⟩ := stepsTo_of_ofUrl h
  obtain ⟨scheme, hurl⟩ := schemeRest?_eq_some_iff.mp hrest
  obtain ⟨hat, hlogin⟩ := splitLogin_eq_iff.mp (Prod.eta (splitLogin rest)).symm
  obtain ⟨hslash, path, htarget, hpath⟩ :=
    splitPath_eq_iff.mp (Prod.eta (splitPath (splitLogin rest).2)).symm
  obtain ⟨service, hcolon, haddress, hnumber⟩ := endpoint_eq_ok_iff.mp hendpoint
  obtain ⟨login, husername, hchars, rfl⟩ := loginAuth_eq_ok_iff.mp hauth
  rw [haddress] at hslash htarget
  rw [htarget] at hat hlogin
  rw [hchars] at hlogin
  -- What the target and the address must not hold, none of their parts holds.
  have hhostAt : '@' ∉ host := fun hmem => hat (by simp [hmem])
  have hhostSlash : '/' ∉ host := fun hmem => hslash (by simp [hmem])
  have hpathAt : ∀ name ∈ path, '@' ∉ name.toList := by
    intro name hname hmem
    rw [Option.mem_def] at hname
    exact hat (by simp [hname, hmem])
  let parts : UrlParts :=
    { scheme := scheme
      login := login
      host := String.ofList host
      service := service
      path := path
      colon_not_mem_username := husername
      host_ne_empty := by simpa using hhost
      at_not_mem_host := by simpa using hhostAt
      at_not_mem_path := hpathAt
      slash_not_mem_host := by simpa using hhostSlash
      colon_not_mem_host := by simpa using hcolon }
  have haddressOf : parts.address =
      host ++ service.elim [] (fun service => ':' :: service.text.toList) := by
    simp [parts, UrlParts.address]
  refine ⟨parts, ?_, ?_⟩
  · apply String.toList_inj.mp
    rw [UrlParts.toList_text, hurl, hlogin, UrlParts.rest, UrlParts.target, haddressOf]
    rfl
  · rw [UrlParts.config_eq, hnumber, hpath]
    simp [parts, UrlParts.number]

/-- **A URL is parsed back to its parts.** The URL that is put together from any parts is
accepted, with the address, the credentials and the namespace that the parts name. A URL that
is accepted is put together from parts that stand for its settings, so the spelling of the
service and a slash at the end are all the freedom there is. Every other text is refused as a
wrong setting. -/
theorem urls_parse_back :
    (∀ parts : UrlParts, ofUrl parts.text = .ok parts.config) ∧
    (∀ url config, ofUrl url = .ok config →
      ∃ parts : UrlParts, url = parts.text ∧ config = parts.config) ∧
    (∀ url, (∀ parts : UrlParts, url ≠ parts.text) →
      ∃ what, ofUrl url = .error (.config what)) := by
  refine ⟨ofUrl_text, fun url config h => exists_parts_of_ofUrl h, ?_⟩
  intro url hparts
  obtain ⟨config, hsteps⟩ | hrefused := stepsTo_or_refused url
  · obtain ⟨parts, hurl, _⟩ := exists_parts_of_ofUrl (ofUrl_of_stepsTo hsteps)
    exact absurd hurl (hparts parts)
  · exact hrefused

/-- The parts hold the characters that separate other parts. -/
def deceptiveUrl : UrlParts where
  scheme := .skytable
  login := some ⟨"ann", "p:q@r/s"⟩
  host := "[::1]"
  service := some ⟨true, 1, 2004, by decide⟩
  path := some "a:b/c"
  colon_not_mem_username := by decide
  host_ne_empty := by decide
  at_not_mem_host := by decide
  at_not_mem_path := by decide
  slash_not_mem_host := by decide
  colon_not_mem_host := by decide

/-- The separators in the parts are not taken for those between them. -/
theorem urls_parse_back_deceptive :
    deceptiveUrl.text = "skytable://ann:p:q@r/s@[::1]:+02004/a:b/c" ∧
    ofUrl "skytable://ann:p:q@r/s@[::1]:+02004/a:b/c" =
      .ok { ofAddress "[::1]:2004" with
        auth := some (.fixed ⟨"ann", "p:q@r/s"⟩)
        defaultNamespace := some "a:b/c" } := by
  have htext : deceptiveUrl.text = "skytable://ann:p:q@r/s@[::1]:+02004/a:b/c" := by
    decide +kernel
  have hconfig : deceptiveUrl.config = { ofAddress "[::1]:2004" with
      auth := some (.fixed ⟨"ann", "p:q@r/s"⟩)
      defaultNamespace := some "a:b/c" } := by
    have haddress : deceptiveUrl.host ++ ":" ++ toString deceptiveUrl.number = "[::1]:2004" := by
      decide +kernel
    have hname : deceptiveUrl.defaultNamespace = some "a:b/c" := by
      decide +kernel
    rw [UrlParts.config, haddress, hname]
    rfl
  have haccepted := urls_parse_back.1 deceptiveUrl
  rw [htext, hconfig] at haccepted
  exact ⟨htext, haccepted⟩

end Config

end StoreClient
