/-
This file defines how the configured clients are parsed into a registry.
-/

import Tempogate.Construction.Oidc.Types

namespace Tempogate.Oidc

/-- A port is decimal digits behind the last colon of the host. -/
def cutPort (host : String) : String × String :=
  match cutAtLast host ':' with
  | none => (host, "")
  | some (front, port) => if port.toList.all Char.isDigit then (front, port) else (host, "")

def stripBrackets (host : String) : String :=
  match host.toList with
  | '[' :: rest => if rest.getLast? = some ']' then String.ofList rest.dropLast else host
  | _ => host

def splitHostPort (host : String) : String × String :=
  (stripBrackets (cutPort host).1, (cutPort host).2)

def URL.port (url : URL) : String := (splitHostPort url.host).2

inductive RedirectError
  | doesNotParse
  | notAbsolute
  | noHost
  | emptyPort
  | userinfo
  | fragment
  | noPath
  | loopbackPort
  | loopbackQuery
  | insecure
  | unsupportedScheme (scheme : String)
  deriving DecidableEq, Repr

def RedirectError.text (quote : String → String) : RedirectError → String
  | doesNotParse => "does not parse as a URI"
  | notAbsolute => "is not an absolute URI"
  | noHost => "has no host"
  | emptyPort => "ends its host with ':'; register the full callback URI, not a prefix"
  | userinfo => "must not contain userinfo"
  | fragment => "must not contain a fragment"
  | noPath => "has no path; register the full callback URI, not a prefix"
  | loopbackPort =>
    "is a loopback URI with a port; omit the port (any port is accepted for loopback, RFC 8252 §7.3)"
  | loopbackQuery => "is a loopback URI with a query; loopback registrations must not carry one"
  | insecure =>
    "must use https (set OIDC_ALLOW_INSECURE_REDIRECT_URIS=true for a local plain-http stack only)"
  | unsupportedScheme scheme => "has unsupported scheme " ++ quote scheme ++ " (want https)"

inductive RegistrationError
  | malformed (entry : String)
  | deviceEntry (clientID entry : String)
  | deviceOnly (clientID : String)
  | duplicate (clientID uri : String)
  | redirectURI (clientID uri : String) (error : RedirectError)
  deriving DecidableEq, Repr

def RegistrationError.text (quote : String → String) (error : RegistrationError) : String :=
  "oidc: invalid client registration: " ++ match error with
  | malformed entry =>
    "malformed entry " ++ quote entry ++ " (want id:redirect_uri, or id: for a device-only client)"
  | deviceEntry clientID entry =>
    "client " ++ quote clientID ++ ": a device-only entry (" ++ quote entry ++
      ") cannot be combined with other entries for the same id"
  | deviceOnly clientID =>
    "client " ++ quote clientID ++ ": a device-only entry (" ++ quote (clientID ++ ":") ++
      ") cannot be combined with redirect URI entries"
  | duplicate clientID uri =>
    "client " ++ quote clientID ++ ": duplicate redirect URI " ++ quote uri
  | redirectURI clientID uri error =>
    "client " ++ quote clientID ++ ": redirect URI " ++ quote uri ++ " " ++ error.text quote

section

variable (library : Library)

/-- This says why a URI breaks the rules that every redirect URI must meet. -/
def redirectError (raw : String) : RedirectError :=
  match library.parseURL raw with
  | none => .doesNotParse
  | some url =>
    if url.scheme = "" ∨ url.opaqueData ≠ "" then .notAbsolute
    else if url.host = "" then .noHost
    else if url.host.toList.getLast? = some ':' then .emptyPort
    else if url.hasUser then .userinfo
    else .fragment

/-- Only the empty path is escaped to an empty text. -/
def checkRegisteredRedirectURI (raw : String) (allowInsecure : Bool) : Except RedirectError Unit :=
  match parseRedirectURI library raw with
  | none => .error (redirectError library raw)
  | some url =>
    if url.escapedPath = "" then .error .noPath
    else if isLoopback url then
      if url.port ≠ "" then .error .loopbackPort
      else if url.rawQuery ≠ "" || url.forceQuery then .error .loopbackQuery
      else .ok ()
    else if url.scheme = "https" then .ok ()
    else if url.scheme = "http" && allowInsecure then .ok ()
    else if url.scheme = "http" then .error .insecure
    else .error (.unsupportedScheme url.scheme)

def ClientRegistry.set (registry : ClientRegistry) (clientID : String) (client : Client) :
    ClientRegistry :=
  (clientID, client) :: registry.filter fun entry => entry.1 ≠ clientID

/-- An entry without a URI registers a device-only client. -/
def registerEntry (allowInsecure : Bool) (registry : ClientRegistry) (raw : String) :
    Except RegistrationError ClientRegistry :=
  let entry := trimSpace raw
  if entry = "" then .ok registry
  else match cut entry ':' with
    | none => .error (.malformed entry)
    | some (clientID, uri) =>
      let seen := (registry.lookup clientID).isSome
      let client := (registry.lookup clientID).getD ⟨[], [], ""⟩
      if clientID = "" then .error (.malformed entry)
      else if uri = "" && seen then .error (.deviceEntry clientID entry)
      else if uri = "" then .ok (registry.set clientID ⟨[], [.deviceCode, .refreshToken], ""⟩)
      else if seen && client.redirectURIs = [] then .error (.deviceOnly clientID)
      else if client.redirectURIs.contains uri then .error (.duplicate clientID uri)
      else match checkRegisteredRedirectURI library uri allowInsecure with
        | .error error => .error (.redirectURI clientID uri error)
        | .ok () => .ok (registry.set clientID { client with
            redirectURIs := client.redirectURIs ++ [uri]
            grantTypes := [.authorizationCode, .refreshToken] })

def parseClientRegistry (allowInsecure : Bool) (raw : String) :
    Except RegistrationError ClientRegistry :=
  (split raw ',').foldlM (registerEntry library allowInsecure) []

end

end Tempogate.Oidc
