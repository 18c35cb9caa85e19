/-
This file defines the records that the OIDC handlers and the stores exchange, and the clients.
-/

import Mathlib.Data.Int.Notation
import Tempogate.Construction.Perms.Grant

namespace Tempogate.Oidc

/-- Instants and durations count nanoseconds. -/
abbrev Time : Type := Int

def second : Time := 1000000000

def minute : Time := 60 * second

/-- These are the standard library's hash, code and keyed hash functions. -/
structure Crypto where
  sum256 : List UInt8 → List UInt8
  hexEncode : List UInt8 → String
  rawURLEncode : List UInt8 → String
  hmac : List UInt8 → List UInt8 → List UInt8

def bytes (text : String) : List UInt8 := text.toUTF8.data.toList

/-- The stores keep this form of every bearer secret. -/
def Crypto.hash (crypto : Crypto) (value : String) : String :=
  crypto.hexEncode (crypto.sum256 (bytes value))

structure Refresh where
  token : String
  jti : String
  clientID : String
  connectorID : String
  subject : String
  email : String
  familyID : String
  authTime : Time
  createdAt : Time
  expiresAt : Time
  deriving DecidableEq, Repr

structure Identity where
  connectorID : String
  subject : String
  email : String
  deriving DecidableEq, Repr

def tokenSubject (connectorID subject : String) : String :=
  connectorID ++ ":" ++ subject

structure AuthCode where
  code : String
  clientID : String
  redirectURI : String
  connectorID : String
  subject : String
  email : String
  scope : String
  codeChallenge : String
  codeChallengeMethod : String
  nonce : String
  familyID : String
  createdAt : Time
  expiresAt : Time
  deriving DecidableEq, Repr

structure AuthRequest where
  internalState : String
  connectorID : String
  clientID : String
  redirectURI : String
  scope : String
  clientState : String
  codeChallenge : String
  codeChallengeMethod : String
  nonce : String
  createdAt : Time
  expiresAt : Time
  deriving DecidableEq, Repr

structure DeviceCode where
  code : String
  userCode : String
  clientID : String
  scope : String
  connectorID : String
  subject : String
  email : String
  approvedAt : Option Time
  deniedAt : Option Time
  lastPolledAt : Option Time
  intervalSeconds : Int
  createdAt : Time
  expiresAt : Time
  deriving DecidableEq, Repr

/-- Each backend reports a value that is saved twice with an error of its own. -/
inductive Backend
  | sqlite
  | postgres
  deriving DecidableEq, Repr

def Backend.text : Backend → String
  | .sqlite => "sqlite"
  | .postgres => "postgres"

/-- Postgres keeps no text with a zero byte, and refuses a statement that is given one. -/
def Storable (text : String) : Prop := '\x00' ∉ text.toList

instance : DecidablePred Storable := fun _ => inferInstanceAs (Decidable (¬ _))

/-- The server reports this when a parameter of a statement holds a zero byte. -/
def invalidText : String :=
  "ERROR: invalid byte sequence for encoding \"UTF8\": 0x00 (SQLSTATE 22021)"

/-- These are the errors the store methods return.
A reuse error comes with the consumed row. -/
inductive StoreError
  | refreshNotFound
  | refreshReused (refresh : Refresh)
  | refreshFamilyRevoked (familyID : String)
  | duplicateRefreshToken (backend : Backend)
  | authCodeNotFound
  | authCodeReused (authCode : AuthCode)
  | duplicateAuthCode (backend : Backend)
  | authRequestNotFound
  | duplicateInternalState (backend : Backend)
  | deviceCodeNotFound
  | sessionNotFound (familyID : String)
  | failure (message : String)
  deriving DecidableEq, Repr

structure MintRequest where
  subject : String
  permissions : List String
  ttl : Time
  email : String
  idp : String
  clientID : String
  deriving DecidableEq, Repr

structure IDTokenRequest where
  subject : String
  email : String
  idp : String
  audience : String
  nonce : String
  authTime : Time
  ttl : Time
  deriving DecidableEq, Repr

inductive GrantType
  | authorizationCode
  | refreshToken
  | deviceCode
  deriving DecidableEq, Repr

/-- An empty secret marks a public client. -/
structure Client where
  redirectURIs : List String
  grantTypes : List GrantType
  secret : String
  deriving DecidableEq, Repr

def Client.allows (client : Client) (grant : GrantType) : Bool :=
  client.grantTypes.contains grant

/-- These are the parts of a parsed URL that the redirect checks read. -/
structure URL where
  scheme : String
  opaqueData : String
  host : String
  hostname : String
  hasUser : Bool
  escapedPath : String
  rawQuery : String
  forceQuery : Bool
  text : String
  deriving DecidableEq, Repr

/-- These are the standard library's URL parser and lower-casing function. -/
structure Library where
  parseURL : String → Option URL
  toLower : String → String

/-- The rules that every redirect URI must meet. -/
def parseRedirectURI (library : Library) (raw : String) : Option URL :=
  match library.parseURL raw with
  | none => none
  | some url =>
    if url.scheme = "" ∨ url.opaqueData ≠ "" then none
    else if url.host = "" then none
    else if url.host.toList.getLast? = some ':' then none
    else if url.hasUser then none
    else if raw.toList.contains '#' then none
    else some url

def isLoopback (url : URL) : Bool :=
  url.scheme = "http" &&
    (url.hostname = "127.0.0.1" ||
      (url.hostname = "::1" && "[::1]".toList.isPrefixOf url.host.toList))

/-- A redirect URI matches exactly, or up to its port when it is a loopback URI. -/
def Client.matchRedirectURI (library : Library) (client : Client) (raw : String) : Bool :=
  if raw = "" then false
  else if client.redirectURIs.contains raw then true
  else
    match parseRedirectURI library raw with
    | none => false
    | some request =>
      if !isLoopback request || request.host.toList.getLast? = some ':' then false
      else if request.text ≠ raw || request.rawQuery ≠ "" || request.forceQuery then false
      else
        client.redirectURIs.any fun registered =>
          match library.parseURL registered with
          | none => false
          | some url => isLoopback url && request.scheme = url.scheme &&
              request.hostname = url.hostname && request.escapedPath = url.escapedPath

inductive ClientError
  | unknownClient (clientID : String)
  | unauthorizedClient (clientID : String)
  | redirectURINotAllowed (redirectURI : String)
  deriving DecidableEq, Repr

/-- A registry maps client ids to clients. -/
abbrev ClientRegistry : Type := List (String × Client)

namespace ClientRegistry

def lookup (registry : ClientRegistry) (clientID : String) : Option Client :=
  List.lookup clientID registry

def validate (library : Library) (registry : ClientRegistry) (clientID redirectURI : String) :
    Except ClientError Unit :=
  match registry.lookup clientID with
  | none => .error (.unknownClient clientID)
  | some client =>
    if !client.allows .authorizationCode then .error (.unauthorizedClient clientID)
    else if !client.matchRedirectURI library redirectURI then
      .error (.redirectURINotAllowed redirectURI)
    else .ok ()

/-- A secret is compared through its digest. -/
def authenticate (crypto : Crypto) (registry : ClientRegistry) (clientID presented : String) :
    Bool :=
  match registry.lookup clientID with
  | none => false
  | some client =>
    if client.secret = "" ∨ presented = "" then false
    else crypto.sum256 (bytes client.secret) = crypto.sum256 (bytes presented)

end ClientRegistry

end Tempogate.Oidc
