/-
This file defines the token endpoint with its grants.
-/

import Tempogate.Construction.Oidc.Calls

namespace Tempogate.Oidc

open Foundation

/-- A handler fails with an OAuth error, with missing permissions or internally. -/
inductive TokenError
  | oauth (status : Nat) (code description : String)
  | noPermissions
  | store (context : String) (error : StoreError)
  | internal (message : String)
  deriving DecidableEq, Repr

def oauthErr (status : Nat) (code description : String) : TokenError :=
  .oauth status code description

structure TokenOutput where
  cacheControl : String
  pragma : String
  accessToken : String
  tokenType : String
  expiresIn : Int
  refreshToken : String
  idToken : String
  deriving DecidableEq, Repr

structure TokenConfig where
  crypto : Crypto
  library : Library
  clients : ClientRegistry
  /-- The clients come from an environment variable, which holds no zero byte. -/
  clientsStorable : ∀ entry ∈ clients, Storable entry.1
  connectors : Option (List String)
  allowedDomains : List String
  deviceCodes : Bool
  accessTTL : Time
  refreshTTL : Time
  refreshMaxLifetime : Time

abbrev Form : Type := List (String × String)

/-- The first value of a field counts, and a missing field is empty. -/
def Form.get (form : Form) (field : String) : String := (List.lookup field form).getD ""

/-- A request carries its form and its HTTP Basic credentials, if it sent any. -/
structure TokenRequest where
  form : Form
  basic : Option (String × String)
  deriving DecidableEq, Repr

def maxClientIDLen : Nat := 256

def maxRedirectURILen : Nat := 2048

def maxCredentialLen : Nat := 1024

/-- The first parameter over its cap is reported. -/
def checkParamLengths : List (String × String × Nat) → Except TokenError Unit
  | [] => .ok ()
  | (name, value, most) :: rest =>
    if (bytes value).length > most then
      .error (oauthErr 400 "invalid_request" (name ++ " exceeds " ++ toString most ++ " bytes"))
    else checkParamLengths rest

def clientCredentials (request : TokenRequest) : String × String :=
  match request.basic with
  | some (clientID, secret) => (clientID, secret)
  | none => (request.form.get "client_id", request.form.get "client_secret")

variable (config : TokenConfig)

def authenticateClient (clientID secret : String) (grant : GrantType) : Except TokenError Client :=
  match config.clients.lookup clientID with
  | none => .error (oauthErr 401 "invalid_client" "unknown client")
  | some client =>
    if (client.secret ≠ "" ∨ secret ≠ "") ∧
        config.clients.authenticate config.crypto clientID secret = false then
      .error (oauthErr 401 "invalid_client" "client authentication failed")
    else if client.allows grant = false then
      .error (oauthErr 400 "unauthorized_client" "client is not registered for this grant type")
    else .ok client

def msgNoAccess : String :=
  "no Temporal access is granted to this account; ask an administrator for access"

def errLegacyGrant (kind : String) : TokenError :=
  oauthErr 400 "invalid_grant" (kind ++ " predates this tempogate version; sign in again")

/-- A person is permitted when the resolver grants them something. -/
def permitted (email : String) : Handler (Except String (Option Perms.Grant)) := do
  match ← resolve email with
  | .error cause => return .error cause
  | .ok none => return .ok none
  | .ok (some grant) => return .ok (if grant.empty then none else some grant)

def revokeFamily (familyID : String) (moment : Time) : Handler (Except TokenError Unit) := do
  match ← revokeRefreshFamily familyID moment with
  | .error error => return .error (.store "oidc: revoke refresh token family" error)
  | .ok _ => return .ok ()

def idTokenTTL : Time := 5 * minute

/-- A refresh token inherits this from the sign-in that started its session. -/
structure Lineage where
  familyID : String
  authTime : Time
  deriving DecidableEq, Repr

def Lineage.zero : Lineage := ⟨"", 0⟩

/-- A lineage without a family starts a new one. -/
def startLineage (lineage : Lineage) (moment : Time) : Handler (Except TokenError Lineage) := do
  if lineage.familyID = "" then
    match ← randomFamilyID with
    | .error cause => return .error (.internal ("oidc: generate refresh token family: " ++ cause))
    | .ok familyID => return .ok ⟨familyID, moment⟩
  else
    return .ok lineage

/-- Rotation renews the idle window but never past the absolute end. -/
def refreshExpiry (lineage : Lineage) (moment : Time) : Time :=
  if lineage.authTime + config.refreshMaxLifetime < moment + config.refreshTTL then
    lineage.authTime + config.refreshMaxLifetime
  else moment + config.refreshTTL

/-- This part of issuing mints both tokens and saves the refresh token. -/
def mintAndSave (identity : Identity) (clientID nonce : String)
    (grant : Perms.Grant) (lineage : Lineage) (moment : Time) :
    Handler (Except TokenError TokenOutput) := do
  let subject := tokenSubject identity.connectorID identity.subject
  match ← mint {
      subject := subject
      permissions := grant.toClaim
      ttl := config.accessTTL
      email := identity.email
      idp := identity.connectorID
      clientID := clientID } with
  | .error cause => return .error (.internal ("oidc: mint access token: " ++ cause))
  | .ok (signed, jti) =>
  match ← mintIDToken {
      subject := subject
      email := identity.email
      idp := identity.connectorID
      audience := clientID
      nonce := nonce
      authTime := lineage.authTime
      ttl := idTokenTTL } with
  | .error cause => return .error (.internal ("oidc: mint id token: " ++ cause))
  | .ok idToken =>
  match ← newRefresh with
  | .error cause => return .error (.internal ("oidc: generate refresh token: " ++ cause))
  | .ok token =>
  match ← saveRefresh {
      token := token
      jti := jti
      clientID := clientID
      connectorID := identity.connectorID
      subject := identity.subject
      email := identity.email
      familyID := lineage.familyID
      authTime := lineage.authTime
      createdAt := moment
      expiresAt := refreshExpiry config lineage moment } with
  | .error (.refreshFamilyRevoked _) =>
    return .error (oauthErr 400 "invalid_grant" "the session has been revoked")
  | .error error => return .error (.store "oidc: persist refresh token" error)
  | .ok () =>
  return .ok {
    cacheControl := "no-store"
    pragma := "no-cache"
    accessToken := signed
    tokenType := "Bearer"
    expiresIn := config.accessTTL.tdiv second
    refreshToken := token
    idToken := idToken }

def issue (identity : Identity) (clientID nonce : String)
    (lineage : Lineage) : Handler (Except TokenError TokenOutput) := do
  match ← permitted identity.email with
  | .error cause => return .error (.internal ("oidc: resolve permissions: " ++ cause))
  | .ok none => return .error .noPermissions
  | .ok (some grant) =>
  let moment ← now
  match ← startLineage lineage moment with
  | .error error => return .error error
  | .ok lineage => mintAndSave config identity clientID nonce grant lineage moment

/-- The domain of an address follows its last at sign. -/
def emailDomain (email : String) : Option String :=
  if email.toList.contains '@' then
    match (email.toList.reverse.takeWhile (· ≠ '@')).reverse with
    | [] => none
    | domain => some (String.ofList domain)
  else none

def emailDomainAllowed (library : Library) (allowed : List String) (email : String) : Bool :=
  match emailDomain email with
  | none => false
  | some domain => allowed.contains (library.toLower domain)

def connectorConfigured (connectorID : String) : Bool :=
  match config.connectors with
  | none => false
  | some connectors => connectors.contains connectorID

/-- This part of the refresh grant runs once its token is consumed. -/
def rotate (refresh : Refresh) (moment : Time) : Handler (Except TokenError TokenOutput) := do
  if moment > refresh.expiresAt then
    return .error (oauthErr 400 "invalid_grant" "refresh token expired")
  if ¬ moment < refresh.authTime + config.refreshMaxLifetime then
    return .error (oauthErr 400 "invalid_grant"
      "session reached its maximum lifetime; sign in again")
  if refresh.subject = "" then
    return .error (errLegacyGrant "refresh token")
  if connectorConfigured config refresh.connectorID = false then
    match ← revokeFamily refresh.familyID moment with
    | .error error => return .error error
    | .ok () => return .error (oauthErr 400 "invalid_grant"
        "the sign-in method of this session is no longer available; sign in again")
  else if emailDomainAllowed config.library config.allowedDomains refresh.email = false then
    match ← revokeFamily refresh.familyID moment with
    | .error error => return .error error
    | .ok () => return .error (oauthErr 400 "invalid_grant" "email domain is no longer allowed")
  else
    match ← issue config ⟨refresh.connectorID, refresh.subject, refresh.email⟩ refresh.clientID ""
        ⟨refresh.familyID, refresh.authTime⟩ with
    | .error .noPermissions =>
      match ← revokeFamily refresh.familyID moment with
      | .error error => return .error error
      | .ok () => return .error (oauthErr 400 "invalid_grant" msgNoAccess)
    | outcome => return outcome

variable (request : TokenRequest)

def refreshTokenGrant : Handler (Except TokenError TokenOutput) := do
  let token := request.form.get "refresh_token"
  if token = "" then
    return .error (oauthErr 400 "invalid_request" "refresh_token is required")
  let (clientID, secret) := clientCredentials request
  match authenticateClient config clientID secret .refreshToken with
  | .error error => return .error error
  | .ok _ =>
  let moment ← now
  match ← consumeRefresh token clientID moment with
  | .error (.refreshReused refresh) =>
    match ← revokeFamily refresh.familyID moment with
    | .error error => return .error error
    | .ok () => return .error (oauthErr 400 "invalid_grant"
        "refresh token already used; the session has been revoked")
  | .error .refreshNotFound =>
    return .error (oauthErr 400 "invalid_grant" "unknown, revoked, or other client's refresh token")
  | .error error => return .error (.store "oidc: consume refresh token" error)
  | .ok refresh => rotate config refresh moment

structure AuthCodeRedemptionRequest where
  code : String
  clientID : String
  redirectURI : String
  codeVerifier : String
  clientSecret : String
  deriving DecidableEq, Repr

structure AuthCodeRedemption where
  identity : Identity
  clientID : String
  nonce : String
  familyID : String
  deriving DecidableEq, Repr

/-- The verifier belongs to the challenge of the code. -/
def verifyPKCE (crypto : Crypto) (verifier challenge : String) : Bool :=
  crypto.rawURLEncode (crypto.sum256 (bytes verifier)) = challenge

def unreserved (byte : UInt8) : Bool :=
  (65 ≤ byte && byte ≤ 90) || (97 ≤ byte && byte ≤ 122) || (48 ≤ byte && byte ≤ 57) ||
    byte = 45 || byte = 46 || byte = 95 || byte = 126

def validCodeVerifier (verifier : String) : Bool :=
  43 ≤ (bytes verifier).length && (bytes verifier).length ≤ 128 && (bytes verifier).all unreserved

def errUnknownCode : TokenError :=
  oauthErr 400 "invalid_grant" "unknown or already-redeemed authorization code"

/-- These checks of a consumed code decide whether it is redeemed. -/
def checkAuthCode (client : Client) (request : AuthCodeRedemptionRequest)
    (authCode : AuthCode) (moment : Time) : Except TokenError Unit :=
  if moment > authCode.expiresAt then
    .error (oauthErr 400 "invalid_grant" "authorization code expired")
  else if authCode.subject = "" then .error (errLegacyGrant "authorization code")
  else if request.clientID ≠ authCode.clientID then
    .error (oauthErr 400 "invalid_grant" "client_id does not match the authorization request")
  else if request.redirectURI ≠ authCode.redirectURI then
    .error (oauthErr 400 "invalid_grant" "redirect_uri does not match the authorization request")
  else if authCode.codeChallenge ≠ "" then
    if request.codeVerifier = "" then
      .error (oauthErr 400 "invalid_grant" "code_verifier is required (PKCE)")
    else if verifyPKCE config.crypto request.codeVerifier authCode.codeChallenge = false then
      .error (oauthErr 400 "invalid_grant" "PKCE verification failed")
    else .ok ()
  else if client.secret = "" then
    .error (oauthErr 400 "invalid_grant" "authorization code is not bound to a PKCE challenge")
  else .ok ()

/-- These checks precede the consumption of a code. -/
def checkRedemption (request : AuthCodeRedemptionRequest) : Except TokenError Client :=
  if request.code = "" then
    .error (oauthErr 400 "invalid_request" "code is required")
  else
    match authenticateClient config request.clientID request.clientSecret .authorizationCode with
    | .error error => .error error
    | .ok client =>
      if client.secret = "" ∧ request.codeVerifier = "" then
        .error (oauthErr 400 "invalid_request" "code_verifier is required (PKCE)")
      else if request.codeVerifier ≠ "" ∧ validCodeVerifier request.codeVerifier = false then
        .error (oauthErr 400 "invalid_request"
          "code_verifier must be 43-128 characters of [A-Za-z0-9-._~] (RFC 7636)")
      else .ok client

/-- A consumed code is redeemed or refused. -/
def settle (client : Client) (request : AuthCodeRedemptionRequest)
    (familyID : String) (moment : Time) :
    Except StoreError AuthCode → Handler (Except TokenError AuthCodeRedemption)
  | .error (.authCodeReused authCode) => do
      if authCode.familyID ≠ "" then
        match ← revokeFamily authCode.familyID moment with
        | .error error => return .error error
        | .ok () => return .error errUnknownCode
      else return .error errUnknownCode
  | .error .authCodeNotFound => return .error errUnknownCode
  | .error error => return .error (.store "oidc: consume auth code" error)
  | .ok authCode =>
    match checkAuthCode config client request authCode moment with
    | .error error => return .error error
    | .ok () => return .ok {
        identity := ⟨authCode.connectorID, authCode.subject, authCode.email⟩
        clientID := authCode.clientID
        nonce := authCode.nonce
        familyID := familyID }

def redeemAuthorizationCode (request : AuthCodeRedemptionRequest) :
    Handler (Except TokenError AuthCodeRedemption) := do
  match checkRedemption config request with
  | .error error => return .error error
  | .ok client =>
  match ← randomFamilyID with
  | .error cause => return .error (.internal ("oidc: generate refresh token family: " ++ cause))
  | .ok familyID =>
  let moment ← now
  settle config client request familyID moment (← consumeAuthCode request.code familyID moment)

def redemptionRequest : AuthCodeRedemptionRequest where
  code := request.form.get "code"
  clientID := (clientCredentials request).1
  redirectURI := request.form.get "redirect_uri"
  codeVerifier := request.form.get "code_verifier"
  clientSecret := (clientCredentials request).2

/-- A redeemed code is answered with tokens if the person is permitted. -/
def answerRedeemed :
    Except TokenError AuthCodeRedemption → Handler (Except TokenError TokenOutput)
  | .error error => return .error error
  | .ok redemption => do
      let authTime ← now
      match ← issue config redemption.identity redemption.clientID redemption.nonce
          ⟨redemption.familyID, authTime⟩ with
      | .error .noPermissions => return .error (oauthErr 400 "invalid_grant" msgNoAccess)
      | outcome => return outcome

def authorizationCodeGrant : Handler (Except TokenError TokenOutput) := do
  answerRedeemed config (← redeemAuthorizationCode config (redemptionRequest request))

def errUnknownDeviceCode : TokenError :=
  oauthErr 400 "invalid_grant" "unknown or already-consumed device_code"

/-- This part of the device grant runs once the person has approved. -/
def redeemDeviceCode (deviceCode : String) : Handler (Except TokenError TokenOutput) := do
  match ← consumeDeviceCode deviceCode with
  | .error .deviceCodeNotFound =>
    return .error (oauthErr 400 "invalid_grant" "device_code already consumed")
  | .error error => return .error (.store "oidc: consume device code" error)
  | .ok final =>
  if final.subject = "" then
    return .error (errLegacyGrant "device code")
  match ← issue config ⟨final.connectorID, final.subject, final.email⟩ final.clientID "" .zero with
  | .error .noPermissions => return .error (oauthErr 400 "access_denied" msgNoAccess)
  | outcome => return outcome

def deviceCodeGrant : Handler (Except TokenError TokenOutput) := do
  if config.deviceCodes = false then
    return .error (oauthErr 400 "unsupported_grant_type"
      "device_code grant is not enabled on this server")
  let deviceCode := request.form.get "device_code"
  if deviceCode = "" then
    return .error (oauthErr 400 "invalid_request" "device_code is required")
  let (clientID, secret) := clientCredentials request
  if clientID = "" then
    return .error (oauthErr 400 "invalid_request" "client_id is required")
  match authenticateClient config clientID secret .deviceCode with
  | .error error => return .error error
  | .ok _ =>
  match ← lookupDeviceCodeByDeviceCode deviceCode with
  | .error .deviceCodeNotFound => return .error errUnknownDeviceCode
  | .error error => return .error (.store "oidc: lookup device code" error)
  | .ok found =>
  if clientID ≠ found.clientID then
    return .error (oauthErr 401 "invalid_client"
      "client_id does not match the device authorization request")
  let moment ← now
  match ← pollDeviceCode deviceCode moment with
  | .error .deviceCodeNotFound => return .error errUnknownDeviceCode
  | .error error => return .error (.store "oidc: record device code poll" error)
  | .ok true =>
    return .error (oauthErr 400 "slow_down" "polling faster than the agreed interval")
  | .ok false =>
  if moment > found.expiresAt then
    let _ ← consumeDeviceCode deviceCode
    return .error (oauthErr 400 "expired_token" "device_code expired")
  if found.deniedAt.isSome then
    let _ ← consumeDeviceCode deviceCode
    return .error (oauthErr 400 "access_denied" "the device authorization request was denied")
  if found.approvedAt.isNone then
    return .error (oauthErr 400 "authorization_pending"
      "user has not yet completed the device authorization")
  redeemDeviceCode config deviceCode

/-- The token endpoint checks these lengths first. -/
def checkLengths : Except TokenError Unit :=
  checkParamLengths [ ("client_id", request.form.get "client_id", maxClientIDLen),
    ("redirect_uri", request.form.get "redirect_uri", maxRedirectURILen),
    ("code", request.form.get "code", maxCredentialLen),
    ("code_verifier", request.form.get "code_verifier", maxCredentialLen),
    ("refresh_token", request.form.get "refresh_token", maxCredentialLen),
    ("device_code", request.form.get "device_code", maxCredentialLen)]

def dispatch : Handler (Except TokenError TokenOutput) :=
  match checkLengths request with
  | .error error => return .error error
  | .ok () =>
  match request.form.get "grant_type" with
  | "authorization_code" => authorizationCodeGrant config request
  | "refresh_token" => refreshTokenGrant config request
  | "urn:ietf:params:oauth:grant-type:device_code" => deviceCodeGrant config request
  | "" => return .error (oauthErr 400 "invalid_request" "grant_type is required")
  | _ => return .error (oauthErr 400 "unsupported_grant_type"
      "only authorization_code, refresh_token, and urn:ietf:params:oauth:grant-type:device_code are supported")

end Tempogate.Oidc
