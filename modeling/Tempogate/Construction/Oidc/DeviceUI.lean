/-
This file defines the browser sessions, the pages of the device flow and the values that bind an
upstream sign-in to a connector and to a browser.
-/

import Tempogate.Construction.Device.Codes

namespace Tempogate.Oidc

open Foundation Device

/-- Session ids are random and never empty. -/
structure SID where
  text : String
  nonempty : text ≠ ""
  deriving DecidableEq

structure BrowserSession where
  sid : SID
  connectorID : String
  subject : String
  email : String
  createdAt : Time
  expiresAt : Time
  deriving DecidableEq

/-- Attempts at a user code are limited for each client address and for each session. -/
inductive Budget
  | address
  | session
  deriving DecidableEq, Repr

/-- These calls reach the clock and the two limiters. -/
inductive DeskCall
  | now
  | allow (budget : Budget) (key : String)
  | refund (budget : Budget) (key : String)
  deriving DecidableEq

def DeskCall.Answer : DeskCall → Type
  | .now => Time
  | .allow _ _ => Bool
  | .refund _ _ => Unit

def deskCalls : Signature := ⟨DeskCall, DeskCall.Answer⟩

/-- These calls reach the stores, the random source and the resolver. -/
inductive PageCall
  | lookupBrowserSession (sid : String)
  | newStateNonce
  | lookupDeviceCodeByUserCode (userCode : String)
  | approveDeviceCode (userCode : String) (identity : Identity) (moment : Time)
  | denyDeviceCode (userCode : String) (moment : Time)
  | resolve (email : String)
  deriving DecidableEq

def PageCall.Answer : PageCall → Type
  | .lookupBrowserSession _ => Except String (Option BrowserSession)
  | .newStateNonce => Except String String
  | .lookupDeviceCodeByUserCode _ => Except StoreError DeviceCode
  | .approveDeviceCode _ _ _ => Except DecisionError Unit
  | .denyDeviceCode _ _ => Except DecisionError Unit
  | .resolve _ => Except String (Option Perms.Grant)

def pageCalls : Signature := ⟨PageCall, PageCall.Answer⟩

def deviceUICalls : Signature := deskCalls.sum pageCalls

abbrev DeviceHandler (Result : Type) : Type := Program deviceUICalls Result

def desk (call : DeskCall) : DeviceHandler call.Answer := @Program.call deviceUICalls (.inl call)

def reach (call : PageCall) : DeviceHandler call.Answer := @Program.call deviceUICalls (.inr call)

structure BounceState where
  userCode : String
  nonce : String
  exp : Int
  deriving DecidableEq, Repr

/-- These are the standard library's parsers and encoders that the device pages use. -/
structure Codec where
  cookie : String → String → Option String
  parseQuery : String → Option Form
  queryEscape : String → String
  equalFold : String → String → Bool
  encodeQuery : Form → String
  rawURLDecode : String → Option (List UInt8)
  ofBytes : List UInt8 → String
  marshal : BounceState → List UInt8
  unmarshal : List UInt8 → Option BounceState

def macLabelSessionCookie : String := "tempogate/session-cookie"

def macLabelDeviceBounceState : String := "tempogate/device/bounce-state"

variable (crypto : Crypto)

/-- A zero byte ends the label. -/
def labeledMAC (key : List UInt8) (label : String) (message : List UInt8) : List UInt8 :=
  crypto.hmac key (bytes label ++ 0 :: message)

/-- A signed text is its payload, a dot and the code of the payload. -/
def sealText (key : List UInt8) (label : String) (payload : List UInt8) : String :=
  crypto.rawURLEncode payload ++ "." ++ crypto.rawURLEncode (labeledMAC crypto key label payload)

/-- The first dot separates the two halves. -/
def splitSeal (signed : String) : Option (String × String) :=
  let payload := signed.toList.takeWhile (· ≠ '.')
  match signed.toList.dropWhile (· ≠ '.') with
  | [] => none
  | _ :: code => some (String.ofList payload, String.ofList code)

/-- Both halves are decoded before the code is compared. -/
def openSeal (codec : Codec) (key : List UInt8) (label signed : String) :
    Except String (List UInt8) :=
  match splitSeal signed with
  | none => .error "malformed state"
  | some (payload, code) =>
    if payload = "" ∨ code = "" then .error "malformed state"
    else match codec.rawURLDecode payload, codec.rawURLDecode code with
      | some raw, some mac =>
        if mac = labeledMAC crypto key label raw then .ok raw else .error "bad state mac"
      | _, _ => .error "illegal base64 data"

structure SessionManager where
  crypto : Crypto
  codec : Codec
  signingKey : List UInt8
  cookieName : String

inductive SessionError
  | noSession
  | failure (message : String)
  deriving DecidableEq, Repr

namespace SessionManager

variable (manager : SessionManager)

def signCookie (sid : String) : String :=
  sealText manager.crypto manager.signingKey macLabelSessionCookie (bytes sid)

def verifyCookie (value : String) : Option String :=
  match openSeal manager.crypto manager.codec manager.signingKey macLabelSessionCookie value with
  | .error _ => none
  | .ok raw => some (manager.codec.ofBytes raw)

def sidFromRequest (cookie : String) : Option String :=
  (manager.codec.cookie cookie manager.cookieName).bind manager.verifyCookie

/-- Every way of having no session gives the same error. -/
def get (cookie : String) : DeviceHandler (Except SessionError BrowserSession) := do
  match manager.sidFromRequest cookie with
  | none => return .error .noSession
  | some sid =>
  match ← reach (.lookupBrowserSession sid) with
  | .error cause => return .error (.failure ("oidc: lookup browser session: " ++ cause))
  | .ok none => return .error .noSession
  | .ok (some session) =>
  let moment : Time ← desk .now
  if ¬ moment < session.expiresAt ∨ session.subject = "" then
    return .error .noSession
  return .ok session

end SessionManager

def devicePath : String := "/device"

def deviceSSOCallbackPath : String := devicePath ++ "/sso-callback"

def deviceConfirmPath : String := devicePath ++ "/confirm"

def authorizePath : String := "/authorize"

def deviceStateTTL : Time := 10 * minute

def userCodeLen : Nat := 8

def msgUnusableUserCode : String :=
  "That code is not valid. Check the code on your device and try again, or restart the sign-in from your device."

def msgMalformed : String :=
  "Your submission was malformed. Please return to your device and try again."

def msgNotCompleted : String :=
  "That sign-in could not be completed. Restart the sign-in from your device."

/-- Letters become upper case, digits stay and everything else goes. -/
def canonicalUserCode (raw : String) : String :=
  String.ofList (raw.toList.filterMap fun char =>
    if 'a' ≤ char ∧ char ≤ 'z' then some (Char.ofNat (char.toNat - 32))
    else if ('A' ≤ char ∧ char ≤ 'Z') ∨ ('0' ≤ char ∧ char ≤ '9') then some char
    else none)

def formatUserCode (canonical : String) : String :=
  let half := userCodeLen / 2
  if canonical.toList.length ≤ half then canonical
  else String.ofList (canonical.toList.take half) ++ "-" ++
    String.ofList (canonical.toList.drop half)

def userCodeAlphabet : String := "BCDFGHJKLMNPQRSTVWXZ3479"

def userCodeRandRejectionCap : Nat := 240

def userCodeLetter (byte : UInt8) : Char :=
  userCodeAlphabet.toList.getD (byte.toNat % userCodeAlphabet.length) ' '

/-- The bytes of one read that are below the cap add to the code until it is full. -/
def drawUserCode (out : List Char) : List UInt8 → List Char
  | [] => out
  | byte :: rest =>
    if userCodeLen ≤ out.length then out
    else if userCodeRandRejectionCap ≤ byte.toNat then drawUserCode out rest
    else drawUserCode (out ++ [userCodeLetter byte]) rest

/-- A read fills 16 bytes or fails. There is no answer while the code needs another read. -/
def randomUserCode (out : List Char) (reads : List (Except String (Vector UInt8 16))) :
    Option (Except String String) :=
  if userCodeLen ≤ out.length then some (.ok (String.ofList out))
  else match reads with
    | [] => none
    | .error cause :: _ => some (.error cause)
    | .ok buffer :: reads => randomUserCode (drawUserCode out buffer.toList) reads

def trimRightSlash (text : String) : String :=
  String.ofList (text.toList.reverse.dropWhile (· = '/')).reverse

def unix (moment : Time) : Int := moment / second

/-- A page tells its reader one thing, and a redirect may set the session cookie. -/
inductive Page
  | enter (prefilledUserCode : String)
  | error (reason : String)
  | tooManyAttempts
  | noAccess
  | confirm (displayUserCode email csrfToken : String)
  | approved
  | denied
  | redirect (location : String) (setCookie : Option String)
  deriving DecidableEq, Repr

structure DeviceEnterPostInput where
  cookie : String
  rawBody : String

structure DeviceConfirmInput where
  userCode : String
  cookie : String

structure DeviceDecisionInput where
  cookie : String
  origin : String
  referer : String
  rawBody : String

/-- The handlers share the session manager and the parsed issuer URL.
The path of the issuer is the decoded one. -/
structure DeviceUI where
  crypto : Crypto
  library : Library
  codec : Codec
  sessions : SessionManager
  signingKey : List UInt8
  issuer : String
  issuerURL : URL
  issuerPath : String
  internalClientID : String

namespace DeviceUI

variable (ui : DeviceUI)

def publicPath (path : String) : String := trimRightSlash ui.issuerPath ++ path

def userCodeURL (path canonical : String) : String :=
  ui.publicPath path ++ "?user_code=" ++ ui.codec.queryEscape (formatUserCode canonical)

def confirmRedirect (canonical : String) : String := ui.userCodeURL deviceConfirmPath canonical

def refererAllowed (referer : String) : Bool :=
  match ui.library.parseURL referer with
  | none => false
  | some url =>
    let base := trimRightSlash ui.issuerURL.escapedPath
    !url.hasUser && ui.codec.equalFold url.scheme ui.issuerURL.scheme &&
      ui.codec.equalFold url.host ui.issuerURL.host &&
      (base = "" || url.escapedPath = base ||
        (base ++ "/").toList.isPrefixOf url.escapedPath.toList)

/-- The Referer counts only when the browser sends no Origin. -/
def originAllowed (origin referer : String) : Bool :=
  if origin ≠ "" then origin = ui.issuerURL.scheme ++ "://" ++ ui.issuerURL.host
  else ui.refererAllowed referer

def signBounceState (canonical : String) : DeviceHandler (Except String String) := do
  match ← reach .newStateNonce with
  | .error cause => return .error cause
  | .ok nonce =>
  let moment : Time ← desk .now
  return .ok (sealText ui.crypto ui.signingKey macLabelDeviceBounceState
    (ui.codec.marshal ⟨canonical, nonce, unix (moment + deviceStateTTL)⟩))

def verifyBounceState (signed : String) : DeviceHandler (Except String String) := do
  match openSeal ui.crypto ui.codec ui.signingKey macLabelDeviceBounceState signed with
  | .error cause => return .error cause
  | .ok raw =>
  match ui.codec.unmarshal raw with
  | none => return .error "malformed payload"
  | some payload =>
  let moment : Time ← desk .now
  if unix moment > payload.exp then
    return .error "state expired"
  if canonicalUserCode payload.userCode = "" then
    return .error "state has no user_code"
  return .ok (canonicalUserCode payload.userCode)

variable (address : String)

variable (session : Option SID)

/-- A session that is out of attempts hands the attempt of its address back. -/
def spendUserCodeAttempt : DeviceHandler Bool := do
  let allowed : Bool ← desk (.allow .address address)
  if allowed = false then
    return false
  match session with
  | none => return true
  | some sid =>
  let allowed : Bool ← desk (.allow .session sid.text)
  if allowed = false then
    let _ ← desk (.refund .address address)
    return false
  return true

def refundUserCodeAttempt : DeviceHandler Unit := do
  let _ ← desk (.refund .address address)
  match session with
  | none => return ()
  | some sid => desk (.refund .session sid.text)

def usable (moment : Time) (deviceCode : DeviceCode) : Bool :=
  ¬ (moment > deviceCode.expiresAt ∨ deviceCode.approvedAt.isSome ∨ deviceCode.deniedAt.isSome)

def userCodeUsable (canonical : String) : DeviceHandler (Except String Bool) := do
  let found : Except StoreError DeviceCode ← reach (.lookupDeviceCodeByUserCode canonical)
  match found with
  | .error .deviceCodeNotFound => return .ok false
  | .error _ => return .error "oidc: lookup user_code"
  | .ok deviceCode =>
  let moment : Time ← desk .now
  return .ok (usable moment deviceCode)

/-- A code that is no longer pending needs no denial. -/
def denyForNoAccess (canonical : String) : DeviceHandler (Except String Page) := do
  let moment : Time ← desk .now
  let decided : Except DecisionError Unit ← reach (.denyDeviceCode canonical moment)
  match decided with
  | .error (.failure cause) => return .error ("oidc: device-ui deny for no access: " ++ cause)
  | _ => return .ok .noAccess

/-- No page means that the person may go on. -/
def refuseIfNoAccess (session : BrowserSession) (canonical : String) :
    DeviceHandler (Except String (Option Page)) := do
  let resolved : Except String (Option Perms.Grant) ← reach (.resolve session.email)
  match resolved with
  | .error cause => return .error ("oidc: device-ui resolve permissions: " ++ cause)
  | .ok grant =>
  if grant.any fun grant => !grant.empty then
    return .ok none
  match ← denyForNoAccess canonical with
  | .error cause => return .error cause
  | .ok page => return .ok (some page)

/-- A signed-in browser goes on to the confirm page, and any other to the sign-in. -/
def afterEntry (canonical : String) : DeviceHandler (Except String Page) := do
  if session.isSome then
    return .ok (.redirect (ui.confirmRedirect canonical) none)
  match ← ui.signBounceState canonical with
  | .error cause => return .error ("oidc: sign device-ui bounce state: " ++ cause)
  | .ok state =>
  return .ok (.redirect (ui.issuer ++ authorizePath ++ "?" ++ ui.codec.encodeQuery
    [("response_type", "code"), ("client_id", ui.internalClientID),
      ("redirect_uri", ui.issuer ++ deviceSSOCallbackPath), ("scope", "openid email"),
      ("state", state)]) none)

/-- The lookup of a user code costs an attempt that a usable code gets back. -/
def lookUp (canonical : String)
    (next : DeviceHandler (Except String Page)) : DeviceHandler (Except String Page) := do
  let allowed ← spendUserCodeAttempt address session
  if allowed = false then
    return .ok .tooManyAttempts
  match ← userCodeUsable canonical with
  | .error cause => return .error cause
  | .ok false => return .ok (.error msgUnusableUserCode)
  | .ok true =>
  refundUserCodeAttempt address session
  next

def handleEnterPost (input : DeviceEnterPostInput) : DeviceHandler (Except String Page) := do
  match ui.codec.parseQuery input.rawBody with
  | none => return .ok (.error msgMalformed)
  | some form =>
  let canonical := canonicalUserCode (form.get "user_code")
  if canonical = "" then
    return .ok (.error "Enter the code shown on your device.")
  match ← ui.sessions.get input.cookie with
  | .error (.failure cause) => return .error ("oidc: device-ui session lookup: " ++ cause)
  | .error .noSession => lookUp address none canonical (ui.afterEntry none canonical)
  | .ok session =>
    lookUp address (some session.sid) canonical (ui.afterEntry (some session.sid) canonical)

/-- The prompt is shown only to a person who is granted something. -/
def confirmPage (session : BrowserSession) (canonical : String) :
    DeviceHandler (Except String Page) := do
  match ← refuseIfNoAccess session canonical with
  | .error cause => return .error cause
  | .ok (some page) => return .ok page
  | .ok none =>
  return .ok (.confirm (formatUserCode canonical) session.email session.sid.text)

def handleConfirm (input : DeviceConfirmInput) : DeviceHandler (Except String Page) := do
  let canonical := canonicalUserCode input.userCode
  if canonical = "" then
    return .ok (.error msgNotCompleted)
  match ← ui.sessions.get input.cookie with
  | .error .noSession => return .ok (.redirect (ui.userCodeURL devicePath canonical) none)
  | .error (.failure cause) =>
    return .error ("oidc: device-ui confirm session lookup: " ++ cause)
  | .ok session => lookUp address (some session.sid) canonical (confirmPage session canonical)

variable (approve : Bool)

/-- The person who signed in approves or denies. -/
def flipDeviceCode (session : BrowserSession) (canonical : String) (moment : Time)
    : DeviceHandler (Except DecisionError Unit) :=
  if approve then
    reach (.approveDeviceCode canonical
      ⟨session.connectorID, session.subject, session.email⟩ moment)
  else reach (.denyDeviceCode canonical moment)

/-- The decision itself tells whether the code was pending. -/
def decide (session : BrowserSession) (canonical : String) :
    DeviceHandler (Except String Page) := do
  let moment : Time ← desk .now
  match ← flipDeviceCode approve session canonical moment with
  | .error (.failure cause) => return .error ("oidc: device-ui decision flip: " ++ cause)
  | .error _ => return .ok (.error msgUnusableUserCode)
  | .ok () =>
  refundUserCodeAttempt address (some session.sid)
  return .ok (if approve then .approved else .denied)

/-- A refusal returns before the attempt is handed back. -/
def handleDecision (input : DeviceDecisionInput) : DeviceHandler (Except String Page) := do
  if ui.originAllowed input.origin input.referer = false then
    return .ok (.error
      "That request did not come from the expected page. Restart the sign-in from your device.")
  match ui.codec.parseQuery input.rawBody with
  | none => return .ok (.error msgMalformed)
  | some form =>
  match ← ui.sessions.get input.cookie with
  | .error .noSession =>
    return .ok (.error "Your sign-in has expired. Restart the sign-in from your device.")
  | .error (.failure cause) =>
    return .error ("oidc: device-ui decision session lookup: " ++ cause)
  | .ok session =>
  if form.get "csrf_token" ≠ session.sid.text then
    return .ok (.error
      "That submission could not be verified. Restart the sign-in from your device.")
  let canonical := canonicalUserCode (form.get "user_code")
  if canonical = "" then
    return .ok (.error
      "That submission was missing the device code. Restart the sign-in from your device.")
  let allowed ← spendUserCodeAttempt address (some session.sid)
  if allowed = false then
    return .ok .tooManyAttempts
  if approve then
    match ← refuseIfNoAccess session canonical with
    | .error cause => return .error cause
    | .ok (some page) => return .ok page
    | .ok none => decide address approve session canonical
  else decide address approve session canonical

end DeviceUI

inductive ConnectorIDError
  | pattern (id : String)
  | reserved (id : String)

def reservedConnectorIDs : List String := ["key", "tempogate", "system", "local"]

/-- The pattern is `^[a-z][a-z0-9]{0,31}$`. -/
def matchConnectorID (id : String) : Bool :=
  let isLetter (char : Char) : Bool := 'a' ≤ char ∧ char ≤ 'z'
  id.toList.head?.any isLetter && id.toList.length ≤ 32 &&
    id.toList.all fun char => isLetter char || ('0' ≤ char ∧ char ≤ '9')

def validateConnectorID (id : String) : Except ConnectorIDError Unit :=
  if ¬ matchConnectorID id then .error (.pattern id)
  else if id ∈ reservedConnectorIDs then .error (.reserved id)
  else .ok ()

def labelUpstreamVerifier : String := "tempogate/upstream/pkce-verifier\x00"

def labelUpstreamNonce : String := "tempogate/upstream/nonce\x00"

def labelUpstreamRequestID : String := "tempogate/upstream/request-id\x00"

def labelUpstreamBinding : String := "tempogate/upstream/browser-binding\x00"

structure UpstreamBinding where
  crypto : Crypto
  codec : Codec
  key : List UInt8
  secure : Bool
  issuerPath : String
  namePrefix : String

structure UpstreamCookie where
  name : String
  value : String
  path : String
  secure : Bool
  maxAge : Int

namespace UpstreamBinding

variable (binding : UpstreamBinding)

variable (label connectorID : String) (internalState : List UInt8)

/-- The states are any bytes. -/
def mac : List UInt8 :=
  binding.crypto.hmac binding.key (bytes label ++ bytes connectorID ++ 0 :: internalState)

def derive : String :=
  binding.crypto.rawURLEncode (binding.mac label connectorID internalState)

def codeVerifier (connectorID : String) (internalState : List UInt8) : String :=
  binding.derive labelUpstreamVerifier connectorID internalState

def nonce (connectorID : String) (internalState : List UInt8) : String :=
  binding.derive labelUpstreamNonce connectorID internalState

def requestID (connectorID : String) (internalState : List UInt8) : String :=
  "_" ++ binding.crypto.hexEncode (binding.mac labelUpstreamRequestID connectorID internalState)

/-- The first digits of the hash of the state name the cookie. -/
def cookieName : String :=
  let digits := binding.crypto.hexEncode (binding.crypto.sum256 internalState)
  binding.namePrefix ++ String.ofList (digits.toList.take 16)

def cookie (connectorID : String) (internalState : List UInt8) : UpstreamCookie where
  name := binding.cookieName internalState
  value := binding.derive labelUpstreamBinding connectorID internalState
  path := if binding.secure then "/" else binding.issuerPath ++ "/callback/" ++ connectorID
  secure := binding.secure
  maxAge := 300

def boundToBrowser (cookieHeader connectorID : String) (internalState : List UInt8) : Bool :=
  match binding.codec.cookie cookieHeader (binding.cookieName internalState) with
  | none => false
  | some value => value = binding.derive labelUpstreamBinding connectorID internalState

end UpstreamBinding

end Tempogate.Oidc
