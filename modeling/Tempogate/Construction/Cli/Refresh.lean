/-
This file defines how commands of the tool renew and replace the token in one token file.
-/

import Tempogate.Construction.Cli.Session
import Tempogate.Foundation.Base64

namespace Tempogate.Cli

open Foundation Oidc

def refreshSkew : Time := 5 * minute

inductive LoadError
  | noToken
  | failed (message : String)
  deriving DecidableEq, Repr

inductive CommandError
  | load (error : LoadError)
  | failed (message : String)
  deriving DecidableEq, Repr

structure TokenResponse where
  accessToken : String
  refreshToken : String
  expiresIn : Int
  deriving DecidableEq, Repr

/-- These are the steps of a command that another process can see or that depend on the outside. -/
inductive FileCall
  | now
  | load
  | openLock
  | tryLock
  | overdue
  | pause
  | closeLock
  | exchange (refreshToken clientID : String)
  | save (token : Token)
  | signIn
  deriving DecidableEq

def FileCall.Answer : FileCall → Type
  | .now => Time
  | .load => Except LoadError Token
  | .openLock => Except String Unit
  | .tryLock => Except String Bool
  | .overdue => Bool
  | .pause => Except String Unit
  | .closeLock => Unit
  | .exchange _ _ => Except String TokenResponse
  | .save _ => Except String Unit
  | .signIn => Except String Token

def fileCalls : Signature := ⟨FileCall, FileCall.Answer⟩

abbrev Command (Result : Type) : Type := Program fileCalls Result

def ask (call : FileCall) : Command call.Answer := @Program.call fileCalls call

/-- The audience of an access token is kept as it was written. -/
structure IssuedClaims where
  clientID : String
  aud : List UInt8

/-- JSON, the folding of case and the IP literals belong to the standard library. The rounds bound
the polls of the lock before its timeout. -/
structure RefreshConfig where
  library : Library
  equalFold : String → String → Bool
  isLoopbackIP : String → Bool
  unmarshalClaims : List UInt8 → Option IssuedClaims
  unmarshalString : List UInt8 → Option String
  unmarshalStrings : List UInt8 → Option (List String)
  issuer : String
  insecure : Bool
  skew : Time
  rounds : Nat

namespace RefreshConfig

variable (config : RefreshConfig)

def isLoopbackHost (host : String) : Bool :=
  config.equalFold host "localhost" || config.isLoopbackIP host

def checkIssuer : Except String Unit :=
  match config.library.parseURL config.issuer with
  | none => .error ("cli: invalid issuer " ++ config.issuer)
  | some url =>
    if url.host = "" then
      .error ("cli: invalid issuer " ++ config.issuer ++ ": want an absolute https:// URL")
    else if config.library.toLower url.scheme = "https" then .ok ()
    else if config.library.toLower url.scheme = "http" then
      if config.insecure || config.isLoopbackHost url.hostname then .ok ()
      else .error ("cli: issuer uses plain http to a non-loopback host: " ++ config.issuer ++
        "; use https, or pass --insecure if this is a trusted development network")
    else .error ("cli: invalid issuer " ++ config.issuer ++ ": scheme must be https")

/-- A failure to take the lock closes the lock file. -/
def giveUp (message : String) : Command (Except String Unit) := do
  let _ ← ask .closeLock
  return .error message

/-- Each round tries once and then waits. -/
def pollLock : Nat → Command (Except String Unit)
  | 0 => giveUp "cli: timed out waiting for the token refresh lock"
  | rounds + 1 => do
      let taken : Except String Bool ← ask .tryLock
      match taken with
      | .error cause => giveUp ("cli: lock: " ++ cause)
      | .ok true => return .ok ()
      | .ok false =>
      let overdue : Bool ← ask .overdue
      if overdue then
        giveUp "cli: timed out waiting for the token refresh lock"
      else
        let waited : Except String Unit ← ask .pause
        match waited with
        | .error cause => giveUp ("cli: waiting for token refresh lock: " ++ cause)
        | .ok () => pollLock rounds

def lockTokenFile : Command (Except String Unit) := do
  let opened : Except String Unit ← ask .openLock
  match opened with
  | .error cause => return .error ("cli: open token lock file: " ++ cause)
  | .ok () => pollLock config.rounds

/-- A token is used until shortly before it expires. -/
def fresh (moment : Time) (token : Token) : Bool := moment < token.expiresAt - config.skew

/-- An answer without a refresh token keeps the one that was presented. -/
def refreshed (token : Token) (clientID : String) (response : TokenResponse) (moment : Time) :
    Token where
  accessToken := response.accessToken
  refreshToken := if response.refreshToken = "" then token.refreshToken else response.refreshToken
  expiresAt := moment + response.expiresIn * second
  clientID := clientID

def exchangeAndSave (token : Token) (clientID : String) : Command (Except CommandError Token) := do
  let answer : Except String TokenResponse ← ask (.exchange token.refreshToken clientID)
  match answer with
  | .error cause => return .error (.failed ("cli: refresh failed: " ++ cause))
  | .ok response =>
  let moment : Time ← ask .now
  let renewed := refreshed token clientID response moment
  let saved : Except String Unit ← ask (.save renewed)
  match saved with
  | .error cause => return .error (.failed cause)
  | .ok () => return .ok renewed

/-- An older file leaves the client to its access token, which must name exactly one. -/
def issuedTo (jwt : String) : String :=
  match split jwt '.' with
  | [_, part, _] =>
    match (Base64.rawURLEncoding.decode part).bind config.unmarshalClaims with
    | none => ""
    | some claims =>
      if claims.clientID ≠ "" then claims.clientID
      else match config.unmarshalString claims.aud, config.unmarshalStrings claims.aud with
        | some one, _ => one
        | none, some [one] => one
        | none, _ => ""
  | _ => ""

/-- The file is read again under the lock, because another process may have renewed the token. -/
def renew : Command (Except CommandError Token) := do
  let loaded : Except LoadError Token ← ask .load
  match loaded with
  | .error error => return .error (.load error)
  | .ok token =>
  let moment : Time ← ask .now
  if config.fresh moment token then
    return .ok token
  if token.refreshToken = "" then
    return .error (.failed "cli: token is expiring and has no refresh token; run `tempogate login`")
  let clientID := if token.clientID = "" then config.issuedTo token.accessToken
    else token.clientID
  if clientID = "" then
    return .error (.failed "cli: token file does not record its client_id; run `tempogate login`")
  exchangeAndSave token clientID

/-- Every return under the lock releases it. -/
def ensureFresh : Command (Except CommandError Token) := do
  match config.checkIssuer with
  | .error message => return .error (.failed message)
  | .ok () =>
  let loaded : Except LoadError Token ← ask .load
  match loaded with
  | .error error => return .error (.load error)
  | .ok token =>
  let moment : Time ← ask .now
  if config.fresh moment token then
    return .ok token
  match ← config.lockTokenFile with
  | .error message => return .error (.failed message)
  | .ok () =>
  let result ← config.renew
  let _ ← ask .closeLock
  return result

end RefreshConfig

/-- A login saves the token of its sign-in and takes no lock. -/
def login : Command (Except CommandError Token) := do
  let signedIn : Except String Token ← ask .signIn
  match signedIn with
  | .error cause => return .error (.failed cause)
  | .ok token =>
  let saved : Except String Unit ← ask (.save token)
  match saved with
  | .error cause => return .error (.failed cause)
  | .ok () => return .ok token

inductive CommandLine
  | ensureFresh (config : RefreshConfig)
  | login

def CommandLine.run : CommandLine → Command (Except CommandError Token)
  | .ensureFresh config => config.ensureFresh
  | .login => Cli.login

def CommandLine.logsIn : CommandLine → Bool
  | .ensureFresh _ => false
  | .login => true

/-- The disk has the token file and the process that holds the refresh lock. -/
structure Disk where
  file : Option Token
  holder : Option Nat
  deriving DecidableEq, Repr

/-- The lock is exclusive, and a rename replaces the file at once. -/
inductive Happens (process : Nat) (disk : Disk) :
    (call : FileCall) → call.Answer → Disk → Prop
  | now {moment : Time} : Happens process disk .now moment disk
  | loaded {token : Token} (present : disk.file = some token) :
      Happens process disk .load (.ok token) disk
  | missing (absent : disk.file = none) : Happens process disk .load (.error .noToken) disk
  | loadFailed {message : String} : Happens process disk .load (.error (.failed message)) disk
  | openLock {answer : Except String Unit} : Happens process disk .openLock answer disk
  | locked (free : disk.holder = none) :
      Happens process disk .tryLock (.ok true) { disk with holder := some process }
  | busy {other : Nat} (held : disk.holder = some other) :
      Happens process disk .tryLock (.ok false) disk
  | lockFailed {message : String} : Happens process disk .tryLock (.error message) disk
  | overdue {answer : Bool} : Happens process disk .overdue answer disk
  | pause {answer : Except String Unit} : Happens process disk .pause answer disk
  | closeLock : Happens process disk .closeLock ()
      { disk with holder := if disk.holder = some process then none else disk.holder }
  | exchange {refreshToken clientID : String} {answer : Except String TokenResponse} :
      Happens process disk (.exchange refreshToken clientID) answer disk
  | saved {token : Token} : Happens process disk (.save token) (.ok ())
      { disk with file := some token }
  | saveFailed {token : Token} {message : String} :
      Happens process disk (.save token) (.error message) disk
  | signIn {answer : Except String Token} : Happens process disk .signIn answer disk

def fileWorld : World fileCalls Disk :=
  fun _ disk event after => Happens event.process disk event.effect event.answer after

abbrev Shell : Type := Configuration fileCalls Disk (Except CommandError Token)

variable (commands : Nat → CommandLine)

variable (file : Option Token)

/-- Every command is about to begin, and nobody holds the lock. -/
def shell : Shell :=
  .initial ⟨file, none⟩ fun process => (commands process).run

end Tempogate.Cli
