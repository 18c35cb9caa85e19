/-
This file defines the stored rows and the statements that both backends share.
-/

import Tempogate.Construction.Oidc.Types
import Tempogate.Foundation.Program
import Tempogate.Foundation.Table

namespace Tempogate.State

open Oidc Foundation Program

structure RefreshRow where
  tokenHash : String
  jti : String
  clientID : String
  connectorID : String
  subject : String
  email : String
  familyID : String
  authTime : Time
  createdAt : Time
  expiresAt : Time
  consumedAt : Option Time
  revokedAt : Option Time
  deriving DecidableEq, Repr

namespace RefreshRow

/-- A saved token starts live. -/
def ofRefresh (crypto : Crypto) (refresh : Refresh) : RefreshRow where
  tokenHash := crypto.hash refresh.token
  jti := refresh.jti
  clientID := refresh.clientID
  connectorID := refresh.connectorID
  subject := refresh.subject
  email := refresh.email
  familyID := refresh.familyID
  authTime := refresh.authTime
  createdAt := refresh.createdAt
  expiresAt := refresh.expiresAt
  consumedAt := none
  revokedAt := none

variable (row : RefreshRow)

/-- The insert list leaves out both stamps, so they start empty. -/
def inserted : RefreshRow :=
  { row with consumedAt := none, revokedAt := none }

/-- The stores return the fields of a row with the presented token. -/
def scanRefresh (token : String) : Refresh where
  token := token
  jti := row.jti
  clientID := row.clientID
  connectorID := row.connectorID
  subject := row.subject
  email := row.email
  familyID := row.familyID
  authTime := row.authTime
  createdAt := row.createdAt
  expiresAt := row.expiresAt

def live : Bool :=
  row.consumedAt.isNone && row.revokedAt.isNone

variable (moment : Time) (row : RefreshRow)

def consume : RefreshRow :=
  { row with consumedAt := some moment }

def revoke : RefreshRow :=
  { row with revokedAt := some moment }

theorem tokenHash_consume : (row.consume moment).tokenHash = row.tokenHash := rfl

theorem tokenHash_revoke : (row.revoke moment).tokenHash = row.tokenHash := rfl

end RefreshRow

/-- These are the texts that an insert of the row is given beside the hash, which is hexadecimal. -/
def RefreshRow.texts (row : RefreshRow) : List String :=
  [row.jti, row.clientID, row.connectorID, row.subject, row.email, row.familyID]

/-- This is the stores' `lower`, which folds ASCII letters only. -/
def lower (text : String) : String :=
  String.ofList (text.toList.map Char.toLower)

/-- A selector is one of the constant predicates of the revocation methods. -/
inductive Selector
  | family (familyID : String)
  | email (address : String)
  | subject (connectorID upstream : String)
  deriving DecidableEq, Repr

def Selector.selects : Selector → RefreshRow → Bool
  | .family familyID, row => row.familyID = familyID
  | .email address, row => lower row.email = lower address
  | .subject connectorID upstream, row => row.connectorID = connectorID && row.subject = upstream

def Selector.texts : Selector → List String
  | .family familyID => [familyID]
  | .email address => [address]
  | .subject connectorID upstream => [connectorID, upstream]

structure AuthCodeRow where
  codeHash : String
  clientID : String
  redirectURI : String
  connectorID : String
  subject : String
  email : String
  scope : String
  codeChallenge : String
  codeChallengeMethod : String
  nonce : String
  familyID : String
  consumedAt : Option Time
  createdAt : Time
  expiresAt : Time
  deriving DecidableEq, Repr

namespace AuthCodeRow

def ofAuthCode (crypto : Crypto) (authCode : AuthCode) : AuthCodeRow where
  codeHash := crypto.hash authCode.code
  clientID := authCode.clientID
  redirectURI := authCode.redirectURI
  connectorID := authCode.connectorID
  subject := authCode.subject
  email := authCode.email
  scope := authCode.scope
  codeChallenge := authCode.codeChallenge
  codeChallengeMethod := authCode.codeChallengeMethod
  nonce := authCode.nonce
  familyID := ""
  consumedAt := none
  createdAt := authCode.createdAt
  expiresAt := authCode.expiresAt

variable (row : AuthCodeRow)

/-- The insert list leaves out the family and the stamp of the redemption. -/
def inserted : AuthCodeRow :=
  { row with familyID := "", consumedAt := none }

/-- The consuming statement returns every field. -/
def scanConsumed (code : String) : AuthCode where
  code := code
  clientID := row.clientID
  redirectURI := row.redirectURI
  connectorID := row.connectorID
  subject := row.subject
  email := row.email
  scope := row.scope
  codeChallenge := row.codeChallenge
  codeChallengeMethod := row.codeChallengeMethod
  nonce := row.nonce
  familyID := row.familyID
  createdAt := row.createdAt
  expiresAt := row.expiresAt

/-- The tombstone lookup leaves out the scope, the challenge and the nonce. -/
def scanTombstone (code : String) : AuthCode :=
  { row.scanConsumed code with
    scope := "", codeChallenge := "", codeChallengeMethod := "", nonce := "" }

def consume (familyID : String) (moment : Time) (row : AuthCodeRow) : AuthCodeRow :=
  { row with consumedAt := some moment, familyID := familyID }

theorem codeHash_consume (familyID : String) (moment : Time) (row : AuthCodeRow) :
    (row.consume familyID moment).codeHash = row.codeHash := rfl

end AuthCodeRow

structure DeviceCodeRow where
  deviceCodeHash : String
  userCode : String
  clientID : String
  scope : String
  connectorID : Option String
  subject : Option String
  email : Option String
  approvedAt : Option Time
  deniedAt : Option Time
  lastPolledAt : Option Time
  intervalSeconds : Int
  createdAt : Time
  expiresAt : Time
  deriving DecidableEq, Repr

namespace DeviceCodeRow

def scan (row : DeviceCodeRow) (code : String) : DeviceCode where
  code := code
  userCode := row.userCode
  clientID := row.clientID
  scope := row.scope
  connectorID := row.connectorID.getD ""
  subject := row.subject.getD ""
  email := row.email.getD ""
  approvedAt := row.approvedAt
  deniedAt := row.deniedAt
  lastPolledAt := row.lastPolledAt
  intervalSeconds := row.intervalSeconds
  createdAt := row.createdAt
  expiresAt := row.expiresAt

end DeviceCodeRow

inductive AuthCodeStatement
  | insertAuthCode (row : AuthCodeRow)
  | updateConsumed (codeHash familyID : String) (moment : Time)
  | selectConsumed (codeHash : String)
  deriving DecidableEq

namespace AuthCodeStatement

def Reply : AuthCodeStatement → Type
  | insertAuthCode _ => Option Nat
  | updateConsumed _ _ _ | selectConsumed _ => Option AuthCodeRow

def consumable (codeHash : String) (row : AuthCodeRow) : Bool :=
  row.codeHash = codeHash && row.consumedAt.isNone

def consumed (codeHash : String) (row : AuthCodeRow) : Bool :=
  row.codeHash = codeHash && row.consumedAt.isSome

def execute : (statement : AuthCodeStatement) → Table AuthCodeRow.codeHash →
    statement.Reply × Table AuthCodeRow.codeHash
  | insertAuthCode row, table =>
    match table.insert row.inserted with
    | some after => (some 1, after)
    | none => (none, table)
  | updateConsumed codeHash familyID moment, table =>
    ((table.rows.find? (consumable codeHash)).map (AuthCodeRow.consume familyID moment),
      table.update (consumable codeHash) (AuthCodeRow.consume familyID moment) fun _ => rfl)
  | selectConsumed codeHash, table => (table.rows.find? (consumed codeHash), table)

end AuthCodeStatement

inductive AuthRequestStatement
  | insertAuthRequest (row : AuthRequest)
  | deleteAuthRequest (internalState : String)
  deriving DecidableEq

namespace AuthRequestStatement

def Reply : AuthRequestStatement → Type
  | insertAuthRequest _ => Option Nat
  | deleteAuthRequest _ => Option AuthRequest

def execute : (statement : AuthRequestStatement) → Table AuthRequest.internalState →
    statement.Reply × Table AuthRequest.internalState
  | insertAuthRequest row, table =>
    match table.insert row with
    | some after => (some 1, after)
    | none => (none, table)
  | deleteAuthRequest internalState, table =>
    (table.rows.find? (fun row => row.internalState = internalState),
      table.delete fun row => row.internalState = internalState)

end AuthRequestStatement

/-- The answer to a statement is its reply or the failure of the database. -/
def authCodeStatements : Signature :=
  ⟨AuthCodeStatement, fun statement => Except String statement.Reply⟩

def authRequestStatements : Signature :=
  ⟨AuthRequestStatement, fun statement => Except String statement.Reply⟩

variable (backend : Backend)

/-- The backend names itself in the failures it reports. -/
def saveAuthCode (crypto : Crypto) (authCode : AuthCode) :
    Program authCodeStatements (Except StoreError Unit) := do
  let answer : Except String (Option Nat) ←
    @call authCodeStatements (.insertAuthCode (.ofAuthCode crypto authCode))
  match answer with
  | .error cause => return .error (.failure (backend.text ++ ": save auth code: " ++ cause))
  | .ok none => return .error (.duplicateAuthCode backend)
  | .ok (some _) => return .ok ()

def consumeAuthCode (crypto : Crypto) (code familyID : String)
    (moment : Time) : Program authCodeStatements (Except StoreError AuthCode) := do
  let hash := crypto.hash code
  let updated : Except String (Option AuthCodeRow) ←
    @call authCodeStatements (.updateConsumed hash familyID moment)
  match updated with
  | .error cause => return .error (.failure (backend.text ++ ": consume auth code: " ++ cause))
  | .ok (some row) => return .ok (row.scanConsumed code)
  | .ok none =>
  let selected : Except String (Option AuthCodeRow) ←
    @call authCodeStatements (.selectConsumed hash)
  match selected with
  | .error cause =>
    return .error (.failure (backend.text ++ ": look up consumed auth code: " ++ cause))
  | .ok none => return .error .authCodeNotFound
  | .ok (some row) => return .error (.authCodeReused (row.scanTombstone code))

def saveAuthRequest (authRequest : AuthRequest) :
    Program authRequestStatements (Except StoreError Unit) := do
  let answer : Except String (Option Nat) ←
    @call authRequestStatements (.insertAuthRequest authRequest)
  match answer with
  | .error cause => return .error (.failure (backend.text ++ ": save auth request: " ++ cause))
  | .ok none => return .error (.duplicateInternalState backend)
  | .ok (some _) => return .ok ()

def consumeAuthRequest (internalState : String) :
    Program authRequestStatements (Except StoreError AuthRequest) := do
  let answer : Except String (Option AuthRequest) ←
    @call authRequestStatements (.deleteAuthRequest internalState)
  match answer with
  | .error cause => return .error (.failure (backend.text ++ ": consume auth request: " ++ cause))
  | .ok none => return .error .authRequestNotFound
  | .ok (some row) => return .ok row

end Tempogate.State
