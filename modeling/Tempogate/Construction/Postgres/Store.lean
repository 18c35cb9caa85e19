/-
This file defines the tables, the methods and the reaper of the Postgres store.
-/

import Mathlib.Data.List.Perm.Basic
import Tempogate.Construction.Oidc.Calls
import Tempogate.Construction.State.Loops
import Tempogate.Construction.State.Statements
import Tempogate.Foundation.Sequential

namespace Tempogate.Postgres

open Foundation Oidc State Action RefreshRow AuthCodeStatement

structure FamilyRow where
  familyID : String
  revokedAt : Option Time
  storable : Storable familyID
  deriving DecidableEq, Repr

/-- A family keeps its first revocation time. -/
def FamilyRow.stamp (moment : Time) (row : FamilyRow) : FamilyRow :=
  { row with revokedAt := row.revokedAt.or (some moment) }

structure Database where
  refreshFamilies : Table FamilyRow.familyID
  refreshTokens : Table tokenHash
  authCodes : Table AuthCodeRow.codeHash
  authRequests : Table AuthRequest.internalState
  deviceCodes : Table DeviceCodeRow.deviceCodeHash

namespace Database

def empty : Database := ⟨.empty, .empty, .empty, .empty, .empty⟩

variable (database : Database)

def family (familyID : String) : Option FamilyRow :=
  database.refreshFamilies.rows.find? fun row => row.familyID = familyID

def refreshHash (tokenHash : String) : Option RefreshRow :=
  database.refreshTokens.rows.find? fun row => row.tokenHash = tokenHash

variable (tokenHash clientID : String)

def consumableRefresh : Option RefreshRow :=
  database.refreshTokens.rows.find? fun row =>
    row.tokenHash = tokenHash && row.clientID = clientID && row.live

def consumedRefresh : Option RefreshRow :=
  database.refreshTokens.rows.find? fun row =>
    row.tokenHash = tokenHash && row.clientID = clientID && row.consumedAt.isSome

/-- These are the families with a matching token, in the order of their ids. -/
def selectedFamilies (selector : Selector) : List String :=
  ((database.refreshFamilies.rows.map FamilyRow.familyID).filter fun familyID =>
    database.refreshTokens.rows.any fun row =>
      row.familyID = familyID && selector.selects row).mergeSort fun first second => first ≤ second

/-- These are the unrevoked tokens of the families. -/
def unrevoked (families : List String) : List RefreshRow :=
  database.refreshTokens.rows.filter fun row =>
    row.familyID ∈ families && row.revokedAt.isNone

def authCode (codeHash : String) : Option AuthCodeRow :=
  database.authCodes.rows.find? fun row => row.codeHash = codeHash

def authRequest (internalState : String) : Option AuthRequest :=
  database.authRequests.rows.find? fun row => row.internalState = internalState

def deviceCode (deviceCodeHash : String) : Option DeviceCodeRow :=
  database.deviceCodes.rows.find? fun row => row.deviceCodeHash = deviceCodeHash

end Database

/-- These are the row changes that the statements of the store make. -/
inductive Write
  | insertFamily (familyID : String)
  | stampFamily (familyID : String) (moment : Time)
  | insertRefresh (row : RefreshRow)
  | consumeRefresh (tokenHash : String) (moment : Time)
  | revokeRefresh (tokenHash : String) (moment : Time)
  | insertAuthCode (row : AuthCodeRow)
  | consumeAuthCode (codeHash familyID : String) (moment : Time)
  | insertAuthRequest (row : AuthRequest)
  | deleteAuthRequest (internalState : String)
  | pollDeviceCode (deviceCodeHash : String) (now : Time) (bump : Int)
  | deleteDeviceCode (deviceCodeHash : String)
  deriving DecidableEq

def polled (now : Time) (bump : Int) (row : DeviceCodeRow) : DeviceCodeRow :=
  { row with lastPolledAt := some now, intervalSeconds := row.intervalSeconds + bump }

namespace Write

/-- An insert is written only while its key is free, and a family only under a text that can be
stored. -/
def apply : Write → Database → Database
  | insertFamily familyID, database =>
    { database with
      refreshFamilies := if storable : Storable familyID then
          (database.refreshFamilies.insert ⟨familyID, none, storable⟩).getD database.refreshFamilies
        else database.refreshFamilies }
  | stampFamily familyID moment, database =>
    { database with
      refreshFamilies := database.refreshFamilies.update (fun row => row.familyID = familyID)
        (FamilyRow.stamp moment) fun _ => rfl }
  | insertRefresh row, database =>
    { database with
      refreshTokens := (database.refreshTokens.insert row.inserted).getD database.refreshTokens }
  | consumeRefresh tokenHash moment, database =>
    { database with
      refreshTokens := database.refreshTokens.update (fun row => row.tokenHash = tokenHash)
        (consume moment) (tokenHash_consume moment) }
  | revokeRefresh tokenHash moment, database =>
    { database with
      refreshTokens := database.refreshTokens.update (fun row => row.tokenHash = tokenHash)
        (revoke moment) (tokenHash_revoke moment) }
  | insertAuthCode row, database =>
    { database with
      authCodes := (database.authCodes.insert row.inserted).getD database.authCodes }
  | consumeAuthCode codeHash familyID moment, database =>
    { database with
      authCodes := database.authCodes.update (fun row => row.codeHash = codeHash)
        (AuthCodeRow.consume familyID moment) (AuthCodeRow.codeHash_consume familyID moment) }
  | insertAuthRequest row, database =>
    { database with
      authRequests := (database.authRequests.insert row).getD database.authRequests }
  | deleteAuthRequest internalState, database =>
    { database with
      authRequests := database.authRequests.delete fun row =>
        row.internalState = internalState }
  | pollDeviceCode deviceCodeHash now bump, database =>
    { database with
      deviceCodes := database.deviceCodes.update
        (fun row => row.deviceCodeHash = deviceCodeHash) (polled now bump) fun _ => rfl }
  | deleteDeviceCode deviceCodeHash, database =>
    { database with
      deviceCodes := database.deviceCodes.delete fun row =>
        row.deviceCodeHash = deviceCodeHash }

end Write

/-- A lock is on a stored row or on the place of a key in a unique index. -/
inductive Key
  | family (familyID : String)
  | familyIndex (familyID : String)
  | refresh (tokenHash : String)
  | refreshIndex (tokenHash : String)
  | authCode (codeHash : String)
  | authCodeIndex (codeHash : String)
  | authRequest (internalState : String)
  | authRequestIndex (internalState : String)
  | deviceCode (deviceCodeHash : String)
  deriving DecidableEq

abbrev Query (Result : Type) : Type := Action Database Write Key Result

/-- The server publishes the row changes of a transaction at its commit. -/
def world : World (server Database Write Key) (Server Database Write Key) :=
  readCommitted Write.apply

/-- This program commits the body when it succeeds and rolls it back otherwise. -/
def inTx {Base Change Lock Failure Result : Type} (other : String → Failure)
    (body : Action Base Change Lock (Except Failure Result)) :
    Action Base Change Lock (Except Failure Result) := do
  let begun : Except String Unit ← begin
  match begun with
  | .error cause => return .error (other ("postgres: begin: " ++ cause))
  | .ok () =>
  match ← body with
  | .error failure =>
    rollback
    return .error failure
  | .ok result =>
  let committed : Except String Unit ← commit
  match committed with
  | .error cause => return .error (other ("postgres: commit: " ++ cause))
  | .ok () => return .ok result

/-- A statement runs when the server can read all its texts. -/
def given {Result : Type} (texts : List String) (statement : Query (Except String Result)) :
    Query (Except String Result) :=
  if ∀ text ∈ texts, Storable text then statement else return .error invalidText

/-- The loop takes the family row, and creates it when it is missing.
A bound on the rounds makes the loop total. -/
def lockFamily (familyID : String) : Nat → Query (Except String Bool)
  | 0 => return .error "lock family: too many rounds"
  | rounds + 1 => do
      let locked : Except String (Option FamilyRow) ← given [familyID]
        (selectLocking (.family familyID) .share fun database => database.family familyID)
      match locked with
      | .error cause => return .error cause
      | .ok (some row) => return .ok row.revokedAt.isSome
      | .ok none =>
      let inserted : Except String Bool ← given [familyID] (claim (.familyIndex familyID)
        (fun database => (database.family familyID).isNone) (.insertFamily familyID))
      match inserted with
      | .error cause => return .error cause
      | .ok _ => lockFamily familyID rounds

def saveRefreshFailure (cause : String) : StoreError :=
  .failure ("postgres: save refresh token: " ++ cause)

variable (crypto : Crypto)

variable (rounds : Nat)

def saveRefresh (refresh : Refresh) : Query (Except StoreError Unit) :=
  inTx saveRefreshFailure do
    match ← lockFamily refresh.familyID rounds with
    | .error cause => return .error (saveRefreshFailure cause)
    | .ok true => return .error (.refreshFamilyRevoked refresh.familyID)
    | .ok false =>
    let row := ofRefresh crypto refresh
    let inserted : Except String Bool ← given row.texts (claim (.refreshIndex row.tokenHash)
      (fun database => (database.refreshHash row.tokenHash).isNone) (.insertRefresh row))
    match inserted with
    | .error cause => return .error (saveRefreshFailure cause)
    | .ok false => return .error (.duplicateRefreshToken .postgres)
    | .ok true => return .ok ()

def consumeRefresh (crypto : Crypto) (token clientID : String) (moment : Time) :
    Query (Except StoreError Refresh) := do
  let hash := crypto.hash token
  let updated : Except String (Option RefreshRow) ← given [clientID] (autocommit (change
    (.refresh hash) (fun database => database.consumableRefresh hash clientID)
    (.consumeRefresh hash moment)))
  match updated with
  | .error cause => return .error (.failure ("postgres: consume refresh token: " ++ cause))
  | .ok (some row) => return .ok (row.scanRefresh token)
  | .ok none =>
  let selected : Except String (Option RefreshRow) ←
    autocommit (select fun database => database.consumedRefresh hash clientID)
  match selected with
  | .error cause => return .error (.failure ("postgres: look up consumed refresh token: " ++ cause))
  | .ok none => return .error .refreshNotFound
  | .ok (some row) => return .error (.refreshReused (row.scanRefresh token))

/-- The statement locks each candidate token and stamps it if it is still unrevoked. -/
def revokeEach (families : List String) (moment : Time) : List String → Query (Except String Nat)
  | [] => return .ok 0
  | hash :: rest => do
      let locked : Except String Database ← lock (.refresh hash) .exclusive
      match locked with
      | .error cause => return .error cause
      | .ok newest =>
      match (newest.unrevoked families).find? fun row => row.tokenHash = hash with
      | none => revokeEach families moment rest
      | some row =>
      write (.revokeRefresh hash moment)
      match ← revokeEach families moment rest with
      | .error cause => return .error cause
      | .ok live => return .ok (if row.consumedAt.isNone then live + 1 else live)

def revokeTokens (families : List String) (moment : Time) : Query (Except String Nat) := do
  let candidates : Except String (List RefreshRow) ←
    select fun database => database.unrevoked families
  match candidates with
  | .error cause => return .error cause
  | .ok rows => revokeEach families moment (rows.map tokenHash)

def revokeFailure (cause : String) : StoreError :=
  .failure ("postgres: revoke refresh tokens: " ++ cause)

def revokeRefreshFamily (familyID : String) (moment : Time) : Query (Except StoreError Nat) :=
  inTx revokeFailure do
    let stamped : Except String (Option FamilyRow) ← given [familyID] (change (.family familyID)
      (fun database => database.family familyID) (.stampFamily familyID moment))
    match stamped with
    | .error cause => return .error (revokeFailure cause)
    | .ok none => return .error (.sessionNotFound familyID)
    | .ok (some _) =>
    match ← revokeTokens [familyID] moment with
    | .error cause => return .error (revokeFailure cause)
    | .ok live => return .ok live

/-- The locking subquery keeps the families whose row is still there. -/
def lockFamilies : List String → Query (Except String (List String))
  | [] => return .ok []
  | familyID :: rest => do
      let locked : Except String Database ← lock (.family familyID) .exclusive
      match locked with
      | .error cause => return .error cause
      | .ok newest =>
      match ← lockFamilies rest with
      | .error cause => return .error cause
      | .ok families =>
        return .ok (if (newest.family familyID).isSome then familyID :: families else families)

def stampEach (moment : Time) : List String → Query Unit
  | [] => return ()
  | familyID :: rest => do
      write (.stampFamily familyID moment)
      stampEach moment rest

def revokeFamiliesWhere (selector : Selector) (moment : Time) : Query (Except StoreError Nat) :=
  inTx revokeFailure do
    let selected : Except String (List String) ← given selector.texts
      (select fun database => database.selectedFamilies selector)
    match selected with
    | .error cause => return .error (revokeFailure cause)
    | .ok candidates =>
    match ← lockFamilies candidates with
    | .error cause => return .error (revokeFailure cause)
    | .ok families =>
    stampEach moment families
    match ← revokeTokens families moment with
    | .error cause => return .error (revokeFailure cause)
    | .ok live => return .ok live

def revokeRefreshByEmail (email : String) (moment : Time) : Query (Except StoreError Nat) :=
  revokeFamiliesWhere (.email email) moment

def revokeRefreshBySubject (connectorID subject : String) (moment : Time) :
    Query (Except StoreError Nat) :=
  revokeFamiliesWhere (.subject connectorID subject) moment

def refreshMethod : (call : RefreshCall) → Query call.Answer
  | .saveRefresh refresh => saveRefresh crypto rounds refresh
  | .consumeRefresh token clientID moment => consumeRefresh crypto token clientID moment
  | .revokeRefreshFamily familyID moment => revokeRefreshFamily familyID moment
  | .revokeRefreshByEmail email moment => revokeRefreshByEmail email moment
  | .revokeRefreshBySubject connectorID subject moment =>
    revokeRefreshBySubject connectorID subject moment

/-- An insert reports one row, or nothing when its key is taken. -/
def insertOne (key : Key) (free : Database → Bool) (effect : Write) :
    Query (Except String (Option Nat)) := do
  let inserted : Except String Bool ← autocommit (claim key free effect)
  match inserted with
  | .error cause => return .error cause
  | .ok false => return .ok none
  | .ok true => return .ok (some 1)

def authCodeStatement : (statement : AuthCodeStatement) → Query (Except String statement.Reply)
  | .insertAuthCode row => insertOne (.authCodeIndex row.codeHash)
      (fun database => (database.authCode row.codeHash).isNone) (.insertAuthCode row)
  | .updateConsumed codeHash familyID moment => do
      let updated : Except String (Option AuthCodeRow) ← autocommit (change (.authCode codeHash)
        (fun database => database.authCodes.rows.find? (consumable codeHash))
        (.consumeAuthCode codeHash familyID moment))
      match updated with
      | .error cause => return .error cause
      | .ok row => return .ok (row.map (AuthCodeRow.consume familyID moment))
  | .selectConsumed codeHash => autocommit (select fun database =>
    database.authCodes.rows.find? (consumed codeHash))

def authRequestStatement :
    (statement : AuthRequestStatement) → Query (Except String statement.Reply)
  | .insertAuthRequest row => insertOne (.authRequestIndex row.internalState)
      (fun database => (database.authRequest row.internalState).isNone) (.insertAuthRequest row)
  | .deleteAuthRequest internalState => autocommit (change (.authRequest internalState)
      (fun database => database.authRequest internalState) (.deleteAuthRequest internalState))

def saveAuthCode (crypto : Crypto) (authCode : AuthCode) : Query (Except StoreError Unit) :=
  (State.saveAuthCode .postgres crypto authCode).interpret authCodeStatement

def consumeAuthCode (crypto : Crypto) (code familyID : String) (moment : Time) :
    Query (Except StoreError AuthCode) :=
  (State.consumeAuthCode .postgres crypto code familyID moment).interpret authCodeStatement

def saveAuthRequest (authRequest : AuthRequest) : Query (Except StoreError Unit) :=
  (State.saveAuthRequest .postgres authRequest).interpret authRequestStatement

def consumeAuthRequest (internalState : String) : Query (Except StoreError AuthRequest) :=
  (State.consumeAuthRequest .postgres internalState).interpret authRequestStatement

def lookupDeviceCodeByDeviceCode (deviceCode : String) : Query (Except StoreError DeviceCode) := do
  let found : Except String (Option DeviceCodeRow) ←
    autocommit (select fun database => database.deviceCode (crypto.hash deviceCode))
  match found with
  | .error cause =>
    return .error (.failure ("postgres: lookup device code by device_code_hash: " ++ cause))
  | .ok none => return .error .deviceCodeNotFound
  | .ok (some row) => return .ok (row.scan deviceCode)

/-- The interval is small, as in SQLite, and its 64-bit product exact. -/
def tooFast (row : DeviceCodeRow) (now : Time) : Bool :=
  match row.lastPolledAt with
  | none => false
  | some last => now - last < row.intervalSeconds * second

def pollFailure (cause : String) : StoreError := .failure ("postgres: poll device code: " ++ cause)

def pollDeviceCode (crypto : Crypto) (deviceCode : String) (now : Time) :
    Query (Except StoreError Bool) :=
  inTx pollFailure do
    let hash := crypto.hash deviceCode
    let selected : Except String (Option DeviceCodeRow) ←
      selectLocking (.deviceCode hash) .exclusive fun database => database.deviceCode hash
    match selected with
    | .error cause => return .error (pollFailure cause)
    | .ok none => return .error .deviceCodeNotFound
    | .ok (some row) =>
    let slowDown := tooFast row now
    let bump := if slowDown then 5 else 0
    let updated : Except String (Option DeviceCodeRow) ← change (.deviceCode hash)
      (fun database => database.deviceCode hash) (.pollDeviceCode hash now bump)
    match updated with
    | .error cause => return .error (pollFailure cause)
    | .ok _ => return .ok slowDown

def consumeDeviceCode (deviceCode : String) : Query (Except StoreError DeviceCode) := do
  let hash := crypto.hash deviceCode
  let deleted : Except String (Option DeviceCodeRow) ← autocommit (change (.deviceCode hash)
    (fun database => database.deviceCode hash) (.deleteDeviceCode hash))
  match deleted with
  | .error cause => return .error (.failure ("postgres: consume device code: " ++ cause))
  | .ok none => return .error .deviceCodeNotFound
  | .ok (some row) => return .ok (row.scan deviceCode)

def method : (call : StoreCall) → Query call.Answer
  | .refresh call => refreshMethod crypto rounds call
  | .authCode (.saveAuthCode authCode) => saveAuthCode crypto authCode
  | .authCode (.consumeAuthCode code familyID moment) => consumeAuthCode crypto code familyID moment
  | .authRequest (.saveAuthRequest authRequest) => saveAuthRequest authRequest
  | .authRequest (.consumeAuthRequest internalState) => consumeAuthRequest internalState
  | .deviceCode (.lookupDeviceCodeByDeviceCode deviceCode) =>
    lookupDeviceCodeByDeviceCode crypto deviceCode
  | .deviceCode (.pollDeviceCode deviceCode now) => pollDeviceCode crypto deviceCode now
  | .deviceCode (.consumeDeviceCode deviceCode) => consumeDeviceCode crypto deviceCode

/-- A client makes one call and keeps its answer. -/
def client (call : RefreshCall) : Query Returned :=
  (refreshMethod crypto rounds call).bind fun answer => .done ⟨call, answer⟩

/-- Every client is about to make its call and no transaction is open. -/
def clients (database : Database) (requests : Nat → RefreshCall) :
    Configuration (server Database Write Key) (Server Database Write Key) Returned :=
  .initial (.quiet database) fun process => client crypto rounds (requests process)

/-- A bound on the batches makes the loop total. -/
structure Reaper where
  refreshMaxLifetime : Time
  batch : Nat
  positive : 0 < batch
  rounds : Nat

/-- The statement deletes at most a batch of dead families with their tokens. -/
inductive ReapStatement
  | deleteDead (now : Time) (limit : Nat) (ended : Option Time)
  deriving DecidableEq

namespace ReapStatement

/-- A missing bound on the sign-in compares as false. -/
def dead (now : Time) (ended : Option Time) (row : RefreshRow) : Bool :=
  (match ended with
    | none => false
    | some bound => row.authTime ≤ bound) ||
    ((row.consumedAt.isSome || row.revokedAt.isSome) && row.expiresAt < now)

/-- A family is dead when it has no token that is not dead. -/
def deadFamilies (now : Time) (ended : Option Time) (database : Database) : List String :=
  (database.refreshFamilies.rows.map FamilyRow.familyID).filter fun familyID =>
    !database.refreshTokens.rows.any fun row => row.familyID = familyID && !dead now ended row

def deleteFamilies (families : List String) (database : Database) : Database :=
  { database with
    refreshFamilies := database.refreshFamilies.delete fun row => row.familyID ∈ families
    refreshTokens := database.refreshTokens.delete fun row => row.familyID ∈ families }

/-- The rows are visited in some order, and the limit keeps the first of them.
The statement reports the tokens it deletes. -/
def execute (visit : List String → List String) : ReapStatement → Database → Nat × Database
  | deleteDead now limit ended, database =>
    let families := (visit (deadFamilies now ended database)).take limit
    (database.refreshTokens.rows.countP fun row => row.familyID ∈ families,
      deleteFamilies families database)

end ReapStatement

/-- The answer to a statement is its count or the failure of the database. -/
def reapStatements : Signature := ⟨ReapStatement, fun _ => Except String Nat⟩

def reapRespond (visit : List String → List String) : Responder reapStatements Database :=
  .runs (ReapStatement.execute visit)

namespace Reaper

/-- Sign-ins at or before this time are past the absolute lifetime. -/
def ended (reaper : Reaper) (now : Time) : Option Time :=
  if reaper.refreshMaxLifetime > 0 then some (now - reaper.refreshMaxLifetime) else none

def reapRefreshFamilies (reaper : Reaper) (now : Time) :
    Program reapStatements (Nat × Option String) :=
  batches reaper.batch (@Program.call reapStatements
    (.deleteDead now reaper.batch (reaper.ended now))) reaper.rounds 0

end Reaper

end Tempogate.Postgres
