/-
This file defines the statements, the methods and the reaper of the SQLite store.
-/

import Mathlib.Data.List.Perm.Basic
import Tempogate.Construction.Oidc.Calls
import Tempogate.Construction.State.Statements
import Tempogate.Foundation.Concurrent

namespace Tempogate.Sqlite

open Foundation Oidc State RefreshRow

structure Store where
  refreshTokens : Table tokenHash
  authCodes : Table AuthCodeRow.codeHash
  authRequests : Table AuthRequest.internalState
  deviceCodes : Table DeviceCodeRow.deviceCodeHash

def Store.empty : Store := ⟨.empty, .empty, .empty, .empty⟩

inductive RefreshStatement
  | insertRefresh (row : RefreshRow)
  | updateConsumed (tokenHash clientID : String) (moment : Time)
  | selectConsumed (tokenHash clientID : String)
  | updateRevoked (selector : Selector) (moment : Time)
  | existsFamily (familyID : String)
  | selectPage (cursor limit : Nat)
  | deleteFamilies (families : List String)
  deriving DecidableEq

namespace RefreshStatement

/-- An insert replies nothing when its primary key is taken. -/
def Reply : RefreshStatement → Type
  | insertRefresh _ => Option Nat
  | updateConsumed _ _ _ | selectConsumed _ _ => Option RefreshRow
  | updateRevoked _ _ => List Bool
  | existsFamily _ => Bool
  | selectPage _ _ => List (Entry RefreshRow)
  | deleteFamilies _ => Nat

/-- The insert adds the row unless some row of its family is revoked. -/
def insertUnlessRevoked (row : RefreshRow) (table : Table tokenHash) :
    Option Nat × Table tokenHash :=
  if table.rows.any fun stored => stored.familyID = row.familyID && stored.revokedAt.isSome then
    (some 0, table)
  else
    match table.insert row.inserted with
    | some after => (some 1, after)
    | none => (none, table)

def consumable (tokenHash clientID : String) (row : RefreshRow) : Bool :=
  row.tokenHash = tokenHash && row.clientID = clientID && row.live

def consumed (tokenHash clientID : String) (row : RefreshRow) : Bool :=
  row.tokenHash = tokenHash && row.clientID = clientID && row.consumedAt.isSome

def revocable (selector : Selector) (row : RefreshRow) : Bool :=
  selector.selects row && row.revokedAt.isNone

def execute : (statement : RefreshStatement) → Table tokenHash → statement.Reply × Table tokenHash
  | insertRefresh row, table => insertUnlessRevoked row table
  | updateConsumed tokenHash clientID moment, table =>
    ((table.rows.find? (consumable tokenHash clientID)).map (consume moment),
      table.update (consumable tokenHash clientID) (consume moment) fun _ => rfl)
  | selectConsumed tokenHash clientID, table =>
    (table.rows.find? (consumed tokenHash clientID), table)
  | updateRevoked selector moment, table =>
    ((table.rows.filter (revocable selector)).map (fun row => row.consumedAt.isNone),
      table.update (revocable selector) (revoke moment) fun _ => rfl)
  | existsFamily familyID, table =>
    (table.rows.any (fun row => row.familyID = familyID), table)
  | selectPage cursor limit, table => (table.page cursor limit, table)
  | deleteFamilies families, table =>
    (table.rows.countP (fun row => row.familyID ∈ families),
      table.delete fun row => row.familyID ∈ families)

end RefreshStatement

inductive DeviceCodeStatement
  | selectDeviceCode (deviceCodeHash : String)
  | swapLastPolled (deviceCodeHash : String) (previous : Option Time) (now : Time)
  | slowDown (deviceCodeHash : String) (now : Time)
  | deleteDeviceCode (deviceCodeHash : String)
  deriving DecidableEq

namespace DeviceCodeStatement

def Reply : DeviceCodeStatement → Type
  | selectDeviceCode _ | deleteDeviceCode _ => Option DeviceCodeRow
  | swapLastPolled _ _ _ | slowDown _ _ => Nat

def swappable (deviceCodeHash : String) (previous : Option Time) (row : DeviceCodeRow) : Bool :=
  row.deviceCodeHash = deviceCodeHash && row.lastPolledAt = previous

def polled (now : Time) (row : DeviceCodeRow) : DeviceCodeRow :=
  { row with lastPolledAt := some now }

def slowed (now : Time) (row : DeviceCodeRow) : DeviceCodeRow :=
  { row with lastPolledAt := some now, intervalSeconds := row.intervalSeconds + 5 }

def execute : (statement : DeviceCodeStatement) → Table DeviceCodeRow.deviceCodeHash →
    statement.Reply × Table DeviceCodeRow.deviceCodeHash
  | selectDeviceCode deviceCodeHash, table =>
    (table.rows.find? (fun row => row.deviceCodeHash = deviceCodeHash), table)
  | swapLastPolled deviceCodeHash previous now, table =>
    (table.rows.countP (swappable deviceCodeHash previous),
      table.update (swappable deviceCodeHash previous) (polled now) fun _ => rfl)
  | slowDown deviceCodeHash now, table =>
    (table.rows.countP (fun row => row.deviceCodeHash = deviceCodeHash),
      table.update (fun row => row.deviceCodeHash = deviceCodeHash) (slowed now) fun _ => rfl)
  | deleteDeviceCode deviceCodeHash, table =>
    (table.rows.find? (fun row => row.deviceCodeHash = deviceCodeHash),
      table.delete fun row => row.deviceCodeHash = deviceCodeHash)

end DeviceCodeStatement

inductive Statement
  | refresh (statement : RefreshStatement)
  | authCode (statement : AuthCodeStatement)
  | authRequest (statement : AuthRequestStatement)
  | deviceCode (statement : DeviceCodeStatement)
  deriving DecidableEq

def Statement.Reply : Statement → Type
  | .refresh statement => statement.Reply
  | .authCode statement => statement.Reply
  | .authRequest statement => statement.Reply
  | .deviceCode statement => statement.Reply

/-- Each statement runs as one atomic step on its own table. -/
def Statement.execute : (statement : Statement) → Store → statement.Reply × Store
  | .refresh statement, store =>
    let (reply, table) := statement.execute store.refreshTokens
    (reply, { store with refreshTokens := table })
  | .authCode statement, store =>
    let (reply, table) := statement.execute store.authCodes
    (reply, { store with authCodes := table })
  | .authRequest statement, store =>
    let (reply, table) := statement.execute store.authRequests
    (reply, { store with authRequests := table })
  | .deviceCode statement, store =>
    let (reply, table) := statement.execute store.deviceCodes
    (reply, { store with deviceCodes := table })

/-- The answer to a statement is its reply or the failure of the database. -/
def statements : Signature := ⟨Statement, fun statement => Except String statement.Reply⟩

/-- This program runs one SQL statement. -/
def query (statement : Statement) : Program statements (Except String statement.Reply) :=
  @Program.call statements statement

variable (crypto : Crypto)

def saveRefresh (refresh : Refresh) : Program statements (Except StoreError Unit) := do
  let answer : Except String (Option Nat) ←
    query (.refresh (.insertRefresh (.ofRefresh crypto refresh)))
  match answer with
  | .error cause => return .error (.failure ("sqlite: save refresh token: " ++ cause))
  | .ok none => return .error (.duplicateRefreshToken .sqlite)
  | .ok (some affected) =>
    if affected = 0 then
      return .error (.refreshFamilyRevoked refresh.familyID)
    return .ok ()

def consumeRefresh (token clientID : String) (moment : Time) :
    Program statements (Except StoreError Refresh) := do
  let hash := crypto.hash token
  let updated : Except String (Option RefreshRow) ←
    query (.refresh (.updateConsumed hash clientID moment))
  match updated with
  | .error cause => return .error (.failure ("sqlite: consume refresh token: " ++ cause))
  | .ok (some row) => return .ok (row.scanRefresh token)
  | .ok none =>
  let selected : Except String (Option RefreshRow) ←
    query (.refresh (.selectConsumed hash clientID))
  match selected with
  | .error cause => return .error (.failure ("sqlite: look up consumed refresh token: " ++ cause))
  | .ok none => return .error .refreshNotFound
  | .ok (some row) => return .error (.refreshReused (row.scanRefresh token))

def revokeRefresh (selector : Selector) (moment : Time) :
    Program statements (Except StoreError Nat) := do
  let answer : Except String (List Bool) ← query (.refresh (.updateRevoked selector moment))
  match answer with
  | .error cause => return .error (.failure ("sqlite: revoke refresh tokens: " ++ cause))
  | .ok wasLive => return .ok (wasLive.count true)

def revokeRefreshFamily (familyID : String) (moment : Time) :
    Program statements (Except StoreError Nat) := do
  match ← revokeRefresh (.family familyID) moment with
  | .error error => return .error error
  | .ok count =>
  if count > 0 then
    return .ok count
  let present : Except String Bool ← query (.refresh (.existsFamily familyID))
  match present with
  | .error cause => return .error (.failure ("sqlite: look up refresh family: " ++ cause))
  | .ok false => return .error (.sessionNotFound familyID)
  | .ok true => return .ok 0

def revokeRefreshByEmail (email : String) (moment : Time) :
    Program statements (Except StoreError Nat) :=
  revokeRefresh (.email email) moment

def revokeRefreshBySubject (connectorID subject : String) (moment : Time) :
    Program statements (Except StoreError Nat) :=
  revokeRefresh (.subject connectorID subject) moment

def saveAuthCode (crypto : Crypto) (authCode : AuthCode) :
    Program statements (Except StoreError Unit) :=
  (State.saveAuthCode .sqlite crypto authCode).interpret fun statement =>
    query (.authCode statement)

def consumeAuthCode (crypto : Crypto) (code familyID : String) (moment : Time) :
    Program statements (Except StoreError AuthCode) :=
  (State.consumeAuthCode .sqlite crypto code familyID moment).interpret fun statement =>
    query (.authCode statement)

def saveAuthRequest (authRequest : AuthRequest) : Program statements (Except StoreError Unit) :=
  (State.saveAuthRequest .sqlite authRequest).interpret fun statement =>
    query (.authRequest statement)

def consumeAuthRequest (internalState : String) :
    Program statements (Except StoreError AuthRequest) :=
  (State.consumeAuthRequest .sqlite internalState).interpret fun statement =>
    query (.authRequest statement)

variable (deviceCode : String)

def lookupDeviceCodeByDeviceCode : Program statements (Except StoreError DeviceCode) := do
  let answer : Except String (Option DeviceCodeRow) ←
    query (.deviceCode (.selectDeviceCode (crypto.hash deviceCode)))
  match answer with
  | .error cause =>
    return .error (.failure ("sqlite: lookup device code by device_code_hash: " ++ cause))
  | .ok none => return .error .deviceCodeNotFound
  | .ok (some row) => return .ok (row.scan deviceCode)

/-- A poll is well paced when the row was never polled or its interval has passed. An interval
starts at five seconds and each fast poll adds five: the 64-bit product of the source stays
exact. -/
def wellPaced (row : DeviceCodeRow) (now : Time) : Bool :=
  match row.lastPolledAt with
  | none => true
  | some last => now - last ≥ row.intervalSeconds * second

def pollDeviceCode (now : Time) : Program statements (Except StoreError Bool) := do
  let hash := crypto.hash deviceCode
  let selected : Except String (Option DeviceCodeRow) ← query (.deviceCode (.selectDeviceCode hash))
  match selected with
  | .error cause => return .error (.failure ("sqlite: poll device code: " ++ cause))
  | .ok none => return .error .deviceCodeNotFound
  | .ok (some row) =>
  if wellPaced row now then
    let swapped : Except String Nat ←
      query (.deviceCode (.swapLastPolled hash row.lastPolledAt now))
    match swapped with
    | .error cause => return .error (.failure ("sqlite: poll device code: " ++ cause))
    | .ok 1 => return .ok false
    | .ok _ => slowDown hash
  else slowDown hash
where
  slowDown (hash : String) : Program statements (Except StoreError Bool) := do
    let slowed : Except String Nat ← query (.deviceCode (.slowDown hash now))
    match slowed with
    | .error cause => return .error (.failure ("sqlite: poll device code slow_down: " ++ cause))
    | .ok _ => return .ok true

def consumeDeviceCode : Program statements (Except StoreError DeviceCode) := do
  let answer : Except String (Option DeviceCodeRow) ←
    query (.deviceCode (.deleteDeviceCode (crypto.hash deviceCode)))
  match answer with
  | .error cause => return .error (.failure ("sqlite: consume device code: " ++ cause))
  | .ok none => return .error .deviceCodeNotFound
  | .ok (some row) => return .ok (row.scan deviceCode)

/-- The store answers each method by its statements. -/
def refreshMethod : (call : RefreshCall) → Program statements call.Answer
  | .saveRefresh refresh => saveRefresh crypto refresh
  | .consumeRefresh token clientID moment => consumeRefresh crypto token clientID moment
  | .revokeRefreshFamily familyID moment => revokeRefreshFamily familyID moment
  | .revokeRefreshByEmail email moment => revokeRefreshByEmail email moment
  | .revokeRefreshBySubject connectorID subject moment =>
    revokeRefreshBySubject connectorID subject moment

def method : (call : StoreCall) → Program statements call.Answer
  | .refresh call => refreshMethod crypto call
  | .authCode (.saveAuthCode authCode) => saveAuthCode crypto authCode
  | .authCode (.consumeAuthCode code familyID moment) => consumeAuthCode crypto code familyID moment
  | .authRequest (.saveAuthRequest authRequest) => saveAuthRequest authRequest
  | .authRequest (.consumeAuthRequest internalState) => consumeAuthRequest internalState
  | .deviceCode (.lookupDeviceCodeByDeviceCode deviceCode) =>
    lookupDeviceCodeByDeviceCode crypto deviceCode
  | .deviceCode (.pollDeviceCode deviceCode now) => pollDeviceCode crypto deviceCode now
  | .deviceCode (.consumeDeviceCode deviceCode) => consumeDeviceCode crypto deviceCode

/-- A statement runs atomically, or the database fails and nothing changes. -/
inductive Happens (store : Store) (statement : Statement) :
    Except String statement.Reply → Store → Prop
  | executed : Happens store statement (.ok (statement.execute store).1) (statement.execute store).2
  | failed (cause : String) : Happens store statement (.error cause) store

def world : World statements Store := fun _ store event after =>
  Happens store event.effect event.answer after

/-- This executor runs every statement and never fails one. -/
def executor : Executor statements Store := fun _ store _ statement =>
  (.ok (statement.execute store).1, (statement.execute store).2)

theorem executor_follows (log : List (Event statements)) (store : Store) (process : Nat)
    (statement : Statement) :
    world log store ⟨process, statement, (executor log store process statement).1⟩
      (executor log store process statement).2 :=
  Happens.executed

/-- A client makes one call and keeps its answer. -/
def client (call : RefreshCall) : Program statements Returned :=
  (refreshMethod crypto call).bind fun answer => .done ⟨call, answer⟩

/-- Every client is about to make its call. -/
def clients (store : Store) (requests : Nat → RefreshCall) :
    Configuration statements Store Returned :=
  .initial store fun process => client crypto (requests process)

/-- Ranging over a Go map visits its keys in some order, which this choice stands for.
A bound on the pages makes the page loop total. The batch stays below SQLite's limit on the host
parameters of one statement. -/
structure Reaper where
  refreshMaxLifetime : Time
  batch : Nat
  positive : 0 < batch
  pages : Nat
  range : List String → List String
  range_perm : ∀ families, (range families).Perm families

/-- The map records for each family whether it has a row that is not dead. -/
abbrev Seen : Type := List (String × Bool)

namespace Reaper

variable (reaper : Reaper)

def dead (now : Time) (row : RefreshRow) : Bool :=
  let ended := reaper.refreshMaxLifetime > 0 && ¬ now < row.authTime + reaper.refreshMaxLifetime
  let spent := row.consumedAt.isSome || row.revokedAt.isSome
  ended || (spent && now > row.expiresAt)

/-- A family is alive once one of its rows was. -/
def note (familyID : String) (alive : Bool) : Seen → Seen
  | [] => [(familyID, alive)]
  | (other, known) :: rest =>
    if other = familyID then (other, known || alive) :: rest
    else (other, known) :: note familyID alive rest

def scan (now : Time) (seen : Seen) (entry : Entry RefreshRow) : Seen :=
  note entry.row.familyID (!reaper.dead now entry.row) seen

/-- The loop reads the table a batch at a time, by increasing rowid. -/
def readPages (reaper : Reaper) (now : Time) :
    Nat → Nat → Seen → Program statements (Except String Seen)
  | 0, _, _ => return .error "too many pages"
  | pages + 1, cursor, seen => do
      let page : Except String (List (Entry RefreshRow)) ←
        query (.refresh (.selectPage cursor reaper.batch))
      match page with
      | .error cause => return .error cause
      | .ok entries =>
      let seen := entries.foldl (reaper.scan now) seen
      if entries.length < reaper.batch then
        return .ok seen
      readPages reaper now pages ((entries.getLast?.map Entry.rowid).getD cursor) seen

def deadFamilies (seen : Seen) : List String :=
  reaper.range ((seen.filter fun entry => !entry.2).map Prod.fst)

/-- The families go a batch at a time. A failure ends the loop with what was deleted so far. -/
def deleteChunks : List (List String) → Nat → Program statements (Nat × Option String)
  | [], deleted => return (deleted, none)
  | chunk :: rest, deleted => do
      let answer : Except String Nat ← query (.refresh (.deleteFamilies chunk))
      match answer with
      | .error cause => return (deleted, some cause)
      | .ok count => deleteChunks rest (deleted + count)

def reapRefreshFamilies (now : Time) : Program statements (Nat × Option String) := do
  match ← reaper.readPages now reaper.pages 0 [] with
  | .error cause => return (0, some cause)
  | .ok seen => deleteChunks ((reaper.deadFamilies seen).toChunks reaper.batch) 0

end Reaper

end Tempogate.Sqlite
