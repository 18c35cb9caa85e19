/-
This file defines the stored device codes and lets requests and decisions on them interleave.
-/

import Tempogate.Construction.Engine

namespace Tempogate.Device

open Foundation Oidc State Postgres DeviceCodeRow

variable (now : Time)

theorem polled_deviceCodeHash (bump : Int) (row : DeviceCodeRow) :
    (polled now bump row).deviceCodeHash = row.deviceCodeHash := rfl

theorem polled_userCode (bump : Int) (row : DeviceCodeRow) :
    (polled now bump row).userCode = row.userCode := rfl

/-- No two stored device codes share a user code. -/
structure DeviceCodes where
  table : Table deviceCodeHash
  unique : (table.rows.map userCode).Nodup

namespace DeviceCodes

variable (codes : DeviceCodes)

def find (deviceCodeHash : String) : Option DeviceCodeRow :=
  codes.table.rows.find? fun row => row.deviceCodeHash = deviceCodeHash

variable (selects : DeviceCodeRow → Bool)

/-- An UPDATE changes neither code of a row. -/
def update (change : DeviceCodeRow → DeviceCodeRow)
    (keeps : ∀ row, (change row).deviceCodeHash = row.deviceCodeHash)
    (names : ∀ row, (change row).userCode = row.userCode) : DeviceCodes where
  table := codes.table.update selects change keeps
  unique := by
    have same : ∀ row, (if selects row then change row else row).userCode = row.userCode := by
      intro row
      split
      · exact names row
      · rfl
    rw [Table.rows_update, List.map_map]
    simp only [Function.comp_def, same]
    exact codes.unique

def delete : DeviceCodes where
  table := codes.table.delete selects
  unique := codes.unique.sublist ((List.filter_sublist.map _).map _)

def deleteRowids (rowids : List Nat) : DeviceCodes where
  table := codes.table.deleteRowids rowids
  unique := codes.unique.sublist ((List.filter_sublist.map _).map _)

/-- A stored row is answered with the presented code. -/
def scanned (deviceCode : String) : Option DeviceCodeRow → Except StoreError DeviceCode
  | none => .error .deviceCodeNotFound
  | some row => .ok (row.scan deviceCode)

variable (crypto : Crypto)

def lookup (deviceCode : String) : Except StoreError DeviceCode :=
  scanned deviceCode (codes.find (crypto.hash deviceCode))

/-- A poll inside the interval of the previous one is too fast and lengthens the interval. -/
def poll (deviceCode : String) (now : Time) : Except StoreError Bool × DeviceCodes :=
  match codes.find (crypto.hash deviceCode) with
  | none => (.error .deviceCodeNotFound, codes)
  | some row =>
    (.ok (tooFast row now), codes.update (fun row => row.deviceCodeHash = crypto.hash deviceCode)
        (polled now (if tooFast row now then 5 else 0))
        (polled_deviceCodeHash now _) (polled_userCode now _))

def consume (deviceCode : String) : Except StoreError DeviceCode × DeviceCodes :=
  (scanned deviceCode (codes.find (crypto.hash deviceCode)),
    codes.delete fun row => row.deviceCodeHash = crypto.hash deviceCode)

/-- Each method of the device grant is one step. -/
def respond : (call : DeviceCodeCall) → DeviceCodes → call.Answer × DeviceCodes
  | .lookupDeviceCodeByDeviceCode deviceCode, codes => (codes.lookup crypto deviceCode, codes)
  | .pollDeviceCode deviceCode now, codes => codes.poll crypto deviceCode now
  | .consumeDeviceCode deviceCode, codes => codes.consume crypto deviceCode

end DeviceCodes

inductive Decision
  | approve (identity : Identity)
  | deny
  deriving DecidableEq, Repr

/-- An approval stamps the row with the identity of the person. -/
def Decision.stamp : Decision → DeviceCodeRow → DeviceCodeRow
  | .approve identity, row =>
    { row with
      approvedAt := some now, connectorID := some identity.connectorID,
      subject := some identity.subject, email := some identity.email }
  | .deny, row => { row with deniedAt := some now }

variable (decision : Decision)

variable (row : DeviceCodeRow)

theorem Decision.stamp_deviceCodeHash :
    (decision.stamp now row).deviceCodeHash = row.deviceCodeHash := by
  cases decision <;> rfl

theorem Decision.stamp_userCode : (decision.stamp now row).userCode = row.userCode := by
  cases decision <;> rfl

/-- The row waits for its decision. -/
def pending : Bool :=
  row.approvedAt.isNone && row.deniedAt.isNone

/-- These statements decide on a device code and delete expired ones. -/
inductive Statement
  | selectExpiresAt (userCode : String)
  | updatePending (decision : Decision) (userCode : String) (now : Time)
  | updateUnexpired (decision : Decision) (userCode : String) (now : Time)
  | selectPage (cursor limit : Nat)
  | deleteRowids (rowids : List Nat)
  | deleteExpired (now : Time) (limit : Nat)
  deriving DecidableEq

namespace Statement

def Reply : Statement → Type
  | selectExpiresAt _ => Option Time
  | selectPage _ _ => List (Nat × Time)
  | updatePending _ _ _ | updateUnexpired _ _ _ | deleteRowids _ | deleteExpired _ _ => Nat

def undecided (userCode : String) (row : DeviceCodeRow) : Bool :=
  row.userCode = userCode && pending row

def unexpired (userCode : String) (now : Time) (row : DeviceCodeRow) : Bool :=
  undecided userCode row && row.expiresAt > now

/-- An UPDATE stamps the rows it selects and counts them. -/
def decide (decision : Decision) (now : Time) (selects : DeviceCodeRow → Bool)
    (codes : DeviceCodes) : Nat × DeviceCodes :=
  (codes.table.rows.countP selects,
    codes.update selects (decision.stamp now) (decision.stamp_deviceCodeHash now)
      (decision.stamp_userCode now))

/-- The sweep skips rows that are locked, so it deletes some expired rows. -/
def reap (hashes : List String) (codes : DeviceCodes) : Nat × DeviceCodes :=
  (codes.table.rows.countP fun row => row.deviceCodeHash ∈ hashes,
    codes.delete fun row => row.deviceCodeHash ∈ hashes)

/-- This executor deletes the first expired rows. -/
def execute : (statement : Statement) → DeviceCodes → statement.Reply × DeviceCodes
  | selectExpiresAt userCode, codes =>
    ((codes.table.rows.find? fun row => row.userCode = userCode).map expiresAt, codes)
  | updatePending decision userCode now, codes =>
    decide decision now (undecided userCode) codes
  | updateUnexpired decision userCode now, codes =>
    decide decision now (unexpired userCode now) codes
  | selectPage cursor limit, codes =>
    ((codes.table.page cursor limit).map fun entry => (entry.rowid, entry.row.expiresAt), codes)
  | deleteRowids rowids, codes =>
    (codes.table.entries.countP fun entry => entry.rowid ∈ rowids, codes.deleteRowids rowids)
  | deleteExpired now limit, codes =>
    reap (((codes.table.rows.filter fun row => row.expiresAt < now).take limit).map
      deviceCodeHash) codes

end Statement

/-- The answer to a statement is its reply or the failure of the database. -/
def statements : Signature := ⟨Statement, fun statement => Except String statement.Reply⟩

def query (statement : Statement) : Program statements (Except String statement.Reply) :=
  @Program.call statements statement

inductive DecisionError
  | notPending
  | expired
  | failure (message : String)
  deriving DecidableEq, Repr

/-- An update that selects no row decides nothing. -/
def decided (backend : String) : Except String Nat → Except DecisionError Unit
  | .error cause => .error (.failure (backend ++ ": decide device code: " ++ cause))
  | .ok 0 => .error .notPending
  | .ok _ => .ok ()

/-- SQLite compares the times itself before the update. -/
def decideSqlite (userCode : String) (now : Time) :
    Program statements (Except DecisionError Unit) := do
  let selected : Except String (Option Time) ← query (.selectExpiresAt userCode)
  match selected with
  | .error cause => return .error (.failure ("sqlite: decide device code: " ++ cause))
  | .ok none => return .error .notPending
  | .ok (some expiresAt) =>
  if ¬ now < expiresAt then
    return .error .expired
  let updated : Except String Nat ← query (.updatePending decision userCode now)
  return decided "sqlite" updated

/-- Postgres compares the times in the update. -/
def decidePostgres (userCode : String) (now : Time) :
    Program statements (Except DecisionError Unit) := do
  let updated : Except String Nat ← query (.updateUnexpired decision userCode now)
  return decided "postgres" updated

variable (engine : Engine)

def decideDeviceCode (decision : Decision) (userCode : String) (now : Time) :
    Program statements (Except DecisionError Unit) :=
  match engine with
  | .sqlite => decideSqlite decision userCode now
  | .postgres _ => decidePostgres decision userCode now

def approveDeviceCode (userCode : String) (identity : Identity) (now : Time) :
    Program statements (Except DecisionError Unit) :=
  decideDeviceCode engine (.approve identity) userCode now

def denyDeviceCode (userCode : String) (now : Time) :
    Program statements (Except DecisionError Unit) :=
  decideDeviceCode engine .deny userCode now

/-- A bound on the rounds makes the loops of the sweep total. -/
structure Reaper where
  batch : Nat
  positive : 0 < batch
  rounds : Nat

namespace Reaper

def reap (reaper : Reaper) (engine : Engine) (now : Time) :
    Program statements (Nat × Option String) :=
  match engine with
  | .sqlite => State.walk reaper.batch (fun cursor limit => query (.selectPage cursor limit))
      (fun expiresAt => now > expiresAt) (fun rowids => query (.deleteRowids rowids))
      reaper.rounds 0 0
  | .postgres _ => State.batches reaper.batch (query (.deleteExpired now reaper.batch))
      reaper.rounds 0

end Reaper

/-- A process makes outside calls, calls store methods and runs statements on device codes. -/
def deviceCalls : Signature := calls.sum statements

inductive Task
  | token (request : TokenRequest)
  | approve (userCode : String) (identity : Identity) (now : Time)
  | deny (userCode : String) (now : Time)
  | reap (reaper : Reaper) (now : Time)

inductive Outcome
  | answered (request : TokenRequest) (result : Except TokenError TokenOutput)
  | decided (result : Except DecisionError Unit)
  | reaped (deleted : Nat) (failure : Option String)

def Task.program (config : TokenConfig) (engine : Engine) : Task → Program deviceCalls Outcome
  | .token request => (deviceCodeGrant config request).first.bind fun result =>
    .done (.answered request result)
  | .approve userCode identity now =>
    (approveDeviceCode engine userCode identity now).second.bind fun result =>
      .done (.decided result)
  | .deny userCode now =>
    (denyDeviceCode engine userCode now).second.bind fun result => .done (.decided result)
  | .reap reaper now => (reaper.reap engine now).second.bind fun (deleted, failure) =>
    .done (.reaped deleted failure)

/-- Each step is atomic. A failed step changes nothing. The methods on other tables answer
anything and leave the device codes alone. -/
inductive Happens (crypto : Crypto) (codes : DeviceCodes) :
    (effect : deviceCalls.Effect) → deviceCalls.Answer effect → DeviceCodes → Prop
  | outside {call : EnvironmentCall} {answer : call.Answer} :
      Happens crypto codes (.inl (.inl call)) answer codes
  | elsewhere {call : StoreCall} {answer : call.Answer}
      (other : ∀ device, call ≠ .deviceCode device) :
      Happens crypto codes (.inl (.inr call)) answer codes
  | responded {call : DeviceCodeCall} :
      Happens crypto codes (.inl (.inr (.deviceCode call)))
        (DeviceCodes.respond crypto call codes).1 (DeviceCodes.respond crypto call codes).2
  | lookupFailed {deviceCode message : String} :
      Happens crypto codes (.inl (.inr (.deviceCode (.lookupDeviceCodeByDeviceCode deviceCode))))
        (.error (.failure message)) codes
  | pollFailed {deviceCode message : String} {now : Time} :
      Happens crypto codes (.inl (.inr (.deviceCode (.pollDeviceCode deviceCode now))))
        (.error (.failure message)) codes
  | consumeFailed {deviceCode message : String} :
      Happens crypto codes (.inl (.inr (.deviceCode (.consumeDeviceCode deviceCode))))
        (.error (.failure message)) codes
  | executed {statement : Statement} :
      Happens crypto codes (.inr statement) (.ok (statement.execute codes).1)
        (statement.execute codes).2
  | reaped {now : Time} {limit : Nat} {hashes : List String} (within : hashes.length ≤ limit)
      (expired : ∀ row ∈ codes.table.rows, row.deviceCodeHash ∈ hashes → row.expiresAt < now) :
      Happens crypto codes (.inr (.deleteExpired now limit)) (.ok (Statement.reap hashes codes).1)
        (Statement.reap hashes codes).2
  | failed {statement : Statement} {cause : String} :
      Happens crypto codes (.inr statement) (.error cause) codes

variable (crypto : Crypto)

def world : World deviceCalls DeviceCodes :=
  fun _ codes event after => Happens crypto codes event.effect event.answer after

abbrev Flow : Type := Configuration deviceCalls DeviceCodes Outcome

/-- Every task is about to begin. -/
def flow (config : TokenConfig) (engine : Engine) (start : DeviceCodes) (tasks : Nat → Task) :
    Flow :=
  .initial start fun process => (tasks process).program config engine

variable (script : List (Event deviceCalls) → Nat → (effect : calls.Effect) → calls.Answer effect)

/-- This executor takes the answers of all other calls from a script. -/
def executor : Executor deviceCalls DeviceCodes := fun log codes process effect =>
  match effect with
  | .inl (.inr (.deviceCode call)) => DeviceCodes.respond crypto call codes
  | .inl effect => (script log process effect, codes)
  | .inr statement => (.ok (statement.execute codes).1, (statement.execute codes).2)

theorem executor_follows (log : List (Event deviceCalls)) (codes : DeviceCodes) (process : Nat)
    (effect : deviceCalls.Effect) :
    world crypto log codes ⟨process, effect, (executor crypto script log codes process effect).1⟩
      (executor crypto script log codes process effect).2 := by
  match effect with
  | .inl (.inr (.deviceCode call)) => exact .responded
  | .inl (.inl call) => exact .outside
  | .inl (.inr (.refresh call)) => exact .elsewhere nofun
  | .inl (.inr (.authCode call)) => exact .elsewhere nofun
  | .inl (.inr (.authRequest call)) => exact .elsewhere nofun
  | .inr statement => exact .executed

/-- Postgres decides on a locked row: it tells whether the poll is too fast and stamps the row. -/
def pollRule : Bool × DeviceCodeRow :=
  (tooFast row now, polled now (if tooFast row now then 5 else 0) row)

/-- SQLite polls run statement by statement. -/
abbrev Polls : Type := Configuration Sqlite.statements Sqlite.Store (Except StoreError Bool)

/-- Every process is about to poll the device code with its own clock reading. -/
def polls (store : Sqlite.Store) (deviceCode : String) (nows : Nat → Time) : Polls :=
  .initial store fun process => Sqlite.pollDeviceCode crypto deviceCode (nows process)

/-- A poll is in progress from its first statement to its last one. -/
def InProgress (current : Polls) (process : Nat) : Prop :=
  (∃ event ∈ current.log, event.process = process) ∧
    ∀ result, current.processes process ≠ .done result

/-- The readings are less than the interval apart. -/
def Near (interval : Int) (reading other : Time) : Prop :=
  reading - other < interval * second ∧ other - reading < interval * second

/-- Any two polls in progress have near clock readings. -/
def Paced (nows : Nat → Time) (interval : Int) (current : Polls)
    (_ : Event Sqlite.statements) : Prop :=
  ∀ process other, process ≠ other → InProgress current process → InProgress current other →
    Near interval (nows process) (nows other)

end Tempogate.Device
