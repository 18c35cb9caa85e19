/-
This file defines the whole sweep of the SQLite reaper and lets it interleave with clients.
-/

import Tempogate.Construction.Device.Codes
import Tempogate.Construction.State.Expiring

namespace Tempogate.Sqlite

open Foundation Oidc State Device.Statement

/-- The reaper looks at the tables of the store, the browser sessions and the registry. -/
structure Shelf where
  store : Store
  browserSessions : Table BrowserSessionRow.sidHash
  registry : Admin.Registry

namespace Shelf

def table (shelf : Shelf) : (table : ExpiringTable) → Table table.key
  | .authRequests => shelf.store.authRequests
  | .authCodes => shelf.store.authCodes
  | .deviceCodes => shelf.store.deviceCodes
  | .browserSessions => shelf.browserSessions

variable (shelf : Shelf)

def replace : (table : ExpiringTable) → Table table.key → Shelf
  | .authRequests, rows => { shelf with store := { shelf.store with authRequests := rows } }
  | .authCodes, rows => { shelf with store := { shelf.store with authCodes := rows } }
  | .deviceCodes, rows => { shelf with store := { shelf.store with deviceCodes := rows } }
  | .browserSessions, rows => { shelf with browserSessions := rows }

variable (table : ExpiringTable)

theorem table_replace (rows : Table table.key) : (shelf.replace table rows).table table = rows := by
  cases table <;> rfl

theorem table_replace_of_ne {table other : ExpiringTable}
    (rows : Table table.key) (different : other ≠ table) :
    (shelf.replace table rows).table other = shelf.table other := by
  cases table <;> cases other <;> first | rfl | exact absurd rfl different

theorem replace_self : shelf.replace table (shelf.table table) = shelf := by
  cases table <;> rfl

theorem replace_replace (first second : Table table.key) :
    (shelf.replace table first).replace table second = shelf.replace table second := by
  cases table <;> rfl

def holdings : Holdings where
  expiring table := (shelf.table table).rows
  refreshTokens := shelf.store.refreshTokens.rows
  denylist := shelf.registry.denylist.rows
  integrationKeys := shelf.registry.integrationKeys.rows

end Shelf

/-- These are the statements of the other clients of the swept tables. -/
inductive ClientStatement
  | store (statement : Statement)
  | insertDeviceCode (row : DeviceCodeRow)
  | decideDeviceCode (decision : Device.Decision) (userCode : String) (now : Time)
  | insertBrowserSession (row : BrowserSessionRow)
  | selectBrowserSession (sidHash : String)
  | deleteBrowserSession (sidHash : String)
  deriving DecidableEq

namespace ClientStatement

def Reply : ClientStatement → Type
  | store statement => statement.Reply
  | insertDeviceCode _ | insertBrowserSession _ => Option Nat
  | decideDeviceCode _ _ _ | deleteBrowserSession _ => Nat
  | selectBrowserSession _ => Option BrowserSessionRow

/-- A new device code needs a new user code as well. -/
def execute : (statement : ClientStatement) → Shelf → statement.Reply × Shelf
  | store statement, shelf =>
    ((statement.execute shelf.store).1, { shelf with store := (statement.execute shelf.store).2 })
  | insertDeviceCode row, shelf =>
    if row.userCode ∈ shelf.store.deviceCodes.rows.map DeviceCodeRow.userCode then (none, shelf)
    else match shelf.store.deviceCodes.insert row with
      | some after => (some 1, shelf.replace .deviceCodes after)
      | none => (none, shelf)
  | decideDeviceCode decision userCode now, shelf =>
    (shelf.store.deviceCodes.rows.countP (undecided userCode),
      shelf.replace .deviceCodes (shelf.store.deviceCodes.update
        (undecided userCode) (decision.stamp now)
        (decision.stamp_deviceCodeHash now)))
  | insertBrowserSession row, shelf =>
    match shelf.browserSessions.insert row with
    | some after => (some 1, shelf.replace .browserSessions after)
    | none => (none, shelf)
  | selectBrowserSession sidHash, shelf =>
    (shelf.browserSessions.rows.find? fun row => row.sidHash = sidHash, shelf)
  | deleteBrowserSession sidHash, shelf =>
    (shelf.browserSessions.rows.countP fun row => row.sidHash = sidHash,
      shelf.replace .browserSessions (shelf.browserSessions.delete fun row =>
        row.sidHash = sidHash))

/-- These statements insert a row into a swept table. -/
def inserts : ClientStatement → Option ((table : ExpiringTable) × table.Row)
  | store (.authRequest (.insertAuthRequest row)) => some ⟨.authRequests, row⟩
  | store (.authCode (.insertAuthCode row)) => some ⟨.authCodes, row.inserted⟩
  | insertDeviceCode row => some ⟨.deviceCodes, row⟩
  | insertBrowserSession row => some ⟨.browserSessions, row⟩
  | _ => none

end ClientStatement

/-- These are the statements of the reaper. -/
inductive SweepStatement
  | selectPage (table : ExpiringTable) (cursor limit : Nat)
  | deleteRowids (table : ExpiringTable) (rowids : List Nat)
  | selectDenylistPage (cursor limit : Nat)
  | deleteDenylist (rowids : List Nat)
  deriving DecidableEq

namespace SweepStatement

def Reply : SweepStatement → Type
  | selectPage _ _ _ | selectDenylistPage _ _ => List (Nat × Time)
  | deleteRowids _ _ | deleteDenylist _ => Nat

def execute : (statement : SweepStatement) → Shelf → statement.Reply × Shelf
  | selectPage table cursor limit, shelf =>
    (((shelf.table table).page cursor limit).map fun entry =>
      (entry.rowid, table.expiresAt entry.row), shelf)
  | deleteRowids table rowids, shelf =>
    ((shelf.table table).entries.countP fun entry => entry.rowid ∈ rowids,
      shelf.replace table ((shelf.table table).deleteRowids rowids))
  | selectDenylistPage cursor limit, shelf =>
    (shelf.registry.selectDenylistPage cursor limit, shelf)
  | deleteDenylist rowids, shelf =>
    ((shelf.registry.deleteDenylist rowids).1,
      { shelf with registry := (shelf.registry.deleteDenylist rowids).2 })

end SweepStatement

inductive ShelfStatement
  | client (statement : ClientStatement)
  | sweep (statement : SweepStatement)
  deriving DecidableEq

namespace ShelfStatement

def Reply : ShelfStatement → Type
  | client statement => statement.Reply
  | sweep statement => statement.Reply

def execute : (statement : ShelfStatement) → Shelf → statement.Reply × Shelf
  | client statement, shelf => statement.execute shelf
  | sweep statement, shelf => statement.execute shelf

end ShelfStatement

def clientStatements : Signature :=
  ⟨ClientStatement, fun statement => Except String statement.Reply⟩

def shelfStatements : Signature :=
  ⟨ShelfStatement, fun statement => Except String statement.Reply⟩

/-- The statements of a client are statements on the shelf. -/
def serveClient {Result : Type} (program : Program clientStatements Result) :
    Program shelfStatements Result :=
  program.interpret fun statement => @Program.call shelfStatements (.client statement)

def ask (statement : SweepStatement) : Program shelfStatements (Except String statement.Reply) :=
  @Program.call shelfStatements (.sweep statement)

namespace Reaper

variable (reaper : Reaper) (now : Time)

def reapExpired (table : ExpiringTable) : Program shelfStatements (Nat × Option String) :=
  walk reaper.batch (fun cursor limit => ask (.selectPage table cursor limit))
    (fun expiresAt => now > expiresAt) (fun rowids => ask (.deleteRowids table rowids))
    reaper.pages 0 0

def reapDenylist : Program shelfStatements (Nat × Option String) :=
  walk reaper.batch (fun cursor limit => ask (.selectDenylistPage cursor limit))
    (fun expiresAt => now > expiresAt + Admin.denylistGrace)
    (fun rowids => ask (.deleteDenylist rowids)) reaper.pages 0 0

/-- One sweep visits every table in turn. -/
def reap : Program shelfStatements Report := do
  let expired ← reapTables "sqlite" (reaper.reapExpired now) expiringTables .empty
  let families ← (reaper.reapRefreshFamilies now).interpret fun statement =>
    @Program.call shelfStatements (.client (.store statement))
  let denied ← reaper.reapDenylist now
  return (expired.note "sqlite" "refresh_tokens" families).note "sqlite" "jti_denylist" denied

end Reaper

def shelfRespond : Responder shelfStatements Shelf := .runs ShelfStatement.execute

/-- A statement runs atomically, or the database fails and nothing changes. -/
inductive Shelf.Happens (shelf : Shelf) (statement : ShelfStatement) :
    Except String statement.Reply → Shelf → Prop
  | executed :
      Shelf.Happens shelf statement (.ok (statement.execute shelf).1) (statement.execute shelf).2
  | failed (cause : String) : Shelf.Happens shelf statement (.error cause) shelf

def shelfWorld : World shelfStatements Shelf :=
  fun _ shelf event after => shelf.Happens event.effect event.answer after

/-- A process sweeps at its own time, or it is a client with a program of its own. -/
inductive ShelfTask
  | sweep (reaper : Reaper) (now : Time)
  | client (program : Program clientStatements Unit)

def ShelfTask.run : ShelfTask → Program shelfStatements Unit
  | .sweep reaper now => (reaper.reap now).bind fun _ => .done ()
  | .client program => serveClient program

abbrev ShelfRun : Type := Configuration shelfStatements Shelf Unit

variable (tasks : Nat → ShelfTask)

/-- Every process is about to begin. -/
def shelfRun (shelf : Shelf) : ShelfRun :=
  .initial shelf fun process => (tasks process).run

end Tempogate.Sqlite
