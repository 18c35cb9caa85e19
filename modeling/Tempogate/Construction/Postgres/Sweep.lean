/-
This file defines the whole sweep of the Postgres reaper.
-/

import Tempogate.Construction.Postgres.Store
import Tempogate.Construction.State.Expiring

namespace Tempogate.Postgres

open Foundation Oidc State

/-- The reaper looks at the tables of the database, the browser sessions and the registry. -/
structure Shelf where
  database : Database
  browserSessions : Table BrowserSessionRow.sidHash
  registry : Admin.Registry

namespace Shelf

def table (shelf : Shelf) : (table : ExpiringTable) → Table table.key
  | .authRequests => shelf.database.authRequests
  | .authCodes => shelf.database.authCodes
  | .deviceCodes => shelf.database.deviceCodes
  | .browserSessions => shelf.browserSessions

variable (shelf : Shelf)

def replace : (table : ExpiringTable) → Table table.key → Shelf
  | .authRequests, rows => { shelf with database := { shelf.database with authRequests := rows } }
  | .authCodes, rows => { shelf with database := { shelf.database with authCodes := rows } }
  | .deviceCodes, rows => { shelf with database := { shelf.database with deviceCodes := rows } }
  | .browserSessions, rows => { shelf with browserSessions := rows }

theorem table_replace (table : ExpiringTable) (rows : Table table.key) :
    (shelf.replace table rows).table table = rows := by
  cases table <;> rfl

theorem table_replace_of_ne {table other : ExpiringTable}
    (rows : Table table.key) (different : other ≠ table) :
    (shelf.replace table rows).table other = shelf.table other := by
  cases table <;> cases other <;> first | rfl | exact absurd rfl different

theorem replace_replace (table : ExpiringTable) (first second : Table table.key) :
    (shelf.replace table first).replace table second = shelf.replace table second := by
  cases table <;> rfl

def holdings : Holdings where
  expiring table := (shelf.table table).rows
  refreshTokens := shelf.database.refreshTokens.rows
  denylist := shelf.registry.denylist.rows
  integrationKeys := shelf.registry.integrationKeys.rows

end Shelf

inductive SweepStatement
  | deleteExpired (table : ExpiringTable) (now : Time) (limit : Nat)
  | refreshFamilies (statement : ReapStatement)
  | deleteDenylist (bound : Time) (limit : Nat)
  deriving DecidableEq

namespace SweepStatement

def expiredKeys (shelf : Shelf) (table : ExpiringTable) (now : Time) : List String :=
  ((shelf.table table).rows.filter fun row => table.expiresAt row < now).map table.key

/-- The join pairs each denylist row with the keys that have its jti. -/
def lapsedJTIs (registry : Admin.Registry) (bound : Time) : List String :=
  registry.denylist.rows.flatMap fun row =>
    ((registry.integrationKeys.rows.filter fun key => key.jti = row.jti).filter fun key =>
      key.expiresAt.any fun expiresAt => expiresAt < bound).map fun _ => row.jti

def dropKeys (table : ExpiringTable) (keys : List String) (shelf : Shelf) : Shelf :=
  shelf.replace table ((shelf.table table).delete fun row => table.key row ∈ keys)

def dropJTIs (jtis : List String) (shelf : Shelf) : Shelf :=
  { shelf with
    registry := { shelf.registry with
      denylist := shelf.registry.denylist.delete fun row => row.jti ∈ jtis } }

/-- The rows are visited in some order, and the limit keeps the first of them. Without another
writer no row is locked. -/
def execute (visit : List String → List String) : SweepStatement → Shelf → Nat × Shelf
  | deleteExpired table now limit, shelf =>
    let keys := (visit (expiredKeys shelf table now)).take limit
    ((shelf.table table).rows.countP fun row => table.key row ∈ keys, dropKeys table keys shelf)
  | refreshFamilies statement, shelf =>
    ((statement.execute visit shelf.database).1,
      { shelf with database := (statement.execute visit shelf.database).2 })
  | deleteDenylist bound limit, shelf =>
    let jtis := (visit (lapsedJTIs shelf.registry bound)).take limit
    (shelf.registry.denylist.rows.countP fun row => row.jti ∈ jtis, dropJTIs jtis shelf)

end SweepStatement

def sweepStatements : Signature := ⟨SweepStatement, fun _ => Except String Nat⟩

def sweepRespond (visit : List String → List String) : Responder sweepStatements Shelf :=
  .runs (SweepStatement.execute visit)

namespace Reaper

variable (reaper : Reaper)

def reapExpired (now : Time) (table : ExpiringTable) :
    Program sweepStatements (Nat × Option String) :=
  batches reaper.batch (@Program.call sweepStatements (.deleteExpired table now reaper.batch))
    reaper.rounds 0

def reapDenylist (now : Time) : Program sweepStatements (Nat × Option String) :=
  batches reaper.batch (@Program.call sweepStatements
    (.deleteDenylist (now - Admin.denylistGrace) reaper.batch)) reaper.rounds 0

/-- One sweep visits every table in turn. -/
def reap (now : Time) : Program sweepStatements Report := do
  let expired ← reapTables "postgres" (reaper.reapExpired now) expiringTables .empty
  let families ← (reaper.reapRefreshFamilies now).interpret fun statement =>
    @Program.call sweepStatements (.refreshFamilies statement)
  let denied ← reaper.reapDenylist now
  return (expired.note "postgres" "refresh_tokens" families).note "postgres" "jti_denylist" denied

end Reaper

end Tempogate.Postgres
