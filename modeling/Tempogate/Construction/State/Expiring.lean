/-
This file defines the tables whose rows are dead once they expire and the report of a sweep.
-/

import Tempogate.Construction.Admin.Keys
import Tempogate.Construction.State.Statements

namespace Tempogate.State

open Foundation Oidc

structure BrowserSessionRow where
  sidHash : String
  connectorID : String
  subject : String
  email : String
  createdAt : Time
  expiresAt : Time
  deriving DecidableEq, Repr

inductive ExpiringTable
  | authRequests
  | authCodes
  | deviceCodes
  | browserSessions
  deriving DecidableEq, Repr

namespace ExpiringTable

def name : ExpiringTable → String
  | authRequests => "auth_requests"
  | authCodes => "auth_codes"
  | deviceCodes => "device_codes"
  | browserSessions => "browser_sessions"

def Row : ExpiringTable → Type
  | authRequests => AuthRequest
  | authCodes => AuthCodeRow
  | deviceCodes => DeviceCodeRow
  | browserSessions => BrowserSessionRow

def key : (table : ExpiringTable) → table.Row → String
  | authRequests => AuthRequest.internalState
  | authCodes => AuthCodeRow.codeHash
  | deviceCodes => DeviceCodeRow.deviceCodeHash
  | browserSessions => BrowserSessionRow.sidHash

def expiresAt : (table : ExpiringTable) → table.Row → Time
  | authRequests => AuthRequest.expiresAt
  | authCodes => AuthCodeRow.expiresAt
  | deviceCodes => DeviceCodeRow.expiresAt
  | browserSessions => BrowserSessionRow.expiresAt

end ExpiringTable

def expiringTables : List ExpiringTable :=
  [.authRequests, .authCodes, .deviceCodes, .browserSessions]

/-- A sweep reports the rows deleted from each table and the failures it met. -/
structure Report where
  counts : List (String × Nat)
  errors : List String
  deriving DecidableEq, Repr

def Report.empty : Report := ⟨[], []⟩

/-- A failure on one table does not stop the others. -/
def Report.note (report : Report) (backend table : String) (result : Nat × Option String) :
    Report where
  counts := report.counts ++ [(table, result.1)]
  errors := report.errors ++
    (result.2.map fun cause => backend ++ ": reap " ++ table ++ ": " ++ cause).toList

/-- The tables are swept one after another. -/
def reapTables {signature : Signature} (backend : String)
    (reap : ExpiringTable → Program signature (Nat × Option String)) :
    List ExpiringTable → Report → Program signature Report
  | [], report => return report
  | table :: rest, report => do
      let result ← reap table
      reapTables backend reap rest (report.note backend table.name result)

/-- These rows are what a sweep looks at, in the order in which a backend keeps them. -/
@[ext] structure Holdings where
  expiring : (table : ExpiringTable) → List table.Row
  refreshTokens : List RefreshRow
  denylist : List Admin.DenylistRow
  integrationKeys : List Admin.IntegrationKey

end Tempogate.State
