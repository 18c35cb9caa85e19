/-
This file defines the operations on refresh sessions and runs them on either backend.
-/

import Tempogate.Construction.Engine

namespace Tempogate.State

open Oidc

/-- A session is the live token of a family without its value. -/
structure RefreshSession where
  familyID : String
  clientID : String
  connectorID : String
  subject : String
  email : String
  authTime : Time
  rotatedAt : Time
  expiresAt : Time
  deriving DecidableEq, Repr

def RefreshSession.ofRow (row : RefreshRow) : RefreshSession where
  familyID := row.familyID
  clientID := row.clientID
  connectorID := row.connectorID
  subject := row.subject
  email := row.email
  authTime := row.authTime
  rotatedAt := row.createdAt
  expiresAt := row.expiresAt

/-- Empty fields do not filter. -/
structure RefreshSessionFilter where
  email : String
  connectorID : String
  subject : String
  deriving DecidableEq, Repr

/-- The query selects the live rows that pass the filter. -/
def RefreshSessionFilter.selects (filter : RefreshSessionFilter) (row : RefreshRow) : Bool :=
  row.live && (filter.email = "" || lower row.email = lower filter.email) &&
    (filter.connectorID = "" || row.connectorID = filter.connectorID) &&
    (filter.subject = "" || row.subject = filter.subject)

/-- Sessions are ordered by email and then by sign-in. -/
def RefreshSession.Precedes (first second : RefreshSession) : Prop :=
  first.email < second.email ∨ first.email = second.email ∧ first.authTime ≤ second.authTime

end Tempogate.State

namespace Tempogate.Sessions

open Foundation Oidc Tempogate.State RefreshSession Postgres.Database Sqlite.Store

/-- The source leaves these choices open: the batch of a sweep, the order in which it visits the
families, and how a query orders rows that tie. -/
structure Choices where
  batch : Nat
  positive : 0 < batch
  visit : List String → List String
  visit_perm : ∀ families, (visit families).Perm families
  sort : List RefreshRow → List RefreshRow
  sort_perm : ∀ rows, (sort rows).Perm rows
  sorted : ∀ rows, (sort rows).Pairwise fun first second =>
    (ofRow first).Precedes (.ofRow second)

inductive Operation
  | refresh (call : RefreshCall)
  | listRefreshSessions (filter : RefreshSessionFilter) (now : Time)
  | sweep (refreshMaxLifetime now : Time)

def Operation.Answer : Operation → Type
  | .refresh call => call.Answer
  | .listRefreshSessions _ _ => Except StoreError (List RefreshSession)
  | .sweep _ _ => Nat × Option String

/-- SQLite filters the expiry after the query, Postgres in the query. -/
def listRefreshSessions (choices : Choices) (filter : RefreshSessionFilter) (now : Time) :
    (engine : Engine) → engine.State → Except StoreError (List RefreshSession)
  | .sqlite, store =>
    let rows := choices.sort ((refreshTokens store).rows.filter filter.selects)
    .ok ((rows.filter fun row => now < row.expiresAt).map ofRow)
  | .postgres _, database =>
    if ∀ text ∈ [filter.email, filter.connectorID, filter.subject], Storable text then
      .ok ((choices.sort ((refreshTokens database).rows.filter fun row =>
        filter.selects row && row.expiresAt > now)).map ofRow)
    else .error (.failure ("postgres: list refresh sessions: " ++ invalidText))

/-- The bounds on the loops are as many rounds as there are rows to visit, and one more. -/
def sweep (choices : Choices) (refreshMaxLifetime now : Time) :
    (engine : Engine) → engine.State → (Nat × Option String) × engine.State
  | .sqlite, store =>
    let reaper : Sqlite.Reaper := {
      refreshMaxLifetime
      batch := choices.batch
      positive := choices.positive
      pages := (refreshTokens store).rows.length + 1
      range := choices.visit
      range_perm := choices.visit_perm }
    (reaper.reapRefreshFamilies now).evaluate Sqlite.respond store
  | .postgres _, database =>
    let reaper : Postgres.Reaper := {
      refreshMaxLifetime
      batch := choices.batch
      positive := choices.positive
      rounds := (refreshFamilies database).rows.length + 1 }
    (reaper.reapRefreshFamilies now).evaluate (Postgres.reapRespond choices.visit) database

/-- Each operation runs alone from its beginning to its end. -/
def perform (crypto : Crypto) (choices : Choices) (engine : Engine) :
    (operation : Operation) → engine.State → operation.Answer × engine.State
  | .refresh call, state => engine.respond crypto (.refresh call) state
  | .listRefreshSessions filter now, state =>
    (listRefreshSessions choices filter now engine state, state)
  | .sweep refreshMaxLifetime now, state => sweep choices refreshMaxLifetime now engine state

structure Answered where
  operation : Operation
  answer : operation.Answer

/-- The operations run one after another, each with its own choices. -/
def performAll (crypto : Crypto) (choices : Nat → Choices) (engine : Engine) :
    List Operation → engine.State → List Answered × engine.State
  | [], state => ([], state)
  | operation :: rest, state =>
    let (answer, middle) := perform crypto (choices rest.length) engine operation state
    let (answers, after) := performAll crypto choices engine rest middle
    (⟨operation, answer⟩ :: answers, after)

/-- Both backends begin with empty tables. -/
def start : (engine : Engine) → engine.State
  | .sqlite => empty
  | .postgres _ => empty

/-- Two listings are the same up to the order of sessions that tie. -/
structure SameListing (first second : List RefreshSession) : Prop where
  perm : first.Perm second
  keys : first.map (fun session => (session.email, session.authTime)) =
    second.map fun session => (session.email, session.authTime)

/-- Two answers to one operation are the same, listings up to ties and duplicates up to the
backend that reports them. -/
inductive SameAnswer : Answered → Answered → Prop
  | equal (operation : Operation) (answer : operation.Answer) :
      SameAnswer ⟨operation, answer⟩ ⟨operation, answer⟩
  | listing {filter : RefreshSessionFilter} {now : Time} {first second : List RefreshSession}
      (same : SameListing first second) :
      SameAnswer ⟨.listRefreshSessions filter now, .ok first⟩
        ⟨.listRefreshSessions filter now, .ok second⟩
  | duplicate (refresh : Refresh) (first second : Backend) :
      SameAnswer ⟨.refresh (.saveRefresh refresh), .error (.duplicateRefreshToken first)⟩
        ⟨.refresh (.saveRefresh refresh), .error (.duplicateRefreshToken second)⟩

end Tempogate.Sessions
