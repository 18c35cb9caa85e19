/-
This file lets token requests, revocations and sweeps interleave on one SQLite store.
-/

import Tempogate.Construction.Oidc.Token
import Tempogate.Construction.Sqlite.Store

namespace Tempogate.Sqlite

open Foundation Oidc State

/-- A process of the server makes outside calls and runs SQL statements. -/
def serverCalls : Signature := environment.sum statements

/-- An outside call leaves the store as it is. -/
def serverWorld : World serverCalls Store := fun _ store event after =>
  match event with
  | ⟨_, .inl _, _⟩ => after = store
  | ⟨_, .inr statement, answer⟩ => Happens store statement answer after

variable (script : List (Event serverCalls) → Nat → (call : EnvironmentCall) → call.Answer)

/-- This executor takes the answers of the outside calls from a script. -/
def serverExecutor : Executor serverCalls Store := fun log store process effect =>
  match effect with
  | .inl call => (script log process call, store)
  | .inr statement => (.ok (statement.execute store).1, (statement.execute store).2)

theorem serverExecutor_follows (log : List (Event serverCalls)) (store : Store)
    (process : Nat) (effect : serverCalls.Effect) :
    serverWorld log store ⟨process, effect, (serverExecutor script log store process effect).1⟩
      (serverExecutor script log store process effect).2 := by
  cases effect with
  | inl call => exact rfl
  | inr statement => exact Happens.executed

/-- The store methods of a handler run as their statements. -/
def serve {Result : Type} (crypto : Crypto) (handler : Handler Result) :
    Program serverCalls Result :=
  handler.lower (method crypto)

/-- A sweep reads the clock once. -/
def sweep (reaper : Reaper) : Program serverCalls (Nat × Option String) :=
  .perform (.inl .now) fun moment => (reaper.reapRefreshFamilies moment).second

/-- The administrator revokes by family, by email or by subject. -/
def revocation (selector : Selector) (moment : Time) : Program statements (Except StoreError Nat) :=
  match selector with
  | .family familyID => revokeRefreshFamily familyID moment
  | .email email => revokeRefreshByEmail email moment
  | .subject connectorID subject => revokeRefreshBySubject connectorID subject moment

inductive Task
  | token (request : TokenRequest)
  | revoke (selector : Selector) (moment : Time)
  | sweep (reaper : Reaper)

inductive Outcome
  | answered (request : TokenRequest) (result : Except TokenError TokenOutput)
  | revoked (result : Except StoreError Nat)
  | swept (deleted : Nat) (failure : Option String)

def Task.program (crypto : Crypto) (config : TokenConfig) : Task → Program serverCalls Outcome
  | .token request => (serve crypto (dispatch config request)).bind fun result =>
    .done (.answered request result)
  | .revoke selector moment => ((revocation selector moment).second).bind fun result =>
    .done (.revoked result)
  | .sweep reaper => (Sqlite.sweep reaper).bind fun (deleted, failure) =>
    .done (.swept deleted failure)

/-- Every process is about to begin its task. -/
def server (crypto : Crypto) (config : TokenConfig) (store : Store) (tasks : Nat → Task) :
    Configuration serverCalls Store Outcome :=
  .initial store fun process => (tasks process).program crypto config

end Tempogate.Sqlite
