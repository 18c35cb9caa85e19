/-
This file runs the store methods of either backend one at a time.
-/

import Tempogate.Construction.Oidc.Token
import Tempogate.Construction.Postgres.Store
import Tempogate.Construction.Sqlite.Store

namespace Tempogate

open Foundation Oidc Sqlite.Statement

def Sqlite.respond : Responder Sqlite.statements Sqlite.Store := .runs execute

/-- A bound on the rounds of its locking loop goes with the Postgres backend.
Two rounds are enough for a transaction that is alone. -/
inductive Engine
  | sqlite
  | postgres (rounds : Nat)
  deriving DecidableEq

namespace Engine

def State : Engine → Type
  | sqlite => Sqlite.Store
  | postgres _ => Postgres.Database

/-- Each method runs as one step that nothing interrupts and nothing fails. -/
def respond (crypto : Crypto) : (engine : Engine) → Responder storeCalls engine.State
  | sqlite, call, store => (Sqlite.method crypto call).evaluate Sqlite.respond store
  | postgres rounds, call, database =>
    let (answer, server) := (Postgres.method crypto (rounds + 2) call).evaluate
      (Server.serve Postgres.Write.apply 0) (.quiet database)
    (answer, server.committed)

variable (crypto : Crypto)

variable (engine : Engine)

/-- The methods of interleaved requests are atomic. An outside call leaves the store alone. -/
def world : World calls engine.State :=
  fun _ state event after =>
    match event with
    | ⟨_, .inl _, _⟩ => after = state
    | ⟨_, .inr call, answer⟩ => engine.respond crypto call state = (answer, after)

variable (script : List (Event calls) → Nat → (call : EnvironmentCall) → call.Answer)

/-- This executor takes the answers of the outside calls from a script. -/
def executor : Executor calls engine.State := fun log state process effect =>
  match effect with
  | .inl call => (script log process call, state)
  | .inr call => engine.respond crypto call state

theorem executor_follows
    (log : List (Event calls)) (state : engine.State) (process : Nat) (effect : calls.Effect) :
    engine.world crypto log state
      ⟨process, effect, (engine.executor crypto script log state process effect).1⟩
      (engine.executor crypto script log state process effect).2 := by
  cases effect <;> exact rfl

/-- The outside may answer a call by everything that was exchanged before it. -/
abbrev Script : Type := List (Exchange calls) → (call : EnvironmentCall) → call.Answer

/-- This responder keeps the backend and the exchanges so far. -/
def serve (script : Script) : Responder calls (engine.State × List (Exchange calls))
  | .inl call, (state, history) =>
    (script history call, state, ⟨.inl call, script history call⟩ :: history)
  | .inr call, (state, history) =>
    let (answer, after) := engine.respond crypto call state
    (answer, after, ⟨.inr call, answer⟩ :: history)

/-- One token request runs from its beginning to its end. -/
def handle (config : TokenConfig) (engine : Engine) (script : Script) (request : TokenRequest)
    (current : engine.State × List (Exchange calls)) :
    Except TokenError TokenOutput × (engine.State × List (Exchange calls)) :=
  (dispatch config request).evaluate (engine.serve config.crypto script) current

/-- Token requests run one after another. -/
def handleAll (config : TokenConfig) (engine : Engine) (script : Script) :
    List TokenRequest → engine.State × List (Exchange calls) →
      List (Except TokenError TokenOutput) × (engine.State × List (Exchange calls))
  | [], current => ([], current)
  | request :: rest, current =>
    let (answer, middle) := engine.handle config script request current
    let (answers, last) := engine.handleAll config script rest middle
    (answer :: answers, last)

/-- Every process is about to handle its token request. -/
def tokens (config : TokenConfig) (engine : Engine) (state : engine.State)
    (requests : Nat → TokenRequest) :
    Configuration calls engine.State (Except TokenError TokenOutput) :=
  .initial state fun process => dispatch config (requests process)

end Engine

end Tempogate
