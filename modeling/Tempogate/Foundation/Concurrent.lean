/-
This file defines the interleaved execution of programs over one shared store, and runs it by a
given order of turns.
-/

import Mathlib.Logic.Relation
import Tempogate.Foundation.Program

namespace Tempogate.Foundation

/-- An event records which process performed an effect and the answer it received. -/
structure Event (signature : Signature) where
  process : Nat
  effect : signature.Effect
  answer : signature.Answer effect

/-- A world says which answers and next stores an event may have after a history. -/
def World (signature : Signature) (Store : Type) : Type :=
  List (Event signature) → Store → Event signature → Store → Prop

/-- A configuration holds the store, the remaining program of each process and the history.
The newest event stands first. -/
structure Configuration (signature : Signature) (Store Result : Type) where
  store : Store
  processes : Nat → Program signature Result
  log : List (Event signature)

variable {signature : Signature} {Store Result : Type}

namespace Configuration

def initial (store : Store) (processes : Nat → Program signature Result) :
    Configuration signature Store Result :=
  { store, processes, log := [] }

/-- This function moves one process past its effect and records the event. -/
def advance (before : Configuration signature Store Result) (event : Event signature)
    (next : signature.Answer event.effect → Program signature Result) (after : Store) :
    Configuration signature Store Result where
  store := after
  processes := Function.update before.processes event.process (next event.answer)
  log := event :: before.log

end Configuration

/-- One process performs its next effect as the world allows. -/
inductive Step (world : World signature Store) (before : Configuration signature Store Result)
    (event : Event signature) : Configuration signature Store Result → Prop
  | perform (next : signature.Answer event.effect → Program signature Result) (after : Store)
      (ready : before.processes event.process = .perform event.effect next)
      (happens : world before.log before.store event after) :
      Step world before event (before.advance event next after)

/-- Runs take any number of steps that all meet a condition on the state before the step. -/
def Reaches (world : World signature Store)
    (allowed : Configuration signature Store Result → Event signature → Prop) :
    Configuration signature Store Result → Configuration signature Store Result → Prop :=
  Relation.ReflTransGen fun before after =>
    ∃ event, allowed before event ∧ Step world before event after

/-- Every step is allowed. -/
def anyStep (_ : Configuration signature Store Result) (_ : Event signature) : Prop := True

variable {world : World signature Store}
  {allowed : Configuration signature Store Result → Event signature → Prop}
  {start before after : Configuration signature Store Result} {event : Event signature}

namespace Reaches

theorem refl : Reaches world allowed start start := Relation.ReflTransGen.refl

theorem trans (first : Reaches world allowed start before)
    (second : Reaches world allowed before after) : Reaches world allowed start after :=
  Relation.ReflTransGen.trans first second

theorem tail (first : Reaches world allowed start before)
    (permitted : allowed before event) (step : Step world before event after) :
    Reaches world allowed start after :=
  Relation.ReflTransGen.tail first ⟨event, permitted, step⟩

/-- A property that each allowed step preserves holds after every run. -/
theorem invariant (property : Configuration signature Store Result → Prop) (base : property start)
    (step : ∀ before event after, Reaches world allowed start before → property before →
      allowed before event → Step world before event after → property after)
    (reached : Reaches world allowed start after) : property after := by
  induction reached with
  | refl => exact base
  | tail previous last ih =>
    obtain ⟨event, permitted, move⟩ := last
    exact step _ event _ previous ih permitted move

/-- A run under one condition is a run under every weaker one. -/
theorem weaken {weaker : Configuration signature Store Result → Event signature → Prop}
    (implied : ∀ before event, allowed before event → weaker before event)
    (reached : Reaches world allowed start after) : Reaches world weaker start after := by
  refine Relation.ReflTransGen.mono (fun before after step => ?_) _ _ reached
  obtain ⟨event, permitted, move⟩ := step
  exact ⟨event, implied before event permitted, move⟩

end Reaches

/-- A ready process takes the step that the world offers it. -/
theorem Step.take {process : Nat} {effect : signature.Effect}
    {next : signature.Answer effect → Program signature Result} {answer : signature.Answer effect}
    {store : Store} (ready : before.processes process = .perform effect next)
    (happens : world before.log before.store ⟨process, effect, answer⟩ store) :
    Step world before ⟨process, effect, answer⟩
      (before.advance ⟨process, effect, answer⟩ next store) :=
  @Step.perform _ _ _ world before ⟨process, effect, answer⟩ next store ready happens

section

variable (step : Step world before event after)

include step

variable {process : Nat}

/-- The step of a ready process performs the effect it was ready for. -/
theorem Step.of_ready {effect : signature.Effect}
    {next : signature.Answer effect → Program signature Result} (mine : event.process = process)
    (ready : before.processes process = .perform effect next) :
    ∃ answer, event = ⟨process, effect, answer⟩ ∧ after.processes process = next answer ∧
      world before.log before.store ⟨process, effect, answer⟩ after.store := by
  obtain ⟨process, performed, answer⟩ := event
  subst mine
  cases step with
  | perform continuation store known happens =>
    rw [known] at ready
    cases ready
    exact ⟨answer, rfl, Function.update_self _ _ _, happens⟩

/-- A finished process takes no step. -/
theorem Step.process_ne_of_done {result : Result}
    (finished : before.processes process = .done result) : event.process ≠ process := by
  rintro rfl
  cases step with
  | perform next after ready happens =>
    rw [ready] at finished
    cases finished

/-- A step leaves the programs of the other processes alone. -/
theorem Step.processes_of_ne (other : event.process ≠ process) :
    after.processes process = before.processes process := by
  cases step with
  | perform next after ready happens =>
    exact Function.update_of_ne other.symm _ _

theorem Step.log_eq : after.log = event :: before.log := by
  cases step with
  | perform => rfl

theorem Step.happens : world before.log before.store event after.store := by
  cases step with
  | perform next after ready happens => exact happens

end

/-- A process that can always take its next step finishes by its own steps. -/
theorem Reaches.finishes {process : Nat} (property : Configuration signature Store Result → Prop)
    (step : ∀ before effect next, property before →
      before.processes process = .perform effect next →
      ∃ answer store, world before.log before.store ⟨process, effect, answer⟩ store ∧
        property (before.advance ⟨process, effect, answer⟩ next store))
    (holds : property start) :
    ∃ after result, Reaches world (fun _ event => event.process = process) start after ∧
      after.processes process = .done result ∧ property after := by
  generalize program : start.processes process = remaining
  induction remaining generalizing start with
  | done result => exact ⟨start, result, Reaches.refl, program, holds⟩
  | perform effect next ih =>
    obtain ⟨answer, store, happens, kept⟩ := step start effect next holds program
    obtain ⟨after, result, reached, finished, final⟩ := ih answer kept (Function.update_self _ _ _)
    have first : Reaches world (fun _ event => event.process = process) start
        (start.advance ⟨process, effect, answer⟩ next store) :=
      Reaches.refl.tail rfl (Step.take program happens)
    exact ⟨after, result, first.trans reached, finished, final⟩

end Tempogate.Foundation

namespace Tempogate.Foundation

/-- An executor chooses one answer and one next store for each effect. -/
def Executor (signature : Signature) (Store : Type) : Type :=
  List (Event signature) → Store → Nat → (effect : signature.Effect) →
    signature.Answer effect × Store

namespace Configuration

variable {signature : Signature} {Store Result : Type}

/-- One process takes a turn. A finished process changes nothing. -/
def turn (executor : Executor signature Store) (before : Configuration signature Store Result)
    (process : Nat) : Configuration signature Store Result :=
  match before.processes process with
  | .done _ => before
  | .perform effect next =>
    before.advance ⟨process, effect, (executor before.log before.store process effect).1⟩ next
      (executor before.log before.store process effect).2

/-- The processes take turns in the given order. -/
def turns (executor : Executor signature Store) (before : Configuration signature Store Result) :
    List Nat → Configuration signature Store Result
  | [] => before
  | process :: rest => (before.turn executor process).turns executor rest

/-- Every turn of the order is a step the world and the condition allow. -/
def Lawful (world : World signature Store)
    (allowed : Configuration signature Store Result → Event signature → Prop)
    (executor : Executor signature Store) (before : Configuration signature Store Result) :
    List Nat → Prop
  | [] => True
  | process :: rest =>
    (match before.processes process with
      | .done _ => True
      | .perform effect _ =>
        let outcome := executor before.log before.store process effect
        allowed before ⟨process, effect, outcome.1⟩ ∧
          world before.log before.store ⟨process, effect, outcome.1⟩ outcome.2) ∧
      (before.turn executor process).Lawful world allowed executor rest

variable {world : World signature Store}
  {allowed : Configuration signature Store Result → Event signature → Prop}
  {executor : Executor signature Store}

variable {before : Configuration signature Store Result}

/-- The turn of a ready process is a step. -/
theorem turn_step {process : Nat} {effect : signature.Effect}
    {next : signature.Answer effect → Program signature Result}
    (ready : before.processes process = .perform effect next)
    (follows : world before.log before.store
      ⟨process, effect, (executor before.log before.store process effect).1⟩
      (executor before.log before.store process effect).2) :
    Step world before ⟨process, effect, (executor before.log before.store process effect).1⟩
      (before.turn executor process) := by
  unfold turn
  rw [ready]
  exact Step.take ready follows

/-- A lawful order of turns is a run. -/
theorem Lawful.reaches {order : List Nat} (lawful : before.Lawful world allowed executor order) :
    Reaches world allowed before (before.turns executor order) := by
  induction order generalizing before with
  | nil => exact Reaches.refl
  | cons process rest ih =>
    obtain ⟨first, remaining⟩ := lawful
    refine Reaches.trans ?_ (ih remaining)
    cases ready : before.processes process with
    | done result =>
      unfold turn
      rw [ready]
      exact Reaches.refl
    | perform effect next =>
      rw [ready] at first
      exact Reaches.refl.tail first.1 (turn_step ready first.2)

/-- An executor that follows the world from every store it can reach makes every order lawful. -/
theorem lawful_of_invariant (property : Store → Prop)
    (follows : ∀ log store process effect, property store →
      world log store ⟨process, effect, (executor log store process effect).1⟩
          (executor log store process effect).2 ∧
        property (executor log store process effect).2) (holds : property before.store)
    (order : List Nat) : before.Lawful world anyStep executor order := by
  induction order generalizing before with
  | nil => trivial
  | cons process rest ih =>
    cases ready : before.processes process with
    | done result =>
      refine ⟨?_, ih ?_⟩
      · rw [ready]
        trivial
      · rw [turn, ready]
        exact holds
    | perform effect next =>
      obtain ⟨allowed, kept⟩ := follows before.log before.store process effect holds
      refine ⟨?_, ih ?_⟩
      · rw [ready]
        exact ⟨trivial, allowed⟩
      · rw [turn, ready]
        exact kept

/-- An executor that always follows the world makes every order lawful. -/
theorem lawful_of_follows (follows : ∀ log store process effect,
      world log store ⟨process, effect, (executor log store process effect).1⟩
        (executor log store process effect).2)
    (before : Configuration signature Store Result) (order : List Nat) :
    before.Lawful world anyStep executor order :=
  lawful_of_invariant (fun _ => True)
    (fun log store process effect _ => ⟨follows log store process effect, trivial⟩) trivial order

end Configuration

end Tempogate.Foundation
