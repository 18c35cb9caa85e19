/-
This file evaluates programs one at a time, with and without a transactional server.
-/

import Tempogate.Foundation.Transactions

namespace Tempogate.Foundation

open Server Configuration Action Program

/-- A responder answers every effect at once. -/
def Responder (signature : Signature) (Store : Type) : Type :=
  (effect : signature.Effect) → Store → signature.Answer effect × Store

/-- This responder runs every statement and never fails one. -/
def Responder.runs {Statement Store : Type} {Reply : Statement → Type}
    (execute : (statement : Statement) → Store → Reply statement × Store) :
    Responder ⟨Statement, fun statement => Except String (Reply statement)⟩ Store :=
  fun statement store => (.ok (execute statement store).1, (execute statement store).2)

namespace Program

variable {signature target : Signature} {Store Result Middle : Type}

def evaluate (respond : Responder signature Store) :
    Program signature Result → Store → Result × Store
  | .done result, store => (result, store)
  | .perform effect next, store =>
    (next (respond effect store).1).evaluate respond (respond effect store).2

variable (respond : Responder signature Store)

theorem evaluate_bind (program : Program signature Middle)
    (continuation : Middle → Program signature Result) (store : Store) :
    (program.bind continuation).evaluate respond store =
      (continuation (program.evaluate respond store).1).evaluate respond
        (program.evaluate respond store).2 := by
  induction program generalizing store with
  | done result => rfl
  | perform effect next ih => exact ih _ _

variable {respond : Responder signature Store} {store : Store}

/-- A composed program goes on from the result of its first part. -/
theorem evaluate_then {program : Program signature Middle}
    {continuation : Middle → Program signature Result} {between : Store} {middle : Middle}
    (first : program.evaluate respond store = (middle, between)) :
    (program >>= continuation).evaluate respond store =
      (continuation middle).evaluate respond between := by
  refine (evaluate_bind respond program continuation store).trans ?_
  rw [first]

/-- A call goes on with the answer the responder gives it. -/
theorem evaluate_call {effect : signature.Effect} {answer : signature.Answer effect} {after : Store}
    {continuation : signature.Answer effect → Program signature Result}
    (answered : respond effect store = (answer, after)) :
    (call effect >>= continuation).evaluate respond store =
      (continuation answer).evaluate respond after := by
  change (continuation (respond effect store).1).evaluate respond (respond effect store).2 = _
  rw [answered]

/-- A statement that runs goes on with its reply. -/
theorem evaluate_runs {Statement : Type} {Reply : Statement → Type} {statement : Statement}
    {execute : (statement : Statement) → Store → Reply statement × Store}
    {reply : Reply statement} {after : Store} {continuation : Except String (Reply statement) →
      Program ⟨Statement, fun statement => Except String (Reply statement)⟩ Result}
    (executed : execute statement store = (reply, after)) :
    (call statement >>= continuation).evaluate (.runs execute) store =
      (continuation (.ok reply)).evaluate (.runs execute) after := by
  refine evaluate_call ?_
  simp only [Responder.runs, executed]

/-- Responders that answer alike and stay related give related results. -/
theorem evaluate_related {Other : Type} {first : Responder signature Store}
    {second : Responder signature Other} (related : Store → Other → Prop)
    (step : ∀ effect store other, related store other →
      (first effect store).1 = (second effect other).1 ∧
        related (first effect store).2 (second effect other).2) (program : Program signature Result)
    {other : Other} (start : related store other) :
    (program.evaluate first store).1 = (program.evaluate second other).1 ∧
      related (program.evaluate first store).2 (program.evaluate second other).2 := by
  induction program generalizing store other with
  | done result => exact ⟨rfl, start⟩
  | perform effect next ih =>
    obtain ⟨answer, after⟩ := step effect store other start
    simp only [evaluate]
    rw [answer]
    exact ih _ after

/-- What every answer keeps holds after the program. -/
theorem evaluate_invariant (property : Store → Prop)
    (step : ∀ effect store, property store → property (respond effect store).2)
    (program : Program signature Result) (holds : property store) :
    property (program.evaluate respond store).2 := by
  induction program generalizing store with
  | done result => exact holds
  | perform effect next ih => exact ih _ (step effect store holds)

end Program

/-- Each summand has its own responder and its own store. -/
def Responder.sum {outer inner : Signature} {Store Other : Type} (first : Responder outer Store)
    (second : Responder inner Other) : Responder (outer.sum inner) (Store × Other)
  | .inl effect, (store, other) => ((first effect store).1, (first effect store).2, other)
  | .inr effect, (store, other) => ((second effect other).1, store, (second effect other).2)

variable {signature : Signature}

/-- This responder also keeps its exchanges, the newest one last. -/
def Responder.logged {Store : Type} (respond : Responder signature Store) :
    Responder signature (List (Exchange signature) × Store) := fun effect (log, store) =>
  ((respond effect store).1, log ++ [⟨effect, (respond effect store).1⟩], (respond effect store).2)

/-- A program that meets a protocol ends as promised when the responder keeps the assumption. -/
theorem Program.Meets.evaluate {Store Result Ghost : Type}
    {protocol : Protocol (Exchange signature) Ghost} {post : Ghost → Result → Prop}
    {respond : Responder signature Store}
    (respects : ∀ ghost effect store, protocol.assumes ghost ⟨effect, (respond effect store).1⟩)
    {program : Program signature Result} {start : Ghost} {log : List (Exchange signature)}
    {store : Store}
    (meets : program.Meets protocol Exchange.mk post (log.foldl protocol.advance start)) :
    post ((program.evaluate respond.logged (log, store)).2.1.foldl protocol.advance start)
      (program.evaluate respond.logged (log, store)).1 := by
  induction program generalizing log store with
  | done result => exact meets
  | perform effect next ih =>
    refine ih (respond effect store).1 ?_
    rw [List.foldl_append]
    exact (meets _ (respects _ effect store)).2

section Server

variable {Database Write Key Result : Type} {apply : Write → Database → Database}
  {state : Server Database Write Key} {process : Nat}

/-- This responder serves one transaction that nobody else disturbs and never fails it. -/
def Server.serve (apply : Write → Database → Database) (process : Nat) :
    Responder (server Database Write Key) (Server Database Write Key)
  | .begin, state => (.ok (), state)
  | .snapshot, state => (.ok (state.view apply process), state)
  | .lock key mode, state => (.ok (state.view apply process), state.take process key mode)
  | .claim key free write, state =>
    if free (state.view apply process) then
      (.ok true, (state.take process key .exclusive).record process write)
    else (.ok false, state)
  | .write write, state => ((), state.record process write)
  | .commit, state => (.ok (), state.publish apply process)
  | .rollback, state => ((), state.discard process)

/-- No other transaction holds a lock. -/
def Server.Alone (state : Server Database Write Key) (process : Nat) : Prop :=
  ∀ other, other ≠ process → (state.sessions other).locks = []

theorem Server.Alone.grants (alone : state.Alone process) (key : Key) (mode : LockMode) :
    state.Grants process key mode := by
  intro other held distinct holds
  unfold Server.Holds at holds
  rw [alone other distinct] at holds
  cases holds

theorem Server.Alone.serves (alone : state.Alone process)
    (effect : ServerEffect Database Write Key) :
    Serves apply state process effect (serve apply process effect state).1
      (serve apply process effect state).2 := by
  cases effect with
  | begin => exact .begin
  | snapshot => exact .snapshot
  | lock key mode => exact .lock (alone.grants key mode)
  | claim key free write =>
    simp only [serve]
    split
    next isFree => exact .claimed (alone.grants key .exclusive) isFree
    next isTaken =>
      exact .taken (alone.grants key .exclusive) (Bool.eq_false_iff.mpr isTaken)
  | write write => exact .write
  | commit => exact .commit
  | rollback => exact .rollback

theorem Server.Alone.step {after : Server Database Write Key}
    {effect : ServerEffect Database Write Key} {answer : effect.Answer}
    (alone : state.Alone process) (served : Serves apply state process effect answer after) :
    after.Alone process := by
  intro other distinct
  rw [served.sessions_of_ne distinct]
  exact alone other distinct

/-- The undisturbed transactions take turns. -/
def Server.executor (apply : Write → Database → Database) :
    Executor (server Database Write Key) (Server Database Write Key) :=
  fun _ state process effect => serve apply process effect state

variable {before : Configuration (server Database Write Key) (Server Database Write Key) Result}

/-- Turns of one process are lawful while no other one holds a lock. -/
theorem Server.Alone.lawful (alone : before.store.Alone process) (count : Nat) :
    before.Lawful (readCommitted apply) anyStep (executor apply)
      (List.replicate count process) := by
  induction count generalizing before with
  | zero => trivial
  | succ count ih =>
    cases ready : before.processes process with
    | done result =>
      refine ⟨?_, ih ?_⟩
      · rw [ready]
        trivial
      · simp only [turn, ready]
        exact alone
    | perform effect next =>
      have served := @Server.Alone.serves _ _ _ apply _ _ alone effect
      refine ⟨?_, ih ?_⟩
      · rw [ready]
        exact ⟨trivial, served⟩
      · simp only [turn, ready]
        exact alone.step served

/-- Turns of one process leave the sessions of the others as they were. -/
theorem Server.Alone.sessions_turns (alone : before.store.Alone process) (count : Nat)
    {other : Nat} (distinct : other ≠ process) :
    (before.turns (executor apply) (List.replicate count process)).store.sessions other =
      before.store.sessions other := by
  induction count generalizing before with
  | zero => rfl
  | succ count ih =>
    cases ready : before.processes process with
    | done result =>
      have unmoved : before.turn (executor apply) process = before := by
        simp only [turn, ready]
      change ((before.turn (executor apply) process).turns _ _).store.sessions other = _
      rw [unmoved]
      exact ih alone
    | perform effect next =>
      have served := @Server.Alone.serves _ _ _ apply _ _ alone effect
      have moved : (before.turn (executor apply) process).store =
          (serve apply process effect before.store).2 := by
        simp only [turn, ready]
        rfl
      change ((before.turn (executor apply) process).turns _ _).store.sessions other = _
      rw [ih (by rw [moved]; exact alone.step served), moved]
      exact served.sessions_of_ne distinct

/-- This responder serves a transaction that is alone.
It keeps the published rows and the rows that the transaction sees. -/
def solo (apply : Write → Database → Database) :
    Responder (server Database Write Key) (Database × Database)
  | .begin, state => (.ok (), state)
  | .snapshot, state => (.ok state.2, state)
  | .lock _ _, state => (.ok state.2, state)
  | .claim _ free write, state =>
    if free state.2 then (.ok true, (state.1, apply write state.2)) else (.ok false, state)
  | .write write, state => ((), (state.1, apply write state.2))
  | .commit, state => (.ok (), (state.2, state.2))
  | .rollback, state => ((), (state.1, state.1))

/-- The server shows these published rows and this view to the transaction. -/
def Server.Shows (apply : Write → Database → Database) (process : Nat)
    (state : Server Database Write Key) (alone : Database × Database) : Prop :=
  state.committed = alone.1 ∧ state.view apply process = alone.2

theorem Server.serve_solo (effect : ServerEffect Database Write Key)
    (state : Server Database Write Key) (alone : Database × Database)
    (shows : state.Shows apply process alone) :
    (serve apply process effect state).1 =
        (solo apply effect alone : (server Database Write Key).Answer effect × _).1 ∧
      (serve apply process effect state).2.Shows apply process
        (solo apply effect alone : (server Database Write Key).Answer effect × _).2 := by
  obtain ⟨committed, working⟩ := alone
  obtain ⟨rfl, rfl⟩ := shows
  cases effect with
  | begin => exact ⟨rfl, rfl, rfl⟩
  | snapshot => exact ⟨rfl, rfl, rfl⟩
  | lock key mode => exact ⟨rfl, rfl, view_take⟩
  | claim key free write =>
    by_cases isFree : free (state.view apply process)
    · simp only [serve, solo, isFree, ↓reduceIte]
      refine ⟨rfl, rfl, ?_⟩
      rw [view_record, view_take]
    · simp only [serve, solo, isFree, Bool.false_eq_true, ↓reduceIte]
      exact ⟨rfl, rfl, rfl⟩
  | write write => exact ⟨rfl, rfl, view_record⟩
  | commit => exact ⟨rfl, rfl, view_publish⟩
  | rollback => exact ⟨rfl, rfl, view_discard⟩

/-- Between quiet states the server and the responder for a single transaction agree. -/
theorem evaluate_quiet (program : Program (server Database Write Key) Result)
    (database : Database) :
    (program.evaluate (serve apply process) (.quiet database)).1 =
        (program.evaluate (solo apply) (database, database)).1 ∧
      (program.evaluate (serve apply process) (.quiet database)).2.committed =
        (program.evaluate (solo apply) (database, database)).2.1 := by
  have agree := program.evaluate_related (Server.Shows apply process) serve_solo
    (show (quiet database).Shows apply process (database, database) from ⟨rfl, rfl⟩)
  exact ⟨agree.1, agree.2.1⟩

end Server

section Solo

variable {Database Write Key Row Failure Result : Type} {apply : Write → Database → Database}
  {published visible : Database}

theorem evaluate_select (find : Database → Row) :
    (select find : Action Database Write Key _).evaluate (solo apply)
      (published, visible) = (.ok (find visible), (published, visible)) := rfl

variable (key : Key)

theorem evaluate_selectLocking (mode : LockMode) (find : Database → Option Row) :
    (selectLocking key mode find : Action Database Write Key _).evaluate (solo apply)
      (published, visible) = (.ok (find visible), (published, visible)) := by
  rw [selectLocking, bind_eq, evaluate_bind]
  dsimp only [snapshot, call, evaluate, solo]
  cases found : find visible with
  | none => rfl
  | some row =>
    change (Except.ok (find visible), (published, visible)) = _
    rw [found]

variable (free : Database → Bool)

/-- A claim writes its row when the key is free. -/
theorem evaluate_claim (effect : Write) (isFree : free visible = true) :
    (claim key free effect : Action Database Write Key _).evaluate (solo apply)
      (published, visible) = (.ok true, (published, apply effect visible)) := by
  change (solo apply (.claim key free effect) (published, visible) :
    Except String Bool × (Database × Database)) = _
  simp only [solo, isFree, ↓reduceIte]
  rfl

/-- A claim of a taken key changes nothing. -/
theorem evaluate_claim_taken (effect : Write) (isTaken : free visible = false) :
    (claim key free effect : Action Database Write Key _).evaluate (solo apply)
      (published, visible) = (.ok false, (published, visible)) := by
  change (solo apply (.claim key free effect) (published, visible) :
    Except String Bool × (Database × Database)) = _
  simp only [solo, isTaken, Bool.false_eq_true, ↓reduceIte]
  rfl

/-- A change writes exactly when it finds its row. -/
theorem evaluate_change (find : Database → Option Row) (effect : Write) :
    (change key find effect : Action Database Write Key _).evaluate (solo apply)
        (published, visible) =
      (.ok (find visible),
        (published, if (find visible).isSome then apply effect visible else visible)) := by
  refine (evaluate_bind _ _ _ _).trans ?_
  rw [evaluate_selectLocking]
  cases found : find visible with
  | none => rfl
  | some row => rfl

/-- A successful statement of its own publishes what it sees. -/
theorem evaluate_autocommit {statement : Action Database Write Key (Except String Result)}
    {result : Result} {final : Database × Database}
    (runs : statement.evaluate (solo apply) (published, visible) = (.ok result, final)) :
    (autocommit statement).evaluate (solo apply) (published, visible) =
      (.ok result, (final.2, final.2)) := by
  refine (evaluate_bind _ _ _ _).trans ?_
  rw [runs]
  rfl

end Solo

end Tempogate.Foundation
