/-
This file defines a transactional server with row locks at isolation level READ COMMITTED, and
builds statements and transactions from its elementary actions.
-/

import Tempogate.Foundation.Protocol

namespace Tempogate.Foundation

variable {mode : LockMode} {post : Ghost → Except String (Option Row) → Prop}

inductive LockMode
  | share
  | exclusive
  deriving DecidableEq, Repr

def LockMode.conflicts : LockMode → LockMode → Bool
  | .share, .share => false
  | _, _ => true

theorem LockMode.conflicts_symm (first second : LockMode) :
    first.conflicts second = second.conflicts first := by
  cases first <;> cases second <;> rfl

variable {Database Write Key : Type}

/-- These are the elementary actions of a statement and of its transaction. -/
inductive ServerEffect (Database Write Key : Type)
  | begin
  | snapshot
  | lock (key : Key) (mode : LockMode)
  | claim (key : Key) (free : Database → Bool) (write : Write)
  | write (write : Write)
  | commit
  | rollback

/-- Reading and locking answer the rows the transaction sees at that moment. -/
def ServerEffect.Answer : ServerEffect Database Write Key → Type
  | begin | commit => Except String Unit
  | snapshot | lock _ _ => Except String Database
  | claim _ _ _ => Except String Bool
  | write _ | rollback => Unit

/-- The server reported a failure. -/
def ServerEffect.Fails : (effect : ServerEffect Database Write Key) → effect.Answer → Prop
  | begin, answer | commit, answer => ∃ cause, answer = Except.error cause
  | snapshot, answer | lock _ _, answer => ∃ cause, answer = Except.error cause
  | claim _ _ _, answer => ∃ cause, answer = Except.error cause
  | write _, _ | rollback, _ => False

def server (Database Write Key : Type) : Signature :=
  ⟨ServerEffect Database Write Key, ServerEffect.Answer⟩

/-- A transaction keeps its unpublished writes, oldest first, and its locks. -/
structure Transaction (Write Key : Type) where
  writes : List Write
  locks : List (Key × LockMode)

def Transaction.idle : Transaction Write Key := ⟨[], []⟩

structure Server (Database Write Key : Type) where
  committed : Database
  sessions : Nat → Transaction Write Key

namespace Server

/-- No transaction is open. -/
def quiet (database : Database) : Server Database Write Key := ⟨database, fun _ => .idle⟩

variable (apply : Write → Database → Database)

/-- A transaction sees the published rows with its own writes on top. -/
def view (state : Server Database Write Key) (process : Nat) : Database :=
  (state.sessions process).writes.foldl (fun database write => apply write database) state.committed

variable (state : Server Database Write Key)

variable (process : Nat)

variable (key : Key) (mode : LockMode)

def Holds : Prop :=
  (key, mode) ∈ (state.sessions process).locks

/-- A lock is granted when no other transaction holds a conflicting one. -/
def Grants : Prop :=
  ∀ other held, other ≠ process → state.Holds other key held → held.conflicts mode = false

def setSession (transaction : Transaction Write Key) : Server Database Write Key :=
  { state with sessions := Function.update state.sessions process transaction }

def take : Server Database Write Key :=
  state.setSession process
    { state.sessions process with locks := (key, mode) :: (state.sessions process).locks }

def record (write : Write) : Server Database Write Key :=
  state.setSession process
    { state.sessions process with writes := (state.sessions process).writes ++ [write] }

def discard : Server Database Write Key :=
  state.setSession process .idle

def publish (state : Server Database Write Key) (process : Nat) : Server Database Write Key :=
  { state.discard process with committed := state.view apply process }

end Server

/-- A lock waits until it is granted and then answers the newest rows.
A claim inserts under a unique key and waits for others that are inserting under it.
A failed effect leaves the transaction as it was. A failed commit ends it, and the writes of a
commit that is only not confirmed are published. -/
inductive Serves (apply : Write → Database → Database) (state : Server Database Write Key)
    (process : Nat) : (effect : ServerEffect Database Write Key) → effect.Answer →
      Server Database Write Key → Prop
  | begin : Serves apply state process .begin (.ok ()) state
  | beginFailed (cause : String) : Serves apply state process .begin (.error cause) state
  | snapshot : Serves apply state process .snapshot (.ok (state.view apply process)) state
  | snapshotFailed (cause : String) : Serves apply state process .snapshot (.error cause) state
  | lock {key : Key} {mode : LockMode} (granted : state.Grants process key mode) :
      Serves apply state process (.lock key mode) (.ok (state.view apply process))
        (state.take process key mode)
  | lockFailed {key : Key} {mode : LockMode} (cause : String) :
      Serves apply state process (.lock key mode) (.error cause) state
  | claimed {key : Key} {free : Database → Bool} {write : Write}
      (granted : state.Grants process key .exclusive)
      (isFree : free (state.view apply process) = true) :
      Serves apply state process (.claim key free write) (.ok true)
        ((state.take process key .exclusive).record process write)
  | taken {key : Key} {free : Database → Bool} {write : Write}
      (granted : state.Grants process key .exclusive)
      (isTaken : free (state.view apply process) = false) :
      Serves apply state process (.claim key free write) (.ok false) state
  | claimFailed {key : Key} {free : Database → Bool} {write : Write} (cause : String) :
      Serves apply state process (.claim key free write) (.error cause) state
  | write {write : Write} :
      Serves apply state process (.write write) () (state.record process write)
  | commit : Serves apply state process .commit (.ok ()) (state.publish apply process)
  | commitFailed (cause : String) :
      Serves apply state process .commit (.error cause) (state.discard process)
  | commitUnconfirmed (cause : String) :
      Serves apply state process .commit (.error cause) (state.publish apply process)
  | rollback : Serves apply state process .rollback () (state.discard process)

/-- Transactions run as their server serves them. -/
def readCommitted (apply : Write → Database → Database) :
    World (server Database Write Key) (Server Database Write Key) :=
  fun _ state event after => Serves apply state event.process event.effect event.answer after

namespace Server

variable {state : Server Database Write Key} {process other : Nat}

/-- No two transactions hold conflicting locks. -/
def Exclusion (state : Server Database Write Key) : Prop :=
  ∀ first second key one two, first ≠ second → state.Holds first key one →
    state.Holds second key two → one.conflicts two = false

variable (transaction : Transaction Write Key)

@[simp] theorem setSession_self :
    (state.setSession process transaction).sessions process = transaction :=
  Function.update_self _ _ _

@[simp] theorem setSession_of_ne (distinct : other ≠ process) :
    (state.setSession process transaction).sessions other = state.sessions other :=
  Function.update_of_ne distinct _ _

@[simp] theorem take_self {key : Key} :
    (state.take process key mode).sessions process =
      { state.sessions process with locks := (key, mode) :: (state.sessions process).locks } :=
  setSession_self _

@[simp] theorem record_self {write : Write} : (state.record process write).sessions process =
      { state.sessions process with writes := (state.sessions process).writes ++ [write] } :=
  setSession_self _

@[simp] theorem discard_self : (state.discard process).sessions process = .idle :=
  setSession_self _

@[simp] theorem publish_self {apply : Write → Database → Database} :
    (state.publish apply process).sessions process = .idle :=
  setSession_self _

section View

variable {apply : Write → Database → Database}

theorem view_take {key : Key} :
    (state.take process key mode).view apply process = state.view apply process := by
  unfold view
  rw [take_self]
  rfl

theorem view_record {write : Write} :
    (state.record process write).view apply process = apply write (state.view apply process) := by
  unfold view
  rw [record_self, List.foldl_append]
  rfl

theorem view_discard : (state.discard process).view apply process = state.committed := by
  unfold view
  rw [discard_self]
  rfl

theorem view_publish :
    (state.publish apply process).view apply process = state.view apply process := by
  change ((state.publish apply process).sessions process).writes.foldl _
    (state.view apply process) = state.view apply process
  rw [publish_self]
  rfl

end View

variable {transaction : Transaction Write Key}

theorem holds_setSession_of_ne (distinct : other ≠ process) {key : Key} :
    (state.setSession process transaction).Holds other key mode ↔ state.Holds other key mode := by
  unfold Holds
  rw [setSession_of_ne transaction distinct]

/-- Replacing a session keeps exclusion when each new lock was held or is granted. -/
theorem Exclusion.setSession (exclusion : state.Exclusion)
    (justified : ∀ key mode, (key, mode) ∈ transaction.locks →
      state.Holds process key mode ∨ state.Grants process key mode) :
    (state.setSession process transaction).Exclusion := by
  have against : ∀ second key one two, second ≠ process → (key, one) ∈ transaction.locks →
      state.Holds second key two → one.conflicts two = false := by
    intro second key one two distinct mine theirs
    rcases justified key one mine with held | granted
    · exact exclusion process second key one two distinct.symm held theirs
    · rw [LockMode.conflicts_symm]
      exact granted second two distinct theirs
  intro first second key one two distinct holdsFirst holdsSecond
  by_cases firstIs : first = process
  · subst firstIs
    rw [holds_setSession_of_ne distinct.symm] at holdsSecond
    refine against second key one two distinct.symm ?_ holdsSecond
    simpa [Holds] using holdsFirst
  · rw [holds_setSession_of_ne firstIs] at holdsFirst
    by_cases secondIs : second = process
    · subst secondIs
      rw [LockMode.conflicts_symm]
      refine against first key two one firstIs ?_ holdsFirst
      simpa [Holds] using holdsSecond
    · rw [holds_setSession_of_ne secondIs] at holdsSecond
      exact exclusion first second key one two distinct holdsFirst holdsSecond

/-- Exclusion depends on the sessions alone. -/
theorem Exclusion.of_sessions {after : Server Database Write Key} (exclusion : state.Exclusion)
    (same : after.sessions = state.sessions) : after.Exclusion := by
  intro first second key one two distinct holdsFirst holdsSecond
  unfold Holds at holdsFirst holdsSecond
  rw [same] at holdsFirst holdsSecond
  exact exclusion first second key one two distinct holdsFirst holdsSecond

theorem Exclusion.quiet (database : Database) :
    (Server.quiet database : Server Database Write Key).Exclusion := by
  intro first second key one two _ holdsFirst _
  simp [Holds, Server.quiet, Transaction.idle] at holdsFirst

theorem Exclusion.take {key : Key} (exclusion : state.Exclusion)
    (granted : state.Grants process key mode) : (state.take process key mode).Exclusion := by
  refine exclusion.setSession fun wanted wantedMode member => ?_
  rcases List.mem_cons.mp member with new | old
  · cases new
    exact .inr granted
  · exact .inl old

theorem Exclusion.record {write : Write} (exclusion : state.Exclusion) :
    (state.record process write).Exclusion :=
  exclusion.setSession fun _ _ member => .inl member

theorem Exclusion.discard (exclusion : state.Exclusion) : (state.discard process).Exclusion :=
  exclusion.setSession fun _ _ member => by simp [Transaction.idle] at member

end Server

section Serving

variable {apply : Write → Database → Database} {state after : Server Database Write Key}
  {process other : Nat} {effect : ServerEffect Database Write Key} {answer : effect.Answer}

variable (served : Serves apply state process effect answer after)

include served

/-- The server never grants conflicting locks. -/
theorem Serves.exclusion (exclusion : state.Exclusion) : after.Exclusion := by
  cases served with
  | lock granted => exact exclusion.take granted
  | claimed granted isFree => exact (exclusion.take granted).record
  | write => exact exclusion.record
  | commit | commitUnconfirmed => exact exclusion.discard.of_sessions rfl
  | commitFailed cause => exact exclusion.discard
  | rollback => exact exclusion.discard
  | _ => exact exclusion

/-- A transaction never touches the session of another one. -/
theorem Serves.sessions_of_ne (distinct : other ≠ process) :
    after.sessions other = state.sessions other := by
  cases served with
  | lock | write | commit | commitFailed | commitUnconfirmed | rollback =>
    exact Server.setSession_of_ne _ distinct
  | claimed granted isFree =>
    exact (Server.setSession_of_ne _ distinct).trans (Server.setSession_of_ne _ distinct)
  | _ => rfl

/-- The published rows change only when a transaction commits. -/
theorem Serves.committed_cases : after.committed = state.committed ∨
      effect = .commit ∧ after.committed = state.view apply process := by
  cases served with
  | commit => exact .inr ⟨rfl, rfl⟩
  | commitUnconfirmed cause => exact .inr ⟨rfl, rfl⟩
  | _ => exact .inl rfl

/-- A lock that is free for a transaction stays free for it while only it runs. -/
theorem Serves.grants {key : Key} (granted : state.Grants process key mode) :
    after.Grants process key mode := by
  intro other held distinct holds
  unfold Server.Holds at holds
  rw [served.sessions_of_ne distinct] at holds
  exact granted other held distinct holds

end Serving

end Tempogate.Foundation

namespace Tempogate.Foundation

variable {Database Write Key Row Failure Result : Type}

/-- An action runs against the server in the session of its process. -/
abbrev Action (Database Write Key Result : Type) : Type :=
  Program (server Database Write Key) Result

namespace Action

def begin : Action Database Write Key (Except String Unit) :=
  @Program.call (server Database Write Key) .begin

def snapshot : Action Database Write Key (Except String Database) :=
  @Program.call (server Database Write Key) .snapshot

variable (key : Key)

def lock (mode : LockMode) : Action Database Write Key (Except String Database) :=
  @Program.call (server Database Write Key) (.lock key mode)

/-- An INSERT reports whether its unique key was free. -/
def claim (free : Database → Bool) (write : Write) :
    Action Database Write Key (Except String Bool) :=
  @Program.call (server Database Write Key) (.claim key free write)

def write (change : Write) : Action Database Write Key Unit :=
  @Program.call (server Database Write Key) (.write change)

def commit : Action Database Write Key (Except String Unit) :=
  @Program.call (server Database Write Key) .commit

def rollback : Action Database Write Key Unit :=
  @Program.call (server Database Write Key) .rollback

/-- A plain SELECT reads one snapshot. -/
def select (find : Database → Row) : Action Database Write Key (Except String Row) := do
  let answer : Except String Database ← snapshot
  match answer with
  | .error cause => return .error cause
  | .ok visible => return .ok (find visible)

/-- A locking SELECT waits for the lock of a visible row and checks its newest version again. -/
def selectLocking (mode : LockMode) (find : Database → Option Row) :
    Action Database Write Key (Except String (Option Row)) := do
  let answer : Except String Database ← snapshot
  match answer with
  | .error cause => return .error cause
  | .ok visible =>
  match find visible with
  | none => return .ok none
  | some _ =>
  let locked : Except String Database ← lock key mode
  match locked with
  | .error cause => return .error cause
  | .ok newest => return .ok (find newest)

/-- An UPDATE or DELETE of one row writes if the row still qualifies once it is locked. -/
def change (find : Database → Option Row) (effect : Write) :
    Action Database Write Key (Except String (Option Row)) := do
  let answer : Except String (Option Row) ← selectLocking key .exclusive find
  match answer with
  | .error cause => return .error cause
  | .ok none => return .ok none
  | .ok (some row) =>
  write effect
  return .ok (some row)

/-- A statement outside a transaction commits by itself. -/
def autocommit (statement : Action Database Write Key (Except String Result)) :
    Action Database Write Key (Except String Result) := do
  match ← statement with
  | .error cause =>
    rollback
    return .error cause
  | .ok result =>
  let committed : Except String Unit ← commit
  match committed with
  | .error cause => return .error cause
  | .ok () => return .ok result

section Rules

variable {Label Ghost : Type} {protocol : Protocol Label Ghost}
  {observe : Observer (server Database Write Key) Label} {ghost : Ghost}

/-- A SELECT shows one snapshot. -/
theorem meets_select {find : Database → Row} {post : Ghost → Except String Row → Prop}
    (failed : ∀ cause, protocol.Admits ghost (observe .snapshot (.error cause))
      (post · (.error cause)))
    (read : ∀ visible, protocol.Admits ghost (observe .snapshot (.ok visible))
      (post · (.ok (find visible)))) :
    (select find).Meets protocol observe post ghost := by
  rintro (cause | visible) assumed
  · exact failed cause assumed
  · exact read visible assumed

variable {key : Key}

theorem meets_lock {post : Ghost → Except String Database → Prop}
    (failed : ∀ cause, protocol.Admits ghost (observe (.lock key mode) (.error cause))
      (post · (.error cause)))
    (granted : ∀ newest, protocol.Admits ghost (observe (.lock key mode) (.ok newest))
      (post · (.ok newest))) : (lock key mode).Meets protocol observe post ghost := by
  rintro (cause | newest) assumed
  · exact failed cause assumed
  · exact granted newest assumed

/-- A locking SELECT shows a snapshot and, if the row is visible, the lock. -/
theorem meets_selectLocking {find : Database → Option Row}
    (failed : ∀ cause, protocol.Admits ghost (observe .snapshot (.error cause))
      (post · (.error cause))) (missing : ∀ visible, find visible = none →
      protocol.Admits ghost (observe .snapshot (.ok visible)) (post · (.ok none)))
    (locking : ∀ visible row, find visible = some row →
      protocol.Admits ghost (observe .snapshot (.ok visible))
        ((lock key mode).Meets protocol observe fun after locked => post after (locked.map find))) :
    (selectLocking key mode find).Meets protocol observe post ghost := by
  rintro (cause | visible) assumed
  · exact failed cause assumed
  · cases found : find visible with
    | none =>
      obtain ⟨permitted, holds⟩ := missing visible found assumed
      refine ⟨permitted, ?_⟩
      change Program.Meets _ _ _ (match find visible with
        | none => Program.done (Except.ok none)
        | some _ => _) _
      rw [found]
      exact holds
    | some row =>
      obtain ⟨permitted, locks⟩ := locking visible row found assumed
      refine ⟨permitted, ?_⟩
      change Program.Meets _ _ _ (match find visible with
        | none => Program.done (Except.ok none)
        | some _ => Program.bind (lock key mode) fun (locked : Except String Database) =>
          match locked with
          | .error cause => Program.done (Except.error cause)
          | .ok newest => Program.done (Except.ok (find newest))) _
      rw [found]
      rintro (cause | newest) assumedLock
      · exact locks (.error cause) assumedLock
      · exact locks (.ok newest) assumedLock

/-- A change shows the locking SELECT and then its write. -/
theorem meets_change {find : Database → Option Row} {effect : Write}
    (locking : (selectLocking key .exclusive find).Meets protocol observe
      (fun after locked => match locked with
        | .ok (some row) => (write effect).Meets protocol observe
            (fun final _ => post final (.ok (some row))) after
        | .ok none => post after (.ok none)
        | .error cause => post after (.error cause)) ghost) :
    (change key find effect).Meets protocol observe post ghost := by
  refine (Program.meets_bind _ _ _).mpr (locking.mono ?_)
  rintro after (cause | _ | row) holds
  · exact holds
  · exact holds
  · exact holds

/-- A statement of its own shows its commit, or its rollback after a failure. -/
theorem meets_autocommit {statement : Action Database Write Key (Except String Result)}
    {post : Ghost → Except String Result → Prop}
    (runs : statement.Meets protocol observe (fun after outcome => match outcome with
        | .error cause => rollback.Meets protocol observe
            (fun final _ => post final (.error cause)) after
        | .ok result => commit.Meets protocol observe
            (fun final committed => post final (committed.map fun _ => result)) after) ghost) :
    (autocommit statement).Meets protocol observe post ghost := by
  refine (Program.meets_bind _ _ _).mpr (runs.mono ?_)
  rintro after (cause | result) holds
  · exact holds
  · rintro (cause | ⟨⟩) assumed
    · exact holds (.error cause) assumed
    · exact holds (.ok ()) assumed

end Rules

end Action

end Tempogate.Foundation
