/-
This file defines linearizations of interleaved runs, and finds them
where every call takes effect with its last step.
-/

import Mathlib.Data.List.Basic
import Mathlib.Data.List.Nodup
import Tempogate.Foundation.Concurrent

namespace Tempogate.Foundation

open List

variable {signature : Signature} {Store Result State Answer : Type} {process second : Nat}

/-- The calls of these processes, run one at a time on a sequential object, give these answers. -/
inductive Replays (object : Nat → State → Answer × State) (answers : Nat → Option Answer)
    (start : State) : List Nat → State → Prop
  | start : Replays object answers start [] start
  | call {order : List Nat} {state : State} (process : Nat)
      (earlier : Replays object answers start order state)
      (answered : answers process = some (object process state).1) :
      Replays object answers start (order ++ [process]) (object process state).2

/-- Answers that agree on the order are replayed alike. -/
theorem Replays.congr {object : Nat → State → Answer × State} {answers others : Nat → Option Answer}
    {start state : State} {order : List Nat} (replays : Replays object answers start order state)
    (agree : ∀ process ∈ order, answers process = others process) :
    Replays object others start order state := by
  induction replays with
  | start => exact .start
  | call process earlier answered ih =>
    refine .call process (ih fun other member => agree other (mem_append_left _ member)) ?_
    rw [← agree process (mem_append_right _ (mem_singleton_self process))]
    exact answered

/-- The first process takes no step once the second one has begun. -/
def Precedes (log : List (Event signature)) (first second : Nat) : Prop :=
  ∃ newer older, log = newer ++ older ∧ (∀ event ∈ newer, event.process ≠ first) ∧
    ∀ event ∈ older, event.process ≠ second

/-- A finished process may have an answer. -/
def answerOf (returns : Result → Option Answer) : Program signature Result → Option Answer
  | .done result => returns result
  | .perform _ _ => none

/-- Running the answered calls one at a time in this order explains their answers and the state.
The order keeps the calls apart that did not overlap. -/
structure Linearizes (object : Nat → State → Answer × State) (returns : Result → Option Answer)
    (start state : State) (current : Configuration signature Store Result)
    (order : List Nat) : Prop where
  nodup : order.Nodup
  complete : ∀ process, process ∈ order ↔ (answerOf returns (current.processes process)).isSome
  respects : ∀ first ∈ order, ∀ second ∈ order, Precedes current.log first second →
    [first, second].Sublist order
  replays : Replays object (fun process => answerOf returns (current.processes process)) start
    order state
  began : ∀ process ∈ order, ∃ event ∈ current.log, event.process = process

/-- No process that has begun is preceded by the process of the newest event. -/
theorem not_precedes_cons {event : Event signature} {log : List (Event signature)}
    (began : ∃ earlier ∈ event :: log, earlier.process = second) :
    ¬ Precedes (event :: log) event.process second := by
  rintro ⟨newer, older, split, spared, unbegun⟩
  obtain ⟨earlier, member, mine⟩ := began
  cases newer with
  | nil =>
    rw [nil_append] at split
    exact unbegun earlier (split ▸ member) mine
  | cons newest rest =>
    cases split
    exact spared event mem_cons_self rfl

/-- An older event decides which of two processes that have begun precedes the other. -/
theorem precedes_of_cons {event : Event signature} {log : List (Event signature)}
    {first : Nat} (began : ∃ earlier ∈ log, earlier.process = second)
    (precedes : Precedes (event :: log) first second) : Precedes log first second := by
  obtain ⟨newer, older, split, spared, unbegun⟩ := precedes
  obtain ⟨earlier, member, mine⟩ := began
  cases newer with
  | nil =>
    rw [nil_append] at split
    exact absurd mine (unbegun earlier (split ▸ mem_cons_of_mem _ member))
  | cons newest rest =>
    cases split
    exact ⟨rest, older, rfl, fun event member => spared event (mem_cons_of_mem _ member),
      unbegun⟩

section Runs

variable {object : Nat → State → Answer × State} {returns : Result → Option Answer}
  {initial state : State} {world : World signature Store}
  {allowed : Configuration signature Store Result → Event signature → Prop}
  {start before after : Configuration signature Store Result} {event : Event signature}
  {order : List Nat}

/-- A step changes the answer of its own process only. -/
theorem Step.answerOf_of_ne (move : Step world before event after)
    (other : event.process ≠ process) :
    answerOf returns (after.processes process) = answerOf returns (before.processes process) := by
  rw [move.processes_of_ne other]

/-- A process that takes a step had no answer. -/
theorem Step.unanswered (move : Step world before event after) :
    answerOf returns (before.processes event.process) = none := by
  cases move with
  | perform next store ready happens =>
    rw [ready]
    rfl

section

variable (linear : Linearizes object returns initial state before order)
  (move : Step world before event after)

include linear move

theorem Linearizes.ne_of_mem (member : process ∈ order) :
    event.process ≠ process := by
  rintro rfl
  have answered := (linear.complete _).mp member
  rw [move.unanswered] at answered
  cases answered

theorem Linearizes.began_step (member : process ∈ order) :
    ∃ event ∈ after.log, event.process = process := by
  obtain ⟨earlier, present, mine⟩ := linear.began process member
  rw [move.log_eq]
  exact ⟨earlier, mem_cons_of_mem _ present, mine⟩

/-- A step that answers nobody leaves the order as it is. -/
theorem Linearizes.silent (quiet : answerOf returns (after.processes event.process) = none) :
    Linearizes object returns initial state after order where
  nodup := linear.nodup
  complete process := by
    by_cases mine : event.process = process
    · subst mine
      rw [quiet, linear.complete, move.unanswered]
    · rw [move.answerOf_of_ne mine, linear.complete]
  respects first inFirst second inSecond precedes := by
    rw [move.log_eq] at precedes
    exact linear.respects first inFirst second inSecond
      (precedes_of_cons (linear.began second inSecond) precedes)
  replays := linear.replays.congr fun process member =>
    (move.answerOf_of_ne (linear.ne_of_mem move member)).symm
  began process member := linear.began_step move member

/-- A step that answers its call as the object does puts that call at the end of the order. -/
theorem Linearizes.effective (answered : answerOf returns (after.processes event.process) =
      some (object event.process state).1) :
    Linearizes object returns initial (object event.process state).2 after
      (order ++ [event.process]) where
  nodup := by
    refine nodup_append.mpr ⟨linear.nodup, nodup_singleton _, ?_⟩
    rintro process member last isLast rfl
    exact linear.ne_of_mem move member (mem_singleton.mp isLast).symm
  complete process := by
    rw [mem_append, mem_singleton]
    by_cases mine : event.process = process
    · subst mine
      rw [answered]
      simp
    · rw [move.answerOf_of_ne mine, linear.complete]
      simp [Ne.symm mine]
  respects first inFirst second inSecond precedes := by
    have begun : ∃ earlier ∈ event :: before.log, earlier.process = second := by
      rcases mem_append.mp inSecond with older | last
      · exact move.log_eq ▸ linear.began_step move older
      · exact ⟨event, mem_cons_self, (mem_singleton.mp last).symm⟩
    rw [move.log_eq] at precedes
    rcases mem_append.mp inFirst with older | last
    · rcases mem_append.mp inSecond with alsoOlder | last
      · exact (linear.respects first older second alsoOlder
          (precedes_of_cons (linear.began second alsoOlder) precedes)).trans
            (sublist_append_left _ _)
      · rw [mem_singleton.mp last]
        exact (singleton_sublist.mpr older).append (List.Sublist.refl [event.process])
    · rw [mem_singleton.mp last] at precedes
      exact absurd precedes (not_precedes_cons begun)
  replays := by
    refine .call event.process (linear.replays.congr fun process member => ?_) answered
    exact (move.answerOf_of_ne (linear.ne_of_mem move member)).symm
  began process member := by
    rcases mem_append.mp member with older | last
    · exact linear.began_step move older
    · rw [move.log_eq]
      exact ⟨event, mem_cons_self, (mem_singleton.mp last).symm⟩

end

/-- A run is linearized when each of its steps answers nobody and keeps the state,
or answers its process as the object does. -/
theorem Reaches.linearizes (holds : Configuration signature Store Result → State → Prop)
    (fresh : ∀ process, answerOf returns (start.processes process) = none)
    (base : holds start initial)
    (step : ∀ before state event after, holds before state → allowed before event →
      Step world before event after →
      (answerOf returns (after.processes event.process) = none ∧ holds after state) ∨
        (answerOf returns (after.processes event.process) = some (object event.process state).1 ∧
          holds after (object event.process state).2))
    (reached : Reaches world allowed start after) :
    ∃ order state, Linearizes object returns initial state after order ∧ holds after state := by
  refine reached.invariant (fun current => ∃ order state,
    Linearizes object returns initial state current order ∧ holds current state) ?_ ?_
  · refine ⟨[], initial, ?_, base⟩
    refine ⟨nodup_nil, fun process => ?_, nofun, .start, nofun⟩
    rw [fresh]
    simp
  · rintro before event after _ ⟨order, state, linear, kept⟩ permitted move
    rcases step before state event after kept permitted move with
      ⟨quiet, later⟩ | ⟨answered, later⟩
    · exact ⟨order, state, linear.silent move quiet, later⟩
    · exact ⟨_, _, linear.effective move answered, later⟩

end Runs

end Tempogate.Foundation
