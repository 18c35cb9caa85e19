/-
This file follows each process of an interleaved run through a protocol of observations.
-/

import Tempogate.Foundation.Concurrent

namespace Tempogate.Foundation

/-- A protocol says what a process may show next and how its ghost state follows.
The assumption restricts what the surrounding world answers. -/
structure Protocol (Label Ghost : Type) where
  assumes : Ghost → Label → Prop
  permits : Ghost → Label → Prop
  advance : Ghost → Label → Ghost

/-- A label that is assumed is permitted, and the ghost it leads to is as wanted. -/
def Protocol.Admits {Label Ghost : Type} (protocol : Protocol Label Ghost) (ghost : Ghost)
    (label : Label) (wanted : Ghost → Prop) : Prop :=
  protocol.assumes ghost label →
    protocol.permits ghost label ∧ wanted (protocol.advance ghost label)

/-- An automaton is a protocol that permits exactly the labels it can read. -/
def Protocol.automaton {Label Ghost : Type} (read : Ghost → Label → Option Ghost) :
    Protocol Label Ghost where
  assumes _ _ := True
  permits ghost label := (read ghost label).isSome
  advance ghost label := (read ghost label).getD ghost

/-- An automaton advances by what it reads. -/
theorem Protocol.automaton_reads {Label Ghost : Type} {read : Ghost → Label → Option Ghost}
    {ghost : Ghost} {label : Label} (permitted : (Protocol.automaton read).permits ghost label) :
    read ghost label = some ((Protocol.automaton read).advance ghost label) := by
  obtain ⟨next, reads⟩ := Option.isSome_iff_exists.mp permitted
  simp [automaton, reads]

/-- An exchange is an effect together with its answer. -/
structure Exchange (signature : Signature) where
  effect : signature.Effect
  answer : signature.Answer effect

/-- An observer labels each effect together with its answer. -/
def Observer (signature : Signature) (Label : Type) : Type :=
  (effect : signature.Effect) → signature.Answer effect → Label

variable {signature target : Signature} {Store Result Middle Label Ghost : Type}

/-- A program meets a protocol when it permits every step the assumption leaves open,
and every result satisfies the postcondition. -/
def Program.Meets (protocol : Protocol Label Ghost) (observe : Observer signature Label)
    (post : Ghost → Result → Prop) : Program signature Result → Ghost → Prop
  | .done result, ghost => post ghost result
  | .perform effect next, ghost =>
    ∀ answer, protocol.assumes ghost (observe effect answer) →
      protocol.permits ghost (observe effect answer) ∧
        (next answer).Meets protocol observe post (protocol.advance ghost (observe effect answer))

namespace Program

variable {protocol : Protocol Label Ghost} {observe : Observer signature Label}
  {inner : Observer target Label} {post : Ghost → Result → Prop}

@[simp] theorem meets_perform (effect : signature.Effect)
    (next : signature.Answer effect → Program signature Result) (ghost : Ghost) :
    (Program.perform effect next).Meets protocol observe post ghost ↔
      ∀ answer, protocol.assumes ghost (observe effect answer) →
        protocol.permits ghost (observe effect answer) ∧ (next answer).Meets protocol observe post
            (protocol.advance ghost (observe effect answer)) := Iff.rfl

/-- A composed program meets a protocol when its second part does from every intermediate result. -/
theorem meets_bind (program : Program signature Middle)
    (continuation : Middle → Program signature Result) (ghost : Ghost) :
    (program.bind continuation).Meets protocol observe post ghost ↔ program.Meets protocol observe
        (fun ghost result => (continuation result).Meets protocol observe post ghost) ghost := by
  induction program generalizing ghost with
  | done result => rfl
  | perform effect next ih =>
    simp only [Program.bind, meets_perform, ih]

/-- A weaker postcondition is met too. -/
theorem Meets.mono {weaker : Ghost → Result → Prop} {program : Program signature Result}
    {ghost : Ghost} (implied : ∀ ghost result, post ghost result → weaker ghost result)
    (meets : program.Meets protocol observe post ghost) :
    program.Meets protocol observe weaker ghost := by
  induction program generalizing ghost with
  | done result => exact implied ghost result meets
  | perform effect next ih =>
    intro answer assumed
    obtain ⟨permitted, rest⟩ := meets answer assumed
    exact ⟨permitted, ih answer rest⟩

/-- A composed program meets a protocol when each part does. -/
theorem Meets.bind {middle : Ghost → Middle → Prop} {program : Program signature Middle}
    {continuation : Middle → Program signature Result} {ghost : Ghost}
    (first : program.Meets protocol observe middle ghost)
    (rest : ∀ after result, middle after result →
      (continuation result).Meets protocol observe post after) :
    (program >>= continuation).Meets protocol observe post ghost :=
  (meets_bind _ _ _).mpr (first.mono rest)

/-- A call keeps to an automaton that reads every answer to it. -/
theorem meets_automaton {read : Ghost → Label → Option Ghost} {effect : signature.Effect}
    {post : Ghost → signature.Answer effect → Prop} {ghost : Ghost}
    (reads : ∀ answer, ∃ after, read ghost (observe effect answer) = some after ∧
      post after answer) :
    (call effect).Meets (.automaton read) observe post ghost := by
  intro answer _
  obtain ⟨after, same, holds⟩ := reads answer
  simp only [Protocol.automaton, same, Option.isSome_some, Option.getD_some, true_and]
  exact holds

variable (program : Program signature Result)

/-- A program over the first summand shows what the observer sees of that summand. -/
theorem meets_first {rest : Signature} {observe : Observer (signature.sum rest) Label}
    (ghost : Ghost) :
    (program.first : Program (signature.sum rest) Result).Meets protocol observe post ghost ↔
      program.Meets protocol (fun effect answer => observe (.inl effect) answer) post ghost := by
  induction program generalizing ghost with
  | done result => rfl
  | perform effect next ih =>
    refine forall_congr' fun answer => imp_congr_right fun _ => and_congr_right fun _ => ?_
    exact ih answer _

/-- A program over the second summand shows what the observer sees of that summand. -/
theorem meets_second {outer : Signature} {observe : Observer (outer.sum signature) Label}
    (ghost : Ghost) :
    (program.second : Program (outer.sum signature) Result).Meets protocol observe post ghost ↔
      program.Meets protocol (fun effect answer => observe (.inr effect) answer) post ghost := by
  induction program generalizing ghost with
  | done result => rfl
  | perform effect next ih =>
    refine forall_congr' fun answer => imp_congr_right fun _ => and_congr_right fun _ => ?_
    exact ih answer _

/-- The body of a method refines its effect when it shows the protocol the same change. -/
def Refines (protocol : Protocol Label Ghost) (observe : Observer signature Label)
    (inner : Observer target Label) (effect : signature.Effect)
    (body : Program target (signature.Answer effect)) : Prop :=
  ∀ ghost, (∀ answer, protocol.assumes ghost (observe effect answer) →
      protocol.permits ghost (observe effect answer)) →
    body.Meets protocol inner (fun after answer => protocol.assumes ghost (observe effect answer) ∧
        after = protocol.advance ghost (observe effect answer)) ghost

/-- Replacing every effect by a refining body keeps the protocol. -/
theorem Meets.interpret {methods : ∀ effect, Program target (signature.Answer effect)}
    (refines : ∀ effect, Refines protocol observe inner effect (methods effect))
    {program : Program signature Result} {ghost : Ghost}
    (meets : program.Meets protocol observe post ghost) :
    (program.interpret methods).Meets protocol inner post ghost := by
  induction program generalizing ghost with
  | done result => exact meets
  | perform effect next ih =>
    have body := refines effect ghost fun answer assumed => (meets answer assumed).1
    refine (meets_bind _ _ _).mpr (body.mono ?_)
    rintro after answer ⟨assumed, rfl⟩
    exact ih answer (meets answer assumed).2

end Program

/-- The ghost state of a process is the protocol replayed over its own events. -/
def Protocol.ghost (protocol : Protocol Label Ghost) (observe : Observer signature Label)
    (start : Nat → Ghost) : List (Event signature) → Nat → Ghost
  | [], process => start process
  | event :: log, process =>
    if event.process = process then
      protocol.advance (protocol.ghost observe start log process)
        (observe event.effect event.answer)
    else protocol.ghost observe start log process

section Ghost

variable (protocol : Protocol Label Ghost) (observe : Observer signature Label)
  (start : Nat → Ghost)

@[simp] theorem Protocol.ghost_self (event : Event signature) (log : List (Event signature)) :
    protocol.ghost observe start (event :: log) event.process =
      protocol.advance (protocol.ghost observe start log event.process)
        (observe event.effect event.answer) := by
  simp [Protocol.ghost]

theorem Protocol.ghost_of_ne {event : Event signature} {process : Nat}
    (log : List (Event signature)) (other : event.process ≠ process) :
    protocol.ghost observe start (event :: log) process =
      protocol.ghost observe start log process := by
  simp [Protocol.ghost, other]

end Ghost

/-- A record keeps what a process is and what it has shown, the newest label first. -/
structure Record (Tag Label : Type) where
  tag : Tag
  trace : List Label

/-- A recorder judges each label by everything its process has shown before. -/
def Protocol.recorder {Tag : Type} (permits : Tag → List Label → Label → Prop) :
    Protocol Label (Record Tag Label) where
  assumes _ _ := True
  permits record label := permits record.tag record.trace label
  advance record label := { record with trace := label :: record.trace }

/-- The record of a process lists its own events. -/
theorem Protocol.ghost_recorder {Tag : Type} (permits : Tag → List Label → Label → Prop)
    (observe : Observer signature Label) (tags : Nat → Tag) (log : List (Event signature))
    (process : Nat) :
    (Protocol.recorder permits).ghost observe (fun process => ⟨tags process, []⟩) log process =
      ⟨tags process, (log.filter fun event => event.process = process).map fun event =>
        observe event.effect event.answer⟩ := by
  induction log with
  | nil => rfl
  | cons event log ih =>
    rw [Protocol.ghost]
    by_cases same : event.process = process
    · rw [if_pos same, ih]
      simp only [List.filter, same, decide_true]
      rfl
    · rw [if_neg same, ih]
      simp [same]

/-- A process goes on from its record. -/
structure Record.Continues {Tag : Type} (before after : Record Tag Label) : Prop where
  same : after.tag = before.tag
  keeps : before.trace <:+ after.trace

namespace Record.Continues

variable {Tag : Type} {before middle after : Record Tag Label}

theorem refl (record : Record Tag Label) : record.Continues record := ⟨rfl, List.suffix_rfl⟩

theorem trans (first : before.Continues middle) (second : middle.Continues after) :
    before.Continues after :=
  ⟨second.same.trans first.same, first.keeps.trans second.keeps⟩

theorem mem {label : Label} (continues : before.Continues after) (shown : label ∈ before.trace) :
    label ∈ after.trace :=
  continues.keeps.subset shown

end Record.Continues

/-- A permitted call is recorded with its answer. -/
theorem Program.meets_recorded {Tag : Type} {permits : Tag → List Label → Label → Prop}
    {observe : Observer signature Label} {before : Record Tag Label} {effect : signature.Effect}
    (permitted : ∀ answer, permits before.tag before.trace (observe effect answer)) :
    (Program.call effect).Meets (.recorder permits) observe
      (fun after answer => before.Continues after ∧ observe effect answer ∈ after.trace) before :=
  fun answer _ => ⟨permitted answer, ⟨rfl, List.suffix_cons _ _⟩, List.mem_cons_self⟩

/-- Every process still meets the protocol from its replayed ghost state. -/
def Configuration.Follows (protocol : Protocol Label Ghost) (observe : Observer signature Label)
    (post : Ghost → Result → Prop) (start : Nat → Ghost)
    (configuration : Configuration signature Store Result) : Prop :=
  ∀ process, (configuration.processes process).Meets protocol observe post
    (protocol.ghost observe start configuration.log process)

section Follows

variable {protocol : Protocol Label Ghost} {observe : Observer signature Label}
  {post : Ghost → Result → Prop} {ghosts : Nat → Ghost}
  {world : World signature Store}
  {allowed : Configuration signature Store Result → Event signature → Prop}
  {start before after : Configuration signature Store Result} {event : Event signature}

/-- A step of a following configuration is permitted and is followed again. -/
theorem Configuration.Follows.step (follows : before.Follows protocol observe post ghosts)
    (move : Step world before event after)
    (assumed : protocol.assumes (protocol.ghost observe ghosts before.log event.process)
      (observe event.effect event.answer)) :
    protocol.permits (protocol.ghost observe ghosts before.log event.process)
        (observe event.effect event.answer) ∧
      after.Follows protocol observe post ghosts := by
  cases move with
  | perform next store ready happens =>
    have meets := follows event.process
    rw [ready] at meets
    obtain ⟨permitted, rest⟩ := meets event.answer assumed
    refine ⟨permitted, fun process => ?_⟩
    by_cases same : event.process = process
    · subst same
      simpa [Configuration.advance] using rest
    · simpa [Configuration.advance, Function.update_of_ne (Ne.symm same),
        protocol.ghost_of_ne observe ghosts _ same] using follows process

variable (property : Configuration signature Store Result → Prop)

/-- An invariant may use what the protocol permits at each step, if it justifies the assumption. -/
theorem Reaches.follows (base : property start) (meets : start.Follows protocol observe post ghosts)
    (step : ∀ before event after, property before → before.Follows protocol observe post ghosts →
      allowed before event → Step world before event after →
      protocol.assumes (protocol.ghost observe ghosts before.log event.process)
          (observe event.effect event.answer) ∧
        (protocol.permits (protocol.ghost observe ghosts before.log event.process)
          (observe event.effect event.answer) → property after))
    (reached : Reaches world allowed start after) :
    property after ∧ after.Follows protocol observe post ghosts := by
  refine reached.invariant
    (fun current => property current ∧ current.Follows protocol observe post ghosts)
    ⟨base, meets⟩ ?_
  rintro before event after _ ⟨holds, follows⟩ permitted move
  obtain ⟨assumed, preserve⟩ := step before event after holds follows permitted move
  obtain ⟨shown, followed⟩ := follows.step move assumed
  exact ⟨preserve shown, followed⟩

/-- One process is followed alone while an invariant justifies the assumption at its steps. -/
theorem Reaches.watch {process : Nat} {ghost : Ghost} (base : property start)
    (meets : (start.processes process).Meets protocol observe post ghost)
    (step : ∀ before event after, property before → allowed before event →
      Step world before event after → property after ∧ (event.process = process →
          ∀ ghost, protocol.assumes ghost (observe event.effect event.answer)))
    (reached : Reaches world allowed start after) :
    property after ∧ ∃ ghost, (after.processes process).Meets protocol observe post ghost := by
  refine reached.invariant (fun current => property current ∧
    ∃ ghost, (current.processes process).Meets protocol observe post ghost) ⟨base, ghost, meets⟩ ?_
  rintro before event after _ ⟨holds, ghost, meets⟩ permitted move
  obtain ⟨kept, assumed⟩ := step before event after holds permitted move
  refine ⟨kept, ?_⟩
  by_cases mine : event.process = process
  · cases move with
    | perform next store ready happens =>
      rw [mine] at ready
      rw [ready] at meets
      obtain ⟨-, rest⟩ := meets event.answer (assumed mine ghost)
      refine ⟨protocol.advance ghost (observe event.effect event.answer), ?_⟩
      subst mine
      simpa [Configuration.advance] using rest
  · exact ⟨ghost, by rwa [move.processes_of_ne mine]⟩

end Follows

end Tempogate.Foundation
