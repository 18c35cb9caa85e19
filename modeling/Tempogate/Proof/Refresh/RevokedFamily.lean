/-
This file proves that a revoked family of the SQLite store never has a live row again.
-/

import Tempogate.Foundation.Protocol
import Tempogate.Proof.Refresh.Ledger

namespace Tempogate.Sqlite

open Foundation Oidc State

variable {process : Nat} {action : LedgerAction} {refresh : Refresh}

/-- The observer sees only the ledger change of each statement. -/
def observeLedger : Observer statements LedgerAction := Statement.action

variable (crypto : Crypto)

/-- Clients append only the row they were asked to save, and they delete nothing. -/
def clientProtocol : Protocol LedgerAction RefreshCall where
  assumes _ _ := True
  permits call action :=
    match action with
    | .append row => ∃ refresh, call = .saveRefresh refresh ∧ row = .ofRefresh crypto refresh
    | .purge _ => False
    | _ => True
  advance call _ := call

variable (call : RefreshCall)

theorem revokeRefresh_meets (selector : Selector) (moment : Time) :
    (revokeRefresh selector moment).Meets (clientProtocol crypto) observeLedger
      (fun after _ => after = call) call := by
  intro answer _
  refine ⟨?_, ?_⟩
  · cases answer <;> trivial
  · cases answer <;> rfl

/-- Every method follows the protocol of its call. -/
theorem refreshMethod_meets :
    (refreshMethod crypto call).Meets (clientProtocol crypto) observeLedger
      (fun after _ => after = call) call := by
  cases call with
  | saveRefresh refresh =>
    intro answer _
    refine ⟨?_, ?_⟩
    · rcases answer with cause | _ | _ | count
      · trivial
      · trivial
      · trivial
      · exact ⟨refresh, rfl, rfl⟩
    · rcases answer with cause | _ | _ | count <;> rfl
  | consumeRefresh token clientID moment =>
    intro updated _
    refine ⟨?_, ?_⟩
    · cases updated <;> trivial
    · rcases updated with cause | _ | row
      · rfl
      · intro selected _
        refine ⟨?_, ?_⟩
        · cases selected <;> trivial
        · rcases selected with cause | _ | row <;> rfl
      · rfl
  | revokeRefreshFamily familyID moment =>
    refine (Program.meets_bind _ _ _).mpr ((revokeRefresh_meets crypto _ _ _).mono ?_)
    rintro after (error | count) rfl
    · rfl
    · dsimp only
      split
      · rfl
      · intro present _
        refine ⟨?_, ?_⟩
        · cases present <;> trivial
        · rcases present with cause | _ | _ <;> rfl
  | _ => exact revokeRefresh_meets crypto _ _ _

theorem client_meets :
    (client crypto call).Meets (clientProtocol crypto) observeLedger (fun _ _ => True) call :=
  (Program.meets_bind _ _ _).mpr ((refreshMethod_meets crypto call).mono fun _ _ _ => trivial)

/-- A permitted change removes no row. -/
theorem permitted_keeps {crypto : Crypto} {call : RefreshCall}
    (permitted : (clientProtocol crypto).permits call action) (familyID : String) :
    action.Keeps familyID := by
  cases action with
  | purge families => exact permitted.elim
  | _ => trivial

/-- The ghost state of a client is its call. -/
theorem clientProtocol_ghost (requests : Nat → RefreshCall)
    (log : List (Event statements)) (process : Nat) :
    (clientProtocol crypto).ghost observeLedger requests log process = requests process := by
  induction log with
  | nil => rfl
  | cons event log ih =>
    unfold Protocol.ghost
    split
    · exact ih
    · exact ih

/-- All rows saved under one family share their client, connector, subject and email. -/
def SharedOwners (requests : Nat → RefreshCall) : Prop :=
  ∀ first second one other,
    requests first = .saveRefresh one → requests second = .saveRefresh other →
    one.familyID = other.familyID →
    one.clientID = other.clientID ∧ one.connectorID = other.connectorID ∧
      one.subject = other.subject ∧ one.email = other.email

/-- Revocation is uniform, and every row is a later version of a row some client saved. -/
structure Traced (crypto : Crypto) (requests : Nat → RefreshCall) (rows : List RefreshRow) :
    Prop where
  uniform : Uniform rows
  saved : ∀ row ∈ rows, ∃ process refresh, requests process = .saveRefresh refresh ∧
    (RefreshRow.ofRefresh crypto refresh).Evolves row

namespace Traced

variable {crypto : Crypto} {requests : Nat → RefreshCall} {rows : List RefreshRow}

theorem empty : Traced crypto requests [] where
  uniform := by simp [Uniform]
  saved := by simp

/-- Traced rows of one family have one owner. -/
theorem oneOwner (traced : Traced crypto requests rows) (owners : SharedOwners requests) :
    OneOwner rows := by
  intro first inFirst second inSecond family
  obtain ⟨saver, one, asked, evolves⟩ := traced.saved first inFirst
  obtain ⟨other, two, askedToo, evolvesToo⟩ := traced.saved second inSecond
  have families : one.familyID = two.familyID := by
    have left : first.familyID = one.familyID := evolves.familyID_eq
    have right : second.familyID = two.familyID := evolvesToo.familyID_eq
    rw [← left, ← right, family]
  obtain ⟨client, connector, subject, email⟩ := owners saver other one two asked askedToo families
  rw [evolves.fields, evolvesToo.fields]
  exact ⟨client, connector, subject, email⟩

/-- A permitted and legal change keeps the rows traced. -/
theorem apply (traced : Traced crypto requests rows) (owners : SharedOwners requests)
    (legal : action.Legal rows)
    (permitted : (clientProtocol crypto).permits (requests process) action) :
    Traced crypto requests (action.apply rows) where
  uniform := traced.uniform.apply (traced.oneOwner owners) legal
  saved := by
    intro row present
    rcases LedgerAction.exists_of_mem_apply present with rfl | ⟨earlier, old, evolves⟩
    · obtain ⟨refresh, asked, rfl⟩ := permitted
      exact ⟨process, refresh, asked, .refl _⟩
    · obtain ⟨saver, refresh, asked, before⟩ := traced.saved earlier old
      exact ⟨saver, refresh, asked, before.trans evolves⟩

end Traced

/-- Every client follows the protocol of its own call. -/
def Obedient (crypto : Crypto) (requests : Nat → RefreshCall)
    (configuration : Configuration statements Store Returned) : Prop :=
  configuration.Follows (clientProtocol crypto) observeLedger (fun _ _ => True) requests

theorem clients_obedient (crypto : Crypto) (store : Store) (requests : Nat → RefreshCall) :
    Obedient crypto requests (clients crypto store requests) :=
  fun process => client_meets crypto (requests process)

/-- The database did not fail the statement of this event. -/
def Succeeds (event : Event statements) : Prop :=
  ∃ reply : event.effect.Reply, event.answer = Except.ok reply

section Runs

variable {crypto : Crypto} {store : Store} {requests : Nat → RefreshCall}
  {before after : Configuration statements Store Returned}

/-- A run keeps the rows traced and every revoked family revoked. -/
theorem Obedient.run (obedient : Obedient crypto requests before)
    (traced : Traced crypto requests before.store.rows) (owners : SharedOwners requests)
    (reached : Reaches world anyStep before after) :
    Obedient crypto requests after ∧ Traced crypto requests after.store.rows ∧
      ∀ familyID, FamilyRevoked before.store.rows familyID →
        FamilyRevoked after.store.rows familyID := by
  have run := reached.follows (fun current => Traced crypto requests current.store.rows ∧
      ∀ familyID, FamilyRevoked before.store.rows familyID →
        FamilyRevoked current.store.rows familyID)
    ⟨traced, fun _ revoked => revoked⟩ obedient ?_
  · exact ⟨run.2, run.1⟩
  · rintro middle event later ⟨tracedMiddle, stays⟩ _ _ step
    refine ⟨trivial, fun permitted => ?_⟩
    rw [clientProtocol_ghost] at permitted
    obtain ⟨rows, legal⟩ := Happens.ledger step.happens
    rw [rows]
    refine ⟨tracedMiddle.apply owners legal permitted, fun familyID revoked => ?_⟩
    exact (stays familyID revoked).apply (permitted_keeps permitted familyID)

/-- A save runs one statement, so it is either not begun or answered. -/
theorem save_pending_or_answered
    (asked : requests process = .saveRefresh refresh)
    (reached : Reaches world anyStep (clients crypto store requests) after) :
    after.processes process = client crypto (.saveRefresh refresh) ∨
      ∃ returned, after.processes process = .done returned := by
  refine reached.invariant
    (fun current => current.processes process = client crypto (.saveRefresh refresh) ∨
      ∃ returned, current.processes process = .done returned) ?_ ?_
  · exact .inl (congrArg (client crypto) asked)
  · intro middle event later _ holds _ step
    by_cases same : event.process = process
    · subst same
      refine .inr ?_
      rcases holds with pending | ⟨returned, finished⟩
      · obtain ⟨answer, -, next, -⟩ := step.of_ready rfl pending
        rcases answer with cause | _ | _ | count <;> exact ⟨_, next⟩
      · exact absurd rfl (step.process_ne_of_done finished)
    · rw [step.processes_of_ne same]
      exact holds

/-- A save into a revoked family changes nothing and reports the revocation. -/
theorem save_refused {event : Event statements}
    (revoked : FamilyRevoked before.store.rows refresh.familyID)
    (pending : before.processes process = client crypto (.saveRefresh refresh))
    (mine : event.process = process) (succeeds : Succeeds event)
    (step : Step world before event after) :
    after.store = before.store ∧ after.processes process =
        .done ⟨.saveRefresh refresh, .error (.refreshFamilyRevoked refresh.familyID)⟩ := by
  obtain ⟨answer, rfl, next, happens⟩ := step.of_ready mine pending
  cases answer with
  | error cause =>
    obtain ⟨reply, answered⟩ := succeeds
    cases answered
  | ok reply =>
    have executed := Happens.execute_eq happens
    simp only [Statement.execute, RefreshStatement.execute] at executed
    rw [insertUnlessRevoked_of_revoked revoked] at executed
    obtain ⟨rfl, unchanged⟩ := Prod.mk.inj executed
    exact ⟨unchanged.symm, next⟩

/-- Once some row of a family is revoked, the family has no live row then or later, and every
later save into it inserts nothing and reports the revocation. -/
theorem revoked_family_stays_dead (crypto : Crypto) (store : Store)
    (requests : Nat → RefreshCall) (fresh : store.rows = []) (owners : SharedOwners requests)
    {middle after : Configuration statements Store Returned} {familyID : String}
    (reached : Reaches world anyStep (clients crypto store requests) middle)
    (revoked : FamilyRevoked middle.store.rows familyID)
    (later : Reaches world anyStep middle after) :
    FamilyDead after.store.rows familyID ∧
      (∀ process refresh, requests process = .saveRefresh refresh → refresh.familyID = familyID →
        (∃ returned, after.processes process = .done returned) ∨
          ∃ event next, event.process = process ∧ Succeeds event ∧ Step world after event next) ∧
      ∀ event next refresh, Step world after event next →
        requests event.process = .saveRefresh refresh → refresh.familyID = familyID →
        Succeeds event →
        next.store = after.store ∧
          next.processes event.process =
            .done ⟨.saveRefresh refresh, .error (.refreshFamilyRevoked familyID)⟩ := by
  have start := clients_obedient crypto store requests
  have empty : Traced crypto requests (clients crypto store requests).store.rows := by
    change Traced crypto requests store.rows
    rw [fresh]
    exact Traced.empty
  obtain ⟨obedient, traced, -⟩ := start.run empty owners reached
  obtain ⟨-, tracedAfter, stays⟩ := obedient.run traced owners later
  have revokedAfter := stays familyID revoked
  refine ⟨revokedAfter.dead tracedAfter.uniform, ?_, ?_⟩
  · intro process refresh asked family
    rcases save_pending_or_answered asked (reached.trans later) with pending | answered
    · have happens := executor_follows after.log after.store process
        (.refresh (.insertRefresh (.ofRefresh crypto refresh)))
      exact .inr ⟨⟨process, _, _⟩, _, rfl, ⟨_, rfl⟩, Step.take pending happens⟩
    · exact .inl answered
  · intro event next refresh step asked family succeeds
    rcases save_pending_or_answered asked (reached.trans later) with pending | ⟨returned, finished⟩
    · subst family
      exact save_refused revokedAfter pending rfl succeeds step
    · exact absurd rfl (step.process_ne_of_done finished)

end Runs

theorem sampleRequests_owners : SharedOwners sampleRequests := by
  have only : ∀ process refresh, sampleRequests process = .saveRefresh refresh →
      refresh = sampleRefresh := by
    intro process refresh asked
    unfold sampleRequests at asked
    split at asked
    · cases asked
    · exact (RefreshCall.saveRefresh.inj asked).symm
  intro first second one other asked askedToo _
  rw [only first one asked, only second other askedToo]
  exact ⟨rfl, rfl, rfl, rfl⟩

def sampleRun (order : List Nat) : Configuration statements Store Returned :=
  (clients plainCrypto .empty sampleRequests).turns executor order

/-- The save that follows the revocation in this run is refused. -/
theorem revoked_family_stays_dead_sample : FamilyRevoked (sampleRun [0, 1]).store.rows "family" ∧
      FamilyDead ((sampleRun [0, 1]).turns executor [2]).store.rows "family" := by
  have revoked : FamilyRevoked (sampleRun [0, 1]).store.rows "family" := by decide
  have reached : Reaches world anyStep (clients plainCrypto .empty sampleRequests)
      (sampleRun [0, 1]) :=
    (Configuration.lawful_of_follows executor_follows _ _).reaches
  have later : Reaches world anyStep (sampleRun [0, 1]) ((sampleRun [0, 1]).turns executor [2]) :=
    (Configuration.lawful_of_follows executor_follows _ _).reaches
  exact ⟨revoked, (revoked_family_stays_dead plainCrypto .empty sampleRequests rfl
    sampleRequests_owners reached revoked later).1⟩

end Tempogate.Sqlite
