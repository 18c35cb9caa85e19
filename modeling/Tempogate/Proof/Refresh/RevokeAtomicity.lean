/-
This file examines the gap between the two statements of RevokeRefreshFamily in SQLite.
-/

import Tempogate.Proof.Refresh.RevokedFamily

namespace Tempogate.Sqlite

open Foundation Oidc State LedgerAction Happens

/-- This program looks the family up after an update that ended no live token. -/
def lookUpFamily (familyID : String) (moment : Time) : Program statements Returned :=
  .perform (.refresh (.existsFamily familyID)) fun present =>
    .done ⟨.revokeRefreshFamily familyID moment,
      match present with
      | .error cause => .error (.failure ("sqlite: look up refresh family: " ++ cause))
      | .ok false => .error (.sessionNotFound familyID)
      | .ok true => .ok 0⟩

/-- After its update a revocation is answered, or it looks the family up. -/
theorem revoke_after_update (crypto : Crypto) (familyID : String) (moment : Time) :
    ∃ next, client crypto (.revokeRefreshFamily familyID moment) =
        .perform (.refresh (.updateRevoked (.family familyID) moment)) next ∧
      (∀ cause, ∃ error,
        next (.error cause) = .done ⟨.revokeRefreshFamily familyID moment, .error error⟩) ∧
      ∀ wasLive : List Bool,
        next (.ok wasLive) =
          if wasLive.count true > 0 then
            .done ⟨.revokeRefreshFamily familyID moment, .ok (wasLive.count true)⟩
          else lookUpFamily familyID moment := by
  refine ⟨_, rfl, fun cause => ⟨_, rfl⟩, fun wasLive => ?_⟩
  change Program.bind (if wasLive.count true > 0 then
      Program.done (Except.ok (wasLive.count true)) else _) _ = _
  by_cases ended : wasLive.count true > 0
  · rw [if_pos ended, if_pos ended]
    rfl
  · rw [if_neg ended, if_neg ended]
    refine congrArg (Program.perform _) (funext fun present => ?_)
    rcases present with cause | _ | _ <;> rfl

/-- This relation says how far a revocation has come and what it may rely on there. -/
inductive RevokeStage (crypto : Crypto) (rows : List RefreshRow) (familyID : String)
    (moment : Time) : Program statements Returned → Prop
  | pending : RevokeStage crypto rows familyID moment
      (client crypto (.revokeRefreshFamily familyID moment))
  | looking (safe : FamilyAbsent rows familyID ∨ FamilyClosed rows familyID) :
      RevokeStage crypto rows familyID moment (lookUpFamily familyID moment)
  | answered (count : Nat) (closed : FamilyClosed rows familyID) :
      RevokeStage crypto rows familyID moment
        (.done ⟨.revokeRefreshFamily familyID moment, .ok count⟩)
  | failed (error : StoreError) : RevokeStage crypto rows familyID moment
        (.done ⟨.revokeRefreshFamily familyID moment, .error error⟩)

/-- No save appends the first row of a family that a revocation is about to look up. -/
def NoFirstSaveInGap (requests : Nat → RefreshCall)
    (before : Configuration statements Store Returned) (event : Event statements) : Prop :=
  ∀ process refresh next, requests event.process = .saveRefresh refresh →
    before.processes process = .perform (.refresh (.existsFamily refresh.familyID)) next →
    ¬ FamilyAbsent before.store.rows refresh.familyID

section Stages

variable {crypto : Crypto} {requests : Nat → RefreshCall} {familyID : String} {moment : Time}
  {before after : Configuration statements Store Returned} {event : Event statements}

/-- The update closes the family or finds that it has no rows. -/
theorem update_closes_or_absent (rows : List RefreshRow) (familyID : String) (moment : Time) :
    FamilyAbsent ((revoke (.family familyID) moment).apply rows) familyID ∨
      FamilyClosed ((revoke (.family familyID) moment).apply rows) familyID := by
  by_cases absent : FamilyAbsent rows familyID
  · exact .inl (absent.apply (by simp))
  · simp only [FamilyAbsent, not_forall, not_not] at absent
    obtain ⟨row, present, family⟩ := absent
    exact .inr (.of_revoke present family)

/-- An update that ended a live token closes the family. -/
theorem update_closes {rows : List RefreshRow}
    (ended : ((rows.filter (RefreshStatement.revocable (.family familyID))).map
      fun row => row.consumedAt.isNone).count true > 0) :
    FamilyClosed ((revoke (.family familyID) moment).apply rows) familyID := by
  obtain ⟨row, member, -⟩ := List.mem_map.mp (List.count_pos_iff.mp ended)
  obtain ⟨present, revocable⟩ := List.mem_filter.mp member
  refine .of_revoke present ?_
  simpa [Selector.selects] using (Bool.and_eq_true_iff.mp revocable).1

/-- A revocation moves to its next stage by its own step. -/
theorem RevokeStage.own_step {process : Nat}
    (stage : RevokeStage crypto before.store.rows familyID moment (before.processes process))
    (mine : event.process = process) (step : Step world before event after) :
    RevokeStage crypto after.store.rows familyID moment (after.processes process) := by
  generalize program : before.processes process = remaining at stage
  cases stage with
  | pending =>
    obtain ⟨next, first, onError, onReply⟩ := revoke_after_update crypto familyID moment
    rw [first] at program
    obtain ⟨answer, -, continued, happens⟩ := step.of_ready mine program
    rw [continued]
    cases answer with
    | error cause =>
      obtain ⟨error, equal⟩ := onError cause
      rw [equal]
      exact .failed error
    | ok wasLive =>
      have rows := (ledger happens).1
      have executed := execute_eq happens
      obtain ⟨rfl, -⟩ := Prod.mk.inj executed
      rw [onReply, rows]
      split
      next ended => exact .answered _ (update_closes ended)
      · exact .looking (update_closes_or_absent _ _ _)
  | looking safe =>
    obtain ⟨answer, -, continued, happens⟩ := step.of_ready mine program
    rw [continued]
    rcases answer with cause | _ | _
    · exact .failed _
    · exact .failed _
    · have executed := execute_eq happens
      obtain ⟨found, unchanged⟩ := Prod.mk.inj executed
      rw [← unchanged]
      refine .answered 0 (safe.resolve_left fun absent => ?_)
      obtain ⟨row, present, family⟩ := List.any_eq_true.mp found
      exact absent row present (of_decide_eq_true family)
  | _ => exact absurd mine (step.process_ne_of_done program)

/-- A revocation keeps its stage while another client steps outside the gap. -/
theorem RevokeStage.other_step {process : Nat}
    (stage : RevokeStage crypto before.store.rows familyID moment (before.processes process))
    (other : event.process ≠ process) (step : Step world before event after)
    (permitted : (clientProtocol crypto).permits (requests event.process)
      (event.effect.action event.answer))
    (outside : NoFirstSaveInGap requests before event) :
    RevokeStage crypto after.store.rows familyID moment (after.processes process) := by
  obtain ⟨rows, legal⟩ := ledger step.happens
  have kept : (event.effect.action event.answer).Keeps familyID :=
    permitted_keeps permitted familyID
  rw [step.processes_of_ne other]
  generalize program : before.processes process = remaining at stage ⊢
  rw [rows]
  cases stage with
  | pending => exact .pending
  | looking safe =>
    refine .looking (safe.imp (fun absent => absent.apply ?_) fun closed =>
      closed.apply legal kept)
    intro row added family
    rw [added] at permitted
    obtain ⟨refresh, asked, rfl⟩ := permitted
    subst family
    exact outside process refresh _ asked program absent
  | answered count closed => exact .answered count (closed.apply legal kept)
  | failed error => exact .failed error

end Stages

/-- In a run without a first save in the gap, a revocation that returned without error leaves
its family with no live token, then and later. -/
theorem revoke_family_ends_outside_gap (crypto : Crypto) (store : Store)
    (requests : Nat → RefreshCall) {after : Configuration statements Store Returned}
    (reached : Reaches world (NoFirstSaveInGap requests) (clients crypto store requests) after)
    {process : Nat} {familyID : String} {moment : Time} {count : Nat}
    (asked : requests process = .revokeRefreshFamily familyID moment)
    (answered : after.processes process = .done ⟨.revokeRefreshFamily familyID moment, .ok count⟩) :
    FamilyDead after.store.rows familyID := by
  have run := reached.follows (fun current => RevokeStage crypto current.store.rows familyID moment
      (current.processes process))
    ?_ (clients_obedient crypto store requests) ?_
  · have stage := run.1
    rw [answered] at stage
    cases stage with
    | answered count closed => exact closed.dead
  · have start : (clients crypto store requests).processes process =
        client crypto (.revokeRefreshFamily familyID moment) := congrArg (client crypto) asked
    rw [start]
    exact .pending
  · intro before event later stage _ outside step
    refine ⟨trivial, fun permitted => ?_⟩
    rw [clientProtocol_ghost] at permitted
    by_cases mine : event.process = process
    · exact stage.own_step mine step
    · exact stage.other_step mine step permitted outside

/-- The first save of a family between the two statements leaves it alive after the answer. -/
theorem revoke_family_gap :
    Reaches world anyStep (clients plainCrypto .empty sampleRequests) (sampleRun [1, 0, 1]) ∧
      (sampleRun [1, 0, 1]).processes 1 = .done ⟨.revokeRefreshFamily "family" 1, .ok 0⟩ ∧
      ¬ FamilyDead (sampleRun [1, 0, 1]).store.rows "family" := by
  refine ⟨(Configuration.lawful_of_follows executor_follows _ _).reaches, rfl, ?_⟩
  decide

/-- The same two calls, one after the other, meet the condition. -/
theorem revoke_family_ends_outside_gap_sample :
    (sampleRun [0, 1]).processes 1 = .done ⟨.revokeRefreshFamily "family" 1, .ok 1⟩ ∧
      FamilyDead (sampleRun [0, 1]).store.rows "family" := by
  have outside : (clients plainCrypto .empty sampleRequests).Lawful world
      (NoFirstSaveInGap sampleRequests) executor [0, 1] := by
    refine ⟨⟨?_, .executed⟩, ⟨?_, .executed⟩, trivial⟩
    · intro process refresh next _ waiting
      change client plainCrypto (sampleRequests process) = _ at waiting
      unfold sampleRequests at waiting
      split at waiting <;> cases waiting
    · intro process refresh next asked
      cases asked
  have answered : (sampleRun [0, 1]).processes 1 =
      .done ⟨.revokeRefreshFamily "family" 1, .ok 1⟩ := rfl
  exact ⟨answered, revoke_family_ends_outside_gap plainCrypto .empty sampleRequests
    outside.reaches (show sampleRequests 1 = _ from rfl) answered⟩

end Tempogate.Sqlite
