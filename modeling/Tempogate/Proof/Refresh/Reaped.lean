/-
This file examines what a sweep of the SQLite store does to a rotation in flight.
-/

import Tempogate.Proof.Refresh.SqliteDeeds

namespace Tempogate.Sqlite

open Foundation Oidc State

variable (before : Configuration serverCalls Store Outcome)

/-- The process has taken a token of the family and has not ended. -/
def InFlight (process : Nat) (familyID : String) : Prop :=
  (∃ origin expiresAt moment, origin.familyID = familyID ∧
      Showed observeServer before.log process (.took origin expiresAt moment)) ∧
    ∀ outcome, before.processes process ≠ .done outcome

/-- No sweep deletes a family while a rotation of it is in flight. -/
def OutsideRotation (event : Event serverCalls) : Prop :=
  ∀ families, observeServer event.effect event.answer = .purged families →
    ∀ familyID ∈ families, ∀ process, ¬ InFlight before process familyID

variable (log : List (Event serverCalls))

/-- A sweep has deleted the family. -/
def Reaped (familyID : String) : Prop :=
  ∃ process families, Showed observeServer log process (.purged families) ∧ familyID ∈ families

/-- The event saves a token into the family. -/
def SavesInto (event : Event serverCalls) (familyID : String) : Prop :=
  ∃ origin expiresAt, observeServer event.effect event.answer = .saved origin expiresAt ∧
    origin.familyID = familyID

section Reaped

variable {config : TokenConfig} {tasks : Nat → Task}
  {before after : Configuration serverCalls Store Outcome} {event : Event serverCalls}
  {familyID : String}

variable {log : List (Event serverCalls)}

theorem Reaped.cons (reaped : Reaped log familyID) (event : Event serverCalls)
    : Reaped (event :: log) familyID := by
  obtain ⟨process, families, showed, member⟩ := reaped
  exact ⟨process, families, showed.cons event, member⟩

/-- A step reaps a family only by deleting it. -/
theorem Reaped.of_cons (reaped : Reaped (event :: log) familyID) : Reaped log familyID ∨ ∃ families,
      observeServer event.effect event.answer = .purged families ∧ familyID ∈ families := by
  obtain ⟨process, families, ⟨earlier, member, mine, shown⟩, listed⟩ := reaped
  rcases List.mem_cons.mp member with rfl | old
  · exact .inr ⟨families, shown, listed⟩
  · exact .inl ⟨process, families, ⟨earlier, old, mine, shown⟩, listed⟩

/-- A reaped family has no rows, and nobody still rotates it. -/
structure ReapSafe (config : TokenConfig) (tasks : Nat → Task)
    (current : Configuration serverCalls Store Outcome) : Prop where
  named : ∀ row ∈ current.store.rows, row.familyID ≠ ""
  undrawn : ∀ process familyID,
    (standingOf config False tasks current.log process).entry ≠ some (.drew familyID)
  absent : ∀ familyID, Reaped current.log familyID → FamilyAbsent current.store.rows familyID
  ended : ∀ process origin expiresAt moment,
    (standingOf config False tasks current.log process).entry =
      some (.took origin expiresAt moment) →
    Reaped current.log origin.familyID → ∃ outcome, current.processes process = .done outcome

namespace ReapSafe

theorem initial (crypto : Crypto) (store : Store) (named : ∀ row ∈ store.rows, row.familyID ≠ "") :
    ReapSafe config tasks (server crypto config store tasks) where
  named := named
  undrawn := by
    intro process familyID entered
    have unentered := (tasks process).standing_entry
    cases unentered.symm.trans entered
  absent := by
    rintro familyID ⟨process, families, ⟨event, member, -⟩, -⟩
    cases member
  ended := by
    rintro process origin expiresAt moment - ⟨reaper, families, ⟨event, member, -⟩, -⟩
    cases member

variable (safe : ReapSafe config tasks before)

include safe

/-- A token is taken only from a family with a name. -/
theorem assumes (step : Step serverWorld before event after) (standing : Standing) :
    (lineageProtocol config.refreshMaxLifetime False).assumes standing
      (observeServer event.effect event.answer) := by
  have moves := serverWorld_moves step.happens
  generalize observeServer event.effect event.answer = deed at moves ⊢
  generalize after.store.rows = later at moves
  cases moves with
  | took moment present live evolution spent => exact safe.named _ present
  | drew familyID => exact False.elim
  | _ => trivial

/-- A permitted save goes into a family that was not reaped. -/
theorem not_reaped (step : Step serverWorld before event after) {origin : Origin} {expiresAt : Time}
    (permitted : (lineageProtocol config.refreshMaxLifetime False).permits
      (standingOf config False tasks before.log event.process) (.saved origin expiresAt)) :
    ¬ Reaped before.log origin.familyID := by
  intro reaped
  rcases permitted.2.entered with drew | ⟨expiry, moment, took, -, -⟩
  · exact safe.undrawn _ _ (congrArg Standing.entry drew)
  · obtain ⟨outcome, finished⟩ := safe.ended _ _ _ _ (congrArg Standing.entry took) reaped
    exact step.process_ne_of_done finished rfl

/-- Every permitted step outside the rotations of the families it deletes is safe. -/
theorem step (outside : OutsideRotation before event) (move : Step serverWorld before event after)
    (permitted : (lineageProtocol config.refreshMaxLifetime False).permits
      (standingOf config False tasks before.log event.process)
      (observeServer event.effect event.answer)) :
    ReapSafe config tasks after := by
  have moves := serverWorld_moves move.happens
  have absentBefore : ∀ familyID, Reaped before.log familyID →
      FamilyAbsent after.store.rows familyID := by
    intro familyID reaped
    refine moves.absent (safe.absent familyID reaped) ?_
    rintro origin expiresAt shown rfl
    rw [shown] at permitted
    exact safe.not_reaped move permitted reaped
  constructor
  · intro row present
    rcases moves.exists_of_mem present with ⟨saved, -, -⟩ | ⟨earlier, old, evolves⟩
    · rw [saved] at permitted
      exact permitted.2.named
    · rw [evolves.familyID_eq]
      exact safe.named earlier old
  · intro process familyID entered
    rw [move.log_eq] at entered
    rcases entry_of_cons entered with ⟨-, shown⟩ | ⟨earlier, -⟩
    · rw [shown] at permitted
      exact permitted.1
    · exact safe.undrawn process familyID earlier
  · intro familyID reaped
    rw [move.log_eq] at reaped
    rcases reaped.of_cons with earlier | ⟨families, shown, listed⟩
    · exact absentBefore familyID earlier
    · rw [shown] at moves
      exact moves.absent_of_purged listed
  · intro process origin expiresAt moment entered reaped
    rw [move.log_eq] at entered reaped
    rcases entry_of_cons entered with ⟨-, shown⟩ | ⟨earlier, -⟩
    · rcases reaped.of_cons with old | ⟨families, purged, -⟩
      · rw [shown] at moves
        exact absurd (safe.absent _ old) moves.not_absent_of_took
      · cases shown.symm.trans purged
    · have finished : ∃ outcome, before.processes process = .done outcome := by
        rcases reaped.of_cons with old | ⟨families, shown, listed⟩
        · exact safe.ended process origin expiresAt moment earlier old
        · by_contra running
          refine outside families shown origin.familyID listed process ⟨?_, not_exists.mp running⟩
          exact ⟨origin, expiresAt, moment, rfl,
            showed_of_entry (fun process => (tasks process).standing_entry) earlier⟩
      obtain ⟨outcome, done⟩ := finished
      exact ⟨outcome, (move.processes_of_ne (move.process_ne_of_done done)).trans done⟩

end ReapSafe

/-- Every process keeps to the protocol without draws. -/
abbrev Undrawing (config : TokenConfig) (tasks : Nat → Task)
    (current : Configuration serverCalls Store Outcome) : Prop :=
  current.Follows (lineageProtocol config.refreshMaxLifetime False) observeServer Outcome.Fits
    fun process => (tasks process).standing

/-- A run outside the rotations keeps closed families closed and rows present until the sweep
deletes their family. -/
theorem ReapSafe.run (safe : ReapSafe config tasks before) (obeys : Undrawing config tasks before)
    (reached : Reaches serverWorld OutsideRotation before after) :
    (ReapSafe config tasks after ∧ (∀ familyID, FamilyClosed before.store.rows familyID →
        FamilyClosed after.store.rows familyID ∨ Reaped after.log familyID) ∧
      ∀ row ∈ before.store.rows,
        (∃ next ∈ after.store.rows, row.Evolves next) ∨ Reaped after.log row.familyID) ∧
      Undrawing config tasks after := by
  refine reached.follows (fun current => ReapSafe config tasks current ∧
    (∀ familyID, FamilyClosed before.store.rows familyID →
      FamilyClosed current.store.rows familyID ∨ Reaped current.log familyID) ∧
    ∀ row ∈ before.store.rows,
      (∃ next ∈ current.store.rows, row.Evolves next) ∨ Reaped current.log row.familyID)
    ⟨safe, fun _ closed => .inl closed, fun row present => .inl ⟨row, present, .refl row⟩⟩ obeys ?_
  rintro middle event later ⟨safeMiddle, closed, kept⟩ _ outside move
  refine ⟨safeMiddle.assumes move _, fun permitted => ⟨safeMiddle.step outside move permitted, ?_⟩⟩
  have moves := serverWorld_moves move.happens
  have reaps : ∀ familyID, (∃ families, observeServer event.effect event.answer =
      .purged families ∧ familyID ∈ families) → Reaped later.log familyID := by
    rintro familyID ⟨families, shown, listed⟩
    rw [move.log_eq]
    exact ⟨event.process, families, ⟨event, List.mem_cons_self, rfl, shown⟩, listed⟩
  have stays : ∀ familyID, Reaped middle.log familyID → Reaped later.log familyID := by
    intro familyID reaped
    rw [move.log_eq]
    exact reaped.cons event
  constructor
  · intro familyID closedBefore
    rcases closed familyID closedBefore with closedMiddle | reaped
    · by_cases purged : ∃ families, observeServer event.effect event.answer = .purged families ∧
          familyID ∈ families
      · exact .inr (reaps familyID purged)
      · refine .inl (moves.closed closedMiddle fun families shown listed => ?_)
        exact purged ⟨families, shown, listed⟩
    · exact .inr (stays familyID reaped)
  · intro row present
    rcases kept row present with ⟨next, member, evolves⟩ | reaped
    · by_cases purged : ∃ families, observeServer event.effect event.answer = .purged families ∧
          row.familyID ∈ families
      · exact .inr (reaps row.familyID purged)
      · obtain ⟨last, found, evolvesToo⟩ := moves.exists_evolves member fun families shown listed =>
          purged ⟨families, shown, evolves.familyID_eq ▸ listed⟩
        exact .inl ⟨last, found, evolves.trans evolvesToo⟩
    · exact .inr (stays row.familyID reaped)

/-- If no sweep deletes a family while a rotation of it is in flight, then nothing is saved into
a reaped family, a revoked family has no live token again, and a family with a live token still
has every token it ever had. -/
theorem reaped_family_stays_empty_outside_rotation (crypto : Crypto) (config : TokenConfig)
    (store : Store) (tasks : Nat → Task) (named : ∀ row ∈ store.rows, row.familyID ≠ "")
    (refreshes : ∀ process request, tasks process = .token request →
      request.form.get "grant_type" = "refresh_token")
    {middle after : Configuration serverCalls Store Outcome}
    (reached : Reaches serverWorld OutsideRotation (server crypto config store tasks) middle)
    (later : Reaches serverWorld OutsideRotation middle after) :
    (∀ event next familyID, Step serverWorld after event next → Reaped after.log familyID →
        ¬ SavesInto event familyID) ∧
      (∀ familyID, FamilyClosed middle.store.rows familyID → FamilyDead after.store.rows familyID) ∧
      ∀ row ∈ middle.store.rows, ∀ live ∈ after.store.rows, live.familyID = row.familyID →
        live.live → ∃ next ∈ after.store.rows, row.Evolves next := by
  have start : Undrawing config tasks (server crypto config store tasks) :=
    server_follows crypto store fun process request asked =>
      dispatch_refresh_keeps (refreshes process request asked)
  obtain ⟨⟨safeMiddle, -⟩, obeysMiddle⟩ := (ReapSafe.initial crypto store named).run start reached
  obtain ⟨⟨safe, closed, kept⟩, obeys⟩ := safeMiddle.run obeysMiddle later
  refine ⟨?_, ?_, ?_⟩
  · rintro event next familyID move reaped ⟨origin, expiresAt, shown, rfl⟩
    have permitted := (obeys.step move (safe.assumes move _)).1
    rw [shown] at permitted
    exact safe.not_reaped move permitted reaped
  · intro familyID closedMiddle
    rcases closed familyID closedMiddle with stillClosed | reaped
    · exact stillClosed.dead
    · intro row present family
      exact absurd family (safe.absent familyID reaped row present)
  · intro row present live alive family _
    rcases kept row present with found | reaped
    · exact found
    · exact absurd family (safe.absent row.familyID reaped live alive)

end Reaped

def sampleReaper : Reaper where
  refreshMaxLifetime := 100
  batch := 500
  positive := by decide
  pages := 1
  range := id
  range_perm _ := .refl _

/-- One request rotates the token, one task revokes its family and the others sweep. -/
def sampleTasks : Nat → Task
  | 0 => .token ⟨[("grant_type", "refresh_token"), ("refresh_token", "token"),
      ("client_id", "client")], none⟩
  | 1 => .revoke (.family "family") 15
  | _ => .sweep sampleReaper

def sampleServerRun (order : List Nat) : Configuration serverCalls Store Outcome :=
  (server plainCrypto sampleConfig sampleStore sampleTasks).turns (serverExecutor sampleScript)
    order

/-- These are the deeds of a run and who did them, the newest first. -/
def deeds : List (Nat × Deed) :=
  (log.map fun event => (event.process, observeServer event.effect event.answer)).filter
    fun entry => entry.2 ≠ .quiet

def sampleOrigin : Origin :=
  ⟨"client", "google", "subject", "person@example.com", "family", 0⟩

/-- The token is taken at its expiry, the family is revoked, a later sweep deletes it, and then
the rotation saves a live token into it. -/
theorem reaper_revives_revoked_family :
    Reaches serverWorld anyStep (server plainCrypto sampleConfig sampleStore sampleTasks)
        (sampleServerRun [0, 0, 1, 1, 2, 2, 2, 0, 0, 0, 0, 0, 0]) ∧
      deeds (sampleServerRun [0, 0, 1, 1, 2, 2, 2, 0, 0, 0, 0, 0, 0]).log =
        [(0, .saved sampleOrigin 30), (0, .read 20), (2, .purged ["family"]), (2, .read 20),
          (0, .took sampleOrigin 10 10), (0, .read 10)] ∧
      (sampleServerRun [0, 0, 1, 1]).processes 1 = .done (.revoked (.ok 0)) ∧
      FamilyRevoked (sampleServerRun [0, 0, 1, 1]).store.rows "family" ∧
      FamilyDead (sampleServerRun [0, 0, 1, 1]).store.rows "family" ∧
      ¬ FamilyDead (sampleServerRun [0, 0, 1, 1, 2, 2, 2, 0, 0, 0, 0, 0, 0]).store.rows
        "family" := by
  refine ⟨?_, rfl, rfl, by decide, by decide, by decide⟩
  exact (Configuration.lawful_of_follows (serverExecutor_follows sampleScript) _ _).reaches

/-- A sweep after the revocation and before the rotation meets the condition. -/
theorem reaped_family_stays_empty_outside_rotation_sample :
    FamilyRevoked (sampleServerRun [1]).store.rows "family" ∧
      (2, .purged ["family"]) ∈ deeds (sampleServerRun [1, 2, 2, 2, 0, 0, 0]).log ∧
      FamilyDead (sampleServerRun [1, 2, 2, 2, 0, 0, 0]).store.rows "family" := by
  have follows := serverExecutor_follows sampleScript
  have lawful : (server plainCrypto sampleConfig sampleStore sampleTasks).Lawful serverWorld
      OutsideRotation (serverExecutor sampleScript) [1] :=
    ⟨⟨nofun, follows _ _ _ _⟩, trivial⟩
  have untaken : ∀ event ∈ (sampleServerRun [1, 2, 2]).log, ∀ origin expiresAt moment,
      observeServer event.effect event.answer ≠ .took origin expiresAt moment := by
    intro event member
    rcases member with _ | ⟨_, _ | ⟨_, _ | ⟨_, member⟩⟩⟩
    · exact nofun
    · exact nofun
    · exact nofun
    · cases member
  have outside : ∀ event, OutsideRotation (sampleServerRun [1, 2, 2]) event := by
    rintro event families - familyID - process ⟨⟨origin, expiresAt, moment, -, taken⟩, -⟩
    obtain ⟨earlier, member, -, shown⟩ := taken
    exact untaken earlier member origin expiresAt moment shown
  have lawfulLater : (sampleServerRun [1]).Lawful serverWorld OutsideRotation
      (serverExecutor sampleScript) [2, 2, 2, 0, 0, 0] :=
    ⟨⟨nofun, follows _ _ _ _⟩, ⟨nofun, follows _ _ _ _⟩, ⟨outside _, follows _ _ _ _⟩,
      ⟨nofun, follows _ _ _ _⟩, ⟨nofun, follows _ _ _ _⟩, ⟨nofun, follows _ _ _ _⟩, trivial⟩
  have named : ∀ row ∈ sampleStore.rows, row.familyID ≠ "" := by decide
  have refreshes : ∀ process request, sampleTasks process = .token request →
      request.form.get "grant_type" = "refresh_token" := by
    intro process request asked
    unfold sampleTasks at asked
    split at asked
    · cases asked
      rfl
    · cases asked
    · cases asked
  have revoked : FamilyRevoked (sampleServerRun [1]).store.rows "family" := by decide
  have every : ∀ row ∈ (sampleServerRun [1]).store.rows, row.familyID = "family" →
      row.revokedAt.isSome := by decide
  have conclusion := reaped_family_stays_empty_outside_rotation plainCrypto sampleConfig
    sampleStore sampleTasks named refreshes lawful.reaches lawfulLater.reaches
  exact ⟨revoked, by decide, conclusion.2.1 "family" ⟨revoked, every⟩⟩

end Tempogate.Sqlite
