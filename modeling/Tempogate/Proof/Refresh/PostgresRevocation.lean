/-
This file proves that a committed Postgres revocation is final.
-/

import Tempogate.Proof.Refresh.PostgresSafety

namespace Tempogate.Postgres

open Foundation Oidc State Write Stage

abbrev Session : Type :=
  Configuration (server Database Write Key) (Server Database Write Key) Returned

/-- The stage of a client follows from its call and its events. -/
def stageOf (requests : Nat → RefreshCall) (session : Session) (process : Nat) : Stage :=
  stages.ghost observe (fun client => .start (requests client)) session.log process

/-- The server reported a failure to the client. -/
def Failed (session : Session) (process : Nat) : Prop :=
  ∃ event ∈ session.log, event.process = process ∧ ServerEffect.Fails event.effect event.answer

/-- These are the stages of a save. -/
inductive OfSave (refresh : Refresh) : Stage → Prop
  | saving (known : Bool) : OfSave refresh (.saving refresh known)
  | cleared : OfSave refresh (.cleared refresh)
  | refused : OfSave refresh (.refused refresh)
  | failed : OfSave refresh .failed
  | ended : OfSave refresh .ended

variable {effect : Effect} {answer : effect.Answer} {refresh : Refresh}
  {after state : Server Database Write Key} {process saver : Nat} {requests : Nat → RefreshCall}
  {session : Session}

variable {stage : Stage}

/-- A save stays a save, and only a reported failure makes it fail. -/
theorem OfSave.advance (ofSave : OfSave refresh stage) (permitted : stage.permits effect answer) :
    OfSave refresh (stage.advance effect answer) ∧
      (stage.advance effect answer = .failed → stage = .failed ∨ effect.Fails answer) := by
  cases ofSave with
  | saving known =>
    cases effect with
    | begin =>
      rcases answer with cause | ⟨⟩
      · exact ⟨.failed, fun _ => .inr ⟨cause, rfl⟩⟩
      · exact ⟨.saving known, nofun⟩
    | snapshot =>
      rcases answer with cause | visible
      · exact ⟨.failed, fun _ => .inr ⟨cause, rfl⟩⟩
      · exact ⟨.saving _, nofun⟩
    | lock key mode =>
      rcases answer with cause | newest
      · exact ⟨.failed, fun _ => .inr ⟨cause, rfl⟩⟩
      · simp only [advance]
        split
        · exact ⟨.saving known, nofun⟩
        · split
          · exact ⟨.refused, nofun⟩
          · exact ⟨.cleared, nofun⟩
    | claim key free change =>
      rcases answer with cause | inserted
      · exact ⟨.failed, fun _ => .inr ⟨cause, rfl⟩⟩
      · exact ⟨.saving true, nofun⟩
    | rollback => exact ⟨.ended, nofun⟩
    | _ => exact permitted.elim
  | cleared =>
    cases effect with
    | claim key free change =>
      rcases answer with cause | inserted
      · exact ⟨.failed, fun _ => .inr ⟨cause, rfl⟩⟩
      · exact ⟨.cleared, nofun⟩
    | commit =>
      rcases answer with cause | ⟨⟩
      · exact ⟨.failed, fun _ => .inr ⟨cause, rfl⟩⟩
      · exact ⟨.ended, nofun⟩
    | rollback => exact ⟨.ended, nofun⟩
    | _ => exact permitted.elim
  | refused => exact ⟨.refused, nofun⟩
  | failed => exact ⟨.failed, fun _ => .inl rfl⟩
  | ended => exact ⟨.ended, nofun⟩

/-- The row of a stamped family refuses the save that locks it. -/
theorem advance_lock_of_stamped {known : Bool} {key : Key} {mode : LockMode} {newest : Database}
    (stamped : newest.FamilyStamped refresh.familyID) :
    (saving refresh known).advance (.lock key mode) (.ok newest) = .refused refresh := by
  have present : (newest.family refresh.familyID).isSome := by
    obtain ⟨row, member, family, -⟩ := stamped
    exact Database.family_isSome.mpr ⟨row, member, family⟩
  obtain ⟨row, found⟩ := Option.isSome_iff_exists.mp present
  have revoked := (Database.familyStamped_iff found).mp stamped
  simp [advance, found, revoked]

/-- What the server answers is what the stages assume. -/
theorem Backs.assumed (backs : Backs state.committed (state.sessions process) stage)
    (served : Serves apply state process effect answer after) :
    stage.assumes effect answer := by
  cases stage with
  | saving refresh known =>
    cases known with
    | false => cases served <;> trivial
    | true =>
      cases served with
      | snapshot => exact backs.2 rfl
      | lock granted => exact backs.2 rfl
      | _ => trivial
  | _ => cases served <;> trivial

/-- The server is safe, and a save is in a stage of its own and failed only by a failure. -/
structure Sound (requests : Nat → RefreshCall) (session : Session) : Prop where
  safe : Safe session.store (stageOf requests session)
  save : ∀ process refresh, requests process = .saveRefresh refresh →
    OfSave refresh (stageOf requests session process)
  failed : ∀ process refresh, requests process = .saveRefresh refresh →
    stageOf requests session process = .failed → Failed session process

/-- Every client follows its stages. -/
def Following (requests : Nat → RefreshCall) (session : Session) : Prop :=
  session.Follows stages observe answers fun client => .start (requests client)

section Runs

variable {requests : Nat → RefreshCall} {before after : Session}
  {event : Event (server Database Write Key)}

section

variable (move : Step world before event after)

include move

theorem stageOf_self : stageOf requests after event.process =
      (stageOf requests before event.process).advance event.effect event.answer := by
  unfold stageOf
  rw [move.log_eq, Protocol.ghost_self]
  rfl

theorem stageOf_of_ne (other : process ≠ event.process) :
    stageOf requests after process = stageOf requests before process := by
  unfold stageOf
  rw [move.log_eq, Protocol.ghost_of_ne _ _ _ _ (Ne.symm other)]

theorem Failed.step (failed : Failed before process) : Failed after process := by
  obtain ⟨old, member, facts⟩ := failed
  refine ⟨old, ?_, facts⟩
  rw [move.log_eq]
  exact List.mem_cons_of_mem _ member

/-- A permitted step keeps the session sound. -/
theorem Sound.step (sound : Sound requests before)
    (permitted : (stageOf requests before event.process).permits event.effect event.answer) :
    Sound requests after where
  safe := sound.safe.step permitted move.happens (stageOf_self move) fun _ => stageOf_of_ne move
  save process refresh asked := by
    by_cases mine : process = event.process
    · subst mine
      rw [stageOf_self move]
      exact ((sound.save _ refresh asked).advance permitted).1
    · rw [stageOf_of_ne move mine]
      exact sound.save process refresh asked
  failed process refresh asked isFailed := by
    by_cases mine : process = event.process
    · subst mine
      rw [stageOf_self move] at isFailed
      rcases ((sound.save _ refresh asked).advance permitted).2 isFailed with old | fails
      · exact (sound.failed _ refresh asked old).step move
      · exact ⟨event, by rw [move.log_eq]; exact List.mem_cons_self, rfl, fails⟩
    · rw [stageOf_of_ne move mine] at isFailed
      exact (sound.failed process refresh asked isFailed).step move

end

/-- An invariant of sound sessions may use the stages at each step. -/
theorem Sound.run (property : Session → Prop) (sound : Sound requests before)
    (following : Following requests before) (base : property before)
    (preserved : ∀ session event next, property session → Sound requests session →
      Step world session event next →
      (stageOf requests session event.process).permits event.effect event.answer →
      property next)
    (reached : Reaches world anyStep before after) :
    property after ∧ Sound requests after ∧ Following requests after := by
  have run := reached.follows
    (fun session => property session ∧ Sound requests session) ⟨base, sound⟩ following ?_
  · exact ⟨run.1.1, run.1.2, run.2⟩
  · intro session event next holds _ _ step
    refine ⟨(holds.2.safe.backed event.process).assumed step.happens, fun permitted => ?_⟩
    exact ⟨preserved session event next holds.1 holds.2 step permitted, holds.2.step step permitted⟩

end Runs

/-- A waiting save has not locked its family row yet, or it was refused. -/
def Waiting (refresh : Refresh) (stage : Stage) : Prop :=
  (∃ known, stage = .saving refresh known) ∨ stage = .refused refresh

theorem stamped_served {familyID : String} (served : Serves apply state process effect answer after)
    (stamped : state.committed.FamilyStamped familyID) :
    after.committed.FamilyStamped familyID := by
  rcases served.committed_cases with unchanged | ⟨-, published⟩
  · rw [unchanged]
    exact stamped
  · rw [published]
    exact stamped_written stamped

/-- A waiting save of a stamped family keeps waiting, is refused or fails. -/
theorem Waiting.advance (waiting : Waiting refresh stage) (permitted : stage.permits effect answer)
    (served : Serves apply state process effect answer after)
    (stamped : state.committed.FamilyStamped refresh.familyID) :
    Waiting refresh (stage.advance effect answer) ∨
      effect.Fails answer ∧ stage.advance effect answer = .failed := by
  rcases waiting with ⟨known, rfl⟩ | rfl
  · cases served with
    | begin => exact .inl (.inl ⟨known, rfl⟩)
    | snapshot => exact .inl (.inl ⟨_, rfl⟩)
    | lock granted => exact .inl (.inr (advance_lock_of_stamped (stamped_written stamped)))
    | claimed granted isFree => exact .inl (.inl ⟨true, rfl⟩)
    | taken granted isTaken => exact .inl (.inl ⟨true, rfl⟩)
    | beginFailed cause => exact .inr ⟨⟨cause, rfl⟩, rfl⟩
    | snapshotFailed cause => exact .inr ⟨⟨cause, rfl⟩, rfl⟩
    | lockFailed cause => exact .inr ⟨⟨cause, rfl⟩, rfl⟩
    | claimFailed cause => exact .inr ⟨⟨cause, rfl⟩, rfl⟩
    | rollback =>
      obtain ⟨row, member, family, -⟩ := stamped
      exact absurd (Database.HasFamily.storable ⟨row, member, family⟩) permitted
    | _ => exact permitted.elim
  · exact .inl (.inr rfl)

section

variable (following : Following requests session)
  (waiting : Waiting refresh (stageOf requests session saver))

include following waiting

/-- A waiting save can take its next step without a failure when its two locks are free. -/
theorem waiting_steps {next : effect.Answer → Query Returned}
    (row : session.store.Grants saver (.family refresh.familyID) .share)
    (index : session.store.Grants saver (.familyIndex refresh.familyID) .exclusive)
    (ready : session.processes saver = .perform effect next) :
    ∃ answer store, Serves apply session.store saver effect answer store ∧
      ¬ effect.Fails answer := by
  have meets : Staged answers (.perform effect next) (stageOf requests session saver) := by
    rw [← ready]
    exact following saver
  rcases waiting with ⟨known, stage⟩ | stage
  · rw [stage] at meets
    cases effect with
    | begin => exact ⟨_, _, .begin, nofun⟩
    | snapshot => exact ⟨_, _, .snapshot, nofun⟩
    | lock key mode =>
      have permitted := (meets (.error "") (by cases known <;> trivial)).1
      obtain ⟨rfl, rfl⟩ := permitted
      exact ⟨_, _, .lock row, nofun⟩
    | claim key free change =>
      have permitted := (meets (.error "") (by cases known <;> trivial)).1
      obtain ⟨⟨rfl, -⟩, -⟩ := permitted
      cases isFree : free (session.store.view apply saver) with
      | true => exact ⟨_, _, .claimed index isFree, nofun⟩
      | false => exact ⟨_, _, .taken index isFree, nofun⟩
    | commit => exact ((meets (.error "") (by cases known <;> trivial)).1).elim
    | rollback => exact ⟨_, _, .rollback, id⟩
    | _ => exact ((meets () (by cases known <;> trivial)).1).elim
  · rw [stage] at meets
    cases effect with
    | rollback => exact ⟨_, _, .rollback, id⟩
    | write change => exact ((meets () trivial).1).elim
    | _ => exact ((meets (.error "") trivial).1).elim

/-- A save that finished while it was waiting was refused. -/
theorem waiting_answer {returned : Returned} (finished : session.processes saver = .done returned) :
    returned = ⟨.saveRefresh refresh, .error (.refreshFamilyRevoked refresh.familyID)⟩ := by
  have answers : (stageOf requests session saver).answers returned := by
    have meets := following saver
    rw [finished] at meets
    exact meets
  rcases waiting with ⟨known, stage⟩ | stage
  · rw [stage] at answers
    exact answers.elim
  · rw [stage] at answers
    exact answers

/-- A waiting save of a stamped family finishes refused when its two locks are free. -/
theorem waiting_finishes (sound : Sound requests session)
    (stamped : session.store.committed.FamilyStamped refresh.familyID)
    (row : session.store.Grants saver (.family refresh.familyID) .share)
    (index : session.store.Grants saver (.familyIndex refresh.familyID) .exclusive) :
    ∃ final, Reaches world (fun _ event => event.process = saver) session final ∧
      final.processes saver =
        .done ⟨.saveRefresh refresh, .error (.refreshFamilyRevoked refresh.familyID)⟩ := by
  have finishes := @Reaches.finishes _ _ _ world session saver
    (fun current => Sound requests current ∧ Following requests current ∧
      current.store.committed.FamilyStamped refresh.familyID ∧
      Waiting refresh (stageOf requests current saver) ∧
      current.store.Grants saver (.family refresh.familyID) .share ∧
      current.store.Grants saver (.familyIndex refresh.familyID) .exclusive) ?_
    ⟨sound, following, stamped, waiting, row, index⟩
  · obtain ⟨final, returned, reached, finished, -, followed, -, stillWaiting, -⟩ := finishes
    refine ⟨final, reached, ?_⟩
    rw [finished, waiting_answer followed stillWaiting finished]
  · rintro current effect next
      ⟨soundNow, followingNow, stampedNow, waitingNow, rowNow, indexNow⟩ ready
    obtain ⟨answer, store, served, succeeds⟩ :=
      waiting_steps followingNow waitingNow rowNow indexNow ready
    have step := @Step.take _ _ _ world current saver effect next answer store ready served
    have assumed := (soundNow.safe.backed saver).assumed served
    obtain ⟨permitted, followed⟩ := followingNow.step step assumed
    refine ⟨answer, store, served, soundNow.step step permitted, followed,
      stamped_served served stampedNow, ?_, served.grants rowNow, served.grants indexNow⟩
    rw [stageOf_self step]
    exact (waitingNow.advance permitted served stampedNow).resolve_right
      fun failed => succeeds failed.1

end

/-- The clients start sound. -/
theorem clients_sound (crypto : Crypto) (rounds : Nat) {database : Database}
    (requests : Nat → RefreshCall) (settled : database.Settled) :
    Sound requests (clients crypto rounds database requests) where
  safe := by
    refine ⟨Server.Exclusion.quiet database, settled, fun process => ?_⟩
    change Backs database .idle (.start (requests process))
    have empty : ∀ effect : Write, effect ∉ (Transaction.idle : Transaction Write Key).writes := by
      intro effect member
      cases member
    have sweeping : Sweeping database .idle [] none := by
      refine ⟨by simp, by simp, fun effect member => absurd member (empty effect), ?_⟩
      intro hashes known
      cases known
    cases requests process with
    | saveRefresh refresh =>
      exact ⟨fun effect member => absurd member (empty effect), nofun⟩
    | consumeRefresh token clientID moment =>
      exact fun effect member => absurd member (empty effect)
    | _ => exact sweeping
  save process refresh asked := by
    change OfSave refresh (.start (requests process))
    rw [asked]
    exact .saving false
  failed process refresh asked isFailed := by
    change start (requests process) = .failed at isFailed
    rw [asked] at isFailed
    cases isFailed

theorem clients_following (crypto : Crypto) (rounds : Nat) (database : Database)
    (requests : Nat → RefreshCall) :
    Following requests (clients crypto (rounds + 2) database requests) :=
  fun process => client_staged crypto rounds (requests process)

/-- The open transaction of the process has stamped the family. -/
def Selected (state : Server Database Write Key) (process : Nat) (familyID : String) : Prop :=
  ∃ moment, .stampFamily familyID moment ∈ (state.sessions process).writes

section Revocation

variable {requests : Nat → RefreshCall} {before middle after : Session} {process : Nat}
  {familyID : String}

/-- The commit of a revocation publishes the stamps of the families it selected. -/
theorem Sound.commit_stamps (sound : Sound requests before) (following : Following requests before)
    (selected : Selected before.store process familyID)
    (commits : Step world before ⟨process, .commit, .ok ()⟩ middle) :
    middle.store.committed.FamilyStamped familyID := by
  have assumed := (sound.safe.backed process).assumed commits.happens
  have permitted := (following.step commits assumed).1
  have publishable := (sound.safe.backed process).publishable permitted
  obtain ⟨moment, stamps⟩ := selected
  have published : middle.store.committed =
      written (before.store.sessions process).writes before.store.committed := by
    generalize store : middle.store = published at commits ⊢
    have served : Serves apply before.store process .commit (.ok ()) middle.store :=
      commits.happens
    rw [store] at served
    cases served
    rfl
  rw [published]
  exact stamped_written_stamp (publishable.present familyID moment stamps) stamps

/-- An unfinished save of a stamped family is waiting, or the server failed it. -/
theorem Sound.unfinished (sound : Sound requests middle) (following : Following requests middle)
    (asked : requests saver = .saveRefresh refresh)
    (stamped : middle.store.committed.FamilyStamped refresh.familyID)
    (unfinished : ∀ returned, middle.processes saver ≠ .done returned) :
    Waiting refresh (stageOf requests middle saver) ∨ Failed middle saver := by
  have backed := sound.safe.backed saver
  have meets : Staged answers (middle.processes saver) (stageOf requests middle saver) :=
    following saver
  have ofSave := sound.save saver refresh asked
  have failed := sound.failed saver refresh asked
  generalize stageOf requests middle saver = stage at *
  cases ofSave with
  | saving known => exact .inl (.inl ⟨known, rfl⟩)
  | refused => exact .inl (.inr rfl)
  | failed => exact .inr (failed rfl)
  | cleared => exact absurd stamped (Clearing.unrevoked backed)
  | ended =>
    cases program : middle.processes saver with
    | done returned => exact absurd program (unfinished returned)
    | perform effect next =>
      rw [program] at meets
      exact absurd meets fun claims => by
        cases effect with
        | write change => exact (claims () trivial).1
        | rollback => exact (claims () trivial).1
        | _ => exact (claims (.error "") trivial).1

/-- Once a revocation that selected a family has committed, the family has no live token in any
later published state. Every save into it that was still running reports the revocation, unless
the server failed it, and it does so by its own steps when its two locks are free. -/
theorem committed_revocation_is_final (crypto : Crypto) (rounds : Nat) (database : Database)
    (requests : Nat → RefreshCall) (settled : database.Settled)
    (reached : Reaches world anyStep (clients crypto (rounds + 2) database requests) before)
    (selected : Selected before.store process familyID)
    (commits : Step world before ⟨process, .commit, .ok ()⟩ middle)
    (later : Reaches world anyStep middle after) :
    FamilyDead after.store.committed.rows familyID ∧
      ∀ saver refresh, requests saver = .saveRefresh refresh → refresh.familyID = familyID →
        (∀ returned, middle.processes saver ≠ .done returned) → ¬ Failed after saver →
        (∀ returned, after.processes saver = .done returned →
          returned = ⟨.saveRefresh refresh, .error (.refreshFamilyRevoked familyID)⟩) ∧
        (after.store.Grants saver (.family familyID) .share →
          after.store.Grants saver (.familyIndex familyID) .exclusive →
          ∃ final, Reaches world (fun _ event => event.process = saver) after final ∧
            final.processes saver =
              .done ⟨.saveRefresh refresh, .error (.refreshFamilyRevoked familyID)⟩) := by
  obtain ⟨-, soundBefore, followingBefore⟩ :=
    (clients_sound crypto (rounds + 2) requests settled).run (fun _ => True)
      (clients_following crypto rounds database requests) trivial
      (fun _ _ _ _ _ _ _ => trivial) reached
  have assumed := (soundBefore.safe.backed process).assumed commits.happens
  obtain ⟨permitted, following⟩ := followingBefore.step commits assumed
  have sound := soundBefore.step commits permitted
  have stamped := soundBefore.commit_stamps followingBefore selected commits
  have run := sound.run (fun current => current.store.committed.FamilyStamped familyID ∧
      ∀ saver refresh, requests saver = .saveRefresh refresh → refresh.familyID = familyID →
        (∀ returned, middle.processes saver ≠ .done returned) →
        Waiting refresh (stageOf requests current saver) ∨ Failed current saver)
    following ⟨stamped, ?_⟩ ?_ later
  · obtain ⟨⟨stampedAfter, waiting⟩, soundAfter, followingAfter⟩ := run
    refine ⟨soundAfter.safe.settled.dead stampedAfter, ?_⟩
    intro saver refresh asked family unfinished succeeded
    have waits := (waiting saver refresh asked family unfinished).resolve_right succeeded
    subst family
    refine ⟨fun returned => waiting_answer followingAfter waits, fun row index => ?_⟩
    exact waiting_finishes followingAfter waits soundAfter stampedAfter row index
  · intro saver refresh asked family unfinished
    subst family
    exact sound.unfinished following asked stamped unfinished
  · intro current event next holds _ step allowed
    refine ⟨stamped_served step.happens holds.1, ?_⟩
    intro saver refresh asked family unfinished
    rcases holds.2 saver refresh asked family unfinished with waits | failed
    · by_cases mine : saver = event.process
      · subst mine
        subst family
        rw [stageOf_self step]
        rcases waits.advance allowed step.happens holds.1 with still | ⟨fails, -⟩
        · exact .inl still
        · exact .inr ⟨event, by rw [step.log_eq]; exact List.mem_cons_self, rfl, fails⟩
      · rw [stageOf_of_ne step mine]
        exact .inl waits
    · exact .inr (failed.step step)

end Revocation

/-- One client saves a token and the next one revokes its family up to the given turn. -/
def sampleSession (turns : Nat) : Session :=
  ((clients plainCrypto 2 .empty sampleRequests).turns (Server.executor apply)
    (List.replicate 7 0)).turns (Server.executor apply) (List.replicate turns 1)

theorem sampleSession_reached (turns : Nat) :
    Reaches world anyStep (clients plainCrypto 2 .empty sampleRequests) (sampleSession turns) := by
  have quiet : (clients plainCrypto 2 .empty sampleRequests).store.Alone 0 := fun _ _ => rfl
  have saved := (quiet.lawful 7 : Configuration.Lawful (readCommitted apply) _ _ _ _).reaches
  have alone : (sampleSession 0).store.Alone 1 := by
    intro other distinct
    by_cases first : other = 0
    · subst first
      rfl
    · have kept := @Server.Alone.sessions_turns _ _ _ _ apply _ _ quiet 7 other first
      exact congrArg Transaction.locks kept
  exact saved.trans (alone.lawful turns).reaches

/-- The family is dead after the commit of the revocation in this run. -/
theorem committed_revocation_is_final_sample : Selected (sampleSession 7).store 1 "family" ∧
      FamilyDead (sampleSession 8).store.committed.rows "family" := by
  have selected : Selected (sampleSession 7).store 1 "family" := ⟨1, by decide⟩
  have commits : Step world (sampleSession 7) ⟨1, .commit, .ok ()⟩ (sampleSession 8) :=
    @Step.take _ _ _ world (sampleSession 7) 1 .commit _ (.ok ()) _ rfl .commit
  have settled : Database.empty.Settled := by
    rintro familyID ⟨row, member, -⟩
    cases member
  exact ⟨selected, (committed_revocation_is_final plainCrypto 0 .empty sampleRequests settled
    (sampleSession_reached 7) selected commits Reaches.refl).1⟩

end Tempogate.Postgres
