/-
This file follows a retired keypair through the key sets that the processes hold in memory.
-/

import Tempogate.Foundation.Protocol
import Tempogate.Proof.Keys.Signing

namespace Tempogate.Keys

open Foundation Oidc

/-- These are the steps that matter for a retirement. -/
inductive Sight
  | marked (kid : String)
  | installed (replica : Nat)
  | read (replica : Nat) (keypairs : List Keypair)
  | nothing

def observeSights : Observer keyCalls Sight
  | .retireKeypair kid _, answer => match answer with
    | .ok _ => .marked kid
    | .error _ => .nothing
  | .swap replica _, _ => .installed replica
  | .all replica, keypairs => .read replica keypairs
  | _, _ => .nothing

/-- An operation has retired a kid in the store, and then has installed a set on its replica. -/
inductive Progress
  | begun
  | marked (kid : String)
  | installed (replica : Nat) (kid : String)

def Progress.advance : Progress → Sight → Progress
  | _, .marked kid => .marked kid
  | .marked kid, .installed replica => .installed replica kid
  | progress, _ => progress

/-- Every operation may take every step. -/
def progressProtocol : Protocol Sight Progress where
  assumes _ _ := True
  permits _ _ := True
  advance := Progress.advance

/-- A retirement that succeeded has installed a set after the store retired the kid. -/
def Completes (progress : Progress) (outcome : KeyOutcome) : Prop :=
  ∀ replica kid keypair, outcome = .retired replica kid (.ok keypair) →
    progress = .installed replica kid

section Progress

variable {Result : Type} {post : Progress → Result → Prop} {progress : Progress}

/-- Without a demand on the result every program keeps to the protocol. -/
theorem meets_progress (program : Operation Result) (holds : ∀ after result, post after result) :
    program.Meets progressProtocol observeSights post progress := by
  induction program generalizing progress with
  | done result => exact holds progress result
  | perform effect next ih => exact fun answer _ => ⟨trivial, ih answer⟩

variable (keys : Keys)

/-- A successful reload ends with the installed set. -/
theorem reload_meets : keys.reload.Meets progressProtocol observeSights
      (fun after result => result = .ok () → after = progress.advance (.installed keys.replica))
      progress := by
  refine fun answer _ => ⟨trivial, ?_⟩
  cases answer with
  | error cause => exact nofun
  | ok stored =>
    dsimp only [Program.bind]
    cases keys.openStored stored with
    | error error => exact nofun
    | ok keypairs => exact fun _ _ => ⟨trivial, fun _ => rfl⟩

theorem retireChecked_meets (kid : String) :
    (keys.retireChecked kid).Meets progressProtocol observeSights
      (fun after result => ∀ keypair, result = .ok keypair → after = .installed keys.replica kid)
      progress := by
  refine fun moment _ => ⟨trivial, fun answer _ => ⟨trivial, ?_⟩⟩
  cases answer with
  | error error => exact nofun
  | ok stored =>
    refine (reload_meets keys).bind fun after result reloaded => ?_
    cases result with
    | error error => exact nofun
    | ok _ =>
      obtain rfl := reloaded rfl
      refine fun keypairs _ => ⟨trivial, ?_⟩
      dsimp only [Program.bind]
      cases keypairs.find? fun keypair => keypair.kid = stored.kid with
      | none => exact nofun
      | some keypair => exact fun _ _ => rfl

theorem retire_meets (kid : String) (force : Bool) :
    (keys.retire kid force).Meets progressProtocol observeSights
      (fun after result => ∀ keypair, result = .ok keypair → after = .installed keys.replica kid)
      progress := by
  cases force with
  | true => exact retireChecked_meets keys kid
  | false =>
    refine (meets_progress (keys.checkReplacementPublished kid)
      (fun _ _ => trivial : Progress → _ → True)).bind fun after result _ => ?_
    cases result with
    | error error => exact nofun
    | ok _ => exact retireChecked_meets keys kid

/-- Every task completes what it reports. -/
theorem program_meets (task : KeyTask) :
    (task.program keys).Meets progressProtocol observeSights Completes progress := by
  cases task with
  | retire kid force =>
    refine (retire_meets keys kid force).bind fun after result completed => ?_
    rintro replica other keypair ⟨rfl⟩
    exact completed keypair rfl
  | _ =>
    refine (meets_progress _ (fun _ _ => trivial : Progress → _ → True)).bind fun _ _ _ => ?_
    exact nofun

end Progress

section Memory

variable {backend : Backend} {ticks : Time → Time → Prop} {before after : Operations}
  {event : Event keyCalls} {replica : Nat} {kid : String}

/-- No process installs a set that shows a keypair active which the store has retired. -/
def Current (before : Operations) (event : Event keyCalls) : Prop :=
  ∀ replica keypairs, event.effect = .swap replica keypairs →
    ∀ keypair ∈ keypairs, before.store.stored.Retired keypair.kid → keypair.retired

/-- The store has retired the kid, and the replica does not hold it as active. -/
structure Gone (replica : Nat) (kid : String) (state : KeyState) : Prop where
  stored : state.stored.Retired kid
  memory : ∀ keypair ∈ state.memory replica, keypair.kid = kid → keypair.retired

/-- A current step never brings the kid back. -/
theorem Gone.step (gone : Gone replica kid before.store) (current : Current before event)
    (move : Step (world backend ticks) before event after) : Gone replica kid after.store := by
  have happens := move.happens
  refine ⟨happens.retired_stays gone.stored, ?_⟩
  obtain ⟨process, effect, answer⟩ := event
  generalize after.store = state at happens ⊢
  cases happens with
  | @swap installed keypairs =>
    intro keypair member same
    by_cases mine : installed = replica
    · subst mine
      rw [KeyState.memory_install] at member
      exact current installed keypairs rfl keypair member (same ▸ gone.stored)
    · rw [KeyState.memory_install_of_ne _ _ mine] at member
      exact gone.memory keypair member same
  | _ => exact gone.memory

/-- The progress of an operation tells what the store and its replica hold. -/
def Progress.Holds (state : KeyState) : Progress → Prop
  | .begun => True
  | .marked kid => state.stored.Retired kid
  | .installed replica kid => Gone replica kid state

section

variable {progress : Progress} (holds : progress.Holds before.store)
  (current : Current before event) (move : Step (world backend ticks) before event after)

include holds current move

theorem Progress.Holds.step : progress.Holds after.store := by
  cases progress with
  | begun => trivial
  | marked kid => exact move.happens.retired_stays holds
  | installed replica kid => exact Gone.step holds current move

/-- The step of an operation brings the state to its next progress. -/
theorem Progress.Holds.advance :
    (progress.advance (observeSights event.effect event.answer)).Holds after.store := by
  have kept := holds.step current move
  have happens := move.happens
  obtain ⟨process, effect, answer⟩ := event
  generalize after.store = state at happens kept ⊢
  cases happens with
  | @retired kid moment =>
    cases answered : (backend.retireKeypair kid moment before.store.stored).1 with
    | error error => simpa only [observeSights, answered, Progress.advance] using kept
    | ok keypair =>
      simp only [observeSights, answered, Progress.advance]
      exact Backend.retireKeypair_ok answered
  | @swap replica keypairs =>
    cases progress with
    | marked kid =>
      refine ⟨kept, fun keypair member same => ?_⟩
      rw [KeyState.memory_install] at member
      exact current replica keypairs rfl keypair member (same ▸ holds)
    | _ => exact kept
  | _ => cases progress <;> exact kept

end

/-- Every operation reaches its next progress while the others keep theirs. -/
theorem holds_step (holds : ∀ process,
      (progressProtocol.ghost observeSights (fun _ => .begun) before.log process).Holds
        before.store)
    (current : Current before event) (move : Step (world backend ticks) before event after) :
    ∀ process, (progressProtocol.ghost observeSights (fun _ => .begun) after.log process).Holds
      after.store := by
  intro process
  rw [move.log_eq]
  by_cases mine : event.process = process
  · subst mine
    rw [Protocol.ghost_self]
    exact (holds event.process).advance current move
  · rw [Protocol.ghost_of_ne _ _ _ _ mine]
    exact (holds process).step current move

/-- A reading of the replica shows the kid retired. -/
theorem Gone.reads (gone : Gone replica kid before.store)
    (move : Step (world backend ticks) before event after) {keypairs : List Keypair}
    (shown : observeSights event.effect event.answer = .read replica keypairs) :
    ∀ keypair ∈ keypairs, keypair.kid = kid → keypair.retired := by
  have happens := move.happens
  obtain ⟨process, effect, answer⟩ := event
  generalize after.store = state at happens
  cases happens with
  | all =>
    cases shown
    exact gone.memory
  | retired =>
    simp only [observeSights] at shown
    split at shown <;> cases shown
  | _ => cases shown

/-- Only a swap can be outdated. -/
theorem Current.of_quiet (quiet : ∀ replica keypairs, event.effect ≠ .swap replica keypairs) :
    Current before event :=
  fun replica keypairs same => absurd same (quiet replica keypairs)

/-- A swap of a set that agrees with the store on retired keypairs is current. -/
theorem Current.of_agrees {process : Nat} {keypairs : List Keypair}
    (agrees : (keypairs.all fun keypair => keypair.retired ||
      !before.store.stored.rows.any fun row => row.kid = keypair.kid && row.retired) = true) :
    Current before ⟨process, .swap replica keypairs, ()⟩ := by
  rintro _ _ ⟨rfl⟩ keypair member ⟨row, stored, same, isRetired⟩
  have agreed := List.all_eq_true.mp agrees keypair member
  have known : (before.store.stored.rows.any fun row =>
      row.kid = keypair.kid && row.retired) = true :=
    List.any_eq_true.mpr ⟨row, stored, by simp [same, isRetired]⟩
  simpa [known] using agreed

end Memory

/-- The reader of a replica never meets the kid as active. -/
def readerProtocol (replica : Nat) (kid : String) : Protocol Sight Unit where
  assumes _ sight := ∀ keypairs, sight = .read replica keypairs →
    ∀ keypair ∈ keypairs, keypair.kid = kid → keypair.retired
  permits _ _ := True
  advance _ _ := ()

theorem latest_meets (keys : Keys) (kid : String) :
    (KeyTask.latest.program keys).Meets (readerProtocol keys.replica kid) observeSights
      (fun _ outcome => ∀ signer, outcome = .latest keys.replica (.ok signer) →
        signer.kid ≠ kid) () := by
  refine fun keypairs assumed => ⟨trivial, fun moment _ => ⟨trivial, ?_⟩⟩
  dsimp only [Program.bind]
  cases found : signing keypairs moment keys.publishDelay with
  | none => exact nofun
  | some signer =>
    rintro other ⟨rfl⟩ same
    obtain ⟨member, active⟩ := signing_mem found
    have isRetired := assumed keypairs rfl signer member same
    simp [Keypair.active, isRetired] at active

/-- In every run in which no process installs an outdated set, once a retirement of a kid has
returned successfully no later reading of the signer in that process returns the kid. -/
theorem retired_key_stops_signing (backend : Backend) (ticks : Time → Time → Prop)
    (start : KeyState) (tasks : Nat → Keys × KeyTask) {returned later : Operations}
    {process reader : Nat} {kid : String} {keys : Keys} {keypair signer : Keypair}
    (run : Reaches (world backend ticks) Current (operations start tasks) returned)
    (done : returned.processes process = .done (.retired keys.replica kid (.ok keypair)))
    (begins : returned.processes reader = KeyTask.latest.program keys)
    (onward : Reaches (world backend ticks) Current returned later)
    (answered : later.processes reader = .done (.latest keys.replica (.ok signer))) :
    signer.kid ≠ kid := by
  have follows : (operations start tasks).Follows progressProtocol observeSights Completes
      fun _ => .begun := fun process => program_meets _ _
  have initially : ∀ process, (progressProtocol.ghost observeSights (fun _ => .begun)
      (operations start tasks).log process).Holds start := fun _ => trivial
  have gone : Gone keys.replica kid returned.store := by
    obtain ⟨holds, met⟩ := run.follows (fun current => ∀ process,
      (progressProtocol.ghost observeSights (fun _ => .begun) current.log process).Holds
        current.store) initially follows fun before event after holds _ current move =>
          ⟨trivial, fun _ => holds_step holds current move⟩
    have completed := met process
    have held := holds process
    rw [done] at completed
    rw [completed keys.replica kid keypair rfl] at held
    exact held
  obtain ⟨-, _, reads⟩ := onward.watch (fun current => Gone keys.replica kid current.store) gone
    (begins ▸ latest_meets keys kid) fun before event after gone current move =>
      ⟨gone.step current move, fun _ _ keypairs shown => gone.reads move shown⟩
  rw [answered] at reads
  exact reads signer rfl

section Sample

/-- Two active keypairs are stored and loaded. -/
def sampleState : KeyState where
  stored := ⟨[⟨1, sampleKeypair "old" 0⟩, ⟨2, sampleKeypair "new" 1⟩], by decide, by decide⟩
  memory _ := [sampleKeypair "old" 0, sampleKeypair "new" 1]
  clock := 5

/-- One request retires the newer keypair, one reloads and one reads the signer. -/
def sampleTasks : Nat → Keys × KeyTask
  | 0 => (sampleKeys 0, .retire "new" false)
  | 1 => (sampleKeys 0, .reload)
  | _ => (sampleKeys 0, .latest)

def sampleTurns (order : List Nat) : Operations :=
  (operations sampleState sampleTasks).turns (executor .sqlite (sampleScript 5)) order

theorem sampleTurns_lawful (order : List Nat) :
    (operations sampleState sampleTasks).Lawful (world .sqlite (· ≤ ·)) anyStep
      (executor .sqlite (sampleScript 5)) order :=
  lawful_of_still .sqlite (sampleScript 5) (fun _ _ => rfl) (le_refl _) order

/-- A reload that loaded the set before the retirement installs it after the retirement returned. -/
theorem reload_revives_retired_key :
    Reaches (world .sqlite (· ≤ ·)) anyStep (operations sampleState sampleTasks)
      (sampleTurns [1, 0, 0, 0, 0, 0, 0, 0, 0, 0, 0, 0]) ∧
    (sampleTurns [1, 0, 0, 0, 0, 0, 0, 0, 0, 0, 0, 0]).processes 0 =
      .done (.retired 0 "new" (.ok ((sampleKeypair "new" 1).retire 5))) ∧
    (sampleTurns [1, 0, 0, 0, 0, 0, 0, 0, 0, 0, 0, 0]).processes 2 =
      KeyTask.latest.program (sampleKeys 0) ∧
    Reaches (world .sqlite (· ≤ ·)) anyStep (sampleTurns [1, 0, 0, 0, 0, 0, 0, 0, 0, 0, 0, 0])
      (sampleTurns [1, 0, 0, 0, 0, 0, 0, 0, 0, 0, 0, 0, 1, 2, 2]) ∧
    (sampleTurns [1, 0, 0, 0, 0, 0, 0, 0, 0, 0, 0, 0, 1, 2, 2]).processes 2 =
      .done (.latest 0 (.ok (sampleKeypair "new" 1))) := by
  refine ⟨(sampleTurns_lawful _).reaches, rfl, rfl, ?_, rfl⟩
  have onward := lawful_of_still .sqlite (sampleScript 5) (fun _ _ => rfl)
    (le_refl (sampleTurns [1, 0, 0, 0, 0, 0, 0, 0, 0, 0, 0, 0]).store.clock) [1, 2, 2]
  exact onward.reaches

/-- The sample retirement is current when nothing comes in between. -/
theorem sampleRetirement_current :
    (operations sampleState sampleTasks).Lawful (world .sqlite (· ≤ ·)) Current
      (executor .sqlite (sampleScript 5)) [0, 0, 0, 0, 0, 0, 0, 0, 0, 0, 0] := by
  exact ⟨⟨.of_quiet nofun, .loaded⟩, ⟨.of_agrees rfl, .swap⟩, ⟨.of_quiet nofun, .all⟩,
    ⟨.of_quiet nofun, .now (le_refl _)⟩, ⟨.of_quiet nofun, .now (le_refl _)⟩,
    ⟨.of_quiet nofun, .now (le_refl _)⟩, ⟨.of_quiet nofun, .now (le_refl _)⟩,
    ⟨.of_quiet nofun, .retired⟩, ⟨.of_quiet nofun, .loaded⟩, ⟨.of_agrees rfl, .swap⟩,
    ⟨.of_quiet nofun, .all⟩, trivial⟩

/-- The signer is read after the retirement. -/
theorem sampleReading_current :
    (sampleTurns [0, 0, 0, 0, 0, 0, 0, 0, 0, 0, 0]).Lawful (world .sqlite (· ≤ ·)) Current
      (executor .sqlite (sampleScript 5)) [2, 2] := by
  exact ⟨⟨.of_quiet nofun, .all⟩, ⟨.of_quiet nofun, .now (le_refl _)⟩, trivial⟩

/-- After the sample retirement the older keypair signs. -/
theorem retired_key_stops_signing_sample :
    (sampleTurns [0, 0, 0, 0, 0, 0, 0, 0, 0, 0, 0, 2, 2]).processes 2 =
      .done (.latest 0 (.ok (sampleKeypair "old" 0))) ∧ (sampleKeypair "old" 0).kid ≠ "new" :=
  ⟨rfl, @retired_key_stops_signing .sqlite (· ≤ ·) sampleState sampleTasks
    (sampleTurns [0, 0, 0, 0, 0, 0, 0, 0, 0, 0, 0]) _ 0 2 "new" (sampleKeys 0)
    ((sampleKeypair "new" 1).retire 5) _ sampleRetirement_current.reaches rfl rfl
    sampleReading_current.reaches rfl⟩

end Sample

end Tempogate.Keys
