/-
This file proves that replicas that boot together agree on one signing key.
-/

import Mathlib.Data.List.Perm.Basic
import Tempogate.Proof.Keys.Boot

namespace Tempogate.Keys

open Foundation Oidc Keypair Table Function List

variable {keypair : Keypair} {ticks : Time → Time → Prop}

section Memory

/-- A memory holds the opened rows of a table in order. -/
def Holds (keys : Keys) (table : Keypairs) (memory : List Keypair) : Prop :=
  ∃ opened, List.Forall₂ (Opens keys) table.rows opened ∧ memory.Perm opened ∧
    memory.Pairwise Before

variable {keys : Keys} {table : Keypairs}

theorem sortByCreatedAt_perm (keypairs : List Keypair) : (sortByCreatedAt keypairs).Perm keypairs :=
  perm_insertionSort _ _

variable {opened : List Keypair}

theorem holds_loaded (opens : List.Forall₂ (Opens keys) table.loadKeypairs opened) :
    Holds keys table (sortByCreatedAt (sortByCreatedAt opened)) := by
  obtain ⟨rows, opensRows, same⟩ :=
    perm_comp_forall₂ (sortByCreatedAt_perm table.rows).symm opens
  refine ⟨rows, opensRows, ?_, pairwise_insertionSort Before _⟩
  exact (sortByCreatedAt_perm _).trans ((sortByCreatedAt_perm _).trans same.symm)

theorem holds_saved {after : Keypairs} {own : Keypair}
    (inserted : table.insert keypair = some after)
    (opens : List.Forall₂ (Opens keys) table.loadKeypairs opened)
    (ownOpens : Opens keys keypair own) :
    Holds keys after (sortByCreatedAt (sortByCreatedAt opened ++ [own])) := by
  obtain ⟨rows, opensRows, same⟩ :=
    perm_comp_forall₂ (sortByCreatedAt_perm table.rows).symm opens
  refine ⟨rows ++ [own], ?_, ?_, pairwise_insertionSort Before _⟩
  · rw [(rows_insert inserted).1]
    exact rel_append opensRows (.cons ownOpens .nil)
  · exact (sortByCreatedAt_perm _).trans
      (((sortByCreatedAt_perm _).trans same.symm).append (List.Perm.refl _))

variable {processes : Nat → Keys}

theorem opened_agree (sealing : Sealing processes) {first second : Nat}
    {rows others : List Keypair} (opens : List.Forall₂ (Opens (processes first)) rows opened)
    (otherOpens : List.Forall₂ (Opens (processes second)) rows others) : opened = others := by
  induction opens generalizing others with
  | nil =>
    cases otherOpens
    rfl
  | cons head tail ih =>
    cases otherOpens with
    | cons otherHead otherTail =>
      rw [head.agree sealing otherHead, ih otherTail]

theorem map_kid_of_opens {rows : List Keypair} (opens : List.Forall₂ (Opens keys) rows opened) :
    opened.map kid = rows.map kid := by
  induction opens with
  | nil => rfl
  | cons head tail ih =>
    rw [map_cons, map_cons, ih, head.eq]

/-- Two processes that hold the rows of one table hold the same. -/
theorem Holds.agree (sealing : Sealing processes) {first second : Nat}
    {memory other : List Keypair} (holds : Holds (processes first) table memory)
    (otherHolds : Holds (processes second) table other) : memory = other := by
  obtain ⟨opened, opens, perm, sorted⟩ := holds
  obtain ⟨others, otherOpens, otherPerm, otherSorted⟩ := otherHolds
  have same := opened_agree sealing opens otherOpens
  subst same
  have distinct : (opened.map kid).Nodup := map_kid_of_opens opens ▸ table.distinct
  refine List.Perm.eq_of_pairwise ?_ sorted otherSorted (perm.trans otherPerm.symm)
  intro keypair copy inside copyInside before after
  -- The order leaves two keypairs of one kid only, and a table has each kid once.
  have kid : keypair.kid = copy.kid := by
    rcases before with earlier | ⟨atOnce, below⟩
    · rcases after with later | ⟨sameTime, -⟩
      · exact absurd later (not_lt_of_gt earlier)
      · exact absurd earlier (sameTime ▸ lt_irrefl _)
    · rcases after with later | ⟨-, above⟩
      · exact absurd later (atOnce ▸ lt_irrefl _)
      · exact le_antisymm below above
  exact inj_on_of_nodup_map distinct (perm.subset inside) (otherPerm.subset copyInside) kid

theorem Holds.active {memory : List Keypair} (holds : Holds keys table memory) :
    memory.any Keypair.active = table.rows.any Keypair.active := by
  obtain ⟨opened, opens, perm, -⟩ := holds
  rw [perm.any_eq, any_active_of_opens opens]

end Memory

section Invariant

variable (start : Keypairs) (keys : Nat → Keys)

/-- A process has its own memory. -/
def replicas (process : Nat) : Keys := { keys process with replica := process }

/-- A run saves at most one keypair, and only when no stored one is active. -/
def Grown (table : Keypairs) : Prop :=
  table = start ∨ (∀ row ∈ start.rows, row.retired = true) ∧
    ∃ keypair, keypair.active = true ∧ start.insert keypair = some table

/-- What the stage of a process says about the store and its own memory. -/
structure Fits (process : Nat) (stage : Stage) (state : KeyState) : Prop where
  loaded : ∀ stored, stage = .loaded stored → stored = state.stored.loadKeypairs
  saved : ∀ stored keypair, stage = .saved stored keypair → keypair.retiredAt = none ∧
    ∃ before : Keypairs, stored = before.loadKeypairs ∧ before.insert keypair = some state.stored
  holding : stage.Holding → Holds (replicas keys process) state.stored (state.memory process) ∧
    state.stored.rows.any Keypair.active = true

/-- Only the holder of the lock is inside it, and all stages fit the store. -/
structure Agreed (stages : Nat → Stage) (state : BootState) : Prop where
  lock : ∀ process, (stages process).Locked → state.holder = some process
  table : Grown start state.keys.stored
  fits : ∀ process, Fits keys process (stages process) state.keys

variable {start keys} {stages : Nat → Stage} {state : BootState} {process : Nat}

theorem Agreed.outside (agreed : Agreed start keys stages state)
    (mine : (stages process).Locked) {other : Nat} (different : other ≠ process) :
    ¬ (stages other).Locked := by
  intro locked
  have same := (agreed.lock other locked).symm.trans (agreed.lock process mine)
  exact different (Option.some.inj same)

variable {after : BootState}

/-- A step of one process that leaves the store alone keeps the agreement. -/
theorem Agreed.change (agreed : Agreed start keys stages state) {stage : Stage}
    (stored : after.keys.stored = state.keys.stored)
    (memory : ∀ other ≠ process, after.keys.memory other = state.keys.memory other)
    (locked : stage.Locked → after.holder = some process)
    (others : ∀ other ≠ process, (stages other).Locked → after.holder = some other)
    (fits : Fits keys process stage after.keys) :
    Agreed start keys (update stages process stage) after := by
  refine ⟨fun other => ?_, stored ▸ agreed.table, fun other => ?_⟩
  · by_cases same : other = process
    · subst same
      rw [update_self]
      exact locked
    · rw [update_of_ne same]
      exact others other same
  · by_cases same : other = process
    · subst same
      rw [update_self]
      exact fits
    · rw [update_of_ne same]
      obtain ⟨loaded, saved, holding⟩ := agreed.fits other
      rw [← stored] at loaded saved holding
      rw [← memory other same] at holding
      exact ⟨loaded, saved, holding⟩

theorem mem_loadKeypairs {table : Keypairs} {row : Keypair} :
    row ∈ table.loadKeypairs ↔ row ∈ table.rows := mem_sortByCreatedAt

theorem saveKeypair_cases (table : Keypairs) (stamp : keypair.retiredAt = none) :
    table.saveKeypair keypair = (.error (.duplicateKid keypair.kid), table) ∨
      ∃ after, table.insert keypair = some after ∧ table.saveKeypair keypair = (.ok (), after) := by
  have unstamped : { keypair with retiredAt := none } = keypair := by rw [← stamp]
  rw [Keypairs.saveKeypair, unstamped]
  cases table.insert keypair with
  | none => exact .inl rfl
  | some after => exact .inr ⟨after, rfl, rfl⟩

/-- A save by the process inside the lock, which has loaded no active keypair, is the first one. -/
theorem Agreed.grow (agreed : Agreed start keys stages state) {stored : List Keypair}
    (stage : stages process = .loaded stored) (retired : ∀ row ∈ stored, row.retired = true)
    (stamp : keypair.retiredAt = none) {table : Keypairs}
    (inserted : state.keys.stored.insert keypair = some table) {next : Stage}
    (moved : next = .saved stored keypair ∨ next = .inside) :
    Agreed start keys (update stages process next)
      { state with keys := { state.keys with stored := table } } := by
  have locked : (stages process).Locked := by
    rw [stage]
    trivial
  have same := (agreed.fits process).loaded stored stage
  have allRetired : state.keys.stored.rows.any Keypair.active = false := by
    rw [any_active_eq_false]
    intro row member
    exact retired row (same ▸ mem_loadKeypairs.mpr member)
  have first : state.keys.stored = start := by
    rcases agreed.table with unchanged | ⟨-, other, active, grown⟩
    · exact unchanged
    · rw [(rows_insert grown).1, any_append, any_cons, active] at allRetired
      simp at allRetired
  refine ⟨fun other => ?_, .inr ⟨?_, keypair, ?_, first ▸ inserted⟩, fun other => ?_⟩
  · by_cases own : other = process
    · subst own
      exact fun _ => agreed.lock other locked
    · rw [update_of_ne own]
      exact agreed.lock other
  · rw [← first]
    exact any_active_eq_false.mp allRetired
  · rw [Keypair.active, Keypair.retired, stamp]
    rfl
  · by_cases own : other = process
    · subst own
      rw [update_self]
      rcases moved with rfl | rfl
      · refine ⟨fun _ wrong => (by cases wrong), fun _ _ equal => ?_, fun wrong => (by cases wrong)⟩
        cases equal
        exact ⟨stamp, state.keys.stored, same, inserted⟩
      · exact ⟨fun _ wrong => (by cases wrong), fun _ _ wrong => (by cases wrong), False.elim⟩
    · rw [update_of_ne own]
      have outside := agreed.outside locked own
      refine ⟨fun _ wrong => ?_, fun _ _ wrong => ?_, fun holding => ?_⟩
      · rw [wrong] at outside
        exact absurd trivial outside
      · rw [wrong] at outside
        exact absurd trivial outside
      · have active := ((agreed.fits other).holding holding).2
        rw [allRetired] at active
        cases active

/-- Stages without a claim on the store fit every store. -/
theorem fits_trivially {keyState : KeyState} {stage : Stage}
    (plain : stage = .outside ∨ stage = .inside) : Fits keys process stage keyState := by
  rcases plain with rfl | rfl <;>
    exact ⟨fun _ wrong => (by cases wrong), fun _ _ wrong => (by cases wrong), nofun⟩

/-- The lock is taken and freed. -/
theorem Agreed.lockStep (agreed : Agreed start keys stages state) {call : LockCall}
    {answer : call.Answer} (happens : BootHappens ticks process state (.inl call) answer after)
    (permitted : (stages process).Permits (replicas keys process) (observeLock call answer)) :
    Agreed start keys (update stages process
      ((stages process).next (observeLock call answer))) after := by
  cases happens with
  | acquired free =>
    have nobody : ∀ other, ¬ (stages other).Locked := by
      intro other locked
      rw [agreed.lock other locked] at free
      cases free
    have stage : stages process = .outside := by
      revert permitted
      cases stages process <;> first | exact fun _ => rfl | exact False.elim
    rw [stage]
    exact agreed.change rfl (fun _ _ => rfl) (fun _ => rfl)
      (fun other _ locked => absurd locked (nobody other)) (fits_trivially (.inr rfl))
  | refused =>
    have stage : stages process = .outside := by
      revert permitted
      cases stages process <;> first | exact fun _ => rfl | exact False.elim
    rw [stage]
    exact agreed.change rfl (fun _ _ => rfl) (fun wrong => by cases wrong)
      (fun other _ => agreed.lock other) (fits_trivially (.inl rfl))
  | committed =>
    have locked : (stages process).Locked := by
      revert permitted
      cases stages process <;> exact id
    have freed : state.release process = { state with holder := none } := by
      rw [BootState.release, if_pos (agreed.lock process locked)]
    rw [freed]
    have fits : Fits keys process ((stages process).next .commit) state.keys := by
      cases stage : stages process with
      | swapped =>
        have holding := (agreed.fits process).holding
        rw [stage] at holding
        exact ⟨fun _ wrong => (by cases wrong), fun _ _ wrong => (by cases wrong),
          fun _ => holding trivial⟩
      | ready =>
        rw [stage] at locked
        exact locked.elim
      | _ => exact fits_trivially (.inl rfl)
    have out : ¬ ((stages process).next .commit).Locked := by
      cases stages process <;> exact id
    exact agreed.change rfl (fun _ _ => rfl) (fun wrong => absurd wrong out)
      (fun other different wrong => absurd wrong (agreed.outside locked different)) fits

theorem saving_stage {stage : Stage} {own : Keys} {answer : Except KeyError Unit}
    (permitted : stage.Permits own (.save keypair answer)) :
    ∃ stored, stage = .loaded stored ∧ keypair.retiredAt = none ∧
      ∀ row ∈ stored, row.retired = true := by
  cases stage with
  | loaded stored => exact ⟨stored, rfl, permitted⟩
  | _ => exact permitted.elim

section

variable (agreed : Agreed start keys stages state)

include agreed

/-- A failed save leaves the process inside the lock with nothing loaded. -/
theorem Agreed.unsaved {stored : List Keypair} (stage : stages process = .loaded stored) :
    Agreed start keys (update stages process .inside) state := by
  have locked : (stages process).Locked := by
    rw [stage]
    trivial
  exact agreed.change rfl (fun _ _ => rfl) (fun _ => agreed.lock process locked)
    (fun other _ => agreed.lock other) (fits_trivially (.inr rfl))

/-- What a process takes into its memory is what is stored. -/
theorem Agreed.swap {replica : Nat} {keypairs : List Keypair}
    (permitted : (stages process).Permits (replicas keys process) (.swap replica keypairs)) :
    Agreed start keys (update stages process
        ((stages process).next (.swap replica keypairs)))
      { state with keys := state.keys.install replica keypairs } := by
  have taken : (stages process).Locked ∧ (stages process).next (.swap replica keypairs) = .swapped ∧
      replica = process ∧ Holds (replicas keys process) state.keys.stored keypairs ∧
      state.keys.stored.rows.any Keypair.active = true := by
    obtain ⟨loaded, saved, -⟩ := agreed.fits process
    cases stage : stages process with
    | loaded stored =>
      rw [stage] at permitted
      obtain ⟨own, ⟨row, member, active⟩, opened, opens, rfl⟩ := permitted
      have same := loaded stored stage
      subst same
      exact ⟨trivial, rfl, own, holds_loaded opens,
        any_active_eq_true.mpr ⟨row, mem_loadKeypairs.mp member, active⟩⟩
    | saved stored keypair =>
      rw [stage] at permitted
      obtain ⟨own, opened, kept, opens, keptOpens, rfl⟩ := permitted
      obtain ⟨stamp, before, same, inserted⟩ := saved stored keypair stage
      subst same
      refine ⟨trivial, rfl, own, holds_saved inserted opens keptOpens,
        any_active_eq_true.mpr ⟨keypair, ?_, ?_⟩⟩
      · rw [(rows_insert inserted).1]
        exact mem_append_right _ (mem_singleton_self _)
      · rw [Keypair.active, Keypair.retired, stamp]
        rfl
    | _ =>
      rw [stage] at permitted
      exact permitted.elim
  obtain ⟨locked, next, rfl, holds, active⟩ := taken
  rw [next]
  refine agreed.change rfl (fun other different => ?_) (fun _ => agreed.lock replica locked)
    (fun other _ => agreed.lock other)
    ⟨fun _ wrong => (by cases wrong), fun _ _ wrong => (by cases wrong), fun _ => ⟨?_, active⟩⟩
  · exact update_of_ne different _ _
  · change Holds _ _ (update state.keys.memory replica keypairs replica)
    rw [update_self]
    exact holds

/-- The keypairs are loaded, saved and taken into memory inside the lock. -/
theorem Agreed.keyStep {call : KeyCall} {answer : call.Answer} {after : KeyState}
    (happens : Happens .postgres ticks state.keys call answer after)
    (permitted : (stages process).Permits (replicas keys process) (observeKey call answer)) :
    Agreed start keys (update stages process
      ((stages process).next (observeKey call answer))) { state with keys := after } := by
  have same : ∀ {act : Act} {clock : Time}, (stages process).next act = stages process →
      Agreed start keys (update stages process ((stages process).next act))
        { state with keys := { state.keys with clock := clock } } := by
    intro act clock unmoved
    rw [unmoved]
    obtain ⟨loaded, saved, holding⟩ := agreed.fits process
    exact agreed.change rfl (fun _ _ => rfl) (agreed.lock process)
      (fun other _ => agreed.lock other) ⟨loaded, saved, holding⟩
  cases happens with
  | loaded =>
    have stage : stages process = .inside := by
      revert permitted
      cases stages process <;> first | exact fun _ => rfl | exact False.elim
    have locked : (stages process).Locked := by
      rw [stage]
      trivial
    rw [stage]
    refine agreed.change rfl (fun _ _ => rfl) (fun _ => agreed.lock process locked)
      (fun other _ => agreed.lock other)
      ⟨fun stored equal => ?_, fun _ _ wrong => (by cases wrong), fun wrong => (by cases wrong)⟩
    cases equal
    rfl
  | @saved keypair =>
    obtain ⟨stored, stage, stamp, retired⟩ := saving_stage permitted
    rcases saveKeypair_cases state.keys.stored stamp with found | ⟨table, inserted, found⟩
    · rw [found, stage]
      exact agreed.unsaved stage
    · rw [found, stage]
      exact agreed.grow stage retired stamp inserted (.inl rfl)
  | saveFailed =>
    obtain ⟨stored, stage, -⟩ := saving_stage permitted
    rw [stage]
    exact agreed.unsaved stage
  | retired | retireFailed | all =>
    exact (by revert permitted; cases stages process <;> exact False.elim)
  | swap => exact agreed.swap permitted
  | _ => exact same (by cases stages process <;> rfl)

theorem Agreed.step {effect : bootCalls.Effect} {answer : bootCalls.Answer effect}
    (happens : BootHappens ticks process state effect answer after)
    (permitted : (stages process).Permits (replicas keys process) (observe effect answer)) :
    Agreed start keys (update stages process
      ((stages process).next (observe effect answer))) after := by
  cases effect with
  | inl call => exact agreed.lockStep happens permitted
  | inr call =>
    cases happens with
    | key happens => exact agreed.keyStep happens permitted
    | @unconfirmed keypair message =>
      obtain ⟨stored, stage, stamp, retired⟩ := saving_stage permitted
      rcases saveKeypair_cases state.keys.stored stamp with found | ⟨table, inserted, found⟩
      · rw [found, stage]
        exact agreed.unsaved stage
      · rw [found, stage]
        exact agreed.grow stage retired stamp inserted (.inr rfl)

end

end Invariant

section Runs

variable {keys : Nat → Keys}

def startStage (keys : Nat → Keys) (process : Nat) : Booting := ⟨replicas keys process, .outside⟩

def stagesOf (keys : Nat → Keys) (log : List (Event bootCalls)) (process : Nat) : Stage :=
  (booting.ghost observe (startStage keys) log process).stage

/-- The event is part of making a keypair. -/
def Generates (event : Event bootCalls) : Prop :=
  match observe event.effect event.answer with
  | .generate _ => True
  | .save _ _ => True
  | _ => False

/-- Generated private keys are not written like encrypted ones. -/
def plainKeys (_ : Boots) (event : Event bootCalls) : Prop :=
  (observe event.effect event.answer).Plain

variable (log : List (Event bootCalls))

theorem ghost_keys (process : Nat) :
    (booting.ghost observe (startStage keys) log process).keys = replicas keys process := by
  induction log with
  | nil => rfl
  | cons event log ih =>
    rw [Protocol.ghost]
    split
    · exact ih
    · exact ih

theorem stagesOf_cons (event : Event bootCalls) :
    stagesOf keys (event :: log) = update (stagesOf keys log) event.process
      ((stagesOf keys log event.process).next (observe event.effect event.answer)) := by
  funext process
  by_cases same : process = event.process
  · subst same
    rw [update_self, stagesOf, Protocol.ghost_self]
    rfl
  · rw [update_of_ne same, stagesOf, Protocol.ghost_of_ne _ _ _ _ (Ne.symm same)]
    rfl

/-- A keypair is made only after no active one was loaded. -/
theorem Agreed.generates {start : Keypairs} {stages : Nat → Stage} {state : BootState}
    (agreed : Agreed start keys stages state) {event : Event bootCalls}
    (permitted : (stages event.process).Permits (replicas keys event.process)
      (observe event.effect event.answer)) (generates : Generates event) :
    ∀ row ∈ start.rows, row.retired = true := by
  have allRetired : ∃ stored, stages event.process = .loaded stored ∧
      ∀ row ∈ stored, row.retired = true := by
    unfold Generates at generates
    revert permitted generates
    cases observe event.effect event.answer with
    | generate answer =>
      intro permitted _
      revert permitted
      cases stages event.process with
      | loaded stored => exact fun retired => ⟨stored, rfl, retired⟩
      | _ => exact False.elim
    | save keypair answer =>
      intro permitted _
      obtain ⟨stored, stage, -, retired⟩ := saving_stage permitted
      exact ⟨stored, stage, retired⟩
    | _ => exact fun _ wrong => wrong.elim
  obtain ⟨stored, stage, retired⟩ := allRetired
  rcases agreed.table with unchanged | ⟨earlier, -⟩
  · intro row member
    have same := (agreed.fits event.process).loaded stored stage
    refine retired row ?_
    rw [same, mem_loadKeypairs, unchanged]
    exact member
  · exact earlier

/-- Each state of a run keeps the agreement, and nothing is made if there is an active keypair. -/
theorem agreed_of_reaches {start : KeyState} {after : Boots} (sealing : Sealing keys)
    (reached : Reaches (bootWorld ticks) plainKeys (boots start keys) after) :
    (Agreed start.stored keys (stagesOf keys after.log) after.store ∧
      ((∃ event ∈ after.log, Generates event) → ∀ row ∈ start.stored.rows, row.retired = true)) ∧
    after.Follows booting observe (fun process result => result = .ok () →
      process.stage = .ready) (startStage keys) := by
  have meets : (boots start keys).Follows booting observe
      (fun process result => result = .ok () → process.stage = .ready) (startStage keys) :=
    fun process => @initLocked_meets process (replicas keys process) keys sealing rfl
  refine reached.follows (fun current => Agreed start.stored keys (stagesOf keys current.log)
    current.store ∧ ((∃ event ∈ current.log, Generates event) →
      ∀ row ∈ start.stored.rows, row.retired = true)) ⟨?_, ?_⟩ meets ?_
  · exact ⟨fun _ wrong => wrong.elim, .inl rfl, fun _ => fits_trivially (.inl rfl)⟩
  · rintro ⟨event, member, -⟩
    cases member
  · rintro before event after ⟨agreed, made⟩ - plain move
    refine ⟨plain, fun permitted => ?_⟩
    have permits : (stagesOf keys before.log event.process).Permits (replicas keys event.process)
        (observe event.effect event.answer) := by
      rw [← ghost_keys before.log event.process]
      exact permitted
    rw [move.log_eq, stagesOf_cons]
    refine ⟨agreed.step move.happens permits, ?_⟩
    rintro ⟨other, member, generates⟩
    rcases mem_cons.mp member with rfl | earlier
    · exact agreed.generates permits generates
    · exact made ⟨other, earlier, generates⟩

/-- Replicas that boot together make a keypair only if no stored one is active, and then one in
total. All that have booted hold the same keypairs in order and pick the same signer. -/
theorem replicas_agree_on_key (ticks : Time → Time → Prop) (start : KeyState) {keys : Nat → Keys}
    (sealing : Sealing keys) {after : Boots}
    (reached : Reaches (bootWorld ticks) plainKeys (boots start keys) after) :
    ((∃ row ∈ start.stored.rows, row.active = true) →
      after.store.keys.stored = start.stored ∧ ∀ event ∈ after.log, ¬ Generates event) ∧
    ((∀ row ∈ start.stored.rows, row.retired = true) →
      (after.store.keys.stored = start.stored ∨ ∃ keypair, keypair.active = true ∧
        start.stored.insert keypair = some after.store.keys.stored) ∧
      ((∃ process, after.processes process = .done (.ok ())) → ∃ keypair, keypair.active = true ∧
        start.stored.insert keypair = some after.store.keys.stored)) ∧
    ∀ first second, after.processes first = .done (.ok ()) →
      after.processes second = .done (.ok ()) →
      after.store.keys.memory first = after.store.keys.memory second ∧
        (after.store.keys.memory first).Pairwise Before ∧
        ∀ now publishDelay, ∃ signer,
          signing (after.store.keys.memory first) now publishDelay = some signer ∧
          signing (after.store.keys.memory second) now publishDelay = some signer := by
  obtain ⟨⟨agreed, made⟩, follows⟩ := agreed_of_reaches sealing reached
  have holding : ∀ process, after.processes process = .done (.ok ()) →
      Holds (replicas keys process) after.store.keys.stored (after.store.keys.memory process) ∧
        after.store.keys.stored.rows.any Keypair.active = true := by
    intro process finished
    have meets := follows process
    rw [finished] at meets
    refine (agreed.fits process).holding ?_
    rw [stagesOf, meets rfl]
    trivial
  refine ⟨?_, fun retired => ⟨?_, ?_⟩, ?_⟩
  · rintro ⟨row, member, active⟩
    have contradiction : ¬ ∀ row ∈ start.stored.rows, row.retired = true := by
      intro retired
      rw [Keypair.active, retired row member] at active
      cases active
    refine ⟨?_, fun event inside generates => contradiction (made ⟨event, inside, generates⟩)⟩
    rcases agreed.table with unchanged | ⟨retired, -⟩
    · exact unchanged
    · exact absurd retired contradiction
  · exact agreed.table.imp id And.right
  · rintro ⟨process, finished⟩
    rcases agreed.table with unchanged | ⟨-, grown⟩
    · have active := (holding process finished).2
      rw [unchanged, any_active_eq_false.mpr retired] at active
      cases active
    · exact grown
  · intro first second firstDone secondDone
    obtain ⟨holds, active⟩ := holding first firstDone
    have same : after.store.keys.memory first = after.store.keys.memory second :=
      @Holds.agree _ (replicas keys) ⟨sealing.opens, sealing.agrees⟩ _ _ _ _ holds
        (holding second secondDone).1
    refine ⟨same, holds.choose_spec.2.2, fun now publishDelay => ?_⟩
    rw [← same]
    cases found : signing (after.store.keys.memory first) now publishDelay with
    | some signer => exact ⟨signer, rfl, rfl⟩
    | none =>
      rw [← holds.active, any_active_eq_false.mpr (signing_none found)] at active
      cases active

/-- This executor lets every call succeed. -/
def bootExecutor (script : KeyScript) : Executor bootCalls BootState :=
  fun _ state process effect =>
    match effect with
    | .inl .acquire => (.ok (), { state with holder := some process })
    | .inl .commit => (.ok (), state.release process)
    | .inr call =>
      ((executor .postgres script [] state.keys process call).1,
        { state with keys := (executor .postgres script [] state.keys process call).2 })

/-- A character is spelled with three bytes. -/
def spell (char : Char) : List UInt8 :=
  [.ofNat char.toNat, .ofNat (char.toNat / 256), .ofNat (char.toNat / 65536)]

def unspell : List UInt8 → List Char
  | low :: middle :: high :: rest =>
    .ofNat (low.toNat + 256 * middle.toNat + 65536 * high.toNat) :: unspell rest
  | _ => []

theorem unspell_spell (text : List Char) : unspell (text.flatMap spell) = text := by
  induction text with
  | nil => rfl
  | cons char rest ih =>
    have valid : char.toNat < 0xd800 ∨ 0xdfff < char.toNat ∧ char.toNat < 0x110000 := char.valid
    have same : char.toNat % 256 + 256 * (char.toNat / 256 % 256) +
        65536 * (char.toNat / 65536 % 256) = char.toNat := by omega
    simp [spell, unspell, ih, same]

def sampleAEAD : AEAD where
  sealText _ plaintext _ := plaintext.toList.flatMap spell
  openText _ ciphertext _ := some (.ofList (unspell ciphertext))

def sampleReplica : Keys := { sampleKeys 60 with cipher := .ok (some sampleAEAD) }

theorem sealing_sample : Sealing fun _ => sampleReplica where
  opens := by
    rintro process aead nonce plaintext additional ⟨⟩
    simp [sampleAEAD, unspell_spell]
  agrees := by
    rintro first second aead other nonce ciphertext additional text otherText ⟨⟩ ⟨⟩ ⟨⟩ ⟨⟩
    rfl

/-- The first process makes the keypair and the second one loads it. -/
def sampleBoots : Boots :=
  (boots ⟨empty, fun _ => [], 7⟩ fun _ => sampleReplica).turns (bootExecutor (sampleScript 7))
    [0, 0, 0, 0, 0, 0, 0, 0, 0, 1, 1, 1, 1, 1]

/-- Two replicas boot together, make one keypair and hold it. -/
theorem sample_replicas_agree : (∃ keypair, keypair.active = true ∧
      (empty : Keypairs).insert keypair = some sampleBoots.store.keys.stored) ∧
    sampleBoots.store.keys.memory 0 = sampleBoots.store.keys.memory 1 := by
  have reached : Reaches (bootWorld (· ≤ ·)) plainKeys
      (boots ⟨empty, fun _ => [], 7⟩ fun _ => sampleReplica) sampleBoots := by
    refine Configuration.Lawful.reaches ?_
    have still : (7 : Time) ≤ 7 := le_rfl
    refine ⟨⟨trivial, .acquired rfl⟩, ⟨trivial, .key .loaded⟩, ⟨trivial, .key (.now still)⟩,
      ⟨rfl, .key .generateRSA⟩, ⟨trivial, .key (.now still)⟩, ⟨trivial, .key .readNonce⟩,
      ⟨trivial, .key .saved⟩, ⟨trivial, .key .swap⟩, ⟨trivial, .committed⟩,
      ⟨trivial, .acquired rfl⟩, ⟨trivial, .key .loaded⟩, ⟨trivial, .key (.now still)⟩,
      ⟨trivial, .key .swap⟩, ⟨trivial, .committed⟩, trivial⟩
  obtain ⟨-, onlyRetired, together⟩ := replicas_agree_on_key (· ≤ ·) ⟨empty, fun _ => [], 7⟩
    sealing_sample reached
  refine ⟨(onlyRetired fun row member => by cases member).2 ⟨0, rfl⟩, (together 0 1 rfl rfl).1⟩

end Runs

end Tempogate.Keys
