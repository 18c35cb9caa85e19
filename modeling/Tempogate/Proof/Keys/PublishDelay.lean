/-
This file shows when retirements keep a published keypair in the store.
-/

import Tempogate.Foundation.Protocol
import Tempogate.Proof.Keys.Signing

namespace Tempogate.Keys

open Foundation Oidc Keypair

/-- These are the steps that the replacement check and its write consist of. -/
inductive Glance
  | read (keypairs : List Keypair)
  | clock (moment : Time)
  | retires (kid : String)
  | nothing

def observeGlances : Observer keyCalls Glance
  | .all _, keypairs => .read keypairs
  | .now, moment => .clock moment
  | .retireKeypair kid _, _ => .retires kid
  | _, _ => .nothing

/-- A review remembers the set that was read last and every clock reading. -/
structure Review where
  keypairs : List Keypair
  readings : List Time

def Review.advance (review : Review) : Glance → Review
  | .read keypairs => { review with keypairs := keypairs }
  | .clock moment => { review with readings := moment :: review.readings }
  | _ => review

/-- The replacement check lets a retirement pass for one of these reasons. -/
inductive Approved (publishDelay : Time) (kid : String) (review : Review) : Prop
  | idle {moment : Time} (none : signing review.keypairs moment publishDelay = none)
  | unsigned {moment : Time} {signer : Keypair} (reading : moment ∈ review.readings)
      (found : signing review.keypairs moment publishDelay = some signer)
      (different : signer.kid ≠ kid)
  | alone {moment : Time}
      (none : signing (review.keypairs.filter fun keypair => keypair.kid ≠ kid) moment
        publishDelay = none)
  | replaced {moment : Time} {next : Keypair} (reading : moment ∈ review.readings)
      (member : next ∈ review.keypairs) (active : next.active) (different : next.kid ≠ kid)
      (published : next.published publishDelay moment)

/-- Another clock reading leaves the approval in place. -/
theorem Approved.later {publishDelay moment : Time} {kid : String} {review : Review}
    (approved : Approved publishDelay kid review) :
    Approved publishDelay kid (review.advance (.clock moment)) := by
  cases approved with
  | idle none => exact .idle none
  | unsigned reading found different => exact .unsigned (.tail _ reading) found different
  | alone none => exact .alone none
  | replaced reading member active different published =>
    exact .replaced (.tail _ reading) member active different published

/-- A kid is retired only after its review approved it. -/
def reviewProtocol (publishDelay : Time) : Protocol Glance Review where
  assumes _ _ := True
  permits review glance := ∀ kid, glance = .retires kid → Approved publishDelay kid review
  advance := Review.advance

section Review

variable {publishDelay : Time} {review : Review}

/-- A program that never retires is permitted whatever it reads. -/
def Harmless {Result : Type} (program : Operation Result) : Prop :=
  ∀ publishDelay review, program.Meets (reviewProtocol publishDelay) observeGlances
    (fun _ _ => True) review

theorem Harmless.bind {Result Middle : Type} {program : Operation Middle}
    {continuation : Middle → Operation Result} (first : Harmless program)
    (rest : ∀ result, Harmless (continuation result)) : Harmless (program >>= continuation) :=
  fun publishDelay review => (first publishDelay review).bind fun after result _ =>
    rest result publishDelay after

theorem harmless_done {Result : Type} (result : Result) :
    Harmless (Program.done result : Operation Result) :=
  fun _ _ => trivial

/-- Every step but a retirement is harmless. -/
theorem harmless_step (call : KeyCall) (quiet : ∀ kid moment, call ≠ .retireKeypair kid moment) :
    Harmless (step call) := by
  refine fun publishDelay review answer _ => ⟨?_, trivial⟩
  intro kid shown
  cases call with
  | retireKeypair kid moment => exact absurd rfl (quiet kid moment)
  | _ => cases shown

variable (keys : Keys)

theorem reload_harmless : Harmless keys.reload := by
  refine (harmless_step .loadKeypairs nofun).bind fun answer => ?_
  cases answer with
  | error cause => exact harmless_done _
  | ok stored =>
    dsimp only
    cases keys.openStored stored with
    | error error => exact harmless_done _
    | ok keypairs => exact (harmless_step (.swap _ _) nofun).bind fun _ => harmless_done _

theorem latest_harmless : Harmless keys.latest := by
  refine (harmless_step (.all _) nofun).bind fun keypairs =>
    (harmless_step .now nofun).bind fun moment => ?_
  split <;> exact harmless_done _

theorem generateKeypair_harmless : Harmless keys.generateKeypair := by
  unfold Keys.generateKeypair
  split
  · exact harmless_done _
  · refine (harmless_step .generateRSA nofun).bind fun generated => ?_
    cases generated with
    | error cause => exact harmless_done _
    | ok key => exact (harmless_step .now nofun).bind fun moment => harmless_done _

theorem save_harmless (keypair : Keypair) : Harmless (keys.save keypair) := by
  have sealed : Harmless (keys.sealForStore keypair) := by
    unfold Keys.sealForStore
    split
    · exact harmless_done _
    · exact harmless_done _
    · refine (harmless_step .readNonce nofun).bind fun nonce => ?_
      cases nonce <;> exact harmless_done _
  refine sealed.bind fun result => ?_
  cases result with
  | error error => exact harmless_done _
  | ok toStore =>
    refine (harmless_step (.saveKeypair _) nofun).bind fun answer => ?_
    split <;> exact harmless_done _

theorem generate_harmless (force : Bool) : Harmless (keys.generate force) := by
  refine (harmless_step .loadKeypairs nofun).bind fun answer => ?_
  cases answer with
  | error cause => exact harmless_done _
  | ok stored =>
    dsimp only
    split
    · exact harmless_done _
    · split
      · exact harmless_done _
      · refine (generateKeypair_harmless keys).bind fun generated => ?_
        cases generated with
        | error error => exact harmless_done _
        | ok keypair =>
          refine (save_harmless keys keypair).bind fun saved => ?_
          cases saved with
          | error error => exact harmless_done _
          | ok _ => exact (harmless_step (.swap _ _) nofun).bind fun _ => harmless_done _

/-- A passed check approves the retirement. -/
theorem checkReplacementPublished_meets (kid : String) :
    (keys.checkReplacementPublished kid).Meets (reviewProtocol keys.publishDelay) observeGlances
      (fun after result => result = .ok () → Approved keys.publishDelay kid after) review := by
  refine (reload_harmless keys _ review).bind fun reloaded result _ => ?_
  cases result with
  | error error => exact nofun
  | ok _ =>
    refine fun keypairs _ => ⟨nofun, fun moment _ => ⟨nofun, ?_⟩⟩
    dsimp only [Program.bind]
    cases found : signing keypairs moment keys.publishDelay with
    | none => exact fun _ => .idle found
    | some signer =>
      dsimp only
      split
      next different => exact fun _ => .unsigned (.head _) found different
      next same =>
        refine fun second _ => ⟨nofun, ?_⟩
        dsimp only [Program.bind]
        cases replacement : signing (keypairs.filter fun keypair => keypair.kid ≠ kid) second
          keys.publishDelay with
        | none => exact fun _ => .alone replacement
        | some next =>
          refine fun (third : Time) _ => ⟨nofun, ?_⟩
          obtain ⟨member, active⟩ := signing_mem replacement
          obtain ⟨stored, different⟩ := List.mem_filter.mp member
          change Program.Meets _ _ _ (if third < next.createdAt + keys.publishDelay
            then _ else _) _
          split
          · exact nofun
          next published =>
            exact fun _ => .replaced (.head _) stored active (of_decide_eq_true different)
              (decide_eq_true published)

theorem retireChecked_reviewed (kid : String) (approved : Approved keys.publishDelay kid review) :
    (keys.retireChecked kid).Meets (reviewProtocol keys.publishDelay) observeGlances
      (fun _ _ => True) review := by
  refine fun moment _ => ⟨nofun, fun answer _ => ⟨?_, ?_⟩⟩
  · rintro other ⟨rfl⟩
    exact approved.later
  · cases answer with
    | error error => trivial
    | ok stored =>
      refine (reload_harmless keys _ _).bind fun reloaded result _ => ?_
      cases result with
      | error error => trivial
      | ok _ =>
        refine fun keypairs _ => ⟨nofun, ?_⟩
        dsimp only [Program.bind]
        cases keypairs.find? fun keypair => keypair.kid = stored.kid <;> trivial

/-- Every task that does not force a retirement keeps to the review. -/
theorem program_reviewed (task : KeyTask) (unforced : ∀ kid, task ≠ .retire kid true) :
    (task.program keys).Meets (reviewProtocol keys.publishDelay) observeGlances (fun _ _ => True)
      review := by
  cases task with
  | latest => exact (latest_harmless keys).bind (fun _ => harmless_done _) _ _
  | reload => exact (reload_harmless keys).bind (fun _ => harmless_done _) _ _
  | generate force => exact (generate_harmless keys force).bind (fun _ => harmless_done _) _ _
  | retire kid force =>
    cases force with
    | true => exact absurd rfl (unforced kid)
    | false =>
      have retires : (keys.retire kid false).Meets (reviewProtocol keys.publishDelay)
          observeGlances (fun _ _ => True) review := by
        refine (checkReplacementPublished_meets keys kid).bind fun after result passed => ?_
        cases result with
        | error error => trivial
        | ok _ => exact retireChecked_reviewed keys kid (passed rfl)
      exact retires.bind fun _ _ _ => trivial

end Review

/-- The store holds an active keypair whose publish delay has elapsed. -/
def Published (publishDelay : Time) (state : KeyState) : Prop :=
  ∃ row ∈ state.stored.rows, row.active ∧ row.published publishDelay state.clock

instance (publishDelay : Time) (state : KeyState) : Decidable (Published publishDelay state) :=
  inferInstanceAs (Decidable (∃ row ∈ state.stored.rows,
    row.active ∧ row.published publishDelay state.clock))

/-- The kids of the active keypairs with their creation times, in order. -/
def activeStamps (keypairs : List Keypair) : List (String × Time) :=
  (keypairs.filter Keypair.active).map fun keypair => (keypair.kid, keypair.createdAt)

theorem mem_activeStamps {keypairs : List Keypair} {stamp : String × Time} :
    stamp ∈ activeStamps keypairs ↔
      ∃ keypair ∈ keypairs, keypair.active ∧ (keypair.kid, keypair.createdAt) = stamp := by
  simp [activeStamps, and_assoc]

/-- The set that a process read last. -/
def lastRead : List (Event keyCalls) → Nat → List Keypair
  | [], _ => []
  | event :: log, process =>
    match observeGlances event.effect event.answer with
    | .read keypairs => if event.process = process then keypairs else lastRead log process
    | _ => lastRead log process

/-- A retirement writes while the store still has the active keypairs that its check read. -/
def Settled (before : Operations) (event : Event keyCalls) : Prop :=
  ∀ kid moment, event.effect = .retireKeypair kid moment →
    activeStamps (lastRead before.log event.process) = activeStamps before.store.stored.loadKeypairs

section Write

variable {publishDelay : Time} {state : KeyState} {review : Review} {kid : String}
  {moment : Time} {backend : Backend}

/-- A row of another kid stays when a kid is retired. -/
theorem retireKeypair_other {row : Keypair} (member : row ∈ state.stored.rows)
    (different : row.kid ≠ kid) :
    row ∈ (backend.retireKeypair kid moment state.stored).2.rows := by
  rw [backend.rows_retireKeypair]
  have kept : Sqlite.retirable state.stored kid row = false := by
    simp [Sqlite.retirable, different]
  exact List.mem_map.mpr ⟨row, member, by rw [kept]; rfl⟩

section

variable (same : activeStamps review.keypairs = activeStamps state.stored.loadKeypairs)

include same

/-- The active keypairs of the review are stored. -/
theorem stored_of_reviewed {keypair : Keypair} (member : keypair ∈ review.keypairs)
    (active : keypair.active) :
    ∃ row ∈ state.stored.rows, row.active ∧ row.kid = keypair.kid ∧
      row.createdAt = keypair.createdAt := by
  have stamped := mem_activeStamps.mpr ⟨keypair, member, active, rfl⟩
  rw [same] at stamped
  obtain ⟨row, loaded, isActive, stamp⟩ := mem_activeStamps.mp stamped
  obtain ⟨sameKid, sameTime⟩ := Prod.mk.inj stamp
  exact ⟨row, mem_sortByCreatedAt.mp loaded, isActive, sameKid, sameTime⟩

/-- The active stored keypairs are in the review. -/
theorem reviewed_of_stored {row : Keypair} (member : row ∈ state.stored.rows)
    (active : row.active) :
    ∃ keypair ∈ review.keypairs, keypair.active ∧ keypair.kid = row.kid ∧
      keypair.createdAt = row.createdAt := by
  have stamped := mem_activeStamps.mpr ⟨row, mem_sortByCreatedAt.mpr member, active, rfl⟩
  rw [Keypairs.loadKeypairs] at same
  rw [← same] at stamped
  obtain ⟨keypair, reviewed, isActive, stamp⟩ := mem_activeStamps.mp stamped
  obtain ⟨sameKid, sameTime⟩ := Prod.mk.inj stamp
  exact ⟨keypair, reviewed, isActive, sameKid, sameTime⟩

/-- The active keypairs of the review are sorted as the stored ones are. -/
theorem reviewed_sorted : (review.keypairs.filter Keypair.active).Pairwise fun older newer =>
      older.createdAt ≤ newer.createdAt := by
  have sorted : (activeStamps state.stored.loadKeypairs).Pairwise fun older newer =>
      older.2 ≤ newer.2 :=
    List.pairwise_map.mpr ((sortByCreatedAt_sorted state.stored.rows).sublist List.filter_sublist)
  rw [← same, activeStamps, List.pairwise_map] at sorted
  exact sorted

/-- A published keypair of the review with another kid is still stored after the retirement. -/
theorem Published.of_reviewed {keypair : Keypair} (member : keypair ∈ review.keypairs)
    (active : keypair.active) (different : keypair.kid ≠ kid)
    (due : keypair.createdAt + publishDelay ≤ state.clock) :
    Published publishDelay
      { state with stored := (backend.retireKeypair kid moment state.stored).2 } := by
  obtain ⟨row, stored, isActive, sameKid, sameTime⟩ := stored_of_reviewed same member active
  refine ⟨row, retireKeypair_other stored (sameKid ▸ different), isActive, ?_⟩
  exact published_iff.mpr (sameTime ▸ due)

end

/-- An approved retirement leaves a published keypair in the store. -/
theorem Published.retire (published : Published publishDelay state)
    (approved : Approved publishDelay kid review)
    (readings : ∀ reading ∈ review.readings, reading ≤ state.clock)
    (same : activeStamps review.keypairs = activeStamps state.stored.loadKeypairs) :
    Published publishDelay
      { state with stored := (backend.retireKeypair kid moment state.stored).2 } := by
  obtain ⟨row, member, active, isPublished⟩ := published
  have due := published_iff.mp isPublished
  cases approved with
  | idle none =>
    obtain ⟨keypair, reviewed, isActive, -⟩ := reviewed_of_stored same member active
    simp [Keypair.active, signing_none none keypair reviewed] at isActive
  | @unsigned reading signer wasRead found different =>
    obtain ⟨inReview, isActive⟩ := signing_mem found
    refine .of_reviewed same inReview isActive different ?_
    cases pending : signer.published publishDelay reading with
    | true => exact (published_iff.mp pending).trans (readings reading wasRead)
    | false =>
      -- The signer is then the oldest active keypair, and the published one is not older.
      obtain ⟨keypair, reviewed, isActive, -, created⟩ := reviewed_of_stored same member active
      rw [← signing_filter] at found
      have oldest := ((signing_some (reviewed_sorted same) found keypair
        (List.mem_filter.mpr ⟨reviewed, isActive⟩) isActive).2 pending).2
      rw [created] at oldest
      exact (Int.add_le_add_right oldest publishDelay).trans due
  | alone none =>
    refine ⟨row, ?_, active, isPublished⟩
    rw [backend.rows_retireKeypair]
    refine List.mem_map.mpr ⟨row, member, if_neg fun selected => ?_⟩
    obtain ⟨-, -, other, otherMember, different, otherActive⟩ := retirable_iff.mp selected
    obtain ⟨keypair, reviewed, isActive, sameKid, -⟩ :=
      reviewed_of_stored same otherMember otherActive
    have isRetired := signing_none none keypair (List.mem_filter.mpr
      ⟨reviewed, decide_eq_true (sameKid ▸ different)⟩)
    simp [Keypair.active, isRetired] at isActive
  | @replaced reading next wasRead inReview isActive different nextPublished =>
    exact .of_reviewed same inReview isActive different
      ((published_iff.mp nextPublished).trans (readings reading wasRead))

end Write

section Run

variable {publishDelay : Time} {backend : Backend} {before after : Operations}
  {event : Event keyCalls}

/-- The review of a process follows from its steps. -/
def reviewOf (publishDelay : Time) (log : List (Event keyCalls)) (process : Nat) : Review :=
  (reviewProtocol publishDelay).ghost observeGlances (fun _ => ⟨[], []⟩) log process

variable (log : List (Event keyCalls))

theorem reviewOf_self : reviewOf publishDelay (event :: log) event.process =
      (reviewOf publishDelay log event.process).advance
        (observeGlances event.effect event.answer) :=
  Protocol.ghost_self _ _ _ _ _

theorem reviewOf_of_ne {process : Nat} (other : event.process ≠ process) :
    reviewOf publishDelay (event :: log) process = reviewOf publishDelay log process :=
  Protocol.ghost_of_ne _ _ _ _ other

/-- The review holds the set that was read last. -/
theorem reviewOf_keypairs (process : Nat) :
    (reviewOf publishDelay log process).keypairs = lastRead log process := by
  induction log with
  | nil => rfl
  | cons event log ih =>
    unfold lastRead
    by_cases mine : event.process = process
    · subst mine
      rw [reviewOf_self]
      cases observeGlances event.effect event.answer with
      | read keypairs => simp [Review.advance]
      | _ => exact ih
    · rw [reviewOf_of_ne log mine]
      cases observeGlances event.effect event.answer with
      | read keypairs => simpa [mine] using ih
      | _ => exact ih

/-- No clock reading of a review lies ahead of the clock. -/
def Timely (publishDelay : Time) (current : Operations) : Prop :=
  ∀ process, ∀ reading ∈ (reviewOf publishDelay current.log process).readings,
    reading ≤ current.store.clock

section

variable (move : Step (world backend (· ≤ ·)) before event after)

include move

/-- The clock never goes back. -/
theorem clock_le : before.store.clock ≤ after.store.clock := by
  have happens := move.happens
  obtain ⟨process, effect, answer⟩ := event
  generalize after.store = state at happens ⊢
  cases happens with
  | now later => exact later
  | _ => exact le_refl _

/-- A clock reading is the time of the state after it. -/
theorem clock_of_shown {moment : Time}
    (shown : observeGlances event.effect event.answer = .clock moment) :
    after.store.clock = moment := by
  have happens := move.happens
  obtain ⟨process, effect, answer⟩ := event
  generalize after.store = state at happens ⊢
  cases happens with
  | now later =>
    cases shown
    rfl
  | _ => cases shown

end

theorem Timely.step (timely : Timely publishDelay before)
    (move : Step (world backend (· ≤ ·)) before event after) : Timely publishDelay after := by
  intro process reading wasRead
  rw [move.log_eq] at wasRead
  by_cases mine : event.process = process
  · subst mine
    rw [reviewOf_self] at wasRead
    cases shown : observeGlances event.effect event.answer with
    | clock moment =>
      rw [shown] at wasRead
      rcases List.mem_cons.mp wasRead with rfl | earlier
      · exact le_of_eq (clock_of_shown move shown).symm
      · exact (timely event.process reading earlier).trans (clock_le move)
    | _ =>
      rw [shown] at wasRead
      exact (timely event.process reading wasRead).trans (clock_le move)
  · rw [reviewOf_of_ne before.log mine] at wasRead
    exact (timely process reading wasRead).trans (clock_le move)

/-- A step whose retirement is approved and settled keeps a published keypair. -/
theorem Published.step (published : Published publishDelay before.store)
    (timely : Timely publishDelay before) (settled : Settled before event)
    (move : Step (world backend (· ≤ ·)) before event after)
    (permitted : (reviewProtocol publishDelay).permits
      (reviewOf publishDelay before.log event.process)
      (observeGlances event.effect event.answer)) :
    Published publishDelay after.store := by
  have happens := move.happens
  obtain ⟨process, effect, answer⟩ := event
  generalize after.store = state at happens ⊢
  cases happens with
  | now later =>
    obtain ⟨row, member, active, isPublished⟩ := published
    exact ⟨row, member, active, published_iff.mpr ((published_iff.mp isPublished).trans later)⟩
  | saved =>
    obtain ⟨row, member, active, isPublished⟩ := published
    exact ⟨row, Keypairs.rows_saveKeypair _ member, active, isPublished⟩
  | @retired kid moment =>
    refine published.retire (permitted kid rfl) (timely process) ?_
    rw [reviewOf_keypairs]
    exact settled kid moment rfl
  | _ => exact published

/-- The signing rule picks a published keypair of a store that has one. -/
theorem Published.signs {state : KeyState} (published : Published publishDelay state) :
    ∃ signer, signing state.stored.loadKeypairs state.clock publishDelay = some signer ∧
      signer.published publishDelay state.clock := by
  obtain ⟨row, member, active, isPublished⟩ := published
  have loaded := mem_sortByCreatedAt.mpr member
  cases found : signing state.stored.loadKeypairs state.clock publishDelay with
  | none => simp [Keypair.active, signing_none found row loaded] at active
  | some signer =>
    refine ⟨signer, rfl, ?_⟩
    by_contra pending
    have unpublished := ((signing_some (sortByCreatedAt_sorted state.stored.rows) found row loaded
      active).2 (Bool.eq_false_iff.mpr pending)).1
    rw [isPublished] at unpublished
    cases unpublished

end Run

/-- In every run in which no unforced retirement writes after the active keypairs that its check
read have changed, a store that holds a published active keypair always does, and then the
signing rule picks a published one. -/
theorem publish_delay_is_kept (backend : Backend) (publishDelay : Time) (start : KeyState)
    (tasks : Nat → Keys × KeyTask)
    (sameDelay : ∀ process, (tasks process).1.publishDelay = publishDelay)
    (unforced : ∀ process kid, (tasks process).2 ≠ .retire kid true)
    {before after : Operations}
    (run : Reaches (world backend (· ≤ ·)) anyStep (operations start tasks) before)
    (published : Published publishDelay before.store)
    (onward : Reaches (world backend (· ≤ ·)) Settled before after) :
    Published publishDelay after.store ∧
      ∃ signer, signing after.store.stored.loadKeypairs after.store.clock publishDelay =
        some signer ∧ signer.published publishDelay after.store.clock := by
  have reviewed : (operations start tasks).Follows (reviewProtocol publishDelay) observeGlances
      (fun _ _ => True) fun _ => ⟨[], []⟩ := by
    intro process
    rw [← sameDelay process]
    exact program_reviewed _ _ (unforced process)
  have initially : Timely publishDelay (operations start tasks) := fun _ => nofun
  obtain ⟨timely, follows⟩ := run.follows (Timely publishDelay) initially reviewed
    fun before event after timely _ _ move => ⟨trivial, fun _ => timely.step move⟩
  obtain ⟨⟨-, kept⟩, -⟩ := onward.follows
    (fun current => Timely publishDelay current ∧ Published publishDelay current.store)
    ⟨timely, published⟩ follows fun before event after holds _ settled move =>
      ⟨trivial, fun permitted =>
        ⟨holds.1.step move, holds.2.step holds.1 settled move permitted⟩⟩
  exact ⟨kept, kept.signs⟩

section Sample

/-- Two keypairs are published and the newest one is still inside its publish delay. -/
def sampleDelayed : KeyState where
  stored :=
    ⟨[⟨1, sampleKeypair "old" 0⟩, ⟨2, sampleKeypair "new" 1⟩, ⟨3, sampleKeypair "fresh" 10⟩],
      by decide, by decide⟩
  memory _ := []
  clock := 12

/-- Two requests retire the two published keypairs. -/
def sampleRetirements : Nat → Keys × KeyTask
  | 0 => (sampleKeys 5, .retire "new" false)
  | _ => (sampleKeys 5, .retire "old" false)

def sampleRetiring (order : List Nat) : Operations :=
  (operations sampleDelayed sampleRetirements).turns (executor .sqlite (sampleScript 12)) order

/-- Both checks pass before either retirement writes, and no published keypair is left. -/
theorem concurrent_retirements_bypass_delay :
    Published 5 (operations sampleDelayed sampleRetirements).store ∧
    Reaches (world .sqlite (· ≤ ·)) anyStep (operations sampleDelayed sampleRetirements)
      (sampleRetiring [0, 0, 0, 0, 0, 0, 1, 1, 1, 1, 0, 0, 1, 1]) ∧
    ¬ Published 5 (sampleRetiring [0, 0, 0, 0, 0, 0, 1, 1, 1, 1, 0, 0, 1, 1]).store ∧
    signing (sampleRetiring [0, 0, 0, 0, 0, 0, 1, 1, 1, 1, 0, 0, 1, 1]).store.stored.loadKeypairs
      12 5 = some (sampleKeypair "fresh" 10) := by
  refine ⟨by decide, ?_, by decide, rfl⟩
  exact (lawful_of_still .sqlite (sampleScript 12) (fun _ _ => rfl) (le_refl _) _).reaches

/-- A retirement that nothing interrupts is settled. -/
theorem sampleRetirement_settled :
    (operations sampleDelayed sampleRetirements).Lawful (world .sqlite (· ≤ ·)) Settled
      (executor .sqlite (sampleScript 12)) [0, 0, 0, 0, 0, 0, 0, 0] := by
  exact ⟨⟨nofun, .loaded⟩, ⟨nofun, .swap⟩, ⟨nofun, .all⟩, ⟨nofun, .now (le_refl _)⟩,
    ⟨nofun, .now (le_refl _)⟩, ⟨nofun, .now (le_refl _)⟩, ⟨nofun, .now (le_refl _)⟩,
    ⟨fun _ _ _ => rfl, .retired⟩, trivial⟩

/-- After one retirement the older keypair is still published and signs. -/
theorem publish_delay_is_kept_sample : Published 5 (sampleRetiring [0, 0, 0, 0, 0, 0, 0, 0]).store ∧
      ∃ signer, signing (sampleRetiring [0, 0, 0, 0, 0, 0, 0, 0]).store.stored.loadKeypairs
        (sampleRetiring [0, 0, 0, 0, 0, 0, 0, 0]).store.clock 5 = some signer ∧
          signer.published 5 (sampleRetiring [0, 0, 0, 0, 0, 0, 0, 0]).store.clock := by
  refine publish_delay_is_kept .sqlite 5 sampleDelayed sampleRetirements ?_ ?_ .refl ?_
    sampleRetirement_settled.reaches
  · rintro (_ | process) <;> rfl
  · rintro (_ | process) kid same <;> cases same
  · decide

end Sample

end Tempogate.Keys
