/-
This file shows that every transaction of the Postgres store keeps revoked families closed.
-/

import Tempogate.Proof.Refresh.PostgresStages

namespace Tempogate.Postgres

open Foundation Oidc State Write LockMode Server Database List

variable {familyID : String} {stage : Stage}

/-- A revocation holds its families and knows every token of theirs that is left to revoke. -/
structure Sweeping (committed : Database) (session : Transaction Write Key)
    (locked : List String) (rest : Option (List String)) : Prop where
  held : ∀ familyID ∈ locked, (Key.family familyID, exclusive) ∈ session.locks
  present : ∀ familyID ∈ locked, committed.HasFamily familyID
  changes : ∀ effect ∈ session.writes,
    (∃ familyID ∈ locked, ∃ moment, effect = .stampFamily familyID moment) ∨
      ∃ tokenHash moment, effect = .revokeRefresh tokenHash moment
  left : ∀ hashes, rest = some hashes → ∀ row ∈ committed.rows, row.familyID ∈ locked →
    row.revokedAt = none →
    row.tokenHash ∈ hashes ∨ ∃ moment, .revokeRefresh row.tokenHash moment ∈ session.writes

/-- A cleared save holds its family, which is not revoked. -/
structure Clearing (committed : Database) (session : Transaction Write Key) (familyID : String) :
    Prop where
  held : (Key.family familyID, share) ∈ session.locks
  unrevoked : ¬ committed.FamilyStamped familyID
  changes : ∀ effect ∈ session.writes, effect = .insertFamily familyID ∨
    ∃ row, effect = .insertRefresh row ∧ row.familyID = familyID

/-- The locks and the unpublished changes of a transaction back its stage. -/
def Backs (committed : Database) (session : Transaction Write Key) : Stage → Prop
  | .saving refresh known =>
    (∀ effect ∈ session.writes, effect = .insertFamily refresh.familyID) ∧
      (known = true → (written session.writes committed).HasFamily refresh.familyID)
  | .cleared refresh => Clearing committed session refresh.familyID
  | .consuming => ∀ effect ∈ session.writes,
      ∃ tokenHash moment, effect = .consumeRefresh tokenHash moment
  | .revoking locked rest => Sweeping committed session locked rest
  | .refused _ | .failed | .ended => True

/-- These facts make the changes of a transaction safe to publish. -/
structure Publishable (committed : Database) (session : Transaction Write Key) : Prop where
  stamps : ∀ familyID moment, .stampFamily familyID moment ∈ session.writes →
    (Key.family familyID, exclusive) ∈ session.locks
  inserts : ∀ row, .insertRefresh row ∈ session.writes →
    (Key.family row.familyID, share) ∈ session.locks
  present : ∀ familyID moment, .stampFamily familyID moment ∈ session.writes →
    committed.HasFamily familyID
  settles : committed.Settled → (written session.writes committed).Settled

variable {committed : Database} {locked : List String}

/-- Changes that neither stamp a family nor insert into a stamped one keep the database settled. -/
theorem settled_written {changes : List Write} (settled : committed.Settled)
    (noStamp : ∀ familyID moment, .stampFamily familyID moment ∉ changes)
    (inserts : ∀ row, .insertRefresh row ∈ changes → ¬ committed.FamilyStamped row.familyID) :
    (written changes committed).Settled := by
  intro familyID stamped row present family
  rcases stamped_of_written stamped with before | ⟨moment, stamps⟩
  · rcases exists_of_mem_written present with ⟨new, inserted, evolves⟩ | ⟨earlier, old, evolves⟩
    · have sameFamily : new.familyID = familyID := evolves.familyID_eq.symm.trans family
      exact absurd (sameFamily ▸ before) (inserts new inserted)
    · exact evolves.revoked (settled familyID before earlier old
        (evolves.familyID_eq.symm.trans family))
  · exact absurd stamps (noStamp familyID moment)

section Publishing

variable {committed : Database} {session : Transaction Write Key}

/-- Changes that stamp no family are safe when each token goes into a held, unstamped family. -/
theorem publishable_of_unstamped
    (noStamp : ∀ familyID moment, .stampFamily familyID moment ∉ session.writes)
    (inserts : ∀ row, .insertRefresh row ∈ session.writes →
      (Key.family row.familyID, share) ∈ session.locks ∧
        ¬ committed.FamilyStamped row.familyID) : Publishable committed session where
  stamps familyID moment member := absurd member (noStamp familyID moment)
  inserts row member := (inserts row member).1
  present familyID moment member := absurd member (noStamp familyID moment)
  settles settled := settled_written settled noStamp fun row member => (inserts row member).2

theorem Clearing.publishable (clearing : Clearing committed session familyID) :
    Publishable committed session := by
  refine publishable_of_unstamped (fun stamped moment member => ?_) fun row member => ?_
  · rcases clearing.changes _ member with same | ⟨row, same, -⟩
    · cases same
    · cases same
  · rcases clearing.changes _ member with same | ⟨new, same, family⟩
    · cases same
    · cases same
      rw [family]
      exact ⟨clearing.held, clearing.unrevoked⟩

theorem publishable_of_consuming (changes : ∀ effect ∈ session.writes,
    ∃ tokenHash moment, effect = .consumeRefresh tokenHash moment) :
    Publishable committed session := by
  refine publishable_of_unstamped (fun familyID moment member => ?_) fun row member => ?_
  all_goals
    obtain ⟨tokenHash, stamp, same⟩ := changes _ member
    cases same

section

variable {rest : Option (List String)} (sweeping : Sweeping committed session locked rest)

include sweeping

theorem Sweeping.locked_of_stamp {moment : Time}
    (member : .stampFamily familyID moment ∈ session.writes) : familyID ∈ locked := by
  rcases sweeping.changes _ member with ⟨stamped, isLocked, time, same⟩ | ⟨_, _, same⟩
  · cases same
    exact isLocked
  · cases same

theorem Sweeping.noInsert (row : RefreshRow) : .insertRefresh row ∉ session.writes := by
  intro member
  rcases sweeping.changes _ member with ⟨_, _, _, same⟩ | ⟨_, _, same⟩
  · cases same
  · cases same

end

/-- A revocation with no token left revokes every token of the families it stamps. -/
theorem Sweeping.publishable (sweeping : Sweeping committed session locked (some [])) :
    Publishable committed session where
  stamps familyID moment member := sweeping.held familyID (sweeping.locked_of_stamp member)
  inserts row member := absurd member (sweeping.noInsert row)
  present familyID moment member := sweeping.present familyID (sweeping.locked_of_stamp member)
  settles settled := by
    intro familyID stamped row present family
    rcases exists_of_mem_written present with ⟨new, inserted, -⟩ | ⟨earlier, old, evolves⟩
    · exact absurd inserted (sweeping.noInsert new)
    · have earlierFamily : earlier.familyID = familyID := evolves.familyID_eq.symm.trans family
      rcases stamped_of_written stamped with before | ⟨moment, stamps⟩
      · exact evolves.revoked (settled familyID before earlier old earlierFamily)
      · have isLocked := sweeping.locked_of_stamp stamps
        cases revoked : earlier.revokedAt with
        | some moment => exact evolves.revoked (by rw [revoked]; rfl)
        | none =>
          rcases sweeping.left [] rfl earlier old (earlierFamily ▸ isLocked) revoked with
            none | ⟨time, revokes⟩
          · simp at none
          · rw [← evolves.tokenHash_eq] at revokes
            exact revoked_written sweeping.noInsert revokes present

/-- Only transactions whose changes are safe to publish may commit. -/
theorem Backs.publishable {answer : Except String Unit}
    (backs : Backs committed session stage) (permitted : stage.permits .commit answer) :
    Publishable committed session := by
  cases stage with
  | cleared refresh => exact Clearing.publishable backs
  | consuming => exact publishable_of_consuming backs
  | revoking locked rest =>
    obtain rfl : rest = some [] := permitted
    exact Sweeping.publishable backs
  | _ => exact permitted.elim

/-- What one transaction publishes keeps the stage of another one backed. -/
theorem Backs.other {mine : Transaction Write Key}
    (backs : Backs committed session stage) (publishable : Publishable committed mine)
    (apart : ∀ key one two, (key, one) ∈ mine.locks → (key, two) ∈ session.locks →
      one.conflicts two = false) :
    Backs (written mine.writes committed) session stage := by
  cases stage with
  | saving refresh known =>
    obtain ⟨changes, seen⟩ := backs
    refine ⟨changes, fun isKnown => ?_⟩
    rcases hasFamily_of_written (seen isKnown) with present | inserted
    · exact hasFamily_written (hasFamily_written present)
    · exact hasFamily_written_insert (seen isKnown).storable inserted
  | cleared refresh =>
    have clearing : Clearing committed session refresh.familyID := backs
    refine ⟨clearing.held, fun stamped => ?_, clearing.changes⟩
    rcases stamped_of_written stamped with before | ⟨moment, stamps⟩
    · exact clearing.unrevoked before
    · have conflict := apart _ _ _ (publishable.stamps _ _ stamps) clearing.held
      cases conflict
  | revoking locked rest =>
    have sweeping : Sweeping committed session locked rest := backs
    refine ⟨sweeping.held, fun familyID isLocked => ?_, sweeping.changes, ?_⟩
    · exact hasFamily_written (sweeping.present familyID isLocked)
    · intro hashes known row present isLocked unrevoked
      rcases exists_of_mem_written present with ⟨new, inserted, evolves⟩ | ⟨earlier, old, evolves⟩
      · have held := sweeping.held row.familyID isLocked
        rw [evolves.familyID_eq] at held
        have conflict := apart _ _ _ (publishable.inserts new inserted) held
        cases conflict
      · have earlierUnrevoked : earlier.revokedAt = none := by
          cases stamp : earlier.revokedAt with
          | none => rfl
          | some moment =>
            have revoked := evolves.revoked (by rw [stamp]; rfl)
            rw [unrevoked] at revoked
            cases revoked
        rw [evolves.tokenHash_eq]
        exact sweeping.left hashes known earlier old (evolves.familyID_eq ▸ isLocked)
          earlierUnrevoked
  | consuming => exact backs
  | refused refresh => trivial
  | failed => trivial
  | ended => trivial

end Publishing

section Own

variable {state : Server Database Write Key} {process : Nat} {stage : Stage}

variable {session : Transaction Write Key} {rest : Option (List String)}

/-- A snapshot tells a revocation every token that it has not revoked yet. -/
theorem Sweeping.survey (sweeping : Sweeping committed session locked rest) :
    Sweeping committed session locked (some
      (((written session.writes committed).unrevoked locked).map RefreshRow.tokenHash)) where
  held := sweeping.held
  present := sweeping.present
  changes := sweeping.changes
  left := by
    rintro hashes known row present isLocked unrevoked
    obtain rfl := Option.some.inj known
    obtain ⟨later, member, evolves, cause⟩ := exists_evolves_written session.writes present
    cases stamp : later.revokedAt with
    | none =>
      left
      rw [← evolves.tokenHash_eq]
      apply mem_map_of_mem
      apply mem_filter.mpr
      exact ⟨member, by simp [evolves.familyID_eq, isLocked, stamp]⟩
    | some moment =>
      rcases cause (by rw [stamp]; rfl) with revoked | revokes
      · rw [unrevoked] at revoked
        cases revoked
      · exact .inr revokes

/-- A token whose newest version is revoked needs no further change. -/
theorem Sweeping.settle (tokenHash : String) (sweeping : Sweeping committed session locked rest) :
    Sweeping committed session locked (rest.map (List.filter
      (Stage.stillOpen (written session.writes committed) locked tokenHash))) where
  held := sweeping.held
  present := sweeping.present
  changes := sweeping.changes
  left := by
    rintro hashes known row present isLocked unrevoked
    obtain ⟨before, rfl, rfl⟩ := Option.map_eq_some_iff.mp known
    rcases sweeping.left before rfl row present isLocked unrevoked with inBefore | revokes
    · rcases sweeping.survey.left _ rfl row present isLocked unrevoked with isOpen | revokes
      · left
        apply mem_filter.mpr
        refine ⟨inBefore, ?_⟩
        obtain ⟨newest, member, hash⟩ := mem_map.mp isOpen
        unfold Stage.stillOpen
        by_cases same : row.tokenHash = tokenHash
        · rw [Bool.or_eq_true]
          right
          exact any_eq_true.mpr ⟨newest, member, by simp [hash, same]⟩
        · simp [same]
      · exact .inr revokes
    · exact .inr revokes

variable (backs : Backs state.committed (state.sessions process) stage)

include backs

theorem Backs.own_snapshot (permitted : stage.permits .snapshot (.ok (state.view apply process))) :
    Backs state.committed (state.sessions process)
      (stage.advance .snapshot (.ok (state.view apply process))) := by
  cases stage with
  | saving refresh known =>
    refine ⟨backs.1, fun seen => ?_⟩
    rcases Bool.or_eq_true_iff.mp seen with known | visible
    · exact backs.2 known
    · exact family_isSome.mp visible
  | revoking locked rest => exact Sweeping.survey backs
  | consuming => exact backs
  | _ => exact permitted.elim

variable {key : Key}

/-- A lock on a family row clears a save, refuses it or opens the family to a revocation. -/
theorem Backs.own_lock {mode : LockMode}
    (permitted : stage.permits (.lock key mode) (.ok (state.view apply process))) :
    Backs state.committed ((state.take process key mode).sessions process)
      (stage.advance (.lock key mode) (.ok (state.view apply process))) := by
  rw [take_self]
  cases stage with
  | saving refresh known =>
    obtain ⟨rfl, rfl⟩ := permitted
    dsimp only [Stage.advance]
    cases found : (state.view apply process).family refresh.familyID with
    | none => exact backs
    | some row =>
      change Backs _ _ (if row.revokedAt.isSome then .refused refresh else .cleared refresh)
      split
      · trivial
      next unrevoked =>
        refine ⟨mem_cons_self, fun stamped => ?_, fun effect member =>
          .inl (backs.1 effect member)⟩
        exact unrevoked ((familyStamped_iff found).mp (stamped_written stamped))
  | consuming => exact backs
  | revoking locked rest =>
    have sweeping : Sweeping state.committed (state.sessions process) locked rest := backs
    have kept : Sweeping state.committed { state.sessions process with
        locks := (key, mode) :: (state.sessions process).locks } locked rest :=
      ⟨fun familyID isLocked => mem_cons_of_mem _ (sweeping.held familyID isLocked),
        sweeping.present, sweeping.changes, sweeping.left⟩
    cases key with
    | family familyID =>
      obtain rfl : mode = .exclusive := permitted
      change Backs _ _ (if ((state.view apply process).family familyID).isSome then
        .revoking (familyID :: locked) none else .revoking locked rest)
      split
      next found =>
        have visible : state.committed.HasFamily familyID := by
          rcases hasFamily_of_written (family_isSome.mp found) with old | inserted
          · exact old
          · rcases sweeping.changes _ inserted with ⟨_, _, _, same⟩ | ⟨_, _, same⟩
            · cases same
            · cases same
        refine ⟨?_, ?_, ?_, ?_⟩
        · intro own member
          rcases mem_cons.mp member with rfl | old
          · exact mem_cons_self
          · exact kept.held own old
        · intro own member
          rcases mem_cons.mp member with rfl | old
          · exact visible
          · exact sweeping.present own old
        · intro effect member
          rcases sweeping.changes effect member with ⟨own, isLocked, stamps⟩ | revokes
          · exact .inl ⟨own, mem_cons_of_mem _ isLocked, stamps⟩
          · exact .inr revokes
        · intro hashes known
          cases known
      · exact kept
    | refresh tokenHash => exact kept.settle tokenHash
    | _ => exact permitted.elim
  | _ => exact permitted.elim

variable {free : Database → Bool} {effect : Write}

/-- A new row joins the changes that the stage allows. -/
theorem Backs.own_claimed (permitted : stage.permits (.claim key free effect) (.ok true)) :
    Backs state.committed
      (((state.take process key .exclusive).record process effect).sessions process)
      (stage.advance (.claim key free effect) (.ok true)) := by
  rw [record_self, take_self]
  cases stage with
  | saving refresh known =>
    obtain ⟨⟨-, rfl, -⟩, storable⟩ := permitted
    refine ⟨?_, fun _ => ?_⟩
    · intro change member
      rcases mem_append.mp member with old | new
      · exact backs.1 change old
      · exact mem_singleton.mp new
    · exact hasFamily_written_insert storable
        (mem_append_right _ (mem_singleton_self _))
  | cleared refresh =>
    have clearing : Clearing state.committed (state.sessions process) refresh.familyID := backs
    refine ⟨mem_cons_of_mem _ clearing.held, clearing.unrevoked, ?_⟩
    intro change member
    rcases mem_append.mp member with old | new
    · exact clearing.changes change old
    · rw [mem_singleton.mp new]
      exact .inr permitted
  | _ => exact permitted.elim

/-- An insert that found its key taken has seen the row. -/
theorem Backs.own_taken (permitted : stage.permits (.claim key free effect) (.ok false))
    (isTaken : free (state.view apply process) = false) :
    Backs state.committed (state.sessions process)
      (stage.advance (.claim key free effect) (.ok false)) := by
  cases stage with
  | saving refresh known =>
    refine ⟨backs.1, fun _ => ?_⟩
    rw [permitted.1.2.2, Option.isNone_eq_false_iff] at isTaken
    exact family_isSome.mp isTaken
  | cleared refresh => exact backs
  | _ => exact permitted.elim

/-- A permitted change joins those of its transaction. -/
theorem Backs.own_write (permitted : stage.permits (.write effect) ()) :
    Backs state.committed ((state.record process effect).sessions process)
      (stage.advance (.write effect) ()) := by
  rw [record_self]
  cases stage with
  | consuming =>
    intro change member
    rcases mem_append.mp member with old | new
    · exact backs change old
    · rw [mem_singleton.mp new]
      exact permitted
  | revoking locked rest =>
    have sweeping : Sweeping state.committed (state.sessions process) locked rest := backs
    have grows : ∀ change, change ∈ (state.sessions process).writes →
        change ∈ (state.sessions process).writes ++ [effect] :=
      fun change member => mem_append_left _ member
    cases effect with
    | stampFamily familyID moment =>
      refine ⟨sweeping.held, sweeping.present, ?_, ?_⟩
      · intro change member
        rcases mem_append.mp member with old | new
        · exact sweeping.changes change old
        · exact .inl ⟨familyID, permitted, moment, mem_singleton.mp new⟩
      · intro hashes known row present isLocked unrevoked
        exact (sweeping.left hashes known row present isLocked unrevoked).imp id
          fun ⟨time, revokes⟩ => ⟨time, grows _ revokes⟩
    | revokeRefresh tokenHash moment =>
      refine ⟨sweeping.held, sweeping.present, ?_, ?_⟩
      · intro change member
        rcases mem_append.mp member with old | new
        · exact sweeping.changes change old
        · exact .inr ⟨tokenHash, moment, mem_singleton.mp new⟩
      · intro hashes known row present isLocked unrevoked
        obtain ⟨before, rfl, rfl⟩ := Option.map_eq_some_iff.mp known
        rcases sweeping.left before rfl row present isLocked unrevoked with
          inBefore | ⟨time, revokes⟩
        · by_cases same : row.tokenHash = tokenHash
          · right
            refine ⟨moment, mem_append_right _ ?_⟩
            rw [same]
            exact mem_singleton_self _
          · left
            exact mem_filter.mpr ⟨inBefore, decide_eq_true same⟩
        · exact .inr ⟨time, grows _ revokes⟩
    | _ => exact permitted.elim
  | _ => exact permitted.elim

/-- Every step of a transaction keeps its own stage backed. -/
theorem Backs.own {after : Server Database Write Key} {effect : Effect} {answer : effect.Answer}
    (permitted : stage.permits effect answer)
    (served : Serves apply state process effect answer after) :
    Backs after.committed (after.sessions process) (stage.advance effect answer) := by
  have idle : ∀ database : Database, Backs database .idle .consuming := by
    intro database effect member
    cases member
  cases served with
  | snapshot => exact backs.own_snapshot permitted
  | lock granted => exact backs.own_lock permitted
  | claimed granted isFree => exact backs.own_claimed permitted
  | taken granted isTaken => exact backs.own_taken permitted isTaken
  | write => exact backs.own_write permitted
  | begin => cases stage <;> first | exact permitted.elim | exact backs
  | commit | commitUnconfirmed =>
    rw [publish_self]
    cases stage <;> first | exact permitted.elim | exact idle _ | trivial
  | commitFailed | rollback =>
    rw [discard_self]
    cases stage <;> first | exact permitted.elim | exact idle _ | trivial
  | @lockFailed key mode cause =>
    cases stage with
    | revoking locked rest => cases key <;> trivial
    | consuming => exact backs
    | _ => first | exact permitted.elim | trivial
  | _ => cases stage <;> first | exact permitted.elim | exact backs | trivial

end Own

/-- Locks exclude each other, the published rows are settled and every stage is backed. -/
structure Safe (state : Server Database Write Key) (stage : Nat → Stage) : Prop where
  exclusion : state.Exclusion
  settled : state.committed.Settled
  backed : ∀ process, Backs state.committed (state.sessions process) (stage process)

/-- Every permitted step of a transaction keeps the server safe. -/
theorem Safe.step {state after : Server Database Write Key} {stage next : Nat → Stage}
    {process : Nat} {effect : Effect} {answer : effect.Answer} (safe : Safe state stage)
    (permitted : (stage process).permits effect answer)
    (served : Serves apply state process effect answer after)
    (mine : next process = (stage process).advance effect answer)
    (others : ∀ other, other ≠ process → next other = stage other) : Safe after next := by
  have own := (safe.backed process).own permitted served
  rw [← mine] at own
  rcases served.committed_cases with unchanged | ⟨rfl, published⟩
  · refine ⟨served.exclusion safe.exclusion, by rw [unchanged]; exact safe.settled, ?_⟩
    intro other
    by_cases same : other = process
    · rw [same]
      exact own
    · rw [others other same, unchanged, served.sessions_of_ne same]
      exact safe.backed other
  · have publishable := (safe.backed process).publishable permitted
    refine ⟨served.exclusion safe.exclusion, ?_, ?_⟩
    · rw [published]
      exact publishable.settles safe.settled
    · intro other
      by_cases same : other = process
      · rw [same]
        exact own
      · rw [others other same, published, served.sessions_of_ne same]
        apply (safe.backed other).other publishable
        intro key one two holds holdsToo
        exact safe.exclusion process other key one two (Ne.symm same) holds holdsToo

end Tempogate.Postgres
