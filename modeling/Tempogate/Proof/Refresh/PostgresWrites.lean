/-
This file shows how published row changes act on the families and tokens of the Postgres store.
-/

import Tempogate.Construction.Postgres.Store
import Tempogate.Proof.Refresh.Ledger

namespace Tempogate.Postgres

open Foundation Oidc State Write RefreshRow FamilyRow List

namespace Database

abbrev rows (database : Database) : List RefreshRow := database.refreshTokens.rows

def HasFamily (database : Database) (familyID : String) : Prop :=
  ∃ row ∈ database.refreshFamilies.rows, row.familyID = familyID

def FamilyStamped (database : Database) (familyID : String) : Prop :=
  ∃ row ∈ database.refreshFamilies.rows, row.familyID = familyID ∧ row.revokedAt.isSome

/-- Every token of a stamped family is revoked. -/
def Settled (database : Database) : Prop :=
  ∀ familyID, database.FamilyStamped familyID →
    ∀ row ∈ database.rows, row.familyID = familyID → row.revokedAt.isSome

variable {database : Database} {familyID : String}

/-- A stamped family of a settled database has no live token. -/
theorem Settled.dead (settled : database.Settled) (stamped : database.FamilyStamped familyID) :
    FamilyDead database.rows familyID := by
  intro row present family
  have revoked := settled familyID stamped row present family
  cases stamp : row.revokedAt <;> simp_all [live]

theorem HasFamily.storable (present : database.HasFamily familyID) : Storable familyID := by
  obtain ⟨row, -, family⟩ := present
  exact family ▸ row.storable

theorem family_eq_none : database.family familyID = none ↔ ¬ database.HasFamily familyID := by
  simp [family, HasFamily]

theorem family_isSome : (database.family familyID).isSome ↔ database.HasFamily familyID := by
  simp [family, HasFamily]

/-- The lookup by id finds the only row of the family. -/
theorem familyStamped_iff {row : FamilyRow} (found : database.family familyID = some row) :
    database.FamilyStamped familyID ↔ row.revokedAt.isSome := by
  have present := mem_of_find?_eq_some found
  have family : row.familyID = familyID := by
    simpa using List.find?_some found
  constructor
  · rintro ⟨other, member, ofFamily, stamped⟩
    have same := database.refreshFamilies.eq_of_key_eq member present (ofFamily.trans family.symm)
    rwa [same] at stamped
  · intro stamped
    exact ⟨row, present, family, stamped⟩

end Database

variable {row : RefreshRow}

namespace Write

variable {database : Database} {effect : Write} {familyID : String}

/-- A row change adds a family, stamps a family or leaves the families alone. -/
theorem families_apply (effect : Write) (database : Database) :
    (effect.apply database).refreshFamilies = database.refreshFamilies ∨
      (∃ familyID storable, effect = .insertFamily familyID ∧
        (effect.apply database).refreshFamilies.rows =
          database.refreshFamilies.rows ++ [⟨familyID, none, storable⟩]) ∨
      ∃ familyID moment, effect = .stampFamily familyID moment ∧
        (effect.apply database).refreshFamilies.rows = database.refreshFamilies.rows.map fun row =>
            if row.familyID = familyID then row.stamp moment else row := by
  cases effect with
  | insertFamily familyID =>
    simp only [apply]
    split
    next storable =>
      cases inserted : database.refreshFamilies.insert ⟨familyID, none, storable⟩ with
      | none => exact .inl rfl
      | some after => exact .inr (.inl ⟨familyID, storable, rfl, (Table.rows_insert inserted).1⟩)
    · exact .inl rfl
  | stampFamily familyID moment =>
    have updated := database.refreshFamilies.rows_update
      (fun row => row.familyID = familyID) (stamp moment) fun _ => rfl
    simp only [decide_eq_true_eq] at updated
    exact .inr (.inr ⟨familyID, moment, rfl, updated⟩)
  | _ => exact .inl rfl

theorem hasFamily_apply (present : database.HasFamily familyID) :
    (effect.apply database).HasFamily familyID := by
  obtain ⟨row, member, family⟩ := present
  rcases families_apply effect database with same | ⟨added, _, -, rows⟩ | ⟨stamped, moment, -, rows⟩
  · exact ⟨row, by rwa [same], family⟩
  · exact ⟨row, by rw [rows]; exact mem_append_left _ member, family⟩
  · refine ⟨_, by rw [rows]; exact mem_map_of_mem member, ?_⟩
    split <;> exact family

theorem hasFamily_of_apply (present : (effect.apply database).HasFamily familyID) :
    database.HasFamily familyID ∨ effect = .insertFamily familyID := by
  obtain ⟨row, member, family⟩ := present
  rcases families_apply effect database with same | ⟨added, _, rfl, rows⟩ |
      ⟨stamped, moment, -, rows⟩
  · exact .inl ⟨row, by rwa [same] at member, family⟩
  · rw [rows, mem_append, mem_singleton] at member
    rcases member with old | rfl
    · exact .inl ⟨row, old, family⟩
    · exact .inr (by rw [← family])
  · rw [rows] at member
    obtain ⟨earlier, old, rfl⟩ := mem_map.mp member
    refine .inl ⟨earlier, old, ?_⟩
    split at family <;> exact family

theorem hasFamily_insert (database : Database) (storable : Storable familyID) :
    ((insertFamily familyID).apply database).HasFamily familyID := by
  simp only [apply, Database.HasFamily, dif_pos storable]
  cases inserted : database.refreshFamilies.insert ⟨familyID, none, storable⟩ with
  | none => simpa using Table.insert_eq_none.mp inserted
  | some after =>
    refine ⟨⟨familyID, none, storable⟩, ?_, rfl⟩
    rw [Option.getD_some, (Table.rows_insert inserted).1]
    exact mem_append_right _ (mem_singleton_self _)

theorem stamped_apply (stamped : database.FamilyStamped familyID) :
    (effect.apply database).FamilyStamped familyID := by
  obtain ⟨row, member, family, revoked⟩ := stamped
  rcases families_apply effect database with same | ⟨added, _, -, rows⟩ | ⟨target, moment, -, rows⟩
  · exact ⟨row, by rwa [same], family, revoked⟩
  · exact ⟨row, by rw [rows]; exact mem_append_left _ member, family, revoked⟩
  · refine ⟨_, by rw [rows]; exact mem_map_of_mem member, ?_⟩
    split
    · exact ⟨family, by simp [stamp]⟩
    · exact ⟨family, revoked⟩

theorem stamped_of_apply (stamped : (effect.apply database).FamilyStamped familyID) :
    database.FamilyStamped familyID ∨ ∃ moment, effect = .stampFamily familyID moment := by
  obtain ⟨row, member, family, revoked⟩ := stamped
  rcases families_apply effect database with
    same | ⟨added, _, -, rows⟩ | ⟨target, moment, rfl, rows⟩
  · exact .inl ⟨row, by rwa [same] at member, family, revoked⟩
  · rw [rows, mem_append, mem_singleton] at member
    rcases member with old | rfl
    · exact .inl ⟨row, old, family, revoked⟩
    · simp at revoked
  · rw [rows] at member
    obtain ⟨earlier, old, rfl⟩ := mem_map.mp member
    split at family
    next hit => exact .inr ⟨moment, by rw [← hit, ← family]; rfl⟩
    next missed =>
      rw [if_neg missed] at revoked
      exact .inl ⟨earlier, old, family, revoked⟩

theorem stamped_stamp (present : database.HasFamily familyID) (moment : Time) :
    ((stampFamily familyID moment).apply database).FamilyStamped familyID := by
  obtain ⟨row, member, family⟩ := present
  have updated : ((stampFamily familyID moment).apply database).refreshFamilies.rows = _ :=
    database.refreshFamilies.rows_update
      (fun row => row.familyID = familyID) (stamp moment) fun _ => rfl
  refine ⟨row.stamp moment, ?_, family, by simp [stamp]⟩
  rw [updated]
  exact mem_map.mpr ⟨row, member, by simp [family]⟩

/-- A row change adds a token, stamps a token or leaves the tokens alone. -/
theorem tokens_apply (effect : Write) (database : Database) :
    (effect.apply database).rows = database.rows ∨ (∃ row, effect = .insertRefresh row ∧
        (effect.apply database).rows = database.rows ++ [row.inserted]) ∨
      (∃ tokenHash moment, effect = .consumeRefresh tokenHash moment ∧
        (effect.apply database).rows = database.rows.map fun row =>
          if row.tokenHash = tokenHash then row.consume moment else row) ∨
      ∃ tokenHash moment, effect = .revokeRefresh tokenHash moment ∧
        (effect.apply database).rows = database.rows.map fun row =>
          if row.tokenHash = tokenHash then row.revoke moment else row := by
  cases effect with
  | insertRefresh row =>
    simp only [apply, Database.rows]
    cases inserted : database.refreshTokens.insert row.inserted with
    | none => exact .inl rfl
    | some after => exact .inr (.inl ⟨row, rfl, (Table.rows_insert inserted).1⟩)
  | consumeRefresh tokenHash moment =>
    have updated := database.refreshTokens.rows_update
      (fun row => row.tokenHash = tokenHash) (consume moment) fun _ => rfl
    simp only [decide_eq_true_eq] at updated
    exact .inr (.inr (.inl ⟨tokenHash, moment, rfl, updated⟩))
  | revokeRefresh tokenHash moment =>
    have updated := database.refreshTokens.rows_update
      (fun row => row.tokenHash = tokenHash) (revoke moment) fun _ => rfl
    simp only [decide_eq_true_eq] at updated
    exact .inr (.inr (.inr ⟨tokenHash, moment, rfl, updated⟩))
  | _ => exact .inl rfl

/-- Every token after a row change was inserted by it or is a later version of an earlier token. -/
theorem exists_of_mem_apply (present : row ∈ (effect.apply database).rows) :
    (∃ new, effect = .insertRefresh new ∧ row = new.inserted) ∨
      ∃ earlier ∈ database.rows, earlier.Evolves row := by
  rcases tokens_apply effect database with same | ⟨new, rfl, rows⟩ |
    ⟨tokenHash, moment, rfl, rows⟩ | ⟨tokenHash, moment, rfl, rows⟩
  · rw [same] at present
    exact .inr ⟨row, present, .refl row⟩
  · rw [rows, mem_append, mem_singleton] at present
    rcases present with old | added
    · exact .inr ⟨row, old, .refl row⟩
    · exact .inl ⟨new, rfl, added⟩
  · rw [rows] at present
    obtain ⟨earlier, old, rfl⟩ := mem_map.mp present
    refine .inr ⟨earlier, old, ?_⟩
    split
    · exact .consume earlier moment
    · exact .refl earlier
  · rw [rows] at present
    obtain ⟨earlier, old, rfl⟩ := mem_map.mp present
    refine .inr ⟨earlier, old, ?_⟩
    split
    · exact .revoke earlier moment
    · exact .refl earlier

/-- Every token has a later version, and only a revoking change of it revokes it. -/
theorem exists_evolves {row : RefreshRow} (effect : Write) (present : row ∈ database.rows) :
    ∃ later ∈ (effect.apply database).rows, row.Evolves later ∧
      (later.revokedAt.isSome → row.revokedAt.isSome ∨
        ∃ moment, effect = .revokeRefresh row.tokenHash moment) := by
  rcases tokens_apply effect database with same | ⟨new, rfl, rows⟩ |
    ⟨tokenHash, moment, rfl, rows⟩ | ⟨tokenHash, moment, rfl, rows⟩
  · exact ⟨row, by rwa [same], .refl row, .inl⟩
  · exact ⟨row, by rw [rows]; exact mem_append_left _ present, .refl row, .inl⟩
  · refine ⟨_, by rw [rows]; exact mem_map_of_mem present, ?_⟩
    split
    · exact ⟨.consume row moment, .inl⟩
    · exact ⟨.refl row, .inl⟩
  · refine ⟨_, by rw [rows]; exact mem_map_of_mem present, ?_⟩
    split
    next hit => exact ⟨.revoke row moment, fun _ => .inr ⟨moment, by rw [hit]⟩⟩
    · exact ⟨.refl row, .inl⟩

theorem revoked_of_revoke {tokenHash : String} {moment : Time}
    (present : row ∈ ((revokeRefresh tokenHash moment).apply database).rows)
    (hash : row.tokenHash = tokenHash) : row.revokedAt.isSome := by
  have updated : ((revokeRefresh tokenHash moment).apply database).rows = _ :=
    database.refreshTokens.rows_update
      (fun row => row.tokenHash = tokenHash) (revoke moment) fun _ => rfl
  rw [updated] at present
  obtain ⟨earlier, -, rfl⟩ := mem_map.mp present
  split
  · rfl
  next missed =>
    rw [if_neg missed] at hash
    simp [hash] at missed

end Write

/-- This database has the row changes on top of the given one. -/
def written (changes : List Write) (database : Database) : Database :=
  changes.foldl (fun current effect => effect.apply current) database

section Written

variable {changes : List Write} {database : Database} {familyID : String}

theorem hasFamily_written (present : database.HasFamily familyID) :
    (written changes database).HasFamily familyID := by
  induction changes generalizing database with
  | nil => exact present
  | cons effect rest ih => exact ih (hasFamily_apply present)

theorem hasFamily_of_written (present : (written changes database).HasFamily familyID) :
    database.HasFamily familyID ∨ .insertFamily familyID ∈ changes := by
  induction changes generalizing database with
  | nil => exact .inl present
  | cons effect rest ih =>
    rcases ih present with before | later
    · rcases hasFamily_of_apply before with old | rfl
      · exact .inl old
      · exact .inr mem_cons_self
    · exact .inr (mem_cons_of_mem _ later)

theorem hasFamily_written_insert (storable : Storable familyID)
    (inserted : .insertFamily familyID ∈ changes) :
    (written changes database).HasFamily familyID := by
  induction changes generalizing database with
  | nil => simp at inserted
  | cons effect rest ih =>
    rcases mem_cons.mp inserted with rfl | later
    · exact @hasFamily_written rest _ _ (hasFamily_insert database storable)
    · exact ih later

theorem stamped_written (stamped : database.FamilyStamped familyID) :
    (written changes database).FamilyStamped familyID := by
  induction changes generalizing database with
  | nil => exact stamped
  | cons effect rest ih => exact ih (stamped_apply stamped)

theorem stamped_of_written (stamped : (written changes database).FamilyStamped familyID) :
    database.FamilyStamped familyID ∨ ∃ moment, .stampFamily familyID moment ∈ changes := by
  induction changes generalizing database with
  | nil => exact .inl stamped
  | cons effect rest ih =>
    rcases ih stamped with before | ⟨moment, later⟩
    · rcases stamped_of_apply before with old | ⟨moment, rfl⟩
      · exact .inl old
      · exact .inr ⟨moment, mem_cons_self⟩
    · exact .inr ⟨moment, mem_cons_of_mem _ later⟩

theorem stamped_written_stamp {moment : Time} (present : database.HasFamily familyID)
    (stamps : .stampFamily familyID moment ∈ changes) :
    (written changes database).FamilyStamped familyID := by
  induction changes generalizing database with
  | nil => simp at stamps
  | cons effect rest ih =>
    rcases mem_cons.mp stamps with rfl | later
    · exact @stamped_written rest _ _ (stamped_stamp present moment)
    · exact ih (hasFamily_apply present) later

/-- Every published token was inserted or is a later version of an earlier token. -/
theorem exists_of_mem_written {row : RefreshRow} (present : row ∈ (written changes database).rows) :
    (∃ new, .insertRefresh new ∈ changes ∧ new.inserted.Evolves row) ∨
      ∃ earlier ∈ database.rows, earlier.Evolves row := by
  induction changes generalizing database with
  | nil => exact .inr ⟨row, present, .refl row⟩
  | cons effect rest ih =>
    rcases ih present with ⟨new, inserted, evolves⟩ | ⟨middle, member, evolves⟩
    · exact .inl ⟨new, mem_cons_of_mem _ inserted, evolves⟩
    · rcases exists_of_mem_apply member with ⟨new, rfl, rfl⟩ | ⟨earlier, old, first⟩
      · exact .inl ⟨new, mem_cons_self, evolves⟩
      · exact .inr ⟨earlier, old, first.trans evolves⟩

/-- Every token has a published version, and only a revoking change of it revokes it. -/
theorem exists_evolves_written (changes : List Write) (present : row ∈ database.rows) :
    ∃ later ∈ (written changes database).rows, row.Evolves later ∧
      (later.revokedAt.isSome → row.revokedAt.isSome ∨
        ∃ moment, .revokeRefresh row.tokenHash moment ∈ changes) := by
  induction changes generalizing database row with
  | nil => exact ⟨row, present, .refl row, .inl⟩
  | cons effect rest ih =>
    obtain ⟨middle, member, first, causeFirst⟩ := exists_evolves effect present
    obtain ⟨later, memberLater, second, causeSecond⟩ := ih member
    refine ⟨later, memberLater, first.trans second, fun revoked => ?_⟩
    rcases causeSecond revoked with inMiddle | ⟨moment, inRest⟩
    · rcases causeFirst inMiddle with old | ⟨moment, rfl⟩
      · exact .inl old
      · exact .inr ⟨moment, mem_cons_self⟩
    · rw [first.tokenHash_eq] at inRest
      exact .inr ⟨moment, mem_cons_of_mem _ inRest⟩

/-- A revoking change revokes its token if the changes insert none. -/
theorem revoked_written {moment : Time} (noInsert : ∀ new, .insertRefresh new ∉ changes)
    (revokes : .revokeRefresh row.tokenHash moment ∈ changes)
    (present : row ∈ (written changes database).rows) : row.revokedAt.isSome := by
  induction changes generalizing database with
  | nil => simp at revokes
  | cons effect rest ih =>
    have noLater : ∀ new, .insertRefresh new ∉ rest :=
      fun new inserted => noInsert new (mem_cons_of_mem _ inserted)
    rcases mem_cons.mp revokes with rfl | later
    · rcases @exists_of_mem_written rest _ _ present with
        ⟨new, inserted, -⟩ | ⟨middle, member, evolves⟩
      · exact absurd inserted (noLater new)
      · exact evolves.revoked (revoked_of_revoke member evolves.tokenHash_eq.symm)
    · exact ih noLater later present

end Written

end Tempogate.Postgres
