/-
This file states what the signing rule picks and what a retirement does to the stored keypairs.
-/

import Tempogate.Construction.Keys.Keys

namespace Tempogate.Keys

open Foundation Oidc Sqlite Keypair Keypairs List

/-- The newest keypair stands first and no keypair is older than a later one. -/
def NewestFirst (keypairs : List Keypair) : Prop :=
  keypairs.Pairwise fun newer older => older.createdAt ≤ newer.createdAt

section Signing

variable {now later publishDelay : Time} {keypairs : List Keypair} {keypair signer next : Keypair}
  {oldest : Option Keypair}

theorem Keypair.published_iff :
    keypair.published publishDelay now ↔ keypair.createdAt + publishDelay ≤ now := by
  simp [Keypair.published]

/-- The loop finds an active keypair of the list or keeps the candidate it came with. -/
theorem signingFrom_mem (found : signingFrom now publishDelay oldest keypairs = some signer) :
    (signer ∈ keypairs ∧ signer.active) ∨ oldest = some signer := by
  induction keypairs generalizing oldest with
  | nil => exact .inr found
  | cons keypair older ih =>
    unfold signingFrom at found
    split at found
    · exact (ih found).imp_left fun ⟨member, active⟩ => ⟨.tail _ member, active⟩
    next isActive =>
      have active : keypair.active := by
        simpa [Keypair.active] using isActive
      split at found
      · cases found
        exact .inl ⟨.head _, active⟩
      · rcases ih found with ⟨member, isActive⟩ | same
        · exact .inl ⟨.tail _ member, isActive⟩
        · cases same
          exact .inl ⟨.head _, active⟩

/-- The loop finds nothing only without a candidate and without an active keypair. -/
theorem signingFrom_none (found : signingFrom now publishDelay oldest keypairs = none) :
    oldest = none ∧ ∀ keypair ∈ keypairs, keypair.retired := by
  induction keypairs generalizing oldest with
  | nil => exact ⟨found, nofun⟩
  | cons keypair older ih =>
    unfold signingFrom at found
    split at found
    next isRetired =>
      obtain ⟨none, rest⟩ := ih found
      exact ⟨none, forall_mem_cons.mpr ⟨isRetired, rest⟩⟩
    · split at found
      · cases found
      · cases (ih found).1

/-- No published active keypair is newer than the signer, since the loop takes the first one. A
signer inside its publish delay is the oldest active keypair and none is published. -/
theorem signingFrom_some (ordered : NewestFirst keypairs)
    (found : signingFrom now publishDelay oldest keypairs = some signer) :
    ∀ keypair ∈ keypairs, keypair.active →
      (keypair.published publishDelay now → keypair.createdAt ≤ signer.createdAt) ∧
      (signer.published publishDelay now = false →
        keypair.published publishDelay now = false ∧ signer.createdAt ≤ keypair.createdAt) := by
  induction keypairs generalizing oldest with
  | nil => nofun
  | cons keypair older ih =>
    obtain ⟨newest, rest⟩ := pairwise_cons.mp ordered
    unfold signingFrom at found
    split at found
    next isRetired =>
      refine forall_mem_cons.mpr ⟨fun active => ?_, ih rest found⟩
      simp [Keypair.active, isRetired] at active
    · split at found
      next isPublished =>
        cases found
        have never : signer.published publishDelay now ≠ false := by simp [isPublished]
        exact forall_mem_cons.mpr ⟨fun _ => ⟨fun _ => le_refl _, fun pending =>
          absurd pending never⟩, fun other member _ => ⟨fun _ => newest other member,
            fun pending => absurd pending never⟩⟩
      next unpublished =>
        have oldestOf : signer.createdAt ≤ keypair.createdAt := by
          rcases signingFrom_mem found with ⟨member, -⟩ | same
          · exact newest signer member
          · cases same
            exact le_refl _
        exact forall_mem_cons.mpr ⟨fun _ => ⟨fun published => absurd published unpublished,
          fun _ => ⟨by simpa using unpublished, oldestOf⟩⟩, ih rest found⟩

theorem signing_mem (found : signing keypairs now publishDelay = some signer) :
    signer ∈ keypairs ∧ signer.active := by
  rcases signingFrom_mem found with ⟨member, active⟩ | same
  · exact ⟨mem_reverse.mp member, active⟩
  · cases same

theorem signing_none (found : signing keypairs now publishDelay = none) :
    ∀ keypair ∈ keypairs, keypair.retired := by
  intro keypair member
  exact (signingFrom_none found).2 keypair (mem_reverse.mpr member)

/-- The loop passes over retired keypairs. -/
theorem signingFrom_filter : signingFrom now publishDelay oldest (keypairs.filter Keypair.active) =
      signingFrom now publishDelay oldest keypairs := by
  induction keypairs generalizing oldest with
  | nil => rfl
  | cons keypair older ih =>
    cases isRetired : keypair.retired with
    | true => simp [Keypair.active, isRetired, signingFrom, ih]
    | false => simp [Keypair.active, isRetired, signingFrom, ih]

/-- Only the active keypairs decide who signs. -/
theorem signing_filter : signing (keypairs.filter Keypair.active) now publishDelay =
      signing keypairs now publishDelay := by
  unfold signing
  rw [← filter_reverse, signingFrom_filter]

theorem signing_some
    (sorted : keypairs.Pairwise fun older newer => older.createdAt ≤ newer.createdAt)
    (found : signing keypairs now publishDelay = some signer) :
    ∀ keypair ∈ keypairs, keypair.active →
      (keypair.published publishDelay now → keypair.createdAt ≤ signer.createdAt) ∧
      (signer.published publishDelay now = false →
        keypair.published publishDelay now = false ∧ signer.createdAt ≤ keypair.createdAt) := by
  have ordered : NewestFirst keypairs.reverse := pairwise_reverse.mpr sorted
  intro keypair member
  exact signingFrom_some ordered found keypair (mem_reverse.mpr member)

theorem signing_eq_none_iff :
    signing keypairs now publishDelay = none ↔ ∀ keypair ∈ keypairs, keypair.retired := by
  refine ⟨signing_none, fun retired => ?_⟩
  by_contra some
  obtain ⟨signer, found⟩ := Option.ne_none_iff_exists'.mp some
  obtain ⟨member, active⟩ := signing_mem found
  simp [Keypair.active, retired signer member] at active

/-- A later signer is no older, since the fallback is older than every other active keypair. -/
theorem signing_mono
    (sorted : keypairs.Pairwise fun older newer => older.createdAt ≤ newer.createdAt)
    (order : now ≤ later) (found : signing keypairs now publishDelay = some signer)
    (follows : signing keypairs later publishDelay = some next) :
    signer.createdAt ≤ next.createdAt := by
  obtain ⟨member, active⟩ := signing_mem found
  by_cases isPublished : signer.published publishDelay now
  · have still : signer.published publishDelay later :=
      Keypair.published_iff.mpr ((Keypair.published_iff.mp isPublished).trans order)
    exact (signing_some sorted follows signer member active).1 still
  · obtain ⟨nextMember, nextActive⟩ := signing_mem follows
    exact ((signing_some sorted found next nextMember nextActive).2 (by simpa using isPublished)).2

/-- The kid of the signer is that of no other keypair. -/
theorem statusesAt_signing (distinct : (keypairs.map Keypair.kid).Nodup)
    (member : keypair ∈ keypairs) :
    (!keypair.retired && keypair.kid =
      ((signing keypairs now publishDelay).map Keypair.kid).getD "") =
        decide (signing keypairs now publishDelay = some keypair) := by
  cases found : signing keypairs now publishDelay with
  | none => simp [signing_none found keypair member]
  | some signer =>
    obtain ⟨present, active⟩ := signing_mem found
    by_cases same : keypair.kid = signer.kid
    · obtain rfl := inj_on_of_nodup_map distinct member present same
      simpa [Keypair.active] using active
    · have different : signer ≠ keypair := fun equal => same (congrArg Keypair.kid equal.symm)
      simp [same, different]

/-- One status signs if some keypair is active. -/
theorem countP_signing (distinct : (keypairs.map Keypair.kid).Nodup) :
    (statusesAt keypairs now publishDelay).countP KeypairStatus.signing =
      if keypairs.any Keypair.active then 1 else 0 := by
  have marks : (statusesAt keypairs now publishDelay).countP KeypairStatus.signing =
      keypairs.countP fun keypair => signing keypairs now publishDelay = some keypair := by
    rw [statusesAt, countP_map]
    refine countP_congr fun keypair member => ?_
    exact Bool.eq_iff_iff.mp (statusesAt_signing distinct member)
  rw [marks]
  cases found : signing keypairs now publishDelay with
  | none =>
    have idle : keypairs.any Keypair.active = false := by
      simpa [Keypair.active] using signing_none found
    simp [idle]
  | some signer =>
    obtain ⟨member, active⟩ := signing_mem found
    have some : keypairs.any Keypair.active := any_eq_true.mpr ⟨signer, member, active⟩
    have once := count_eq_one_of_mem distinct.of_map member
    rw [if_pos some, ← once, List.count]
    refine countP_congr fun keypair _ => ?_
    rw [decide_eq_true_iff, Option.some.injEq, beq_iff_eq]
    exact eq_comm

instance : Std.Total Before where
  total first second := by
    rcases lt_trichotomy first.createdAt second.createdAt with earlier | same | later
    · exact .inl (.inl earlier)
    · exact (le_total first.kid second.kid).imp (fun before => .inr ⟨same, before⟩)
        fun before => .inr ⟨same.symm, before⟩
    · exact .inr (.inl later)

instance : IsTrans Keypair Before where
  trans first second third := by
    rintro (earlier | ⟨same, before⟩) (next | ⟨sameNext, beforeNext⟩)
    · exact .inl (earlier.trans next)
    · exact .inl (sameNext ▸ earlier)
    · exact .inl (same ▸ next)
    · exact .inr ⟨same.trans sameNext, before.trans beforeNext⟩

theorem sortByCreatedAt_sorted (keypairs : List Keypair) :
    (sortByCreatedAt keypairs).Pairwise fun older newer => older.createdAt ≤ newer.createdAt := by
  refine (pairwise_insertionSort Before keypairs).imp ?_
  rintro older newer (before | ⟨same, -⟩)
  · exact le_of_lt before
  · exact le_of_eq same

theorem mem_sortByCreatedAt : keypair ∈ sortByCreatedAt keypairs ↔ keypair ∈ keypairs :=
  mem_insertionSort _

end Signing

/-- A list without duplicates that has several members has one that differs from a given value. -/
theorem exists_ne_of_nodup {Value : Type} {values : List Value} (distinct : values.Nodup)
    (several : 1 < values.length) (value : Value) : ∃ other ∈ values, other ≠ value := by
  by_contra only
  push Not at only
  rw [eq_replicate_of_mem only, nodup_replicate] at distinct
  omega

section Retire

variable {table : Keypairs} {kid : String} {moment : Time} {row : Keypair}

/-- The kid has an active keypair in the store. -/
def Keypairs.Active (table : Keypairs) (kid : String) : Prop :=
  ∃ row ∈ table.rows, row.kid = kid ∧ row.active

/-- The kid is retired in the store. -/
def Keypairs.Retired (table : Keypairs) (kid : String) : Prop :=
  ∃ row ∈ table.rows, row.kid = kid ∧ row.retired

theorem Keypairs.rows_saveKeypair (keypair : Keypair) (present : row ∈ table.rows) :
    row ∈ (table.saveKeypair keypair).2.rows := by
  unfold saveKeypair
  split
  next after inserted =>
    rw [(Table.rows_insert inserted).1]
    exact mem_append_left _ present
  · exact present

theorem Keypairs.selectKid_eq_some :
    table.selectKid kid = some row ↔ row ∈ table.rows ∧ row.kid = kid :=
  Table.find_eq_some_iff

theorem rows_updateRetired : (updateRetired kid moment table).rows = table.rows.map fun row =>
      if retirable table kid row then row.retire moment else row :=
  Table.rows_update _ _ _ _

theorem retirable_iff : retirable table kid row ↔
      row.kid = kid ∧ row.active ∧ ∃ other ∈ table.rows, other.kid ≠ kid ∧ other.active := by
  simp [retirable, and_assoc]

/-- A keypair can be retired exactly when it is one of several active ones. -/
theorem exists_retirable_iff : (∃ row ∈ table.rows, retirable table kid row) ↔
      1 < ((table.rows.filter Keypair.active).map Keypair.kid).length ∧
        kid ∈ (table.rows.filter Keypair.active).map Keypair.kid := by
  have distinct : ((table.rows.filter Keypair.active).map Keypair.kid).Nodup :=
    table.distinct.sublist (filter_sublist.map _)
  constructor
  · rintro ⟨row, member, isRetirable⟩
    obtain ⟨rfl, active, other, otherMember, different, otherActive⟩ := retirable_iff.mp isRetirable
    have inActive : row.kid ∈ (table.rows.filter Keypair.active).map Keypair.kid :=
      mem_map_of_mem (mem_filter.mpr ⟨member, active⟩)
    have otherInActive : other.kid ∈ (table.rows.filter Keypair.active).map Keypair.kid :=
      mem_map_of_mem (mem_filter.mpr ⟨otherMember, otherActive⟩)
    refine ⟨?_, inActive⟩
    by_contra few
    obtain ⟨only, same⟩ := length_eq_one_iff.mp
      (le_antisymm (not_lt.mp few) (length_pos_of_mem inActive))
    rw [same, mem_singleton] at inActive otherInActive
    exact different (otherInActive.trans inActive.symm)
  · rintro ⟨several, inActive⟩
    obtain ⟨row, filtered, rfl⟩ := mem_map.mp inActive
    obtain ⟨member, active⟩ := mem_filter.mp filtered
    obtain ⟨other, otherMember, different⟩ := exists_ne_of_nodup distinct several row.kid
    obtain ⟨keypair, otherFiltered, rfl⟩ := mem_map.mp otherMember
    obtain ⟨stored, otherActive⟩ := mem_filter.mp otherFiltered
    exact ⟨row, member, retirable_iff.mpr ⟨rfl, active, keypair, stored, different, otherActive⟩⟩

/-- While the keypair can be retired, its row is the one with its kid. -/
theorem retirable_eq_of_exists (exists_ : ∃ row ∈ table.rows, retirable table kid row)
    (member : row ∈ table.rows) : decide (row.kid = kid) = retirable table kid row := by
  obtain ⟨target, stored, isRetirable⟩ := exists_
  rw [Bool.eq_iff_iff, decide_eq_true_iff]
  constructor
  · intro same
    rw [table.eq_of_key_eq member stored (same.trans (retirable_iff.mp isRetirable).1.symm)]
    exact isRetirable
  · exact fun selected => (retirable_iff.mp selected).1

/-- The two backends retire alike. -/
theorem retireKeypair_postgres :
    Postgres.retireKeypair kid moment table = Sqlite.retireKeypair kid moment table := by
  have counted : decide (0 < table.rows.countP (retirable table kid)) =
      (decide (1 < ((table.rows.filter Keypair.active).map Keypair.kid).length) &&
        decide (kid ∈ (table.rows.filter Keypair.active).map Keypair.kid)) := by
    rw [Bool.eq_iff_iff, decide_eq_true_iff, countP_pos_iff, exists_retirable_iff,
      Bool.and_eq_true, decide_eq_true_iff, decide_eq_true_iff]
  have updated : updateRetired kid moment table =
      if decide (0 < table.rows.countP (retirable table kid)) then
        table.update (fun row => row.kid = kid) (Keypair.retire moment) fun _ => rfl
      else table := by
    split
    next some =>
      have exists_ := countP_pos_iff.mp (of_decide_eq_true some)
      exact (Table.update_congr fun row member => retirable_eq_of_exists exists_ member).symm
    next none =>
      refine Table.update_eq_self fun row member => Bool.eq_false_iff.mpr fun selected => ?_
      exact none (decide_eq_true (countP_pos_iff.mpr ⟨row, member, selected⟩))
  simp only [Postgres.retireKeypair, Sqlite.retireKeypair, updated, ← counted, gt_iff_lt]

variable (backend : Backend)

theorem Backend.retireKeypair_eq :
    backend.retireKeypair kid moment table = Sqlite.retireKeypair kid moment table := by
  cases backend with
  | sqlite => rfl
  | postgres => exact retireKeypair_postgres

/-- A retirement changes only the row that can be retired. -/
theorem Backend.rows_retireKeypair :
    (backend.retireKeypair kid moment table).2.rows = table.rows.map fun row =>
      if retirable table kid row then row.retire moment else row := by
  rw [backend.retireKeypair_eq]
  exact rows_updateRetired

/-- A retirement that succeeds leaves the kid retired. -/
theorem Backend.retireKeypair_ok {backend : Backend} {keypair : Keypair}
    (answered : (backend.retireKeypair kid moment table).1 = .ok keypair) :
    (backend.retireKeypair kid moment table).2.Retired kid := by
  rw [backend.retireKeypair_eq] at answered ⊢
  change retireAnswer kid _ ((updateRetired kid moment table).selectKid kid) = _ at answered
  cases found : (updateRetired kid moment table).selectKid kid with
  | none =>
    rw [found] at answered
    cases answered
  | some stored =>
    rw [found, retireAnswer] at answered
    obtain ⟨member, same⟩ := selectKid_eq_some.mp found
    refine ⟨stored, member, same, ?_⟩
    by_contra isActive
    -- An active row that is read back was not changed, so the answer is a refusal.
    have unchanged : table.rows.countP (retirable table kid) = 0 := by
      rw [countP_eq_zero]
      intro row present selected
      have changed : row.retire moment ∈ (updateRetired kid moment table).rows := by
        rw [rows_updateRetired]
        exact mem_map.mpr ⟨row, present, if_pos selected⟩
      have found := (updateRetired kid moment table).eq_of_key_eq member changed
        (same.trans (retirable_iff.mp selected).1.symm)
      rw [found] at isActive
      exact isActive rfl
    simp [unchanged, Bool.eq_false_iff.mpr isActive] at answered

/-- A retirement leaves every retired row as it is. -/
theorem Backend.retireKeypair_keeps {other : String} (retired : table.Retired other)
    : (backend.retireKeypair kid moment table).2.Retired other := by
  obtain ⟨row, member, same, isRetired⟩ := retired
  have kept : retirable table kid row = false := by
    simp [retirable, Keypair.active, isRetired]
  refine ⟨row, ?_, same, isRetired⟩
  rw [backend.rows_retireKeypair]
  exact mem_map.mpr ⟨row, member, by rw [kept]; rfl⟩

end Retire

section Install

variable (state : KeyState) {replica other : Nat} (keypairs : List Keypair)

@[simp] theorem KeyState.memory_install :
    (state.install replica keypairs).memory replica = keypairs :=
  Function.update_self _ _ _

theorem KeyState.memory_install_of_ne (different : replica ≠ other) :
    (state.install replica keypairs).memory other = state.memory other :=
  Function.update_of_ne different.symm _ _

end Install

/-- No step brings a retired kid back. -/
theorem Happens.retired_stays {backend : Backend} {ticks : Time → Time → Prop}
    {before after : KeyState} {call : KeyCall} {answer : call.Answer} {kid : String}
    (happens : Happens backend ticks before call answer after)
    (retired : before.stored.Retired kid) : after.stored.Retired kid := by
  cases happens with
  | saved =>
    obtain ⟨row, member, same, isRetired⟩ := retired
    exact ⟨row, rows_saveKeypair _ member, same, isRetired⟩
  | retired => exact backend.retireKeypair_keeps retired
  | _ => exact retired

/-- The newest active keypair whose publish delay has elapsed signs, else the oldest active one. The
signer never gets older, and one status names it. -/
theorem signing_follows_rule (keypairs : List Keypair) (publishDelay : Time)
    (distinct : (keypairs.map Keypair.kid).Nodup)
    (sorted : keypairs.Pairwise fun older newer => older.createdAt ≤ newer.createdAt) :
    (∀ now, signing keypairs now publishDelay = none ↔ ∀ keypair ∈ keypairs, keypair.retired) ∧
    (∀ now signer, signing keypairs now publishDelay = some signer →
      signer ∈ keypairs ∧ signer.active ∧
        (∀ keypair ∈ keypairs, keypair.active → keypair.published publishDelay now →
          keypair.createdAt ≤ signer.createdAt) ∧
        (signer.published publishDelay now = false → ∀ keypair ∈ keypairs, keypair.active →
          keypair.published publishDelay now = false ∧ signer.createdAt ≤ keypair.createdAt)) ∧
    (∀ now later signer next, now ≤ later → signing keypairs now publishDelay = some signer →
      signing keypairs later publishDelay = some next → signer.createdAt ≤ next.createdAt) ∧
    ∀ now, (statusesAt keypairs now publishDelay).map KeypairStatus.keypair = keypairs ∧
      (statusesAt keypairs now publishDelay).countP KeypairStatus.signing =
        (if keypairs.any Keypair.active then 1 else 0) ∧
      ∀ entry ∈ statusesAt keypairs now publishDelay,
        entry.signing = decide (signing keypairs now publishDelay = some entry.keypair) ∧
        entry.activatesAt =
          if entry.keypair.active && !entry.signing && !entry.keypair.published publishDelay now
          then some (entry.keypair.createdAt + publishDelay) else none := by
  refine ⟨fun now => signing_eq_none_iff, ?_, fun _ _ _ _ => signing_mono sorted, fun now => ?_⟩
  · intro now signer found
    obtain ⟨member, active⟩ := signing_mem found
    have chosen := signing_some sorted found
    exact ⟨member, active, fun keypair present isActive => (chosen keypair present isActive).1,
      fun pending keypair present isActive => (chosen keypair present isActive).2 pending⟩
  · refine ⟨by simp [statusesAt, Function.comp_def], countP_signing distinct, ?_⟩
    intro entry listed
    obtain ⟨keypair, member, rfl⟩ := mem_map.mp listed
    refine ⟨statusesAt_signing distinct member, ?_⟩
    simp [Keypair.active, Keypair.published]

section Sample

/-- The sample process does not encrypt. -/
def sampleKeys (publishDelay : Time) : Keys where
  replica := 0
  alg := "RS256"
  publishDelay := publishDelay
  cipher := .ok none

def sampleKeypair (kid : String) (createdAt : Time) : Keypair where
  kid := kid
  alg := "RS256"
  privatePEM := ""
  publicPEM := ""
  createdAt := createdAt
  retiredAt := none

def sampleKeypairs : List Keypair := [sampleKeypair "first" 0, sampleKeypair "second" 10]

/-- The second keypair is still inside its publish delay. -/
theorem signing_follows_rule_sample : signing sampleKeypairs 12 5 = some (sampleKeypair "first" 0) ∧
    (statusesAt sampleKeypairs 12 5).countP KeypairStatus.signing = 1 :=
  ⟨by decide, ((signing_follows_rule sampleKeypairs 5 (by decide) (by decide)).2.2.2 12).2.1⟩

/-- The sample clock stands still. -/
def sampleScript (moment : Time) : KeyScript where
  now _ _ := moment
  generateRSA _ := .ok ⟨"fresh", "", ""⟩
  readNonce _ := .ok (.replicate _ 0)

end Sample

end Tempogate.Keys
