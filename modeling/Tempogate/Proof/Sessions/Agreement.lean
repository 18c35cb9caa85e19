/-
This file shows that both backends answer every sequence of operations on sessions alike.
-/

import Tempogate.Proof.Sessions.Postgres
import Tempogate.Proof.Sessions.Sqlite

namespace Tempogate.Sessions

open Foundation Oidc Tempogate.State LedgerAction RefreshRow List

section Order

variable {crypto : Crypto} {rows others : List RefreshRow}

theorem apply_perm (perm : rows.Perm others) (action : LedgerAction) :
    (action.apply rows).Perm (action.apply others) := by
  cases action with
  | keep => exact perm
  | append row => exact perm.append_right _
  | purge families => exact perm.filter _
  | _ => exact perm.map _

theorem deadFamilies_perm (perm : rows.Perm others) (refreshMaxLifetime now : Time)
    (familyID : String) :
    familyID ∈ deadFamilies rows refreshMaxLifetime now ↔
      familyID ∈ deadFamilies others refreshMaxLifetime now := by
  simp only [mem_deadFamilies, perm.mem_iff]

/-- A search by a token hash does not depend on the order of the tokens. -/
theorem find_hash_perm (perm : rows.Perm others) (distinct : (rows.map tokenHash).Nodup)
    {tokenHash : String} {selects : RefreshRow → Bool}
    (ofHash : ∀ row, selects row = true → row.tokenHash = tokenHash) :
    rows.find? selects = others.find? selects :=
  Table.find_perm perm fun row member other stored hit found =>
    inj_on_of_nodup_map distinct member stored ((ofHash row hit).trans (ofHash other found).symm)

/-- The order of the tokens matters neither to the answer nor to the ledger. -/
theorem Meets.perm {operation : Operation} {answer : operation.Answer} {after : List RefreshRow}
    (meets : Meets crypto others operation answer after) (perm : rows.Perm others)
    (distinct : (rows.map tokenHash).Nodup) :
    Fits operation (expected crypto rows operation).1 answer ∧
      ((expected crypto rows operation).2.apply rows).Perm after := by
  obtain ⟨fits, rfl⟩ := meets
  cases operation with
  | refresh call =>
    have same : expected crypto rows (.refresh call) = expected crypto others (.refresh call) := by
      cases call with
      | saveRefresh refresh =>
        simp only [expected, Closed, perm.any_eq, (perm.map tokenHash).mem_iff]
        rfl
      | consumeRefresh token clientID moment =>
        have live := @find_hash_perm _ _ perm distinct (crypto.hash token)
          (consumes (crypto.hash token) clientID)
          fun row hit => by
            simp only [consumes, Bool.and_eq_true, decide_eq_true_eq] at hit
            exact hit.1.1
        have spent := @find_hash_perm _ _ perm distinct (crypto.hash token)
          (Books.spent (crypto.hash token) clientID)
          fun row hit => by
            simp only [Books.spent, Bool.and_eq_true, decide_eq_true_eq] at hit
            exact hit.1.1
        simp only [expected, refusal, live, spent]
      | revokeRefreshFamily familyID moment =>
        simp only [expected, Known, ended, perm.any_eq, perm.countP_eq]
        rfl
      | revokeRefreshByEmail | revokeRefreshBySubject => simp only [expected, ended, perm.countP_eq]
    rw [same]
    exact ⟨fits, apply_perm perm _⟩
  | listRefreshSessions filter now =>
    obtain ⟨_, sessions, same, rfl, ordered, sorted⟩ := fits
    obtain rfl := Except.ok.inj same
    exact ⟨⟨_, sessions, rfl, rfl, ordered.trans ((perm.filter _).map _).symm, sorted⟩, perm⟩
  | sweep refreshMaxLifetime now =>
    have members := deadFamilies_perm perm refreshMaxLifetime now
    refine ⟨?_, ?_⟩
    · refine Eq.trans fits ?_
      simp only [expected, members, perm.countP_eq]
      rfl
    · simp only [expected, apply, members]
      exact perm.filter _

end Order

section Saved

variable {crypto : Crypto} {rows : List RefreshRow}

/-- These are the rows that the operations save. -/
def saved (crypto : Crypto) (operations : List Operation) : List RefreshRow :=
  operations.filterMap fun
    | .refresh (.saveRefresh refresh) => some (.ofRefresh crypto refresh)
    | _ => none

theorem Shared.subset {others : List RefreshRow} (shared : Shared others) (inside : rows ⊆ others) :
    Shared rows :=
  fun first isFirst second isSecond => shared first (inside isFirst) second (inside isSecond)

/-- An operation appends no row but the one it saves. -/
theorem expected_append {operation : Operation} {row : RefreshRow}
    (appends : (expected crypto rows operation).2 = .append row) :
    row ∈ saved crypto [operation] := by
  cases operation with
  | refresh call =>
    cases call with
    | saveRefresh refresh =>
      rw [expected] at appends
      split at appends
      · cases appends
      · split at appends
        · cases appends
        · cases appends
          exact mem_singleton_self _
    | revokeRefreshByEmail email moment => cases appends
    | revokeRefreshBySubject connectorID subject moment => cases appends
    | _ =>
      rw [expected] at appends
      split at appends <;> cases appends
  | _ => cases appends

/-- The tokens of a family keep their owner while the operations run. -/
theorem Shared.step {operation : Operation} {rest : List Operation}
    (shared : Shared (rows ++ saved crypto (operation :: rest))) :
    Shared ((expected crypto rows operation).2.apply rows ++ saved crypto rest) := by
  have origin : ∀ row ∈ (expected crypto rows operation).2.apply rows ++ saved crypto rest,
      ∃ earlier ∈ rows ++ saved crypto (operation :: rest), earlier.Evolves row := by
    intro row member
    have split : saved crypto (operation :: rest) = saved crypto [operation] ++ saved crypto rest :=
      @List.filterMap_append _ _ [operation] rest _
    rcases mem_append.mp member with changed | later
    · rcases exists_of_mem_apply changed with appends | ⟨earlier, present, evolves⟩
      · refine ⟨row, mem_append_right _ ?_, .refl row⟩
        rw [split]
        exact mem_append_left _ (expected_append appends)
      · exact ⟨earlier, mem_append_left _ present, evolves⟩
    · refine ⟨row, mem_append_right _ ?_, .refl row⟩
      rw [split]
      exact mem_append_right _ later
  intro first isFirst second isSecond family
  obtain ⟨early, isEarly, firstEvolves⟩ := origin first isFirst
  obtain ⟨other, isOther, secondEvolves⟩ := origin second isSecond
  rw [firstEvolves.familyID_eq, secondEvolves.familyID_eq] at family
  have owner := shared early isEarly other isOther family
  rw [firstEvolves.fields, secondEvolves.fields]
  exact ⟨owner.client, owner.connector, owner.subject, owner.email⟩

end Saved

section Agreement

variable {crypto : Crypto} {rounds : Nat}

/-- The two backends hold the same tokens, and each of them keeps its own invariant. -/
structure Related (store : Sqlite.Store) (database : Postgres.Database) : Prop where
  perm : store.rows.Perm database.rows
  numbered : store.refreshTokens.Numbered
  marked : database.Marked

variable {store : Sqlite.Store} {database : Postgres.Database} {operation : Operation}

/-- Related backends answer one operation alike and stay related. -/
theorem Related.perform (related : Related store database) (shared : Shared store.rows)
    (first second : Choices) (operation : Operation)
    (storable : ∀ text ∈ texts operation, Storable text) :
    SameAnswer ⟨operation, (perform crypto first .sqlite operation store).1⟩
        ⟨operation, (perform crypto second (.postgres rounds) operation database).1⟩ ∧
      Related (perform crypto first .sqlite operation store).2
        (perform crypto second (.postgres rounds) operation database).2 := by
  obtain ⟨⟨fits, ledger⟩, numbered⟩ :=
    @Sqlite.perform_meets crypto store first related.numbered operation
  obtain ⟨meets, marked⟩ := @Postgres.perform_meets crypto database rounds second related.marked
    (shared.subset related.perm.symm.subset) operation storable
  obtain ⟨others, perm⟩ := meets.perm related.perm store.refreshTokens.distinct
  exact ⟨.of_fits fits others, ledger ▸ perm, numbered, marked⟩

/-- Related backends answer every sequence of operations alike. -/
theorem Related.performAll (related : Related store database) (first second : Nat → Choices)
    (operations : List Operation) (shared : Shared (store.rows ++ saved crypto operations))
    (storable : ∀ operation ∈ operations, ∀ text ∈ texts operation, Storable text) :
    List.Forall₂ SameAnswer (performAll crypto first .sqlite operations store).1
      (performAll crypto second (.postgres rounds) operations database).1 := by
  induction operations generalizing store database with
  | nil => exact .nil
  | cons operation rest ih =>
    have owned : Shared store.rows := shared.subset (subset_append_left _ _)
    obtain ⟨same, stays⟩ := @Related.perform crypto rounds store database related owned
      (first rest.length) (second rest.length) operation (storable _ mem_cons_self)
    have ledger := (@Sqlite.perform_meets crypto store (first rest.length) related.numbered
      operation).1.ledger
    have remains : Shared (Sqlite.Store.rows (Sessions.perform crypto (first rest.length) .sqlite
        operation store).2 ++ saved crypto rest) := by
      rw [ledger]
      exact shared.step
    exact .cons same (ih stays remains fun operation later =>
      storable operation (mem_cons_of_mem _ later))

theorem related_start : Related (start .sqlite) (start (.postgres rounds)) :=
  ⟨.refl _, Table.numbered_empty, fun _ => rfl, fun _ => rfl⟩

theorem precedes_trans {first second third : RefreshSession} (before : first.Precedes second)
    (after : second.Precedes third) : first.Precedes third := by
  rcases before with smaller | ⟨same, earlier⟩
  · rcases after with larger | ⟨same, -⟩
    · exact .inl (String.lt_trans smaller larger)
    · exact .inl (same ▸ smaller)
  · rcases after with larger | ⟨equal, later⟩
    · exact .inl (same ▸ larger)
    · exact .inr ⟨same.trans equal, le_trans earlier later⟩

theorem precedes_total (first second : RefreshSession) :
    first.Precedes second ∨ second.Precedes first := by
  rcases Std.lt_trichotomy first.email second.email with smaller | same | larger
  · exact .inl (.inl smaller)
  · rcases le_total first.authTime second.authTime with earlier | later
    · exact .inl (.inr ⟨same, earlier⟩)
    · exact .inr (.inr ⟨same.symm, later⟩)
  · exact .inr (.inl larger)

instance (first second : RefreshSession) : Decidable (first.Precedes second) :=
  inferInstanceAs (Decidable (_ ∨ _))

/-- These choices sort by the key and visit the families as they come. -/
def Choices.sample : Choices where
  batch := 1
  positive := Nat.one_pos
  visit := id
  visit_perm := List.Perm.refl
  sort rows := rows.mergeSort fun first second =>
    decide ((RefreshSession.ofRow first).Precedes (.ofRow second))
  sort_perm rows := mergeSort_perm rows _
  sorted rows := by
    refine (pairwise_mergeSort ?_ ?_ rows).imp of_decide_eq_true
    · intro first second third before after
      exact decide_eq_true (precedes_trans (of_decide_eq_true before) (of_decide_eq_true after))
    · intro first second
      rw [Bool.or_eq_true, decide_eq_true_eq, decide_eq_true_eq]
      exact precedes_total _ _

/-- A sign-in, its rotation, a listing, a revocation and two sweeps. -/
def rotation : List Operation :=
  [.refresh (.saveRefresh sampleRefresh), .refresh (.consumeRefresh "token" "client" 1),
    .refresh (.saveRefresh { sampleRefresh with token := "next" }),
    .listRefreshSessions ⟨"", "", ""⟩ 2, .sweep 0 3,
    .refresh (.revokeRefreshByEmail "Person@example.com" 4), .sweep 1 5]

end Agreement

end Tempogate.Sessions
