/-
This file shows that a sweep that runs alone ends and is exact on both backends.
-/

import Tempogate.Construction.Postgres.Sweep
import Tempogate.Proof.Sessions.Postgres
import Tempogate.Proof.Sweep.Sqlite

namespace Tempogate.Postgres

open Foundation Oidc State SweepStatement Program Table Admin Holdings List

/-- A statement takes at most a batch of its targets away, in the order in which it visits them. -/
structure Batches (visit : List String → List String) (statement : SweepStatement) (limit : Nat)
    (targets : Shelf → List String) (drop : List String → Shelf → Shelf) : Prop where
  executes : ∀ shelf, statement.execute visit shelf =
    (((visit (targets shelf)).take limit).length, drop ((visit (targets shelf)).take limit) shelf)
  distinct : ∀ shelf, (targets shelf).Nodup
  remaining : ∀ shelf keys, targets (drop keys shelf) = (targets shelf).filter (· ∉ keys)
  drop_drop : ∀ shelf first second, drop second (drop first shelf) = drop (first ++ second) shelf
  drop_congr : ∀ shelf first second, (∀ key, key ∈ first ↔ key ∈ second) →
    drop first shelf = drop second shelf

section Batches

variable {visit : List String → List String} {statement : SweepStatement}
  {targets : Shelf → List String} {drop : List String → Shelf → Shelf} {reaper : Reaper}
  {shelf : Shelf}

/-- With more rounds than there are targets, the loop takes all of them away. -/
theorem Batches.evaluate_batches (batches : Batches visit statement reaper.batch targets drop)
    (perm : ∀ keys, (visit keys).Perm keys) (rounds deleted : Nat)
    (enough : (targets shelf).length < rounds) :
    (State.batches reaper.batch (@call sweepStatements statement) rounds deleted).evaluate
        (sweepRespond visit) shelf =
      ((deleted + (targets shelf).length, none), drop (targets shelf) shelf) := by
  induction rounds generalizing deleted shelf with
  | zero => exact absurd enough (Nat.not_lt_zero _)
  | succ rounds ih =>
    obtain ⟨keys, taken⟩ : ∃ keys, keys = (visit (targets shelf)).take reaper.batch := ⟨_, rfl⟩
    have executed : (@call sweepStatements statement).evaluate (sweepRespond visit) shelf =
        (.ok keys.length, drop keys shelf) := by
      have answered := batches.executes shelf
      rw [← taken] at answered
      exact congrArg (fun result : Nat × Shelf => ((Except.ok result.1 : Except String Nat),
        result.2)) answered
    refine (evaluate_then executed).trans ?_
    change evaluate _ (if _ then _ else _) _ = _
    split
    next short =>
      have whole : keys = visit (targets shelf) := by
        rw [taken, length_take] at short
        rw [taken]
        exact take_of_length_le (by omega)
      rw [batches.drop_congr shelf keys (targets shelf) fun key => whole ▸ (perm _).mem_iff, whole,
        (perm _).length_eq]
      rfl
    next full =>
      have positive := reaper.positive
      have inside : keys ⊆ targets shelf := fun key member =>
        (perm _).mem_iff.mp (mem_of_mem_take (taken ▸ member))
      have once : keys.Nodup := by
        rw [taken]
        exact ((perm _).nodup_iff.mpr (batches.distinct shelf)).sublist (take_sublist _ _)
      have counted : (targets shelf).length = keys.length + (targets (drop keys shelf)).length := by
        rw [length_eq_countP_add_countP (· ∈ keys),
          countP_mem (batches.distinct shelf) once inside, batches.remaining,
          ← countP_eq_length_filter]
        simp
      refine (ih _ (by omega)).trans ?_
      have all : ∀ key, key ∈ keys ++ targets (drop keys shelf) ↔ key ∈ targets shelf := by
        intro key
        rw [batches.remaining, mem_append, mem_filter, decide_eq_true_eq]
        tauto
      rw [batches.drop_drop, batches.drop_congr _ _ _ all, counted, Nat.add_assoc]

end Batches

/-- A batch of selected keys is counted in full. -/
theorem countP_batch {Row : Type} {key : Row → String} (table : Table key)
    {visit : List String → List String} (perm : ∀ keys, (visit keys).Perm keys)
    (selects : Row → Bool) (limit : Nat) :
    (table.rows.countP fun row => key row ∈
        (visit ((table.rows.filter selects).map key)).take limit) =
      ((visit ((table.rows.filter selects).map key)).take limit).length := by
  have sublist : ((table.rows.filter selects).map key).Sublist (table.rows.map key) :=
    filter_sublist.map _
  refine table.countP_keys ?_ fun name member => ?_
  · exact ((perm _).nodup_iff.mpr (table.distinct.sublist sublist)).sublist (take_sublist _ _)
  · exact sublist.subset ((perm _).mem_iff.mp (mem_of_mem_take member))

section Expired

variable (table : ExpiringTable) {visit : List String → List String} {reaper : Reaper} {now : Time}
  {shelf : Shelf}

theorem deleteExpired_batches (now : Time) (limit : Nat) (perm : ∀ keys, (visit keys).Perm keys) :
    Batches visit (.deleteExpired table now limit) limit
      (fun shelf => expiredKeys shelf table now) (dropKeys table) where
  executes shelf := congrArg (·, _) (countP_batch (shelf.table table) perm _ limit)
  distinct shelf := (shelf.table table).distinct.sublist (filter_sublist.map _)
  remaining shelf keys := by
    rw [expiredKeys, dropKeys, Shelf.table_replace]
    exact (shelf.table table).selected_delete _ _
  drop_drop shelf first second := by
    rw [dropKeys, dropKeys, Shelf.table_replace, delete_delete, Shelf.replace_replace, dropKeys]
    simp
  drop_congr shelf first second same := by
    simp only [dropKeys, same]

/-- The rows of a table that have expired go. -/
def sweepTable (now : Time) (shelf : Shelf) : Shelf :=
  shelf.replace table ((shelf.table table).delete (expired now table))

variable {table}

/-- A sweep of one table removes exactly its expired rows and counts them. -/
theorem evaluate_reapExpired (perm : ∀ keys, (visit keys).Perm keys)
    (enough : (shelf.table table).rows.length < reaper.rounds) :
    (reaper.reapExpired now table).evaluate (sweepRespond visit) shelf =
      (((shelf.table table).rows.countP (expired now table), none),
        sweepTable table now shelf) := by
  have counted : (expiredKeys shelf table now).length =
      (shelf.table table).rows.countP (expired now table) := by
    rw [expiredKeys, length_map, ← countP_eq_length_filter]
    rfl
  have fewer : (expiredKeys shelf table now).length < reaper.rounds :=
    counted ▸ lt_of_le_of_lt countP_le_length enough
  refine ((deleteExpired_batches table now reaper.batch perm).evaluate_batches perm _ _
    fewer).trans ?_
  rw [counted, Nat.zero_add, dropKeys, expiredKeys, delete_keys]
  rfl

end Expired

section Denylist

variable {visit : List String → List String} {reaper : Reaper} {now : Time} {shelf : Shelf}

/-- The key of the denylist row expired before the bound. -/
def lapsedBefore (registry : Registry) (bound : Time) (row : DenylistRow) : Bool :=
  registry.integrationKeys.rows.any fun key => key.jti = row.jti &&
    key.expiresAt.any fun expiresAt => expiresAt < bound

/-- At most one key has a jti, so the join lists each lapsed row once. -/
theorem lapsedJTIs_eq (registry : Registry) (bound : Time) : lapsedJTIs registry bound =
      (registry.denylist.rows.filter (lapsedBefore registry bound)).map Admin.DenylistRow.jti := by
  unfold lapsedJTIs
  induction registry.denylist.rows with
  | nil => rfl
  | cons row rest ih =>
    rw [flatMap_cons, ih, filter_cons, lapsedBefore, ← any_filter,
      filter_eq_toList registry.unique]
    cases registry.integrationKeys.rows.find? fun key => key.jti = row.jti with
    | none => rfl
    | some key =>
      cases past : key.expiresAt.any fun expiresAt => expiresAt < bound <;> simp [past]

theorem lapsedBefore_eq : lapsedBefore shelf.registry (now - denylistGrace) =
    shelf.holdings.lapsed now := by
  have shift : ∀ expiresAt : Time, expiresAt < now - denylistGrace ↔
      expiresAt + denylistGrace < now :=
    fun _ => ⟨Int.add_lt_of_lt_sub_right, Int.lt_sub_right_of_add_lt⟩
  funext row
  simp only [lapsedBefore, Holdings.lapsed, Shelf.holdings, shift]

theorem deleteDenylist_batches (bound : Time) (limit : Nat)
    (perm : ∀ keys, (visit keys).Perm keys) :
    Batches visit (.deleteDenylist bound limit) limit
      (fun shelf => lapsedJTIs shelf.registry bound) dropJTIs where
  executes shelf := by
    rw [execute, lapsedJTIs_eq]
    exact congrArg (·, _) (countP_batch shelf.registry.denylist perm _ limit)
  distinct shelf := by
    rw [lapsedJTIs_eq]
    exact shelf.registry.denylist.distinct.sublist (filter_sublist.map _)
  remaining shelf keys := by
    rw [lapsedJTIs_eq, lapsedJTIs_eq]
    exact shelf.registry.denylist.selected_delete _ _
  drop_drop shelf first second := by
    simp [dropJTIs, delete_delete]
  drop_congr shelf first second same := by
    simp only [dropJTIs, same]

/-- The denylist rows whose keys lapsed go. -/
def sweepDenylist (now : Time) (shelf : Shelf) : Shelf :=
  { shelf with
    registry := { shelf.registry with
      denylist := shelf.registry.denylist.delete (shelf.holdings.lapsed now) } }

/-- A sweep of the denylist removes exactly the rows whose keys lapsed and counts them. -/
theorem evaluate_reapDenylist (perm : ∀ keys, (visit keys).Perm keys)
    (enough : shelf.registry.denylist.rows.length < reaper.rounds) :
    (reaper.reapDenylist now).evaluate (sweepRespond visit) shelf =
      ((shelf.registry.denylist.rows.countP (shelf.holdings.lapsed now), none),
        sweepDenylist now shelf) := by
  have targets := lapsedJTIs_eq shelf.registry (now - denylistGrace)
  rw [lapsedBefore_eq] at targets
  have counted : (lapsedJTIs shelf.registry (now - denylistGrace)).length =
      shelf.registry.denylist.rows.countP (shelf.holdings.lapsed now) := by
    rw [targets, length_map, ← countP_eq_length_filter]
  have fewer : (lapsedJTIs shelf.registry (now - denylistGrace)).length < reaper.rounds :=
    counted ▸ lt_of_le_of_lt countP_le_length enough
  refine ((deleteDenylist_batches (now - denylistGrace) reaper.batch
    perm).evaluate_batches perm _ _ fewer).trans ?_
  rw [counted, Nat.zero_add, targets, dropJTIs, delete_keys]
  rfl

end Denylist

section Reap

variable {visit : List String → List String} {reaper : Reaper} {now : Time} {shelf : Shelf}
  {Result : Type}

/-- A sweep of the refresh families runs on the database of the shelf. -/
theorem evaluate_families (program : Program reapStatements Result) (shelf : Shelf) :
    (program.interpret fun statement =>
        @call sweepStatements (.refreshFamilies statement)).evaluate (sweepRespond visit) shelf =
      ((program.evaluate (reapRespond visit) shelf.database).1,
        { shelf with database := (program.evaluate (reapRespond visit) shelf.database).2 }) := by
  induction program generalizing shelf with
  | done result => rfl
  | perform statement next ih => exact ih _ _

/-- The four tables are swept in this order. -/
def sweepTables (now : Time) (shelf : Shelf) : Shelf :=
  expiringTables.foldl (fun current table => sweepTable table now current) shelf

/-- The dead families go from the database with their tokens. -/
def sweepFamilies (refreshMaxLifetime now : Time) (shelf : Shelf) : Shelf :=
  { shelf with
    database := ReapStatement.deleteFamilies
      (Sessions.deadFamilies shelf.database.rows refreshMaxLifetime now) shelf.database }

/-- A sweep with more rounds than any table has rows removes exactly what it should. -/
theorem evaluate_reap (perm : ∀ keys, (visit keys).Perm keys) (paired : shelf.database.Paired)
    (tables : ∀ table, (shelf.table table).rows.length < reaper.rounds)
    (families : shelf.database.refreshFamilies.rows.length < reaper.rounds)
    (denials : shelf.registry.denylist.rows.length < reaper.rounds) :
    (reaper.reap now).evaluate (sweepRespond visit) shelf =
      (shelf.holdings.report reaper.refreshMaxLifetime now, sweepDenylist now
        (sweepFamilies reaper.refreshMaxLifetime now (sweepTables now shelf))) := by
  have expired : (reapTables "postgres" (reaper.reapExpired now) expiringTables .empty).evaluate
      (sweepRespond visit) shelf = (_, sweepTables now shelf) :=
    @evaluate_reapTables _ _ _ _ Shelf.table (sweepTable · now)
      (fun _ rows => rows.rows.length < reaper.rounds) now
      (fun _ _ ready => evaluate_reapExpired perm ready)
      (fun shelf _ _ different => shelf.table_replace_of_ne _ different) "postgres" _ (by decide)
      .empty shelf fun table _ => tables table
  refine (evaluate_then expired).trans ?_
  have dead : ((reaper.reapRefreshFamilies now).interpret fun statement =>
      @call sweepStatements (.refreshFamilies statement)).evaluate (sweepRespond visit)
        (sweepTables now shelf) = ((shelf.database.refreshTokens.rows.countP
          (shelf.holdings.dead reaper.refreshMaxLifetime now), none),
            sweepFamilies reaper.refreshMaxLifetime now (sweepTables now shelf)) := by
    have swept : (reaper.reapRefreshFamilies now).evaluate (reapRespond visit)
        (sweepTables now shelf).database = _ :=
      @evaluate_batches (sweepTables now shelf).database reaper now visit paired perm _ 0
        (lt_of_le_of_lt ((length_filter_le _ _).trans (length_map _).le) families)
    rw [evaluate_families, swept, Nat.zero_add]
    rfl
  have denied : (reaper.reapDenylist now).evaluate (sweepRespond visit)
      (sweepFamilies reaper.refreshMaxLifetime now (sweepTables now shelf)) = _ :=
    evaluate_reapDenylist perm denials
  refine (evaluate_then dead).trans ((evaluate_then denied).trans ?_)
  rfl

theorem holdings_swept (refreshMaxLifetime now : Time) (shelf : Shelf) :
    (sweepDenylist now (sweepFamilies refreshMaxLifetime now (sweepTables now shelf))).holdings =
      shelf.holdings.swept refreshMaxLifetime now := by
  refine Holdings.ext ?_ (rows_delete _ _) (rows_delete _ _) rfl
  funext table
  cases table <;> exact rows_delete _ _

end Reap

end Tempogate.Postgres

namespace Tempogate.State

open Foundation Oidc Table Postgres AuthRequest Postgres.Reaper List

/-- On both backends a sweep that runs alone ends, removes exactly the expired rows, the dead
families and the lapsed denylist rows, and reports how many rows of each table it removed. -/
theorem sweeps_are_exact (now : Time) :
    (∀ (reaper : Sqlite.Reaper) (shelf : Sqlite.Shelf), shelf.Numbered → ∃ bound, ∀ pages ≥ bound,
        let (report, after) := (Sqlite.Reaper.reap { reaper with pages := pages } now).evaluate
          Sqlite.shelfRespond shelf
        report = shelf.holdings.report reaper.refreshMaxLifetime now ∧
          after.holdings = shelf.holdings.swept reaper.refreshMaxLifetime now) ∧
    ∀ (reaper : Reaper) (shelf : Shelf) (visit : List String → List String),
      (∀ keys, (visit keys).Perm keys) → shelf.database.Paired → ∃ bound, ∀ rounds ≥ bound,
          let (report, after) := (reap { reaper with rounds := rounds } now).evaluate
            (sweepRespond visit) shelf
          report = shelf.holdings.report reaper.refreshMaxLifetime now ∧
            after.holdings = shelf.holdings.swept reaper.refreshMaxLifetime now ∧
            after.database.refreshFamilies.rows =
              shelf.database.refreshFamilies.rows.filter fun row => row.familyID ∉
                Sessions.deadFamilies shelf.holdings.refreshTokens
                  reaper.refreshMaxLifetime now := by
  constructor
  · intro reaper shelf numbered
    obtain ⟨tables, tokens, denials, -⟩ := shelf.holdings.lengths_le_size 0
    refine ⟨shelf.holdings.size 0 + 1, fun pages enough => ?_⟩
    have evaluated := @Sqlite.evaluate_reap { reaper with pages := pages } now shelf numbered
      (fun table => lt_of_le_of_lt (tables table) enough) (lt_of_le_of_lt tokens enough)
      (lt_of_le_of_lt denials enough)
    rw [evaluated]
    exact ⟨rfl, Sqlite.holdings_swept _ _ _⟩
  · intro reaper shelf visit perm paired
    obtain ⟨tables, -, denials, families⟩ :=
      shelf.holdings.lengths_le_size shelf.database.refreshFamilies.rows.length
    refine ⟨shelf.holdings.size shelf.database.refreshFamilies.rows.length + 1,
      fun rounds enough => ?_⟩
    have evaluated := @evaluate_reap visit { reaper with rounds := rounds } now shelf perm
      paired (fun table => lt_of_le_of_lt (tables table) enough) (lt_of_le_of_lt families enough)
      (lt_of_le_of_lt denials enough)
    rw [evaluated]
    refine ⟨rfl, holdings_swept _ _ _, (rows_delete _ _).trans ?_⟩
    refine filter_congr fun row _ => ?_
    rw [decide_not]
    rfl

/-- One request has expired at the time 20, and the other has not. -/
def agedRequests : Table internalState :=
  ((empty.append ⟨"old", "google", "cli", "http://127.0.0.1", "openid", "", "", "", "", 0, 10⟩
    not_mem_nil).append
      ⟨"new", "google", "cli", "http://127.0.0.1", "openid", "", "", "", "", 0, 100⟩ (by decide))

/-- Both sessions are spent, and only the first one has expired at that time. -/
def agedTokens : Table RefreshRow.tokenHash :=
  (empty.append ⟨"1", "", "cli", "google", "", "", "gone", 0, 0, 10, some 5, none⟩
    not_mem_nil).append ⟨"2", "", "cli", "google", "", "", "kept", 0, 0, 100, some 5, none⟩
      (by decide)

def agedFamilies : Table FamilyRow.familyID :=
  (empty.append ⟨"gone", none, of_decide_eq_true rfl⟩ not_mem_nil).append
    ⟨"kept", none, of_decide_eq_true rfl⟩ (by decide)

def agedStore : Sqlite.Shelf :=
  ⟨{ Sqlite.Store.empty with authRequests := agedRequests, refreshTokens := agedTokens }, .empty,
    .empty⟩

def agedDatabase : Shelf :=
  ⟨⟨agedFamilies, agedTokens, .empty, agedRequests, .empty⟩, .empty, .empty⟩

/-- These are the requests and the sessions of a shelf. -/
def names (holdings : Holdings) : List String × List String :=
  ((holdings.expiring .authRequests).map internalState,
    holdings.refreshTokens.map RefreshRow.familyID)

/-- Both sweeps keep the request that has not expired and the session that has not. -/
theorem sample_sweeps_are_exact :
    (∃ pages, names ((Sqlite.Reaper.reap ⟨0, 1, Nat.one_pos, pages, id, .refl⟩ 20).evaluate
      Sqlite.shelfRespond agedStore).2.holdings = (["new"], ["kept"])) ∧
    ∃ rounds, names ((reap ⟨0, 1, Nat.one_pos, rounds⟩ 20).evaluate
      (sweepRespond id) agedDatabase).2.holdings = (["new"], ["kept"]) := by
  obtain ⟨sqlite, postgres⟩ := sweeps_are_exact 20
  constructor
  · obtain ⟨bound, exact⟩ := sqlite ⟨0, 1, Nat.one_pos, 0, id, .refl⟩ agedStore {
      expiring := fun table => by
        cases table with
        | authRequests => exact (by decide : ∀ entry ∈ agedRequests.entries, 0 < entry.rowid)
        | _ => exact numbered_empty
      refreshTokens := (by decide : ∀ entry ∈ agedTokens.entries, 0 < entry.rowid)
      denylist := numbered_empty }
    exact ⟨bound, (congrArg names (exact bound le_rfl).2).trans (by decide)⟩
  · obtain ⟨bound, exact⟩ := postgres ⟨0, 1, Nat.one_pos, 0⟩ agedDatabase id .refl fun _ => by
      simp [Database.HasFamily, Sessions.Known, Database.rows, agedDatabase, agedFamilies,
        agedTokens, append, Table.rows, empty]
    exact ⟨bound, (congrArg names (exact bound le_rfl).2.1).trans (by decide)⟩

end Tempogate.State
