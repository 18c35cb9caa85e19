/-
This file defines what a sweep removes and reports, and shows that a SQLite sweep that runs alone
ends and removes exactly that.
-/

import Tempogate.Construction.Sqlite.Sweep
import Tempogate.Proof.Sessions.Sqlite

namespace Tempogate.State

open Foundation Oidc Holdings List

variable {rowids : List Nat}

namespace Holdings

variable (holdings : Holdings) (refreshMaxLifetime now : Time)

def expired (table : ExpiringTable) (row : table.Row) : Bool := table.expiresAt row < now

/-- A family goes with all its rows when every one of them is dead. -/
def dead (row : RefreshRow) : Bool :=
  row.familyID ∈ Sessions.deadFamilies holdings.refreshTokens refreshMaxLifetime now

/-- The key of a denylist row expired more than the grace ago. -/
def lapsed (row : Admin.DenylistRow) : Bool :=
  holdings.integrationKeys.any fun key => key.jti = row.jti &&
    key.expiresAt.any fun expiresAt => expiresAt + Admin.denylistGrace < now

def swept : Holdings where
  expiring table := (holdings.expiring table).filter fun row => !expired now table row
  refreshTokens :=
    holdings.refreshTokens.filter fun row => !holdings.dead refreshMaxLifetime now row
  denylist := holdings.denylist.filter fun row => !holdings.lapsed now row
  integrationKeys := holdings.integrationKeys

/-- Every table is reported with the number of its rows that go, and nothing has failed. -/
def report : Report where
  counts := expiringTables.map (fun table =>
      (table.name, (holdings.expiring table).countP (expired now table))) ++
    [("refresh_tokens", holdings.refreshTokens.countP (holdings.dead refreshMaxLifetime now)),
      ("jti_denylist", holdings.denylist.countP (holdings.lapsed now))]
  errors := []

end Holdings

/-- The rows of all tables together, with those of one more. -/
def Holdings.size (holdings : Holdings) (families : Nat) : Nat :=
  (holdings.expiring .authRequests).length + (holdings.expiring .authCodes).length +
    (holdings.expiring .deviceCodes).length + (holdings.expiring .browserSessions).length +
    holdings.refreshTokens.length + holdings.denylist.length + families

theorem Holdings.lengths_le_size (holdings : Holdings) (families : Nat) :
    (∀ table, (holdings.expiring table).length ≤ holdings.size families) ∧
      holdings.refreshTokens.length ≤ holdings.size families ∧
      holdings.denylist.length ≤ holdings.size families ∧ families ≤ holdings.size families := by
  unfold size
  refine ⟨fun table => ?_, ?_, ?_, ?_⟩
  · cases table <;> omega
  all_goals omega

/-- Sweeps of single tables that leave the other tables alone make a sweep of all of them. -/
theorem evaluate_reapTables {signature : Signature} {Shelf : Type}
    {respond : Responder signature Shelf}
    {reap : ExpiringTable → Program signature (Nat × Option String)}
    {rows : Shelf → (table : ExpiringTable) → Table table.key}
    {sweep : ExpiringTable → Shelf → Shelf}
    {ready : (table : ExpiringTable) → Table table.key → Prop} {now : Time}
    (sweeps : ∀ shelf table, ready table (rows shelf table) → (reap table).evaluate respond shelf =
        (((rows shelf table).rows.countP (expired now table), none), sweep table shelf))
    (spares : ∀ shelf table other, other ≠ table →
      rows (sweep table shelf) other = rows shelf other)
    (backend : String) {tables : List ExpiringTable} (distinct : tables.Nodup) (report : Report)
    {shelf : Shelf} (prepared : ∀ table ∈ tables, ready table (rows shelf table)) :
    (reapTables backend reap tables report).evaluate respond shelf = ({ report with
          counts := report.counts ++ tables.map fun table =>
            (table.name, (rows shelf table).rows.countP (expired now table)) },
        tables.foldl (fun current table => sweep table current) shelf) := by
  induction tables generalizing report shelf with
  | nil =>
    rw [map_nil, append_nil]
    rfl
  | cons table rest ih =>
    obtain ⟨new, distinct⟩ := nodup_cons.mp distinct
    have others : ∀ other ∈ rest, rows (sweep table shelf) other = rows shelf other :=
      fun other member => spares shelf table other fun same => new (same ▸ member)
    refine (Program.evaluate_then (sweeps shelf table (prepared table (.head _)))).trans ?_
    refine (ih distinct _ fun other member => ?_).trans ?_
    · rw [others other member]
      exact prepared other (.tail _ member)
    · have counts : (rest.map fun other => (other.name, (rows (sweep table shelf)
          other).rows.countP (expired now other))) = rest.map fun other =>
            (other.name, (rows shelf other).rows.countP (expired now other)) :=
        map_congr_left fun other member => by rw [others other member]
      rw [counts]
      simp [Report.note]

end Tempogate.State

namespace Tempogate.Sqlite

open Foundation Oidc State Reaper Holdings Table Program Admin.Registry Admin Shelf List

/-- A walk reads a table as its rowids with a time each, and deletes by rowid. -/
structure Walks (select : Nat → Nat → Program shelfStatements (Except String (List (Nat × Time))))
    (delete : List Nat → Program shelfStatements (Except String Nat))
    (view : Shelf → List (Nat × Time)) (drop : List Nat → Shelf → Shelf) : Prop where
  selects : ∀ shelf cursor limit, (select cursor limit).evaluate shelfRespond shelf =
    (.ok (((view shelf).filter fun row => cursor < row.1).take limit), shelf)
  deletes : ∀ shelf rowids, rowids.Nodup → rowids ⊆ (view shelf).map Prod.fst →
    (delete rowids).evaluate shelfRespond shelf = (.ok rowids.length, drop rowids shelf)
  ordered : ∀ shelf, (view shelf).Pairwise fun first second => first.1 < second.1
  view_drop : ∀ shelf rowids,
    view (drop rowids shelf) = (view shelf).filter fun row => row.1 ∉ rowids
  drop_nil : ∀ shelf, drop [] shelf = shelf
  drop_drop : ∀ shelf first second, drop second (drop first shelf) = drop (first ++ second) shelf

section Walk

variable {select : Nat → Nat → Program shelfStatements (Except String (List (Nat × Time)))}
  {delete : List Nat → Program shelfStatements (Except String Nat)}
  {view : Shelf → List (Nat × Time)} {drop : List Nat → Shelf → Shelf} {expired : Time → Bool}
  {reaper : Reaper} {shelf : Shelf}

theorem doomed_append (first second : List (Nat × Time)) : doomed expired (first ++ second) =
      doomed expired first ++ doomed expired second := by
  simp [doomed]

variable (walks : Walks select delete view drop)

include walks

theorem Walks.evaluate_deleteIn (distinct : rowids.Nodup)
    (stored : rowids ⊆ (view shelf).map Prod.fst) :
    (deleteIn delete rowids).evaluate shelfRespond shelf =
      (.ok rowids.length, drop rowids shelf) := by
  unfold deleteIn
  split
  next empty =>
    rw [empty, walks.drop_nil]
    rfl
  · exact walks.deletes shelf rowids distinct stored

/-- The expired rows of a part of the view are distinct and stored. -/
theorem Walks.doomed_stored (expired : Time → Bool) {page : List (Nat × Time)}
    (part : page.Sublist (view shelf)) :
    (doomed expired page).Nodup ∧ doomed expired page ⊆ (view shelf).map Prod.fst := by
  have sublist : (doomed expired page).Sublist ((view shelf).map Prod.fst) :=
    (filter_sublist.trans part).map _
  have distinct : ((view shelf).map Prod.fst).Nodup :=
    pairwise_map.mpr ((walks.ordered shelf).imp Nat.ne_of_lt)
  exact ⟨distinct.sublist sublist, sublist.subset⟩

/-- Deleting rows up to the cursor leaves alone what comes after it. -/
theorem Walks.beyond_drop (shelf : Shelf) {cursor : Nat}
    (passed : ∀ rowid ∈ rowids, rowid ≤ cursor) :
    ((view (drop rowids shelf)).filter fun row => cursor < row.1) =
      (view shelf).filter fun row => cursor < row.1 := by
  rw [walks.view_drop, filter_filter]
  refine filter_congr fun row _ => ?_
  by_cases later : cursor < row.1
  · have kept : row.1 ∉ rowids := fun member => absurd (passed row.1 member) (Nat.not_le.mpr later)
    simp [later, kept]
  · simp [later]

/-- A page holds no rowid beyond its last one. -/
theorem Walks.le_last (expired : Time → Bool) {page older : List (Nat × Time)} {last : Nat × Time}
    (part : page.Sublist (view shelf)) (ends : page = older ++ [last]) :
    ∀ rowid ∈ doomed expired page, rowid ≤ last.1 := by
  intro rowid member
  obtain ⟨row, listed, rfl⟩ := mem_map.mp member
  have present := mem_of_mem_filter listed
  have sorted := (walks.ordered shelf).sublist part
  rw [ends, mem_append, mem_singleton] at present
  rw [ends, pairwise_append] at sorted
  rcases present with before | rfl
  · exact (sorted.2.2 row before last (mem_singleton_self _)).le
  · exact le_rfl

/-- With more pages than there are rows, the walk deletes every expired row after its cursor. -/
theorem Walks.evaluate_walk (pages cursor deleted : Nat)
    (enough : ((view shelf).filter fun row => cursor < row.1).length < pages) :
    (walk reaper.batch select expired delete pages cursor deleted).evaluate shelfRespond shelf =
      ((deleted + (doomed expired ((view shelf).filter fun row => cursor < row.1)).length, none),
        drop (doomed expired ((view shelf).filter fun row => cursor < row.1)) shelf) := by
  induction pages generalizing cursor deleted shelf with
  | zero => exact absurd enough (Nat.not_lt_zero _)
  | succ pages ih =>
    generalize rest : ((view shelf).filter fun row => cursor < row.1) = remaining at enough ⊢
    have part : (remaining.take reaper.batch).Sublist (view shelf) :=
      (take_sublist _ _).trans (rest ▸ filter_sublist)
    obtain ⟨distinct, stored⟩ := walks.doomed_stored expired part
    have selected := walks.selects shelf cursor reaper.batch
    rw [rest] at selected
    refine (evaluate_then selected).trans ?_
    refine (evaluate_then (walks.evaluate_deleteIn distinct stored)).trans ?_
    change evaluate _ (if _ then _ else _) _ = _
    split
    next short =>
      have whole : remaining.take reaper.batch = remaining := by
        refine take_of_length_le ?_
        rw [length_take] at short
        omega
      rw [whole]
      rfl
    next full =>
      have nonempty : remaining.take reaper.batch ≠ [] := by
        intro empty
        rw [empty] at full
        exact full reaper.positive
      obtain ⟨last, ends⟩ : ∃ last, (remaining.take reaper.batch).getLast? = some last :=
        ⟨_, List.getLast?_eq_some_getLast nonempty⟩
      obtain ⟨older, page⟩ := List.getLast?_eq_some_iff.mp ends
      have split : remaining = remaining.take reaper.batch ++
          (view shelf).filter fun row => last.1 < row.1 := by
        have parts := @filter_page _ _ _ (walks.ordered shelf) cursor _ _ (rest ▸ ends)
        rwa [rest] at parts
      have joined := (congrArg (doomed expired) split).trans (doomed_append _ _)
      have same := walks.beyond_drop shelf (walks.le_last expired part page)
      have shorter : ((view (drop (doomed expired (remaining.take reaper.batch))
          shelf)).filter fun row => last.1 < row.1).length < pages := by
        rw [same]
        have length := congrArg List.length split
        rw [length_append] at length
        have positive := length_pos_iff.mpr nonempty
        omega
      rw [ends]
      refine (ih last.1 _ shorter).trans ?_
      rw [same, walks.drop_drop, joined, length_append, Nat.add_assoc]

end Walk

section Expired

variable (table : ExpiringTable)

def rowsSeen (shelf : Shelf) : List (Nat × Time) :=
  (shelf.table table).entries.map fun entry => (entry.rowid, table.expiresAt entry.row)

def dropRowids (rowids : List Nat) (shelf : Shelf) : Shelf :=
  shelf.replace table ((shelf.table table).deleteRowids rowids)

theorem reapExpired_walks : Walks (fun cursor limit => ask (.selectPage table cursor limit))
    (fun rowids => ask (.deleteRowids table rowids)) (rowsSeen table) (dropRowids table) where
  selects shelf cursor limit := by
    rw [rowsSeen, filter_map, ← map_take]
    rfl
  deletes shelf rowids distinct stored := by
    change (Except.ok ((shelf.table table).entries.countP _), _) = _
    rw [(shelf.table table).countP_rowids distinct]
    · rfl
    · rwa [rowsSeen, map_map] at stored
  ordered shelf := pairwise_map.mpr (pairwise_map.mp (shelf.table table).ordered)
  view_drop shelf rowids := by
    rw [rowsSeen, dropRowids, table_replace, rowsSeen, filter_map]
    rfl
  drop_nil shelf := by rw [dropRowids, deleteRowids_nil, replace_self]
  drop_drop shelf first second := by
    rw [dropRowids, dropRowids, table_replace, deleteRowids_deleteRowids,
      replace_replace, dropRowids]

/-- The rows of a table that have expired go. -/
def sweepTable (now : Time) (shelf : Shelf) : Shelf :=
  shelf.replace table ((shelf.table table).delete (expired now table))

variable {table} {reaper : Reaper} {now : Time} {shelf : Shelf}

theorem mem_doomed_rowsSeen {entry : Entry table.Row}
    (present : entry ∈ (shelf.table table).entries) :
    entry.rowid ∈ doomed (fun expiresAt => now > expiresAt) (rowsSeen table shelf) ↔
      expired now table entry.row = true := by
  simp only [doomed, rowsSeen, mem_map, mem_filter, gt_iff_lt, decide_eq_true_eq, expired]
  constructor
  · rintro ⟨row, ⟨⟨found, stored, rfl⟩, expired⟩, same⟩
    rwa [← (shelf.table table).eq_of_rowid_eq stored present same]
  · intro expired
    exact ⟨_, ⟨⟨entry, present, rfl⟩, expired⟩, rfl⟩

theorem length_doomed_rowsSeen :
    (doomed (fun expiresAt => now > expiresAt) (rowsSeen table shelf)).length =
      (shelf.table table).rows.countP (expired now table) := by
  rw [doomed, rowsSeen, filter_map, length_map, length_map,
    ← countP_eq_length_filter, rows, countP_map]
  rfl

/-- A sweep of one table removes exactly its expired rows and counts them. -/
theorem evaluate_reapExpired (numbered : (shelf.table table).Numbered)
    (enough : (shelf.table table).rows.length < reaper.pages) :
    (reaper.reapExpired now table).evaluate shelfRespond shelf =
      (((shelf.table table).rows.countP (expired now table), none),
        sweepTable table now shelf) := by
  have all : ((rowsSeen table shelf).filter fun row => 0 < row.1) = rowsSeen table shelf :=
    filter_eq_self.mpr fun row member => by
      obtain ⟨entry, present, rfl⟩ := mem_map.mp member
      exact decide_eq_true (numbered entry present)
  have fewer : ((rowsSeen table shelf).filter fun row => 0 < row.1).length < reaper.pages := by
    rw [all, rowsSeen, length_map]
    rwa [rows, length_map] at enough
  refine ((reapExpired_walks table).evaluate_walk _ _ _ fewer).trans ?_
  rw [all, length_doomed_rowsSeen, Nat.zero_add, dropRowids,
    deleteRowids_eq fun entry present => mem_doomed_rowsSeen present]
  rfl

end Expired

section Denylist

variable (registry : Registry)

/-- The key with the jti has this expiry. -/
def expiryOf (jti : String) : Option Time :=
  (registry.integrationKeys.rows.find? fun key => key.jti = jti).bind Admin.IntegrationKey.expiresAt

/-- At most one key has a jti, so the join pairs a denylist row with at most one expiry. -/
theorem expiries_eq (jti : String) {Item : Type} (pair : Time → Item) :
    ((registry.integrationKeys.rows.filter fun key => key.jti = jti).filterMap fun key =>
      key.expiresAt.map pair) = ((expiryOf registry jti).map pair).toList := by
  rw [filter_eq_toList registry.unique, expiryOf]
  cases registry.integrationKeys.rows.find? fun key => key.jti = jti with
  | none => rfl
  | some key =>
    cases stamped : key.expiresAt with
    | none => simp [stamped]
    | some expiresAt => simp [stamped]

theorem lapsed_eq (holds : Time → Bool) (jti : String) :
    (registry.integrationKeys.rows.any fun key => key.jti = jti && key.expiresAt.any holds) =
      (expiryOf registry jti).any holds := by
  rw [← any_filter, filter_eq_toList registry.unique, expiryOf]
  cases registry.integrationKeys.rows.find? fun key => key.jti = jti with
  | none => rfl
  | some key => simp

def denialsSeen (shelf : Shelf) : List (Nat × Time) :=
  shelf.registry.denylist.entries.filterMap fun entry =>
    (expiryOf shelf.registry entry.row.jti).map fun expiresAt => (entry.rowid, expiresAt)

def dropDenials (rowids : List Nat) (shelf : Shelf) : Shelf :=
  { shelf with registry := (shelf.registry.deleteDenylist rowids).2 }

theorem mem_denialsSeen {shelf : Shelf} {row : Nat × Time} :
    row ∈ denialsSeen shelf ↔ ∃ entry ∈ shelf.registry.denylist.entries,
      entry.rowid = row.1 ∧ expiryOf shelf.registry entry.row.jti = some row.2 := by
  obtain ⟨rowid, expiresAt⟩ := row
  simp only [denialsSeen, mem_filterMap, Option.map_eq_some_iff, Prod.mk.injEq]
  constructor
  · rintro ⟨entry, present, _, found, same, rfl⟩
    exact ⟨entry, present, same, found⟩
  · rintro ⟨entry, present, same, found⟩
    exact ⟨entry, present, expiresAt, found, same, rfl⟩

theorem denialsSeen_stored {shelf : Shelf} :
    (denialsSeen shelf).map Prod.fst ⊆ shelf.registry.denylist.entries.map Entry.rowid := by
  intro rowid member
  obtain ⟨row, seen, rfl⟩ := mem_map.mp member
  obtain ⟨entry, present, same, -⟩ := mem_denialsSeen.mp seen
  exact mem_map.mpr ⟨entry, present, same⟩

theorem selectDenylistPage_eq (cursor limit : Nat) (shelf : Shelf) :
    shelf.registry.selectDenylistPage cursor limit =
      ((denialsSeen shelf).filter fun row => cursor < row.1).take limit := by
  simp only [selectDenylistPage, expiries_eq, ← filterMap_eq_flatMap_toList]
  rw [denialsSeen, filter_filterMap, filterMap_filter]
  congr 2
  funext entry
  cases expiryOf shelf.registry entry.row.jti with
  | none => simp
  | some expiresAt => by_cases later : cursor < entry.rowid <;> simp [later, Option.filter_some]

/-- The denylist is walked by rowid. -/
theorem reapDenylist_walks : Walks (fun cursor limit => ask (.selectDenylistPage cursor limit))
    (fun rowids => ask (.deleteDenylist rowids)) denialsSeen dropDenials where
  selects shelf cursor limit := by
    change (Except.ok (shelf.registry.selectDenylistPage cursor limit), shelf) = _
    rw [selectDenylistPage_eq]
  deletes shelf rowids distinct stored := by
    change (Except.ok (shelf.registry.denylist.entries.countP _), _) = _
    rw [shelf.registry.denylist.countP_rowids distinct]
    · rfl
    · exact List.Subset.trans stored denialsSeen_stored
  ordered shelf := by
    refine List.Pairwise.filterMap _ (fun first second earlier row isFirst other isSecond => ?_)
      (pairwise_map.mp shelf.registry.denylist.ordered)
    obtain ⟨_, -, rfl⟩ := Option.map_eq_some_iff.mp isFirst
    obtain ⟨_, -, rfl⟩ := Option.map_eq_some_iff.mp isSecond
    exact earlier
  view_drop shelf rowids := by
    rw [denialsSeen, denialsSeen, filter_filterMap]
    change List.filterMap _ (List.filter _ shelf.registry.denylist.entries) = _
    rw [filterMap_filter]
    congr 1
    funext entry
    change (if _ then Option.map _ (expiryOf shelf.registry _) else none) = _
    cases expiryOf shelf.registry entry.row.jti with
    | none => simp
    | some expiresAt =>
      by_cases listed : entry.rowid ∈ rowids <;> simp [listed, Option.filter_some]
  drop_nil shelf := by
    rw [dropDenials, deleteDenylist, deleteRowids_nil]
  drop_drop shelf first second := by
    simp only [dropDenials, deleteDenylist, deleteRowids_deleteRowids]

variable {reaper : Reaper} {now : Time} {shelf : Shelf}

theorem mem_doomed_denials {entry : Entry DenylistRow}
    (present : entry ∈ shelf.registry.denylist.entries) :
    entry.rowid ∈ doomed (fun expiresAt => now > expiresAt + denylistGrace)
        (denialsSeen shelf) ↔ shelf.holdings.lapsed now entry.row = true := by
  change _ ↔ (shelf.registry.integrationKeys.rows.any _) = true
  rw [lapsed_eq]
  simp only [doomed, mem_map, mem_filter, mem_denialsSeen, gt_iff_lt,
    decide_eq_true_eq, Option.any_eq_true]
  constructor
  · rintro ⟨⟨rowid, expiresAt⟩, ⟨⟨found, stored, same, known⟩, past⟩, named⟩
    rw [shelf.registry.denylist.eq_of_rowid_eq stored present (same.trans named)] at known
    exact ⟨expiresAt, known, past⟩
  · rintro ⟨expiresAt, known, past⟩
    exact ⟨(entry.rowid, expiresAt), ⟨⟨entry, present, rfl, known⟩, past⟩, rfl⟩

/-- The denylist rows whose keys lapsed go. -/
def sweepDenylist (now : Time) (shelf : Shelf) : Shelf :=
  { shelf with
    registry := { shelf.registry with
      denylist := shelf.registry.denylist.delete (shelf.holdings.lapsed now) } }

theorem length_doomed_denials : (doomed (fun expiresAt => now > expiresAt + denylistGrace)
        (denialsSeen shelf)).length =
      shelf.registry.denylist.rows.countP (shelf.holdings.lapsed now) := by
  obtain ⟨distinct, stored⟩ := reapDenylist_walks.doomed_stored
    (fun expiresAt => now > expiresAt + denylistGrace) (List.Sublist.refl (denialsSeen shelf))
  rw [← shelf.registry.denylist.countP_rowids distinct
    (List.Subset.trans stored denialsSeen_stored), rows, countP_map]
  refine countP_congr fun entry present => ?_
  rw [decide_eq_true_eq, mem_doomed_denials present]
  rfl

/-- A sweep of the denylist removes exactly the rows whose keys lapsed and counts them. -/
theorem evaluate_reapDenylist (numbered : shelf.registry.denylist.Numbered)
    (enough : shelf.registry.denylist.rows.length < reaper.pages) :
    (reaper.reapDenylist now).evaluate shelfRespond shelf =
      ((shelf.registry.denylist.rows.countP (shelf.holdings.lapsed now), none),
        sweepDenylist now shelf) := by
  have all : ((denialsSeen shelf).filter fun row => 0 < row.1) = denialsSeen shelf :=
    filter_eq_self.mpr fun row member => by
      obtain ⟨entry, present, same, -⟩ := mem_denialsSeen.mp member
      exact decide_eq_true (same ▸ numbered entry present)
  have fewer : ((denialsSeen shelf).filter fun row => 0 < row.1).length < reaper.pages := by
    rw [all]
    rw [rows, length_map] at enough
    exact lt_of_le_of_lt (length_filterMap_le _ _) enough
  refine (reapDenylist_walks.evaluate_walk _ _ _ fewer).trans ?_
  rw [all, length_doomed_denials, Nat.zero_add, dropDenials, deleteDenylist,
    deleteRowids_eq fun entry present => mem_doomed_denials present]
  rfl

end Denylist

/-- Every table of the shelf counts its rowids from one. -/
structure Shelf.Numbered (shelf : Shelf) : Prop where
  expiring : ∀ table, (shelf.table table).Numbered
  refreshTokens : shelf.store.refreshTokens.Numbered
  denylist : shelf.registry.denylist.Numbered

section Reap

variable {reaper : Reaper} {now : Time} {shelf : Shelf} {Result : Type}

/-- A program of the store runs on the store of the shelf. -/
theorem evaluate_store (program : Program statements Result) (shelf : Shelf) :
    (program.interpret fun statement =>
        @call shelfStatements (.client (.store statement))).evaluate shelfRespond shelf =
      ((program.evaluate respond shelf.store).1,
        { shelf with store := (program.evaluate respond shelf.store).2 }) := by
  induction program generalizing shelf with
  | done result => rfl
  | perform statement next ih => exact ih _ _

/-- The four tables are swept in this order. -/
def sweepTables (now : Time) (shelf : Shelf) : Shelf :=
  expiringTables.foldl (fun current table => sweepTable table now current) shelf

/-- The dead families go from the store. -/
def sweepFamilies (refreshMaxLifetime now : Time) (shelf : Shelf) : Shelf :=
  { shelf with
    store := { shelf.store with
      refreshTokens := shelf.store.refreshTokens.delete
        (shelf.holdings.dead refreshMaxLifetime now) } }

/-- A sweep with more pages than any table has rows removes exactly what it should. -/
theorem evaluate_reap (numbered : shelf.Numbered)
    (tables : ∀ table, (shelf.table table).rows.length < reaper.pages)
    (tokens : shelf.store.refreshTokens.rows.length < reaper.pages)
    (denials : shelf.registry.denylist.rows.length < reaper.pages) :
    (reaper.reap now).evaluate shelfRespond shelf =
      (shelf.holdings.report reaper.refreshMaxLifetime now, sweepDenylist now
        (sweepFamilies reaper.refreshMaxLifetime now (sweepTables now shelf))) := by
  have expired : (reapTables "sqlite" (reaper.reapExpired now) expiringTables .empty).evaluate
      shelfRespond shelf = (_, sweepTables now shelf) :=
    @evaluate_reapTables _ _ _ _ table (sweepTable · now)
      (fun _ rows => rows.Numbered ∧ rows.rows.length < reaper.pages) now
      (fun _ _ ready => evaluate_reapExpired ready.1 ready.2)
      (fun shelf _ _ different => shelf.table_replace_of_ne _ different) "sqlite" _ (by decide)
      .empty shelf fun table _ => ⟨numbered.expiring table, tables table⟩
  refine (evaluate_then expired).trans ?_
  have families : ((reaper.reapRefreshFamilies now).interpret fun statement =>
      @call shelfStatements (.client (.store statement))).evaluate shelfRespond
        (sweepTables now shelf) = ((shelf.store.refreshTokens.rows.countP
          (shelf.holdings.dead reaper.refreshMaxLifetime now), none),
            sweepFamilies reaper.refreshMaxLifetime now (sweepTables now shelf)) := by
    have swept : (reaper.reapRefreshFamilies now).evaluate respond
        (sweepTables now shelf).store = _ :=
      evaluate_reapRefreshFamilies numbered.refreshTokens tokens
    rw [evaluate_store, swept]
    rfl
  have denied : (reaper.reapDenylist now).evaluate shelfRespond
      (sweepFamilies reaper.refreshMaxLifetime now (sweepTables now shelf)) = _ :=
    evaluate_reapDenylist numbered.denylist denials
  refine (evaluate_then families).trans ((evaluate_then denied).trans ?_)
  rfl

theorem holdings_swept (refreshMaxLifetime now : Time) (shelf : Shelf) :
    (sweepDenylist now (sweepFamilies refreshMaxLifetime now (sweepTables now shelf))).holdings =
      shelf.holdings.swept refreshMaxLifetime now := by
  refine Holdings.ext ?_ (rows_delete _ _) (rows_delete _ _) rfl
  funext table
  cases table <;> exact rows_delete _ _

end Reap

end Tempogate.Sqlite
