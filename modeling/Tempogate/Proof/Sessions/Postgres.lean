/-
This file shows that the Postgres store answers every operation on sessions as expected.
-/

import Mathlib.Data.List.Perm.Subperm
import Tempogate.Proof.Sessions.Expected

namespace Tempogate.Postgres

open Foundation Oidc State Sessions Action Program ReapStatement Database LedgerAction List

/-- The families are those of the tokens, and the stamped ones those of the revoked tokens. -/
abbrev Database.Marked (database : Database) : Prop := Faithful database.books

/-- A family has a row exactly when it has a token. -/
def Database.Paired (database : Database) : Prop :=
  ∀ familyID, database.HasFamily familyID ↔ Known database.rows familyID = true

section Marked

variable {database : Database} {familyID : String}

theorem marked_iff : database.Marked ↔ database.Paired ∧
      ∀ familyID, database.FamilyStamped familyID ↔ Closed database.rows familyID = true := by
  constructor
  · intro marked
    refine ⟨fun familyID => ?_, fun familyID => ?_⟩
    · rw [← known_eq_true, marked.known]
      rfl
    · rw [← closed_eq_true, marked.closed]
      rfl
  · rintro ⟨known, closed⟩
    refine ⟨fun familyID => ?_, fun familyID => ?_⟩
    · exact Bool.eq_iff_iff.mpr (known_eq_true.trans (known familyID))
    · exact Bool.eq_iff_iff.mpr (closed_eq_true.trans (closed familyID))

end Marked

section Revoke

variable {database published visible : Database} {selector : Selector}

/-- A transaction that is alone keeps every family it locks. -/
theorem evaluate_lockFamilies {families : List String}
    (present : ∀ familyID ∈ families, visible.HasFamily familyID) :
    (lockFamilies families).evaluate alone (published, visible) =
      (.ok families, (published, visible)) := by
  induction families with
  | nil => rfl
  | cons familyID rest ih =>
    have locked : (lock (Key.family familyID) .exclusive : Query (Except String Database)).evaluate
        alone (published, visible) = (.ok visible, (published, visible)) := rfl
    have found : (visible.family familyID).isSome = true :=
      family_isSome.mpr (present familyID (.head _))
    refine (evaluate_then locked).trans ((evaluate_then
      (ih fun other member => present other (.tail _ member))).trans ?_)
    rw [found]
    rfl

/-- Stamping families changes only their stamps. -/
structure Stamps (families : List String) (before after : Database) : Prop where
  tokens : after.refreshTokens = before.refreshTokens
  stored : ∀ name, after.HasFamily name ↔ before.HasFamily name
  stamped : ∀ name, after.FamilyStamped name ↔
    before.FamilyStamped name ∨ name ∈ families ∧ before.HasFamily name

theorem Stamps.one (familyID : String) (moment : Time) :
    Stamps [familyID] visible ((Write.stampFamily familyID moment).apply visible) where
  tokens := rfl
  stored name := by
    refine ⟨fun later => (Write.hasFamily_of_apply later).resolve_right ?_, Write.hasFamily_apply⟩
    simp
  stamped name := by
    constructor
    · intro stamped
      refine (Write.stamped_of_apply stamped).imp_right ?_
      rintro ⟨_, same⟩
      cases same
      obtain ⟨row, member, family, -⟩ := stamped
      exact ⟨mem_singleton_self _,
        (Write.hasFamily_of_apply ⟨row, member, family⟩).resolve_right nofun⟩
    · rintro (stamped | ⟨member, present⟩)
      · exact Write.stamped_apply stamped
      · rw [mem_singleton.mp member] at present ⊢
        exact Write.stamped_stamp present moment

theorem evaluate_stampEach (families : List String) (moment : Time) :
    ∃ stamped, (stampEach moment families).evaluate alone (published, visible) =
        ((), (published, stamped)) ∧ Stamps families visible stamped := by
  induction families generalizing visible with
  | nil => exact ⟨visible, rfl, rfl, fun _ => Iff.rfl, fun _ => by simp⟩
  | cons familyID rest ih =>
    have first := @Stamps.one visible familyID moment
    obtain ⟨stamped, evaluated, others⟩ := @ih ((Write.stampFamily familyID moment).apply visible)
    refine ⟨stamped, evaluated, others.tokens.trans first.tokens,
      fun name => (others.stored name).trans (first.stored name), fun name => ?_⟩
    rw [others.stamped, first.stamped, first.stored, mem_singleton, mem_cons]
    tauto

/-- The families with a selected token are those whose tokens are selected. -/
theorem mem_selectedFamilies (marked : database.Marked) (shared : Shared database.rows)
    {row : RefreshRow} (present : row ∈ database.rows) :
    row.familyID ∈ database.selectedFamilies selector ↔ selector.selects row = true := by
  rw [selectedFamilies, mem_mergeSort, mem_filter]
  constructor
  · rintro ⟨-, chosen⟩
    obtain ⟨other, member, same, selected⟩ : ∃ other ∈ database.rows,
        other.familyID = row.familyID ∧ selector.selects other = true := by
      simpa using chosen
    rwa [← selector.selects_congr same (shared other member row present same)]
  · intro selected
    have known : Known database.rows row.familyID = true :=
      any_eq_true.mpr ⟨row, present, decide_eq_true rfl⟩
    obtain ⟨family, member, same⟩ := ((marked_iff.mp marked).1 row.familyID).mpr known
    refine ⟨mem_map.mpr ⟨family, member, same⟩, any_eq_true.mpr ⟨row, present, ?_⟩⟩
    simp [selected]

/-- Revoking by a selector ends the selected tokens and closes their families. -/
theorem revokeFamiliesWhere_meets (marked : database.Marked) (shared : Shared database.rows)
    (storable : ∀ text ∈ selector.texts, Storable text) (moment : Time) :
    ∃ after : Database, (revokeFamiliesWhere selector moment).evaluate alone (database, database) =
          (.ok (ended database.rows selector), (after, after)) ∧
        after.rows = (revoke selector moment).apply database.rows ∧
        after.Marked := by
  obtain ⟨known, closed⟩ := marked_iff.mp marked
  have exist : ∀ familyID ∈ database.selectedFamilies selector, database.HasFamily familyID := by
    intro familyID member
    rw [selectedFamilies, mem_mergeSort, mem_filter] at member
    obtain ⟨family, stored, same⟩ := mem_map.mp member.1
    exact ⟨family, stored, same⟩
  obtain ⟨stamped, stamps, marks⟩ := @evaluate_stampEach database database
    (database.selectedFamilies selector) moment
  have revokes :=
    @evaluate_revokeTokens database stamped (database.selectedFamilies selector) moment
  have chosen : ∀ row ∈ database.rows,
      decide (row.familyID ∈ database.selectedFamilies selector) = selector.selects row :=
    fun row present => Bool.eq_iff_iff.mpr
      (decide_eq_true_iff.trans (mem_selectedFamilies marked shared present))
  have counted : (database.rows.countP fun row =>
      row.familyID ∈ database.selectedFamilies selector && row.live) =
        ended database.rows selector :=
    countP_congr fun row present => by rw [chosen row present]
  rw [marks.tokens, counted] at revokes
  have rows : (database.refreshTokens.update
      (fun row => row.familyID ∈ database.selectedFamilies selector && row.revokedAt.isNone)
      (RefreshRow.revoke moment) fun _ => rfl).rows =
        (revoke selector moment).apply database.rows := by
    refine (database.refreshTokens.rows_update _ _ _).trans
      (map_congr_left fun row present => ?_)
    rw [chosen row present]
    rfl
  refine ⟨_, evaluate_inTx ((evaluate_then (evaluate_given storable (evaluate_select _))).trans
    ((evaluate_then (evaluate_lockFamilies exist)).trans
      ((evaluate_then stamps).trans (evaluate_then revokes)))), rows, ?_⟩
  refine marked_iff.mpr ⟨fun name => ?_, fun name => ?_⟩
  · change stamped.HasFamily name ↔ Known (Table.rows _) name = true
    rw [rows, known_revoke, marks.stored]
    exact known name
  · change stamped.FamilyStamped name ↔ Closed (Table.rows _) name = true
    rw [rows, closed_revoke, Bool.or_eq_true, marks.stamped]
    refine or_congr (closed name) ?_
    rw [any_eq_true]
    constructor
    · rintro ⟨selected, -⟩
      rw [selectedFamilies, mem_mergeSort, mem_filter] at selected
      exact any_eq_true.mp selected.2
    · rintro ⟨row, present, both⟩
      rw [Bool.and_eq_true, decide_eq_true_eq] at both
      obtain ⟨rfl, selects⟩ := both
      have member := (mem_selectedFamilies marked shared present).mpr selects
      exact ⟨member, exist _ member⟩

end Revoke

section Method

variable {crypto : Crypto} {database : Database} {rounds : Nat}

/-- Every method answers as expected and keeps the families marked. -/
theorem refreshMethod_expected (marked : database.Marked) (shared : Shared database.rows)
    (call : RefreshCall) (storable : ∀ text ∈ texts (.refresh call), Storable text) :
    ∃ (answer : call.Answer) (after scratch : Database),
      (refreshMethod crypto (rounds + 2) call).evaluate alone (database, database) =
          (answer, (after, scratch)) ∧
        Meets crypto database.rows (.refresh call) answer after.rows ∧ after.Marked := by
  cases call with
  | saveRefresh refresh =>
    exact ⟨_, _, _, rfl, marked.saves (fun _ => storable) (saveRefresh_serves refresh rounds)⟩
  | consumeRefresh token clientID moment =>
    exact ⟨_, _, _, rfl, marked.consumes (consumeRefresh_serves token
      (storable clientID mem_cons_self) moment)⟩
  | revokeRefreshFamily familyID moment =>
    cases known : database.books.known familyID with
    | true =>
      obtain ⟨after, evaluated, closes⟩ :=
        evaluate_revokeRefreshFamily (known_eq_true.mp known) moment
      have awaited : expected crypto database.rows
          (.refresh (.revokeRefreshFamily familyID moment)) =
            (.ok (ended database.rows (.family familyID)), .revoke (.family familyID) moment) :=
        if_pos (marked.known familyID ▸ known)
      refine ⟨_, after, after, evaluated, ⟨?_, ?_⟩, ?_⟩
      · rw [awaited]
        simp only [mem_singleton]
        exact .inl rfl
      · rw [awaited]
        exact (congrArg (fun books => books.tokens.rows) closes).trans
          (database.books.rows_close familyID moment)
      · rw [Marked, closes]
        exact marked.closes known moment
    | false =>
      have missing : database.family familyID = none := by
        simpa [books] using known
      have awaited : expected crypto database.rows
          (.refresh (.revokeRefreshFamily familyID moment)) =
            (.error (.sessionNotFound familyID), .keep) :=
        if_neg (Bool.eq_false_iff.mp (marked.known familyID ▸ known))
      exact ⟨_, database, database, evaluate_revokeRefreshFamily_unknown missing
        (storable familyID mem_cons_self) moment, .of_expected awaited, marked⟩
  | revokeRefreshByEmail email moment =>
    obtain ⟨after, evaluated, rows, marks⟩ :=
      @revokeFamiliesWhere_meets database (.email email) marked shared storable moment
    exact ⟨_, after, after, evaluated, ⟨.inl rfl, rows⟩, marks⟩
  | revokeRefreshBySubject connectorID subject moment =>
    obtain ⟨after, evaluated, rows, marks⟩ :=
      @revokeFamiliesWhere_meets database (.subject connectorID subject) marked shared storable
        moment
    exact ⟨_, after, after, evaluated, ⟨.inl rfl, rows⟩, marks⟩

/-- The listing is a sorted order of the sessions it should hold. -/
theorem listRefreshSessions_fits (choices : Choices) {filter : RefreshSessionFilter} (now : Time)
    (storable : ∀ text ∈ texts (.listRefreshSessions filter now), Storable text) :
    Fits (.listRefreshSessions filter now)
      (expected crypto database.rows (.listRefreshSessions filter now)).1
      (listRefreshSessions choices filter now (.postgres rounds) database) :=
  ⟨_, _, rfl, if_pos storable, (choices.sort_perm _).map _,
    pairwise_map.mpr (choices.sorted _)⟩

end Method

section Sweep

variable {database : Database} {families : List String} {name : String}

theorem hasFamily_delete : (deleteFamilies families database).HasFamily name ↔
    database.HasFamily name ∧ name ∉ families := by
  simp only [HasFamily, deleteFamilies, Table.rows_delete, mem_filter,
    Bool.not_eq_true', decide_eq_false_iff_not]
  constructor
  · rintro ⟨row, ⟨present, kept⟩, rfl⟩
    exact ⟨⟨row, present, rfl⟩, kept⟩
  · rintro ⟨⟨row, present, rfl⟩, kept⟩
    exact ⟨row, ⟨present, kept⟩, rfl⟩

theorem stamped_delete : (deleteFamilies families database).FamilyStamped name ↔
    database.FamilyStamped name ∧ name ∉ families := by
  simp only [FamilyStamped, deleteFamilies, Table.rows_delete,
    mem_filter, Bool.not_eq_true', decide_eq_false_iff_not]
  constructor
  · rintro ⟨row, ⟨present, kept⟩, rfl, stamped⟩
    exact ⟨⟨row, present, rfl, stamped⟩, kept⟩
  · rintro ⟨⟨row, present, rfl, stamped⟩, kept⟩
    exact ⟨row, ⟨present, kept⟩, rfl, stamped⟩

theorem rows_deleteFamilies : (deleteFamilies families database).rows =
    (purge families).apply database.rows := by
  refine (database.refreshTokens.rows_delete _).trans (filter_congr fun row _ => ?_)
  rw [decide_not]

theorem deleteFamilies_paired (paired : database.Paired) (families : List String) :
    (deleteFamilies families database).Paired := by
  intro name
  rw [hasFamily_delete, rows_deleteFamilies, paired, known_purge]

theorem deleteFamilies_marked (marked : database.Marked) (families : List String) :
    (deleteFamilies families database).Marked := by
  obtain ⟨known, closed⟩ := marked_iff.mp marked
  refine marked_iff.mpr ⟨deleteFamilies_paired known families, fun name => ?_⟩
  rw [stamped_delete, rows_deleteFamilies, closed, closed_purge]

variable {reaper : Reaper} {now : Time}

/-- A sign-in is too old when the bound on it is reached. -/
theorem dead_eq (reaper : Reaper) (now : Time) (row : RefreshRow) :
    ReapStatement.dead now (reaper.ended now) row =
      Sessions.dead reaper.refreshMaxLifetime now row := by
  by_cases bounded : reaper.refreshMaxLifetime > 0
  · rw [Reaper.ended, if_pos bounded]
    simp [ReapStatement.dead, Sessions.dead, bounded, Int.add_le_iff_le_sub]
  · rw [Reaper.ended, if_neg bounded]
    simp [ReapStatement.dead, Sessions.dead, bounded]

/-- The statement takes these families. -/
abbrev Reaper.finds (reaper : Reaper) (now : Time) (database : Database) : List String :=
  ReapStatement.deadFamilies now (reaper.ended now) database

theorem mem_deadFamilies (paired : database.Paired) :
    name ∈ reaper.finds now database ↔
      name ∈ Sessions.deadFamilies database.rows reaper.refreshMaxLifetime now := by
  have known : name ∈ database.refreshFamilies.rows.map FamilyRow.familyID ↔
      ∃ row ∈ database.rows, row.familyID = name := by
    refine mem_map.trans ((paired name).trans ?_)
    simp [Known]
  rw [Reaper.finds, ReapStatement.deadFamilies, mem_filter, known, Sessions.mem_deadFamilies]
  refine and_congr_right fun _ => ?_
  simp [dead_eq, rows]

theorem deadFamilies_nodup : (reaper.finds now database).Nodup :=
  database.refreshFamilies.distinct.filter _

/-- Distinct families that all have tokens are no more than their tokens. -/
theorem length_le_countP (distinct : families.Nodup)
    (used : ∀ familyID ∈ families, ∃ row ∈ database.rows, row.familyID = familyID) :
    families.length ≤ database.rows.countP fun row => row.familyID ∈ families := by
  have inside : families ⊆
      (database.rows.filter fun row => row.familyID ∈ families).map RefreshRow.familyID := by
    intro familyID member
    obtain ⟨row, present, rfl⟩ := used familyID member
    exact mem_map_of_mem (mem_filter.mpr ⟨present, decide_eq_true member⟩)
  have shorter := (distinct.subperm inside).length_le
  rwa [length_map, ← countP_eq_length_filter] at shorter

/-- The families left to sweep after a batch are those that the batch did not take. -/
theorem mem_deadFamilies_delete {refreshMaxLifetime : Time} :
    name ∈ Sessions.deadFamilies (deleteFamilies families database).rows refreshMaxLifetime now ↔
      name ∈ Sessions.deadFamilies database.rows refreshMaxLifetime now ∧ name ∉ families := by
  rw [rows_deleteFamilies, Sessions.mem_deadFamilies, Sessions.mem_deadFamilies]
  simp only [apply, mem_filter, decide_eq_true_eq]
  constructor
  · rintro ⟨⟨row, ⟨present, kept⟩, rfl⟩, dead⟩
    exact ⟨⟨⟨row, present, rfl⟩, fun other stored same =>
      dead other ⟨stored, same ▸ kept⟩ same⟩, kept⟩
  · rintro ⟨⟨⟨row, present, rfl⟩, dead⟩, kept⟩
    exact ⟨⟨row, ⟨present, kept⟩, rfl⟩, fun other stored same => dead other stored.1 same⟩

variable {visit : List String → List String}

/-- A batch that deletes fewer tokens than its limit takes every dead family. -/
theorem take_eq_of_short (paired : database.Paired)
    (perm : ∀ families, (visit families).Perm families)
    (dead : families = visit (reaper.finds now database))
    (short : (database.rows.countP fun row => row.familyID ∈ families.take reaper.batch) <
      reaper.batch) : families.take reaper.batch = families := by
  have distinct : families.Nodup := by
    rw [dead]
    exact (perm _).nodup_iff.mpr deadFamilies_nodup
  have fewer : (families.take reaper.batch).length < reaper.batch := by
    refine lt_of_le_of_lt (length_le_countP (distinct.sublist (take_sublist _ _)) ?_) short
    intro familyID member
    have swept : familyID ∈ Sessions.deadFamilies database.rows reaper.refreshMaxLifetime now := by
      rw [← mem_deadFamilies paired, ← (perm _).mem_iff, ← dead]
      exact mem_of_mem_take member
    exact (Sessions.mem_deadFamilies.mp swept).1
  rw [length_take] at fewer
  exact take_of_length_le (by omega)

/-- A batch that takes a family leaves fewer dead ones. -/
theorem length_deadFamilies_lt (paired : database.Paired) (taken : name ∈ families)
    (dead : name ∈ reaper.finds now database) :
    (reaper.finds now (deleteFamilies families database)).length <
      (reaper.finds now database).length := by
  have remain : ∀ other ∈ reaper.finds now (deleteFamilies families database),
      other ∈ reaper.finds now database ∧ other ∉ families := by
    intro other member
    rwa [mem_deadFamilies (deleteFamilies_paired paired families), mem_deadFamilies_delete,
      ← mem_deadFamilies paired] at member
  refine (List.Nodup.subperm (nodup_cons.mpr ⟨fun member => (remain name member).2 taken,
    deadFamilies_nodup⟩) ?_).length_le
  exact cons_subset.mpr ⟨dead, fun other member => (remain other member).1⟩

/-- Deleting a batch and then the dead families that remain deletes all of them. -/
theorem deleteFamilies_deleteFamilies {first second all : List String}
    (union : ∀ name, name ∈ all ↔ name ∈ first ∨ name ∈ second) :
    deleteFamilies second (deleteFamilies first database) = deleteFamilies all database := by
  simp [deleteFamilies, Table.delete_delete, union]

/-- The loop deletes exactly the dead families and counts their tokens. -/
theorem evaluate_batches (paired : database.Paired)
    (perm : ∀ families, (visit families).Perm families) (rounds deleted : Nat)
    (enough : (reaper.finds now database).length < rounds) :
    (State.batches reaper.batch (@call reapStatements (.deleteDead now reaper.batch
        (reaper.ended now))) rounds deleted).evaluate (reapRespond visit) database =
      ((deleted + database.rows.countP (fun row => row.familyID ∈
          Sessions.deadFamilies database.rows reaper.refreshMaxLifetime now), none),
        deleteFamilies
          (Sessions.deadFamilies database.rows reaper.refreshMaxLifetime now) database) := by
  induction rounds generalizing database deleted with
  | zero => exact absurd enough (Nat.not_lt_zero _)
  | succ rounds ih =>
    obtain ⟨families, dead⟩ : ∃ families, families =
        visit (reaper.finds now database) := ⟨_, rfl⟩
    have members : ∀ familyID, familyID ∈ families ↔
        familyID ∈ Sessions.deadFamilies database.rows reaper.refreshMaxLifetime now := by
      intro familyID
      rw [dead, (perm _).mem_iff, mem_deadFamilies paired]
    have executed : (@call reapStatements (.deleteDead now reaper.batch
        (reaper.ended now))).evaluate (reapRespond visit) database =
          (.ok (database.rows.countP fun row => row.familyID ∈ families.take reaper.batch),
            deleteFamilies (families.take reaper.batch) database) := by
      rw [dead]
      rfl
    refine (evaluate_then executed).trans ?_
    change evaluate _ (if _ then _ else _) _ = _
    split
    next short =>
      rw [take_eq_of_short paired perm dead short]
      simp only [← members, deleteFamilies]
      rfl
    next full =>
      have some : ∃ row ∈ database.rows, row.familyID ∈ families.take reaper.batch := by
        have positive := reaper.positive
        have counted : 0 < database.rows.countP fun row =>
            row.familyID ∈ families.take reaper.batch := by omega
        simpa using countP_pos_iff.mp counted
      obtain ⟨row, -, taken⟩ := some
      have isDead : row.familyID ∈ reaper.finds now database := by
        rw [← (perm _).mem_iff, ← dead]
        exact mem_of_mem_take taken
      have shorter := @length_deadFamilies_lt _ _ _ reaper now paired taken isDead
      have union : ∀ familyID,
          familyID ∈ Sessions.deadFamilies database.rows reaper.refreshMaxLifetime now ↔
            familyID ∈ families.take reaper.batch ∨ familyID ∈ Sessions.deadFamilies
              (deleteFamilies (families.take reaper.batch) database).rows
              reaper.refreshMaxLifetime now := by
        intro familyID
        have inside : familyID ∈ families.take reaper.batch →
            familyID ∈ Sessions.deadFamilies database.rows reaper.refreshMaxLifetime now :=
          fun member => (members familyID).mp (mem_of_mem_take member)
        rw [mem_deadFamilies_delete]
        tauto
      refine (ih (deleteFamilies_paired paired _) _ (by omega)).trans ?_
      rw [deleteFamilies_deleteFamilies union]
      simp only [union, Bool.decide_or]
      rw [rows, Table.countP_delete, Nat.add_assoc]
      rfl

end Sweep

section Perform

variable {crypto : Crypto} {database : Database} {rounds : Nat}

/-- Every operation on the Postgres store answers as expected. -/
theorem perform_meets (choices : Choices) (marked : database.Marked) (shared : Shared database.rows)
    (operation : Operation) (storable : ∀ text ∈ texts operation, Storable text) :
    Meets crypto database.rows operation
        (perform crypto choices (.postgres rounds) operation database).1
        (rows (perform crypto choices (.postgres rounds) operation database).2) ∧
      Marked (perform crypto choices (.postgres rounds) operation database).2 := by
  cases operation with
  | refresh call =>
    obtain ⟨answer, after, scratch, evaluated, meets⟩ :=
      @refreshMethod_expected crypto database rounds marked shared call storable
    have answered : perform crypto choices (.postgres rounds) (.refresh call) database =
        (answer, after) := Engine.respond_postgres evaluated
    rw [answered]
    exact meets
  | listRefreshSessions filter now =>
    exact ⟨⟨@listRefreshSessions_fits crypto database rounds choices filter now storable, rfl⟩,
      marked⟩
  | sweep refreshMaxLifetime now =>
    have evaluated : perform crypto choices (.postgres rounds) (.sweep refreshMaxLifetime now)
        database = _ :=
      evaluate_batches (marked_iff.mp marked).1 choices.visit_perm _ 0 (Nat.lt_succ_of_le
        ((length_filter_le _ _).trans (length_map _).le))
    rw [evaluated, Nat.zero_add]
    exact ⟨⟨rfl, rows_deleteFamilies⟩, deleteFamilies_marked marked _⟩

end Perform

end Tempogate.Postgres
