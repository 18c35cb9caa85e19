/-
This file shows that the SQLite store answers every operation on sessions as expected.
-/

import Tempogate.Proof.Sessions.Expected

namespace Tempogate.Sqlite

open Foundation Oidc State Sessions Reaper RefreshRow Table RefreshStatement List

section Chunks

variable {Item : Type}

theorem flatten_go (size : Nat) (items : List Item) (chunk : Array Item)
    (chunks : Array (List Item)) :
    (List.toChunks.go size items chunk chunks).flatten =
      chunks.toList.flatten ++ chunk.toList ++ items := by
  induction items generalizing chunk chunks with
  | nil => simp [List.toChunks.go]
  | cons item rest ih =>
    rw [List.toChunks.go]
    split
    · rw [ih]
      simp
    · rw [ih]
      simp

/-- The chunks of a list make up the list. -/
theorem flatten_toChunks (size : Nat) (items : List Item) :
    (items.toChunks size).flatten = items := by
  cases items with
  | nil => rw [List.toChunks.eq_def, flatten_nil]
  | cons item rest =>
    cases size with
    | zero => simp [List.toChunks]
    | succ size =>
      rw [List.toChunks]
      · rw [flatten_go]
        rfl
      · nofun

end Chunks

section Seen

variable {familyID : String} {alive : Bool} {seen : Seen}

theorem keys_note : (note familyID alive seen).map Prod.fst =
    if familyID ∈ seen.map Prod.fst then seen.map Prod.fst
    else seen.map Prod.fst ++ [familyID] := by
  induction seen with
  | nil => rfl
  | cons entry rest ih =>
    obtain ⟨other, known⟩ := entry
    rw [note]
    by_cases same : other = familyID
    · simp [same]
    · rw [if_neg same, map_cons, ih]
      simp only [map_cons, mem_cons, Ne.symm same, false_or]
      split <;> rfl

/-- An entry of the map after a note is an earlier one, or it is that of the noted family. -/
theorem mem_note {entry : String × Bool} (distinct : (seen.map Prod.fst).Nodup)
    (member : entry ∈ note familyID alive seen) :
    entry.1 ≠ familyID ∧ entry ∈ seen ∨
      entry.1 = familyID ∧ ((∃ known, (familyID, known) ∈ seen ∧ entry.2 = (known || alive)) ∨
        familyID ∉ seen.map Prod.fst ∧ entry.2 = alive) := by
  induction seen with
  | nil =>
    rw [note, mem_singleton] at member
    subst member
    exact .inr ⟨rfl, .inr ⟨not_mem_nil, rfl⟩⟩
  | cons first rest ih =>
    obtain ⟨other, known⟩ := first
    rw [map_cons, nodup_cons] at distinct
    rw [note] at member
    by_cases same : other = familyID
    · subst same
      rw [if_pos rfl] at member
      rcases mem_cons.mp member with rfl | later
      · exact .inr ⟨rfl, .inl ⟨known, .head _, rfl⟩⟩
      · refine .inl ⟨?_, .tail _ later⟩
        intro equal
        have shown : entry.1 ∈ rest.map Prod.fst := mem_map_of_mem later
        exact distinct.1 (equal ▸ shown)
    · rw [if_neg same] at member
      rcases mem_cons.mp member with rfl | later
      · exact .inl ⟨same, .head _⟩
      · rcases ih distinct.2 later with ⟨different, old⟩ | ⟨equal, ⟨was, old, now⟩ | ⟨new, now⟩⟩
        · exact .inl ⟨different, .tail _ old⟩
        · exact .inr ⟨equal, .inl ⟨was, .tail _ old, now⟩⟩
        · refine .inr ⟨equal, .inr ⟨?_, now⟩⟩
          rw [map_cons, mem_cons, not_or]
          exact ⟨Ne.symm same, new⟩

/-- The map tells for each family of the rows whether one of them is not dead. -/
structure Describes (dead : RefreshRow → Bool) (seen : Seen) (rows : List RefreshRow) : Prop where
  distinct : (seen.map Prod.fst).Nodup
  listed : ∀ entry ∈ seen, Known rows entry.1 = true ∧
    entry.2 = rows.any fun row => row.familyID = entry.1 && !dead row
  complete : ∀ row ∈ rows, row.familyID ∈ seen.map Prod.fst

variable {dead : RefreshRow → Bool} {rows : List RefreshRow}

/-- Noting one more row keeps the map right. -/
theorem Describes.note (describes : Describes dead seen rows) (row : RefreshRow) :
    Describes dead (note row.familyID (!dead row) seen) (rows ++ [row]) := by
  obtain ⟨distinct, listed, complete⟩ := describes
  refine ⟨?_, ?_, ?_⟩
  · rw [keys_note]
    split
    · exact distinct
    next new =>
      refine nodup_append.mpr ⟨distinct, nodup_singleton _, ?_⟩
      rintro old member added isAdded rfl
      exact new (mem_singleton.mp isAdded ▸ member)
  · intro entry member
    rw [Known, any_append, any_append]
    rcases mem_note distinct member with ⟨different, old⟩ | ⟨equal, ⟨was, old, now⟩ | ⟨new, now⟩⟩
    · obtain ⟨known, told⟩ := listed entry old
      rw [Known] at known
      rw [known, told]
      simp [Ne.symm different]
    · obtain ⟨known, told⟩ : Known rows row.familyID = true ∧
          was = rows.any fun stored => stored.familyID = row.familyID && !dead stored :=
        listed _ old
      rw [Known] at known
      rw [equal, now, told, known]
      simp
    · have none : (rows.any fun stored => stored.familyID = row.familyID && !dead stored) = false :=
        any_eq_false.mpr fun stored present => by
          have different : stored.familyID ≠ row.familyID :=
            fun same => new (same ▸ complete stored present)
          simp [different]
      rw [equal, now, none]
      simp
  · intro stored present
    rw [keys_note]
    rcases mem_append.mp present with old | added
    · split
      · exact complete stored old
      · exact mem_append_left _ (complete stored old)
    · rw [mem_singleton.mp added]
      split
      next known => exact known
      · exact mem_append_right _ (mem_singleton_self _)

/-- Scanning entries extends what the map tells to their rows. -/
theorem Describes.scan {reaper : Reaper} {now : Time}
    (describes : Describes (reaper.dead now) seen rows) (entries : List (Entry RefreshRow)) :
    Describes (reaper.dead now) (entries.foldl (reaper.scan now) seen)
      (rows ++ entries.map Entry.row) := by
  induction entries generalizing seen rows with
  | nil => simpa using describes
  | cons entry rest ih =>
    rw [map_cons, append_cons]
    exact ih (describes.note entry.row)

theorem dead_eq (reaper : Reaper) (now : Time) (row : RefreshRow) :
    reaper.dead now row = Sessions.dead reaper.refreshMaxLifetime now row := by
  simp [Reaper.dead, Sessions.dead]

/-- The map leads to the families that are swept. -/
theorem Describes.mem_deadFamilies {reaper : Reaper} {now : Time}
    (describes : Describes (reaper.dead now) seen rows) :
    familyID ∈ reaper.deadFamilies seen ↔
      familyID ∈ Sessions.deadFamilies rows reaper.refreshMaxLifetime now := by
  have told : familyID ∈ reaper.deadFamilies seen ↔ (familyID, false) ∈ seen := by
    rw [Reaper.deadFamilies, (reaper.range_perm _).mem_iff]
    simp
  rw [told, Sessions.mem_deadFamilies]
  constructor
  · intro member
    obtain ⟨known, none⟩ := describes.listed _ member
    refine ⟨by simpa [Known] using known, fun row present same => ?_⟩
    have alive := any_eq_false.mp none.symm row present
    simpa [same, dead_eq] using alive
  · rintro ⟨⟨row, present, rfl⟩, allDead⟩
    obtain ⟨⟨family, alive⟩, member, rfl⟩ := mem_map.mp (describes.complete row present)
    have tells := (describes.listed _ member).2
    have none : (rows.any fun stored => stored.familyID = row.familyID &&
        !reaper.dead now stored) = false :=
      any_eq_false.mpr fun stored stays => by
        rw [dead_eq]
        by_cases same : stored.familyID = row.familyID
        · simp [allDead stored stays same]
        · simp [same]
    rw [none] at tells
    subst tells
    exact member

end Seen

section Sweep

variable {store : Store} {reaper : Reaper} {now : Time}

/-- The page loop scans every entry after its cursor. -/
theorem evaluate_readPages (pages cursor : Nat) (seen : Seen)
    (enough : (store.refreshTokens.beyond cursor).length < pages) :
    (reaper.readPages now pages cursor seen).evaluate respond store =
      (.ok ((store.refreshTokens.beyond cursor).foldl (reaper.scan now) seen), store) := by
  induction pages generalizing cursor seen with
  | zero => exact absurd enough (Nat.not_lt_zero _)
  | succ pages ih =>
    have executed : (Statement.refresh (.selectPage cursor reaper.batch)).execute store =
        (store.refreshTokens.page cursor reaper.batch, store) := rfl
    refine (Program.evaluate_runs executed).trans ?_
    change Program.evaluate respond (if _ then _ else _) _ = _
    split
    next short =>
      have whole : store.refreshTokens.page cursor reaper.batch =
          store.refreshTokens.beyond cursor := by
        refine take_of_length_le ?_
        rw [page, length_take] at short
        omega
      rw [whole]
      rfl
    next full =>
      have nonempty : store.refreshTokens.page cursor reaper.batch ≠ [] := by
        intro empty
        rw [empty] at full
        exact full reaper.positive
      obtain ⟨last, ends⟩ : ∃ last,
          (store.refreshTokens.page cursor reaper.batch).getLast? = some last :=
        ⟨_, List.getLast?_eq_some_getLast nonempty⟩
      have split := beyond_page ends
      have shorter : (store.refreshTokens.beyond last.rowid).length < pages := by
        have length := congrArg List.length split
        rw [length_append] at length
        have positive := length_pos_iff.mpr nonempty
        omega
      rw [ends, split, foldl_append]
      exact ih last.rowid _ shorter

/-- The chunks delete their families and count the rows. -/
theorem evaluate_deleteChunks (chunks : List (List String)) (deleted : Nat) :
    (deleteChunks chunks deleted).evaluate respond store =
      ((deleted + store.rows.countP (fun row => row.familyID ∈ chunks.flatten), none), { store with
          refreshTokens := store.refreshTokens.delete fun row =>
            row.familyID ∈ chunks.flatten }) := by
  induction chunks generalizing store deleted with
  | nil =>
    have unchanged : (store.refreshTokens.delete fun row => row.familyID ∈ [].flatten) =
        store.refreshTokens := delete_eq_self fun row _ => by simp
    have uncounted : (store.rows.countP fun row => row.familyID ∈ [].flatten) = 0 :=
      countP_eq_zero.mpr fun row _ => by simp
    rw [unchanged, uncounted]
    rfl
  | cons chunk rest ih =>
    have joined : (fun row : RefreshRow => decide (row.familyID ∈ (chunk :: rest).flatten)) =
        fun row => decide (row.familyID ∈ chunk) || decide (row.familyID ∈ rest.flatten) := by
      simp
    refine (Program.evaluate_runs (execute_refresh (.deleteFamilies chunk) rfl)).trans
      ((ih _).trans ?_)
    rw [joined, ← delete_delete, Store.rows, countP_delete, ← Nat.add_assoc]

/-- A sweep deletes exactly the dead families. -/
theorem evaluate_reapRefreshFamilies (numbered : store.refreshTokens.Numbered)
    (enough : store.refreshTokens.rows.length < reaper.pages) :
    (reaper.reapRefreshFamilies now).evaluate respond store =
      ((store.rows.countP fun row => row.familyID ∈
          Sessions.deadFamilies store.rows reaper.refreshMaxLifetime now, none),
        { store with
          refreshTokens := store.refreshTokens.delete fun row => row.familyID ∈
            Sessions.deadFamilies store.rows reaper.refreshMaxLifetime now }) := by
  have fewer : (store.refreshTokens.beyond 0).length < reaper.pages := by
    rw [numbered.beyond_zero]
    rwa [rows, length_map] at enough
  have empty : Describes (reaper.dead now) [] [] :=
    ⟨nodup_nil, fun _ member => absurd member not_mem_nil,
      fun _ member => absurd member not_mem_nil⟩
  have describes := empty.scan (store.refreshTokens.beyond 0)
  rw [nil_append, numbered.beyond_zero] at describes
  have same : (fun row : RefreshRow => decide (row.familyID ∈ ((reaper.deadFamilies
      (store.refreshTokens.entries.foldl (reaper.scan now) [])).toChunks reaper.batch).flatten)) =
      fun row => decide (row.familyID ∈
        Sessions.deadFamilies store.rows reaper.refreshMaxLifetime now) := by
    funext row
    rw [flatten_toChunks]
    exact decide_eq_decide.mpr describes.mem_deadFamilies
  refine (Program.evaluate_then (evaluate_readPages reaper.pages 0 [] fewer)).trans ?_
  rw [numbered.beyond_zero]
  refine (evaluate_deleteChunks _ _).trans ?_
  rw [same, Nat.zero_add]

end Sweep

section Perform

variable {crypto : Crypto} {store : Store}

theorem books_faithful (store : Store) : Faithful store.books := ⟨fun _ => rfl, fun _ => rfl⟩

theorem rows_revoked (selector : Selector) (moment : Time) : ({ store with
        refreshTokens := store.refreshTokens.update (revocable selector)
          (revoke moment) fun _ => rfl } : Store).rows =
      (LedgerAction.revoke selector moment).apply store.rows :=
  store.refreshTokens.rows_update _ (revoke moment) fun _ => rfl

theorem revoke_expected (numbered : store.refreshTokens.Numbered) {call : RefreshCall}
    {selector : Selector} {moment : Time} {answer : (Operation.refresh call).Answer}
    {reached : _ × Store} (revoked : reached = (answer, { store with
      refreshTokens := store.refreshTokens.update (revocable selector)
        (revoke moment) fun _ => rfl }))
    (awaited : expected crypto store.rows (.refresh call) = (answer, .revoke selector moment)) :
    Meets crypto store.rows (.refresh call) reached.1 reached.2.rows ∧
      reached.2.refreshTokens.Numbered := by
  rw [revoked]
  refine ⟨⟨?_, ?_⟩, numbered.update _ (revoke _) fun _ => rfl⟩ <;> rw [awaited]
  · exact .inl rfl
  · exact rows_revoked _ _

/-- Every method answers as expected. -/
theorem refreshMethod_expected (numbered : store.refreshTokens.Numbered) (call : RefreshCall) :
    Meets crypto store.rows (.refresh call) ((refreshMethod crypto call).evaluate respond store).1
        ((refreshMethod crypto call).evaluate respond store).2.rows ∧
      ((refreshMethod crypto call).evaluate respond store).2.refreshTokens.Numbered := by
  have faithful := books_faithful store
  cases call with
  | saveRefresh refresh =>
    have serves := @saveRefresh_serves crypto store refresh
    exact ⟨(faithful.saves nofun serves).1, numbered_of_serves serves numbered⟩
  | consumeRefresh token clientID moment =>
    have serves := @consumeRefresh_serves crypto store token clientID moment
    exact ⟨(faithful.consumes serves).1, numbered_of_serves serves numbered⟩
  | revokeRefreshFamily familyID moment =>
    cases known : store.books.known familyID with
    | true =>
      exact revoke_expected numbered (evaluate_revokeRefreshFamily known moment) (if_pos known)
    | false =>
      have evaluated : (refreshMethod crypto (.revokeRefreshFamily familyID moment)).evaluate
          respond store = _ := evaluate_revokeRefreshFamily_unknown known moment
      have awaited : expected crypto store.rows (.refresh (.revokeRefreshFamily familyID moment)) =
          (.error (.sessionNotFound familyID), .keep) :=
        if_neg (Bool.eq_false_iff.mp known)
      rw [evaluated]
      exact ⟨.of_expected awaited, numbered⟩
  | revokeRefreshByEmail email moment =>
    exact revoke_expected numbered (evaluate_revokeRefresh store (.email email) moment) rfl
  | revokeRefreshBySubject connectorID subject moment =>
    exact revoke_expected numbered
      (evaluate_revokeRefresh store (.subject connectorID subject) moment) rfl

/-- The listing is a sorted order of the sessions it should hold. -/
theorem listRefreshSessions_fits (choices : Choices) (filter : RefreshSessionFilter) (now : Time) :
    Fits (.listRefreshSessions filter now)
      (expected crypto store.rows (.listRefreshSessions filter now)).1
      (listRefreshSessions choices filter now .sqlite store) := by
  refine ⟨_, _, rfl, rfl, List.Perm.map _ ?_,
    pairwise_map.mpr ((choices.sorted _).filter _)⟩
  refine ((choices.sort_perm _).filter _).trans ?_
  rw [filter_filter]
  refine List.Perm.of_eq (filter_congr fun row _ => ?_)
  exact Bool.and_comm _ _

/-- Every operation on the SQLite store answers as expected. -/
theorem perform_meets (choices : Choices) (numbered : store.refreshTokens.Numbered)
    (operation : Operation) :
    Meets crypto store.rows operation (perform crypto choices .sqlite operation store).1
        (Store.rows (perform crypto choices .sqlite operation store).2) ∧
      (Store.refreshTokens (perform crypto choices .sqlite operation store).2).Numbered := by
  cases operation with
  | refresh call => exact refreshMethod_expected numbered call
  | listRefreshSessions filter now =>
    exact ⟨⟨listRefreshSessions_fits choices filter now, rfl⟩, numbered⟩
  | sweep refreshMaxLifetime now =>
    have evaluated : perform crypto choices .sqlite (.sweep refreshMaxLifetime now) store = _ :=
      evaluate_reapRefreshFamilies numbered (Nat.lt_succ_self _)
    rw [evaluated]
    refine ⟨⟨rfl, ?_⟩, numbered.delete _⟩
    refine (store.refreshTokens.rows_delete _).trans (filter_congr fun row _ => ?_)
    rw [decide_not]

end Perform

end Tempogate.Sqlite
