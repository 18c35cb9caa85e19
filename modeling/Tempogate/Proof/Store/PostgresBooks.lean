/-
This file shows that the Postgres store keeps the books.
-/

import Tempogate.Construction.Engine
import Tempogate.Proof.Refresh.PostgresWrites
import Tempogate.Proof.Store.Books

namespace Tempogate.Postgres

open Foundation Oidc State Action AuthCodeStatement Program Table LedgerAction Write Database Books
  List RefreshRow

/-- A family is known by its row and closed by the stamp of that row. -/
def Database.books (database : Database) : Books where
  tokens := database.refreshTokens
  known familyID := (database.family familyID).isSome
  closed familyID := database.refreshFamilies.rows.any fun row =>
    row.familyID = familyID && row.revokedAt.isSome
  codes := database.authCodes
  requests := database.authRequests
  backend := .postgres

/-- This responder serves the only transaction there is. -/
abbrev alone : Responder (server Database Write Key) (Database × Database) := solo Write.apply

section Transactions

variable {Base Change Lock Failure Result : Type} {other : String → Failure}
  {apply : Change → Base → Base} {body : Action Base Change Lock (Except Failure Result)}
  {published visible kept written : Base}

/-- A transaction that succeeds publishes what it sees, and one that fails leaves what was
published. -/
theorem evaluate_inTx {result : Except Failure Result}
    (runs : body.evaluate (solo apply) (published, visible) = (result, (kept, written))) :
    (inTx other body).evaluate (solo apply) (published, visible) =
      (result, if result.isOk then (written, written) else (kept, kept)) := by
  have begun : (inTx other body).evaluate (solo apply) (published, visible) =
      (body.bind _).evaluate (solo apply) (published, visible) := rfl
  rw [begun, evaluate_bind, runs]
  cases result <;> rfl

end Transactions

section Books

variable {crypto : Crypto} {published visible database : Database} {familyID : String}

theorem known_eq_true : database.books.known familyID = true ↔ database.HasFamily familyID :=
  family_isSome

theorem closed_eq_true :
    database.books.closed familyID = true ↔ database.FamilyStamped familyID := by
  simp [books, Database.FamilyStamped]

/-- A row change is told by the tables and the family marks it leaves. -/
theorem books_eq {books : Books} (tokens : books.tokens = database.refreshTokens)
    (codes : books.codes = database.authCodes) (requests : books.requests = database.authRequests)
    (backend : books.backend = .postgres)
    (known : ∀ familyID, database.HasFamily familyID ↔ books.known familyID = true)
    (closed : ∀ familyID, database.FamilyStamped familyID ↔ books.closed familyID = true) :
    database.books = books := by
  refine Books.ext tokens.symm (funext fun familyID => ?_) (funext fun familyID => ?_)
    codes.symm requests.symm backend.symm
  · exact Bool.eq_iff_iff.mpr (known_eq_true.trans (known familyID))
  · exact Bool.eq_iff_iff.mpr (closed_eq_true.trans (closed familyID))

section Given

variable {Result : Type} {texts : List String} {statement : Query (Except String Result)}
  {state : Database × Database}

theorem evaluate_given {outcome : Except String Result × (Database × Database)}
    (storable : ∀ text ∈ texts, Storable text) (runs : statement.evaluate alone state = outcome) :
    (given texts statement).evaluate alone state = outcome := by
  rw [given, if_pos storable]
  exact runs

theorem evaluate_refused (unstorable : ¬ ∀ text ∈ texts, Storable text) :
    (given texts statement).evaluate alone state = (.error invalidText, state) := by
  rw [given, if_neg unstorable]
  rfl

theorem all_singleton {text : String} (storable : Storable text) :
    ∀ other ∈ [text], Storable other :=
  forall_mem_singleton.mpr storable

end Given

/-- A transaction that is alone finds the family row in its first round. -/
theorem evaluate_lockFamily_found {row : FamilyRow} (found : visible.family familyID = some row)
    (rounds : Nat) :
    (lockFamily familyID (rounds + 1)).evaluate alone (published, visible) =
      (.ok row.revokedAt.isSome, (published, visible)) := by
  have present : visible.HasFamily familyID := family_isSome.mp (by rw [found]; rfl)
  refine (evaluate_then (evaluate_given (all_singleton present.storable)
    (evaluate_selectLocking _ _ _))).trans ?_
  rw [found]
  rfl

/-- It creates a missing family row and finds that row in its second round. -/
theorem evaluate_lockFamily_missing (missing : visible.family familyID = none)
    (storable : Storable familyID) (rounds : Nat) :
    (lockFamily familyID (rounds + 2)).evaluate alone (published, visible) =
      (.ok false, (published, (insertFamily familyID).apply visible)) := by
  obtain ⟨row, found⟩ := Option.isSome_iff_exists.mp
    (family_isSome.mpr (hasFamily_insert visible storable))
  have unstamped : row.revokedAt.isSome = false := by
    rw [← Bool.not_eq_true, ← familyStamped_iff found]
    intro stamped
    rcases stamped_of_apply stamped with ⟨old, present, family, -⟩ | ⟨moment, same⟩
    · exact family_eq_none.mp missing ⟨old, present, family⟩
    · cases same
  have readable := all_singleton storable
  refine (evaluate_then (evaluate_given readable (evaluate_selectLocking _ _ _))).trans ?_
  rw [missing]
  refine (evaluate_then (evaluate_given readable
    (evaluate_claim _ _ _ (by rw [missing]; rfl)))).trans ?_
  rw [← unstamped]
  exact evaluate_lockFamily_found found rounds

/-- The lock of a family tells whether it is closed and leaves it with a row. -/
theorem evaluate_lockFamily (storable : Storable familyID) (rounds : Nat) : ∃ locked : Database,
      (lockFamily familyID (rounds + 2)).evaluate alone (published, database) =
          (.ok (database.books.closed familyID), (published, locked)) ∧
        (locked = database ∧ database.HasFamily familyID ∨
          locked = (insertFamily familyID).apply database) := by
  cases found : database.family familyID with
  | some row =>
    have present : database.HasFamily familyID := family_isSome.mp (by rw [found]; rfl)
    have closed : database.books.closed familyID = row.revokedAt.isSome :=
      Bool.eq_iff_iff.mpr (closed_eq_true.trans (familyStamped_iff found))
    refine ⟨database, ?_, .inl ⟨rfl, present⟩⟩
    rw [closed]
    exact evaluate_lockFamily_found found (rounds + 1)
  | none =>
    have isOpen : database.books.closed familyID = false := by
      rw [← Bool.not_eq_true, closed_eq_true]
      rintro ⟨row, present, family, -⟩
      exact family_eq_none.mp found ⟨row, present, family⟩
    refine ⟨_, ?_, .inr rfl⟩
    rw [isOpen]
    exact evaluate_lockFamily_missing found storable rounds

/-- A saved token leaves its family known and no family closed that was not. -/
theorem books_issue {locked : Database} (row : RefreshRow) {tokens : Table tokenHash}
    (storable : Storable familyID)
    (family : locked = database ∧ database.HasFamily familyID ∨
      locked = (insertFamily familyID).apply database)
    (inserted : database.refreshTokens.insert row.inserted = some tokens) :
    ((insertRefresh row).apply locked).books = database.books.issue tokens familyID := by
  have sameTokens : locked.refreshTokens = database.refreshTokens := by
    rcases family with ⟨rfl, -⟩ | rfl <;> rfl
  have saved : (insertRefresh row).apply locked = { locked with refreshTokens := tokens } := by
    simp [Write.apply, sameTokens, inserted]
  rw [saved]
  refine books_eq rfl ?_ ?_ rfl ?_ ?_
  · rcases family with ⟨rfl, -⟩ | rfl <;> rfl
  · rcases family with ⟨rfl, -⟩ | rfl <;> rfl
  · intro name
    change locked.HasFamily name ↔ Function.update database.books.known familyID true name = true
    by_cases same : name = familyID
    · subst same
      simp only [Function.update_self, iff_true]
      rcases family with ⟨rfl, present⟩ | rfl
      · exact present
      · exact hasFamily_insert database storable
    · rw [Function.update_of_ne same, known_eq_true]
      rcases family with ⟨rfl, -⟩ | rfl
      · exact Iff.rfl
      · refine ⟨fun present => (hasFamily_of_apply present).resolve_right ?_, hasFamily_apply⟩
        simp [Ne.symm same]
  · intro name
    change locked.FamilyStamped name ↔ database.books.closed name = true
    rw [closed_eq_true]
    rcases family with ⟨rfl, -⟩ | rfl
    · exact Iff.rfl
    · refine ⟨fun stamped => (stamped_of_apply stamped).resolve_right ?_, stamped_apply⟩
      simp

/-- A save on Postgres is one that the books allow. -/
theorem saveRefresh_serves (refresh : Refresh) (rounds : Nat) :
    Serves crypto database.books (.refresh (.saveRefresh refresh))
      ((saveRefresh crypto (rounds + 2) refresh).evaluate alone (database, database)).1
      ((saveRefresh crypto (rounds + 2) refresh).evaluate alone
        (database, database)).2.1.books := by
  obtain ⟨outcome, evaluated⟩ : ∃ outcome, (saveRefresh crypto (rounds + 2) refresh).evaluate alone
      (database, database) = outcome := ⟨_, rfl⟩
  rw [evaluated]
  by_cases storable : Storable refresh.familyID
  case neg =>
    have locks : (lockFamily refresh.familyID (rounds + 2)).evaluate alone (database, database) =
        (.error invalidText, (database, database)) :=
      evaluate_then (evaluate_refused fun all => storable (all _ (.head _)))
    obtain rfl : outcome = (.error (saveRefreshFailure invalidText), (database, database)) :=
      evaluated.symm.trans (evaluate_inTx (evaluate_then locks))
    exact .saveFailed rfl ⟨_, by simp [texts, ofRefresh], storable⟩ _
  obtain ⟨locked, locks, family⟩ := @evaluate_lockFamily database database _ storable rounds
  have sameTokens : locked.refreshTokens = database.refreshTokens := by
    rcases family with ⟨rfl, -⟩ | rfl <;> rfl
  cases closed : database.books.closed refresh.familyID with
  | true =>
    rw [closed] at locks
    obtain rfl : outcome = (.error (.refreshFamilyRevoked refresh.familyID), _) :=
      evaluated.symm.trans (evaluate_inTx ((evaluate_then locks).trans rfl))
    exact .saveRefused closed
  | false =>
    rw [closed] at locks
    by_cases readable : ∀ text ∈ (ofRefresh crypto refresh).texts, Storable text
    case neg =>
      obtain rfl : outcome = (.error (saveRefreshFailure invalidText), (database, database)) :=
        evaluated.symm.trans (evaluate_inTx ((evaluate_then locks).trans
          (evaluate_then (evaluate_refused readable))))
      exact .saveFailed rfl (by simpa using readable) _
    have free : (locked.refreshHash (crypto.hash refresh.token)).isNone =
        (database.refreshTokens.insert (.ofRefresh crypto refresh)).isSome := by
      rw [refreshHash, sameTokens]
      exact isNone_find? _ (ofRefresh crypto refresh)
    cases inserted : database.refreshTokens.insert (.ofRefresh crypto refresh) with
    | none =>
      rw [inserted] at free
      obtain rfl : outcome = (.error (.duplicateRefreshToken .postgres), _) :=
        evaluated.symm.trans (evaluate_inTx ((evaluate_then locks).trans
          (evaluate_then (evaluate_given readable (evaluate_claim_taken (Key.refreshIndex _)
            (fun visible : Database => (visible.refreshHash _).isNone)
            (insertRefresh _) free)))))
      exact .saveDuplicate closed inserted
    | some tokens =>
      rw [inserted] at free
      obtain rfl : outcome = (.ok (), (_, _)) :=
        evaluated.symm.trans (evaluate_inTx ((evaluate_then locks).trans
          (evaluate_then (evaluate_given readable (evaluate_claim (Key.refreshIndex _)
            (fun visible : Database => (visible.refreshHash _).isNone)
            (insertRefresh _) free)))))
      rw [books_issue (.ofRefresh crypto refresh) storable family inserted]
      exact .saved closed inserted

variable {row : RefreshRow} {families rest : List String} {hash : String} {moment : Time}

/-- The row that a consuming update finds is the only one with its hash. -/
theorem apply_consumeRefresh {tokenHash clientID : String} (moment : Time)
    (found : database.consumableRefresh tokenHash clientID = some row) :
    ((Write.consumeRefresh tokenHash moment).apply database).books =
      database.books.spend tokenHash clientID moment := by
  have tokens : database.refreshTokens.update (fun row => row.tokenHash = tokenHash)
      (consume moment) (fun _ => rfl) =
        database.refreshTokens.update (consumes tokenHash clientID)
          (consume moment) fun _ => rfl := by
    refine update_congr fun stored present => ?_
    have hit : consumes tokenHash clientID row = true := List.find?_some found
    have hash : row.tokenHash = tokenHash := by
      simp only [consumes, Bool.and_eq_true, decide_eq_true_eq] at hit
      exact hit.1.1
    by_cases same : stored.tokenHash = tokenHash
    · rw [database.refreshTokens.eq_of_key_eq present (mem_of_find?_eq_some found)
        (same.trans hash.symm), hit, hash, decide_eq_true rfl]
    · simp [consumes, same]
  change ({ database with refreshTokens := _ } : Database).books = _
  rw [tokens]
  rfl

/-- A token that is not live is refused, and nothing changes. -/
theorem evaluate_consumeRefresh_dead {token clientID : String} (storable : Storable clientID)
    (moment : Time)
    (dead : database.rows.find? (consumes (crypto.hash token) clientID) = none) :
    (consumeRefresh crypto token clientID moment).evaluate alone (database, database) =
      (.error (database.books.refusal crypto token clientID), (database, database)) := by
  have changed := @evaluate_change _ _ _ _ Write.apply database database
    (Key.refresh (crypto.hash token))
    (fun database => database.consumableRefresh (crypto.hash token) clientID)
    (.consumeRefresh (crypto.hash token) moment)
  rw [show database.consumableRefresh (crypto.hash token) clientID = none from dead] at changed
  have selected := evaluate_autocommit (@evaluate_select _ _ Key _ Write.apply database database
    fun database => database.rows.find? (Books.spent (crypto.hash token) clientID))
  refine (evaluate_then (evaluate_given (all_singleton storable)
    (evaluate_autocommit changed))).trans ((evaluate_then selected).trans ?_)
  dsimp only [Books.refusal, Database.books]
  cases database.rows.find? (Books.spent (crypto.hash token) clientID) <;> rfl

/-- The books allow a consume. -/
theorem consumeRefresh_serves (token : String) {clientID : String} (storable : Storable clientID)
    (moment : Time) :
    Serves crypto database.books (.refresh (.consumeRefresh token clientID moment))
      ((consumeRefresh crypto token clientID moment).evaluate alone (database, database)).1
      ((consumeRefresh crypto token clientID moment).evaluate alone
        (database, database)).2.1.books := by
  cases found : database.consumableRefresh (crypto.hash token) clientID with
  | some row =>
    have changed := @evaluate_change _ _ _ _ Write.apply database database
      (Key.refresh (crypto.hash token))
      (fun database => database.consumableRefresh (crypto.hash token) clientID)
      (.consumeRefresh (crypto.hash token) moment)
    rw [found] at changed
    have evaluated : (consumeRefresh crypto token clientID moment).evaluate alone
        (database, database) = (.ok (row.scanRefresh token), _) :=
      evaluate_then (evaluate_given (all_singleton storable) (evaluate_autocommit changed))
    rw [evaluated]
    dsimp only [Option.isSome_some, ↓reduceIte]
    rw [if_pos rfl, apply_consumeRefresh moment found]
    exact .consumed found
  | none =>
    rw [evaluate_consumeRefresh_dead storable moment found]
    exact .refused found

/-- These are the rows that one locking update still has to stamp. -/
def pending (families hashes : List String) (row : RefreshRow) : Bool :=
  row.tokenHash ∈ hashes && (row.familyID ∈ families && row.revokedAt.isNone)

def stampPending (families hashes : List String) (moment : Time) (database : Database) : Database :=
  { database with
    refreshTokens := database.refreshTokens.update (pending families hashes)
      (revoke moment) (tokenHash_revoke moment) }

theorem stampPending_nil (families : List String) (moment : Time) :
    stampPending families [] moment database = database := by
  have unchanged : database.refreshTokens.update (pending families []) (revoke moment)
      (fun _ => rfl) = database.refreshTokens := update_eq_self fun row _ => by simp [pending]
  rw [stampPending, unchanged]

section

variable (missing : (database.unrevoked families).find? (fun row => row.tokenHash = hash) = none)

include missing

/-- A candidate that no longer qualifies does not count among the pending rows. -/
theorem pending_of_missing (present : row ∈ database.refreshTokens.rows) :
    pending families (hash :: rest) row = pending families rest row := by
  by_cases ofHash : row.tokenHash = hash
  · have spared : (row.familyID ∈ families && row.revokedAt.isNone) = false := by
      rw [← Bool.not_eq_true]
      intro unrevoked
      exact List.find?_eq_none.mp missing row (mem_filter.mpr ⟨present, unrevoked⟩)
        (decide_eq_true ofHash)
    simp [pending, spared]
  · simp [pending, ofHash]

/-- A candidate that no longer qualifies is skipped. -/
theorem stampPending_skip : stampPending families (hash :: rest) moment database =
      stampPending families rest moment database := by
  have same : database.refreshTokens.update (pending families (hash :: rest))
      (revoke moment) (fun _ => rfl) =
        database.refreshTokens.update (pending families rest) (revoke moment)
          fun _ => rfl :=
    update_congr fun row present => pending_of_missing missing present
  rw [stampPending, same]
  rfl

end

section

variable (found : (database.unrevoked families).find? (fun row => row.tokenHash = hash) = some row)

include found

/-- A candidate that still qualifies is stamped before the rest. -/
theorem stampPending_cons :
    stampPending families rest moment ((revokeRefresh hash moment).apply database) =
      stampPending families (hash :: rest) moment database := by
  have member := mem_filter.mp (mem_of_find?_eq_some found)
  have ofHash : row.tokenHash = hash := by simpa using List.find?_some found
  have both : (database.refreshTokens.update (fun row => row.tokenHash = hash)
      (revoke moment) fun _ => rfl).update (pending families rest)
        (revoke moment) (fun _ => rfl) =
      database.refreshTokens.update (pending families (hash :: rest)) (revoke moment)
        fun _ => rfl := by
    refine update_update ?_ ?_
    · intro stored present hit
      have same : stored = row := database.refreshTokens.eq_of_key_eq present member.1
        ((of_decide_eq_true hit).trans ofHash.symm)
      subst same
      refine ⟨?_, ?_⟩
      · simp only [pending, ofHash, mem_cons, true_or, decide_true, Bool.true_and]
        exact member.2
      · simp [pending, RefreshRow.revoke]
    · intro stored present missed
      simp [pending, missed]
  exact congrArg (fun tokens => { database with refreshTokens := tokens }) both

/-- Stamping one candidate takes it from those the update still has to stamp and count. -/
theorem countP_stamped : (database.refreshTokens.rows.countP fun row =>
        pending families (hash :: rest) row && row.consumedAt.isNone) =
      ((revokeRefresh hash moment).apply database).refreshTokens.rows.countP
          (fun row => pending families rest row && row.consumedAt.isNone) +
        if row.consumedAt.isNone then 1 else 0 := by
  have member := mem_filter.mp (mem_of_find?_eq_some found)
  have ofHash : row.tokenHash = hash := by simpa using List.find?_some found
  have hit : pending families (hash :: rest) row = true := by
    simp only [pending, ofHash, mem_cons, true_or, decide_true, Bool.true_and]
    exact member.2
  have rows : ((revokeRefresh hash moment).apply database).refreshTokens.rows =
      database.refreshTokens.rows.map fun row =>
        if row.tokenHash = hash then row.revoke moment else row := by
    refine (database.refreshTokens.rows_update _ _ _).trans ?_
    simp
  have counted := @countP_of_key _ _ _ database.refreshTokens row member.1
    ((fun row => pending families rest row && row.consumedAt.isNone) ∘ fun row =>
      if row.tokenHash = hash then row.revoke moment else row)
    (fun row => pending families (hash :: rest) row && row.consumedAt.isNone)
    (by simp [ofHash, pending, RefreshRow.revoke])
    (by
      intro other _ different
      rw [ofHash] at different
      simp [different, pending])
  rw [rows, countP_map, counted, hit, Bool.true_and]

end

/-- The locking update stamps each candidate that is still unrevoked and counts the live ones. -/
theorem evaluate_revokeEach (families : List String) (moment : Time) (hashes : List String) :
    (revokeEach families moment hashes).evaluate alone (published, visible) =
      (.ok (visible.refreshTokens.rows.countP fun row =>
          pending families hashes row && row.consumedAt.isNone),
        (published, stampPending families hashes moment visible)) := by
  induction hashes generalizing visible with
  | nil =>
    have uncounted : (visible.refreshTokens.rows.countP fun row =>
        pending families [] row && row.consumedAt.isNone) = 0 :=
      countP_eq_zero.mpr fun row _ => by simp [pending]
    rw [stampPending_nil, uncounted]
    rfl
  | cons hash rest ih =>
    have locked : (lock (Key.refresh hash) .exclusive : Query (Except String Database)).evaluate
        alone (published, visible) = (.ok visible, (published, visible)) := rfl
    refine (evaluate_then locked).trans ?_
    dsimp only
    cases found : (visible.unrevoked families).find? fun row => row.tokenHash = hash with
    | none =>
      have counted : ∀ row ∈ visible.refreshTokens.rows,
          (pending families (hash :: rest) row && row.consumedAt.isNone) =
            (pending families rest row && row.consumedAt.isNone) := by
        intro row present
        rw [pending_of_missing found present]
      rw [stampPending_skip found, countP_congr fun row present => by
        rw [counted row present]]
      exact ih
    | some row =>
      have written : (write (.revokeRefresh hash moment) : Query Unit).evaluate alone
          (published, visible) = ((), (published, (revokeRefresh hash moment).apply visible)) := rfl
      rw [← stampPending_cons found, countP_stamped found]
      refine (evaluate_then written).trans ((evaluate_then ih).trans ?_)
      cases row.consumedAt.isNone <;> rfl

/-- The second statement of a revocation stamps every unrevoked token of the families. -/
theorem evaluate_revokeTokens (families : List String) (moment : Time) :
    (revokeTokens families moment).evaluate alone (published, visible) =
      (.ok (visible.refreshTokens.rows.countP fun row => row.familyID ∈ families && row.live),
        (published, { visible with
          refreshTokens := visible.refreshTokens.update
            (fun row => row.familyID ∈ families && row.revokedAt.isNone)
            (revoke moment) fun _ => rfl })) := by
  have candidates : ∀ row ∈ visible.refreshTokens.rows,
      pending families ((visible.unrevoked families).map tokenHash) row =
        (row.familyID ∈ families && row.revokedAt.isNone) := by
    intro row present
    cases unrevoked : (row.familyID ∈ families && row.revokedAt.isNone : Bool) with
    | true =>
      have candidate : row.tokenHash ∈ (visible.unrevoked families).map tokenHash :=
        mem_map_of_mem (mem_filter.mpr ⟨present, unrevoked⟩)
      simp [pending, unrevoked, candidate]
    | false => simp [pending, unrevoked]
  have counted : (visible.refreshTokens.rows.countP fun row =>
      pending families ((visible.unrevoked families).map tokenHash) row &&
        row.consumedAt.isNone) =
      visible.refreshTokens.rows.countP fun row => row.familyID ∈ families && row.live := by
    refine countP_congr fun row present => ?_
    rw [candidates row present, live, Bool.and_assoc, Bool.and_comm row.revokedAt.isNone]
  refine (evaluate_then (evaluate_select _)).trans
    ((evaluate_revokeEach families moment _).trans ?_)
  have same : visible.refreshTokens.update
      (pending families ((visible.unrevoked families).map tokenHash))
      (revoke moment) (fun _ => rfl) = visible.refreshTokens.update
          (fun row => row.familyID ∈ families && row.revokedAt.isNone)
          (revoke moment) fun _ => rfl := update_congr candidates
  rw [counted, stampPending, same]

/-- Stamping the row of a known family closes it and no other one. -/
theorem books_close {stamped : Database} (present : database.HasFamily familyID)
    (same : stamped = (stampFamily familyID moment).apply database) :
    ({ stamped with
        refreshTokens := stamped.refreshTokens.update
          (fun row => row.familyID ∈ [familyID] && row.revokedAt.isNone)
          (revoke moment) fun _ => rfl } : Database).books =
      database.books.close familyID moment := by
  subst same
  have tokens : (database.books.close familyID moment).tokens =
      database.refreshTokens.update (fun row => row.familyID ∈ [familyID] && row.revokedAt.isNone)
        (revoke moment) fun _ => rfl :=
    update_congr fun row _ => by simp [revokes, Selector.selects]
  refine books_eq tokens rfl rfl rfl ?_ ?_
  · intro name
    change ((stampFamily familyID moment).apply database).HasFamily name ↔
      database.books.known name = true
    rw [known_eq_true]
    refine ⟨fun later => (hasFamily_of_apply later).resolve_right ?_, hasFamily_apply⟩
    simp
  · intro name
    change ((stampFamily familyID moment).apply database).FamilyStamped name ↔
      Function.update database.books.closed familyID true name = true
    by_cases same : name = familyID
    · subst same
      simp only [Function.update_self, iff_true]
      exact stamped_stamp present moment
    · rw [Function.update_of_ne same, closed_eq_true]
      refine ⟨fun stamped => (stamped_of_apply stamped).resolve_right ?_, stamped_apply⟩
      simp [Ne.symm same]

/-- A revocation of a known family counts its live tokens. -/
theorem evaluate_revokeRefreshFamily (present : database.HasFamily familyID) (moment : Time) :
    ∃ after : Database, (revokeRefreshFamily familyID moment).evaluate alone (database, database) =
        (.ok (database.refreshTokens.rows.countP fun row => row.familyID ∈ [familyID] && row.live),
          (after, after)) ∧
      after.books = database.books.close familyID moment := by
  have changed := @evaluate_change _ _ _ _ Write.apply database database (Key.family familyID)
    (fun database => database.family familyID) (.stampFamily familyID moment)
  obtain ⟨row, found⟩ := Option.isSome_iff_exists.mp (family_isSome.mpr present)
  obtain ⟨stamped, same⟩ : ∃ stamped, stamped = (stampFamily familyID moment).apply database :=
    ⟨_, rfl⟩
  rw [← same, found] at changed
  have untouched : stamped.refreshTokens = database.refreshTokens := by
    rw [same]
    rfl
  have revokes := @evaluate_revokeTokens database stamped [familyID] moment
  rw [untouched] at revokes
  refine ⟨_, evaluate_inTx ((evaluate_then (evaluate_given (all_singleton present.storable)
    changed)).trans (evaluate_then revokes)), ?_⟩
  rw [← untouched]
  exact books_close present same

theorem evaluate_revokeRefreshFamily_unknown (missing : database.family familyID = none)
    (storable : Storable familyID) (moment : Time) :
    (revokeRefreshFamily familyID moment).evaluate alone (database, database) =
      (.error (.sessionNotFound familyID), (database, database)) := by
  have changed := @evaluate_change _ _ _ _ Write.apply database database (Key.family familyID)
    (fun database => database.family familyID) (.stampFamily familyID moment)
  rw [missing] at changed
  exact evaluate_inTx (evaluate_then (evaluate_given (all_singleton storable) changed))

/-- The books allow a revocation. -/
theorem revokeRefreshFamily_serves (familyID : String) (moment : Time) :
    Serves crypto database.books (.refresh (.revokeRefreshFamily familyID moment))
      ((revokeRefreshFamily familyID moment).evaluate alone (database, database)).1
      ((revokeRefreshFamily familyID moment).evaluate alone (database, database)).2.1.books := by
  cases found : database.family familyID with
  | none =>
    have unknown : database.books.known familyID = false := by simp [books, found]
    by_cases storable : Storable familyID
    case neg =>
      have evaluated : (revokeRefreshFamily familyID moment).evaluate alone (database, database) =
          (.error (revokeFailure invalidText), (database, database)) :=
        evaluate_inTx (evaluate_then (evaluate_refused fun all => storable (all _ (.head _))))
      rw [evaluated]
      exact .revokeFailed unknown _
    rw [evaluate_revokeRefreshFamily_unknown found storable moment]
    exact .sessionUnknown unknown
  | some row =>
    have present : database.HasFamily familyID := family_isSome.mp (by rw [found]; rfl)
    obtain ⟨after, evaluated, closes⟩ := evaluate_revokeRefreshFamily present moment
    rw [evaluated]
    rw [closes]
    exact .revoked (known_eq_true.mpr present) _

variable {free : Database → Bool}

/-- An insert of its own takes a free key. -/
theorem evaluate_insertOne (key : Key) (effect : Write) (isFree : free database = true) :
    (insertOne key free effect).evaluate alone (database, database) =
      (.ok (some 1), (effect.apply database, effect.apply database)) :=
  evaluate_then (evaluate_autocommit (evaluate_claim key free effect isFree))

/-- An insert of its own leaves a taken key alone. -/
theorem evaluate_insertOne_taken (key : Key) (effect : Write) (isTaken : free database = false) :
    (insertOne key free effect).evaluate alone (database, database) =
      (.ok none, (database, database)) :=
  evaluate_then (evaluate_autocommit (evaluate_claim_taken key free effect isTaken))

/-- The row that a consuming update finds is the only one with its hash. -/
theorem update_authCodes {codeHash : String} {row : AuthCodeRow} (familyID : String) (moment : Time)
    (found : database.authCodes.rows.find? (consumable codeHash) = some row) :
    database.authCodes.update (fun row => row.codeHash = codeHash)
        (AuthCodeRow.consume familyID moment) (fun _ => rfl) =
      database.authCodes.update (consumable codeHash)
        (AuthCodeRow.consume familyID moment) fun _ => rfl := by
  refine update_congr fun stored present => ?_
  have hit : consumable codeHash row = true := List.find?_some found
  have hash : row.codeHash = codeHash := by
    simp only [consumable, Bool.and_eq_true, decide_eq_true_eq] at hit
    exact hit.1
  by_cases same : stored.codeHash = codeHash
  · rw [database.authCodes.eq_of_key_eq present (mem_of_find?_eq_some found)
      (same.trans hash.symm), hit, hash, decide_eq_true rfl]
  · simp [consumable, same]

/-- A statement on authorization codes acts on their table. -/
theorem evaluate_authCodeStatement (statement : AuthCodeStatement) :
    (authCodeStatement statement).evaluate alone (database, database) =
      (.ok (statement.execute database.authCodes).1,
        ({ database with authCodes := (statement.execute database.authCodes).2 },
          { database with authCodes := (statement.execute database.authCodes).2 })) := by
  cases statement with
  | insertAuthCode row =>
    cases inserted : database.authCodes.insert row.inserted with
    | some codes =>
      have isFree : (database.authCode row.codeHash).isNone = true :=
        (isNone_find? _ row.inserted).trans (congrArg Option.isSome inserted)
      refine (evaluate_insertOne _ _ isFree).trans ?_
      simp only [execute, Write.apply, inserted, Option.getD_some]
      rfl
    | none =>
      have isTaken : (database.authCode row.codeHash).isNone = false :=
        (isNone_find? _ row.inserted).trans (congrArg Option.isSome inserted)
      refine (evaluate_insertOne_taken _ _ isTaken).trans ?_
      simp only [execute, inserted]
      rfl
  | updateConsumed codeHash familyID moment =>
    have changed := @evaluate_change _ _ _ _ Write.apply database database (Key.authCode codeHash)
      (fun database => database.authCodes.rows.find? (consumable codeHash))
      (.consumeAuthCode codeHash familyID moment)
    cases found : database.authCodes.rows.find? (consumable codeHash) with
    | some row =>
      refine (evaluate_then (evaluate_autocommit changed)).trans ?_
      simp only [execute, found, ← update_authCodes familyID moment found]
      rfl
    | none =>
      have unchanged : database.authCodes.update (consumable codeHash)
          (AuthCodeRow.consume familyID moment) (fun _ => rfl) = database.authCodes :=
        update_eq_self fun row present =>
          Bool.eq_false_iff.mpr (List.find?_eq_none.mp found row present)
      rw [found] at changed
      refine (evaluate_then (evaluate_autocommit changed)).trans ?_
      simp only [execute, found, unchanged]
      rfl
  | selectConsumed codeHash => exact evaluate_autocommit (evaluate_select _)

/-- A statement on pending requests acts on their table. -/
theorem evaluate_authRequestStatement (statement : AuthRequestStatement) :
    (authRequestStatement statement).evaluate alone (database, database) =
      (.ok (statement.execute database.authRequests).1,
        ({ database with authRequests := (statement.execute database.authRequests).2 },
          { database with authRequests := (statement.execute database.authRequests).2 })) := by
  cases statement with
  | insertAuthRequest row =>
    cases inserted : database.authRequests.insert row with
    | some requests =>
      have isFree : (database.authRequest row.internalState).isNone = true :=
        (isNone_find? _ row).trans (congrArg Option.isSome inserted)
      refine (evaluate_insertOne _ _ isFree).trans ?_
      simp only [AuthRequestStatement.execute, Write.apply, inserted, Option.getD_some]
      rfl
    | none =>
      have isTaken : (database.authRequest row.internalState).isNone = false :=
        (isNone_find? _ row).trans (congrArg Option.isSome inserted)
      refine (evaluate_insertOne_taken _ _ isTaken).trans ?_
      simp only [AuthRequestStatement.execute, inserted]
      rfl
  | deleteAuthRequest internalState =>
    have changed := @evaluate_change _ _ _ _ Write.apply database database
      (Key.authRequest internalState) (fun database => database.authRequest internalState)
      (.deleteAuthRequest internalState)
    refine (evaluate_autocommit changed).trans ?_
    cases found : database.authRequest internalState with
    | some row => exact Prod.ext (congrArg Except.ok found.symm) rfl
    | none =>
      have unchanged : (database.authRequests.delete
          fun row => row.internalState = internalState) = database.authRequests :=
        delete_eq_self fun row present =>
          Bool.eq_false_iff.mpr (List.find?_eq_none.mp found row present)
      simp only [AuthRequestStatement.execute, unchanged]
      exact Prod.ext (congrArg Except.ok found.symm) rfl

theorem evaluate_authCodes {Result : Type} (database : Database)
    (program : Program authCodeStatements Result) :
    (program.interpret authCodeStatement).evaluate alone (database, database) =
      ((program.evaluate respond database.authCodes).1, ({ database with
            authCodes := (program.evaluate respond database.authCodes).2 },
          { database with
            authCodes := (program.evaluate respond database.authCodes).2 })) := by
  induction program generalizing database with
  | done result => rfl
  | perform statement next ih =>
    exact (evaluate_then (evaluate_authCodeStatement statement)).trans (ih _ _)

theorem evaluate_authRequests {Result : Type} (database : Database)
    (program : Program authRequestStatements Result) :
    (program.interpret authRequestStatement).evaluate alone (database, database) =
      ((program.evaluate AuthRequestStatement.respond database.authRequests).1, ({ database with
            authRequests :=
              (program.evaluate AuthRequestStatement.respond database.authRequests).2 },
          { database with
            authRequests :=
              (program.evaluate AuthRequestStatement.respond database.authRequests).2 })) := by
  induction program generalizing database with
  | done result => rfl
  | perform statement next ih =>
    exact (evaluate_then (evaluate_authRequestStatement statement)).trans (ih _ _)

variable (deviceCode : String)

theorem evaluate_lookupDeviceCode :
    (lookupDeviceCodeByDeviceCode crypto deviceCode).evaluate alone (database, database) =
      (match database.deviceCode (crypto.hash deviceCode) with
        | none => .error .deviceCodeNotFound
        | some row => .ok (row.scan deviceCode), (database, database)) := by
  have selected := evaluate_autocommit (@evaluate_select _ _ Key _ Write.apply database database
    fun database => database.deviceCode (crypto.hash deviceCode))
  refine (evaluate_then selected).trans ?_
  cases database.deviceCode (crypto.hash deviceCode) <;> rfl

/-- A poll stamps the row that it finds. -/
theorem evaluate_pollDeviceCode (now : Time) :
    (pollDeviceCode crypto deviceCode now).evaluate alone (database, database) =
      match database.deviceCode (crypto.hash deviceCode) with
      | none => (.error .deviceCodeNotFound, (database, database))
      | some row =>
        let stamp := Write.pollDeviceCode (crypto.hash deviceCode) now
          (if tooFast row now then 5 else 0)
        (.ok (tooFast row now), (stamp.apply database, stamp.apply database)) := by
  have selected := @evaluate_selectLocking _ _ _ _ Write.apply database database
    (Key.deviceCode (crypto.hash deviceCode)) .exclusive
    fun database => database.deviceCode (crypto.hash deviceCode)
  cases found : database.deviceCode (crypto.hash deviceCode) with
  | none =>
    rw [found] at selected
    exact evaluate_inTx (evaluate_then selected)
  | some row =>
    have changed := @evaluate_change _ _ _ _ Write.apply database database
      (Key.deviceCode (crypto.hash deviceCode))
      (fun database => database.deviceCode (crypto.hash deviceCode))
      (.pollDeviceCode (crypto.hash deviceCode) now (if tooFast row now then 5 else 0))
    rw [found] at selected changed
    exact evaluate_inTx ((evaluate_then selected).trans (evaluate_then changed))

/-- A device code is consumed by deleting its row. -/
theorem evaluate_consumeDeviceCode :
    (consumeDeviceCode crypto deviceCode).evaluate alone (database, database) =
      match database.deviceCode (crypto.hash deviceCode) with
      | none => (.error .deviceCodeNotFound, (database, database))
      | some row =>
        let deletion := deleteDeviceCode (crypto.hash deviceCode)
        (.ok (row.scan deviceCode), (deletion.apply database, deletion.apply database)) := by
  have changed := evaluate_autocommit (@evaluate_change _ _ _ _ Write.apply database database
    (Key.deviceCode (crypto.hash deviceCode))
    (fun database => database.deviceCode (crypto.hash deviceCode))
    (.deleteDeviceCode (crypto.hash deviceCode)))
  refine (evaluate_then changed).trans ?_
  cases database.deviceCode (crypto.hash deviceCode) <;> rfl

/-- The device methods leave the books alone. -/
theorem deviceCode_books (rounds : Nat) (call : DeviceCodeCall) :
    ((method crypto rounds (.deviceCode call)).evaluate alone (database, database)).2.1.books =
      database.books := by
  cases call with
  | lookupDeviceCodeByDeviceCode deviceCode =>
    exact congrArg (fun outcome => outcome.2.1.books) (evaluate_lookupDeviceCode deviceCode)
  | pollDeviceCode deviceCode now =>
    refine (congrArg (fun outcome => outcome.2.1.books)
      (evaluate_pollDeviceCode deviceCode now)).trans ?_
    cases database.deviceCode (crypto.hash deviceCode) <;> rfl
  | consumeDeviceCode deviceCode =>
    refine (congrArg (fun outcome => outcome.2.1.books)
      (evaluate_consumeDeviceCode deviceCode)).trans ?_
    cases database.deviceCode (crypto.hash deviceCode) <;> rfl

end Books

/-- Run alone, every plain method of the Postgres store keeps the books. -/
theorem method_serves (crypto : Crypto) (rounds : Nat) (database : Database) {call : StoreCall}
    (plain : Plain call) :
    Serves crypto database.books call
      ((method crypto (rounds + 2) call).evaluate alone (database, database)).1
      ((method crypto (rounds + 2) call).evaluate alone (database, database)).2.1.books := by
  match call, plain with
  | .refresh (.saveRefresh refresh), _ => exact saveRefresh_serves refresh rounds
  | .refresh (.consumeRefresh token _ moment), storable =>
    exact consumeRefresh_serves token storable moment
  | .refresh (.revokeRefreshFamily familyID moment), _ =>
    exact revokeRefreshFamily_serves familyID moment
  | .authCode (.saveAuthCode authCode), _ =>
    exact evaluate_authCodes database (State.saveAuthCode .postgres crypto authCode) ▸
      State.saveAuthCode_serves rfl authCode
  | .authCode (.consumeAuthCode code familyID moment), _ =>
    exact evaluate_authCodes database
        (State.consumeAuthCode .postgres crypto code familyID moment) ▸
      State.consumeAuthCode_serves .postgres code familyID moment
  | .authRequest (.saveAuthRequest authRequest), _ =>
    exact evaluate_authRequests database (State.saveAuthRequest .postgres authRequest) ▸
      State.saveAuthRequest_serves rfl authRequest
  | .authRequest (.consumeAuthRequest internalState), _ =>
    exact evaluate_authRequests database (State.consumeAuthRequest .postgres internalState) ▸
      State.consumeAuthRequest_serves .postgres internalState
  | .deviceCode call, _ => exact deviceCode_books (rounds + 2) call ▸ .device _ _

end Tempogate.Postgres
