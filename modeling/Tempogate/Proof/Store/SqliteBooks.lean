/-
This file shows that the SQLite store keeps the books.
-/

import Tempogate.Construction.Engine
import Tempogate.Proof.Store.Books

namespace Tempogate.Sqlite

open Foundation Oidc State RefreshStatement LedgerAction RefreshRow Books Selector Program

/-- A family is known by its rows and closed by a revoked one. -/
def Store.books (store : Store) : Books where
  tokens := store.refreshTokens
  known familyID := store.rows.any fun row => row.familyID = familyID
  closed familyID := store.rows.any fun row => row.familyID = familyID && row.revokedAt.isSome
  codes := store.authCodes
  requests := store.authRequests
  backend := .sqlite

variable {Result : Type}

/-- A refresh statement leaves the other tables alone. -/
theorem execute_refresh {store : Store} (statement : RefreshStatement) {reply : statement.Reply}
    {table : Table tokenHash}
    (executed : statement.execute store.refreshTokens = (reply, table)) :
    (Statement.refresh statement).execute store =
      (reply, { store with refreshTokens := table }) := by
  simp only [Statement.execute, executed]
  rfl

section Books

variable {crypto : Crypto} {store : Store}

variable {familyID : String}

theorem closed_eq_true :
    store.books.closed familyID = true ↔ FamilyRevoked store.rows familyID := by
  simp [Store.books, FamilyRevoked]

theorem known_eq_true :
    store.books.known familyID = true ↔ ∃ row ∈ store.rows, row.familyID = familyID := by
  simp [Store.books]

/-- The books after a refresh statement are told by the tokens and the marks it leaves. -/
theorem books_eq {tokens : Table tokenHash} {books : Books}
    (sameTokens : books.tokens = tokens) (codes : books.codes = store.authCodes)
    (requests : books.requests = store.authRequests) (backend : books.backend = .sqlite)
    (known : ∀ familyID, (∃ row ∈ tokens.rows, row.familyID = familyID) ↔
      books.known familyID = true)
    (closed : ∀ familyID, FamilyRevoked tokens.rows familyID ↔ books.closed familyID = true) :
    { store with refreshTokens := tokens }.books = books := by
  refine Books.ext sameTokens.symm (funext fun familyID => ?_) (funext fun familyID => ?_)
    codes.symm requests.symm backend.symm
  · exact Bool.eq_iff_iff.mpr (known_eq_true.trans (known familyID))
  · exact Bool.eq_iff_iff.mpr (closed_eq_true.trans (closed familyID))

/-- A save on SQLite is one that the books allow. -/
theorem saveRefresh_serves (refresh : Refresh) :
    Serves crypto store.books (.refresh (.saveRefresh refresh))
      ((saveRefresh crypto refresh).evaluate respond store).1
      ((saveRefresh crypto refresh).evaluate respond store).2.books := by
  rcases insertUnlessRevoked_cases (.ofRefresh crypto refresh) store.refreshTokens with
    ⟨result, revoked⟩ | ⟨others, ⟨result, taken⟩ | ⟨after, result, inserted⟩⟩
  · have evaluated : (saveRefresh crypto refresh).evaluate respond store =
        (.error (.refreshFamilyRevoked refresh.familyID), store) :=
      evaluate_runs (execute_refresh (.insertRefresh _) result)
    rw [evaluated]
    exact .saveRefused (closed_eq_true.mpr revoked)
  all_goals
    have isOpen : store.books.closed refresh.familyID = false := by
      rw [← Bool.not_eq_true, closed_eq_true]
      rintro ⟨row, present, family, stamped⟩
      simp [others row present family] at stamped
  · have evaluated : (saveRefresh crypto refresh).evaluate respond store =
        (.error (.duplicateRefreshToken .sqlite), store) :=
      evaluate_runs (execute_refresh (.insertRefresh _) result)
    rw [evaluated]
    exact .saveDuplicate isOpen taken
  · have evaluated : (saveRefresh crypto refresh).evaluate respond store =
        (.ok (), { store with refreshTokens := after }) :=
      evaluate_runs (execute_refresh (.insertRefresh _) result)
    have rows := (Table.rows_insert inserted).1
    have books : { store with refreshTokens := after }.books =
        store.books.issue after refresh.familyID := by
      refine books_eq rfl rfl rfl rfl ?_ ?_
      · intro familyID
        rw [rows]
        by_cases same : familyID = refresh.familyID
        · subst same
          simp [Books.issue, RefreshRow.inserted, RefreshRow.ofRefresh]
        · simp [Books.issue, RefreshRow.inserted, RefreshRow.ofRefresh, same, Ne.symm same,
            known_eq_true]
      · intro familyID
        rw [rows]
        simp [FamilyRevoked, Books.issue, RefreshRow.inserted, or_and_right, exists_or,
          closed_eq_true]
    rw [evaluated, books]
    exact .saved isOpen inserted

/-- Spending a token leaves the marks of its family. -/
theorem books_spend (tokenHash clientID : String) (moment : Time) : ({ store with
        refreshTokens := store.refreshTokens.update (consumable tokenHash clientID) (consume moment)
          fun _ => rfl } : Store).books =
      store.books.spend tokenHash clientID moment := by
  have rows : (store.refreshTokens.update (consumable tokenHash clientID)
      (consume moment) fun _ => rfl).rows = (consume tokenHash clientID moment).apply store.rows :=
    store.refreshTokens.rows_update _ _ _
  have same : ∀ row : RefreshRow,
      (if consumes tokenHash clientID row then row.consume moment else row).familyID =
          row.familyID ∧
        (if consumes tokenHash clientID row then row.consume moment
          else row).revokedAt = row.revokedAt := by
    intro row
    split <;> exact ⟨rfl, rfl⟩
  refine books_eq rfl rfl rfl rfl ?_ ?_
  · intro familyID
    rw [rows]
    simp only [apply, List.mem_map, exists_exists_and_eq_and, same]
    exact known_eq_true.symm
  · intro familyID
    rw [rows]
    simp only [FamilyRevoked, apply, List.mem_map, exists_exists_and_eq_and, same]
    exact closed_eq_true.symm

/-- A token that is not live is refused, and nothing changes. -/
theorem evaluate_consumeRefresh_dead {token clientID : String} (moment : Time)
    (dead : store.rows.find? (consumes (crypto.hash token) clientID) = none) :
    (consumeRefresh crypto token clientID moment).evaluate respond store =
      (.error (store.books.refusal crypto token clientID), store) := by
  have unchanged : store.refreshTokens.update
      (consumable (crypto.hash token) clientID) (consume moment)
      (fun _ => rfl) = store.refreshTokens :=
    Table.update_eq_self fun row present =>
      Bool.eq_false_iff.mpr (List.find?_eq_none.mp dead row present)
  have missing : store.rows.find? (consumable (crypto.hash token) clientID) = none := dead
  have executed : (updateConsumed (crypto.hash token) clientID moment).execute
      store.refreshTokens = (none, store.refreshTokens) := by
    simp only [execute, missing, Option.map_none, unchanged]
    rfl
  have selected : (selectConsumed (crypto.hash token) clientID).execute store.refreshTokens =
        (store.rows.find? (Books.spent (crypto.hash token) clientID), store.refreshTokens) := rfl
  refine (evaluate_runs (execute_refresh (.updateConsumed _ _ _) executed)).trans
    ((evaluate_runs (execute_refresh (.selectConsumed _ _) selected)).trans ?_)
  dsimp only [Books.refusal, Store.books]
  cases store.rows.find? (Books.spent (crypto.hash token) clientID) <;> rfl

/-- The books allow a consume. -/
theorem consumeRefresh_serves (token clientID : String) (moment : Time) :
    Serves crypto store.books (.refresh (.consumeRefresh token clientID moment))
      ((consumeRefresh crypto token clientID moment).evaluate respond store).1
      ((consumeRefresh crypto token clientID moment).evaluate respond store).2.books := by
  cases found : store.rows.find? (consumable (crypto.hash token) clientID) with
  | some row =>
    have executed : (updateConsumed (crypto.hash token) clientID moment).execute
        store.refreshTokens = (some (row.consume moment), store.refreshTokens.update
          (consumable (crypto.hash token) clientID)
          (consume moment) fun _ => rfl) := by
      simp only [execute, found, Option.map_some]
      rfl
    have evaluated : (consumeRefresh crypto token clientID moment).evaluate respond store =
        (.ok (row.scanRefresh token), { store with
          refreshTokens := store.refreshTokens.update (consumable (crypto.hash token) clientID)
            (consume moment) fun _ => rfl }) :=
      evaluate_runs (execute_refresh (.updateConsumed _ _ _) executed)
    rw [evaluated, books_spend]
    exact .consumed found
  | none =>
    rw [evaluate_consumeRefresh_dead moment found]
    exact .refused found

/-- Revoking a known family closes it and no other one. -/
theorem books_close (known : store.books.known familyID = true) (moment : Time) : ({ store with
        refreshTokens := store.refreshTokens.update (revocable (.family familyID))
          (revoke moment) fun _ => rfl } : Store).books =
      store.books.close familyID moment := by
  have rows : (store.refreshTokens.update (revocable (.family familyID))
      (revoke moment) fun _ => rfl).rows = (revoke (.family familyID) moment).apply store.rows :=
    store.refreshTokens.rows_update _ _ _
  have family : ∀ row : RefreshRow,
      (if revokes (.family familyID) row then row.revoke moment else row).familyID =
        row.familyID := by
    intro row
    split <;> rfl
  refine books_eq rfl rfl rfl rfl ?_ ?_
  · intro other
    rw [rows]
    simp only [apply, List.mem_map, exists_exists_and_eq_and, family]
    exact known_eq_true.symm
  · intro other
    rw [rows]
    simp only [FamilyRevoked, apply, List.mem_map, exists_exists_and_eq_and, family]
    by_cases same : other = familyID
    · subst same
      obtain ⟨row, present, isFamily⟩ := known_eq_true.mp known
      simp only [close, Function.update_self, iff_true]
      refine ⟨row, present, isFamily, ?_⟩
      split
      · rfl
      next kept =>
        simpa [revokes, selects, isFamily, Option.isSome_iff_ne_none] using kept
    · simp only [close, Function.update_of_ne same]
      refine Iff.trans (exists_congr fun row => and_congr_right fun _ =>
        and_congr_right fun isOther => ?_) closed_eq_true.symm
      have missed : revokes (.family familyID) row = false := by
        simp [revokes, selects, isOther, same]
      rw [if_neg (Bool.eq_false_iff.mp missed)]

/-- The live tokens among the revoked rows are counted. -/
theorem count_revocable (rows : List RefreshRow) (selector : Selector) :
    ((rows.filter (revocable selector)).map fun row => row.consumedAt.isNone).count true =
      rows.countP fun row => selector.selects row && row.live := by
  rw [List.count_eq_countP, List.countP_map, List.countP_filter]
  refine List.countP_congr fun row _ => ?_
  simp only [revocable, live, Function.comp_apply, beq_true, Bool.and_eq_true]
  tauto

theorem evaluate_revokeRefresh (store : Store) (selector : Selector) (moment : Time) :
    (revokeRefresh selector moment).evaluate respond store =
      (.ok (store.rows.countP fun row => selector.selects row && row.live), { store with
          refreshTokens := store.refreshTokens.update (revocable selector)
            (revoke moment) fun _ => rfl }) := by
  rw [← count_revocable]
  exact evaluate_runs (execute_refresh (.updateRevoked _ _) rfl)

theorem execute_existsFamily (store : Store) (familyID : String) :
    (Statement.refresh (.existsFamily familyID)).execute store =
      (store.books.known familyID, store) := rfl

/-- A family without rows is not found, and nothing changes. -/
theorem evaluate_revokeRefreshFamily_unknown (unknown : store.books.known familyID = false)
    (moment : Time) :
    (revokeRefreshFamily familyID moment).evaluate respond store =
      (.error (.sessionNotFound familyID), store) := by
  have others : ∀ row ∈ store.rows, row.familyID ≠ familyID := by
    intro row present same
    rw [known_eq_true.mpr ⟨row, present, same⟩] at unknown
    cases unknown
  have none : ∀ row ∈ store.rows, revocable (.family familyID) row = false := by
    intro row present
    simp [revocable, selects, others row present]
  have unchanged : store.refreshTokens.update (revocable (.family familyID)) (revoke moment)
      (fun _ => rfl) = store.refreshTokens := Table.update_eq_self none
  have uncounted : (store.rows.countP fun row =>
      (family familyID).selects row && row.live) = 0 :=
    List.countP_eq_zero.mpr fun row present => by simp [selects, others row present]
  have updated := evaluate_revokeRefresh store (.family familyID) moment
  rw [unchanged, uncounted] at updated
  have missing := execute_existsFamily store familyID
  rw [unknown] at missing
  refine (evaluate_bind _ _ _ _).trans ?_
  rw [updated]
  exact evaluate_runs missing

/-- A revocation of a known family counts its live tokens. -/
theorem evaluate_revokeRefreshFamily (known : store.books.known familyID = true) (moment : Time) :
    (revokeRefreshFamily familyID moment).evaluate respond store =
      (.ok (store.rows.countP fun row => (family familyID).selects row && row.live),
        { store with
          refreshTokens := store.refreshTokens.update (revocable (.family familyID)) (revoke moment)
            fun _ => rfl }) := by
  have updated := evaluate_revokeRefresh store (.family familyID) moment
  have remains := execute_existsFamily { store with
    refreshTokens := store.refreshTokens.update (revocable (.family familyID)) (revoke moment)
      fun _ => rfl } familyID
  rw [books_close known moment,
    show (store.books.close familyID moment).known familyID = true from known] at remains
  refine (evaluate_bind _ _ _ _).trans ?_
  generalize (store.rows.countP fun row =>
    (family familyID).selects row && row.live) = count at updated ⊢
  rw [updated]
  rcases Nat.eq_zero_or_pos count with rfl | some
  · exact evaluate_runs remains
  · change evaluate _ (if count > 0 then _ else _) _ = _
    rw [if_pos some]
    rfl

theorem revokeRefreshFamily_serves (familyID : String) (moment : Time) :
    Serves crypto store.books (.refresh (.revokeRefreshFamily familyID moment))
      ((revokeRefreshFamily familyID moment).evaluate respond store).1
      ((revokeRefreshFamily familyID moment).evaluate respond store).2.books := by
  cases known : store.books.known familyID with
  | false =>
    rw [evaluate_revokeRefreshFamily_unknown known]
    exact .sessionUnknown known
  | true =>
    rw [evaluate_revokeRefreshFamily known]
    dsimp only
    rw [books_close known moment]
    exact .revoked known _

/-- Statements on authorization codes act on their own table. -/
theorem evaluate_authCodes (store : Store) (program : Program authCodeStatements Result) :
    (program.interpret fun statement => query (.authCode statement)).evaluate respond store =
      ((program.evaluate AuthCodeStatement.respond store.authCodes).1, { store with
          authCodes := (program.evaluate AuthCodeStatement.respond store.authCodes).2 }) := by
  induction program generalizing store with
  | done result => rfl
  | perform statement next ih =>
    exact ih (.ok (AuthCodeStatement.execute statement store.authCodes).1)
      { store with authCodes := (AuthCodeStatement.execute statement store.authCodes).2 }

/-- Statements on pending requests act on their own table. -/
theorem evaluate_authRequests (store : Store) (program : Program authRequestStatements Result) :
    (program.interpret fun statement => query (.authRequest statement)).evaluate respond store =
      ((program.evaluate AuthRequestStatement.respond store.authRequests).1, { store with
          authRequests :=
            (program.evaluate AuthRequestStatement.respond store.authRequests).2 }) := by
  induction program generalizing store with
  | done result => rfl
  | perform statement next ih =>
    exact ih (.ok (AuthRequestStatement.execute statement store.authRequests).1) { store with
        authRequests := (AuthRequestStatement.execute statement store.authRequests).2 }

end Books

/-- The program leaves the books as they are. -/
def LeavesBooks {Result : Type} (program : Program statements Result) : Prop :=
  ∀ store : Store, (program.evaluate respond store).2.books = store.books

theorem leavesBooks_query (statement : DeviceCodeStatement)
    {continuation : Except String statement.Reply → Program statements Result}
    (rest : ∀ answer, LeavesBooks (continuation answer)) :
    LeavesBooks (query (.deviceCode statement) >>= continuation) := by
  intro store
  exact rest (.ok (statement.execute store.deviceCodes).1)
    { store with deviceCodes := (statement.execute store.deviceCodes).2 }

theorem leavesBooks_done (result : Result) :
    LeavesBooks (.done result : Program statements Result) := fun _ => rfl

variable (crypto : Crypto) (deviceCode : String)

theorem lookupDeviceCodeByDeviceCode_leavesBooks :
    LeavesBooks (lookupDeviceCodeByDeviceCode crypto deviceCode) := by
  refine leavesBooks_query (.selectDeviceCode _) ?_
  rintro (cause | none | row) <;> exact leavesBooks_done _

theorem pollDeviceCode_leavesBooks (now : Time) :
    LeavesBooks (pollDeviceCode crypto deviceCode now) := by
  have slowed : LeavesBooks (pollDeviceCode.slowDown now (crypto.hash deviceCode)) := by
    refine leavesBooks_query (.slowDown _ _) ?_
    rintro (cause | affected) <;> exact leavesBooks_done _
  refine leavesBooks_query (.selectDeviceCode _) ?_
  rintro (cause | none | row)
  · exact leavesBooks_done _
  · exact leavesBooks_done _
  · dsimp only
    split
    · refine leavesBooks_query (.swapLastPolled _ _ _) ?_
      rintro (cause | _ | _ | affected)
      · exact leavesBooks_done _
      · exact slowed
      · exact leavesBooks_done _
      · exact slowed
    · exact slowed

theorem consumeDeviceCode_leavesBooks : LeavesBooks (consumeDeviceCode crypto deviceCode) := by
  refine leavesBooks_query (.deleteDeviceCode _) ?_
  rintro (cause | none | row) <;> exact leavesBooks_done _

/-- Run alone, every plain method of the SQLite store keeps the books. -/
theorem method_serves (store : Store) {call : StoreCall} (plain : Plain call) :
    Serves crypto store.books call ((method crypto call).evaluate respond store).1
      ((method crypto call).evaluate respond store).2.books := by
  match call, plain with
  | .refresh (.saveRefresh refresh), _ => exact saveRefresh_serves refresh
  | .refresh (.consumeRefresh token clientID moment), _ =>
    exact consumeRefresh_serves token clientID moment
  | .refresh (.revokeRefreshFamily familyID moment), _ =>
    exact revokeRefreshFamily_serves familyID moment
  | .authCode (.saveAuthCode authCode), _ =>
    exact evaluate_authCodes store (State.saveAuthCode .sqlite crypto authCode) ▸
      State.saveAuthCode_serves rfl authCode
  | .authCode (.consumeAuthCode code familyID moment), _ =>
    exact evaluate_authCodes store (State.consumeAuthCode .sqlite crypto code familyID moment) ▸
      State.consumeAuthCode_serves .sqlite code familyID moment
  | .authRequest (.saveAuthRequest authRequest), _ =>
    exact evaluate_authRequests store (State.saveAuthRequest .sqlite authRequest) ▸
      State.saveAuthRequest_serves rfl authRequest
  | .authRequest (.consumeAuthRequest internalState), _ =>
    exact evaluate_authRequests store (State.consumeAuthRequest .sqlite internalState) ▸
      State.consumeAuthRequest_serves .sqlite internalState
  | .deviceCode (.lookupDeviceCodeByDeviceCode deviceCode), _ =>
    exact lookupDeviceCodeByDeviceCode_leavesBooks crypto deviceCode store ▸ .device _ _
  | .deviceCode (.pollDeviceCode deviceCode now), _ =>
    exact pollDeviceCode_leavesBooks crypto deviceCode now store ▸ .device _ _
  | .deviceCode (.consumeDeviceCode deviceCode), _ =>
    exact consumeDeviceCode_leavesBooks crypto deviceCode store ▸ .device _ _

end Tempogate.Sqlite
