/-
This file defines the abstract store that both backends implement.
-/

import Tempogate.Foundation.Sequential
import Tempogate.Proof.Refresh.Ledger

namespace Tempogate.State

open Foundation Oidc AuthCodeStatement LedgerAction AuthCodeRow RefreshRow AuthRequest

/-- The books hold the tokens, the codes and the pending requests.
They know each family that ever had a token, and a closed family takes no more of them. -/
@[ext] structure Books where
  tokens : Table tokenHash
  known : String → Bool
  closed : String → Bool
  codes : Table codeHash
  requests : Table internalState
  backend : Backend

namespace Books

variable (books : Books)

def issue (tokens : Table tokenHash) (familyID : String) : Books :=
  { books with tokens := tokens, known := Function.update books.known familyID true }

def spend (tokenHash clientID : String) (moment : Time) : Books :=
  { books with
    tokens := books.tokens.update (consumes tokenHash clientID)
      (consume moment) (tokenHash_consume moment) }

def close (familyID : String) (moment : Time) : Books :=
  { books with
    tokens := books.tokens.update (revokes (.family familyID))
      (revoke moment) (tokenHash_revoke moment)
    closed := Function.update books.closed familyID true }

def redeem (codeHash familyID : String) (moment : Time) : Books :=
  { books with
    codes := books.codes.update (consumable codeHash) (consume familyID moment)
      (codeHash_consume familyID moment) }

def withdraw (internalState : String) : Books :=
  { books with
    requests := books.requests.delete fun row => row.internalState = internalState }

theorem rows_spend (tokenHash clientID : String) (moment : Time) :
    (books.spend tokenHash clientID moment).tokens.rows =
      (consume tokenHash clientID moment).apply books.tokens.rows :=
  books.tokens.rows_update _ (consume moment) fun _ => rfl

theorem rows_close (familyID : String) (moment : Time) : (books.close familyID moment).tokens.rows =
      (revoke (.family familyID) moment).apply books.tokens.rows :=
  books.tokens.rows_update _ (revoke moment) fun _ => rfl

/-- A token with this hash was issued to the client and then spent. -/
def spent (tokenHash clientID : String) (row : RefreshRow) : Bool :=
  row.tokenHash = tokenHash && row.clientID = clientID && row.consumedAt.isSome

/-- A presented token that is not live is reused or not found. -/
def refusal (crypto : Crypto) (token clientID : String) : StoreError :=
  match books.tokens.rows.find? (spent (crypto.hash token) clientID) with
  | some row => .refreshReused (row.scanRefresh token)
  | none => .refreshNotFound

/-- A presented code that was already consumed is reused, and another one is not found. -/
def rejection (crypto : Crypto) (code : String) : StoreError :=
  match books.codes.rows.find? (consumed (crypto.hash code)) with
  | some row => .authCodeReused (row.scanTombstone code)
  | none => .authCodeNotFound

/-- These are the answers the books give to each method and the books they leave. -/
inductive Serves (crypto : Crypto) (books : Books) :
    (call : StoreCall) → call.Answer → Books → Prop
  | saved {refresh : Refresh} {tokens : Table tokenHash}
      (isOpen : books.closed refresh.familyID = false)
      (inserted : books.tokens.insert (.ofRefresh crypto refresh) = some tokens) :
      Serves crypto books (.refresh (.saveRefresh refresh)) (.ok ())
        (books.issue tokens refresh.familyID)
  | saveDuplicate {refresh : Refresh} (isOpen : books.closed refresh.familyID = false)
      (taken : books.tokens.insert (.ofRefresh crypto refresh) = none) :
      Serves crypto books (.refresh (.saveRefresh refresh))
        (.error (.duplicateRefreshToken books.backend)) books
  | saveFailed {refresh : Refresh} (strict : books.backend = .postgres)
      (unstorable : ∃ text ∈ (RefreshRow.ofRefresh crypto refresh).texts, ¬ Storable text)
      (cause : String) :
      Serves crypto books (.refresh (.saveRefresh refresh)) (.error (.failure cause)) books
  | saveRefused {refresh : Refresh} (isClosed : books.closed refresh.familyID = true) :
      Serves crypto books (.refresh (.saveRefresh refresh))
        (.error (.refreshFamilyRevoked refresh.familyID)) books
  | consumed {token clientID : String} {moment : Time} {row : RefreshRow}
      (found : books.tokens.rows.find? (consumes (crypto.hash token) clientID) = some row) :
      Serves crypto books (.refresh (.consumeRefresh token clientID moment))
        (.ok (row.scanRefresh token)) (books.spend (crypto.hash token) clientID moment)
  | refused {token clientID : String} {moment : Time}
      (dead : books.tokens.rows.find? (consumes (crypto.hash token) clientID) = none) :
      Serves crypto books (.refresh (.consumeRefresh token clientID moment))
        (.error (books.refusal crypto token clientID)) books
  | revoked {familyID : String} {moment : Time} (isKnown : books.known familyID = true)
      (count : Nat) :
      Serves crypto books (.refresh (.revokeRefreshFamily familyID moment)) (.ok count)
        (books.close familyID moment)
  | sessionUnknown {familyID : String} {moment : Time} (isUnknown : books.known familyID = false) :
      Serves crypto books (.refresh (.revokeRefreshFamily familyID moment))
        (.error (.sessionNotFound familyID)) books
  | revokeFailed {familyID : String} {moment : Time} (isUnknown : books.known familyID = false)
      (cause : String) :
      Serves crypto books (.refresh (.revokeRefreshFamily familyID moment))
        (.error (.failure cause)) books
  | codeSaved {authCode : AuthCode} {codes : Table codeHash}
      (inserted : books.codes.insert (.ofAuthCode crypto authCode) = some codes) :
      Serves crypto books (.authCode (.saveAuthCode authCode)) (.ok ())
        { books with codes := codes }
  | codeDuplicate {authCode : AuthCode}
      (taken : books.codes.insert (.ofAuthCode crypto authCode) = none) :
      Serves crypto books (.authCode (.saveAuthCode authCode))
        (.error (.duplicateAuthCode books.backend)) books
  | codeConsumed {code familyID : String} {moment : Time} {row : AuthCodeRow}
      (found : books.codes.rows.find? (consumable (crypto.hash code)) = some row) :
      Serves crypto books (.authCode (.consumeAuthCode code familyID moment))
        (.ok ((row.consume familyID moment).scanConsumed code))
        (books.redeem (crypto.hash code) familyID moment)
  | codeRejected {code familyID : String} {moment : Time}
      (dead : books.codes.rows.find? (consumable (crypto.hash code)) = none) :
      Serves crypto books (.authCode (.consumeAuthCode code familyID moment))
        (.error (books.rejection crypto code)) books
  | requestSaved {authRequest : AuthRequest} {requests : Table internalState}
      (inserted : books.requests.insert authRequest = some requests) :
      Serves crypto books (.authRequest (.saveAuthRequest authRequest)) (.ok ())
        { books with requests := requests }
  | requestDuplicate {authRequest : AuthRequest}
      (taken : books.requests.insert authRequest = none) :
      Serves crypto books (.authRequest (.saveAuthRequest authRequest))
        (.error (.duplicateInternalState books.backend)) books
  | requestConsumed {internalState : String} {row : AuthRequest}
      (found : books.requests.rows.find? (fun row => row.internalState = internalState) =
        some row) :
      Serves crypto books (.authRequest (.consumeAuthRequest internalState)) (.ok row)
        (books.withdraw internalState)
  | requestUnknown {internalState : String}
      (missing : books.requests.rows.find? (fun row => row.internalState = internalState) = none) :
      Serves crypto books (.authRequest (.consumeAuthRequest internalState))
        (.error .authRequestNotFound) books
  | device (call : DeviceCodeCall) (answer : call.Answer) :
      Serves crypto books (.deviceCode call) answer books

/-- The token endpoint calls every method but the two that revoke by person, and presents tokens
for registered clients only. -/
def Plain : StoreCall → Prop
  | .refresh (.revokeRefreshByEmail _ _) | .refresh (.revokeRefreshBySubject _ _ _) => False
  | .refresh (.consumeRefresh _ client _) => Storable client
  | _ => True

end Books

def AuthCodeStatement.respond : Responder authCodeStatements (Table codeHash) := .runs execute

def AuthRequestStatement.respond : Responder authRequestStatements (Table internalState) :=
  .runs AuthRequestStatement.execute

section Shared

variable {crypto : Crypto} {books : Books} (backend : Backend)

/-- The books allow a saved code. -/
theorem saveAuthCode_serves {backend : Backend} (same : books.backend = backend)
    (authCode : AuthCode) :
    Books.Serves crypto books (.authCode (.saveAuthCode authCode))
      ((saveAuthCode backend crypto authCode).evaluate respond books.codes).1
      { books with
        codes := ((saveAuthCode backend crypto authCode).evaluate respond books.codes).2 } := by
  cases inserted : books.codes.insert (ofAuthCode crypto authCode).inserted with
  | some codes =>
    have executed : (insertAuthCode (.ofAuthCode crypto authCode)).execute books.codes =
        (some 1, codes) := by
      simp only [execute, inserted]
      rfl
    have evaluated : (saveAuthCode backend crypto authCode).evaluate respond
        books.codes = (.ok (), codes) :=
      Program.evaluate_runs executed
    rw [evaluated]
    exact .codeSaved inserted
  | none =>
    have executed : (insertAuthCode (.ofAuthCode crypto authCode)).execute books.codes =
        (none, books.codes) := by
      simp only [execute, inserted]
      rfl
    have evaluated : (saveAuthCode backend crypto authCode).evaluate respond
        books.codes = (.error (.duplicateAuthCode backend), books.codes) :=
      Program.evaluate_runs executed
    rw [evaluated]
    exact same ▸ .codeDuplicate inserted

/-- A code that cannot be consumed is rejected, and nothing changes. -/
theorem evaluate_consumeAuthCode_dead {code : String} (familyID : String) (moment : Time)
    (dead : books.codes.rows.find? (consumable (crypto.hash code)) = none) :
    (consumeAuthCode backend crypto code familyID moment).evaluate respond
      books.codes = (.error (books.rejection crypto code), books.codes) := by
  have updated : (updateConsumed (crypto.hash code) familyID moment).execute
      books.codes = ((books.codes.rows.find? (consumable (crypto.hash code))).map
          (consume familyID moment),
        books.codes.update (consumable (crypto.hash code))
          (consume familyID moment) fun _ => rfl) := rfl
  have unchanged : books.codes.update (consumable (crypto.hash code))
      (consume familyID moment) (fun _ => rfl) = books.codes :=
    Table.update_eq_self fun row present =>
      Bool.eq_false_iff.mpr (List.find?_eq_none.mp dead row present)
  rw [dead, unchanged] at updated
  have selected : (selectConsumed (crypto.hash code)).execute books.codes =
      (books.codes.rows.find? (consumed (crypto.hash code)), books.codes) := rfl
  refine (Program.evaluate_runs updated).trans
    ((Program.evaluate_runs selected).trans ?_)
  unfold Books.rejection
  cases books.codes.rows.find? (consumed (crypto.hash code)) <;> rfl

/-- The books allow a redemption. -/
theorem consumeAuthCode_serves (code familyID : String) (moment : Time) :
    Books.Serves crypto books (.authCode (.consumeAuthCode code familyID moment))
      ((consumeAuthCode backend crypto code familyID moment).evaluate respond books.codes).1
      { books with
        codes := ((consumeAuthCode backend crypto code familyID moment).evaluate
          respond books.codes).2 } := by
  cases found : books.codes.rows.find? (consumable (crypto.hash code)) with
  | some row =>
    have updated : (updateConsumed (crypto.hash code) familyID moment).execute books.codes =
          ((books.codes.rows.find? (consumable (crypto.hash code))).map (consume familyID moment),
          books.codes.update (consumable (crypto.hash code))
            (consume familyID moment) fun _ => rfl) := rfl
    rw [found] at updated
    have evaluated : (consumeAuthCode backend crypto code familyID moment).evaluate
        respond books.codes = (.ok ((row.consume familyID moment).scanConsumed code), _) :=
      Program.evaluate_runs updated
    rw [evaluated]
    exact .codeConsumed found
  | none =>
    rw [evaluate_consumeAuthCode_dead backend familyID moment found]
    exact .codeRejected found

/-- The books allow a saved request. -/
theorem saveAuthRequest_serves {backend : Backend} (same : books.backend = backend)
    (authRequest : AuthRequest) :
    Books.Serves crypto books (.authRequest (.saveAuthRequest authRequest))
      ((saveAuthRequest backend authRequest).evaluate AuthRequestStatement.respond books.requests).1
      { books with
        requests := ((saveAuthRequest backend authRequest).evaluate AuthRequestStatement.respond
          books.requests).2 } := by
  cases inserted : books.requests.insert authRequest with
  | some requests =>
    have executed : (AuthRequestStatement.insertAuthRequest authRequest).execute books.requests =
        (some 1, requests) := by
      simp only [AuthRequestStatement.execute, inserted]
      rfl
    have evaluated : (saveAuthRequest backend authRequest).evaluate AuthRequestStatement.respond
        books.requests = (.ok (), requests) :=
      Program.evaluate_runs executed
    rw [evaluated]
    exact .requestSaved inserted
  | none =>
    have executed : (AuthRequestStatement.insertAuthRequest authRequest).execute books.requests =
        (none, books.requests) := by
      simp only [AuthRequestStatement.execute, inserted]
      rfl
    have evaluated : (saveAuthRequest backend authRequest).evaluate AuthRequestStatement.respond
        books.requests = (.error (.duplicateInternalState backend), books.requests) :=
      Program.evaluate_runs executed
    rw [evaluated]
    exact same ▸ .requestDuplicate inserted

/-- The books allow a consumed request. -/
theorem consumeAuthRequest_serves (internalState : String) :
    Books.Serves crypto books (.authRequest (.consumeAuthRequest internalState))
      ((consumeAuthRequest backend internalState).evaluate AuthRequestStatement.respond
        books.requests).1
      { books with
        requests := ((consumeAuthRequest backend internalState).evaluate
          AuthRequestStatement.respond books.requests).2 } := by
  have deleted : (AuthRequestStatement.deleteAuthRequest internalState).execute books.requests =
      (books.requests.rows.find? (fun row => row.internalState = internalState),
        books.requests.delete fun row => row.internalState = internalState) := rfl
  cases found : books.requests.rows.find? (fun row => row.internalState = internalState) with
  | some row =>
    rw [found] at deleted
    have evaluated : (consumeAuthRequest backend internalState).evaluate
        AuthRequestStatement.respond books.requests = (.ok row, _) :=
      Program.evaluate_runs deleted
    rw [evaluated]
    exact .requestConsumed found
  | none =>
    have unchanged : (books.requests.delete fun row => row.internalState = internalState) =
        books.requests :=
      Table.delete_eq_self fun row present =>
        Bool.eq_false_iff.mpr (List.find?_eq_none.mp found row present)
    rw [found, unchanged] at deleted
    have evaluated : (consumeAuthRequest backend internalState).evaluate
        AuthRequestStatement.respond books.requests =
          (.error .authRequestNotFound, books.requests) :=
      Program.evaluate_runs deleted
    rw [evaluated]
    exact .requestUnknown found

end Shared

end Tempogate.State
