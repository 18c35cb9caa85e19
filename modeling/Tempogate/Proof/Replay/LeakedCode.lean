/-
This file shows what a stranger can do with somebody else's authorization code.
-/

import Tempogate.Proof.Replay.Presentation

namespace Tempogate.State

open Foundation Oidc AuthCodeStatement LedgerAction

namespace Books

variable {books : Books}

/-- The row a consuming update finds is changed by it. -/
theorem redeem_ne {codeHash : String} {row : AuthCodeRow}
    (found : books.codes.rows.find? (consumable codeHash) = some row)
    (familyID : String) (moment : Time) : books.redeem codeHash familyID moment ≠ books := by
  intro same
  have hit := List.find?_some found
  have member := List.mem_of_find?_eq_some found
  have rows : (books.redeem codeHash familyID moment).codes.rows = books.codes.rows.map fun row =>
      if consumable codeHash row then row.consume familyID moment else row :=
    books.codes.rows_update _ (AuthCodeRow.consume familyID moment) fun _ => rfl
  have stamped : row.consume familyID moment ∈ books.codes.rows := by
    rw [← same, rows]
    exact List.mem_map.mpr ⟨row, member, if_pos hit⟩
  have kept : row.consume familyID moment = row := books.codes.eq_of_key_eq stamped member rfl
  have waiting : row.consumedAt.isNone = true := (Bool.and_eq_true_iff.mp hit).2
  rw [← kept] at waiting
  cases waiting

variable {codeHash : String} {row found : AuthCodeRow}

section

variable (stored : row ∈ books.codes.rows) (same : row.codeHash = codeHash)

include stored same

/-- A consuming update finds the stored row with its hash. -/
theorem eq_of_consumable (hit : books.codes.rows.find? (consumable codeHash) = some found) :
    found = row ∧ row.consumedAt = none := by
  have selected := List.find?_some hit
  simp only [consumable, Bool.and_eq_true, decide_eq_true_eq, Option.isNone_iff_eq_none] at selected
  obtain rfl : found = row := books.codes.eq_of_key_eq (List.mem_of_find?_eq_some hit) stored
    (selected.1.trans same.symm)
  exact ⟨rfl, selected.2⟩

/-- A tombstone lookup finds the stored row with its hash. -/
theorem eq_of_consumed (hit : books.codes.rows.find? (consumed codeHash) = some found) :
    found = row ∧ row.consumedAt.isSome = true := by
  have selected := List.find?_some hit
  simp only [consumed, Bool.and_eq_true, decide_eq_true_eq] at selected
  obtain rfl : found = row := books.codes.eq_of_key_eq (List.mem_of_find?_eq_some hit) stored
    (selected.1.trans same.symm)
  exact ⟨rfl, selected.2⟩

/-- A stored code can be consumed or has been. -/
theorem exists_of_stored (dead : books.codes.rows.find? (consumable codeHash) = none)
    (missing : books.codes.rows.find? (consumed codeHash) = none) : False := by
  have unconsumable := List.find?_eq_none.mp dead row stored
  have unconsumed := List.find?_eq_none.mp missing row stored
  cases stamp : row.consumedAt <;>
    simp [consumable, consumed, same, stamp] at unconsumable unconsumed

end

/-- A closed family has nothing left to revoke. -/
theorem close_eq_self_iff {familyID : String} {moment : Time} :
    books.close familyID moment = books ↔ books.closed familyID = true ∧
      ∀ token ∈ books.tokens.rows, token.familyID = familyID → token.revokedAt.isSome = true := by
  constructor
  · intro same
    refine ⟨?_, ?_⟩
    · rw [← same]
      exact Function.update_self familyID true books.closed
    · intro token member family
      by_contra unrevoked
      have selected : revokes (.family familyID) token = true := by
        simpa [revokes, Selector.selects, family] using unrevoked
      have stamped : token.revoke moment ∈ books.tokens.rows := by
        rw [← same, rows_close]
        exact List.mem_map.mpr ⟨token, member, if_pos selected⟩
      have kept : token.revoke moment = token := books.tokens.eq_of_key_eq stamped member rfl
      rw [← kept] at unrevoked
      exact unrevoked rfl
  · rintro ⟨closed, stamped⟩
    have tokens : books.tokens.update (revokes (.family familyID))
        (RefreshRow.revoke moment) (fun _ => rfl) = books.tokens := by
      refine Table.update_eq_self fun token member => ?_
      by_cases family : token.familyID = familyID
      · have revoked := stamped token member family
        cases stamp : token.revokedAt <;> simp_all [revokes]
      · simp [revokes, Selector.selects, family]
    have marks : Function.update books.closed familyID true = books.closed := by
      rw [← closed]
      exact Function.update_eq_self familyID books.closed
    unfold close
    rw [tokens, marks]

end Books

end Tempogate.State

namespace Tempogate.Engine

open Foundation Oidc Tempogate.State Books Engine

/-- The request proves that it speaks for the client. -/
def Authenticates (config : TokenConfig) (request : TokenRequest) (clientID : String) : Prop :=
  (clientCredentials request).1 = clientID ∧
    ∃ client, config.clients.lookup clientID = some client ∧
    ((client.secret = "" ∧ (clientCredentials request).2 = "") ∨
      config.clients.authenticate config.crypto clientID (clientCredentials request).2 = true)

/-- The request is refused before its code is consumed. -/
def TurnedAway (config : TokenConfig) (request : TokenRequest) : Prop :=
  (∃ error, checkLengths request = .error error) ∨
    ∃ error, checkRedemption config (redemptionRequest request) = .error error

/-- The code is consumed, and the session it started has nothing left to revoke. -/
def Settled (books : Books) (row : AuthCodeRow) : Prop :=
  row.consumedAt.isSome = true ∧ (row.familyID = "" ∨ books.known row.familyID = false ∨
    (books.closed row.familyID = true ∧
      ∀ token ∈ books.tokens.rows, token.familyID = row.familyID → token.revokedAt.isSome = true))

/-- An admitted request has authenticated its client. -/
theorem authenticates_of_admitted {config : TokenConfig} {request : TokenRequest}
    {client : Client} (admitted : checkRedemption config (redemptionRequest request) = .ok client) :
    Authenticates config request (clientCredentials request).1 := by
  have authenticated : authenticateClient config (clientCredentials request).1
      (clientCredentials request).2 .authorizationCode = .ok client := by
    unfold checkRedemption at admitted
    split at admitted
    · cases admitted
    · split at admitted
      · cases admitted
      next found =>
        split at admitted
        · cases admitted
        · split at admitted
          · cases admitted
          · rw [← admitted]
            exact found
  unfold authenticateClient at authenticated
  split at authenticated
  · cases authenticated
  next known =>
    split at authenticated
    · cases authenticated
    next proved =>
      refine ⟨rfl, _, known, ?_⟩
      rw [not_and_or, not_or, not_not, not_not, Bool.not_eq_false] at proved
      exact proved

section Stranger

variable {config : TokenConfig} {script : Script} {books after : Books} {request : TokenRequest}
  {row : AuthCodeRow} {result : Except TokenError AuthCodeRedemption}

variable (fate : Fate config script books (redemptionRequest request) result after)
  (stored : row ∈ books.codes.rows)
  (presented : row.codeHash = config.crypto.hash (request.form.get "code"))

include fate stored presented

/-- A code is never redeemed for a stranger. -/
theorem Fate.error_of_stranger (stranger : ¬ Authenticates config request row.clientID) :
    ∃ error, result = .error error := by
  cases fate with
  | @consumed client found familyID moment _ admitted _ hit =>
    obtain ⟨rfl, -⟩ := eq_of_consumable stored presented hit
    cases checked : checkAuthCode config client (redemptionRequest request)
        ((found.consume familyID moment).scanConsumed (redemptionRequest request).code) moment with
    | error error => exact ⟨error, rfl⟩
    | ok _ =>
      refine absurd checked (checkAuthCode_foreign ?_)
      intro own
      have proved := authenticates_of_admitted admitted
      rw [show (clientCredentials request).1 = found.clientID from own] at proved
      exact stranger proved
  | _ => exact ⟨_, rfl⟩

/-- A request that is turned away, or finds the session over, leaves the books alone. -/
theorem Fate.same_books
    (safe : (∃ error, checkRedemption config (redemptionRequest request) = .error error) ∨
      Settled books row) : after = books := by
  cases fate with
  | consumed admitted _ hit =>
    obtain ⟨rfl, waiting⟩ := eq_of_consumable stored presented hit
    rcases safe with ⟨error, refused⟩ | ⟨spent, -⟩
    · cases admitted.symm.trans refused
    · rw [waiting] at spent
      cases spent
  | revoked admitted dead spent named known =>
    obtain ⟨rfl, -⟩ := eq_of_consumed stored presented spent
    rcases safe with ⟨error, refused⟩ | ⟨-, empty | unknown | past⟩
    · cases admitted.symm.trans refused
    · exact absurd empty named
    · cases unknown.symm.trans known
    · exact close_eq_self_iff.mpr past
  | _ => rfl

/-- A request that gets through changes the books, unless the session is over. -/
theorem Fate.settled {client : Client}
    (admitted : checkRedemption config (redemptionRequest request) = .ok client)
    (draws : ∀ history, ∃ familyID, script history .randomFamilyID = .ok familyID)
    (same : after = books) : Settled books row := by
  cases fate with
  | refused refused => cases admitted.symm.trans refused
  | @undrawn history cause failed =>
    obtain ⟨familyID, drawn⟩ := draws history
    cases drawn.symm.trans failed
  | consumed _ _ hit => exact absurd same (redeem_ne hit _ _)
  | unknown dead missing => exact (exists_of_stored stored presented dead missing).elim
  | nameless dead spent empty =>
    obtain ⟨rfl, stamped⟩ := eq_of_consumed stored presented spent
    exact ⟨stamped, .inl empty⟩
  | revoked _ dead spent named known =>
    obtain ⟨rfl, stamped⟩ := eq_of_consumed stored presented spent
    exact ⟨stamped, .inr (.inr (close_eq_self_iff.mp same))⟩
  | stranded _ _ dead spent named unknown =>
    obtain ⟨rfl, stamped⟩ := eq_of_consumed stored presented spent
    exact ⟨stamped, .inr (.inl unknown)⟩

end Stranger

/-- A stranger who presents a stored code never gets tokens for it.
The request leaves everything as it was exactly when it is turned away before the code
is consumed, or comes after the session of the code is over. -/
theorem leaked_code_is_harmless_iff (config : TokenConfig) (engine : Engine)
    (state : engine.State) (request : TokenRequest) (row : AuthCodeRow)
    (stored : row ∈ (books state).codes.rows)
    (presented : row.codeHash = config.crypto.hash (request.form.get "code"))
    (grant : request.form.get "grant_type" = "authorization_code")
    (stranger : ¬ Authenticates config request row.clientID) :
    (∀ script history output,
      (engine.handle config script request (state, history)).1 ≠ .ok output) ∧
    ((∀ script history,
        books (engine.handle config script request (state, history)).2.1 = books state) ↔
      TurnedAway config request ∨ Settled (books state) row) := by
  refine ⟨?_, ?_, ?_⟩
  · intro script history output
    cases long : checkLengths request with
    | error error =>
      rw [handle_refused grant long]
      nofun
    | ok fits =>
      obtain ⟨result, after, exchanged, redeemed, fate⟩ :=
        redeem_fate config script state history (redemptionRequest request)
      obtain ⟨error, rfl⟩ := fate.error_of_stranger stored presented stranger
      rw [handle_failed grant long redeemed]
      nofun
  · intro unchanged
    cases long : checkLengths request with
    | error error => exact .inl (.inl ⟨error, long⟩)
    | ok fits =>
      cases admitted : checkRedemption config (redemptionRequest request) with
      | error error => exact .inl (.inr ⟨error, admitted⟩)
      | ok client =>
        obtain ⟨result, after, exchanged, redeemed, fate⟩ :=
          redeem_fate config steadyScript state [] (redemptionRequest request)
        obtain ⟨error, rfl⟩ := fate.error_of_stranger stored presented stranger
        have same := unchanged steadyScript []
        rw [handle_failed grant long redeemed] at same
        exact .inr (fate.settled stored presented admitted (fun _ => ⟨_, rfl⟩) same)
  · intro safe script history
    cases long : checkLengths request with
    | error error => rw [handle_refused grant long]
    | ok fits =>
      obtain ⟨result, after, exchanged, redeemed, fate⟩ :=
        redeem_fate config script state history (redemptionRequest request)
      obtain ⟨error, rfl⟩ := fate.error_of_stranger stored presented stranger
      rw [handle_failed grant long redeemed]
      refine fate.same_books stored presented ?_
      rcases safe with (⟨error, refused⟩ | refused) | settled
      · cases refused.symm.trans long
      · exact .inl refused
      · exact .inr settled

/-- Another client presents the code as itself. -/
def sampleTheft : TokenRequest :=
  ⟨[("grant_type", "authorization_code"), ("client_id", "other"), ("client_secret", "password"),
    ("redirect_uri", "https://other"), ("code", "code")], none⟩

/-- A registered client that authenticates as itself burns the code of another client,
and ends the session of one that was redeemed. -/
theorem leaked_code_is_burnt : ¬ Authenticates sampleConfig sampleTheft "client" ∧
    (sqlite.handleAll sampleConfig steadyScript [sampleRedemption 0] (sampleSignIn, [])).1 =
      [.ok ⟨"no-store", "no-cache", "access", "Bearer", 0, "child", "id"⟩] ∧
    (sqlite.handleAll sampleConfig steadyScript [sampleTheft, sampleRedemption 0]
        (sampleSignIn, [])).1 =
      [.error (oauthErr 400 "invalid_grant" "client_id does not match the authorization request"),
        .error (.store "oidc: revoke refresh token family" (.sessionNotFound "family"))] ∧
    ((books (sqlite.handleAll sampleConfig steadyScript [sampleRedemption 0]
        (sampleSignIn, [])).2.1).tokens.rows.map RefreshRow.live) = [true] ∧
    ((books (sqlite.handleAll sampleConfig steadyScript [sampleRedemption 0, sampleTheft]
        (sampleSignIn, [])).2.1).tokens.rows.map RefreshRow.live) = [false] := by
  refine ⟨?_, rfl, rfl, rfl, rfl⟩
  rintro ⟨same, -⟩
  exact absurd same (by decide)

/-- Another client without a secret presents the code. -/
def sampleGuess : TokenRequest :=
  ⟨[("grant_type", "authorization_code"), ("client_id", "other"),
    ("redirect_uri", "https://other"), ("code", "code")], none⟩

/-- A stranger who fails to authenticate leaves the sample code alone. -/
theorem leaked_code_is_harmless_iff_sample : TurnedAway sampleConfig sampleGuess ∧ ∀ script history,
      books (sqlite.handle sampleConfig script sampleGuess (sampleSignIn, history)).2.1 =
        @books .sqlite sampleSignIn := by
  have away : TurnedAway sampleConfig sampleGuess := .inr ⟨_, rfl⟩
  refine ⟨away, (leaked_code_is_harmless_iff sampleConfig .sqlite sampleSignIn sampleGuess
    (.ofAuthCode plainCrypto sampleAuthCode) (List.mem_singleton_self _) rfl rfl ?_).2.mpr
    (.inl away)⟩
  rintro ⟨same, -⟩
  exact absurd same (by decide)

end Tempogate.Engine
