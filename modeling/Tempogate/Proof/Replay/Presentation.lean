/-
This file follows one presentation of an authorization code from its beginning to its end.
-/

import Tempogate.Proof.Replay.Runs

namespace Tempogate.Oidc

open Foundation

variable {client : Client} {error : TokenError} {request : AuthCodeRedemptionRequest}
  {config : TokenConfig} {authCode : AuthCode} {moment : Time}

theorem dispatch_authorizationCode (config : TokenConfig) {request : TokenRequest}
    (grant : request.form.get "grant_type" = "authorization_code") :
    dispatch config request = match checkLengths request with
      | .error error => .done (.error error)
      | .ok () => authorizationCodeGrant config request := by
  unfold dispatch
  rw [grant]
  rfl

/-- A refused redemption is a client error. -/
theorem checkAuthCode_error (refused : checkAuthCode config client request authCode moment =
      .error error) : ∃ description, error = oauthErr 400 "invalid_grant" description := by
  unfold checkAuthCode errLegacyGrant at refused
  repeat' split at refused
  all_goals first
    | exact ⟨_, (Except.error.inj refused).symm⟩
    | cases refused

/-- A code is never redeemed for another client. -/
theorem checkAuthCode_foreign (foreign : request.clientID ≠ authCode.clientID) :
    checkAuthCode config client request authCode moment ≠ .ok () := by
  unfold checkAuthCode
  split
  · nofun
  split
  · nofun
  nofun

end Tempogate.Oidc

namespace Tempogate.Engine

open Foundation Oidc Tempogate.State AuthCodeStatement Program Books

section Evaluation

variable {config : TokenConfig} {engine : Engine} {script : Script} {state after : engine.State}
  {history : List (Exchange calls)} {client : Client} {error : TokenError}
  {request : AuthCodeRedemptionRequest}

/-- The backend answers a method, and its books serve it. -/
theorem exists_serves (crypto : Crypto) (state : engine.State) {call : StoreCall}
    (plain : Plain call) :
    ∃ answer after served, engine.respond crypto call state = (answer, after) ∧
      books after = served ∧ Serves crypto (books state) call answer served :=
  ⟨_, _, _, rfl, rfl, engine.respond_serves crypto state plain⟩

theorem evaluate_method {call : StoreCall} {answer : call.Answer}
    (answered : engine.respond config.crypto call state = (answer, after)) :
    (method call).evaluate (engine.serve config.crypto script) (state, history) =
      (answer, (after, ⟨.inr call, answer⟩ :: history)) := by
  change ((engine.respond config.crypto call state).1, (engine.respond config.crypto call state).2,
    (⟨.inr call, (engine.respond config.crypto call state).1⟩ : Exchange calls) :: history) = _
  rw [answered]
  rfl

theorem evaluate_outside {call : EnvironmentCall} {answer : call.Answer}
    (answered : script history call = answer) :
    (outside call).evaluate (engine.serve config.crypto script) (state, history) =
      (answer, (state, ⟨.inl call, answer⟩ :: history)) := by
  subst answered
  rfl

/-- The revocation of a known family closes it, and that of an unknown one fails. -/
theorem evaluate_revokeFamily (familyID : String) (moment : Time) :
    ∃ result after exchanged, (revokeFamily familyID moment).evaluate
        (engine.serve config.crypto script) (state, history) = (result, (after, exchanged)) ∧
      (result = .ok () ∧ (books state).known familyID = true ∧
          books after = (books state).close familyID moment ∨
        ∃ error, result = .error (.store "oidc: revoke refresh token family" error) ∧
          (books state).known familyID = false ∧ books after = books state) := by
  obtain ⟨answer, after, served, answered, same, serves⟩ := exists_serves config.crypto state
    (show Plain (.refresh (.revokeRefreshFamily familyID moment)) from trivial)
  cases serves with
  | revoked isKnown count =>
    exact ⟨_, after, _, evaluate_then (evaluate_method answered), .inl ⟨rfl, isKnown, same⟩⟩
  | sessionUnknown isUnknown | revokeFailed isUnknown cause =>
    exact ⟨_, after, _, evaluate_then (evaluate_method answered), .inr ⟨_, rfl, isUnknown, same⟩⟩

/-- These are the results of a redemption and the books it leaves. -/
inductive Fate (config : TokenConfig) (script : Script) (books : Books)
    (request : AuthCodeRedemptionRequest) : Except TokenError AuthCodeRedemption → Books → Prop
  | refused {error : TokenError} (refused : checkRedemption config request = .error error) :
      Fate config script books request (.error error) books
  | undrawn {history : List (Exchange calls)} {cause : String}
      (failed : script history .randomFamilyID = .error cause) :
      Fate config script books request
        (.error (.internal ("oidc: generate refresh token family: " ++ cause))) books
  | consumed {client : Client} {row : AuthCodeRow} {familyID : String} {moment : Time}
      {history : List (Exchange calls)} (admitted : checkRedemption config request = .ok client)
      (drawn : script history .randomFamilyID = .ok familyID)
      (found : books.codes.rows.find? (consumable (config.crypto.hash request.code)) = some row) :
      Fate config script books request (match checkAuthCode config client request
            ((row.consume familyID moment).scanConsumed request.code) moment with
          | .error error => .error error
          | .ok () => .ok ⟨⟨row.connectorID, row.subject, row.email⟩, row.clientID, row.nonce,
              familyID⟩)
        (books.redeem (config.crypto.hash request.code) familyID moment)
  | unknown (dead : books.codes.rows.find? (consumable (config.crypto.hash request.code)) = none)
      (missing : books.codes.rows.find? (consumed (config.crypto.hash request.code)) = none) :
      Fate config script books request (.error errUnknownCode) books
  | nameless {row : AuthCodeRow} (dead : books.codes.rows.find?
        (consumable (config.crypto.hash request.code)) = none)
      (spent : books.codes.rows.find? (consumed (config.crypto.hash request.code)) = some row)
      (empty : row.familyID = "") :
      Fate config script books request (.error errUnknownCode) books
  | revoked {client : Client} {row : AuthCodeRow} {moment : Time}
      (admitted : checkRedemption config request = .ok client) (dead : books.codes.rows.find?
        (consumable (config.crypto.hash request.code)) = none)
      (spent : books.codes.rows.find? (consumed (config.crypto.hash request.code)) = some row)
      (named : row.familyID ≠ "") (known : books.known row.familyID = true) :
      Fate config script books request (.error errUnknownCode) (books.close row.familyID moment)
  | stranded {client : Client} {row : AuthCodeRow} (error : StoreError)
      (admitted : checkRedemption config request = .ok client) (dead : books.codes.rows.find?
        (consumable (config.crypto.hash request.code)) = none)
      (spent : books.codes.rows.find? (consumed (config.crypto.hash request.code)) = some row)
      (named : row.familyID ≠ "") (unknown : books.known row.familyID = false) :
      Fate config script books request
        (.error (.store "oidc: revoke refresh token family" error)) books

/-- A code that is found and cannot be consumed was consumed before. -/
theorem settle_rejected (admitted : checkRedemption config request = .ok client)
    (dead : (books state).codes.rows.find?
      (consumable (config.crypto.hash request.code)) = none) (familyID : String)
    (moment : Time) :
    ∃ result after exchanged, (settle config client request familyID moment
        (.error ((books state).rejection config.crypto request.code))).evaluate
          (engine.serve config.crypto script) (state, history) = (result, (after, exchanged)) ∧
      Fate config script (books state) request result (books after) := by
  unfold rejection
  cases spent : (books state).codes.rows.find? (consumed (config.crypto.hash request.code)) with
  | none => exact ⟨_, state, history, rfl, .unknown dead spent⟩
  | some row =>
    change ∃ result after exchanged, evaluate _ (ite (row.familyID ≠ "") _ _) _ = _ ∧ _
    by_cases named : row.familyID ≠ ""
    · rw [if_pos named]
      obtain ⟨_, after, exchanged, evaluated, ⟨rfl, known, same⟩ | ⟨error, rfl, unknown, same⟩⟩ :=
        evaluate_revokeFamily row.familyID moment
      · refine ⟨_, after, exchanged, evaluate_then evaluated, ?_⟩
        rw [same]
        exact .revoked admitted dead spent named known
      · refine ⟨_, after, exchanged, evaluate_then evaluated, ?_⟩
        rw [same]
        exact .stranded error admitted dead spent named unknown
    · rw [if_neg named]
      exact ⟨_, state, history, rfl, .nameless dead spent (not_not.mp named)⟩

/-- Every redemption meets one of these fates. -/
theorem redeem_fate (config : TokenConfig) (script : Script) (state : engine.State)
    (history : List (Exchange calls)) (request : AuthCodeRedemptionRequest) :
    ∃ result after exchanged, (redeemAuthorizationCode config request).evaluate
        (engine.serve config.crypto script) (state, history) = (result, (after, exchanged)) ∧
      Fate config script (books state) request result (books after) := by
  cases admitted : checkRedemption config request with
  | error error =>
    unfold redeemAuthorizationCode
    rw [admitted]
    exact ⟨_, state, history, rfl, .refused admitted⟩
  | ok client =>
  cases drawn : (script history .randomFamilyID : Except String String) with
  | error cause =>
    unfold redeemAuthorizationCode
    rw [admitted]
    exact ⟨_, state, _, evaluate_then (evaluate_outside drawn), .undrawn drawn⟩
  | ok familyID =>
  obtain ⟨moment, told⟩ : ∃ moment : Time, script (⟨.inl .randomFamilyID, .ok familyID⟩ :: history)
      .now = moment := ⟨_, rfl⟩
  obtain ⟨answer, after, served, answered, same, serves⟩ := exists_serves config.crypto state
    (show Plain (.authCode (.consumeAuthCode request.code familyID moment)) from trivial)
  obtain ⟨exchanged, consumed⟩ : ∃ exchanged, (redeemAuthorizationCode config request).evaluate
      (engine.serve config.crypto script) (state, history) =
        (settle config client request familyID moment answer).evaluate
          (engine.serve config.crypto script) (after, exchanged) := by
    unfold redeemAuthorizationCode
    rw [admitted]
    exact ⟨_, (evaluate_then (evaluate_outside drawn)).trans ((evaluate_then
      (evaluate_outside told)).trans (evaluate_then (evaluate_method answered)))⟩
  rw [consumed]
  cases serves with
  | @codeConsumed _ _ _ row found =>
    have settled : settle config client request familyID moment
        (.ok ((row.consume familyID moment).scanConsumed request.code)) = .done
          (match checkAuthCode config client request
              ((row.consume familyID moment).scanConsumed request.code) moment with
            | .error error => .error error
            | .ok () => .ok ⟨⟨row.connectorID, row.subject, row.email⟩, row.clientID, row.nonce,
                familyID⟩) := by
      unfold settle
      dsimp only
      cases checkAuthCode config client request
        ((row.consume familyID moment).scanConsumed request.code) moment <;> rfl
    rw [settled]
    refine ⟨_, after, _, rfl, ?_⟩
    rw [same]
    exact .consumed admitted drawn found
  | codeRejected dead =>
    rw [← same] at dead ⊢
    exact settle_rejected admitted dead familyID moment

variable {request : TokenRequest}

section

variable (grant : request.form.get "grant_type" = "authorization_code")

include grant

/-- A request that is refused before it reaches its code leaves everything as it was. -/
theorem handle_refused (long : checkLengths request = .error error)
    (current : engine.State × List (Exchange calls)) :
    engine.handle config script request current = (.error error, current) := by
  unfold handle
  rw [dispatch_authorizationCode config grant, long]
  rfl

/-- A request of admissible lengths redeems its code and answers. -/
theorem handle_redeem {result : Except TokenError AuthCodeRedemption}
    {exchanged : List (Exchange calls)} (fits : checkLengths request = .ok ())
    (redeemed : (redeemAuthorizationCode config (redemptionRequest request)).evaluate
      (engine.serve config.crypto script) (state, history) = (result, (after, exchanged))) :
    engine.handle config script request (state, history) =
      (answerRedeemed config result).evaluate (engine.serve config.crypto script)
        (after, exchanged) := by
  unfold handle
  rw [dispatch_authorizationCode config grant, fits]
  refine (evaluate_then redeemed).trans ?_
  cases result <;> rfl

/-- A failed redemption is the answer. -/
theorem handle_failed {exchanged : List (Exchange calls)}
    (fits : checkLengths request = .ok ())
    (redeemed : (redeemAuthorizationCode config (redemptionRequest request)).evaluate
      (engine.serve config.crypto script) (state, history) = (.error error, (after, exchanged))) :
    engine.handle config script request (state, history) = (.error error, (after, exchanged)) :=
  handle_redeem grant fits redeemed

end

end Evaluation

/-- Nothing outside fails. -/
def steadyScript : Script := fun _ => sampleAnswers [] 0

end Tempogate.Engine
