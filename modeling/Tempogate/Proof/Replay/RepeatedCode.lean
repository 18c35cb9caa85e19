/-
This file follows requests that present one authorization code one after another.
-/

import Tempogate.Proof.Replay.LeakedCode

namespace Tempogate.Engine

open Foundation Oidc Tempogate.State AuthCodeStatement Program AuthCodeRow List

/-- The backend of the books can keep the text. -/
def Keeps (books : Books) (text : String) : Prop := books.backend = .postgres → Storable text

/-- No draw, resolver or signature fails, and drawn refresh tokens are new.
Drawn and stored texts are such that the backend can keep them. -/
structure Reliable (crypto : Crypto) (books : Books) (script : Script) : Prop where
  family : ∀ history, ∃ familyID, script history .randomFamilyID = .ok familyID ∧
    Keeps books familyID
  refresh : ∀ history, ∃ token, script history .newRefresh = .ok token ∧
    crypto.hash token ∉ books.tokens.rows.map RefreshRow.tokenHash
  resolve : ∀ history email, ∃ grant, script history (.resolve email) = .ok grant
  mint : ∀ history request, ∃ signed, script history (.mint request) = .ok signed ∧
    Keeps books signed.2
  mintIDToken : ∀ history request, ∃ signed, script history (.mintIDToken request) = .ok signed
  codes : ∀ row ∈ books.codes.rows,
    ∀ text ∈ [row.clientID, row.connectorID, row.subject, row.email], Keeps books text

/-- The request presents the code and authenticates a client that may redeem codes. -/
structure PresentsCode (config : TokenConfig) (code : String) (request : TokenRequest) : Prop where
  grant : request.form.get "grant_type" = "authorization_code"
  code : request.form.get "code" = code
  fits : checkLengths request = .ok ()
  authenticated : ∃ client, authenticateClient config (clientCredentials request).1
    (clientCredentials request).2 .authorizationCode = .ok client

/-- The answer is an OAuth error that blames the request. -/
def ClientError {Result : Type} : Except TokenError Result → Prop
  | .error (.oauth status code _) =>
    400 ≤ status ∧ status < 500 ∧ (code = "invalid_grant" ∨ code = "invalid_request")
  | _ => False

/-- No consumed code names a family without tokens when the request gets to it. -/
def Answerable (config : TokenConfig) (books : Books) (request : TokenRequest) : Prop :=
  ¬ ∃ client row, checkRedemption config (redemptionRequest request) = .ok client ∧
    books.codes.rows.find? (consumed (config.crypto.hash (request.form.get "code"))) = some row ∧
    row.familyID ≠ "" ∧ books.known row.familyID = false

/-- The code cannot be consumed any more. -/
def Dead (books : Books) (codeHash : String) : Prop :=
  books.codes.rows.find? (consumable codeHash) = none

section Issue

variable {config : TokenConfig} {engine : Engine} {script : Script} {state : engine.State}
  {history : List (Exchange calls)} {start : Books}

section

variable (reliable : Reliable config.crypto start script)
  (tokens : (books state).tokens = start.tokens)
  (backend : (books state).backend = start.backend) {identity : Identity} {clientID : String}
  (kept : ∀ text ∈ [clientID, identity.connectorID, identity.subject, identity.email],
    Keeps start text)

include reliable tokens backend kept

/-- Minting and saving succeed, unless the family has been revoked. -/
theorem evaluate_mintAndSave (nonce : String) (grant : Perms.Grant) {lineage : Lineage}
    (named : Keeps start lineage.familyID) (moment : Time) :
    ∃ result after exchanged,
      (mintAndSave config identity clientID nonce grant lineage moment).evaluate
          (engine.serve config.crypto script) (state, history) = (result, (after, exchanged)) ∧
        (books after).codes = (books state).codes ∧ (result.isOk = true ∨ ClientError result) := by
  obtain ⟨signed, minted, jti⟩ := reliable.mint history {
    subject := tokenSubject identity.connectorID identity.subject
    permissions := grant.toClaim
    ttl := config.accessTTL
    email := identity.email
    idp := identity.connectorID
    clientID := clientID }
  obtain ⟨idToken, signedID⟩ := reliable.mintIDToken _ {
    subject := tokenSubject identity.connectorID identity.subject
    email := identity.email
    idp := identity.connectorID
    audience := clientID
    nonce := nonce
    authTime := lineage.authTime
    ttl := idTokenTTL }
  obtain ⟨token, drawn, fresh⟩ := reliable.refresh _
  obtain ⟨answer, after, served, answered, same, serves⟩ := exists_serves config.crypto state
    (show Books.Plain (.refresh (.saveRefresh {
      token := token
      jti := signed.2
      clientID := clientID
      connectorID := identity.connectorID
      subject := identity.subject
      email := identity.email
      familyID := lineage.familyID
      authTime := lineage.authTime
      createdAt := moment
      expiresAt := refreshExpiry config lineage moment })) from trivial)
  have saved : (mintAndSave config identity clientID nonce grant lineage moment).evaluate
      (engine.serve config.crypto script) (state, history) = _ :=
    (evaluate_then (evaluate_outside minted)).trans
      ((evaluate_then (evaluate_outside signedID)).trans
        ((evaluate_then (evaluate_outside drawn)).trans (evaluate_then (evaluate_method answered))))
  rw [saved]
  cases serves with
  | saved isOpen inserted =>
    refine ⟨_, after, _, rfl, ?_, .inl rfl⟩
    rw [same]
    rfl
  | saveDuplicate isOpen taken =>
    rw [Table.insert_eq_none, tokens] at taken
    exact absurd taken fresh
  | saveFailed strict unstorable =>
    obtain ⟨text, listed, refused⟩ := unstorable
    have keeps : Keeps start text := by
      rcases mem_cons.mp listed with rfl | listed
      · exact jti
      rcases mem_append.mp (show text ∈ [_, _, _, _] ++ [_] from listed) with old | drawn
      · exact kept text old
      · rw [mem_singleton.mp drawn]
        exact named
    exact absurd (keeps (backend ▸ strict)) refused
  | saveRefused isClosed =>
    exact ⟨_, after, _, rfl, congrArg Books.codes same, .inr ⟨by decide, by decide, .inl rfl⟩⟩

/-- Issuing succeeds, unless the person has no permissions or the family has been revoked. -/
theorem evaluate_issue (nonce : String) {lineage : Lineage}
    (named : Keeps start lineage.familyID) :
    ∃ result after exchanged, (issue config identity clientID nonce lineage).evaluate
          (engine.serve config.crypto script) (state, history) = (result, (after, exchanged)) ∧
        (books after).codes = (books state).codes ∧
        (result.isOk = true ∨ result = .error .noPermissions ∨ ClientError result) := by
  obtain ⟨granted, resolved⟩ := reliable.resolve history identity.email
  obtain ⟨permission, decided⟩ : ∃ permission, (permitted identity.email).evaluate
      (engine.serve config.crypto script) (state, history) =
        (.ok permission, (state, ⟨.inl (.resolve identity.email), .ok granted⟩ :: history)) := by
    cases granted with
    | none => exact ⟨none, evaluate_then (evaluate_outside resolved)⟩
    | some grant => exact ⟨_, evaluate_then (evaluate_outside resolved)⟩
  have asked : (issue config identity clientID nonce lineage).evaluate
      (engine.serve config.crypto script) (state, history) = _ := evaluate_then decided
  rw [asked]
  cases permission with
  | none => exact ⟨_, state, _, rfl, rfl, .inr (.inl rfl)⟩
  | some grant =>
    obtain ⟨moment, told⟩ : ∃ moment : Time,
        script (⟨.inl (.resolve identity.email), .ok granted⟩ :: history) .now = moment :=
      ⟨_, rfl⟩
    obtain ⟨begun, exchanged, started, begins⟩ : ∃ begun exchanged,
        (startLineage lineage moment).evaluate (engine.serve config.crypto script)
          (state, ⟨.inl .now, moment⟩ ::
          ⟨.inl (.resolve identity.email), .ok granted⟩ :: history) =
            (.ok begun, (state, exchanged)) ∧ Keeps start begun.familyID := by
      unfold startLineage
      split
      · obtain ⟨familyID, drawn, keeps⟩ := reliable.family (⟨.inl .now, moment⟩ ::
          ⟨.inl (.resolve identity.email), .ok granted⟩ :: history)
        exact ⟨_, _, evaluate_then (evaluate_outside drawn), keeps⟩
      · exact ⟨_, _, rfl, named⟩
    obtain ⟨result, after, last, minted, codes, outcome⟩ := @evaluate_mintAndSave config engine
      script state exchanged start reliable tokens backend identity clientID kept nonce grant begun
      begins moment
    refine ⟨result, after, last, ?_, codes, outcome.imp_right .inr⟩
    exact (evaluate_then (evaluate_outside told)).trans ((evaluate_then started).trans minted)

/-- A redeemed code is answered with tokens or with a client error. -/
theorem evaluate_answerRedeemed (nonce : String) {familyID : String}
    (named : Keeps start familyID) :
    ∃ result after exchanged, (answerRedeemed config
        (.ok ⟨identity, clientID, nonce, familyID⟩)).evaluate
          (engine.serve config.crypto script) (state, history) = (result, (after, exchanged)) ∧
        (books after).codes = (books state).codes ∧
        (result.isOk = true ∨ ClientError result) := by
  obtain ⟨moment, told⟩ : ∃ moment : Time, script history .now = moment := ⟨_, rfl⟩
  obtain ⟨result, after, exchanged, issued, codes, outcome⟩ := @evaluate_issue config engine
    script state (⟨.inl .now, moment⟩ :: history) start reliable tokens backend identity clientID
    kept nonce ⟨familyID, moment⟩ named
  have asked : (answerRedeemed config (.ok ⟨identity, clientID, nonce, familyID⟩)).evaluate
      (engine.serve config.crypto script) (state, history) = _ :=
    (evaluate_then (evaluate_outside told)).trans (evaluate_then issued)
  rw [asked]
  rcases outcome with success | rfl | refused
  · cases result with
    | error error => cases success
    | ok output => exact ⟨_, after, exchanged, rfl, codes, .inl rfl⟩
  · exact ⟨_, after, exchanged, rfl, codes, .inr ⟨by decide, by decide, .inl rfl⟩⟩
  · match result, refused with
    | .error (.oauth status code description), refused =>
      exact ⟨_, after, exchanged, rfl, codes, .inr refused⟩

end

end Issue

section Step

variable {config : TokenConfig} {script : Script} {start books after : Books}
  {request : TokenRequest} {code : String} {result : Except TokenError AuthCodeRedemption}

/-- A consumed code is dead. -/
theorem dead_redeem (books : Books) (codeHash familyID : String) (moment : Time) :
    Dead (books.redeem codeHash familyID moment) codeHash := by
  have rows : (books.redeem codeHash familyID moment).codes.rows = books.codes.rows.map fun row =>
      if consumable codeHash row then row.consume familyID moment else row :=
    books.codes.rows_update _ (consume familyID moment) fun _ => rfl
  unfold Dead
  rw [rows, List.find?_eq_none]
  intro row member
  obtain ⟨old, -, rfl⟩ := mem_map.mp member
  split
  · simp [consumable, consume]
  next missed => exact missed

/-- A code that can be consumed has no tombstone. -/
theorem answerable_of_consumable {row : AuthCodeRow} (found : books.codes.rows.find?
      (consumable (config.crypto.hash (request.form.get "code"))) = some row) :
    Answerable config books request := by
  rintro ⟨client, spent, -, hit, -⟩
  have selected := List.find?_some found
  simp only [consumable, Bool.and_eq_true, decide_eq_true_eq] at selected
  obtain ⟨rfl, stamped⟩ := Books.eq_of_consumed (mem_of_find?_eq_some found) selected.1 hit
  rw [Option.isNone_iff_eq_none.mp selected.2] at stamped
  cases stamped

/-- An authenticated request is refused as invalid. -/
theorem clientError_of_refused {error : TokenError} (presents : PresentsCode config code request)
    (refused : checkRedemption config (redemptionRequest request) = .error error) :
    ClientError (.error error : Except TokenError TokenOutput) := by
  obtain ⟨client, authenticated⟩ := presents.authenticated
  unfold checkRedemption at refused
  rw [show authenticateClient config (redemptionRequest request).clientID
    (redemptionRequest request).clientSecret .authorizationCode = .ok client from authenticated]
    at refused
  dsimp only at refused
  repeat' split at refused
  all_goals first
    | (cases refused; exact ⟨by decide, by decide, .inr rfl⟩)
    | cases refused

/-- What a redemption answers and leaves tells whether the code could be answered for. -/
theorem Fate.answered (fate : Fate config script books (redemptionRequest request) result after)
    (presents : PresentsCode config code request) (reliable : Reliable config.crypto start script) :
    (∃ error, result = .error error ∧ (Answerable config books request ↔
          ClientError (.error error : Except TokenError TokenOutput)) ∧
        (Dead books (config.crypto.hash code) → Dead after (config.crypto.hash code)) ∧
        (Dead after (config.crypto.hash code) ∨ after = books)) ∨
      ∃ row ∈ books.codes.rows, ∃ familyID, result = .ok ⟨⟨row.connectorID, row.subject, row.email⟩,
          row.clientID, row.nonce, familyID⟩ ∧ Keeps start familyID ∧
        Answerable config books request ∧ ¬ Dead books (config.crypto.hash code) ∧
        Dead after (config.crypto.hash code) ∧ after.tokens = books.tokens ∧
        after.backend = books.backend := by
  obtain rfl := presents.code
  cases fate with
  | refused refused =>
    refine .inl ⟨_, rfl, iff_of_true ?_ (clientError_of_refused presents refused), id, .inr rfl⟩
    rintro ⟨client, row, admitted, -⟩
    cases admitted.symm.trans refused
  | @undrawn history cause failed =>
    obtain ⟨familyID, drawn, -⟩ := reliable.family history
    cases drawn.symm.trans failed
  | @consumed client row familyID moment history admitted drawn found =>
    have keeps : Keeps start familyID := by
      obtain ⟨again, told, keeps⟩ := reliable.family history
      exact Except.ok.inj (told.symm.trans drawn) ▸ keeps
    have dead := dead_redeem books (config.crypto.hash (request.form.get "code")) familyID moment
    cases checked : checkAuthCode config client (redemptionRequest request)
        ((row.consume familyID moment).scanConsumed (redemptionRequest request).code) moment with
    | error error =>
      obtain ⟨description, rfl⟩ := checkAuthCode_error checked
      refine .inl ⟨_, rfl, iff_of_true (answerable_of_consumable found) ?_, fun _ => dead,
        .inl dead⟩
      exact ⟨by decide, by decide, .inl rfl⟩
    | ok _ =>
      refine .inr ⟨row, mem_of_find?_eq_some found, _, rfl, keeps,
        answerable_of_consumable found, ?_, dead, rfl, rfl⟩
      intro none
      cases none.symm.trans found
  | unknown dead missing =>
    refine .inl ⟨_, rfl, iff_of_true ?_ ⟨by decide, by decide, .inl rfl⟩, id, .inr rfl⟩
    rintro ⟨client, row, -, spent, -⟩
    cases spent.symm.trans missing
  | nameless dead spent empty =>
    refine .inl ⟨_, rfl, iff_of_true ?_ ⟨by decide, by decide, .inl rfl⟩, id, .inr rfl⟩
    rintro ⟨client, row, -, found, named, -⟩
    cases found.symm.trans spent
    exact named empty
  | revoked admitted dead spent named known =>
    refine .inl ⟨_, rfl, iff_of_true ?_ ⟨by decide, by decide, .inl rfl⟩, id, .inl dead⟩
    rintro ⟨client, row, -, found, -, unknown⟩
    cases found.symm.trans spent
    cases unknown.symm.trans known
  | @stranded client row _ admitted dead spent named unknown =>
    refine .inl ⟨_, rfl, iff_of_false ?_ id, id, .inr rfl⟩
    intro answerable
    exact answerable ⟨client, row, admitted, spent, named, unknown⟩

end Step

section Run

variable {config : TokenConfig} {engine : Engine} {script : Script} {start : Books}
  {state : engine.State} {history : List (Exchange calls)} {request : TokenRequest} {code : String}

/-- A presentation of a dead code gets no tokens.
One that gets tokens or changes anything leaves the code dead. -/
theorem handle_presented (reliable : Reliable config.crypto start script)
    (presents : PresentsCode config code request)
    (untouched : Dead (books state) (config.crypto.hash code) ∨ books state = start) :
    ∃ result after exchanged,
      engine.handle config script request (state, history) = (result, (after, exchanged)) ∧
      (Answerable config (books state) request ↔ result.isOk = true ∨ ClientError result) ∧
      (Dead (books state) (config.crypto.hash code) →
        Dead (books after) (config.crypto.hash code) ∧ result.isOk = false) ∧
      (Dead (books after) (config.crypto.hash code) ∨
        books after = books state ∧ result.isOk = false) := by
  obtain ⟨redeemed, after, exchanged, evaluated, fate⟩ :=
    redeem_fate config script state history (redemptionRequest request)
  rcases fate.answered presents reliable with
    ⟨error, rfl, answerable, stays, changes⟩ |
      ⟨row, member, familyID, rfl, keeps, answerable, alive, dead, tokens, backend⟩
  · refine ⟨_, after, exchanged, handle_failed presents.grant presents.fits evaluated, ?_,
      fun dead => ⟨stays dead, rfl⟩, changes.imp_right fun same => ⟨same, rfl⟩⟩
    exact answerable.trans (or_iff_right (by nofun)).symm
  · have same : books state = start := untouched.resolve_left alive
    obtain ⟨result, last, lasting, answered, codes, outcome⟩ := @evaluate_answerRedeemed config
      engine script after exchanged start reliable (tokens.trans (congrArg Books.tokens same))
      (backend.trans (congrArg Books.backend same)) ⟨row.connectorID, row.subject, row.email⟩
      row.clientID (reliable.codes row (same ▸ member)) row.nonce familyID keeps
    refine ⟨result, last, lasting,
      (handle_redeem presents.grant presents.fits evaluated).trans answered,
      iff_of_true answerable outcome, fun dead => absurd dead alive, .inl ?_⟩
    unfold Dead
    rw [codes]
    exact dead

/-- Every request of the run can be answered for when its turn comes. -/
def AllAnswerable (config : TokenConfig) (engine : Engine) (script : Script) :
    List TokenRequest → engine.State × List (Exchange calls) → Prop
  | [], _ => True
  | request :: rest, current => Answerable config (books current.1) request ∧
      AllAnswerable config engine script rest (engine.handle config script request current).2

/-- At most one answer has tokens, and every other one is a client error. -/
def AnsweredOnce (answers : List (Except TokenError TokenOutput)) : Prop :=
  answers.countP Except.isOk ≤ 1 ∧ ∀ answer ∈ answers, answer.isOk = true ∨ ClientError answer

/-- A code gets tokens at most once, and none when it is dead. The answers are tokens and client
errors exactly when every request can be answered for. -/
theorem handleAll_presented (reliable : Reliable config.crypto start script)
    (requests : List TokenRequest)
    (presents : ∀ request ∈ requests, PresentsCode config code request)
    (untouched : Dead (books state) (config.crypto.hash code) ∨ books state = start) :
    (engine.handleAll config script requests (state, history)).1.countP Except.isOk ≤ 1 ∧
      (Dead (books state) (config.crypto.hash code) →
        (engine.handleAll config script requests (state, history)).1.countP Except.isOk = 0) ∧
      ((∀ answer ∈ (engine.handleAll config script requests (state, history)).1,
          answer.isOk = true ∨ ClientError answer) ↔
        AllAnswerable config engine script requests (state, history)) := by
  induction requests generalizing state history with
  | nil => simp [handleAll, AllAnswerable]
  | cons request rest ih =>
    obtain ⟨result, after, exchanged, handled, answerable, stays, changes⟩ := @handle_presented
      config engine script start state history request code reliable
      (presents request mem_cons_self) untouched
    have remains : Dead (books after) (config.crypto.hash code) ∨ books after = start := by
      rcases changes with dead | ⟨same, -⟩
      · exact .inl dead
      · rw [same]
        exact untouched
    obtain ⟨once, never, answers⟩ := @ih after exchanged
      (fun request member => presents request (mem_cons_of_mem _ member)) remains
    simp only [handleAll, AllAnswerable, handled, countP_cons, forall_mem_cons,
      answerable, answers, and_true]
    refine ⟨?_, fun dead => ?_⟩
    · rcases changes with dead | ⟨-, failed⟩
      · rw [never dead]
        split <;> decide
      · rw [failed]
        exact once
    · rw [never (stays dead).1, (stays dead).2]
      rfl

/-- Requests that present one code one after another are answered with tokens once at most and
with client errors otherwise exactly when none of them meets a consumed code whose family
has no token. -/
theorem repeated_code_is_answered_once_iff (config : TokenConfig) (engine : Engine)
    (script : Script) (state : engine.State) (history : List (Exchange calls)) (code : String)
    (requests : List TokenRequest) (reliable : Reliable config.crypto (books state) script)
    (presents : ∀ request ∈ requests, PresentsCode config code request) :
    AnsweredOnce (engine.handleAll config script requests (state, history)).1 ↔
      AllAnswerable config engine script requests (state, history) := by
  obtain ⟨once, -, answers⟩ := @handleAll_presented config engine script (books state) state history
    code reliable requests presents (.inr rfl)
  exact (and_iff_right once).trans answers

end Run

/-- The client presents its code with the wrong redirect URI. -/
def sampleMistake : TokenRequest :=
  ⟨[("grant_type", "authorization_code"), ("client_id", "client"), ("client_secret", "secret"),
    ("redirect_uri", "https://elsewhere"), ("code", "code")], none⟩

theorem steadyScript_reliable :
    Reliable sampleConfig.crypto (@books .sqlite sampleSignIn) steadyScript where
  family _ := ⟨_, rfl, nofun⟩
  refresh _ := ⟨_, rfl, not_mem_nil⟩
  resolve _ _ := ⟨_, rfl⟩
  mint _ _ := ⟨_, rfl, nofun⟩
  mintIDToken _ _ := ⟨_, rfl⟩
  codes _ _ _ _ := nofun

theorem sampleRedemption_presentsCode : PresentsCode sampleConfig "code" (sampleRedemption 0) :=
  ⟨rfl, rfl, rfl, _, rfl⟩

/-- The first presentation consumes the code and fails, and the next one fails internally. -/
theorem repeated_code_fails_internally :
    (Engine.sqlite.handleAll sampleConfig steadyScript [sampleMistake, sampleRedemption 0]
        (sampleSignIn, [])).1 =
      [.error (oauthErr 400 "invalid_grant"
          "redirect_uri does not match the authorization request"),
        .error (.store "oidc: revoke refresh token family" (.sessionNotFound "family"))] ∧
    PresentsCode sampleConfig "code" sampleMistake ∧
    PresentsCode sampleConfig "code" (sampleRedemption 0) ∧
    Reliable sampleConfig.crypto (@books .sqlite sampleSignIn) steadyScript :=
  ⟨rfl, ⟨rfl, rfl, rfl, _, rfl⟩, sampleRedemption_presentsCode, steadyScript_reliable⟩

/-- The client redeems its code and then presents it again. -/
theorem repeated_code_is_answered_once_iff_sample :
    AnsweredOnce (Engine.sqlite.handleAll sampleConfig steadyScript
      [sampleRedemption 0, sampleRedemption 0] (sampleSignIn, [])).1 := by
  refine (repeated_code_is_answered_once_iff sampleConfig .sqlite steadyScript sampleSignIn []
    "code" [sampleRedemption 0, sampleRedemption 0] steadyScript_reliable ?_).mpr ⟨?_, ?_, trivial⟩
  · intro request member
    rw [mem_pair, or_self] at member
    rw [member]
    exact sampleRedemption_presentsCode
  · exact @answerable_of_consumable sampleConfig _ _ (.ofAuthCode plainCrypto sampleAuthCode) rfl
  · rintro ⟨client, row, -, spent, -, unknown⟩
    have tombstone : (books (Engine.sqlite.handle sampleConfig steadyScript (sampleRedemption 0)
        (sampleSignIn, [])).2.1).codes.rows.find? (consumed
          (sampleConfig.crypto.hash ((sampleRedemption 0).form.get "code"))) =
      some ((ofAuthCode plainCrypto sampleAuthCode).consume "family" 5) := rfl
    cases tombstone.symm.trans spent
    exact absurd unknown (by decide)

end Tempogate.Engine
