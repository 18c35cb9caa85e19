/-
This file proves that every token request keeps to the protocol of the refresh families.
-/

import Tempogate.Proof.Refresh.Standing

namespace Tempogate.Oidc

open Foundation State Standing

def Refresh.origin (refresh : Refresh) : Origin :=
  ⟨refresh.clientID, refresh.connectorID, refresh.subject, refresh.email, refresh.familyID,
    refresh.authTime⟩

def environmentDeed : (call : EnvironmentCall) → call.Answer → Deed
  | .now, moment => .read moment
  | .randomFamilyID, .ok familyID => .drew familyID
  | _, _ => .quiet

/-- This observer sees whole store methods. -/
def observeCalls : Observer calls Deed
  | .inl call, answer => environmentDeed call answer
  | .inr (.refresh (.consumeRefresh _ _ moment)), .ok refresh =>
    .took refresh.origin refresh.expiresAt moment
  | .inr (.refresh (.saveRefresh refresh)), .ok _ => .saved refresh.origin refresh.expiresAt
  | .inr _, _ => .quiet

/-- A lineage fixes the origin of the tokens issued from it. -/
def Lineage.origin (lineage : Lineage) (clientID : String) (identity : Identity) : Origin :=
  ⟨clientID, identity.connectorID, identity.subject, identity.email, lineage.familyID,
    lineage.authTime⟩

/-- A request may issue from the lineage of its family, or it has yet to draw one. -/
def Standing.MayIssue (maxLifetime : Time) (draws : Prop) (clientID : String)
    (identity : Identity) (lineage : Lineage) (standing : Standing) : Prop :=
  standing.MaySave maxLifetime (lineage.origin clientID identity) ∨
    (lineage.familyID = "" ∧ draws ∧ ∃ reading, standing = .idle reading)

section MayIssue

variable {maxLifetime : Time} {draws : Prop} {clientID : String} {identity : Identity}
  {lineage : Lineage} {standing : Standing}

variable (may : standing.MayIssue maxLifetime draws clientID identity lineage)

include may

theorem Standing.MayIssue.hear (moment : Time) :
    (standing.hear moment).MayIssue maxLifetime draws clientID identity lineage := by
  rcases may with may | ⟨unnamed, mayDraw, reading, rfl⟩
  · rw [may.hear_eq]
    exact .inl may
  · exact .inr ⟨unnamed, mayDraw, some moment, rfl⟩

theorem Standing.MayIssue.not_settled (rotated : Option (Origin × Time × Time))
    : standing ≠ .settled rotated := by
  rcases may with may | ⟨-, -, reading, rfl⟩
  · exact may.not_settled rotated
  · exact nofun

end MayIssue

/-- A request is answered with tokens exactly when it is settled, as it may be. -/
def Settles {Output : Type} (may : Option (Origin × Time × Time) → Prop) (standing : Standing)
    (result : Except TokenError Output) : Prop :=
  match result with
  | .ok _ => ∃ rotated, standing = .settled rotated ∧ may rotated
  | .error _ => ∀ rotated, standing ≠ .settled rotated

theorem Settles.mono {Output : Type} {may might : Option (Origin × Time × Time) → Prop}
    (implied : ∀ rotated, may rotated → might rotated) {standing : Standing}
    {result : Except TokenError Output} (settles : Settles may standing result) :
    Settles might standing result := by
  cases result with
  | error error => exact settles
  | ok output =>
    obtain ⟨rotated, settled, allowed⟩ := settles
    exact ⟨rotated, settled, implied rotated allowed⟩

/-- A refresh request rotates a token. -/
def TokenRequest.Rotates (request : TokenRequest) (rotated : Option (Origin × Time × Time)) :
    Prop :=
  request.form.get "grant_type" = "refresh_token" → rotated.isSome

abbrev Handler.Keeps {Result : Type} (handler : Handler Result) (maxLifetime : Time)
    (draws : Prop) (post : Standing → Result → Prop) (standing : Standing) : Prop :=
  handler.Meets (lineageProtocol maxLifetime draws) observeCalls post standing

section Keeps

variable {config : TokenConfig} {maxLifetime : Time} {draws : Prop} {standing : Standing}

theorem now_keeps :
    now.Keeps maxLifetime draws (fun after moment => after = standing.hear moment) standing :=
  fun _ _ => ⟨trivial, rfl⟩

/-- A quiet call leaves the standing of the request. -/
theorem quiet_then {Result : Type} {call : calls.Effect} {next : calls.Answer call → Handler Result}
    {post : Standing → Result → Prop} (quiet : ∀ answer, observeCalls call answer = .quiet)
    (runs : ∀ answer, (next answer).Keeps maxLifetime draws post standing) :
    Handler.Keeps (Program.call call >>= next) maxLifetime draws post standing := by
  intro answer _
  rw [quiet]
  exact ⟨trivial, runs answer⟩

variable {reading : Option Time} {clientID : String} {identity : Identity} {lineage : Lineage}

/-- An idle request that may draw gets a family with a name. -/
theorem randomFamilyID_keeps (mayDraw : draws) : randomFamilyID.Keeps maxLifetime draws
      (fun after drawn => match drawn with
        | .ok familyID => after = .drew familyID ∧ familyID ≠ ""
        | .error _ => after = .idle reading) (.idle reading) := by
  intro answer assumed
  cases answer with
  | error cause => exact ⟨trivial, rfl⟩
  | ok familyID => exact ⟨⟨mayDraw, reading, rfl⟩, rfl, assumed mayDraw⟩

theorem saveRefresh_keeps {refresh : Refresh}
    (bounded : refresh.expiresAt ≤ refresh.authTime + maxLifetime)
    (may : standing.MaySave maxLifetime refresh.origin) :
    (saveRefresh refresh).Keeps maxLifetime draws (fun after saved => match saved with
        | .ok _ => after = .settled standing.rotation
        | .error _ => after = standing) standing := by
  intro answer _
  cases answer with
  | error error => exact ⟨trivial, rfl⟩
  | ok done => exact ⟨⟨bounded, may⟩, rfl⟩

theorem consumeRefresh_keeps (token clientID : String) (moment : Time) :
    (consumeRefresh token clientID moment).Keeps maxLifetime draws
      (fun after consumed => match consumed with
        | .ok refresh => after = .took refresh.origin refresh.expiresAt moment ∧
            refresh.familyID ≠ ""
        | .error _ => after = .idle (some moment)) (.idle (some moment)) := by
  intro answer assumed
  cases answer with
  | error error => exact ⟨trivial, rfl⟩
  | ok refresh => exact ⟨rfl, rfl, assumed⟩

theorem permitted_keeps (email : String) :
    (permitted email).Keeps maxLifetime draws (fun after _ => after = standing) standing := by
  refine quiet_then (fun _ => rfl) ?_
  rintro (cause | _ | grant) <;> rfl

theorem refreshExpiry_le (config : TokenConfig) (lineage : Lineage) (moment : Time) :
    refreshExpiry config lineage moment ≤ lineage.authTime + config.refreshMaxLifetime := by
  unfold refreshExpiry
  split
  · exact Int.le_refl _
  next later => exact Int.not_lt.mp later

/-- A started lineage is one the request may save into. -/
theorem startLineage_keeps (may : standing.MayIssue maxLifetime draws clientID identity lineage)
    (moment : Time) :
    (startLineage lineage moment).Keeps maxLifetime draws (fun after started => match started with
        | .ok lineage => after.MaySave maxLifetime (lineage.origin clientID identity) ∧
            after.rotation = standing.rotation
        | .error _ => ∀ rotated, after ≠ .settled rotated) standing := by
  unfold startLineage
  rcases may with may | ⟨unnamed, mayDraw, reading, rfl⟩
  · have named : lineage.familyID ≠ "" := may.named
    rw [if_neg named]
    exact ⟨may, rfl⟩
  · rw [if_pos unnamed]
    refine (randomFamilyID_keeps mayDraw).bind ?_
    rintro after (cause | familyID) drawn
    · obtain rfl : after = _ := drawn
      exact nofun
    · obtain ⟨rfl, named⟩ := drawn
      exact ⟨⟨named, .inl rfl⟩, rfl⟩

/-- Minting and saving settles a request that may save. -/
theorem mintAndSave_keeps (nonce : String) (grant : Perms.Grant) (moment : Time)
    (may : standing.MaySave config.refreshMaxLifetime (lineage.origin clientID identity)) :
    (mintAndSave config identity clientID nonce grant lineage moment).Keeps
      config.refreshMaxLifetime draws (Settles (· = standing.rotation)) standing := by
  refine quiet_then (fun _ => rfl) ?_
  rintro (cause | ⟨signed, jti⟩)
  · exact may.not_settled
  refine quiet_then (fun _ => rfl) ?_
  rintro (cause | idToken)
  · exact may.not_settled
  refine quiet_then (fun _ => rfl) ?_
  rintro (cause | token)
  · exact may.not_settled
  refine (saveRefresh_keeps (refreshExpiry_le config lineage moment) may).bind ?_
  rintro saved (error | _) rfl
  · cases error <;> exact may.not_settled
  · exact ⟨_, rfl, rfl⟩

/-- Issuing tokens settles a request that may issue from the lineage. -/
theorem issue_keeps (nonce : String)
    (may : standing.MayIssue config.refreshMaxLifetime draws clientID identity lineage) :
    (issue config identity clientID nonce lineage).Keeps config.refreshMaxLifetime draws
      (Settles (· = standing.rotation)) standing := by
  refine (permitted_keeps _).bind ?_
  rintro after (cause | _ | grant) rfl
  · exact may.not_settled
  · exact may.not_settled
  refine now_keeps.bind ?_
  rintro after moment rfl
  refine (startLineage_keeps (may.hear moment) moment).bind ?_
  rintro started (error | lineage) ready
  · exact ready
  obtain ⟨maySave, same⟩ := ready
  rw [rotation_hear] at same
  rw [← same]
  exact mintAndSave_keeps nonce grant moment maySave

/-- A taken token is rotated in time or the request ends without tokens. -/
theorem rotate_keeps {refresh : Refresh} (moment : Time) (named : refresh.familyID ≠ "") :
    (rotate config refresh moment).Keeps config.refreshMaxLifetime draws
      (Settles (fun rotated => rotated.isSome))
      (.took refresh.origin refresh.expiresAt moment) := by
  have unsettled : ∀ rotated,
      took refresh.origin refresh.expiresAt moment ≠ .settled rotated := nofun
  unfold rotate
  split
  · exact unsettled
  next fresh =>
  split
  · exact unsettled
  next young =>
  split
  · exact unsettled
  have may : (took refresh.origin refresh.expiresAt moment).MaySave
      config.refreshMaxLifetime refresh.origin :=
    ⟨named, .inr ⟨_, _, rfl, Int.not_lt.mp fresh, Decidable.not_not.mp young⟩⟩
  split
  · refine quiet_then (fun answer => by cases answer <;> rfl) ?_
    rintro (error | _) <;> exact unsettled
  split
  · refine quiet_then (fun answer => by cases answer <;> rfl) ?_
    rintro (error | _) <;> exact unsettled
  · refine (issue_keeps "" (.inl may)).bind ?_
    rintro after (error | output) settles
    · cases error with
      | noPermissions =>
        refine quiet_then (fun answer => by cases answer <;> rfl) ?_
        rintro (error | _) <;> exact settles
      | _ => exact settles
    · obtain ⟨rotated, settled, rfl⟩ := settles
      exact ⟨_, settled, rfl⟩

theorem refreshTokenGrant_keeps (request : TokenRequest) :
    (refreshTokenGrant config request).Keeps config.refreshMaxLifetime draws
      (Settles (fun rotated => rotated.isSome)) (.idle reading) := by
  unfold refreshTokenGrant
  rcases clientCredentials request with ⟨clientID, secret⟩
  dsimp only
  split
  · exact nofun
  cases authenticateClient config clientID secret .refreshToken with
  | error error => exact nofun
  | ok client =>
  refine now_keeps.bind ?_
  rintro after moment rfl
  refine (consumeRefresh_keeps _ _ moment).bind ?_
  rintro after (error | refresh) outcome
  · obtain rfl : after = _ := outcome
    cases error with
    | refreshReused refresh =>
      refine quiet_then (fun answer => by cases answer <;> rfl) ?_
      rintro (error | _) <;> exact nofun
    | _ => exact nofun
  · obtain ⟨rfl, named⟩ := outcome
    exact rotate_keeps moment named

section

variable (mayDraw : draws)

include mayDraw

/-- A redeemed code leaves the request with the family it drew. -/
theorem redeemAuthorizationCode_keeps (request : AuthCodeRedemptionRequest) :
    (redeemAuthorizationCode config request).Keeps maxLifetime draws
      (fun after redeemed => match redeemed with
        | .ok redemption => redemption.familyID ≠ "" ∧ after = .drew redemption.familyID
        | .error _ => ∀ rotated, after ≠ .settled rotated) (.idle reading) := by
  unfold redeemAuthorizationCode
  cases checkRedemption config request with
  | error error => exact nofun
  | ok client =>
  refine (randomFamilyID_keeps mayDraw).bind ?_
  rintro after (cause | familyID) drawn
  · obtain rfl : after = _ := drawn
    exact nofun
  obtain ⟨rfl, named⟩ := drawn
  refine now_keeps.bind ?_
  rintro after moment rfl
  refine quiet_then (fun _ => rfl) ?_
  rintro (error | authCode)
  · cases error with
    | authCodeReused authCode =>
      dsimp only [settle]
      split
      · refine quiet_then (fun answer => by cases answer <;> rfl) ?_
        rintro (error | _) <;> exact nofun
      · exact nofun
    | _ => exact nofun
  · dsimp only [settle]
    cases checkAuthCode config client request authCode moment with
    | error error => exact nofun
    | ok valid => exact ⟨named, rfl⟩

variable (request : TokenRequest)

theorem authorizationCodeGrant_keeps :
    (authorizationCodeGrant config request).Keeps config.refreshMaxLifetime draws
      (Settles (· = none)) (.idle reading) := by
  refine (redeemAuthorizationCode_keeps mayDraw _).bind ?_
  rintro after (error | redemption) redeemed
  · exact redeemed
  obtain ⟨named, rfl⟩ := redeemed
  refine now_keeps.bind ?_
  rintro after authTime rfl
  have may : (drew redemption.familyID).MayIssue config.refreshMaxLifetime draws
      redemption.clientID redemption.identity ⟨redemption.familyID, authTime⟩ :=
    .inl ⟨named, .inl rfl⟩
  refine (issue_keeps redemption.nonce may).bind ?_
  rintro after (error | output) settles
  · cases error <;> exact settles
  · exact settles

theorem redeemDeviceCode_keeps (deviceCode : String) :
    (redeemDeviceCode config deviceCode).Keeps config.refreshMaxLifetime draws
      (Settles (· = none)) (.idle reading) := by
  refine quiet_then (fun _ => rfl) ?_
  rintro (error | final)
  · cases error <;> exact nofun
  dsimp only
  split
  · exact nofun
  refine (issue_keeps "" (.inr ⟨rfl, mayDraw, reading, rfl⟩)).bind ?_
  rintro after (error | output) settles
  · cases error <;> exact settles
  · exact settles

theorem deviceCodeGrant_keeps :
    (deviceCodeGrant config request).Keeps config.refreshMaxLifetime draws
      (Settles (· = none)) (.idle reading) := by
  unfold deviceCodeGrant
  rcases clientCredentials request with ⟨clientID, secret⟩
  dsimp only
  split
  · exact nofun
  split
  · exact nofun
  split
  · exact nofun
  cases authenticateClient config clientID secret .deviceCode with
  | error error => exact nofun
  | ok client =>
  refine quiet_then (fun _ => rfl) ?_
  rintro (error | found)
  · cases error <;> exact nofun
  dsimp only
  split
  · exact nofun
  refine now_keeps.bind ?_
  rintro after moment rfl
  refine quiet_then (fun _ => rfl) ?_
  rintro (error | _ | _)
  · cases error <;> exact nofun
  · dsimp only
    split
    · exact quiet_then (fun _ => rfl) fun _ => nofun
    split
    · exact quiet_then (fun _ => rfl) fun _ => nofun
    split
    · exact nofun
    · exact redeemDeviceCode_keeps mayDraw _
  · exact nofun

/-- Every token request keeps to the protocol if it may draw a family. -/
theorem dispatch_keeps :
    (dispatch config request).Keeps config.refreshMaxLifetime draws (Settles request.Rotates)
      (.idle none) := by
  unfold dispatch TokenRequest.Rotates
  split
  · exact nofun
  split
  next grantType =>
    rw [grantType]
    exact (authorizationCodeGrant_keeps mayDraw request).mono fun _ _ settles =>
      settles.mono fun _ _ other => absurd other (by decide)
  · exact (refreshTokenGrant_keeps request).mono fun _ _ settles =>
      settles.mono fun _ rotated _ => rotated
  next grantType =>
    rw [grantType]
    exact (deviceCodeGrant_keeps mayDraw request).mono fun _ _ settles =>
      settles.mono fun _ _ other => absurd other (by decide)
  · exact nofun
  · exact nofun

end

/-- A refresh request never draws a family. -/
theorem dispatch_refresh_keeps {request : TokenRequest}
    (refreshes : request.form.get "grant_type" = "refresh_token") :
    (dispatch config request).Keeps config.refreshMaxLifetime draws (Settles request.Rotates)
      (.idle none) := by
  unfold dispatch
  rw [refreshes]
  split
  · exact nofun
  · exact (refreshTokenGrant_keeps request).mono fun _ _ settles =>
      settles.mono fun _ rotated _ => rotated

end Keeps

end Tempogate.Oidc
