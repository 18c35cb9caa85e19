/-
This file shows what the tokens of an issue carry.
-/

import Tempogate.Construction.Oidc.Token
import Tempogate.Foundation.Protocol

namespace Tempogate.Oidc

open Foundation

variable {Tag Label : Type}

/-- The tokens were minted and saved for this identity, client and nonce. -/
structure Carries (record : Observer calls Label) (trace : List Label) (identity : Identity)
    (clientID nonce : String) (output : TokenOutput) : Prop where
  access : ∃ request jti, record (.inl (.mint request)) (.ok (output.accessToken, jti)) ∈ trace ∧
    request.subject = tokenSubject identity.connectorID identity.subject ∧
    request.email = identity.email ∧ request.idp = identity.connectorID ∧
    request.clientID = clientID
  id : ∃ request, record (.inl (.mintIDToken request)) (.ok output.idToken) ∈ trace ∧
    request.subject = tokenSubject identity.connectorID identity.subject ∧
    request.email = identity.email ∧ request.idp = identity.connectorID ∧
    request.audience = clientID ∧ request.nonce = nonce
  refresh : ∃ refresh, record (.inr (.refresh (.saveRefresh refresh))) (.ok ()) ∈ trace ∧
    refresh.token = output.refreshToken ∧ refresh.clientID = clientID ∧
    refresh.connectorID = identity.connectorID ∧ refresh.subject = identity.subject ∧
    refresh.email = identity.email

/-- The protocol lets a process ask the outside and save refresh tokens. -/
structure Lenient (record : Observer calls Label) (permits : Tag → List Label → Label → Prop) :
    Prop where
  outside : ∀ tag trace (call : EnvironmentCall) answer,
    permits tag trace (record (.inl call) answer)
  saves : ∀ tag trace refresh answer,
    permits tag trace (record (.inr (.refresh (.saveRefresh refresh))) answer)

section Issue

variable {record : Observer calls Label} {permits : Tag → List Label → Label → Prop}
  {before : Record Tag Label}

variable (lenient : Lenient record permits)

include lenient

theorem outside_meets (call : EnvironmentCall) : (outside call).Meets (.recorder permits) record
      (fun after answer => before.Continues after ∧ record (.inl call) answer ∈ after.trace)
      before :=
  Program.meets_recorded fun answer => lenient.outside _ _ call answer

theorem permitted_meets (email : String) :
    (permitted email).Meets (.recorder permits) record (fun after _ => before.Continues after)
      before := by
  refine (outside_meets lenient (.resolve email)).bind ?_
  rintro after (cause | _ | grant) ⟨continues, -⟩ <;> exact continues

theorem startLineage_meets (lineage : Lineage) (moment : Time) :
    (startLineage lineage moment).Meets (.recorder permits) record
      (fun after _ => before.Continues after) before := by
  unfold startLineage
  split
  · refine (outside_meets lenient .randomFamilyID).bind ?_
    rintro after (cause | familyID) ⟨continues, -⟩ <;> exact continues
  · exact Record.Continues.refl before

/-- The answered tokens were minted and saved. -/
theorem mintAndSave_meets (config : TokenConfig) (identity : Identity) (clientID nonce : String)
    (grant : Perms.Grant) (lineage : Lineage) (moment : Time) :
    (mintAndSave config identity clientID nonce grant lineage moment).Meets
      (.recorder permits) record (fun after result => before.Continues after ∧
        ∀ output, result = .ok output →
          Carries record after.trace identity clientID nonce output) before := by
  refine (outside_meets lenient (.mint _)).bind ?_
  rintro second (cause | ⟨signed, jti⟩) ⟨first, minted⟩
  · exact ⟨first, nofun⟩
  refine (outside_meets lenient (.mintIDToken _)).bind ?_
  rintro third (cause | idToken) ⟨next, mintedID⟩
  · exact ⟨first.trans next, nofun⟩
  refine (outside_meets lenient .newRefresh).bind ?_
  rintro fourth (cause | token) ⟨drawn, -⟩
  · exact ⟨(first.trans next).trans drawn, nofun⟩
  refine (Program.meets_recorded fun answer => lenient.saves _ _ _ answer).bind ?_
  rintro final (error | _) ⟨saves, saved⟩
  · have continues := ((first.trans next).trans drawn).trans saves
    cases error <;> exact ⟨continues, nofun⟩
  · refine ⟨((first.trans next).trans drawn).trans saves, ?_⟩
    rintro output ⟨rfl⟩
    exact {
      access := ⟨_, jti, ((next.trans drawn).trans saves).mem minted, rfl, rfl, rfl, rfl⟩
      id := ⟨_, (drawn.trans saves).mem mintedID, rfl, rfl, rfl, rfl, rfl⟩
      refresh := ⟨_, saved, rfl, rfl, rfl, rfl, rfl⟩ }

/-- The tokens of an issue carry its identity, client and nonce. -/
theorem issue_meets (config : TokenConfig) (identity : Identity) (clientID nonce : String)
    (lineage : Lineage) :
    (issue config identity clientID nonce lineage).Meets (.recorder permits) record
      (fun after result => before.Continues after ∧ ∀ output, result = .ok output →
        Carries record after.trace identity clientID nonce output) before := by
  refine (permitted_meets lenient identity.email).bind ?_
  rintro second (cause | _ | grant) first
  · exact ⟨first, nofun⟩
  · exact ⟨first, nofun⟩
  refine (outside_meets lenient .now).bind ?_
  rintro third moment ⟨next, -⟩
  refine (startLineage_meets lenient lineage moment).bind ?_
  rintro fourth (error | started) begun
  · exact ⟨(first.trans next).trans begun, nofun⟩
  · refine (mintAndSave_meets lenient config identity clientID nonce grant started moment).mono ?_
    rintro final result ⟨last, carries⟩
    exact ⟨((first.trans next).trans begun).trans last, carries⟩

end Issue

end Tempogate.Oidc
