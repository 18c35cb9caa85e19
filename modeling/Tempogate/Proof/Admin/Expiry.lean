/-
This file proves when the token of a new integration key expires.
-/

import Mathlib.Tactic.Linarith
import Tempogate.Construction.Admin.Keys
import Tempogate.Foundation.Sequential

namespace Tempogate.Admin

open Foundation Oidc Keys

variable {handlers : Handlers} {request : CreateRequest}

/-- A creation makes each call at most once, so one answer for each call is every behaviour of its
surroundings. The calls are logged. -/
def answering (answers : (call : AdminCall) → call.Answer) :
    Responder adminCalls (List AdminCall) :=
  fun call log => (answers call, call :: log)

section

variable (answers : (call : AdminCall) → call.Answer)

/-- The handler's reading of its clock. -/
def handlerNow : Time := answers .now

/-- The signer's reading of its clock. -/
def signerNow : Time := answers .tokenNow

end

/-- A date has the last whole second that is not after the moment. -/
theorem numericDate_le_iff {moment bound : Time} : numericDate moment ≤ bound ↔
      ¬ ∃ count : Int, bound < count * second ∧ count * second ≤ moment := by
  have positive : (0 : Int) < second := by decide
  constructor
  · rintro below ⟨count, later, reached⟩
    have counted : count ≤ moment / second := (Int.le_ediv_iff_mul_le positive).mpr reached
    have dated : count * second ≤ numericDate moment :=
      Int.mul_le_mul_of_nonneg_right counted (le_of_lt positive)
    exact absurd (lt_of_lt_of_le later dated) (not_lt.mpr below)
  · intro none
    by_contra above
    exact none ⟨moment / second, not_le.mp above, Int.ediv_mul_le _ (ne_of_gt positive)⟩

theorem lifetime_eq_ok {requested : Option Time} {now expiresAt ttl : Time}
    (accepted : handlers.lifetime requested now = .ok (expiresAt, ttl)) :
    requested = some expiresAt ∧ ttl = sub expiresAt now ∧ 0 < ttl ∧ ttl ≤ handlers.maxTTL := by
  cases requested with
  | none => cases accepted
  | some moment =>
    by_cases past : sub moment now ≤ 0
    · rw [Handlers.lifetime, if_pos past] at accepted
      cases accepted
    · by_cases far : sub moment now > handlers.maxTTL
      · rw [Handlers.lifetime, if_neg past, if_pos far] at accepted
        cases accepted
      · rw [Handlers.lifetime, if_neg past, if_neg far] at accepted
        cases accepted
        exact ⟨rfl, rfl, not_le.mp past, not_lt.mp far⟩

theorem signerMint_ok {signer : Signer} {request : MintRequest}
    {answers : (call : AdminCall) → call.Answer} {token : AccessToken} {jti : String}
    {before after : List AdminCall} (positive : 0 < request.ttl)
    (minted : (signer.mint request).evaluate (answering answers) before =
      (.ok (token, jti), after)) :
    token.jti = jti ∧ token.expiration = some (numericDate (signerNow answers + request.ttl)) := by
  dsimp only [Signer.mint, mintWith, bind, step, Program.call, Program.bind, Program.evaluate,
    answering] at minted
  cases drawn : answers .newJTI with
  | error cause => rw [drawn] at minted; cases minted
  | ok fresh =>
    rw [drawn] at minted
    dsimp only [Program.bind, Program.evaluate, answering] at minted
    cases key : answers .latest with
    | error cause => rw [key] at minted; cases minted
    | ok kid =>
      rw [key] at minted
      cases minted
      exact ⟨rfl, if_pos positive⟩

/-- What a creation that succeeded has signed, stored and returned. -/
theorem mint_ok {answers : (call : AdminCall) → call.Answer} {response : CreateResponse}
    {log : List AdminCall}
    (minted : (handlers.mint request).evaluate (answering answers) [] = (.ok response, log)) :
    ∃ expiresAt key, request.expiresAt = some expiresAt ∧
      response.expiresAt = some expiresAt ∧ AdminCall.save key ∈ log ∧
      key.expiresAt = some expiresAt ∧ key.jti = response.jwt.jti ∧
      0 < sub expiresAt (handlerNow answers) ∧
      sub expiresAt (handlerNow answers) ≤ handlers.maxTTL ∧
      response.jwt.expiration =
        some (numericDate (signerNow answers + sub expiresAt (handlerNow answers))) := by
  unfold Handlers.mint at minted
  split at minted
  · cases minted
  next _ =>
    split at minted
    · cases minted
    · dsimp only [bind, step, Program.call, Program.bind, Program.evaluate, answering] at minted
      cases drawn : answers .newID with
      | error cause => rw [drawn] at minted; cases minted
      | ok id =>
        simp only [drawn, Program.evaluate, answering] at minted
        cases accepted : handlers.lifetime request.expiresAt (answers AdminCall.now) with
        | error error => rw [accepted] at minted; cases minted
        | ok lifetime =>
          obtain ⟨expiresAt, ttl⟩ := lifetime
          rw [accepted] at minted
          obtain ⟨asked, rfl, positive, within⟩ := lifetime_eq_ok accepted
          simp only at minted
          rw [Program.evaluate_bind] at minted
          generalize signed : Program.evaluate (answering answers) (handlers.signer.mint _) _ =
            result at minted
          obtain ⟨token | token, between⟩ := result
          · cases minted
          · obtain ⟨token, jti⟩ := token
            obtain ⟨rfl, expiration⟩ := signerMint_ok positive signed
            dsimp only [Program.evaluate, answering] at minted
            split at minted
            · cases minted
            · cases minted
              exact ⟨expiresAt, _, asked, rfl, List.mem_cons_self, rfl, rfl, positive, within,
                expiration⟩

/-- The token of a new key outlives neither the recorded expiry nor the longest lifetime exactly
when the clock, between its two readings, has carried the expiry over no whole second. -/
theorem token_expires_as_recorded {handlers : Handlers} {request : CreateRequest}
    {answers : (call : AdminCall) → call.Answer} {response : CreateResponse}
    {log : List AdminCall}
    (minted : (handlers.mint request).evaluate (answering answers) [] = (.ok response, log)) :
    ∃ expiresAt key expiration, response.expiresAt = some expiresAt ∧
      AdminCall.save key ∈ log ∧ key.jti = response.jwt.jti ∧ key.expiresAt = some expiresAt ∧
      response.jwt.expiration = some expiration ∧
      (expiration ≤ expiresAt ∧ expiration ≤ handlerNow answers + handlers.maxTTL ↔
        ¬ ∃ count : Int, min expiresAt (handlerNow answers + handlers.maxTTL) < count * second ∧
          count * second ≤ signerNow answers + sub expiresAt (handlerNow answers)) := by
  obtain ⟨expiresAt, key, -, returned, saved, stored, named, -, -, expiration⟩ := mint_ok minted
  refine ⟨expiresAt, key, _, returned, saved, named, stored, expiration, ?_⟩
  rw [← le_min_iff, numericDate_le_iff]

/-- This handler allows a key to live for one day. -/
def dayHandlers : Handlers :=
  ⟨⟨"https://tempogate.example", ""⟩, true, false, 86400 * second, "24h0m0s"⟩

def ordersRequest (expiresAt : Time) : CreateRequest := ⟨"orders", "write", "svc", some expiresAt⟩

/-- Every call succeeds, and the clock is read twice. -/
def readings (first second : Time) : (call : AdminCall) → call.Answer
  | .now => first
  | .tokenNow => second
  | .newID => .ok "id"
  | .newJTI => .ok "jti"
  | .latest => .ok "kid"
  | .save _ => .ok ()
  | .markRevoked _ _ => .ok "jti"
  | .isRevoked _ => .ok false
  | .probe _ => none
  | .store _ _ _ => ()
  | .verify _ _ => .error .tokenRevoked
  | .selectDenylistPage _ _ => .ok []
  | .deleteDenylist _ => .ok 0

/-- The signer reads its clock a tenth of a second after the handler, and the token expires a tenth
of a second after the recorded expiry. -/
theorem token_outlives_recorded_expiry :
    ∃ response log, ((dayHandlers.mint (ordersRequest (10900 * (second / 1000)))).evaluate
        (answering (readings 0 (100 * (second / 1000)))) []) = (.ok response, log) ∧
      response.expiresAt = some (10900 * (second / 1000)) ∧
      response.jwt.expiration = some (11 * second) ∧ 10900 * (second / 1000) < 11 * second :=
  ⟨_, _, rfl, rfl, rfl, by decide⟩

/-- An expiry on a whole second bears a delay of less than a second. -/
theorem whole_second_expires_as_recorded :
    ∃ response log, ((dayHandlers.mint (ordersRequest (11 * second))).evaluate
        (answering (readings 0 (100 * (second / 1000)))) []) = (.ok response, log) ∧
      ∃ expiration, response.jwt.expiration = some expiration ∧ expiration ≤ 11 * second ∧
        expiration ≤ 86400 * second := by
  refine ⟨_, _, rfl, ?_⟩
  obtain ⟨expiresAt, key, expiration, returned, -, -, -, signed, bounds⟩ :=
    @token_expires_as_recorded dayHandlers (ordersRequest (11 * second))
      (readings 0 (100 * (second / 1000))) _ _ rfl
  obtain rfl := Option.some.inj returned
  refine ⟨expiration, signed, ?_⟩
  have held := bounds.mpr (by
    rintro ⟨count, later, reached⟩
    have above : (11000000000 : Int) < count * 1000000000 := later
    have below : count * 1000000000 ≤ (11100000000 : Int) := reached
    omega)
  exact ⟨held.1, held.2⟩

end Tempogate.Admin
