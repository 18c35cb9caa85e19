/-
This file serves requests to the device pages one at a time.
-/

import Tempogate.Construction.Oidc.DeviceUI
import Tempogate.Construction.Ratelimit.Limiter

namespace Tempogate.Device

open Foundation Oidc Ratelimit

/-- These are the requests that name a user code. -/
inductive DeviceRequest
  | enter (input : DeviceEnterPostInput)
  | confirm (input : DeviceConfirmInput)
  | decide (approve : Bool) (input : DeviceDecisionInput)

def DeviceRequest.handle (ui : DeviceUI) (address : String) :
    DeviceRequest → DeviceHandler (Except String Page)
  | .enter input => ui.handleEnterPost address input
  | .confirm input => ui.handleConfirm address input
  | .decide approve input => ui.handleDecision address approve input

def DeviceRequest.approves : DeviceRequest → Bool
  | .enter _ | .confirm _ => false
  | .decide approve _ => approve

abbrev Limiters : Type := Budget → Limiter

abbrev Limits : Type := Budget → State

/-- The clock stands still while a request is handled. -/
def serveDesk (limiters : Limiters) (moment : Time) : Responder deskCalls Limits
  | .now, limits => (moment, limits)
  | .allow budget key, limits =>
    (((limits budget).allow (limiters budget) moment key).1,
      Function.update limits budget ((limits budget).allow (limiters budget) moment key).2)
  | .refund budget key, limits =>
    ((), Function.update limits budget ((limits budget).refund (limiters budget) key))

/-- The budgets count under the client address and under the session id. -/
def budgetKey (address : String) (session : Option SID) : Budget → Option String
  | .address => some address
  | .session => session.map SID.text

/-- A visit is one request with its time, its client address and the answers of everything but the
clock and the limiters. -/
structure Visit (Rest : Type) where
  request : DeviceRequest
  address : String
  now : Time
  respond : Responder pageCalls Rest

/-- A served visit has its page, its exchanges and the limiters before and after it. -/
structure Served where
  request : DeviceRequest
  address : String
  now : Time
  page : Except String Page
  exchanges : List (Exchange deviceUICalls)
  before : Limits
  after : Limits

def Visit.responder {Rest : Type} (limiters : Limiters) (visit : Visit Rest) :
    Responder deviceUICalls (Limits × Rest) :=
  (serveDesk limiters visit.now).sum visit.respond

def Visit.serve {Rest : Type} (ui : DeviceUI) (limiters : Limiters) (visit : Visit Rest)
    (limits : Limits) (rest : Rest) : Served × Rest :=
  let outcome := (visit.request.handle ui visit.address).evaluate
    (visit.responder limiters).logged ([], limits, rest)
  (⟨visit.request, visit.address, visit.now, outcome.1, outcome.2.1, limits, outcome.2.2.1⟩,
    outcome.2.2.2)

/-- The desk serves the visits one after the other. -/
def serveAll {Rest : Type} (ui : DeviceUI) (limiters : Limiters) :
    List (Visit Rest) → Limits → Rest → List Served
  | [], _, _ => []
  | visit :: later, limits, rest =>
    let served := visit.serve ui limiters limits rest
    served.1 :: serveAll ui limiters later served.1.after served.2

end Tempogate.Device
