/-
This file defines the device sign-in of the command line tool and its sessions.
-/

import Tempogate.Construction.Device.Codes

namespace Tempogate.Cli

open Foundation Oidc Device

def slowDownBump : Time := 5 * second

def transientBackoffCap : Int := 4

def defaultPollFallback : Time := 15 * minute

structure DeviceAuthResponse where
  deviceCode : String
  interval : Int
  expiresIn : Int
  deriving DecidableEq, Repr

/-- These settings of the device flow decide how the tool polls. -/
structure DeviceFlow where
  clientID : String
  minSleep : Time
  pollDeadline : Time
  deriving DecidableEq, Repr

structure Token where
  accessToken : String
  refreshToken : String
  expiresAt : Time
  clientID : String
  deriving DecidableEq, Repr

inductive PollAction
  | done (token : Token)
  | pending
  | slowDown
  | transient
  deriving DecidableEq, Repr

inductive PollError
  | userDenied
  | deviceCodeExpired
  | invalidGrant
  | invalidClient
  | failed (message : String)
  deriving DecidableEq, Repr

/-- These fields of a JSON body are read. A missing field is empty. -/
structure Body where
  accessToken : String
  refreshToken : String
  expiresIn : Int
  error : String
  description : String
  deriving DecidableEq, Repr

/-- A body that is not JSON has only its text. -/
structure Response where
  status : Nat
  body : Option Body
  text : String
  deriving DecidableEq, Repr

def pollRequest (flow : DeviceFlow) (deviceCode : String) : TokenRequest where
  form := [("grant_type", "urn:ietf:params:oauth:grant-type:device_code"),
    ("device_code", deviceCode), ("client_id", flow.clientID)]
  basic := none

def oauthAction (status : Nat) (body : Body) : Except PollError PollAction :=
  match body.error with
  | "authorization_pending" => .ok .pending
  | "slow_down" => .ok .slowDown
  | "access_denied" => .error .userDenied
  | "expired_token" => .error .deviceCodeExpired
  | "invalid_grant" => .error .invalidGrant
  | "invalid_client" => .error .invalidClient
  | error => .error (.failed ("cli: poll rejected (HTTP " ++ toString status ++ ", " ++ error ++
      "): " ++ body.description))

/-- The tool classifies what came back. No response at all is a transient failure. -/
def pollOnce (flow : DeviceFlow) (now : Time) : Option Response → Except PollError PollAction
  | none => .ok .transient
  | some response =>
    if 500 ≤ response.status ∧ response.status < 600 then .ok .transient
    else if response.status = 200 then
      match response.body with
      | none => .error (.failed "cli: decode token response")
      | some body =>
        if body.accessToken = "" then
          .error (.failed "cli: token response contained no access_token")
        else .ok (.done ⟨body.accessToken, body.refreshToken, now + body.expiresIn * second,
          flow.clientID⟩)
    else
      match response.body with
      | none => .error (.failed ("cli: poll failed: HTTP " ++ toString response.status ++ ": " ++
          response.text))
      | some body =>
        if body.error = "" then
          .error (.failed ("cli: poll failed: HTTP " ++ toString response.status ++ ": " ++
            response.text))
        else oauthAction response.status body

/-- The loop keeps its own interval and the next wait after a transient failure. -/
structure PollLoop where
  interval : Time
  backoff : Time
  deriving DecidableEq, Repr

namespace PollLoop

/-- An interval below the floor is raised to the floor. The server sends small intervals, so
that the 64-bit product stays exact. -/
def start (flow : DeviceFlow) (init : DeviceAuthResponse) : PollLoop :=
  let interval := if init.interval * second < flow.minSleep then flow.minSleep
    else init.interval * second
  ⟨interval, interval⟩

/-- The tool gives up at this age of the loop. -/
def deadline (flow : DeviceFlow) (init : DeviceAuthResponse) : Time :=
  let deadline := if flow.pollDeadline > 0 then flow.pollDeadline else init.expiresIn * second
  if deadline ≤ 0 then defaultPollFallback else deadline

/-- Each action but the last one fixes the next sleep, which the floor raises. -/
def schedule (flow : DeviceFlow) (loop : PollLoop) : PollAction → Option (Time × PollLoop)
  | .done _ => none
  | .pending => some (raised loop.interval, { loop with backoff := loop.interval })
  | .slowDown =>
    let interval := loop.interval + slowDownBump
    some (raised interval, ⟨interval, interval⟩)
  | .transient =>
    let maxBackoff := loop.interval * transientBackoffCap
    some (raised loop.backoff, { loop with
        backoff := if loop.backoff * 2 > maxBackoff then maxBackoff else loop.backoff * 2 })
where
  raised (sleepFor : Time) : Time := if sleepFor < flow.minSleep then flow.minSleep else sleepFor

end PollLoop

/-- The server writes an OAuth error with its own status, and any other error as an internal one. -/
def reply : Except TokenError TokenOutput → Response
  | .ok output =>
    ⟨200, some ⟨output.accessToken, output.refreshToken, output.expiresIn, "", ""⟩, ""⟩
  | .error (.oauth status code description) => ⟨status, some ⟨"", "", 0, code, description⟩, ""⟩
  | .error _ => ⟨500, none, "internal server error"⟩

/-- One tool polls for one device code. Each of its requests is a task of the server. -/
structure Setting where
  crypto : Crypto
  flow : DeviceFlow
  init : DeviceAuthResponse
  begun : Time
  tasks : Nat → Task

namespace Setting

variable (setting : Setting)

def request : TokenRequest := pollRequest setting.flow setting.init.deviceCode

/-- The server stores the device code under this hash. -/
def hash : String := setting.crypto.hash setting.init.deviceCode

/-- The task asks for the tokens of this device code. -/
def Asks (task : Task) : Prop :=
  ∃ request, task = .token request ∧
    setting.crypto.hash (request.form.get "device_code") = setting.hash

/-- The server tells a poll of this device code to slow down. -/
def Slows : Exchange deviceCalls → Prop
  | ⟨.inl (.inr (.deviceCode (.pollDeviceCode deviceCode _))), answer⟩ =>
    setting.crypto.hash deviceCode = setting.hash ∧ answer = Except.ok true
  | _ => False

end Setting

inductive Phase
  | ready
  | waiting (process : Nat)
  | sleeping (duration wakesAt : Time)
  | past
  deriving DecidableEq, Repr

/-- The session holds the time, the server, the loop of the tool and the requests it has sent. -/
structure Session where
  time : Time
  server : Flow
  loop : PollLoop
  phase : Phase
  sent : List Nat

variable (setting : Setting)

/-- The tool starts to poll with the answer to its device authorization request. -/
def Session.start (config : TokenConfig) (engine : Engine) (codes : DeviceCodes) : Session where
  time := setting.begun
  server := flow config engine codes setting.tasks
  loop := .start setting.flow setting.init
  phase := .ready
  sent := []

inductive Act
  | tick (later : Time)
  | serve (event : Event deviceCalls)
  | send (process : Nat)
  | receive
  | lose
  | wake
  | stop

/-- The server reads the time of the session. -/
def Clocked (time : Time) : Exchange deviceCalls → Prop
  | ⟨.inl (.inl .now), moment⟩ => moment = time
  | _ => True

/-- Nobody but the tool polls for the device code. A request that was sent may be served at any
later time, and the tool may give up waiting for it at any time. -/
inductive Move (setting : Setting) (before : Session) : Act → Session → Prop
  | tick {later : Time} (passes : before.time ≤ later) :
      Move setting before (.tick later) { before with time := later }
  | serve {event : Event deviceCalls} {server : Flow}
      (arrived : setting.Asks (setting.tasks event.process) → event.process ∈ before.sent)
      (clocked : Clocked before.time ⟨event.effect, event.answer⟩)
      (step : Step (world setting.crypto) before.server event server) :
      Move setting before (.serve event) { before with server }
  | send {process : Nat} (ready : before.phase = .ready)
      (timely : before.time - setting.begun < PollLoop.deadline setting.flow setting.init)
      (fresh : process ∉ before.sent) (mine : setting.tasks process = .token setting.request) :
      Move setting before (.send process)
        { before with phase := .waiting process, sent := process :: before.sent }
  | receive {process : Nat} {result : Except TokenError TokenOutput} {action : PollAction}
      {duration : Time} {loop : PollLoop} (waits : before.phase = .waiting process)
      (answered : before.server.processes process = .done (.answered setting.request result))
      (polled : pollOnce setting.flow before.time (some (reply result)) = .ok action)
      (scheduled : before.loop.schedule setting.flow action = some (duration, loop)) :
      Move setting before .receive
        { before with loop, phase := .sleeping duration (before.time + duration) }
  | lose {process : Nat} {action : PollAction} {duration : Time} {loop : PollLoop}
      (waits : before.phase = .waiting process)
      (polled : pollOnce setting.flow before.time none = .ok action)
      (scheduled : before.loop.schedule setting.flow action = some (duration, loop)) :
      Move setting before .lose
        { before with loop, phase := .sleeping duration (before.time + duration) }
  | wake {duration wakesAt : Time} (sleeps : before.phase = .sleeping duration wakesAt)
      (slept : wakesAt ≤ before.time) : Move setting before .wake { before with phase := .ready }
  | stop : Move setting before .stop { before with phase := .past }

/-- Runs take any number of moves that all meet a condition on the session before the move. -/
def Runs (allowed : Session → Act → Prop) : Session → Session → Prop :=
  Relation.ReflTransGen fun before after =>
    ∃ act, allowed before act ∧ Move setting before act after

def anyMove (_ : Session) (_ : Act) : Prop := True

/-- A request is in flight from its sending until the server has answered it. -/
def Session.InFlight (session : Session) (process : Nat) : Prop :=
  process ∈ session.sent ∧ ∀ outcome, session.server.processes process ≠ .done outcome

/-- The tool stops waiting and starts to sleep. -/
def StartsSleep (before after : Session) (duration : Time) : Prop :=
  ∃ process wakesAt, before.phase = .waiting process ∧ after.phase = .sleeping duration wakesAt

/-- The server tells only a waiting tool to slow down, and the tool hears it. -/
def Heard (before : Session) : Act → Prop
  | .serve event => setting.Slows ⟨event.effect, event.answer⟩ →
      before.phase = .waiting event.process
  | .lose => ∀ event ∈ before.server.log, before.phase = .waiting event.process →
      ¬ setting.Slows ⟨event.effect, event.answer⟩
  | _ => True

end Tempogate.Cli
