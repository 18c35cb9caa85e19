/-
This file follows interleaved token requests by their tickets over either backend.
-/

import Tempogate.Proof.Replay.Ticket
import Tempogate.Proof.Store.Coherent

namespace Tempogate.Engine

open Foundation Oidc Tempogate.State Engine

/-- Token requests run on one backend. -/
abbrev Requests (engine : Engine) : Type :=
  Configuration calls engine.State (Except TokenError TokenOutput)

/-- The ticket of a request is told by its acts. -/
def ticketOf (log : List (Event calls)) (process : Nat) : Ticket :=
  ticketProtocol.ghost observeActs (fun _ => .fresh) log process

abbrev Obeying {engine : Engine} (current : engine.Requests) : Prop :=
  current.Follows ticketProtocol observeActs Ticket.Settles fun _ => .fresh

section Runs

variable {crypto : Crypto} {config : TokenConfig} {engine : Engine}
  {allowed : engine.Requests → Event calls → Prop} {before after : engine.Requests}
  {event : Event calls}

theorem obeying_tokens (config : TokenConfig) (state : engine.State)
    (requests : Nat → TokenRequest) : Obeying (engine.tokens config state requests) :=
  fun process => dispatch_obeys config (requests process)

/-- An act that a ticket reads is answered by a plain method. -/
theorem plain_of_read {ticket next : Ticket} {call : StoreCall} {answer : call.Answer}
    (reads : ticket.read (observeActs (.inr call) answer) = some next) : Books.Plain call := by
  match call with
  | .refresh (.revokeRefreshByEmail _ _) | .refresh (.revokeRefreshBySubject _ _ _) =>
    cases ticket <;> cases reads
  | .refresh (.consumeRefresh _ _ _) => exact (Ticket.read_presented reads).2
  | .refresh (.saveRefresh _) | .refresh (.revokeRefreshFamily _ _) | .authCode _
  | .authRequest _ | .deviceCode _ => trivial

/-- A step of obeying requests is read by the ticket of its process. -/
theorem Obeying.step (obeys : Obeying before)
    (move : Step (engine.world crypto) before event after) :
    Obeying after ∧ (ticketOf before.log event.process).read
        (observeActs event.effect event.answer) = some (ticketOf after.log event.process) := by
  obtain ⟨permitted, followed⟩ := Configuration.Follows.step obeys move trivial
  refine ⟨followed, ?_⟩
  rw [ticketOf, ticketOf, move.log_eq, Protocol.ghost_self]
  exact Protocol.automaton_reads permitted

/-- The other processes keep their tickets. -/
theorem ticketOf_of_ne (move : Step (engine.world crypto) before event after) {process : Nat}
    (other : event.process ≠ process) :
    ticketOf after.log process = ticketOf before.log process := by
  rw [ticketOf, move.log_eq, Protocol.ghost_of_ne _ _ _ _ other]
  rfl

section

variable (obeys : Obeying before)

include obeys

/-- A step asks the outside and leaves the store, or the books serve it. -/
theorem Obeying.serves (move : Step (engine.world crypto) before event after) :
    (∃ call answer, event = ⟨event.process, .inl call, answer⟩ ∧ after.store = before.store) ∨
      ∃ call answer, event = ⟨event.process, .inr call, answer⟩ ∧
        Books.Serves crypto (books before.store) call answer (books after.store) := by
  have reads := (obeys.step move).2
  have happens := move.happens
  obtain ⟨process, effect, answer⟩ := event
  cases effect with
  | inl call => exact .inl ⟨call, answer, rfl, happens⟩
  | inr call => exact .inr ⟨call, answer, rfl, world_serves happens (plain_of_read reads)⟩

/-- What the books keep true holds after every run. -/
theorem Obeying.run (property : Books → Prop)
    (step : ∀ books call answer served, Books.Serves crypto books call answer served →
      property books → property served)
    (reached : Reaches (engine.world crypto) allowed before after)
    (holds : property (books before.store)) : property (books after.store) ∧ Obeying after := by
  refine reached.invariant (fun current => property (books current.store) ∧ Obeying current)
    ⟨holds, obeys⟩ ?_
  rintro middle event later _ ⟨kept, obeying⟩ _ move
  refine ⟨?_, (obeying.step move).1⟩
  rcases obeying.serves move with ⟨call, answer, -, same⟩ | ⟨call, answer, -, serves⟩
  · rw [same]
    exact kept
  · exact step _ call answer _ serves kept

/-- Coherent books stay coherent. -/
theorem Obeying.coherent (reached : Reaches (engine.world crypto) allowed before after)
    (coherent : (books before.store).Coherent) :
    (books after.store).Coherent ∧ Obeying after :=
  obeys.run Books.Coherent (fun _ _ _ _ serves => serves.coherent) reached coherent

end

/-- A request that owes a revocation makes it in its next step. -/
theorem Obeying.revokes (obeys : Obeying before)
    (move : Step (engine.world crypto) before event after) {familyID : String}
    (owes : ticketOf before.log event.process = .owes familyID) :
    ∃ moment answer,
      event = ⟨event.process, .inr (.refresh (.revokeRefreshFamily familyID moment)), answer⟩ ∧
        Books.Serves crypto (books before.store)
          (.refresh (.revokeRefreshFamily familyID moment)) answer (books after.store) := by
  have reads := (obeys.step move).2
  have happens := move.happens
  rw [owes] at reads
  obtain ⟨moment, performed⟩ := revoked_of_shown (Ticket.read_owes reads)
  obtain ⟨process, effect, answer⟩ := event
  obtain rfl : effect = _ := performed
  exact ⟨moment, answer, rfl, world_serves happens trivial⟩

/-- A finished request owes no revocation. -/
theorem Obeying.paid (obeys : Obeying after) {process : Nat}
    {result : Except TokenError TokenOutput} (answered : after.processes process = .done result)
    (familyID : String) : ticketOf after.log process ≠ .owes familyID := by
  intro owes
  have meets := obeys process
  rw [answered] at meets
  change Ticket.Settles (ticketOf after.log process) result at meets
  rw [owes] at meets
  exact meets

end Runs

/-- Every order of turns is a run. -/
theorem reaches_turns (crypto : Crypto) {engine : Engine}
    (script : List (Event calls) → Nat → (call : EnvironmentCall) → call.Answer)
    (before : engine.Requests) (order : List Nat) :
    Reaches (engine.world crypto) anyStep before
      (before.turns (engine.executor crypto script) order) :=
  (Configuration.lawful_of_follows (executor_follows crypto engine script) before order).reaches

/-- The turn of a request that is not answered is a step. -/
theorem step_turn (crypto : Crypto) {engine : Engine}
    (script : List (Event calls) → Nat → (call : EnvironmentCall) → call.Answer)
    (before : engine.Requests) (process : Nat) {effect : calls.Effect}
    {next : calls.Answer effect → Handler (Except TokenError TokenOutput)}
    (ready : before.processes process = .perform effect next) :
    Step (engine.world crypto) before
      ⟨process, effect, (engine.executor crypto script before.log before.store process effect).1⟩
      (before.turn (engine.executor crypto script) process) :=
  Configuration.turn_step ready (executor_follows crypto engine script _ _ _ _)

/-- Two confidential clients sign in people of one domain. -/
def sampleConfig : TokenConfig :=
  sampleTokens [("client", ⟨["https://client"], [.authorizationCode, .refreshToken], "secret"⟩),
    ("other", ⟨["https://other"], [.authorizationCode, .refreshToken], "password"⟩)] (by decide)
    false

/-- The clock stands still. -/
def sampleAnswers (_ : List (Event calls)) (process : Nat) :
    (call : EnvironmentCall) → call.Answer :=
  sampleEnvironment 5 (if process = 0 then "family" else "unused")

/-- The turns of the sample run in the given order. -/
def sampleTurns (start : State .sqlite) (requests : Nat → TokenRequest)
    (order : List Nat) : Requests .sqlite :=
  (sqlite.tokens sampleConfig start requests).turns
    (sqlite.executor plainCrypto sampleAnswers) order

/-- One code waits for its client. -/
def sampleAuthCode : AuthCode where
  code := "code"
  clientID := "client"
  redirectURI := "https://client"
  connectorID := "google"
  subject := "subject"
  email := "person@example.com"
  scope := "openid"
  codeChallenge := ""
  codeChallengeMethod := ""
  nonce := "nonce"
  familyID := ""
  createdAt := 0
  expiresAt := 10

def sampleSignIn : State .sqlite :=
  { Sqlite.Store.empty with
    authCodes := Table.empty.append (.ofAuthCode plainCrypto sampleAuthCode) (by simp) }

/-- The client of the code presents it in every request. -/
def sampleRedemption (_ : Nat) : TokenRequest :=
  ⟨[("grant_type", "authorization_code"), ("client_id", "client"), ("client_secret", "secret"),
    ("redirect_uri", "https://client"), ("code", "code")], none⟩

end Tempogate.Engine
