/-
This file proves that a replayed refresh token ends its family,
and that another client's presentation of a token changes nothing.
-/

import Tempogate.Proof.Replay.Runs

namespace Tempogate.State.Books

open Foundation Oidc LedgerAction List

variable {crypto : Crypto} {books after : Books} {token clientID familyID : String}

/-- The token is stored for the client and the family and is no longer live. -/
def Spent (crypto : Crypto) (books : Books) (token clientID familyID : String) : Prop :=
  ∃ row ∈ books.tokens.rows, row.tokenHash = crypto.hash token ∧ row.clientID = clientID ∧
    row.familyID = familyID ∧ row.live = false

/-- A spent token stays spent. -/
theorem Spent.serves {call : StoreCall} {answer : call.Answer}
    (isSpent : books.Spent crypto token clientID familyID)
    (serves : Serves crypto books call answer after) :
    after.Spent crypto token clientID familyID := by
  obtain ⟨row, present, hash, client, family, dead⟩ := isSpent
  obtain ⟨later, member, evolves⟩ := serves.exists_evolves present
  refine ⟨later, member, evolves.tokenHash_eq.trans hash, evolves.clientID_eq.trans client,
    evolves.familyID_eq.trans family, Bool.eq_false_iff.mpr fun live => ?_⟩
  rw [evolves.live_of_live live] at dead
  cases dead

variable {moment : Time} {answer : Except StoreError Refresh}

/-- A token that its client presents is spent afterwards. -/
theorem Serves.spent {row : RefreshRow}
    (serves : Serves crypto books (.refresh (.consumeRefresh token row.clientID moment)) answer
      after)
    (present : row ∈ books.tokens.rows) (hash : row.tokenHash = crypto.hash token) :
    after.Spent crypto token row.clientID row.familyID := by
  have selected : consumes (crypto.hash token) row.clientID row = row.live := by
    simp [consumes, hash]
  cases serves with
  | consumed found =>
    unfold Spent
    rw [rows_spend]
    refine ⟨_, mem_map_of_mem present, ?_⟩
    rw [selected]
    split
    · exact ⟨hash, rfl, rfl, by simp [RefreshRow.live, RefreshRow.consume]⟩
    next dead => exact ⟨hash, rfl, rfl, Bool.eq_false_iff.mpr dead⟩
  | refused dead =>
    refine ⟨row, present, hash, rfl, rfl, ?_⟩
    rw [← selected]
    exact Bool.eq_false_iff.mpr (List.find?_eq_none.mp dead row present)

/-- A spent token that is presented again is reused, or its family was already closed. -/
theorem Serves.reused
    (serves : Serves crypto books (.refresh (.consumeRefresh token clientID moment)) answer after)
    (coherent : books.Coherent) (isSpent : books.Spent crypto token clientID familyID) :
    after = books ∧ ((∃ refresh, answer = .error (.refreshReused refresh) ∧
      refresh.familyID = familyID) ∨ books.closed familyID = true) := by
  obtain ⟨row, present, hash, client, rfl, dead⟩ := isSpent
  have only : ∀ stored ∈ books.tokens.rows, stored.tokenHash = crypto.hash token → stored = row :=
    fun stored member same => books.tokens.eq_of_key_eq member present (same.trans hash.symm)
  cases serves with
  | @consumed _ _ _ found hit =>
    have selected := List.find?_some hit
    simp only [consumes, Bool.and_eq_true, decide_eq_true_eq] at selected
    rw [only found (mem_of_find?_eq_some hit) selected.1.1] at selected
    rw [selected.2] at dead
    cases dead
  | refused missing =>
    refine ⟨rfl, ?_⟩
    unfold refusal
    cases found : books.tokens.rows.find? (Books.spent (crypto.hash token) clientID) with
    | some stored =>
      have selected := List.find?_some found
      simp only [Books.spent, Bool.and_eq_true, decide_eq_true_eq] at selected
      have same := only stored (mem_of_find?_eq_some found) selected.1.1
      exact .inl ⟨_, rfl, by rw [same]; rfl⟩
    | none =>
      right
      rw [← coherent.closed row present]
      cases consumed : row.consumedAt <;> cases revoked : row.revokedAt <;>
        simp_all [Books.spent, RefreshRow.live]

/-- No token of a closed family is accepted. -/
theorem Serves.accepted {refresh : Refresh}
    (serves : Serves crypto books (.refresh (.consumeRefresh token clientID moment))
      (.ok refresh) after)
    (coherent : books.Coherent) : books.closed refresh.familyID ≠ true := by
  intro closed
  cases serves with
  | @consumed _ _ _ row found =>
    have live := List.find?_some found
    simp only [consumes, Bool.and_eq_true] at live
    have dead := coherent.dead closed row (mem_of_find?_eq_some found) rfl
    rw [live.2] at dead
    cases dead

/-- A token that is only stored for other clients is not found. -/
theorem refusal_foreign (foreign : ∀ row ∈ books.tokens.rows, row.tokenHash = crypto.hash token →
      row.clientID ≠ clientID) :
    books.tokens.rows.find? (consumes (crypto.hash token) clientID) = none ∧
      books.refusal crypto token clientID = .refreshNotFound := by
  have missing : books.tokens.rows.find? (Books.spent (crypto.hash token) clientID) = none := by
    refine List.find?_eq_none.mpr fun row present selected => ?_
    simp only [Books.spent, Bool.and_eq_true, decide_eq_true_eq] at selected
    exact foreign row present selected.1.1 selected.1.2
  refine ⟨List.find?_eq_none.mpr fun row present selected => ?_, ?_⟩
  · simp only [consumes, Bool.and_eq_true, decide_eq_true_eq] at selected
    exact foreign row present selected.1.1 selected.1.2
  · rw [refusal, missing]

end Tempogate.State.Books

namespace Tempogate.Engine

open Foundation Oidc Tempogate.State List

/-- The event presents the token as the client. -/
def Presents (event : Event calls) (token clientID : String) : Prop :=
  ∃ moment, event.effect = .inr (.refresh (.consumeRefresh token clientID moment))

/-- The event accepts a token of the family. -/
def Accepts (event : Event calls) (familyID : String) : Prop :=
  ∃ process token clientID moment refresh,
    event = ⟨process, .inr (.refresh (.consumeRefresh token clientID moment)), .ok refresh⟩ ∧
      refresh.familyID = familyID

section Replay

variable {crypto : Crypto} {engine : Engine} {allowed : engine.Requests → Event calls → Prop}
  {before after : engine.Requests} {event : Event calls} {token clientID familyID : String}

section

variable (move : Step (engine.world crypto) before event after)

include move

/-- The books answer a presentation, and it is the first store call of its request. -/
theorem Presents.serves (presents : Presents event token clientID) (obeys : Obeying before) :
    ∃ moment answer,
      event = ⟨event.process, .inr (.refresh (.consumeRefresh token clientID moment)), answer⟩ ∧
        Books.Serves crypto (books before.store)
          (.refresh (.consumeRefresh token clientID moment)) answer (books after.store) ∧
        Storable clientID ∧ ticketOf before.log event.process = .fresh ∧
        ticketOf after.log event.process = .presented answer := by
  obtain ⟨moment, performed⟩ := presents
  have happens := move.happens
  have reads := (obeys.step move).2
  obtain ⟨process, effect, answer⟩ := event
  obtain rfl : effect = _ := performed
  obtain ⟨fresh, storable⟩ := Ticket.read_presented reads
  rw [fresh] at reads
  exact ⟨moment, answer, rfl, world_serves happens storable, storable, fresh,
    (Option.some.inj ((if_pos storable).symm.trans reads)).symm⟩

/-- The token is spent, and its family is closed or a request still owes the revocation. -/
structure Due (crypto : Crypto) (process : Nat) (token clientID familyID : String)
    (current : engine.Requests) : Prop where
  coherent : (books current.store).Coherent
  isSpent : (books current.store).Spent crypto token clientID familyID
  owed : (books current.store).closed familyID = true ∨
    ticketOf current.log process = .owes familyID

/-- The second presentation of a token leaves its revocation due. -/
theorem Due.of_presents (presents : Presents event token clientID) (obeys : Obeying before)
    (coherent : (books before.store).Coherent)
    (isSpent : (books before.store).Spent crypto token clientID familyID) :
    Due crypto event.process token clientID familyID after := by
  obtain ⟨moment, answer, -, serves, -, -, ticket⟩ := presents.serves move obeys
  refine ⟨serves.coherent coherent, isSpent.serves serves, ?_⟩
  obtain ⟨-, ⟨refresh, rfl, rfl⟩ | closed⟩ := serves.reused coherent isSpent
  · exact .inr ticket
  · exact .inl (serves.closed closed)

/-- A due revocation stays due until it is made. -/
theorem Due.step {process : Nat} (due : Due crypto process token clientID familyID before)
    (obeys : Obeying before) : Due crypto process token clientID familyID after := by
  obtain ⟨coherent, isSpent, owed⟩ := due
  have known : (books before.store).known familyID = true := by
    obtain ⟨row, present, -, -, family, -⟩ := isSpent
    rw [← family]
    exact coherent.known row present
  have closing : (books before.store).closed familyID = true →
      (books after.store).closed familyID = true := by
    intro closed
    rcases obeys.serves move with ⟨-, -, -, same⟩ | ⟨call, answer, -, serves⟩
    · rw [same]
      exact closed
    · exact serves.closed closed
  have kept : (books after.store).Coherent ∧
      (books after.store).Spent crypto token clientID familyID := by
    rcases obeys.serves move with ⟨-, -, -, same⟩ | ⟨call, answer, -, serves⟩
    · rw [same]
      exact ⟨coherent, isSpent⟩
    · exact ⟨serves.coherent coherent, isSpent.serves serves⟩
  refine ⟨kept.1, kept.2, ?_⟩
  rcases owed with closed | owes
  · exact .inl (closing closed)
  by_cases mine : event.process = process
  · subst mine
    obtain ⟨moment, answer, -, serves⟩ := obeys.revokes move owes
    exact .inl (serves.revokes known)
  · rw [ticketOf_of_ne move mine]
    exact .inr owes

end

/-- Once the second presentation is answered the family is closed. -/
theorem Due.answered {process : Nat} {result : Except TokenError TokenOutput}
    (due : Due crypto process token clientID familyID before) (obeys : Obeying before)
    (reached : Reaches (engine.world crypto) allowed before after)
    (done : after.processes process = .done result) :
    (books after.store).Coherent ∧ (books after.store).closed familyID = true ∧ Obeying after := by
  have kept : Due crypto process token clientID familyID after ∧ Obeying after := by
    refine reached.invariant (fun current =>
      Due crypto process token clientID familyID current ∧ Obeying current) ⟨due, obeys⟩ ?_
    rintro middle event later _ ⟨holds, obeying⟩ _ move
    exact ⟨holds.step move obeying, (obeying.step move).1⟩
  obtain ⟨⟨coherent, -, owed⟩, obeying⟩ := kept
  exact ⟨coherent, owed.resolve_right (obeying.paid done familyID), obeying⟩

/-- A request is fresh until it calls the store. -/
def Outward (current : engine.Requests) : Prop :=
  ∀ process, ticketOf current.log process = .fresh →
    ∀ earlier ∈ current.log, earlier.process = process → ∃ call, earlier.effect = .inl call

theorem Outward.step (outward : Outward before) (obeys : Obeying before)
    (move : Step (engine.world crypto) before event after) : Outward after := by
  intro process fresh earlier member mine
  rw [move.log_eq] at member
  by_cases same : event.process = process
  · subst same
    have reads := (obeys.step move).2
    rw [fresh] at reads
    obtain ⟨unused, act⟩ := Ticket.read_fresh reads
    rcases mem_cons.mp member with rfl | old
    · exact outside_of_shown act
    · exact outward event.process unused earlier old mine
  · rw [ticketOf_of_ne move same] at fresh
    rcases mem_cons.mp member with rfl | old
    · exact absurd mine same
    · exact outward process fresh earlier old mine

/-- A refused request is answered. -/
theorem Obeying.refused (obeys : Obeying after) {process : Nat}
    (refused : ticketOf after.log process = .refused) :
    after.processes process = .done (.error (oauthErr 400 "invalid_grant"
      "unknown, revoked, or other client's refresh token")) := by
  have meets := obeys process
  change Program.Meets _ _ _ _ (ticketOf after.log process) at meets
  rw [refused] at meets
  cases program : after.processes process with
  | done result =>
    rw [program] at meets
    exact congrArg Program.done meets
  | perform effect next =>
    rw [program] at meets
    obtain ⟨answer⟩ := nonempty_answer effect
    have permitted : (Ticket.refused.read (observeActs effect answer)).isSome :=
      (meets answer trivial).1
    rw [Ticket.read_refused] at permitted
    cases permitted

/-- In every interleaving of token requests on either backend, once a token was presented again by
its own client and that request is answered, no token of its family is accepted any more.
A presentation by another client makes its only store call in vain, changes nothing and is
answered as an unknown token is. -/
theorem refresh_replay_is_contained (config : TokenConfig) (engine : Engine)
    (start : engine.State) (requests : Nat → TokenRequest) (coherent : (books start).Coherent)
    {reached : engine.Requests}
    (run : Reaches (engine.world config.crypto) anyStep (engine.tokens config start requests)
      reached) :
    (∀ row ∈ (books reached.store).tokens.rows, ∀ token, row.tokenHash = config.crypto.hash token →
      ∀ firstUse first, Step (engine.world config.crypto) reached firstUse first →
      Presents firstUse token row.clientID →
      ∀ again, Reaches (engine.world config.crypto) anyStep first again →
      ∀ secondUse second, Step (engine.world config.crypto) again secondUse second →
      Presents secondUse token row.clientID →
      ∀ answered result, Reaches (engine.world config.crypto) anyStep second answered →
      answered.processes secondUse.process = .done result →
      ∀ later, Reaches (engine.world config.crypto) anyStep answered later →
      ∀ use after, Step (engine.world config.crypto) later use after →
      ¬ Accepts use row.familyID) ∧
    (∀ use after token clientID, Step (engine.world config.crypto) reached use after →
      Presents use token clientID →
      (∀ row ∈ (books reached.store).tokens.rows, row.tokenHash = config.crypto.hash token →
        row.clientID ≠ clientID) →
      after.store = reached.store ∧
        after.processes use.process = .done (.error (oauthErr 400 "invalid_grant"
          "unknown, revoked, or other client's refresh token")) ∧
        ∀ earlier ∈ reached.log, earlier.process = use.process →
          ∃ call, earlier.effect = .inl call) := by
  have obeysStart := obeying_tokens config start requests
  obtain ⟨coherentReached, obeys⟩ := obeysStart.coherent run coherent
  constructor
  · rintro row present token hash firstUse first move presents again onward secondUse second
      moveAgain presentsAgain answered result toAnswer done later toLater use after moveLater
      ⟨process, used, clientID, moment, refresh, rfl, family⟩
    obtain ⟨_, _, _, serves, _, _, _⟩ := presents.serves move obeys
    obtain ⟨⟨coherentAgain, isSpent⟩, obeysAgain⟩ := (obeys.step move).1.run
      (fun books => books.Coherent ∧ books.Spent config.crypto token row.clientID row.familyID)
      (fun _ _ _ _ serves holds => ⟨serves.coherent holds.1, holds.2.serves serves⟩) onward
      ⟨serves.coherent coherentReached, serves.spent present hash⟩
    have due := Due.of_presents moveAgain presentsAgain obeysAgain coherentAgain isSpent
    obtain ⟨coherentAnswer, closed, obeysAnswer⟩ :=
      due.answered (obeysAgain.step moveAgain).1 toAnswer done
    obtain ⟨⟨coherentLater, closedLater⟩, obeysLater⟩ := obeysAnswer.run
      (fun books => books.Coherent ∧ books.closed row.familyID = true)
      (fun _ _ _ _ serves holds => ⟨serves.coherent holds.1, serves.closed holds.2⟩) toLater
      ⟨coherentAnswer, closed⟩
    have accepted : Books.Serves config.crypto (books later.store)
        (.refresh (.consumeRefresh used clientID moment)) (.ok refresh) (books after.store) :=
      world_serves moveLater.happens (Ticket.read_presented (obeysLater.step moveLater).2).2
    exact accepted.accepted coherentLater (by rw [family]; exact closedLater)
  · intro use after token clientID move presents foreign
    obtain ⟨dead, unknown⟩ := Books.refusal_foreign foreign
    obtain ⟨outward, -⟩ : Outward reached ∧ Obeying reached := by
      refine run.invariant (fun current => Outward current ∧ Obeying current)
        ⟨fun _ _ _ member => absurd member not_mem_nil, obeysStart⟩ ?_
      rintro middle event later _ ⟨holds, obeying⟩ _ moved
      exact ⟨holds.step obeying moved, (obeying.step moved).1⟩
    obtain ⟨moment, answer, performed, -, storable, fresh, ticket⟩ := presents.serves move obeys
    have happens := move.happens
    rw [performed] at happens
    have answered : engine.respond config.crypto
        (.refresh (.consumeRefresh token clientID moment)) reached.store =
          (answer, after.store) := happens
    rw [respond_refused config.crypto engine reached.store storable moment dead,
      unknown] at answered
    obtain ⟨rfl, same⟩ := Prod.mk.inj answered
    exact ⟨same.symm, (obeys.step move).1.refused ticket, outward use.process fresh⟩

end Replay

/-- One token of the family is live. -/
def sampleSession : Engine.State .sqlite :=
  { Sqlite.Store.empty with
    refreshTokens := (Table.empty.insert (.ofRefresh plainCrypto sampleRefresh)).getD .empty }

/-- The last request presents the token that the first one receives. -/
def samplePresentations (process : Nat) : TokenRequest :=
  ⟨[("grant_type", "refresh_token"), ("client_id", "client"), ("client_secret", "secret"),
    ("refresh_token", if process = 2 then "child" else "token")], none⟩

/-- The replayed token ends the session, and the child that was saved before is not accepted. -/
theorem refresh_replay_is_contained_sample : (sampleTurns sampleSession samplePresentations
        [0, 0, 0, 0, 1, 1, 0, 0, 0, 0, 1, 2]).processes 1 =
      .done (.error (oauthErr 400 "invalid_grant"
        "refresh token already used; the session has been revoked")) ∧
    ∀ use after, Step (Engine.sqlite.world plainCrypto) (sampleTurns sampleSession
        samplePresentations [0, 0, 0, 0, 1, 1, 0, 0, 0, 0, 1, 2]) use after →
      ¬ Accepts use "family" := by
  have coherent : (books sampleSession).Coherent := ⟨by decide, by decide⟩
  have runs := @reaches_turns plainCrypto .sqlite sampleAnswers
  have contained := refresh_replay_is_contained sampleConfig .sqlite sampleSession
    samplePresentations coherent (runs _ [0])
  refine ⟨rfl, ?_⟩
  exact contained.1 (.ofRefresh plainCrypto sampleRefresh) (mem_singleton_self _) "token" rfl
    _ _ (step_turn plainCrypto sampleAnswers _ 0 rfl) ⟨5, rfl⟩ _ (runs _ [0, 0, 1])
    _ _ (step_turn plainCrypto sampleAnswers _ 1 rfl) ⟨5, rfl⟩ _ _ (runs _ [0, 0, 0, 0, 1]) rfl
    _ (runs _ [2])

end Tempogate.Engine
