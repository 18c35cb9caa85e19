/-
This file proves when a replayed authorization code ends the family that its redemption started.
-/

import Tempogate.Proof.Replay.Runs

namespace Tempogate.State.Books

open Foundation Oidc Engine AuthCodeStatement List

variable {crypto : Crypto} {books after : Books} {code familyID familyID code other : String}
  {answer : Except StoreError AuthCode} {moment : Time} {authCode : AuthCode}
  {process replayer : Nat}

/-- The code was redeemed with this family. -/
def Redeemed (crypto : Crypto) (books : Books) (code familyID : String) : Prop :=
  ∃ row ∈ books.codes.rows, row.codeHash = crypto.hash code ∧ row.consumedAt.isSome = true ∧
    row.familyID = familyID

theorem rows_redeem (books : Books) (codeHash familyID : String) (moment : Time) :
    (books.redeem codeHash familyID moment).codes.rows = books.codes.rows.map fun row =>
      if consumable codeHash row then row.consume familyID moment else row :=
  books.codes.rows_update _ (AuthCodeRow.consume familyID moment) fun _ => rfl

/-- A consumed code is redeemed with the family of the request. -/
theorem Serves.redeemed
    (serves : Serves crypto books (.authCode (.consumeAuthCode code familyID moment)) (.ok authCode)
      after) : after.Redeemed crypto code familyID := by
  cases serves with
  | @codeConsumed _ _ _ row found =>
    have selected : consumable (crypto.hash code) row = true :=
      List.find?_some found
    have hash := selected
    simp only [consumable, Bool.and_eq_true, decide_eq_true_eq] at hash
    refine ⟨row.consume familyID moment, ?_, hash.1, rfl, rfl⟩
    rw [rows_redeem]
    exact mem_map.mpr ⟨row, mem_of_find?_eq_some found, by rw [if_pos selected]⟩

/-- A redeemed code keeps its family. -/
theorem Redeemed.serves {call : StoreCall} {answer : call.Answer}
    (isRedeemed : books.Redeemed crypto code familyID)
    (serves : Serves crypto books call answer after) : after.Redeemed crypto code familyID := by
  obtain ⟨row, present, hash, consumed, family⟩ := isRedeemed
  cases serves with
  | codeSaved inserted =>
    refine ⟨row, ?_, hash, consumed, family⟩
    rw [(Table.rows_insert inserted).1]
    exact mem_append_left _ present
  | @codeConsumed name other moment found hit =>
    refine ⟨row, ?_, hash, consumed, family⟩
    have missed : consumable (crypto.hash name) row = false := by
      cases stamp : row.consumedAt <;> simp_all [consumable]
    rw [rows_redeem]
    exact mem_map.mpr ⟨row, present, by rw [if_neg (Bool.eq_false_iff.mp missed)]⟩
  | _ => exact ⟨row, present, hash, consumed, family⟩

/-- A redeemed code that is presented again is reused. -/
theorem Redeemed.rejects (isRedeemed : books.Redeemed crypto code familyID)
    (serves : Serves crypto books (.authCode (.consumeAuthCode code other moment)) answer after) :
    ∃ authCode, answer = .error (.authCodeReused authCode) ∧ authCode.familyID = familyID := by
  obtain ⟨row, present, hash, consumed, family⟩ := isRedeemed
  have only : ∀ stored ∈ books.codes.rows, stored.codeHash = crypto.hash code → stored = row :=
    fun stored member same => books.codes.eq_of_key_eq member present (same.trans hash.symm)
  cases serves with
  | @codeConsumed _ _ _ found hit =>
    have selected := List.find?_some hit
    simp only [consumable, Bool.and_eq_true, decide_eq_true_eq] at selected
    rw [only found (mem_of_find?_eq_some hit) selected.1] at selected
    cases stamp : row.consumedAt <;> simp_all
  | codeRejected dead =>
    unfold rejection
    cases found : books.codes.rows.find? (AuthCodeStatement.consumed (crypto.hash code)) with
    | some stored =>
      have selected := List.find?_some found
      simp only [AuthCodeStatement.consumed, Bool.and_eq_true, decide_eq_true_eq] at selected
      have same := only stored (mem_of_find?_eq_some found) selected.1
      exact ⟨_, rfl, by rw [same]; exact family⟩
    | none =>
      have missed := List.find?_eq_none.mp found row present
      simp [AuthCodeStatement.consumed, hash, consumed] at missed

end Tempogate.State.Books

namespace Tempogate.Engine

open Foundation Oidc Tempogate.State Ticket List

variable (log : List (Event calls))

/-- The process drew the family. -/
def Drew (process : Nat) (familyID : String) : Prop :=
  ∃ event ∈ log, event.process = process ∧ observeActs event.effect event.answer = .drew familyID

theorem Drew.cons {log : List (Event calls)} (drew : Drew log process familyID)
    (event : Event calls) : Drew (event :: log) process familyID := by
  obtain ⟨earlier, member, shown⟩ := drew
  exact ⟨earlier, mem_cons_of_mem event member, shown⟩

section Careful

variable {engine : Engine}

variable (before : engine.Requests)

variable (event : Event calls)

/-- A drawn family has a name, is not in the store and was drawn by nobody before. -/
def FreshDraw : Prop :=
  ∀ familyID, observeActs event.effect event.answer = .drew familyID →
    familyID ≠ "" ∧ (books before.store).known familyID = false ∧
      ∀ process, ¬ Drew before.log process familyID

/-- A request consumed its code for the family and is not answered yet. -/
def Underway (familyID : String) (current : engine.Requests) : Prop :=
  ∃ process code moment authCode,
    ⟨process, .inr (.authCode (.consumeAuthCode code familyID moment)), .ok authCode⟩ ∈
        current.log ∧
      ∀ result, current.processes process ≠ .done result

/-- A revocation comes too early when the redemption of its family has yet to save a token. -/
def TooEarly : Prop :=
  ∃ familyID moment, event.effect = .inr (.refresh (.revokeRefreshFamily familyID moment)) ∧
    (books before.store).known familyID = false ∧ Underway familyID before

def Careful : Prop :=
  FreshDraw before event ∧ ¬ TooEarly before event

end Careful

section Traced

variable {crypto : Crypto} {engine : Engine} {before after : engine.Requests}
  {event : Event calls} {familyID : String} {process : Nat}

/-- Every held family is known or was drawn by its holder, and nobody else drew it. -/
structure Traced (current : engine.Requests) : Prop where
  obeys : Obeying current
  coherent : (books current.store).Coherent
  named : ∀ process familyID, Drew current.log process familyID → familyID ≠ ""
  once : ∀ first second familyID, Drew current.log first familyID →
    Drew current.log second familyID → first = second
  drew : ∀ process familyID, ticketOf current.log process = .drew familyID →
    Drew current.log process familyID
  holds : ∀ process familyID, ticketOf current.log process = .holds familyID →
    (books current.store).known familyID = true ∨ Drew current.log process familyID

namespace Traced

theorem initial (config : TokenConfig) {start : engine.State} (requests : Nat → TokenRequest)
    (coherent : (books start).Coherent) : Traced (engine.tokens config start requests) where
  obeys := obeying_tokens config start requests
  coherent := coherent
  named _ _ := by
    rintro ⟨event, member, -⟩
    cases member
  once _ _ _ := by
    rintro ⟨event, member, -⟩
    cases member
  drew _ _ fresh := by cases fresh
  holds _ _ fresh := by cases fresh

section

variable (move : Step (engine.world crypto) before event after)

include move

/-- The family of an accepted token is known. -/
theorem known_of_presented (traced : Traced before) {clientID : String}
    {refresh : Refresh} (storable : Storable clientID)
    (shown : observeActs event.effect event.answer = .presented clientID (.ok refresh)) :
    (books before.store).known refresh.familyID = true := by
  obtain ⟨token, moment, performed⟩ := presented_of_shown shown
  have happens := move.happens
  rw [performed] at happens
  have serves := world_serves happens storable
  generalize books after.store = served at serves
  cases serves with
  | @consumed _ _ _ row found =>
    exact traced.coherent.known row (mem_of_find?_eq_some found)

theorem known_step (traced : Traced before) (isKnown : (books before.store).known familyID = true) :
    (books after.store).known familyID = true := by
  rcases traced.obeys.serves move with ⟨-, -, -, same⟩ | ⟨_, _, -, serves⟩
  · rw [same]
    exact isKnown
  · exact serves.known isKnown

/-- A step adds its own draw. -/
theorem drew_step (drew : Drew after.log process familyID) :
    Drew before.log process familyID ∨ event.process = process ∧
      observeActs event.effect event.answer = .drew familyID := by
  obtain ⟨earlier, member, mine, shown⟩ := drew
  rw [move.log_eq] at member
  rcases mem_cons.mp member with rfl | old
  · exact .inr ⟨mine, shown⟩
  · exact .inl ⟨earlier, old, mine, shown⟩

/-- Steps with fresh draws keep the trace. -/
theorem step (traced : Traced before) (fresh : FreshDraw before event) : Traced after := by
  have reads := (traced.obeys.step move).2
  have keeps : ∀ {process familyID}, Drew before.log process familyID →
      Drew after.log process familyID := by
    intro process familyID drew
    rw [move.log_eq]
    exact drew.cons event
  have adds : ∀ {familyID}, observeActs event.effect event.answer = .drew familyID →
      Drew after.log event.process familyID := by
    intro familyID shown
    rw [move.log_eq]
    exact ⟨event, mem_cons_self, rfl, shown⟩
  refine ⟨(traced.obeys.step move).1, ?_, ?_, ?_, ?_, ?_⟩
  · rcases traced.obeys.serves move with ⟨-, -, -, same⟩ | ⟨_, _, -, serves⟩
    · rw [same]
      exact traced.coherent
    · exact serves.coherent traced.coherent
  · intro process familyID drew
    rcases drew_step move drew with old | ⟨-, shown⟩
    · exact traced.named process familyID old
    · exact (fresh familyID shown).1
  · intro first second familyID drewFirst drewSecond
    rcases drew_step move drewFirst with oldFirst | ⟨rfl, shown⟩
    · rcases drew_step move drewSecond with oldSecond | ⟨-, shown⟩
      · exact traced.once first second familyID oldFirst oldSecond
      · exact absurd oldFirst ((fresh familyID shown).2.2 first)
    · rcases drew_step move drewSecond with oldSecond | ⟨same, -⟩
      · exact absurd oldSecond ((fresh familyID shown).2.2 second)
      · exact same
  · intro process familyID ticket
    by_cases mine : event.process = process
    · subst mine
      rw [ticket] at reads
      rcases read_drew reads with old | shown
      · exact keeps (traced.drew _ _ old)
      · exact adds shown
    · rw [ticketOf_of_ne move mine] at ticket
      exact keeps (traced.drew _ _ ticket)
  · intro process familyID ticket
    by_cases mine : event.process = process
    · subst mine
      rw [ticket] at reads
      rcases read_holds reads with old | old | shown | ⟨_, refresh, shown, storable, rfl⟩
      · exact (traced.holds _ _ old).imp (traced.known_step move) keeps
      · exact .inr (keeps (traced.drew _ _ old))
      · exact .inr (adds shown)
      · exact .inl (traced.known_step move (traced.known_of_presented move storable shown))
    · rw [ticketOf_of_ne move mine] at ticket
      exact (traced.holds _ _ ticket).imp (traced.known_step move) keeps

end

end Traced

/-- The family has no token, and every request that could give it one is answered. -/
structure Barren (familyID : String) (current : engine.Requests) : Prop where
  isUnknown : (books current.store).known familyID = false
  drawn : ∃ process, Drew current.log process familyID
  answered : ∀ process, ticketOf current.log process = .drew familyID ∨
      ticketOf current.log process = .holds familyID →
    ∃ result, current.processes process = .done result

/-- A barren family stays barren. -/
theorem Barren.step (barren : Barren familyID before) (traced : Traced before)
    (fresh : FreshDraw before event) (move : Step (engine.world crypto) before event after) :
    Barren familyID after := by
  have reads := (traced.obeys.step move).2
  have idle : ∀ ticket, ticketOf before.log event.process = ticket →
      ticket ≠ .drew familyID ∧ ticket ≠ .holds familyID := by
    rintro ticket rfl
    have unfinished : ¬ ∃ result, before.processes event.process = .done result := by
      rintro ⟨result, done⟩
      exact move.process_ne_of_done done rfl
    exact ⟨fun drew => unfinished (barren.answered _ (.inl drew)),
      fun holds => unfinished (barren.answered _ (.inr holds))⟩
  have undrawn : observeActs event.effect event.answer ≠ .drew familyID := by
    intro shown
    obtain ⟨process, drew⟩ := barren.drawn
    exact (fresh familyID shown).2.2 process drew
  refine ⟨?_, ?_, ?_⟩
  · rcases traced.obeys.serves move with ⟨-, -, -, same⟩ | ⟨call, answer, performed, serves⟩
    · rw [same]
      exact barren.isUnknown
    · refine serves.unknown barren.isUnknown ?_
      rintro refresh rfl rfl
      rw [shown_of_saved (congrArg Event.effect performed)] at reads
      exact (idle _ rfl).2 (read_saved reads)
  · obtain ⟨process, drew⟩ := barren.drawn
    rw [move.log_eq]
    exact ⟨process, drew.cons event⟩
  · intro process ticket
    by_cases mine : event.process = process
    · subst mine
      rcases ticket with drew | holds
      · rw [drew] at reads
        rcases read_drew reads with old | shown
        · exact absurd old (idle _ rfl).1
        · exact absurd shown undrawn
      · rw [holds] at reads
        rcases read_holds reads with old | old | shown | ⟨_, refresh, shown, storable, rfl⟩
        · exact absurd old (idle _ rfl).2
        · exact absurd old (idle _ rfl).1
        · exact absurd shown undrawn
        · cases barren.isUnknown.symm.trans (traced.known_of_presented move storable shown)
    · rw [ticketOf_of_ne move mine] at ticket
      obtain ⟨result, done⟩ := barren.answered process ticket
      exact ⟨result, (move.processes_of_ne mine).trans done⟩

/-- The family is closed for good, or it never gets a token. -/
def Ended (familyID : String) (current : engine.Requests) : Prop :=
  (books current.store).closed familyID = true ∨ Barren familyID current

theorem Ended.dead {current : engine.Requests} (ended : Ended familyID current)
    (traced : Traced current) : FamilyDead (books current.store).tokens.rows familyID := by
  rcases ended with closed | barren
  · exact traced.coherent.dead closed
  · intro row present family
    exact absurd family (traced.coherent.absent barren.isUnknown row present)

section

variable (move : Step (engine.world crypto) before event after)

include move

theorem Ended.step (ended : Ended familyID before) (traced : Traced before)
    (fresh : FreshDraw before event) : Ended familyID after := by
  rcases ended with closed | barren
  · left
    rcases traced.obeys.serves move with ⟨-, -, -, same⟩ | ⟨_, _, -, serves⟩
    · rw [same]
      exact closed
    · exact serves.closed closed
  · exact .inr (barren.step traced fresh move)

/-- A revocation that does not come too early ends the family. -/
theorem Ended.of_revokes (traced : Traced before) (careful : Careful before event)
    (used : ⟨process, .inr (.authCode (.consumeAuthCode code familyID moment)), .ok authCode⟩ ∈
      before.log) (drew : Drew before.log process familyID)
    (owes : ticketOf before.log event.process = .owes familyID) : Ended familyID after := by
  obtain ⟨revokedAt, answer, performed, serves⟩ := traced.obeys.revokes move owes
  cases known : (books before.store).known familyID with
  | true => exact .inl (serves.revokes known)
  | false =>
    have finished : ∃ result, before.processes process = .done result := by
      by_contra unfinished
      exact careful.2 ⟨familyID, revokedAt, congrArg Event.effect performed, known,
        process, code, moment, authCode, used, not_exists.mp unfinished⟩
    have barren : Barren familyID before := by
      refine ⟨known, ⟨process, drew⟩, fun holder ticket => ?_⟩
      have drewToo : Drew before.log holder familyID := by
        rcases ticket with drawn | held
        · exact traced.drew holder familyID drawn
        · refine (traced.holds holder familyID held).resolve_left ?_
          rw [known]
          exact Bool.false_ne_true
      rw [traced.once holder process familyID drewToo drew]
      exact finished
    exact .inr (barren.step traced careful.1 move)

/-- The code was redeemed, and its family is ended or a replay still owes the revocation. -/
structure Pursued (replayer process : Nat) (familyID : String) (current : engine.Requests) :
    Prop where
  traced : Traced current
  drew : Drew current.log process familyID
  used : ∃ code moment authCode,
    ⟨process, .inr (.authCode (.consumeAuthCode code familyID moment)), .ok authCode⟩ ∈ current.log
  owed : Ended familyID current ∨ ticketOf current.log replayer = .owes familyID

theorem Pursued.step (pursued : Pursued replayer process familyID before)
    (careful : Careful before event) : Pursued replayer process familyID after := by
  obtain ⟨traced, drew, ⟨code, moment, authCode, used⟩, owed⟩ := pursued
  refine ⟨traced.step move careful.1, ?_, ⟨code, moment, authCode, ?_⟩, ?_⟩
  · rw [move.log_eq]
    exact drew.cons event
  · rw [move.log_eq]
    exact mem_cons_of_mem event used
  rcases owed with ended | owes
  · exact .inl (ended.step move traced careful.1)
  by_cases mine : event.process = replayer
  · subst mine
    exact .inl (Ended.of_revokes move traced careful used drew owes)
  · rw [ticketOf_of_ne move mine]
    exact .inr owes

end

/-- A redeemed code was redeemed with the family that its request drew. -/
theorem Traced.redeems (traced : Traced before) (move : Step (engine.world crypto) before
      ⟨process, .inr (.authCode (.consumeAuthCode code familyID moment)), answer⟩ after) :
    Traced after ∧ Drew before.log process familyID ∧
      ticketOf after.log process = .redeemed familyID answer ∧
      Books.Serves crypto (books before.store)
        (.authCode (.consumeAuthCode code familyID moment)) answer (books after.store) := by
  obtain ⟨drawn, ticket⟩ := read_redeemed (traced.obeys.step move).2
  have fresh : FreshDraw before
      ⟨process, .inr (.authCode (.consumeAuthCode code familyID moment)), answer⟩ := by
    intro name shown
    cases shown
  exact ⟨traced.step move fresh, traced.drew process familyID drawn, ticket,
    world_serves move.happens trivial⟩

/-- In every interleaving of token requests on either backend in which no family is revoked too
early, once a redeemed code was presented again and that request is answered, the family of the
redemption has no live token any more. -/
theorem code_replay_ends_family_of_redemption (config : TokenConfig) (engine : Engine)
    (start : engine.State) (requests : Nat → TokenRequest) (coherent : (books start).Coherent)
    {reached first again second answered later : engine.Requests} {process replayer : Nat}
    {code familyID other : String} {moment replayed : Time} {authCode : AuthCode}
    {answer : Except StoreError AuthCode} {result : Except TokenError TokenOutput}
    (run : Reaches (engine.world config.crypto) Careful (engine.tokens config start requests)
      reached)
    (redeem : Step (engine.world config.crypto) reached
      ⟨process, .inr (.authCode (.consumeAuthCode code familyID moment)), .ok authCode⟩ first)
    (onward : Reaches (engine.world config.crypto) Careful first again)
    (replay : Step (engine.world config.crypto) again
      ⟨replayer, .inr (.authCode (.consumeAuthCode code other replayed)), answer⟩ second)
    (toAnswer : Reaches (engine.world config.crypto) Careful second answered)
    (done : answered.processes replayer = .done result)
    (toLater : Reaches (engine.world config.crypto) Careful answered later) :
    FamilyDead (books later.store).tokens.rows familyID := by
  have tracedReached : Traced reached := by
    refine run.invariant Traced (.initial config requests coherent) ?_
    intro before event after _ traced careful move
    exact traced.step move careful.1
  obtain ⟨tracedFirst, drew, -, serves⟩ := tracedReached.redeems redeem
  obtain ⟨tracedAgain, redeemed, drewAgain, used⟩ : Traced again ∧
      (books again.store).Redeemed config.crypto code familyID ∧
      Drew again.log process familyID ∧
      ⟨process, .inr (.authCode (.consumeAuthCode code familyID moment)), .ok authCode⟩ ∈
        again.log := by
    refine onward.invariant (fun current => Traced current ∧
      (books current.store).Redeemed config.crypto code familyID ∧
      Drew current.log process familyID ∧
      ⟨process, .inr (.authCode (.consumeAuthCode code familyID moment)), .ok authCode⟩ ∈
        current.log) ⟨tracedFirst, serves.redeemed, ?_, ?_⟩ ?_
    · rw [redeem.log_eq]
      exact drew.cons _
    · rw [redeem.log_eq]
      exact mem_cons_self
    · rintro before event after _ ⟨traced, redeemed, drawn, logged⟩ careful move
      refine ⟨traced.step move careful.1, ?_, ?_, ?_⟩
      · rcases traced.obeys.serves move with ⟨-, -, -, same⟩ | ⟨_, _, -, serves⟩
        · rw [same]
          exact redeemed
        · exact redeemed.serves serves
      · rw [move.log_eq]
        exact drawn.cons event
      · rw [move.log_eq]
        exact mem_cons_of_mem event logged
  obtain ⟨tracedSecond, -, ticket, servesAgain⟩ := tracedAgain.redeems replay
  obtain ⟨tombstone, rfl, family⟩ := redeemed.rejects servesAgain
  have owes : ticketOf second.log replayer = .owes familyID := by
    have named := tracedAgain.named process familyID drewAgain
    rw [ticket]
    change (if tombstone.familyID = "" then past else .owes tombstone.familyID) = _
    rw [family, if_neg named]
  have pursued : Pursued replayer process familyID second := by
    refine ⟨tracedSecond, ?_, ⟨code, moment, authCode, ?_⟩, .inr owes⟩
    · rw [replay.log_eq]
      exact drewAgain.cons _
    · rw [replay.log_eq]
      exact mem_cons_of_mem _ used
  have atAnswer : Pursued replayer process familyID answered :=
    toAnswer.invariant (Pursued replayer process familyID) pursued
      fun _ _ _ _ holds careful move => holds.step move careful
  have ended := atAnswer.owed.resolve_right (atAnswer.traced.obeys.paid done familyID)
  obtain ⟨tracedLater, endedLater⟩ : Traced later ∧ Ended familyID later := by
    refine toLater.invariant (fun current => Traced current ∧ Ended familyID current)
      ⟨atAnswer.traced, ended⟩ ?_
    rintro before event after _ ⟨traced, holds⟩ careful move
    exact ⟨traced.step move careful.1, holds.step move traced careful.1⟩
  exact endedLater.dead tracedLater

end Traced

/-- The replay is answered while the redemption has consumed the code and not saved its token.
It finds no family to revoke, and the redemption then saves a live token. -/
theorem code_replay_misses_unsaved_family : Reaches (sqlite.world plainCrypto) anyStep
        (sqlite.tokens sampleConfig sampleSignIn sampleRedemption)
        (sampleTurns sampleSignIn sampleRedemption [0, 0]) ∧
      Step (sqlite.world plainCrypto) (sampleTurns sampleSignIn sampleRedemption [0, 0])
        ⟨0, .inr (.authCode (.consumeAuthCode "code" "family" 5)),
          .ok { sampleAuthCode with familyID := "family" }⟩
        (sampleTurns sampleSignIn sampleRedemption [0, 0, 0]) ∧
      Reaches (sqlite.world plainCrypto) anyStep
        (sampleTurns sampleSignIn sampleRedemption [0, 0, 0])
        (sampleTurns sampleSignIn sampleRedemption [0, 0, 0, 1, 1]) ∧
      Step (sqlite.world plainCrypto) (sampleTurns sampleSignIn sampleRedemption [0, 0, 0, 1, 1])
        ⟨1, .inr (.authCode (.consumeAuthCode "code" "unused" 5)),
          .error (.authCodeReused { sampleAuthCode with
            familyID := "family", scope := "", nonce := "" })⟩
        (sampleTurns sampleSignIn sampleRedemption [0, 0, 0, 1, 1, 1]) ∧
      Reaches (sqlite.world plainCrypto) anyStep
        (sampleTurns sampleSignIn sampleRedemption [0, 0, 0, 1, 1, 1])
        (sampleTurns sampleSignIn sampleRedemption [0, 0, 0, 1, 1, 1, 1]) ∧
      (sampleTurns sampleSignIn sampleRedemption [0, 0, 0, 1, 1, 1, 1]).processes 1 =
        .done (.error (.store "oidc: revoke refresh token family" (.sessionNotFound "family"))) ∧
      Reaches (sqlite.world plainCrypto) anyStep
        (sampleTurns sampleSignIn sampleRedemption [0, 0, 0, 1, 1, 1, 1])
        (sampleTurns sampleSignIn sampleRedemption [0, 0, 0, 1, 1, 1, 1, 0, 0, 0, 0, 0, 0, 0]) ∧
      ¬ FamilyDead (books (sampleTurns sampleSignIn sampleRedemption
        [0, 0, 0, 1, 1, 1, 1, 0, 0, 0, 0, 0, 0, 0]).store).tokens.rows "family" := by
  have runs := @reaches_turns plainCrypto .sqlite sampleAnswers
  exact ⟨runs _ [0, 0], step_turn plainCrypto sampleAnswers _ 0 rfl, runs _ [1, 1],
    step_turn plainCrypto sampleAnswers _ 1 rfl, runs _ [1], rfl, runs _ [0, 0, 0, 0, 0, 0, 0],
    by decide⟩

/-- Some request drew the family. -/
def drawn (familyID : String) : Bool :=
  log.any fun event => match observeActs event.effect event.answer with
    | .drew name => name = familyID
    | _ => false

theorem Drew.drawn {log : List (Event calls)}
    (drew : Drew log process familyID) : drawn log familyID = true := by
  obtain ⟨event, member, -, shown⟩ := drew
  exact any_eq_true.mpr ⟨event, member, by rw [shown]; exact decide_eq_true rfl⟩

/-- A new name is a fresh draw. -/
theorem Careful.draw {engine : Engine} {before : engine.Requests} {event : Event calls}
    (shown : observeActs event.effect event.answer = .drew familyID)
    (named : familyID ≠ "") (isUnknown : (books before.store).known familyID = false)
    (undrawn : drawn before.log familyID = false) : Careful before event := by
  constructor
  · intro name same
    obtain rfl := Act.drew.inj (shown.symm.trans same)
    refine ⟨named, isUnknown, fun process drew => ?_⟩
    rw [drew.drawn] at undrawn
    cases undrawn
  · rintro ⟨name, moment, performed, -⟩
    obtain ⟨process, effect, answer⟩ := event
    obtain rfl : effect = _ := performed
    cases shown

/-- Only draws and revocations can be careless. -/
theorem Careful.quiet {engine : Engine} {before : engine.Requests} {event : Event calls}
    (undrawn : ∀ familyID, observeActs event.effect event.answer ≠ .drew familyID)
    (unrevoked : ∀ familyID, observeActs event.effect event.answer ≠ .revoked familyID) :
    Careful before event := by
  refine ⟨fun familyID shown => absurd shown (undrawn familyID), ?_⟩
  rintro ⟨familyID, moment, performed, -⟩
  obtain ⟨process, effect, answer⟩ := event
  obtain rfl : effect = _ := performed
  exact unrevoked familyID rfl

section Sample

/-- The sample redemption draws a fresh family before it consumes the code. -/
theorem sampleRedemption_draws : (sqlite.tokens sampleConfig sampleSignIn
    sampleRedemption).Lawful (sqlite.world plainCrypto) Careful
      (sqlite.executor plainCrypto sampleAnswers) [0, 0] := by
  have follows := executor_follows plainCrypto .sqlite sampleAnswers
  exact ⟨⟨Careful.draw rfl (by decide) rfl rfl, follows _ _ _ _⟩,
    ⟨.quiet nofun nofun, follows _ _ _ _⟩, trivial⟩

/-- The sample redemption goes on to save its token and to answer. -/
theorem sampleRedemption_saves : (sampleTurns sampleSignIn sampleRedemption [0, 0, 0]).Lawful
    (sqlite.world plainCrypto) Careful
      (sqlite.executor plainCrypto sampleAnswers) [0, 0, 0, 0, 0, 0, 0] := by
  have follows := executor_follows plainCrypto .sqlite sampleAnswers
  exact ⟨⟨.quiet nofun nofun, follows _ _ _ _⟩, ⟨.quiet nofun nofun, follows _ _ _ _⟩,
    ⟨.quiet nofun nofun, follows _ _ _ _⟩, ⟨.quiet nofun nofun, follows _ _ _ _⟩,
    ⟨.quiet nofun nofun, follows _ _ _ _⟩, ⟨.quiet nofun nofun, follows _ _ _ _⟩,
    ⟨.quiet nofun nofun, follows _ _ _ _⟩, trivial⟩

/-- The replay draws another family. -/
theorem sampleReplay_draws : (sampleTurns sampleSignIn sampleRedemption
    [0, 0, 0, 0, 0, 0, 0, 0, 0, 0]).Lawful (sqlite.world plainCrypto) Careful
      (sqlite.executor plainCrypto sampleAnswers) [1, 1] := by
  have follows := executor_follows plainCrypto .sqlite sampleAnswers
  exact ⟨⟨Careful.draw rfl (by decide) rfl rfl, follows _ _ _ _⟩,
    ⟨.quiet nofun nofun, follows _ _ _ _⟩, trivial⟩

/-- The replay revokes a family that is stored. -/
theorem sampleReplay_revokes : (sampleTurns sampleSignIn sampleRedemption
    [0, 0, 0, 0, 0, 0, 0, 0, 0, 0, 1, 1, 1]).Lawful (sqlite.world plainCrypto) Careful
      (sqlite.executor plainCrypto sampleAnswers) [1] := by
  have follows := executor_follows plainCrypto .sqlite sampleAnswers
  refine ⟨⟨⟨nofun, ?_⟩, follows _ _ _ _⟩, trivial⟩
  rintro ⟨familyID, moment, performed, isUnknown, -⟩
  cases performed
  cases isUnknown

/-- A redemption that is answered before the code is replayed loses its family to the replay. -/
theorem code_replay_ends_family_of_redemption_sample :
    (sampleTurns sampleSignIn sampleRedemption [0, 0, 0, 0, 0, 0, 0, 0, 0, 0]).processes 0 =
      .done (.ok ⟨"no-store", "no-cache", "access", "Bearer", 0, "child", "id"⟩) ∧
    FamilyDead (books (sampleTurns sampleSignIn sampleRedemption
      [0, 0, 0, 0, 0, 0, 0, 0, 0, 0, 1, 1, 1, 1]).store).tokens.rows "family" := by
  have redeem : Step (sqlite.world plainCrypto) (sampleTurns sampleSignIn sampleRedemption [0, 0])
      ⟨0, .inr (.authCode (.consumeAuthCode "code" "family" 5)),
        .ok { sampleAuthCode with familyID := "family" }⟩
      (sampleTurns sampleSignIn sampleRedemption [0, 0, 0]) :=
    step_turn plainCrypto sampleAnswers _ 0 rfl
  have replay : Step (sqlite.world plainCrypto)
      (sampleTurns sampleSignIn sampleRedemption [0, 0, 0, 0, 0, 0, 0, 0, 0, 0, 1, 1])
      ⟨1, .inr (.authCode (.consumeAuthCode "code" "unused" 5)), _⟩
      (sampleTurns sampleSignIn sampleRedemption [0, 0, 0, 0, 0, 0, 0, 0, 0, 0, 1, 1, 1]) :=
    step_turn plainCrypto sampleAnswers _ 1 rfl
  have saved := sampleRedemption_saves.reaches
  constructor
  · rfl
  · exact code_replay_ends_family_of_redemption sampleConfig .sqlite sampleSignIn
      sampleRedemption ⟨by decide, by decide⟩ sampleRedemption_draws.reaches redeem
      (saved.trans sampleReplay_draws.reaches) replay sampleReplay_revokes.reaches rfl .refl

end Sample

end Tempogate.Engine
