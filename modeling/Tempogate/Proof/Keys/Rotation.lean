/-
This file shows how long the tokens of interleaved processes stay verifiable across a rotation.
-/

import Mathlib.Tactic.Linarith
import Tempogate.Proof.Keys.Luggage

namespace Tempogate.Keys

open Foundation Oidc Keypair Luggage Function

variable {signer : Signer} {request : MintRequest} {keypair : Keypair} {expiration issuedAt : Time}
  {jti : String}

/-- The times at which each task last read the store and at which the set that each process holds
was read from it. -/
structure Ages where
  clock : Time
  read : Nat → Time
  held : Nat → Time

def Ages.note (ages : Ages) : Event keyCalls → Ages
  | ⟨_, .now, moment⟩ => { ages with clock := moment }
  | ⟨process, .loadKeypairs, .ok _⟩ =>
    { ages with read := update ages.read process ages.clock }
  | ⟨process, .swap replica _, _⟩ =>
    { ages with held := update ages.held replica (ages.read process) }
  | _ => ages

def Ages.of (start : Time) (log : List (Event keyCalls)) : Ages :=
  log.foldr (fun event ages => ages.note event) ⟨start, fun _ => start, fun _ => start⟩

/-- Whoever reads the set of a process finds one that was read from the store within the
interval. -/
def Reloaded (start interval : Time) (before : Rotation) (event : Event keyCalls) : Prop :=
  ∀ replica, event.effect = .all replica →
    before.store.clock ≤ (Ages.of start before.log).held replica + interval

/-- A retirement is stored within the delay after it read the clock. -/
def Prompt (delay : Time) (before : Rotation) (event : Event keyCalls) : Prop :=
  ∀ kid moment, event.effect = .retireKeypair kid moment → before.store.clock ≤ moment + delay

/-- Every process has read its set from the store. -/
def KeyState.Loaded (state : KeyState) : Prop :=
  ∀ replica, ∀ keypair ∈ state.memory replica, ∃ row ∈ state.stored.rows,
    row.kid = keypair.kid ∧ row.retiredAt = keypair.retiredAt

open Ages

variable {process : Nat}

section Invariant

variable {backend : Backend} {delay interval : Time} {before after : KeyState} {call : KeyCall}
  {answer : call.Answer} {since : Time} {keypair row : Keypair}

/-- A stored row stays as it is, or it is active and is retired now. -/
theorem Happens.keeps_row {ticks : Time → Time → Prop}
    (happens : Happens backend ticks before call answer after) (member : row ∈ before.stored.rows) :
    row ∈ after.stored.rows ∨ row.active ∧ ∃ kid moment, call = .retireKeypair kid moment ∧
      row.retire moment ∈ after.stored.rows := by
  cases happens with
  | saved => exact .inl (Keypairs.rows_saveKeypair _ member)
  | @retired kid moment =>
    have rows := @Backend.rows_retireKeypair before.stored kid moment backend
    cases selected : Sqlite.retirable before.stored kid row with
    | true =>
      refine .inr ⟨(retirable_iff.mp selected).2.1, kid, moment, rfl, ?_⟩
      rw [rows]
      exact List.mem_map.mpr ⟨row, member, if_pos selected⟩
    | false =>
      refine .inl ?_
      change row ∈ (backend.retireKeypair kid moment before.stored).2.rows
      rw [rows]
      exact List.mem_map.mpr ⟨row, member, by rw [selected]; rfl⟩
  | _ => exact .inl member

theorem Happens.clock_le (happens : Happens backend (· ≤ ·) before call answer after) :
    before.clock ≤ after.clock := by
  cases happens with
  | now later => exact later
  | _ => exact le_refl _

/-- The keypair is what the store held at the given time or later. Its row has the same retirement
or one that is no more than the delay before that time. -/
structure Stamped (delay : Time) (state : KeyState) (since : Time) (keypair : Keypair) : Prop where
  early : since ≤ state.clock
  stored : ∃ row ∈ state.stored.rows, row.kid = keypair.kid ∧ (row.retiredAt = keypair.retiredAt ∨
      keypair.active ∧ ∃ moment, row.retiredAt = some moment ∧ since ≤ moment + delay)

theorem Keypair.active_iff : keypair.active ↔ keypair.retiredAt = none := by
  simp [active, retired]

/-- A keypair with the same kid and retirement is as old. -/
theorem Stamped.of_source {source : Keypair} (stamped : Stamped delay before since source)
    (sameKid : source.kid = keypair.kid) (sameStamp : source.retiredAt = keypair.retiredAt) :
    Stamped delay before since keypair := by
  obtain ⟨early, row, member, kid, state⟩ := stamped
  refine ⟨early, row, member, kid.trans sameKid, ?_⟩
  rwa [← sameStamp, active_iff, ← sameStamp, ← active_iff]

theorem Stamped.weaken {earlier : Time} (stamped : Stamped delay before since keypair)
    (sooner : earlier ≤ since) : Stamped delay before earlier keypair := by
  obtain ⟨early, row, member, kid, state⟩ := stamped
  refine ⟨sooner.trans early, row, member, kid, state.imp_right ?_⟩
  rintro ⟨active, moment, retired, late⟩
  exact ⟨active, moment, retired, sooner.trans late⟩

/-- A row that is stored now is as new as the clock. -/
theorem Stamped.of_row (member : row ∈ before.stored.rows) (early : since ≤ before.clock) :
    Stamped delay before since row :=
  ⟨early, row, member, rfl, .inl rfl⟩

/-- A step with a prompt retirement keeps the stamps. -/
theorem Stamped.step (stamped : Stamped delay before since keypair)
    (happens : Happens backend (· ≤ ·) before call answer after)
    (prompt : ∀ kid moment, call = .retireKeypair kid moment → before.clock ≤ moment + delay) :
    Stamped delay after since keypair := by
  obtain ⟨early, row, member, kid, state⟩ := stamped
  refine ⟨early.trans happens.clock_le, ?_⟩
  rcases happens.keeps_row member with kept | ⟨active, target, moment, rfl, retired⟩
  · exact ⟨row, kept, kid, state⟩
  · refine ⟨row.retire moment, retired, kid, .inr ?_⟩
    have unretired := active_iff.mp active
    rcases state with same | ⟨-, earlier, wasRetired, -⟩
    · exact ⟨active_iff.mpr (same.symm.trans unretired), moment, rfl,
        early.trans (prompt target moment rfl)⟩
    · rw [unretired] at wasRetired
      cases wasRetired

variable {ages : Ages} {luggage : Luggage}

section

variable (happens : Happens backend (· ≤ ·) before call answer after)
  (same : ages.clock = before.clock)

include happens same

/-- The clock of the ages is the one of the store. -/
theorem Ages.clock_note : (ages.note ⟨process, call, answer⟩).clock = after.clock := by
  cases happens with
  | now later => rfl
  | _ => exact same

/-- No task has read the store ahead of the clock. -/
theorem Ages.read_note (reads : ∀ process, ages.read process ≤ before.clock) (other : Nat) :
    (ages.note ⟨process, call, answer⟩).read other ≤ after.clock := by
  cases happens with
  | now later => exact (reads other).trans later
  | loaded =>
    change update ages.read process ages.clock other ≤ before.clock
    by_cases mine : other = process
    · rw [mine, update_self]
      exact le_of_eq same
    · rw [update_of_ne mine]
      exact reads other
  | _ => exact reads other

end

/-- A step changes the age of no other task. -/
theorem Ages.read_note_of_ne {event : Event keyCalls} {other : Nat}
    (different : event.process ≠ other) : (ages.note event).read other = ages.read other := by
  obtain ⟨process, effect, answer⟩ := event
  cases effect with
  | loadKeypairs =>
    cases answer with
    | error cause => rfl
    | ok stored => exact update_of_ne (Ne.symm different) _ _
  | _ => rfl

variable (happens : Happens backend (· ≤ ·) before call answer after)

include happens

section

variable (prompt : ∀ kid moment, call = .retireKeypair kid moment → before.clock ≤ moment + delay)

include prompt

/-- A load is as new as the clock, and a saved keypair is stored. -/
theorem Luggage.known_advance
    (same : ages.clock = before.clock) (reads : ages.read process ≤ before.clock)
    (known : ∀ keypair ∈ luggage.known, Stamped delay before (ages.read process) keypair) :
    ∀ keypair ∈ (luggage.advance (observeTransfers call answer)).known,
      Stamped delay after ((ages.note ⟨process, call, answer⟩).read process) keypair := by
  have kept := fun keypair member => (known keypair member).step happens prompt
  cases happens with
  | loaded =>
    intro keypair member
    change Stamped delay before (update ages.read process ages.clock process) keypair
    rw [update_self]
    exact .of_row (mem_sortByCreatedAt.mp member) (le_of_eq same)
  | @saved saved =>
    unfold Keypairs.saveKeypair at kept ⊢
    cases inserted : before.stored.insert { saved with retiredAt := none } with
    | none =>
      rw [inserted] at kept
      exact kept
    | some table =>
      rw [inserted] at kept
      refine List.forall_mem_cons.mpr ⟨.of_row ?_ reads, kept⟩
      rw [(Table.rows_insert inserted).1]
      exact List.mem_append_right _ (.head _)
  | _ => exact kept

/-- An installed set is as new as what its task knows. -/
theorem Ages.memory_note
    (permitted : luggageProtocol.permits luggage (observeTransfers call answer))
    (known : ∀ keypair ∈ luggage.known, Stamped delay before (ages.read process) keypair)
    (memory : ∀ replica, ∀ keypair ∈ before.memory replica,
      Stamped delay before (ages.held replica) keypair) :
    ∀ replica, ∀ keypair ∈ after.memory replica,
      Stamped delay after ((ages.note ⟨process, call, answer⟩).held replica) keypair := by
  have kept := fun replica keypair member => (memory replica keypair member).step happens prompt
  have carried := fun keypair member => (known keypair member).step happens prompt
  cases happens with
  | @swap target keypairs =>
    intro replica keypair member
    change Stamped delay _ (update ages.held target (ages.read process) replica) keypair
    by_cases mine : target = replica
    · subst mine
      rw [KeyState.memory_install] at member
      rw [update_self]
      obtain ⟨source, present, sameKid, sameStamp⟩ := permitted keypairs rfl keypair member
      exact (carried source present).of_source sameKid sameStamp
    · rw [KeyState.memory_install_of_ne _ _ mine] at member
      rw [update_of_ne (Ne.symm mine)]
      exact kept replica keypair member
  | _ => exact kept

end

/-- The first clock reading of a task is not ahead of the clock. -/
theorem Luggage.stamp_advance
    (stamps : ∀ stamp, luggage.stamp = some stamp → stamp ≤ before.clock) :
    ∀ stamp, (luggage.advance (observeTransfers call answer)).stamp = some stamp →
      stamp ≤ after.clock := by
  have kept := fun stamp known => (stamps stamp known).trans happens.clock_le
  cases happens with
  | @now moment later =>
    rintro stamp ⟨rfl⟩
    cases known : luggage.stamp with
    | none => exact le_refl _
    | some first => exact kept first known
  | saved =>
    change ∀ stamp, (luggage.advance (observeTransfers (.saveKeypair _) _)).stamp = _ → _
    cases (before.stored.saveKeypair _).1 <;> exact kept
  | _ => exact kept

/-- A set that a task reads is at most the interval older than the stamp of its claims. -/
theorem Luggage.seen_advance
    (prompt : ∀ kid moment, call = .retireKeypair kid moment → before.clock ≤ moment + delay)
    (reloaded : ∀ replica, call = .all replica → before.clock ≤ ages.held replica + interval)
    (memory : ∀ replica, ∀ keypair ∈ before.memory replica,
      Stamped delay before (ages.held replica) keypair)
    (stamps : ∀ stamp, luggage.stamp = some stamp → stamp ≤ before.clock)
    (seen : ∀ stamp keypairs, luggage.seen = some (stamp, keypairs) →
      ∀ keypair ∈ keypairs, Stamped delay before (stamp - interval) keypair) :
    ∀ stamp keypairs,
      (luggage.advance (observeTransfers call answer)).seen = some (stamp, keypairs) →
      ∀ keypair ∈ keypairs, Stamped delay after (stamp - interval) keypair := by
  have kept := fun stamp keypairs known keypair member =>
    (seen stamp keypairs known keypair member).step happens prompt
  cases happens with
  | @all replica =>
    intro stamp keypairs known keypair member
    obtain ⟨first, isFirst, same⟩ := Option.map_eq_some_iff.mp known
    obtain ⟨rfl, rfl⟩ := Prod.mk.inj same
    refine (memory replica keypair member).weaken ?_
    exact Int.sub_right_le_of_le_add ((stamps first isFirst).trans (reloaded replica rfl))
  | saved =>
    change ∀ stamp keypairs, (luggage.advance (observeTransfers (.saveKeypair _) _)).seen = _ → _
    cases (before.stored.saveKeypair _).1 <;> exact kept
  | _ => exact kept

end Invariant

section Run

variable {backend : Backend} {delay interval start : Time} {before after : Rotation}
  {event : Event keyCalls}

variable (log : List (Event keyCalls))

def luggageOf (process : Nat) : Luggage :=
  luggageProtocol.ghost observeTransfers (fun _ => ⟨[], none, none⟩) log process

theorem luggageOf_self : luggageOf (event :: log) event.process =
      (luggageOf log event.process).advance (observeTransfers event.effect event.answer) :=
  Protocol.ghost_self _ _ _ _ _

theorem luggageOf_of_ne (other : event.process ≠ process) :
    luggageOf (event :: log) process = luggageOf log process :=
  Protocol.ghost_of_ne _ _ _ _ other

/-- Whatever a process or a task holds is as new as its age says. -/
structure Accounted (delay interval start : Time) (current : Rotation) : Prop where
  clock : (of start current.log).clock = current.store.clock
  reads : ∀ process, (of start current.log).read process ≤ current.store.clock
  memory : ∀ replica, ∀ keypair ∈ current.store.memory replica,
    Stamped delay current.store ((of start current.log).held replica) keypair
  known : ∀ process, ∀ keypair ∈ (luggageOf current.log process).known,
    Stamped delay current.store ((of start current.log).read process) keypair
  stamps : ∀ process stamp, (luggageOf current.log process).stamp = some stamp →
    stamp ≤ current.store.clock
  seen : ∀ process stamp keypairs, (luggageOf current.log process).seen = some (stamp, keypairs) →
    ∀ keypair ∈ keypairs, Stamped delay current.store (stamp - interval) keypair

/-- The store of a run starts with what every process loaded. -/
theorem Accounted.initial {state : KeyState} (loaded : state.Loaded)
    (tasks : Nat → Signer × RotationTask) :
    Accounted delay interval state.clock (rotation state tasks) where
  clock := rfl
  reads _ := le_refl _
  memory replica keypair member := by
    obtain ⟨row, stored, sameKid, sameStamp⟩ := loaded replica keypair member
    exact (Stamped.of_row stored (le_refl _)).of_source sameKid sameStamp
  known _ := nofun
  stamps _ := nofun
  seen _ := nofun

/-- A step that reads a reloaded set or retires promptly keeps the accounts. -/
theorem Accounted.step (accounted : Accounted delay interval start before)
    (reloaded : Reloaded start interval before event) (prompt : Prompt delay before event)
    (move : Step (world backend (· ≤ ·)) before event after)
    (permitted : luggageProtocol.permits (luggageOf before.log event.process)
      (observeTransfers event.effect event.answer)) : Accounted delay interval start after := by
  have happens : Happens backend (· ≤ ·) before.store event.effect event.answer after.store :=
    move.happens
  have ages : of start after.log = (of start before.log).note event := by
    rw [move.log_eq]
    rfl
  obtain ⟨clock, reads, memory, known, stamps, seen⟩ := accounted
  refine ⟨?_, ?_, ?_, fun process => ?_, fun process => ?_, fun process => ?_⟩
  · rw [ages]
    exact clock_note happens clock
  · rw [ages]
    exact read_note happens clock reads
  · rw [ages]
    exact memory_note happens prompt permitted (known event.process) memory
  all_goals
    rw [move.log_eq]
    by_cases mine : event.process = process
  · subst mine
    rw [luggageOf_self]
    exact known_advance happens prompt clock (reads event.process) (known event.process)
  · rw [luggageOf_of_ne _ mine, ← move.log_eq, ages, read_note_of_ne mine]
    exact fun keypair member => (known process keypair member).step happens prompt
  · subst mine
    rw [luggageOf_self]
    exact stamp_advance happens (stamps event.process)
  · rw [luggageOf_of_ne _ mine]
    exact fun stamp known => (stamps process stamp known).trans happens.clock_le
  · subst mine
    rw [luggageOf_self]
    exact seen_advance happens prompt reloaded memory (stamps event.process)
      (seen event.process)
  · rw [luggageOf_of_ne _ mine]
    exact fun stamp keypairs known keypair member =>
      (seen process stamp keypairs known keypair member).step happens prompt

end Run

section Verify

variable {grace moment : Time} {keypairs : List Keypair} {keypair : Keypair}

/-- A keypair is published while it is active or inside its grace. -/
theorem mem_published : keypair ∈ published grace moment keypairs ↔ keypair ∈ keypairs ∧
    ∀ retiredAt, keypair.retiredAt = some retiredAt → moment < retiredAt + grace := by
  cases state : keypair.retiredAt <;> simp [published, retired, state]

/-- No expiration lies after the lifetime of its token. -/
theorem Signer.expiration_le {kid : String}
    (expires : (signer.token request jti issuedAt kid).expiration = some expiration) :
    expiration ≤ issuedAt + request.ttl := by
  unfold Signer.token mintedToken at expires
  split at expires
  · cases expires
    exact Int.ediv_mul_le _ (by decide)
  · cases expires

/-- The verifier accepts a current token of its signer while its keypair is published. -/
theorem Signer.parse_token {parser : Parser} (member : keypair ∈ keypairs)
    (current : (signer.token request jti issuedAt keypair.kid).current moment) :
    (signer.verifier parser).parse (signedBy keypairs) moment
      (signer.token request jti issuedAt keypair.kid) := by
  have signed : signedBy keypairs (signer.token request jti issuedAt keypair.kid) := by
    rw [signedBy, List.any_eq_true]
    exact ⟨keypair, member, decide_eq_true rfl⟩
  have claimed : ∀ value : String, value = "" ∨ claimOf value = some value := by
    intro value
    by_cases empty : value = ""
    · exact .inl empty
    · exact .inr (if_neg empty)
  exact parser.takes_valid signed current (claimed signer.issuer) (claimed signer.audience)

end Verify

/-- In every run in which each set that is used was read within the interval and each retirement
is stored within the delay after its clock reading, a grace that covers the lifetime, the
interval and the delay keeps every minted token verifiable until it expires. -/
theorem token_verifies_until_expiration (backend : Backend)
    {grace lifetime interval delay : Time} (covers : lifetime + interval + delay ≤ grace)
    (start : KeyState) (loaded : start.Loaded) (tasks : Nat → Signer × RotationTask)
    (brief : ∀ process request jti, (tasks process).2 = .mint request jti → request.ttl ≤ lifetime)
    {current : Rotation}
    (run : Reaches (world backend (· ≤ ·))
      (fun before event => Reloaded start.clock interval before event ∧ Prompt delay before event)
      (rotation start tasks) current)
    {process : Nat} {signer : Signer} {token : AccessToken}
    (minted : current.processes process = .done (.minted signer (.ok token)))
    {expiration : Time} (expires : token.expiration = some expiration)
    {replica : Nat} {keypair : Keypair} (holds : keypair ∈ current.store.memory replica)
    (signs : keypair.kid = token.kid) {moment : Time} (early : moment < expiration) :
    keypair ∈ published grace moment (current.store.memory replica) ∧
      ∀ parser, token.issuedAt ≤ moment → (signer.verifier parser).parse
        (signedBy (published grace moment (current.store.memory replica))) moment token := by
  have follows : (rotation start tasks).Follows luggageProtocol observeTransfers
      (Vouched lifetime) fun _ => ⟨[], none, none⟩ :=
    fun process => rotationTask_vouched _ _ (brief process) rfl
  obtain ⟨accounted, followed⟩ := run.follows (Accounted delay interval start.clock)
    (.initial loaded tasks) follows fun before event after accounted _ allowed move =>
      ⟨trivial, fun permitted => accounted.step allowed.1 allowed.2 move permitted⟩
  have vouched := followed process
  rw [minted] at vouched
  obtain ⟨request, jti, stamp, keypairs, seen, short, chosen, member, active, rfl⟩ := vouched
  obtain ⟨-, row, stored, sameKid, state⟩ :=
    accounted.seen process stamp keypairs seen chosen member
  obtain ⟨-, other, otherStored, otherKid, otherState⟩ := accounted.memory replica keypair holds
  have same : other = row := current.store.stored.eq_of_key_eq otherStored stored
    (otherKid.trans (signs.trans sameKid.symm))
  have isPublished : keypair ∈ published grace moment (current.store.memory replica) := by
    refine mem_published.mpr ⟨holds, fun retiredAt retired => ?_⟩
    have rowRetired : row.retiredAt = some retiredAt := by
      rcases otherState with agrees | ⟨isActive, -⟩
      · rw [← same, agrees, retired]
      · rw [active_iff, retired] at isActive
        cases isActive
    -- The signer was active when its set was read, so it was retired about then or later.
    have late : stamp - interval ≤ retiredAt + delay := by
      rcases state with agrees | ⟨-, when_, wasRetired, bound⟩
      · rw [rowRetired, active_iff.mp active] at agrees
        cases agrees
      · rw [rowRetired] at wasRetired
        cases wasRetired
        exact bound
    have bounded := Signer.expiration_le expires
    linarith only [early, bounded, short, late, covers]
  refine ⟨isPublished, fun parser issued => ?_⟩
  have current : (signer.token request jti stamp chosen.kid).current moment := by
    rw [AccessToken.current, expires]
    simp only [Bool.and_eq_true, decide_eq_true_iff]
    exact ⟨⟨early, issued⟩, issued⟩
  have named : chosen.kid = keypair.kid := signs.symm
  rw [named] at current ⊢
  exact Signer.parse_token isPublished current

section Sample

/-- The server is process zero and the command line is process one. -/
def sampleSigner (replica : Nat) : Signer where
  keys := { sampleKeys 0 with replica := replica }
  issuer := "https://tempogate.example"
  audience := "temporal"
  parseKey _ := .ok ()

def sampleRequest : MintRequest where
  subject := "user@example.com"
  permissions := ["default:read"]
  ttl := 100 * second
  email := ""
  idp := ""
  clientID := ""

/-- One keypair is stored and both processes have loaded it. -/
def sampleRotating : KeyState where
  stored := ⟨[⟨1, sampleKeypair "old" (-second)⟩], by decide, by decide⟩
  memory _ := [sampleKeypair "old" (-second)]
  clock := 0

/-- The command line rotates the keypair while the server mints, reloads and mints again. -/
def sampleRotations : Nat → Signer × RotationTask
  | 0 => (sampleSigner 1, .operation (.generate true))
  | 1 => (sampleSigner 1, .operation (.retire "old" false))
  | 2 => (sampleSigner 0, .mint sampleRequest (.ok "jti"))
  | 3 => (sampleSigner 0, .operation .reload)
  | _ => (sampleSigner 0, .operation .latest)

/-- The server mints at fifty seconds and signs again at a hundred. -/
def sampleClock : KeyScript where
  now _ process := if process = 2 then 50 * second else if process = 4 then 100 * second else 0
  generateRSA _ := .ok ⟨"new", "", ""⟩
  readNonce _ := .ok (.replicate _ 0)

def sampleRotated (order : List Nat) : Rotation :=
  (rotation sampleRotating sampleRotations).turns (executor .sqlite sampleClock) order

/-- The tasks run one after another. -/
def rotationOrder : List Nat :=
  [0, 0, 0, 0, 0, 1, 1, 1, 1, 1, 1, 1, 1, 1, 2, 2, 2, 3, 3, 4, 4]

/-- The server has reloaded within sixty seconds and the retirement is stored at once. -/
theorem sampleRotated_lawful :
    (rotation sampleRotating sampleRotations).Lawful (world .sqlite (· ≤ ·))
      (fun before event => Reloaded 0 (60 * second) before event ∧ Prompt 0 before event)
      (executor .sqlite sampleClock) rotationOrder := by
  have still : (0 : Time) ≤ 0 := le_refl 0
  have minting : (0 : Time) ≤ 50 * second := by decide
  have signing : 50 * second ≤ 100 * second := by decide
  refine ⟨⟨⟨nofun, nofun⟩, .loaded⟩, ⟨⟨nofun, nofun⟩, .generateRSA⟩,
    ⟨⟨nofun, nofun⟩, .now still⟩, ⟨⟨nofun, nofun⟩, .saved⟩, ⟨⟨nofun, nofun⟩, .swap⟩,
    ⟨⟨nofun, nofun⟩, .loaded⟩, ⟨⟨nofun, nofun⟩, .swap⟩, ⟨⟨?_, nofun⟩, .all⟩,
    ⟨⟨nofun, nofun⟩, .now still⟩, ⟨⟨nofun, nofun⟩, .now still⟩,
    ⟨⟨nofun, ?_⟩, .retired⟩, ⟨⟨nofun, nofun⟩, .loaded⟩, ⟨⟨nofun, nofun⟩, .swap⟩,
    ⟨⟨?_, nofun⟩, .all⟩, ⟨⟨nofun, nofun⟩, .now minting⟩, ⟨⟨?_, nofun⟩, .all⟩,
    ⟨⟨nofun, nofun⟩, .now (le_refl (50 * second))⟩, ⟨⟨nofun, nofun⟩, .loaded⟩,
    ⟨⟨nofun, nofun⟩, .swap⟩, ⟨⟨?_, nofun⟩, .all⟩, ⟨⟨nofun, nofun⟩, .now signing⟩, trivial⟩
  · rintro replica ⟨rfl⟩
    decide
  · rintro kid moment ⟨rfl⟩
    decide
  all_goals
    rintro replica ⟨rfl⟩
    decide

/-- The token that the server signs with the old keypair after its retirement. -/
def sampleMinted : AccessToken :=
  (sampleSigner 0).token sampleRequest "jti" (50 * second) "old"

def sampleRetired : Keypair := (sampleKeypair "old" (-second)).retire 0

/-- A grace as long as the lifetime ends before the token that a stale process minted expires. -/
theorem grace_ends_before_expiration : sampleRequest.ttl ≤ 100 * second ∧ sampleRotating.Loaded ∧
    Reaches (world .sqlite (· ≤ ·))
      (fun before event => Reloaded 0 (60 * second) before event ∧ Prompt 0 before event)
      (rotation sampleRotating sampleRotations) (sampleRotated rotationOrder) ∧
    (sampleRotated rotationOrder).processes 2 =
      .done (.minted (sampleSigner 0) (.ok sampleMinted)) ∧
    (sampleRotated rotationOrder).store.clock = 100 * second ∧
    sampleMinted.expiration = some (150 * second) ∧
    sampleRetired ∈ (sampleRotated rotationOrder).store.memory 0 ∧
    sampleRetired.kid = sampleMinted.kid ∧
    sampleRetired ∉ published (100 * second) (100 * second)
      ((sampleRotated rotationOrder).store.memory 0) ∧
    ¬ ((sampleSigner 0).verifier .strict).parse (signedBy (published (100 * second) (100 * second)
      ((sampleRotated rotationOrder).store.memory 0))) (100 * second) sampleMinted := by
  refine ⟨by decide, ?_, sampleRotated_lawful.reaches, rfl, by decide, by decide, by decide, rfl,
    by decide, by decide⟩
  intro replica keypair member
  exact ⟨keypair, member, rfl, rfl⟩

/-- A grace that also covers the interval keeps that token verifiable. -/
theorem token_verifies_within_longer_grace : sampleRetired ∈ published (160 * second) (100 * second)
        ((sampleRotated rotationOrder).store.memory 0) ∧
      ∀ parser, sampleMinted.issuedAt ≤ 100 * second →
        ((sampleSigner 0).verifier parser).parse (signedBy (published (160 * second) (100 * second)
          ((sampleRotated rotationOrder).store.memory 0))) (100 * second) sampleMinted := by
  have brief : ∀ process request jti, (sampleRotations process).2 = .mint request jti →
      request.ttl ≤ 100 * second := by
    intro process request jti same
    match process with
    | 2 =>
      cases same
      decide
    | 0 | 1 | 3 | _ + 4 => cases same
  have covers : 100 * second + 60 * second + 0 ≤ 160 * second := by decide
  have minted : (sampleRotated rotationOrder).processes 2 =
      .done (.minted (sampleSigner 0) (.ok sampleMinted)) := rfl
  have expires : sampleMinted.expiration = some (150 * second) := by decide
  have holds : sampleRetired ∈ (sampleRotated rotationOrder).store.memory 0 := by decide
  have early : 100 * second < 150 * second := by decide
  refine token_verifies_until_expiration .sqlite covers sampleRotating ?_ sampleRotations brief
    sampleRotated_lawful.reaches minted expires holds rfl early
  intro replica keypair member
  exact ⟨keypair, member, rfl, rfl⟩

end Sample

end Tempogate.Keys
