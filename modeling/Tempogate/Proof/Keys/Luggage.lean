/-
This file follows the keypairs that each task carries between the store and the memory.
-/

import Tempogate.Construction.Keys.Mint
import Tempogate.Foundation.Protocol
import Tempogate.Proof.Keys.Signing

namespace Tempogate.Keys

open Foundation Oidc

variable {stored : List Keypair} {keypair : Keypair} {lifetime : Time}

/-- These are the steps that carry keypairs between the store, the memory and a task. -/
inductive Transfer
  | loaded (keypairs : List Keypair)
  | saved (keypair : Keypair)
  | clock (moment : Time)
  | read (keypairs : List Keypair)
  | installs (keypairs : List Keypair)
  | nothing

def observeTransfers : Observer keyCalls Transfer
  | .loadKeypairs, .ok keypairs => .loaded keypairs
  | .saveKeypair keypair, .ok _ => .saved keypair
  | .now, moment => .clock moment
  | .all _, keypairs => .read keypairs
  | .swap _ keypairs, _ => .installs keypairs
  | _, _ => .nothing

/-- A task carries the rows it knows of, its first clock reading and the set that it read last
after that. -/
structure Luggage where
  known : List Keypair
  stamp : Option Time
  seen : Option (Time × List Keypair)

def Luggage.advance (luggage : Luggage) : Transfer → Luggage
  | .loaded keypairs => { luggage with known := keypairs }
  | .saved keypair => { luggage with known := { keypair with retiredAt := none } :: luggage.known }
  | .clock moment => { luggage with stamp := some (luggage.stamp.getD moment) }
  | .read keypairs => { luggage with seen := luggage.stamp.map fun stamp => (stamp, keypairs) }
  | _ => luggage

/-- Every keypair has the kid and the retirement of a known one. -/
def Sourced (known keypairs : List Keypair) : Prop :=
  ∀ keypair ∈ keypairs, ∃ source ∈ known,
    source.kid = keypair.kid ∧ source.retiredAt = keypair.retiredAt

/-- A task installs only what it knows of. -/
def luggageProtocol : Protocol Transfer Luggage where
  assumes _ _ := True
  permits luggage transfer := ∀ keypairs, transfer = .installs keypairs →
    Sourced luggage.known keypairs
  advance := Luggage.advance

section Sourced

variable {known keypairs : List Keypair}

theorem Sourced.refl (keypairs : List Keypair) : Sourced keypairs keypairs :=
  fun keypair member => ⟨keypair, member, rfl, rfl⟩

theorem Sourced.cons {source : Keypair} (sameKid : source.kid = keypair.kid)
    (sameStamp : source.retiredAt = keypair.retiredAt) (rest : Sourced known keypairs) :
    Sourced (source :: known) (keypair :: keypairs) := by
  refine List.forall_mem_cons.mpr ⟨⟨source, .head _, sameKid, sameStamp⟩, fun other member => ?_⟩
  obtain ⟨origin, present, same⟩ := rest other member
  exact ⟨origin, .tail _ present, same⟩

theorem Sourced.sort (sourced : Sourced known keypairs) :
    Sourced known (sortByCreatedAt keypairs) :=
  fun keypair member => sourced keypair (mem_sortByCreatedAt.mp member)

/-- Opening the private keys changes nothing else. -/
theorem openEach_sourced (cipher : Option AEAD)
    (opened : openEach cipher stored = .ok keypairs) : Sourced stored keypairs := by
  induction stored generalizing keypairs with
  | nil =>
    cases opened
    exact .refl []
  | cons keypair rest ih =>
    unfold openEach at opened
    split at opened
    · cases tail : openEach cipher rest with
      | error error =>
        rw [tail] at opened
        cases opened
      | ok remaining =>
        rw [tail] at opened
        cases opened
        exact (ih tail).cons rfl rfl
    · split at opened
      · cases opened
      next cipher =>
        split at opened
        · cases opened
        · cases tail : openEach (some cipher) rest with
          | error error =>
            rw [tail] at opened
            cases opened
          | ok remaining =>
            rw [tail] at opened
            cases opened
            exact (ih tail).cons rfl rfl

theorem openStored_sourced {keys : Keys}
    (opened : keys.openStored stored = .ok keypairs) : Sourced stored keypairs := by
  unfold openStored at opened
  split at opened
  · cases opened
  next cipher _ => exact openEach_sourced cipher opened

end Sourced

section Operations

variable {luggage : Luggage}

variable {Result : Type} (program : Operation Result)

/-- A program that neither loads nor saves nor installs keeps what the task knows. -/
def KeepsKnown : Prop :=
  ∀ luggage, program.Meets luggageProtocol observeTransfers
    (fun after _ => after.known = luggage.known) luggage

/-- A task keeps to what it knows whatever it knew before. -/
def Honest : Prop :=
  ∀ luggage, program.Meets luggageProtocol observeTransfers (fun _ _ => True) luggage

theorem KeepsKnown.bind {Result Middle : Type} {program : Operation Middle}
    {continuation : Middle → Operation Result} (first : KeepsKnown program)
    (rest : ∀ result, KeepsKnown (continuation result)) : KeepsKnown (program >>= continuation) :=
  fun luggage => (first luggage).bind fun after result same =>
    (rest result after).mono fun _ _ kept => kept.trans same

theorem KeepsKnown.honest {program : Operation Result} (keeps : KeepsKnown program)
    : Honest program :=
  fun luggage => (keeps luggage).mono fun _ _ _ => trivial

theorem Honest.bind {Result Middle : Type} {program : Operation Middle}
    {continuation : Middle → Operation Result} (first : Honest program)
    (rest : ∀ result, Honest (continuation result)) : Honest (program >>= continuation) :=
  fun luggage => (first luggage).bind fun after result _ => rest result after

theorem keepsKnown_done (result : Result) : KeepsKnown (Program.done result : Operation Result) :=
  fun _ => rfl

theorem honest_done (result : Result) : Honest (Program.done result : Operation Result) :=
  fun _ => trivial

theorem keepsKnown_now : KeepsKnown now := fun _ _ _ => ⟨nofun, rfl⟩

theorem keepsKnown_all (keys : Keys) : KeepsKnown keys.all := fun _ _ _ => ⟨nofun, rfl⟩

/-- A task knows what it loaded last. -/
theorem loadKeypairs_knows (luggage : Luggage) : loadKeypairs.Meets luggageProtocol observeTransfers
      (fun after answer => ∀ stored, answer = .ok stored → after.known = stored) luggage := by
  refine fun answer _ => ?_
  cases answer with
  | error cause => exact ⟨nofun, nofun⟩
  | ok stored =>
    refine ⟨nofun, ?_⟩
    rintro loaded ⟨rfl⟩
    rfl

section

variable (keys : Keys)

/-- What the task knows may be installed in any order. -/
theorem swap_honest {keypairs : List Keypair} (sourced : Sourced luggage.known keypairs) :
    (keys.swap keypairs).Meets luggageProtocol observeTransfers (fun _ _ => True) luggage := by
  refine fun _ _ => ⟨?_, trivial⟩
  rintro installed ⟨rfl⟩
  exact sourced.sort

theorem reload_honest : Honest keys.reload := by
  refine fun luggage => (loadKeypairs_knows luggage).bind fun loaded answer known => ?_
  cases answer with
  | error cause => trivial
  | ok stored =>
    dsimp only
    cases opened : keys.openStored stored with
    | error error => trivial
    | ok keypairs =>
      have sourced : Sourced loaded.known keypairs :=
        known stored rfl ▸ openStored_sourced opened
      exact (swap_honest keys sourced).bind fun _ _ _ => trivial

theorem latest_keepsKnown : KeepsKnown keys.latest := by
  refine (keepsKnown_all keys).bind fun keypairs => keepsKnown_now.bind fun moment => ?_
  split <;> exact keepsKnown_done _

theorem generateKeypair_keepsKnown (luggage : Luggage) :
    keys.generateKeypair.Meets luggageProtocol observeTransfers
      (fun after result => after.known = luggage.known ∧
        ∀ keypair, result = .ok keypair → keypair.retiredAt = none) luggage := by
  unfold Keys.generateKeypair
  split
  · exact ⟨rfl, nofun⟩
  · refine fun generated _ => ⟨nofun, ?_⟩
    cases generated with
    | error cause => exact ⟨rfl, nofun⟩
    | ok key =>
      refine fun moment _ => ⟨nofun, rfl, ?_⟩
      rintro keypair ⟨rfl⟩
      rfl

/-- Sealing a keypair keeps its kid. -/
theorem sealForStore_keepsKnown (keypair : Keypair) (luggage : Luggage) :
    (keys.sealForStore keypair).Meets luggageProtocol observeTransfers
      (fun after result => after.known = luggage.known ∧
        ∀ toStore, result = .ok toStore → toStore.kid = keypair.kid) luggage := by
  unfold Keys.sealForStore
  split
  · exact ⟨rfl, nofun⟩
  · refine ⟨rfl, ?_⟩
    rintro toStore ⟨rfl⟩
    rfl
  · refine fun nonce _ => ⟨nofun, ?_⟩
    cases nonce with
    | error cause => exact ⟨rfl, nofun⟩
    | ok nonce =>
      refine ⟨rfl, ?_⟩
      rintro toStore ⟨rfl⟩
      rfl

/-- A saved keypair is known. -/
theorem save_knows (active : keypair.retiredAt = none) {existing : List Keypair}
    (sourced : Sourced luggage.known existing) :
    (keys.save keypair).Meets luggageProtocol observeTransfers
      (fun after result => result = .ok () → Sourced after.known (keypair :: existing))
      luggage := by
  refine (sealForStore_keepsKnown keys keypair luggage).bind fun sealed result kept => ?_
  obtain ⟨known, sameKid⟩ := kept
  cases result with
  | error error => exact nofun
  | ok toStore =>
    refine fun answer _ => ?_
    cases answer with
    | error error =>
      refine ⟨nofun, ?_⟩
      cases error <;> exact nofun
    | ok _ =>
      refine ⟨nofun, fun _ => ?_⟩
      exact Sourced.cons (sameKid toStore rfl) active.symm (known ▸ sourced)

/-- Making a keypair keeps to what the task knows. -/
theorem generate_honest (force : Bool) : Honest (keys.generate force) := by
  refine fun luggage => (loadKeypairs_knows luggage).bind fun loaded answer known => ?_
  cases answer with
  | error cause => trivial
  | ok stored =>
    dsimp only
    split
    · trivial
    · split
      · trivial
      next existing opened =>
        refine (generateKeypair_keepsKnown keys loaded).bind fun made result kept => ?_
        obtain ⟨same, active⟩ := kept
        cases result with
        | error error => trivial
        | ok keypair =>
          have sourced : Sourced made.known existing :=
            (same.trans (known stored rfl)) ▸ openStored_sourced opened
          refine (save_knows keys (active keypair rfl) sourced).bind fun after saved knows => ?_
          cases saved with
          | error error => trivial
          | ok _ =>
            have both : Sourced after.known (existing ++ [keypair]) := by
              intro other member
              refine knows rfl other (List.mem_cons.mpr ?_)
              rwa [List.mem_append, List.mem_singleton, or_comm] at member
            exact (swap_honest keys both).bind fun _ _ _ => trivial

variable (kid : String)

theorem checkReplacementPublished_honest : Honest (keys.checkReplacementPublished kid) := by
  refine (reload_honest keys).bind fun result => ?_
  cases result with
  | error error => exact honest_done _
  | ok _ =>
    refine (keepsKnown_all keys).honest.bind fun keypairs => keepsKnown_now.honest.bind
      fun moment => ?_
    split
    · exact honest_done _
    · split
      · exact honest_done _
      · refine keepsKnown_now.honest.bind fun second => ?_
        split
        · exact honest_done _
        · refine keepsKnown_now.honest.bind fun third => ?_
          split <;> exact honest_done _

theorem retireChecked_honest : Honest (keys.retireChecked kid) := by
  refine keepsKnown_now.honest.bind fun moment luggage answer _ => ⟨nofun, ?_⟩
  cases answer with
  | error error => trivial
  | ok stored =>
    refine (reload_honest keys).bind (fun result => ?_) _
    cases result with
    | error error => exact honest_done _
    | ok _ =>
      refine (keepsKnown_all keys).honest.bind fun keypairs => ?_
      split <;> exact honest_done _

theorem retire_honest (force : Bool) : Honest (keys.retire kid force) := by
  cases force with
  | true => exact retireChecked_honest keys kid
  | false =>
    refine (checkReplacementPublished_honest keys kid).bind fun result => ?_
    cases result with
    | error error => exact honest_done _
    | ok _ => exact retireChecked_honest keys kid

theorem keyTask_honest (task : KeyTask) : Honest (task.program keys) := by
  cases task with
  | latest => exact (latest_keepsKnown keys).honest.bind fun _ => honest_done _
  | reload => exact (reload_honest keys).bind fun _ => honest_done _
  | generate force => exact (generate_honest keys force).bind fun _ => honest_done _
  | retire kid force => exact (retire_honest keys kid force).bind fun _ => honest_done _

end

/-- A minted token names an active keypair of the set that its task read after it had stamped the
claims. -/
def Vouched (lifetime : Time) (luggage : Luggage) : RotationOutcome → Prop
  | .minted signer (.ok token) => ∃ request jti stamp keypairs,
      luggage.seen = some (stamp, keypairs) ∧ request.ttl ≤ lifetime ∧
        ∃ keypair ∈ keypairs, keypair.active ∧ token = signer.token request jti stamp keypair.kid
  | _ => True

/-- The signer is an active keypair of the set that the rule read. -/
theorem sign_reads (signer : Signer) {stamp : Time} (stamped : luggage.stamp = some stamp) :
    signer.sign.Meets luggageProtocol observeTransfers
      (fun after result => ∀ kid, result = .ok kid → ∃ keypairs,
        after.seen = some (stamp, keypairs) ∧
          ∃ keypair ∈ keypairs, keypair.active ∧ keypair.kid = kid) luggage := by
  refine fun keypairs _ => ⟨nofun, fun moment _ => ⟨nofun, ?_⟩⟩
  dsimp only [Program.bind]
  cases found : signing keypairs moment signer.keys.publishDelay with
  | none => exact nofun
  | some keypair =>
    dsimp only [pure, Program.bind]
    split
    · exact nofun
    · rintro kid ⟨rfl⟩
      obtain ⟨member, active⟩ := signing_mem found
      refine ⟨keypairs, ?_, keypair, member, active, rfl⟩
      change luggage.stamp.map _ = _
      rw [stamped]
      rfl

/-- A minted token names a keypair of the set that was read. -/
theorem mint_vouched (signer : Signer) {request : MintRequest} (jti : Except String String)
    (brief : request.ttl ≤ lifetime) (fresh : luggage.stamp = none) :
    ((RotationTask.mint request jti).program signer).Meets luggageProtocol observeTransfers
      (Vouched lifetime) luggage := by
  cases jti with
  | error cause => trivial
  | ok jti =>
    have minted : (signer.mint request (.ok jti)).Meets luggageProtocol observeTransfers
        (fun after result => Vouched lifetime after (.minted signer result)) luggage := by
      refine fun (issuedAt : Time) _ => ⟨nofun, ?_⟩
      have stamped : (luggage.advance (.clock issuedAt)).stamp = some issuedAt := by
        rw [Luggage.advance, fresh]
        rfl
      refine (sign_reads signer stamped).bind fun after result reads => ?_
      cases result with
      | error error => trivial
      | ok kid =>
        obtain ⟨keypairs, seen, keypair, member, active, rfl⟩ := reads kid rfl
        exact ⟨request, jti, issuedAt, keypairs, seen, brief, keypair, member, active, rfl⟩
    exact minted.bind fun after result vouched => vouched

/-- Every task carries only what it read, and its token is vouched for. -/
theorem rotationTask_vouched (signer : Signer) (task : RotationTask)
    (brief : ∀ request jti, task = .mint request jti → request.ttl ≤ lifetime)
    (fresh : luggage.stamp = none) :
    (task.program signer).Meets luggageProtocol observeTransfers (Vouched lifetime) luggage := by
  cases task with
  | mint request jti => exact mint_vouched signer jti (brief request jti rfl) fresh
  | operation task =>
    exact (keyTask_honest signer.keys task luggage).bind fun _ _ _ => trivial

end Operations

end Tempogate.Keys
