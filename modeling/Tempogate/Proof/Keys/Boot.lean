/-
This file shows which steps a replica takes when it boots under the bootstrap lock.
-/

import Mathlib.Data.List.Forall2
import Tempogate.Foundation.Protocol
import Tempogate.Proof.Keys.Signing

namespace Tempogate.Keys

open Foundation Oidc

variable {keypair row : Keypair} {opened keypairs stored : List Keypair}
  {process second first : Nat} {Result : Type}

section Opens

/-- The stored row opens to this keypair. -/
inductive Opens (keys : Keys) (row : Keypair) : Keypair → Prop
  | plain (clear : isEncrypted row.privatePEM = false) : Opens keys row row
  | opened {aead : AEAD} {pem : String} (known : keys.cipher = .ok (some aead))
      (encrypted : isEncrypted row.privatePEM = true) (opens : aead.openPEM row = .ok pem) :
      Opens keys row { row with privatePEM := pem }

/-- These are the properties of the AEADs of the processes. What is sealed opens again, and what
opens for two processes opens to the same text. -/
structure Sealing (keys : Nat → Keys) : Prop where
  opens : ∀ {process aead nonce plaintext additional}, (keys process).cipher = .ok (some aead) →
    aead.openText nonce (aead.sealText nonce plaintext additional) additional = some plaintext
  agrees : ∀ {first second aead other nonce ciphertext additional text otherText},
    (keys first).cipher = .ok (some aead) → (keys second).cipher = .ok (some other) →
    aead.openText nonce ciphertext additional = some text →
    other.openText nonce ciphertext additional = some otherText → text = otherText

variable {processes : Nat → Keys} {aead other : AEAD}

theorem isEncrypted_sealPEM {nonce : Vector UInt8 nonceSize} {kid privatePEM : String} :
    isEncrypted (aead.sealPEM nonce kid privatePEM) = true := by
  rw [isEncrypted, List.isPrefixOf_iff_prefix, AEAD.sealPEM, String.toList_append]
  exact List.prefix_append ..

theorem Sealing.openPEM_sealPEM (sealing : Sealing processes)
    (known : (processes process).cipher = .ok (some aead)) (nonce : Vector UInt8 nonceSize) :
    aead.openPEM { keypair with
        privatePEM := aead.sealPEM nonce keypair.kid keypair.privatePEM } =
      .ok keypair.privatePEM := by
  have length : nonce.toList.length = nonceSize := by simp
  simp [AEAD.openPEM, AEAD.sealPEM, String.toList_append, Base64.Encoding.decode_encode,
    Option.filter_some, List.take_left' length, List.drop_left' length, sealing.opens known]

theorem Sealing.openPEM_agree (sealing : Sealing processes)
    (known : (processes first).cipher = .ok (some aead))
    (otherKnown : (processes second).cipher = .ok (some other)) {pem otherPEM : String}
    (opens : aead.openPEM keypair = .ok pem) (otherOpens : other.openPEM keypair = .ok otherPEM) :
    pem = otherPEM := by
  unfold AEAD.openPEM at opens otherOpens
  split at opens
  · cases opens
  next raw decoded =>
    simp only [decoded] at otherOpens
    split at opens
    · cases opens
    · split at otherOpens
      · cases otherOpens
      next found _ _ otherFound =>
        cases opens
        cases otherOpens
        exact sealing.agrees known otherKnown found otherFound

variable {keys : Keys}

theorem map_cons_ok {first : Keypair} {rest : Except KeyError (List Keypair)}
    (mapped : rest.map (first :: ·) = .ok opened) :
    ∃ others, rest = .ok others ∧ first :: others = opened := by
  cases rest with
  | error error => cases mapped
  | ok others =>
    cases mapped
    exact ⟨others, rfl, rfl⟩

/-- Each keypair of the list is opened. -/
theorem openEach_opens {cipher : Option AEAD} (known : keys.cipher = .ok cipher)
    (accepted : openEach cipher stored = .ok opened) :
    List.Forall₂ (Opens keys) stored opened := by
  induction stored generalizing opened with
  | nil =>
    cases accepted
    exact .nil
  | cons row rest ih =>
    unfold openEach at accepted
    cases encrypted : isEncrypted row.privatePEM with
    | false =>
      simp only [encrypted, Bool.not_false, if_true] at accepted
      obtain ⟨others, found, rfl⟩ := map_cons_ok accepted
      exact .cons (.plain encrypted) (ih found)
    | true =>
      simp only [encrypted, Bool.not_true, Bool.false_eq_true, if_false] at accepted
      cases cipher with
      | none => cases accepted
      | some aead =>
        cases opens : aead.openPEM row with
        | error error =>
          simp only [opens] at accepted
          cases accepted
        | ok pem =>
          simp only [opens] at accepted
          obtain ⟨others, found, rfl⟩ := map_cons_ok accepted
          exact .cons (.opened known encrypted opens) (ih found)

theorem openStored_opens (accepted : keys.openStored stored = .ok opened) :
    List.Forall₂ (Opens keys) stored opened := by
  unfold openStored at accepted
  cases known : keys.cipher with
  | error error =>
    rw [known] at accepted
    cases accepted
  | ok cipher =>
    rw [known] at accepted
    exact openEach_opens known accepted

/-- Opening changes the private key only. -/
theorem Opens.eq (opens : Opens keys row keypair) :
    keypair = { row with privatePEM := keypair.privatePEM } := by
  cases opens with
  | plain => rfl
  | opened => rfl

theorem Opens.agree (sealing : Sealing processes)
    {keypair other : Keypair} (opens : Opens (processes first) row keypair)
    (otherOpens : Opens (processes second) row other) : keypair = other := by
  cases opens with
  | plain clear =>
    cases otherOpens with
    | plain => rfl
    | opened _ encrypted _ =>
      rw [clear] at encrypted
      cases encrypted
  | opened known encrypted found =>
    cases otherOpens with
    | plain clear =>
      rw [clear] at encrypted
      cases encrypted
    | opened otherKnown _ otherFound => rw [sealing.openPEM_agree known otherKnown found otherFound]

end Opens

section Protocol

/-- These are the steps of a boot that matter for the keys. -/
inductive Act
  | acquire (held : Bool)
  | commit
  | load (answer : Except String (List Keypair))
  | generate (answer : Except String RSAKey)
  | save (keypair : Keypair) (answer : Except KeyError Unit)
  | swap (replica : Nat) (keypairs : List Keypair)
  | pass
  | foreign

def observeLock : Observer lockCalls Act
  | .acquire, .ok () => .acquire true
  | .acquire, .error _ => .acquire false
  | .commit, _ => .commit

def observeKey : Observer keyCalls Act
  | .now, _ => .pass
  | .generateRSA, answer => .generate answer
  | .readNonce, _ => .pass
  | .loadKeypairs, answer => .load answer
  | .saveKeypair keypair, answer => .save keypair answer
  | .retireKeypair _ _, _ => .foreign
  | .swap replica keypairs, _ => .swap replica keypairs
  | .all _, _ => .foreign

def observe : Observer bootCalls Act
  | .inl call, answer => observeLock call answer
  | .inr call, answer => observeKey call answer

/-- A process stands outside the lock or inside it. Inside, it may have loaded the stored keypairs,
saved its own, or taken them into its memory. It is ready when it has left the lock after that. -/
inductive Stage
  | outside
  | inside
  | loaded (stored : List Keypair)
  | saved (stored : List Keypair) (keypair : Keypair)
  | swapped
  | ready

namespace Stage

def Locked : Stage → Prop
  | inside | loaded _ | saved _ _ | swapped => True
  | outside | ready => False

/-- The process has the keypairs in its memory. -/
def Holding : Stage → Prop
  | swapped | ready => True
  | outside | inside | loaded _ | saved _ _ => False

/-- A save that fails leaves open what is stored. -/
def next : Stage → Act → Stage
  | outside, .acquire true => inside
  | inside, .load (.ok stored) => loaded stored
  | loaded stored, .save keypair (.ok ()) => saved stored keypair
  | loaded _, .save _ (.error _) => inside
  | loaded _, .swap _ _ => swapped
  | saved _ _, .swap _ _ => swapped
  | swapped, .commit => ready
  | inside, .commit => outside
  | loaded _, .commit => outside
  | saved _ _, .commit => outside
  | stage, _ => stage

/-- A process saves a keypair of its own only after it has loaded no active one. It takes into its
memory what it has loaded and saved. -/
def Permits (keys : Keys) : Stage → Act → Prop
  | outside, .acquire _ => True
  | inside, .load _ => True
  | loaded stored, .generate _ => ∀ row ∈ stored, row.retired = true
  | loaded stored, .save keypair _ =>
    keypair.retiredAt = none ∧ ∀ row ∈ stored, row.retired = true
  | loaded stored, .swap replica keypairs =>
    replica = keys.replica ∧ (∃ row ∈ stored, row.active = true) ∧
      ∃ opened, List.Forall₂ (Opens keys) stored opened ∧
        keypairs = sortByCreatedAt (sortByCreatedAt opened)
  | saved stored keypair, .swap replica keypairs =>
    replica = keys.replica ∧ ∃ opened own, List.Forall₂ (Opens keys) stored opened ∧
      Opens keys keypair own ∧
      keypairs = sortByCreatedAt (sortByCreatedAt opened ++ [own])
  | stage, .commit => stage.Locked
  | _, .pass => True
  | _, _ => False

end Stage

/-- The generated private keys are not written like encrypted ones. -/
def Act.Plain : Act → Prop
  | .generate (.ok key) => isEncrypted key.privatePEM = false
  | _ => True

structure Booting where
  keys : Keys
  stage : Stage

def booting : Protocol Act Booting where
  assumes _ act := act.Plain
  permits process act := process.stage.Permits process.keys act
  advance process act := { process with stage := process.stage.next act }

end Protocol

section Program

variable {keys : Keys} {stored : List Keypair}

/-- Operations on the keys keep to the protocol. -/
def Keeps {Result : Type} (post : Stage → Result → Prop) (operation : Operation Result)
    (keys : Keys) (stage : Stage) : Prop :=
  operation.Meets booting observeKey (fun process result => process.keys = keys ∧
    post process.stage result) ⟨keys, stage⟩

theorem Keeps.bind {Middle : Type} {middle : Stage → Middle → Prop} {post : Stage → Result → Prop}
    {operation : Operation Middle} {continuation : Middle → Operation Result} {stage : Stage}
    (first : Keeps middle operation keys stage)
    (rest : ∀ after result, middle after result → Keeps post (continuation result) keys after) :
    Keeps post (operation >>= continuation) keys stage := by
  refine Program.Meets.bind first ?_
  rintro ⟨own, after⟩ result ⟨same, holds⟩
  subst same
  exact rest after result holds

theorem Keeps.pure {post : Stage → Result → Prop} {result : Result}
    {stage : Stage} (holds : post stage result) : Keeps post (.done result) keys stage :=
  ⟨rfl, holds⟩

/-- A permitted call moves the process on by its answer. -/
theorem Keeps.call {call : KeyCall} {stage : Stage}
    (permitted : ∀ answer : call.Answer, stage.Permits keys (observeKey call answer)) :
    Keeps (fun after answer => after = stage.next (observeKey call answer) ∧
      (observeKey call answer).Plain) (step call) keys stage :=
  fun answer plain => ⟨permitted answer, rfl, rfl, plain⟩

theorem now_keeps (stage : Stage) :
    Keeps (fun after (_ : Time) => after = stage) now keys stage := by
  refine fun answer _ => ⟨?_, rfl, ?_⟩
  · cases stage <;> trivial
  · cases stage <;> rfl

theorem generateKeypair_keeps (retired : ∀ row ∈ stored, row.retired = true) :
    Keeps (fun after result => after = .loaded stored ∧ ∀ keypair, result = .ok keypair →
      keypair.retiredAt = none ∧ isEncrypted keypair.privatePEM = false)
      keys.generateKeypair keys (.loaded stored) := by
  unfold generateKeypair
  split
  · exact .pure ⟨rfl, nofun⟩
  · refine .bind (@Keeps.call keys .generateRSA _ fun _ => retired) ?_
    rintro after (cause | key) ⟨rfl, plain⟩
    · exact .pure ⟨rfl, nofun⟩
    · refine .bind (now_keeps _) ?_
      rintro after moment rfl
      refine .pure ⟨rfl, fun keypair same => ?_⟩
      cases same
      exact ⟨rfl, plain⟩

variable {processes : Nat → Keys}

section

variable {process : Nat} (sealing : Sealing processes)
  (mine : (processes process).cipher = keys.cipher) (active : keypair.retiredAt = none)
  (clear : isEncrypted keypair.privatePEM = false)

include sealing mine active clear

/-- Sealing and opening again gives the keypair back. -/
theorem sealForStore_keeps :
    Keeps (fun after result => after = .loaded stored ∧ ∀ toStore, result = .ok toStore →
      toStore.retiredAt = none ∧ Opens keys toStore keypair)
      (keys.sealForStore keypair) keys (.loaded stored) := by
  unfold sealForStore
  cases known : keys.cipher with
  | error error => exact .pure ⟨rfl, nofun⟩
  | ok cipher =>
    cases cipher with
    | none =>
      refine .pure ⟨rfl, fun toStore same => ?_⟩
      cases same
      exact ⟨active, .plain clear⟩
    | some aead =>
      refine .bind (@Keeps.call keys .readNonce _ fun _ => trivial) ?_
      rintro after (cause | nonce) ⟨rfl, -⟩
      · exact .pure ⟨rfl, nofun⟩
      · refine .pure ⟨rfl, fun toStore same => ?_⟩
        cases same
        exact ⟨active, .opened known isEncrypted_sealPEM
          (sealing.openPEM_sealPEM (mine.trans known) nonce)⟩

theorem save_keeps (retired : ∀ row ∈ stored, row.retired = true) :
    Keeps (fun after result => (after = .loaded stored ∨ after = .inside) ∧ result ≠ .ok () ∨
        ∃ toStore, after = .saved stored toStore ∧ Opens keys toStore keypair)
      (keys.save keypair) keys (.loaded stored) := by
  refine .bind (sealForStore_keeps sealing mine active clear) ?_
  rintro after (error | toStore) ⟨rfl, sealed⟩
  · exact .pure (.inl ⟨.inl rfl, nofun⟩)
  · obtain ⟨stamp, opens⟩ := sealed toStore rfl
    refine .bind (@Keeps.call keys (.saveKeypair toStore) _ fun _ => ⟨stamp, retired⟩) ?_
    rintro after answer ⟨rfl, -⟩
    cases answer with
    | error error =>
      cases error <;>
        exact .pure (.inl ⟨.inr rfl, nofun⟩)
    | ok done => exact .pure (.inr ⟨toStore, rfl, opens⟩)

end

/-- A keypair is retired when its stored row is. -/
theorem any_active_of_opens (opens : List.Forall₂ (Opens keys) stored opened) :
    opened.any Keypair.active = stored.any Keypair.active := by
  induction opens with
  | nil => rfl
  | cons first rest ih =>
    rw [List.any_cons, List.any_cons, ih, first.eq]
    rfl

theorem any_active_eq_false :
    keypairs.any Keypair.active = false ↔ ∀ keypair ∈ keypairs, keypair.retired = true := by
  rw [List.any_eq_false]
  refine forall_congr' fun keypair => imp_congr_right fun _ => ?_
  rw [Keypair.active, Bool.not_eq_true', Bool.not_eq_false]

theorem any_active_eq_true :
    keypairs.any Keypair.active = true ↔ ∃ keypair ∈ keypairs, keypair.active = true :=
  List.any_eq_true

/-- A boot that succeeds has taken its keypairs into its memory. -/
theorem init_keeps (sealing : Sealing processes) (mine : (processes process).cipher = keys.cipher) :
    Keeps (fun after result => after.Locked ∧ (result = .ok () → after = .swapped)) keys.init keys
      .inside := by
  refine .bind (@Keeps.call keys .loadKeypairs _ fun _ => trivial) ?_
  rintro after (cause | stored) ⟨rfl, -⟩
  · exact .pure ⟨trivial, nofun⟩
  · dsimp only
    cases accepted : keys.openStored stored with
    | error error => exact .pure ⟨trivial, nofun⟩
    | ok opened =>
      have opens := openStored_opens accepted
      refine .bind (now_keeps _) ?_
      rintro after moment rfl
      change Keeps _ _ keys (.loaded stored)
      cases signer : signing (sortByCreatedAt opened) moment keys.publishDelay with
      | some keypair =>
        have active : ∃ row ∈ stored, row.active = true := by
          obtain ⟨member, active⟩ := signing_mem signer
          rw [← any_active_eq_true, ← any_active_of_opens opens, any_active_eq_true]
          exact ⟨keypair, mem_sortByCreatedAt.mp member, active⟩
        refine .bind (@Keeps.call keys (.swap keys.replica _) _ fun _ =>
          ⟨rfl, active, opened, opens, rfl⟩) ?_
        rintro after answer ⟨rfl, -⟩
        exact .pure ⟨trivial, fun _ => rfl⟩
      | none =>
        have retired : ∀ row ∈ stored, row.retired = true := by
          rw [← any_active_eq_false, ← any_active_of_opens opens, any_active_eq_false]
          intro keypair member
          exact signing_none signer keypair (mem_sortByCreatedAt.mpr member)
        refine .bind (generateKeypair_keeps retired) ?_
        rintro after (error | keypair) ⟨rfl, fresh⟩
        · exact .pure ⟨trivial, nofun⟩
        · obtain ⟨stamp, clear⟩ := fresh keypair rfl
          refine .bind (save_keeps sealing mine stamp clear retired) ?_
          rintro after (error | done) (⟨rfl | rfl, failed⟩ | ⟨toStore, rfl, own⟩)
          · exact .pure ⟨trivial, nofun⟩
          · exact .pure ⟨trivial, nofun⟩
          · exact .pure ⟨trivial, nofun⟩
          · exact absurd rfl failed
          · exact absurd rfl failed
          · refine .bind (@Keeps.call keys (.swap keys.replica _) _ fun _ =>
              ⟨rfl, opened, keypair, opens, own, rfl⟩) ?_
            rintro after answer ⟨rfl, -⟩
            exact .pure ⟨trivial, fun _ => rfl⟩

/-- A process that has booted is ready. -/
theorem initLocked_meets {processes : Nat → Keys} (sealing : Sealing processes)
    (mine : (processes process).cipher = keys.cipher) :
    keys.initLocked.Meets booting observe (fun after result => result = .ok () →
      after.stage = .ready) ⟨keys, .outside⟩ := by
  refine fun locked _ => ⟨by cases locked <;> trivial, ?_⟩
  cases locked with
  | error cause => exact nofun
  | ok done =>
    have body : (keys.init.second : Boot (Except KeyError Unit)).Meets booting observe
        (fun after result => after.keys = keys ∧ after.stage.Locked ∧
          (result = .ok () → after.stage = .swapped)) ⟨keys, .inside⟩ :=
      (Program.meets_second _ _).mpr (init_keeps sealing mine)
    change ((keys.init.second : Boot (Except KeyError Unit)) >>= _).Meets booting observe _
      ⟨keys, .inside⟩
    refine Program.Meets.bind body ?_
    rintro ⟨own, after⟩ result ⟨same, inside, swapped⟩
    change own = keys at same
    subst same
    refine fun committed _ => ⟨?_, ?_⟩
    · change Stage.Permits _ after .commit
      cases after <;> trivial
    · cases committed with
      | error cause => exact nofun
      | ok done =>
        intro same
        have last : after = .swapped := swapped same
        subst last
        rfl

end Program

end Tempogate.Keys
