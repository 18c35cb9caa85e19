/-
This file defines the operations on the keypair set of a process, its boot, and lets them
interleave.
-/

import Tempogate.Construction.Keys.Keypairs
import Tempogate.Foundation.Base64
import Tempogate.Foundation.Concurrent

namespace Tempogate.Keys

open Foundation Oidc

/-- These are the steps of the operations. A replica is a process with a keypair set of its own. -/
inductive KeyCall
  | now
  | generateRSA
  | readNonce
  | loadKeypairs
  | saveKeypair (keypair : Keypair)
  | retireKeypair (kid : String) (moment : Time)
  | swap (replica : Nat) (keypairs : List Keypair)
  | all (replica : Nat)
  deriving DecidableEq

/-- A generated key pair comes with its thumbprint and both halves. -/
structure RSAKey where
  thumbprint : String
  privatePEM : String
  publicPEM : String
  deriving DecidableEq, Repr

/-- A nonce of GCM has this many bytes. -/
def nonceSize : Nat := 12

def KeyCall.Answer : KeyCall → Type
  | .now => Time
  | .generateRSA => Except String RSAKey
  | .readNonce => Except String (Vector UInt8 nonceSize)
  | .loadKeypairs => Except String (List Keypair)
  | .saveKeypair _ => Except KeyError Unit
  | .retireKeypair _ _ => Except KeyError Keypair
  | .swap _ _ => Unit
  | .all _ => List Keypair

def keyCalls : Signature := ⟨KeyCall, KeyCall.Answer⟩

abbrev Operation (Result : Type) : Type := Program keyCalls Result

def step (call : KeyCall) : Operation call.Answer := @Program.call keyCalls call

/-- The AEAD seals texts under the key-encryption key and binds them to additional data. -/
structure AEAD where
  sealText : (nonce : List UInt8) → (plaintext additional : String) → List UInt8
  openText : (nonce ciphertext : List UInt8) → (additional : String) → Option String

def encryptedPEMPrefix : String := "tempogate-kek:v1:"

def isEncrypted (privatePEM : String) : Bool :=
  encryptedPEMPrefix.toList.isPrefixOf privatePEM.toList

def kidAAD (kid : String) : String := "tempogate keypair " ++ kid

def AEAD.sealPEM (aead : AEAD) (nonce : Vector UInt8 nonceSize) (kid privatePEM : String) :
    String :=
  encryptedPEMPrefix ++ Base64.rawStdEncoding.encode
    (nonce.toList ++ aead.sealText nonce.toList privatePEM (kidAAD kid))

def AEAD.openPEM (aead : AEAD) (keypair : Keypair) : Except KeyError String :=
  match (Base64.rawStdEncoding.decode (.ofList (keypair.privatePEM.toList.drop
      encryptedPEMPrefix.toList.length))).filter (nonceSize ≤ ·.length) with
  | none => .error (.decryptKeypair ("keypair " ++ keypair.kid ++ " is malformed"))
  | some raw =>
    match aead.openText (raw.take nonceSize) (raw.drop nonceSize) (kidAAD keypair.kid) with
    | none => .error (.decryptKeypair ("keypair " ++ keypair.kid))
    | some pem => .ok pem

end Tempogate.Keys

/-- One process runs the operations with these settings. -/
structure Tempogate.Keys where
  replica : Nat
  alg : String
  publishDelay : Tempogate.Oidc.Time
  cipher : Except Tempogate.Keys.KeyError (Option Tempogate.Keys.AEAD)

namespace Tempogate.Keys

open Foundation Oidc

def openEach (cipher : Option AEAD) : List Keypair → Except KeyError (List Keypair)
  | [] => .ok []
  | keypair :: rest =>
    if !isEncrypted keypair.privatePEM then (openEach cipher rest).map (keypair :: ·)
    else match cipher with
      | none => .error (.noEncryptionKey keypair.kid)
      | some aead =>
        match aead.openPEM keypair with
        | .error error => .error error
        | .ok pem => (openEach (some aead) rest).map ({ keypair with privatePEM := pem } :: ·)

variable (keys : Keys)

def openStored (stored : List Keypair) : Except KeyError (List Keypair) :=
  match keys.cipher with
  | .error error => .error error
  | .ok cipher => openEach cipher stored

def swap (keys : Keys) (keypairs : List Keypair) : Operation Unit :=
  step (.swap keys.replica (sortByCreatedAt keypairs))

def all (keys : Keys) : Operation (List Keypair) := step (.all keys.replica)

def now : Operation Time := step .now

def loadKeypairs : Operation (Except String (List Keypair)) := step .loadKeypairs

def reload : Operation (Except KeyError Unit) := do
  match ← loadKeypairs with
  | .error cause => return .error (.failure ("keys: load keypairs: " ++ cause))
  | .ok stored =>
  match keys.openStored stored with
  | .error error => return .error error
  | .ok keypairs =>
  keys.swap keypairs
  return .ok ()

/-- The set of keypairs and the clock decide who signs now. -/
def latest : Operation (Except KeyError Keypair) := do
  let keypairs ← keys.all
  let moment ← now
  match signing keypairs moment keys.publishDelay with
  | none => return .error .noKeypair
  | some keypair => return .ok keypair

def generateKeypair : Operation (Except KeyError Keypair) := do
  if keys.alg ≠ "RS256" then
    return .error (.unsupportedAlgorithm keys.alg)
  let generated : Except String RSAKey ← step .generateRSA
  match generated with
  | .error cause => return .error (.failure ("keys: rsa generate: " ++ cause))
  | .ok key =>
  let moment ← now
  return .ok {
    kid := key.thumbprint, alg := keys.alg, privatePEM := key.privatePEM,
    publicPEM := key.publicPEM, createdAt := moment, retiredAt := none }

def sealForStore (keypair : Keypair) : Operation (Except KeyError Keypair) := do
  match keys.cipher with
  | .error error => return .error error
  | .ok none => return .ok keypair
  | .ok (some aead) =>
  let nonce : Except String (Vector UInt8 nonceSize) ← step .readNonce
  match nonce with
  | .error cause => return .error (.failure ("keys: nonce: " ++ cause))
  | .ok nonce =>
  return .ok { keypair with privatePEM := aead.sealPEM nonce keypair.kid keypair.privatePEM }

def save (keys : Keys) (keypair : Keypair) : Operation (Except KeyError Unit) := do
  match ← keys.sealForStore keypair with
  | .error error => return .error error
  | .ok toStore =>
  let answer : Except KeyError Unit ← step (.saveKeypair toStore)
  match answer with
  | .error (.failure message) => return .error (.failure ("keys: save keypair: " ++ message))
  | .error error => return .error error
  | .ok () => return .ok ()

def generate (force : Bool) : Operation (Except KeyError Keypair) := do
  match ← loadKeypairs with
  | .error cause => return .error (.failure ("keys: load keypairs: " ++ cause))
  | .ok stored =>
  match stored, force with
  | first :: rest, false => return .error (.keypairExists (pickLatest first rest).kid)
  | _, _ =>
  match keys.openStored stored with
  | .error error => return .error error
  | .ok existing =>
  match ← keys.generateKeypair with
  | .error error => return .error error
  | .ok keypair =>
  match ← keys.save keypair with
  | .error error => return .error error
  | .ok () =>
  keys.swap (existing ++ [keypair])
  return .ok keypair

/-- The current signer is not retired while its replacement is inside the publish delay. -/
def checkReplacementPublished (kid : String) : Operation (Except KeyError Unit) := do
  match ← keys.reload with
  | .error error => return .error error
  | .ok () =>
  let keypairs ← keys.all
  let moment ← now
  match signing keypairs moment keys.publishDelay with
  | none => return .ok ()
  | some signer =>
  if signer.kid ≠ kid then
    return .ok ()
  let rest := keypairs.filter fun keypair => keypair.kid ≠ kid
  let moment ← now
  match signing rest moment keys.publishDelay with
  | none => return .ok ()
  | some next =>
  let activatesAt := next.createdAt + keys.publishDelay
  let moment ← now
  if moment < activatesAt then
    return .error (.replacementPending next.kid activatesAt)
  return .ok ()

/-- This part of a retirement follows the replacement check. -/
def retireChecked (kid : String) : Operation (Except KeyError Keypair) := do
  let moment ← now
  let answer : Except KeyError Keypair ← step (.retireKeypair kid moment)
  match answer with
  | .error error => return .error error
  | .ok stored =>
  match ← keys.reload with
  | .error error => return .error error
  | .ok () =>
  let keypairs ← keys.all
  match keypairs.find? fun keypair => keypair.kid = stored.kid with
  | some keypair => return .ok keypair
  | none => return .error (.keypairNotFound stored.kid)

def retire (kid : String) (force : Bool) : Operation (Except KeyError Keypair) := do
  if force then
    keys.retireChecked kid
  else
    match ← keys.checkReplacementPublished kid with
    | .error error => return .error error
    | .ok () => keys.retireChecked kid

/-- The processes share one store and one clock. Each has a keypair set in memory. -/
structure KeyState where
  stored : Keypairs
  memory : Nat → List Keypair
  clock : Time

/-- A replica holds a new set in memory. -/
def KeyState.install (state : KeyState) (replica : Nat) (keypairs : List Keypair) : KeyState :=
  { state with memory := Function.update state.memory replica keypairs }

inductive Backend
  | sqlite
  | postgres
  deriving DecidableEq

def Backend.retireKeypair : Backend → String → Time → Keypairs → Except KeyError Keypair × Keypairs
  | sqlite => Sqlite.retireKeypair
  | postgres => Postgres.retireKeypair

/-- Each step is atomic. A store method may fail and then changes nothing.
The clock moves from one reading to the next as the given relation allows. -/
inductive Happens (backend : Backend) (ticks : Time → Time → Prop) (state : KeyState) :
    (call : KeyCall) → call.Answer → KeyState → Prop
  | now {moment : Time} (later : ticks state.clock moment) :
      Happens backend ticks state .now moment { state with clock := moment }
  | generateRSA {answer : Except String RSAKey} :
      Happens backend ticks state .generateRSA answer state
  | readNonce {answer : Except String (Vector UInt8 nonceSize)} :
      Happens backend ticks state .readNonce answer state
  | loaded : Happens backend ticks state .loadKeypairs (.ok state.stored.loadKeypairs) state
  | loadFailed {cause : String} : Happens backend ticks state .loadKeypairs (.error cause) state
  | saved {keypair : Keypair} :
      Happens backend ticks state (.saveKeypair keypair) (state.stored.saveKeypair keypair).1
        { state with stored := (state.stored.saveKeypair keypair).2 }
  | saveFailed {keypair : Keypair} {message : String} :
      Happens backend ticks state (.saveKeypair keypair) (.error (.failure message)) state
  | retired {kid : String} {moment : Time} : Happens backend ticks state (.retireKeypair kid moment)
        (backend.retireKeypair kid moment state.stored).1
        { state with stored := (backend.retireKeypair kid moment state.stored).2 }
  | retireFailed {kid : String} {moment : Time} {message : String} :
      Happens backend ticks state (.retireKeypair kid moment) (.error (.failure message)) state
  | swap {replica : Nat} {keypairs : List Keypair} :
      Happens backend ticks state (.swap replica keypairs) () (state.install replica keypairs)
  | all {replica : Nat} : Happens backend ticks state (.all replica) (state.memory replica) state

variable (backend : Backend)

def world (ticks : Time → Time → Prop) : World keyCalls KeyState :=
  fun _ state event after => Happens backend ticks state event.effect event.answer after

inductive KeyTask
  | latest
  | reload
  | generate (force : Bool)
  | retire (kid : String) (force : Bool)
  deriving DecidableEq

/-- The outcome of a task names the process that ran it. -/
inductive KeyOutcome
  | latest (replica : Nat) (result : Except KeyError Keypair)
  | reloaded (replica : Nat) (result : Except KeyError Unit)
  | generated (replica : Nat) (result : Except KeyError Keypair)
  | retired (replica : Nat) (kid : String) (result : Except KeyError Keypair)

def KeyTask.program : KeyTask → Operation KeyOutcome
  | .latest => do return .latest keys.replica (← keys.latest)
  | .reload => do return .reloaded keys.replica (← keys.reload)
  | .generate force => do return .generated keys.replica (← keys.generate force)
  | .retire kid force => do return .retired keys.replica kid (← keys.retire kid force)

abbrev Operations : Type := Configuration keyCalls KeyState KeyOutcome

/-- Every task is about to begin on the replica it belongs to. -/
def operations (start : KeyState) (tasks : Nat → Keys × KeyTask) : Operations :=
  .initial start fun process => (tasks process).2.program (tasks process).1

/-- The script answers the clock, the key generator and the random source. -/
structure KeyScript where
  now : List (Event keyCalls) → Nat → Time
  generateRSA : Nat → Except String RSAKey
  readNonce : Nat → Except String (Vector UInt8 nonceSize)

variable (script : KeyScript)

/-- This executor never fails a store method. -/
def executor : Executor keyCalls KeyState :=
  fun log state process effect =>
    match effect with
    | .now => (script.now log process, { state with clock := script.now log process })
    | .generateRSA => (script.generateRSA process, state)
    | .readNonce => (script.readNonce process, state)
    | .loadKeypairs => (.ok state.stored.loadKeypairs, state)
    | .saveKeypair keypair =>
      ((state.stored.saveKeypair keypair).1,
        { state with stored := (state.stored.saveKeypair keypair).2 })
    | .retireKeypair kid moment =>
      ((backend.retireKeypair kid moment state.stored).1,
        { state with stored := (backend.retireKeypair kid moment state.stored).2 })
    | .swap replica keypairs => ((), state.install replica keypairs)
    | .all replica => (state.memory replica, state)

/-- The executor does what the world allows while the clock does not go back. -/
theorem executor_follows (log : List (Event keyCalls))
    (state : KeyState) (process : Nat) (effect : KeyCall)
    (later : state.clock ≤ script.now log process) :
    world backend (· ≤ ·) log state
      ⟨process, effect, (executor backend script log state process effect).1⟩
      (executor backend script log state process effect).2 := by
  cases effect with
  | now => exact .now later
  | generateRSA => exact .generateRSA
  | readNonce => exact .readNonce
  | loadKeypairs => exact .loaded
  | saveKeypair keypair => exact .saved
  | retireKeypair kid moment => exact .retired
  | swap replica keypairs => exact .swap
  | all replica => exact .all

/-- A script whose clock stands still runs every order of turns. -/
theorem lawful_of_still {moment : Time}
    (still : ∀ log process, script.now log process = moment) {before : Operations}
    (reached : before.store.clock ≤ moment) (order : List Nat) :
    before.Lawful (world backend (· ≤ ·)) anyStep (executor backend script) order := by
  refine Configuration.lawful_of_invariant (fun state => state.clock ≤ moment)
    (fun log state process effect holds => ⟨?_, ?_⟩) reached order
  · exact executor_follows backend script log state process effect (still log process ▸ holds)
  · cases effect with
    | now => exact le_of_eq (still log process)
    | _ => exact holds

end Tempogate.Keys

namespace Tempogate.Keys

open Foundation Oidc

/-- A keypair is generated when no stored one is active. -/
def init (keys : Keys) : Operation (Except KeyError Unit) := do
  match ← loadKeypairs with
  | .error cause => return .error (.failure ("keys: load keypairs: " ++ cause))
  | .ok stored =>
  match keys.openStored stored with
  | .error error => return .error error
  | .ok opened =>
  let existing := sortByCreatedAt opened
  let moment ← now
  match signing existing moment keys.publishDelay with
  | some _ =>
    keys.swap existing
    return .ok ()
  | none =>
  match ← keys.generateKeypair with
  | .error error => return .error error
  | .ok keypair =>
  match ← keys.save keypair with
  | .error error => return .error error
  | .ok () =>
  keys.swap (existing ++ [keypair])
  return .ok ()

/-- The bootstrap lock is taken inside a transaction, and the end of the transaction frees it. -/
inductive LockCall
  | acquire
  | commit
  deriving DecidableEq

def LockCall.Answer : LockCall → Type
  | .acquire => Except String Unit
  | .commit => Except String Unit

def lockCalls : Signature := ⟨LockCall, LockCall.Answer⟩

def bootCalls : Signature := lockCalls.sum keyCalls

abbrev Boot (Result : Type) : Type := Program bootCalls Result

def lockStep (call : LockCall) : Boot call.Answer := @Program.call bootCalls (.inl call)

def lockFailure (cause : String) : KeyError := .failure ("postgres: lock key bootstrap: " ++ cause)

/-- The function works on other connections. Its error is returned after the commit. -/
def lockKeyBootstrap (fn : Operation (Except KeyError Unit)) : Boot (Except KeyError Unit) := do
  let locked : Except String Unit ← lockStep .acquire
  match locked with
  | .error cause => return .error (lockFailure cause)
  | .ok () =>
  let result ← (fn.second : Boot (Except KeyError Unit))
  let committed : Except String Unit ← lockStep .commit
  match committed with
  | .error cause => return .error (lockFailure cause)
  | .ok () => return result

/-- This is the boot of a process whose store has a bootstrap lock. -/
def initLocked (keys : Keys) : Boot (Except KeyError Unit) := lockKeyBootstrap keys.init

/-- At most one process holds the bootstrap lock. -/
structure BootState where
  keys : KeyState
  holder : Option Nat

def BootState.release (state : BootState) (process : Nat) : BootState :=
  if state.holder = some process then { state with holder := none } else state

/-- The lock waits while another process holds it, and a commit that fails frees it too.
A save that fails may have been stored. -/
inductive BootHappens (ticks : Time → Time → Prop) (process : Nat) (state : BootState) :
    (effect : bootCalls.Effect) → bootCalls.Answer effect → BootState → Prop
  | acquired (free : state.holder = none) :
      BootHappens ticks process state (.inl .acquire) (.ok ()) { state with holder := some process }
  | refused {cause : String} : BootHappens ticks process state (.inl .acquire) (.error cause) state
  | committed {answer : Except String Unit} :
      BootHappens ticks process state (.inl .commit) answer (state.release process)
  | key {call : KeyCall} {answer : call.Answer} {after : KeyState}
      (happens : Happens .postgres ticks state.keys call answer after) :
      BootHappens ticks process state (.inr call) answer { state with keys := after }
  | unconfirmed {keypair : Keypair} {message : String} :
      BootHappens ticks process state (.inr (.saveKeypair keypair)) (.error (.failure message))
        { state with keys := { state.keys with
          stored := (state.keys.stored.saveKeypair keypair).2 } }

def bootWorld (ticks : Time → Time → Prop) : World bootCalls BootState :=
  fun _ state event after =>
    BootHappens ticks event.process state event.effect event.answer after

abbrev Boots : Type := Configuration bootCalls BootState (Except KeyError Unit)

/-- Every process is about to boot with a memory of its own, and the lock is free. -/
def boots (start : KeyState) (keys : Nat → Keys) : Boots :=
  .initial ⟨start, none⟩ fun process => ({ keys process with replica := process }).initLocked

end Tempogate.Keys
