/-
This file defines the statements with which the stores save and retire keypairs.
-/

import Tempogate.Construction.Keys.Keypairs
import Tempogate.Construction.Postgres.Store

namespace Tempogate.Keys

open Oidc

inductive KeystoreTask
  | saveKeypair (keypair : Keypair)
  | retireKeypair (kid : String) (moment : Time)

inductive KeystoreOutcome
  | saved (result : Except KeyError Unit)
  | retired (kid : String) (result : Except KeyError Keypair)

end Tempogate.Keys

namespace Tempogate.Sqlite

open Foundation Oidc Keys

inductive KeypairStatement
  | insertKeypair (keypair : Keypair)
  | updateRetired (kid : String) (moment : Time)
  | selectKeypair (kid : String)

namespace KeypairStatement

/-- An insert reports whether its kid was free and an update the number of changed rows. -/
def Reply : KeypairStatement → Type
  | insertKeypair _ => Bool
  | updateRetired _ _ => Nat
  | selectKeypair _ => Option Keypair

def execute : (statement : KeypairStatement) → Keypairs → statement.Reply × Keypairs
  | insertKeypair keypair, table =>
    match table.insert { keypair with retiredAt := none } with
    | some after => (true, after)
    | none => (false, table)
  | updateRetired kid moment, table =>
    (table.rows.countP (retirable table kid), Sqlite.updateRetired kid moment table)
  | selectKeypair kid, table => (table.selectKid kid, table)

end KeypairStatement

def keypairStatements : Signature :=
  ⟨KeypairStatement, fun statement => Except String statement.Reply⟩

/-- A statement is atomic. It may fail without an effect, and a failure may also hide one. -/
inductive KeypairHappens (table : Keypairs) :
    (statement : KeypairStatement) → Except String statement.Reply → Keypairs → Prop
  | executed {statement : KeypairStatement} :
      KeypairHappens table statement (.ok (statement.execute table).1) (statement.execute table).2
  | failed {statement : KeypairStatement} {cause : String} :
      KeypairHappens table statement (.error cause) table
  | unconfirmed {statement : KeypairStatement} {cause : String} :
      KeypairHappens table statement (.error cause) (statement.execute table).2

def keypairWorld : World keypairStatements Keypairs :=
  fun _ table event after => KeypairHappens table event.effect event.answer after

namespace Keystore

def perform (statement : KeypairStatement) :
    Program keypairStatements (Except String statement.Reply) :=
  @Program.call keypairStatements statement

def saveKeypair (keypair : Keypair) : Program keypairStatements (Except KeyError Unit) := do
  let inserted : Except String Bool ← perform (.insertKeypair keypair)
  match inserted with
  | .error cause => return .error (.failure ("sqlite: save keypair: " ++ cause))
  | .ok false => return .error (.duplicateKid keypair.kid)
  | .ok true => return .ok ()

/-- The second statement says why the first one changed nothing. -/
def retireKeypair (kid : String) (moment : Time) :
    Program keypairStatements (Except KeyError Keypair) := do
  let updated : Except String Nat ← perform (.updateRetired kid moment)
  match updated with
  | .error cause => return .error (.failure ("sqlite: retire keypair: " ++ cause))
  | .ok changed =>
  let selected : Except String (Option Keypair) ← perform (.selectKeypair kid)
  match selected with
  | .error cause => return .error (.failure ("sqlite: scan keypair: " ++ cause))
  | .ok row => return retireAnswer kid (changed > 0) row

def program : KeystoreTask → Program keypairStatements KeystoreOutcome
  | .saveKeypair keypair => do return .saved (← saveKeypair keypair)
  | .retireKeypair kid moment => do return .retired kid (← retireKeypair kid moment)

/-- Every client is about to run its task. -/
def clients (table : Keypairs) (tasks : Nat → KeystoreTask) :
    Configuration keypairStatements Keypairs KeystoreOutcome :=
  .initial table fun process => program (tasks process)

end Keystore

end Tempogate.Sqlite

namespace Tempogate.Postgres

open Foundation Oidc Keys Action Keypair

inductive KeypairWrite
  | insertKeypair (keypair : Keypair)
  | setRetired (kid : String) (moment : Time)

def KeypairWrite.apply : KeypairWrite → Keypairs → Keypairs
  | insertKeypair keypair, table => (table.insert { keypair with retiredAt := none }).getD table
  | setRetired kid moment, table =>
    table.update (fun row => row.kid = kid) (retire moment) (kid_retire moment)

/-- A row is locked by its kid, and an insert waits for others under the same kid. -/
inductive KeypairKey
  | row (kid : String)
  | index (kid : String)
  deriving DecidableEq

abbrev KeypairServer : Type := Server Keypairs KeypairWrite KeypairKey

abbrev KeypairQuery (Result : Type) : Type := Action Keypairs KeypairWrite KeypairKey Result

def keypairWorld : World (server Keypairs KeypairWrite KeypairKey) KeypairServer :=
  readCommitted KeypairWrite.apply

namespace Keystore

variable (table : Keypairs)

/-- The kids of the active keypairs, in order. -/
def activeKids : List String :=
  ((table.rows.filter active).map kid).insertionSort (· ≤ ·)

variable (kid : String)

def isActive : Bool :=
  table.rows.any fun row => row.kid = kid && row.active

/-- The statement locks each row of its snapshot and keeps those that are still active. -/
def lockActive : List String → KeypairQuery (Except String (List String))
  | [] => return .ok []
  | kid :: rest => do
      let locked : Except String Keypairs ← lock (.row kid) .exclusive
      match locked with
      | .error cause => return .error cause
      | .ok newest =>
      match ← lockActive rest with
      | .error cause => return .error cause
      | .ok kids => return .ok (if isActive newest kid then kid :: kids else kids)

def selectActive : KeypairQuery (Except String (List String)) := do
  let selected : Except String (List String) ← select activeKids
  match selected with
  | .error cause => return .error cause
  | .ok kids => lockActive kids

/-- The notification is queued with the transaction. -/
def notify : KeypairQuery (Except String Unit) := select fun _ => ()

def saveFailure (cause : String) : KeyError := .failure ("postgres: save keypair: " ++ cause)

def saveKeypair (keypair : Keypair) : KeypairQuery (Except KeyError Unit) :=
  inTx saveFailure do
    let inserted : Except String Bool ← claim (.index keypair.kid)
      (fun table => (table.selectKid keypair.kid).isNone) (.insertKeypair keypair)
    match inserted with
    | .error cause => return .error (saveFailure cause)
    | .ok false => return .error (.duplicateKid keypair.kid)
    | .ok true =>
    match ← notify with
    | .error cause => return .error (saveFailure cause)
    | .ok () => return .ok ()

def retireFailure (cause : String) : KeyError := .failure ("postgres: retire keypair: " ++ cause)

/-- The transaction reads the row back whether or not it changed it. -/
def readBack (changed : Bool) : KeypairQuery (Except KeyError (Bool × Keypair)) := do
  let selected : Except String (Option Keypair) ← select fun table => table.selectKid kid
  match selected with
  | .error cause => return .error (retireFailure cause)
  | .ok none => return .error (.keypairNotFound kid)
  | .ok (some keypair) => return .ok (changed, keypair)

def retireBody (moment : Time) : KeypairQuery (Except KeyError (Bool × Keypair)) := do
  match ← selectActive with
  | .error cause => return .error (retireFailure cause)
  | .ok active =>
  if active.length > 1 ∧ kid ∈ active then
    let updated : Except String (Option Keypair) ← change (.row kid)
      (fun table => table.selectKid kid) (.setRetired kid moment)
    match updated with
    | .error cause => return .error (retireFailure cause)
    | .ok _ =>
    match ← notify with
    | .error cause => return .error (retireFailure cause)
    | .ok () => readBack kid true
  else readBack kid false

def retireKeypair (moment : Time) : KeypairQuery (Except KeyError Keypair) := do
  match ← inTx retireFailure (retireBody kid moment) with
  | .error error => return .error error
  | .ok (changed, keypair) => return retireAnswer kid changed (some keypair)

def program : KeystoreTask → KeypairQuery KeystoreOutcome
  | .saveKeypair keypair => do return .saved (← saveKeypair keypair)
  | .retireKeypair kid moment => do return .retired kid (← retireKeypair kid moment)

/-- Every client is about to run its task and no transaction is open. -/
def clients (tasks : Nat → KeystoreTask) :
    Configuration (server Keypairs KeypairWrite KeypairKey) KeypairServer KeystoreOutcome :=
  .initial (.quiet table) fun process => program (tasks process)

end Keystore

end Tempogate.Postgres
