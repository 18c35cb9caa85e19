/-
This file defines signing keypairs, the rule that picks the signer and the keypair stores.
-/

import Mathlib.Data.String.Basic
import Tempogate.Construction.Oidc.Types
import Tempogate.Foundation.Table

namespace Tempogate.Keys

open Foundation Oidc

structure Keypair where
  kid : String
  alg : String
  privatePEM : String
  publicPEM : String
  createdAt : Time
  retiredAt : Option Time
  deriving DecidableEq, Repr

/-- These are the errors of the keypair stores and of the operations on them. -/
inductive KeyError
  | keypairNotFound (kid : String)
  | lastActiveKeypair (kid : String)
  | replacementPending (kid : String) (activatesAt : Time)
  | keypairExists (kid : String)
  | duplicateKid (kid : String)
  | noKeypair
  | noEncryptionKey (kid : String)
  | decryptKeypair (detail : String)
  | unsupportedAlgorithm (alg : String)
  | failure (message : String)
  deriving DecidableEq, Repr

namespace Keypair

def retired (keypair : Keypair) : Bool := keypair.retiredAt.isSome

def active (keypair : Keypair) : Bool := !keypair.retired

/-- The publish delay of the keypair has elapsed. -/
def published (publishDelay now : Time) (keypair : Keypair) : Bool :=
  ¬ now < keypair.createdAt + publishDelay

def retire (moment : Time) (keypair : Keypair) : Keypair :=
  { keypair with retiredAt := some moment }

theorem kid_retire (moment : Time) (keypair : Keypair) :
    (keypair.retire moment).kid = keypair.kid := rfl

/-- Keypairs are sorted by creation, then by kid. -/
def Before (first second : Keypair) : Prop :=
  first.createdAt < second.createdAt ∨ first.createdAt = second.createdAt ∧ first.kid ≤ second.kid

instance : DecidableRel Before := fun first second =>
  inferInstanceAs (Decidable (first.createdAt < second.createdAt ∨
    first.createdAt = second.createdAt ∧ first.kid ≤ second.kid))

end Keypair

variable (keypairs : List Keypair)

def sortByCreatedAt : List Keypair :=
  keypairs.insertionSort Keypair.Before

def pickLatest (first : Keypair) (rest : List Keypair) : Keypair :=
  rest.foldl (fun latest keypair =>
    if keypair.createdAt > latest.createdAt then keypair else latest) first

/-- The loop runs from the newest keypair to the oldest one. -/
def signingFrom (now publishDelay : Time) (oldest : Option Keypair) : List Keypair → Option Keypair
  | [] => oldest
  | keypair :: older =>
    if keypair.retired then signingFrom now publishDelay oldest older
    else if keypair.published publishDelay now then some keypair
    else signingFrom now publishDelay (some keypair) older

/-- The newest active keypair whose publish delay has elapsed signs.
When there is none, the oldest active keypair does. -/
def signing (now publishDelay : Time) : Option Keypair :=
  signingFrom now publishDelay none keypairs.reverse

structure KeypairStatus where
  keypair : Keypair
  signing : Bool
  activatesAt : Option Time
  deriving DecidableEq, Repr

/-- Without a signer the kid is empty. -/
def statusesAt (now publishDelay : Time) : List KeypairStatus :=
  let signer := ((signing keypairs now publishDelay).map Keypair.kid).getD ""
  keypairs.map fun keypair =>
    let isSigning := !keypair.retired && keypair.kid = signer
    let activatesAt := keypair.createdAt + publishDelay
    ⟨keypair, isSigning,
      if !keypair.retired && !isSigning && now < activatesAt then some activatesAt else none⟩

/-- Both backends keep one row for each kid. -/
abbrev Keypairs : Type := Table Keypair.kid

namespace Keypairs

def loadKeypairs (table : Keypairs) : List Keypair := sortByCreatedAt table.rows

/-- The insert list leaves out the retirement stamp. -/
def saveKeypair (keypair : Keypair) (table : Keypairs) : Except KeyError Unit × Keypairs :=
  match table.insert { keypair with retiredAt := none } with
  | some after => (.ok (), after)
  | none => (.error (.duplicateKid keypair.kid), table)

def selectKid (table : Keypairs) (kid : String) : Option Keypair :=
  table.rows.find? fun row => row.kid = kid

end Keypairs

/-- Both backends read the row back after the update and say why it did not change. -/
def retireAnswer (kid : String) (changed : Bool) : Option Keypair → Except KeyError Keypair
  | none => .error (.keypairNotFound kid)
  | some keypair =>
    if !changed && !keypair.retired then .error (.lastActiveKeypair kid) else .ok keypair

end Tempogate.Keys

namespace Tempogate.Sqlite

open Foundation Oidc Keys

/-- The statement changes an active row while another active row exists. -/
def retirable (table : Keypairs) (kid : String) (row : Keypair) : Bool :=
  row.kid = kid && row.active && table.rows.any fun other => other.kid ≠ kid && other.active

def updateRetired (kid : String) (moment : Time) (table : Keypairs) : Keypairs :=
  table.update (retirable table kid) (Keypair.retire moment) fun _ => rfl

def retireKeypair (kid : String) (moment : Time) (table : Keypairs) :
    Except KeyError Keypair × Keypairs :=
  let changed := table.rows.countP (retirable table kid)
  let after := updateRetired kid moment table
  (retireAnswer kid (changed > 0) (after.selectKid kid), after)

end Tempogate.Sqlite

namespace Tempogate.Postgres

open Foundation Oidc Keys

/-- The transaction locks the active rows before it decides. -/
def retireKeypair (kid : String) (moment : Time) (table : Keypairs) :
    Except KeyError Keypair × Keypairs :=
  let active := (table.rows.filter Keypair.active).map Keypair.kid
  let changed := decide (active.length > 1) && decide (kid ∈ active)
  let after : Keypairs :=
    if changed then table.update (fun row => row.kid = kid) (Keypair.retire moment) fun _ => rfl
    else table
  (retireAnswer kid changed (after.selectKid kid), after)

end Tempogate.Postgres
