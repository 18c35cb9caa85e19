/-
This file defines the permissions a token carries and how they are written in its claim.
-/

import Mathlib.Data.List.AList
import Mathlib.Data.List.Sort
import Mathlib.Data.String.Basic
import Tempogate.Construction.Oidc.Strings

namespace Tempogate.Perms

open Oidc (trimSpace cutAtLast)

/-- A role is a text that `valid` has yet to check. -/
abbrev Role : Type := String

def roleRead : Role := "read"

def roleWrite : Role := "write"

def roleWorker : Role := "worker"

def roleAdmin : Role := "admin"

def systemNamespace : String := "temporal-system"

def wildcard : String := "*"

/-- These are the bits of Temporal's role mask. -/
def roleBits : List (Role × Nat) :=
  [(roleWorker, 1), (roleRead, 2), (roleWrite, 4), (roleAdmin, 8)]

/-- A role that the table of bits does not hold has no bit. -/
def Role.bits (role : Role) : Nat := (roleBits.lookup role).getD 0

def Role.valid (role : Role) : Bool := (roleBits.lookup role).isSome

inductive PermsError
  | invalidRole
  | emptyNamespace
  | malformedEntry
  | workerRole
  | wildcardNamespace
  deriving DecidableEq, Repr

def PermsError.text : PermsError → String
  | invalidRole => "perms: role must be one of read/write/worker/admin"
  | emptyNamespace => "perms: namespace must not be empty"
  | malformedEntry => "perms: entry must be \"<namespace>:<role>\""
  | workerRole => "perms: worker grants nothing under Temporal's default authorizer; use write"
  | wildcardNamespace => "perms: \"*\" is not a namespace wildcard in Temporal; use " ++
      systemNamespace ++ " to grant every namespace"

/-- A pair that could authorize nothing at a Temporal frontend is refused. -/
def grantable (name : String) (role : Role) : Except PermsError Unit :=
  if name = wildcard then .error .wildcardNamespace
  else if role = roleWorker then .error .workerRole
  else .ok ()

structure NamespacePermission where
  namespaceName : String
  role : Role
  deriving DecidableEq, Repr

/-- A grant maps namespaces to roles. -/
structure Grant where
  perms : AList fun _ : String => Role

namespace Grant

variable (grant : Grant)

/-- This is the map's answer for one namespace. -/
def role (name : String) : Option Role :=
  grant.perms.lookup name

/-- A namespace that is added twice keeps the higher role. -/
def add (name : String) (role : Role) : Grant :=
  match grant.role name with
  | none => ⟨grant.perms.insert name role⟩
  | some current =>
    if role.bits > current.bits then ⟨grant.perms.insert name role⟩ else grant

/-- The pairs of the map come in no fixed order. -/
def pairs : List NamespacePermission :=
  grant.perms.entries.map fun entry => ⟨entry.1, entry.2⟩

def addAll (pairs : List NamespacePermission) : Grant :=
  pairs.foldl (fun sum pair => sum.add pair.namespaceName pair.role) grant

def new (options : List NamespacePermission) : Grant := addAll ⟨∅⟩ options

def empty : Bool := grant.pairs.isEmpty

/-- The pairs are sorted by namespace. -/
def namespaces : List NamespacePermission :=
  grant.pairs.insertionSort fun first second => first.namespaceName ≤ second.namespaceName

def toClaim : List String :=
  grant.namespaces.map fun pair => pair.namespaceName ++ ":" ++ pair.role

/-- A nil grant is skipped. -/
def absorb (sum : Grant) : Option Grant → Grant
  | none => sum
  | some grant => sum.addAll grant.pairs

end Grant

def merge (grants : List (Option Grant)) : Grant := grants.foldl Grant.absorb (Grant.new [])

/-- An entry is cut at its last colon. -/
def splitEntry (entry : String) : Option NamespacePermission :=
  (cutAtLast entry ':').map fun parts => ⟨parts.1, parts.2⟩

/-- An error names the entry it is about. -/
structure EntryError where
  cause : PermsError
  index : Nat
  entry : String
  deriving DecidableEq, Repr

def EntryError.text (quote : String → String) (error : EntryError) : String :=
  error.cause.text ++ ": entry " ++ toString error.index ++ " " ++ quote error.entry

def checkEntry (entry : String) : Except PermsError NamespacePermission :=
  match splitEntry entry with
  | none => .error .malformedEntry
  | some pair =>
    if pair.namespaceName = "" then .error .emptyNamespace
    else if !pair.role.valid then .error .invalidRole
    else .ok pair

/-- The loop goes through the entries from the left and stops at the first error. -/
def parseFrom (index : Nat) (grant : Grant) : List String → Except EntryError Grant
  | [] => .ok grant
  | entry :: rest =>
    match checkEntry entry with
    | .error cause => .error ⟨cause, index, entry⟩
    | .ok pair => parseFrom (index + 1) (grant.add pair.namespaceName pair.role) rest

def parseClaim (claim : List String) : Except EntryError Grant := parseFrom 0 (Grant.new []) claim

/-- The second loop runs after the first has accepted every entry. -/
def checkGrantable (index : Nat) : List String → Except EntryError Unit
  | [] => .ok ()
  | entry :: rest =>
    match (splitEntry entry).elim (.error .malformedEntry) fun pair =>
        grantable pair.namespaceName pair.role with
    | .error cause => .error ⟨cause, index, entry⟩
    | .ok () => checkGrantable (index + 1) rest

def parseConfig (entries : List String) : Except EntryError Grant := do
  let trimmed := entries.map trimSpace
  let grant ← parseClaim trimmed
  checkGrantable 0 trimmed
  return grant

end Tempogate.Perms
