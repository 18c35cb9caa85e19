/-
This file defines the policy that decides which permissions a signed-in person's token carries.
-/

import Tempogate.Construction.Perms.Grant

namespace Tempogate.Authz

open Oidc (trimSpace cut cutAtLast split)
open Perms (Grant EntryError)

/-- A rule for a group is refused, so no rule has that kind. -/
inductive SelectorKind
  | email
  | domain
  deriving DecidableEq, Repr

def SelectorKind.text : SelectorKind → String
  | email => "email"
  | domain => "domain"

def selectGroup : String := "group"

/-- The index is the position of the rule in the configured list. -/
structure Rule where
  index : Nat
  raw : String
  grant : Grant
  kind : SelectorKind
  value : String

def Rule.selector (rule : Rule) : String := rule.kind.text ++ ":" ++ rule.value

def Rule.matches (rule : Rule) (email domain : String) : Bool :=
  match rule.kind with
  | .email => rule.value = email
  | .domain => rule.value = domain

inductive RuleCause
  | noPermissions
  | noSelector
  | notAnEmail (value : String)
  | notADomain (value : String)
  | groupSelector
  | unknownSelector (kind : String)
  | grantsNothing
  | permissions (error : EntryError)
  deriving DecidableEq, Repr

def RuleCause.text (quote : String → String) : RuleCause → String
  | noPermissions => "want \"<selector>=<namespace>:<role>[,...]\""
  | noSelector => "selector must be email:<address> or domain:<domain>"
  | notAnEmail value => quote value ++ " is not an email address"
  | notADomain value => quote value ++ " is not an email domain"
  | groupSelector => "group: rules are not supported yet; use email: or domain:"
  | unknownSelector kind => "unknown selector " ++ quote kind ++ "; use email: or domain:"
  | grantsNothing => "grants nothing; list at least one <namespace>:<role>"
  | permissions error => error.text quote

inductive PolicyError
  | invalidRule (index : Nat) (raw : String) (cause : RuleCause)
  | defaultPermissions (error : EntryError)
  deriving DecidableEq, Repr

def PolicyError.text (quote : String → String) : PolicyError → String
  | invalidRule index raw cause =>
    "authz: invalid rule " ++ toString index ++ " " ++ quote raw ++ ": " ++ cause.text quote
  | defaultPermissions error => "authz: OIDC_AUTHZ_DEFAULT_PERMISSIONS: " ++ error.text quote

/-- An address has one at sign with something on both sides. -/
def isAddress (value : String) : Bool :=
  match cut value '@' with
  | none => false
  | some (user, domain) => user ≠ "" && domain ≠ "" && '@' ∉ domain.toList

/-- A domain has no at sign. -/
def isDomain (value : String) : Bool := value ≠ "" && '@' ∉ value.toList

section

variable (toLower : String → String)

/-- Selectors are compared in lower case and without surrounding spaces. -/
def canonical (text : String) : String := toLower (trimSpace text)

/-- An error quotes the selector as it was written. -/
def checkSelector (kind value : String) : Except RuleCause SelectorKind :=
  if canonical toLower kind = SelectorKind.email.text then
    if isAddress (canonical toLower value) then .ok .email else .error (.notAnEmail value)
  else if canonical toLower kind = SelectorKind.domain.text then
    if isDomain (canonical toLower value) then .ok .domain else .error (.notADomain value)
  else if canonical toLower kind = selectGroup then .error .groupSelector
  else .error (.unknownSelector kind)

def readRule (index : Nat) (raw : String) : Except RuleCause Rule :=
  match cut (trimSpace raw) '=' with
  | none => .error .noPermissions
  | some (selector, permissions) =>
    match cut (trimSpace selector) ':' with
    | none => .error .noSelector
    | some (kind, value) =>
      match checkSelector toLower kind value with
      | .error cause => .error cause
      | .ok selectorKind =>
        if trimSpace permissions = "" then .error .grantsNothing
        else match Perms.parseConfig (split permissions ',') with
          | .error error => .error (.permissions error)
          | .ok grant => .ok ⟨index, raw, grant, selectorKind, canonical toLower value⟩

def parseRule (index : Nat) (raw : String) : Except PolicyError Rule :=
  (readRule toLower index raw).mapError fun cause => .invalidRule index raw cause

structure Policy where
  rules : List Rule
  dflt : Grant

/-- The loop stops at the first rule that is invalid. -/
def parseRules (index : Nat) : List String → Except PolicyError (List Rule)
  | [] => .ok []
  | raw :: rest => do
      let rule ← parseRule toLower index raw
      let rules ← parseRules (index + 1) rest
      return rule :: rules

/-- A blank default grants nothing. -/
def parseDefault (defaultPermissions : String) : Except PolicyError Grant :=
  if trimSpace defaultPermissions = "" then .ok (Grant.new [])
  else (Perms.parseConfig (split defaultPermissions ',')).mapError .defaultPermissions

def parse (rules : List String) (defaultPermissions : String) : Except PolicyError Policy := do
  let parsed ← parseRules toLower 0 rules
  let dflt ← parseDefault defaultPermissions
  return ⟨parsed, dflt⟩

def emailDomain (email : String) : String :=
  match cutAtLast email '@' with
  | none => ""
  | some (_, domain) => domain

structure Explanation where
  email : String
  matched : List Rule
  dflt : Bool
  grant : Grant

namespace Policy

variable (policy : Policy)

def matched (address : String) : List Rule :=
  policy.rules.filter fun rule => rule.matches address (emailDomain address)

/-- The default applies when no rule matched. -/
def grants (address : String) : List Grant :=
  if (policy.matched address).isEmpty then [policy.dflt]
  else (policy.matched address).map Rule.grant

def explain (email : String) : Explanation :=
  let address := canonical toLower email
  ⟨address, policy.matched address, (policy.matched address).isEmpty,
    Perms.merge ((policy.grants address).map some)⟩

/-- Static rules always resolve. -/
def resolve (email : String) : Except String Grant :=
  .ok (policy.explain toLower email).grant

end Policy

end

end Tempogate.Authz
