/-
This file proves what the authorization policy grants.
-/

import Tempogate.Construction.Authz.Policy
import Tempogate.Proof.Perms.Claim

namespace Tempogate.Authz

open List

open Oidc (trimSpace cut cutAtLast split)
open Perms (Grant NamespacePermission Role EntryGrants Highest claimPairs)

variable {first otherPermissions otherValue otherKind name : String} {rule : Rule} {grant : Grant}
  {role : Role} {char : Char}

/-- These are the pairs that a list of permissions names. -/
def listed (permissions : String) : List NamespacePermission :=
  claimPairs ((split permissions ',').map trimSpace)

/-- Every entry of a list of permissions grants something. -/
def AllGrant (permissions : String) : Prop :=
  ∀ entry ∈ (split permissions ',').map trimSpace, EntryGrants entry

variable {pair : NamespacePermission}
  {permissions second kind raw value defaultPermissions email : String} {raws others : List String}
  {policy : Policy}

theorem grants_of_listed (useful : AllGrant permissions) (named : pair ∈ listed permissions) :
    pair.Grants := by
  obtain ⟨entry, member, found⟩ := mem_filterMap.mp named
  obtain ⟨other, same, grants⟩ := useful entry member
  obtain rfl := Option.some.inj (same.symm.trans found)
  exact grants

/-- A blank list names nothing. -/
theorem listed_blank (blank : trimSpace permissions = "") : listed permissions = [] := by
  have spaces := Oidc.trimSpace_eq_empty_iff.mp blank
  have whole : split permissions ',' = [permissions] :=
    Oidc.split_eq_singleton fun comma => absurd (spaces ',' comma) (by decide)
  rw [listed, whole, map_singleton, blank]
  rfl

/-- A list of permissions joined by a comma names the pairs of both. -/
theorem listed_append (first second : String) :
    listed (first ++ "," ++ second) = listed first ++ listed second := by
  have joined := Oidc.split_append first second ','
  rw [show ','.toString = "," from rfl] at joined
  rw [listed, joined, map_append, claimPairs, filterMap_append]
  rfl

theorem allGrant_append (useful : AllGrant first) (alsoUseful : AllGrant second) :
    AllGrant (first ++ "," ++ second) := by
  intro entry member
  have joined := Oidc.split_append first second ','
  rw [show ','.toString = "," from rfl] at joined
  rw [joined, map_append, mem_append] at member
  exact member.elim (useful entry) (alsoUseful entry)

section

variable (toLower : String → String)

/-- A rule is written as a selector and a list of permissions. -/
structure Written (raw kind value permissions : String) : Prop where
  selector : ∃ selector, cut (trimSpace raw) '=' = some (selector, permissions) ∧
    cut (trimSpace selector) ':' = some (kind, value)

/-- The selector of a rule is the email, or the part of it after its last at sign, when both are
trimmed and in lower case. -/
def Selects (raw email : String) : Prop :=
  ∃ kind value permissions, Written raw kind value permissions ∧
    (canonical toLower kind = "email" ∧ canonical toLower value = canonical toLower email ∨
      canonical toLower kind = "domain" ∧ ∃ user,
        cutAtLast (canonical toLower email) '@' = some (user, canonical toLower value))

/-- A rule lists a pair among its permissions. -/
def Lists (raw : String) (pair : NamespacePermission) : Prop :=
  ∃ kind value permissions, Written raw kind value permissions ∧ pair ∈ listed permissions

/-- A pair applies to an email when a rule that selects the email lists it, or when no rule selects
the email and the default lists it. -/
def Applies (rules : List String) (defaultPermissions email : String)
    (pair : NamespacePermission) : Prop :=
  (∃ raw ∈ rules, Selects toLower raw email ∧ Lists raw pair) ∨
    (∀ raw ∈ rules, ¬ Selects toLower raw email) ∧ pair ∈ listed defaultPermissions

end

theorem Written.unique (written : Written raw kind value permissions)
    (other : Written raw otherKind otherValue otherPermissions) :
    kind = otherKind ∧ value = otherValue ∧ permissions = otherPermissions := by
  obtain ⟨selector, outer, inner⟩ := written.selector
  obtain ⟨otherSelector, otherOuter, otherInner⟩ := other.selector
  rw [outer] at otherOuter
  cases otherOuter
  rw [inner] at otherInner
  cases otherInner
  exact ⟨rfl, rfl, rfl⟩

variable {toLower : String → String}

/-- A selector is an email or a domain, spelled canonically. -/
theorem checkSelector_eq_ok_iff {selectorKind : SelectorKind} :
    checkSelector toLower kind value = .ok selectorKind ↔
      canonical toLower kind = selectorKind.text ∧
        match selectorKind with
        | .email => isAddress (canonical toLower value) = true
        | .domain => isDomain (canonical toLower value) = true := by
  unfold checkSelector
  cases selectorKind with
  | email =>
    by_cases email : canonical toLower kind = SelectorKind.email.text
    · rw [if_pos email]
      cases isAddress (canonical toLower value) <;> simp [email]
    · rw [if_neg email]
      split
      · split <;> simp [email]
      · split <;> simp [email]
  | domain =>
    by_cases email : canonical toLower kind = SelectorKind.email.text
    · rw [if_pos email]
      have other : canonical toLower kind ≠ SelectorKind.domain.text := by
        rw [email]
        decide
      split <;> simp [other]
    · rw [if_neg email]
      by_cases domain : canonical toLower kind = SelectorKind.domain.text
      · rw [if_pos domain]
        cases isDomain (canonical toLower value) <;> simp [domain]
      · rw [if_neg domain]
        split <;> simp [domain]

/-- This is what a rule's text must be, and what the rule then is. -/
structure Reads (toLower : String → String) (raw kind value permissions : String)
    (rule : Rule) : Prop where
  written : Written raw kind value permissions
  checked : checkSelector toLower kind value = .ok rule.kind
  filled : trimSpace permissions ≠ ""
  useful : AllGrant permissions
  value_eq : rule.value = canonical toLower value
  grant_eq : rule.grant = Grant.new (listed permissions)

variable {index : Nat}

/-- A rule is read exactly when its text has the parts of one. -/
theorem readRule_eq_ok_iff : readRule toLower index raw = .ok rule ↔
      rule.index = index ∧ rule.raw = raw ∧
        ∃ kind value permissions, Reads toLower raw kind value permissions rule := by
  constructor
  · intro read
    unfold readRule at read
    cases outer : cut (trimSpace raw) '=' with
    | none => rw [outer] at read; cases read
    | some parts =>
      obtain ⟨selector, permissions⟩ := parts
      rw [outer] at read
      simp only at read
      cases inner : cut (trimSpace selector) ':' with
      | none => rw [inner] at read; cases read
      | some parts =>
        obtain ⟨kind, value⟩ := parts
        rw [inner] at read
        simp only at read
        cases checked : checkSelector toLower kind value with
        | error cause => rw [checked] at read; cases read
        | ok selectorKind =>
          rw [checked] at read
          simp only at read
          by_cases blank : trimSpace permissions = ""
          · rw [if_pos blank] at read
            cases read
          · rw [if_neg blank] at read
            cases parsed : Perms.parseConfig (split permissions ',') with
            | error cause => rw [parsed] at read; cases read
            | ok grant =>
              rw [parsed] at read
              cases read
              obtain ⟨useful, grantEq⟩ := Perms.parseConfig_eq_ok_iff.mp parsed
              exact ⟨rfl, rfl, kind, value, permissions, ⟨selector, outer, inner⟩, checked,
                blank, useful, rfl, grantEq⟩
  · rintro ⟨rfl, rfl, kind, value, permissions, ⟨⟨selector, outer, inner⟩⟩, checked, filled,
      useful, valueEq, grantEq⟩
    have parsed := Perms.parseConfig_eq_ok_iff.mpr ⟨useful, grantEq⟩
    simp only [readRule, outer, inner, checked, if_neg filled, parsed, ← valueEq]

/-- A rule's text is valid at any index. -/
def Valid (toLower : String → String) (raw : String) : Prop :=
  ∃ rule kind value permissions, Reads toLower raw kind value permissions rule

/-- The rules are those of the texts, and each text has one. -/
theorem parseRules_eq_ok {rules : List Rule} (parsed : parseRules toLower index raws = .ok rules) :
    (∀ rule ∈ rules, ∃ raw ∈ raws, ∃ kind value permissions,
      Reads toLower raw kind value permissions rule) ∧
    ∀ raw ∈ raws, ∃ rule ∈ rules, ∃ kind value permissions,
      Reads toLower raw kind value permissions rule := by
  induction raws generalizing index rules with
  | nil => cases parsed; exact ⟨nofun, nofun⟩
  | cons raw rest ih =>
    rw [parseRules, parseRule] at parsed
    cases read : readRule toLower index raw with
    | error cause => rw [read] at parsed; cases parsed
    | ok rule =>
      rw [read] at parsed
      cases later : parseRules toLower (index + 1) rest with
      | error cause => simp only [later] at parsed; cases parsed
      | ok others =>
        simp only [later] at parsed
        cases parsed
        obtain ⟨-, -, reading⟩ := readRule_eq_ok_iff.mp read
        obtain ⟨sound, complete⟩ := ih later
        constructor
        · intro other member
          rcases mem_cons.mp member with rfl | member
          · exact ⟨raw, mem_cons_self, reading⟩
          · obtain ⟨found, foundMember, read⟩ := sound other member
            exact ⟨found, mem_cons_of_mem _ foundMember, read⟩
        · intro other member
          rcases mem_cons.mp member with rfl | member
          · exact ⟨rule, mem_cons_self, reading⟩
          · obtain ⟨found, foundMember, read⟩ := complete other member
            exact ⟨found, mem_cons_of_mem _ foundMember, read⟩

theorem parseRules_of_valid {raws : List String} (valid : ∀ raw ∈ raws, Valid toLower raw) :
    ∃ rules, parseRules toLower index raws = .ok rules := by
  induction raws generalizing index with
  | nil => exact ⟨[], rfl⟩
  | cons raw rest ih =>
    obtain ⟨rule, kind, value, permissions, reading⟩ := valid raw mem_cons_self
    obtain ⟨others, later⟩ := @ih (index + 1) fun other member =>
      valid other (mem_cons_of_mem _ member)
    have read : readRule toLower index raw = .ok { rule with index := index, raw := raw } :=
      readRule_eq_ok_iff.mpr ⟨rfl, rfl, kind, value, permissions, reading.written,
        reading.checked, reading.filled, reading.useful, reading.value_eq, reading.grant_eq⟩
    exact ⟨_, by rw [parseRules, parseRule, read, later]; rfl⟩

theorem parseDefault_eq_ok {dflt : Grant} (parsed : parseDefault defaultPermissions = .ok dflt) :
    dflt = Grant.new (listed defaultPermissions) ∧
      ∀ pair ∈ listed defaultPermissions, pair.Grants := by
  rw [parseDefault] at parsed
  by_cases blank : trimSpace defaultPermissions = ""
  · rw [if_pos blank] at parsed
    cases parsed
    rw [listed_blank blank]
    exact ⟨rfl, nofun⟩
  · rw [if_neg blank] at parsed
    cases config : Perms.parseConfig (split defaultPermissions ',') with
    | error cause => rw [config] at parsed; cases parsed
    | ok grant =>
      rw [config] at parsed
      cases parsed
      obtain ⟨useful, grantEq⟩ := Perms.parseConfig_eq_ok_iff.mp config
      exact ⟨grantEq, fun pair member => grants_of_listed useful member⟩

theorem parse_eq_ok_iff : parse toLower raws defaultPermissions = .ok policy ↔
      parseRules toLower 0 raws = .ok policy.rules ∧
        parseDefault defaultPermissions = .ok policy.dflt := by
  rw [parse]
  cases parseRules toLower 0 raws with
  | error cause => exact ⟨nofun, fun both => nomatch both.1⟩
  | ok rules =>
    cases parseDefault defaultPermissions with
    | error cause => exact ⟨nofun, fun both => nomatch both.2⟩
    | ok dflt =>
      constructor
      · intro same
        cases same
        exact ⟨rfl, rfl⟩
      · rintro ⟨rulesEq, dfltEq⟩
        cases rulesEq
        cases dfltEq
        rfl

/-- The domain of a rule is not empty, so it is never taken for the missing domain of an email
without an at sign. -/
theorem eq_emailDomain_iff (domain : isDomain value = true) :
    value = emailDomain email ↔ ∃ user, cutAtLast email '@' = some (user, value) := by
  have filled : value ≠ "" := by
    rw [isDomain, Bool.and_eq_true, decide_eq_true_iff] at domain
    exact domain.1
  rw [emailDomain]
  cases cutAtLast email '@' with
  | none => simp only [filled, reduceCtorEq, exists_false]
  | some parts =>
    obtain ⟨user, found⟩ := parts
    simp only [Option.some.injEq, Prod.mk.injEq, exists_eq_left', eq_comm]

theorem selects_iff (written : Written raw kind value permissions) : Selects toLower raw email ↔
      canonical toLower kind = "email" ∧ canonical toLower value = canonical toLower email ∨
        canonical toLower kind = "domain" ∧ ∃ user,
          cutAtLast (canonical toLower email) '@' = some (user, canonical toLower value) := by
  constructor
  · rintro ⟨_, _, _, otherWritten, selected⟩
    obtain ⟨rfl, rfl, rfl⟩ := written.unique otherWritten
    exact selected
  · intro selected
    exact ⟨kind, value, permissions, written, selected⟩

theorem Reads.matches_iff (reading : Reads toLower raw kind value permissions rule) :
    rule.matches (canonical toLower email) (emailDomain (canonical toLower email)) = true ↔
      Selects toLower raw email := by
  obtain ⟨kindEq, allowed⟩ := checkSelector_eq_ok_iff.mp reading.checked
  rw [selects_iff reading.written, Rule.matches, reading.value_eq]
  cases selected : rule.kind with
  | email =>
    rw [selected] at kindEq
    have other : ("email" : String) ≠ "domain" := by decide
    simp [kindEq, SelectorKind.text, other]
  | domain =>
    rw [selected] at kindEq allowed
    have other : ("domain" : String) ≠ "email" := by decide
    simp only [kindEq, SelectorKind.text, true_and, other, false_and, false_or,
      decide_eq_true_eq]
    exact eq_emailDomain_iff allowed

theorem Reads.lists_iff (reading : Reads toLower raw kind value permissions rule) :
    Lists raw pair ↔ pair ∈ listed permissions := by
  constructor
  · rintro ⟨_, _, _, written, named⟩
    obtain ⟨rfl, rfl, rfl⟩ := reading.written.unique written
    exact named
  · intro named
    exact ⟨kind, value, permissions, reading.written, named⟩

/-- The grants that are merged are those of the matching rules, or the default when there are
none. -/
theorem Policy.mem_grants_iff {address : String} : grant ∈ policy.grants address ↔
      (∃ rule ∈ policy.rules, rule.matches address (emailDomain address) = true ∧
          rule.grant = grant) ∨
        (∀ rule ∈ policy.rules, ¬ rule.matches address (emailDomain address) = true) ∧
          grant = policy.dflt := by
  have none : (policy.matched address).isEmpty = true ↔
      ∀ rule ∈ policy.rules, ¬ rule.matches address (emailDomain address) = true := by
    rw [List.isEmpty_iff, matched, List.filter_eq_nil_iff]
  rw [grants]
  by_cases nobody : ∀ rule ∈ policy.rules, ¬ rule.matches address (emailDomain address) = true
  · rw [if_pos (none.mpr nobody), mem_singleton]
    constructor
    · exact fun same => Or.inr ⟨nobody, same⟩
    · rintro (⟨rule, member, matched, -⟩ | ⟨-, same⟩)
      · exact absurd matched (nobody rule member)
      · exact same
  · rw [if_neg (none.not.mpr nobody), matched]
    simp only [nobody, false_and, or_false, mem_map, mem_filter, and_assoc]

section

variable {raws : List String} {defaultPermissions : String} {policy : Policy}

variable (accepted : parse toLower raws defaultPermissions = .ok policy)

include accepted

/-- Every pair of a grant that is merged applies to the email. -/
theorem grant_applies (member : grant ∈ policy.grants (canonical toLower email)) :
    ∃ pairs, grant = Grant.new pairs ∧
      ∀ pair ∈ pairs, Applies toLower raws defaultPermissions email pair := by
  obtain ⟨rulesParsed, defaultParsed⟩ := parse_eq_ok_iff.mp accepted
  obtain ⟨sound, complete⟩ := parseRules_eq_ok rulesParsed
  rcases Policy.mem_grants_iff.mp member with ⟨rule, ruleMember, matched, rfl⟩ | ⟨nobody, rfl⟩
  · obtain ⟨raw, rawMember, kind, value, permissions, reading⟩ := sound rule ruleMember
    exact ⟨listed permissions, reading.grant_eq, fun pair named =>
      Or.inl ⟨raw, rawMember, reading.matches_iff.mp matched, reading.lists_iff.mpr named⟩⟩
  · refine ⟨listed defaultPermissions, (parseDefault_eq_ok defaultParsed).1,
      fun pair named => Or.inr ⟨fun raw rawMember selected => ?_, named⟩⟩
    obtain ⟨rule, ruleMember, kind, value, permissions, reading⟩ := complete raw rawMember
    exact nobody rule ruleMember (reading.matches_iff.mpr selected)

/-- Every pair that applies to the email is in a grant that is merged. -/
theorem exists_grant (applies : Applies toLower raws defaultPermissions email pair) :
    pair.Grants ∧ ∃ grant ∈ policy.grants (canonical toLower email), ∃ pairs,
      grant = Grant.new pairs ∧ pair ∈ pairs := by
  obtain ⟨rulesParsed, defaultParsed⟩ := parse_eq_ok_iff.mp accepted
  obtain ⟨sound, complete⟩ := parseRules_eq_ok rulesParsed
  rcases applies with ⟨raw, rawMember, selected, lists⟩ | ⟨nobody, named⟩
  · obtain ⟨rule, ruleMember, kind, value, permissions, reading⟩ := complete raw rawMember
    have named := reading.lists_iff.mp lists
    refine ⟨grants_of_listed reading.useful named, rule.grant, ?_, listed permissions,
      reading.grant_eq, named⟩
    exact Policy.mem_grants_iff.mpr
      (Or.inl ⟨rule, ruleMember, reading.matches_iff.mpr selected, rfl⟩)
  · obtain ⟨dfltEq, useful⟩ := parseDefault_eq_ok defaultParsed
    refine ⟨useful pair named, policy.dflt, Policy.mem_grants_iff.mpr (Or.inr ⟨?_, rfl⟩),
      listed defaultPermissions, dfltEq, named⟩
    intro rule ruleMember matched
    obtain ⟨raw, rawMember, kind, value, permissions, reading⟩ := sound rule ruleMember
    exact nobody raw rawMember (reading.matches_iff.mp matched)

/-- A resolved grant gives, on each namespace, the highest role that applies to the email. -/
theorem role_explain_iff :
    (policy.explain toLower email).grant.role name = some role ↔
      Highest (fun role => Applies toLower raws defaultPermissions email ⟨name, role⟩) role := by
  refine Grant.role_eq_some_iff (fun bound => ?_) (fun role held => ?_) (fun role applies => ?_)
  · change (Perms.merge _).level name ≤ bound ↔ _
    rw [Perms.level_merge_le_iff]
    constructor
    · intro below role applies
      obtain ⟨-, grant, member, pairs, rfl, named⟩ := exists_grant accepted applies
      have bounded := below _ (mem_map_of_mem member)
      exact Perms.level_new_le_iff.mp bounded _ named rfl
    · intro below grant member
      obtain ⟨found, foundMember, same⟩ := mem_map.mp member
      obtain rfl := Option.some.inj same
      obtain ⟨pairs, rfl, applies⟩ := grant_applies accepted foundMember
      rw [Perms.level_new_le_iff]
      rintro pair named rfl
      exact below pair.role (applies pair named)
  · obtain ⟨grant, member, given⟩ := Perms.role_merge held
    obtain ⟨found, foundMember, same⟩ := mem_map.mp member
    obtain rfl := Option.some.inj same
    obtain ⟨pairs, rfl, applies⟩ := grant_applies accepted foundMember
    exact applies _ (Perms.role_new given)
  · exact (exists_grant accepted applies).1.valid

theorem default_iff :
    (policy.explain toLower email).dflt = true ↔ ∀ raw ∈ raws, ¬ Selects toLower raw email := by
  obtain ⟨rulesParsed, -⟩ := parse_eq_ok_iff.mp accepted
  obtain ⟨sound, complete⟩ := parseRules_eq_ok rulesParsed
  rw [Policy.explain, List.isEmpty_iff, Policy.matched, List.filter_eq_nil_iff]
  constructor
  · intro nobody raw rawMember selected
    obtain ⟨rule, ruleMember, kind, value, permissions, reading⟩ := complete raw rawMember
    exact nobody rule ruleMember (reading.matches_iff.mpr selected)
  · intro nobody rule ruleMember matched
    obtain ⟨raw, rawMember, kind, value, permissions, reading⟩ := sound rule ruleMember
    exact nobody raw rawMember (reading.matches_iff.mp matched)

end

section

variable (accepted : parse toLower raws defaultPermissions = .ok policy)

include accepted

/-- Two policies under which the same pairs apply resolve every email alike. -/
theorem same_of_applies {other : Policy}
    (otherAccepted : parse toLower others defaultPermissions = .ok other)
    (applies : ∀ pair, Applies toLower raws defaultPermissions email pair ↔
      Applies toLower others defaultPermissions email pair) :
    (policy.explain toLower email).grant.Same (other.explain toLower email).grant := by
  intro name
  refine Option.ext fun role => ?_
  rw [role_explain_iff accepted, role_explain_iff otherAccepted]
  simp only [applies]

theorem valid_of_parse (member : raw ∈ raws) : Valid toLower raw := by
  obtain ⟨rulesParsed, -⟩ := parse_eq_ok_iff.mp accepted
  obtain ⟨rule, -, reading⟩ := (parseRules_eq_ok rulesParsed).2 raw member
  exact ⟨rule, reading⟩

/-- Rules that are valid are accepted with a default that was accepted before. -/
theorem parse_of_valid (valid : ∀ raw ∈ others, Valid toLower raw) :
    ∃ other, parse toLower others defaultPermissions = .ok other := by
  obtain ⟨rules, rulesParsed⟩ := @parseRules_of_valid toLower 0 others valid
  exact ⟨⟨rules, policy.dflt⟩, parse_eq_ok_iff.mpr ⟨rulesParsed, (parse_eq_ok_iff.mp accepted).2⟩⟩

/-- The order and the repetition of rules change no answer. -/
theorem resolve_congr (same : ∀ raw, raw ∈ others ↔ raw ∈ raws) :
    ∃ other, parse toLower others defaultPermissions = .ok other ∧
      ∀ email, (policy.explain toLower email).grant.Same (other.explain toLower email).grant := by
  obtain ⟨other, otherAccepted⟩ := parse_of_valid accepted fun raw member =>
    valid_of_parse accepted ((same raw).mp member)
  refine ⟨other, otherAccepted, fun email => same_of_applies accepted otherAccepted fun pair => ?_⟩
  simp only [Applies, same]

end

/-- Two rules are written as one, with the selector of the first and the permissions of both. -/
def joinRules (first second : String) : String :=
  match cut (trimSpace first) '=', cut (trimSpace second) '=' with
  | some (selector, permissions), some (_, others) =>
    selector ++ "=" ++ permissions ++ "," ++ others
  | _, _ => first

/-- Two rules have the same selector when it is the same after trimming and in lower case. -/
def SameSelector (toLower : String → String) (first second : String) : Prop :=
  ∃ kind value permissions otherKind otherValue otherPermissions,
    Written first kind value permissions ∧ Written second otherKind otherValue otherPermissions ∧
        canonical toLower kind = canonical toLower otherKind ∧
          canonical toLower value = canonical toLower otherValue

section

variable {text : String} {back : List Char} {separator : Char} {front : List Char}
  (whole : (trimSpace text).toList = front ++ separator :: back)

include whole

theorem head_not_space (later : List Char)
    (first : (front ++ separator :: later).head? = some char) : Oidc.isSpace char = false := by
  have trimmed := Foundation.trimmed_trim Oidc.isSpace text.toList
  rw [← Oidc.toList_trimSpace, whole] at trimmed
  refine trimmed.first char ?_
  cases front with
  | nil => exact first
  | cons head tail => exact first

theorem last_not_space (earlier : List Char)
    (last : (earlier ++ ',' :: back).getLast? = some char) : Oidc.isSpace char = false := by
  have trimmed := Foundation.trimmed_trim Oidc.isSpace text.toList
  rw [← Oidc.toList_trimSpace, whole] at trimmed
  cases back with
  | nil =>
    rw [List.getLast?_append_cons] at last
    cases last
    decide
  | cons head tail =>
    refine trimmed.last char ?_
    rw [List.getLast?_append_cons, List.getLast?_cons_cons] at last ⊢
    exact last

end

/-- The joined rule keeps the selector of the first rule. -/
theorem written_joinRules (written : Written first kind value permissions)
    (otherWritten : Written second otherKind otherValue otherPermissions) :
    Written (joinRules first second) kind value (permissions ++ "," ++ otherPermissions) := by
  obtain ⟨selector, outer, inner⟩ := written.selector
  obtain ⟨otherSelector, otherOuter, -⟩ := otherWritten.selector
  have joined : joinRules first second =
      selector ++ "=" ++ permissions ++ "," ++ otherPermissions := by
    rw [joinRules, outer, otherOuter]
  obtain ⟨whole, noEquals⟩ := Oidc.cut_eq_some_iff.mp outer
  obtain ⟨otherWhole, -⟩ := Oidc.cut_eq_some_iff.mp otherOuter
  have letters : (joinRules first second).toList = selector.toList ++ '=' ::
      (permissions.toList ++ ',' :: otherPermissions.toList) := by
    rw [joined]
    simp
  have trimmed : trimSpace (joinRules first second) = joinRules first second := by
    refine Oidc.trimSpace_eq_self ⟨fun char head => ?_, fun char last => ?_⟩
    · rw [letters] at head
      exact head_not_space whole _ head
    · rw [letters, ← cons_append, ← append_assoc] at last
      exact last_not_space otherWhole _ last
  refine ⟨selector, ?_, inner⟩
  rw [trimmed, Oidc.cut_eq_some_iff]
  refine ⟨?_, noEquals⟩
  rw [letters]
  simp

section

variable {first second kind value permissions otherKind otherValue otherPermissions : String}
  {rule other : Rule}

theorem Reads.joinRules (reading : Reads toLower first kind value permissions rule)
    (otherReading : Reads toLower second otherKind otherValue otherPermissions other) :
    Reads toLower (joinRules first second) kind value (permissions ++ "," ++ otherPermissions)
      { rule with grant := Grant.new (listed (permissions ++ "," ++ otherPermissions)) } where
  written := written_joinRules reading.written otherReading.written
  checked := reading.checked
  filled := by
    intro blank
    have spaces := Oidc.trimSpace_eq_empty_iff.mp blank
    exact absurd (spaces ',' (by simp)) (by decide)
  useful := allGrant_append reading.useful otherReading.useful
  value_eq := reading.value_eq
  grant_eq := rfl

end

/-- Two rules with one selector grant what the joined rule grants. -/
theorem resolve_joinRules {rest : List String}
    (accepted : parse toLower (first :: second :: rest) defaultPermissions = .ok policy)
    (same : SameSelector toLower first second) :
    ∃ other, parse toLower (joinRules first second :: rest) defaultPermissions = .ok other ∧
      ∀ email, (policy.explain toLower email).grant.Same (other.explain toLower email).grant := by
  obtain ⟨rule, kind, value, permissions, reading⟩ := valid_of_parse accepted mem_cons_self
  obtain ⟨otherRule, otherKind, otherValue, otherPermissions, otherReading⟩ :=
    valid_of_parse accepted (mem_cons_of_mem _ mem_cons_self)
  have joined := reading.joinRules otherReading
  have valid : ∀ raw ∈ joinRules first second :: rest, Valid toLower raw := by
    refine forall_mem_cons.mpr ⟨⟨_, kind, value, _, joined⟩, fun raw member => ?_⟩
    exact valid_of_parse accepted (mem_cons_of_mem _ (mem_cons_of_mem _ member))
  obtain ⟨other, otherAccepted⟩ := parse_of_valid accepted valid
  have kindEq : canonical toLower kind = canonical toLower otherKind ∧
      canonical toLower value = canonical toLower otherValue := by
    obtain ⟨_, _, _, _, _, _, written, otherWritten, kinds, values⟩ := same
    obtain ⟨rfl, rfl, rfl⟩ := reading.written.unique written
    obtain ⟨rfl, rfl, rfl⟩ := otherReading.written.unique otherWritten
    exact ⟨kinds, values⟩
  refine ⟨other, otherAccepted, fun email => same_of_applies accepted otherAccepted fun pair => ?_⟩
  have secondSelects : Selects toLower second email ↔ Selects toLower first email := by
    rw [selects_iff reading.written, selects_iff otherReading.written, kindEq.1, kindEq.2]
  have joinedSelects : Selects toLower (joinRules first second) email ↔
      Selects toLower first email := by
    rw [selects_iff joined.written, selects_iff reading.written]
  have joinedLists :
      Lists (joinRules first second) pair ↔ Lists first pair ∨ Lists second pair := by
    rw [joined.lists_iff, reading.lists_iff, otherReading.lists_iff, listed_append, mem_append]
  simp only [Applies, exists_mem_cons_iff, forall_mem_cons, secondSelects,
    joinedSelects, joinedLists, and_or_left, and_self_left, or_assoc]

/-- A resolved grant holds no pair that could authorize nothing. -/
theorem explain_grants (accepted : parse toLower raws defaultPermissions = .ok policy)
    (held : (policy.explain toLower email).grant.role name = some role) :
    name ≠ Perms.wildcard ∧ role ≠ Perms.roleWorker := by
  have applies := ((role_explain_iff accepted).mp held).1
  have grants := (exists_grant accepted applies).1
  exact ⟨grants.notWildcard, grants.notWorker⟩

/-- A policy grants each email the highest role that its matching rules list on each namespace, or
the default when no rule matches, and the way the rules are written down changes no answer. -/
theorem policy_grants_matching_rules {raws : List String} {defaultPermissions : String}
    {policy : Policy} (accepted : parse toLower raws defaultPermissions = .ok policy) :
    (∀ email, policy.resolve toLower email = .ok (policy.explain toLower email).grant ∧
      ((policy.explain toLower email).dflt = true ↔ ∀ raw ∈ raws, ¬ Selects toLower raw email) ∧
      ∀ namespaceName role, ((policy.explain toLower email).grant.role namespaceName = some role ↔
          Highest (fun role =>
            Applies toLower raws defaultPermissions email ⟨namespaceName, role⟩) role) ∧
        ((policy.explain toLower email).grant.role namespaceName = some role →
          namespaceName ≠ Perms.wildcard ∧ role ≠ Perms.roleWorker)) ∧
    (∀ others : List String, (∀ raw, raw ∈ others ↔ raw ∈ raws) →
      ∃ other, parse toLower others defaultPermissions = .ok other ∧ ∀ email,
          (policy.explain toLower email).grant.Same (other.explain toLower email).grant) ∧
    ∀ first second rest, raws.Perm (first :: second :: rest) → SameSelector toLower first second →
      ∃ other, parse toLower (joinRules first second :: rest) defaultPermissions = .ok other ∧
        ∀ email, (policy.explain toLower email).grant.Same (other.explain toLower email).grant := by
  refine ⟨fun email => ⟨rfl, default_iff accepted, fun namespaceName role =>
    ⟨role_explain_iff accepted, explain_grants accepted⟩⟩, fun others same =>
    resolve_congr accepted same, ?_⟩
  intro first second rest order same
  obtain ⟨moved, movedAccepted, movedSame⟩ := resolve_congr accepted fun raw => order.mem_iff.symm
  obtain ⟨other, otherAccepted, otherSame⟩ := resolve_joinRules movedAccepted same
  exact ⟨other, otherAccepted, fun email namespaceName =>
    (movedSame email namespaceName).trans (otherSame email namespaceName)⟩

/-- Alice's own rule and the rule for the domain both match. -/
theorem policy_grants_alice :
    ∃ policy, parse id ["domain:example.com=orders:read", "email:alice@example.com=orders:write"]
        "" = .ok policy ∧
      Highest (fun role => Applies id
        ["domain:example.com=orders:read", "email:alice@example.com=orders:write"]
        "" "alice@example.com" ⟨"orders", role⟩) "write" := by
  have computed : (parse id ["domain:example.com=orders:read",
      "email:alice@example.com=orders:write"] "").toOption.bind (fun policy =>
        (policy.explain id "alice@example.com").grant.role "orders") = some "write" := by
    decide +kernel
  generalize accepted : parse id ["domain:example.com=orders:read",
    "email:alice@example.com=orders:write"] "" = parsed at computed
  cases parsed with
  | error cause => cases computed
  | ok policy =>
    exact ⟨policy, rfl, (((policy_grants_matching_rules accepted).1
      "alice@example.com").2.2 "orders" "write").1.mp computed⟩

end Tempogate.Authz
