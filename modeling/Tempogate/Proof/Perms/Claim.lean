/-
This file proves that a permissions claim keeps the meaning of the grant it is written from.
-/

import Mathlib.Order.Bounds.Basic
import Tempogate.Construction.Perms.Grant

namespace Tempogate.Perms

open List Grant

variable {parsed : Grant} {others : List (Option Grant)} {entries : List String} {other : String}
  {power index bound : Nat}

/-- A namespace without a role lies below every role, and roles lie as their bits. -/
def level : Option Role → Nat
  | none => 0
  | some role => role.bits + 1

def Grant.level (grant : Grant) (name : String) : Nat :=
  Perms.level (grant.role name)

/-- Two grants are the same map. -/
def Grant.Same (grant other : Grant) : Prop :=
  ∀ name, grant.role name = other.role name

/-- The four roles Temporal knows are the canonical ones. -/
def Grant.Canonical (grant : Grant) : Prop :=
  ∀ name role, grant.role name = some role → role.valid = true

variable {role : Role} {grant : Grant} {name : String} {pair : NamespacePermission}
  {grants : List (Option Grant)} {claim : List String} {pairs : List NamespacePermission}

theorem valid_cases (valid : role.valid = true) :
    role = roleWorker ∨ role = roleRead ∨ role = roleWrite ∨ role = roleAdmin := by
  simp only [Role.valid, roleBits, lookup_cons] at valid
  grind

theorem bits_injective {first second : Role} (firstValid : first.valid = true)
    (secondValid : second.valid = true) (same : first.bits = second.bits) : first = second := by
  rcases valid_cases firstValid with rfl | rfl | rfl | rfl <;>
    rcases valid_cases secondValid with rfl | rfl | rfl | rfl <;>
      first | rfl | exact absurd same (by decide)

/-- A role the mask does not know has no bit, and the others have one. -/
theorem bits_cases (role : Role) : role.bits = 0 ∨ ∃ power, role.bits = 2 ^ power := by
  by_cases valid : role.valid = true
  · rcases valid_cases valid with rfl | rfl | rfl | rfl
    · exact .inr ⟨0, by decide⟩
    · exact .inr ⟨1, by decide⟩
    · exact .inr ⟨2, by decide⟩
    · exact .inr ⟨3, by decide⟩
  · refine .inl ?_
    have absent : roleBits.lookup role = none := by
      simpa only [Role.valid, Bool.not_eq_true, Option.isSome_eq_false_iff,
        Option.isNone_iff_eq_none] using valid
    rw [Role.bits, absent, Option.getD_none]

theorem colon_not_mem (valid : role.valid = true) : ':' ∉ role.toList := by
  rcases valid_cases valid with rfl | rfl | rfl | rfl <;> decide

namespace Grant

theorem role_add_of_ne (grant : Grant) (role : Role) (different : other ≠ name) :
    (grant.add name role).role other = grant.role other := by
  have inserted : (mk (grant.perms.insert name role)).role other =
      grant.role other := AList.lookup_insert_ne different
  unfold add
  split
  · exact inserted
  · split
    · exact inserted
    · rfl

theorem role_add_self (grant : Grant) (name : String) (role : Role) :
    (grant.add name role).role name = some role ∧ grant.level name ≤ role.bits + 1 ∨
      (grant.add name role).role name = grant.role name ∧ role.bits + 1 ≤ grant.level name := by
  have inserted : (mk (grant.perms.insert name role)).role name =
      some role := AList.lookup_insert _
  unfold add
  cases held : grant.role name with
  | none => exact .inl ⟨inserted, by simp [level, held, Perms.level]⟩
  | some current =>
    by_cases higher : role.bits > current.bits
    · simp only [if_pos higher]
      exact .inl ⟨inserted, by simp only [level, held, Perms.level]; omega⟩
    · simp only [if_neg higher]
      exact .inr ⟨held, by simp only [level, held, Perms.level]; omega⟩

theorem level_add_of_ne (grant : Grant) (role : Role) (different : other ≠ name) :
    (grant.add name role).level other = grant.level other := by
  rw [level, role_add_of_ne grant role different, level]

theorem level_add_self (grant : Grant) (name : String) (role : Role) :
    (grant.add name role).level name = max (grant.level name) (role.bits + 1) := by
  rcases role_add_self grant name role with ⟨taken, below⟩ | ⟨kept, above⟩
  · rw [max_eq_right below, level, taken, Perms.level]
  · rw [max_eq_left above, level, kept, level]

/-- The level after some pairs were added is the least one that bounds them. -/
theorem level_addAll_le_iff (grant : Grant) (pairs : List NamespacePermission)
    (name : String) (bound : Nat) :
    (grant.addAll pairs).level name ≤ bound ↔ grant.level name ≤ bound ∧
        ∀ pair ∈ pairs, pair.namespaceName = name → pair.role.bits + 1 ≤ bound := by
  induction pairs generalizing grant with
  | nil => simp only [addAll, foldl_nil, not_mem_nil, false_implies, implies_true,
      and_true]
  | cons pair rest ih =>
    have step := ih (grant.add pair.namespaceName pair.role)
    rw [addAll, foldl_cons, ← addAll, step, forall_mem_cons, ← and_assoc]
    refine and_congr_left fun _ => ?_
    by_cases same : pair.namespaceName = name
    · subst same
      rw [level_add_self, max_le_iff]
      simp
    · rw [level_add_of_ne grant pair.role (Ne.symm same)]
      simp [same]

/-- A role that a grant has after some pairs were added comes from the grant or from a pair. -/
theorem role_addAll (grant : Grant) (pairs : List NamespacePermission)
    (held : (grant.addAll pairs).role name = some role) :
    grant.role name = some role ∨ ⟨name, role⟩ ∈ pairs := by
  induction pairs generalizing grant with
  | nil => exact .inl held
  | cons pair rest ih =>
    rcases ih (grant.add pair.namespaceName pair.role) held with
      before | later
    · by_cases same : name = pair.namespaceName
      · subst same
        rcases role_add_self grant pair.namespaceName pair.role with ⟨taken, -⟩ | ⟨kept, -⟩
        · obtain rfl := Option.some.inj (taken.symm.trans before)
          exact .inr (mem_cons_self)
        · exact .inl (kept ▸ before)
      · exact .inl (role_add_of_ne grant pair.role same ▸ before)
    · exact .inr (mem_cons_of_mem _ later)

theorem level_new (name : String) : (new []).level name = 0 := rfl

theorem mem_pairs_iff : pair ∈ grant.pairs ↔ grant.role pair.namespaceName = some pair.role := by
  rw [role, ← Option.mem_def, AList.mem_lookup_iff, pairs, mem_map]
  constructor
  · rintro ⟨entry, held, rfl⟩
    exact held
  · intro held
    exact ⟨_, held, rfl⟩

theorem level_le_iff : grant.level name ≤ bound ↔
      ∀ role, grant.role name = some role → role.bits + 1 ≤ bound := by
  rw [level]
  cases grant.role name with
  | none => simp only [Perms.level, Nat.zero_le, reduceCtorEq, false_implies, implies_true]
  | some role => simp [Perms.level]

theorem mem_namespaces_iff :
    pair ∈ grant.namespaces ↔ grant.role pair.namespaceName = some pair.role := by
  rw [namespaces, mem_insertionSort, mem_pairs_iff]

theorem namespaces_ascending (grant : Grant) :
    (grant.namespaces.map NamespacePermission.namespaceName).Pairwise (· < ·) := by
  have distinct : (grant.pairs.map NamespacePermission.namespaceName).Nodup := by
    rw [pairs, map_map]
    exact grant.perms.nodupKeys
  have order := (perm_insertionSort (fun first second : NamespacePermission =>
    first.namespaceName ≤ second.namespaceName) grant.pairs).map NamespacePermission.namespaceName
  have sorted : (grant.namespaces.map NamespacePermission.namespaceName).Pairwise (· ≤ ·) := by
    rw [pairwise_map]
    exact pairwise_insertionSort _ _
  exact sorted.imp₂ (fun first second below different => lt_of_le_of_ne below different)
    (order.nodup_iff.mpr distinct)

/-- Canonical grants with the same levels are the same map. -/
theorem same_of_level_eq {other : Grant} (canonical : grant.Canonical)
    (otherCanonical : other.Canonical)
    (levels : ∀ name, grant.level name = other.level name) :
    grant.Same other := by
  intro name
  have same := levels name
  rw [level, level] at same
  cases held : grant.role name with
  | none =>
    cases otherHeld : other.role name with
    | none => rfl
    | some role => simp [held, otherHeld, Perms.level] at same
  | some role =>
    cases otherHeld : other.role name with
    | none => simp [held, otherHeld, Perms.level] at same
    | some otherRole =>
      have bits : role.bits = otherRole.bits := by
        simpa [held, otherHeld, Perms.level] using same
      rw [bits_injective (canonical _ _ held) (otherCanonical _ _ otherHeld) bits]

end Grant

theorem Grant.level_absorb_le_iff (sum : Grant) (grant : Option Grant) (name : String)
    (bound : Nat) :
    (sum.absorb grant).level name ≤ bound ↔
      sum.level name ≤ bound ∧ ∀ given, grant = some given → given.level name ≤ bound := by
  cases grant with
  | none => simp only [absorb, reduceCtorEq, false_implies, implies_true, and_true]
  | some given =>
    rw [absorb, level_addAll_le_iff]
    simp only [Option.some.injEq, forall_eq', level_le_iff, mem_pairs_iff]
    refine and_congr_right fun _ => ⟨fun below role held => ?_, fun below pair held same => ?_⟩
    · exact below ⟨name, role⟩ held rfl
    · exact below pair.role (same ▸ held)

/-- The level of a merge is the least one that bounds the grants. -/
theorem level_merge_le_iff (grants : List (Option Grant)) (name : String) (bound : Nat) :
    (merge grants).level name ≤ bound ↔
      ∀ grant, some grant ∈ grants → grant.level name ≤ bound := by
  suffices general : ∀ sum : Grant, (grants.foldl absorb sum).level name ≤ bound ↔
      sum.level name ≤ bound ∧ ∀ grant, some grant ∈ grants → grant.level name ≤ bound by
    rw [merge, general, level_new]
    simp
  induction grants with
  | nil => simp only [foldl_nil, not_mem_nil, false_implies, implies_true, and_true]
  | cons first rest ih =>
    intro sum
    rw [foldl_cons, ih, level_absorb_le_iff, and_assoc]
    refine and_congr_right fun _ => ?_
    simp only [mem_cons, or_imp, forall_and, eq_comm]

theorem role_merge (held : (merge grants).role name = some role) :
    ∃ grant, some grant ∈ grants ∧ grant.role name = some role := by
  suffices general : ∀ sum : Grant, (grants.foldl absorb sum).role name = some role →
      sum.role name = some role ∨ ∃ grant, some grant ∈ grants ∧ grant.role name = some role by
    exact (general _ held).resolve_left (by rintro ⟨⟩)
  clear held
  induction grants with
  | nil => exact fun sum held => .inl held
  | cons first rest ih =>
    intro sum held
    rcases ih _ held with before | ⟨grant, member, given⟩
    · cases first with
      | none => exact .inl before
      | some grant =>
        rcases role_addAll sum grant.pairs before with earlier | pair
        · exact .inl earlier
        · exact .inr ⟨grant, mem_cons_self, mem_pairs_iff.mp pair⟩
    · exact .inr ⟨grant, mem_cons_of_mem _ member, given⟩

/-- On every namespace a merge is the least upper bound of its grants. -/
theorem isLUB_merge (grants : List (Option Grant)) (name : String) :
    IsLUB {bound | ∃ grant, some grant ∈ grants ∧ grant.level name = bound}
      ((merge grants).level name) := by
  rw [isLUB_iff_le_iff]
  intro bound
  rw [level_merge_le_iff]
  constructor
  · rintro below _ ⟨grant, member, rfl⟩
    exact below grant member
  · intro above grant member
    exact above ⟨grant, member, rfl⟩

theorem level_merge_congr (same : ∀ grant, some grant ∈ grants ↔ some grant ∈ others)
    (name : String) : (merge grants).level name = (merge others).level name := by
  refine eq_of_forall_ge_iff fun bound => ?_
  rw [level_merge_le_iff, level_merge_le_iff]
  exact forall_congr' fun grant => imp_congr_left (same grant)

theorem canonical_merge (canonical : ∀ grant, some grant ∈ grants → grant.Canonical) :
    (merge grants).Canonical := by
  intro name role held
  obtain ⟨grant, member, given⟩ := role_merge held
  exact canonical grant member name role given

/-- The merge of canonical grants does not depend on their order or on repetitions. -/
theorem merge_congr (same : ∀ grant, some grant ∈ grants ↔ some grant ∈ others)
    (canonical : ∀ grant, some grant ∈ grants → grant.Canonical) :
    (merge grants).Same (merge others) :=
  same_of_level_eq (canonical_merge canonical)
    (canonical_merge fun grant member => canonical grant ((same grant).mpr member))
    (level_merge_congr same)

theorem splitEntry_render (noColon : ':' ∉ pair.role.toList) :
    splitEntry (pair.namespaceName ++ ":" ++ pair.role) = some pair := by
  have parts : Oidc.cutAtLast (pair.namespaceName ++ ":" ++ pair.role) ':' =
      some (pair.namespaceName, pair.role) := by
    rw [Oidc.cutAtLast_eq_some_iff]
    exact ⟨by simp, noColon⟩
  rw [splitEntry, parts, Option.map_some]

theorem checkEntry_eq_ok_iff {entry : String} : checkEntry entry = .ok pair ↔
      splitEntry entry = some pair ∧ pair.namespaceName ≠ "" ∧ pair.role.valid = true := by
  unfold checkEntry
  cases splitEntry entry with
  | none => simp only [reduceCtorEq, false_and]
  | some found =>
    simp only [Option.some.injEq]
    constructor
    · intro accepted
      split at accepted
      · cases accepted
      · split at accepted
        · cases accepted
        · cases accepted
          rename_i named invalid
          exact ⟨rfl, named, by simpa using invalid⟩
    · rintro ⟨rfl, named, valid⟩
      rw [if_neg named, valid]
      rfl

/-- The parser adds the pairs of its entries in their order. -/
theorem parseFrom_eq_ok_iff :
    parseFrom index grant claim = .ok parsed ↔ ∃ pairs : List NamespacePermission,
        claim.map checkEntry = pairs.map .ok ∧ parsed = grant.addAll pairs := by
  induction claim generalizing index grant with
  | nil =>
    simp only [parseFrom, Except.ok.injEq, map_nil, nil_eq, map_eq_nil_iff]
    constructor
    · rintro rfl
      exact ⟨[], rfl, rfl⟩
    · rintro ⟨_, rfl, rfl⟩
      rfl
  | cons entry rest ih =>
    rw [parseFrom]
    cases checked : checkEntry entry with
    | error cause =>
      simp only [reduceCtorEq, map_cons, checked, false_iff, not_exists, not_and]
      rintro pairs accepted
      cases pairs <;> simp at accepted
    | ok pair =>
      simp only
      rw [ih]
      constructor
      · rintro ⟨pairs, accepted, rfl⟩
        exact ⟨pair :: pairs, by rw [map_cons, checked, accepted, map_cons], rfl⟩
      · rintro ⟨pairs, accepted, rfl⟩
        cases pairs with
        | nil => simp at accepted
        | cons first later =>
          rw [map_cons, checked, map_cons, List.cons.injEq] at accepted
          obtain ⟨same, accepted⟩ := accepted
          cases same
          exact ⟨later, accepted, rfl⟩

theorem parseClaim_eq_ok_iff : parseClaim claim = .ok parsed ↔
      ∃ pairs : List NamespacePermission,
        claim.map checkEntry = pairs.map .ok ∧ parsed = new pairs :=
  parseFrom_eq_ok_iff

/-- These are the pairs that a claim's entries name. -/
def claimPairs (claim : List String) : List NamespacePermission := claim.filterMap splitEntry

theorem claimPairs_of_checked (checked : claim.map checkEntry = pairs.map .ok) :
    claimPairs claim = pairs := by
  induction claim generalizing pairs with
  | nil =>
    cases pairs with
    | nil => rfl
    | cons pair rest => simp at checked
  | cons entry later ih =>
    cases pairs with
    | nil => simp at checked
    | cons pair rest =>
      obtain ⟨first, others⟩ := List.cons.inj checked
      have found := (checkEntry_eq_ok_iff.mp first).1
      rw [claimPairs, filterMap_cons_some found, ← claimPairs, ih others]

/-- The entries of a canonical grant without an empty namespace pass the parser's checks. -/
theorem checked_toClaim (canonical : grant.Canonical) (named : grant.role "" = none) :
    grant.toClaim.map checkEntry = grant.namespaces.map .ok := by
  rw [toClaim, map_map]
  refine map_congr_left fun pair member => ?_
  have held := mem_namespaces_iff.mp member
  have valid := canonical _ _ held
  refine checkEntry_eq_ok_iff.mpr ⟨splitEntry_render (colon_not_mem valid), ?_, valid⟩
  intro blank
  rw [blank, named] at held
  cases held

theorem level_new_le_iff : (new pairs).level name ≤ bound ↔
      ∀ pair ∈ pairs, pair.namespaceName = name → pair.role.bits + 1 ≤ bound := by
  rw [new, level_addAll_le_iff]
  exact and_iff_right (Nat.zero_le bound)

theorem level_new_namespaces (grant : Grant) (name : String) :
    (new grant.namespaces).level name = grant.level name := by
  refine eq_of_forall_ge_iff fun bound => ?_
  rw [level_new_le_iff, level_le_iff]
  constructor
  · intro below role held
    exact below ⟨name, role⟩ (mem_namespaces_iff.mpr held) rfl
  · intro below pair member same
    exact below pair.role (same ▸ mem_namespaces_iff.mp member)

theorem role_new (held : (new pairs).role name = some role) : ⟨name, role⟩ ∈ pairs :=
  (role_addAll _ pairs held).resolve_left (by rintro ⟨⟩)

theorem canonical_new (valid : ∀ pair ∈ pairs, pair.role.valid = true) :
    (new pairs).Canonical :=
  fun _ _ held => valid _ (role_new held)

theorem parseClaim_toClaim (canonical : grant.Canonical) (named : grant.role "" = none) :
    ∃ parsed, parseClaim grant.toClaim = .ok parsed ∧ parsed.Same grant := by
  refine ⟨new grant.namespaces,
    parseClaim_eq_ok_iff.mpr ⟨_, checked_toClaim canonical named, rfl⟩, ?_⟩
  refine same_of_level_eq (canonical_new fun pair member => ?_) canonical
    (level_new_namespaces grant)
  exact canonical _ _ (mem_namespaces_iff.mp member)

/-- Temporal's claim mapper takes the bits of all entries of a namespace together. -/
def mask (claim : List String) (name : String) : Nat :=
  (claimPairs claim).foldr (fun pair rest =>
    if pair.namespaceName = name then pair.role.bits ||| rest else rest) 0

/-- Temporal's authorizer takes the mask of the system namespace and the mask of the namespace
together and compares them with the bit that a call needs. -/
def allows (claim : List String) (name : String) (required : Role) : Bool :=
  required.bits ≤ mask claim systemNamespace ||| mask claim name

theorem two_pow_le_or_iff {first second : Nat} :
    2 ^ power ≤ first ||| second ↔ 2 ^ power ≤ first ∨ 2 ^ power ≤ second := by
  constructor
  · intro above
    by_contra neither
    obtain ⟨firstBelow, secondBelow⟩ := not_or.mp neither
    exact absurd above
      (Nat.not_le.mpr (Nat.or_lt_two_pow (Nat.not_le.mp firstBelow) (Nat.not_le.mp secondBelow)))
  · rintro (above | above)
    · exact above.trans Nat.left_le_or
    · exact above.trans Nat.right_le_or

theorem two_pow_le_mask_iff : 2 ^ power ≤ mask claim name ↔
      ∃ pair ∈ claimPairs claim, pair.namespaceName = name ∧ 2 ^ power ≤ pair.role.bits := by
  rw [mask]
  induction claimPairs claim with
  | nil =>
    simp only [foldr_nil, nonpos_iff_eq_zero, not_mem_nil, false_and, exists_false,
      iff_false]
    exact (Nat.two_pow_pos power).ne'
  | cons pair rest ih =>
    rw [foldr_cons, exists_mem_cons_iff]
    by_cases same : pair.namespaceName = name
    · rw [if_pos same, two_pow_le_or_iff, ih]
      simp [same]
    · rw [if_neg same, ih]
      simp [same]

/-- The comparison asks for one entry with the bit or a higher one. -/
theorem allows_iff {required : Role} : allows claim name required = true ↔
      required.bits = 0 ∨ ∃ pair ∈ claimPairs claim,
        (pair.namespaceName = systemNamespace ∨ pair.namespaceName = name) ∧
          required.bits ≤ pair.role.bits := by
  rw [allows, decide_eq_true_iff]
  rcases bits_cases required with none | ⟨power, bit⟩
  · simp [none]
  · rw [bit, two_pow_le_or_iff, two_pow_le_mask_iff, two_pow_le_mask_iff]
    simp only [(Nat.two_pow_pos power).ne', false_or, or_and_right, and_or_left, exists_or]

/-- An entry with the bit is there exactly when the level of the namespace lies above it. -/
theorem bits_lt_level_iff {bits : Nat} : bits < (new pairs).level name ↔
      ∃ pair ∈ pairs, pair.namespaceName = name ∧ bits ≤ pair.role.bits := by
  rw [← not_le, level_new_le_iff]
  simp only [not_forall, not_le, Nat.lt_add_one_iff, exists_prop]

theorem allows_eq_of_level_eq {other : List String}
    (levels : ∀ name, (new (claimPairs claim)).level name =
      (new (claimPairs other)).level name) (required : Role) :
    allows claim name required = allows other name required := by
  rw [Bool.eq_iff_iff, allows_iff, allows_iff]
  refine or_congr_right ?_
  simp only [or_and_right, and_or_left, exists_or, ← bits_lt_level_iff, levels]

/-- A claim that the parser accepts is rewritten with one entry for each namespace, in ascending
order, and answers every question of the authorizer as before. -/
theorem toClaim_parseClaim (accepted : parseClaim claim = .ok parsed) :
    ((claimPairs parsed.toClaim).map NamespacePermission.namespaceName).Pairwise (· < ·) ∧
      (claimPairs parsed.toClaim).length = parsed.toClaim.length ∧
      (∀ name, name ∈ (claimPairs parsed.toClaim).map NamespacePermission.namespaceName ↔
          name ∈ (claimPairs claim).map NamespacePermission.namespaceName) ∧
      ∀ name required, allows parsed.toClaim name required = allows claim name required := by
  obtain ⟨pairs, checked, rfl⟩ := parseClaim_eq_ok_iff.mp accepted
  have original := claimPairs_of_checked checked
  have sound : ∀ pair ∈ pairs, pair.namespaceName ≠ "" ∧ pair.role.valid = true := by
    intro pair member
    have held : Except.ok pair ∈ claim.map checkEntry := checked ▸ mem_map_of_mem member
    obtain ⟨entry, -, found⟩ := mem_map.mp held
    exact (checkEntry_eq_ok_iff.mp found).2
  have named : (new pairs).role "" = none := by
    cases held : (new pairs).role "" with
    | none => rfl
    | some role => exact absurd rfl (sound _ (role_new held)).1
  have rewritten := claimPairs_of_checked
    (checked_toClaim (canonical_new fun pair member => (sound pair member).2) named)
  refine ⟨?_, ?_, ?_, ?_⟩
  · rw [rewritten]
    exact namespaces_ascending _
  · rw [rewritten, toClaim, length_map]
  · intro name
    rw [rewritten, original]
    constructor
    · intro member
      obtain ⟨pair, held, rfl⟩ := mem_map.mp member
      exact mem_map_of_mem (role_new (mem_namespaces_iff.mp held))
    · intro member
      obtain ⟨pair, held, rfl⟩ := mem_map.mp member
      have positive : 0 < (new pairs).level pair.namespaceName :=
        bits_lt_level_iff.mpr ⟨pair, held, rfl, Nat.zero_le _⟩
      cases given : (new pairs).role pair.namespaceName with
      | none => rw [Grant.level, given] at positive; exact absurd positive (lt_irrefl 0)
      | some role =>
        exact mem_map.mpr ⟨⟨pair.namespaceName, role⟩, mem_namespaces_iff.mpr given, rfl⟩
  · intro name required
    refine allows_eq_of_level_eq (fun name => ?_) required
    rw [rewritten, original, level_new_namespaces]

/-- A role is the highest of those that are listed. -/
def Highest (listed : Role → Prop) (role : Role) : Prop :=
  listed role ∧ ∀ other, listed other → other.bits ≤ role.bits

/-- A grant whose level is the least bound of canonical roles gives the highest of them. -/
theorem Grant.role_eq_some_iff {listed : Role → Prop} (levels : ∀ bound, grant.level name ≤ bound ↔
      ∀ role, listed role → role.bits + 1 ≤ bound)
    (sound : ∀ role, grant.role name = some role → listed role)
    (valid : ∀ role, listed role → role.valid = true) :
    grant.role name = some role ↔ Highest listed role := by
  constructor
  · intro held
    refine ⟨sound role held, fun other given => ?_⟩
    have below : grant.level name ≤ role.bits + 1 := by rw [level, held, Perms.level]
    exact Nat.le_of_succ_le_succ ((levels _).mp below other given)
  · rintro ⟨given, highest⟩
    have above := (levels _).mp le_rfl role given
    cases held : grant.role name with
    | none => rw [level, held, Perms.level] at above; omega
    | some current =>
      rw [level, held, Perms.level] at above
      have currentListed := sound current held
      have same := le_antisymm (highest current currentListed) (Nat.le_of_succ_le_succ above)
      rw [bits_injective (valid current currentListed) (valid role given) same]

theorem grantable_eq_ok_iff :
    grantable name role = .ok () ↔ name ≠ wildcard ∧ role ≠ roleWorker := by
  by_cases wild : name = wildcard
  · simp [grantable, wild]
  · by_cases worker : role = roleWorker
    · simp [grantable, wild, worker]
    · simp [grantable, wild, worker]

/-- These are the pairs an operator may write. -/
structure NamespacePermission.Grants (pair : NamespacePermission) : Prop where
  named : pair.namespaceName ≠ ""
  valid : pair.role.valid = true
  notWildcard : pair.namespaceName ≠ wildcard
  notWorker : pair.role ≠ roleWorker

/-- An entry of the configuration names a pair that grants something. -/
def EntryGrants (entry : String) : Prop := ∃ pair, splitEntry entry = some pair ∧ pair.Grants

theorem checkGrantable_eq_ok_iff :
    checkGrantable index entries = .ok () ↔
      ∀ entry ∈ entries, ∃ pair, splitEntry entry = some pair ∧
        pair.namespaceName ≠ wildcard ∧ pair.role ≠ roleWorker := by
  induction entries generalizing index with
  | nil => simp only [checkGrantable, not_mem_nil, false_implies, implies_true]
  | cons entry rest ih =>
    rw [checkGrantable, forall_mem_cons]
    cases found : splitEntry entry with
    | none => simp only [Option.elim, reduceCtorEq, false_and, exists_false]
    | some pair =>
      simp only [Option.elim, Option.some.injEq, exists_eq_left']
      rw [← grantable_eq_ok_iff]
      cases grantable pair.namespaceName pair.role with
      | error cause => simp only [reduceCtorEq, false_and]
      | ok _ => simp [ih]

theorem checked_iff : (∃ pairs : List NamespacePermission, claim.map checkEntry = pairs.map .ok) ↔
      ∀ entry ∈ claim, ∃ pair, checkEntry entry = .ok pair := by
  constructor
  · rintro ⟨pairs, checked⟩ entry member
    have held : checkEntry entry ∈ pairs.map Except.ok := checked ▸ mem_map_of_mem member
    obtain ⟨pair, -, found⟩ := mem_map.mp held
    exact ⟨pair, found.symm⟩
  · intro accepted
    induction claim with
    | nil => exact ⟨[], rfl⟩
    | cons entry rest ih =>
      obtain ⟨pair, found⟩ := accepted entry mem_cons_self
      obtain ⟨pairs, checked⟩ :=
        ih fun other member => accepted other (mem_cons_of_mem _ member)
      exact ⟨pair :: pairs, by rw [map_cons, found, checked, map_cons]⟩

/-- The configuration parser accepts entries that all grant something, and adds their pairs. -/
theorem parseConfig_eq_ok_iff : parseConfig entries = .ok grant ↔
      (∀ entry ∈ entries.map Oidc.trimSpace, EntryGrants entry) ∧
        grant = new (claimPairs (entries.map Oidc.trimSpace)) := by
  have parsed : parseConfig entries = .ok grant ↔
      parseClaim (entries.map Oidc.trimSpace) = .ok grant ∧
        checkGrantable 0 (entries.map Oidc.trimSpace) = .ok () := by
    rw [parseConfig]
    cases parseClaim (entries.map Oidc.trimSpace) with
    | error error => exact ⟨nofun, fun both => nomatch both.1⟩
    | ok found =>
      cases checkGrantable 0 (entries.map Oidc.trimSpace) with
      | error error => exact ⟨nofun, fun both => nomatch both.2⟩
      | ok _ => exact ⟨fun same => ⟨same, rfl⟩, fun both => both.1⟩
  rw [parsed, parseClaim_eq_ok_iff, checkGrantable_eq_ok_iff]
  constructor
  · rintro ⟨⟨pairs, checked, rfl⟩, useful⟩
    refine ⟨fun entry member => ?_, by rw [claimPairs_of_checked checked]⟩
    obtain ⟨pair, found, notWildcard, notWorker⟩ := useful entry member
    obtain ⟨other, accepted⟩ := checked_iff.mp ⟨pairs, checked⟩ entry member
    obtain ⟨same, named, valid⟩ := checkEntry_eq_ok_iff.mp accepted
    obtain rfl := Option.some.inj (found.symm.trans same)
    exact ⟨pair, found, named, valid, notWildcard, notWorker⟩
  · rintro ⟨useful, rfl⟩
    obtain ⟨pairs, checked⟩ := checked_iff.mpr fun entry member => by
      obtain ⟨pair, found, grants⟩ := useful entry member
      exact ⟨pair, checkEntry_eq_ok_iff.mpr ⟨found, grants.named, grants.valid⟩⟩
    refine ⟨⟨pairs, checked, by rw [claimPairs_of_checked checked]⟩, fun entry member => ?_⟩
    obtain ⟨pair, found, grants⟩ := useful entry member
    exact ⟨pair, found, grants.notWildcard, grants.notWorker⟩

/-- A canonical grant survives its claim, a claim keeps its meaning when it is rewritten, and a
merge is the least upper bound of its grants in any order and with any repetition. -/
theorem permission_claims_round_trip : (∀ grant : Grant, grant.Canonical → grant.role "" = none →
      ∃ parsed, parseClaim grant.toClaim = .ok parsed ∧ parsed.Same grant) ∧
    (∀ claim parsed, parseClaim claim = .ok parsed →
      ((claimPairs parsed.toClaim).map NamespacePermission.namespaceName).Pairwise (· < ·) ∧
      (claimPairs parsed.toClaim).length = parsed.toClaim.length ∧
      (∀ namespaceName,
        namespaceName ∈ (claimPairs parsed.toClaim).map NamespacePermission.namespaceName ↔
          namespaceName ∈ (claimPairs claim).map NamespacePermission.namespaceName) ∧
      ∀ namespaceName required,
        allows parsed.toClaim namespaceName required = allows claim namespaceName required) ∧
    (∀ grants namespaceName,
      IsLUB {bound | ∃ grant, some grant ∈ grants ∧ grant.level namespaceName = bound}
        ((merge grants).level namespaceName) ∧
      ∀ role, (merge grants).role namespaceName = some role →
        ∃ grant, some grant ∈ grants ∧ grant.role namespaceName = some role) ∧
    ∀ grants others, (∀ grant, some grant ∈ grants ↔ some grant ∈ others) →
      (∀ namespaceName, (merge grants).level namespaceName = (merge others).level namespaceName) ∧
      ((∀ grant, some grant ∈ grants → grant.Canonical) → (merge grants).Same (merge others)) :=
  ⟨fun _ canonical named => parseClaim_toClaim canonical named,
    fun _ _ accepted => toClaim_parseClaim accepted,
    fun grants namespaceName => ⟨isLUB_merge grants namespaceName, fun _ held => role_merge held⟩,
    fun _ _ same => ⟨level_merge_congr same, fun canonical => merge_congr same canonical⟩⟩

/-- A namespace may hold a colon. -/
theorem namespace_with_colon_round_trips : ∃ parsed, parseClaim ["team:orders:write"] = .ok parsed ∧
      parsed.Same (new [⟨"team:orders", "read"⟩, ⟨"team:orders", "write"⟩]) :=
  permission_claims_round_trip.1 (new [⟨"team:orders", "read"⟩, ⟨"team:orders", "write"⟩])
    (canonical_new (by decide)) rfl

end Tempogate.Perms
