/-
This file proves that merged values keep the strongest rule of each and stand in one order.
-/

import Mathlib.Data.List.Dedup
import Tempogate.Construction.Redact.Set

namespace Tempogate.Redact

open Foundation List

variable {values : Values} {declared : List (Text × Rule)} {rule : Rule} {value first : Text}
  {bound set : Nat}

/-- Rules lie as their strengths, and a value without a rule lies below them. -/
def level (rule : Option Rule) : Nat := rule.elim 0 Rule.strength

theorem level_injective {first second : Option Rule} (same : level first = level second) :
    first = second := by
  rcases first with _ | _ | _ | _ <;> rcases second with _ | _ | _ | _ <;>
    first | rfl | exact absurd same (by decide)

theorem strength_pos (rule : Rule) : 0 < rule.strength := by
  cases rule <;> decide

section Scratch

variable (declared : List (Text × Rule))

/-- This is the strongest rule a value was declared under. -/
def strongest (value : Text) : Option Rule :=
  [Rule.secret, .pii, .identifier].find? fun rule => (value, rule) ∈ declared

/-- These are the declared values with their strongest rules, the longest value first. -/
def scratch : List (Text × Rule) :=
  ((declared.map Prod.fst).dedup.insertionSort isBefore).filterMap fun value =>
    (strongest declared value).map fun rule => (value, rule)

variable {declared}

variable {value : Text}

theorem level_strongest_le_iff : level (strongest declared value) ≤ bound ↔
      ∀ rule, (value, rule) ∈ declared → rule.strength ≤ bound := by
  have three : (∀ rule, (value, rule) ∈ declared → rule.strength ≤ bound) ↔
      ((value, Rule.secret) ∈ declared → 3 ≤ bound) ∧ ((value, Rule.pii) ∈ declared → 2 ≤ bound) ∧
        ((value, Rule.identifier) ∈ declared → 1 ≤ bound) :=
    ⟨fun above => ⟨above _, above _, above _⟩, fun ⟨secret, pii, identifier⟩ rule => by
      cases rule <;> assumption⟩
  rw [three]
  by_cases secret : (value, Rule.secret) ∈ declared <;>
    by_cases pii : (value, Rule.pii) ∈ declared <;>
    by_cases identifier : (value, Rule.identifier) ∈ declared <;>
    simp [strongest, level, Rule.strength, secret, pii, identifier] <;> omega

theorem mem_of_strongest (found : strongest declared value = some rule)
    : (value, rule) ∈ declared := by
  have tried := List.find?_some found
  exact decide_eq_true_iff.mp tried

theorem mem_scratch_iff :
    (value, rule) ∈ scratch declared ↔ strongest declared value = some rule := by
  rw [scratch, mem_filterMap]
  constructor
  · rintro ⟨other, -, found⟩
    obtain ⟨stronger, held, same⟩ := Option.map_eq_some_iff.mp found
    cases same
    exact held
  · intro found
    refine ⟨value, ?_, by rw [found, Option.map_some]⟩
    rw [mem_insertionSort, mem_dedup]
    exact mem_map_of_mem (mem_of_strongest found)

end Scratch

section Order

/-- The entries stand in order and no value stands twice. -/
def InOrder (entries : List (Text × Rule)) : Prop :=
  entries.Pairwise fun first second => isBefore first.1 second.1 ∧ first.1 ≠ second.1

theorem isBefore_total (first second : Text) : isBefore first second ∨ isBefore second first := by
  rcases Nat.lt_trichotomy first.length second.length with less | same | more
  · exact .inr (.inl less)
  · rcases List.le_total first second with below | above
    · exact .inl (.inr ⟨same, below⟩)
    · exact .inr (.inr ⟨same.symm, above⟩)
  · exact .inl (.inl more)

theorem isBefore_trans {second third : Text} (earlier : isBefore first second)
    (later : isBefore second third) : isBefore first third := by
  rcases earlier with longer | ⟨same, below⟩
  · rcases later with longer' | ⟨same', -⟩
    · exact .inl (longer'.trans longer)
    · exact .inl (same' ▸ longer)
  · rcases later with longer | ⟨same', below'⟩
    · exact .inl (same ▸ longer)
    · exact .inr ⟨same.trans same', List.le_trans below below'⟩

theorem isBefore_antisymm {second : Text} (earlier : isBefore first second)
    (later : isBefore second first) : first = second := by
  rcases earlier with longer | ⟨same, below⟩
  · rcases later with longer' | ⟨same', -⟩
    · exact absurd longer' (Nat.not_lt.mpr longer.le)
    · exact absurd longer (by rw [same']; exact Nat.lt_irrefl _)
  · rcases later with longer | ⟨-, above⟩
    · exact absurd longer (by rw [same]; exact Nat.lt_irrefl _)
    · exact List.le_antisymm below above

instance : Std.Total isBefore := ⟨isBefore_total⟩

instance : IsTrans Text isBefore := ⟨fun _ _ _ => isBefore_trans⟩

theorem inOrder_scratch (declared : List (Text × Rule)) : InOrder (scratch declared) := by
  have sorted := pairwise_insertionSort isBefore (declared.map Prod.fst).dedup
  have distinct : ((declared.map Prod.fst).dedup.insertionSort isBefore).Pairwise (· ≠ ·) :=
    (perm_insertionSort isBefore _).nodup_iff.mpr (nodup_dedup _)
  refine List.Pairwise.filterMap _ (fun first second both => ?_) (sorted.and distinct)
  intro entry found other otherFound
  obtain ⟨rule, -, rfl⟩ := Option.map_eq_some_iff.mp found
  obtain ⟨otherRule, -, rfl⟩ := Option.map_eq_some_iff.mp otherFound
  exact both

theorem mem_ordered_iff : (value, rule) ∈ ordered values ↔ values.lookup value = some rule := by
  rw [ordered, mem_insertionSort, mem_map, ← Option.mem_def, AList.mem_lookup_iff]
  constructor
  · rintro ⟨entry, held, same⟩
    cases same
    exact held
  · intro held
    exact ⟨_, held, rfl⟩

theorem inOrder_ordered (values : Values) : InOrder (ordered values) := by
  have transitive : IsTrans (Text × Rule) fun first second => isBefore first.1 second.1 :=
    ⟨fun _ _ _ => isBefore_trans⟩
  have sorted := pairwise_insertionSort
    (fun first second : Text × Rule => isBefore first.1 second.1)
    (values.entries.map fun entry => (entry.1, entry.2))
  have order := (perm_insertionSort
    (fun first second : Text × Rule => isBefore first.1 second.1)
    (values.entries.map fun entry => (entry.1, entry.2))).map Prod.fst
  have distinct : ((ordered values).map Prod.fst).Nodup := by
    refine order.nodup_iff.mpr ?_
    rw [map_map]
    exact values.nodupKeys
  exact sorted.and (pairwise_map.mp distinct)

/-- The order leaves one list for each set of entries. -/
theorem InOrder.eq_of_mem_iff {first second : List (Text × Rule)} (inOrder : InOrder first)
    (otherInOrder : InOrder second)
    (same : ∀ value rule, (value, rule) ∈ first ↔ (value, rule) ∈ second) : first = second := by
  have antisymmetric : Std.Antisymm fun first second : Text × Rule =>
      isBefore first.1 second.1 ∧ first.1 ≠ second.1 :=
    ⟨fun first second earlier later => absurd (isBefore_antisymm earlier.1 later.1) earlier.2⟩
  have irreflexive : Std.Irrefl fun first second : Text × Rule =>
      isBefore first.1 second.1 ∧ first.1 ≠ second.1 := ⟨fun first both => both.2 rfl⟩
  exact List.Pairwise.eq_of_mem_iff inOrder otherInOrder fun entry => same entry.1 entry.2

theorem ordered_eq_scratch (same : ∀ value, values.lookup value = strongest declared value) :
    ordered values = scratch declared := by
  refine (inOrder_ordered values).eq_of_mem_iff (inOrder_scratch declared) fun value rule => ?_
  rw [mem_ordered_iff, mem_scratch_iff, same]

theorem scratch_congr {others : List (Text × Rule)}
    (same : ∀ value, strongest declared value = strongest others value) :
    scratch declared = scratch others := by
  refine (inOrder_scratch declared).eq_of_mem_iff (inOrder_scratch others) fun value rule => ?_
  rw [mem_scratch_iff, mem_scratch_iff, same]

end Order

section Line

variable (tree : Tree)

theorem Tree.lineFrom_eq {fuel : Nat} (enough : set < fuel) :
    tree.lineFrom fuel set = tree.line set := by
  induction set using Nat.strong_induction_on generalizing fuel with
  | _ set ih =>
    obtain ⟨left, rfl⟩ := Nat.exists_eq_succ_of_ne_zero (Nat.ne_of_gt (Nat.zero_lt_of_lt enough))
    rw [line, lineFrom, lineFrom]
    cases above : tree.parent set with
    | none => rfl
    | some parent =>
      have older := tree.older set parent above
      simp only [Option.elim]
      rw [ih parent older (older.trans_le (Nat.lt_succ_iff.mp enough)), ih parent older older]

theorem Tree.line_eq (set : Nat) : tree.line set = set :: (tree.parent set).elim [] tree.line := by
  rw [line, lineFrom]
  cases above : tree.parent set with
  | none => rfl
  | some parent =>
    simp only [Option.elim]
    rw [lineFrom_eq tree (tree.older set parent above)]

theorem Tree.mem_line_self (set : Nat) : set ∈ tree.line set := by
  exact mem_cons_self

/-- The line of a member of a line is its rest. -/
theorem Tree.line_subset {member : Nat} (inside : member ∈ tree.line set) :
    tree.line member ⊆ tree.line set := by
  induction set using Nat.strong_induction_on with
  | _ set ih =>
    rw [line_eq, mem_cons] at inside
    rcases inside with rfl | above
    · exact List.Subset.refl _
    · rw [tree.line_eq set]
      cases parent : tree.parent set with
      | none =>
        rw [parent] at above
        cases above
      | some next =>
        rw [parent] at above
        exact List.Subset.trans (ih next (tree.older set next parent) above)
          (subset_cons_self ..)

end Line

section Contents

theorem level_lookup_le_iff :
    level (values.lookup value) ≤ bound ↔
      ∀ rule, values.lookup value = some rule → rule.strength ≤ bound := by
  cases values.lookup value with
  | none => simp [level]
  | some rule => simp [level]

/-- Adding one entry keeps the stronger rule for its value. -/
theorem level_insert_le_iff (merged : Values) (entry : Sigma fun _ : Text => Rule) (value : Text)
    (bound : Nat) :
    level ((if (merged.lookup entry.1).all fun prev => entry.2.strength > prev.strength then
        merged.insert entry.1 entry.2 else merged).lookup value) ≤ bound ↔
      level (merged.lookup value) ≤ bound ∧ (entry.1 = value → entry.2.strength ≤ bound) := by
  by_cases same : entry.1 = value
  · subst same
    cases held : merged.lookup entry.1 with
    | none => simp [level]
    | some previous =>
      by_cases stronger : entry.2.strength > previous.strength
      · simp only [Option.all_some, stronger, decide_true, if_true, AList.lookup_insert, level,
          Option.elim_some, true_implies]
        exact ⟨fun below => ⟨stronger.le.trans below, below⟩, And.right⟩
      · simp only [Option.all_some, stronger, decide_false, Bool.false_eq_true, if_false, held,
          level, Option.elim_some, true_implies]
        exact ⟨fun below => ⟨below, (not_lt.mp stronger).trans below⟩, And.left⟩
  · have other : (if (merged.lookup entry.1).all fun prev => entry.2.strength > prev.strength then
        merged.insert entry.1 entry.2 else merged).lookup value = merged.lookup value := by
      split
      · exact AList.lookup_insert_ne (Ne.symm same)
      · rfl
    rw [other]
    simp [same]

/-- Merging keeps the higher level for each value. -/
theorem level_addValues_le_iff (merged values : Values) (value : Text) (bound : Nat) :
    level ((addValues merged values).lookup value) ≤ bound ↔
      level (merged.lookup value) ≤ bound ∧ level (values.lookup value) ≤ bound := by
  have general : ∀ (entries : List (Sigma fun _ : Text => Rule)) (merged : Values),
      level ((entries.foldl (fun merged entry =>
        if (merged.lookup entry.1).all fun prev => entry.2.strength > prev.strength then
          merged.insert entry.1 entry.2 else merged) merged).lookup value) ≤ bound ↔
      level (merged.lookup value) ≤ bound ∧
        ∀ entry ∈ entries, entry.1 = value → entry.2.strength ≤ bound := by
    intro entries
    induction entries with
    | nil => simp
    | cons entry rest ih =>
      intro merged
      rw [foldl_cons, ih, level_insert_le_iff, and_assoc, forall_mem_cons]
  rw [addValues, general, @level_lookup_le_iff values]
  refine and_congr_right fun _ => ⟨fun below rule held => ?_, fun below entry member same => ?_⟩
  · exact below ⟨value, rule⟩ (AList.mem_lookup_iff.mp held) rfl
  · subst same
    exact below entry.2 (AList.mem_lookup_iff.mpr member)

/-- The level in a line is the least bound on those of its sets. -/
theorem level_collect_le_iff (tree : Tree) (sets : Sets) (set : Nat) (value : Text) (bound : Nat) :
    level ((sets.collect tree set).lookup value) ≤ bound ↔
      ∀ member ∈ tree.line set, level ((sets member).values.lookup value) ≤ bound := by
  have general : ∀ (members : List Nat) (merged : Values),
      level ((members.foldl (fun merged member => addValues merged (sets member).values)
        merged).lookup value) ≤ bound ↔
      level (merged.lookup value) ≤ bound ∧
        ∀ member ∈ members, level ((sets member).values.lookup value) ≤ bound := by
    intro members
    induction members with
    | nil => simp
    | cons member rest ih =>
      intro merged
      rw [foldl_cons, ih, level_addValues_le_iff, and_assoc, forall_mem_cons]
  rw [Sets.collect, general, Tree.line_eq, tail_cons, forall_mem_append,
    forall_mem_singleton, forall_mem_cons]
  exact ⟨fun both => ⟨both.2.2, both.2.1⟩, fun both => ⟨Nat.zero_le _, both.2, both.1⟩⟩

/-- A declaration raises the level of an accepted value to the strength of its rule. -/
theorem level_declareValue (rule : Rule) (state : SetState) (declared value : Text) :
    level ((state.declareValue rule declared).values.lookup value) =
      if rule.accepts declared = true ∧ value = declared then
        max (level (state.values.lookup value)) rule.strength
      else level (state.values.lookup value) := by
  unfold SetState.declareValue
  by_cases accepted : rule.accepts declared = true
  · simp only [accepted, Bool.not_true, Bool.false_eq_true, if_false, true_and]
    by_cases same : value = declared
    · subst same
      cases held : state.values.lookup value with
      | none =>
        simp only [Option.any_none, Bool.false_eq_true, if_false, AList.lookup_insert]
        exact (max_eq_right (Nat.zero_le _)).symm
      | some previous =>
        simp only [Option.any_some, decide_eq_true_eq]
        by_cases stronger : previous.strength ≥ rule.strength
        · rw [if_pos stronger, held]
          exact (max_eq_left stronger).symm
        · rw [if_neg stronger, AList.lookup_insert]
          exact (max_eq_right (not_le.mp stronger).le).symm
    · rw [if_neg same]
      split
      · rfl
      · rw [AList.lookup_insert_ne same]
  · simp [accepted]

end Contents

end Tempogate.Redact
