/-
This file proves that the cached replacers of the redaction sets are never stale.
-/

import Mathlib.Algebra.Order.BigOperators.Group.List
import Mathlib.Algebra.Order.Group.Nat
import Tempogate.Proof.Redact.Merge

namespace Tempogate.Redact

open Foundation SetState Call Function

variable {calls : List Call} {before sets : Sets} {line : List Nat}

section History

/-- These values a call declares in a line of sets. -/
def Call.declares (line : List Nat) : Call → List (Text × Rule)
  | .declare (some set) rule values =>
    if set ∈ line then (values.filter rule.accepts).map fun value => (value, rule) else []
  | .declare none _ _ => []
  | .scrub _ _ => []

def declaredIn (calls : List Call) (line : List Nat) : List (Text × Rule) :=
  calls.flatMap (declares line)

/-- This is what a replacer built from all declarations so far returns. -/
def expected (tree : Tree) (calls : List Call) (set : Option Nat) (input : Text) : Text :=
  match set with
  | none => input
  | some set => replace ((scratch (declaredIn calls (tree.line set))).map maskPair) input

theorem Call.mem_declares_iff {call : Call} {entry : Text × Rule} :
    entry ∈ call.declares line ↔ ∃ set ∈ line, entry ∈ call.declares [set] := by
  cases call with
  | scrub set input => simp [declares]
  | declare set rule values =>
    cases set with
    | none => simp [declares]
    | some set =>
      by_cases inside : set ∈ line
      · simp only [declares, if_pos inside, List.mem_singleton]
        constructor
        · exact fun member => ⟨set, inside, by rw [if_pos rfl]; exact member⟩
        · rintro ⟨other, -, member⟩
          split at member
          · exact member
          · cases member
      · simp only [declares, if_neg inside, List.not_mem_nil, List.mem_singleton, false_iff,
          not_exists, not_and]
        intro other otherInside member
        split at member
        · rename_i same
          exact inside (same ▸ otherInside)
        · cases member

theorem mem_declaredIn_iff {entry : Text × Rule} :
    entry ∈ declaredIn calls line ↔ ∃ set ∈ line, entry ∈ declaredIn calls [set] := by
  simp only [declaredIn, List.mem_flatMap]
  constructor
  · rintro ⟨call, member, declared⟩
    obtain ⟨set, inside, found⟩ := mem_declares_iff.mp declared
    exact ⟨set, inside, call, member, found⟩
  · rintro ⟨set, inside, call, member, found⟩
    exact ⟨call, member, mem_declares_iff.mpr ⟨set, inside, found⟩⟩

variable (rule : Rule) (values : List Text) (state : SetState)

/-- What one declaration adds to the level of a value. -/
theorem level_foldl_declareValue_le_iff (value : Text) (bound : Nat) :
    level ((values.foldl (declareValue rule) state).values.lookup value) ≤ bound ↔
      level (state.values.lookup value) ≤ bound ∧
        (value ∈ values.filter rule.accepts → rule.strength ≤ bound) := by
  induction values generalizing state with
  | nil => simp
  | cons first rest ih =>
    rw [List.foldl_cons, ih, level_declareValue]
    by_cases accepted : rule.accepts first = true
    · rw [List.filter_cons_of_pos accepted, List.mem_cons]
      by_cases same : value = first
      · rw [if_pos ⟨accepted, same⟩, max_le_iff]
        simp only [same, true_or, true_implies]
        exact ⟨fun both => both.1, fun both => ⟨both, fun _ => both.2⟩⟩
      · rw [if_neg fun both => same both.2]
        simp [same]
    · rw [if_neg fun both => accepted both.1, List.filter_cons_of_neg accepted]

/-- A declaration that leaves the version leaves the set. -/
theorem foldl_declareValue_version : values.foldl (declareValue rule) state = state ∨
      state.version < (values.foldl (declareValue rule) state).version ∧
        (values.foldl (declareValue rule) state).cached = state.cached ∧
        (values.foldl (declareValue rule) state).cachedVersion = state.cachedVersion := by
  induction values generalizing state with
  | nil => exact .inl rfl
  | cons first rest ih =>
    rw [List.foldl_cons]
    have one : state.declareValue rule first = state ∨
        (state.declareValue rule first).version = state.version + 1 ∧
          (state.declareValue rule first).cached = state.cached ∧
          (state.declareValue rule first).cachedVersion = state.cachedVersion := by
      unfold declareValue
      split
      · exact .inl rfl
      · split
        · exact .inl rfl
        · exact .inr ⟨rfl, rfl, rfl⟩
    rcases one with same | ⟨raised, cached, stamped⟩
    · rw [same]
      exact ih state
    · rcases ih (state.declareValue rule first) with later | ⟨more, kept, held⟩
      · rw [later]
        exact .inr ⟨by omega, cached, stamped⟩
      · exact .inr ⟨by omega, kept.trans cached, held.trans stamped⟩

end History

section Invariant

variable (tree : Tree)

/-- A cache with the stamp of now holds the replacer of now. -/
def Fresh (sets : Sets) (set : Nat) : Prop :=
  (sets set).cachedVersion < sets.version tree set ∨
    (sets set).cachedVersion = sets.version tree set ∧ (sets set).cached =
        if sets.version tree set = 0 then none else some (build (sets.collect tree set))

/-- The sets hold what was declared, and their caches are fresh. -/
structure Current (calls : List Call) (sets : Sets) : Prop where
  contents : ∀ set value, (sets set).values.lookup value = strongest (declaredIn calls [set]) value
  versions : ∀ set, (sets set).version = 0 → (sets set).values.entries = []
  caches : ∀ set, Fresh tree sets set

variable {tree}

theorem Fresh.stamp_le {set : Nat} (fresh : Fresh tree sets set) :
    (sets set).cachedVersion ≤ sets.version tree set := by
  rcases fresh with less | ⟨same, -⟩
  · exact less.le
  · exact same.le

/-- The version of a set depends on its line only. -/
theorem version_congr {after : Sets} {set : Nat}
    (versions : ∀ member ∈ tree.line set, (after member).version = (before member).version) :
    after.version tree set = before.version tree set := by
  rw [Sets.version, Sets.version, List.map_congr_left versions]

theorem collect_congr {after : Sets} {set : Nat}
    (values : ∀ member ∈ tree.line set, (after member).values = (before member).values) :
    after.collect tree set = before.collect tree set := by
  refine List.foldl_ext _ _ _ fun merged member inside => ?_
  rw [values]
  rw [Tree.line_eq, List.tail_cons, List.mem_append, List.mem_singleton] at inside
  rw [Tree.line_eq, List.mem_cons]
  exact inside.symm

theorem Fresh.congr {after : Sets} {set : Nat} (fresh : Fresh tree before set)
    (values : ∀ member ∈ tree.line set, (after member).values = (before member).values)
    (versions : ∀ member ∈ tree.line set, (after member).version = (before member).version)
    (cached : (after set).cached = (before set).cached)
    (stamped : (after set).cachedVersion = (before set).cachedVersion) : Fresh tree after set := by
  rw [Fresh, version_congr versions, collect_congr values, cached, stamped]
  exact fresh

theorem version_lt {after : Sets} {set member : Nat} (inside : member ∈ tree.line set)
    (every : ∀ other, (before other).version ≤ (after other).version)
    (raised : (before member).version < (after member).version) :
    before.version tree set < after.version tree set :=
  List.sum_lt_sum _ _ (fun other _ => every other) ⟨member, inside, raised⟩

/-- A declaration adds its values to its own set. -/
theorem contents_declare {set : Nat} {rule : Rule} {values : List Text} (contents : ∀ set value,
      (sets set).values.lookup value = strongest (declaredIn calls [set]) value) (other : Nat)
    (value : Text) :
    (declare sets set rule values other).values.lookup value =
      strongest (declaredIn (calls ++ [.declare (some set) rule values]) [other]) value := by
  refine level_injective (eq_of_forall_ge_iff fun bound => ?_)
  rw [level_strongest_le_iff]
  simp only [declaredIn, List.flatMap_append, List.flatMap_singleton, List.mem_append]
  rw [declare, update_apply]
  by_cases same : other = set
  · subst same
    rw [if_pos rfl, level_foldl_declareValue_le_iff, contents, level_strongest_le_iff]
    simp only [declares, List.mem_singleton, if_true, List.mem_map]
    constructor
    · rintro ⟨earlier, now⟩ found (old | ⟨declared, member, equal⟩)
      · exact earlier found old
      · cases equal
        exact now member
    · intro below
      exact ⟨fun found old => below found (.inl old),
        fun member => below rule (.inr ⟨value, member, rfl⟩)⟩
  · rw [if_neg same, contents, level_strongest_le_iff]
    simp only [declares, List.mem_singleton, if_neg (Ne.symm same), List.not_mem_nil, or_false]
    rfl

section

variable {sets : Sets} {calls : List Call} (current : Current tree calls sets)

include current

/-- A declaration keeps the sets current. -/
theorem current_declare (set : Nat) (rule : Rule) (values : List Text) :
    Current tree (calls ++ [.declare (some set) rule values]) (declare sets set rule values) := by
  have contents := @contents_declare calls sets set rule values current.contents
  rcases foldl_declareValue_version rule values (sets set) with
    unchanged | ⟨raised, cached, stamped⟩
  · have same : declare sets set rule values = sets := by
      rw [declare, unchanged, update_eq_self]
    rw [same] at contents ⊢
    exact ⟨contents, current.versions, current.caches⟩
  · have at_set : declare sets set rule values set =
        values.foldl (declareValue rule) (sets set) := update_self ..
    have at_other : ∀ {other}, other ≠ set → declare sets set rule values other = sets other :=
      fun different => update_of_ne different ..
    rw [← at_set] at raised cached stamped
    refine ⟨contents, fun other none => ?_, fun other => ?_⟩
    · by_cases same : other = set
      · subst same
        omega
      · rw [at_other same] at none ⊢
        exact current.versions other none
    · by_cases inside : set ∈ tree.line other
      · have every : ∀ member,
            (sets member).version ≤ (declare sets set rule values member).version := by
          intro member
          by_cases same : member = set
          · subst same
            exact raised.le
          · exact (at_other same).symm ▸ le_rfl
        have more := version_lt inside every raised
        have stamp : (declare sets set rule values other).cachedVersion =
            (sets other).cachedVersion := by
          by_cases same : other = set
          · subst same
            exact stamped
          · rw [at_other same]
        refine .inl ?_
        rw [stamp]
        exact (current.caches other).stamp_le.trans_lt more
      · have outside : ∀ member ∈ tree.line other,
            declare sets set rule values member = sets member :=
          fun member held => at_other fun same => inside (same ▸ held)
        have self := outside other (tree.mem_line_self other)
        exact (current.caches other).congr (fun member held => by rw [outside member held])
          (fun member held => by rw [outside member held]) (by rw [self]) (by rw [self])

/-- What the values of a line collect to is what the line was declared. -/
theorem build_collect (set : Nat) :
    build (sets.collect tree set) = (scratch (declaredIn calls (tree.line set))).map maskPair := by
  rw [build, ordered_eq_scratch]
  intro value
  refine level_injective (eq_of_forall_ge_iff fun bound => ?_)
  rw [level_collect_le_iff, level_strongest_le_iff]
  simp only [current.contents, level_strongest_le_iff, @mem_declaredIn_iff calls (tree.line set)]
  exact ⟨fun below rule ⟨member, inside, declared⟩ => below member inside rule declared,
    fun below member inside rule declared => below rule ⟨member, inside, declared⟩⟩

/-- A set without values was declared nothing. -/
theorem Current.declaredIn_eq_nil {set : Nat} (empty : (sets set).values.entries = []) :
    declaredIn calls [set] = [] := by
  refine List.eq_nil_iff_forall_not_mem.mpr fun entry declared => ?_
  have missing : (sets set).values.lookup entry.1 = none := by
    refine Option.eq_none_iff_forall_ne_some.mpr fun rule found => ?_
    have held := AList.mem_lookup_iff.mp (Option.mem_def.mpr found)
    rw [empty] at held
    cases held
  have below : level (strongest (declaredIn calls [set]) entry.1) ≤ 0 := by
    rw [← current.contents, missing]
    exact le_rfl
  exact absurd (level_strongest_le_iff.mp below entry.2 declared)
    (Nat.not_le.mpr (strength_pos entry.2))

/-- A set without values and its parent were declared the same. -/
theorem Current.scratch_above {set above : Nat} (parent : tree.parent set = some above)
    (empty : (sets set).values.entries = []) :
    scratch (declaredIn calls (tree.line set)) = scratch (declaredIn calls (tree.line above)) := by
  refine scratch_congr fun value => level_injective (eq_of_forall_ge_iff fun bound => ?_)
  rw [level_strongest_le_iff, level_strongest_le_iff, tree.line_eq set, parent]
  refine forall_congr' fun rule => ?_
  have same : (value, rule) ∈ declaredIn calls (set :: tree.line above) ↔
      (value, rule) ∈ declaredIn calls (tree.line above) := by
    rw [mem_declaredIn_iff, @mem_declaredIn_iff calls (tree.line above), List.exists_mem_cons_iff,
      current.declaredIn_eq_nil empty]
    simp
  exact imp_congr_left same

/-- Version zero means that nothing was declared in the whole line. -/
theorem Current.scratch_of_version_zero {set : Nat} (zero : sets.version tree set = 0) :
    scratch (declaredIn calls (tree.line set)) = [] := by
  have nothing : declaredIn calls (tree.line set) = [] := by
    refine List.eq_nil_iff_forall_not_mem.mpr fun entry declared => ?_
    obtain ⟨member, inside, found⟩ := mem_declaredIn_iff.mp declared
    have own : (sets member).version = 0 :=
      List.sum_eq_zero_iff.mp zero _ (List.mem_map_of_mem inside)
    rw [current.declaredIn_eq_nil (current.versions member own)] at found
    cases found
  rw [nothing]
  rfl

/-- Storing the replacer of now keeps all caches fresh. -/
theorem current_store {set : Nat} (some_version : sets.version tree set ≠ 0) :
    Current tree calls (update sets set { sets set with
        cached := some (build (sets.collect tree set))
        cachedVersion := sets.version tree set }) := by
  let stored : Sets := update sets set { sets set with
      cached := some (build (sets.collect tree set))
      cachedVersion := sets.version tree set }
  have kept : ∀ member, (stored member).values = (sets member).values ∧
      (stored member).version = (sets member).version := by
    intro member
    by_cases same : member = set
    · subst same
      simp [stored]
    · simp only [stored, update_of_ne same, and_self]
  have values := fun member => (kept member).1
  have versions := fun member => (kept member).2
  refine ⟨fun member value => ?_, fun member => ?_, fun member => ?_⟩
  · rw [values]
    exact current.contents member value
  · rw [versions, values]
    exact current.versions member
  · by_cases same : member = set
    · subst same
      refine .inr ?_
      rw [version_congr fun other _ => versions other, collect_congr fun other _ => values other,
        if_neg some_version]
      simp
    · exact (current.caches member).congr (fun other _ => values other)
        (fun other _ => versions other) (by simp only [update_of_ne same])
        (by simp only [update_of_ne same])

/-- The replacer of a set is that of all values declared in its line. -/
theorem replacer_eq {fuel set : Nat} (enough : set < fuel) :
    (replacer tree sets fuel set).1.getD [] =
        (scratch (declaredIn calls (tree.line set))).map maskPair ∧
      Current tree calls (replacer tree sets fuel set).2 := by
  induction fuel generalizing set with
  | zero => cases enough
  | succ fuel ih =>
    have own : (let version := sets.version tree set
        let found := if version = 0 ∨ (sets set).cachedVersion = version then
            ((sets set).cached, sets)
          else (some (build (sets.collect tree set)), update sets set { sets set with
              cached := some (build (sets.collect tree set)), cachedVersion := version })
        found.1.getD [] = (scratch (declaredIn calls (tree.line set))).map maskPair ∧
          Current tree calls found.2) := by
      simp only []
      by_cases zero : sets.version tree set = 0
      · rw [if_pos (.inl zero), current.scratch_of_version_zero zero]
        rcases current.caches set with less | ⟨-, cached⟩
        · omega
        · rw [cached, if_pos zero]
          exact ⟨rfl, current⟩
      · by_cases stamped : (sets set).cachedVersion = sets.version tree set
        · rw [if_pos (.inr stamped), ← build_collect current]
          rcases current.caches set with less | ⟨-, cached⟩
          · omega
          · rw [cached, if_neg zero]
            exact ⟨rfl, current⟩
        · rw [if_neg (not_or.mpr ⟨zero, stamped⟩), ← build_collect current]
          exact ⟨rfl, current_store current zero⟩
    unfold replacer
    cases empty : (sets set).values.entries with
    | nil =>
      cases parent : tree.parent set with
      | none => exact own
      | some above =>
        rw [current.scratch_above parent empty]
        exact ih ((tree.older set above parent).trans_le (Nat.lt_succ_iff.mp enough))
    | cons entry rest => exact own

end

theorem replace_nil (input : Text) : replace [] input = input := by
  have copies : ∀ input : Text,
      Replacer.scan Prod.fst ([] : Pairs) 0 input = input.map .copied := by
    intro input
    induction input with
    | nil => rfl
    | cons letter rest ih =>
      rw [Replacer.scan]
      simp [ih]
  rw [replace, copies, List.flatMap_map]
  exact List.flatMap_singleton' input

/-- A scrub answers as a replacer built from scratch. -/
theorem scrub_eq (current : Current tree calls sets) (set : Nat) (input : Text) :
    (scrub tree sets set input).1 = expected tree calls (some set) input ∧
      Current tree calls (scrub tree sets set input).2 := by
  obtain ⟨found, kept⟩ := replacer_eq current (Nat.lt_succ_self set)
  rw [scrub, expected]
  by_cases empty : input = []
  · rw [if_pos empty, empty]
    exact ⟨rfl, current⟩
  · rw [if_neg empty]
    rw [← found]
    revert kept
    rcases replacer tree sets (set + 1) set with ⟨_ | pairs, after⟩
    · exact fun kept => ⟨(replace_nil input).symm, kept⟩
    · exact fun kept => ⟨rfl, kept⟩

theorem declaredIn_append_scrub (calls : List Call) (set : Option Nat) (input : Text)
    (line : List Nat) :
    declaredIn (calls ++ [.scrub set input]) line = declaredIn calls line := by
  simp [declaredIn, declares]

/-- One call keeps the sets current. -/
theorem current_step (current : Current tree calls sets)
    (call : Call) : Current tree (calls ++ [call]) (step tree sets call).2 := by
  have scrubbed : ∀ {after : Sets} (set : Option Nat) (input : Text), Current tree calls after →
      Current tree (calls ++ [.scrub set input]) after := by
    intro after set input kept
    refine ⟨fun member value => ?_, kept.versions, kept.caches⟩
    rw [declaredIn_append_scrub]
    exact kept.contents member value
  cases call with
  | declare set rule values =>
    cases set with
    | none =>
      refine ⟨fun member value => ?_, current.versions, current.caches⟩
      simp only [declaredIn, List.flatMap_append, List.flatMap_singleton, declares,
        List.append_nil]
      exact current.contents member value
    | some set => exact current_declare current set rule values
  | scrub set input =>
    cases set with
    | none => exact scrubbed none input current
    | some set => exact scrubbed (some set) input (scrub_eq current set input).2

/-- Every run keeps the sets current. -/
theorem current_after (tree : Tree) (calls : List Call) :
    Current tree calls (after tree calls) := by
  induction calls using List.reverseRecOn with
  | nil =>
    refine ⟨fun _ _ => rfl, fun _ _ => rfl, fun set => .inr ?_⟩
    have zero : Sets.new.version tree set = 0 :=
      List.sum_eq_zero fun version member => by
        obtain ⟨_, -, rfl⟩ := List.mem_map.mp member
        rfl
    rw [after, List.foldl_nil, zero, if_pos rfl]
    exact ⟨rfl, rfl⟩
  | append_singleton earlier call ih =>
    rw [after, List.foldl_append]
    exact current_step ih call

theorem answer_eq (tree : Tree) (calls : List Call) (set : Option Nat) (input : Text) :
    (step tree (after tree calls) (.scrub set input)).1 = some (expected tree calls set input) := by
  cases set with
  | none => rfl
  | some set => exact congrArg some (scrub_eq (current_after tree calls) set input).1

/-- No value of the declaration is accepted under a stronger rule than the line of its set holds
for it. -/
def Redeclares (tree : Tree) (calls : List Call) (set : Nat) (rule : Rule) (values : List Text) :
    Prop :=
  ∀ value ∈ values, rule.accepts value = true →
    ∃ held, (value, held) ∈ declaredIn calls (tree.line set) ∧ rule.strength ≤ held.strength

/-- Declaring what is declared already changes no answer. -/
theorem expected_redeclared {later : List Call} {set : Nat} {rule : Rule} {values : List Text}
    (again : Redeclares tree calls set rule values) (other : Option Nat) (input : Text) :
    expected tree (calls ++ .declare (some set) rule values :: later) other input =
      expected tree (calls ++ later) other input := by
  cases other with
  | none => rfl
  | some other =>
    have same : scratch (declaredIn (calls ++ .declare (some set) rule values :: later)
          (tree.line other)) =
        scratch (declaredIn (calls ++ later) (tree.line other)) := by
      refine scratch_congr fun value => level_injective (eq_of_forall_ge_iff fun bound => ?_)
      rw [level_strongest_le_iff, level_strongest_le_iff]
      simp only [declaredIn, List.flatMap_append, List.flatMap_cons, List.mem_append]
      constructor
      · intro below found declared
        exact below found (declared.imp id Or.inr)
      · rintro below found (earlier | now | after)
        · exact below found (.inl earlier)
        · by_cases inside : set ∈ tree.line other
          · simp only [declares, if_pos inside, List.mem_map, List.mem_filter] at now
            obtain ⟨declared, ⟨member, accepted⟩, equal⟩ := now
            cases equal
            obtain ⟨held, found, weaker⟩ := again value member accepted
            obtain ⟨above, line, declared⟩ := mem_declaredIn_iff.mp found
            have whole : (value, held) ∈ declaredIn calls (tree.line other) :=
              mem_declaredIn_iff.mpr ⟨above, tree.line_subset inside line, declared⟩
            exact weaker.trans (below held (.inl whole))
          · simp only [declares, if_neg inside, List.not_mem_nil] at now
        · exact below found (.inr after)
    simp only [expected, same]

/-- Every scrub answers as a replacer built from scratch at that moment, and declaring again what
is held under an equal or stronger rule changes no later answer. -/
theorem scrub_is_never_stale (tree : Tree) (calls : List Call) :
    (∀ set input, (step tree (after tree calls) (.scrub set input)).1 =
      some (expected tree calls set input)) ∧
    ∀ later set rule values, Redeclares tree calls set rule values → ∀ other input,
      (step tree (after tree (calls ++ .declare (some set) rule values :: later))
          (.scrub other input)).1 =
        (step tree (after tree (calls ++ later)) (.scrub other input)).1 := by
  refine ⟨answer_eq tree calls, fun later set rule values again other input => ?_⟩
  rw [answer_eq, answer_eq, expected_redeclared again]

/-- The second set is a child of the first. -/
def pairTree : Tree where
  parent set := if set = 1 then some 0 else none
  older set above := by
    intro parent
    split at parent
    · cases parent
      omega
    · cases parent

theorem child_redeclares_parent_secret :
    Redeclares pairTree [.declare (some 0) .secret [text "hunter22"]] 1 .pii [text "hunter22"] ∧
      (step pairTree (after pairTree [.declare (some 0) .secret [text "hunter22"],
          .declare (some 1) .pii [text "hunter22"]]) (.scrub (some 1) (text "hunter22"))).1 =
        (step pairTree (after pairTree [.declare (some 0) .secret [text "hunter22"]])
          (.scrub (some 1) (text "hunter22"))).1 := by
  have again : Redeclares pairTree [.declare (some 0) .secret [text "hunter22"]] 1 .pii
      [text "hunter22"] := by
    intro value member _
    rw [List.mem_singleton] at member
    subst member
    exact ⟨.secret, by decide, by decide⟩
  exact ⟨again, (scrub_is_never_stale pairTree
    [.declare (some 0) .secret [text "hunter22"]]).2 [] 1 .pii _ again _ _⟩

end Invariant

end Tempogate.Redact
