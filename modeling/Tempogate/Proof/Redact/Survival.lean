/-
This file proves which secrets survive in scrubbed text.
-/

import Tempogate.Proof.Redact.Cache

namespace Tempogate.Redact

open Foundation Replacer Rule

section Parts

def Rule.head : Rule → Text → Text
  | .secret, _ => []
  | .pii, value => (cutAddress value).elim [] fun parts => parts.1.take (Utf8.runeSize parts.1)
  | .identifier, value => keptPrefix 6 value

def Rule.literal : Rule → Text
  | .secret => redacted
  | .pii => stars
  | .identifier => stars

def Rule.tail : Rule → Text → Text
  | .secret, _ => []
  | .pii, value => (cutAddress value).elim [] fun parts => '@'.toUInt8 :: parts.2
  | .identifier, _ => []

theorem mask_eq (rule : Rule) (value : Text) :
    rule.mask value = rule.head value ++ rule.literal ++ rule.tail value := by
  cases rule with
  | pii =>
    rw [Rule.mask, maskPII, head, literal, Rule.tail]
    cases cutAddress value with
    | none => rfl
    | some parts =>
      have at_sign : text "***@" = stars ++ ['@'.toUInt8] := by decide
      simp [at_sign]
  | _ => exact (List.append_nil _).symm

theorem head_prefix (rule : Rule) (value : Text) : rule.head value <+: value := by
  cases rule with
  | secret => exact List.nil_prefix
  | identifier => exact List.take_prefix ..
  | pii =>
    rw [head]
    cases found : cutAddress value with
    | none => exact List.nil_prefix
    | some parts =>
      obtain ⟨cut, -⟩ := Option.filter_eq_some_iff.mp found
      have whole := (cutFirst_eq_some_iff.mp cut).1
      rw [whole]
      exact (List.take_prefix ..).trans (List.prefix_append ..)

/-- The masks of the rules show where a scrub inserts a literal. -/
def masks : Mask UInt8 (Text × Rule) where
  old := Prod.fst
  head entry := entry.2.head entry.1
  literal entry := entry.2.literal
  tail entry := entry.2.tail entry.1
  head_prefix entry := head_prefix entry.2 entry.1
  literal_ne_nil entry := by cases entry.2 <;> decide

end Parts

section Survival

variable (tree : Tree) (calls : List Call) (set : Nat) (input : Text)

/-- These segments a scrub finds in the text. -/
def segments : List (Segment UInt8 (Text × Rule)) :=
  scan Prod.fst (scratch (declaredIn calls (tree.line set))) 0 input

/-- This is the scrubbed text with its literals marked. -/
def scrubbed : List (UInt8 × Bool) := masks.output (segments tree calls set input)

def IsSecret (value : Text) : Prop := (value, Rule.secret) ∈ declaredIn calls (tree.line set)

variable {tree calls set input}

/-- Without its marks it is what the scrub answers. -/
theorem scrub_eq_scrubbed : (step tree (after tree calls) (.scrub (some set) input)).1 =
      some ((scrubbed tree calls set input).map Prod.fst) := by
  have matched : ∀ segment : Segment UInt8 (Text × Rule), (masks.marked segment).map Prod.fst =
        match segment.map maskPair with
        | .copied letter => [letter]
        | .matched pair => pair.2 := by
    intro segment
    cases segment with
    | copied letter => rfl
    | matched entry =>
      simp only [Replacer.Segment.map, maskPair, mask_eq, Replacer.Mask.marked, clear,
        inserted, List.map_append, List.map_map, Function.comp_def, List.map_id', masks]
  rw [answer_eq, expected, replace, scan_map fun _ => rfl, List.flatMap_map, scrubbed,
    segments, Replacer.Mask.output, List.map_flatMap]
  exact congrArg some (List.flatMap_congr fun segment _ => (matched segment).symm)

theorem accepts_of_mem_declaredIn {line : List Nat} {value : Text} {rule : Rule}
    (declared : (value, rule) ∈ declaredIn calls line) : rule.accepts value = true := by
  obtain ⟨call, -, member⟩ := List.mem_flatMap.mp declared
  cases call with
  | scrub set input => cases member
  | declare set rule values =>
    cases set with
    | none => cases member
    | some set =>
      rw [Call.declares] at member
      split at member
      · obtain ⟨declared, inside, same⟩ := List.mem_map.mp member
        cases same
        exact (List.mem_filter.mp inside).2
      · cases member

theorem ne_nil_of_accepts {rule : Rule} {value : Text} (accepted : rule.accepts value = true) :
    value ≠ [] := by
  rw [accepts, Bool.and_eq_true, decide_eq_true_iff] at accepted
  exact accepted.1

theorem IsSecret.mem_scratch {value : Text} (secret : IsSecret tree calls set value) :
    (value, Rule.secret) ∈ scratch (declaredIn calls (tree.line set)) := by
  rw [mem_scratch_iff, strongest, List.find?_cons_of_pos]
  exact decide_eq_true secret

theorem filled_scratch : ∀ entry ∈ scratch (declaredIn calls (tree.line set)), entry.1 ≠ [] := by
  intro entry member
  have declared := mem_of_strongest (mem_scratch_iff.mp member)
  exact ne_nil_of_accepts (accepts_of_mem_declaredIn declared)

/-- A secret survives exactly where a weaker match exposes it. -/
theorem IsSecret.survives_iff {value : Text} (secret : IsSecret tree calls set value) :
    clear value <:+: scrubbed tree calls set input ↔
      masks.Exposed (segments tree calls set input) value := by
  have scanned := (scanned_scan (@filled_scratch tree calls set) input).2
  exact @Replacer.Mask.clear_infix_output_iff _ _ masks _ _ (value, Rule.secret) secret.mem_scratch
    (ne_nil_of_accepts (accepts_of_mem_declaredIn secret)) scanned

/-- Every occurrence of a secret in scrubbed text overlaps an inserted literal, unless a match of an
address or an identifier keeps the secret, alone or with the text before the next literal. -/
theorem secrets_masked_iff (tree : Tree) (calls : List Call) (set : Nat) (input : Text) :
    (step tree (after tree calls) (.scrub (some set) input)).1 =
        some ((scrubbed tree calls set input).map Prod.fst) ∧
      ((∀ secret, IsSecret tree calls set secret →
          ¬ clear secret <:+: scrubbed tree calls set input) ↔
        ∀ secret, IsSecret tree calls set secret →
          ¬ masks.Exposed (segments tree calls set input) secret) := by
  refine ⟨scrub_eq_scrubbed, forall_congr' fun value => forall_congr' fun secret => ?_⟩
  rw [secret.survives_iff]

/-- The domain of an address is declared as a secret of its own. -/
def domainCalls : List Call :=
  [.declare (some 0) .secret [text "example.com"],
    .declare (some 0) .pii [text "alice@example.com"]]

theorem address_keeps_secret : IsSecret pairTree domainCalls 0 (text "example.com") ∧
      (step pairTree (after pairTree domainCalls)
          (.scrub (some 0) (text "no user alice@example.com"))).1 =
        some (text "no user a***@example.com") ∧
      clear (text "example.com") <:+:
        scrubbed pairTree domainCalls 0 (text "no user alice@example.com") := by
  refine ⟨?_, ?_, ?_⟩
  · rw [IsSecret]
    decide +kernel
  · decide +kernel
  · decide +kernel

end Survival

end Tempogate.Redact
