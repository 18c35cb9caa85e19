/-
This file defines how a list of letters is cut at a separator and trimmed at its ends.
-/

import Mathlib.Data.List.DropRight

namespace Tempogate.Foundation

open List

variable {Letter : Type} [DecidableEq Letter]

/-- The list is cut at the first separator. -/
def cutFirst (separator : Letter) : List Letter → Option (List Letter × List Letter)
  | [] => none
  | letter :: rest =>
    if letter = separator then some ([], rest)
    else (cutFirst separator rest).map fun parts => (letter :: parts.1, parts.2)

/-- The list is cut at the last separator. -/
def cutLast (separator : Letter) : List Letter → Option (List Letter × List Letter)
  | [] => none
  | letter :: rest =>
    match cutLast separator rest with
    | some parts => some (letter :: parts.1, parts.2)
    | none => if letter = separator then some ([], rest) else none

variable {letters : List Letter} {separator : Letter}

theorem cutLast_eq_none_iff : cutLast separator letters = none ↔ separator ∉ letters := by
  induction letters with
  | nil => simp only [cutLast, not_mem_nil, not_false_eq_true]
  | cons letter rest ih =>
    cases cut : cutLast separator rest with
    | some parts =>
      have held : separator ∈ rest := by
        by_contra absent
        exact absurd (ih.mpr absent) (by rw [cut]; exact Option.some_ne_none _)
      simp [cutLast, cut, held]
    | none =>
      have absent := ih.mp cut
      by_cases same : letter = separator
      · subst same
        simp [cutLast, cut]
      · simp only [cutLast, cut, if_neg same, mem_cons, not_or, Ne.symm same,
          not_false_eq_true, absent, and_self]

theorem cutFirst_eq_some_iff {front back : List Letter} :
    cutFirst separator letters = some (front, back) ↔
      letters = front ++ separator :: back ∧ separator ∉ front := by
  induction letters generalizing front with
  | nil => simp only [cutFirst, reduceCtorEq, nil_eq, append_eq_nil_iff, and_false,
      false_and]
  | cons letter rest ih =>
    by_cases same : letter = separator
    · rw [cutFirst, if_pos same]
      cases front with
      | nil => simp [same, eq_comm]
      | cons head tail =>
        simp only [Option.some.injEq, Prod.mk.injEq, reduceCtorEq, false_and, cons_append,
          List.cons.injEq, mem_cons, not_or, false_iff, not_and, and_imp]
        rintro rfl _ other
        exact absurd same (Ne.symm other)
    · rw [cutFirst, if_neg same]
      cases front with
      | nil =>
        simp [same]
      | cons head tail =>
        constructor
        · intro cut
          obtain ⟨⟨first, second⟩, found, parts⟩ := Option.map_eq_some_iff.mp cut
          obtain ⟨⟨rfl, rfl⟩, rfl⟩ := parts
          obtain ⟨whole, absent⟩ := ih.mp found
          exact ⟨by rw [whole, cons_append], by simp [Ne.symm same, absent]⟩
        · rintro ⟨whole, absent⟩
          obtain ⟨rfl, restEq⟩ := List.cons.inj whole
          have found := ih.mpr ⟨restEq, fun held => absent (by simp [held])⟩
          rw [found, Option.map_some]

theorem cutLast_eq_some_iff {front back : List Letter} :
    cutLast separator letters = some (front, back) ↔
      letters = front ++ separator :: back ∧ separator ∉ back := by
  induction letters generalizing front with
  | nil => simp only [cutLast, reduceCtorEq, nil_eq, append_eq_nil_iff, and_false,
      false_and]
  | cons letter rest ih =>
    cases front with
    | nil =>
      rw [nil_append, List.cons.injEq]
      constructor
      · intro cut
        cases found : cutLast separator rest with
        | some parts => simp [cutLast, found] at cut
        | none =>
          by_cases same : letter = separator
          · have backEq : rest = back := by simpa [cutLast, found, same] using cut
            exact ⟨⟨same, backEq⟩, backEq ▸ cutLast_eq_none_iff.mp found⟩
          · simp [cutLast, found, same] at cut
      · rintro ⟨⟨rfl, rfl⟩, absent⟩
        rw [cutLast, cutLast_eq_none_iff.mpr absent, if_pos rfl]
    | cons head tail =>
      constructor
      · intro cut
        cases found : cutLast separator rest with
        | some parts =>
          have partsEq : letter = head ∧ parts.1 = tail ∧ parts.2 = back := by
            simpa [cutLast, found, and_assoc] using cut
          obtain ⟨rfl, rfl, rfl⟩ := partsEq
          obtain ⟨whole, absent⟩ := ih.mp found
          exact ⟨by rw [cons_append, ← whole], absent⟩
        | none =>
          by_cases same : letter = separator <;> simp [cutLast, found, same] at cut
      · rintro ⟨whole, absent⟩
        obtain ⟨rfl, restEq⟩ := List.cons.inj whole
        rw [cutLast, ih.mpr ⟨restEq, absent⟩]

section Trim

omit [DecidableEq Letter]

variable {space : Letter → Bool} {letters : List Letter}

/-- The spaces at both ends of the list are dropped. -/
def trim (space : Letter → Bool) (letters : List Letter) : List Letter :=
  (letters.dropWhile space).rdropWhile space

/-- Neither end of the list is a space. -/
structure Trimmed (space : Letter → Bool) (letters : List Letter) : Prop where
  first : ∀ letter, letters.head? = some letter → space letter = false
  last : ∀ letter, letters.getLast? = some letter → space letter = false

theorem Trimmed.trim_eq (trimmed : Trimmed space letters) : trim space letters = letters := by
  have front : letters.dropWhile space = letters := by
    rw [dropWhile_eq_self_iff]
    intro positive
    rw [Bool.not_eq_true]
    exact trimmed.first _ (List.head?_eq_getElem? ▸ List.getElem?_eq_getElem positive)
  rw [trim, front, rdropWhile_eq_self_iff]
  intro filled
  rw [Bool.not_eq_true]
  exact trimmed.last _ (List.getLast?_eq_some_getLast filled)

theorem trimmed_trim (space : Letter → Bool) (letters : List Letter) :
    Trimmed space (trim space letters) := by
  constructor
  · intro letter first
    obtain ⟨tail, whole⟩ := rdropWhile_prefix space (letters.dropWhile space)
    have ahead : (letters.dropWhile space).head? = some letter := by
      rw [← whole, List.head?_append_of_ne_nil]
      · exact first
      · intro blank
        rw [trim, blank] at first
        cases first
    have kept := List.head?_dropWhile_not space letters
    rw [ahead] at kept
    exact kept
  · intro letter last
    have filled : trim space letters ≠ [] := by
      intro blank
      rw [blank] at last
      cases last
    obtain rfl := Option.some.inj ((List.getLast?_eq_some_getLast filled).symm.trans last)
    rw [← Bool.not_eq_true]
    exact rdropWhile_last_not space _ filled

theorem trim_eq_nil_iff : trim space letters = [] ↔ ∀ letter ∈ letters, space letter = true := by
  rw [trim, rdropWhile_eq_nil_iff]
  constructor
  · intro spaces
    rw [← dropWhile_eq_nil_iff]
    by_contra filled
    have kept := head_dropWhile_not space filled
    rw [spaces _ (head_mem filled)] at kept
    cases kept
  · intro spaces letter member
    exact spaces letter ((dropWhile_sublist space).subset member)

variable {before after : List Letter}

theorem rdropWhile_append (back : ∀ letter ∈ after, space letter) (before : List Letter) :
    (before ++ after).rdropWhile space = before.rdropWhile space := by
  rw [List.rdropWhile, reverse_append, dropWhile_append_of_pos, List.rdropWhile]
  simpa using back

theorem rdropWhile_eq_self (kept : ∀ letter ∈ letters, space letter = false) :
    letters.rdropWhile space = letters := by
  rw [rdropWhile_eq_self_iff]
  intro filled
  simp [kept _ (getLast_mem filled)]

theorem trim_append (front : ∀ letter ∈ before, space letter)
    (kept : ∀ letter ∈ letters, space letter = false) (back : ∀ letter ∈ after, space letter) :
    trim space (before ++ (letters ++ after)) = letters := by
  rw [trim, dropWhile_append_of_pos front]
  cases letters with
  | nil => rw [nil_append, dropWhile_eq_nil_iff.mpr back, rdropWhile_nil]
  | cons letter rest =>
    rw [cons_append, dropWhile_cons_of_neg (by simp [kept letter]), ← cons_append,
      rdropWhile_append back, rdropWhile_eq_self kept]

end Trim

end Tempogate.Foundation
