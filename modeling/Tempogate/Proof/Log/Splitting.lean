/-
This file shows when splitting the text of an error keeps the text of every cause.
-/

import Mathlib.Tactic.Common
import Tempogate.Construction.Log.ErrorWriter

namespace Tempogate.Log

open List

variable {Err : Type} {texts : List Text} {joined value own old cut : Text}

theorem removeFirst_eq_some {rest : Text} (removed : removeFirst old value = some rest) :
    ∃ before after, value = before ++ old ++ after ∧ rest = before ++ after := by
  induction value generalizing rest with
  | nil => cases removed
  | cons byte others ih =>
    unfold removeFirst at removed
    split at removed
    case isTrue starts =>
      obtain ⟨after, whole⟩ := isPrefixOf_iff_prefix.mp starts
      refine ⟨[], after, whole.symm, ?_⟩
      rw [← Option.some.inj removed, ← whole, drop_left, nil_append]
    case isFalse =>
      obtain ⟨shorter, earlier, rfl⟩ := Option.map_eq_some_iff.mp removed
      obtain ⟨before, after, rfl, rfl⟩ := ih earlier
      exact ⟨byte :: before, after, rfl, rfl⟩

theorem removeFirst_eq_none_iff (some : old ≠ []) :
    removeFirst old value = none ↔ ¬ old <:+: value := by
  induction value with
  | nil => simp [removeFirst, some]
  | cons byte others ih =>
    rw [infix_cons_iff, removeFirst, ← isPrefixOf_iff_prefix]
    by_cases starts : old.isPrefixOf (byte :: others) <;> simp [starts, ih]

def separators : Text := text " \t\n:;,"

/-- A text is built around another by inserting separator characters and given texts. -/
inductive Built (own : Text) (texts : List Text) : Text → Prop
  | own : Built own texts own
  | separator {before after : Text} {byte : UInt8} (member : byte ∈ separators)
      (built : Built own texts (before ++ after)) : Built own texts (before ++ [byte] ++ after)
  | cause {before inserted after : Text} (member : inserted ∈ texts)
      (built : Built own texts (before ++ after)) : Built own texts (before ++ inserted ++ after)

theorem Built.append {marks : Text} (built : Built own texts value)
    (only : marks ⊆ separators) : Built own texts (value ++ marks) := by
  induction marks generalizing value with
  | nil => rwa [append_nil]
  | cons byte others ih =>
    have next : Built own texts (value ++ [byte] ++ []) :=
      .separator (only mem_cons_self) (by rwa [append_nil])
    rw [append_nil] at next
    rw [append_cons]
    exact ih next (subset_of_cons_subset only)

variable (message : Text)

variable (causes : List (Link Err))

variable (state : Text × List (Link Err))

theorem foldl_quote_built (known : ∀ cause ∈ causes, cause.text ∈ texts)
    (built : Built own texts (causes.foldl quote state).1) : Built own texts state.1 := by
  induction causes generalizing state with
  | nil => exact built
  | cons cause rest ih =>
    have next := ih (quote state cause) (fun other member => known other (.tail _ member)) built
    unfold quote at next
    split at next
    case h_1 shorter cut =>
      obtain ⟨before, after, whole, rfl⟩ :=
        removeFirst_eq_some (Option.ite_none_left_eq_some.mp cut).2
      rw [whole]
      exact .cause (known cause mem_cons_self) next
    case h_2 => exact next

theorem mem_quote_iff (next cause : Link Err) : cause ∈ (quote state next).2 ↔
      cause ∈ state.2 ∨ next = cause ∧ (cause.text ≠ [] → ¬ cause.text <:+: state.1) := by
  unfold quote
  split
  case h_1 shorter cut =>
    have ⟨filled, removed⟩ := Option.ite_none_left_eq_some.mp cut
    obtain ⟨before, after, whole, rfl⟩ := removeFirst_eq_some removed
    refine ⟨.inl, fun shown => shown.resolve_right ?_⟩
    rintro ⟨rfl, absent⟩
    exact absent filled ⟨before, after, whole.symm⟩
  case h_2 uncut =>
    rw [mem_append, mem_singleton, eq_comm, and_iff_left_of_imp]
    rintro rfl some
    rw [if_neg some] at uncut
    exact (removeFirst_eq_none_iff some).mp uncut

variable (cause : Link Err)

/-- A cause is shown when at one of its turns the copy does not hold its text. -/
theorem mem_foldl_quote_iff :
    cause ∈ (causes.foldl quote state).2 ↔ cause ∈ state.2 ∨ ∃ before after,
      causes = before ++ cause :: after ∧
        (cause.text ≠ [] → ¬ cause.text <:+: (before.foldl quote state).1) := by
  induction causes generalizing state with
  | nil => simp
  | cons next rest ih =>
    rw [foldl_cons, ih, mem_quote_iff, or_assoc]
    refine or_congr_right ⟨?_, ?_⟩
    · rintro (⟨rfl, absent⟩ | ⟨before, after, rfl, absent⟩)
      · exact ⟨[], rest, rfl, absent⟩
      · exact ⟨next :: before, after, rfl, absent⟩
    · rintro ⟨before, after, whole, absent⟩
      rcases cons_eq_append_iff.mp whole with ⟨rfl, same⟩ | ⟨others, rfl, rfl⟩
      · exact .inl ⟨(List.cons.inj same).1.symm, absent⟩
      · exact .inr ⟨others, after, rfl, absent⟩

/-- Around a place inside it, the text stands in the message in order with the other text between,
so cutting that one may join it. -/
def Joins (cut joined : Text) : Prop :=
  ∃ place < joined.length, 0 < place ∧
    (joined.take place ++ cut ++ joined.drop place).Sublist message

instance (cut joined : Text) : Decidable (Joins message cut joined) :=
  inferInstanceAs (Decidable (∃ place < joined.length, _))

/-- A text that a cut leaves was there before, or the cut was made inside it. -/
theorem infix_of_cut {before after : Text} (left : joined <:+: before ++ after) :
    joined <:+: before ++ cut ++ after ∨ Joins (before ++ cut ++ after) cut joined := by
  obtain ⟨front, back, whole⟩ := left
  rw [append_assoc, append_eq_append_iff] at whole
  rcases whole with ⟨inside, rfl, rest⟩ | ⟨skipped, rfl, rfl⟩
  · rcases append_eq_append_iff.mp rest with ⟨between, rfl, rfl⟩ | ⟨ending, rfl, rfl⟩
    · exact .inl ⟨front, between ++ cut ++ after, by simp⟩
    · rcases inside with _ | ⟨byte, start⟩
      · exact .inl ⟨front ++ cut, back, by simp⟩
      rcases ending with _ | ⟨next, others⟩
      · exact .inl ⟨front, cut ++ back, by simp⟩
      refine .inr ⟨(byte :: start).length, by simp, by simp, ?_⟩
      rw [take_left, drop_left]
      exact List.IsInfix.sublist ⟨front, back, by simp⟩
  · exact .inl ⟨before ++ cut ++ skipped, back, by simp⟩

theorem Joins.mono {message whole : Text} (joins : Joins message cut joined)
    (inside : message.Sublist whole) : Joins whole cut joined := by
  obtain ⟨place, inText, positive, sublist⟩ := joins
  exact ⟨place, inText, positive, sublist.trans inside⟩

/-- Cutting texts that join nothing does not bring a text into the copy. -/
theorem foldl_quote_absent (inside : state.1.Sublist message)
    (apart : ∀ cut ∈ causes, ¬ Joins message cut.text joined) (absent : ¬ joined <:+: state.1) :
    ¬ joined <:+: (causes.foldl quote state).1 := by
  induction causes generalizing state with
  | nil => exact absent
  | cons next rest ih =>
    have stays : (quote state next).1.Sublist state.1 ∧ ¬ joined <:+: (quote state next).1 := by
      unfold quote
      split
      case h_1 shorter cut =>
        obtain ⟨before, after, whole, rfl⟩ :=
          removeFirst_eq_some (Option.ite_none_left_eq_some.mp cut).2
        rw [whole] at inside absent ⊢
        rw [append_assoc]
        refine ⟨(sublist_append_right _ _).append_left _, fun left => ?_⟩
        exact (infix_of_cut left).elim absent fun joins =>
          apart next mem_cons_self (joins.mono inside)
      case h_2 => exact ⟨List.Sublist.refl _, absent⟩
    exact ih _ (stays.1.trans inside) (fun cut member => apart cut (.tail _ member)) stays.2

/-- Each cause with a text is shown or stands in the own text, and an own text that is not the whole
message gives it with the texts of the shown causes and separators. -/
def KeepsCauses : Prop :=
  let own := (splitOwn message causes).1
  let shown := (splitOwn message causes).2.links causes
  (∀ cause ∈ causes, cause.text ≠ [] → cause ∈ shown ∨ cause.text <:+: own) ∧
    (own ≠ message → Built own (shown.map Link.text) message)

theorem trimSeparator_built (value : Text) : Built (trimSeparator value) texts value := by
  have blank : value.rtakeWhile (· ∈ text " \t\n") ⊆ separators := by
    intro byte member
    have held := mem_rtakeWhile_imp member
    exact (by decide : text " \t\n" ⊆ separators) (of_decide_eq_true held)
  have trimmed : trimRight (text " \t\n") value ++ value.rtakeWhile (· ∈ text " \t\n") = value :=
    rdropWhile_append_rtakeWhile
  nth_rewrite 2 [← trimmed]
  refine Built.append ?_ blank
  simp only [trimSeparator]
  split
  case h_1 last ends =>
    split
    case isTrue mark =>
      have tail := dropLast_append_getLast? last ends
      nth_rewrite 2 [← tail]
      refine Built.append .own fun byte member => ?_
      rw [mem_singleton.mp member]
      exact (by decide : text ":;," ⊆ separators) mark
    case isFalse => exact .own
  case h_2 => exact .own

theorem splitOwn_cases : (∃ cause before, causes = [cause] ∧ message = before ++ cause.text ∧
      splitOwn message causes = (trimSeparator before, .all)) ∨
    splitOwn message causes =
      if causes ≠ [] ∧ trimLeft (separators) (causes.foldl quote (message, [])).1 = [] then
        ([], .all)
      else (message, .unquoted (causes.foldl quote (message, [])).2) := by
  unfold splitOwn
  split
  case h_1 cause =>
    split
    case isTrue ends =>
      obtain ⟨before, rfl⟩ := ends.2
      exact .inl ⟨cause, before, rfl, rfl, by simp⟩
    case isFalse => exact .inr rfl
  case h_2 => exact .inr rfl

/-- Only causes are shown. -/
theorem mem_shown (link : Link Err)
    (member : link ∈ (splitOwn message causes).2.links causes) : link ∈ causes := by
  rcases splitOwn_cases message causes with ⟨cause, before, rfl, rfl, split⟩ | split
  · rwa [split] at member
  · rw [split] at member
    split at member
    case isTrue => exact member
    case isFalse =>
      rcases (mem_foldl_quote_iff causes (message, []) link).mp member with none | ⟨_, _, rfl, _⟩
      · cases none
      · exact mem_append_right _ mem_cons_self

end Tempogate.Log
