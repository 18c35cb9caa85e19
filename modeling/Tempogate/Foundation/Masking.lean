/-
This file defines a scan that replaces entries in a text from left to right, and characterizes the
values that survive it when the replacements keep the ends of an entry.
-/

import Mathlib.Data.List.Infix

namespace Tempogate.Foundation.Replacer

open List

variable {Letter Entry Other : Type}

/-- A scan copies a letter or matches an entry. -/
inductive Segment (Letter Entry : Type)
  | copied (letter : Letter)
  | matched (entry : Entry)
  deriving DecidableEq, Repr

def Segment.map (change : Entry → Other) : Segment Letter Entry → Segment Letter Other
  | .copied letter => .copied letter
  | .matched entry => .matched (change entry)

section

variable (old : Entry → List Letter)

/-- These letters of the text belong to the segment. -/
def Segment.input : Segment Letter Entry → List Letter
  | .copied letter => [letter]
  | .matched entry => old entry

def inputs (segments : List (Segment Letter Entry)) : List Letter :=
  segments.flatMap (Segment.input old)

variable [DecidableEq Letter]

/-- The entries are tried in order at each position, and the letters of a match are skipped. -/
def scan (entries : List Entry) : Nat → List Letter → List (Segment Letter Entry)
  | _, [] => []
  | skip + 1, _ :: rest => scan entries skip rest
  | 0, letter :: rest =>
    match entries.find? fun entry => (old entry).isPrefixOf (letter :: rest) with
    | some entry => .matched entry :: scan entries ((old entry).length - 1) rest
    | none => .copied letter :: scan entries 0 rest

/-- No entry matches where a scan copied a letter. -/
inductive Scanned (entries : List Entry) : List (Segment Letter Entry) → Prop
  | nil : Scanned entries []
  | copied {letter : Letter} {rest : List (Segment Letter Entry)}
      (unmatched : ∀ entry ∈ entries, ¬ old entry <+: letter :: inputs old rest)
      (later : Scanned entries rest) : Scanned entries (.copied letter :: rest)
  | matched {entry : Entry} {rest : List (Segment Letter Entry)} (member : entry ∈ entries)
      (later : Scanned entries rest) : Scanned entries (.matched entry :: rest)

variable {old} {entries : List Entry}

theorem scan_skip (skip : Nat) (text : List Letter) :
    scan old entries skip text = scan old entries 0 (text.drop skip) := by
  induction text generalizing skip with
  | nil =>
    cases skip <;> rfl
  | cons letter rest ih =>
    cases skip with
    | zero => rfl
    | succ skip => exact ih skip

/-- Entries that are not empty account for the whole text. -/
theorem scanned_scan (filled : ∀ entry ∈ entries, old entry ≠ []) (text : List Letter) :
    inputs old (scan old entries 0 text) = text ∧
      Scanned old entries (scan old entries 0 text) := by
  induction measured : text.length using Nat.strong_induction_on generalizing text with
  | _ count ih =>
    cases text with
    | nil => exact ⟨rfl, .nil⟩
    | cons letter rest =>
      rw [scan]
      cases found : entries.find? fun entry => (old entry).isPrefixOf (letter :: rest) with
      | none =>
        obtain ⟨whole, scanned⟩ := ih rest.length
          (by rw [← measured]; exact Nat.lt_succ_self _) rest rfl
        refine ⟨?_, .copied (fun entry member isPrefix => ?_) scanned⟩
        · exact congrArg (letter :: ·) whole
        · rw [whole, ← isPrefixOf_iff_prefix] at isPrefix
          exact absurd isPrefix (List.find?_eq_none.mp found entry member)
      | some entry =>
        have member := mem_of_find?_eq_some found
        have tried := List.find?_some found
        obtain ⟨after, split⟩ := isPrefixOf_iff_prefix.mp tried
        have nonempty := length_pos_of_ne_nil (filled entry member)
        have dropped : rest.drop ((old entry).length - 1) = after := by
          have shifted : (letter :: rest).drop (old entry).length = after := by
            rw [← split, drop_left]
          rw [← shifted]
          obtain ⟨fewer, same⟩ := Nat.exists_eq_succ_of_ne_zero (Nat.ne_of_gt nonempty)
          rw [same]
          rfl
        have shorter : after.length < count := by
          rw [← measured, ← split, length_append]
          omega
        obtain ⟨whole, scanned⟩ := ih after.length shorter after rfl
        simp only
        rw [scan_skip, dropped]
        exact ⟨(congrArg (old entry ++ ·) whole).trans split, .matched member scanned⟩

theorem scan_map {change : Entry → Other} {target : Other → List Letter}
    (same : ∀ entry, target (change entry) = old entry) (skip : Nat) (text : List Letter) :
    scan target (entries.map change) skip text =
      (scan old entries skip text).map (Segment.map change) := by
  induction text generalizing skip with
  | nil => cases skip <;> rfl
  | cons letter rest ih =>
    cases skip with
    | succ skip => exact ih skip
    | zero =>
      rw [scan, scan, List.find?_map]
      simp only [Function.comp_def, same]
      cases entries.find? fun entry => (old entry).isPrefixOf (letter :: rest) with
      | none => exact congrArg (Segment.copied letter :: ·) (ih 0)
      | some entry =>
        simp only [Option.map_some, same]
        exact congrArg (Segment.matched (change entry) :: ·) (ih _)

end

end Tempogate.Foundation.Replacer

namespace Tempogate.Foundation.Replacer

open List

variable {Letter Entry : Type}

/-- A mask keeps a beginning of the entry, then has a literal, then keeps an end. -/
structure Mask (Letter Entry : Type) where
  old : Entry → List Letter
  head : Entry → List Letter
  literal : Entry → List Letter
  tail : Entry → List Letter
  head_prefix : ∀ entry, head entry <+: old entry
  literal_ne_nil : ∀ entry, literal entry ≠ []

/-- Letters of a literal carry the mark. -/
def clear (letters : List Letter) : List (Letter × Bool) := letters.map (·, false)

def inserted (letters : List Letter) : List (Letter × Bool) :=
  letters.map fun letter => (letter, true)

namespace Mask

variable (mask : Mask Letter Entry)

def replacement (entry : Entry) : List Letter :=
  mask.head entry ++ mask.literal entry ++ mask.tail entry

def marked : Segment Letter Entry → List (Letter × Bool)
  | .copied letter => [(letter, false)]
  | .matched entry =>
    clear (mask.head entry) ++ inserted (mask.literal entry) ++ clear (mask.tail entry)

variable (segments : List (Segment Letter Entry))

def output : List (Letter × Bool) :=
  segments.flatMap mask.marked

/-- These are the letters before the next literal. -/
def clearRun : List (Segment Letter Entry) → List Letter
  | [] => []
  | .copied letter :: rest => letter :: clearRun rest
  | .matched entry :: _ => mask.head entry

/-- A match keeps the value in its beginning, or keeps a beginning of the value at its end and the
rest of the value comes before the next literal. -/
def Exposed (value : List Letter) : Prop :=
  ∃ entry after, .matched entry :: after <:+ segments ∧ (value <:+: mask.head entry ∨
      ∃ kept, kept ≠ [] ∧ kept <:+ mask.tail entry ∧ value <+: kept ++ mask.clearRun after)

end Mask

section Marks

variable {value kept literal : List Letter} {rest : List (Letter × Bool)}

theorem clear_cons (letter : Letter) : clear (letter :: kept) = (letter, false) :: clear kept := rfl

theorem inserted_cons (letter : Letter) :
    inserted (letter :: kept) = (letter, true) :: inserted kept := rfl

theorem clear_prefix_literal_iff {letter : Letter} :
    clear value <+: clear kept ++ (letter, true) :: rest ↔ value <+: kept := by
  induction kept generalizing value with
  | nil =>
    cases value with
    | nil => simp [clear]
    | cons first others => simp [clear]
  | cons first others ih =>
    cases value with
    | nil => simp [clear]
    | cons other more =>
      rw [clear_cons, clear_cons, cons_append, cons_prefix_cons, ih,
        cons_prefix_cons]
      simp

theorem clear_infix_literal_iff {letter : Letter} (filled : value ≠ []) :
    clear value <:+: clear kept ++ (letter, true) :: rest ↔
      value <:+: kept ∨ clear value <:+: rest := by
  induction kept with
  | nil =>
    obtain ⟨first, others, rfl⟩ := exists_cons_of_ne_nil filled
    change _ <:+: (letter, true) :: rest ↔ _
    rw [clear_cons, infix_cons_iff]
    simp [cons_prefix_cons]
  | cons first others ih =>
    rw [clear_cons, cons_append, infix_cons_iff, ih, ← cons_append,
      ← clear_cons, clear_prefix_literal_iff, infix_cons_iff, or_assoc]

theorem clear_infix_inserted_iff (filled : value ≠ []) :
    clear value <:+: inserted literal ++ rest ↔ clear value <:+: rest := by
  induction literal with
  | nil => rfl
  | cons letter others ih =>
    rw [inserted_cons, cons_append, infix_cons_iff, ih]
    obtain ⟨first, others, rfl⟩ := exists_cons_of_ne_nil filled
    simp [clear_cons, cons_prefix_cons]

/-- An occurrence begins at an end of the kept letters or behind them. -/
theorem clear_infix_kept_iff : clear value <:+: clear kept ++ rest ↔
      (∃ ending, ending ≠ [] ∧ ending <:+ kept ∧ clear value <+: clear ending ++ rest) ∨
        clear value <:+: rest := by
  induction kept with
  | nil =>
    simp only [suffix_nil]
    constructor
    · exact .inr
    · rintro (⟨ending, filled, none, -⟩ | later)
      · exact absurd none filled
      · exact later
  | cons letter others ih =>
    rw [clear_cons, cons_append, infix_cons_iff, ih, ← or_assoc]
    refine or_congr_left ?_
    simp only [suffix_cons_iff]
    constructor
    · rintro (whole | ⟨ending, filled, inside, begins⟩)
      · exact ⟨letter :: others, cons_ne_nil _ _, .inl rfl, whole⟩
      · exact ⟨ending, filled, .inr inside, begins⟩
    · rintro ⟨ending, filled, rfl | inside, begins⟩
      · exact .inl begins
      · exact .inr ⟨ending, filled, inside, begins⟩

end Marks

namespace Mask

variable {mask : Mask Letter Entry} {segments : List (Segment Letter Entry)} {value : List Letter}

theorem clear_prefix_output_iff :
    clear value <+: mask.output segments ↔ value <+: mask.clearRun segments := by
  induction segments generalizing value with
  | nil => simp [output, clearRun, clear]
  | cons segment rest ih =>
    cases segment with
    | copied letter =>
      cases value with
      | nil => simp [clear]
      | cons first others =>
        change (first, false) :: clear others <+: (letter, false) :: mask.output rest ↔ _
        rw [cons_prefix_cons, ih, clearRun, cons_prefix_cons]
        simp
    | matched entry =>
      obtain ⟨letter, others, same⟩ := exists_cons_of_ne_nil (mask.literal_ne_nil entry)
      rw [output, flatMap_cons, marked, same, inserted_cons, append_assoc,
        append_assoc, cons_append, clear_prefix_literal_iff, clearRun]

theorem clear_prefix_kept_output_iff {kept : List Letter} :
    clear value <+: clear kept ++ mask.output segments ↔
      value <+: kept ++ mask.clearRun segments := by
  -- Kept letters read as copied ones.
  have copies : mask.output (kept.map .copied ++ segments) = clear kept ++ mask.output segments ∧
      mask.clearRun (kept.map .copied ++ segments) = kept ++ mask.clearRun segments := by
    induction kept with
    | nil => exact ⟨rfl, rfl⟩
    | cons letter others ih =>
      exact ⟨congrArg ((letter, false) :: ·) ih.1, congrArg (letter :: ·) ih.2⟩
  rw [← copies.1, clear_prefix_output_iff, copies.2]

theorem clear_infix_marked_iff {entry : Entry} (filled : value ≠ []) :
    clear value <:+: mask.output (.matched entry :: segments) ↔ (value <:+: mask.head entry ∨
        ∃ kept, kept ≠ [] ∧ kept <:+ mask.tail entry ∧ value <+: kept ++ mask.clearRun segments) ∨
      clear value <:+: mask.output segments := by
  obtain ⟨letter, others, same⟩ := exists_cons_of_ne_nil (mask.literal_ne_nil entry)
  rw [output, flatMap_cons, marked, same, inserted_cons, append_assoc, append_assoc,
    cons_append, clear_infix_literal_iff filled, clear_infix_inserted_iff filled,
    clear_infix_kept_iff, or_assoc]
  refine or_congr_right (or_congr_left (exists_congr fun kept => ?_))
  exact and_congr_right fun _ => and_congr_right fun _ => clear_prefix_kept_output_iff

theorem clearRun_prefix_inputs (mask : Mask Letter Entry) (segments : List (Segment Letter Entry)) :
    mask.clearRun segments <+: inputs mask.old segments := by
  induction segments with
  | nil => exact nil_prefix
  | cons segment rest ih =>
    cases segment with
    | copied letter => exact cons_prefix_cons.mpr ⟨rfl, ih⟩
    | matched entry => exact (mask.head_prefix entry).trans (prefix_append ..)

theorem exposed_cons_matched_iff {entry : Entry} : mask.Exposed (.matched entry :: segments) value ↔
      (value <:+: mask.head entry ∨
        ∃ kept, kept ≠ [] ∧ kept <:+ mask.tail entry ∧ value <+: kept ++ mask.clearRun segments) ∨
      mask.Exposed segments value := by
  constructor
  · rintro ⟨other, after, inside, kept⟩
    rcases suffix_cons_iff.mp inside with same | later
    · cases same
      exact .inl kept
    · exact .inr ⟨other, after, later, kept⟩
  · rintro (kept | ⟨other, after, inside, kept⟩)
    · exact ⟨entry, segments, suffix_refl _, kept⟩
    · exact ⟨other, after, inside.trans (suffix_cons ..), kept⟩

theorem exposed_cons_copied_iff {letter : Letter} :
    mask.Exposed (.copied letter :: segments) value ↔ mask.Exposed segments value := by
  constructor
  · rintro ⟨entry, after, inside, kept⟩
    rcases suffix_cons_iff.mp inside with same | later
    · cases same
    · exact ⟨entry, after, later, kept⟩
  · rintro ⟨entry, after, inside, kept⟩
    exact ⟨entry, after, inside.trans (suffix_cons ..), kept⟩

/-- A scanned value survives exactly where a match exposes it. -/
theorem clear_infix_output_iff {entries : List Entry} {own : Entry} (member : own ∈ entries)
    (filled : mask.old own ≠ []) (scanned : Scanned mask.old entries segments) :
    clear (mask.old own) <:+: mask.output segments ↔ mask.Exposed segments (mask.old own) := by
  induction scanned with
  | nil =>
    constructor
    · intro inside
      rw [output, flatMap_nil, infix_nil, clear, map_eq_nil_iff] at inside
      exact absurd inside filled
    · rintro ⟨entry, after, inside, -⟩
      exact absurd (suffix_nil.mp inside) (cons_ne_nil _ _)
  | @copied letter rest unmatched later ih =>
    rw [exposed_cons_copied_iff, ← ih]
    change clear _ <:+: (letter, false) :: mask.output rest ↔ _
    rw [infix_cons_iff]
    refine or_iff_right fun begins => unmatched own member ?_
    have run : mask.old own <+: mask.clearRun (.copied letter :: rest) :=
      clear_prefix_output_iff.mp begins
    exact run.trans (cons_prefix_cons.mpr ⟨rfl, mask.clearRun_prefix_inputs rest⟩)
  | matched found later ih =>
    rw [exposed_cons_matched_iff, clear_infix_marked_iff filled, ih]

end Mask

end Tempogate.Foundation.Replacer
