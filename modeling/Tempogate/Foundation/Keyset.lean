/-
This file defines listings in pages that go on below the last key of the page before.
-/

import Mathlib.Data.List.Sort
import Mathlib.Data.List.Perm.Subperm

namespace Tempogate.Foundation.Keyset

open List

variable {Item Key : Type} [LinearOrder Key] (key : Item → Key)

/-- These items are still to be listed. -/
def remaining (cursor : Option Key) (items : List Item) : List Item :=
  (items.filter fun item => cursor.all fun last => key item < last).insertionSort
    fun first second => key second ≤ key first

/-- A page has a cursor when it leaves items out. -/
structure Page (Item Key : Type) where
  items : List Item
  next : Option Key

/-- One row more than the page holds tells whether there are more. -/
def page (limit : Nat) (cursor : Option Key) (items : List Item) : Page Item Key :=
  let rows := (remaining key cursor items).take (limit + 1)
  if limit < rows.length then ⟨rows.take limit, (rows.take limit).getLast?.map key⟩
  else ⟨rows, none⟩

variable {key} {cursor : Option Key} {items : List Item} {limit : Nat}

theorem mem_remaining_iff {item : Item} : item ∈ remaining key cursor items ↔
      item ∈ items ∧ ∀ last, cursor = some last → key item < last := by
  rw [remaining, mem_insertionSort, mem_filter]
  refine and_congr_right fun _ => ?_
  cases cursor with
  | none => simp
  | some last => simp

theorem remaining_descending (distinct : (items.map key).Nodup) :
    (remaining key cursor items).Pairwise fun first second => key second < key first := by
  have sorted : (remaining key cursor items).Pairwise
      fun first second => key second ≤ key first := pairwise_insertionSort _ _
  have order := (perm_insertionSort (fun first second => key second ≤ key first)
    (items.filter fun item => cursor.all fun last => key item < last)).map key
  have nodup : ((remaining key cursor items).map key).Nodup :=
    order.nodup_iff.mpr (distinct.sublist (filter_sublist.map key))
  have different : (remaining key cursor items).Pairwise
      fun first second => key first ≠ key second := pairwise_map.mp nodup
  exact sorted.imp₂ (fun first second below different => lt_of_le_of_ne below (Ne.symm different))
    different

theorem page_length_le : (page key limit cursor items).items.length ≤ limit := by
  rw [page]
  split
  · exact length_take_le _ _
  · rename_i short
    exact not_lt.mp short

/-- A page without a cursor holds all that remained. -/
theorem page_items_of_next_none (positive : 0 < limit)
    (ends : (page key limit cursor items).next = none) :
    (page key limit cursor items).items = remaining key cursor items := by
  rw [page] at ends ⊢
  split
  · rename_i long
    rw [if_pos long, Option.map_eq_none_iff, List.getLast?_eq_none_iff,
      take_eq_nil_iff] at ends
    rcases ends with none | blank
    · exact absurd none (Nat.ne_of_gt positive)
    · rw [blank] at long
      exact absurd long (Nat.not_lt_zero _)
  · rename_i short
    refine take_of_length_le ?_
    rw [length_take] at short
    omega

theorem page_of_next_some {last : Key} (goes : (page key limit cursor items).next = some last) :
    (page key limit cursor items).items = (remaining key cursor items).take limit ∧
      ∃ older item, (remaining key cursor items).take limit = older ++ [item] ∧
        key item = last := by
  rw [page] at goes ⊢
  split
  · rename_i long
    rw [if_pos long, take_take, min_eq_left (Nat.le_succ limit)] at goes
    rw [take_take, min_eq_left (Nat.le_succ limit)]
    obtain ⟨item, ends, same⟩ := Option.map_eq_some_iff.mp goes
    obtain ⟨older, whole⟩ := List.getLast?_eq_some_iff.mp ends
    exact ⟨rfl, older, item, whole, same⟩
  · rename_i short
    rw [if_neg short] at goes
    cases goes

/-- A page with a cursor and what remains below the cursor are all that remained. -/
theorem remaining_eq_append (distinct : (items.map key).Nodup) {last : Key}
    (goes : (page key limit cursor items).next = some last) :
    remaining key cursor items =
      (page key limit cursor items).items ++ remaining key (some last) items := by
  obtain ⟨pageEq, older, item, whole, rfl⟩ := page_of_next_some goes
  have descending : (remaining key cursor items).Pairwise fun first second =>
      key second < key first := remaining_descending distinct
  have parts := take_append_drop limit (remaining key cursor items)
  rw [← parts, pairwise_append] at descending
  obtain ⟨front, back, across⟩ := descending
  have itemMember : item ∈ (remaining key cursor items).take limit := by rw [whole]; simp
  have itemLeast : ∀ other ∈ (remaining key cursor items).take limit, key item ≤ key other := by
    intro other member
    rw [whole, pairwise_append] at front
    rw [whole, mem_append, mem_singleton] at member
    rcases member with before | rfl
    · exact (front.2.2 other before item (mem_singleton_self _)).le
    · exact le_rfl
  have rest : (remaining key cursor items).drop limit = remaining key (some (key item)) items := by
    refine List.Pairwise.eq_of_mem_iff back (remaining_descending distinct) fun other => ?_
    rw [mem_remaining_iff]
    constructor
    · intro member
      refine ⟨(mem_remaining_iff.mp (mem_of_mem_drop member)).1, ?_⟩
      rintro _ ⟨rfl⟩
      exact across item itemMember other member
    · rintro ⟨member, below⟩
      have lower := below _ rfl
      have earlier := (mem_remaining_iff.mp (mem_of_mem_take itemMember)).2
      have remains : other ∈ remaining key cursor items :=
        mem_remaining_iff.mpr ⟨member, fun bound same => lower.trans (earlier bound same)⟩
      rw [← parts, mem_append] at remains
      refine remains.resolve_left fun taken => ?_
      exact absurd lower (not_lt.mpr (itemLeast other taken))
  rw [pageEq, ← rest, take_append_drop]

theorem page_items_sublist :
    (page key limit cursor items).items.Sublist (remaining key cursor items) := by
  rw [page]
  split
  · exact (take_sublist _ _).trans (take_sublist _ _)
  · exact take_sublist _ _

theorem page_items_ne_nil {last : Key} (goes : (page key limit cursor items).next = some last) :
    (page key limit cursor items).items ≠ [] := by
  obtain ⟨pageEq, older, item, whole, -⟩ := page_of_next_some goes
  rw [pageEq, whole]
  simp

section Listing

variable (key) (limit : Nat) (tables : Nat → List Item)

/-- The listing that starts with a request and its cursor consists of these pages. -/
inductive Listing : Nat → Option Key → List (List Item) → Prop
  | last {index : Nat} {cursor : Option Key}
      (ends : (page key limit cursor (tables index)).next = none) :
      Listing index cursor [(page key limit cursor (tables index)).items]
  | more {index : Nat} {cursor : Option Key} {next : Key} {pages : List (List Item)}
      (goes : (page key limit cursor (tables index)).next = some next)
      (rest : Listing (index + 1) (some next) pages) :
      Listing index cursor ((page key limit cursor (tables index)).items :: pages)

/-- The first request has no cursor, and each later one has that of the page before. -/
inductive Asked : Nat → Option Key → Prop
  | first : Asked 0 none
  | next {index : Nat} {cursor : Option Key} {last : Key} (asked : Asked index cursor)
      (goes : (page key limit cursor (tables index)).next = some last) :
      Asked (index + 1) (some last)

variable {key} {limit} {tables}

variable {index : Nat} {pages : List (List Item)}

variable {cursor : Option Key}

section

variable (listing : Listing key limit tables index cursor pages)

include listing

theorem Listing.bounded : ∀ items ∈ pages, items.length ≤ limit := by
  induction listing with
  | last ends => exact forall_mem_singleton.mpr page_length_le
  | more goes rest ih =>
    exact forall_mem_cons.mpr ⟨page_length_le, ih⟩

theorem Listing.lower : ∀ item ∈ pages.flatten, ∀ last, cursor = some last → key item < last := by
  induction listing with
  | last ends =>
    intro item member
    rw [flatten_singleton] at member
    exact (mem_remaining_iff.mp (page_items_sublist.subset member)).2
  | @more index cursor next pages goes rest ih =>
    intro item member last same
    rw [flatten_cons, mem_append] at member
    rcases member with first | later
    · exact (mem_remaining_iff.mp (page_items_sublist.subset first)).2 last same
    · obtain ⟨pageEq, older, bottom, whole, rfl⟩ := page_of_next_some goes
      have inside : bottom ∈ remaining key cursor (tables index) := by
        have taken : bottom ∈ (remaining key cursor (tables index)).take limit := by
          rw [whole]
          simp
        exact mem_of_mem_take taken
      exact (ih item later _ rfl).trans ((mem_remaining_iff.mp inside).2 last same)

/-- The keys of a listing go down all the way. -/
theorem Listing.descending (distinct : ∀ index, ((tables index).map key).Nodup) :
    pages.flatten.Pairwise fun first second => key second < key first := by
  induction listing with
  | last ends =>
    rw [flatten_singleton]
    exact (remaining_descending (distinct _)).sublist page_items_sublist
  | @more index cursor next pages goes rest ih =>
    rw [flatten_cons, pairwise_append]
    refine ⟨(remaining_descending (distinct _)).sublist page_items_sublist,
      ih, fun first inPage second later => ?_⟩
    have order : (remaining key cursor (tables index)).Pairwise fun first second =>
        key second < key first := remaining_descending (distinct index)
    obtain ⟨pageEq, older, bottom, whole, rfl⟩ := page_of_next_some goes
    have lower := rest.lower second later _ rfl
    rw [pageEq, whole, mem_append, mem_singleton] at inPage
    rcases inPage with before | rfl
    · have upper := order.sublist (take_sublist limit _)
      rw [whole, pairwise_append] at upper
      exact lower.trans (upper.2.2 first before bottom (mem_singleton_self _))
    · exact lower

/-- A listing misses no item that was there when it started. -/
theorem Listing.complete (positive : 0 < limit) (distinct : ∀ index, ((tables index).map key).Nodup)
    (grows : ∀ index, tables index ⊆ tables (index + 1)) :
    ∀ item ∈ remaining key cursor (tables index), item ∈ pages.flatten := by
  induction listing with
  | last ends =>
    intro item member
    rw [flatten_singleton, page_items_of_next_none positive ends]
    exact member
  | @more index cursor next pages goes rest ih =>
    intro item member
    rw [remaining_eq_append (distinct index) goes, mem_append] at member
    rw [flatten_cons, mem_append]
    refine member.imp_right fun later => ih item ?_
    obtain ⟨stored, below⟩ := mem_remaining_iff.mp later
    exact mem_remaining_iff.mpr ⟨grows index stored, below⟩

theorem Listing.sound : ∀ item ∈ pages.flatten, ∃ later, index ≤ later ∧ item ∈ tables later := by
  induction listing with
  | @last index cursor ends =>
    intro item member
    rw [flatten_singleton] at member
    exact ⟨index, le_rfl, (mem_remaining_iff.mp (page_items_sublist.subset member)).1⟩
  | @more index cursor next pages goes rest ih =>
    intro item member
    rw [flatten_cons, mem_append] at member
    rcases member with first | later
    · exact ⟨index, le_rfl, (mem_remaining_iff.mp (page_items_sublist.subset first)).1⟩
    · obtain ⟨reached, after, stored⟩ := ih item later
      exact ⟨reached, (Nat.le_succ index).trans after, stored⟩

end

/-- Once no item comes in below the cursor, each request leaves fewer items. -/
theorem Asked.finishes {quiet index : Nat} {cursor : Option Key}
    (distinct : ∀ index, ((tables index).map key).Nodup)
    (still : ∀ index, quiet ≤ index → ∀ last, Asked key limit tables (index + 1) (some last) →
      ∀ item ∈ tables (index + 1), key item < last → item ∈ tables index)
    (late : quiet ≤ index) (asked : Asked key limit tables index cursor) :
    ∃ pages, Listing key limit tables index cursor pages := by
  induction count : (remaining key cursor (tables index)).length using Nat.strong_induction_on
    generalizing index cursor with
  | _ count ih =>
    cases goes : (page key limit cursor (tables index)).next with
    | none => exact ⟨_, .last goes⟩
    | some last =>
      have following := asked.next goes
      have parts := congrArg List.length (remaining_eq_append (distinct index) goes)
      rw [length_append] at parts
      have filled := length_pos_of_ne_nil (page_items_ne_nil goes)
      have fewer : (remaining key (some last) (tables (index + 1))).length ≤
          (remaining key (some last) (tables index)).length := by
        have separate : (remaining key (some last) (tables (index + 1))).Nodup :=
          (remaining_descending (distinct (index + 1))).imp
            fun below same => absurd (same ▸ below) (lt_irrefl _)
        refine (subperm_of_subset separate fun item member => ?_).length_le
        obtain ⟨stored, below⟩ := mem_remaining_iff.mp member
        exact mem_remaining_iff.mpr
          ⟨still index late last following item stored (below last rfl), below⟩
      obtain ⟨pages, rest⟩ := ih _ (by omega) (show quiet ≤ index + 1 by omega) following rfl
      exact ⟨_, .more goes rest⟩

/-- A listing ends when at some point no more items come in below the cursor. -/
theorem exists_listing {quiet : Nat} (distinct : ∀ index, ((tables index).map key).Nodup)
    (still : ∀ index, quiet ≤ index → ∀ last, Asked key limit tables (index + 1) (some last) →
      ∀ item ∈ tables (index + 1), key item < last → item ∈ tables index) :
    ∃ pages, Listing key limit tables 0 none pages := by
  suffices general : ∀ left index cursor, index + left = quiet →
      Asked key limit tables index cursor →
        ∃ pages, Listing key limit tables index cursor pages from
    general quiet 0 none (Nat.zero_add quiet) .first
  intro left
  induction left with
  | zero =>
    intro index cursor reached asked
    exact asked.finishes distinct still (le_of_eq reached.symm)
  | succ left ih =>
    intro index cursor reached asked
    cases goes : (page key limit cursor (tables index)).next with
    | none => exact ⟨_, .last goes⟩
    | some last =>
      obtain ⟨pages, rest⟩ := ih (index + 1) (some last) (by omega) (asked.next goes)
      exact ⟨_, .more goes rest⟩

end Listing

end Tempogate.Foundation.Keyset
