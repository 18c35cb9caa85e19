/-
This file defines a keyed table of rows as SQL statements read and change it.
-/

import Mathlib.Data.List.Basic
import Mathlib.Data.List.Nodup
import Mathlib.Data.List.Sort

namespace Tempogate.Foundation

open List

/-- An entry pairs a stored row with its rowid. -/
structure Entry (Row : Type) where
  rowid : Nat
  row : Row
  deriving DecidableEq, Repr

/-- A table keeps its entries by increasing rowid and holds each primary key once. -/
structure Table {Row Key : Type} (key : Row → Key) where
  entries : List (Entry Row)
  distinct : ((entries.map Entry.row).map key).Nodup
  ordered : (entries.map Entry.rowid).Pairwise (· < ·)

/-- In a list by increasing rowid, what follows a page comes after the last rowid of the page. -/
theorem filter_page {Item : Type} {rowid : Item → Nat} {items : List Item}
    (ordered : items.Pairwise fun first second => rowid first < rowid second)
    {cursor limit : Nat} {last : Item}
    (ends : ((items.filter fun item => cursor < rowid item).take limit).getLast? = some last) :
    (items.filter fun item => cursor < rowid item) =
      (items.filter fun item => cursor < rowid item).take limit ++
        items.filter fun item => rowid last < rowid item := by
  generalize above : (items.filter fun item => cursor < rowid item) = rest at ends ⊢
  have sorted : rest.Pairwise fun first second => rowid first < rowid second :=
    above ▸ ordered.filter _
  have split : rest = rest.take limit ++ rest.drop limit := (take_append_drop limit _).symm
  obtain ⟨older, page⟩ := List.getLast?_eq_some_iff.mp ends
  have later : cursor < rowid last := by
    have member : last ∈ items.filter fun item => cursor < rowid item := by
      rw [above, split, page]
      simp
    simpa using (mem_filter.mp member).2
  rw [split, pairwise_append] at sorted
  have skipped : ∀ item ∈ rest.take limit, ¬ rowid last < rowid item := by
    intro item present
    rw [page, mem_append, mem_singleton] at present
    rw [page, pairwise_append] at sorted
    rcases present with before | rfl
    · exact Nat.not_lt.mpr (sorted.1.2.2 item before last (mem_singleton_self _)).le
    · exact Nat.lt_irrefl _
  have kept : ∀ item ∈ rest.drop limit, rowid last < rowid item := by
    intro item present
    refine sorted.2.2 last ?_ item present
    rw [page]
    simp
  have narrowed : (items.filter fun item => rowid last < rowid item) =
      rest.filter fun item => rowid last < rowid item := by
    rw [← above, filter_filter]
    refine filter_congr fun item _ => ?_
    by_cases beyondLast : rowid last < rowid item
    · simp [beyondLast, later.trans beyondLast]
    · simp [beyondLast]
  have remaining : (items.filter fun item => rowid last < rowid item) = rest.drop limit := by
    rw [narrowed]
    conv_lhs => rw [split]
    rw [filter_append, filter_eq_nil_iff.mpr (by simpa using skipped),
      filter_eq_self.mpr (by simpa using kept), nil_append]
  rw [remaining]
  exact split

/-- Distinct members of a list without repetition are each counted once. -/
theorem countP_mem {Item : Type} [DecidableEq Item] {items chosen : List Item}
    (distinct : items.Nodup) (once : chosen.Nodup) (inside : chosen ⊆ items) :
    items.countP (· ∈ chosen) = chosen.length := by
  have perm : (items.filter (· ∈ chosen)).Perm chosen := by
    refine (perm_ext_iff_of_nodup (distinct.filter _) once).mpr fun item => ?_
    rw [mem_filter, decide_eq_true_eq]
    exact ⟨And.right, fun member => ⟨inside member, member⟩⟩
  rw [← perm.length_eq, ← countP_eq_length_filter]

/-- In a list of distinct names at most one item has a given name. -/
theorem filter_eq_toList {Item Name : Type} [DecidableEq Name] {name : Item → Name}
    {items : List Item} (distinct : (items.map name).Nodup) (value : Name) :
    (items.filter fun item => name item = value) =
      (items.find? fun item => name item = value).toList := by
  induction items with
  | nil => rfl
  | cons item rest ih =>
    rw [map_cons, nodup_cons] at distinct
    by_cases same : name item = value
    · have none : (rest.filter fun other => name other = value) = [] :=
        filter_eq_nil_iff.mpr fun other present equal => distinct.1
          (mem_map.mpr ⟨other, present, (of_decide_eq_true equal).trans same.symm⟩)
      simp [same, none]
    · simp [same, ih distinct.2]

namespace Table

variable {Row Key : Type} {key : Row → Key}

@[ext] theorem ext {first second : Table key} (same : first.entries = second.entries) :
    first = second := by
  cases first
  cases second
  congr

def empty : Table key where
  entries := []
  distinct := nodup_nil
  ordered := List.Pairwise.nil

variable (table : Table key)

def rows : List Row :=
  table.entries.map Entry.row

@[simp] theorem rows_empty : (empty : Table key).rows = [] := rfl

/-- A new row takes the rowid after the largest one in use. -/
def nextRowid : Nat :=
  match table.entries.getLast? with
  | some entry => entry.rowid + 1
  | none => 1

theorem lt_nextRowid {entry : Entry Row} (present : entry ∈ table.entries) :
    entry.rowid < table.nextRowid := by
  have ordered := table.ordered
  unfold nextRowid
  rcases eq_nil_or_concat table.entries with none | ⟨older, last, split⟩
  · simp [none] at present
  · rw [split] at present ordered ⊢
    simp only [concat_eq_append, List.getLast?_append, List.getLast?_singleton, Option.some_or]
    rw [concat_eq_append, map_append, pairwise_append] at ordered
    rw [concat_eq_append, mem_append, mem_singleton] at present
    rcases present with before | rfl
    · have below := ordered.2.2 entry.rowid (mem_map_of_mem before) last.rowid (by simp)
      omega
    · omega

/-- This function appends a row whose key the table does not hold. -/
def append (row : Row) (absent : key row ∉ table.rows.map key) : Table key where
  entries := table.entries ++ [⟨table.nextRowid, row⟩]
  distinct := by
    simp only [map_append, map_cons, map_nil, nodup_append]
    refine ⟨table.distinct, nodup_singleton _, ?_⟩
    intro stored member new isNew same
    rw [same, mem_singleton.mp isNew] at member
    exact absent member
  ordered := by
    simp only [map_append, map_cons, map_nil, pairwise_append]
    refine ⟨table.ordered, pairwise_singleton _ _, ?_⟩
    intro rowid member last isLast
    obtain ⟨entry, present, rfl⟩ := mem_map.mp member
    rw [mem_singleton.mp isLast]
    exact table.lt_nextRowid present

/-- An INSERT appends the row, or reports that its key is taken. -/
def insert [DecidableEq Key] (table : Table key) (row : Row) : Option (Table key) :=
  if absent : key row ∉ table.rows.map key then some (table.append row absent) else none

/-- An UPDATE changes each selected row and never its key. -/
def update (selects : Row → Bool) (change : Row → Row)
    (keeps : ∀ row, key (change row) = key row) : Table key where
  entries := table.entries.map fun entry =>
    if selects entry.row then { entry with row := change entry.row } else entry
  distinct := by
    have same : ∀ entry : Entry Row, key (if selects entry.row then
        { entry with row := change entry.row } else entry).row = key entry.row := by
      intro entry
      by_cases selected : selects entry.row <;> simp [selected, keeps]
    have distinct := table.distinct
    simp only [map_map, Function.comp_def] at distinct ⊢
    simpa only [same] using distinct
  ordered := by
    rw [map_map]
    convert table.ordered using 2
    funext entry
    by_cases selected : selects entry.row <;> simp [selected]

/-- A DELETE removes each selected row. -/
def delete (selects : Row → Bool) : Table key where
  entries := table.entries.filter fun entry => !selects entry.row
  distinct := table.distinct.sublist ((filter_sublist.map _).map _)
  ordered := table.ordered.sublist (filter_sublist.map _)

/-- This DELETE names the rowids of the rows it removes. -/
def deleteRowids (rowids : List Nat) : Table key where
  entries := table.entries.filter fun entry => entry.rowid ∉ rowids
  distinct := table.distinct.sublist ((filter_sublist.map _).map _)
  ordered := table.ordered.sublist (filter_sublist.map _)

/-- This query reads the next entries after a rowid. -/
def page (cursor limit : Nat) : List (Entry Row) :=
  (table.entries.filter fun entry => cursor < entry.rowid).take limit

@[simp] theorem rows_append (row : Row) (absent : key row ∉ table.rows.map key) :
    (table.append row absent).rows = table.rows ++ [row] := by
  simp [rows, append]

/-- A successful INSERT adds exactly the new row. -/
theorem rows_insert [DecidableEq Key] {table after : Table key} {row : Row}
    (inserted : table.insert row = some after) :
    after.rows = table.rows ++ [row] ∧ key row ∉ table.rows.map key := by
  unfold insert at inserted
  split at inserted
  next absent =>
    cases inserted
    exact ⟨rows_append table row absent, absent⟩
  · cases inserted

variable {row : Row} {table : Table key} {selects : Row → Bool}

/-- An INSERT fails exactly when its key is already stored. -/
theorem insert_eq_none [DecidableEq Key] :
    table.insert row = none ↔ key row ∈ table.rows.map key := by
  unfold insert
  split
  next absent => simpa using absent
  next present => simpa using present

/-- A key that no row has is free. -/
theorem isNone_find? [DecidableEq Key] (table : Table key) (row : Row) :
    (table.rows.find? fun other => key other = key row).isNone = (table.insert row).isSome := by
  rw [Bool.eq_iff_iff, ← Option.ne_none_iff_isSome, ne_eq, insert_eq_none]
  simp

@[simp] theorem rows_update (table : Table key) (selects : Row → Bool) (change : Row → Row)
    (keeps : ∀ row, key (change row) = key row) :
    (table.update selects change keeps).rows =
      table.rows.map fun row => if selects row then change row else row := by
  simp only [rows, update, map_map]
  refine map_congr_left fun entry _ => ?_
  by_cases selected : selects entry.row <;> simp [selected]

@[simp] theorem rows_delete (table : Table key) (selects : Row → Bool) :
    (table.delete selects).rows = table.rows.filter fun row => !selects row := by
  simp only [rows, delete, filter_map]
  rfl

/-- Updates that agree on the stored rows give the same table. -/
theorem update_congr {table : Table key} {selects other : Row → Bool} {change : Row → Row}
    {keeps : ∀ row, key (change row) = key row}
    (agree : ∀ row ∈ table.rows, selects row = other row) :
    table.update selects change keeps = table.update other change keeps := by
  apply Table.ext
  refine map_congr_left fun entry present => ?_
  rw [agree entry.row (mem_map_of_mem present)]

/-- An update that selects no stored row changes nothing. -/
theorem update_eq_self {table : Table key} {selects : Row → Bool} {change : Row → Row}
    {keeps : ∀ row, key (change row) = key row}
    (missed : ∀ row ∈ table.rows, selects row = false) :
    table.update selects change keeps = table := by
  apply Table.ext
  refine (map_congr_left fun entry present => ?_).trans (map_id _)
  rw [missed entry.row (mem_map_of_mem present)]
  rfl

/-- Two updates make one when the second leaves alone what the first one changed. -/
theorem update_update {first second both : Row → Bool} {change : Row → Row}
    {keeps : ∀ row, key (change row) = key row}
    (changed : ∀ row ∈ table.rows, first row → both row ∧ second (change row) = false)
    (kept : ∀ row ∈ table.rows, first row = false → both row = second row) :
    (table.update first change keeps).update second change keeps =
      table.update both change keeps := by
  apply Table.ext
  simp only [update, map_map]
  refine map_congr_left fun entry present => ?_
  have stored : entry.row ∈ table.rows := mem_map_of_mem present
  cases selected : first entry.row with
  | true =>
    obtain ⟨inBoth, missed⟩ := changed entry.row stored selected
    simp [selected, inBoth, missed]
  | false => simp [selected, kept entry.row stored selected]

/-- A delete that selects no stored row changes nothing. -/
theorem delete_eq_self (missed : ∀ row ∈ table.rows, selects row = false) :
    table.delete selects = table := by
  apply Table.ext
  refine filter_eq_self.mpr fun entry present => ?_
  rw [missed entry.row (mem_map_of_mem present)]
  rfl

/-- Two deletes make one. -/
theorem delete_delete (table : Table key) (first second : Row → Bool) :
    (table.delete first).delete second = table.delete fun row => first row || second row := by
  apply Table.ext
  simp only [delete, filter_filter]
  refine filter_congr fun entry _ => ?_
  rw [Bool.not_or, Bool.and_comm]

/-- Two deletes count each row once. -/
theorem countP_delete (table : Table key) (first second : Row → Bool) :
    (table.rows.countP fun row => first row || second row) =
      table.rows.countP first + (table.delete first).rows.countP second := by
  rw [rows_delete]
  induction table.rows with
  | nil => rfl
  | cons row rest ih =>
    rw [countP_cons, countP_cons, filter_cons, ih]
    cases chosen : first row with
    | true =>
      simp only [Bool.true_or, if_true, Bool.not_true, Bool.false_eq_true, if_false]
      omega
    | false =>
      simp only [Bool.false_or, Bool.false_eq_true, if_false, Bool.not_false, if_true,
        countP_cons]
      omega

/-- Stored rows with one key are the same row. -/
theorem eq_of_key_eq (table : Table key) {first second : Row} (inFirst : first ∈ table.rows)
    (inSecond : second ∈ table.rows) (same : key first = key second) : first = second := by
  exact inj_on_of_nodup_map table.distinct inFirst inSecond same

/-- The order of the rows does not matter to a search that at most one of them answers. -/
theorem find_perm {first second : List Row} (perm : first.Perm second)
    (unique : ∀ row ∈ first, ∀ other ∈ first, selects row → selects other → row = other) :
    first.find? selects = second.find? selects := by
  cases found : first.find? selects with
  | none =>
    refine (List.find?_eq_none.mpr fun row member => ?_).symm
    exact List.find?_eq_none.mp found row (perm.mem_iff.mpr member)
  | some row =>
    have member := mem_of_find?_eq_some found
    obtain ⟨other, search⟩ := Option.isSome_iff_exists.mp
      (List.find?_isSome.mpr ⟨row, perm.mem_iff.mp member, List.find?_some found⟩)
    rw [search, unique row member other (perm.mem_iff.mpr (mem_of_find?_eq_some search))
      (List.find?_some found) (List.find?_some search)]

/-- A search by the key finds the stored row with that key. -/
theorem find_eq_some_iff [DecidableEq Key] {value : Key} :
    (table.rows.find? fun row => key row = value) = some row ↔
      row ∈ table.rows ∧ key row = value := by
  constructor
  · intro found
    exact ⟨mem_of_find?_eq_some found, by simpa using List.find?_some found⟩
  · rintro ⟨member, rfl⟩
    cases found : table.rows.find? fun stored => key stored = key row with
    | none =>
      have missing := List.find?_eq_none.mp found row member
      simp at missing
    | some other =>
      have same : key other = key row := by simpa using List.find?_some found
      rw [table.eq_of_key_eq (mem_of_find?_eq_some found) member same]

/-- An update of the row with a key is found under that key. -/
theorem find_update [DecidableEq Key] {value : Key} {change : Row → Row}
    (keeps : ∀ row, key (change row) = key row)
    (found : (table.rows.find? fun row => key row = value) = some row) :
    ((table.update (fun row => key row = value) change keeps).rows.find?
      fun row => key row = value) = some (change row) := by
  obtain ⟨member, same⟩ := find_eq_some_iff.mp found
  refine find_eq_some_iff.mpr ⟨?_, (keeps row).trans same⟩
  rw [rows_update]
  exact mem_map.mpr ⟨row, member, if_pos (decide_eq_true same)⟩

/-- A stored key is counted once. -/
theorem countP_key [DecidableEq Key] (table : Table key) (member : row ∈ table.rows) :
    table.rows.countP (fun stored => key stored = key row) = 1 := by
  have counted := count_eq_one_of_mem table.distinct (mem_map_of_mem member)
  rw [count_eq_countP, countP_map] at counted
  rw [← counted]
  rfl

/-- Predicates that agree on the other rows count the same but for the row with the key. -/
theorem countP_of_key {table : Table key} {row : Row} (member : row ∈ table.rows)
    {without within : Row → Bool} (missed : without row = false)
    (same : ∀ other ∈ table.rows, key other ≠ key row → without other = within other) :
    table.rows.countP within = table.rows.countP without + if within row then 1 else 0 := by
  obtain ⟨older, newer, split⟩ := append_of_mem member
  have distinct := table.distinct
  change (table.rows.map key).Nodup at distinct
  rw [split, map_append, map_cons, nodup_middle, nodup_cons,
    ← map_append] at distinct
  have others : ∀ other ∈ older ++ newer, within other = without other := by
    intro other present
    refine (same other ?_ ?_).symm
    · rw [split]
      rcases mem_append.mp present with before | after
      · exact mem_append_left _ before
      · exact mem_append_right _ (mem_cons_of_mem _ after)
    · intro equal
      exact distinct.1 (equal ▸ mem_map_of_mem present)
  have counted : (older ++ newer).countP within = (older ++ newer).countP without :=
    countP_congr fun other present => by rw [others other present]
  rw [countP_append, countP_append] at counted
  rw [split, countP_append, countP_append, countP_cons, countP_cons, missed,
    if_neg Bool.false_ne_true]
  omega

/-- Stored entries with one rowid are the same entry. -/
theorem eq_of_rowid_eq (table : Table key) {first second : Entry Row}
    (inFirst : first ∈ table.entries) (inSecond : second ∈ table.entries)
    (same : first.rowid = second.rowid) : first = second :=
  inj_on_of_nodup_map (table.ordered.imp Nat.ne_of_lt) inFirst inSecond same

/-- These entries come after a rowid. -/
def beyond (table : Table key) (cursor : Nat) : List (Entry Row) :=
  table.entries.filter fun entry => cursor < entry.rowid

/-- Rowids are counted from one. -/
def Numbered (table : Table key) : Prop := ∀ entry ∈ table.entries, 0 < entry.rowid

theorem numbered_empty : (empty : Table key).Numbered :=
  fun _ member => absurd member not_mem_nil

theorem Numbered.insert [DecidableEq Key] {after : Table key} (numbered : table.Numbered)
    (inserted : table.insert row = some after) : after.Numbered := by
  unfold Table.insert at inserted
  split at inserted
  · cases inserted
    intro entry present
    rcases mem_append.mp present with old | new
    · exact numbered entry old
    · rw [mem_singleton.mp new]
      unfold nextRowid
      split
      · exact Nat.succ_pos _
      · exact Nat.one_pos
  · cases inserted

theorem Numbered.update (numbered : table.Numbered) (selects : Row → Bool) (change : Row → Row)
    (keeps : ∀ row, key (change row) = key row) :
    (table.update selects change keeps).Numbered := by
  intro entry present
  obtain ⟨old, member, rfl⟩ := mem_map.mp present
  split
  · exact numbered old member
  · exact numbered old member

theorem Numbered.delete (numbered : table.Numbered) (selects : Row → Bool) :
    (table.delete selects).Numbered :=
  fun entry present => numbered entry (mem_of_mem_filter present)

/-- Reading a table from the cursor zero misses no entry. -/
theorem Numbered.beyond_zero (numbered : table.Numbered) : table.beyond 0 = table.entries :=
  filter_eq_self.mpr fun entry present => decide_eq_true (numbered entry present)

/-- What follows a page is what comes after its last rowid. -/
theorem beyond_page {cursor limit : Nat} {last : Entry Row}
    (ends : (table.page cursor limit).getLast? = some last) :
    table.beyond cursor = table.page cursor limit ++ table.beyond last.rowid :=
  filter_page (pairwise_map.mp table.ordered) ends

/-- A delete by rowid is one by a property that the named rows and no others have. -/
theorem deleteRowids_eq {rowids : List Nat}
    (named : ∀ entry ∈ table.entries, entry.rowid ∈ rowids ↔ selects entry.row = true) :
    table.deleteRowids rowids = table.delete selects := by
  apply Table.ext
  refine filter_congr fun entry present => ?_
  simp [named entry present]

theorem deleteRowids_nil (table : Table key) : table.deleteRowids [] = table := by
  apply Table.ext
  exact filter_eq_self.mpr fun entry _ => by simp

/-- Two deletes by rowid make one. -/
theorem deleteRowids_deleteRowids (table : Table key) (first second : List Nat) :
    (table.deleteRowids first).deleteRowids second = table.deleteRowids (first ++ second) := by
  apply Table.ext
  simp only [deleteRowids, filter_filter]
  refine filter_congr fun entry _ => ?_
  simp [Bool.and_comm]

/-- Distinct stored rowids are each counted once. -/
theorem countP_rowids (table : Table key) {rowids : List Nat} (distinct : rowids.Nodup)
    (stored : rowids ⊆ table.entries.map Entry.rowid) :
    (table.entries.countP fun entry => entry.rowid ∈ rowids) = rowids.length := by
  rw [← countP_mem (table.ordered.imp Nat.ne_of_lt) distinct stored, countP_map]
  rfl

section Keys

variable [DecidableEq Key] (table : Table key)

/-- Distinct stored keys are each counted once. -/
theorem countP_keys {keys : List Key} (distinct : keys.Nodup) (stored : keys ⊆ table.rows.map key) :
    (table.rows.countP fun row => key row ∈ keys) = keys.length := by
  rw [← countP_mem table.distinct distinct stored, countP_map]
  rfl

/-- A delete may name the rows by their keys. -/
theorem delete_keys (selects : Row → Bool) :
    (table.delete fun row => key row ∈ (table.rows.filter selects).map key) =
      table.delete selects := by
  apply Table.ext
  refine filter_congr fun entry present => ?_
  have stored : entry.row ∈ table.rows := mem_map_of_mem present
  have named : key entry.row ∈ (table.rows.filter selects).map key ↔ selects entry.row = true := by
    constructor
    · intro member
      obtain ⟨row, chosen, same⟩ := mem_map.mp member
      obtain ⟨isStored, selected⟩ := mem_filter.mp chosen
      rwa [← table.eq_of_key_eq isStored stored same]
    · exact fun selected => mem_map_of_mem (mem_filter.mpr ⟨stored, selected⟩)
  simp [named]

/-- A delete by keys takes these keys from every selection. -/
theorem selected_delete (selects : Row → Bool) (keys : List Key) :
    ((table.delete fun row => key row ∈ keys).rows.filter selects).map key =
      ((table.rows.filter selects).map key).filter (· ∉ keys) := by
  rw [rows_delete, filter_filter, filter_map, filter_filter]
  congr 1
  refine filter_congr fun row _ => ?_
  simp [Bool.and_comm]

end Keys

/-- An INSERT that skips a stored key keeps every entry. -/
theorem mem_entries_insert [DecidableEq Key] {entry : Entry Row} (row : Row)
    (present : entry ∈ table.entries) : entry ∈ ((table.insert row).getD table).entries := by
  unfold insert
  split
  · exact mem_append_left _ present
  · exact present

/-- After such an INSERT the key is stored. -/
theorem key_mem_insert [DecidableEq Key] (table : Table key) (row : Row) :
    key row ∈ ((table.insert row).getD table).rows.map key := by
  unfold insert
  split
  next absent => simp
  next present => simpa using present

end Table

end Tempogate.Foundation
