/-
This file proves that the pages of the key listing cover the keys without gaps or repeats.
-/

import Tempogate.Construction.Admin.Keys
import Tempogate.Foundation.Keyset

namespace Tempogate.Admin

open Foundation Oidc Keyset ListBody List

/-- An empty cursor asks for the first page. -/
def cursorOf (cursor : String) : Option String := if cursor = "" then none else some cursor

theorem cursorOf_getD {next : Option String} (named : ∀ last, next = some last → last ≠ "") :
    cursorOf (next.getD "") = next := by
  cases next with
  | none => rfl
  | some last => exact if_neg (named last rfl)

theorem clampLimit_pos (limit : Int) : 0 < clampLimit limit := by
  rw [clampLimit]
  split
  · decide
  · split
    · decide
    · omega

section

variable (input : ListInput)

/-- These keys match the filter. -/
def matching (rows : List IntegrationKey) : List IntegrationKey :=
  rows.filter (ListFilter.selects ⟨input.owner, input.namespaceName, input.limit, ""⟩)

/-- The query returns the first rows of what remains below the cursor. -/
theorem selectKeys_eq (cursor : String) (rows : List IntegrationKey) :
    selectKeys ⟨input.owner, input.namespaceName, clampLimit input.limit, cursor⟩ rows =
      (remaining IntegrationKey.id (cursorOf cursor)
        (matching input rows)).take ((clampLimit input.limit).toNat + 1) := by
  have positive := clampLimit_pos input.limit
  have bound : (clampLimit input.limit + 1).toNat = (clampLimit input.limit).toNat + 1 := by omega
  have below : ∀ key : IntegrationKey, ((cursor = "" || key.id < cursor) : Bool) =
      (cursorOf cursor).all fun last => key.id < last := by
    intro key
    by_cases blank : cursor = ""
    · simp [cursorOf, blank]
    · simp [cursorOf, blank]
  rw [selectKeys, if_neg (not_le.mpr positive), bound, remaining, matching, filter_filter]
  simp only [below]
  congr 2
  refine filter_congr fun key _ => ?_
  rw [Bool.and_comm]
  rfl

/-- The handler cuts its page as the library does. -/
theorem listPage_eq (cursor : Option String) (rows : List IntegrationKey) :
    listPage (clampLimit input.limit) ((remaining IntegrationKey.id cursor rows).take
        ((clampLimit input.limit).toNat + 1)) =
      ⟨(page IntegrationKey.id (clampLimit input.limit).toNat cursor rows).items.map viewOf,
        (page IntegrationKey.id (clampLimit input.limit).toNat cursor rows).next.getD ""⟩ := by
  have positive := clampLimit_pos input.limit
  rw [listPage, page]
  generalize (remaining IntegrationKey.id cursor rows).take
    ((clampLimit input.limit).toNat + 1) = found
  by_cases long : (clampLimit input.limit).toNat < found.length
  · have more : clampLimit input.limit < (found.length : Int) := by omega
    have index : (clampLimit input.limit - 1).toNat = (clampLimit input.limit).toNat - 1 := by omega
    have inside : (clampLimit input.limit).toNat - 1 < found.length := by omega
    rw [if_pos more, if_pos long, List.getLast?_take, if_neg (by omega), index,
      List.getElem?_eq_getElem inside]
    rfl
  · have less : ¬ clampLimit input.limit < (found.length : Int) := by omega
    rw [if_neg less, if_neg long]
    rfl

end

/-- A client follows the cursors from one request on until a page has none. -/
inductive Follows (answer : Nat → String → Except AdminError ListBody) :
    Nat → String → List ListBody → Prop
  | last {index : Nat} {cursor : String} {body : ListBody}
      (answered : answer index cursor = .ok body) (ends : body.nextCursor = "") :
      Follows answer index cursor [body]
  | more {index : Nat} {cursor : String} {body : ListBody} {bodies : List ListBody}
      (answered : answer index cursor = .ok body) (goes : body.nextCursor ≠ "")
      (rest : Follows answer (index + 1) body.nextCursor bodies) :
      Follows answer index cursor (body :: bodies)

/-- The first request has no cursor, and each later one has that of the page before. -/
inductive Asked (answer : Nat → String → Except AdminError ListBody) : Nat → String → Prop
  | first : Asked answer 0 ""
  | next {index : Nat} {cursor : String} {body : ListBody} (asked : Asked answer index cursor)
      (answered : answer index cursor = .ok body) (goes : body.nextCursor ≠ "") :
      Asked answer (index + 1) body.nextCursor

section

/-- The stored ids are UUIDs, which an empty text or one with a zero byte is not. -/
structure Identified (isUUID : String → Bool) (tables : Nat → Table IntegrationKey.id) : Prop where
  blank : isUUID "" = false
  stored : ∀ index, ∀ key ∈ (tables index).rows, isUUID key.id = true ∧ Storable key.id

variable {isUUID : String → Bool} {tables : Nat → Table IntegrationKey.id}
  {input : ListInput}
  {listKeys : ListFilter → List IntegrationKey → Except String (List IntegrationKey)}

/-- This is the answer to one request for a page, with the keys that are stored at that time. The
cursor takes the place of that of the input. -/
def answerList (isUUID : String → Bool)
    (listKeys : ListFilter → List IntegrationKey → Except String (List IntegrationKey))
    (tables : Nat → Table IntegrationKey.id) (input : ListInput)
    (index : Nat) (cursor : String) : Except AdminError ListBody :=
  list isUUID (fun filter => listKeys filter (tables index).rows)
    { input with cursor := cursor }

/-- These are the matching keys at each request. -/
def matchingAt (tables : Nat → Table IntegrationKey.id) (input : ListInput) (index : Nat) :
    List IntegrationKey :=
  matching input (tables index).rows

/-- This is the page the library cuts. -/
def pageAt (tables : Nat → Table IntegrationKey.id) (input : ListInput) (index : Nat)
    (cursor : Option String) : Keyset.Page IntegrationKey String :=
  page IntegrationKey.id (clampLimit input.limit).toNat cursor
    (matchingAt tables input index)

theorem matchingAt_distinct (index : Nat) :
    ((matchingAt tables input index).map IntegrationKey.id).Nodup :=
  (tables index).distinct.sublist (filter_sublist.map IntegrationKey.id)

/-- The backend answers the query of this filter below every cursor it can take. -/
def Queries (listKeys : ListFilter → List IntegrationKey → Except String (List IntegrationKey))
    (input : ListInput) : Prop :=
  ∀ cursor rows, Storable cursor →
    listKeys ⟨input.owner, input.namespaceName, clampLimit input.limit, cursor⟩ rows =
      .ok (selectKeys ⟨input.owner, input.namespaceName, clampLimit input.limit, cursor⟩ rows)

theorem queries_sqlite : Queries Sqlite.listIntegrationKeys input :=
  fun _ _ _ => rfl

theorem queries_postgres (storable : Storable input.owner ∧ Storable input.namespaceName) :
    Queries Postgres.listIntegrationKeys input := by
  intro cursor rows cursorStorable
  refine if_pos ?_
  simp [storable, cursorStorable]

/-- Postgres refuses the first request of a listing whose filter it cannot take. -/
theorem answerList_refused (unstorable : ¬ (Storable input.owner ∧ Storable input.namespaceName))
    (index : Nat) :
    answerList isUUID Postgres.listIntegrationKeys tables input index "" =
      .error (.failure ("admin: list integration keys: " ++
        ("postgres: list integration keys: " ++ invalidText))) := by
  have refused : ¬ ∀ text ∈ [input.owner, input.namespaceName, ""], Storable text := fun every =>
    unstorable ⟨every input.owner (by simp), every input.namespaceName (by simp)⟩
  simp only [answerList, list, Postgres.listIntegrationKeys, if_neg refused, ne_eq, not_true,
    decide_false, Bool.false_and, Bool.false_eq_true, if_false]

variable {cursor : Option String}

/-- A cursor names the id of a key. -/
def Valid (isUUID : String → Bool) (cursor : Option String) : Prop :=
  ∀ last, cursor = some last → last ≠ "" ∧ isUUID last = true ∧ Storable last

section

variable (identified : Identified isUUID tables)

include identified

/-- The cursor of a page is the id of a stored key. -/
theorem next_valid {index : Nat} :
    Valid isUUID (pageAt tables input index cursor).next := by
  intro last goes
  obtain ⟨-, older, key, whole, rfl⟩ := page_of_next_some goes
  have taken : key ∈ (remaining IntegrationKey.id cursor
      (matchingAt tables input index)).take (clampLimit input.limit).toNat := by
    rw [whole]
    simp
  have found := (mem_remaining_iff.mp (mem_of_mem_take taken)).1
  obtain ⟨named, storable⟩ := identified.stored index key (mem_filter.mp found).1
  refine ⟨fun empty => ?_, named, storable⟩
  rw [empty, identified.blank] at named
  cases named

end

section

variable (queries : Queries listKeys input)

include queries

/-- A request with an empty cursor or that of a stored key gets the page of the library. -/
theorem answerList_eq (valid : Valid isUUID cursor) (index : Nat) :
    answerList isUUID listKeys tables input index (cursor.getD "") =
      .ok ⟨(pageAt tables input index cursor).items.map viewOf,
        (pageAt tables input index cursor).next.getD ""⟩ := by
  have same : cursorOf (cursor.getD "") = cursor := cursorOf_getD fun last found =>
    (valid last found).1
  have accepted : (cursor.getD "" ≠ "" && !isUUID (cursor.getD "")) = false ∧
      Storable (cursor.getD "") := by
    cases cursor with
    | none => exact ⟨rfl, not_mem_nil⟩
    | some last =>
      obtain ⟨-, named, storable⟩ := valid last rfl
      exact ⟨by simp [named], storable⟩
  rw [answerList, list]
  simp only [accepted.1, Bool.false_eq_true, if_false]
  rw [queries _ _ accepted.2, selectKeys_eq, same]
  exact congrArg Except.ok (listPage_eq input cursor _)

variable (identified : Identified isUUID tables)

include identified

/-- The answered pages are those of a listing. -/
theorem exists_listing_of_follows {index : Nat} {cursor : Option String} {bodies : List ListBody}
    (valid : Valid isUUID cursor)
    (follows : Follows (answerList isUUID listKeys tables input) index
      (cursor.getD "") bodies) :
    ∃ pages, Keyset.Listing IntegrationKey.id (clampLimit input.limit).toNat
        (matchingAt tables input) index cursor pages ∧
      bodies.map items = pages.map (List.map viewOf) := by
  generalize text : cursor.getD "" = asked at follows
  induction follows generalizing cursor with
  | @last index _ body answered ends =>
    subst text
    rw [answerList_eq queries valid index] at answered
    cases answered
    have finished : (pageAt tables input index cursor).next = none := by
      cases goes : (pageAt tables input index cursor).next with
      | none => rfl
      | some last =>
        simp only [goes, Option.getD_some] at ends
        exact absurd ends (next_valid identified last goes).1
    exact ⟨_, .last finished, rfl⟩
  | @more index _ body bodies answered goes rest ih =>
    subst text
    rw [answerList_eq queries valid index] at answered
    cases answered
    cases next : (pageAt tables input index cursor).next with
    | none => simp only [next, Option.getD_none, ne_eq, not_true] at goes
    | some last =>
      obtain ⟨pages, listing, same⟩ := @ih (some last) (next ▸ next_valid identified)
        (by simp only [next])
      refine ⟨_, .more next listing, ?_⟩
      rw [map_cons, same, map_cons]
      rfl

/-- Every listing is answered page by page. -/
theorem follows_of_listing {index : Nat} {cursor : Option String}
    {pages : List (List IntegrationKey)} (valid : Valid isUUID cursor)
    (listing : Keyset.Listing IntegrationKey.id (clampLimit input.limit).toNat
      (matchingAt tables input) index cursor pages) :
    ∃ bodies, Follows (answerList isUUID listKeys tables input) index
      (cursor.getD "") bodies := by
  induction listing with
  | @last index cursor ends =>
    have finished : (pageAt tables input index cursor).next = none := ends
    exact ⟨_, .last (answerList_eq queries valid index) (by simp [finished])⟩
  | @more index cursor last pages goes rest ih =>
    have next : (pageAt tables input index cursor).next = some last := goes
    have named := next_valid identified last next
    obtain ⟨bodies, follows⟩ := ih (next ▸ next_valid identified)
    have cursorEq : (pageAt tables input index cursor).next.getD "" = last := by
      rw [next, Option.getD_some]
    refine ⟨_ :: bodies, .more (answerList_eq queries valid index) ?_ ?_⟩
    · rw [cursorEq]
      exact named.1
    · rw [cursorEq]
      exact follows

theorem asked_of_asked {index : Nat}
    (asked : Keyset.Asked IntegrationKey.id (clampLimit input.limit).toNat
      (matchingAt tables input) index cursor) :
    Valid isUUID cursor ∧
      Asked (answerList isUUID listKeys tables input) index
        (cursor.getD "") := by
  induction asked with
  | first => exact ⟨nofun, .first⟩
  | @next index cursor last before goes ih =>
    have next : (pageAt tables input index cursor).next = some last := goes
    have cursorEq : (pageAt tables input index cursor).next.getD "" = last := by
      rw [next, Option.getD_some]
    refine ⟨next ▸ next_valid identified, ?_⟩
    have following := ih.2.next (answerList_eq queries ih.1 index) (by
      rw [cursorEq]
      exact (next_valid identified last next).1)
    rw [cursorEq] at following
    exact following

end

/-- These pages list each matching key that was stored at the first request once, in descending
order, and keep to the limit. -/
structure Lists (tables : Nat → Table IntegrationKey.id) (input : ListInput)
    (bodies : List ListBody) : Prop where
  once : ∀ key ∈ matching input (tables 0).rows, (bodies.flatMap items).count (viewOf key) = 1
  descending : ((bodies.flatMap items).map KeyView.id).Pairwise (· > ·)
  bounded : ∀ body ∈ bodies, (body.items.length : Int) ≤ clampLimit input.limit
  stored : ∀ view ∈ bodies.flatMap items, ∃ index,
    ∃ key ∈ matching input (tables index).rows, viewOf key = view

section

variable (identified : Identified isUUID tables)
  (grows : ∀ index, (tables index).rows ⊆ (tables (index + 1)).rows)
  (queries : Queries listKeys input)

include identified queries

include grows in
/-- A listing yields each matching key that was stored when it began once, in descending order. -/
theorem follows_covers {bodies : List ListBody}
    (follows : Follows (answerList isUUID listKeys tables input) 0 "" bodies) :
    Lists tables input bodies := by
  have positive : 0 < (clampLimit input.limit).toNat := by
    have := clampLimit_pos input.limit
    omega
  have larger : ∀ index, matchingAt tables input index ⊆
      matchingAt tables input (index + 1) := by
    intro index key member
    obtain ⟨stored, selected⟩ := mem_filter.mp member
    exact mem_filter.mpr ⟨grows index stored, selected⟩
  obtain ⟨pages, listing, bodiesEq⟩ :=
    @exists_listing_of_follows _ _ _ _ queries identified _ none _ nofun follows
  have itemsEq : bodies.flatMap items = pages.flatten.map viewOf := by
    rw [flatMap_def, bodiesEq, map_flatten]
  have descending := listing.descending matchingAt_distinct
  have ids : ((bodies.flatMap items).map KeyView.id).Pairwise (· > ·) := by
    rw [itemsEq, map_map, pairwise_map]
    exact descending
  refine ⟨fun key member => ?_, ids, fun body member => ?_, fun view member => ?_⟩
  · refine count_eq_one_of_mem ?_ ?_
    · have different : (bodies.flatMap items).Pairwise
          fun first second => first.id > second.id := pairwise_map.mp ids
      exact different.imp fun above same => absurd (same ▸ above) (lt_irrefl _)
    · rw [itemsEq]
      refine mem_map_of_mem (listing.complete positive matchingAt_distinct larger key ?_)
      exact mem_remaining_iff.mpr ⟨member, nofun⟩
  · have pageMember : body.items ∈ pages.map (List.map viewOf) :=
      bodiesEq ▸ mem_map_of_mem member
    obtain ⟨page, inPages, pageEq⟩ := mem_map.mp pageMember
    have short := listing.bounded page inPages
    rw [← pageEq, length_map]
    omega
  · rw [itemsEq] at member
    obtain ⟨key, listed, rfl⟩ := mem_map.mp member
    obtain ⟨index, -, stored⟩ := listing.sound key listed
    exact ⟨index, key, stored, rfl⟩

/-- A listing ends once no more keys come in below its cursor. -/
theorem exists_follows {quiet : Nat} (still : ∀ index, quiet ≤ index → ∀ cursor,
      Asked (answerList isUUID listKeys tables input) (index + 1) cursor →
        ∀ key ∈ matching input (tables (index + 1)).rows,
          key.id < cursor → key ∈ (tables index).rows) :
    ∃ bodies,
      Follows (answerList isUUID listKeys tables input) 0 "" bodies := by
  have settled : ∀ index, quiet ≤ index → ∀ last,
      Keyset.Asked IntegrationKey.id (clampLimit input.limit).toNat
        (matchingAt tables input) (index + 1) (some last) →
      ∀ key ∈ matchingAt tables input (index + 1), key.id < last →
        key ∈ matchingAt tables input index := by
    intro index late last asked key member below
    have stored := still index late last (asked_of_asked queries identified asked).2 key member
      below
    exact mem_filter.mpr ⟨stored, (mem_filter.mp member).2⟩
  obtain ⟨pages, listing⟩ := exists_listing matchingAt_distinct settled
  exact @follows_of_listing _ _ _ _ queries identified _ none _ nofun listing

end

end

/-- A UUID in its canonical form has hexadecimal digits around four dashes. -/
def canonicalUUID (text : String) : Bool :=
  text.length = 36 && text.toList.zipIdx.all fun letter =>
    if letter.2 ∈ [8, 13, 18, 23] then letter.1 = '-'
    else letter.1.isDigit || letter.1.toLower ∈ ['a', 'b', 'c', 'd', 'e', 'f']

def sampleKey (id : String) : IntegrationKey :=
  ⟨id, "orders", "read", "svc", id, 0, none, none⟩

def sampleTable (ids : List String) : Table IntegrationKey.id :=
  ids.foldl (fun table id => (table.insert (sampleKey id)).getD table) .empty

/-- These keys are stored when the listing begins. -/
def sampleIDs : List String :=
  ["0199d0c4-7a00-7000-8000-0000000000b2", "0199d0c4-7a00-7000-8000-0000000000d4"]

/-- Two keys come in after the first page, one of them below its cursor. -/
def sampleTables : Nat → Table IntegrationKey.id
  | 0 => sampleTable sampleIDs
  | _ + 1 => sampleTable (sampleIDs ++
      ["0199d0c4-7a00-7000-8000-0000000000c3", "0199d0c4-7a01-7000-8000-0000000000a1"])

def sampleInput : ListInput := ⟨"", "orders", 1, ""⟩

end Tempogate.Admin
