/-
This file shows what the calls of the rate limiter keep true and how many attempts they grant.
-/

import Tempogate.Construction.Ratelimit.Limiter
import Tempogate.Foundation.Recency

namespace Tempogate.Ratelimit

open Foundation Oidc TokenRate Ratelimit.State Function

variable {key : String} {id : Nat}

theorem seconds_sub (finish start : Time) :
    seconds (finish - start) = seconds finish - seconds start := by
  rw [seconds, seconds, seconds, Int.cast_sub, sub_div]

theorem seconds_injective : Function.Injective seconds := fun _ _ same =>
  Int.cast_injective ((div_left_inj' (by norm_num [second])).mp same)

theorem seconds_le {start finish : Time} (ordered : start ≤ finish) :
    seconds start ≤ seconds finish :=
  div_le_div_of_nonneg_right (Int.cast_le.mpr ordered) (by norm_num [second])

def Bucket.level (bucket : Bucket) : TokenBucket ℚ := ⟨bucket.tokens, seconds bucket.last⟩

/-- The map and the recency list hold the same buckets, one for each key and at most the cap of
them, and every bucket holds between no token and the burst. -/
structure Linked (limiter : Limiter) (state : State) : Prop where
  distinct : state.order.Nodup
  indexed : ∀ key id, state.buckets.lookup key = some id ↔
    id ∈ state.order ∧ (state.cells id).key = key
  perm : state.buckets.keys.Perm state.keys
  bounded : state.order.length ≤ limiter.maxKeys
  fresh : ∀ id ∈ state.order, id < state.next
  sound : ∀ id ∈ state.order, limiter.Sound (state.cells id).level

section Lists

variable {Item Key : Type} [DecidableEq Item] [DecidableEq Key]

theorem map_erase_of_unique {items : List Item} {item : Item} {name : Item → Key}
    (unique : ∀ other ∈ items, name other = name item → other = item) :
    (items.erase item).map name = (items.map name).erase (name item) := by
  induction items with
  | nil => rfl
  | cons first rest ih =>
    have later := ih fun other member => unique other (.tail _ member)
    by_cases same : first = item
    · subst same
      simp
    · have different : name first ≠ name item := fun equal => same (unique first (.head _) equal)
      rw [List.erase_cons_tail (by simpa using same), List.map_cons, List.map_cons,
        List.erase_cons_tail (by simpa using different), later]

theorem erase_getLast {items : List Item} {item : Item} (distinct : items.Nodup)
    (last : items.getLast? = some item) : items.erase item = items.take (items.length - 1) := by
  obtain ⟨older, rfl⟩ := List.getLast?_eq_some_iff.mp last
  have absent : item ∉ older := fun member =>
    (List.nodup_append.mp distinct).2.2 item member item (List.mem_singleton_self _) rfl
  rw [List.erase_append_right _ absent, List.erase_cons_head, List.append_nil, List.length_append,
    List.length_singleton, Nat.add_sub_cancel, List.take_left']
  rfl

end Lists

namespace Linked

variable {limiter : Limiter} {state : State}

variable (linked : Linked limiter state)

include linked

theorem length_entries : state.buckets.entries.length = state.order.length := by
  have same := linked.perm.length_eq
  rwa [AList.keys, List.keys, List.length_map, keys, List.length_map] at same

/-- Buckets of one key are one bucket. -/
theorem unique {first second : Nat} (isFirst : first ∈ state.order)
    (isSecond : second ∈ state.order) (same : (state.cells first).key = (state.cells second).key) :
    first = second := by
  have one := (linked.indexed _ first).mpr ⟨isFirst, same⟩
  have other := (linked.indexed _ second).mpr ⟨isSecond, rfl⟩
  exact Option.some_injective _ (one.symm.trans other)

variable {id : Nat}

theorem keys_erase (present : id ∈ state.order) :
    ((state.order.erase id).map fun id => (state.cells id).key) =
      state.keys.erase (state.cells id).key :=
  map_erase_of_unique fun _ member same => linked.unique member present same

theorem mem_keys : key ∈ state.keys ↔ (state.find key).isSome = true := by
  rw [find, Option.isSome_map, Option.isSome_iff_exists]
  simp [keys, linked.indexed]

variable (present : id ∈ state.order)

include present

theorem find_cell : state.find (state.cells id).key = some (state.cells id) := by
  rw [find, (linked.indexed _ id).mpr ⟨present, rfl⟩, Option.map_some]

theorem remove : Linked limiter (state.remove id) where
  distinct := linked.distinct.erase id
  indexed key other := by
    simp only [State.remove, linked.distinct.mem_erase_iff]
    by_cases same : key = (state.cells id).key
    · subst same
      rw [AList.lookup_erase]
      refine ⟨(fun wrong => by cases wrong), ?_⟩
      rintro ⟨⟨different, member⟩, equal⟩
      exact absurd (linked.unique member present equal) different
    · rw [AList.lookup_erase_ne same, linked.indexed]
      refine and_congr_left fun equal => ⟨fun member => ⟨?_, member⟩, And.right⟩
      rintro rfl
      exact same equal.symm
  perm := by
    rw [State.remove, AList.keys_erase, keys, linked.keys_erase present]
    exact linked.perm.erase _
  bounded := List.length_erase_le.trans linked.bounded
  fresh other member := linked.fresh other (List.mem_of_mem_erase member)
  sound other member := linked.sound other (List.mem_of_mem_erase member)

theorem moveToFront : Linked limiter (state.moveToFront id) := by
  have perm : (state.moveToFront id).order.Perm state.order := (List.perm_cons_erase present).symm
  refine ⟨perm.nodup_iff.mpr linked.distinct, fun key other => ?_, ?_, ?_, fun other member => ?_,
    fun other member => ?_⟩
  · rw [perm.mem_iff]
    exact linked.indexed key other
  · exact linked.perm.trans (perm.map _).symm
  · exact perm.length_eq.le.trans linked.bounded
  · exact linked.fresh other (perm.mem_iff.mp member)
  · exact linked.sound other (perm.mem_iff.mp member)

end Linked

section Cells

variable {limiter : Limiter} {state : State} {id : Nat} {cell : Bucket}

theorem key_setCell (named : cell.key = (state.cells id).key) (other : Nat) :
    ((state.setCell id cell).cells other).key = (state.cells other).key := by
  simp only [State.setCell]
  by_cases same : other = id
  · subst same
    rw [update_self, named]
  · rw [update_of_ne same]

theorem keys_setCell (named : cell.key = (state.cells id).key) :
    (state.setCell id cell).keys = state.keys :=
  List.map_congr_left fun other _ => key_setCell named other

/-- A change of one cell that keeps its key and is sound keeps both structures linked. -/
theorem Linked.setCell (linked : Linked limiter state) (named : cell.key = (state.cells id).key)
    (sound : limiter.Sound cell.level) : Linked limiter (state.setCell id cell) where
  distinct := linked.distinct
  indexed key other := by
    rw [key_setCell named]
    exact linked.indexed key other
  perm := by
    rw [keys_setCell named]
    exact linked.perm
  bounded := linked.bounded
  fresh := linked.fresh
  sound other member := by
    simp only [State.setCell]
    by_cases same : other = id
    · subst same
      rwa [update_self]
    · rw [update_of_ne same]
      exact linked.sound other member

/-- A change of one cell shows in the bucket of its key alone. -/
theorem find_setCell (linked : Linked limiter state) (present : id ∈ state.order) (key : String) :
    (state.setCell id cell).find key =
      if key = (state.cells id).key then some cell else state.find key := by
  simp only [find, State.setCell]
  split
  next same =>
    rw [(linked.indexed key id).mpr ⟨present, same.symm⟩, Option.map_some, update_self]
  next different =>
    refine Option.map_congr fun other found => ?_
    refine update_of_ne ?_ _ _
    rintro rfl
    exact different ((linked.indexed key other).mp found).2.symm

section Push

variable (unused : state.next ∉ state.order)

include unused in
theorem cells_pushFront {other : Nat} (member : other ∈ state.order) :
    (state.pushFront cell).cells other = state.cells other :=
  update_of_ne (ne_of_mem_of_not_mem member unused) _ _

theorem cell_pushFront : (state.pushFront cell).cells state.next = cell := update_self ..

include unused in
theorem keys_pushFront : (state.pushFront cell).keys = cell.key :: state.keys := by
  refine (List.map_cons).trans ?_
  rw [cell_pushFront]
  exact congrArg _ (List.map_congr_left fun id member => by rw [cells_pushFront unused member])

end Push

/-- A new element with a new key keeps both structures linked. -/
theorem Linked.pushFront (linked : Linked limiter state) (absent : cell.key ∉ state.keys)
    (room : state.order.length < limiter.maxKeys) (sound : limiter.Sound cell.level) :
    Linked limiter (state.pushFront cell) := by
  have unused : state.next ∉ state.order := fun member => (linked.fresh _ member).false
  refine ⟨List.nodup_cons.mpr ⟨unused, linked.distinct⟩, fun key other => ?_, ?_, room,
    fun other member => ?_, fun other member => ?_⟩
  · change AList.lookup key (state.buckets.insert cell.key state.next) = some other ↔
      other ∈ state.next :: state.order ∧ _
    rw [List.mem_cons]
    by_cases same : key = cell.key
    · subst same
      rw [AList.lookup_insert]
      constructor
      · intro first
        cases first
        exact ⟨.inl rfl, by rw [cell_pushFront]⟩
      · rintro ⟨rfl | member, equal⟩
        · rfl
        · rw [cells_pushFront unused member] at equal
          exact absurd (List.mem_map.mpr ⟨other, member, equal⟩) absent
    · rw [AList.lookup_insert_ne same, linked.indexed]
      constructor
      · rintro ⟨member, equal⟩
        exact ⟨.inr member, by rw [cells_pushFront unused member, equal]⟩
      · rintro ⟨rfl | member, equal⟩
        · rw [cell_pushFront] at equal
          exact absurd equal.symm same
        · exact ⟨member, by rw [← equal, cells_pushFront unused member]⟩
  · have missing : cell.key ∉ state.buckets.keys :=
      fun member => absent (linked.perm.mem_iff.mp member)
    rw [keys_pushFront unused, State.pushFront, AList.keys_insert, List.erase_of_not_mem missing]
    exact linked.perm.cons _
  · rcases List.mem_cons.mp member with rfl | old
    · exact Nat.lt_succ_self _
    · exact Nat.lt_succ_of_lt (linked.fresh other old)
  · rcases List.mem_cons.mp member with rfl | old
    · rwa [cell_pushFront]
    · rw [cells_pushFront unused old]
      exact linked.sound other old

/-- A new element shows in the bucket of its key alone. -/
theorem find_pushFront (linked : Linked limiter state) (key : String) :
    (state.pushFront cell).find key = if key = cell.key then some cell else state.find key := by
  have unused : state.next ∉ state.order := fun member => (linked.fresh _ member).false
  split
  next same =>
    subst same
    change Option.map _ (AList.lookup _ (state.buckets.insert _ _)) = _
    rw [AList.lookup_insert, Option.map_some, cell_pushFront]
  next different =>
    change Option.map _ (AList.lookup _ (state.buckets.insert _ _)) = _
    rw [AList.lookup_insert_ne different]
    exact Option.map_congr fun other found =>
      cells_pushFront unused ((linked.indexed key other).mp found).1

end Cells

section Uses

variable {limiter : Limiter} {state : State}

/-- A map with room is left alone. -/
theorem evict_of_room (rounds : Nat) (room : state.buckets.entries.length < limiter.maxKeys) :
    state.evict limiter rounds = state := by
  cases rounds with
  | zero => rfl
  | succ rounds => rw [evict, if_neg (Nat.not_le.mpr room)]

/-- This is what making room does to the limiter. -/
structure Trims (limiter : Limiter) (before after : State) : Prop where
  linked : Linked limiter after
  order : after.order = before.order.take (limiter.maxKeys - 1)
  cells : after.cells = before.cells

/-- The loop makes room by dropping the last bucket. -/
theorem evict_trims (linked : Linked limiter state) :
    Trims limiter state (state.evict limiter state.buckets.entries.length) := by
  have positive := limiter.maxKeys_pos
  have bounded := linked.bounded
  have length := linked.length_entries
  by_cases room : state.order.length < limiter.maxKeys
  · rw [evict_of_room _ (by omega)]
    exact ⟨linked, (List.take_of_length_le (by omega)).symm, rfl⟩
  · obtain ⟨oldest, last⟩ : ∃ oldest, state.order.getLast? = some oldest := by
      refine ⟨_, List.getLast?_eq_some_getLast (List.ne_nil_of_length_pos ?_)⟩
      omega
    have removed := linked.remove (List.mem_of_getLast? last)
    have shorter : (state.remove oldest).order = state.order.take (limiter.maxKeys - 1) := by
      refine (erase_getLast linked.distinct last).trans ?_
      congr 1
      omega
    have roomy : (state.remove oldest).buckets.entries.length < limiter.maxKeys := by
      rw [removed.length_entries, shorter, List.length_take]
      omega
    obtain ⟨rounds, same⟩ : ∃ rounds, state.buckets.entries.length = rounds + 1 :=
      ⟨state.buckets.entries.length - 1, by omega⟩
    have evicted : state.evict limiter state.buckets.entries.length = state.remove oldest := by
      rw [same, evict, if_pos (by omega), last]
      exact evict_of_room rounds roomy
    rw [evicted]
    exact ⟨removed, shorter, rfl⟩

/-- A use brings the key to the front, and pushes out the last one when there is no room. -/
def useKey (capacity : Nat) (key : String) (keys : List String) : List String :=
  if key ∈ keys then Recency.touch key keys else key :: keys.take (capacity - 1)

/-- A key without a bucket has the level of a full one. -/
def State.level (state : State) (limiter : Limiter) (now : Time) (key : String) : TokenBucket ℚ :=
  match state.find key with
  | some bucket => bucket.level
  | none => limiter.full (seconds now)

theorem Linked.level_sound (linked : Linked limiter state) (now : Time) (key : String) :
    limiter.Sound (state.level limiter now key) := by
  unfold level find
  cases found : state.buckets.lookup key with
  | some id => exact linked.sound id ((linked.indexed key id).mp found).1
  | none => exact full_sound _

/-- This is what a use of a key does to the limiter. -/
structure Uses (limiter : Limiter) (key : String) (level : TokenBucket ℚ) (before after : State) :
    Prop where
  linked : Linked limiter after
  keys : after.keys = useKey limiter.maxKeys key before.keys
  level : ∃ bucket, after.find key = some bucket ∧ bucket.level = level
  others : ∀ other ≠ key, other ∈ after.keys → after.find other = before.find other

section

variable (linked : Linked limiter state) (now : Time)

include linked

/-- The bucket of a key that is in the map is refilled to now and moved to the front. -/
theorem bucket_uses_found (present : id ∈ state.order) {cell : Bucket}
    (named : cell.key = (state.cells id).key)
    (touched : cell.level = limiter.touch (seconds now) (state.cells id).level) :
    Uses limiter (state.cells id).key (limiter.touch (seconds now) (state.cells id).level) state
      ((state.moveToFront id).setCell id cell) := by
  have moved := linked.moveToFront present
  have held : (state.cells id).key ∈ state.keys := List.mem_map_of_mem present
  have sound := touched ▸ (linked.sound id present).touch (seconds now)
  refine ⟨moved.setCell named sound, ?_, ⟨cell, ?_, touched⟩, fun other different _ => ?_⟩
  · refine (@keys_setCell (state.moveToFront id) id cell named).trans ?_
    rw [useKey, if_pos held, Recency.touch, ← linked.keys_erase present]
    rfl
  · rw [find_setCell moved (List.mem_cons_self ..)]
    exact if_pos rfl
  · rw [find_setCell moved (List.mem_cons_self ..)]
    exact if_neg different

/-- A missing bucket is created full at the front of a list with room. -/
theorem bucket_uses_missing (missing : key ∉ state.keys) {roomy : State}
    (trims : Trims limiter state roomy) :
    Uses limiter key (limiter.full (seconds now)) state
      (roomy.pushFront ⟨key, limiter.burst, now⟩) := by
  have positive := limiter.maxKeys_pos
  have keys : roomy.keys = state.keys.take (limiter.maxKeys - 1) := by
    rw [keys, trims.order, trims.cells]
    exact List.map_take
  have absent : key ∉ roomy.keys := by
    rw [keys]
    exact fun member => missing (List.mem_of_mem_take member)
  have room : roomy.order.length < limiter.maxKeys := by
    rw [trims.order, List.length_take]
    omega
  have unused : roomy.next ∉ roomy.order := fun member => (trims.linked.fresh _ member).false
  have added := @keys_pushFront roomy ⟨key, limiter.burst, now⟩ unused
  refine ⟨trims.linked.pushFront absent room (full_sound (seconds now)), ?_,
    ⟨⟨key, limiter.burst, now⟩, ?_, rfl⟩, fun other different member => ?_⟩
  · rw [added, keys, useKey, if_neg missing]
  · rw [find_pushFront trims.linked]
    exact if_pos rfl
  · rw [added] at member
    obtain ⟨id, kept, rfl⟩ := List.mem_map.mp ((List.mem_cons.mp member).resolve_left different)
    have early : id ∈ state.order := List.mem_of_mem_take (trims.order ▸ kept)
    rw [find_pushFront trims.linked, if_neg different, trims.linked.find_cell kept, trims.cells,
      linked.find_cell early]

/-- The bucket of a key is found or created, refilled to now and put first. -/
theorem bucket_uses (key : String) :
    Uses limiter key (limiter.touch (seconds now) (state.level limiter now key)) state
        (state.bucket limiter now key).2 ∧
      (state.bucket limiter now key).2.buckets.lookup key =
        some (state.bucket limiter now key).1 := by
  cases found : state.buckets.lookup key with
  | some id =>
    obtain ⟨present, rfl⟩ := (linked.indexed key id).mp found
    have level : state.level limiter now (state.cells id).key = (state.cells id).level := by
      simp [level, find, found]
    simp only [bucket, found, level]
    refine ⟨bucket_uses_found linked now present rfl ?_, found⟩
    simp only [Bucket.level, touch, refill, seconds_sub]
    rfl
  | none =>
    have missing : key ∉ state.keys := by
      rw [linked.mem_keys, find, found]
      exact Bool.false_ne_true
    have level : limiter.touch (seconds now) (state.level limiter now key) =
        limiter.full (seconds now) := by
      simp [level, find, found, touch, full, refill]
    simp only [bucket, found, level]
    exact ⟨bucket_uses_missing linked now missing (evict_trims linked), AList.lookup_insert _⟩

end

/-- The tokens of the bucket that was used last may be set again. -/
theorem Uses.setTokens {level : TokenBucket ℚ} {after : State}
    (uses : Uses limiter key level state after) (found : after.buckets.lookup key = some id)
    {tokens : ℚ} (sound : limiter.Sound { level with tokens }) :
    Uses limiter key { level with tokens } state (after.setTokens id tokens) := by
  obtain ⟨linked, keys, ⟨bucket, held, same⟩, others⟩ := uses
  obtain ⟨present, rfl⟩ := (linked.indexed key id).mp found
  obtain rfl : after.cells id = bucket :=
    Option.some_injective _ ((linked.find_cell present).symm.trans held)
  subst same
  have named := @keys_setCell after id { after.cells id with tokens } rfl
  refine ⟨linked.setCell rfl sound, named.trans keys, ⟨{ after.cells id with tokens }, ?_, rfl⟩,
    fun other different member => ?_⟩
  · exact (find_setCell linked present _).trans (if_pos rfl)
  · rw [State.setTokens, named] at member
    refine (find_setCell linked present _).trans ((if_neg different).trans ?_)
    exact others other different member

/-- An attempt takes a token from the refilled bucket of its key. -/
theorem allow_uses (linked : Linked limiter state) (now : Time) (key : String) :
    (state.allow limiter now key).1 =
        (limiter.step (.spend (seconds now)) (state.level limiter now key)).1 ∧
      Uses limiter key (limiter.step (.spend (seconds now)) (state.level limiter now key)).2 state
        (state.allow limiter now key).2 := by
  obtain ⟨uses, found⟩ := bucket_uses linked now key
  obtain ⟨⟨id, after⟩, same⟩ : ∃ pair, pair = state.bucket limiter now key := ⟨_, rfl⟩
  rw [← same] at uses found
  obtain ⟨present, rfl⟩ := (uses.linked.indexed key id).mp found
  obtain ⟨bucket, held, level⟩ := uses.level
  obtain rfl : after.cells id = bucket :=
    Option.some_injective _ ((uses.linked.find_cell present).symm.trans held)
  have sound := (uses.linked.sound id present).take
  rw [allow, ← same, step, ← level]
  rw [← level] at uses
  rw [take] at sound ⊢
  by_cases empty : (after.cells id).tokens < 1
  · have dry : (after.cells id).level.tokens < 1 := empty
    rw [if_pos dry] at sound ⊢
    dsimp only
    rw [if_pos empty]
    exact ⟨rfl, uses⟩
  · have wet : ¬(after.cells id).level.tokens < 1 := empty
    rw [if_neg wet] at sound ⊢
    dsimp only
    rw [if_neg empty]
    exact ⟨rfl, uses.setTokens found sound⟩

end Uses

section Refund

variable {limiter : Limiter} {state : State}

/-- A refund gives a token back to a bucket in the map and leaves everything else alone. -/
theorem refund_effect (linked : Linked limiter state) (key : String) :
    Linked limiter (state.refund limiter key) ∧ (state.refund limiter key).keys = state.keys ∧
      (∀ other ≠ key, (state.refund limiter key).find other = state.find other) ∧
      ((state.refund limiter key).find key).map Bucket.level =
        (state.find key).map fun bucket => limiter.giveBack bucket.level := by
  cases found : state.buckets.lookup key with
  | none => simp [refund, found, linked, find]
  | some id =>
    obtain ⟨present, rfl⟩ := (linked.indexed key id).mp found
    have sound := (linked.sound id present).giveBack
    have changed := @find_setCell limiter state id { state.cells id with
      tokens := min ((state.cells id).tokens + 1) limiter.burst } linked present
    simp only [refund, found]
    refine ⟨linked.setCell rfl sound, keys_setCell rfl, fun other different => ?_, ?_⟩
    · exact (changed other).trans (if_neg different)
    · rw [State.setTokens, changed, if_pos rfl, linked.find_cell present]
      rfl

end Refund

end Tempogate.Ratelimit
