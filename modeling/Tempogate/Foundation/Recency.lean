/-
This file orders keys by their last use and keeps the most recent ones.
-/

import Mathlib.Data.List.Induction
import Mathlib.Data.List.Nodup

namespace Tempogate.Foundation

open List

variable {Key : Type} [DecidableEq Key]

namespace Recency

/-- A use moves its key to the front. -/
def touch (key : Key) (keys : List Key) : List Key := key :: keys.erase key

/-- The keys of the uses, the last used one first. -/
def order (uses : List Key) : List Key := uses.foldl (fun keys key => touch key keys) []

/-- The first key was used after the last use of the second one. -/
def MoreRecent (uses : List Key) (first second : Key) : Prop :=
  ∃ older newer, uses = older ++ newer ∧ first ∈ newer ∧ second ∉ newer

variable {uses keys : List Key} {key : Key}

theorem order_append (uses : List Key) (key : Key) :
    order (uses ++ [key]) = touch key (order uses) := by
  rw [order, foldl_append]
  rfl

theorem touch_nodup (distinct : keys.Nodup) : (touch key keys).Nodup :=
  nodup_cons.mpr ⟨distinct.not_mem_erase, distinct.erase key⟩

theorem mem_touch {other : Key} (member : other ∈ keys) : other ∈ touch key keys := by
  rw [touch, mem_cons]
  by_cases same : other = key
  · exact .inl same
  · exact .inr ((mem_erase_of_ne same).mpr member)

theorem order_nodup (uses : List Key) : (order uses).Nodup := by
  induction uses using List.reverseRecOn with
  | nil => exact nodup_nil
  | append_singleton older key ih =>
    rw [order_append]
    exact touch_nodup ih

omit [DecidableEq Key] in
theorem MoreRecent.append {first second : Key} (recent : MoreRecent uses first second)
    (other : key ≠ second) : MoreRecent (uses ++ [key]) first second := by
  obtain ⟨older, newer, rfl, used, unused⟩ := recent
  refine ⟨older, newer ++ [key], append_assoc _ _ _, mem_append_left _ used, ?_⟩
  rw [mem_append, mem_singleton, not_or]
  exact ⟨unused, Ne.symm other⟩

/-- A key that stands before another one was used more recently. -/
theorem order_pairwise (uses : List Key) : (order uses).Pairwise (MoreRecent uses) := by
  induction uses using List.reverseRecOn with
  | nil => exact .nil
  | append_singleton older key ih =>
    rw [order_append, touch, pairwise_cons]
    have distinct := order_nodup older
    refine ⟨fun other member => ?_, ?_⟩
    · refine ⟨older, [key], rfl, mem_singleton_self _, ?_⟩
      rw [mem_singleton]
      rintro rfl
      exact distinct.not_mem_erase member
    · refine (ih.sublist erase_sublist).imp_of_mem fun _ isSecond recent => ?_
      refine recent.append ?_
      rintro rfl
      exact distinct.not_mem_erase isSecond

/-- The most recent keys stay the most recent ones when one of them is used. -/
theorem take_touch_of_mem {capacity : Nat} (held : key ∈ keys.take capacity) :
    (touch key keys).take capacity = touch key (keys.take capacity) := by
  obtain ⟨size, rfl⟩ : ∃ size, capacity = size + 1 := by
    cases capacity with
    | zero => simp at held
    | succ size => exact ⟨size, rfl⟩
  have split : keys.erase key = (keys.take (size + 1)).erase key ++ keys.drop (size + 1) := by
    conv_lhs => rw [← take_append_drop (size + 1) keys]
    exact erase_append_left _ held
  rw [touch, touch, take_succ_cons, split]
  congr 1
  rcases Nat.lt_or_ge size keys.length with long | short
  · refine take_left' ?_
    rw [length_erase_of_mem held, length_take]
    omega
  · rw [drop_of_length_le (by omega), append_nil]
    refine take_of_length_le ?_
    rw [length_erase_of_mem held, length_take]
    omega

/-- A use of another key pushes out the last one when the capacity is reached. -/
theorem take_touch_of_not_mem {size : Nat} (missing : key ∉ keys.take (size + 1)) :
    (touch key keys).take (size + 1) = key :: (keys.take (size + 1)).take size := by
  have split : keys.erase key = keys.take (size + 1) ++ (keys.drop (size + 1)).erase key := by
    conv_lhs => rw [← take_append_drop (size + 1) keys]
    exact erase_append_right _ missing
  rw [touch, take_succ_cons, split]
  congr 1
  rcases Nat.lt_or_ge size keys.length with long | short
  · refine take_append_of_le_length ?_
    rw [length_take]
    omega
  · rw [drop_of_length_le (by omega), erase_nil, append_nil]

end Recency

end Tempogate.Foundation
