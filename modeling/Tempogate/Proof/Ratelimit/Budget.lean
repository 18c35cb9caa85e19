/-
This file bounds the attempts that the rate limiter grants along every sequence of calls.
-/

import Tempogate.Proof.Ratelimit.Limiter

namespace Tempogate.Ratelimit

open Foundation Oidc TokenRate Recency Call TokenBucket List

variable {rest : List Call}

/-- The keys of the attempts, in the order of the calls. -/
def attempts (calls : List Call) : List String :=
  calls.filterMap fun
    | .allow key _ => some key
    | .refund _ _ => none

theorem attempts_append (before : List Call) (call : Call) :
    attempts (before ++ [call]) = attempts before ++ attempts [call] := filterMap_append

theorem performAll_append (limiter : Limiter) (first second : List Call) (state : State) :
    performAll limiter (first ++ second) state =
      performAll limiter second (performAll limiter first state) := foldl_append

section Runs

variable {limiter : Limiter} {state : State}

theorem linked_empty (limiter : Limiter) : Linked limiter .empty where
  distinct := nodup_nil
  indexed key id := by
    constructor
    · nofun
    · rintro ⟨member, -⟩
      exact absurd member not_mem_nil
  perm := .refl _
  bounded := Nat.zero_le _
  fresh _ member := absurd member not_mem_nil
  sound _ member := absurd member not_mem_nil

theorem Linked.perform (linked : Linked limiter state) (call : Call) :
    Linked limiter (call.perform limiter state).2 := by
  cases call with
  | allow key now => exact (allow_uses linked now key).2.linked
  | refund key now => exact (refund_effect linked key).1

theorem Linked.performAll (linked : Linked limiter state) (calls : List Call) :
    Linked limiter (performAll limiter calls state) := by
  induction calls generalizing state with
  | nil => exact linked
  | cons call rest ih => exact ih (linked.perform call)

theorem useKey_take {capacity : Nat} (positive : 0 < capacity) (key : String) (keys : List String) :
    useKey capacity key (keys.take capacity) = (touch key keys).take capacity := by
  obtain ⟨size, rfl⟩ : ∃ size, capacity = size + 1 := ⟨capacity - 1, by omega⟩
  unfold useKey
  split
  next held => exact (take_touch_of_mem held).symm
  next missing =>
    rw [take_touch_of_not_mem missing]
    rfl

/-- The limiter tracks the most recently attempted keys, as many as it may. -/
theorem keys_performAll (limiter : Limiter) (calls : List Call) :
    (performAll limiter calls .empty).keys = (order (attempts calls)).take limiter.maxKeys := by
  induction calls using List.reverseRecOn with
  | nil => simp [performAll, State.empty, State.keys, attempts, order]
  | append_singleton before call ih =>
    have linked := (linked_empty limiter).performAll before
    rw [performAll_append, attempts_append]
    cases call with
    | allow key now =>
      have used := (allow_uses linked now key).2.keys
      rw [ih, useKey_take limiter.maxKeys_pos] at used
      exact used.trans (by rw [← order_append]; rfl)
    | refund key now =>
      rw [show attempts [refund key now] = [] from rfl, append_nil, ← ih]
      exact (refund_effect linked key).2.1

/-- An evicted key is the least recently attempted one. -/
theorem evicts_least_recent (limiter : Limiter) (before : List Call) (call : Call)
    {key other : String} (evicts : Evicts limiter key (performAll limiter before .empty) call)
    (kept : other ∈ (performAll limiter (before ++ [call]) .empty).keys) :
    Recency.MoreRecent (attempts (before ++ [call])) other key := by
  obtain ⟨held, lost⟩ := evicts
  have dropped : key ∉ (performAll limiter (before ++ [call]) .empty).keys := by
    rw [performAll_append]
    exact lost
  rw [keys_performAll] at held kept dropped
  have known : key ∈ order (attempts (before ++ [call])) := by
    have earlier := mem_of_mem_take held
    rw [attempts_append]
    cases call with
    | allow name now =>
      rw [show attempts [allow name now] = [name] from rfl, order_append]
      exact mem_touch earlier
    | refund name now =>
      rw [show attempts [refund name now] = [] from rfl, append_nil]
      exact earlier
  have recent := order_pairwise (attempts (before ++ [call]))
  rw [← take_append_drop limiter.maxKeys (order _), mem_append] at known
  rw [← take_append_drop limiter.maxKeys (order _), pairwise_append] at recent
  exact recent.2.2 other kept key (known.resolve_left dropped)

end Runs

section Tracks

variable {limiter : Limiter} {state : State} {key : String} {bucket : TokenBucket ℚ}

def Call.event : Call → TokenEvent ℚ
  | .allow _ now => .spend (seconds now)
  | .refund _ now => .refund (seconds now)

/-- The bucket stands for that of the key, and a key without one has any full bucket. -/
inductive Tracks (limiter : Limiter) (state : State) (key : String) (bucket : TokenBucket ℚ) : Prop
  | held {found : Bucket} (held : state.find key = some found) (level : found.level = bucket)
  | absent (absent : state.find key = none) (full : bucket.tokens = limiter.burst)

theorem tracks_level (state : State) (now : Time) (key : String) :
    Tracks limiter state key (state.level limiter now key) := by
  unfold State.level
  cases found : state.find key with
  | some bucket => exact .held found rfl
  | none => exact .absent found rfl

theorem Tracks.touch (tracks : Tracks limiter state key bucket) (now : Time) :
    limiter.touch (seconds now) (state.level limiter now key) =
      limiter.touch (seconds now) bucket := by
  unfold State.level
  cases tracks with
  | held held level =>
    rw [held]
    exact congrArg _ level
  | absent absent full =>
    rw [absent, touch_of_full _ full]
    exact touch_of_full _ rfl

/-- A call on the key steps its bucket and answers as the bucket does. -/
theorem Tracks.perform_self (linked : Linked limiter state)
    (tracks : Tracks limiter state key bucket) (call : Call) (named : call.key = key) :
    (call.perform limiter state).1 = (limiter.step call.event bucket).1 ∧
      Tracks limiter (call.perform limiter state).2 key (limiter.step call.event bucket).2 := by
  subst named
  cases call with
  | allow name now =>
    obtain ⟨answer, uses⟩ := allow_uses linked now name
    obtain ⟨after, found, level⟩ := uses.level
    have touched := tracks.touch now
    simp only [step, key] at touched answer level
    rw [touched] at answer level
    exact ⟨answer, .held found level⟩
  | refund name now =>
    obtain ⟨-, -, -, level⟩ := refund_effect linked name
    refine ⟨rfl, ?_⟩
    cases tracks with
    | @held found held same =>
      rw [show state.find name = some found from held] at level
      obtain ⟨after, given, back⟩ := Option.map_eq_some_iff.mp level
      exact .held given (back.trans (congrArg limiter.giveBack same))
    | absent absent full =>
      rw [show state.find name = none from absent] at level
      refine .absent (Option.map_eq_none_iff.mp level) ?_
      change min (bucket.tokens + 1) limiter.burst = limiter.burst
      rw [full, min_eq_right (by linarith)]

variable {call : Call} {calls : List Call}

section

variable (linked : Linked limiter state)

include linked

/-- A call on another key leaves the bucket alone unless it evicts the key. -/
theorem Tracks.perform_other (tracks : Tracks limiter state key bucket) (other : call.key ≠ key)
    (kept : ¬Evicts limiter key state call) :
    Tracks limiter (call.perform limiter state).2 key bucket := by
  have same : (call.perform limiter state).2.find key = state.find key := by
    cases call with
    | refund name now => exact (refund_effect linked name).2.2.1 key (Ne.symm other)
    | allow name now =>
      have uses := (allow_uses linked now name).2
      by_cases held : key ∈ (state.allow limiter now name).2.keys
      · exact uses.others key (Ne.symm other) held
      · have absent : key ∉ state.keys := fun member => kept ⟨member, held⟩
        rw [linked.mem_keys, Option.not_isSome_iff_eq_none] at absent
        rw [uses.linked.mem_keys, Option.not_isSome_iff_eq_none] at held
        exact held.trans absent.symm
  cases tracks with
  | held held level => exact .held (same.trans held) level
  | absent absent full => exact .absent (same.trans absent) full

/-- Calls on a key do not evict it. -/
theorem not_evicts_self (named : call.key = key) : ¬Evicts limiter key state call := by
  rintro ⟨held, lost⟩
  subst named
  cases call with
  | allow name now =>
    have inMap : name ∈ state.keys := held
    refine lost ?_
    change name ∈ (state.allow limiter now name).2.keys
    rw [(allow_uses linked now name).2.keys, useKey, if_pos inMap]
    exact mem_cons_self ..
  | refund name now => exact lost ((refund_effect linked name).2.1.symm ▸ held)

theorem undisturbed_of_self (named : ∀ call ∈ calls, call.key = key)
    : Undisturbed limiter key calls state := by
  induction calls generalizing state with
  | nil => trivial
  | cons call rest ih =>
    exact ⟨not_evicts_self linked (named call (.head _)),
      ih (linked.perform call) fun later member => named later (.tail _ member)⟩

end

/-- The calls on the key are the events of its bucket. -/
def events (key : String) (calls : List Call) : List (TokenEvent ℚ) :=
  (calls.filter fun call => call.key = key).map event

theorem refunds_events (key : String) (calls : List Call) :
    TokenEvent.refunds (events key calls) = refunds key calls := by
  rw [TokenEvent.refunds, events, countP_map, countP_filter, refunds]
  refine countP_congr fun call _ => ?_
  cases call with
  | allow name now => simp [event]
  | refund name now => exact Bool.eq_iff_iff.mp (Bool.true_and _)

theorem events_cons_self (named : call.key = key) :
    events key (call :: rest) = call.event :: events key rest := by
  simp [events, named]

theorem events_cons_other (other : call.key ≠ key) :
    events key (call :: rest) = events key rest := by
  simp [events, other]

/-- The attempts that are granted on a key are the spends of its bucket. -/
theorem grants_eq_spends (linked : Linked limiter state) (tracks : Tracks limiter state key bucket)
    (calls : List Call) (undisturbed : Undisturbed limiter key calls state) :
    grants limiter key calls state = limiter.spends (events key calls) bucket := by
  induction calls generalizing state bucket with
  | nil => rfl
  | cons call rest ih =>
    obtain ⟨kept, later⟩ := undisturbed
    rw [grants]
    by_cases named : call.key = key
    · obtain ⟨answer, steps⟩ := tracks.perform_self linked call named
      rw [ih (linked.perform call) steps later, answer, events_cons_self named, spends]
      simp [named]
    · rw [ih (linked.perform call) (tracks.perform_other linked named kept) later,
        events_cons_other named]
      simp [named]

/-- The calls are made in order and inside a span of time. -/
structure Within (start finish : Time) (calls : List Call) : Prop where
  ordered : (calls.map now).Pairwise (· ≤ ·)
  inside : ∀ call ∈ calls, start ≤ call.now ∧ call.now ≤ finish

theorem Within.spanned {start finish : Time} (within : Within start finish calls) (key : String) :
    TokenRate.Spanned (seconds start) (seconds finish) (events key calls) := by
  have times : ∀ call : Call, call.event.now = seconds call.now := by
    intro call
    cases call <;> rfl
  refine ⟨?_, fun event member => ?_⟩
  · have ordered : calls.Pairwise fun first second => first.now ≤ second.now :=
      pairwise_map.mp within.ordered
    rw [events, map_map, pairwise_map]
    refine (ordered.filter _).imp fun {first second} sooner => ?_
    simp only [Function.comp_apply, times]
    exact seconds_le sooner
  · obtain ⟨call, chosen, rfl⟩ := mem_map.mp member
    obtain ⟨starts, stops⟩ := within.inside call (mem_filter.mp chosen).1
    rw [times]
    exact ⟨seconds_le starts, seconds_le stops⟩

/-- In a span of time a key that keeps its bucket is granted at most the burst, the refill of the
span and its refunds. -/
theorem grants_le (linked : Linked limiter state) {start finish : Time} (ends : start ≤ finish)
    (within : Within start finish calls) (undisturbed : Undisturbed limiter key calls state) :
    (grants limiter key calls state : ℚ) ≤
      limiter.burst + limiter.rate * seconds (finish - start) + refunds key calls := by
  have tracks : Tracks limiter state key (state.level limiter start key) := tracks_level ..
  have bound := spends_le (linked.level_sound start key) (within.spanned key) (seconds_le ends)
  rw [grants_eq_spends linked tracks calls undisturbed, seconds_sub, mul_comm, ← refunds_events]
  exact bound

variable (first second : List Call)

theorem grants_append (state : State) : grants limiter key (first ++ second) state =
      grants limiter key first state +
        grants limiter key second (performAll limiter first state) := by
  induction first generalizing state with
  | nil => exact (Nat.zero_add _).symm
  | cons call rest ih =>
    rw [cons_append, grants, ih, grants, Nat.add_assoc]
    rfl

theorem refunds_append :
    refunds key (first ++ second) = refunds key first + refunds key second := countP_append

/-- The attempts at a time are those of the bucket that is refilled to it. -/
theorem Tracks.available (tracks : Tracks limiter state key bucket) (later : Time) :
    state.available limiter later key = (limiter.touch (seconds later) bucket).tokens := by
  unfold State.available
  cases tracks with
  | held held level =>
    subst level
    rw [held]
    exact congrArg (fun elapsed => limiter.refill elapsed _) (seconds_sub _ _)
  | absent absent full =>
    rw [absent, touch_of_full _ full]
    rfl

/-- No bucket was refilled after this time. -/
def Timely (moment : Time) (state : State) : Prop :=
  ∀ key bucket, state.find key = some bucket → bucket.last ≤ moment

variable {moment : Time}

/-- A call of the past leaves every bucket in the past. -/
theorem Timely.perform (linked : Linked limiter state) (timely : Timely moment state)
    {call : Call} (past : call.now ≤ moment) :
    Timely moment (call.perform limiter state).2 := by
  intro other bucket found
  cases call with
  | allow name now =>
    obtain ⟨-, uses⟩ := allow_uses linked now name
    by_cases same : other = name
    · subst same
      obtain ⟨after, held, level⟩ := uses.level
      obtain rfl : after = bucket := Option.some_injective _ (held.symm.trans found)
      have moved : seconds after.last = seconds now := by
        have last := congrArg last level
        simp only [step, last_take] at last
        exact last
      exact (seconds_injective moved).le.trans past
    · have held : other ∈ (state.allow limiter now name).2.keys :=
        uses.linked.mem_keys.mpr (Option.isSome_iff_exists.mpr ⟨bucket, found⟩)
      exact timely other bucket ((uses.others other same held).symm.trans found)
  | refund name now =>
    obtain ⟨-, -, others, level⟩ := refund_effect linked name
    by_cases same : other = name
    · subst same
      rw [show (state.refund limiter other).find other = some bucket from found] at level
      obtain ⟨before, held, level⟩ := Option.map_eq_some_iff.mp level.symm
      have kept : before.last = bucket.last :=
        seconds_injective (congrArg last level)
      exact kept.symm.le.trans (timely other before held)
    · exact timely other bucket ((others other same).symm.trans found)

theorem Timely.performAll (linked : Linked limiter state) (timely : Timely moment state)
    (past : ∀ call ∈ calls, call.now ≤ moment) :
    Timely moment (performAll limiter calls state) := by
  induction calls generalizing state with
  | nil => exact timely
  | cons call rest ih =>
    exact ih (linked.perform call) (timely.perform linked (past call (.head _)))
      fun later member => past later (.tail _ member)

/-- The level of a key was reached before the time. -/
theorem Timely.level (timely : Timely moment state) (key : String) :
    (state.level limiter moment key).last ≤ seconds moment := by
  unfold State.level
  cases found : state.find key with
  | some bucket => exact seconds_le (timely key bucket found)
  | none => exact le_rfl

variable (linked : Linked limiter state)

include linked

/-- A granted attempt takes one token at its time. -/
theorem available_allow {now : Time} (granted : (state.allow limiter now key).1 = true) :
    (state.allow limiter now key).2.available limiter now key =
      state.available limiter now key - 1 := by
  have tracks : Tracks limiter state key (state.level limiter now key) := tracks_level ..
  obtain ⟨answer, after⟩ := tracks.perform_self linked (.allow key now) rfl
  have taken := answer.symm.trans granted
  rw [tracks.available, show (state.allow limiter now key).2.available limiter now key = _ from
    after.available now]
  simp only [event, step] at taken ⊢
  have still := @touch_last ℚ _ _ _ limiter.toTokenRate
    { limiter.touch (seconds now) (state.level limiter now key) with
      tokens := (limiter.touch (seconds now) (state.level limiter now key)).tokens - 1 }
  rw [take_of_taken taken]
  exact congrArg tokens still

/-- A denied attempt takes nothing. -/
theorem available_denied {now later : Time} (timely : Timely now state)
    (denied : (state.allow limiter now key).1 = false) (ordered : now ≤ later) :
    (state.allow limiter now key).2.available limiter later key =
      state.available limiter later key := by
  have tracks : Tracks limiter state key (state.level limiter now key) := tracks_level ..
  obtain ⟨answer, after⟩ := tracks.perform_self linked (.allow key now) rfl
  have kept := answer.symm.trans denied
  rw [tracks.available, show (state.allow limiter now key).2.available limiter later key = _ from
    after.available later]
  simp only [event, step] at kept ⊢
  rw [take_of_denied kept, touch_touch (timely.level key) (seconds_le ordered)]

/-- An attempt that is handed back was never made. -/
theorem available_refund {now later : Time} (timely : Timely now state)
    (granted : (state.allow limiter now key).1 = true) (ordered : now ≤ later) :
    ((state.allow limiter now key).2.refund limiter key).available limiter later key =
      state.available limiter later key := by
  have tracks : Tracks limiter state key (state.level limiter now key) := tracks_level ..
  obtain ⟨answer, spent⟩ := tracks.perform_self linked (.allow key now) rfl
  obtain ⟨-, returned⟩ := spent.perform_self (linked.perform (.allow key now)) (.refund key now) rfl
  have taken := answer.symm.trans granted
  have bounded := ((linked.level_sound now key).touch (seconds now)).bounded
  rw [tracks.available, show ((state.allow limiter now key).2.refund limiter key).available
    limiter later key = _ from returned.available later]
  simp only [event, step] at taken ⊢
  rw [giveBack_take bounded taken, touch_touch (timely.level key) (seconds_le ordered)]

end Tracks

/-- The map and the recency list hold the same sound buckets, an evicted key is the least recently
attempted one, and a key that keeps its bucket is granted no more than its budget in any span. -/
theorem limiter_keeps_budgets (limiter : Limiter) (calls : List Call)
    (clock : (calls.map now).Pairwise (· ≤ ·)) :
    Linked limiter (performAll limiter calls .empty) ∧
      (∀ before call after key other, calls = before ++ call :: after →
        Evicts limiter key (performAll limiter before .empty) call →
        other ∈ (performAll limiter (before ++ [call]) .empty).keys →
        Recency.MoreRecent (attempts (before ++ [call])) other key) ∧
      ∀ before span after key start finish, calls = before ++ span ++ after → start ≤ finish →
        (∀ call ∈ span, start ≤ call.now ∧ call.now ≤ finish) →
        Undisturbed limiter key span (performAll limiter before .empty) →
        (grants limiter key span (performAll limiter before .empty) : ℚ) ≤
          limiter.burst + limiter.rate * seconds (finish - start) + refunds key span := by
  have linked := linked_empty limiter
  refine ⟨linked.performAll calls, fun before call _ key other _ => evicts_least_recent _ _ _, ?_⟩
  rintro before span after key start finish rfl ends inside undisturbed
  rw [map_append, map_append, pairwise_append, pairwise_append] at clock
  exact grants_le (linked.performAll before) ends ⟨clock.1.2.1, inside⟩ undisturbed

/-- One key at a time and one attempt in a second. -/
def narrow : Limiter := .new [.limit 1 second, .maxKeys 1]

theorem narrow_keeps_budgets :
    Linked narrow (performAll narrow [.allow "a" 0, .refund "a" 1, .allow "a" 2, .allow "b" 3]
      .empty) ∧
      (grants narrow "a" [.allow "a" 0, .refund "a" 1, .allow "a" 2] .empty : ℚ) ≤
        narrow.burst + narrow.rate * seconds (2 - 0) + 1 := by
  have sound := limiter_keeps_budgets narrow
    [.allow "a" 0, .refund "a" 1, .allow "a" 2, .allow "b" 3] (by decide)
  refine ⟨sound.1, sound.2.2 [] [.allow "a" 0, .refund "a" 1, .allow "a" 2] [.allow "b" 3] "a" 0 2
    rfl (by decide) (by decide) (undisturbed_of_self (linked_empty _) (by decide))⟩

end Tempogate.Ratelimit
