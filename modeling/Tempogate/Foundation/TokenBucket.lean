/-
This file defines a token bucket and bounds the spends that it allows.
-/

import Mathlib.Algebra.Order.Field.Basic
import Mathlib.Tactic.Linarith
import Mathlib.Tactic.Ring

namespace Tempogate.Foundation

variable {Amount : Type} [Field Amount] [LinearOrder Amount] [IsStrictOrderedRing Amount]

/-- A bucket holds at most a burst of tokens and gains them at a fixed rate. -/
structure TokenRate (Amount : Type) [Field Amount] [LinearOrder Amount]
    [IsStrictOrderedRing Amount] where
  burst : Amount
  rate : Amount
  one_le_burst : 1 ≤ burst
  rate_pos : 0 < rate

structure TokenBucket (Amount : Type) where
  tokens : Amount
  last : Amount

inductive TokenEvent (Amount : Type)
  | spend (now : Amount)
  | refund (now : Amount)

def TokenEvent.now : TokenEvent Amount → Amount
  | spend now | refund now => now

/-- This is the number of refunds among the events. -/
def TokenEvent.refunds (events : List (TokenEvent Amount)) : Nat :=
  events.countP fun
    | spend _ => false
    | refund _ => true

namespace TokenRate

variable (limit : TokenRate Amount)

def full (now : Amount) : TokenBucket Amount := ⟨limit.burst, now⟩

/-- A bucket gains nothing while its clock stands still. -/
def refill (elapsed tokens : Amount) : Amount :=
  if 0 < elapsed then min (tokens + elapsed * limit.rate) limit.burst else tokens

/-- The bucket is refilled to now before its tokens are counted. -/
def touch (now : Amount) (bucket : TokenBucket Amount) : TokenBucket Amount :=
  ⟨limit.refill (now - bucket.last) bucket.tokens, now⟩

def take (bucket : TokenBucket Amount) : Bool × TokenBucket Amount :=
  if bucket.tokens < 1 then (false, bucket) else (true, { bucket with tokens := bucket.tokens - 1 })

def giveBack (bucket : TokenBucket Amount) : TokenBucket Amount :=
  { bucket with tokens := min (bucket.tokens + 1) limit.burst }

def step : TokenEvent Amount → TokenBucket Amount → Bool × TokenBucket Amount
  | .spend now, bucket => take (limit.touch now bucket)
  | .refund _, bucket => (false, limit.giveBack bucket)

/-- This is the number of spends that succeed along the events. -/
def spends (limit : TokenRate Amount) : List (TokenEvent Amount) → TokenBucket Amount → Nat
  | [], _ => 0
  | event :: rest, bucket =>
    (if (limit.step event bucket).1 then 1 else 0) + spends limit rest (limit.step event bucket).2

/-- A bucket never owes a token and never holds more than the burst. -/
structure Sound (bucket : TokenBucket Amount) : Prop where
  nonneg : 0 ≤ bucket.tokens
  bounded : bucket.tokens ≤ limit.burst

variable {limit} {bucket : TokenBucket Amount}

theorem full_sound (now : Amount) : limit.Sound (limit.full now) :=
  ⟨le_trans zero_le_one limit.one_le_burst, le_rfl⟩

theorem refill_le (elapsed tokens : Amount) (forward : 0 ≤ elapsed) :
    limit.refill elapsed tokens ≤ tokens + elapsed * limit.rate := by
  unfold refill
  split
  · exact min_le_left _ _
  · have gained := mul_nonneg forward limit.rate_pos.le
    linarith

theorem le_refill (elapsed tokens : Amount) (bounded : tokens ≤ limit.burst) :
    tokens ≤ limit.refill elapsed tokens := by
  unfold refill
  split
  next forward =>
    have gained := mul_nonneg forward.le limit.rate_pos.le
    exact le_min (by linarith) bounded
  · exact le_rfl

theorem refill_le_burst (elapsed tokens : Amount) (bounded : tokens ≤ limit.burst) :
    limit.refill elapsed tokens ≤ limit.burst := by
  unfold refill
  split
  · exact min_le_right _ _
  · exact bounded

/-- A full bucket stays full. -/
theorem touch_of_full (now : Amount) (isFull : bucket.tokens = limit.burst) :
    limit.touch now bucket = limit.full now := by
  rw [touch, full, isFull, refill]
  split
  next forward =>
    have gained := mul_nonneg forward.le limit.rate_pos.le
    rw [min_eq_right (by linarith)]
  · rfl

/-- A refill on the way to a later one changes nothing. -/
theorem touch_touch {first second : Amount} (started : bucket.last ≤ first)
    (ordered : first ≤ second) :
    limit.touch second (limit.touch first bucket) = limit.touch second bucket := by
  rcases started.eq_or_lt with same | forward
  · subst same
    simp [touch, refill, sub_self]
  rcases ordered.eq_or_lt with same | later
  · subst same
    simp [touch, refill, sub_self]
  have gained := mul_nonneg (sub_nonneg.mpr later.le) limit.rate_pos.le
  have whole : (first - bucket.last) * limit.rate + (second - first) * limit.rate =
      (second - bucket.last) * limit.rate := by ring
  simp only [touch, refill, sub_pos, forward, later, forward.trans later, if_true]
  rw [← min_add_add_right, min_assoc, min_eq_right (by linarith : limit.burst ≤ _), add_assoc,
    whole]

theorem touch_last : limit.touch bucket.last bucket = bucket := by
  simp [touch, refill, sub_self]

omit [IsStrictOrderedRing Amount] in
theorem take_of_taken (taken : (take bucket).1 = true) :
    (take bucket).2 = { bucket with tokens := bucket.tokens - 1 } := by
  unfold take at taken ⊢
  split at taken
  · cases taken
  next enough => rw [if_neg enough]

omit [IsStrictOrderedRing Amount] in
theorem take_of_denied (denied : (take bucket).1 = false) : (take bucket).2 = bucket := by
  unfold take at denied ⊢
  split at denied
  next few => rw [if_pos few]
  · cases denied

/-- A token that is given back at once was never gone. -/
theorem giveBack_take (bounded : bucket.tokens ≤ limit.burst) (taken : (take bucket).1 = true) :
    limit.giveBack (take bucket).2 = bucket := by
  rw [take_of_taken taken]
  simp only [giveBack, sub_add_cancel, min_eq_left bounded]

theorem Sound.touch (sound : limit.Sound bucket) (now : Amount) :
    limit.Sound (limit.touch now bucket) :=
  ⟨le_trans sound.nonneg (le_refill _ _ sound.bounded), refill_le_burst _ _ sound.bounded⟩

theorem Sound.take (sound : limit.Sound bucket) : limit.Sound (take bucket).2 := by
  unfold TokenRate.take
  split
  · exact sound
  next enough => exact ⟨sub_nonneg.mpr (not_lt.mp enough), by linarith [sound.bounded]⟩

theorem Sound.giveBack (sound : limit.Sound bucket) : limit.Sound (limit.giveBack bucket) :=
  ⟨le_min (by linarith [sound.nonneg]) (le_trans zero_le_one limit.one_le_burst), min_le_right _ _⟩

omit [IsStrictOrderedRing Amount] in
theorem last_take : (take bucket).2.last = bucket.last := by
  unfold take
  split <;> rfl

/-- A spend moves one token from the bucket to the count. -/
theorem spends_spend (now : Amount) (rest : List (TokenEvent Amount)) :
    (limit.spends (.spend now :: rest) bucket : Amount) + (take (limit.touch now bucket)).2.tokens =
      (limit.touch now bucket).tokens + limit.spends rest (take (limit.touch now bucket)).2 := by
  simp only [spends, step]
  unfold take
  split
  · simp [add_comm]
  · simp only [if_true, Nat.cast_add, Nat.cast_one]
    ring

theorem spends_refund (now : Amount) (rest : List (TokenEvent Amount)) :
    limit.spends (.refund now :: rest) bucket = limit.spends rest (limit.giveBack bucket) := by
  simp [spends, step]

omit [LinearOrder Amount] [IsStrictOrderedRing Amount] in
theorem refunds_spend (now : Amount) (rest : List (TokenEvent Amount)) :
    (TokenEvent.refunds (.spend now :: rest) : Amount) = TokenEvent.refunds rest := by
  simp [TokenEvent.refunds]

omit [LinearOrder Amount] [IsStrictOrderedRing Amount] in
theorem refunds_refund (now : Amount) (rest : List (TokenEvent Amount)) :
    (TokenEvent.refunds (.refund now :: rest) : Amount) = TokenEvent.refunds rest + 1 := by
  simp [TokenEvent.refunds]

/-- Events happen in order and inside a span of time. -/
structure Spanned (start finish : Amount) (events : List (TokenEvent Amount)) : Prop where
  ordered : (events.map TokenEvent.now).Pairwise (· ≤ ·)
  inside : ∀ event ∈ events, start ≤ event.now ∧ event.now ≤ finish

section Spanned

variable {start finish : Amount} {event : TokenEvent Amount}
  {rest events : List (TokenEvent Amount)}

omit [Field Amount] [IsStrictOrderedRing Amount]

/-- After an event the others lie between it and the end of the span. -/
theorem Spanned.tail (spanned : Spanned start finish (event :: rest)) :
    Spanned event.now finish rest := by
  obtain ⟨ordered, inside⟩ := spanned
  rw [List.map_cons, List.pairwise_cons] at ordered
  exact ⟨ordered.2, fun later member =>
    ⟨ordered.1 _ (List.mem_map_of_mem member), (inside later (.tail _ member)).2⟩⟩

theorem Spanned.earlier {before : Amount} (spanned : Spanned start finish events)
    (sooner : before ≤ start) : Spanned before finish events :=
  ⟨spanned.ordered, fun event member =>
    ⟨le_trans sooner (spanned.inside event member).1, (spanned.inside event member).2⟩⟩

end Spanned

/-- A token that is given back is one more after any refill. -/
theorem touch_giveBack_le (now : Amount) :
    (limit.touch now (limit.giveBack bucket)).tokens ≤ (limit.touch now bucket).tokens + 1 := by
  have gained : (limit.giveBack bucket).tokens ≤ bucket.tokens + 1 := min_le_left _ _
  have still : (limit.giveBack bucket).last = bucket.last := rfl
  simp only [touch, refill, still]
  split
  · rw [← min_add_add_right]
    exact min_le_min (by linarith) (by linarith)
  · exact gained

/-- Spends are paid by what the bucket holds at most, by the refill until the end and by the
refunds. -/
theorem spends_le_of_funded (sound : limit.Sound bucket) {events : List (TokenEvent Amount)}
    {start finish budget : Amount} (funded : ∀ now, start ≤ now →
      (limit.touch now bucket).tokens ≤ budget + (now - start) * limit.rate)
    (spanned : Spanned start finish events) (ends : start ≤ finish) :
    (limit.spends events bucket : Amount) ≤
      budget + (finish - start) * limit.rate + TokenEvent.refunds events := by
  induction events generalizing bucket start budget with
  | nil =>
    have least := le_trans (sound.touch finish).nonneg (funded finish ends)
    simpa only [spends, TokenEvent.refunds, Nat.cast_zero, List.countP_nil, add_zero] using least
  | cons event rest ih =>
    obtain ⟨starts, stops⟩ := spanned.inside event (.head _)
    cases event with
    | spend now =>
      -- What is left after the spend is the budget of the others.
      have rests := ih (sound.touch now).take (fun later after => by
        have refilled := @refill_le _ _ _ _ limit (later - now)
          (take (limit.touch now bucket)).2.tokens (sub_nonneg.mpr after)
        rwa [touch, @last_take _ _ _ (limit.touch now bucket)]) spanned.tail stops
      have found := funded now starts
      have counted := @spends_spend _ _ _ _ limit bucket now rest
      rw [refunds_spend]
      simp only [TokenEvent.now] at rests
      linarith
    | refund now =>
      have rests := @ih _ sound.giveBack start (budget + 1) (fun later after => by
        linarith [funded later after, @touch_giveBack_le _ _ _ _ limit bucket later])
        (spanned.tail.earlier starts) ends
      rw [spends_refund, refunds_refund]
      linarith

/-- In a span of time the spends that succeed are at most the burst, the refill of the span and
the refunds. -/
theorem spends_le (sound : limit.Sound bucket) {events : List (TokenEvent Amount)}
    {start finish : Amount} (spanned : Spanned start finish events) (ends : start ≤ finish) :
    (limit.spends events bucket : Amount) ≤
      limit.burst + (finish - start) * limit.rate + TokenEvent.refunds events := by
  refine spends_le_of_funded sound (fun now later => ?_) spanned ends
  have gained := mul_nonneg (sub_nonneg.mpr later) limit.rate_pos.le
  linarith [(sound.touch now).bounded]

end TokenRate

end Tempogate.Foundation
