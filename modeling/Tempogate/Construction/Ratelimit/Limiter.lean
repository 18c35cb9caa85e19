/-
This file defines the rate limiter with its map of buckets and its recency list.
-/

import Mathlib.Data.List.AList
import Mathlib.Data.Rat.Cast.Order
import Tempogate.Construction.Oidc.Types
import Tempogate.Foundation.TokenBucket

namespace Tempogate.Ratelimit

open Foundation Oidc

/-- Durations count as exact rationals. -/
def seconds (duration : Time) : ℚ := duration / second

theorem seconds_pos {duration : Time} (positive : 0 < duration) : 0 < seconds duration :=
  div_pos (Int.cast_pos.mpr positive) (by norm_num [second])

/-- Every limiter tracks at least one key. -/
structure Limiter extends TokenRate ℚ where
  maxKeys : Nat
  maxKeys_pos : 0 < maxKeys

namespace Limiter

/-- A burst of the limit refills evenly over the window. -/
def withLimit (limit : Int) (per : Time) (limiter : Limiter) : Limiter :=
  if positive : 0 < limit ∧ 0 < per then
    { limiter with
      burst := limit
      rate := limit / seconds per
      one_le_burst := Int.cast_one_le_of_pos positive.1
      rate_pos := div_pos (Int.cast_pos.mpr positive.1) (seconds_pos positive.2) }
  else limiter

def withMaxKeys (count : Int) (limiter : Limiter) : Limiter :=
  if positive : 0 < count then
    { limiter with maxKeys := count.toNat, maxKeys_pos := Int.pos_iff_toNat_pos.mp positive }
  else limiter

/-- By default a key has ten attempts in a minute. -/
def default : Limiter where
  burst := 10
  rate := 10 / seconds minute
  one_le_burst := by norm_num
  rate_pos := div_pos (by norm_num) (seconds_pos (by decide))
  maxKeys := 10000
  maxKeys_pos := by decide

inductive Setting
  | limit (limit : Int) (per : Time)
  | maxKeys (count : Int)

def new (settings : List Setting) : Limiter :=
  settings.foldl (fun limiter => fun
    | .limit limit per => limiter.withLimit limit per
    | .maxKeys count => limiter.withMaxKeys count) default

end Limiter

structure Bucket where
  key : String
  tokens : ℚ
  last : Time
  deriving DecidableEq, Repr

/-- The map points from a key to an element of the list, and a cell holds its bucket. -/
structure State where
  order : List Nat
  buckets : AList fun _ : String => Nat
  cells : Nat → Bucket
  next : Nat

namespace State

def empty : State := ⟨[], ∅, fun _ => ⟨"", 0, 0⟩, 0⟩

def setCell (id : Nat) (cell : Bucket) (state : State) : State :=
  { state with cells := Function.update state.cells id cell }

def setTokens (id : Nat) (tokens : ℚ) (state : State) : State :=
  state.setCell id { state.cells id with tokens }

def moveToFront (id : Nat) (state : State) : State :=
  { state with order := id :: state.order.erase id }

/-- An element leaves the list, and its key leaves the map. -/
def remove (id : Nat) (state : State) : State :=
  { state with
    order := state.order.erase id
    buckets := state.buckets.erase (state.cells id).key }

/-- A new element at the front holds the bucket, and the map points to it. -/
def pushFront (cell : Bucket) (state : State) : State where
  order := state.next :: state.order
  buckets := state.buckets.insert cell.key state.next
  cells := Function.update state.cells state.next cell
  next := state.next + 1

/-- The loop drops the bucket at the back of the list until there is room.
A bound on the rounds makes the loop total. -/
def evict (limiter : Limiter) : Nat → State → State
  | 0, state => state
  | rounds + 1, state =>
    if limiter.maxKeys ≤ state.buckets.entries.length then
      match state.order.getLast? with
      | none => state
      | some oldest => evict limiter rounds (state.remove oldest)
    else state

variable (limiter : Limiter)

/-- The bucket of the key is refilled to now and moved to the front, or created there. -/
def bucket (now : Time) (key : String) (state : State) : Nat × State :=
  match state.buckets.lookup key with
  | some id =>
    let found := state.cells id
    let elapsed := seconds (now - found.last)
    let tokens := if 0 < elapsed then min (found.tokens + elapsed * limiter.rate) limiter.burst
      else found.tokens
    (id, (state.moveToFront id).setCell id { found with tokens, last := now })
  | none =>
    let roomy := state.evict limiter state.buckets.entries.length
    (roomy.next, roomy.pushFront ⟨key, limiter.burst, now⟩)

def allow (now : Time) (key : String) (state : State) : Bool × State :=
  let (id, found) := state.bucket limiter now key
  if (found.cells id).tokens < 1 then (false, found)
  else (true, found.setTokens id ((found.cells id).tokens - 1))

def refund (key : String) (state : State) : State :=
  match state.buckets.lookup key with
  | none => state
  | some id => state.setTokens id (min ((state.cells id).tokens + 1) limiter.burst)

variable (state : State)

/-- The keys of the list, the most recently used one first. -/
def keys : List String := state.order.map fun id => (state.cells id).key

def find (key : String) : Option Bucket :=
  (state.buckets.lookup key).map state.cells

/-- This is the number of attempts that a key has at a time. -/
def available (later : Time) (key : String) : ℚ :=
  match state.find key with
  | none => limiter.burst
  | some bucket => limiter.refill (seconds (later - bucket.last)) bucket.tokens

end State

/-- A refund reads no clock, and its time only says when it happens. -/
inductive Call
  | allow (key : String) (now : Time)
  | refund (key : String) (now : Time)
  deriving DecidableEq, Repr

namespace Call

def key : Call → String
  | allow key _ | refund key _ => key

def now : Call → Time
  | allow _ now | refund _ now => now

/-- A refund answers nothing and grants no attempt. -/
def perform (limiter : Limiter) : Call → State → Bool × State
  | allow key now, state => state.allow limiter now key
  | refund key _, state => (false, state.refund limiter key)

end Call

def performAll (limiter : Limiter) (calls : List Call) (state : State) : State :=
  calls.foldl (fun state call => (call.perform limiter state).2) state

/-- This is the number of attempts on the key that the calls grant. -/
def grants (limiter : Limiter) (key : String) : List Call → State → Nat
  | [], _ => 0
  | call :: rest, state =>
    (if call.key = key && (call.perform limiter state).1 then 1 else 0) +
      grants limiter key rest (call.perform limiter state).2

def refunds (key : String) (calls : List Call) : Nat :=
  calls.countP fun
    | .allow _ _ => false
    | .refund other _ => other = key

/-- The call drops the bucket of the key. -/
def Evicts (limiter : Limiter) (key : String) (state : State) (call : Call) : Prop :=
  key ∈ state.keys ∧ key ∉ (call.perform limiter state).2.keys

/-- The key keeps its bucket while the calls run. -/
def Undisturbed (limiter : Limiter) (key : String) : List Call → State → Prop
  | [], _ => True
  | call :: rest, state =>
    ¬Evicts limiter key state call ∧ Undisturbed limiter key rest (call.perform limiter state).2

end Tempogate.Ratelimit
