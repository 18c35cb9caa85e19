/-
This file defines the sets of sensitive values and how a text is scrubbed of them.
-/

import Mathlib.Algebra.Ring.Nat
import Mathlib.Data.List.AList
import Mathlib.Data.List.Sort
import Tempogate.Foundation.Masking
import Tempogate.Foundation.Text
import Tempogate.Foundation.Utf8

namespace Tempogate.Redact

open Foundation

/-- A Go string is a list of bytes. -/
abbrev Text : Type := List UInt8

def text (value : String) : Text := Utf8.encode value.toList

inductive Rule
  | secret
  | pii
  | identifier
  deriving DecidableEq, Repr

def redacted : Text := text "[REDACTED]"

def stars : Text := text "***"

/-- The prefix is never more than a third of the value. -/
def keptPrefix (limit : Nat) (value : Text) : Text :=
  value.take (Utf8.runeIndex (min limit (Utf8.runeCount value / 3)) value)

def keepPrefix (limit : Nat) (value : Text) : Text := keptPrefix limit value ++ stars

/-- An address has something on both sides of its first at sign. -/
def cutAddress (value : Text) : Option (Text × Text) :=
  (cutFirst '@'.toUInt8 value).filter fun parts => parts.1 ≠ [] && parts.2 ≠ []

def maskPII (value : Text) : Text :=
  match cutAddress value with
  | none => stars
  | some (user, domain) => user.take (Utf8.runeSize user) ++ text "***@" ++ domain

namespace Rule

def mask : Rule → Text → Text
  | secret, _ => redacted
  | pii, value => maskPII value
  | identifier, value => keepPrefix 6 value

def strength : Rule → Nat
  | secret => 3
  | pii => 2
  | identifier => 1

def minLen : Rule → Nat
  | secret => 4
  | pii => 4
  | identifier => 8

/-- Empty and short values are ignored. -/
def accepts (rule : Rule) (value : Text) : Bool := value ≠ [] && rule.minLen ≤ value.length

end Rule

abbrev Values : Type := AList fun _ : Text => Rule

/-- The pairs are tried in their order. -/
abbrev Pairs : Type := List (Text × Text)

def replace (pairs : Pairs) (input : Text) : Text :=
  (Replacer.scan Prod.fst pairs 0 input).flatMap fun
    | .copied letter => [letter]
    | .matched pair => pair.2

/-- The version never wraps, since every step of it stores a value and an address space does not
hold 2^64 of them. -/
structure SetState where
  values : Values
  version : Nat
  cached : Option Pairs
  cachedVersion : Nat

def SetState.new : SetState := ⟨∅, 0, none, 0⟩

/-- A value that is declared again keeps the stronger rule. -/
def SetState.declareValue (rule : Rule) (state : SetState) (value : Text) : SetState :=
  if !rule.accepts value then state
  else if (state.values.lookup value).any fun prev => prev.strength ≥ rule.strength then state
  else { state with values := state.values.insert value rule, version := state.version + 1 }

/-- A set is created after its parent and keeps it. -/
structure Tree where
  parent : Nat → Option Nat
  older : ∀ set above, parent set = some above → above < set

abbrev Sets : Type := Nat → SetState

def Sets.new : Sets := fun _ => SetState.new

section

variable (tree : Tree)

def Tree.lineFrom : Nat → Nat → List Nat
  | 0, _ => []
  | fuel + 1, set => set :: (tree.parent set).elim [] (lineFrom fuel)

/-- These are the set, its parent, the parent of that, and so on. -/
def Tree.line (set : Nat) : List Nat := tree.lineFrom (set + 1) set

/-- The stronger of two rules for one value stays. -/
def addValues (merged : Values) (values : Values) : Values :=
  values.entries.foldl (fun merged entry =>
    if (merged.lookup entry.1).all fun prev => entry.2.strength > prev.strength then
      merged.insert entry.1 entry.2
    else merged) merged

namespace Sets

variable (sets : Sets)

def version (set : Nat) : Nat := ((tree.line set).map fun member => (sets member).version).sum

/-- The parents come first, the nearest of them first. -/
def collect (set : Nat) : Values :=
  ((tree.line set).tail ++ [set]).foldl (fun merged member => addValues merged (sets member).values)
    ∅

end Sets

/-- Longer values come first, and those of one length in bytewise order. -/
def isBefore (first second : Text) : Prop :=
  second.length < first.length ∨ first.length = second.length ∧ first ≤ second

instance (first second : Text) : Decidable (isBefore first second) :=
  inferInstanceAs (Decidable (_ ∨ _ ∧ _))

def ordered (values : Values) : List (Text × Rule) :=
  (values.entries.map fun entry => (entry.1, entry.2)).insertionSort
    fun first second => isBefore first.1 second.1

def maskPair (entry : Text × Rule) : Text × Text := (entry.1, entry.2.mask entry.1)

def build (values : Values) : Pairs := (ordered values).map maskPair

/-- A set without values uses the replacer of its parent. -/
def replacer (sets : Sets) : Nat → Nat → Option Pairs × Sets
  | 0, _ => (none, sets)
  | fuel + 1, set =>
    match (sets set).values.entries, tree.parent set with
    | [], some above => replacer sets fuel above
    | _, _ =>
      let version := sets.version tree set
      if version = 0 ∨ (sets set).cachedVersion = version then ((sets set).cached, sets)
      else
        let pairs := build (sets.collect tree set)
        (some pairs, Function.update sets set
          { sets set with cached := some pairs, cachedVersion := version })

/-- A nil set declares nothing and scrubs nothing. -/
inductive Call
  | declare (set : Option Nat) (rule : Rule) (values : List Text)
  | scrub (set : Option Nat) (input : Text)

def declare (sets : Sets) (set : Nat) (rule : Rule) (values : List Text) : Sets :=
  Function.update sets set (values.foldl (SetState.declareValue rule) (sets set))

def scrub (sets : Sets) (set : Nat) (input : Text) : Text × Sets :=
  if input = [] then (input, sets)
  else match replacer tree sets (set + 1) set with
    | (none, after) => (input, after)
    | (some pairs, after) => (replace pairs input, after)

/-- Only a scrub has an answer. -/
def step (sets : Sets) : Call → Option Text × Sets
  | .declare none _ _ => (none, sets)
  | .declare (some set) rule values => (none, declare sets set rule values)
  | .scrub none input => (some input, sets)
  | .scrub (some set) input => ((scrub tree sets set input).1, (scrub tree sets set input).2)

def after (calls : List Call) : Sets :=
  calls.foldl (fun sets call => (step tree sets call).2) Sets.new

end

end Tempogate.Redact
