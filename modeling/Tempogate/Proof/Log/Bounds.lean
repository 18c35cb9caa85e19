/-
This file proves that an error is rendered within bounds whatever its shape.
-/

import Tempogate.Proof.Log.Rendering

namespace Tempogate.Log

open Rendering ErrorWriter List

section Counts

variable {Err : Type}

def Trace.isVisit : Trace Err → Bool
  | .visited _ => true
  | _ => false

def Trace.isTruncation : Trace Err → Bool
  | .truncated => true
  | _ => false

def visits (trace : List (Trace Err)) : Nat := trace.countP Trace.isVisit

def truncations (trace : List (Trace Err)) : Nat := trace.countP Trace.isTruncation

/-- The mark of a truncated chain is left to write until the budget falls below zero. -/
def marksLeft (budget : Int) : Nat := if budget < 0 then 0 else 1

/-- Each visit is paid from the budget, and the mark of a truncated chain is written when the budget
falls below zero. -/
structure Spent (budget : Int) (written : Written Err) : Prop where
  visits : visits written.trace + written.budget.toNat = budget.toNat
  marks : truncations written.trace + marksLeft written.budget = marksLeft budget

theorem spent_law : Law (@Spent Err) where
  idle budget := ⟨Nat.zero_add _, Nat.zero_add _⟩
  append budget earlier later paid rest := by
    have visits_append : visits (later.trace ++ earlier.trace) =
        visits later.trace + visits earlier.trace := countP_append
    have truncations_append : truncations (later.trace ++ earlier.trace) =
        truncations later.trace + truncations earlier.trace := countP_append
    have visited := paid.visits
    have visited_later := rest.visits
    have marked := paid.marks
    have marked_later := rest.marks
    constructor
    · change visits (later.trace ++ earlier.trace) + later.budget.toNat = budget.toNat
      omega
    · change truncations (later.trace ++ earlier.trace) + marksLeft later.budget = marksLeft budget
      omega

theorem spent_put (written : Text) (trace : List (Trace Err))
    (visited : visits trace = 0) (truncated : truncations trace = 0) :
    Obeys Spent (put written trace) := by
  intro budget _
  constructor
  · change visits trace + budget.toNat = budget.toNat
    omega
  · change truncations trace + marksLeft budget = marksLeft budget
    omega

theorem render_spent (errors : Errors Err) (base : Text) (fuel : Nat) (path above : List Err)
    (link : Link Err) (level : Nat) :
    Obeys Spent (render errors base fuel path above link level) := by
  refine render_obeys errors spent_law base (fun _ _ _ => True) ?_ ?_ ?_ ?_ fuel path above link
    level trivial
  · exact fun level => ⟨rfl, rfl⟩
  · exact fun level => spent_put _ _ rfl rfl
  · intro path above err _ level own budget count positive
    constructor
    · change 1 + (budget - 1).toNat = budget.toNat
      omega
    · change 0 + marksLeft (budget - 1) = marksLeft budget
      simp only [marksLeft]
      split <;> split <;> omega
  · exact fun _ _ _ _ _ _ _ _ => trivial

end Counts

section Chains

variable {Err : Type} (errors : Errors Err)

/-- Each error of a chain is wrapped by the next one, and a comparable one equals none of the
comparable errors farther up. -/
def Descends : List Err → Prop
  | cause :: err :: above =>
    ((∃ calls, cause ∈ errors.causesOf calls err) ∧
      onPath errors (above.filter errors.isComparable) cause = false) ∧ Descends (err :: above)
  | _ => True

/-- A comparable error stands twice in a chain only when it directly wraps itself. -/
def Unrepeated (chain : List Err) : Prop :=
  ∀ (deep high : Nat) (deeper higher : Err), deep < high →
    chain[deep]? = some deeper → chain[high]? = some higher →
      errors.isComparable deeper = true → errors.isComparable higher = true →
        errors.equal deeper higher = true →
          high = deep + 1 ∧ ∃ calls, deeper ∈ errors.causesOf calls higher

/-- A chain repeats an error only directly below itself. -/
theorem Descends.unrepeated {chain : List Err} (descends : Descends errors chain) :
    Unrepeated errors chain := by
  intro deep high deeper higher order atDeep atHigh comparable shared same
  induction chain generalizing deep high with
  | nil => cases atDeep
  | cons cause rest ih =>
    cases high with
    | zero => omega
    | succ high =>
      cases rest with
      | nil => cases atHigh
      | cons err above =>
        cases deep with
        | succ deep =>
          obtain ⟨next, wrapped⟩ := ih descends.2 deep high (by omega) atDeep atHigh
          exact ⟨by omega, wrapped⟩
        | zero =>
          obtain rfl : cause = deeper := Option.some.inj atDeep
          cases high with
          | zero =>
            obtain rfl : err = higher := Option.some.inj atHigh
            exact ⟨rfl, descends.1.1⟩
          | succ high =>
            have member : higher ∈ above := mem_of_getElem? atHigh
            have free := descends.1.2
            rw [onPath, comparable, Bool.true_and, any_eq_false] at free
            exact absurd same (free higher (mem_filter.mpr ⟨member, shared⟩))

/-- Every recorded chain descends. -/
def Chains (_ : Int) (written : Written Err) : Prop :=
  ∀ chain, .visited chain ∈ written.trace → Descends errors chain

theorem chains_law : Law (Chains errors) where
  idle _ _ member := by cases member
  append _ _ _ earlier later chain member :=
    (mem_append.mp member).elim (later chain) (earlier chain)

theorem below_filter (above : List Err) (err : Err) :
    below errors (above.filter errors.isComparable) err =
      (err :: above).filter errors.isComparable := by
  rw [below, filter_cons]

/-- The path holds the comparable errors of the chain. -/
theorem render_chains (base : Text) (fuel : Nat) (above : List Err) (link : Link Err)
    (level : Nat) (start : Descends errors (link.err :: above)) :
    Obeys (Chains errors)
      (render errors base fuel (above.filter errors.isComparable) above link level) := by
  refine render_obeys errors (chains_law errors) base
    (fun path above err => path = above.filter errors.isComparable ∧
      Descends errors (err :: above)) ?_ ?_ ?_ ?_ fuel _ above link level ⟨rfl, start⟩
  · intro level chain member
    cases mem_singleton.mp member
  · intro level budget calls chain member
    cases mem_singleton.mp member
  · intro path above err known level own budget count _ chain member
    cases mem_singleton.mp member
    exact known.2
  · rintro path above err ⟨rfl, descends⟩ calls cause wrapped free
    exact ⟨below_filter errors above err, ⟨⟨calls, wrapped⟩, free⟩, descends⟩

end Chains

section Alike

variable {Err : Type} (errors : Errors Err)

/-- From the one count of calls on the errors answer as from the other. -/
def Alike (calls other : Nat) : Prop :=
  ∀ later err, errors.errorText (calls + later) err = errors.errorText (other + later) err ∧
    errors.causesOf (calls + later) err = errors.causesOf (other + later) err

variable {errors}

theorem Alike.add {calls other : Nat} (alike : Alike errors calls other) (more : Nat) :
    Alike errors (calls + more) (other + more) := by
  intro later err
  rw [Nat.add_assoc, Nat.add_assoc]
  exact alike (more + later) err

theorem linksOf_alike {calls other : Nat} (alike : Alike errors calls other) (causes : List Err) :
    linksOf errors calls causes = linksOf errors other causes := by
  induction causes generalizing calls other with
  | nil => rfl
  | cons cause rest ih =>
    rw [linksOf, linksOf, ih (alike.add 1)]
    exact congrArg (fun text => (⟨cause, text⟩ : Link Err) :: _) (alike 0 cause).1

/-- The renderings write the same from budgets up to the bound. -/
def Matches (errors : Errors Err) (bound : Int) (first second : Rendering Err) : Prop :=
  ∀ budget, budget ≤ bound → ∀ calls other, Alike errors calls other →
    first budget calls = second budget other

theorem Matches.andThen {bound : Int} {first second third fourth : Rendering Err}
    (earlier : Matches errors bound first third) (lower : Obeys Lower first)
    (later : Matches errors bound second fourth) :
    Matches errors bound (first.andThen second) (third.andThen fourth) := by
  intro budget within calls other alike
  have same := earlier budget within calls other alike
  have fewer : (first budget calls).budget ≤ bound := Int.le_trans (lower budget calls) within
  simp only [Rendering.andThen, ← same]
  rw [later _ fewer _ _ (alike.add _)]

theorem Matches.all {Item : Type} {bound : Int} {left right : Item → Rendering Err}
    (lower : ∀ item, Obeys Lower (left item))
    (each : ∀ item, Matches errors bound (left item) (right item)) (items : List Item) :
    Matches errors bound (.all (items.map left)) (.all (items.map right)) := by
  induction items with
  | nil => exact fun _ _ _ _ _ => rfl
  | cons item rest ih => exact (each item).andThen (lower item) ih

/-- Neither more fuel nor other calls that are answered alike change a rendering. -/
theorem render_matches (base : Text) (fuel more : Nat) (bound : Int) (path above : List Err)
    (link : Link Err) (level : Nat) (enough : bound.toNat < fuel) (plenty : bound.toNat < more) :
    Matches errors bound (render errors base fuel path above link level)
      (render errors base more path above link level) := by
  induction fuel generalizing more bound path above link level with
  | zero => omega
  | succ fuel ih =>
    intro budget within calls other alike
    obtain ⟨more, rfl⟩ : ∃ less, more = less + 1 := ⟨more - 1, by omega⟩
    by_cases spent : budget ≤ 0
    · simp only [render, if_pos spent]
      rfl
    · have causes := (alike 0 link.err).2
      simp only [Nat.add_zero] at causes
      simp only [render, if_neg spent, causes, linksOf_alike (alike.add 1)]
      refine congrArg (Written.append _) ?_
      refine Matches.andThen (Matches.all ?_ ?_ _) ?_ ?_ (budget - 1) (Int.le_refl _) _ _
        (alike.add _)
      · exact fun cause => render_lowers errors _ _ _ _ _ _
      · exact fun cause => ih more (budget - 1) _ _ _ _ (by omega) (by omega)
      · refine lower_law.all fun rendering member => ?_
        obtain ⟨cause, _, rfl⟩ := mem_map.mp member
        exact render_lowers errors _ _ _ _ _ _
      · intro budget _ calls other _
        rw [cycleEnd]
        split <;> rfl

/-- A writer adds the same text whatever is on its stack of links or already written. -/
theorem write_eq (writer other : ErrorWriter Err) (above : List Err) (link : Link Err)
    (level fuel : Nat) (base : other.base = writer.base) (path : other.path = writer.path)
    (budget : other.budget = writer.budget) (alike : Alike errors writer.calls other.calls)
    (enough : writer.budget.toNat < fuel) :
    write errors fuel other above link level = some (other.extend
      (render errors writer.base (writer.budget.toNat + 1) writer.path above link level
        writer.budget writer.calls)) := by
  have performed := write_performs errors fuel other above link level (budget ▸ enough)
  rw [Performs, base, path, budget] at performed
  rw [performed, render_matches writer.base _ fuel writer.budget writer.path above link level
    (Nat.lt_succ_self _) enough writer.budget (Int.le_refl _) _ _ alike]

end Alike

section Fields

variable {Err : Type} (errors : Errors Err) (fuel : Nat)

def callOnce : Rendering Err := fun budget _ => ⟨[], budget, 1, []⟩

def renderTop (base : Text) (err : Err) : Rendering Err := fun budget calls =>
  andThen callOnce (render errors base fuel [] [] ⟨err, errors.errorText calls err⟩ 0) budget calls

def renderItem (base : Text) (item : Option Err × Nat) : Rendering Err :=
  match item.1 with
  | none => idle
  | some err => andThen (put (lineEnding ++ base ++ text "[" ++ decimal item.2 ++ text "]") [])
      (renderTop errors fuel base err)

def renderField : ErrorField Err → Rendering Err
  | .one err => renderTop errors fuel blockIndent err
  | .list errs => all (errs.zipIdx.map (renderItem errors fuel (blockIndent ++ blockIndent)))

section Laws

variable {law : Int → Written Err → Prop} (lawful : Law law) (called : Obeys law callOnce)
  (put : ∀ written, Obeys law (put written []))
  (chains : ∀ base link, Obeys law (render errors base fuel [] [] link 0))

include lawful called chains

theorem renderTop_obeys (base : Text) (err : Err) : Obeys law (renderTop errors fuel base err) :=
  fun budget calls => lawful.andThen called (chains base _) budget calls

include put

theorem renderItem_obeys (base : Text) (item : Option Err × Nat) :
    Obeys law (renderItem errors fuel base item) := by
  unfold renderItem
  split
  · exact fun budget _ => lawful.idle budget
  · exact lawful.andThen (put _) (renderTop_obeys errors fuel lawful called chains base _)

theorem renderField_obeys (field : ErrorField Err) : Obeys law (renderField errors fuel field) := by
  cases field with
  | one err => exact renderTop_obeys errors fuel lawful called chains _ err
  | list errs =>
    refine lawful.all fun rendering member => ?_
    obtain ⟨item, _, rfl⟩ := mem_map.mp member
    exact renderItem_obeys errors fuel lawful called put chains _ item

end Laws

theorem writeTop_performs (writer : ErrorWriter Err) (err : Err) (empty : writer.path = [])
    (enough : writer.budget.toNat < fuel) :
    Performs (writeTop errors fuel writer err) (renderTop errors fuel writer.base err) writer := by
  have called : writer.extend (callOnce writer.budget writer.calls) =
      { writer with calls := writer.calls + 1 } := by simp [ErrorWriter.extend, callOnce]
  refine Performs.after ?_
  rw [called]
  obtain ⟨buf, base, budget, path, links, calls, trace⟩ := writer
  obtain rfl : path = [] := empty
  exact write_performs errors fuel _ [] ⟨err, errors.errorText calls err⟩ 0 enough

/-- The errors of a field are rendered one after the other. -/
theorem writeField_eq (calls : Nat) (field : ErrorField Err) (enough : maxErrorNodes.toNat < fuel) :
    ∃ start : ErrorWriter Err, start.path = [] ∧ start.links = [] ∧ start.trace = [] ∧
      writeField errors fuel calls field =
        some (start.extend (renderField errors fuel field maxErrorNodes calls)) := by
  cases field with
  | one err =>
    exact ⟨.new blockIndent calls, rfl, rfl, rfl, writeTop_performs errors fuel _ err rfl enough⟩
  | list errs =>
    refine ⟨.new (blockIndent ++ blockIndent) calls, rfl, rfl, rfl, ?_⟩
    refine foldlM_performs (writeItem errors fuel)
      (renderItem errors fuel (blockIndent ++ blockIndent)) errs.zipIdx _ ?_ ?_
    · exact fun item _ => renderItem_obeys errors fuel lower_law
        (fun budget _ => Int.le_refl budget) (fun _ budget _ => Int.le_refl budget)
        (fun _ _ => render_lowers errors _ _ _ _ _ _) _ item
    · rintro later ⟨_ | err, index⟩ _ same lower
      · exact congrArg some (extend_idle later).symm
      · have base : later.base = blockIndent ++ blockIndent := same.base
        have fewer : later.budget ≤ maxErrorNodes := lower
        have headed : later.extend (put (lineEnding ++ later.base ++ text "[" ++ decimal index ++
            text "]") [] later.budget later.calls) = later.append (lineEnding ++ later.base ++
              text "[" ++ decimal index ++ text "]") := by
          simp [ErrorWriter.extend, put, append]
        rw [renderItem, ← base]
        refine Performs.after ?_
        rw [headed]
        exact writeTop_performs errors fuel (later.append _) err same.path
          (show later.budget.toNat < fuel by omega)

end Fields

/-- A call of the writer ends and adds to the text and to the record only what its error, its level,
the path and the budget give. A field visits at most 64 errors, is marked as truncated at most once
and repeats a comparable error on a path only directly below itself. -/
theorem error_chains_are_bounded {Err : Type} (errors : Errors Err) :
    (∀ (writer : ErrorWriter Err) (above : List Err) (link : Link Err) (level : Nat),
      ∃ written : Written Err, ∀ other : ErrorWriter Err, other.base = writer.base →
        other.path = writer.path → other.budget = writer.budget →
          Alike errors writer.calls other.calls → ∀ fuel, writer.budget.toNat < fuel →
            write errors fuel other above link level = some (other.extend written)) ∧
    ∀ (calls : Nat) (field : ErrorField Err) (fuel : Nat), maxErrorNodes.toNat < fuel →
      ∃ after, writeField errors fuel calls field = some after ∧ after.path = [] ∧
        after.links = [] ∧ visits after.trace ≤ maxErrorNodes.toNat ∧ truncations after.trace ≤ 1 ∧
          ∀ chain, .visited chain ∈ after.trace → Unrepeated errors chain := by
  constructor
  · intro writer above link level
    exact ⟨_, fun other base path budget alike fuel enough =>
      write_eq writer other above link level fuel base path budget alike enough⟩
  · intro calls field fuel enough
    obtain ⟨start, path, links, trace, written⟩ := writeField_eq errors fuel calls field enough
    have spent := renderField_obeys errors fuel spent_law
      (fun _ _ => ⟨Nat.zero_add _, Nat.zero_add _⟩) (fun written => spent_put written [] rfl rfl)
      (fun _ _ => render_spent errors _ _ _ _ _ _) field maxErrorNodes calls
    have chains := renderField_obeys errors fuel (chains_law errors) (nofun) (nofun)
      (fun base link => render_chains errors base fuel [] link 0 trivial) field maxErrorNodes calls
    refine ⟨_, written, path, links, ?_, ?_, fun chain member => ?_⟩
    · have visited := spent.visits
      simp only [ErrorWriter.extend, trace, append_nil]
      omega
    · have marked := spent.marks
      have once : marksLeft maxErrorNodes = 1 := rfl
      simp only [ErrorWriter.extend, trace, append_nil]
      omega
    · simp only [ErrorWriter.extend, trace, append_nil] at member
      exact (chains chain member).unrepeated

/-- An error that wraps itself is visited twice. -/
example : (writeField (⟨fun _ _ => text "x", fun _ err => [err], fun _ => true, fun _ _ => true⟩ :
    Errors Unit) 65 0 (.one ())).map ErrorWriter.buf = some (text " x\n    ↳ … (cycle)") := by
  decide +kernel

end Tempogate.Log
