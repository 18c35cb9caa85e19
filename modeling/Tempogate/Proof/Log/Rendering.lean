/-
This file defines a chain of errors rendered without stacks and proves that the writer renders it.
-/

import Tempogate.Proof.Log.Splitting

namespace Tempogate.Log

open List

/-- This is what a rendering writes, the budget it leaves, the number of calls it makes and the
visits it records, the newest first. -/
@[ext]
structure Written (Err : Type) where
  buf : Text
  budget : Int
  calls : Nat
  trace : List (Trace Err)

def Written.append {Err : Type} (earlier later : Written Err) : Written Err :=
  ⟨earlier.buf ++ later.buf, later.budget, earlier.calls + later.calls,
    later.trace ++ earlier.trace⟩

/-- A rendering depends on the budget and on the number of calls before it. -/
def Rendering (Err : Type) : Type := Int → Nat → Written Err

namespace Rendering

variable {Err : Type}

def idle : Rendering Err := fun budget _ => ⟨[], budget, 0, []⟩

def put (written : Text) (trace : List (Trace Err)) : Rendering Err :=
  fun budget _ => ⟨written, budget, 0, trace⟩

def andThen (first second : Rendering Err) : Rendering Err := fun budget calls =>
  let earlier := first budget calls
  earlier.append (second earlier.budget (calls + earlier.calls))

def all (renderings : List (Rendering Err)) : Rendering Err := renderings.foldr andThen idle

end Rendering

section Render

open Rendering

variable {Err : Type} (errors : Errors Err) (base : Text)

def onPath (path : List Err) (cause : Err) : Bool :=
  errors.isComparable cause && path.any (errors.equal cause)

/-- The texts of the causes are read one after the other. -/
def linksOf : Nat → List Err → List (Link Err)
  | _, [] => []
  | calls, cause :: rest => ⟨cause, errors.errorText calls cause⟩ :: linksOf (calls + 1) rest

def below (path : List Err) (err : Err) : List Err :=
  if errors.isComparable err then err :: path else path

/-- The calls are those that found the causes and their texts. -/
def title (level : Nat) (own : Text) (calls : Nat) (chain : List Err) : Rendering Err :=
  fun budget _ => ⟨ownText base level own, budget - 1, calls, [.visited chain]⟩

def cycleEnd (level cycles : Nat) : Rendering Err :=
  if cycles > 0 then put (marker base level "cycle") [.cycle] else idle

/-- A rendered error is followed by its causes and by the mark of the causes left out. -/
def render : Nat → List Err → List Err → Link Err → Nat → Rendering Err
  | 0, _, _, _, _ => idle
  | fuel + 1, path, above, link, level => fun budget calls =>
    if budget ≤ 0 then
      if budget = 0 then ⟨marker base level "truncated", budget - 1, 0, [.truncated]⟩
      else idle budget calls
    else
      let causes := errors.causesOf calls link.err
      let kept := causes.filter fun cause => !onPath errors path cause
      let cycles := causes.countP (onPath errors path)
      let links := linksOf errors (calls + 1) kept
      let split := splitOwn link.text links
      let shown := split.2.links links
      let next := nextLevel level split.1 (shown.length + cycles)
      let children := shown.map fun cause =>
        render fuel (below errors path link.err) (link.err :: above) cause next
      andThen (title base level split.1 (1 + kept.length) (link.err :: above))
        (andThen (all children) (cycleEnd base next cycles)) budget calls

end Render

section Laws

variable {Err : Type}

/-- A law relates the budget before a rendering to what it writes. It holds of a sequence when it
holds of the parts. -/
structure Law (law : Int → Written Err → Prop) : Prop where
  idle : ∀ budget, law budget ⟨[], budget, 0, []⟩
  append : ∀ budget earlier later, law budget earlier → law earlier.budget later →
    law budget (earlier.append later)

def Obeys (law : Int → Written Err → Prop) (rendering : Rendering Err) : Prop :=
  ∀ budget calls, law budget (rendering budget calls)

variable {law : Int → Written Err → Prop}

theorem Law.andThen (lawful : Law law) {first second : Rendering Err} (earlier : Obeys law first)
    (later : Obeys law second) : Obeys law (first.andThen second) :=
  fun budget calls => lawful.append budget _ _ (earlier budget calls) (later _ _)

theorem Law.all (lawful : Law law) {renderings : List (Rendering Err)}
    (each : ∀ rendering ∈ renderings, Obeys law rendering) : Obeys law (.all renderings) := by
  induction renderings with
  | nil => exact fun budget _ => lawful.idle budget
  | cons rendering rest ih =>
    exact lawful.andThen (each rendering mem_cons_self)
      (ih fun other member => each other (mem_cons_of_mem _ member))

/-- A rendering never raises the budget. -/
def Lower (budget : Int) (written : Written Err) : Prop := written.budget ≤ budget

theorem lower_law : Law (@Lower Err) :=
  ⟨fun budget => Int.le_refl budget, fun _ _ _ earlier later => Int.le_trans later earlier⟩

end Laws

section Performs

open Rendering

variable {Err : Type}

variable (writer : ErrorWriter Err)

variable (written : Written Err)

/-- A rendering changes neither the stacks nor the text that is already written. -/
def ErrorWriter.extend : ErrorWriter Err :=
  { writer with
    buf := writer.buf ++ written.buf
    budget := written.budget
    calls := writer.calls + written.calls
    trace := written.trace ++ writer.trace }

/-- The step writes the rendering. -/
def Performs (step : Option (ErrorWriter Err)) (rendering : Rendering Err)
    (writer : ErrorWriter Err) : Prop :=
  step = some (writer.extend (rendering writer.budget writer.calls))

theorem extend_idle : writer.extend (idle writer.budget writer.calls) = writer := by
  simp [ErrorWriter.extend, idle]

theorem extend_andThen (first second : Rendering Err) (writer : ErrorWriter Err) :
    writer.extend (andThen first second writer.budget writer.calls) =
      let middle := writer.extend (first writer.budget writer.calls)
      middle.extend (second middle.budget middle.calls) := by
  simp [ErrorWriter.extend, andThen, Written.append, Nat.add_assoc]

theorem Performs.after {first second : Rendering Err} {writer : ErrorWriter Err}
    {step : Option (ErrorWriter Err)}
    (performs : Performs step second (writer.extend (first writer.budget writer.calls))) :
    Performs step (first.andThen second) writer :=
  performs.trans (congrArg some (extend_andThen first second writer).symm)

/-- The writers that differ in what is written only share their base and their stacks. -/
structure SameStacks (first second : ErrorWriter Err) : Prop where
  base : second.base = first.base
  path : second.path = first.path
  links : second.links = first.links

theorem SameStacks.extend : SameStacks writer (writer.extend written) := ⟨rfl, rfl, rfl⟩

theorem SameStacks.trans {first second third : ErrorWriter Err} (left : SameStacks first second)
    (right : SameStacks second third) : SameStacks first third :=
  ⟨right.base.trans left.base, right.path.trans left.path, right.links.trans left.links⟩

/-- A loop performs its renderings one after the other when each step performs its own at every
writer with the stacks of the first and no larger budget. -/
theorem foldlM_performs {Item : Type} (step : ErrorWriter Err → Item → Option (ErrorWriter Err))
    (renderingOf : Item → Rendering Err) (items : List Item) (writer : ErrorWriter Err)
    (lowers : ∀ item ∈ items, Obeys Lower (renderingOf item))
    (performs : ∀ later item, item ∈ items → SameStacks writer later →
      later.budget ≤ writer.budget → Performs (step later item) (renderingOf item) later) :
    Performs (items.foldlM step writer) (all (items.map renderingOf)) writer := by
  induction items generalizing writer with
  | nil => exact congrArg some (extend_idle writer).symm
  | cons item rest ih =>
    have first := performs writer item mem_cons_self ⟨rfl, rfl, rfl⟩ (Int.le_refl _)
    have lower := lowers item mem_cons_self writer.budget writer.calls
    have others := ih (writer.extend (renderingOf item writer.budget writer.calls))
      (fun other member => lowers other (mem_cons_of_mem _ member))
      (fun later other member same below =>
        performs later other (mem_cons_of_mem _ member)
          ((SameStacks.extend writer _).trans same) (Int.le_trans below lower))
    rw [Performs] at first
    rw [foldlM_cons, first]
    exact others.after

end Performs

section Writer

open Rendering ErrorWriter

variable {Err : Type} (errors : Errors Err)

theorem mem_linksOf (calls : Nat) (causes : List Err) (link : Link Err)
    (member : link ∈ linksOf errors calls causes) : link.err ∈ causes := by
  induction causes generalizing calls with
  | nil => cases member
  | cons cause rest ih =>
    rcases mem_cons.mp member with rfl | later
    · exact mem_cons_self
    · exact mem_cons_of_mem _ (ih (calls + 1) later)

/-- A law holds of a rendered chain when it holds of each piece. What is known of an error and of
the errors above it passes to its causes that are not on the path. -/
theorem render_obeys {law : Int → Written Err → Prop} (lawful : Law law) (base : Text)
    (known : List Err → List Err → Err → Prop)
    (truncated : ∀ level, law 0 ⟨marker base level "truncated", -1, 0, [.truncated]⟩)
    (cycle : ∀ level, Obeys law (put (marker base level "cycle") [.cycle]))
    (visited : ∀ path above err, known path above err → ∀ level own budget count, 0 < budget →
      law budget ⟨ownText base level own, budget - 1, count, [.visited (err :: above)]⟩)
    (passes : ∀ path above err, known path above err → ∀ calls cause,
      cause ∈ errors.causesOf calls err → onPath errors path cause = false →
        known (below errors path err) (err :: above) cause)
    (fuel : Nat) (path above : List Err) (link : Link Err) (level : Nat)
    (start : known path above link.err) :
    Obeys law (render errors base fuel path above link level) := by
  induction fuel generalizing path above link level with
  | zero => exact fun budget _ => lawful.idle budget
  | succ fuel ih =>
    intro budget calls
    simp only [render]
    split
    · split
      case isTrue none => exact none ▸ truncated level
      case isFalse => exact lawful.idle budget
    · rename_i positive
      refine lawful.append budget _ _
        (visited path above link.err start _ _ _ _ (Int.not_le.mp positive)) ?_
      refine lawful.andThen (lawful.all ?_) ?_ _ _
      · intro rendering member
        obtain ⟨cause, shown, rfl⟩ := mem_map.mp member
        have kept := mem_filter.mp (mem_linksOf errors _ _ _ (mem_shown _ _ _ shown))
        exact ih _ _ _ _ (passes path above link.err start calls cause.err kept.1
          (by simpa using kept.2))
      · rw [cycleEnd]
        split
        · exact cycle _
        · exact fun budget _ => lawful.idle budget

theorem render_lowers (base : Text) (fuel : Nat) (path above : List Err) (link : Link Err)
    (level : Nat) : Obeys Lower (render errors base fuel path above link level) := by
  refine render_obeys errors lower_law base (fun _ _ _ => True) ?_ ?_ ?_ ?_ fuel path above link
    level trivial
  · intro level
    change (-1 : Int) ≤ 0
    omega
  · exact fun level budget _ => Int.le_refl budget
  · intro path above err _ level own budget count _
    change budget - 1 ≤ budget
    omega
  · exact fun _ _ _ _ _ _ _ _ => trivial

/-- The causes that are not on the path are stacked and the others are counted. -/
theorem foldl_addCause (causes : List Err) (cycles : Nat) (writer : ErrorWriter Err) :
    causes.foldl (addCause errors) (cycles, writer) =
      (cycles + causes.countP (onPath errors writer.path), { writer with
        links := writer.links ++ linksOf errors writer.calls
          (causes.filter fun cause => !onPath errors writer.path cause)
        calls := writer.calls +
          (causes.filter fun cause => !onPath errors writer.path cause).length }) := by
  induction causes generalizing cycles writer with
  | nil => simp [linksOf]
  | cons cause rest ih =>
    by_cases looped : onPath errors writer.path cause = true
    · have step : addCause errors (cycles, writer) cause = (cycles + 1, writer) := if_pos looped
      rw [foldl_cons, step, ih]
      simp [looped, Nat.add_assoc, Nat.add_comm 1]
    · have step : addCause errors (cycles, writer) cause = (cycles, { writer with
          links := writer.links ++ [⟨cause, errors.errorText writer.calls cause⟩]
          calls := writer.calls + 1 }) := if_neg looped
      rw [foldl_cons, step, ih]
      simp [looped, linksOf, Nat.add_assoc, Nat.add_comm 1]

variable (writer : ErrorWriter Err)

variable (err : Err)

theorem addCauses_eq : addCauses errors writer err =
      ((errors.causesOf writer.calls err).countP (onPath errors writer.path), { writer with
        links := writer.links ++ linksOf errors (writer.calls + 1)
          ((errors.causesOf writer.calls err).filter fun cause => !onPath errors writer.path cause)
        calls := writer.calls + 1 + ((errors.causesOf writer.calls err).filter fun cause =>
            !onPath errors writer.path cause).length }) := by
  rw [addCauses, foldl_addCause, Nat.zero_add]

/-- The causes on the stack are read as they were added since every step leaves the stack as it
was. -/
theorem eachCause_performs (visit : ErrorWriter Err → Link Err → Option (ErrorWriter Err))
    (renderingOf : Link Err → Rendering Err) (before causes : List (Link Err)) (shown : Shown Err)
    (writer : ErrorWriter Err) (stacked : writer.links = before ++ causes)
    (lowers : ∀ cause, Obeys Lower (renderingOf cause))
    (performs : ∀ later cause, SameStacks writer later → later.budget ≤ writer.budget →
      Performs (visit later cause) (renderingOf cause) later) :
    Performs (eachCause visit before.length causes.length shown writer)
      (all ((shown.links causes).map renderingOf)) writer := by
  cases shown with
  | unquoted links =>
    exact foldlM_performs visit renderingOf links writer (fun cause _ => lowers cause)
      fun later cause _ => performs later cause
  | all =>
    have renderings : causes.map renderingOf = (List.range causes.length).map fun index =>
        (causes[index]?).elim idle renderingOf := by
      apply ext_getElem
      · simp
      · intro index inside _
        have bound : index < causes.length := by simpa using inside
        simp [List.getElem?_eq_getElem bound]
    have loop := foldlM_performs
      (fun writer index => (writer.links[before.length + index]?).bind (visit writer))
      (fun index => (causes[index]?).elim idle renderingOf) (List.range causes.length) writer ?_ ?_
    · rw [← renderings] at loop
      exact loop
    · intro index member
      rw [List.getElem?_eq_getElem (mem_range.mp member)]
      exact lowers _
    · intro later index member same below
      have inside := mem_range.mp member
      have read : later.links[before.length + index]? = causes[index]? := by
        rw [same.links, stacked, List.getElem?_append_right (by omega)]
        congr 1
        omega
      rw [read, List.getElem?_eq_getElem inside]
      exact performs later _ same below

theorem enter_eq :
    enter errors writer err = { writer with path := below errors writer.path err } := by
  unfold enter below
  split <;> rfl

/-- Leaving an error undoes what entering it changed. -/
theorem leave_enter (written : Written Err) (start cycles level : Nat) :
    leave errors ((enter errors writer err).extend written) err start cycles level =
      let cut := { writer with links := writer.links.take start }.extend written
      cut.extend (cycleEnd writer.base level cycles cut.budget cut.calls) := by
  by_cases comparable : errors.isComparable err = true <;> by_cases looped : cycles > 0 <;>
    simp [leave, enter, cycleEnd, comparable, looped, ErrorWriter.extend, append, note, put, idle]

/-- The writer renders the chain and restores its stacks. -/
theorem write_performs (fuel : Nat) (writer : ErrorWriter Err) (above : List Err) (link : Link Err)
    (level : Nat) (enough : writer.budget.toNat < fuel) :
    Performs (write errors fuel writer above link level)
      (render errors writer.base fuel writer.path above link level) writer := by
  induction fuel generalizing writer above link level with
  | zero => omega
  | succ fuel ih =>
    by_cases spent : writer.budget ≤ 0
    · by_cases first : writer.budget = 0
      · simp [Performs, write, render, first, append, note, ErrorWriter.extend]
      · simp [Performs, write, render, spent, first, extend_idle]
    · simp only [write, render, Performs, spent, if_false, addCauses_eq]
      dsimp only [visit, note]
      rw [drop_left]
      generalize List.filter _ _ = kept
      generalize linksOf errors (writer.calls + 1) kept = links
      generalize List.countP _ _ = cycles
      generalize nextLevel _ _ _ = next
      generalize whole : ErrorWriter.append _ _ = staged
      have titled : { staged with links := staged.links.take writer.links.length } =
          writer.extend (title writer.base level (splitOwn link.text links).1 (1 + kept.length)
            (link.err :: above) writer.budget writer.calls) := by
        subst whole
        simp [append, ErrorWriter.extend, title, Nat.add_assoc]
      obtain ⟨base, path, budget, calls⟩ : staged.base = writer.base ∧
          staged.path = writer.path ∧ staged.budget = writer.budget - 1 ∧
          staged.calls = writer.calls + (1 + kept.length) := by
        subst whole
        exact ⟨rfl, rfl, rfl, Nat.add_assoc ..⟩
      have loop := eachCause_performs
        (fun writer cause => write errors fuel writer (link.err :: above) cause next)
        (fun cause => render errors writer.base fuel (below errors writer.path link.err)
          (link.err :: above) cause next)
        writer.links links (splitOwn link.text links).2 (enter errors staged link.err) ?_ ?_ ?_
      · rw [loop, Option.map_some, leave_enter, titled, extend_andThen, extend_andThen, enter_eq]
        dsimp only
        rw [base, budget, calls]
        rfl
      · rw [enter_eq]
        subst whole
        rfl
      · exact fun cause => render_lowers errors _ _ _ _ _ _
      · intro later cause same lower
        rw [enter_eq] at same lower
        have fewer : later.budget.toNat < fuel := by
          have below : later.budget ≤ writer.budget - 1 := budget ▸ lower
          omega
        have performed := ih later (link.err :: above) cause next fewer
        rw [same.base, same.path] at performed
        dsimp only at performed
        rw [base, path] at performed
        exact performed

end Writer

end Tempogate.Log
