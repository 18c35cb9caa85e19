/-
This file defines programs that act only through declared effects.
-/

import Mathlib.Logic.Function.Basic
import Mathlib.Tactic.Common

namespace Tempogate.Foundation

/-- A signature lists the effects of a program and the type of each answer. -/
structure Signature where
  Effect : Type
  Answer : Effect → Type

/-- The sum offers the effects of both signatures. -/
def Signature.sum (first second : Signature) : Signature where
  Effect := first.Effect ⊕ second.Effect
  Answer := Sum.elim first.Answer second.Answer

/-- A program returns a result or performs one effect and continues with its answer. -/
inductive Program (signature : Signature) (Result : Type) where
  | done (result : Result)
  | perform (effect : signature.Effect) (next : signature.Answer effect → Program signature Result)

namespace Program

variable {signature target : Signature} {Result Middle : Type}

def bind (program : Program signature Middle) (continuation : Middle → Program signature Result) :
    Program signature Result :=
  match program with
  | .done result => continuation result
  | .perform effect next => .perform effect fun answer => (next answer).bind continuation

instance : Monad (Program signature) where
  pure := .done
  bind := .bind

/-- This program performs one effect and returns its answer. -/
def call (effect : signature.Effect) : Program signature (signature.Answer effect) :=
  .perform effect .done

@[simp] theorem bind_eq (program : Program signature Middle)
    (continuation : Middle → Program signature Result) :
    program >>= continuation = program.bind continuation := rfl

/-- The interpreter replaces each effect by a program over another signature. -/
def interpret (methods : ∀ effect, Program target (signature.Answer effect)) :
    Program signature Result → Program target Result
  | .done result => .done result
  | .perform effect next =>
    (methods effect).bind fun answer => (next answer).interpret methods

/-- A program over the first summand is one over the sum. -/
def first {outer inner : Signature} (program : Program outer Result) :
    Program (outer.sum inner) Result :=
  program.interpret fun effect => .perform (.inl effect) .done

/-- A program over the second summand is one over the sum. -/
def second {outer inner : Signature} (program : Program inner Result) :
    Program (outer.sum inner) Result :=
  program.interpret fun effect => .perform (.inr effect) .done

/-- This function replaces the effects of the second summand and keeps those of the first. -/
def lower {outer inner target : Signature}
    (methods : ∀ effect, Program target (inner.Answer effect)) :
    Program (outer.sum inner) Result → Program (outer.sum target) Result :=
  interpret fun
    | .inl effect => .perform (.inl effect) .done
    | .inr effect => (methods effect).second

end Program

end Tempogate.Foundation
