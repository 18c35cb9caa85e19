/-
This file gives the rule by which the page loop of a reaper keeps to a protocol.
-/

import Tempogate.Construction.State.Loops
import Tempogate.Foundation.Protocol

namespace Tempogate.State

open Foundation Oidc Program

variable {statements : Signature} {Label Ghost : Type} {protocol : Protocol Label Ghost}
  {observe : Observer statements Label} {batch : Nat} {expired : Time → Bool}
  {select : Nat → Nat → Program statements (Except String (List (Nat × Time)))}
  {delete : List Nat → Program statements (Except String Nat)}

/-- The page loop keeps an invariant when its deletes are ready after its selects. -/
theorem walk_meets {ghost : Ghost} (invariant : Ghost → Prop) (ready : List Nat → Ghost → Prop)
    (selects : ∀ cursor limit ghost, invariant ghost →
      (select cursor limit).Meets protocol observe (fun after answer => invariant after ∧
        ∀ page, answer = .ok page → ready (doomed expired page) after) ghost)
    (deletes : ∀ rowids ghost, invariant ghost → ready rowids ghost →
      (delete rowids).Meets protocol observe (fun after _ => invariant after) ghost)
    (pages cursor deleted : Nat) (holds : invariant ghost) :
    (walk batch select expired delete pages cursor deleted).Meets protocol observe
      (fun after _ => invariant after) ghost := by
  induction pages generalizing cursor deleted ghost with
  | zero => exact holds
  | succ pages ih =>
    refine (selects cursor batch ghost holds).bind ?_
    rintro after answer ⟨still, prepared⟩
    cases answer with
    | error cause => exact still
    | ok page =>
      have flushes : (deleteIn delete (doomed expired page)).Meets protocol observe
          (fun after _ => invariant after) after := by
        unfold deleteIn
        split
        · exact still
        · exact deletes _ _ still (prepared page rfl)
      refine flushes.bind fun later flushed held => ?_
      cases flushed with
      | error cause => exact held
      | ok count =>
        change Meets protocol observe _ (if _ then _ else _) later
        split
        · exact held
        · exact ih _ _ held

end Tempogate.State
