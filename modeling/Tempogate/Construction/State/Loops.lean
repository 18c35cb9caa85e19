/-
This file defines the loops of the reapers over the statements of any store.
-/

import Tempogate.Construction.Oidc.Types
import Tempogate.Foundation.Program

namespace Tempogate.State

open Foundation Oidc

variable {statements : Signature} (batch : Nat)

/-- Postgres runs a statement until it deletes fewer rows than a batch. -/
def batches (delete : Program statements (Except String Nat)) :
    Nat → Nat → Program statements (Nat × Option String)
  | 0, deleted => return (deleted, some "too many batches")
  | rounds + 1, deleted => do
      match ← delete with
      | .error cause => return (deleted, some cause)
      | .ok count =>
      if count < batch then
        return (deleted + count, none)
      batches delete rounds (deleted + count)

/-- The rowids of the rows of a page that are judged expired. -/
def doomed (expired : Time → Bool) (page : List (Nat × Time)) : List Nat :=
  (page.filter fun row => expired row.2).map Prod.fst

/-- No statement runs when nothing is to be deleted. -/
def deleteIn (delete : List Nat → Program statements (Except String Nat)) (rowids : List Nat) :
    Program statements (Except String Nat) :=
  if rowids = [] then return .ok 0 else delete rowids

/-- SQLite reads a page, deletes its expired rows by rowid and reads the next page. -/
def walk (select : Nat → Nat → Program statements (Except String (List (Nat × Time))))
    (expired : Time → Bool) (delete : List Nat → Program statements (Except String Nat)) :
    Nat → Nat → Nat → Program statements (Nat × Option String)
  | 0, _, deleted => return (deleted, some "too many pages")
  | pages + 1, cursor, deleted => do
      match ← select cursor batch with
      | .error cause => return (deleted, some cause)
      | .ok page =>
      match ← deleteIn delete (doomed expired page) with
      | .error cause => return (deleted, some cause)
      | .ok count =>
      if page.length < batch then
        return (deleted + count, none)
      walk select expired delete pages ((page.getLast?.map Prod.fst).getD cursor) (deleted + count)

end Tempogate.State
