/-
This file says how the stored keypairs may change, and shows that the statements of the SQLite store
retire them safely.
-/

import Tempogate.Construction.Keys.Keystore
import Tempogate.Proof.Keys.Signing

namespace Tempogate.Keys

open Foundation Oidc

/-- Rows stay, active rows may be retired, and an active row is left if there was one. -/
structure Keypairs.Evolves (before after : Keypairs) : Prop where
  keeps : ∀ row ∈ before.rows,
    row ∈ after.rows ∨ row.active ∧ ∃ moment, row.retire moment ∈ after.rows
  signs : (∃ row ∈ before.rows, row.active) → ∃ row ∈ after.rows, row.active

namespace Keypairs.Evolves

variable {before middle after : Keypairs} {row : Keypair}

theorem refl (table : Keypairs) : table.Evolves table :=
  ⟨fun _ member => .inl member, id⟩

/-- A retired row stays as it is. -/
theorem retired (evolves : before.Evolves after) (member : row ∈ before.rows)
    (isRetired : row.retired) : row ∈ after.rows := by
  rcases evolves.keeps row member with kept | ⟨isActive, -⟩
  · exact kept
  · simp [Keypair.active, isRetired] at isActive

theorem trans (first : before.Evolves middle) (second : middle.Evolves after) :
    before.Evolves after := by
  refine ⟨fun row member => ?_, fun active => second.signs (first.signs active)⟩
  rcases first.keeps row member with kept | ⟨isActive, moment, retired⟩
  · exact second.keeps row kept
  · exact .inr ⟨isActive, moment, second.retired retired rfl⟩

theorem of_subset (subset : before.rows ⊆ after.rows) : before.Evolves after :=
  ⟨fun _ member => .inl (subset member), fun ⟨row, member, active⟩ => ⟨row, subset member, active⟩⟩

/-- A retirement that leaves another active row is an evolution. -/
theorem of_retire {moment : Time} {selected : Keypair → Bool} {other : Keypair}
    (rows : after.rows = before.rows.map fun row =>
      if selected row then row.retire moment else row)
    (active : ∀ row ∈ before.rows, selected row → row.active)
    (present : other ∈ before.rows) (otherActive : other.active)
    (unselected : selected other = false) : before.Evolves after := by
  have kept : ∀ row ∈ before.rows, selected row = false → row ∈ after.rows := by
    intro row member isOther
    rw [rows]
    exact List.mem_map.mpr ⟨row, member, by rw [isOther]; rfl⟩
  refine ⟨fun row member => ?_, fun _ => ⟨other, kept other present unselected, otherActive⟩⟩
  cases isSelected : selected row with
  | true =>
    refine .inr ⟨active row member isSelected, moment, ?_⟩
    rw [rows]
    exact List.mem_map.mpr ⟨row, member, if_pos isSelected⟩
  | false => exact .inl (kept row member isSelected)

end Keypairs.Evolves

/-- An insert keeps every row. -/
theorem Keypairs.rows_insert_subset (keypair : Keypair) (table : Keypairs) :
    table.rows ⊆ ((table.insert keypair).getD table).rows := by
  cases inserted : table.insert keypair with
  | none => exact List.Subset.refl _
  | some after =>
    intro row member
    change row ∈ after.rows
    rw [(Table.rows_insert inserted).1]
    exact List.mem_append_left _ member

section Safe

variable {signature : Signature} {Store : Type} {world : World signature Store}
  {committed : Store → Keypairs} {start : Configuration signature Store KeystoreOutcome}

/-- The store keeps a signer and the first retirement of every keypair, and its answers to
retirements are true. -/
structure RetiresSafely (world : World signature Store) (committed : Store → Keypairs)
    (start : Configuration signature Store KeystoreOutcome) : Prop where
  signer : ∀ before after, Reaches world anyStep start before → Reaches world anyStep before after →
    (∃ row ∈ (committed before.store).rows, row.active) →
    ∃ row ∈ (committed after.store).rows, row.active
  firstRetirement : ∀ before after, Reaches world anyStep start before →
    Reaches world anyStep before after → ∀ row ∈ (committed before.store).rows, row.retired →
    row ∈ (committed after.store).rows
  retired : ∀ after process kid keypair, Reaches world anyStep start after →
    after.processes process = .done (.retired kid (.ok keypair)) →
    keypair.kid = kid ∧ keypair.retired ∧ keypair ∈ (committed after.store).rows
  refused : ∀ before event middle after kid error, Reaches world anyStep start before →
    Step world before event middle → Reaches world anyStep middle after →
    after.processes event.process = .done (.retired kid (.error error)) →
    error = .lastActiveKeypair kid ∨ error = .keypairNotFound kid →
    committed middle.store = committed before.store

/-- A store is safe when an invariant makes every step an evolution and marks the clients that
have changed the table for good. -/
theorem RetiresSafely.of_invariant
    (property : Configuration signature Store KeystoreOutcome → Prop) (base : property start)
    (step : ∀ before event after, property before → Step world before event after →
      property after ∧ (committed before.store).Evolves (committed after.store))
    (answered : ∀ current process kid keypair, property current →
      current.processes process = .done (.retired kid (.ok keypair)) →
      keypair.kid = kid ∧ keypair.retired ∧ keypair ∈ (committed current.store).rows)
    (changed : List (Event signature) → Nat → Prop)
    (marked : ∀ before event after, property before → Step world before event after →
      committed after.store = committed before.store ∨ changed after.log event.process)
    (stays : ∀ log event process, changed log process → changed (event :: log) process)
    (honest : ∀ current process kid error, property current → changed current.log process →
      current.processes process = .done (.retired kid (.error error)) →
      ¬ (error = .lastActiveKeypair kid ∨ error = .keypairNotFound kid)) :
    RetiresSafely world committed start := by
  have holds : ∀ {current}, Reaches world anyStep start current → property current :=
    fun reached => reached.invariant property base fun before event after _ holds _ move =>
      (step before event after holds move).1
  have evolves : ∀ {before after}, property before → Reaches world anyStep before after →
      property after ∧ (committed before.store).Evolves (committed after.store) := by
    intro before after start reached
    refine reached.invariant (fun current => property current ∧
      (committed before.store).Evolves (committed current.store)) ⟨start, .refl _⟩ ?_
    rintro current event later _ ⟨holds, sofar⟩ _ move
    obtain ⟨kept, next⟩ := step current event later holds move
    exact ⟨kept, sofar.trans next⟩
  have remembered : ∀ {before after : Configuration signature Store KeystoreOutcome} {process},
      changed before.log process → Reaches world anyStep before after →
      changed after.log process := by
    intro before after process mark reached
    refine reached.invariant (fun current => changed current.log process) mark ?_
    intro current event later _ holds _ move
    rw [move.log_eq]
    exact stays current.log event process holds
  refine ⟨?_, ?_, ?_, ?_⟩
  · intro before after reached onward
    exact (evolves (holds reached) onward).2.signs
  · intro before after reached onward row member isRetired
    exact (evolves (holds reached) onward).2.retired member isRetired
  · intro after process kid keypair reached
    exact answered after process kid keypair (holds reached)
  · intro before event middle after kid error reached move onward done refusal
    rcases marked before event middle (holds reached) move with same | mark
    · exact same
    · have final := (reached.tail trivial move).trans onward
      exact absurd refusal
        (honest after event.process kid error (holds final) (remembered mark onward) done)

end Safe

end Tempogate.Keys

namespace Tempogate.Sqlite.Keystore

open Foundation Oidc Keys Keypairs

/-- Every statement that takes effect is an evolution. -/
theorem execute_evolves (statement : KeypairStatement) (table : Keypairs) :
    table.Evolves (statement.execute table).2 := by
  cases statement with
  | insertKeypair keypair =>
    have evolves := Keypairs.Evolves.of_subset
      (rows_insert_subset { keypair with retiredAt := none } table)
    dsimp only [KeypairStatement.execute]
    cases inserted : table.insert { keypair with retiredAt := none } with
    | none => exact .refl table
    | some after =>
      rw [inserted] at evolves
      exact evolves
  | updateRetired kid moment =>
    by_cases some : ∃ row ∈ table.rows, retirable table kid row
    · obtain ⟨row, member, selected⟩ := some
      obtain ⟨-, -, other, present, different, active⟩ := retirable_iff.mp selected
      refine .of_retire rows_updateRetired
        (fun row _ isSelected => (retirable_iff.mp isSelected).2.1) present active ?_
      exact Bool.eq_false_iff.mpr fun isSelected => different (retirable_iff.mp isSelected).1
    · refine .of_subset fun row member => ?_
      change row ∈ (updateRetired kid moment table).rows
      rw [rows_updateRetired]
      exact List.mem_map.mpr ⟨row, member, if_neg fun selected => some ⟨row, member, selected⟩⟩
  | selectKeypair kid => exact .refl table

/-- These are the steps of a retirement. -/
inductive Visit
  | updated (kid : String) (changed : Nat)
  | read (kid : String) (row : Option Keypair)
  | other

def observe : Observer keypairStatements Visit
  | .updateRetired kid _, .ok changed => .updated kid changed
  | .selectKeypair kid, .ok row => .read kid row
  | _, _ => .other

/-- A passage says how far a retirement has come and what it was told. -/
inductive Passage
  | waiting
  | updated (kid : String) (changed : Nat)
  | read (changed : Nat) (row : Option Keypair)
  | past

namespace Passage

def advance : Passage → Visit → Passage
  | waiting, .updated kid changed => updated kid changed
  | updated _ changed, .read _ row => read changed row
  | _, _ => past

/-- The client may have changed the table. -/
def Changed : Passage → Prop
  | waiting => False
  | updated _ changed | read changed _ => 0 < changed
  | past => True

/-- The row that is read back has the kid, and it is retired if the update changed it. -/
def assumes : Passage → Visit → Prop
  | updated retiring changed, .read kid row => retiring = kid →
      (∀ keypair, row = some keypair → keypair.kid = kid) ∧
        (0 < changed → ∃ keypair, row = some keypair ∧ keypair.retired)
  | _, _ => True

/-- The table still has what the client was told. -/
def Holds (table : Keypairs) : Passage → Prop
  | updated kid changed => 0 < changed → table.Retired kid
  | read _ row => ∀ keypair, row = some keypair → keypair.retired → keypair ∈ table.rows
  | _ => True

/-- A client returns a retired keypair that it has read, and refuses only if it changed nothing. -/
def Answers (passage : Passage) : KeystoreOutcome → Prop
  | .retired kid (.ok keypair) =>
    keypair.kid = kid ∧ keypair.retired ∧ ∃ changed, passage = read changed (some keypair)
  | .retired kid (.error error) =>
    error = .lastActiveKeypair kid ∨ error = .keypairNotFound kid → ¬ passage.Changed
  | .saved _ => True

theorem Changed.advance {passage : Passage} (changed : passage.Changed) (visit : Visit) :
    (passage.advance visit).Changed := by
  cases passage with
  | waiting => exact changed.elim
  | updated kid count => cases visit <;> first | exact changed | trivial
  | read count row => cases visit <;> trivial
  | past => cases visit <;> trivial

theorem Holds.evolve {before after : Keypairs} {passage : Passage} (holds : passage.Holds before)
    (evolves : before.Evolves after) : passage.Holds after := by
  cases passage with
  | updated kid count =>
    intro changed
    obtain ⟨row, member, same, isRetired⟩ := holds changed
    exact ⟨row, evolves.retired member isRetired, same, isRetired⟩
  | read count row =>
    exact fun keypair known isRetired =>
      evolves.retired (holds keypair known isRetired) isRetired
  | _ => trivial

end Passage

def passages : Protocol Visit Passage where
  assumes := Passage.assumes
  permits _ _ := True
  advance := Passage.advance

/-- A failure is no refusal. -/
theorem failure_answers {passage : Passage} {kid message : String} :
    passage.Answers (.retired kid (.error (.failure message))) := by
  rintro (same | same) <;> cases same

/-- The answer is what the update and the row read back tell. -/
theorem retireAnswer_answers {kid : String} {changed : Nat} {row : Option Keypair}
    (named : ∀ keypair, row = some keypair → keypair.kid = kid)
    (retired : 0 < changed → ∃ keypair, row = some keypair ∧ keypair.retired) :
    Passage.Answers (.read changed row) (.retired kid (retireAnswer kid (changed > 0) row)) := by
  cases row with
  | none =>
    intro _ isChanged
    obtain ⟨keypair, same, -⟩ := retired isChanged
    cases same
  | some keypair =>
    by_cases refused : (!decide (changed > 0) && !keypair.retired) = true
    · rw [retireAnswer, if_pos refused]
      intro _ isChanged
      simp only [Bool.and_eq_true, Bool.not_eq_true', decide_eq_false_iff_not] at refused
      exact refused.1 isChanged
    · rw [retireAnswer, if_neg refused]
      refine ⟨named keypair rfl, ?_, changed, rfl⟩
      by_contra isActive
      refine refused ?_
      have unchanged : ¬ 0 < changed := by
        intro isChanged
        obtain ⟨stored, same, isRetired⟩ := retired isChanged
        cases same
        exact isActive isRetired
      simp [unchanged, Bool.eq_false_iff.mpr isActive]

theorem retireKeypair_answers (kid : String) (moment : Time) :
    (retireKeypair kid moment).Meets passages observe
      (fun passage result => passage.Answers (.retired kid result)) .waiting := by
  refine fun updated _ => ⟨trivial, ?_⟩
  cases updated with
  | error cause => exact failure_answers
  | ok changed =>
    refine fun selected assumed => ⟨trivial, ?_⟩
    cases selected with
    | error cause => exact failure_answers
    | ok row =>
      obtain ⟨named, retired⟩ := assumed rfl
      exact retireAnswer_answers named retired

theorem program_answers (task : KeystoreTask) :
    (program task).Meets passages observe (fun passage outcome => passage.Answers outcome)
      .waiting := by
  cases task with
  | saveKeypair keypair =>
    refine fun inserted _ => ⟨trivial, ?_⟩
    rcases inserted with cause | _ | _ <;> trivial
  | retireKeypair kid moment => exact (retireKeypair_answers kid moment).bind fun _ _ holds => holds

section Run

variable {table after : Keypairs} {statement : KeypairStatement}
  {answer : Except String statement.Reply} {passage : Passage}

variable (happens : KeypairHappens table statement answer after)

include happens

/-- Every step is an evolution. -/
theorem happens_evolves : table.Evolves after := by
  cases happens with
  | failed => exact .refl table
  | _ => exact execute_evolves statement table

/-- The rows that are read back are those of the table. -/
theorem happens_assumes (holds : passage.Holds table) :
    passages.assumes passage (observe statement answer) := by
  cases happens with
  | executed =>
    cases statement with
    | selectKeypair kid =>
      cases passage with
      | updated retiring changed =>
        rintro rfl
        refine ⟨fun keypair found => (selectKid_eq_some.mp found).2, fun isChanged => ?_⟩
        obtain ⟨row, member, same, isRetired⟩ := holds isChanged
        exact ⟨row, selectKid_eq_some.mpr ⟨member, same⟩, isRetired⟩
      | _ => trivial
    | _ => cases passage <;> trivial
  | failed => cases statement <;> cases passage <;> trivial
  | _ => cases statement <;> cases passage <;> trivial

/-- A client knows what it was told by its own step. -/
theorem happens_holds : (passage.advance (observe statement answer)).Holds after := by
  cases happens with
  | executed =>
    cases statement with
    | selectKeypair kid =>
      cases passage with
      | updated retiring changed =>
        exact fun keypair found _ => (selectKid_eq_some.mp found).1
      | _ => trivial
    | insertKeypair keypair => cases passage <;> trivial
    | updateRetired kid moment =>
      cases passage with
      | waiting =>
        intro changed
        obtain ⟨row, member, selected⟩ := List.countP_pos_iff.mp changed
        refine ⟨row.retire moment, ?_, (retirable_iff.mp selected).1, rfl⟩
        change row.retire moment ∈ (updateRetired kid moment table).rows
        rw [rows_updateRetired]
        exact List.mem_map.mpr ⟨row, member, if_pos selected⟩
      | _ => trivial
  | _ => cases statement <;> cases passage <;> trivial

/-- A client whose step changed the table is marked. -/
theorem happens_changed : after = table ∨ (passage.advance (observe statement answer)).Changed := by
  cases happens with
  | executed =>
    cases statement with
    | selectKeypair kid => exact .inl rfl
    | insertKeypair keypair => cases passage <;> exact .inr trivial
    | updateRetired kid moment =>
      cases passage with
      | waiting =>
        by_cases changed : 0 < table.rows.countP (retirable table kid)
        · exact .inr changed
        · have same : updateRetired kid moment table = table := by
            refine Table.update_eq_self fun row member => Bool.eq_false_iff.mpr ?_
            exact fun selected => changed (List.countP_pos_iff.mpr ⟨row, member, selected⟩)
          exact .inl same
      | _ => exact .inr trivial
  | failed => exact .inl rfl
  | unconfirmed => cases statement <;> cases passage <;> exact .inr trivial

end Run

variable (log : List (Event keypairStatements))

def passageOf (process : Nat) : Passage :=
  passages.ghost observe (fun _ => .waiting) log process

theorem passageOf_self (event : Event keypairStatements) (log : List (Event keypairStatements)) :
    passageOf (event :: log) event.process =
      (passageOf log event.process).advance (observe event.effect event.answer) :=
  Protocol.ghost_self _ _ _ _ _

theorem passageOf_of_ne {event : Event keypairStatements}
    {process : Nat} (other : event.process ≠ process) :
    passageOf (event :: log) process = passageOf log process :=
  Protocol.ghost_of_ne _ _ _ _ other

/-- Every client is on its passage and the table has what it was told. -/
structure Sound (current : Configuration keypairStatements Keypairs KeystoreOutcome) : Prop where
  holds : ∀ process, (passageOf current.log process).Holds current.store
  follows : current.Follows passages observe (fun passage outcome => passage.Answers outcome)
    fun _ => .waiting

theorem Sound.step {before after : Configuration keypairStatements Keypairs KeystoreOutcome}
    {event : Event keypairStatements} (sound : Sound before)
    (move : Step keypairWorld before event after) :
    Sound after ∧ before.store.Evolves after.store := by
  have happens : KeypairHappens before.store event.effect event.answer after.store := move.happens
  have evolves := happens_evolves happens
  obtain ⟨-, follows⟩ := sound.follows.step move
    (happens_assumes happens (sound.holds event.process))
  refine ⟨⟨fun process => ?_, follows⟩, evolves⟩
  rw [move.log_eq]
  by_cases mine : event.process = process
  · subst mine
    rw [passageOf_self]
    exact happens_holds happens
  · rw [passageOf_of_ne _ mine]
    exact (sound.holds process).evolve evolves

/-- The SQLite store retires keypairs safely. -/
theorem retires_safely (table : Keypairs) (tasks : Nat → KeystoreTask) :
    RetiresSafely keypairWorld id (clients table tasks) := by
  refine .of_invariant Sound ⟨fun _ => trivial, fun process => program_answers _⟩
    (fun before event after sound move => sound.step move) ?_
    (fun log process => (passageOf log process).Changed) ?_ ?_ ?_
  · intro current process kid keypair sound done
    have answers := sound.follows process
    rw [done] at answers
    obtain ⟨named, isRetired, changed, passage⟩ := answers
    have holds := sound.holds process
    rw [show passageOf current.log process = _ from passage] at holds
    exact ⟨named, isRetired, holds keypair rfl isRetired⟩
  · intro before event after sound move
    rw [move.log_eq, passageOf_self]
    exact happens_changed move.happens
  · intro log event process changed
    by_cases mine : event.process = process
    · subst mine
      rw [passageOf_self]
      exact changed.advance _
    · rwa [passageOf_of_ne _ mine]
  · intro current process kid error sound changed done refusal
    have answers := sound.follows process
    rw [done] at answers
    exact answers refusal changed

end Tempogate.Sqlite.Keystore
