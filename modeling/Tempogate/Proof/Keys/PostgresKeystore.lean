/-
This file shows that the transactions of the Postgres store retire keypairs safely.
-/

import Tempogate.Proof.Keys.SqliteKeystore

namespace Tempogate.Postgres.Keystore

open Foundation Oidc Keys Action KeypairWrite Server Keypairs List

/-- These are the steps of a transaction that the argument depends on. -/
inductive Visit
  | sees (visible : Keypairs)
  | locks (kid : String) (newest : Keypairs)
  | writes (write : KeypairWrite)
  | commits (confirmed : Bool)
  | rollsBack
  | other

def observe : Observer (server Keypairs KeypairWrite KeypairKey) Visit
  | .snapshot, .ok visible => .sees visible
  | .lock (.row kid) .exclusive, .ok newest => .locks kid newest
  | .claim _ _ write, .ok true => .writes write
  | .write write, _ => .writes write
  | .commit, .ok _ => .commits true
  | .commit, .error _ => .commits false
  | .rollback, _ => .rollsBack
  | _, _ => .other

/-- A passage knows the active rows that its transaction has locked, its write and the row that
it read last. It remembers whether it may have changed the table. -/
structure Passage where
  kid : String
  held : List String
  wrote : Option KeypairWrite
  changed : Bool
  seen : Option Keypair

namespace Passage

def start (kid : String) : Passage := ⟨kid, [], none, false, none⟩

variable (passage : Passage)

def advance : Visit → Passage
  | .sees visible => { passage with seen := visible.selectKid passage.kid }
  | .locks kid newest =>
    if isActive newest kid then { passage with held := kid :: passage.held } else passage
  | .writes write => { passage with wrote := some write, seen := none }
  | .commits confirmed =>
    { passage with
      held := [], wrote := none, changed := passage.changed || passage.wrote.isSome,
      seen := if confirmed then passage.seen else none }
  | .rollsBack => { passage with held := [], wrote := none, seen := none }
  | .other => passage

/-- A retirement writes once and under the locks of its row and of another active one. -/
def permits : Visit → Prop
  | .locks _ _ => passage.wrote = none
  | .writes (.insertKeypair _) => passage.wrote = none
  | .writes (.setRetired kid _) => passage.wrote = none ∧ kid = passage.kid ∧
      kid ∈ passage.held ∧ ∃ other ∈ passage.held, other ≠ kid
  | _ => True

/-- A transaction sees the rows that it has locked and its own retirement. -/
def assumes : Visit → Prop
  | .sees visible => (∀ kid ∈ passage.held, (visible.selectKid kid).isSome) ∧
      ∀ moment, passage.wrote = some (.setRetired passage.kid moment) →
        ∀ keypair, visible.selectKid passage.kid = some keypair → keypair.retired
  | .locks _ newest => ∀ kid ∈ passage.held, (newest.selectKid kid).isSome
  | _ => True

/-- A client returns a retired keypair that it has read, and refuses only if it changed nothing. -/
def Answers : KeystoreOutcome → Prop
  | .retired kid (.ok keypair) =>
    keypair.kid = kid ∧ keypair.retired ∧ passage.seen = some keypair ∧ passage.wrote = none
  | .retired kid (.error error) =>
    error = .lastActiveKeypair kid ∨ error = .keypairNotFound kid → passage.changed = false
  | .saved _ => True

/-- Reading and locking keep what the passage has and add locks. -/
structure Continues (before after : Passage) : Prop where
  kid : after.kid = before.kid
  wrote : after.wrote = before.wrote
  changed : after.changed = before.changed
  held : before.held ⊆ after.held

theorem Continues.refl : passage.Continues passage :=
  ⟨rfl, rfl, rfl, fun _ member => member⟩

theorem Continues.trans {before middle after : Passage} (first : before.Continues middle)
    (second : middle.Continues after) : before.Continues after :=
  ⟨second.kid.trans first.kid, second.wrote.trans first.wrote,
    second.changed.trans first.changed, List.Subset.trans first.held second.held⟩

theorem continues_sees (visible : Keypairs) : passage.Continues (passage.advance (.sees visible)) :=
  ⟨rfl, rfl, rfl, fun _ member => member⟩

theorem continues_locks (kid : String) (newest : Keypairs) :
    passage.Continues (passage.advance (.locks kid newest)) := by
  by_cases active : isActive newest kid = true
  · rw [advance, if_pos active]
    exact ⟨rfl, rfl, rfl, fun _ member => .tail _ member⟩
  · rw [advance, if_neg active]
    exact .refl passage

end Passage

def passages : Protocol Visit Passage where
  assumes := Passage.assumes
  permits := Passage.permits
  advance := .advance

section Programs

variable {passage : Passage}

/-- Every kept kid is locked and active. -/
theorem lockActive_held {candidates : List String} (unwritten : passage.wrote = none) :
    (lockActive candidates).Meets passages observe (fun after result => passage.Continues after ∧
      ∀ kids, result = .ok kids → kids ⊆ after.held ∧ kids.Sublist candidates) passage := by
  induction candidates generalizing passage with
  | nil =>
    refine ⟨.refl passage, ?_⟩
    rintro kids ⟨rfl⟩
    exact ⟨nil_subset _, .slnil⟩
  | cons kid rest ih =>
    rintro (cause | newest) _
    · exact ⟨trivial, .refl passage, nofun⟩
    · refine ⟨unwritten, ?_⟩
      have continues := passage.continues_locks kid newest
      refine (ih (continues.wrote.trans unwritten)).bind fun after result holds => ?_
      obtain ⟨onward, kept⟩ := holds
      rcases result with cause | kids
      · exact ⟨continues.trans onward, nofun⟩
      · obtain ⟨held, sublist⟩ := kept kids rfl
        refine ⟨continues.trans onward, ?_⟩
        rintro found ⟨rfl⟩
        by_cases active : isActive newest kid = true
        · rw [if_pos active]
          refine ⟨cons_subset.mpr ⟨onward.held ?_, held⟩, sublist.cons_cons kid⟩
          rw [Passage.advance, if_pos active]
          exact .head _
        · rw [if_neg active]
          exact ⟨held, sublist.cons kid⟩

theorem activeKids_nodup (table : Keypairs) : (activeKids table).Nodup := by
  refine (perm_insertionSort _ _).nodup_iff.mpr ?_
  exact table.distinct.sublist (filter_sublist.map _)

/-- The locking query returns distinct kids of locked active rows. -/
theorem selectActive_held (unwritten : passage.wrote = none) :
    selectActive.Meets passages observe (fun after result => passage.Continues after ∧
      ∀ kids, result = .ok kids → kids ⊆ after.held ∧ kids.Nodup) passage := by
  rintro (cause | visible) _
  · exact ⟨trivial, .refl passage, nofun⟩
  · refine ⟨trivial, ?_⟩
    have continues := passage.continues_sees visible
    refine (lockActive_held (continues.wrote.trans unwritten)).mono fun after result holds => ?_
    obtain ⟨onward, kept⟩ := holds
    refine ⟨continues.trans onward, fun kids found => ?_⟩
    obtain ⟨held, sublist⟩ := kept kids found
    exact ⟨held, (activeKids_nodup visible).sublist sublist⟩

/-- A transaction keeps to its passage when its body does, up to its commit or rollback. -/
theorem inTx_passes {Failure Result : Type} {other : String → Failure}
    {body : KeypairQuery (Except Failure Result)} {post : Passage → Except Failure Result → Prop}
    (stopped : ∀ cause, post passage (.error (other cause)))
    (runs : body.Meets passages observe (fun after outcome => match outcome with
      | .error failure => post (after.advance .rollsBack) (.error failure)
      | .ok result => post (after.advance (.commits true)) (.ok result) ∧
          ∀ cause, post (after.advance (.commits false)) (.error (other cause))) passage) :
    (inTx other body).Meets passages observe post passage := by
  rintro (cause | ⟨⟩) _
  · exact ⟨trivial, stopped _⟩
  · refine ⟨trivial, runs.bind fun after outcome holds => ?_⟩
    rcases outcome with failure | result
    · exact fun _ _ => ⟨trivial, holds⟩
    · rintro (cause | ⟨⟩) _
      · exact ⟨trivial, holds.2 _⟩
      · exact ⟨trivial, holds.1⟩

theorem notify_continues :
    notify.Meets passages observe (fun after _ => passage.Continues after) passage := by
  rintro (cause | visible) _
  · exact ⟨trivial, .refl passage⟩
  · exact ⟨trivial, passage.continues_sees visible⟩

variable (kid : String)

/-- The row that is read back is remembered, and it is retired if the transaction retired it. -/
def ReadBack (changed : Bool) (after : Passage) : Except KeyError (Bool × Keypair) → Prop
  | .error error => error = .keypairNotFound kid ∨ ∃ message, error = .failure message
  | .ok (told, keypair) => told = changed ∧ keypair.kid = kid ∧ after.seen = some keypair ∧
      (changed = true → keypair.retired) ∧ (changed = false → after.wrote = none)

/-- A transaction that was refused or that changed nothing leaves no change behind. -/
def Closes (after : Passage) : Except KeyError (Bool × Keypair) → Prop
  | .error error => (∃ message, error = .failure message) ∨ after.changed = false
  | .ok (changed, keypair) => keypair.kid = kid ∧ after.seen = some keypair ∧
      after.wrote = none ∧ (changed = true → keypair.retired) ∧
      (changed = false → after.changed = false)

/-- The row that is read back tells what the update did. -/
theorem readBack_reads (changed : Bool)
    (wrote : changed = true → ∃ moment, passage.wrote = some (.setRetired passage.kid moment))
    (unwritten : changed = false → passage.wrote = none) :
    (readBack passage.kid changed).Meets passages observe
      (fun after result => after.changed = passage.changed ∧
        ReadBack passage.kid changed after result) passage := by
  have reads : (select fun table => table.selectKid passage.kid).Meets passages observe
      (fun after answer => passage.Continues after ∧ ∀ keypair, answer = .ok (some keypair) →
        keypair.kid = passage.kid ∧ after.seen = some keypair ∧
          (changed = true → keypair.retired)) passage := by
    refine meets_select (fun cause _ => ⟨trivial, .refl passage, nofun⟩) fun visible assumed => ?_
    refine ⟨trivial, passage.continues_sees visible, fun keypair answered => ?_⟩
    have found := Except.ok.inj answered
    refine ⟨(selectKid_eq_some.mp found).2, found, fun isChanged => ?_⟩
    obtain ⟨moment, written⟩ := wrote isChanged
    exact assumed.2 moment written keypair found
  refine reads.bind fun after answer holds => ?_
  obtain ⟨continues, row⟩ := holds
  rcases answer with cause | _ | keypair
  · exact ⟨continues.changed, .inr ⟨_, rfl⟩⟩
  · exact ⟨continues.changed, .inl rfl⟩
  · obtain ⟨named, seen, isRetired⟩ := row keypair rfl
    exact ⟨continues.changed, rfl, named, seen, isRetired, fun isUnchanged =>
      continues.wrote.trans (unwritten isUnchanged)⟩

/-- A locked row is there to be retired. -/
theorem change_writes {moment : Time} (unwritten : passage.wrote = none)
    (held : passage.kid ∈ passage.held) (another : ∃ other ∈ passage.held, other ≠ passage.kid) :
    (change (.row passage.kid) (fun table => table.selectKid passage.kid)
      (.setRetired passage.kid moment) :
        KeypairQuery (Except String (Option Keypair))).Meets passages observe
      (fun after result => after.kid = passage.kid ∧ after.changed = passage.changed ∧
        ∀ row, result = .ok row → after.wrote = some (.setRetired passage.kid moment))
      passage := by
  refine meets_change (meets_selectLocking (fun cause _ => ⟨trivial, rfl, rfl, nofun⟩) ?_ ?_)
  · intro visible found assumed
    have present := assumed.1 passage.kid held
    rw [found] at present
    cases present
  · intro visible row found _
    refine ⟨trivial, ?_⟩
    have sees := passage.continues_sees visible
    refine meets_lock (fun cause _ => ⟨trivial, rfl, rfl, nofun⟩) fun newest assumed => ?_
    refine ⟨unwritten, ?_⟩
    have locks := sees.trans (Passage.continues_locks _ passage.kid newest)
    obtain ⟨row, locked⟩ := Option.isSome_iff_exists.mp (assumed passage.kid held)
    have same : (Except.ok newest : Except String Keypairs).map
        (fun table => table.selectKid passage.kid) = .ok (some row) := congrArg Except.ok locked
    rw [same]
    obtain ⟨other, present, different⟩ := another
    exact fun _ _ => ⟨⟨locks.wrote.trans unwritten, locks.kid.symm, locks.held held, other,
      locks.held present, different⟩, locks.kid, locks.changed, fun _ _ => rfl⟩

/-- The body writes only under its locks and reads the row back. -/
theorem retireBody_reads (moment : Time) : (retireBody kid moment).Meets passages observe
      (fun after result => after.changed = false ∧ ∃ changed, ReadBack kid changed after result)
      (.start kid) := by
  refine (selectActive_held rfl).bind fun locked result holds => ?_
  obtain ⟨continues, kept⟩ := holds
  have unwritten : locked.wrote = none := continues.wrote
  have unchanged : locked.changed = false := continues.changed
  obtain rfl : locked.kid = kid := continues.kid
  rcases result with cause | active
  · exact ⟨unchanged, true, .inr ⟨_, rfl⟩⟩
  · obtain ⟨inHeld, distinct⟩ := kept active rfl
    dsimp only
    split
    next several =>
      obtain ⟨other, present, different⟩ := exists_ne_of_nodup distinct several.1 locked.kid
      refine (change_writes unwritten (inHeld several.2)
        ⟨other, inHeld present, different⟩).bind fun stamped result holds => ?_
      obtain ⟨sameKid, same, wrote⟩ := holds
      rcases result with cause | row
      · exact ⟨same.trans unchanged, true, .inr ⟨_, rfl⟩⟩
      · refine notify_continues.bind fun notified result onward => ?_
        have still : notified.changed = false := onward.changed.trans (same.trans unchanged)
        rcases result with cause | _
        · exact ⟨still, true, .inr ⟨_, rfl⟩⟩
        · have named : notified.kid = locked.kid := onward.kid.trans sameKid
          have written := onward.wrote.trans (wrote row rfl)
          rw [← named] at written ⊢
          refine (readBack_reads true (fun _ => ⟨moment, written⟩) nofun).mono
            fun after result reads => ?_
          exact ⟨reads.1.trans still, true, reads.2⟩
    · refine (readBack_reads false nofun fun _ => unwritten).mono fun after result reads => ?_
      exact ⟨reads.1.trans unchanged, false, reads.2⟩

/-- A retirement answers what its passage saw. -/
theorem retireKeypair_answers (moment : Time) : (retireKeypair kid moment).Meets passages observe
      (fun passage result => passage.Answers (.retired kid result)) (.start kid) := by
  have closes : (inTx retireFailure (retireBody kid moment)).Meets passages observe
      (Closes kid) (.start kid) := by
    refine inTx_passes (fun cause => .inl ⟨_, rfl⟩) ((retireBody_reads kid moment).mono ?_)
    rintro after (error | ⟨told, keypair⟩) ⟨unchanged, changed, reads⟩
    · exact .inr unchanged
    · obtain ⟨rfl, named, seen, isRetired, unwritten⟩ := reads
      refine ⟨⟨named, seen, rfl, isRetired, fun isUnchanged => ?_⟩, fun cause => .inl ⟨_, rfl⟩⟩
      change (after.changed || after.wrote.isSome) = false
      rw [unchanged, unwritten isUnchanged]
      rfl
  refine closes.bind fun passage result holds => ?_
  rcases result with error | ⟨changed, keypair⟩
  · rintro refusal
    rcases holds with ⟨message, rfl⟩ | unchanged
    · rcases refusal with same | same <;> cases same
    · exact unchanged
  · obtain ⟨named, seen, unwritten, isRetired, unchanged⟩ := holds
    change passage.Answers (.retired kid (retireAnswer kid changed (some keypair)))
    by_cases refused : (!changed && !keypair.retired) = true
    · rw [retireAnswer, if_pos refused]
      simp only [Bool.and_eq_true, Bool.not_eq_true'] at refused
      exact fun _ => unchanged refused.1
    · rw [retireAnswer, if_neg refused]
      refine ⟨named, ?_, seen, unwritten⟩
      cases changed with
      | true => exact isRetired rfl
      | false => simpa using refused

theorem saveKeypair_answers (keypair : Keypair) :
    (saveKeypair keypair).Meets passages observe (fun _ _ => True) (.start keypair.kid) := by
  refine inTx_passes (fun _ => trivial) ?_
  rintro (cause | _ | _) _
  · exact ⟨trivial, trivial⟩
  · exact ⟨trivial, trivial⟩
  · refine ⟨rfl, notify_continues.bind fun after result _ => ?_⟩
    rcases result with cause | _
    · trivial
    · exact ⟨trivial, fun _ => trivial⟩

def kidOf : KeystoreTask → String
  | .saveKeypair keypair => keypair.kid
  | .retireKeypair kid _ => kid

theorem program_answers (task : KeystoreTask) :
    (program task).Meets passages observe (fun passage outcome => passage.Answers outcome)
      (.start (kidOf task)) := by
  cases task with
  | saveKeypair keypair => exact (saveKeypair_answers keypair).bind fun _ _ _ => trivial
  | retireKeypair kid moment =>
    exact (retireKeypair_answers kid moment).bind fun _ _ holds => holds

end Programs

/-- The server holds what the passage of a process relies on. -/
structure Orderly (state : KeypairServer) (process : Nat) (passage : Passage) : Prop where
  writes : (state.sessions process).writes = passage.wrote.toList
  held : ∀ kid ∈ passage.held,
    state.Holds process (.row kid) .exclusive ∧ state.committed.Active kid
  stamps : ∀ kid moment, passage.wrote = some (.setRetired kid moment) →
    kid = passage.kid ∧ kid ∈ passage.held ∧ ∃ other ∈ passage.held, other ≠ kid
  seen : ∀ keypair, passage.seen = some keypair → keypair.retired →
    keypair ∈ (state.view apply process).rows

section Orderly

variable {state after : KeypairServer} {process other : Nat} {passage : Passage}

theorem Orderly.view_eq (orderly : Orderly state process passage) : state.view apply process =
      passage.wrote.elim state.committed fun write => write.apply state.committed := by
  rw [view, orderly.writes]
  cases passage.wrote <;> rfl

/-- The row of an active kid is active. -/
theorem active_of_kid {table : Keypairs} {row : Keypair} (active : table.Active row.kid)
    (member : row ∈ table.rows) : row.active := by
  obtain ⟨stored, present, same, isActive⟩ := active
  rwa [table.eq_of_key_eq member present same.symm]

theorem rows_setRetired (kid : String) (moment : Time) (table : Keypairs) :
    ((setRetired kid moment).apply table).rows = table.rows.map fun row =>
      if row.kid = kid then row.retire moment else row := by
  refine (Table.rows_update _ _ _ _).trans (map_congr_left fun row _ => ?_)
  simp

section

variable (orderly : Orderly state process passage)

include orderly

/-- What a transaction publishes is an evolution. -/
theorem Orderly.evolves : state.committed.Evolves (state.view apply process) := by
  rw [orderly.view_eq]
  cases wrote : passage.wrote with
  | none => exact .refl _
  | some write =>
    cases write with
    | insertKeypair keypair => exact .of_subset (rows_insert_subset _ _)
    | setRetired kid moment =>
      obtain ⟨-, held, another, anotherHeld, different⟩ := orderly.stamps kid moment wrote
      obtain ⟨row, member, rfl, isActive⟩ := (orderly.held another anotherHeld).2
      have rows := Table.rows_update state.committed (fun row => decide (row.kid = kid))
        (Keypair.retire moment) fun _ => rfl
      refine .of_retire rows (fun chosen present selected => ?_) member isActive
        (decide_eq_false different)
      obtain rfl : chosen.kid = kid := of_decide_eq_true selected
      exact active_of_kid (orderly.held _ held).2 present

/-- What a transaction publishes leaves the rows that another one holds. -/
theorem Orderly.leaves (exclusion : state.Exclusion)
    (distinct : process ≠ other) {row : Keypair} (member : row ∈ state.committed.rows)
    (held : state.Holds other (.row row.kid) .exclusive) :
    row ∈ (state.view apply process).rows := by
  rw [orderly.view_eq]
  cases wrote : passage.wrote with
  | none => exact member
  | some write =>
    cases write with
    | insertKeypair keypair => exact rows_insert_subset _ _ member
    | setRetired kid moment =>
      change row ∈ ((setRetired kid moment).apply state.committed).rows
      rw [rows_setRetired]
      refine mem_map.mpr ⟨row, member, if_neg ?_⟩
      rintro rfl
      have mine := (orderly.held _ (orderly.stamps _ moment wrote).2.1).1
      have clash := exclusion process other _ _ _ distinct mine held
      cases clash

theorem Orderly.take (key : KeypairKey)
    (mode : LockMode) : Orderly (state.take process key mode) process passage := by
  refine ⟨?_, fun kid member => ⟨?_, (orderly.held kid member).2⟩, orderly.stamps, ?_⟩
  · rw [take_self]
    exact orderly.writes
  · rw [Server.Holds, take_self]
    exact .tail _ (orderly.held kid member).1
  · rw [view_take]
    exact orderly.seen

/-- An active row that is locked now is held. -/
theorem Orderly.lock {kid : String} (unwritten : passage.wrote = none) :
    Orderly (state.take process (.row kid) .exclusive) process
      (passage.advance (.locks kid (state.view apply process))) := by
  have taken := orderly.take (.row kid) .exclusive
  by_cases active : isActive (state.view apply process) kid = true
  · rw [Passage.advance, if_pos active]
    rw [orderly.view_eq, unwritten] at active
    obtain ⟨row, member, selected⟩ := any_eq_true.mp active
    rw [Bool.and_eq_true, decide_eq_true_eq] at selected
    refine ⟨taken.writes, forall_mem_cons.mpr ⟨⟨?_, row, member, selected⟩, taken.held⟩,
      fun target moment wrote => ?_, taken.seen⟩
    · rw [Server.Holds, take_self]
      exact .head _
    · rw [show passage.wrote = some (.setRetired target moment) from wrote] at unwritten
      cases unwritten
  · rw [Passage.advance, if_neg active]
    exact taken

/-- The only write of a transaction is recorded. -/
theorem Orderly.record {write : KeypairWrite} (permitted : passage.permits (.writes write)) :
    Orderly (state.record process write) process (passage.advance (.writes write)) := by
  have unwritten : passage.wrote = none := by
    cases write with
    | insertKeypair keypair => exact permitted
    | setRetired kid moment => exact permitted.1
  refine ⟨?_, fun kid member => ⟨?_, (orderly.held kid member).2⟩, ?_, nofun⟩
  · rw [record_self]
    rw [orderly.writes, unwritten]
    rfl
  · rw [Server.Holds, record_self]
    exact (orderly.held kid member).1
  · rintro kid moment ⟨rfl⟩
    exact permitted.2

end

/-- A transaction that has ended holds and writes nothing. -/
theorem Orderly.ended {kid : String} {changed : Bool}
    (idle : (state.sessions process).writes = []) {seen : Option Keypair}
    (sees : ∀ keypair, seen = some keypair → keypair.retired →
      keypair ∈ (state.view apply process).rows) :
    Orderly state process ⟨kid, [], none, changed, seen⟩ :=
  ⟨idle, nofun, nofun, sees⟩

variable {effect : ServerEffect Keypairs KeypairWrite KeypairKey} {answer : effect.Answer}

/-- A step of its own moves a process along its passage. -/
theorem Orderly.own (orderly : Orderly state process passage)
    (served : Serves apply state process effect answer after)
    (permitted : passage.permits (observe effect answer)) :
    Orderly after process (passage.advance (observe effect answer)) := by
  have published : ((state.publish apply process).sessions process).writes = [] := by
    rw [publish_self]
    rfl
  have discarded : ((state.discard process).sessions process).writes = [] := by
    rw [discard_self]
    rfl
  cases served with
  | snapshot =>
    exact ⟨orderly.writes, orderly.held, orderly.stamps,
      fun keypair found _ => (selectKid_eq_some.mp found).1⟩
  | @lock key mode granted =>
    cases key with
    | index kid => exact orderly.take _ _
    | row kid =>
      cases mode with
      | share => exact orderly.take _ _
      | exclusive => exact orderly.lock permitted
  | @lockFailed key mode cause =>
    cases key with
    | index kid => exact orderly
    | row kid => cases mode <;> exact orderly
  | claimed granted isFree => exact (orderly.take _ _).record permitted
  | write => exact orderly.record permitted
  | commit =>
    refine .ended published fun keypair found isRetired => ?_
    rw [view_publish]
    exact orderly.seen keypair found isRetired
  | commitFailed cause => exact .ended discarded nofun
  | commitUnconfirmed cause => exact .ended published nofun
  | rollback => exact .ended discarded nofun
  | _ => exact orderly

/-- A retired row that is seen stays so while the table evolves and keeps the row that is about to
be retired. -/
theorem mem_view_of_evolves {before after : Keypairs} {wrote : Option KeypairWrite}
    (evolves : before.Evolves after)
    (held : ∀ kid moment, wrote = some (.setRetired kid moment) →
      ∀ row ∈ before.rows, row.kid = kid → row ∈ after.rows)
    {keypair : Keypair} (isRetired : keypair.retired)
    (member : keypair ∈ (wrote.elim before fun write => write.apply before).rows) :
    keypair ∈ (wrote.elim after fun write => write.apply after).rows := by
  rcases wrote with _ | ⟨inserted⟩ | ⟨kid, moment⟩
  · exact evolves.retired member isRetired
  · refine rows_insert_subset _ _ (evolves.retired ?_ isRetired)
    -- The inserted row is active, so the retired one was stored before.
    change keypair ∈
      ((before.insert { inserted with retiredAt := none }).getD before).rows at member
    cases added : before.insert { inserted with retiredAt := none } with
    | none =>
      rw [added] at member
      exact member
    | some table =>
      rw [added, Option.getD_some, (Table.rows_insert added).1, mem_append,
        mem_singleton] at member
      rcases member with old | rfl
      · exact old
      · cases isRetired
  · change keypair ∈ ((setRetired kid moment).apply before).rows at member
    change keypair ∈ ((setRetired kid moment).apply after).rows
    rw [rows_setRetired] at member ⊢
    obtain ⟨row, present, changed⟩ := mem_map.mp member
    refine mem_map.mpr ⟨row, ?_, changed⟩
    by_cases same : row.kid = kid
    · exact held kid moment rfl row present same
    · rw [if_neg same] at changed
      rw [changed] at present ⊢
      exact evolves.retired present isRetired

/-- The step of another process keeps a process on its passage. -/
theorem Orderly.other_step {acting : Passage} (orderly : Orderly state other passage)
    (actor : Orderly state process acting) (exclusion : state.Exclusion)
    (distinct : other ≠ process)
    (served : Serves apply state process effect answer after) :
    Orderly after other passage := by
  have sessions := served.sessions_of_ne distinct
  have evolves : state.committed.Evolves after.committed := by
    rcases served.committed_cases with same | ⟨-, published⟩
    · rw [same]
      exact .refl _
    · rw [published]
      exact actor.evolves
  have leaves : ∀ row ∈ state.committed.rows, row.kid ∈ passage.held →
      row ∈ after.committed.rows := by
    intro row member held
    rcases served.committed_cases with same | ⟨-, published⟩
    · rwa [same]
    · rw [published]
      exact actor.leaves exclusion (Ne.symm distinct) member (orderly.held _ held).1
  have writes : (after.sessions other).writes = passage.wrote.toList := by
    rw [sessions]
    exact orderly.writes
  refine ⟨writes, fun kid member => ⟨?_, ?_⟩, orderly.stamps, fun keypair found isRetired => ?_⟩
  · rw [Server.Holds, sessions]
    exact (orderly.held kid member).1
  · obtain ⟨row, present, rfl, isActive⟩ := (orderly.held kid member).2
    exact ⟨row, leaves row present member, rfl, isActive⟩
  · have seen := orderly.seen keypair found isRetired
    rw [orderly.view_eq] at seen
    have view : after.view apply other =
        passage.wrote.elim after.committed fun write => write.apply after.committed := by
      rw [view, writes]
      cases passage.wrote <;> rfl
    rw [view]
    refine mem_view_of_evolves evolves (fun kid moment wrote row present same => ?_) isRetired seen
    refine leaves row present ?_
    rw [same]
    exact (orderly.stamps kid moment wrote).2.1

/-- The server answers as the passage assumes. -/
theorem Orderly.assumes (orderly : Orderly state process passage)
    (served : Serves apply state process effect answer after) :
    passages.assumes passage (observe effect answer) := by
  have visible : ∀ kid ∈ passage.held, ((state.view apply process).selectKid kid).isSome := by
    intro kid member
    obtain ⟨row, present, rfl, -⟩ := (orderly.held kid member).2
    rcases orderly.evolves.keeps row present with kept | ⟨-, moment, retired⟩
    · exact Option.isSome_iff_exists.mpr ⟨row, selectKid_eq_some.mpr ⟨kept, rfl⟩⟩
    · exact Option.isSome_iff_exists.mpr ⟨_, selectKid_eq_some.mpr ⟨retired, rfl⟩⟩
  cases served with
  | snapshot =>
    refine ⟨visible, fun moment wrote keypair found => ?_⟩
    obtain ⟨member, named⟩ := selectKid_eq_some.mp found
    rw [orderly.view_eq, wrote] at member
    change keypair ∈ ((setRetired passage.kid moment).apply state.committed).rows at member
    rw [rows_setRetired] at member
    obtain ⟨row, -, changed⟩ := mem_map.mp member
    by_cases same : row.kid = passage.kid
    · rw [if_pos same] at changed
      rw [← changed]
      rfl
    · rw [if_neg same] at changed
      rw [changed] at same
      exact absurd named same
  | @lock key mode granted =>
    cases key with
    | index kid => trivial
    | row kid =>
      cases mode with
      | share => trivial
      | exclusive => exact visible
  | @lockFailed key mode cause =>
    cases key with
    | index kid => trivial
    | row kid => cases mode <;> trivial
  | _ => trivial

end Orderly

section Run

variable (tasks : Nat → KeystoreTask)

variable (log : List (Event (server Keypairs KeypairWrite KeypairKey)))

def passageOf (process : Nat) : Passage :=
  passages.ghost observe (fun process => .start (kidOf (tasks process))) log process

theorem passageOf_self (event : Event (server Keypairs KeypairWrite KeypairKey))
    (log : List (Event (server Keypairs KeypairWrite KeypairKey))) :
    passageOf tasks (event :: log) event.process =
      (passageOf tasks log event.process).advance (observe event.effect event.answer) :=
  Protocol.ghost_self _ _ _ _ _

theorem passageOf_of_ne {event : Event (server Keypairs KeypairWrite KeypairKey)} {process : Nat}
    (other : event.process ≠ process) :
    passageOf tasks (event :: log) process = passageOf tasks log process :=
  Protocol.ghost_of_ne _ _ _ _ other

/-- Locks exclude each other and every client is on its passage. -/
structure Sound (current : Configuration (server Keypairs KeypairWrite KeypairKey) KeypairServer
    KeystoreOutcome) : Prop where
  exclusion : current.store.Exclusion
  orderly : ∀ process, Orderly current.store process (passageOf tasks current.log process)
  follows : current.Follows passages observe (fun passage outcome => passage.Answers outcome)
    fun process => .start (kidOf (tasks process))

variable {tasks} {before after : Configuration (server Keypairs KeypairWrite KeypairKey)
  KeypairServer KeystoreOutcome} {event : Event (server Keypairs KeypairWrite KeypairKey)}

theorem Sound.step (sound : Sound tasks before) (move : Step keypairWorld before event after) :
    Sound tasks after ∧ before.store.committed.Evolves after.store.committed := by
  have served : Serves apply before.store event.process event.effect event.answer
      after.store := move.happens
  have actor := sound.orderly event.process
  obtain ⟨permitted, follows⟩ := sound.follows.step move (actor.assumes served)
  refine ⟨⟨served.exclusion sound.exclusion, fun process => ?_, follows⟩, ?_⟩
  · rw [move.log_eq]
    by_cases mine : event.process = process
    · subst mine
      rw [passageOf_self]
      exact actor.own served permitted
    · rw [passageOf_of_ne tasks _ mine]
      exact (sound.orderly process).other_step actor sound.exclusion (Ne.symm mine) served
  · rcases served.committed_cases with same | ⟨-, published⟩
    · rw [same]
      exact .refl _
    · rw [published]
      exact actor.evolves

/-- A client whose step changed the table is marked. -/
theorem Sound.changed (sound : Sound tasks before) (move : Step keypairWorld before event after) :
    after.store.committed = before.store.committed ∨
      (passageOf tasks after.log event.process).changed = true := by
  have served : Serves apply before.store event.process event.effect event.answer
      after.store := move.happens
  rw [move.log_eq, passageOf_self]
  rcases served.committed_cases with same | ⟨commits, published⟩
  · exact .inl same
  · rw [published, (sound.orderly event.process).view_eq]
    cases wrote : (passageOf tasks before.log event.process).wrote with
    | none => exact .inl rfl
    | some write =>
      obtain ⟨process, effect, answer⟩ := event
      obtain rfl : effect = .commit := commits
      refine .inr ?_
      cases answer <;> simp [observe, Passage.advance, wrote]

end Run

/-- The mark of a client that changed the table stays. -/
theorem Passage.changed_advance {passage : Passage} (changed : passage.changed = true)
    (visit : Visit) : (passage.advance visit).changed = true := by
  cases visit with
  | commits confirmed => simp [Passage.advance, changed]
  | locks kid newest => rw [(passage.continues_locks kid newest).changed, changed]
  | _ => exact changed

/-- The Postgres store retires keypairs safely. -/
theorem retires_safely (table : Keypairs) (tasks : Nat → KeystoreTask) :
    RetiresSafely keypairWorld Server.committed (clients table tasks) := by
  have initially : Sound tasks (clients table tasks) :=
    ⟨Server.Exclusion.quiet table, fun _ => ⟨rfl, nofun, nofun, nofun⟩,
      fun process => program_answers _⟩
  refine .of_invariant (Sound tasks) initially
    (fun before event after sound move => sound.step move) ?_
    (fun log process => (passageOf tasks log process).changed = true)
    (fun before event after sound move => sound.changed move) ?_ ?_
  · intro current process kid keypair sound done
    have answers := sound.follows process
    rw [done] at answers
    obtain ⟨named, isRetired, seen, unwritten⟩ := answers
    have orderly := sound.orderly process
    have member := orderly.seen keypair seen isRetired
    rw [orderly.view_eq, show (passageOf tasks current.log process).wrote = none from unwritten]
      at member
    exact ⟨named, isRetired, member⟩
  · intro log event process changed
    by_cases mine : event.process = process
    · subst mine
      rw [passageOf_self]
      exact Passage.changed_advance changed _
    · rwa [passageOf_of_ne tasks _ mine]
  · intro current process kid error sound changed done refusal
    have answers := sound.follows process
    rw [done] at answers
    have unchanged := answers refusal
    rw [show (passageOf tasks current.log process).changed = false from unchanged] at changed
    cases changed

end Tempogate.Postgres.Keystore

namespace Tempogate.Keys

open Foundation Postgres.Keystore Sqlite.Keystore List

/-- From every table and for all clients that save and retire keypairs, both stores keep a signer
and the first retirement of every keypair, and their answers to retirements are true. -/
theorem store_keeps_signing_key (table : Keypairs) (tasks : Nat → KeystoreTask) :
    RetiresSafely Sqlite.keypairWorld id (clients table tasks) ∧
      RetiresSafely Postgres.keypairWorld Server.committed
        (clients table tasks) :=
  ⟨retires_safely table tasks, retires_safely table tasks⟩

end Tempogate.Keys
