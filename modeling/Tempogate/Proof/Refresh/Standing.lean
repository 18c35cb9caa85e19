/-
This file defines what one step shows about the refresh families, and the protocol by which a
request enters one family and saves into it.
-/

import Tempogate.Foundation.Protocol
import Tempogate.Proof.Refresh.Ledger

namespace Tempogate.State

open Oidc

variable {maxLifetime expiresAt moment : Time}

/-- This is what a refresh token inherits from the sign-in that started its family. -/
structure Origin where
  clientID : String
  connectorID : String
  subject : String
  email : String
  familyID : String
  authTime : Time
  deriving DecidableEq, Repr

def RefreshRow.origin (row : RefreshRow) : Origin :=
  ⟨row.clientID, row.connectorID, row.subject, row.email, row.familyID, row.authTime⟩

theorem RefreshRow.familyID_eq_of_origin {first second : RefreshRow}
    (same : first.origin = second.origin) : first.familyID = second.familyID :=
  congrArg Origin.familyID same

namespace RefreshRow.Evolves

variable {before after : RefreshRow}

theorem origin_eq (evolves : before.Evolves after) : after.origin = before.origin := by
  rw [evolves.fields]
  rfl

theorem expiresAt_eq (evolves : before.Evolves after) : after.expiresAt = before.expiresAt := by
  rw [evolves.fields]

end RefreshRow.Evolves

/-- A deed is the part of a step that matters to the refresh families. -/
inductive Deed
  | quiet
  | read (moment : Time)
  | drew (familyID : String)
  | took (origin : Origin) (expiresAt moment : Time)
  | saved (origin : Origin) (expiresAt : Time)
  | purged (families : List String)
  deriving DecidableEq

/-- A draw and a taken token name their family. -/
def Deed.familyID : Deed → String
  | drew familyID => familyID
  | took origin _ _ => origin.familyID
  | _ => ""

/-- Each row has a later version, and each later row is one. -/
structure Evolution (rows later : List RefreshRow) : Prop where
  forward : ∀ row ∈ rows, ∃ next ∈ later, row.Evolves next
  backward : ∀ next ∈ later, ∃ row ∈ rows, row.Evolves next

theorem Evolution.refl (rows : List RefreshRow) : Evolution rows rows where
  forward row present := ⟨row, present, .refl row⟩
  backward row present := ⟨row, present, .refl row⟩

/-- A ledger change without an insert and without a delete is an evolution. -/
theorem LedgerAction.evolution {action : LedgerAction} {rows : List RefreshRow}
    (inserts : ∀ row, action ≠ .append row) (deletes : ∀ familyID, action.Keeps familyID) :
    Evolution rows (action.apply rows) where
  forward _ present := exists_evolves present (deletes _)
  backward _ present := (exists_of_mem_apply present).resolve_left (inserts _)

/-- This relation says what a step with each deed does to the rows. -/
inductive Moves (rows : List RefreshRow) : Deed → List RefreshRow → Prop
  | quiet {later : List RefreshRow} (evolution : Evolution rows later) : Moves rows .quiet later
  | read (moment : Time) : Moves rows (.read moment) rows
  | drew (familyID : String) : Moves rows (.drew familyID) rows
  | took {later : List RefreshRow} {found : RefreshRow} (moment : Time) (present : found ∈ rows)
      (live : found.live) (evolution : Evolution rows later)
      (spent : ∀ next ∈ later, next.live → next ∈ rows ∧ next ≠ found) :
      Moves rows (.took found.origin found.expiresAt moment) later
  | saved {row : RefreshRow} (live : row.live)
      (unrevoked : ∀ stored ∈ rows, stored.familyID = row.familyID → stored.revokedAt = none) :
      Moves rows (.saved row.origin row.expiresAt) (rows ++ [row])
  | purged (families : List String) :
      Moves rows (.purged families) (rows.filter fun row => row.familyID ∉ families)

namespace Moves

variable {rows later : List RefreshRow} {deed : Deed} {familyID : String}

section

variable (moves : Moves rows deed later)

include moves

/-- Every row after a step was saved by it or is a later version of an earlier row. -/
theorem exists_of_mem {next : RefreshRow} (present : next ∈ later) :
    (deed = .saved next.origin next.expiresAt ∧ next.live ∧
        ∀ stored ∈ rows, stored.familyID = next.familyID → stored.revokedAt = none) ∨
      ∃ row ∈ rows, row.Evolves next := by
  cases moves with
  | quiet evolution => exact .inr (evolution.backward next present)
  | took moment found live evolution spent => exact .inr (evolution.backward next present)
  | saved live unrevoked =>
    rcases List.mem_append.mp present with old | added
    · exact .inr ⟨next, old, .refl next⟩
    · rw [List.mem_singleton] at added
      subst added
      exact .inl ⟨rfl, live, unrevoked⟩
  | purged families => exact .inr ⟨next, (List.mem_filter.mp present).1, .refl next⟩
  | _ => exact .inr ⟨next, present, .refl next⟩

/-- A row outside the purged families has a later version. -/
theorem exists_evolves {row : RefreshRow} (present : row ∈ rows)
    (kept : ∀ families, deed = .purged families → row.familyID ∉ families) :
    ∃ next ∈ later, row.Evolves next := by
  cases moves with
  | quiet evolution => exact evolution.forward row present
  | took moment found live evolution spent => exact evolution.forward row present
  | saved live unrevoked => exact ⟨row, List.mem_append_left _ present, .refl row⟩
  | purged families =>
    refine ⟨row, List.mem_filter.mpr ⟨present, ?_⟩, .refl row⟩
    exact decide_eq_true (kept families rfl)
  | _ => exact ⟨row, present, .refl row⟩

/-- A family without rows stays so unless a token is saved into it. -/
theorem absent (before : FamilyAbsent rows familyID)
    (others : ∀ origin expiresAt, deed = .saved origin expiresAt → origin.familyID ≠ familyID) :
    FamilyAbsent later familyID := by
  intro next present
  rcases moves.exists_of_mem present with ⟨saved, -, -⟩ | ⟨row, old, evolves⟩
  · exact others next.origin next.expiresAt saved
  · rw [evolves.familyID_eq]
    exact before row old

/-- A closed family stays closed unless it is purged. -/
theorem closed (before : FamilyClosed rows familyID)
    (kept : ∀ families, deed = .purged families → familyID ∉ families) :
    FamilyClosed later familyID where
  revoked := by
    obtain ⟨row, present, rfl, stamped⟩ := before.revoked
    obtain ⟨next, member, evolves⟩ := moves.exists_evolves present kept
    exact ⟨next, member, evolves.familyID_eq, evolves.revoked stamped⟩
  every := by
    intro next present family
    rcases moves.exists_of_mem present with ⟨-, -, unrevoked⟩ | ⟨row, old, evolves⟩
    · obtain ⟨stored, member, ofFamily, stamped⟩ := before.revoked
      simp [unrevoked stored member (ofFamily.trans family.symm)] at stamped
    · exact evolves.revoked (before.every row old (evolves.familyID_eq.symm.trans family))

end

/-- A purge leaves no row of its families. -/
theorem absent_of_purged {families : List String} (moves : Moves rows (.purged families) later)
    (member : familyID ∈ families) : FamilyAbsent later familyID := by
  cases moves with
  | purged =>
    intro row present family
    have kept := of_decide_eq_true (List.mem_filter.mp present).2
    exact kept (family ▸ member)

/-- A family whose token is taken has a row. -/
theorem not_absent_of_took {origin : Origin}
    (moves : Moves rows (.took origin expiresAt moment) later) :
    ¬ FamilyAbsent rows origin.familyID := by
  intro absent
  cases moves with
  | took _ present => exact absent _ present rfl

end Moves

end Tempogate.State

namespace Tempogate.Oidc

open Foundation State

/-- A request has drawn a family or taken a token of one before it saves its own token.
Once settled it remembers what it rotated. -/
inductive Standing
  | idle (reading : Option Time)
  | drew (familyID : String)
  | took (origin : Origin) (expiresAt moment : Time)
  | settled (rotated : Option (Origin × Time × Time))
  | sweeping
  deriving DecidableEq

variable {origin : Origin}

namespace Standing

def hear (moment : Time) : Standing → Standing
  | idle _ => idle (some moment)
  | standing => standing

def rotation : Standing → Option (Origin × Time × Time)
  | took origin expiresAt moment => some (origin, expiresAt, moment)
  | _ => none

/-- This is the deed that gave a request the family it may save into. -/
def entry : Standing → Option Deed
  | drew familyID => some (.drew familyID)
  | took origin expiresAt moment => some (.took origin expiresAt moment)
  | _ => none

@[simp] theorem rotation_hear (moment : Time) (standing : Standing) :
    (standing.hear moment).rotation = standing.rotation := by
  cases standing <;> rfl

@[simp] theorem entry_hear (moment : Time) (standing : Standing) :
    (standing.hear moment).entry = standing.entry := by
  cases standing <;> rfl

/-- An entry is a draw or a taken token. -/
theorem entry_eq_some {standing : Standing} {deed : Deed} (entered : standing.entry = some deed) :
    (∃ familyID, deed = .drew familyID) ∨
      ∃ origin expiresAt moment, deed = .took origin expiresAt moment := by
  cases standing with
  | drew familyID => exact .inl ⟨familyID, (Option.some.inj entered).symm⟩
  | took origin expiresAt moment =>
    exact .inr ⟨origin, expiresAt, moment, (Option.some.inj entered).symm⟩
  | _ => cases entered

/-- A request saves into the family it drew, or into the family of the token it took in time. -/
structure MaySave (maxLifetime : Time) (origin : Origin) (standing : Standing) : Prop where
  named : origin.familyID ≠ ""
  entered : standing = drew origin.familyID ∨
    ∃ expiresAt moment, standing = took origin expiresAt moment ∧ moment ≤ expiresAt ∧
      moment < origin.authTime + maxLifetime

/-- Requests that may save do not listen to the clock. -/
theorem MaySave.hear_eq {standing : Standing}
    (may : standing.MaySave maxLifetime origin) (moment : Time) :
    standing.hear moment = standing := by
  rcases may.entered with rfl | ⟨expiresAt, taken, rfl, -, -⟩ <;> rfl

theorem MaySave.not_settled {standing : Standing}
    (may : standing.MaySave maxLifetime origin) (rotated : Option (Origin × Time × Time)) :
    standing ≠ settled rotated := by
  rcases may.entered with rfl | ⟨expiresAt, taken, rfl, -, -⟩ <;> exact nofun

end Standing

/-- This protocol is what every token request keeps to, and what a sweep may do besides. -/
def lineageProtocol (maxLifetime : Time) (draws : Prop) : Protocol Deed Standing where
  assumes _ deed :=
    match deed with
    | .drew familyID => draws → familyID ≠ ""
    | .took origin _ _ => origin.familyID ≠ ""
    | _ => True
  permits standing deed :=
    match deed with
    | .quiet | .read _ => True
    | .drew _ => draws ∧ ∃ reading, standing = .idle reading
    | .took _ _ moment => standing = .idle (some moment)
    | .saved origin expiresAt =>
      expiresAt ≤ origin.authTime + maxLifetime ∧ standing.MaySave maxLifetime origin
    | .purged _ => standing = .sweeping
  advance standing deed :=
    match deed with
    | .quiet | .purged _ => standing
    | .read moment => standing.hear moment
    | .drew familyID => .drew familyID
    | .took origin expiresAt moment => .took origin expiresAt moment
    | .saved _ _ => .settled standing.rotation

section Ghost

variable {signature : Signature} {maxLifetime : Time} {draws : Prop}
  {observe : Observer signature Deed} {start : Nat → Standing} {log : List (Event signature)}
  {process : Nat}

/-- Some earlier step of the process showed the deed. -/
def Showed (observe : Observer signature Deed) (log : List (Event signature)) (process : Nat)
    (deed : Deed) : Prop :=
  ∃ event ∈ log, event.process = process ∧ observe event.effect event.answer = deed

variable {deed : Deed} {event : Event signature}

theorem Showed.cons (showed : Showed observe log process deed) (event : Event signature) :
    Showed observe (event :: log) process deed := by
  obtain ⟨earlier, member, rest⟩ := showed
  exact ⟨earlier, List.mem_cons_of_mem event member, rest⟩

theorem Showed.of_cons (showed : Showed observe (event :: log) process deed) :
    (event.process = process ∧ observe event.effect event.answer = deed) ∨
      Showed observe log process deed := by
  obtain ⟨earlier, member, mine, shown⟩ := showed
  rcases List.mem_cons.mp member with rfl | old
  · exact .inl ⟨mine, shown⟩
  · exact .inr ⟨earlier, old, mine, shown⟩

/-- A step gives an entry by its own deed, or leaves the one there was and saves nothing. -/
theorem entry_of_cons
    (entered : ((lineageProtocol maxLifetime draws).ghost observe start (event :: log)
      process).entry = some deed) :
    (event.process = process ∧ observe event.effect event.answer = deed) ∨
      ((lineageProtocol maxLifetime draws).ghost observe start log process).entry = some deed ∧
        (event.process = process → ∀ origin expiresAt,
          observe event.effect event.answer ≠ .saved origin expiresAt) := by
  by_cases mine : event.process = process
  · subst mine
    rw [Protocol.ghost_self] at entered
    cases shown : observe event.effect event.answer with
    | quiet | purged =>
      rw [shown] at entered
      exact .inr ⟨entered, fun _ => nofun⟩
    | read moment =>
      rw [shown] at entered
      exact .inr ⟨(Standing.entry_hear _ _).symm.trans entered, fun _ => nofun⟩
    | saved origin expiresAt =>
      rw [shown] at entered
      cases entered
    | _ =>
      rw [shown] at entered
      exact .inl ⟨rfl, Option.some.inj entered⟩
  · rw [Protocol.ghost_of_ne _ _ _ _ mine] at entered
    exact .inr ⟨entered, fun same => absurd same mine⟩

/-- A family that a process may save into was drawn or taken in one of its steps. -/
theorem showed_of_entry (unentered : ∀ process, (start process).entry = none)
    (entered : ((lineageProtocol maxLifetime draws).ghost observe start log process).entry =
      some deed) : Showed observe log process deed := by
  induction log with
  | nil => cases (unentered process).symm.trans entered
  | cons event log ih =>
    rcases entry_of_cons entered with ⟨mine, shown⟩ | ⟨earlier, -⟩
    · exact ⟨event, List.mem_cons_self, mine, shown⟩
    · exact (ih earlier).cons event

/-- This says that the standing of a process agrees with what it showed. -/
structure Recalls (maxLifetime : Time) (observe : Observer signature Deed)
    (log : List (Event signature)) (process : Nat) (standing : Standing) : Prop where
  awake : standing ≠ .sweeping
  reading : ∀ moment, standing = .idle (some moment) → Showed observe log process (.read moment)
  taking : ∀ origin expiresAt moment, standing = .took origin expiresAt moment →
    Showed observe log process (.took origin expiresAt moment)
  taken : ∀ origin expiresAt moment, Showed observe log process (.took origin expiresAt moment) →
    Showed observe log process (.read moment) ∧ (standing = .took origin expiresAt moment ∨
        standing = .settled (some (origin, expiresAt, moment)))
  settled : ∀ origin expiresAt moment, standing = .settled (some (origin, expiresAt, moment)) →
    Showed observe log process (.took origin expiresAt moment) ∧ moment ≤ expiresAt ∧
      moment < origin.authTime + maxLifetime

namespace Recalls

variable {standing : Standing}

theorem initial : Recalls maxLifetime observe [] process (.idle none) where
  awake := nofun
  reading := nofun
  taking := nofun
  taken := by
    rintro origin expiresAt moment ⟨event, member, -⟩
    cases member
  settled := nofun

/-- A process that took nothing and did not settle recalls no token. -/
theorem untaken
    (recalls : Recalls maxLifetime observe log process standing)
    (unentered : standing.rotation = none) (unsettled : ∀ rotated, standing ≠ .settled rotated) :
    ¬ Showed observe log process (.took origin expiresAt moment) := by
  intro showed
  rcases (recalls.taken origin expiresAt moment showed).2 with took | settled
  · rw [took] at unentered
    cases unentered
  · exact unsettled _ settled

/-- A step that takes no token and leaves the standing leaves the memory. -/
theorem keep (recalls : Recalls maxLifetime observe log process standing)
    (plain : event.process = process → ∀ origin expiresAt moment,
      observe event.effect event.answer ≠ .took origin expiresAt moment) :
    Recalls maxLifetime observe (event :: log) process standing where
  awake := recalls.awake
  reading moment idle := (recalls.reading moment idle).cons event
  taking origin expiresAt moment took := (recalls.taking origin expiresAt moment took).cons event
  taken := by
    intro origin expiresAt moment showed
    rcases showed.of_cons with ⟨mine, shown⟩ | old
    · exact absurd shown (plain mine origin expiresAt moment)
    · obtain ⟨read, standings⟩ := recalls.taken origin expiresAt moment old
      exact ⟨read.cons event, standings⟩
  settled := by
    intro origin expiresAt moment settled
    obtain ⟨took, inTime⟩ := recalls.settled origin expiresAt moment settled
    exact ⟨took.cons event, inTime⟩

/-- A process that entered no family can hear the clock, draw a family or take a token. -/
theorem idle {reading : Option Time}
    (recalls : Recalls maxLifetime observe log process (.idle reading))
    (mine : event.process = process) (shown : observe event.effect event.answer = deed)
    (permitted : (lineageProtocol maxLifetime draws).permits (.idle reading) deed) :
    Recalls maxLifetime observe (event :: log) process
      ((lineageProtocol maxLifetime draws).advance (.idle reading) deed) := by
  have here : Showed observe (event :: log) process deed := ⟨event, List.mem_cons_self, mine, shown⟩
  have untaken : ∀ origin expiresAt moment,
      Showed observe (event :: log) process (.took origin expiresAt moment) →
        deed = .took origin expiresAt moment := by
    intro origin expiresAt moment showed
    rcases showed.of_cons with ⟨-, took⟩ | old
    · exact shown.symm.trans took
    · exact absurd old (recalls.untaken rfl nofun)
  cases deed with
  | quiet => exact recalls.keep fun _ _ _ _ took => nomatch shown.symm.trans took
  | read moment =>
    refine ⟨nofun, ?_, nofun, ?_, nofun⟩
    · intro heard same
      cases same
      exact here
    · intro origin expiresAt taken showed
      cases untaken origin expiresAt taken showed
  | drew familyID =>
    refine ⟨nofun, nofun, nofun, ?_, nofun⟩
    intro origin expiresAt taken showed
    cases untaken origin expiresAt taken showed
  | took origin expiresAt moment =>
    refine ⟨nofun, nofun, ?_, ?_, nofun⟩
    · intro _ _ _ same
      cases same
      exact here
    · intro one expiry taken showed
      cases untaken one expiry taken showed
      exact ⟨(recalls.reading moment permitted).cons event, .inl rfl⟩
  | saved origin expiresAt =>
    rcases permitted.2.entered with drew | ⟨expiry, moment, took, -, -⟩
    · cases drew
    · cases took
  | purged families => cases permitted

/-- A process that entered a family can only save into it, and then it is settled. -/
theorem entered {entry : Deed} (recalls : Recalls maxLifetime observe log process standing)
    (holds : standing.entry = some entry) (shown : observe event.effect event.answer = deed)
    (permitted : (lineageProtocol maxLifetime draws).permits standing deed) :
    Recalls maxLifetime observe (event :: log) process
      ((lineageProtocol maxLifetime draws).advance standing deed) := by
  have unidle : ∀ reading, standing ≠ .idle reading := by
    rintro reading rfl
    cases holds
  cases deed with
  | quiet => exact recalls.keep fun _ _ _ _ took => nomatch shown.symm.trans took
  | read moment =>
    have deaf : standing.hear moment = standing := by
      cases standing with
      | idle reading => cases holds
      | _ => rfl
    change Recalls _ _ _ _ (standing.hear moment)
    rw [deaf]
    exact recalls.keep fun _ _ _ _ took => nomatch shown.symm.trans took
  | drew familyID =>
    obtain ⟨-, reading, idle⟩ := permitted
    exact absurd idle (unidle reading)
  | took origin expiresAt moment => exact absurd permitted (unidle _)
  | saved origin expiresAt =>
    refine ⟨nofun, nofun, nofun, ?_, ?_⟩
    · intro one expiry moment showed
      rcases showed.of_cons with ⟨-, took⟩ | old
      · cases shown.symm.trans took
      obtain ⟨read, rfl | rfl⟩ := recalls.taken one expiry moment old
      · exact ⟨read.cons event, .inr rfl⟩
      · cases holds
    · intro one expiry moment settled
      rcases permitted.2.entered with rfl | ⟨taken, instant, rfl, inTime, young⟩
      · cases settled
      · cases settled
        exact ⟨(recalls.taking _ _ _ rfl).cons event, inTime, young⟩
  | purged families =>
    subst permitted
    cases holds

/-- A permitted step of the process keeps its memory. -/
theorem step (recalls : Recalls maxLifetime observe log process standing)
    (mine : event.process = process)
    (permitted : (lineageProtocol maxLifetime draws).permits standing
      (observe event.effect event.answer)) :
    Recalls maxLifetime observe (event :: log) process
      ((lineageProtocol maxLifetime draws).advance standing
        (observe event.effect event.answer)) := by
  cases standing with
  | idle reading => exact recalls.idle mine rfl permitted
  | sweeping => exact absurd rfl recalls.awake
  | settled rotated =>
    cases shown : observe event.effect event.answer with
    | drew familyID =>
      rw [shown] at permitted
      obtain ⟨-, reading, idle⟩ := permitted
      cases idle
    | took | purged =>
      rw [shown] at permitted
      cases permitted
    | saved origin expiresAt =>
      rw [shown] at permitted
      exact absurd rfl (permitted.2.not_settled rotated)
    | _ => exact recalls.keep fun _ _ _ _ took => nomatch shown.symm.trans took
  | _ => exact recalls.entered rfl rfl permitted

end Recalls

end Ghost

end Tempogate.Oidc
