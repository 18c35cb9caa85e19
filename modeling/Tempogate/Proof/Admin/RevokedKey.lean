/-
This file shows that a revoked integration key never verifies again.
-/

import Mathlib.Order.MinMax
import Mathlib.Tactic.Ring
import Tempogate.Proof.Admin.DenylistCache
import Tempogate.Proof.Sweep.Loops

namespace Tempogate.Admin

open Foundation Oidc Keys Reaper Registry List

variable {answer : Except VerifyError AccessToken} {id jti : String} {verifier : Verifier}
  {state : AdminState} {row : Nat × Time} {expiresAt ttl : Time}

/-- These are the steps that a mint and a sweep consist of. -/
inductive Deed
  | read (moment : Time)
  | signed (moment : Time)
  | drew (jti : String)
  | saved (key : IntegrationKey)
  | paged (rows : List (Nat × Time))
  | deletes (rowids : List Nat)
  | nothing

def observeDeeds : Observer adminCalls Deed
  | .now, moment => .read moment
  | .tokenNow, moment => .signed moment
  | .newJTI, answer => match answer with
    | .ok jti => .drew jti
    | .error _ => .nothing
  | .save key, answer => match answer with
    | .ok _ => .saved key
    | .error _ => .nothing
  | .selectDenylistPage _ _, answer => match answer with
    | .ok rows => .paged rows
    | .error _ => .nothing
  | .deleteDenylist rowids, _ => .deletes rowids
  | _, _ => .nothing

/-- A process remembers its last clock reading, the key it saved and the page it read. -/
structure Work where
  reaps : Bool
  now : Option Time
  saved : Option IntegrationKey
  page : List (Nat × Time)

def Work.begin (reaps : Bool) : Work := ⟨reaps, none, none, []⟩

def Work.advance (work : Work) : Deed → Work
  | .read moment => { work with now := some moment }
  | .saved key => { work with saved := some key }
  | .paged rows => { work with page := rows }
  | .deletes _ => { work with page := [] }
  | _ => work

variable {now moment : Time} {token : AccessToken}

section Advance

variable {work : Work} {deed : Deed}

theorem Work.saved_advance {key : IntegrationKey} (known : (work.advance deed).saved = some key) :
    deed = .saved key ∨ work.saved = some key := by
  cases deed with
  | saved latest =>
    cases known
    exact .inl rfl
  | _ => exact .inr known

theorem Work.now_advance (known : (work.advance deed).now = some now) :
    deed = .read now ∨ work.now = some now := by
  cases deed with
  | read moment =>
    cases known
    exact .inl rfl
  | _ => exact .inr known

theorem Work.mem_page_advance (member : row ∈ (work.advance deed).page) :
    (∃ rows, deed = .paged rows ∧ row ∈ rows) ∨
      row ∈ work.page ∧ ∀ rowids, deed ≠ .deletes rowids := by
  cases deed with
  | paged rows => exact .inl ⟨rows, rfl, member⟩
  | deletes rowids => cases member
  | _ => exact .inr ⟨member, nofun⟩

end Advance

theorem observeDeeds_deletes {call : AdminCall} {answer : call.Answer} {rowids : List Nat}
    (deletes : call = .deleteDenylist rowids) : observeDeeds call answer = .deletes rowids := by
  subst deletes
  rfl

/-- A signer reads its clock less than the grace after the handler, and a jti is never empty. -/
def Work.Assumes (work : Work) : Deed → Prop
  | .signed moment => ∀ earlier, work.now = some earlier → moment < earlier + denylistGrace
  | .drew jti => jti ≠ ""
  | _ => True

/-- Only the reaper reads pages, and it deletes only rows that its page shows as expired. -/
def Work.Permits (work : Work) : Deed → Prop
  | .paged _ => work.reaps = true
  | .deletes rowids => work.reaps = true ∧ ∀ rowid ∈ rowids, ∃ expiresAt now,
      (rowid, expiresAt) ∈ work.page ∧ work.now = some now ∧ expiresAt + denylistGrace < now
  | _ => True

def workProtocol : Protocol Deed Work := ⟨Work.Assumes, Work.Permits, Work.advance⟩

/-- The token of the saved key expires less than the grace after the key. -/
structure Covers (key : IntegrationKey) (token : AccessToken) : Prop where
  named : token.jti ≠ ""
  same : key.jti = token.jti
  expires : ∃ expiresAt expiration, key.expiresAt = some expiresAt ∧
    token.expiration = some expiration ∧ expiration < expiresAt + denylistGrace

/-- A created key was saved before its token is returned. -/
def Issued (work : Work) : AdminOutcome → Prop
  | .created (.ok response) =>
    ∃ key, work.saved = some key ∧ key.id = response.id ∧ Covers key response.jwt
  | _ => True

section Meets

variable {Result Middle : Type} {work : Work}

/-- An innocent program neither saves a key nor touches the denylist. -/
def Innocent (program : Operation Result) : Prop :=
  ∀ work, program.Meets workProtocol observeDeeds (fun _ _ => True) work

theorem Innocent.bind {program : Operation Middle} {continuation : Middle → Operation Result}
    (first : Innocent program) (rest : ∀ result, Innocent (continuation result)) :
    Innocent (program >>= continuation) :=
  fun work => (first work).bind fun after result _ => rest result after

theorem innocent_done (result : Result) : Innocent (Program.done result : Operation Result) :=
  fun _ => trivial

theorem innocent_step (call : AdminCall)
    (quiet : ∀ work answer, Work.Permits work (observeDeeds call answer)) :
    Innocent (step call) :=
  fun work answer _ => ⟨quiet work answer, trivial⟩

theorem hydrate_innocent (jti : String) : Innocent (hydrate jti) := by
  unfold hydrate
  split
  · exact innocent_done _
  · exact (innocent_step .now fun _ _ => trivial).bind fun moment =>
      innocent_step (.store _ _ _) fun _ _ => trivial

theorem isRevoked_innocent (settings : DenylistSettings) (jti : String) :
    Innocent (isRevoked settings jti) := by
  refine (innocent_step (.probe jti) fun _ _ => trivial).bind fun cached => ?_
  cases cached with
  | some revoked => exact innocent_done _
  | none =>
    dsimp only
    split
    · exact innocent_done _
    · refine (innocent_step (.isRevoked jti) fun _ _ => trivial).bind fun answer => ?_
      cases answer with
      | error cause => exact innocent_done _
      | ok revoked =>
        refine (innocent_step .now fun _ _ => trivial).bind fun moment => ?_
        exact (innocent_step (.store _ _ _) fun _ _ => trivial).bind fun _ => innocent_done _

theorem delete_innocent (handlers : Handlers) (id : String) : Innocent (handlers.delete id) := by
  have revoked : Innocent (handlers.revoke id) := by
    refine (innocent_step .now fun _ _ => trivial).bind fun moment => ?_
    refine (innocent_step (.markRevoked _ _) fun _ _ => trivial).bind fun marked => ?_
    cases marked with
    | error error => exact innocent_done _
    | ok jti =>
      dsimp only
      split
      · exact (hydrate_innocent jti).bind fun _ => innocent_done _
      · exact innocent_done _
  refine revoked.bind fun result => ?_
  split <;> exact innocent_done _

/-- A numeric date is not after the moment it stands for. -/
theorem numericDate_le (moment : Time) : numericDate moment ≤ moment :=
  Int.ediv_mul_le moment (by decide)

theorem sub_le (later earlier : Time) (positive : 0 < sub later earlier) :
    sub later earlier ≤ later - earlier := by
  rcases lt_max_iff.mp positive with below | above
  · exact absurd below (by decide)
  · have ahead : 0 < later - earlier := (lt_min_iff.mp above).2
    exact max_le (le_trans (by decide) ahead.le) (min_le_right _ _)

/-- A lifetime that the handler accepts is positive and ends with the key. -/
theorem lifetime_ok {handlers : Handlers} {requested : Option Time}
    (accepted : handlers.lifetime requested now = .ok (expiresAt, ttl)) :
    0 < ttl ∧ ttl ≤ expiresAt - now := by
  unfold Handlers.lifetime at accepted
  split at accepted
  · cases accepted
  next wanted =>
    dsimp only at accepted
    split at accepted
    · cases accepted
    next positive =>
      split at accepted
      · cases accepted
      · cases accepted
        exact ⟨not_le.mp positive, sub_le _ _ (not_le.mp positive)⟩

/-- A token signed less than the grace after its lifetime was measured expires in time. -/
theorem expiration_lt (timely : moment < now + denylistGrace) (within : ttl ≤ expiresAt - now) :
    numericDate (moment + ttl) < expiresAt + denylistGrace := by
  calc numericDate (moment + ttl) ≤ moment + ttl := numericDate_le _
    _ < now + denylistGrace + ttl := Int.add_lt_add_right timely ttl
    _ ≤ now + denylistGrace + (expiresAt - now) := Int.add_le_add_left within _
    _ = expiresAt + denylistGrace := by ring

/-- The signer's token lives no longer than asked from the moment it was signed. -/
theorem signerMint_meets (signer : Signer) (request : MintRequest) (read : work.now = some now)
    (positive : 0 < request.ttl) :
    (signer.mint request).Meets workProtocol observeDeeds
      (fun _ result => ∀ token jti, result = .ok (token, jti) → token.jti = jti ∧ jti ≠ "" ∧
        ∃ moment, moment < now + denylistGrace ∧
          token.expiration = some (numericDate (moment + request.ttl))) work := by
  intro drawn assumed
  cases drawn with
  | error cause => exact ⟨trivial, nofun⟩
  | ok jti =>
    refine ⟨trivial, ?_⟩
    intro moment timely
    refine ⟨trivial, fun key _ => ⟨trivial, ?_⟩⟩
    cases key with
    | error cause => exact nofun
    | ok kid =>
      rintro token other ⟨rfl⟩
      exact ⟨rfl, assumed, moment, timely now read,
        if_pos positive⟩

/-- A created key covers its token. -/
theorem mint_meets (handlers : Handlers) (request : CreateRequest) :
    (handlers.mint request).Meets workProtocol observeDeeds
      (fun after result => Issued after (.created result)) work := by
  unfold Handlers.mint
  split
  · trivial
  next _ =>
    split
    · trivial
    · intro drawn _
      refine ⟨trivial, ?_⟩
      cases drawn with
      | error cause => trivial
      | ok id =>
        intro now _
        refine ⟨trivial, ?_⟩
        dsimp only [Program.bind]
        cases accepted : handlers.lifetime request.expiresAt now with
        | error error => trivial
        | ok lifetime =>
          obtain ⟨expiresAt, ttl⟩ := lifetime
          obtain ⟨positive, within⟩ := lifetime_ok accepted
          refine (signerMint_meets _ _ rfl positive).bind fun after result signed => ?_
          cases result with
          | error cause => trivial
          | ok minted =>
            obtain ⟨token, jti⟩ := minted
            obtain ⟨rfl, named, moment, timely, expiration⟩ := signed token jti rfl
            intro saved _
            cases saved with
            | error error => exact ⟨trivial, trivial⟩
            | ok _ =>
              refine ⟨trivial, _, rfl, rfl, named, rfl, expiresAt, _, rfl, expiration, ?_⟩
              exact expiration_lt timely within

/-- A sweep deletes only what its last page showed as expired. -/
theorem reapDenylist_meets (reaper : Reaper) {now : Time} (reaps : work.reaps = true)
    (read : work.now = some now) :
    (reaper.reapDenylist now).Meets workProtocol observeDeeds
      (fun after _ => after.reaps = true ∧ after.now = some now) work := by
  refine State.walk_meets (fun work : Work => work.reaps = true ∧ work.now = some now)
    (fun rowids work => rowids = State.doomed (fun expiresAt => now > expiresAt + denylistGrace)
      work.page) ?_ ?_ _ _ _ ⟨reaps, read⟩
  · rintro cursor limit work ⟨reaps, read⟩ answer -
    cases answer with
    | error cause => exact ⟨trivial, ⟨reaps, read⟩, nofun⟩
    | ok page =>
      refine ⟨reaps, ⟨reaps, read⟩, ?_⟩
      rintro _ ⟨⟩
      rfl
  · rintro _ work ⟨reaps, read⟩ rfl answer -
    refine ⟨⟨reaps, fun rowid member => ?_⟩, reaps, read⟩
    obtain ⟨⟨rowid, expiresAt⟩, filtered, rfl⟩ := mem_map.mp member
    obtain ⟨inPage, due⟩ := mem_filter.mp filtered
    exact ⟨expiresAt, now, inPage, read, of_decide_eq_true due⟩

theorem run_meets (reaper : Reaper) (sweeps : Nat) (reaps : work.reaps = true) :
    (reaper.run sweeps).Meets workProtocol observeDeeds (fun _ _ => True) work := by
  induction sweeps generalizing work with
  | zero => trivial
  | succ sweeps ih =>
    intro now _
    refine ⟨trivial, ?_⟩
    exact (@reapDenylist_meets { work with now := some now } reaper now reaps rfl).bind
      fun after _ kept => ih kept.1

/-- The task is a reaper. -/
def AdminTask.reaps : AdminTask → Bool
  | .reap _ _ => true
  | _ => false

/-- Every task issues only what it saved. -/
theorem program_meets (service : Service) (task : AdminTask) :
    (task.program service).Meets workProtocol observeDeeds Issued (.begin task.reaps) := by
  cases task with
  | create request => exact (mint_meets service.handlers request).bind fun _ _ issued => issued
  | delete id => exact (delete_innocent service.handlers id _).bind fun _ _ _ => trivial
  | isRevoked jti => exact (isRevoked_innocent service.cache jti _).bind fun _ _ _ => trivial
  | hydrate jti => exact (hydrate_innocent jti _).bind fun _ _ _ => trivial
  | verify verifier token =>
    exact (innocent_step (.verify verifier token) (fun _ _ => trivial) _).bind fun _ _ _ => trivial
  | reap reaper sweeps => exact (run_meets reaper sweeps rfl).bind fun _ _ _ => trivial

end Meets

/-- Some stored key has this id, jti and expiry. -/
def Registry.Holds (registry : Registry) (id jti : String) (expiresAt : Option Time) : Prop :=
  ∃ key ∈ registry.integrationKeys.rows, key.id = id ∧ key.jti = jti ∧ key.expiresAt = expiresAt

namespace Registry

variable {registry : Registry} {id other jti another : String} {expiresAt second : Option Time}

theorem Holds.eq_of_id (first : registry.Holds id jti expiresAt)
    (again : registry.Holds id another second) : jti = another ∧ expiresAt = second := by
  obtain ⟨key, member, rfl, rfl, rfl⟩ := first
  obtain ⟨found, present, same, rfl, rfl⟩ := again
  cases registry.integrationKeys.eq_of_key_eq present member same
  exact ⟨rfl, rfl⟩

theorem Holds.eq_of_jti (first : registry.Holds id jti expiresAt)
    (again : registry.Holds other jti second) : expiresAt = second := by
  obtain ⟨key, member, rfl, rfl, rfl⟩ := first
  obtain ⟨found, present, rfl, same, rfl⟩ := again
  cases inj_on_of_nodup_map registry.unique present member same
  rfl

theorem Holds.save (holds : registry.Holds id jti expiresAt) (key : IntegrationKey) :
    (registry.saveIntegrationKey key).2.Holds id jti expiresAt := by
  obtain ⟨found, member, matched⟩ := holds
  unfold saveIntegrationKey
  split
  · split
    · refine ⟨found, ?_, matched⟩
      rw [withKey, Table.rows_append]
      exact mem_append_left _ member
    · exact ⟨found, member, matched⟩
  · exact ⟨found, member, matched⟩

/-- A revocation changes neither the jti nor the expiry of a key. -/
theorem Holds.mark (holds : registry.Holds id jti expiresAt) (revoked : String) (moment : Time) :
    (registry.markIntegrationKeyRevoked revoked moment).2.Holds id jti expiresAt := by
  obtain ⟨found, member, matched⟩ := holds
  unfold markIntegrationKeyRevoked
  split
  · exact ⟨found, member, matched⟩
  · refine ⟨if stampable revoked found then found.revoke moment else found, ?_, ?_⟩
    · rw [withRevoked, Table.rows_update]
      exact mem_map_of_mem member
    · split <;> exact matched

/-- A saved key is stored. -/
theorem holds_save {key : IntegrationKey} (saved : (registry.saveIntegrationKey key).1 = .ok ()) :
    (registry.saveIntegrationKey key).2.Holds key.id key.jti key.expiresAt := by
  unfold saveIntegrationKey at saved ⊢
  split at saved
  next newID =>
    rw [dif_pos newID]
    split at saved
    next newJTI =>
      rw [dif_pos newJTI]
      refine ⟨key, ?_, rfl, rfl, rfl⟩
      rw [withKey, Table.rows_append]
      exact mem_append_right _ (mem_singleton_self key)
    · cases saved
  · cases saved

/-- A revoked key is stored and denylisted. -/
theorem holds_mark (marked : (registry.markIntegrationKeyRevoked id moment).1 = .ok jti) :
    ∃ expiresAt, (registry.markIntegrationKeyRevoked id moment).2.Holds id jti expiresAt ∧
      (registry.markIntegrationKeyRevoked id moment).2.isRevoked jti = true := by
  unfold markIntegrationKeyRevoked at marked ⊢
  split at marked
  · cases marked
  next key found =>
    cases marked
    have stored : registry.Holds id key.jti key.expiresAt :=
      ⟨key, mem_of_find?_eq_some found, by simpa using List.find?_some found, rfl, rfl⟩
    have kept := stored.mark id moment
    rw [markIntegrationKeyRevoked, found] at kept
    refine ⟨key.expiresAt, kept, ?_⟩
    have listed := registry.denylist.key_mem_insert ⟨key.jti, moment⟩
    obtain ⟨row, member, same⟩ := mem_map.mp listed
    exact any_eq_true.mpr ⟨row, member, decide_eq_true same⟩

/-- Each row of a page shows the rowid of a denylist entry and the expiry of its key. -/
theorem mem_selectDenylistPage {cursor limit : Nat}
    (member : row ∈ registry.selectDenylistPage cursor limit) :
    ∃ entry ∈ registry.denylist.entries, entry.rowid = row.1 ∧
      ∃ id, registry.Holds id entry.row.jti (some row.2) := by
  obtain ⟨entry, filtered, joined⟩ := mem_flatMap.mp (mem_of_mem_take member)
  obtain ⟨key, paired, shown⟩ := mem_filterMap.mp joined
  obtain ⟨expiresAt, expires, rfl⟩ := Option.map_eq_some_iff.mp shown
  obtain ⟨stored, same⟩ := mem_filter.mp paired
  exact ⟨entry, (mem_filter.mp filtered).1, rfl, key.id, key, stored, rfl,
    of_decide_eq_true same, expires⟩

end Registry

section Happens

variable {settings : DenylistSettings} {state after : AdminState} {call : AdminCall}
  {answer : call.Answer} {id jti : String} {expiresAt : Option Time}

section

variable (happens : Happens settings (· ≤ ·) state call answer after)

include happens

theorem Happens.clock_le : state.clock ≤ after.clock := by
  cases happens with
  | now later => exact later
  | tokenNow later => exact later
  | probed later => exact later
  | verified later => exact later
  | verifyFailed later => exact later
  | _ => exact le_rfl

/-- A stored key keeps its id, jti and expiry. -/
theorem Happens.holds (holds : state.registry.Holds id jti expiresAt) :
    after.registry.Holds id jti expiresAt := by
  cases happens with
  | saved => exact holds.save _
  | marked => exact holds.mark _ _
  | _ => exact holds

end

/-- The state after a step agrees with what the deed says. -/
def Agrees (after : AdminState) : Deed → Prop
  | .read moment => after.clock = moment
  | .saved key => after.registry.Holds key.id key.jti key.expiresAt
  | .paged rows => ∀ row ∈ rows, ∃ entry ∈ after.registry.denylist.entries,
      entry.rowid = row.1 ∧ ∃ id, after.registry.Holds id entry.row.jti (some row.2)
  | _ => True

theorem Happens.agrees (happens : Happens settings (· ≤ ·) state call answer after) :
    Agrees after (observeDeeds call answer) := by
  cases happens with
  | now => rfl
  | @newJTI drawn _ => cases drawn <;> trivial
  | @saved key =>
    have stored := @holds_save state.registry key
    generalize (state.registry.saveIntegrationKey key).1 = saved at stored ⊢
    cases saved with
    | error error => trivial
    | ok _ => exact stored rfl
  | selected => exact fun row member => mem_selectDenylistPage member
  | _ => trivial

end Happens

/-- This is what a process has done so far. -/
def work (tasks : Nat → AdminTask) (current : Operations) (process : Nat) : Work :=
  workProtocol.ghost observeDeeds (fun process => .begin (tasks process).reaps) current.log process

/-- What the processes have read and saved is still stored. -/
structure Sound (tasks : Nat → AdminTask) (current : Operations) : Prop where
  saved : ∀ process key, (work tasks current process).saved = some key →
    current.store.registry.Holds key.id key.jti key.expiresAt
  paged : ∀ process, ∀ row ∈ (work tasks current process).page,
    ∃ entry ∈ current.store.registry.denylist.entries, entry.rowid = row.1 ∧
      ∃ id, current.store.registry.Holds id entry.row.jti (some row.2)
  timely : ∀ process now, (work tasks current process).now = some now → now ≤ current.store.clock
  reaps : ∀ process, (work tasks current process).page ≠ [] → (tasks process).reaps = true

/-- A stored key is denylisted, or it expired more than the grace ago. -/
def Denied (id : String) (state : AdminState) : Prop :=
  ∃ jti expiresAt, state.registry.Holds id jti expiresAt ∧ (state.registry.isRevoked jti = true ∨
      ∃ moment, expiresAt = some moment ∧ moment + denylistGrace < state.clock)

section Run

variable {settings : DenylistSettings} {tasks : Nat → AdminTask} {before after : Operations}
  {event : Event adminCalls} {process : Nat}

theorem work_step (move : Step (world settings (· ≤ ·)) before event after) :
    work tasks after process = if event.process = process then
      (work tasks before process).advance (observeDeeds event.effect event.answer)
      else work tasks before process := by
  unfold work
  rw [move.log_eq]
  rfl

theorem work_reaps (tasks : Nat → AdminTask) (current : Operations) (process : Nat) :
    (work tasks current process).reaps = (tasks process).reaps := by
  unfold work
  induction current.log with
  | nil => rfl
  | cons event log ih =>
    rw [Protocol.ghost]
    split
    · rw [← ih]
      cases observeDeeds event.effect event.answer <;> rfl
    · exact ih

/-- A sweep is the only reader of pages, so what it read is stored until it deletes. -/
theorem Sound.step (sound : Sound tasks before)
    (sole : ∀ first second, (tasks first).reaps = true → (tasks second).reaps = true →
      first = second)
    (move : Step (world settings (· ≤ ·)) before event after)
    (permitted : workProtocol.permits (work tasks before event.process)
      (observeDeeds event.effect event.answer)) : Sound tasks after := by
  have happens : Happens _ _ _ _ _ _ := move.happens
  have agrees := happens.agrees
  constructor
  · intro process key known
    rw [work_step move] at known
    split at known
    · rcases Work.saved_advance known with deed | earlier
      · rw [deed] at agrees
        exact agrees
      · exact happens.holds (sound.saved process key earlier)
    · exact happens.holds (sound.saved process key known)
  · intro process row member
    have kept : row ∈ (work tasks before process).page →
        (∀ rowids, observeDeeds event.effect event.answer ≠ .deletes rowids) →
        ∃ entry ∈ after.store.registry.denylist.entries, entry.rowid = row.1 ∧
          ∃ id, after.store.registry.Holds id entry.row.jti (some row.2) := by
      intro earlier keeps
      obtain ⟨entry, present, same, id, holds⟩ := sound.paged process row earlier
      refine ⟨entry, happens.mem_denylist ?_ present, same, id, happens.holds holds⟩
      exact fun rowids deletes => absurd (observeDeeds_deletes deletes) (keeps rowids)
    rw [work_step move] at member
    split at member
    next mine =>
      rcases Work.mem_page_advance member with ⟨rows, deed, shown⟩ | ⟨earlier, keeps⟩
      · rw [deed] at agrees
        exact agrees row shown
      · exact kept earlier keeps
    next other =>
      refine kept member fun rowids deed => other ?_
      rw [deed] at permitted
      have deletes := permitted.1
      rw [work_reaps] at deletes
      exact sole _ _ deletes (sound.reaps process (ne_nil_of_mem member))
  · intro process now known
    rw [work_step move] at known
    split at known
    · rcases Work.now_advance known with deed | earlier
      · rw [deed] at agrees
        exact le_of_eq agrees.symm
      · exact (sound.timely process now earlier).trans happens.clock_le
    · exact (sound.timely process now known).trans happens.clock_le
  · intro process nonempty
    rw [work_step move] at nonempty
    split at nonempty
    next mine =>
      obtain ⟨row, member⟩ := exists_mem_of_ne_nil _ nonempty
      rcases Work.mem_page_advance member with ⟨rows, deed, -⟩ | ⟨earlier, -⟩
      · rw [deed] at permitted
        rw [← mine, ← work_reaps tasks before]
        exact permitted
      · exact sound.reaps process (ne_nil_of_mem earlier)
    · exact sound.reaps process nonempty

/-- A denied key stays denied: its denylist row outlives its expiry by the grace. -/
theorem Denied.step (denied : Denied id before.store) (sound : Sound tasks before)
    (move : Step (world settings (· ≤ ·)) before event after)
    (permitted : workProtocol.permits (work tasks before event.process)
      (observeDeeds event.effect event.answer)) : Denied id after.store := by
  have happens : Happens _ _ _ _ _ _ := move.happens
  obtain ⟨jti, expiresAt, holds, listed | ⟨moment, expires, passed⟩⟩ := denied
  · obtain ⟨entry, present, rfl⟩ := isRevoked_iff.mp listed
    refine ⟨entry.row.jti, expiresAt, happens.holds holds, ?_⟩
    by_cases deleted : ∃ rowids, event.effect = .deleteDenylist rowids ∧ entry.rowid ∈ rowids
    · obtain ⟨rowids, deletes, named⟩ := deleted
      have deed : observeDeeds event.effect event.answer = .deletes rowids :=
        observeDeeds_deletes deletes
      rw [deed] at permitted
      obtain ⟨moment, now, shown, read, passed⟩ := permitted.2 entry.rowid named
      obtain ⟨found, stored, same, other, pair⟩ := sound.paged event.process _ shown
      cases before.store.registry.denylist.eq_of_rowid_eq stored present same
      have reached := (sound.timely event.process now read).trans happens.clock_le
      exact .inr ⟨moment, holds.eq_of_jti pair, lt_of_lt_of_le passed reached⟩
    · refine .inl (isRevoked_iff.mpr ⟨entry, happens.mem_denylist ?_ present, rfl⟩)
      exact fun rowids deletes named => deleted ⟨rowids, deletes, named⟩
  · exact ⟨jti, expiresAt, happens.holds holds,
      .inr ⟨moment, expires, lt_of_lt_of_le passed happens.clock_le⟩⟩

/-- A committed revocation denies the key. -/
theorem Denied.of_mark
    (move : Step (world settings (· ≤ ·)) before ⟨process, .markRevoked id moment, .ok jti⟩ after) :
    Denied id after.store := by
  have happens : Happens _ _ _ _ _ _ := move.happens
  obtain ⟨answered, stored⟩ : (before.store.registry.markIntegrationKeyRevoked id moment).1 =
      .ok jti ∧ after.store.registry =
        (before.store.registry.markIntegrationKeyRevoked id moment).2 := by
    generalize after.store = state at happens ⊢
    generalize answer : (Except.ok jti : Except RegistryError String) = result at happens ⊢
    cases happens with
    | marked => exact ⟨rfl, rfl⟩
    | markFailed => cases answer
  obtain ⟨expiresAt, holds, listed⟩ := holds_mark answered
  rw [← stored] at holds listed
  exact ⟨jti, expiresAt, holds, .inl listed⟩

end Run

/-- The handler's last reading of the clock in this process. -/
def reading : List (Event adminCalls) → Nat → Option Time
  | [], _ => none
  | ⟨process, .now, moment⟩ :: log, reader =>
    if process = reader then some moment else reading log reader
  | _ :: log, reader => reading log reader

/-- A signer reads its clock less than the grace after the handler did. -/
def Prompt (before : Operations) (event : Event adminCalls) : Prop :=
  ∀ process (moment earlier : Time), event = ⟨process, .tokenNow, moment⟩ →
    reading before.log process = some earlier → moment < earlier + denylistGrace

theorem work_now (tasks : Nat → AdminTask) (current : Operations) (process : Nat) :
    (work tasks current process).now = reading current.log process := by
  unfold work
  induction current.log with
  | nil => rfl
  | cons event log ih =>
    rw [Protocol.ghost]
    obtain ⟨actor, effect, answer⟩ := event
    cases effect with
    | now =>
      simp only [reading]
      split
      · rfl
      · exact ih
    | newJTI => cases answer <;> split <;> exact ih
    | save key => cases answer <;> split <;> exact ih
    | selectDenylistPage cursor limit => cases answer <;> split <;> exact ih
    | _ => split <;> exact ih

section Run

variable {settings : DenylistSettings} {tasks : Nat → AdminTask} {before after : Operations}
  {event : Event adminCalls}

/-- A prompt step gives what the protocol assumes. -/
theorem Prompt.assumes (prompt : Prompt before event)
    (move : Step (world settings (· ≤ ·)) before event after) :
    workProtocol.assumes (work tasks before event.process)
      (observeDeeds event.effect event.answer) := by
  have happens : Happens _ _ _ _ _ _ := move.happens
  obtain ⟨process, effect, answer⟩ := event
  cases effect with
  | tokenNow =>
    intro earlier read
    rw [work_now] at read
    exact prompt _ _ _ rfl read
  | newJTI =>
    have named : ∀ jti, answer = .ok jti → jti ≠ "" := by
      generalize after.store = state at happens
      cases happens with
      | newJTI named => exact named
    cases answer with
    | error cause => trivial
    | ok jti => exact named jti rfl
  | save key => cases answer <;> trivial
  | selectDenylistPage cursor limit => cases answer <;> trivial
  | _ => trivial

end Run

/-- A denied key's token is refused: it is expired, or its jti is in the denylist. -/
theorem verify_ne_ok (verifier : Verifier) {published : Bool} {signed : AccessToken → Bool}
    {isRevoked : String → Except String Bool} (named : token.jti ≠ "")
    (refused : token.expired now ∨ isRevoked token.jti ≠ .ok false) :
    ∀ accepted, verifier.verify published signed now isRevoked token ≠ .ok accepted := by
  intro accepted
  unfold Verifier.verify
  split
  · nofun
  · split
    · nofun
    next parsed =>
      split
      · nofun
      · rcases refused with expired | listed
        · simp [Verifier.parse, verifier.parser.refuses_expired expired] at parsed
        · split
          · nofun
          · nofun
          next active => exact absurd active listed

/-- The token of a stored and denied key is expired from now on, or its jti is denylisted. -/
theorem Covers.refused {key : IntegrationKey}
    (covers : Covers key token) (stored : state.registry.Holds id key.jti key.expiresAt)
    (denied : Denied id state) (later : state.clock ≤ moment) :
    token.expired moment ∨
      (Except.ok (state.registry.isRevoked token.jti) : Except String Bool) ≠ .ok false := by
  obtain ⟨jti, expiresAt, holds, listed | ⟨ends, expires, passed⟩⟩ := denied
  · obtain ⟨rfl, -⟩ := stored.eq_of_id holds
    refine .inr ?_
    rw [← covers.same, listed]
    nofun
  · obtain ⟨-, rfl⟩ := stored.eq_of_id holds
    obtain ⟨known, expiration, same, carried, before⟩ := covers.expires
    cases same.symm.trans expires
    have overdue : expiration ≤ moment := before.le.trans (passed.le.trans later)
    refine .inl ?_
    simp [AccessToken.expired, carried, overdue]

theorem Happens.verify {settings : DenylistSettings} {after : AdminState}
    (happens : Happens settings (· ≤ ·) state (.verify verifier token) answer after) :
    ∃ published signed moment lookup, state.clock ≤ moment ∧
      (lookup = (fun jti => .ok (state.registry.isRevoked jti)) ∨
        ∃ cause, lookup = fun _ => .error cause) ∧
      answer = verifier.verify published signed moment lookup token := by
  cases happens with
  | verified later => exact ⟨_, _, _, _, later, .inl rfl, rfl⟩
  | verifyFailed later => exact ⟨_, _, _, _, later, .inr ⟨_, rfl⟩, rfl⟩

/-- In every run with one reaper, on one clock that never goes back, whose signers read it less
than the grace after their handlers: once the revocation of a key has committed, no verification
accepts the token that was returned for the key. -/
theorem revoked_key_never_verifies (service : Service) (start : AdminState)
    (tasks : Nat → AdminTask)
    (sole : ∀ first second, (tasks first).reaps = true → (tasks second).reaps = true →
      first = second)
    {before revoked later after : Operations} {process minter reader : Nat} {moment : Time}
    {jti : String} {response : CreateResponse} {verifier : Verifier}
    {answer : Except VerifyError AccessToken}
    (reached : Reaches (world service.cache (· ≤ ·)) Prompt (operations service start tasks) before)
    (mark : Step (world service.cache (· ≤ ·)) before
      ⟨process, .markRevoked response.id moment, .ok jti⟩ revoked)
    (onward : Reaches (world service.cache (· ≤ ·)) Prompt revoked later)
    (minted : later.processes minter = .done (.created (.ok response)))
    (check : Step (world service.cache (· ≤ ·)) later
      ⟨reader, .verify verifier response.jwt, answer⟩ after) :
    ∀ token, answer ≠ .ok token := by
  have base : Sound tasks (operations service start tasks) := ⟨nofun, nofun, nofun, nofun⟩
  have meets : (operations service start tasks).Follows workProtocol observeDeeds Issued
      fun process => .begin (tasks process).reaps :=
    fun process => program_meets service (tasks process)
  obtain ⟨sound, follows⟩ := reached.follows (Sound tasks) base meets
    fun before event after sound _ prompt move =>
      ⟨prompt.assumes move, fun permitted => sound.step sole move permitted⟩
  obtain ⟨permitted, follows⟩ := follows.step mark trivial
  have denied : Sound tasks revoked ∧ Denied response.id revoked.store :=
    ⟨sound.step sole mark permitted, .of_mark mark⟩
  obtain ⟨⟨sound, denied⟩, follows⟩ := onward.follows
    (fun current => Sound tasks current ∧ Denied response.id current.store) denied follows
    fun before event after kept _ prompt move =>
      ⟨prompt.assumes move, fun permitted =>
        ⟨kept.1.step sole move permitted, kept.2.step kept.1 move permitted⟩⟩
  have issued := follows minter
  rw [minted] at issued
  obtain ⟨key, saved, same, covers⟩ := issued
  have stored : later.store.registry.Holds response.id key.jti key.expiresAt :=
    same ▸ sound.saved minter key saved
  obtain ⟨published, signed, now, lookup, later, answers, rfl⟩ := Happens.verify check.happens
  refine verify_ne_ok verifier covers.named ?_
  rcases answers with rfl | ⟨cause, rfl⟩
  · exact covers.refused stored denied later
  · exact .inr nofun

section Sample

def sampleReaper : Reaper := ⟨1, Nat.one_pos, 2⟩

/-- The sample key lives for two seconds. -/
def sampleCreate : CreateRequest := ⟨"orders", "read", "owner", some (5 + 2 * second)⟩

def sampleCreated : CreateResponse where
  id := "id"
  jwt := {
    kid := "kid", typ := accessTokenType, subject := "owner",
    permissions := sampleCreate.grant.toClaim, issuer := none, audience := none,
    jti := "fresh", issuedAt := 0, notBefore := 0, expiration := some (2 * second) }
  expiresAt := some (5 + 2 * second)

/-- One request creates a key, one revokes it, and the others verify its token. -/
def sampleRevocation : Nat → AdminTask
  | 0 => .create sampleCreate
  | 1 => .delete "id"
  | 2 => .reap sampleReaper 1
  | _ => .verify ⟨.strict, "", ""⟩ sampleCreated.jwt

def sampleRevoking (order : List Nat) : Operations :=
  (operations sampleService sampleAdmin sampleRevocation).turns
    (executor sampleService.cache sampleAdminScript) order

theorem sampleRevocation_sole (first second : Nat) (reaps : (sampleRevocation first).reaps = true)
    (again : (sampleRevocation second).reaps = true) : first = second := by
  have only : ∀ process, (sampleRevocation process).reaps = true → process = 2 := by
    intro process holds
    match process with
    | 0 | 1 => cases holds
    | 2 => rfl
    | process + 3 => cases holds
  rw [only first reaps, only second again]

/-- The sample signer reads the clock at the handler's moment. -/
theorem sampleRevoking_prompt : (operations sampleService sampleAdmin sampleRevocation).Lawful
      (world sampleService.cache (· ≤ ·)) Prompt (executor sampleService.cache sampleAdminScript)
      [0, 0, 0, 0, 0, 0, 1] := by
  refine ⟨⟨nofun, .newID⟩, ⟨nofun, .now (le_refl _)⟩, ⟨nofun, .newJTI ?_⟩,
    ⟨?_, .tokenNow (le_refl _)⟩, ⟨nofun, .latest⟩, ⟨nofun, .saved⟩, ⟨nofun, .now (le_refl _)⟩,
    trivial⟩
  · rintro jti ⟨rfl⟩
    decide
  · rintro process moment earlier ⟨rfl⟩ ⟨rfl⟩
    change (5 : Int) < 5 + denylistGrace
    decide

/-- A turn of the sample run that its world allows is a step. -/
theorem sampleRevoking_step (order : List Nat) {process : Nat} {call : AdminCall}
    {next : call.Answer → Operation AdminOutcome}
    (ready : (sampleRevoking order).processes process = .perform call next)
    (reached : (sampleRevoking order).store.clock ≤ 5) :
    Step (world sampleService.cache (· ≤ ·)) (sampleRevoking order)
      ⟨process, call, (executor sampleService.cache sampleAdminScript (sampleRevoking order).log
        (sampleRevoking order).store process call).1⟩
      ((sampleRevoking order).turn (executor sampleService.cache sampleAdminScript) process) :=
  Configuration.turn_step ready
    (executor_follows sampleService.cache _ sampleAdminScript _ _ _ _ reached)

/-- The revoked key's token has not expired, and its verification is refused. -/
theorem revoked_key_never_verifies_sample :
    (sampleRevoking [0, 0, 0, 0, 0, 0, 1, 1]).processes 0 = .done (.created (.ok sampleCreated)) ∧
    sampleCreated.jwt.current 5 = true ∧
    ∀ token, (executor sampleService.cache sampleAdminScript
      (sampleRevoking [0, 0, 0, 0, 0, 0, 1, 1]).log
      (sampleRevoking [0, 0, 0, 0, 0, 0, 1, 1]).store 3
      (.verify ⟨.strict, "", ""⟩ sampleCreated.jwt)).1 ≠ .ok token := by
  have minted : (sampleRevoking [0, 0, 0, 0, 0, 0, 1, 1]).processes 0 =
      .done (.created (.ok sampleCreated)) := rfl
  refine ⟨minted, by decide, ?_⟩
  have mark : Step (world sampleService.cache (· ≤ ·)) (sampleRevoking [0, 0, 0, 0, 0, 0, 1])
      ⟨1, .markRevoked sampleCreated.id 5, .ok "fresh"⟩
      (sampleRevoking [0, 0, 0, 0, 0, 0, 1, 1]) :=
    @sampleRevoking_step [0, 0, 0, 0, 0, 0, 1] 1 (.markRevoked "id" 5) _ rfl (le_refl _)
  have check := @sampleRevoking_step [0, 0, 0, 0, 0, 0, 1, 1] 3
    (.verify ⟨.strict, "", ""⟩ sampleCreated.jwt) _ rfl (le_refl _)
  exact revoked_key_never_verifies sampleService sampleAdmin sampleRevocation
    sampleRevocation_sole sampleRevoking_prompt.reaches mark Reaches.refl minted check

end Sample

end Tempogate.Admin
