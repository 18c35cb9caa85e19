/-
This file follows a revoked jti through the denylist cache of one process.
-/

import Tempogate.Construction.Admin.Keys
import Tempogate.Foundation.Protocol

namespace Tempogate.Keys.DenylistCache

open Oidc

variable {cache : DenylistCache} {settings settings : DenylistSettings} {jti other jti : String}
  {revoked : Bool} {now ttl moment : Time} {entry : CacheEntry} {ticks : Time → Time → Prop}
  {process : Nat}

theorem lookup_fresh (entries : AList fun _ : String => CacheEntry)
    (found : (fresh now entries).lookup jti = some entry) : entries.lookup jti = some entry := by
  have member := AList.mem_lookup_iff.mp found
  exact AList.mem_lookup_iff.mpr (List.mem_of_mem_filter member)

/-- A sweep only drops entries. -/
theorem lookup_sweep (found : (cache.sweep now ttl).entries.lookup jti = some entry) :
    cache.entries.lookup jti = some entry := by
  unfold sweep at found
  split at found
  · exact lookup_fresh _ found
  · exact found

/-- An eviction only drops an entry. -/
theorem lookup_evictOne (found : cache.evictOne.entries.lookup jti = some entry) :
    cache.entries.lookup jti = some entry := by
  unfold evictOne at found
  by_cases same : jti = victim cache.entries.entries ""
  · rw [same, AList.lookup_erase] at found
    cases found
  · rwa [AList.lookup_erase_ne same] at found

/-- The stored answer is what the cache holds for its jti. -/
theorem lookup_store_self : (cache.store settings jti revoked now).entries.lookup jti =
      some ⟨revoked, now + settings.ttl⟩ :=
  AList.lookup_insert _

/-- Memoizing one jti never adds or changes the entry of another. -/
theorem lookup_store_of_ne (different : jti ≠ other)
    (found : (cache.store settings other revoked now).entries.lookup jti = some entry) :
    cache.entries.lookup jti = some entry := by
  unfold store at found
  rw [AList.lookup_insert_ne different] at found
  split at found
  · exact lookup_sweep (lookup_evictOne found)
  · exact lookup_sweep found

/-- A cache that holds a jti only as revoked never answers that it is active. -/
theorem probe_ne_false (cached : ∀ entry, cache.entries.lookup jti = some entry → entry.revoked) :
    cache.probe jti now ≠ some false := by
  unfold probe
  split
  next entry found =>
    rw [cached entry found]
    split <;> nofun
  · nofun

end Tempogate.Keys.DenylistCache

namespace Tempogate.Admin

open Foundation Oidc Keys Registry DenylistCache

/-- The jti is denylisted, and the cache does not hold it as active. -/
structure Barred (jti : String) (state : AdminState) : Prop where
  stored : state.registry.isRevoked jti = true
  cached : ∀ entry, state.cache.entries.lookup jti = some entry → entry.revoked

/-- The jti stays in the denylist and no lookup memoizes it as active. -/
structure Undisturbed (jti : String) (before : Operations) (event : Event adminCalls) : Prop where
  kept : ∀ rowids, event.effect = .deleteDenylist rowids →
    ∀ entry ∈ before.store.registry.denylist.entries, entry.row.jti = jti → entry.rowid ∉ rowids
  timely : ∀ moment, event.effect ≠ .store jti false moment

section Registry

variable {registry : Registry} {jti : String}

theorem Registry.isRevoked_iff :
    registry.isRevoked jti = true ↔ ∃ entry ∈ registry.denylist.entries, entry.row.jti = jti := by
  simp [isRevoked, Table.rows]

/-- Saving a key leaves the denylist alone. -/
theorem Registry.denylist_saveIntegrationKey (key : IntegrationKey) :
    (registry.saveIntegrationKey key).2.denylist = registry.denylist := by
  unfold saveIntegrationKey
  split
  · split <;> rfl
  · rfl

/-- A revocation only adds to the denylist. -/
theorem Registry.mem_denylist_markRevoked {entry : Entry DenylistRow} (id : String)
    (moment : Time) (present : entry ∈ registry.denylist.entries) :
    entry ∈ (registry.markIntegrationKeyRevoked id moment).2.denylist.entries := by
  unfold markIntegrationKeyRevoked
  split
  · exact present
  · exact Table.mem_entries_insert _ present

end Registry

/-- Only a delete that names its rowid removes an entry from the denylist. -/
theorem Happens.mem_denylist {state after : AdminState} {call : AdminCall} {answer : call.Answer}
    {entry : Entry DenylistRow} (happens : Happens settings ticks state call answer after)
    (kept : ∀ rowids, call = .deleteDenylist rowids → entry.rowid ∉ rowids)
    (present : entry ∈ state.registry.denylist.entries) :
    entry ∈ after.registry.denylist.entries := by
  cases happens with
  | saved =>
    rw [denylist_saveIntegrationKey]
    exact present
  | marked => exact mem_denylist_markRevoked _ _ present
  | @deleted rowids => exact List.mem_filter.mpr ⟨present, decide_eq_true (kept rowids rfl)⟩
  | _ => exact present

section Run

variable {settings : DenylistSettings} {ticks : Time → Time → Prop} {before after : Operations}
  {event : Event adminCalls} {jti : String}

/-- A jti that no statement deletes stays in the denylist. -/
theorem isRevoked_step (move : Step (world settings ticks) before event after)
    (kept : ∀ rowids, event.effect = .deleteDenylist rowids →
      ∀ entry ∈ before.store.registry.denylist.entries, entry.row.jti = jti → entry.rowid ∉ rowids)
    (stored : before.store.registry.isRevoked jti = true) :
    after.store.registry.isRevoked jti = true := by
  obtain ⟨entry, present, same⟩ := isRevoked_iff.mp stored
  refine isRevoked_iff.mpr ⟨entry, ?_, same⟩
  exact Happens.mem_denylist move.happens
    (fun rowids deletes => kept rowids deletes entry present same) present

/-- A step that leaves the jti undisturbed leaves it barred. -/
theorem Barred.step (barred : Barred jti before.store) (undisturbed : Undisturbed jti before event)
    (move : Step (world settings ticks) before event after) : Barred jti after.store := by
  refine ⟨isRevoked_step move undisturbed.kept barred.stored, ?_⟩
  have happens := move.happens
  have timely := undisturbed.timely
  obtain ⟨process, effect, answer⟩ := event
  generalize after.store = state at happens ⊢
  cases happens with
  | @stored memoized revoked moment order visits =>
    intro entry found
    by_cases same : jti = memoized
    · subst same
      have isRevoked : revoked = true := by
        cases revoked with
        | true => rfl
        | false => exact absurd rfl (timely moment)
      rw [AdminState.remember, lookup_store_self] at found
      cases found
      exact isRevoked
    · have known := lookup_store_of_ne same found
      have unmoved : order.lookup jti = before.store.cache.entries.lookup jti :=
        AList.perm_lookup visits
      exact barred.cached entry (unmoved ▸ known)
  | _ => exact barred.cached

/-- The write of a hydration bars a jti that is in the denylist. -/
theorem Barred.of_hydrate (stored : before.store.registry.isRevoked jti = true)
    (move : Step (world settings ticks) before ⟨process, .store jti true moment, ()⟩ after) :
    Barred jti after.store := by
  refine ⟨isRevoked_step move nofun stored, ?_⟩
  have happens := move.happens
  generalize after.store = state at happens ⊢
  cases happens with
  | stored visits =>
    intro entry found
    rw [AdminState.remember, lookup_store_self] at found
    cases found
    rfl

end Run

/-- These are the answers that a lookup of the jti receives. -/
inductive Reply
  | cached (jti : String) (revoked : Bool)
  | looked (jti : String) (revoked : Bool)
  | nothing

def observeReplies : Observer adminCalls Reply
  | .probe jti, answer => match answer with
    | some revoked => .cached jti revoked
    | none => .nothing
  | .isRevoked jti, answer => match answer with
    | .ok revoked => .looked jti revoked
    | .error _ => .nothing
  | _, _ => .nothing

/-- Nobody answers that the jti is active. -/
def barredProtocol (jti : String) : Protocol Reply Unit where
  assumes _ reply := reply ≠ .cached jti false ∧ reply ≠ .looked jti false
  permits _ _ := True
  advance _ _ := ()

/-- A lookup reports the jti as active only after such an answer. -/
theorem isRevoked_meets (service : Service) (checker : service.cache.checker = true)
    (jti : String) :
    ((AdminTask.isRevoked jti).program service).Meets (barredProtocol jti) observeReplies
      (fun _ outcome => outcome ≠ .looked jti (.ok false)) () := by
  intro cached assumed
  refine ⟨trivial, ?_⟩
  cases cached with
  | some revoked =>
    rintro ⟨rfl⟩
    exact assumed.1 rfl
  | none =>
    rw [checker]
    intro answer assumed
    refine ⟨trivial, ?_⟩
    cases answer with
    | error cause => exact nofun
    | ok revoked =>
      refine fun moment _ => ⟨trivial, fun _ _ => ⟨trivial, ?_⟩⟩
      rintro ⟨rfl⟩
      exact assumed.2 rfl

/-- A barred jti is never answered as active. -/
theorem Barred.answers {before after : Operations} {event : Event adminCalls}
    (barred : Barred jti before.store) (move : Step (world settings ticks) before event after) :
    observeReplies event.effect event.answer ≠ .cached jti false ∧
      observeReplies event.effect event.answer ≠ .looked jti false := by
  have happens := move.happens
  obtain ⟨process, effect, answer⟩ := event
  generalize after.store = state at happens
  cases effect with
  | probe probed =>
    obtain ⟨moment, same⟩ : ∃ moment, answer = before.store.cache.probe probed moment := by
      cases happens
      exact ⟨_, rfl⟩
    cases answer with
    | none => exact ⟨nofun, nofun⟩
    | some revoked =>
      refine ⟨?_, nofun⟩
      rintro ⟨rfl⟩
      exact probe_ne_false barred.cached same.symm
  | isRevoked looked =>
    have replied : (∃ cause, answer = .error cause) ∨
        answer = .ok (before.store.registry.isRevoked looked) := by
      cases happens
      · exact .inr rfl
      · exact .inl ⟨_, rfl⟩
    cases answer with
    | error cause => exact ⟨nofun, nofun⟩
    | ok revoked =>
      refine ⟨nofun, ?_⟩
      rintro ⟨rfl⟩
      obtain ⟨cause, failed⟩ | answered := replied
      · cases failed
      · rw [barred.stored] at answered
        cases answered
  | _ => exact ⟨nofun, nofun⟩

/-- In every interleaving, once a hydration has memoized a jti that is in the denylist, no lookup
that starts later reports it as active, while the jti stays in the denylist and no earlier lookup
memoizes it as active. -/
theorem hydrated_jti_stays_revoked (service : Service) (ticks : Time → Time → Prop)
    (checker : service.cache.checker = true)
    {before hydrated later : Operations} {process reader : Nat} {jti : String} {moment : Time}
    (committed : before.store.registry.isRevoked jti = true)
    (hydrate : Step (world service.cache ticks) before ⟨process, .store jti true moment, ()⟩
      hydrated)
    (begins : hydrated.processes reader = (AdminTask.isRevoked jti).program service)
    (onward : Reaches (world service.cache ticks) (Undisturbed jti) hydrated later) :
    later.processes reader ≠ .done (.looked jti (.ok false)) := by
  obtain ⟨-, _, reads⟩ := onward.watch (fun current => Barred jti current.store)
    (Barred.of_hydrate committed hydrate) (begins ▸ isRevoked_meets service checker jti)
    fun before event after barred undisturbed move =>
      ⟨barred.step undisturbed move, fun _ _ => barred.answers move⟩
  intro answered
  rw [answered] at reads
  exact reads rfl

section Sample

/-- The sample service hydrates the cache after a revocation. -/
def sampleService : Service where
  handlers := {
    signer := ⟨"", ""⟩, hydrator := true, systemGrants := false, maxTTL := 60 * minute,
    maxTTLText := "1h0m0s" }
  cache := { checker := true, ttl := 30, maxEntries := 2 }

def sampleIntegrationKey : IntegrationKey where
  id := "key"
  namespaceName := "orders"
  role := "read"
  owner := "owner"
  jti := "jti"
  createdAt := 0
  expiresAt := some 100
  revokedAt := none

/-- One integration key is stored and the cache is empty. -/
def sampleAdmin : AdminState where
  registry := ⟨⟨[⟨1, sampleIntegrationKey⟩], by decide, by decide⟩, .empty, by decide⟩
  cache := .empty
  clock := 5

def sampleAdminScript : AdminScript where
  now _ _ := 5
  newID _ := "id"
  newJTI _ := "fresh"
  kid := "kid"
  named _ := by decide

/-- One request revokes the key and the others look its jti up. -/
def sampleLookups : Nat → AdminTask
  | 0 => .isRevoked "jti"
  | 1 => .delete "key"
  | _ => .isRevoked "jti"

def sampleLooking (order : List Nat) : Operations :=
  (operations sampleService sampleAdmin sampleLookups).turns
    (executor sampleService.cache sampleAdminScript) order

/-- The first lookup asks the store before the revocation and memoizes its answer after the
hydration. The second lookup starts when the revocation has returned. -/
theorem stale_lookup_hides_revocation : Reaches (world sampleService.cache (· ≤ ·)) anyStep
      (operations sampleService sampleAdmin sampleLookups) (sampleLooking [0, 0, 1, 1, 1, 1]) ∧
    (sampleLooking [0, 0, 1, 1, 1, 1]).processes 1 = .done (.deleted "key" (.ok ())) ∧
    (sampleLooking [0, 0, 1, 1, 1, 1]).processes 2 =
      (AdminTask.isRevoked "jti").program sampleService ∧
    Reaches (world sampleService.cache (· ≤ ·)) anyStep (sampleLooking [0, 0, 1, 1, 1, 1])
      (sampleLooking [0, 0, 1, 1, 1, 1, 0, 0, 2]) ∧
    (sampleLooking [0, 0, 1, 1, 1, 1, 0, 0, 2]).store.registry.isRevoked "jti" = true ∧
    (sampleLooking [0, 0, 1, 1, 1, 1, 0, 0, 2]).processes 2 =
      .done (.looked "jti" (.ok false)) := by
  refine ⟨?_, rfl, rfl, ?_, by decide, rfl⟩
  · exact (lawful_of_still _ sampleAdminScript (fun _ _ => rfl) (le_refl _) _).reaches
  · exact (lawful_of_still _ sampleAdminScript (fun _ _ => rfl) (le_refl (5 : Time))
      [0, 0, 2]).reaches

/-- A lookup that starts after the hydration answers from the cache. -/
theorem sampleLookup_undisturbed :
    (sampleLooking [1, 1, 1, 1]).Lawful (world sampleService.cache (· ≤ ·)) (Undisturbed "jti")
      (executor sampleService.cache sampleAdminScript) [2] :=
  ⟨⟨⟨nofun, nofun⟩, .probed (le_refl _)⟩, trivial⟩

/-- The revocation is hydrated before the lookup starts, and the lookup reports it. -/
theorem hydrated_jti_stays_revoked_sample :
    (sampleLooking [1, 1, 1, 1, 2]).processes 2 = .done (.looked "jti" (.ok true)) ∧
    (sampleLooking [1, 1, 1, 1, 2]).processes 2 ≠ .done (.looked "jti" (.ok false)) := by
  have hydrate : Step (world sampleService.cache (· ≤ ·)) (sampleLooking [1, 1, 1])
      ⟨1, .store "jti" true 5, ()⟩ (sampleLooking [1, 1, 1, 1]) :=
    Configuration.turn_step rfl (executor_follows _ _ sampleAdminScript _ _ _ _ (le_refl _))
  constructor
  · rfl
  · exact hydrated_jti_stays_revoked sampleService (· ≤ ·) rfl (by decide) hydrate rfl
      sampleLookup_undisturbed.reaches

end Sample

end Tempogate.Admin
