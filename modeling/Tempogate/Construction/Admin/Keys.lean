/-
This file defines the stored integration keys, the handlers on them and their listing.
-/

import Mathlib.Algebra.Group.Int.Defs
import Mathlib.Data.String.Basic
import Tempogate.Construction.Keys.Denylist
import Tempogate.Construction.State.Loops
import Tempogate.Foundation.Concurrent
import Tempogate.Foundation.Table

namespace Tempogate.Admin

open Foundation Oidc Keys

open Perms (Grant PermsError roleWorker systemNamespace)

structure IntegrationKey where
  id : String
  namespaceName : String
  role : Perms.Role
  owner : String
  jti : String
  createdAt : Time
  expiresAt : Option Time
  revokedAt : Option Time
  deriving DecidableEq, Repr

def IntegrationKey.revoke (moment : Time) (key : IntegrationKey) : IntegrationKey :=
  { key with revokedAt := some moment }

theorem IntegrationKey.revoke_id (moment : Time) (key : IntegrationKey) :
    (key.revoke moment).id = key.id := rfl

structure DenylistRow where
  jti : String
  revokedAt : Time
  deriving DecidableEq, Repr

/-- No two integration keys share a jti. -/
structure Registry where
  integrationKeys : Table IntegrationKey.id
  denylist : Table DenylistRow.jti
  unique : (integrationKeys.rows.map IntegrationKey.jti).Nodup

inductive RegistryError
  | integrationKeyNotFound (id : String)
  | failure (message : String)
  deriving DecidableEq, Repr

def RegistryError.text : RegistryError → String
  | .integrationKeyNotFound id => "admin: integration key not found: " ++ id
  | .failure message => message

namespace Registry

def empty : Registry := ⟨.empty, .empty, List.nodup_nil⟩

/-- An INSERT of a key whose jti is new keeps the jtis distinct. -/
def withKey (registry : Registry) (key : IntegrationKey)
    (newID : key.id ∉ registry.integrationKeys.rows.map IntegrationKey.id)
    (newJTI : key.jti ∉ registry.integrationKeys.rows.map IntegrationKey.jti) : Registry where
  integrationKeys := registry.integrationKeys.append key newID
  denylist := registry.denylist
  unique := by
    rw [Table.rows_append, List.map_append]
    refine List.nodup_append.mpr ⟨registry.unique, List.nodup_singleton _, ?_⟩
    rintro stored member new isNew rfl
    rw [List.mem_singleton.mp isNew] at member
    exact newJTI member

def saveIntegrationKey (key : IntegrationKey) (registry : Registry) :
    Except RegistryError Unit × Registry :=
  if newID : key.id ∉ registry.integrationKeys.rows.map IntegrationKey.id then
    if newJTI : key.jti ∉ registry.integrationKeys.rows.map IntegrationKey.jti then
      (.ok (), registry.withKey key newID newJTI)
    else (.error (.failure "sqlite: save integration key: jti is not unique"), registry)
  else (.error (.failure "sqlite: save integration key: id is not unique"), registry)

/-- The update stamps only a key that is not revoked yet. -/
def stampable (id : String) (key : IntegrationKey) : Bool :=
  key.id = id && key.revokedAt.isNone

/-- One transaction stamps the key and writes its jti into the denylist, which may hold it. -/
def withRevoked (registry : Registry) (id jti : String) (moment : Time) : Registry where
  integrationKeys :=
    registry.integrationKeys.update (stampable id) (IntegrationKey.revoke moment)
      (IntegrationKey.revoke_id moment)
  denylist := (registry.denylist.insert ⟨jti, moment⟩).getD registry.denylist
  unique := by
    have same : ∀ key : IntegrationKey, (if stampable id key then
        IntegrationKey.revoke moment key else key).jti = key.jti := by
      intro key
      split <;> rfl
    rw [Table.rows_update, List.map_map]
    simp only [Function.comp_def, same]
    exact registry.unique

def markIntegrationKeyRevoked (id : String) (moment : Time) (registry : Registry) :
    Except RegistryError String × Registry :=
  match registry.integrationKeys.rows.find? fun key => key.id = id with
  | none => (.error (.integrationKeyNotFound id), registry)
  | some key => (.ok key.jti, registry.withRevoked id key.jti moment)

def isRevoked (jti : String) (registry : Registry) : Bool :=
  registry.denylist.rows.any fun row => row.jti = jti

/-- The page joins each denylist row with the key that has its jti and an expiry. -/
def selectDenylistPage (cursor limit : Nat) (registry : Registry) : List (Nat × Time) :=
  ((registry.denylist.entries.filter fun entry => cursor < entry.rowid).flatMap fun entry =>
    (registry.integrationKeys.rows.filter fun key => key.jti = entry.row.jti).filterMap fun key =>
      key.expiresAt.map fun expiresAt => (entry.rowid, expiresAt)).take limit

def deleteDenylist (rowids : List Nat) (registry : Registry) : Nat × Registry :=
  (registry.denylist.entries.countP fun entry => entry.rowid ∈ rowids,
    { registry with denylist := registry.denylist.deleteRowids rowids })

end Registry

/-- These are the steps of the handlers, the denylist cache, the verifier and the reaper.
The signer reads its clock by a call of its own. -/
inductive AdminCall
  | now
  | tokenNow
  | newID
  | newJTI
  | latest
  | save (key : IntegrationKey)
  | markRevoked (id : String) (moment : Time)
  | isRevoked (jti : String)
  | probe (jti : String)
  | store (jti : String) (revoked : Bool) (moment : Time)
  | verify (verifier : Verifier) (token : AccessToken)
  | selectDenylistPage (cursor limit : Nat)
  | deleteDenylist (rowids : List Nat)

def AdminCall.Answer : AdminCall → Type
  | .now | .tokenNow => Time
  | .newID | .newJTI | .latest => Except String String
  | .save _ => Except RegistryError Unit
  | .markRevoked _ _ => Except RegistryError String
  | .isRevoked _ => Except String Bool
  | .probe _ => Option Bool
  | .store _ _ _ => Unit
  | .verify _ _ => Except VerifyError AccessToken
  | .selectDenylistPage _ _ => Except String (List (Nat × Time))
  | .deleteDenylist _ => Except String Nat

def adminCalls : Signature := ⟨AdminCall, AdminCall.Answer⟩

abbrev Operation (Result : Type) : Type := Program adminCalls Result

def step (call : AdminCall) : Operation call.Answer := @Program.call adminCalls call

/-- The handlers answer with one of these statuses. -/
inductive AdminError
  | unprocessable (message : String)
  | badRequest (message : String)
  | forbidden (message : String)
  | notFound (message : String)
  | failure (message : String)
  deriving DecidableEq, Repr

structure Signer where
  issuer : String
  audience : String

/-- The text of the longest lifetime stands in an error message. -/
structure Handlers where
  signer : Signer
  hydrator : Bool
  systemGrants : Bool
  maxTTL : Time
  maxTTLText : String

structure CreateRequest where
  namespaceName : String
  role : Perms.Role
  owner : String
  expiresAt : Option Time
  deriving DecidableEq, Repr

structure CreateResponse where
  id : String
  jwt : AccessToken
  expiresAt : Option Time
  deriving DecidableEq, Repr

/-- A worker key would authorize nothing. -/
def CreateRequest.validate (request : CreateRequest) : Except AdminError Unit :=
  if request.namespaceName = "" then .error (.badRequest "admin: namespace is required")
  else if request.owner = "" then .error (.badRequest "admin: owner is required")
  else if !request.role.valid then .error (.badRequest ("admin: " ++ PermsError.invalidRole.text))
  else if request.role = roleWorker then
    .error (.unprocessable ("admin: " ++ PermsError.workerRole.text))
  else .ok ()

/-- The difference of two instants saturates at the range of a duration. -/
def sub (later earlier : Time) : Time :=
  max (-2 ^ 63) (min (2 ^ 63 - 1) (later - earlier))

def Signer.mint (signer : Signer) (request : MintRequest) :
    Operation (Except String (AccessToken × String)) := do
  let minted ← mintWith id signer.issuer signer.audience (step .newJTI) (step .tokenNow)
    (step .latest) request
  return minted.map fun token => (token, token.jti)

def CreateRequest.grant (request : CreateRequest) : Grant :=
  .new [⟨request.namespaceName, request.role⟩]

variable (handlers : Handlers)

/-- The expiry of a new key must lie in the future and within the longest lifetime. -/
def Handlers.lifetime (expiresAt : Option Time) (now : Time) : Except AdminError (Time × Time) :=
  match expiresAt with
  | none => .error (.badRequest "expires_at is required")
  | some expiresAt =>
    let ttl := sub expiresAt now
    if ttl ≤ 0 then .error (.badRequest "expires_at must be in the future")
    else if ttl > handlers.maxTTL then
      .error (.badRequest ("expires_at must be at most " ++ handlers.maxTTLText ++
        " from now (ADMIN_KEYS_MAX_TTL)"))
    else .ok (expiresAt, ttl)

def Handlers.mint (handlers : Handlers) (request : CreateRequest) :
    Operation (Except AdminError CreateResponse) := do
  match request.validate with
  | .error error => return .error error
  | .ok () =>
  if request.namespaceName = systemNamespace && !handlers.systemGrants then
    return .error (.forbidden (systemNamespace ++
      " grants are cluster-wide and disabled; set ADMIN_ALLOW_SYSTEM_GRANTS=true to allow them"))
  let drawn : Except String String ← step .newID
  match drawn with
  | .error cause => return .error (.failure ("admin: generate id: " ++ cause))
  | .ok id =>
  let now : Time ← step .now
  match handlers.lifetime request.expiresAt now with
  | .error error => return .error error
  | .ok (expiresAt, ttl) =>
  match ← handlers.signer.mint ⟨request.owner, request.grant.toClaim, ttl, "", "", ""⟩ with
  | .error cause => return .error (.failure ("admin: mint jwt: " ++ cause))
  | .ok (signed, jti) =>
  let saved : Except RegistryError Unit ← step (.save {
    id := id, namespaceName := request.namespaceName, role := request.role, owner := request.owner,
    jti := jti, createdAt := now, expiresAt := some expiresAt, revokedAt := none })
  match saved with
  | .error error => return .error (.failure ("admin: save integration key: " ++ error.text))
  | .ok () => return .ok ⟨id, signed, some expiresAt⟩

/-- An empty jti is never memoized. -/
def hydrate (jti : String) : Operation Unit := do
  if jti = "" then
    return ()
  let moment : Time ← step .now
  step (.store jti true moment)

/-- A fresh entry answers at once. Otherwise the store does and the cache remembers it. -/
def isRevoked (settings : DenylistSettings) (jti : String) : Operation (Except String Bool) := do
  let cached : Option Bool ← step (.probe jti)
  match cached with
  | some revoked => return .ok revoked
  | none =>
  if !settings.checker then
    return .ok false
  let answer : Except String Bool ← step (.isRevoked jti)
  match answer with
  | .error cause => return .error cause
  | .ok revoked =>
  let moment : Time ← step .now
  step (.store jti revoked moment)
  return .ok revoked

def Handlers.revoke (id : String) : Operation (Except RegistryError String) := do
  let moment : Time ← step .now
  let marked : Except RegistryError String ← step (.markRevoked id moment)
  match marked with
  | .error error => return .error error
  | .ok jti =>
  if handlers.hydrator then
    hydrate jti
  return .ok jti

def Handlers.delete (id : String) : Operation (Except AdminError Unit) := do
  match ← handlers.revoke id with
  | .ok _ => return .ok ()
  | .error (.integrationKeyNotFound _) => return .error (.notFound "integration key not found")
  | .error (.failure message) =>
    return .error (.failure ("admin: revoke integration key: " ++ message))

def denylistGrace : Time := 60 * minute

/-- A bound on the pages makes the page loop total. -/
structure Reaper where
  batch : Nat
  positive : 0 < batch
  pages : Nat

namespace Reaper

/-- The rows of keys that expired more than the grace ago are deleted. -/
def reapDenylist (reaper : Reaper) (now : Time) : Operation (Nat × Option String) :=
  State.walk reaper.batch (fun cursor limit => step (.selectDenylistPage cursor limit))
    (fun expiresAt => now > expiresAt + denylistGrace) (fun rowids => step (.deleteDenylist rowids))
    reaper.pages 0 0

/-- Each sweep reads the clock once. A failed sweep is retried at the next tick. -/
def run (reaper : Reaper) : Nat → Operation Unit
  | 0 => return ()
  | sweeps + 1 => do
      let now : Time ← step .now
      let _ ← reaper.reapDenylist now
      reaper.run sweeps

end Reaper

inductive AdminTask
  | create (request : CreateRequest)
  | delete (id : String)
  | isRevoked (jti : String)
  | hydrate (jti : String)
  | verify (verifier : Verifier) (token : AccessToken)
  | reap (reaper : Reaper) (sweeps : Nat)

inductive AdminOutcome
  | created (result : Except AdminError CreateResponse)
  | deleted (id : String) (result : Except AdminError Unit)
  | looked (jti : String) (result : Except String Bool)
  | hydrated (jti : String)
  | verified (token : AccessToken) (result : Except VerifyError AccessToken)
  | reaped

/-- The cache has these settings, whoever uses it. -/
structure Service where
  handlers : Handlers
  cache : DenylistSettings

def AdminTask.program (service : Service) : AdminTask → Operation AdminOutcome
  | .create request => do return .created (← service.handlers.mint request)
  | .delete id => do return .deleted id (← service.handlers.delete id)
  | .isRevoked jti => do return .looked jti (← Admin.isRevoked service.cache jti)
  | .hydrate jti => do
      Admin.hydrate jti
      return .hydrated jti
  | .verify verifier token => do return .verified token (← step (.verify verifier token))
  | .reap reaper sweeps => do
      reaper.run sweeps
      return .reaped

structure AdminState where
  registry : Registry
  cache : DenylistCache
  clock : Time

/-- A map iteration visits the entries of the cache in some order. -/
def AdminState.remember (state : AdminState) (settings : DenylistSettings)
    (order : AList fun _ : String => CacheEntry) (jti : String) (revoked : Bool)
    (moment : Time) : AdminState :=
  { state with
    cache := { state.cache with entries := order }.store settings jti revoked moment }

/-- Each step is atomic. A statement may fail and then changes nothing. A verification reads the
clock and the denylist in one step. Published keys and signatures are left open. -/
inductive Happens (settings : DenylistSettings) (ticks : Time → Time → Prop)
    (state : AdminState) : (call : AdminCall) → call.Answer → AdminState → Prop
  | now {moment : Time} (later : ticks state.clock moment) :
      Happens settings ticks state .now moment { state with clock := moment }
  | tokenNow {moment : Time} (later : ticks state.clock moment) :
      Happens settings ticks state .tokenNow moment { state with clock := moment }
  | newID {answer : Except String String} : Happens settings ticks state .newID answer state
  | newJTI {answer : Except String String} (named : ∀ jti, answer = .ok jti → jti ≠ "") :
      Happens settings ticks state .newJTI answer state
  | latest {answer : Except String String} : Happens settings ticks state .latest answer state
  | saved {key : IntegrationKey} :
      Happens settings ticks state (.save key) (state.registry.saveIntegrationKey key).1
        { state with registry := (state.registry.saveIntegrationKey key).2 }
  | saveFailed {key : IntegrationKey} {message : String} :
      Happens settings ticks state (.save key) (.error (.failure message)) state
  | marked {id : String} {moment : Time} : Happens settings ticks state (.markRevoked id moment)
        (state.registry.markIntegrationKeyRevoked id moment).1
        { state with registry := (state.registry.markIntegrationKeyRevoked id moment).2 }
  | markFailed {id : String} {moment : Time} {message : String} :
      Happens settings ticks state (.markRevoked id moment) (.error (.failure message)) state
  | looked {jti : String} :
      Happens settings ticks state (.isRevoked jti) (.ok (state.registry.isRevoked jti)) state
  | lookFailed {jti cause : String} :
      Happens settings ticks state (.isRevoked jti) (.error cause) state
  | probed {jti : String} {moment : Time} (later : ticks state.clock moment) :
      Happens settings ticks state (.probe jti) (state.cache.probe jti moment)
        { state with clock := moment }
  | stored {jti : String} {revoked : Bool} {moment : Time}
      {order : AList fun _ : String => CacheEntry}
      (visits : order.entries.Perm state.cache.entries.entries) :
      Happens settings ticks state (.store jti revoked moment) ()
        (state.remember settings order jti revoked moment)
  -- A verification is one operation at one time.
  | verified {verifier : Verifier} {token : AccessToken} {published : Bool}
      {signed : AccessToken → Bool} {moment : Time} (later : ticks state.clock moment) :
      Happens settings ticks state (.verify verifier token)
        (verifier.verify published signed moment (fun jti => .ok (state.registry.isRevoked jti))
          token)
        { state with clock := moment }
  | verifyFailed {verifier : Verifier} {token : AccessToken} {published : Bool}
      {signed : AccessToken → Bool} {moment : Time} {cause : String}
      (later : ticks state.clock moment) :
      Happens settings ticks state (.verify verifier token)
        (verifier.verify published signed moment (fun _ => .error cause) token)
        { state with clock := moment }
  | selected {cursor limit : Nat} : Happens settings ticks state (.selectDenylistPage cursor limit)
        (.ok (state.registry.selectDenylistPage cursor limit)) state
  | selectFailed {cursor limit : Nat} {cause : String} :
      Happens settings ticks state (.selectDenylistPage cursor limit) (.error cause) state
  | deleted {rowids : List Nat} : Happens settings ticks state (.deleteDenylist rowids)
        (.ok (state.registry.deleteDenylist rowids).1)
        { state with registry := (state.registry.deleteDenylist rowids).2 }
  | deleteFailed {rowids : List Nat} {cause : String} :
      Happens settings ticks state (.deleteDenylist rowids) (.error cause) state

variable (settings : DenylistSettings)

variable (ticks : Time → Time → Prop)

def world : World adminCalls AdminState :=
  fun _ state event after => Happens settings ticks state event.effect event.answer after

abbrev Operations : Type := Configuration adminCalls AdminState AdminOutcome

/-- Every task is about to begin. -/
def operations (service : Service) (start : AdminState) (tasks : Nat → AdminTask) : Operations :=
  .initial start fun process => (tasks process).program service

/-- The script answers the clocks, the random source and the signing key. -/
structure AdminScript where
  now : List (Event adminCalls) → Nat → Time
  newID : Nat → String
  newJTI : Nat → String
  kid : String
  named : ∀ process, newJTI process ≠ ""

variable (script : AdminScript)

/-- This executor never fails a statement and trusts every signature. -/
def executor : Executor adminCalls AdminState := fun log state process effect =>
  let moment := script.now log process
  match effect with
  | .now => (moment, { state with clock := moment })
  | .tokenNow => (moment, { state with clock := moment })
  | .newID => (.ok (script.newID process), state)
  | .newJTI => (.ok (script.newJTI process), state)
  | .latest => (.ok script.kid, state)
  | .save key => ((state.registry.saveIntegrationKey key).1,
      { state with registry := (state.registry.saveIntegrationKey key).2 })
  | .markRevoked id stamp => ((state.registry.markIntegrationKeyRevoked id stamp).1,
      { state with registry := (state.registry.markIntegrationKeyRevoked id stamp).2 })
  | .isRevoked jti => (.ok (state.registry.isRevoked jti), state)
  | .probe jti => (state.cache.probe jti moment, { state with clock := moment })
  | .store jti revoked stamp =>
    ((), state.remember settings state.cache.entries jti revoked stamp)
  | .verify verifier token =>
    (verifier.verify true (fun _ => true) moment
      (fun jti => .ok (state.registry.isRevoked jti)) token, { state with clock := moment })
  | .selectDenylistPage cursor limit =>
    (.ok (state.registry.selectDenylistPage cursor limit), state)
  | .deleteDenylist rowids => (.ok (state.registry.deleteDenylist rowids).1,
      { state with registry := (state.registry.deleteDenylist rowids).2 })

/-- The executor does what the world allows while the clock moves as it may. -/
theorem executor_follows (log : List (Event adminCalls)) (state : AdminState) (process : Nat)
    (effect : AdminCall) (later : ticks state.clock (script.now log process)) :
    world settings ticks log state
      ⟨process, effect, (executor settings script log state process effect).1⟩
      (executor settings script log state process effect).2 := by
  cases effect with
  | now => exact .now later
  | tokenNow => exact .tokenNow later
  | newID => exact .newID
  | newJTI =>
    refine .newJTI fun jti drawn => ?_
    cases drawn
    exact script.named process
  | latest => exact .latest
  | save key => exact .saved
  | markRevoked id moment => exact .marked
  | isRevoked jti => exact .looked
  | probe jti => exact .probed later
  | store jti revoked moment => exact .stored (List.Perm.refl _)
  | verify verifier token =>
    exact @Happens.verified settings ticks state verifier token true (fun _ => true) _ later
  | selectDenylistPage cursor limit => exact .selected
  | deleteDenylist rowids => exact .deleted

/-- A script whose clock stands still runs every order of turns. -/
theorem lawful_of_still {moment : Time} (still : ∀ log process, script.now log process = moment)
    {before : Operations} (reached : before.store.clock ≤ moment) (order : List Nat) :
    before.Lawful (world settings (· ≤ ·)) anyStep (executor settings script) order := by
  refine Configuration.lawful_of_invariant (fun state => state.clock ≤ moment)
    (fun log state process effect holds => ⟨?_, ?_⟩) reached order
  · exact executor_follows settings _ script log state process effect (still log process ▸ holds)
  · cases effect with
    | now | tokenNow | probe | verify => exact le_of_eq (still log process)
    | _ => exact holds

/-- An empty owner, namespace or cursor does not filter. -/
structure ListFilter where
  owner : String
  namespaceName : String
  limit : Int
  cursor : String
  deriving DecidableEq, Repr

/-- The stores and the handler have the same default. -/
def defaultListLimit : Int := 50

def maxListLimit : Int := 200

variable (filter : ListFilter)

/-- The owner and the namespace of a key pass the filter. -/
def ListFilter.selects (key : IntegrationKey) : Bool :=
  (filter.owner = "" || key.owner = filter.owner) &&
    (filter.namespaceName = "" || key.namespaceName = filter.namespaceName)

variable (rows : List IntegrationKey)

/-- The query orders the ids bytewise and asks for one row more than the limit. -/
def selectKeys : List IntegrationKey :=
  let limit := if filter.limit ≤ 0 then defaultListLimit else filter.limit
  ((rows.filter fun key => filter.selects key &&
      (filter.cursor = "" || key.id < filter.cursor)).insertionSort
    fun first second => second.id ≤ first.id).take (limit + 1).toNat

def Sqlite.listIntegrationKeys : Except String (List IntegrationKey) :=
  .ok (selectKeys filter rows)

def Postgres.listIntegrationKeys : Except String (List IntegrationKey) :=
  if ∀ text ∈ [filter.owner, filter.namespaceName, filter.cursor], Storable text then
    .ok (selectKeys filter rows)
  else .error ("postgres: list integration keys: " ++ invalidText)

/-- A view has no jti. -/
structure KeyView where
  id : String
  namespaceName : String
  role : String
  owner : String
  createdAt : Time
  expiresAt : Option Time
  revokedAt : Option Time
  deriving DecidableEq, Repr

def viewOf (key : IntegrationKey) : KeyView :=
  ⟨key.id, key.namespaceName, key.role, key.owner, key.createdAt, key.expiresAt, key.revokedAt⟩

structure ListInput where
  owner : String
  namespaceName : String
  limit : Int
  cursor : String
  deriving DecidableEq, Repr

structure ListBody where
  items : List KeyView
  nextCursor : String
  deriving DecidableEq, Repr

def clampLimit (limit : Int) : Int :=
  if limit ≤ 0 then defaultListLimit else if limit > maxListLimit then maxListLimit else limit

/-- The last row of a full page becomes the next cursor, and the row beyond it is dropped. -/
def listPage (limit : Int) (rows : List IntegrationKey) : ListBody :=
  if limit < rows.length then
    ⟨(rows.take limit.toNat).map viewOf, ((rows[(limit - 1).toNat]?).map IntegrationKey.id).getD ""⟩
  else ⟨rows.map viewOf, ""⟩

/-- The first parameter tells which texts parse as a UUID. -/
def list (isUUID : String → Bool)
    (registry : ListFilter → Except String (List IntegrationKey)) (input : ListInput) :
    Except AdminError ListBody :=
  let limit := clampLimit input.limit
  if input.cursor ≠ "" && !isUUID input.cursor then
    .error (.badRequest "cursor is not a valid id")
  else match registry ⟨input.owner, input.namespaceName, limit, input.cursor⟩ with
    | .error cause => .error (.failure ("admin: list integration keys: " ++ cause))
    | .ok rows => .ok (listPage limit rows)

end Tempogate.Admin
