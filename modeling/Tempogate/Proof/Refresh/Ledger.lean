/-
This file defines the ledger of refresh rows, what each change keeps true of a family, and shows
that the SQLite statements change the rows as the ledger does.
-/

import Tempogate.Construction.Oidc.Token
import Tempogate.Construction.Sqlite.Store

namespace Tempogate.State

open Oidc RefreshRow List

variable {statement : Statement}

/-- A later version of a row keeps its fields, and its two stamps are never cleared. -/
structure RefreshRow.Evolves (before after : RefreshRow) : Prop where
  fields : after = { before with consumedAt := after.consumedAt, revokedAt := after.revokedAt }
  consumed : before.consumedAt.isSome → after.consumedAt.isSome
  revoked : before.revokedAt.isSome → after.revokedAt.isSome

namespace RefreshRow.Evolves

variable {before after : RefreshRow}

variable (row : RefreshRow)

theorem refl : row.Evolves row := ⟨rfl, id, id⟩

theorem trans {middle : RefreshRow} (first : before.Evolves middle)
    (second : middle.Evolves after) : before.Evolves after where
  fields := by
    rw [second.fields, first.fields]
  consumed := second.consumed ∘ first.consumed
  revoked := second.revoked ∘ first.revoked

theorem consume (moment : Time) : row.Evolves (row.consume moment) :=
  ⟨rfl, fun _ => rfl, id⟩

theorem revoke (moment : Time) : row.Evolves (row.revoke moment) :=
  ⟨rfl, id, fun _ => rfl⟩

section

variable (evolves : before.Evolves after)

include evolves

theorem tokenHash_eq : after.tokenHash = before.tokenHash := by
  rw [evolves.fields]

theorem familyID_eq : after.familyID = before.familyID := by
  rw [evolves.fields]

theorem clientID_eq : after.clientID = before.clientID := by
  rw [evolves.fields]

/-- A row that is no longer live stays so. -/
theorem live_of_live (live : after.live) : before.live := by
  have consumed := evolves.consumed
  have revoked := evolves.revoked
  simp only [RefreshRow.live, Bool.and_eq_true, Option.isNone_iff_eq_none] at live ⊢
  rw [live.2] at revoked
  constructor
  · cases stamp : before.consumedAt <;> simp_all
  · cases stamp : before.revokedAt <;> simp_all

end

end RefreshRow.Evolves

/-- The rows of a family belong to one client and one person. -/
structure RefreshRow.SameOwner (first second : RefreshRow) : Prop where
  client : first.clientID = second.clientID
  connector : first.connectorID = second.connectorID
  subject : first.subject = second.subject
  email : first.email = second.email

/-- A selector cannot tell rows of one owner and one family apart. -/
theorem Selector.selects_congr (selector : Selector) {first second : RefreshRow}
    (family : first.familyID = second.familyID) (owner : first.SameOwner second) :
    selector.selects first = selector.selects second := by
  cases selector <;> simp [selects, family, owner.connector, owner.subject, owner.email]

/-- These are the changes a store makes to its refresh rows. -/
inductive LedgerAction
  | keep
  | append (row : RefreshRow)
  | consume (tokenHash clientID : String) (moment : Time)
  | revoke (selector : Selector) (moment : Time)
  | purge (families : List String)

namespace LedgerAction

def consumes (tokenHash clientID : String) (row : RefreshRow) : Bool :=
  row.tokenHash = tokenHash && row.clientID = clientID && row.live

def revokes (selector : Selector) (row : RefreshRow) : Bool :=
  selector.selects row && row.revokedAt.isNone

def apply : LedgerAction → List RefreshRow → List RefreshRow
  | keep, rows => rows
  | append row, rows => rows ++ [row]
  | consume tokenHash clientID moment, rows =>
    rows.map fun row => if consumes tokenHash clientID row then row.consume moment else row
  | revoke selector moment, rows =>
    rows.map fun row => if revokes selector row then row.revoke moment else row
  | purge families, rows => rows.filter fun row => row.familyID ∉ families

/-- A row is appended live, and only to a family with no revoked row. -/
def Legal (rows : List RefreshRow) : LedgerAction → Prop
  | append row => row.consumedAt = none ∧ row.revokedAt = none ∧
      ∀ stored ∈ rows, stored.familyID = row.familyID → stored.revokedAt = none
  | _ => True

/-- Only a purge removes rows. -/
def Keeps (familyID : String) : LedgerAction → Prop
  | purge families => familyID ∉ families
  | _ => True

variable {action : LedgerAction} {rows : List RefreshRow}

/-- Every row after a change is the appended row or a later version of an earlier row. -/
theorem exists_of_mem_apply {row : RefreshRow} (present : row ∈ action.apply rows) :
    action = append row ∨ ∃ earlier ∈ rows, earlier.Evolves row := by
  cases action with
  | keep => exact .inr ⟨row, present, .refl row⟩
  | append new =>
    rcases mem_append.mp present with old | added
    · exact .inr ⟨row, old, .refl row⟩
    · exact .inl (by rw [mem_singleton.mp added])
  | consume tokenHash clientID moment =>
    obtain ⟨earlier, old, rfl⟩ := mem_map.mp present
    refine .inr ⟨earlier, old, ?_⟩
    split
    · exact .consume earlier moment
    · exact .refl earlier
  | revoke selector moment =>
    obtain ⟨earlier, old, rfl⟩ := mem_map.mp present
    refine .inr ⟨earlier, old, ?_⟩
    split
    · exact .revoke earlier moment
    · exact .refl earlier
  | purge families => exact .inr ⟨row, (mem_filter.mp present).1, .refl row⟩

/-- A row that is not purged has a later version after the change. -/
theorem exists_evolves {row : RefreshRow} (present : row ∈ rows)
    (kept : action.Keeps row.familyID) : ∃ later ∈ action.apply rows, row.Evolves later := by
  cases action with
  | keep => exact ⟨row, present, .refl row⟩
  | append new => exact ⟨row, mem_append_left _ present, .refl row⟩
  | consume tokenHash clientID moment =>
    refine ⟨_, mem_map_of_mem present, ?_⟩
    split
    · exact .consume row moment
    · exact .refl row
  | revoke selector moment =>
    refine ⟨_, mem_map_of_mem present, ?_⟩
    split
    · exact .revoke row moment
    · exact .refl row
  | purge families => exact ⟨row, mem_filter.mpr ⟨present, by simpa [Keeps] using kept⟩, .refl row⟩

end LedgerAction

/-- Some row of the family is revoked. -/
def FamilyRevoked (rows : List RefreshRow) (familyID : String) : Prop :=
  ∃ row ∈ rows, row.familyID = familyID ∧ row.revokedAt.isSome

instance (rows : List RefreshRow) (familyID : String) : Decidable (FamilyRevoked rows familyID) :=
  inferInstanceAs (Decidable (∃ row ∈ rows, _))

/-- No row of the family is live. -/
def FamilyDead (rows : List RefreshRow) (familyID : String) : Prop :=
  ∀ row ∈ rows, row.familyID = familyID → row.live = false

instance (rows : List RefreshRow) (familyID : String) : Decidable (FamilyDead rows familyID) :=
  inferInstanceAs (Decidable (∀ row ∈ rows, _))

/-- A revocation reaches all rows of a family or none of them. -/
def Uniform (rows : List RefreshRow) : Prop :=
  ∀ first ∈ rows, ∀ second ∈ rows, first.familyID = second.familyID →
    first.revokedAt.isSome → second.revokedAt.isSome

/-- The rows of each family have one owner. -/
def OneOwner (rows : List RefreshRow) : Prop :=
  ∀ first ∈ rows, ∀ second ∈ rows, first.familyID = second.familyID → first.SameOwner second

section Families

variable {action : LedgerAction} {rows : List RefreshRow} {familyID : String}

/-- A revoked family has no live row. -/
theorem FamilyRevoked.dead (uniform : Uniform rows) (revoked : FamilyRevoked rows familyID) :
    FamilyDead rows familyID := by
  obtain ⟨witness, present, ofFamily, stamped⟩ := revoked
  intro row member same
  have stampedToo := uniform witness present row member (ofFamily.trans same.symm) stamped
  cases stamp : row.revokedAt <;> simp_all [RefreshRow.live]

/-- A revoked family stays revoked until it is purged. -/
theorem FamilyRevoked.apply (revoked : FamilyRevoked rows familyID)
    (kept : action.Keeps familyID) : FamilyRevoked (action.apply rows) familyID := by
  obtain ⟨row, present, rfl, stamped⟩ := revoked
  obtain ⟨later, member, evolves⟩ := LedgerAction.exists_evolves present kept
  exact ⟨later, member, evolves.familyID_eq, evolves.revoked stamped⟩

/-- The family has a row, and all of its rows are revoked. -/
structure FamilyClosed (rows : List RefreshRow) (familyID : String) : Prop where
  revoked : FamilyRevoked rows familyID
  every : ∀ row ∈ rows, row.familyID = familyID → row.revokedAt.isSome

theorem FamilyClosed.dead (closed : FamilyClosed rows familyID) : FamilyDead rows familyID := by
  intro row present family
  have stamped := closed.every row present family
  cases stamp : row.revokedAt <;> simp_all [RefreshRow.live]

/-- A closed family stays closed until it is purged. -/
theorem FamilyClosed.apply (closed : FamilyClosed rows familyID) (legal : action.Legal rows)
    (kept : action.Keeps familyID) : FamilyClosed (action.apply rows) familyID where
  revoked := closed.revoked.apply kept
  every := by
    intro row present family
    rcases LedgerAction.exists_of_mem_apply present with rfl | ⟨earlier, old, evolves⟩
    · obtain ⟨stored, member, ofFamily, stamped⟩ := closed.revoked
      simp [legal.2.2 stored member (ofFamily.trans family.symm)] at stamped
    · exact evolves.revoked (closed.every earlier old (evolves.familyID_eq.symm.trans family))

/-- Revoking a family closes it if it has a row. -/
theorem FamilyClosed.of_revoke {moment : Time} {row : RefreshRow} (present : row ∈ rows)
    (family : row.familyID = familyID) :
    FamilyClosed ((LedgerAction.revoke (.family familyID) moment).apply rows) familyID := by
  have every : ∀ later ∈ (LedgerAction.revoke (.family familyID) moment).apply rows,
      later.familyID = familyID → later.revokedAt.isSome := by
    intro later member ofFamily
    obtain ⟨earlier, -, rfl⟩ := mem_map.mp member
    split
    next hit => rfl
    next missed =>
      cases stamp : earlier.revokedAt <;>
        simp_all [LedgerAction.revokes, Selector.selects]
  obtain ⟨later, member, evolves⟩ :=
    @LedgerAction.exists_evolves (.revoke (.family familyID) moment) rows row present trivial
  have ofFamily := evolves.familyID_eq.trans family
  exact ⟨⟨later, member, ofFamily, every later member ofFamily⟩, every⟩

/-- The family has no row. -/
def FamilyAbsent (rows : List RefreshRow) (familyID : String) : Prop :=
  ∀ row ∈ rows, row.familyID ≠ familyID

/-- A family without rows stays so unless a row of it is appended. -/
theorem FamilyAbsent.apply (absent : FamilyAbsent rows familyID)
    (others : ∀ row, action = .append row → row.familyID ≠ familyID) :
    FamilyAbsent (action.apply rows) familyID := by
  intro row present
  rcases LedgerAction.exists_of_mem_apply present with added | ⟨earlier, old, evolves⟩
  · exact others row added
  · rw [evolves.familyID_eq]
    exact absent earlier old

/-- Every legal change of a ledger with one owner per family keeps revocation uniform. -/
theorem Uniform.apply (uniform : Uniform rows) (owners : OneOwner rows)
    (legal : action.Legal rows) : Uniform (action.apply rows) := by
  intro first inFirst second inSecond family stamped
  cases action with
  | keep => exact uniform first inFirst second inSecond family stamped
  | append new =>
    obtain ⟨-, unrevoked, others⟩ := legal
    simp only [LedgerAction.apply, mem_append, mem_singleton] at inFirst inSecond
    rcases inFirst with oldFirst | rfl
    · rcases inSecond with oldSecond | rfl
      · exact uniform first oldFirst second oldSecond family stamped
      · simp [others first oldFirst family] at stamped
    · simp [unrevoked] at stamped
  | consume tokenHash clientID moment =>
    obtain ⟨oldFirst, memberFirst, rfl⟩ := mem_map.mp inFirst
    obtain ⟨oldSecond, memberSecond, rfl⟩ := mem_map.mp inSecond
    have same := uniform oldFirst memberFirst oldSecond memberSecond
    split at stamped <;> split <;> simp_all [RefreshRow.consume]
  | revoke selector moment =>
    obtain ⟨oldFirst, memberFirst, rfl⟩ := mem_map.mp inFirst
    obtain ⟨oldSecond, memberSecond, rfl⟩ := mem_map.mp inSecond
    have families : oldFirst.familyID = oldSecond.familyID := by
      split at family <;> split at family <;> simpa [revoke] using family
    have same := uniform oldFirst memberFirst oldSecond memberSecond families
    have selected := selector.selects_congr families
      (owners oldFirst memberFirst oldSecond memberSecond families)
    by_cases hitFirst : LedgerAction.revokes selector oldFirst
    · by_cases hitSecond : LedgerAction.revokes selector oldSecond
      · simp [hitSecond, revoke]
      · simp only [LedgerAction.revokes, Bool.and_eq_true, selected] at hitFirst hitSecond
        simp only [hitFirst.1, true_and, Option.isNone_iff_eq_none] at hitSecond
        have stampedSecond := Option.isSome_iff_ne_none.mpr hitSecond
        split <;> simp_all [revoke]
    · simp only [hitFirst, Bool.false_eq_true, ↓reduceIte] at stamped
      split
      · rfl
      · exact same stamped
  | purge families =>
    exact uniform first (mem_filter.mp inFirst).1 second (mem_filter.mp inSecond).1
      family stamped

end Families

/-- This stand-in keeps each secret as it is. -/
def plainCrypto : Crypto where
  sum256 := id
  hexEncode data := String.ofList (data.map fun byte => Char.ofNat byte.toNat)
  rawURLEncode data := String.ofList (data.map fun byte => Char.ofNat byte.toNat)
  hmac key message := key ++ message

/-- People of one domain sign in at one connector through these clients. -/
def sampleTokens (clients : List (String × Client))
    (storable : ∀ entry ∈ clients, Storable entry.1) (deviceCodes : Bool) : TokenConfig where
  crypto := plainCrypto
  library := { parseURL := fun _ => none, toLower := id }
  clients := clients
  clientsStorable := storable
  connectors := some ["google"]
  allowedDomains := ["example.com"]
  deviceCodes := deviceCodes
  accessTTL := 5
  refreshTTL := 10
  refreshMaxLifetime := 100

/-- Everybody may read. -/
def sampleEnvironment (moment : Time) (familyID : String) : (call : EnvironmentCall) → call.Answer
  | .now => moment
  | .randomFamilyID => .ok familyID
  | .newRefresh => .ok "child"
  | .resolve _ => .ok (some (.new [⟨"default", "read"⟩]))
  | .mint _ => .ok ("access", "jti")
  | .mintIDToken _ => .ok "id"

def sampleRefresh : Refresh where
  token := "token"
  jti := "jti"
  clientID := "client"
  connectorID := "google"
  subject := "subject"
  email := "person@example.com"
  familyID := "family"
  authTime := 0
  createdAt := 0
  expiresAt := 10

/-- One client saves a token, one revokes its family and the others save the token again. -/
def sampleRequests : Nat → RefreshCall
  | 1 => .revokeRefreshFamily "family" 1
  | _ => .saveRefresh sampleRefresh

end Tempogate.State

namespace Tempogate.Sqlite

open Foundation Oidc State RefreshRow RefreshStatement List

abbrev Store.rows (store : Store) : List RefreshRow := store.refreshTokens.rows

/-- This is the ledger change that a statement and its reply stand for. -/
def RefreshStatement.action : (statement : RefreshStatement) → statement.Reply → LedgerAction
  | .insertRefresh row, some (_ + 1) => .append row.inserted
  | .insertRefresh _, _ => .keep
  | .updateConsumed tokenHash clientID moment, _ => .consume tokenHash clientID moment
  | .updateRevoked selector moment, _ => .revoke selector moment
  | .deleteFamilies families, _ => .purge families
  | .selectConsumed _ _, _ | .existsFamily _, _ | .selectPage _ _, _ => .keep

def Statement.action : (statement : Statement) → Except String statement.Reply → LedgerAction
  | .refresh statement, .ok reply => statement.action reply
  | _, _ => .keep

/-- The guarded insert appends a live row to a family with no revoked row, or changes nothing. -/
theorem insertUnlessRevoked_cases (row : RefreshRow) (table : Table tokenHash) :
    (insertUnlessRevoked row table = (some 0, table) ∧ FamilyRevoked table.rows row.familyID) ∨
      ((∀ stored ∈ table.rows, stored.familyID = row.familyID → stored.revokedAt = none) ∧
        ((insertUnlessRevoked row table = (none, table) ∧ table.insert row.inserted = none) ∨
          ∃ after, insertUnlessRevoked row table = (some 1, after) ∧
            table.insert row.inserted = some after)) := by
  unfold insertUnlessRevoked
  split
  next revoked =>
    refine .inl ⟨rfl, ?_⟩
    simpa [FamilyRevoked] using revoked
  next unrevoked =>
    have others : ∀ stored ∈ table.rows, stored.familyID = row.familyID →
        stored.revokedAt = none := by
      simpa [Option.isSome_iff_ne_none] using unrevoked
    refine .inr ⟨others, ?_⟩
    cases inserted : table.insert row.inserted with
    | none => exact .inl ⟨rfl, rfl⟩
    | some after => exact .inr ⟨after, rfl, rfl⟩

/-- The guarded insert refuses a row of a revoked family. -/
theorem insertUnlessRevoked_of_revoked {row : RefreshRow} {table : Table tokenHash}
    (revoked : FamilyRevoked table.rows row.familyID) :
    insertUnlessRevoked row table = (some 0, table) := by
  have found : table.rows.any
      (fun stored => stored.familyID = row.familyID && stored.revokedAt.isSome) := by
    simpa [FamilyRevoked] using revoked
  simp [insertUnlessRevoked, found]

/-- A refresh statement changes the rows as its ledger action, and the action is legal. -/
theorem RefreshStatement.execute_ledger (statement : RefreshStatement) (table : Table tokenHash) :
    (statement.execute table).2.rows =
        (statement.action (statement.execute table).1).apply table.rows ∧
      (statement.action (statement.execute table).1).Legal table.rows := by
  cases statement with
  | insertRefresh row =>
    rcases insertUnlessRevoked_cases row table with
      ⟨result, -⟩ | ⟨others, ⟨result, -⟩ | ⟨after, result, inserted⟩⟩
    · simp only [execute, result]
      exact ⟨rfl, trivial⟩
    · simp only [execute, result]
      exact ⟨rfl, trivial⟩
    · simp only [execute, result]
      exact ⟨(Table.rows_insert inserted).1, rfl, rfl, others⟩
  | updateConsumed tokenHash clientID moment =>
    exact ⟨table.rows_update (consumable tokenHash clientID) (RefreshRow.consume moment)
      fun _ => rfl, trivial⟩
  | updateRevoked selector moment =>
    exact ⟨table.rows_update (revocable selector) (revoke moment) fun _ => rfl, trivial⟩
  | deleteFamilies families =>
    refine ⟨?_, trivial⟩
    simp [execute, action, LedgerAction.apply]
  | _ => exact ⟨rfl, trivial⟩

/-- A statement that the database answered was executed. -/
theorem Happens.execute_eq {store after : Store} {reply : statement.Reply}
    (happens : Happens store statement (.ok reply) after) :
    statement.execute store = (reply, after) := by
  generalize answered : (Except.ok reply : Except String statement.Reply) = answer at happens
  cases happens with
  | executed =>
    cases answered
    rfl
  | failed cause => cases answered

/-- Every step of the store is a legal ledger change. -/
theorem Happens.ledger {store after : Store}
    {answer : Except String statement.Reply} (happens : Happens store statement answer after) :
    after.rows = (statement.action answer).apply store.rows ∧
      (statement.action answer).Legal store.rows := by
  cases happens with
  | failed cause => cases statement <;> exact ⟨rfl, trivial⟩
  | executed =>
    cases statement with
    | refresh statement => exact statement.execute_ledger store.refreshTokens
    | _ => exact ⟨rfl, trivial⟩

end Tempogate.Sqlite
