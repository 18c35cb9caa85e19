/-
This file defines what stays true of the books while requests run,
and shows that either backend keeps the books.
-/

import Tempogate.Proof.Store.PostgresBooks
import Tempogate.Proof.Store.SqliteBooks

namespace Tempogate.State

open Foundation Oidc RefreshRow Function

variable {row : RefreshRow} {crypto : Crypto}

namespace Books

/-- Every token belongs to a known family, and it is revoked exactly when that family is closed. -/
structure Coherent (books : Books) : Prop where
  known : ∀ row ∈ books.tokens.rows, books.known row.familyID = true
  closed : ∀ row ∈ books.tokens.rows, row.revokedAt.isSome = books.closed row.familyID

variable {crypto : Crypto} {books after : Books} {call : StoreCall} {answer : call.Answer}
  {familyID : String}

section

variable (coherent : books.Coherent)

include coherent

/-- A closed family has no live token. -/
theorem Coherent.dead (isClosed : books.closed familyID = true) :
    FamilyDead books.tokens.rows familyID := by
  intro row present family
  have stamped := coherent.closed row present
  cases stamp : row.revokedAt <;> simp_all [live]

/-- An unknown family has no token. -/
theorem Coherent.absent (isUnknown : books.known familyID = false) :
    FamilyAbsent books.tokens.rows familyID := by
  intro row present family
  have known := coherent.known row present
  rw [family, isUnknown] at known
  cases known

theorem Coherent.issue {tokens : Table tokenHash}
    (unrevoked : row.revokedAt = none) (isOpen : books.closed row.familyID = false)
    (inserted : books.tokens.insert row = some tokens) :
    (books.issue tokens row.familyID).Coherent := by
  have rows := (Table.rows_insert inserted).1
  constructor
  · intro stored present
    change update books.known row.familyID true stored.familyID = true
    by_cases same : stored.familyID = row.familyID
    · rw [same, update_self]
    · rw [update_of_ne same]
      rcases List.mem_append.mp (rows ▸ present) with old | added
      · exact coherent.known stored old
      · exact absurd (congrArg familyID (List.mem_singleton.mp added)) same
  · intro stored present
    rcases List.mem_append.mp (rows ▸ present) with old | added
    · exact coherent.closed stored old
    · rw [List.mem_singleton.mp added, unrevoked]
      exact isOpen.symm

theorem Coherent.spend (tokenHash clientID : String) (moment : Time) :
    (books.spend tokenHash clientID moment).Coherent := by
  have earlier : ∀ row ∈ (books.spend tokenHash clientID moment).tokens.rows,
      ∃ old ∈ books.tokens.rows, row.familyID = old.familyID ∧ row.revokedAt = old.revokedAt := by
    intro row present
    rw [rows_spend] at present
    obtain ⟨old, member, rfl⟩ := List.mem_map.mp present
    refine ⟨old, member, ?_⟩
    split <;> exact ⟨rfl, rfl⟩
  constructor
  · intro row present
    obtain ⟨old, member, family, -⟩ := earlier row present
    rw [family]
    exact coherent.known old member
  · intro row present
    obtain ⟨old, member, family, stamp⟩ := earlier row present
    rw [family, stamp]
    exact coherent.closed old member

/-- Closing a family keeps the books coherent. -/
theorem Coherent.close (familyID : String) (moment : Time) :
    (books.close familyID moment).Coherent := by
  have earlier : ∀ row ∈ (books.close familyID moment).tokens.rows,
      ∃ old ∈ books.tokens.rows, row.familyID = old.familyID ∧
        row.revokedAt.isSome = (old.revokedAt.isSome || decide (old.familyID = familyID)) := by
    intro row present
    rw [rows_close] at present
    obtain ⟨old, member, rfl⟩ := List.mem_map.mp present
    refine ⟨old, member, ?_⟩
    split
    next hit =>
      simp only [LedgerAction.revokes, Selector.selects, Bool.and_eq_true] at hit
      exact ⟨rfl, by simp [revoke, of_decide_eq_true hit.1]⟩
    next missed =>
      refine ⟨rfl, ?_⟩
      cases stamp : old.revokedAt <;> simp_all [LedgerAction.revokes, Selector.selects]
  constructor
  · intro row present
    obtain ⟨old, member, family, -⟩ := earlier row present
    rw [family]
    exact coherent.known old member
  · intro row present
    obtain ⟨old, member, family, stamp⟩ := earlier row present
    rw [family, stamp, coherent.closed old member]
    change _ = update books.closed familyID true old.familyID
    by_cases same : old.familyID = familyID
    · rw [same, update_self, decide_eq_true rfl, Bool.or_true]
    · rw [update_of_ne same, decide_eq_false same, Bool.or_false]

end

/-- Served books stay coherent. -/
theorem Serves.coherent (serves : Serves crypto books call answer after)
    (coherent : books.Coherent) : after.Coherent := by
  cases serves with
  | saved isOpen inserted => exact coherent.issue rfl isOpen inserted
  | consumed found => exact coherent.spend _ _ _
  | revoked isKnown count => exact coherent.close _ _
  | codeSaved | codeConsumed | requestSaved | requestConsumed =>
    exact ⟨coherent.known, coherent.closed⟩
  | _ => exact coherent

/-- A closed family is never opened again. -/
theorem Serves.closed (serves : Serves crypto books call answer after)
    (isClosed : books.closed familyID = true) : after.closed familyID = true := by
  cases serves with
  | @revoked name moment isKnown count =>
    change update books.closed name true familyID = true
    by_cases same : familyID = name
    · rw [same, update_self]
    · rw [update_of_ne same]
      exact isClosed
  | _ => exact isClosed

/-- Revoking a known family closes it. -/
theorem Serves.revokes {moment : Time} {answer : Except StoreError Nat}
    (serves : Serves crypto books (.refresh (.revokeRefreshFamily familyID moment)) answer after)
    (isKnown : books.known familyID = true) : after.closed familyID = true := by
  cases serves with
  | revoked => exact update_self familyID true books.closed
  | sessionUnknown isUnknown | revokeFailed isUnknown => cases isUnknown.symm.trans isKnown

section

variable (serves : Serves crypto books call answer after)

include serves

/-- A known family stays known. -/
theorem Serves.known (isKnown : books.known familyID = true) : after.known familyID = true := by
  cases serves with
  | @saved refresh tokens isOpen inserted =>
    change update books.known refresh.familyID true familyID = true
    by_cases same : familyID = refresh.familyID
    · rw [same, update_self]
    · rw [update_of_ne same]
      exact isKnown
  | _ => exact isKnown

/-- A family becomes known by a saved token only. -/
theorem Serves.unknown (isUnknown : books.known familyID = false)
    (unsaved : ∀ refresh, call = .refresh (.saveRefresh refresh) → refresh.familyID ≠ familyID) :
    after.known familyID = false := by
  cases serves with
  | @saved refresh tokens isOpen inserted =>
    change update books.known refresh.familyID true familyID = false
    rw [update_of_ne (unsaved refresh rfl).symm]
    exact isUnknown
  | _ => exact isUnknown

/-- Served books make one change to the ledger of tokens, and it removes none. -/
theorem Serves.ledger :
    ∃ action : LedgerAction, after.tokens.rows = action.apply books.tokens.rows ∧
      (∀ familyID, action.Keeps familyID) ∧
      ∀ row, action = .append row → ∃ refresh, call = .refresh (.saveRefresh refresh) ∧
        row = .ofRefresh crypto refresh := by
  cases serves with
  | @saved refresh tokens isOpen inserted =>
    refine ⟨.append (.ofRefresh crypto refresh), (Table.rows_insert inserted).1,
      fun _ => trivial, ?_⟩
    rintro row ⟨⟩
    exact ⟨refresh, rfl, rfl⟩
  | consumed found => exact ⟨.consume _ _ _, rows_spend _ _ _ _, fun _ => trivial, nofun⟩
  | revoked isKnown count => exact ⟨.revoke _ _, rows_close _ _ _, fun _ => trivial, nofun⟩
  | _ => exact ⟨.keep, rfl, fun _ => trivial, nofun⟩

end

/-- Every token has a later version in the served books. -/
theorem Serves.exists_evolves (serves : Serves crypto books call answer after)
    (present : row ∈ books.tokens.rows) : ∃ later ∈ after.tokens.rows, row.Evolves later := by
  obtain ⟨action, rows, keeps, -⟩ := serves.ledger
  rw [rows]
  exact LedgerAction.exists_evolves present (keeps row.familyID)

end Books

end Tempogate.State

namespace Tempogate.Engine

open Foundation Oidc Tempogate.State Postgres Function

def books : {engine : Engine} → engine.State → Books
  | sqlite, store => Sqlite.Store.books store
  | postgres _, database => Postgres.Database.books database

/-- The Postgres backend answers as its method does when it is alone. -/
theorem respond_postgres {rounds : Nat} {call : StoreCall}
    {answer : call.Answer} {database after scratch : Database}
    (evaluated : (method crypto (rounds + 2) call).evaluate alone
      (database, database) = (answer, (after, scratch))) :
    (postgres rounds).respond crypto call database = (answer, after) := by
  have quiet := @evaluate_quiet _ _ _ _ Postgres.Write.apply 0
    (method crypto (rounds + 2) call) database
  rw [evaluated] at quiet
  exact Prod.ext quiet.1 quiet.2

/-- Either backend keeps the books. -/
theorem respond_serves (crypto : Crypto) (engine : Engine) (state : engine.State)
    {call : StoreCall} (plain : Books.Plain call) :
    Books.Serves crypto (books state) call (engine.respond crypto call state).1
      (books (engine.respond crypto call state).2) := by
  cases engine with
  | sqlite => exact Sqlite.method_serves crypto state plain
  | postgres rounds =>
    have serves := method_serves crypto rounds state plain
    have answered := @respond_postgres crypto rounds call _ state _ _ rfl
    exact answered ▸ serves

/-- A refused token changes nothing in either backend. -/
theorem respond_refused (crypto : Crypto) (engine : Engine) (state : engine.State)
    {token clientID : String} (storable : Storable clientID) (moment : Time)
    (dead : (books state).tokens.rows.find?
      (LedgerAction.consumes (crypto.hash token) clientID) = none) :
    engine.respond crypto (.refresh (.consumeRefresh token clientID moment)) state =
      (.error ((books state).refusal crypto token clientID), state) := by
  cases engine with
  | sqlite => exact Sqlite.evaluate_consumeRefresh_dead moment dead
  | postgres rounds =>
    exact respond_postgres (evaluate_consumeRefresh_dead storable moment dead)

/-- An answered method keeps the books, and an outside call leaves the store alone. -/
theorem world_serves {engine : Engine} {log : List (Event calls)}
    {state after : engine.State} {process : Nat} {call : StoreCall} {answer : call.Answer}
    (happens : engine.world crypto log state ⟨process, .inr call, answer⟩ after)
    (plain : Books.Plain call) : Books.Serves crypto (books state) call answer (books after) := by
  have answered : engine.respond crypto call state = (answer, after) := happens
  have serves := engine.respond_serves crypto state plain
  rw [answered] at serves
  exact serves

end Tempogate.Engine
