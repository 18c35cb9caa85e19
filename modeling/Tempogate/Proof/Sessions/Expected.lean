/-
This file defines what an operation on sessions answers and does to the ledger of tokens.
-/

import Tempogate.Construction.Sessions
import Tempogate.Proof.Store.Coherent

namespace Tempogate.Sessions

open Foundation Oidc Tempogate.State LedgerAction RefreshRow Books Function List

variable (crypto : Crypto) (rows : List RefreshRow)

def Known (familyID : String) : Bool := rows.any fun row => row.familyID = familyID

def Closed (familyID : String) : Bool :=
  rows.any fun row => row.familyID = familyID && row.revokedAt.isSome

/-- A presented token that is not live is reused or not found. -/
def refusal (token clientID : String) : StoreError :=
  match rows.find? (spent (crypto.hash token) clientID) with
  | some row => .refreshReused (row.scanRefresh token)
  | none => .refreshNotFound

variable (selector : Selector)

/-- A revocation ends these tokens. -/
def ended : Nat := rows.countP fun row => selector.selects row && row.live

/-- A token is dead when its sign-in is too old, or when it is spent and has expired. -/
def dead (refreshMaxLifetime now : Time) (row : RefreshRow) : Bool :=
  (refreshMaxLifetime > 0 && row.authTime + refreshMaxLifetime ≤ now) ||
    ((row.consumedAt.isSome || row.revokedAt.isSome) && row.expiresAt < now)

/-- The stored families that have only dead tokens are swept. -/
def deadFamilies (refreshMaxLifetime now : Time) : List String :=
  (rows.map familyID).filter fun familyID =>
    rows.all fun row => row.familyID ≠ familyID || dead refreshMaxLifetime now row

def listed (filter : RefreshSessionFilter) (now : Time) : List RefreshRow :=
  rows.filter fun row => filter.selects row && now < row.expiresAt

/-- The ledger of tokens alone decides the answer and the change of an operation. -/
def expected : (operation : Operation) → operation.Answer × LedgerAction
  | .refresh (.saveRefresh refresh) =>
    if Closed rows refresh.familyID then
      (.error (.refreshFamilyRevoked refresh.familyID), .keep)
    else if crypto.hash refresh.token ∈ rows.map tokenHash then
      (.error (.duplicateRefreshToken .sqlite), .keep)
    else (.ok (), .append (.ofRefresh crypto refresh))
  | .refresh (.consumeRefresh token clientID moment) =>
    match rows.find? (consumes (crypto.hash token) clientID) with
    | some row =>
      (.ok (row.scanRefresh token), .consume (crypto.hash token) clientID moment)
    | none => (.error (refusal crypto rows token clientID), .keep)
  | .refresh (.revokeRefreshFamily familyID moment) =>
    if Known rows familyID then
      (.ok (ended rows (.family familyID)), .revoke (.family familyID) moment)
    else (.error (.sessionNotFound familyID), .keep)
  | .refresh (.revokeRefreshByEmail email moment) =>
    (.ok (ended rows (.email email)), .revoke (.email email) moment)
  | .refresh (.revokeRefreshBySubject connectorID subject moment) =>
    (.ok (ended rows (.subject connectorID subject)), .revoke (.subject connectorID subject) moment)
  | .listRefreshSessions filter now =>
    (.ok ((listed rows filter now).map RefreshSession.ofRow), .keep)
  | .sweep refreshMaxLifetime now =>
    ((rows.countP fun row => row.familyID ∈ deadFamilies rows refreshMaxLifetime now, none),
      .purge (deadFamilies rows refreshMaxLifetime now))

/-- These are the texts that an operation hands to the store beside hashes. -/
def texts : Operation → List String
  | .refresh (.saveRefresh refresh) => [refresh.jti, refresh.clientID, refresh.connectorID,
      refresh.subject, refresh.email, refresh.familyID]
  | .refresh (.consumeRefresh _ clientID _) => [clientID]
  | .refresh (.revokeRefreshFamily familyID _) => [familyID]
  | .refresh (.revokeRefreshByEmail email _) => [email]
  | .refresh (.revokeRefreshBySubject connectorID subject _) => [connectorID, subject]
  | .listRefreshSessions filter _ => [filter.email, filter.connectorID, filter.subject]
  | .sweep _ _ => []

def Duplicated : (call : RefreshCall) → call.Answer → Prop
  | .saveRefresh _, answer => ∃ backend, answer = .error (.duplicateRefreshToken backend)
  | _, _ => False

/-- An answer is as expected, a listing in a sorted order and a duplicate by any backend. -/
def Fits : (operation : Operation) → operation.Answer → operation.Answer → Prop
  | .refresh call, awaited, actual =>
    actual = awaited ∨ Duplicated call awaited ∧ Duplicated call actual
  | .listRefreshSessions _ _, awaited, actual => ∃ first second, awaited = .ok first ∧
      actual = .ok second ∧ second.Perm first ∧ second.Pairwise RefreshSession.Precedes
  | .sweep _ _, awaited, actual => actual = awaited

variable {crypto rows}

theorem mem_deadFamilies {refreshMaxLifetime now : Time} {familyID : String} :
    familyID ∈ deadFamilies rows refreshMaxLifetime now ↔ (∃ row ∈ rows, row.familyID = familyID) ∧
        ∀ row ∈ rows, row.familyID = familyID → dead refreshMaxLifetime now row = true := by
  simp only [deadFamilies, mem_filter, mem_map, all_eq_true, Bool.or_eq_true,
    decide_eq_true_eq]
  refine and_congr_right fun _ => forall₂_congr fun row _ => ?_
  exact ⟨fun either same => either.resolve_left fun different => different same,
    fun implied => or_iff_not_imp_left.mpr fun same => implied (not_not.mp same)⟩

/-- Sessions that precede each other have the same key. -/
theorem precedes_antisymm {first second : RefreshSession} (before : first.Precedes second)
    (after : second.Precedes first) :
    (first.email, first.authTime) = (second.email, second.authTime) := by
  rcases before with smaller | ⟨same, earlier⟩
  · rcases after with larger | ⟨same, -⟩
    · exact absurd larger (String.lt_asymm smaller)
    · rw [same] at smaller
      exact absurd smaller (String.lt_irrefl _)
  · rcases after with larger | ⟨-, later⟩
    · rw [same] at larger
      exact absurd larger (String.lt_irrefl _)
    · rw [same, le_antisymm earlier later]

/-- Two sorted orders of one listing differ only in the order of ties. -/
theorem SameListing.of_sorted {first second : List RefreshSession} (perm : first.Perm second)
    (sortedFirst : first.Pairwise RefreshSession.Precedes)
    (sortedSecond : second.Pairwise RefreshSession.Precedes) : SameListing first second := by
  refine ⟨perm, @List.Perm.eq_of_pairwise _ (fun key other =>
    key.1 < other.1 ∨ key.1 = other.1 ∧ key.2 ≤ other.2) _ _ ?_ ?_ ?_ (perm.map _)⟩
  · intro key other inFirst inSecond before after
    obtain ⟨session, -, rfl⟩ := mem_map.mp inFirst
    obtain ⟨tied, -, rfl⟩ := mem_map.mp inSecond
    exact precedes_antisymm before after
  · exact pairwise_map.mpr sortedFirst
  · exact pairwise_map.mpr sortedSecond

/-- Two answers that fit the same expectation are the same up to ties. -/
theorem SameAnswer.of_fits {operation : Operation} {awaited first second : operation.Answer}
    (fitsFirst : Fits operation awaited first) (fitsSecond : Fits operation awaited second) :
    SameAnswer ⟨operation, first⟩ ⟨operation, second⟩ := by
  cases operation with
  | listRefreshSessions filter now =>
    obtain ⟨listed, sessions, rfl, rfl, perm, sorted⟩ := fitsFirst
    obtain ⟨_, others, same, rfl, otherPerm, otherSorted⟩ := fitsSecond
    obtain rfl := Except.ok.inj same
    exact .listing (.of_sorted (perm.trans otherPerm.symm) sorted otherSorted)
  | refresh call =>
    have both : second = first ∨ Duplicated call first ∧ Duplicated call second := by
      rcases fitsFirst with rfl | ⟨awaits, duplicate⟩
      · exact fitsSecond
      · rcases fitsSecond with rfl | ⟨-, other⟩
        · exact .inr ⟨duplicate, awaits⟩
        · exact .inr ⟨duplicate, other⟩
    rcases both with rfl | ⟨duplicate, other⟩
    · exact .equal _ _
    · cases call with
      | saveRefresh refresh =>
        obtain ⟨backend, rfl⟩ := duplicate
        obtain ⟨backend, rfl⟩ := other
        exact .duplicate refresh _ _
      | _ => exact duplicate.elim
  | sweep =>
    obtain rfl : first = awaited := fitsFirst
    obtain rfl : second = first := fitsSecond
    exact .equal _ _

theorem known_revoke (moment : Time) (familyID : String) :
    Known ((revoke selector moment).apply rows) familyID = Known rows familyID := by
  rw [Known, Known, apply, any_map]
  congr 1
  funext row
  simp only [comp_apply]
  split <;> rfl

/-- A revocation closes the families of the selected tokens. -/
theorem closed_revoke (moment : Time) (familyID : String) :
    Closed ((revoke selector moment).apply rows) familyID = (Closed rows familyID ||
        rows.any fun row => row.familyID = familyID && selector.selects row) := by
  have closes : ∀ row : RefreshRow,
      (if revokes selector row then row.revoke moment else row).revokedAt.isSome =
        (row.revokedAt.isSome || selector.selects row) := by
    intro row
    cases selected : selector.selects row <;> cases stamp : row.revokedAt <;>
      simp [revokes, RefreshRow.revoke, selected, stamp]
  have kept : ∀ row : RefreshRow,
      (if revokes selector row then row.revoke moment else row).familyID = row.familyID := by
    intro row
    split <;> rfl
  rw [Closed, Closed, apply, any_map]
  induction rows with
  | nil => rfl
  | cons row rest ih =>
    simp only [any_cons, ih, comp_apply, closes, kept]
    cases decide (row.familyID = familyID) <;> cases row.revokedAt.isSome <;>
      cases selector.selects row <;> simp

theorem known_purge (families : List String) (familyID : String) :
    Known ((purge families).apply rows) familyID = true ↔
      Known rows familyID = true ∧ familyID ∉ families := by
  simp only [Known, apply, any_eq_true, mem_filter, decide_eq_true_eq]
  constructor
  · rintro ⟨row, ⟨present, kept⟩, rfl⟩
    exact ⟨⟨row, present, rfl⟩, kept⟩
  · rintro ⟨⟨row, present, rfl⟩, kept⟩
    exact ⟨row, ⟨present, kept⟩, rfl⟩

theorem closed_purge (families : List String) (familyID : String) :
    Closed ((purge families).apply rows) familyID = true ↔
      Closed rows familyID = true ∧ familyID ∉ families := by
  simp only [Closed, apply, any_eq_true, mem_filter, Bool.and_eq_true,
    decide_eq_true_eq]
  constructor
  · rintro ⟨row, ⟨present, kept⟩, rfl, revoked⟩
    exact ⟨⟨row, present, rfl, revoked⟩, kept⟩
  · rintro ⟨⟨row, present, rfl, revoked⟩, kept⟩
    exact ⟨row, ⟨present, kept⟩, rfl, revoked⟩

/-- The rows of a family belong to one owner. -/
def Shared (rows : List RefreshRow) : Prop :=
  ∀ first ∈ rows, ∀ second ∈ rows, first.familyID = second.familyID → first.SameOwner second

/-- The operation answers and changes the ledger as expected. -/
structure Meets (crypto : Crypto) (rows : List RefreshRow) (operation : Operation)
    (answer : operation.Answer) (after : List RefreshRow) : Prop where
  fits : Fits operation (expected crypto rows operation).1 answer
  ledger : after = (expected crypto rows operation).2.apply rows

theorem Meets.of_expected {call : RefreshCall} {answer : call.Answer} {action : LedgerAction}
    (awaited : expected crypto rows (.refresh call) = (answer, action)) :
    Meets crypto rows (.refresh call) answer (action.apply rows) := by
  refine ⟨?_, ?_⟩ <;> rw [awaited]
  exact .inl rfl

/-- The marks of the families are those that the ledger tells. -/
structure Faithful (books : Books) : Prop where
  known : ∀ familyID, books.known familyID = Known books.tokens.rows familyID
  closed : ∀ familyID, books.closed familyID = Closed books.tokens.rows familyID

section Serves

variable {books after : Books}

/-- A save answers as expected and keeps the books faithful. -/
theorem Faithful.saves (faithful : Faithful books) {refresh : Refresh}
    {answer : Except StoreError Unit}
    (storable : books.backend = .postgres →
      ∀ text ∈ texts (.refresh (.saveRefresh refresh)), Storable text)
    (serves : Serves crypto books (.refresh (.saveRefresh refresh)) answer after) :
    Meets crypto books.tokens.rows (.refresh (.saveRefresh refresh)) answer after.tokens.rows ∧
      Faithful after := by
  have closed := faithful.closed refresh.familyID
  cases serves with
  | @saved _ tokens isOpen inserted =>
    obtain ⟨rows, absent⟩ := Table.rows_insert inserted
    have unused : crypto.hash refresh.token ∉ books.tokens.rows.map tokenHash := absent
    rw [isOpen] at closed
    have awaited : expected crypto books.tokens.rows (.refresh (.saveRefresh refresh)) =
        (.ok (), .append (.ofRefresh crypto refresh)) := by
      rw [expected, ← closed, if_neg Bool.false_ne_true, if_neg unused]
    refine ⟨?_, ?_, ?_⟩
    · change Meets crypto books.tokens.rows _ _ tokens.rows
      rw [rows]
      exact .of_expected awaited
    · intro familyID
      change update books.known refresh.familyID true familyID = Known tokens.rows familyID
      rw [rows, Known, any_append, any_cons, any_nil, Bool.or_false]
      by_cases same : familyID = refresh.familyID
      · subst same
        simp [ofRefresh]
      · rw [update_of_ne same, faithful.known]
        simp [Known, ofRefresh, Ne.symm same]
    · intro familyID
      change books.closed familyID = Closed tokens.rows familyID
      rw [rows, Closed, any_append, faithful.closed]
      simp [Closed, ofRefresh]
  | saveDuplicate isOpen taken =>
    have used : crypto.hash refresh.token ∈ books.tokens.rows.map tokenHash :=
      Table.insert_eq_none.mp taken
    rw [isOpen] at closed
    have awaited : expected crypto books.tokens.rows (.refresh (.saveRefresh refresh)) =
        (.error (.duplicateRefreshToken .sqlite), .keep) := by
      rw [expected, ← closed, if_neg Bool.false_ne_true, if_pos used]
    refine ⟨⟨?_, ?_⟩, faithful⟩ <;> rw [awaited]
    · exact .inr ⟨⟨_, rfl⟩, _, rfl⟩
    · rfl
  | saveFailed strict unstorable =>
    obtain ⟨text, listed, refused⟩ := unstorable
    exact absurd (storable strict text listed) refused
  | saveRefused isClosed =>
    rw [isClosed] at closed
    have awaited : expected crypto books.tokens.rows (.refresh (.saveRefresh refresh)) =
        (.error (.refreshFamilyRevoked refresh.familyID), .keep) := by
      rw [expected, ← closed, if_pos rfl]
    exact ⟨.of_expected awaited, faithful⟩

/-- So does a consume. -/
theorem Faithful.consumes (faithful : Faithful books) {token clientID : String} {moment : Time}
    {answer : Except StoreError Refresh}
    (serves : Serves crypto books (.refresh (.consumeRefresh token clientID moment)) answer
      after) :
    Meets crypto books.tokens.rows (.refresh (.consumeRefresh token clientID moment)) answer
        after.tokens.rows ∧ Faithful after := by
  cases serves with
  | consumed found =>
    refine ⟨⟨?_, ?_⟩, ?_, ?_⟩
    · rw [expected, found]
      exact .inl rfl
    · rw [expected, found]
      exact books.rows_spend _ _ _
    · intro familyID
      change books.known familyID = _
      rw [rows_spend, faithful.known, Known, Known, apply, any_map]
      congr 1
      funext row
      simp only [comp_apply]
      split <;> rfl
    · intro familyID
      change books.closed familyID = _
      rw [rows_spend, faithful.closed, Closed, Closed, apply, any_map]
      congr 1
      funext row
      simp only [comp_apply]
      split <;> rfl
  | refused dead =>
    have awaited : expected crypto books.tokens.rows
        (.refresh (.consumeRefresh token clientID moment)) =
          (.error (refusal crypto books.tokens.rows token clientID), .keep) := by
      rw [expected, dead]
    exact ⟨.of_expected awaited, faithful⟩

/-- Closing a known family keeps the marks and the ledger together. -/
theorem Faithful.closes (faithful : Faithful books) {familyID : String}
    (known : books.known familyID = true) (moment : Time) :
    Faithful (books.close familyID moment) := by
  refine ⟨fun name => ?_, fun name => ?_⟩
  · rw [rows_close, known_revoke]
    exact faithful.known name
  · rw [rows_close, closed_revoke, ← faithful.closed]
    change update books.closed familyID true name = _
    by_cases same : name = familyID
    · subst same
      rw [faithful.known] at known
      obtain ⟨row, present, ofFamily⟩ := any_eq_true.mp known
      have member : (books.tokens.rows.any fun row =>
          row.familyID = name && (Selector.family name).selects row) = true :=
        any_eq_true.mpr ⟨row, present, by simpa [Selector.selects] using ofFamily⟩
      rw [update_self, member, Bool.or_true]
    · have none : (books.tokens.rows.any fun row =>
          row.familyID = name && (Selector.family familyID).selects row) = false :=
        any_eq_false.mpr fun row _ => by
          simp only [Selector.selects, Bool.and_eq_true, decide_eq_true_eq, not_and]
          exact fun ofName ofFamily => same (ofName.symm.trans ofFamily)
      rw [update_of_ne same, none, Bool.or_false]

/-- The methods keep the rowids counted from one. -/
theorem numbered_of_serves {call : StoreCall} {answer : call.Answer}
    (serves : Serves crypto books call answer after) (numbered : books.tokens.Numbered) :
    after.tokens.Numbered := by
  cases serves with
  | saved isOpen inserted => exact numbered.insert inserted
  | consumed found => exact numbered.update _ (consume _) fun _ => rfl
  | revoked isKnown count => exact numbered.update _ (RefreshRow.revoke _) fun _ => rfl
  | _ => exact numbered

end Serves

end Tempogate.Sessions
