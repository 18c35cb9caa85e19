/-
This file shows that the SQLite store makes the moves that the deeds of its statements name,
and that its methods show the deeds of their calls.
-/

import Tempogate.Construction.Sqlite.Server
import Tempogate.Proof.Refresh.Grants

namespace Tempogate.Sqlite

open Foundation Oidc State RefreshStatement

variable {draws : Prop} {config : TokenConfig}

def Statement.deed : (statement : Statement) → Except String statement.Reply → Deed
  | .refresh (.updateConsumed _ _ moment), .ok (some row) => .took row.origin row.expiresAt moment
  | .refresh (.insertRefresh row), .ok (some (_ + 1)) => .saved row.origin row.expiresAt
  | .refresh (.deleteFamilies families), .ok _ => .purged families
  | _, _ => .quiet

def observeStatements : Observer statements Deed := Statement.deed

/-- This observer sees single statements. -/
def observeServer : Observer serverCalls Deed
  | .inl call, answer => environmentDeed call answer
  | .inr statement, answer => observeStatements statement answer

/-- A consuming update takes a live row or changes nothing. -/
theorem updateConsumed_moves (tokenHash clientID : String) (moment : Time)
    (table : Table RefreshRow.tokenHash) :
    Moves table.rows ((Statement.refresh (.updateConsumed tokenHash clientID moment)).deed
        (.ok ((updateConsumed tokenHash clientID moment).execute table).1))
      ((updateConsumed tokenHash clientID moment).execute table).2.rows := by
  have rows := (execute_ledger (.updateConsumed tokenHash clientID moment) table).1
  have evolution : Evolution table.rows
      ((updateConsumed tokenHash clientID moment).execute table).2.rows := by
    rw [rows]
    exact LedgerAction.evolution (fun _ => nofun) fun _ => trivial
  cases search : table.rows.find? (consumable tokenHash clientID) with
  | none =>
    simp only [execute, search, Option.map_none] at evolution ⊢
    exact .quiet evolution
  | some found =>
    have hit : consumable tokenHash clientID found := List.find?_some search
    simp only [execute, search, Option.map_some] at rows evolution ⊢
    refine @Moves.took table.rows _ found moment (List.mem_of_find?_eq_some search) ?_ evolution ?_
    · exact (Bool.and_eq_true_iff.mp hit).2
    · intro next present live
      rw [rows] at present
      obtain ⟨row, old, rfl⟩ := List.mem_map.mp present
      split at live
      · simp [RefreshRow.live, RefreshRow.consume] at live
      next missed =>
        rw [if_neg missed]
        refine ⟨old, ?_⟩
        rintro rfl
        exact missed hit

/-- Every answered statement makes the move of its deed. -/
theorem RefreshStatement.execute_moves (statement : RefreshStatement)
    (table : Table RefreshRow.tokenHash) :
    Moves table.rows ((Statement.refresh statement).deed (.ok (statement.execute table).1))
      (statement.execute table).2.rows := by
  cases statement with
  | insertRefresh row =>
    rcases insertUnlessRevoked_cases row table with
      ⟨result, -⟩ | ⟨others, ⟨result, -⟩ | ⟨after, result, inserted⟩⟩
    · simp only [execute, result]
      exact .quiet (.refl _)
    · simp only [execute, result]
      exact .quiet (.refl _)
    · simp only [execute, result]
      rw [(Table.rows_insert inserted).1]
      exact @Moves.saved table.rows row.inserted rfl others
  | updateConsumed tokenHash clientID moment => exact updateConsumed_moves _ _ _ _
  | updateRevoked selector moment =>
    have rows := (execute_ledger (.updateRevoked selector moment) table).1
    rw [rows]
    exact .quiet (LedgerAction.evolution (fun _ wrong => by cases wrong) fun _ => trivial)
  | deleteFamilies families =>
    have rows := (execute_ledger (.deleteFamilies families) table).1
    rw [rows]
    exact .purged families
  | _ => exact .quiet (.refl _)

theorem Happens.moves {store after : Store} {statement : Statement}
    {answer : Except String statement.Reply} (happens : Happens store statement answer after) :
    Moves store.rows (statement.deed answer) after.rows := by
  cases happens with
  | failed cause =>
    cases statement with
    | refresh statement => cases statement <;> exact .quiet (.refl _)
    | _ => exact .quiet (.refl _)
  | executed =>
    cases statement with
    | refresh statement => exact statement.execute_moves store.refreshTokens
    | _ => exact .quiet (.refl _)

/-- Every step of the server makes the move of its deed. -/
theorem serverWorld_moves {log : List (Event serverCalls)} {store after : Store}
    {event : Event serverCalls} (happens : serverWorld log store event after) :
    Moves store.rows (observeServer event.effect event.answer) after.rows := by
  obtain ⟨process, effect, answer⟩ := event
  cases effect with
  | inl call =>
    obtain rfl : after = store := happens
    cases call with
    | now => exact .read answer
    | randomFamilyID =>
      cases answer with
      | error cause => exact .quiet (.refl _)
      | ok familyID => exact .drew familyID
    | _ => exact .quiet (.refl _)
  | inr statement => exact Happens.moves happens

section Methods

variable {Result : Type} {maxLifetime : Time} {draws : Prop} {standing : Standing}

variable (program : Program statements Result)

abbrev Keeps (maxLifetime : Time) (draws : Prop) (post : Standing → Result → Prop)
    (standing : Standing) : Prop :=
  program.Meets (lineageProtocol maxLifetime draws) observeStatements post standing

/-- A quiet program leaves every standing. -/
abbrev Quiet : Prop :=
  ∀ maxLifetime draws standing,
    Keeps program maxLifetime draws (fun after _ => after = standing) standing

theorem quiet_interpret {inner : Signature}
    {embed : ∀ effect, Program statements (inner.Answer effect)}
    (quiet : ∀ effect, Quiet (embed effect)) (program : Program inner Result) :
    Quiet (program.interpret embed) := by
  intro maxLifetime draws standing
  induction program with
  | done result => rfl
  | perform effect next ih =>
    refine (quiet effect maxLifetime draws standing).bind ?_
    rintro after answer rfl
    exact ih answer

variable (crypto : Crypto)

theorem pollDeviceCode_quiet (deviceCode : String) (now : Time) :
    Quiet (pollDeviceCode crypto deviceCode now) := by
  intro maxLifetime draws standing selected _
  have slowed : ∀ hash, Quiet (pollDeviceCode.slowDown now hash) := by
    intro hash _ _ _ answer _
    refine ⟨trivial, ?_⟩
    cases answer <;> rfl
  refine ⟨trivial, ?_⟩
  rcases selected with cause | _ | row
  · rfl
  · rfl
  change Keeps (if wellPaced row now then _ else _) _ _ _ _
  split
  · intro swapped _
    refine ⟨trivial, ?_⟩
    rcases swapped with cause | _ | _ | count
    · rfl
    · exact slowed _ _ _ _
    · rfl
    · exact slowed _ _ _ _
  · exact slowed _ _ _ _

theorem revokeRefresh_quiet (selector : Selector) (moment : Time) :
    Quiet (revokeRefresh selector moment) := by
  intro maxLifetime draws standing answer _
  refine ⟨trivial, ?_⟩
  cases answer <;> rfl

theorem revokeRefreshFamily_quiet (familyID : String) (moment : Time) :
    Quiet (revokeRefreshFamily familyID moment) := by
  intro maxLifetime draws standing
  refine (revokeRefresh_quiet _ _ maxLifetime draws standing).bind ?_
  rintro after (error | count) rfl
  · rfl
  dsimp only
  split
  · rfl
  · intro present _
    refine ⟨trivial, ?_⟩
    rcases present with cause | _ | _ <;> rfl

theorem revocation_quiet (selector : Selector) (moment : Time) :
    Quiet (revocation selector moment) := by
  cases selector with
  | family familyID => exact revokeRefreshFamily_quiet familyID moment
  | email address => exact revokeRefresh_quiet (.email address) moment
  | subject connectorID upstream => exact revokeRefresh_quiet (.subject connectorID upstream) moment

/-- This says that a method shows the deed of its call and nothing else. -/
def Shows (call : StoreCall) (body : Program statements call.Answer) : Prop :=
  ∀ maxLifetime draws standing, (∀ answer, (lineageProtocol maxLifetime draws).assumes standing
        (observeCalls (.inr call) answer) →
      (lineageProtocol maxLifetime draws).permits standing (observeCalls (.inr call) answer)) →
    Keeps body maxLifetime draws
      (fun after answer => (lineageProtocol maxLifetime draws).assumes standing
          (observeCalls (.inr call) answer) ∧
        after = (lineageProtocol maxLifetime draws).advance standing
          (observeCalls (.inr call) answer)) standing

/-- A quiet method shows a call without a deed. -/
theorem Shows.of_quiet {call : StoreCall} {body : Program statements call.Answer}
    (deed : ∀ answer, observeCalls (.inr call) answer = .quiet)
    (quiet : Quiet body) : Shows call body := by
  intro maxLifetime draws standing _
  refine (quiet maxLifetime draws standing).mono ?_
  rintro after answer rfl
  rw [deed answer]
  exact ⟨trivial, rfl⟩

/-- Every method shows what it did. -/
theorem refreshMethod_shows (call : RefreshCall) :
    Shows (.refresh call) (refreshMethod crypto call) := by
  cases call with
  | saveRefresh refresh =>
    intro maxLifetime draws standing permitted answer _
    rcases answer with cause | _ | _ | count
    · exact ⟨trivial, trivial, rfl⟩
    · exact ⟨trivial, trivial, rfl⟩
    · exact ⟨trivial, trivial, rfl⟩
    · exact ⟨permitted (.ok ()) trivial, trivial, rfl⟩
  | consumeRefresh token clientID moment =>
    intro maxLifetime draws standing permitted updated assumed
    rcases updated with cause | _ | row
    · exact ⟨trivial, trivial, rfl⟩
    · refine ⟨trivial, fun selected _ => ⟨trivial, ?_⟩⟩
      rcases selected with cause | _ | row <;> exact ⟨trivial, rfl⟩
    · exact ⟨permitted (.ok (row.scanRefresh token)) assumed, assumed, rfl⟩
  | revokeRefreshFamily familyID moment =>
    exact .of_quiet (fun _ => rfl) (revokeRefreshFamily_quiet _ _)
  | _ => exact .of_quiet (fun _ => rfl) (revokeRefresh_quiet _ _)

theorem method_shows (call : StoreCall) : Shows call (method crypto call) := by
  cases call with
  | refresh call => exact refreshMethod_shows crypto call
  | authCode call | authRequest call =>
    cases call <;> refine .of_quiet (fun _ => rfl) (quiet_interpret ?_ _) <;>
      exact fun _ _ _ _ _ _ => ⟨trivial, rfl⟩
  | deviceCode call =>
    cases call with
    | pollDeviceCode deviceCode now =>
      exact .of_quiet (fun _ => rfl) (pollDeviceCode_quiet _ _ _)
    | _ =>
      refine .of_quiet (fun _ => rfl) fun _ _ _ answer _ => ⟨trivial, ?_⟩
      rcases answer with cause | _ | row <;> rfl

theorem readPages_quiet (reaper : Reaper) (now : Time) (pages cursor : Nat) (seen : Seen) :
    Quiet (reaper.readPages now pages cursor seen) := by
  intro maxLifetime draws standing
  induction pages generalizing cursor seen with
  | zero => rfl
  | succ pages ih =>
    intro page _
    refine ⟨trivial, ?_⟩
    cases page with
    | error cause => rfl
    | ok entries =>
      change Keeps (if entries.length < reaper.batch then _ else _) _ _ _ _
      split
      · rfl
      · exact ih _ _

theorem deleteChunks_sweeps (chunks : List (List String)) (deleted : Nat) :
    Keeps (Reaper.deleteChunks chunks deleted) maxLifetime draws (fun _ _ => True) .sweeping := by
  induction chunks generalizing deleted with
  | nil => trivial
  | cons chunk rest ih =>
    intro answer _
    cases answer with
    | error cause => exact ⟨trivial, trivial⟩
    | ok count => exact ⟨rfl, ih _⟩

theorem reapRefreshFamilies_sweeps (reaper : Reaper) (now : Time) :
    Keeps (reaper.reapRefreshFamilies now) maxLifetime draws (fun _ _ => True) .sweeping := by
  refine (readPages_quiet reaper now _ _ _ _ _ _).bind ?_
  rintro after (cause | seen) rfl
  · trivial
  · exact deleteChunks_sweeps _ _

end Methods

/-- A served handler keeps to the protocol that the handler keeps to. -/
theorem serve_keeps {Result : Type} {handler : Handler Result} {maxLifetime : Time}
    {post : Standing → Result → Prop} {standing : Standing} (crypto : Crypto)
    (keeps : handler.Keeps maxLifetime draws post standing) :
    (serve crypto handler).Meets (lineageProtocol maxLifetime draws) observeServer post
      standing := by
  refine keeps.interpret ?_
  rintro (call | call) current permitted
  · exact fun answer assumed => ⟨permitted answer assumed, assumed, rfl⟩
  · exact (Program.meets_second _ _).mpr (method_shows crypto call maxLifetime draws current
      permitted)

/-- A sweep starts as one, and every other task starts without a family. -/
def Task.standing : Task → Standing
  | .sweep _ => .sweeping
  | .token _ | .revoke _ _ => .idle none

theorem Task.standing_entry (task : Task) : task.standing.entry = none := by
  cases task <;> rfl

def Outcome.Fits (standing : Standing) : Outcome → Prop
  | .answered request result => Settles request.Rotates standing result
  | .revoked _ | .swept _ _ => True

/-- Every task keeps to the protocol if its token request does. -/
theorem Task.keeps (crypto : Crypto) (task : Task)
    (tokens : ∀ request, task = .token request →
      (dispatch config request).Keeps config.refreshMaxLifetime draws (Settles request.Rotates)
        (.idle none)) :
    (task.program crypto config).Meets (lineageProtocol config.refreshMaxLifetime draws)
      observeServer Outcome.Fits task.standing := by
  cases task with
  | token request => exact (serve_keeps crypto (tokens request rfl)).bind fun _ _ holds => holds
  | revoke selector moment =>
    refine Program.Meets.bind
      ((Program.meets_second _ _).mpr (revocation_quiet selector moment _ _ _)) fun _ _ _ => trivial
  | sweep reaper =>
    have swept : (Sqlite.sweep reaper).Meets (lineageProtocol config.refreshMaxLifetime draws)
        observeServer (fun _ _ => True) .sweeping := fun moment _ =>
      ⟨trivial, (Program.meets_second _ _).mpr (reapRefreshFamilies_sweeps reaper moment)⟩
    exact swept.bind fun _ _ _ => trivial

theorem server_follows (crypto : Crypto) (store : Store)
    {tasks : Nat → Task}
    (tokens : ∀ process request, tasks process = .token request →
      (dispatch config request).Keeps config.refreshMaxLifetime draws (Settles request.Rotates)
        (.idle none)) :
    (server crypto config store tasks).Follows (lineageProtocol config.refreshMaxLifetime draws)
      observeServer Outcome.Fits fun process => (tasks process).standing :=
  fun process => (tasks process).keeps crypto (tokens process)

/-- This is how far a process has come. -/
abbrev standingOf (config : TokenConfig) (draws : Prop) (tasks : Nat → Task)
    (log : List (Event serverCalls)) (process : Nat) : Standing :=
  (lineageProtocol config.refreshMaxLifetime draws).ghost observeServer
    (fun process => (tasks process).standing) log process

/-- One public client signs in at one connector for one domain. -/
def sampleConfig : TokenConfig :=
  sampleTokens [("client", ⟨[], [.refreshToken], ""⟩)] (by decide) false

/-- One token is live until the time 10. -/
def sampleStore : Store :=
  { Store.empty with
    refreshTokens := Table.empty.append (.ofRefresh plainCrypto sampleRefresh) (by simp) }

/-- A clock reading that is the first event of the run shows 10, and every later one shows 20. -/
def sampleScript (log : List (Event serverCalls)) (_ : Nat) :
    (call : EnvironmentCall) → call.Answer :=
  sampleEnvironment (if log.isEmpty then 10 else 20) "fresh"

end Tempogate.Sqlite
