/-
This file proves the lineage invariant of the refresh families of the SQLite store.
-/

import Tempogate.Proof.Refresh.Lineage
import Tempogate.Proof.Refresh.SqliteDeeds

namespace Tempogate.Sqlite

open Foundation Oidc State

/-- A drawn family has a name that no stored row has and that nobody drew before. -/
def FreshFamilies (before : Configuration serverCalls Store Outcome) (event : Event serverCalls) :
    Prop :=
  ∀ familyID, observeServer event.effect event.answer = .drew familyID →
    familyID ≠ "" ∧ FamilyAbsent before.store.rows familyID ∧
      ∀ process, ¬ Showed observeServer before.log process (.drew familyID)

def liveTokens (rows : List RefreshRow) (familyID : String) : List RefreshRow :=
  rows.filter fun row => row.familyID = familyID && row.live

theorem Store.keyed (store : Store) : Keyed store.rows :=
  fun _ inFirst _ inSecond same => store.refreshTokens.eq_of_key_eq inFirst inSecond same

/-- Lineal rows hold at most one live token of each family. -/
theorem liveTokens_length_le_one {maxLifetime : Time} {store : Store}
    (lineal : Lineal maxLifetime store.rows) (familyID : String) :
    (liveTokens store.rows familyID).length ≤ 1 := by
  have distinct : (liveTokens store.rows familyID).Nodup :=
    (List.Nodup.of_map _ store.refreshTokens.distinct).filter _
  have same : ∀ first ∈ liveTokens store.rows familyID,
      ∀ second ∈ liveTokens store.rows familyID, first = second := by
    intro first inFirst second inSecond
    simp only [liveTokens, List.mem_filter, Bool.and_eq_true, decide_eq_true_eq] at inFirst inSecond
    obtain ⟨present, family, live⟩ := inFirst
    obtain ⟨presentToo, familyToo, liveToo⟩ := inSecond
    exact store.keyed first present second presentToo
      (lineal.single first present second presentToo (family.trans familyToo.symm) live liveToo)
  match live : liveTokens store.rows familyID with
  | [] => simp
  | [row] => simp
  | first :: second :: rest =>
    rw [live] at distinct same
    have equal := same first (by simp) second (by simp)
    simp [equal] at distinct

section Sound

variable {config : TokenConfig} {tasks : Nat → Task}
  {before after : Configuration serverCalls Store Outcome} {event : Event serverCalls}

/-- The rows are lineal, the families in use are guarded and every process recalls its deeds. -/
structure Sound (config : TokenConfig) (tasks : Nat → Task)
    (current : Configuration serverCalls Store Outcome) : Prop where
  lineal : Lineal config.refreshMaxLifetime current.store.rows
  guarded : Guarded current.store.rows (standingOf config True tasks current.log)
  recalls : ∀ process, Recalls config.refreshMaxLifetime observeServer current.log process
    (standingOf config True tasks current.log process)

namespace Sound

/-- A server without sweeps starts sound on lineal rows. -/
theorem initial (crypto : Crypto) {store : Store}
    (lineal : Lineal config.refreshMaxLifetime store.rows)
    (unswept : ∀ process reaper, tasks process ≠ .sweep reaper) :
    Sound config tasks (server crypto config store tasks) := by
  have idle : ∀ process, (tasks process).standing = .idle none := by
    intro process
    cases task : tasks process with
    | token request => rfl
    | revoke selector moment => rfl
    | sweep reaper => exact absurd task (unswept process reaper)
  have unentered : ∀ process deed, (standingOf config True tasks [] process).entry ≠ some deed := by
    intro process deed entered
    cases (tasks process).standing_entry.symm.trans entered
  refine ⟨lineal, ⟨?_, ?_, ?_, ?_⟩, ?_⟩
  · intro one other first second isOne
    exact absurd isOne (unentered first one)
  · intro deed process entered
    exact absurd entered (unentered process deed)
  · intro familyID process entered
    exact absurd entered (unentered process _)
  · intro origin expiresAt moment process entered
    exact absurd entered (unentered process _)
  · intro process
    change Recalls _ _ [] process (tasks process).standing
    rw [idle process]
    exact .initial

variable (sound : Sound config tasks before)

include sound

/-- The world keeps the assumption that families have names. -/
theorem assumes (fresh : FreshFamilies before event) (move : Step serverWorld before event after)
    (standing : Standing) :
    (lineageProtocol config.refreshMaxLifetime True).assumes standing
      (observeServer event.effect event.answer) := by
  have moves := serverWorld_moves move.happens
  have named := fun familyID shown => (fresh familyID shown).1
  generalize observeServer event.effect event.answer = deed at moves named ⊢
  generalize after.store.rows = later at moves
  cases moves with
  | took moment present live evolution spent => exact sound.lineal.named _ present
  | drew familyID => exact fun _ => named familyID rfl
  | _ => trivial

/-- A fresh family is held by nobody. -/
theorem unheld {familyID : String} (absent : FamilyAbsent before.store.rows familyID)
    (undrawn : ∀ process, ¬ Showed observeServer before.log process (.drew familyID)) :
    ∀ process entry, (standingOf config True tasks before.log process).entry = some entry →
      entry.familyID ≠ familyID := by
  rintro process entry entered rfl
  rcases Standing.entry_eq_some entered with ⟨drawn, rfl⟩ | ⟨origin, expiresAt, moment, rfl⟩
  · exact undrawn process (showed_of_entry (fun process => (tasks process).standing_entry) entered)
  · obtain ⟨row, present, same⟩ := sound.guarded.taken origin expiresAt moment process entered
    exact absent row present (congrArg Origin.familyID same)

/-- Every permitted step with fresh draws is sound. -/
theorem step (fresh : FreshFamilies before event) (move : Step serverWorld before event after)
    (permitted : (lineageProtocol config.refreshMaxLifetime True).permits
      (standingOf config True tasks before.log event.process)
      (observeServer event.effect event.answer)) :
    Sound config tasks after := by
  have enters : Enters (standingOf config True tasks before.log)
      (standingOf config True tasks after.log) event.process
      (observeServer event.effect event.answer) := by
    intro holder entry entered
    rw [move.log_eq] at entered
    exact entry_of_cons entered
  have kept := (serverWorld_moves move.happens).lineal sound.lineal sound.guarded
    before.store.keyed enters permitted (sound.recalls event.process).awake
    fun familyID shown => ⟨(fresh familyID shown).2.1,
      sound.unheld (fresh familyID shown).2.1 (fresh familyID shown).2.2⟩
  refine ⟨kept.1, kept.2, fun process => ?_⟩
  rw [move.log_eq]
  by_cases mine : event.process = process
  · subst mine
    unfold standingOf
    rw [Protocol.ghost_self]
    exact (sound.recalls event.process).step rfl permitted
  · unfold standingOf
    rw [Protocol.ghost_of_ne _ _ _ _ mine]
    exact (sound.recalls process).keep fun same => absurd same mine

end Sound

/-- Every process keeps to the protocol. -/
abbrev Drawing (config : TokenConfig) (tasks : Nat → Task)
    (current : Configuration serverCalls Store Outcome) : Prop :=
  current.Follows (lineageProtocol config.refreshMaxLifetime True) observeServer Outcome.Fits
    fun process => (tasks process).standing

theorem Sound.run (sound : Sound config tasks before) (obeys : Drawing config tasks before)
    (reached : Reaches serverWorld FreshFamilies before after) :
    Sound config tasks after ∧ Drawing config tasks after := by
  refine reached.follows (Sound config tasks) sound obeys ?_
  intro middle event later soundMiddle _ fresh move
  exact ⟨soundMiddle.assumes fresh move _, soundMiddle.step fresh move⟩

/-- An answered request is settled as its answer says. -/
theorem Drawing.settles (obeys : Drawing config tasks after) {process : Nat}
    {request : TokenRequest} {result : Except TokenError TokenOutput}
    (answered : after.processes process = .done (.answered request result)) :
    Settles request.Rotates (standingOf config True tasks after.log process) result := by
  have meets := obeys process
  rw [answered] at meets
  exact meets

/-- In every run with fresh draws and without sweeps, each family has at most one live token, its
rows share their origin and end in time, no token is rotated late, and a request that fails after
taking a token leaves the family dead. -/
theorem refresh_families_stay_lineal (crypto : Crypto) (config : TokenConfig) (store : Store)
    (tasks : Nat → Task) (lineal : Lineal config.refreshMaxLifetime store.rows)
    (unswept : ∀ process reaper, tasks process ≠ .sweep reaper)
    {after : Configuration serverCalls Store Outcome}
    (reached : Reaches serverWorld FreshFamilies (server crypto config store tasks) after) :
    (∀ familyID, (liveTokens after.store.rows familyID).length ≤ 1) ∧
      (∀ first ∈ after.store.rows, ∀ second ∈ after.store.rows, first.familyID = second.familyID →
        first.SameOwner second ∧ first.authTime = second.authTime) ∧
      (∀ row ∈ after.store.rows, row.expiresAt ≤ row.authTime + config.refreshMaxLifetime) ∧
      (∀ process request output, after.processes process = .done (.answered request (.ok output)) →
        request.form.get "grant_type" = "refresh_token" →
        ∃ origin expiresAt moment,
          Showed observeServer after.log process (.took origin expiresAt moment)) ∧
      (∀ process request output origin expiresAt moment,
        after.processes process = .done (.answered request (.ok output)) →
        Showed observeServer after.log process (.took origin expiresAt moment) →
        Showed observeServer after.log process (.read moment) ∧ moment ≤ expiresAt ∧
          moment < origin.authTime + config.refreshMaxLifetime) ∧
      ∀ process request error origin expiresAt moment,
        after.processes process = .done (.answered request (.error error)) →
        Showed observeServer after.log process (.took origin expiresAt moment) →
        FamilyDead after.store.rows origin.familyID := by
  have start : Drawing config tasks (server crypto config store tasks) :=
    server_follows crypto store fun _ request _ => dispatch_keeps trivial request
  obtain ⟨sound, obeys⟩ := (Sound.initial crypto lineal unswept).run start reached
  refine ⟨liveTokens_length_le_one sound.lineal, ?_, sound.lineal.bounded, ?_, ?_, ?_⟩
  · intro first inFirst second inSecond family
    have same := sound.lineal.shared first inFirst second inSecond family
    simp only [RefreshRow.origin, Origin.mk.injEq] at same
    obtain ⟨client, connector, subject, email, -, authTime⟩ := same
    exact ⟨⟨client, connector, subject, email⟩, authTime⟩
  · intro process request output answered refreshes
    obtain ⟨rotated, settled, rotates⟩ := obeys.settles answered
    obtain ⟨⟨origin, expiresAt, moment⟩, rfl⟩ := Option.isSome_iff_exists.mp (rotates refreshes)
    exact ⟨origin, expiresAt, moment,
      ((sound.recalls process).settled origin expiresAt moment settled).1⟩
  · intro process request output origin expiresAt moment answered showed
    obtain ⟨rotated, settled, -⟩ := obeys.settles answered
    obtain ⟨read, took | same⟩ := (sound.recalls process).taken origin expiresAt moment showed
    · cases took.symm.trans settled
    · exact ⟨read, ((sound.recalls process).settled origin expiresAt moment same).2⟩
  · intro process request error origin expiresAt moment answered showed
    have unsettled := obeys.settles answered
    obtain ⟨-, took | same⟩ := (sound.recalls process).taken origin expiresAt moment showed
    · exact sound.guarded.dead (.took origin expiresAt moment) process
        (congrArg Standing.entry took)
    · exact absurd same (unsettled _)

end Sound

def sampleRotation : TokenRequest :=
  ⟨[("grant_type", "refresh_token"), ("refresh_token", "token"), ("client_id", "client")], none⟩

/-- Every process presents the same token. -/
def samplePresentations (order : List Nat) : Configuration serverCalls Store Outcome :=
  (server plainCrypto sampleConfig sampleStore fun _ => .token sampleRotation).turns
    (serverExecutor sampleScript) order

/-- The first presentation is answered with tokens, and one live token is left. -/
theorem refresh_families_stay_lineal_sample :
    (samplePresentations [0, 0, 0, 0, 0, 0, 0, 0]).processes 0 = .done (.answered sampleRotation
          (.ok ⟨"no-store", "no-cache", "access", "Bearer", 0, "child", "id"⟩)) ∧
      (liveTokens (samplePresentations [0, 0, 0, 0, 0, 0, 0, 0]).store.rows "family").length ≤ 1 ∧
      (liveTokens (samplePresentations [0, 0, 0, 0, 0, 0, 0, 0]).store.rows "family").length ≠
        0 := by
  have lineal : Lineal sampleConfig.refreshMaxLifetime sampleStore.rows :=
    ⟨by decide, by decide, by decide, by decide⟩
  have follows := serverExecutor_follows sampleScript
  have lawful : (server plainCrypto sampleConfig sampleStore
      fun _ => .token sampleRotation).Lawful serverWorld FreshFamilies
        (serverExecutor sampleScript) [0, 0, 0, 0, 0, 0, 0, 0] :=
    ⟨⟨nofun, follows _ _ _ _⟩, ⟨nofun, follows _ _ _ _⟩, ⟨nofun, follows _ _ _ _⟩,
      ⟨nofun, follows _ _ _ _⟩, ⟨nofun, follows _ _ _ _⟩, ⟨nofun, follows _ _ _ _⟩,
      ⟨nofun, follows _ _ _ _⟩, ⟨nofun, follows _ _ _ _⟩, trivial⟩
  have conclusion := refresh_families_stay_lineal plainCrypto sampleConfig sampleStore
    (fun _ => .token sampleRotation) lineal (fun _ _ => nofun) lawful.reaches
  exact ⟨rfl, conclusion.1 "family", by decide⟩

end Tempogate.Sqlite
