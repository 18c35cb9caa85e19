/-
This file shows when a login is not undone by a renewal of the session it replaced.
-/

import Tempogate.Proof.Cli.Refresh

namespace Tempogate.Cli

open Foundation Oidc Stage Configuration.Lawful Function

section Conditions

variable (commands : Nat → CommandLine) (log : List (Event fileCalls))

/-- The owner of a token is the login that it stems from, or nobody for the token of the start. -/
structure Owners where
  file : Option Nat
  loaded : Nat → Option Nat

/-- A login saves its own token. A refresh saves one that stems from the token it loaded. -/
def Owners.note (owners : Owners) : Event fileCalls → Owners
  | ⟨process, .load, .ok _⟩ =>
    { owners with loaded := update owners.loaded process owners.file }
  | ⟨process, .save _, .ok _⟩ =>
    { owners with
      file := if (commands process).logsIn then some process else owners.loaded process }
  | _ => owners

def Owners.of : Owners :=
  log.foldr (fun event owners => owners.note commands event) ⟨none, fun _ => none⟩

/-- The login has saved its token. -/
def LoginSaves (process : Nat) : Event fileCalls → Prop
  | ⟨other, .save _, answer⟩ =>
    other = process ∧ (commands process).logsIn = true ∧ answer = .ok ()
  | _ => False

/-- A login has saved its token, and the file now holds one that stems neither from it nor from a
later login. -/
def Undone : Prop :=
  ∃ later save earlier process, log = later ++ save :: earlier ∧
    LoginSaves commands process save ∧ (Owners.of commands log).file ≠ some process ∧
    ∀ other event, event ∈ later → LoginSaves commands other event →
      (Owners.of commands log).file ≠ some other

/-- A login saves only while nobody holds the refresh lock. -/
def Waits (before : Shell) : Event fileCalls → Prop
  | ⟨process, .save _, _⟩ => (commands process).logsIn = true → before.store.holder = none
  | _ => True

end Conditions

open Owners

/-- The command will save what it makes of the token it has loaded under the lock. -/
def Stage.Knows : Stage → Prop
  | holding _ | sent _ _ => True
  | _ => False

theorem Stage.Knows.locked {stage : Stage} (knows : stage.Knows) : stage.Locked := by
  cases stage with
  | holding token => trivial
  | sent token response => trivial
  | _ => exact knows.elim

/-- Only a login stands in these stages. -/
def Stage.LogsIn : Stage → Bool
  | signing | signed _ => true
  | _ => false

/-- The token that the holder of the lock has loaded stems from the sign-in of the file. -/
structure Lineage (commands : Nat → CommandLine) (view : View) : Prop where
  exclusive : Exclusive view
  kind : ∀ process, (view.stages process).LogsIn = (commands process).logsIn
  loaded : ∀ process, (view.stages process).Knows →
    (of commands view.log).loaded process = (of commands view.log).file
  standing : ¬ Undone commands view.log

section Lineage

variable {commands : Nat → CommandLine} {view : View} {event : Event fileCalls} {stage : Stage}
  {disk : Disk}

variable {log : List (Event fileCalls)}

/-- An event that leaves the owner of the file alone undoes no login. -/
theorem not_undone_of_same (standing : ¬ Undone commands log)
    (other : ∀ process, ¬ LoginSaves commands process event)
    (same : (of commands (event :: log)).file = (of commands log).file) :
    ¬ Undone commands (event :: log) := by
  rintro ⟨later, save, earlier, process, split, saves, lost, unowned⟩
  rw [same] at lost unowned
  cases later with
  | nil =>
    obtain ⟨rfl, -⟩ := List.cons.inj split
    exact other process saves
  | cons newest later =>
    obtain ⟨rfl, rest⟩ := List.cons.inj split
    exact standing ⟨later, save, earlier, process, rest, saves, lost,
      fun other event member => unowned other event (.tail _ member)⟩

/-- A login that saves owns the file. -/
theorem not_undone_of_login {process : Nat} {token : Token}
    (login : (commands process).logsIn = true) :
    ¬ Undone commands (⟨process, .save token, .ok ()⟩ :: log) := by
  have owned : (of commands (⟨process, .save token, .ok ()⟩ :: log)).file = some process :=
    if_pos login
  rintro ⟨later, save, earlier, other, split, saves, lost, unowned⟩
  rw [owned] at lost unowned
  cases later with
  | nil =>
    obtain ⟨rfl, -⟩ := List.cons.inj split
    exact lost (congrArg some saves.1)
  | cons newest later =>
    obtain ⟨rfl, -⟩ := List.cons.inj split
    exact unowned process _ (.head _) ⟨rfl, login, rfl⟩ rfl

section

variable (lineage : Lineage commands view)

include lineage

/-- A step that changes neither owner keeps the lineage. -/
theorem Lineage.quiet (turn : Turn (view.stages event.process) view.disk event stage disk)
    (same : of commands (event :: view.log) = of commands view.log)
    (other : ∀ process, ¬ LoginSaves commands process event)
    (kind : stage.LogsIn = (view.stages event.process).LogsIn)
    (knows : stage.Knows → (view.stages event.process).Knows) :
    Lineage commands (view.move event stage disk) where
  exclusive := lineage.exclusive.move turn
  kind := (forall_update_iff _ fun _ stage => LogsIn stage = _).mpr
    ⟨kind.trans (lineage.kind _), fun process _ => lineage.kind process⟩
  loaded := by
    change ∀ process, Knows _ → (of commands (event :: view.log)).loaded process =
      (of commands (event :: view.log)).file
    rw [same]
    exact (forall_update_iff _ fun _ stage => Knows stage → _).mpr
      ⟨fun known => lineage.loaded _ (knows known), fun process _ => lineage.loaded process⟩
  standing := not_undone_of_same lineage.standing other (congrArg file same)

variable {process : Nat}

/-- A load gives the command the owner of the file. -/
theorem Lineage.loads {token : Token}
    (turn : Turn (view.stages process) view.disk ⟨process, .load, .ok token⟩ stage disk)
    (kind : stage.LogsIn = (view.stages process).LogsIn) :
    Lineage commands (view.move ⟨process, .load, .ok token⟩ stage disk) where
  exclusive := lineage.exclusive.move turn
  kind := (forall_update_iff _ fun _ stage => LogsIn stage = _).mpr
    ⟨kind.trans (lineage.kind _), fun other _ => lineage.kind other⟩
  loaded := (forall_update_iff _ fun process stage => Knows stage →
      update _ _ _ process = _).mpr
    ⟨fun _ => update_self .., fun other differs known =>
      (update_of_ne differs ..).trans (lineage.loaded other known)⟩
  standing := not_undone_of_same lineage.standing (fun _ => id) rfl

/-- A renewed token stems from the sign-in of the file. -/
theorem Lineage.renewed {token renewed : Token} {response : TokenResponse}
    (sent : view.stages process = .sent token response)
    (renews : Renews token response renewed) :
    Lineage commands (view.move ⟨process, .save renewed, .ok ()⟩ .inside
      { view.disk with file := some renewed }) := by
  have renewal : (commands process).logsIn = false := by
    rw [← lineage.kind process, sent]
    rfl
  have owner := lineage.loaded process (sent ▸ trivial)
  have same : (of commands (⟨process, .save renewed, .ok ()⟩ :: view.log)).file =
      (of commands view.log).file :=
    (if_neg (by rw [renewal]; exact Bool.false_ne_true)).trans owner
  refine ⟨lineage.exclusive.move (.renewed sent renews), ?_, ?_, ?_⟩
  · exact (forall_update_iff _ fun _ stage => LogsIn stage = _).mpr
      ⟨renewal.symm, fun other _ => lineage.kind other⟩
  · refine (forall_update_iff _ fun process stage => Knows stage → _).mpr
      ⟨False.elim, fun other differs known => ?_⟩
    exact absurd known.locked (lineage.exclusive.alone sent trivial differs)
  · refine not_undone_of_same lineage.standing (fun other saves => ?_) same
    obtain ⟨rfl, login, -⟩ := saves
    exact Bool.false_ne_true (renewal.symm.trans login)

/-- A login that finds the lock free replaces the sign-in of the file. -/
theorem Lineage.loggedIn {token : Token} (signed : view.stages process = .signed token)
    (free : view.disk.holder = none) :
    Lineage commands (view.move ⟨process, .save token, .ok ()⟩ .signing
      { view.disk with file := some token }) := by
  have login : (commands process).logsIn = true := by
    rw [← lineage.kind process, signed]
    rfl
  refine ⟨lineage.exclusive.move (.loggedIn signed), ?_, ?_, not_undone_of_login login⟩
  · exact (forall_update_iff _ fun _ stage => LogsIn stage = _).mpr
      ⟨login.symm, fun other _ => lineage.kind other⟩
  · refine (forall_update_iff _ fun process stage => Knows stage → _).mpr
      ⟨False.elim, fun other differs known => ?_⟩
    have held := lineage.exclusive other known.locked
    rw [free] at held
    cases held

/-- A turn keeps the lineage if logins wait for the lock. -/
theorem Lineage.move (turn : Turn (view.stages event.process) view.disk event stage disk)
    (waits : ∀ token, event.effect = .save token → (commands event.process).logsIn = true →
      view.disk.holder = none) : Lineage commands (view.move event stage disk) := by
  cases turn with
  | @still process call answer silent =>
    refine lineage.quiet (.still silent) ?_ ?_ rfl id <;> cases call <;>
      first | rfl | exact fun _ => id | cases silent
  | missed => exact lineage.quiet .missed rfl (fun _ => id) rfl id
  | peeked stands present => exact lineage.loads (.peeked stands present) (by rw [stands])
  | loaded stands present => exact lineage.loads (.loaded stands present) (by rw [stands]; rfl)
  | locked stands free =>
    exact lineage.quiet (.locked stands free) rfl (fun _ => id) (by rw [stands]; rfl) False.elim
  | @closed process stands =>
    refine lineage.quiet (.closed stands) rfl (fun _ => id) ?_ False.elim
    rcases stands with stands | idle
    · rw [stands]
    · cases stands : view.stages process <;> rw [stands] at idle <;> first | rfl | cases idle
  | answered stands =>
    exact lineage.quiet (.answered stands) rfl (fun _ => id) (by rw [stands]; rfl)
      fun _ => stands ▸ trivial
  | refused stands =>
    exact lineage.quiet (.refused stands) rfl (fun _ => id) (by rw [stands]; rfl) False.elim
  | renewed stands renews => exact lineage.renewed stands renews
  | lost stands =>
    exact lineage.quiet (.lost stands) rfl (fun _ saves => nomatch saves.2.2)
      (by rw [stands]; rfl) False.elim
  | signedIn stands =>
    exact lineage.quiet (.signedIn stands) rfl (fun _ => id) (by rw [stands]; rfl) False.elim
  | declined stands =>
    exact lineage.quiet (.declined stands) rfl (fun _ => id) (by rw [stands]) False.elim
  | @loggedIn process token stands =>
    have login : (commands process).logsIn = true := by
      rw [← lineage.kind process]
      exact stands ▸ rfl
    exact lineage.loggedIn stands (waits token rfl login)
  | dropped stands =>
    exact lineage.quiet (.dropped stands) rfl (fun _ saves => nomatch saves.2.2)
      (by rw [stands]; rfl) False.elim

end

end Lineage

theorem lineage_shell (commands : Nat → CommandLine) (file : Option Token) :
    Lineage commands (View.of commands (shell commands file)) where
  exclusive process locked := by
    change (if (commands process).logsIn then signing else .outside).Locked at locked
    split at locked
    · exact locked.elim
    · exact locked.elim
  kind process := by
    change (if (commands process).logsIn then signing else .outside).LogsIn = _
    cases (commands process).logsIn <;> rfl
  loaded _ _ := rfl
  standing := by
    rintro ⟨later, save, earlier, process, split, -⟩
    exact List.append_ne_nil_of_right_ne_nil later (List.cons_ne_nil save earlier) split.symm

theorem lineage_step {commands : Nat → CommandLine} {before after : Shell} {event : Event fileCalls}
    (lineage : Lineage commands (View.of commands before)) (waits : Waits commands before event)
    (step : Step fileWorld before event after)
    (permitted : renewal.permits (progress commands before.log event.process)
      ⟨event.effect, event.answer⟩) : Lineage commands (View.of commands after) := by
  obtain ⟨stage, turn, view, -, -⟩ := moves_of_step step permitted
  rw [view]
  refine lineage.move turn fun token isSave login => ?_
  obtain ⟨process, call, answer⟩ := event
  cases isSave
  exact waits login

/-- A login whose save waits for the lock is never undone. Afterwards the file holds its token, one
renewed from it, or that of a later login. -/
theorem waiting_login_is_not_undone (commands : Nat → CommandLine) (file : Option Token)
    {after : Shell} (reached : Reaches fileWorld (Waits commands) (shell commands file) after) :
    ¬ Undone commands after.log := by
  obtain ⟨lineage, -⟩ := reached.follows
    (fun current => Lineage commands (View.of commands current)) (lineage_shell commands file)
    (shell_follows commands file)
    fun _ _ _ lineage _ waits step => ⟨trivial, lineage_step lineage waits step⟩
  exact lineage.standing

/-- Process 0 renews, and process 1 logs in. -/
def sampleCommands (process : Nat) : CommandLine :=
  if process = 1 then .login else .ensureFresh sampleRefresh

def personalToken : Token := ⟨"mine", "personal", 7200000000000, "cli"⟩

/-- The login saves between the exchange of the renewal and its save. -/
def overwritten : Shell :=
  (shell sampleCommands (some oldToken)).turns (fileExecutor 0 newResponse personalToken)
    [0, 0, 0, 0, 0, 0, 0, 1, 1, 0, 0]

/-- The renewal of the replaced session overwrites the token of the login. -/
theorem renewal_undoes_login :
    Reaches fileWorld anyStep (shell sampleCommands (some oldToken)) overwritten ∧
      Undone sampleCommands overwritten.log ∧
      overwritten.store.file.map Token.refreshToken = some "new" := by
  refine ⟨reaches ?_, ?_, by decide⟩
  · exact ⟨⟨trivial, .loaded rfl⟩, ⟨trivial, .now⟩, ⟨trivial, .openLock⟩, ⟨trivial, .locked rfl⟩,
      ⟨trivial, .loaded rfl⟩, ⟨trivial, .now⟩, ⟨trivial, .exchange⟩, ⟨trivial, .signIn⟩,
      ⟨trivial, .saved⟩, ⟨trivial, .now⟩, ⟨trivial, .saved⟩, trivial⟩
  · refine ⟨overwritten.log.take 2, ⟨1, .save personalToken, .ok ()⟩, overwritten.log.drop 3, 1,
      rfl, ⟨rfl, rfl, rfl⟩, by decide, fun _ _ _ _ => nofun⟩

/-- The login saves before the renewal takes the lock. -/
def replaced : Shell :=
  (shell sampleCommands (some oldToken)).turns (fileExecutor 0 newResponse personalToken)
    [0, 0, 1, 1, 0, 0, 0, 0, 0]

theorem sample_login_is_not_undone :
    replaced.store.file = some personalToken ∧ ¬ Undone sampleCommands replaced.log := by
  refine ⟨by decide, waiting_login_is_not_undone sampleCommands (some oldToken)
    (reaches ?_)⟩
  exact ⟨⟨trivial, .loaded rfl⟩, ⟨trivial, .now⟩, ⟨trivial, .signIn⟩, ⟨fun _ => rfl, .saved⟩,
    ⟨trivial, .openLock⟩, ⟨trivial, .locked rfl⟩, ⟨trivial, .loaded rfl⟩, ⟨trivial, .now⟩,
    ⟨trivial, .closeLock⟩, trivial⟩

end Tempogate.Cli
