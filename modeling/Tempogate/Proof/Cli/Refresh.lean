/-
This file shows that concurrent renewals of one token file present no refresh token twice.
-/

import Tempogate.Construction.Cli.Refresh

namespace Tempogate.Cli

open Foundation Oidc RefreshConfig Protocol Exchange Function

variable {stage : Stage} {response : TokenResponse} {after : Progress} {Result : Type}

section Conditions

variable (file : Option Token) (log : List (Event fileCalls))

/-- These are the refresh tokens that were presented to the issuer, the newest one first. -/
def presented : List String :=
  log.filterMap fun
    | ⟨_, .exchange refreshToken _, _⟩ => some refreshToken
    | _ => none

/-- These are the refresh tokens that the issuer has given out. -/
def circulated : List String :=
  log.filterMap (fun
    | ⟨_, .exchange _ _, .ok response⟩ => some response.refreshToken
    | _ => none) ++ (file.map Token.refreshToken).toList

/-- An exchange is answered with a new refresh token, and a save succeeds. -/
def Answers : Event fileCalls → Prop
  | ⟨_, .exchange _ _, answer⟩ => ∃ response, answer = .ok response ∧
      response.refreshToken ≠ "" ∧ response.refreshToken ∉ circulated file log
  | ⟨_, .save _, answer⟩ => answer = .ok ()
  | _ => True

/-- Every exchange is answered with a refresh token that was never issued before, and saved. -/
def Answered (before : Shell) (event : Event fileCalls) : Prop :=
  Answers file before.log event

end Conditions

/-- A command stands outside the lock or inside it. Inside, it may hold the token it has loaded, or
the answer to its exchange. A login stands before its sign-in or holds its token. -/
inductive Stage
  | outside
  | inside
  | holding (token : Token)
  | sent (token : Token) (response : TokenResponse)
  | signing
  | signed (token : Token)

/-- The command holds the lock. -/
def Stage.Locked : Stage → Prop
  | inside | holding _ | sent _ _ => True
  | outside | signing | signed _ => False

/-- The command has presented its refresh token and not yet saved the answer. -/
def Stage.Sent : Stage → Prop
  | sent _ _ => True
  | _ => False

namespace Stage

def exchange (token : Token) (refreshToken : String) : Except String TokenResponse → Option Stage
  | answer => if refreshToken = token.refreshToken then
      some (match answer with
        | .ok response => sent token response
        | .error _ => inside)
    else none

/-- A renewed token has the refresh token of the answer, or the old one when there is none. -/
def Renews (token : Token) (response : TokenResponse) (renewed : Token) : Prop :=
  renewed.refreshToken =
    if response.refreshToken = "" then token.refreshToken else response.refreshToken

instance (token : Token) (response : TokenResponse) (renewed : Token) :
    Decidable (Renews token response renewed) := inferInstanceAs (Decidable (_ = _))

/-- A command that exchanges presents the refresh token it holds, and saves what it got for it. -/
def read : Stage → Exchange fileCalls → Option Stage
  | stage, ⟨.now, _⟩ => some stage
  | outside, ⟨.load, _⟩ => some outside
  | inside, ⟨.load, .ok token⟩ => some (holding token)
  | inside, ⟨.load, .error _⟩ => some inside
  | outside, ⟨.openLock, _⟩ => some outside
  | outside, ⟨.tryLock, .ok true⟩ => some inside
  | outside, ⟨.tryLock, .ok false⟩ => some outside
  | outside, ⟨.tryLock, .error _⟩ => some outside
  | outside, ⟨.overdue, _⟩ => some outside
  | outside, ⟨.pause, _⟩ => some outside
  | outside, ⟨.closeLock, _⟩ => some outside
  | inside, ⟨.closeLock, _⟩ => some outside
  | holding _, ⟨.closeLock, _⟩ => some outside
  | holding token, ⟨.exchange refreshToken _, answer⟩ => exchange token refreshToken answer
  | sent token response, ⟨.save renewed, _⟩ =>
    if Renews token response renewed then some inside else none
  | signing, ⟨.signIn, .ok token⟩ => some (signed token)
  | signing, ⟨.signIn, .error _⟩ => some signing
  | signed token, ⟨.save saved, _⟩ => if saved = token then some signing else none
  | _, _ => none

end Stage

/-- The progress of a command is its stage and the tokens it has seen in the file. -/
structure Progress where
  stage : Stage
  seen : List Token

/-- A token is seen when it is loaded and when it is saved. -/
def sighted : Exchange fileCalls → Option Token
  | ⟨.load, .ok token⟩ => some token
  | ⟨.save token, .ok ()⟩ => some token
  | _ => none

def Progress.read (progress : Progress) (exchange : Exchange fileCalls) : Option Progress :=
  (progress.stage.read exchange).map fun stage =>
    ⟨stage, (sighted exchange).toList ++ progress.seen⟩

def renewal : Protocol (Exchange fileCalls) Progress := .automaton Progress.read

/-- Commands follow the stages. -/
def Follows {Result : Type} (post : Progress → Result → Prop) (command : Command Result)
    (progress : Progress) : Prop :=
  command.Meets renewal mk post progress

variable {call : FileCall} {token : Token} {process : Nat}

section Commands

variable {seen : List Token}

namespace Follows

variable {progress : Progress}

theorem pure {post : Progress → Result → Prop} {result : Result} (holds : post progress result) :
    Follows post (.done result) progress := holds

theorem bind {Middle : Type} {middle : Progress → Middle → Prop}
    {post : Progress → Result → Prop} {command : Command Middle}
    {continuation : Middle → Command Result} (first : Follows middle command progress)
    (rest : ∀ after result, middle after result → Follows post (continuation result) after) :
    Follows post (command >>= continuation) progress :=
  Program.Meets.bind first rest

/-- A call whose every answer can be read moves the command on by the answer. -/
theorem ask (readable : ∀ answer : call.Answer, (progress.read ⟨call, answer⟩).isSome = true) :
    Follows (fun after answer => progress.read ⟨call, answer⟩ = some after) (ask call) progress :=
  Program.meets_automaton fun answer =>
    ⟨_, (Option.some_get (readable answer)).symm, (Option.some_get (readable answer)).symm⟩

/-- Some calls change nothing about the command. -/
theorem stay (reads : ∀ answer : call.Answer, progress.read ⟨call, answer⟩ = some progress) :
    Follows (fun after _ => after = progress) (Cli.ask call) progress :=
  Program.meets_automaton fun answer => ⟨_, reads answer, rfl⟩

end Follows

/-- A command that gets the lock is inside, and any other stays outside. -/
def LockResult (seen : List Token) (after : Progress) : Except String Unit → Prop
  | .ok () => after = ⟨.inside, seen⟩
  | .error _ => after = ⟨.outside, seen⟩

theorem giveUp_result (message : String) :
    Follows (LockResult seen) (giveUp message) ⟨.outside, seen⟩ := by
  refine .bind (.stay fun _ => rfl) fun after _ => ?_
  rintro rfl
  exact .pure rfl

theorem pollLock_follows (rounds : Nat) :
    Follows (LockResult seen) (pollLock rounds) ⟨.outside, seen⟩ := by
  induction rounds with
  | zero => exact giveUp_result _
  | succ rounds ih =>
    refine .bind (.ask fun taken => ?_) fun after taken told => ?_
    · rcases taken with _ | _ | _ <;> rfl
    match taken with
    | .error cause =>
      cases told
      exact giveUp_result _
    | .ok true =>
      cases told
      exact .pure rfl
    | .ok false =>
      cases told
      refine .bind (.stay fun _ => rfl) fun after overdue => ?_
      rintro rfl
      cases overdue with
      | true => exact giveUp_result _
      | false =>
        refine .bind (.stay fun _ => rfl) fun after waited => ?_
        rintro rfl
        match waited with
        | .error cause => exact giveUp_result _
        | .ok () => exact ih

variable (config : RefreshConfig)

theorem lockTokenFile_follows :
    Follows (LockResult seen) config.lockTokenFile ⟨.outside, seen⟩ := by
  refine .bind (.stay fun _ => rfl) fun after opened => ?_
  rintro rfl
  match opened with
  | .error cause => exact .pure rfl
  | .ok () => exact pollLock_follows _

/-- A command returns only a token that it has seen. -/
def Returns (after : Progress) (result : Except CommandError Token) : Prop :=
  ∀ token, result = .ok token → token ∈ after.seen

theorem returns_error {error : CommandError} : Returns after (.error error) :=
  nofun

theorem returns_seen (seen : token ∈ after.seen) : Returns after (.ok token) := by
  rintro _ ⟨⟩
  exact seen

/-- The command is inside the lock and has no unsaved answer. -/
def Stage.Idle : Stage → Prop
  | inside | holding _ => True
  | _ => False

/-- The exchange stays inside the lock. -/
theorem exchangeAndSave_follows (token : Token) (clientID : String) :
    Follows (fun after result => after.stage.Idle ∧ Returns after result)
      (exchangeAndSave token clientID) ⟨.holding token, seen⟩ := by
  refine .bind (.ask fun answer => ?_) fun after answer told => ?_
  · simp [Progress.read, Stage.read, Stage.exchange]
  simp only [Progress.read, Stage.read, Stage.exchange, if_true, Option.map_some,
    Option.some.injEq] at told
  subst told
  match answer with
  | .error cause => exact .pure ⟨trivial, returns_error⟩
  | .ok response =>
    refine .bind (.stay fun _ => rfl) fun after moment => ?_
    rintro rfl
    have renews : Stage.Renews token response (refreshed token clientID response moment) := rfl
    refine .bind (.ask fun saved => ?_) fun after saved told => ?_
    · simp [Progress.read, Stage.read, renews]
    simp only [Progress.read, Stage.read, if_pos renews, Option.map_some, Option.some.injEq] at told
    subst told
    match saved with
    | .error cause => exact .pure ⟨trivial, returns_error⟩
    | .ok () => exact .pure ⟨trivial, returns_seen (.head _)⟩

theorem renew_follows :
    Follows (fun after result => after.stage.Idle ∧ Returns after result) config.renew
      ⟨.inside, seen⟩ := by
  refine .bind (.ask fun loaded => ?_) fun after loaded told => ?_
  · cases loaded <;> rfl
  match loaded with
  | .error error =>
    cases told
    exact .pure ⟨trivial, returns_error⟩
  | .ok token =>
    cases told
    refine .bind (.stay fun _ => rfl) fun after moment => ?_
    rintro rfl
    dsimp only
    split
    · exact .pure ⟨trivial, returns_seen (.head _)⟩
    split
    · exact .pure ⟨trivial, returns_error⟩
    generalize (if token.clientID = "" then config.issuedTo token.accessToken
      else token.clientID) = clientID
    split
    · exact .pure ⟨trivial, returns_error⟩
    exact exchangeAndSave_follows token clientID

/-- A refresh returns only a token that it has seen. -/
theorem ensureFresh_follows : Follows Returns config.ensureFresh ⟨.outside, []⟩ := by
  unfold ensureFresh
  cases config.checkIssuer with
  | error message => exact .pure returns_error
  | ok _ =>
    refine .bind (.ask fun loaded => ?_) fun after loaded told => ?_
    · cases loaded <;> rfl
    match loaded with
    | .error error =>
      exact .pure returns_error
    | .ok token =>
      cases told
      refine .bind (.stay fun _ => rfl) fun after moment => ?_
      rintro rfl
      dsimp only
      split
      · exact .pure (returns_seen (.head _))
      refine .bind (lockTokenFile_follows config) fun after taken told => ?_
      match taken with
      | .error message => exact .pure returns_error
      | .ok () =>
        cases told
        refine .bind (renew_follows config) fun after result => ?_
        rintro ⟨idle, returns⟩
        obtain ⟨stage, seen⟩ := after
        refine .bind (.ask fun _ => ?_) fun after _ told => ?_
        · cases stage <;> first | rfl | cases idle
        · cases stage with
          | inside =>
            cases told
            exact .pure returns
          | holding token =>
            cases told
            exact .pure returns
          | _ => cases idle

theorem login_follows : Follows Returns login ⟨.signing, []⟩ := by
  refine .bind (.ask fun signedIn => ?_) fun after signedIn told => ?_
  · cases signedIn <;> rfl
  match signedIn with
  | .error cause =>
    exact .pure returns_error
  | .ok token =>
    cases told
    refine .bind (.ask fun saved => ?_) fun after saved told => ?_
    · simp [Progress.read, Stage.read]
    simp only [Progress.read, Stage.read, if_true, Option.map_some, Option.some.injEq] at told
    subst told
    match saved with
    | .error cause => exact .pure returns_error
    | .ok () => exact .pure (returns_seen (.head _))

end Commands

/-- These calls neither read nor change the token file or the issuer. -/
def Silent : FileCall → Prop
  | .now | .openLock | .tryLock | .overdue | .pause => True
  | _ => False

/-- These are all the steps that a command can take from a stage. -/
inductive Turn (before : Stage) (disk : Disk) : Event fileCalls → Stage → Disk → Prop
  | still {process : Nat} {call : FileCall} {answer : call.Answer} (silent : Silent call) :
      Turn before disk ⟨process, call, answer⟩ before disk
  | missed {process : Nat} {error : LoadError} :
      Turn before disk ⟨process, .load, .error error⟩ before disk
  | peeked {process : Nat} {token : Token} (stage : before = .outside)
      (present : disk.file = some token) :
      Turn before disk ⟨process, .load, .ok token⟩ .outside disk
  | loaded {process : Nat} {token : Token} (stage : before = .inside)
      (present : disk.file = some token) :
      Turn before disk ⟨process, .load, .ok token⟩ (.holding token) disk
  | locked {process : Nat} (stage : before = .outside) (free : disk.holder = none) :
      Turn before disk ⟨process, .tryLock, .ok true⟩ .inside { disk with holder := some process }
  | closed {process : Nat} (stage : before = .outside ∨ before.Idle) :
      Turn before disk ⟨process, .closeLock, ()⟩ .outside
        { disk with holder := if disk.holder = some process then none else disk.holder }
  | answered {process : Nat} {token : Token} {clientID : String} {response : TokenResponse}
      (stage : before = .holding token) :
      Turn before disk ⟨process, .exchange token.refreshToken clientID, .ok response⟩
        (.sent token response) disk
  | refused {process : Nat} {token : Token} {clientID cause : String}
      (stage : before = .holding token) :
      Turn before disk ⟨process, .exchange token.refreshToken clientID, .error cause⟩ .inside disk
  | renewed {process : Nat} {token renewed : Token} {response : TokenResponse}
      (stage : before = .sent token response) (renews : Stage.Renews token response renewed) :
      Turn before disk ⟨process, .save renewed, .ok ()⟩ .inside { disk with file := some renewed }
  | lost {process : Nat} {token renewed : Token} {response : TokenResponse} {cause : String}
      (stage : before = .sent token response) :
      Turn before disk ⟨process, .save renewed, .error cause⟩ .inside disk
  | signedIn {process : Nat} {token : Token} (stage : before = .signing) :
      Turn before disk ⟨process, .signIn, .ok token⟩ (.signed token) disk
  | declined {process : Nat} {cause : String} (stage : before = .signing) :
      Turn before disk ⟨process, .signIn, .error cause⟩ .signing disk
  | loggedIn {process : Nat} {token : Token} (stage : before = .signed token) :
      Turn before disk ⟨process, .save token, .ok ()⟩ .signing { disk with file := some token }
  | dropped {process : Nat} {token : Token} {cause : String} (stage : before = .signed token) :
      Turn before disk ⟨process, .save token, .error cause⟩ .signing disk

/-- What the stage reads and the disk does is one turn. -/
theorem turn_of_read {before after : Stage} {event : Event fileCalls} {disk next : Disk}
    (reads : before.read ⟨event.effect, event.answer⟩ = some after)
    (happens : Happens event.process disk event.effect event.answer next) :
    Turn before disk event after next := by
  obtain ⟨process, call, answer⟩ := event
  cases happens with
  | now =>
    have same : before = after := by cases before <;> exact Option.some.inj reads
    exact same ▸ .still trivial
  | loaded present =>
    cases before <;> cases reads
    · exact .peeked rfl present
    · exact .loaded rfl present
  | missing | loadFailed =>
    cases before <;> cases reads <;> exact .missed
  | locked free =>
    cases before <;> cases reads
    exact .locked rfl free
  | closeLock =>
    cases before <;> cases reads
    · exact .closed (.inl rfl)
    · exact .closed (.inr trivial)
    · exact .closed (.inr trivial)
  | @exchange refreshToken clientID answer =>
    cases before with
    | holding token =>
      obtain ⟨rfl, ⟨⟩⟩ := Option.ite_none_right_eq_some.mp reads
      cases answer with
      | ok response => exact .answered rfl
      | error cause => exact .refused rfl
    | _ => cases reads
  | @saved renewed =>
    cases before with
    | sent token response =>
      obtain ⟨renews, ⟨⟩⟩ := Option.ite_none_right_eq_some.mp reads
      exact .renewed rfl renews
    | signed token =>
      obtain ⟨rfl, ⟨⟩⟩ := Option.ite_none_right_eq_some.mp reads
      exact .loggedIn rfl
    | _ => cases reads
  | @saveFailed renewed cause =>
    cases before with
    | sent token response =>
      obtain ⟨renews, ⟨⟩⟩ := Option.ite_none_right_eq_some.mp reads
      exact .lost rfl
    | signed token =>
      obtain ⟨rfl, ⟨⟩⟩ := Option.ite_none_right_eq_some.mp reads
      exact .dropped rfl
    | _ => cases reads
  | @signIn answer =>
    cases answer with
    | ok token =>
      cases before <;> cases reads
      exact .signedIn rfl
    | error cause =>
      cases before <;> cases reads
      exact .declined rfl
  | _ =>
    cases before <;> cases reads
    exact .still trivial

variable (commands : Nat → CommandLine)

/-- Every command starts outside, or before its sign-in. -/
def begin (process : Nat) : Progress :=
  ⟨if (commands process).logsIn then .signing else .outside, []⟩

/-- This is what a command has done according to the history. -/
def progress (log : List (Event fileCalls)) (process : Nat) : Progress :=
  renewal.ghost mk (begin commands) log process

theorem shell_follows (file : Option Token) :
    (shell commands file).Follows renewal mk Returns (begin commands) := by
  intro process
  change (commands process).run.Meets renewal mk Returns (begin commands process)
  unfold begin
  cases commands process with
  | ensureFresh config => exact ensureFresh_follows config
  | login => exact login_follows

section Run

variable {commands : Nat → CommandLine} {before after : Shell} {event : Event fileCalls}

/-- The view of a run has the stage of every command, the disk and the history. -/
structure View where
  stages : Nat → Stage
  disk : Disk
  log : List (Event fileCalls)

def View.of (commands : Nat → CommandLine) (current : Shell) : View :=
  ⟨fun process => (progress commands current.log process).stage, current.store, current.log⟩

def View.move (view : View) (event : Event fileCalls) (stage : Stage) (disk : Disk) : View :=
  ⟨update view.stages event.process stage, disk, event :: view.log⟩

/-- This is what a step does to its own command and to the view. -/
structure Moves (commands : Nat → CommandLine) (before : Shell) (event : Event fileCalls)
    (after : Shell) (stage : Stage) : Prop where
  turn : Turn ((View.of commands before).stages event.process) before.store event stage after.store
  view : View.of commands after = (View.of commands before).move event stage after.store
  seen : (progress commands after.log event.process).seen =
    (sighted ⟨event.effect, event.answer⟩).toList ++
      (progress commands before.log event.process).seen
  others : ∀ process, process ≠ event.process →
    progress commands after.log process = progress commands before.log process

/-- A permitted step moves one command by one turn. -/
theorem moves_of_step (step : Step fileWorld before event after)
    (permitted : renewal.permits (progress commands before.log event.process)
      ⟨event.effect, event.answer⟩) : ∃ stage, Moves commands before event after stage := by
  have self : progress commands after.log event.process =
      renewal.advance (progress commands before.log event.process) ⟨event.effect, event.answer⟩ :=
    (congrArg (progress commands · event.process) step.log_eq).trans (ghost_self ..)
  have others : ∀ process, process ≠ event.process →
      progress commands after.log process = progress commands before.log process :=
    fun process other => (congrArg (progress commands · process) step.log_eq).trans
      (ghost_of_ne _ _ _ _ (Ne.symm other))
  have reads := automaton_reads permitted
  rw [show (automaton Progress.read).advance _ _ = _ from self.symm] at reads
  obtain ⟨stage, moved, same⟩ := Option.map_eq_some_iff.mp reads
  refine ⟨stage, turn_of_read moved step.happens, ?_, (congrArg Progress.seen same).symm, others⟩
  have stages : (View.of commands after).stages =
      update (View.of commands before).stages event.process stage := by
    funext process
    by_cases mine : process = event.process
    · subst mine
      rw [update_self]
      exact (congrArg Progress.stage same).symm
    · rw [update_of_ne mine]
      exact congrArg Progress.stage (others process mine)
  rw [View.move, ← stages]
  exact congrArg (View.mk _ _) step.log_eq

end Run

section Views

variable {view : View} {event : Event fileCalls} {stage : Stage} {disk : Disk}

theorem stages_move_self : (view.move event stage disk).stages event.process = stage :=
  update_self ..

theorem stages_move_of_ne (other : process ≠ event.process) :
    (view.move event stage disk).stages process = view.stages process :=
  update_of_ne other ..

/-- Only the holder of the lock is inside it. -/
def Exclusive (view : View) : Prop :=
  ∀ process, (view.stages process).Locked → view.disk.holder = some process

/-- A turn keeps the lock exclusive. -/
theorem Exclusive.move (exclusive : Exclusive view)
    (turn : Turn (view.stages event.process) view.disk event stage disk) :
    Exclusive (view.move event stage disk) := by
  intro process locked
  by_cases same : process = event.process
  · subst same
    rw [stages_move_self] at locked
    have held := exclusive event.process
    cases turn with
    | still silent => exact held locked
    | missed => exact held locked
    | loaded stage present => exact held (by rw [stage]; trivial)
    | locked stage free => rfl
    | answered stage => exact held (by rw [stage]; trivial)
    | refused stage => exact held (by rw [stage]; trivial)
    | renewed stage renews => exact held (by rw [stage]; trivial)
    | lost stage => exact held (by rw [stage]; trivial)
    | _ => cases locked
  · rw [stages_move_of_ne same] at locked
    have held := exclusive process locked
    cases turn with
    | locked stage free => simp [held] at free
    | closed stage =>
      change (if view.disk.holder = _ then none else view.disk.holder) = _
      rw [held, if_neg fun mine => same (Option.some.inj mine)]
    | _ => exact held

/-- Others are outside while one command is inside. -/
theorem Exclusive.alone (exclusive : Exclusive view) {other : Nat}
    (stands : view.stages process = stage) (locked : stage.Locked) (differs : other ≠ process) :
    ¬ (view.stages other).Locked := fun second =>
  differs (Option.some.inj
    ((exclusive other second).symm.trans (exclusive process (stands ▸ locked))))

/-- No command logs in. The holder of the lock knows the token of the file, or it has an answer
with a refresh token that nobody has presented. -/
def Stage.Fits (file : Option Token) (given shown : List String) : Stage → Prop
  | outside | inside => True
  | holding token => file = some token
  | sent _ response => response.refreshToken ≠ "" ∧ response.refreshToken ∈ given ∧
      response.refreshToken ∉ shown
  | signing | signed _ => False

/-- A command outside the lock fits whatever happens inside. -/
theorem Stage.Fits.of_unlocked {file other : Option Token}
    {given shown later used : List String} (fits : stage.Fits file given shown)
    (unlocked : ¬ stage.Locked) : stage.Fits other later used := by
  cases stage with
  | outside => trivial
  | signing => exact fits.elim
  | signed token => exact fits.elim
  | _ => exact absurd trivial unlocked

theorem Stage.Sent.locked (sent : stage.Sent) : stage.Locked := by
  cases stage with
  | sent token response => trivial
  | _ => exact sent.elim

theorem Stage.Sent.not_idle (sent : stage.Sent) : ¬ (stage = .outside ∨ stage.Idle) := by
  cases stage with
  | sent token response => exact not_or.mpr ⟨nofun, id⟩
  | _ => exact sent.elim

structure Guarded (start : Option Token) (view : View) : Prop where
  exclusive : Exclusive view
  fits : ∀ process,
    (view.stages process).Fits view.disk.file (circulated start view.log) (presented view.log)
  distinct : (presented view.log).Nodup
  known : ∀ value ∈ presented view.log, value ∈ circulated start view.log
  kept : ∀ token, view.disk.file = some token → token.refreshToken ∈ circulated start view.log
  unpresented : ∀ token, view.disk.file = some token → token.refreshToken ∈ presented view.log →
    ∃ process, (view.stages process).Sent

section Guarded

variable {start : Option Token}

variable (guarded : Guarded start view)

include guarded

/-- A step that neither changes the file nor presents a token keeps the guard. -/
theorem Guarded.quiet (turn : Turn (view.stages event.process) view.disk event stage disk)
    (same : disk.file = view.disk.file) (shown : presented (event :: view.log) = presented view.log)
    (given : circulated start (event :: view.log) = circulated start view.log)
    (fits : stage.Fits view.disk.file (circulated start view.log) (presented view.log))
    (unsent : (view.stages event.process).Sent → stage.Sent) :
    Guarded start (view.move event stage disk) where
  exclusive := guarded.exclusive.move turn
  fits := by
    refine (forall_update_iff _ fun _ stage => Stage.Fits _ _ _ stage).mpr
      ⟨?_, fun other _ => ?_⟩
    · exact same.symm ▸ shown.symm ▸ given.symm ▸ fits
    · exact same.symm ▸ shown.symm ▸ given.symm ▸ guarded.fits other
  distinct := shown.symm ▸ guarded.distinct
  known := shown.symm ▸ given.symm ▸ guarded.known
  kept token present := given.symm ▸ guarded.kept token (same.symm.trans present)
  unpresented token present used := by
    obtain ⟨process, sent⟩ := guarded.unpresented token (same.symm.trans present) (shown ▸ used)
    refine ⟨process, ?_⟩
    by_cases mine : process = event.process
    · subst mine
      rw [stages_move_self]
      exact unsent sent
    · rwa [stages_move_of_ne mine]

/-- While one command holds the token of the file, nobody has presented its refresh token. -/
theorem Guarded.unused (holds : view.stages process = .holding token) :
    view.disk.file = some token ∧ token.refreshToken ∉ presented view.log := by
  have fits := guarded.fits process
  rw [holds] at fits
  refine ⟨fits, fun used => ?_⟩
  obtain ⟨other, sent⟩ := guarded.unpresented token fits used
  by_cases same : other = process
  · subst same
    rw [holds] at sent
    exact sent
  · exact guarded.exclusive.alone holds trivial same sent.locked

/-- An exchange presents a refresh token for the first time. -/
theorem Guarded.answered {clientID : String}
    (holds : view.stages process = .holding token) (named : response.refreshToken ≠ "")
    (fresh : response.refreshToken ∉ circulated start view.log) :
    Guarded start (view.move ⟨process, .exchange token.refreshToken clientID, .ok response⟩
      (.sent token response) view.disk) := by
  obtain ⟨present, unused⟩ := guarded.unused holds
  have older : token.refreshToken ∈ circulated start view.log := guarded.kept token present
  refine ⟨guarded.exclusive.move (.answered holds), ?_, ?_, ?_, fun held found => ?_, ?_⟩
  · refine (forall_update_iff _ fun _ stage => Stage.Fits _ _ _ stage).mpr
      ⟨⟨named, .head _, ?_⟩, fun other differs => ?_⟩
    · exact List.not_mem_cons_of_ne_of_not_mem (fun same => fresh (same ▸ older))
        fun used => fresh (guarded.known _ used)
    · exact (guarded.fits other).of_unlocked (guarded.exclusive.alone holds trivial differs)
  · exact List.nodup_cons.mpr ⟨unused, guarded.distinct⟩
  · intro value used
    rcases List.mem_cons.mp used with rfl | used
    · exact .tail _ older
    · exact .tail _ (guarded.known value used)
  · exact .tail _ (guarded.kept held found)
  · intro held found used
    exact ⟨process, by
      rw [@stages_move_self view ⟨process, .exchange token.refreshToken clientID, .ok response⟩]
      trivial⟩

/-- A renewed token is one that nobody has presented. -/
theorem Guarded.renewed {renewed : Token} (sent : view.stages process = .sent token response)
    (renews : Stage.Renews token response renewed) :
    Guarded start (view.move ⟨process, .save renewed, .ok ()⟩ .inside
      { view.disk with file := some renewed }) := by
  have fits := guarded.fits process
  rw [sent] at fits
  obtain ⟨named, given, unused⟩ := fits
  have same : renewed.refreshToken = response.refreshToken := renews.trans (if_neg named)
  refine ⟨guarded.exclusive.move (.renewed sent renews), ?_, guarded.distinct, guarded.known,
    ?_, ?_⟩
  · refine (forall_update_iff _ fun _ stage => Stage.Fits _ _ _ stage).mpr
      ⟨trivial, fun other differs => ?_⟩
    exact (guarded.fits other).of_unlocked (guarded.exclusive.alone sent trivial differs)
  · rintro _ ⟨⟩
    exact same ▸ given
  · rintro _ ⟨⟩ used
    exact absurd (same ▸ used) unused

/-- Every step of a renewal keeps the guard while exchanges are answered and saves succeed. -/
theorem Guarded.move (turn : Turn (view.stages event.process) view.disk event stage disk)
    (answered : Answers start view.log event) : Guarded start (view.move event stage disk) := by
  have fits := guarded.fits event.process
  cases turn with
  | @still process call answer silent =>
    refine guarded.quiet (.still silent) rfl ?_ ?_ fits id <;> cases call <;>
      first | rfl | cases silent
  | missed => exact guarded.quiet .missed rfl rfl rfl fits id
  | peeked stage present =>
    exact guarded.quiet (.peeked stage present) rfl rfl rfl trivial (by rw [stage]; exact id)
  | loaded stage present =>
    exact guarded.quiet (.loaded stage present) rfl rfl rfl present
      (by rw [stage]; exact False.elim)
  | locked stage free =>
    exact guarded.quiet (.locked stage free) rfl rfl rfl trivial (by rw [stage]; exact False.elim)
  | closed stage =>
    exact guarded.quiet (.closed stage) rfl rfl rfl trivial fun sent => (sent.not_idle stage).elim
  | answered stage =>
    obtain ⟨response, same, named, fresh⟩ := answered
    cases same
    exact guarded.answered stage named fresh
  | refused stage =>
    obtain ⟨response, same, -⟩ := answered
    cases same
  | renewed stage renews => exact guarded.renewed stage renews
  | lost stage => cases answered
  | signedIn stage =>
    rw [stage] at fits
    exact fits.elim
  | declined stage =>
    rw [stage] at fits
    exact fits.elim
  | loggedIn stage =>
    rw [stage] at fits
    exact fits.elim
  | dropped stage => cases answered

end Guarded

end Views

/-- A token that a command has seen was in the file right after one of its steps. -/
def Witnessed (start : Shell) (allowed : Shell → Event fileCalls → Prop) (process : Nat)
    (token : Token) (after : Shell) : Prop :=
  ∃ middle event earlier, Reaches fileWorld allowed start middle ∧
    Reaches fileWorld allowed middle after ∧ middle.log = event :: earlier ∧
    event.process = process ∧ middle.store.file = some token

theorem file_of_sighted {disk next : Disk} {answer : call.Answer}
    (happens : Happens process disk call answer next)
    (sight : sighted ⟨call, answer⟩ = some token) : next.file = some token := by
  cases happens with
  | loaded present =>
    cases sight
    exact present
  | saved =>
    cases sight
    rfl
  | _ => cases sight

section Main

variable {configs : Nat → RefreshConfig} {file : Option Token}

/-- Many processes renew the token of one file. -/
def renewals (configs : Nat → RefreshConfig) (file : Option Token) : Shell :=
  shell (fun process => .ensureFresh (configs process)) file

theorem guarded_renewals : Guarded file (View.of (fun process => .ensureFresh (configs process))
      (renewals configs file)) where
  exclusive _ locked := locked.elim
  fits _ := trivial
  distinct := List.nodup_nil
  known _ used := absurd used List.not_mem_nil
  kept token present := by
    cases present
    exact .head _
  unpresented _ _ used := absurd used List.not_mem_nil

/-- What every run of renewals keeps. -/
structure Sound (configs : Nat → RefreshConfig) (file : Option Token) (current : Shell) : Prop where
  reached : Reaches fileWorld (Answered file) (renewals configs file) current
  guarded : Guarded file (View.of (fun process => .ensureFresh (configs process)) current)
  witnessed : ∀ process,
    ∀ token ∈ (progress (fun process => .ensureFresh (configs process)) current.log process).seen,
      Witnessed (renewals configs file) (Answered file) process token current

/-- An answered step keeps the shell sound. -/
theorem Sound.step {before after : Shell} {event : Event fileCalls}
    (sound : Sound configs file before) (answered : Answered file before event)
    (step : Step fileWorld before event after)
    (permitted : renewal.permits
      (progress (fun process => .ensureFresh (configs process)) before.log event.process)
      ⟨event.effect, event.answer⟩) : Sound configs file after := by
  have last : Reaches fileWorld (Answered file) before after := Reaches.refl.tail answered step
  have reached := sound.reached.trans last
  obtain ⟨stage, turn, view, seen, others⟩ := moves_of_step step permitted
  have older : ∀ process, ∀ token ∈ (progress (fun process => .ensureFresh (configs process))
      before.log process).seen, Witnessed (renewals configs file) (Answered file) process token
        after := by
    intro process token known
    obtain ⟨middle, event, earlier, first, rest, log, mine, present⟩ :=
      sound.witnessed process token known
    exact ⟨middle, event, earlier, first, rest.trans last, log, mine, present⟩
  refine ⟨reached, ?_, fun process token known => ?_⟩
  · rw [view]
    exact sound.guarded.move turn answered
  · by_cases mine : process = event.process
    · subst mine
      rw [seen, List.mem_append, Option.mem_toList] at known
      rcases known with sight | known
      · exact ⟨after, event, before.log, reached, Reaches.refl, step.log_eq, rfl,
          file_of_sighted step.happens sight⟩
      · exact older _ token known
    · rw [others process mine] at known
      exact older process token known

/-- No run of renewals presents a refresh token twice, and each call returns a token that was in
the file after one of its own steps. -/
theorem no_refresh_token_is_replayed (configs : Nat → RefreshConfig) (file : Option Token)
    {after : Shell} (reached : Reaches fileWorld (Answered file) (renewals configs file) after) :
    (presented after.log).Nodup ∧ ∀ process token, after.processes process = .done (.ok token) →
        Witnessed (renewals configs file) (Answered file) process token after := by
  obtain ⟨sound, follows⟩ := reached.follows (Sound configs file)
    ⟨Reaches.refl, guarded_renewals, fun _ _ known => absurd known List.not_mem_nil⟩
    (shell_follows _ file) fun before event after sound _ answered step =>
      ⟨trivial, fun permitted => sound.step answered step permitted⟩
  refine ⟨sound.guarded.distinct, fun process token finished => ?_⟩
  have meets := follows process
  rw [finished] at meets
  exact sound.witnessed process token (meets token rfl)

end Main

/-- This executor answers every exchange with one token and never fails. -/
def fileExecutor (moment : Time) (response : TokenResponse) (signedIn : Token) :
    Executor fileCalls Disk := fun _ disk process call =>
  match call with
  | .now => (moment, disk)
  | .load => (disk.file.elim (.error .noToken) .ok, disk)
  | .openLock => (.ok (), disk)
  | .tryLock => match disk.holder with
      | none => (.ok true, { disk with holder := some process })
      | some _ => (.ok false, disk)
  | .overdue => (false, disk)
  | .pause => (.ok (), disk)
  | .closeLock =>
    ((), { disk with holder := if disk.holder = some process then none else disk.holder })
  | .exchange _ _ => (.ok response, disk)
  | .save token => (.ok (), { disk with file := some token })
  | .signIn => (.ok signedIn, disk)

/-- The issuer is an https URL. -/
def sampleRefresh : RefreshConfig where
  library := ⟨fun _ => some ⟨"https", "", "idp", "idp", false, "", "", false, "https://idp"⟩, id⟩
  equalFold := (· = ·)
  isLoopbackIP _ := false
  unmarshalClaims _ := none
  unmarshalString _ := none
  unmarshalStrings _ := none
  issuer := "https://idp"
  insecure := false
  skew := refreshSkew
  rounds := 1

def oldToken : Token := ⟨"access", "old", 0, "cli"⟩

def newResponse : TokenResponse := ⟨"access", "new", 3600⟩

/-- Two processes start to renew, one gets the lock, and the other finds a fresh token. -/
def sampleRenewals : Shell :=
  (renewals (fun _ => sampleRefresh) (some oldToken)).turns
    (fileExecutor 0 newResponse oldToken) [0, 1, 0, 1, 0, 0, 0, 0, 0, 0, 0, 0, 1, 1, 1, 1, 1]

theorem sample_refresh_token_is_presented_once :
    presented sampleRenewals.log = ["old"] ∧ (presented sampleRenewals.log).Nodup := by
  have reached : Reaches fileWorld (Answered (some oldToken))
      (renewals (fun _ => sampleRefresh) (some oldToken)) sampleRenewals := by
    refine Configuration.Lawful.reaches ?_
    refine ⟨⟨trivial, .loaded rfl⟩, ⟨trivial, .loaded rfl⟩, ⟨trivial, .now⟩, ⟨trivial, .now⟩,
      ⟨trivial, .openLock⟩, ⟨trivial, .locked rfl⟩, ⟨trivial, .loaded rfl⟩, ⟨trivial, .now⟩,
      ⟨⟨newResponse, rfl, by decide, by decide⟩, .exchange⟩, ⟨trivial, .now⟩, ⟨rfl, .saved⟩,
      ⟨trivial, .closeLock⟩, ⟨trivial, .openLock⟩, ⟨trivial, .locked rfl⟩, ⟨trivial, .loaded rfl⟩,
      ⟨trivial, .now⟩, ⟨trivial, .closeLock⟩, trivial⟩
  exact ⟨by decide, (no_refresh_token_is_replayed _ _ reached).1⟩

end Tempogate.Cli
