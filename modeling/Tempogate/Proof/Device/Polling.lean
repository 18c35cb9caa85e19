/-
This file shows that the interleaved polls of SQLite answer as the rule of Postgres does,
one poll at a time.
-/

import Tempogate.Foundation.Linearizable
import Tempogate.Proof.Device.Backends

namespace Tempogate.Device

open Foundation Oidc State Postgres Sqlite.DeviceCodeStatement Sqlite Table

/-- Run alone, a poll follows the rule. -/
theorem DeviceCodes.poll_eq_pollRule {codes : DeviceCodes} {crypto : Crypto} {deviceCode : String}
    {row : DeviceCodeRow} (now : Time) (found : codes.find (crypto.hash deviceCode) = some row) :
    (codes.poll crypto deviceCode now).1 = .ok (pollRule now row).1 ∧
      (codes.poll crypto deviceCode now).2.find (crypto.hash deviceCode) =
        some (pollRule now row).2 := by
  have evaluated : codes.poll crypto deviceCode now = (.ok (pollRule now row).1,
      codes.update (fun row => row.deviceCodeHash = crypto.hash deviceCode)
        (polled now (if tooFast row now then 5 else 0))
        (polled_deviceCodeHash now _) (polled_userCode now _)) := by
    unfold poll
    rw [found]
    rfl
  rw [evaluated]
  exact ⟨rfl, find_update (polled_deviceCodeHash now _) found⟩

/-- The Postgres backend follows the rule. -/
theorem postgres_follows_pollRule (crypto : Crypto) (rounds : Nat) (database : Postgres.Database)
    (codes : DeviceCodes) {deviceCode : String} {row : DeviceCodeRow} (now : Time)
    (found : codes.find (crypto.hash deviceCode) = some row) :
    ∃ after : DeviceCodes,
      (Engine.postgres rounds).respond crypto (.deviceCode (.pollDeviceCode deviceCode now))
          (database.holding codes) = (.ok (pollRule now row).1, database.holding after) ∧
        after.find (crypto.hash deviceCode) = some (pollRule now row).2 := by
  have answered := Engine.respond_deviceCode crypto (.postgres rounds) database codes
    (.pollDeviceCode deviceCode now)
  obtain ⟨answer, stamped⟩ := DeviceCodes.poll_eq_pollRule now found
  refine ⟨_, answered.trans ?_, stamped⟩
  exact Prod.ext answer rfl

section Rule

variable {row read : DeviceCodeRow} {now other : Time} {floor : Int}

theorem second_pos : (0 : Int) < second := by decide

/-- A poll soon after a near one is too fast. -/
theorem tooFast_of_near (polled : row.lastPolledAt = some other) (near : Near floor now other)
    (above : floor ≤ row.intervalSeconds) : tooFast row now = true := by
  unfold tooFast
  rw [polled]
  refine decide_eq_true (near.1.trans_le ?_)
  exact Int.mul_le_mul_of_nonneg_right above second_pos.le

/-- A well paced poll saw no stamp of a near one. -/
theorem ne_of_near (paced : wellPaced read now = true)
    (above : floor ≤ read.intervalSeconds) (near : Near floor now other) :
    read.lastPolledAt ≠ some other := by
  intro polled
  rw [Sqlite.wellPaced_eq_not_tooFast, tooFast_of_near polled near above] at paced
  cases paced

theorem pollRule_of_tooFast (fast : tooFast row now = true) :
    pollRule now row = (true, polled now 5 row) := by
  unfold pollRule
  rw [fast]
  rfl

theorem pollRule_of_wellPaced (paced : wellPaced row now = true) :
    pollRule now row = (false, polled now 0 row) := by
  rw [Sqlite.wellPaced_eq_not_tooFast, Bool.not_eq_true'] at paced
  unfold pollRule
  rw [paced]
  rfl

end Rule

section Statements

variable {table : Table DeviceCodeRow.deviceCodeHash} {hash : String} {row : DeviceCodeRow}

variable (found : (table.rows.find? fun row => row.deviceCodeHash = hash) = some row)

include found

variable {previous : Option Time}

/-- A swap against the time of the stored row stamps it. -/
theorem swapLastPolled_of_eq (same : row.lastPolledAt = previous) (now : Time) :
    ∃ after, (swapLastPolled hash previous now).execute table = ((1 : Nat), after) ∧
      (after.rows.find? fun row => row.deviceCodeHash = hash) = some (polled now 0 row) := by
  subst same
  obtain ⟨member, rfl⟩ := find_eq_some_iff.mp found
  exact ⟨_, swapLastPolled_stored member now, find_update (polled_deviceCodeHash now 0) found⟩

/-- A swap against another time does nothing. -/
theorem swapLastPolled_of_ne (changed : row.lastPolledAt ≠ previous) (now : Time) :
    (swapLastPolled hash previous now).execute table = ((0 : Nat), table) := by
  have missed : ∀ stored ∈ table.rows, swappable hash previous stored = false := by
    intro stored present
    by_cases same : stored.deviceCodeHash = hash
    · obtain rfl : row = stored := Option.some.inj
        (found.symm.trans (find_eq_some_iff.mpr ⟨present, same⟩))
      simp [swappable, changed]
    · simp [swappable, same]
  refine Prod.ext ?_ (@update_eq_self _ _ _ table _ (polled now) (fun _ => rfl) missed)
  exact List.countP_eq_zero.mpr fun stored present => by simp [missed stored present]

/-- A slow-down stamps the row and lengthens its interval. -/
theorem slowDown_stored (now : Time) : (((slowDown hash now).execute table).2.rows.find?
      fun row => row.deviceCodeHash = hash) = some (polled now 5 row) :=
  find_update (polled_deviceCodeHash now 5) found

end Statements

/-- A poll that read this row and found itself well paced goes on to swap. -/
def swapping (hash : String) (read : DeviceCodeRow) (now : Time) :
    Program Sqlite.statements (Except StoreError Bool) := do
  let swapped : Except String Nat ←
    Sqlite.query (.deviceCode (.swapLastPolled hash read.lastPolledAt now))
  match swapped with
  | .error cause => return .error (.failure ("sqlite: poll device code: " ++ cause))
  | .ok 1 => return .ok false
  | .ok _ => Sqlite.pollDeviceCode.slowDown now hash

/-- These are the phases of a poll while the stored row is this one.
A poll that is about to swap sees the row it read, or the stamp of a near poll. -/
inductive Phase (crypto : Crypto) (deviceCode : String) (floor : Int) (now : Time)
    (row : DeviceCodeRow) (begun : Prop) :
    Program Sqlite.statements (Except StoreError Bool) → Prop
  | idle (unbegun : ¬ begun) :
      Phase crypto deviceCode floor now row begun (Sqlite.pollDeviceCode crypto deviceCode now)
  | swapping (read : DeviceCodeRow) (progress : begun)
      (paced : wellPaced read now = true) (above : floor ≤ read.intervalSeconds)
      (fresh : row = read ∨ ∃ other, row.lastPolledAt = some other ∧ Near floor now other) :
      Phase crypto deviceCode floor now row begun (swapping (crypto.hash deviceCode) read now)
  | slowing (progress : begun) (fast : tooFast row now = true) :
      Phase crypto deviceCode floor now row begun
        (Sqlite.pollDeviceCode.slowDown now (crypto.hash deviceCode))
  | past (result : Except StoreError Bool) :
      Phase crypto deviceCode floor now row begun (.done result)

/-- The stored row is this one, its interval has not shrunk and every poll is in a phase. -/
structure Polling (crypto : Crypto) (deviceCode : String) (floor : Int) (nows : Nat → Time)
    (current : Polls) (row : DeviceCodeRow) : Prop where
  stored : (current.store.deviceCodes.rows.find? fun row =>
    row.deviceCodeHash = crypto.hash deviceCode) = some row
  above : floor ≤ row.intervalSeconds
  phases : ∀ process, Phase crypto deviceCode floor (nows process) row
    (∃ event ∈ current.log, event.process = process) (current.processes process)

/-- A step of a poll answers nothing and keeps the row, or answers by the rule. -/
def Polled (crypto : Crypto) (deviceCode : String) (floor : Int) (nows : Nat → Time)
    (row : DeviceCodeRow) (process : Nat) (after : Polls) : Prop :=
  (answerOf Except.toOption (after.processes process) = none ∧
      Polling crypto deviceCode floor nows after row) ∨
    (answerOf Except.toOption (after.processes process) = some (pollRule (nows process) row).1 ∧
      Polling crypto deviceCode floor nows after (pollRule (nows process) row).2)

section Step

variable {crypto : Crypto} {deviceCode : String} {floor : Int} {nows : Nat → Time}
  {before after : Polls} {event : Event Sqlite.statements} {row next : DeviceCodeRow}

/-- A poll keeps its phase while the row stays. -/
theorem Phase.congr {now : Time} {begun began : Prop}
    {program : Program Sqlite.statements (Except StoreError Bool)} (same : begun ↔ began)
    (phase : Phase crypto deviceCode floor now row begun program) :
    Phase crypto deviceCode floor now row began program := by
  rw [← propext same]
  exact phase

/-- A poll in progress keeps up with the stamp of a near one. -/
theorem Phase.restamp {now other : Time} {begun : Prop}
    {program : Program Sqlite.statements (Except StoreError Bool)}
    (phase : Phase crypto deviceCode floor now row begun program)
    (stamped : next.lastPolledAt = some other) (above : floor ≤ next.intervalSeconds)
    (near : begun → (∀ result, program ≠ .done result) → Near floor now other) :
    Phase crypto deviceCode floor now next begun program := by
  cases phase with
  | idle unbegun => exact .idle unbegun
  | swapping read progress paced floorBelow fresh =>
    exact .swapping read progress paced floorBelow (.inr ⟨other, stamped, near progress (by nofun)⟩)
  | slowing progress fast =>
    exact .slowing progress (tooFast_of_near stamped (near progress (by nofun)) above)
  | past result => exact .past result

variable (move : Step Sqlite.world before event after)

include move

/-- A step that leaves the row alone moves its own poll to a new phase. -/
theorem Polling.quiet (polling : Polling crypto deviceCode floor nows before row)
    (stored : (after.store.deviceCodes.rows.find? fun row =>
      row.deviceCodeHash = crypto.hash deviceCode) = some row)
    (phase : Phase crypto deviceCode floor (nows event.process) row True
      (after.processes event.process)) : Polling crypto deviceCode floor nows after row where
  stored := stored
  above := polling.above
  phases process := by
    rw [move.log_eq]
    by_cases mine : event.process = process
    · subst mine
      exact phase.congr (iff_of_true trivial ⟨event, List.mem_cons_self, rfl⟩)
    · rw [move.processes_of_ne mine]
      refine (polling.phases process).congr ?_
      simp [mine]

/-- A step that stamps the row ends its own poll, and the others are near it. -/
theorem Polling.stamps (polling : Polling crypto deviceCode floor nows before row)
    (paced : Paced nows floor before event) (progress : InProgress before event.process)
    (stored : (after.store.deviceCodes.rows.find? fun row =>
      row.deviceCodeHash = crypto.hash deviceCode) = some next)
    (stamped : next.lastPolledAt = some (nows event.process))
    (above : floor ≤ next.intervalSeconds) {result : Except StoreError Bool}
    (ended : after.processes event.process = .done result) :
    Polling crypto deviceCode floor nows after next where
  stored := stored
  above := above
  phases process := by
    rw [move.log_eq]
    by_cases mine : event.process = process
    · subst mine
      rw [ended]
      exact .past result
    · rw [move.processes_of_ne mine]
      have kept := (polling.phases process).restamp stamped above fun begun running =>
        paced process event.process (Ne.symm mine) ⟨begun, running⟩ progress
      refine kept.congr ?_
      simp [mine]

/-- A statement runs on the stored device codes, or fails and changes nothing. -/
theorem ran_or_failed {statement : Sqlite.DeviceCodeStatement}
    {continuation : Except String statement.Reply →
      Program Sqlite.statements (Except StoreError Bool)}
    (ready : before.processes event.process = .perform (.deviceCode statement) continuation) :
    (after.processes event.process =
          continuation (.ok (statement.execute before.store.deviceCodes).1) ∧
        after.store.deviceCodes = (statement.execute before.store.deviceCodes).2) ∨
      ∃ cause, after.processes event.process = continuation (.error cause) ∧
        after.store.deviceCodes = before.store.deviceCodes := by
  obtain ⟨answer, -, continued, happens⟩ := move.of_ready rfl ready
  rw [continued]
  change Sqlite.Happens before.store _ answer after.store at happens
  generalize after.store = store at happens
  cases happens with
  | executed => exact .inl ⟨rfl, rfl⟩
  | failed cause => exact .inr ⟨cause, rfl, rfl⟩

variable (polling : Polling crypto deviceCode floor nows before row)

include polling

/-- A failed statement ends its poll and changes nothing. -/
theorem Polling.fails {error : StoreError}
    (ended : after.processes event.process = .done (.error error))
    (kept : after.store.deviceCodes = before.store.deviceCodes) :
    answerOf Except.toOption (after.processes event.process) = none ∧
      Polling crypto deviceCode floor nows after row := by
  refine ⟨by rw [ended]; rfl, polling.quiet move (by rw [kept]; exact polling.stored) ?_⟩
  rw [ended]
  exact .past _

/-- The first statement reads the row and decides how the poll goes on. -/
theorem Polling.reads (ready : before.processes event.process =
      Sqlite.pollDeviceCode crypto deviceCode (nows event.process)) :
    answerOf Except.toOption (after.processes event.process) = none ∧
      Polling crypto deviceCode floor nows after row := by
  rcases @ran_or_failed before after event move (.selectDeviceCode (crypto.hash deviceCode)) _ ready
    with ⟨continued, kept⟩ | ⟨cause, continued, kept⟩
  · have selected : (selectDeviceCode (crypto.hash deviceCode)).execute
        before.store.deviceCodes = (some row, before.store.deviceCodes) :=
      Prod.ext polling.stored rfl
    rw [selected] at continued kept
    replace continued : after.processes event.process =
        if wellPaced row (nows event.process) then
          swapping (crypto.hash deviceCode) row (nows event.process)
        else Sqlite.pollDeviceCode.slowDown (nows event.process) (crypto.hash deviceCode) :=
      continued
    have stored : (after.store.deviceCodes.rows.find? fun row =>
        row.deviceCodeHash = crypto.hash deviceCode) = some row := by
      rw [kept]
      exact polling.stored
    cases paced : wellPaced row (nows event.process) with
    | true =>
      rw [paced, if_pos rfl] at continued
      refine ⟨by rw [continued]; rfl, polling.quiet move stored ?_⟩
      rw [continued]
      exact .swapping row trivial paced polling.above (.inl rfl)
    | false =>
      have fast : tooFast row (nows event.process) = true := by
        rwa [Sqlite.wellPaced_eq_not_tooFast, Bool.not_eq_false'] at paced
      rw [paced, if_neg Bool.false_ne_true] at continued
      refine ⟨by rw [continued]; rfl, polling.quiet move stored ?_⟩
      rw [continued]
      exact .slowing trivial fast
  · exact polling.fails move continued kept

variable (paced : Paced nows floor before event)

include paced

/-- The swap succeeds if nobody stamped the row since the poll read it. -/
theorem Polling.swaps (progress : InProgress before event.process) {read : DeviceCodeRow}
    (ready : before.processes event.process =
      swapping (crypto.hash deviceCode) read (nows event.process))
    (wellPaced : wellPaced read (nows event.process) = true)
    (above : floor ≤ read.intervalSeconds) (fresh : row = read ∨
      ∃ other, row.lastPolledAt = some other ∧ Near floor (nows event.process) other) :
    Polled crypto deviceCode floor nows row event.process after := by
  rcases @ran_or_failed before after event move
    (.swapLastPolled (crypto.hash deviceCode) read.lastPolledAt (nows event.process)) _ ready
    with ⟨continued, kept⟩ | ⟨cause, continued, kept⟩
  · rcases fresh with rfl | ⟨other, stamped, near⟩
    · obtain ⟨table, executed, stored⟩ :=
        swapLastPolled_of_eq polling.stored rfl (nows event.process)
      rw [executed] at continued kept
      rw [Polled, pollRule_of_wellPaced wellPaced]
      refine .inr ⟨by rw [continued]; rfl, ?_⟩
      refine polling.stamps move paced progress (by rw [kept]; exact stored) rfl ?_ continued
      rw [← Sqlite.polled_eq]
      exact above
    · have changed : row.lastPolledAt ≠ read.lastPolledAt := by
        rw [stamped]
        exact (ne_of_near wellPaced above near).symm
      rw [swapLastPolled_of_ne polling.stored changed] at continued kept
      refine .inl ⟨by rw [continued]; rfl,
        polling.quiet move (by rw [kept]; exact polling.stored) ?_⟩
      rw [continued]
      exact .slowing trivial (tooFast_of_near stamped near polling.above)
  · exact .inl (polling.fails move continued kept)

/-- The slow-down stamps the row and lengthens its interval. -/
theorem Polling.slows (progress : InProgress before event.process)
    (ready : before.processes event.process =
      Sqlite.pollDeviceCode.slowDown (nows event.process) (crypto.hash deviceCode))
    (fast : tooFast row (nows event.process) = true) :
    Polled crypto deviceCode floor nows row event.process after := by
  rcases @ran_or_failed before after event move
    (.slowDown (crypto.hash deviceCode) (nows event.process)) _ ready
    with ⟨continued, kept⟩ | ⟨cause, continued, kept⟩
  · rw [Polled, pollRule_of_tooFast fast]
    refine .inr ⟨by rw [continued]; rfl, ?_⟩
    refine polling.stamps move paced progress ?_ rfl ?_ continued
    · rw [kept]
      exact slowDown_stored polling.stored (nows event.process)
    · exact polling.above.trans (Int.le_add_of_nonneg_right (by decide))
  · exact .inl (polling.fails move continued kept)

theorem Polling.step : Polled crypto deviceCode floor nows row event.process after := by
  have phase := polling.phases event.process
  generalize ready : before.processes event.process = program at phase
  cases phase with
  | idle unbegun => exact .inl (polling.reads move ready)
  | swapping read progress wellPaced above fresh =>
    exact polling.swaps move paced ⟨progress, by rw [ready]; nofun⟩ ready wellPaced above fresh
  | slowing progress fast =>
    exact polling.slows move paced ⟨progress, by rw [ready]; nofun⟩ ready fast
  | past result => exact absurd rfl (move.process_ne_of_done ready)

end Step

section Replay

variable {nows : Nat → Time} {answers : Nat → Option Bool} {row final : DeviceCodeRow}
  {order : List Nat}

variable (replays : Replays (fun process => pollRule (nows process)) answers row order final)

include replays

/-- The interval grows by five seconds with every slow-down. -/
theorem intervalSeconds_of_replays : final.intervalSeconds = row.intervalSeconds +
      5 * (order.countP fun process => answers process = some true) := by
  induction replays with
  | start => simp
  | @call order state process earlier answered ih =>
    rw [List.countP_append, List.countP_singleton, answered]
    change state.intervalSeconds + _ = _
    rw [ih]
    cases fast : tooFast state (nows process) <;> simp [pollRule, fast]
    omega

/-- Of near polls of a rested code exactly the first is well paced. -/
theorem wellPaced_of_replays (nodup : order.Nodup)
    (rested : ∀ process ∈ order, tooFast row (nows process) = false)
    (near : ∀ process ∈ order, ∀ other ∈ order, process ≠ other →
      Near row.intervalSeconds (nows process) (nows other)) :
    (order = [] ∧ final = row) ∨ ((order.countP fun process => answers process = some false) = 1 ∧
        ∃ last ∈ order, final.lastPolledAt = some (nows last)) := by
  induction replays with
  | start => exact .inl ⟨rfl, rfl⟩
  | @call order state process earlier answered ih =>
    have isLast : process ∈ order ++ [process] :=
      List.mem_append_right _ (List.mem_singleton_self process)
    have inside : ∀ other ∈ order, other ∈ order ++ [process] :=
      fun other member => List.mem_append_left _ member
    obtain ⟨distinct, -, apart⟩ := List.nodup_append.mp nodup
    refine .inr ⟨?_, process, isLast, rfl⟩
    rw [List.countP_append, List.countP_singleton, answered]
    rcases ih distinct (fun other member => rested other (inside other member))
        (fun first inFirst other inOther => near first (inside first inFirst) other
          (inside other inOther)) with ⟨rfl, rfl⟩ | ⟨one, last, member, stamped⟩
    · have slow := rested process isLast
      simp [pollRule, slow]
    · have grown : row.intervalSeconds ≤ state.intervalSeconds := by
        rw [intervalSeconds_of_replays earlier]
        omega
      have fast := tooFast_of_near stamped (near process isLast last (inside last member)
        (apart last member process (List.mem_singleton_self process)).symm) grown
      rw [one]
      simp [pollRule, fast]

end Replay

/-- Interleaved SQLite polls answer and leave the row as some order of polls by the Postgres
rule does, an order that keeps polls apart that did not overlap.
The interval grows by five seconds with every slow-down, and of near polls of a rested code
exactly one is well paced. -/
theorem sqlite_polls_linearize (crypto : Crypto) (store : Sqlite.Store) (deviceCode : String)
    (nows : Nat → Time) {row : DeviceCodeRow}
    (stored : (store.deviceCodes.rows.find? fun row =>
      row.deviceCodeHash = crypto.hash deviceCode) = some row) {later : Polls}
    (reached : Reaches Sqlite.world (Paced nows row.intervalSeconds)
      (polls crypto store deviceCode nows) later) :
    ∃ order final, Linearizes (fun process => pollRule (nows process)) Except.toOption row final
        later order ∧
      (later.store.deviceCodes.rows.find? fun row =>
        row.deviceCodeHash = crypto.hash deviceCode) = some final ∧
      final.intervalSeconds = row.intervalSeconds + 5 * (order.countP fun process =>
        answerOf Except.toOption (later.processes process) = some true) ∧
      (order ≠ [] → (∀ process ∈ order, tooFast row (nows process) = false) →
        (∀ process ∈ order, ∀ other ∈ order, process ≠ other →
          Near row.intervalSeconds (nows process) (nows other)) →
        (order.countP fun process =>
          answerOf Except.toOption (later.processes process) = some false) = 1) := by
  have base : Polling crypto deviceCode row.intervalSeconds nows
      (polls crypto store deviceCode nows) row :=
    ⟨stored, le_rfl, fun _ => .idle fun ⟨_, member, _⟩ => absurd member List.not_mem_nil⟩
  obtain ⟨order, final, linear, polling⟩ := @Reaches.linearizes _ _ _ _ _
    (fun process => pollRule (nows process)) Except.toOption row _ _ _ _
    (Polling crypto deviceCode row.intervalSeconds nows) (fun _ => rfl) base
    (fun before state event after polling paced move => polling.step move paced) reached
  refine ⟨order, final, linear, polling.stored, intervalSeconds_of_replays linear.replays, ?_⟩
  intro nonempty rested near
  rcases wellPaced_of_replays linear.replays linear.nodup rested near with ⟨empty, -⟩ | ⟨one, -⟩
  · exact absurd empty nonempty
  · exact one

section Sample

/-- A code that nobody has polled yet. -/
def unpolledCode : DeviceCodeRow where
  deviceCodeHash := plainCrypto.hash "device"
  userCode := "USER"
  clientID := "cli"
  scope := ""
  connectorID := none
  subject := none
  email := none
  approvedAt := none
  deniedAt := none
  lastPolledAt := none
  intervalSeconds := 5
  createdAt := 0
  expiresAt := 10

def unpolledStore : Sqlite.Store :=
  { Sqlite.Store.empty with deviceCodes := empty.append unpolledCode (by simp) }

/-- Two polls read the row before either of them swaps. -/
def samplePolls : Polls :=
  (polls plainCrypto unpolledStore "device" fun _ => 5).turns Sqlite.executor [0, 1, 0, 1, 1]

/-- One of the two polls is well paced, and the other lengthens the interval. -/
theorem sqlite_polls_linearize_sample :
    samplePolls.processes 0 = .done (.ok false) ∧ samplePolls.processes 1 = .done (.ok true) ∧
    ∃ order final, Linearizes (fun _ => pollRule 5) Except.toOption unpolledCode final samplePolls
        order ∧ order ≠ [] := by
  have near : Near unpolledCode.intervalSeconds 5 5 := ⟨by decide, by decide⟩
  have reached : Reaches Sqlite.world (Paced (fun _ => 5) unpolledCode.intervalSeconds)
      (polls plainCrypto unpolledStore "device" fun _ => 5) samplePolls :=
    (Configuration.lawful_of_follows Sqlite.executor_follows _ _).reaches.weaken
      fun _ _ _ _ _ _ _ _ => near
  obtain ⟨order, final, linear, -⟩ :=
    sqlite_polls_linearize plainCrypto unpolledStore "device" (fun _ => 5) rfl reached
  refine ⟨rfl, rfl, order, final, linear, ?_⟩
  exact List.ne_nil_of_mem ((linear.complete 0).mpr rfl)

end Sample

end Tempogate.Device
