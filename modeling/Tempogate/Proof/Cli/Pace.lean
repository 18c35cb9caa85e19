/-
This file shows when the sleeps of a polling tool keep to the interval the server has stored.
-/

import Mathlib.Tactic.Linarith
import Tempogate.Construction.Cli.Session
import Tempogate.Proof.Device.Safety

namespace Tempogate.Cli

open Foundation Oidc State Device DeviceCodes PollLoop Configuration Postgres List

variable {row : DeviceCodeRow} {codes : DeviceCodes} {before : Session} {server : Flow}
  {process : Nat}

section Grant

def polledCode : Exchange deviceCalls → Option String
  | ⟨.inl (.inr (.deviceCode (.pollDeviceCode deviceCode _))), _⟩ => some deviceCode
  | _ => none

/-- Only a token request polls, once and with its own device code. -/
def PollsOnce (task : Task) (trace : Trace) (label : Exchange deviceCalls) : Prop :=
  ∀ deviceCode, polledCode label = some deviceCode →
    (∃ request, task = .token request ∧ request.form.get "device_code" = deviceCode) ∧
      ∀ earlier ∈ trace, polledCode earlier = none

theorem pollsOnce_of_none {task : Task} {trace : Trace} {label : Exchange deviceCalls}
    (unpolled : polledCode label = none) : PollsOnce task trace label := by
  intro deviceCode polled
  rw [unpolled] at polled
  cases polled

theorem pollsOnce_lenient : Lenient recordCall PollsOnce :=
  ⟨fun _ _ _ _ => pollsOnce_of_none rfl, fun _ _ _ _ => pollsOnce_of_none rfl⟩

def slowDown : TokenError := oauthErr 400 "slow_down" "polling faster than the agreed interval"

/-- A request that was told to slow down answers so. -/
def Told (trace : Trace) (result : Except TokenError TokenOutput) : Prop :=
  (∀ label ∈ trace, polledCode label = none) ∨ (∃ deviceCode now answer,
      recordCall (.inr (.deviceCode (.pollDeviceCode deviceCode now))) answer ∈ trace ∧
        answer ≠ Except.ok true) ∨
    result = .error slowDown

variable (config : TokenConfig)

theorem redeemDeviceCode_told (deviceCode : String) {before : Record Task (Exchange deviceCalls)} :
    (redeemDeviceCode config deviceCode).Meets (.recorder PollsOnce) recordCall
      (fun after _ => before.Continues after) before := by
  refine (Program.meets_recorded fun _ => ?_).bind ?_
  · exact pollsOnce_of_none rfl
  rintro middle (error | taken) ⟨first, -⟩
  · cases error <;> exact first
  dsimp only
  split
  · exact first
  refine (issue_meets pollsOnce_lenient config _ _ _ _).bind ?_
  rintro after (error | output) ⟨next, -⟩
  · cases error <;> exact first.trans next
  · exact first.trans next

/-- A grant that was told to slow down answers so. -/
theorem deviceCodeGrant_told (request : TokenRequest) :
    (deviceCodeGrant config request).Meets (.recorder PollsOnce) recordCall
      (fun after result => Told after.trace result) ⟨.token request, []⟩ := by
  have unasked : ∀ {result}, Told [] result :=
    .inl fun _ member => absurd member not_mem_nil
  unfold deviceCodeGrant
  split
  · exact unasked
  dsimp only
  split
  · exact unasked
  split
  · exact unasked
  split
  · exact unasked
  refine fun found _ => ⟨pollsOnce_of_none rfl, ?_⟩
  have looked : ∀ {result}, Told [recordCall (.inr (.deviceCode
      (.lookupDeviceCodeByDeviceCode (request.form.get "device_code")))) found] result :=
    .inl (forall_mem_singleton.mpr rfl)
  rcases found with error | found
  · cases error <;> exact looked
  change Program.Meets _ _ _ (if _ then _ else _) _
  split
  · exact looked
  intro (moment : Time) _
  refine ⟨pollsOnce_of_none rfl, ?_⟩
  refine (Program.meets_recorded fun _ => ?_).bind ?_
  · rintro deviceCode ⟨rfl⟩
    exact ⟨⟨request, rfl, rfl⟩, forall_mem_cons.mpr ⟨rfl, forall_mem_singleton.mpr rfl⟩⟩
  rintro middle answer ⟨-, shown⟩
  rcases answer with error | _ | _
  · cases error <;> exact .inr (.inl ⟨_, _, _, shown, nofun⟩)
  · have paced : ∀ {after : Record Task (Exchange deviceCalls)} {result},
        middle.Continues after → Told after.trace result :=
      fun next => .inr (.inl ⟨_, _, _, next.mem shown, nofun⟩)
    change Program.Meets _ _ _ (if _ then _ else if _ then _ else if _ then _ else _) _
    split
    · exact fun _ _ => ⟨pollsOnce_of_none rfl, paced ⟨rfl, suffix_cons _ _⟩⟩
    split
    · exact fun _ _ => ⟨pollsOnce_of_none rfl, paced ⟨rfl, suffix_cons _ _⟩⟩
    split
    · exact paced (.refl _)
    · exact (redeemDeviceCode_told config _).mono fun _ _ => paced
  · exact .inr (.inr rfl)

theorem statements_meet {Result : Type} (program : Program Device.statements Result)
    (record : Record Task (Exchange deviceCalls)) :
    program.Meets (.recorder PollsOnce) recordStatement (fun _ _ => True) record := by
  induction program generalizing record with
  | done result => trivial
  | perform statement next ih => exact fun answer _ => ⟨pollsOnce_of_none rfl, ih answer _⟩

/-- What a finished token request answers fits to what it was told. -/
def Tells (record : Record Task (Exchange deviceCalls)) (outcome : Outcome) : Prop :=
  ∀ request result, outcome = .answered request result → Told record.trace result

theorem program_tells (engine : Engine) (task : Task) :
    (task.program config engine).Meets (.recorder PollsOnce) Exchange.mk Tells ⟨task, []⟩ := by
  cases task with
  | token request =>
    refine ((Program.meets_first _ _).mpr (deviceCodeGrant_told config request)).bind ?_
    rintro after result told _ _ ⟨rfl, rfl⟩
    exact told
  | _ =>
    exact ((Program.meets_second _ _).mpr (statements_meet _ _)).bind fun _ _ _ _ _ => nofun

end Grant

section Interval

variable {crypto : Crypto} {codes after : DeviceCodes} {effect : deviceCalls.Effect}
  {answer : deviceCalls.Answer effect} {row : DeviceCodeRow}

/-- The step tells a poll of this row to slow down and lengthens its interval. -/
def Lengthens (crypto : Crypto) (label : Exchange deviceCalls) (earlier row : DeviceCodeRow) :
    Prop :=
  row.intervalSeconds = earlier.intervalSeconds + 5 ∧ ∃ deviceCode now,
    label = recordCall (.inr (.deviceCode (.pollDeviceCode deviceCode now))) (.ok true) ∧
      crypto.hash deviceCode = earlier.deviceCodeHash

theorem poll_interval (deviceCode : String) (now : Time)
    (member : row ∈ (codes.poll crypto deviceCode now).2.table.rows) :
    ∃ earlier ∈ codes.table.rows, earlier.deviceCodeHash = row.deviceCodeHash ∧
      (row.intervalSeconds = earlier.intervalSeconds ∨
        Lengthens crypto (recordCall (.inr (.deviceCode (.pollDeviceCode deviceCode now)))
          (codes.poll crypto deviceCode now).1) earlier row) := by
  unfold poll at member ⊢
  split at member
  · exact ⟨row, member, rfl, .inl rfl⟩
  next found stored =>
    dsimp only at member ⊢
    rw [mem_update] at member
    obtain ⟨earlier, present, rfl⟩ := member
    refine ⟨earlier, present, ?_⟩
    split
    next selected =>
      refine ⟨rfl, ?_⟩
      cases fast : tooFast found now with
      | true =>
        exact .inr ⟨rfl, deviceCode, now, rfl, (of_decide_eq_true selected).symm⟩
      | false => exact .inl (Int.add_zero _)
    · exact ⟨rfl, .inl rfl⟩

/-- Only a poll that is told to slow down lengthens an interval. -/
theorem Happens.interval (happens : Device.Happens crypto codes effect answer after)
    (member : row ∈ after.table.rows) :
    ∃ earlier ∈ codes.table.rows, earlier.deviceCodeHash = row.deviceCodeHash ∧
      (row.intervalSeconds = earlier.intervalSeconds ∨
        Lengthens crypto ⟨effect, answer⟩ earlier row) := by
  cases happens with
  | @responded call =>
    cases call with
    | lookupDeviceCodeByDeviceCode deviceCode => exact ⟨row, member, rfl, .inl rfl⟩
    | pollDeviceCode deviceCode now => exact poll_interval deviceCode now member
    | consumeDeviceCode deviceCode =>
      exact ⟨row, (mem_delete.mp member).1, rfl, .inl rfl⟩
  | @executed statement =>
    cases statement with
    | updatePending decision code now => exact decide_interval member
    | updateUnexpired decision code now => exact decide_interval member
    | deleteRowids rowids =>
      exact ⟨row, mem_deleteRowids member, rfl, .inl rfl⟩
    | deleteExpired now limit =>
      exact ⟨row, (mem_delete.mp member).1, rfl, .inl rfl⟩
    | _ => exact ⟨row, member, rfl, .inl rfl⟩
  | reaped => exact ⟨row, (mem_delete.mp member).1, rfl, .inl rfl⟩
  | _ => exact ⟨row, member, rfl, .inl rfl⟩
where
  decide_interval {decision : Decision} {now : Time} {selects : DeviceCodeRow → Bool}
      {label : Exchange deviceCalls}
      (member : row ∈ (Statement.decide decision now selects codes).2.table.rows) :
      ∃ earlier ∈ codes.table.rows, earlier.deviceCodeHash = row.deviceCodeHash ∧
        (row.intervalSeconds = earlier.intervalSeconds ∨ Lengthens crypto label earlier row) := by
    rw [Statement.decide, mem_update] at member
    obtain ⟨earlier, present, rfl⟩ := member
    refine ⟨earlier, present, ?_⟩
    split
    · exact ⟨(Decision.stamp_deviceCodeHash now decision earlier).symm,
        .inl (by cases decision <;> rfl)⟩
    · exact ⟨rfl, .inl rfl⟩

end Interval

section Schedule

variable {flow : DeviceFlow} {loop next : PollLoop} {action : PollAction} {duration : Time}

/-- The loop never waits less than its interval. -/
structure PollLoop.Steady (loop : PollLoop) : Prop where
  interval : 0 ≤ loop.interval
  backoff : loop.interval ≤ loop.backoff

theorem PollLoop.start_steady {init : DeviceAuthResponse} (natural : 0 ≤ init.interval) :
    (start flow init).Steady ∧ init.interval * second ≤ (start flow init).interval := by
  have positive : 0 ≤ init.interval * second := Int.mul_nonneg natural (by decide)
  unfold start
  dsimp only
  split
  next raised => exact ⟨⟨positive.trans raised.le, le_rfl⟩, raised.le⟩
  · exact ⟨⟨positive, le_rfl⟩, le_rfl⟩

theorem PollLoop.le_raised (flow : DeviceFlow) (sleepFor : Time) :
    sleepFor ≤ schedule.raised flow sleepFor := by
  unfold schedule.raised
  split
  next short => exact short.le
  · exact le_rfl

/-- Each sleep is at least the interval of the loop, which slowing down lengthens. -/
theorem PollLoop.Steady.schedule (steady : loop.Steady)
    (scheduled : loop.schedule flow action = some (duration, next)) :
    next.Steady ∧ next.interval ≤ duration ∧ loop.interval ≤ next.interval ∧
      (action = .slowDown → next.interval = loop.interval + slowDownBump) := by
  have positive := steady.interval
  have longer := steady.backoff
  cases action with
  | done token => cases scheduled
  | pending =>
    cases scheduled
    exact ⟨⟨positive, le_rfl⟩, le_raised flow _, le_rfl, nofun⟩
  | slowDown =>
    cases scheduled
    have bump : (0 : Time) ≤ slowDownBump := by decide
    exact ⟨⟨by linarith, le_rfl⟩, le_raised flow _, by linarith, fun _ => rfl⟩
  | transient =>
    cases scheduled
    refine ⟨⟨positive, ?_⟩, longer.trans (le_raised flow _), le_rfl, nofun⟩
    change loop.interval ≤ if loop.backoff * 2 > loop.interval * 4 then _ else _
    by_cases capped : loop.backoff * 2 > loop.interval * 4
    · rw [if_pos capped, transientBackoffCap]
      linarith
    · rw [if_neg capped]
      linarith

end Schedule

theorem Setting.Slows.polled {setting : Setting} {label : Exchange deviceCalls}
    (slows : setting.Slows label) : ∃ deviceCode now,
      label = recordCall (.inr (.deviceCode (.pollDeviceCode deviceCode now))) (.ok true) ∧
        setting.crypto.hash deviceCode = setting.hash := by
  unfold Setting.Slows at slows
  split at slows
  next deviceCode now answer =>
    obtain ⟨same, rfl⟩ := slows
    exact ⟨deviceCode, now, rfl, same⟩
  · exact slows.elim

variable {event : Event deviceCalls} {duration : Time}

theorem mem_traceOf_of_mem {log : List (Event deviceCalls)} (member : event ∈ log) :
    ⟨event.effect, event.answer⟩ ∈ traceOf log event.process :=
  mem_map_of_mem (mem_filter.mpr ⟨member, decide_eq_true rfl⟩)

abbrev Tracks (tasks : Nat → Task) (server : Flow) : Prop :=
  server.Follows (.recorder PollsOnce) Exchange.mk Tells fun process => ⟨tasks process, []⟩

/-- The stored interval is ahead of the loop only while the tool waits for a reply that tells it. -/
structure InStep (setting : Setting) (session : Session) : Prop where
  tracks : Tracks setting.tasks session.server
  once : ∀ first ∈ session.server.log, ∀ second ∈ session.server.log,
    first.process = second.process → polledCode ⟨first.effect, first.answer⟩ ≠ none →
      polledCode ⟨second.effect, second.answer⟩ ≠ none → first = second
  sent : ∀ event ∈ session.server.log, setting.Slows ⟨event.effect, event.answer⟩ →
    event.process ∈ session.sent
  steady : session.loop.Steady
  stored : session.phase ≠ .past → ∀ row, session.server.store.find setting.hash = some row →
    row.intervalSeconds * second ≤ session.loop.interval ∨
      row.intervalSeconds * second ≤ session.loop.interval + slowDownBump ∧
        ∃ event ∈ session.server.log, session.phase = .waiting event.process ∧
          setting.Slows ⟨event.effect, event.answer⟩

section Run

variable {setting : Setting} {before after : Session} {act : Act}

/-- A process polls only if it has not polled before. -/
theorem InStep.permitted (inStep : InStep setting before)
    (step : Step (world setting.crypto) before.server event server) :
    PollsOnce (setting.tasks event.process) (traceOf before.server.log event.process)
      ⟨event.effect, event.answer⟩ ∧ Tracks setting.tasks server := by
  obtain ⟨permitted, tracks⟩ := inStep.tracks.step step trivial
  rw [ghost_eq] at permitted
  exact ⟨permitted, tracks⟩

theorem InStep.unpolled {older : Event deviceCalls} {deviceCode : String}
    (permitted : PollsOnce (setting.tasks event.process)
      (traceOf before.server.log event.process) ⟨event.effect, event.answer⟩)
    (polled : polledCode ⟨event.effect, event.answer⟩ = some deviceCode)
    (member : older ∈ before.server.log) (same : older.process = event.process) :
    polledCode ⟨older.effect, older.answer⟩ = none := by
  have shown := mem_traceOf_of_mem member
  rw [same] at shown
  exact (permitted deviceCode polled).2 _ shown

/-- A step of the server keeps the tool in step. -/
theorem InStep.serve (inStep : InStep setting before) (heard : Heard setting before (.serve event))
    (arrived : setting.Asks (setting.tasks event.process) → event.process ∈ before.sent)
    (step : Step (world setting.crypto) before.server event server) :
    InStep setting { before with server } := by
  obtain ⟨permitted, tracks⟩ := inStep.permitted step
  have extended : server.log = event :: before.server.log := step.log_eq
  refine ⟨tracks, ?_, ?_, inStep.steady, ?_⟩
  · change ∀ first ∈ server.log, ∀ second ∈ server.log, _
    rw [extended]
    intro first inFirst second inSecond same polled again
    rcases mem_cons.mp inFirst with rfl | olderFirst
    · rcases mem_cons.mp inSecond with rfl | olderSecond
      · rfl
      · obtain ⟨deviceCode, polled⟩ := Option.ne_none_iff_exists'.mp polled
        exact absurd (InStep.unpolled permitted polled olderSecond same.symm) again
    · rcases mem_cons.mp inSecond with rfl | olderSecond
      · obtain ⟨deviceCode, again⟩ := Option.ne_none_iff_exists'.mp again
        exact absurd (InStep.unpolled permitted again olderFirst same) polled
      · exact inStep.once first olderFirst second olderSecond same polled again
  · change ∀ event ∈ server.log, _
    rw [extended]
    intro served member slows
    rcases mem_cons.mp member with rfl | member
    · obtain ⟨deviceCode, now, label, same⟩ := slows.polled
      rw [label] at permitted
      obtain ⟨⟨request, task, rfl⟩, -⟩ := permitted deviceCode rfl
      exact arrived ⟨request, task, same⟩
    · exact inStep.sent served member slows
  · intro active row found
    change row.intervalSeconds * second ≤ before.loop.interval ∨
      row.intervalSeconds * second ≤ before.loop.interval + slowDownBump ∧ ∃ event ∈ server.log, _
    rw [extended]
    obtain ⟨member, same⟩ := find_eq_some.mp found
    have happens : Device.Happens setting.crypto before.server.store event.effect event.answer
        server.store := step.happens
    obtain ⟨earlier, present, kept, change⟩ := Happens.interval happens member
    have earlierFound : before.server.store.find setting.hash = some earlier :=
      find_eq_some.mpr ⟨present, kept.trans same⟩
    rcases change with equal | ⟨longer, deviceCode, now, label, hashed⟩
    · rw [equal]
      refine (inStep.stored active earlier earlierFound).imp_right ?_
      rintro ⟨bounded, served, logged, told⟩
      exact ⟨bounded, served, mem_cons_of_mem _ logged, told⟩
    · have slows : setting.Slows ⟨event.effect, event.answer⟩ := by
        rw [label]
        exact ⟨hashed.trans (kept.trans same), rfl⟩
      have waits : before.phase = .waiting event.process := heard slows
      refine .inr ⟨?_, event, mem_cons_self, waits, slows⟩
      rcases inStep.stored active earlier earlierFound with
        bounded | ⟨-, older, logged, told, again⟩
      · rw [longer, add_mul]
        exact add_le_add_left bounded (5 * second)
      · have process : older.process = event.process :=
          Phase.waiting.inj (told.symm.trans waits)
        obtain ⟨code, moment, polled, -⟩ := again.polled
        have unpolled := InStep.unpolled permitted (congrArg polledCode label) logged process
        rw [polled] at unpolled
        cases unpolled

variable {action : PollAction}

section

variable {process : Nat} {loop : PollLoop} (inStep : InStep setting before)
  (waits : before.phase = .waiting process)
  (scheduled : before.loop.schedule setting.flow action = some (duration, loop))
  (heeds : ∀ event ∈ before.server.log, event.process = process →
    setting.Slows ⟨event.effect, event.answer⟩ → action = .slowDown)

include inStep waits scheduled heeds

/-- Once the tool has heeded what it was told, its loop has caught up. -/
theorem InStep.catchesUp (found : before.server.store.find setting.hash = some row) :
    row.intervalSeconds * second ≤ loop.interval := by
  obtain ⟨-, -, longer, bumped⟩ := inStep.steady.schedule scheduled
  have active : before.phase ≠ .past := by
    rw [waits]
    nofun
  rcases inStep.stored active row found with bounded | ⟨bounded, event, logged, told, slows⟩
  · exact bounded.trans longer
  · rw [bumped (heeds event logged (Phase.waiting.inj (told.symm.trans waits)) slows)]
    exact bounded

theorem InStep.sleep :
    InStep setting { before with loop, phase := .sleeping duration (before.time + duration) } ∧
      ∀ row, before.server.store.find setting.hash = some row →
        row.intervalSeconds * second ≤ duration := by
  obtain ⟨steady, slept, -, -⟩ := inStep.steady.schedule scheduled
  exact ⟨⟨inStep.tracks, inStep.once, inStep.sent, steady,
    fun _ row found => .inl (inStep.catchesUp waits scheduled heeds found)⟩,
    fun row found => (inStep.catchesUp waits scheduled heeds found).trans slept⟩

end

/-- The reply to a request that was told to slow down says so. -/
theorem InStep.heeds (inStep : InStep setting before) {result : Except TokenError TokenOutput}
    (answered : before.server.processes process = .done (.answered setting.request result))
    (polled : pollOnce setting.flow before.time (some (reply result)) = .ok action)
    (logged : event ∈ before.server.log) (mine : event.process = process)
    (slows : setting.Slows ⟨event.effect, event.answer⟩) : action = .slowDown := by
  have tells := inStep.tracks process
  rw [ghost_eq, answered] at tells
  obtain ⟨deviceCode, now, label, -⟩ := slows.polled
  have shown := mem_traceOf_of_mem logged
  rw [mine, label] at shown
  rcases tells _ _ rfl with silent | ⟨other, moment, answer, again, different⟩ | rfl
  · cases silent _ shown
  · have same : (⟨process, _, _⟩ : Event deviceCalls) = ⟨process, _, _⟩ :=
      inStep.once _ (mem_traceOf shown) _ (mem_traceOf again) rfl nofun nofun
    cases same
    exact absurd rfl different
  · exact (Except.ok.inj polled).symm

/-- A move that the tool hears of keeps the loop in step, and each sleep is long enough. -/
theorem InStep.move (inStep : InStep setting before) (heard : Heard setting before act)
    (move : Move setting before act after) :
    InStep setting after ∧ ∀ duration, StartsSleep before after duration →
      ∀ row, after.server.store.find setting.hash = some row →
        row.intervalSeconds * second ≤ duration := by
  obtain ⟨tracks, once, sent, steady, stored⟩ := id inStep
  cases move with
  | tick passes =>
    refine ⟨⟨tracks, once, sent, steady, stored⟩, ?_⟩
    rintro duration ⟨process, wakesAt, waits, sleeps⟩
    cases waits.symm.trans sleeps
  | serve arrived clocked step =>
    refine ⟨inStep.serve heard arrived step, ?_⟩
    rintro duration ⟨process, wakesAt, waits, sleeps⟩
    cases waits.symm.trans sleeps
  | send ready timely fresh mine =>
    refine ⟨⟨tracks, once, fun event logged slows => .tail _ (sent event logged slows), steady,
      fun _ row found => ?_⟩, ?_⟩
    · rcases stored (ready ▸ nofun) row found with bounded | ⟨-, event, -, waits, -⟩
      · exact .inl bounded
      · cases ready.symm.trans waits
    · rintro duration ⟨process, wakesAt, waits, sleeps⟩
      cases ready.symm.trans waits
  | receive waits answered polled scheduled =>
    have slept := inStep.sleep waits scheduled fun event logged mine =>
      inStep.heeds answered polled logged mine
    refine ⟨slept.1, ?_⟩
    rintro duration ⟨process, wakesAt, -, ⟨rfl, -⟩⟩
    exact slept.2
  | lose waits polled scheduled =>
    have slept := inStep.sleep waits scheduled fun event logged mine slows =>
      absurd slows (heard event logged (mine ▸ waits))
    refine ⟨slept.1, ?_⟩
    rintro duration ⟨process, wakesAt, -, ⟨rfl, -⟩⟩
    exact slept.2
  | wake sleeps slept =>
    refine ⟨⟨tracks, once, sent, steady, fun _ row found => ?_⟩, ?_⟩
    · rcases stored (sleeps ▸ nofun) row found with bounded | ⟨-, event, -, waits, -⟩
      · exact .inl bounded
      · cases sleeps.symm.trans waits
    · rintro duration ⟨process, wakesAt, waits, -⟩
      cases sleeps.symm.trans waits
  | stop =>
    refine ⟨⟨tracks, once, sent, steady, fun active => absurd rfl active⟩, ?_⟩
    rintro duration ⟨process, wakesAt, -, past⟩
    cases past

/-- Every run in which the tool hears of each lengthening keeps the loop in step. -/
theorem InStep.run (config : TokenConfig) (engine : Engine) (natural : 0 ≤ setting.init.interval)
    (agreed : ∀ row, codes.find setting.hash = some row →
      row.intervalSeconds = setting.init.interval)
    (reached : Runs setting (Heard setting) (.start setting config engine codes) after) :
    InStep setting after := by
  induction reached with
  | refl =>
    obtain ⟨steady, bounded⟩ := start_steady natural
    refine ⟨fun process => program_tells config engine _,
      fun _ member => absurd member not_mem_nil,
      fun _ member => absurd member not_mem_nil, steady, fun _ row found => .inl ?_⟩
    rw [agreed row found]
    exact bounded
  | tail _ last ih =>
    obtain ⟨act, heard, move⟩ := last
    exact (ih.move heard move).1

end Run

/-- A poll that waits out the interval after the last one is not too fast. -/
theorem tooFast_eq_false {now : Time} (bounded : row.intervalSeconds * second ≤ duration)
    (waited : ∀ last, row.lastPolledAt = some last → last + duration ≤ now) :
    tooFast row now = false := by
  unfold tooFast
  cases polled : row.lastPolledAt with
  | none => rfl
  | some last =>
    have late := waited last polled
    refine decide_eq_false (not_lt.mpr ?_)
    linarith

/-- Whenever the tool starts to sleep after a run in which it has heard of every lengthening, it
sleeps at least as long as the stored interval, so that its next poll is not too fast. -/
theorem heard_tool_sleeps_long_enough (setting : Setting) (config : TokenConfig) (engine : Engine)
    {codes : DeviceCodes} (natural : 0 ≤ setting.init.interval)
    (agreed : ∀ row, codes.find setting.hash = some row →
      row.intervalSeconds = setting.init.interval)
    {before after : Session} {act : Act} {duration : Time} {row : DeviceCodeRow}
    (reached : Runs setting (Heard setting) (.start setting config engine codes) before)
    (heard : Heard setting before act) (move : Move setting before act after)
    (starts : StartsSleep before after duration)
    (found : after.server.store.find setting.hash = some row) :
    row.intervalSeconds * second ≤ duration ∧
      ∀ now, (∀ last, row.lastPolledAt = some last → last + duration ≤ now) →
        tooFast row now = false := by
  have inStep := InStep.run config engine natural agreed reached
  have bounded := (inStep.move heard move).2 duration starts row found
  exact ⟨bounded, fun now => tooFast_eq_false bounded⟩

section Sample

def sampleFlow : DeviceFlow := ⟨"cli", second, 0⟩

/-- Every request comes from the tool. -/
def sampleSetting : Setting where
  crypto := plainCrypto
  flow := sampleFlow
  init := ⟨"device", 5, 600⟩
  begun := 0
  tasks := fun _ => .token (pollRequest sampleFlow "device")

def waitingCode : DeviceCodeRow := { sampleCode with expiresAt := 600 * second }

def waitingCodes : DeviceCodes := ⟨⟨[⟨1, waitingCode⟩], by simp, by simp⟩, by simp [Table.rows]⟩

def sampleStart : Session := .start sampleSetting sampleConfig .sqlite waitingCodes

/-- The first request arrives late, after the second one. -/
def arrival : Nat → Time
  | 0 => 36 * second
  | 1 => 35 * second
  | 2 => 40 * second
  | _ => second

variable (log : List (Event deviceCalls))

def arrivals (process : Nat) : (effect : calls.Effect) → calls.Answer effect
  | .inl .now => arrival process
  | effect => sampleAnswers log process effect

theorem arrivals_clocked (codes : DeviceCodes) (process : Nat) (effect : deviceCalls.Effect) :
    Clocked (arrival process)
      ⟨effect, (executor plainCrypto arrivals log codes process effect).1⟩ := by
  unfold Clocked
  split
  next moment same =>
    cases same
    rfl
  · trivial

/-- The server handles a request that has arrived. -/
theorem Runs.serves {allowed : Session → Act → Prop}
    (allows : ∀ server event, event.process = process →
      allowed { before with server } (.serve event))
    (sent : process ∈ before.sent) (time : before.time = arrival process) (count : Nat) :
    Runs sampleSetting allowed before { before with
        server := before.server.turns (executor plainCrypto arrivals)
          (List.replicate count process) } := by
  induction count generalizing before with
  | zero => exact .refl
  | succ count ih =>
    cases ready : before.server.processes process with
    | done outcome =>
      have stays : before.server.turn (executor plainCrypto arrivals) process = before.server := by
        unfold turn
        rw [ready]
      rw [replicate_succ, turns, stays]
      exact ih allows sent time
    | perform effect next =>
      refine .trans (.single ⟨.serve _, allows _ _ rfl, .serve (fun _ => sent) ?_
        (turn_step ready (executor_follows plainCrypto arrivals _ _ _ _))⟩)
        (@ih { before with
          server := before.server.turn (executor plainCrypto arrivals) process } allows sent time)
      rw [time]
      exact arrivals_clocked _ _ _ _

/-- An earlier poll of this code is on record. -/
def polledCodes : DeviceCodes :=
  ⟨⟨[⟨1, { waitingCode with lastPolledAt := some 0 }⟩], by simp, by simp⟩, by simp [Table.rows]⟩

/-- The tool polls too fast, hears that it should slow down and sleeps out the longer interval. -/
theorem heard_tool_sleeps_long_enough_sample :
    ∃ before after row, Runs sampleSetting (Heard sampleSetting)
        (.start sampleSetting sampleConfig .sqlite polledCodes) before ∧
      Move sampleSetting before .receive after ∧
      after.server.store.find sampleSetting.hash = some row ∧ row.intervalSeconds = 10 ∧
      row.intervalSeconds * second ≤ 10 * second := by
  have agreed : ∀ row, polledCodes.find sampleSetting.hash = some row →
      row.intervalSeconds = sampleSetting.init.interval := by
    rintro row ⟨rfl⟩
    rfl
  have sent : Runs sampleSetting (Heard sampleSetting)
      (.start sampleSetting sampleConfig .sqlite polledCodes) _ :=
    .tail (.tail .refl ⟨.send 3, trivial, .send rfl (by decide) not_mem_nil rfl⟩)
      ⟨.tick second, trivial, .tick (by decide)⟩
  have told := sent.trans (Runs.serves (fun _ _ same _ => same ▸ rfl) (.head _) rfl 3)
  refine ⟨_, _, _, told, .receive rfl rfl rfl rfl, rfl, rfl, ?_⟩
  refine (heard_tool_sleeps_long_enough sampleSetting sampleConfig .sqlite (by decide) agreed told
    ?_ (.receive rfl rfl rfl rfl) ⟨3, _, rfl, rfl⟩ rfl).1
  exact trivial

/-- A late request is told to slow down when nobody listens, so the interval of the tool stays
behind the stored one, even after the tool has heard the next such answer. -/
theorem late_request_leaves_tool_behind :
    ∃ before after row, Runs sampleSetting anyMove sampleStart before ∧
      Move sampleSetting before .receive after ∧ StartsSleep before after (10 * second) ∧
      (∀ process, ¬ after.InFlight process) ∧
      after.server.store.find sampleSetting.hash = some row ∧ row.intervalSeconds = 15 := by
  have lost : Runs sampleSetting anyMove sampleStart _ :=
    .tail (.tail (.tail .refl ⟨.send 0, trivial, .send rfl (by decide) not_mem_nil rfl⟩)
      ⟨.tick (30 * second), trivial, .tick (by decide)⟩)
      ⟨.lose, trivial, .lose rfl rfl rfl⟩
  have second : Runs sampleSetting anyMove sampleStart _ :=
    .tail (.tail (.tail lost ⟨.tick (35 * second), trivial, .tick (by decide)⟩)
      ⟨.wake, trivial, .wake rfl (by decide)⟩)
      ⟨.send 1, trivial, .send rfl (by decide) (by decide) rfl⟩
  have answered : Runs sampleSetting anyMove sampleStart _ :=
    .tail (.tail (second.trans (Runs.serves (fun _ _ _ => trivial) (.head _) rfl 3))
      ⟨.receive, trivial, .receive rfl rfl rfl rfl⟩)
      ⟨.tick (36 * Oidc.second), trivial, .tick (by decide)⟩
  have third : Runs sampleSetting anyMove sampleStart _ :=
    .tail (.tail (.tail
      (answered.trans (Runs.serves (fun _ _ _ => trivial) (.tail _ (.head _)) rfl 3))
      ⟨.tick (40 * Oidc.second), trivial, .tick (by decide)⟩)
      ⟨.wake, trivial, .wake rfl (by decide)⟩)
      ⟨.send 2, trivial, .send rfl (by decide) (by decide) rfl⟩
  refine ⟨_, _, _, third.trans (Runs.serves (fun _ _ _ => trivial) (.head _) rfl 3),
    .receive rfl rfl rfl rfl, ⟨2, _, rfl, rfl⟩, ?_, rfl, rfl⟩
  rintro process ⟨sent, unfinished⟩
  rcases sent with _ | ⟨_, _ | ⟨_, _ | ⟨_, ⟨⟩⟩⟩⟩ <;> exact unfinished _ rfl

end Sample

end Tempogate.Cli
