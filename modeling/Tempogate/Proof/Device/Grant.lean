/-
This file shows what a device-code token request does before it answers with tokens.
-/

import Tempogate.Construction.Device.Codes
import Tempogate.Proof.Oidc.Issue
import Tempogate.Proof.Sweep.Loops

namespace Tempogate.Device

open Foundation Oidc State Program

/-- The processes are judged by all their calls and answers. -/
abbrev Trace : Type := List (Exchange deviceCalls)

def recordCall : Observer calls (Exchange deviceCalls) :=
  fun effect answer => ⟨.inl effect, answer⟩

variable (trace : Trace)

/-- The process has looked the device code up and found this copy of its row. -/
def Looked (deviceCode : String) (found : DeviceCode) : Prop :=
  recordCall (.inr (.deviceCode (.lookupDeviceCodeByDeviceCode deviceCode))) (.ok found) ∈ trace

/-- The process has deleted the row of the device code and received it. -/
def Taken (deviceCode : String) (taken : DeviceCode) : Prop :=
  recordCall (.inr (.deviceCode (.consumeDeviceCode deviceCode))) (.ok taken) ∈ trace

/-- A token request changes a row only when it has found its own client there. -/
def Claims (task : Task) (trace : Trace) (deviceCode : String) : Prop :=
  ∃ request found, task = .token request ∧ Looked trace deviceCode found ∧
    (clientCredentials request).1 = found.clientID

/-- A token request runs no statement of its own. -/
def Task.decides : Task → Bool
  | .token _ => false
  | _ => true

/-- The unchecked update of a decision follows the check of the expiry. -/
def Checked : Statement → Prop
  | .updatePending _ userCode now => ∃ expiresAt,
      (⟨.inr (.selectExpiresAt userCode), .ok (some expiresAt)⟩ : Exchange deviceCalls) ∈ trace ∧
        now < expiresAt
  | _ => True

def Permits (task : Task) (trace : Trace) : Exchange deviceCalls → Prop
  | ⟨.inl (.inr (.deviceCode (.pollDeviceCode deviceCode _))), _⟩ => Claims task trace deviceCode
  | ⟨.inl (.inr (.deviceCode (.consumeDeviceCode deviceCode))), _⟩ => Claims task trace deviceCode
  | ⟨.inr statement, _⟩ => task.decides = true ∧ Checked trace statement
  | _ => True

theorem permits_lenient : Lenient recordCall Permits :=
  ⟨fun _ _ _ _ => trivial, fun _ _ _ _ => trivial⟩

def reading : Exchange deviceCalls → Option Time
  | ⟨.inl (.inl .now), moment⟩ => some moment
  | _ => none

/-- The first clock reading of a process stands last. -/
def readings : List Time := trace.filterMap reading

theorem readings_of_suffix {trace longer : Trace} {moment : Time} (keeps : trace <:+ longer)
    (first : (readings trace).getLast? = some moment) :
    (readings longer).getLast? = some moment := by
  obtain ⟨newer, rfl⟩ := keeps
  rw [readings, List.filterMap_append, List.getLast?_append]
  rw [readings] at first
  rw [first]
  rfl

/-- The request answers with tokens of an approved code that it has found and then taken. -/
structure Redeemed (request : TokenRequest) (trace : Trace) (output : TokenOutput)
    (found taken : DeviceCode) (moment : Time) : Prop where
  looked : Looked trace (request.form.get "device_code") found
  client : (clientCredentials request).1 = found.clientID
  reads : (readings trace).getLast? = some moment
  unexpired : ¬ moment > found.expiresAt
  undenied : found.deniedAt = none
  approved : found.approvedAt.isSome = true
  consumed : Taken trace (request.form.get "device_code") taken
  carries : Carries recordCall trace ⟨taken.connectorID, taken.subject, taken.email⟩
    taken.clientID "" output

variable (config : TokenConfig)

/-- Once a code is approved, the request answers with tokens only for the row it takes. -/
theorem redeemDeviceCode_meets (deviceCode : String) {before : Record Task (Exchange deviceCalls)}
    (claims : Claims before.tag before.trace deviceCode) :
    (redeemDeviceCode config deviceCode).Meets (.recorder Permits) recordCall
      (fun after result => before.Continues after ∧ ∀ output, result = .ok output →
        ∃ taken, Taken after.trace deviceCode taken ∧
          Carries recordCall after.trace ⟨taken.connectorID, taken.subject, taken.email⟩
            taken.clientID "" output) before := by
  refine (meets_recorded fun _ => claims).bind ?_
  rintro middle (error | taken) ⟨first, consumed⟩
  · cases error <;> exact ⟨first, nofun⟩
  dsimp only
  split
  · exact ⟨first, nofun⟩
  refine (issue_meets permits_lenient config _ _ _ _).bind ?_
  rintro after (error | output) ⟨next, carries⟩
  · cases error <;> exact ⟨first.trans next, nofun⟩
  · refine ⟨first.trans next, ?_⟩
    rintro answered ⟨rfl⟩
    exact ⟨taken, next.mem consumed, carries output rfl⟩

/-- A grant that answers tokens has redeemed its code. -/
theorem deviceCodeGrant_meets (request : TokenRequest) :
    (deviceCodeGrant config request).Meets (.recorder Permits) recordCall
      (fun after result => ∀ output, result = .ok output →
        ∃ found taken moment, Redeemed request after.trace output found taken moment)
      ⟨.token request, []⟩ := by
  unfold deviceCodeGrant
  split
  · exact nofun
  dsimp only
  split
  · exact nofun
  split
  · exact nofun
  split
  · exact nofun
  rintro (error | found) -
  · cases error <;> exact ⟨trivial, nofun⟩
  refine ⟨trivial, ?_⟩
  change Meets _ _ _ (if _ then _ else _) _
  split
  · exact nofun
  next client =>
  intro (moment : Time) _
  refine ⟨trivial, ?_⟩
  have same : (clientCredentials request).1 = found.clientID := not_not.mp client
  have claims : ∀ {trace : Trace}, Looked trace (request.form.get "device_code") found →
      Claims (.token request) trace (request.form.get "device_code") :=
    fun looked => ⟨request, found, rfl, looked, same⟩
  refine (meets_recorded fun _ => claims (.tail _ (.head _))).bind ?_
  rintro middle (error | _ | _) ⟨polled, -⟩
  · cases error <;> exact nofun
  · have looked : Looked middle.trace (request.form.get "device_code") found :=
      polled.mem (.tail _ (.head _))
    have reads : (readings middle.trace).getLast? = some moment :=
      readings_of_suffix polled.keeps rfl
    have owned : Claims middle.tag middle.trace (request.form.get "device_code") :=
      polled.same ▸ claims looked
    change Meets _ _ _ (if _ then _ else if _ then _ else if _ then _ else _) _
    split
    · exact fun _ _ => ⟨owned, nofun⟩
    next unexpired =>
    split
    · exact fun _ _ => ⟨owned, nofun⟩
    next undenied =>
    split
    · exact nofun
    next approved =>
    refine (redeemDeviceCode_meets config _ owned).mono ?_
    rintro after result ⟨next, issued⟩ output answered
    obtain ⟨taken, consumed, carries⟩ := issued output answered
    exact ⟨found, taken, moment, {
      looked := next.mem looked
      client := same
      reads := readings_of_suffix next.keeps reads
      unexpired := unexpired
      undenied := by simpa using undenied
      approved := by simpa [Option.isSome_iff_ne_none] using approved
      consumed := consumed
      carries := carries }⟩
  · exact nofun

section Statements

/-- The statements of a decision or a sweep are recorded. -/
def recordStatement : Observer statements (Exchange deviceCalls) :=
  fun statement answer => ⟨.inr statement, answer⟩

variable {record : Record Task (Exchange deviceCalls)}

theorem decideDeviceCode_meets (engine : Engine) (decision : Decision) (userCode : String)
    (now : Time) (decides : record.tag.decides = true) :
    (decideDeviceCode engine decision userCode now).Meets (.recorder Permits) recordStatement
      (fun _ _ => True) record := by
  cases engine with
  | sqlite =>
    rintro (cause | _ | expiresAt) -
    · exact ⟨⟨decides, trivial⟩, trivial⟩
    · exact ⟨⟨decides, trivial⟩, trivial⟩
    · refine ⟨⟨decides, trivial⟩, ?_⟩
      change Meets _ _ _ (if _ then _ else _) _
      split
      · trivial
      next timely =>
        exact fun _ _ => ⟨⟨decides, expiresAt, .head _, not_not.mp timely⟩, trivial⟩
  | postgres rounds => exact fun _ _ => ⟨⟨decides, trivial⟩, trivial⟩

theorem walk_meets_decides (reaper : Reaper) (now : Time) (decides : record.tag.decides = true) :
    (reaper.reap .sqlite now).Meets (.recorder Permits) recordStatement
      (fun _ _ => True) record := by
  refine (State.walk_meets (fun record => record.tag.decides = true) (fun _ _ => True) ?_ ?_ _ _ _
    decides).mono fun _ _ _ => trivial
  · rintro cursor limit record decides (cause | page) - <;>
      exact ⟨⟨decides, trivial⟩, decides, fun _ _ => trivial⟩
  · exact fun _ _ decides _ _ _ => ⟨⟨decides, trivial⟩, decides⟩

theorem batches_meets (reaper : Reaper) (now : Time) (rounds deleted : Nat)
    (decides : record.tag.decides = true) :
    (State.batches reaper.batch (query (.deleteExpired now reaper.batch)) rounds
      deleted).Meets (.recorder Permits) recordStatement
      (fun _ _ => True) record := by
  induction rounds generalizing deleted record with
  | zero => trivial
  | succ rounds ih =>
    rintro (cause | (count : Nat)) -
    · exact ⟨⟨decides, trivial⟩, trivial⟩
    refine ⟨⟨decides, trivial⟩, ?_⟩
    change Meets _ _ _ (if _ then _ else _) _
    split
    · trivial
    · exact ih _ decides

end Statements

/-- A token answer comes from a redeemed code. -/
def Settles (record : Record Task (Exchange deviceCalls)) (outcome : Outcome) : Prop :=
  ∀ request output, outcome = .answered request (.ok output) →
    ∃ found taken moment, Redeemed request record.trace output found taken moment

/-- Every task keeps to what the processes may do. -/
theorem program_meets (engine : Engine) (task : Task) :
    (task.program config engine).Meets (.recorder Permits) Exchange.mk Settles ⟨task, []⟩ := by
  cases task with
  | token request =>
    refine ((meets_first _ _).mpr (deviceCodeGrant_meets config request)).bind ?_
    rintro after result redeemed _ output ⟨rfl⟩
    exact redeemed output rfl
  | approve userCode identity now =>
    refine ((meets_second _ _).mpr (decideDeviceCode_meets engine _ _ now rfl)).bind ?_
    exact fun _ _ _ => nofun
  | deny userCode now =>
    refine ((meets_second _ _).mpr (decideDeviceCode_meets engine _ _ now rfl)).bind ?_
    exact fun _ _ _ => nofun
  | reap reaper now =>
    have meets : (reaper.reap engine now).Meets (.recorder Permits) recordStatement
        (fun _ _ => True) ⟨.reap reaper now, []⟩ := by
      cases engine with
      | sqlite => exact walk_meets_decides reaper now rfl
      | postgres rounds => exact batches_meets reaper now _ _ rfl
    refine ((meets_second _ _).mpr meets).bind ?_
    exact fun _ _ _ => nofun

end Tempogate.Device
