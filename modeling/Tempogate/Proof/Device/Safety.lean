/-
This file shows that a device code yields tokens once, to its client, for its one approval.
-/

import Tempogate.Proof.Device.Grant
import Tempogate.Proof.Refresh.Ledger

namespace Tempogate.Device

open Foundation Oidc State DeviceCodes Happens Statement Decision List

variable {after row : DeviceCodeRow} {now moment expiresAt : Time}
  {userCode deviceCode other code : String} {found taken : DeviceCode} {process : Nat}
  {request : TokenRequest} {decision made : Decision} {change : DeviceCodeRow → DeviceCodeRow}
  {output : TokenOutput} {codes : DeviceCodes}

namespace DeviceCodes

variable {codes : DeviceCodes} {row : DeviceCodeRow} {hash : String}

theorem find_eq_some :
    codes.find hash = some row ↔ row ∈ codes.table.rows ∧ row.deviceCodeHash = hash :=
  Table.find_eq_some_iff

/-- Stored rows with one user code are the same row. -/
theorem eq_of_userCode_eq {first second : DeviceCodeRow} (inFirst : first ∈ codes.table.rows)
    (inSecond : second ∈ codes.table.rows) (same : first.userCode = second.userCode) :
    first = second :=
  inj_on_of_nodup_map codes.unique inFirst inSecond same

variable {selects : DeviceCodeRow → Bool}

theorem mem_update {keeps : ∀ row, (change row).deviceCodeHash = row.deviceCodeHash}
    {names : ∀ row, (change row).userCode = row.userCode} :
    after ∈ (codes.update selects change keeps names).table.rows ↔
      ∃ row ∈ codes.table.rows, (if selects row then change row else row) = after := by
  rw [update, Table.rows_update, mem_map]

theorem mem_delete :
    row ∈ (codes.delete selects).table.rows ↔ row ∈ codes.table.rows ∧ selects row = false := by
  rw [delete, Table.rows_delete, mem_filter]
  simp

theorem mem_deleteRowids {rowids : List Nat}
    (member : row ∈ (codes.deleteRowids rowids).table.rows) : row ∈ codes.table.rows :=
  (filter_sublist.map _).subset member

/-- Changing the row of one code leaves the others alone. -/
theorem find_update_of_ne {keeps : ∀ row, (change row).deviceCodeHash = row.deviceCodeHash}
    {names : ∀ row, (change row).userCode = row.userCode} (different : other ≠ hash) :
    (codes.update (fun row => row.deviceCodeHash = other) change keeps names).find hash =
      codes.find hash := by
  refine Option.ext fun row => ?_
  rw [find_eq_some, find_eq_some, mem_update]
  constructor
  · rintro ⟨⟨stored, present, rfl⟩, same⟩
    split at same
    next selected =>
      rw [keeps, of_decide_eq_true selected] at same
      exact absurd same different
    next unselected =>
      rw [if_neg unselected]
      exact ⟨present, same⟩
  · rintro ⟨present, rfl⟩
    exact ⟨⟨row, present, if_neg (by simpa using different.symm)⟩, rfl⟩

theorem find_delete_of_ne (different : other ≠ hash) :
    (codes.delete fun row => row.deviceCodeHash = other).find hash = codes.find hash := by
  refine Option.ext fun row => ?_
  rw [find_eq_some, find_eq_some, mem_delete]
  constructor
  · rintro ⟨⟨present, -⟩, same⟩
    exact ⟨present, same⟩
  · rintro ⟨present, rfl⟩
    exact ⟨⟨present, by simpa using different.symm⟩, rfl⟩

end DeviceCodes

/-- An update that affects a row decides on its user code. -/
def stamped (userCode code : String) (decision : Decision) (now : Time) :
    Except String Nat → Option (Decision × Time)
  | .ok (_ + 1) => if code = userCode then some (decision, now) else none
  | _ => none

def decisionOf (userCode : String) :
    (effect : deviceCalls.Effect) → deviceCalls.Answer effect → Option (Decision × Time)
  | .inr (.updatePending decision code now), answer => stamped userCode code decision now answer
  | .inr (.updateUnexpired decision code now), answer => stamped userCode code decision now answer
  | _, _ => none

/-- These decisions on the user code have succeeded. -/
def decisions (userCode : String) (log : List (Event deviceCalls)) : List (Decision × Time) :=
  log.filterMap fun event => decisionOf userCode event.effect event.answer

theorem stamped_eq_some {answer : Except String Nat}
    (success : stamped userCode code decision now answer = some (made, moment)) :
    ∃ count, answer = .ok (count + 1) ∧ code = userCode ∧ decision = made ∧ now = moment := by
  unfold stamped at success
  split at success
  next count =>
    split at success
    next same =>
      cases success
      exact ⟨count, rfl, same, rfl, rfl⟩
    · cases success
  · cases success

section Decide

variable {codes : DeviceCodes} {selects : DeviceCodeRow → Bool} {code : String}
  {decision : Decision} {now : Time}

theorem countP_of_stamped (success : stamped userCode code decision now
      (.ok (Statement.decide decision now selects codes).1) = some (made, moment)) :
    (∃ row ∈ codes.table.rows, selects row = true) ∧ code = userCode ∧ decision = made ∧
      now = moment := by
  obtain ⟨count, counted, same⟩ := stamped_eq_some success
  refine ⟨countP_pos_iff.mp ?_, same⟩
  have positive : codes.table.rows.countP selects = count + 1 := Except.ok.inj counted
  rw [positive]
  exact Nat.succ_pos count

/-- An update selects by the user code, so a success is about one row. -/
theorem decide_origin (names : ∀ row, selects row = true → row.userCode = code)
    (member : after ∈ (Statement.decide decision now selects codes).2.table.rows) :
    ∃ row ∈ codes.table.rows, (after = row ∧ stamped row.userCode code decision now
        (.ok (Statement.decide decision now selects codes).1) = none) ∨
      (after = decision.stamp now row ∧ selects row = true ∧ stamped row.userCode code decision now
          (.ok (Statement.decide decision now selects codes).1) = some (decision, now)) := by
  rw [Statement.decide, mem_update] at member
  obtain ⟨row, present, rfl⟩ := member
  refine ⟨row, present, ?_⟩
  cases selected : selects row with
  | true =>
    refine .inr ⟨rfl, rfl, ?_⟩
    have counted : 0 < codes.table.rows.countP selects :=
      countP_pos_iff.mpr ⟨row, present, selected⟩
    obtain ⟨count, positive⟩ := Nat.exists_eq_succ_of_ne_zero counted.ne'
    change stamped _ _ _ _ (.ok (codes.table.rows.countP selects)) = _
    rw [positive]
    exact if_pos (names row selected).symm
  | false =>
    refine .inl ⟨rfl, ?_⟩
    by_contra success
    obtain ⟨⟨made, moment⟩, success⟩ := Option.ne_none_iff_exists'.mp success
    obtain ⟨⟨other, stored, chosen⟩, same, -, -⟩ := countP_of_stamped success
    have named : other.userCode = row.userCode := (names other chosen).trans same
    rw [eq_of_userCode_eq stored present named, selected] at chosen
    cases chosen

end Decide

section Happens

variable {crypto : Crypto} {codes after : DeviceCodes} {effect : deviceCalls.Effect}
  {answer : deviceCalls.Answer effect}

/-- A row is polled again, which leaves its decision alone. -/
def Repolled (row after : DeviceCodeRow) : Prop :=
  ∃ last interval, after = { row with lastPolledAt := last, intervalSeconds := interval }

theorem Repolled.refl (row : DeviceCodeRow) : Repolled row row := ⟨_, _, rfl⟩

theorem decisionOf_error (userCode : String) (statement : Statement) (cause : String) :
    decisionOf userCode (.inr statement) (.error cause) = none := by
  cases statement <;> rfl

theorem poll_origin (crypto : Crypto) (deviceCode : String) (now : Time)
    (member : row ∈ (codes.poll crypto deviceCode now).2.table.rows) :
    ∃ earlier ∈ codes.table.rows, Repolled earlier row := by
  unfold poll at member
  split at member
  · exact ⟨row, member, .refl row⟩
  · rw [mem_update] at member
    obtain ⟨earlier, present, rfl⟩ := member
    refine ⟨earlier, present, ?_⟩
    split
    · exact ⟨_, _, rfl⟩
    · exact .refl earlier

theorem names_undecided (selected : undecided code row = true) :
    row.userCode = code ∧ pending row = true := by
  simpa [undecided] using selected

theorem names_unexpired (selected : unexpired code now row = true) :
    row.userCode = code ∧ pending row = true ∧ now < row.expiresAt := by
  simpa [unexpired, undecided, and_assoc] using selected

/-- Every stored row comes from a stored row, polled again or decided by this step. -/
theorem Happens.origin (happens : Happens crypto codes effect answer after)
    (member : row ∈ after.table.rows) :
    ∃ earlier ∈ codes.table.rows,
      (Repolled earlier row ∧ decisionOf earlier.userCode effect answer = none) ∨
      ∃ decision now, row = decision.stamp now earlier ∧ pending earlier = true ∧
        decisionOf earlier.userCode effect answer = some (decision, now) ∧
        (now < earlier.expiresAt ∨
          effect = .inr (.updatePending decision earlier.userCode now)) := by
  cases happens with
  | @responded call =>
    cases call with
    | lookupDeviceCodeByDeviceCode deviceCode => exact ⟨row, member, .inl ⟨.refl row, rfl⟩⟩
    | pollDeviceCode deviceCode now =>
      obtain ⟨earlier, present, repolled⟩ := poll_origin crypto deviceCode now member
      exact ⟨earlier, present, .inl ⟨repolled, rfl⟩⟩
    | consumeDeviceCode deviceCode =>
      exact ⟨row, (mem_delete.mp member).1, .inl ⟨.refl row, rfl⟩⟩
  | @executed statement =>
    cases statement with
    | updatePending decision code now =>
      obtain ⟨earlier, present, ⟨rfl, none⟩ | ⟨rfl, selected, success⟩⟩ :=
        decide_origin (fun row selected => (names_undecided selected).1) member
      · exact ⟨row, present, .inl ⟨.refl row, none⟩⟩
      · obtain ⟨rfl, waits⟩ := names_undecided selected
        exact ⟨earlier, present, .inr ⟨decision, now, rfl, waits, success, .inr rfl⟩⟩
    | updateUnexpired decision code now =>
      obtain ⟨earlier, present, ⟨rfl, none⟩ | ⟨rfl, selected, success⟩⟩ :=
        decide_origin (fun row selected => (names_unexpired selected).1) member
      · exact ⟨row, present, .inl ⟨.refl row, none⟩⟩
      · obtain ⟨rfl, waits, timely⟩ := names_unexpired selected
        exact ⟨earlier, present, .inr ⟨decision, now, rfl, waits, success, .inl timely⟩⟩
    | deleteRowids rowids =>
      exact ⟨row, mem_deleteRowids member, .inl ⟨.refl row, rfl⟩⟩
    | deleteExpired now limit =>
      exact ⟨row, (mem_delete.mp member).1, .inl ⟨.refl row, rfl⟩⟩
    | _ => exact ⟨row, member, .inl ⟨.refl row, rfl⟩⟩
  | reaped => exact ⟨row, (mem_delete.mp member).1, .inl ⟨.refl row, rfl⟩⟩
  | @failed statement cause =>
    exact ⟨row, member, .inl ⟨.refl row, decisionOf_error _ statement cause⟩⟩
  | _ => exact ⟨row, member, .inl ⟨.refl row, rfl⟩⟩

/-- A success is about a stored row that waits for its decision. -/
theorem Happens.target (happens : Happens crypto codes effect answer after)
    (success : decisionOf userCode effect answer = some (decision, now)) :
    ∃ row ∈ codes.table.rows, row.userCode = userCode ∧ pending row = true := by
  cases happens with
  | @executed statement =>
    cases statement with
    | updatePending made code moment =>
      obtain ⟨⟨row, present, selected⟩, rfl, -⟩ := countP_of_stamped success
      exact ⟨row, present, names_undecided selected⟩
    | updateUnexpired made code moment =>
      obtain ⟨⟨row, present, selected⟩, rfl, -⟩ := countP_of_stamped success
      obtain ⟨named, waits, -⟩ := names_unexpired selected
      exact ⟨row, present, named, waits⟩
    | _ => cases success
  | @responded call => cases success
  | @failed statement cause =>
    rw [decisionOf_error] at success
    cases success
  | _ => cases success

theorem scanned_eq_ok {found : Option DeviceCodeRow} {copy : DeviceCode}
    (answered : scanned deviceCode found = .ok copy) :
    ∃ row, found = some row ∧ copy = row.scan deviceCode := by
  cases found with
  | none => cases answered
  | some row =>
    cases answered
    exact ⟨row, rfl, rfl⟩

/-- A lookup copies the stored row. -/
theorem Happens.lookup (happens : Happens crypto codes
      (.inl (.inr (.deviceCode (.lookupDeviceCodeByDeviceCode deviceCode)))) (.ok found) after) :
    ∃ row ∈ codes.table.rows, row.deviceCodeHash = crypto.hash deviceCode ∧
      found = row.scan deviceCode := by
  have answered : codes.lookup crypto deviceCode = .ok found := by
    generalize same : (Except.ok found : Except StoreError DeviceCode) = answer at happens
    cases happens with
    | elsewhere other => exact absurd rfl (other _)
    | responded => rfl
    | lookupFailed => cases same
  obtain ⟨row, stored, rfl⟩ := scanned_eq_ok answered
  obtain ⟨member, same⟩ := find_eq_some.mp stored
  exact ⟨row, member, same, rfl⟩

/-- A consumed row was stored and is gone. -/
theorem Happens.consume
    (happens : Happens crypto codes (.inl (.inr (.deviceCode (.consumeDeviceCode deviceCode))))
      (.ok taken) after) :
    (∃ row ∈ codes.table.rows, row.deviceCodeHash = crypto.hash deviceCode ∧
      taken = row.scan deviceCode) ∧
      ∀ row ∈ after.table.rows, row.deviceCodeHash ≠ crypto.hash deviceCode := by
  have answered : (codes.consume crypto deviceCode).1 = .ok taken ∧
      after = (codes.consume crypto deviceCode).2 := by
    generalize same : (Except.ok taken : Except StoreError DeviceCode) = answer at happens
    cases happens with
    | elsewhere other => exact absurd rfl (other _)
    | responded => exact ⟨rfl, rfl⟩
    | consumeFailed => cases same
  obtain ⟨answered, rfl⟩ := answered
  obtain ⟨row, stored, rfl⟩ := scanned_eq_ok answered
  obtain ⟨member, same⟩ := find_eq_some.mp stored
  refine ⟨⟨row, member, same, rfl⟩, fun other kept => ?_⟩
  have unselected := (mem_delete.mp kept).2
  simpa using unselected

/-- The selected expiry is that of the row with the user code. -/
theorem Happens.expiry
    (happens : Happens crypto codes (.inr (.selectExpiresAt userCode)) (.ok (some expiresAt))
      after) : ∃ row ∈ codes.table.rows, row.userCode = userCode ∧ row.expiresAt = expiresAt := by
  have answered : (codes.table.rows.find? fun row => row.userCode = userCode).map
      DeviceCodeRow.expiresAt = some expiresAt := by
    have replied : ∀ answer : Except String (Option Time),
        Happens crypto codes (.inr (.selectExpiresAt userCode)) answer after →
          answer = .ok (some expiresAt) →
            (codes.table.rows.find? fun row => row.userCode = userCode).map
              DeviceCodeRow.expiresAt = some expiresAt := by
      intro answer happens same
      cases happens with
      | executed => exact Except.ok.inj same
      | failed => cases same
    exact replied _ happens rfl
  obtain ⟨row, found, same⟩ := Option.map_eq_some_iff.mp answered
  exact ⟨row, mem_of_find?_eq_some found, by simpa using List.find?_some found, same⟩

/-- A method changes at most the row of its own device code. -/
theorem Happens.find_of_ne {call : calls.Effect} {received : calls.Answer call} {hash : String}
    (happens : Happens crypto codes (.inl call) received after)
    (polls : ∀ deviceCode now, call = .inr (.deviceCode (.pollDeviceCode deviceCode now)) →
      crypto.hash deviceCode ≠ hash)
    (consumes : ∀ deviceCode, call = .inr (.deviceCode (.consumeDeviceCode deviceCode)) →
      crypto.hash deviceCode ≠ hash) :
    after.find hash = codes.find hash := by
  cases happens with
  | @responded call =>
    cases call with
    | lookupDeviceCodeByDeviceCode deviceCode => rfl
    | pollDeviceCode deviceCode now =>
      change (codes.poll crypto deviceCode now).2.find hash = _
      unfold poll
      split
      · rfl
      · dsimp only
        rw [find_update_of_ne (polls deviceCode now rfl)]
    | consumeDeviceCode deviceCode =>
      exact find_delete_of_ne (consumes deviceCode rfl)
  | _ => rfl

end Happens

/-- The row is the stored code, with the codes, the client and the expiry it was saved with. -/
structure Descends (origin row : DeviceCodeRow) : Prop where
  hash : row.deviceCodeHash = origin.deviceCodeHash
  userCode : row.userCode = origin.userCode
  client : row.clientID = origin.clientID
  expires : row.expiresAt = origin.expiresAt

/-- The row shows the decisions that were made on it. -/
inductive Shows (row : DeviceCodeRow) : List (Decision × Time) → Prop
  | waiting (unapproved : row.approvedAt = none) (undenied : row.deniedAt = none) : Shows row []
  | approved {identity : Identity} {moment : Time} (approved : row.approvedAt = some moment)
      (connectorID : row.connectorID = some identity.connectorID)
      (subject : row.subject = some identity.subject) (email : row.email = some identity.email)
      (timely : moment < row.expiresAt) : Shows row [(.approve identity, moment)]
  | denied {moment : Time} (unapproved : row.approvedAt = none)
      (denied : row.deniedAt = some moment) : Shows row [(.deny, moment)]

variable {made : List (Decision × Time)}

theorem Shows.repolled (shows : Shows row made) (repolled : Repolled row after)
    : Shows after made := by
  obtain ⟨last, interval, rfl⟩ := repolled
  cases shows with
  | waiting unapproved undenied => exact .waiting unapproved undenied
  | approved approved connectorID subject email timely =>
    exact .approved approved connectorID subject email timely
  | denied unapproved denied => exact .denied unapproved denied

theorem Shows.stamp (waits : pending row = true) (timely : now < row.expiresAt) :
    Shows (decision.stamp now row) [(decision, now)] := by
  simp only [pending, Bool.and_eq_true, Option.isNone_iff_eq_none] at waits
  cases decision with
  | approve identity => exact .approved rfl rfl rfl rfl timely
  | deny => exact .denied waits.1 rfl

/-- A row that waits for its decision shows that none was made. -/
theorem Shows.eq_nil (shows : Shows row made) (waits : pending row = true) : made = [] := by
  simp only [pending, Bool.and_eq_true, Option.isNone_iff_eq_none] at waits
  cases shows with
  | waiting => rfl
  | approved approved => cases approved.symm.trans waits.1
  | denied _ denied => cases denied.symm.trans waits.2

def lookupEvent (process : Nat) (deviceCode : String) (found : DeviceCode) : Event deviceCalls :=
  ⟨process, .inl (.inr (.deviceCode (.lookupDeviceCodeByDeviceCode deviceCode))), .ok found⟩

def consumeEvent (process : Nat) (deviceCode : String) (taken : DeviceCode) : Event deviceCalls :=
  ⟨process, .inl (.inr (.deviceCode (.consumeDeviceCode deviceCode))), .ok taken⟩

def expiryEvent (process : Nat) (userCode : String) (expiresAt : Time) : Event deviceCalls :=
  ⟨process, .inr (.selectExpiresAt userCode), .ok (some expiresAt)⟩

/-- What was read about the code is still true of it, and whoever took it was alone. -/
structure Safe (crypto : Crypto) (origin : DeviceCodeRow) (current : Flow) : Prop where
  named : ∀ row ∈ current.store.table.rows, row.userCode = origin.userCode →
    row.deviceCodeHash = origin.deviceCodeHash
  stored : ∀ row ∈ current.store.table.rows, row.deviceCodeHash = origin.deviceCodeHash →
    Descends origin row ∧ Shows row (decisions origin.userCode current.log)
  looked : ∀ process deviceCode found, lookupEvent process deviceCode found ∈ current.log →
    crypto.hash deviceCode = origin.deviceCodeHash → found.clientID = origin.clientID ∧
      found.expiresAt = origin.expiresAt ∧ (found.approvedAt.isSome = true →
        ∃ identity moment, decisions origin.userCode current.log = [(.approve identity, moment)] ∧
          moment < origin.expiresAt)
  taken : ∀ process deviceCode taken, consumeEvent process deviceCode taken ∈ current.log →
    crypto.hash deviceCode = origin.deviceCodeHash →
      (∀ row ∈ current.store.table.rows, row.deviceCodeHash ≠ origin.deviceCodeHash) ∧
      taken.clientID = origin.clientID ∧ ∀ identity moment,
        decisions origin.userCode current.log = [(.approve identity, moment)] →
          ⟨taken.connectorID, taken.subject, taken.email⟩ = identity
  once : ∀ first second deviceCode other taken again,
    consumeEvent first deviceCode taken ∈ current.log →
    crypto.hash deviceCode = origin.deviceCodeHash →
    consumeEvent second other again ∈ current.log →
    crypto.hash other = origin.deviceCodeHash → first = second
  expiry : ∀ process expiresAt,
    expiryEvent process origin.userCode expiresAt ∈ current.log → expiresAt = origin.expiresAt

section Run

variable {crypto : Crypto} {origin : DeviceCodeRow} {before after : Flow}
  {event : Event deviceCalls}

theorem decisions_of_none (move : Step (world crypto) before event after)
    (none : decisionOf userCode event.effect event.answer = none) :
    decisions userCode after.log = decisions userCode before.log := by
  rw [move.log_eq]
  exact filterMap_cons_none none

variable {decision : Decision × Time}

theorem decisions_of_some (move : Step (world crypto) before event after)
    (success : decisionOf userCode event.effect event.answer = some decision) :
    decisions userCode after.log = decision :: decisions userCode before.log := by
  rw [move.log_eq]
  exact filterMap_cons_some success

section

variable (safe : Safe crypto origin before) (move : Step (world crypto) before event after)

include safe move

/-- A decision on the code is made only while none was. -/
theorem Safe.unmade
    (success : decisionOf origin.userCode event.effect event.answer = some decision) :
    decisions origin.userCode before.log = [] := by
  obtain ⟨row, member, same, waits⟩ := Happens.target move.happens success
  exact (safe.stored row member (safe.named row member same)).2.eq_nil waits

/-- A made decision stays the only one. -/
theorem Safe.settled (made : decisions origin.userCode before.log = [decision]) :
    decisions origin.userCode after.log = [decision] := by
  cases success : decisionOf origin.userCode event.effect event.answer with
  | none => rw [decisions_of_none move success, made]
  | some another =>
    rw [safe.unmade move success] at made
    cases made

theorem Safe.named_step (member : row ∈ after.store.table.rows)
    (same : row.userCode = origin.userCode) :
    row.deviceCodeHash = origin.deviceCodeHash := by
  obtain ⟨earlier, present, ⟨⟨last, interval, rfl⟩, -⟩ | ⟨decision, now, rfl, -⟩⟩ :=
    Happens.origin move.happens member
  · exact safe.named earlier present same
  · rw [stamp_userCode] at same
    rw [stamp_deviceCodeHash]
    exact safe.named earlier present same

end

/-- The step runs the unchecked update only before the expiry. -/
def Timely (origin : DeviceCodeRow) (event : Event deviceCalls) : Prop :=
  ∀ decision now, event.effect = .inr (.updatePending decision origin.userCode now) →
    now < origin.expiresAt

section

variable (safe : Safe crypto origin before) (move : Step (world crypto) before event after)

include safe move

/-- What a step leaves of the code shows the decisions made so far. -/
theorem Safe.stored_step (timely : Timely origin event) (member : row ∈ after.store.table.rows)
    (same : row.deviceCodeHash = origin.deviceCodeHash) :
    Descends origin row ∧ Shows row (decisions origin.userCode after.log) := by
  obtain ⟨earlier, present, ⟨repolled, none⟩ | ⟨decision, now, rfl, waits, success, checked⟩⟩ :=
    Happens.origin move.happens member
  · have ofCode : earlier.deviceCodeHash = origin.deviceCodeHash := by
      obtain ⟨last, interval, rfl⟩ := repolled
      exact same
    obtain ⟨descends, shows⟩ := safe.stored earlier present ofCode
    rw [descends.userCode] at none
    rw [decisions_of_none move none]
    refine ⟨?_, shows.repolled repolled⟩
    obtain ⟨last, interval, rfl⟩ := repolled
    exact ⟨descends.hash, descends.userCode, descends.client, descends.expires⟩
  · rw [stamp_deviceCodeHash] at same
    obtain ⟨descends, shows⟩ := safe.stored earlier present same
    rw [descends.userCode] at success checked
    rw [decisions_of_some move success, safe.unmade move success]
    constructor
    · cases decision <;>
        exact ⟨descends.hash, descends.userCode, descends.client, descends.expires⟩
    · refine .stamp waits ?_
      rcases checked with early | performed
      · exact early
      · rw [descends.expires]
        exact timely decision now performed

/-- A lookup copies the client, the expiry and the approval. -/
theorem Safe.looked_step (member : lookupEvent process deviceCode found ∈ after.log)
    (same : crypto.hash deviceCode = origin.deviceCodeHash) :
    found.clientID = origin.clientID ∧ found.expiresAt = origin.expiresAt ∧
      (found.approvedAt.isSome = true → ∃ identity moment,
        decisions origin.userCode after.log = [(.approve identity, moment)] ∧
          moment < origin.expiresAt) := by
  rw [move.log_eq] at member
  rcases mem_cons.mp member with rfl | earlier
  · obtain ⟨row, present, ofCode, rfl⟩ := Happens.lookup move.happens
    obtain ⟨descends, shows⟩ := safe.stored row present (ofCode.trans same)
    refine ⟨descends.client, descends.expires, fun approved => ?_⟩
    rw [decisions_of_none move rfl]
    have stamped : row.approvedAt.isSome = true := approved
    generalize decisions origin.userCode before.log = made at shows
    cases shows with
    | waiting unapproved => simp [unapproved] at stamped
    | @approved identity moment _ _ _ _ timely =>
      exact ⟨identity, moment, rfl, descends.expires ▸ timely⟩
    | denied unapproved => simp [unapproved] at stamped
  · obtain ⟨client, expires, approved⟩ := safe.looked process deviceCode found earlier same
    refine ⟨client, expires, fun stamped => ?_⟩
    obtain ⟨identity, moment, made, timely⟩ := approved stamped
    exact ⟨identity, moment, safe.settled move made, timely⟩

/-- A row that is gone stays gone and is not decided any more. -/
theorem Safe.absent_step
    (absent : ∀ row ∈ before.store.table.rows, row.deviceCodeHash ≠ origin.deviceCodeHash) :
    (∀ row ∈ after.store.table.rows, row.deviceCodeHash ≠ origin.deviceCodeHash) ∧
      decisions origin.userCode after.log = decisions origin.userCode before.log := by
  constructor
  · intro row member same
    obtain ⟨earlier, present, ⟨⟨last, interval, rfl⟩, -⟩ | ⟨decision, now, rfl, -⟩⟩ :=
      Happens.origin move.happens member
    · exact absent earlier present same
    · rw [stamp_deviceCodeHash] at same
      exact absent earlier present same
  · cases success : decisionOf origin.userCode event.effect event.answer with
    | none => exact decisions_of_none move success
    | some decision =>
      obtain ⟨row, present, named, -⟩ := Happens.target move.happens success
      exact absurd (safe.named row present named) (absent row present)

/-- The row that was taken had the identity of the approval. -/
theorem Safe.taken_step (member : consumeEvent process deviceCode taken ∈ after.log)
    (same : crypto.hash deviceCode = origin.deviceCodeHash) :
    (∀ row ∈ after.store.table.rows, row.deviceCodeHash ≠ origin.deviceCodeHash) ∧
      taken.clientID = origin.clientID ∧ ∀ identity moment,
        decisions origin.userCode after.log = [(.approve identity, moment)] →
          ⟨taken.connectorID, taken.subject, taken.email⟩ = identity := by
  rw [move.log_eq] at member
  rcases mem_cons.mp member with rfl | earlier
  · obtain ⟨⟨row, present, ofCode, rfl⟩, gone⟩ := consume move.happens
    obtain ⟨descends, shows⟩ := safe.stored row present (ofCode.trans same)
    refine ⟨same ▸ gone, descends.client, fun identity moment made => ?_⟩
    rw [decisions_of_none move rfl] at made
    rw [made] at shows
    cases shows with
    | approved approved connectorID subject email timely =>
      simp [DeviceCodeRow.scan, connectorID, subject, email]
  · obtain ⟨absent, client, identified⟩ := safe.taken process deviceCode taken earlier same
    obtain ⟨gone, unchanged⟩ := safe.absent_step move absent
    refine ⟨gone, client, fun identity moment made => ?_⟩
    exact identified identity moment (unchanged ▸ made)

theorem Safe.once_step {first second : Nat} {again : DeviceCode}
    (inFirst : consumeEvent first deviceCode taken ∈ after.log)
    (ofFirst : crypto.hash deviceCode = origin.deviceCodeHash)
    (inSecond : consumeEvent second other again ∈ after.log)
    (ofSecond : crypto.hash other = origin.deviceCodeHash) : first = second := by
  rw [move.log_eq] at inFirst inSecond
  rcases mem_cons.mp inFirst with rfl | earlier
  · rcases mem_cons.mp inSecond with same | earlier
    · exact (congrArg Event.process same).symm
    · obtain ⟨⟨row, present, ofCode, -⟩, -⟩ := consume move.happens
      exact absurd (ofCode.trans ofFirst) ((safe.taken _ _ _ earlier ofSecond).1 row present)
  · rcases mem_cons.mp inSecond with rfl | also
    · obtain ⟨⟨row, present, ofCode, -⟩, -⟩ := consume move.happens
      exact absurd (ofCode.trans ofSecond) ((safe.taken _ _ _ earlier ofFirst).1 row present)
    · exact safe.once _ _ _ _ _ _ earlier ofFirst also ofSecond

theorem Safe.expiry_step (member : expiryEvent process origin.userCode expiresAt ∈ after.log) :
    expiresAt = origin.expiresAt := by
  rw [move.log_eq] at member
  rcases mem_cons.mp member with rfl | earlier
  · obtain ⟨row, present, named, rfl⟩ := Happens.expiry move.happens
    exact (safe.stored row present (safe.named row present named)).1.expires
  · exact safe.expiry process expiresAt earlier

/-- Every step keeps the code safe. -/
theorem Safe.step (timely : Timely origin event) : Safe crypto origin after where
  named _ member same := safe.named_step move member same
  stored _ member same := safe.stored_step move timely member same
  looked _ _ _ member same := safe.looked_step move member same
  taken _ _ _ member same := safe.taken_step move member same
  once _ _ _ _ _ _ inFirst ofFirst inSecond ofSecond :=
    safe.once_step move inFirst ofFirst inSecond ofSecond
  expiry _ _ member := safe.expiry_step move member

end

/-- A stored code that waits for its decision is safe at the start. -/
theorem Safe.start (config : TokenConfig) (engine : Engine)
    (tasks : Nat → Task) (member : origin ∈ codes.table.rows) (waits : pending origin = true) :
    Safe crypto origin (flow config engine codes tasks) where
  named row present same := by
    rw [eq_of_userCode_eq present member same]
  stored row present same := by
    obtain rfl : row = origin := codes.table.eq_of_key_eq present member same
    simp only [pending, Bool.and_eq_true, Option.isNone_iff_eq_none] at waits
    exact ⟨⟨rfl, rfl, rfl, rfl⟩, .waiting waits.1 waits.2⟩
  looked _ _ _ shown _ := absurd shown not_mem_nil
  taken _ _ _ shown _ := absurd shown not_mem_nil
  once _ _ _ _ _ _ shown _ _ _ := absurd shown not_mem_nil
  expiry _ _ shown := absurd shown not_mem_nil

end Run

/-- These are the exchanges of one process. -/
def traceOf (log : List (Event deviceCalls)) (process : Nat) : Trace :=
  (log.filter fun event => event.process = process).map fun event => ⟨event.effect, event.answer⟩

theorem mem_traceOf {log : List (Event deviceCalls)} {effect : deviceCalls.Effect}
    {answer : deviceCalls.Answer effect} (shown : ⟨effect, answer⟩ ∈ traceOf log process) :
    ⟨process, effect, answer⟩ ∈ log := by
  obtain ⟨event, filtered, same⟩ := mem_map.mp shown
  obtain ⟨member, rfl⟩ : event ∈ log ∧ event.process = process := by
    simpa using filtered
  cases same
  exact member

abbrev Obeys (tasks : Nat → Task) (current : Flow) : Prop :=
  current.Follows (.recorder Permits) Exchange.mk Settles fun process => ⟨tasks process, []⟩

theorem ghost_eq {permits : Task → Trace → Exchange deviceCalls → Prop} (tasks : Nat → Task)
    (log : List (Event deviceCalls)) (process : Nat) :
    (Protocol.recorder permits).ghost Exchange.mk (fun process => ⟨tasks process, []⟩) log process =
      ⟨tasks process, traceOf log process⟩ :=
  Protocol.ghost_recorder permits Exchange.mk tasks log process

section Run

variable {crypto : Crypto} {origin : DeviceCodeRow} {before after : Flow}
  {event : Event deviceCalls} {tasks : Nat → Task}

theorem Safe.timely (safe : Safe crypto origin before)
    (permitted : Permits (tasks event.process) (traceOf before.log event.process)
      ⟨event.effect, event.answer⟩) : Timely origin event := by
  obtain ⟨process, effect, answer⟩ := event
  intro decision now performed
  obtain rfl : effect = _ := performed
  obtain ⟨-, expiresAt, shown, early⟩ := permitted
  rw [← safe.expiry process expiresAt (mem_traceOf shown)]
  exact early

/-- Every run keeps a stored code safe. -/
theorem Safe.run (config : TokenConfig) (engine : Engine)
    (member : origin ∈ codes.table.rows) (waits : pending origin = true)
    (reached : Reaches (world crypto) anyStep (flow config engine codes tasks) after) :
    Safe crypto origin after ∧ Obeys tasks after := by
  have meets : Obeys tasks (flow config engine codes tasks) :=
    fun process => program_meets config engine (tasks process)
  refine reached.follows (Safe crypto origin) (.start config engine tasks member waits) meets ?_
  intro before event after safe _ _ move
  refine ⟨trivial, fun permitted => safe.step move ?_⟩
  rw [ghost_eq] at permitted
  exact safe.timely permitted

/-- An answer with tokens tells how the request redeemed its code. -/
theorem Obeys.redeemed (obeys : Obeys tasks after)
    (answered : after.processes process = .done (.answered request (.ok output))) :
    ∃ found taken moment,
      Redeemed request (traceOf after.log process) output found taken moment := by
  have settles := obeys process
  rw [ghost_eq, answered] at settles
  exact settles request output rfl

/-- A request that presents the code claims it only for the code's client. -/
theorem Safe.client_of_claims (safe : Safe crypto origin before)
    (claims : Claims (.token request) (traceOf before.log process) deviceCode)
    (same : crypto.hash deviceCode = origin.deviceCodeHash) :
    (clientCredentials request).1 = origin.clientID := by
  obtain ⟨_, found, ⟨rfl⟩, looked, client⟩ := claims
  exact client.trans (safe.looked process deviceCode found (mem_traceOf looked) same).1

/-- No step of another client's request changes the row. -/
theorem Safe.unchanged (safe : Safe crypto origin before) (obeys : Obeys tasks before)
    (move : Step (world crypto) before event after) (task : tasks event.process = .token request)
    (stranger : (clientCredentials request).1 ≠ origin.clientID) :
    after.store.find origin.deviceCodeHash = before.store.find origin.deviceCodeHash := by
  have permitted := (Configuration.Follows.step obeys move trivial).1
  rw [ghost_eq, task] at permitted
  have happens := move.happens
  obtain ⟨process, effect, answer⟩ := event
  cases effect with
  | inl call =>
    refine Happens.find_of_ne happens ?_ ?_
    · rintro deviceCode now rfl same
      exact stranger (safe.client_of_claims permitted same)
    · rintro deviceCode rfl same
      exact stranger (safe.client_of_claims permitted same)
  | inr statement => cases permitted.1

end Run

/-- The tokens went to the code's client, for its one approval, before its expiry. -/
structure Delivered (origin : DeviceCodeRow) (log : List (Event deviceCalls)) (process : Nat)
    (request : TokenRequest) (output : TokenOutput) : Prop where
  client : (clientCredentials request).1 = origin.clientID
  approval : ∃ identity moment,
    decisions origin.userCode log = [(.approve identity, moment)] ∧ moment < origin.expiresAt ∧
      Carries recordCall (traceOf log process) identity origin.clientID "" output
  reading : ∃ moment, (readings (traceOf log process)).getLast? = some moment ∧
    moment ≤ origin.expiresAt

theorem Safe.delivered {crypto : Crypto} {origin : DeviceCodeRow} {current : Flow}
    (safe : Safe crypto origin current)
    (redeemed : Redeemed request (traceOf current.log process) output found taken moment)
    (same : crypto.hash (request.form.get "device_code") = origin.deviceCodeHash) :
    Delivered origin current.log process request output := by
  obtain ⟨client, expires, approved⟩ :=
    safe.looked process _ found (mem_traceOf redeemed.looked) same
  obtain ⟨identity, approval, made, timely⟩ := approved redeemed.approved
  obtain ⟨-, owner, identified⟩ := safe.taken process _ taken (mem_traceOf redeemed.consumed) same
  have carries := redeemed.carries
  rw [identified identity approval made, owner] at carries
  exact {
    client := redeemed.client.trans client
    approval := ⟨identity, approval, made, timely, carries⟩
    reading := ⟨moment, redeemed.reads, expires ▸ not_lt.mp redeemed.unexpired⟩ }

/-- In every interleaving, tokens for a stored device code are returned at most once, to its
client, with the identity of its one approval, before its expiry. No step of another client's
request changes the row. -/
theorem device_flow_is_safe (crypto : Crypto) (config : TokenConfig) (engine : Engine)
    (start : DeviceCodes) (tasks : Nat → Task) {origin : DeviceCodeRow}
    (member : origin ∈ start.table.rows) (waits : pending origin = true) {later : Flow}
    (reached : Reaches (world crypto) anyStep (flow config engine start tasks) later) :
    (∀ process request output, later.processes process = .done (.answered request (.ok output)) →
      crypto.hash (request.form.get "device_code") = origin.deviceCodeHash →
        Delivered origin later.log process request output ∧
        ∀ other again tokens, later.processes other = .done (.answered again (.ok tokens)) →
          crypto.hash (again.form.get "device_code") = origin.deviceCodeHash → other = process) ∧
    ∀ event after, Step (world crypto) later event after →
      ∀ request, tasks event.process = .token request →
        (clientCredentials request).1 ≠ origin.clientID →
          after.store.find origin.deviceCodeHash = later.store.find origin.deviceCodeHash := by
  obtain ⟨safe, obeys⟩ := Safe.run config engine member waits reached
  refine ⟨fun process request output answered same => ?_, fun event after move request task =>
    safe.unchanged obeys move task⟩
  obtain ⟨found, taken, moment, redeemed⟩ := obeys.redeemed answered
  refine ⟨safe.delivered redeemed same, fun other again tokens repeated ofCode => ?_⟩
  obtain ⟨_, second, _, retaken⟩ := obeys.redeemed repeated
  exact safe.once _ _ _ _ _ _ (mem_traceOf retaken.consumed) ofCode
    (mem_traceOf redeemed.consumed) same

section Sample

/-- A command line tool without a secret may use the device flow. -/
def sampleConfig : TokenConfig := sampleTokens [("cli", ⟨[], [.deviceCode], ""⟩)] (by decide) true

def sampleCode : DeviceCodeRow where
  deviceCodeHash := plainCrypto.hash "device"
  userCode := "USER"
  clientID := "cli"
  scope := ""
  connectorID := none
  subject := none
  email := none
  approvedAt := none
  deniedAt := none
  lastPolledAt := none
  intervalSeconds := 5
  createdAt := 0
  expiresAt := 10

def sampleCodes : DeviceCodes := ⟨⟨[⟨1, sampleCode⟩], by simp, by simp⟩, by simp [Table.rows]⟩

def sampleRequest : TokenRequest where
  form := [("device_code", "device"), ("client_id", "cli")]
  basic := none

/-- One person approves the code, and the tool asks for its tokens. -/
def sampleTasks : Nat → Task
  | 0 => .approve "USER" ⟨"google", "person", "person@example.com"⟩ 4
  | 1 => .token sampleRequest
  | _ => .deny "USER" 5

/-- The clock stands still. -/
def sampleAnswers (_ : List (Event deviceCalls)) (_ : Nat) :
    (effect : calls.Effect) → calls.Answer effect
  | .inl call => sampleEnvironment 5 "family" call
  | .inr (.refresh (.saveRefresh _)) => .ok ()
  | .inr (.refresh (.consumeRefresh _ _ _)) => .error .refreshNotFound
  | .inr (.refresh (.revokeRefreshFamily _ _)) | .inr (.refresh (.revokeRefreshByEmail _ _))
  | .inr (.refresh (.revokeRefreshBySubject _ _ _)) => .ok 0
  | .inr (.authCode (.saveAuthCode _)) => .ok ()
  | .inr (.authCode (.consumeAuthCode _ _ _)) => .error .authCodeNotFound
  | .inr (.authRequest (.saveAuthRequest _)) => .ok ()
  | .inr (.authRequest (.consumeAuthRequest _)) => .error .authRequestNotFound
  | .inr (.deviceCode (.lookupDeviceCodeByDeviceCode _)) => .error .deviceCodeNotFound
  | .inr (.deviceCode (.pollDeviceCode _ _)) => .error .deviceCodeNotFound
  | .inr (.deviceCode (.consumeDeviceCode _)) => .error .deviceCodeNotFound

def sampleFlow (order : List Nat) : Flow :=
  (flow sampleConfig .sqlite sampleCodes sampleTasks).turns
    (executor plainCrypto sampleAnswers) order

def sampleOutput : TokenOutput where
  cacheControl := "no-store"
  pragma := "no-cache"
  accessToken := "access"
  tokenType := "Bearer"
  expiresIn := 0
  refreshToken := "child"
  idToken := "id"

/-- The tool gets its tokens after the approval. -/
theorem device_flow_is_safe_sample :
    (sampleFlow [0, 0, 1, 1, 1, 1, 1, 1, 1, 1, 1, 1, 1]).processes 1 =
      .done (.answered sampleRequest (.ok sampleOutput)) ∧
    Delivered sampleCode (sampleFlow [0, 0, 1, 1, 1, 1, 1, 1, 1, 1, 1, 1, 1]).log 1 sampleRequest
      sampleOutput := by
  have answered : (sampleFlow [0, 0, 1, 1, 1, 1, 1, 1, 1, 1, 1, 1, 1]).processes 1 =
      .done (.answered sampleRequest (.ok sampleOutput)) := rfl
  have reached := (Configuration.lawful_of_follows (executor_follows plainCrypto sampleAnswers)
    (flow sampleConfig .sqlite sampleCodes sampleTasks)
    [0, 0, 1, 1, 1, 1, 1, 1, 1, 1, 1, 1, 1]).reaches
  have saved : sampleCode ∈ sampleCodes.table.rows := mem_singleton_self _
  have safe := device_flow_is_safe plainCrypto sampleConfig .sqlite sampleCodes sampleTasks saved
    rfl reached
  exact ⟨answered, (safe.1 1 sampleRequest sampleOutput answered rfl).1⟩

end Sample

end Tempogate.Device
