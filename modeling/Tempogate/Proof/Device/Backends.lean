/-
This file shows that both backends answer the device methods as the stored device codes do.
-/

import Tempogate.Construction.Device.Codes
import Tempogate.Proof.Store.Coherent

namespace Tempogate

open Foundation Oidc State Postgres Device.DeviceCodes Device Program

namespace Sqlite

/-- The two backends pace the polls of a device code alike. -/
theorem wellPaced_eq_not_tooFast (row : DeviceCodeRow) (now : Time) :
    wellPaced row now = !tooFast row now := by
  unfold wellPaced tooFast
  cases row.lastPolledAt with
  | none => rfl
  | some last =>
    rw [← decide_not, decide_eq_decide]
    exact not_lt.symm

theorem polled_eq (now : Time) (row : DeviceCodeRow) :
    DeviceCodeStatement.polled now row = polled now 0 row := by
  unfold polled
  rw [Int.add_zero]
  rfl

/-- A swap that compares with the time of the stored row changes that row. -/
theorem swapLastPolled_stored {table : Table DeviceCodeRow.deviceCodeHash} {row : DeviceCodeRow}
    (member : row ∈ table.rows) (now : Time) :
    (DeviceCodeStatement.swapLastPolled row.deviceCodeHash row.lastPolledAt now).execute table =
      ((1 : Nat), table.update (fun stored => stored.deviceCodeHash = row.deviceCodeHash)
        (polled now 0) (polled_deviceCodeHash now 0)) := by
  have agree : ∀ stored ∈ table.rows,
      DeviceCodeStatement.swappable row.deviceCodeHash row.lastPolledAt stored =
        decide (stored.deviceCodeHash = row.deviceCodeHash) := by
    intro stored present
    by_cases same : stored.deviceCodeHash = row.deviceCodeHash
    · rw [table.eq_of_key_eq present member same]
      simp [DeviceCodeStatement.swappable]
    · simp [DeviceCodeStatement.swappable, same]
  have counted : table.rows.countP
      (DeviceCodeStatement.swappable row.deviceCodeHash row.lastPolledAt) = 1 := by
    rw [List.countP_congr fun stored present => by rw [agree stored present]]
    exact table.countP_key member
  refine Prod.ext counted (Table.ext ?_)
  refine List.map_congr_left fun entry present => ?_
  rw [agree entry.row (List.mem_map_of_mem present), polled_eq]

/-- This store holds the given device codes. -/
def Store.holding (store : Store) (codes : DeviceCodes) : Store :=
  { store with deviceCodes := codes.table }

section Alone

variable {crypto : Crypto} {store : Store} {codes : DeviceCodes}

variable (deviceCode : String)

theorem evaluate_select (hash : String) :
    (query (.deviceCode (.selectDeviceCode hash))).evaluate respond (store.holding codes) =
      (.ok (codes.find hash), store.holding codes) := rfl

theorem evaluate_lookupDeviceCode :
    (lookupDeviceCodeByDeviceCode crypto deviceCode).evaluate respond (store.holding codes) =
      (codes.lookup crypto deviceCode, store.holding codes) := by
  refine (evaluate_then (evaluate_select _)).trans ?_
  unfold lookup
  cases codes.find (crypto.hash deviceCode) <;> rfl

theorem evaluate_consumeDeviceCode :
    (consumeDeviceCode crypto deviceCode).evaluate respond (store.holding codes) =
      ((codes.consume crypto deviceCode).1, store.holding (codes.consume crypto deviceCode).2) := by
  have deleted : (query (.deviceCode (.deleteDeviceCode (crypto.hash deviceCode)))).evaluate
      respond (store.holding codes) = (.ok (codes.find (crypto.hash deviceCode)),
        store.holding (codes.consume crypto deviceCode).2) := rfl
  refine (evaluate_then deleted).trans ?_
  unfold consume
  cases codes.find (crypto.hash deviceCode) <;> rfl

/-- Nothing comes between the statements of a poll, so its swap succeeds. -/
theorem evaluate_pollDeviceCode (now : Time) :
    (pollDeviceCode crypto deviceCode now).evaluate respond (store.holding codes) =
      ((codes.poll crypto deviceCode now).1,
        store.holding (codes.poll crypto deviceCode now).2) := by
  refine (evaluate_then (evaluate_select _)).trans ?_
  unfold poll
  cases found : codes.find (crypto.hash deviceCode) with
  | none => rfl
  | some row =>
    obtain ⟨member, same⟩ := Table.find_eq_some_iff.mp found
    dsimp only
    rw [wellPaced_eq_not_tooFast]
    cases fast : tooFast row now with
    | true => rfl
    | false =>
      have stored := swapLastPolled_stored member now
      rw [same] at stored
      have swapped : (query (.deviceCode (.swapLastPolled (crypto.hash deviceCode)
          row.lastPolledAt now))).evaluate respond (store.holding codes) = (.ok (1 : Nat),
            store.holding (codes.update (fun stored => stored.deviceCodeHash =
              crypto.hash deviceCode) (polled now 0)
              (polled_deviceCodeHash now 0) (polled_userCode now 0))) :=
        congrArg (fun reply : Nat × Table DeviceCodeRow.deviceCodeHash =>
          (Except.ok reply.1, { store with deviceCodes := reply.2 })) stored
      exact evaluate_then swapped

end Alone

end Sqlite

namespace Postgres

def Database.holding (database : Database) (codes : DeviceCodes) : Database :=
  { database with deviceCodes := codes.table }

section Alone

variable {crypto : Crypto} {database : Database} {codes : DeviceCodes}

variable (deviceCode : String)

theorem lookup_holding : (lookupDeviceCodeByDeviceCode crypto deviceCode).evaluate alone
        (database.holding codes, database.holding codes) =
      (codes.lookup crypto deviceCode, (database.holding codes, database.holding codes)) :=
  evaluate_lookupDeviceCode deviceCode

/-- A consume on Postgres does to the codes what SQLite does. -/
theorem consume_holding : (consumeDeviceCode crypto deviceCode).evaluate alone
        (database.holding codes, database.holding codes) =
      ((codes.consume crypto deviceCode).1, (database.holding (codes.consume crypto deviceCode).2,
          database.holding (codes.consume crypto deviceCode).2)) := by
  refine (evaluate_consumeDeviceCode deviceCode).trans ?_
  rw [show (database.holding codes).deviceCode _ = codes.find _ from rfl]
  unfold consume
  cases found : codes.find (crypto.hash deviceCode) with
  | none =>
    have missed : codes.table.delete (fun row => row.deviceCodeHash = crypto.hash deviceCode) =
        codes.table :=
      Table.delete_eq_self fun row member => by simpa using List.find?_eq_none.mp found row member
    have kept : database.holding (codes.delete fun row =>
        row.deviceCodeHash = crypto.hash deviceCode) = database.holding codes :=
      congrArg (fun table => { database with deviceCodes := table }) missed
    rw [kept]
    rfl
  | some row => rfl

theorem poll_holding (now : Time) : (pollDeviceCode crypto deviceCode now).evaluate alone
        (database.holding codes, database.holding codes) =
      ((codes.poll crypto deviceCode now).1, (database.holding (codes.poll crypto deviceCode now).2,
          database.holding (codes.poll crypto deviceCode now).2)) := by
  refine (evaluate_pollDeviceCode deviceCode now).trans ?_
  rw [show (database.holding codes).deviceCode _ = codes.find _ from rfl]
  unfold poll
  cases codes.find (crypto.hash deviceCode) <;> rfl

end Alone

end Postgres

namespace Engine

def holding : {engine : Engine} → engine.State → DeviceCodes → engine.State
  | .sqlite, store, codes => Sqlite.Store.holding store codes
  | .postgres _, database, codes => Postgres.Database.holding database codes

/-- Run alone, either backend answers a device method as the device codes it holds do. -/
theorem respond_deviceCode (crypto : Crypto) (engine : Engine) (state : engine.State)
    (codes : DeviceCodes) (call : DeviceCodeCall) :
    engine.respond crypto (.deviceCode call) (holding state codes) =
      ((Device.DeviceCodes.respond crypto call codes).1,
        holding state (Device.DeviceCodes.respond crypto call codes).2) := by
  cases engine with
  | sqlite =>
    cases call with
    | lookupDeviceCodeByDeviceCode deviceCode => exact Sqlite.evaluate_lookupDeviceCode deviceCode
    | pollDeviceCode deviceCode now => exact Sqlite.evaluate_pollDeviceCode deviceCode now
    | consumeDeviceCode deviceCode => exact Sqlite.evaluate_consumeDeviceCode deviceCode
  | postgres rounds =>
    cases call with
    | lookupDeviceCodeByDeviceCode deviceCode =>
      exact respond_postgres (lookup_holding deviceCode)
    | pollDeviceCode deviceCode now =>
      exact respond_postgres (poll_holding deviceCode now)
    | consumeDeviceCode deviceCode =>
      exact respond_postgres (consume_holding deviceCode)

end Engine

end Tempogate
