/-
This file shows when a SQLite sweep deletes only rows that have expired.
-/

import Tempogate.Construction.Sqlite.Sweep
import Tempogate.Proof.Sweep.Loops

namespace Tempogate.Sqlite

open Foundation Oidc State ShelfStatement Shelf Configuration Exchange List

section Conditions

variable (tasks : Nat → ShelfTask)

/-- A page that was just read names the rowids that the sweep deletes next. -/
def condemns (now : Time) : (statement : ShelfStatement) → Except String statement.Reply →
    Option (ExpiringTable × List Nat)
  | .sweep (.selectPage table _ _), .ok page =>
    some (table, doomed (fun expiresAt => now > expiresAt) page)
  | _, _ => none

/-- The rowids that a process has read as expired and not yet deleted. -/
def condemned (now : Time) (process : Nat) :
    List (Event shelfStatements) → Option (ExpiringTable × List Nat)
  | [] => none
  | event :: log =>
    if event.process = process then condemns now event.effect event.answer
    else condemned now process log

/-- A client gives no rowid that a sweep is about to delete to a row that has not expired. -/
def Spares (before : ShelfRun) : Event shelfStatements → Prop
  | ⟨_, .client statement, _⟩ => ∀ table row, statement.inserts = some ⟨table, row⟩ →
      ∀ process reaper now rowids, tasks process = .sweep reaper now →
        condemned now process before.log = some (table, rowids) →
          (before.store.table table).nextRowid ∈ rowids → table.expiresAt row < now
  | _ => True

end Conditions

/-- A sweep keeps its time and the rowids it has read as expired. A client has no time. -/
structure Plan where
  now : Option Time
  doomed : Option (ExpiringTable × List Nat)

/-- A sweep deletes exactly the rowids of the page that it read last. The other statements that it
shares with clients are about refresh tokens. -/
def sweeping : Protocol (Exchange shelfStatements) Plan where
  assumes _ _ := True
  permits plan
    | ⟨.client statement, _⟩ => plan.now = none ∨ ∃ refresh, statement = .store (.refresh refresh)
    | ⟨.sweep (.deleteRowids table rowids), _⟩ => plan.doomed = some (table, rowids)
    | _ => True
  advance plan exchange :=
    { plan with doomed := plan.now.bind fun now => condemns now exchange.effect exchange.answer }

/-- The program deletes only what it has planned, and its time stays the same. -/
abbrev Plans {Result : Type} (now : Option Time) (program : Program shelfStatements Result)
    (plan : Plan) : Prop :=
  program.Meets sweeping mk (fun after _ => after.now = now) plan

section Plans

variable {now : Time} {plan : Plan} {Result Middle : Type}

theorem Plans.bind {now : Option Time} {program : Program shelfStatements Middle}
    {continuation : Middle → Program shelfStatements Result} (first : Plans now program plan)
    (rest : ∀ after result, after.now = now → Plans now (continuation result) after) :
    Plans now (program >>= continuation) plan :=
  Program.Meets.bind first rest

/-- A client may run every statement of a client. -/
theorem serveClient_plans (program : Program clientStatements Result) (client : plan.now = none) :
    Plans none (serveClient program) plan := by
  induction program generalizing plan with
  | done result => exact client
  | perform statement next ih =>
    exact fun answer _ => ⟨.inl client, ih answer client⟩

variable (reaper : Reaper)

theorem reapExpired_plans (table : ExpiringTable) (same : plan.now = some now) :
    Plans (some now) (reaper.reapExpired now table) plan := by
  refine walk_meets (fun plan : Plan => plan.now = some now)
    (fun rowids plan => plan.doomed = some (table, rowids)) ?_ ?_ _ _ _ same
  · rintro cursor limit ⟨_, doomed⟩ rfl answer -
    refine ⟨trivial, rfl, fun page read => ?_⟩
    subst read
    rfl
  · intro rowids plan kept planned answer _
    exact ⟨planned, kept⟩

theorem reapDenylist_plans (same : plan.now = some now) :
    Plans (some now) (reaper.reapDenylist now) plan := by
  refine walk_meets (fun plan : Plan => plan.now = some now) (fun _ _ => True) ?_ ?_ _ _ _ same
  · exact fun _ _ _ kept _ _ => ⟨trivial, kept, fun _ _ => trivial⟩
  · exact fun _ _ kept _ _ _ => ⟨trivial, kept⟩

theorem reapTables_plans (tables : List ExpiringTable) (report : Report)
    (same : plan.now = some now) :
    Plans (some now) (reapTables "sqlite" (reaper.reapExpired now) tables report) plan := by
  induction tables generalizing report plan with
  | nil => exact same
  | cons table rest ih =>
    exact (reapExpired_plans reaper table same).bind fun _ _ still => ih _ still

/-- The program runs only statements on the refresh tokens. -/
def OnlyRefresh : Program statements Result → Prop
  | .done _ => True
  | .perform statement next => (∃ refresh, statement = Statement.refresh refresh) ∧
      ∀ answer, OnlyRefresh (next answer)

theorem readPages_onlyRefresh (pages cursor : Nat) (seen : Seen)
    {continuation : Except String Seen → Program statements Result}
    (rest : ∀ result, OnlyRefresh (continuation result)) :
    OnlyRefresh (reaper.readPages now pages cursor seen >>= continuation) := by
  induction pages generalizing cursor seen with
  | zero => exact rest _
  | succ pages ih =>
    refine ⟨⟨_, rfl⟩, fun answer => ?_⟩
    cases answer with
    | error cause => exact rest _
    | ok entries =>
      change OnlyRefresh (Program.bind (if _ then _ else _) continuation)
      split
      · exact rest _
      · exact ih _ _

theorem deleteChunks_onlyRefresh (chunks : List (List String)) (deleted : Nat) :
    OnlyRefresh (Reaper.deleteChunks chunks deleted) := by
  induction chunks generalizing deleted with
  | nil => trivial
  | cons chunk rest ih =>
    refine ⟨⟨_, rfl⟩, fun answer => ?_⟩
    cases answer with
    | error cause => trivial
    | ok count => exact ih _

theorem reapRefreshFamilies_onlyRefresh : OnlyRefresh (reaper.reapRefreshFamilies now) := by
  refine readPages_onlyRefresh reaper _ _ _ fun result => ?_
  cases result with
  | error cause => trivial
  | ok seen => exact deleteChunks_onlyRefresh _ _

theorem OnlyRefresh.plans {program : Program statements Result} (only : OnlyRefresh program)
    (same : plan.now = some now) :
    Plans (some now) (program.interpret fun statement =>
      @Program.call shelfStatements (.client (.store statement))) plan := by
  induction program generalizing plan with
  | done result => exact same
  | perform statement next ih =>
    obtain ⟨⟨refresh, named⟩, rest⟩ := only
    exact fun answer _ => ⟨.inr ⟨refresh, congrArg _ named⟩, ih answer (rest answer) same⟩

theorem reap_plans (same : plan.now = some now) : Plans (some now) (reaper.reap now) plan := by
  refine (reapTables_plans reaper expiringTables .empty same).bind fun _ _ still => ?_
  refine ((reapRefreshFamilies_onlyRefresh reaper).plans still).bind fun _ _ held => ?_
  exact (reapDenylist_plans reaper held).bind fun _ _ final => final

end Plans

def ShelfTask.now : ShelfTask → Option Time
  | .sweep _ now => some now
  | .client _ => none

theorem run_plans (task : ShelfTask) : Plans task.now task.run ⟨task.now, none⟩ := by
  cases task with
  | sweep reaper now =>
    have plans : Plans (some now) (reaper.reap now) ⟨some now, none⟩ := reap_plans reaper rfl
    exact plans.bind fun _ _ final => final
  | client program => exact serveClient_plans program rfl

variable {table : ExpiringTable}

section Grows

variable {shelf after : Shelf} {statement : ShelfStatement}

/-- Each entry of the later table has the rowid and the expiry of an earlier one. -/
def Kept {table : ExpiringTable} (before later : Table table.key) : Prop :=
  ∀ entry ∈ later.entries, ∃ old ∈ before.entries, old.rowid = entry.rowid ∧
    table.expiresAt old.row = table.expiresAt entry.row

theorem kept_refl (rows : Table table.key) : Kept rows rows :=
  fun entry present => ⟨entry, present, rfl, rfl⟩

theorem kept_of_subset {before later : Table table.key} (subset : later.entries ⊆ before.entries) :
    Kept before later :=
  fun entry present => ⟨entry, subset present, rfl, rfl⟩

theorem kept_update (table : ExpiringTable) (rows : Table table.key) (selects : table.Row → Bool)
    (change : table.Row → table.Row) (keeps : ∀ row, table.key (change row) = table.key row)
    (lasts : ∀ row, table.expiresAt (change row) = table.expiresAt row) :
    Kept rows (rows.update selects change keeps) := by
  intro entry present
  obtain ⟨old, member, rfl⟩ := mem_map.mp present
  refine ⟨old, member, ?_⟩
  split
  · exact ⟨rfl, (lasts old.row).symm⟩
  · exact ⟨rfl, rfl⟩

/-- An entry after a statement was there before, or the statement has just inserted it. -/
def Grows (statement : ShelfStatement) (shelf after : Shelf) : Prop :=
  ∀ table, ∀ entry ∈ (after.table table).entries,
    (∃ old ∈ (shelf.table table).entries, old.rowid = entry.rowid ∧
      table.expiresAt old.row = table.expiresAt entry.row) ∨
    ∃ client, statement = .client client ∧ client.inserts = some ⟨table, entry.row⟩ ∧
      entry.rowid = (shelf.table table).nextRowid

theorem grows_of_kept (kept : ∀ table, Kept (shelf.table table) (after.table table)) :
    Grows statement shelf after :=
  fun table entry present => .inl (kept table entry present)

theorem grows_replace (table : ExpiringTable) {rows : Table table.key}
    (kept : Kept (shelf.table table) rows) : Grows statement shelf (shelf.replace table rows) := by
  refine grows_of_kept fun other => ?_
  by_cases same : other = table
  · subst same
    rwa [table_replace]
  · rw [table_replace_of_ne shelf rows same]
    exact kept_refl _

theorem grows_insert (table : ExpiringTable) {row : table.Row} {rows : Table table.key}
    {client : ClientStatement} (inserts : client.inserts = some ⟨table, row⟩)
    (inserted : (shelf.table table).insert row = some rows) :
    Grows (.client client) shelf (shelf.replace table rows) := by
  intro other entry present
  by_cases same : other = table
  · subst same
    rw [table_replace] at present
    unfold Table.insert at inserted
    split at inserted
    · cases inserted
      rcases mem_append.mp present with old | new
      · exact .inl ⟨entry, old, rfl, rfl⟩
      · rw [mem_singleton.mp new]
        exact .inr ⟨client, rfl, inserts, rfl⟩
    · cases inserted
  · rw [table_replace_of_ne shelf rows same] at present
    exact .inl ⟨entry, present, rfl, rfl⟩

theorem grows_refl : Grows statement shelf shelf :=
  grows_of_kept fun _ => kept_refl _

theorem grows_authCode (statement : AuthCodeStatement) :
    Grows (.client (.store (.authCode statement))) shelf
      ((ShelfStatement.client (.store (.authCode statement))).execute shelf).2 := by
  cases statement with
  | insertAuthCode row =>
    change Grows _ shelf { shelf with store := { shelf.store with
      authCodes := ((AuthCodeStatement.insertAuthCode row).execute shelf.store.authCodes).2 } }
    cases inserted : shelf.store.authCodes.insert row.inserted with
    | none =>
      simp only [AuthCodeStatement.execute, inserted]
      exact grows_refl
    | some rows =>
      simp only [AuthCodeStatement.execute, inserted]
      exact grows_insert .authCodes rfl inserted
  | updateConsumed codeHash familyID moment =>
    exact grows_replace .authCodes (kept_update .authCodes _ _
      (AuthCodeRow.consume familyID moment) (fun _ => rfl) fun _ => rfl)
  | selectConsumed codeHash => exact grows_refl

theorem grows_authRequest (statement : AuthRequestStatement) :
    Grows (.client (.store (.authRequest statement))) shelf
      ((ShelfStatement.client (.store (.authRequest statement))).execute shelf).2 := by
  cases statement with
  | insertAuthRequest row =>
    change Grows _ shelf { shelf with store := { shelf.store with
      authRequests :=
        ((AuthRequestStatement.insertAuthRequest row).execute shelf.store.authRequests).2 } }
    cases inserted : shelf.store.authRequests.insert row with
    | none =>
      simp only [AuthRequestStatement.execute, inserted]
      exact grows_refl
    | some rows =>
      simp only [AuthRequestStatement.execute, inserted]
      exact grows_insert .authRequests rfl inserted
  | deleteAuthRequest internalState =>
    exact grows_replace .authRequests (kept_of_subset (filter_subset_self _))

theorem grows_deviceCode (statement : DeviceCodeStatement) :
    Grows (.client (.store (.deviceCode statement))) shelf
      ((ShelfStatement.client (.store (.deviceCode statement))).execute shelf).2 := by
  cases statement with
  | selectDeviceCode deviceCodeHash => exact grows_refl
  | swapLastPolled deviceCodeHash previous now =>
    exact grows_replace .deviceCodes (kept_update .deviceCodes _ _
      (DeviceCodeStatement.polled now) (fun _ => rfl) fun _ => rfl)
  | slowDown deviceCodeHash now =>
    exact grows_replace .deviceCodes (kept_update .deviceCodes _ _
      (DeviceCodeStatement.slowed now) (fun _ => rfl) fun _ => rfl)
  | deleteDeviceCode deviceCodeHash =>
    exact grows_replace .deviceCodes (kept_of_subset (filter_subset_self _))

/-- A client adds only the row that it inserts. -/
theorem grows_client (statement : ClientStatement) :
    Grows (.client statement) shelf ((ShelfStatement.client statement).execute shelf).2 := by
  cases statement with
  | store statement =>
    cases statement with
    | refresh statement => exact grows_of_kept fun table => by cases table <;> exact kept_refl _
    | authCode statement => exact grows_authCode statement
    | authRequest statement => exact grows_authRequest statement
    | deviceCode statement => exact grows_deviceCode statement
  | insertDeviceCode row =>
    by_cases taken : row.userCode ∈ shelf.store.deviceCodes.rows.map DeviceCodeRow.userCode
    · simp only [execute, ClientStatement.execute, if_pos taken]
      exact grows_refl
    · cases inserted : shelf.store.deviceCodes.insert row with
      | none =>
        simp only [execute, ClientStatement.execute, if_neg taken, inserted]
        exact grows_refl
      | some rows =>
        simp only [execute, ClientStatement.execute, if_neg taken, inserted]
        exact grows_insert .deviceCodes rfl inserted
  | decideDeviceCode decision userCode now =>
    refine grows_replace .deviceCodes (kept_update .deviceCodes _ _ (decision.stamp now)
      (decision.stamp_deviceCodeHash now) fun row => ?_)
    cases decision <;> rfl
  | insertBrowserSession row =>
    cases inserted : shelf.browserSessions.insert row with
    | none =>
      simp only [execute, ClientStatement.execute, inserted]
      exact grows_refl
    | some rows =>
      simp only [execute, ClientStatement.execute, inserted]
      exact grows_insert .browserSessions rfl inserted
  | selectBrowserSession sidHash => exact grows_refl
  | deleteBrowserSession sidHash =>
    exact grows_replace .browserSessions (kept_of_subset (filter_subset_self _))

theorem grows_execute (statement : ShelfStatement) :
    Grows statement shelf (statement.execute shelf).2 := by
  cases statement with
  | client statement => exact grows_client statement
  | sweep statement =>
    cases statement with
    | deleteRowids table rowids =>
      exact grows_replace table (kept_of_subset (filter_subset_self _))
    | deleteDenylist rowids =>
      exact grows_of_kept fun table => by cases table <;> exact kept_refl _
    | _ => exact grows_refl

end Grows

/-- What a process has read as expired is still expired, whatever now has these rowids. -/
def Spared (tasks : Nat → ShelfTask) (run : ShelfRun) : Prop :=
  ∀ process reaper now table rowids, tasks process = .sweep reaper now →
    condemned now process run.log = some (table, rowids) →
      ∀ entry ∈ (run.store.table table).entries, entry.rowid ∈ rowids →
        table.expiresAt entry.row < now

section Spared

variable {tasks : Nat → ShelfTask} {shelf : Shelf} {before after : ShelfRun}
  {event : Event shelfStatements}

/-- The plan of a sweep is what its last read condemned. -/
theorem plan_of_sweep {process : Nat} {reaper : Reaper} {now : Time}
    (sweeps : tasks process = .sweep reaper now) (log : List (Event shelfStatements)) :
    sweeping.ghost mk (fun process => ⟨(tasks process).now, none⟩) log process =
      ⟨some now, condemned now process log⟩ := by
  induction log with
  | nil => exact congrArg (fun task : ShelfTask => (⟨task.now, none⟩ : Plan)) sweeps
  | cons event log ih =>
    by_cases same : event.process = process
    · refine (if_pos same).trans
        ((congrArg (sweeping.advance · ⟨event.effect, event.answer⟩) ih).trans ?_)
      rw [condemned, if_pos same]
      rfl
    · refine (if_neg same).trans (ih.trans ?_)
      rw [condemned, if_neg same]

/-- The rowids of a page that are judged expired belong to expired rows. -/
theorem expired_of_page {cursor limit : Nat} {now : Time} {entry : Entry table.Row}
    (present : entry ∈ (shelf.table table).entries)
    (listed : entry.rowid ∈ doomed (fun expiresAt => now > expiresAt)
      (((shelf.table table).page cursor limit).map fun entry =>
        (entry.rowid, table.expiresAt entry.row))) :
    table.expiresAt entry.row < now := by
  obtain ⟨row, member, same⟩ := mem_map.mp listed
  obtain ⟨read, expired⟩ := mem_filter.mp member
  obtain ⟨found, inPage, rfl⟩ := mem_map.mp read
  have stored : found ∈ (shelf.table table).entries :=
    mem_of_mem_filter (mem_of_mem_take inPage)
  rw [← (shelf.table table).eq_of_rowid_eq stored present same]
  simpa using expired

/-- A step that spares live rows keeps what was read as expired. -/
theorem Spared.step (spared : Spared tasks before) (spares : Spares tasks before event)
    (step : Step shelfWorld before event after) : Spared tasks after := by
  intro process reaper now table rowids isSweep reads entry present listed
  have happens := step.happens
  rw [step.log_eq, condemned] at reads
  obtain ⟨actor, statement, answer⟩ := event
  generalize after.store = later at happens present
  change Shelf.Happens before.store statement answer later at happens
  cases happens with
  | failed cause =>
    split at reads
    · cases statement with
      | client statement => cases reads
      | sweep statement => cases statement <;> cases reads
    · exact spared process reaper now table rowids isSweep reads entry present listed
  | executed =>
    split at reads
    next mine =>
      cases statement with
      | client statement => cases reads
      | sweep statement =>
        cases statement with
        | selectPage source cursor limit =>
          cases reads
          exact expired_of_page present listed
        | _ => cases reads
    next other =>
      rcases grows_execute statement table entry present with
        ⟨old, stored, same, lasts⟩ | ⟨client, rfl, inserts, fresh⟩
      · rw [← lasts]
        exact spared process reaper now table rowids isSweep reads old stored (same ▸ listed)
      · exact spares table entry.row inserts process reaper now rowids isSweep reads
          (fresh ▸ listed)

/-- A permitted step of a sweep removes only what it has condemned. -/
theorem expired_of_deleted {statement : ShelfStatement} {answer : Except String statement.Reply}
    {now : Time} {doomed : Option (ExpiringTable × List Nat)} {later : Shelf}
    {entry : Entry table.Row} (permitted : sweeping.permits ⟨some now, doomed⟩ ⟨statement, answer⟩)
    (spared : ∀ rowids, doomed = some (table, rowids) → entry.rowid ∈ rowids →
      table.expiresAt entry.row < now) (happens : shelf.Happens statement answer later)
    (present : entry ∈ (shelf.table table).entries)
    (deleted : entry ∉ (later.table table).entries) : table.expiresAt entry.row < now := by
  cases happens with
  | failed cause => exact absurd present deleted
  | executed =>
    cases statement with
    | client statement =>
      obtain impossible | ⟨refresh, rfl⟩ := permitted
      · cases impossible
      · refine absurd ?_ deleted
        cases table <;> exact present
    | sweep statement =>
      cases statement with
      | deleteDenylist rowids =>
        refine absurd ?_ deleted
        cases table <;> exact present
      | deleteRowids source rowids =>
        change entry ∉ ((shelf.replace source _).table table).entries at deleted
        by_cases same : table = source
        · subst same
          refine spared rowids permitted (by_contra fun missed => deleted ?_)
          rw [table_replace]
          exact mem_filter.mpr ⟨present, decide_eq_true missed⟩
        · rw [table_replace_of_ne shelf _ same] at deleted
          exact absurd present deleted
      | _ => exact absurd present deleted

/-- A sweep deletes only rows that have expired while no client gives a rowid that the sweep is
about to delete to a row that has not. -/
theorem sweep_deletes_only_expired (tasks : Nat → ShelfTask) (shelf : Shelf)
    (reached : Reaches shelfWorld (Spares tasks) (shelfRun tasks shelf) before)
    (step : Step shelfWorld before event after) {reaper : Reaper} {now : Time}
    (sweeps : tasks event.process = .sweep reaper now) {table : ExpiringTable}
    {row : table.Row} (stored : row ∈ (before.store.table table).rows)
    (deleted : row ∉ (after.store.table table).rows) : table.expiresAt row < now := by
  have start : (shelfRun tasks shelf).Follows sweeping mk
      (fun _ _ => True) fun process => ⟨(tasks process).now, none⟩ :=
    fun process => (run_plans (tasks process)).mono fun _ _ _ => trivial
  obtain ⟨spared, follows⟩ := reached.follows (Spared tasks)
    (fun process reaper now table rowids _ reads => by cases reads) start
    fun _ _ _ spared _ spares step => ⟨trivial, fun _ => spared.step spares step⟩
  obtain ⟨permitted, -⟩ := follows.step step trivial
  rw [plan_of_sweep sweeps] at permitted
  obtain ⟨entry, present, rfl⟩ := mem_map.mp stored
  refine expired_of_deleted permitted (fun rowids reads listed => ?_) step.happens present
    fun kept => deleted (mem_map_of_mem kept)
  exact spared event.process reaper now table rowids sweeps reads entry present listed

end Spared

/-- The sweep has one expired authorization request to delete. -/
def request (internalState : String) (expiresAt : Time) : AuthRequest where
  internalState := internalState
  connectorID := "google"
  clientID := "cli"
  redirectURI := "http://127.0.0.1/callback"
  scope := "openid"
  clientState := "state"
  codeChallenge := "challenge"
  codeChallengeMethod := "S256"
  nonce := "nonce"
  createdAt := 0
  expiresAt := expiresAt

def staleShelf : Shelf where
  store := { Store.empty with
    authRequests := Table.empty.append (request "abandoned" 10) not_mem_nil }
  browserSessions := .empty
  registry := .empty

def smallReaper : Reaper where
  refreshMaxLifetime := 0
  batch := 1
  positive := Nat.one_pos
  pages := 2
  range := id
  range_perm := .refl

/-- A store method runs as a client of the shelf. -/
def clientOf {Result : Type} (program : Program statements Result) : ShelfTask :=
  .client ((program.interpret fun statement =>
    @Program.call clientStatements (.store statement)).bind fun _ => .done ())

/-- Process 0 sweeps, process 1 comes back with the abandoned request, and process 2 signs in. -/
def shelfTasks (process : Nat) : ShelfTask :=
  if process = 0 then .sweep smallReaper 20
  else if process = 1 then clientOf (consumeAuthRequest "abandoned")
  else clientOf (saveAuthRequest (request "pending" 100))

def shelfExecutor : Executor shelfStatements Shelf := fun _ shelf _ statement =>
  shelfRespond statement shelf

theorem shelfExecutor_follows (log : List (Event shelfStatements)) (shelf : Shelf) (process : Nat)
    (statement : ShelfStatement) :
    shelfWorld log shelf ⟨process, statement, (shelfExecutor log shelf process statement).1⟩
      (shelfExecutor log shelf process statement).2 :=
  Shelf.Happens.executed

/-- The abandoned request is consumed and a new one takes its rowid after the page was read. -/
def reused : ShelfRun := (shelfRun shelfTasks staleShelf).turns shelfExecutor [0, 1, 2]

/-- The sweep deletes the new request, which has not expired. -/
theorem sweep_deletes_pending_request :
    Reaches shelfWorld anyStep (shelfRun shelfTasks staleShelf) reused ∧
      (∃ event, event.process = 0 ∧ Step shelfWorld reused event (reused.turn shelfExecutor 0)) ∧
      shelfTasks 0 = .sweep smallReaper 20 ∧
      request "pending" 100 ∈ reused.store.store.authRequests.rows ∧
      request "pending" 100 ∉ (reused.turn shelfExecutor 0).store.store.authRequests.rows ∧
      ¬ (request "pending" 100).expiresAt < 20 := by
  refine ⟨(lawful_of_follows shelfExecutor_follows _ _).reaches, ⟨_, rfl,
    turn_step rfl Shelf.Happens.executed⟩, rfl, ?_, ?_, ?_⟩
  · decide
  · decide
  · decide

/-- The sign-in comes before the page is read, so its request has a rowid of its own. -/
def distinct : ShelfRun := (shelfRun shelfTasks staleShelf).turns shelfExecutor [2, 0]

theorem sweep_deletes_abandoned_request :
    request "abandoned" 10 ∉ (distinct.turn shelfExecutor 0).store.store.authRequests.rows ∧
      (request "abandoned" 10).expiresAt < 20 := by
  have lawful : (shelfRun shelfTasks staleShelf).Lawful shelfWorld (Spares shelfTasks)
      shelfExecutor [2, 0] :=
    ⟨⟨fun _ _ _ _ _ _ _ _ reads => (nomatch reads), .executed⟩, ⟨trivial, .executed⟩, trivial⟩
  have stored : request "abandoned" 10 ∈ distinct.store.store.authRequests.rows := by decide
  have deleted : request "abandoned" 10 ∉
      (distinct.turn shelfExecutor 0).store.store.authRequests.rows := by decide
  refine ⟨deleted, ?_⟩
  exact @sweep_deletes_only_expired distinct _ _ shelfTasks staleShelf lawful.reaches
    (turn_step rfl (shelfExecutor_follows _ _ 0 _)) _ _ rfl .authRequests _ stored
    deleted

end Tempogate.Sqlite
