import Glasslab.StateMachine
import Glasslab.Foundation.NumberedLog
import Glasslab.Foundation.Transaction

/-!
# The durable store

`app/storage.py`: the run, action, event and retry tables of `SqliteStore` and the
operations that write them. Each operation is one command inside one transaction
(`Tx.atomically`), so a raise rolls back whatever the command had written before it. The
clock is an argument: `now` is the value of `utc_now()` inside the call.

A run row keeps the whole record in `payload` and mirrors in columns what the queries
need; `Store.setRun` and `Store.addRun` are the two ways a run row is written,
`Store.log` the one way an event is.
-/

namespace Glasslab.Storage

open Foundation

inductive StoreError where
  | recordNotFound (key : String)
  | concurrencyConflict (message : String)
  | invalidTransition (current target : RunState)
  | integrityError (column : String)
  deriving DecidableEq, Repr

/-- A row of `runs`; the key `run_id` is the table's. -/
structure RunRow where
  state : RunState
  version : Int
  payload : RunRecord
  createdAt : Instant
  updatedAt : Instant
  conversation : Bool
  investigationId : Option String
  deriving DecidableEq, Repr

/-- A row of `terminal_run_retries`; the key `parent_run_id` is the table's. -/
structure RetryRow where
  childRunId : String
  retryKey : String
  checkpointDigest : String
  createdAt : Instant
  deriving DecidableEq, Repr

structure Store where
  runs : Table String RunRow
  retries : Table String RetryRow
  actions : Table String ActionRecord
  events : List EventRecord

def Store.empty : Store := ⟨Table.empty, Table.empty, Table.empty, []⟩

abbrev StoreM := Tx Store StoreError

namespace Store

/-- `list_events`: the events of one run in sequence order. -/
def eventsOf (s : Store) (runId : String) : List EventRecord :=
  NumberedLog.entries EventRecord.runId s.events runId

/-- The event `_append_event_conn` builds: numbered `COALESCE(MAX(sequence_number), 0) + 1`. -/
def newEvent (s : Store) (runId source eventType : String) (payload : Payload) : EventRecord where
  sequenceNumber := NumberedLog.next EventRecord.runId EventRecord.sequenceNumber s.events runId
  runId := runId
  source := source
  eventType := eventType
  payload := payload

def log (s : Store) (runId source eventType : String) (payload : Payload) : Store :=
  { s with events := s.events ++ [s.newEvent runId source eventType payload] }

/-- `UPDATE runs SET state, version, payload, updated_at`. -/
def setRun (s : Store) (runId : String) (record : RunRecord) : Store :=
  { s with
    runs := s.runs.update runId fun row =>
      { row with
        state := record.state, version := record.version, payload := record,
        updatedAt := record.updatedAt } }

/-- `INSERT INTO runs`. -/
def addRun (s : Store) (record : RunRecord) : Store :=
  { s with
    runs := s.runs.add record.runId
      { state := record.state, version := record.version, payload := record,
        createdAt := record.createdAt, updatedAt := record.updatedAt,
        conversation := record.conversation, investigationId := record.investigationId } }

/-- The row of `terminal_run_retries` for a parent, inserted or overwritten. -/
def setRetrySlot (s : Store) (parentRunId : String) (slot : RetryRow) : Store :=
  { s with retries := (s.retries.add parentRunId slot).update parentRunId fun _ => slot }

/-- The row of the one-active-run query: not terminal, not a conversation, same
investigation (`IS`, so `NULL` matches `NULL`), `LIMIT 1`. -/
def activeRun (s : Store) (investigationId : Option String) : Option (String × RunRow) :=
  s.runs.rows.find? fun p =>
    p.2.state ∉ terminalStates ∧ p.2.conversation = false ∧ p.2.investigationId = investigationId

def retrySlot (s : Store) (parentRunId : String) : Option (RetryRow × RunRow) :=
  match s.retries.find parentRunId with
  | none => none
  | some slot => (s.runs.find slot.childRunId).map fun child => (slot, child)

end Store

def appendEventConn (runId source eventType : String) (payload : Payload) : StoreM Unit := do
  let s ← Tx.get
  if s.runs.find runId = none then
    -- `events.run_id REFERENCES runs(run_id)`
    Tx.raise (.integrityError "events.run_id")
  else
    Tx.modify fun s => s.log runId source eventType payload

def insertRun (record : RunRecord) : StoreM Unit := do
  let s ← Tx.get
  if s.runs.find record.runId = none then
    Tx.modify fun s => s.addRun record
  else
    Tx.raise (.integrityError "runs.run_id")

/-- `UPDATE runs ... WHERE run_id = ? AND version = ?` with its check that one row changed. -/
def writeRun (runId : String) (expected : Int) (record : RunRecord) : StoreM Unit := do
  let s ← Tx.get
  if (s.runs.find runId).map RunRow.version = some expected then
    Tx.modify fun s => s.setRun runId record
  else
    Tx.raise (.concurrencyConflict ("run was updated concurrently: " ++ runId))

/-- The record a stale paused run is rewritten to when its slot is reclaimed. -/
def RunRow.cancelledStale (row : RunRow) (now : Instant) : RunRecord :=
  { row.payload with state := .cancelled, version := row.version + 1, updatedAt := now }

/-- The one-active-run block that `create_run` and `create_terminal_retry` both carry: an
active run of the same investigation is a conflict, unless it is a paused run that has not
been touched since the cutoff, which is cancelled on the spot. -/
def claimActiveSlot (investigationId : Option String) (oneActiveRun : Bool)
    (stalePausedCutoff : Option Instant) (now : Instant) : StoreM Unit := do
  let s ← Tx.get
  if oneActiveRun = false then
    pure ()
  else
    match s.activeRun investigationId with
    | none => pure ()
    | some (runId, row) =>
      let current := row.payload
      if current.state = .paused ∧
    (∃ cutoff ∈ stalePausedCutoff, current.updatedAt < cutoff) then do
        -- the statement is keyed on the payload's id, not on the selected column
        Tx.modify fun s => s.setRun current.runId (row.cancelledStale now)
        appendEventConn current.runId "orchestrator" "run.stale_paused_cancelled"
          [("reason", .str "abandoned paused run freed the single-active-run slot")]
      else
        Tx.raise (.concurrencyConflict ("active run already exists: " ++ runId))

/-! ## Operations -/

def appendEvent (runId source eventType : String) (payload : Payload) : StoreM Unit :=
  Tx.atomically (appendEventConn runId source eventType payload)

def createRun (record : RunRecord) (oneActiveRun : Bool) (stalePausedCutoff : Option Instant)
    (now : Instant) : StoreM RunRecord :=
  Tx.atomically do
    claimActiveSlot record.investigationId oneActiveRun stalePausedCutoff now
    insertRun record
    appendEventConn record.runId "orchestrator" "run.created"
      [("objective", .str record.objective), ("state", .str record.state.value)]
    pure record

/-- The record the engine's `create_run` hands to the store, with the default limits. -/
def freshRun (runId objective : String) (now : Instant) : RunRecord where
  runId := runId
  objective := objective
  state := .created
  maximumTurns := 20
  maximumRuntimeSeconds := 86400
  maximumParallelJobs := 4
  activeSince := some now
  createdAt := now
  updatedAt := now

/-- Point the parent's retry slot at a new child: an `INSERT` when the parent has no slot, an
`UPDATE` when the new child supersedes an older one. `child_run_id` and `retry_key` are
unique over the table. -/
def pointRetrySlot (existing : Option (RetryRow × RunRow)) (parentRunId : String)
    (slot : RetryRow) : StoreM Unit := do
  let s ← Tx.get
  if ∃ p ∈ s.retries.rows,
      p.1 ≠ parentRunId ∧ (p.2.childRunId = slot.childRunId ∨ p.2.retryKey = slot.retryKey) then
    Tx.raise (.integrityError "terminal_run_retries")
  else if existing = none ∧ s.retries.find parentRunId ≠ none then
    Tx.raise (.integrityError "terminal_run_retries.parent_run_id")
  else
    Tx.modify fun s => s.setRetrySlot parentRunId slot

/-- The part of `create_terminal_retry` after the replay check. -/
def openRetry (existing : Option (RetryRow × RunRow)) (record : RunRecord)
    (parentRunId retryKey checkpointDigest : String) (oneActiveRun : Bool)
    (stalePausedCutoff : Option Instant) (now : Instant) : StoreM (RunRecord × Bool) := do
  let s ← Tx.get
  match s.runs.find parentRunId with
  | none => Tx.raise (.recordNotFound parentRunId)
  | some parent =>
    if parent.state ∉ terminalStates then
      Tx.raise (.concurrencyConflict "terminal retry source is not terminal")
    else
      claimActiveSlot record.investigationId oneActiveRun stalePausedCutoff now
      insertRun record
      pointRetrySlot existing parentRunId
        { childRunId := record.runId, retryKey := retryKey, checkpointDigest := checkpointDigest,
          createdAt := record.createdAt }
      match existing with
      | none => pure ()
      | some (slot, _) =>
        appendEventConn slot.childRunId "orchestrator" "run.retry_superseded"
          [("parent_run_id", .str parentRunId), ("child_run_id", .str slot.childRunId),
            ("superseded_by", .str record.runId)]
      let payload : Payload :=
        [("parent_run_id", .str parentRunId), ("child_run_id", .str record.runId),
          ("checkpoint_digest", .str checkpointDigest)]
      appendEventConn parentRunId "orchestrator" "run.retry_created" payload
      appendEventConn record.runId "orchestrator" "run.created"
        [("objective", .str record.objective), ("state", .str record.state.value),
          ("parent_run_id", .str parentRunId)]
      appendEventConn record.runId "orchestrator" "run.retry_created" payload
      pure (record, true)

def createTerminalRetry (record : RunRecord) (parentRunId retryKey checkpointDigest : String)
    (oneActiveRun : Bool) (stalePausedCutoff : Option Instant) (now : Instant) :
    StoreM (RunRecord × Bool) :=
  Tx.atomically do
    let s ← Tx.get
    match s.retrySlot parentRunId with
    | none =>
      openRetry none record parentRunId retryKey checkpointDigest oneActiveRun stalePausedCutoff now
    | some (slot, child) =>
      if child.state ∉ terminalStates ∨ slot.retryKey = retryKey then
        pure (child.payload, false)
      else
        openRetry (some (slot, child)) record parentRunId retryKey checkpointDigest oneActiveRun
          stalePausedCutoff now

/-- `replace_run`: the optimistic write of a record read at `expectedVersion`. -/
def replaceRun (record : RunRecord) (expectedVersion : Int) (now : Instant) : StoreM RunRecord :=
  let updated := { record with version := expectedVersion + 1, updatedAt := now }
  Tx.atomically do
    writeRun updated.runId expectedVersion updated
    pure updated

def resetMethodologyRevisionBudget (runId reason : String) (now : Instant) : StoreM RunRecord :=
  Tx.atomically do
    let s ← Tx.get
    match s.runs.find runId with
    | none => Tx.raise (.recordNotFound runId)
    | some row =>
      let updated :=
        { row.payload with methodologyRevisionCount := 0, version := row.version + 1, updatedAt :=
          now }
      writeRun runId row.version updated
      appendEventConn runId "orchestrator" "methodology.revision_budget_reset"
        [("previous_revision_count", .int row.payload.methodologyRevisionCount),
          ("revision_count", .int 0), ("reason", .str reason)]
      pure updated

/-- The `updates` argument of `transition_run`. No caller renames a run. -/
structure RunUpdates where
  apply : RunRecord → RunRecord
  runId_apply : ∀ r, (apply r).runId = r.runId

def RunUpdates.none : RunUpdates := ⟨id, fun _ => rfl⟩

/-- The `runtime_updates` of `transition_run`: entering a human-wait state closes the open
interval into the base, leaving one for work opens a new interval. -/
def runtimeUpdates (current : RunRecord) (target : RunState) (now : Instant) (r : RunRecord) :
    RunRecord :=
  if target ∈ humanWaitStates ∧ current.state ∉ humanWaitStates then
    { r with
      activeRuntimeSeconds := current.activeRuntimeSeconds + current.openInterval now,
      activeSince := .none }
  else if current.state ∈ humanWaitStates ∧ target ∉ humanWaitStates ∧ target ∉ terminalStates ∧
      target ≠ .paused then
    { r with activeSince := some now }
  else
    r

/-- The record `transition_run` writes. -/
def transitioned (row : RunRow) (target : RunState) (updates : RunUpdates) (now : Instant) :
    RunRecord :=
  { runtimeUpdates row.payload target now (updates.apply row.payload) with
    state := target, version := row.version + 1, updatedAt := now }

/-- The payload of the `run.state_changed` event; the caller's entries are merged last. -/
def stateChangedPayload (current target : RunState) (payload : Payload) : Payload :=
  Dict.merge [("from", .str current.value), ("to", .str target.value)] payload

def transitionRun (runId : String) (target : RunState) (source : String) (payload : Payload)
    (updates : RunUpdates) (now : Instant) : StoreM RunRecord :=
  Tx.atomically do
    let s ← Tx.get
    match s.runs.find runId with
    | none => Tx.raise (.recordNotFound runId)
    | some row =>
      if validTransition row.payload.state target then
        writeRun runId row.version (transitioned row target updates now)
        appendEventConn runId source "run.state_changed"
          (stateChangedPayload row.payload.state target payload)
        pure (transitioned row target updates now)
      else
        Tx.raise (.invalidTransition row.payload.state target)

/-- `save_action_with_event`: an idempotency key that is already stored wins. -/
def saveActionWithEvent (record : ActionRecord) (source : String) (payload : Payload) :
    StoreM (ActionRecord × Bool) :=
  Tx.atomically do
    let s ← Tx.get
    match s.actions.rows.find? fun p => p.2.idempotencyKey == record.idempotencyKey with
    | some (_, stored) => pure (stored, false)
    | none =>
      if s.actions.find record.actionId ≠ none then
        Tx.raise (.integrityError "actions.action_id")
      else if s.runs.find record.runId = none then
        Tx.raise (.integrityError "actions.run_id")
      else
        Tx.modify fun s => { s with actions := s.actions.add record.actionId record }
        appendEventConn record.runId source "action.proposed" payload
        pure (record, true)

def getRun (s : Store) (runId : String) : Except StoreError RunRecord :=
  match s.runs.find runId with
  | none => .error (.recordNotFound runId)
  | some row => .ok row.payload

/-- One call of an operation that writes runs, retries or events, with its arguments. -/
inductive StoreOp where
  | createRun (record : RunRecord) (oneActiveRun : Bool) (stalePausedCutoff : Option Instant)
      (now : Instant)
  | createTerminalRetry (record : RunRecord) (parentRunId retryKey checkpointDigest : String)
      (oneActiveRun : Bool) (stalePausedCutoff : Option Instant) (now : Instant)
  | transitionRun (runId : String) (target : RunState) (source : String) (payload : Payload)
      (updates : RunUpdates) (now : Instant)
  | resetMethodologyRevisionBudget (runId reason : String) (now : Instant)
  | appendEvent (runId source eventType : String) (payload : Payload)
  | saveActionWithEvent (record : ActionRecord) (source : String) (payload : Payload)
  | replaceRun (record : RunRecord) (expectedVersion : Int) (now : Instant)

/-- Run one call: `ok` or the exception it raised, and the store it leaves. -/
def StoreOp.call : StoreOp → StoreM Unit
  | createRun record one cutoff now => do let _ ← Storage.createRun record one cutoff now
  | createTerminalRetry record parent key digest one cutoff now => do
    let _ ← Storage.createTerminalRetry record parent key digest one cutoff now
  | transitionRun runId target source payload updates now => do
    let _ ← Storage.transitionRun runId target source payload updates now
  | resetMethodologyRevisionBudget runId reason now => do
    let _ ← Storage.resetMethodologyRevisionBudget runId reason now
  | appendEvent runId source eventType payload =>
    Storage.appendEvent runId source eventType payload
  | saveActionWithEvent record source payload => do
    let _ ← Storage.saveActionWithEvent record source payload
  | replaceRun record expected now => do let _ ← Storage.replaceRun record expected now

def stepStore (s : Store) (op : StoreOp) : Store := (op.call s).2

end Glasslab.Storage
