import Glasslab.Foundation.Machine
import Glasslab.Storage.Spec

/-!
# The event log as the history of the store

`foldState` reads the state of a run off its events. `Authoritative` says that log and rows
agree: numbers without gaps, the fold is the state column, every `run.state_changed` event
starts from the state reached so far, and the mirrored columns equal the payload.

`transition_run` merges the caller's payload over `from` and `to`, and `append_event` takes
any event type, so the agreement holds along the histories whose calls `Restates` admits:
no caller entry contradicts the transition, no appended event claims another state. The
invariant `LogInv` carries an optional pending run, the one that is inserted but not yet
announced in the middle of a transaction.
-/

namespace Glasslab.Storage

open Foundation Foundation.Tx Foundation.Machine List Option

def applyEvent (state : Option RunState) (e : EventRecord) : Option RunState :=
  if e.eventType = "run.created" then
    (e.payload.getStr "state").bind RunState.ofValue
  else if e.eventType = "run.state_changed" then
    (e.payload.getStr "to").bind RunState.ofValue
  else if e.eventType = "run.stale_paused_cancelled" then
    some .cancelled
  else
    state

def foldState (events : List EventRecord) : Option RunState := events.foldl applyEvent none

def Chained (events : List EventRecord) : Prop :=
  ∀ pre e post, events = pre ++ e :: post → e.eventType = "run.state_changed" →
    e.payload.getStr "from" = (foldState pre).map RunState.value

/-- Log and rows agree. -/
structure Authoritative (s : Store) : Prop where
  numbered : ∀ runId, (s.eventsOf runId).map EventRecord.sequenceNumber =
    List.range' 1 (s.eventsOf runId).length
  folds : ∀ runId row, s.runs.find runId = some row →
    foldState (s.eventsOf runId) = some row.state
  chained : ∀ runId, Chained (s.eventsOf runId)
  mirrored : ∀ runId row, s.runs.find runId = some row →
    row.state = row.payload.state ∧ row.version = row.payload.version

/-- A `replace_run` call writes back the state it read. -/
def StatePreserving (s : Store) : StoreOp → Prop
  | .replaceRun record _ _ =>
    ∀ row, s.runs.find record.runId = some row → record.state = row.state
  | _ => True

/-- The caller's payload does not contradict the transition, and an appended event that
speaks of the run's state restates it. -/
def Restates (s : Store) : StoreOp → Prop
  | .transitionRun runId target _ payload _ _ =>
    ∀ row, s.runs.find runId = some row → validTransition row.payload.state target = true →
      (∀ v, ("from", v) ∈ payload → v = .str row.payload.state.value) ∧
        ∀ v, ("to", v) ∈ payload → v = .str target.value
  | .appendEvent runId source eventType payload =>
    ∀ row, s.runs.find runId = some row →
      applyEvent (some row.state) (s.newEvent runId source eventType payload) = some row.state ∧
        (eventType = "run.state_changed" → payload.getStr "from" = some row.state.value)
  | _ => True

theorem foldState_concat (events : List EventRecord) (e : EventRecord) :
    foldState (events ++ [e]) = applyEvent (foldState events) e := by
  simp [foldState]

theorem chained_nil : Chained [] := by
  intro pre e post h
  simp at h

theorem Chained.concat {events : List EventRecord} {e : EventRecord} (h : Chained events)
    (he : e.eventType = "run.state_changed" →
      e.payload.getStr "from" = (foldState events).map RunState.value) :
    Chained (events ++ [e]) := by
  intro pre e' post hSplit hType
  rcases eq_nil_or_concat post with rfl | ⟨post', last, rfl⟩
  · obtain ⟨rfl, hLast⟩ := append_inj' hSplit rfl
    cases hLast
    exact he hType
  · have hShift : events ++ [e] = (pre ++ e' :: post') ++ [last] := by simpa using hSplit
    obtain ⟨hInit, _⟩ := append_inj' hShift rfl
    exact h pre e' post' hInit hType

def SilentType (eventType : String) : Prop :=
  eventType ≠ "run.created" ∧ eventType ≠ "run.state_changed" ∧
    eventType ≠ "run.stale_paused_cancelled"

theorem applyEvent_of_silent {e : EventRecord} (h : SilentType e.eventType)
    (state : Option RunState) : applyEvent state e = state := by
  unfold applyEvent
  rw [if_neg h.1, if_neg h.2.1, if_neg h.2.2]

/-- The payload of a state change keeps `from` and `to` when the caller restates them. -/
theorem getStr_stateChangedPayload {current target : RunState} {payload : Payload}
    (hFrom : ∀ v, ("from", v) ∈ payload → v = .str current.value)
    (hTo : ∀ v, ("to", v) ∈ payload → v = .str target.value) :
    (stateChangedPayload current target payload).getStr "from" = some current.value ∧
      (stateChangedPayload current target payload).getStr "to" = some target.value := by
  have hLookupFrom := Dict.lookup_merge_of_forall (k := "from")
    (d := [("from", Value.str current.value), ("to", .str target.value)]) rfl hFrom
  have hLookupTo := Dict.lookup_merge_of_forall (k := "to")
    (d := [("from", Value.str current.value), ("to", .str target.value)]) rfl hTo
  simp [Payload.getStr, stateChangedPayload, hLookupFrom, hLookupTo]

/-! ## The invariant -/

/-- Log and rows agree, the pending run apart, which has no events yet. -/
structure LogInv (pending : Option String) (s : Store) : Prop where
  rows : RowsInv s
  numbered : NumberedLog.Numbered EventRecord.runId EventRecord.sequenceNumber s.events
  owned : ∀ k, s.runs.find k = none → s.eventsOf k = []
  chained : ∀ k, Chained (s.eventsOf k)
  folds : ∀ k row, s.runs.find k = some row → pending ≠ some k →
    foldState (s.eventsOf k) = some row.state
  silent : ∀ k, pending = some k → s.eventsOf k = []

theorem LogInv.empty : LogInv none Store.empty where
  rows := RowsInv.empty
  numbered := fun _ => rfl
  owned := fun _ _ => rfl
  chained := fun _ => chained_nil
  folds := by intro k row h; cases h
  silent := by intro k h; cases h

theorem LogInv.authoritative {s : Store} (h : LogInv none s) : Authoritative s where
  numbered := h.numbered
  folds := fun k row hRow => h.folds k row hRow (by simp)
  chained := h.chained
  mirrored := h.rows.mirrored

variable {record : RunRecord} {row : RunRow} {runId : String}

namespace LogInv

variable {s : Store} {pending : Option String} {source eventType : String} {payload : Payload}

section

variable (h : LogInv pending s)
include h

theorem setRun (hRow : s.runs.find runId = some row)
    (hId : record.runId = runId) (hState : record.state = row.state) :
    LogInv pending (s.setRun runId record) where
  rows := h.rows.setRun hId
  numbered := h.numbered
  owned := by
    intro k hNone
    rw [← isNone_iff_eq_none, ← not_isSome, Store.find_setRun_isSome] at hNone
    exact h.owned k (by simpa using hNone)
  chained := h.chained
  folds := by
    intro k row' hRow' hPending
    by_cases hk : k = runId
    · subst hk
      rw [Store.find_setRun_self, hRow] at hRow'
      cases hRow'
      rw [Store.eventsOf_setRun, h.folds k row hRow hPending]
      exact congrArg some hState.symm
    · rw [Store.find_setRun_ne hk] at hRow'
      exact h.folds k row' hRow' hPending
  silent := h.silent

/-- What a new event of an existing run leaves true of the log, whatever its type. -/
theorem log_numbered :
    NumberedLog.Numbered EventRecord.runId EventRecord.sequenceNumber
      (s.log runId source eventType payload).events :=
  h.numbered.append rfl

theorem log_owned (hRow : s.runs.find runId = some row) (k : String)
    (hNone : s.runs.find k = none) : (s.log runId source eventType payload).eventsOf k = [] := by
  have hk : k ≠ runId := by
    rintro rfl
    rw [hRow] at hNone
    cases hNone
  rw [Store.eventsOf_log_ne hk]
  exact h.owned k hNone

theorem log_chained
    (hChain : eventType = "run.state_changed" →
      payload.getStr "from" = (foldState (s.eventsOf runId)).map RunState.value) (k : String) :
    Chained ((s.log runId source eventType payload).eventsOf k) := by
  by_cases hk : k = runId
  · subst hk
    rw [Store.eventsOf_log_self]
    exact (h.chained k).concat hChain
  · rw [Store.eventsOf_log_ne hk]
    exact h.chained k

section

variable (hRow : s.runs.find runId = some row)
include hRow

theorem setRun_log
    (hPending : pending ≠ some runId) (hId : record.runId = runId)
    (hApply : applyEvent (some row.state)
      (s.newEvent runId source eventType payload) = some record.state)
    (hChain : eventType = "run.state_changed" → payload.getStr "from" = some row.state.value) :
    LogInv pending ((s.setRun runId record).log runId source eventType payload) where
  rows := (h.rows.setRun hId).of_runs_eq rfl
  numbered := h.log_numbered
  owned := by
    intro k hNone
    rw [Store.log_runs, ← isNone_iff_eq_none, ← not_isSome,
      Store.find_setRun_isSome] at hNone
    exact h.log_owned hRow k (by simpa using hNone)
  chained := by
    apply h.log_chained
    intro hType
    rw [h.folds runId row hRow hPending]
    exact hChain hType
  folds := by
    intro k row' hRow' hNot
    rw [Store.log_runs] at hRow'
    by_cases hk : k = runId
    · subst hk
      rw [Store.find_setRun_self, hRow] at hRow'
      cases hRow'
      rw [Store.eventsOf_log_self, foldState_concat, Store.eventsOf_setRun,
        h.folds k row hRow hNot]
      exact hApply
    · rw [Store.find_setRun_ne hk] at hRow'
      rw [Store.eventsOf_log_ne hk]
      exact h.folds k row' hRow' hNot
  silent := by
    intro k hk
    have hne : k ≠ runId := by
      rintro rfl
      exact hPending hk
    rw [Store.eventsOf_log_ne hne]
    exact h.silent k hk

theorem log
    (hPending : pending ≠ some runId)
    (hApply : applyEvent (some row.state)
      (s.newEvent runId source eventType payload) = some row.state)
    (hChain : eventType = "run.state_changed" → payload.getStr "from" = some row.state.value) :
    LogInv pending (s.log runId source eventType payload) where
  rows := h.rows.of_runs_eq rfl
  numbered := h.log_numbered
  owned := h.log_owned hRow
  chained := by
    apply h.log_chained
    intro hType
    rw [h.folds runId row hRow hPending]
    exact hChain hType
  folds := by
    intro k row' hRow' hNot
    by_cases hk : k = runId
    · subst hk
      rw [Store.log_runs, hRow] at hRow'
      cases hRow'
      rw [Store.eventsOf_log_self, foldState_concat, h.folds k row hRow hNot]
      exact hApply
    · rw [Store.eventsOf_log_ne hk]
      exact h.folds k row' hRow' hNot
  silent := by
    intro k hk
    have hne : k ≠ runId := by
      rintro rfl
      exact hPending hk
    rw [Store.eventsOf_log_ne hne]
    exact h.silent k hk

theorem log_silent
    (hPending : pending ≠ some runId) (hType : SilentType eventType) :
    LogInv pending (s.log runId source eventType payload) :=
  h.log hRow hPending (applyEvent_of_silent hType _) fun hEq => (hType.2.1 hEq).elim

end

end

/-- An inserted run is pending until it is announced. -/
theorem addRun (h : LogInv none s) (hFree : s.runs.find record.runId = none) :
    LogInv (some record.runId) (s.addRun record) where
  rows := h.rows.addRun hFree
  numbered := h.numbered
  owned := by
    intro k hNone
    by_cases hk : k = record.runId
    · subst hk
      exact h.owned _ hFree
    · rw [Store.find_addRun_ne hFree hk] at hNone
      exact h.owned k hNone
  chained := h.chained
  folds := by
    intro k row' hRow' hNot
    have hk : k ≠ record.runId := fun hEq => hNot (by rw [hEq])
    rw [Store.find_addRun_ne hFree hk] at hRow'
    exact h.folds k row' hRow' (by simp)
  silent := by
    intro k hk
    cases hk
    exact h.owned _ hFree

theorem announce_log (h : LogInv (some runId) s) (hRow : s.runs.find runId = some row)
    (hPayload : payload.getStr "state" = some row.state.value) :
    LogInv none (s.log runId source "run.created" payload) where
  rows := h.rows.of_runs_eq rfl
  numbered := h.log_numbered
  owned := h.log_owned hRow
  chained := by
    apply h.log_chained
    intro hType
    simp at hType
  folds := by
    intro k row' hRow' _
    by_cases hk : k = runId
    · subst hk
      rw [Store.log_runs, hRow] at hRow'
      cases hRow'
      rw [Store.eventsOf_log_self, foldState_concat, h.silent k rfl]
      simp [applyEvent, Store.newEvent, hPayload]
    · rw [Store.eventsOf_log_ne hk]
      exact h.folds k row' hRow' (by simpa using fun hEq => hk hEq.symm)
  silent := by
    intro k hk
    cases hk

theorem setRetrySlot {slot : RetryRow} (h : LogInv pending s) :
    LogInv pending (s.setRetrySlot runId slot) :=
  ⟨h.rows.of_runs_eq rfl, h.numbered, h.owned, h.chained, h.folds, h.silent⟩

/-- Cancelling the stale run that holds the slot. -/
theorem claim (h : LogInv none s) {investigationId : Option String} {one : Bool}
    {cutoff : Option Instant} {now : Instant} {s₁ : Store}
    (hClaim : Returns (claimActiveSlot investigationId one cutoff now) s () s₁) :
    LogInv none s₁ := by
  rcases claimActiveSlot_returns hClaim with ⟨rfl, _⟩ | ⟨k, active, _, hActive, _, _, rfl⟩
  · exact h
  · obtain ⟨hRow, _⟩ := Store.activeRun_eq_some hActive
    have hKey := h.rows.keyed k active hRow
    unfold Store.reclaim
    rw [hKey]
    refine h.setRun_log hRow (by simp) hKey ?_ (by simp)
    simp [applyEvent, Store.newEvent, RunRow.cancelledStale]

/-- The transaction of a new retry child, from its insert to its last event. -/
theorem addRetry (h : LogInv none s) {existing : Option (RetryRow × RunRow)}
    {parentRunId retryKey checkpointDigest : String} {parent : RunRow}
    (hFree : s.runs.find record.runId = none) (hParent : s.runs.find parentRunId = some parent)
    (hExisting : ∀ slot child, existing = some (slot, child) →
      ∃ row, s.runs.find slot.childRunId = some row) :
    LogInv none (s.addRetry existing record parentRunId retryKey checkpointDigest) := by
  have hPending : ∀ k row, s.runs.find k = some row → some record.runId ≠ some k := by
    intro k row hRow hEq
    cases hEq
    rw [hFree] at hRow
    cases hRow
  have hKeeps : ∀ k row, s.runs.find k = some row →
      (s.addRun record).runs.find k = some row := by
    intro k row hRow
    have hne : k ≠ record.runId := fun hEq => hPending k row hRow (by rw [hEq])
    rw [Store.find_addRun_ne hFree hne]
    exact hRow
  have hNew := Store.find_addRun_self hFree
  have hAdded : LogInv (some record.runId) ((s.addRun record).setRetrySlot parentRunId
      ⟨record.runId, retryKey, checkpointDigest, record.createdAt⟩) :=
    (h.addRun hFree).setRetrySlot
  have hSuperseded : LogInv (some record.runId) (((s.addRun record).setRetrySlot parentRunId
      ⟨record.runId, retryKey, checkpointDigest, record.createdAt⟩).supersede existing
      parentRunId record.runId) := by
    cases existing with
    | none => exact hAdded
    | some p =>
      obtain ⟨row, hRow⟩ := hExisting p.1 p.2 rfl
      exact hAdded.log_silent (hKeeps _ _ hRow) (hPending _ _ hRow) (by simp [SilentType])
  have hRuns : (((s.addRun record).setRetrySlot parentRunId
      ⟨record.runId, retryKey, checkpointDigest, record.createdAt⟩).supersede existing
      parentRunId record.runId).runs = (s.addRun record).runs := by
    cases existing <;> rfl
  have hLogged : LogInv (some record.runId) (Store.log _ parentRunId "orchestrator"
      "run.retry_created" (Store.retryPayload parentRunId record.runId checkpointDigest)) :=
    hSuperseded.log_silent ((congrArg (·.find parentRunId) hRuns).trans (hKeeps _ _ hParent))
      (hPending _ _ hParent) (by simp [SilentType])
  have hInserted := (congrArg (·.find record.runId) hRuns).trans hNew
  have hAnnounced : LogInv none (Store.log _ record.runId "orchestrator" "run.created"
      [("objective", .str record.objective), ("state", .str record.state.value),
        ("parent_run_id", .str parentRunId)]) := hLogged.announce_log hInserted rfl
  exact hAnnounced.log_silent hInserted (by simp) (by simp [SilentType])

/-- Every admitted call keeps log and rows in agreement. -/
theorem step (h : LogInv none s) {op : StoreOp} (hState : StatePreserving s op)
    (hRestates : Restates s op) : LogInv none (stepStore s op) := by
  refine stepStore_invariant h fun s' hEffect => ?_
  cases hEffect with
  | createRun hClaim hFree =>
    refine ((h.claim hClaim).addRun hFree).announce_log (Store.find_addRun_self hFree) rfl
  | replayRetry => exact h
  | openRetry hSlot hParent hTerminal hClaim hFree _ =>
    obtain ⟨parent', hParent'⟩ := claim_keeps hClaim hParent
    refine (h.claim hClaim).addRetry hFree hParent' fun slot child hExisting => ?_
    obtain ⟨_, hChild⟩ := Store.retrySlot_eq_some hExisting
    exact claim_keeps hClaim hChild
  | @transitionRun runId target source payload updates now row hRow hValid =>
    obtain ⟨hFrom, hTo⟩ := hRestates row hRow hValid
    obtain ⟨hStateEq, _⟩ := h.rows.mirrored runId row hRow
    obtain ⟨hGetFrom, hGetTo⟩ := getStr_stateChangedPayload hFrom hTo
    refine h.setRun_log hRow (by simp) ?_ ?_ ?_
    · exact (transitioned_runId row target updates now).trans (h.rows.keyed runId row hRow)
    · simp [applyEvent, Store.newEvent, hGetTo, transitioned]
    · intro _
      rw [hGetFrom, hStateEq]
  | @resetMethodologyRevisionBudget runId reason now row hRow =>
    have hKey := h.rows.keyed runId row hRow
    obtain ⟨hStateEq, _⟩ := h.rows.mirrored runId row hRow
    refine h.setRun_log hRow (by simp) hKey ?_ (by simp)
    rw [applyEvent_of_silent (by simp [SilentType, Store.newEvent]), hStateEq]
    rfl
  | appendEvent hRow => exact h.log hRow (by simp) (hRestates _ hRow).1 (hRestates _ hRow).2
  | resolveAction => exact h
  | saveAction hRow =>
    have hActions : ∀ actions, LogInv none { s with actions := actions } := fun actions =>
      ⟨h.rows.of_runs_eq rfl, h.numbered, h.owned, h.chained, h.folds, h.silent⟩
    exact (hActions _).log_silent hRow (by simp) (by simp [SilentType])
  | replaceRun hRow hVersion => exact h.setRun hRow rfl (hState _ hRow)

end LogInv

/-! ## Versions -/

/-- The run whose stale pause a call with `one_active_run` ends. -/
def reclaimedRun (s : Store) (investigationId : Option String) (oneActiveRun : Bool) :
    Option String :=
  if oneActiveRun then (s.activeRun investigationId).map Prod.fst else none

/-- The existing run that a call writes when it returns. -/
def StoreOp.writtenRun (s : Store) : StoreOp → Option String
  | .createRun record one _ _ => reclaimedRun s record.investigationId one
  | .createTerminalRetry record parentRunId key _ one _ _ =>
    match s.retrySlot parentRunId with
    | none => reclaimedRun s record.investigationId one
    | some (slot, child) =>
      if child.state ∉ terminalStates ∨ slot.retryKey = key then none
      else reclaimedRun s record.investigationId one
  | .transitionRun runId _ _ _ _ _ => some runId
  | .resetMethodologyRevisionBudget runId _ _ => some runId
  | .appendEvent _ _ _ _ => none
  | .saveActionWithEvent _ _ _ => none
  | .replaceRun record _ _ => some record.runId

/-- Every run that exists is still there, one version later when the call wrote it and
untouched when it did not. -/
def VersionsStep (s : Store) (written : Option String) (s' : Store) : Prop :=
  ∀ runId row, s.runs.find runId = some row →
    ∃ row', s'.runs.find runId = some row' ∧
      (written = some runId → row'.version = row.version + 1) ∧
      (written ≠ some runId → row' = row)

namespace VersionsStep

variable {s s₁ s' : Store} {written : Option String}

theorem refl (s : Store) : VersionsStep s none s :=
  fun _ row hRow => ⟨row, hRow, by simp, fun _ => rfl⟩

theorem trans_none (h : VersionsStep s written s₁) (h' : VersionsStep s₁ none s') :
    VersionsStep s written s' := by
  intro k row hRow
  obtain ⟨row₁, hRow₁, hWritten, hKept⟩ := h k row hRow
  obtain ⟨row', hRow', _, hSame⟩ := h' k row₁ hRow₁
  have hEq : row' = row₁ := hSame (by simp)
  exact ⟨row', hRow', fun hw => hEq ▸ hWritten hw, fun hw => hEq.trans (hKept hw)⟩

theorem setRun (hRow : s.runs.find runId = some row) (hVersion : record.version = row.version + 1) :
    VersionsStep s (some runId) (s.setRun runId record) := by
  intro k old hOld
  by_cases hk : k = runId
  · subst hk
    rw [hRow] at hOld
    cases hOld
    refine ⟨Store.rewritten record row, ?_, fun _ => hVersion, by simp⟩
    rw [Store.find_setRun_self, hRow, map_some]
  · refine ⟨old, ?_, fun hw => (hk (Option.some.inj hw).symm).elim, fun _ => rfl⟩
    rw [Store.find_setRun_ne hk]
    exact hOld

theorem addRun (hFree : s.runs.find record.runId = none) :
    VersionsStep s none (s.addRun record) := by
  intro k old hOld
  have hk : k ≠ record.runId := by
    rintro rfl
    rw [hFree] at hOld
    cases hOld
  refine ⟨old, ?_, by simp, fun _ => rfl⟩
  rw [Store.find_addRun_ne hFree hk]
  exact hOld

/-- Operations that leave the run table alone. -/
theorem of_runs_eq (h : VersionsStep s written s₁) (hRuns : s'.runs = s₁.runs) :
    VersionsStep s written s' := by
  intro k row hRow
  rw [hRuns]
  exact h k row hRow

theorem claim (h : RowsInv s) {investigationId : Option String} {one : Bool}
    {cutoff : Option Instant} {now : Instant}
    (hClaim : Returns (claimActiveSlot investigationId one cutoff now) s () s₁) :
    VersionsStep s (reclaimedRun s investigationId one) s₁ := by
  rcases claimActiveSlot_returns hClaim with ⟨rfl, hNone⟩ | ⟨k, row, rfl, hActive, _, _, rfl⟩
  · have hWritten : reclaimedRun s₁ investigationId one = none := by
      cases one with
      | false => rfl
      | true => simp [reclaimedRun, hNone rfl]
    rw [hWritten]
    exact refl s₁
  · obtain ⟨hRow, _⟩ := Store.activeRun_eq_some hActive
    have hWritten : reclaimedRun s investigationId true = some k := by
      simp [reclaimedRun, hActive]
    rw [hWritten]
    unfold Store.reclaim
    rw [h.keyed k row hRow]
    exact (setRun hRow rfl).of_runs_eq rfl

theorem addRetry {existing : Option (RetryRow × RunRow)} {parentRunId key digest : String}
    (hFree : s.runs.find record.runId = none) :
    VersionsStep s none (s.addRetry existing record parentRunId key digest) := by
  refine (addRun hFree).of_runs_eq ?_
  cases existing <;> rfl

/-- A call that returns writes the run `writtenRun` names and no other. -/
theorem of_effect (h : RowsInv s) {op : StoreOp} (hEffect : op.Effect s s') :
    VersionsStep s (op.writtenRun s) s' := by
  cases hEffect with
  | createRun hClaim hFree =>
    exact (claim h hClaim).trans_none ((addRun hFree).of_runs_eq rfl)
  | @replayRetry record parentRunId key digest one cutoff now slot child hSlot hReplay =>
    have hWritten : StoreOp.writtenRun s
        (.createTerminalRetry record parentRunId key digest one cutoff now) = none := by
      simp only [StoreOp.writtenRun, hSlot]
      rw [if_pos hReplay]
    rw [hWritten]
    exact refl s
  | @openRetry record parentRunId key digest one cutoff now _ _ hSlot _ _ hClaim hFree _ =>
    have hWritten : StoreOp.writtenRun s
        (.createTerminalRetry record parentRunId key digest one cutoff now) =
          reclaimedRun s record.investigationId one := by
      simp only [StoreOp.writtenRun]
      cases hFound : s.retrySlot parentRunId with
      | none => rfl
      | some p =>
        obtain ⟨hTerminal, hKey⟩ := hSlot p.1 p.2 hFound
        simp [hTerminal, hKey]
    rw [hWritten]
    exact (claim h hClaim).trans_none (addRetry hFree)
  | transitionRun hRow _ => exact (setRun hRow rfl).of_runs_eq rfl
  | resetMethodologyRevisionBudget hRow => exact (setRun hRow rfl).of_runs_eq rfl
  | appendEvent _ => exact refl s
  | resolveAction => exact refl s
  | saveAction _ => exact refl s
  | replaceRun hRow hVersion => exact setRun hRow (by simp [hVersion])

end VersionsStep

/-- A call that raises changes nothing; one that returns moves the versions of the runs it
writes by one. -/
def CallStep (s : Store) (op : StoreOp) : Prop :=
  match op.call s with
  | (.error _, s') => s' = s
  | (.ok (), s') => VersionsStep s (op.writtenRun s) s'

theorem LogInv.callStep {s : Store} (h : LogInv none s) (op : StoreOp) : CallStep s op := by
  unfold CallStep
  rcases op.call_cases s with ⟨e, hRaise⟩ | ⟨s', hReturn, hEffect⟩
  · rw [hRaise]
  · rw [hReturn]
    exact VersionsStep.of_effect h.rows hEffect

/-- Along every history of calls in which no caller contradicts the log, the log is the
history of the store in every state reached, and every call is atomic and versioned. -/
theorem eventLog_authoritative (ops : List StoreOp)
    (hOps : Along stepStore (fun s op => StatePreserving s op ∧ Restates s op) Store.empty ops) :
    (∀ pre, pre <+: ops → Authoritative (exec stepStore Store.empty pre)) ∧
      ∀ pre op post, ops = pre ++ op :: post → CallStep (exec stepStore Store.empty pre) op := by
  have hStep : ∀ s op, StatePreserving s op ∧ Restates s op → LogInv none s →
      LogInv none (stepStore s op) := fun s op hAdmitted h => h.step hAdmitted.1 hAdmitted.2
  refine ⟨fun pre hPre => ?_, fun pre op post hSplit => ?_⟩
  · exact (hOps.invariant_prefix hStep LogInv.empty hPre).authoritative
  · rw [hSplit] at hOps
    exact (hOps.each hStep LogInv.empty).1.callStep op

def plainHistory : List StoreOp :=
  [.createRun (freshRun "r" "objective" 0) true none 0,
    .transitionRun "r" .preparing "orchestrator" [("reason", .str "setup")] .none 1,
    .appendEvent "r" "orchestrator" "run.note" []]

theorem eventLog_authoritative_plainHistory :
    Along stepStore (fun s op => StatePreserving s op ∧ Restates s op) Store.empty plainHistory ∧
      Authoritative (exec stepStore Store.empty plainHistory) := by
  have hOps : Along stepStore (fun s op => StatePreserving s op ∧ Restates s op) Store.empty
      plainHistory := by
    refine ⟨⟨trivial, trivial⟩, ⟨trivial, ?_⟩, ⟨trivial, ?_⟩, trivial⟩
    · intro row _ _
      constructor <;> intro v hv <;> simp at hv
    · intro row _
      exact ⟨applyEvent_of_silent (by simp [SilentType, Store.newEvent]) _, by simp⟩
  exact ⟨hOps, (eventLog_authoritative plainHistory hOps).1 plainHistory (prefix_refl _)⟩

/-- A caller passes its own `to` with a transition. -/
def overriddenHistory : List StoreOp :=
  [.createRun (freshRun "r" "objective" 0) true none 0,
    .transitionRun "r" .preparing "orchestrator" [("to", .str "FAILED")] .none 1]

/-- The transition to `PREPARING` is logged as one to `FAILED`: the fold of the log is not the
state column. -/
theorem overriddenHistory_not_authoritative :
    Along stepStore StatePreserving Store.empty overriddenHistory ∧
      ¬ Authoritative (exec stepStore Store.empty overriddenHistory) := by
  refine ⟨⟨trivial, trivial, trivial⟩, ?_⟩
  intro h
  have hRow : ((exec stepStore Store.empty overriddenHistory).runs.find "r").map RunRow.state =
      some .preparing := by decide
  have hFold : foldState ((exec stepStore Store.empty overriddenHistory).eventsOf "r") =
      some .failed := by decide
  obtain ⟨row, hFind, hState⟩ := map_eq_some_iff.mp hRow
  have hAgree := h.folds "r" row hFind
  rw [hFold, hState] at hAgree
  cases hAgree

end Glasslab.Storage
