import Glasslab.Storage.Store

/-!
# What each store operation does when it returns

One inversion lemma for every statement and every operation of `Store`: the guards it
passed and the store it leaves, as a composition of `addRun`, `setRun`, `setRetrySlot` and
`log`. The invariants of the store are proved from these and from the field lemmas of the
four writers, never by unfolding an operation again.
-/

namespace Glasslab.Storage

open Foundation Foundation.Tx Option

variable {record : RunRecord} {payload : Payload}

namespace Store

variable {s : Store} {runId k source eventType : String} {slot : RetryRow}

@[simp] theorem log_runs : (s.log runId source eventType payload).runs = s.runs := rfl

@[simp] theorem eventsOf_setRun : (s.setRun runId record).eventsOf k = s.eventsOf k := rfl

theorem eventsOf_log_self :
    (s.log runId source eventType payload).eventsOf runId =
      s.eventsOf runId ++ [s.newEvent runId source eventType payload] :=
  NumberedLog.entries_append_self s.events (s.newEvent runId source eventType payload)

theorem eventsOf_log_ne (h : k ≠ runId) :
    (s.log runId source eventType payload).eventsOf k = s.eventsOf k :=
  NumberedLog.entries_append_ne s.events (Ne.symm h)

/-- The row `setRun` leaves under the key it writes. -/
def rewritten (record : RunRecord) (row : RunRow) : RunRow :=
  { row with
    state := record.state, version := record.version, payload := record,
    updatedAt := record.updatedAt }

/-- The row `addRun` inserts. -/
def inserted (record : RunRecord) : RunRow where
  state := record.state
  version := record.version
  payload := record
  createdAt := record.createdAt
  updatedAt := record.updatedAt
  conversation := record.conversation
  investigationId := record.investigationId

theorem find_setRun_self :
    (s.setRun runId record).runs.find runId = (s.runs.find runId).map (rewritten record) :=
  Table.find_update_self

theorem find_setRun_ne (h : k ≠ runId) : (s.setRun runId record).runs.find k = s.runs.find k :=
  Table.find_update_ne h

theorem find_setRun_isSome :
    ((s.setRun runId record).runs.find k).isSome = (s.runs.find k).isSome :=
  Table.find_update_isSome

theorem find_addRun_self (h : s.runs.find record.runId = none) :
    (s.addRun record).runs.find record.runId = some (inserted record) :=
  Table.find_add_self h

theorem find_addRun_ne (hFree : s.runs.find record.runId = none) (h : k ≠ record.runId) :
    (s.addRun record).runs.find k = s.runs.find k :=
  Table.find_add_ne hFree h

theorem find_setRetrySlot_self :
    (s.setRetrySlot runId slot).retries.find runId = some slot := by
  show ((s.retries.add runId slot).update runId fun _ => slot).find runId = some slot
  rw [Table.find_update_self]
  cases hFind : s.retries.find runId with
  | none => rw [Table.find_add_self hFind, map_some]
  | some old => simp [Table.add, hFind]

theorem find_setRetrySlot_ne (h : k ≠ runId) :
    (s.setRetrySlot runId slot).retries.find k = s.retries.find k := by
  show ((s.retries.add runId slot).update runId fun _ => slot).find k = s.retries.find k
  rw [Table.find_update_ne h]
  cases hFind : s.retries.find runId with
  | none => rw [Table.find_add_ne hFind h]
  | some old => simp [Table.add, hFind]

theorem retrySlot_eq_some {parentRunId : String} {child : RunRow}
    (h : s.retrySlot parentRunId = some (slot, child)) :
    s.retries.find parentRunId = some slot ∧ s.runs.find slot.childRunId = some child := by
  unfold retrySlot at h
  cases hSlot : s.retries.find parentRunId with
  | none => simp [hSlot] at h
  | some found =>
    simp only [hSlot, map_eq_some_iff, Prod.mk.injEq] at h
    obtain ⟨row, hRow, rfl, rfl⟩ := h
    exact ⟨rfl, hRow⟩

variable {investigationId : Option String} {row : RunRow}

theorem activeRun_eq_some
    (h : s.activeRun investigationId = some (k, row)) :
    s.runs.find k = some row ∧ row.state ∉ terminalStates ∧ row.conversation = false ∧
      row.investigationId = investigationId := by
  have hMem := List.mem_of_find?_eq_some h
  have hHolds := List.find?_some h
  exact ⟨Table.find_eq_some_iff.mpr hMem, by simpa using hHolds⟩

theorem activeRun_eq_none
    (h : s.activeRun investigationId = none) (hRow : s.runs.find k = some row)
    (hActive : row.state ∉ terminalStates) (hConversation : row.conversation = false) :
    row.investigationId ≠ investigationId := by
  have hNot := List.find?_eq_none.mp h (k, row) (Table.find_eq_some_iff.mp hRow)
  simpa [hActive, hConversation] using hNot

def reclaim (s : Store) (row : RunRow) (now : Instant) : Store :=
  (s.setRun row.payload.runId (row.cancelledStale now)).log row.payload.runId "orchestrator"
    "run.stale_paused_cancelled"
    [("reason", .str "abandoned paused run freed the single-active-run slot")]

def announce (s : Store) (record : RunRecord) (payload : Payload) : Store :=
  (s.addRun record).log record.runId "orchestrator" "run.created"
    ([("objective", .str record.objective), ("state", .str record.state.value)] ++ payload)

/-- The `run.retry_created` payload. -/
def retryPayload (parentRunId childRunId checkpointDigest : String) : Payload :=
  [("parent_run_id", .str parentRunId), ("child_run_id", .str childRunId),
    ("checkpoint_digest", .str checkpointDigest)]

def supersede (s : Store) (existing : Option (RetryRow × RunRow)) (parentRunId runId : String) :
    Store :=
  match existing with
  | none => s
  | some (slot, _) =>
    s.log slot.childRunId "orchestrator" "run.retry_superseded"
      [("parent_run_id", .str parentRunId), ("child_run_id", .str slot.childRunId),
        ("superseded_by", .str runId)]

/-- The store after a retry child was inserted, its slot pointed at it and all of it logged. -/
def addRetry (s : Store) (existing : Option (RetryRow × RunRow)) (record : RunRecord)
    (parentRunId retryKey checkpointDigest : String) : Store :=
  let payload := retryPayload parentRunId record.runId checkpointDigest
  (((((s.addRun record).setRetrySlot parentRunId
      { childRunId := record.runId, retryKey := retryKey, checkpointDigest := checkpointDigest,
        createdAt := record.createdAt }).supersede existing parentRunId record.runId).log
    parentRunId "orchestrator" "run.retry_created" payload).log
    record.runId "orchestrator" "run.created"
      [("objective", .str record.objective), ("state", .str record.state.value),
        ("parent_run_id", .str parentRunId)]).log
    record.runId "orchestrator" "run.retry_created" payload

end Store

variable {s s' : Store} {runId source eventType : String} {u : Unit}

theorem appendEventConn_returns :
    Returns (appendEventConn runId source eventType payload) s u s' ↔
      s.runs.find runId ≠ none ∧ s' = s.log runId source eventType payload := by
  simp [appendEventConn, returns_get_bind, returns_ite, returns_raise, returns_modify]

theorem insertRun_returns :
    Returns (insertRun record) s u s' ↔
      s.runs.find record.runId = none ∧ s' = s.addRun record := by
  simp [insertRun, returns_get_bind, returns_ite, returns_raise, returns_modify]

theorem writeRun_returns {expected : Int} :
    Returns (writeRun runId expected record) s u s' ↔
      (∃ row, s.runs.find runId = some row ∧ row.version = expected) ∧
        s' = s.setRun runId record := by
  simp [writeRun, returns_get_bind, returns_ite, returns_raise, returns_modify]

variable {existing : Option (RetryRow × RunRow)}

theorem pointRetrySlot_returns {slot : RetryRow}
    (h : Returns (pointRetrySlot existing runId slot) s u s') :
    s' = s.setRetrySlot runId slot ∧
      ∀ p ∈ s.retries.rows, p.1 ≠ runId →
        p.2.childRunId ≠ slot.childRunId ∧ p.2.retryKey ≠ slot.retryKey := by
  simp only [pointRetrySlot, returns_get_bind, returns_ite, returns_raise, and_false, false_or,
    returns_modify] at h
  obtain ⟨hUnique, _, rfl⟩ := h
  refine ⟨rfl, fun p hp hne => ?_⟩
  push Not at hUnique
  exact hUnique p hp hne

variable {investigationId : Option String} {one : Bool} {cutoff : Option Instant} {now : Instant}

theorem claimActiveSlot_returns
    (h : Returns (claimActiveSlot investigationId one cutoff now) s u s') :
    (s' = s ∧ (one = true → s.activeRun investigationId = none)) ∨
      ∃ k row, one = true ∧ s.activeRun investigationId = some (k, row) ∧
        row.payload.state = .paused ∧ s.runs.find row.payload.runId ≠ none ∧
        s' = s.reclaim row now := by
  simp only [claimActiveSlot, returns_get_bind, returns_ite] at h
  obtain ⟨hOne, h⟩ | ⟨hOne, h⟩ := h
  · rw [returns_pure] at h
    exact .inl ⟨h.2, by simp [hOne]⟩
  · cases hActive : s.activeRun investigationId with
    | none =>
      rw [hActive, returns_pure] at h
      exact .inl ⟨h.2, fun _ => rfl⟩
    | some p =>
      obtain ⟨k, row⟩ := p
      simp only [hActive, returns_ite, returns_bind, returns_modify, returns_raise, and_false,
        or_false, appendEventConn_returns] at h
      obtain ⟨⟨hPaused, _⟩, _, _, rfl, hFind, rfl⟩ := h
      refine .inr ⟨k, row, by simpa using hOne, rfl, hPaused, ?_, rfl⟩
      intro hNone
      rw [Store.find_setRun_self, hNone] at hFind
      exact hFind rfl

/-! ## Operations -/

section Operations

theorem appendEvent_returns :
    Returns (appendEvent runId source eventType payload) s u s' ↔
      s.runs.find runId ≠ none ∧ s' = s.log runId source eventType payload := by
  rw [appendEvent, returns_atomically, appendEventConn_returns]

variable {r : RunRecord}

theorem createRun_returns
    (h : Returns (createRun record one cutoff now) s r s') :
    r = record ∧ ∃ s₁, Returns (claimActiveSlot record.investigationId one cutoff now) s () s₁ ∧
      s₁.runs.find record.runId = none ∧ s' = s₁.announce record [] := by
  simp only [createRun, returns_atomically, returns_bind, insertRun_returns,
    appendEventConn_returns, returns_pure] at h
  obtain ⟨_, s₁, hClaim, _, _, ⟨hFree, rfl⟩, _, _, ⟨_, rfl⟩, rfl, rfl⟩ := h
  exact ⟨rfl, s₁, hClaim, hFree, rfl⟩

variable {parentRunId retryKey checkpointDigest : String}

/-- What `openRetry` requires of the store and what it leaves. -/
theorem openRetry_returns {r : RunRecord × Bool}
    (h : Returns (openRetry existing record parentRunId retryKey checkpointDigest one cutoff now)
      s r s') :
    r = (record, true) ∧ (∃ parent, s.runs.find parentRunId = some parent ∧
        parent.state ∈ terminalStates) ∧
      ∃ s₁, Returns (claimActiveSlot record.investigationId one cutoff now) s () s₁ ∧
        s₁.runs.find record.runId = none ∧
        s' = s₁.addRetry existing record parentRunId retryKey checkpointDigest := by
  simp only [openRetry, returns_get_bind] at h
  cases hParent : s.runs.find parentRunId with
  | none =>
    rw [hParent] at h
    exact (returns_raise h).elim
  | some parent =>
    simp only [hParent, returns_ite, returns_raise, and_false, false_or, returns_bind] at h
    obtain ⟨hTerminal, _, s₁, hClaim, _, _, hInsert, _, s₂, hPoint, h⟩ := h
    obtain ⟨hFree, rfl⟩ := insertRun_returns.mp hInsert
    obtain ⟨rfl, _⟩ := pointRetrySlot_returns hPoint
    have hDone : r = (record, true) ∧
        s' = s₁.addRetry existing record parentRunId retryKey checkpointDigest := by
      cases existing with
      | none =>
        simp only [returns_bind, returns_pure, appendEventConn_returns] at h
        obtain ⟨_, _, ⟨_, rfl⟩, _, _, ⟨_, rfl⟩, _, _, ⟨_, rfl⟩, rfl, rfl⟩ := h
        exact ⟨rfl, rfl⟩
      | some p =>
        simp only [returns_bind, returns_pure, appendEventConn_returns] at h
        obtain ⟨_, _, ⟨_, rfl⟩, _, _, ⟨_, rfl⟩, _, _, ⟨_, rfl⟩, _, _, ⟨_, rfl⟩, rfl, rfl⟩ := h
        exact ⟨rfl, rfl⟩
    exact ⟨hDone.1, ⟨parent, rfl, not_not.mp hTerminal⟩, s₁, hClaim, hFree, hDone.2⟩

/-- A retry call replays the slot's child, or opens a new child. -/
theorem createTerminalRetry_returns
    {r : RunRecord × Bool}
    (h : Returns (createTerminalRetry record parentRunId retryKey checkpointDigest one cutoff now)
      s r s') :
    (∃ slot child, s.retrySlot parentRunId = some (slot, child) ∧
        (child.state ∉ terminalStates ∨ slot.retryKey = retryKey) ∧
        r = (child.payload, false) ∧ s' = s) ∨
      ((∀ slot child, s.retrySlot parentRunId = some (slot, child) →
          child.state ∈ terminalStates ∧ slot.retryKey ≠ retryKey) ∧
        r = (record, true) ∧
        (∃ parent, s.runs.find parentRunId = some parent ∧ parent.state ∈ terminalStates) ∧
        ∃ s₁, Returns (claimActiveSlot record.investigationId one cutoff now) s () s₁ ∧
          s₁.runs.find record.runId = none ∧
          s' = s₁.addRetry (s.retrySlot parentRunId) record parentRunId retryKey
            checkpointDigest) := by
  simp only [createTerminalRetry, returns_atomically, returns_get_bind] at h
  cases hSlot : s.retrySlot parentRunId with
  | none =>
    rw [hSlot] at h
    exact .inr ⟨by simp, openRetry_returns h⟩
  | some p =>
    obtain ⟨slot, child⟩ := p
    simp only [hSlot, returns_ite, returns_pure] at h
    obtain ⟨hReplay, rfl, rfl⟩ | ⟨hFresh, h⟩ := h
    · exact .inl ⟨slot, child, rfl, hReplay, rfl, rfl⟩
    · refine .inr ⟨?_, openRetry_returns h⟩
      intro slot' child' hEq
      cases hEq
      push Not at hFresh
      exact hFresh

theorem replaceRun_returns {expected : Int}
    (h : Returns (replaceRun record expected now) s r s') :
    ∃ row, s.runs.find record.runId = some row ∧ row.version = expected ∧
      r = { record with version := expected + 1, updatedAt := now } ∧
      s' = s.setRun record.runId { record with version := expected + 1, updatedAt := now } := by
  simp only [replaceRun, returns_atomically, returns_bind, writeRun_returns, returns_pure] at h
  obtain ⟨_, _, ⟨⟨row, hRow, hVersion⟩, rfl⟩, rfl, rfl⟩ := h
  exact ⟨row, hRow, hVersion, rfl, rfl⟩

/-- The record `resetMethodologyRevisionBudget` writes. -/
def RunRow.budgetReset (row : RunRow) (now : Instant) : RunRecord :=
  { row.payload with methodologyRevisionCount := 0, version := row.version + 1, updatedAt := now }

theorem resetMethodologyRevisionBudget_returns {reason : String}
    (h : Returns (resetMethodologyRevisionBudget runId reason now) s r s') :
    ∃ row, s.runs.find runId = some row ∧ r = row.budgetReset now ∧
      s' = (s.setRun runId (row.budgetReset now)).log runId "orchestrator"
        "methodology.revision_budget_reset"
        [("previous_revision_count", .int row.payload.methodologyRevisionCount),
          ("revision_count", .int 0), ("reason", .str reason)] := by
  simp only [resetMethodologyRevisionBudget, returns_atomically, returns_get_bind] at h
  cases hRow : s.runs.find runId with
  | none =>
    rw [hRow] at h
    exact (returns_raise h).elim
  | some row =>
    simp only [hRow, returns_bind, writeRun_returns, appendEventConn_returns, returns_pure] at h
    obtain ⟨_, _, ⟨_, rfl⟩, _, _, ⟨_, rfl⟩, rfl, rfl⟩ := h
    exact ⟨row, rfl, rfl, rfl⟩

theorem transitionRun_returns {target : RunState} {updates : RunUpdates} :
    Returns (transitionRun runId target source payload updates now) s r s' ↔
      ∃ row, s.runs.find runId = some row ∧ validTransition row.payload.state target = true ∧
        r = transitioned row target updates now ∧
        s' = (s.setRun runId (transitioned row target updates now)).log runId source
          "run.state_changed" (stateChangedPayload row.payload.state target payload) := by
  simp only [transitionRun, returns_atomically, returns_get_bind]
  cases hRow : s.runs.find runId with
  | none => simp [returns_raise]
  | some row =>
    simp only [returns_ite, returns_raise, and_false, or_false, returns_bind, writeRun_returns,
      appendEventConn_returns, returns_pure, Option.some.injEq, exists_eq_left']
    constructor
    · rintro ⟨hValid, _, _, ⟨_, rfl⟩, _, _, ⟨_, rfl⟩, rfl, rfl⟩
      exact ⟨hValid, rfl, rfl⟩
    · rintro ⟨hValid, rfl, rfl⟩
      refine ⟨hValid, (), _, ⟨⟨row, hRow, rfl⟩, rfl⟩, (), _, ⟨?_, rfl⟩, rfl, rfl⟩
      rw [Store.find_setRun_self, hRow]
      simp

theorem saveActionWithEvent_returns {action : ActionRecord} {r : ActionRecord × Bool}
    (h : Returns (saveActionWithEvent action source payload) s r s') :
    s' = s ∨ (∃ row, s.runs.find action.runId = some row) ∧
      s' = ({ s with actions := s.actions.add action.actionId action } : Store).log
        action.runId source "action.proposed" payload := by
  simp only [saveActionWithEvent, returns_atomically, returns_get_bind] at h
  split at h
  · exact .inl (returns_pure.mp h).2
  · simp only [returns_ite, returns_raise, and_false, false_or, returns_bind, returns_modify,
      appendEventConn_returns, returns_pure] at h
    obtain ⟨_, hRun, _, _, rfl, _, _, ⟨_, rfl⟩, _, rfl⟩ := h
    exact .inr ⟨ne_none_iff_exists'.mp hRun, rfl⟩

end Operations

theorem transitioned_runId (row : RunRow) (target : RunState) (updates : RunUpdates)
    (now : Instant) : (transitioned row target updates now).runId = row.payload.runId := by
  unfold transitioned runtimeUpdates
  split
  · exact updates.runId_apply row.payload
  · split
    · exact updates.runId_apply row.payload
    · exact updates.runId_apply row.payload

section

variable (hClaim : Returns (claimActiveSlot investigationId one cutoff now) s () s')
include hClaim

/-- Claiming the active slot adds no row and removes none. -/
theorem claim_isSome
    (k : String) : (s'.runs.find k).isSome = (s.runs.find k).isSome := by
  rcases claimActiveSlot_returns hClaim with ⟨rfl, _⟩ | ⟨_, active, _, _, _, _, rfl⟩
  · rfl
  · exact Store.find_setRun_isSome

theorem claim_keeps
    {k : String} {row : RunRow} (hRow : s.runs.find k = some row) :
    ∃ row', s'.runs.find k = some row' := by
  have hSome := claim_isSome hClaim k
  rw [hRow] at hSome
  exact isSome_iff_exists.mp hSome

end

structure RowsInv (s : Store) : Prop where
  keyed : ∀ k row, s.runs.find k = some row → row.payload.runId = k
  mirrored : ∀ k row, s.runs.find k = some row →
    row.state = row.payload.state ∧ row.version = row.payload.version

namespace RowsInv

theorem empty : RowsInv Store.empty where
  keyed := by intro k row h; cases h
  mirrored := by intro k row h; cases h

theorem setRun (h : RowsInv s) (hId : record.runId = runId) :
    RowsInv (s.setRun runId record) := by
  have hRows : ∀ k row, (s.setRun runId record).runs.find k = some row →
      row.payload.runId = k ∧ row.state = row.payload.state ∧ row.version =
        row.payload.version := by
    intro k row hRow
    by_cases hk : k = runId
    · subst hk
      rw [Store.find_setRun_self, map_eq_some_iff] at hRow
      obtain ⟨old, _, rfl⟩ := hRow
      exact ⟨hId, rfl, rfl⟩
    · rw [Store.find_setRun_ne hk] at hRow
      exact ⟨h.keyed k row hRow, h.mirrored k row hRow⟩
  exact ⟨fun k row hRow => (hRows k row hRow).1, fun k row hRow => (hRows k row hRow).2⟩

theorem addRun (h : RowsInv s) (hFree : s.runs.find record.runId = none) :
    RowsInv (s.addRun record) := by
  have hRows : ∀ k row, (s.addRun record).runs.find k = some row →
      row.payload.runId = k ∧ row.state = row.payload.state ∧ row.version =
        row.payload.version := by
    intro k row hRow
    by_cases hk : k = record.runId
    · subst hk
      rw [Store.find_addRun_self hFree] at hRow
      cases hRow
      exact ⟨rfl, rfl, rfl⟩
    · rw [Store.find_addRun_ne hFree hk] at hRow
      exact ⟨h.keyed k row hRow, h.mirrored k row hRow⟩
  exact ⟨fun k row hRow => (hRows k row hRow).1, fun k row hRow => (hRows k row hRow).2⟩

theorem claim (h : RowsInv s)
    (hClaim : Returns (claimActiveSlot investigationId one cutoff now) s () s') : RowsInv s' := by
  rcases claimActiveSlot_returns hClaim with ⟨rfl, _⟩ | ⟨k, active, _, hActive, _, _, rfl⟩
  · exact h
  · have hRows : RowsInv (s.setRun active.payload.runId (active.cancelledStale now)) := h.setRun rfl
    exact ⟨hRows.keyed, hRows.mirrored⟩

theorem of_runs_eq (h : RowsInv s) (hRuns : s'.runs = s.runs) : RowsInv s' where
  keyed := hRuns ▸ h.keyed
  mirrored := hRuns ▸ h.mirrored

end RowsInv

/-! ## Calls -/

/-- What a call that returns does to the store. -/
inductive StoreOp.Effect (s : Store) : StoreOp → Store → Prop where
  | createRun {record one cutoff now s₁}
      (hClaim : Returns (claimActiveSlot record.investigationId one cutoff now) s () s₁)
      (hFree : s₁.runs.find record.runId = none) :
      Effect s (.createRun record one cutoff now) (s₁.announce record [])
  | replayRetry {record parentRunId key digest one cutoff now slot child}
      (hSlot : s.retrySlot parentRunId = some (slot, child))
      (hReplay : child.state ∉ terminalStates ∨ slot.retryKey = key) :
      Effect s (.createTerminalRetry record parentRunId key digest one cutoff now) s
  | openRetry {record parentRunId key digest one cutoff now parent s₁}
      (hSlot : ∀ slot child, s.retrySlot parentRunId = some (slot, child) →
        child.state ∈ terminalStates ∧ slot.retryKey ≠ key)
      (hParent : s.runs.find parentRunId = some parent)
      (hTerminal : parent.state ∈ terminalStates)
      (hClaim : Returns (claimActiveSlot record.investigationId one cutoff now) s () s₁)
      (hFree : s₁.runs.find record.runId = none)
      (hReturn : Returns (Storage.createTerminalRetry record parentRunId key digest one cutoff now)
        s (record, true) (s₁.addRetry (s.retrySlot parentRunId) record parentRunId key digest)) :
      Effect s (.createTerminalRetry record parentRunId key digest one cutoff now)
        (s₁.addRetry (s.retrySlot parentRunId) record parentRunId key digest)
  | transitionRun {runId target source payload updates now row}
      (hRow : s.runs.find runId = some row)
      (hValid : validTransition row.payload.state target = true) :
      Effect s (.transitionRun runId target source payload updates now)
        ((s.setRun runId (transitioned row target updates now)).log runId source
          "run.state_changed" (stateChangedPayload row.payload.state target payload))
  | resetMethodologyRevisionBudget {runId reason now row} (hRow : s.runs.find runId = some row) :
      Effect s (.resetMethodologyRevisionBudget runId reason now)
        ((s.setRun runId (row.budgetReset now)).log runId "orchestrator"
          "methodology.revision_budget_reset"
          [("previous_revision_count", .int row.payload.methodologyRevisionCount),
            ("revision_count", .int 0), ("reason", .str reason)])
  | appendEvent {runId source eventType payload row} (hRow : s.runs.find runId = some row) :
      Effect s (.appendEvent runId source eventType payload)
        (s.log runId source eventType payload)
  | resolveAction {action source payload} : Effect s (.saveActionWithEvent action source payload) s
  | saveAction {action source payload row} (hRow : s.runs.find action.runId = some row) :
      Effect s (.saveActionWithEvent action source payload)
        (({ s with actions := s.actions.add action.actionId action } : Store).log action.runId
          source "action.proposed" payload)
  | replaceRun {record expected now row} (hRow : s.runs.find record.runId = some row)
      (hVersion : row.version = expected) :
      Effect s (.replaceRun record expected now)
        (s.setRun record.runId { record with version := expected + 1, updatedAt := now })

variable {parentRunId key digest : String}

@[simp] theorem Store.addRetry_runs :
    (s.addRetry existing record parentRunId key digest).runs = (s.addRun record).runs := by
  cases existing <;> rfl

@[simp] theorem Store.addRetry_retries :
    (s.addRetry existing record parentRunId key digest).retries =
      (s.setRetrySlot parentRunId ⟨record.runId, key, digest, record.createdAt⟩).retries := by
  cases existing <;> rfl

variable {op : StoreOp}

theorem StoreOp.Effect.find_isSome (h : op.Effect s s') {k : String}
    (hSome : (s.runs.find k).isSome) : (s'.runs.find k).isSome := by
  have hAdd : ∀ {t : Store} {record : RunRecord}, t.runs.find record.runId = none →
      (t.runs.find k).isSome → ((t.addRun record).runs.find k).isSome := by
    intro t record hFree hIs
    have hk : k ≠ record.runId := by
      rintro rfl
      simp [hFree] at hIs
    rw [Store.find_addRun_ne hFree hk]
    exact hIs
  cases h with
  | createRun hClaim hFree =>
    exact hAdd hFree ((claim_isSome hClaim k).trans hSome)
  | openRetry _ _ _ hClaim hFree _ =>
    rw [Store.addRetry_runs]
    exact hAdd hFree ((claim_isSome hClaim k).trans hSome)
  | transitionRun => exact Store.find_setRun_isSome.trans hSome
  | resetMethodologyRevisionBudget => exact Store.find_setRun_isSome.trans hSome
  | replaceRun => exact Store.find_setRun_isSome.trans hSome
  | _ => exact hSome

/-- Every call keeps the rows filed and mirrored. -/
theorem RowsInv.effect (h : RowsInv s) (hEffect : op.Effect s s') : RowsInv s' := by
  cases hEffect with
  | createRun hClaim hFree => exact ((h.claim hClaim).addRun hFree).of_runs_eq rfl
  | openRetry _ _ _ hClaim hFree _ =>
    exact ((h.claim hClaim).addRun hFree).of_runs_eq Store.addRetry_runs
  | @transitionRun runId target source payload updates now row hRow hValid =>
    have hId := (transitioned_runId row target updates now).trans (h.keyed runId row hRow)
    exact (h.setRun hId).of_runs_eq rfl
  | @resetMethodologyRevisionBudget runId reason now row hRow =>
    have hId : (row.budgetReset now).runId = runId := h.keyed runId row hRow
    exact (h.setRun hId).of_runs_eq rfl
  | replaceRun => exact h.setRun rfl
  | _ => exact h.of_runs_eq rfl

theorem StoreOp.call_cases (s : Store) (op : StoreOp) :
    (∃ e, op.call s = (.error e, s)) ∨ ∃ s', Returns op.call s () s' ∧ op.Effect s s' := by
  cases op with
  | createRun record one cutoff now =>
    rcases atomically_discard_cases _ s with hRaise | ⟨r, s', hReturn, hCall⟩
    · exact .inl hRaise
    · obtain ⟨_, s₁, hClaim, hFree, rfl⟩ := createRun_returns hReturn
      exact .inr ⟨_, hCall, .createRun hClaim hFree⟩
  | createTerminalRetry record parentRunId key digest one cutoff now =>
    rcases atomically_discard_cases _ s with hRaise | ⟨r, s', hReturn, hCall⟩
    · exact .inl hRaise
    · rcases createTerminalRetry_returns hReturn with
        ⟨slot, child, hSlot, hReplay, _, rfl⟩ |
          ⟨hSlot, rfl, ⟨parent, hParent, hTerminal⟩, s₁, hClaim, hFree, rfl⟩
      · exact .inr ⟨_, hCall, .replayRetry hSlot hReplay⟩
      · exact .inr ⟨_, hCall, .openRetry hSlot hParent hTerminal hClaim hFree hReturn⟩
  | transitionRun runId target source payload updates now =>
    rcases atomically_discard_cases _ s with hRaise | ⟨r, s', hReturn, hCall⟩
    · exact .inl hRaise
    · obtain ⟨row, hRow, hValid, _, rfl⟩ := transitionRun_returns.mp hReturn
      exact .inr ⟨_, hCall, .transitionRun hRow hValid⟩
  | resetMethodologyRevisionBudget runId reason now =>
    rcases atomically_discard_cases _ s with hRaise | ⟨r, s', hReturn, hCall⟩
    · exact .inl hRaise
    · obtain ⟨row, hRow, _, rfl⟩ := resetMethodologyRevisionBudget_returns hReturn
      exact .inr ⟨_, hCall, .resetMethodologyRevisionBudget hRow⟩
  | appendEvent runId source eventType payload =>
    rcases atomically_cases _ s with hRaise | ⟨r, s', hReturn⟩
    · exact .inl hRaise
    · obtain ⟨hFind, rfl⟩ := appendEvent_returns.mp hReturn
      obtain ⟨row, hRow⟩ := ne_none_iff_exists'.mp hFind
      exact .inr ⟨_, hReturn, .appendEvent hRow⟩
  | saveActionWithEvent action source payload =>
    rcases atomically_discard_cases _ s with hRaise | ⟨r, s', hReturn, hCall⟩
    · exact .inl hRaise
    · rcases saveActionWithEvent_returns hReturn with rfl | ⟨⟨row, hRow⟩, rfl⟩
      · exact .inr ⟨_, hCall, .resolveAction⟩
      · exact .inr ⟨_, hCall, .saveAction hRow⟩
  | replaceRun record expected now =>
    rcases atomically_discard_cases _ s with hRaise | ⟨r, s', hReturn, hCall⟩
    · exact .inl hRaise
    · obtain ⟨row, hRow, hVersion, _, rfl⟩ := replaceRun_returns hReturn
      exact .inr ⟨_, hCall, .replaceRun hRow hVersion⟩

theorem stepStore_cases (s : Store) (op : StoreOp) :
    stepStore s op = s ∨ op.Effect s (stepStore s op) := by
  rcases op.call_cases s with ⟨e, hRaise⟩ | ⟨s', hReturn, hEffect⟩
  · exact .inl (congrArg Prod.snd hRaise)
  · have hStep : stepStore s op = s' := congrArg Prod.snd hReturn
    exact .inr (hStep ▸ hEffect)

theorem stepStore_invariant {Inv : Store → Prop} (hInv : Inv s)
    (hEffect : ∀ s', op.Effect s s' → Inv s') : Inv (stepStore s op) := by
  rcases stepStore_cases s op with hSame | hStep
  · rw [hSame]
    exact hInv
  · exact hEffect _ hStep

end Glasslab.Storage
