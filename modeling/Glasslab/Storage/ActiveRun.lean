import Glasslab.Storage.EventLog

/-!
# One active run per investigation

No constraint of the database keeps two runs of an investigation from being active at once:
`create_run` and `create_terminal_retry` check for an active row and insert in the same
transaction. The check decides only because terminal states are absorbing under every other
operation, and because a slot that is reclaimed leaves no second active row behind.

`Keeps` is the part of a step that is the same for every operation: no row disappears, the
columns of the active-run query are never rewritten, and a terminal row stays in its state.
-/

namespace Glasslab.Storage

open Foundation Foundation.Tx Foundation.Machine

def RunRow.Active (row : RunRow) : Prop := row.state ∉ terminalStates ∧ row.conversation = false

def RetryChild (s : Store) (parentRunId childRunId : String) : Prop :=
  ∃ e ∈ s.eventsOf parentRunId, e.eventType = "run.retry_created" ∧
    e.payload.getStr "parent_run_id" = some parentRunId ∧
    e.payload.getStr "child_run_id" = some childRunId

def Single (s : Store) : Prop :=
  ∀ k k' row row', s.runs.find k = some row → s.runs.find k' = some row' →
    row.Active → row'.Active → row.investigationId = row'.investigationId → k = k'

/-- At most one active run per investigation, at most one live retry per parent, and every
parent with a retry slot has ended. -/
structure OneActive (s : Store) : Prop where
  single : Single s
  children : ∀ parentRunId c c' row row', RetryChild s parentRunId c →
    RetryChild s parentRunId c' → s.runs.find c = some row → s.runs.find c' = some row' →
    row.state ∉ terminalStates → row'.state ∉ terminalStates → c = c'
  parents : ∀ parentRunId slot, s.retries.find parentRunId = some slot →
    ∃ row, s.runs.find parentRunId = some row ∧ row.state ∈ terminalStates

/-- The calls claim the active slot, and no event is appended by hand that speaks of a retry. -/
def SlotClaiming : StoreOp → Prop
  | .createRun _ one _ _ => one = true
  | .createTerminalRetry _ _ _ _ one _ _ => one = true
  | .appendEvent _ _ eventType _ => eventType ≠ "run.retry_created"
  | _ => True

structure RunRow.Becomes (row row' : RunRow) : Prop where
  conversation : row'.conversation = row.conversation
  investigationId : row'.investigationId = row.investigationId
  absorbed : row.state ∈ terminalStates → row'.state = row.state

theorem RunRow.Becomes.refl (row : RunRow) : row.Becomes row := ⟨rfl, rfl, fun _ => rfl⟩

theorem RunRow.Becomes.active {row row' : RunRow} (h : row.Becomes row') (hActive : row'.Active) :
    row.Active := by
  refine ⟨fun hTerminal => hActive.1 ?_, h.conversation ▸ hActive.2⟩
  rw [h.absorbed hTerminal]
  exact hTerminal

def Keeps (s s' : Store) : Prop :=
  ∀ k row, s.runs.find k = some row → ∃ row', s'.runs.find k = some row' ∧ row.Becomes row'

variable {record : RunRecord} {runId : String}

namespace Keeps

variable {s s₁ s' : Store} {row : RunRow}

theorem refl (s : Store) : Keeps s s := fun _ row hRow => ⟨row, hRow, .refl row⟩

theorem trans (h : Keeps s s₁) (h' : Keeps s₁ s') : Keeps s s' := by
  intro k row hRow
  obtain ⟨row₁, hRow₁, hConv, hInv, hAbs⟩ := h k row hRow
  obtain ⟨row', hRow', hConv', hInv', hAbs'⟩ := h' k row₁ hRow₁
  refine ⟨row', hRow', hConv'.trans hConv, hInv'.trans hInv, fun hTerminal => ?_⟩
  have hMiddle := hAbs hTerminal
  rw [hAbs' (hMiddle ▸ hTerminal), hMiddle]

theorem of_runs_eq (h : Keeps s s₁) (hRuns : s'.runs = s₁.runs) : Keeps s s' := by
  intro k row hRow
  rw [hRuns]
  exact h k row hRow

theorem setRun (hRow : s.runs.find runId = some row)
    (hState : row.state ∈ terminalStates → record.state = row.state) :
    Keeps s (s.setRun runId record) := by
  intro k old hOld
  by_cases hk : k = runId
  · subst hk
    rw [hRow] at hOld
    cases hOld
    refine ⟨Store.rewritten record row, ?_, rfl, rfl, hState⟩
    rw [Store.find_setRun_self, hRow, Option.map_some]
  · refine ⟨old, ?_, .refl old⟩
    rw [Store.find_setRun_ne hk]
    exact hOld

theorem addRun (hFree : s.runs.find record.runId = none) : Keeps s (s.addRun record) := by
  intro k old hOld
  have hk : k ≠ record.runId := by
    rintro rfl
    rw [hFree] at hOld
    cases hOld
  refine ⟨old, ?_, .refl old⟩
  rw [Store.find_addRun_ne hFree hk]
  exact hOld

end Keeps

/-- Every recorded retry of a parent is the child in its slot or has ended. -/
structure RetryInv (s : Store) : Prop where
  parents : ∀ parentRunId slot, s.retries.find parentRunId = some slot →
    ∃ row, s.runs.find parentRunId = some row ∧ row.state ∈ terminalStates
  children : ∀ parentRunId c, RetryChild s parentRunId c →
    ∃ slot row, s.retries.find parentRunId = some slot ∧ s.runs.find c = some row ∧
      (c = slot.childRunId ∨ row.state ∈ terminalStates)

structure ActiveInv (s : Store) : Prop where
  rows : RowsInv s
  single : Single s
  retries : RetryInv s

theorem ActiveInv.empty : ActiveInv Store.empty where
  rows := RowsInv.empty
  single := by intro k k' row row' h; cases h
  retries :=
    { parents := by intro k slot h; cases h
      children := by rintro k c ⟨e, he, _⟩; cases he }

variable {s : Store}

theorem ActiveInv.oneActive (h : ActiveInv s) : OneActive s where
  single := h.single
  parents := h.retries.parents
  children := by
    intro parentRunId c c' row row' hc hc' hRow hRow' hLive hLive'
    obtain ⟨slot, found, hSlot, hFound, hSlotted⟩ := h.retries.children parentRunId c hc
    obtain ⟨slot', found', hSlot', hFound', hSlotted'⟩ := h.retries.children parentRunId c' hc'
    rw [hRow] at hFound
    rw [hRow'] at hFound'
    rw [hSlot] at hSlot'
    cases hFound
    cases hFound'
    cases hSlot'
    rw [hSlotted.resolve_right hLive, hSlotted'.resolve_right hLive']

/-- A step that inserts no row creates no second active run. -/
theorem Single.keeps {s' : Store} (h : Single s) (hKeeps : Keeps s s')
    (hNoNew : ∀ k, s.runs.find k = none → s'.runs.find k = none) : Single s' := by
  have hOld : ∀ k row', s'.runs.find k = some row' →
      ∃ row, s.runs.find k = some row ∧ row.Becomes row' := by
    intro k row' hRow'
    cases hRow : s.runs.find k with
    | none =>
      rw [hNoNew k hRow] at hRow'
      cases hRow'
    | some row =>
      obtain ⟨found, hFound, hBecomes⟩ := hKeeps k row hRow
      rw [hRow'] at hFound
      cases hFound
      exact ⟨row, rfl, hBecomes⟩
  intro k k' new new' hNew hNew' hActive hActive' hSame
  obtain ⟨row, hRow, hBecomes⟩ := hOld k new hNew
  obtain ⟨row', hRow', hBecomes'⟩ := hOld k' new' hNew'
  refine h k k' row row' hRow hRow' (hBecomes.active hActive) (hBecomes'.active hActive') ?_
  rw [← hBecomes.investigationId, ← hBecomes'.investigationId]
  exact hSame

theorem Single.setRun {runId : String} {row : RunRow} {record : RunRecord}
    (h : Single s) (hRow : s.runs.find runId = some row)
    (hState : row.state ∈ terminalStates → record.state = row.state) :
    Single (s.setRun runId record) := by
  refine h.keeps (Keeps.setRun hRow hState) fun k hNone => ?_
  rw [← Option.isNone_iff_eq_none, ← Option.not_isSome, Store.find_setRun_isSome]
  simpa using hNone

theorem Single.addRun {record : RunRecord} (h : Single s)
    (hFree : s.runs.find record.runId = none)
    (hSlot : ∀ k row, s.runs.find k = some row → row.Active →
      row.investigationId ≠ record.investigationId) : Single (s.addRun record) := by
  intro k k' row row' hRow hRow' hActive hActive' hSame
  by_cases hk : k = record.runId
  · by_cases hk' : k' = record.runId
    · rw [hk, hk']
    · subst hk
      rw [Store.find_addRun_self hFree] at hRow
      rw [Store.find_addRun_ne hFree hk'] at hRow'
      cases hRow
      exact (hSlot k' row' hRow' hActive' hSame.symm).elim
  · rw [Store.find_addRun_ne hFree hk] at hRow
    by_cases hk' : k' = record.runId
    · subst hk'
      rw [Store.find_addRun_self hFree] at hRow'
      cases hRow'
      exact (hSlot k row hRow hActive hSame).elim
    · rw [Store.find_addRun_ne hFree hk'] at hRow'
      exact h k k' row row' hRow hRow' hActive hActive' hSame

section RetryEvents

variable {s s' : Store} {source eventType : String} {payload : Payload}

theorem RetryChild.of_log {parentRunId c : String}
    (h : RetryChild (s.log runId source eventType payload) parentRunId c) :
    RetryChild s parentRunId c ∨ (eventType = "run.retry_created" ∧ parentRunId = runId ∧
      payload.getStr "parent_run_id" = some parentRunId ∧
      payload.getStr "child_run_id" = some c) := by
  obtain ⟨e, he, hType, hParent, hChild⟩ := h
  by_cases hk : parentRunId = runId
  · subst hk
    rw [Store.eventsOf_log_self, List.mem_append, List.mem_singleton] at he
    rcases he with he | rfl
    · exact .inl ⟨e, he, hType, hParent, hChild⟩
    · exact .inr ⟨hType, rfl, hParent, hChild⟩
  · rw [Store.eventsOf_log_ne hk] at he
    exact .inl ⟨e, he, hType, hParent, hChild⟩

/-- A step that keeps the rows and the slots and records no new retry. -/
theorem RetryInv.keeps (h : RetryInv s) (hKeeps : Keeps s s') (hRetries : s'.retries = s.retries)
    (hEvents : ∀ parentRunId c, RetryChild s' parentRunId c → RetryChild s parentRunId c) :
    RetryInv s' where
  parents := by
    intro parentRunId slot hSlot
    rw [hRetries] at hSlot
    obtain ⟨row, hRow, hTerminal⟩ := h.parents parentRunId slot hSlot
    obtain ⟨row', hRow', hBecomes⟩ := hKeeps parentRunId row hRow
    exact ⟨row', hRow', hBecomes.absorbed hTerminal ▸ hTerminal⟩
  children := by
    intro parentRunId c hChild
    obtain ⟨slot, row, hSlot, hRow, hEnded⟩ := h.children parentRunId c (hEvents _ _ hChild)
    obtain ⟨row', hRow', hBecomes⟩ := hKeeps c row hRow
    refine ⟨slot, row', hRetries ▸ hSlot, hRow', hEnded.imp_right fun hTerminal => ?_⟩
    exact hBecomes.absorbed hTerminal ▸ hTerminal

theorem RetryInv.log (h : RetryInv s) (hType : eventType ≠ "run.retry_created") :
    RetryInv (s.log runId source eventType payload) := by
  refine h.keeps (Keeps.refl s) rfl fun parentRunId c hChild => ?_
  exact hChild.of_log.resolve_right fun hNew => hType hNew.1

/-- The events of a new retry record its child under its parent, and nothing else. -/
theorem RetryChild.of_addRetry {existing : Option (RetryRow × RunRow)} {record : RunRecord}
    {parentRunId key digest p c : String} (hne : parentRunId ≠ record.runId)
    (h : RetryChild (s.addRetry existing record parentRunId key digest) p c) :
    RetryChild s p c ∨ (p = parentRunId ∧ c = record.runId) := by
  rcases h.of_log with h | ⟨_, rfl, hParent, _⟩
  · rcases h.of_log with h | ⟨hType, _⟩
    · rcases h.of_log with h | ⟨_, rfl, _, hChild⟩
      · cases existing with
        | none => exact .inl h
        | some q => exact .inl (h.of_log.resolve_right fun hNew => by simp at hNew)
      · have hEq : some record.runId = some c := hChild
        exact .inr ⟨rfl, (Option.some.inj hEq).symm⟩
    · simp at hType
  · have hEq : some parentRunId = some record.runId := hParent
    exact (hne (Option.some.inj hEq)).elim

end RetryEvents

/-! ## Steps -/

namespace ActiveInv

variable {s s₁ : Store}

section

variable (h : ActiveInv s)
include h

theorem claim {investigationId : Option String} {one : Bool}
    {cutoff : Option Instant} {now : Instant}
    (hClaim : Returns (claimActiveSlot investigationId one cutoff now) s () s₁) :
    ActiveInv s₁ ∧ Keeps s s₁ ∧ s₁.retries = s.retries ∧
      (one = true → ∀ k row, s₁.runs.find k = some row → row.Active →
        row.investigationId ≠ investigationId) := by
  rcases claimActiveSlot_returns hClaim with ⟨rfl, hNone⟩ |
    ⟨k, active, hOne, hActive, hPaused, _, rfl⟩
  · refine ⟨h, Keeps.refl _, rfl, fun hOne k row hRow hLive => ?_⟩
    exact Store.activeRun_eq_none (hNone hOne) hRow hLive.1 hLive.2
  · obtain ⟨hRow, hLive, hConversation, hSame⟩ := Store.activeRun_eq_some hActive
    have hKey := h.rows.keyed k active hRow
    have hState :
      active.state ∈ terminalStates → (active.cancelledStale now).state = active.state :=
      fun hTerminal => (hLive hTerminal).elim
    have hKeeps : Keeps s (s.setRun k (active.cancelledStale now)) := Keeps.setRun hRow hState
    have hSingle := h.single.setRun hRow hState
    unfold Store.reclaim
    rw [hKey]
    refine ⟨⟨?_, hSingle, ?_⟩, hKeeps.of_runs_eq rfl, rfl, fun _ k' row' hRow' hLive' hInv => ?_⟩
    · have hId : (active.cancelledStale now).runId = k := hKey
      exact (h.rows.setRun hId).of_runs_eq rfl
    · exact (h.retries.keeps hKeeps rfl fun _ _ hChild => hChild).log (by simp)
    · rw [Store.log_runs] at hRow'
      by_cases hk : k' = k
      · -- the reclaimed row itself is cancelled
        subst hk
        rw [Store.find_setRun_self, hRow] at hRow'
        cases hRow'
        exact hLive'.1 (by simp [Store.rewritten, RunRow.cancelledStale, terminalStates])
      · rw [Store.find_setRun_ne hk] at hRow'
        refine hk (h.single k' k row' active hRow' hRow hLive' ⟨hLive, hConversation⟩ ?_)
        rw [hInv, hSame]

theorem announce {payload : Payload} (hFree : s.runs.find record.runId = none)
    (hSlot : ∀ k row, s.runs.find k = some row → row.Active →
      row.investigationId ≠ record.investigationId) : ActiveInv (s.announce record payload) where
  rows := (h.rows.addRun hFree).of_runs_eq rfl
  single := h.single.addRun hFree hSlot
  retries := (h.retries.keeps (Keeps.addRun hFree) rfl fun _ _ hChild => hChild).log (by simp)

theorem addRetry {existing : Option (RetryRow × RunRow)}
    {parentRunId key digest : String} {parent : RunRow}
    (hFree : s.runs.find record.runId = none) (hParent : s.runs.find parentRunId = some parent)
    (hTerminal : parent.state ∈ terminalStates)
    (hEnded : ∀ slot row, s.retries.find parentRunId = some slot →
      s.runs.find slot.childRunId = some row → row.state ∈ terminalStates)
    (hSlot : ∀ k row, s.runs.find k = some row → row.Active →
      row.investigationId ≠ record.investigationId) :
    ActiveInv (s.addRetry existing record parentRunId key digest) := by
  have hKeeps : Keeps s (s.addRetry existing record parentRunId key digest) :=
    (Keeps.addRun hFree).of_runs_eq Store.addRetry_runs
  have hne : parentRunId ≠ record.runId := by
    rintro rfl
    rw [hFree] at hParent
    cases hParent
  have hNew : (s.addRetry existing record parentRunId key digest).runs.find record.runId =
      some (Store.inserted record) := by
    rw [Store.addRetry_runs]
    exact Store.find_addRun_self hFree
  have hOther : ∀ p, p ≠ parentRunId →
      (s.addRetry existing record parentRunId key digest).retries.find p = s.retries.find p := by
    intro p hp
    rw [Store.addRetry_retries]
    exact Store.find_setRetrySlot_ne hp
  have hOwn : (s.addRetry existing record parentRunId key digest).retries.find parentRunId =
      some ⟨record.runId, key, digest, record.createdAt⟩ := by
    rw [Store.addRetry_retries]
    exact Store.find_setRetrySlot_self
  refine ⟨(h.rows.addRun hFree).of_runs_eq Store.addRetry_runs, ?_, ?_, ?_⟩
  · intro k k' row row' hRow hRow'
    rw [Store.addRetry_runs] at hRow hRow'
    exact h.single.addRun hFree hSlot k k' row row' hRow hRow'
  · intro p slot hFound
    by_cases hp : p = parentRunId
    · subst hp
      obtain ⟨row, hRow, hBecomes⟩ := hKeeps p parent hParent
      exact ⟨row, hRow, hBecomes.absorbed hTerminal ▸ hTerminal⟩
    · rw [hOther p hp] at hFound
      obtain ⟨row, hRow, hTerminal'⟩ := h.retries.parents p slot hFound
      obtain ⟨row', hRow', hBecomes⟩ := hKeeps p row hRow
      exact ⟨row', hRow', hBecomes.absorbed hTerminal' ▸ hTerminal'⟩
  · intro p c hChild
    rcases hChild.of_addRetry hne with hOld | ⟨rfl, rfl⟩
    · obtain ⟨slot, row, hFound, hRow, hSlotted⟩ := h.retries.children p c hOld
      obtain ⟨row', hRow', hBecomes⟩ := hKeeps c row hRow
      by_cases hp : p = parentRunId
      · subst hp
        -- the child it supersedes has ended, like every child before that one
        have hTerminal' : row.state ∈ terminalStates := by
          rcases hSlotted with rfl | hTerminal'
          · exact hEnded slot row hFound hRow
          · exact hTerminal'
        exact ⟨_, row', hOwn, hRow', .inr (hBecomes.absorbed hTerminal' ▸ hTerminal')⟩
      · refine ⟨slot, row', ?_, hRow', hSlotted.imp_right fun hTerminal' => ?_⟩
        · rw [hOther p hp]
          exact hFound
        · exact hBecomes.absorbed hTerminal' ▸ hTerminal'
    · exact ⟨_, _, hOwn, hNew, .inl rfl⟩

theorem transition_keeps {runId : String} {target : RunState} {row : RunRow}
    (hRow : s.runs.find runId = some row)
    (hValid : validTransition row.payload.state target = true) : row.state ∉ terminalStates := by
  intro hTerminal
  rw [(h.rows.mirrored runId row hRow).1] at hTerminal
  rw [not_validTransition_of_terminal hTerminal] at hValid
  cases hValid

theorem effect {op : StoreOp} {s' : Store} (hState : StatePreserving s op)
    (hSlot : SlotClaiming op) (hEffect : op.Effect s s') : ActiveInv s' ∧ Keeps s s' := by
  cases hEffect with
  | createRun hClaim hFree =>
    obtain ⟨h₁, hKeeps, _, hNone⟩ := h.claim hClaim
    exact ⟨h₁.announce hFree (hNone hSlot), hKeeps.trans ((Keeps.addRun hFree).of_runs_eq rfl)⟩
  | replayRetry => exact ⟨h, Keeps.refl s⟩
  | @openRetry record parentRunId key digest one cutoff now parent s₁ hSlots hParent hTerminal
      hClaim hFree _ =>
    obtain ⟨h₁, hKeeps, hRetries, hNone⟩ := h.claim hClaim
    obtain ⟨parent', hParent', hBecomes⟩ := hKeeps parentRunId parent hParent
    have hEnded : ∀ slot row, s₁.retries.find parentRunId = some slot →
        s₁.runs.find slot.childRunId = some row → row.state ∈ terminalStates := by
      intro slot row hFound hRow
      rw [hRetries] at hFound
      cases hChild : s.runs.find slot.childRunId with
      | none =>
        have hSome := claim_isSome hClaim slot.childRunId
        rw [hRow, hChild] at hSome
        cases hSome
      | some child =>
        have hJoined : s.retrySlot parentRunId = some (slot, child) := by
          simp [Store.retrySlot, hFound, hChild]
        have hTerminal' := (hSlots slot child hJoined).1
        obtain ⟨row', hRow', hBecomes'⟩ := hKeeps slot.childRunId child hChild
        rw [hRow] at hRow'
        cases hRow'
        exact hBecomes'.absorbed hTerminal' ▸ hTerminal'
    refine ⟨h₁.addRetry hFree hParent' ?_ hEnded (hNone hSlot), ?_⟩
    · exact hBecomes.absorbed hTerminal ▸ hTerminal
    · exact hKeeps.trans ((Keeps.addRun hFree).of_runs_eq Store.addRetry_runs)
  | @transitionRun runId target source payload updates now row hRow hValid =>
    have hLive : row.state ∈ terminalStates →
        (transitioned row target updates now).state = row.state :=
      fun hTerminal => (h.transition_keeps hRow hValid hTerminal).elim
    have hId : (transitioned row target updates now).runId = runId :=
      (transitioned_runId row target updates now).trans (h.rows.keyed runId row hRow)
    refine ⟨⟨(h.rows.setRun hId).of_runs_eq rfl, h.single.setRun hRow hLive, ?_⟩, ?_⟩
    · exact (h.retries.keeps (Keeps.setRun hRow hLive) rfl fun _ _ hChild => hChild).log (by simp)
    · exact (Keeps.setRun hRow hLive).of_runs_eq rfl
  | @resetMethodologyRevisionBudget runId reason now row hRow =>
    have hSame : row.state ∈ terminalStates → (row.budgetReset now).state = row.state :=
      fun _ => (h.rows.mirrored runId row hRow).1.symm
    have hId : (row.budgetReset now).runId = runId := h.rows.keyed runId row hRow
    refine ⟨⟨(h.rows.setRun hId).of_runs_eq rfl, h.single.setRun hRow hSame, ?_⟩, ?_⟩
    · exact (h.retries.keeps (Keeps.setRun hRow hSame) rfl fun _ _ hChild => hChild).log (by simp)
    · exact (Keeps.setRun hRow hSame).of_runs_eq rfl
  | appendEvent hRow =>
    exact ⟨⟨h.rows.of_runs_eq rfl, h.single, h.retries.log hSlot⟩, Keeps.refl s⟩
  | resolveAction => exact ⟨h, Keeps.refl s⟩
  | @saveAction action source payload row hRow =>
    have hRetries : RetryInv { s with actions := s.actions.add action.actionId action } :=
      ⟨h.retries.parents, h.retries.children⟩
    exact ⟨⟨h.rows.of_runs_eq rfl, h.single, hRetries.log (by simp)⟩, Keeps.refl s⟩
  | @replaceRun record expected now row hRow hVersion =>
    have hSame : row.state ∈ terminalStates → record.state = row.state := fun _ => hState row hRow
    exact ⟨⟨h.rows.setRun rfl, h.single.setRun hRow hSame,
      h.retries.keeps (Keeps.setRun hRow hSame) rfl fun _ _ hChild => hChild⟩,
      Keeps.setRun hRow hSame⟩

theorem step {op : StoreOp} (hState : StatePreserving s op)
    (hSlot : SlotClaiming op) : ActiveInv (stepStore s op) ∧ Keeps s (stepStore s op) := by
  rcases stepStore_cases s op with hSame | hEffect
  · rw [hSame]
    exact ⟨h, Keeps.refl s⟩
  · exact h.effect hState hSlot hEffect

/-- Along an admitted history the invariant holds and no terminal run comes back. -/
theorem run {ops : List StoreOp}
    (hOps : Along stepStore (fun s op => StatePreserving s op ∧ SlotClaiming op) s ops) :
    ActiveInv (exec stepStore s ops) ∧ Keeps s (exec stepStore s ops) := by
  induction ops generalizing s with
  | nil => exact ⟨h, Keeps.refl s⟩
  | cons op ops ih =>
    obtain ⟨⟨hState, hSlot⟩, hRest⟩ := hOps
    obtain ⟨hNext, hKeeps⟩ := h.step hState hSlot
    obtain ⟨hEnd, hKeepsRest⟩ := ih hNext hRest
    exact ⟨hEnd, hKeeps.trans hKeepsRest⟩

end

end ActiveInv

/-- In every state reached by calls that claim the slot there is at most one active run per
investigation and one live retry per parent, and a run that has ended stays so. -/
theorem oneActiveRun_perInvestigation (ops : List StoreOp)
    (hOps : Along stepStore (fun s op => StatePreserving s op ∧ SlotClaiming op) Store.empty ops) :
    (∀ pre, pre <+: ops → OneActive (exec stepStore Store.empty pre)) ∧
      ∀ pre mid post, ops = pre ++ mid ++ post → ∀ k row,
        (exec stepStore Store.empty pre).runs.find k = some row → row.state ∈ terminalStates →
        ∃ row', (exec stepStore Store.empty (pre ++ mid)).runs.find k = some row' ∧
          row'.state ∈ terminalStates := by
  refine ⟨?_, ?_⟩
  · rintro pre ⟨post, rfl⟩
    exact (ActiveInv.empty.run (along_append.mp hOps).1).1.oneActive
  · rintro pre mid post rfl k row hRow hTerminal
    obtain ⟨hPre, hMid⟩ := along_append.mp (along_append.mp hOps).1
    obtain ⟨_, hKeeps⟩ := (ActiveInv.empty.run hPre).1.run hMid
    obtain ⟨row', hRow', hBecomes⟩ := hKeeps k row hRow
    rw [exec_append]
    exact ⟨row', hRow', hBecomes.absorbed hTerminal ▸ hTerminal⟩

/-- A run fails and is retried once; a second retry under another key finds the child alive. -/
def retriedHistory : List StoreOp :=
  [.createRun (freshRun "parent" "objective" 0) true none 0,
    .transitionRun "parent" .failed "orchestrator" [] .none 1,
    .createTerminalRetry (freshRun "child" "objective" 2) "parent" "first" "digest" true none 2,
    .createTerminalRetry (freshRun "other" "objective" 3) "parent" "second" "digest" true none 3,
    .createRun (freshRun "late" "objective" 4) true none 4]

theorem oneActiveRun_perInvestigation_retriedHistory :
    Along stepStore (fun s op => StatePreserving s op ∧ SlotClaiming op) Store.empty
        retriedHistory ∧
      OneActive (exec stepStore Store.empty retriedHistory) := by
  have hOps : Along stepStore (fun s op => StatePreserving s op ∧ SlotClaiming op) Store.empty
      retriedHistory :=
    ⟨⟨trivial, rfl⟩, ⟨trivial, trivial⟩, ⟨trivial, rfl⟩, ⟨trivial, rfl⟩, ⟨trivial, rfl⟩, trivial⟩
  exact ⟨hOps,
    (oneActiveRun_perInvestigation retriedHistory hOps).1 retriedHistory (List.prefix_refl _)⟩

end Glasslab.Storage
