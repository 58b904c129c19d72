import Glasslab.Foundation.Interleaving
import Glasslab.WorkflowApi.IdempotentCreate
import Glasslab.WorkflowApi.RunRoutes

/-!
# Terminal statuses under interleaved requests

Any number of requests run at once, and each access to the store is atomic. A request that saves a
whole record saves the copy it read, or made, before: only `cancel_run` looks at what is stored when
it writes. Two things go wrong. A request may save a copy of a run that another request has ended in
the meantime, and a request that reads an ended run may report something else of it. In the runs in
which neither happens no terminal status is undone (`terminal_status_kept`).
-/

namespace Glasslab.WorkflowApi

open Foundation Machine List Raising

inductive RunCall where
  | create (attempt : Attempt) (idempotencyKey : String)
  | results (runId : String) (request : GenericExperimentResultIngestRequest) (now : Instant)
  | ingest (runId : String) (clock : Clock) (directory : RunDirectory)
  | cancel (runId : String) (live : RunRecord → LiveAnswer) (answer : CancelAnswer) (now : Instant)
  | refresh (runId : String) (clock : Clock) (directory : RunDirectory)
      (live : RunRecord → LiveAnswer)

/-- Where a request stands: its next access to the store. -/
inductive RunTask where
  | begin (call : RunCall)
  /-- The record is saved, and then the one with the receipt, if there is one. The copy is the
  record that the request has read. -/
  | save (copy : Option RunRecord) (record : RunRecord) (receipt : Option RunRecord)
  | transition (runId : String) (now : Instant)
  | done

/-- The record that is saved once the job was submitted. -/
def withReceipt (surroundings : Surroundings) (record : RunRecord) : Option RunRecord :=
  match surroundings.submitRun record.manifest with
  | .accepted submission =>
    some { record with jobSubmission := submission, updatedAt := surroundings.submittedAt }
  | _ => none

/-- The first access of a request, which reads, and what it leads to. -/
def RunCall.start (store : RunStore) : RunCall → RunTask
  | .create attempt key =>
    if (store.getRunByIdempotencyKey key).isSome ∧ key ≠ "" then .done
    else
      match attempt.accept key with
      | .error _ => .done
      | .ok creation =>
        .save none creation.record (withReceipt attempt.surroundings creation.record)
  | .results runId request now =>
    match store.getRun runId with
    | none => .done
    | some record =>
      match reportResults request now record with
      | .error _ => .done
      | .ok updated => .save (some record) updated none
  | .ingest runId clock directory =>
    match store.getRun runId with
    | none => .done
    | some record =>
      if record.artifactBundleVerified then .done
      else
        match loadTerminalBundle clock directory record with
        | .error _ => .done
        | .ok bundle => .save (some record) (verifyBundle bundle record) none
  | .cancel runId live answer now =>
    match store.getRun runId with
    | none => .done
    | some record =>
      match checkCancel record (live record) answer with
      | .transition => .transition runId now
      | _ => .done
  | .refresh runId clock directory live =>
    match store.getRun runId with
    | none => .done
    | some record =>
      match resolveRunStatus clock directory (live record) record with
      | .error _ => .done
      | .ok resolved => (refreshed resolved record).elim .done fun updated =>
        .save (some record) updated none

def RunTask.next (store : RunStore) : RunTask → RunStore × RunTask
  | .begin call => (store, call.start store)
  | .save _ record receipt =>
    match store.saveRun record with
    | .error _ => (store, .done)
    | .ok store => (store, receipt.elim .done fun record => .save none record none)
  | .transition runId now =>
    ((store.transitionRunStatus runId cancellable (cancelledStatus runId now)).2, .done)
  | .done => (store, .done)

def runRequests : Program RunStore RunCall RunTask := ⟨.begin, RunTask.next⟩

def endedStates : List RunState := [.succeeded, .failed, .rejected, .cancelled]

def Kept (earlier later : RunState) : Prop :=
  (earlier ∈ endedStates → later ∈ endedStates) ∧
    ¬ (earlier = .cancelled ∧ later = .succeeded) ∧ ¬ (earlier = .succeeded ∧ later = .cancelled)

instance : DecidableRel Kept := fun _ _ => inferInstanceAs (Decidable (_ ∧ _))

def StatusKept (before after : RunStore) : Prop :=
  ∀ runId stored stored', before.getRun runId = some stored → after.getRun runId = some stored' →
    Kept stored.status.status stored'.status.status

/-! ## The condition -/

/-- The state that the status file reports, or the cluster where there is none. -/
def reportedState (clock : Clock) (directory : RunDirectory) (live : LiveAnswer) (runId : String) :
    Option RunState :=
  match loadStatusFromDisk clock directory runId, live with
  | .ok (some status), _ => some status.status
  | .ok none, .status status => some status.status
  | _, _ => none

/-- What a request reads: no success is reported of a cancelled run, with its artifacts or in its
status file, and where the status of an ended run is refreshed, the same state is reported. -/
def RunCall.ReadsRight (store : RunStore) : RunCall → Prop
  | .create _ _ => True
  | .results runId request _ => ∀ record ∈ store.getRun runId, record.status.status = .cancelled →
    request.terminalStatus = .succeeded → missingRequired request record ≠ []
  | .ingest runId clock directory => ∀ record ∈ store.getRun runId,
    record.status.status = .cancelled →
      reportedState clock directory .nothing record.runId ≠ some .succeeded
  | .cancel _ _ _ _ => True
  | .refresh runId clock directory live => ∀ record ∈ store.getRun runId,
    record.status.status ∈ endedStates →
      ∀ state ∈ reportedState clock directory (live record) record.runId,
        state = record.status.status

instance (store : RunStore) : DecidablePred (RunCall.ReadsRight store)
  | .create _ _ => inferInstanceAs (Decidable True)
  | .results runId _ _ => inferInstanceAs (Decidable (∀ record ∈ store.getRun runId, _))
  | .ingest runId _ _ => inferInstanceAs (Decidable (∀ record ∈ store.getRun runId, _))
  | .cancel _ _ _ _ => inferInstanceAs (Decidable True)
  | .refresh runId _ _ _ => inferInstanceAs (Decidable (∀ record ∈ store.getRun runId, _))

/-- No other request has ended the run since the copy was read. Nothing is asked of a save that the
store refuses. -/
def Undisturbed (store : RunStore) (copy : Option RunRecord) (record : RunRecord) : Prop :=
  store.conflicts record = false → ∀ stored ∈ store.getRun record.runId,
    stored.status.status ∈ endedStates →
      copy.map (fun copy => copy.status.status) = some stored.status.status

instance (store : RunStore) (copy : Option RunRecord) (record : RunRecord) :
    Decidable (Undisturbed store copy record) := inferInstanceAs (Decidable (_ → _))

def RightStep (s : Threads RunStore RunTask) : Move RunCall → Prop
  | .call _ => True
  | .step i =>
    match s.locals[i]? with
    | some (.begin call) => call.ReadsRight s.shared
    | some (.save copy record _) => Undisturbed s.shared copy record
    | _ => True

instance (s : Threads RunStore RunTask) : DecidablePred (RightStep s)
  | .call _ => inferInstanceAs (Decidable True)
  | .step i =>
    match h : s.locals[i]? with
    | some (.begin call) =>
      decidable_of_iff (call.ReadsRight s.shared) (by simp only [RightStep, h])
    | some (.save copy record _) =>
      decidable_of_iff (Undisturbed s.shared copy record) (by simp only [RightStep, h])
    | some (.transition _ _) | some .done | none => .isTrue (by simp only [RightStep, h])

variable {store : RunStore}

section Reads

variable {record updated : RunRecord}

theorem reportResults_status {request : GenericExperimentResultIngestRequest} {now : Instant}
    (h : reportResults request now record = .ok updated) :
    missingRequired request record = [] ∧ updated.status.status = request.terminalStatus := by
  obtain ⟨hMissing, h⟩ := of_check h
  exact ⟨not_not.mp hMissing, Except.ok.inj h ▸ rfl⟩

variable {directory : RunDirectory} {clock : Clock}

theorem loadTerminalBundle_status
    {bundle : TerminalBundle} (h : loadTerminalBundle clock directory record = .ok bundle) :
    bundle.status.status ∈ bundleStates ∧
      reportedState clock directory .nothing record.runId = some bundle.status.status := by
  unfold reportedState
  obtain ⟨found, hFound, h⟩ := of_bind h
  rw [hFound]
  cases found with
  | none => cases h
  | some diskStatus =>
    obtain ⟨-, h⟩ := of_check h
    obtain ⟨hState, h⟩ := of_check h
    obtain ⟨-, h⟩ := of_check h
    obtain ⟨metrics, -, h⟩ := of_bind h
    cases hIndex : directory.artifacts with
    | none =>
      rw [hIndex] at h
      cases h
    | some artifacts =>
      rw [hIndex] at h
      exact Except.ok.inj h ▸ ⟨not_not.mp hState, rfl⟩

/-- A resolved status has the state that was stored, or one that was reported. -/
theorem resolveRunStatus_state {live : LiveAnswer}
    {resolved : RunStatus} (h : resolveRunStatus clock directory live record = .ok resolved) :
    resolved.status = record.status.status ∨
      reportedState clock directory live record.runId = some resolved.status := by
  unfold reportedState
  obtain ⟨found, hFound, h⟩ := of_bind h
  rw [hFound]
  cases found with
  | some status => exact .inr (Except.ok.inj h ▸ rfl)
  | none =>
    cases live with
    | raised message => cases h
    | unavailable => exact .inl (Except.ok.inj h ▸ rfl)
    | status status => exact .inr (Except.ok.inj h ▸ rfl)
    | nothing => exact .inl (Except.ok.inj h ▸ rfl)

theorem kept_refl (state : RunState) : Kept state state := by
  cases state <;> decide

variable {earlier later : RunState}

theorem kept_of_not_ended (h : earlier ∉ endedStates) :
    Kept earlier later := by
  refine ⟨fun hEnded => absurd hEnded h, ?_, ?_⟩
  · rintro ⟨rfl, -⟩
    exact h (by decide)
  · rintro ⟨rfl, -⟩
    exact h (by decide)

theorem kept_of_bundleState (hLater : later ∈ bundleStates)
    (h : earlier = .cancelled → later ≠ .succeeded) : Kept earlier later := by
  refine ⟨fun _ => ?_, ?_, ?_⟩
  · revert hLater
    cases later <;> decide
  · rintro ⟨hEarlier, hSucceeded⟩
    exact h hEarlier hSucceeded
  · rintro ⟨-, rfl⟩
    revert hLater
    decide

/-- What is saved does not undo the status of the copy that was read. -/
def RunTask.KeepsCopy : RunTask → Prop
  | .save copy record _ => ∀ read ∈ copy, Kept read.status.status record.status.status
  | .begin _ | .transition _ _ | .done => True

theorem start_keepsCopy {call : RunCall} (h : call.ReadsRight store) :
    (call.start store).KeepsCopy := by
  unfold RunCall.start
  cases call with
  | create attempt key =>
    dsimp only
    split
    · trivial
    · split
      · trivial
      · exact fun read hRead => by cases hRead
  | results runId request now =>
    dsimp only
    cases hRun : store.getRun runId with
    | none => trivial
    | some record =>
      dsimp only
      cases hReport : reportResults request now record with
      | error failure => trivial
      | ok updated =>
        obtain ⟨hMissing, hStatus⟩ := reportResults_status hReport
        rintro read ⟨⟩
        rw [hStatus]
        exact kept_of_bundleState request.terminal fun hCancelled hSucceeded =>
          h record hRun hCancelled hSucceeded hMissing
  | ingest runId clock directory =>
    dsimp only
    cases hRun : store.getRun runId with
    | none => trivial
    | some record =>
      dsimp only
      split
      · trivial
      · cases hLoad : loadTerminalBundle clock directory record with
        | error failure => trivial
        | ok bundle =>
          obtain ⟨hState, hReported⟩ := loadTerminalBundle_status hLoad
          rintro read ⟨⟩
          refine kept_of_bundleState hState fun hCancelled hSucceeded => ?_
          exact h record hRun hCancelled (hSucceeded ▸ hReported)
  | cancel runId live answer now =>
    dsimp only
    split
    · trivial
    · split <;> trivial
  | refresh runId clock directory live =>
    dsimp only
    cases hRun : store.getRun runId with
    | none => trivial
    | some record =>
      dsimp only
      cases hResolve : resolveRunStatus clock directory (live record) record with
      | error failure => trivial
      | ok resolved =>
        dsimp only
        unfold refreshed
        split
        · rintro read ⟨⟩
          by_cases hEnded : record.status.status ∈ endedStates
          · have hSame : resolved.status = record.status.status := by
              rcases resolveRunStatus_state hResolve with hStored | hReported
              · exact hStored
              · exact h record hRun hEnded resolved.status hReported
            rw [hSame]
            exact kept_refl _
          · exact kept_of_not_ended hEnded
        · trivial

end Reads

/-! ## One step -/

section Step

variable {record stored : RunRecord}

theorem statusKept_refl (store : RunStore) : StatusKept store store := by
  intro runId stored stored' h h'
  obtain rfl := Option.some.inj (h.symm.trans h')
  exact kept_refl _

theorem statusKept_putRun (h : ∀ stored, store.getRun record.runId = some stored →
    Kept stored.status.status record.status.status) : StatusKept store (store.putRun record) := by
  intro runId stored stored' hStored hStored'
  rw [RunStore.getRun_putRun] at hStored'
  split at hStored'
  next hId =>
    obtain rfl := Option.some.inj hStored'
    exact h stored (hId ▸ hStored)
  next hId =>
    obtain rfl := Option.some.inj (hStored.symm.trans hStored')
    exact kept_refl _

theorem statusKept_transition (runId : String) (now : Instant) :
    StatusKept store
      (store.transitionRunStatus runId cancellable (cancelledStatus runId now)).2 := by
  unfold RunStore.transitionRunStatus
  cases hRun : store.getRun runId with
  | none => exact statusKept_refl store
  | some record =>
    dsimp only
    split
    · exact statusKept_refl store
    next hFrom =>
      have hState : record.status.status ∈ cancellable := not_not.mp hFrom
      intro other stored stored' hStored hStored'
      unfold RunStore.getRun at hStored'
      rw [Dict.lookup_set] at hStored'
      split at hStored'
      next hId =>
        subst hId
        obtain rfl := Option.some.inj (hStored.symm.trans hRun)
        obtain rfl := Option.some.inj hStored'
        revert hState
        generalize stored.status.status = state
        show state ∈ cancellable → Kept state .cancelled
        cases state <;> decide
      next hId =>
        obtain rfl := Option.some.inj (hStored.symm.trans hStored')
        exact kept_refl _

/-- A copy that nobody has overtaken replaces its run. -/
theorem statusKept_save {copy receipt : Option RunRecord}
    (hKeeps : (RunTask.save copy record receipt).KeepsCopy)
    (hUndisturbed : Undisturbed store copy record) :
    StatusKept store ((RunTask.save copy record receipt).next store).1 := by
  unfold RunTask.next RunStore.saveRun
  dsimp only
  cases hConflict : store.conflicts record with
  | true => exact statusKept_refl store
  | false =>
    refine statusKept_putRun fun stored hStored => ?_
    by_cases hEnded : stored.status.status ∈ endedStates
    · obtain ⟨read, hRead, hSame⟩ :=
        Option.map_eq_some_iff.mp (hUndisturbed hConflict stored hStored hEnded)
      rw [← hSame]
      exact hKeeps read hRead
    · exact kept_of_not_ended hEnded

theorem next_keepsCopy {task : RunTask}
    (h : ∀ call, task = .begin call → call.ReadsRight store) : (task.next store).2.KeepsCopy := by
  cases task with
  | begin call => exact start_keepsCopy (h call rfl)
  | save copy record receipt =>
    unfold RunTask.next
    dsimp only
    split
    · trivial
    · cases receipt with
      | none => trivial
      | some r => exact fun read hRead => by cases hRead
  | transition runId now => trivial
  | done => trivial

end Step

section Run

variable {s : Threads RunStore RunTask} {move : Move RunCall}

theorem keepsCopy_step (hRight : RightStep s move) (h : ∀ l ∈ s.locals, l.KeepsCopy) :
    ∀ l ∈ (runRequests.step s move).locals, l.KeepsCopy := by
  intro l hl
  obtain ⟨j, hj⟩ := mem_iff_getElem?.mp hl
  cases move with
  | call call =>
    rcases Program.locals_call hj with hOld | ⟨-, rfl⟩
    · exact h l (mem_of_getElem? hOld)
    · trivial
  | step i =>
    cases hTask : s.locals[i]? with
    | none =>
      rw [Program.step_of_none hTask] at hl
      exact h l hl
    | some task =>
      rcases Program.locals_step hTask hj with ⟨-, rfl⟩ | ⟨-, hOld⟩
      · refine next_keepsCopy fun call hCall => ?_
        rw [RightStep, hTask, hCall] at hRight
        exact hRight
      · exact h l (mem_of_getElem? hOld)

theorem statusKept_step (hRight : RightStep s move) (h : ∀ l ∈ s.locals, l.KeepsCopy) :
    StatusKept s.shared (runRequests.step s move).shared := by
  cases move with
  | call call => exact statusKept_refl _
  | step i =>
    cases hTask : s.locals[i]? with
    | none =>
      rw [Program.step_of_none hTask]
      exact statusKept_refl _
    | some task =>
      rw [Program.step_of_getElem? hTask]
      cases task with
      | begin call => exact statusKept_refl _
      | save copy record receipt =>
        rw [RightStep, hTask] at hRight
        exact statusKept_save (h _ (mem_of_getElem? hTask)) hRight
      | transition runId now => exact statusKept_transition runId now
      | done => exact statusKept_refl _

end Run

/-- **A terminal status is never undone** in a run in which the requests read what agrees with their
reports, and no request ends a run between the read and the save of another one. -/
theorem terminal_status_kept {moves : List (Move RunCall)}
    (h : Along runRequests.step RightStep ⟨store, []⟩ moves) :
    Along runRequests.step
      (fun s move => StatusKept s.shared (runRequests.step s move).shared) ⟨store, []⟩ moves := by
  have hStart : ∀ l ∈ (⟨store, []⟩ : Threads RunStore RunTask).locals, l.KeepsCopy := by
    intro l hl
    cases hl
  exact h.along_of_invariant (fun _ _ hRight hLocals => keepsCopy_step hRight hLocals) hStart
    fun _ _ hRight hLocals => statusKept_step hRight hLocals

def reportedSuccess : RunCall :=
  .results "a"
    { terminalStatus := .succeeded, artifactRefs := [("metrics.json", "runs/a/metrics.json")] } 3

def cancellation : RunCall := .cancel "a" (fun _ => .nothing) .cancelled 2

/-- A run is created and submitted. -/
def created : List (Move RunCall) :=
  [.call (.create (tabularAttempt "a" tabularReceipt) "create-1"), .step 0, .step 0, .step 0]

/-- A result and a cancellation read the same record, and the result is saved first. The status is
refreshed afterwards. -/
def overtakenCancellation : List (Move RunCall) :=
  created ++ [.call reportedSuccess, .call cancellation, .step 2, .step 1, .step 1, .step 2,
    .call (.refresh "a" ⟨5, text "5", fun _ => none⟩ { status := .absent } fun record =>
      getLiveStatus record 5 (.job 1 0 0 [])), .step 3, .step 3]

theorem terminal_status_kept_overtaken :
    Along runRequests.step
        (fun s move => StatusKept s.shared (runRequests.step s move).shared) ⟨{}, []⟩
        overtakenCancellation ∧
      ((exec runRequests.step ⟨{}, []⟩ overtakenCancellation).shared.getRun "a").map
        (fun record => (record.status.status, record.updatedAt)) = some (.succeeded, 5) :=
  ⟨terminal_status_kept (by decide +kernel), by decide +kernel⟩

/-- A cancelled run of which success is reported afterwards. -/
def resurrection : List (Move RunCall) :=
  created ++ [.call cancellation, .step 1, .step 1, .call reportedSuccess, .step 2]

theorem cancelled_run_succeeds :
    ¬ Along runRequests.step
        (fun s move => StatusKept s.shared (runRequests.step s move).shared) ⟨{}, []⟩
        (resurrection ++ [.step 2]) := by
  intro h
  have hLast := (along_append.mp h).2.1
  have hBefore : ((exec runRequests.step ⟨{}, []⟩ resurrection).shared.getRun "a").map
      (fun record => record.status.status) = some .cancelled := by
    decide +kernel
  have hAfter :
    ((runRequests.step (exec runRequests.step ⟨{}, []⟩ resurrection) (.step 2)).shared.getRun
      "a").map (fun record => record.status.status) = some .succeeded := by
    decide +kernel
  obtain ⟨stored, hStored, hState⟩ := Option.map_eq_some_iff.mp hBefore
  obtain ⟨stored', hStored', hState'⟩ := Option.map_eq_some_iff.mp hAfter
  have hKept := hLast "a" stored stored' hStored hStored'
  rw [hState, hState'] at hKept
  revert hKept
  decide

end Glasslab.WorkflowApi
