import Glasslab.Foundation.Machine
import Glasslab.WorkflowApi.IdempotentCreate
import Glasslab.WorkflowApi.Schedules

/-!
# Approved reruns

A schedule is approved on a run, and keeps what the run was: its workflow, runner image, models,
resource profile and dataset. Before a rerun these are compared with the run they were taken from,
which never changes; the manifest of the rerun is filled from the workflow registry of that moment.
So a rerun is what was approved exactly if the registry still says so, and a rerun that the registry
or the cluster refuses leaves no execution behind (`approved_reruns_iff`).
-/

namespace Glasslab.WorkflowApi

open Foundation Machine Option

/-! ## One execution -/

/-- What the execution of one schedule meets. -/
structure RerunTurn where
  clock : Clock
  directory : RunDirectory
  job : JobAnswer
  surroundings : Surroundings
  executionId : String
  finishedAt : Instant

structure RerunCall where
  settings : Settings := {}
  registry : WorkflowRegistry
  /-- The limit on the size of the inputs of a request. -/
  fits : Entries → Bool
  turn : ScheduledOperationRecord → RerunTurn

def RerunTurn.resolve (turn : RerunTurn) (run : RunRecord) : Except Failure RunStatus :=
  resolveRunStatus turn.clock turn.directory (getLiveStatus run turn.clock.now turn.job) run

namespace Timetable

def withWorld (table : Timetable) (world : World) : Timetable := { table with world := world }

def withStore (table : Timetable) (store : RunStore) : Timetable :=
  table.withWorld { table.world with store := store }

/-- `save_execution`, and `save_schedule` of the copy that was executed. -/
def recordExecution (table : Timetable) (schedule : ScheduledOperationRecord)
    (execution : ScheduledExecutionRecord) : Timetable :=
  (table.saveExecution execution).saveSchedule
    (markExecuted execution.finishedAt execution.resultStatus execution.resultDetail schedule)

end Timetable

def refreshSource (turn : RerunTurn) (source : RunRecord) : Tx Timetable Failure RunRecord :=
  fun table =>
    match turn.resolve source with
    | .error failure => (.error failure, table)
    | .ok resolved =>
      match refreshed resolved source with
      | none => (.ok source, table)
      | some updated =>
        match table.world.store.saveRun updated with
        | .error clash => (.error (.raised clash.message), table)
        | .ok store => (.ok updated, table.withStore store)

section Execute

variable (call : RerunCall) (startedAt : Instant) (schedule : ScheduledOperationRecord)

def failClosed (reason : String) : Tx Timetable Failure ScheduledExecutionRecord := fun table =>
  let execution :=
    failedClosedExecution schedule startedAt (call.turn schedule).executionId reason
  (.ok execution, table.recordExecution schedule execution)

def submitRerun (source : RunRecord) (workflow : WorkflowRegistryEntry) :
    Tx Timetable Failure ScheduledExecutionRecord := fun table =>
  let turn := call.turn schedule
  match rerunRequest call.fits schedule source with
  | .error failure => (.error failure, table)
  | .ok request =>
    match createRunRecord request workflow call.settings (rerunOrigin source)
      (some (rerunKey schedule.scheduleId startedAt)) turn.surroundings table.world with
    | (.error failure, world) => (.error failure, table.withWorld world)
    | (.ok run, world) =>
      let execution :=
        rerunExecution schedule startedAt turn.finishedAt turn.executionId run.runId
      (.ok execution, (table.withWorld world).recordExecution schedule execution)

def rerunSource (source : RunRecord) : Tx Timetable Failure ScheduledExecutionRecord :=
  match driftReason schedule source with
  | some reason => failClosed call startedAt schedule reason
  | none =>
    match call.registry.getWorkflow source.workflowId with
    | none =>
      failClosed call startedAt schedule "workflow registry entry not found for scheduled rerun"
    | some workflow => submitRerun call startedAt schedule source workflow

def executeSchedule : Tx Timetable Failure ScheduledExecutionRecord := fun table =>
  match table.world.store.getRun (schedule.sourceRunId.getD "") with
  | none => failClosed call startedAt schedule "source run not found" table
  | some source =>
    (refreshSource (call.turn schedule) source >>= rerunSource call startedAt schedule) table

end Execute

/-- The loop over the schedules that were listed; an exception ends it. -/
def executeDue (call : RerunCall) (now : Instant) :
    List ScheduledOperationRecord → Tx Timetable Failure (List ScheduledExecutionRecord)
  | [] => pure []
  | schedule :: schedules =>
    match fires schedule now with
    | .error failure => Tx.raise failure
    | .ok false => executeDue call now schedules
    | .ok true => do
      let execution ← executeSchedule call now schedule
      let executions ← executeDue call now schedules
      return execution :: executions

def executeDueApprovedRerunSchedules (call : RerunCall) (now : Instant) :
    Tx Timetable Failure (List ScheduledExecutionRecord) := fun table =>
  executeDue call now (table.listSchedules .approvedRerun) table

inductive RerunEvent where
  /-- Any creation of a run. -/
  | create (attempt : Attempt) (key : String)
  /-- The stored status of a run changes. -/
  | report (runId : String) (status : RunStatus)
  /-- A schedule is approved on the latest run. -/
  | approve (request : ApprovedRerunScheduleCreateRequest) (settings : Settings) (turn : RerunTurn)
      (now : Instant) (scheduleId : String)
  | disable (scheduleId : String) (now : Instant)
  | runDue (call : RerunCall) (now : Instant)

def createApprovedRerunScheduleFromLatestRun (request : ApprovedRerunScheduleCreateRequest)
    (settings : Settings) (turn : RerunTurn) (now : Instant) (scheduleId : String)
    (table : Timetable) : Except Failure ScheduledOperationRecord := do
  let store := table.world.store
  let run ← (store.latestRunId.bind store.getRun).elim (.error (notFound "run not found")) .ok
  let status ← turn.resolve run
  buildApprovedRerunSchedule request { run with status := status } settings now scheduleId

def disableApprovedRerunSchedule (scheduleId : String) (now : Instant) (table : Timetable) :
    Except Failure ScheduledOperationRecord :=
  match table.getSchedule scheduleId with
  | none => .error (notFound "approved rerun schedule not found")
  | some record =>
    if record.operationType ≠ .approvedRerun then
      .error (notFound "approved rerun schedule not found")
    else .ok (disableSchedule now record)

/-- What a route saves, if it raises nothing. -/
def Timetable.saveScheduled (table : Timetable) :
    Except Failure ScheduledOperationRecord → Timetable
  | .error _ => table
  | .ok record => table.saveSchedule record

def rerunStep (table : Timetable) : RerunEvent → Timetable
  | .create attempt key => table.withWorld (attempt.serve key table.world).2
  | .report runId status =>
    match table.world.store.getRun runId with
    | none => table
    | some run =>
      let updated := { run with status := status, updatedAt := status.updatedAt }
      match table.world.store.saveRun updated with
      | .error _ => table
      | .ok store => table.withStore store
  | .approve request settings turn now scheduleId =>
    table.saveScheduled
      (createApprovedRerunScheduleFromLatestRun request settings turn now scheduleId table)
  | .disable scheduleId now =>
    table.saveScheduled (disableApprovedRerunSchedule scheduleId now table)
  | .runDue call now => (executeDueApprovedRerunSchedules call now table).2

structure RunsWhatWasApproved (schedule : ScheduledOperationRecord) (manifest : RunManifest) :
    Prop where
  runnerImage : schedule.allowedRunnerImage = some manifest.runnerImage
  models : schedule.allowedModelIds = manifest.requestedModels
  resourceProfile : schedule.resourceProfile = some manifest.resourceProfile
  workflowId : schedule.workflowId = some manifest.workflowId
  dataset : schedule.allowedDatasetUri = datasetUri manifest.inputs
  approvalTier : schedule.approvalTier = manifest.approvalTier

/-- What an execution of a schedule must come to. -/
structure ApprovedTurn (schedule : ScheduledOperationRecord) (key : String) (before : Timetable)
    (answer : Except Failure ScheduledExecutionRecord) (after : Timetable) : Prop where
  /-- A stored run was there before, or it is what was approved. -/
  created : ∀ runId run, after.world.store.getRun runId = some run →
    (∃ old ∈ before.world.store.runs.map Prod.snd, old.manifest = run.manifest) ∨
      RunsWhatWasApproved schedule run.manifest
  /-- The execution is recorded: it failed closed and no job was submitted, or it names its run,
  which is what was approved. -/
  recorded : ∃ execution, answer = .ok execution ∧
    after.executions.lookup execution.executionId = some execution ∧
    (execution.resultStatus = .failedClosed ∧ after.world.jobs = before.world.jobs ∨
      execution.resultStatus = .ok ∧ ∃ run,
        after.world.store.getRunByIdempotencyKey key = some run ∧
        execution.producedRunIds = [run.runId] ∧ RunsWhatWasApproved schedule run.manifest ∧
        (after.world.jobs = before.world.jobs ∨
          after.world.jobs = before.world.jobs ++ [run.manifest]))

/-- One pass of the loop. -/
def turnStep (call : RerunCall) (now : Instant) (table : Timetable)
    (schedule : ScheduledOperationRecord) : Timetable :=
  if fires schedule now = .ok true then (executeSchedule call now schedule table).2 else table

/-- The schedules before the first whose cron expression cannot be read, which ends the loop. -/
def legiblePrefix (now : Instant) (schedules : List ScheduledOperationRecord) :
    List ScheduledOperationRecord :=
  schedules.takeWhile fun schedule => (fires schedule now).isOk

def FineTurn (call : RerunCall) (now : Instant) (table : Timetable)
    (schedule : ScheduledOperationRecord) : Prop :=
  fires schedule now = .ok true →
    ApprovedTurn schedule (rerunKey schedule.scheduleId now) table
      (executeSchedule call now schedule table).1 (executeSchedule call now schedule table).2

/-- Every execution of a call comes to what was approved, or fails closed. -/
def FineReruns (table : Timetable) : RerunEvent → Prop
  | .runDue call now =>
    Along (turnStep call now) (FineTurn call now) table
      (legiblePrefix now (table.listSchedules .approvedRerun))
  | _ => True

/-- The registry still has what the schedule was approved with. -/
structure RegistryUnchanged (schedule : ScheduledOperationRecord) (source : RunRecord)
    (workflow : WorkflowRegistryEntry) : Prop where
  runnerImage : schedule.allowedRunnerImage = some workflow.runnerImage
  workflowId : schedule.workflowId = some workflow.workflowId
  approvalTier : schedule.approvalTier = workflow.approvalTier
  resourceProfile : source.manifest.resourceProfile ≠ "" ∨ workflow.resourceProfile.profileName = ""

/-- A request that passes its checks, with its job accepted. -/
def Submittable (request : RunCreateRequest) (workflow : WorkflowRegistryEntry)
    (settings : Settings) (surroundings : Surroundings) : Prop :=
  validateRunRequest request workflow = [] ∧ (surroundings.preflight workflow).ready = true ∧
    ∃ receipt, surroundings.submitRun (runManifest request workflow settings surroundings) =
      .accepted receipt

def SoundSubmission (call : RerunCall) (now : Instant) (schedule : ScheduledOperationRecord)
    (source : RunRecord) (workflow : WorkflowRegistryEntry) (store : RunStore) : Prop :=
  ∃ request, rerunRequest call.fits schedule source = .ok request ∧
    match store.getRunByIdempotencyKey (rerunKey schedule.scheduleId now) with
    | some existing => RunsWhatWasApproved schedule existing.manifest
    | none => Submittable request workflow call.settings (call.turn schedule).surroundings ∧
      RegistryUnchanged schedule source workflow

def refreshedStore (resolved : RunStatus) (source : RunRecord) (store : RunStore) : RunStore :=
  match refreshed resolved source with
  | none => store
  | some updated => store.putRun updated

/-- The status of the source run can be read; and if the schedule has not drifted from it and the
registry knows its workflow, the run is there already and is what was approved, or the request is
admitted and the registry is unchanged. -/
def SoundTurn (call : RerunCall) (now : Instant) (table : Timetable)
    (schedule : ScheduledOperationRecord) : Prop :=
  fires schedule now = .ok true →
    ∀ source, table.world.store.getRun (schedule.sourceRunId.getD "") = some source →
      ∃ resolved, (call.turn schedule).resolve source = .ok resolved ∧
        let updated := (refreshed resolved source).getD source
        driftReason schedule updated = none → ∀ workflow,
          call.registry.getWorkflow updated.workflowId = some workflow →
            SoundSubmission call now schedule updated workflow
              (refreshedStore resolved source table.world.store)

def SoundReruns (table : Timetable) : RerunEvent → Prop
  | .runDue call now =>
    Along (turnStep call now) (SoundTurn call now) table
      (legiblePrefix now (table.listSchedules .approvedRerun))
  | _ => True

section Turn

variable {call : RerunCall} {now : Instant} {schedule : ScheduledOperationRecord}
  {source : RunRecord} {workflow : WorkflowRegistryEntry} {table before : Timetable}
  {turn : RerunTurn} {resolved : RunStatus} {store : RunStore} {request : RunCreateRequest}
  {settings : Settings} {surroundings : Surroundings} {fits : Entries → Bool} {runId key : String}
  {run : RunRecord}

theorem lookup_recordExecution {execution : ScheduledExecutionRecord} :
    (table.recordExecution schedule execution).executions.lookup execution.executionId =
      some execution := by
  show (Dict.set execution.executionId execution table.executions).lookup _ = _
  rw [Dict.lookup_set, if_pos rfl]

theorem driftReason_eq_none_iff : driftReason schedule source = none ↔
    source.status.status = .succeeded ∧ schedule.workflowId = some source.workflowId ∧
      schedule.resourceProfile = some source.manifest.resourceProfile ∧
      schedule.allowedRunnerImage = some source.manifest.runnerImage ∧
      schedule.allowedModelIds = source.manifest.requestedModels ∧
      schedule.allowedDatasetUri = datasetUri source.manifest.inputs := by
  unfold driftReason
  constructor
  · intro h
    split at h
    · cases h
    next hStatus =>
      split at h
      · cases h
      next hWorkflow =>
        split at h
        · cases h
        next hProfile =>
          split at h
          · cases h
          next hImage =>
            split at h
            · cases h
            next hModels =>
              split at h
              · cases h
              next hDataset =>
                exact ⟨not_not.mp hStatus, not_not.mp hWorkflow, not_not.mp hProfile,
                  not_not.mp hImage, not_not.mp hModels, not_not.mp hDataset⟩
  · rintro ⟨hStatus, hWorkflow, hProfile, hImage, hModels, hDataset⟩
    simp [hStatus, hWorkflow, hProfile, hImage, hModels, hDataset]

theorem rerunRequest_ok (h : rerunRequest fits schedule source = .ok request) :
    request.inputs = source.manifest.inputs ∧ request.models = source.manifest.requestedModels ∧
      request.resourceProfile = some source.manifest.resourceProfile := by
  obtain ⟨-, h⟩ := Raising.of_check h
  obtain rfl := Except.ok.inj h
  exact ⟨rfl, rfl, rfl⟩

theorem runsWhatWasApproved_runManifest_iff (hDrift : driftReason schedule source = none)
    (hRequest : rerunRequest fits schedule source = .ok request) :
    RunsWhatWasApproved schedule (runManifest request workflow settings surroundings) ↔
      RegistryUnchanged schedule source workflow := by
  obtain ⟨-, -, hProfile, -, hModels, hDataset⟩ := driftReason_eq_none_iff.mp hDrift
  obtain ⟨hInputs, hRequested, hAsked⟩ := rerunRequest_ok hRequest
  have hKept : schedule.resourceProfile =
        some (runManifest request workflow settings surroundings).resourceProfile ↔
      source.manifest.resourceProfile ≠ "" ∨ workflow.resourceProfile.profileName = "" := by
    rw [hProfile]
    show some _ = some (orDefault request.resourceProfile _) ↔ _
    rw [hAsked]
    by_cases hEmpty : source.manifest.resourceProfile = ""
    · have hDefault : orDefault (some "") workflow.resourceProfile.profileName =
          workflow.resourceProfile.profileName := by simp [orDefault, truthy]
      rw [hEmpty, hDefault, Option.some.injEq]
      exact ⟨fun h => .inr h.symm, fun h => (h.resolve_left (not_not.mpr rfl)).symm⟩
    · simp [orDefault, truthy, hEmpty]
  constructor
  · intro h
    exact ⟨h.runnerImage, h.workflowId, h.approvalTier, hKept.mp h.resourceProfile⟩
  · intro h
    refine ⟨h.runnerImage, ?_, hKept.mpr h.resourceProfile, h.workflowId, ?_, h.approvalTier⟩
    · show schedule.allowedModelIds = request.models
      rw [hModels, hRequested]
    · show schedule.allowedDatasetUri = datasetUri request.inputs
      rw [hDataset, hInputs]

variable {failure : Failure}

theorem refreshSource_of_error (h : turn.resolve source = .error failure) :
    refreshSource turn source table = (.error failure, table) := by
  unfold refreshSource
  rw [h]

theorem refreshSource_of_ok (hUnique : RunStore.UniqueKeys table.world.store.runs)
    (hMem : source ∈ table.world.store.runs.map Prod.snd) (h : turn.resolve source = .ok resolved) :
    refreshSource turn source table = (.ok ((refreshed resolved source).getD source),
      table.withStore (refreshedStore resolved source table.world.store)) := by
  unfold refreshSource refreshedStore
  rw [h]
  dsimp only
  cases hUpdated : refreshed resolved source with
  | none => rfl
  | some updated =>
    have hCopy : updated.runId = source.runId ∧ updated.idempotencyKey = source.idempotencyKey := by
      unfold refreshed at hUpdated
      split at hUpdated
      · obtain rfl := some.inj hUpdated
        exact ⟨rfl, rfl⟩
      · cases hUpdated
    have hFree := RunStore.conflicts_of_stored hUnique hMem hCopy.1 hCopy.2
    dsimp only
    rw [RunStore.saveRun_eq_ok_iff.mpr ⟨hFree, rfl⟩]
    rfl

theorem manifest_of_refreshed {updated : RunRecord} (h : refreshed resolved source = some updated) :
    updated.manifest = source.manifest := by
  unfold refreshed at h
  split at h
  · obtain rfl := some.inj h
    rfl
  · cases h

theorem manifest_of_refreshedStore (hMem : source ∈ store.runs.map Prod.snd)
    (h : (refreshedStore resolved source store).getRun runId = some run) :
    ∃ old ∈ store.runs.map Prod.snd, old.manifest = run.manifest := by
  unfold refreshedStore at h
  split at h
  · exact ⟨run, RunStore.mem_runs_of_getRun h, rfl⟩
  next updated hUpdated =>
    rw [RunStore.getRun_putRun] at h
    split at h
    · obtain rfl := some.inj h
      exact ⟨source, hMem, (manifest_of_refreshed hUpdated).symm⟩
    · exact ⟨run, RunStore.mem_runs_of_getRun h, rfl⟩

/-! ### The outcome -/

theorem approvedTurn_failClosed {reason : String}
    (hRuns : ∀ runId run, table.world.store.getRun runId = some run →
      ∃ old ∈ before.world.store.runs.map Prod.snd, old.manifest = run.manifest)
    (hJobs : table.world.jobs = before.world.jobs) :
    ApprovedTurn schedule key before (failClosed call now schedule reason table).1
      (failClosed call now schedule reason table).2 where
  created runId run hRun := .inl (hRuns runId run hRun)
  recorded := ⟨_, rfl, lookup_recordExecution, .inl ⟨rfl, hJobs⟩⟩

theorem rerunKey_ne_empty (now : Instant) (scheduleId : String) : rerunKey scheduleId now ≠ "" := by
  intro h
  have hLength := congrArg String.length h
  unfold rerunKey at hLength
  simp only [String.length_append] at hLength
  have hPrefix : "approved-rerun:".length = 15 := by decide
  have hNone : "".length = 0 := by decide
  omega

theorem submitRerun_of_error (h : rerunRequest call.fits schedule source = .error failure) :
    submitRerun call now schedule source workflow table = (.error failure, table) := by
  unfold submitRerun
  rw [h]

variable {world : World}

section

variable (h : rerunRequest call.fits schedule source = .ok request)
include h

theorem submitRerun_of_failed
    (hCreate : createRunRecord request workflow call.settings (rerunOrigin source)
      (some (rerunKey schedule.scheduleId now)) (call.turn schedule).surroundings table.world =
        (.error failure, world)) :
    submitRerun call now schedule source workflow table =
      (.error failure, table.withWorld world) := by
  unfold submitRerun
  rw [h]
  dsimp only
  rw [hCreate]

theorem submitRerun_of_created
    (hCreate : createRunRecord request workflow call.settings (rerunOrigin source)
      (some (rerunKey schedule.scheduleId now)) (call.turn schedule).surroundings table.world =
        (.ok run, world)) :
    submitRerun call now schedule source workflow table =
      let execution := rerunExecution schedule now (call.turn schedule).finishedAt
        (call.turn schedule).executionId run.runId
      (.ok execution, (table.withWorld world).recordExecution schedule execution) := by
  unfold submitRerun
  rw [h]
  dsimp only
  rw [hCreate]

end

theorem not_approvedTurn_of_error {after : Timetable} :
    ¬ ApprovedTurn schedule key before (.error failure) after := by
  intro h
  obtain ⟨execution, hAnswer, -⟩ := h.recorded
  cases hAnswer

theorem approvedTurn_rerun_iff {finishedAt : Instant} {executionId : String}
    (hRuns : ∀ runId run, world.store.getRun runId = some run →
      (∃ old ∈ before.world.store.runs.map Prod.snd, old.manifest = run.manifest) ∨
        run.manifest = source.manifest)
    (hSource : world.store.getRunByIdempotencyKey key = some source)
    (hJobs : world.jobs = before.world.jobs ∨
      world.jobs = before.world.jobs ++ [source.manifest]) :
    let execution := rerunExecution schedule now finishedAt executionId source.runId
    ApprovedTurn schedule key before (.ok execution)
      ((table.withWorld world).recordExecution schedule execution) ↔
        RunsWhatWasApproved schedule source.manifest := by
  intro execution
  constructor
  · intro h
    obtain ⟨recorded, hAnswer, -, ⟨hClosed, -⟩ | ⟨-, run, hRun, -, hApproved, -⟩⟩ := h.recorded
    · obtain rfl := Except.ok.inj hAnswer
      cases hClosed
    · obtain rfl := some.inj (hSource.symm.trans hRun)
      exact hApproved
  · intro h
    refine ⟨fun runId run hRun => ?_, execution, rfl, lookup_recordExecution, .inr ⟨rfl, source,
      hSource, rfl, h, hJobs⟩⟩
    refine (hRuns runId run hRun).imp_right fun hSame => ?_
    rw [hSame]
    exact h

theorem createRunRecord_of_submittable (origin : Origin)
    (hFree : world.store.getRunByIdempotencyKey key = none)
    (h : Submittable request workflow settings surroundings) :
    ∃ run after, createRunRecord request workflow settings origin (some key) surroundings world =
        (.ok run, after) ∧
      run.manifest = runManifest request workflow settings surroundings ∧
      after.store.getRunByIdempotencyKey key = some run ∧
      after.jobs = world.jobs ++ [run.manifest] ∧
      ∀ runId stored, after.store.getRun runId = some stored →
        world.store.getRun runId = some stored ∨ stored.manifest = run.manifest := by
  obtain ⟨hIssues, hReady, receipt, hSubmit⟩ := h
  obtain ⟨creation, hAccept⟩ : ∃ creation,
      acceptRun request workflow settings origin (some key) surroundings = .ok creation :=
    exists_acceptRun_iff.mpr ⟨hIssues, hReady⟩
  obtain ⟨-, hRecord⟩ := acceptRun_ok hAccept
  have hManifest : creation.record.manifest =
      runManifest request workflow settings surroundings := hRecord ▸ rfl
  rw [← hManifest] at hSubmit ⊢
  obtain ⟨run, hAnswer, hUnder, hSame, hTaken⟩ :=
    persistAndSubmit_of_accepted hFree (hRecord ▸ rfl) hSubmit
  refine ⟨run, (persistAndSubmit surroundings creation world).2, ?_, hSame,
    RunStore.getRunByIdempotencyKey_of_runsUnder hUnder, hSame ▸ hTaken,
    fun runId stored hRun => ?_⟩
  · unfold createRunRecord
    rw [hAccept, createFrom_of_accepted hFree, ← hAnswer]
  · refine (getRun_persistAndSubmit hRun).imp_right ?_
    rintro ⟨-, submission, updatedAt, rfl⟩
    exact hSame.symm

theorem createRunRecord_of_not_submittable (origin : Origin)
    (hFree : world.store.getRunByIdempotencyKey key = none)
    (h : ¬ Submittable request workflow settings surroundings) :
    ∃ failure after,
      createRunRecord request workflow settings origin (some key) surroundings world =
        (.error failure, after) := by
  unfold createRunRecord
  cases hAccept : acceptRun request workflow settings origin (some key) surroundings with
  | error failure => exact ⟨failure, world, createFrom_of_refused hFree⟩
  | ok creation =>
    rw [createFrom_of_accepted hFree]
    obtain ⟨hIssues, hReady⟩ := exists_acceptRun_iff.mp ⟨creation, hAccept⟩
    obtain ⟨-, hRecord⟩ := acceptRun_ok hAccept
    have hRefused : ∀ receipt,
        surroundings.submitRun creation.record.manifest ≠ .accepted receipt := by
      intro receipt hTaken
      rw [hRecord] at hTaken
      exact h ⟨hIssues, hReady, receipt, hTaken⟩
    obtain ⟨⟨failure, hAnswer⟩, -, -⟩ :=
      persistAndSubmit_of_refused hFree (hRecord ▸ rfl) hRefused
    exact ⟨failure, (persistAndSubmit surroundings creation world).2, by rw [← hAnswer]⟩

theorem approvedTurn_submitRerun_iff (hDrift : driftReason schedule source = none)
    (hRuns : ∀ runId run, table.world.store.getRun runId = some run →
      ∃ old ∈ before.world.store.runs.map Prod.snd, old.manifest = run.manifest)
    (hJobs : table.world.jobs = before.world.jobs) :
    ApprovedTurn schedule (rerunKey schedule.scheduleId now) before
        (submitRerun call now schedule source workflow table).1
        (submitRerun call now schedule source workflow table).2 ↔
      SoundSubmission call now schedule source workflow table.world.store := by
  cases hRequest : rerunRequest call.fits schedule source with
  | error failure =>
    rw [submitRerun_of_error hRequest]
    refine iff_of_false not_approvedTurn_of_error ?_
    rintro ⟨request, hOk, -⟩
    rw [hRequest] at hOk
    cases hOk
  | ok request =>
    have hSound : SoundSubmission call now schedule source workflow table.world.store ↔
        match table.world.store.getRunByIdempotencyKey (rerunKey schedule.scheduleId now) with
        | some existing => RunsWhatWasApproved schedule existing.manifest
        | none => Submittable request workflow call.settings (call.turn schedule).surroundings ∧
          RegistryUnchanged schedule source workflow := by
      constructor
      · rintro ⟨request', hOk, h⟩
        obtain rfl := Except.ok.inj (hRequest.symm.trans hOk)
        exact h
      · intro h
        exact ⟨request, hRequest, h⟩
    rw [hSound]
    cases hFound : table.world.store.getRunByIdempotencyKey (rerunKey schedule.scheduleId now) with
    | some existing =>
      rw [submitRerun_of_created hRequest
        (createFrom_of_taken (rerunKey_ne_empty now schedule.scheduleId) hFound)]
      exact approvedTurn_rerun_iff (fun runId run hRun => .inl (hRuns runId run hRun)) hFound
        (.inl hJobs)
    | none =>
      by_cases hSubmit : Submittable request workflow call.settings
          (call.turn schedule).surroundings
      · obtain ⟨run, world, hCreate, hManifest, hUnder, hTaken, hStored⟩ :=
          createRunRecord_of_submittable (rerunOrigin source) hFound hSubmit
        have hUnchanged : RegistryUnchanged schedule source workflow ↔
            RunsWhatWasApproved schedule run.manifest := by
          rw [hManifest]
          exact (runsWhatWasApproved_runManifest_iff hDrift hRequest).symm
        rw [submitRerun_of_created hRequest hCreate, and_iff_right hSubmit, hUnchanged]
        refine approvedTurn_rerun_iff (fun runId stored h => ?_) hUnder
          (.inr (by rw [hTaken, hJobs]))
        exact (hStored runId stored h).imp_left (hRuns runId stored)
      · obtain ⟨failure, world, hCreate⟩ :=
          createRunRecord_of_not_submittable (rerunOrigin source) hFound hSubmit
        rw [submitRerun_of_failed hRequest hCreate]
        exact iff_of_false not_approvedTurn_of_error fun h => hSubmit h.1

theorem executeSchedule_of_source
    (hSource : table.world.store.getRun (schedule.sourceRunId.getD "") = some source) :
    executeSchedule call now schedule table =
      match refreshSource (call.turn schedule) source table with
      | (.error failure, table) => (.error failure, table)
      | (.ok source, table) => rerunSource call now schedule source table := by
  unfold executeSchedule
  rw [hSource]
  show Tx.bind _ _ table = _
  unfold Tx.bind
  rcases refreshSource (call.turn schedule) source table with ⟨_ | _, _⟩ <;> rfl

theorem rerunSource_of_drift {reason : String} (h : driftReason schedule source = some reason) :
    rerunSource call now schedule source = failClosed call now schedule reason := by
  unfold rerunSource
  rw [h]

theorem rerunSource_of_unregistered (h : driftReason schedule source = none)
    (hWorkflow : call.registry.getWorkflow source.workflowId = none) :
    rerunSource call now schedule source = failClosed call now schedule
      "workflow registry entry not found for scheduled rerun" := by
  unfold rerunSource
  rw [h, hWorkflow]

theorem rerunSource_of_workflow (h : driftReason schedule source = none)
    (hWorkflow : call.registry.getWorkflow source.workflowId = some workflow) :
    rerunSource call now schedule source = submitRerun call now schedule source workflow := by
  unfold rerunSource
  rw [h, hWorkflow]

/-- An execution comes to what was approved exactly if it is sound. -/
theorem fineTurn_iff (hUnique : RunStore.UniqueKeys table.world.store.runs) :
    FineTurn call now table schedule ↔ SoundTurn call now table schedule := by
  refine imp_congr_right fun _ => ?_
  cases hSource : table.world.store.getRun (schedule.sourceRunId.getD "") with
  | none =>
    have hClosed : executeSchedule call now schedule table =
        failClosed call now schedule "source run not found" table := by
      unfold executeSchedule
      rw [hSource]
    rw [hClosed]
    refine iff_of_true (approvedTurn_failClosed (fun runId run hRun => ?_) rfl) ?_
    · exact ⟨run, RunStore.mem_runs_of_getRun hRun, rfl⟩
    · intro source hNone
      cases hNone
  | some source =>
    have hMem := RunStore.mem_runs_of_getRun hSource
    simp only [Option.some.injEq, forall_eq']
    rw [executeSchedule_of_source hSource]
    cases hResolve : (call.turn schedule).resolve source with
    | error failure =>
      rw [refreshSource_of_error hResolve]
      refine iff_of_false not_approvedTurn_of_error ?_
      rintro ⟨resolved, hOk, -⟩
      cases hOk
    | ok resolved =>
      simp only [Except.ok.injEq, exists_eq_left']
      rw [refreshSource_of_ok hUnique hMem hResolve]
      dsimp only
      have hRuns : ∀ runId run,
          (table.withStore (refreshedStore resolved source table.world.store)).world.store.getRun
            runId = some run →
          ∃ old ∈ table.world.store.runs.map Prod.snd, old.manifest = run.manifest :=
        fun runId run hRun => manifest_of_refreshedStore hMem hRun
      cases hDrift : driftReason schedule ((refreshed resolved source).getD source) with
      | some reason =>
        rw [rerunSource_of_drift hDrift]
        refine iff_of_true (approvedTurn_failClosed hRuns rfl) ?_
        intro hNone
        cases hNone
      | none =>
        refine Iff.trans ?_ (forall_prop_of_true rfl).symm
        cases hWorkflow :
            call.registry.getWorkflow ((refreshed resolved source).getD source).workflowId with
        | none =>
          rw [rerunSource_of_unregistered hDrift hWorkflow]
          refine iff_of_true (approvedTurn_failClosed hRuns rfl) ?_
          intro workflow hNone
          cases hNone
        | some workflow =>
          rw [rerunSource_of_workflow hDrift hWorkflow]
          simp only [Option.some.injEq, forall_eq']
          exact approvedTurn_submitRerun_iff hDrift hRuns rfl

/-! ### Keys stay unique -/

theorem uniqueKeys_refreshSource (h : RunStore.UniqueKeys table.world.store.runs) :
    RunStore.UniqueKeys (refreshSource turn source table).2.world.store.runs := by
  unfold refreshSource
  split
  · exact h
  · split
    · exact h
    · split
      · exact h
      next store hSaved =>
        obtain ⟨hFree, rfl⟩ := RunStore.saveRun_eq_ok_iff.mp hSaved
        exact RunStore.uniqueKeys_set hFree h

theorem uniqueKeys_createFrom {accepted : Except Failure Accepted} {idempotencyKey : Option String}
    (h : RunStore.UniqueKeys world.store.runs) :
    RunStore.UniqueKeys (createFrom idempotencyKey accepted surroundings world).2.store.runs :=
  runs_createFrom (fun _ _ hFree h => RunStore.uniqueKeys_set hFree h) h

section

variable (h : RunStore.UniqueKeys table.world.store.runs)
include h

theorem uniqueKeys_rerunSource :
    RunStore.UniqueKeys (rerunSource call now schedule source table).2.world.store.runs := by
  cases hDrift : driftReason schedule source with
  | some reason =>
    rw [rerunSource_of_drift hDrift]
    exact h
  | none =>
    cases hWorkflow : call.registry.getWorkflow source.workflowId with
    | none =>
      rw [rerunSource_of_unregistered hDrift hWorkflow]
      exact h
    | some workflow =>
      rw [rerunSource_of_workflow hDrift hWorkflow]
      unfold submitRerun createRunRecord
      dsimp only
      split
      · exact h
      next request hRequest =>
        have hKept : RunStore.UniqueKeys (createFrom (some (rerunKey schedule.scheduleId now))
            (acceptRun request workflow call.settings (rerunOrigin source)
              (some (rerunKey schedule.scheduleId now)) (call.turn schedule).surroundings)
            (call.turn schedule).surroundings table.world).2.store.runs :=
          uniqueKeys_createFrom h
        split
        next failure world hCreate =>
          rw [hCreate] at hKept
          exact hKept
        next run world hCreate =>
          rw [hCreate] at hKept
          exact hKept

theorem uniqueKeys_executeSchedule :
    RunStore.UniqueKeys (executeSchedule call now schedule table).2.world.store.runs := by
  cases hSource : table.world.store.getRun (schedule.sourceRunId.getD "") with
  | none =>
    unfold executeSchedule
    rw [hSource]
    exact h
  | some source =>
    rw [executeSchedule_of_source hSource]
    have hRefresh : RunStore.UniqueKeys
        (refreshSource (call.turn schedule) source table).2.world.store.runs :=
      uniqueKeys_refreshSource h
    split
    next failure after hAfter =>
      rw [hAfter] at hRefresh
      exact hRefresh
    next updated after hAfter =>
      rw [hAfter] at hRefresh
      exact uniqueKeys_rerunSource hRefresh

theorem uniqueKeys_turnStep :
    RunStore.UniqueKeys (turnStep call now table schedule).world.store.runs := by
  unfold turnStep
  split
  · exact uniqueKeys_executeSchedule h
  · exact h

end

theorem uniqueKeys_executeDue (schedules : List ScheduledOperationRecord)
    (h : RunStore.UniqueKeys table.world.store.runs) :
    RunStore.UniqueKeys (executeDue call now schedules table).2.world.store.runs := by
  induction schedules generalizing table with
  | nil => exact h
  | cons schedule schedules ih =>
    rw [executeDue]
    rcases fires schedule now with failure | due
    · exact h
    cases due with
    | false => exact ih h
    | true =>
      have hFirst : RunStore.UniqueKeys
          (executeSchedule call now schedule table).2.world.store.runs :=
        uniqueKeys_executeSchedule h
      show RunStore.UniqueKeys (Tx.bind _ _ table).2.world.store.runs
      unfold Tx.bind
      split
      next execution after hAfter =>
        rw [hAfter] at hFirst
        have hRest := ih hFirst
        show RunStore.UniqueKeys (Tx.bind _ _ after).2.world.store.runs
        unfold Tx.bind
        split
        next executions last hLast =>
          rw [hLast] at hRest
          exact hRest
        next failure last hLast =>
          rw [hLast] at hRest
          exact hRest
      next failure after hAfter =>
        rw [hAfter] at hFirst
        exact hFirst

theorem uniqueKeys_rerunStep (event : RerunEvent)
    (h : RunStore.UniqueKeys table.world.store.runs) :
    RunStore.UniqueKeys (rerunStep table event).world.store.runs := by
  have hScheduled (answer : Except Failure ScheduledOperationRecord) :
      (table.saveScheduled answer).world = table.world := by
    cases answer <;> rfl
  cases event with
  | create attempt key =>
    show RunStore.UniqueKeys (attempt.serve key table.world).2.store.runs
    rw [serve_eq]
    exact uniqueKeys_createFrom h
  | report runId status =>
    unfold rerunStep
    dsimp only
    split
    · exact h
    · split
      · exact h
      next store hSaved =>
        obtain ⟨hFree, rfl⟩ := RunStore.saveRun_eq_ok_iff.mp hSaved
        exact RunStore.uniqueKeys_set hFree h
  | approve request settings turn now scheduleId =>
    show RunStore.UniqueKeys (table.saveScheduled _).world.store.runs
    rwa [hScheduled]
  | disable scheduleId now =>
    show RunStore.UniqueKeys (table.saveScheduled _).world.store.runs
    rwa [hScheduled]
  | runDue call now => exact uniqueKeys_executeDue _ h

end Turn

/-- In every history every rerun is what was approved, or fails closed, exactly if every execution
is sound. -/
theorem approved_reruns_iff (events : List RerunEvent) :
    Along rerunStep FineReruns {} events ↔ Along rerunStep SoundReruns {} events := by
  have hStep : ∀ (table : Timetable) (event : RerunEvent),
      RunStore.UniqueKeys table.world.store.runs → FineReruns table event →
        RunStore.UniqueKeys (rerunStep table event).world.store.runs :=
    fun table event h _ => uniqueKeys_rerunStep event h
  have hIff : ∀ (table : Timetable) (event : RerunEvent),
      RunStore.UniqueKeys table.world.store.runs →
        (FineReruns table event ↔ SoundReruns table event) := by
    intro table event hUnique
    cases event with
    | runDue call now =>
      have hTurn : ∀ (table : Timetable) (schedule : ScheduledOperationRecord),
          RunStore.UniqueKeys table.world.store.runs → FineTurn call now table schedule →
            RunStore.UniqueKeys (turnStep call now table schedule).world.store.runs :=
        fun table schedule h _ => uniqueKeys_turnStep h
      have hTurnIff : ∀ (table : Timetable) (schedule : ScheduledOperationRecord),
          RunStore.UniqueKeys table.world.store.runs →
            (FineTurn call now table schedule ↔ SoundTurn call now table schedule) :=
        fun table schedule h => fineTurn_iff h
      exact along_congr hTurn hTurnIff hUnique
    | create attempt key => exact Iff.rfl
    | report runId status => exact Iff.rfl
    | approve request settings turn now scheduleId => exact Iff.rfl
    | disable scheduleId now => exact Iff.rfl
  have hStart : RunStore.UniqueKeys ({} : Timetable).world.store.runs := by
    intro a ha
    cases ha
  exact along_congr hStep hIff hStart

def registeredRequest : RunCreateRequest where
  workflowId := "generic-tabular-benchmark"
  objective := "Benchmark the default model."
  inputs := [("dataset_name", text "iris")]
  models := ["logistic_regression"]

/-- The submitter accepts the job of the run with this id. -/
def rerunSurroundings (runId : String) : Surroundings :=
  { (tabularAttempt runId tabularReceipt).surroundings with runId := runId }

def rerunTurn : RerunTurn where
  clock := { now := 1, isoNow := .scalar (.int 1), parseInstant := fun _ => none }
  directory := { status := .absent }
  job := .unavailable
  surroundings := rerunSurroundings "b"
  executionId := "e"
  finishedAt := 61

def rerunCall : RerunCall where
  registry := [("generic-tabular-benchmark",
    { tabularBenchmark with runnerImage := "runner@sha256:1" })]
  fits := fun _ => true
  turn := fun _ => rerunTurn

def approvalEvents : List RerunEvent :=
  [.create
    { call := .registered registeredRequest tabularBenchmark {}
      surroundings := rerunSurroundings "a" } "run-1",
    .report "a" { runId := "a", status := .succeeded, updatedAt := 1 },
    .approve { cronExpr := "* * * * *" } {} rerunTurn 2 "s"]

def approvedSchedule : ScheduledOperationRecord where
  scheduleId := "s"
  createdAt := 2
  updatedAt := 2
  status := .active
  operationType := .approvedRerun
  approvalTier := "tier-2-approved-execution"
  owner := "glasslab-operator"
  cronExpr := "* * * * *"
  scopeFilter :=
    [("workflow_id", text "generic-tabular-benchmark"), ("source_run_id", text "a")]
  sourceRunId := some "a"
  workflowId := some "generic-tabular-benchmark"
  allowedModelIds := ["logistic_regression"]
  allowedRunnerImage := some "runner@sha256:0"
  resourceProfile := some "cpu-small"

/-- The rerun runs an image that nobody approved. -/
theorem changed_image_runs :
    ¬ Along rerunStep FineReruns {} (approvalEvents ++ [.runDue rerunCall 60]) := by
  intro h
  have hDue : Along (turnStep rerunCall 60) (FineTurn rerunCall 60)
      (exec rerunStep {} approvalEvents)
      (legiblePrefix 60 ((exec rerunStep {} approvalEvents).listSchedules .approvedRerun)) :=
    (along_append.mp h).2.1
  have hList : legiblePrefix 60
      ((exec rerunStep {} approvalEvents).listSchedules .approvedRerun) = [approvedSchedule] := by
    decide +kernel
  rw [hList] at hDue
  obtain ⟨execution, hAnswer, -, hOutcome⟩ := (hDue.1 rfl).recorded
  have hImage : ((executeSchedule rerunCall 60 approvedSchedule
      (exec rerunStep {} approvalEvents)).2.world.store.getRunByIdempotencyKey
        (rerunKey approvedSchedule.scheduleId 60)).map (fun run => run.manifest.runnerImage) =
          some "runner@sha256:1" := by
    decide +kernel
  have hStatus : (executeSchedule rerunCall 60 approvedSchedule
      (exec rerunStep {} approvalEvents)).1.toOption.map
        ScheduledExecutionRecord.resultStatus = some .ok := by
    decide +kernel
  rw [hAnswer] at hStatus
  rcases hOutcome with ⟨hClosed, -⟩ | ⟨-, run, hRun, -, hApproved, -⟩
  · rw [show execution.resultStatus = .ok from some.inj hStatus] at hClosed
    cases hClosed
  · rw [hRun] at hImage
    have hApprovedImage := hApproved.runnerImage
    rw [show run.manifest.runnerImage = "runner@sha256:1" from some.inj hImage]
      at hApprovedImage
    revert hApprovedImage
    decide

end Glasslab.WorkflowApi
