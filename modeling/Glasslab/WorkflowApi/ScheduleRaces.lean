import Glasslab.Foundation.Interleaving
import Glasslab.WorkflowApi.ApprovedReruns

/-!
# Disables and due schedules at once

A request that executes what is due lists the schedules once, and after each execution it saves the
copy it has listed over whatever is stored. Nothing compares the two: a disable that came in between
is undone, and two requests that have listed the same schedule both execute it. A rerun still has
one run a minute, because the store keeps its key to one run. Where each execution and each save
meets the schedule as it was listed, with no other request between the two, a disable stays and a
minute has one execution (`disable_sticks`).
-/

namespace Glasslab.WorkflowApi

open Foundation Machine List Option Raising

/-! ## Requests -/

/-- The table and the clock; beside them the schedules whose disable has returned, and the
executions, each with what had been disabled when its request listed the schedules. -/
structure Scheduler where
  table : Timetable := {}
  now : Instant
  disabled : List String := []
  executed : List (List String × ScheduledExecutionRecord) := []

/-- What a request to run due schedules is for. -/
inductive Due where
  | digests (executionId : ScheduledOperationRecord → String)
  | reruns (call : RerunCall)

def Due.operationType : Due → OperationType
  | digests _ => .digest
  | reruns _ => .approvedRerun

/-- The next access of a rerun. -/
inductive RerunStage where
  | source
  | refresh (updated : RunRecord)
  | lookup (source : RunRecord) (workflow : WorkflowRegistryEntry) (request : RunCreateRequest)
  | accept (creation : Accepted)
  /-- The run under the key, after a save that met it. -/
  | existing (creation : Accepted)
  | submit (creation : Accepted)
  | receipt (creation : Accepted) (updated : RunRecord)
  /-- The session, the artifacts and the log. -/
  | attach (creation : Accepted) (updated : RunRecord)
  | finish (runId : String)

inductive Progress where
  | raised
  | stage (stage : RerunStage)
  | recorded (execution : ScheduledExecutionRecord)

/-- The next access of an execution. -/
inductive Stage where
  | rerun (call : RerunCall) (stage : RerunStage)
  | saveExecution (execution : ScheduledExecutionRecord)
  | saveSchedule (execution : ScheduledExecutionRecord)

/-- What a request has when it begins its loop. -/
structure Pass where
  due : Due
  startedAt : Instant
  /-- The runs that were listed for the digests. -/
  runs : List RunRecord
  /-- The schedules whose disable had returned when the schedules were listed. -/
  returned : List String

def Pass.begin (pass : Pass) (schedule : ScheduledOperationRecord) : Stage :=
  match pass.due with
  | .digests executionId =>
    .saveExecution (digestExecution schedule pass.runs pass.startedAt (executionId schedule))
  | .reruns call => .rerun call .source

inductive ScheduleTask where
  | create (record : ScheduledOperationRecord)
  | disable (operationType : OperationType) (scheduleId : String)
  | saveDisabled (record : ScheduledOperationRecord)
  | begin (due : Due)
  | listingRuns (due : Due) (startedAt : Instant)
  | listing (due : Due) (startedAt : Instant) (runs : List RunRecord)
  /-- Inside the loop: a schedule that fires, and the copies that come after it. -/
  | executing (pass : Pass) (schedule : ScheduledOperationRecord) (stage : Stage)
      (rest : List ScheduledOperationRecord)
  /-- A save of a run by another request. -/
  | saveRun (record : RunRecord)
  | tick (later : Instant)
  | done

/-- The loop goes on to the next schedule that fires. An unreadable cron expression ends it. -/
def Pass.goOn (pass : Pass) : List ScheduledOperationRecord → ScheduleTask
  | [] => .done
  | schedule :: rest =>
    match fires schedule pass.startedAt with
    | .error _ => .done
    | .ok false => pass.goOn rest
    | .ok true => .executing pass schedule (pass.begin schedule) rest

namespace Scheduler

def withTable (s : Scheduler) (table : Timetable) : Scheduler := { s with table := table }

def withWorld (s : Scheduler) (world : World) : Scheduler := s.withTable (s.table.withWorld world)

end Scheduler

section Rerun

variable (call : RerunCall) (startedAt : Instant) (schedule : ScheduledOperationRecord)

def closed (reason : String) : Progress :=
  .recorded (failedClosedExecution schedule startedAt (call.turn schedule).executionId reason)

def decideRerun (source : RunRecord) : Progress :=
  match driftReason schedule source with
  | some reason => closed call startedAt schedule reason
  | none =>
    match call.registry.getWorkflow source.workflowId with
    | none =>
      closed call startedAt schedule "workflow registry entry not found for scheduled rerun"
    | some workflow =>
      match rerunRequest call.fits schedule source with
      | .error _ => .raised
      | .ok request => .stage (.lookup source workflow request)

def rerunNext (s : Scheduler) : RerunStage → World × Progress
  | .source =>
    match s.table.world.store.getRun (schedule.sourceRunId.getD "") with
    | none => (s.table.world, closed call startedAt schedule "source run not found")
    | some source =>
      match (call.turn schedule).resolve source with
      | .error _ => (s.table.world, .raised)
      | .ok resolved =>
        match refreshed resolved source with
        | none => (s.table.world, decideRerun call startedAt schedule source)
        | some updated => (s.table.world, .stage (.refresh updated))
  | .refresh updated =>
    match s.table.world.store.saveRun updated with
    | .error _ => (s.table.world, .raised)
    | .ok store =>
      ({ s.table.world with store := store }, decideRerun call startedAt schedule updated)
  | .lookup source workflow request =>
    let key := rerunKey schedule.scheduleId startedAt
    match s.table.world.store.getRunByIdempotencyKey key with
    | some existing => (s.table.world, .stage (.finish existing.runId))
    | none =>
      match acceptRun request workflow call.settings (rerunOrigin source) (some key)
        (call.turn schedule).surroundings with
      | .error _ => (s.table.world, .raised)
      | .ok creation => (s.table.world, .stage (.accept creation))
  | .accept creation =>
    match s.table.world.store.saveRun creation.record with
    | .error _ => (s.table.world, .stage (.existing creation))
    | .ok store => ({ s.table.world with store := store }, .stage (.submit creation))
  | .existing creation =>
    match creation.record.idempotencyKey.bind s.table.world.store.getRunByIdempotencyKey with
    | some existing => (s.table.world, .stage (.finish existing.runId))
    | none => (s.table.world, .raised)
  | .submit creation =>
    let manifest := creation.record.manifest
    let surroundings := (call.turn schedule).surroundings
    match surroundings.submitRun manifest with
    | .jobSubmissionError _ _ => (s.table.world, .raised)
    | .raised _ created =>
      let jobs := s.table.world.jobs
      ({ s.table.world with jobs := if created then jobs ++ [manifest] else jobs }, .raised)
    | .accepted submission =>
      ({ s.table.world with jobs := s.table.world.jobs ++ [manifest] },
        .stage (.receipt creation
          { creation.record with
            jobSubmission := submission
            updatedAt := surroundings.submittedAt }))
  | .receipt creation updated =>
    match s.table.world.store.saveRun updated with
    | .error _ => (s.table.world, .raised)
    | .ok store => ({ s.table.world with store := store }, .stage (.attach creation updated))
  | .attach creation updated =>
    let surroundings := (call.turn schedule).surroundings
    let store := s.table.world.store.touchResearchSession creation.touched updated.runId
      surroundings.submittedAt
    let store := store.saveArtifacts updated.runId
      (buildArtifactIndex updated.runId creation.expectedArtifacts)
    let entry :=
      { timestamp := surroundings.now
        level := "INFO"
        message := creation.message
        payload := creation.logPayload updated.jobSubmission }
    ({ s.table.world with store := store.appendLog updated.runId entry },
      .stage (.finish updated.runId))
  | .finish runId =>
    (s.table.world, .recorded
      (rerunExecution schedule startedAt s.now (call.turn schedule).executionId runId))

end Rerun

def ScheduleTask.next (s : Scheduler) : ScheduleTask → Scheduler × ScheduleTask
  | .create record =>
    -- The id is a new one.
    if (s.table.getSchedule record.scheduleId).isSome then (s, .done)
    else (s.withTable (s.table.saveSchedule record), .done)
  | .disable operationType scheduleId =>
    match s.table.getSchedule scheduleId with
    | none => (s, .done)
    | some record =>
      if record.operationType ≠ operationType then (s, .done)
      else (s, .saveDisabled (disableSchedule s.now record))
  | .saveDisabled record =>
    ({ s.withTable (s.table.saveSchedule record) with
        disabled := s.disabled ++ [record.scheduleId] }, .done)
  | .begin (.digests executionId) => (s, .listingRuns (.digests executionId) s.now)
  | .begin (.reruns call) => (s, .listing (.reruns call) s.now [])
  | .listingRuns due startedAt => (s, .listing due startedAt s.table.listRuns)
  | .listing due startedAt runs =>
    (s, Pass.goOn ⟨due, startedAt, runs, s.disabled⟩ (s.table.listSchedules due.operationType))
  | .executing pass schedule (.rerun call stage) rest =>
    match rerunNext call pass.startedAt schedule s stage with
    | (world, .raised) => (s.withWorld world, .done)
    | (world, .stage stage) =>
      (s.withWorld world, .executing pass schedule (.rerun call stage) rest)
    | (world, .recorded execution) =>
      (s.withWorld world, .executing pass schedule (.saveExecution execution) rest)
  | .executing pass schedule (.saveExecution execution) rest =>
    ({ s.withTable (s.table.saveExecution execution) with
        executed := s.executed ++ [(pass.returned, execution)] },
      .executing pass schedule (.saveSchedule execution) rest)
  | .executing pass schedule (.saveSchedule execution) rest =>
    (s.withTable (s.table.saveSchedule
      (markExecuted execution.finishedAt execution.resultStatus execution.resultDetail schedule)),
      pass.goOn rest)
  | .saveRun record =>
    match s.table.world.store.saveRun record with
    | .error _ => (s, .done)
    | .ok store => (s.withWorld { s.table.world with store := store }, .done)
  | .tick later => ({ s with now := max s.now later }, .done)
  | .done => (s, .done)

inductive ScheduleTraffic where
  | create (record : ScheduledOperationRecord)
  | disable (operationType : OperationType) (scheduleId : String)
  | runDue (due : Due)
  | saveRun (record : RunRecord)
  | tick (later : Instant)

def ScheduleTraffic.enter : ScheduleTraffic → ScheduleTask
  | create record => .create record
  | disable operationType scheduleId => .disable operationType scheduleId
  | runDue due => .begin due
  | saveRun record => .saveRun record
  | tick later => .tick later

def scheduleRequests : Program Scheduler ScheduleTraffic ScheduleTask :=
  ⟨ScheduleTraffic.enter, ScheduleTask.next⟩

structure SchedulesHeld (s : Scheduler) : Prop where
  /-- A schedule whose disable has returned is disabled. -/
  disabled : ∀ scheduleId ∈ s.disabled, ∃ record, s.table.getSchedule scheduleId = some record ∧
    record.status = .disabled
  /-- A request that lists after that does not execute it. -/
  notExecuted : ∀ entry ∈ s.executed, entry.2.scheduleId ∉ entry.1
  /-- A schedule has one execution a minute. -/
  oneExecution : ∀ e ∈ s.table.executions.map Prod.snd, ∀ e' ∈ s.table.executions.map Prod.snd,
    e.scheduleId = e'.scheduleId → civilMinute e.startedAt = civilMinute e'.startedAt →
      e.executionId = e'.executionId
  /-- A schedule has one run a minute. -/
  oneRun : ∀ run ∈ s.table.world.store.runs.map Prod.snd,
    ∀ run' ∈ s.table.world.store.runs.map Prod.snd, ∀ scheduleId at₁ at₂,
      civilMinute at₁ = civilMinute at₂ → run.idempotencyKey = some (rerunKey scheduleId at₁) →
        run'.idempotencyKey = some (rerunKey scheduleId at₂) → run.runId = run'.runId

/-- The schedule that a request has executed and still has to save. -/
def ScheduleTask.opens : ScheduleTask → Option String
  | executing _ schedule (.saveSchedule _) _ => some schedule.scheduleId
  | _ => none

/-- A request executes a schedule that is stored as it was listed, that was not executed after the
request began, and that no other request has yet to save; and it saves its copy over the one it has
listed. -/
def ScheduleTask.Fresh (s : Threads Scheduler ScheduleTask) : ScheduleTask → Prop
  | executing pass schedule (.saveExecution _) _ =>
    s.shared.table.getSchedule schedule.scheduleId = some schedule ∧
      (∀ last ∈ schedule.lastExecutionAt, last ≤ pass.startedAt) ∧
      ∀ task ∈ s.locals, task.opens ≠ some schedule.scheduleId
  | executing _ schedule (.saveSchedule _) _ =>
    s.shared.table.getSchedule schedule.scheduleId = some schedule
  | _ => True

instance ScheduleTask.decidableFresh (s : Threads Scheduler ScheduleTask) :
    (task : ScheduleTask) → Decidable (task.Fresh s)
  | executing _ _ (.saveExecution _) _ => inferInstanceAs (Decidable (_ ∧ _ ∧ _))
  | executing _ _ (.saveSchedule _) _ => inferInstanceAs (Decidable (_ = _))
  | executing _ _ (.rerun _ _) _ => .isTrue trivial
  | create _ | disable _ _ | saveDisabled _ | «begin» _ | listingRuns _ _ | listing _ _ _
  | saveRun _ | tick _ | done => .isTrue trivial

def FreshCopy (s : Threads Scheduler ScheduleTask) : Move ScheduleTraffic → Prop
  | .call _ => True
  | .step i => ∀ task ∈ s.locals[i]?, task.Fresh s

instance decidableFreshCopy (s : Threads Scheduler ScheduleTask) :
    (move : Move ScheduleTraffic) → Decidable (FreshCopy s move)
  | .call _ => .isTrue trivial
  | .step i => inferInstanceAs (Decidable (∀ task ∈ s.locals[i]?, task.Fresh s))

/-- The stored schedule will not be executed again in the minute of the execution. -/
def Guarded (table : Timetable) (e : ScheduledExecutionRecord) : Prop :=
  ∃ record, table.getSchedule e.scheduleId = some record ∧
    (record.status = .disabled ∨ ∃ last, record.lastExecutionAt = some last ∧ e.startedAt ≤ last)

/-- The execution is one of this schedule by this request. -/
structure Describes (pass : Pass) (schedule : ScheduledOperationRecord)
    (execution : ScheduledExecutionRecord) : Prop where
  schedule : execution.scheduleId = schedule.scheduleId
  started : execution.startedAt = pass.startedAt
  finished : pass.startedAt ≤ execution.finishedAt

def Stage.Sound (table : Timetable) (pass : Pass) (schedule : ScheduledOperationRecord) :
    Stage → Prop
  | rerun _ _ => True
  | saveExecution execution => Describes pass schedule execution
  | saveSchedule execution => Describes pass schedule execution ∧
    ∀ e ∈ table.executions.map Prod.snd, e.scheduleId = schedule.scheduleId →
      e.startedAt ≤ execution.finishedAt

/-- What a request in its loop rests on. -/
structure SoundPass (s : Scheduler) (pass : Pass) (schedule : ScheduledOperationRecord)
    (stage : Stage) (rest : List ScheduledOperationRecord) : Prop where
  begun : pass.startedAt ≤ s.now
  due : fires schedule pass.startedAt = .ok true
  listed : ∀ copy ∈ schedule :: rest, fires copy pass.startedAt = .ok true →
    copy.scheduleId ∉ pass.returned
  stage : stage.Sound s.table pass schedule

def ScheduleTask.Sound (s : Scheduler) : ScheduleTask → Prop
  | saveDisabled record => record.status = .disabled
  | listingRuns _ startedAt | listing _ startedAt _ => startedAt ≤ s.now
  | executing pass schedule stage rest => SoundPass s pass schedule stage rest
  | _ => True

structure Ordered (s : Scheduler) : Prop where
  nodup : (s.table.schedules.map Prod.fst).Nodup
  ids : ∀ scheduleId record, s.table.getSchedule scheduleId = some record →
    record.scheduleId = scheduleId
  disabled : ∀ scheduleId ∈ s.disabled, ∃ record, s.table.getSchedule scheduleId = some record ∧
    record.status = .disabled
  notExecuted : ∀ entry ∈ s.executed, entry.2.scheduleId ∉ entry.1
  oneExecution : ∀ e ∈ s.table.executions.map Prod.snd, ∀ e' ∈ s.table.executions.map Prod.snd,
    e.scheduleId = e'.scheduleId → civilMinute e.startedAt = civilMinute e'.startedAt →
      e.executionId = e'.executionId
  keys : RunStore.UniqueKeys s.table.world.store.runs

structure Orderly (s : Threads Scheduler ScheduleTask) : Prop where
  ordered : Ordered s.shared
  guarded : ∀ e ∈ s.shared.table.executions.map Prod.snd, Guarded s.shared.table e ∨
    ∃ task ∈ s.locals, task.opens = some e.scheduleId
  own : ∀ task ∈ s.locals, task.Sound s.shared

section Step

variable {s s' : Scheduler} {pass : Pass} {schedule record : ScheduledOperationRecord}
  {execution e : ScheduledExecutionRecord} {rest : List ScheduledOperationRecord}
  {task task' : ScheduleTask} {call : RerunCall} {startedAt : Instant} {table : Timetable}

theorem active_of_fires (h : fires schedule startedAt = .ok true) : schedule.status = .active := by
  unfold fires scheduleIsDue at h
  by_contra hActive
  rw [if_pos hActive] at h
  cases h

theorem not_fires_of_last {last : Instant} (h : schedule.lastExecutionAt = some last)
    (hMinute : minuteOf last = minuteOf startedAt) : fires schedule startedAt ≠ .ok true := by
  have hCivil : civilMinute last = civilMinute startedAt := by
    unfold civilMinute
    rw [hMinute]
  have hExecuted : executedThisMinute schedule startedAt = true := by
    unfold executedThisMinute
    rw [h]
    simp [hCivil]
  intro hFires
  obtain ⟨due, -, hDue⟩ := of_bind hFires
  rw [hExecuted, Bool.not_true, Bool.and_false] at hDue
  cases hDue

theorem getSchedule_saveSchedule {scheduleId : String} :
    (table.saveSchedule record).getSchedule scheduleId =
      if scheduleId = record.scheduleId then some record else table.getSchedule scheduleId :=
  Dict.lookup_set

/-! ### The request that moves -/

theorem sound_goOn (hBegun : pass.startedAt ≤ s.now)
    (hListed : ∀ copy ∈ rest, fires copy pass.startedAt = .ok true →
      copy.scheduleId ∉ pass.returned) :
    (pass.goOn rest).Sound s := by
  induction rest with
  | nil => trivial
  | cons schedule rest ih =>
    unfold Pass.goOn
    split
    · trivial
    · exact ih fun copy hCopy => hListed copy (mem_cons_of_mem _ hCopy)
    next hFires =>
      refine ⟨hBegun, hFires, hListed, ?_⟩
      unfold Pass.begin
      cases pass.due with
      | digests executionId => exact ⟨rfl, rfl, le_rfl⟩
      | reruns call => trivial

theorem not_disabled_of_listed (h : Ordered s) {operationType : OperationType}
    (hListed : schedule ∈ s.table.listSchedules operationType)
    (hFires : fires schedule startedAt = .ok true) : schedule.scheduleId ∉ s.disabled := by
  intro hDisabled
  obtain ⟨⟨scheduleId, stored⟩, hEntry, rfl⟩ :=
    mem_map.mp (mem_filter.mp (mem_sortOn.mp hListed)).1
  have hLookup : s.table.getSchedule scheduleId = some stored :=
    Dict.lookup_of_mem h.nodup hEntry
  have hId := h.ids scheduleId stored hLookup
  obtain ⟨record, hRecord, hStatus⟩ := h.disabled _ hDisabled
  rw [hId, hLookup] at hRecord
  obtain rfl := Option.some.inj hRecord
  rw [active_of_fires hFires] at hStatus
  cases hStatus

theorem decideRerun_recorded {source : RunRecord}
    (h : decideRerun call startedAt schedule source = .recorded execution) :
    execution.scheduleId = schedule.scheduleId ∧ execution.startedAt = startedAt ∧
      startedAt ≤ execution.finishedAt := by
  unfold decideRerun closed at h
  split at h
  · obtain rfl := Progress.recorded.inj h
    exact ⟨rfl, rfl, le_rfl⟩
  · split at h
    · obtain rfl := Progress.recorded.inj h
      exact ⟨rfl, rfl, le_rfl⟩
    · split at h
      · cases h
      · cases h

theorem rerunNext_recorded {stage : RerunStage} (hBegun : startedAt ≤ s.now)
    (h : (rerunNext call startedAt schedule s stage).2 = .recorded execution) :
    execution.scheduleId = schedule.scheduleId ∧ execution.startedAt = startedAt ∧
      startedAt ≤ execution.finishedAt := by
  cases stage with
  | source =>
    unfold rerunNext at h
    dsimp only at h
    split at h
    · obtain rfl := Progress.recorded.inj h
      exact ⟨rfl, rfl, le_rfl⟩
    · split at h
      · cases h
      · split at h
        · exact decideRerun_recorded h
        · cases h
  | refresh updated =>
    unfold rerunNext at h
    dsimp only at h
    split at h
    · cases h
    · exact decideRerun_recorded h
  | lookup source workflow request =>
    unfold rerunNext at h
    dsimp only at h
    split at h
    · cases h
    · split at h
      · cases h
      · cases h
  | accept creation =>
    unfold rerunNext at h
    dsimp only at h
    split at h
    · cases h
    · cases h
  | existing creation =>
    unfold rerunNext at h
    dsimp only at h
    split at h
    · cases h
    · cases h
  | submit creation =>
    unfold rerunNext at h
    dsimp only at h
    split at h
    · cases h
    · cases h
    · cases h
  | receipt creation updated =>
    unfold rerunNext at h
    dsimp only at h
    split at h
    · cases h
    · cases h
  | attach creation updated => cases h
  | finish runId =>
    obtain rfl := Progress.recorded.inj h
    exact ⟨rfl, rfl, hBegun⟩

/-- A rerun writes runs only by saves that meet no conflict. -/
theorem uniqueKeys_rerunNext {stage : RerunStage}
    (h : RunStore.UniqueKeys s.table.world.store.runs) :
    RunStore.UniqueKeys (rerunNext call startedAt schedule s stage).1.store.runs := by
  have hSave {record : RunRecord} {store : RunStore}
      (hSaved : s.table.world.store.saveRun record = .ok store) :
      RunStore.UniqueKeys store.runs := by
    obtain ⟨hFree, rfl⟩ := RunStore.saveRun_eq_ok_iff.mp hSaved
    exact RunStore.uniqueKeys_set hFree h
  cases stage with
  | source =>
    unfold rerunNext
    dsimp only
    split
    · exact h
    · split
      · exact h
      · split
        · exact h
        · exact h
  | refresh updated =>
    unfold rerunNext
    dsimp only
    split
    · exact h
    next hSaved => exact hSave hSaved
  | lookup source workflow request =>
    unfold rerunNext
    dsimp only
    split
    · exact h
    · split
      · exact h
      · exact h
  | accept creation =>
    unfold rerunNext
    dsimp only
    split
    · exact h
    next hSaved => exact hSave hSaved
  | existing creation =>
    unfold rerunNext
    dsimp only
    split
    · exact h
    · exact h
  | submit creation =>
    unfold rerunNext
    dsimp only
    split
    · exact h
    · exact h
    · exact h
  | receipt creation updated =>
    unfold rerunNext
    dsimp only
    split
    · exact h
    next hSaved => exact hSave hSaved
  | attach creation updated =>
    unfold rerunNext
    rwa [RunStore.runs_appendLog, RunStore.runs_saveArtifacts, RunStore.runs_touchResearchSession]
  | finish runId => exact h

/-- A request keeps what it rests on, unless its own schedule is executed meanwhile. -/
theorem ScheduleTask.Sound.mono (h : task.Sound s) (hNow : s.now ≤ s'.now)
    (hNew : ∀ e ∈ s'.table.executions.map Prod.snd, e ∈ s.table.executions.map Prod.snd ∨
      task.opens ≠ some e.scheduleId) : task.Sound s' := by
  cases task with
  | listingRuns due startedAt => exact le_trans h hNow
  | listing due startedAt runs => exact le_trans h hNow
  | saveDisabled record => exact h
  | executing pass schedule stage rest =>
    refine ⟨h.begun.trans hNow, h.due, h.listed, ?_⟩
    have hStage := h.stage
    cases stage with
    | rerun call stage => trivial
    | saveExecution execution => exact hStage
    | saveSchedule execution =>
      refine ⟨hStage.1, fun e hMem hSame => ?_⟩
      rcases hNew e hMem with hOld | hOther
      · exact hStage.2 e hOld hSame
      · exact absurd (congrArg some hSame.symm) hOther
  | create record => trivial
  | disable operationType scheduleId => trivial
  | «begin» due => trivial
  | saveRun record => trivial
  | tick later => trivial
  | done => trivial

theorem guarded_saveSchedule (h : Guarded table e)
    (hSaved : e.scheduleId = record.scheduleId → record.status = .disabled ∨
      ∃ last, record.lastExecutionAt = some last ∧ e.startedAt ≤ last) :
    Guarded (table.saveSchedule record) e := by
  obtain ⟨stored, hStored, hKept⟩ := h
  unfold Guarded
  rw [getSchedule_saveSchedule]
  by_cases hSame : e.scheduleId = record.scheduleId
  · rw [if_pos hSame]
    exact ⟨record, rfl, hSaved hSame⟩
  · rw [if_neg hSame]
    exact ⟨stored, hStored, hKept⟩

/-- A save over a schedule keeps the tables in order, unless it undoes a disable. -/
theorem ordered_saveSchedule (h : Ordered s)
    (hDisabled : record.scheduleId ∈ s.disabled → record.status = .disabled) :
    Ordered (s.withTable (s.table.saveSchedule record)) where
  nodup := Dict.nodup_set h.nodup
  ids scheduleId stored hStored := by
    replace hStored : (s.table.saveSchedule record).getSchedule scheduleId = some stored := hStored
    rw [getSchedule_saveSchedule] at hStored
    split at hStored
    next hSame =>
      obtain rfl := Option.some.inj hStored
      exact hSame.symm
    · exact h.ids scheduleId stored hStored
  disabled scheduleId hMem := by
    show ∃ stored, (s.table.saveSchedule record).getSchedule scheduleId = some stored ∧ _
    rw [getSchedule_saveSchedule]
    by_cases hSame : scheduleId = record.scheduleId
    · rw [if_pos hSame]
      exact ⟨record, rfl, hDisabled (hSame ▸ hMem)⟩
    · rw [if_neg hSame]
      exact h.disabled scheduleId hMem
  notExecuted := h.notExecuted
  oneExecution := h.oneExecution
  keys := h.keys

/-- A request that is about to execute a schedule meets no execution of it in its minute. -/
theorem no_execution_in_minute
    (hStored : table.getSchedule schedule.scheduleId = some schedule)
    (hLast : ∀ last ∈ schedule.lastExecutionAt, last ≤ startedAt)
    (hFires : fires schedule startedAt = .ok true) (hGuarded : Guarded table e)
    (hSame : e.scheduleId = schedule.scheduleId) :
    civilMinute e.startedAt ≠ civilMinute startedAt ∧ e.startedAt ≤ startedAt := by
  obtain ⟨record, hRecord, hKept⟩ := hGuarded
  rw [hSame, hStored] at hRecord
  obtain rfl := Option.some.inj hRecord
  rcases hKept with hDisabled | ⟨last, hLastExecution, hBefore⟩
  · rw [active_of_fires hFires] at hDisabled
    cases hDisabled
  · have hAfter := hLast last hLastExecution
    refine ⟨fun hMinute => ?_, hBefore.trans hAfter⟩
    have hLower := minuteOf_mono hBefore
    have hUpper := minuteOf_mono hAfter
    have hEqual := civilMinute_inj hMinute
    exact not_fires_of_last hLastExecution (le_antisymm hUpper (hEqual ▸ hLower)) hFires

end Step

/-! ## Whole runs -/

section Runs

variable {s : Threads Scheduler ScheduleTask} {s' : Scheduler} {i : Nat} {task task' : ScheduleTask}

theorem mem_locals_set {other : ScheduleTask} (hl : s.locals[i]? = some task)
    (hMem : other ∈ s.locals) (hNe : other ≠ task) : other ∈ s.locals.set i task' := by
  obtain ⟨j, hj⟩ := mem_iff_getElem?.mp hMem
  refine mem_iff_getElem?.mpr ⟨j, ?_⟩
  rw [List.getElem?_set_ne, hj]
  rintro rfl
  exact hNe (Option.some.inj (hj.symm.trans hl))

section

variable (h : Orderly s)
include h

theorem orderly_set (hl : s.locals[i]? = some task) (hOrdered : Ordered s')
    (hSound : task'.Sound s') (hNow : s.shared.now ≤ s'.now)
    (hNew : ∀ e ∈ s'.table.executions.map Prod.snd,
      e ∈ s.shared.table.executions.map Prod.snd ∨
        ∀ other ∈ s.locals, other.opens ≠ some e.scheduleId)
    (hGuarded : ∀ e ∈ s'.table.executions.map Prod.snd, Guarded s'.table e ∨
      task'.opens = some e.scheduleId ∨ task.opens ≠ some e.scheduleId ∧
        ∃ other ∈ s.locals, other.opens = some e.scheduleId) :
    Orderly ⟨s', s.locals.set i task'⟩ where
  ordered := hOrdered
  guarded e hMem := by
    refine (hGuarded e hMem).imp_right ?_
    rintro (hOpens | ⟨hNot, other, hOther, hOpens⟩)
    · exact ⟨task', mem_set (List.getElem?_eq_some_iff.mp hl).1 task', hOpens⟩
    · exact ⟨other, mem_locals_set hl hOther fun hSame => hNot (hSame ▸ hOpens), hOpens⟩
  own other hOther := by
    rcases mem_or_eq_of_mem_set hOther with hOld | rfl
    · exact (h.own other hOld).mono hNow fun e hMem =>
        (hNew e hMem).imp_right fun hFree => hFree other hOld
    · exact hSound

/-- A step that touches neither schedules nor executions. -/
theorem orderly_quiet (hl : s.locals[i]? = some task) (hOpens : task.opens = none)
    {world : World} {now : Instant} (hNow : s.shared.now ≤ now)
    (hKeys : RunStore.UniqueKeys world.store.runs)
    (hSound : task'.Sound { s.shared.withWorld world with now := now }) :
    Orderly ⟨{ s.shared.withWorld world with now := now }, s.locals.set i task'⟩ := by
  refine orderly_set h hl ⟨h.ordered.nodup, h.ordered.ids, h.ordered.disabled,
    h.ordered.notExecuted, h.ordered.oneExecution, hKeys⟩ hSound hNow (fun e hMem => .inl hMem) ?_
  intro e hMem
  refine (h.guarded e hMem).imp id fun hOpen => .inr ⟨?_, hOpen⟩
  rw [hOpens]
  exact (some_ne_none _).symm

/-- A save over a schedule by a request that has executed nothing. -/
theorem orderly_save {record : ScheduledOperationRecord} {disabled : List String}
    (hl : s.locals[i]? = some task) (hOpens : task.opens = none)
    (hOrdered : Ordered
      { s.shared.withTable (s.shared.table.saveSchedule record) with disabled := disabled })
    (hSaved : ∀ stored, s.shared.table.getSchedule record.scheduleId = some stored →
      record.status = .disabled) :
    Orderly ⟨{ s.shared.withTable (s.shared.table.saveSchedule record) with disabled := disabled },
      s.locals.set i .done⟩ := by
  refine orderly_set h hl hOrdered trivial le_rfl (fun e hMem => .inl hMem) ?_
  intro e hMem
  refine (h.guarded e hMem).imp (fun hKept => ?_) fun hOpen => .inr ⟨?_, hOpen⟩
  · refine guarded_saveSchedule hKept fun hSame => .inl ?_
    obtain ⟨stored, hStored, -⟩ := hKept
    exact hSaved stored (hSame ▸ hStored)
  · rw [hOpens]
    exact (some_ne_none _).symm

variable {execution : ScheduledExecutionRecord} {rest : List ScheduledOperationRecord}
  {schedule : ScheduledOperationRecord}

theorem orderly_saveExecution {pass : Pass}
    (hl : s.locals[i]? = some (.executing pass schedule (.saveExecution execution) rest))
    (hFresh : FreshCopy s (.step i)) : Orderly (scheduleRequests.step s (.step i)) := by
  have hSound : SoundPass s.shared pass schedule (.saveExecution execution) rest :=
    h.own _ (mem_of_getElem? hl)
  have hDescribes : Describes pass schedule execution := hSound.stage
  obtain ⟨hStored, hLast, hAlone⟩ := hFresh _ hl
  -- An execution of the schedule that is there is guarded, because no request has yet to save it.
  have hEarlier : ∀ e ∈ s.shared.table.executions.map Prod.snd,
      e.scheduleId = schedule.scheduleId →
        civilMinute e.startedAt ≠ civilMinute pass.startedAt ∧ e.startedAt ≤ pass.startedAt := by
    intro e hMem hSame
    rcases h.guarded e hMem with hKept | ⟨other, hOther, hOpens⟩
    · exact no_execution_in_minute hStored hLast hSound.due hKept hSame
    · exact absurd (hSame ▸ hOpens) (hAlone other hOther)
  have hExecutions : ∀ e ∈ (Dict.set execution.executionId execution
      s.shared.table.executions).map Prod.snd,
      e = execution ∨ e ∈ s.shared.table.executions.map Prod.snd := by
    intro e hMem
    obtain ⟨entry, hEntry, rfl⟩ := mem_map.mp hMem
    exact (Dict.mem_of_mem_set hEntry).imp (fun hSame => congrArg Prod.snd hSame)
      fun hOld => mem_map_of_mem hOld
  rw [Program.step_of_getElem? hl]
  refine orderly_set h hl ?_ ?_ le_rfl ?_ ?_
  · refine ⟨h.ordered.nodup, h.ordered.ids, h.ordered.disabled, ?_, ?_, h.ordered.keys⟩
    · intro entry hEntry
      rcases mem_append.mp hEntry with hOld | hNew
      · exact h.ordered.notExecuted entry hOld
      · obtain rfl := mem_singleton.mp hNew
        rw [hDescribes.schedule]
        exact hSound.listed schedule mem_cons_self hSound.due
    · intro e hMem e' hMem' hSame hMinute
      rcases hExecutions e hMem with rfl | hOld
      · rcases hExecutions e' hMem' with rfl | hOld'
        · rfl
        · have hOther := (hEarlier e' hOld' (hSame ▸ hDescribes.schedule)).1
          exact absurd (hMinute.symm.trans (by rw [hDescribes.started])) hOther
      · rcases hExecutions e' hMem' with rfl | hOld'
        · have hOther := (hEarlier e hOld (hSame.trans hDescribes.schedule)).1
          exact absurd (hMinute.trans (by rw [hDescribes.started])) hOther
        · exact h.ordered.oneExecution e hOld e' hOld' hSame hMinute
  · refine ⟨hSound.begun, hSound.due, hSound.listed, hDescribes, fun e hMem hSame => ?_⟩
    rcases hExecutions e hMem with rfl | hOld
    · exact hDescribes.started ▸ hDescribes.finished
    · exact (hEarlier e hOld hSame).2.trans hDescribes.finished
  · intro e hMem
    rcases hExecutions e hMem with rfl | hOld
    · right
      rw [hDescribes.schedule]
      exact hAlone
    · exact .inl hOld
  · intro e hMem
    rcases hExecutions e hMem with rfl | hOld
    · exact .inr (.inl (congrArg some hDescribes.schedule.symm))
    · rcases h.guarded e hOld with hKept | hOpen
      · exact .inl hKept
      · exact .inr (.inr ⟨(some_ne_none _).symm, hOpen⟩)

theorem orderly_saveSchedule {pass : Pass}
    (hl : s.locals[i]? = some (.executing pass schedule (.saveSchedule execution) rest))
    (hFresh : FreshCopy s (.step i)) : Orderly (scheduleRequests.step s (.step i)) := by
  have hSound : SoundPass s.shared pass schedule (.saveSchedule execution) rest :=
    h.own _ (mem_of_getElem? hl)
  obtain ⟨hDescribes, hBefore⟩ := hSound.stage
  replace hFresh : s.shared.table.getSchedule schedule.scheduleId = some schedule := hFresh _ hl
  rw [Program.step_of_getElem? hl]
  refine orderly_set h hl ?_ ?_ le_rfl (fun e hMem => .inl hMem) ?_
  · refine ordered_saveSchedule h.ordered fun hDisabled => ?_
    obtain ⟨record, hRecord, hStatus⟩ := h.ordered.disabled _ hDisabled
    obtain rfl := Option.some.inj (hFresh.symm.trans hRecord)
    exact hStatus
  · refine sound_goOn hSound.begun fun copy hCopy => ?_
    exact hSound.listed copy (mem_cons_of_mem _ hCopy)
  · intro e hMem
    by_cases hSame : e.scheduleId = schedule.scheduleId
    · left
      refine ⟨markExecuted execution.finishedAt execution.resultStatus execution.resultDetail
        schedule, ?_, .inr ⟨execution.finishedAt, rfl, hBefore e hMem hSame⟩⟩
      show (Timetable.saveSchedule _ _).getSchedule _ = _
      rw [getSchedule_saveSchedule]
      exact if_pos hSame
    · rcases h.guarded e hMem with hKept | hOpen
      · exact .inl (guarded_saveSchedule hKept fun hEq => absurd hEq hSame)
      · refine .inr (.inr ⟨fun hOpens => hSame ?_, hOpen⟩)
        exact (Option.some.inj hOpens).symm

end

theorem step_requests (hl : s.locals[i]? = some task) : scheduleRequests.step s (.step i) =
    ⟨(task.next s.shared).1, s.locals.set i (task.next s.shared).2⟩ :=
  Program.step_of_getElem? hl

theorem orderly_step (h : Orderly s) {move : Move ScheduleTraffic} (hFresh : FreshCopy s move) :
    Orderly (scheduleRequests.step s move) := by
  cases move with
  | call traffic =>
    refine ⟨h.ordered, fun e hMem => ?_, fun task hTask => ?_⟩
    · refine (h.guarded e hMem).imp_right ?_
      rintro ⟨other, hOther, hOpens⟩
      exact ⟨other, mem_append_left _ hOther, hOpens⟩
    · rcases mem_append.mp hTask with hOld | hNew
      · exact h.own task hOld
      · obtain rfl := mem_singleton.mp hNew
        cases traffic <;> trivial
  | step i =>
    cases hl : s.locals[i]? with
    | none =>
      rw [Program.step_of_none hl]
      exact h
    | some task =>
      have hKeys := h.ordered.keys
      have hSound : task.Sound s.shared := h.own task (mem_of_getElem? hl)
      cases task with
      | executing pass schedule stage rest =>
        cases stage with
        | saveExecution execution => exact orderly_saveExecution h hl hFresh
        | saveSchedule execution => exact orderly_saveSchedule h hl hFresh
        | rerun call stage =>
          have hPass : SoundPass s.shared pass schedule (.rerun call stage) rest := hSound
          have hRuns : RunStore.UniqueKeys
              (rerunNext call pass.startedAt schedule s.shared stage).1.store.runs :=
            uniqueKeys_rerunNext hKeys
          rw [step_requests hl]
          unfold ScheduleTask.next
          dsimp only
          rcases hNext : rerunNext call pass.startedAt schedule s.shared stage with
            ⟨world, progress⟩
          rw [hNext] at hRuns
          cases progress with
          | raised => exact orderly_quiet h hl rfl le_rfl hRuns trivial
          | stage stage' =>
            exact orderly_quiet h hl rfl le_rfl hRuns
              ⟨hPass.begun, hPass.due, hPass.listed, trivial⟩
          | recorded execution =>
            obtain ⟨hSchedule, hStarted, hFinished⟩ :=
              rerunNext_recorded hPass.begun (congrArg Prod.snd hNext)
            exact orderly_quiet h hl rfl le_rfl hRuns
              ⟨hPass.begun, hPass.due, hPass.listed, ⟨hSchedule, hStarted, hFinished⟩⟩
      | listing due startedAt runs =>
        rw [Program.step_of_getElem? hl]
        refine orderly_quiet h hl rfl le_rfl hKeys (sound_goOn hSound ?_)
        intro copy hCopy hFires
        exact not_disabled_of_listed h.ordered hCopy hFires
      | create record =>
        rw [step_requests hl]
        unfold ScheduleTask.next
        dsimp only
        split
        · exact orderly_quiet h hl rfl le_rfl hKeys trivial
        next hNew =>
          have hNone : s.shared.table.getSchedule record.scheduleId = none :=
            not_isSome_iff_eq_none.mp hNew
          refine orderly_save h hl rfl (ordered_saveSchedule h.ordered fun hDisabled => ?_) ?_
          · obtain ⟨stored, hStored, -⟩ := h.ordered.disabled _ hDisabled
            rw [hNone] at hStored
            cases hStored
          · intro stored hStored
            rw [hNone] at hStored
            cases hStored
      | saveDisabled record =>
        rw [Program.step_of_getElem? hl]
        have hStatus : record.status = .disabled := hSound
        have hSaved := ordered_saveSchedule h.ordered fun _ => hStatus
        refine orderly_save h hl rfl ?_ fun _ _ => hStatus
        refine ⟨hSaved.nodup, hSaved.ids, fun scheduleId hMem => ?_, hSaved.notExecuted,
          hSaved.oneExecution, hSaved.keys⟩
        rcases mem_append.mp hMem with hOld | hNew
        · exact hSaved.disabled scheduleId hOld
        · obtain rfl := mem_singleton.mp hNew
          refine ⟨record, ?_, hStatus⟩
          show (Timetable.saveSchedule _ _).getSchedule _ = _
          rw [getSchedule_saveSchedule, if_pos rfl]
      | disable operationType scheduleId =>
        rw [step_requests hl]
        unfold ScheduleTask.next
        dsimp only
        split
        · exact orderly_quiet h hl rfl le_rfl hKeys trivial
        · split
          · exact orderly_quiet h hl rfl le_rfl hKeys trivial
          · exact orderly_quiet h hl rfl le_rfl hKeys rfl
      | «begin» due =>
        rw [Program.step_of_getElem? hl]
        cases due with
        | digests executionId => exact orderly_quiet h hl rfl le_rfl hKeys le_rfl
        | reruns call => exact orderly_quiet h hl rfl le_rfl hKeys le_rfl
      | listingRuns due startedAt =>
        rw [Program.step_of_getElem? hl]
        exact orderly_quiet h hl rfl le_rfl hKeys hSound
      | saveRun record =>
        rw [step_requests hl]
        unfold ScheduleTask.next
        dsimp only
        split
        · exact orderly_quiet h hl rfl le_rfl hKeys trivial
        next store hSaved =>
          obtain ⟨hFree, rfl⟩ := RunStore.saveRun_eq_ok_iff.mp hSaved
          exact orderly_quiet h hl rfl le_rfl (RunStore.uniqueKeys_set hFree hKeys) trivial
      | tick later =>
        rw [Program.step_of_getElem? hl]
        exact orderly_quiet h hl rfl (le_max_left _ _) hKeys trivial
      | done =>
        rw [Program.step_of_getElem? hl]
        exact orderly_quiet h hl rfl le_rfl hKeys trivial

end Runs

theorem schedulesHeld_of_ordered {s : Scheduler} (h : Ordered s) : SchedulesHeld s where
  disabled := h.disabled
  notExecuted := h.notExecuted
  oneExecution := h.oneExecution
  oneRun run hRun run' hRun' scheduleId at₁ at₂ hMinute hKey hKey' := by
    rw [rerunKey, minuteStamp, ← hMinute, ← minuteStamp, ← rerunKey, ← hKey] at hKey'
    refine h.keys run hRun run' hRun' ?_ hKey'.symm
    rw [hKey]
    exact decide_eq_true (rerunKey_ne_empty at₁ scheduleId)

/-- In every run in which executions and saves meet the schedules as they were listed, a disable
stays, and a schedule has one execution and one run a minute. -/
theorem disable_sticks (now : Instant) (moves : List (Move ScheduleTraffic))
    (hFresh : Along scheduleRequests.step FreshCopy ⟨{ now := now }, []⟩ moves) :
    SchedulesHeld (exec scheduleRequests.step ⟨{ now := now }, []⟩ moves).shared := by
  have hStart : Orderly ⟨{ now := now }, []⟩ := by
    refine ⟨⟨nodup_nil, ?_, ?_, ?_, ?_, ?_⟩, ?_, ?_⟩
    · intro scheduleId record hRecord
      cases hRecord
    · intro scheduleId hMem
      cases hMem
    · intro entry hMem
      cases hMem
    · intro e hMem
      cases hMem
    · intro run hMem
      cases hMem
    · intro e hMem
      cases hMem
    · intro task hMem
      cases hMem
  have hEnd : Orderly (exec scheduleRequests.step ⟨{ now := now }, []⟩ moves) :=
    hFresh.invariant (fun s move hFresh h => orderly_step h hFresh) hStart
  exact schedulesHeld_of_ordered hEnd.ordered

def minutelyDigest : ScheduledOperationRecord :=
  buildDigestSchedule { cronExpr := "* * * * *", digestKind := "runs" } {} 0 "s"

def listedDigest : List (Move ScheduleTraffic) :=
  [.call (.create minutelyDigest), .step 0, .call (.runDue (.digests fun _ => "e")), .step 1,
    .step 1, .step 1]

def executeDigest : List (Move ScheduleTraffic) := [.step 1, .step 1]

def disableDigest : List (Move ScheduleTraffic) :=
  [.call (.disable .digest "s"), .step 2, .step 2]

theorem disable_sticks_afterwards :
    SchedulesHeld (exec scheduleRequests.step ⟨{ now := 0 }, []⟩
      (listedDigest ++ executeDigest ++ disableDigest)).shared :=
  disable_sticks 0 _ (by decide +kernel)

/-- The request saves its copy over the disabled schedule. -/
theorem disable_undone :
    ¬ SchedulesHeld (exec scheduleRequests.step ⟨{ now := 0 }, []⟩
      (listedDigest ++ disableDigest ++ executeDigest)).shared := by
  intro h
  have hReturned : "s" ∈ (exec scheduleRequests.step ⟨{ now := 0 }, []⟩
      (listedDigest ++ disableDigest ++ executeDigest)).shared.disabled := by
    decide +kernel
  have hActive : ((exec scheduleRequests.step ⟨{ now := 0 }, []⟩
      (listedDigest ++ disableDigest ++ executeDigest)).shared.table.getSchedule "s").map
        ScheduledOperationRecord.status = some .active := by
    decide +kernel
  obtain ⟨record, hRecord, hStatus⟩ := h.disabled "s" hReturned
  rw [hRecord] at hActive
  rw [show record.status = .active from Option.some.inj hActive] at hStatus
  cases hStatus

end Glasslab.WorkflowApi
