import Glasslab.Foundation.Tally
import Glasslab.WorkflowApi.ApprovedReruns

/-!
# Schedules that are due

Every schedule that is due when the loop over the approved reruns is called, and of which nothing
was started in that minute, should get one execution. But the loop goes by the minute in which the
last execution was finished, and an exception at one schedule, also at its cron expression, ends it
for all that follow.
-/

namespace Glasslab.WorkflowApi

open Foundation Machine List

def startedInMinute (table : Timetable) (scheduleId : String) (now : Instant) : Nat :=
  table.executions.countP fun entry =>
    entry.2.scheduleId = scheduleId ∧ civilMinute entry.2.startedAt = civilMinute now

def Pending (table : Timetable) (now : Instant) (schedule : ScheduledOperationRecord) : Prop :=
  scheduleIsDue schedule now = .ok true ∧ startedInMinute table schedule.scheduleId now = 0

/-- Every schedule that is pending when a call starts gets one execution of that minute. -/
def FiresOnce (table : Timetable) : RerunEvent → Prop
  | .runDue call now => ∀ schedule ∈ table.listSchedules .approvedRerun,
      Pending table now schedule →
        startedInMinute (executeDueApprovedRerunSchedules call now table).2 schedule.scheduleId
          now = 1
  | _ => True

/-- The status of the source run can be read, if there is one; and if the schedule has not drifted
from it and the registry knows its workflow, the request is valid, and the run is there already or
is admitted. -/
def Completable (call : RerunCall) (now : Instant) (table : Timetable)
    (schedule : ScheduledOperationRecord) : Prop :=
  ∀ source, table.world.store.getRun (schedule.sourceRunId.getD "") = some source →
    ∃ resolved, (call.turn schedule).resolve source = .ok resolved ∧
      let updated := (refreshed resolved source).getD source
      driftReason schedule updated = none → ∀ workflow,
        call.registry.getWorkflow updated.workflowId = some workflow →
          ∃ request, rerunRequest call.fits schedule updated = .ok request ∧
            ((refreshedStore resolved source table.world.store).getRunByIdempotencyKey
                (rerunKey schedule.scheduleId now) = none →
              Submittable request workflow call.settings (call.turn schedule).surroundings)

/-- The cron expression can be read, and if the schedule passes both checks, it can be completed. -/
def Completes (call : RerunCall) (now : Instant) (table : Timetable)
    (schedule : ScheduledOperationRecord) : Prop :=
  Legible schedule ∧ (fires schedule now = .ok true → Completable call now table schedule)

/-- A pending schedule has no execution that was finished in this minute, and neither it nor a
schedule before it raises an exception. -/
def Unhindered (table : Timetable) : RerunEvent → Prop
  | .runDue call now => ∀ before schedule after,
      table.listSchedules .approvedRerun = before ++ schedule :: after →
        Pending table now schedule → executedThisMinute schedule now = false ∧
          Along (turnStep call now) (Completes call now) table (before ++ [schedule])
  | _ => True

/-- Every execution gets an id of its own. -/
def FreshIds (call : RerunCall) (now : Instant) (table : Timetable)
    (schedule : ScheduledOperationRecord) : Prop :=
  fires schedule now = .ok true →
    (call.turn schedule).executionId ∉ table.executions.map Prod.fst

def FreshExecutions (table : Timetable) : RerunEvent → Prop
  | .runDue call now =>
    Along (turnStep call now) (FreshIds call now) table (table.listSchedules .approvedRerun)
  | _ => True

/-- Runs and schedules are stored under their keys. -/
structure WellKept (table : Timetable) : Prop where
  runs : RunStore.UniqueKeys table.world.store.runs
  ids : (table.schedules.map Prod.fst).Nodup
  keyed : ∀ entry ∈ table.schedules, entry.1 = entry.2.scheduleId

section Turn

variable {call : RerunCall} {now : Instant} {schedule : ScheduledOperationRecord}
  {source : RunRecord} {workflow : WorkflowRegistryEntry} {table : Timetable} {id : String}
  {result : Except Failure ScheduledExecutionRecord × Timetable}

/-- An execution is returned and recorded, with the schedule. -/
structure Records (call : RerunCall) (now : Instant) (schedule : ScheduledOperationRecord)
    (table : Timetable) (result : Except Failure ScheduledExecutionRecord × Timetable) :
    Prop where
  returns : ∃ execution, result.1 = .ok execution
  executions : ∃ execution, execution.scheduleId = schedule.scheduleId ∧
    execution.startedAt = now ∧ result.2.executions =
      Dict.set (call.turn schedule).executionId execution table.executions
  schedules : ∃ record, result.2.schedules = (table.saveSchedule record).schedules

structure Raises (table : Timetable)
    (result : Except Failure ScheduledExecutionRecord × Timetable) : Prop where
  raises : ∃ failure, result.1 = .error failure
  executions : result.2.executions = table.executions
  schedules : result.2.schedules = table.schedules

theorem records_failClosed (reason : String) (world : World) :
    Records call now schedule table
      (failClosed call now schedule reason (table.withWorld world)) where
  returns := ⟨_, rfl⟩
  executions := ⟨failedClosedExecution schedule now _ reason, rfl, rfl, rfl⟩
  schedules := ⟨_, rfl⟩

theorem submitRerun_cases (read : Timetable) (hExecutions : read.executions = table.executions)
    (hSchedules : read.schedules = table.schedules) :
    let submittable := ∃ request, rerunRequest call.fits schedule source = .ok request ∧
      (read.world.store.getRunByIdempotencyKey (rerunKey schedule.scheduleId now) = none →
        Submittable request workflow call.settings (call.turn schedule).surroundings)
    let result := submitRerun call now schedule source workflow read
    submittable ∧ Records call now schedule table result ∨ ¬ submittable ∧ Raises table result := by
  intro submittable result
  cases hRequest : rerunRequest call.fits schedule source with
  | error failure =>
    refine .inr ⟨fun ⟨request, hOk, _⟩ => ?_, ?_⟩
    · rw [hRequest] at hOk
      cases hOk
    · simp only [result, submitRerun_of_error hRequest]
      exact ⟨⟨_, rfl⟩, hExecutions, hSchedules⟩
  | ok request =>
    have hCreated {run : RunRecord} {after : World}
        (hCreate : createRunRecord request workflow call.settings (rerunOrigin source)
          (some (rerunKey schedule.scheduleId now)) (call.turn schedule).surroundings read.world =
            (.ok run, after)) : Records call now schedule table result := by
      simp only [result, submitRerun_of_created hRequest hCreate]
      exact ⟨⟨_, rfl⟩,
        ⟨rerunExecution schedule now (call.turn schedule).finishedAt _ run.runId, rfl,
        rfl, congrArg (Dict.set _ _) hExecutions⟩, _, congrArg (Dict.set _ _) hSchedules⟩
    cases hFound : read.world.store.getRunByIdempotencyKey (rerunKey schedule.scheduleId now) with
    | some existing =>
      refine .inl ⟨⟨request, hRequest, fun hNone => ?_⟩, hCreated
        (createFrom_of_taken (rerunKey_ne_empty now schedule.scheduleId) hFound)⟩
      rw [hFound] at hNone
      cases hNone
    | none =>
      by_cases hSubmit : Submittable request workflow call.settings
          (call.turn schedule).surroundings
      · obtain ⟨run, after, hCreate, -⟩ :=
          createRunRecord_of_submittable (rerunOrigin source) hFound hSubmit
        exact .inl ⟨⟨request, hRequest, fun _ => hSubmit⟩, hCreated hCreate⟩
      · obtain ⟨failure, after, hCreate⟩ :=
          createRunRecord_of_not_submittable (rerunOrigin source) hFound hSubmit
        refine .inr ⟨fun ⟨other, hOk, hOther⟩ => ?_, ?_⟩
        · obtain rfl := Except.ok.inj (hRequest.symm.trans hOk)
          exact hSubmit (hOther hFound)
        · simp only [result, submitRerun_of_failed hRequest hCreate]
          exact ⟨⟨_, rfl⟩, hExecutions, hSchedules⟩

theorem executeSchedule_cases (hUnique : RunStore.UniqueKeys table.world.store.runs) :
    Completable call now table schedule ∧
        Records call now schedule table (executeSchedule call now schedule table) ∨
      ¬ Completable call now table schedule ∧
        Raises table (executeSchedule call now schedule table) := by
  cases hSource : table.world.store.getRun (schedule.sourceRunId.getD "") with
  | none =>
    refine .inl ⟨fun source hSome => ?_, ?_⟩
    · rw [hSource] at hSome
      cases hSome
    · unfold executeSchedule
      rw [hSource]
      exact records_failClosed _ table.world
  | some source =>
    have hMem := RunStore.mem_runs_of_getRun hSource
    simp only [Completable, hSource, Option.some.injEq, forall_eq']
    rw [executeSchedule_of_source hSource]
    cases hResolve : (call.turn schedule).resolve source with
    | error failure =>
      rw [refreshSource_of_error hResolve]
      refine .inr ⟨fun ⟨resolved, hOk, _⟩ => ?_, ⟨_, rfl⟩, rfl, rfl⟩
      cases hOk
    | ok resolved =>
      simp only [Except.ok.injEq, exists_eq_left']
      rw [refreshSource_of_ok hUnique hMem hResolve]
      dsimp only
      cases hDrift : driftReason schedule ((refreshed resolved source).getD source) with
      | some reason =>
        rw [rerunSource_of_drift hDrift]
        exact .inl ⟨nofun, records_failClosed reason _⟩
      | none =>
        simp only [forall_const]
        cases hWorkflow :
            call.registry.getWorkflow ((refreshed resolved source).getD source).workflowId with
        | none =>
          rw [rerunSource_of_unregistered hDrift hWorkflow]
          exact .inl ⟨nofun, records_failClosed _ _⟩
        | some workflow =>
          rw [rerunSource_of_workflow hDrift hWorkflow]
          simp only [Option.some.injEq, forall_eq']
          exact submitRerun_cases
            (table.withStore (refreshedStore resolved source table.world.store))
            rfl rfl

theorem startedInMinute_of_records (h : Records call now schedule table result)
    (hFresh : (call.turn schedule).executionId ∉ table.executions.map Prod.fst) (id : String) :
    startedInMinute result.2 id now =
      startedInMinute table id now + if schedule.scheduleId = id then 1 else 0 := by
  obtain ⟨execution, hSchedule, hStarted, hSet⟩ := h.executions
  unfold startedInMinute
  rw [hSet, Dict.set_of_not_mem hFresh, countP_append]
  simp [countP_cons, hSchedule, hStarted]

section

variable (hUnique : RunStore.UniqueKeys table.world.store.runs)
include hUnique

theorem startedInMinute_turnStep (h : Completes call now table schedule)
    (hFresh : FreshIds call now table schedule) (id : String) :
    startedInMinute (turnStep call now table schedule) id now = startedInMinute table id now +
      if fires schedule now = .ok true ∧ schedule.scheduleId = id then 1 else 0 := by
  unfold turnStep
  by_cases hFires : fires schedule now = .ok true
  · rcases executeSchedule_cases hUnique with ⟨-, hRecords⟩ | ⟨hNot, -⟩
    · simpa [hFires] using startedInMinute_of_records hRecords (hFresh hFires) id
    · exact absurd (h.2 hFires) hNot
  · simp [hFires]

theorem executeDue_of_completes (h : Completes call now table schedule)
    (schedules : List ScheduledOperationRecord) :
    (executeDue call now (schedule :: schedules) table).2 =
      (executeDue call now schedules (turnStep call now table schedule)).2 := by
  unfold turnStep
  rw [executeDue]
  obtain ⟨due, hFires⟩ := fires_eq_ok_iff.mpr h.1
  rw [hFires]
  cases due with
  | false => rw [if_neg (by decide)]
  | true =>
    rcases executeSchedule_cases hUnique with ⟨-, hRecords⟩ | ⟨hNot, -⟩
    · obtain ⟨execution, hOk⟩ := hRecords.returns
      dsimp only
      rw [Tx.bind_of_ok (Prod.ext hOk rfl)]
      show (Tx.bind (executeDue call now schedules) _ _).2 = _
      unfold Tx.bind
      split
      next hRest => exact (congrArg Prod.snd hRest).symm
      next hRest => exact (congrArg Prod.snd hRest).symm
    · exact absurd (h.2 hFires) hNot

/-- An exception ends the loop, at the cron expression or in the execution. -/
theorem executeDue_of_not_completes (h : ¬ Completes call now table schedule)
    (schedules : List ScheduledOperationRecord) :
    (executeDue call now (schedule :: schedules) table).2 = turnStep call now table schedule ∧
      (turnStep call now table schedule).executions = table.executions ∧
      (turnStep call now table schedule).schedules = table.schedules := by
  unfold turnStep
  rw [executeDue]
  cases hFires : fires schedule now with
  | error failure =>
    exact ⟨rfl, rfl, rfl⟩
  | ok due =>
    have hNot : ¬ (fires schedule now = .ok true → Completable call now table schedule) :=
      fun hDone => h ⟨fires_eq_ok_iff.mp ⟨due, hFires⟩, hDone⟩
    obtain ⟨hTrue, hNot⟩ := Classical.not_imp.mp hNot
    obtain rfl := Except.ok.inj (hFires.symm.trans hTrue)
    rcases executeSchedule_cases hUnique with ⟨hDone, -⟩ | ⟨-, hRaises⟩
    · exact absurd hDone hNot
    · obtain ⟨failure, hError⟩ := hRaises.raises
      dsimp only
      rw [Tx.bind_of_error (Prod.ext hError rfl)]
      exact ⟨rfl, hRaises.executions, hRaises.schedules⟩

theorem startedInMinute_of_raised (h : ¬ Completes call now table schedule)
    (schedules : List ScheduledOperationRecord) (id : String) :
    startedInMinute (executeDue call now (schedule :: schedules) table).2 id now =
      startedInMinute table id now := by
  obtain ⟨hEnd, hExecutions, -⟩ := executeDue_of_not_completes hUnique h schedules
  rw [hEnd, startedInMinute, hExecutions]
  rfl

end

theorem startedInMinute_executeDue_of_absent {schedules : List ScheduledOperationRecord}
    (hUnique : RunStore.UniqueKeys table.world.store.runs)
    (hFresh : Along (turnStep call now) (FreshIds call now) table schedules)
    (hAbsent : ∀ other ∈ schedules, other.scheduleId ≠ id) :
    startedInMinute (executeDue call now schedules table).2 id now =
      startedInMinute table id now := by
  induction schedules generalizing table with
  | nil => rfl
  | cons schedule schedules ih =>
    obtain ⟨hNe, hAbsent⟩ := forall_mem_cons.mp hAbsent
    by_cases h : Completes call now table schedule
    · rw [executeDue_of_completes hUnique h, ih (uniqueKeys_turnStep hUnique) hFresh.2 hAbsent,
        startedInMinute_turnStep hUnique h hFresh.1, if_neg fun hSame => hNe hSame.2]
      rfl
    · exact startedInMinute_of_raised hUnique h schedules id

/-- A schedule of which nothing was started gets an execution if it passes both checks, and neither
it nor a schedule before it raises an exception. -/
theorem startedInMinute_executeDue {before after : List ScheduledOperationRecord}
    (hUnique : RunStore.UniqueKeys table.world.store.runs)
    (hFresh : Along (turnStep call now) (FreshIds call now) table (before ++ schedule :: after))
    (hIds : ((before ++ schedule :: after).map ScheduledOperationRecord.scheduleId).Nodup)
    (hNone : startedInMinute table schedule.scheduleId now = 0) :
    startedInMinute (executeDue call now (before ++ schedule :: after) table).2
        schedule.scheduleId now = 1 ↔
      fires schedule now = .ok true ∧
        Along (turnStep call now) (Completes call now) table (before ++ [schedule]) := by
  induction before generalizing table with
  | nil =>
    by_cases h : Completes call now table schedule
    · have hAbsent : ∀ other ∈ after, other.scheduleId ≠ schedule.scheduleId :=
        fun other hMem hSame => (nodup_cons.mp hIds).1 (hSame ▸ mem_map_of_mem hMem)
      rw [nil_append, executeDue_of_completes hUnique h,
        startedInMinute_executeDue_of_absent (uniqueKeys_turnStep hUnique) hFresh.2 hAbsent,
        startedInMinute_turnStep hUnique h hFresh.1, hNone]
      by_cases hFires : fires schedule now = .ok true <;> simp [hFires, Along, h]
    · rw [nil_append, startedInMinute_of_raised hUnique h, hNone]
      simp [Along, h]
  | cons first before ih =>
    obtain ⟨hNot, hIds⟩ := nodup_cons.mp hIds
    have hNe : first.scheduleId ≠ schedule.scheduleId := by
      intro hSame
      apply hNot
      simp [hSame]
    by_cases h : Completes call now table first
    · have hStep := startedInMinute_turnStep hUnique h hFresh.1 schedule.scheduleId
      rw [if_neg fun hSame => hNe hSame.2, hNone] at hStep
      rw [cons_append, executeDue_of_completes hUnique h,
        ih (uniqueKeys_turnStep hUnique) hFresh.2 hIds hStep]
      simp [Along, h]
    · rw [cons_append, startedInMinute_of_raised hUnique h, hNone]
      simp [Along, h]

/-! ## Keys -/

theorem wellKept_saveSchedule {saved : Timetable} (h : WellKept table)
    (hRuns : RunStore.UniqueKeys saved.world.store.runs) (record : ScheduledOperationRecord)
    (hSaved : saved.schedules = (table.saveSchedule record).schedules) : WellKept saved := by
  refine ⟨hRuns, ?_, ?_⟩
  · rw [hSaved]
    exact Dict.nodup_set h.ids
  · rw [hSaved]
    intro entry hMem
    rcases Dict.mem_of_mem_set hMem with rfl | hOld
    · rfl
    · exact h.keyed entry hOld

theorem wellKept_turnStep (h : WellKept table) : WellKept (turnStep call now table schedule) := by
  have hRuns := @uniqueKeys_turnStep call now schedule table h.runs
  unfold turnStep at hRuns ⊢
  split at hRuns
  next hFires =>
    rw [if_pos hFires]
    rcases executeSchedule_cases h.runs with ⟨-, hRecords⟩ | ⟨-, hRaises⟩
    · obtain ⟨record, hSaved⟩ := hRecords.schedules
      exact wellKept_saveSchedule h hRuns record hSaved
    · exact ⟨hRuns, hRaises.schedules ▸ h.ids, hRaises.schedules ▸ h.keyed⟩
  next hNot =>
    rw [if_neg hNot]
    exact h

theorem wellKept_executeDue (schedules : List ScheduledOperationRecord) (h : WellKept table) :
    WellKept (executeDue call now schedules table).2 := by
  induction schedules generalizing table with
  | nil => exact h
  | cons schedule schedules ih =>
    by_cases hDone : Completes call now table schedule
    · rw [executeDue_of_completes h.runs hDone]
      exact ih (wellKept_turnStep h)
    · rw [(executeDue_of_not_completes h.runs hDone schedules).1]
      exact wellKept_turnStep h

theorem wellKept_rerunStep (event : RerunEvent) (h : WellKept table) :
    WellKept (rerunStep table event) := by
  have hRuns := uniqueKeys_rerunStep event h.runs
  have hScheduled (answer : Except Failure ScheduledOperationRecord)
      (hRuns : RunStore.UniqueKeys (table.saveScheduled answer).world.store.runs) :
      WellKept (table.saveScheduled answer) := by
    cases answer with
    | error failure => exact h
    | ok record => exact wellKept_saveSchedule h hRuns record rfl
  cases event with
  | create attempt key => exact ⟨hRuns, h.ids, h.keyed⟩
  | report runId status =>
    have hSame : (rerunStep table (.report runId status)).schedules = table.schedules := by
      unfold rerunStep
      dsimp only
      split
      · rfl
      · split <;> rfl
    exact ⟨hRuns, hSame ▸ h.ids, hSame ▸ h.keyed⟩
  | approve request settings turn now scheduleId => exact hScheduled _ hRuns
  | disable scheduleId now => exact hScheduled _ hRuns
  | runDue call now => exact wellKept_executeDue _ h

theorem nodup_listSchedules (h : WellKept table) (operationType : OperationType) :
    ((table.listSchedules operationType).map ScheduledOperationRecord.scheduleId).Nodup := by
  have hKeys : (table.schedules.map Prod.snd).map ScheduledOperationRecord.scheduleId =
      table.schedules.map Prod.fst := by
    rw [map_map]
    exact map_congr_left fun entry hMem => (h.keyed entry hMem).symm
  apply ((perm_sortOn _ _).map _).nodup_iff.mpr
  apply (filter_sublist.map _).nodup
  rw [hKeys]
  exact h.ids

end Turn

theorem firesOnce_iff {table : Timetable} (hKept : WellKept table) {event : RerunEvent}
    (hFresh : FreshExecutions table event) : FiresOnce table event ↔ Unhindered table event := by
  cases event with
  | runDue call now =>
    have hCall {before : List ScheduledOperationRecord} {schedule : ScheduledOperationRecord}
        {after : List ScheduledOperationRecord}
        (hList : table.listSchedules .approvedRerun = before ++ schedule :: after)
        (hPending : Pending table now schedule) :
        startedInMinute (executeDueApprovedRerunSchedules call now table).2 schedule.scheduleId
            now = 1 ↔
          executedThisMinute schedule now = false ∧
            Along (turnStep call now) (Completes call now) table (before ++ [schedule]) := by
      have hIds := nodup_listSchedules hKept .approvedRerun
      rw [FreshExecutions] at hFresh
      rw [hList] at hIds hFresh
      rw [executeDueApprovedRerunSchedules, hList,
        startedInMinute_executeDue hKept.runs hFresh hIds hPending.2, fires, hPending.1]
      simp
    constructor
    · intro h before schedule after hList hPending
      refine (hCall hList hPending).mp (h schedule ?_ hPending)
      simp [hList]
    · intro h schedule hMem hPending
      obtain ⟨before, after, hList⟩ := append_of_mem hMem
      exact (hCall hList hPending).mpr (h before schedule after hList hPending)
  | create attempt key => exact Iff.rfl
  | report runId status => exact Iff.rfl
  | approve request settings turn now scheduleId => exact Iff.rfl
  | disable scheduleId now => exact Iff.rfl

/-- In every history every schedule gets one execution in every minute in which it is pending when
a call starts, exactly if nothing hinders it. -/
theorem fires_once_iff {start : Timetable} (hKept : WellKept start) (events : List RerunEvent)
    (hFresh : Along rerunStep FreshExecutions start events) :
    Along rerunStep FiresOnce start events ↔ Along rerunStep Unhindered start events := by
  induction events generalizing start with
  | nil => exact Iff.rfl
  | cons event events ih =>
    exact and_congr (firesOnce_iff hKept hFresh.1) (ih (wellKept_rerunStep event hKept) hFresh.2)

/-- A schedule before the approved one, with this cron expression. -/
def earlierSchedule (cronExpr : String) : ScheduledOperationRecord :=
  { approvedSchedule with scheduleId := "r", createdAt := 1, cronExpr := cronExpr }

/-- Two schedules whose source runs are gone. -/
def missingSources (cronExpr : String) : Timetable where
  schedules := [("s", approvedSchedule), ("r", earlierSchedule cronExpr)]

def numberedCall : RerunCall :=
  { rerunCall with
    turn := fun schedule => { rerunTurn with executionId := "e-" ++ schedule.scheduleId } }

/-- Schedules whose source runs are gone fail closed, each once. The first has an Arabic zero for
its minute. -/
theorem fires_once_missing :
    Along rerunStep FiresOnce (missingSources "٠,5 * * * *") [.runDue numberedCall 0] := by
  have hKept : WellKept (missingSources "٠,5 * * * *") := by
    refine ⟨fun _ hMem => absurd hMem not_mem_nil, by decide, ?_⟩
    simp [missingSources, earlierSchedule, approvedSchedule]
  have hList : (missingSources "٠,5 * * * *").listSchedules .approvedRerun =
      [earlierSchedule "٠,5 * * * *", approvedSchedule] := by
    decide +kernel
  have hFresh : FreshExecutions (missingSources "٠,5 * * * *") (.runDue numberedCall 0) := by
    exact ⟨fun _ => not_mem_nil, fun _ => by decide +kernel, trivial⟩
  refine (fires_once_iff hKept [.runDue numberedCall 0] ⟨hFresh, trivial⟩).mpr ⟨?_, trivial⟩
  have hMissing : Along (turnStep numberedCall 0) (Completes numberedCall 0)
      (missingSources "٠,5 * * * *") [earlierSchedule "٠,5 * * * *", approvedSchedule] := by
    refine ⟨⟨(@fires_eq_ok_iff _ 0).mp ⟨true, by decide +kernel⟩,
      fun _ source hSome => nomatch hSome⟩,
      ⟨(@fires_eq_ok_iff _ 0).mp ⟨true, by decide +kernel⟩, fun _ source hSome => ?_⟩, trivial⟩
    have hNone : (turnStep numberedCall 0 (missingSources "٠,5 * * * *")
        (earlierSchedule "٠,5 * * * *")).world.store.getRun "a" = none := by
      decide +kernel
    cases hNone.symm.trans hSome
  have hNever : ∀ schedule ∈ [earlierSchedule "٠,5 * * * *", approvedSchedule],
      executedThisMinute schedule 0 = false := by
    decide
  intro before schedule after hSplit _
  rw [hList] at hSplit
  rw [hSplit, append_cons] at hMissing
  rw [hSplit] at hNever
  exact ⟨hNever schedule (by simp), (along_append.mp hMissing).1⟩

/-- The rerun of minute 0 is finished in minute 1, so nothing is started in minute 1. And a minute
that cannot be read ends the loop, so nothing is started for the schedules after it. -/
theorem minute_missed :
    (¬ Along rerunStep FiresOnce {}
        (approvalEvents ++ [.runDue rerunCall 0, .runDue rerunCall 65])) ∧
      ¬ Along rerunStep FiresOnce (missingSources "² * * * *") [.runDue numberedCall 0] := by
  constructor
  · intro h
    have hLater := (along_append.mp h).2.2.1
    have hMissed : ∃ schedule ∈ (rerunStep (exec rerunStep {} approvalEvents)
        (.runDue rerunCall 0)).listSchedules .approvedRerun, scheduleIsDue schedule 65 = .ok true ∧
        startedInMinute (rerunStep (exec rerunStep {} approvalEvents) (.runDue rerunCall 0))
          schedule.scheduleId 65 = 0 ∧
        startedInMinute (executeDueApprovedRerunSchedules rerunCall 65
          (rerunStep (exec rerunStep {} approvalEvents) (.runDue rerunCall 0))).2
            schedule.scheduleId 65 ≠ 1 := by
      decide +kernel
    obtain ⟨schedule, hMem, hDue, hNone, hNot⟩ := hMissed
    exact hNot (hLater schedule hMem ⟨hDue, hNone⟩)
  · intro h
    have hMem : approvedSchedule ∈ (missingSources "² * * * *").listSchedules .approvedRerun := by
      decide +kernel
    have hPending : Pending (missingSources "² * * * *") 0 approvedSchedule :=
      ⟨by decide +kernel, rfl⟩
    have hNot : startedInMinute (executeDueApprovedRerunSchedules numberedCall 0
        (missingSources "² * * * *")).2 approvedSchedule.scheduleId 0 ≠ 1 := by
      decide +kernel
    exact hNot (h.1 approvedSchedule hMem hPending)

end Glasslab.WorkflowApi
