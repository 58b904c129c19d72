import Glasslab.Contracts.Versions
import Glasslab.Foundation.CivilTime
import Glasslab.Foundation.Spacing
import Glasslab.Methodology.Requirements
import Glasslab.WorkflowApi.RunRoutes

/-!
# Scheduled operations

`app/digest_scheduling.py`, the routes of `app/schedule_routes.py`, and
`build_approved_rerun_schedule` and `execute_due_approved_rerun_schedules` of `app/main.py`.
Instants are seconds in UTC.
-/

namespace Glasslab.WorkflowApi

open Foundation Raising
open Glasslab.Contracts (isDecimal intOfDigits)
open Glasslab.Methodology (isSpace)

inductive ScheduleStatus where
  | active
  | disabled
  deriving DecidableEq, Repr

inductive OperationType where
  | digest
  | approvedRerun
  deriving DecidableEq, Repr

inductive ResultStatus where
  | ok
  | failedClosed
  | disabled
  deriving DecidableEq, Repr

structure ScheduledOperationRecord where
  scheduleId : String
  createdAt : Instant
  updatedAt : Instant
  status : ScheduleStatus
  operationType : OperationType
  approvalTier : String
  owner : String
  cronExpr : String
  scopeFilter : Entries := []
  digestKind : Option String := none
  sourceDesignId : Option String := none
  sourceRunId : Option String := none
  workflowId : Option String := none
  allowedDatasetUri : Option String := none
  allowedModelIds : List String := []
  allowedRunnerImage : Option String := none
  resourceProfile : Option String := none
  lastExecutionAt : Option Instant := none
  lastResultStatus : Option ResultStatus := none
  lastResultDetail : Option String := none
  deriving DecidableEq

structure ScheduledExecutionRecord where
  executionId : String
  scheduleId : String
  operationType : OperationType
  startedAt : Instant
  finishedAt : Instant
  resultStatus : ResultStatus
  resultDetail : String
  producedRunIds : List String := []
  digestPayload : Entries := []
  deriving DecidableEq

/-- The runs with their jobs, the schedules and the executions. -/
structure Timetable where
  world : World := {}
  schedules : List (String × ScheduledOperationRecord) := []
  executions : List (String × ScheduledExecutionRecord) := []
  deriving DecidableEq

namespace Timetable

def getSchedule (table : Timetable) (scheduleId : String) : Option ScheduledOperationRecord :=
  table.schedules.lookup scheduleId

def saveSchedule (table : Timetable) (record : ScheduledOperationRecord) : Timetable :=
  { table with schedules := Dict.set record.scheduleId record table.schedules }

def listSchedules (table : Timetable) (operationType : OperationType) :
    List ScheduledOperationRecord :=
  sortOn ScheduledOperationRecord.createdAt <|
    (table.schedules.map Prod.snd).filter fun record => record.operationType = operationType

def saveExecution (table : Timetable) (record : ScheduledExecutionRecord) : Timetable :=
  { table with executions := Dict.set record.executionId record table.executions }

def listRuns (table : Timetable) : List RunRecord :=
  sortOn RunRecord.createdAt (table.world.store.runs.map Prod.snd)

end Timetable

def stripText (value : String) : String := String.ofList (strip isSpace value.toList)

def strippedText : Option Value → Option String
  | some (.scalar (.str value)) => if stripText value = "" then none else some (stripText value)
  | _ => none

/-- The ranges of digits that are not decimal: `str.isdigit` accepts them, and `int` does not. -/
def otherDigits : List (Nat × Nat) :=
  [(0xb2, 0xb3), (0xb9, 0xb9), (0x1369, 0x1371), (0x19da, 0x19da), (0x2070, 0x2070),
    (0x2074, 0x2079), (0x2080, 0x2089), (0x2460, 0x2468), (0x2474, 0x247c), (0x2488, 0x2490),
    (0x24ea, 0x24ea), (0x24f5, 0x24fd), (0x24ff, 0x24ff), (0x2776, 0x277e), (0x2780, 0x2788),
    (0x278a, 0x2792), (0x10a40, 0x10a43), (0x10e60, 0x10e68), (0x11052, 0x1105a),
    (0x1f100, 0x1f10a)]

/-- `str.isdigit`, for one character. -/
def isDigit (c : Char) : Bool :=
  isDecimal c ∨ otherDigits.any fun range => range.1 ≤ c.toNat ∧ c.toNat ≤ range.2

/-- The limit of `int` on the digits of a text. -/
def maxStrDigits : Nat := 4300

/-- `int(token)` of a text of digits. It raises a `ValueError` for too many digits, or where one is
not decimal. -/
def readInt (token : List Char) : Except Failure Nat :=
  let leading := (token.takeWhile isDecimal).length
  if maxStrDigits < leading then
    .error (.raised ("Exceeds the limit (4300 digits) for integer string conversion: value has " ++
      toString leading ++ " digits; use sys.set_int_max_str_digits() to increase the limit"))
  else if token.all isDecimal then .ok (intOfDigits token)
  else
    .error (.raised ("invalid literal for int() with base 10: " ++
      String.ofList (("'".toList ++ token ++ "'".toList).take 200)))

/-- The loop of `cron_field_matches` over the tokens of a field. -/
def cronTokensMatch (value : Int) : List (List Char) → Except Failure Bool
  | [] => .ok false
  | token :: tokens =>
    let token := strip isSpace token
    if token = ['*'] then .ok true
    else if token ≠ [] ∧ token.all isDigit then do
      let allowed ← readInt token
      let others ← cronTokensMatch value tokens
      pure (decide ((allowed : Int) = value) || others)
    else cronTokensMatch value tokens

def cronFieldMatches (field : List Char) (value : Int) : Except Failure Bool :=
  cronTokensMatch value (field.splitOn ',')

/-- All five fields are read, whether one matches or not. -/
def scheduleIsDue (record : ScheduledOperationRecord) (now : Instant) : Except Failure Bool :=
  if record.status ≠ .active then .ok false
  else
    let civil := civilMinute now
    match pieces isSpace record.cronExpr.toList with
    | [minute, hour, day, month, weekdays] => do
      let inMinute ← cronFieldMatches minute civil.minute
      let inHour ← cronFieldMatches hour civil.hour
      let onDay ← cronFieldMatches day civil.day
      let inMonth ← cronFieldMatches month civil.month
      let onWeekday ← cronFieldMatches weekdays ((weekday now + 1) % 7)
      pure (inMinute && inHour && onDay && inMonth && onWeekday)
    | _ => .ok false

def executedThisMinute (record : ScheduledOperationRecord) (now : Instant) : Bool :=
  record.lastExecutionAt.any fun last => civilMinute last = civilMinute now

/-- The schedule passes both checks of a loop that executes what is due. -/
def fires (record : ScheduledOperationRecord) (now : Instant) : Except Failure Bool := do
  let due ← scheduleIsDue record now
  pure (due && !executedThisMinute record now)

/-- A token of digits is one that `int` reads. -/
def LegibleToken (token : List Char) : Prop :=
  token.all isDigit = true → token.length ≤ maxStrDigits ∧ token.all isDecimal = true

/-- The tokens before the first `*` are legible; those behind it are not read. -/
def LegibleField (field : List Char) : Prop :=
  ∀ token ∈ ((field.splitOn ',').map (strip isSpace)).takeWhile (· ≠ ['*']), LegibleToken token

/-- The cron expression of the schedule can be read, if it is. -/
def Legible (record : ScheduledOperationRecord) : Prop :=
  record.status = .active → (pieces isSpace record.cronExpr.toList).length = 5 →
    ∀ field ∈ pieces isSpace record.cronExpr.toList, LegibleField field

section Legible

variable {token field : List Char} {tokens : List (List Char)} {value : Int}
  {record : ScheduledOperationRecord} {now : Instant}

theorem readInt_eq_ok_iff : (∃ n, readInt token = .ok n) ↔
    token.length ≤ maxStrDigits ∧ token.all isDecimal = true := by
  unfold readInt
  dsimp only
  by_cases hAll : token.all isDecimal = true
  · have hLeading : token.takeWhile isDecimal = token :=
      List.takeWhile_eq_self_iff.mpr (by simpa using hAll)
    rw [hLeading]
    by_cases hLong : maxStrDigits < token.length
    · simp [hLong]
    · simp [if_neg hLong, hAll, Nat.not_lt.mp hLong]
  · split
    · simp [hAll]
    · simp [hAll]

theorem cronTokensMatch_eq_ok_iff : (∃ found, cronTokensMatch value tokens = .ok found) ↔
    ∀ token ∈ (tokens.map (strip isSpace)).takeWhile (· ≠ ['*']), LegibleToken token := by
  induction tokens with
  | nil => exact ⟨fun _ _ hMem => absurd hMem List.not_mem_nil, fun _ => ⟨false, rfl⟩⟩
  | cons first rest ih =>
    unfold cronTokensMatch
    rw [List.map_cons]
    by_cases hStar : strip isSpace first = ['*']
    · rw [if_pos hStar, List.takeWhile_cons_of_neg (by simp [hStar])]
      exact ⟨fun _ _ hMem => absurd hMem List.not_mem_nil, fun _ => ⟨true, rfl⟩⟩
    rw [if_neg hStar, List.takeWhile_cons_of_pos (by simp [hStar]), List.forall_mem_cons, ← ih]
    by_cases hDigits : strip isSpace first ≠ [] ∧ (strip isSpace first).all isDigit
    · rw [if_pos hDigits]
      have hLegible :
          LegibleToken (strip isSpace first) ↔ ∃ n, readInt (strip isSpace first) = .ok n := by
        rw [readInt_eq_ok_iff, LegibleToken, forall_prop_of_true hDigits.2]
      rw [hLegible]
      constructor
      · rintro ⟨found, hFound⟩
        obtain ⟨n, hRead, hRest⟩ := of_bind hFound
        obtain ⟨others, hOthers, -⟩ := of_bind hRest
        exact ⟨⟨n, hRead⟩, others, hOthers⟩
      · rintro ⟨⟨n, hRead⟩, others, hOthers⟩
        rw [hRead, hOthers]
        exact ⟨_, rfl⟩
    · rw [if_neg hDigits, and_iff_right]
      intro hAll
      rcases not_and_or.mp hDigits with hNil | hNot
      · rw [not_not.mp hNil]
        exact ⟨Nat.zero_le _, rfl⟩
      · exact absurd hAll hNot

theorem cronFieldMatches_eq_ok_iff :
    (∃ found, cronFieldMatches field value = .ok found) ↔ LegibleField field :=
  cronTokensMatch_eq_ok_iff

/-- Whether the check of a schedule raises does not depend on the minute. -/
theorem scheduleIsDue_eq_ok_iff : (∃ due, scheduleIsDue record now = .ok due) ↔ Legible record := by
  unfold scheduleIsDue Legible
  by_cases hActive : record.status = .active
  · rw [if_neg (not_not.mpr hActive), forall_prop_of_true hActive]
    split
    next minute hour day month weekdays hFields =>
      have hFive : ∀ fields : List (List Char), fields = [minute, hour, day, month, weekdays] →
          ((fields.length = 5 → ∀ field ∈ fields, LegibleField field) ↔
            LegibleField minute ∧ LegibleField hour ∧ LegibleField day ∧ LegibleField month ∧
              LegibleField weekdays) := by
        simp
      rw [hFive _ hFields, exists_bind_eq_ok_iff, cronFieldMatches_eq_ok_iff]
      intro inMinute
      rw [exists_bind_eq_ok_iff, cronFieldMatches_eq_ok_iff]
      intro inHour
      rw [exists_bind_eq_ok_iff, cronFieldMatches_eq_ok_iff]
      intro onDay
      rw [exists_bind_eq_ok_iff, cronFieldMatches_eq_ok_iff]
      intro inMonth
      rw [exists_bind_pure_eq_ok_iff, cronFieldMatches_eq_ok_iff]
    next hNot =>
      refine iff_of_true ⟨false, rfl⟩ fun hLength => ?_
      match hFields : pieces isSpace record.cronExpr.toList, hLength with
      | [minute, hour, day, month, weekdays], _ =>
        exact absurd hFields (hNot minute hour day month weekdays)
  · rw [if_pos hActive]
    exact iff_of_true ⟨false, rfl⟩ fun h => absurd h hActive

theorem fires_eq_ok_iff : (∃ due, fires record now = .ok due) ↔ Legible record := by
  rw [fires, exists_bind_pure_eq_ok_iff, scheduleIsDue_eq_ok_iff]

end Legible

def disableSchedule (now : Instant) (record : ScheduledOperationRecord) :
    ScheduledOperationRecord :=
  { record with
    status := .disabled
    updatedAt := now
    lastResultStatus := some (record.lastResultStatus.getD .disabled)
    lastResultDetail := some (orDefault record.lastResultDetail "Disabled by operator action.") }

def markExecuted (finishedAt : Instant) (resultStatus : ResultStatus) (detail : String)
    (record : ScheduledOperationRecord) : ScheduledOperationRecord :=
  { record with
    updatedAt := finishedAt
    lastExecutionAt := some finishedAt
    lastResultStatus := some resultStatus
    lastResultDetail := some detail }

structure DigestScheduleCreateRequest where
  cronExpr : String
  digestKind : String
  scopeFilter : Entries := []
  owner : Option String := none
  deriving DecidableEq

def buildDigestSchedule (request : DigestScheduleCreateRequest) (settings : Settings)
    (now : Instant) (scheduleId : String) : ScheduledOperationRecord where
  scheduleId := scheduleId
  createdAt := now
  updatedAt := now
  status := .active
  operationType := .digest
  approvalTier := "tier-1-read-only"
  owner := orDefault request.owner settings.defaultSubmittedBy
  cronExpr := stripText request.cronExpr
  scopeFilter := request.scopeFilter
  digestKind := some (stripText request.digestKind)

def matchingRuns (scopeFilter : Entries) (runs : List RunRecord) : List RunRecord :=
  let ofWorkflow := match strippedText (scopeFilter.lookup "workflow_id") with
    | some workflowId => runs.filter fun run => run.workflowId = workflowId
    | none => runs
  match strippedText (scopeFilter.lookup "run_status") with
  | some runStatus => ofWorkflow.filter fun run => run.status.status.text = runStatus
  | none => ofWorkflow

def statusCounts (runs : List RunRecord) : Entries :=
  let counts : List (String × Nat) := runs.foldl
    (fun counts run =>
      let status := run.status.status.text
      Dict.set status ((counts.lookup status).getD 0 + 1) counts)
    []
  counts.map fun (status, count) => (status, .scalar (.int count))

def digestDetail (record : ScheduledOperationRecord) (runs : List RunRecord) : String :=
  "Digest " ++ record.digestKind.getD "None" ++ " matched " ++
    toString (matchingRuns record.scopeFilter runs).length ++ " runs."

def digestExecution (record : ScheduledOperationRecord) (runs : List RunRecord) (now : Instant)
    (executionId : String) : ScheduledExecutionRecord :=
  let matching := matchingRuns record.scopeFilter runs
  { executionId := executionId
    scheduleId := record.scheduleId
    operationType := record.operationType
    startedAt := now
    finishedAt := now
    resultStatus := .ok
    resultDetail := digestDetail record runs
    digestPayload :=
      [("digest_kind", record.digestKind.elim (.scalar .null) text),
        ("matching_run_count", .scalar (.int matching.length)),
        ("workflow_ids", texts (sortedNames (matching.map RunRecord.workflowId))),
        ("run_status_counts", .map (statusCounts matching))] }

structure ApprovedRerunScheduleCreateRequest where
  cronExpr : String
  owner : Option String := none
  deriving DecidableEq, Repr

/-- The dataset of a run: the first of two inputs that is a text and not blank. -/
def datasetUri (inputs : Entries) : Option String :=
  (strippedText (inputs.lookup "dataset_uri")).orElse fun _ =>
    strippedText (inputs.lookup "train_uri")

def buildApprovedRerunSchedule (request : ApprovedRerunScheduleCreateRequest) (run : RunRecord)
    (settings : Settings) (now : Instant) (scheduleId : String) :
    Except Failure ScheduledOperationRecord :=
  if run.manifest.approvalTier ≠ "tier-2-approved-execution" then
    .error (conflict "current run is not eligible for approved rerun scheduling")
  else if run.status.status ≠ .succeeded then
    .error (conflict
      "current run must have status succeeded before creating an approved rerun schedule")
  else
    .ok
      { scheduleId := scheduleId
        createdAt := now
        updatedAt := now
        status := .active
        operationType := .approvedRerun
        approvalTier := run.manifest.approvalTier
        owner := orDefault request.owner settings.defaultSubmittedBy
        cronExpr := stripText request.cronExpr
        scopeFilter := [("workflow_id", text run.workflowId), ("source_run_id", text run.runId)]
        sourceDesignId := run.sourceDesignId
        sourceRunId := some run.runId
        workflowId := some run.workflowId
        allowedDatasetUri := datasetUri run.manifest.inputs
        allowedModelIds := run.manifest.requestedModels
        allowedRunnerImage := some run.manifest.runnerImage
        resourceProfile := some run.manifest.resourceProfile }

/-- Why a rerun fails closed on its source run. -/
def driftReason (schedule : ScheduledOperationRecord) (source : RunRecord) : Option String :=
  if source.status.status ≠ .succeeded then some "source run is no longer succeeded"
  else if schedule.workflowId ≠ some source.workflowId then
    some "scheduled workflow_id drifted from source run"
  else if schedule.resourceProfile ≠ some source.manifest.resourceProfile then
    some "scheduled resource profile drifted from source run"
  else if schedule.allowedRunnerImage ≠ some source.manifest.runnerImage then
    some "scheduled runner image drifted from source run"
  else if schedule.allowedModelIds ≠ source.manifest.requestedModels then
    some "scheduled model ids drifted from source run"
  else if schedule.allowedDatasetUri ≠ datasetUri source.manifest.inputs then
    some "scheduled dataset uri drifted from source run"
  else none

/-- The request of a rerun, validated; the size of the inputs is limited. -/
def rerunRequest (fits : Entries → Bool) (schedule : ScheduledOperationRecord)
    (source : RunRecord) : Except Failure RunCreateRequest :=
  let models := source.manifest.requestedModels
  if source.workflowId.length < 3 ∨ source.manifest.objective.length < 5 ∨ models = [] ∨
      ¬ models.Nodup ∨ fits source.manifest.inputs = false then
    .error (.raised "ValidationError")
  else
    .ok
      { workflowId := source.workflowId
        objective := source.manifest.objective
        inputs := source.manifest.inputs
        models := models
        resourceProfile := some source.manifest.resourceProfile
        runPriority := .autonomous
        submittedBy := some schedule.owner }

def rerunOrigin (source : RunRecord) : Origin where
  sourceDesignId := source.sourceDesignId
  sourceIntakeId := source.sourceIntakeId
  runPurpose := some "approved-rerun"
  sessionId := source.sessionId

def twoDigits (n : Int) : String := if n < 10 then "0" ++ toString n else toString n

/-- `strftime("%Y%m%d%H%M")`. -/
def minuteStamp (t : Instant) : String :=
  let civil := civilMinute t
  toString civil.year ++ twoDigits civil.month ++ twoDigits civil.day ++ twoDigits civil.hour ++
    twoDigits civil.minute

def rerunKey (scheduleId : String) (startedAt : Instant) : String :=
  "approved-rerun:" ++ scheduleId ++ ":" ++ minuteStamp startedAt

def failedClosedExecution (schedule : ScheduledOperationRecord) (startedAt : Instant)
    (executionId reason : String) : ScheduledExecutionRecord where
  executionId := executionId
  scheduleId := schedule.scheduleId
  operationType := schedule.operationType
  startedAt := startedAt
  finishedAt := startedAt
  resultStatus := .failedClosed
  resultDetail := reason

def rerunDetail (runId : String) : String := "Approved rerun submitted as " ++ runId ++ "."

def rerunExecution (schedule : ScheduledOperationRecord) (startedAt finishedAt : Instant)
    (executionId runId : String) : ScheduledExecutionRecord where
  executionId := executionId
  scheduleId := schedule.scheduleId
  operationType := schedule.operationType
  startedAt := startedAt
  finishedAt := finishedAt
  resultStatus := .ok
  resultDetail := rerunDetail runId
  producedRunIds := [runId]

end Glasslab.WorkflowApi
