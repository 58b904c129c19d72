import Glasslab.Foundation.Process
import Glasslab.Methodology.Requirements
import Glasslab.StateMachine

/-!
# Jobs of a run

The part of the engine that puts the jobs of one run on the cluster, watches them and takes
them off again: `_submit_matrix`, `_fill_job_capacity`, `reconcile_run`, `_sync_wave_artifacts`,
`cancel_run` and `sweep_cancelled_run_jobs`, over the job rows of `app/storage.py`.

Every store call is one atomic access, every call of the cluster adapter one question, and the
writing of the analysis notebook, which depends on what the files hold, is a question as well. The
functions run under the run lock; a pause does not take it and may commit between any two of
their steps, and the process may stop at any of them.

The store is the slice of one run. `submissions` and `recordings` are no fields of the source:
they list the arguments with which `cluster.submit` and `_record_job_artifacts` were called.
-/

namespace Glasslab.Engine.Jobs

open Foundation

structure ClusterSubmission where
  externalRunId : ExternalRunId
  jobName : Option String := none
  kubernetesUid : Option String := none
  status : JobStatus

structure ClusterArtifact where
  type : String
  uri : String
  sha256 : String
  metadata : Payload := []

structure ClusterJobSnapshot where
  status : JobStatus
  exitInformation : Payload := []
  artifacts : List ClusterArtifact := []

/-- What `save_artifact` stores for a job or beside it. -/
structure RecordedArtifact extends ArtifactRecord where
  metadata : Payload := []

/-- The digest of the notebook that was written, and the artifacts that are embedded in it. -/
structure AnalysisNotebook where
  digest : Sha256
  sourceArtifacts : List Payload := []

/-- The caller handles `ArtifactDeliveryError`, `OSError` and `ValueError`, and no other. -/
inductive NotebookError where
  | handled (message : String)
  | escaped (message : String)

/-- The calls of `ClusterExecutor`, and `write_analysis_notebook`. -/
inductive Request where
  | submit (spec : ExpandedJobSpec)
  | inspect (externalRunId : ExternalRunId)
  | cancel (externalRunId : ExternalRunId)
  | notebook (jobId : String) (artifacts : List RecordedArtifact)

/-- What a call returns, or the text of the exception it raises. -/
def Request.Answer : Request → Type
  | submit _ => Except String ClusterSubmission
  | inspect _ => Except String ClusterJobSnapshot
  | cancel _ => Except String Unit
  | notebook _ _ => Except NotebookError AnalysisNotebook

/-! ## The store -/

structure JobEvent where
  source : String
  eventType : String
  payload : Payload

structure JobStore where
  runId : String
  runState : RunState
  resumeState : Option RunState := none
  maximumParallelJobs : Nat
  evaluationContractDigest : String
  /-- The matrix of the submission the run is on. -/
  matrix : Option ExperimentMatrix := none
  /-- The rows of the jobs, oldest first. -/
  jobs : Table String JobRecord := Table.empty
  artifacts : List RecordedArtifact := []
  reportsPath : String := "reports"
  events : List JobEvent := []
  waveDeferrals : Nat := 0
  submissions : List ExpandedJobSpec := []
  recordings : List (String × List ClusterArtifact) := []

abbrev JobM := Proc JobStore Request Request.Answer String

def submit (spec : ExpandedJobSpec) : JobM (Except String ClusterSubmission) := do
  let _ ← Proc.access fun s => { s with submissions := spec :: s.submissions }
  Proc.query (Request.submit spec)

def inspect (externalRunId : ExternalRunId) : JobM (Except String ClusterJobSnapshot) :=
  Proc.query (Request.inspect externalRunId)

def cancel (externalRunId : ExternalRunId) : JobM (Except String Unit) :=
  Proc.query (Request.cancel externalRunId)

def writeAnalysisNotebook (jobId : String) (artifacts : List RecordedArtifact) :
    JobM (Except NotebookError AnalysisNotebook) :=
  Proc.query (Request.notebook jobId artifacts)

def JobStore.allJobs (s : JobStore) : List JobRecord := s.jobs.rows.map Prod.snd

/-- `list_jobs` with a status filter. -/
def JobStore.listJobs (s : JobStore) (statuses : List JobStatus) : List JobRecord :=
  s.allJobs.filter fun job => job.status ∈ statuses

def unfinishedStatuses : List JobStatus := [.queued, .submitting, .running, .unknown]

def JobStore.unfinished (s : JobStore) : List JobRecord := s.listJobs unfinishedStatuses

def JobStore.jobWithKey (s : JobStore) (idempotencyKey : String) : Option JobRecord :=
  s.allJobs.find? fun job => job.spec.idempotencyKey = idempotencyKey

def JobStore.addJob (s : JobStore) (record : JobRecord) : JobStore :=
  { s with jobs := s.jobs.add record.jobId record }

def JobStore.putJob (s : JobStore) (record : JobRecord) : JobStore :=
  { s with jobs := s.jobs.update record.jobId fun _ => record }

/-- Inserted, unless the id is taken. -/
def JobStore.saveArtifact (s : JobStore) (record : RecordedArtifact) : JobStore :=
  if s.artifacts.any fun artifact => artifact.artifactId = record.artifactId then s
  else { s with artifacts := s.artifacts ++ [record] }

/-- Why `update_job` refuses to write a record. -/
def JobStore.updateRefusal (s : JobStore) (record : JobRecord) : Option String :=
  match s.jobs.find record.jobId with
  | none => some record.jobId
  | some current =>
    if current.status = .cancelled ∧ record.status ≠ .cancelled then
      some ("job " ++ record.jobId ++ " is CANCELLED and cannot transition to " ++
        record.status.value)
    else
      none

def getStore : JobM JobStore := Proc.access id

def updateJob (record : JobRecord) : JobM JobRecord := do
  let s ← Proc.access fun s => if s.updateRefusal record = none then s.putJob record else s
  match s.updateRefusal record with
  | some message => .raise message
  | none => pure record

/-- The row under a taken idempotency key, or the new row; the job id is the primary key. -/
def createJobIfAbsent (record : JobRecord) : JobM (JobRecord × Bool) := do
  let s ← Proc.access fun s =>
    if s.jobWithKey record.spec.idempotencyKey = none then s.addJob record else s
  match s.jobWithKey record.spec.idempotencyKey with
  | some existing => pure (existing, false)
  | none =>
    if s.jobs.find record.jobId = none then pure (record, true)
    else .raise "UNIQUE constraint failed: jobs.job_id"

def event (source eventType : String) (payload : Payload) : JobM Unit := do
  let _ ← Proc.access fun s => { s with events := s.events ++ [⟨source, eventType, payload⟩] }

def transition (target : RunState) : JobM Unit := do
  let s ← Proc.access fun s =>
    if validTransition s.runState target then { s with runState := target } else s
  if validTransition s.runState target then pure ()
  else .raise ("invalid run transition: " ++ s.runState.value ++ " -> " ++ target.value)

/-- `sha256` of the canonical JSON of an identity, and `uuid5` of a name. -/
structure Naming where
  sha256 : Payload → String
  uuid5 : String → String

section

variable (naming : Naming)

def jobIdentity (runId actionId : String) (matrix : ExperimentMatrix) (digest : String)
    (variant : ExperimentVariant) (seed : Int) : Payload :=
  [("run_id", .str runId), ("action_id", .str actionId), ("variant", .str variant.name),
    ("seed", .int seed), ("base_config", .str matrix.baseConfig),
    ("overrides", .dict variant.overrides), ("contract_digest", .str digest)]

/-- `expand_experiment_matrix`, after its checks of the matrix. -/
def expandExperimentMatrix (runId actionId : String) (matrix : ExperimentMatrix)
    (digest : String) : List ExpandedJobSpec :=
  matrix.variants.flatMap fun variant => matrix.seeds.map fun seed =>
    let idempotencyKey := naming.sha256 (jobIdentity runId actionId matrix digest variant seed)
    { orchestratorJobId := naming.uuid5 ("glasslab-job:" ++ idempotencyKey)
      runId := runId
      actionId := actionId
      variantName := variant.name
      seed := seed
      idempotencyKey := idempotencyKey
      baseConfig := matrix.baseConfig
      overrides := variant.overrides
      runnerImage := matrix.runnerImage
      evaluationContractDigest := digest }

/-- What pydantic says of a `sha256` that does not match the pattern of `ArtifactRecord`. -/
def malformedDigest : String := "sha256: String should match pattern '^[a-f0-9]\x7b64\x7d$'"

/-- The loop of `_record_job_artifacts`: `existing` are the artifact ids known so far. -/
def recordArtifacts (jobId : String) :
    List ClusterArtifact → List String → JobM (List RecordedArtifact)
  | [], _ => pure []
  | artifact :: rest, existing => do
    let artifactId := naming.uuid5 (jobId ++ ":" ++ artifact.uri ++ ":" ++ artifact.sha256)
    if artifactId ∈ existing then
      recordArtifacts jobId rest existing
    else if isSha256 artifact.sha256 then
      let recorded : RecordedArtifact :=
        { artifactId := artifactId
          jobId := some jobId
          type := artifact.type
          uri := artifact.uri
          sha256 := artifact.sha256
          metadata := artifact.metadata }
      let _ ← Proc.access fun s => s.saveArtifact recorded
      event "cluster" "artifact.recorded"
        [("job_id", .str jobId), ("uri", .str artifact.uri), ("sha256", .str artifact.sha256)]
      let others ← recordArtifacts jobId rest (artifactId :: existing)
      pure (recorded :: others)
    else
      .raise malformedDigest

def feedsAnalysisNotebook (artifact : RecordedArtifact) : Bool :=
  let name := Methodology.pathName artifact.uri
  name = "metrics.json".toList ∨
    ("tables/".toList.isPrefixOf artifact.type.toList ∧ ".csv".toList.isSuffixOf name)

def isAnalysisNotebook (jobId : String) (artifact : RecordedArtifact) : Bool :=
  artifact.type = "analysis_notebook" ∧ artifact.metadata.getStr "job_id" = some jobId

def generateAnalysisNotebook (jobId : String) (sourceArtifacts : List RecordedArtifact) :
    JobM Unit := do
  let run ← getStore
  let destination := run.reportsPath ++ "/analysis.ipynb"
  match ← writeAnalysisNotebook jobId sourceArtifacts with
  | .error (.escaped exc) => .raise exc
  | .error (.handled exc) =>
    event "orchestrator" "artifact.generation_failed"
      [("type", .str "analysis_notebook"), ("job_id", .str jobId), ("error", .str exc)]
  | .ok notebook =>
    let uri := "artifact://" ++ run.runId ++ "/reports/analysis.ipynb"
    let digest := notebook.digest.text
    let artifactId := naming.uuid5 (run.runId ++ ":" ++ uri ++ ":" ++ digest)
    let _ ← Proc.access fun s => s.saveArtifact
      { artifactId := artifactId
        jobId := none
        type := "analysis_notebook"
        uri := uri
        sha256 := digest
        metadata := [("path", .str destination), ("job_id", .str jobId),
          ("derived_from", .list (notebook.sourceArtifacts.map .dict)),
          ("authoritative", .bool false)] }
    event "orchestrator" "artifact.recorded"
      [("artifact_id", .str artifactId), ("type", .str "analysis_notebook"), ("uri", .str uri),
        ("path", .str destination), ("sha256", .str digest), ("job_id", .str jobId),
        ("authoritative", .bool false)]

/-- The notebook of a job that succeeded, if `recorded` can feed one and there is none yet. -/
def notebookFrom (job : JobRecord) (recorded : List RecordedArtifact) : JobM Unit := do
  if job.status = .succeeded ∧ recorded.any feedsAnalysisNotebook then
    let s ← getStore
    let jobArtifacts := s.artifacts.filter fun artifact => artifact.jobId = some job.jobId
    if jobArtifacts.any (isAnalysisNotebook job.jobId) then
      pure ()
    else
      generateAnalysisNotebook naming job.jobId jobArtifacts
  else
    pure ()

def recordJobArtifacts (job : JobRecord) (artifacts : List ClusterArtifact) : JobM Nat := do
  let s ← Proc.access fun s => { s with recordings := (job.jobId, artifacts) :: s.recordings }
  let recorded ← recordArtifacts naming job.jobId artifacts (s.artifacts.map (·.artifactId))
  notebookFrom naming job recorded
  pure recorded.length

/-- `latest_submission_jobs`: the rows of the action that created the newest row. -/
def latestSubmissionJobs (jobs : List JobRecord) : List JobRecord :=
  match jobs.getLast? with
  | none => []
  | some latest =>
    (jobs.filter fun job => job.spec.actionId = latest.spec.actionId).insertionSort
      fun a b => a.jobId ≤ b.jobId

def syncJobs : List JobRecord → JobM Nat
  | [] => pure 0
  | job :: rest =>
    match job.externalRunId with
    | none => syncJobs rest
    | some externalRunId =>
      if job.status ∈ jobTerminalStatuses then do
        match ← inspect externalRunId with
        | .error exc =>
          event "cluster" "artifact.sync_failed" [("job_id", .str job.jobId), ("error", .str exc)]
          syncJobs rest
        | .ok snapshot =>
          let recorded ← recordJobArtifacts naming job snapshot.artifacts
          let others ← syncJobs rest
          pure (recorded + others)
      else
        syncJobs rest

def syncWaveArtifacts : JobM Nat := do
  let s ← getStore
  syncJobs naming (latestSubmissionJobs s.allJobs)

def queuedRecord (spec : ExpandedJobSpec) : JobRecord := { spec := spec, status := .queued }

def withStatus (job : JobRecord) (status : JobStatus) : JobRecord := { job with status := status }

def withSubmission (job : JobRecord) (status : JobStatus) (submission : ClusterSubmission) :
    JobRecord :=
  { job with
    status := status,
    externalRunId := some submission.externalRunId,
    jobName := submission.jobName,
    kubernetesUid := submission.kubernetesUid }

/-- A call of the cluster failed, and nobody knows what became of the job. -/
def uncertain (job : JobRecord) (key exc : String) : JobRecord :=
  { job with status := .unknown, exitInformation := { entries := [(key, .str exc)] } }

def withSnapshot (job : JobRecord) (snapshot : ClusterJobSnapshot) : JobRecord :=
  { job with
    status := snapshot.status, exitInformation := { entries := snapshot.exitInformation } }

def cancelRequested (job : JobRecord) : JobRecord :=
  { job with
    status := .cancelled, exitInformation := { job.exitInformation with cancelRequested := true } }

/-- A row that takes up capacity: it was handed to the cluster, or is about to be. -/
def isActive (job : JobRecord) : Bool :=
  job.status ≠ .queued ∨ job.externalRunId.isSome

/-- Submit one job whose row says so already. An error may hide an accepted submission. -/
def submitQueued (submitting : JobRecord) : JobM Unit := do
  let attempt : JobM (Option JobRecord) := do
    let submission ← Proc.ofExcept (← submit submitting.spec)
    let status :=
      if submission.status ∈ [JobStatus.queued, .running] then submission.status else .running
    let updated ← updateJob (withSubmission submitting status submission)
    pure (some updated)
  let outcome ← attempt.tryCatch fun exc => do
    let _ ← updateJob (uncertain submitting "submission_error" exc)
    event "cluster" "job.submission_uncertain"
      [("job_id", .str submitting.jobId), ("phase", .str "submission"), ("error", .str exc)]
    pure none
  match outcome with
  | none => pure ()
  | some updated =>
    event "cluster" "job.submitted"
      [("job_id", .str updated.jobId),
        ("external_run_id", .str ((updated.externalRunId.map Subtype.val).getD ""))]

/-- The submission loop of `_fill_job_capacity`; a pause ends it. -/
def submitAll : List JobRecord → JobM Unit
  | [] => pure ()
  | job :: rest => do
    let s ← getStore
    if s.runState = .paused then
      pure ()
    else
      let submitting ← updateJob (withStatus job .submitting)
      submitQueued submitting
      submitAll rest

def waveArtifactDeferralCap : Nat := 6

/-- Hand over to the analysis once no job is left, unless artifacts are still coming in. -/
def finishWave (newlyRecorded : Nat) : JobM Unit := do
  let synced ← syncWaveArtifacts naming
  let newlyRecorded := newlyRecorded + synced
  let s ← getStore
  if 0 < newlyRecorded ∧ s.waveDeferrals < waveArtifactDeferralCap then
    let _ ← Proc.access fun s => { s with waveDeferrals := s.waveDeferrals + 1 }
  else
    if 0 < newlyRecorded then
      event "orchestrator" "artifact.drain_timeout"
        [("deferrals", .int s.waveDeferrals), ("cap", .int waveArtifactDeferralCap)]
    let _ ← Proc.access fun s => { s with waveDeferrals := 0 }
    transition .beakerAnalyzing

def fillJobCapacity (newlyRecorded : Nat) : JobM Unit := do
  let s ← getStore
  let active := s.unfinished.filter isActive
  let queued := s.unfinished.filter fun job => !isActive job
  submitAll (queued.take (s.maximumParallelJobs - active.length))
  let s ← getStore
  if s.unfinished ≠ [] ∧ s.runState = .jobQueued then
    transition .jobRunning
  else if s.unfinished = [] ∧ s.runState ∈ [RunState.jobQueued, .jobRunning] then
    finishWave naming newlyRecorded
  else
    pure ()

def createJobs : List ExpandedJobSpec → JobM Unit
  | [] => pure ()
  | spec :: rest => do
    let (stored, created) ← createJobIfAbsent (queuedRecord spec)
    if created then
      event "orchestrator" "job.queued"
        [("job_id", .str stored.jobId), ("variant_name", .str stored.spec.variantName),
          ("seed", .int stored.spec.seed)]
    createJobs rest

def submitRefusal (state : RunState) : String :=
  "cannot submit matrix while run is " ++ state.value

/-- `_submit_matrix`. Resolving the contract, packaging the source and checking the matrix
either raise or leave the job rows alone: `prepared` is how they end. -/
def submitMatrix (actionId : String) (matrix : ExperimentMatrix) (prepared : Except String Unit) :
    JobM Unit := do
  let s ← Proc.access fun s =>
    if s.runState = .awaitingExecutionApproval then { s with matrix := some matrix } else s
  if s.runState ≠ .awaitingExecutionApproval then
    .raise (submitRefusal s.runState)
  else
    let _ ← Proc.ofExcept prepared
    createJobs
      (expandExperimentMatrix naming s.runId actionId matrix s.evaluationContractDigest)
    let current ← getStore
    if current.runState ≠ .awaitingExecutionApproval then
      .raise (submitRefusal current.runState)
    else
      transition .jobQueued
      fillJobCapacity naming 0

/-- Submit a job again that has no external run id, under the key it had before. -/
def recoverSubmission (job : JobRecord) : JobM (Option (JobRecord × ExternalRunId)) :=
  match job.externalRunId with
  | some externalRunId => pure (some (job, externalRunId))
  | none => do
    match ← submit job.spec with
    | .error exc =>
      let _ ← updateJob (uncertain job "recovery_submission_error" exc)
      pure none
    | .ok submission =>
      let job ← updateJob (withSubmission job submission.status submission)
      event "cluster" "job.submitted"
        [("job_id", .str job.jobId), ("external_run_id", .str submission.externalRunId.val),
          ("recovered", .bool true)]
      pure (some (job, submission.externalRunId))

/-- `job.completed` or `job.failed`. -/
def terminalEvent (status : JobStatus) : String :=
  if status = .succeeded then "job.completed" else "job.failed"

def recordOutcome (updated : JobRecord) (artifacts : List ClusterArtifact) (newlyRecorded : Nat) :
    JobM Nat := do
  let recorded ← recordJobArtifacts naming updated artifacts
  event "cluster" (terminalEvent updated.status)
    [("job_id", .str updated.jobId), ("status", .str updated.status.value),
      ("exit_information", .dict updated.exitInformation.entries)]
  pure (newlyRecorded + recorded)

def observe (job : JobRecord) (externalRunId : ExternalRunId) (newlyRecorded : Nat) : JobM Nat := do
  match ← inspect externalRunId with
  | .error exc =>
    let _ ← updateJob (uncertain job "inspection_error" exc)
    pure newlyRecorded
  | .ok snapshot =>
    if snapshot.status = job.status then
      pure newlyRecorded
    else
      let updated ← updateJob (withSnapshot job snapshot)
      if snapshot.status ∈ jobTerminalStatuses then
        recordOutcome naming updated snapshot.artifacts newlyRecorded
      else if snapshot.status = .running then
        event "cluster" "job.started" [("job_id", .str updated.jobId)]
        pure newlyRecorded
      else
        pure newlyRecorded

def reconcileJob (job : JobRecord) (newlyRecorded : Nat) : JobM Nat := do
  if isActive job then
    match ← recoverSubmission job with
    | none => pure newlyRecorded
    | some (job, externalRunId) => observe naming job externalRunId newlyRecorded
  else
    pure newlyRecorded

def reconcileJobs : List JobRecord → Nat → JobM Nat
  | [], newlyRecorded => pure newlyRecorded
  | job :: rest, newlyRecorded => do
    let newlyRecorded ← reconcileJob naming job newlyRecorded
    reconcileJobs rest newlyRecorded

def reconcileRun : JobM Unit := do
  let s ← getStore
  if s.runState ∈ [RunState.jobQueued, .jobRunning] then
    let s ← getStore
    let newlyRecorded ← reconcileJobs naming s.unfinished 0
    let synced ← syncWaveArtifacts naming
    fillJobCapacity naming (newlyRecorded + synced)
  else
    pure ()

/-- Take the jobs off the cluster that have an external run id and write them all off, except
those whose cancellation fails. Returns the failures. -/
def cancelJobs (report : String → String → JobM Unit) : List JobRecord → JobM (List String)
  | [] => pure []
  | job :: rest => do
    let outcome ←
      match job.externalRunId with
      | none => pure (.ok ())
      | some externalRunId => cancel externalRunId
    match outcome with
    | .error exc =>
      report job.jobId exc
      let failures ← cancelJobs report rest
      pure ((job.jobId ++ ": " ++ exc) :: failures)
    | .ok _ =>
      let _ ← updateJob (cancelRequested job)
      cancelJobs report rest

/-- `cancel_run`. Whether the run is over is read before the lock is taken; `seen` is the state
that read found. -/
def cancelRun (seen : RunState) : JobM Unit := do
  if seen ∈ terminalStates then
    pure ()
  else
    let s ← getStore
    let cancellationErrors ← cancelJobs (fun _ _ => pure ()) s.unfinished
    let payload := [("cancellation_errors", Value.list (cancellationErrors.map .str))]
    if cancellationErrors ≠ [] then
      event "orchestrator" "run.cancellation_failed" payload
      .raise "cancellation could not be confirmed for every external job"
    else
      transition .cancelled
      event "orchestrator" "run.cancelled" payload

def sweepCancelledRunJobs : JobM Unit := do
  let s ← getStore
  if s.runState ≠ .cancelled then
    pure ()
  else
    let s ← getStore
    let _ ← cancelJobs
      (fun jobId exc =>
        event "orchestrator" "job.cancellation_failed"
          [("job_id", .str jobId), ("error", .str exc)]) s.unfinished

/-- `resume_run`, up to the point where it continues the workflow. -/
def resumeRun : JobM Unit := do
  let s ← getStore
  match s.runState, s.resumeState with
  | .paused, some target =>
    transition target
    let _ ← Proc.access fun s => { s with resumeState := none }
  | _, _ => .raise "run is not resumable"

/-- `pause_run`: `seen` is the state it read before it wrote. -/
def JobStore.pause (seen : RunState) (s : JobStore) : JobStore :=
  if validTransition s.runState .paused then
    { s with runState := .paused, resumeState := some seen }
  else s

/-- The calls that take the run lock. `advance` stands for every other transition the engine
makes under it. -/
inductive Entry where
  | submitMatrix (actionId : String) (matrix : ExperimentMatrix) (prepared : Except String Unit)
  | fillJobCapacity
  | reconcileRun
  | cancelRun (seen : RunState)
  | sweepCancelledRunJobs
  | resumeRun
  | advance (target : RunState)

def Entry.program : Entry → JobM Unit
  | submitMatrix actionId matrix prepared => Jobs.submitMatrix naming actionId matrix prepared
  | fillJobCapacity => Jobs.fillJobCapacity naming 0
  | reconcileRun => Jobs.reconcileRun naming
  | cancelRun seen => Jobs.cancelRun seen
  | sweepCancelledRunJobs => Jobs.sweepCancelledRunJobs
  | resumeRun => Jobs.resumeRun
  | advance target => transition target

def component : Component JobStore Request Request.Answer String where
  Entry := Entry
  entry := Entry.program naming
  Interference := RunState
  interfere := JobStore.pause
  restart s := { s with waveDeferrals := 0 }

end

/-- A state of the machine that runs the component against a cluster. -/
abbrev JobConfig (P : Partner Request Request.Answer) :=
  Config JobStore Request Request.Answer String P

def run (naming : Naming) (P : Partner Request Request.Answer) (x : JobConfig P)
    (inputs : List (Input (component naming) P)) : JobConfig P :=
  Machine.exec ((component naming).step P) x inputs

/-- The answers of a cluster, newest first. -/
abbrev Said := List ((request : Request) × request.Answer)

/-- The cluster of which nothing is assumed. It gives any answer, and remembers what it said. -/
def anyCluster : Partner Request Request.Answer where
  State := Said
  Choice := (request : Request) → request.Answer
  respond said request choice := (⟨request, choice request⟩ :: said, choice request)
  Move := Empty
  move said _ := said

/-- One reply for each kind of call. -/
def answerWith (submission : Except String ClusterSubmission)
    (snapshot : Except String ClusterJobSnapshot) (cancelled : Except String Unit)
    (written : Except NotebookError AnalysisNotebook := .error (.handled "no shared mount")) :
    (request : Request) → request.Answer
  | .submit _ => submission
  | .inspect _ => snapshot
  | .cancel _ => cancelled
  | .notebook _ _ => written

/-! ## A small run

Jobs named after their variants, whose matrix was just approved. -/

def variantNaming : Naming where
  sha256 identity := (identity.getStr "variant").getD ""
  uuid5 name := name

def matrixOf (variants : List String) (maximumParallelJobs : Nat) : ExperimentMatrix where
  baseConfig := "base.yaml"
  variants := variants.map fun name => ⟨name, []⟩
  seeds := [0]
  maximumParallelJobs := maximumParallelJobs
  runnerImage := "runner:1"

def newStore (maximumParallelJobs : Nat) : JobStore where
  runId := "run-1"
  runState := .awaitingExecutionApproval
  maximumParallelJobs := maximumParallelJobs
  evaluationContractDigest := "digest"

def firstRun : ExternalRunId := ⟨"k8s-1", by decide⟩

def secondRun : ExternalRunId := ⟨"k8s-2", by decide⟩

/-- Each input, and then as many steps as the call under way can take without an answer. -/
def paced {P : Partner Request Request.Answer} (inputs : List (Input (component variantNaming) P)) :
    List (Input (component variantNaming) P) :=
  inputs.flatMap fun input => input :: List.replicate 16 .tick

/-- The cluster starts a job at once and finds it in the same state when asked. -/
def startsAs (externalRunId : ExternalRunId) : (request : Request) → request.Answer :=
  answerWith (.ok { externalRunId := externalRunId, status := .running })
    (.ok { status := .running }) (.ok ())

end Glasslab.Engine.Jobs
