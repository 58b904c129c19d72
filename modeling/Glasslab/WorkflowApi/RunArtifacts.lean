import Glasslab.WorkflowApi.Records

/-!
# Where the status of a run is read

`app/run_artifacts.py` and `get_live_status` of `app/job_submission.py`: the status file and the
terminal bundle in the directory of a run, the job in the cluster, and the stored record.
-/

namespace Glasslab.WorkflowApi

open Foundation

inductive JsonFile where
  | absent
  /-- It cannot be read, it is no text, or the text is no JSON: the message of the exception. -/
  | malformed (message : String)
  | json (value : Value)
  deriving DecidableEq

structure RunDirectory where
  status : JsonFile
  /-- A declared file or directory is there, is no link and lies inside. -/
  holds : String → Bool := fun _ => true
  /-- `metrics.json`, absent where it is no file or lies outside. -/
  metrics : JsonFile := .absent
  /-- `build_artifacts_from_directory`. -/
  artifacts : Option ArtifactsIndex := none
  /-- `_path_is_within` of an entry of the index. -/
  isWithin : String → Bool := fun _ => true

/-- The clock of the reader, as an ISO text too, and what a JSON value is as an instant. -/
structure Clock where
  now : Instant
  isoNow : Value
  parseInstant : Value → Option Instant

def runStates : List (String × RunState) :=
  [("accepted", .accepted), ("queued", .queued), ("running", .running), ("succeeded", .succeeded),
    ("failed", .failed), ("rejected", .rejected), ("cancelled", .cancelled)]

def statusFields : List String := ["run_id", "status", "updated_at", "detail"]

/-- `RunStatus.model_validate`. -/
def validateRunStatus (clock : Clock) (payload : Entries) : Option RunStatus :=
  if payload.all fun entry => entry.1 ∈ statusFields then
    match payload.lookup "run_id", payload.lookup "status",
      (payload.lookup "updated_at").bind clock.parseInstant,
      (payload.lookup "detail").getD (.scalar .null) with
    | some (.scalar (.str runId)), some (.scalar (.str status)), some updatedAt, .scalar detail =>
      match runStates.lookup status, detail with
      | some status, .null => some ⟨runId, status, updatedAt, none⟩
      | some status, .str detail => some ⟨runId, status, updatedAt, some detail⟩
      | _, _ => none
    | _, _, _, _ => none
  else none

def statusOfPayload (clock : Clock) (runId : String) : Value → Option RunStatus
  | .map payload =>
    if payload.lookup "run_id" ≠ some (text runId) then none
    else if (payload.lookup "updated_at").isSome then validateRunStatus clock payload
    else validateRunStatus clock (Dict.set "updated_at" clock.isoNow payload)
  | _ => none

def loadStatusFromDisk (clock : Clock) (directory : RunDirectory) (runId : String) :
    Except Failure (Option RunStatus) :=
  match directory.status with
  | .absent => .ok none
  | .malformed message => .error (.raised message)
  | .json payload => .ok (statusOfPayload clock runId payload)

structure TerminalBundle where
  status : RunStatus
  metrics : Entries
  refs : List (String × String)
  artifacts : ArtifactsIndex
  deriving DecidableEq

def loadMetrics : JsonFile → Except Failure Entries
  | .absent => .ok []
  | .malformed message => .error (.raised message)
  | .json (.map payload) => .ok payload
  | .json _ => .error (.raised "metrics.json must contain a JSON object")

def bundleStates : List RunState := [.succeeded, .failed, .rejected]

def loadTerminalBundle (clock : Clock) (directory : RunDirectory) (record : RunRecord) :
    Except Failure TerminalBundle := do
  let found ← loadStatusFromDisk clock directory record.runId
  match found with
  | none => .error (.raised "terminal bundle is missing status.json")
  | some diskStatus =>
    if diskStatus.runId ≠ record.runId then
      .error (.raised "terminal bundle status.json run_id does not match the run")
    else if diskStatus.status ∉ bundleStates then
      .error (.raised "terminal bundle status is not terminal")
    else
      let missing :=
        record.manifest.expectedArtifacts.required.filter fun name => !directory.holds name
      if diskStatus.status = .succeeded ∧ missing ≠ [] then
        .error (.raised ("successful terminal bundle is missing required artifacts: " ++
          ", ".intercalate (sortOn id missing)))
      else
        let metrics ← loadMetrics directory.metrics
        match directory.artifacts with
        | none => .error (.raised "terminal bundle artifact directory is missing")
        | some artifacts =>
          let listed := artifacts.artifacts.filter fun entry =>
            entry.name ≠ "" ∧ directory.isWithin entry.name
          .ok ⟨diskStatus, metrics,
            Dict.merge [] (listed.map fun entry => (entry.name, entry.path)),
            artifacts⟩

/-- What `read_namespaced_job` answers: the counts and the messages of a job, or an exception. -/
inductive JobAnswer where
  | job (succeeded failed active : Nat) (conditions : List (Option String))
  /-- An error of the API, a missing job among them, or of the transport. -/
  | unavailable
  | raised (message : String)
  deriving DecidableEq

/-- What `get_live_status` comes to. -/
inductive LiveAnswer where
  | status (status : RunStatus)
  | nothing
  | unavailable
  | raised (message : String)
  deriving DecidableEq

def getLiveStatus (record : RunRecord) (now : Instant) : JobAnswer → LiveAnswer
  | .unavailable => .unavailable
  | .raised message => .raised message
  | .job succeeded failed active conditions =>
    let messages := (conditions.filterMap fun condition => condition).filter (· ≠ "")
    let detail (default : String) : Option String :=
      if messages = [] then some default else some ("; ".intercalate messages)
    if succeeded ≠ 0 then
      .status ⟨record.runId, .succeeded, now, detail "Kubernetes Job completed successfully."⟩
    else if failed ≠ 0 then
      .status ⟨record.runId, .failed, now, detail "Kubernetes Job reported failure."⟩
    else if active ≠ 0 then
      .status ⟨record.runId, .running, now, some "Kubernetes Job is active."⟩
    else .status ⟨record.runId, .queued, now, some "Kubernetes Job is queued."⟩

def unavailableDetail : Option String → String
  | some detail =>
    if detail = "" then "Live Kubernetes status unavailable; showing durable stored status."
    else detail ++ "; Live Kubernetes status unavailable; showing durable stored status."
  | none => "Live Kubernetes status unavailable; showing durable stored status."

def resolveRunStatus (clock : Clock) (directory : RunDirectory) (live : LiveAnswer)
    (record : RunRecord) : Except Failure RunStatus := do
  let diskStatus ← loadStatusFromDisk clock directory record.runId
  match diskStatus with
  | some status => .ok status
  | none =>
    match live with
    | .raised message => .error (.raised message)
    | .unavailable =>
      .ok
        { runId := record.runId
          status := record.status.status
          updatedAt := record.status.updatedAt
          detail := some (unavailableDetail record.status.detail) }
    | .status status => .ok status
    | .nothing => .ok record.status

end Glasslab.WorkflowApi
