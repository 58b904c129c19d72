import Glasslab.WorkflowApi.Creation
import Glasslab.WorkflowApi.RunArtifacts

/-!
# Requests on one run

The routes of `app/execution_routes.py` that change a run after it was created, and the refresh of
its status by `execute_due_approved_rerun_schedules` of `app/main.py`. Each reads the record,
computes a copy, and saves the copy; only `cancel_run` changes the record where it is.
-/

namespace Glasslab.WorkflowApi

open Foundation

def notFound (detail : String) : Failure := .http 404 (text detail)

structure GenericExperimentResultIngestRequest where
  terminalStatus : RunState
  terminal : terminalStatus ∈ bundleStates := by decide
  metrics : Entries := []
  artifactRefs : List (String × String) := []
  runtime : Entries := []
  detail : Option String := none
  deriving DecidableEq

def RunState.text : RunState → String
  | accepted => "accepted"
  | queued => "queued"
  | running => "running"
  | succeeded => "succeeded"
  | failed => "failed"
  | rejected => "rejected"
  | cancelled => "cancelled"

def missingRequired (request : GenericExperimentResultIngestRequest) (record : RunRecord) :
    List String :=
  if request.terminalStatus = .succeeded then
    let reported := Dict.merge record.artifactRefs request.artifactRefs
    record.manifest.expectedArtifacts.required.filter (· ∉ reported.map Prod.fst)
  else []

/-- The copy of a record that `ingest_generic_experiment_results` saves. -/
def reportResults (request : GenericExperimentResultIngestRequest) (now : Instant)
    (record : RunRecord) : Except Failure RunRecord :=
  let missing := missingRequired request record
  if missing ≠ [] then
    .error (.http 409 (.map [("message", text "successful result is missing required artifacts"),
      ("missing_artifacts", texts (sortedNames missing))]))
  else
    .ok
      { record with
        updatedAt := now
        status :=
          { runId := record.runId
            status := request.terminalStatus
            updatedAt := now
            detail := some (orDefault request.detail
              ("Generic result ingest marked run " ++ request.terminalStatus.text ++ ".")) }
        reportedMetrics := request.metrics
        artifactRefs := Dict.merge record.artifactRefs request.artifactRefs
        runtimeSummary := request.runtime }

def mergeArtifactRefs (runId : String) (existing : Option ArtifactsIndex)
    (refs : List (String × String)) (expectedArtifacts : ExpectedArtifactsSpec) :
    ArtifactsIndex where
  runId := runId
  artifacts :=
    let base := existing.getD (buildArtifactIndex runId expectedArtifacts)
    let declared := Dict.merge [] (base.artifacts.map fun entry => (entry.name, entry))
    let merged := Dict.merge declared (refs.map fun (name, path) =>
      (name,
        { name := name
          path := path
          mediaType := mediaType name
          required := decide (name ∈ expectedArtifacts.required)
          description := some "Reported by generic result ingest" }))
    sortOn ArtifactIndexEntry.name (merged.map Prod.snd)

/-- The copy of a record that `ingest_run_artifact_bundle` saves. -/
def verifyBundle (bundle : TerminalBundle) (record : RunRecord) : RunRecord :=
  { record with
    updatedAt := bundle.status.updatedAt
    status := bundle.status
    reportedMetrics := bundle.metrics
    artifactRefs := bundle.refs
    artifactBundleVerified := true }

/-- What the route makes of the exceptions of `load_terminal_bundle`. -/
def bundleFailure : Failure → Failure
  | .raised message => conflict message
  | failure => failure

/-- What `cancel_run` of the submitter comes to. -/
inductive CancelAnswer where
  | cancelled
  | unavailable
  | raised (message : String)
  deriving DecidableEq

def cancellable : List RunState := [.accepted, .queued, .running]

/-- What comes of a cancellation before its last access to the store. -/
inductive CancelCheck where
  | return (record : RunRecord)
  | fail (failure : Failure)
  | transition
  deriving DecidableEq

/-- `cancel_run` of the routes, up to the guarded transition. -/
def checkCancel (record : RunRecord) (live : LiveAnswer) (cancel : CancelAnswer) : CancelCheck :=
  if record.status.status = .cancelled then .return record
  else if record.status.status ∈ bundleStates then .fail
    (conflict "terminal run cannot be cancelled")
  else
    match live with
    | .raised message => .fail (.raised message)
    | .unavailable =>
      .fail (.http 503 (text "workload status could not be confirmed before cancellation"))
    | live =>
      let ended := match live with
        | .status status => decide (status.status ∈ bundleStates)
        | _ => false
      if ended then .fail (conflict "terminal run cannot be cancelled")
      else
        match cancel with
        | .raised message => .fail (.raised message)
        | .unavailable => .fail (.http 503 (text "workload cancellation could not be confirmed"))
        | .cancelled => .transition

def cancelledStatus (runId : String) (now : Instant) : RunStatus where
  runId := runId
  status := .cancelled
  updatedAt := now
  detail := some "Workload cancellation confirmed."

/-- The copy of the source run that is saved, if its resolved status is another one. -/
def refreshed (resolved : RunStatus) (record : RunRecord) : Option RunRecord :=
  if resolved ≠ record.status then
    some { record with status := resolved, updatedAt := resolved.updatedAt }
  else none

end Glasslab.WorkflowApi
