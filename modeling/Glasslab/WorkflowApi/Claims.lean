import Glasslab.WorkflowApi.Investigations
import Glasslab.WorkflowApi.RunArtifacts

/-!
# Claims of an investigation

`record_investigation_claim` of `app/investigation_routes.py`: a claim rests on artifacts of runs of
the investigation. A claim that supports or refutes is checked against the evaluator contract of the
execution each run was launched for.
-/

namespace Glasslab.WorkflowApi

open Foundation Raising

/-- `float(value)` of a number that is no boolean: none where it overflows. -/
def numeric : Value → Option (Option Float64)
  | .scalar (.int n) => some (Float64.ofInt n)
  | .scalar (.float x) => some (some x)
  | _ => none

def isBelow (bound : Option Float64) (x : Float64) : Bool := bound.any fun b => x.lt b

def isAbove (bound : Option Float64) (x : Float64) : Bool := bound.any fun b => b.lt x

def boundIssues (repr : Float64 → String) (guardrail : GuardrailMetricContract) (value : Value) :
    Except Failure (List String) :=
  match numeric value with
  | none => .ok ["guardrail metric is non-numeric: " ++ guardrail.name]
  | some none => .error (.raised "int too large to convert to float")
  | some (some x) =>
    .ok ((if isBelow guardrail.minimum x then
        ["guardrail " ++ guardrail.name ++ " is below minimum " ++
          (guardrail.minimum.elim "" repr)] else []) ++
      if isAbove guardrail.maximum x then
        ["guardrail " ++ guardrail.name ++ " is above maximum " ++
          (guardrail.maximum.elim "" repr)] else [])

def guardrailIssues (repr : Float64 → String) (metrics : Entries)
    (guardrail : GuardrailMetricContract) : Except Failure (List String) :=
  match (metrics.lookup guardrail.name).filter (· ≠ .scalar .null) with
  | none =>
    .ok (if guardrail.required then
      ["required guardrail metric is missing: " ++ guardrail.name] else [])
  | some value => boundIssues repr guardrail value

def evaluatorContractIssues (repr : Float64 → String) (metrics : Entries)
    (execution : InvestigationExecutionSpec) : Except Failure (List String) := do
  let primary := match execution.evaluatorContract.primaryMetric with
    | none => []
    | some metric =>
      if ((metrics.lookup metric.name).bind numeric).isSome then []
      else ["primary metric is missing or non-numeric: " ++ metric.name]
  let rest ← execution.evaluatorContract.guardrails.mapM (guardrailIssues repr metrics)
  .ok (primary ++ rest.flatten)

/-- What a claim meets: the stored runs and artifact indexes, and the files on the shared volume. -/
structure Evidence where
  store : RunStore
  /-- The digest of an artifact that is a regular file. -/
  digestOnDisk : String → String → Option String
  repr : Float64 → String

def Assessment.decides : Assessment → Bool
  | supported | refuted => true
  | inconclusive => false

/-- The execution a run was launched for, in the snapshot that was approved. -/
def approvedExecution (investigation : InvestigationRecord) (run : RunRecord) :
    Except Failure InvestigationExecutionSpec := do
  let approval ← getApproval investigation (run.sourceApprovalId.getD "")
  getExecution approval.planSnapshot.plan (run.sourceExecutionId.getD "")

def checkRunContract (evidence : Evidence) (investigation : InvestigationRecord)
    (run : RunRecord) : Except Failure Unit := do
  if !truthy run.sourceApprovalId ∨ !truthy run.sourceExecutionId then
    .error (conflict "claim run is missing approved execution lineage")
  else
    let execution ← approvedExecution investigation run
    let issues ← evaluatorContractIssues evidence.repr run.reportedMetrics execution
    if issues ≠ [] then
      .error (.http 409 (.map
        [("message", text "run does not satisfy its approved evaluator contract"),
          ("issues", texts issues)]))
    else .ok ()

def checkDecided (evidence : Evidence) (investigation : InvestigationRecord)
    (assessment : Assessment) (run : RunRecord) : Except Failure Unit :=
  if assessment.decides then checkRunContract evidence investigation run else .ok ()

def checkEvidence (evidence : Evidence) (investigation : InvestigationRecord)
    (assessment : Assessment) (item : InvestigationEvidenceRequest) :
    Except Failure InvestigationEvidenceReference := do
  if item.runId ∉ investigation.runIds then
    .error (conflict ("run is not part of this investigation: " ++ item.runId))
  else
    let run ← (evidence.store.getRun item.runId).elim
      (.error (.http 404 (text ("run not found: " ++ item.runId)))) .ok
    if run.status.status ∉ bundleStates then
      .error (conflict ("run is not terminal: " ++ item.runId))
    else if assessment.decides ∧ run.status.status ≠ .succeeded then
      .error (conflict "supported or refuted claims require successful runs")
    else
      checkDecided evidence investigation assessment run
      if !run.artifactBundleVerified then
        .error (conflict
          ("run " ++ item.runId ++ " does not have a verified terminal artifact bundle"))
      else
        let ref ← (run.artifactRefs.lookup item.artifactName).elim
          (.error (conflict
            ("run " ++ item.runId ++ " has no ingested artifact named " ++ item.artifactName))) .ok
        let entry := (evidence.store.getArtifacts item.runId).bind fun index =>
          index.artifacts.find? fun entry => entry.name = item.artifactName
        let sha256 ← (entry.bind ArtifactIndexEntry.sha256).elim
          (.error (conflict ("run " ++ item.runId ++ " artifact " ++ item.artifactName ++
            " does not have a verified content digest"))) .ok
        if evidence.digestOnDisk item.runId item.artifactName ≠ some sha256 then
          .error (conflict ("run " ++ item.runId ++ " artifact " ++ item.artifactName ++
            " no longer matches its ingested content digest"))
        else .ok ⟨item.runId, item.artifactName, ref, sha256⟩

def claimRecord (settings : Settings) (request : InvestigationClaimCreateRequest) (stamp : Stamp)
    (evidence : List InvestigationEvidenceReference) : InvestigationClaimRecord where
  claimId := stamp.id
  statement := request.statement
  assessment := request.assessment
  hypothesisIds := request.hypothesisIds
  evidence := evidence
  createdAt := stamp.now
  submittedBy := orDefault request.submittedBy settings.defaultSubmittedBy
  note := request.note

def recordInvestigationClaim (settings : Settings) (evidence : Evidence)
    (request : InvestigationClaimCreateRequest) (stamp : Stamp)
    (investigation : InvestigationRecord) : Except Failure InvestigationRecord := do
  validateHypotheses "claim references hypotheses outside this investigation" investigation
    request.hypothesisIds
  if ¬ request.evidence.Nodup then .error (conflict "claim evidence entries must be unique")
  else
    let references ← request.evidence.mapM
      (checkEvidence evidence investigation request.assessment)
    .ok
      { investigation with
        updatedAt := stamp.now
        status := .evaluating
        claims := investigation.claims ++ [claimRecord settings request stamp references] }

theorem recordInvestigationClaim_ok {settings : Settings} {evidence : Evidence}
    {request : InvestigationClaimCreateRequest} {stamp : Stamp}
    {investigation updated : InvestigationRecord}
    (h : recordInvestigationClaim settings evidence request stamp investigation = .ok updated) :
    ∃ references, request.evidence.mapM
        (checkEvidence evidence investigation request.assessment) = .ok references ∧
      updated =
        { investigation with
          updatedAt := stamp.now
          status := .evaluating
          claims := investigation.claims ++ [claimRecord settings request stamp references] } := by
  obtain ⟨-, -, h⟩ := of_bind h
  obtain ⟨-, h⟩ := of_check h
  obtain ⟨references, hAll, h⟩ := of_bind h
  exact ⟨references, hAll, (Except.ok.inj h).symm⟩

end Glasslab.WorkflowApi
