import Glasslab.Foundation.Spacing
import Glasslab.Methodology.Requirements
import Glasslab.WorkflowApi.Creation

/-!
# Investigations

`app/investigation_routes.py`: what each request makes of the record of an investigation. A request
reads the whole record, computes a copy, and saves the copy; the functions here are the computations
between the two accesses. The digest of a plan snapshot is a parameter.
-/

namespace Glasslab.WorkflowApi

open Foundation Raising Except
open Glasslab.Methodology (isSpace)

/-! ## Records -/

structure InvestigationHypothesisRecord where
  hypothesisId : String
  statement : String
  createdAt : Instant
  submittedBy : String
  deriving DecidableEq

structure ImmutableAssetReference where
  uri : String
  sha256 : String
  mediaType : Option String := none
  deriving DecidableEq, Repr

inductive AccessScope where
  | solve
  | train
  | validate
  | evaluate
  deriving DecidableEq, Repr

structure InvestigationDatasetBinding where
  name : String
  asset : ImmutableAssetReference
  role : String
  containsLabels : Bool := false
  accessScopes : List AccessScope := [.solve, .train, .validate, .evaluate]
  deriving DecidableEq, Repr

structure InvestigationWorkspaceSpec where
  taskBundle : ImmutableAssetReference
  sourceBundle : ImmutableAssetReference
  workingDirectory : String := "."
  command : List String
  outputDirectory : String := "/outputs"
  networkPolicy : String := "none"
  deriving DecidableEq, Repr

structure PrimaryMetricContract where
  name : String
  direction : String := "maximize"
  minimumEffect : Float64 := .finite 0
  deriving DecidableEq

structure GuardrailMetricContract where
  name : String
  direction : String := "maximize"
  minimum : Option Float64 := none
  maximum : Option Float64 := none
  required : Bool := false
  deriving DecidableEq

structure EvaluatorContract where
  evaluatorType : String := "generic"
  primaryMetric : Option PrimaryMetricContract := none
  guardrails : List GuardrailMetricContract := []
  uncertainty : Entries := []
  deriving DecidableEq

structure BudgetContract where
  budgetMode : String := "manual"
  maxWallclockMinutes : Option Int := none
  maxSamplesSeen : Option Int := none
  maxOptimizerSteps : Option Int := none
  deriving DecidableEq, Repr

structure InvestigationExecutionSpec where
  executionId : String
  objective : String
  experimentType : String
  workloadId : String
  dataAccessScope : AccessScope
  dependsOn : List String := []
  workspace : InvestigationWorkspaceSpec
  datasetBindings : List InvestigationDatasetBinding := []
  configPayload : Entries := []
  budget : BudgetContract
  artifactContract : ExpectedArtifactsSpec
  evaluatorContract : EvaluatorContract
  deriving DecidableEq

structure InvestigationPlanRecord where
  planId : String
  revision : Nat
  createdAt : Instant
  submittedBy : String
  title : String
  rationale : String
  hypothesisIds : List String
  executions : List InvestigationExecutionSpec
  deriving DecidableEq

inductive ResearchMode where
  | exploratory
  | confirmatory
  deriving DecidableEq, Repr

structure InvestigationPlanSnapshot where
  investigationId : String
  researchMode : ResearchMode
  researchQuestion : String
  hypotheses : List InvestigationHypothesisRecord
  plan : InvestigationPlanRecord
  deriving DecidableEq

structure InvestigationPlanApprovalRecord where
  approvalId : String
  planId : String
  planSha256 : String
  approvedAt : Instant
  approvedBy : String
  hypothesisIds : List String
  researchMode : ResearchMode
  planSnapshot : InvestigationPlanSnapshot
  note : Option String := none
  deriving DecidableEq

structure InvestigationEvidenceReference where
  runId : String
  artifactName : String
  artifactRef : String
  artifactSha256 : String
  deriving DecidableEq, Repr

inductive Assessment where
  | supported
  | refuted
  | inconclusive
  deriving DecidableEq, Repr

structure InvestigationClaimRecord where
  claimId : String
  statement : String
  assessment : Assessment
  hypothesisIds : List String
  evidence : List InvestigationEvidenceReference
  createdAt : Instant
  submittedBy : String
  note : Option String := none
  deriving DecidableEq

inductive InvestigationStatus where
  | planning
  | approved
  | running
  | evaluating
  | completed
  | paused
  deriving DecidableEq, Repr

structure InvestigationRecord where
  investigationId : String
  createdAt : Instant
  updatedAt : Instant
  status : InvestigationStatus := .planning
  title : String
  researchQuestion : String
  researchMode : ResearchMode
  priorities : List String := []
  hypotheses : List InvestigationHypothesisRecord := []
  plans : List InvestigationPlanRecord := []
  planApprovals : List InvestigationPlanApprovalRecord := []
  activePlanApprovalId : Option String := none
  runIds : List String := []
  claims : List InvestigationClaimRecord := []
  submittedBy : String
  deriving DecidableEq

structure InvestigationCreateRequest where
  title : Option String := none
  researchQuestion : String
  researchMode : ResearchMode := .exploratory
  hypotheses : List String := []
  priorities : List String := []
  submittedBy : Option String := none
  deriving DecidableEq, Repr

structure InvestigationHypothesisCreateRequest where
  statement : String
  submittedBy : Option String := none
  deriving DecidableEq, Repr

structure InvestigationPlanCreateRequest where
  title : String
  rationale : String
  hypothesisIds : List String
  executions : List InvestigationExecutionSpec
  submittedBy : Option String := none
  deriving DecidableEq

structure InvestigationPlanApproveRequest where
  planId : String
  approvedBy : Option String := none
  note : Option String := none
  deriving DecidableEq, Repr

structure InvestigationRunCreateRequest where
  approvalId : String
  executionId : String
  deriving DecidableEq, Repr

structure InvestigationEvidenceRequest where
  runId : String
  artifactName : String
  deriving DecidableEq, Repr

structure InvestigationClaimCreateRequest where
  statement : String
  assessment : Assessment
  hypothesisIds : List String
  evidence : List InvestigationEvidenceRequest
  submittedBy : Option String := none
  note : Option String := none
  deriving DecidableEq, Repr

/-- A clock and an identifier, as `datetime.now` and `uuid4` give them. -/
structure Stamp where
  now : Instant
  id : String
  deriving DecidableEq

/-- The digest of the canonical JSON text of a snapshot. -/
abbrev Digest := InvestigationPlanSnapshot → String

def buildPlanSnapshot (investigation : InvestigationRecord) (plan : InvestigationPlanRecord) :
    InvestigationPlanSnapshot where
  investigationId := investigation.investigationId
  researchMode := investigation.researchMode
  researchQuestion := investigation.researchQuestion
  hypotheses := investigation.hypotheses
  plan := plan

/-- `build_plan_sha256`. A snapshot has at least one hypothesis. -/
def buildPlanSha256 (digest : Digest) (investigation : InvestigationRecord)
    (plan : InvestigationPlanRecord) : Except Failure String :=
  if investigation.hypotheses = [] then .error (.raised "ValidationError")
  else .ok (digest (buildPlanSnapshot investigation plan))

def getPlan (investigation : InvestigationRecord) (planId : String) :
    Except Failure InvestigationPlanRecord :=
  (investigation.plans.find? fun plan => plan.planId = planId).elim
    (.error (.http 404 (text "investigation plan not found"))) .ok

def getApproval (investigation : InvestigationRecord) (approvalId : String) :
    Except Failure InvestigationPlanApprovalRecord :=
  (investigation.planApprovals.find? fun approval => approval.approvalId = approvalId).elim
    (.error (.http 404 (text "investigation plan approval not found"))) .ok

def getExecution (plan : InvestigationPlanRecord) (executionId : String) :
    Except Failure InvestigationExecutionSpec :=
  (plan.executions.find? fun execution => execution.executionId = executionId).elim
    (.error (.http 404 (text "investigation plan execution not found"))) .ok

def getActiveApproval (investigation : InvestigationRecord) :
    Option InvestigationPlanApprovalRecord :=
  investigation.activePlanApprovalId.bind fun approvalId =>
    investigation.planApprovals.find? fun approval => approval.approvalId = approvalId

/-- `validate_plan_hypotheses`, and the same check of a claim. -/
def validateHypotheses (message : String) (investigation : InvestigationRecord)
    (hypothesisIds : List String) : Except Failure Unit :=
  let known := investigation.hypotheses.map InvestigationHypothesisRecord.hypothesisId
  let unknown := hypothesisIds.filter (· ∉ known)
  if unknown ≠ [] then
    .error (.http 409 (.map [("message", text message), ("hypothesis_ids", texts unknown)]))
  else .ok ()

def validatePlanHypotheses : InvestigationRecord → List String → Except Failure Unit :=
  validateHypotheses "plan references hypotheses outside this investigation"

def validateExecutionContract (registry : WorkflowRegistry)
    (preflight : WorkflowRegistryEntry → ExecutionPreflightResult)
    (execution : InvestigationExecutionSpec) : Except Failure Unit := do
  let workflow ← (registry.getWorkflow execution.workloadId).elim
    (.error (conflict "plan workload definition not found")) .ok
  if truthy workflow.experimentType ∧ workflow.experimentType ≠ some execution.experimentType then
    .error (conflict ("workload " ++ workflow.workflowId ++ " requires experiment_type " ++
      workflow.experimentType.getD ""))
  else
    let result := preflight workflow
    if !result.ready then
      .error (.http 409 (.map [("message", text "plan execution preflight failed"),
        ("workload_id", text execution.workloadId),
        ("blocking_issues", texts result.blockingIssues), ("warnings", texts result.warnings)]))
    else
      let missing := workflow.expectedArtifacts.required.filter
        (· ∉ execution.artifactContract.required)
      if missing ≠ [] then
        .error (.http 409 (.map
          [("message", text "plan artifact contract omits workload-required artifacts"),
            ("missing_artifacts", texts (sortedNames missing))]))
      else .ok ()

def questionTitle (researchQuestion : String) : String :=
  let beginning := (researchQuestion.toList.take 80).reverse
  String.ofList (beginning.dropWhile (· ∈ [' ', '.', ',', ':', ';'])).reverse

def createInvestigation (settings : Settings) (request : InvestigationCreateRequest) (stamp : Stamp)
    (hypothesisIds : Nat → String) : InvestigationRecord :=
  let submittedBy := orDefault request.submittedBy settings.defaultSubmittedBy
  { investigationId := stamp.id
    createdAt := stamp.now
    updatedAt := stamp.now
    title := orDefault request.title (questionTitle request.researchQuestion)
    researchQuestion := request.researchQuestion
    researchMode := request.researchMode
    priorities := request.priorities
    hypotheses := request.hypotheses.mapIdx fun i statement =>
      { hypothesisId := hypothesisIds i
        statement := statement
        createdAt := stamp.now
        submittedBy := submittedBy }
    submittedBy := submittedBy }

def addInvestigationHypothesis (settings : Settings)
    (request : InvestigationHypothesisCreateRequest) (stamp : Stamp)
    (investigation : InvestigationRecord) : Except Failure InvestigationRecord :=
  if investigation.researchMode = .confirmatory ∧ investigation.activePlanApprovalId ≠ none then
    .error (conflict "confirmatory hypotheses are frozen after plan approval")
  else if investigation.hypotheses.any
    fun hypothesis => hypothesis.statement = request.statement then
    .error (conflict "hypothesis already exists in this investigation")
  else
    .ok
      { investigation with
        updatedAt := stamp.now
        status := .planning
        hypotheses := investigation.hypotheses ++
          [{ hypothesisId := stamp.id
             statement := request.statement
             createdAt := stamp.now
             submittedBy := orDefault request.submittedBy settings.defaultSubmittedBy }]
        activePlanApprovalId := none }

def planRecord (settings : Settings) (request : InvestigationPlanCreateRequest) (stamp : Stamp)
    (investigation : InvestigationRecord) : InvestigationPlanRecord where
  planId := stamp.id
  revision := investigation.plans.length + 1
  createdAt := stamp.now
  submittedBy := orDefault request.submittedBy settings.defaultSubmittedBy
  title := request.title
  rationale := request.rationale
  hypothesisIds := request.hypothesisIds
  executions := request.executions

def createInvestigationPlan (settings : Settings) (request : InvestigationPlanCreateRequest)
    (stamp : Stamp) (investigation : InvestigationRecord) : Except Failure InvestigationRecord := do
  validatePlanHypotheses investigation request.hypothesisIds
  .ok
    { investigation with
      updatedAt := stamp.now
      status := .planning
      plans := investigation.plans ++ [planRecord settings request stamp investigation] }

def approvalRecord (settings : Settings) (request : InvestigationPlanApproveRequest) (stamp : Stamp)
    (investigation : InvestigationRecord) (plan : InvestigationPlanRecord) (planSha256 : String) :
    InvestigationPlanApprovalRecord where
  approvalId := stamp.id
  planId := plan.planId
  planSha256 := planSha256
  approvedAt := stamp.now
  approvedBy := orDefault request.approvedBy settings.defaultSubmittedBy
  hypothesisIds := plan.hypothesisIds
  researchMode := investigation.researchMode
  planSnapshot := buildPlanSnapshot investigation plan
  note := request.note

def checkApproval (digest : Digest) (registry : WorkflowRegistry)
    (preflight : WorkflowRegistryEntry → ExecutionPreflightResult)
    (request : InvestigationPlanApproveRequest) (investigation : InvestigationRecord) :
    Except Failure (InvestigationPlanRecord × String) := do
  if investigation.hypotheses = [] then
    .error (conflict "investigation needs at least one hypothesis before plan approval")
  else if investigation.researchMode = .confirmatory ∧ investigation.runIds ≠ [] then
    .error (conflict "a confirmatory plan cannot be replaced after execution begins")
  else
    let plan ← getPlan investigation request.planId
    validatePlanHypotheses investigation plan.hypothesisIds
    let _ ← plan.executions.mapM (validateExecutionContract registry preflight)
    let planSha256 ← buildPlanSha256 digest investigation plan
    .ok (plan, planSha256)

def alreadyApproved (investigation : InvestigationRecord) (plan : InvestigationPlanRecord)
    (planSha256 : String) : Bool :=
  (getActiveApproval investigation).any fun approval =>
    approval.planId = plan.planId ∧ approval.planSha256 = planSha256

/-- The record that `approve_investigation_plan` saves; none where the approval stands already. -/
def approveInvestigationPlan (digest : Digest) (registry : WorkflowRegistry)
    (preflight : WorkflowRegistryEntry → ExecutionPreflightResult) (settings : Settings)
    (request : InvestigationPlanApproveRequest) (stamp : Stamp)
    (investigation : InvestigationRecord) : Except Failure (Option InvestigationRecord) := do
  let (plan, planSha256) ← checkApproval digest registry preflight request investigation
  if alreadyApproved investigation plan planSha256 then .ok none
  else
    let approval := approvalRecord settings request stamp investigation plan planSha256
    .ok (some
      { investigation with
        updatedAt := stamp.now
        status := .approved
        planApprovals := investigation.planApprovals ++ [approval]
        activePlanApprovalId := some approval.approvalId })

/-! ## Launches -/

def AccessScope.text : AccessScope → String
  | solve => "solve"
  | train => "train"
  | validate => "validate"
  | evaluate => "evaluate"

def ImmutableAssetReference.dump (asset : ImmutableAssetReference) : Value :=
  .map [("uri", text asset.uri), ("sha256", text asset.sha256),
    ("media_type", asset.mediaType.elim (.scalar .null) text)]

def InvestigationDatasetBinding.dump (binding : InvestigationDatasetBinding) : Value :=
  .map [("name", text binding.name), ("asset", binding.asset.dump), ("role", text binding.role),
    ("contains_labels", .scalar (.bool binding.containsLabels)),
    ("access_scopes", texts (binding.accessScopes.map AccessScope.text))]

def InvestigationWorkspaceSpec.dump (workspace : InvestigationWorkspaceSpec) : Value :=
  .map [("task_bundle", workspace.taskBundle.dump), ("source_bundle", workspace.sourceBundle.dump),
    ("working_directory", text workspace.workingDirectory), ("command", texts workspace.command),
    ("output_directory", text workspace.outputDirectory),
    ("network_policy", text workspace.networkPolicy)]

/-- An entry that `exclude_none=True` leaves out. -/
def optionalEntry {α : Type} (name : String) (value : Option α) (dump : α → Value) : Entries :=
  value.elim [] fun value => [(name, dump value)]

def BudgetContract.dump (budget : BudgetContract) : Entries :=
  [("budget_mode", text budget.budgetMode)] ++
    optionalEntry "max_wallclock_minutes" budget.maxWallclockMinutes (fun n => .scalar (.int n)) ++
    optionalEntry "max_samples_seen" budget.maxSamplesSeen (fun n => .scalar (.int n)) ++
    optionalEntry "max_optimizer_steps" budget.maxOptimizerSteps fun n => .scalar (.int n)

def PrimaryMetricContract.dump (metric : PrimaryMetricContract) : Value :=
  .map [("name", text metric.name), ("direction", text metric.direction),
    ("minimum_effect", .scalar (.float metric.minimumEffect))]

def GuardrailMetricContract.dump (guardrail : GuardrailMetricContract) : Value :=
  .map ([("name", text guardrail.name), ("direction", text guardrail.direction)] ++
    optionalEntry "minimum" guardrail.minimum (fun x => .scalar (.float x)) ++
    optionalEntry "maximum" guardrail.maximum (fun x => .scalar (.float x)) ++
    [("required", .scalar (.bool guardrail.required))])

def EvaluatorContract.dump (contract : EvaluatorContract) : Entries :=
  [("evaluator_type", text contract.evaluatorType)] ++
    optionalEntry "primary_metric" contract.primaryMetric PrimaryMetricContract.dump ++
    [("guardrails", .list (contract.guardrails.map GuardrailMetricContract.dump)),
      ("uncertainty", .map contract.uncertainty)]

def visibleBindings (execution : InvestigationExecutionSpec) : List InvestigationDatasetBinding :=
  execution.datasetBindings.filter fun binding => execution.dataAccessScope ∈ binding.accessScopes

/-- The `dependency_id` has a run of the approval that succeeded. -/
def dependencySatisfied (runs : List RunRecord) (approvalId dependencyId : String) : Bool :=
  runs.any fun run => run.sourceApprovalId = some approvalId ∧
    run.sourceExecutionId = some dependencyId ∧ run.status.status = .succeeded

/-- What a launch passes to the creation of its run. -/
structure LaunchPlan where
  approval : InvestigationPlanApprovalRecord
  plan : InvestigationPlanRecord
  execution : InvestigationExecutionSpec
  deriving DecidableEq

/-- The checks of `launch_investigation_run`, on the runs of the investigation that are stored. -/
def checkLaunch (digest : Digest) (request : InvestigationRunCreateRequest)
    (investigation : InvestigationRecord) (runs : List RunRecord) : Except Failure LaunchPlan := do
  if investigation.activePlanApprovalId = none then
    .error (conflict "investigation has no active plan approval")
  else if some request.approvalId ≠ investigation.activePlanApprovalId then
    .error (conflict "requested approval is not the active investigation plan")
  else
    let approval ← getApproval investigation request.approvalId
    let plan ← getPlan investigation approval.planId
    let execution ← getExecution plan request.executionId
    let currentSha256 ← buildPlanSha256 digest investigation plan
    if currentSha256 ≠ approval.planSha256 then
      .error (conflict
        "approved plan snapshot no longer matches the current investigation state")
    else
      let unsatisfied := execution.dependsOn.filter fun dependencyId =>
        !dependencySatisfied runs approval.approvalId dependencyId
      if unsatisfied ≠ [] then
        .error (.http 409 (.map
          [("message", text "plan execution dependencies are not satisfied"),
            ("execution_id", text execution.executionId), ("dependencies", texts unsatisfied)]))
      else .ok ⟨approval, plan, execution⟩

/-- The entries a launch puts into the configuration of the run. -/
def launchConfig (investigation : InvestigationRecord) (launch : LaunchPlan) : Entries :=
  [("workspace", launch.execution.workspace.dump),
    ("dataset_contracts",
      .list ((visibleBindings launch.execution).map InvestigationDatasetBinding.dump)),
    ("investigation",
      .map [("investigation_id", text investigation.investigationId),
        ("plan_id", text launch.plan.planId), ("approval_id", text launch.approval.approvalId),
        ("execution_id", text launch.execution.executionId),
        ("plan_sha256", text launch.approval.planSha256)])]

/-- `' '.join(value.split())`. -/
def collapseText (value : String) : String := String.ofList (collapse isSpace ' ' value.toList)

/-- `validate_dataset_bindings` of a request: names and URIs are collapsed, blank ones dropped. -/
def validateDatasetBindings (bindings : List (String × String)) : List (String × String) :=
  bindings.foldl
    (fun cleaned (key, raw) =>
      if collapseText key ≠ "" ∧ collapseText raw ≠ "" then
        Dict.set (collapseText key) (collapseText raw) cleaned
      else cleaned)
    []

/-- The request a launch makes, if its configuration is not too large. -/
def launchRequest (fits : Entries → Bool) (investigation : InvestigationRecord)
    (launch : LaunchPlan) : Except Failure GenericExperimentRunRequest :=
  let configPayload := Dict.merge launch.execution.configPayload (launchConfig investigation launch)
  if !fits configPayload then
    .error (.raised "config_payload exceeds the 262144-byte size cap")
  else
    .ok
      { objective := launch.execution.objective
        experimentType := launch.execution.experimentType
        workloadId := launch.execution.workloadId
        configPayload := configPayload
        datasetBindings := validateDatasetBindings <|
          Dict.merge [] ((visibleBindings launch.execution).map fun binding =>
            (binding.name, binding.asset.uri))
        budget := launch.execution.budget.dump
        artifactContract := some launch.execution.artifactContract
        metricContract := launch.execution.evaluatorContract.dump
        submittedBy := some launch.plan.submittedBy }

def launchLineage (investigation : InvestigationRecord) (launch : LaunchPlan) : Lineage where
  investigationId := some investigation.investigationId
  sourcePlanId := some launch.plan.planId
  sourceApprovalId := some launch.approval.approvalId
  sourceExecutionId := some launch.execution.executionId
  planSha256 := some launch.approval.planSha256

def investigationKey (approvalId executionId : String) : String :=
  "investigation:" ++ approvalId ++ ":" ++ executionId

def launchKey (launch : LaunchPlan) : String :=
  investigationKey launch.approval.approvalId launch.execution.executionId

def recordLaunch (now : Instant) (runId : String) (investigation : InvestigationRecord) :
    InvestigationRecord :=
  { investigation with
    updatedAt := now
    status := .running
    runIds :=
      if runId ∈ investigation.runIds then investigation.runIds
      else investigation.runIds ++ [runId] }

section Specifications

variable {settings : Settings} {stamp : Stamp} {investigation updated : InvestigationRecord}
  {digest : Digest} {plan : InvestigationPlanRecord} {planSha256 : String}

theorem addInvestigationHypothesis_ok {request : InvestigationHypothesisCreateRequest}
    (h : addInvestigationHypothesis settings request stamp investigation = .ok updated) :
    ¬ (investigation.researchMode = .confirmatory ∧ investigation.activePlanApprovalId ≠ none) ∧
      ∃ hypothesis, updated =
        { investigation with
          updatedAt := stamp.now
          status := .planning
          hypotheses := investigation.hypotheses ++ [hypothesis]
          activePlanApprovalId := none } := by
  obtain ⟨hOpen, h⟩ := of_check h
  obtain ⟨-, h⟩ := of_check h
  exact ⟨hOpen, _, (ok.inj h).symm⟩

theorem createInvestigationPlan_ok {request : InvestigationPlanCreateRequest}
    (h : createInvestigationPlan settings request stamp investigation = .ok updated) :
    updated =
      { investigation with
        updatedAt := stamp.now
        status := .planning
        plans := investigation.plans ++ [planRecord settings request stamp investigation] } := by
  obtain ⟨-, -, h⟩ := of_bind h
  exact (ok.inj h).symm

theorem buildPlanSha256_eq_ok_iff : buildPlanSha256 digest investigation plan = .ok planSha256 ↔
    investigation.hypotheses ≠ [] ∧ digest (buildPlanSnapshot investigation plan) = planSha256 := by
  unfold buildPlanSha256
  rw [check_eq_ok_iff, Except.ok.injEq]

variable {request : InvestigationPlanApproveRequest}
  {preflight : WorkflowRegistryEntry → ExecutionPreflightResult} {registry : WorkflowRegistry}

theorem checkApproval_ok
    (h : checkApproval digest registry preflight request investigation = .ok (plan, planSha256)) :
    ¬ (investigation.researchMode = .confirmatory ∧ investigation.runIds ≠ []) ∧
      getPlan investigation request.planId = .ok plan ∧
      digest (buildPlanSnapshot investigation plan) = planSha256 := by
  obtain ⟨-, h⟩ := of_check h
  obtain ⟨hOpen, h⟩ := of_check h
  obtain ⟨found, hFound, h⟩ := of_bind h
  obtain ⟨-, -, h⟩ := of_bind h
  obtain ⟨-, -, h⟩ := of_bind h
  obtain ⟨sha256, hSha256, h⟩ := of_bind h
  obtain ⟨rfl, rfl⟩ := Prod.mk.inj (ok.inj h)
  exact ⟨hOpen, hFound, (buildPlanSha256_eq_ok_iff.mp hSha256).2⟩

theorem approveInvestigationPlan_ok {saved : Option InvestigationRecord}
    (h : approveInvestigationPlan digest registry preflight settings request stamp investigation =
      .ok saved) :
    saved = none ∨ ∃ plan planSha256,
      checkApproval digest registry preflight request investigation = .ok (plan, planSha256) ∧
        saved = some
          { investigation with
            updatedAt := stamp.now
            status := .approved
            planApprovals := investigation.planApprovals ++
              [approvalRecord settings request stamp investigation plan planSha256]
            activePlanApprovalId := some stamp.id } := by
  obtain ⟨⟨plan, planSha256⟩, hCheck, h⟩ := of_bind h
  dsimp only at h
  split at h
  · exact .inl (ok.inj h).symm
  · exact .inr ⟨plan, planSha256, hCheck, (ok.inj h).symm⟩

variable {approval : InvestigationPlanApprovalRecord} {approvalId : String}

theorem getApproval_eq_ok_iff :
    getApproval investigation approvalId = .ok approval ↔
      (investigation.planApprovals.find? fun approval => approval.approvalId = approvalId) =
        some approval :=
  elim_eq_ok_iff

theorem approvalId_of_getApproval
    (h : getApproval investigation approvalId = .ok approval) :
    approval.approvalId = approvalId ∧ approval ∈ investigation.planApprovals :=
  and_mem_of_find h

theorem planId_of_getPlan {planId : String} (h : getPlan investigation planId = .ok plan) :
    plan.planId = planId ∧ plan ∈ investigation.plans :=
  and_mem_of_find h

theorem executionId_of_getExecution {executionId : String} {execution : InvestigationExecutionSpec}
    (h : getExecution plan executionId = .ok execution) :
    execution.executionId = executionId ∧ execution ∈ plan.executions :=
  and_mem_of_find h

/-- What the checks of a launch establish. -/
structure Launchable (digest : Digest) (request : InvestigationRunCreateRequest)
    (investigation : InvestigationRecord) (runs : List RunRecord) (launch : LaunchPlan) :
    Prop where
  active : investigation.activePlanApprovalId = some request.approvalId
  approval : getApproval investigation request.approvalId = .ok launch.approval
  plan : getPlan investigation launch.approval.planId = .ok launch.plan
  execution : getExecution launch.plan request.executionId = .ok launch.execution
  unchanged : digest (buildPlanSnapshot investigation launch.plan) = launch.approval.planSha256
  satisfied : ∀ dependencyId ∈ launch.execution.dependsOn,
    dependencySatisfied runs launch.approval.approvalId dependencyId = true

theorem checkLaunch_ok {request : InvestigationRunCreateRequest} {runs : List RunRecord}
    {launch : LaunchPlan} (h : checkLaunch digest request investigation runs = .ok launch) :
    Launchable digest request investigation runs launch := by
  obtain ⟨-, h⟩ := of_check h
  obtain ⟨hActive, h⟩ := of_check h
  obtain ⟨approval, hApproval, h⟩ := of_bind h
  obtain ⟨plan, hPlan, h⟩ := of_bind h
  obtain ⟨execution, hExecution, h⟩ := of_bind h
  obtain ⟨sha256, hSha256, h⟩ := of_bind h
  obtain ⟨hSame, h⟩ := of_check h
  obtain ⟨hSatisfied, h⟩ := of_check h
  obtain rfl := ok.inj h
  refine ⟨(not_not.mp hActive).symm, hApproval, hPlan, hExecution, ?_, fun dependencyId hMem => ?_⟩
  · rw [(buildPlanSha256_eq_ok_iff.mp hSha256).2]
    exact not_not.mp hSame
  · have hNone := List.filter_eq_nil_iff.mp (not_not.mp hSatisfied) dependencyId hMem
    simpa using hNone

theorem mem_runIds_recordLaunch {now : Instant} {runId other : String} :
    other ∈ (recordLaunch now runId investigation).runIds ↔
      other ∈ investigation.runIds ∨ other = runId := by
  unfold recordLaunch
  split
  next hMem =>
    constructor
    · exact .inl
    · rintro (h | rfl)
      · exact h
      · exact hMem
  · rw [List.mem_append, List.mem_singleton]

end Specifications

end Glasslab.WorkflowApi
