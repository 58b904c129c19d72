import Glasslab.Foundation.Raising
import Glasslab.WorkflowApi.Records

/-!
# Creation of runs

`build_generic_run_record` of `app/execution_routes.py` and `create_run_record` of `app/main.py`:
the checks of a request, the manifest, and the record that is saved before the job is submitted and
once more with the receipt.
-/

namespace Glasslab.WorkflowApi

open Foundation Raising Except

structure WorkflowInputSpec where
  name : String
  required : Bool := true
  deriving DecidableEq, Repr

structure ResourceProfileSpec where
  profileName : String
  requests : List (String × String) := []
  limits : List (String × String) := []
  nodeSelector : List (String × String) := []
  deriving DecidableEq, Repr

structure WorkflowRegistryEntry where
  workflowId : String
  displayName : String
  workflowFamily : String
  requiredInputs : List WorkflowInputSpec
  allowedModels : List String
  runnerImage : String
  evaluatorType : String
  expectedArtifacts : ExpectedArtifactsSpec
  resourceProfile : ResourceProfileSpec
  approvalTier : String
  experimentType : Option String := none
  schemaRef : Option String := none
  defaultEntrypoint : List String := []
  runnerServiceAccountName : String
  maxWallclockMinutes : Option Int := none
  metricContract : Entries := []
  deriving DecidableEq

abbrev WorkflowRegistry := List (String × WorkflowRegistryEntry)

def WorkflowRegistry.getWorkflow (registry : WorkflowRegistry) (workflowId : String) :
    Option WorkflowRegistryEntry :=
  registry.lookup workflowId

structure ExecutionPreflightResult where
  ready : Bool
  eligibleNodes : List String := []
  blockingIssues : List String := []
  warnings : List String := []
  deriving DecidableEq, Repr

structure RunCreateRequest where
  workflowId : String
  objective : String
  inputs : Entries := []
  models : List String
  resourceProfile : Option String := none
  runPriority : RunPriority := .user
  submittedBy : Option String := none
  traceId : Option String := none
  deriving DecidableEq

structure GenericExperimentRunRequest where
  objective : String
  experimentType : String
  workloadId : String
  parentRunId : Option String := none
  campaignId : Option String := none
  configPayload : Entries := []
  datasetBindings : List (String × String) := []
  budget : Entries := []
  artifactContract : Option ExpectedArtifactsSpec := none
  metricContract : Entries := []
  submittedBy : Option String := none
  runPriority : RunPriority := .user
  sessionId : Option String := none
  traceId : Option String := none
  deriving DecidableEq

/-- The arguments a launch of an investigation adds. -/
structure Lineage where
  investigationId : Option String := none
  sourcePlanId : Option String := none
  sourceApprovalId : Option String := none
  sourceExecutionId : Option String := none
  planSha256 : Option String := none
  deriving DecidableEq

/-- `all([investigation_id, source_plan_id, ...])`. -/
def Lineage.complete (lineage : Lineage) : Bool :=
  [lineage.investigationId, lineage.sourcePlanId, lineage.sourceApprovalId,
    lineage.sourceExecutionId, lineage.planSha256].all truthy

/-- The optional arguments of `create_run_record`. -/
structure Origin where
  sourceDesignId : Option String := none
  sourceIntakeId : Option String := none
  runPurpose : Option String := none
  sessionId : Option String := none
  deriving DecidableEq

structure Settings where
  defaultSubmittedBy : String := "glasslab-operator"
  deriving DecidableEq

/-- What becomes of a submission. Another exception may leave the submitter before the job was
created, or after it was. -/
inductive Submission where
  | accepted (receipt : JobSubmissionReceipt)
  | jobSubmissionError (statusCode : Nat) (detail : String)
  | raised (message : String) (created : Bool)
  deriving DecidableEq

def Submission.takesJob : Submission → Bool
  | accepted _ => true
  | jobSubmissionError _ _ => false
  | raised _ created => created

/-- How `resolve_evaluation_contract` fails. -/
inductive ContractError where
  | valueError (message : String)
  | other (message : String)
  deriving DecidableEq

/-- The clock, the identifiers and the answers of the cluster and of the file system. -/
structure Surroundings where
  now : Instant
  submittedAt : Instant
  runId : String
  preflight : WorkflowRegistryEntry → ExecutionPreflightResult
  /-- `InvestigationWorkspaceSpec.model_validate`, dumped again. -/
  validateWorkspace : Option Value → Except String Value
  resolveEvaluationContract : RunManifest → Except ContractError Unit
  submitRun : RunManifest → Submission

/-- The store, and the manifests whose job the submitter took. -/
structure World where
  store : RunStore := {}
  jobs : List RunManifest := []
  deriving DecidableEq

def mediaTypes : List (String × String) :=
  [(".json", "application/json"), (".md", "text/markdown"), (".csv", "text/csv"),
    (".txt", "text/plain"), (".log", "text/plain")]

/-- `name[name.rfind('.'):]`: without a dot, the last character. -/
def suffixOf (name : String) : String :=
  let back := name.toList.reverse
  if '.' ∈ back then
    String.ofList (back.takeWhile (· ≠ '.') ++ ['.']).reverse
  else String.ofList (back.take 1)

def mediaType (name : String) : String :=
  if name.toList.getLast? = some '/' then "inode/directory"
  else (mediaTypes.lookup (suffixOf name)).getD "application/octet-stream"

def buildArtifactIndex (runId : String) (expectedArtifacts : ExpectedArtifactsSpec) :
    ArtifactsIndex where
  runId := runId
  artifacts :=
    (expectedArtifacts.required.map (·, true) ++ expectedArtifacts.optional.map (·, false)).map
      fun (name, isRequired) =>
        { name := name
          path := "runs/" ++ runId ++ "/" ++ name
          mediaType := mediaType name
          required := isRequired
          description := some "Declared by workflow registry" }

structure ValidationIssue where
  field : String
  message : String
  deriving DecidableEq, Repr

def ValidationIssue.dump (issue : ValidationIssue) : Value :=
  .map [("field", text issue.field), ("message", text issue.message)]

/-- `sorted` of a set of names. -/
def sortedNames (names : List String) : List String := sortOn id names.dedup

def validateRunRequest (request : RunCreateRequest) (workflow : WorkflowRegistryEntry) :
    List ValidationIssue :=
  let allowedInputs := workflow.requiredInputs.map WorkflowInputSpec.name
  let requiredInputs :=
    (workflow.requiredInputs.filter WorkflowInputSpec.required).map WorkflowInputSpec.name
  let providedInputs := request.inputs.map Prod.fst
  let missingInputs := sortedNames (requiredInputs.filter (· ∉ providedInputs))
  let unknownInputs := sortedNames <| providedInputs.filter fun name =>
    name ∉ allowedInputs ∧ ¬ "technique_".toList <+: name.toList
  let disallowedModels := request.models.filter (· ∉ workflow.allowedModels)
  let profile := workflow.resourceProfile.profileName
  (missingInputs.map fun name => ⟨"inputs." ++ name, "required input is missing"⟩) ++
    (unknownInputs.map fun name =>
      ⟨"inputs." ++ name, "input is not declared in the workflow registry"⟩) ++
    (if disallowedModels = [] then []
      else [⟨"models", "disallowed models requested: " ++ ", ".intercalate disallowedModels⟩]) ++
    if truthy request.resourceProfile ∧ request.resourceProfile ≠ some profile then
      [⟨"resource_profile", "workflow requires resource profile " ++ profile⟩]
    else []

def conflict (detail : String) : Failure := .http 409 (text detail)

/-- `preflight.ready`; the details of a refusal differ between the paths. -/
def checkPreflight (preflight : ExecutionPreflightResult) (workflow : WorkflowRegistryEntry)
    (more : Entries) : Except Failure Unit :=
  if preflight.ready then .ok ()
  else
    .error (.http 409 (.map
      ([("message", text "execution preflight failed"), ("workflow_id", text workflow.workflowId),
        ("blocking_issues", texts preflight.blockingIssues)] ++ more)))

def workspaceSchemas : List String :=
  ["glasslab-investigation-workspace-v1", "glasslab-benchmark-workspace-v1"]

/-- The workspace of a research workload, validated and dumped in its place. -/
def resolveConfigPayload (surroundings : Surroundings) (workflow : WorkflowRegistryEntry)
    (configPayload : Entries) : Except Failure Entries :=
  if workflow.schemaRef.any (· ∈ workspaceSchemas) then
    match surroundings.validateWorkspace (configPayload.lookup "workspace") with
    | .error message =>
      .error (.http 422 (text ("invalid config_payload.workspace: " ++ message)))
    | .ok workspace => .ok (Dict.set "workspace" workspace configPayload)
  else .ok configPayload

/-- `list(dict.fromkeys(items))`. -/
def fromkeys (items : List String) : List String := items.reverse.dedup.reverse

def mergeArtifacts (declared : ExpectedArtifactsSpec) :
    Option ExpectedArtifactsSpec → ExpectedArtifactsSpec
  | none => declared
  | some contract =>
    let required := fromkeys (declared.required ++ contract.required)
    { required := required
      optional := (fromkeys (declared.optional ++ contract.optional)).filter (· ∉ required) }

def checkWallclock (budget : Entries) (ceiling : Option Int) : Except Failure Unit :=
  match budget.lookup "max_wallclock_minutes" with
  | some (.scalar (.int minutes)) =>
    if minutes < 1 then
      .error (conflict "budget.max_wallclock_minutes is required and must be a positive integer")
    else
      match ceiling with
      | none => .error (.raised "TypeError")
      | some ceiling =>
        if minutes > ceiling then
          .error (conflict ("budget.max_wallclock_minutes exceeds the registry ceiling of " ++
            toString ceiling))
        else .ok ()
  | _ => .error (conflict "budget.max_wallclock_minutes is required and must be a positive integer")

def orDefault (submittedBy : Option String) (default : String) : String :=
  if truthy submittedBy then submittedBy.getD default else default

def pendingReceipt (now : Instant) : JobSubmissionReceipt where
  jobName := ""
  «namespace» := ""
  acceptedAt := now
  status := "pending"
  detail := "Run accepted; submission not yet attempted."

/-- A record that passed its checks, and what is written with it. -/
structure Accepted where
  record : RunRecord
  expectedArtifacts : ExpectedArtifactsSpec
  /-- The session that is touched. -/
  touched : Option String
  message : String
  logPayload : JobSubmissionReceipt → Entries

/-- The end of both creation paths. -/
def persistAndSubmit (surroundings : Surroundings) (creation : Accepted) :
    Tx World Failure RunRecord := fun world =>
  let record := creation.record
  match world.store.saveRun record with
  | .error clash =>
    match record.idempotencyKey.bind world.store.getRunByIdempotencyKey with
    | some existing => (.ok existing, world)
    | none => (.error (.raised clash.message), world)
  | .ok store =>
    match surroundings.submitRun record.manifest with
    | .jobSubmissionError statusCode detail =>
      (.error (.http statusCode (text detail)), { world with store := store })
    | .raised message created =>
      (.error (.raised message),
        ⟨store, if created then world.jobs ++ [record.manifest] else world.jobs⟩)
    | .accepted submission =>
      let record :=
        { record with jobSubmission := submission, updatedAt := surroundings.submittedAt }
      let jobs := world.jobs ++ [record.manifest]
      match store.saveRun record with
      | .error clash => (.error (.raised clash.message), ⟨store, jobs⟩)
      | .ok store =>
        let store :=
          store.touchResearchSession creation.touched record.runId surroundings.submittedAt
        let store := store.saveArtifacts record.runId
          (buildArtifactIndex record.runId creation.expectedArtifacts)
        let entry :=
          { timestamp := surroundings.now
            level := "INFO"
            message := creation.message
            payload := creation.logPayload submission }
        (.ok record, ⟨store.appendLog record.runId entry, jobs⟩)

/-- The lookup both creation paths begin with. -/
def orExisting (idempotencyKey : Option String) (create : Tx World Failure RunRecord) :
    Tx World Failure RunRecord := fun world =>
  if truthy idempotencyKey then
    match idempotencyKey.bind world.store.getRunByIdempotencyKey with
    | some existing => (.ok existing, world)
    | none => create world
  else create world

/-- A creation: the record that is found under the key, or the one that passed its checks. -/
def createFrom (idempotencyKey : Option String) (accepted : Except Failure Accepted)
    (surroundings : Surroundings) : Tx World Failure RunRecord :=
  orExisting idempotencyKey fun world =>
    match accepted with
    | .error failure => (.error failure, world)
    | .ok creation => persistAndSubmit surroundings creation world

/-! ## The generic path -/

def genericManifest (request : GenericExperimentRunRequest) (workflow : WorkflowRegistryEntry)
    (settings : Settings) (surroundings : Surroundings) (configPayload : Entries) :
    RunManifest where
  runId := surroundings.runId
  workflowId := workflow.workflowId
  workflowFamily := workflow.workflowFamily
  displayName := workflow.displayName
  objective := request.objective
  submittedBy := orDefault request.submittedBy settings.defaultSubmittedBy
  submittedAt := surroundings.now
  runPriority := request.runPriority
  inputs :=
    [("parent_run_id", request.parentRunId.elim (.scalar .null) text),
      ("campaign_id", request.campaignId.elim (.scalar .null) text)]
  requestedModels := workflow.allowedModels.take 1
  resourceProfile := workflow.resourceProfile.profileName
  resourceRequests := workflow.resourceProfile.requests
  resourceLimits := workflow.resourceProfile.limits
  nodeSelector := workflow.resourceProfile.nodeSelector
  runnerImage := workflow.runnerImage
  runnerServiceAccountName := workflow.runnerServiceAccountName
  maximumWallclockMinutes := workflow.maxWallclockMinutes
  evaluatorType := workflow.evaluatorType
  approvalTier := workflow.approvalTier
  expectedArtifacts := mergeArtifacts workflow.expectedArtifacts request.artifactContract
  experimentType := some request.experimentType
  workloadId := some request.workloadId
  schemaRef := workflow.schemaRef
  entrypoint := workflow.defaultEntrypoint
  configPayload := configPayload
  datasetBindings := request.datasetBindings
  budget := request.budget
  metricContract := Dict.merge workflow.metricContract request.metricContract
  traceId := request.traceId

def acceptedStatus (runId : String) (now : Instant) (detail : String) : RunStatus where
  runId := runId
  status := .accepted
  updatedAt := now
  detail := some detail

def genericRecord (request : GenericExperimentRunRequest) (lineage : Lineage)
    (idempotencyKey : Option String) (surroundings : Surroundings)
    (workflow : WorkflowRegistryEntry) (manifest : RunManifest) : RunRecord where
  runId := surroundings.runId
  workflowId := workflow.workflowId
  createdAt := surroundings.now
  updatedAt := surroundings.now
  manifest := manifest
  status := acceptedStatus surroundings.runId surroundings.now
    "Generic experiment accepted by workflow-api."
  jobSubmission := pendingReceipt surroundings.now
  runPurpose := some "generic-experiment"
  runPriority := request.runPriority
  sessionId := request.sessionId
  investigationId := lineage.investigationId
  sourcePlanId := lineage.sourcePlanId
  sourceApprovalId := lineage.sourceApprovalId
  sourceExecutionId := lineage.sourceExecutionId
  planSha256 := lineage.planSha256
  idempotencyKey := idempotencyKey

def checkContract (surroundings : Surroundings) (manifest : RunManifest) : Except Failure Unit :=
  match surroundings.resolveEvaluationContract manifest with
  | .ok () => .ok ()
  | .error (.valueError message) => .error (conflict message)
  | .error (.other message) => .error (.raised message)

/-- The checks of `build_generic_run_record`, up to the record that is saved. -/
def acceptGeneric (registry : WorkflowRegistry) (settings : Settings)
    (request : GenericExperimentRunRequest) (lineage : Lineage) (idempotencyKey : Option String)
    (surroundings : Surroundings) : Except Failure Accepted := do
  let workflow ← (registry.getWorkflow request.workloadId).elim
    (.error (.http 404 (text "workload definition not found"))) .ok
  if truthy workflow.experimentType ∧ workflow.experimentType ≠ some request.experimentType then
    .error (conflict ("workload " ++ workflow.workflowId ++ " requires experiment_type " ++
      workflow.experimentType.getD ""))
  else
    checkPreflight (surroundings.preflight workflow) workflow []
    if workflow.schemaRef = some "glasslab-investigation-workspace-v1" ∧ ¬ lineage.complete then
      .error (conflict
        "research workspace runs require an approved investigation plan execution")
    else if workflow.defaultEntrypoint = [] then
      .error (conflict "no entrypoint resolved for workload")
    else
      let configPayload ← resolveConfigPayload surroundings workflow request.configPayload
      checkWallclock request.budget workflow.maxWallclockMinutes
      let manifest := genericManifest request workflow settings surroundings configPayload
      checkContract surroundings manifest
      .ok
        { record := genericRecord request lineage idempotencyKey surroundings workflow manifest
          expectedArtifacts := manifest.expectedArtifacts
          touched := none
          message := "generic experiment accepted"
          logPayload := fun submission =>
            [("workflow_id", text workflow.workflowId), ("workload_id", text request.workloadId),
              ("job_name", text submission.jobName)] }

def buildGenericRunRecord (registry : WorkflowRegistry) (settings : Settings)
    (request : GenericExperimentRunRequest) (lineage : Lineage) (idempotencyKey : Option String)
    (surroundings : Surroundings) : Tx World Failure RunRecord :=
  createFrom idempotencyKey
    (acceptGeneric registry settings request lineage idempotencyKey surroundings) surroundings

def runManifest (request : RunCreateRequest) (workflow : WorkflowRegistryEntry)
    (settings : Settings) (surroundings : Surroundings) : RunManifest where
  runId := surroundings.runId
  workflowId := workflow.workflowId
  workflowFamily := workflow.workflowFamily
  displayName := workflow.displayName
  objective := request.objective
  submittedBy := orDefault request.submittedBy settings.defaultSubmittedBy
  submittedAt := surroundings.now
  runPriority := request.runPriority
  inputs := request.inputs
  requestedModels := request.models
  resourceProfile := orDefault request.resourceProfile workflow.resourceProfile.profileName
  resourceRequests := workflow.resourceProfile.requests
  resourceLimits := workflow.resourceProfile.limits
  nodeSelector := workflow.resourceProfile.nodeSelector
  runnerImage := workflow.runnerImage
  runnerServiceAccountName := workflow.runnerServiceAccountName
  maximumWallclockMinutes := workflow.maxWallclockMinutes
  budget :=
    [("max_wallclock_minutes",
      .scalar (workflow.maxWallclockMinutes.elim .null .int))]
  entrypoint := workflow.defaultEntrypoint
  evaluatorType := workflow.evaluatorType
  approvalTier := workflow.approvalTier
  expectedArtifacts := workflow.expectedArtifacts
  traceId := request.traceId

def workflowRecord (request : RunCreateRequest) (workflow : WorkflowRegistryEntry)
    (settings : Settings) (origin : Origin) (idempotencyKey : Option String)
    (surroundings : Surroundings) : RunRecord where
  runId := surroundings.runId
  workflowId := workflow.workflowId
  createdAt := surroundings.now
  updatedAt := surroundings.now
  manifest := runManifest request workflow settings surroundings
  status := acceptedStatus surroundings.runId surroundings.now "Run accepted by workflow-api."
  jobSubmission := pendingReceipt surroundings.now
  sourceDesignId := origin.sourceDesignId
  sourceIntakeId := origin.sourceIntakeId
  runPurpose := origin.runPurpose
  runPriority := request.runPriority
  sessionId := origin.sessionId
  idempotencyKey := idempotencyKey

/-- The checks of `create_run_record`, up to the record that is saved. -/
def acceptRun (request : RunCreateRequest) (workflow : WorkflowRegistryEntry) (settings : Settings)
    (origin : Origin) (idempotencyKey : Option String) (surroundings : Surroundings) :
    Except Failure Accepted := do
  let issues := validateRunRequest request workflow
  if issues ≠ [] then .error (.http 400 (.list (issues.map ValidationIssue.dump)))
  else
    let preflight := surroundings.preflight workflow
    checkPreflight preflight workflow
      [("warnings", texts preflight.warnings), ("eligible_nodes", texts preflight.eligibleNodes)]
    .ok
      { record := workflowRecord request workflow settings origin idempotencyKey surroundings
        expectedArtifacts := workflow.expectedArtifacts
        touched := origin.sessionId
        message := "run accepted"
        logPayload := fun submission =>
          [("workflow_id", text workflow.workflowId), ("job_name", text submission.jobName)] }

def createRunRecord (request : RunCreateRequest) (workflow : WorkflowRegistryEntry)
    (settings : Settings) (origin : Origin) (idempotencyKey : Option String)
    (surroundings : Surroundings) : Tx World Failure RunRecord :=
  createFrom idempotencyKey (acceptRun request workflow settings origin idempotencyKey surroundings)
    surroundings

/-! ## What a creation leaves behind -/

section Spec

variable {registry : WorkflowRegistry} {settings : Settings} {lineage : Lineage} {origin : Origin}
  {key : Option String} {surroundings : Surroundings} {creation : Accepted} {world : World}
  {accepted : Except Failure Accepted} {run : RunRecord} {runId : String}

theorem acceptGeneric_ok {request : GenericExperimentRunRequest}
    (h : acceptGeneric registry settings request lineage key surroundings = .ok creation) :
    ∃ workflow configPayload, registry.getWorkflow request.workloadId = some workflow ∧
      resolveConfigPayload surroundings workflow request.configPayload = .ok configPayload ∧
      creation.record = genericRecord request lineage key surroundings workflow
        (genericManifest request workflow settings surroundings configPayload) := by
  obtain ⟨workflow, hWorkflow, h⟩ := of_bind h
  obtain ⟨-, h⟩ := of_check h
  obtain ⟨-, -, h⟩ := of_bind h
  obtain ⟨-, h⟩ := of_check h
  obtain ⟨-, h⟩ := of_check h
  obtain ⟨configPayload, hConfig, h⟩ := of_bind h
  obtain ⟨-, -, h⟩ := of_bind h
  obtain ⟨-, -, h⟩ := of_bind h
  obtain rfl := ok.inj h
  exact ⟨workflow, configPayload, elim_eq_ok_iff.mp hWorkflow, hConfig, rfl⟩

variable {workflow : WorkflowRegistryEntry} {request : RunCreateRequest}

theorem acceptRun_ok
    (h : acceptRun request workflow settings origin key surroundings = .ok creation) :
    validateRunRequest request workflow = [] ∧
      creation.record = workflowRecord request workflow settings origin key surroundings := by
  obtain ⟨hIssues, h⟩ := of_check h
  obtain ⟨-, -, h⟩ := of_bind h
  obtain rfl := ok.inj h
  exact ⟨not_not.mp hIssues, rfl⟩

theorem exists_acceptRun_iff :
    (∃ creation, acceptRun request workflow settings origin key surroundings = .ok creation) ↔
      validateRunRequest request workflow = [] ∧
    (surroundings.preflight workflow).ready = true := by
  unfold acceptRun checkPreflight
  by_cases hIssues : validateRunRequest request workflow = []
  · by_cases hReady : (surroundings.preflight workflow).ready = true
    · simp [hIssues, hReady, bind, Except.bind]
    · simp [hIssues, hReady, bind, Except.bind]
  · simp [hIssues]

def Submitted (record run : RunRecord) : Prop :=
  ∃ submission updatedAt,
    run = { record with jobSubmission := submission, updatedAt := updatedAt }

theorem submitted_refl (record : RunRecord) : Submitted record record :=
  ⟨record.jobSubmission, record.updatedAt, rfl⟩

theorem getRun_persistAndSubmit
    (h : (persistAndSubmit surroundings creation world).2.store.getRun runId = some run) :
    world.store.getRun runId = some run ∨
      runId = creation.record.runId ∧ Submitted creation.record run := by
  -- Either save puts the record, without its receipt or with it, under its own id.
  have hPut {store : RunStore} {record : RunRecord} (hId : record.runId = creation.record.runId)
      (hRecord : Submitted creation.record record)
      (hStore : (store.putRun record).getRun runId = some run) :
      store.getRun runId = some run ∨
        runId = creation.record.runId ∧ Submitted creation.record run := by
    rw [RunStore.getRun_putRun] at hStore
    split at hStore
    next hSame =>
      obtain rfl := Option.some.inj hStore
      exact .inr ⟨hSame.trans hId, hRecord⟩
    · exact .inl hStore
  have hFirst := @hPut world.store _ rfl (submitted_refl creation.record)
  unfold persistAndSubmit at h
  dsimp only at h
  cases hSave : world.store.saveRun creation.record with
  | error clash =>
    rw [hSave] at h
    dsimp only at h
    split at h
    · exact .inl h
    · exact .inl h
  | ok store =>
    obtain ⟨-, rfl⟩ := RunStore.saveRun_eq_ok_iff.mp hSave
    rw [hSave] at h
    cases hSubmit : surroundings.submitRun creation.record.manifest with
    | jobSubmissionError statusCode detail =>
      rw [hSubmit] at h
      exact hFirst h
    | raised message created =>
      rw [hSubmit] at h
      exact hFirst h
    | accepted submission =>
      rw [hSubmit] at h
      dsimp only at h
      split at h
      · exact hFirst h
      next store hAgain =>
        obtain ⟨-, rfl⟩ := RunStore.saveRun_eq_ok_iff.mp hAgain
        unfold RunStore.getRun at h
        rw [RunStore.runs_appendLog, RunStore.runs_saveArtifacts,
          RunStore.runs_touchResearchSession] at h
        generalize hUpdated : RunRecord.mk _ _ _ _ _ _ _ _ _ _ _ _ _ _ _ _ _ _ _ _ _ _ = updated
          at h
        have hSubmitted : Submitted creation.record updated := ⟨_, _, hUpdated.symm⟩
        have hId : updated.runId = creation.record.runId := hUpdated ▸ rfl
        rcases hPut hId hSubmitted h with hOld | hNew
        · exact hFirst hOld
        · exact .inr hNew

/-- A creation that submits a new record stores it, and no other run changes. -/
theorem getRun_of_persistAndSubmit {world' : World} {key : String}
    (hKey : creation.record.idempotencyKey = some key)
    (hFree : world.store.getRunByIdempotencyKey key = none)
    (h : persistAndSubmit surroundings creation world = (.ok run, world')) :
    Submitted creation.record run ∧ ∀ runId, world'.store.getRun runId =
      if runId = run.runId then some run else world.store.getRun runId := by
  unfold persistAndSubmit at h
  dsimp only at h
  cases hSave : world.store.saveRun creation.record with
  | error clash =>
    rw [hSave, hKey, Option.bind_some, hFree] at h
    cases h
  | ok store =>
    obtain ⟨-, rfl⟩ := RunStore.saveRun_eq_ok_iff.mp hSave
    rw [hSave] at h
    dsimp only at h
    cases hSubmit : surroundings.submitRun creation.record.manifest with
    | jobSubmissionError statusCode detail =>
      rw [hSubmit] at h
      cases h
    | raised message created =>
      rw [hSubmit] at h
      cases h
    | accepted submission =>
      rw [hSubmit] at h
      dsimp only at h
      split at h
      · cases h
      next store hAgain =>
        obtain ⟨-, rfl⟩ := RunStore.saveRun_eq_ok_iff.mp hAgain
        obtain ⟨hRun, rfl⟩ := Prod.mk.inj h
        obtain rfl := Except.ok.inj hRun
        refine ⟨⟨_, _, rfl⟩, fun runId => ?_⟩
        unfold RunStore.getRun
        rw [RunStore.runs_appendLog, RunStore.runs_saveArtifacts,
          RunStore.runs_touchResearchSession]
        show ((world.store.putRun creation.record).putRun _).getRun runId = _
        rw [RunStore.getRun_putRun, RunStore.getRun_putRun]
        split
        · rfl
        · rfl

/-- A creation returns the record under its key, fails its checks, or goes on. -/
theorem createFrom_cases (key : Option String) (accepted : Except Failure Accepted)
    (surroundings : Surroundings) (world : World) :
    (∃ k existing, key = some k ∧ world.store.getRunByIdempotencyKey k = some existing ∧
      createFrom key accepted surroundings world = (.ok existing, world)) ∨
      (∃ failure, accepted = .error failure ∧
        createFrom key accepted surroundings world = (.error failure, world)) ∨
      ∃ creation, accepted = .ok creation ∧
        createFrom key accepted surroundings world =
    persistAndSubmit surroundings creation world := by
  unfold createFrom orExisting
  cases key with
  | none =>
    right
    cases accepted with
    | error failure => exact .inl ⟨failure, rfl, rfl⟩
    | ok creation => exact .inr ⟨creation, rfl, rfl⟩
  | some k =>
    by_cases hKey : truthy (some k) = true
    · rw [if_pos hKey]
      cases hFound : world.store.getRunByIdempotencyKey k with
      | some existing => exact .inl ⟨k, existing, rfl, hFound, by simp [hFound]⟩
      | none =>
        right
        rw [show (some k).bind world.store.getRunByIdempotencyKey = none from hFound]
        cases accepted with
        | error failure => exact .inl ⟨failure, rfl, rfl⟩
        | ok creation => exact .inr ⟨creation, rfl, rfl⟩
    · rw [if_neg hKey]
      right
      cases accepted with
      | error failure => exact .inl ⟨failure, rfl, rfl⟩
      | ok creation => exact .inr ⟨creation, rfl, rfl⟩

variable {k : String}

theorem createFrom_of_taken {existing : RunRecord} (hKey : k ≠ "")
    (h : world.store.getRunByIdempotencyKey k = some existing) :
    createFrom (some k) accepted surroundings world = (.ok existing, world) := by
  simp [createFrom, orExisting, truthy, hKey, h]

theorem createFrom_of_refused {failure : Failure}
    (h : world.store.getRunByIdempotencyKey k = none) :
    createFrom (some k) (.error failure) surroundings world = (.error failure, world) := by
  rcases createFrom_cases (some k) (.error failure) surroundings world with
    ⟨k', existing, hk, hFound, -⟩ | ⟨failure', hSame, hAnswer⟩ | ⟨creation, hSame, -⟩
  · obtain rfl := Option.some.inj hk
    rw [h] at hFound
    cases hFound
  · rw [hAnswer, error.inj hSame]
  · cases hSame

theorem createFrom_of_accepted (h : world.store.getRunByIdempotencyKey k = none) :
    createFrom (some k) (.ok creation) surroundings world =
      persistAndSubmit surroundings creation world := by
  rcases createFrom_cases (some k) (.ok creation) surroundings world with
    ⟨k', existing, hk, hFound, -⟩ | ⟨failure, hSame, -⟩ | ⟨creation', hSame, hAnswer⟩
  · obtain rfl := Option.some.inj hk
    rw [h] at hFound
    cases hFound
  · cases hSame
  · rw [hAnswer, ok.inj hSame]

theorem getRun_createFrom
    (h : (createFrom key accepted surroundings world).2.store.getRun runId = some run) :
    world.store.getRun runId = some run ∨
      ∃ creation, accepted = .ok creation ∧ runId = creation.record.runId ∧
        Submitted creation.record run := by
  rcases createFrom_cases key accepted surroundings world with
    ⟨k, existing, -, -, hSame⟩ | ⟨failure, -, hSame⟩ | ⟨creation, hAccepted, hSame⟩
  · rw [hSame] at h
    exact .inl h
  · rw [hSame] at h
    exact .inl h
  · rw [hSame] at h
    exact (getRun_persistAndSubmit h).imp_right fun h => ⟨creation, hAccepted, h⟩

theorem persistAndSubmit_ok (h : (persistAndSubmit surroundings creation world).1 = .ok run) :
    (∃ k, creation.record.idempotencyKey = some k ∧
      world.store.getRunByIdempotencyKey k = some run) ∨ Submitted creation.record run := by
  unfold persistAndSubmit at h
  dsimp only at h
  cases hSave : world.store.saveRun creation.record with
  | error clash =>
    rw [hSave] at h
    cases hFound : creation.record.idempotencyKey.bind world.store.getRunByIdempotencyKey with
    | none =>
      rw [hFound] at h
      cases h
    | some existing =>
      rw [hFound] at h
      obtain rfl := ok.inj h
      obtain ⟨k, hKey, hExisting⟩ := Option.bind_eq_some_iff.mp hFound
      exact .inl ⟨k, hKey, hExisting⟩
  | ok store =>
    rw [hSave] at h
    cases hSubmit : surroundings.submitRun creation.record.manifest with
    | jobSubmissionError statusCode detail =>
      rw [hSubmit] at h
      cases h
    | raised message created =>
      rw [hSubmit] at h
      cases h
    | accepted submission =>
      rw [hSubmit] at h
      dsimp only at h
      split at h
      · cases h
      · obtain rfl := ok.inj h
        exact .inr ⟨_, _, rfl⟩

theorem createFrom_ok (h : (createFrom key accepted surroundings world).1 = .ok run) :
    (∃ k, key = some k ∧ world.store.getRunByIdempotencyKey k = some run) ∨
      ∃ creation, accepted = .ok creation ∧
        ((∃ k, creation.record.idempotencyKey = some k ∧
          world.store.getRunByIdempotencyKey k = some run) ∨ Submitted creation.record run) := by
  rcases createFrom_cases key accepted surroundings world with
    ⟨k, existing, hKey, hFound, hSame⟩ | ⟨failure, -, hSame⟩ | ⟨creation, hAccepted, hSame⟩
  · rw [hSame] at h
    obtain rfl := ok.inj h
    exact .inl ⟨k, hKey, hFound⟩
  · rw [hSame] at h
    cases h
  · rw [hSame] at h
    exact .inr ⟨creation, hAccepted, persistAndSubmit_ok h⟩

variable {I : List (String × RunRecord) → Prop}

theorem runs_persistAndSubmit
    (hSave : ∀ (store : RunStore) run, store.conflicts run = false → I store.runs →
      I (Dict.set run.runId run store.runs)) (h : I world.store.runs) :
    I (persistAndSubmit surroundings creation world).2.store.runs := by
  unfold persistAndSubmit
  dsimp only
  cases hSaved : world.store.saveRun creation.record with
  | error clash =>
    dsimp only
    split
    · exact h
    · exact h
  | ok store =>
    obtain ⟨hFree, rfl⟩ := RunStore.saveRun_eq_ok_iff.mp hSaved
    have hFirst := hSave world.store creation.record hFree h
    dsimp only
    split
    · exact hFirst
    · exact hFirst
    · split
      · exact hFirst
      next store hAgain =>
        obtain ⟨hFree', rfl⟩ := RunStore.saveRun_eq_ok_iff.mp hAgain
        rw [RunStore.runs_appendLog, RunStore.runs_saveArtifacts,
          RunStore.runs_touchResearchSession]
        exact hSave _ _ hFree' hFirst

theorem runs_createFrom
    (hSave : ∀ (store : RunStore) run, store.conflicts run = false → I store.runs →
      I (Dict.set run.runId run store.runs)) (h : I world.store.runs) :
    I (createFrom key accepted surroundings world).2.store.runs := by
  rcases createFrom_cases key accepted surroundings world with
    ⟨k, existing, -, -, hSame⟩ | ⟨failure, -, hSame⟩ | ⟨creation, -, hSame⟩
  · rw [hSame]
    exact h
  · rw [hSame]
    exact h
  · rw [hSame]
    exact runs_persistAndSubmit hSave h

end Spec

end Glasslab.WorkflowApi
