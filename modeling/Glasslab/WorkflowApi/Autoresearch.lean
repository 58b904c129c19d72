import Glasslab.Foundation.KeyedTable
import Glasslab.WorkflowApi.Claims
import Glasslab.WorkflowApi.RunRoutes

/-!
# Autoresearch campaigns: scores and decisions

`app/autoresearch.py` and `app/autoresearch_routes.py`: the records of a campaign, the summary of a
run under an evaluator contract, the comparison with a baseline, and `decide_campaign_iteration`,
which keeps, discards or escalates an iteration. The store here has the campaign's tables beside the
runs; what the status and the metrics file of a run look like is a `Sight`.
-/

namespace Glasslab.WorkflowApi

open Foundation

/-- A value that passes `isinstance(value, (int, float))`, which a boolean does too. -/
def metricNumber : Value → Option (Option Float64)
  | .scalar (.bool b) => some (some (.finite (if b then 1 else 0)))
  | value => numeric value

/-- `float(value)` of such a value. -/
def toFloat (number : Option Float64) : Except Failure Float64 :=
  number.elim (.error (.raised "int too large to convert to float")) .ok

/-! ## Records -/

inductive RunReadiness where
  | ready
  | needsReview
  | blocked
  deriving DecidableEq, Repr

structure MethodSpecRecord where
  taskType : Option String := none
  candidateModels : List String := []
  baselineModels : List String := []
  metrics : List String := []
  lossOrDistance : Option String := none
  executionInputs : Entries := []
  evaluatorContract : Option EvaluatorContract := none
  runReadiness : RunReadiness := .needsReview
  blockingReasons : List String := []
  deriving DecidableEq

inductive MethodologyStatus where
  | seed
  | readyForExecution
  | launched
  | kept
  | discarded
  | needsReview
  deriving DecidableEq, Repr

structure MethodologyDraftRecord where
  methodologyDraftId : String
  campaignId : String
  sessionId : String
  sourceIntakeId : Option String := none
  sourceDesignId : Option String := none
  parentMethodologyDraftId : Option String := none
  createdAt : Instant
  updatedAt : Instant
  objective : String
  architectures : List String := []
  baselines : List String := []
  metrics : List String := []
  status : MethodologyStatus
  workflowId : String
  declaredInputs : Entries := []
  candidateModels : List String := []
  resourceProfile : String
  methodSpec : Option MethodSpecRecord := none
  deriving DecidableEq

inductive CampaignStatus where
  | created
  | drafted
  | active
  | needsReview
  | completed
  deriving DecidableEq, Repr

structure AutoresearchCampaignRecord where
  campaignId : String
  sessionId : String
  updatedAt : Instant
  status : CampaignStatus
  currentBestMethodologyDraftId : Option String := none
  latestIterationId : Option String := none
  latestDecisionId : Option String := none
  maxIterations : Nat := 3
  evaluatorContract : Option EvaluatorContract := none
  deriving DecidableEq

inductive DecisionType where
  | keep
  | discard
  | escalateForReview
  deriving DecidableEq, Repr

inductive IterationStatus where
  | launched
  | completed
  | decided
  | needsReview
  deriving DecidableEq, Repr

/-- One entry of `_evaluate_guardrails`. -/
structure GuardrailResult where
  metricName : String
  direction : String
  required : Bool
  minimum : Option Float64
  maximum : Option Float64
  value : Option Float64
  passed : Bool
  detail : String
  deriving DecidableEq

/-- What `summarize_iteration_run` returns. -/
structure IterationSummary where
  runStatus : RunState
  runDetail : Option String
  primaryMetricName : Option String
  primaryMetricValue : Option Float64
  primaryMetricSource : String
  primaryMetricDirection : Option String
  evaluatorType : Option String := none
  guardrails : List GuardrailResult := []
  metrics : Entries := []
  deriving DecidableEq

/-- What `build_iteration_comparison` returns. -/
structure IterationComparison where
  baselineAvailable : Bool
  metricName : Option String
  direction : Option String
  minimumEffect : Float64
  comparable : Bool := false
  detail : String
  baselineValue : Option Float64 := none
  candidateValue : Option Float64 := none
  delta : Option Float64 := none
  normalizedDelta : Option Float64 := none
  deriving DecidableEq

structure AutoresearchIterationRecord where
  iterationId : String
  campaignId : String
  parentMethodologyDraftId : Option String := none
  childMethodologyDraftId : String
  runId : String
  createdAt : Instant
  updatedAt : Instant
  status : IterationStatus
  scoreSummary : Option IterationSummary := none
  comparisonSummary : Option IterationComparison := none
  decision : Option DecisionType := none
  deriving DecidableEq

structure AutoresearchDecisionRecord where
  decisionId : String
  campaignId : String
  iterationId : String
  createdAt : Instant
  decisionType : DecisionType
  rationale : String
  evidenceRefs : List String
  deriving DecidableEq

structure AutoresearchStore where
  world : World := {}
  methodologyDrafts : KeyedTable MethodologyDraftRecord.methodologyDraftId := .empty
  campaigns : KeyedTable AutoresearchCampaignRecord.campaignId := .empty
  iterations : KeyedTable AutoresearchIterationRecord.iterationId := .empty
  decisions : KeyedTable AutoresearchDecisionRecord.decisionId := .empty
  deriving DecidableEq

namespace AutoresearchStore

def getRun (store : AutoresearchStore) (runId : String) : Option RunRecord :=
  store.world.store.getRun runId

def getMethodologyDraft (store : AutoresearchStore) (methodologyDraftId : String) :
    Option MethodologyDraftRecord :=
  store.methodologyDrafts.find methodologyDraftId

def getCampaign (store : AutoresearchStore) (campaignId : String) :
    Option AutoresearchCampaignRecord :=
  store.campaigns.find campaignId

def getIteration (store : AutoresearchStore) (iterationId : String) :
    Option AutoresearchIterationRecord :=
  store.iterations.find iterationId

def listMethodologyDrafts (store : AutoresearchStore) (campaignId : String) :
    List MethodologyDraftRecord :=
  sortOn MethodologyDraftRecord.createdAt <|
    store.methodologyDrafts.rows.filter fun record => record.campaignId = campaignId

def listIterations (store : AutoresearchStore) (campaignId : String) :
    List AutoresearchIterationRecord :=
  sortOn AutoresearchIterationRecord.createdAt <|
    store.iterations.rows.filter fun record => record.campaignId = campaignId

def listDecisions (store : AutoresearchStore) (campaignId : String) :
    List AutoresearchDecisionRecord :=
  sortOn AutoresearchDecisionRecord.createdAt <|
    store.decisions.rows.filter fun record => record.campaignId = campaignId

def saveMethodologyDraft (store : AutoresearchStore) (record : MethodologyDraftRecord) :
    AutoresearchStore :=
  { store with methodologyDrafts := store.methodologyDrafts.put record }

def saveCampaign (store : AutoresearchStore) (record : AutoresearchCampaignRecord) :
    AutoresearchStore :=
  { store with campaigns := store.campaigns.put record }

def saveIteration (store : AutoresearchStore) (record : AutoresearchIterationRecord) :
    AutoresearchStore :=
  { store with iterations := store.iterations.put record }

def saveDecision (store : AutoresearchStore) (record : AutoresearchDecisionRecord) :
    AutoresearchStore :=
  { store with decisions := store.decisions.put record }

end AutoresearchStore

/-! ## The score of a run -/

/-- What is found where the metrics file of a run is read. -/
inductive MetricsFile where
  | absent
  /-- The text is no JSON. -/
  | undecodable
  /-- The file cannot be read, or is no text. -/
  | raised (message : String)
  | json (value : Value)
  deriving DecidableEq

/-- What a request finds of the runs outside the store, and how a float is written. -/
structure Sight where
  clock : Clock
  directory : String → RunDirectory
  live : String → LiveAnswer
  metricsFile : String → MetricsFile
  repr : Float64 → String

def loadMetricsPayload : MetricsFile → Except Failure Entries
  | .absent | .undecodable => .ok []
  | .raised message => .error (.raised message)
  | .json (.map payload) => .ok payload
  | .json _ => .ok []

def resolveEvaluatorContract (methodology : Option MethodologyDraftRecord)
    (campaign : AutoresearchCampaignRecord) : Option EvaluatorContract :=
  ((methodology.bind MethodologyDraftRecord.methodSpec).bind
    MethodSpecRecord.evaluatorContract).or campaign.evaluatorContract

structure PrimaryMetric where
  name : Option String
  value : Option Float64
  source : String
  deriving DecidableEq

/-- `metrics.get(key)`, if it is a number. -/
def getNumber (metrics : Entries) (key : String) : Option (Option Float64) :=
  (metrics.lookup key).bind metricNumber

def preferredMetrics : List String := ["accuracy", "f1", "roc_auc", "precision", "recall"]

/-- `_extract_primary_metric` under a contract that names a metric. -/
def extractContractMetric (metrics : Entries) (name : String) : Except Failure PrimaryMetric :=
  match getNumber metrics name with
  | some number => do
    .ok ⟨some name, some (← toFloat number), "evaluator_contract"⟩
  | none =>
    match metrics.lookup "metric_name", getNumber metrics "best_metric" with
    | some (.scalar (.str metricName)), some number =>
      if metricName = name then do
        .ok ⟨some name, some (← toFloat number), "evaluator_contract"⟩
      else .ok ⟨some name, none, "evaluator_contract"⟩
    | _, _ => .ok ⟨some name, none, "evaluator_contract"⟩

def firstNumber (metrics : Entries) : Except Failure PrimaryMetric := do
  let numericItems ← (metrics.filterMap fun (key, value) =>
    (metricNumber value).map fun number => (key, number)).mapM fun (key, number) => do
      .ok (key, ← toFloat number)
  match sortOn Prod.fst numericItems with
  | [] => .ok ⟨none, none, "unavailable"⟩
  | (name, value) :: _ => .ok ⟨some name, some value, "legacy_inferred"⟩

/-- `_extract_primary_metric` without such a contract. -/
def extractLegacyMetric (metrics : Entries) : Except Failure PrimaryMetric :=
  match metrics.lookup "metric_name", getNumber metrics "best_metric" with
  | some (.scalar (.str name)), some number => do
    .ok ⟨some name, some (← toFloat number), "legacy_payload"⟩
  | _, _ =>
    match preferredMetrics.findSome? fun key =>
        (getNumber metrics key).map fun number => (key, number) with
    | some (key, number) => do .ok ⟨some key, some (← toFloat number), "legacy_inferred"⟩
    | none => firstNumber metrics

def extractPrimaryMetric (metrics : Entries) (contract : Option EvaluatorContract) :
    Except Failure PrimaryMetric :=
  match contract.bind EvaluatorContract.primaryMetric with
  | some primary => extractContractMetric metrics primary.name
  | none => extractLegacyMetric metrics

/-- One pass of `_evaluate_guardrails`. A value above the maximum overwrites the detail of one below
the minimum. -/
def evaluateGuardrail (repr : Float64 → String) (metrics : Entries)
    (guardrail : GuardrailMetricContract) : Except Failure GuardrailResult :=
  let result (value : Option Float64) (passed : Bool) (detail : String) : GuardrailResult :=
    ⟨guardrail.name, guardrail.direction, guardrail.required, guardrail.minimum,
      guardrail.maximum, value, passed, detail⟩
  match getNumber metrics guardrail.name with
  | none =>
    .ok (result none (!guardrail.required)
      (if guardrail.required then "required guardrail metric missing"
        else "optional guardrail metric missing"))
  | some number => do
    let value ← toFloat number
    if isAbove guardrail.maximum value then
      .ok (result (some value) false
        ("value is above maximum " ++ guardrail.maximum.elim "" repr))
    else if isBelow guardrail.minimum value then
      .ok (result (some value) false
        ("value is below minimum " ++ guardrail.minimum.elim "" repr))
    else .ok (result (some value) true "guardrail satisfied")

def evaluateGuardrails (repr : Float64 → String) (metrics : Entries) :
    Option EvaluatorContract → Except Failure (List GuardrailResult)
  | none => .ok []
  | some contract => contract.guardrails.mapM (evaluateGuardrail repr metrics)

def summarizeIterationRun (sight : Sight) (record : RunRecord)
    (contract : Option EvaluatorContract) : Except Failure IterationSummary := do
  let resolved ← resolveRunStatus sight.clock (sight.directory record.runId)
    (sight.live record.runId) record
  let metrics ← loadMetricsPayload (sight.metricsFile record.runId)
  let primary ← extractPrimaryMetric metrics contract
  let guardrails ← evaluateGuardrails sight.repr metrics contract
  .ok
    { runStatus := resolved.status
      runDetail := resolved.detail
      primaryMetricName := primary.name
      primaryMetricValue := primary.value
      primaryMetricSource := primary.source
      primaryMetricDirection :=
        (contract.bind EvaluatorContract.primaryMetric).map PrimaryMetricContract.direction
      evaluatorType := contract.map EvaluatorContract.evaluatorType
      guardrails := guardrails
      metrics := metrics }

def buildIterationComparison (child : IterationSummary) (parent : Option IterationSummary)
    (contract : Option EvaluatorContract) : IterationComparison :=
  let primaryMetric := contract.bind EvaluatorContract.primaryMetric
  let direction :=
    (primaryMetric.map PrimaryMetricContract.direction).or child.primaryMetricDirection
  let minimumEffect := primaryMetric.elim (.finite 0) PrimaryMetricContract.minimumEffect
  let incomparable (detail : String) : IterationComparison :=
    { baselineAvailable := parent.isSome
      metricName := child.primaryMetricName
      direction := direction
      minimumEffect := minimumEffect
      detail := detail }
  match parent with
  | none => incomparable "no prior scored baseline is available"
  | some parent =>
    if child.primaryMetricName ≠ parent.primaryMetricName then
      incomparable "metric mismatch prevents automatic comparison"
    else
      match child.primaryMetricValue, parent.primaryMetricValue with
      | some childValue, some parentValue =>
        let rawDelta := childValue.sub parentValue
        let normalizedDelta := if direction ≠ some "minimize" then rawDelta else rawDelta.neg
        { incomparable "numeric comparison computed" with
          comparable := true
          baselineValue := some parentValue
          candidateValue := some childValue
          delta := some rawDelta.round6
          normalizedDelta := some normalizedDelta.round6 }
      | _, _ => incomparable "numeric metrics unavailable for automatic comparison"

def failedGuardrails (child : IterationSummary) : List GuardrailResult :=
  child.guardrails.filter fun guardrail => !guardrail.passed

/-- `comparison_summary.get('minimum_effect') or` the minimum effect of the primary metric. -/
def effectiveMinimum (comparison : IterationComparison) (primary : PrimaryMetricContract) :
    Float64 :=
  if comparison.minimumEffect ≠ .finite 0 then comparison.minimumEffect
  else primary.minimumEffect

/-- The end of `build_decision`, once the contract and the guardrails are settled. -/
def decideByMetric (child : IterationSummary) (comparison : IterationComparison)
    (primary : PrimaryMetricContract) : DecisionType × String :=
  let direction :=
    if truthy comparison.direction then comparison.direction.getD "" else primary.direction
  let minimumEffect := effectiveMinimum comparison primary
  match comparison.normalizedDelta, truthy comparison.metricName with
  | some delta, true =>
    let metricName := comparison.metricName.getD ""
    if minimumEffect.le delta then
      (.keep, "Candidate improved " ++ metricName ++ " by " ++ delta.fixed4 ++
        " over the baseline under the " ++ direction ++ " contract.")
    else if delta.le minimumEffect.neg then
      (.discard, "Candidate regressed " ++ metricName ++ " by " ++ delta.abs.fixed4 ++
        " relative to the baseline under the " ++ direction ++ " contract.")
    else
      (.escalateForReview, "Candidate changed " ++ metricName ++ " by " ++ delta.fixed4 ++
        "; minimum effect is " ++ minimumEffect.fixed4 ++ ".")
  | _, _ =>
    if child.runStatus = .succeeded ∧ child.primaryMetricValue.isSome then
      (.keep, "Candidate produced the first successful bounded run under the approved " ++
        "evaluator contract.")
    else (.escalateForReview, "Insufficient evidence for an automatic keep/discard decision.")

def buildDecision (child : IterationSummary) (comparison : IterationComparison)
    (contract : Option EvaluatorContract) : DecisionType × String :=
  if child.runStatus ∈ [RunState.failed, .rejected] then
    (.discard, "Run ended in terminal failure state: " ++ child.runStatus.text ++ ".")
  else
    match contract.bind EvaluatorContract.primaryMetric with
    | none =>
      (.escalateForReview,
        "Automatic scientific decisions require an approved evaluator contract " ++
        "with a primary metric.")
    | some primary =>
      if failedGuardrails child ≠ [] then
        (.escalateForReview, "Candidate violates evaluator guardrail(s): " ++
          ", ".intercalate (((failedGuardrails child).take 3).map GuardrailResult.metricName) ++
            ".")
      else decideByMetric child comparison primary

/-! ## Deciding an iteration -/

def existingDecision (store : AutoresearchStore) (campaign : AutoresearchCampaignRecord)
    (iteration : AutoresearchIterationRecord) : Option AutoresearchDecisionRecord :=
  (store.listDecisions campaign.campaignId).find? fun record =>
    record.iterationId = iteration.iterationId

def IterationSummary.actionable (summary : IterationSummary) : Bool :=
  summary.runStatus = .succeeded ∧ summary.primaryMetricValue.isSome

def staleEscalation (existing : AutoresearchDecisionRecord) (child : IterationSummary) : Bool :=
  existing.decisionType = .escalateForReview ∧ child.actionable

def reusableDecision (store : AutoresearchStore) (campaign : AutoresearchCampaignRecord)
    (iteration : AutoresearchIterationRecord) (child : IterationSummary) :
    Option AutoresearchDecisionRecord :=
  if iteration.decision = none then none
  else (existingDecision store campaign iteration).filter fun existing =>
    !staleEscalation existing child

/-- The latest other iteration that is kept, in the order of creation. -/
def baselineIteration (store : AutoresearchStore) (campaign : AutoresearchCampaignRecord)
    (iteration : AutoresearchIterationRecord) : Option AutoresearchIterationRecord :=
  ((store.listIterations campaign.campaignId).filter fun record =>
    record.iterationId ≠ iteration.iterationId).reverse.find? fun prior =>
      prior.decision = some .keep

def baselineSummary (sight : Sight) (store : AutoresearchStore)
    (campaign : AutoresearchCampaignRecord) (iteration : AutoresearchIterationRecord)
    (contract : Option EvaluatorContract) : Except Failure (Option IterationSummary) :=
  match baselineIteration store campaign iteration with
  | none => .ok none
  | some baseline =>
    match store.getRun baseline.runId with
    | none => .ok none
    | some run =>
      let draft := store.getMethodologyDraft baseline.childMethodologyDraftId
      (summarizeIterationRun sight run
        ((resolveEvaluatorContract draft campaign).or contract)).map some

def childStatus : DecisionType → MethodologyStatus
  | .keep => .kept
  | .discard => .discarded
  | .escalateForReview => .needsReview

/-- What a fresh decision writes. -/
structure Verdict where
  decision : AutoresearchDecisionRecord
  iteration : AutoresearchIterationRecord
  campaign : AutoresearchCampaignRecord
  deriving DecidableEq

def verdict (now : Instant) (decisionId : String) (campaign : AutoresearchCampaignRecord)
    (iteration : AutoresearchIterationRecord) (child : IterationSummary)
    (comparison : IterationComparison) (contract : Option EvaluatorContract) : Verdict :=
  let outcome := buildDecision child comparison contract
  { decision :=
      { decisionId := decisionId
        campaignId := campaign.campaignId
        iterationId := iteration.iterationId
        createdAt := now
        decisionType := outcome.1
        rationale := outcome.2
        evidenceRefs :=
          ["run:" ++ iteration.runId, "methodology:" ++ iteration.childMethodologyDraftId] }
    iteration :=
      { iteration with
        updatedAt := now
        status := .decided
        scoreSummary := some child
        comparisonSummary := some comparison
        decision := some outcome.1 }
    campaign :=
      { campaign with
        updatedAt := now
        latestDecisionId := some decisionId
        latestIterationId := some iteration.iterationId
        status := if outcome.1 ∈ [DecisionType.keep, .discard] then .completed else .needsReview
        currentBestMethodologyDraftId :=
          if outcome.1 = .keep then some iteration.childMethodologyDraftId
          else campaign.currentBestMethodologyDraftId } }

/-- The writes of a fresh decision, in their order. -/
def AutoresearchStore.record (store : AutoresearchStore) (verdict : Verdict) (now : Instant) :
    Option MethodologyDraftRecord → AutoresearchStore
  | none => ((store.saveDecision verdict.decision).saveIteration verdict.iteration).saveCampaign
      verdict.campaign
  | some childDraft =>
    (((store.saveDecision verdict.decision).saveIteration verdict.iteration).saveMethodologyDraft
      { childDraft with
        updatedAt := now
        status := childStatus verdict.decision.decisionType }).saveCampaign verdict.campaign

section Record

variable {store : AutoresearchStore} {written : Verdict} {now : Instant}
  {draft : Option MethodologyDraftRecord}

@[simp] theorem AutoresearchStore.world_record :
    (store.record written now draft).world = store.world := by
  cases draft <;> rfl

@[simp] theorem AutoresearchStore.iterations_record :
    (store.record written now draft).iterations = store.iterations.put written.iteration := by
  cases draft <;> rfl

@[simp] theorem AutoresearchStore.decisions_record :
    (store.record written now draft).decisions = store.decisions.put written.decision := by
  cases draft <;> rfl

@[simp] theorem AutoresearchStore.campaigns_record :
    (store.record written now draft).campaigns = store.campaigns.put written.campaign := by
  cases draft <;> rfl

theorem AutoresearchStore.methodSpec_record {draftId : String} :
    ((store.record written now (store.getMethodologyDraft draftId)).getMethodologyDraft
        draftId).bind MethodologyDraftRecord.methodSpec =
      (store.getMethodologyDraft draftId).bind MethodologyDraftRecord.methodSpec := by
  cases hDraft : store.getMethodologyDraft draftId with
  | none => exact congrArg (·.bind MethodologyDraftRecord.methodSpec) hDraft
  | some draft =>
    have hId : draftId = draft.methodologyDraftId := (KeyedTable.find_eq_some_iff.mp hDraft).2.symm
    show ((store.methodologyDrafts.put _).find draftId).bind MethodologyDraftRecord.methodSpec = _
    rw [KeyedTable.find_put, if_pos hId]
    rfl

end Record

def reopened (now : Instant) (iteration : AutoresearchIterationRecord) :
    AutoresearchIterationRecord :=
  { iteration with decision := none, status := .completed, updatedAt := now }

/-- `decide_campaign_iteration` once no recorded decision is reused. -/
def decideAfresh (sight : Sight) (now : Instant) (decisionId : String)
    (campaign : AutoresearchCampaignRecord) (iteration : AutoresearchIterationRecord)
    (child : IterationSummary) :
    Tx AutoresearchStore Failure
      (AutoresearchCampaignRecord × AutoresearchIterationRecord × AutoresearchDecisionRecord) := do
  let store ← Tx.get
  let childDraft := store.getMethodologyDraft iteration.childMethodologyDraftId
  let contract := resolveEvaluatorContract childDraft campaign
  let parent ← Tx.ofExcept (baselineSummary sight store campaign iteration contract)
  let comparison := buildIterationComparison child parent contract
  let verdict := verdict now decisionId campaign iteration child comparison contract
  Tx.modify fun store => store.record verdict now childDraft
  pure (verdict.campaign, verdict.iteration, verdict.decision)

def decideCampaignIteration (sight : Sight) (now : Instant) (decisionId : String)
    (campaign : AutoresearchCampaignRecord) (iterationId : String) :
    Tx AutoresearchStore Failure
      (AutoresearchCampaignRecord × AutoresearchIterationRecord × AutoresearchDecisionRecord) := do
  let store ← Tx.get
  let iteration ← Tx.ofExcept <|
    (store.getIteration iterationId).elim (.error (notFound "autoresearch iteration not found")) .ok
  let childRun ← Tx.ofExcept <|
    (store.getRun iteration.runId).elim (.error (notFound "run not found for iteration")) .ok
  let contract := resolveEvaluatorContract
    (store.getMethodologyDraft iteration.childMethodologyDraftId) campaign
  let child ← Tx.ofExcept (summarizeIterationRun sight childRun contract)
  match reusableDecision store campaign iteration child with
  | some existing => pure (campaign, iteration, existing)
  | none =>
    if iteration.decision = none then
      decideAfresh sight now decisionId campaign iteration child
    else do
      Tx.modify fun store => store.saveIteration (reopened now iteration)
      decideAfresh sight now decisionId campaign (reopened now iteration) child

end Glasslab.WorkflowApi
