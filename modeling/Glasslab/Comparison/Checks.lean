import Mathlib.Data.Prod.Lex
import Glasslab.Schemas
import Glasslab.Methodology.Requirements

/-!
# Checks of a comparison across jobs

`app/comparison_checks.py`: which jobs are compared, which of their evaluations pass, and whether
they can be compared at all. The records here have the fields that a comparison reads. A mapping of
jobs by their id is a function of the id, and a set is a finite set.
-/

namespace Glasslab.Comparison

open Foundation Methodology

structure ContractBinding where
  contractId : String
  version : String
  digest : String
  deriving DecidableEq, Repr

structure RunRecord where
  runId : String
  contract : ContractBinding

structure ExpandedJobSpec where
  orchestratorJobId : String
  actionId : String
  variantName : String
  seed : Int
  baseConfig : String
  overrides : Config
  contract : ContractBinding
  deriving DecidableEq

structure JobRecord where
  jobId : String
  actionId : String
  status : JobStatus
  contract : ContractBinding
  variantName : String
  seed : Int
  spec : ExpandedJobSpec
  createdAt : Instant
  deriving DecidableEq

structure ArtifactRecord where
  jobId : Option String
  uri : String
  sha256 : String
  /-- `metadata['path']`, which a reader tries first. -/
  path : Option String := none
  deriving DecidableEq, Repr

/-- A parsed `evaluation.json`. -/
abbrev Evaluation := Document.Entries Scalar

abbrev ArtifactReader := ArtifactRecord → Option Evaluation

def isNull (value : ConfigValue) : Bool := value = .scalar .null

/-- `evaluation.get(key)`. -/
def get (evaluation : Evaluation) (key : String) : ConfigValue :=
  (evaluation.lookup key).getD (.scalar .null)

def latestSubmissionJobs (jobs : List JobRecord) : List JobRecord :=
  match jobs.argmax fun job => toLex (job.createdAt, job.jobId) with
  | none => []
  | some latest =>
    sortOn JobRecord.jobId (jobs.filter fun job => job.actionId = latest.actionId)

def evaluationFilename : List Char := "evaluation.json".toList

/-- The entry of a job in `evaluation_artifacts_by_job`. -/
def evaluationArtifacts (artifacts : List ArtifactRecord) (jobId : String) : List ArtifactRecord :=
  sortOn (fun artifact => toLex (artifact.uri, artifact.sha256)) <|
    artifacts.filter fun artifact =>
      artifact.jobId = some jobId ∧ pathName artifact.uri = evaluationFilename

def isTrue (value : ConfigValue) : Bool := value = .scalar (.bool true)

def checkPassKeys : List String := ["passed", "pass", "ok", "success"]

def checkPassed : ConfigValue → Bool
  | .map check => (checkPassKeys.findSome? fun key => (check.lookup key).map isTrue).getD false
  | check => isTrue check

def evaluationPassed (evaluation : Evaluation) : Bool :=
  match evaluation.lookup "integrity_pass" with
  | some verdict => isTrue verdict
  | none =>
    match get evaluation "checks" with
    | .map checks => !checks.isEmpty && checks.all fun check => checkPassed check.2
    | .list checks => !checks.isEmpty && checks.all checkPassed
    | .scalar _ => false

def evaluationContractMatches (evaluation : Evaluation) (run : RunRecord) : Bool :=
  [("contract_id", run.contract.contractId), ("contract_version", run.contract.version),
    ("contract_digest", run.contract.digest)].all fun (key, expected) =>
      match evaluation.lookup key with
      | some value => value = .scalar (.str expected)
      | none => true

/-- `_resolved_primary_metric`. A missing metric is null. -/
def resolvedPrimaryMetric (evaluation : Evaluation) (primaryMetricKey : String) : ConfigValue :=
  let sealed :=
    match get evaluation "metrics" with
    | .map metrics => get metrics primaryMetricKey
    | _ => .scalar .null
  if !isNull sealed then sealed
  else if !isNull (get evaluation primaryMetricKey) then get evaluation primaryMetricKey
  else
    match get evaluation "primary_metric" with
    | .map metric =>
      if get metric "name" = .scalar (.str primaryMetricKey) then get metric "value"
      else .scalar .null
    | .scalar (.str name) =>
      if name = primaryMetricKey then get evaluation "primary_value" else .scalar .null
    | _ => .scalar .null

structure JobEvidence where
  artifact : Option ArtifactRecord
  evaluation : Option Evaluation

structure ComparisonContext where
  run : RunRecord
  primaryMetricKey : Option String
  evidenceByJob : String → JobEvidence

def scalarOverride (overrides : Config) (configPath : String) : Option String :=
  match overrides.lookup configPath with
  | some (.scalar value) => if isScalar (.scalar value) then some value.text else none
  | _ => none

structure ValueIndex where
  participating : List JobRecord
  byValue : List (String × List JobRecord)

def buildValueIndex (requirement : Requirement) (jobs : List JobRecord) : ValueIndex :=
  let value (job : JobRecord) := scalarOverride job.spec.overrides requirement.configPath
  { participating := sortOn JobRecord.jobId (jobs.filter fun job => (value job).isSome)
    byValue := (fromkeys (jobs.filterMap value)).map fun v =>
      (v, jobs.filter fun job => value job = some v) }

def comparisonKey (evidence : JobEvidence) : Option String :=
  match evidence.evaluation.map (get · "comparison_key") with
  | some (.scalar (.str key)) => if isBlank key then none else some key
  | _ => none

/-- `len(set(values)) > 1`. -/
def several {α : Type} [DecidableEq α] (values : List α) : Bool := 1 < values.toFinset.card

def comparisonKeyReasons (index : ValueIndex) (context : ComparisonContext) : List String :=
  let keys := index.participating.map fun job => comparisonKey (context.evidenceByJob job.jobId)
  if keys.any (·.isNone) then ["an across_jobs evaluation is missing the required comparison_key"]
  else if several keys then ["across_jobs evaluations do not share one comparison_key"]
  else []

/-- `default=str` of `json.dumps`. -/
def jsonScalar : Scalar → Scalar
  | .other text => .str text
  | value => value

/-- The overrides apart from the compared one, as `json.dumps` with sorted keys tells them apart. -/
def axis (configPath : String) (overrides : Config) : ConfigValue :=
  .canonical jsonScalar (.map (overrides.filter fun entry => entry.1 ≠ configPath))

def countReasons (requirement : Requirement) (count : Nat) : List String :=
  (if count = 0 then ["no job overrides the compared config_path"] else []) ++
  (if count < requirement.minimumDistinctValues then
    ["requires at least " ++ toString requirement.minimumDistinctValues ++
      " distinct compared value(s); found " ++ toString count] else []) ++
  match requirement.maximumDistinctValues with
  | some maximum =>
    if maximum < count then
      ["allows at most " ++ toString maximum ++ " distinct compared value(s); found " ++
        toString count] else []
  | none => []

def comparabilityReasons (requirement : Requirement) (index : ValueIndex)
    (context : ComparisonContext) : List String :=
  countReasons requirement index.byValue.length ++
  (if index.participating.any fun job => job.contract ≠ context.run.contract then
    ["compared jobs do not share the run contract binding"] else []) ++
  (if several (index.participating.map fun job => job.spec.baseConfig) then
    ["compared jobs do not share one base_config path"] else []) ++
  (if several
    (index.participating.map fun job => axis requirement.configPath job.spec.overrides) then
    ["compared jobs differ on more than the compared config_path"] else []) ++
  (if several (index.byValue.map fun (_, jobs) => (jobs.map JobRecord.seed).toFinset) then
    ["compared values are not backed by the same seed set"] else []) ++
  comparisonKeyReasons index context

structure JobDocument where
  jobId : String
  variantName : String
  seed : Int
  status : JobStatus
  integrityPass : Option Bool
  primaryMetric : ConfigValue
  evaluationUri : Option String
  artifactDigest : Option String
  deriving DecidableEq

/-- The metric that the contract asks for, null where it asks for none. -/
def primaryMetric (context : ComparisonContext) (evaluation : Evaluation) : ConfigValue :=
  match context.primaryMetricKey with
  | some key => resolvedPrimaryMetric evaluation key
  | none => .scalar .null

def jobReason (job : JobRecord) (evidence : JobEvidence) (context : ComparisonContext) :
    Option String :=
  match evidence.artifact, evidence.evaluation with
  | none, _ => some "no evaluation.json artifact recorded for the job"
  | some _, none => some "evaluation.json artifact could not be read"
  | some _, some evaluation =>
    if !evaluationContractMatches evaluation context.run then
      some "evaluation contract does not match the run contract"
    else if job.status ≠ .succeeded then some ("job status is " ++ job.status.value)
    else if !evaluationPassed evaluation then some "per-job evaluator did not pass"
    else
      match context.primaryMetricKey with
      | some key =>
        if isNull (resolvedPrimaryMetric evaluation key) then
          some ("primary metric \x60" ++ key ++ "\x60 is missing")
        else none
      | none => none

/-- `job_document`. A job passes where nothing speaks against it. -/
def jobDocument (job : JobRecord) (evidence : JobEvidence) (context : ComparisonContext) :
    JobDocument × Bool × Option String :=
  let reason := jobReason job evidence context
  let evaluation := evidence.artifact.bind fun _ => evidence.evaluation
  ({ jobId := job.jobId
     variantName := job.variantName
     seed := job.seed
     status := job.status
     integrityPass := evaluation.map evaluationPassed
     primaryMetric :=
      match evaluation with
      | some e => if evaluationContractMatches e context.run then primaryMetric context e
        else .scalar .null
      | none => .scalar .null
     evaluationUri := evidence.artifact.map (·.uri)
     artifactDigest := evidence.artifact.map (·.sha256) },
    reason.isNone, reason)

end Glasslab.Comparison
