import Glasslab.Comparison.Checks

/-!
# The comparison report

`app/comparison.py` joins the evaluations of the jobs of a run into one document. A satisfied report
is read back in `Verdict`: what it promises for each of its requirements.
-/

namespace Glasslab.Comparison

open Foundation Methodology

/-- What a report reads of a contract. -/
structure ResolvedContract where
  binding : ContractBinding
  /-- The methodology requirements of the manifest, unless they cannot be parsed. -/
  requirements : Option (List Requirement)
  primaryMetric : Option ConfigValue := none

/-- The primary metric of the manifest, if it is a string and not empty. -/
def ResolvedContract.primaryMetricKey (contract : ResolvedContract) : Option String :=
  match contract.primaryMetric with
  | some (.scalar (.str key)) => if key = "" then none else some key
  | _ => none

structure ValueDocument where
  value : String
  jobs : List JobDocument
  satisfied : Bool
  reasons : List String
  deriving DecidableEq

structure RequirementDocument where
  requirementId : String
  configPath : String
  satisfied : Bool
  reasons : List String
  values : List ValueDocument
  deriving DecidableEq

structure ComparisonReport where
  schemaVersion : String := "glasslab-cross-job-comparison-v1"
  runId : String
  contract : ContractBinding
  comparisonScope : Scope := .acrossJobs
  requirements : List RequirementDocument
  satisfied : Bool
  reasons : List String
  notes : List String :=
    ["base_config file content is not stored on the job record, so mechanical " ++
      "comparability checks base_config path identity and the override axis only"]
  deriving DecidableEq

def jobEvidence (artifacts : List ArtifactRecord) (reader : ArtifactReader) (jobId : String) :
    JobEvidence :=
  let artifact := (evaluationArtifacts artifacts jobId).head?
  ⟨artifact, artifact.bind reader⟩

def valueDocument (value : String) (jobsForValue : List JobRecord) (context : ComparisonContext) :
    ValueDocument :=
  let jobs := sortOn JobRecord.jobId jobsForValue
  let document (job : JobRecord) := jobDocument job (context.evidenceByJob job.jobId) context
  let passed := jobs.any fun job => (document job).2.1
  { value := value
    jobs := jobs.map fun job => (document job).1
    satisfied := passed
    reasons :=
      (jobs.filterMap fun job => (document job).2.2.map fun reason =>
        "job " ++ job.jobId ++ ": " ++ reason) ++
      if passed then [] else ["no succeeded job for this value carries a passing evaluation"] }

def requirementDocument (requirement : Requirement) (jobs : List JobRecord)
    (context : ComparisonContext) : RequirementDocument :=
  let index := buildValueIndex requirement jobs
  let values := (sortOn Prod.fst index.byValue).map fun (value, jobs) =>
    valueDocument value jobs context
  let reasons := comparabilityReasons requirement index context
  { requirementId := requirement.requirementId
    configPath := requirement.configPath
    satisfied := !values.isEmpty && reasons.isEmpty && values.all (·.satisfied)
    reasons := reasons
    values := values }

theorem requirementDocument_satisfied {requirement : Requirement} {jobs : List JobRecord}
    {context : ComparisonContext} :
    (requirementDocument requirement jobs context).satisfied = true ↔
      ((requirementDocument requirement jobs context).values ≠ [] ∧
        (requirementDocument requirement jobs context).reasons = []) ∧
      ∀ value ∈ (requirementDocument requirement jobs context).values, value.satisfied = true := by
  have hUnfold : (requirementDocument requirement jobs context).satisfied =
      (!(requirementDocument requirement jobs context).values.isEmpty &&
        (requirementDocument requirement jobs context).reasons.isEmpty &&
        (requirementDocument requirement jobs context).values.all (·.satisfied)) := rfl
  rw [hUnfold]
  simp only [Bool.and_eq_true, Bool.not_eq_true', List.isEmpty_eq_false_iff, List.isEmpty_iff,
    List.all_eq_true]

def reportReasons (documents : List RequirementDocument) : List String :=
  documents.flatMap fun document =>
    (document.reasons.map fun reason => document.requirementId ++ ": " ++ reason) ++
    (document.values.filter (!·.satisfied)).flatMap fun value =>
      value.reasons.map fun reason =>
        document.requirementId ++ " [" ++ value.value ++ "]: " ++ reason

def buildComparisonReport (run : RunRecord) (contract : ResolvedContract) (jobs : List JobRecord)
    (artifacts : List ArtifactRecord) (reader : ArtifactReader) : Option ComparisonReport :=
  match contract.requirements with
  | none => none
  | some requirements =>
    let acrossJobs := sortOn Requirement.requirementId (requirements.filter (·.acrossJobs))
    if acrossJobs.isEmpty then none
    else
      let context : ComparisonContext :=
        ⟨run, contract.primaryMetricKey, jobEvidence artifacts reader⟩
      let documents := acrossJobs.map fun requirement =>
        requirementDocument requirement (latestSubmissionJobs jobs) context
      some
        { runId := run.runId
          contract := contract.binding
          requirements := documents
          satisfied := documents.all (·.satisfied)
          reasons := reportReasons documents }

end Glasslab.Comparison
