import Glasslab.Comparison.Report

/-!
# What a satisfied comparison says

A requirement document is satisfied exactly when the jobs it compares fulfil `Verdict`
(`satisfied_iff`). The verdict asks for one passing job of each value, not for one of each seed:
a job whose own evaluation failed still counts towards the seeds of its value.
-/

namespace Glasslab.Comparison

open Foundation Methodology List

section Sets

variable {α β : Type} [DecidableEq α]

theorem several_eq_false {values : List α} :
    several values = false ↔ ∀ a ∈ values, ∀ b ∈ values, a = b := by
  simp only [several, decide_eq_false_iff_not, not_lt, Finset.card_le_one, mem_toFinset]

theorem several_map_eq_false {values : List β} {f : β → α} :
    several (values.map f) = false ↔ ∀ a ∈ values, ∀ b ∈ values, f a = f b := by
  simp only [several_eq_false, mem_map, forall_exists_index, and_imp,
    forall_apply_eq_imp_iff₂]

end Sets

section Verdict

variable {run : RunRecord} {contract : ResolvedContract} {requirement : Requirement}
  {jobs : List JobRecord} {context : ComparisonContext} {job : JobRecord} {value : String}

def comparedValue (requirement : Requirement) (job : JobRecord) : Option String :=
  scalarOverride job.spec.overrides requirement.configPath

def comparedValues (requirement : Requirement) (jobs : List JobRecord) : List String :=
  fromkeys (jobs.filterMap (comparedValue requirement))

def seedsOf (requirement : Requirement) (jobs : List JobRecord) (value : String) : Finset Int :=
  ((jobs.filter fun job => comparedValue requirement job = some value).map
    JobRecord.seed).toFinset

/-- A job that succeeded, with an evaluation that passes, names no other contract and carries the
primary metric. -/
def Passing (context : ComparisonContext) (job : JobRecord) : Prop :=
  job.status = .succeeded ∧
    ∃ artifact evaluation, context.evidenceByJob job.jobId = ⟨some artifact, some evaluation⟩ ∧
      evaluationPassed evaluation = true ∧ evaluationContractMatches evaluation context.run = true ∧
      ∀ key ∈ context.primaryMetricKey, isNull (resolvedPrimaryMetric evaluation key) = false

/-- What a satisfied requirement document says about its jobs. -/
structure Verdict (requirement : Requirement) (jobs : List JobRecord)
    (context : ComparisonContext) : Prop where
  compared : comparedValues requirement jobs ≠ []
  minimum : requirement.minimumDistinctValues ≤ (comparedValues requirement jobs).length
  maximum : ∀ m ∈ requirement.maximumDistinctValues, (comparedValues requirement jobs).length ≤ m
  passing : ∀ value ∈ comparedValues requirement jobs, ∃ job ∈ jobs,
    comparedValue requirement job = some value ∧ Passing context job
  contract : ∀ job ∈ jobs, (comparedValue requirement job).isSome = true →
    job.contract = context.run.contract
  baseConfig : ∀ a ∈ jobs, ∀ b ∈ jobs, (comparedValue requirement a).isSome = true →
    (comparedValue requirement b).isSome = true → a.spec.baseConfig = b.spec.baseConfig
  overrides : ∀ a ∈ jobs, ∀ b ∈ jobs, (comparedValue requirement a).isSome = true →
    (comparedValue requirement b).isSome = true →
    axis requirement.configPath a.spec.overrides = axis requirement.configPath b.spec.overrides
  seeds : ∀ a ∈ comparedValues requirement jobs, ∀ b ∈ comparedValues requirement jobs,
    seedsOf requirement jobs a = seedsOf requirement jobs b
  comparisonKey : ∃ key, isBlank key = false ∧ ∀ job ∈ jobs,
    (comparedValue requirement job).isSome = true →
    ∃ evaluation, (context.evidenceByJob job.jobId).evaluation = some evaluation ∧
      get evaluation "comparison_key" = .scalar (.str key)

theorem jobReason_eq_none :
    jobReason job (context.evidenceByJob job.jobId) context = none ↔ Passing context job := by
  rcases hEvidence : context.evidenceByJob job.jobId with ⟨artifact, evaluation⟩
  unfold jobReason Passing
  rw [hEvidence]
  cases artifact with
  | none => simp
  | some artifact =>
    cases evaluation with
    | none => simp
    | some evaluation =>
      by_cases hContract : evaluationContractMatches evaluation context.run = true
      · by_cases hStatus : job.status = .succeeded
        · by_cases hPassed : evaluationPassed evaluation = true
          · cases hKey : context.primaryMetricKey with
            | none => simp [hContract, hStatus, hPassed]
            | some key => simp [hContract, hStatus, hPassed]
          · simp [hContract, hStatus, hPassed]
        · simp [hContract, hStatus]
      · simp [hContract]

theorem comparisonKey_eq_some {evidence : JobEvidence} {key : String} :
    comparisonKey evidence = some key ↔ isBlank key = false ∧ ∃ evaluation,
      evidence.evaluation = some evaluation ∧
        get evaluation "comparison_key" = .scalar (.str key) := by
  unfold comparisonKey
  cases evidence.evaluation with
  | none => simp
  | some evaluation =>
    simp only [Option.map_some, Option.some.injEq, exists_eq_left']
    split
    next found hFound =>
      simp only [Option.some.injEq] at hFound
      rw [hFound]
      by_cases hBlank : isBlank found = true
      · rw [if_pos hBlank]
        constructor
        · nofun
        · rintro ⟨hNot, hEq⟩
          cases hEq
          rw [hBlank] at hNot
          cases hNot
      · rw [if_neg hBlank]
        constructor
        · intro hEq
          cases hEq
          exact ⟨by simpa using hBlank, rfl⟩
        · rintro ⟨_, hEq⟩
          cases hEq
          rfl
    next hOther =>
      constructor
      · nofun
      · rintro ⟨_, hEq⟩
        exact absurd (by rw [hEq]) (hOther key)

/-! ## One requirement -/

theorem mem_comparedValues :
    value ∈ comparedValues requirement jobs ↔
      ∃ job ∈ jobs, comparedValue requirement job = some value := by
  rw [comparedValues, mem_fromkeys, mem_filterMap]

theorem mem_participating :
    job ∈ (buildValueIndex requirement jobs).participating ↔
      job ∈ jobs ∧ (comparedValue requirement job).isSome = true := by
  simp only [buildValueIndex, mem_sortOn, mem_filter]
  rfl

theorem byValue_eq :
    (buildValueIndex requirement jobs).byValue = (comparedValues requirement jobs).map
      fun v => (v, jobs.filter fun job => comparedValue requirement job = some v) := rfl

theorem countReasons_eq_nil {count : Nat} :
    countReasons requirement count = [] ↔ count ≠ 0 ∧
      requirement.minimumDistinctValues ≤ count ∧
      ∀ m ∈ requirement.maximumDistinctValues, count ≤ m := by
  unfold countReasons
  cases requirement.maximumDistinctValues with
  | none => simp
  | some m => simp

/-- The comparison keys give no reason exactly when the jobs share one that is not blank. -/
theorem comparisonKeyReasons_eq_nil (hSome : comparedValues requirement jobs ≠ []) :
    comparisonKeyReasons (buildValueIndex requirement jobs) context = [] ↔
      ∃ key, ∀ job ∈ jobs, (comparedValue requirement job).isSome = true →
        comparisonKey (context.evidenceByJob job.jobId) = some key := by
  obtain ⟨value, hValue⟩ := exists_mem_of_ne_nil _ hSome
  obtain ⟨first, hFirst, hFirstValue⟩ := mem_comparedValues.mp hValue
  have hFirstIn : first ∈ (buildValueIndex requirement jobs).participating :=
    mem_participating.mpr ⟨hFirst, by rw [hFirstValue]; rfl⟩
  unfold comparisonKeyReasons
  dsimp only
  constructor
  · intro h
    split at h
    · cases h
    · split at h
      · cases h
      · next hNone hSeveral =>
        rw [Bool.not_eq_true, several_map_eq_false] at hSeveral
        simp only [any_map, any_eq_true, not_exists, not_and] at hNone
        have hKey := hNone first hFirstIn
        simp only [Function.comp_apply, Option.isNone_iff_eq_none] at hKey
        obtain ⟨key, hKey⟩ := Option.ne_none_iff_exists'.mp hKey
        refine ⟨key, fun job hJob hJobValue => ?_⟩
        rw [← hKey]
        exact hSeveral job (mem_participating.mpr ⟨hJob, hJobValue⟩) first hFirstIn
  · rintro ⟨key, hKey⟩
    have hAll : ∀ job ∈ (buildValueIndex requirement jobs).participating,
        comparisonKey (context.evidenceByJob job.jobId) = some key := by
      intro job hJob
      obtain ⟨hMem, hValue⟩ := mem_participating.mp hJob
      exact hKey job hMem hValue
    rw [if_neg, if_neg]
    · rw [Bool.not_eq_true, several_map_eq_false]
      intro a ha b hb
      rw [hAll a ha, hAll b hb]
    · simp only [any_map, any_eq_true, not_exists, not_and]
      intro job hJob
      simp [hAll job hJob]

theorem valueDocument_satisfied {jobsForValue : List JobRecord} :
    (valueDocument value jobsForValue context).satisfied = true ↔
      ∃ job ∈ jobsForValue, Passing context job := by
  simp only [valueDocument, jobDocument, any_eq_true, mem_sortOn, Option.isNone_iff_eq_none,
    jobReason_eq_none]

theorem requirementDocument_values :
    (requirementDocument requirement jobs context).values =
      (sortOn Prod.fst (buildValueIndex requirement jobs).byValue).map
        fun p => valueDocument p.1 p.2 context := rfl

theorem mem_values {document : ValueDocument} :
    document ∈ (requirementDocument requirement jobs context).values ↔
      ∃ value ∈ comparedValues requirement jobs, document = valueDocument value
        (jobs.filter fun job => comparedValue requirement job = some value) context := by
  rw [requirementDocument_values, mem_map]
  constructor
  · rintro ⟨p, hp, rfl⟩
    rw [mem_sortOn, byValue_eq, mem_map] at hp
    obtain ⟨value, hValue, rfl⟩ := hp
    exact ⟨value, hValue, rfl⟩
  · rintro ⟨value, hValue, rfl⟩
    refine ⟨(value, jobs.filter fun job => comparedValue requirement job = some value), ?_, rfl⟩
    rw [mem_sortOn, byValue_eq]
    exact mem_map_of_mem hValue

theorem values_satisfied :
    (∀ document ∈ (requirementDocument requirement jobs context).values,
        document.satisfied = true) ↔
      ∀ value ∈ comparedValues requirement jobs, ∃ job ∈ jobs,
        comparedValue requirement job = some value ∧ Passing context job := by
  constructor
  · intro h value hValue
    have hDocument := h _ (mem_values.mpr ⟨value, hValue, rfl⟩)
    obtain ⟨job, hJob, hPassing⟩ := valueDocument_satisfied.mp hDocument
    simp only [mem_filter, decide_eq_true_eq] at hJob
    exact ⟨job, hJob.1, hJob.2, hPassing⟩
  · intro h document hDocument
    obtain ⟨value, hValue, rfl⟩ := mem_values.mp hDocument
    obtain ⟨job, hJob, hJobValue, hPassing⟩ := h value hValue
    refine valueDocument_satisfied.mpr ⟨job, ?_, hPassing⟩
    simpa using ⟨hJob, hJobValue⟩

theorem values_ne_nil (h : comparedValues requirement jobs ≠ []) :
    (requirementDocument requirement jobs context).values ≠ [] := by
  obtain ⟨value, hValue⟩ := exists_mem_of_ne_nil _ h
  exact ne_nil_of_mem (mem_values.mpr ⟨value, hValue, rfl⟩)

theorem comparabilityReasons_eq_nil :
    comparabilityReasons requirement (buildValueIndex requirement jobs) context = [] ↔
      countReasons requirement (comparedValues requirement jobs).length = [] ∧
      (∀ job ∈ jobs, (comparedValue requirement job).isSome = true →
        job.contract = context.run.contract) ∧
      (∀ a ∈ jobs, ∀ b ∈ jobs, (comparedValue requirement a).isSome = true →
        (comparedValue requirement b).isSome = true → a.spec.baseConfig = b.spec.baseConfig) ∧
      (∀ a ∈ jobs, ∀ b ∈ jobs, (comparedValue requirement a).isSome = true →
        (comparedValue requirement b).isSome = true →
        axis requirement.configPath a.spec.overrides =
          axis requirement.configPath b.spec.overrides) ∧
      (∀ a ∈ comparedValues requirement jobs, ∀ b ∈ comparedValues requirement jobs,
        seedsOf requirement jobs a = seedsOf requirement jobs b) ∧
      comparisonKeyReasons (buildValueIndex requirement jobs) context = [] := by
  have hPairs {γ : Type} (f : JobRecord → γ) :
      (∀ a ∈ (buildValueIndex requirement jobs).participating,
        ∀ b ∈ (buildValueIndex requirement jobs).participating, f a = f b) ↔
      ∀ a ∈ jobs, ∀ b ∈ jobs, (comparedValue requirement a).isSome = true →
        (comparedValue requirement b).isSome = true → f a = f b := by
    simp only [mem_participating]
    exact ⟨fun h a ha b hb hva hvb => h a ⟨ha, hva⟩ b ⟨hb, hvb⟩,
      fun h a ha b hb => h a ha.1 b hb.1 ha.2 hb.2⟩
  simp only [comparabilityReasons, append_eq_nil_iff, ite_eq_right_iff, cons_ne_nil,
    imp_false, Bool.not_eq_true, several_map_eq_false, hPairs, and_assoc]
  refine and_congr (by rw [byValue_eq, length_map]) (and_congr ?_ (and_congr Iff.rfl
    (and_congr Iff.rfl (and_congr ?_ Iff.rfl))))
  · simp only [any_eq_false, mem_participating, decide_eq_true_eq, not_not, and_imp]
  · rw [byValue_eq]
    simp only [mem_map, forall_exists_index, and_imp, forall_apply_eq_imp_iff₂]
    rfl

theorem comparedValues_ne_nil
    (h : countReasons requirement (comparedValues requirement jobs).length = []) :
    comparedValues requirement jobs ≠ [] := by
  have hCount := (countReasons_eq_nil.mp h).1
  exact fun hNil => hCount (by rw [hNil]; rfl)

theorem satisfied_iff :
    (requirementDocument requirement jobs context).satisfied = true ↔
      Verdict requirement jobs context := by
  have hReasons : (requirementDocument requirement jobs context).reasons =
      comparabilityReasons requirement (buildValueIndex requirement jobs) context := rfl
  rw [requirementDocument_satisfied, values_satisfied, hReasons, comparabilityReasons_eq_nil]
  constructor
  · rintro ⟨⟨_, hCount, hContract, hBase, hAxis, hSeeds, hKeys⟩, hPassing⟩
    have hSome := comparedValues_ne_nil hCount
    obtain ⟨_, hMinimum, hMaximum⟩ := countReasons_eq_nil.mp hCount
    refine ⟨hSome, hMinimum, hMaximum, hPassing, hContract, hBase, hAxis, hSeeds, ?_⟩
    obtain ⟨key, hKey⟩ := (comparisonKeyReasons_eq_nil hSome).mp hKeys
    obtain ⟨value, hValue⟩ := exists_mem_of_ne_nil _ hSome
    obtain ⟨first, hFirst, hFirstValue⟩ := mem_comparedValues.mp hValue
    have hBlank := (comparisonKey_eq_some.mp (hKey first hFirst (by rw [hFirstValue]; rfl))).1
    exact ⟨key, hBlank, fun job hJob hJobValue =>
      (comparisonKey_eq_some.mp (hKey job hJob hJobValue)).2⟩
  · intro h
    have hCount : countReasons requirement (comparedValues requirement jobs).length = [] := by
      refine countReasons_eq_nil.mpr ⟨?_, h.minimum, h.maximum⟩
      exact fun hZero => h.compared (length_eq_zero_iff.mp hZero)
    refine ⟨⟨values_ne_nil h.compared, hCount, h.contract, h.baseConfig, h.overrides, h.seeds, ?_⟩,
      h.passing⟩
    obtain ⟨key, hBlank, hKey⟩ := h.comparisonKey
    refine (comparisonKeyReasons_eq_nil h.compared).mpr ⟨key, fun job hJob hJobValue => ?_⟩
    exact comparisonKey_eq_some.mpr ⟨hBlank, hKey job hJob hJobValue⟩

variable {artifacts : List ArtifactRecord} {reader : ArtifactReader} {report : ComparisonReport}
  {requirements : List Requirement}

def reportContext (run : RunRecord) (contract : ResolvedContract)
    (artifacts : List ArtifactRecord) (reader : ArtifactReader) : ComparisonContext :=
  ⟨run, contract.primaryMetricKey, jobEvidence artifacts reader⟩

def reportDocuments (run : RunRecord) (contract : ResolvedContract)
    (requirements : List Requirement) (jobs : List JobRecord) (artifacts : List ArtifactRecord)
    (reader : ArtifactReader) : List RequirementDocument :=
  (sortOn Requirement.requirementId (requirements.filter (·.acrossJobs))).map fun r =>
    requirementDocument r (latestSubmissionJobs jobs) (reportContext run contract artifacts reader)

theorem buildComparisonReport_eq_some
    (h : buildComparisonReport run contract jobs artifacts reader = some report) :
    ∃ requirements, contract.requirements = some requirements ∧
      report.requirements = reportDocuments run contract requirements jobs artifacts reader ∧
      report.satisfied = report.requirements.all (·.satisfied) ∧
      report.reasons = reportReasons report.requirements := by
  unfold buildComparisonReport at h
  cases hRequirements : contract.requirements with
  | none =>
    rw [hRequirements] at h
    cases h
  | some requirements =>
    rw [hRequirements] at h
    dsimp only at h
    split at h
    · cases h
    · cases h
      exact ⟨requirements, rfl, rfl, rfl, rfl⟩

/-- A satisfied report promises the verdict of every comparison across jobs of the contract, over
the newest wave of jobs. -/
theorem verdict_of_satisfied
    (h : buildComparisonReport run contract jobs artifacts reader = some report)
    (hSatisfied : report.satisfied = true) :
    ∃ requirements, contract.requirements = some requirements ∧
      ∀ requirement ∈ requirements, requirement.acrossJobs = true →
        Verdict requirement (latestSubmissionJobs jobs)
          (reportContext run contract artifacts reader) := by
  obtain ⟨requirements, hRequirements, hDocuments, hAll, _⟩ := buildComparisonReport_eq_some h
  refine ⟨requirements, hRequirements, fun requirement hMem hAcross => ?_⟩
  rw [hAll, all_eq_true] at hSatisfied
  refine satisfied_iff.mp (hSatisfied _ ?_)
  rw [hDocuments, reportDocuments]
  refine mem_map_of_mem ?_
  rw [mem_sortOn, mem_filter]
  exact ⟨hMem, hAcross⟩

end Verdict

def trialRequirement : Requirement where
  requirementId := "model"
  configPath := "experiment_dimensions.model"
  mode := .comparison
  explicitScope := some .acrossJobs
  minimumDistinctValues := 2
  description := "compare two models"
  requirementId_ne h := absurd h (by decide)
  configPath_ne h := absurd h (by decide)
  description_ne := by decide
  minimum_pos := Nat.two_pos
  maximum_pos := one_le_of_mem_none

def trialBinding : ContractBinding := ⟨"models", "1.0.0", "c0"⟩

def trialRun : RunRecord := ⟨"run", trialBinding⟩

def trialContract : ResolvedContract where
  binding := trialBinding
  requirements := some [trialRequirement]

def trialJob (jobId value : String) (seed : Int) (status : JobStatus) : JobRecord where
  jobId := jobId
  actionId := "submit"
  status := status
  contract := trialBinding
  variantName := value
  seed := seed
  spec :=
    { orchestratorJobId := jobId
      actionId := "submit"
      variantName := value
      seed := seed
      baseConfig := "config.yaml"
      overrides := [("experiment_dimensions.model", .scalar (.str value))]
      contract := trialBinding }
  createdAt := 0

def trialDigest (figure : Char) : String := String.ofList (List.replicate 64 figure)

def trialArtifact (job : JobRecord) : ArtifactRecord where
  jobId := some job.jobId
  uri := job.jobId ++ "/evaluation.json"
  sha256 := trialDigest 'e'

def trialReader : ArtifactReader := fun _ =>
  some [("integrity_pass", .scalar (.bool true)), ("comparison_key", .scalar (.str "split"))]

def trialJobs : List JobRecord :=
  [trialJob "a" "linear" 1 .succeeded, trialJob "b" "forest" 1 .succeeded]

theorem verdict_of_satisfied_trialJobs :
    ∃ requirements, trialContract.requirements = some requirements ∧
      ∀ requirement ∈ requirements, requirement.acrossJobs = true →
        Verdict requirement (latestSubmissionJobs trialJobs)
          (reportContext trialRun trialContract (trialJobs.map trialArtifact) trialReader) := by
  have hReport : (buildComparisonReport trialRun trialContract trialJobs
      (trialJobs.map trialArtifact) trialReader).map (·.satisfied) = some true := by
    decide +kernel
  obtain ⟨report, hSome, hSatisfied⟩ := Option.map_eq_some_iff.mp hReport
  exact verdict_of_satisfied hSome hSatisfied

/-- Two values with two seeds each; one of the jobs failed after it had written its evaluation. -/
def lameJobs : List JobRecord :=
  [trialJob "a" "linear" 1 .succeeded, trialJob "b" "linear" 2 .failed,
    trialJob "c" "forest" 1 .succeeded, trialJob "d" "forest" 2 .succeeded]

/-- The comparison is satisfied, though no job with one of the values and one of the shared seeds
succeeded. -/
theorem not_every_seed_passes :
    (buildComparisonReport trialRun trialContract lameJobs (lameJobs.map trialArtifact)
      trialReader).map (·.satisfied) = some true ∧
    (∀ value ∈ comparedValues trialRequirement (latestSubmissionJobs lameJobs),
      2 ∈ seedsOf trialRequirement (latestSubmissionJobs lameJobs) value) ∧
    "linear" ∈ comparedValues trialRequirement (latestSubmissionJobs lameJobs) ∧
    ¬∃ job ∈ latestSubmissionJobs lameJobs, comparedValue trialRequirement job = some "linear" ∧
      job.seed = 2 ∧ job.status = .succeeded := by
  decide +kernel

end Glasslab.Comparison
