import Glasslab.Comparison.Matrix

/-!
# Comparisons of admitted matrices

A matrix that the preflight admits has enough compared values and gives each of them all its seeds.
If all its jobs succeed with evaluations that pass, the comparison is satisfied exactly when the
variants agree on every override besides the compared one.
-/

namespace Glasslab.Comparison

open Foundation Methodology List

section Admission

variable {str : ConfigValue → String} {workspace : Workspace} {contract : BoundContract}
  {matrix : ExperimentMatrix} {orchestratorJobId : JobIdentity → String}
  {runId actionId : String} {run : RunRecord} {requirements : List Requirement} {r : Requirement}
  {jobs : List JobRecord} {job : JobRecord} {specs : List ExpandedJobSpec}
  {artifacts : List ArtifactRecord} {reader : ArtifactReader} {variant : ExperimentVariant}

/-! ## What an admitted matrix is like -/

variable {value : String}

theorem scalarOverride_of_variantValue (h : variantValue r.configPath variant = .ok value) :
    scalarOverride variant.overrides r.configPath = some value := by
  unfold variantValue at h
  split at h
  · cases h
  · unfold scalarOverride
    split at h
    · cases h
    · next found hFound =>
      rw [hFound]
      dsimp only
      split at h
      · next hScalar =>
        cases h
        rw [if_pos hScalar]
      · cases h
    · cases h

/-- What an admitted matrix says about the place of a comparison across jobs. -/
structure Admitted (r : Requirement) (matrix : ExperimentMatrix) : Prop where
  selects : ∀ variant ∈ matrix.variants,
    ∃ value, scalarOverride variant.overrides r.configPath = some value
  minimum : r.minimumDistinctValues ≤
    (fromkeys (matrix.variants.filterMap fun v => scalarOverride v.overrides r.configPath)).length
  maximum : ∀ m ∈ r.maximumDistinctValues,
    (fromkeys (matrix.variants.filterMap fun v =>
      scalarOverride v.overrides r.configPath)).length ≤ m

theorem Admitted.of_variantErrors (h : acrossJobsVariantErrors r matrix = []) :
    Admitted r matrix := by
  simp only [acrossJobsVariantErrors, append_eq_nil_iff] at h
  obtain ⟨⟨hErrors, hMinimum⟩, hMaximum⟩ := h
  have hValues : ∀ variant ∈ matrix.variants, ∃ value,
      variantValue r.configPath variant = .ok value := by
    intro variant hVariant
    cases hValue : variantValue r.configPath variant with
    | ok value => exact ⟨value, rfl⟩
    | error e =>
      have hNone := filterMap_eq_nil_iff.mp hErrors _ (mem_map_of_mem hVariant)
      rw [hValue] at hNone
      cases hNone
  have hSame : (matrix.variants.map (variantValue r.configPath)).filterMap Except.toOption =
      matrix.variants.filterMap fun v => scalarOverride v.overrides r.configPath := by
    rw [filterMap_map]
    refine filterMap_congr fun variant hVariant => ?_
    obtain ⟨value, hValue⟩ := hValues variant hVariant
    rw [Function.comp_apply, hValue, scalarOverride_of_variantValue hValue]
    rfl
  rw [hSame] at hMinimum hMaximum
  refine ⟨fun variant hVariant => ?_, ?_, fun m hm => ?_⟩
  · obtain ⟨value, hValue⟩ := hValues variant hVariant
    exact ⟨value, scalarOverride_of_variantValue hValue⟩
  · by_contra hFew
    rw [if_pos (by omega)] at hMinimum
    cases hMinimum
  · rw [Option.mem_def.mp hm] at hMaximum
    by_contra hMany
    dsimp only at hMaximum
    rw [if_pos (by omega)] at hMaximum
    cases hMaximum

theorem admitted_of_preflight (h : preflightMatrix str workspace contract matrix = [])
    (hRequirements : contract.requirements = some requirements) (hr : r ∈ requirements)
    (hAcross : r.acrossJobs = true) : Admitted r matrix := by
  simp only [preflightMatrix, hRequirements, Option.getD_some, append_eq_nil_iff,
    flatMap_eq_nil_iff] at h
  have hErrors := h.1.1.1.1.2 r hr
  simp only [requirementPreflight, append_eq_nil_iff, map_eq_nil_iff] at hErrors
  obtain ⟨hShape, hVariants⟩ := hErrors
  apply Admitted.of_variantErrors
  unfold shapeErrors at hShape
  cases hFollow : Document.follow r.keys (.map workspace.config) with
  | none =>
    rw [hFollow] at hShape
    cases hShape
  | some value =>
    rw [hFollow] at hShape hVariants
    cases value with
    | map entries => cases hShape
    | scalar a =>
      dsimp only at hVariants
      rw [if_pos hAcross] at hVariants
      exact hVariants
    | list items =>
      dsimp only at hVariants
      rw [if_pos hAcross] at hVariants
      exact hVariants

theorem mem_expandExperimentMatrix {spec : ExpandedJobSpec}
    (h : expandExperimentMatrix orchestratorJobId runId actionId matrix contract = .ok specs) :
    spec ∈ specs ↔ ∃ variant ∈ matrix.variants, ∃ seed ∈ matrix.seeds,
      spec = expandedSpec orchestratorJobId runId actionId matrix contract variant seed := by
  unfold expandExperimentMatrix at h
  split at h
  · cases h
  split at h
  · cases h
  split at h
  · cases h
  cases h
  simp only [mem_flatMap, mem_map, eq_comm]

/-- All jobs of a list of specs, in any order, after they have succeeded. -/
structure AllSucceeded (specs : List ExpandedJobSpec) (jobs : List JobRecord) : Prop where
  specs : (jobs.map JobRecord.spec).Perm specs
  record : ∀ job ∈ jobs, job = { queuedJob job.spec job.createdAt with status := .succeeded }

/-- Every job has one evaluation; all of them can be read, pass, name no other contract and carry
the primary metric, and they share a comparison key. -/
def AllEvaluated (run : RunRecord) (contract : BoundContract) (jobs : List JobRecord)
    (artifacts : List ArtifactRecord) (reader : ArtifactReader) : Prop :=
  ∃ key, isBlank key = false ∧ ∀ job ∈ jobs, ∃ artifact evaluation,
    evaluationArtifacts artifacts job.jobId = [artifact] ∧ reader artifact = some evaluation ∧
    evaluationPassed evaluation = true ∧ evaluationContractMatches evaluation run = true ∧
    (∀ metric ∈ contract.primaryMetricKey,
      isNull (resolvedPrimaryMetric evaluation metric) = false) ∧
    get evaluation "comparison_key" = .scalar (.str key)

/-- The jobs of a matrix, read off their records. -/
structure JobsOf (matrix : ExperimentMatrix) (binding : ContractBinding) (actionId : String)
    (jobs : List JobRecord) : Prop where
  sound : ∀ job ∈ jobs, job.status = .succeeded ∧ job.actionId = actionId ∧
    job.contract = binding ∧ job.spec.baseConfig = matrix.baseConfig ∧
    job.seed ∈ matrix.seeds ∧ ∃ variant ∈ matrix.variants, job.spec.overrides = variant.overrides
  complete : ∀ variant ∈ matrix.variants, ∀ seed ∈ matrix.seeds,
    ∃ job ∈ jobs, job.seed = seed ∧ job.spec.overrides = variant.overrides

theorem jobsOf_of_allSucceeded
    (hExpand : expandExperimentMatrix orchestratorJobId runId actionId matrix contract = .ok specs)
    (h : AllSucceeded specs jobs) : JobsOf matrix contract.binding actionId jobs := by
  constructor
  · intro job hJob
    have hSpec : job.spec ∈ specs := h.specs.mem_iff.mp (mem_map_of_mem hJob)
    obtain ⟨variant, hVariant, seed, hSeed, hEq⟩ := (mem_expandExperimentMatrix hExpand).mp hSpec
    rw [h.record job hJob]
    simp only [queuedJob, hEq, expandedSpec]
    exact ⟨trivial, trivial, trivial, trivial, hSeed, variant, hVariant, rfl⟩
  · intro variant hVariant seed hSeed
    have hSpec := (mem_expandExperimentMatrix hExpand).mpr ⟨variant, hVariant, seed, hSeed, rfl⟩
    obtain ⟨job, hJob, hEq⟩ := mem_map.mp (h.specs.mem_iff.mpr hSpec)
    refine ⟨job, hJob, ?_, ?_⟩
    · rw [h.record job hJob]
      simp only [queuedJob, hEq, expandedSpec]
    · rw [hEq]
      rfl

variable {binding : ContractBinding}

/-- One action submitted them all, so they are the newest wave. -/
theorem JobsOf.mem_latest (h : JobsOf matrix binding actionId jobs) :
    job ∈ latestSubmissionJobs jobs ↔ job ∈ jobs := by
  unfold latestSubmissionJobs
  cases hLatest : jobs.argmax fun job => toLex (job.createdAt, job.jobId) with
  | none =>
    rw [argmax_eq_none.mp hLatest]
  | some latest =>
    have hMem := argmax_mem hLatest
    simp only [mem_sortOn, mem_filter, decide_eq_true_eq, and_iff_left_iff_imp]
    intro hJob
    rw [(h.sound job hJob).2.1, (h.sound latest hMem).2.1]

theorem latest_jobsOf (h : JobsOf matrix binding actionId jobs) :
    JobsOf matrix binding actionId (latestSubmissionJobs jobs) := by
  constructor
  · intro job hJob
    exact h.sound job (h.mem_latest.mp hJob)
  · intro variant hVariant seed hSeed
    obtain ⟨job, hJob, hBoth⟩ := h.complete variant hVariant seed hSeed
    exact ⟨job, h.mem_latest.mpr hJob, hBoth⟩

/-! ## The comparison of the jobs of a matrix -/

def selectedValues (r : Requirement) (matrix : ExperimentMatrix) : List String :=
  matrix.variants.filterMap fun v => scalarOverride v.overrides r.configPath

section

variable (h : JobsOf matrix binding actionId jobs)
include h

theorem mem_comparedValues_jobsOf :
    value ∈ comparedValues r jobs ↔ value ∈ selectedValues r matrix := by
  rw [mem_comparedValues, selectedValues, mem_filterMap]
  constructor
  · rintro ⟨job, hJob, hValue⟩
    obtain ⟨_, _, _, _, _, variant, hVariant, hOverrides⟩ := h.sound job hJob
    rw [comparedValue, hOverrides] at hValue
    exact ⟨variant, hVariant, hValue⟩
  · rintro ⟨variant, hVariant, hValue⟩
    obtain ⟨seed, hSeed⟩ := exists_mem_of_ne_nil _ matrix.seeds_ne
    obtain ⟨job, hJob, _, hOverrides⟩ := h.complete variant hVariant seed hSeed
    refine ⟨job, hJob, ?_⟩
    rw [comparedValue, hOverrides]
    exact hValue

theorem length_comparedValues_jobsOf :
    (comparedValues r jobs).length = (fromkeys (selectedValues r matrix)).length := by
  have hPerm : (comparedValues r jobs).Perm (fromkeys (selectedValues r matrix)) := by
    refine (perm_ext_iff_of_nodup (nodup_fromkeys _) (nodup_fromkeys _)).mpr fun value => ?_
    have hMem : value ∈ comparedValues r jobs ↔ value ∈ selectedValues r matrix :=
      mem_comparedValues_jobsOf h
    exact hMem.trans mem_fromkeys.symm
  exact hPerm.length_eq

theorem seedsOf_jobsOf (hValue : value ∈ comparedValues r jobs) :
    seedsOf r jobs value = matrix.seeds.toFinset := by
  ext seed
  simp only [seedsOf, mem_toFinset, mem_map, mem_filter, decide_eq_true_eq]
  constructor
  · rintro ⟨job, ⟨hJob, _⟩, rfl⟩
    exact (h.sound job hJob).2.2.2.2.1
  · intro hSeed
    rw [mem_comparedValues_jobsOf h, selectedValues, mem_filterMap] at hValue
    obtain ⟨variant, hVariant, hSelected⟩ := hValue
    obtain ⟨job, hJob, hJobSeed, hOverrides⟩ := h.complete variant hVariant seed hSeed
    refine ⟨job, ⟨hJob, ?_⟩, hJobSeed⟩
    rw [comparedValue, hOverrides]
    exact hSelected

end

theorem jobEvidence_of_single {jobId : String} {artifact : ArtifactRecord}
    {evaluation : Evaluation} (hOne : evaluationArtifacts artifacts jobId = [artifact])
    (hRead : reader artifact = some evaluation) :
    jobEvidence artifacts reader jobId = ⟨some artifact, some evaluation⟩ := by
  simp [jobEvidence, hOne, hRead]

def OneAxis (r : Requirement) (matrix : ExperimentMatrix) : Prop :=
  ∀ v ∈ matrix.variants, ∀ w ∈ matrix.variants,
    axis r.configPath v.overrides = axis r.configPath w.overrides

theorem verdict_jobsOf_iff (hAdmitted : Admitted r matrix)
    (hJobs : JobsOf matrix contract.binding actionId jobs) (hRun : run.contract = contract.binding)
    (hEvaluated : AllEvaluated run contract jobs artifacts reader) :
    Verdict r jobs (reportContext run contract.toResolvedContract artifacts reader) ↔
      OneAxis r matrix := by
  obtain ⟨key, hBlank, hEvaluation⟩ := hEvaluated
  have hSelects : ∀ job ∈ jobs, (comparedValue r job).isSome = true := by
    intro job hJob
    obtain ⟨_, _, _, _, _, variant, hVariant, hOverrides⟩ := hJobs.sound job hJob
    obtain ⟨value, hValue⟩ := hAdmitted.selects variant hVariant
    rw [comparedValue, hOverrides, hValue]
    rfl
  constructor
  · intro h v hv w hw
    obtain ⟨seed, hSeed⟩ := exists_mem_of_ne_nil _ matrix.seeds_ne
    obtain ⟨a, ha, _, hOfV⟩ := hJobs.complete v hv seed hSeed
    obtain ⟨b, hb, _, hOfW⟩ := hJobs.complete w hw seed hSeed
    rw [← hOfV, ← hOfW]
    exact h.overrides a ha b hb (hSelects a ha) (hSelects b hb)
  · intro h
    refine ⟨?_, ?_, ?_, ?_, ?_, ?_, ?_, ?_, ?_⟩
    · obtain ⟨variant, hVariant⟩ := exists_mem_of_ne_nil _ matrix.variants_ne
      obtain ⟨value, hValue⟩ := hAdmitted.selects variant hVariant
      have hSelected : value ∈ selectedValues r matrix :=
        mem_filterMap.mpr ⟨variant, hVariant, hValue⟩
      exact ne_nil_of_mem ((mem_comparedValues_jobsOf hJobs).mpr hSelected)
    · rw [length_comparedValues_jobsOf hJobs]
      exact hAdmitted.minimum
    · rw [length_comparedValues_jobsOf hJobs]
      exact hAdmitted.maximum
    · intro value hValue
      obtain ⟨job, hJob, hJobValue⟩ := mem_comparedValues.mp hValue
      obtain ⟨artifact, evaluation, hOne, hRead, hPassed, hContract, hMetric, _⟩ :=
        hEvaluation job hJob
      exact ⟨job, hJob, hJobValue, (hJobs.sound job hJob).1, artifact, evaluation,
        jobEvidence_of_single hOne hRead, hPassed, hContract, hMetric⟩
    · intro job hJob _
      rw [(hJobs.sound job hJob).2.2.1]
      exact hRun.symm
    · intro a ha b hb _ _
      rw [(hJobs.sound a ha).2.2.2.1, (hJobs.sound b hb).2.2.2.1]
    · intro a ha b hb _ _
      obtain ⟨_, _, _, _, _, v, hv, hOfV⟩ := hJobs.sound a ha
      obtain ⟨_, _, _, _, _, w, hw, hOfW⟩ := hJobs.sound b hb
      rw [hOfV, hOfW]
      exact h v hv w hw
    · intro a ha b hb
      rw [seedsOf_jobsOf hJobs ha, seedsOf_jobsOf hJobs hb]
    · refine ⟨key, hBlank, fun job hJob _ => ?_⟩
      obtain ⟨artifact, evaluation, hOne, hRead, _, _, _, hKey⟩ := hEvaluation job hJob
      exact ⟨evaluation, congrArg JobEvidence.evaluation (jobEvidence_of_single hOne hRead), hKey⟩

theorem reportReasons_of_satisfied {documents : List RequirementDocument}
    (h : ∀ document ∈ documents, document.satisfied = true →
      document.reasons = [] ∧ ∀ value ∈ document.values, value.satisfied = true)
    (hAll : documents.all (·.satisfied) = true) : reportReasons documents = [] := by
  rw [all_eq_true] at hAll
  refine flatMap_eq_nil_iff.mpr fun document hDocument => ?_
  obtain ⟨hReasons, hValues⟩ := h document hDocument (hAll document hDocument)
  have hFilter : document.values.filter (!·.satisfied) = [] := by
    refine filter_eq_nil_iff.mpr fun value hValue => ?_
    simp [hValues value hValue]
  rw [hReasons, hFilter]
  rfl

/-- The comparison over these jobs is satisfied, and nothing speaks against it. -/
def CleanReport (run : RunRecord) (contract : ResolvedContract) (jobs : List JobRecord)
    (artifacts : List ArtifactRecord) (reader : ArtifactReader) : Prop :=
  ∃ report, buildComparisonReport run contract jobs artifacts reader = some report ∧
    report.satisfied = true ∧ report.reasons = []

theorem cleanReport_iff {contract : ResolvedContract}
    (hRequirements : contract.requirements = some requirements)
    (hAcross : ∃ r ∈ requirements, r.acrossJobs = true) :
    CleanReport run contract jobs artifacts reader ↔
      ∀ r ∈ requirements, r.acrossJobs = true → Verdict r (latestSubmissionJobs jobs)
        (reportContext run contract artifacts reader) := by
  constructor
  · rintro ⟨report, hReport, hSatisfied, _⟩
    obtain ⟨others, hOthers, h⟩ := verdict_of_satisfied hReport hSatisfied
    rw [hRequirements] at hOthers
    cases hOthers
    exact h
  · intro h
    have hSome : ¬(sortOn Requirement.requirementId
        (requirements.filter (·.acrossJobs))).isEmpty = true := by
      obtain ⟨r, hr, hJobs⟩ := hAcross
      rw [List.isEmpty_iff]
      exact ne_nil_of_mem (mem_sortOn.mpr (mem_filter.mpr ⟨hr, hJobs⟩))
    have hAll : (reportDocuments run contract requirements jobs artifacts reader).all
        (·.satisfied) = true := by
      rw [all_eq_true]
      intro document hDocument
      obtain ⟨r, hr, rfl⟩ := mem_map.mp hDocument
      rw [mem_sortOn, mem_filter] at hr
      exact satisfied_iff.mpr (h r hr.1 hr.2)
    have hQuiet : reportReasons
        (reportDocuments run contract requirements jobs artifacts reader) = [] := by
      refine reportReasons_of_satisfied (fun document hDocument hSatisfied => ?_) hAll
      obtain ⟨r, _, rfl⟩ := mem_map.mp hDocument
      obtain ⟨⟨_, hReasons⟩, hValues⟩ := requirementDocument_satisfied.mp hSatisfied
      exact ⟨hReasons, hValues⟩
    unfold CleanReport buildComparisonReport
    rw [hRequirements]
    dsimp only
    rw [if_neg hSome]
    exact ⟨_, rfl, hAll, hQuiet⟩

/-- The comparison of an admitted matrix whose jobs all succeed with good evaluations is satisfied
exactly when its variants differ in nothing but the compared override. -/
theorem satisfied_of_matrix_iff
    (hRequirements : contract.requirements = some requirements)
    (hAcross : ∃ r ∈ requirements, r.acrossJobs = true)
    (hPreflight : preflightMatrix str workspace contract matrix = [])
    (hExpand : expandExperimentMatrix orchestratorJobId runId actionId matrix contract = .ok specs)
    (hSucceeded : AllSucceeded specs jobs) (hRun : run.contract = contract.binding)
    (hEvaluated : AllEvaluated run contract jobs artifacts reader) :
    CleanReport run contract.toResolvedContract jobs artifacts reader ↔
      ∀ r ∈ requirements, r.acrossJobs = true → OneAxis r matrix := by
  have hJobs := jobsOf_of_allSucceeded hExpand hSucceeded
  have hLatest : AllEvaluated run contract (latestSubmissionJobs jobs) artifacts reader := by
    obtain ⟨key, hBlank, hEvaluation⟩ := hEvaluated
    exact ⟨key, hBlank, fun job hJob => hEvaluation job (hJobs.mem_latest.mp hJob)⟩
  rw [cleanReport_iff hRequirements hAcross]
  refine forall₃_congr fun r hr hJobsOf => ?_
  exact verdict_jobsOf_iff (admitted_of_preflight hPreflight hRequirements hr hJobsOf)
    (latest_jobsOf hJobs) hRun hLatest

end Admission

def trialVariant (name : String) (rest : Config) : ExperimentVariant where
  name := name
  overrides := ("experiment_dimensions.model", .scalar (.str name)) :: rest

def trialMatrix (linear forest : Config) : ExperimentMatrix where
  baseConfig := "config.yaml"
  variants := [trialVariant "linear" linear, trialVariant "forest" forest]
  seeds := [1, 2]
  resources := ⟨.finite 1, .finite 2, 0, 30⟩
  requiredArtifacts := []
  variants_ne := by simp
  seeds_ne := by simp
  seeds_nodup := by decide
  names_nodup := by simp [trialVariant]

def trialBoundContract : BoundContract where
  toResolvedContract := trialContract
  resourceConstraints := ⟨.finite 1, .finite 2, 0, 30⟩

def trialWorkspace : Workspace where
  baseConfig := some (.ok [("experiment_dimensions", .map [("model", .scalar (.str "linear"))])])

def trialJobId (identity : JobIdentity) : String := identity.variant ++ toString identity.seed

def trialSpecs (matrix : ExperimentMatrix) : List ExpandedJobSpec :=
  matrix.variants.flatMap fun variant => matrix.seeds.map fun seed =>
    expandedSpec trialJobId "run" "submit" matrix trialBoundContract variant seed

def succeededJobs (matrix : ExperimentMatrix) : List JobRecord :=
  (trialSpecs matrix).map fun spec => { queuedJob spec 0 with status := .succeeded }

theorem allSucceeded_succeededJobs (matrix : ExperimentMatrix) :
    AllSucceeded (trialSpecs matrix) (succeededJobs matrix) := by
  constructor
  · rw [succeededJobs, map_map]
    exact Perm.of_eq (map_id _)
  · intro job hJob
    obtain ⟨spec, _, rfl⟩ := mem_map.mp hJob
    rfl

theorem allEvaluated_succeededJobs {matrix : ExperimentMatrix}
    (h : ∀ job ∈ succeededJobs matrix,
      evaluationArtifacts ((succeededJobs matrix).map trialArtifact) job.jobId =
        [trialArtifact job]) :
    AllEvaluated trialRun trialBoundContract (succeededJobs matrix)
      ((succeededJobs matrix).map trialArtifact) trialReader := by
  refine ⟨"split", by decide, fun job hJob => ?_⟩
  refine ⟨trialArtifact job, _, h job hJob, rfl, by decide, by decide, nofun, rfl⟩

/-- Two variants that differ in the model only. -/
theorem satisfied_of_matrix_iff_trialMatrix :
    CleanReport trialRun trialContract (succeededJobs (trialMatrix [] []))
      ((succeededJobs (trialMatrix [] [])).map trialArtifact) trialReader := by
  have hPreflight : preflightMatrix scalarText trialWorkspace trialBoundContract
      (trialMatrix [] []) = [] := by
    decide +kernel
  have hExpand : expandExperimentMatrix trialJobId "run" "submit" (trialMatrix [] [])
      trialBoundContract = .ok (trialSpecs (trialMatrix [] [])) := by
    decide +kernel
  have hAxis : ∀ r ∈ [trialRequirement], r.acrossJobs = true → OneAxis r (trialMatrix [] []) := by
    unfold OneAxis
    decide +kernel
  refine (satisfied_of_matrix_iff rfl ⟨trialRequirement, by simp, by decide⟩ hPreflight hExpand
    (allSucceeded_succeededJobs _) rfl ?_).mpr hAxis
  exact allEvaluated_succeededJobs (by decide +kernel)

/-- The variants of this matrix also set different learning rates. -/
def unevenMatrix : ExperimentMatrix :=
  trialMatrix [("learning_rate", .scalar (.float "0.1"))]
    [("learning_rate", .scalar (.float "0.2"))]

/-- The preflight admits the matrix, and its comparison cannot succeed. -/
theorem not_satisfied_of_matrix :
    validateMethodologyRequirements [trialRequirement] true = [] ∧
    preflightMatrix scalarText trialWorkspace trialBoundContract unevenMatrix = [] ∧
    expandExperimentMatrix trialJobId "run" "submit" unevenMatrix trialBoundContract =
      .ok (trialSpecs unevenMatrix) ∧
    AllSucceeded (trialSpecs unevenMatrix) (succeededJobs unevenMatrix) ∧
    AllEvaluated trialRun trialBoundContract (succeededJobs unevenMatrix)
      ((succeededJobs unevenMatrix).map trialArtifact) trialReader ∧
    ¬CleanReport trialRun trialContract (succeededJobs unevenMatrix)
      ((succeededJobs unevenMatrix).map trialArtifact) trialReader := by
  refine ⟨by decide +kernel, by decide +kernel, by decide +kernel,
    allSucceeded_succeededJobs _, allEvaluated_succeededJobs (by decide +kernel), ?_⟩
  rintro ⟨report, hReport, hSatisfied, _⟩
  have hVerdict : (buildComparisonReport trialRun trialContract (succeededJobs unevenMatrix)
      ((succeededJobs unevenMatrix).map trialArtifact) trialReader).map (·.satisfied) =
        some false := by
    decide +kernel
  rw [hReport, Option.map_some, hSatisfied] at hVerdict
  cases hVerdict

end Glasslab.Comparison
