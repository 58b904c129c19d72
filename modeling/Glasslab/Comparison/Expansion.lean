import Glasslab.Comparison.Matrix

/-!
# The jobs of an experiment matrix

`expand_experiment_matrix` of `app/matrix.py` with everything a job spec has, and
`create_job_if_absent`, which queues the jobs of an approved matrix. The key of a job is a hash of
its identity, spelled as JSON with sorted keys, and its id is derived from the key.

A matrix has one job for every variant and seed, and the keys and ids of its jobs tell them apart.
Two expansions share a key only where the identities agree, up to the order of the keys in the
overrides. The jobs are within the constraints of the contract unless an amount is NaN, which no
ceiling refuses (`expansion_exact_iff`).
-/

namespace Glasslab.Comparison

open Foundation Methodology List

/-! ## Jobs -/

structure ApprovedMatrix extends ExperimentMatrix where
  maximumParallelJobs : Nat := 1
  runnerImage : String

/-- A contract with what the jobs take from its descriptor. -/
structure JobContract extends BoundContract where
  manifest : Config
  requiredArtifacts : List String

/-- The `execution` of an expansion: how the jobs of a task run. -/
structure Execution where
  workloadId : Option String := none
  experimentType : Option String := none
  taskBundle : Option (List (String × String)) := none
  sourceBundle : Option (List (String × String)) := none
  workspaceCommand : List String := []
  datasetContracts : List Config := []
  datasetBindings : List (String × String) := []
  taskSpec : Option Config := none

/-- A job spec, with keys in `κ` and ids in `ι`. -/
structure MatrixJob (κ ι : Type) where
  orchestratorJobId : ι
  runId : String
  actionId : String
  variantName : String
  seed : Int
  idempotencyKey : κ
  baseConfig : String
  overrides : Config
  runnerImage : String
  resources : ResourceRequest
  requiredArtifacts : List String
  contract : ContractBinding
  comparisonScope : String
  execution : Execution

/-- SHA-256 of the canonical JSON of a document, and `uuid5` of the name that a key makes. -/
structure JobNaming (κ ι : Type) where
  sha256 : Document Scalar ↪ κ
  uuid5 : κ ↪ ι

def JobIdentity.document (identity : JobIdentity) : Document Scalar :=
  .map [("run_id", .scalar (.str identity.runId)), ("action_id", .scalar (.str identity.actionId)),
    ("variant", .scalar (.str identity.variant)), ("seed", .scalar (.int identity.seed)),
    ("base_config", .scalar (.str identity.baseConfig)), ("overrides", .map identity.overrides),
    ("contract_digest", .scalar (.str identity.contractDigest))]

/-- `resolve_comparison_scope`, of the mappings in a manifest. -/
def resolveComparisonScope : List (Document Scalar) → String
  | [] => "within_job"
  | .map requirement :: rest =>
    if requirement.lookup "mode" = some (.scalar (.str "comparison")) ∧
        requirement.lookup "comparison_scope" = some (.scalar (.str "across_jobs")) then
      "across_jobs"
    else resolveComparisonScope rest
  | _ :: rest => resolveComparisonScope rest

def comparisonScopeForManifest (manifest : Config) : String :=
  match manifest.lookup "methodology_requirements" with
  | some (.list requirements) => resolveComparisonScope requirements
  | _ => "within_job"

section Expansion

variable {κ ι : Type} (naming : JobNaming κ ι)

def JobNaming.idempotencyKey (identity : JobIdentity) : κ :=
  naming.sha256 (identity.document.canonical id)

def jobIdentity (runId actionId : String) (matrix : ApprovedMatrix) (contract : JobContract)
    (variant : ExperimentVariant) (seed : Int) : JobIdentity :=
  ⟨runId, actionId, variant.name, seed, matrix.baseConfig, variant.overrides,
    contract.binding.digest⟩

def matrixJob (runId actionId : String) (matrix : ApprovedMatrix) (contract : JobContract)
    (execution : Execution) (variant : ExperimentVariant) (seed : Int) : MatrixJob κ ι :=
  let idempotencyKey :=
    naming.idempotencyKey (jobIdentity runId actionId matrix contract variant seed)
  { orchestratorJobId := naming.uuid5 idempotencyKey
    runId
    actionId
    variantName := variant.name
    seed
    idempotencyKey
    baseConfig := matrix.baseConfig
    overrides := variant.overrides
    runnerImage := matrix.runnerImage
    resources := matrix.resources
    requiredArtifacts := fromkeys (contract.requiredArtifacts ++ matrix.requiredArtifacts)
    contract := contract.binding
    comparisonScope := comparisonScopeForManifest contract.manifest
    execution }

/-- `expand_experiment_matrix`. -/
def expandMatrixJobs (runId actionId : String) (matrix : ApprovedMatrix) (contract : JobContract)
    (execution : Option Execution) : Except ExpansionError (List (MatrixJob κ ι)) :=
  if matrix.variants.any fun variant => overridesContract (.map variant.overrides) then
    .error .contractOverride
  else if !(reservedArtifacts matrix.toExperimentMatrix).isEmpty then
    .error (.reserved (reservedArtifacts matrix.toExperimentMatrix))
  else if matrix.resources.exceeds contract.resourceConstraints then .error .exceedsConstraints
  else
    .ok <| matrix.variants.flatMap fun variant => matrix.seeds.map fun seed =>
      matrixJob naming runId actionId matrix contract (execution.getD {}) variant seed

end Expansion

structure JobRow (κ ι : Type) where
  status : JobStatus
  job : MatrixJob κ ι

section Queue

variable {κ ι : Type} [DecidableEq κ]

def createJobIfAbsent (rows : List (JobRow κ ι)) (job : MatrixJob κ ι) : List (JobRow κ ι) :=
  if job.idempotencyKey ∈ rows.map fun row => row.job.idempotencyKey then rows
  else rows ++ [⟨.queued, job⟩]

/-- The loop of `_submit_matrix`. -/
def queueJobs (rows : List (JobRow κ ι)) (jobs : List (MatrixJob κ ι)) : List (JobRow κ ι) :=
  jobs.foldl createJobIfAbsent rows

variable {jobs : List (MatrixJob κ ι)} {rows : List (JobRow κ ι)}

theorem queueJobs_eq_self
    (h : ∀ job ∈ jobs, job.idempotencyKey ∈ rows.map fun row => row.job.idempotencyKey) :
    queueJobs rows jobs = rows := by
  induction jobs with
  | nil => rfl
  | cons job jobs ih =>
    show queueJobs (createJobIfAbsent rows job) jobs = rows
    rw [createJobIfAbsent, if_pos (h job mem_cons_self)]
    exact ih fun other hOther => h other (mem_cons_of_mem _ hOther)

theorem mem_keys_queueJobs {key : κ}
    (h : key ∈ rows.map
    (fun row => row.job.idempotencyKey) ∨ key ∈ jobs.map MatrixJob.idempotencyKey) :
    key ∈ (queueJobs rows jobs).map fun row => row.job.idempotencyKey := by
  induction jobs generalizing rows with
  | nil =>
    rcases h with hRow | hJob
    · exact hRow
    · cases hJob
  | cons job jobs ih =>
    refine ih ?_
    by_cases hRest : key ∈ jobs.map MatrixJob.idempotencyKey
    · exact .inr hRest
    · left
      have hHere :
          key ∈ rows.map (fun row => row.job.idempotencyKey) ∨ key = job.idempotencyKey := by
        simpa [hRest] using h
      unfold createJobIfAbsent
      split
      next hTaken =>
        rcases hHere with hRow | rfl
        · exact hRow
        · exact hTaken
      next =>
        rw [map_append, mem_append]
        exact hHere.imp id fun hSame => by simp [hSame]

end Queue

/-- Two documents are the same up to the order of their keys. -/
def SameJson (d d' : Document Scalar) : Prop := d.canonical id = d'.canonical id

theorem identity_of_sameJson {a b : JobIdentity} (h : SameJson a.document b.document) :
    a.runId = b.runId ∧ a.actionId = b.actionId ∧ a.variant = b.variant ∧ a.seed = b.seed ∧
      a.baseConfig = b.baseConfig ∧ SameJson (.map a.overrides) (.map b.overrides) ∧
      a.contractDigest = b.contractDigest := by
  have hKeys : ∀ identity : JobIdentity, (identity.document.entries.map Prod.fst).Nodup := by
    intro identity
    show ["run_id", "action_id", "variant", "seed", "base_config", "overrides",
      "contract_digest"].Nodup
    decide
  have hSame := Document.lookup_of_canonical_eq (hKeys a) (hKeys b) h
  simp only [JobIdentity.document, Document.entries, lookup_cons_if] at hSame
  refine ⟨?_, ?_, ?_, ?_, ?_, ?_, ?_⟩
  · simpa [Document.canonical] using hSame "run_id"
  · simpa [Document.canonical] using hSame "action_id"
  · simpa [Document.canonical] using hSame "variant"
  · simpa [Document.canonical] using hSame "seed"
  · simpa [Document.canonical] using hSame "base_config"
  · have hOverrides := hSame "overrides"
    simp only [String.reduceEq, if_false, if_true, Option.map_some, Option.some.injEq] at hOverrides
    exact hOverrides
  · simpa [Document.canonical] using hSame "contract_digest"

/-! ## Expansion -/

def NoNaN (r : ResourceRequest) : Prop := r.cpu ≠ .nan ∧ r.memoryGib ≠ .nan

/-- What does not exceed a ceiling is within it exactly if everything compares. -/
theorem within_iff_of_not_exceeds {requested ceiling : ResourceRequest}
    (h : requested.exceeds ceiling = false) :
    requested.within ceiling = true ↔ NoNaN requested ∧ NoNaN ceiling := by
  unfold ResourceRequest.exceeds at h
  simp only [Bool.or_eq_false_iff, decide_eq_false_iff_not, Nat.not_lt] at h
  obtain ⟨⟨⟨hCpu, hMemory⟩, hGpus⟩, hTime⟩ := h
  rw [ResourceRequest.within_iff, Float64.le_iff, Float64.le_iff]
  constructor
  · rintro ⟨⟨hCpuIn, hCpuTop, _⟩, ⟨hMemoryIn, hMemoryTop, _⟩, _⟩
    exact ⟨⟨hCpuIn, hMemoryIn⟩, hCpuTop, hMemoryTop⟩
  · rintro ⟨⟨hCpuIn, hMemoryIn⟩, hCpuTop, hMemoryTop⟩
    exact ⟨⟨hCpuIn, hCpuTop, hCpu⟩, ⟨hMemoryIn, hMemoryTop, hMemory⟩, hGpus, hTime⟩

section Exact

variable {κ ι : Type} {naming : JobNaming κ ι} {runId actionId : String} {matrix : ApprovedMatrix}
  {contract : JobContract} {execution : Option Execution} {jobs : List (MatrixJob κ ι)}

theorem expandMatrixJobs_eq_ok
    (h : expandMatrixJobs naming runId actionId matrix contract execution = .ok jobs) :
    matrix.resources.exceeds contract.resourceConstraints = false ∧
      jobs = (matrix.variants ×ˢ matrix.seeds).map fun p =>
        matrixJob naming runId actionId matrix contract (execution.getD {}) p.1 p.2 := by
  unfold expandMatrixJobs at h
  split at h
  next => cases h
  next =>
    split at h
    next => cases h
    next =>
      split at h
      next => cases h
      next hWithin =>
        cases h
        refine ⟨Bool.eq_false_of_not_eq_true hWithin, ?_⟩
        simp only [SProd.sprod, List.product, map_flatMap, map_map]
        rfl

theorem map_name_product (matrix : ApprovedMatrix) :
    (matrix.variants ×ˢ matrix.seeds).map (fun p => (p.1.name, p.2)) =
      matrix.variants.map ExperimentVariant.name ×ˢ matrix.seeds := by
  simp only [SProd.sprod, List.product, map_flatMap, flatMap_map, map_map]
  rfl

theorem nodup_names_seeds (matrix : ApprovedMatrix) :
    ((matrix.variants ×ˢ matrix.seeds).map fun p => (p.1.name, p.2)).Nodup := by
  rw [map_name_product]
  exact matrix.names_nodup.product matrix.seeds_nodup

variable {runId' actionId' : String} {matrix' : ApprovedMatrix} {contract' : JobContract}
  {execution' : Option Execution} {jobs' : List (MatrixJob κ ι)}

section

variable (h : expandMatrixJobs naming runId actionId matrix contract execution = .ok jobs)
include h

/-- Jobs of two expansions with one key have one identity. -/
theorem agree_of_key_eq
    (h' : expandMatrixJobs naming runId' actionId' matrix' contract' execution' = .ok jobs')
    {job job' : MatrixJob κ ι} (hJob : job ∈ jobs) (hJob' : job' ∈ jobs')
    (hKey : job.idempotencyKey = job'.idempotencyKey) :
    job.runId = job'.runId ∧ job.actionId = job'.actionId ∧ job.variantName = job'.variantName ∧
      job.seed = job'.seed ∧ job.baseConfig = job'.baseConfig ∧
      SameJson (.map job.overrides) (.map job'.overrides) ∧
      job.contract.digest = job'.contract.digest := by
  obtain ⟨_, rfl⟩ := expandMatrixJobs_eq_ok h
  obtain ⟨_, rfl⟩ := expandMatrixJobs_eq_ok h'
  obtain ⟨p, _, rfl⟩ := mem_map.mp hJob
  obtain ⟨p', _, rfl⟩ := mem_map.mp hJob'
  exact identity_of_sameJson (naming.sha256.injective hKey)

theorem nodup_keys :
    (jobs.map MatrixJob.idempotencyKey).Nodup := by
  obtain ⟨_, rfl⟩ := expandMatrixJobs_eq_ok h
  rw [map_map]
  refine (nodup_names_seeds matrix).of_map _ |>.map_on fun p hp p' hp' hKey => ?_
  obtain ⟨_, _, hName, hSeed, _⟩ := identity_of_sameJson (naming.sha256.injective hKey)
  exact inj_on_of_nodup_map (nodup_names_seeds matrix) hp hp' (Prod.ext hName hSeed)

theorem map_orchestratorJobId :
    jobs.map MatrixJob.orchestratorJobId =
    (jobs.map MatrixJob.idempotencyKey).map naming.uuid5 := by
  obtain ⟨_, rfl⟩ := expandMatrixJobs_eq_ok h
  simp only [map_map]
  rfl

end

variable (naming runId actionId matrix contract execution jobs) in
/-- One job for every variant and seed, with keys and ids that are all different and resources
within the constraints of the contract. Expanding the matrix again gives the same jobs, and queueing
these again changes nothing. A job of any expansion has the key of one of these jobs only if the two
agree in everything the identity has. -/
structure ExactExpansion [DecidableEq κ] : Prop where
  pairs : jobs.map (fun job => (job.variantName, job.seed)) =
    matrix.variants.map ExperimentVariant.name ×ˢ matrix.seeds
  pairs_nodup : (jobs.map fun job => (job.variantName, job.seed)).Nodup
  ids_nodup : (jobs.map MatrixJob.orchestratorJobId).Nodup
  keys_nodup : (jobs.map MatrixJob.idempotencyKey).Nodup
  again : ∀ again, expandMatrixJobs naming runId actionId matrix contract execution = .ok again →
    again = jobs ∧ ∀ rows, queueJobs (queueJobs rows jobs) again = queueJobs rows jobs
  agree : ∀ runId' actionId' matrix' contract' execution' jobs',
    expandMatrixJobs naming runId' actionId' matrix' contract' execution' = .ok jobs' →
    ∀ job ∈ jobs, ∀ job' ∈ jobs', job.idempotencyKey = job'.idempotencyKey →
      job.runId = job'.runId ∧ job.actionId = job'.actionId ∧
        job.variantName = job'.variantName ∧ job.seed = job'.seed ∧
        job.baseConfig = job'.baseConfig ∧
        SameJson (.map job.overrides) (.map job'.overrides) ∧
        job.contract.digest = job'.contract.digest
  within : ∀ job ∈ jobs, job.resources.within contract.resourceConstraints = true

theorem map_variantName_seed
    (h : expandMatrixJobs naming runId actionId matrix contract execution = .ok jobs) :
    jobs.map (fun job => (job.variantName, job.seed)) =
      (matrix.variants ×ˢ matrix.seeds).map fun p => (p.1.name, p.2) := by
  obtain ⟨_, rfl⟩ := expandMatrixJobs_eq_ok h
  rw [map_map]
  rfl

theorem resources_of_mem
    (h : expandMatrixJobs naming runId actionId matrix contract execution = .ok jobs)
    {job : MatrixJob κ ι} (hJob : job ∈ jobs) : job.resources = matrix.resources := by
  obtain ⟨_, rfl⟩ := expandMatrixJobs_eq_ok h
  obtain ⟨p, _, rfl⟩ := mem_map.mp hJob
  rfl

theorem exists_mem_of_expandMatrixJobs
    (h : expandMatrixJobs naming runId actionId matrix contract execution = .ok jobs) :
    ∃ job, job ∈ jobs := by
  obtain ⟨_, rfl⟩ := expandMatrixJobs_eq_ok h
  obtain ⟨variant, hVariant⟩ := exists_mem_of_ne_nil _ matrix.variants_ne
  obtain ⟨seed, hSeed⟩ := exists_mem_of_ne_nil _ matrix.seeds_ne
  exact ⟨_, mem_map_of_mem (pair_mem_product.mpr ⟨hVariant, hSeed⟩)⟩

/-- The jobs of an accepted matrix are within the constraints exactly if no amount is NaN. -/
theorem within_iff_noNaN
    (h : expandMatrixJobs naming runId actionId matrix contract execution = .ok jobs) :
    (∀ job ∈ jobs, job.resources.within contract.resourceConstraints = true) ↔
      NoNaN matrix.resources ∧ NoNaN contract.resourceConstraints := by
  rw [← within_iff_of_not_exceeds (expandMatrixJobs_eq_ok h).1]
  constructor
  · intro hWithin
    obtain ⟨job, hJob⟩ := exists_mem_of_expandMatrixJobs h
    rw [← resources_of_mem h hJob]
    exact hWithin job hJob
  · intro hWithin job hJob
    rw [resources_of_mem h hJob]
    exact hWithin

/-- An accepted matrix is expanded exactly if neither it nor the contract has NaN for an amount. -/
theorem expansion_exact_iff [DecidableEq κ]
    (h : expandMatrixJobs naming runId actionId matrix contract execution = .ok jobs) :
    ExactExpansion naming runId actionId matrix contract execution jobs ↔
      NoNaN matrix.resources ∧ NoNaN contract.resourceConstraints := by
  rw [← within_iff_noNaN h]
  refine ⟨ExactExpansion.within, fun hWithin => ?_⟩
  have hPairs := map_variantName_seed h
  refine
    { pairs := hPairs.trans (map_name_product matrix)
      pairs_nodup := hPairs ▸ nodup_names_seeds matrix
      ids_nodup := ?_
      keys_nodup := nodup_keys h
      again := fun again hAgain => ?_
      agree := fun _ _ _ _ _ _ h' _ hJob _ hJob' hKey => agree_of_key_eq h h' hJob hJob' hKey
      within := hWithin }
  · rw [map_orchestratorJobId h]
    exact (nodup_keys h).map naming.uuid5.injective
  · have hSame : again = jobs := Except.ok.inj (hAgain.symm.trans h)
    refine ⟨hSame, fun rows => ?_⟩
    rw [hSame]
    exact queueJobs_eq_self fun _ hJob => mem_keys_queueJobs (.inr (mem_map_of_mem hJob))

end Exact

def documentNaming : JobNaming (Document Scalar) (Document Scalar) := ⟨.refl _, .refl _⟩

theorem nodup_seeds : [(1 : ℤ), 2].Nodup := by decide

def ratesMatrix : ApprovedMatrix where
  baseConfig := "config.yaml"
  variants :=
    [⟨"slow", [("rate", .scalar (.float "0.1"))]⟩, ⟨"fast", [("rate", .scalar (.float "0.2"))]⟩]
  seeds := [1, 2]
  resources := ⟨.finite 1, .finite 2, 0, 30⟩
  requiredArtifacts := ["metrics.json"]
  variants_ne := by simp
  seeds_ne := List.cons_ne_nil _ _
  seeds_nodup := nodup_seeds
  names_nodup := by decide
  runnerImage := "runner"

def ratesContract : JobContract where
  binding := ⟨"rates", "1.0.0", "digest"⟩
  requirements := some []
  resourceConstraints := ⟨.finite 2, .finite 4, 1, 60⟩
  manifest := []
  requiredArtifacts := ["evaluation.json"]

theorem expand_ratesMatrix (resources : ResourceRequest)
    (h : resources.exceeds ratesContract.resourceConstraints = false) :
    ∃ jobs, expandMatrixJobs documentNaming "run-1" "action-1" { ratesMatrix with resources }
      ratesContract none = .ok jobs := by
  have hVariants : (ratesMatrix.variants.any fun variant =>
      overridesContract (.map variant.overrides)) = false := by decide +kernel
  have hReserved : (reservedArtifacts ratesMatrix.toExperimentMatrix).isEmpty = true := by
    decide +kernel
  have hSame : reservedArtifacts { ratesMatrix.toExperimentMatrix with resources } =
      reservedArtifacts ratesMatrix.toExperimentMatrix := rfl
  simp only [expandMatrixJobs, hVariants, hSame, hReserved, h]
  exact ⟨_, rfl⟩

theorem expansion_exact_iff_ratesMatrix :
    ∃ jobs, expandMatrixJobs documentNaming "run-1" "action-1" ratesMatrix ratesContract none =
        .ok jobs ∧
      ExactExpansion documentNaming "run-1" "action-1" ratesMatrix ratesContract none jobs := by
  obtain ⟨jobs, hJobs⟩ := expand_ratesMatrix ratesMatrix.resources (by decide)
  refine ⟨jobs, hJobs, (expansion_exact_iff hJobs).mpr ?_⟩
  exact ⟨⟨nofun, nofun⟩, nofun, nofun⟩

/-- A matrix that asks for NaN processors, by the text `nan`, is expanded under a ceiling of two. -/
theorem nan_cpu_exceeds_ceiling :
    ∃ jobs, expandMatrixJobs documentNaming "run-1" "action-1"
        { ratesMatrix with resources := ⟨.nan, .finite 2, 0, 30⟩ } ratesContract none = .ok jobs ∧
      ∃ job ∈ jobs, ratesContract.resourceConstraints.cpu = .finite 2 ∧
        job.resources.within ratesContract.resourceConstraints = false := by
  obtain ⟨jobs, hJobs⟩ := expand_ratesMatrix ⟨.nan, .finite 2, 0, 30⟩ (by decide)
  obtain ⟨job, hJob⟩ := exists_mem_of_expandMatrixJobs hJobs
  refine ⟨jobs, hJobs, job, hJob, rfl, ?_⟩
  rw [resources_of_mem hJobs hJob]
  decide

end Glasslab.Comparison
