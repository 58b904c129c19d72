import Glasslab.Methodology.Repair
import Glasslab.Comparison.Verdict

/-!
# From an experiment matrix to its comparison

`preflight_matrix` of `app/preflight.py` checks a matrix before it is approved, and
`expand_experiment_matrix` of `app/matrix.py` makes jobs of it. The checks on the overrides of the
variants and the checks on the jobs of the finished comparison were written apart, and only the
second look at the overrides besides the compared one (`satisfied_of_matrix_iff`).
-/

namespace Glasslab.Comparison

open Foundation Methodology

structure ExperimentVariant where
  name : String
  overrides : Config

structure ExperimentMatrix where
  baseConfig : String
  variants : List ExperimentVariant
  seeds : List Int
  resources : ResourceRequest
  requiredArtifacts : List String
  variants_ne : variants ≠ []
  seeds_ne : seeds ≠ []
  seeds_nodup : seeds.Nodup
  names_nodup : (variants.map ExperimentVariant.name).Nodup

structure BoundContract extends ResolvedContract where
  resourceConstraints : ResourceRequest

def orchestratorReservedArtifacts : List (List Char) := ["comparison.json".toList]

def isReservedArtifact (value : String) : Bool :=
  let name := pathName (String.ofList (value.toList.map fun c => if c = '\\' then '/' else c))
  name ∈ orchestratorReservedArtifacts ∨
    ("comparison-".toList <+: name ∧ ".json".toList <:+ name)

def reservedArtifacts (matrix : ExperimentMatrix) : List String :=
  sortOn id (fromkeys (matrix.requiredArtifacts.filter isReservedArtifact))

inductive PreflightError where
  | baseConfigMissing (path : String)
  | baseConfigInvalid (message : String)
  | requirementsInvalid
  | shape (error : ShapeError)
  | tooMany (configPath : String) (maximum found : Nat)
  | emptyOverrides (configPath : String)
  | noOverride (configPath : String)
  | overrideNotScalar (configPath : String)
  | tooFewVariants (configPath : String) (minimum found : Nat)
  | tooManyVariants (configPath : String) (maximum found : Nat)
  | reserved (artifacts : List String)
  | taskSource (finding : String)
  | repeatedSeeds
  | tooFewSeeds (found : Nat)
  deriving DecidableEq, Repr

/-- What the preflight finds on disk. -/
structure Workspace where
  /-- The parsed `base_config`, or the message of its parser, or nothing if there is no file. -/
  baseConfig : Option (Except String Config)
  /-- The findings about the source of an imported task. -/
  sourceFindings : List String := []

def Workspace.config (workspace : Workspace) : Config :=
  match workspace.baseConfig with
  | some (.ok config) => config
  | _ => []

/-- The value that a variant selects. -/
def variantValue (configPath : String) (variant : ExperimentVariant) :
    Except PreflightError String :=
  if variant.overrides.isEmpty then .error (.emptyOverrides configPath)
  else
    match variant.overrides.lookup configPath with
    | none => .error (.noOverride configPath)
    | some (.scalar value) =>
      if isScalar (.scalar value) then .ok value.text else .error (.overrideNotScalar configPath)
    | some _ => .error (.overrideNotScalar configPath)

def errorOf {ε α : Type} : Except ε α → Option ε
  | .error e => some e
  | .ok _ => none

def acrossJobsVariantErrors (r : Requirement) (matrix : ExperimentMatrix) : List PreflightError :=
  let values := matrix.variants.map (variantValue r.configPath)
  let count := (fromkeys (values.filterMap Except.toOption)).length
  values.filterMap errorOf ++
    (if count < r.minimumDistinctValues then
      [.tooFewVariants r.configPath r.minimumDistinctValues count] else []) ++
    match r.maximumDistinctValues with
    | some maximum =>
      if maximum < count then [.tooManyVariants r.configPath maximum count] else []
    | none => []

def requirementPreflight (str : ConfigValue → String) (config : Config)
    (matrix : ExperimentMatrix) (r : Requirement) : List PreflightError :=
  (shapeErrors str config r).map .shape ++
    match Document.follow r.keys (.map config) with
    | none | some (.map _) => []
    | some value =>
      if r.acrossJobs then acrossJobsVariantErrors r matrix
      else
        let count := (distinctStrings str value).length
        match r.maximumDistinctValues with
        | some maximum => if maximum < count then [.tooMany r.configPath maximum count] else []
        | none => []

/-- `value == seed` in Python, where a float is below `10 ** 16`. -/
def equalsSeed : ConfigValue → Int → Bool
  | .scalar (.int i), seed => i = seed
  | .scalar (.bool b), seed => (if b then 1 else 0) = seed
  | .scalar (.float text), seed => text = toString seed ++ ".0" ∨ (text = "-0.0" ∧ seed = 0)
  | _, _ => false

/-- `configured_seeds == matrix.seeds`. -/
def sameSeeds (configured : List ConfigValue) (seeds : List Int) : Bool :=
  configured.length = seeds.length ∧ (configured.zip seeds).all fun p => equalsSeed p.1 p.2

def minComparisonSeeds : Nat := 3

def preflightMatrix (str : ConfigValue → String) (workspace : Workspace)
    (contract : BoundContract) (matrix : ExperimentMatrix) : List PreflightError :=
  let config := workspace.config
  let requirements := contract.requirements.getD []
  (match workspace.baseConfig with
    | none => [.baseConfigMissing matrix.baseConfig]
    | some (.error message) => [.baseConfigInvalid message]
    | some (.ok _) => []) ++
  (if contract.requirements.isNone then [.requirementsInvalid] else []) ++
  requirements.flatMap (requirementPreflight str config matrix) ++
  (if (reservedArtifacts matrix).isEmpty then [] else [.reserved (reservedArtifacts matrix)]) ++
  workspace.sourceFindings.map .taskSource ++
  (match config.lookup "seeds" with
    | some (.list configured) =>
      if 1 < configured.length ∧ sameSeeds configured matrix.seeds then [.repeatedSeeds] else []
    | _ => []) ++
  if (requirements.any fun r => r.mode = .comparison ∧ r.comparisonScope = .withinJob) ∧
      matrix.seeds.length < minComparisonSeeds then
    [.tooFewSeeds matrix.seeds.length] else []

def forbiddenOverrideKeys : List (List Char) :=
  ["contract", "contract_digest", "contract_files", "contract_id", "contract_mount",
    "evaluation_command", "evaluation_contract", "evaluation_entry_point", "evaluator",
    "evaluator_image", "expected_input_schema", "expected_output_schema"].map String.toList

/-- `key.strip().lower()`. The keys to compare with are ASCII, and no other character becomes one
of theirs. -/
def normalizedKey (key : String) : List Char :=
  ((key.toList.dropWhile isSpace).reverse.dropWhile isSpace).reverse.map Char.toLower

mutual

/-- `reject_contract_overrides` raises. -/
def overridesContract : ConfigValue → Bool
  | .scalar _ => false
  | .list items => anyOverridesContract items
  | .map entries => entriesOverrideContract entries

def anyOverridesContract : List ConfigValue → Bool
  | [] => false
  | item :: rest => overridesContract item || anyOverridesContract rest

def entriesOverrideContract : Config → Bool
  | [] => false
  | (key, value) :: rest =>
    forbiddenOverrideKeys.contains (normalizedKey key) || overridesContract value ||
      entriesOverrideContract rest

end

inductive ExpansionError where
  | contractOverride
  | reserved (artifacts : List String)
  | exceedsConstraints
  deriving DecidableEq, Repr

structure JobIdentity where
  runId : String
  actionId : String
  variant : String
  seed : Int
  baseConfig : String
  overrides : Config
  contractDigest : String

section Expansion

-- `uuid5` of the name that the digest of an identity makes
variable (orchestratorJobId : JobIdentity → String)

def expandedSpec (runId actionId : String) (matrix : ExperimentMatrix) (contract : BoundContract)
    (variant : ExperimentVariant) (seed : Int) : ExpandedJobSpec where
  orchestratorJobId := orchestratorJobId
    ⟨runId, actionId, variant.name, seed, matrix.baseConfig, variant.overrides,
      contract.binding.digest⟩
  actionId := actionId
  variantName := variant.name
  seed := seed
  baseConfig := matrix.baseConfig
  overrides := variant.overrides
  contract := contract.binding

/-- Only the overrides of the variants have keys of their own for `reject_contract_overrides`. -/
def expandExperimentMatrix (runId actionId : String) (matrix : ExperimentMatrix)
    (contract : BoundContract) : Except ExpansionError (List ExpandedJobSpec) :=
  if matrix.variants.any fun variant => overridesContract (.map variant.overrides) then
    .error .contractOverride
  else if !(reservedArtifacts matrix).isEmpty then .error (.reserved (reservedArtifacts matrix))
  else if matrix.resources.exceeds contract.resourceConstraints then .error .exceedsConstraints
  else
    .ok <| matrix.variants.flatMap fun variant => matrix.seeds.map fun seed =>
      expandedSpec orchestratorJobId runId actionId matrix contract variant seed

end Expansion

def queuedJob (spec : ExpandedJobSpec) (createdAt : Instant) : JobRecord where
  jobId := spec.orchestratorJobId
  actionId := spec.actionId
  status := .queued
  contract := spec.contract
  variantName := spec.variantName
  seed := spec.seed
  spec := spec
  createdAt := createdAt

end Glasslab.Comparison
