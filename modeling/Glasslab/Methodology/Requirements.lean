import Glasslab.Foundation.Document

/-!
# Methodology requirements

A contract may require that certain settings of an experiment's `base_config` hold enough distinct
values. `app/methodology_requirement_validation.py` checks such a list of requirements when a
contract is sealed, and the requirement loop of `preflight_matrix` in `app/preflight.py` checks a
configuration against it. Errors are named by a constructor for each message of the source.
-/

namespace Glasslab.Methodology

open Foundation List

instance lawfulBEqText : LawfulBEq (List Char) := inferInstance

/-- The scalars of a YAML file. A float is kept as its text. -/
inductive Scalar where
  | null
  | bool (b : Bool)
  | int (i : Int)
  | float (text : String)
  | str (s : String)
  /-- A date, a timestamp or binary data, as its text. -/
  | other (text : String)
  deriving DecidableEq, Repr

/-- `str(value)` of a scalar. -/
def Scalar.text : Scalar → String
  | null => "None"
  | bool true => "True"
  | bool false => "False"
  | int i => toString i
  | float text | str text | other text => text

abbrev ConfigValue := Document Scalar

abbrev Config := Document.Entries Scalar

/-- `str(value)`, for values that are scalars. -/
def scalarText : ConfigValue → String
  | .scalar s => s.text
  | .list _ | .map _ => ""

def isScalar : ConfigValue → Bool
  | .scalar (.bool _) | .scalar (.int _) | .scalar (.float _) | .scalar (.str _) => true
  | _ => false

/-- `list(dict.fromkeys(values))`. -/
def fromkeys : List String → List String
  | [] => []
  | value :: rest => value :: (fromkeys rest).filter (· ≠ value)

theorem mem_fromkeys {values : List String} {value : String} :
    value ∈ fromkeys values ↔ value ∈ values := by
  induction values with
  | nil => simp [fromkeys]
  | cons first rest ih =>
    by_cases h : value = first
    · simp [fromkeys, h]
    · simp [fromkeys, h, ih]

theorem nodup_fromkeys (values : List String) : (fromkeys values).Nodup := by
  induction values with
  | nil => exact nodup_nil
  | cons first rest ih =>
    refine nodup_cons.mpr ⟨?_, ih.filter _⟩
    simp

theorem length_fromkeys (values : List String) :
    (fromkeys values).length = values.toFinset.card := by
  rw [← toFinset_card_of_nodup (nodup_fromkeys values)]
  congr 1
  ext value
  simp [mem_fromkeys]

inductive Mode where
  | comparison
  | decision
  deriving DecidableEq, Repr

inductive Scope where
  | withinJob
  | acrossJobs
  deriving DecidableEq, Repr

/-- `MethodologyRequirement`, with the checks of its fields. -/
structure Requirement where
  requirementId : String
  configPath : String
  mode : Mode
  /-- The scope, where it is given. -/
  explicitScope : Option Scope := none
  minimumDistinctValues : Nat := 1
  maximumDistinctValues : Option Nat := none
  description : String
  requirementId_ne : requirementId ≠ ""
  configPath_ne : configPath ≠ ""
  description_ne : description ≠ ""
  minimum_pos : 1 ≤ minimumDistinctValues
  maximum_pos : ∀ m ∈ maximumDistinctValues, 1 ≤ m

theorem one_le_of_mem_none : ∀ m ∈ (none : Option Nat), 1 ≤ m := nofun

def segments (path : String) : List String := (path.toList.splitOn '.').map String.ofList

namespace Requirement

variable (r : Requirement)

def comparisonScope : Scope := r.explicitScope.getD .withinJob

/-- A comparison whose methods run in jobs of their own. -/
def acrossJobs : Bool := r.mode = .comparison ∧ r.comparisonScope = .acrossJobs

def keys : List String := segments r.configPath

end Requirement

inductive RequirementError where
  | emptyId
  | duplicateId (requirementId : String)
  | emptyDescription (configPath : String)
  | filesystemPath (configPath : String)
  | separators (configPath : String)
  | emptySegment (configPath : String)
  | foreignRoot (configPath root : String)
  | rootItself (configPath : String)
  | maximumBelowMinimum (configPath : String) (maximum minimum : Nat)
  | scopeOmitted (configPath : String)
  | comparisonMinimum (configPath : String) (minimum : Nat)
  | scopeOfDecision (configPath : String)
  | decisionMinimum (configPath : String) (minimum : Nat)
  | severalAcrossJobs
  | overlap (requirementId configPath otherId otherPath : String)
  deriving DecidableEq, Repr

/-- The characters that `str.strip` removes. -/
def isSpace (c : Char) : Bool :=
  c.toNat ∈ [0x20, 0x85, 0xa0, 0x1680, 0x2028, 0x2029, 0x202f, 0x205f, 0x3000] ∨
    (0x09 ≤ c.toNat ∧ c.toNat ≤ 0x0d) ∨ (0x1c ≤ c.toNat ∧ c.toNat ≤ 0x1f) ∨
    (0x2000 ≤ c.toNat ∧ c.toNat ≤ 0x200a)

/-- `not text.strip()`. -/
def isBlank (text : String) : Bool := text.toList.all isSpace

/-- `Path(path).name`: the last component. -/
def pathName (path : String) : List Char :=
  let parts := (path.toList.splitOn '/').filter fun part => part ≠ [] ∧ part ≠ ['.']
  parts.getLast?.getD []

/-- `Path(path).suffix`: from the last dot of the last component on, if it is neither first nor
last there. -/
def pathSuffix (path : String) : List Char :=
  let name := pathName path
  let extension := name.reverse.takeWhile (· ≠ '.')
  if extension = [] ∨ name.length ≤ extension.length + 1 then [] else '.' :: extension.reverse

def looksLikeFilesystemPath (path : String) : Bool := '/' ∈ path.toList ∧ pathSuffix path ≠ []

def experimentDimensionsRoot : String := "experiment_dimensions"

def configPathErrors (r : Requirement) : List RequirementError :=
  let path := r.configPath
  if looksLikeFilesystemPath path then [.filesystemPath path]
  else if '/' ∈ path.toList ∨ '\\' ∈ path.toList ∨ path.toList.head? = some '.' ∨
      path.toList.getLast? = some '.' then
    [.separators path]
  else if (segments path).any isBlank then [.emptySegment path]
  else if (segments path).head? ≠ some experimentDimensionsRoot then
    [.foreignRoot path ((segments path).head?.getD "")]
  else if (segments path).length < 2 then [.rootItself path]
  else []

def requirementModeErrors (requireExplicitScope : Bool) (r : Requirement) :
    List RequirementError :=
  let minimum := r.minimumDistinctValues
  (match r.maximumDistinctValues with
    | some maximum =>
      if maximum < minimum then [.maximumBelowMinimum r.configPath maximum minimum] else []
    | none => []) ++
  match r.mode with
  | .comparison =>
    (if requireExplicitScope ∧ r.explicitScope = none then [.scopeOmitted r.configPath] else []) ++
      if minimum < 2 then [.comparisonMinimum r.configPath minimum] else []
  | .decision =>
    (if r.explicitScope ≠ none then [.scopeOfDecision r.configPath] else []) ++
      if minimum ≠ 1 then [.decisionMinimum r.configPath minimum] else []

def requirementIdentityErrors (r : Requirement) (seenIds : List String) : List RequirementError :=
  (if isBlank r.requirementId then [.emptyId]
    else if r.requirementId ∈ seenIds then [.duplicateId r.requirementId]
    else []) ++
    if isBlank r.description then [.emptyDescription r.configPath] else []

def acrossJobsCountErrors (requirements : List Requirement) : List RequirementError :=
  if 1 < (requirements.filter Requirement.acrossJobs).length then [.severalAcrossJobs] else []

def dottedPathsOverlap (first second : String) : Bool :=
  let a := segments first
  let b := segments second
  if b.length < a.length then a.take b.length = b else b.take a.length = a

def comparisonPathOverlapErrors (requirements : List Requirement) : List RequirementError :=
  let comparisons := requirements.zipIdx.filter fun p => p.1.mode = .comparison
  comparisons.flatMap fun (r, index) =>
    if r.comparisonScope ≠ .acrossJobs then []
    else comparisons.flatMap fun (other, otherIndex) =>
      if otherIndex = index then []
      else if !dottedPathsOverlap r.configPath other.configPath then []
      else [.overlap r.requirementId r.configPath other.requirementId other.configPath]

/-- The loop of `validate_methodology_requirements`, with the ids it has seen. -/
def requirementErrors (requireExplicitScope : Bool) :
    List Requirement → List String → List RequirementError
  | [], _ => []
  | r :: rest, seenIds =>
    requirementIdentityErrors r seenIds ++ configPathErrors r ++
      requirementModeErrors requireExplicitScope r ++
      requirementErrors requireExplicitScope rest
        (if isBlank r.requirementId ∨ r.requirementId ∈ seenIds then seenIds
          else r.requirementId :: seenIds)

def validateMethodologyRequirements (requirements : List Requirement)
    (requireExplicitScope : Bool) : List RequirementError :=
  requirementErrors requireExplicitScope requirements [] ++ acrossJobsCountErrors requirements ++
    comparisonPathOverlapErrors requirements

section Accepted

variable {requirements : List Requirement} {explicit : Bool} {r other : Requirement}

theorem dottedPathsOverlap_eq_false :
    dottedPathsOverlap r.configPath other.configPath = false ↔
    Document.Apart r.keys other.keys := by
  simp only [dottedPathsOverlap, Document.Apart, Requirement.keys]
  set a := segments r.configPath
  set b := segments other.configPath
  split
  next hLength =>
    have hNot : ¬a <+: b := fun h => absurd h.length_le (by omega)
    simp only [hNot, not_false_eq_true, true_and, decide_eq_false_iff_not, prefix_iff_eq_take]
    exact not_congr eq_comm
  next hLength =>
    simp only [decide_eq_false_iff_not]
    constructor
    · intro hTake
      refine ⟨fun h => hTake (prefix_iff_eq_take.mp h).symm, fun h => hTake ?_⟩
      have hEq : b = a := h.eq_of_length (le_antisymm h.length_le (by omega))
      rw [hEq, take_length]
    · rintro ⟨hNot, _⟩ hTake
      exact hNot (prefix_iff_eq_take.mpr hTake.symm)

/-- The checks of one requirement, read off the loop. -/
theorem modeErrors_of_requirementErrors {seenIds : List String}
    (h : requirementErrors explicit requirements seenIds = []) (hMem : r ∈ requirements) :
    requirementModeErrors explicit r = [] := by
  induction requirements generalizing seenIds with
  | nil => cases hMem
  | cons first rest ih =>
    simp only [requirementErrors, append_eq_nil_iff] at h
    rcases mem_cons.mp hMem with rfl | hMem
    · exact h.1.2
    · exact ih h.2 hMem

theorem decision_of_valid (h : validateMethodologyRequirements requirements explicit = [])
    (hMem : r ∈ requirements) (hMode : r.mode = .decision) :
    r.minimumDistinctValues = 1 ∧ r.acrossJobs = false := by
  simp only [validateMethodologyRequirements, append_eq_nil_iff] at h
  have hErrors := modeErrors_of_requirementErrors h.1.1 hMem
  simp only [requirementModeErrors, hMode, append_eq_nil_iff] at hErrors
  refine ⟨?_, by simp [Requirement.acrossJobs, hMode]⟩
  by_contra hMinimum
  have hLast := hErrors.2.2
  rw [if_pos hMinimum] at hLast
  cases hLast

/-- Two requirements of an accepted list that cannot be met at one place or one below the other. -/
def Compatible (r other : Requirement) : Prop :=
  r.acrossJobs = true ∨ other.acrossJobs = true → r.mode = .comparison → other.mode = .comparison →
    Document.Apart r.keys other.keys

theorem overlapErrors_nil (h : comparisonPathOverlapErrors requirements = []) {i j : Nat}
    (hr : (r, i) ∈ requirements.zipIdx) (hOther : (other, j) ∈ requirements.zipIdx) (hij : i ≠ j)
    (hAcross : r.acrossJobs = true) (hMode : other.mode = .comparison) :
    Document.Apart r.keys other.keys := by
  have hBoth : r.mode = .comparison ∧ r.comparisonScope = .acrossJobs := by
    simpa [Requirement.acrossJobs] using hAcross
  simp only [comparisonPathOverlapErrors, flatMap_eq_nil_iff, mem_filter,
    decide_eq_true_eq, Prod.forall] at h
  have hOuter := h r i ⟨hr, hBoth.1⟩
  rw [if_neg (by simp [hBoth.2])] at hOuter
  simp only [flatMap_eq_nil_iff, mem_filter, decide_eq_true_eq, Prod.forall] at hOuter
  have hInner := hOuter other j ⟨hOther, hMode⟩
  rw [if_neg (Ne.symm hij)] at hInner
  rw [← dottedPathsOverlap_eq_false]
  by_contra hOverlap
  simp [hOverlap] at hInner

theorem compatible_of_valid (h : validateMethodologyRequirements requirements explicit = []) :
    requirements.Pairwise Compatible := by
  simp only [validateMethodologyRequirements, append_eq_nil_iff] at h
  rw [pairwise_iff_getElem]
  intro i j hi hj hij hAcross hMode hOtherMode
  have hFirst : (requirements[i], i) ∈ requirements.zipIdx :=
    mk_mem_zipIdx_iff_getElem?.mpr (List.getElem?_eq_getElem hi)
  have hSecond : (requirements[j], j) ∈ requirements.zipIdx :=
    mk_mem_zipIdx_iff_getElem?.mpr (List.getElem?_eq_getElem hj)
  rcases hAcross with hAcross | hAcross
  · exact overlapErrors_nil h.2 hFirst hSecond (by omega) hAcross hOtherMode
  · exact (overlapErrors_nil h.2 hSecond hFirst (by omega) hAcross hMode).symm

end Accepted

end Glasslab.Methodology
