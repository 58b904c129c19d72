import Glasslab.Methodology.Requirements

/-!
# Repairing the methodology settings of a configuration

`app/methodology_config.py` makes sure that the file named by `base_config` has the shape that the
requirements of the contract ask for, and the requirement loop of `preflight_matrix` checks that
shape.

One pass over the requirements is enough unless one of them is in the way of another, or the value
at the place of a comparison across jobs cannot be brought to a scalar in one step. The validation
of a contract does not exclude the first: it compares the path of a comparison across jobs with the
other comparisons, and no other two paths with one another. It cannot exclude the second.
-/

namespace Glasslab.Methodology

open Foundation List

section Repair

-- `str(value)`
variable (str : ConfigValue → String)

/-- The items that a requirement counts: those of a list, or the value itself. -/
def items : ConfigValue → List ConfigValue
  | .list values => values
  | value => [value]

def distinctStrings (value : ConfigValue) : List String := fromkeys ((items value).map str)

inductive ShapeError where
  | missing (configPath : String)
  | metadataObject (configPath : String)
  | notOneScalar (configPath : String)
  | tooFew (configPath : String) (minimum found : Nat)
  deriving DecidableEq, Repr

/-- The checks of the requirement loop of `preflight_matrix` on the shape of `base_config`. -/
def shapeErrors (config : Config) (r : Requirement) : List ShapeError :=
  match Document.follow r.keys (.map config) with
  | none => [.missing r.configPath]
  | some value =>
    if value.isMap then [.metadataObject r.configPath]
    else if r.acrossJobs then if isScalar value then [] else [.notOneScalar r.configPath]
    else
      let count := (distinctStrings str value).length
      if count < r.minimumDistinctValues then [.tooFew r.configPath r.minimumDistinctValues count]
      else []

def candidate (leaf : String) (index : Nat) : String := leaf ++ "-candidate-" ++ toString index

/-- The loop of `_placeholder_values`. It never runs out of fuel (`length_placeholderValues`). -/
def placeholderLoop (leaf : String) (taken : List String) : Nat → Nat → Nat → List String
  | _, _, 0 => []
  | 0, _, _ => []
  | fuel + 1, index, needed + 1 =>
    if candidate leaf index ∈ taken then placeholderLoop leaf taken fuel (index + 1) (needed + 1)
    else candidate leaf index :: placeholderLoop leaf taken fuel (index + 1) needed

def placeholderValues (leaf : String) (existing : List String) (needed : Nat) : List String :=
  placeholderLoop leaf existing (existing.length + needed) 1 needed

/-- `_ensure_single_scalar`: the value to assign, if any, and the placeholders in it. -/
def ensureSingleScalar (leaf : String) (current : ConfigValue) :
    Option ConfigValue × List String :=
  match current with
  | .scalar .null | .map _ | .list [] =>
    (some (.scalar (.str (candidate leaf 1))), [candidate leaf 1])
  | .list (first :: _) => (some first, [])
  | .scalar _ => (none, [])

def existingValues : ConfigValue → List ConfigValue
  | .map _ => []
  | .list values => values
  | .scalar .null => []
  | value => [value]

/-- The part of `_ensure_requirement` that tops up a list of values. -/
def ensureValues (minimum : Nat) (leaf : String) (current : ConfigValue) :
    Option ConfigValue × List String :=
  let existing := existingValues current
  let distinct := fromkeys (existing.map str)
  let shortfall := minimum - distinct.length
  if shortfall = 0 ∧ current.isMap = false then (none, [])
  else
    let inserted := placeholderValues leaf distinct shortfall
    (some (.list (existing ++ inserted.map fun value => .scalar (.str value))), inserted)

def ensureLeaf (r : Requirement) (leaf : String) (current : ConfigValue) :
    Option ConfigValue × List String :=
  if r.acrossJobs then ensureSingleScalar leaf current
  else ensureValues str r.minimumDistinctValues leaf current

/-- `node.get(leaf)` at the end of the walk: a missing value reads as null. -/
def currentValue (config : Config) (r : Requirement) : ConfigValue :=
  (Document.follow r.keys (.map config)).getD (.scalar .null)

def Requirement.leaf (r : Requirement) : String := r.keys.getLast?.getD ""

def ensureRequirement (config : Config) (r : Requirement) : Config × List String :=
  let change := ensureLeaf str r r.leaf (currentValue config r)
  (Document.put change.1 r.keys config, change.2)

/-- `base_config` on disk. -/
inductive ConfigFile where
  | missing
  /-- Not readable, not YAML, or not a mapping. -/
  | unusable
  | mapping (config : Config)
  deriving DecidableEq

def ConfigFile.load : ConfigFile → Config
  | mapping config => config
  | missing | unusable => []

structure ConfigRepair where
  created : Bool
  changed : Bool
  placeholders : List (String × List String)

/-- The loop of `repair_methodology_settings`. -/
def repairLoop : List Requirement → Config → Bool → List (String × List String) →
    Config × Bool × List (String × List String)
  | [], config, changed, placeholders => (config, changed, placeholders)
  | r :: rest, before, changed, placeholders =>
    let (config, inserted) := ensureRequirement str before r
    repairLoop rest config (changed || !inserted.isEmpty || config != before)
      (if inserted.isEmpty then placeholders else Dict.set r.configPath inserted placeholders)

/-- `repair_methodology_settings`: the file it leaves, and what it reports. -/
def repairMethodologySettings (file : ConfigFile) (requirements : List Requirement) :
    ConfigFile × ConfigRepair :=
  let created : Bool := file = .missing
  let (config, changed, placeholders) := repairLoop str requirements file.load created []
  (if changed then .mapping config else file, ⟨created, changed, placeholders⟩)

end Repair

section Values

theorem candidate_injective (leaf : String) : Function.Injective (candidate leaf) := by
  intro i j h
  have hDigits : Nat.toDigits 10 i = Nat.toDigits 10 j := by
    have hLists := congrArg String.toList h
    simpa [candidate, Nat.toString_eq_ofList_toDigits] using hLists
  rw [← Nat.ofDigitChars_ten_toDigits (n := i), hDigits, Nat.ofDigitChars_ten_toDigits]

section Loop

variable {leaf : String} {taken : List String}

noncomputable def skipped (leaf : String) (taken : List String) (index : Nat) : Finset String :=
  open Classical in taken.toFinset.filter fun value => ∃ i, index ≤ i ∧ value = candidate leaf i

variable {index : Nat}

theorem card_skipped_succ (h : candidate leaf index ∈ taken) :
    (skipped leaf taken (index + 1)).card < (skipped leaf taken index).card := by
  refine Finset.card_lt_card (Finset.ssubset_iff_of_subset ?_ |>.mpr
    ⟨candidate leaf index, ?_, ?_⟩)
  · intro value hValue
    simp only [skipped, Finset.mem_filter] at hValue ⊢
    obtain ⟨hTaken, i, hi, rfl⟩ := hValue
    exact ⟨hTaken, i, by omega, rfl⟩
  · simp only [skipped, Finset.mem_filter, mem_toFinset]
    exact ⟨h, index, le_refl _, rfl⟩
  · simp only [skipped, Finset.mem_filter, not_and, not_exists]
    intro _ i hi hEq
    have := candidate_injective leaf hEq
    omega

theorem card_skipped_mono :
    (skipped leaf taken (index + 1)).card ≤ (skipped leaf taken index).card := by
  refine Finset.card_le_card fun value hValue => ?_
  simp only [skipped, Finset.mem_filter] at hValue ⊢
  obtain ⟨hTaken, i, hi, rfl⟩ := hValue
  exact ⟨hTaken, i, by omega, rfl⟩

variable {needed : Nat} {fuel : Nat}

/-- With fuel for every value it may have to skip, the loop finds all the values it needs. -/
theorem length_placeholderLoop
    (h : (skipped leaf taken index).card + needed ≤ fuel) :
    (placeholderLoop leaf taken fuel index needed).length = needed := by
  induction fuel generalizing index needed with
  | zero =>
    cases needed with
    | zero => rfl
    | succ needed => omega
  | succ fuel ih =>
    cases needed with
    | zero => rfl
    | succ needed =>
      simp only [placeholderLoop]
      split
      next hTaken =>
        have hLess := card_skipped_succ hTaken
        exact ih (by omega)
      next =>
        have hLess : (skipped leaf taken (index + 1)).card ≤ (skipped leaf taken index).card :=
          card_skipped_mono
        rw [length_cons, ih (by omega)]

theorem mem_placeholderLoop {value : String}
    (h : value ∈ placeholderLoop leaf taken fuel index needed) :
    value ∉ taken ∧ ∃ i, index ≤ i ∧ value = candidate leaf i := by
  induction fuel generalizing index needed with
  | zero => cases needed <;> cases h
  | succ fuel ih =>
    cases needed with
    | zero => cases h
    | succ needed =>
      simp only [placeholderLoop] at h
      split at h
      next =>
        obtain ⟨hFree, i, hi, rfl⟩ := ih h
        exact ⟨hFree, i, by omega, rfl⟩
      next hFree =>
        rcases mem_cons.mp h with rfl | h
        · exact ⟨hFree, index, le_refl _, rfl⟩
        · obtain ⟨hFree, i, hi, rfl⟩ := ih h
          exact ⟨hFree, i, by omega, rfl⟩

theorem nodup_placeholderLoop :
    (placeholderLoop leaf taken fuel index needed).Nodup := by
  induction fuel generalizing index needed with
  | zero => cases needed <;> exact nodup_nil
  | succ fuel ih =>
    cases needed with
    | zero => exact nodup_nil
    | succ needed =>
      simp only [placeholderLoop]
      split
      next => exact ih
      next =>
        refine nodup_cons.mpr ⟨fun hMem => ?_, ih⟩
        obtain ⟨_, i, hi, hEq⟩ := mem_placeholderLoop hMem
        have := candidate_injective leaf hEq
        omega

theorem length_placeholderValues (leaf : String) (existing : List String) (needed : Nat) :
    (placeholderValues leaf existing needed).length = needed := by
  refine length_placeholderLoop ?_
  have hSkipped : (skipped leaf existing 1).card ≤ existing.length := by
    classical
    exact (Finset.card_le_card (Finset.filter_subset _ _)).trans (toFinset_card_le _)
  omega

theorem nodup_placeholderValues (leaf : String) (existing : List String) (needed : Nat) :
    (placeholderValues leaf existing needed).Nodup := nodup_placeholderLoop

theorem notMem_of_mem_placeholderValues {existing : List String} {value : String}
    (h : value ∈ placeholderValues leaf existing needed) : value ∉ existing :=
  (mem_placeholderLoop h).1

end Loop

end Values

/-! ## One setting -/

section Leaf

variable {str : ConfigValue → String} {r other : Requirement} {value : ConfigValue}

def newValue (str : ConfigValue → String) (r : Requirement) (value : ConfigValue) : ConfigValue :=
  (ensureLeaf str r r.leaf value).1.getD value

/-- The repair leaves such a value alone. -/
structure Settled (str : ConfigValue → String) (r : Requirement) (value : ConfigValue) : Prop where
  notMap : value.isMap = false
  notNull : value ≠ .scalar .null
  across : r.acrossJobs = true → isScalar value = true
  within : r.acrossJobs = false →
    r.minimumDistinctValues ≤ (distinctStrings str value).length

def Reducible : ConfigValue → Bool
  | .list (first :: _) => isScalar first
  | .list [] | .map _ | .scalar .null => true
  | value => isScalar value

theorem items_of_settled (hMap : value.isMap = false) (hNull : value ≠ .scalar .null) :
    existingValues value = items value := by
  match value with
  | .map _ => cases hMap
  | .list _ => rfl
  | .scalar .null => exact absurd rfl hNull
  | .scalar (.bool _) | .scalar (.int _) | .scalar (.float _) | .scalar (.str _)
  | .scalar (.other _) => rfl

theorem ensureLeaf_of_settled (h : Settled str r value) :
    ensureLeaf str r r.leaf value = (none, []) := by
  unfold ensureLeaf
  split
  next hAcross =>
    have hScalar := h.across hAcross
    match value with
    | .map _ => cases hScalar
    | .list _ => cases hScalar
    | .scalar .null => cases hScalar
    | .scalar (.bool _) | .scalar (.int _) | .scalar (.float _) | .scalar (.str _) => rfl
    | .scalar (.other _) => cases hScalar
  next hWithin =>
    rw [Bool.not_eq_true] at hWithin
    have hEnough := h.within hWithin
    rw [distinctStrings, ← items_of_settled h.notMap h.notNull] at hEnough
    unfold ensureValues
    rw [if_pos ⟨by omega, h.notMap⟩]

theorem ne_null_of_ensureLeaf (h : (ensureLeaf str r r.leaf value).1 = none) :
    value ≠ .scalar .null := by
  rintro rfl
  unfold ensureLeaf at h
  split at h
  · cases h
  · have hMinimum := r.minimum_pos
    simp only [ensureValues, existingValues, map_nil, fromkeys, length_nil,
      Nat.sub_zero] at h
    rw [if_neg (by omega)] at h
    cases h

theorem length_distinct_append {existing : List ConfigValue} {inserted : List String}
    (hStr : ∀ s, str (.scalar (.str s)) = s) (hNodup : inserted.Nodup)
    (hFree : ∀ value ∈ inserted, value ∉ fromkeys (existing.map str)) :
    (fromkeys ((existing ++ inserted.map fun value => Document.scalar (Scalar.str value)).map
      str)).length = (fromkeys (existing.map str)).length + inserted.length := by
  have hInserted : (inserted.map fun value => (Document.scalar (Scalar.str value))).map str =
      inserted := by
    rw [map_map]
    conv_rhs => rw [← map_id inserted]
    exact map_congr_left fun value _ => hStr value
  rw [map_append, hInserted, length_fromkeys, length_fromkeys, toFinset_append,
    Finset.card_union_of_disjoint, toFinset_card_of_nodup hNodup]
  rw [Finset.disjoint_left]
  intro value hExisting hNew
  rw [mem_toFinset] at hExisting hNew
  exact hFree value hNew (mem_fromkeys.mpr hExisting)

theorem ensureLeaf_of_within (hWithin : r.acrossJobs = false) :
    ensureLeaf str r r.leaf value = ensureValues str r.minimumDistinctValues r.leaf value := by
  rw [ensureLeaf, hWithin]
  rfl

/-- Topping up a list of values leaves enough of them. -/
theorem settled_newValue_of_within (hStr : ∀ s, str (.scalar (.str s)) = s)
    (hWithin : r.acrossJobs = false) : Settled str r (newValue str r value) := by
  unfold newValue
  rw [ensureLeaf_of_within hWithin]
  unfold ensureValues
  dsimp only
  split
  next hDone =>
    have hNull : value ≠ .scalar .null :=
      ne_null_of_ensureLeaf <| by
        rw [ensureLeaf_of_within hWithin]
        unfold ensureValues
        rw [if_pos hDone]
    refine ⟨hDone.2, hNull, fun hAcross => ?_, fun _ => ?_⟩
    · rw [hWithin] at hAcross
      cases hAcross
    · show r.minimumDistinctValues ≤ (distinctStrings str value).length
      rw [distinctStrings, ← items_of_settled hDone.2 hNull]
      omega
  next =>
    refine ⟨rfl, nofun, fun hAcross => ?_, fun _ => ?_⟩
    · rw [hWithin] at hAcross
      cases hAcross
    · have hLength := length_placeholderValues r.leaf (fromkeys ((existingValues value).map str))
        (r.minimumDistinctValues - (fromkeys ((existingValues value).map str)).length)
      simp only [Option.getD_some, distinctStrings, items]
      rw [length_distinct_append hStr (nodup_placeholderValues _ _ _)
        fun _ hMem => notMem_of_mem_placeholderValues hMem]
      omega

theorem newValue_of_across (hAcross : r.acrossJobs = true) :
    newValue str r value = ((ensureSingleScalar r.leaf value).1).getD value := by
  rw [newValue, ensureLeaf, hAcross]
  rfl

theorem isScalar_newValue_of_across (hAcross : r.acrossJobs = true) :
    isScalar (newValue str r value) = Reducible value := by
  rw [newValue_of_across hAcross]
  match value with
  | .map _ => rfl
  | .list [] => rfl
  | .list (_ :: _) => rfl
  | .scalar .null => rfl
  | .scalar (.bool _) | .scalar (.int _) | .scalar (.float _) | .scalar (.str _)
  | .scalar (.other _) => rfl

theorem notMap_of_isScalar (h : isScalar value = true) :
    value.isMap = false ∧ value ≠ .scalar .null := by
  match value with
  | .map _ => cases h
  | .list _ => cases h
  | .scalar .null => cases h
  | .scalar (.bool _) | .scalar (.int _) | .scalar (.float _) | .scalar (.str _) =>
    exact ⟨rfl, nofun⟩
  | .scalar (.other _) => cases h

theorem settled_newValue_of_across (hAcross : r.acrossJobs = true) (h : Reducible value = true) :
    Settled str r (newValue str r value) := by
  have hScalar : isScalar (newValue str r value) = true := by
    rw [isScalar_newValue_of_across hAcross, h]
  obtain ⟨hMap, hNull⟩ := notMap_of_isScalar hScalar
  refine ⟨hMap, hNull, fun _ => hScalar, fun hWithin => ?_⟩
  rw [hAcross] at hWithin
  cases hWithin

end Leaf

end Glasslab.Methodology
