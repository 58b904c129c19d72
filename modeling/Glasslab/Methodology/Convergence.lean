import Glasslab.Methodology.Repair

/-!
# One pass of the repair is enough

The docstring of `repair_methodology_settings` calls the repair bounded and idempotent: a pass
leaves every setting in the shape that the preflight asks for, so that a second pass has nothing to
do. For the requirements of an accepted contract, this is so exactly when no path is a proper
beginning of another one and the value at the place of a comparison across jobs can be brought to a
scalar in one step (`repaired_iff`).
-/

namespace Glasslab.Methodology

open Foundation List

section Pass

variable {str : ConfigValue → String} {r x : Requirement} {value : ConfigValue} {config : Config}
  {requirements : List Requirement} {explicit : Bool} {file : ConfigFile}

theorem keys_ne_nil (r : Requirement) : r.keys ≠ [] := by
  intro h
  exact splitOnP_ne_nil _ _ (map_eq_nil_iff.mp h)

theorem follow_ensureRequirement :
    Document.follow r.keys (.map (ensureRequirement str config r).1) =
      some (newValue str r (currentValue config r)) := by
  unfold ensureRequirement newValue
  dsimp only
  cases hChange : (ensureLeaf str r r.leaf (currentValue config r)).1 with
  | some v => exact Document.follow_put_self (keys_ne_nil r)
  | none =>
    -- only a value that is there is left alone
    have hNull := ne_null_of_ensureLeaf hChange
    cases hFollow : Document.follow r.keys (.map config) with
    | none =>
      rw [currentValue, hFollow] at hNull
      exact absurd rfl hNull
    | some v =>
      rw [Document.put_none (by rw [hFollow]; rfl), hFollow, currentValue, hFollow]
      rfl

theorem currentValue_ensureRequirement :
    currentValue (ensureRequirement str config r).1 r =
      newValue str r (currentValue config r) := by
  rw [currentValue, follow_ensureRequirement]
  rfl

theorem currentValue_congr (hKeys : r.keys = x.keys) :
    currentValue config r = currentValue config x := by
  rw [currentValue, currentValue, hKeys]

theorem ensureRequirement_of_settled (h : Settled str r (currentValue config r)) :
    ensureRequirement str config r = (config, []) := by
  have hSome : (Document.follow r.keys (.map config)).isSome = true := by
    cases hFollow : Document.follow r.keys (.map config) with
    | none =>
      have hNull := h.notNull
      rw [currentValue, hFollow] at hNull
      exact absurd rfl hNull
    | some v => rfl
  unfold ensureRequirement
  rw [ensureLeaf_of_settled h]
  exact Prod.ext (Document.put_none hSome) rfl

theorem shapeErrors_of_settled (h : Settled str r (currentValue config r)) :
    shapeErrors str config r = [] := by
  obtain ⟨hMap, hNull, hAcross, hWithin⟩ := h
  unfold shapeErrors
  cases hFollow : Document.follow r.keys (.map config) with
  | none =>
    rw [currentValue, hFollow] at hNull
    exact absurd rfl hNull
  | some v =>
    simp only [currentValue, hFollow, Option.getD_some] at hMap hAcross hWithin
    dsimp only
    rw [if_neg (by simp [hMap])]
    split
    next hJobs => rw [if_pos (hAcross hJobs)]
    next hJobs =>
      rw [Bool.not_eq_true] at hJobs
      have hEnough := hWithin hJobs
      rw [if_neg (by omega)]

/-- What a passed check says of the place of a requirement. -/
theorem of_shapeErrors_nil (h : shapeErrors str config r = []) :
    ∃ v, Document.follow r.keys (.map config) = some v ∧ v.isMap = false ∧
      (r.acrossJobs = true → isScalar v = true) := by
  unfold shapeErrors at h
  cases hFollow : Document.follow r.keys (.map config) with
  | none =>
    rw [hFollow] at h
    cases h
  | some v =>
    rw [hFollow] at h
    dsimp only at h
    refine ⟨v, rfl, ?_, fun hAcross => ?_⟩
    · by_contra hMap
      rw [Bool.not_eq_false] at hMap
      rw [if_pos hMap] at h
      cases h
    · by_contra hScalar
      split at h
      · cases h
      · cases h

/-! ## Requirements at one place -/

/-- At most one of two requirements at one place is a comparison if one of them is across jobs, and
a decision asks for one value. -/
structure Peaceful (r x : Requirement) : Prop where
  decision : r.acrossJobs = true ∨ x.acrossJobs = true → r.mode = .decision ∨ x.mode = .decision
  left : r.mode = .decision → r.minimumDistinctValues = 1 ∧ r.acrossJobs = false
  right : x.mode = .decision → x.minimumDistinctValues = 1 ∧ x.acrossJobs = false

theorem Peaceful.symm (h : Peaceful r x) : Peaceful x r :=
  ⟨fun hAcross => (h.decision hAcross.symm).symm, h.right, h.left⟩

/-- Beside a comparison across jobs there are only decisions. -/
theorem Peaceful.of_across (h : Peaceful r x) (hAcross : r.acrossJobs = true) :
    x.minimumDistinctValues = 1 ∧ x.acrossJobs = false := by
  rcases h.decision (.inl hAcross) with hMode | hMode
  · have hNot := (h.left hMode).2
    rw [hAcross] at hNot
    cases hNot
  · exact h.right hMode

theorem length_distinctStrings_of_isScalar (h : isScalar value = true) :
    (distinctStrings str value).length = 1 := by
  match value with
  | .map _ => cases h
  | .list _ => cases h
  | .scalar .null => cases h
  | .scalar (.bool _) | .scalar (.int _) | .scalar (.float _) | .scalar (.str _) => rfl
  | .scalar (.other _) => cases h

theorem newValue_of_settled (h : Settled str r value) : newValue str r value = value := by
  rw [newValue, ensureLeaf_of_settled h]
  rfl

theorem le_distinctStrings_newValue (hStr : ∀ s, str (.scalar (.str s)) = s)
    (hWithin : r.acrossJobs = false) (hMap : value.isMap = false) (hNull : value ≠ .scalar .null) :
    (distinctStrings str value).length ≤ (distinctStrings str (newValue str r value)).length := by
  unfold newValue
  rw [ensureLeaf_of_within hWithin]
  unfold ensureValues
  dsimp only
  split
  next => exact le_refl _
  next =>
    simp only [Option.getD_some, distinctStrings, items]
    rw [length_distinct_append hStr (nodup_placeholderValues _ _ _)
      fun _ hMem => notMem_of_mem_placeholderValues hMem, items_of_settled hMap hNull]
    exact Nat.le_add_right _ _

/-- A requirement that was met stays met through the repair of another one at its place. -/
theorem Settled.newValue (hStr : ∀ s, str (.scalar (.str s)) = s) (hPeace : Peaceful r x)
    (hReducible : r.acrossJobs = true → Reducible value = true) (h : Settled str x value) :
    Settled str x (newValue str r value) := by
  cases hAcross : r.acrossJobs with
  | true =>
    obtain ⟨hMinimum, hJobs⟩ := hPeace.of_across hAcross
    have hNew : Settled str r (Methodology.newValue str r value) :=
      settled_newValue_of_across hAcross (hReducible hAcross)
    refine ⟨hNew.notMap, hNew.notNull, fun hOther => ?_, fun _ => ?_⟩
    · rw [hJobs] at hOther
      cases hOther
    · rw [hMinimum, length_distinctStrings_of_isScalar (hNew.across hAcross)]
  | false =>
    have hNew : Settled str r (Methodology.newValue str r value) :=
      settled_newValue_of_within hStr hAcross
    refine ⟨hNew.notMap, hNew.notNull, fun hJobs => ?_, fun hJobs => ?_⟩
    · -- a scalar is enough for the decision beside it
      obtain ⟨hMinimum, _⟩ := hPeace.symm.of_across hJobs
      have hSettled : Settled str r value := by
        refine ⟨h.notMap, h.notNull, fun hOther => ?_, fun _ => ?_⟩
        · rw [hAcross] at hOther
          cases hOther
        · rw [hMinimum, length_distinctStrings_of_isScalar (h.across hJobs)]
      rw [newValue_of_settled hSettled]
      exact h.across hJobs
    · exact (h.within hJobs).trans
        (le_distinctStrings_newValue hStr hAcross h.notMap h.notNull)

/-- A decision does not change whether a value can be brought to a scalar. -/
theorem reducible_newValue (hMinimum : r.minimumDistinctValues = 1)
    (hWithin : r.acrossJobs = false) : Reducible (newValue str r value) = Reducible value := by
  unfold newValue
  rw [ensureLeaf_of_within hWithin, hMinimum]
  match value with
  | .map _ => rfl
  | .list [] => rfl
  | .list (first :: rest) =>
    simp only [ensureValues, existingValues, map_cons, fromkeys, length_cons]
    rw [if_pos ⟨by omega, rfl⟩]
    rfl
  | .scalar .null => rfl
  | .scalar (.bool _) | .scalar (.int _) | .scalar (.float _) | .scalar (.str _)
  | .scalar (.other _) => rfl

/-- Only a comparison across jobs makes a scalar of something else. -/
theorem isScalar_of_newValue (hWithin : r.acrossJobs = false)
    (h : isScalar (newValue str r value) = true) : isScalar value = true := by
  unfold newValue at h
  rw [ensureLeaf_of_within hWithin] at h
  unfold ensureValues at h
  dsimp only at h
  split at h
  · exact h
  · cases h

def groupValue (str : ConfigValue → String) (group : List Requirement) (value : ConfigValue) :
    ConfigValue :=
  group.foldl (fun v r => newValue str r v) value

variable {group done : List Requirement}

theorem settled_groupValue (hStr : ∀ s, str (.scalar (.str s)) = s)
    (hPeace : group.Pairwise Peaceful) (hDone : ∀ d ∈ done, ∀ r ∈ group, Peaceful r d)
    (hReducible : ∀ r ∈ group, r.acrossJobs = true → Reducible value = true)
    (hSettled : ∀ d ∈ done, Settled str d value) :
    ∀ r, r ∈ done ∨ r ∈ group → Settled str r (groupValue str group value) := by
  induction group generalizing value done with
  | nil =>
    intro r hr
    rcases hr with hr | hr
    · exact hSettled r hr
    · cases hr
  | cons first rest ih =>
    obtain ⟨hFirst, hRest⟩ := pairwise_cons.mp hPeace
    have hStep := hReducible first mem_cons_self
    have hNew : Settled str first (newValue str first value) := by
      cases hAcross : first.acrossJobs with
      | true => exact settled_newValue_of_across hAcross (hStep hAcross)
      | false => exact settled_newValue_of_within hStr hAcross
    have hNext : ∀ r, r ∈ first :: done ∨ r ∈ rest →
        Settled str r (groupValue str rest (newValue str first value)) := by
      apply ih hRest
      · intro d hd r hr
        rcases mem_cons.mp hd with rfl | hd
        · exact (hFirst r hr).symm
        · exact hDone d hd r (mem_cons_of_mem _ hr)
      · intro r hr hAcross
        obtain ⟨hMinimum, hWithin⟩ := (hFirst r hr).symm.of_across hAcross
        rw [reducible_newValue hMinimum hWithin]
        exact hReducible r (mem_cons_of_mem _ hr) hAcross
      · intro d hd
        rcases mem_cons.mp hd with rfl | hd
        · exact hNew
        · exact (hSettled d hd).newValue hStr (hDone d hd first mem_cons_self) hStep
    intro r hr
    refine hNext r ?_
    rcases hr with hr | hr
    · exact .inl (mem_cons_of_mem _ hr)
    · rcases mem_cons.mp hr with rfl | hr
      · exact .inl mem_cons_self
      · exact .inr hr

theorem isScalar_of_groupValue (hWithin : ∀ r ∈ group, r.acrossJobs = false)
    (h : isScalar (groupValue str group value) = true) : isScalar value = true := by
  induction group generalizing value with
  | nil => exact h
  | cons first rest ih =>
    have hRest := ih (fun r hr => hWithin r (mem_cons_of_mem _ hr)) h
    exact isScalar_of_newValue (hWithin first mem_cons_self) hRest

/-- A scalar can only have come from a value that one step brings there. -/
theorem reducible_of_groupValue (hPeace : group.Pairwise Peaceful) (hMem : x ∈ group)
    (hAcross : x.acrossJobs = true) (h : isScalar (groupValue str group value) = true) :
    Reducible value = true := by
  induction group generalizing value with
  | nil => cases hMem
  | cons first rest ih =>
    obtain ⟨hFirst, hRest⟩ := pairwise_cons.mp hPeace
    rcases mem_cons.mp hMem with rfl | hMem
    · have hScalar := isScalar_of_groupValue
        (fun r hr => ((hFirst r hr).of_across hAcross).2) h
      rw [← isScalar_newValue_of_across hAcross]
      exact hScalar
    · obtain ⟨hMinimum, hWithin⟩ := (hFirst x hMem).symm.of_across hAcross
      rw [← reducible_newValue hMinimum hWithin]
      exact ih hRest hMem h

def repaired (str : ConfigValue → String) (requirements : List Requirement) (config : Config) :
    Config :=
  requirements.foldl (fun c r => (ensureRequirement str c r).1) config

variable {changed : Bool} {placeholders : List (String × List String)}

theorem repairLoop_fst :
    (repairLoop str requirements config changed placeholders).1 =
      repaired str requirements config := by
  induction requirements generalizing config changed placeholders with
  | nil => rfl
  | cons first rest ih => exact ih

/-- A pass that does not report a change made none. -/
theorem repaired_of_unchanged
    (h : (repairLoop str requirements config changed placeholders).2.1 = false) :
    changed = false ∧ repaired str requirements config = config := by
  induction requirements generalizing config changed placeholders with
  | nil => exact ⟨h, rfl⟩
  | cons first rest ih =>
    obtain ⟨hChanged, hRest⟩ := ih h
    simp only [Bool.or_eq_false_iff, bne_eq_false_iff_eq] at hChanged
    refine ⟨hChanged.1.1, ?_⟩
    rw [hChanged.2] at hRest
    exact (congrArg (repaired str rest) hChanged.2).trans hRest

theorem repairLoop_of_settled (h : ∀ r ∈ requirements, Settled str r (currentValue config r)) :
    repairLoop str requirements config changed placeholders =
      (config, changed, placeholders) := by
  induction requirements with
  | nil => rfl
  | cons first rest ih =>
    unfold repairLoop
    rw [ensureRequirement_of_settled (h first mem_cons_self)]
    simpa using ih fun r hr => h r (mem_cons_of_mem _ hr)

theorem load_repairMethodologySettings :
    (repairMethodologySettings str file requirements).1.load =
      repaired str requirements file.load := by
  unfold repairMethodologySettings
  dsimp only
  split
  next => exact repairLoop_fst
  next hSame =>
    rw [Bool.not_eq_true] at hSame
    exact (repaired_of_unchanged hSame).2.symm

theorem repairMethodologySettings_ne_missing :
    (repairMethodologySettings str file requirements).1 ≠ .missing := by
  unfold repairMethodologySettings
  dsimp only
  split
  next => nofun
  next hSame =>
    rw [Bool.not_eq_true] at hSame
    exact of_decide_eq_false (repaired_of_unchanged hSame).1

/-- Where the paths of a pass are one place or apart, a place sees the repairs made there. -/
theorem currentValue_repaired
    (hFree : ∀ r ∈ requirements, r.keys = x.keys ∨ Document.Apart r.keys x.keys) :
    currentValue (repaired str requirements config) x =
      groupValue str (requirements.filter fun r => r.keys = x.keys) (currentValue config x) := by
  induction requirements generalizing config with
  | nil => rfl
  | cons first rest ih =>
    have hStep : currentValue (repaired str rest (ensureRequirement str config first).1) x =
        groupValue str (rest.filter fun r => r.keys = x.keys)
          (currentValue (ensureRequirement str config first).1 x) :=
      ih fun r hr => hFree r (mem_cons_of_mem _ hr)
    refine hStep.trans ?_
    rcases hFree first mem_cons_self with hKeys | hApart
    · rw [filter_cons_of_pos (by simpa using hKeys), ← currentValue_congr hKeys,
        currentValue_ensureRequirement, currentValue_congr hKeys]
      rfl
    · have hKeys : first.keys ≠ x.keys := by
        intro hEq
        exact hApart.1 (hEq ▸ prefix_rfl)
      rw [filter_cons_of_neg (by simpa using hKeys)]
      rw [currentValue, ensureRequirement, Document.follow_put_of_apart hApart, currentValue]

/-! ## When a pass is enough -/

/-- What one pass is to achieve: the preflight has nothing to say about a setting, and a second pass
changes nothing. -/
def Repaired (str : ConfigValue → String) (file : ConfigFile)
    (requirements : List Requirement) : Prop :=
  let after := (repairMethodologySettings str file requirements).1
  (∀ r ∈ requirements, shapeErrors str after.load r = []) ∧
    repairMethodologySettings str after requirements = (after, ⟨false, false, []⟩)

/-- No path is a proper beginning of another one, and the place of a comparison across jobs can be
brought to a scalar. -/
def Repairable (file : ConfigFile) (requirements : List Requirement) : Prop :=
  (∀ r ∈ requirements, ∀ other ∈ requirements, r.keys <+: other.keys → r.keys = other.keys) ∧
    ∀ r ∈ requirements, r.acrossJobs = true → Reducible (currentValue file.load r) = true

theorem Repairable.same_or_apart {other : Requirement}
    (hFree : ∀ r ∈ requirements, ∀ other ∈ requirements, r.keys <+: other.keys →
      r.keys = other.keys) (hr : r ∈ requirements) (hOther : other ∈ requirements) :
    r.keys = other.keys ∨ Document.Apart r.keys other.keys := by
  by_cases hKeys : r.keys = other.keys
  · exact .inl hKeys
  · refine .inr ⟨fun h => hKeys (hFree r hr other hOther h), fun h => hKeys ?_⟩
    exact (hFree other hOther r hr h).symm

theorem mode_eq_comparison (h : r.mode ≠ .decision) : r.mode = .comparison := by
  cases hMode : r.mode with
  | comparison => rfl
  | decision => exact absurd hMode h

theorem peaceful_group (hValid : validateMethodologyRequirements requirements explicit = [])
    (keys : List String) :
    (requirements.filter fun r => r.keys = keys).Pairwise Peaceful := by
  have hCompatible := (compatible_of_valid hValid).filter fun r => decide (r.keys = keys)
  refine hCompatible.imp_of_mem fun hr hOther h => ?_
  simp only [mem_filter, decide_eq_true_eq] at hr hOther
  refine ⟨fun hAcross => ?_, decision_of_valid hValid hr.1, decision_of_valid hValid hOther.1⟩
  by_contra hModes
  simp only [not_or] at hModes
  have hApart := h hAcross (mode_eq_comparison hModes.1) (mode_eq_comparison hModes.2)
  rw [hr.2, hOther.2] at hApart
  exact hApart.1 prefix_rfl

theorem mem_group (hr : r ∈ requirements) :
    r ∈ requirements.filter fun other => other.keys = r.keys := by
  simpa using hr

theorem settled_of_repairable (hStr : ∀ s, str (.scalar (.str s)) = s)
    (hValid : validateMethodologyRequirements requirements explicit = [])
    (h : Repairable file requirements) (hr : r ∈ requirements) :
    Settled str r (currentValue (repaired str requirements file.load) r) := by
  rw [currentValue_repaired fun other hOther => Repairable.same_or_apart h.1 hOther hr]
  have hNone : ∀ d ∈ ([] : List Requirement), Settled str d (currentValue file.load r) := nofun
  refine settled_groupValue hStr (peaceful_group hValid r.keys)
    (fun d hd => absurd hd not_mem_nil) ?_ hNone r (.inr (mem_group hr))
  intro other hOther hAcross
  simp only [mem_filter, decide_eq_true_eq] at hOther
  rw [← currentValue_congr hOther.2]
  exact h.2 other hOther.1 hAcross

/-- Below the place of a setting there is no other setting. -/
theorem eq_of_isPrefix {other : Requirement} (hr : shapeErrors str config r = [])
    (hOther : shapeErrors str config other = []) (h : r.keys <+: other.keys) :
    r.keys = other.keys := by
  obtain ⟨rest, hKeys⟩ := h
  obtain ⟨v, hv, hMap, _⟩ := of_shapeErrors_nil hr
  obtain ⟨w, hw, _⟩ := of_shapeErrors_nil hOther
  by_contra hNe
  have hRest : rest ≠ [] := by
    rintro rfl
    exact hNe (by rw [← hKeys, append_nil])
  rw [← hKeys] at hw
  obtain ⟨m, hm, hIsMap⟩ := Document.isMap_of_follow_append hRest hw
  rw [hv] at hm
  cases hm
  rw [hMap] at hIsMap
  cases hIsMap

/-- One pass over the requirements of an accepted contract is enough exactly when none of them is in
the way of another, and the comparison across jobs finds a value that it can bring to a scalar. -/
theorem repaired_iff (hStr : ∀ s, str (.scalar (.str s)) = s)
    (hValid : validateMethodologyRequirements requirements explicit = []) :
    Repaired str file requirements ↔ Repairable file requirements := by
  constructor
  · rintro ⟨hShape, _⟩
    rw [load_repairMethodologySettings] at hShape
    have hFree : ∀ r ∈ requirements, ∀ other ∈ requirements, r.keys <+: other.keys →
        r.keys = other.keys :=
      fun r hr other hOther h => eq_of_isPrefix (hShape r hr) (hShape other hOther) h
    refine ⟨hFree, fun r hr hAcross => ?_⟩
    obtain ⟨v, hFollow, _, hScalar⟩ := of_shapeErrors_nil (hShape r hr)
    have hGroup : currentValue (repaired str requirements file.load) r = _ :=
      currentValue_repaired fun other hOther => Repairable.same_or_apart hFree hOther hr
    rw [currentValue, hFollow, Option.getD_some] at hGroup
    have hEnd := hScalar hAcross
    rw [hGroup] at hEnd
    exact reducible_of_groupValue (peaceful_group hValid r.keys) (mem_group hr) hAcross hEnd
  · intro h
    have hSettled : ∀ r ∈ requirements, Settled str r (currentValue
        (repairMethodologySettings str file requirements).1.load r) := by
      intro r hr
      rw [load_repairMethodologySettings]
      exact settled_of_repairable hStr hValid h hr
    refine ⟨fun r hr => shapeErrors_of_settled (hSettled r hr), ?_⟩
    set after := (repairMethodologySettings str file requirements).1 with hAfter
    have hThere : after ≠ .missing := repairMethodologySettings_ne_missing
    unfold repairMethodologySettings
    dsimp only
    rw [repairLoop_of_settled hSettled]
    simp [hThere]

end Pass

def trialComparison (requirementId configPath : String) (scope : Scope)
    (hId : requirementId ≠ "") (hPath : configPath ≠ "") : Requirement where
  requirementId := requirementId
  configPath := configPath
  mode := .comparison
  explicitScope := some scope
  minimumDistinctValues := 2
  description := "compare"
  requirementId_ne := hId
  configPath_ne := hPath
  description_ne := by decide
  minimum_pos := by decide
  maximum_pos := one_le_of_mem_none

def trialRequirements : List Requirement :=
  [trialComparison "model" "experiment_dimensions.model" .acrossJobs (by decide) (by decide),
    trialComparison "optimizer" "experiment_dimensions.optimizer" .withinJob (by decide)
      (by decide)]

def trialFile : ConfigFile :=
  .mapping [("experiment_dimensions", .map [("model", .list [.scalar (.str "linear"),
    .scalar (.str "forest")])])]

theorem repaired_iff_trialFile : Repaired scalarText trialFile trialRequirements := by
  have hValid : validateMethodologyRequirements trialRequirements true = [] := by decide +kernel
  refine (repaired_iff (fun _ => rfl) hValid).mpr ⟨?_, ?_⟩
  · decide +kernel
  · decide +kernel

/-- The accepted comparison of a setting and of another one below it. -/
def nestedRequirements : List Requirement :=
  [trialComparison "model" "experiment_dimensions.model" .withinJob (by decide) (by decide),
    trialComparison "size" "experiment_dimensions.model.size" .withinJob (by decide) (by decide)]

/-- The pass leaves a mapping at the first place, and the preflight refuses it. -/
theorem not_repaired :
    validateMethodologyRequirements nestedRequirements true = [] ∧
      ¬Repaired scalarText .missing nestedRequirements := by
  refine ⟨by decide +kernel, fun h => ?_⟩
  have hShape := h.1 _ mem_cons_self
  revert hShape
  decide +kernel

end Glasslab.Methodology
