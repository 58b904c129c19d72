import Glasslab.Comparison.Matrix
import Glasslab.Foundation.FirstFree
import Glasslab.Foundation.Spacing

/-!
# The variants of the matrix template

`_matrix_template_variants` of `app/engine.py` and `variant_name_from_value` of
`app/matrix_naming.py`: the variants that an agent is shown for a comparison across jobs, one for
each value that is to be compared.

A name is a slug of the value, cut to 63 characters, and a name that is taken gets a number, for
which the slug is cut further. A number of 62 digits leaves no character of the slug, and what is
left is no name. So the template is valid as long as no such number is needed, which is so below `10
^ 61` variants (`template_valid`, `long_template_invalid`).
-/

namespace Glasslab.Comparison

open Foundation Methodology List

def variantNameMaxLength : Nat := 63

/-- `[a-z0-9]`. -/
def isNameHead (c : Char) : Bool := ('a' ≤ c ∧ c ≤ 'z') ∨ ('0' ≤ c ∧ c ≤ '9')

/-- `[a-z0-9_-]`. -/
def isNameChar (c : Char) : Bool := isNameHead c ∨ c = '_' ∨ c = '-'

/-- `VARIANT_NAME_PATTERN`. -/
def isVariantName : List Char → Bool
  | [] => false
  | c :: rest => isNameHead c ∧ rest.all isNameChar ∧ rest.length ≤ 62

/-- `re.sub(r'[^a-z0-9_-]+', '-', text)`, after a character that was replaced or not. -/
def replaceOthers : Bool → List Char → List Char
  | _, [] => []
  | inRun, c :: rest =>
    if isNameChar c then c :: replaceOthers false rest
    else if inRun then replaceOthers true rest
    else '-' :: replaceOthers true rest

def isMargin (c : Char) : Bool := c = '-' ∨ c = '_'

/-- `variant_name_from_value`, where `lower` is `str.lower`. -/
def variantNameFromValue (lower : List Char → List Char) (value : String) : String :=
  let slug := (strip isMargin (replaceOthers false (lower value.toList))).take variantNameMaxLength
  if isVariantName slug then String.ofList slug else "candidate"

/-- `text[:stop]`. -/
def sliceTo (stop : Int) (text : List Char) : List Char :=
  if 0 ≤ stop then text.take stop.toNat else text.take (text.length + stop).toNat

def suffixedName (base : String) (suffix : Nat) : String :=
  let marker := '-' :: (toString suffix).toList
  String.ofList (sliceTo (63 - marker.length) base.toList ++ marker)

def freeName (names : List String) (base : String) : Option String :=
  if base ∉ names then some base
  else (firstFree names (suffixedName base) (names.length + 1) 2).map (suffixedName base)

/-- `config_path.split('.')[-1]`. -/
def configLeaf (r : Requirement) : String := (r.keys.getLast?).getD ""

def templateVariant (lower : List Char → List Char) (r : Requirement)
    (variants : List ExperimentVariant) (index : Nat) : Option (List ExperimentVariant) :=
  let value := candidate (configLeaf r) index
  let names := variants.map ExperimentVariant.name
  (freeName names (variantNameFromValue lower value)).map fun name =>
    variants ++ [⟨name, [(r.configPath, .scalar (.str value))]⟩]

def candidateVariant : ExperimentVariant := ⟨"candidate", []⟩

/-- `_matrix_template_variants`; nothing where its loop does not end. -/
def matrixTemplateVariants (lower : List Char → List Char) (requirements : List Requirement) :
    Option (List ExperimentVariant) :=
  if !requirements.any Requirement.acrossJobs then some [candidateVariant]
  else do
    let variants ← (requirements.filter Requirement.acrossJobs).foldlM
      (fun variants r => (List.range' 1 r.minimumDistinctValues).foldlM (templateVariant lower r)
        variants) []
    some (if variants.isEmpty then [candidateVariant] else variants)

/-- The variants are accepted by the schema and pass the check of the preflight. -/
structure ValidTemplate (r : Requirement) (variants : List ExperimentVariant) : Prop where
  distinct : (variants.map ExperimentVariant.name).Nodup
  accepted : ∀ variant ∈ variants, isVariantName variant.name.toList = true
  compared : r.minimumDistinctValues ≤
    (fromkeys (variants.filterMap fun variant =>
      (variantValue r.configPath variant).toOption)).length
  passes : ∀ matrix : ExperimentMatrix, matrix.variants = variants →
    acrossJobsVariantErrors r matrix = []

/-! ## What is a name -/

variable {lower : List Char → List Char} {text : List Char}

section Names

variable {base : String} {suffix : Nat}

theorem isVariantName_iff : isVariantName text = true ↔
    (∃ c ∈ text.head?, isNameHead c = true) ∧ (∀ c ∈ text, isNameChar c = true) ∧
      text.length ≤ 63 := by
  cases text with
  | nil => simp [isVariantName]
  | cons c rest =>
    have hHead : isNameHead c = true → isNameChar c = true := by
      intro h
      simp [isNameChar, h]
    simp only [isVariantName, decide_eq_true_eq, all_eq_true, List.head?_cons,
      Option.mem_some_iff, exists_eq_left', forall_mem_cons, length_cons]
    constructor
    · rintro ⟨hc, hRest, hLength⟩
      exact ⟨hc, ⟨hHead hc, hRest⟩, by omega⟩
    · rintro ⟨hc, ⟨-, hRest⟩, hLength⟩
      exact ⟨hc, hRest, by omega⟩

theorem isVariantName_variantNameFromValue {value : String} :
    isVariantName (variantNameFromValue lower value).toList = true := by
  unfold variantNameFromValue
  dsimp only
  split
  next hName => rwa [String.toList_ofList]
  next => decide

theorem isNameChar_of_digit {c : Char} (h : c ∈ Nat.toDigits 10 suffix) :
    isNameChar c = true ∧ c ≠ '-' := by
  have hDigit := Nat.isDigit_of_mem_toDigits (by decide) (by decide) h
  simp only [Char.isDigit, Bool.and_eq_true, decide_eq_true_eq] at hDigit
  refine ⟨?_, ?_⟩
  · have hRange : '0' ≤ c ∧ c ≤ '9' := hDigit
    simp [isNameChar, isNameHead, hRange]
  · rintro rfl
    exact absurd hDigit (by decide)

theorem toList_suffixedName : (suffixedName base suffix).toList =
    sliceTo (63 - ((Nat.toDigits 10 suffix).length + 1)) base.toList ++
      '-' :: Nat.toDigits 10 suffix := by
  simp [suffixedName]

theorem suffixedName_injective (base : String) : Function.Injective (suffixedName base) := by
  intro i j h
  have hLists := congrArg (fun name => name.toList.reverse) h
  simp only [toList_suffixedName, reverse_append, reverse_cons, append_assoc,
    singleton_append] at hLists
  have hFree (n : Nat) : '-' ∉ (Nat.toDigits 10 n).reverse := by
    intro hMem
    exact (isNameChar_of_digit (mem_reverse.mp hMem)).2 rfl
  have hDigits := reverse_injective (append_cons_inj (hFree i) (hFree j) hLists).1
  rw [← Nat.ofDigitChars_ten_toDigits (n := i), hDigits, Nat.ofDigitChars_ten_toDigits]

/-- A number of up to 61 digits leaves the first character of the slug. -/
theorem isVariantName_suffixedName_iff (h : isVariantName base.toList = true) :
    isVariantName (suffixedName base suffix).toList = true ↔ suffix < 10 ^ 61 := by
  obtain ⟨⟨c, hHead, hc⟩, hChars, hLength⟩ := isVariantName_iff.mp h
  have hDigits : (Nat.toDigits 10 suffix).length ≤ 61 ↔ suffix < 10 ^ 61 :=
    Nat.length_toDigits_le_iff (by decide) (by decide)
  rw [← hDigits, toList_suffixedName]
  obtain ⟨rest, hRest⟩ : ∃ rest, base.toList = c :: rest := List.head?_eq_some_iff.mp hHead
  have hMarker : ∀ d ∈ Nat.toDigits 10 suffix, isNameChar d = true :=
    fun d hd => (isNameChar_of_digit hd).1
  generalize Nat.toDigits 10 suffix = digits at hMarker ⊢
  constructor
  · intro hName
    obtain ⟨⟨d, hFirst, hd⟩, -, hTotal⟩ := isVariantName_iff.mp hName
    rw [length_append, length_cons] at hTotal
    by_contra hLong
    -- 62 digits take all of the 63 characters, and the name begins with the hyphen
    rw [sliceTo, if_pos (by omega), show (63 - (digits.length + 1 : Int)).toNat = 0 by omega,
      take_zero, nil_append, List.head?_cons] at hFirst
    obtain rfl := Option.some.inj hFirst
    exact absurd hd (by decide)
  · intro hShort
    rw [isVariantName_iff, sliceTo, if_pos (by omega), hRest]
    have hStop : (63 - (digits.length + 1 : Int)).toNat = 62 - digits.length := by omega
    rw [hStop]
    refine ⟨⟨c, ?_, hc⟩, ?_, ?_⟩
    · obtain ⟨k, hk⟩ : ∃ k, 62 - digits.length = k + 1 := ⟨61 - digits.length, by omega⟩
      rw [hk, take_succ_cons]
      rfl
    · intro d hd
      rcases mem_append.mp hd with hTaken | hAdded
      · exact hChars d (hRest ▸ mem_of_mem_take hTaken)
      · rcases mem_cons.mp hAdded with rfl | hDigit
        · decide
        · exact hMarker d hDigit
    · rw [length_append, length_take, length_cons, length_cons]
      omega

theorem freeName_spec {names : List String} {name : String} (h : freeName names base = some name) :
    name ∉ names ∧ (name = base ∨
      ∃ suffix, 2 ≤ suffix ∧ suffix ≤ names.length + 2 ∧ name = suffixedName base suffix) := by
  unfold freeName at h
  split at h
  next hFree =>
    obtain rfl := Option.some.inj h
    exact ⟨hFree, .inl rfl⟩
  next =>
    obtain ⟨suffix, hFound, rfl⟩ := Option.map_eq_some_iff.mp h
    obtain ⟨hFree, hLe, hLt⟩ := free_of_firstFree hFound
    exact ⟨hFree, .inr ⟨suffix, hLe, by omega, rfl⟩⟩

theorem exists_freeName (names : List String) (base : String) :
    ∃ name, freeName names base = some name := by
  unfold freeName
  split
  · exact ⟨base, rfl⟩
  · obtain ⟨suffix, hFound⟩ : ∃ suffix,
        firstFree names (suffixedName base) (names.length + 1) 2 = some suffix :=
      exists_firstFree (suffixedName_injective base) (by omega)
    exact ⟨_, Option.map_eq_some_iff.mpr ⟨suffix, hFound, rfl⟩⟩

end Names

section Template

variable {r : Requirement} {requirements : List Requirement} {variants : List ExperimentVariant}
  {n : Nat}

structure Shows (lower : List Char → List Char) (r : Requirement) (n : Nat)
    (variants : List ExperimentVariant) : Prop where
  overrides : variants.map ExperimentVariant.overrides = (List.range' 1 n).map fun index =>
    [(r.configPath, .scalar (.str (candidate (configLeaf r) index)))]
  distinct : (variants.map ExperimentVariant.name).Nodup
  names : ∀ variant ∈ variants, ∃ index base,
    base = variantNameFromValue lower (candidate (configLeaf r) index) ∧
      (variant.name = base ∨
        ∃ suffix, 2 ≤ suffix ∧ suffix ≤ n + 1 ∧ variant.name = suffixedName base suffix)

theorem Shows.length (h : Shows lower r n variants) : variants.length = n := by
  have hLengths := congrArg List.length h.overrides
  simpa using hLengths

theorem shows_templateVariant (h : Shows lower r n variants) :
    ∃ next, templateVariant lower r variants (1 + n) = some next ∧
      Shows lower r (n + 1) next := by
  obtain ⟨name, hName⟩ := exists_freeName (variants.map ExperimentVariant.name)
    (variantNameFromValue lower (candidate (configLeaf r) (1 + n)))
  obtain ⟨hFree, hForm⟩ := freeName_spec hName
  rw [length_map, h.length] at hForm
  refine ⟨_, Option.map_eq_some_iff.mpr ⟨name, hName, rfl⟩, ?_, ?_, ?_⟩
  · rw [map_append, h.overrides, List.range'_concat, map_append, Nat.one_mul]
    rfl
  · rw [map_append, map_singleton, nodup_append]
    refine ⟨h.distinct, nodup_singleton _, ?_⟩
    rintro other hOther _ hLast rfl
    rw [mem_singleton.mp hLast] at hOther
    exact hFree hOther
  · intro variant hVariant
    rcases mem_append.mp hVariant with hOld | hNew
    · obtain ⟨index, base, hBase, hCases⟩ := h.names variant hOld
      refine ⟨index, base, hBase, hCases.imp_right ?_⟩
      rintro ⟨suffix, hLow, hHigh, hSame⟩
      exact ⟨suffix, hLow, by omega, hSame⟩
    · obtain rfl := mem_singleton.mp hNew
      refine ⟨1 + n, _, rfl, hForm.imp_right ?_⟩
      rintro ⟨suffix, hLow, hHigh, hSame⟩
      exact ⟨suffix, hLow, by omega, hSame⟩

theorem exists_shows (lower : List Char → List Char) (r : Requirement) (n : Nat) :
    ∃ variants, (List.range' 1 n).foldlM (templateVariant lower r) [] = some variants ∧
      Shows lower r n variants := by
  induction n with
  | zero =>
    refine ⟨[], rfl, rfl, nodup_nil, ?_⟩
    intro variant hVariant
    cases hVariant
  | succ n ih =>
    obtain ⟨variants, hLoop, hShows⟩ := ih
    obtain ⟨next, hNext, hShows'⟩ := shows_templateVariant hShows
    refine ⟨next, ?_, hShows'⟩
    rw [List.range'_concat, foldlM_append, hLoop, Nat.one_mul]
    simpa using hNext

theorem exists_template (hOnly : requirements.filter Requirement.acrossJobs = [r]) :
    ∃ variants, matrixTemplateVariants lower requirements = some variants ∧
      Shows lower r r.minimumDistinctValues variants := by
  obtain ⟨variants, hLoop, hShows⟩ := exists_shows lower r r.minimumDistinctValues
  have hAny : requirements.any Requirement.acrossJobs = true := by
    rw [any_eq_true]
    have hMem : r ∈ requirements.filter Requirement.acrossJobs := by
      rw [hOnly]
      exact mem_singleton_self r
    exact ⟨r, mem_filter.mp hMem⟩
  have hNonempty : variants ≠ [] := by
    rintro rfl
    have hLength := hShows.length
    have hPos := r.minimum_pos
    rw [length_nil] at hLength
    omega
  refine ⟨variants, ?_, hShows⟩
  unfold matrixTemplateVariants
  rw [hAny, hOnly]
  simp [hLoop, hNonempty]

theorem variantValues_of_shows (h : Shows lower r n variants) :
    variants.map (variantValue r.configPath) =
      (List.range' 1 n).map fun index => .ok (candidate (configLeaf r) index) := by
  have hMap := congrArg (List.map fun overrides =>
    variantValue r.configPath ⟨"", overrides⟩) h.overrides
  rw [map_map, map_map] at hMap
  refine Eq.trans ?_ (hMap.trans ?_)
  · rfl
  · apply map_congr_left
    simp [variantValue, isScalar, Scalar.text]

theorem fromkeys_of_nodup {values : List String} (h : values.Nodup) : fromkeys values = values := by
  induction values with
  | nil => rfl
  | cons value rest ih =>
    obtain ⟨hNot, hRest⟩ := nodup_cons.mp h
    rw [fromkeys, ih hRest, filter_eq_self.mpr]
    intro other hOther
    apply decide_eq_true
    rintro rfl
    exact hNot hOther

theorem nodup_candidates (leaf : String) (n : Nat) :
    ((List.range' 1 n).map (candidate leaf)).Nodup :=
  Nodup.map (candidate_injective leaf) nodup_range'

theorem selected_of_shows (h : Shows lower r n variants) :
    (variants.map (variantValue r.configPath)).filterMap errorOf = [] ∧
      (fromkeys ((variants.map (variantValue r.configPath)).filterMap Except.toOption)).length =
        n := by
  rw [variantValues_of_shows h]
  constructor
  · rw [filterMap_map, filterMap_eq_nil_iff]
    intro index _
    rfl
  · have hValues : ((List.range' 1 n).map fun index =>
        (.ok (candidate (configLeaf r) index) : Except PreflightError String)).filterMap
          Except.toOption = (List.range' 1 n).map (candidate (configLeaf r)) := by
      rw [filterMap_map, ← filterMap_eq_map]
      rfl
    rw [hValues, fromkeys_of_nodup (nodup_candidates _ n), length_map, length_range']

/-- The preflight finds nothing wrong with the variants. -/
theorem acrossJobsVariantErrors_of_shows (h : Shows lower r r.minimumDistinctValues variants)
    (hMaximum : ∀ maximum ∈ r.maximumDistinctValues, r.minimumDistinctValues ≤ maximum)
    {matrix : ExperimentMatrix} (hMatrix : matrix.variants = variants) :
    acrossJobsVariantErrors r matrix = [] := by
  obtain ⟨hErrors, hCount⟩ := selected_of_shows h
  unfold acrossJobsVariantErrors
  dsimp only
  rw [hMatrix, hErrors, hCount, if_neg (lt_irrefl _), nil_append, nil_append]
  cases hGiven : r.maximumDistinctValues with
  | none => rfl
  | some maximum => exact if_neg (not_lt.mpr (hMaximum maximum hGiven))

theorem validTemplate_of_shows (h : Shows lower r r.minimumDistinctValues variants)
    (hMaximum : ∀ maximum ∈ r.maximumDistinctValues, r.minimumDistinctValues ≤ maximum)
    (hBound : r.minimumDistinctValues ≤ 10 ^ 61 - 2) : ValidTemplate r variants where
  distinct := h.distinct
  accepted := by
    intro variant hVariant
    obtain ⟨index, base, rfl, hName | ⟨suffix, -, hSuffix, hName⟩⟩ := h.names variant hVariant
    · rw [hName]
      exact isVariantName_variantNameFromValue
    · rw [hName, isVariantName_suffixedName_iff isVariantName_variantNameFromValue]
      omega
  compared := by
    have hCount := (selected_of_shows h).2
    rw [filterMap_map] at hCount
    exact hCount.ge
  passes _ hMatrix := acrossJobsVariantErrors_of_shows h hMaximum hMatrix

/-- The template of a contract with one comparison across jobs is valid, if it has fewer values than
there are numbers that leave a name. -/
theorem template_valid (lower : List Char → List Char)
    (hOnly : requirements.filter Requirement.acrossJobs = [r])
    (hMaximum : ∀ maximum ∈ r.maximumDistinctValues, r.minimumDistinctValues ≤ maximum)
    (hBound : r.minimumDistinctValues ≤ 10 ^ 61 - 2) :
    ∃ variants, matrixTemplateVariants lower requirements = some variants ∧
      ValidTemplate r variants := by
  obtain ⟨variants, hTemplate, hShows⟩ := exists_template hOnly
  exact ⟨variants, hTemplate, validTemplate_of_shows hShows hMaximum hBound⟩

end Template

def acrossJobsRequirement (configPath : String) (minimum : Nat) (hPath : configPath ≠ "")
    (hMinimum : 1 ≤ minimum) : Requirement where
  requirementId := "methods"
  configPath := configPath
  mode := .comparison
  explicitScope := some .acrossJobs
  minimumDistinctValues := minimum
  description := "Compare the methods."
  requirementId_ne := by decide
  configPath_ne := hPath
  description_ne := by decide
  minimum_pos := hMinimum
  maximum_pos := one_le_of_mem_none

theorem template_valid_three :
    ∃ variants, matrixTemplateVariants (List.map Char.toLower)
        [acrossJobsRequirement "experiment_dimensions.Model Kind" 3 (by decide) (by decide)] =
          some variants ∧
      ValidTemplate
        (acrossJobsRequirement "experiment_dimensions.Model Kind" 3 (by decide) (by decide))
        variants :=
  template_valid _ rfl (by simp [acrossJobsRequirement]) (by decide)

section Long

theorem replaceOthers_of_nameChars (h : ∀ c ∈ text, isNameChar c = true) :
    replaceOthers false text = text := by
  induction text with
  | nil => rfl
  | cons c rest ih =>
    rw [forall_mem_cons] at h
    rw [replaceOthers, if_pos h.1, ih h.2]

theorem toLower_of_nameChar {c : Char} (h : isNameChar c = true) : c.toLower = c := by
  have hLower : ¬ ('A' ≤ c ∧ c ≤ 'Z') := by
    rintro ⟨hLow, hHigh⟩
    simp only [isNameChar, isNameHead, decide_eq_true_eq] at h
    rcases h with (⟨hSmall, -⟩ | ⟨-, hDigit⟩) | rfl | rfl
    · exact absurd (hSmall.trans hHigh) (by decide)
    · exact absurd (hLow.trans hDigit) (by decide)
    · exact absurd hHigh (by decide)
    · exact absurd hLow (by decide)
  exact dif_neg hLower

def longLeaf : String := String.ofList (List.replicate 61 'a' ++ ['-', '5'])

theorem variantName_long (index : Nat) :
    variantNameFromValue (List.map Char.toLower) (candidate longLeaf index) = longLeaf := by
  have hValue : (candidate longLeaf index).toList =
      longLeaf.toList ++ ("-candidate-".toList ++ Nat.toDigits 10 index) := by
    simp [candidate]
  have hChars : ∀ c ∈ (candidate longLeaf index).toList, isNameChar c = true := by
    have hFixed : (longLeaf.toList ++ "-candidate-".toList).all isNameChar = true := by
      decide +kernel
    intro c hc
    rw [hValue, ← append_assoc] at hc
    rcases mem_append.mp hc with hFront | hDigit
    · exact all_eq_true.mp hFixed c hFront
    · exact (isNameChar_of_digit hDigit).1
  have hLower : (candidate longLeaf index).toList.map Char.toLower =
      (candidate longLeaf index).toList := by
    refine (map_congr_left fun c hc => ?_).trans (map_id _)
    exact toLower_of_nameChar (hChars c hc)
  have hStrip : strip isMargin (candidate longLeaf index).toList =
      (candidate longLeaf index).toList := by
    apply strip_of_ends
    · intro c hc
      rw [hValue, show longLeaf.toList = 'a' :: (List.replicate 60 'a' ++ ['-', '5']) by
        decide +kernel] at hc
      obtain rfl := Option.some.inj hc
      decide
    · intro c hc
      have hDigits : Nat.toDigits 10 index ≠ [] :=
        ne_nil_of_length_pos Nat.length_toDigits_pos
      rw [hValue, ← append_assoc, List.getLast?_append_of_ne_nil _ hDigits] at hc
      have hDigit := mem_of_getLast? hc
      have hNumber := Nat.isDigit_of_mem_toDigits (by decide) (by decide) hDigit
      apply decide_eq_false
      rintro (rfl | rfl)
      · exact absurd hNumber (by decide)
      · exact absurd hNumber (by decide)
  have hCut : (candidate longLeaf index).toList.take variantNameMaxLength = longLeaf.toList := by
    rw [hValue]
    exact take_left' (by decide +kernel)
  unfold variantNameFromValue
  rw [hLower, replaceOthers_of_nameChars hChars, hStrip, hCut, if_pos (by decide +kernel),
    String.ofList_toList]

theorem length_le_of_numbered {names : List String} {name : Nat → String} {bound : Nat}
    (hNodup : names.Nodup) (h : ∀ n ∈ names, ∃ i, 2 ≤ i ∧ i < bound ∧ n = name i) :
    names.length ≤ bound - 2 := by
  have hSubset : names ⊆ (List.range' 2 (bound - 2)).map name := by
    intro n hn
    obtain ⟨i, hLow, hHigh, rfl⟩ := h n hn
    refine mem_map.mpr ⟨i, ?_, rfl⟩
    rw [mem_range'_1]
    omega
  have hLength := (hNodup.subperm hSubset).length_le
  rwa [length_map, length_range'] at hLength

/-- All slugs are one, which is itself numbered: one value more than the bound is too many. -/
theorem long_template_invalid :
    ∃ variants, matrixTemplateVariants (List.map Char.toLower)
        [acrossJobsRequirement longLeaf (10 ^ 61 - 1) (by decide +kernel) (by decide)] =
          some variants ∧
      ¬ ValidTemplate (acrossJobsRequirement longLeaf (10 ^ 61 - 1) (by decide +kernel) (by decide))
        variants := by
  set r := acrossJobsRequirement longLeaf (10 ^ 61 - 1) (by decide +kernel) (by decide) with hr
  obtain ⟨variants, hTemplate, hShows⟩ := @exists_template (List.map Char.toLower) r [r] rfl
  refine ⟨variants, hTemplate, fun hValid => ?_⟩
  have hLeaf : configLeaf r = longLeaf := by
    have hKeys : (segments longLeaf).getLast?.getD "" = longLeaf := by
      decide +kernel
    exact hKeys
  have hName : isVariantName longLeaf.toList = true := by
    decide +kernel
  have hOwn : longLeaf = suffixedName longLeaf 5 := by
    decide +kernel
  have hNumbered : ∀ n ∈ variants.map ExperimentVariant.name,
      ∃ i, 2 ≤ i ∧ i < 10 ^ 61 ∧ n = suffixedName longLeaf i := by
    intro n hn
    obtain ⟨variant, hVariant, rfl⟩ := mem_map.mp hn
    have hAccepted := hValid.accepted variant hVariant
    obtain ⟨index, base, hBase, hForm⟩ := hShows.names variant hVariant
    rw [hLeaf, variantName_long] at hBase
    rw [hBase] at hForm
    rcases hForm with hPlain | ⟨suffix, hLow, -, hSuffix⟩
    · exact ⟨5, by omega, by omega, hPlain.trans hOwn⟩
    · rw [hSuffix, isVariantName_suffixedName_iff hName] at hAccepted
      exact ⟨suffix, hLow, hAccepted, hSuffix⟩
  have hCount := length_le_of_numbered hValid.distinct hNumbered
  rw [length_map, hShows.length] at hCount
  have hMinimum : r.minimumDistinctValues = 10 ^ 61 - 1 := rfl
  omega

end Long

end Glasslab.Comparison
