import Glasslab.Foundation.Spacing

/-!
# Names of jobs

`_sanitize_label` and `_build_job_name` of `app/job_submission.py`. Hyphens are stripped before the
text is cut to its length, and dots are not stripped at all, so a label may have either at an end;
and the run id comes last in the name of a job, so it is what is cut off. The names are valid and
distinct exactly where the first text of a workflow id is no dot and at least nine places are left
for the run id (`namesValid_iff`).
-/

namespace Glasslab.WorkflowApi

open Foundation List

/-- `[a-zA-Z0-9-.]` -/
def isNameChar (c : Char) : Bool := c.isAlphanum || c = '-' || c = '.'

/-- `re.sub(r'[^a-zA-Z0-9-.]+', '-', value)`, where a run of others may have been entered. -/
def hyphenate (entered : Bool) : List Char → List Char
  | [] => []
  | c :: rest =>
    if isNameChar c then c :: hyphenate false rest
    else if entered then hyphenate true rest
    else '-' :: hyphenate true rest

def isHyphen (c : Char) : Bool := c = '-'

/-- What is cut to the length of a label. -/
def cleaned (value : List Char) : List Char :=
  (strip isHyphen (hyphenate false value)).map Char.toLower

def sanitizeLabel (value : List Char) : List Char :=
  let label := (cleaned value).take 63
  if label = [] then "run".toList else label

def buildJobName (workflowId runId : List Char) : List Char :=
  let stem := (sanitizeLabel workflowId).map fun c => if c = '.' then '-' else c
  (stem ++ '-' :: runId.take 8).take 63

/-- At most 63 of the allowed characters, with a letter or a digit at both ends. -/
structure ValidName (allowed : Char → Bool) (name : List Char) : Prop where
  ne_nil : name ≠ []
  length_le : name.length ≤ 63
  allowed : ∀ c ∈ name, allowed c = true
  first : ∀ c ∈ name.head?, c.isAlphanum = true
  last : ∀ c ∈ name.getLast?, c.isAlphanum = true

/-- A letter, a digit or a dot. -/
def isText (c : Char) : Bool := c.isAlphanum || c = '.'

/-- `[a-z0-9-]` -/
def isDnsChar (c : Char) : Bool := c.isLower || c.isDigit || c = '-'

def FirstFits (value : List Char) : Prop := '.' ∉ (value.filter isText).head?

/-- The last text of a short value is no dot, and the place at which a long one is cut is no dot or
hyphen. -/
def LastFits (value : List Char) : Prop :=
  if (cleaned value).length ≤ 63 then '.' ∉ (value.filter isText).getLast?
  else ∀ c ∈ (cleaned value)[62]?, c ≠ '.' ∧ c ≠ '-'

def isHexDigit (c : Char) : Bool := c.isDigit || ('a' ≤ c && c ≤ 'f')

structure IsRunId (runId : List Char) : Prop where
  length : 8 ≤ runId.length
  hex : ∀ c ∈ runId, isHexDigit c = true

/-- With these workflow ids, runs that differ in the first eight characters have jobs with different
valid names. -/
def NamesValid (workflowIds : Set (List Char)) : Prop :=
  ∀ w ∈ workflowIds, ∀ w' ∈ workflowIds, ∀ r r', IsRunId r → IsRunId r' → r.take 8 ≠ r'.take 8 →
    buildJobName w r ≠ buildJobName w' r' ∧ ValidName isDnsChar (buildJobName w r) ∧
      ValidName isDnsChar (buildJobName w' r')

/-! ## The characters of a label -/

section Label

variable {value : List Char} {c : Char}

theorem filter_hyphenate (entered : Bool) :
    ((hyphenate entered value).filter fun c => !isHyphen c) = value.filter isText := by
  induction value generalizing entered with
  | nil => rfl
  | cons c rest ih =>
    have hHyphen : isHyphen '-' = true := rfl
    by_cases hc : c = '-'
    · subst hc
      have hName : isNameChar '-' = true := rfl
      have hText : isText '-' = false := rfl
      simp [hyphenate, hName, hText, hHyphen, ih]
    · have hOther : isHyphen c = false := decide_eq_false hc
      have hSame : isNameChar c = isText c := by simp [isNameChar, isText, hc]
      cases hText : isText c <;> cases entered <;>
        simp [hyphenate, hSame, hText, hHyphen, hOther, ih]

theorem isNameChar_of_mem_hyphenate {entered : Bool} (h : c ∈ hyphenate entered value) :
    isNameChar c = true := by
  induction value generalizing entered with
  | nil => cases h
  | cons d rest ih =>
    rw [hyphenate] at h
    split at h
    next hd =>
      rcases mem_cons.mp h with rfl | h
      · exact hd
      · exact ih h
    next =>
      split at h
      next => exact ih h
      next =>
        rcases mem_cons.mp h with rfl | h
        · rfl
        · exact ih h

theorem isLower_or_isDigit_toLower (h : c.isAlphanum = true) :
    (c.toLower.isLower || c.toLower.isDigit) = true := by
  unfold Char.toLower
  split
  next hUpper =>
    have hFrom : 'A'.val.toNat ≤ c.val.toNat := hUpper.1
    have hTo : c.val.toNat ≤ 'Z'.val.toNat := hUpper.2
    have hA : 'A'.val.toNat = 65 := rfl
    have hZ : 'Z'.val.toNat = 90 := rfl
    have ha : 'a'.val.toNat = 97 := rfl
    have hz : 'z'.val.toNat = 122 := rfl
    have hSum : (c.val + ('a'.val - 'A'.val)).toNat = c.val.toNat + 32 := by
      have hShift : ('a'.val - 'A'.val).toNat = 32 := rfl
      rw [UInt32.toNat_add]
      omega
    unfold Char.isLower
    simp only [Bool.or_eq_true, Bool.and_eq_true, decide_eq_true_eq, ge_iff_le,
      UInt32.le_iff_toNat_le]
    omega
  next hUpper =>
    unfold Char.isAlphanum Char.isAlpha Char.isUpper at h
    simp only [Bool.or_eq_true,
      decide_eq_true_eq] at h ⊢
    rcases h with (h | h) | h
    · exact absurd h hUpper
    · exact .inl h
    · exact .inr h

theorem isAlphanum_of_isLower_or_isDigit (h : (c.isLower || c.isDigit) = true) :
    c.isAlphanum = true := by
  rw [Bool.or_eq_true] at h
  unfold Char.isAlphanum Char.isAlpha
  rcases h with h | h <;> simp [h]

theorem of_mem_cleaned (h : c ∈ cleaned value) :
    (c.isLower || c.isDigit) = true ∨ c = '.' ∨ c = '-' := by
  obtain ⟨d, hd, rfl⟩ := mem_map.mp h
  have hMem : d ∈ hyphenate false value := by
    exact (dropWhile_sublist _).subset ((List.rdropWhile_prefix _ _).subset hd)
  have hName := isNameChar_of_mem_hyphenate hMem
  rw [isNameChar, Bool.or_eq_true, Bool.or_eq_true, decide_eq_true_eq, decide_eq_true_eq] at hName
  rcases hName with (hText | rfl) | rfl
  · exact .inl (isLower_or_isDigit_toLower hText)
  · exact .inr (.inr rfl)
  · exact .inr (.inl rfl)

theorem isAlphanum_iff (h : c ∈ cleaned value) : c.isAlphanum = true ↔ c ≠ '.' ∧ c ≠ '-' := by
  rcases of_mem_cleaned h with hText | rfl | rfl
  · refine iff_of_true (isAlphanum_of_isLower_or_isDigit hText) ⟨?_, ?_⟩ <;>
      · rintro rfl
        cases hText
  · exact iff_of_false (by decide) (fun h => h.1 rfl)
  · exact iff_of_false (by decide) (fun h => h.2 rfl)

theorem ends_iff {found : Option Char} (h : ∀ c ∈ found, isText c = true) :
    (∀ c ∈ found.map Char.toLower, c.isAlphanum = true) ↔ '.' ∉ found := by
  cases found with
  | none => exact iff_of_true nofun nofun
  | some c =>
    rcases (by simpa [isText] using h c rfl : c.isAlphanum = true ∨ c = '.') with hText | rfl
    · refine iff_of_true (fun d hd => ?_) (fun hDot => ?_)
      · cases hd
        exact isAlphanum_of_isLower_or_isDigit (isLower_or_isDigit_toLower hText)
      · cases hDot
        cases hText
    · exact iff_of_false (fun h => absurd (h '.' rfl) (by decide)) (fun h => h rfl)

theorem firstFits_iff :
    (∀ c ∈ (cleaned value).head?, c.isAlphanum = true) ↔ FirstFits value := by
  rw [cleaned, List.head?_map, head?_strip, filter_hyphenate]
  exact ends_iff fun c hc => (mem_filter.mp (mem_of_mem_head? hc)).2

theorem lastFits_iff :
    (∀ c ∈ ((cleaned value).take 63).getLast?, c.isAlphanum = true) ↔ LastFits value := by
  unfold LastFits
  split
  next hShort =>
    rw [take_of_length_le hShort, cleaned, List.getLast?_map,
        getLast?_strip, filter_hyphenate]
    exact ends_iff fun c hc => (mem_filter.mp (mem_of_mem_getLast? hc)).2
  next hLong =>
    have hLast : ((cleaned value).take 63).getLast? = (cleaned value)[62]? := by
      rw [List.getLast?_eq_getElem?, length_take, Nat.min_eq_left (by omega)]
      exact List.getElem?_take_of_lt (by decide)
    rw [hLast]
    exact forall₂_congr fun c hc => isAlphanum_iff (mem_of_getElem? hc)

theorem sanitizeLabel_of_ne (h : cleaned value ≠ []) :
    sanitizeLabel value = (cleaned value).take 63 := by
  have hNe : (cleaned value).take 63 ≠ [] := by simp [h]
  exact if_neg hNe

/-- A label is valid just if no end is a dot and none is cut at a dot or a hyphen. -/
theorem validName_sanitizeLabel_iff :
    ValidName isNameChar (sanitizeLabel value) ↔ FirstFits value ∧ LastFits value := by
  rw [← firstFits_iff, ← lastFits_iff]
  by_cases hNil : cleaned value = []
  · have hRun : sanitizeLabel value = ['r', 'u', 'n'] := by simp [sanitizeLabel, hNil]
    rw [hRun, hNil]
    refine iff_of_true ⟨cons_ne_nil _ _, by simp, ?_, ?_, ?_⟩ ⟨nofun, nofun⟩
    · simp [isNameChar]
    · simp
    · simp
  · have hNe : (cleaned value).take 63 ≠ [] := by simp [hNil]
    rw [sanitizeLabel_of_ne hNil]
    constructor
    · intro h
      exact ⟨by simpa [List.head?_take] using h.first, h.last⟩
    · rintro ⟨hFirst, hLast⟩
      refine ⟨hNe, length_take_le _ _, fun c hc => ?_,
        by simpa [List.head?_take] using hFirst, hLast⟩
      rcases of_mem_cleaned (mem_of_mem_take hc) with hText | rfl | rfl
      · simp [isNameChar, isAlphanum_of_isLower_or_isDigit hText]
      · rfl
      · rfl

end Label

/-! ## The names of jobs -/

section Jobs

variable {workflowId runId : List Char} {c : Char}

theorem length_sanitizeLabel_le :
    (sanitizeLabel workflowId).length ≤ max 3 (cleaned workflowId).length := by
  unfold sanitizeLabel
  dsimp only
  split
  next => exact le_max_left _ _
  next => exact (length_take_le' _ _).trans (le_max_right _ _)

theorem sanitizeLabel_ne_nil : sanitizeLabel workflowId ≠ [] := by
  unfold sanitizeLabel
  dsimp only
  split
  next => decide
  next h => exact h

theorem of_mem_sanitizeLabel (h : c ∈ sanitizeLabel workflowId) :
    (c.isLower || c.isDigit) = true ∨ c = '.' ∨ c = '-' := by
  by_cases hNil : cleaned workflowId = []
  · have hRun : sanitizeLabel workflowId = ['r', 'u', 'n'] := by simp [sanitizeLabel, hNil]
    rw [hRun] at h
    simp only [mem_cons, not_mem_nil, or_false] at h
    rcases h with rfl | rfl | rfl <;> exact .inl rfl
  · rw [sanitizeLabel_of_ne hNil] at h
    exact of_mem_cleaned (mem_of_mem_take h)

/-- The part of a name before the run id. -/
def stem (workflowId : List Char) : List Char :=
  (sanitizeLabel workflowId).map fun c => if c = '.' then '-' else c

theorem first_stem_iff :
    (∀ c ∈ (stem workflowId).head?, c.isAlphanum = true) ↔ FirstFits workflowId := by
  rw [← firstFits_iff, stem, List.head?_map]
  by_cases hNil : cleaned workflowId = []
  · have hRun : sanitizeLabel workflowId = ['r', 'u', 'n'] := by simp [sanitizeLabel, hNil]
    rw [hRun, hNil]
    exact iff_of_true (by simp) nofun
  · rw [sanitizeLabel_of_ne hNil, List.head?_take, if_neg (by decide)]
    cases (cleaned workflowId).head? with
    | none => exact iff_of_true nofun nofun
    | some c =>
      by_cases hDot : c = '.'
      · subst hDot
        exact iff_of_false
          (fun h => absurd (h '-' rfl) (by decide)) (fun h => absurd (h '.' rfl) (by decide))
      · simp [hDot]

theorem buildJobName_of_short (h : (cleaned workflowId).length ≤ 54) :
    buildJobName workflowId runId = stem workflowId ++ '-' :: runId.take 8 := by
  have hLabel := @length_sanitizeLabel_le workflowId
  refine take_of_length_le ?_
  rw [length_append, length_map, length_cons, length_take]
  omega

theorem head?_buildJobName : (buildJobName workflowId runId).head? = (stem workflowId).head? := by
  have hName : buildJobName workflowId runId = (stem workflowId ++ '-' :: runId.take 8).take 63 :=
    rfl
  have hNe : stem workflowId ≠ [] := by simp [stem, sanitizeLabel_ne_nil]
  rw [hName, List.head?_take, if_neg (by decide), List.head?_append_of_ne_nil _ hNe]

theorem isRunId_of_all (hLength : 8 ≤ runId.length) (hHex : runId.all isHexDigit = true) :
    IsRunId runId :=
  ⟨hLength, List.all_eq_true.mp hHex⟩

theorem validName_buildJobName (hFirst : FirstFits workflowId)
    (hShort : (cleaned workflowId).length ≤ 54) (hRun : IsRunId runId) :
    ValidName isDnsChar (buildJobName workflowId runId) := by
  have hHex {c : Char} (hc : c ∈ runId.take 8) : (c.isLower || c.isDigit) = true := by
    have hDigit := hRun.hex c (mem_of_mem_take hc)
    rw [isHexDigit, Bool.or_eq_true] at hDigit
    rcases hDigit with hDigit | hLetter
    · rw [hDigit, Bool.or_true]
    · rw [Bool.and_eq_true, decide_eq_true_eq, decide_eq_true_eq] at hLetter
      have hLower : c.isLower = true := by
        unfold Char.isLower
        rw [Bool.and_eq_true, decide_eq_true_eq, decide_eq_true_eq]
        exact ⟨hLetter.1, UInt32.le_trans hLetter.2 (by decide)⟩
      rw [hLower, Bool.true_or]
  have hTail : runId.take 8 ≠ [] := by
    have hLength := hRun.length
    rintro hNil
    have hZero := congrArg List.length hNil
    rw [length_take, length_nil] at hZero
    omega
  refine ⟨?_, length_take_le _ _, ?_, ?_, ?_⟩
  · rw [buildJobName_of_short hShort]
    simp
  · intro c hc
    rw [buildJobName_of_short hShort, mem_append, mem_cons] at hc
    rcases hc with hStem | rfl | hc
    · obtain ⟨d, hd, rfl⟩ := mem_map.mp hStem
      rcases of_mem_sanitizeLabel hd with hText | rfl | rfl
      · split
        next => rfl
        next => rw [isDnsChar, hText, Bool.true_or]
      · rfl
      · rfl
    · rfl
    · rw [isDnsChar, hHex hc, Bool.true_or]
  · rw [head?_buildJobName]
    exact first_stem_iff.mpr hFirst
  · intro c hc
    rw [buildJobName_of_short hShort, List.getLast?_append_of_ne_nil _ (cons_ne_nil _ _),
      List.getLast?_cons_of_ne_nil hTail] at hc
    exact isAlphanum_of_isLower_or_isDigit (hHex (mem_of_mem_getLast? hc))

/-- Of a long workflow id a name does not have the eighth character of the run id. -/
theorem buildJobName_of_long (h : 54 < (cleaned workflowId).length) {front : List Char}
    (hFront : front.length = 7) (last : Char) :
    buildJobName workflowId (front ++ [last]) = (stem workflowId ++ '-' :: front).take 63 := by
  have hNe : cleaned workflowId ≠ [] := by
    rintro hNil
    rw [hNil] at h
    cases h
  have hLength : (stem workflowId).length = min 63 (cleaned workflowId).length := by
    rw [stem, length_map, sanitizeLabel_of_ne hNe, length_take]
  have hAll : (front ++ [last]).take 8 = front ++ [last] := by
    apply take_of_length_le
    simp [hFront]
  have hName : buildJobName workflowId (front ++ [last]) =
      ((stem workflowId ++ '-' :: front) ++ [last]).take 63 := by
    rw [append_assoc, cons_append, buildJobName, hAll]
    rfl
  rw [hName]
  apply take_append_of_le_length
  rw [length_append, length_cons, hFront, hLength]
  omega

/-- Labels are valid just if their ends are, and the jobs of some workflows have different valid
names just if each id begins with no dot and leaves nine places. -/
theorem namesValid_iff (value : List Char) (workflowIds : Set (List Char)) :
    (ValidName isNameChar (sanitizeLabel value) ↔ FirstFits value ∧ LastFits value) ∧
      (NamesValid workflowIds ↔ ∀ w ∈ workflowIds, FirstFits w ∧ (cleaned w).length ≤ 54) := by
  refine ⟨validName_sanitizeLabel_iff, fun h w hw => ?_, ?_⟩
  · obtain ⟨hDiffer, hValid, -⟩ :=
      h w hw w hw ("0000000".toList ++ ['0']) ("0000000".toList ++ ['1'])
      (isRunId_of_all (by decide) (by decide)) (isRunId_of_all (by decide) (by decide)) (by decide)
    refine ⟨first_stem_iff.mp (head?_buildJobName ▸ hValid.first), ?_⟩
    by_contra hLong
    rw [not_le] at hLong
    exact hDiffer
      ((buildJobName_of_long hLong rfl '0').trans (buildJobName_of_long hLong rfl '1').symm)
  · intro h w hw w' hw' r r' hr hr' hNe
    obtain ⟨hFirst, hShort⟩ := h w hw
    obtain ⟨hFirst', hShort'⟩ := h w' hw'
    refine ⟨fun hEq => hNe ?_, validName_buildJobName hFirst hShort hr,
      validName_buildJobName hFirst' hShort' hr'⟩
    rw [buildJobName_of_short hShort, buildJobName_of_short hShort'] at hEq
    have hLength : ('-' :: r.take 8).length = ('-' :: r'.take 8).length := by
      have hFull := hr.length
      have hFull' := hr'.length
      simp only [length_cons, length_take]
      omega
    exact (List.cons.inj (append_inj' hEq hLength).2).2

theorem name_shared : ∃ w r r', IsRunId r ∧ IsRunId r' ∧ r.take 8 ≠ r'.take 8 ∧
    buildJobName w r = buildJobName w r' :=
  ⟨List.replicate 63 'a', "00000000".toList, "11111111".toList,
    isRunId_of_all (by decide) (by decide),
    isRunId_of_all (by decide) (by decide), by decide, by decide +kernel⟩

end Jobs

end Glasslab.WorkflowApi
