import Glasslab.Methodology.Convergence
import Mathlib.Data.List.DropRight

/-!
# What a repair keeps

The docstring of `app/methodology_config.py` says that the repair only touches the required paths
and their ancestors, and that existing valid values are preserved. The first holds
(`follow_repaired`). The second holds of a place if no other requirement has a path above or below
it, and if the requirements at the place itself agree on the value. Otherwise the value is lost,
unless it is made of the placeholders that the requirements at the place put there anew
(`touchesOnlyNeeded_iff`).
-/

namespace Glasslab.Methodology

open Foundation List Option

variable {str : ConfigValue → String} {r s x : Requirement} {value v : ConfigValue}
  {config : Config}
  {requirements group : List Requirement} {explicit : Bool} {file : ConfigFile}
  {there : Option ConfigValue}

def unlessMap (v : ConfigValue) : Option ConfigValue := if v.isMap then none else some v

@[simp] theorem unlessMap_eq_some : unlessMap v = some value ↔ v = value ∧ v.isMap = false := by
  unfold unlessMap
  split <;> simp [*]

def held (config : Config) (x : Requirement) : Option ConfigValue :=
  (Document.follow x.keys (.map config)).bind unlessMap

/-- One of the paths is a proper beginning of the other. -/
def InWay (s x : Requirement) : Prop :=
  s.keys ≠ x.keys ∧ (s.keys <+: x.keys ∨ x.keys <+: s.keys)

instance (s x : Requirement) : Decidable (InWay s x) := inferInstanceAs (Decidable (_ ∧ _))

def settle (str : ConfigValue → String) (s : Requirement) (there : Option ConfigValue) :
    Option ConfigValue :=
  unlessMap (newValue str s (there.getD (.scalar .null)))

/-- What the repair for any requirement leaves at the place of another one. -/
def touch (str : ConfigValue → String) (x : Requirement) (there : Option ConfigValue)
    (s : Requirement) : Option ConfigValue :=
  if s.keys = x.keys then settle str s there else if InWay s x then none else there

def BeginsWithText (v : ConfigValue) : Prop := ∃ text, (items v).head? = some (.scalar (.str text))

theorem BeginsWithText.notMap (h : BeginsWithText v) : v.isMap = false := by
  obtain ⟨text, hHead⟩ := h
  cases v with
  | scalar a => rfl
  | list values => rfl
  | map entries => cases hHead

theorem ne_nil_of_notMap (hMap : v.isMap = false) (hNull : v ≠ .scalar .null)
    (hList : v ≠ .list []) : existingValues v ≠ [] := by
  rw [items_of_settled hMap hNull]
  cases v with
  | scalar a => exact cons_ne_nil _ _
  | list values => exact fun h => hList (congrArg Document.list h)
  | map entries => cases hMap

theorem existingValues_of_beginsWithText (h : BeginsWithText v) :
    existingValues v = items v ∧ existingValues v ≠ [] := by
  have hNull : v ≠ .scalar .null := by
    rintro rfl
    obtain ⟨text, hHead⟩ := h
    cases hHead
  have hItems := items_of_settled h.notMap hNull
  refine ⟨hItems, ?_⟩
  obtain ⟨text, hHead⟩ := h
  rw [hItems]
  intro hNil
  rw [hNil] at hHead
  cases hHead

/-- A mapping is replaced as if nothing were there. -/
theorem newValue_of_isMap (h : v.isMap = true) :
    newValue str s v = newValue str s (.scalar .null) := by
  cases v with
  | scalar a => cases h
  | list values => cases h
  | map entries =>
    unfold newValue ensureLeaf
    split
    · rfl
    · have hMinimum := s.minimum_pos
      simp only [ensureValues, existingValues, map_nil, fromkeys, length_nil, Nat.sub_zero]
      rw [if_neg (fun h => by cases h.2), if_neg (fun h => by omega)]
      rfl

def distinctThere (str : ConfigValue → String) (v : ConfigValue) : List String :=
  fromkeys ((existingValues v).map str)

theorem newValue_of_within (str : ConfigValue → String) (v : ConfigValue)
    (hWithin : s.acrossJobs = false) :
    s.minimumDistinctValues ≤ (distinctThere str v).length ∧ v.isMap = false ∧
        newValue str s v = v ∨
      (distinctThere str v).length < s.minimumDistinctValues ∧
        newValue str s v = .list (existingValues v ++
          (placeholderValues s.leaf (distinctThere str v)
            (s.minimumDistinctValues - (distinctThere str v).length)).map
              fun text => .scalar (.str text)) := by
  have hMinimum := s.minimum_pos
  unfold newValue
  rw [ensureLeaf_of_within hWithin]
  unfold ensureValues distinctThere
  dsimp only
  split
  next hEnough =>
    refine .inl ⟨by omega, hEnough.2, rfl⟩
  next hShort =>
    refine .inr ⟨?_, rfl⟩
    by_contra hEnough
    cases v with
    | scalar a => exact hShort ⟨by omega, rfl⟩
    | list values => exact hShort ⟨by omega, rfl⟩
    | map entries =>
      simp only [existingValues, map_nil, fromkeys, length_nil] at hEnough
      omega

/-- A comparison across jobs leaves a scalar, takes the first of a list, or puts a placeholder. -/
theorem newValue_of_across_cases (str : ConfigValue → String) (v : ConfigValue)
    (hAcross : s.acrossJobs = true) :
    existingValues v = [] ∧ newValue str s v = .scalar (.str (candidate s.leaf 1)) ∨
      (∃ first rest, v = .list (first :: rest) ∧ newValue str s v = first) ∨
      (∃ a, v = .scalar a ∧ a ≠ .null ∧ newValue str s v = v) := by
  rw [newValue_of_across hAcross]
  match v with
  | .map _ | .list [] | .scalar .null => exact .inl ⟨rfl, rfl⟩
  | .list (first :: rest) => exact .inr (.inl ⟨first, rest, rfl, rfl⟩)
  | .scalar (.bool _) | .scalar (.int _) | .scalar (.float _) | .scalar (.str _)
  | .scalar (.other _) => exact .inr (.inr ⟨_, rfl, nofun, rfl⟩)

/-- Where there are no values, placeholders are put. -/
theorem beginsWithText_of_empty (h : existingValues v = []) :
    BeginsWithText (newValue str s v) := by
  cases hJobs : s.acrossJobs with
  | true =>
    rcases newValue_of_across_cases str v hJobs with ⟨-, hNew⟩ | ⟨first, rest, rfl, -⟩ |
      ⟨a, rfl, ha, -⟩
    · rw [hNew]
      exact ⟨_, rfl⟩
    · cases h
    · exact absurd h (ne_nil_of_notMap rfl (fun hNull => ha (Document.scalar.inj hNull)) nofun)
  | false =>
    have hMinimum := s.minimum_pos
    have hNone : distinctThere str v = [] := by
      rw [distinctThere, h]
      rfl
    rcases newValue_of_within str v hJobs with ⟨hEnough, -, -⟩ | ⟨-, hNew⟩
    · rw [hNone, length_nil] at hEnough
      omega
    · rw [hNew, h, hNone, length_nil, Nat.sub_zero, nil_append]
      have hLength := length_placeholderValues s.leaf [] s.minimumDistinctValues
      cases hInserted : placeholderValues s.leaf [] s.minimumDistinctValues with
      | nil =>
        rw [hInserted, length_nil] at hLength
        omega
      | cons text rest => exact ⟨text, rfl⟩

theorem BeginsWithText.newValue (h : BeginsWithText v) :
    BeginsWithText (Methodology.newValue str s v) := by
  obtain ⟨hItems, hNe⟩ := existingValues_of_beginsWithText h
  cases hJobs : s.acrossJobs with
  | true =>
    rcases newValue_of_across_cases str v hJobs with ⟨hNone, -⟩ | ⟨first, rest, rfl, hNew⟩ |
      ⟨a, rfl, -, hNew⟩
    · exact absurd hNone hNe
    · obtain ⟨text, hHead⟩ := h
      obtain rfl : first = .scalar (.str text) := Option.some.inj hHead
      rw [hNew]
      exact ⟨text, rfl⟩
    · rw [hNew]
      exact h
  | false =>
    rcases newValue_of_within str v hJobs with ⟨-, -, hNew⟩ | ⟨-, hNew⟩
    · rw [hNew]
      exact h
    · obtain ⟨text, hHead⟩ := h
      rw [hNew]
      refine ⟨text, ?_⟩
      rw [items, List.head?_append, hItems, hHead]
      rfl

/-! ## One repair at another place -/

theorem newValue_held (config : Config) (hKeys : s.keys = x.keys) :
    newValue str s ((held config x).getD (.scalar .null)) =
      newValue str s (currentValue config s) := by
  rw [currentValue, hKeys, held]
  cases hFollow : Document.follow x.keys (.map config) with
  | none => rfl
  | some v =>
    cases hMap : v.isMap with
    | true => simp [unlessMap, hMap, newValue_of_isMap hMap]
    | false => simp [unlessMap, hMap]

theorem held_of_same (hKeys : s.keys = x.keys) :
    held (ensureRequirement str config s).1 x = settle str s (held config x) := by
  rw [settle, newValue_held config hKeys, held, ← hKeys, follow_ensureRequirement]
  rfl

theorem held_of_apart (h : Document.Apart s.keys x.keys) :
    held (ensureRequirement str config s).1 x = held config x := by
  rw [held, ensureRequirement, Document.follow_put_of_apart h, held]

/-- Above the place there are only mappings, and values that begin with a text. -/
def Clear (config : Config) (x : Requirement) : Prop :=
  ∀ p v, p <+: x.keys → p ≠ x.keys → p ≠ [] → Document.follow p (.map config) = some v →
    v.isMap = true ∨ BeginsWithText v

/-- What stands at the place of something is reached through mappings. -/
theorem clear_of_follow (h : Document.follow x.keys (.map config) = some v) : Clear config x := by
  intro p w hPrefix hNe _ hFollow
  obtain ⟨rest, hRest⟩ := hPrefix
  have hRestNe : rest ≠ [] := by
    rintro rfl
    exact hNe (by rw [← hRest, append_nil])
  rw [← hRest] at h
  obtain ⟨m, hm, hMap⟩ := Document.isMap_of_follow_append hRestNe h
  rw [hFollow] at hm
  cases hm
  exact .inl hMap

/-- A requirement above the place leaves no mapping. -/
theorem Clear.beginsWithText (h : Clear config x) (hPrefix : s.keys <+: x.keys)
    (hNe : s.keys ≠ x.keys) : BeginsWithText (newValue str s (currentValue config s)) := by
  rw [currentValue]
  cases hFollow : Document.follow s.keys (.map config) with
  | none => exact beginsWithText_of_empty rfl
  | some v =>
    rcases h s.keys v hPrefix hNe (keys_ne_nil s) hFollow with hMap | hText
    · rw [getD_some, newValue_of_isMap hMap]
      exact beginsWithText_of_empty rfl
    · exact hText.newValue

theorem held_of_inWay (hClear : Clear config x) (h : InWay s x) :
    held (ensureRequirement str config s).1 x = none := by
  obtain ⟨hNe, hAbove | hBelow⟩ := h
  · rw [held, Document.follow_eq_none_of_prefix hAbove hNe follow_ensureRequirement
      (hClear.beginsWithText hAbove hNe).notMap]
    rfl
  · obtain ⟨entries, hFollow⟩ := @Document.follow_put_of_prefix _ x.keys s.keys
      (ensureLeaf str s s.leaf (currentValue config s)).1 config hBelow hNe.symm
    rw [held, ensureRequirement, hFollow]
    rfl

theorem Clear.ensureRequirement (h : Clear config x) :
    Clear (Methodology.ensureRequirement str config s).1 x := by
  intro p v hPrefix hNe hNil hFollow
  by_cases hSame : s.keys = p
  · subst hSame
    rw [follow_ensureRequirement] at hFollow
    obtain rfl := Option.some.inj hFollow
    exact .inr (h.beginsWithText hPrefix hNe)
  · by_cases hBelow : p <+: s.keys
    · obtain ⟨entries, hMap⟩ := @Document.follow_put_of_prefix _ p s.keys
        (ensureLeaf str s s.leaf (currentValue config s)).1 config hBelow (Ne.symm hSame)
      rw [Methodology.ensureRequirement, hMap] at hFollow
      obtain rfl := Option.some.inj hFollow
      exact .inl rfl
    · by_cases hAbove : s.keys <+: p
      · have hUpper : s.keys <+: x.keys := hAbove.trans hPrefix
        have hUpperNe : s.keys ≠ x.keys := by
          intro hEq
          exact hNe (hPrefix.eq_of_length (Nat.le_antisymm hPrefix.length_le
            (hEq ▸ hAbove.length_le)))
        have hText : BeginsWithText (newValue str s (currentValue config s)) :=
          h.beginsWithText hUpper hUpperNe
        have hNone := Document.follow_eq_none_of_prefix hAbove hSame follow_ensureRequirement
          hText.notMap
        rw [hNone] at hFollow
        cases hFollow
      · rw [Methodology.ensureRequirement, Document.follow_put_of_apart ⟨hAbove, hBelow⟩] at hFollow
        exact h p v hPrefix hNe hNil hFollow

/-- What a place holds after a pass, told from what it held. -/
theorem held_repaired (h : Clear config x) :
    held (repaired str requirements config) x =
    requirements.foldl (touch str x) (held config x) := by
  induction requirements generalizing config with
  | nil => rfl
  | cons first rest ih =>
    have hStep : held (ensureRequirement str config first).1 x =
        touch str x (held config x) first := by
      unfold touch
      split
      next hKeys => exact held_of_same hKeys
      next hKeys =>
        split
        next hWay => exact held_of_inWay h hWay
        next hWay =>
          exact held_of_apart ⟨fun h => hWay ⟨hKeys, .inl h⟩, fun h => hWay ⟨hKeys, .inr h⟩⟩
    rw [foldl_cons, ← hStep]
    exact ih h.ensureRequirement

def lastAt (requirements : List Requirement) (x : Requirement) : List Requirement :=
  (requirements.rtakeWhile fun s => ¬ InWay s x).filter fun s => s.keys = x.keys

def settleAll (str : ConfigValue → String) (group : List Requirement) (there : Option ConfigValue) :
    Option ConfigValue :=
  group.foldl (fun value s => settle str s value) there

theorem lastAt_concat (front : List Requirement) (last x : Requirement) :
    lastAt (front ++ [last]) x =
      if InWay last x then []
      else if last.keys = x.keys then lastAt front x ++ [last] else lastAt front x := by
  unfold lastAt
  rw [rtakeWhile_concat]
  by_cases hWay : InWay last x
  · simp [hWay]
  · by_cases hKeys : last.keys = x.keys <;> simp [hWay, hKeys]

theorem settleAll_concat (front : List Requirement) (last : Requirement) :
    settleAll str (front ++ [last]) there = settle str last (settleAll str front there) := by
  rw [settleAll, foldl_append]
  rfl

theorem foldl_touch : requirements.foldl (touch str x) there =
    settleAll str (lastAt requirements x)
      (if ∃ s ∈ requirements, InWay s x then none else there) := by
  induction requirements using List.reverseRecOn with
  | nil => simp [settleAll, lastAt]
  | append_singleton front last ih =>
    have hExists :
        (∃ s ∈ front ++ [last], InWay s x) ↔ (∃ s ∈ front, InWay s x) ∨ InWay last x := by
      simp [or_and_right, exists_or]
    rw [foldl_append, foldl_cons, foldl_nil, ih, touch, lastAt_concat]
    simp only [hExists]
    by_cases hWay : InWay last x
    · rw [if_neg hWay.1, if_pos hWay, if_pos hWay, if_pos (.inr hWay)]
      rfl
    · simp only [hWay, or_false, if_false]
      split
      next => rw [settleAll_concat]
      next => rfl

/-- Where none is in the way, all the requirements at the place matter. -/
theorem lastAt_of_free (h : ¬ ∃ s ∈ requirements, InWay s x) :
    lastAt requirements x = requirements.filter fun s => s.keys = x.keys := by
  rw [lastAt, rtakeWhile_eq_self_iff.mpr]
  intro s hs
  have hFree : ¬ InWay s x := fun hWay => h ⟨s, hs, hWay⟩
  simpa using hFree

/-! ## The requirements at one place -/

theorem settle_of_keeps (hMap : v.isMap = false) (hKeeps : newValue str s v = v) :
    settle str s (some v) = some v := by
  rw [settle, getD_some, hKeeps]
  exact unlessMap_eq_some.mpr ⟨rfl, hMap⟩

theorem settleAll_of_keeps (hMap : v.isMap = false) (hKeeps : ∀ s ∈ group, newValue str s v = v) :
    settleAll str group (some v) = some v := by
  induction group with
  | nil => rfl
  | cons first rest ih =>
    rw [settleAll, foldl_cons, settle_of_keeps hMap (hKeeps first mem_cons_self)]
    exact ih fun s hs => hKeeps s (mem_cons_of_mem _ hs)

theorem exists_settleAll_of_text (h : BeginsWithText v) :
    ∃ w, settleAll str group (some v) = some w ∧ BeginsWithText w := by
  induction group generalizing v with
  | nil => exact ⟨v, rfl, h⟩
  | cons first rest ih =>
    have hNew : BeginsWithText (newValue str first v) := h.newValue
    obtain ⟨w, hRest, hText⟩ := ih hNew
    refine ⟨w, ?_, hText⟩
    rw [settleAll, foldl_cons, settle, getD_some,
      unlessMap_eq_some.mpr ⟨rfl, hNew.notMap⟩]
    exact hRest

/-- Where there are no values, the requirements at the place put placeholders. -/
theorem exists_settleAll_of_empty (hGroup : group ≠ [])
    (h : existingValues (there.getD (.scalar .null)) = []) :
    ∃ w, settleAll str group there = some w ∧ BeginsWithText w := by
  obtain ⟨first, rest, rfl⟩ := exists_cons_of_ne_nil hGroup
  have hNew : BeginsWithText (newValue str first (there.getD (.scalar .null))) :=
    beginsWithText_of_empty h
  rw [settleAll, foldl_cons, settle, unlessMap_eq_some.mpr ⟨rfl, hNew.notMap⟩]
  exact exists_settleAll_of_text hNew

theorem newValue_of_decision (hMinimum : s.minimumDistinctValues = 1)
    (hWithin : s.acrossJobs = false) (h : existingValues v ≠ []) : newValue str s v = v := by
  rcases newValue_of_within str v hWithin with ⟨-, -, hKeeps⟩ | ⟨hShort, -⟩
  · exact hKeeps
  · obtain ⟨first, rest, hValues⟩ := exists_cons_of_ne_nil h
    rw [hMinimum, distinctThere, hValues, map_cons, fromkeys, length_cons] at hShort
    omega

theorem newValue_grows (hStr : ∀ text, str (.scalar (.str text)) = text)
    (hWithin : s.acrossJobs = false) (v : ConfigValue) :
    newValue str s v = v ∧ v.isMap = false ∧
        s.minimumDistinctValues ≤ (distinctThere str v).length ∨
      (distinctThere str v).length < s.minimumDistinctValues ∧
        (distinctThere str v).length < (distinctThere str (newValue str s v)).length ∧
        (newValue str s v).isMap = false := by
  rcases newValue_of_within str v hWithin with ⟨hEnough, hMap, hKeeps⟩ | ⟨hShort, hNew⟩
  · exact .inl ⟨hKeeps, hMap, hEnough⟩
  · refine .inr ⟨hShort, ?_, by rw [hNew]; rfl⟩
    have hFree : ∀ text ∈ placeholderValues s.leaf (distinctThere str v)
        (s.minimumDistinctValues - (distinctThere str v).length),
        text ∉ fromkeys ((existingValues v).map str) :=
      fun text hText => notMem_of_mem_placeholderValues hText
    have hLength := length_distinct_append hStr (nodup_placeholderValues _ _ _) hFree
    rw [length_placeholderValues] at hLength
    have hThere : distinctThere str (newValue str s v) = fromkeys ((existingValues v ++
        (placeholderValues s.leaf (distinctThere str v)
          (s.minimumDistinctValues - (distinctThere str v).length)).map
            fun text => Document.scalar (Scalar.str text)).map str) := by
      rw [hNew]
      rfl
    rw [hThere, hLength, ← distinctThere]
    omega

def Enough (str : ConfigValue → String) (s : Requirement) (v : ConfigValue) : Prop :=
  if s.acrossJobs then ∃ a, v = .scalar a ∧ a ≠ .null
  else s.minimumDistinctValues ≤ (distinctThere str v).length

theorem ne_list_of_head {first : ConfigValue} {rest more : List ConfigValue}
    (h : first :: rest <+: more) : first ≠ .list more := by
  rintro rfl
  obtain ⟨later, hEq⟩ := h
  have hSize := congrArg sizeOf hEq
  simp only [cons_append, List.cons.sizeOf_spec, Document.list.sizeOf_spec] at hSize
  omega

theorem newValue_eq_self_iff (hStr : ∀ text, str (.scalar (.str text)) = text)
    (hMap : v.isMap = false) : newValue str s v = v ↔ Enough str s v := by
  unfold Enough
  split
  next hAcross =>
    rcases newValue_of_across_cases str v hAcross with ⟨hNone, hNew⟩ | ⟨first, rest, rfl, hNew⟩ |
      ⟨a, rfl, ha, hNew⟩
    · refine iff_of_false ?_ ?_
      · intro hSame
        have hText : BeginsWithText v := by
          rw [← hSame, hNew]
          exact ⟨_, rfl⟩
        exact (existingValues_of_beginsWithText hText).2 hNone
      · rintro ⟨a, rfl, ha⟩
        exact ne_nil_of_notMap rfl (fun hNull => ha (Document.scalar.inj hNull)) nofun hNone
    · refine iff_of_false ?_ nofun
      rw [hNew]
      exact ne_list_of_head prefix_rfl
    · exact iff_of_true hNew ⟨a, rfl, ha⟩
  next hWithin =>
    rw [Bool.not_eq_true] at hWithin
    rcases newValue_grows hStr hWithin v with ⟨hKeeps, -, hEnough⟩ | ⟨hShort, hGrows, -⟩
    · exact iff_of_true hKeeps hEnough
    · refine iff_of_false ?_ (by omega)
      intro hSame
      rw [hSame] at hGrows
      omega

section Within

variable (hStr : ∀ text, str (.scalar (.str text)) = text)
  (hWithin : ∀ s ∈ group, s.acrossJobs = false)

include hStr hWithin in
/-- Within one job there are never fewer distinct values. -/
theorem le_settleAll (hMap : v.isMap = false) {w : ConfigValue}
    (h : settleAll str group (some v) = some w) :
    (distinctThere str v).length ≤ (distinctThere str w).length := by
  induction group generalizing v with
  | nil =>
    obtain rfl := Option.some.inj h
    exact le_rfl
  | cons first rest ih =>
    have hRest := fun s hs => hWithin s (mem_cons_of_mem first hs)
    rw [settleAll, foldl_cons] at h
    rcases newValue_grows hStr (hWithin first mem_cons_self) v with ⟨hKeeps, -, -⟩ |
      ⟨-, hGrows, hNotMap⟩
    · rw [settle_of_keeps hMap hKeeps] at h
      exact ih hRest hMap h
    · rw [settle, getD_some, unlessMap_eq_some.mpr ⟨rfl, hNotMap⟩] at h
      exact hGrows.le.trans (ih hRest hNotMap h)

include hStr hWithin in
theorem keeps_of_settleAll_within (hMap : v.isMap = false)
    (h : settleAll str group (some v) = some v) : ∀ s ∈ group, newValue str s v = v := by
  induction group with
  | nil => nofun
  | cons first rest ih =>
    have hRest := fun s hs => hWithin s (mem_cons_of_mem first hs)
    rw [settleAll, foldl_cons] at h
    rcases newValue_grows hStr (hWithin first mem_cons_self) v with ⟨hKeeps, -, -⟩ |
      ⟨-, hGrows, hNotMap⟩
    · rw [settle_of_keeps hMap hKeeps] at h
      exact forall_mem_cons.mpr ⟨hKeeps, ih hRest h⟩
    · rw [settle, getD_some, unlessMap_eq_some.mpr ⟨rfl, hNotMap⟩] at h
      have hLe := le_settleAll hStr hRest hNotMap h
      omega

include hWithin in
/-- Within one job the items of a list stay first. -/
theorem exists_settleAll_list (values : List ConfigValue) :
    ∃ more, settleAll str group (some (.list values)) = some (.list (values ++ more)) := by
  induction group generalizing values with
  | nil => exact ⟨[], by rw [append_nil]; rfl⟩
  | cons first rest ih =>
    have hRest := fun s hs => hWithin s (mem_cons_of_mem first hs)
    rw [settleAll, foldl_cons]
    rcases newValue_of_within str (.list values) (hWithin first mem_cons_self) with
      ⟨-, -, hKeeps⟩ | ⟨-, hNew⟩
    · rw [settle_of_keeps rfl hKeeps]
      exact ih hRest values
    · generalize (placeholderValues first.leaf (distinctThere str (.list values))
        (first.minimumDistinctValues - (distinctThere str (.list values)).length)).map
          (fun text => Document.scalar (Scalar.str text)) = inserted at hNew
      obtain ⟨more, hMore⟩ := ih hRest (values ++ inserted)
      rw [settle, getD_some, hNew]
      exact ⟨inserted ++ more, (append_assoc values inserted more) ▸ hMore⟩

end Within

/-! ## A comparison across jobs at the place -/

/-- The comparison across jobs at a place, among decisions. -/
theorem exists_across_split (hPeace : group.Pairwise Peaceful)
    (h : ∃ s ∈ group, s.acrossJobs = true) :
    ∃ before a after, group = before ++ a :: after ∧ a.acrossJobs = true ∧
      ∀ d, d ∈ before ∨ d ∈ after → d.minimumDistinctValues = 1 ∧ d.acrossJobs = false := by
  obtain ⟨a, hMem, hAcross⟩ := h
  obtain ⟨before, after, rfl⟩ := append_of_mem hMem
  refine ⟨before, a, after, rfl, hAcross, ?_⟩
  obtain ⟨-, hAfter, hBetween⟩ := pairwise_append.mp hPeace
  rintro d (hBefore | hLater)
  · exact (hBetween d hBefore a mem_cons_self).symm.of_across hAcross
  · exact ((pairwise_cons.mp hAfter).1 d hLater).of_across hAcross

theorem settleAll_of_decisions
    (hDecisions : ∀ d ∈ group, d.minimumDistinctValues = 1 ∧ d.acrossJobs = false)
    (hMap : v.isMap = false) (h : existingValues v ≠ []) :
    settleAll str group (some v) = some v :=
  settleAll_of_keeps hMap fun d hd =>
    newValue_of_decision (hDecisions d hd).1 (hDecisions d hd).2 h

theorem settleAll_append (front back : List Requirement) :
    settleAll str (front ++ back) there = settleAll str back (settleAll str front there) :=
  foldl_append

theorem exists_text_of_across (hJobs : s.acrossJobs = true)
    (h : existingValues v = [] ∨ BeginsWithText v) :
    ∃ text, newValue str s v = .scalar (.str text) := by
  rcases newValue_of_across_cases str v hJobs with ⟨-, hNew⟩ | ⟨first, rest, rfl, hNew⟩ |
    ⟨a, rfl, ha, hNew⟩
  · exact ⟨_, hNew⟩
  · rcases h with hNone | ⟨text, hHead⟩
    · cases hNone
    · obtain rfl : first = .scalar (.str text) := Option.some.inj hHead
      exact ⟨text, hNew⟩
  · rcases h with hNone | ⟨text, hHead⟩
    · exact absurd hNone (ne_nil_of_notMap rfl (fun hNull => ha (Document.scalar.inj hNull)) nofun)
    · exact ⟨text, hNew.trans (Option.some.inj hHead)⟩

/-- A comparison across jobs does not leave a list that goes on as the one that was there. -/
theorem not_prefix_of_across (hPeace : group.Pairwise Peaceful)
    (hAcross : ∃ s ∈ group, s.acrossJobs = true) {values left : List ConfigValue}
    (h : settleAll str group (some (.list values)) = some (.list left)) : ¬ values <+: left := by
  obtain ⟨before, a, after, rfl, hJobs, hDecisions⟩ := exists_across_split hPeace hAcross
  have hBefore := fun d hd => hDecisions d (.inl hd)
  have hAfter := fun d hd => hDecisions d (.inr hd)
  rw [settleAll_append] at h
  cases values with
  | nil =>
    -- only a text comes out of an empty list
    have hThere :
      existingValues ((settleAll str before (some (.list []))).getD (.scalar .null)) = [] ∨
        BeginsWithText ((settleAll str before (some (.list []))).getD (.scalar .null)) := by
      by_cases hNone : before = []
      · subst hNone
        exact .inl rfl
      · obtain ⟨w, hw, hText⟩ := @exists_settleAll_of_empty str _ (some (.list [])) hNone rfl
        rw [hw]
        exact .inr hText
    obtain ⟨text, hNew⟩ := @exists_text_of_across str a _ hJobs hThere
    have hLast : settleAll str (a :: after) (settleAll str before (some (.list []))) =
        some (.scalar (.str text)) := by
      rw [settleAll, foldl_cons, settle, hNew]
      exact settleAll_of_decisions hAfter rfl (cons_ne_nil _ _)
    rw [hLast] at h
    cases h
  | cons first rest =>
    have hNew : newValue str a (.list (first :: rest)) = first := by
      rcases newValue_of_across_cases str (.list (first :: rest)) hJobs with ⟨hNone, -⟩ |
        ⟨_, _, hEq, hNew⟩ | ⟨_, hEq, -⟩
      · cases hNone
      · cases hEq
        exact hNew
      · cases hEq
    have hFirst : settleAll str before (some (.list (first :: rest))) =
        some (.list (first :: rest)) :=
      settleAll_of_decisions hBefore rfl (cons_ne_nil first rest)
    rw [hFirst, settleAll, foldl_cons, settle, getD_some, hNew] at h
    intro hPrefix
    by_cases hEmpty : existingValues first = []
    · have hNull : existingValues ((unlessMap first).getD (.scalar .null)) = [] := by
        unfold unlessMap
        split
        · rfl
        · exact hEmpty
      by_cases hNone : after = []
      · subst hNone
        obtain ⟨rfl, -⟩ := unlessMap_eq_some.mp h
        obtain rfl : left = [] := hEmpty
        exact absurd (prefix_nil.mp hPrefix) (cons_ne_nil _ _)
      · obtain ⟨w, hw, text, hHead⟩ := @exists_settleAll_of_empty str _ _ hNone hNull
        have hSame : w = .list left := Option.some.inj (hw.symm.trans h)
        obtain ⟨later, rfl⟩ := hPrefix
        rw [hSame] at hHead
        obtain rfl : first = .scalar (.str text) := Option.some.inj hHead
        cases hEmpty
    · have hNotMap : first.isMap = false := by
        cases first with
        | scalar b => rfl
        | list items => rfl
        | map entries => exact absurd rfl hEmpty
      rw [unlessMap_eq_some.mpr ⟨rfl, hNotMap⟩] at h
      have hLast : settleAll str after (some first) = some first :=
        settleAll_of_decisions hAfter hNotMap hEmpty
      exact ne_list_of_head hPrefix (Option.some.inj (hLast.symm.trans h))

/-- The requirements at a place keep a value exactly if it has what each of them asks for. -/
theorem settleAll_eq_self_iff (hStr : ∀ text, str (.scalar (.str text)) = text)
    (hPeace : group.Pairwise Peaceful) (hGroup : group ≠ []) (hMap : v.isMap = false) :
    settleAll str group (some v) = some v ↔ ∀ s ∈ group, Enough str s v := by
  simp only [← newValue_eq_self_iff hStr hMap]
  refine ⟨?_, settleAll_of_keeps hMap⟩
  intro h
  by_cases hAcross : ∃ s ∈ group, s.acrossJobs = true
  · cases v with
    | map entries => cases hMap
    | list values => exact absurd prefix_rfl (not_prefix_of_across hPeace hAcross h)
    | scalar a =>
      have hNull : a ≠ .null := by
        rintro rfl
        obtain ⟨w, hw, hText⟩ := @exists_settleAll_of_empty str _ (some (.scalar .null)) hGroup rfl
        rw [hw] at h
        obtain rfl := Option.some.inj h
        obtain ⟨text, hHead⟩ := hText
        cases hHead
      obtain ⟨before, b, after, rfl, hJobs, hDecisions⟩ := exists_across_split hPeace hAcross
      have hThere : existingValues (.scalar a) ≠ [] :=
        ne_nil_of_notMap rfl (fun hEq => hNull (Document.scalar.inj hEq)) nofun
      intro s hs
      rcases mem_append.mp hs with hs | hs
      · exact newValue_of_decision (hDecisions s (.inl hs)).1 (hDecisions s (.inl hs)).2 hThere
      · rcases mem_cons.mp hs with rfl | hs
        · exact (newValue_eq_self_iff hStr rfl).mpr (by
            rw [Enough, if_pos hJobs]
            exact ⟨a, rfl, hNull⟩)
        · exact newValue_of_decision (hDecisions s (.inr hs)).1 (hDecisions s (.inr hs)).2 hThere
  · have hWithin : ∀ s ∈ group, s.acrossJobs = false := by
      intro s hs
      rw [← Bool.not_eq_true]
      exact fun hJobs => hAcross ⟨s, hs, hJobs⟩
    exact keeps_of_settleAll_within hStr hWithin hMap h

/-- The requirements at a place keep the items of a list exactly if none compares across jobs. -/
theorem settleAll_list_iff (hPeace : group.Pairwise Peaceful) (values : List ConfigValue) :
    (∃ left, settleAll str group (some (.list values)) = some (.list left) ∧ values <+: left) ↔
      ∀ s ∈ group, s.acrossJobs = false := by
  constructor
  · rintro ⟨left, hLeft, hPrefix⟩ s hs
    rw [← Bool.not_eq_true]
    exact fun hJobs => not_prefix_of_across hPeace ⟨s, hs, hJobs⟩ hLeft hPrefix
  · intro hWithin
    obtain ⟨more, hMore⟩ := @exists_settleAll_list str _ hWithin values
    exact ⟨values ++ more, hMore, prefix_append values more⟩

/-! ## When only what is needed is touched -/

/-- The preflight has nothing to say about the value in `base_config`. -/
structure Meets (str : ConfigValue → String) (config : Config) (x : Requirement) : Prop where
  shape : shapeErrors str config x = []
  maximum : x.acrossJobs = false → ∀ m ∈ x.maximumDistinctValues,
    (distinctStrings str (currentValue config x)).length ≤ m

/-- Other paths lead where they led, the items of a list stay the first ones, and a value that meets
its requirement stays. -/
structure TouchesOnlyNeeded (str : ConfigValue → String) (requirements : List Requirement)
    (before after : Config) : Prop where
  others : ∀ path, (∀ r ∈ requirements, Document.Apart r.keys path) →
    Document.follow path (.map after) = Document.follow path (.map before)
  lists : ∀ x ∈ requirements, x.acrossJobs = false → ∀ values,
    Document.follow x.keys (.map before) = some (.list values) →
      ∃ left, Document.follow x.keys (.map after) = some (.list left) ∧ values <+: left
  values : ∀ x ∈ requirements, ∀ v, Document.follow x.keys (.map before) = some v →
    Meets str before x → Document.follow x.keys (.map after) = some v

/-- What the requirements at a place put there after the last one that is in the way. -/
def regrown (str : ConfigValue → String) (requirements : List Requirement) (x : Requirement) :
    Option ConfigValue :=
  settleAll str (lastAt requirements x) none

/-- No requirement is in the way and none at the place compares across jobs, or the items are among
the placeholders that are put there anew. -/
def ListStays (str : ConfigValue → String) (requirements : List Requirement) (x : Requirement)
    (values : List ConfigValue) : Prop :=
  if ∃ s ∈ requirements, InWay s x then
    ∃ left, regrown str requirements x = some (.list left) ∧ values <+: left
  else ∀ s ∈ requirements, s.keys = x.keys → s.acrossJobs = false

/-- No requirement is in the way and the value has what each one at the place asks for, or it is
what is put there anew. -/
def ValueStays (str : ConfigValue → String) (requirements : List Requirement) (x : Requirement)
    (v : ConfigValue) : Prop :=
  if ∃ s ∈ requirements, InWay s x then regrown str requirements x = some v
  else ∀ s ∈ requirements, s.keys = x.keys → Enough str s v

/-- What the repair leaves is as needed for the values that are there. -/
def Undisturbed (str : ConfigValue → String) (requirements : List Requirement) (config : Config) :
    Prop :=
  ∀ x ∈ requirements, ∀ v, Document.follow x.keys (.map config) = some v →
    (x.acrossJobs = false → ∀ values, v = .list values → ListStays str requirements x values) ∧
      (Meets str config x → ValueStays str requirements x v)

/-- The repair only touches the required paths and their ancestors. -/
theorem follow_repaired {path : List String}
    (h : ∀ r ∈ requirements, Document.Apart r.keys path) :
    Document.follow path (.map (repaired str requirements config)) =
      Document.follow path (.map config) := by
  induction requirements generalizing config with
  | nil => rfl
  | cons first rest ih =>
    have hFirst : Document.follow path (.map (ensureRequirement str config first).1) =
        Document.follow path (.map config) :=
      Document.follow_put_of_apart (h first mem_cons_self)
    exact (ih fun r hr => h r (mem_cons_of_mem _ hr)).trans hFirst

theorem follow_eq_some_iff_held (hMap : v.isMap = false) :
    Document.follow x.keys (.map config) = some v ↔ held config x = some v := by
  rw [held, bind_eq_some_iff]
  constructor
  · exact fun h => ⟨v, h, unlessMap_eq_some.mpr ⟨rfl, hMap⟩⟩
  · rintro ⟨w, hw, hEq⟩
    rw [hw, (unlessMap_eq_some.mp hEq).1]

theorem held_repaired_of_follow (h : Document.follow x.keys (.map config) = some v)
    (hMap : v.isMap = false) :
    held (repaired str requirements config) x =
      if ∃ s ∈ requirements, InWay s x then regrown str requirements x
      else settleAll str (requirements.filter fun s => s.keys = x.keys) (some v) := by
  rw [held_repaired (clear_of_follow h), (follow_eq_some_iff_held hMap).mp h, foldl_touch]
  split
  next => rfl
  next hFree => rw [lastAt_of_free hFree]

section Repair

variable (hValid : validateMethodologyRequirements requirements explicit = [])

include hValid in
theorem list_stays_iff {values : List ConfigValue}
    (h : Document.follow x.keys (.map config) = some (.list values)) :
    (∃ left, Document.follow x.keys (.map (repaired str requirements config)) = some (.list left) ∧
        values <+: left) ↔ ListStays str requirements x values := by
  have hLeft (left : List ConfigValue) :
      Document.follow x.keys (.map (repaired str requirements config)) = some (.list left) ↔
        held (repaired str requirements config) x = some (.list left) :=
    follow_eq_some_iff_held rfl
  simp only [hLeft, held_repaired_of_follow h rfl, ListStays]
  split
  next => rfl
  next =>
    rw [settleAll_list_iff (peaceful_group hValid x.keys)]
    simp

include hValid in
theorem value_stays_iff (hStr : ∀ text, str (.scalar (.str text)) = text) (hMem : x ∈ requirements)
    (h : Document.follow x.keys (.map config) = some v) (hMap : v.isMap = false) :
    Document.follow x.keys (.map (repaired str requirements config)) = some v ↔
      ValueStays str requirements x v := by
  rw [follow_eq_some_iff_held hMap, held_repaired_of_follow h hMap, ValueStays]
  split
  next => rfl
  next =>
    rw [settleAll_eq_self_iff hStr (peaceful_group hValid x.keys)
      (ne_nil_of_mem (mem_group hMem)) hMap]
    simp

/-- **A repair** touches only what it must, for the requirements of an accepted contract, exactly if
no value that is there is disturbed: none by a requirement above or below it, unless the same comes
back as placeholders; and none by a requirement at its place, which asks for more or compares across
jobs. -/
theorem touchesOnlyNeeded_iff (hStr : ∀ text, str (.scalar (.str text)) = text)
    (hValid : validateMethodologyRequirements requirements explicit = []) :
    TouchesOnlyNeeded str requirements file.load
        (repairMethodologySettings str file requirements).1.load ↔
      Undisturbed str requirements file.load := by
  rw [load_repairMethodologySettings]
  constructor
  · intro h x hx v hFollow
    constructor
    · rintro hWithin values rfl
      exact (list_stays_iff hValid hFollow).mp (h.lists x hx hWithin values hFollow)
    · intro hMeets
      obtain ⟨w, hw, hMap, -⟩ := of_shapeErrors_nil hMeets.shape
      rw [hFollow] at hw
      obtain rfl := Option.some.inj hw
      exact (value_stays_iff hValid hStr hx hFollow hMap).mp (h.values x hx v hFollow hMeets)
  · intro h
    refine ⟨fun path hPath => follow_repaired hPath, ?_, ?_⟩
    · intro x hx hWithin values hFollow
      exact (list_stays_iff hValid hFollow).mpr ((h x hx _ hFollow).1 hWithin values rfl)
    · intro x hx v hFollow hMeets
      obtain ⟨w, hw, hMap, -⟩ := of_shapeErrors_nil hMeets.shape
      rw [hFollow] at hw
      obtain rfl := Option.some.inj hw
      exact (value_stays_iff hValid hStr hx hFollow hMap).mpr ((h x hx v hFollow).2 hMeets)

end Repair

def settledFile : ConfigFile :=
  .mapping [("experiment_dimensions", .map [("model", .scalar (.str "linear")),
    ("optimizer", .list [.scalar (.str "adam"), .scalar (.str "sgd")])])]

def modelsFile : ConfigFile :=
  .mapping [("experiment_dimensions", .map [("model", .list [.scalar (.str "linear"),
    .scalar (.str "forest")])])]

theorem touchesOnlyNeeded_iff_settledFile :
    TouchesOnlyNeeded scalarText trialRequirements settledFile.load
      (repairMethodologySettings scalarText settledFile trialRequirements).1.load := by
  have hValid : validateMethodologyRequirements trialRequirements true = [] := by decide +kernel
  refine (touchesOnlyNeeded_iff (fun _ => rfl) hValid).mpr ?_
  have hFree : ∀ x ∈ trialRequirements, ¬ ∃ s ∈ trialRequirements, InWay s x := by decide +kernel
  have hWithin : ∀ x ∈ trialRequirements, x.acrossJobs = false →
      ∀ s ∈ trialRequirements, s.keys = x.keys → s.acrossJobs = false := by
    decide +kernel
  have hEnough : ∀ s ∈ trialRequirements,
      (s.acrossJobs = true → currentValue settledFile.load s = .scalar (.str "linear")) ∧
        (s.acrossJobs = false → s.minimumDistinctValues ≤
          (distinctThere scalarText (currentValue settledFile.load s)).length) := by
    decide +kernel
  intro x hx v hFollow
  constructor
  · intro hOwn values _
    rw [ListStays, if_neg (hFree x hx)]
    exact hWithin x hx hOwn
  · intro _
    rw [ValueStays, if_neg (hFree x hx)]
    intro s hs hKeys
    have hCurrent : currentValue settledFile.load s = v := by
      rw [currentValue, hKeys, hFollow]
      rfl
    rw [Enough, ← hCurrent]
    split
    next hAcross => exact ⟨_, (hEnough s hs).1 hAcross, by simp⟩
    next hJobs => exact (hEnough s hs).2 (Bool.eq_false_iff.mpr hJobs)

/-- The comparison of sizes below it makes a mapping of the list of models. -/
theorem models_disturbed :
    validateMethodologyRequirements nestedRequirements true = [] ∧
      ¬ TouchesOnlyNeeded scalarText nestedRequirements modelsFile.load
        (repairMethodologySettings scalarText modelsFile nestedRequirements).1.load := by
  refine ⟨by decide +kernel, fun h => ?_⟩
  obtain ⟨left, hLeft, -⟩ := h.lists _ mem_cons_self rfl
    [.scalar (.str "linear"), .scalar (.str "forest")] (by decide +kernel)
  have hMap : (Document.follow (trialComparison "model" "experiment_dimensions.model" .withinJob
      (by decide) (by decide)).keys (.map (repairMethodologySettings scalarText modelsFile
        nestedRequirements).1.load)).any Document.isMap = true := by
    decide +kernel
  rw [hLeft] at hMap
  cases hMap

end Glasslab.Methodology
