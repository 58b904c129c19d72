import Glasslab.Foundation.Sorting
import Glasslab.Foundation.Table

/-!
# Wildcard patterns and ordered rules

A pattern is a sequence in which one letter, the star, stands for any sequence; every other
letter stands for itself. Rules are pattern/value pairs evaluated in the order of their
patterns, and the last rule that applies decides.

The stem of a pattern is what comes before its first star. Everything that fits begins with
the stem, so patterns whose stems are `apart` have no text in common.
-/

namespace Foundation.Pattern

open List

variable {α : Type*} [DecidableEq α] {star a : α} {l p s : List α}

def fits (star : α) : List α → List α → Bool
  | [], s => s.isEmpty
  | a :: p, s =>
    if a = star then s.tails.any (fits star p)
    else
      match s with
      | [] => false
      | b :: s => a = b && fits star p s

@[simp] theorem fits_nil : fits star [] s ↔ s = [] := by
  simp [fits]

@[simp] theorem fits_star : fits star (star :: p) s ↔ ∃ t, t <:+ s ∧ fits star p t := by
  simp [fits]

theorem fits_cons (ha : a ≠ star) :
    fits star (a :: p) s ↔ ∃ t, s = a :: t ∧ fits star p t := by
  cases s with
  | nil => simp [fits, ha]
  | cons b s =>
    simp only [fits, ha, if_false, Bool.and_eq_true, decide_eq_true_eq, List.cons.injEq]
    constructor
    · rintro ⟨rfl, h⟩
      exact ⟨s, ⟨rfl, rfl⟩, h⟩
    · rintro ⟨t, ⟨rfl, rfl⟩, h⟩
      exact ⟨rfl, h⟩

/-- Letters before the rest of a pattern are matched one by one. -/
theorem fits_append (hl : star ∉ l) :
    fits star (l ++ p) s ↔ ∃ t, s = l ++ t ∧ fits star p t := by
  induction l generalizing s with
  | nil => simp
  | cons a l ih =>
    obtain ⟨ha, hl⟩ := ne_and_not_mem_of_not_mem_cons hl
    rw [cons_append, fits_cons (Ne.symm ha)]
    constructor
    · rintro ⟨t, rfl, h⟩
      obtain ⟨u, rfl, hu⟩ := (ih hl).mp h
      exact ⟨u, rfl, hu⟩
    · rintro ⟨u, rfl, hu⟩
      exact ⟨l ++ u, rfl, (ih hl).mpr ⟨u, rfl, hu⟩⟩

theorem fits_literal (hl : star ∉ l) : fits star l s ↔ s = l := by
  have h := fits_append (p := []) (s := s) hl
  simpa using h

theorem fits_all : fits star [star] s := by
  rw [fits_star]
  exact ⟨[], nil_suffix, fits_nil.mpr rfl⟩

theorem fits_prefix_iff (hl : star ∉ l) : fits star (l ++ [star]) s ↔ l <+: s := by
  rw [fits_append hl]
  constructor
  · rintro ⟨t, rfl, -⟩
    exact prefix_append l t
  · rintro ⟨t, rfl⟩
    exact ⟨t, rfl, fits_all⟩

theorem fits_infix_iff (hl : star ∉ l) : fits star (star :: (l ++ [star])) s ↔ l <:+: s := by
  rw [fits_star]
  constructor
  · rintro ⟨t, hSuffix, h⟩
    exact ((fits_prefix_iff hl).mp h).isInfix.trans hSuffix.isInfix
  · rintro ⟨u, t, rfl⟩
    refine ⟨l ++ t, ⟨u, by simp⟩, (fits_prefix_iff hl).mpr (prefix_append l t)⟩

/-- What a pattern fixes before its first star. -/
def stem (star : α) (p : List α) : List α := p.takeWhile (· ≠ star)

theorem star_not_mem_stem : star ∉ stem star p := by
  intro h
  simpa using all_eq_true.mp all_takeWhile star h

theorem stem_prefix (h : fits star p s) : stem star p <+: s := by
  rw [← takeWhile_append_dropWhile (p := (· ≠ star)) (l := p)] at h
  obtain ⟨t, rfl, -⟩ := (fits_append star_not_mem_stem).mp h
  exact prefix_append _ t

/-- Two texts differ at a position that both have. -/
def apart : List α → List α → Bool
  | a :: s, b :: t => a ≠ b || apart s t
  | _, _ => false

/-- Two beginnings of one text are nowhere apart. -/
theorem apart_of_prefix {t u : List α} (hs : s <+: u) (ht : t <+: u) : apart s t = false := by
  induction u generalizing s t with
  | nil =>
    cases prefix_nil.mp hs
    rfl
  | cons c u ih =>
    cases s with
    | nil => rfl
    | cons a s =>
      cases t with
      | nil => rfl
      | cons b t =>
        obtain ⟨rfl, hs'⟩ := cons_prefix_cons.mp hs
        obtain ⟨rfl, ht'⟩ := cons_prefix_cons.mp ht
        simp [apart, ih hs' ht']

variable {κ ν : Type*}

def lastMatch (applies : κ → Bool) (rules : List (κ × ν)) : Option ν :=
  ((rules.filter fun r => applies r.1).getLast?).map Prod.snd

variable {rules : List (κ × ν)} {applies : κ → Bool}

/--
A rule that applies decides, where every rule that applies and says something else sorts
before it.
-/
theorem lastMatch_sorted [LinearOrder κ] {k : κ}
    {v : ν} (hMem : (k, v) ∈ rules) (hApplies : applies k)
    (hBefore : ∀ k' v', (k', v') ∈ rules → applies k' → v' ≠ v → k' < k) :
    lastMatch applies (sortOn Prod.fst rules) = some v := by
  have hSorted : ((sortOn Prod.fst rules).filter fun r => applies r.1).Pairwise
      fun a b => a.1 ≤ b.1 := (pairwise_sortOn Prod.fst rules).filter _
  have hIn : (k, v) ∈ (sortOn Prod.fst rules).filter fun r => applies r.1 := by
    simp [hMem, hApplies]
  rcases eq_nil_or_concat' ((sortOn Prod.fst rules).filter fun r => applies r.1) with
    hNil | ⟨front, ⟨k', v'⟩, hConcat⟩
  · rw [hNil] at hIn
    cases hIn
  · rw [lastMatch, hConcat, List.getLast?_concat, Option.map_some]
    have hLast : (k', v') ∈ (sortOn Prod.fst rules).filter fun r => applies r.1 := by
      rw [hConcat]
      exact mem_concat_self
    obtain ⟨hLastMem, hLastApplies⟩ := mem_filter.mp hLast
    rw [hConcat] at hSorted hIn
    have hLe : k ≤ k' := by
      rcases mem_append.mp hIn with hFront | hEq
      · exact (pairwise_append.mp hSorted).2.2 _ hFront _ (mem_singleton_self _)
      · cases mem_singleton.mp hEq
        exact le_rfl
    by_contra hNe
    have hLt := hBefore k' v' (mem_sortOn.mp hLastMem) hLastApplies fun h => hNe (congrArg some h)
    exact absurd hLt (not_lt.mpr hLe)

/-- The same of rules that are assigned one after the other, where a later one may replace an
earlier one: no replacement reaches the deciding rule, since it would sort before itself. -/
theorem lastMatch_merge [LinearOrder κ] {k : κ}
    {v : ν} (hMem : (k, v) ∈ rules) (hApplies : applies k)
    (hBefore : ∀ k' v', (k', v') ∈ rules → applies k' → v' ≠ v → k' < k) :
    lastMatch applies (sortOn Prod.fst (Dict.merge [] rules)) = some v := by
  have hOnly : ∀ w, (k, w) ∈ rules → w = v := by
    intro w hw
    by_contra hne
    exact lt_irrefl k (hBefore k w hw hApplies hne)
  refine lastMatch_sorted ?_ hApplies ?_
  · have hLookup := Dict.lookup_merge_of_mem (d := []) hMem hOnly
    obtain ⟨front, back, hSplit, -⟩ := lookup_eq_some_iff.mp hLookup
    rw [hSplit]
    exact mem_append_right _ mem_cons_self
  · intro k' v' hMem'
    rcases Dict.mem_of_mem_merge hMem' with hNil | hRule
    · cases hNil
    · exact hBefore k' v' hRule

end Foundation.Pattern
