import Mathlib.Data.List.MinMax
import Mathlib.Data.List.Sort
import Mathlib.Data.Finset.Card

/-!
# Sorting by a key

`sortOn` is a stable sort by a key. Where the key tells the elements of a list apart, the result
does not depend on the order of the list (`sortOn_eq_of_perm`), and the keys of the result never do
(`map_sortOn_of_perm`). Otherwise it depends on the order of the elements with one key
(`sortOn_eq_of_classes`).
-/

namespace Foundation

open List

variable {α κ : Type*} [LinearOrder κ] {key : α → κ} {xs ys : List α} {x : α}

def sortOn (key : α → κ) (xs : List α) : List α := xs.insertionSort fun a b => key a ≤ key b

@[simp] theorem mem_sortOn : x ∈ sortOn key xs ↔ x ∈ xs := List.mem_insertionSort _

theorem perm_sortOn (key : α → κ) (xs : List α) : (sortOn key xs).Perm xs :=
  perm_insertionSort _ _

theorem pairwise_sortOn (key : α → κ) (xs : List α) :
    (sortOn key xs).Pairwise fun a b => key a ≤ key b := by
  exact pairwise_insertionSort _ xs

theorem sortOn_eq_self (h : xs.Pairwise fun a b => key a ≤ key b) : sortOn key xs = xs :=
  h.insertionSort_eq

theorem orderedInsert_congr {key' : α → κ} (hx : key x = key' x) (h : ∀ y ∈ ys, key y = key' y) :
    ys.orderedInsert (fun a b => key a ≤ key b) x =
      ys.orderedInsert (fun a b => key' a ≤ key' b) x := by
  induction ys with
  | nil => rfl
  | cons y ys ih =>
    simp only [orderedInsert_cons, hx, h y mem_cons_self,
      ih fun z hz => h z (mem_cons_of_mem _ hz)]

theorem sortOn_congr {key' : α → κ} (h : ∀ x ∈ xs, key x = key' x) :
    sortOn key xs = sortOn key' xs := by
  induction xs with
  | nil => rfl
  | cons x xs ih =>
    have hRest := ih fun y hy => h y (mem_cons_of_mem _ hy)
    unfold sortOn at hRest ⊢
    rw [insertionSort_cons, insertionSort_cons, ← hRest]
    refine orderedInsert_congr (h x mem_cons_self) fun y hy => ?_
    exact h y (mem_cons_of_mem _ ((mem_insertionSort _).mp hy))

/-- The order of a list does not matter where the key tells its elements apart. -/
theorem sortOn_eq_of_perm (hPerm : xs.Perm ys)
    (hKey : ∀ a ∈ xs, ∀ b ∈ xs, key a = key b → a = b) : sortOn key xs = sortOn key ys := by
  have hSorted : (sortOn key xs).Perm (sortOn key ys) :=
    (perm_sortOn key xs).trans (hPerm.trans (perm_sortOn key ys).symm)
  refine hSorted.eq_of_pairwise ?_ (pairwise_sortOn key xs) (pairwise_sortOn key ys)
  intro a b ha hb hab hba
  have hb' : b ∈ xs := hPerm.mem_iff.mpr (mem_sortOn.mp hb)
  exact hKey a (mem_sortOn.mp ha) b hb' (le_antisymm hab hba)

/-- The order of a list does not matter for the keys of the sorted one. -/
theorem map_sortOn_of_perm (hPerm : xs.Perm ys) :
    (sortOn key xs).map key = (sortOn key ys).map key := by
  have hSorted : ((sortOn key xs).map key).Perm ((sortOn key ys).map key) :=
    ((perm_sortOn key xs).trans (hPerm.trans (perm_sortOn key ys).symm)).map key
  refine hSorted.eq_of_pairwise (fun a b _ _ hab hba => le_antisymm hab hba) ?_ ?_
  · exact pairwise_map.mpr (pairwise_sortOn key xs)
  · exact pairwise_map.mpr (pairwise_sortOn key ys)

theorem le_of_head?_sortOn {first : α} (h : (sortOn key xs).head? = some first) :
    first ∈ xs ∧ ∀ x ∈ xs, key first ≤ key x := by
  obtain ⟨rest, hSort⟩ := List.head?_eq_some_iff.mp h
  have hPairwise := pairwise_sortOn key xs
  rw [hSort] at hPairwise
  refine ⟨mem_sortOn.mp (hSort ▸ mem_cons_self), fun x hx => ?_⟩
  rcases mem_cons.mp (hSort ▸ mem_sortOn.mpr hx : x ∈ first :: rest) with rfl | hRest
  · exact le_refl _
  · exact (pairwise_cons.mp hPairwise).1 x hRest

/-- The first element of a list gives way only to a smaller key. -/
theorem head?_sortOn_cons {first : α} (h : (sortOn key (x :: xs)).head? = some first) :
    first = x ∨ key first < key x := by
  have hSort : sortOn key (x :: xs) =
      (sortOn key xs).orderedInsert (fun a b => key a ≤ key b) x := rfl
  rw [hSort] at h
  cases hRest : sortOn key xs with
  | nil =>
    rw [hRest] at h
    exact Or.inl (Option.some.inj h).symm
  | cons y ys =>
    rw [hRest, orderedInsert_cons] at h
    by_cases hLe : key x ≤ key y
    · rw [if_pos hLe] at h
      exact Or.inl (Option.some.inj h).symm
    · rw [if_neg hLe] at h
      obtain rfl := Option.some.inj h
      exact Or.inr (not_le.mp hLe)

theorem orderedInsert_of_forall_le (h : ∀ y ∈ ys, key x ≤ key y) :
    ys.orderedInsert (fun a b => key a ≤ key b) x = x :: ys := by
  cases ys with
  | nil => rfl
  | cons y ys => exact orderedInsert_cons_of_le _ ys (h y mem_cons_self)

theorem filter_orderedInsert (p : α → Bool) (h : ys.Pairwise fun a b => key a ≤ key b) :
    (ys.orderedInsert (fun a b => key a ≤ key b) x).filter p =
      if p x then (ys.filter p).orderedInsert (fun a b => key a ≤ key b) x else ys.filter p := by
  induction ys with
  | nil => cases hx : p x <;> simp [hx]
  | cons y ys ih =>
    obtain ⟨hFirst, hRest⟩ := pairwise_cons.mp h
    rw [orderedInsert_cons]
    by_cases hLe : key x ≤ key y
    · have hAll : ∀ z ∈ (y :: ys).filter p, key x ≤ key z := by
        intro z hz
        rcases mem_cons.mp (mem_filter.mp hz).1 with rfl | hz
        · exact hLe
        · exact hLe.trans (hFirst z hz)
      rw [if_pos hLe, filter_cons, orderedInsert_of_forall_le hAll]
    · rw [if_neg hLe, filter_cons, filter_cons, ih hRest]
      by_cases hx : p x = true <;> by_cases hy : p y = true <;>
        simp [hx, hy, orderedInsert_cons, hLe]

theorem filter_sortOn (p : α → Bool) (xs : List α) :
    (sortOn key xs).filter p = sortOn key (xs.filter p) := by
  induction xs with
  | nil => rfl
  | cons x xs ih =>
    have hSort : ∀ zs, sortOn key (x :: zs) =
        (sortOn key zs).orderedInsert (fun a b => key a ≤ key b) x := fun _ => rfl
    rw [hSort, filter_orderedInsert p (pairwise_sortOn key xs), ih, filter_cons]
    by_cases hx : p x = true
    · rw [if_pos hx, if_pos hx, hSort]
    · rw [if_neg hx, if_neg hx]

theorem mem_iff_of_classes
    (h : ∀ k, xs.filter (fun a => key a = k) = ys.filter fun a => key a = k) (a : α) :
    a ∈ xs ↔ a ∈ ys := by
  have hClass : a ∈ xs.filter (fun b => key b = key a) ↔
      a ∈ ys.filter fun b => key b = key a := by rw [h]
  simpa using hClass

theorem eq_of_classes (hx : xs.Pairwise fun a b => key a ≤ key b)
    (hy : ys.Pairwise fun a b => key a ≤ key b)
    (h : ∀ k, xs.filter (fun a => key a = k) = ys.filter fun a => key a = k) : xs = ys := by
  induction xs generalizing ys with
  | nil =>
    refine (eq_nil_iff_forall_not_mem.mpr fun a ha => ?_).symm
    exact not_mem_nil ((mem_iff_of_classes h a).mpr ha)
  | cons x xs ih =>
    have hMem := mem_iff_of_classes h
    cases ys with
    | nil => exact absurd ((hMem x).mp mem_cons_self) not_mem_nil
    | cons y ys =>
      obtain ⟨hFirst, hRest⟩ := pairwise_cons.mp hx
      obtain ⟨hFirst', hRest'⟩ := pairwise_cons.mp hy
      have hKey : key x = key y := by
        apply le_antisymm
        · rcases mem_cons.mp ((hMem y).mpr mem_cons_self) with hEq | hIn
          · rw [hEq]
          · exact hFirst y hIn
        · rcases mem_cons.mp ((hMem x).mp mem_cons_self) with hEq | hIn
          · rw [hEq]
          · exact hFirst' x hIn
      -- the first elements come first in their class
      have hHead := h (key x)
      rw [filter_cons_of_pos (by simp), filter_cons_of_pos (by simp [hKey])] at hHead
      obtain ⟨rfl, _⟩ := List.cons.inj hHead
      have hTail (k : κ) : xs.filter (fun a => key a = k) = ys.filter fun a => key a = k := by
        have hBoth := h k
        by_cases hk : key x = k
        · rw [filter_cons_of_pos (by simp [hk]), filter_cons_of_pos (by simp [hk])] at hBoth
          exact (List.cons.inj hBoth).2
        · rwa [filter_cons_of_neg (by simp [hk]), filter_cons_of_neg (by simp [hk])] at hBoth
      rw [ih hRest hRest' hTail]

/-- Elements with different keys may change places. -/
theorem sortOn_eq_of_classes
    (h : ∀ k, xs.filter (fun a => key a = k) = ys.filter fun a => key a = k) :
    sortOn key xs = sortOn key ys := by
  refine eq_of_classes (pairwise_sortOn key xs) (pairwise_sortOn key ys) fun k => ?_
  rw [filter_sortOn, filter_sortOn, h]

theorem head?_sortOn_cons_eq : (sortOn key (x :: xs)).head? =
    some (((sortOn key xs).head?.filter fun y => ¬ key x ≤ key y).getD x) := by
  have hSort : sortOn key (x :: xs) =
      (sortOn key xs).orderedInsert (fun a b => key a ≤ key b) x := rfl
  rw [hSort]
  cases sortOn key xs with
  | nil => rfl
  | cons y ys =>
    by_cases hLe : key x ≤ key y <;> simp [hLe, Option.filter]

/-- An element at the end of a list comes first in the sorted list only if its key is smaller than
every other. -/
theorem head?_sortOn_concat : (sortOn key (xs ++ [x])).head? =
    if ∀ a ∈ xs, key x < key a then some x else (sortOn key xs).head? := by
  induction xs with
  | nil => simp [sortOn]
  | cons y xs ih =>
    rw [cons_append, head?_sortOn_cons_eq, head?_sortOn_cons_eq, ih]
    by_cases hRest : ∀ a ∈ xs, key x < key a
    · rw [if_pos hRest]
      by_cases hFirst : key x < key y
      · rw [if_pos ((forall_mem_cons (p := fun a => key x < key a)).mpr ⟨hFirst, hRest⟩)]
        simp [Option.filter, hFirst]
      · rw [if_neg fun h => hFirst (h y mem_cons_self)]
        cases hHead : (sortOn key xs).head? with
        | none => simp [Option.filter, not_lt.mp hFirst]
        | some z =>
          have hLess := hRest z (le_of_head?_sortOn hHead).1
          have hLe : key y ≤ key z := (not_lt.mp hFirst).trans hLess.le
          simp [Option.filter, not_lt.mp hFirst, hLe]
    · rw [if_neg hRest, if_neg fun h => hRest fun a ha => h a (mem_cons_of_mem y ha)]

theorem mem_argmax_iff_le (hKey : ∀ a ∈ xs, ∀ b ∈ xs, key a = key b → a = b) :
    x ∈ xs.argmax key ↔ x ∈ xs ∧ ∀ a ∈ xs, key a ≤ key x := by
  classical
  rw [mem_argmax_iff]
  constructor
  · rintro ⟨hx, hLe, _⟩
    exact ⟨hx, hLe⟩
  · rintro ⟨hx, hLe⟩
    refine ⟨hx, hLe, fun a ha hxa => ?_⟩
    rw [hKey a ha x hx (le_antisymm (hLe a ha) hxa)]

/-- The order of a list does not matter for its largest element where the key tells its elements
apart. -/
theorem argmax_eq_of_perm (hPerm : xs.Perm ys)
    (hKey : ∀ a ∈ xs, ∀ b ∈ xs, key a = key b → a = b) : xs.argmax key = ys.argmax key := by
  have hKey' : ∀ a ∈ ys, ∀ b ∈ ys, key a = key b → a = b := fun a ha b hb =>
    hKey a (hPerm.mem_iff.mpr ha) b (hPerm.mem_iff.mpr hb)
  refine Option.ext fun x => ?_
  have hMem := (mem_argmax_iff_le (x := x) hKey).trans
    ((and_congr hPerm.mem_iff (forall_congr' fun a => imp_congr_left hPerm.mem_iff)).trans
      (mem_argmax_iff_le hKey').symm)
  exact hMem

end Foundation
