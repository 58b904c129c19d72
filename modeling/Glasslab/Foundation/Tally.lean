import Glasslab.Foundation.Table

/-!
# Tallies

A dictionary that counts in how many items a key occurs.
-/

namespace Foundation

open List Option

namespace Dict

variable {κ α : Type*} [DecidableEq κ]

/-- The count a dictionary holds for a key; a key it does not hold counts zero. -/
def count (d : List (κ × Nat)) (k : κ) : Nat := (d.lookup k).getD 0

def bump (d : List (κ × Nat)) (k : κ) : List (κ × Nat) := set k (count d k + 1) d

def tally (keys : α → List κ) (items : List α) : List (κ × Nat) :=
  items.foldl (fun d item => (keys item).foldl bump d) []

variable {d : List (κ × Nat)} {k k' : κ} {keys : α → List κ} {items : List α} {n : Nat}

theorem count_bump : count (bump d k) k' = count d k' + if k' = k then 1 else 0 := by
  unfold bump
  rw [count, lookup_set]
  by_cases hk : k' = k
  · simp [hk]
  · simp [hk, count]

theorem count_foldl_bump (ks : List κ) : count (ks.foldl bump d) k' = count d k' + ks.count k' := by
  induction ks generalizing d with
  | nil => rfl
  | cons k ks ih =>
    rw [foldl_cons, ih, count_bump, count_cons]
    by_cases hk : k' = k
    · subst hk
      simp
      omega
    · simp [hk, Ne.symm hk]

theorem nodup_foldl_bump (ks : List κ) (h : (d.map Prod.fst).Nodup) :
    ((ks.foldl bump d).map Prod.fst).Nodup := by
  induction ks generalizing d with
  | nil => exact h
  | cons k ks ih => exact ih (nodup_set h)

theorem nodup_tally : ((tally keys items).map Prod.fst).Nodup := by
  suffices ∀ d : List (κ × Nat), (d.map Prod.fst).Nodup →
      ((items.foldl (fun d item => (keys item).foldl bump d) d).map Prod.fst).Nodup from
    this [] nodup_nil
  induction items with
  | nil => exact fun d h => h
  | cons item items ih => exact fun d h => ih _ (nodup_foldl_bump _ h)

theorem count_tally (hKeys : ∀ item, (keys item).Nodup) (k : κ) :
    count (tally keys items) k = items.countP fun item => k ∈ keys item := by
  suffices ∀ d : List (κ × Nat), count (items.foldl (fun d item => (keys item).foldl bump d) d) k =
      count d k + items.countP fun item => k ∈ keys item by
    rw [tally, this, count, lookup_nil, getD_none, Nat.zero_add]
  induction items with
  | nil => exact fun d => rfl
  | cons item items ih =>
    intro d
    rw [foldl_cons, ih, count_foldl_bump, countP_cons, (hKeys item).count]
    by_cases hk : k ∈ keys item
    · simp only [hk, decide_true, if_true]
      omega
    · simp [hk]

theorem pos_foldl_bump (ks : List κ) (h : ∀ entry ∈ d, 0 < entry.2) :
    ∀ entry ∈ ks.foldl bump d, 0 < entry.2 := by
  induction ks generalizing d with
  | nil => exact h
  | cons k ks ih =>
    apply ih
    intro entry hEntry
    rcases mem_of_mem_set hEntry with rfl | hOld
    · exact Nat.succ_pos _
    · exact h entry hOld

theorem pos_of_mem_tally {entry : κ × Nat} (h : entry ∈ tally keys items) : 0 < entry.2 := by
  suffices ∀ d : List (κ × Nat), (∀ entry ∈ d, 0 < entry.2) →
      ∀ entry ∈ items.foldl (fun d item => (keys item).foldl bump d) d, 0 < entry.2 from
    this [] (fun entry hNil => by cases hNil) entry h
  clear h
  induction items with
  | nil => exact fun d h => h
  | cons item items ih => exact fun d h => ih _ (pos_foldl_bump _ h)

theorem mem_tally : (k, n) ∈ tally keys items ↔ 0 < n ∧ count (tally keys items) k = n := by
  constructor
  · intro h
    refine ⟨pos_of_mem_tally h, ?_⟩
    rw [count, lookup_of_mem nodup_tally h, getD_some]
  · rintro ⟨hPos, h⟩
    apply mem_of_lookup
    cases hLookup : (tally keys items).lookup k with
    | none =>
      rw [count, hLookup, getD_none] at h
      omega
    | some m =>
      rw [count, hLookup, getD_some] at h
      rw [h]

end Dict

/-- Where two items have a property, each place has another one that has it. -/
theorem exists_other_of_two_le_countP {α : Type*} {items : List α} {p : α → Bool} {i : Nat} {a : α}
    (hTwo : 2 ≤ items.countP p) (hAt : items[i]? = some a) :
    ∃ j b, j ≠ i ∧ items[j]? = some b ∧ p b = true := by
  obtain ⟨hLt, hGet⟩ := List.getElem?_eq_some_iff.mp hAt
  have hSplit : items = items.take i ++ a :: items.drop (i + 1) := by
    rw [← hGet, getElem_cons_drop, take_append_drop]
  have hCount : items.countP p =
      (items.take i).countP p + ((items.drop (i + 1)).countP p + if p a then 1 else 0) := by
    conv_lhs => rw [hSplit]
    rw [countP_append, countP_cons]
  have hOne : (if p a then 1 else 0) ≤ 1 := by split <;> omega
  rcases Nat.eq_zero_or_pos ((items.take i).countP p) with hNone | hBefore
  · have hAfter : 0 < (items.drop (i + 1)).countP p := by omega
    obtain ⟨b, hMem, hb⟩ := countP_pos_iff.mp hAfter
    obtain ⟨j, hj⟩ := List.getElem?_of_mem hMem
    rw [List.getElem?_drop] at hj
    exact ⟨i + 1 + j, b, by omega, hj, hb⟩
  · obtain ⟨b, hMem, hb⟩ := countP_pos_iff.mp hBefore
    obtain ⟨j, hj⟩ := List.getElem?_of_mem hMem
    rw [List.getElem?_take] at hj
    split at hj
    · exact ⟨j, b, by omega, hj, hb⟩
    · cases hj

end Foundation
