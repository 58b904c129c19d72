import Mathlib.Data.List.Nodup

/-!
# Keyed tables in insertion order

A table is a list of key/row pairs in which no key occurs twice, as a database table
with a primary key keeps them. Rows are read with `find`, added at the end with `insert`
(which needs the key to be free) and rewritten in place with `update`. The key is not
part of the row, so a rewrite cannot break uniqueness and the invariant travels with the
value.

The second half is about plain association lists, on which `set` and `merge` behave as
assignment and update do on an insertion-ordered dictionary.
-/

namespace Foundation

open List

theorem lookup_cons_if {κ α : Type*} [DecidableEq κ] (k a : κ) (b : α) (l : List (κ × α)) :
    List.lookup k ((a, b) :: l) = if k = a then some b else l.lookup k := by
  by_cases h : k = a
  · subst h
    simp
  · have hne : (k == a) = false := by simpa using h
    simp [lookup_cons, hne, h]

/-- Rows in insertion order under distinct keys. -/
structure Table (κ ρ : Type*) where
  rows : List (κ × ρ)
  nodup : (rows.map Prod.fst).Nodup

namespace Table

variable {κ ρ : Type*} [DecidableEq κ]

def empty : Table κ ρ := ⟨[], by simp⟩

def find (t : Table κ ρ) (k : κ) : Option ρ := t.rows.lookup k

/-- Add a row under a free key. -/
def insert (t : Table κ ρ) (k : κ) (r : ρ) (h : t.find k = none) : Table κ ρ where
  rows := t.rows ++ [(k, r)]
  nodup := by
    have hNot : ∀ a x, (a, x) ∈ t.rows → ¬ a = k := by
      rintro a x hMem rfl
      have hNe := List.lookup_eq_none_iff.mp h (a, x) hMem
      simp at hNe
    simpa [List.nodup_append, t.nodup] using hNot

/-- Add a row under a key, unless the key is taken. -/
def add (t : Table κ ρ) (k : κ) (r : ρ) : Table κ ρ :=
  if h : t.find k = none then t.insert k r h else t

/-- Rewrite the row under a key in place; nothing happens when there is none. -/
def update (t : Table κ ρ) (k : κ) (f : ρ → ρ) : Table κ ρ where
  rows := t.rows.map fun p => if p.1 = k then (p.1, f p.2) else p
  nodup := by
    have hKeys : (fun p : κ × ρ => (if p.1 = k then (p.1, f p.2) else p).1) = Prod.fst := by
      funext p
      split <;> rfl
    simpa [List.map_map, Function.comp_def, hKeys] using t.nodup

def mapRows (t : Table κ ρ) (f : ρ → ρ) : Table κ ρ where
  rows := t.rows.map fun p => (p.1, f p.2)
  nodup := by simpa [List.map_map, Function.comp_def] using t.nodup

variable {t : Table κ ρ} {k k' : κ} {r r' : ρ} {f : ρ → ρ}

theorem find_eq_some_iff : t.find k = some r ↔ (k, r) ∈ t.rows := by
  obtain ⟨rows, hNodup⟩ := t
  show rows.lookup k = some r ↔ (k, r) ∈ rows
  induction rows with
  | nil => simp
  | cons p rows ih =>
    obtain ⟨a, b⟩ := p
    simp only [map_cons, nodup_cons, mem_map, not_exists, not_and] at hNodup
    rw [lookup_cons_if]
    by_cases hk : k = a
    · subst hk
      have hNot : (k, r) ∉ rows := fun h => hNodup.1 _ h rfl
      simp [hNot, eq_comm]
    · simp [hk, ih hNodup.2]

@[simp] theorem find_empty : (empty : Table κ ρ).find k = none := rfl

section

variable (h : t.find k = none)
include h

theorem rows_add : (t.add k r).rows = t.rows ++ [(k, r)] := by
  simp [add, h, insert]

theorem find_add :
    (t.add k r).find k' = if k' = k then some r else t.find k' := by
  simp only [find, rows_add h, lookup_append, lookup_cons_if, lookup_nil]
  by_cases hEq : k' = k
  · subst hEq
    have hNone : List.lookup k' t.rows = none := h
    simp [hNone]
  · simp [hEq]

theorem find_add_self : (t.add k r).find k = some r := by
  simp [find_add h]

theorem find_add_ne (hne : k' ≠ k) :
    (t.add k r).find k' = t.find k' := by
  simp [find_add h, hne]

end

theorem find_update : (t.update k f).find k' = if k' = k then (t.find k').map f else t.find k' := by
  simp only [find, update]
  induction t.rows with
  | nil => simp
  | cons p rows ih =>
    obtain ⟨a, b⟩ := p
    rw [map_cons]
    by_cases hEq : a = k
    · subst hEq
      rw [if_pos rfl, lookup_cons_if, lookup_cons_if, ih]
      by_cases hk : k' = a <;> simp [hk]
    · rw [if_neg hEq, lookup_cons_if, lookup_cons_if, ih]
      by_cases hk : k' = a
      · subst hk
        simp [hEq]
      · simp [hk]

@[simp] theorem find_update_self : (t.update k f).find k = (t.find k).map f := by
  simp [find_update]

theorem find_update_ne (hne : k' ≠ k) : (t.update k f).find k' = t.find k' := by
  simp [find_update, hne]

@[simp] theorem find_update_isSome :
    ((t.update k f).find k').isSome = (t.find k').isSome := by
  rw [find_update]
  split <;> simp

@[simp] theorem find_mapRows : (t.mapRows f).find k = (t.find k).map f := by
  simp only [find, mapRows]
  induction t.rows with
  | nil => simp
  | cons p rows ih =>
    rw [map_cons, lookup_cons_if, lookup_cons_if, ih]
    split <;> rfl

def count (t : Table κ ρ) (q : ρ → Bool) : Nat := (t.rows.map Prod.snd).countP q

theorem count_add {q : ρ → Bool} (h : t.find k = none) :
    (t.add k r).count q = t.count q + (q r).toNat := by
  rw [count, rows_add h, map_append, countP_append, ← count]
  cases hq : q r <;> simp [hq]

/-- Rewriting a row trades what the old row counts for what the new one does. -/
theorem count_update {q : ρ → Bool} (h : t.find k = some r) :
    (t.update k f).count q + (q r).toNat = t.count q + (q (f r)).toNat := by
  obtain ⟨rows, hNodup⟩ := t
  replace h : (k, r) ∈ rows := find_eq_some_iff.mp h
  show ((rows.map fun p => if p.1 = k then (p.1, f p.2) else p).map Prod.snd).countP q + _ =
    (rows.map Prod.snd).countP q + _
  induction rows with
  | nil => cases h
  | cons p rows ih =>
    obtain ⟨a, b⟩ := p
    simp only [map_cons, nodup_cons, mem_map, not_exists, not_and] at hNodup
    simp only [map_cons, countP_cons]
    by_cases hKey : a = k
    · subst hKey
      -- The key occurs nowhere else, so the rest of the table stays.
      have hRest : (rows.map fun p => if p.1 = a then (p.1, f p.2) else p) = rows := by
        refine (map_congr_left fun p hp => ?_).trans (map_id rows)
        exact if_neg fun hEq => hNodup.1 p hp hEq
      have hHead : r = b := by
        rcases mem_cons.mp h with hEq | hMem
        · exact congrArg Prod.snd hEq
        · exact absurd rfl (hNodup.1 _ hMem)
      rw [if_pos rfl, hRest, hHead]
      cases q b <;> cases q (f b) <;> simp
    · have hMem : (k, r) ∈ rows := by
        rcases mem_cons.mp h with hEq | hMem
        · exact absurd (congrArg Prod.fst hEq).symm hKey
        · exact hMem
      have hRest := ih hNodup.2 hMem
      rw [if_neg hKey]
      dsimp only at hRest ⊢
      omega

theorem count_mono {q q' : ρ → Bool} (h : ∀ k r, t.find k = some r → q r → q' r) :
    t.count q ≤ t.count q' := by
  refine countP_mono_left fun r hr hq => ?_
  obtain ⟨⟨k, r'⟩, hMem, rfl⟩ := mem_map.mp hr
  exact h k r' (find_eq_some_iff.mpr hMem) hq

end Table

/-! ## Dictionaries -/

namespace Dict

variable {κ α : Type*} [DecidableEq κ]

/-- Assign one entry: in place when the key is there, at the end otherwise. -/
def set (k : κ) (v : α) : List (κ × α) → List (κ × α)
  | [] => [(k, v)]
  | (a, b) :: d => if a = k then (a, v) :: d else (a, b) :: set k v d

/-- Assign every entry of the second dictionary, in its order. -/
def merge (d e : List (κ × α)) : List (κ × α) := e.foldl (fun d p => set p.1 p.2 d) d

variable {k k' : κ} {v : α} {d e : List (κ × α)}

theorem lookup_set : (set k v d).lookup k' = if k' = k then some v else d.lookup k' := by
  induction d with
  | nil => simp [set, lookup_cons_if]
  | cons p d ih =>
    obtain ⟨a, b⟩ := p
    by_cases ha : a = k
    · subst ha
      by_cases hk : k' = a <;> simp [set, lookup_cons_if, hk]
    · by_cases hk : k' = a
      · subst hk
        simp [set, ha]
      · simp [set, ha, lookup_cons_if, hk, ih]

/-- What a dictionary holds after an assignment is the value that was assigned, or was there. -/
theorem mem_of_mem_set {p : κ × α} (h : p ∈ set k v d) : p = (k, v) ∨ p ∈ d := by
  induction d with
  | nil => exact .inl (mem_singleton.mp h)
  | cons q d ih =>
    rw [set] at h
    split at h
    next ha =>
      subst ha
      rcases mem_cons.mp h with rfl | h
      · exact .inl rfl
      · exact .inr (mem_cons_of_mem _ h)
    next =>
      rcases mem_cons.mp h with rfl | h
      · exact .inr mem_cons_self
      · exact (ih h).imp_right (mem_cons_of_mem _)

theorem set_of_not_mem (h : k ∉ d.map Prod.fst) : set k v d = d ++ [(k, v)] := by
  induction d with
  | nil => rfl
  | cons p d ih =>
    rw [map_cons, mem_cons, not_or] at h
    rw [set, if_neg (Ne.symm h.1), ih h.2, cons_append]

theorem keys_set {w : α} : (set k v d).map Prod.fst = (set k w d).map Prod.fst := by
  induction d with
  | nil => rfl
  | cons p d ih =>
    obtain ⟨a, b⟩ := p
    rw [set, set]
    split
    · rfl
    · exact congrArg (a :: ·) ih

/-- An assignment leaves no key twice. -/
theorem nodup_set (h : (d.map Prod.fst).Nodup) : ((set k v d).map Prod.fst).Nodup := by
  induction d with
  | nil => simp [set]
  | cons p d ih =>
    obtain ⟨hNot, hRest⟩ := nodup_cons.mp h
    rw [set]
    split
    · exact h
    next ha =>
      refine nodup_cons.mpr ⟨?_, ih hRest⟩
      intro hMem
      obtain ⟨⟨a', b'⟩, hEntry, rfl⟩ := mem_map.mp hMem
      rcases mem_of_mem_set hEntry with hNew | hOld
      · exact ha (congrArg Prod.fst hNew)
      · exact hNot (mem_map.mpr ⟨_, hOld, rfl⟩)

/-- Without repeated keys every entry is the one that is looked up. -/
theorem lookup_of_mem (h : (d.map Prod.fst).Nodup) (hMem : (k, v) ∈ d) : d.lookup k = some v :=
  Table.find_eq_some_iff (t := ⟨d, h⟩).mpr hMem

theorem mem_of_lookup (h : d.lookup k = some v) : (k, v) ∈ d := by
  obtain ⟨before, after, rfl, -⟩ := lookup_eq_some_iff.mp h
  exact mem_append_right _ mem_cons_self

/-- Of two assignments to one key the later one stays. -/
theorem set_set {w : α} : set k w (set k v d) = set k w d := by
  induction d with
  | nil => simp [set]
  | cons p d ih =>
    obtain ⟨a, b⟩ := p
    by_cases ha : a = k
    · simp [set, ha]
    · simp [set, ha, ih]

/-- Assigning what is there changes nothing. -/
theorem set_of_lookup (h : d.lookup k = some v) : set k v d = d := by
  induction d with
  | nil => cases h
  | cons p d ih =>
    obtain ⟨a, b⟩ := p
    rw [lookup_cons_if] at h
    by_cases ha : a = k
    · subst ha
      rw [if_pos rfl, Option.some.injEq] at h
      simp [set, h]
    · rw [if_neg (Ne.symm ha)] at h
      simp [set, ha, ih h]

/-- A key to which the second dictionary assigns nothing new keeps its entry. -/
theorem lookup_merge_of_forall (hd : d.lookup k = some v) (he : ∀ w, (k, w) ∈ e → w = v) :
    (merge d e).lookup k = some v := by
  induction e generalizing d with
  | nil => exact hd
  | cons p e ih =>
    obtain ⟨a, b⟩ := p
    apply ih
    · rw [lookup_set]
      split
      next hk =>
        subst hk
        rw [he b (by simp)]
      next => exact hd
    · intro w hw
      exact he w (by simp [hw])

theorem mem_of_mem_merge {p : κ × α} (h : p ∈ merge d e) : p ∈ d ∨ p ∈ e := by
  induction e generalizing d with
  | nil => exact .inl h
  | cons q e ih =>
    rcases ih (d := set q.1 q.2 d) h with hSet | hMem
    · rcases mem_of_mem_set hSet with rfl | hMem
      · exact .inr mem_cons_self
      · exact .inl hMem
    · exact .inr (mem_cons_of_mem _ hMem)

/-- A key to which one value is assigned, once or more, holds that value. -/
theorem lookup_merge_of_mem (h : (k, v) ∈ e) (he : ∀ w, (k, w) ∈ e → w = v) :
    (merge d e).lookup k = some v := by
  induction e generalizing d with
  | nil => cases h
  | cons p e ih =>
    show (merge (set p.1 p.2 d) e).lookup k = some v
    have hRest : ∀ w, (k, w) ∈ e → w = v := fun w hw => he w (mem_cons_of_mem _ hw)
    rcases mem_cons.mp h with rfl | hMem
    · exact lookup_merge_of_forall (by simp [lookup_set]) hRest
    · exact ih hMem hRest

end Dict

end Foundation
