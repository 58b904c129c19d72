import Mathlib.Data.List.Nodup
import Mathlib.Data.List.Perm.Basic

/-!
# Tables with an index that is kept by hand

An index holds the key of a row and a value of it. It mirrors the table if it has one entry for
every row and no other. Adding a row with its entry keeps that, and so does removing rows after the
entries with their keys. Removing rows alone does not (`not_mirrored_removeRows`).

A search joins the rows with the entries that match. Where the index mirrors the table, it finds a
row once, and by the value that the row has.
-/

namespace Foundation

open List

/-- Rows, and the keys and values that are entered for them. -/
structure Indexed (κ τ ρ : Type*) where
  rows : List ρ := []
  index : List (κ × τ) := []

namespace Indexed

variable {κ τ ρ : Type*} [DecidableEq κ] (key : ρ → κ) (value : ρ → τ)

/-- Add a row and its entry, unless the key is taken. -/
def insert (t : Indexed κ τ ρ) (row : ρ) : Option (Indexed κ τ ρ) :=
  if key row ∈ t.rows.map key then none
  else some { rows := t.rows ++ [row], index := t.index ++ [(key row, value row)] }

def unindex (t : Indexed κ τ ρ) (doomed : ρ → Bool) : Indexed κ τ ρ :=
  { t with index := t.index.filter fun entry => entry.1 ∉ (t.rows.filter doomed).map key }

def removeRows (t : Indexed κ τ ρ) (doomed : ρ → Bool) : Indexed κ τ ρ :=
  { t with rows := t.rows.filter fun row => !doomed row }

def search (t : Indexed κ τ ρ) (matching : κ × τ → Bool) : List (ρ × τ) :=
  t.rows.flatMap fun row =>
    (t.index.filter fun entry => entry.1 = key row ∧ matching entry).map fun entry => (row, entry.2)

/-- The index has one entry for every row, and keys tell rows apart. -/
structure Mirrored (t : Indexed κ τ ρ) : Prop where
  index : t.index.Perm (t.rows.map fun row => (key row, value row))
  keys : (t.rows.map key).Nodup

variable {key value} {t u : Indexed κ τ ρ} {row : ρ} {doomed : ρ → Bool}

omit [DecidableEq κ] in
theorem mirrored_empty : Mirrored key value {} := ⟨.nil, List.nodup_nil⟩

theorem insert_eq_some : insert key value t row = some u ↔
    key row ∉ t.rows.map key ∧
      u = { rows := t.rows ++ [row], index := t.index ++ [(key row, value row)] } := by
  unfold insert
  split
  next hTaken => simp [hTaken]
  next hFree => simp [hFree, eq_comm]

theorem Mirrored.insert (h : Mirrored key value t) (hInsert : insert key value t row = some u) :
    Mirrored key value u := by
  obtain ⟨hFree, rfl⟩ := insert_eq_some.mp hInsert
  constructor
  · rw [map_append]
    exact h.index.append_right _
  · rw [map_append]
    refine nodup_append.mpr ⟨h.keys, nodup_singleton _, fun k hk other hOther => ?_⟩
    rintro rfl
    rw [mem_singleton.mp hOther] at hk
    exact hFree hk

omit [DecidableEq κ] in
theorem key_mem_doomed (doomed : ρ → Bool) (h : (t.rows.map key).Nodup) (hRow : row ∈ t.rows) :
    key row ∈ (t.rows.filter doomed).map key ↔ doomed row = true := by
  constructor
  · intro hMem
    obtain ⟨other, hOther, hKey⟩ := mem_map.mp hMem
    obtain ⟨hIn, hDoomed⟩ := mem_filter.mp hOther
    rwa [inj_on_of_nodup_map h hIn hRow hKey] at hDoomed
  · intro hDoomed
    exact mem_map_of_mem (mem_filter.mpr ⟨hRow, hDoomed⟩)

theorem Mirrored.unindex_removeRows (h : Mirrored key value t) (doomed : ρ → Bool) :
    Mirrored key value ((t.unindex key doomed).removeRows doomed) := by
  constructor
  · have hFilter := h.index.filter fun entry => entry.1 ∉ (t.rows.filter doomed).map key
    rw [filter_map] at hFilter
    have hRows : t.rows.filter (((fun entry : κ × τ =>
        decide (entry.1 ∉ (t.rows.filter doomed).map key)) ∘ fun row => (key row, value row))) =
        t.rows.filter fun row => !doomed row := by
      refine filter_congr fun row hRow => ?_
      have hKey := key_mem_doomed doomed h.keys hRow
      simp only [Function.comp_apply, decide_not]
      congr 1
      exact Bool.eq_iff_iff.mpr (decide_eq_true_iff.trans hKey)
    rw [hRows] at hFilter
    exact hFilter
  · exact h.keys.sublist (filter_sublist.map key)

omit [DecidableEq κ] in
/-- An index keeps the entries of rows that are removed without it. -/
theorem not_mirrored_removeRows (h : Mirrored key value t)
    (hDoomed : ∃ row ∈ t.rows, doomed row = true) : ¬ Mirrored key value (t.removeRows doomed) := by
  intro hAfter
  have hBefore := h.index.length_eq
  have hLength := hAfter.index.length_eq
  have hFewer : (t.rows.filter fun row => !doomed row).length < t.rows.length := by
    obtain ⟨row, hRow, hIs⟩ := hDoomed
    refine length_filter_lt_length_iff_exists.mpr ⟨row, hRow, ?_⟩
    simp [hIs]
  simp only [removeRows, length_map] at hBefore hLength
  omega

omit [DecidableEq κ] in
theorem removeRows_eq_self (h : ∀ row ∈ t.rows, doomed row = false) : t.removeRows doomed = t := by
  have hRows : (t.rows.filter fun row => !doomed row) = t.rows :=
    filter_eq_self.mpr fun row hRow => by simp [h row hRow]
  rw [removeRows, hRows]

theorem Mirrored.filter_index (h : Mirrored key value t) (hRow : row ∈ t.rows)
    (matching : κ × τ → Bool) :
    (t.index.filter fun entry => entry.1 = key row ∧ matching entry) =
      if matching (key row, value row) then [(key row, value row)] else [] := by
  have hPerm := h.index.filter fun entry => entry.1 = key row ∧ matching entry
  rw [filter_map] at hPerm
  have hOwn : t.rows.filter ((fun entry : κ × τ => decide (entry.1 = key row ∧ matching entry)) ∘
      fun other => (key other, value other)) =
      if matching (key row, value row) then [row] else [] := by
    obtain ⟨before, after, hSplit⟩ := append_of_mem hRow
    have hKeys := h.keys
    rw [hSplit, map_append, map_cons] at hKeys
    have hOthers : ∀ other, other ∈ before ∨ other ∈ after → key other ≠ key row := by
      intro other hOther hSame
      rw [nodup_middle, nodup_cons, mem_append] at hKeys
      rcases hOther with hOther | hOther
      · exact hKeys.1 (.inl (hSame ▸ mem_map_of_mem hOther))
      · exact hKeys.1 (.inr (hSame ▸ mem_map_of_mem hOther))
    have hNil : ∀ others : List ρ, (∀ other ∈ others, key other ≠ key row) →
        others.filter ((fun entry : κ × τ => decide (entry.1 = key row ∧ matching entry)) ∘
          fun other => (key other, value other)) = [] := by
      intro others hApart
      refine filter_eq_nil_iff.mpr fun other hOther hIs => ?_
      exact hApart other hOther (of_decide_eq_true hIs).1
    rw [hSplit, filter_append, filter_cons,
      hNil before fun other hOther => hOthers other (.inl hOther),
      hNil after fun other hOther => hOthers other (.inr hOther)]
    simp
  rw [hOwn] at hPerm
  split at hPerm <;> split
  · exact perm_singleton.mp hPerm
  · contradiction
  · contradiction
  · exact perm_nil.mp hPerm

/-- A search of a mirrored table finds the rows whose entry matches, each once and by its value. -/
theorem Mirrored.search_eq (h : Mirrored key value t) (matching : κ × τ → Bool) :
    t.search key matching =
      (t.rows.filter fun row => matching (key row, value row)).map fun row => (row, value row) := by
  have hRows : ∀ rows : List ρ, (∀ row ∈ rows, row ∈ t.rows) →
      (rows.flatMap fun row =>
        (t.index.filter fun entry => entry.1 = key row ∧ matching entry).map
          fun entry => (row, entry.2)) =
        (rows.filter fun row => matching (key row, value row)).map fun row => (row, value row) := by
    intro rows
    induction rows with
    | nil => exact fun _ => rfl
    | cons row rest ih =>
      intro hIn
      rw [flatMap_cons, h.filter_index (hIn row mem_cons_self),
        ih fun other hOther => hIn other (mem_cons_of_mem _ hOther)]
      by_cases hMatch : matching (key row, value row) = true <;> simp [hMatch]
  exact hRows t.rows fun _ h => h

end Indexed

end Foundation
