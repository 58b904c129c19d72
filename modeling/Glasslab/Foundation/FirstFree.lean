import Mathlib.Data.List.Perm.Subperm
import Mathlib.Data.List.Nodup
import Mathlib.Data.List.Range

/-!
# The first free name

A search along numbered names for one that is not taken. If the names differ, it looks at no more of
them than are taken, and one besides (`exists_firstFree`).
-/

namespace Foundation

open List

variable {α : Type*} [DecidableEq α]

/-- The first number from a start on whose name is free, among so many. -/
def firstFree (taken : List α) (name : Nat → α) : Nat → Nat → Option Nat
  | 0, _ => none
  | fuel + 1, n => if name n ∉ taken then some n else firstFree taken name fuel (n + 1)

variable {taken : List α} {name : Nat → α} {fuel n k : Nat}

theorem free_of_firstFree (h : firstFree taken name fuel n = some k) :
    name k ∉ taken ∧ n ≤ k ∧ k < n + fuel := by
  induction fuel generalizing n with
  | zero => cases h
  | succ fuel ih =>
    rw [firstFree] at h
    split at h
    next hFree =>
      obtain rfl := Option.some.inj h
      exact ⟨hFree, le_refl _, by omega⟩
    next =>
      obtain ⟨hFree, hLe, hLt⟩ := ih h
      exact ⟨hFree, by omega, by omega⟩

theorem taken_of_firstFree_none (h : firstFree taken name fuel n = none) :
    ∀ i < fuel, name (n + i) ∈ taken := by
  induction fuel generalizing n with
  | zero =>
    omega
  | succ fuel ih =>
    intro i hi
    rw [firstFree] at h
    split at h
    · cases h
    next hTaken =>
      cases i with
      | zero => exact not_not.mp hTaken
      | succ i =>
        have hRest := ih h i (by omega)
        rwa [show n + 1 + i = n + (i + 1) by omega] at hRest

theorem exists_firstFree (hName : Function.Injective name) (hFuel : taken.length < fuel) :
    ∃ k, firstFree taken name fuel n = some k := by
  by_contra hNone
  have hTaken := taken_of_firstFree_none (Option.eq_none_iff_forall_ne_some.mpr fun k hk =>
    hNone ⟨k, hk⟩)
  have hNodup : ((List.range fuel).map fun i => name (n + i)).Nodup := by
    apply nodup_range.map
    intro i j hij
    have := hName hij
    omega
  have hSubset : ((List.range fuel).map fun i => name (n + i)) ⊆ taken := by
    intro a ha
    obtain ⟨i, hi, rfl⟩ := mem_map.mp ha
    exact hTaken i (mem_range.mp hi)
  have hLength := (hNodup.subperm hSubset).length_le
  rw [length_map, length_range] at hLength
  omega

end Foundation
