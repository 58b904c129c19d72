import Mathlib.Algebra.Order.Group.Nat
import Mathlib.Algebra.Order.BigOperators.Group.List
import Mathlib.Data.List.Infix
import Mathlib.Algebra.GroupWithZero.Nat

/-!
# The longest part that fits

A list has at most one longest prefix, and at most one longest suffix, with a property. Where the
property is a bound on the sum of sizes, a scan that stops at the first element that is too much
takes the longest prefix (`longestPrefix_takeFitting`), and the same scan of the reversed list takes
the longest suffix.
-/

namespace Foundation

open List

variable {α : Type*} {P : List α → Prop} {xs part part' : List α}

structure Longest (P : List α → Prop) (part : List α) : Prop where
  holds : P part
  length_le : ∀ other, P other → other.length ≤ part.length

def LongestPrefix (P : List α → Prop) (xs : List α) : List α → Prop :=
  Longest fun part => part <+: xs ∧ P part

def LongestSuffix (P : List α → Prop) (xs : List α) : List α → Prop :=
  Longest fun part => part <:+ xs ∧ P part

theorem LongestPrefix.unique (h : LongestPrefix P xs part) (h' : LongestPrefix P xs part') :
    part = part' := by
  have hLength := Nat.le_antisymm (h'.length_le part h.holds) (h.length_le part' h'.holds)
  rcases prefix_or_prefix_of_prefix h.holds.1 h'.holds.1 with hPrefix | hPrefix
  · exact hPrefix.eq_of_length hLength
  · exact (hPrefix.eq_of_length hLength.symm).symm

theorem LongestPrefix.congr {Q : List α → Prop} (hPQ : ∀ l, l <+: xs → (P l ↔ Q l))
    (h : LongestPrefix P xs part) : LongestPrefix Q xs part := by
  obtain ⟨hPrefix, hP⟩ := h.holds
  refine ⟨⟨hPrefix, (hPQ part hPrefix).mp hP⟩, fun other hOther => ?_⟩
  exact h.length_le other ⟨hOther.1, (hPQ other hOther.1).mpr hOther.2⟩

theorem longestSuffix_iff_reverse :
    LongestSuffix P xs part ↔ LongestPrefix (fun l => P l.reverse) xs.reverse part.reverse := by
  constructor
  · intro h
    refine ⟨⟨List.reverse_prefix.mpr h.holds.1, ?_⟩, ?_⟩
    · simpa using h.holds.2
    · intro other hOther
      have hSuffix : other.reverse <:+ xs := by
        rw [← reverse_prefix, reverse_reverse]
        exact hOther.1
      have hLe := h.length_le other.reverse ⟨hSuffix, hOther.2⟩
      rwa [length_reverse] at hLe ⊢
  · intro h
    refine ⟨⟨List.reverse_prefix.mp h.holds.1, ?_⟩, ?_⟩
    · simpa using h.holds.2
    · intro other hOther
      have hLe := h.length_le other.reverse
        ⟨List.reverse_prefix.mpr hOther.1, by simpa using hOther.2⟩
      rwa [length_reverse, length_reverse] at hLe

theorem LongestSuffix.unique (h : LongestSuffix P xs part) (h' : LongestSuffix P xs part') :
    part = part' :=
  reverse_injective
    ((longestSuffix_iff_reverse.mp h).unique (longestSuffix_iff_reverse.mp h'))

theorem longestPrefix_self_iff : LongestPrefix P xs xs ↔ P xs :=
  ⟨fun h => h.holds.2, fun h => ⟨⟨prefix_rfl, h⟩, fun _ hOther => hOther.1.length_le⟩⟩

section Sizes

variable (size : α → Nat) (budget : Nat)

/-- The elements up to the first one that is too much, where something is used already. -/
def takeFitting : (used : Nat) → List α → List α
  | _, [] => []
  | used, x :: xs =>
    if budget < used + size x then [] else x :: takeFitting (used + size x) xs

def total (xs : List α) : Nat := (xs.map size).sum

variable {size budget}

@[simp] theorem total_nil : total size [] = 0 := rfl

@[simp] theorem total_cons (x : α) (xs : List α) :
    total size (x :: xs) = size x + total size xs := List.sum_cons

@[simp] theorem total_append (xs ys : List α) :
    total size (xs ++ ys) = total size xs + total size ys := by
  simp [total]

@[simp] theorem total_reverse (xs : List α) : total size xs.reverse = total size xs := by
  simp [total, sum_reverse]

theorem total_le_of_sublist (h : part.Sublist xs) : total size part ≤ total size xs :=
  (h.map size).sum_le_sum fun _ _ => Nat.zero_le _

theorem longestPrefix_takeFitting_used {used : Nat} (hUsed : used ≤ budget) :
    LongestPrefix (fun l => used + total size l ≤ budget) xs (takeFitting size budget used xs) := by
  induction xs generalizing used with
  | nil =>
    refine ⟨⟨prefix_rfl, hUsed⟩, fun other hOther => ?_⟩
    exact hOther.1.length_le
  | cons x xs ih =>
    rw [takeFitting]
    by_cases hFit : budget < used + size x
    · rw [if_pos hFit]
      refine ⟨⟨List.nil_prefix, hUsed⟩, fun other hOther => ?_⟩
      rcases prefix_cons_iff.mp hOther.1 with rfl | ⟨rest, rfl, -⟩
      · exact Nat.le_refl _
      · have hTotal : used + total size (x :: rest) ≤ budget := hOther.2
        rw [total_cons] at hTotal
        omega
    · rw [if_neg hFit]
      have hRest := ih (Nat.not_lt.mp hFit)
      refine ⟨⟨cons_prefix_cons.mpr ⟨rfl, hRest.holds.1⟩, ?_⟩, fun other hOther => ?_⟩
      · have hTotal : used + size x + total size _ ≤ budget := hRest.holds.2
        show used + total size (x :: _) ≤ budget
        rw [total_cons]
        omega
      · rcases prefix_cons_iff.mp hOther.1 with rfl | ⟨rest, rfl, hInitial⟩
        · exact Nat.zero_le _
        · have hTotal : used + total size (x :: rest) ≤ budget := hOther.2
          rw [total_cons] at hTotal
          exact Nat.succ_le_succ (hRest.length_le rest ⟨hInitial, by omega⟩)

/-- A scan that stops at the first element that is too much takes the longest prefix that fits. -/
theorem longestPrefix_takeFitting (size : α → Nat) (budget : Nat) (xs : List α) :
    LongestPrefix (fun l => total size l ≤ budget) xs (takeFitting size budget 0 xs) := by
  have h : LongestPrefix (fun l => 0 + total size l ≤ budget) xs (takeFitting size budget 0 xs) :=
    longestPrefix_takeFitting_used (Nat.zero_le budget)
  simpa only [Nat.zero_add] using h

theorem takeFitting_eq_self_iff : takeFitting size budget 0 xs = xs ↔ total size xs ≤ budget := by
  have hScan := longestPrefix_takeFitting size budget xs
  constructor
  · intro h
    have hFits := hScan.holds.2
    rwa [h] at hFits
  · intro h
    exact hScan.unique (longestPrefix_self_iff.mpr h)

/-- The longest fitting prefix that leaves something out ends before an element too much. -/
theorem longestPrefix_append_iff {x : α} {rest : List α} :
    LongestPrefix (fun l => total size l ≤ budget) (part ++ x :: rest) part ↔
      total size part ≤ budget ∧ budget < total size part + size x := by
  constructor
  · intro h
    refine ⟨h.holds.2, ?_⟩
    by_contra hFit
    have hNext : total size (part ++ [x]) ≤ budget := by
      rw [total_append, total_cons, total_nil]
      omega
    have hLe := h.length_le (part ++ [x])
      ⟨by simp [prefix_append_right_inj], hNext⟩
    rw [length_append, length_singleton] at hLe
    omega
  · rintro ⟨hFits, hNext⟩
    refine ⟨⟨prefix_append _ _, hFits⟩, fun other hOther => ?_⟩
    by_contra hLonger
    have hInitial : part ++ [x] <+: other := by
      have hBoth : part ++ [x] <+: part ++ x :: rest := by
        simp [prefix_append_right_inj]
      refine prefix_of_prefix_length_le hBoth hOther.1 ?_
      rw [length_append, length_singleton]
      omega
    have hLe : total size (part ++ [x]) ≤ total size other := total_le_of_sublist hInitial.sublist
    rw [total_append, total_cons, total_nil] at hLe
    omega

theorem longestSuffix_append_iff {x : α} {before : List α} :
    LongestSuffix (fun l => total size l ≤ budget) (before ++ x :: part) part ↔
      total size part ≤ budget ∧ budget < size x + total size part := by
  rw [longestSuffix_iff_reverse]
  simp only [total_reverse, reverse_append, reverse_cons, append_assoc,
    singleton_append]
  rw [longestPrefix_append_iff, total_reverse, Nat.add_comm (size x)]

theorem longestSuffix_self_iff : LongestSuffix P xs xs ↔ P xs :=
  ⟨fun h => h.holds.2, fun h => ⟨⟨suffix_rfl, h⟩, fun _ hOther => hOther.1.length_le⟩⟩

end Sizes

end Foundation
