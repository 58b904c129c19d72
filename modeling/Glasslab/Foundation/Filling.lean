import Mathlib.Algebra.BigOperators.Group.List.Basic
import Mathlib.Algebra.Order.Group.Nat
import Mathlib.Algebra.GroupWithZero.Nat

/-!
# Runs that are filled

Elements with sizes are cut into runs. A run takes elements while their sizes add up to at most a
cap, and it takes one element whatever its size. A number of first runs are complete as well once
they have their share. There is one way to cut a list so (`Fills.unique`). A short last run may be
joined to the one before it.
-/

namespace Foundation

open List

structure Filling (α : Type*) where
  size : α → Nat
  cap : Nat
  share : Nat := 0

namespace Filling

variable {α : Type*} (f : Filling α)

def total (run : List α) : Nat := (run.map f.size).sum

/-- A run of which `early` may still be complete with their share has its share. -/
def Full (early : Nat) (run : List α) : Prop := early ≠ 0 ∧ f.share ≤ f.total run

/-- Nothing more is put into the run: it has its share, or the next element is too large for it. -/
def Complete (early : Nat) (run rest : List α) : Prop :=
  f.Full early run ∨ ∀ next ∈ rest.head?, f.cap < f.total run + f.size next

/-- An element is put into a run that is not complete, or it begins one. -/
def Takes (early : Nat) (front : List α) (last : α) : Prop :=
  front ≠ [] → ¬ f.Full early front ∧ f.total front + f.size last ≤ f.cap

inductive Fills : Nat → List α → List (List α) → Prop
  | nil {early : Nat} : Fills early [] []
  | run {early : Nat} {front rest : List α} {last : α} {runs : List (List α)}
      (takes : f.Takes early front last) (complete : f.Complete early (front ++ [last]) rest)
      (later : Fills (early - 1) rest runs) :
      Fills early (front ++ last :: rest) ((front ++ [last]) :: runs)

/-- The last run does not reach a size, and there is one before it. -/
def Joins (target : Nat) (runs front : List (List α)) (previous last : List α) : Prop :=
  runs = front ++ [previous, last] ∧ f.total last < target

/-- The runs, where the last one is joined to the one before it if it is short. -/
def Joined (target : Nat) (runs groups : List (List α)) : Prop :=
  (∃ front previous last, f.Joins target runs front previous last ∧
      groups = front ++ [previous ++ last]) ∨
    (∀ front previous last, ¬ f.Joins target runs front previous last) ∧ groups = runs

def Alone (target : Nat) (runs : List (List α)) (run : List α) : Prop :=
  run ∈ runs ∧ ∀ front previous last, f.Joins target runs front previous last → run ∈ front

variable {f} {early : Nat} {xs front rest run : List α} {last : α} {runs runs' : List (List α)}

@[simp] theorem total_nil : f.total [] = 0 := rfl

@[simp] theorem total_append (ys : List α) : f.total (xs ++ ys) = f.total xs + f.total ys := by
  rw [total, map_append, sum_append]
  rfl

@[simp] theorem total_cons (x : α) : f.total (x :: xs) = f.size x + f.total xs := List.sum_cons

theorem Full.append (h : f.Full early xs) (ys : List α) : f.Full early (xs ++ ys) := by
  refine ⟨h.1, h.2.trans ?_⟩
  rw [total_append]
  exact Nat.le_add_right _ _

theorem Complete.not_takes {middle rest' : List α} {last' : α}
    (h : f.Complete early (front ++ [last]) (middle ++ last' :: rest')) :
    ¬ f.Takes early (front ++ last :: middle) last' := by
  intro hTakes
  obtain ⟨hOpen, hFits⟩ := hTakes (by simp)
  have hSplit : front ++ last :: middle = front ++ [last] ++ middle := by simp
  rw [hSplit] at hOpen hFits
  rcases h with hFull | hLarge
  · exact hOpen (hFull.append middle)
  · rw [total_append] at hFits
    cases middle with
    | nil =>
      have hNext := hLarge last' rfl
      omega
    | cons next middle =>
      have hNext := hLarge next rfl
      rw [total_cons] at hFits
      omega

section

variable (h : f.Fills early xs runs)
include h

theorem Fills.unique (h' : f.Fills early xs runs') : runs = runs' := by
  induction h generalizing runs' with
  | nil =>
    generalize hNil : ([] : List α) = ys at h'
    cases h' with
    | nil => rfl
    | run => simp at hNil
  | @run early front rest last runs takes complete later ih =>
    generalize hSame : front ++ last :: rest = ys at h'
    cases h' with
    | nil => simp at hSame
    | @run _ front' rest' last' runs' takes' complete' later' =>
      -- of two runs that begin alike, the longer one would go on after the other is complete
      rcases append_eq_append_iff.mp hSame with
        ⟨_ | ⟨first, middle⟩, rfl, hRest⟩ | ⟨_ | ⟨first, middle⟩, rfl, hRest⟩
      · obtain ⟨rfl, rfl⟩ := List.cons.inj hRest
        rw [append_nil, ih later']
      · obtain ⟨rfl, rfl⟩ := List.cons.inj hRest
        exact absurd takes' complete.not_takes
      · obtain ⟨rfl, rfl⟩ := List.cons.inj hRest
        rw [append_nil, ih later']
      · obtain ⟨rfl, rfl⟩ := List.cons.inj hRest
        exact absurd takes complete'.not_takes

theorem Fills.flatten : runs.flatten = xs := by
  induction h with
  | nil => rfl
  | run _ _ _ ih => rw [flatten_cons, ih, append_assoc, singleton_append]

theorem Fills.ne_nil (hRun : run ∈ runs) : run ≠ [] := by
  induction h with
  | nil => cases hRun
  | run _ _ _ ih =>
    rcases mem_cons.mp hRun with rfl | hRun
    · simp
    · exact ih hRun

theorem Fills.fits (hRun : run ∈ runs) :
    f.total run ≤ f.cap ∨ ∃ x ∈ xs, run = [x] := by
  induction h with
  | nil => cases hRun
  | @run early front rest last runs takes complete later ih =>
    rcases mem_cons.mp hRun with rfl | hRun
    · cases front with
      | nil => exact .inr ⟨last, by simp, rfl⟩
      | cons first front =>
        obtain ⟨-, hFits⟩ := takes (cons_ne_nil _ _)
        rw [total_append]
        exact .inl hFits
    · refine (ih hRun).imp id ?_
      rintro ⟨x, hx, rfl⟩
      exact ⟨x, by simp [hx], rfl⟩

end

variable {target : Nat} {groups : List (List α)}

theorem Joins.unique {fronts fronts' : List (List α)} {previous previous' last last' : List α}
    (h : f.Joins target runs fronts previous last)
    (h' : f.Joins target runs fronts' previous' last') :
    fronts = fronts' ∧ previous = previous' ∧ last = last' := by
  obtain ⟨hFront, hTail⟩ := append_inj' (h.1.symm.trans h'.1) rfl
  obtain ⟨hPrevious, hLast⟩ := List.cons.inj hTail
  exact ⟨hFront, hPrevious, singleton_inj.mp hLast⟩

theorem Joined.mem_iff (h : f.Joined target runs groups) {group : List α} :
    group ∈ groups ↔ f.Alone target runs group ∨
      ∃ front previous last, f.Joins target runs front previous last ∧ group =
    previous ++ last := by
  rcases h with ⟨front, previous, last, hJoins, rfl⟩ | ⟨hNone, rfl⟩
  · rw [mem_append, mem_singleton]
    constructor
    · rintro (hFront | rfl)
      · refine .inl ⟨by rw [hJoins.1]; exact mem_append_left _ hFront, ?_⟩
        intro front' previous' last' hJoins'
        obtain ⟨rfl, -, -⟩ := hJoins.unique hJoins'
        exact hFront
      · exact .inr ⟨front, previous, last, hJoins, rfl⟩
    · rintro (hAlone | ⟨front', previous', last', hJoins', rfl⟩)
      · exact .inl (hAlone.2 front previous last hJoins)
      · obtain ⟨-, rfl, rfl⟩ := hJoins.unique hJoins'
        exact .inr rfl
  · constructor
    · exact fun hMem => .inl ⟨hMem, fun front previous last hJoins =>
        absurd hJoins (hNone front previous last)⟩
    · rintro (hAlone | ⟨front, previous, last, hJoins, -⟩)
      · exact hAlone.1
      · exact absurd hJoins (hNone front previous last)

end Filling

end Foundation
