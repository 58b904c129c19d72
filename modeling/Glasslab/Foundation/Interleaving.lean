import Glasslab.Foundation.Machine
import Mathlib.Algebra.GroupWithZero.Nat

/-!
# Interleaved calls

Any number of calls run at once over a shared store. One step of a call is one atomic access; a
call that is never stepped again has crashed. `Threads.Holds G L R` is the form of an invariant of
such a system: `G` of the store, `L` of the store and each call, `R` of any two calls. It is kept
by a step that keeps `L` for the call that moves and for those that do not (`Holds.step`).
-/

namespace Foundation

open List

/-- A program that calls run: where a call begins, and one step of it. -/
structure Program (σ κ ℓ : Type*) where
  enter : κ → ℓ
  next : σ → ℓ → σ × ℓ

structure Threads (σ ℓ : Type*) where
  shared : σ
  locals : List ℓ

inductive Move (κ : Type*) where
  | call (c : κ)
  | step (i : Nat)

variable {σ κ ℓ : Type*} {P : Program σ κ ℓ} {s : Threads σ ℓ} {i : Nat} {l : ℓ}

namespace Program

def step (P : Program σ κ ℓ) (s : Threads σ ℓ) : Move κ → Threads σ ℓ
  | .call c => { s with locals := s.locals ++ [P.enter c] }
  | .step i =>
    match s.locals[i]? with
    | none => s
    | some l => ⟨(P.next s.shared l).1, s.locals.set i (P.next s.shared l).2⟩

theorem step_call (c : κ) : P.step s (.call c) = ⟨s.shared, s.locals ++ [P.enter c]⟩ := rfl

theorem step_of_getElem? (h : s.locals[i]? = some l) : P.step s (.step i) =
    ⟨(P.next s.shared l).1, s.locals.set i (P.next s.shared l).2⟩ := by
  simp only [step, h]

theorem step_of_none (h : s.locals[i]? = none) : P.step s (.step i) = s := by
  simp only [step, h]

theorem shared_step {I : σ → Prop} (h : ∀ x l, I x → I (P.next x l).1) (move : Move κ)
    (hs : I s.shared) : I (P.step s move).shared := by
  cases move with
  | call c => exact hs
  | step i =>
    cases hl : s.locals[i]? with
    | none => rwa [step_of_none hl]
    | some l =>
      rw [step_of_getElem? hl]
      exact h s.shared l hs

theorem locals_call {c : κ} {j : Nat} {m : ℓ} (h : (P.step s (.call c)).locals[j]? = some m) :
    s.locals[j]? = some m ∨ j = s.locals.length ∧ m = P.enter c := by
  rw [step_call, List.getElem?_append] at h
  split at h
  · exact .inl h
  · have hj : j = s.locals.length := by
      by_contra hNe
      rw [List.getElem?_eq_none (by simp only [length_singleton]; omega)] at h
      cases h
    subst hj
    rw [Nat.sub_self] at h
    exact .inr ⟨rfl, (Option.some.inj h).symm⟩

theorem locals_step {j : Nat} {m : ℓ} (hl : s.locals[i]? = some l)
    (h : (P.step s (.step i)).locals[j]? = some m) :
    i = j ∧ m = (P.next s.shared l).2 ∨ i ≠ j ∧ s.locals[j]? = some m := by
  rw [step_of_getElem? hl] at h
  by_cases hj : i = j
  · subst hj
    rw [List.getElem?_set_self (List.getElem?_eq_some_iff.mp hl).1] at h
    exact .inl ⟨rfl, (Option.some.inj h).symm⟩
  · rw [List.getElem?_set_ne hj] at h
    exact .inr ⟨hj, h⟩

/-- What every call adds up to, after one of them has moved. -/
theorem sum_locals_step (f : ℓ → Nat) (hl : s.locals[i]? = some l) :
    ((P.step s (.step i)).locals.map f).sum + f l =
      (s.locals.map f).sum + f (P.next s.shared l).2 := by
  have hSet (xs : List ℓ) (i : Nat) (x y : ℓ) (h : xs[i]? = some x) :
      ((xs.set i y).map f).sum + f x = (xs.map f).sum + f y := by
    induction xs generalizing i with
    | nil => cases h
    | cons z xs ih =>
      cases i with
      | zero =>
        obtain rfl : z = x := Option.some.inj h
        simp only [set_cons_zero, map_cons, sum_cons]
        omega
      | succ i =>
        have hRest := ih i h
        simp only [set_cons_succ, map_cons, sum_cons]
        omega
  rw [step_of_getElem? hl]
  exact hSet s.locals i l _ hl

end Program

namespace Threads

variable {G : σ → Prop} {L : σ → ℓ → Prop} {R : ℓ → ℓ → Prop}

structure Holds (G : σ → Prop) (L : σ → ℓ → Prop) (R : ℓ → ℓ → Prop) (s : Threads σ ℓ) :
    Prop where
  shared : G s.shared
  own : ∀ (i : Nat) l, s.locals[i]? = some l → L s.shared l
  pair : ∀ (i j : Nat) l m, i ≠ j → s.locals[i]? = some l → s.locals[j]? = some m → R l m

theorem Holds.call {c : κ} (h : Holds G L R s) (hOwn : L s.shared (P.enter c))
    (hPair : ∀ m, R (P.enter c) m ∧ R m (P.enter c)) : Holds G L R (P.step s (.call c)) := by
  refine ⟨h.shared, fun j m hm => ?_, fun j k m n hNe hm hn => ?_⟩
  · rcases Program.locals_call hm with hm | ⟨-, rfl⟩
    · exact h.own j m hm
    · exact hOwn
  · rcases Program.locals_call hm with hm | ⟨hj, rfl⟩
    · rcases Program.locals_call hn with hn | ⟨-, rfl⟩
      · exact h.pair j k m n hNe hm hn
      · exact (hPair m).2
    · rcases Program.locals_call hn with hn | ⟨hk, rfl⟩
      · exact (hPair n).1
      · omega

/-- One call moves; the facts about the others survive it. -/
theorem Holds.step (h : Holds G L R s) (hl : s.locals[i]? = some l)
    (hOwn : G (P.next s.shared l).1 ∧ L (P.next s.shared l).1 (P.next s.shared l).2)
    (hOther : ∀ (j : Nat) m, i ≠ j → s.locals[j]? = some m → R l m → L s.shared m →
      L (P.next s.shared l).1 m ∧ R (P.next s.shared l).2 m ∧ R m (P.next s.shared l).2) :
    Holds G L R (P.step s (.step i)) := by
  have hRest {j : Nat} {m : ℓ} (hNe : i ≠ j) (hm : s.locals[j]? = some m) :=
    hOther j m hNe hm (h.pair i j l m hNe hl hm) (h.own j m hm)
  have hShared : (P.step s (.step i)).shared = (P.next s.shared l).1 := by
    rw [Program.step_of_getElem? hl]
  refine ⟨hShared ▸ hOwn.1, fun j m hm => ?_, fun j k m n hNe hm hn => ?_⟩
  · rw [hShared]
    rcases Program.locals_step hl hm with ⟨-, rfl⟩ | ⟨hj, hm⟩
    · exact hOwn.2
    · exact (hRest hj hm).1
  · rcases Program.locals_step hl hm with ⟨hj, rfl⟩ | ⟨hj, hm⟩
    · rcases Program.locals_step hl hn with ⟨hk, rfl⟩ | ⟨hk, hn⟩
      · exact absurd (hj.symm.trans hk) hNe
      · exact (hRest hk hn).2.1
    · rcases Program.locals_step hl hn with ⟨hk, rfl⟩ | ⟨hk, hn⟩
      · exact (hRest hj hm).2.2
      · exact h.pair j k m n hNe hm hn

end Threads

end Foundation
