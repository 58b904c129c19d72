import Mathlib.Data.List.Basic

/-!
# Runs of a step function

A machine is a step function `step : σ → ι → σ`; a run feeds it a list of inputs.
`Along step C s is` says that every step of the run is taken in a state where `C`
admits its input, which is how a side condition on single steps is carried to whole
runs. `Along.invariant` is the induction every safety result goes through: what one
admitted step preserves holds after every admitted run, and `Along.each` reads a fact
about one step off any position of the run.
-/

namespace Foundation.Machine

variable {σ ι : Type*} {step : σ → ι → σ} {C D : σ → ι → Prop} {Inv : σ → Prop}

def exec (step : σ → ι → σ) (s : σ) (is : List ι) : σ := is.foldl step s

/-- Every input of the run is admitted by `C` in the state it arrives in. -/
def Along (step : σ → ι → σ) (C : σ → ι → Prop) : σ → List ι → Prop
  | _, [] => True
  | s, i :: is => C s i ∧ Along step C (step s i) is

instance Along.decidable (step : σ → ι → σ) (C : σ → ι → Prop) [∀ s i, Decidable (C s i)] :
    ∀ s is, Decidable (Along step C s is)
  | _, [] => .isTrue trivial
  | s, i :: is =>
    have := Along.decidable step C (step s i) is
    inferInstanceAs (Decidable (C s i ∧ Along step C (step s i) is))

@[simp] theorem exec_nil (s : σ) : exec step s [] = s := rfl

@[simp] theorem exec_cons (s : σ) (i : ι) (is : List ι) :
    exec step s (i :: is) = exec step (step s i) is := rfl

theorem exec_append (s : σ) (is js : List ι) :
    exec step s (is ++ js) = exec step (exec step s is) js :=
  List.foldl_append

variable {is : List ι} {s : σ}

theorem along_append {js : List ι} :
    Along step C s (is ++ js) ↔ Along step C s is ∧ Along step C (exec step s is) js := by
  induction is generalizing s with
  | nil => simp [Along]
  | cons i is ih => simp [Along, ih, and_assoc]

theorem Along.mono (h : Along step C s is)
    (hCD : ∀ s i, C s i → D s i) : Along step D s is := by
  induction is generalizing s with
  | nil => trivial
  | cons i is ih => exact ⟨hCD s i h.1, ih h.2⟩

theorem along_and :
    Along step (fun s i => C s i ∧ D s i) s is ↔ Along step C s is ∧ Along step D s is := by
  induction is generalizing s with
  | nil => simp [Along]
  | cons i is ih => simp only [Along, ih, and_and_and_comm]

/-- What one admitted step preserves holds after every admitted run. -/
theorem Along.invariant (h : Along step C s is)
    (hStep : ∀ s i, C s i → Inv s → Inv (step s i)) (hs : Inv s) : Inv (exec step s is) := by
  induction is generalizing s with
  | nil => exact hs
  | cons i is ih => exact ih h.2 (hStep s i h.1 hs)

theorem Along.invariant_prefix {pre : List ι} (h : Along step C s is)
    (hStep : ∀ s i, C s i → Inv s → Inv (step s i)) (hs : Inv s) (hPre : pre <+: is) :
    Inv (exec step s pre) := by
  obtain ⟨post, rfl⟩ := hPre
  exact (along_append.mp h).1.invariant hStep hs

/-- Every step of an admitted run is an admitted step from a state that satisfies the
invariant. -/
theorem Along.each {pre post : List ι} {i : ι} (h : Along step C s (pre ++ i :: post))
    (hStep : ∀ s i, C s i → Inv s → Inv (step s i)) (hs : Inv s) :
    Inv (exec step s pre) ∧ C (exec step s pre) i := by
  obtain ⟨hPre, hPost⟩ := along_append.mp h
  exact ⟨hPre.invariant hStep hs, hPost.1⟩

/-- An admitted run is admitted by what follows from the invariant at every step. -/
theorem Along.along_of_invariant (h : Along step C s is)
    (hStep : ∀ s i, C s i → Inv s → Inv (step s i)) (hs : Inv s)
    (hCD : ∀ s i, C s i → Inv s → D s i) : Along step D s is := by
  induction is generalizing s with
  | nil => trivial
  | cons i is ih => exact ⟨hCD s i h.1 hs, ih h.2 (hStep s i h.1 hs)⟩

/-- Conditions that agree wherever an invariant holds admit the same runs. -/
theorem along_congr (hStep : ∀ s i, Inv s → C s i → Inv (step s i))
    (hIff : ∀ s i, Inv s → (C s i ↔ D s i)) (hs : Inv s) :
    Along step C s is ↔ Along step D s is := by
  induction is generalizing s with
  | nil => exact Iff.rfl
  | cons i is ih =>
    constructor
    · rintro ⟨hC, hRest⟩
      exact ⟨(hIff s i hs).mp hC, (ih (hStep s i hs hC)).mp hRest⟩
    · rintro ⟨hD, hRest⟩
      have hC := (hIff s i hs).mpr hD
      exact ⟨hC, (ih (hStep s i hs hC)).mpr hRest⟩

theorem along_true : Along step (fun _ _ => True) s is := by
  induction is generalizing s with
  | nil => trivial
  | cons i is ih => exact ⟨trivial, ih⟩

/-- What every input is admitted by, in whatever state, admits the run. -/
theorem along_of_forall (h : ∀ i ∈ is, ∀ s, C s i) : Along step C s is := by
  induction is generalizing s with
  | nil => trivial
  | cons i is ih =>
    exact ⟨h i List.mem_cons_self s, ih fun j hj => h j (List.mem_cons_of_mem i hj)⟩

theorem exec_invariant (is : List ι) (hStep : ∀ s i, Inv s → Inv (step s i))
    (hs : Inv s) : Inv (exec step s is) :=
  along_true.invariant (fun s i _ => hStep s i) hs

end Foundation.Machine
