import Mathlib.Tactic.Linarith
import Mathlib.Tactic.Ring

/-!
# Time spent in a kind of state

A `Timeline` lists the states something has been in, newest first, each with the time at which it
was entered. A `Stopwatch` is a closed base and, while it runs, the start of an open interval.
`Measures` says that the stopwatch runs in the states of a kind and has measured the time spent in
them; there is one lemma for each way of entering the next state.
-/

namespace Foundation

variable {S : Type}

abbrev Timeline (S : Type) := List (ℚ × S)

/-- The time spent in states of a kind until `now`. -/
def Timeline.spent (p : S → Prop) [DecidablePred p] : Timeline S → ℚ → ℚ
  | [], _ => 0
  | (entered, state) :: before, now =>
    (if p state then now - entered else 0) + Timeline.spent p before entered

structure Stopwatch where
  base : ℚ
  since : Option ℚ

namespace Stopwatch

/-- The interval that is open at `now`, never negative. -/
def openInterval (w : Stopwatch) (now : ℚ) : ℚ :=
  match w.since with
  | some since => max 0 (now - since)
  | none => 0

def read (w : Stopwatch) (now : ℚ) : ℚ := w.base + w.openInterval now

/-- Close the open interval into the base. -/
def stop (w : Stopwatch) (now : ℚ) : Stopwatch := ⟨w.read now, none⟩

def start (w : Stopwatch) (now : ℚ) : Stopwatch := ⟨w.base, some now⟩

end Stopwatch

variable {p : S → Prop} [DecidablePred p] {w : Stopwatch} {state next : S} {t : Timeline S}
  {clock clock' now : ℚ}

/-- In this state the stopwatch has measured the time spent in states of the kind, as of every
reading from `clock` on. -/
structure Measures (p : S → Prop) [DecidablePred p] (w : Stopwatch) (state : S) (t : Timeline S)
    (clock : ℚ) : Prop where
  running : w.since ≠ none ↔ p state
  started : ∀ since, w.since = some since → since ≤ clock
  read : ∀ now, clock ≤ now → w.read now = t.spent p now

namespace Measures

theorem since_eq_none (h : Measures p w state t clock) (hState : ¬p state) : w.since = none := by
  by_contra hSince
  exact hState (h.running.mp hSince)

theorem read_of_not (h : Measures p w state t clock) (hState : ¬p state) (now : ℚ) :
    w.read now = w.base := by
  rw [Stopwatch.read, Stopwatch.openInterval, h.since_eq_none hState, add_zero]

theorem first (hState : p state) : Measures p ⟨0, some now⟩ state [(now, state)] now where
  running := by simp [hState]
  started := by
    rintro since ⟨⟩
    exact le_refl _
  read := by
    intro later hLater
    have hMax : max 0 (later - now) = later - now := max_eq_right (by linarith)
    simp [Stopwatch.read, Stopwatch.openInterval, Timeline.spent, hState, hMax]

theorem later (h : Measures p w state t clock) (hClock : clock ≤ clock') :
    Measures p w state t clock' where
  running := h.running
  started since hSince := (h.started since hSince).trans hClock
  read now hNow := h.read now (hClock.trans hNow)

/-- The stopwatch is stopped on entering a state of another kind. -/
theorem enter_stop (h : Measures p w state t clock) (hNow : clock ≤ now) (hNext : ¬p next) :
    Measures p (w.stop now) next ((now, next) :: t) clock' where
  running := by simp [Stopwatch.stop, hNext]
  started := by simp [Stopwatch.stop]
  read := by
    simp only [Timeline.spent, hNext, if_false, zero_add]
    rw [← h.read now hNow]
    simp [Stopwatch.stop, Stopwatch.read, Stopwatch.openInterval]

theorem enter_start (h : Measures p w state t clock) (hNow : clock ≤ now) (hClock : now ≤ clock')
    (hState : ¬p state) (hNext : p next) :
    Measures p (w.start now) next ((now, next) :: t) clock' where
  running := by simp [Stopwatch.start, hNext]
  started := by
    rintro since ⟨⟩
    exact hClock
  read := by
    intro later hLater
    have hMax : max 0 (later - now) = later - now := max_eq_right (by linarith)
    simp only [Timeline.spent, hNext, if_true]
    rw [← h.read now hNow, h.read_of_not hState]
    simp only [Stopwatch.start, Stopwatch.read, Stopwatch.openInterval, hMax]
    ring

/-- It goes on as it is between two states of which both are of the kind, or neither. -/
theorem enter_same (h : Measures p w state t clock) (hNow : clock ≤ now) (hClock : now ≤ clock')
    (hSame : p state ↔ p next) : Measures p w next ((now, next) :: t) clock' where
  running := h.running.trans hSame
  started := by
    intro since hSince
    exact (h.started since hSince).trans (hNow.trans hClock)
  read := by
    intro later hLater
    simp only [Timeline.spent]
    rw [← h.read now hNow]
    cases hSince : w.since with
    | none =>
      have hNext : ¬p next := fun hNext => h.running.mpr (hSame.mpr hNext) hSince
      simp [Stopwatch.read, Stopwatch.openInterval, hSince, hNext]
    | some since =>
      have hNext : p next := hSame.mp (h.running.mp (by simp [hSince]))
      have hBefore : since ≤ now := (h.started since hSince).trans hNow
      have hMax : max 0 (later - since) = later - since := max_eq_right (by linarith)
      have hMaxNow : max 0 (now - since) = now - since := max_eq_right (by linarith)
      simp only [Stopwatch.read, Stopwatch.openInterval, hSince, hNext, if_true, hMax, hMaxNow]
      ring

end Measures

end Foundation
