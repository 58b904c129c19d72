import Mathlib.Data.Fintype.EquivFin
import Glasslab.Discord.RestCircuit

/-!
# Probes of several threads

Threads that share a breaker run `execute_guarded` at the same time. They touch it in atomic steps:
`check` when a call begins, and `record` or `release_half_open_probe` when it ends. The slot of the
probe does not say whose it is. So a call that was admitted before the breaker opened frees the slot
when it fails or ends without an outcome, while the probe is still under way, and the next call is
a second probe. With no other step does that happen (`oneProbe_iff`).
-/

namespace Glasslab.Discord

open Foundation.Machine List

structure RunningCall where
  call : Nat
  /-- For a probe: how often the breaker had been closed before it was admitted. -/
  probeOf : Option Nat

/-- A breaker and the calls that share it. -/
structure Race where
  circuit : RestCircuit := {}
  /-- How often a success has closed the breaker. -/
  closings : Nat := 0
  running : List RunningCall := []

inductive RaceStep where
  | check (call : Nat) (now : ℚ)
  /-- The call has got its last result. It may have a policy of its own. -/
  | finish (call : Nat) (now : ℚ) (own : Option RestPolicy) (results : List AttemptResult)

/-- How the loop of a call ends that gets these results. -/
def exitOf (policy : RestPolicy) (own : Option RestPolicy) (results : List AttemptResult) :
    Option Exit :=
  match attemptLoop (own.getD policy) { budget := (own.getD policy).totalSleepBudgetSeconds }
      results with
  | some (exit, []) => some exit
  | _ => none

/-- The end of a call frees the slot of a half-open breaker. -/
def Exit.Frees : Exit → Prop
  | .recorded outcome => outcome.category ∈ terminalFailureCategories
  | .escaped => True

instance (exit : Exit) : Decidable exit.Frees := by
  cases exit <;> unfold Exit.Frees <;> infer_instance

namespace Race

variable (policy : RestPolicy)

/-- A call begins, if the breaker admits it. -/
def check (r : Race) (call : Nat) (now : ℚ) : Race :=
  match r.circuit.check policy now with
  | none => r
  | some circuit =>
    { r with
      circuit := circuit
      running :=
        ⟨call, if r.circuit.state = .closed then none else some r.closings⟩ :: r.running }

/-- What the end of a call does to the breaker. -/
def leave (now : ℚ) (circuit : RestCircuit) : Exit → RestCircuit
  | .recorded outcome => circuit.record policy now outcome
  | .escaped => circuit.releaseHalfOpenProbe

def finish (r : Race) (call : Nat) (now : ℚ) (exit : Exit) : Race :=
  let circuit := leave policy now r.circuit exit
  { circuit := circuit
    closings :=
      if r.circuit.state ≠ .closed ∧ circuit.state = .closed then r.closings + 1 else r.closings
    running := r.running.filter fun other => other.call ≠ call }

def step (r : Race) : RaceStep → Race
  | .check call now => r.check policy call now
  | .finish call now own results =>
    match exitOf policy own results with
    | some exit => r.finish policy call now exit
    | none => r

def Possible (r : Race) : RaceStep → Prop
  | .check call _ => call ∉ r.running.map RunningCall.call
  | .finish call _ own results =>
    call ∈ r.running.map RunningCall.call ∧ (exitOf policy own results).isSome = true

instance (r : Race) (s : RaceStep) : Decidable (r.Possible policy s) := by
  cases s <;> unfold Possible <;> infer_instance

/-- The probes that have not ended, of those admitted since the breaker was last closed. -/
def probes (r : Race) : List RunningCall :=
  r.running.filter fun running => running.probeOf = some r.closings

def OneProbe (r : Race) : Prop := r.probes.length ≤ 1

/-- There is at most one probe, also when one more call begins. -/
def Safe (r : Race) : Prop :=
  r.OneProbe ∧ ∀ call now, r.Possible policy (.check call now) → (r.check policy call now).OneProbe

/-- While a probe is under way, no other call ends with a failure or without an outcome. -/
def Undisturbed (r : Race) : RaceStep → Prop
  | .check _ _ => True
  | .finish call _ own results =>
    ∀ exit ∈ exitOf policy own results, exit.Frees →
      r.probes = [] ∨ call ∈ r.probes.map RunningCall.call

instance (r : Race) (s : RaceStep) : Decidable (r.Undisturbed policy s) := by
  cases s <;> unfold Undisturbed
  · infer_instance
  · have : Decidable (r.probes = []) := decidable_of_iff _ List.isEmpty_iff
    infer_instance

/-! ## The slot -/

/-- A probe that is under way holds the slot. -/
structure SlotInvariant (r : Race) : Prop where
  one : r.OneProbe
  free : r.circuit.Unwedged → r.probes = []
  bound : ∀ running ∈ r.running, ∀ n, running.probeOf = some n → n ≤ r.closings
  distinct : (r.running.map RunningCall.call).Nodup

section Slot

variable {policy : RestPolicy} {r : Race} {c circuit : RestCircuit} {call : Nat} {now : ℚ}
  {exit : Exit}

theorem slotInvariant_fresh : SlotInvariant {} := by
  refine ⟨Nat.zero_le 1, fun _ => rfl, nofun, nodup_nil⟩

/-- A call that ends otherwise closes the breaker or leaves the slot as it is. -/
theorem leave_of_not_frees (hState : c.state = .halfOpen) (h : ¬ exit.Frees) :
    (leave policy now c exit).state = .closed ∨
      (leave policy now c exit).state = .halfOpen ∧
        (leave policy now c exit).halfOpenInFlight = c.halfOpenInFlight := by
  cases exit with
  | escaped => exact absurd trivial h
  | recorded outcome =>
    rcases category_cases outcome.category with hOk | hClient | hFailure
    · simp [leave, RestCircuit.record, hOk, hState]
    · have hNot : Category.clientError ∉ terminalFailureCategories := by decide
      simp [leave, RestCircuit.record, hClient, hNot, hState]
    · exact absurd hFailure h

/-- When the slot has been freed, a later call is admitted as a probe. -/
theorem leave_of_frees (hState : c.state = .halfOpen) (h : exit.Frees) :
    (leave policy now c exit).state ≠ .closed ∧
      ∃ later circuit, (leave policy now c exit).check policy later = some circuit := by
  cases exit with
  | escaped =>
    have hLeave : leave policy now c .escaped = { c with halfOpenInFlight := false } := by
      rw [leave, RestCircuit.releaseHalfOpenProbe, if_pos hState]
    rw [hLeave]
    simp [RestCircuit.check, hState]
  | recorded outcome =>
    have hOk : outcome.category ≠ .ok := by
      intro hOk
      rw [Exit.Frees, hOk] at h
      exact absurd h (by decide)
    have hFailure : outcome.category ∈ terminalFailureCategories := h
    have hOpened : (leave policy now c (.recorded outcome)).state = .opened ∧
        (leave policy now c (.recorded outcome)).openAt = some now := by
      simp [leave, RestCircuit.record, hOk, hFailure, hState]
    refine ⟨by rw [hOpened.1]; decide, now + policy.cooldownSeconds, ?_⟩
    simp [RestCircuit.check, hOpened.1, hOpened.2]

theorem unwedged_of_check (h : c.check policy now = some circuit) : c.Unwedged := by
  rintro ⟨hState, hFlight⟩
  simp [RestCircuit.check, hState, hFlight] at h

theorem SlotInvariant.check (h : r.SlotInvariant) (hNew : call ∉ r.running.map RunningCall.call) :
    (r.check policy call now).SlotInvariant := by
  unfold Race.check
  split
  next => exact h
  next circuit hCheck =>
    have hProbes := h.free (unwedged_of_check hCheck)
    have hDistinct : (call :: r.running.map RunningCall.call).Nodup :=
      nodup_cons.mpr ⟨hNew, h.distinct⟩
    rcases check_eq_some hCheck with ⟨hState, rfl⟩ | ⟨hState, rfl⟩
    · have hSame : ({ r with running := ⟨call, none⟩ :: r.running } : Race).probes = r.probes := by
        simp [probes]
      rw [if_pos hState]
      refine ⟨?_, fun _ => hSame.trans hProbes, ?_, hDistinct⟩
      · exact h.one
      · intro running hRunning n hProbe
        rcases mem_cons.mp hRunning with rfl | hRunning
        · cases hProbe
        · exact h.bound running hRunning n hProbe
    · rw [if_neg hState]
      refine ⟨?_, fun hUnwedged => absurd ⟨rfl, rfl⟩ hUnwedged, ?_, hDistinct⟩
      · have hOne :
          (r.running.filter fun running => running.probeOf = some r.closings) = [] := hProbes
        simp [OneProbe, probes, hOne]
      · intro running hRunning n hProbe
        rcases mem_cons.mp hRunning with rfl | hRunning
        · cases hProbe
          exact le_rfl
        · exact h.bound running hRunning n hProbe

/-- A success closes the breaker, and the probes before it count no more. -/
theorem SlotInvariant.probes_finish_closed (h : r.SlotInvariant)
    (hState : r.circuit.state ≠ .closed)
    (hClosed : (leave policy now r.circuit exit).state = .closed) :
    (r.finish policy call now exit).probes = [] := by
  have hClosings : (r.finish policy call now exit).closings = r.closings + 1 :=
    if_pos ⟨hState, hClosed⟩
  rw [probes, hClosings, filter_eq_nil_iff]
  intro running hRunning
  have hBound := h.bound running (mem_filter.mp hRunning).1
  simp only [decide_eq_true_iff]
  intro hProbe
  exact absurd (hBound _ hProbe) (Nat.not_succ_le_self _)

theorem probes_finish_eq
    (hOpen : ¬ (r.circuit.state ≠ .closed ∧ (leave policy now r.circuit exit).state = .closed)) :
    (r.finish policy call now exit).probes = r.probes.filter fun other => other.call ≠ call := by
  have hClosings : (r.finish policy call now exit).closings = r.closings := if_neg hOpen
  rw [probes, hClosings, probes, Race.finish, filter_filter, filter_filter]
  simp only [Bool.and_comm]

section

variable (h : r.SlotInvariant)
include h

theorem SlotInvariant.finish
    (hUndisturbed : exit.Frees → r.probes = [] ∨ call ∈ r.probes.map RunningCall.call) :
    (r.finish policy call now exit).SlotInvariant := by
  have hSublist : (r.finish policy call now exit).probes.Sublist
      (r.probes.filter fun other => other.call ≠ call) := by
    by_cases hCloses : r.circuit.state ≠ .closed ∧ (leave policy now r.circuit exit).state = .closed
    · rw [h.probes_finish_closed hCloses.1 hCloses.2]
      exact nil_sublist _
    · rw [probes_finish_eq hCloses]
  constructor
  · exact (hSublist.trans filter_sublist).length_le.trans h.one
  · intro hUnwedged
    by_cases hProbes : r.probes = []
    · rw [hProbes] at hSublist
      exact sublist_nil.mp hSublist
    obtain ⟨hState, hFlight⟩ := not_not.mp (mt h.free hProbes)
    by_cases hFrees : exit.Frees
    · -- the one probe is the call that ends
      obtain ⟨probe, hProbe, hCall⟩ := mem_map.mp ((hUndisturbed hFrees).resolve_left hProbes)
      have hOnly : r.probes = [probe] := by
        have hOne : r.probes.length ≤ 1 := h.one
        obtain ⟨first, rest, hCons⟩ := exists_cons_of_ne_nil hProbes
        rw [hCons] at hOne hProbe ⊢
        obtain rfl : rest = [] := by simpa using hOne
        rw [mem_singleton.mp hProbe]
      rw [hOnly] at hSublist
      simpa [hCall] using hSublist
    · rcases @leave_of_not_frees policy r.circuit now exit hState hFrees with hClosed | hHalf
      · exact h.probes_finish_closed (by rw [hState]; decide) hClosed
      · exact absurd ⟨hHalf.1, hHalf.2.trans hFlight⟩ hUnwedged
  · intro running hRunning n hProbe
    have hBound := h.bound running (mem_filter.mp hRunning).1 n hProbe
    unfold Race.finish
    dsimp only
    split
    · exact hBound.trans (Nat.le_succ _)
    · exact hBound
  · exact h.distinct.sublist (filter_sublist.map _)

theorem SlotInvariant.step {s : RaceStep} (hPossible : r.Possible policy s)
    (hUndisturbed : r.Undisturbed policy s) : (r.step policy s).SlotInvariant := by
  cases s with
  | check call now => exact h.check hPossible
  | finish call now own results =>
    unfold Race.step
    dsimp only
    split
    next exit hExit => exact h.finish (hUndisturbed exit hExit)
    next => exact h

theorem SlotInvariant.safe : r.Safe policy :=
  ⟨h.one, fun _ _ hPossible => (h.check hPossible).one⟩

/-- When another call frees the slot of a probe, the next call can be a second one. -/
theorem SlotInvariant.not_safe {s : RaceStep}
    (hDisturbed : ¬ r.Undisturbed policy s) : ¬ (r.step policy s).Safe policy := by
  cases s with
  | check call now => exact absurd trivial hDisturbed
  | finish call now own results =>
    simp only [Undisturbed, not_forall, not_or] at hDisturbed
    obtain ⟨exit, hExit, hFrees, hProbes, hOther⟩ := hDisturbed
    obtain ⟨hState, hFlight⟩ := not_not.mp (mt h.free hProbes)
    obtain ⟨hOpen, later, circuit, hCheck⟩ :=
      @leave_of_frees policy r.circuit now exit hState hFrees
    have hStep : r.step policy (.finish call now own results) = r.finish policy call now exit := by
      have hSome : exitOf policy own results = some exit := hExit
      simp only [Race.step, hSome]
    have hKept : (r.finish policy call now exit).probes = r.probes := by
      rw [probes_finish_eq fun hCloses => hOpen hCloses.2, filter_eq_self]
      intro probe hProbe
      simp only [decide_eq_true_iff]
      exact fun hCall => hOther (mem_map.mpr ⟨probe, hProbe, hCall⟩)
    rw [hStep]
    rintro ⟨-, hNext⟩
    obtain ⟨fresh, hFresh⟩ := Infinite.exists_notMem_finset
      ((r.finish policy call now exit).running.map RunningCall.call).toFinset
    have hOne := hNext fresh later (fun hMem => hFresh (mem_toFinset.mpr hMem))
    have hAdmitted : ((r.finish policy call now exit).check policy fresh later).probes =
        ⟨fresh, some (r.finish policy call now exit).closings⟩ ::
          (r.finish policy call now exit).probes := by
      have hCircuit : (r.finish policy call now exit).circuit.check policy later = some circuit :=
        hCheck
      have hNotClosed : (r.finish policy call now exit).circuit.state ≠ .closed := hOpen
      simp only [Race.check, hCircuit, if_neg hNotClosed]
      simp [probes]
    rw [OneProbe, hAdmitted, hKept, length_cons] at hOne
    have hPos := length_pos_of_ne_nil hProbes
    omega

theorem safe_iff {steps : List RaceStep}
    (hPossible : Along (Race.step policy) (Possible policy) r steps) :
    (∀ done, done <+: steps → (exec (Race.step policy) r done).Safe policy) ↔
      Along (Race.step policy) (Undisturbed policy) r steps := by
  induction steps generalizing r with
  | nil =>
    refine ⟨fun _ => trivial, fun _ done hDone => ?_⟩
    rw [prefix_nil.mp hDone]
    exact h.safe
  | cons s rest ih =>
    constructor
    · intro hAll
      have hHere : r.Undisturbed policy s := by
        by_contra hDisturbed
        exact h.not_safe hDisturbed (hAll [s] (prefix_append [s] rest))
      refine ⟨hHere, (ih (h.step hPossible.1 hHere) hPossible.2).mp fun done hDone => ?_⟩
      exact hAll (s :: done) (cons_prefix_cons.mpr ⟨rfl, hDone⟩)
    · rintro ⟨hHere, hRest⟩ done hDone
      cases done with
      | nil => exact h.safe
      | cons first done =>
        obtain ⟨rfl, hTail⟩ := cons_prefix_cons.mp hDone
        exact (ih (h.step hPossible.1 hHere) hPossible.2).mpr hRest done hTail

end

/-- **One probe at a time**: along every run of threads that share a fresh breaker, at most one call
admitted as a probe since the breaker was last closed has not ended, also when one more call begins,
if and only if no other call ends with a failure or without an outcome during a probe. -/
theorem oneProbe_iff (policy : RestPolicy) (steps : List RaceStep)
    (hPossible : Along (Race.step policy) (Possible policy) {} steps) :
    (∀ done, done <+: steps → (exec (Race.step policy) {} done).Safe policy) ↔
      Along (Race.step policy) (Undisturbed policy) {} steps :=
  safe_iff slotInvariant_fresh hPossible

end Slot

/-- A call of an open interface that is slow; three others are refused, and one is the probe. -/
def slowCall (status : Int) : List RaceStep :=
  [.check 0 0, .check 1 1, .finish 1 2 none [.response { statusCode := 401 }],
    .check 2 3, .finish 2 4 none [.response { statusCode := 401 }],
    .check 3 5, .finish 3 6 none [.response { statusCode := 401 }],
    .check 4 100, .finish 0 101 none [.response { statusCode := status }], .check 5 200]

theorem oneProbe_iff_slowCall :
    (exec (Race.step defaultPolicy) {} (slowCall 404)).Safe defaultPolicy :=
  (oneProbe_iff defaultPolicy (slowCall 404) (by decide +kernel)).mpr (by decide +kernel) _
    prefix_rfl

/-- The slow call is refused too: it frees the slot of the probe, and there are two. -/
theorem two_probes :
    Along (Race.step defaultPolicy) (Possible defaultPolicy) {} (slowCall 401) ∧
      ((exec (Race.step defaultPolicy) {} (slowCall 401)).running.map RunningCall.call) = [5, 4] ∧
      ¬ (exec (Race.step defaultPolicy) {} (slowCall 401)).OneProbe := by
  unfold OneProbe
  decide +kernel

end Race

end Glasslab.Discord
