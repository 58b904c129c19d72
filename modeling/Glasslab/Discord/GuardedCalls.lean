import Mathlib.Data.Nat.Count
import Mathlib.Tactic.Linarith
import Mathlib.Tactic.Positivity
import Glasslab.Discord.RestCircuit

/-!
# The bounds of a guarded call

`execute_guarded` over a stream of results: how often it attempts, how long it sleeps, and what it
records.

Each retry uses up one of two counters and sleeps within a budget that all of them share, so the
bounds hold for every stream. The delay of a rate limit is taken from the header as it is. A
negative one is below every cap and within every budget, `sleep` raises, and the call ends without
an outcome. That is the only way to leave the loop unrecorded (`accounted_iff`).
-/

namespace Glasslab.Discord

open Finset

/-- What the loop did: its attempts, its delays and how it was left. -/
structure GuardedRun where
  attempts : List AttemptResult
  slept : List Seconds
  exit : Exit

namespace GuardedRun

def stopped (result : AttemptResult) (exit : Exit) : GuardedRun := ⟨[result], [], exit⟩

def prepend (result : AttemptResult) (delay : Seconds) (run : GuardedRun) : GuardedRun :=
  ⟨result :: run.attempts, delay :: run.slept, run.exit⟩

def recorded (run : GuardedRun) : List RestOutcome :=
  match run.exit with
  | .recorded outcome => [outcome]
  | .escaped => []

end GuardedRun

def rateLimited : AttemptResult → Bool
  | .response response => (classifyResponse response).category = .rateLimited
  | .exception | .interrupt => false

def transient : AttemptResult → Bool
  | .response response => (classifyResponse response).category = .serverError
  | .exception => true
  | .interrupt => false

def refused : AttemptResult → Bool
  | .response response =>
    (classifyResponse response).category ∈ [.unauthorized, .blocked, .cloudflare1010, .clientError]
  | .exception | .interrupt => false

/-- The delay that is computed from an answer after so many transient ones. -/
def delayAfter (policy : RestPolicy) (transients : Nat) : AttemptResult → Seconds
  | .response response =>
    if (classifyResponse response).category = .rateLimited then
      retryDelay policy (classifyResponse response)
    else transientBackoff policy transients
  | .exception | .interrupt => transientBackoff policy transients

/-- The loop of `execute_guarded`. -/
def guardedRun (policy : RestPolicy) (stream : Nat → AttemptResult) (a : Allowance) : GuardedRun :=
  match h : attemptOnce policy a (stream 0) with
  | .leave exit => .stopped (stream 0) exit
  | .again next =>
    (guardedRun policy (fun n => stream (n + 1)) next).prepend (stream 0)
      (delayAfter policy a.retriesTransient (stream 0))
termination_by a.left policy
decreasing_by exact left_of_attemptOnce h

/-- A call of `execute_guarded` that is admitted, and the circuit after it. -/
def guardedCall (policy : RestPolicy) (own : Option RestPolicy) (c : RestCircuit)
    (checkTime recordTime : ℚ) (stream : Nat → AttemptResult) : Option (GuardedRun × RestCircuit) :=
  match c.check policy checkTime with
  | none => none
  | some c =>
    let own := own.getD policy
    let run := guardedRun own stream { budget := own.totalSleepBudgetSeconds }
    match run.exit with
    | .recorded outcome => some (run, c.record policy recordTime outcome)
    | .escaped => some (run, c.releaseHalfOpenProbe)

/-- `time.sleep` raises on the delay: it is negative or no number. -/
def Seconds.invalid : Seconds → Bool
  | .finite q => q < 0
  | .negativeInfinity | .nan => true
  | .infinity => false

/-- `sleep` raises where `time.sleep` does; an infinite delay is beyond every budget. -/
def SleepsLikeTime (policy : RestPolicy) : Prop :=
  ∀ delay, delay ≠ .infinity → policy.sleepRaises delay = delay.invalid

def Seconds.value : Seconds → ℚ
  | .finite q => q
  | _ => 0

section Stream

variable (policy : RestPolicy) (stream : Nat → AttemptResult)

def rateLimits (n : Nat) : Nat := Nat.count (fun i => rateLimited (stream i) = true) n

def transients (n : Nat) : Nat := Nat.count (fun i => transient (stream i) = true) n

def delayAt (n : Nat) : Seconds := delayAfter policy (transients stream n) (stream n)

def spentBefore (n : Nat) : ℚ := ∑ i ∈ range n, (delayAt policy stream i).value

/-- The answer can be tried again: it is of a kind with retries left, and there is a budget. -/
structure Retryable (n : Nat) : Prop where
  retries : rateLimited (stream n) = true ∧ rateLimits stream n < policy.max429Retries ∨
    transient (stream n) = true ∧ transients stream n < policy.maxTransientRetries
  budget : spentBefore policy stream n < policy.totalSleepBudgetSeconds

/-- The answer can be tried again after a delay that fits the budget. -/
structure WaitedFor (n : Nat) : Prop extends Retryable policy stream n where
  delay : ∃ q, delayAt policy stream n = .finite q ∧ 0 ≤ q ∧
    q ≤ policy.totalSleepBudgetSeconds - spentBefore policy stream n

/-- A rate limit with a `Retry-After` that is negative or no number. -/
def NegativeRetryAfter : AttemptResult → Prop
  | .response response => (classifyResponse response).category = .rateLimited ∧
      response.retryAfter.any Seconds.invalid = true
  | .exception | .interrupt => False

/-- A negative `Retry-After` is met where the rate limit could be tried again, after answers that
were all waited for. -/
structure NegativeDelayAt (n : Nat) : Prop extends Retryable policy stream n where
  before : ∀ i < n, WaitedFor policy stream i
  negative : NegativeRetryAfter (stream n)

def allowanceAt (n : Nat) : Allowance where
  budget := policy.totalSleepBudgetSeconds - spentBefore policy stream n
  retries429 := rateLimits stream n
  retriesTransient := transients stream n

end Stream

/-! ## One answer -/

variable {stream : Nat → AttemptResult} {policy : RestPolicy} {n : Nat}

section Answers

theorem allowanceAt_zero :
    allowanceAt policy stream 0 = { budget := policy.totalSleepBudgetSeconds } := by
  simp [allowanceAt, spentBefore, rateLimits, transients]

theorem category_ne_network {response : Response} :
    (classifyResponse response).category ≠ .network := by
  unfold classifyResponse
  dsimp only
  split_ifs <;> simp

/-- An answer that can be tried again asks for its delay, and counts as what it is. -/
theorem attemptOnce_of_retryable (h : Retryable policy stream n) :
    ∃ outcome next, attemptOnce policy (allowanceAt policy stream n) (stream n) =
        proceed policy (allowanceAt policy stream n) outcome
          (.wait (delayAt policy stream n) next) ∧
      next.retries429 = rateLimits stream (n + 1) ∧
      next.retriesTransient = transients stream (n + 1) := by
  have hBudget : 0 < (allowanceAt policy stream n).budget := sub_pos.mpr h.budget
  have hRetries := h.retries
  unfold rateLimits transients
  rw [Nat.count_succ, Nat.count_succ]
  cases hResult : stream n with
  | interrupt => simp [hResult, rateLimited, transient] at hRetries
  | exception =>
    simp only [hResult, rateLimited, transient, Bool.false_eq_true, false_and, false_or,
      true_and] at hRetries
    refine ⟨networkOutcome, { allowanceAt policy stream n with
      retriesTransient := (allowanceAt policy stream n).retriesTransient + 1 }, ?_, ?_, ?_⟩
    · unfold attemptOnce decideException
      rw [if_pos ⟨hRetries, hBudget⟩, delayAt, hResult]
      rfl
    · simp [rateLimited, allowanceAt, rateLimits]
    · simp [transient, allowanceAt, transients]
  | response response =>
    simp only [hResult, rateLimited, transient, decide_eq_true_eq] at hRetries
    rcases hRetries with ⟨hCategory, hLeft⟩ | ⟨hCategory, hLeft⟩
    · refine ⟨classifyResponse response, { allowanceAt policy stream n with
        retries429 := (allowanceAt policy stream n).retries429 + 1 }, ?_, ?_, ?_⟩
      · have hDelay : delayAt policy stream n = retryDelay policy (classifyResponse response) := by
          simp [delayAt, delayAfter, hResult, hCategory]
        have hSpare : ¬ policy.max429Retries ≤ (allowanceAt policy stream n).retries429 :=
          not_le.mpr hLeft
        simp [attemptOnce, decideResponse, hCategory, retryableCategories, hBudget, hDelay, hSpare]
      · simp [rateLimited, allowanceAt, rateLimits, hCategory]
      · simp [transient, allowanceAt, transients, hCategory]
    · refine ⟨classifyResponse response, { allowanceAt policy stream n with
        retriesTransient := (allowanceAt policy stream n).retriesTransient + 1 }, ?_, ?_, ?_⟩
      · have hDelay : delayAt policy stream n =
            transientBackoff policy (allowanceAt policy stream n).retriesTransient := by
          simp [delayAt, delayAfter, hResult, hCategory, allowanceAt]
        have hSpare : ¬ policy.maxTransientRetries ≤
            (allowanceAt policy stream n).retriesTransient := not_le.mpr hLeft
        simp [attemptOnce, decideResponse, hCategory, retryableCategories, hBudget, hDelay, hSpare]
      · simp [rateLimited, allowanceAt, rateLimits, hCategory]
      · simp [transient, allowanceAt, transients, hCategory]

theorem attemptOnce_of_not_retryable (h : ¬ Retryable policy stream n)
    (hAnswer : stream n ≠ .interrupt) :
    ∃ outcome, attemptOnce policy (allowanceAt policy stream n) (stream n) =
      .leave (.recorded outcome) := by
  have hRetries : 0 < (allowanceAt policy stream n).budget →
      ¬ (rateLimited (stream n) = true ∧ rateLimits stream n < policy.max429Retries ∨
        transient (stream n) = true ∧ transients stream n < policy.maxTransientRetries) :=
    fun hBudget hRetries => h ⟨hRetries, sub_pos.mp hBudget⟩
  cases hResult : stream n with
  | interrupt => exact absurd hResult hAnswer
  | exception =>
    refine ⟨networkOutcome, ?_⟩
    unfold attemptOnce decideException
    rw [if_neg]
    · rfl
    · rintro ⟨hLeft, hBudget⟩
      apply hRetries hBudget
      rw [hResult]
      exact .inr ⟨rfl, hLeft⟩
  | response response =>
    refine ⟨classifyResponse response, ?_⟩
    unfold attemptOnce
    dsimp only
    split
    · rfl
    · unfold decideResponse
      split
      next hOpen =>
        rw [hResult] at hRetries
        have hNone := hRetries hOpen.2
        simp only [rateLimited, transient, decide_eq_true_eq, not_or, not_and, not_lt] at hNone
        split
        next hCategory =>
          have hSpent : policy.max429Retries ≤ (allowanceAt policy stream n).retries429 :=
            hNone.1 hCategory
          rw [if_pos hSpent]
          rfl
        next hCategory =>
          have hServer : (classifyResponse response).category = .serverError := by
            have hKind := hOpen.1
            simp only [retryableCategories, List.mem_cons, List.not_mem_nil, or_false] at hKind
            rcases hKind with hKind | hKind | hKind
            · exact absurd hKind hCategory
            · exact hKind
            · exact absurd hKind category_ne_network
          have hSpent :
            policy.maxTransientRetries ≤ (allowanceAt policy stream n).retriesTransient :=
            hNone.2 hServer
          rw [if_pos hSpent]
          rfl
      · rfl

theorem invalid_transientBackoff {retries : Nat} :
    (transientBackoff policy retries).invalid = false := by
  have hPos : 0 ≤ policy.baseBackoffSeconds * 2 ^ retries :=
    mul_nonneg policy.baseBackoffSeconds_pos.le (by positivity)
  exact decide_eq_false (not_lt.mpr hPos)

theorem invalid_retryDelay {outcome : RestOutcome} :
    (retryDelay policy outcome).invalid = outcome.retryAfter.any Seconds.invalid := by
  unfold retryDelay
  cases outcome.retryAfter with
  | none =>
    have hPos := policy.baseBackoffSeconds_pos.le
    exact decide_eq_false (not_lt.mpr hPos)
  | some retryAfter =>
    have hPos := policy.retryAfterCapSeconds_pos
    have hCap : (Seconds.finite policy.retryAfterCapSeconds).invalid = false :=
      decide_eq_false (not_lt.mpr hPos.le)
    cases retryAfter with
    | finite q =>
      unfold Seconds.cap
      dsimp only
      split
      next hLess =>
        rw [hCap]
        exact (decide_eq_false (not_lt.mpr (hPos.trans hLess).le)).symm
      · rfl
    | infinity => exact hCap
    | negativeInfinity => rfl
    | nan => rfl

theorem invalid_delayAt_iff :
    (delayAt policy stream n).invalid = true ↔ NegativeRetryAfter (stream n) := by
  unfold delayAt delayAfter NegativeRetryAfter
  cases stream n with
  | interrupt => simp [invalid_transientBackoff]
  | exception => simp [invalid_transientBackoff]
  | response response =>
    dsimp only
    split
    next hCategory =>
      have hHeader : (classifyResponse response).retryAfter = response.retryAfter := by
        revert hCategory
        unfold classifyResponse
        dsimp only
        split_ifs <;> simp
      rw [invalid_retryDelay, hHeader]
      simp [hCategory]
    next hCategory => simp [invalid_transientBackoff, hCategory]

theorem spentBefore_succ :
    spentBefore policy stream (n + 1) =
      spentBefore policy stream n + (delayAt policy stream n).value :=
  sum_range_succ _ n

theorem attemptOnce_of_waitedFor (hTime : SleepsLikeTime policy) (h : WaitedFor policy stream n) :
    attemptOnce policy (allowanceAt policy stream n) (stream n) =
      .again (allowanceAt policy stream (n + 1)) := by
  obtain ⟨outcome, next, hOnce, h429, hTransient⟩ := attemptOnce_of_retryable h.toRetryable
  obtain ⟨q, hDelay, hNonneg, hFits⟩ := h.delay
  have hSleeps : policy.sleepRaises (.finite q) = false := by
    rw [hTime _ (by simp)]
    exact decide_eq_false (not_lt.mpr hNonneg)
  have hWithin : (Seconds.finite q).exceeds (allowanceAt policy stream n).budget = false :=
    decide_eq_false (not_lt.mpr hFits)
  have hNext : allowanceAt policy stream (n + 1) =
      { next with budget := (allowanceAt policy stream n).budget - q } := by
    simp only [allowanceAt, spentBefore_succ, hDelay, Seconds.value, h429, hTransient, sub_sub]
  rw [hOnce, hDelay, proceed, hWithin, hSleeps, hNext]
  rfl

/-- An answer that can be tried again is waited for, or has a delay that is no delay, or one that is
too long. -/
theorem attemptOnce_of_not_waitedFor (hTime : SleepsLikeTime policy)
    (h : Retryable policy stream n) (hWait : ¬ WaitedFor policy stream n) :
    (delayAt policy stream n).invalid = true ∧
        attemptOnce policy (allowanceAt policy stream n) (stream n) = .leave .escaped ∨
      (delayAt policy stream n).invalid = false ∧ ∃ outcome,
        attemptOnce policy (allowanceAt policy stream n) (stream n) =
          .leave (.recorded outcome) := by
  obtain ⟨outcome, next, hOnce, -, -⟩ := attemptOnce_of_retryable h
  have hBudget : 0 < (allowanceAt policy stream n).budget := sub_pos.mpr h.budget
  rw [hOnce]
  cases hDelay : delayAt policy stream n with
  | infinity => exact .inr ⟨rfl, outcome, rfl⟩
  | negativeInfinity =>
    left
    refine ⟨rfl, ?_⟩
    rw [proceed, hTime _ (by simp)]
    rfl
  | nan =>
    left
    refine ⟨rfl, ?_⟩
    rw [proceed, hTime _ (by simp)]
    rfl
  | finite q =>
    by_cases hNegative : q < 0
    · left
      have hInvalid : (Seconds.finite q).invalid = true := decide_eq_true hNegative
      have hWithin : (Seconds.finite q).exceeds (allowanceAt policy stream n).budget = false :=
        decide_eq_false (not_lt.mpr (hNegative.trans hBudget).le)
      refine ⟨hInvalid, ?_⟩
      rw [proceed, hWithin, hTime _ (by simp), hInvalid]
      rfl
    · right
      have hTooLong : (Seconds.finite q).exceeds (allowanceAt policy stream n).budget = true := by
        apply decide_eq_true
        by_contra hFits
        exact hWait ⟨h, q, hDelay, not_lt.mp hNegative, not_lt.mp hFits⟩
      refine ⟨decide_eq_false hNegative, outcome, ?_⟩
      rw [proceed, hTooLong]
      rfl

theorem not_negative_of_waitedFor (h : WaitedFor policy stream n) :
    (delayAt policy stream n).invalid = false := by
  obtain ⟨q, hDelay, hNonneg, -⟩ := h.delay
  rw [hDelay]
  exact decide_eq_false (not_lt.mpr hNonneg)

end Answers

section Run

theorem waitedFor_of_again (hTime : SleepsLikeTime policy) (hAnswer : stream n ≠ .interrupt)
    {next : Allowance}
    (h : attemptOnce policy (allowanceAt policy stream n) (stream n) = .again next) :
    WaitedFor policy stream n ∧ next = allowanceAt policy stream (n + 1) := by
  by_cases hWait : WaitedFor policy stream n
  · rw [attemptOnce_of_waitedFor hTime hWait] at h
    exact ⟨hWait, (Verdict.again.inj h).symm⟩
  · by_cases hRetryable : Retryable policy stream n
    · rcases attemptOnce_of_not_waitedFor hTime hRetryable hWait with
        ⟨-, hOnce⟩ | ⟨-, outcome, hOnce⟩
      · rw [hOnce] at h
        cases h
      · rw [hOnce] at h
        cases h
    · obtain ⟨outcome, hOnce⟩ := attemptOnce_of_not_retryable hRetryable hAnswer
      rw [hOnce] at h
      cases h

theorem guardedRun_spec (hTime : SleepsLikeTime policy) (hAnswers : ∀ n, stream n ≠ .interrupt)
    (n : Nat) :
    ∃ d, (∀ i < d, WaitedFor policy stream (n + i)) ∧
      attemptOnce policy (allowanceAt policy stream (n + d)) (stream (n + d)) =
        .leave (guardedRun policy (fun i => stream (n + i)) (allowanceAt policy stream n)).exit ∧
      (guardedRun policy (fun i => stream (n + i)) (allowanceAt policy stream n)).attempts =
        (List.range' n (d + 1)).map stream ∧
      (guardedRun policy (fun i => stream (n + i)) (allowanceAt policy stream n)).slept =
        (List.range' n d).map (delayAt policy stream) := by
  induction hLeft : (allowanceAt policy stream n).left policy using Nat.strong_induction_on
    generalizing n with
  | h left ih =>
    rw [guardedRun]
    split
    next exit hOnce =>
      exact ⟨0, by simp, hOnce, rfl, rfl⟩
    next next hOnce =>
      obtain ⟨hWait, rfl⟩ := waitedFor_of_again hTime (hAnswers n) hOnce
      obtain ⟨d, hWaited, hLast, hAttempts, hSlept⟩ :=
        ih _ (hLeft ▸ left_of_attemptOnce hOnce) (n + 1) rfl
      have hShift : (fun i => stream (n + (i + 1))) = fun i => stream (n + 1 + i) := by
        ext i
        congr 1
        omega
      rw [hShift]
      refine ⟨d + 1, fun i hi => ?_, ?_, ?_, ?_⟩
      · cases i with
        | zero => exact hWait
        | succ i =>
          have hNext := hWaited i (by omega)
          rwa [show n + (i + 1) = n + 1 + i by omega]
      · rwa [show n + (d + 1) = n + 1 + d by omega]
      · rw [GuardedRun.prepend, hAttempts, List.range'_succ, List.map_cons]
        rfl
      · rw [GuardedRun.prepend, hSlept, List.range'_succ, List.map_cons]
        rfl

theorem bounds_of_waitedFor (h : ∀ i < n, WaitedFor policy stream i) :
    rateLimits stream n ≤ policy.max429Retries ∧
      transients stream n ≤ policy.maxTransientRetries ∧
      n ≤ rateLimits stream n + transients stream n ∧
      spentBefore policy stream n ≤ policy.totalSleepBudgetSeconds := by
  induction n with
  | zero => simp [rateLimits, transients, spentBefore, policy.totalSleepBudgetSeconds_pos.le]
  | succ n ih =>
    obtain ⟨h429, hTransient, hCount, hSpent⟩ := ih fun i hi => h i (by omega)
    have hWait := h n (by omega)
    obtain ⟨q, hDelay, -, hFits⟩ := hWait.delay
    have hRetries := hWait.retries
    have hOne : ¬ (rateLimited (stream n) = true ∧ transient (stream n) = true) := by
      rintro ⟨hLimited, hTransient⟩
      cases hResult : stream n with
      | response response =>
        simp only [hResult, rateLimited, transient, decide_eq_true_eq] at hLimited hTransient
        cases hLimited.symm.trans hTransient
      | exception => simp [hResult, rateLimited] at hLimited
      | interrupt => simp [hResult, rateLimited] at hLimited
    have hTotal : spentBefore policy stream (n + 1) ≤ policy.totalSleepBudgetSeconds := by
      rw [spentBefore_succ, hDelay, Seconds.value]
      linarith
    unfold rateLimits transients at *
    rw [Nat.count_succ, Nat.count_succ]
    rcases hRetries with ⟨hKind, hLess⟩ | ⟨hKind, hLess⟩
    · have hOther : ¬ transient (stream n) = true := fun hTransient => hOne ⟨hKind, hTransient⟩
      rw [if_pos hKind, if_neg hOther]
      exact ⟨by omega, by omega, by omega, hTotal⟩
    · have hOther : ¬ rateLimited (stream n) = true := fun hLimited => hOne ⟨hLimited, hKind⟩
      rw [if_pos hKind, if_neg hOther]
      exact ⟨by omega, by omega, by omega, hTotal⟩

end Run

/-! ## Bounded and accounted for -/

/-- The bounds of a call that is admitted, and its one outcome. -/
structure Accounted (policy : RestPolicy) (run : GuardedRun) : Prop where
  attempts : run.attempts.length ≤ 1 + policy.max429Retries + policy.maxTransientRetries
  slept : ∃ seconds : List ℚ, run.slept = seconds.map .finite ∧
    (∀ q ∈ seconds, 0 ≤ q) ∧ seconds.sum ≤ policy.totalSleepBudgetSeconds
  refusals : ∀ result ∈ run.attempts.dropLast, refused result = false
  recorded : run.recorded.length = 1

theorem refused_of_waitedFor {n : Nat}
    (h : WaitedFor policy stream n) : refused (stream n) = false := by
  have hRetries := h.retries
  cases hResult : stream n with
  | interrupt => rfl
  | exception => rfl
  | response response =>
    simp only [hResult, rateLimited, transient, decide_eq_true_eq] at hRetries
    apply decide_eq_false
    rcases hRetries with ⟨hCategory, -⟩ | ⟨hCategory, -⟩
    · simp [hCategory]
    · simp [hCategory]

theorem recorded_eq_nil_iff {run : GuardedRun} : run.recorded.length = 1 ↔ run.exit ≠ .escaped := by
  unfold GuardedRun.recorded
  cases run.exit with
  | recorded outcome => simp
  | escaped => simp

theorem accounted_guardedRun_iff
    (hTime : SleepsLikeTime policy) (hAnswers : ∀ n, stream n ≠ .interrupt) :
    Accounted policy (guardedRun policy stream { budget := policy.totalSleepBudgetSeconds }) ↔
      ¬ ∃ n, NegativeDelayAt policy stream n := by
  obtain ⟨d, hWaited, hLast, hAttempts, hSlept⟩ := guardedRun_spec hTime hAnswers 0
  simp only [Nat.zero_add] at hWaited hLast hAttempts hSlept
  rw [allowanceAt_zero] at hLast hAttempts hSlept
  obtain ⟨h429, hTransient, hCount, hSpent⟩ := bounds_of_waitedFor hWaited
  have hEscaped : (guardedRun policy stream { budget := policy.totalSleepBudgetSeconds }).exit =
      .escaped ↔ ∃ n, NegativeDelayAt policy stream n := by
    constructor
    · intro hExit
      rw [hExit] at hLast
      have hRetryable : Retryable policy stream d := by
        by_contra hNot
        obtain ⟨outcome, hOnce⟩ := attemptOnce_of_not_retryable hNot (hAnswers d)
        rw [hOnce] at hLast
        cases hLast
      have hWait : ¬ WaitedFor policy stream d := by
        intro hWait
        rw [attemptOnce_of_waitedFor hTime hWait] at hLast
        cases hLast
      rcases attemptOnce_of_not_waitedFor hTime hRetryable hWait with
        ⟨hInvalid, -⟩ | ⟨-, outcome, hOnce⟩
      · exact ⟨d, hRetryable, hWaited, invalid_delayAt_iff.mp hInvalid⟩
      · rw [hOnce] at hLast
        cases hLast
    · rintro ⟨n, hRetryable, hBefore, hNegative⟩
      have hInvalid : (delayAt policy stream n).invalid = true :=
        invalid_delayAt_iff.mpr hNegative
      have hWait : ¬ WaitedFor policy stream n := by
        intro hWait
        rw [not_negative_of_waitedFor hWait] at hInvalid
        cases hInvalid
      -- the loop is left at the one answer that is not waited for
      have hSame : n = d := by
        apply le_antisymm
        · by_contra hLess
          rw [attemptOnce_of_waitedFor hTime (hBefore d (by omega))] at hLast
          cases hLast
        · by_contra hLess
          exact hWait (hWaited n (by omega))
      subst hSame
      rcases attemptOnce_of_not_waitedFor hTime hRetryable hWait with
        ⟨-, hOnce⟩ | ⟨hValid, -⟩
      · rw [hOnce] at hLast
        exact (Verdict.leave.inj hLast).symm
      · rw [hValid] at hInvalid
        cases hInvalid
  rw [← hEscaped]
  constructor
  · intro hAccounted
    exact recorded_eq_nil_iff.mp hAccounted.recorded
  · intro hExit
    refine ⟨?_, ?_, ?_, recorded_eq_nil_iff.mpr hExit⟩
    · rw [hAttempts, List.length_map, List.length_range']
      omega
    · refine ⟨(List.range' 0 d).map fun i => (delayAt policy stream i).value, ?_, ?_, ?_⟩
      · rw [hSlept, List.map_map]
        apply List.map_congr_left
        intro i hi
        obtain ⟨q, hDelay, -⟩ := (hWaited i (by simpa using hi)).delay
        rw [Function.comp_apply, hDelay]
        rfl
      · intro q hq
        obtain ⟨i, hi, rfl⟩ := List.mem_map.mp hq
        obtain ⟨q, hDelay, hNonneg, -⟩ := (hWaited i (by simpa using hi)).delay
        rwa [hDelay]
      · rw [← List.range_eq_range']
        exact hSpent
    · intro result hResult
      rw [hAttempts, List.range'_concat, List.map_append, List.map_singleton,
        List.dropLast_concat] at hResult
      obtain ⟨i, hi, rfl⟩ := List.mem_map.mp hResult
      exact refused_of_waitedFor (hWaited i (by simpa using hi))

theorem guardedRun_of_again {a next : Allowance}
    (h : attemptOnce policy a (stream 0) = .again next) :
    guardedRun policy stream a =
      (guardedRun policy (fun n => stream (n + 1)) next).prepend (stream 0)
        (delayAfter policy a.retriesTransient (stream 0)) := by
  rw [guardedRun]
  split
  next hOnce => rw [hOnce] at h; cases h
  next hOnce =>
    rw [hOnce] at h
    cases h
    rfl

theorem guardedRun_of_leave {a : Allowance} {exit : Exit}
    (h : attemptOnce policy a (stream 0) = .leave exit) :
    guardedRun policy stream a = .stopped (stream 0) exit := by
  rw [guardedRun]
  split
  next hOnce =>
    rw [hOnce] at h
    cases h
    rfl
  next hOnce => rw [hOnce] at h; cases h

theorem attemptLoop_guardedRun {policy : RestPolicy} (stream : Nat → AttemptResult)
    (a : Allowance) :
    attemptLoop policy a (guardedRun policy stream a).attempts =
      some ((guardedRun policy stream a).exit, []) := by
  induction hLeft : a.left policy using Nat.strong_induction_on generalizing stream a with
  | h left ih =>
    cases hOnce : attemptOnce policy a (stream 0) with
    | leave exit => rw [guardedRun_of_leave hOnce, GuardedRun.stopped, attemptLoop, hOnce]
    | again next =>
      rw [guardedRun_of_again hOnce, GuardedRun.prepend, attemptLoop, hOnce]
      exact ih _ (hLeft ▸ left_of_attemptOnce hOnce) _ next rfl

theorem executeGuarded_of_guardedCall {own : Option RestPolicy}
    {c c' : RestCircuit} {checkTime recordTime : ℚ}
    {run : GuardedRun} (h : guardedCall policy own c checkTime recordTime stream = some (run, c')) :
    executeGuarded policy c ⟨checkTime, recordTime, own, run.attempts⟩ = some c' := by
  unfold guardedCall at h
  unfold executeGuarded
  cases hCheck : c.check policy checkTime with
  | none =>
    rw [hCheck] at h
    cases h
  | some admitted =>
    rw [hCheck] at h
    dsimp only at h ⊢
    have hLoop := @attemptLoop_guardedRun (own.getD policy) stream
    split at h
    next outcome hExit =>
      obtain ⟨rfl, rfl⟩ := Prod.mk.inj (Option.some.inj h)
      rw [hLoop, hExit]
    next hExit =>
      obtain ⟨rfl, rfl⟩ := Prod.mk.inj (Option.some.inj h)
      rw [hLoop, hExit]

/-- A call that is admitted keeps all its bounds and records one outcome, exactly if it meets no
rate limit with a negative `Retry-After` that it could wait for. -/
theorem accounted_iff {policy : RestPolicy} {own : Option RestPolicy} {c c' : RestCircuit}
    {checkTime recordTime : ℚ} {stream : Nat → AttemptResult} {run : GuardedRun}
    (hTime : SleepsLikeTime (own.getD policy)) (hAnswers : ∀ n, stream n ≠ .interrupt)
    (h : guardedCall policy own c checkTime recordTime stream = some (run, c')) :
    Accounted (own.getD policy) run ↔ ¬ ∃ n, NegativeDelayAt (own.getD policy) stream n := by
  have hRun : run = guardedRun (own.getD policy) stream
      { budget := (own.getD policy).totalSleepBudgetSeconds } := by
    unfold guardedCall at h
    split at h
    · cases h
    · dsimp only at h
      split at h
      · exact (Prod.mk.inj (Option.some.inj h)).1.symm
      · exact (Prod.mk.inj (Option.some.inj h)).1.symm
  rw [hRun]
  exact accounted_guardedRun_iff hTime hAnswers

theorem sleepsLikeTime_default : SleepsLikeTime defaultPolicy := by
  intro delay hFinite
  cases delay with
  | finite q => rfl
  | infinity => exact absurd rfl hFinite
  | negativeInfinity => rfl
  | nan => rfl

/-- A rate limit that asks for two seconds, then a server error, then success. -/
def recoveringStream : Nat → AttemptResult
  | 0 => .response { statusCode := 429, retryAfter := some (.finite 2) }
  | 1 => .response { statusCode := 503 }
  | _ => .response { statusCode := 204 }

theorem not_negativeDelayAt_recoveringStream (n : Nat) :
    ¬ NegativeDelayAt defaultPolicy recoveringStream n := by
  intro h
  have hNegative := h.negative
  match n with
  | 0 => exact absurd hNegative.2 (by decide +kernel)
  | 1 => exact absurd hNegative.2 (by decide)
  | _ + 2 => exact absurd hNegative.2 (by decide)

/-- Two seconds for the rate limit, one for the server error, and the outcome of the success. -/
def recoveredRun : GuardedRun :=
  ⟨[recoveringStream 0, recoveringStream 1, recoveringStream 2], [.finite 2, .finite 1],
    .recorded { category := .ok, statusCode := some 204 }⟩

theorem guardedRun_recoveringStream :
    guardedRun defaultPolicy recoveringStream { budget := defaultPolicy.totalSleepBudgetSeconds } =
      recoveredRun := by
  have hFirst : attemptOnce defaultPolicy { budget := defaultPolicy.totalSleepBudgetSeconds }
      (recoveringStream 0) = .again { budget := 58, retries429 := 1 } := by decide +kernel
  have hSecond : attemptOnce defaultPolicy { budget := 58, retries429 := 1 } (recoveringStream 1) =
      .again { budget := 57, retries429 := 1, retriesTransient := 1 } := by decide +kernel
  have hLast : attemptOnce defaultPolicy { budget := 57, retries429 := 1, retriesTransient := 1 }
      (recoveringStream 2) = .leave (.recorded { category := .ok, statusCode := some 204 }) := by
    decide +kernel
  have hTwo : delayAfter defaultPolicy 0 (recoveringStream 0) = .finite 2 := by decide +kernel
  have hOne : delayAfter defaultPolicy 0 (recoveringStream 1) = .finite 1 := by decide +kernel
  rw [guardedRun_of_again hFirst, guardedRun_of_again hSecond, guardedRun_of_leave hLast, hTwo]
  rw [hOne]
  rfl

/-- Both failures are waited out, and the success is what the call records. -/
theorem accounted_recoveringStream :
    ∃ c', guardedCall defaultPolicy none {} 0 1 recoveringStream = some (recoveredRun, c') ∧
      Accounted defaultPolicy recoveredRun := by
  have hCall : ∃ c', guardedCall defaultPolicy none {} 0 1 recoveringStream =
      some (recoveredRun, c') := by
    unfold guardedCall
    dsimp only [RestCircuit.check, Option.getD_none]
    rw [guardedRun_recoveringStream]
    exact ⟨_, rfl⟩
  obtain ⟨c', hCall⟩ := hCall
  have hAnswers : ∀ n, recoveringStream n ≠ .interrupt := by
    intro n
    match n with
    | 0 | 1 | _ + 2 => simp [recoveringStream]
  have hIff := @accounted_iff defaultPolicy none _ _ _ _ _ _ sleepsLikeTime_default hAnswers hCall
  refine ⟨c', hCall, hIff.mpr ?_⟩
  rintro ⟨n, hNegative⟩
  exact not_negativeDelayAt_recoveringStream n hNegative

theorem attemptLoop_ends_rateLimited :
    ∃ exit used rest, List.replicate 7 (.response { statusCode := 429 }) = used ++ rest ∧
      attemptLoop defaultPolicy { budget := 60 } used = some (exit, []) :=
  attemptLoop_ends (by decide)

/-- A rate limit with `Retry-After: -1`: `sleep` raises, and nothing is recorded. -/
theorem negative_retry_after_unrecorded :
    ∃ run c', guardedCall defaultPolicy none {} 0 1
        (fun _ => .response { statusCode := 429, retryAfter := some (.finite (-1)) }) =
          some (run, c') ∧
      run.recorded = [] ∧ ¬ Accounted defaultPolicy run := by
  have hOnce : attemptOnce defaultPolicy { budget := defaultPolicy.totalSleepBudgetSeconds }
      (.response { statusCode := 429, retryAfter := some (.finite (-1)) }) = .leave .escaped := rfl
  have hRun : guardedRun defaultPolicy
      (fun _ => .response { statusCode := 429, retryAfter := some (.finite (-1)) })
      { budget := defaultPolicy.totalSleepBudgetSeconds } =
        .stopped (.response { statusCode := 429, retryAfter := some (.finite (-1)) }) .escaped :=
    guardedRun_of_leave hOnce
  refine ⟨.stopped (.response { statusCode := 429, retryAfter := some (.finite (-1)) }) .escaped,
    {}, ?_, rfl, ?_⟩
  · unfold guardedCall RestCircuit.check
    dsimp only
    rw [Option.getD_none, hRun]
    rfl
  · intro hAccounted
    cases hAccounted.recorded

end Glasslab.Discord
