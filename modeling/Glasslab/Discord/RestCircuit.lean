import Mathlib.Algebra.Order.Field.Rat
import Glasslab.Foundation.Machine

/-!
# The circuit breaker around Discord's REST interface

`app/discord_rest.py`: the classification of responses, the retry loop of `execute_guarded` and the
breaker `DiscordRestCircuit`.

An open breaker lets one probe through once the cooldown has elapsed, and the outcome of the probe
decides what comes next: a success closes it, a failure opens it again, and a call that ends without
an outcome gives the slot back. A rejected request is an outcome that is none of these. `record`
returns before it looks at the state, so a probe that is answered with an ordinary 4xx keeps the
slot, and no later call is admitted. With no other answer does the breaker get stuck
(`unwedged_iff`).
-/

namespace Glasslab.Discord

open Foundation.Machine List

inductive Category where
  | ok
  | rateLimited
  | unauthorized
  | clientError
  | blocked
  | cloudflare1010
  | serverError
  | network
  deriving DecidableEq, Repr

def terminalFailureCategories : List Category :=
  [.rateLimited, .unauthorized, .blocked, .cloudflare1010, .serverError, .network]

def retryableCategories : List Category := [.rateLimited, .serverError, .network]

/-- A number of seconds as a float: what `Retry-After` may hold. -/
inductive Seconds where
  | finite (q : ℚ)
  | infinity
  | negativeInfinity
  | nan
  deriving DecidableEq

/-- `min(seconds, cap)`: the cap where it is smaller. -/
def Seconds.cap (seconds : Seconds) (cap : ℚ) : Seconds :=
  match seconds with
  | finite q => if cap < q then finite cap else finite q
  | infinity => finite cap
  | negativeInfinity => negativeInfinity
  | nan => nan

/-- `seconds > budget`. -/
def Seconds.exceeds (seconds : Seconds) (budget : ℚ) : Bool :=
  match seconds with
  | finite q => budget < q
  | infinity => true
  | negativeInfinity | nan => false

/-- `budget - seconds`, where the sleep went through. An injected `sleep` that lets a delay pass
which is no number or negative infinity leaves the budget as it is. -/
def Seconds.spend (seconds : Seconds) (budget : ℚ) : ℚ :=
  match seconds with
  | finite q => budget - q
  | _ => budget

structure RestOutcome where
  category : Category
  statusCode : Option Int := none
  retryAfter : Option Seconds := none
  deriving DecidableEq

/-- What `classify_response` reads of a response. -/
structure Response where
  statusCode : Int
  /-- The `retry-after` header, where it is a number. -/
  retryAfter : Option Seconds := none
  /-- What `_is_cloudflare_1010` finds in the header and the body. -/
  isCloudflare1010 : Bool := false

def classifyResponse (response : Response) : RestOutcome :=
  let status := response.statusCode
  if 200 ≤ status ∧ status < 300 then { category := .ok, statusCode := status }
  else if status = 429 then
    { category := .rateLimited, statusCode := status, retryAfter := response.retryAfter }
  else if status = 401 then { category := .unauthorized, statusCode := status }
  else if status = 403 then
    if response.isCloudflare1010 then { category := .cloudflare1010, statusCode := status }
    else { category := .blocked, statusCode := status }
  else if 400 ≤ status ∧ status < 500 then { category := .clientError, statusCode := status }
  else if 500 ≤ status ∧ status < 600 then { category := .serverError, statusCode := status }
  else { category := .clientError, statusCode := status }

/-- `classify_exception`. -/
def networkOutcome : RestOutcome := { category := .network }

/-- `DiscordRestPolicy`, with the bounds of the waits that its constructor checks. -/
structure RestPolicy where
  circuitOpenFailures : Nat := 3
  cooldownSeconds : ℚ := 60
  max429Retries : Nat := 3
  maxTransientRetries : Nat := 3
  retryAfterCapSeconds : ℚ := 30
  baseBackoffSeconds : ℚ := 1
  totalSleepBudgetSeconds : ℚ := 60
  /-- Whether the injected `sleep` raises. -/
  sleepRaises : Seconds → Bool
  retryAfterCapSeconds_pos : 0 < retryAfterCapSeconds
  baseBackoffSeconds_pos : 0 < baseBackoffSeconds
  totalSleepBudgetSeconds_pos : 0 < totalSleepBudgetSeconds

inductive CircuitState where
  | closed
  | opened
  | halfOpen
  deriving DecidableEq, Repr

/-- `DiscordRestCircuit`. -/
structure RestCircuit where
  state : CircuitState := .closed
  consecutiveFailures : Nat := 0
  totalFailures : Nat := 0
  totalSuccesses : Nat := 0
  lastOutcome : Option RestOutcome := none
  openAt : Option ℚ := none
  halfOpenInFlight : Bool := false
  deriving DecidableEq

namespace RestCircuit

variable (policy : RestPolicy)

/-- `check`: the breaker after it admitted an attempt, or nothing where it raises
`DiscordCircuitOpen`. -/
def check (now : ℚ) (c : RestCircuit) : Option RestCircuit :=
  match c.state with
  | .opened =>
    match c.openAt with
    | none => none
    | some openAt =>
      if now - openAt < policy.cooldownSeconds then none
      else some { c with state := .halfOpen, halfOpenInFlight := true }
  | .halfOpen => if c.halfOpenInFlight then none else some { c with halfOpenInFlight := true }
  | .closed => some c

def releaseHalfOpenProbe (c : RestCircuit) : RestCircuit :=
  if c.state = .halfOpen then { c with halfOpenInFlight := false } else c

def record (now : ℚ) (outcome : RestOutcome) (c : RestCircuit) : RestCircuit :=
  let c := { c with lastOutcome := some outcome }
  if outcome.category = .ok then
    let c := { c with totalSuccesses := c.totalSuccesses + 1, consecutiveFailures := 0 }
    if c.state = .halfOpen then { c with state := .closed, halfOpenInFlight := false } else c
  else if outcome.category ∉ terminalFailureCategories then
    c
  else
    let c :=
      { c with
        totalFailures := c.totalFailures + 1, consecutiveFailures := c.consecutiveFailures + 1 }
    if c.state = .halfOpen then
      { c with state := .opened, openAt := some now, halfOpenInFlight := false }
    else if policy.circuitOpenFailures ≤ c.consecutiveFailures then
      { c with state := .opened, openAt := some now }
    else
      c

end RestCircuit

/-- How one call of `attempt` ends. -/
inductive AttemptResult where
  | response (response : Response)
  /-- An `Exception`. -/
  | exception
  /-- A `BaseException` that is no `Exception`. -/
  | interrupt

/-- How the loop of `execute_guarded` is left: with an outcome that was recorded, or by an
exception before there was one. -/
inductive Exit where
  | recorded (outcome : RestOutcome)
  | escaped
  deriving DecidableEq

def transientBackoff (policy : RestPolicy) (retries : Nat) : Seconds :=
  .finite (policy.baseBackoffSeconds * 2 ^ retries)

/-- `_retry_delay`, for a rate-limited outcome. -/
def retryDelay (policy : RestPolicy) (outcome : RestOutcome) : Seconds :=
  match outcome.retryAfter with
  | none => .finite policy.baseBackoffSeconds
  | some retryAfter => retryAfter.cap policy.retryAfterCapSeconds

/-- The local variables of the loop. -/
structure Allowance where
  budget : ℚ
  retries429 : Nat := 0
  retriesTransient : Nat := 0
  deriving DecidableEq

/-- What the loop does with one outcome that is no success: it stops, or it waits before the next
attempt. -/
inductive Decision where
  | stop
  | wait (delay : Seconds) (next : Allowance)

def decideException (policy : RestPolicy) (a : Allowance) : Decision :=
  if a.retriesTransient < policy.maxTransientRetries ∧ 0 < a.budget then
    .wait (transientBackoff policy a.retriesTransient)
      { a with retriesTransient := a.retriesTransient + 1 }
  else .stop

def decideResponse (policy : RestPolicy) (a : Allowance) (outcome : RestOutcome) : Decision :=
  if outcome.category ∈ retryableCategories ∧ 0 < a.budget then
    if outcome.category = .rateLimited then
      if policy.max429Retries ≤ a.retries429 then .stop
      else .wait (retryDelay policy outcome) { a with retries429 := a.retries429 + 1 }
    else if policy.maxTransientRetries ≤ a.retriesTransient then .stop
    else
      .wait (transientBackoff policy a.retriesTransient)
        { a with retriesTransient := a.retriesTransient + 1 }
  else .stop

/-- How one attempt ends: the loop is left, or goes on. -/
inductive Verdict where
  | leave (exit : Exit)
  | again (next : Allowance)
  deriving DecidableEq

/-- Wait for the next attempt within the budget, or record the outcome. -/
def proceed (policy : RestPolicy) (a : Allowance) (outcome : RestOutcome) : Decision → Verdict
  | .stop => .leave (.recorded outcome)
  | .wait delay next =>
    if delay.exceeds a.budget then .leave (.recorded outcome)
    else if policy.sleepRaises delay then .leave .escaped
    else .again { next with budget := delay.spend a.budget }

def attemptOnce (policy : RestPolicy) (a : Allowance) : AttemptResult → Verdict
  | .interrupt => .leave .escaped
  | .exception => proceed policy a networkOutcome (decideException policy a)
  | .response response =>
    let outcome := classifyResponse response
    if outcome.category = .ok then .leave (.recorded outcome)
    else proceed policy a outcome (decideResponse policy a outcome)

/-- The loop of `execute_guarded`, over the results its attempts get. Returns how it was left and
the results it did not ask for, or nothing while it waits for another result. -/
def attemptLoop (policy : RestPolicy) :
    Allowance → List AttemptResult → Option (Exit × List AttemptResult)
  | _, [] => none
  | a, result :: rest =>
    match attemptOnce policy a result with
    | .leave exit => some (exit, rest)
    | .again next => attemptLoop policy next rest

/-- A call of `execute_guarded`: its readings of the clock, its own policy if it has one, and the
results its attempts get. -/
structure GuardedCall where
  checkTime : ℚ
  recordTime : ℚ
  policy : Option RestPolicy := none
  results : List AttemptResult

/-- `execute_guarded`: the breaker after the call, or nothing if the call does not end with these
results. -/
def executeGuarded (policy : RestPolicy) (c : RestCircuit) (call : GuardedCall) :
    Option RestCircuit :=
  match c.check policy call.checkTime with
  | none => if call.results.isEmpty then some c else none
  | some c =>
    let own := call.policy.getD policy
    match attemptLoop own { budget := own.totalSleepBudgetSeconds } call.results with
    | some (.recorded outcome, []) => some (c.record policy call.recordTime outcome)
    | some (.escaped, []) => some c.releaseHalfOpenProbe
    | _ => none

/-! ## The loop -/

def AttemptResult.rejected : AttemptResult → Bool
  | .response r => (classifyResponse r).category = .clientError
  | .exception | .interrupt => false

variable {outcome : RestOutcome} {policy : RestPolicy}

section Loop

variable {a next : Allowance} {result : AttemptResult} {d : Decision}

theorem proceed_recorded {recorded : RestOutcome}
    (h : proceed policy a outcome d = .leave (.recorded recorded)) : recorded = outcome := by
  cases d with
  | stop =>
    cases h
    rfl
  | wait delay next =>
    simp only [proceed] at h
    split at h
    · cases h
      rfl
    · split at h <;> cases h

theorem attemptOnce_of_rejected (h : result.rejected = true) :
    ∃ outcome, attemptOnce policy a result = .leave (.recorded outcome) ∧
      outcome.category = .clientError := by
  cases result with
  | interrupt => cases h
  | exception => cases h
  | response response =>
    have hCategory : (classifyResponse response).category = .clientError := by
      simpa [AttemptResult.rejected] using h
    simp [attemptOnce, decideResponse, proceed, hCategory, retryableCategories]

theorem category_of_recorded (h : attemptOnce policy a result = .leave (.recorded outcome))
    (hRejected : result.rejected = false) : outcome.category ≠ .clientError := by
  cases result with
  | interrupt => cases h
  | exception =>
    rw [proceed_recorded h]
    decide
  | response response =>
    have hOutcome : outcome = classifyResponse response := by
      simp only [attemptOnce] at h
      split at h
      · cases h
        rfl
      · exact proceed_recorded h
    rw [hOutcome]
    simpa [AttemptResult.rejected] using hRejected

variable {results : List AttemptResult}

theorem attemptLoop_recorded_iff {exit : Exit}
    (h : attemptLoop policy a results = some (exit, [])) :
    (∃ outcome, exit = .recorded outcome ∧ outcome.category = .clientError) ↔
      ∃ result ∈ results, result.rejected = true := by
  induction results generalizing a with
  | nil => cases h
  | cons result rest ih =>
    simp only [attemptLoop] at h
    cases hRejected : result.rejected with
    | true =>
      obtain ⟨outcome, hOnce, hCategory⟩ :
          ∃ outcome, attemptOnce policy a result = .leave (.recorded outcome) ∧
            outcome.category = .clientError := attemptOnce_of_rejected hRejected
      rw [hOnce] at h
      cases h
      exact ⟨fun _ => ⟨result, mem_cons_self, hRejected⟩,
        fun _ => ⟨outcome, rfl, hCategory⟩⟩
    | false =>
      cases hOnce : attemptOnce policy a result with
      | leave left =>
        rw [hOnce] at h
        cases h
        constructor
        · rintro ⟨outcome, rfl, hCategory⟩
          exact absurd hCategory (category_of_recorded hOnce hRejected)
        · rintro ⟨other, hMem, hOther⟩
          rw [mem_singleton.mp hMem, hRejected] at hOther
          cases hOther
      | again next =>
        rw [hOnce] at h
        rw [ih h]
        simp [hRejected]

def Allowance.left (policy : RestPolicy) (a : Allowance) : Nat :=
  (policy.max429Retries - a.retries429) + (policy.maxTransientRetries - a.retriesTransient)

theorem left_of_decideException {delay : Seconds}
    (h : decideException policy a = .wait delay next) : next.left policy < a.left policy := by
  simp only [decideException] at h
  split at h
  next hLeft =>
    cases h
    simp only [Allowance.left]
    omega
  next => cases h

theorem left_of_decideResponse {delay : Seconds}
    (h : decideResponse policy a outcome = .wait delay next) :
    next.left policy < a.left policy := by
  simp only [decideResponse] at h
  split at h
  · split at h
    · split at h
      · cases h
      · cases h
        simp only [Allowance.left]
        omega
    · split at h
      · cases h
      · cases h
        simp only [Allowance.left]
        omega
  · cases h

theorem left_of_proceed
    (hd : ∀ delay next, d = .wait delay next → next.left policy < a.left policy)
    (h : proceed policy a outcome d = .again next) : next.left policy < a.left policy := by
  cases d with
  | stop => cases h
  | wait delay next' =>
    have hLess := hd delay next' rfl
    simp only [proceed] at h
    split at h
    · cases h
    · split at h
      · cases h
      · cases h
        exact hLess

theorem left_of_attemptOnce (h : attemptOnce policy a result = .again next) :
    next.left policy < a.left policy := by
  cases result with
  | interrupt => cases h
  | exception => exact left_of_proceed (fun _ _ => left_of_decideException) h
  | response response =>
    simp only [attemptOnce] at h
    split at h
    · cases h
    · exact left_of_proceed (fun _ _ => left_of_decideResponse) h

/-- The loop ends: with more results than there are retries left, some first part of them is all
it asks for. -/
theorem attemptLoop_ends (h : a.left policy < results.length) :
    ∃ exit used rest, results = used ++ rest ∧ attemptLoop policy a used = some (exit, []) := by
  induction results generalizing a with
  | nil => cases h
  | cons result rest ih =>
    cases hOnce : attemptOnce policy a result with
    | leave exit =>
      refine ⟨exit, [result], rest, rfl, ?_⟩
      simp only [attemptLoop, hOnce]
    | again next =>
      have hLeft := left_of_attemptOnce hOnce
      obtain ⟨exit, used, rest', rfl, hLoop⟩ := ih (a := next) (by
        rw [length_cons] at h
        omega)
      refine ⟨exit, result :: used, rest', rfl, ?_⟩
      simp only [attemptLoop, hOnce]
      exact hLoop

end Loop

/-! ## The breaker along a history -/

/-- The probe slot of a half-open breaker is free. -/
def RestCircuit.Unwedged (c : RestCircuit) : Prop :=
  ¬(c.state = .halfOpen ∧ c.halfOpenInFlight = true)

/-- Once the cooldown has elapsed, the next call is admitted. -/
def RestCircuit.Recovers (policy : RestPolicy) (c : RestCircuit) : Prop :=
  ∀ now, (∀ openAt, c.openAt = some openAt → policy.cooldownSeconds ≤ now - openAt) →
    (c.check policy now).isSome = true

structure RestCircuit.WellFormed (c : RestCircuit) : Prop where
  openAt : c.state = .opened → c.openAt ≠ none
  inFlight : c.halfOpenInFlight = true → c.state = .halfOpen

def GuardedCall.IsProbe (policy : RestPolicy) (c : RestCircuit) (call : GuardedCall) : Prop :=
  c.state ≠ .closed ∧ (c.check policy call.checkTime).isSome = true

instance (policy : RestPolicy) (c : RestCircuit) (call : GuardedCall) :
    Decidable (call.IsProbe policy c) := inferInstanceAs (Decidable (_ ∧ _))

section History

variable {c c' : RestCircuit} {call : GuardedCall} {now : ℚ}

theorem unwedged_iff_recovers (h : c.WellFormed) : c.Unwedged ↔ c.Recovers policy := by
  cases hState : c.state with
  | closed => simp [RestCircuit.Unwedged, RestCircuit.Recovers, RestCircuit.check, hState]
  | opened =>
    have hOpen := h.openAt hState
    cases hAt : c.openAt with
    | none => exact absurd hAt hOpen
    | some openAt =>
      simp only [RestCircuit.Unwedged, RestCircuit.Recovers, RestCircuit.check, hState, hAt]
      simp
  | halfOpen =>
    cases hFlight : c.halfOpenInFlight with
    | false =>
      simp [RestCircuit.Unwedged, RestCircuit.Recovers, RestCircuit.check, hState, hFlight]
    | true =>
      -- at the end of the cooldown, if there is one, the slot is still taken
      have hNow : ∃ now, ∀ openAt, c.openAt = some openAt →
          policy.cooldownSeconds ≤ now - openAt := by
        cases c.openAt with
        | none => exact ⟨0, nofun⟩
        | some openAt =>
          refine ⟨openAt + policy.cooldownSeconds, ?_⟩
          simp
      obtain ⟨now, hElapsed⟩ := hNow
      constructor
      · intro hUnwedged
        exact absurd ⟨hState, hFlight⟩ hUnwedged
      · intro hRecovers
        have hAdmitted := hRecovers now hElapsed
        simp [RestCircuit.check, hState, hFlight] at hAdmitted

/-- A call is admitted on a closed breaker as it is, and on another one as its probe. -/
theorem check_eq_some (h : c.check policy now = some c') :
    c.state = .closed ∧ c' = c ∨
      c.state ≠ .closed ∧ c' = { c with state := .halfOpen, halfOpenInFlight := true } := by
  unfold RestCircuit.check at h
  split at h
  next hState =>
    split at h
    · cases h
    · split at h
      · cases h
      · right
        cases h
        exact ⟨by rw [hState]; decide, rfl⟩
  next hState =>
    split at h
    · cases h
    · right
      cases h
      refine ⟨by rw [hState]; decide, ?_⟩
      rw [← hState]
  next hState =>
    left
    cases h
    exact ⟨hState, rfl⟩

theorem category_cases (category : Category) :
    category = .ok ∨ category = .clientError ∨ category ∈ terminalFailureCategories := by
  cases category <;> decide

theorem record_probe (hState : c.state = .halfOpen) (hFlight : c.halfOpenInFlight = true) :
    (c.record policy now outcome).WellFormed ∧
      ((c.record policy now outcome).Unwedged ↔ outcome.category ≠ .clientError) := by
  rcases category_cases outcome.category with hOk | hClient | hFailure
  · simp only [RestCircuit.record, hOk, if_true, hState]
    refine ⟨⟨?_, ?_⟩, ?_⟩ <;> simp [RestCircuit.Unwedged]
  · have hNot : Category.clientError ∉ terminalFailureCategories := by decide
    simp only [RestCircuit.record, hClient, hNot, not_false_eq_true, if_true, reduceCtorEq,
      if_false]
    refine ⟨⟨?_, ?_⟩, ?_⟩ <;> simp [RestCircuit.Unwedged, hState, hFlight]
  · have hNotOk : outcome.category ≠ .ok := by
      intro hOk
      rw [hOk] at hFailure
      exact absurd hFailure (by decide)
    have hNotClient : outcome.category ≠ .clientError := by
      intro hClient
      rw [hClient] at hFailure
      exact absurd hFailure (by decide)
    simp only [RestCircuit.record, hNotOk, if_false, hFailure, not_true_eq_false, hState, if_true]
    refine ⟨⟨?_, ?_⟩, ?_⟩ <;> simp [RestCircuit.Unwedged, hNotClient]

theorem record_closed (hState : c.state = .closed) (hFlight : c.halfOpenInFlight = false) :
    (c.record policy now outcome).WellFormed ∧ (c.record policy now outcome).Unwedged := by
  have hSettled : (c.record policy now outcome).halfOpenInFlight = false ∧
      ((c.record policy now outcome).state = .opened →
        (c.record policy now outcome).openAt ≠ none) := by
    unfold RestCircuit.record
    dsimp only
    split
    · simp [hState, hFlight]
    · split
      · simp [hState, hFlight]
      · rw [if_neg (by simp [hState])]
        split <;> simp [hState, hFlight]
  refine ⟨⟨hSettled.2, ?_⟩, ?_⟩ <;> simp [RestCircuit.Unwedged, hSettled.1]

theorem release_probe (hState : c.state = .halfOpen) :
    c.releaseHalfOpenProbe.WellFormed ∧ c.releaseHalfOpenProbe.Unwedged := by
  rw [RestCircuit.releaseHalfOpenProbe, if_pos hState]
  refine ⟨⟨?_, ?_⟩, ?_⟩ <;> simp [RestCircuit.Unwedged, hState]

/-- A completed call on a breaker that is not stuck leaves it stuck if and only if it was a probe
and its request was rejected. -/
theorem executeGuarded_unwedged_iff (hFormed : c.WellFormed) (hUnwedged : c.Unwedged)
    (h : executeGuarded policy c call = some c') :
    c'.WellFormed ∧ (c'.Unwedged ↔
      (call.IsProbe policy c → ∀ result ∈ call.results, result.rejected = false)) := by
  have hFlight : c.halfOpenInFlight = false := by
    by_contra hTaken
    rw [Bool.not_eq_false] at hTaken
    exact hUnwedged ⟨hFormed.inFlight hTaken, hTaken⟩
  unfold executeGuarded at h
  cases hCheck : c.check policy call.checkTime with
  | none =>
    simp only [hCheck] at h
    split at h
    next hEmpty =>
      cases h
      refine ⟨hFormed, ⟨fun _ hProbe => ?_, fun _ => hUnwedged⟩⟩
      have hAdmitted := hProbe.2
      rw [hCheck] at hAdmitted
      cases hAdmitted
    next => cases h
  | some c₁ =>
    simp only [hCheck] at h
    rcases check_eq_some hCheck with ⟨hState, rfl⟩ | ⟨hState, rfl⟩
    · -- the breaker is closed, so the call is no probe
      have hNoProbe : ¬call.IsProbe policy c₁ := fun hProbe => hProbe.1 hState
      have hDone : c'.WellFormed ∧ c'.Unwedged := by
        split at h
        · cases h
          exact record_closed hState hFlight
        · cases h
          rw [RestCircuit.releaseHalfOpenProbe, if_neg (by rw [hState]; decide)]
          exact ⟨hFormed, hUnwedged⟩
        · cases h
      exact ⟨hDone.1, ⟨fun _ hProbe => absurd hProbe hNoProbe, fun _ => hDone.2⟩⟩
    · have hProbe : call.IsProbe policy c := ⟨hState, by rw [hCheck]; rfl⟩
      simp only [hProbe, true_implies]
      split at h
      next outcome hLoop =>
        cases h
        have hRejected := attemptLoop_recorded_iff hLoop
        obtain ⟨hFormed', hIff⟩ := record_probe (c := { c with
          state := CircuitState.halfOpen, halfOpenInFlight := true }) rfl rfl
        refine ⟨hFormed', hIff.trans ⟨fun hCategory result hMem => ?_, fun hNone hCategory => ?_⟩⟩
        · by_contra hResult
          rw [Bool.not_eq_false] at hResult
          obtain ⟨_, ⟨⟩, hClient⟩ := hRejected.mpr ⟨result, hMem, hResult⟩
          exact hCategory hClient
        · obtain ⟨result, hMem, hResult⟩ := hRejected.mp ⟨outcome, rfl, hCategory⟩
          rw [hNone result hMem] at hResult
          cases hResult
      next hLoop =>
        cases h
        have hRejected := attemptLoop_recorded_iff hLoop
        obtain ⟨hFormed', hFree⟩ := release_probe (c := { c with
          state := CircuitState.halfOpen, halfOpenInFlight := true }) rfl
        refine ⟨hFormed', ⟨fun _ result hMem => ?_, fun _ => hFree⟩⟩
        by_contra hResult
        rw [Bool.not_eq_false] at hResult
        obtain ⟨_, hExit, _⟩ := hRejected.mpr ⟨result, hMem, hResult⟩
        cases hExit
      next => cases h

def guardedStep (policy : RestPolicy) (c : RestCircuit) (call : GuardedCall) : RestCircuit :=
  (executeGuarded policy c call).getD c

/-- The call ends with the results its attempts get. -/
def Completes (policy : RestPolicy) (c : RestCircuit) (call : GuardedCall) : Prop :=
  (executeGuarded policy c call).isSome = true

instance : Decidable (Completes policy c call) := inferInstanceAs (Decidable (_ = _))

def ProbeNotRejected (policy : RestPolicy) (c : RestCircuit) (call : GuardedCall) : Prop :=
  call.IsProbe policy c → ∀ result ∈ call.results, result.rejected = false

instance : Decidable (ProbeNotRejected policy c call) := inferInstanceAs (Decidable (_ → _))

theorem guardedStep_unwedged_iff (hFormed : c.WellFormed) (hUnwedged : c.Unwedged)
    (hCompletes : Completes policy c call) :
    (guardedStep policy c call).WellFormed ∧
      ((guardedStep policy c call).Unwedged ↔ ProbeNotRejected policy c call) := by
  obtain ⟨c', hCall⟩ := Option.isSome_iff_exists.mp hCompletes
  rw [guardedStep, hCall, Option.getD_some]
  exact executeGuarded_unwedged_iff hFormed hUnwedged hCall

/-- A stuck breaker admits nothing and stays as it is. -/
theorem guardedStep_of_wedged (hWedged : ¬c.Unwedged) : guardedStep policy c call = c := by
  obtain ⟨hState, hFlight⟩ := not_not.mp hWedged
  have hCheck : c.check policy call.checkTime = none := by
    simp [RestCircuit.check, hState, hFlight]
  simp only [guardedStep, executeGuarded, hCheck]
  split <;> rfl

theorem wellFormed_guardedStep (hCompletes : Completes policy c call) (hFormed : c.WellFormed) :
    (guardedStep policy c call).WellFormed := by
  by_cases hUnwedged : c.Unwedged
  · exact (guardedStep_unwedged_iff hFormed hUnwedged hCompletes).1
  · rw [guardedStep_of_wedged hUnwedged]
    exact hFormed

theorem along_unwedged_iff {calls : List GuardedCall} (hFormed : c.WellFormed)
    (hUnwedged : c.Unwedged) (hCompletes : Along (guardedStep policy) (Completes policy) c calls) :
    (∀ done, done <+: calls → (exec (guardedStep policy) c done).Unwedged) ↔
      Along (guardedStep policy) (ProbeNotRejected policy) c calls := by
  induction calls generalizing c with
  | nil =>
    refine ⟨fun _ => trivial, fun _ done hDone => ?_⟩
    rw [prefix_nil.mp hDone]
    exact hUnwedged
  | cons call rest ih =>
    obtain ⟨hFormed', hIff⟩ := guardedStep_unwedged_iff hFormed hUnwedged hCompletes.1
    constructor
    · intro hAll
      have hNext : (guardedStep policy c call).Unwedged :=
        hAll [call] (prefix_append [call] rest)
      refine ⟨hIff.mp hNext, (ih hFormed' hNext hCompletes.2).mp fun done hDone => ?_⟩
      exact hAll (call :: done) (cons_prefix_cons.mpr ⟨rfl, hDone⟩)
    · rintro ⟨hProbe, hRest⟩ done hDone
      have hNext := hIff.mpr hProbe
      cases done with
      | nil => exact hUnwedged
      | cons first done =>
        obtain ⟨rfl, hTail⟩ := cons_prefix_cons.mp hDone
        exact (ih hFormed' hNext hCompletes.2).mpr hRest done hTail

theorem wellFormed_fresh : ({} : RestCircuit).WellFormed := ⟨nofun, nofun⟩

theorem unwedged_fresh : ({} : RestCircuit).Unwedged := by
  rintro ⟨hState, _⟩
  cases hState

/-- Along every history of completed calls from a fresh breaker: it is never left half open with
its slot taken if and only if no request of a probe is rejected. And in every state it reaches, not
being stuck is the same as admitting the next call once the cooldown has elapsed. -/
theorem unwedged_iff (policy : RestPolicy) (calls : List GuardedCall)
    (hCompletes : Along (guardedStep policy) (Completes policy) {} calls) :
    ((∀ done, done <+: calls → (exec (guardedStep policy) {} done).Unwedged) ↔
        Along (guardedStep policy) (ProbeNotRejected policy) {} calls) ∧
      ∀ done, done <+: calls → ((exec (guardedStep policy) {} done).Unwedged ↔
        (exec (guardedStep policy) {} done).Recovers policy) := by
  refine ⟨along_unwedged_iff wellFormed_fresh unwedged_fresh hCompletes, fun done hDone => ?_⟩
  have hFormed : (exec (guardedStep policy) {} done).WellFormed :=
    hCompletes.invariant_prefix (fun _ _ => wellFormed_guardedStep) wellFormed_fresh hDone
  exact unwedged_iff_recovers hFormed

end History

/-- The default policy; `time.sleep` refuses what is not a non-negative number. -/
def defaultPolicy : RestPolicy where
  sleepRaises
    | .finite q => q < 0
    | .infinity | .negativeInfinity | .nan => true
  retryAfterCapSeconds_pos := by decide +kernel
  baseBackoffSeconds_pos := by decide +kernel
  totalSleepBudgetSeconds_pos := by decide +kernel

/-- Three calls that are refused open the breaker; after the cooldown, a probe gets this status. -/
def probeHistory (status : Int) : List GuardedCall :=
  [⟨0, 1, none, [.response { statusCode := 401 }]⟩,
    ⟨2, 3, none, [.response { statusCode := 503 }, .exception, .response { statusCode := 401 }]⟩,
    ⟨4, 5, none, [.response { statusCode := 403 }]⟩,
    ⟨100, 101, none, [.response { statusCode := status }]⟩]

theorem unwedged_iff_probeHistory :
    (exec (guardedStep defaultPolicy) {} (probeHistory 204)).state = .closed ∧
      (exec (guardedStep defaultPolicy) {} (probeHistory 204)).totalFailures = 3 ∧
      ∀ done, done <+: probeHistory 204 → (exec (guardedStep defaultPolicy) {} done).Unwedged :=
  ⟨by decide +kernel, by decide +kernel,
    (unwedged_iff defaultPolicy (probeHistory 204) (by decide +kernel)).1.mpr (by decide +kernel)⟩

/-- A probe that is answered with 404 keeps the slot: the breaker admits nothing any more. -/
theorem not_unwedged :
    Along (guardedStep defaultPolicy) (Completes defaultPolicy) {} (probeHistory 404) ∧
      (exec (guardedStep defaultPolicy) {} (probeHistory 404)).state = .halfOpen ∧
      (exec (guardedStep defaultPolicy) {} (probeHistory 404)).halfOpenInFlight = true ∧
      ¬(exec (guardedStep defaultPolicy) {} (probeHistory 404)).Unwedged := by
  refine ⟨by decide +kernel, by decide +kernel, by decide +kernel, fun hUnwedged => ?_⟩
  exact hUnwedged ⟨by decide +kernel, by decide +kernel⟩

end Glasslab.Discord
