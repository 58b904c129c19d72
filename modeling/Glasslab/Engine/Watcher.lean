import Glasslab.Foundation.History
import Glasslab.Engine.Pause

/-!
# The job watcher

`JobWatcher.run` of `app/watcher.py` polls the listed runs, round after round: it sweeps cancelled
runs, reconciles those in the job phase, and asks to pause a run whose reconciliation keeps failing.
A failed call is caught, but its handler appends an event and may pause the run, and nothing catches
what these two raise.

The watcher survives, visits every listed run and pauses exactly when it should in the histories in
which neither raises (`watcher_survives_iff`).
-/

namespace Glasslab.Engine

open Foundation Foundation.Tx Storage List

/-! ## The loop -/

/-- A listed run, and what the calls about it come to if they are made. An error is the text of the
exception. -/
structure Poll where
  runId : String
  state : RunState
  sweepCancelledRunJobs : Except String Unit := .ok ()
  reconcileRun : Except String Unit := .ok ()
  event : Except String Unit := .ok ()
  pauseRun : Except String Unit := .ok ()

/-- The runs that are listed in a round, and whether `stop()` was called by its end. -/
structure PollRound where
  listed : List Poll
  stop : Bool

inductive WatcherCall where
  | sweepCancelledRunJobs (runId : String)
  | reconcileRun (runId : String)
  | event (runId eventType error : String)
  | pauseRun (runId requestedBy reason : String)
  deriving DecidableEq

/-- What the watcher did about a listed run. -/
structure Polled where
  poll : Poll
  calls : List WatcherCall
  /-- What left the loop. -/
  raised : Option String

/-- `self._reconciliation_failures`. -/
abbrev Failures := List (String × Nat)

def Failures.get (failures : Failures) (runId : String) : Nat := (failures.lookup runId).getD 0

def Failures.pop (failures : Failures) (runId : String) : Failures :=
  failures.filter fun entry => entry.1 ≠ runId

def escaping : Except String Unit → Option String
  | .ok () => none
  | .error e => some e

/-- The body of the loop over the listed runs. -/
def pollRun (maxConsecutiveReconciliationFailures : Int) (failures : Failures) (run : Poll) :
    Polled × Failures :=
  if run.state = .cancelled then
    match run.sweepCancelledRunJobs with
    | .ok () => (⟨run, [.sweepCancelledRunJobs run.runId], none⟩, failures)
    | .error exc =>
      (⟨run, [.sweepCancelledRunJobs run.runId,
        .event run.runId "job.cancellation_sweep_failed" exc], escaping run.event⟩, failures)
  else if run.state ≠ .jobQueued ∧ run.state ≠ .jobRunning then (⟨run, [], none⟩, failures)
  else
    match run.reconcileRun with
    | .ok () => (⟨run, [.reconcileRun run.runId], none⟩, failures.pop run.runId)
    | .error exc =>
      let calls := [.reconcileRun run.runId, .event run.runId "job.reconciliation_failed" exc]
      match run.event with
      | .error e => (⟨run, calls, some e⟩, failures)
      | .ok () =>
        let count := failures.get run.runId + 1
        let failures : Failures := Dict.set run.runId count failures
        if count ≥ maxConsecutiveReconciliationFailures then
          let reason := s!"job reconciliation failed {count} consecutive times: {exc}"
          (⟨run, calls ++ [.pauseRun run.runId "orchestrator" reason], escaping run.pauseRun⟩,
            failures.pop run.runId)
        else (⟨run, calls, none⟩, failures)

/-- One round: the runs it got to, and what is remembered after it. -/
def pollRuns (limit : Int) : Failures → List Poll → List Polled × Failures
  | failures, [] => ([], failures)
  | failures, run :: runs =>
    let (polled, failures) := pollRun limit failures run
    if polled.raised.isSome then ([polled], failures)
    else
      let (rest, failures) := pollRuns limit failures runs
      (polled :: rest, failures)

inductive WatcherStatus where
  | polling
  | stopped
  | raised (e : String)
  deriving DecidableEq

/-- `JobWatcher.run` over some rounds. -/
def runWatcher (limit : Int) : Failures → List PollRound → List (List Polled) × WatcherStatus
  | _, [] => ([], .polling)
  | failures, round :: rounds =>
    let (polled, failures) := pollRuns limit failures round.listed
    match (polled.filterMap Polled.raised).head? with
    | some e => ([polled], .raised e)
    | none =>
      if round.stop then ([polled], .stopped)
      else
        let (rest, status) := runWatcher limit failures rounds
        (polled :: rest, status)

def inJobPhase (run : Poll) : Bool := run.state = .jobQueued ∨ run.state = .jobRunning

/-- The rounds up to the one in which `stop()` is called. -/
def roundsUntilStop : List PollRound → List PollRound
  | [] => []
  | round :: rounds => if round.stop then [round] else round :: roundsUntilStop rounds

def WatcherCall.isPoll : WatcherCall → Bool
  | .sweepCancelledRunJobs _ | .reconcileRun _ => true
  | _ => false

def WatcherCall.isPause : WatcherCall → Bool
  | .pauseRun _ _ _ => true
  | _ => false

def dueCalls (run : Poll) : List WatcherCall :=
  if run.state = .cancelled then [.sweepCancelledRunJobs run.runId]
  else if inJobPhase run then [.reconcileRun run.runId]
  else []

/-- An attempt to reconcile a run: whether it failed, and whether the watcher asked to pause the run
then. -/
abbrev Attempt := Bool × Bool

def failed (run : Poll) : Bool := !run.reconcileRun.isOk

def attempts (runId : String) (polled : List Polled) : List Attempt :=
  polled.filterMap fun p =>
    if p.poll.runId = runId ∧ inJobPhase p.poll then
      some (failed p.poll, p.calls.any WatcherCall.isPause)
    else none

/-- The watcher asked for a pause exactly at each failed attempt before which one less than so many
failed attempts in a row, with none that asked for a pause among them, stand. -/
def PausesExactly (limit : Int) (attempts : List Attempt) : Prop :=
  ∀ before attempt after, attempts = before ++ attempt :: after →
    (attempt.2 = true ↔
      attempt.1 = true ∧ List.replicate (limit - 1).toNat (true, false) <:+ before)

/-- What is expected of the watcher over some rounds. -/
structure Survives (limit : Int) (rounds : List PollRound) : Prop where
  not_raised : ∀ e, (runWatcher limit [] rounds).2 ≠ .raised e
  visited : (runWatcher limit [] rounds).1.map (·.map Polled.poll) =
    (roundsUntilStop rounds).map PollRound.listed
  polled : ∀ round ∈ (runWatcher limit [] rounds).1, ∀ p ∈ round,
    p.calls.filter WatcherCall.isPoll = dueCalls p.poll
  paused : ∀ runId, PausesExactly limit (attempts runId (runWatcher limit [] rounds).1.flatten)

def outcomes (runId : String) (runs : List Poll) : List Bool :=
  runs.filterMap fun run => if run.runId = runId ∧ inJobPhase run then some (failed run) else none

/-- A failed call is recorded, and the pause after so many failures in a row, or a multiple of it,
goes through. -/
def Calm (limit : Int) (before : List Poll) (run : Poll) : Prop :=
  (run.state = .cancelled → run.sweepCancelledRunJobs.isOk = false → run.event.isOk = true) ∧
  (inJobPhase run = true → failed run = true → run.event.isOk = true ∧
    ((trailing id (outcomes run.runId before) + 1) % max 1 limit.toNat = 0 →
      run.pauseRun.isOk = true))

def CalmThroughout (limit : Int) (rounds : List PollRound) : Prop :=
  ∀ before run after, (roundsUntilStop rounds).flatMap PollRound.listed = before ++ run :: after →
    Calm limit before run

/-! ## What is remembered -/

variable {failures : Failures} {runId : String}

section Failures

variable {other : String} {count : Nat}

theorem get_set : Failures.get (Dict.set runId count failures) other =
    if other = runId then count else failures.get other := by
  rw [Failures.get, Dict.lookup_set]
  split <;> rfl

theorem get_pop :
    (failures.pop runId).get other = if other = runId then 0 else failures.get other := by
  have hLookup : (failures.pop runId).lookup other =
      if other = runId then none else failures.lookup other := by
    induction failures with
    | nil => simp [Failures.pop]
    | cons entry failures ih =>
      obtain ⟨key, n⟩ := entry
      simp only [Failures.pop] at ih ⊢
      by_cases hKey : key = runId
      · subst hKey
        rw [filter_cons_of_neg (by simp), ih, lookup_cons_if]
        by_cases hOther : other = key <;> simp [hOther]
      · rw [filter_cons_of_pos (by simpa using hKey), lookup_cons_if, lookup_cons_if, ih]
        by_cases hOther : other = key
        · subst hOther
          simp [hKey]
        · simp [hOther]
  rw [Failures.get, hLookup]
  split <;> rfl

end Failures

variable {done : List Polled} {limit : Int} {p : Polled} {run : Poll}

section Attempts

variable {xs : List Attempt} {x : Attempt} {before runs runs' : List Poll}

theorem pausesExactly_nil : PausesExactly limit [] := by
  intro before attempt after h
  simp at h

theorem pausesExactly_concat : PausesExactly limit (xs ++ [x]) ↔ PausesExactly limit xs ∧
    (x.2 = true ↔ x.1 = true ∧ (limit - 1).toNat ≤ trailing (· = (true, false)) xs) := by
  rw [← replicate_suffix_iff]
  constructor
  · intro h
    refine ⟨fun before attempt after hSplit => ?_, h xs x [] rfl⟩
    exact h before attempt (after ++ [x]) (by rw [hSplit, append_assoc, cons_append])
  · rintro ⟨h, hLast⟩ before attempt after hSplit
    rcases eq_nil_or_concat' after with rfl | ⟨after, last, rfl⟩
    · obtain ⟨rfl, hSame⟩ := append_inj' hSplit rfl
      cases hSame
      exact hLast
    · rw [← cons_append, ← append_assoc] at hSplit
      exact h before attempt after (append_inj' hSplit rfl).1

theorem attempts_concat : attempts runId (done ++ [p]) = attempts runId done ++
    if p.poll.runId = runId ∧ inJobPhase p.poll then
      [(failed p.poll, p.calls.any WatcherCall.isPause)] else [] := by
  rw [attempts, filterMap_append]
  congr 1
  by_cases h : p.poll.runId = runId ∧ inJobPhase p.poll <;> simp [h]

theorem outcomes_concat : outcomes runId (before ++ [run]) = outcomes runId before ++
    if run.runId = runId ∧ inJobPhase run then [failed run] else [] := by
  rw [outcomes, filterMap_append]
  congr 1
  by_cases h : run.runId = runId ∧ inJobPhase run <;> simp [h]

def CalmFrom (limit : Int) (before runs : List Poll) : Prop :=
  ∀ front run back, runs = front ++ run :: back → Calm limit (before ++ front) run

theorem calmFrom_nil : CalmFrom limit before [] := by
  intro front run back h
  simp at h

theorem calmFrom_cons : CalmFrom limit before (run :: runs) ↔
    Calm limit before run ∧ CalmFrom limit (before ++ [run]) runs := by
  constructor
  · intro h
    refine ⟨by simpa using h [] run runs rfl, fun front run' back hSplit => ?_⟩
    have hCalm := h (run :: front) run' back (by rw [hSplit, cons_append])
    rwa [append_cons] at hCalm
  · rintro ⟨hFirst, hRest⟩ front run' back hSplit
    cases front with
    | nil =>
      cases hSplit
      rwa [append_nil]
    | cons first front =>
      obtain ⟨rfl, hRuns⟩ := List.cons.inj hSplit
      rw [append_cons]
      exact hRest front run' back hRuns

theorem calmFrom_append : CalmFrom limit before (runs ++ runs') ↔
    CalmFrom limit before runs ∧ CalmFrom limit (before ++ runs) runs' := by
  induction runs generalizing before with
  | nil => simp [calmFrom_nil]
  | cons run runs ih =>
    rw [cons_append, calmFrom_cons, calmFrom_cons, ih, and_assoc, append_assoc,
      singleton_append]

end Attempts

/-- The counters count what they should, and so far everything is as expected. -/
structure Remembers (limit : Int) (failures : Failures) (done : List Polled) : Prop where
  waiting : ∀ runId, failures.get runId = trailing (· = (true, false)) (attempts runId done)
  inARow : ∀ runId, failures.get runId =
    trailing id (outcomes runId (done.map Polled.poll)) % max 1 limit.toNat
  exact : ∀ runId, PausesExactly limit (attempts runId done)
  polled : ∀ p ∈ done, p.calls.filter WatcherCall.isPoll = dueCalls p.poll

section Polls

variable {failures' : Failures}

theorem remembers_nil : Remembers limit [] [] where
  waiting _ := rfl
  inARow runId := (Nat.zero_mod _).symm
  exact runId := pausesExactly_nil
  polled := by simp

theorem threshold_iff {k : Nat} : ((k % max 1 limit.toNat + 1 : Nat) : Int) ≥ limit ↔
    (k + 1) % max 1 limit.toNat = 0 := by
  have hPos : 0 < max 1 limit.toNat := by omega
  have hLt := Nat.mod_lt k hPos
  rw [← Nat.mod_add_mod]
  generalize k % max 1 limit.toNat = c at hLt ⊢
  by_cases hFull : c + 1 = max 1 limit.toNat
  · have hReached : ((c + 1 : Nat) : Int) ≥ limit := by omega
    rw [hFull, Nat.mod_self, ← hFull]
    exact iff_of_true hReached rfl
  · have hBelow : ¬ ((c + 1 : Nat) : Int) ≥ limit := by omega
    rw [Nat.mod_eq_of_lt (by omega)]
    exact iff_of_false hBelow (Nat.succ_ne_zero c)

/-- A listed run that is not in the job phase leaves the counters alone. -/
theorem Remembers.skip (h : Remembers limit failures done) (hJob : inJobPhase p.poll = false)
    (hPolled : p.calls.filter WatcherCall.isPoll = dueCalls p.poll) :
    Remembers limit failures (done ++ [p]) := by
  have hAttempts (runId) : attempts runId (done ++ [p]) = attempts runId done := by
    rw [attempts_concat, if_neg (by simp [hJob]), append_nil]
  have hOutcomes (runId) : outcomes runId ((done ++ [p]).map Polled.poll) =
      outcomes runId (done.map Polled.poll) := by
    rw [map_append, map_singleton, outcomes_concat, if_neg (by simp [hJob]), append_nil]
  refine ⟨fun runId => ?_, fun runId => ?_, fun runId => ?_, ?_⟩
  · rw [hAttempts, h.waiting]
  · rw [hOutcomes, h.inARow]
  · rw [hAttempts]
    exact h.exact runId
  · intro q hq
    rcases mem_append.mp hq with hOld | hNew
    · exact h.polled q hOld
    · rw [mem_singleton.mp hNew]
      exact hPolled

theorem Remembers.attempt (h : Remembers limit failures done) (hJob : inJobPhase p.poll = true)
    (hPolled : p.calls.filter WatcherCall.isPoll = dueCalls p.poll)
    (hPause : p.calls.any WatcherCall.isPause = true ↔ failed p.poll = true ∧
      (trailing id (outcomes p.poll.runId (done.map Polled.poll)) + 1) % max 1 limit.toNat = 0)
    (hCount : failures'.get p.poll.runId = if failed p.poll = true ∧
        ¬ p.calls.any WatcherCall.isPause = true then failures.get p.poll.runId + 1 else 0)
    (hOther : ∀ other, other ≠ p.poll.runId → failures'.get other = failures.get other) :
    Remembers limit failures' (done ++ [p]) := by
  have hAttempts (runId) (hNe : runId ≠ p.poll.runId) :
      attempts runId (done ++ [p]) = attempts runId done := by
    rw [attempts_concat, if_neg (fun hSame => hNe hSame.1.symm), append_nil]
  have hOutcomes (runId) (hNe : runId ≠ p.poll.runId) :
    outcomes runId ((done ++ [p]).map Polled.poll) =
      outcomes runId (done.map Polled.poll) := by
    rw [map_append, map_singleton, outcomes_concat, if_neg (fun hSame => hNe hSame.1.symm),
      append_nil]
  have hOwn : attempts p.poll.runId (done ++ [p]) = attempts p.poll.runId done ++
      [(failed p.poll, p.calls.any WatcherCall.isPause)] := by
    rw [attempts_concat, if_pos ⟨rfl, hJob⟩]
  have hOwnOutcomes : outcomes p.poll.runId ((done ++ [p]).map Polled.poll) =
      outcomes p.poll.runId (done.map Polled.poll) ++ [failed p.poll] := by
    rw [map_append, map_singleton, outcomes_concat, if_pos ⟨rfl, hJob⟩]
  have hWaiting := h.waiting p.poll.runId
  have hRow := h.inARow p.poll.runId
  rw [← threshold_iff, ← hRow] at hPause
  refine ⟨fun runId => ?_, fun runId => ?_, fun runId => ?_, ?_⟩
  · by_cases hSame : runId = p.poll.runId
    · rw [hSame, hOwn, trailing_concat, hCount, ← hWaiting]
      cases failed p.poll <;> cases p.calls.any WatcherCall.isPause <;> simp
    · rw [hAttempts runId hSame, hOther runId hSame, h.waiting]
  · by_cases hSame : runId = p.poll.runId
    · rw [hSame, hOwnOutcomes, trailing_concat, hCount]
      cases hFailed : failed p.poll with
      | false => simp
      | true =>
        simp only [hFailed, true_and, id, if_true] at hPause ⊢
        by_cases hAsked : p.calls.any WatcherCall.isPause = true
        · rw [if_neg (not_not.mpr hAsked)]
          have hThreshold := hPause.mp hAsked
          rw [hRow, threshold_iff] at hThreshold
          exact hThreshold.symm
        · rw [if_pos hAsked]
          have hThreshold := mt hPause.mpr hAsked
          have hLt := Nat.mod_lt (trailing id (outcomes p.poll.runId (done.map Polled.poll)))
            (show 0 < max 1 limit.toNat by omega)
          rw [← Nat.mod_add_mod, ← hRow]
          refine (Nat.mod_eq_of_lt ?_).symm
          omega
    · rw [hOutcomes runId hSame, hOther runId hSame, h.inARow]
  · by_cases hSame : runId = p.poll.runId
    · rw [hSame, hOwn, pausesExactly_concat, ← hWaiting]
      refine ⟨h.exact p.poll.runId, hPause.trans (and_congr_right fun _ => ?_)⟩
      omega
    · rw [hAttempts runId hSame]
      exact h.exact runId
  · intro q hq
    rcases mem_append.mp hq with hOld | hNew
    · exact h.polled q hOld
    · rw [mem_singleton.mp hNew]
      exact hPolled

theorem escaping_eq_none_iff {result : Except String Unit} :
    escaping result = none ↔ result.isOk = true := by
  cases result with
  | error e => simp [escaping, Except.isOk, Except.toBool]
  | ok u => simp [escaping, Except.isOk, Except.toBool]

theorem pollRun_spec (run : Poll) (h : Remembers limit failures done) :
    (pollRun limit failures run).1.poll = run ∧
      ((pollRun limit failures run).1.raised = none ↔ Calm limit (done.map Polled.poll) run) ∧
      ((pollRun limit failures run).1.raised = none →
        Remembers limit (pollRun limit failures run).2
    (done ++ [(pollRun limit failures run).1])) := by
  rw [pollRun]
  by_cases hCancelled : run.state = .cancelled
  · have hJob : inJobPhase run = false := by simp [inJobPhase, hCancelled]
    have hDue : dueCalls run = [.sweepCancelledRunJobs run.runId] := if_pos hCancelled
    rw [if_pos hCancelled]
    cases hSweep : run.sweepCancelledRunJobs with
    | ok u =>
      refine ⟨rfl, ?_, fun _ => h.skip hJob hDue.symm⟩
      simp [Calm, hSweep, hJob, Except.isOk, Except.toBool]
    | error exc =>
      refine ⟨rfl, ?_, fun _ => h.skip hJob hDue.symm⟩
      rw [escaping_eq_none_iff]
      simp [Calm, hSweep, hJob, hCancelled, Except.isOk, Except.toBool]
  · rw [if_neg hCancelled]
    by_cases hJob : inJobPhase run = true
    · have hPhase : ¬ (run.state ≠ .jobQueued ∧ run.state ≠ .jobRunning) := by
        simp only [inJobPhase, decide_eq_true_eq] at hJob
        tauto
      have hDue : dueCalls run = [.reconcileRun run.runId] := by
        rw [dueCalls, if_neg hCancelled, if_pos hJob]
      rw [if_neg hPhase]
      cases hReconcile : run.reconcileRun with
      | ok u =>
        have hFailed : failed run = false := by
          simp [failed, hReconcile, Except.isOk, Except.toBool]
        refine ⟨rfl, ?_, fun _ => h.attempt hJob hDue.symm ?_ ?_ ?_⟩
        · simp [Calm, hCancelled, hFailed]
        · simp [hFailed, WatcherCall.isPause]
        · simp [get_pop, hFailed]
        · intro other hOther
          rw [get_pop, if_neg hOther]
      | error exc =>
        have hFailed : failed run = true := by simp [failed, hReconcile, Except.isOk, Except.toBool]
        cases hEvent : run.event with
        | error e =>
          simp [Calm, hJob, hFailed, hEvent, Except.isOk, Except.toBool]
        | ok u =>
          have hThreshold : ((failures.get run.runId + 1 : Nat) : Int) ≥ limit ↔
              (trailing id (outcomes run.runId (done.map Polled.poll)) + 1) % max 1 limit.toNat =
                0 := by
            rw [h.inARow]
            exact threshold_iff
          dsimp only
          by_cases hReached : ((failures.get run.runId + 1 : Nat) : Int) ≥ limit
          · rw [if_pos hReached]
            refine ⟨rfl, ?_, fun _ => h.attempt hJob ?_ ?_ ?_ ?_⟩
            · rw [escaping_eq_none_iff]
              simp [Calm, hCancelled, hJob, hFailed, hEvent, hThreshold.mp hReached, Except.isOk,
                Except.toBool]
            · exact hDue.symm
            · simp [hFailed, hThreshold.mp hReached, WatcherCall.isPause]
            · simp [get_pop, WatcherCall.isPause]
            · intro other hOther
              rw [get_pop, if_neg hOther, get_set, if_neg hOther]
          · rw [if_neg hReached]
            have hBelow := mt hThreshold.mpr hReached
            refine ⟨rfl, ?_, fun _ => h.attempt hJob ?_ ?_ ?_ ?_⟩
            · simp [Calm, hCancelled, hFailed, hEvent, hBelow, Except.isOk, Except.toBool]
            · exact hDue.symm
            · simp [hBelow, WatcherCall.isPause]
            · simp [get_set, hFailed, WatcherCall.isPause]
            · intro other hOther
              rw [get_set, if_neg hOther]
    · have hPhase : run.state ≠ .jobQueued ∧ run.state ≠ .jobRunning := by
        simp only [inJobPhase, decide_eq_true_eq] at hJob
        tauto
      have hDue : dueCalls run = [] := by rw [dueCalls, if_neg hCancelled, if_neg hJob]
      rw [Bool.not_eq_true] at hJob
      rw [if_pos hPhase]
      refine ⟨rfl, ?_, fun _ => h.skip hJob hDue.symm⟩
      simp [Calm, hCancelled, hJob]

end Polls

section Rounds

/-- A round without an escape gets to every listed run. -/
theorem pollRuns_spec (runs : List Poll) (h : Remembers limit failures done) :
    ((pollRuns limit failures runs).1.filterMap Polled.raised = [] ↔
        CalmFrom limit (done.map Polled.poll) runs) ∧
      ((pollRuns limit failures runs).1.filterMap Polled.raised = [] →
        (pollRuns limit failures runs).1.map Polled.poll = runs ∧
        Remembers limit (pollRuns limit failures runs).2
          (done ++ (pollRuns limit failures runs).1)) := by
  induction runs generalizing failures done with
  | nil =>
    refine ⟨iff_of_true rfl calmFrom_nil, fun _ => ⟨rfl, ?_⟩⟩
    simpa [pollRuns] using h
  | cons run runs ih =>
    obtain ⟨hPoll, hRaised, hKeeps⟩ := pollRun_spec run h
    rw [pollRuns, calmFrom_cons, ← hRaised]
    cases hEscape : (pollRun limit failures run).1.raised with
    | some e =>
      simp [hEscape]
    | none =>
      obtain ⟨hCalm, hRest⟩ := ih (hKeeps hEscape)
      rw [map_append, map_singleton, hPoll] at hCalm
      simp only [Option.isSome_none, Bool.false_eq_true, if_false, filterMap_cons, hEscape,
        true_and, map_cons, hPoll]
      refine ⟨hCalm, fun hNone => ?_⟩
      obtain ⟨hPolls, hRemembers⟩ := hRest hNone
      rw [hPolls]
      rw [append_assoc, singleton_append] at hRemembers
      exact ⟨rfl, hRemembers⟩

/-- Rounds without an escape go on to the one in which `stop()` is called. -/
theorem runWatcher_spec (rounds : List PollRound) (h : Remembers limit failures done) :
    ((∀ e, (runWatcher limit failures rounds).2 ≠ .raised e) ↔
        CalmFrom limit (done.map Polled.poll)
          ((roundsUntilStop rounds).flatMap PollRound.listed)) ∧
      ((∀ e, (runWatcher limit failures rounds).2 ≠ .raised e) →
        (runWatcher limit failures rounds).1.map (·.map Polled.poll) =
            (roundsUntilStop rounds).map PollRound.listed ∧
        ∃ failures', Remembers limit failures'
          (done ++ (runWatcher limit failures rounds).1.flatten)) := by
  induction rounds generalizing failures done with
  | nil =>
    refine ⟨iff_of_true (by simp [runWatcher]) calmFrom_nil, fun _ => ⟨rfl, failures, ?_⟩⟩
    simpa [runWatcher] using h
  | cons round rounds ih =>
    obtain ⟨hCalm, hKeeps⟩ := pollRuns_spec round.listed h
    rw [runWatcher]
    dsimp only
    cases hEscape : (pollRuns limit failures round.listed).1.filterMap Polled.raised with
    | cons e escaped =>
      rw [hEscape] at hCalm
      have hNot := mt hCalm.mpr (cons_ne_nil e escaped)
      rw [List.head?_cons]
      refine ⟨iff_of_false (fun h => h e rfl) ?_, fun h => absurd rfl (h e)⟩
      rw [roundsUntilStop]
      split
      · rwa [flatMap_singleton]
      · rw [flatMap_cons, calmFrom_append]
        exact fun hBoth => hNot hBoth.1
    | nil =>
      obtain ⟨hPolls, hRemembers⟩ := hKeeps hEscape
      have hHere := hCalm.mp hEscape
      rw [List.head?_nil]
      by_cases hStop : round.stop = true
      · rw [if_pos hStop, roundsUntilStop, if_pos hStop, flatMap_singleton]
        refine ⟨iff_of_true nofun hHere,
          fun _ => ⟨?_, (pollRuns limit failures round.listed).2, ?_⟩⟩
        · rw [map_singleton, map_singleton, hPolls]
        · rw [flatten_singleton]
          exact hRemembers
      · obtain ⟨hLater, hRest⟩ := ih hRemembers
        rw [map_append, hPolls] at hLater
        rw [if_neg hStop, roundsUntilStop, if_neg hStop, flatMap_cons, calmFrom_append]
        refine ⟨hLater.trans (and_iff_right hHere).symm, fun hNone => ?_⟩
        obtain ⟨hVisited, failures', hLast⟩ := hRest hNone
        rw [append_assoc] at hLast
        refine ⟨?_, failures', ?_⟩
        · rw [map_cons, map_cons, hPolls, hVisited]
        · exact hLast

/-- The watcher meets all expectations in exactly the calm histories. -/
theorem watcher_survives_iff (limit : Int) (rounds : List PollRound) :
    Survives limit rounds ↔ CalmThroughout limit rounds := by
  obtain ⟨hCalm, hKeeps⟩ := runWatcher_spec rounds (remembers_nil : Remembers limit [] [])
  have hSame : CalmFrom limit [] ((roundsUntilStop rounds).flatMap PollRound.listed) ↔
      CalmThroughout limit rounds := Iff.rfl
  constructor
  · intro h
    exact hCalm.mp h.not_raised
  · intro h
    have hNone := hCalm.mpr h
    obtain ⟨hVisited, failures, hRemembers⟩ := hKeeps hNone
    refine ⟨hNone, hVisited, ?_, hRemembers.exact⟩
    intro round hRound p hp
    exact hRemembers.polled p (mem_flatten.mpr ⟨round, hRound, hp⟩)

end Rounds

section PauseRaises

variable {s : Store} {run : RunRecord} {abort : Abort} {between : List TransitionCall}
  {requestedBy reason : Option String} {now commitTime : Instant}

/-- The transition to `PAUSED` and its event are committed if the state goes over to it. -/
theorem exists_pauseCommit_iff : (∃ paused s',
      Returns (pauseCommit runId run requestedBy reason now commitTime) s paused s') ↔
    ∃ row, s.runs.find runId = some row ∧ validTransition row.payload.state .paused = true := by
  constructor
  · rintro ⟨paused, s', hCommit⟩
    simp only [pauseCommit, returns_bind, transitionRun_returns] at hCommit
    obtain ⟨_, _, ⟨row, hRow, hValid, -, -⟩, -⟩ := hCommit
    exact ⟨row, hRow, hValid⟩
  · rintro ⟨row, hRow, hValid⟩
    refine ⟨_, _, returns_bind.mpr ⟨_, _, transitionRun_returns.mpr ⟨row, hRow, hValid, rfl, rfl⟩,
      returns_bind.mpr ⟨(), _, appendEvent_returns.mpr ⟨?_, rfl⟩, returns_pure.mpr ⟨rfl, rfl⟩⟩⟩⟩
    rw [Store.log_runs, Store.find_setRun_self, hRow]
    exact Option.some_ne_none _

/-- `pause_run` returns for a run that it reads as terminal or paused, and otherwise if no abort
raises and the run may still be paused when the transition is committed. -/
theorem pauseRun_isOk_iff (hRead : getRun s runId = .ok run) :
    (pauseRun s runId abort between requestedBy reason now commitTime).1.isOk = true ↔
      run.state ∈ terminalStates ∨ run.state = .paused ∨
      abortAgentTurns abort run = none ∧
        ∃ row, (advance runId s between).runs.find runId = some row ∧
          validTransition row.payload.state .paused = true := by
  have hReturns : ∀ (result : Except PauseError RunRecord × Store),
      result.1.isOk = true ↔ ∃ r s', result = (.ok r, s') := by
    rintro ⟨_ | r, s'⟩ <;> simp [Except.isOk, Except.toBool]
  by_cases hOver : run.state ∈ terminalStates ∨ run.state = .paused
  · rw [pauseRun, hRead, ← or_assoc]
    dsimp only
    rw [if_pos hOver]
    exact iff_of_true rfl (.inl hOver)
  · rw [hReturns, ← or_assoc, or_iff_right hOver]
    simp only [pauseRun_eq_ok_iff hRead (not_or.mp hOver), exists_and_left, exists_pauseCommit_iff]

theorem pauseRun_isOk_running :
    (pauseRun (Store.empty.addRun
        { freshRun "r" "objective" 0 with state := .jobRunning, beakerSessionId := some "ses" }) "r"
      (fun agent _ => if agent = .honeydew then some "Connection refused" else none) []
      none none 1 1).1.isOk = true :=
  (pauseRun_isOk_iff rfl).mpr (.inr (.inr ⟨rfl, _, rfl, by decide⟩))

end PauseRaises

/-- The append of the failure event fails as well, and the second run is not polled any more. -/
def lockedDatabase : List PollRound :=
  [{ listed :=
      [{ runId := "r1", state := .jobRunning, reconcileRun := .error "connection refused",
         event := .error "database is locked" },
       { runId := "r2", state := .jobRunning }]
     stop := false }]

theorem locked_database_ends_watcher :
    ¬ ∀ (limit : Int) (rounds : List PollRound), Survives limit rounds := by
  intro h
  exact (h 3 lockedDatabase).not_raised "database is locked" (by decide)

end Glasslab.Engine
