import Glasslab.Engine.Pause
import Glasslab.Foundation.Timeline

/-!
# The run clock

The active run time of a run is a stopwatch in its record: `active_runtime_seconds` is the base,
`active_since` the start of the open interval. `transition_run` stops it on entering a state that
waits for a human and starts it on leaving one for work; `pause_run` and `resume_run` do the same
through the updates they pass.

`transition_run` stays out of the paths into and out of `PAUSED`: called on its own it takes a run
from work to `PAUSED` with the clock running, or from `PAUSED` to work with the clock stopped. With
these two kinds of calls left to `pause_run` and `resume_run`, the clock measures the time spent in
working states along every history.
-/

namespace Glasslab.Engine

open Foundation Foundation.Tx Foundation.Machine Storage List Option

inductive EngineError where
  | workflow (message : String)
  | store (e : StoreError)

/-- The updates `resume_run` passes. -/
def resumeUpdates (now : Instant) : RunUpdates where
  apply r := { r with resumeState := none, activeSince := some now, sessionRotationCount := 0 }
  runId_apply _ := rfl

/-- The part of `_rotate_failed_session_before_resume` that writes the run: the sessions of the
agent whose failed turn is still attached, if there is one. -/
def rotateFailedSession (run : RunRecord) (rotated : Option AgentName) (now : Instant) :
    StoreM Unit :=
  match rotated with
  | none => pure ()
  | some agent => do
    let cleared :=
      if agent = .honeydew then { run with currentAgent := none, honeydewSessionId := none }
      else { run with currentAgent := none, beakerSessionId := none }
    let _ ← replaceRun cleared run.version now

/-- The transition of `resume_run`, then its event. -/
def resumeCommit (runId : String) (target : RunState) (requestedBy reason : Option String)
    (now commitTime : Instant) : StoreM RunRecord := do
  let resumed ← transitionRun runId target "orchestrator" [] (resumeUpdates now) commitTime
  appendEvent runId "orchestrator" "run.resumed"
    [("state", .str target.value), ("requested_by", optStr requestedBy),
      ("reason", optStr reason)]
  pure resumed

/-- `resume_run`, up to the recovery it then runs. -/
def resumeRun (s : Store) (runId : String) (rotated : Option AgentName)
    (requestedBy reason : Option String) (rotationTime now commitTime : Instant) :
    Except EngineError RunRecord × Store :=
  match getRun s runId with
  | .error e => (.error (.store e), s)
  | .ok run =>
    if run.state ≠ .paused ∨ run.resumeState = none then
      (.error (.workflow "run is not resumable"), s)
    else
      match rotateFailedSession run rotated rotationTime s with
      | (.error e, s) => (.error (.store e), s)
      | (.ok _, s) =>
        match (getRun s runId).map RunRecord.resumeState with
        | .error e => (.error (.store e), s)
        | .ok none => (.error (.workflow "run has no state to resume"), s)
        | .ok (some target) =>
          match resumeCommit runId target requestedBy reason now commitTime s with
          | (.error e, s) => (.error (.store e), s)
          | (.ok resumed, s) => (.ok resumed, s)

/-- A call on the run, with its readings of the clock. -/
inductive ClockCall where
  | transition (call : TransitionCall)
  | pause (abort : Abort) (requestedBy reason : Option String) (now commitTime : Instant)
  | resume (rotated : Option AgentName) (requestedBy reason : Option String)
      (rotationTime now commitTime : Instant)

namespace ClockCall

def readings : ClockCall → List Instant
  | transition call => [call.now]
  | pause _ _ _ now commitTime => [now, commitTime]
  | resume _ _ _ rotationTime now commitTime => [rotationTime, now, commitTime]

def instant : ClockCall → Instant
  | transition call => call.now
  | pause _ _ _ now _ => now
  | resume _ _ _ _ now _ => now

def finish : ClockCall → Instant
  | transition call => call.now
  | pause _ _ _ _ commitTime => commitTime
  | resume _ _ _ _ _ commitTime => commitTime

def apply (runId : String) (s : Store) : ClockCall → Store
  | transition call => stepStore s (call.op runId)
  | pause abort requestedBy reason now commitTime =>
    (pauseRun s runId abort [] requestedBy reason now commitTime).2
  | resume rotated requestedBy reason rotationTime now commitTime =>
    (resumeRun s runId rotated requestedBy reason rotationTime now commitTime).2

end ClockCall

/-- The store, the last reading of the clock, and the states the run has been in. -/
structure ClockConfig where
  store : Store
  clock : Instant
  timeline : Timeline RunState

/-- One call after another. A state is entered at the reading with which its call stops or starts
the clock. -/
def clockStep (runId : String) (x : ClockConfig) (call : ClockCall) : ClockConfig where
  store := call.apply runId x.store
  clock := call.finish
  timeline :=
    match (call.apply runId x.store).runs.find runId with
    | none => x.timeline
    | some row => (call.instant, row.payload.state) :: x.timeline

def Working (state : RunState) : Prop := state ∉ humanWaitStates ∧ state ≠ .paused

instance : DecidablePred Working := fun _ => inferInstanceAs (Decidable (_ ∧ _))

def runClock (run : RunRecord) : Stopwatch := ⟨run.activeRuntimeSeconds, run.activeSince⟩

theorem runClock_read (run : RunRecord) (now : Instant) :
    (runClock run).read now = run.activeRuntimeSeconds + run.openInterval now := rfl

/-! ## What a call does to the run -/

variable {runId : String} {row : RunRow}

section Calls

variable {s : Store}

inductive Turn (row row' : RunRow) : ClockCall → Prop where
  | same {call : ClockCall} (hState : row'.payload.state = row.payload.state)
      (hClock : runClock row'.payload = runClock row.payload) : Turn row row' call
  | transition {c : TransitionCall}
      (hValid : validTransition row.payload.state c.target = true)
      (hRow : row'.payload = transitioned row c.target c.updates c.now) :
      Turn row row' (.transition c)
  | pause {abort : Abort} {requestedBy reason : Option String} {now commitTime : Instant}
      (hLive : row.payload.state ∉ terminalStates)
      (hRow : row'.payload = transitioned row .paused (pauseUpdates row.payload now) commitTime) :
      Turn row row' (.pause abort requestedBy reason now commitTime)
  | resume {rotated : Option AgentName} {requestedBy reason : Option String}
      {rotationTime now commitTime : Instant} {row₁ : RunRow} {target : RunState}
      (hPaused : row.payload.state = .paused) (hState : row₁.payload.state = .paused)
      (hClock : runClock row₁.payload = runClock row.payload)
      (hValid : validTransition row₁.payload.state target = true)
      (hRow : row'.payload = transitioned row₁ target (resumeUpdates now) commitTime) :
      Turn row row' (.resume rotated requestedBy reason rotationTime now commitTime)

/-- A transition raises and changes nothing, or leaves the record it computed. -/
theorem transitionRun_row (target : RunState) (source : String) (payload : Payload)
    (updates : RunUpdates) (now : Instant) (hRow : s.runs.find runId = some row) :
    (transitionRun runId target source payload updates now s).2.runs.find runId = some row ∨
      validTransition row.payload.state target = true ∧
        (transitionRun runId target source payload updates now s).2.runs.find runId =
          some (Store.rewritten (transitioned row target updates now) row) := by
  obtain ⟨e, hRaise⟩ | ⟨a, s', hReturns⟩ :
      (∃ e, transitionRun runId target source payload updates now s = (.error e, s)) ∨
        ∃ a s', Returns (transitionRun runId target source payload updates now) s a s' :=
    atomically_cases _ s
  · left
    rw [hRaise]
    exact hRow
  · right
    rw [hReturns]
    obtain ⟨found, hFound, hValid, _, rfl⟩ := transitionRun_returns.mp hReturns
    obtain rfl : found = row := Option.some.inj (hFound.symm.trans hRow)
    refine ⟨hValid, ?_⟩
    rw [Store.log_runs, Store.find_setRun_self, hRow, map_some]

theorem runs_appendEvent_after (s : Store) (runId : String) (t : StoreM RunRecord)
    (eventType : String) (payload : Payload) :
    ((do
      let r ← t
      appendEvent runId "orchestrator" eventType payload
      pure r : StoreM RunRecord) s).2.runs = (t s).2.runs := by
  show (Tx.bind t _ s).2.runs = _
  unfold Tx.bind
  rcases t s with ⟨e | r, s₁⟩
  · rfl
  · show (Tx.bind (appendEvent runId "orchestrator" eventType payload) _ s₁).2.runs = s₁.runs
    unfold Tx.bind
    obtain ⟨e, hRaise⟩ | ⟨u, s₂, hReturns⟩ :
        (∃ e, appendEvent runId "orchestrator" eventType payload s₁ = (.error e, s₁)) ∨
          ∃ u s₂, Returns (appendEvent runId "orchestrator" eventType payload) s₁ u s₂ :=
      atomically_cases _ s₁
    · rw [hRaise]
    · rw [hReturns, (appendEvent_returns.mp hReturns).2]
      exact Store.log_runs ..

section

variable (hRow : s.runs.find runId = some row)
include hRow

theorem getRun_eq_ok : getRun s runId = .ok row.payload := by
  simp [getRun, hRow]

theorem turn_transition {c : TransitionCall}
    (hId : row.payload.runId = runId) :
    ∃ row', (ClockCall.apply runId s (.transition c)).runs.find runId = some row' ∧
      row'.payload.runId = runId ∧ Turn row row' (.transition c) := by
  cases hValid : validTransition row.payload.state c.target with
  | false =>
    refine ⟨row, ?_, hId, .same rfl rfl⟩
    show (stepStore s (c.op runId)).runs.find runId = _
    rw [stepStore_transition_of_invalid hRow hValid, hRow]
  | true =>
    refine ⟨Store.rewritten (transitioned row c.target c.updates c.now) row, ?_,
      (transitioned_runId ..).trans hId, .transition hValid rfl⟩
    show (stepStore s (c.op runId)).runs.find runId = _
    rw [stepStore_transition_of_valid hRow hValid, Store.log_runs, Store.find_setRun_self, hRow,
      map_some]

theorem turn_pause {abort : Abort} {requestedBy reason : Option String} {now commitTime : Instant}
    (hId : row.payload.runId = runId) :
    ∃ row', (ClockCall.apply runId s
          (.pause abort requestedBy reason now commitTime)).runs.find runId = some row' ∧
      row'.payload.runId = runId ∧
      Turn row row' (.pause abort requestedBy reason now commitTime) := by
  show ∃ row', (pauseRun s runId abort [] requestedBy reason now commitTime).2.runs.find runId =
    some row' ∧ _
  simp only [pauseRun, getRun_eq_ok hRow, advance, map_nil, exec_nil]
  split
  next => exact ⟨row, hRow, hId, .same rfl rfl⟩
  next hLive =>
    rw [not_or] at hLive
    cases abortAgentTurns abort row.payload with
    | some message => exact ⟨row, hRow, hId, .same rfl rfl⟩
    | none =>
      rw [pauseCommit, runs_appendEvent_after]
      rcases transitionRun_row .paused "orchestrator" [] (pauseUpdates row.payload now) commitTime
        hRow with hSame | ⟨_, hMoved⟩
      · exact ⟨row, hSame, hId, .same rfl rfl⟩
      · exact ⟨_, hMoved, (transitioned_runId ..).trans hId, .pause hLive.1 rfl⟩

end

theorem rotateFailedSession_row (rotated : Option AgentName) (now : Instant)
    (hRow : s.runs.find runId = some row) (hId : row.payload.runId = runId) :
    ∃ row₁, (rotateFailedSession row.payload rotated now s).2.runs.find runId = some row₁ ∧
      row₁.payload.runId = runId ∧ row₁.payload.state = row.payload.state ∧
      runClock row₁.payload = runClock row.payload := by
  cases rotated with
  | none => exact ⟨row, hRow, hId, rfl, rfl⟩
  | some agent =>
    have hWrite : ∀ cleared : RunRecord, cleared.runId = runId →
        cleared.state = row.payload.state → runClock cleared = runClock row.payload →
        ∃ row₁, ((do let _ ← replaceRun cleared row.payload.version now :
            StoreM Unit) s).2.runs.find runId = some row₁ ∧
          row₁.payload.runId = runId ∧ row₁.payload.state = row.payload.state ∧
          runClock row₁.payload = runClock row.payload := by
      intro cleared hRunId hState hClock
      obtain ⟨e, hRaise⟩ | ⟨a, s', hReturns, hDone⟩ :=
        atomically_discard_cases (do
          writeRun cleared.runId row.payload.version
            { cleared with version := row.payload.version + 1, updatedAt := now }
          pure { cleared with version := row.payload.version + 1, updatedAt := now }) s
      · refine ⟨row, ?_, hId, rfl, rfl⟩
        rw [show (do let _ ← replaceRun cleared row.payload.version now : StoreM Unit) s =
          (.error e, s) from hRaise]
        exact hRow
      · obtain ⟨found, hFound, _, _, rfl⟩ := replaceRun_returns hReturns
        rw [show (do let _ ← replaceRun cleared row.payload.version now : StoreM Unit) s =
          (.ok (), _) from hDone]
        refine ⟨Store.rewritten { cleared with
          version := row.payload.version + 1, updatedAt := now } row, ?_, hRunId, hState, hClock⟩
        rw [hRunId, Store.find_setRun_self, hRow, map_some]
    unfold rotateFailedSession
    dsimp only
    split
    · exact hWrite _ hId rfl rfl
    · exact hWrite _ hId rfl rfl

theorem turn_resume {rotated : Option AgentName} {requestedBy reason : Option String}
    {rotationTime now commitTime : Instant} (hRow : s.runs.find runId = some row)
    (hId : row.payload.runId = runId) :
    ∃ row', (ClockCall.apply runId s
        (.resume rotated requestedBy reason rotationTime now commitTime)).runs.find runId =
          some row' ∧ row'.payload.runId = runId ∧
      Turn row row' (.resume rotated requestedBy reason rotationTime now commitTime) := by
  show ∃ row', (resumeRun s runId rotated requestedBy reason rotationTime now
    commitTime).2.runs.find runId = some row' ∧ _
  simp only [resumeRun, getRun_eq_ok hRow]
  split
  next => exact ⟨row, hRow, hId, .same rfl rfl⟩
  next hResumable =>
    have hPaused : row.payload.state = .paused := by
      by_contra hState
      exact hResumable (.inl hState)
    obtain ⟨row₁, hRow₁, hId₁, hState, hClock⟩ :=
      rotateFailedSession_row rotated rotationTime hRow hId
    split
    next e s₁ hRotate =>
      rw [hRotate] at hRow₁
      exact ⟨row₁, hRow₁, hId₁, .same hState hClock⟩
    next u s₁ hRotate =>
      rw [hRotate] at hRow₁
      split
      next => exact ⟨row₁, hRow₁, hId₁, .same hState hClock⟩
      next => exact ⟨row₁, hRow₁, hId₁, .same hState hClock⟩
      next target hTarget =>
        have hCommit := runs_appendEvent_after s₁ runId
          (transitionRun runId target "orchestrator" [] (resumeUpdates now) commitTime)
        have hTurn : ∃ row', (resumeCommit runId target requestedBy reason now
            commitTime s₁).2.runs.find runId = some row' ∧ row'.payload.runId = runId ∧
            Turn row row' (.resume rotated requestedBy reason rotationTime now commitTime) := by
          rw [resumeCommit, hCommit]
          rcases transitionRun_row target "orchestrator" [] (resumeUpdates now) commitTime hRow₁
            with hSame | ⟨hValid, hMoved⟩
          · exact ⟨row₁, hSame, hId₁, .same hState hClock⟩
          · exact ⟨_, hMoved, (transitioned_runId ..).trans hId₁,
              .resume hPaused (hState.trans hPaused) hClock hValid rfl⟩
        split
        next e s₂ hRaise => rw [hRaise] at hTurn; exact hTurn
        next r s₂ hReturns => rw [hReturns] at hTurn; exact hTurn

theorem turn_of_call (call : ClockCall) (hRow : s.runs.find runId = some row)
    (hId : row.payload.runId = runId) :
    ∃ row', (call.apply runId s).runs.find runId = some row' ∧ row'.payload.runId = runId ∧
      Turn row row' call := by
  cases call with
  | transition c => exact turn_transition hRow hId
  | pause abort requestedBy reason now commitTime => exact turn_pause hRow hId
  | resume rotated requestedBy reason rotationTime now commitTime => exact turn_resume hRow hId

end Calls

/-! ## The clock along a history -/

/-- A call of `transition_run` that leaves the clock to the store, and the ways from work to
`PAUSED` and back to `pause_run` and `resume_run`. -/
def Direct (runId : String) (s : Store) (c : TransitionCall) : Prop :=
  (∀ r, runClock (c.updates.apply r) = runClock r) ∧
    ∀ row, s.runs.find runId = some row →
      (Working row.payload.state → c.target ≠ .paused) ∧
        (row.payload.state = .paused → ¬(Working c.target ∧ c.target ∉ terminalStates))

def ClockAdmits (runId : String) (x : ClockConfig) (call : ClockCall) : Prop :=
  (x.clock :: call.readings).Pairwise (· ≤ ·) ∧
    ∀ c, call = .transition c → Direct runId x.store c

theorem ClockAdmits.ordered {runId : String} {x : ClockConfig} {call : ClockCall}
    (h : ClockAdmits runId x call) : x.clock ≤ call.instant ∧ call.instant ≤ call.finish := by
  have hPairwise := h.1
  cases call with
  | transition c =>
    simp only [ClockCall.readings, pairwise_cons, mem_singleton] at hPairwise
    exact ⟨hPairwise.1 _ rfl, le_refl _⟩
  | pause abort requestedBy reason now commitTime =>
    simp only [ClockCall.readings, pairwise_cons, mem_cons] at hPairwise
    exact ⟨hPairwise.1 _ (.inl rfl), hPairwise.2.1 _ (.inl rfl)⟩
  | resume rotated requestedBy reason rotationTime now commitTime =>
    simp only [ClockCall.readings, pairwise_cons, mem_cons] at hPairwise
    exact ⟨hPairwise.1 _ (.inr (.inl rfl)), hPairwise.2.2.1 _ (.inl rfl)⟩

/-- The clock of the run measures the time it spent at work, until it ends. -/
def Timed (runId : String) (x : ClockConfig) : Prop :=
  ∃ row, x.store.runs.find runId = some row ∧ row.payload.runId = runId ∧
    (row.payload.state ∉ terminalStates →
      Measures Working (runClock row.payload) row.payload.state x.timeline x.clock)

/-- What `transition_run` does to the clock. -/
theorem runClock_transitioned (row : RunRow) (target : RunState) (updates : RunUpdates)
    (now : Instant) :
    runClock (transitioned row target updates now) =
      if target ∈ humanWaitStates ∧ row.payload.state ∉ humanWaitStates then
        (runClock row.payload).stop now
      else if row.payload.state ∈ humanWaitStates ∧ target ∉ humanWaitStates ∧
          target ∉ terminalStates ∧ target ≠ .paused then
        (runClock (updates.apply row.payload)).start now
      else
        runClock (updates.apply row.payload) := by
  unfold transitioned runtimeUpdates
  split
  · rfl
  · split <;> rfl

theorem not_working_paused : ¬Working .paused := fun h => h.2 rfl

section Measured

variable {t : Timeline RunState} {clock clock' now commitTime : Instant} {target : RunState}

section

variable (h : Measures Working (runClock row.payload) row.payload.state t clock)
include h

theorem measures_transition {c : TransitionCall} (hNow : clock ≤ c.now)
    (hUpdates : runClock (c.updates.apply row.payload) = runClock row.payload)
    (hIn : Working row.payload.state → c.target ≠ .paused)
    (hOut : row.payload.state = .paused → ¬(Working c.target ∧ c.target ∉ terminalStates))
    (hTarget : c.target ∉ terminalStates) :
    Measures Working (runClock (transitioned row c.target c.updates c.now)) c.target
      ((c.now, c.target) :: t) c.now := by
  rw [runClock_transitioned, hUpdates]
  split
  next hWait => exact h.enter_stop hNow fun hWorking => hWorking.1 hWait.1
  next hNotStop =>
    split
    next hLeave =>
      exact h.enter_start hNow (le_refl _) (fun hWorking => hWorking.1 hLeave.1)
        ⟨hLeave.2.1, hLeave.2.2.2⟩
    next hNotStart =>
      refine h.enter_same hNow (le_refl _) ⟨fun hWorking => ⟨fun hWait => ?_, hIn hWorking⟩,
        fun hWorking => ⟨fun hWait => ?_, fun hPaused => hOut hPaused ⟨hWorking, hTarget⟩⟩⟩
      · exact hNotStop ⟨hWait, hWorking.1⟩
      · exact hNotStart ⟨hWait, hWorking.1, hTarget, hWorking.2⟩

theorem measures_pause
    (hNow : clock ≤ now) :
    Measures Working (runClock (transitioned row .paused (pauseUpdates row.payload now) commitTime))
      .paused ((now, .paused) :: t) clock' := by
  rw [runClock_transitioned, if_neg (by simp [humanWaitStates]), if_neg (by simp)]
  exact h.enter_stop hNow not_working_paused

end

theorem measures_resume (hState : row.payload.state = .paused)
    (h : Measures Working (runClock row.payload) .paused t clock) (hNow : clock ≤ now)
    (hClock : now ≤ clock') (hPaused : target ≠ .paused) :
    Measures Working (runClock (transitioned row target (resumeUpdates now) commitTime)) target
      ((now, target) :: t) clock' := by
  have hStopped : (runClock row.payload).since = none := h.since_eq_none not_working_paused
  rw [runClock_transitioned]
  split
  next hWait =>
    -- the state waits for a human: the store leaves the clock stopped, whatever was passed
    have hStop : (runClock row.payload).stop commitTime = runClock row.payload := by
      rw [Stopwatch.stop, h.read_of_not not_working_paused, ← hStopped]
    rw [hStop]
    refine h.enter_same hNow hClock ⟨fun hWorking => absurd hWorking not_working_paused,
      fun hWorking => absurd hWait.1 hWorking.1⟩
  next hNotWait =>
    rw [if_neg (by simp [hState, humanWaitStates])]
    have hWorking : Working target := by
      refine ⟨fun hWait => hNotWait ⟨hWait, ?_⟩, hPaused⟩
      rw [hState]
      decide
    exact h.enter_start hNow hClock not_working_paused hWorking

end Measured

section Run

variable {x : ClockConfig} {call : ClockCall}

theorem transitioned_state (row : RunRow) (target : RunState) (updates : RunUpdates)
    (now : Instant) : (transitioned row target updates now).state = target := rfl

theorem timed_clockStep (hAdmits : ClockAdmits runId x call) (h : Timed runId x) :
    Timed runId (clockStep runId x call) := by
  obtain ⟨row, hRow, hId, hMeasures⟩ := h
  obtain ⟨row', hRow', hId', hTurn⟩ := turn_of_call call hRow hId
  obtain ⟨hNow, hFinish⟩ := hAdmits.ordered
  have hTimeline : (clockStep runId x call).timeline =
      (call.instant, row'.payload.state) :: x.timeline := by
    simp only [clockStep, hRow']
  refine ⟨row', hRow', hId', fun hLive => ?_⟩
  rw [hTimeline]
  cases hTurn with
  | same hState hClock =>
    rw [hState] at hLive ⊢
    rw [hClock]
    exact (hMeasures hLive).enter_same hNow hFinish Iff.rfl
  | transition hValid hPayload =>
    obtain ⟨hUpdates, hPaths⟩ := hAdmits.2 _ rfl
    have hBefore : row.payload.state ∉ terminalStates := by
      intro hTerminal
      rw [not_validTransition_of_terminal hTerminal] at hValid
      cases hValid
    rw [hPayload, transitioned_state] at hLive ⊢
    exact measures_transition (hMeasures hBefore) hNow (hUpdates _) (hPaths row hRow).1
      (hPaths row hRow).2 hLive
  | pause hBefore hPayload =>
    rw [hPayload, transitioned_state]
    exact measures_pause (hMeasures hBefore) hNow
  | resume hPaused hState hClock hValid hPayload =>
    have hMeasured := hMeasures (by rw [hPaused]; decide)
    rw [hPaused, ← hClock] at hMeasured
    rw [hPayload, transitioned_state]
    refine measures_resume hState hMeasured hNow hFinish fun hTarget => ?_
    rw [hState, hTarget, validTransition_irrefl] at hValid
    cases hValid

/-- The record of a run that is no conversation, as `create_run` and `retry_terminal_run` make
it. -/
structure NewRun (record : RunRecord) (now : Instant) : Prop where
  conversation : record.conversation = false
  state : record.state = .created ∨ record.state = .preparing
  activeSince : record.activeSince = some now
  activeRuntimeSeconds : record.activeRuntimeSeconds = 0

inductive CreatedAs (record : RunRecord) (now : Instant) (s : Store) : Prop where
  | run {s₀ : Store} {one : Bool} {cutoff : Option Instant}
      (h : Returns (createRun record one cutoff now) s₀ record s)
  | retry {s₀ : Store} {parentRunId retryKey checkpointDigest : String} {one : Bool}
      {cutoff : Option Instant}
      (h : Returns (createTerminalRetry record parentRunId retryKey checkpointDigest one cutoff now)
        s₀ (record, true) s)

theorem CreatedAs.find {record : RunRecord} {now : Instant} {s : Store}
    (h : CreatedAs record now s) : s.runs.find record.runId = some (Store.inserted record) := by
  cases h with
  | run h =>
    obtain ⟨_, s₁, _, hFree, rfl⟩ := createRun_returns h
    exact Store.find_addRun_self hFree
  | retry h =>
    rcases createTerminalRetry_returns h with ⟨_, _, _, _, hReplay, _⟩ |
      ⟨_, _, _, s₁, _, hFree, rfl⟩
    · cases hReplay
    · rw [Store.addRetry_runs]
      exact Store.find_addRun_self hFree

def startClock (record : RunRecord) (s : Store) (now created : Instant) : ClockConfig :=
  ⟨s, created, [(now, record.state)]⟩

theorem timed_startClock {record : RunRecord} {s : Store} {now created : Instant}
    (hNew : NewRun record now) (hCreated : CreatedAs record created s) (hNow : now ≤ created) :
    Timed record.runId (startClock record s now created) := by
  have hWorking : Working record.state := by
    rcases hNew.state with hState | hState <;> rw [hState] <;> decide
  refine ⟨Store.inserted record, hCreated.find, rfl, fun _ => ?_⟩
  have hClock : runClock record = ⟨0, some now⟩ := by
    rw [runClock, hNew.activeSince, hNew.activeRuntimeSeconds]
  show Measures Working (runClock record) record.state [(now, record.state)] created
  rw [hClock]
  exact (Measures.first hWorking).later hNow

/-- Along every history of direct transitions, pauses and resumes of a run, with non-decreasing
readings of the clock: until the run ends, `active_since` is set exactly while it is at work, and
the base plus the open interval is the time it spent at work. -/
theorem runClock_measures (record : RunRecord) (s : Store) (now created : Instant)
    (hNew : NewRun record now) (hCreated : CreatedAs record created s) (hNow : now ≤ created)
    (calls done : List ClockCall)
    (hAlong : Along (clockStep record.runId) (ClockAdmits record.runId)
      (startClock record s now created) calls) (hDone : done <+: calls) :
    ∃ row, (exec (clockStep record.runId) (startClock record s now created) done).store.runs.find
        record.runId = some row ∧
      (row.payload.state ∉ terminalStates →
        (row.payload.activeSince ≠ none ↔
            row.payload.state ∉ humanWaitStates ∧ row.payload.state ≠ .paused) ∧
          ∀ later,
            (exec (clockStep record.runId) (startClock record s now created) done).clock ≤ later →
            row.payload.activeRuntimeSeconds + row.payload.openInterval later =
              (exec (clockStep record.runId) (startClock record s now created)
                done).timeline.spent Working later) := by
  obtain ⟨row, hRow, _, hMeasures⟩ := hAlong.invariant_prefix
    (fun _ _ hAdmits h => timed_clockStep hAdmits h) (timed_startClock hNew hCreated hNow) hDone
  refine ⟨row, hRow, fun hLive => ⟨(hMeasures hLive).running, fun later hLater => ?_⟩⟩
  exact (hMeasures hLive).read later hLater

end Run

def clockTrialRun : RunRecord := freshRun "r" "objective" 0

def clockTrialStart : ClockConfig :=
  startClock clockTrialRun (createRun clockTrialRun true none 1 Store.empty).2 0 1

/-- The run is drafted, waits for approval, is paused there and resumed, is approved, paused at
work and resumed again. -/
def clockTrial : List ClockCall :=
  [.transition ⟨.preparing, "orchestrator", [], .none, 2⟩,
    .transition ⟨.honeydewDraftingProtocol, "orchestrator", [], .none, 3⟩,
    .transition ⟨.awaitingProtocolApproval, "orchestrator", [], .none, 10⟩,
    .pause quietAbort none none 12 13,
    .resume none none none 20 21 22,
    .transition ⟨.beakerPlanning, "orchestrator", [], .none, 30⟩,
    .pause quietAbort none none 34 35,
    .resume none none none 40 41 42]

theorem newRun_clockTrialRun : NewRun clockTrialRun 0 := ⟨rfl, .inl rfl, rfl, rfl⟩

theorem createdAs_clockTrialStart : CreatedAs clockTrialRun 1 clockTrialStart.store :=
  .run (show Returns (createRun clockTrialRun true none 1) Store.empty clockTrialRun _ from rfl)

/-- A transition without updates, in a state that is known. -/
theorem direct_of_state {runId source : String} {s : Store} {target : RunState} {payload : Payload}
    {now : Instant} (state : RunState)
    (hState : (s.runs.find runId).map (fun row => row.payload.state) = some state)
    (hIn : Working state → target ≠ .paused)
    (hOut : state = .paused → ¬(Working target ∧ target ∉ terminalStates)) :
    Direct runId s ⟨target, source, payload, .none, now⟩ := by
  refine ⟨fun _ => rfl, fun row hRow => ?_⟩
  rw [hRow, map_some, Option.some.injEq] at hState
  rw [hState]
  exact ⟨hIn, hOut⟩

theorem along_clockTrial :
    Along (clockStep "r") (ClockAdmits "r") clockTrialStart clockTrial := by
  refine ⟨⟨by decide +kernel, ?_⟩, ⟨by decide +kernel, ?_⟩, ⟨by decide +kernel, ?_⟩,
    ⟨by decide +kernel, nofun⟩, ⟨by decide +kernel, nofun⟩, ⟨by decide +kernel, ?_⟩,
    ⟨by decide +kernel, nofun⟩, ⟨by decide +kernel, nofun⟩, trivial⟩
  · rintro c ⟨⟩
    exact direct_of_state .created (by decide +kernel) (by decide) (by decide)
  · rintro c ⟨⟩
    exact direct_of_state .preparing (by decide +kernel) (by decide) (by decide)
  · rintro c ⟨⟩
    exact direct_of_state .honeydewDraftingProtocol (by decide +kernel) (by decide) (by decide)
  · rintro c ⟨⟩
    exact direct_of_state .awaitingProtocolApproval (by decide +kernel) (by decide) (by decide)

theorem runClock_measures_clockTrial :
    ∃ row, (exec (clockStep "r") clockTrialStart clockTrial).store.runs.find "r" = some row ∧
      row.payload.state = .beakerPlanning ∧ row.payload.activeSince = some 41 ∧
      row.payload.activeRuntimeSeconds + row.payload.openInterval 50 =
        (exec (clockStep "r") clockTrialStart clockTrial).timeline.spent Working 50 ∧
      (exec (clockStep "r") clockTrialStart clockTrial).timeline.spent Working 50 = 23 := by
  obtain ⟨row, hRow, hMeasures⟩ := runClock_measures clockTrialRun clockTrialStart.store 0 1
    newRun_clockTrialRun createdAs_clockTrialStart (by decide +kernel) clockTrial clockTrial
    along_clockTrial (prefix_refl _)
  have hFields : ((exec (clockStep "r") clockTrialStart clockTrial).store.runs.find "r").map
      (fun row => (row.payload.state, row.payload.activeSince)) =
        some (.beakerPlanning, some 41) := by decide +kernel
  have hRow' : (exec (clockStep "r") clockTrialStart clockTrial).store.runs.find "r" =
      some row := hRow
  rw [hRow', map_some, Option.some.injEq, Prod.mk.injEq] at hFields
  refine ⟨row, hRow, hFields.1, hFields.2, ?_, by decide +kernel⟩
  exact (hMeasures (by rw [hFields.1]; decide)).2 50 (by decide +kernel)

/-- A `transition_run` of its own to `PAUSED` leaves the clock running. -/
theorem not_runClock_measures :
    NewRun clockTrialRun 0 ∧ CreatedAs clockTrialRun 1 clockTrialStart.store ∧
      ((exec (clockStep "r") clockTrialStart
          [.transition ⟨.preparing, "orchestrator", [], .none, 2⟩,
            .transition ⟨.paused, "orchestrator", [], .none, 3⟩]).store.runs.find "r").map
        (fun row => (row.payload.state, row.payload.activeSince)) = some (.paused, some 0) :=
  ⟨newRun_clockTrialRun, createdAs_clockTrialStart, by decide +kernel⟩

end Glasslab.Engine
