import Glasslab.Foundation.Machine
import Glasslab.Storage.Spec

/-!
# Pausing a run from outside the run lock

`pause_run` reads the run, aborts its agent turns, and commits a transition to `PAUSED`
whose `resume_state` and `active_runtime_seconds` are computed from the record it read. An abort
that raises ends it. It does not take the run lock, so the thread that advances the run may commit
any number of transitions between the read and the commit; `between` is that list.

The pause is recorded as of the read. It is right exactly when the run is back in the state
that was read and the transitions in between banked no more run time than the interval that
was open at the read.
-/

namespace Glasslab.Engine

open Foundation Foundation.Tx Foundation.Machine Storage

/-- The updates `pause_run` computes from the record it read. -/
def pauseUpdates (run : RunRecord) (now : Instant) : RunUpdates where
  apply r :=
    { r with
      resumeState := some run.state,
      activeRuntimeSeconds := run.activeRuntimeSeconds + run.openInterval now,
      activeSince := none }
  runId_apply _ := rfl

def optStr : Option String → Value
  | none => .null
  | some s => .str s

/-- The second half of `pause_run`: the transition, then the `run.paused` event. -/
def pauseCommit (runId : String) (run : RunRecord) (requestedBy reason : Option String)
    (now commitTime : Instant) : StoreM RunRecord := do
  let paused ← transitionRun runId .paused "orchestrator" [] (pauseUpdates run now) commitTime
  appendEvent runId "orchestrator" "run.paused"
    [("resume_state", .str run.state.value), ("requested_by", optStr requestedBy),
      ("reason", optStr reason)]
  pure paused

/-- What `runtime.abort` raises for the session of an agent: the message, if it does. -/
abbrev Abort := AgentName → String → Option String

/-- `_abort_agent_turns`: what the first of the two sessions raises, whose abort raises. -/
def abortAgentTurns (abort : Abort) (run : RunRecord) : Option String :=
  ((run.honeydewSessionId.filter (· ≠ "")).bind (abort .honeydew)).or
    ((run.beakerSessionId.filter (· ≠ "")).bind (abort .beaker))

inductive PauseError where
  | abort (message : String)
  | store (e : StoreError)
  deriving DecidableEq, Repr

/-- A `transition_run` call of the thread that holds the run lock. -/
structure TransitionCall where
  target : RunState
  source : String
  payload : Payload
  updates : RunUpdates
  now : Instant

def TransitionCall.op (runId : String) (c : TransitionCall) : StoreOp :=
  .transitionRun runId c.target c.source c.payload c.updates c.now

def advance (runId : String) (s : Store) (between : List TransitionCall) : Store :=
  exec stepStore s (between.map (TransitionCall.op runId))

/-- `pause_run`, with the calls the other thread commits between its read and its write. -/
def pauseRun (s : Store) (runId : String) (abort : Abort) (between : List TransitionCall)
    (requestedBy reason : Option String) (now commitTime : Instant) :
    Except PauseError RunRecord × Store :=
  match getRun s runId with
  | .error e => (.error (.store e), advance runId s between)
  | .ok run =>
    if run.state ∈ terminalStates ∨ run.state = .paused then
      (.ok run, advance runId s between)
    else
      match abortAgentTurns abort run with
      | some message => (.error (.abort message), advance runId s between)
      | none =>
        let committed :=
          pauseCommit runId run requestedBy reason now commitTime (advance runId s between)
        (committed.1.mapError .store, committed.2)

def lastStateChange (s : Store) (runId : String) : Option EventRecord :=
  ((s.eventsOf runId).filter fun e => e.eventType = "run.state_changed").getLast?

/-- The paused run resumes where it was interrupted, and no stored run time is lost. -/
def RecordsInterrupted (before after : Store) (runId : String) : Prop :=
  ∃ row row' e, before.runs.find runId = some row ∧ after.runs.find runId = some row' ∧
    lastStateChange after runId = some e ∧
    row'.payload.resumeState.map RunState.value = e.payload.getStr "from" ∧
    row.payload.activeRuntimeSeconds ≤ row'.payload.activeRuntimeSeconds

/-- The seconds a transition adds to the stored run time when it commits. -/
def TransitionCall.banked (runId : String) (s : Store) (c : TransitionCall) : ℚ :=
  match s.runs.find runId with
  | none => 0
  | some row =>
    if validTransition row.payload.state c.target then
      (transitioned row c.target c.updates c.now).activeRuntimeSeconds -
        row.payload.activeRuntimeSeconds
    else 0

def banked (runId : String) : Store → List TransitionCall → ℚ
  | _, [] => 0
  | s, c :: cs => c.banked runId s + banked runId (stepStore s (c.op runId)) cs

section Steps

variable {s : Store} {runId : String} {row : RunRow} {c : TransitionCall}

theorem stepStore_transition_of_valid (hRow : s.runs.find runId = some row)
    (hValid : validTransition row.payload.state c.target = true) :
    stepStore s (c.op runId) =
      (s.setRun runId (transitioned row c.target c.updates c.now)).log runId c.source
        "run.state_changed" (stateChangedPayload row.payload.state c.target c.payload) := by
  have hReturns : Returns (transitionRun runId c.target c.source c.payload c.updates c.now) s
      (transitioned row c.target c.updates c.now) _ :=
    transitionRun_returns.mpr ⟨row, hRow, hValid, rfl, rfl⟩
  have hCall : Returns (c.op runId).call s () _ :=
    returns_bind.mpr ⟨_, _, hReturns, returns_pure.mpr ⟨rfl, rfl⟩⟩
  exact congrArg Prod.snd hCall

theorem stepStore_transition_of_invalid (hRow : s.runs.find runId = some row)
    (hInvalid : validTransition row.payload.state c.target = false) :
    stepStore s (c.op runId) = s := by
  rcases stepStore_cases s (c.op runId) with hSame | hEffect
  · exact hSame
  · generalize stepStore s _ = s' at hEffect
    cases hEffect with
    | transitionRun hFound hValid =>
      rw [hRow] at hFound
      cases hFound
      rw [hInvalid] at hValid
      cases hValid

/-- One call keeps the run and banks what `banked` says. -/
theorem step_banked (c : TransitionCall) (hRow : s.runs.find runId = some row) :
    ∃ row', (stepStore s (c.op runId)).runs.find runId = some row' ∧
      row'.payload.activeRuntimeSeconds =
        row.payload.activeRuntimeSeconds + c.banked runId s := by
  cases hValid : validTransition row.payload.state c.target with
  | true =>
    refine ⟨Store.rewritten (transitioned row c.target c.updates c.now) row, ?_, ?_⟩
    · rw [stepStore_transition_of_valid hRow hValid, Store.log_runs, Store.find_setRun_self, hRow,
        Option.map_some]
    · simp only [TransitionCall.banked, hRow, hValid, Store.rewritten, if_true]
      ring
  | false =>
    refine ⟨row, ?_, ?_⟩
    · rw [stepStore_transition_of_invalid hRow hValid]
      exact hRow
    · simp [TransitionCall.banked, hRow, hValid]

theorem advance_banked (between : List TransitionCall) (hRow : s.runs.find runId = some row) :
    ∃ row', (advance runId s between).runs.find runId = some row' ∧
      row'.payload.activeRuntimeSeconds =
        row.payload.activeRuntimeSeconds + banked runId s between := by
  induction between generalizing s row with
  | nil => exact ⟨row, hRow, by simp [banked]⟩
  | cons c cs ih =>
    obtain ⟨row₁, hRow₁, hBase⟩ := step_banked c hRow
    obtain ⟨row', hRow', hRest⟩ := ih hRow₁
    refine ⟨row', hRow', ?_⟩
    rw [hRest, hBase, banked]
    ring

end Steps

/-! ## The commit -/

variable {requestedBy reason : Option String} {now commitTime : Instant} {run paused : RunRecord}
  {runId : String} {s s' : Store}

theorem pauseRun_eq_ok_iff {abort : Abort}
    {between : List TransitionCall}
    (hRead : getRun s runId = .ok run)
    (hLive : run.state ∉ terminalStates ∧ run.state ≠ .paused) :
    pauseRun s runId abort between requestedBy reason now commitTime = (.ok paused, s') ↔
      abortAgentTurns abort run = none ∧
        Returns (pauseCommit runId run requestedBy reason now commitTime) (advance runId s between)
          paused s' := by
  simp only [pauseRun, hRead, hLive.1, hLive.2, or_self, if_false, Returns]
  cases abortAgentTurns abort run with
  | some message => simp
  | none =>
    rcases pauseCommit runId run requestedBy reason now commitTime (advance runId s between) with
      ⟨_ | record, after⟩ <;> simp [Except.mapError]

/-- What a committed pause leaves: the record it wrote and the events it logged. -/
theorem pauseCommit_returns
    (h : Returns (pauseCommit runId run requestedBy reason now commitTime) s paused s') :
    ∃ row, s.runs.find runId = some row ∧
      paused = transitioned row .paused (pauseUpdates run now) commitTime ∧
      s' = ((s.setRun runId paused).log runId "orchestrator" "run.state_changed"
        (stateChangedPayload row.payload.state .paused [])).log runId "orchestrator" "run.paused"
        [("resume_state", .str run.state.value), ("requested_by", optStr requestedBy),
          ("reason", optStr reason)] := by
  simp only [pauseCommit, returns_bind, transitionRun_returns, appendEvent_returns,
    returns_pure] at h
  obtain ⟨_, _, ⟨row, hRow, _, rfl, rfl⟩, _, _, ⟨_, rfl⟩, rfl, rfl⟩ := h
  exact ⟨row, hRow, rfl, rfl⟩

theorem transitioned_paused (row : RunRow) (run : RunRecord) (now commitTime : Instant) :
    (transitioned row .paused (pauseUpdates run now) commitTime).resumeState = some run.state ∧
      (transitioned row .paused (pauseUpdates run now) commitTime).activeRuntimeSeconds =
        run.activeRuntimeSeconds + run.openInterval now := by
  simp [transitioned, runtimeUpdates, pauseUpdates, humanWaitStates]

theorem pauseCommit_lastStateChange (s : Store) (runId : String) (record : RunRecord)
    (state : RunState) {payload : Payload} :
    ∃ e, lastStateChange (((s.setRun runId record).log runId "orchestrator" "run.state_changed"
        (stateChangedPayload state .paused [])).log runId "orchestrator" "run.paused" payload)
        runId = some e ∧ e.payload.getStr "from" = some state.value := by
  refine ⟨(s.setRun runId record).newEvent runId "orchestrator" "run.state_changed"
    (stateChangedPayload state .paused []), ?_, rfl⟩
  rw [lastStateChange, Store.eventsOf_log_self, Store.eventsOf_log_self]
  simp [Store.newEvent]

theorem runState_value_inj {a b : RunState} : a.value = b.value ↔ a = b := by
  constructor
  · intro h
    have hOf := congrArg RunState.ofValue h
    simpa using hOf
  · rintro rfl
    rfl

/-- A pause that commits records the state it interrupted, without losing stored run time, if
and only if the run is in the state that was read when it commits and the transitions in
between banked at most the interval that was open at the read. -/
theorem pauseRun_recordsInterrupted_iff (s s' : Store) (runId : String) (run paused : RunRecord)
    (abort : Abort) (between : List TransitionCall) (requestedBy reason : Option String)
    (now commitTime : Instant) (hRead : getRun s runId = .ok run)
    (hLive : run.state ∉ terminalStates ∧ run.state ≠ .paused)
    (hPause : pauseRun s runId abort between requestedBy reason now commitTime =
      (.ok paused, s')) :
    RecordsInterrupted (advance runId s between) s' runId ↔
      ((advance runId s between).runs.find runId).map (·.payload.state) = some run.state ∧
        banked runId s between ≤ run.openInterval now := by
  obtain ⟨row, hRow, rfl, rfl⟩ := pauseCommit_returns ((pauseRun_eq_ok_iff hRead hLive).mp hPause).2
  obtain ⟨hResume, hRuntime⟩ := transitioned_paused row run now commitTime
  have hBase : row.payload.activeRuntimeSeconds =
      run.activeRuntimeSeconds + banked runId s between := by
    cases hFound : s.runs.find runId with
    | none => simp [getRun, hFound] at hRead
    | some row₀ =>
      obtain ⟨row₁, hRow₁, hBanked⟩ := advance_banked between hFound
      have hRun : row₀.payload = run := by simpa [getRun, hFound] using hRead
      rw [hRow] at hRow₁
      cases hRow₁
      rw [hBanked, hRun]
  have hAfter : ∀ {source eventType source' eventType' : String} {payload payload' : Payload},
      ((((advance runId s between).setRun runId
        (transitioned row .paused (pauseUpdates run now) commitTime)).log runId source eventType
        payload).log runId source' eventType' payload').runs.find runId =
          some (Store.rewritten (transitioned row .paused (pauseUpdates run now) commitTime) row) :=
            by
    intros
    rw [Store.log_runs, Store.log_runs, Store.find_setRun_self, hRow, Option.map_some]
  rw [hRow, Option.map_some, Option.some.injEq]
  constructor
  · rintro ⟨row₁, row', e, hRow₁, hRow', hLast, hFrom, hKept⟩
    rw [hRow] at hRow₁
    rw [hAfter] at hRow'
    cases hRow₁
    cases hRow'
    obtain ⟨e', hLast', hFrom'⟩ := pauseCommit_lastStateChange (advance runId s between) runId
      (transitioned row .paused (pauseUpdates run now) commitTime) row.payload.state
    rw [hLast'] at hLast
    cases hLast
    rw [hFrom'] at hFrom
    simp only [Store.rewritten, hResume, Option.map_some, Option.some.injEq,
      runState_value_inj] at hFrom
    simp only [Store.rewritten, hRuntime, hBase] at hKept
    exact ⟨hFrom.symm, by linarith⟩
  · rintro ⟨hState, hBanked⟩
    obtain ⟨e, hLast, hFrom⟩ := pauseCommit_lastStateChange (advance runId s between) runId
      (transitioned row .paused (pauseUpdates run now) commitTime) row.payload.state
    refine ⟨row, _, e, hRow, hAfter, hLast, ?_, ?_⟩
    · rw [hFrom, hState]
      simp only [Store.rewritten, hResume, Option.map_some]
    · simp only [Store.rewritten, hRuntime, hBase]
      linarith

def draftingStore : Store :=
  exec stepStore Store.empty
    [.createRun (freshRun "r" "objective" 0) true none 0,
      .transitionRun "r" .preparing "orchestrator" [] .none 1,
      .transitionRun "r" .honeydewDraftingProtocol "orchestrator" [] .none 2]

/-- No session is there to be aborted, or none raises. -/
def quietAbort : Abort := fun _ _ => none

/-- The protocol waits for an approval for a second, and is drafted again, while the pause is under
way: four of the five seconds that the pause counts are banked. -/
def draftedAgain : List TransitionCall :=
  [⟨.awaitingProtocolApproval, "orchestrator", [], .none, 4⟩,
    ⟨.honeydewDraftingProtocol, "orchestrator", [], .none, 5⟩]

theorem pauseRun_recordsInterrupted_draftingStore :
    ∃ run paused s', getRun draftingStore "r" = .ok run ∧
      pauseRun draftingStore "r" quietAbort draftedAgain (some "operator") none 5 6 =
        (.ok paused, s') ∧
      RecordsInterrupted (advance "r" draftingStore draftedAgain) s' "r" := by
  have hFound : (draftingStore.runs.find "r").map (fun row =>
      (row.payload.state,
        decide (banked "r" draftingStore draftedAgain ≤ row.payload.openInterval 5))) =
        some (.honeydewDraftingProtocol, true) := by
    decide +kernel
  have hBack : ((advance "r" draftingStore draftedAgain).runs.find "r").map (·.payload.state) =
      some .honeydewDraftingProtocol := by
    decide +kernel
  have hOk : (pauseRun draftingStore "r" quietAbort draftedAgain (some "operator") none 5
    6).1.isOk =
      true := by
    decide +kernel
  obtain ⟨row, hRow, hPair⟩ := Option.map_eq_some_iff.mp hFound
  obtain ⟨hState, hBanked⟩ := Prod.mk.inj hPair
  have hRead : getRun draftingStore "r" = .ok row.payload := by simp [getRun, hRow]
  rcases hRun : pauseRun draftingStore "r" quietAbort draftedAgain (some "operator") none 5 6 with
    ⟨e | paused, s'⟩
  · rw [hRun] at hOk
    cases hOk
  · refine ⟨row.payload, paused, s', hRead, rfl, ?_⟩
    refine (pauseRun_recordsInterrupted_iff draftingStore s' "r" row.payload paused quietAbort
      draftedAgain (some "operator") none 5 6 hRead (by simp [hState, terminalStates])
      hRun).mpr ⟨?_, of_decide_eq_true hBanked⟩
    rw [hBack, hState]

/-- The draft is done and waits for approval before the pause commits. -/
def draftDone : List TransitionCall := [⟨.awaitingProtocolApproval, "orchestrator", [], .none, 5⟩]

/-- The run will be resumed into drafting. -/
theorem pauseRun_not_recordsInterrupted :
    ∃ paused s', pauseRun draftingStore "r" quietAbort draftDone (some "operator") none 4 6 =
        (.ok paused, s') ∧ paused.state = .paused ∧
      ¬ RecordsInterrupted (advance "r" draftingStore draftDone) s' "r" := by
  have hOk : (pauseRun draftingStore "r" quietAbort draftDone (some "operator") none 4 6).1.map
      RunRecord.state = .ok .paused := by decide
  have hFrom : (lastStateChange (pauseRun draftingStore "r" quietAbort draftDone (some "operator")
      none 4 6).2 "r").map (·.payload.getStr "from") =
        some (some "AWAITING_PROTOCOL_APPROVAL") := by
    decide
  have hResume :
    ((pauseRun draftingStore "r" quietAbort draftDone (some "operator") none 4 6).2.runs.find
      "r").map (·.payload.resumeState) = some (some .honeydewDraftingProtocol) := by decide
  rcases hRun : pauseRun draftingStore "r" quietAbort draftDone (some "operator") none 4 6 with
    ⟨e | paused, s'⟩
  · rw [hRun] at hOk
    cases hOk
  · rw [hRun] at hOk hFrom hResume
    refine ⟨paused, s', rfl, Except.ok.inj hOk, ?_⟩
    rintro ⟨row, row', e, _, hRow', hLast, hAgree, _⟩
    rw [hLast, Option.map_some, Option.some.injEq] at hFrom
    rw [hRow', Option.map_some, Option.some.injEq] at hResume
    rw [hFrom, hResume] at hAgree
    simp [RunState.value] at hAgree

end Glasslab.Engine
