import Glasslab.Engine.Pause

/-!
# One logical agent turn

`_run_agent_turn` and the three mechanisms that call back into it: the bounded retry of a
transport failure, the automatic resume of a turn that ran into the wall clock, and the one
retry after a dependency repair. One entry of the function is one attempt; `stepTurn` makes
an attempt and either ends the call or carries the arguments of the re-entry over in a
`Frame`.

The state is the slice of the store the function works on: the record of the run, written
under its version, and its turns. What the outside world answers in one attempt is an
`AttemptEnv`. Pause and cancel do not take the run lock, so other writers of the run are part
of it: `interference` holds what they did before the first, second, ... store access of the
attempt.
-/

namespace Glasslab.Engine.AgentTurn

open Foundation Foundation.Tx Storage

/-- `OpenCodeRuntimeError.failure_class`. -/
inductive FailureClass where
  | startup
  | provider
  | network
  | validation
  | kindMismatch
  | workflow
  | turnTimeout
  | repeatedToolLoop
  | stepBudgetExceeded
  | runtimeDependencyUnavailable
  | other (name : String)
  deriving DecidableEq, Repr

inductive TurnError where
  | http
  | timeout
  | runtime (failureClass : Option FailureClass)
  | workflow (message : String)
  | concurrencyConflict
  | invalidTransition (current target : RunState)
  | other (message : String)
  deriving DecidableEq, Repr

/-- `getattr(exc, 'failure_class', None)`. -/
def TurnError.failureClass : TurnError → Option FailureClass
  | .runtime cls => cls
  | _ => none

def nonRetryableTurnFailureClasses : List FailureClass :=
  [.validation, .kindMismatch, .workflow, .turnTimeout, .repeatedToolLoop, .stepBudgetExceeded,
    .runtimeDependencyUnavailable]

def retryableTurnFailureClasses : List FailureClass := [.startup, .provider, .network]

def autoResumableTurnFailureClasses : List FailureClass := [.turnTimeout]

def isRetryableTurnFailure : TurnError → Bool
  | .http => true
  | .timeout => true
  | .runtime none => true
  | .runtime (some cls) =>
    cls ∉ nonRetryableTurnFailureClasses ∧ cls ∈ retryableTurnFailureClasses
  | _ => false

/-! ## State -/

inductive TurnStatus where
  | running
  | completed
  | failed (error : TurnError)
  deriving DecidableEq, Repr

structure TurnRecord where
  agent : AgentName
  sessionId : String
  status : TurnStatus
  deriving DecidableEq, Repr

def TurnRecord.isFailed (turn : TurnRecord) : Bool :=
  match turn.status with
  | .failed _ => true
  | _ => false

/-- The parts a prompt is put together from, in the order in which their texts are joined. -/
inductive PromptPart where
  | caller (text : String)
  | context (text : String)
  | advisory (text : String)
  | recovery (text : String)
  | kindInstruction (kind : TurnKind)
  | kindCorrection (returned expected : TurnKind)
  deriving DecidableEq, Repr

abbrev Prompt := List PromptPart

/-- The query of a retrieval: the caller's, or one derived from the prompt as it stands. -/
inductive RetrievalQuery where
  | given (query : String)
  | derived (prompt : Prompt)
  deriving DecidableEq, Repr

structure TurnState where
  run : RunRecord
  /-- The turns of the run, newest first. -/
  turns : List TurnRecord
  /-- The prompts handed to the runtime, newest first. -/
  sent : List Prompt
  queries : List RetrievalQuery
  clock : Instant
  interference : List (RunRecord → RunRecord)

structure TurnSettings where
  agentTurnMaxRetries : Int := 2
  agentTurnTimeoutAutoResumeLimit : Int := 2
  turnHistoryRotationTokenThreshold : Nat := 24000
  minimumTurnsBetweenSessionRotations : Nat := 2
  maximumSessionRotations : Nat := 4

/-- `DependencyRepairResult.status`. -/
inductive RepairStatus where
  | repaired
  | alreadyResolved
  | unavailable
  deriving DecidableEq, Repr

def RepairStatus.resolved (status : RepairStatus) : Bool :=
  status ∈ [RepairStatus.repaired, .alreadyResolved]

/-- What one attempt gets to see of the world. -/
structure AttemptEnv where
  clock : Instant
  interference : List (RunRecord → RunRecord)
  contextTokens : Nat
  recoveryContext : Except TurnError String
  session : Except TurnError String
  context : Option String
  advisory : Option String
  /-- The kind of the model's answer, and of its answer to the kind correction. -/
  reply : Except TurnError TurnKind
  correctedReply : Except TurnError TurnKind
  checkpointError : Option String
  /-- What `repair_workspace_dependencies` answers; its search of the shared cache may raise. -/
  repair : Except TurnError RepairStatus

def AttemptEnv.repaired (env : AttemptEnv) : Bool := env.repair.toOption.any RepairStatus.resolved

/-- The arguments that one entry of `_run_agent_turn` passes to the next. -/
structure Frame where
  prompt : Prompt
  retrievalQuery : Option String
  dependencyRepairAttempted : Bool
  autoResumeAttempts : Nat
  deriving DecidableEq, Repr

/-- The arguments of a top-level call. -/
def Frame.initial (prompt : String) (retrievalQuery : Option String) : Frame :=
  ⟨[.caller prompt], retrievalQuery, false, 0⟩

abbrev TurnM := Tx TurnState TurnError

/-- What other writers did to the run before this access. -/
def TurnState.interfered (s : TurnState) : TurnState :=
  match s.interference with
  | [] => s
  | write :: rest => { s with run := write s.run, interference := rest }

def getRun : TurnM RunRecord := do
  Tx.modify TurnState.interfered
  let s ← Tx.get
  pure s.run

def replaceRun (record : RunRecord) (expectedVersion : Int) : TurnM RunRecord := do
  Tx.modify TurnState.interfered
  let s ← Tx.get
  if s.run.version = expectedVersion then
    let updated := { record with version := expectedVersion + 1, updatedAt := s.clock }
    Tx.modify fun s => { s with run := updated }
    pure updated
  else
    Tx.raise .concurrencyConflict

def transition (target : RunState) (updates : RunUpdates) : TurnM Unit := do
  Tx.modify TurnState.interfered
  let s ← Tx.get
  if validTransition s.run.state target then
    Tx.modify fun s =>
      { s with run := transitioned (Store.inserted s.run) target updates s.clock }
  else
    Tx.raise (.invalidTransition s.run.state target)

def stopped (state : RunState) : TurnError :=
  .workflow ("workflow advancement stopped after agent turn because run is " ++ state.value)

/-- Read the run and stop if a pause or a cancellation has committed. -/
def getAdvancingRun : TurnM RunRecord := do
  let current ← getRun
  if current.state = .paused ∨ current.state ∈ terminalStates then
    Tx.raise (stopped current.state)
  else
    pure current

def pauseRun : TurnM Unit := do
  let run ← getRun
  if run.state ∈ terminalStates ∨ run.state = .paused then
    pure ()
  else
    let s ← Tx.get
    transition .paused (pauseUpdates run s.clock)

def checkTurnBudget (run : RunRecord) : TurnM Unit := do
  let s ← Tx.get
  if run.maximumTurns ≤ run.turnNumber then
    transition .timedOut .none
    Tx.raise (.workflow "maximum turn count reached")
  else if (run.maximumRuntimeSeconds : ℚ) < run.activeRuntimeSeconds + run.openInterval s.clock then
    transition .timedOut .none
    Tx.raise (.workflow "maximum active runtime reached")
  else
    pure ()

def session (run : RunRecord) (agent : AgentName) : Option String :=
  if agent = .honeydew then run.honeydewSessionId else run.beakerSessionId

def setSession (run : RunRecord) (agent : AgentName) (sessionId : Option String) : RunRecord :=
  if agent = .honeydew then { run with honeydewSessionId := sessionId }
  else { run with beakerSessionId := sessionId }

/-- `_rotate_agent_session`: the session ids are cleared before the checkpoint is written. -/
def rotateAgentSession (agent : AgentName) (env : AttemptEnv) : TurnM Unit := do
  let current ← getRun
  let _ ← replaceRun (setSession { current with currentAgent := none } agent none) current.version
  match env.checkpointError with
  | none => pure ()
  | some message => Tx.raise (.other message)

def maybeRotateTurnHistory (settings : TurnSettings) (agent : AgentName) (run : RunRecord)
    (env : AttemptEnv) : TurnM RunRecord :=
  if settings.turnHistoryRotationTokenThreshold = 0 then
    pure run
  else if session run agent = none then
    pure run
  else if env.contextTokens < settings.turnHistoryRotationTokenThreshold then
    if 0 < run.sessionRotationCount then
      replaceRun { run with sessionRotationCount := 0 } run.version
    else
      pure run
  else if 0 < settings.maximumSessionRotations ∧
      settings.maximumSessionRotations ≤ run.sessionRotationCount then do
    rotateAgentSession agent env
    pauseRun
    Tx.raise (.workflow ("session rotation churn limit reached (" ++
      toString run.sessionRotationCount ++ "/" ++ toString settings.maximumSessionRotations ++
      " consecutive); run paused for operator review"))
  else if 0 < run.sessionRotationCount ∧ 0 < settings.minimumTurnsBetweenSessionRotations ∧
      (run.turnNumber : Int) - run.lastRotationTurn <
        settings.minimumTurnsBetweenSessionRotations then
    pure run
  else do
    rotateAgentSession agent env
    let rotated ← getRun
    let _ ← replaceRun
      { rotated with
        sessionRotationCount := rotated.sessionRotationCount + 1,
        lastRotationTurn := rotated.turnNumber } rotated.version
    getRun

/-! ## The attempt -/

def saveTurn (turn : TurnRecord) : TurnM Unit :=
  Tx.modify fun s => { s with turns := turn :: s.turns }

def finishTurn (status : TurnStatus) : TurnM Unit :=
  Tx.modify fun s =>
    match s.turns with
    | [] => s
    | turn :: rest => { s with turns := { turn with status := status } :: rest }

def send (prompt : Prompt) : TurnM Unit :=
  Tx.modify fun s => { s with sent := prompt :: s.sent }

/-- The parts put before and behind the prompt the attempt was entered with. -/
def composePrompt (agent : AgentName) (kind : TurnKind) (prompt : Prompt) (recovery : String)
    (env : AttemptEnv) : Prompt :=
  let context : Prompt :=
    match env.context with
    | some text => if text = "" then [] else [.context text]
    | none => []
  let advisory : Prompt :=
    match env.advisory with
    | some text =>
      if agent = .honeydew ∧ kind ∈ [.protocolDraft, .methodologyReview] ∧ text ≠ "" then
        [.advisory text]
      else []
    | none => []
  let recovery : Prompt := if recovery = "" then [] else [.recovery recovery]
  recovery ++ context ++ prompt ++ advisory ++ [.kindInstruction kind]

def callModel (agent : AgentName) (kind : TurnKind) (prompt : Prompt) (env : AttemptEnv) :
    TurnM TurnKind := do
  let _ ← getAdvancingRun
  send prompt
  let returned ← Tx.ofExcept env.reply
  if returned = kind then
    pure returned
  else
    send (prompt ++ [.kindCorrection returned kind])
    let corrected ← Tx.ofExcept env.correctedReply
    if corrected = kind then
      pure corrected
    else
      Tx.raise (.workflow (agent.value ++ " returned " ++ corrected.value ++ "; expected " ++
        kind.value ++ " after one focused repair"))

/-- How an entry ends when it does not raise. -/
inductive AttemptEnd where
  | completed (kind : TurnKind)
  | reenter (frame : Frame)
  deriving DecidableEq, Repr

/-- The rollback that `_retry_agent_turn` and `_auto_resume_turn` start with. -/
def rollBackTurnNumber : TurnM Unit := do
  let current ← getAdvancingRun
  let _ ← replaceRun { current with turnNumber := current.turnNumber - 1 } current.version

def rollbackUnconsumedTurnNumber : TurnM Unit := do
  let current ← getRun
  if current.state = .paused ∨ current.state ∈ terminalStates then
    pure ()
  else if current.turnNumber = 0 then
    pure ()
  else
    let _ ← replaceRun { current with turnNumber := current.turnNumber - 1 } current.version

def failedTurns (agent : AgentName) (turns : List TurnRecord) : Nat :=
  turns.countP fun turn => turn.agent = agent ∧ turn.isFailed

def shouldRetryTurn (settings : TurnSettings) (exc : TurnError) (agent : AgentName)
    (turns : List TurnRecord) : Bool :=
  isRetryableTurnFailure exc ∧ (failedTurns agent turns : Int) ≤ settings.agentTurnMaxRetries

def shouldAutoResumeTurn (settings : TurnSettings) (exc : TurnError) (autoResumeAttempts : Nat) :
    Bool :=
  let limit := settings.agentTurnTimeoutAutoResumeLimit
  if limit ≤ 0 ∨ limit ≤ autoResumeAttempts then false
  else
    match exc with
    | .runtime (some cls) => cls ∈ autoResumableTurnFailureClasses
    | _ => false

/-- `_retry_agent_turn`: the caller says whether the dependency repair was spent and how many
automatic resumes were; both default to none. -/
def retryAgentTurn (prompt : Prompt) (dependencyRepairAttempted : Bool)
    (autoResumeAttempts : Nat) : TurnM AttemptEnd := do
  rollBackTurnNumber
  pure (.reenter ⟨prompt, none, dependencyRepairAttempted, autoResumeAttempts⟩)

/-- `_auto_resume_turn`: the re-entry counts the resume and passes no repair flag on. -/
def autoResumeTurn (prompt : Prompt) (autoResumeAttempts : Nat) : TurnM AttemptEnd := do
  rollBackTurnNumber
  pure (.reenter ⟨prompt, none, false, autoResumeAttempts + 1⟩)

/-- Whether the one repair that a turn may try has resolved the dependencies. -/
def repairWorkspaceDependencies (dependencyRepairAttempted : Bool) (env : AttemptEnv) :
    TurnM Bool :=
  if dependencyRepairAttempted then pure false
  else do
    let repair ← Tx.ofExcept env.repair
    pure repair.resolved

/-- `_recover_runtime_dependency_failure`: the retry passes no count of automatic resumes. A repair
that raises leaves through the handler, past the rollback. -/
def recoverRuntimeDependencyFailure (prompt : Prompt) (dependencyRepairAttempted : Bool)
    (exc : TurnError) (env : AttemptEnv) : TurnM AttemptEnd := do
  if ← repairWorkspaceDependencies dependencyRepairAttempted env then
    retryAgentTurn prompt true 0
  else do
    rollbackUnconsumedTurnNumber
    Tx.raise exc

/-- The exception handler around the attempt. -/
def handleFailure (settings : TurnSettings) (agent : AgentName) (frame : Frame) (prompt : Prompt)
    (env : AttemptEnv) (exc : TurnError) : TurnM AttemptEnd := do
  finishTurn (.failed exc)
  if exc.failureClass = some .runtimeDependencyUnavailable then
    recoverRuntimeDependencyFailure prompt frame.dependencyRepairAttempted exc env
  else
    rotateAgentSession agent env
    let s ← Tx.get
    if shouldAutoResumeTurn settings exc frame.autoResumeAttempts then
      autoResumeTurn prompt frame.autoResumeAttempts
    else if shouldRetryTurn settings exc agent s.turns then
      retryAgentTurn prompt false frame.autoResumeAttempts
    else
      Tx.raise exc

/-- The recovery checkpoint is put into the prompt of a brand-new session only. -/
def recoveryContext (run : RunRecord) (agent : AgentName) (env : AttemptEnv) : TurnM String :=
  if session run agent = none then Tx.ofExcept env.recoveryContext else pure ""

/-- `_run_agent_turn` up to the live session: the recovery text and the session id. -/
def prepareTurn (settings : TurnSettings) (agent : AgentName) (env : AttemptEnv) :
    TurnM (String × String) := do
  let run ← getRun
  checkTurnBudget run
  let run ← maybeRotateTurnHistory settings agent run env
  let recovery ← recoveryContext run agent env
  let sessionId ← Tx.ofExcept env.session
  pure (recovery, sessionId)

/-- `retrieval_query or self._retrieval_query(...)`. -/
def Frame.query (frame : Frame) : RetrievalQuery :=
  match frame.retrievalQuery with
  | some query => if query = "" then .derived frame.prompt else .given query
  | none => .derived frame.prompt

/-- Count the turn, save it as running and retrieve its context. -/
def openTurn (agent : AgentName) (frame : Frame) (sessionId : String) : TurnM Unit := do
  let run ← getRun
  let _ ← replaceRun
    (setSession { run with currentAgent := some agent, turnNumber := run.turnNumber + 1 } agent
      (some sessionId)) run.version
  saveTurn ⟨agent, sessionId, .running⟩
  Tx.modify fun s => { s with queries := frame.query :: s.queries }

/-- What follows a model call that answered with the right kind. From here on a failure is
raised as it is: the completed turn is durable. -/
def completeTurn (returned : TurnKind) : TurnM AttemptEnd := do
  finishTurn .completed
  let current ← getAdvancingRun
  let _ ← replaceRun { current with currentAgent := none } current.version
  let _ ← getAdvancingRun
  pure (.completed returned)

/-- One entry of `_run_agent_turn`. -/
def attempt (settings : TurnSettings) (agent : AgentName) (kind : TurnKind) (frame : Frame)
    (env : AttemptEnv) : TurnM AttemptEnd := do
  let (recovery, sessionId) ← prepareTurn settings agent env
  openTurn agent frame sessionId
  let prompt := composePrompt agent kind frame.prompt recovery env
  match ← Tx.result (callModel agent kind prompt env) with
  | .error exc => handleFailure settings agent frame prompt env exc
  | .ok returned => completeTurn returned

/-! ## The call -/

/-- A top-level call between two attempts, or after its last. -/
inductive TurnConfig where
  | running (frame : Frame) (state : TurnState)
  | done (result : Except TurnError TurnKind) (state : TurnState)

def TurnConfig.state : TurnConfig → TurnState
  | running _ s => s
  | done _ s => s

def TurnConfig.isRunning : TurnConfig → Bool
  | running _ _ => true
  | done _ _ => false

/-- Make the next attempt of a call that has not ended. -/
def stepTurn (settings : TurnSettings) (agent : AgentName) (kind : TurnKind) :
    TurnConfig → AttemptEnv → TurnConfig
  | .done result s, _ => .done result s
  | .running frame s, env =>
    let s := { s with clock := env.clock, interference := env.interference }
    match attempt settings agent kind frame env s with
    | (.ok (.completed returned), s') => .done (.ok returned) s'
    | (.ok (.reenter next), s') => .running next s'
    | (.error exc, s') => .done (.error exc) s'

variable {s : TurnState}

section Slice

variable {store : Store} {runId : String} {row : RunRow}

theorem slice_replaceRun (hStore : RowsInv store) (hRow : store.runs.find runId = some row)
    (hRun : s.run = row.payload) (hQuiet : s.interference = []) {record : RunRecord}
    (hId : record.runId = runId) (expected : Int) :
    ((stepStore store (.replaceRun record expected s.clock)).runs.find runId).map
        (·.payload) = some (replaceRun record expected s).2.run := by
  have hVersion := (hStore.mirrored runId row hRow).2
  have hSlice : (replaceRun record expected s).2.run =
      if s.run.version = expected then
        { record with version := expected + 1, updatedAt := s.clock }
      else s.run := by
    have hSame : s.interfered = s := by
      unfold TurnState.interfered
      rw [hQuiet]
    by_cases hEq : s.run.version = expected
    · simp [replaceRun, Tx.modify, Tx.get, Bind.bind, Tx.bind, Pure.pure, hSame, hEq]
    · simp [replaceRun, Tx.modify, Tx.get, Bind.bind, Tx.bind, Tx.raise, hSame, hEq]
  subst hId
  rw [hSlice, hRun]
  by_cases hEq : row.payload.version = expected
  · have hReturns : Returns (Storage.replaceRun record expected s.clock) store
        { record with version := expected + 1, updatedAt := s.clock }
        (store.setRun record.runId
          { record with version := expected + 1, updatedAt := s.clock }) := by
      simp only [Storage.replaceRun, returns_atomically, returns_bind, writeRun_returns,
        returns_pure]
      exact ⟨(), _, ⟨⟨row, hRow, hVersion.trans hEq⟩, rfl⟩, trivial, rfl⟩
    have hCall : Returns (StoreOp.replaceRun record expected s.clock).call store () _ :=
      returns_bind.mpr ⟨_, _, hReturns, returns_pure.mpr ⟨rfl, rfl⟩⟩
    have hStep : stepStore store (.replaceRun record expected s.clock) = _ :=
      congrArg Prod.snd hCall
    rw [hStep, Store.find_setRun_self, hRow, if_pos hEq]
    rfl
  · rcases stepStore_cases store (.replaceRun record expected s.clock) with hSame | hEffect
    · rw [hSame, hRow, if_neg hEq]
      rfl
    · exfalso
      generalize stepStore store _ = store' at hEffect
      cases hEffect with
      | replaceRun hFound hMatch =>
        rw [hRow] at hFound
        cases hFound
        exact hEq (hVersion.symm.trans hMatch)

theorem slice_transition (hRow : store.runs.find runId = some row)
    (hVersion : row.version = row.payload.version) (hRun : s.run = row.payload)
    (hQuiet : s.interference = []) (target : RunState) (source : String) (payload : Payload)
    (updates : RunUpdates) :
    ((stepStore store (.transitionRun runId target source payload updates s.clock)).runs.find
        runId).map (·.payload) = some (transition target updates s).2.run := by
  have hSame : s.interfered = s := by
    unfold TurnState.interfered
    rw [hQuiet]
  have hRecord : transitioned row target updates s.clock =
      transitioned (Store.inserted s.run) target updates s.clock := by
    unfold transitioned
    rw [hVersion, hRun]
    rfl
  cases hValid : validTransition row.payload.state target with
  | true =>
    have hStep := stepStore_transition_of_valid (c := ⟨target, source, payload, updates, s.clock⟩)
      hRow hValid
    unfold TransitionCall.op at hStep
    rw [hStep, Store.log_runs, Store.find_setRun_self, hRow, hRecord]
    simp [transition, Tx.modify, Tx.get, Bind.bind, Tx.bind, hSame, hRun, hValid,
      Store.rewritten]
  | false =>
    have hStep := stepStore_transition_of_invalid
      (c := ⟨target, source, payload, updates, s.clock⟩) hRow hValid
    unfold TransitionCall.op at hStep
    rw [hStep, hRow]
    simp [transition, Tx.modify, Tx.get, Bind.bind, Tx.bind, Tx.raise, hSame, hRun, hValid]

end Slice

section Quiet

variable {α : Type} {E : TurnError → TurnState → Prop}

theorem interfered_of_quiet (hQuiet : s.interference = []) : s.interfered = s := by
  unfold TurnState.interfered
  rw [hQuiet]

variable {Q : RunRecord → TurnState → Prop}

theorem wp_getRun (hQuiet : s.interference = []) :
    wp getRun Q E s ↔ Q s.run s := by
  unfold getRun
  rw [wp_bind, wp_modify, interfered_of_quiet hQuiet, wp_bind, wp_get, wp_pure]

def written (s : TurnState) (record : RunRecord) : RunRecord :=
  { record with version := s.run.version + 1, updatedAt := s.clock }

theorem wp_replaceRun (hQuiet : s.interference = []) {record : RunRecord}
    :
    wp (replaceRun record s.run.version) Q E s ↔
      Q (written s record) { s with run := written s record } := by
  unfold replaceRun
  rw [wp_bind, wp_modify, interfered_of_quiet hQuiet, wp_bind, wp_get, wp_ite]
  simp only [not_true_eq_false, false_implies, and_true, forall_const]
  exact wp_bind

theorem wp_transition (hQuiet : s.interference = []) {target : RunState} {updates : RunUpdates}
    {Q : Unit → TurnState → Prop} :
    wp (transition target updates) Q E s ↔
      (validTransition s.run.state target = true →
        Q () { s with run := transitioned (Store.inserted s.run) target updates s.clock }) ∧
      (¬ validTransition s.run.state target = true →
        E (.invalidTransition s.run.state target) s) := by
  unfold transition
  rw [wp_bind, wp_modify, interfered_of_quiet hQuiet, wp_bind, wp_get, wp_ite]
  rfl

def Halted (state : RunState) : Prop := state = .paused ∨ state ∈ terminalStates

theorem wp_getAdvancingRun (hQuiet : s.interference = []) :
    wp getAdvancingRun Q E s ↔
      (Halted s.run.state → E (stopped s.run.state) s) ∧ (¬ Halted s.run.state → Q s.run s) := by
  unfold getAdvancingRun Halted
  rw [wp_bind, wp_getRun hQuiet, wp_ite]
  rfl

def rotated (s : TurnState) (agent : AgentName) : TurnState :=
  { s with run := written s (setSession { s.run with currentAgent := none } agent none) }

theorem wp_rotateAgentSession (hQuiet : s.interference = []) {agent : AgentName}
    {env : AttemptEnv} {Q : Unit → TurnState → Prop} :
    wp (rotateAgentSession agent env) Q E s ↔
      (env.checkpointError = none → Q () (rotated s agent)) ∧
        ∀ message, env.checkpointError = some message → E (.other message) (rotated s agent) := by
  unfold rotateAgentSession rotated
  rw [wp_bind, wp_getRun hQuiet, wp_bind, wp_replaceRun hQuiet]
  cases env.checkpointError with
  | none => simp [wp_pure]
  | some message => simp [wp_raise]

theorem wp_rollBackTurnNumber (hQuiet : s.interference = []) {Q : Unit → TurnState → Prop} :
    wp rollBackTurnNumber Q E s ↔
      (Halted s.run.state → E (stopped s.run.state) s) ∧
      (¬ Halted s.run.state → Q () { s with
        run := written s { s.run with turnNumber := s.run.turnNumber - 1 } }) := by
  unfold rollBackTurnNumber
  rw [wp_bind, wp_getAdvancingRun hQuiet, wp_bind, wp_replaceRun hQuiet]
  rfl

end Quiet

/-- The repair raises, or it succeeds and the turn is retried, or the failure is raised. -/
theorem wp_recoverRuntimeDependencyFailure {E : TurnError → TurnState → Prop} {prompt : Prompt}
    {attempted : Bool} {exc : TurnError} {env : AttemptEnv} {Q : AttemptEnd → TurnState → Prop} :
    wp (recoverRuntimeDependencyFailure prompt attempted exc env) Q E s ↔
      (attempted = false → ∀ raised, env.repair = .error raised → E raised s) ∧
      (attempted = false → env.repaired = true → wp (retryAgentTurn prompt true 0) Q E s) ∧
      ((attempted = true ∨ ∃ status, env.repair = .ok status ∧ status.resolved = false) →
        wp (do rollbackUnconsumedTurnNumber; Tx.raise exc : TurnM AttemptEnd) Q E s) := by
  unfold recoverRuntimeDependencyFailure repairWorkspaceDependencies AttemptEnv.repaired
  cases attempted with
  | true => simp [wp_bind, wp_pure]
  | false =>
    cases env.repair with
    | error raised => simp [wp_bind, wp_ofExcept, Except.toOption]
    | ok status =>
      cases hResolved : status.resolved <;>
        simp [wp_bind, wp_ofExcept, wp_pure, Except.toOption, hResolved]

section Beside

variable {γ : Type} {g : TurnState → γ} {settings : TurnSettings} {agent : AgentName}

/-- A part of the state beside the record of the run and its other writers. -/
def BesideRun (g : TurnState → γ) : Prop :=
  ∀ s run interference, g { s with run := run, interference := interference } = g s

section

variable (hg : BesideRun g)
include hg

theorem BesideRun.interfered (s : TurnState) : g s.interfered = g s := by
  unfold TurnState.interfered
  split
  · rfl
  · exact hg s _ _

theorem keeps_getRun : Keeps g getRun :=
  (Keeps.modify hg.interfered).bind fun _ => Keeps.get.bind fun s => .pure s.run

theorem wp_getRun_keeps (s : TurnState) :
    wp getRun (fun _ s' => g s' = g s) (fun _ _ => False) s := by
  unfold getRun
  exact hg.interfered s

theorem keeps_replaceRun (record : RunRecord) (expected : Int) :
    Keeps g (replaceRun record expected) := by
  refine (Keeps.modify hg.interfered).bind fun _ => Keeps.get.bind fun s => ?_
  refine Keeps.ite ?_ (.raise _)
  exact Keeps.bind (.modify fun s => hg s _ _) fun _ => .pure _

theorem keeps_transition (target : RunState) (updates : RunUpdates) :
    Keeps g (transition target updates) := by
  refine (Keeps.modify hg.interfered).bind fun _ => Keeps.get.bind fun s => ?_
  exact Keeps.ite (.modify fun s => hg s _ _) (.raise _)

theorem keeps_getAdvancingRun : Keeps g getAdvancingRun :=
  (keeps_getRun hg).bind fun _ => Keeps.ite (.raise _) (.pure _)

theorem keeps_pauseRun : Keeps g pauseRun := by
  refine (keeps_getRun hg).bind fun run => Keeps.ite (.pure _) ?_
  exact Keeps.get.bind fun s => keeps_transition hg _ _

theorem keeps_checkTurnBudget (run : RunRecord) :
    Keeps g (checkTurnBudget run) := by
  refine Keeps.get.bind fun s => Keeps.ite ?_ (Keeps.ite ?_ (.pure _))
  · exact (keeps_transition hg _ _).bind fun _ => .raise _
  · exact (keeps_transition hg _ _).bind fun _ => .raise _

theorem keeps_rotateAgentSession (env : AttemptEnv) :
    Keeps g (rotateAgentSession agent env) := by
  refine (keeps_getRun hg).bind fun current => (keeps_replaceRun hg _ _).bind fun _ => ?_
  cases env.checkpointError with
  | none => exact .pure _
  | some message => exact .raise _

theorem keeps_maybeRotateTurnHistory (run : RunRecord) (env : AttemptEnv) :
    Keeps g (maybeRotateTurnHistory settings agent run env) := by
  refine Keeps.ite (.pure _) (Keeps.ite (.pure _) (Keeps.ite ?_ (Keeps.ite ?_
    (Keeps.ite (.pure _) ?_))))
  · exact Keeps.ite (keeps_replaceRun hg _ _) (.pure _)
  · exact (keeps_rotateAgentSession hg env).bind fun _ =>
      (keeps_pauseRun hg).bind fun _ => .raise _
  · exact (keeps_rotateAgentSession hg env).bind fun _ => (keeps_getRun hg).bind fun _ =>
      (keeps_replaceRun hg _ _).bind fun _ => keeps_getRun hg

theorem keeps_prepareTurn (env : AttemptEnv) :
    Keeps g (prepareTurn settings agent env) := by
  refine (keeps_getRun hg).bind fun run => (keeps_checkTurnBudget hg run).bind fun _ => ?_
  refine (keeps_maybeRotateTurnHistory hg run env).bind fun run => ?_
  refine Keeps.bind (Keeps.ite (.ofExcept _) (.pure _)) fun recovery => ?_
  exact (Keeps.ofExcept _).bind fun sessionId => .pure _

theorem keeps_rollBackTurnNumber : Keeps g rollBackTurnNumber :=
  (keeps_getAdvancingRun hg).bind fun _ => (keeps_replaceRun hg _ _).bind fun _ => .pure _

theorem keeps_rollbackUnconsumedTurnNumber :
    Keeps g rollbackUnconsumedTurnNumber := by
  refine (keeps_getRun hg).bind fun current => Keeps.ite (.pure _) (Keeps.ite (.pure _) ?_)
  exact (keeps_replaceRun hg _ _).bind fun _ => .pure _

theorem keeps_retryAgentTurn (prompt : Prompt) (attempted : Bool) (attempts : Nat) :
    Keeps g (retryAgentTurn prompt attempted attempts) :=
  (keeps_rollBackTurnNumber hg).bind fun _ => .pure _

theorem keeps_recoverRuntimeDependencyFailure (prompt : Prompt) (attempted : Bool)
    (exc : TurnError) (env : AttemptEnv) :
    Keeps g (recoverRuntimeDependencyFailure prompt attempted exc env) := by
  have hRepair : Keeps g (repairWorkspaceDependencies attempted env) :=
    Keeps.ite (.pure _) ((Keeps.ofExcept _).bind fun _ => .pure _)
  refine hRepair.bind fun _ => ?_
  refine Keeps.ite (keeps_retryAgentTurn hg _ _ _) ?_
  exact (keeps_rollbackUnconsumedTurnNumber hg).bind fun _ => .raise _

variable (hTurns : ∀ s turns, g { s with turns := turns } = g s)
include hTurns

omit hg in
theorem keeps_finishTurn (status : TurnStatus) : Keeps g (finishTurn status) := by
  refine Keeps.modify fun s => ?_
  cases s.turns with
  | nil => rfl
  | cons turn rest => exact hTurns s _

theorem keeps_handleFailure (frame : Frame) (prompt : Prompt) (env : AttemptEnv)
    (exc : TurnError) : Keeps g (handleFailure settings agent frame prompt env exc) := by
  refine (keeps_finishTurn hTurns _).bind fun _ => Keeps.ite ?_ ?_
  · exact keeps_recoverRuntimeDependencyFailure hg _ _ _ _
  · refine (keeps_rotateAgentSession hg env).bind fun _ => Keeps.get.bind fun s => Keeps.ite ?_ ?_
    · exact (keeps_rollBackTurnNumber hg).bind fun _ => .pure _
    · exact Keeps.ite (keeps_retryAgentTurn hg _ _ _) (.raise _)

end

end Beside

end Glasslab.Engine.AgentTurn
