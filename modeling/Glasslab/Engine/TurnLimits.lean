import Glasslab.Engine.AgentTurn

/-!
# How many attempts one logical turn starts

Each of the three recovery mechanisms has a bound of its own: one dependency repair per
`dependency_repair_attempted` flag, `agent_turn_timeout_auto_resume_limit` resumes counted in
an argument, and `agent_turn_max_retries` retries counted from the stored failed turns. The
re-entry of each mechanism drops what it does not own: an automatic resume forgets that the
repair was spent, and the retry after a repair starts the count of resumes again. A
dependency failure whose repair succeeds and a turn timeout can therefore take turns for
ever, unless automatic resume is switched off.
-/

namespace Glasslab.Engine.AgentTurn

open Foundation Foundation.Tx Foundation.Machine Storage

variable {settings : TurnSettings} {agent : AgentName} {kind : TurnKind}

/-! ## What a re-entry says about its attempt -/

section Turns

variable {s : TurnState} {env : AttemptEnv}

def KeepsTurns {α : Type} (t : TurnM α) : Prop :=
  ∀ s, wp t (fun _ s' => s'.turns = s.turns) (fun _ s' => s'.turns = s.turns) s

theorem turns_besideRun : BesideRun TurnState.turns := fun _ _ _ => rfl

theorem keepsTurns_replaceRun (record : RunRecord) (expected : Int) :
    KeepsTurns (replaceRun record expected) := keeps_replaceRun turns_besideRun record expected

/-- The model call of the attempt fails with a broken dependency tree. -/
def AttemptEnv.DependencyFailure (env : AttemptEnv) (kind : TurnKind) : Prop :=
  (∃ exc, env.reply = .error exc ∧ exc.failureClass = some .runtimeDependencyUnavailable) ∨
    ∃ returned exc, env.reply = .ok returned ∧ returned ≠ kind ∧ env.correctedReply = .error exc ∧
      exc.failureClass = some .runtimeDependencyUnavailable

instance (env : AttemptEnv) (kind : TurnKind) : Decidable (env.DependencyFailure kind) :=
  decidable_of_iff
    ((match env.reply, env.correctedReply with
      | .error exc, _ => decide (exc.failureClass = some .runtimeDependencyUnavailable)
      | .ok returned, .error exc =>
        decide (returned ≠ kind ∧ exc.failureClass = some .runtimeDependencyUnavailable)
      | .ok _, .ok _ => false) = true)
    (by
      unfold AttemptEnv.DependencyFailure
      cases env.reply <;> cases env.correctedReply <;> simp)

theorem callModel_dependencyFailure (prompt : Prompt) (env : AttemptEnv) (s : TurnState) :
    wp (callModel agent kind prompt env) (fun _ s' => s'.turns = s.turns)
      (fun exc s' => s'.turns = s.turns ∧
        (exc.failureClass = some .runtimeDependencyUnavailable → env.DependencyFailure kind))
    s := by
  unfold callModel getAdvancingRun
  rw [wp_bind]
  refine wp_step (wp_getRun_keeps turns_besideRun s) (fun current s₁ h₁ => ?_) (fun _ _ h => h.elim)
  rw [wp_ite]
  refine ⟨fun _ => ⟨h₁, ?_⟩, fun _ => ?_⟩
  · intro h
    cases h
  · rw [wp_pure, send, wp_bind, wp_modify, wp_bind, wp_ofExcept]
    refine ⟨fun returned hReply => ?_, fun exc hReply => ⟨h₁, fun hDep => .inl ⟨exc, hReply, hDep⟩⟩⟩
    rw [wp_ite]
    refine ⟨fun _ => h₁, fun hKind => ?_⟩
    rw [send, wp_bind, wp_modify, wp_bind, wp_ofExcept]
    refine ⟨fun corrected _ => ?_, fun exc hCorrected => ⟨h₁, fun hDep => ?_⟩⟩
    · rw [wp_ite]
      refine ⟨fun _ => h₁, fun _ => ⟨h₁, ?_⟩⟩
      intro h
      cases h
    · exact .inr ⟨returned, exc, hReply, hKind, hCorrected, hDep⟩

/-- The three ways an attempt can hand over to the next one. -/
inductive Reentry (settings : TurnSettings) (agent : AgentName) (kind : TurnKind) (frame : Frame)
    (env : AttemptEnv) (turns' : List TurnRecord) (next : Frame) : Prop where
  | repaired (hFailure : env.DependencyFailure kind) (hResolved : env.repaired = true)
      (hFlag : frame.dependencyRepairAttempted = false)
      (hNext : next.dependencyRepairAttempted = true ∧ next.autoResumeAttempts = 0)
  | resumed
      (hLimit : (frame.autoResumeAttempts : Int) < settings.agentTurnTimeoutAutoResumeLimit)
      (hNext : next.dependencyRepairAttempted = false ∧
        next.autoResumeAttempts = frame.autoResumeAttempts + 1)
  | retried (hLimit : (failedTurns agent turns' : Int) ≤ settings.agentTurnMaxRetries)
      (hNext : next.dependencyRepairAttempted = false ∧
        next.autoResumeAttempts = frame.autoResumeAttempts)

/-- A re-entry leaves one more failed turn of the agent. -/
def ReentrySpec (settings : TurnSettings) (agent : AgentName) (kind : TurnKind) (frame : Frame)
    (env : AttemptEnv) (turns : List TurnRecord) : AttemptEnd → TurnState → Prop
  | .completed _, _ => True
  | .reenter next, s' =>
    failedTurns agent s'.turns = failedTurns agent turns + 1 ∧
      Reentry settings agent kind frame env s'.turns next

variable {turns : List TurnRecord}

theorem rollBack_reenter {frame next : Frame}
    (hCount : failedTurns agent s.turns = failedTurns agent turns + 1)
    (hReentry : Reentry settings agent kind frame env s.turns next) :
    wp (do rollBackTurnNumber; pure (.reenter next) : TurnM AttemptEnd)
      (ReentrySpec settings agent kind frame env turns) (fun _ _ => True) s := by
  refine wp_step (keeps_rollBackTurnNumber turns_besideRun s)
    (fun _ s' hTurns => ?_) (fun _ _ _ => trivial)
  show failedTurns agent s'.turns = _ ∧ Reentry settings agent kind frame env s'.turns next
  rw [hTurns]
  exact ⟨hCount, hReentry⟩

theorem shouldAutoResumeTurn_limit {exc : TurnError} {attempts : Nat}
    (h : shouldAutoResumeTurn settings exc attempts = true) :
    (attempts : Int) < settings.agentTurnTimeoutAutoResumeLimit := by
  unfold shouldAutoResumeTurn at h
  by_cases hLimit : settings.agentTurnTimeoutAutoResumeLimit ≤ 0 ∨
      settings.agentTurnTimeoutAutoResumeLimit ≤ attempts
  · simp [hLimit] at h
  · omega

theorem handleFailure_reentry {frame : Frame} {prompt : Prompt} {exc : TurnError}
    {sessionId : String}
    (hTurns : s.turns = ⟨agent, sessionId, .running⟩ :: turns)
    (hDependency : exc.failureClass = some .runtimeDependencyUnavailable →
      env.DependencyFailure kind) :
    wp (handleFailure settings agent frame prompt env exc)
      (ReentrySpec settings agent kind frame env turns) (fun _ _ => True) s := by
  unfold handleFailure finishTurn
  rw [wp_bind, wp_modify, hTurns]
  have hCount : failedTurns agent (⟨agent, sessionId, .failed exc⟩ :: turns) =
      failedTurns agent turns + 1 := by
    simp [failedTurns, TurnRecord.isFailed]
  rw [wp_ite]
  refine ⟨fun hClass => ?_, fun _ => ?_⟩
  · rw [wp_recoverRuntimeDependencyFailure]
    refine ⟨fun _ _ _ => trivial, fun hFlag hRepaired => ?_, fun _ => ?_⟩
    · exact rollBack_reenter hCount (.repaired (hDependency hClass) hRepaired hFlag ⟨rfl, rfl⟩)
    · -- without a successful repair the failure is raised, not retried
      refine wp_step (Q := fun _ _ => True) (E := fun _ _ => True) ?_ (fun _ _ _ => trivial)
        (fun _ _ _ => trivial)
      unfold wp
      split <;> trivial
  · refine wp_step (keeps_rotateAgentSession turns_besideRun env _) (fun _ s₁ hs₁ => ?_)
      (fun _ _ _ => trivial)
    rw [wp_bind, wp_get, wp_ite]
    refine ⟨fun hResume => ?_, fun _ => ?_⟩
    · refine rollBack_reenter (by rw [hs₁]; exact hCount) (.resumed ?_ ⟨rfl, rfl⟩)
      exact shouldAutoResumeTurn_limit hResume
    · rw [wp_ite]
      refine ⟨fun hRetry => ?_, fun _ => trivial⟩
      refine rollBack_reenter (by rw [hs₁]; exact hCount) (.retried ?_ ⟨rfl, rfl⟩)
      simp only [shouldRetryTurn, decide_eq_true_eq] at hRetry
      exact hRetry.2

theorem openTurn_turns (frame : Frame) (sessionId : String) :
    wp (openTurn agent frame sessionId)
      (fun _ s' => s'.turns = ⟨agent, sessionId, .running⟩ :: s.turns) (fun _ _ => True) s := by
  refine wp_step (keeps_getRun turns_besideRun s) (fun run s₁ h₁ => ?_) (fun _ _ _ => trivial)
  refine wp_step (keepsTurns_replaceRun _ _ s₁) (fun _ s₂ h₂ => ?_) (fun _ _ _ => trivial)
  rw [saveTurn, wp_bind, wp_modify, wp_modify, h₂, h₁]

theorem completeTurn_completed (returned : TurnKind) :
    wp (completeTurn returned) (fun r _ => r = .completed returned) (fun _ _ => True) s := by
  unfold completeTurn
  rw [wp_bind, finishTurn, wp_modify]
  refine wp_step (keeps_getAdvancingRun turns_besideRun _)
    (fun current s₁ _ => ?_) (fun _ _ _ => trivial)
  refine wp_step (keepsTurns_replaceRun _ _ s₁) (fun _ s₂ _ => ?_) (fun _ _ _ => trivial)
  exact wp_step (keeps_getAdvancingRun turns_besideRun s₂) (fun _ _ _ => rfl) (fun _ _ _ => trivial)

/-- One attempt, seen from the bounds on re-entry. -/
theorem attempt_reentry (frame : Frame) (env : AttemptEnv) (s : TurnState) :
    wp (attempt settings agent kind frame env)
      (ReentrySpec settings agent kind frame env s.turns) (fun _ _ => True) s := by
  refine wp_step (keeps_prepareTurn turns_besideRun env s)
    (fun p s₁ h₁ => ?_) (fun _ _ _ => trivial)
  obtain ⟨recovery, sessionId⟩ := p
  refine wp_step (openTurn_turns frame sessionId) (fun _ s₂ h₂ => ?_) (fun _ _ _ => trivial)
  rw [wp_bind, wp_result]
  refine wp_mono (callModel_dependencyFailure _ env s₂) (fun returned s₃ _ => ?_)
    (fun exc s₃ h₃ => ?_)
  · refine wp_mono (completeTurn_completed returned) ?_ (fun _ _ _ => trivial)
    rintro r s' rfl
    trivial
  · have hTurns : s₃.turns = ⟨agent, sessionId, .running⟩ :: s.turns := by rw [h₃.1, h₂, h₁]
    exact handleFailure_reentry hTurns h₃.2

end Turns

/-! ## The bound -/

/-- The entries of `_run_agent_turn` that a call makes on a stream of answers. -/
def attempts (settings : TurnSettings) (agent : AgentName) (kind : TurnKind) :
    TurnConfig → List AttemptEnv → Nat
  | _, [] => 0
  | c, env :: envs =>
    (if c.isRunning then 1 else 0) + attempts settings agent kind
      (stepTurn settings agent kind c env) envs

/-- One first attempt, one after a dependency repair, and the two configured limits. -/
def attemptLimit (settings : TurnSettings) : Nat :=
  1 + 1 + settings.agentTurnTimeoutAutoResumeLimit.toNat + settings.agentTurnMaxRetries.toNat

/-- The call starts no more attempts than the limit, and has ended after that many. -/
def Bounded (settings : TurnSettings) (agent : AgentName) (kind : TurnKind) (frame : Frame)
    (s : TurnState) (envs : List AttemptEnv) : Prop :=
  attempts settings agent kind (.running frame s) envs ≤ attemptLimit settings ∧
    (attemptLimit settings ≤ envs.length →
      (exec (stepTurn settings agent kind) (.running frame s) envs).isRunning = false)

def NoRepairAfterResume (kind : TurnKind) : TurnConfig → AttemptEnv → Prop
  | .running frame _, env =>
    0 < frame.autoResumeAttempts → ¬ (env.DependencyFailure kind ∧ env.repaired = true)
  | .done _ _, _ => True

instance (kind : TurnKind) : ∀ c env, Decidable (NoRepairAfterResume kind c env)
  | .running frame _, env =>
    inferInstanceAs (Decidable (0 < frame.autoResumeAttempts →
      ¬ (env.DependencyFailure kind ∧ env.repaired = true)))
  | .done _ _, _ => .isTrue trivial

/-- The re-entries that are left: resumes, retries, and the repair, which a retry renews. -/
def budget (settings : TurnSettings) (agent : AgentName) (frame : Frame)
    (turns : List TurnRecord) : Nat :=
  (settings.agentTurnTimeoutAutoResumeLimit - frame.autoResumeAttempts).toNat +
    (settings.agentTurnMaxRetries - failedTurns agent turns).toNat +
    if frame.autoResumeAttempts = 0 ∧ (frame.dependencyRepairAttempted = false ∨
        (failedTurns agent turns : Int) < settings.agentTurnMaxRetries) then 1 else 0

variable {frame : Frame} {env : AttemptEnv} {next : Frame}

theorem Reentry.budget_lt {turns turns' : List TurnRecord}
    (h : Reentry settings agent kind frame env turns' next)
    (hCount : failedTurns agent turns' = failedTurns agent turns + 1)
    (hRepair : 0 < frame.autoResumeAttempts →
      ¬ (env.DependencyFailure kind ∧ env.repaired = true)) :
    budget settings agent next turns' < budget settings agent frame turns := by
  unfold budget
  cases h with
  | repaired hFailure hResolved hFlag hNext =>
    have hZero : frame.autoResumeAttempts = 0 := by
      by_contra hne
      exact hRepair (by omega) ⟨hFailure, hResolved⟩
    split_ifs <;> simp_all <;> omega
  | resumed hLimit hNext =>
    split_ifs <;> simp_all <;> omega
  | retried hLimit hNext =>
    split_ifs <;> simp_all <;> omega

/-- What a step that does not end the call says about its attempt. -/
theorem stepTurn_reentry {s s' : TurnState}
    (h : stepTurn settings agent kind (.running frame s) env = .running next s') :
    failedTurns agent s'.turns = failedTurns agent s.turns + 1 ∧
      Reentry settings agent kind frame env s'.turns next := by
  have hSpec : wp (attempt settings agent kind frame env)
      (ReentrySpec settings agent kind frame env s.turns) (fun _ _ => True)
      { s with clock := env.clock, interference := env.interference } :=
    attempt_reentry frame env _
  unfold wp at hSpec
  simp only [stepTurn] at h
  rcases hAttempt : attempt settings agent kind frame env
    { s with clock := env.clock, interference := env.interference } with ⟨exc | r, s₁⟩
  · rw [hAttempt] at h
    cases h
  · rw [hAttempt] at h hSpec
    cases r with
    | completed returned => cases h
    | reenter next₁ =>
      cases h
      exact hSpec

theorem attempts_done (result : Except TurnError TurnKind) (s : TurnState)
    (envs : List AttemptEnv) : attempts settings agent kind (.done result s) envs = 0 := by
  induction envs with
  | nil => rfl
  | cons env envs ih => simpa [attempts, TurnConfig.isRunning, stepTurn] using ih

theorem exec_done (result : Except TurnError TurnKind) (s : TurnState) (envs : List AttemptEnv) :
    exec (stepTurn settings agent kind) (.done result s) envs = .done result s := by
  induction envs with
  | nil => rfl
  | cons env envs ih => simpa [stepTurn] using ih

variable {s : TurnState}

/-- A call makes at most one attempt more than its budget of re-entries. -/
theorem attempts_le_budget {envs : List AttemptEnv}
    (h : Along (stepTurn settings agent kind) (NoRepairAfterResume kind) (.running frame s) envs) :
    attempts settings agent kind (.running frame s) envs ≤ budget settings agent frame s.turns + 1 ∧
      (budget settings agent frame s.turns + 1 ≤ envs.length →
        (exec (stepTurn settings agent kind) (.running frame s) envs).isRunning = false) := by
  induction envs generalizing frame s with
  | nil => exact ⟨Nat.zero_le _, fun hLength => by simp at hLength⟩
  | cons env envs ih =>
    obtain ⟨hRepair, hRest⟩ := h
    rw [exec_cons]
    simp only [attempts, TurnConfig.isRunning, if_true, List.length_cons]
    cases hStep : stepTurn settings agent kind (.running frame s) env with
    | done result s₁ =>
      rw [attempts_done, exec_done]
      exact ⟨by omega, fun _ => rfl⟩
    | running next s₁ =>
      rw [hStep] at hRest
      obtain ⟨hCount, hReentry⟩ := stepTurn_reentry hStep
      have hLess := hReentry.budget_lt hCount hRepair
      obtain ⟨hAttempts, hEnded⟩ := ih hRest
      exact ⟨by omega, fun hLength => hEnded (by omega)⟩

theorem budget_initial (prompt : String) (query : Option String) (turns : List TurnRecord) :
    budget settings agent (Frame.initial prompt query) turns + 1 ≤ attemptLimit settings := by
  unfold budget attemptLimit Frame.initial
  split_ifs <;> simp <;> omega

theorem along_done {P : TurnConfig → AttemptEnv → Prop} {result : Except TurnError TurnKind}
    (hP : ∀ env, P (.done result s) env) (envs : List AttemptEnv) :
    Along (stepTurn settings agent kind) P (.done result s) envs := by
  induction envs with
  | nil => trivial
  | cons env envs ih => exact ⟨hP env, ih⟩

theorem noRepairAfterResume_of_disabled (hLimit : settings.agentTurnTimeoutAutoResumeLimit ≤ 0)
    (hFrame : frame.autoResumeAttempts = 0)
    (envs : List AttemptEnv) :
    Along (stepTurn settings agent kind) (NoRepairAfterResume kind) (.running frame s) envs := by
  induction envs generalizing frame s with
  | nil => trivial
  | cons env envs ih =>
    refine ⟨fun hPos => by omega, ?_⟩
    cases hStep : stepTurn settings agent kind (.running frame s) env with
    | done result s₁ => exact along_done (fun _ => trivial) envs
    | running next s₁ =>
      obtain ⟨_, hReentry⟩ := stepTurn_reentry hStep
      refine ih ?_
      cases hReentry with
      | repaired _ _ _ hNext => exact hNext.2
      | resumed hResumed _ => omega
      | retried _ hNext => rw [hNext.2, hFrame]

/-! ## The loop -/

/-- A run on which a quiet attempt reaches the model call. -/
structure Healthy (n : Nat) (s : TurnState) : Prop where
  quiet : s.interference = []
  advancing : ¬ Halted s.run.state
  number : s.run.turnNumber = n
  maximum : s.run.maximumTurns = 20
  stoppedClock : s.run.activeSince = none
  unused : s.run.activeRuntimeSeconds = 0
  unrotated : s.run.sessionRotationCount = 0

theorem Healthy.write {n m : Nat} (h : Healthy n s) {record : RunRecord}
    (hState : record.state = s.run.state) (hNumber : record.turnNumber = m)
    (hMaximum : record.maximumTurns = s.run.maximumTurns)
    (hClock : record.activeSince = s.run.activeSince)
    (hRuntime : record.activeRuntimeSeconds = s.run.activeRuntimeSeconds)
    (hRotations : record.sessionRotationCount = s.run.sessionRotationCount) :
    Healthy m { s with run := written s record } where
  quiet := h.quiet
  advancing := by
    show ¬ Halted record.state
    rw [hState]
    exact h.advancing
  number := hNumber
  maximum := hMaximum.trans h.maximum
  stoppedClock := hClock.trans h.stoppedClock
  unused := hRuntime.trans h.unused
  unrotated := hRotations.trans h.unrotated

theorem setSession_fields (run : RunRecord) (agent : AgentName) (sessionId : Option String) :
    (setSession run agent sessionId).state = run.state ∧
      (setSession run agent sessionId).turnNumber = run.turnNumber ∧
      (setSession run agent sessionId).maximumTurns = run.maximumTurns ∧
      (setSession run agent sessionId).activeSince = run.activeSince ∧
      (setSession run agent sessionId).activeRuntimeSeconds = run.activeRuntimeSeconds ∧
      (setSession run agent sessionId).sessionRotationCount = run.sessionRotationCount := by
  unfold setSession
  split <;> simp

/-- The model call fails with the given class; every repair succeeds. -/
def failingEnv (cls : FailureClass) : AttemptEnv where
  clock := 0
  interference := []
  contextTokens := 0
  recoveryContext := .ok ""
  session := .ok "session"
  context := none
  advisory := none
  reply := .error (.runtime (some cls))
  correctedReply := .error (.runtime (some cls))
  checkpointError := none
  repair := .ok .repaired

theorem prepareTurn_healthy (h : Healthy 0 s) (cls : FailureClass) :
    wp (prepareTurn settings agent (failingEnv cls)) (fun p s' => p.2 = "session" ∧ s' = s)
      (fun _ _ => False) s := by
  unfold prepareTurn
  rw [wp_bind, wp_getRun h.quiet, wp_bind]
  have hBudget : wp (checkTurnBudget s.run) (fun _ s' => s' = s) (fun _ _ => False) s := by
    unfold checkTurnBudget
    rw [wp_bind, wp_get, wp_ite, wp_ite]
    refine ⟨fun hTurns => ?_, fun _ => ⟨fun hRuntime => ?_, fun _ => rfl⟩⟩
    · rw [h.number, h.maximum] at hTurns
      omega
    · simp only [RunRecord.openInterval, h.unused, h.stoppedClock, add_zero] at hRuntime
      exact (not_le_of_gt hRuntime (Nat.cast_nonneg _)).elim
  have hRotate : ∀ run, run.sessionRotationCount = 0 →
      wp (maybeRotateTurnHistory settings agent run (failingEnv cls)) (fun _ s' => s' = s)
        (fun _ _ => False) s := by
    intro run hRotations
    unfold maybeRotateTurnHistory
    rw [wp_ite]
    refine ⟨fun _ => rfl, fun hThreshold => ?_⟩
    rw [wp_ite]
    refine ⟨fun _ => rfl, fun _ => ?_⟩
    have hBelow : (failingEnv cls).contextTokens < settings.turnHistoryRotationTokenThreshold :=
      Nat.pos_of_ne_zero hThreshold
    rw [if_pos hBelow, if_neg (by omega)]
    rfl
  refine wp_mono hBudget (fun _ s₁ h₁ => ?_) (fun _ _ hFalse => hFalse)
  subst h₁
  refine wp_step (hRotate s₁.run h.unrotated) (fun run₂ s₂ h₂ => ?_) (fun _ _ hFalse => hFalse)
  subst h₂
  have hRecovery : wp (recoveryContext run₂ agent (failingEnv cls)) (fun _ s' => s' = s₂)
      (fun _ _ => False) s₂ := by
    unfold recoveryContext
    rw [wp_ite]
    exact ⟨fun _ => rfl, fun _ => rfl⟩
  refine wp_step hRecovery (fun recovery s₃ h₃ => ?_) (fun _ _ hFalse => hFalse)
  subst h₃
  exact ⟨rfl, rfl⟩

theorem openTurn_healthy (h : Healthy 0 s) (frame : Frame) (sessionId : String) :
    wp (openTurn agent frame sessionId) (fun _ s' => Healthy 1 s') (fun _ _ => False) s := by
  obtain ⟨hState, hNumber, hMaximum, hClock, hRuntime, hRotations⟩ := setSession_fields
    { s.run with currentAgent := some agent, turnNumber := s.run.turnNumber + 1 } agent
    (some sessionId)
  have hCounted := h.write hState (by rw [hNumber, h.number]) hMaximum hClock hRuntime hRotations
  unfold openTurn
  rw [wp_bind, wp_getRun h.quiet, wp_bind, wp_replaceRun h.quiet, saveTurn, wp_bind, wp_modify,
    wp_modify]
  exact ⟨hCounted.quiet, hCounted.advancing, hCounted.number, hCounted.maximum,
    hCounted.stoppedClock, hCounted.unused, hCounted.unrotated⟩

theorem callModel_healthy (h : Healthy 1 s) (cls : FailureClass)
    (prompt : Prompt) :
    wp (callModel agent kind prompt (failingEnv cls)) (fun _ _ => False)
      (fun exc s' => exc = .runtime (some cls) ∧ Healthy 1 s') s := by
  unfold callModel
  rw [wp_bind, wp_getAdvancingRun h.quiet]
  refine ⟨fun hHalted => (h.advancing hHalted).elim, fun _ => ?_⟩
  rw [send, wp_bind, wp_modify, wp_bind, wp_ofExcept]
  refine ⟨fun returned hReply => ?_, fun exc hReply => ?_⟩
  · cases hReply
  · cases hReply
    exact ⟨rfl, h.quiet, h.advancing, h.number, h.maximum, h.stoppedClock, h.unused, h.unrotated⟩

/-- A quiet attempt whose model call fails ends as its failure handler says. -/
theorem failing_attempt (h : Healthy 0 s) {cls : FailureClass}
    {Q : AttemptEnd → TurnState → Prop}
    (hHandler : ∀ prompt s', Healthy 1 s' →
      wp (handleFailure settings agent frame prompt (failingEnv cls) (.runtime (some cls))) Q
        (fun _ _ => False) s') :
    wp (attempt settings agent kind frame (failingEnv cls)) Q (fun _ _ => False) s := by
  refine wp_step (prepareTurn_healthy h cls) (fun p s₁ h₁ => ?_) (fun _ _ hFalse => hFalse)
  obtain ⟨recovery, sessionId⟩ := p
  obtain ⟨_, rfl⟩ := h₁
  refine wp_step (openTurn_healthy h frame sessionId) (fun _ s₂ h₂ => ?_)
    (fun _ _ hFalse => hFalse)
  rw [wp_bind, wp_result]
  refine wp_mono (callModel_healthy h₂ cls _) (fun _ _ hFalse => hFalse.elim) ?_
  rintro exc s₃ ⟨rfl, h₃⟩
  exact hHandler _ s₃ h₃

/-- The next attempt starts from a frame with these counters on a healthy run. -/
def Reenters (repairAttempted : Bool) (resumes : Nat) : AttemptEnd → TurnState → Prop
  | .completed _, _ => False
  | .reenter next, s' =>
    next.dependencyRepairAttempted = repairAttempted ∧ next.autoResumeAttempts = resumes ∧
      Healthy 0 s'

theorem rollBack_healthy (h : Healthy 1 s) (prompt : Prompt)
    (repairAttempted : Bool) (resumes : Nat) :
    wp (do rollBackTurnNumber; pure (.reenter ⟨prompt, none, repairAttempted, resumes⟩) :
        TurnM AttemptEnd) (Reenters repairAttempted resumes) (fun _ _ => False) s := by
  rw [wp_bind, wp_rollBackTurnNumber h.quiet]
  refine ⟨fun hHalted => (h.advancing hHalted).elim, fun _ => ⟨rfl, rfl, ?_⟩⟩
  exact h.write rfl (by simp [h.number]) rfl rfl rfl rfl

theorem finishTurn_healthy {n : Nat} (h : Healthy n s) (status : TurnStatus) :
    wp (finishTurn status) (fun _ s' => Healthy n s') (fun _ _ => False) s := by
  unfold finishTurn
  rw [wp_modify]
  split
  · exact h
  · exact ⟨h.quiet, h.advancing, h.number, h.maximum, h.stoppedClock, h.unused, h.unrotated⟩

/-- A repaired dependency failure clears the count of resumes. -/
theorem repaired_attempt (h : Healthy 0 s)
    (hFlag : frame.dependencyRepairAttempted = false) :
    wp (attempt settings agent kind frame (failingEnv .runtimeDependencyUnavailable))
      (Reenters true 0) (fun _ _ => False) s := by
  refine failing_attempt h fun prompt s' h' => ?_
  refine wp_step (finishTurn_healthy h' _) (fun _ s₁ h₁ => ?_) (fun _ _ hFalse => hFalse)
  have hClass : (TurnError.runtime (some .runtimeDependencyUnavailable)).failureClass =
      some FailureClass.runtimeDependencyUnavailable := rfl
  rw [if_pos hClass, wp_recoverRuntimeDependencyFailure]
  refine ⟨fun _ _ hRaised => ?_, fun _ _ => rollBack_healthy h₁ prompt true 0, fun hFailed => ?_⟩
  · cases hRaised
  · rcases hFailed with hSpent | ⟨status, hStatus, hUnresolved⟩
    · rw [hFlag] at hSpent
      cases hSpent
    · cases hStatus
      cases hUnresolved

theorem resumed_attempt (h : Healthy 0 s)
    (hLimit : (frame.autoResumeAttempts : Int) < settings.agentTurnTimeoutAutoResumeLimit) :
    wp (attempt settings agent kind frame (failingEnv .turnTimeout))
      (Reenters false (frame.autoResumeAttempts + 1)) (fun _ _ => False) s := by
  refine failing_attempt h fun prompt s' h' => ?_
  have hResume : shouldAutoResumeTurn settings (.runtime (some .turnTimeout))
      frame.autoResumeAttempts = true := by
    unfold shouldAutoResumeTurn
    rw [if_neg (by omega)]
    rfl
  refine wp_step (finishTurn_healthy h' _) (fun _ s₁ h₁ => ?_) (fun _ _ hFalse => hFalse)
  obtain ⟨hState, hNumber, hMaximum, hClock, hRuntime, hRotations⟩ :=
    setSession_fields { s₁.run with currentAgent := none } agent none
  have hRotated := h₁.write hState (hNumber.trans h₁.number) hMaximum hClock hRuntime hRotations
  rw [if_neg (by decide), wp_bind, wp_rotateAgentSession h₁.quiet]
  refine ⟨fun _ => ?_, fun message hError => ?_⟩
  · rw [wp_bind, wp_get, if_pos hResume]
    exact rollBack_healthy hRotated prompt false (frame.autoResumeAttempts + 1)
  · cases hError

/-- What an attempt that cannot raise and cannot complete does to the call. -/
theorem stepTurn_reenters (settings : TurnSettings) (agent : AgentName) (kind : TurnKind)
    (frame : Frame) {cls : FailureClass} {repairAttempted : Bool} {resumes : Nat}
    (h : Healthy 0 s)
    (hAttempt : ∀ s₁, Healthy 0 s₁ → wp (attempt settings agent kind frame (failingEnv cls))
      (Reenters repairAttempted resumes) (fun _ _ => False) s₁) :
    ∃ next s', stepTurn settings agent kind (.running frame s) (failingEnv cls) =
        .running next s' ∧ next.dependencyRepairAttempted = repairAttempted ∧
      next.autoResumeAttempts = resumes ∧ Healthy 0 s' := by
  have hSpec := hAttempt { s with clock := 0, interference := [] }
    ⟨rfl, h.advancing, h.number, h.maximum, h.stoppedClock, h.unused, h.unrotated⟩
  unfold wp at hSpec
  rcases hRun : attempt settings agent kind frame (failingEnv cls)
    { s with clock := 0, interference := [] } with ⟨exc | r, s₁⟩
  · rw [hRun] at hSpec
    exact hSpec.elim
  · rw [hRun] at hSpec
    cases r with
    | completed returned => exact hSpec.elim
    | reenter next =>
      refine ⟨next, s₁, ?_, hSpec⟩
      have hStep : attempt settings agent kind frame (failingEnv cls)
          { s with clock := (failingEnv cls).clock, interference :=
            (failingEnv cls).interference } =
            (.ok (.reenter next), s₁) := hRun
      unfold stepTurn
      dsimp only
      rw [hStep]

def alternating (n : Nat) : List AttemptEnv :=
  (List.replicate n [failingEnv .runtimeDependencyUnavailable, failingEnv .turnTimeout]).flatten

/-- Every pair of failures leads back to where it started. -/
theorem alternating_attempts (hLimit : 0 < settings.agentTurnTimeoutAutoResumeLimit) (n : Nat)
    (h : Healthy 0 s)
    (hFlag : frame.dependencyRepairAttempted = false) :
    attempts settings agent kind (.running frame s) (alternating n) = 2 * n := by
  induction n generalizing s frame with
  | zero => rfl
  | succ n ih =>
    obtain ⟨next, s₁, hFirst, hFlag₁, hResumes₁, h₁⟩ :=
      stepTurn_reenters settings agent kind frame h fun s₁ hs₁ => repaired_attempt hs₁ hFlag
    obtain ⟨next₂, s₂, hSecond, hFlag₂, _, h₂⟩ :=
      stepTurn_reenters settings agent kind next h₁ fun s₁ hs₁ => resumed_attempt hs₁ (by omega)
    have hRest := ih h₂ hFlag₂
    have hUnroll : alternating (n + 1) = failingEnv .runtimeDependencyUnavailable ::
        failingEnv .turnTimeout :: alternating n := by
      simp [alternating, List.replicate_succ]
    rw [hUnroll]
    simp only [attempts, TurnConfig.isRunning, if_true, hFirst, hSecond, hRest]
    omega

def planningState : TurnState where
  run := { freshRun "r" "objective" 0 with state := .beakerPlanning, activeSince := none }
  turns := []
  sent := []
  queries := []
  clock := 0
  interference := []

theorem planningState_healthy : Healthy 0 planningState :=
  ⟨rfl, by unfold Halted; decide, rfl, rfl, rfl, rfl, rfl⟩

/-- Every call starts a bounded number of attempts if and only if automatic resume is switched
off; with it switched on, a call does as long as no dependency failure is repaired after a
resume. -/
theorem turnAttempts_bounded_iff (settings : TurnSettings) :
    ((∀ agent kind prompt query s envs,
        Bounded settings agent kind (Frame.initial prompt query) s envs) ↔
      settings.agentTurnTimeoutAutoResumeLimit ≤ 0) ∧
    ∀ agent kind prompt query s envs,
      Along (stepTurn settings agent kind) (NoRepairAfterResume kind)
        (.running (Frame.initial prompt query) s) envs →
      Bounded settings agent kind (Frame.initial prompt query) s envs := by
  have hBounded : ∀ agent kind prompt query s envs,
      Along (stepTurn settings agent kind) (NoRepairAfterResume kind)
        (.running (Frame.initial prompt query) s) envs →
      Bounded settings agent kind (Frame.initial prompt query) s envs := by
    intro agent kind prompt query s envs hAlong
    have hBudget : budget settings agent (Frame.initial prompt query) s.turns + 1 ≤
        attemptLimit settings := budget_initial prompt query s.turns
    obtain ⟨hAttempts, hEnded⟩ := attempts_le_budget hAlong
    exact ⟨by omega, fun hLength => hEnded (by omega)⟩
  refine ⟨⟨fun hAll => ?_, fun hLimit agent kind prompt query s envs => ?_⟩, hBounded⟩
  · by_contra hOn
    obtain ⟨hAttempts, _⟩ := hAll .beaker .implementationPlan "plan" none planningState
      (alternating (attemptLimit settings + 1))
    rw [alternating_attempts (by omega) _ planningState_healthy rfl] at hAttempts
    omega
  · exact hBounded agent kind prompt query s envs
      (noRepairAfterResume_of_disabled hLimit rfl envs)

/-- A dependency that is repaired first, two resumes, and two failures that are retried no more. -/
theorem turnAttempts_bounded_iff_repairedFirst :
    Bounded {} .beaker .implementationPlan (Frame.initial "plan" none) planningState
      ([.runtimeDependencyUnavailable, .turnTimeout, .turnTimeout, .provider, .network].map
        failingEnv) :=
  (turnAttempts_bounded_iff {}).2 _ _ _ _ _ _ (by decide +kernel)

/-- The default settings allow six attempts; eight failures in turn make eight. -/
theorem turnAttempts_default_unbounded :
    ¬ Bounded {} .beaker .implementationPlan (Frame.initial "plan" none) planningState
      (alternating 4) := by
  intro h
  have hAttempts := h.1
  rw [alternating_attempts (by decide) 4 planningState_healthy rfl] at hAttempts
  exact absurd hAttempts (by decide)

end Glasslab.Engine.AgentTurn
