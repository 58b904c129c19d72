import Glasslab.Engine.TurnLimits

/-!
# Accounting for the turn budget

An attempt counts its turn before the model call, and four recovery paths take it back: the
bounded retry, the automatic resume, the retry after a dependency repair, and a dependency
failure that ends the call. Without another writer of the run none of these is made twice, and
one is lost: a repair that raises leaves the handler before the rollback. Between two attempts
of a call the number is what it was at the start. When the call ends it has gone up by one,
unless the last attempt failed for want of a dependency and no repair raised.

`AttemptSpec` says what one attempt leaves; the call and the sequence of calls follow from it
by induction.
-/

namespace Glasslab.Engine.AgentTurn

open Foundation Foundation.Tx Foundation.Machine Storage List

variable {settings : TurnSettings} {agent : AgentName} {kind : TurnKind} {env : AttemptEnv}
  {s s' : TurnState}

/-! ## What the parts of an attempt leave -/

/-- Nothing of the accounting has changed. -/
structure Untouched (s s' : TurnState) : Prop where
  quiet : s'.interference = []
  turns : s'.turns = s.turns
  sent : s'.sent = s.sent
  number : s'.run.turnNumber = s.run.turnNumber
  maximum : s'.run.maximumTurns = s.run.maximumTurns

theorem Untouched.refl (hQuiet : s.interference = []) : Untouched s s :=
  ⟨hQuiet, rfl, rfl, rfl, rfl⟩

theorem Untouched.trans {s₁ : TurnState} (h : Untouched s s₁) (h' : Untouched s₁ s') :
    Untouched s s' :=
  ⟨h'.quiet, h'.turns.trans h.turns, h'.sent.trans h.sent, h'.number.trans h.number,
    h'.maximum.trans h.maximum⟩

theorem Untouched.write (hQuiet : s.interference = []) {record : RunRecord}
    (hNumber : record.turnNumber = s.run.turnNumber)
    (hMaximum : record.maximumTurns = s.run.maximumTurns) :
    Untouched s { s with run := record } :=
  ⟨hQuiet, rfl, rfl, hNumber, hMaximum⟩

theorem transitioned_budget (run : RunRecord) (target : RunState) (updates : RunUpdates)
    (now : Instant) (hNumber : (updates.apply run).turnNumber = run.turnNumber)
    (hMaximum : (updates.apply run).maximumTurns = run.maximumTurns) :
    (transitioned (Store.inserted run) target updates now).turnNumber = run.turnNumber ∧
      (transitioned (Store.inserted run) target updates now).maximumTurns = run.maximumTurns := by
  unfold transitioned runtimeUpdates
  split
  · exact ⟨hNumber, hMaximum⟩
  · split <;> exact ⟨hNumber, hMaximum⟩

section

variable (hQuiet : s.interference = [])
include hQuiet

theorem transition_untouched (target : RunState)
    (updates : RunUpdates) (hNumber : (updates.apply s.run).turnNumber = s.run.turnNumber)
    (hMaximum : (updates.apply s.run).maximumTurns = s.run.maximumTurns) :
    wp (transition target updates) (fun _ => Untouched s) (fun _ => Untouched s) s := by
  rw [wp_transition hQuiet]
  obtain ⟨hNumber', hMaximum'⟩ := transitioned_budget s.run target updates s.clock hNumber hMaximum
  exact ⟨fun _ => .write hQuiet hNumber' hMaximum', fun _ => .refl hQuiet⟩

/-- The budget check lets an attempt start only below the maximum. -/
theorem checkTurnBudget_spec :
    wp (checkTurnBudget s.run)
      (fun _ s' => s' = s ∧ s.run.turnNumber < s.run.maximumTurns) (fun _ => Untouched s) s := by
  have hTimedOut : ∀ message, wp (do transition .timedOut .none; Tx.raise (.workflow message) :
      TurnM Unit) (fun _ s' => s' = s ∧ s.run.turnNumber < s.run.maximumTurns)
      (fun _ => Untouched s) s := by
    intro message
    exact wp_step (transition_untouched hQuiet .timedOut .none rfl rfl) (fun _ _ h => h)
      (fun _ _ h => h)
  unfold checkTurnBudget
  rw [wp_bind, wp_get, wp_ite, wp_ite]
  refine ⟨fun _ => hTimedOut _, fun hBelow => ⟨fun _ => hTimedOut _, fun _ => ⟨rfl, ?_⟩⟩⟩
  omega

theorem rotateAgentSession_untouched :
    wp (rotateAgentSession agent env) (fun _ => Untouched s) (fun _ => Untouched s) s := by
  rw [wp_rotateAgentSession hQuiet]
  obtain ⟨_, hNumber, hMaximum, _⟩ :=
    setSession_fields { s.run with currentAgent := none } agent none
  exact ⟨fun _ => .write hQuiet hNumber hMaximum, fun _ _ => .write hQuiet hNumber hMaximum⟩

theorem pauseRun_untouched :
    wp pauseRun (fun _ => Untouched s) (fun _ => Untouched s) s := by
  unfold pauseRun
  rw [wp_bind, wp_getRun hQuiet, wp_ite]
  refine ⟨fun _ => .refl hQuiet, fun _ => ?_⟩
  rw [wp_bind, wp_get]
  exact transition_untouched hQuiet .paused _ rfl rfl

theorem maybeRotateTurnHistory_untouched :
    wp (maybeRotateTurnHistory settings agent s.run env) (fun _ => Untouched s)
      (fun _ => Untouched s) s := by
  unfold maybeRotateTurnHistory
  simp only [wp_ite]
  refine ⟨fun _ => .refl hQuiet, fun _ => ⟨fun _ => .refl hQuiet, fun _ => ⟨fun _ => ?_,
    fun _ => ⟨fun _ => ?_, fun _ => ⟨fun _ => .refl hQuiet, fun _ => ?_⟩⟩⟩⟩⟩
  · refine ⟨fun _ => ?_, fun _ => .refl hQuiet⟩
    rw [wp_replaceRun hQuiet]
    exact .write hQuiet rfl rfl
  · -- the churn limit: rotate, pause and raise
    refine wp_step (rotateAgentSession_untouched hQuiet) (fun _ s₁ h₁ => ?_) (fun _ _ h => h)
    exact wp_step (pauseRun_untouched h₁.quiet) (fun _ _ h => h₁.trans h) (fun _ _ h => h₁.trans h)
  · refine wp_step (rotateAgentSession_untouched hQuiet) (fun _ s₁ h₁ => ?_) (fun _ _ h => h)
    rw [wp_bind, wp_getRun h₁.quiet, wp_bind, wp_replaceRun h₁.quiet]
    refine Iff.mpr (wp_getRun ?_) ?_
    · exact h₁.quiet
    · exact h₁.trans (.write h₁.quiet rfl rfl)

theorem prepareTurn_spec :
    wp (prepareTurn settings agent env)
      (fun _ s' => Untouched s s' ∧ s.run.turnNumber < s.run.maximumTurns)
      (fun _ => Untouched s) s := by
  unfold prepareTurn
  rw [wp_bind, wp_getRun hQuiet]
  refine wp_step (checkTurnBudget_spec hQuiet) (fun _ s₁ h₁ => ?_) (fun _ _ h => h)
  obtain ⟨rfl, hBelow⟩ := h₁
  refine wp_step (maybeRotateTurnHistory_untouched hQuiet) (fun run s₂ h₂ => ?_) (fun _ _ h => h)
  have hRecovery : wp (recoveryContext run agent env) (fun _ s' => s' = s₂) (fun _ s' => s' = s₂)
      s₂ := by
    unfold recoveryContext
    rw [wp_ite, wp_ofExcept]
    exact ⟨fun _ => ⟨fun _ _ => rfl, fun _ _ => rfl⟩, fun _ => rfl⟩
  refine wp_step hRecovery (fun recovery s₃ h₃ => ?_) (fun _ s₃ h₃ => h₃ ▸ h₂)
  subst h₃
  rw [wp_bind, wp_ofExcept]
  exact ⟨fun _ _ => ⟨h₂, hBelow⟩, fun _ _ => h₂⟩

end

/-- The turn under way: it is counted, and stored as the newest. -/
structure Counted (agent : AgentName) (s s' : TurnState) (status : TurnStatus) (number : Nat) :
    Prop where
  quiet : s'.interference = []
  turns : ∃ sessionId, s'.turns = ⟨agent, sessionId, status⟩ :: s.turns
  number : s'.run.turnNumber = number
  maximum : s'.run.maximumTurns = s.run.maximumTurns

variable {s₀ : TurnState}

theorem openTurn_spec (h : Untouched s₀ s) (frame : Frame) (sessionId : String) :
    wp (openTurn agent frame sessionId)
      (fun _ s' => Counted agent s₀ s' .running (s₀.run.turnNumber + 1) ∧ s'.sent = s₀.sent)
      (fun _ _ => False) s := by
  obtain ⟨_, hNumber, hMaximum, _⟩ := setSession_fields
    { s.run with currentAgent := some agent, turnNumber := s.run.turnNumber + 1 } agent
    (some sessionId)
  unfold openTurn
  rw [wp_bind, wp_getRun h.quiet, wp_bind, wp_replaceRun h.quiet, saveTurn, wp_bind, wp_modify,
    wp_modify]
  refine ⟨⟨h.quiet, ⟨sessionId, by rw [h.turns]⟩, ?_, hMaximum.trans h.maximum⟩, h.sent⟩
  rw [← h.number]
  exact hNumber

variable {status : TurnStatus}

theorem Counted.write {n m : Nat} (h : Counted agent s₀ s status n) {record : RunRecord}
    (hNumber : record.turnNumber = m)
    (hMaximum : record.maximumTurns = s.run.maximumTurns) :
    Counted agent s₀ { s with run := record } status m :=
  ⟨h.quiet, h.turns, hNumber, hMaximum.trans h.maximum⟩

variable {n : Nat}

theorem finishTurn_spec (h : Counted agent s₀ s .running n) (status : TurnStatus) :
    wp (finishTurn status)
      (fun _ s' => Counted agent s₀ s' status n ∧ s'.run = s.run ∧ s'.sent = s.sent)
      (fun _ _ => False) s := by
  obtain ⟨sessionId, hTurns⟩ := h.turns
  unfold finishTurn
  rw [wp_modify, hTurns]
  exact ⟨⟨h.quiet, ⟨sessionId, rfl⟩, h.number, h.maximum⟩, rfl, rfl⟩

theorem callModel_spec (h : Counted agent s₀ s .running n) (prompt : Prompt) :
    wp (callModel agent kind prompt env)
      (fun _ s' => Counted agent s₀ s' .running n ∧ ¬ Halted s'.run.state)
      (fun exc s' => Counted agent s₀ s' .running n ∧
        (exc.failureClass = some .runtimeDependencyUnavailable → ¬ Halted s'.run.state)) s := by
  unfold callModel
  rw [wp_bind, wp_getAdvancingRun h.quiet]
  refine ⟨fun _ => ⟨h, fun hClass => by cases hClass⟩, fun hAdvancing => ?_⟩
  have hSent : ∀ sent, Counted agent s₀ { s with sent := sent } .running n := fun sent =>
    ⟨h.quiet, h.turns, h.number, h.maximum⟩
  rw [send, wp_bind, wp_modify, wp_bind, wp_ofExcept]
  refine ⟨fun returned _ => ?_, fun exc _ => ⟨hSent _, fun _ => hAdvancing⟩⟩
  rw [wp_ite]
  refine ⟨fun _ => ⟨hSent _, hAdvancing⟩, fun _ => ?_⟩
  rw [send, wp_bind, wp_modify, wp_bind, wp_ofExcept]
  refine ⟨fun corrected _ => ?_, fun exc _ => ⟨hSent _, fun _ => hAdvancing⟩⟩
  rw [wp_ite]
  exact ⟨fun _ => ⟨hSent _, hAdvancing⟩, fun _ => ⟨hSent _, fun _ => hAdvancing⟩⟩

theorem completeTurn_spec (h : Counted agent s₀ s .running n)
    (hAdvancing : ¬ Halted s.run.state) (returned : TurnKind) :
    wp (completeTurn returned)
      (fun r s' => r = .completed returned ∧ Counted agent s₀ s' .completed n)
      (fun _ _ => False) s := by
  refine wp_step (finishTurn_spec h .completed) (fun _ s₁ h₁ => ?_) (fun _ _ h => h)
  obtain ⟨hDone, hRun, _⟩ := h₁
  rw [wp_bind, wp_getAdvancingRun hDone.quiet, hRun]
  refine ⟨fun hHalted => (hAdvancing hHalted).elim, fun _ => ?_⟩
  rw [← hRun, wp_bind, wp_replaceRun hDone.quiet, wp_bind]
  refine Iff.mpr (wp_getAdvancingRun ?_) ⟨fun hHalted => ?_, fun _ => ⟨rfl, ?_⟩⟩
  · exact hDone.quiet
  · exact (hAdvancing (hRun ▸ hHalted)).elim
  · exact hDone.write hDone.number rfl

def TurnError.isDependencyFailure (exc : TurnError) : Bool :=
  exc.failureClass = some .runtimeDependencyUnavailable

/-- The number a call that ended with this failure leaves, when it started with `n`. -/
def failedNumber (n : Nat) (exc : TurnError) : Nat := if exc.isDependencyFailure then n else n + 1

theorem rollBack_spec (h : Counted agent s₀ s status (n + 1)) :
    wp rollBackTurnNumber (fun _ s' => Counted agent s₀ s' status n)
      (fun _ s' => Halted s.run.state ∧ Counted agent s₀ s' status (n + 1)) s := by
  rw [wp_rollBackTurnNumber h.quiet]
  refine ⟨fun hHalted => ⟨hHalted, h⟩, fun _ => h.write ?_ rfl⟩
  simp [written, h.number]

theorem rollbackUnconsumed_spec (h : Counted agent s₀ s status (n + 1))
    (hAdvancing : ¬ Halted s.run.state) :
    wp rollbackUnconsumedTurnNumber (fun _ s' => Counted agent s₀ s' status n) (fun _ _ => False)
      s := by
  unfold rollbackUnconsumedTurnNumber
  rw [wp_bind, wp_getRun h.quiet, wp_ite, wp_ite]
  refine ⟨fun hHalted => (hAdvancing hHalted).elim, fun _ => ⟨fun hZero => ?_, fun _ => ?_⟩⟩
  · rw [h.number] at hZero
    omega
  · rw [wp_bind, wp_replaceRun h.quiet]
    refine h.write ?_ rfl
    simp [written, h.number]

/-- An attempt that calls the repair gets an answer. -/
def RepairReturns (kind : TurnKind) : TurnConfig → AttemptEnv → Prop
  | .running frame _, env =>
    frame.dependencyRepairAttempted = false → env.DependencyFailure kind → env.repair.isOk = true
  | .done _ _, _ => True

instance (kind : TurnKind) : ∀ c env, Decidable (RepairReturns kind c env)
  | .running frame _, env =>
    inferInstanceAs (Decidable (frame.dependencyRepairAttempted = false →
      env.DependencyFailure kind → env.repair.isOk = true))
  | .done _ _, _ => .isTrue trivial

/-- The failed turn is stored. Its number is settled if the repair was answered, and is one of the
two that it can be in any case. -/
def Settled (agent : AgentName) (s s' : TurnState) (n : Nat) (exc : TurnError)
    (answered : Prop) : Prop :=
  ∃ number, Counted agent s s' (.failed exc) number ∧ n ≤ number ∧ number ≤ n + 1 ∧
    (answered → number = failedNumber n exc)

theorem failedNumber_le (n : Nat) (exc : TurnError) :
    n ≤ failedNumber n exc ∧ failedNumber n exc ≤ n + 1 := by
  unfold failedNumber
  split <;> omega

variable {exc : TurnError}

theorem Counted.settled (answered : Prop)
    (h : Counted agent s s' (.failed exc) (failedNumber n exc)) :
    Settled agent s s' n exc answered :=
  ⟨_, h, (failedNumber_le n exc).1, (failedNumber_le n exc).2, fun _ => rfl⟩

variable {frame : Frame} {prompt : Prompt}

/-- The failure handler keeps the failure of its turn, and gives the number back when the call
goes on and when a dependency is missing, unless the repair raises. -/
theorem handleFailure_spec
    (h : Counted agent s₀ s .running (n + 1))
    (hDependency : exc.failureClass = some .runtimeDependencyUnavailable → ¬ Halted s.run.state) :
    wp (handleFailure settings agent frame prompt env exc)
      (fun r s' => (∃ next, r = .reenter next) ∧ Counted agent s₀ s' (.failed exc) n)
      (fun _ s' => Settled agent s₀ s' n exc (exc.isDependencyFailure = true →
        frame.dependencyRepairAttempted = false → env.repair.isOk = true)) s := by
  refine wp_step (finishTurn_spec h (.failed exc)) (fun _ s₁ h₁ => ?_) (fun _ _ h => h.elim)
  obtain ⟨hFailed, hRun, _⟩ := h₁
  rw [wp_ite]
  refine ⟨fun hClass => ?_, fun hClass => ?_⟩
  · have hAdvancing : ¬ Halted s₁.run.state := by
      rw [hRun]
      exact hDependency hClass
    have hMissing : exc.isDependencyFailure = true := decide_eq_true hClass
    have hNumber : failedNumber n exc = n := if_pos hMissing
    rw [wp_recoverRuntimeDependencyFailure, retryAgentTurn]
    refine ⟨fun hFlag raised hRaised => ?_, fun _ _ => ?_, fun _ => ?_⟩
    · refine ⟨n + 1, hFailed, by omega, le_rfl, fun hAnswered => ?_⟩
      have hOk := hAnswered hMissing hFlag
      rw [hRaised] at hOk
      cases hOk
    · exact wp_step (rollBack_spec hFailed) (fun _ s₂ h₂ => ⟨⟨_, rfl⟩, h₂⟩)
        (fun _ _ h₂ => (hAdvancing h₂.1).elim)
    · exact wp_step (rollbackUnconsumed_spec hFailed hAdvancing)
        (fun _ _ h₂ => Counted.settled _ (hNumber.symm ▸ h₂)) (fun _ _ h₂ => h₂.elim)
  · have hNumber : failedNumber n exc = n + 1 :=
      if_neg fun hMissing => hClass (of_decide_eq_true hMissing)
    have hSettled : ∀ s', Counted agent s₀ s' (.failed exc) (n + 1) →
        Settled agent s₀ s' n exc (exc.isDependencyFailure = true →
          frame.dependencyRepairAttempted = false → env.repair.isOk = true) :=
      fun s' h => Counted.settled _ (hNumber.symm ▸ h)
    rw [wp_bind]
    obtain ⟨_, hKept, hMaximum, _⟩ :=
      setSession_fields { s₁.run with currentAgent := none } agent none
    have hRotated : Counted agent s₀ (rotated s₁ agent) (.failed exc) (n + 1) :=
      hFailed.write (hKept.trans hFailed.number) hMaximum
    rw [wp_rotateAgentSession hFailed.quiet]
    refine ⟨fun _ => ?_, fun _ _ => hSettled _ hRotated⟩
    have hReenter : ∀ next, wp (do rollBackTurnNumber; pure (.reenter next) : TurnM AttemptEnd)
        (fun r s' => (∃ next, r = .reenter next) ∧ Counted agent s₀ s' (.failed exc) n)
        (fun _ s' => Settled agent s₀ s' n exc (exc.isDependencyFailure = true →
          frame.dependencyRepairAttempted = false → env.repair.isOk = true))
            (rotated s₁ agent) := by
      intro next
      exact wp_step (rollBack_spec hRotated) (fun _ _ h₂ => ⟨⟨next, rfl⟩, h₂⟩)
        (fun _ _ h₂ => hSettled _ h₂.2)
    rw [wp_bind, wp_get, wp_ite, wp_ite]
    exact ⟨fun _ => hReenter _, fun _ => ⟨fun _ => hReenter _, fun _ => hSettled _ hRotated⟩⟩

def AttemptSpec (agent : AgentName) (s : TurnState) : AttemptEnd → TurnState → Prop
  | .completed _, s' => Counted agent s s' .completed (s.run.turnNumber + 1)
  | .reenter _, s' => ∃ exc, Counted agent s s' (.failed exc) s.run.turnNumber

/-- What an attempt that raises leaves: nothing, when it was not begun, or its failed turn. -/
def RaiseSpec (agent : AgentName) (s s' : TurnState) (answered : Prop) : Prop :=
  Untouched s s' ∨ ∃ exc, Settled agent s s' s.run.turnNumber exc answered ∧
    s.run.turnNumber < s.run.maximumTurns

theorem attempt_spec (settings : TurnSettings) (agent : AgentName) (kind : TurnKind)
    (env : AttemptEnv) (hQuiet : s.interference = []) (frame : Frame) :
    wp (attempt settings agent kind frame env)
      (fun r s' => AttemptSpec agent s r s' ∧ s.run.turnNumber < s.run.maximumTurns)
      (fun _ s' => RaiseSpec agent s s' (RepairReturns kind (.running frame s) env)) s := by
  unfold attempt
  refine wp_step (prepareTurn_spec hQuiet) (fun p s₁ h₁ => ?_) (fun _ _ h => .inl h)
  obtain ⟨recovery, sessionId⟩ := p
  obtain ⟨hUntouched, hBelow⟩ := h₁
  refine wp_step (openTurn_spec hUntouched frame sessionId) (fun _ s₂ h₂ => ?_)
    (fun _ _ h => h.elim)
  rw [wp_bind, wp_result]
  refine wp_mono (wp_and (callModel_spec h₂.1 _) (callModel_dependencyFailure _ env s₂))
    (fun returned s₃ h₃ => ?_) (fun exc s₃ h₃ => ?_)
  · refine wp_mono (completeTurn_spec h₃.1.1 h₃.1.2 returned) ?_ (fun _ _ h => h.elim)
    rintro r s' ⟨rfl, hDone⟩
    exact ⟨hDone, hBelow⟩
  · obtain ⟨⟨hRunning, hAdvancing⟩, _, hFailure⟩ := h₃
    refine wp_mono (handleFailure_spec hRunning hAdvancing) ?_ ?_
    · rintro r s' ⟨⟨next, rfl⟩, hFailed⟩
      exact ⟨⟨exc, hFailed⟩, hBelow⟩
    · rintro raised s' ⟨number, hFailed, hLow, hHigh, hSettles⟩
      refine .inr ⟨exc, ⟨number, hFailed, hLow, hHigh, fun hReturns => hSettles ?_⟩, hBelow⟩
      exact fun hMissing hFlag => hReturns hFlag (hFailure (of_decide_eq_true hMissing))

/-- What one step of a call leaves, by how the call goes on. -/
def StepSpec (agent : AgentName) (s : TurnState) (answered : Prop) : TurnConfig → Prop
  | .running _ s' =>
    (∃ exc, Counted agent s s' (.failed exc) s.run.turnNumber) ∧
      s.run.turnNumber < s.run.maximumTurns
  | .done (.ok _) s' =>
    Counted agent s s' .completed (s.run.turnNumber + 1) ∧ s.run.turnNumber < s.run.maximumTurns
  | .done (.error _) s' => RaiseSpec agent s s' answered

theorem stepTurn_spec (frame : Frame) (s : TurnState) (hEnv : env.interference = []) :
    StepSpec agent s (RepairReturns kind (.running frame s) env)
      (stepTurn settings agent kind (.running frame s) env) := by
  have hQuiet : { s with clock := env.clock, interference := env.interference }.interference = [] :=
    hEnv
  have hSpec := attempt_spec settings agent kind env hQuiet frame
  unfold wp at hSpec
  simp only [stepTurn]
  rcases hAttempt : attempt settings agent kind frame env
    { s with clock := env.clock, interference := env.interference } with ⟨exc | r, s₁⟩
  · rw [hAttempt] at hSpec
    -- the fields the specification speaks of are those of the state the step started in
    rcases hSpec with hUntouched | ⟨failure, ⟨number, hFailed, hSettled⟩, hBelow⟩
    · exact .inl ⟨hUntouched.quiet, hUntouched.turns, hUntouched.sent, hUntouched.number,
        hUntouched.maximum⟩
    · exact .inr ⟨failure, ⟨number, ⟨hFailed.quiet, hFailed.turns, hFailed.number,
        hFailed.maximum⟩, hSettled⟩, hBelow⟩
  · rw [hAttempt] at hSpec
    cases r with
    | completed returned =>
      obtain ⟨hDone, hBelow⟩ := hSpec
      exact ⟨⟨hDone.quiet, hDone.turns, hDone.number, hDone.maximum⟩, hBelow⟩
    | reenter next =>
      obtain ⟨⟨failure, hFailed⟩, hBelow⟩ := hSpec
      exact ⟨⟨failure, hFailed.quiet, hFailed.turns, hFailed.number, hFailed.maximum⟩, hBelow⟩

/-! ## A repair that raises -/

/-- The model call of such an attempt fails for want of a dependency, or is not made. -/
theorem callModel_unanswered (h : Counted agent s₀ s .running n)
    (hFailure : env.DependencyFailure kind) (prompt : Prompt) :
    wp (callModel agent kind prompt env) (fun _ _ => False)
      (fun exc s' => Counted agent s₀ s' .running n ∧
        (exc.isDependencyFailure = true ∨ s'.sent = s.sent)) s := by
  unfold callModel
  rw [wp_bind, wp_getAdvancingRun h.quiet]
  refine ⟨fun _ => ⟨h, .inr rfl⟩, fun _ => ?_⟩
  have hSent : ∀ sent, Counted agent s₀ { s with sent := sent } .running n := fun sent =>
    ⟨h.quiet, h.turns, h.number, h.maximum⟩
  rw [send, wp_bind, wp_modify, wp_bind, wp_ofExcept]
  rcases hFailure with ⟨failure, hReply, hClass⟩ |
    ⟨returned, failure, hReply, hKind, hCorrected, hClass⟩
  · rw [hReply]
    refine ⟨fun _ hReturned => (by cases hReturned), fun exc hExc => ⟨hSent _, .inl ?_⟩⟩
    cases hExc
    exact decide_eq_true hClass
  · rw [hReply]
    refine ⟨fun answer hAnswer => ?_, fun exc hExc => by cases hExc⟩
    cases hAnswer
    rw [if_neg hKind, send, wp_bind, wp_modify, wp_bind, wp_ofExcept, hCorrected]
    refine ⟨fun _ hAnswer => (by cases hAnswer), fun exc hExc => ⟨hSent _, .inl ?_⟩⟩
    cases hExc
    exact decide_eq_true hClass

/-- The failed turn stays counted. -/
def LostRollback (agent : AgentName) (s s' : TurnState) : Prop :=
  ∃ exc, exc.isDependencyFailure = true ∧
    Counted agent s s' (.failed exc) (s.run.turnNumber + 1)

theorem handleFailure_unanswered
    (h : Counted agent s₀ s .running n) (hMissing : exc.isDependencyFailure = true)
    (hFlag : frame.dependencyRepairAttempted = false) (hRepair : env.repair.isOk = false) :
    wp (handleFailure settings agent frame prompt env exc) (fun _ _ => False)
      (fun _ s' => Counted agent s₀ s' (.failed exc) n) s := by
  have hClass : exc.failureClass = some .runtimeDependencyUnavailable := of_decide_eq_true hMissing
  refine wp_step (finishTurn_spec h (.failed exc)) (fun _ s₁ h₁ => ?_) (fun _ _ h => h.elim)
  rw [if_pos hClass, wp_recoverRuntimeDependencyFailure]
  unfold AttemptEnv.repaired
  cases hAnswer : env.repair with
  | ok status =>
    rw [hAnswer] at hRepair
    cases hRepair
  | error raised =>
    refine ⟨fun _ _ _ => h₁.1, fun _ hResolved => (by cases hResolved), ?_⟩
    rintro (hSpent | ⟨_, hStatus, _⟩)
    · rw [hFlag] at hSpent
      cases hSpent
    · cases hStatus

theorem attempt_unanswered (hQuiet : s.interference = [])
    (hFlag : frame.dependencyRepairAttempted = false) (hFailure : env.DependencyFailure kind)
    (hRepair : env.repair.isOk = false) :
    wp (attempt settings agent kind frame env) (fun _ s' => s'.sent = s.sent)
      (fun _ s' => s'.sent = s.sent ∨ LostRollback agent s s') s := by
  refine wp_step (prepareTurn_spec hQuiet) (fun p s₁ h₁ => ?_) (fun _ _ h => .inl h.sent)
  obtain ⟨recovery, sessionId⟩ := p
  refine wp_step (openTurn_spec h₁.1 frame sessionId) (fun _ s₂ h₂ => ?_) (fun _ _ h => h.elim)
  rw [wp_bind, wp_result]
  refine wp_mono (callModel_unanswered h₂.1 hFailure _) (fun _ _ h => h.elim) fun exc s₃ h₃ => ?_
  obtain ⟨hRunning, hMissing | hSame⟩ := h₃
  · refine wp_mono (handleFailure_unanswered hRunning hMissing hFlag hRepair) (fun _ _ h => h.elim)
      fun _ _ h => .inr ⟨exc, hMissing, h⟩
  · -- a run that was halted in between: nothing was sent, and the handler sends nothing
    have hSent : s₃.sent = s.sent := hSame.trans h₂.2
    have hKeeps : Keeps TurnState.sent (handleFailure settings agent frame
        (composePrompt agent kind frame.prompt recovery env) env exc) :=
      keeps_handleFailure (fun _ _ _ => rfl) (fun _ _ => rfl) frame _ env exc
    exact wp_mono (hKeeps s₃) (fun _ _ h => h.trans hSent) fun _ _ h => .inl (h.trans hSent)

theorem stepTurn_unanswered (hEnv : env.interference = [])
    (hAsked : s.sent.length <
      (stepTurn settings agent kind (.running frame s) env).state.sent.length)
    (h : ¬ RepairReturns kind (.running frame s) env) :
    ∃ exc s', stepTurn settings agent kind (.running frame s) env = .done (.error exc) s' ∧
      LostRollback agent s s' := by
  unfold RepairReturns at h
  simp only [Classical.not_imp, Bool.not_eq_true] at h
  obtain ⟨hFlag, hFailure, hRepair⟩ := h
  have hQuiet : { s with clock := env.clock, interference := env.interference }.interference = [] :=
    hEnv
  have hSpec := @attempt_unanswered settings agent _ _ _ _ hQuiet hFlag hFailure hRepair
  unfold wp at hSpec
  simp only [stepTurn] at hAsked ⊢
  rcases hAttempt : attempt settings agent kind frame env
    { s with clock := env.clock, interference := env.interference } with ⟨exc | r, s₁⟩
  · rw [hAttempt] at hSpec hAsked
    rcases hSpec with hSame | ⟨failure, hMissing, hFailed⟩
    · exact absurd (congrArg List.length hSame) (by simpa [TurnConfig.state] using hAsked.ne')
    · exact ⟨exc, s₁, rfl, failure, hMissing, hFailed.quiet, hFailed.turns, hFailed.number,
        hFailed.maximum⟩
  · rw [hAttempt] at hSpec hAsked
    cases r with
    | completed returned =>
      exact absurd (congrArg List.length hSpec) (by simpa [TurnConfig.state] using hAsked.ne')
    | reenter next =>
      exact absurd (congrArg List.length hSpec) (by simpa [TurnConfig.state] using hAsked.ne')

/-! ## The call -/

/-- No other thread writes the run, and the attempt reaches the model call. -/
def QuietAndAsked (settings : TurnSettings) (agent : AgentName) (kind : TurnKind) :
    TurnConfig → AttemptEnv → Prop
  | .running frame s, env =>
    env.interference = [] ∧
      s.sent.length < (stepTurn settings agent kind (.running frame s) env).state.sent.length
  | .done _ _, _ => True

instance (settings : TurnSettings) (agent : AgentName) (kind : TurnKind) :
    ∀ c env, Decidable (QuietAndAsked settings agent kind c env)
  | .running frame s, env =>
    inferInstanceAs (Decidable (env.interference = [] ∧
      s.sent.length < (stepTurn settings agent kind (.running frame s) env).state.sent.length))
  | .done _ _, _ => .isTrue trivial

/-- The number a call that started with `n` leaves, by the status of its last attempt. -/
def settledNumber (n : Nat) : TurnStatus → Nat
  | .failed exc => failedNumber n exc
  | _ => n + 1

/-- The accounting of a call that started with `n`: unchanged while it goes on, settled by its
last attempt when it has ended. -/
def Accounted (agent : AgentName) (n : Nat) : TurnConfig → Prop
  | .running _ s' => s'.run.turnNumber = n
  | .done result s' =>
    ∃ last older, s'.turns = last :: older ∧ last.agent = agent ∧
      ((∃ returned, result = .ok returned) ↔ last.status = .completed) ∧
      last.status ≠ .running ∧ s'.run.turnNumber = settledNumber n last.status

theorem accounted_call {s : TurnState} {envs : List AttemptEnv}
    (h : Along (stepTurn settings agent kind) (QuietAndAsked settings agent kind)
      (.running frame s) envs) :
    Accounted agent s.run.turnNumber
        (exec (stepTurn settings agent kind) (.running frame s) envs) ↔
      Along (stepTurn settings agent kind) (RepairReturns kind) (.running frame s) envs := by
  induction envs generalizing frame s with
  | nil => exact ⟨fun _ => trivial, fun _ => rfl⟩
  | cons env envs ih =>
    obtain ⟨⟨hEnv, hAsked⟩, hRest⟩ := h
    by_cases hReturns : RepairReturns kind (.running frame s) env
    · have hStep : StepSpec agent s (RepairReturns kind (.running frame s) env)
          (stepTurn settings agent kind (.running frame s) env) := stepTurn_spec frame s hEnv
      have hAlong : Along (stepTurn settings agent kind) (RepairReturns kind) (.running frame s)
          (env :: envs) ↔ Along (stepTurn settings agent kind) (RepairReturns kind)
            (stepTurn settings agent kind (.running frame s) env) envs :=
        ⟨And.right, fun hRest => ⟨hReturns, hRest⟩⟩
      rw [exec_cons, hAlong]
      cases hNext : stepTurn settings agent kind (.running frame s) env with
      | running next s₁ =>
        rw [hNext] at hStep hRest
        obtain ⟨⟨exc, hFailed⟩, _⟩ := hStep
        rw [← hFailed.number]
        exact ih hRest
      | done result s₁ =>
        rw [hNext] at hStep hAsked
        rw [exec_done]
        refine ⟨fun _ => along_done (fun _ => trivial) envs, fun _ => ?_⟩
        cases result with
        | ok returned =>
          obtain ⟨⟨_, ⟨sessionId, hTurns⟩, hNumber, _⟩, _⟩ := hStep
          exact ⟨_, _, hTurns, rfl, by simp, by simp, hNumber⟩
        | error exc =>
          rcases hStep with hUntouched | ⟨failure, ⟨number, hFailed, _, _, hSettled⟩, _⟩
          · have hSame : s₁.sent.length = s.sent.length := by rw [hUntouched.sent]
            simp only [TurnConfig.state] at hAsked
            omega
          · obtain ⟨_, ⟨sessionId, hTurns⟩, hNumber, _⟩ := hFailed
            exact ⟨_, _, hTurns, rfl, by simp, by simp, hNumber.trans (hSettled hReturns)⟩
    · -- the repair of this attempt raises, and the turn that has failed stays counted
      obtain ⟨exc, s₁, hNext, failure, hMissing, _, ⟨sessionId, hTurns⟩, hNumber, _⟩ :=
        stepTurn_unanswered hEnv hAsked hReturns
      refine ⟨fun hAccounted => ?_, fun hAlong => absurd hAlong.1 hReturns⟩
      rw [exec_cons, hNext, exec_done] at hAccounted
      obtain ⟨last, older, hLast, _, _, _, hSettled⟩ := hAccounted
      rw [hTurns] at hLast
      cases hLast
      rw [hNumber, settledNumber, failedNumber, if_pos hMissing] at hSettled
      omega

/-! ## Sequences of logical turns -/

/-- A top-level call with the answers the world gives it. -/
structure LogicalTurn where
  agent : AgentName
  kind : TurnKind
  prompt : String
  retrievalQuery : Option String
  envs : List AttemptEnv

/-- Any other write of the run: no other code of the engine writes these two fields. -/
structure OtherWrite where
  apply : RunRecord → RunRecord
  turnNumber_apply : ∀ run, (apply run).turnNumber = run.turnNumber
  maximumTurns_apply : ∀ run, (apply run).maximumTurns = run.maximumTurns

inductive RunStep where
  | turn (turn : LogicalTurn)
  | write (write : OtherWrite)

def stepRun (settings : TurnSettings) (s : TurnState) : RunStep → TurnState
  | .turn t =>
    (exec (stepTurn settings t.agent t.kind)
      (.running (Frame.initial t.prompt t.retrievalQuery) s) t.envs).state
  | .write w => { s with run := w.apply s.run }

def QuietStep : RunStep → Prop
  | .turn t => ∀ env ∈ t.envs, env.interference = []
  | .write _ => True

def completedTurns (turns : List TurnRecord) : Nat :=
  turns.countP fun turn => turn.status = .completed

structure WithinBudget (s : TurnState) : Prop where
  counted : completedTurns s.turns ≤ s.run.turnNumber
  bounded : s.run.turnNumber ≤ s.run.maximumTurns

/-- A failed turn leaves the count of completed turns alone, a completed one raises it. -/
theorem withinBudget_of_counted (h : WithinBudget s)
    (hCounted : Counted agent s s' status n) (hBelow : s.run.turnNumber < s.run.maximumTurns)
    (hLow : s.run.turnNumber ≤ n) (hHigh : n ≤ s.run.turnNumber + 1)
    (hCompleted : status = .completed → n = s.run.turnNumber + 1) : WithinBudget s' := by
  obtain ⟨_, ⟨sessionId, hTurns⟩, hNumber, hMaximum⟩ := hCounted
  have hDone := h.counted
  refine ⟨?_, ?_⟩
  · rw [hTurns, hNumber, completedTurns, countP_cons]
    by_cases hStatus : status = .completed
    · have hEq := hCompleted hStatus
      simp only [completedTurns] at hDone
      simp only [hStatus, decide_true, if_true]
      omega
    · simp only [completedTurns] at hDone
      simp only [hStatus, decide_false, Bool.false_eq_true, if_false]
      omega
  · omega

theorem withinBudget_step {c : TurnConfig} {answered : Prop} (h : WithinBudget s)
    (hStep : StepSpec agent s answered c) :
    WithinBudget c.state := by
  cases c with
  | running next s₁ =>
    obtain ⟨⟨exc, hFailed⟩, hBelow⟩ := hStep
    exact withinBudget_of_counted h hFailed hBelow (le_refl _) (by omega) (by simp)
  | done result s₁ =>
    cases result with
    | ok returned =>
      exact withinBudget_of_counted h hStep.1 hStep.2 (by omega) (le_refl _) (fun _ => rfl)
    | error exc =>
      rcases hStep with hUntouched | ⟨failure, ⟨number, hFailed, hLow, hHigh, _⟩, hBelow⟩
      · refine ⟨?_, ?_⟩
        · show completedTurns s₁.turns ≤ s₁.run.turnNumber
          rw [hUntouched.turns, hUntouched.number]
          exact h.counted
        · show s₁.run.turnNumber ≤ s₁.run.maximumTurns
          rw [hUntouched.number, hUntouched.maximum]
          exact h.bounded
      · exact withinBudget_of_counted h hFailed hBelow hLow hHigh (by simp)

theorem withinBudget_call (frame : Frame) (s : TurnState) (envs : List AttemptEnv)
    (hEnvs : ∀ env ∈ envs, env.interference = []) (h : WithinBudget s) :
    WithinBudget (exec (stepTurn settings agent kind) (.running frame s) envs).state := by
  induction envs generalizing frame s with
  | nil => exact h
  | cons env envs ih =>
    have hStep : StepSpec agent s (RepairReturns kind (.running frame s) env)
        (stepTurn settings agent kind (.running frame s) env) :=
      stepTurn_spec frame s (hEnvs env (by simp))
    have hNext := withinBudget_step h hStep
    rw [exec_cons]
    cases hConfig : stepTurn settings agent kind (.running frame s) env with
    | running next s₁ =>
      rw [hConfig] at hNext
      exact ih next s₁ (fun e he => hEnvs e (by simp [he])) hNext
    | done result s₁ =>
      rw [hConfig] at hNext
      rw [exec_done]
      exact hNext

theorem withinBudget_stepRun {step : RunStep} (hQuiet : QuietStep step) (h : WithinBudget s) :
    WithinBudget (stepRun settings s step) := by
  cases step with
  | turn t => exact withinBudget_call _ s t.envs hQuiet h
  | write w =>
    refine ⟨?_, ?_⟩
    · show completedTurns s.turns ≤ (w.apply s.run).turnNumber
      rw [w.turnNumber_apply]
      exact h.counted
    · show (w.apply s.run).turnNumber ≤ (w.apply s.run).maximumTurns
      rw [w.turnNumber_apply, w.maximumTurns_apply]
      exact h.bounded

/-- A call whose attempts all reach the model, with no other writer, leaves the turn number as it
was while it goes on, and settles it by its last attempt, exactly if every repair returns. Over
every sequence of logical turns of a new run the completed turns are at most the turn number, which
is at most the maximum. -/
theorem turnBudget_accounting_iff (settings : TurnSettings) :
    (∀ agent kind prompt query s envs,
      Along (stepTurn settings agent kind) (QuietAndAsked settings agent kind)
        (.running (Frame.initial prompt query) s) envs →
      (Accounted agent s.run.turnNumber
          (exec (stepTurn settings agent kind) (.running (Frame.initial prompt query) s) envs) ↔
        Along (stepTurn settings agent kind) (RepairReturns kind)
          (.running (Frame.initial prompt query) s) envs)) ∧
    ∀ s steps, s.turns = [] → s.run.turnNumber = 0 → (∀ step ∈ steps, QuietStep step) →
      completedTurns (exec (stepRun settings) s steps).turns ≤
          (exec (stepRun settings) s steps).run.turnNumber ∧
        (exec (stepRun settings) s steps).run.turnNumber ≤
          (exec (stepRun settings) s steps).run.maximumTurns := by
  refine ⟨fun agent kind prompt query s envs h => accounted_call h, ?_⟩
  intro s steps hTurns hNumber hQuiet
  have hStart : WithinBudget s := by
    refine ⟨?_, ?_⟩
    · rw [hTurns]
      exact Nat.zero_le _
    · rw [hNumber]
      exact Nat.zero_le _
  have hEnd : WithinBudget (exec (stepRun settings) s steps) := by
    clear hTurns hNumber
    induction steps generalizing s with
    | nil => exact hStart
    | cons step steps ih =>
      exact ih _ (fun t ht => hQuiet t (by simp [ht]))
        (withinBudget_stepRun (hQuiet step (by simp)) hStart)
  exact ⟨hEnd.counted, hEnd.bounded⟩

/-- A turn that runs into the wall clock, is resumed, loses a dependency, and gets this answer from
the repair. -/
def brokenAfterResume (repair : Except TurnError RepairStatus) : List AttemptEnv :=
  [failingEnv .turnTimeout, { failingEnv .runtimeDependencyUnavailable with repair }]

theorem turnBudget_accounting_iff_brokenAfterResume :
    Along (stepTurn {} .beaker .implementationPlan) (QuietAndAsked {} .beaker .implementationPlan)
        (.running (Frame.initial "plan" none) planningState)
        (brokenAfterResume (.ok .unavailable)) ∧
      Accounted .beaker 0 (exec (stepTurn {} .beaker .implementationPlan)
        (.running (Frame.initial "plan" none) planningState)
        (brokenAfterResume (.ok .unavailable))) ∧
      completedTurns (exec (stepRun {}) planningState
        [.turn ⟨.beaker, .implementationPlan, "plan", none,
          brokenAfterResume (.ok .unavailable)⟩]).turns ≤
        (exec (stepRun {}) planningState [.turn ⟨.beaker, .implementationPlan, "plan", none,
          brokenAfterResume (.ok .unavailable)⟩]).run.turnNumber := by
  have hAlong : Along (stepTurn {} .beaker .implementationPlan)
      (QuietAndAsked {} .beaker .implementationPlan)
      (.running (Frame.initial "plan" none) planningState)
      (brokenAfterResume (.ok .unavailable)) := by decide +kernel
  have hReturns : Along (stepTurn {} .beaker .implementationPlan)
      (RepairReturns .implementationPlan) (.running (Frame.initial "plan" none) planningState)
      (brokenAfterResume (.ok .unavailable)) := by decide +kernel
  obtain ⟨hCall, hRun⟩ := turnBudget_accounting_iff {}
  refine ⟨hAlong,
    (hCall .beaker .implementationPlan "plan" none planningState _ hAlong).mpr hReturns, ?_⟩
  refine (hRun planningState _ rfl rfl ?_).1
  intro step hStep
  simp only [mem_singleton] at hStep
  subst hStep
  intro env hEnv
  simp only [brokenAfterResume, mem_cons, not_mem_nil, or_false] at hEnv
  rcases hEnv with rfl | rfl <;> rfl

/-- The same turn, where the search of the shared cache meets a directory that it may not look into:
the last attempt has failed for want of a dependency, and it stays counted. -/
theorem brokenAfterResume_raised :
    Along (stepTurn {} .beaker .implementationPlan) (QuietAndAsked {} .beaker .implementationPlan)
        (.running (Frame.initial "plan" none) planningState)
        (brokenAfterResume (.error (.other "PermissionError"))) ∧
      planningState.run.turnNumber = 0 ∧
      (exec (stepTurn {} .beaker .implementationPlan)
        (.running (Frame.initial "plan" none) planningState)
        (brokenAfterResume (.error (.other "PermissionError")))).state.run.turnNumber = 1 ∧
      (exec (stepTurn {} .beaker .implementationPlan)
        (.running (Frame.initial "plan" none) planningState)
        (brokenAfterResume (.error (.other "PermissionError")))).state.turns.map
          TurnRecord.status =
        [.failed (.runtime (some .runtimeDependencyUnavailable)),
          .failed (.runtime (some .turnTimeout))] := by
  decide +kernel

end Glasslab.Engine.AgentTurn
