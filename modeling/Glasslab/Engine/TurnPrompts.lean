import Glasslab.Foundation.Spacing
import Glasslab.Corpus.Chunking
import Glasslab.Engine.TurnLimits

/-!
# The prompts of one logical turn

`_run_agent_turn` dresses the prompt it was called with in place: retrieved context in front,
the advisory behind, a recovery note in front of both, the contract for the result's kind at
the end. The exception handlers run after that, and what they hand on to the re-entry is the
dressed prompt, without the caller's retrieval query. A call that makes one attempt sends a
prompt composed once. In every later attempt that reaches the model the contract stands twice,
and the query is taken from the dressed prompt.

`Traced` is what one attempt adds to the prompts sent and to the queries, and what it hands on;
the call follows by induction on its attempts.
-/

namespace Glasslab.Engine.AgentTurn

open Foundation Foundation.Tx Foundation.Machine Storage List

variable {settings : TurnSettings} {agent : AgentName} {kind : TurnKind}

def requiredTurnKindInstruction (expectedKind : TurnKind) : String :=
  "\n\nAUTHORITATIVE STRUCTURED OUTPUT CONTRACT:\n" ++
    "- Set the JSON `kind` field to exactly `" ++ expectedKind.value ++ "`.\n" ++
    "- No other `kind` is acceptable for this turn, even if another variant appears plausible.\n" ++
    "- Complete the requested phase, then return one complete AgentTurnResult object with " ++
    "that exact kind.\n"

/-- What the focused repair of an answer of the wrong kind puts behind the prompt. -/
def structuredKindCorrection (returnedKind expectedKind : TurnKind) : String :=
  "\n\nStructured kind correction. Your previous response used kind `" ++ returnedKind.value ++
    "`, but this turn requires kind `" ++ expectedKind.value ++ "` and no other. Complete the " ++
    "original task and return a complete AgentTurnResult with exactly that kind. Do not repeat " ++
    "an earlier workflow phase and do not request actions."

/-- A part with the separator that joins it to the others. -/
def PromptPart.text : PromptPart → String
  | .caller text => text
  | .context text => text ++ "\n\n"
  | .advisory text => "\n\n" ++ text
  | .recovery text => text
  | .kindInstruction kind => requiredTurnKindInstruction kind
  | .kindCorrection returned expected => structuredKindCorrection returned expected

def Prompt.text (prompt : Prompt) : String := String.join (prompt.map PromptPart.text)

/-- `_retrieval_query`. -/
def deriveRetrievalQuery (objective prompt : String) (turnKind : TurnKind) : String :=
  let objective := strip Corpus.isSpace objective.toList
  let promptHead := strip Corpus.isSpace ((collapse Corpus.isSpace ' ' prompt.toList).take 300)
  String.ofList (strip Corpus.isSpace
    (turnKind.value.toList ++ ' ' :: (objective ++ ' ' :: promptHead)))

/-- The query the knowledge manager gets to see. -/
def RetrievalQuery.text (objective : String) (turnKind : TurnKind) : RetrievalQuery → String
  | .given query => query
  | .derived prompt => deriveRetrievalQuery objective prompt.text turnKind

inductive PartRole where
  | caller
  | context
  | advisory
  | recovery
  | kindInstruction
  | kindCorrection
  deriving DecidableEq, Repr

def PromptPart.role : PromptPart → PartRole
  | .caller _ => .caller
  | .context _ => .context
  | .advisory _ => .advisory
  | .recovery _ => .recovery
  | .kindInstruction _ => .kindInstruction
  | .kindCorrection _ _ => .kindCorrection

def occurrences (role : PartRole) (prompt : Prompt) : Nat :=
  prompt.countP fun part => part.role = role

/-- The caller's prompt stands in it once, and every decoration at most once. -/
structure ComposedOnce (text : String) (prompt : Prompt) : Prop where
  caller : prompt.filter (·.role = .caller) = [.caller text]
  decorations : ∀ role ≠ .caller, occurrences role prompt ≤ 1

@[simp] theorem occurrences_nil (role : PartRole) : occurrences role [] = 0 := rfl

theorem occurrences_cons (role : PartRole) (part : PromptPart) (prompt : Prompt) :
    occurrences role (part :: prompt) =
      occurrences role prompt + if part.role = role then 1 else 0 := by
  simp [occurrences, countP_cons]

theorem occurrences_append (role : PartRole) (left right : Prompt) :
    occurrences role (left ++ right) = occurrences role left + occurrences role right :=
  countP_append

theorem occurrences_of_role_ne {role : PartRole} {part : PromptPart} (h : part.role ≠ role) :
    occurrences role [part] = 0 := by
  rw [occurrences_cons, if_neg h, occurrences_nil]

theorem composePrompt_eq (agent : AgentName) (kind : TurnKind) (prompt : Prompt)
    (recovery : String) (env : AttemptEnv) :
    ∃ recoveryPart contextPart advisoryPart : Prompt,
      composePrompt agent kind prompt recovery env =
        recoveryPart ++ contextPart ++ prompt ++ advisoryPart ++ [.kindInstruction kind] ∧
      (recoveryPart = [] ∨ ∃ text, recoveryPart = [.recovery text]) ∧
      (contextPart = [] ∨ ∃ text, contextPart = [.context text]) ∧
      (advisoryPart = [] ∨ ∃ text, advisoryPart = [.advisory text]) := by
  refine ⟨_, _, _, rfl, ?_, ?_, ?_⟩
  · by_cases hEmpty : recovery = ""
    · exact .inl (if_pos hEmpty)
    · exact .inr ⟨recovery, if_neg hEmpty⟩
  · cases env.context with
    | none => exact .inl rfl
    | some text =>
      by_cases hEmpty : text = ""
      · exact .inl (if_pos hEmpty)
      · exact .inr ⟨text, if_neg hEmpty⟩
  · cases env.advisory with
    | none => exact .inl rfl
    | some text =>
      by_cases hAdvised : agent = .honeydew ∧ kind ∈ [.protocolDraft, .methodologyReview] ∧
          text ≠ ""
      · exact .inr ⟨text, if_pos hAdvised⟩
      · exact .inl (if_neg hAdvised)

theorem composedOnce_composePrompt (agent : AgentName) (kind : TurnKind)
    (text recovery : String) (env : AttemptEnv) :
    ComposedOnce text (composePrompt agent kind [.caller text] recovery env) := by
  obtain ⟨recoveryPart, contextPart, advisoryPart, hEq, hRecovery, hContext, hAdvisory⟩ :=
    composePrompt_eq agent kind [.caller text] recovery env
  rw [hEq]
  refine ⟨?_, fun role hRole => ?_⟩
  · rcases hRecovery with rfl | ⟨_, rfl⟩ <;> rcases hContext with rfl | ⟨_, rfl⟩ <;>
      rcases hAdvisory with rfl | ⟨_, rfl⟩ <;> rfl
  · rcases hRecovery with rfl | ⟨_, rfl⟩ <;> rcases hContext with rfl | ⟨_, rfl⟩ <;>
      rcases hAdvisory with rfl | ⟨_, rfl⟩ <;> cases role <;>
      simp_all [occurrences_cons, PromptPart.role]

theorem ComposedOnce.corrected {text : String} {prompt : Prompt} (h : ComposedOnce text prompt)
    (hFresh : occurrences .kindCorrection prompt = 0) (returned : TurnKind) :
    ComposedOnce text (prompt ++ [.kindCorrection returned kind]) := by
  refine ⟨?_, fun role hRole => ?_⟩
  · rw [filter_append, h.caller]
    rfl
  · rw [occurrences_append, occurrences_cons, occurrences_nil]
    by_cases hCorrection : role = .kindCorrection
    · subst hCorrection
      rw [hFresh]
      exact le_rfl
    · have hOther : (PromptPart.kindCorrection returned kind).role ≠ role := Ne.symm hCorrection
      rw [if_neg hOther]
      exact h.decorations role hRole

/-- The contract is put in once more, whatever the prompt holds already. -/
theorem occurrences_composePrompt {role : PartRole} (hContext : role ≠ .context)
    (hAdvisory : role ≠ .advisory) (hRecovery : role ≠ .recovery) (prompt : Prompt)
    (recovery : String) (env : AttemptEnv) :
    occurrences role (composePrompt agent kind prompt recovery env) =
      occurrences role prompt + if role = .kindInstruction then 1 else 0 := by
  obtain ⟨recoveryPart, contextPart, advisoryPart, hEq, hRecoveryPart, hContextPart,
    hAdvisoryPart⟩ := composePrompt_eq agent kind prompt recovery env
  have hFront : occurrences role recoveryPart = 0 ∧ occurrences role contextPart = 0 := by
    constructor
    · rcases hRecoveryPart with rfl | ⟨_, rfl⟩
      · rfl
      · exact occurrences_of_role_ne (Ne.symm hRecovery)
    · rcases hContextPart with rfl | ⟨_, rfl⟩
      · rfl
      · exact occurrences_of_role_ne (Ne.symm hContext)
  have hBehind : occurrences role advisoryPart = 0 := by
    rcases hAdvisoryPart with rfl | ⟨_, rfl⟩
    · rfl
    · exact occurrences_of_role_ne (Ne.symm hAdvisory)
  rw [hEq]
  simp only [occurrences_append, occurrences_cons, occurrences_nil, hFront.1, hFront.2, hBehind,
    PromptPart.role, eq_comm]
  omega

/-! ## What one attempt sends -/

section Attempt

variable {s s' : TurnState} {frame next : Frame} {env : AttemptEnv} {composed : Prompt}

/-- The exception that the model call and its focused repair end with. -/
def AttemptEnv.failure (agent : AgentName) (kind : TurnKind) (env : AttemptEnv) :
    Option TurnError :=
  match env.reply with
  | .error exc => some exc
  | .ok returned =>
    if returned = kind then none
    else
      match env.correctedReply with
      | .error exc => some exc
      | .ok corrected =>
        if corrected = kind then none
        else
          some (.workflow (agent.value ++ " returned " ++ corrected.value ++ "; expected " ++
            kind.value ++ " after one focused repair"))

/-- The handlers enter the turn again after this failure: a dependency failure whose repair
succeeds, or one that is resumed or retried once the session was rotated. -/
def Recovered (settings : TurnSettings) (agent : AgentName) (frame : Frame)
    (turns : List TurnRecord) (env : AttemptEnv) (exc : TurnError) : Prop :=
  if exc.failureClass = some .runtimeDependencyUnavailable then
    frame.dependencyRepairAttempted = false ∧ env.repaired = true
  else
    env.checkpointError = none ∧
      (shouldAutoResumeTurn settings exc frame.autoResumeAttempts = true ∨
        isRetryableTurnFailure exc = true ∧
          (failedTurns agent turns : Int) + 1 ≤ settings.agentTurnMaxRetries)

/-- What the attempt has added to the prompts sent and to the queries. -/
structure Traced (kind : TurnKind) (frame : Frame) (composed : Prompt) (s s' : TurnState) :
    Prop where
  sent : ∃ new, s'.sent = new ++ s.sent ∧
    ∀ p ∈ new, p = composed ∨ ∃ returned, p = composed ++ [.kindCorrection returned kind]
  queries : s'.queries = s.queries ∨ s'.queries = frame.query :: s.queries

def TurnState.trace (s : TurnState) : List TurnRecord × List Prompt × List RetrievalQuery :=
  (s.turns, s.sent, s.queries)

theorem trace_besideRun : BesideRun TurnState.trace := fun _ _ _ => rfl

/-- Before its turn is opened an attempt sends nothing. -/
theorem Traced.of_trace (h : s'.trace = s.trace) : Traced kind frame composed s s' := by
  obtain ⟨_, hSent, hQueries⟩ : s'.turns = s.turns ∧ s'.sent = s.sent ∧ s'.queries = s.queries := by
    simpa [TurnState.trace] using h
  exact ⟨⟨[], hSent, fun p hp => by cases hp⟩, .inl hQueries⟩

theorem Traced.congr {s₁ : TurnState} (h : Traced kind frame composed s s')
    (hSent : s₁.sent = s'.sent) (hQueries : s₁.queries = s'.queries) :
    Traced kind frame composed s s₁ := by
  refine ⟨?_, ?_⟩
  · rw [hSent]
    exact h.sent
  · rw [hQueries]
    exact h.queries

theorem openTurn_traced (frame : Frame) (sessionId : String) :
    wp (openTurn agent frame sessionId)
      (fun _ s' => s'.trace =
        (⟨agent, sessionId, .running⟩ :: s.turns, s.sent, frame.query :: s.queries))
      (fun _ s' => s'.trace = s.trace) s := by
  refine wp_step (keeps_getRun trace_besideRun s) (fun run s₁ h₁ => ?_) (fun _ _ h => h)
  refine wp_step (keeps_replaceRun trace_besideRun _ _ s₁) (fun _ s₂ h₂ => ?_)
    (fun _ _ h => h.trans h₁)
  rw [saveTurn, wp_bind, wp_modify, wp_modify]
  have hTrace := h₂.trans h₁
  simp only [TurnState.trace, Prod.mk.injEq] at hTrace ⊢
  simp [hTrace]

/-- The model call sends the prompt, and once more with the correction behind it. -/
theorem callModel_traced (prompt : Prompt) (env : AttemptEnv) (s : TurnState) :
    wp (callModel agent kind prompt env)
      (fun _ s' => s'.turns = s.turns ∧ s'.queries = s.queries ∧ ∃ new, s'.sent = new ++ s.sent ∧
        ∀ p ∈ new, p = prompt ∨ ∃ returned, p = prompt ++ [.kindCorrection returned kind])
      (fun exc s' => (s'.turns = s.turns ∧ s'.queries = s.queries ∧
        ∃ new, s'.sent = new ++ s.sent ∧
          ∀ p ∈ new, p = prompt ∨ ∃ returned, p = prompt ++ [.kindCorrection returned kind]) ∧
        ((∃ state, exc = stopped state) ∨ env.failure agent kind = some exc)) s := by
  unfold callModel getAdvancingRun
  rw [wp_bind]
  refine wp_step (wp_getRun_keeps trace_besideRun s) (fun current s₁ h₁ => ?_)
    (fun _ _ h => h.elim)
  obtain ⟨hTurns, hSent, hQueries⟩ :
      s₁.turns = s.turns ∧ s₁.sent = s.sent ∧ s₁.queries = s.queries := by
    simpa [TurnState.trace] using h₁
  have hNone : ∃ new, s₁.sent = new ++ s.sent ∧
      ∀ p ∈ new, p = prompt ∨ ∃ returned, p = prompt ++ [.kindCorrection returned kind] :=
    ⟨[], hSent, fun p hp => by cases hp⟩
  have hFirst : ∃ new, prompt :: s₁.sent = new ++ s.sent ∧
      ∀ p ∈ new, p = prompt ∨ ∃ returned, p = prompt ++ [.kindCorrection returned kind] :=
    ⟨[prompt], by rw [hSent]; rfl, fun p hp => .inl (mem_singleton.mp hp)⟩
  rw [wp_ite]
  refine ⟨fun _ => ⟨⟨hTurns, hQueries, hNone⟩, .inl ⟨_, rfl⟩⟩, fun _ => ?_⟩
  rw [wp_pure, send, wp_bind, wp_modify, wp_bind, wp_ofExcept]
  refine ⟨fun returned hReply => ?_, fun exc hReply => ⟨⟨hTurns, hQueries, hFirst⟩, .inr ?_⟩⟩
  · rw [wp_ite]
    refine ⟨fun _ => ⟨hTurns, hQueries, hFirst⟩, fun hKind => ?_⟩
    -- the answer is of the wrong kind: one more prompt, with the correction behind it
    have hBoth : ∃ new,
        (prompt ++ [.kindCorrection returned kind]) :: prompt :: s₁.sent = new ++ s.sent ∧
        ∀ p ∈ new, p = prompt ∨ ∃ returned, p = prompt ++ [.kindCorrection returned kind] := by
      refine ⟨[prompt ++ [.kindCorrection returned kind], prompt], by rw [hSent]; rfl, ?_⟩
      intro p hp
      rcases mem_cons.mp hp with rfl | hp
      · exact .inr ⟨returned, rfl⟩
      · exact .inl (mem_singleton.mp hp)
    rw [send, wp_bind, wp_modify, wp_bind, wp_ofExcept]
    refine ⟨fun corrected hCorrected => ?_, fun exc hCorrected =>
      ⟨⟨hTurns, hQueries, hBoth⟩, .inr ?_⟩⟩
    · rw [wp_ite]
      refine ⟨fun _ => ⟨hTurns, hQueries, hBoth⟩, fun hStill =>
        ⟨⟨hTurns, hQueries, hBoth⟩, .inr ?_⟩⟩
      unfold AttemptEnv.failure
      simp only [hReply, hKind, hCorrected, hStill, if_false]
    · unfold AttemptEnv.failure
      simp only [hReply, hKind, hCorrected, if_false]
  · unfold AttemptEnv.failure
    rw [hReply]

def TurnState.log (s : TurnState) : List Prompt × List RetrievalQuery := (s.sent, s.queries)

theorem log_besideRun : BesideRun TurnState.log := fun _ _ _ => rfl

theorem keeps_completeTurn (returned : TurnKind) :
    Keeps TurnState.log (completeTurn returned) := by
  refine (keeps_finishTurn (fun _ _ => rfl) _).bind fun _ =>
    (keeps_getAdvancingRun log_besideRun).bind fun _ => ?_
  exact (keeps_replaceRun log_besideRun _ _).bind fun _ =>
    (keeps_getAdvancingRun log_besideRun).bind fun _ => .pure _

/-- What a re-entry is handed: the prompt as it was sent, and no query. -/
structure Handover (composed : Prompt) (next : Frame) : Prop where
  prompt : next.prompt = composed
  retrievalQuery : next.retrievalQuery = none

theorem rollBack_handover {P : Prop} (hNext : Handover composed next) (hP : P) (s : TurnState) :
    wp (do rollBackTurnNumber; pure (.reenter next) : TurnM AttemptEnd)
      (fun r s' => s'.log = s.log ∧ ∀ next, r = .reenter next → Handover composed next ∧ P)
      (fun _ s' => s'.log = s.log) s := by
  refine wp_step (keeps_rollBackTurnNumber log_besideRun s) (fun _ s' hLog => ?_) (fun _ _ h => h)
  refine ⟨hLog, fun next' hNext' => ?_⟩
  cases hNext'
  exact ⟨hNext, hP⟩

theorem rotateAgentSession_checkpoint (s : TurnState) :
    wp (rotateAgentSession agent env) (fun _ s' => env.checkpointError = none ∧ s'.trace = s.trace)
      (fun _ s' => s'.trace = s.trace) s := by
  refine wp_step (keeps_getRun trace_besideRun s) (fun current s₁ h₁ => ?_) (fun _ _ h => h)
  refine wp_step (keeps_replaceRun trace_besideRun _ _ s₁) (fun _ s₂ h₂ => ?_)
    (fun _ _ h => h.trans h₁)
  cases env.checkpointError with
  | none => exact ⟨rfl, h₂.trans h₁⟩
  | some message => exact h₂.trans h₁

/-- The handlers send nothing, and enter the turn again only after a failure they recover. -/
theorem handleFailure_handover {exc : TurnError} {turns : List TurnRecord} {sessionId : String}
    (hTurns : s.turns = ⟨agent, sessionId, .running⟩ :: turns) :
    wp (handleFailure settings agent frame composed env exc)
      (fun r s' => s'.log = s.log ∧ ∀ next, r = .reenter next →
        Handover composed next ∧ Recovered settings agent frame turns env exc)
      (fun _ s' => s'.log = s.log) s := by
  unfold handleFailure finishTurn
  rw [wp_bind, wp_modify, hTurns]
  have hCount : failedTurns agent (⟨agent, sessionId, .failed exc⟩ :: turns) =
      failedTurns agent turns + 1 := by
    simp [failedTurns, TurnRecord.isFailed]
  unfold Recovered
  rw [wp_ite]
  refine ⟨fun hClass => ?_, fun hClass => ?_⟩
  · rw [if_pos hClass]
    rw [wp_recoverRuntimeDependencyFailure]
    refine ⟨fun _ _ _ => rfl,
      fun hFlag hRepaired => rollBack_handover ⟨rfl, rfl⟩ ⟨hFlag, hRepaired⟩ _, fun _ => ?_⟩
    exact wp_step (keeps_rollbackUnconsumedTurnNumber log_besideRun _) (fun _ _ h => h)
      (fun _ _ h => h)
  · rw [if_neg hClass]
    refine wp_step (rotateAgentSession_checkpoint _) (fun _ s₁ h₁ => ?_)
      (fun _ _ h => congrArg Prod.snd h)
    obtain ⟨hCheckpoint, hTrace⟩ := h₁
    have hLog : s₁.log = s.log := congrArg Prod.snd hTrace
    have hTurns₁ : s₁.turns = ⟨agent, sessionId, .failed exc⟩ :: turns := congrArg Prod.fst hTrace
    rw [wp_bind, wp_get, wp_ite, ← hLog]
    refine ⟨fun hResume => rollBack_handover ⟨rfl, rfl⟩ ⟨hCheckpoint, .inl hResume⟩ s₁,
      fun _ => ?_⟩
    rw [wp_ite]
    refine ⟨fun hRetry => rollBack_handover ⟨rfl, rfl⟩ ⟨hCheckpoint, .inr ?_⟩ s₁, fun _ => rfl⟩
    simp only [shouldRetryTurn, hTurns₁, hCount, decide_eq_true_eq] at hRetry
    exact_mod_cast hRetry

def AttemptTrace (settings : TurnSettings) (agent : AgentName) (kind : TurnKind) (frame : Frame)
    (env : AttemptEnv) (s : TurnState) (r : Option AttemptEnd) (s' : TurnState) : Prop :=
  ∃ recovery, Traced kind frame (composePrompt agent kind frame.prompt recovery env) s s' ∧
    ∀ next, r = some (.reenter next) →
      Handover (composePrompt agent kind frame.prompt recovery env) next ∧
      ∃ exc, env.failure agent kind = some exc ∧ Recovered settings agent frame s.turns env exc

theorem not_recovered_stopped (turns : List TurnRecord) (state : RunState) :
    ¬ Recovered settings agent frame turns env (stopped state) := by
  intro h
  unfold Recovered at h
  rcases h.2 with hResume | hRetry
  · unfold shouldAutoResumeTurn stopped at hResume
    simp at hResume
  · exact absurd hRetry.1 (by simp [isRetryableTurnFailure, stopped])

theorem attempt_traced (settings : TurnSettings) (agent : AgentName) (kind : TurnKind)
    (frame : Frame) (env : AttemptEnv) (s : TurnState) :
    wp (attempt settings agent kind frame env)
      (fun r s' => AttemptTrace settings agent kind frame env s (some r) s')
      (fun _ s' => AttemptTrace settings agent kind frame env s none s') s := by
  have hRaised : ∀ s', s'.trace = s.trace →
      AttemptTrace settings agent kind frame env s none s' :=
    fun s' hTrace => ⟨"", .of_trace hTrace, fun next hNext => by cases hNext⟩
  refine wp_step (keeps_prepareTurn trace_besideRun env s) (fun p s₁ h₁ => ?_)
    (fun _ s₁ h₁ => hRaised s₁ h₁)
  obtain ⟨recovery, sessionId⟩ := p
  refine wp_step (openTurn_traced frame sessionId) (fun _ s₂ h₂ => ?_)
    (fun _ s₂ h₂ => hRaised s₂ (h₂.trans h₁))
  obtain ⟨hTurns₂, hSent₂, hQueries₂⟩ : s₂.turns = ⟨agent, sessionId, .running⟩ :: s.turns ∧
      s₂.sent = s.sent ∧ s₂.queries = frame.query :: s.queries := by
    simp only [TurnState.trace, Prod.mk.injEq] at h₁ h₂
    obtain ⟨hTurns, hSent, hQueries⟩ := h₁
    rw [hTurns, hSent, hQueries] at h₂
    exact h₂
  rw [wp_bind, wp_result]
  refine wp_mono (callModel_traced _ env s₂) (fun returned s₃ h₃ => ?_) (fun exc s₃ h₃ => ?_)
  · obtain ⟨_, hQueries₃, hSent₃⟩ := h₃
    rw [hSent₂] at hSent₃
    have hTraced : Traced kind frame (composePrompt agent kind frame.prompt recovery env) s s₃ :=
      ⟨hSent₃, .inr (hQueries₃.trans hQueries₂)⟩
    refine wp_mono (wp_and (keeps_completeTurn returned s₃) (completeTurn_completed returned))
      (fun r s₄ h₄ => ?_) (fun _ s₄ h₄ => ?_)
    · obtain ⟨hLog, rfl⟩ := h₄
      exact ⟨recovery, hTraced.congr (congrArg Prod.fst hLog) (congrArg Prod.snd hLog),
        fun next hNext => by cases hNext⟩
    · exact ⟨recovery, hTraced.congr (congrArg Prod.fst h₄.1) (congrArg Prod.snd h₄.1),
        fun next hNext => by cases hNext⟩
  · obtain ⟨⟨hTurns₃, hQueries₃, hSent₃⟩, hExc⟩ := h₃
    rw [hSent₂] at hSent₃
    have hTraced : Traced kind frame (composePrompt agent kind frame.prompt recovery env) s s₃ :=
      ⟨hSent₃, .inr (hQueries₃.trans hQueries₂)⟩
    refine wp_mono (handleFailure_handover (hTurns₃.trans hTurns₂)) (fun r s₄ h₄ => ?_)
      (fun _ s₄ h₄ => ?_)
    · obtain ⟨hLog, hHandover⟩ := h₄
      refine ⟨recovery, hTraced.congr (congrArg Prod.fst hLog) (congrArg Prod.snd hLog),
        fun next hNext => ?_⟩
      obtain ⟨hNext, hRecovered⟩ := hHandover next (Option.some.inj hNext)
      rcases hExc with ⟨state, rfl⟩ | hFailure
      · exact (not_recovered_stopped s.turns state hRecovered).elim
      · exact ⟨hNext, exc, hFailure, hRecovered⟩
    · exact ⟨recovery, hTraced.congr (congrArg Prod.fst h₄) (congrArg Prod.snd h₄),
        fun next hNext => by cases hNext⟩

theorem stepTurn_traced (settings : TurnSettings) (agent : AgentName) (kind : TurnKind)
    (frame : Frame) (env : AttemptEnv) (s : TurnState) :
    ∃ recovery, Traced kind frame (composePrompt agent kind frame.prompt recovery env) s
        (stepTurn settings agent kind (.running frame s) env).state ∧
      ∀ next s', stepTurn settings agent kind (.running frame s) env = .running next s' →
        Handover (composePrompt agent kind frame.prompt recovery env) next ∧
        ∃ exc, env.failure agent kind = some exc ∧
          Recovered settings agent frame s.turns env exc := by
  have hSpec := attempt_traced settings agent kind frame env
    { s with clock := env.clock, interference := env.interference }
  unfold wp at hSpec
  rcases hAttempt : attempt settings agent kind frame env
    { s with clock := env.clock, interference := env.interference } with ⟨exc | r, s₁⟩
  · have hStep : stepTurn settings agent kind (.running frame s) env = .done (.error exc) s₁ := by
      simp only [stepTurn, hAttempt]
    rw [hAttempt] at hSpec
    obtain ⟨recovery, hTraced, -⟩ := hSpec
    rw [hStep]
    exact ⟨recovery, ⟨hTraced.sent, hTraced.queries⟩, fun next s' h => by cases h⟩
  · rw [hAttempt] at hSpec
    obtain ⟨recovery, hTraced, hReenter⟩ := hSpec
    cases r with
    | completed returned =>
      have hStep : stepTurn settings agent kind (.running frame s) env =
          .done (.ok returned) s₁ := by
        simp only [stepTurn, hAttempt]
      rw [hStep]
      exact ⟨recovery, ⟨hTraced.sent, hTraced.queries⟩, fun next s' h => by cases h⟩
    | reenter next₁ =>
      have hStep : stepTurn settings agent kind (.running frame s) env = .running next₁ s₁ := by
        simp only [stepTurn, hAttempt]
      rw [hStep]
      refine ⟨recovery, ⟨hTraced.sent, hTraced.queries⟩, fun next s' h => ?_⟩
      cases h
      exact hReenter next₁ rfl

end Attempt

/-! ## The call -/

section Call

variable {frame : Frame} {s : TurnState} {prompt : String} {query : Option String}

/-- A call that starts with an empty log. -/
def TurnConfig.initial (prompt : String) (query : Option String) (s : TurnState) : TurnConfig :=
  .running (Frame.initial prompt query) { s with sent := [], queries := [] }

/-- Every prompt of the call was composed once, and every query is that of the first attempt. -/
structure OnePrompt (kind : TurnKind) (prompt : String) (query : Option String)
    (objective : String) (s : TurnState) : Prop where
  sent : ∀ p ∈ s.sent, ComposedOnce prompt p
  queries : ∀ q ∈ s.queries,
    q.text objective kind = (Frame.initial prompt query).query.text objective kind

def NotRecovered (settings : TurnSettings) (agent : AgentName) (kind : TurnKind) :
    TurnConfig → AttemptEnv → Prop
  | .running frame s, env =>
    ∀ exc ∈ env.failure agent kind, ¬ Recovered settings agent frame s.turns env exc
  | .done _ _, _ => True

theorem onePrompt_first (settings : TurnSettings) (agent : AgentName) (kind : TurnKind)
    (prompt : String) (query : Option String) (s : TurnState) (objective : String)
    (env : AttemptEnv) :
    OnePrompt kind prompt query objective
      (stepTurn settings agent kind (.initial prompt query s) env).state := by
  obtain ⟨recovery, ⟨⟨new, hSent, hNew⟩, hQueries⟩, -⟩ :=
    stepTurn_traced settings agent kind
      (Frame.initial prompt query) env { s with sent := [], queries := [] }
  have hOnce := composedOnce_composePrompt agent kind prompt recovery env
  refine ⟨fun p hp => ?_, fun q hq => ?_⟩
  · unfold TurnConfig.initial at hp
    rw [hSent, append_nil] at hp
    rcases hNew p hp with rfl | ⟨returned, rfl⟩
    · exact hOnce
    · refine hOnce.corrected ?_ returned
      rw [occurrences_composePrompt (by decide) (by decide) (by decide)]
      rfl
  · unfold TurnConfig.initial at hq
    rcases hQueries with hNone | hOne
    · rw [hNone] at hq
      cases hq
    · rw [hOne] at hq
      rw [mem_singleton.mp hq]

/-- An attempt whose failure is not recovered is the last of its call. -/
theorem exec_of_notRecovered {env : AttemptEnv} (envs : List AttemptEnv)
    (h : NotRecovered settings agent kind (.running frame s) env) :
    exec (stepTurn settings agent kind) (.running frame s) (env :: envs) =
      stepTurn settings agent kind (.running frame s) env := by
  rw [exec_cons]
  cases hStep : stepTurn settings agent kind (.running frame s) env with
  | done result s₁ => exact exec_done result s₁ envs
  | running next s₁ =>
    obtain ⟨_, _, hReenter⟩ :=
      stepTurn_traced settings agent kind frame env s
    obtain ⟨_, exc, hFailure, hRecovered⟩ := hReenter next s₁ hStep
    exact (h exc hFailure hRecovered).elim

/-- Once the contract stands in the prompt of a frame, every prompt sent from there on repeats
it. -/
theorem sent_repeats (settings : TurnSettings) (agent : AgentName) (kind : TurnKind)
    (hFrame : 1 ≤ occurrences .kindInstruction frame.prompt) (s : TurnState)
    (envs : List AttemptEnv) :
    ∃ new, (exec (stepTurn settings agent kind) (.running frame s) envs).state.sent =
        new ++ s.sent ∧ ∀ p ∈ new, 2 ≤ occurrences .kindInstruction p := by
  induction envs generalizing frame s with
  | nil => exact ⟨[], rfl, fun p hp => by cases hp⟩
  | cons env envs ih =>
    obtain ⟨recovery, ⟨⟨new, hSent, hNew⟩, -⟩, hReenter⟩ :=
      stepTurn_traced settings agent kind frame env s
    have hComposed : occurrences .kindInstruction
        (composePrompt agent kind frame.prompt recovery env) =
          occurrences .kindInstruction frame.prompt + 1 :=
      occurrences_composePrompt (by decide) (by decide) (by decide) frame.prompt recovery env
    have hRepeats : ∀ p ∈ new, 2 ≤ occurrences .kindInstruction p := by
      intro p hp
      rcases hNew p hp with rfl | ⟨returned, rfl⟩
      · omega
      · rw [occurrences_append]
        omega
    rw [exec_cons]
    cases hStep : stepTurn settings agent kind (.running frame s) env with
    | done result s₁ =>
      rw [hStep] at hSent
      rw [exec_done]
      exact ⟨new, hSent, hRepeats⟩
    | running next s₁ =>
      rw [hStep] at hSent
      obtain ⟨hHandover, -⟩ := hReenter next s₁ hStep
      obtain ⟨later, hLater, hLaterRepeats⟩ :=
        ih (by rw [hHandover.prompt]; omega) s₁
      refine ⟨later ++ new, ?_, fun p hp => ?_⟩
      · rw [hLater, append_assoc]
        exact congrArg (later ++ ·) hSent
      · rcases mem_append.mp hp with hp | hp
        · exact hLaterRepeats p hp
        · exact hRepeats p hp

/-- The prompts of a call are composed once as long as only its first attempt sends any. -/
theorem sent_composedOnce_iff (env : AttemptEnv) (envs : List AttemptEnv) :
    (∀ p ∈ (exec (stepTurn settings agent kind) (.initial prompt query s) (env :: envs)).state.sent,
        ComposedOnce prompt p) ↔
      (exec (stepTurn settings agent kind) (.initial prompt query s) (env :: envs)).state.sent =
        (stepTurn settings agent kind (.initial prompt query s) env).state.sent := by
  have hFirst := (onePrompt_first settings agent kind prompt query s "" env).sent
  constructor
  · intro hOnce
    rw [exec_cons] at hOnce ⊢
    cases hStep : stepTurn settings agent kind (.initial prompt query s) env with
    | done result s₁ => rw [exec_done]
    | running next s₁ =>
      obtain ⟨recovery, -, hReenter⟩ := stepTurn_traced settings agent kind
        (Frame.initial prompt query) env { s with sent := [], queries := [] }
      obtain ⟨hHandover, -⟩ := hReenter next s₁ hStep
      have hFrame : 1 ≤ occurrences .kindInstruction next.prompt := by
        rw [hHandover.prompt, occurrences_composePrompt (by decide) (by decide) (by decide)]
        exact Nat.le_add_left 1 _
      obtain ⟨later, hLater, hRepeats⟩ := sent_repeats settings agent kind hFrame s₁ envs
      rw [hStep, hLater] at hOnce
      have hNone : later = [] := by
        refine eq_nil_iff_forall_not_mem.mpr fun p hp => ?_
        have hAtMost := (hOnce p (mem_append_left _ hp)).decorations .kindInstruction
          (by decide)
        have hTwice := hRepeats p hp
        omega
      rw [hLater, hNone]
      rfl
  · intro hSame
    rw [hSame]
    exact hFirst

end Call

/-- A call whose failures are not recovered sends prompts composed once and makes one query. Of
the prompts that is so in no other call: what a later attempt sends repeats the contract. -/
theorem turnPrompts_composedOnce (settings : TurnSettings) (agent : AgentName) (kind : TurnKind)
    (prompt : String) (query : Option String) (s : TurnState) :
    (∀ envs, Along (stepTurn settings agent kind) (NotRecovered settings agent kind)
        (.initial prompt query s) envs →
      OnePrompt kind prompt query s.run.objective
        (exec (stepTurn settings agent kind) (.initial prompt query s) envs).state) ∧
    ∀ env envs,
      (∀ p ∈ (exec (stepTurn settings agent kind) (.initial prompt query s)
          (env :: envs)).state.sent, ComposedOnce prompt p) ↔
        (exec (stepTurn settings agent kind) (.initial prompt query s) (env :: envs)).state.sent =
          (stepTurn settings agent kind (.initial prompt query s) env).state.sent := by
  refine ⟨fun envs hAlong => ?_, sent_composedOnce_iff⟩
  cases envs with
  | nil => exact ⟨fun p hp => (by cases hp), fun q hq => (by cases hq)⟩
  | cons env envs =>
    unfold TurnConfig.initial
    rw [exec_of_notRecovered envs hAlong.1]
    exact onePrompt_first settings agent kind prompt query s s.run.objective env

/-- The answer has the right kind, and the retrieval finds a packet. -/
def answeringEnv : AttemptEnv :=
  { failingEnv .provider with context := some "packet", reply := .ok .implementationPlan }

/-- The answer has another kind, and its correction is not valid. -/
def invalidEnv : AttemptEnv :=
  { answeringEnv with
    reply := .ok .experimentAnalysis
    correctedReply := .error (.runtime (some .validation)) }

/-- A turn whose only attempt fails after the correction, and one whose first answer is right. -/
theorem turnPrompts_composedOnce_answered :
    OnePrompt .implementationPlan "plan" (some "evidence") "objective"
      (exec (stepTurn {} .beaker .implementationPlan)
        (.initial "plan" (some "evidence") planningState) [invalidEnv, answeringEnv]).state ∧
    OnePrompt .implementationPlan "plan" (some "evidence") "objective"
      (exec (stepTurn {} .beaker .implementationPlan)
        (.initial "plan" (some "evidence") planningState) [answeringEnv]).state := by
  have hOnce := (turnPrompts_composedOnce {} .beaker .implementationPlan "plan" (some "evidence")
    planningState).1
  refine ⟨hOnce _ ⟨fun exc hExc => ?_, ?_⟩, hOnce _ ⟨fun exc hExc => ?_, trivial⟩⟩
  · cases hExc
    rintro ⟨_, hResume | ⟨hRetry, _⟩⟩
    · cases hResume
    · cases hRetry
  · have hDone : (stepTurn {} .beaker .implementationPlan
        (.initial "plan" (some "evidence") planningState) invalidEnv).isRunning = false := by
      decide +kernel
    revert hDone
    cases stepTurn {} .beaker .implementationPlan (.initial "plan" (some "evidence") planningState)
      invalidEnv with
    | running frame s =>
      intro hDone
      cases hDone
    | done result s => exact fun _ => ⟨trivial, trivial⟩
  · cases hExc

def retriedOnce : List AttemptEnv :=
  [{ failingEnv .provider with context := some "packet" },
    { answeringEnv with recoveryContext := .ok "checkpoint" }]

/-- The second of two attempts sends the packet and the contract twice and retrieves for the
prompt of the first. -/
theorem turnPrompts_repeated :
    ¬ OnePrompt .implementationPlan "plan" (some "evidence") "objective"
      (exec (stepTurn {} .beaker .implementationPlan)
        (.initial "plan" (some "evidence") planningState) retriedOnce).state := by
  intro h
  have hSent : [.recovery "checkpoint", .context "packet", .context "packet", .caller "plan",
      .kindInstruction .implementationPlan, .kindInstruction .implementationPlan] ∈
      (exec (stepTurn {} .beaker .implementationPlan)
        (.initial "plan" (some "evidence") planningState) retriedOnce).state.sent := by
    decide +kernel
  exact absurd ((h.sent _ hSent).decorations .context (by decide)) (by decide)

end Glasslab.Engine.AgentTurn
