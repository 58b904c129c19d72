import Glasslab.Engine.Workflow

/-!
# Rules for the workflow

The contract under which the calls of a run are judged: between any two steps the run may be
paused, and answers are what the result at hand admits. `Triple I G P p Q` is its triple, with
`I` the invariant and `G` the admitted answers.

A `Discipline` says what an invariant `I`, and an assertion `A` for the phases that are not at a
gate, must survive: changes aside, new and rewritten action rows, artifacts and transitions. The
phases that none of the results singles out then keep to it by `Discipline.body`.
-/

namespace Glasslab.Engine.Workflow

open Foundation

/-! ## The contract -/

variable {G : Answers} {I P' P : WorkflowStore → Prop}

section Contract

variable {α β : Type}

/-- What is admitted as an answer to a question. -/
abbrev Answers := (q : Question) → q.Answer → WorkflowStore → Prop

theorem WorkflowStore.pause_pause (s : WorkflowStore) : s.pause.pause = s.pause := by
  unfold WorkflowStore.pause
  split
  · exact if_neg (by simp [WorkflowStore.paused, WorkflowStore.moved, validTransition_irrefl])
  · rfl

def workflowContract (I : WorkflowStore → Prop) (G : Answers) :
    Contract WorkflowStore Unit Question Question.Answer where
  Inv w := I w.1
  Asks _ _ := True
  rely w w' := w' = w ∨ w' = (w.1.pause, ())
  answers q w _ a := G q a w.1
  refl _ := .inl rfl
  trans h h' := by
    rcases h with rfl | rfl
    · exact h'
    · rcases h' with rfl | rfl
      · exact .inr rfl
      · exact .inr (by rw [WorkflowStore.pause_pause])

/-- An assertion that a pause cannot break. -/
structure Stable (I P : WorkflowStore → Prop) : Prop where
  pause : ∀ s, P s → P s.pause
  inv : ∀ s, P s → I s

variable {Q Q' : α → WorkflowStore → Prop} {R : β → WorkflowStore → Prop} {p : WorkflowM α}

theorem Stable.holds (h : Stable I P) : (workflowContract I G).Holds fun w => P w.1 where
  stable w w' hw hRely := by
    rcases hRely with rfl | rfl
    · exact hw
    · exact h.pause _ hw
  inv w hw := h.inv w.1 hw

theorem Stable.and (h : Stable I P) (hPause : ∀ s, P' s → P' s.pause) :
    Stable I fun s => P s ∧ P' s where
  pause s hs := ⟨h.pause s hs.1, hPause s hs.2⟩
  inv s hs := h.inv s hs.1

/-- From every store in `P` the program ends in `Q`, and in `I` if it raises. -/
def Triple (I : WorkflowStore → Prop) (G : Answers) (P : WorkflowStore → Prop) (p : WorkflowM α)
    (Q : α → WorkflowStore → Prop) : Prop :=
  Leads (workflowContract I G) (fun _ w => I w.1) (fun w => P w.1) p fun a w => Q a w.1

theorem triple_pure {a : α} (hP : Stable I P) (h : ∀ s, P s → Q a s) :
    Triple I G P (pure a) Q :=
  leads_pure hP.holds fun w hw => h w.1 hw

theorem Stable.ret {a : α} (hP : Stable I P) : Triple I G P (pure a) fun _ => P :=
  triple_pure hP fun _ hs => hs

theorem Stable.raise {e : Error} (hP : Stable I P) : Triple I G P (.raise e) Q :=
  leads_raise hP.holds fun w hw => hP.inv w.1 hw

variable {g : α → WorkflowM β}

theorem Triple.bind (hFirst : Triple I G P p Q)
    (hRest : ∀ a, Triple I G (Q a) (g a) R) : Triple I G P (p >>= g) R :=
  leads_bind hFirst hRest

/-- A program that comes back to the assertion it started from. -/
theorem Triple.seq (hFirst : Triple I G P p fun _ => P)
    (hRest : ∀ a, Triple I G P (g a) R) : Triple I G P (p >>= g) R :=
  leads_bind hFirst hRest

section

variable (hP : Stable I P)
include hP

theorem triple_ofExcept {x : Except Error α} (h : ∀ a s, P s → Q a s) :
    Triple I G P (Proc.ofExcept x) Q := by
  cases x with
  | ok a => exact triple_pure hP (h a)
  | error e => exact hP.raise

variable {f : WorkflowStore → WorkflowStore}

theorem triple_access
    {F : WorkflowStore → WorkflowStore → Prop} (hF : ∀ s, Stable I (F s))
    (h : ∀ s, P s → F s (f s)) : Triple I G P (Proc.access f) F :=
  leads_access hP.holds (fun s => (hF s).holds) fun w hw => h w.1 hw

theorem triple_access_keep
    (hP' : Stable I P') (h : ∀ s, P s → P' (f s)) : Triple I G P (Proc.access f) fun _ => P' :=
  triple_access hP (fun _ => hP') h

theorem Stable.query {q : Question} :
    Triple I G P (Proc.query q) fun _ => P :=
  leads_query hP.holds fun _ _ => trivial

theorem triple_query_admitted {q : Question}
    (hG : ∀ a s, G q a s → G q a s.pause) :
    Triple I G P (Proc.query q) fun a s => P s ∧ G q a s := by
  intro w hw w' hRely
  have hw' := hP.holds.stable w w' hw hRely
  refine ⟨hP.inv _ hw', trivial, fun _ a hAnswer => ?_⟩
  exact safe_pure (hP.and (hG a)).holds ⟨hw', hAnswer⟩ fun _ h => h

end

variable {handler : Error → WorkflowM α} {A : WorkflowStore → Prop}

theorem triple_tryCatch (hBody : Triple I G P p Q)
    (hHandler : ∀ e, Triple I G I (handler e) Q) : Triple I G P (p.tryCatch handler) Q :=
  leads_tryCatch hBody hHandler

theorem safe_workflow_mono {w : WorkflowStore × Unit}
    {E : Error → WorkflowStore × Unit → Prop} {F : α → WorkflowStore × Unit → Prop}
    (h : Safe (workflowContract A G) F E p w) (hInv : ∀ s, A s → I s) :
    Safe (workflowContract I G) F E p w := by
  induction p generalizing w with
  | done a => exact fun w' hRely => ⟨hInv _ (h w' hRely).1, (h w' hRely).2⟩
  | raise e => exact fun w' hRely => ⟨hInv _ (h w' hRely).1, (h w' hRely).2⟩
  | act f k ih => exact fun w' hRely => ⟨hInv _ (h w' hRely).1, ih w'.1 (h w' hRely).2⟩
  | ask q k ih =>
    intro w' hRely
    obtain ⟨hA, hAsks, hNext⟩ := h w' hRely
    exact ⟨hInv _ hA, hAsks, fun c a hAnswer => ih a (hNext c a hAnswer)⟩

/-- A block that keeps a stronger invariant, which its handler then finds. -/
theorem triple_tryCatch_within
    (hInv : ∀ s, A s → I s) (hBody : Triple A G P p Q)
    (hHandler : ∀ e, Triple I G A (handler e) Q) : Triple I G P (p.tryCatch handler) Q :=
  leads_tryCatch (fun w hw => safe_workflow_mono (hBody w hw) hInv) hHandler

theorem Triple.pre (h : Triple I G P p Q) (hPre : ∀ s, P' s → P s) : Triple I G P' p Q :=
  Leads.pre h fun w hw => hPre w.1 hw

theorem Triple.post (h : Triple I G P p Q) (hPost : ∀ a s, Q a s → Q' a s) :
    Triple I G P p Q' :=
  Leads.post h fun a w hw => hPost a w.1 hw

def Seen (read s : WorkflowStore) : Prop := s = read ∨ s = read.pause

variable {read s : WorkflowStore}

theorem Seen.pause (h : Seen read s) : Seen read s.pause := by
  rcases h with rfl | rfl
  · exact .inr rfl
  · exact .inr read.pause_pause

theorem Seen.keep (h : Seen read s) (hP : Stable I P) (hRead : P read) :
    P s := by
  rcases h with rfl | rfl
  · exact hRead
  · exact hP.pause _ hRead

section

variable (hP : Stable I P)
include hP

theorem Stable.seen (read : WorkflowStore) :
    Stable I fun s => P read ∧ Seen read s where
  pause _ hs := ⟨hs.1, hs.2.pause⟩
  inv _ hs := hP.inv _ (hs.2.keep hP hs.1)

theorem triple_getStore :
    Triple I G P getStore fun read s => P read ∧ Seen read s :=
  triple_access hP hP.seen fun _ hs => ⟨hs, .inl rfl⟩

theorem Stable.getStore : Triple I G P getStore fun _ => P :=
  triple_access_keep hP hP fun _ hs => hs

theorem Stable.effect {e : Effect} : Triple I G P (effect e) fun _ => P :=
  hP.query.seq fun _ => triple_ofExcept hP fun _ _ hs => hs

theorem Stable.test {t : Test} : Triple I G P (test t) fun _ => P :=
  hP.query.seq fun _ => triple_ofExcept hP fun _ _ hs => hs

end

end Contract

section Pause

variable (s : WorkflowStore)

@[simp] theorem pause_actions : s.pause.actions = s.actions := by
  unfold WorkflowStore.pause; split <;> rfl

@[simp] theorem pause_artifacts : s.pause.artifacts = s.artifacts := by
  unfold WorkflowStore.pause; split <;> rfl

@[simp] theorem pause_approvals : s.pause.approvals = s.approvals := by
  unfold WorkflowStore.pause; split <;> rfl

theorem pause_runState : s.pause.runState = s.runState ∨ s.pause.runState = .paused := by
  unfold WorkflowStore.pause
  split
  · exact .inr rfl
  · exact .inl rfl

variable {s} {read : WorkflowStore}

theorem Seen.actions (h : Seen read s) : s.actions = read.actions := by
  rcases h with rfl | rfl
  · rfl
  · exact pause_actions read

theorem Seen.runState (h : Seen read s) :
    s.runState = read.runState ∨ s.runState = .paused := by
  rcases h with rfl | rfl
  · exact .inl rfl
  · exact pause_runState read

end Pause

/-! ## Disciplines -/

/-- Nothing changed that any result is about: only events, counters and job rows. -/
structure Aside (s s' : WorkflowStore) : Prop where
  runState : s'.runState = s.runState
  resumeState : s'.resumeState = s.resumeState
  actions : s'.actions = s.actions
  artifacts : s'.artifacts = s.artifacts
  initialState : s'.initialState = s.initialState
  deeds : s'.deeds = s.deeds
  approvals : s'.approvals = s.approvals

/-- An assertion that only pauses and changes aside can meet. -/
structure Kept (I P : WorkflowStore → Prop) : Prop extends Stable I P where
  aside : ∀ s s', Aside s s' → P s → P s'

/-- A rewriting of an action row that approves nothing. -/
structure Tame (f : ActionRecord → ActionRecord) : Prop where
  actionId : ∀ a, (f a).actionId = a.actionId
  type : ∀ a, (f a).type = a.type
  status : ∀ a, (f a).approvalStatus = .approved → a.approvalStatus = .approved

theorem tame_decided {status : ApprovalStatus} {reviewer reason : String}
    (h : status ≠ .approved) : Tame (decided status reviewer reason) :=
  ⟨fun _ => rfl, fun _ => rfl, fun _ hStatus => absurd hStatus h⟩

theorem tame_signedOff : Tame signedOff := ⟨fun _ => rfl, fun _ => rfl, fun _ h => h⟩

theorem initialStatus_ne_approved (c : PolicyClassification) : initialStatus c ≠ .approved := by
  cases c <;> decide

def WorkflowStore.addAction (s : WorkflowStore) (record : ActionRecord) : WorkflowStore :=
  { s with actions := s.actions ++ [record] }

structure Discipline (I A : WorkflowStore → Prop) : Prop where
  idle : Kept I I
  away : Kept I A
  record : ∀ s record, record.approvalStatus ≠ .approved → A s → A (s.addAction record)
  rewrite : ∀ s actionId f, Tame f → A s → A (s.rewriteAction actionId f)
  rewriteIdle : ∀ s actionId f, Tame f → I s → I (s.rewriteAction actionId f)
  artifact : ∀ s artifact, artifact.type ≠ .evaluationContractCandidate → A s →
    A (s.saveArtifact artifact)
  depart : ∀ s target, target ∉ humanWaitStates → target ≠ .honeydewReviewingContract →
    target ≠ .paused → A s → validTransition s.runState target = true → A (s.moved none target)
  arrive : ∀ s target, target ∈ humanWaitStates → target ≠ .awaitingContractPromotion → A s →
    validTransition s.runState target = true → I (s.moved none target)
  leave : ∀ s target,
    target ∈ [RunState.beakerRevising, .honeydewDraftingProtocol, .honeydewWritingReport] → I s →
    validTransition s.runState target = true → A (s.moved none target)
  redraft : ∀ s, s.runState ≠ .awaitingProtocolApproval → I s →
    validTransition s.runState .beakerDraftingContract = true →
    A (s.moved none .beakerDraftingContract)
  enter : ∀ s, s.runState ∉ humanWaitStates → s.runState ≠ .honeydewReviewingContract →
    s.runState ≠ .paused → I s → A s
  fail : ∀ s, I s → validTransition s.runState .failed = true → I (s.moved none .failed)

variable {actionId : String} {A : WorkflowStore → Prop}

section Programs

variable {α : Type} {Q : α → WorkflowStore → Prop} {p : WorkflowM α}

theorem Kept.event (hP : Kept I P) {eventType : String} {actionId : Option String} :
    Triple I G P (event eventType actionId) fun _ => P :=
  Triple.bind (triple_access_keep hP.toStable hP.toStable fun s hs =>
    hP.aside s _ ⟨rfl, rfl, rfl, rfl, rfl, rfl, rfl⟩ hs) fun _ =>
      hP.ret

theorem Kept.self (hP : Kept I P) : Kept P P where
  pause := hP.pause
  inv _ hs := hs
  aside := hP.aside

/-- A transition that is taken from `P` ends in `P'`. -/
theorem triple_transitionFor {driver : Option String} {target : RunState} (hP : Stable I P)
    (hP' : Stable I P')
    (h : ∀ s, P s → validTransition s.runState target = true → P' (s.moved driver target)) :
    Triple I G P (transitionFor driver target) fun _ => P' := by
  refine Triple.bind (triple_access (F := fun read s =>
    if validTransition read.runState target = true then P' s else P s) hP (fun read => ?_)
    fun s hs => ?_) fun read => ?_
  · split
    · exact hP'
    · exact hP
  · split
    next hValid => exact h s hs hValid
    next hValid => exact hs
  · split
    · exact hP'.ret
    · exact hP.raise

theorem Kept.pauseRun (hP : Kept I P) : Triple I G P pauseRun fun _ => P := by
  refine hP.getStore.seq fun _ => ?_
  split
  · exact hP.ret
  · refine Triple.seq (triple_access_keep hP.toStable hP.toStable fun s hs => hP.pause s hs)
      fun _ => ?_
    split
    · exact hP.event
    · exact hP.raise

theorem action?_pause {s : WorkflowStore} :
    s.pause.action? actionId = s.action? actionId := by
  rw [WorkflowStore.action?, WorkflowStore.action?, pause_actions]

theorem triple_getAction (hP : Stable I P) :
    Triple I G P (getAction actionId) fun action s => P s ∧ s.action? actionId = some action := by
  refine Triple.bind (triple_getStore hP) fun read => ?_
  cases hFind : read.action? actionId with
  | none => exact (hP.seen read).raise
  | some action =>
    refine triple_pure (hP.seen read) fun s hs => ⟨hs.2.keep hP hs.1, ?_⟩
    rw [← hFind, WorkflowStore.action?, WorkflowStore.action?, hs.2.actions]

/-- A row that may be rewritten is found and rewritten. -/
theorem triple_rewriteActionIf {admitted : List ApprovalStatus} {refusal : String}
    {f : ActionRecord → ActionRecord} {F : ActionRecord → WorkflowStore → Prop} (hP : Stable I P)
    (hF : ∀ a, Stable I (F a))
    (h : ∀ s action, P s → s.action? actionId = some action →
      F (f action) (s.rewriteAction actionId f)) :
    Triple I G P (rewriteActionIf admitted refusal actionId f) F := by
  let Post (read s : WorkflowStore) : Prop :=
    (read.action? actionId).elim (P s) fun action =>
      if action.approvalStatus ∈ admitted then F (f action) s else P s
  have hPost : ∀ read, Stable I (Post read) := by
    intro read
    cases hFind : read.action? actionId with
    | none => simpa only [Post, hFind, Option.elim_none] using hP
    | some action =>
      by_cases hStatus : action.approvalStatus ∈ admitted
      · simpa only [Post, hFind, Option.elim_some, hStatus, if_true] using hF (f action)
      · simpa only [Post, hFind, Option.elim_some, hStatus, if_false] using hP
  refine Triple.bind (triple_access hP hPost fun s hs => ?_) fun read => ?_
  · cases hFind : s.action? actionId with
    | none => simpa [Post, hFind] using hs
    | some action =>
      by_cases hStatus : action.approvalStatus ∈ admitted
      · simpa [Post, hFind, hStatus] using h s action hs hFind
      · simpa [Post, hFind, hStatus] using hs
  · cases hFind : read.action? actionId with
    | none => exact (hPost read).raise
    | some action =>
      by_cases hStatus : action.approvalStatus ∈ admitted
      · simp only [hStatus, if_true]
        refine triple_pure (hPost read) fun s hs => ?_
        simpa only [Post, hFind, Option.elim_some, hStatus, if_true] using hs
      · simp only [hStatus, if_false]
        exact (hPost read).raise

section

variable (hP : Kept I P)
include hP

/-- A new row is appended unless its key or its id is taken. -/
theorem triple_saveActionWithEvent {record : ActionRecord}
    (hRecord : ∀ s, P s → P (s.addAction record)) :
    Triple I G P (saveActionWithEvent record) fun _ => P := by
  refine Triple.seq (triple_access_keep hP.toStable hP.toStable fun s hs => ?_) fun read => ?_
  · split
    · exact hP.aside (s.addAction record) _ ⟨rfl, rfl, rfl, rfl, rfl, rfl, rfl⟩ (hRecord s hs)
    · exact hs
  · split
    · exact hP.ret
    · split
      · exact hP.ret
      · exact hP.raise

theorem Kept.repairActionProposedEvent {action : ActionRecord} :
    Triple I G P (repairActionProposedEvent action) fun _ => P := by
  refine hP.getStore.seq fun _ => ?_
  split
  · exact hP.ret
  · exact hP.event

theorem Kept.replaceRun {f : WorkflowStore → WorkflowStore}
    (hf : ∀ s, Aside s (f s)) : Triple I G P (replaceRun f) fun _ => P :=
  hP.effect.seq fun _ =>
    triple_access_keep hP.toStable hP.toStable fun s hs => hP.aside s _ (hf s) hs

theorem Kept.runAgentTurn {agent : AgentName} {kind : TurnKind}
    (hTimedOut : ∀ s, P s → validTransition s.runState .timedOut = true →
      P (s.moved none .timedOut)) : Triple I G P (runAgentTurn agent kind) fun _ => P := by
  have hS := hP.toStable
  refine hS.query.seq fun answer => ?_
  match answer with
  | .error failure =>
    match hStop : failure.stop with
    | none => simpa only [hStop] using hS.raise
    | some .timedOut =>
      simp only [hStop]
      exact Triple.seq (triple_transitionFor hS hS hTimedOut) fun _ => hS.raise
    | some .paused =>
      simp only [hStop]
      exact hP.pauseRun.seq fun _ => hS.raise
  | .ok result =>
    refine Triple.seq (triple_access_keep hS hS fun s hs =>
      hP.aside s _ ⟨rfl, rfl, rfl, rfl, rfl, rfl, rfl⟩ hs) fun _ => ?_
    refine hS.getStore.seq fun _ => ?_
    split
    · exact hS.raise
    · exact hS.ret

theorem Kept.createJobs {action : ActionRecord} (keys : List String) :
    Triple I G P (createJobs action keys) fun _ => P := by
  induction keys with
  | nil => exact hP.ret
  | cons key rest ih =>
    refine Triple.seq (triple_access_keep hP.toStable hP.toStable fun s hs => ?_) fun read => ?_
    · split
      · exact hP.aside s _ ⟨rfl, rfl, rfl, rfl, rfl, rfl, rfl⟩ hs
      · exact hs
    · split
      · exact hP.event.seq fun _ => ih
      · exact ih

end

end Programs

/-! ## Phases -/

def Leaves (I : WorkflowStore → Prop) (Pre : Phase → WorkflowStore → Prop) :
    Next Phase Handler → WorkflowStore → Prop
  | .finish => I
  | .goto phase => Pre phase
  | .guarded _ phase => Pre phase

theorem Stable.finish {I : WorkflowStore → Prop} {G : Answers} {Pre : Phase → WorkflowStore → Prop}
    (hI : Stable I I) : Triple I G I finish (Leaves I Pre) :=
  triple_pure hI fun _ hs => hs

def Phase.plain : Phase → Bool
  | draftProtocol | beakerDraftContract | beakerPlan | beakerImplement | beakerFinalize
  | honeydewReview | beakerRevise | fillJobCapacity | reconcileRun | analyzeResults
  | verifyResults | writeReport _ => true
  | _ => false

/-- Nobody waits for a person in such a state, and no contract is under review. -/
abbrev Working (state : RunState) : Prop :=
  state ∉ humanWaitStates ∧ state ≠ .honeydewReviewingContract ∧ state ≠ .paused

def gateStates : List RunState :=
  [.honeydewReviewingContract, .awaitingContractPromotion, .awaitingExecutionApproval,
    .awaitingFinalAcceptance]

variable {Pre : Phase → WorkflowStore → Prop} {engine : Orchestrator}

namespace Discipline

section Statements

variable (hD : Discipline I A)
include hD

variable {target : RunState}

theorem transition_away (h : Working target) : Triple I G A (transition target) fun _ => A :=
  triple_transitionFor hD.away.toStable hD.away.toStable fun s hs hValid =>
    hD.depart s target h.1 h.2.1 h.2.2 hs hValid

theorem transition_arrive (hWait : target ∈ humanWaitStates)
    (hPromotion : target ≠ .awaitingContractPromotion) :
    Triple I G A (transition target) fun _ => I :=
  triple_transitionFor hD.away.toStable hD.idle.toStable fun s hs hValid =>
    hD.arrive s target hWait hPromotion hs hValid

theorem failRun : Triple I G I failRun fun _ => I := by
  refine hD.idle.getStore.seq fun _ => ?_
  split
  · exact hD.idle.ret
  · refine Triple.seq (triple_tryCatch ?_ fun exc => ?_) fun failed => ?_
    · exact Triple.seq (triple_transitionFor hD.idle.toStable hD.idle.toStable hD.fail) fun _ =>
        hD.idle.ret
    · split
      · exact hD.idle.ret
      · exact hD.idle.raise
    · split
      · exact hD.idle.event
      · exact hD.idle.ret

variable {agent : AgentName} {kind : TurnKind}

theorem runAgentTurn :
    Triple I G A (runAgentTurn agent kind) fun _ => A :=
  hD.away.runAgentTurn fun s hs hValid =>
    hD.depart s .timedOut (by decide) (by decide) (by decide) hs hValid

theorem updateAction {reviewer reason : String} {status : ApprovalStatus}
    (hStatus : status ≠ .approved) :
    Triple I G A (updateAction actionId status reviewer reason) fun _ => A :=
  triple_rewriteActionIf hD.away.toStable (fun _ => hD.away.toStable) fun s _ hs _ =>
    hD.rewrite s actionId _ (tame_decided hStatus) hs

theorem markActionHoneydewApproved :
    Triple I G A (markActionHoneydewApproved actionId) fun _ => A :=
  triple_rewriteActionIf hD.away.toStable (fun _ => hD.away.toStable) fun s _ hs _ =>
    hD.rewrite s actionId _ tame_signedOff hs

theorem saveNew {runId : String} {requested : RequestedAction} {ordinal : Nat} :
    Triple I G A (saveActionWithEvent (engine.buildRecord runId actionId agent requested ordinal))
      fun _ => A :=
  triple_saveActionWithEvent hD.away fun s hs =>
    hD.record s _ (initialStatus_ne_approved _) hs

theorem recordActions {turnNumber : Nat} (requested : List RequestedAction) (index : Nat) :
    Triple I G A (recordActions engine agent turnNumber requested index)
      fun _ => A := by
  have hA := hD.away.toStable
  induction requested generalizing index with
  | nil => exact hA.ret
  | cons first rest ih =>
    refine hA.getStore.seq fun _ => ?_
    refine hA.query.seq fun _ => ?_
    refine hD.saveNew.seq fun ⟨record, created⟩ => ?_
    have hRest : ∀ _ : PUnit, Triple I G A (do
        let records ← Workflow.recordActions engine agent turnNumber rest (index + 1)
        pure (record :: records)) fun _ => A :=
      fun _ => (ih (index + 1)).seq fun _ => hA.ret
    cases created with
    | true => exact hRest ()
    | false => exact Triple.seq hD.away.repairActionProposedEvent hRest

variable {result : AgentTurnResult}

theorem recordRequestedActions :
    Triple I G A (recordRequestedActions engine agent result) fun _ => A :=
  hD.away.getStore.seq fun _ => hD.recordActions _ 0

theorem createHumanAction {type : ActionType} {reason : String} :
    Triple I G A (createHumanAction engine type reason) fun _ => A := by
  have hA := hD.away.toStable
  refine hA.getStore.seq fun _ => ?_
  refine hA.getStore.seq fun _ => ?_
  refine hA.query.seq fun _ => ?_
  refine hD.saveNew.seq fun ⟨record, created⟩ => ?_
  cases created with
  | true => exact hA.ret
  | false =>
    exact hD.away.repairActionProposedEvent.seq fun _ => hA.ret

theorem saveLocalArtifact {artifact : LocalArtifact}
    (hType : artifact.type ≠ .evaluationContractCandidate) :
    Triple I G A (saveLocalArtifact artifact) fun _ => A :=
  Triple.seq (triple_access_keep hD.away.toStable hD.away.toStable fun s hs =>
    hD.artifact s artifact hType hs) fun _ => hD.away.ret

theorem draftTurn : Triple I G A draftTurn fun _ => A := by
  have hA := hD.away.toStable
  refine hD.runAgentTurn.seq fun result => ?_
  split
  · refine hD.away.event.seq fun _ => ?_
    refine hD.runAgentTurn.seq fun repaired => ?_
    split
    · exact hA.ret
    · exact hA.raise
  · exact hA.ret

theorem repairMissingFile {path purpose refusal missing : String} :
    Triple I G A (repairMissingFile agent kind path purpose refusal missing) fun _ => A := by
  have hA := hD.away.toStable
  refine hA.test.seq fun present => ?_
  split
  · exact hA.ret
  · refine hD.away.event.seq fun _ => ?_
    refine hD.runAgentTurn.seq fun repaired => ?_
    split
    · exact hA.raise
    · refine hA.test.seq fun present => ?_
      split
      · exact hD.away.event
      · exact hA.raise

theorem draftProposal :
    Triple I G A (draftProposal result) fun _ => A := by
  have hA := hD.away.toStable
  unfold Workflow.draftProposal
  split
  · exact hA.ret
  · refine hA.query.seq fun answer => ?_
    match answer with
    | .error exc => exact hA.raise
    | .ok (some proposal) =>
      exact hD.away.event.seq fun _ => hA.ret
    | .ok none =>
      refine hD.away.event.seq fun _ => ?_
      refine hD.runAgentTurn.seq fun repaired => ?_
      split
      · exact hD.away.event.seq fun _ => hA.ret
      · exact hA.raise

theorem clampProposal {proposal : Payload} :
    Triple I G A (clampProposal proposal) fun _ => A := by
  have hA := hD.away.toStable
  refine hA.query.seq fun answer => ?_
  match answer with
  | none => exact hA.ret
  | some clamped => exact hD.away.event.seq fun _ => hA.ret

theorem wait (hWait : target ∈ humanWaitStates) (hPromotion : target ≠ .awaitingContractPromotion) :
    Triple I G A (transition target >>= fun _ => finish) (Leaves I Pre) :=
  (hD.transition_arrive hWait hPromotion).bind fun _ =>
    hD.idle.finish

theorem submitDraft {proposal : Payload} :
    Triple I G A (submitDraft engine proposal) (Leaves I Pre) := by
  have hA := hD.away.toStable
  refine hA.getStore.seq fun run => ?_
  refine hA.query.seq fun digests => ?_
  refine (hD.saveLocalArtifact (by simp)).seq fun _ => ?_
  refine hD.away.event.seq fun _ => ?_
  refine (hD.saveLocalArtifact (by simp)).seq fun _ => ?_
  refine hD.away.event.seq fun _ => ?_
  refine hD.createHumanAction.seq fun _ => ?_
  exact hD.wait (by decide) (by decide)

theorem draftProtocol : Triple I G A (draftProtocol engine) (Leaves I Pre) := by
  have hA := hD.away.toStable
  refine hA.effect.seq fun _ => ?_
  refine hD.draftTurn.seq fun result => ?_
  split
  · refine hD.repairMissingFile.seq fun _ => ?_
    refine hA.effect.seq fun _ => ?_
    refine hD.draftProposal.seq fun _ => ?_
    refine hD.clampProposal.seq fun _ => ?_
    refine hA.effect.seq fun _ => ?_
    refine hA.effect.seq fun _ => ?_
    exact hD.submitDraft
  · exact hA.raise

theorem resumeTerminalRetry : Triple I G A (resumeTerminalRetry engine) (Leaves I Pre) := by
  have hA := hD.away.toStable
  refine hA.effect.seq fun _ => ?_
  refine hA.getStore.seq fun run => ?_
  refine hA.query.seq fun answer => ?_
  match answer with
  | .error exc => exact hA.raise
  | .ok none => exact hA.raise
  | .ok (some proposal) =>
    refine hA.query.seq fun digests => ?_
    refine (hD.saveLocalArtifact (by simp)).seq fun _ => ?_
    refine (hD.saveLocalArtifact (by simp)).seq fun _ => ?_
    refine hA.getStore.seq fun s => ?_
    have hRest : ∀ _ : PUnit, Triple I G A
        (transition .awaitingProtocolApproval >>= fun _ => finish) (Leaves I Pre) :=
      fun _ => hD.wait (by decide) (by decide)
    split
    · exact hD.createHumanAction.seq fun _ => hRest ()
    · exact Triple.seq hD.away.repairActionProposedEvent hRest

theorem failClosed {eventType : String} (hP : Stable I P) :
    Triple I G P (failClosed eventType) (Leaves I Pre) := by
  refine Triple.pre (P := I) ?_ hP.inv
  refine hD.idle.event.seq fun _ => ?_
  exact hD.failRun.seq fun _ => hD.idle.finish

variable {action : ActionRecord}

theorem sealCandidate
    (hG : ∀ a s, G (.sealCandidate action) a s → G (.sealCandidate action) a s.pause) :
    Triple I G A (sealCandidate engine action) fun outcome s =>
      A s ∧ ∀ c, outcome = .candidate c → G (.sealCandidate action) (.ok (.ok c)) s := by
  have hA := hD.away.toStable
  have hSelf := hD.away.self
  refine triple_tryCatch_within hD.away.inv ?_ fun exc => ?_
  · refine Triple.bind (triple_query_admitted hSelf.toStable hG) fun answer => ?_
    have hStable : Stable A fun s => A s ∧ G (.sealCandidate action) answer s :=
      hSelf.toStable.and (hG answer)
    match answer with
    | .error exc => exact hStable.raise
    | .ok (.ok candidate) =>
      refine triple_pure hStable fun s hs => ⟨hs.1, fun c hc => ?_⟩
      cases hc
      exact hs.2
    | .ok (.error conflict) =>
      refine Triple.pre (P := A) ?_ fun s hs => hs.1
      refine Triple.seq (triple_rewriteActionIf hSelf.toStable (fun _ => hSelf.toStable)
        fun s _ hs _ => hD.rewrite s _ _ (tame_decided (by decide)) hs) fun _ => ?_
      refine hSelf.event.seq fun _ => ?_
      refine hSelf.event.seq fun _ => ?_
      refine hSelf.pauseRun.seq fun _ => ?_
      exact triple_pure hSelf.toStable fun s hs => ⟨hs, nofun⟩
  · split
    · refine (hD.updateAction (by decide)).seq fun _ => ?_
      refine hD.away.event.seq fun _ => ?_
      refine hA.getStore.seq fun s => ?_
      dsimp only
      split
      · exact hA.raise
      · exact triple_pure hA fun s hs => ⟨hs, nofun⟩
    · exact hA.raise

/-- A promotion, from where it may note that it promotes and where it may open its gate. -/
theorem promoteContractCandidate (hP : Kept I P)
    (hNote : Triple I G P (note .promoteCandidate action) fun _ => P)
    (hOpen : Triple I G P (transitionFor (some action.actionId) .beakerPlanning >>= fun _ =>
      goto .beakerPlan) (Leaves I Pre)) :
    Triple I G P (promoteContractCandidate action) (Leaves I Pre) := by
  have hS := hP.toStable
  refine hS.getStore.seq fun s => ?_
  dsimp only
  split
  · refine hS.effect.seq fun _ => ?_
    refine hS.query.seq fun answer => ?_
    match answer with
    | .error exc => exact hS.raise
    | .ok (some false) => exact hD.failClosed hS
    | .ok (some true) =>
      refine hS.test.seq fun conflict => ?_
      split
      · exact hD.failClosed hS
      · refine hNote.seq fun _ => ?_
        refine hS.effect.seq fun _ => ?_
        refine hP.event.seq fun _ => ?_
        refine hS.test.seq fun compatible => ?_
        split
        · exact hOpen
        · exact hD.failClosed hS
    | .ok none =>
      refine hS.test.seq fun conflict => ?_
      split
      · exact hD.failClosed hS
      · refine hNote.seq fun _ => ?_
        refine hS.effect.seq fun _ => ?_
        refine hS.effect.seq fun _ => ?_
        refine hS.effect.seq fun _ => ?_
        refine hP.event.seq fun _ => ?_
        refine hS.test.seq fun compatible => ?_
        split
        · exact hOpen
        · exact hS.raise
  · exact hS.raise

omit hD in
/-- The submission of a matrix, from where it finds the run at its gate. -/
theorem submitMatrix (hP : Stable I P) (hP' : Kept I P')
    (hAt : ∀ run s, run.runState = .awaitingExecutionApproval → P run → Seen run s → P' s)
    (hNote : Triple I G P' (note .submitMatrix action) fun _ => P')
    (hOpen : Triple I G P' (transitionFor (some action.actionId) .jobQueued >>= fun _ =>
      goto .fillJobCapacity) (Leaves I Pre)) :
    Triple I G P (submitMatrix action) (Leaves I Pre) := by
  have hS := hP'.toStable
  refine Triple.bind (triple_getStore hP) fun run => ?_
  split
  next => exact (hP.seen run).raise
  next hState =>
    refine Triple.pre (P := P') ?_ fun s hs => hAt run s (not_not.mp hState) hs.1 hs.2
    refine hS.query.seq fun answer => ?_
    match answer with
    | .error exc => exact hS.raise
    | .ok keys =>
      refine hNote.seq fun _ => ?_
      refine (hP'.createJobs keys).seq fun _ => ?_
      refine hS.getStore.seq fun current => ?_
      split
      · exact hS.raise
      · exact hOpen

section Successors

variable (hPre : ∀ phase, phase.plain = true → ∀ s, A s → Pre phase s)
include hPre

variable {phase : Phase}

theorem goto (hPhase : phase.plain = true) :
    Triple I G A (goto phase) (Leaves I Pre) :=
  triple_pure hD.away.toStable fun s hs => hPre phase hPhase s hs

/-- Go over to another phase, in the state it works in. -/
theorem proceed (h : Working target) (hPhase : phase.plain = true) :
    Triple I G A (transition target >>= fun _ => Workflow.goto phase) (Leaves I Pre) :=
  (hD.transition_away h).seq fun _ => hD.goto hPre hPhase

omit hPre in
theorem pauseAndFinish : Triple I G A (pauseRun >>= fun _ => finish) (Leaves I Pre) :=
  hD.away.pauseRun.seq fun _ =>
    triple_pure hD.away.toStable fun s hs => hD.away.inv s hs

theorem beakerDraftContract (hDraft : Triple I G A (draftCandidate engine) (Leaves I Pre)) :
    Triple I G A (beakerDraftContract engine) (Leaves I Pre) := by
  have hA := hD.away.toStable
  refine hA.getStore.seq fun s => ?_
  split
  · exact hA.raise
  · refine hA.test.seq fun installed => ?_
    split
    · refine hA.effect.seq fun _ => ?_
      refine hA.test.seq fun compatible => ?_
      split
      · refine hD.away.event.seq fun _ => ?_
        exact hD.proceed hPre (by decide) rfl
      · exact hA.effect.seq fun _ => hDraft
    · exact hDraft

theorem draftCandidate
    (hG : ∀ action a s, G (.sealCandidate action) a s → G (.sealCandidate action) a s.pause)
    (hRecord : ∀ action candidate,
      Triple I G (fun s => A s ∧ G (.sealCandidate action) (.ok (.ok candidate)) s)
        (recordCandidate action candidate) (Leaves I Pre)) :
    Triple I G A (draftCandidate engine) (Leaves I Pre) := by
  have hA := hD.away.toStable
  refine hA.effect.seq fun _ => ?_
  refine hD.runAgentTurn.seq fun result => ?_
  refine hD.recordRequestedActions.seq fun actions => ?_
  dsimp only
  split
  next action _ =>
    refine hA.effect.seq fun _ => ?_
    refine (hD.sealCandidate (hG action)).bind fun outcome => ?_
    match outcome with
    | .conflict =>
      exact Triple.pre (triple_pure hA fun s hs => hD.away.inv s hs) fun s hs => hs.1
    | .redraft => exact Triple.pre (hD.goto hPre rfl) fun s hs => hs.1
    | .candidate candidate =>
      exact Triple.pre (hRecord action candidate) fun s hs => ⟨hs.1, hs.2 candidate rfl⟩
  next => exact hD.away.event.seq fun _ => hD.goto hPre rfl

theorem beakerPlan : Triple I G A beakerPlan (Leaves I Pre) := by
  have hA := hD.away.toStable
  refine hD.runAgentTurn.seq fun result => ?_
  split
  · exact hA.raise
  · refine hD.repairMissingFile.seq fun _ => ?_
    refine hD.away.event.seq fun _ => ?_
    exact hD.proceed hPre (by decide) rfl

theorem requestMethodologyRevision :
    Triple I G A (requestMethodologyRevision engine) (Leaves I Pre) := by
  refine Triple.seq (hD.away.replaceRun fun s => ⟨rfl, rfl, rfl, rfl, rfl, rfl, rfl⟩) fun run => ?_
  have hRest : ∀ _ : PUnit, Triple I G A (do
      event "methodology.revision_requested" none
      if engine.settings.maximumMethodologyRevisions < run.methodologyRevisionCount + 1 then
        event "methodology.human_resolution_requested" none
        pauseRun
        finish
      else
        Workflow.goto .beakerRevise) (Leaves I Pre) := by
    intro _
    refine hD.away.event.seq fun _ => ?_
    split
    · exact hD.away.event.seq fun _ => hD.pauseAndFinish
    · exact hD.goto hPre rfl
  dsimp only
  split
  · exact Triple.seq (hD.transition_away (by decide)) hRest
  · exact hRest ()

theorem advanceAfterMatrixProposal {actions : List ActionRecord} :
    Triple I G A (advanceAfterMatrixProposal engine actions) (Leaves I Pre) := by
  unfold Workflow.advanceAfterMatrixProposal
  split
  · exact hD.proceed hPre (by decide) rfl
  · exact hD.requestMethodologyRevision hPre

theorem proposeMatrix {kind : TurnKind} :
    Triple I G A (do
      let result ← Workflow.runAgentTurn .beaker kind
      let actions ← Workflow.recordRequestedActions engine .beaker result
      Workflow.advanceAfterMatrixProposal engine actions) (Leaves I Pre) :=
  hD.runAgentTurn.seq fun _ => hD.recordRequestedActions.seq fun _ =>
    hD.advanceAfterMatrixProposal hPre

theorem beakerImplement : Triple I G A (beakerImplement engine) (Leaves I Pre) := by
  refine hD.away.test.seq fun planned => ?_
  split
  · exact hD.away.effect.seq fun _ => hD.proposeMatrix hPre
  · exact hD.proceed hPre (by decide) rfl

theorem beakerFinalize : Triple I G A (beakerFinalize engine) (Leaves I Pre) := by
  refine hD.away.test.seq fun imported => ?_
  split
  · exact hD.proposeMatrix hPre
  · exact hD.proceed hPre (by decide) rfl

theorem beakerRevise : Triple I G A (beakerRevise engine) (Leaves I Pre) :=
  hD.away.effect.seq fun _ => hD.proposeMatrix hPre

variable {action : ActionRecord}

omit hPre in
theorem rejectMatrix {reason : String} :
    Triple I G A (rejectMatrix action reason) fun _ => A :=
  (hD.updateAction (by decide)).seq fun _ => hD.away.event

theorem reviewMatrix :
    Triple I G A (reviewMatrix engine action) (Leaves I Pre) := by
  have hA := hD.away.toStable
  refine hA.effect.seq fun _ => ?_
  refine hD.away.event.seq fun _ => ?_
  refine hD.runAgentTurn.seq fun result => ?_
  split
  · refine hD.markActionHoneydewApproved.seq fun _ => ?_
    refine hD.away.event.seq fun _ => ?_
    refine (hD.transition_arrive (by decide) (by decide)).bind fun _ => ?_
    exact hD.idle.event.seq fun _ => hD.idle.finish
  · refine (hD.updateAction (by decide)).seq fun _ => ?_
    refine hD.away.event.seq fun _ => ?_
    exact hA.effect.seq fun _ => hD.requestMethodologyRevision hPre

theorem honeydewReview : Triple I G A (honeydewReview engine) (Leaves I Pre) := by
  have hA := hD.away.toStable
  refine hA.getStore.seq fun s => ?_
  split
  · exact hA.raise
  next action _ =>
    refine hA.query.seq fun answer => ?_
    match answer with
    | .error exc => exact hA.raise
    | .ok .passed => exact hD.reviewMatrix hPre
    | .ok (.nonRetryable errors) =>
      refine hD.rejectMatrix.seq fun _ => ?_
      exact hD.away.event.seq fun _ => hD.pauseAndFinish
    | .ok (.failed errors repeated) =>
      refine hD.rejectMatrix.seq fun _ => ?_
      split
      · exact hD.away.event.seq fun _ => hD.pauseAndFinish
      · exact hD.requestMethodologyRevision hPre

theorem fillJobCapacity : Triple I G A fillJobCapacity (Leaves I Pre) := by
  have hA := hD.away.toStable
  have hFinish : Triple I G A finish (Leaves I Pre) :=
    triple_pure hA fun s hs => hD.away.inv s hs
  refine hA.effect.seq fun _ => ?_
  refine hA.getStore.seq fun run => ?_
  refine hA.test.seq fun active => ?_
  split
  · exact (hD.transition_away (by decide)).seq fun _ => hFinish
  · split
    · refine hA.test.seq fun deferred => ?_
      split
      · exact hFinish
      · exact hD.proceed hPre (by decide) rfl
    · exact hFinish

theorem analyzeResults : Triple I G A (analyzeResults engine) (Leaves I Pre) := by
  refine hD.away.effect.seq fun _ => ?_
  refine hD.runAgentTurn.seq fun result => ?_
  refine hD.recordRequestedActions.seq fun _ => ?_
  exact hD.proceed hPre (by decide) rfl

theorem repairCycle : Triple I G A repairCycle (Leaves I Pre) := by
  refine Triple.seq (triple_access_keep hD.away.toStable hD.away.toStable fun s hs =>
    hD.away.aside s _ ⟨rfl, rfl, rfl, rfl, rfl, rfl, rfl⟩ hs) fun _ => ?_
  exact hD.proceed hPre (by decide) rfl

theorem verifyResults : Triple I G A verifyResults (Leaves I Pre) := by
  have hA := hD.away.toStable
  refine hA.effect.seq fun _ => ?_
  refine hD.runAgentTurn.seq fun result => ?_
  have hRest : ∀ resolved : Bool, Triple I G A (do
      if resolved ∧ result.done then
        transition .honeydewWritingReport
        Workflow.goto (.writeReport 0)
      else
        Workflow.repairCycle) (Leaves I Pre) := by
    intro resolved
    split
    · exact hD.proceed hPre (by decide) rfl
    · exact hD.repairCycle hPre
  split
  · exact hRest true
  · exact Triple.seq hA.test hRest

theorem handOverReport {attempt : Nat} {result : AgentTurnResult} :
    Triple I G A (handOverReport engine attempt result) (Leaves I Pre) := by
  have hA := hD.away.toStable
  unfold Workflow.handOverReport
  split
  · refine hA.query.seq fun answer => ?_
    match answer with
    | .ok _ =>
      refine hA.getStore.seq fun run => ?_
      refine hA.query.seq fun digest => ?_
      refine (hD.saveLocalArtifact (by simp)).seq fun _ => ?_
      refine hD.away.event.seq fun _ => ?_
      refine hD.createHumanAction.seq fun _ => ?_
      exact hD.wait (by decide) (by decide)
    | .error exc =>
      dsimp only
      split
      · exact hA.raise
      · split
        · exact hD.away.event.seq fun _ => hD.pauseAndFinish
        · exact hD.away.event.seq fun _ => hD.goto hPre rfl
  · exact hA.raise

theorem writeReport {attempt : Nat} : Triple I G A (writeReport engine attempt) (Leaves I Pre) := by
  have hTurn : ∀ _ : Unit, Triple I G A (do
      let result ← Workflow.runAgentTurn .honeydew .finalReport
      Workflow.handOverReport engine attempt result) (Leaves I Pre) :=
    fun _ => hD.runAgentTurn.seq fun _ => hD.handOverReport hPre
  unfold Workflow.writeReport
  split
  · exact Triple.seq hD.away.effect hTurn
  · exact hTurn ()

omit hPre in
theorem seen_away {read s : WorkflowStore} (h : Working read.runState) (hs : I read ∧ Seen read s) :
    A s :=
  hs.2.keep hD.away.toStable (hD.enter read h.1 h.2.1 h.2.2 hs.1)

theorem reconcileRun : Triple I G I reconcileRun (Leaves I Pre) := by
  have hI := hD.idle.toStable
  refine Triple.bind (triple_getStore hI) fun run => ?_
  split
  next hState =>
    have hAway : ∀ s, I run ∧ Seen run s → A s := by
      intro s hs
      refine hD.seen_away ?_ hs
      simp only [List.mem_cons, List.not_mem_nil, or_false] at hState
      rcases hState with hState | hState <;> rw [hState] <;> decide
    refine Triple.pre ?_ hAway
    exact hD.away.effect.seq fun _ => hD.goto hPre rfl
  next => exact triple_pure (hI.seen run) fun s hs => hs.2.keep hI hs.1

theorem backTo {gate : RunState} (hPhase : phase.plain = true)
    (hBack : ∀ s, s.runState = gate ∨ s.runState = .paused → I s →
      validTransition s.runState target = true → A (s.moved none target)) :
    Triple I G I (backTo gate target phase) (Leaves I Pre) := by
  have hI := hD.idle.toStable
  refine Triple.bind (triple_getStore hI) fun run => ?_
  split
  next => exact triple_pure (hI.seen run) fun s hs => hs.2.keep hI hs.1
  next hState =>
    rw [not_not] at hState
    refine Triple.bind (triple_transitionFor (hI.seen run) hD.away.toStable fun s hs hValid => ?_)
      fun _ => hD.goto hPre hPhase
    refine hBack s ?_ (hs.2.keep hI hs.1) hValid
    rw [← hState]
    exact hs.2.runState

theorem resumeRejectedAction :
    Triple I G I (resumeRejectedAction action) (Leaves I Pre) := by
  have hI := hD.idle.toStable
  unfold Workflow.resumeRejectedAction
  split
  · exact hD.backTo hPre rfl fun s _ hs hValid => hD.leave s _ (by simp) hs hValid
  · exact hD.backTo hPre rfl fun s _ hs hValid => hD.leave s _ (by simp) hs hValid
  · exact hD.backTo hPre rfl fun s _ hs hValid => hD.leave s _ (by simp) hs hValid
  · refine hD.backTo hPre rfl fun s hState hs hValid => hD.redraft s ?_ hs hValid
    rcases hState with hState | hState <;> rw [hState] <;> decide
  · refine hI.getStore.seq fun run => ?_
    split
    · exact hI.finish
    · exact hD.failRun.seq fun _ => hI.finish

omit hPre in
theorem rejectAction {reviewer reason : String}
    (hRejected : ∀ action s, I s → Pre (.resumeRejectedAction action) s) :
    Triple I G I (rejectAction actionId reviewer reason) (Leaves I Pre) := by
  have hI := hD.idle.toStable
  refine Triple.seq ((triple_getAction hI).post fun _ _ hs => hs.1) fun existing => ?_
  split
  · refine hI.getStore.seq fun s => ?_
    split
    · exact hD.idle.event.seq fun _ => triple_pure hI (hRejected existing)
    · exact hI.finish
  · split
    · exact hI.raise
    · refine Triple.bind (triple_rewriteActionIf hI (fun _ => hI) fun s _ hs _ =>
        hD.rewriteIdle s actionId _ (tame_decided (by decide)) hs) fun action => ?_
      exact hD.idle.event.seq fun _ => triple_pure hI (hRejected action)

variable {exc : Error}

theorem afterFailure {deterministic : Bool} :
    Triple I G I (afterFailure engine action exc deterministic) (Leaves I Pre) := by
  have hI := hD.idle.toStable
  refine hI.getStore.seq fun current => ?_
  refine hD.idle.event.seq fun _ => ?_
  split
  · exact hI.raise
  · split
    · refine hI.getStore.seq fun s => ?_
      split
      · exact hD.failRun.seq fun _ => hI.raise
      · exact Triple.bind (triple_transitionFor hI hD.away.toStable fun s hs hValid =>
          hD.leave s _ (by simp) hs hValid) fun _ => hD.goto hPre rfl
    · exact hD.idle.pauseRun.seq fun _ => hI.raise

theorem handleApprovedActionFailure :
    Triple I G I (handleApprovedActionFailure engine action exc) (Leaves I Pre) := by
  have hI := hD.idle.toStable
  refine hI.getStore.seq fun s => ?_
  split
  · refine Triple.seq (triple_rewriteActionIf hI (fun _ => hI) fun s _ hs _ =>
      hD.rewriteIdle s _ _ ⟨fun _ => rfl, fun _ => rfl, fun _ h => by cases h⟩ hs) fun _ => ?_
    exact hD.afterFailure hPre
  · exact hD.afterFailure hPre

theorem handle {handler : Handler} :
    Triple I G I (handle engine handler exc) (Leaves I Pre) := by
  have hI := hD.idle.toStable
  cases handler with
  | approvedActionFailure action => exact hD.handleApprovedActionFailure hPre
  | resumedWorkflowFailure => exact hD.idle.pauseRun.seq fun _ => hI.raise
  | recoveryFailure =>
    refine hI.getStore.seq fun current => ?_
    split
    · refine hD.idle.event.seq fun _ => ?_
      exact hD.idle.pauseRun.seq fun _ => hI.finish
    · exact hD.failRun.seq fun _ => hI.finish

/-! ### Recovery -/

omit hPre in
/-- The run is not at the gate that a redraft of the contract would open. -/
theorem elsewhere_kept : Kept I fun s => I s ∧ s.runState ≠ .awaitingProtocolApproval where
  pause s hs := by
    refine ⟨hD.idle.pause s hs.1, ?_⟩
    rcases pause_runState s with hState | hState
    · rw [hState]
      exact hs.2
    · rw [hState]
      decide
  inv _ hs := hs.1
  aside s s' hAside hs := ⟨hD.idle.aside s s' hAside hs.1, by rw [hAside.runState]; exact hs.2⟩

omit hPre in
theorem rejectAll (actions : List ActionRecord) :
    Triple I G (fun s => I s ∧ s.runState ≠ .awaitingProtocolApproval) (rejectAll actions)
      fun _ s => I s ∧ s.runState ≠ .awaitingProtocolApproval := by
  have hE := hD.elsewhere_kept.toStable
  induction actions with
  | nil => exact hE.ret
  | cons action rest ih =>
    refine Triple.bind (triple_rewriteActionIf hE (fun _ => hE) fun s _ hs _ => ?_) fun _ => ih
    exact ⟨hD.rewriteIdle s _ _ (tame_decided (by decide)) hs.1, hs.2⟩

omit hD hPre in
theorem contractOutdated {state : RunState} (hP : Stable I P) :
    Triple I G P (contractOutdated state) fun outdated s =>
      P s ∧ (outdated = true → state ∈ contractSensitiveStates) := by
  unfold Workflow.contractOutdated
  split
  next hState =>
    exact hP.test.seq fun _ => triple_pure hP fun _ hs => ⟨hs, fun _ => hState⟩
  next => exact triple_pure hP fun _ hs => ⟨hs, nofun⟩

/-- Recovery of a run whose contract no longer fits, and of every other run by its dispatch. -/
theorem recoverRun (hP : Stable I P)
    (hDispatch : ∀ run, Triple I G (fun s => P run ∧ Seen run s) (dispatch engine run)
      (Leaves I Pre)) : Triple I G P (recoverRun engine) (Leaves I Pre) := by
  refine Triple.bind (triple_getStore hP) fun run => ?_
  refine (contractOutdated (hP.seen run)).bind fun outdated => ?_
  have hE := hD.elsewhere_kept.toStable
  cases outdated with
  | false => exact Triple.pre (hDispatch run) fun s hs => hs.1
  | true =>
    refine Triple.pre (P := fun s => I s ∧ s.runState ≠ .awaitingProtocolApproval) ?_ ?_
    · refine hE.getStore.seq fun s => ?_
      refine (hD.rejectAll _).seq fun _ => ?_
      exact Triple.bind (triple_transitionFor hE hD.away.toStable fun s hs hValid =>
        hD.redraft s hs.2 hs.1 hValid) fun _ => hD.goto hPre rfl
    · intro s hs
      refine ⟨(hP.seen run).inv s hs.1, fun hState => ?_⟩
      have hSensitive := hs.2 rfl
      rcases hs.1.2.runState with hRun | hRun <;> rw [hState] at hRun
      · rw [← hRun] at hSensitive
        exact absurd hSensitive (by decide)
      · cases hRun

/-- Recovery of a run in an ordinary phase takes that phase up again. -/
theorem dispatch {run : WorkflowStore} (hState : run.runState ∉ gateStates) :
    Triple I G (fun s => I run ∧ Seen run s) (dispatch engine run) (Leaves I Pre) := by
  have hI := hD.idle.toStable
  have hA := hD.away.toStable
  have hFinish : Triple I G (fun s => I run ∧ Seen run s) finish (Leaves I Pre) :=
    triple_pure (hI.seen run) fun s hs => hs.2.keep hI hs.1
  have hAway : ∀ {p : Step} (state : RunState), run.runState = state →
      Working state → Triple I G A p (Leaves I Pre) →
      Triple I G (fun s => I run ∧ Seen run s) p (Leaves I Pre) := by
    rintro p state rfl hWorking hp
    exact hp.pre fun s hs => hD.seen_away hWorking hs
  unfold Workflow.dispatch
  split
  next h =>
    refine hAway _ h (by decide) ?_
    split
    · exact hD.resumeTerminalRetry
    · exact hD.proceed hPre (by decide) rfl
  next h => exact hAway _ h (by decide) (hD.goto hPre rfl)
  next h => exact hAway _ h (by decide) (hD.goto hPre rfl)
  next h => exact absurd (by rw [h]; decide) hState
  next h => exact absurd (by rw [h]; decide) hState
  next h => exact hAway _ h (by decide) (hD.goto hPre rfl)
  next h =>
    refine hAway _ h (by decide) ?_
    refine hA.getStore.seq fun s => ?_
    split
    · exact hD.proceed hPre (by decide) rfl
    · refine hA.test.seq fun imported => ?_
      split
      · exact hD.proceed hPre (by decide) rfl
      · exact hD.goto hPre rfl
  next h => exact hAway _ h (by decide) (hD.goto hPre rfl)
  next h =>
    refine hAway _ h (by decide) ?_
    refine hA.getStore.seq fun s => ?_
    unfold recoverReview
    split
    · exact hD.proceed hPre (by decide) rfl
    · exact hD.goto hPre rfl
  next h => exact hAway _ h (by decide) (hD.goto hPre rfl)
  next h => exact absurd (by rw [h]; decide) hState
  next h => exact hAway _ h (by decide) (hD.goto hPre rfl)
  next h => exact hAway _ h (by decide) (hD.goto hPre rfl)
  next h => exact hAway _ h (by decide) (hD.goto hPre rfl)
  next h => exact hAway _ h (by decide) (hD.goto hPre rfl)
  next h => exact hAway _ h (by decide) (hD.goto hPre rfl)
  next h => exact absurd (by rw [h]; decide) hState
  next => exact hFinish

end Successors

end Statements

end Discipline

section Histories

variable {Admits : WorkflowConfig → Stimulus (service engine) → Prop}

/-- The phases, the handlers and the admitted calls keep an invariant, with the admitted answers. -/
structure Keeps (I : WorkflowStore → Prop) (G : Answers) (Pre : Phase → WorkflowStore → Prop)
    (Admits : WorkflowConfig → Stimulus (service engine) → Prop) : Prop where
  idle : Stable I I
  entry : ∀ x e, Admits x (.call e) → x.control = none → I x.store →
    ∃ P : WorkflowStore → Prop, P x.store ∧ Triple I G P e.program (Leaves I Pre)
  body : ∀ phase : Phase, Triple I G (Pre phase) (phase.body engine) (Leaves I Pre)
  handle : ∀ handler exc, Triple I G I (Workflow.handle engine handler exc) (Leaves I Pre)
  reply : ∀ x answer q, Admits x (.reply answer) → x.pending = some q → G q (answer q) x.store

theorem Keeps.upholds (h : Keeps I G Pre Admits) :
    Upholds (service engine) (workflowContract I G) (fun w => I w.1)
      (fun phase w => Pre phase w.1) Admits where
  idle := h.idle.holds
  entry x e hAdmits hControl hIdle := by
    obtain ⟨P, hP, hTriple⟩ := h.entry x e hAdmits hControl hIdle
    refine Safe.mono (hTriple (x.store, ()) hP) (fun next w hw => ?_) fun _ _ h => h
    cases next <;> exact hw
  body phase := Leads.post (h.body phase) fun next _ hs => by cases next <;> exact hs
  handle handler exc :=
    Leads.post (h.handle handler exc) fun next _ hs => by cases next <;> exact hs
  interfere _ _ _ := .inr rfl
  reply x answer q hAdmits hPending := h.reply x answer q hAdmits hPending
  restart _ h := h

/-- What the phases keep holds after every admitted history. -/
theorem Keeps.run (h : Keeps I G Pre Admits) {x : WorkflowConfig}
    {inputs done : List (Stimulus (service engine))} (hControl : x.control = none)
    (hStart : I x.store) (hAlong : Machine.Along (service engine).step Admits x inputs)
    (hDone : done <+: inputs) : I (run engine x done).store := by
  have hAttended := hAlong.invariant_prefix h.upholds.sound_step
    (attended_of_idle hControl hStart) hDone
  exact hAttended.inv h.upholds.idle

end Histories

end Glasslab.Engine.Workflow
