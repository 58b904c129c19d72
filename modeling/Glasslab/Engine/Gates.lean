import Glasslab.Engine.WorkflowRules

/-!
# Every gate needs a fresh approval

A run leaves the states in which it waits for a human by four gates. The law is that whoever
opens a gate acts for an action that a human approved and that is the latest of its type, and
the same for submitting a matrix and for promoting a candidate.

`approve_action` looks at the state of the run, but not at the place of the action: a run that comes
back to a gate finds its old APPROVED actions there, and a click on one of them opens the gate
while a newer action is pending. `reject_action` does check this. Recovery takes the last APPROVED
action at two of the gates, which need not be the last one. `GateAdmits` leaves out these calls, and
nothing else is needed (`gates_fresh`).
-/

namespace Glasslab.Engine.Workflow

open Foundation List

/-! ## The law -/

/-- The type of action that must be behind a move. -/
def gateType : RunState → RunState → Option ActionType
  | .awaitingProtocolApproval, .beakerPlanning => some .approveProtocol
  | .awaitingProtocolApproval, .beakerDraftingContract => some .approveProtocol
  | .awaitingContractPromotion, .beakerPlanning => some .proposeEvaluationContract
  | .awaitingExecutionApproval, .jobQueued => some .submitExperimentMatrix
  | .awaitingFinalAcceptance, .complete => some .acceptFinalReport
  | _, _ => none

def gateState : ActionType → Option RunState
  | .approveProtocol => some .awaitingProtocolApproval
  | .proposeEvaluationContract => some .awaitingContractPromotion
  | .submitExperimentMatrix => some .awaitingExecutionApproval
  | .acceptFinalReport => some .awaitingFinalAcceptance
  | .other _ => none

def DeedKind.gate : DeedKind → Option ActionType
  | move source target => gateType source target
  | submitMatrix => some .submitExperimentMatrix
  | promoteCandidate => some .proposeEvaluationContract

def latest (actions : List ActionRecord) (type : ActionType) : Option ActionRecord :=
  (actions.filter fun action => action.type = type).getLast?

/-- What was done at a gate was done for the latest action of its type, which a human had
approved. -/
def Deed.Fresh (approvals : List String) (deed : Deed) : Prop :=
  ∀ type, deed.kind.gate = some type → ∃ action, latest deed.actions type = some action ∧
    deed.driver = some action.actionId ∧ action.approvalStatus = .approved ∧
    action.actionId ∈ approvals

instance (approvals : List String) (deed : Deed) : Decidable (deed.Fresh approvals) :=
  inferInstanceAs (Decidable (∀ type ∈ deed.kind.gate, ∃ action ∈ latest deed.actions type,
    deed.driver = some action.actionId ∧ action.approvalStatus = .approved ∧
      action.actionId ∈ approvals))

/-- The moves among the deeds, newest first, lead from one state to the other. -/
def Traced (initial : RunState) : List Deed → RunState → Prop
  | [], state => state = initial
  | deed :: rest, state =>
    match deed.kind with
    | .move source target => state = target ∧ Traced initial rest source
    | _ => Traced initial rest state

structure Law (s : WorkflowStore) : Prop where
  traced : Traced s.initialState s.deeds s.runState
  fresh : ∀ deed ∈ s.deeds, deed.Fresh s.approvals
  human : ∀ action ∈ s.actions, action.approvalStatus = .approved → action.actionId ∈ s.approvals

def Backed (action : ActionRecord) (s : WorkflowStore) : Prop :=
  ∃ row, latest s.actions action.type = some row ∧ row.actionId = action.actionId ∧
    row.approvalStatus = .approved

variable {action : ActionRecord}

section Law

variable {s : WorkflowStore} {target : RunState}

theorem mem_of_latest {actions : List ActionRecord} {type : ActionType}
    (h : latest actions type = some action) : action ∈ actions ∧ action.type = type := by
  have hMem := mem_of_getLast? h
  simpa using mem_filter.mp hMem

theorem Backed.fresh (h : Backed action s) (hLaw : Law s) {kind : DeedKind}
    (hKind : ∀ type, kind.gate = some type → type = action.type) :
    Deed.Fresh s.approvals ⟨kind, some action.actionId, s.actions⟩ := by
  intro type hType
  obtain ⟨row, hRow, hId, hStatus⟩ := h
  refine ⟨row, ?_, ?_, hStatus, hLaw.human row (mem_of_latest hRow).1 hStatus⟩
  · rw [hKind type hType]
    exact hRow
  · rw [hId]

theorem Law.moved {driver : Option String} (h : Law s)
    (hFresh : Deed.Fresh s.approvals ⟨.move s.runState target, driver, s.actions⟩) :
    Law (s.moved driver target) where
  traced := ⟨rfl, h.traced⟩
  fresh := by
    intro deed hMem
    rcases mem_cons.mp hMem with rfl | hMem
    · exact hFresh
    · exact h.fresh deed hMem
  human := h.human

theorem Law.moved_free (h : Law s) (hGate : gateType s.runState target = none) :
    Law (s.moved none target) := by
  refine h.moved fun type hType => ?_
  rw [DeedKind.gate, hGate] at hType
  cases hType

theorem Law.resumed (h : Law s) {resume : Option RunState} :
    Law { s with resumeState := resume } :=
  ⟨h.traced, h.fresh, h.human⟩

theorem gateType_of_not_wait {state : RunState} (h : state ∉ humanWaitStates) :
    gateType state target = none := by
  cases state <;> first | rfl | exact absurd (by decide) h

theorem gateType_of_free (state : RunState)
    (h : target ∈ [RunState.beakerRevising, .honeydewDraftingProtocol, .honeydewWritingReport,
      .failed]) : gateType state target = none := by
  simp only [mem_cons, not_mem_nil, or_false] at h
  rcases h with rfl | rfl | rfl | rfl <;> cases state <;> rfl

theorem Law.pause (h : Law s) : Law s.pause := by
  unfold WorkflowStore.pause
  split
  · exact (h.moved_free (by cases s.runState <;> rfl)).resumed
  · exact h

theorem Law.aside {s' : WorkflowStore} (h : Law s) (hAside : Aside s s') : Law s' where
  traced := by
    rw [hAside.initialState, hAside.deeds, hAside.runState]
    exact h.traced
  fresh := by
    rw [hAside.deeds, hAside.approvals]
    exact h.fresh
  human := by
    rw [hAside.actions, hAside.approvals]
    exact h.human

theorem Law.addAction (h : Law s) (hStatus : action.approvalStatus ≠ .approved) :
    Law (s.addAction action) where
  traced := h.traced
  fresh := h.fresh
  human := by
    intro row hMem hApproved
    rcases mem_append.mp hMem with hMem | hMem
    · exact h.human row hMem hApproved
    · rw [mem_singleton.mp hMem] at hApproved
      exact absurd hApproved hStatus

/-- Rewriting a row keeps the law when what becomes APPROVED is among the approvals. -/
theorem Law.rewriteAction {actionId : String} {f : ActionRecord → ActionRecord} (h : Law s)
    (hId : ∀ a, (f a).actionId = a.actionId)
    (hStatus : ∀ a, (f a).approvalStatus = .approved → a.approvalStatus = .approved ∨
      actionId ∈ s.approvals) : Law (s.rewriteAction actionId f) where
  traced := h.traced
  fresh := h.fresh
  human := by
    intro row hMem hApproved
    obtain ⟨old, hOld, rfl⟩ := mem_map.mp hMem
    split at hApproved
    next hSame =>
      rw [if_pos hSame, hId]
      rcases hStatus old hApproved with hBefore | hGiven
      · exact h.human old hOld hBefore
      · rw [hSame]
        exact hGiven
    next hOther =>
      rw [if_neg hOther]
      exact h.human old hOld hApproved

theorem Law.saveArtifact (h : Law s) {artifact : LocalArtifact} :
    Law (s.saveArtifact artifact) := by
  unfold WorkflowStore.saveArtifact
  split
  · exact h
  · exact ⟨h.traced, h.fresh, h.human⟩

end Law

def Away (s : WorkflowStore) : Prop := Law s ∧ s.runState ∉ humanWaitStates

theorem law_kept : Kept Law Law where
  pause _ h := h.pause
  inv _ h := h
  aside _ _ hAside h := h.aside hAside

theorem away_kept : Kept Law Away where
  pause s h := by
    refine ⟨h.1.pause, ?_⟩
    rcases pause_runState s with hState | hState
    · rw [hState]
      exact h.2
    · rw [hState]
      decide
  inv _ h := h.1
  aside _ _ hAside h := ⟨h.1.aside hAside, by rw [hAside.runState]; exact h.2⟩

theorem gates_discipline : Discipline Law Away where
  idle := law_kept
  away := away_kept
  record s record hStatus h := ⟨h.1.addAction hStatus, h.2⟩
  rewrite s actionId f hTame h :=
    ⟨h.1.rewriteAction hTame.actionId fun a hApproved => .inl (hTame.status a hApproved), h.2⟩
  rewriteIdle s actionId f hTame h :=
    h.rewriteAction hTame.actionId fun a hApproved => .inl (hTame.status a hApproved)
  artifact s artifact _ h := by
    refine ⟨h.1.saveArtifact, ?_⟩
    unfold WorkflowStore.saveArtifact
    split <;> exact h.2
  depart s target hWait _ _ h _ := ⟨h.1.moved_free (gateType_of_not_wait h.2), hWait⟩
  arrive s target _ _ h _ := h.1.moved_free (gateType_of_not_wait h.2)
  leave s target hTarget h _ := by
    simp only [mem_cons, not_mem_nil, or_false] at hTarget
    refine ⟨h.moved_free (gateType_of_free _ ?_), ?_⟩
    · rcases hTarget with rfl | rfl | rfl <;> decide
    · show target ∉ humanWaitStates
      rcases hTarget with rfl | rfl | rfl <;> decide
  redraft s hState h _ := by
    refine ⟨h.moved_free ?_, show RunState.beakerDraftingContract ∉ humanWaitStates by decide⟩
    revert hState
    cases s.runState <;> decide
  enter s hWait _ _ h := ⟨h, hWait⟩
  fail s h _ := h.moved_free (gateType_of_free _ (by decide))

/-! ## Phases at the gates -/

def FreshApproved (s : WorkflowStore) (type : ActionType) : Prop :=
  ∀ action, lastApproved s type = some action → latest s.actions type = some action

instance (s : WorkflowStore) (type : ActionType) : Decidable (FreshApproved s type) :=
  inferInstanceAs (Decidable (∀ action ∈ lastApproved s type, latest s.actions type = some action))

/-- A recovery that finds the run in this state takes the latest action. -/
def RecoverableAt (state : RunState) (s : WorkflowStore) : Prop :=
  (state = .awaitingContractPromotion → FreshApproved s .proposeEvaluationContract) ∧
    (state = .awaitingFinalAcceptance → FreshApproved s .acceptFinalReport)

instance (state : RunState) (s : WorkflowStore) : Decidable (RecoverableAt state s) :=
  inferInstanceAs (Decidable (_ ∧ _))

def GatePre : Phase → WorkflowStore → Prop
  | .resumeApprovedAction action, s =>
    Law s ∧ (gateState action.type = some s.runState → Backed action s)
  | .promoteContractCandidate action, s =>
    (Law s ∧ Backed action s ∧ action.type = .proposeEvaluationContract) ∧
      (s.runState = .awaitingContractPromotion ∨ s.runState = .paused)
  | .submitMatrix action, s =>
    Law s ∧ action.type = .submitExperimentMatrix ∧
      (s.runState = .awaitingExecutionApproval → Backed action s)
  | .recover, s => Law s ∧ RecoverableAt s.runState s
  | .recoverRun, s => Law s ∧ RecoverableAt s.runState s
  | .resumeRejectedAction _, s => Law s
  | .reconcileRun, s => Law s
  | _, s => Away s

variable {engine : Orchestrator}

section Phases

variable {G : Answers}

theorem gatePre_plain (phase : Phase) (h : phase.plain = true) (s : WorkflowStore)
    (hs : Away s) : GatePre phase s := by
  cases phase <;> first | exact hs | exact hs.1 | cases h

variable {s : WorkflowStore}

theorem Backed.pause (h : Backed action s) : Backed action s.pause := by
  obtain ⟨row, hRow⟩ := h
  exact ⟨row, by rw [pause_actions]; exact hRow⟩

theorem RecoverableAt.pause (h : RecoverableAt s.runState s) :
    RecoverableAt s.pause.runState s.pause := by
  rcases pause_runState s with hState | hState
  · rw [hState]
    simpa only [RecoverableAt, FreshApproved, lastApproved, WorkflowStore.actionsWithStatus,
      WorkflowStore.actionsOfType, pause_actions] using h
  · rw [hState]
    exact ⟨nofun, nofun⟩

theorem backed_kept : Kept Law fun s => Law s ∧ Backed action s where
  pause _ h := ⟨h.1.pause, h.2.pause⟩
  inv _ h := h.1
  aside s s' hAside h := by
    obtain ⟨row, hRow⟩ := h.2
    exact ⟨h.1.aside hAside, row, by rw [hAside.actions]; exact hRow⟩

variable {gate : RunState}

theorem at_pause
    (h : s.runState = gate ∨ s.runState = .paused) :
    s.pause.runState = gate ∨ s.pause.runState = .paused := by
  rcases pause_runState s with hState | hState
  · rw [hState]
    exact h
  · exact .inr hState

def AtGate (action : ActionRecord) (gate : RunState) (s : WorkflowStore) : Prop :=
  (Law s ∧ Backed action s) ∧ (s.runState = gate ∨ s.runState = .paused)

theorem atGate_kept : Kept Law (AtGate action gate) where
  pause s h := ⟨backed_kept.pause s h.1, at_pause h.2⟩
  inv _ h := h.1.1
  aside s s' hAside h := ⟨backed_kept.aside s s' hAside h.1, by rw [hAside.runState]; exact h.2⟩

variable {gate target : RunState}

theorem AtGate.opened (h : AtGate action gate s)
    (hGate : gateType gate target = some action.type) :
    Law (s.moved (some action.actionId) target) := by
  refine h.1.1.moved (h.1.2.fresh h.1.1 fun type hType => ?_)
  rw [DeedKind.gate] at hType
  rcases h.2 with hState | hState
  · rw [hState, hGate] at hType
    exact (Option.some.inj hType).symm
  · rw [hState] at hType
    cases hType

theorem open_gate {phase : Phase}
    (hGate : gateType gate target = some action.type) (hWait : target ∉ humanWaitStates)
    (hPhase : phase.plain = true) :
    Triple Law G (AtGate action gate)
      (transitionFor (some action.actionId) target >>= fun _ => goto phase)
      (Leaves Law GatePre) :=
  Triple.bind (triple_transitionFor atGate_kept.toStable away_kept.toStable fun _ hs _ =>
    ⟨hs.opened hGate, hWait⟩) fun _ => gates_discipline.goto gatePre_plain hPhase

theorem note_backed {kind : DeedKind}
    (hKind : kind.gate = some action.type) (hTraced : ∀ initial actions rest state,
      Traced initial rest state → Traced initial (⟨kind, some action.actionId, actions⟩ :: rest)
        state) :
    Triple Law G (AtGate action gate) (note kind action) fun _ => AtGate action gate := by
  have hP : Kept Law (AtGate action gate) := atGate_kept
  refine Triple.bind (triple_access_keep hP.toStable hP.toStable fun s hs =>
    ⟨⟨⟨?_, fun deed hMem => ?_, hs.1.1.human⟩, hs.1.2⟩, hs.2⟩) fun _ =>
      hP.ret
  · exact hTraced _ _ _ _ hs.1.1.traced
  · rcases mem_cons.mp hMem with rfl | hMem
    · exact hs.1.2.fresh hs.1.1 fun type hType => Option.some.inj (hType.symm.trans hKind)
    · exact hs.1.1.fresh deed hMem

theorem promoteContractCandidate_fresh :
    Triple Law G (GatePre (.promoteContractCandidate action)) (promoteContractCandidate action)
      (Leaves Law GatePre) := by
  by_cases hType : action.type = .proposeEvaluationContract
  swap
  · exact fun w hw => absurd hw.1.2.2 hType
  have hGate : gateType .awaitingContractPromotion .beakerPlanning = some action.type := by
    rw [hType]
    rfl
  have hKind : DeedKind.promoteCandidate.gate = some action.type := by
    rw [hType]
    rfl
  refine Triple.pre (P := AtGate action .awaitingContractPromotion) ?_
    fun s hs => ⟨⟨hs.1.1, hs.1.2.1⟩, hs.2⟩
  exact gates_discipline.promoteContractCandidate atGate_kept
    (note_backed hKind fun _ _ _ _ h => h) (open_gate hGate (by decide) rfl)

theorem submitMatrix_fresh :
    Triple Law G (GatePre (.submitMatrix action)) (submitMatrix action) (Leaves Law GatePre) := by
  by_cases hType : action.type = .submitExperimentMatrix
  swap
  · exact fun w hw => absurd hw.2.1 hType
  have hGate : gateType .awaitingExecutionApproval .jobQueued = some action.type := by
    rw [hType]
    rfl
  have hKind : DeedKind.submitMatrix.gate = some action.type := by
    rw [hType]
    rfl
  have hPre : Stable Law (GatePre (.submitMatrix action)) := by
    refine ⟨fun s hs => ⟨hs.1.pause, hs.2.1, fun hState => ?_⟩, fun s hs => hs.1⟩
    rcases pause_runState s with hKept | hPaused
    · exact (hs.2.2 (hKept ▸ hState)).pause
    · rw [hPaused] at hState
      cases hState
  refine Discipline.submitMatrix hPre atGate_kept (fun run s hState hs hSeen => ?_)
    (note_backed hKind fun _ _ _ _ h => h) (open_gate hGate (by decide) rfl)
  exact hSeen.keep atGate_kept.toStable ⟨⟨hs.1, hs.2.2 hState⟩, .inl hState⟩

variable {run : WorkflowStore}

theorem atGate_of_seen
    (hGate : gateState action.type = some gate) (hState : run.runState = gate)
    (hs : GatePre (.resumeApprovedAction action) run ∧ Seen run s) : AtGate action gate s := by
  have hBacked : Backed action run := hs.1.2 (by rw [hState]; exact hGate)
  exact hs.2.keep atGate_kept.toStable ⟨⟨hs.1.1, hBacked⟩, .inl hState⟩

theorem resumeApproved_stable : Stable Law (GatePre (.resumeApprovedAction action)) where
  pause s hs := by
    refine ⟨hs.1.pause, fun hState => ?_⟩
    rcases pause_runState s with hKept | hPaused
    · rw [hKept] at hState
      exact (hs.2 hState).pause
    · rw [hPaused] at hState
      cases hType : action.type <;> rw [hType] at hState <;> cases hState
  inv _ hs := hs.1

theorem resumeApprovedAction_fresh :
    Triple Law G (GatePre (.resumeApprovedAction action)) (resumeApprovedAction action)
      (Leaves Law GatePre) := by
  have hPre : Stable Law (GatePre (.resumeApprovedAction action)) := resumeApproved_stable
  refine Triple.bind (triple_getStore hPre) fun run => ?_
  have hFinish : Triple Law G (fun s => GatePre (.resumeApprovedAction action) run ∧ Seen run s)
      finish (Leaves Law GatePre) :=
    triple_pure (hPre.seen run) fun s hs => hPre.inv s (hs.2.keep hPre hs.1)
  split
  next hType =>
    split
    next => exact hFinish
    next hState =>
      have hGate : gateState action.type = some .awaitingProtocolApproval := by rw [hType]; rfl
      refine Triple.pre (P := AtGate action .awaitingProtocolApproval) ?_ fun s hs =>
        atGate_of_seen hGate (not_not.mp hState) hs
      have hS : Stable Law (AtGate action .awaitingProtocolApproval) := atGate_kept.toStable
      refine hS.effect.seq fun _ => ?_
      refine hS.test.seq fun compatible => ?_
      split
      · exact open_gate (by rw [hType]; rfl) (by decide) rfl
      · exact open_gate (by rw [hType]; rfl) (by decide) rfl
  next hType =>
    split
    next => exact hFinish
    next hState =>
      have hGate : gateState action.type = some .awaitingContractPromotion := by rw [hType]; rfl
      refine triple_pure (hPre.seen run) fun s hs => ?_
      have hAt := atGate_of_seen hGate (not_not.mp hState) hs
      exact ⟨⟨hAt.1.1, hAt.1.2, hType⟩, hAt.2⟩
  next hType =>
    split
    next => exact hFinish
    next hState =>
      have hGate : gateState action.type = some .awaitingExecutionApproval := by rw [hType]; rfl
      refine triple_pure (hPre.seen run) fun s hs => ?_
      have hAt := atGate_of_seen hGate (not_not.mp hState) hs
      exact ⟨hAt.1.1, hType, fun _ => hAt.1.2⟩
  next hType =>
    split
    next => exact hFinish
    next hState =>
      have hGate : gateState action.type = some .awaitingFinalAcceptance := by rw [hType]; rfl
      refine Triple.pre (P := AtGate action .awaitingFinalAcceptance) ?_ fun s hs =>
        atGate_of_seen hGate (not_not.mp hState) hs
      have hS : Stable Law (AtGate action .awaitingFinalAcceptance) := atGate_kept.toStable
      refine Triple.bind (triple_transitionFor hS law_kept.toStable fun s hs _ =>
        hs.opened (by rw [hType]; rfl)) fun _ => ?_
      refine law_kept.effect.seq fun _ => ?_
      exact law_kept.event.seq fun _ => law_kept.finish
  next => exact hFinish

theorem recordCandidate_away {candidate : Sealed} :
    Triple Law G Away (recordCandidate action candidate) (Leaves Law GatePre) := by
  have hA := away_kept.toStable
  refine hA.effect.seq fun _ => ?_
  refine Triple.seq (Triple.seq (triple_access_keep hA hA fun s hs => ?_) fun _ =>
    hA.ret) fun _ => ?_
  · refine ⟨hs.1.saveArtifact, ?_⟩
    unfold WorkflowStore.saveArtifact
    split <;> exact hs.2
  refine away_kept.event.seq fun _ => ?_
  refine Triple.seq (triple_transitionFor hA hA fun s hs _ =>
    ⟨hs.1.moved_free (gateType_of_not_wait hs.2),
      show RunState.honeydewReviewingContract ∉ humanWaitStates by decide⟩) fun _ => ?_
  exact triple_pure hA fun _ hs => hs

theorem honeydewReviewContract_away :
    Triple Law G Away (honeydewReviewContract action) (Leaves Law GatePre) := by
  have hA := away_kept.toStable
  refine gates_discipline.runAgentTurn.seq fun result => ?_
  split
  · refine gates_discipline.markActionHoneydewApproved.seq fun _ => ?_
    refine away_kept.event.seq fun _ => ?_
    refine Triple.bind (triple_transitionFor hA law_kept.toStable fun s hs _ =>
      hs.1.moved_free (gateType_of_not_wait hs.2)) fun _ => ?_
    exact law_kept.event.seq fun _ => law_kept.finish
  · refine (gates_discipline.updateAction (by decide)).seq fun _ => ?_
    refine away_kept.event.seq fun _ => ?_
    exact gates_discipline.proceed gatePre_plain (by decide) rfl

variable {type : ActionType}

theorem FreshApproved.backed (h : FreshApproved s type)
    (hLast : lastApproved s type = some action) : Backed action s ∧ action.type = type := by
  have hMem := mem_of_getLast? hLast
  simp only [WorkflowStore.actionsWithStatus, WorkflowStore.actionsOfType, mem_filter,
    decide_eq_true_eq] at hMem
  refine ⟨⟨action, ?_, rfl, hMem.2⟩, hMem.1.2⟩
  rw [hMem.1.2]
  exact h action hLast

theorem recoverRun_kept : Kept Law (GatePre .recoverRun) where
  pause _ hs := ⟨hs.1.pause, hs.2.pause⟩
  inv _ hs := hs.1
  aside s s' hAside hs := by
    refine ⟨hs.1.aside hAside, ?_⟩
    simpa only [RecoverableAt, FreshApproved, lastApproved, WorkflowStore.actionsWithStatus,
      WorkflowStore.actionsOfType, hAside.actions, hAside.runState] using hs.2

theorem lastApproved_congr {s t : WorkflowStore} (h : s.actions = t.actions) :
    lastApproved s type = lastApproved t type := by
  simp only [lastApproved, WorkflowStore.actionsWithStatus, WorkflowStore.actionsOfType, h]

theorem atGate_of_recovery {s t : WorkflowStore}
    (hs : (GatePre .recoverRun run ∧ Seen run s) ∧ Seen s t) (hState : run.runState = gate)
    (hBacked : Backed action run) : AtGate action gate t := by
  have hS : Stable Law (AtGate action gate) := atGate_kept.toStable
  have hAt : AtGate action gate run := ⟨⟨hs.1.1.1, hBacked⟩, .inl hState⟩
  exact hs.2.keep hS (hs.1.2.keep hS hAt)

theorem recoverContractReview_away :
    Triple Law G Away (getStore >>= fun s =>
      match (s.artifactsOfType .evaluationContractCandidate).getLast? with
      | none => transition .beakerDraftingContract >>= fun _ => goto .beakerDraftContract
      | some artifact => getAction (artifact.actionId.getD "") >>= fun action =>
        goto (.honeydewReviewContract action)) (Leaves Law GatePre) := by
  have hA := away_kept.toStable
  refine hA.getStore.seq fun s => ?_
  split
  · exact gates_discipline.proceed gatePre_plain (by decide) rfl
  · refine Triple.seq ((triple_getAction hA).post fun _ _ hs => hs.1) fun action => ?_
    exact triple_pure hA fun _ hs => hs

theorem dispatch_fresh :
    Triple Law G (fun s => GatePre .recoverRun run ∧ Seen run s) (dispatch engine run)
      (Leaves Law GatePre) := by
  by_cases hGate : run.runState ∈ gateStates
  swap
  · exact Triple.pre (gates_discipline.dispatch gatePre_plain hGate) fun s hs => ⟨hs.1.1, hs.2⟩
  have hS := recoverRun_kept.toStable.seen run
  simp only [gateStates, mem_cons, not_mem_nil, or_false] at hGate
  unfold dispatch
  rcases hGate with hState | hState | hState | hState <;> simp only [hState]
  · refine Triple.pre recoverContractReview_away fun s hs => ?_
    exact hs.2.keep away_kept.toStable ⟨hs.1.1, by rw [hState]; decide⟩
  · refine Triple.bind (triple_getStore hS) fun s => ?_
    split
    next => exact triple_pure (hS.seen s) fun t ht => (hS.seen s).inv t ht
    next action hLast =>
      refine triple_pure (hS.seen s) fun t ht => ?_
      rw [lastApproved_congr ht.1.2.actions] at hLast
      obtain ⟨hBacked, hType⟩ := (ht.1.1.2.1 hState).backed hLast
      have hAt := atGate_of_recovery ht hState hBacked
      exact ⟨⟨hAt.1.1, hAt.1.2, hType⟩, hAt.2⟩
  · refine Triple.bind (triple_getStore hS) fun s => ?_
    split
    next => exact triple_pure (hS.seen s) fun t ht => (hS.seen s).inv t ht
    next action hLast =>
      split
      next hApproved =>
        refine triple_pure (hS.seen s) fun t ht => ?_
        rw [WorkflowStore.actionsOfType, ht.1.2.actions] at hLast
        have hType := (mem_of_latest hLast).2
        have hBacked : Backed action run := ⟨action, by rw [hType]; exact hLast, rfl, hApproved⟩
        have hAt := atGate_of_recovery ht hState hBacked
        exact ⟨hAt.1.1, hType, fun _ => hAt.1.2⟩
      next => exact triple_pure (hS.seen s) fun t ht => (hS.seen s).inv t ht
  · refine Triple.bind (triple_getStore hS) fun s => ?_
    split
    next => exact triple_pure (hS.seen s) fun t ht => (hS.seen s).inv t ht
    next action hLast =>
      refine triple_pure (hS.seen s) fun t ht => ?_
      rw [lastApproved_congr ht.1.2.actions] at hLast
      obtain ⟨hBacked, _⟩ := (ht.1.1.2.2 hState).backed hLast
      have hAt := atGate_of_recovery ht hState hBacked
      exact ⟨hAt.1.1, fun _ => hAt.1.2⟩

theorem recoverRun_fresh :
    Triple Law G (GatePre .recoverRun) (recoverRun engine) (Leaves Law GatePre) :=
  gates_discipline.recoverRun gatePre_plain recoverRun_kept.toStable fun _ => dispatch_fresh

theorem body_fresh (phase : Phase) :
    Triple Law (fun _ _ _ => True) (GatePre phase) (phase.body engine) (Leaves Law GatePre) := by
  have hD := gates_discipline
  have hPre := gatePre_plain
  cases phase with
  | resumeApprovedAction action => exact resumeApprovedAction_fresh
  | resumeRejectedAction action => exact hD.resumeRejectedAction hPre
  | recover =>
    refine recoverRun_kept.effect.seq fun _ => ?_
    exact triple_pure recoverRun_kept.toStable fun _ hs => hs
  | recoverRun => exact recoverRun_fresh
  | draftProtocol => exact hD.draftProtocol
  | beakerDraftContract =>
    refine hD.beakerDraftContract hPre (hD.draftCandidate hPre (fun _ _ _ h => h) ?_)
    exact fun _ _ => Triple.pre recordCandidate_away fun _ hs => hs.1
  | honeydewReviewContract action => exact honeydewReviewContract_away
  | promoteContractCandidate action => exact promoteContractCandidate_fresh
  | beakerPlan => exact hD.beakerPlan hPre
  | beakerImplement => exact hD.beakerImplement hPre
  | beakerFinalize => exact hD.beakerFinalize hPre
  | honeydewReview => exact hD.honeydewReview hPre
  | beakerRevise => exact hD.beakerRevise hPre
  | submitMatrix action => exact submitMatrix_fresh
  | fillJobCapacity => exact hD.fillJobCapacity hPre
  | reconcileRun => exact hD.reconcileRun hPre
  | analyzeResults => exact hD.analyzeResults hPre
  | verifyResults => exact hD.verifyResults hPre
  | writeReport attempt => exact hD.writeReport hPre

/-! ## Calls -/

/-- `approve_action` goes through on an action in this condition. -/
def Approvable (action : ActionRecord) : Prop :=
  action.approvalStatus = .approved ∨ action.approvalStatus = .pending ∧
    (action.policyClassification = .honeydewAndHumanApproval → action.honeydewApproved = true)

instance (action : ActionRecord) : Decidable (Approvable action) :=
  inferInstanceAs (Decidable (_ ∨ _ ∧ _))

def FreshClick (actionId : String) (s : WorkflowStore) : Prop :=
  ∀ action, s.action? actionId = some action → Approvable action →
    gateState action.type = some s.runState → latest s.actions action.type = some action

instance (actionId : String) (s : WorkflowStore) : Decidable (FreshClick actionId s) :=
  inferInstanceAs (Decidable (∀ action ∈ s.action? actionId, Approvable action →
    gateState action.type = some s.runState → latest s.actions action.type = some action))

/-- The state that `resume_run` would take the run back to. -/
def resumesTo (s : WorkflowStore) : Option RunState :=
  if s.runState = .paused then s.resumeState else some s.runState

variable (engine) in
/-- A call that can act only for the latest action of a type. -/
def GateAdmits : WorkflowConfig → Stimulus (service engine) → Prop
  | x, .call (.approveAction actionId _ _) => x.control = none → FreshClick actionId x.store
  | x, .call .resumeRun =>
    x.control = none → ∀ target, resumesTo x.store = some target → RecoverableAt target x.store
  | x, .call .recover => x.control = none → RecoverableAt x.store.runState x.store
  | _, _ => True

instance (x : WorkflowConfig) :
    ∀ i : Stimulus (service engine), Decidable (GateAdmits engine x i)
  | .call (.approveAction actionId _ _) =>
    inferInstanceAs (Decidable (x.control = none → FreshClick actionId x.store))
  | .call .resumeRun =>
    inferInstanceAs (Decidable (x.control = none → ∀ target ∈ resumesTo x.store,
      RecoverableAt target x.store))
  | .call .recover =>
    inferInstanceAs (Decidable (x.control = none → RecoverableAt x.store.runState x.store))
  | .call (.rejectAction _ _ _) => .isTrue trivial
  | .call .reconcileRun => .isTrue trivial
  | .tick => .isTrue trivial
  | .reply _ => .isTrue trivial
  | .interfere _ => .isTrue trivial
  | .crash => .isTrue trivial

variable {actionId : String}

theorem freshClick_pause (h : FreshClick actionId s) :
    FreshClick actionId s.pause := by
  intro action hFind hApprovable hGate
  rw [action?_pause] at hFind
  rw [pause_actions]
  rcases pause_runState s with hState | hState
  · exact h action hFind hApprovable (by rw [hGate, hState])
  · rw [hState] at hGate
    cases hType : action.type <;> rw [hType] at hGate <;> cases hGate

theorem click_kept :
    Kept Law fun s => Law s ∧ FreshClick actionId s where
  pause _ hs := ⟨hs.1.pause, freshClick_pause hs.2⟩
  inv _ hs := hs.1
  aside s s' hAside hs := by
    refine ⟨hs.1.aside hAside, ?_⟩
    simpa only [FreshClick, WorkflowStore.action?, hAside.actions, hAside.runState] using hs.2

theorem latest_rewriteAction {f : ActionRecord → ActionRecord}
    (hType : ∀ a, (f a).type = a.type) :
    latest (s.rewriteAction actionId f).actions type =
      (latest s.actions type).map fun a => if a.actionId = actionId then f a else a := by
  have hFilter : (fun a : ActionRecord => decide (a.type = type)) ∘
      (fun a => if a.actionId = actionId then f a else a) = fun a => decide (a.type = type) := by
    funext a
    simp only [Function.comp_apply]
    split
    · rw [hType]
    · rfl
  rw [latest, latest, WorkflowStore.rewriteAction, filter_map, hFilter, List.getLast?_map]

theorem Law.approve (h : Law s) :
    Law { s with approvals := actionId :: s.approvals } where
  traced := h.traced
  fresh := by
    intro deed hMem type hType
    obtain ⟨row, hRow, hDriver, hStatus, hGiven⟩ := h.fresh deed hMem type hType
    exact ⟨row, hRow, hDriver, hStatus, mem_cons_of_mem _ hGiven⟩
  human := by
    intro row hMem hApproved
    exact mem_cons_of_mem _ (h.human row hMem hApproved)

/-- The action an approval found, before anything is written. -/
def Clicked (actionId : String) (action : ActionRecord) (s : WorkflowStore) : Prop :=
  (Law s ∧ FreshClick actionId s) ∧ s.action? actionId = some action

theorem clicked_stable : Stable Law (Clicked actionId action) where
  pause s hs := ⟨click_kept.pause s hs.1, by rw [action?_pause]; exact hs.2⟩
  inv _ hs := hs.1.1

variable {reviewer reason : String}

theorem Clicked.approved
    (h : Clicked actionId action s) (hApprovable : Approvable action)
    (hGiven : actionId ∈ s.approvals) :
    GatePre (.resumeApprovedAction (decided .approved reviewer reason action))
      (s.rewriteAction actionId (decided .approved reviewer reason)) := by
  have hId : action.actionId = actionId := by simpa using List.find?_some h.2
  refine ⟨h.1.1.rewriteAction (fun _ => rfl) fun _ _ => .inr hGiven, fun hGate => ?_⟩
  have hLatest : latest s.actions action.type = some action :=
    h.1.2 action h.2 hApprovable hGate
  refine ⟨decided .approved reviewer reason action, ?_, rfl, rfl⟩
  rw [latest_rewriteAction (f := decided .approved reviewer reason) fun _ => rfl]
  show (latest s.actions action.type).map _ = _
  rw [hLatest, Option.map_some, if_pos hId]

theorem resumeApproved_kept : Kept Law (GatePre (.resumeApprovedAction action)) where
  toStable := resumeApproved_stable
  aside s s' hAside hs := by
    refine ⟨hs.1.aside hAside, ?_⟩
    simpa only [Backed, hAside.actions, hAside.runState] using hs.2

theorem approveAction_fresh :
    Triple Law G (fun s => Law s ∧ FreshClick actionId s) (approveAction actionId reviewer reason)
      (Leaves Law GatePre) := by
  refine Triple.bind (triple_getAction click_kept.toStable) fun action => ?_
  have hClicked : Stable Law (Clicked actionId action) := clicked_stable
  split
  next hApproved =>
    refine triple_pure hClicked fun s hs => ⟨hs.1.1, fun hGate => ?_⟩
    exact ⟨action, hs.1.2 action hs.2 (.inl hApproved) hGate, rfl, hApproved⟩
  next =>
    split
    next => exact hClicked.raise
    next hPending =>
      rw [not_not] at hPending
      split
      next => exact hClicked.raise
      next hSigned =>
        have hApprovable : Approvable action := by
          refine .inr ⟨hPending, fun hClass => ?_⟩
          by_contra hNot
          exact hSigned ⟨hClass, by simpa using hNot⟩
        have hGiven : Stable Law fun s => Clicked actionId action s ∧ actionId ∈ s.approvals :=
          hClicked.and fun s hs => by rw [pause_approvals]; exact hs
        refine Triple.bind (triple_access_keep hClicked hGiven fun s hs => ?_) fun _ => ?_
        · exact ⟨⟨⟨hs.1.1.approve, hs.1.2⟩, hs.2⟩, mem_cons_self⟩
        refine Triple.bind (triple_rewriteActionIf (F := fun a => GatePre (.resumeApprovedAction a))
          hGiven (fun _ => resumeApproved_stable) fun s found hs hFind => ?_) fun approved => ?_
        · obtain rfl : found = action := Option.some.inj (hFind.symm.trans hs.1.2)
          exact hs.1.approved hApprovable hs.2
        refine resumeApproved_kept.event.seq fun _ => ?_
        exact triple_pure resumeApproved_stable fun _ hs => hs

def Resuming (s : WorkflowStore) : Prop :=
  Law s ∧ s.runState = .paused ∧ ∀ target, s.resumeState = some target → RecoverableAt target s

theorem pause_of_paused (h : s.runState = .paused) : s.pause = s := by
  unfold WorkflowStore.pause
  rw [h]
  exact if_neg (by decide)

theorem resuming_stable : Stable Law Resuming where
  pause s hs := by
    rw [pause_of_paused hs.2.1]
    exact hs
  inv _ hs := hs.1

theorem resumable_stable : Stable Law fun s =>
    Law s ∧ ∀ target, resumesTo s = some target → RecoverableAt target s where
  pause s hs := by
    refine ⟨hs.1.pause, fun target hTarget => ?_⟩
    have hResumes : resumesTo s = some target := by
      rw [← hTarget]
      unfold WorkflowStore.pause
      split
      next hValid =>
        have hNot : s.runState ≠ .paused := by
          intro hState
          rw [hState] at hValid
          exact absurd hValid (by decide)
        simp [resumesTo, WorkflowStore.paused, WorkflowStore.moved, hNot]
      next => rfl
    have hBefore := hs.2 target hResumes
    simpa only [RecoverableAt, FreshApproved, lastApproved, WorkflowStore.actionsWithStatus,
      WorkflowStore.actionsOfType, pause_actions] using hBefore
  inv _ hs := hs.1

theorem resumeRun_fresh :
    Triple Law G (fun s => Law s ∧ ∀ target, resumesTo s = some target → RecoverableAt target s)
      resumeRun (Leaves Law GatePre) := by
  refine Triple.bind (triple_getStore resumable_stable) fun run => ?_
  split
  next => exact (resumable_stable.seen run).raise
  next hRun =>
    have hPaused : run.runState = .paused := by
      by_contra hState
      exact hRun (.inl hState)
    refine Triple.pre (P := Resuming) ?_ fun s hs => hs.2.keep resuming_stable
      ⟨hs.1.1, hPaused, fun target hTarget => hs.1.2 target ?_⟩
    swap
    · rw [resumesTo, if_pos hPaused]
      exact hTarget
    refine resuming_stable.effect.seq fun _ => ?_
    refine Triple.bind (triple_getStore resuming_stable) fun run => ?_
    have hSeen := resuming_stable.seen run
    split
    next => exact hSeen.raise
    next target hTarget =>
      refine Triple.bind (triple_access (F := fun read s =>
        if validTransition read.runState target = true then GatePre .recoverRun s
        else Resuming run ∧ Seen run s) hSeen (fun read => ?_) fun s hs => ?_) fun read => ?_
      · split
        · exact recoverRun_kept.toStable
        · exact hSeen
      · split
        next hValid =>
          have hNow : Resuming s := hs.2.keep resuming_stable hs.1
          have hTo : s.resumeState = some target := by
            rcases hs.2 with rfl | rfl
            · exact hTarget
            · rw [pause_of_paused hs.1.2.1]
              exact hTarget
          refine ⟨(hNow.1.moved_free ?_).resumed, hNow.2.2 target hTo⟩
          rw [hNow.2.1]
          rfl
        next => exact hs
      · split
        next hValid =>
          have hS := recoverRun_kept.toStable
          refine hS.effect.seq fun _ => ?_
          refine hS.effect.seq fun _ => ?_
          refine recoverRun_kept.event.seq fun _ => ?_
          exact triple_pure hS fun _ hs => hs
        next => exact hSeen.raise

theorem recover_fresh :
    Triple Law G (GatePre .recover) recover (Leaves Law GatePre) := by
  have hS : Stable Law (GatePre .recover) := recoverRun_kept.toStable
  refine hS.getStore.seq fun run => ?_
  split
  · exact triple_pure hS fun _ hs => hs.1
  · exact hS.effect.seq fun _ => triple_pure hS fun _ hs => hs

end Phases

section Histories

theorem entry_fresh (x : WorkflowConfig) (e : Entry) (hAdmits : GateAdmits engine x (.call e))
    (hControl : x.control = none) (hLaw : Law x.store) :
    ∃ P : WorkflowStore → Prop, P x.store ∧
      Triple Law (fun _ _ _ => True) P e.program (Leaves Law GatePre) := by
  cases e with
  | approveAction actionId reviewer reason =>
    exact ⟨_, ⟨hLaw, hAdmits hControl⟩, approveAction_fresh⟩
  | rejectAction actionId reviewer reason =>
    exact ⟨_, hLaw, gates_discipline.rejectAction fun _ _ hs => hs⟩
  | resumeRun => exact ⟨_, ⟨hLaw, hAdmits hControl⟩, resumeRun_fresh⟩
  | recover => exact ⟨_, ⟨hLaw, hAdmits hControl⟩, recover_fresh⟩
  | reconcileRun => exact ⟨_, hLaw, gates_discipline.reconcileRun gatePre_plain⟩

theorem gates_keep : Keeps Law (fun _ _ _ => True) GatePre (GateAdmits engine) where
  idle := law_kept.toStable
  entry := entry_fresh
  body := body_fresh
  handle _ _ := gates_discipline.handle gatePre_plain
  reply _ _ _ _ _ := trivial

structure Created (x : WorkflowConfig) : Prop where
  control : x.control = none
  runState : x.store.runState = x.store.initialState
  actions : x.store.actions = []
  deeds : x.store.deeds = []

/-- In every history whose approvals, resumes and recoveries find the latest action of a type
where they act for one, the deeds are all that moved the run, and whatever was done at a gate was
done for the latest action of its type, approved by a human. -/
theorem gates_fresh (x : WorkflowConfig) (inputs done : List (Stimulus (service engine)))
    (hCreated : Created x)
    (hAlong : Machine.Along (service engine).step (GateAdmits engine) x inputs)
    (hDone : done <+: inputs) :
    Traced (run engine x done).store.initialState (run engine x done).store.deeds
        (run engine x done).store.runState ∧
      ∀ deed ∈ (run engine x done).store.deeds, deed.Fresh (run engine x done).store.approvals := by
  have hStart : Law x.store := by
    refine ⟨?_, ?_, ?_⟩
    · rw [hCreated.deeds]
      exact hCreated.runState
    · simp [hCreated.deeds]
    · simp [hCreated.actions]
  have hLaw := gates_keep.run hCreated.control hStart hAlong hDone
  exact ⟨hLaw.traced, hLaw.fresh⟩

end Histories

/-- An engine whose policy admits every action, and whose hashes can be read. -/
def trialEngine : Orchestrator where
  policy := ⟨fun _ => true, fun _ => false, fun _ => true⟩
  sha256 identity := match identity.type with
    | .approveProtocol => "protocol-" ++ toString identity.ordinal
    | .submitExperimentMatrix => "matrix-" ++ toString identity.ordinal
    | .proposeEvaluationContract => "contract-" ++ toString identity.ordinal
    | .acceptFinalReport => "report-" ++ toString identity.ordinal
    | .other name => name ++ "-" ++ toString identity.ordinal

/-- Turns of agents that do their part; the verification is never satisfied. -/
def trialTurn : TurnKind → AgentTurnResult
  | .protocolDraft =>
    { evaluationContractProposal := some [], producedFiles := [⟨"program.md", "protocol"⟩] }
  | .implementationPlan =>
    { producedFiles := [⟨"implementation-plan.md", "implementation"⟩] }
  | .implementationProposal | .revision =>
    { requestedActions := [{ type := .submitExperimentMatrix }] }
  | .methodologyReview => { done := true }
  | _ => {}

def trialAnswer : (q : Question) → q.Answer
  | .agentTurn _ kind => Except.ok (trialTurn kind)
  | .effect _ => Except.ok ()
  | .test .contractBindingCompatible => Except.ok true
  | .test (.workspaceFile _) => Except.ok true
  | .test _ => Except.ok false
  | .uuid4 key => key
  | .boundContractProposal => Except.ok none
  | .clampedProposal _ => none
  | .draftDigests _ => ("protocol-digest", "proposal-digest")
  | .sealCandidate _ => Except.error ⟨.other, ""⟩
  | .installedCandidate _ => Except.ok none
  | .preflight _ => Except.ok .passed
  | .expandMatrix _ => Except.ok ["job-1"]
  | .reportDigest => "report-digest"

def trialStart : WorkflowConfig where
  store := { runId := "run", runState := .preparing, initialState := .preparing }
  control := none

def called (e : Entry) (rounds : Nat) : List (Stimulus (service trialEngine)) :=
  Stimulus.call e :: (List.replicate rounds [Stimulus.tick, .reply trialAnswer]).flatten

/-- The protocol is approved, then the first matrix; its jobs end, the verification asks for a
revision, and the run waits for the approval of the second matrix. -/
def trialHistory : List (Stimulus (service trialEngine)) :=
  called .recover 23 ++ called (.approveAction "protocol-1000" "human" "") 33 ++
    called (.approveAction "matrix-300" "human" "") 48

theorem created_trialStart : Created trialStart := ⟨rfl, rfl, rfl, rfl⟩

theorem gates_fresh_trialHistory :
    (run trialEngine trialStart trialHistory).store.runState = .awaitingExecutionApproval ∧
      ⟨.submitMatrix, some "matrix-300"⟩ ∈
        (run trialEngine trialStart trialHistory).store.deeds.map
          (fun deed => (deed.kind, deed.driver)) ∧
      ∀ deed ∈ (run trialEngine trialStart trialHistory).store.deeds,
        deed.Fresh (run trialEngine trialStart trialHistory).store.approvals :=
  ⟨by decide +kernel, by decide +kernel,
    (gates_fresh trialStart trialHistory trialHistory created_trialStart (by decide +kernel)
      (prefix_refl _)).2⟩

/-- Approving the first matrix once more queues its jobs, with the second matrix PENDING. -/
theorem not_gates_fresh :
    Created trialStart ∧
      ∃ deed ∈ (run trialEngine trialStart
          (trialHistory ++ called (.approveAction "matrix-300" "human" "") 9)).store.deeds,
        deed.kind = .move .awaitingExecutionApproval .jobQueued ∧
          deed.driver = some "matrix-300" ∧
          (latest deed.actions .submitExperimentMatrix).map
            (fun action => (action.actionId, action.approvalStatus)) =
              some ("matrix-700", .pending) ∧
          ¬deed.Fresh (run trialEngine trialStart
            (trialHistory ++ called (.approveAction "matrix-300" "human" "") 9)).store.approvals :=
  ⟨created_trialStart, by decide +kernel⟩

end Glasslab.Engine.Workflow
