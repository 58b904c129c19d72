import Glasslab.Engine.Gates

/-!
# The candidate behind a contract action

A contract candidate is recorded as an artifact that names the action it was sealed for, and
`_promote_contract_candidate` insists on finding exactly one for the action it promotes. But the id
of the artifact is made of the sealed bytes, and a taken id keeps its row: a draft that is sealed to
the same bytes as an earlier one leaves its own action without a candidate.

`SealsAnew` is what a draft must bring for the action at the gate to have its candidate, and in
every history of such drafts it has (`candidate_at_promotion`).
-/

namespace Glasslab.Engine.Workflow

open Foundation List

/-! ## The law -/

def WorkflowStore.candidatesFor (s : WorkflowStore) (actionId : String) : List LocalArtifact :=
  (s.artifactsOfType .evaluationContractCandidate).filter fun artifact =>
    artifact.actionId = some actionId

def HasCandidate (s : WorkflowStore) : Prop :=
  ∃ action artifact, latest s.actions .proposeEvaluationContract = some action ∧
    s.candidatesFor action.actionId = [artifact]

def contractStates : List RunState := [.honeydewReviewingContract, .awaitingContractPromotion]

def UnderReview (s : WorkflowStore) : Prop :=
  s.runState ∈ contractStates ∨
    s.runState = .paused ∧ ∃ state ∈ contractStates, s.resumeState = some state

def Covered (s : WorkflowStore) : Prop := UnderReview s → HasCandidate s

def Elsewhere (s : WorkflowStore) : Prop := ¬UnderReview s

/-- A draft that is sealed to bytes that no artifact of the run has, for an action that no
candidate names and that is the latest contract action. -/
structure SealsAnew (s : WorkflowStore) (action : ActionRecord) (candidate : Sealed) : Prop where
  unsaved : ∀ artifact ∈ s.artifacts,
    ¬(candidate.uri = artifact.uri ∧ candidate.digest = artifact.sha256)
  unnamed : s.candidatesFor action.actionId = []
  newest : (latest s.actions .proposeEvaluationContract).map ActionRecord.actionId =
    some action.actionId

instance (s : WorkflowStore) (action : ActionRecord) (candidate : Sealed) :
    Decidable (SealsAnew s action candidate) :=
  decidable_of_iff
    ((∀ artifact ∈ s.artifacts,
        ¬(candidate.uri = artifact.uri ∧ candidate.digest = artifact.sha256)) ∧
      (s.candidatesFor action.actionId).isEmpty ∧
      (latest s.actions .proposeEvaluationContract).map ActionRecord.actionId =
        some action.actionId)
    ⟨fun h => ⟨h.1, List.isEmpty_iff.mp h.2.1, h.2.2⟩,
      fun h => ⟨h.unsaved, List.isEmpty_iff.mpr h.unnamed, h.newest⟩⟩

section Law

variable {s s' : WorkflowStore} {driver : Option String} {target : RunState}

theorem HasCandidate.congr (h : HasCandidate s) (hActions : s'.actions = s.actions)
    (hArtifacts : s'.artifacts = s.artifacts) : HasCandidate s' := by
  obtain ⟨action, artifact, hLatest, hCandidates⟩ := h
  refine ⟨action, artifact, ?_, ?_⟩
  · rw [hActions]
    exact hLatest
  · rw [WorkflowStore.candidatesFor, WorkflowStore.artifactsOfType, hArtifacts]
    exact hCandidates

theorem HasCandidate.rewriteAction (h : HasCandidate s) {actionId : String}
    {f : ActionRecord → ActionRecord} (hId : ∀ a, (f a).actionId = a.actionId)
    (hType : ∀ a, (f a).type = a.type) : HasCandidate (s.rewriteAction actionId f) := by
  obtain ⟨action, artifact, hLatest, hCandidates⟩ := h
  refine ⟨if action.actionId = actionId then f action else action, artifact, ?_, ?_⟩
  · rw [latest_rewriteAction hType, hLatest]
    rfl
  · have hSame : (if action.actionId = actionId then f action else action).actionId =
        action.actionId := by
      split
      · exact hId action
      · rfl
    rw [hSame]
    exact hCandidates

theorem underReview_pause : UnderReview s.pause ↔ UnderReview s := by
  unfold WorkflowStore.pause
  split
  next hValid =>
    have hRunning : s.runState ≠ .paused := by
      intro hState
      rw [hState] at hValid
      exact absurd hValid (by decide)
    simp [UnderReview, WorkflowStore.paused, WorkflowStore.moved, hRunning, contractStates]
  next => rfl

theorem underReview_congr (hState : s'.runState = s.runState)
    (hResume : s'.resumeState = s.resumeState) : UnderReview s' ↔ UnderReview s := by
  rw [UnderReview, UnderReview, hState, hResume]

theorem elsewhere_moved (hContract : target ∉ contractStates) (hPaused : target ≠ .paused) :
    Elsewhere (s.moved driver target) := by
  rintro (hState | ⟨hState, _⟩)
  · exact hContract hState
  · exact hPaused hState

theorem Elsewhere.covered (h : Elsewhere s) : Covered s := fun hReview => absurd hReview h

theorem Covered.congr (h : Covered s) (hState : s'.runState = s.runState)
    (hResume : s'.resumeState = s.resumeState) (hActions : s'.actions = s.actions)
    (hArtifacts : s'.artifacts = s.artifacts) : Covered s' := fun hReview =>
  (h ((underReview_congr hState hResume).mp hReview)).congr hActions hArtifacts

theorem hasCandidate_kept : Kept Covered HasCandidate where
  pause s h := h.congr (pause_actions s) (pause_artifacts s)
  inv _ h _ := h
  aside _ _ hAside h := h.congr hAside.actions hAside.artifacts

theorem covered_kept : Kept Covered Covered where
  pause s h hReview := hasCandidate_kept.pause s (h (underReview_pause.mp hReview))
  inv _ h := h
  aside _ _ hAside h := h.congr hAside.runState hAside.resumeState hAside.actions hAside.artifacts

theorem elsewhere_kept : Kept Covered Elsewhere where
  pause _ h hReview := h (underReview_pause.mp hReview)
  inv _ h := h.covered
  aside _ _ hAside h hReview :=
    h ((underReview_congr hAside.runState hAside.resumeState).mp hReview)

theorem Elsewhere.saveArtifact (h : Elsewhere s) {artifact : LocalArtifact} :
    Elsewhere (s.saveArtifact artifact) := by
  unfold WorkflowStore.saveArtifact
  split <;> exact h

theorem covered_discipline : Discipline Covered Elsewhere where
  idle := covered_kept
  away := elsewhere_kept
  record _ _ _ h := h
  rewrite _ _ _ _ h := h
  rewriteIdle _ _ _ hTame h hReview := (h hReview).rewriteAction hTame.actionId hTame.type
  artifact _ _ _ h := h.saveArtifact
  depart s target hWait hReview hPaused _ _ := by
    refine elsewhere_moved (fun hContract => ?_) hPaused
    simp only [contractStates, mem_cons, not_mem_nil, or_false] at hContract
    rcases hContract with rfl | rfl
    · exact hReview rfl
    · exact hWait (by decide)
  arrive s target hWait hPromotion _ _ := by
    refine (elsewhere_moved ?_ ?_).covered
    · rintro hContract
      simp only [contractStates, mem_cons, not_mem_nil, or_false] at hContract
      rcases hContract with rfl | rfl
      · exact absurd hWait (by decide)
      · exact hPromotion rfl
    · rintro rfl
      exact absurd hWait (by decide)
  leave s target hTarget _ _ := by
    simp only [mem_cons, not_mem_nil, or_false] at hTarget
    rcases hTarget with rfl | rfl | rfl <;> exact elsewhere_moved (by decide) (by decide)
  redraft _ _ _ _ := elsewhere_moved (by decide) (by decide)
  enter s hWait hReview hPaused _ := by
    rintro (hContract | ⟨hState, _⟩)
    · simp only [contractStates, mem_cons, not_mem_nil, or_false] at hContract
      rcases hContract with hState | hState
      · exact hReview hState
      · exact hWait (by rw [hState]; decide)
    · exact hPaused hState
  fail _ _ _ := (elsewhere_moved (by decide) (by decide)).covered

end Law

variable {engine : Orchestrator}

section Phases

variable {action : ActionRecord} {candidate : Sealed} {s : WorkflowStore}

theorem SealsAnew.hasCandidate (h : SealsAnew s action candidate) :
    HasCandidate (s.saveArtifact (candidate.artifact action)) := by
  obtain ⟨row, hRow, hId⟩ := Option.map_eq_some_iff.mp h.newest
  have hNew : s.artifacts.any (candidate.artifact action).sameId = false := by
    refine any_eq_false.mpr fun artifact hMem hSame => ?_
    exact h.unsaved artifact hMem (of_decide_eq_true hSame)
  have hSaved : s.saveArtifact (candidate.artifact action) =
      { s with artifacts := s.artifacts ++ [candidate.artifact action] } :=
    if_neg (by simp [hNew])
  refine ⟨row, candidate.artifact action, ?_, ?_⟩
  · rw [hSaved]
    exact hRow
  · have hBefore := h.unnamed
    rw [hSaved, hId]
    simp only [WorkflowStore.candidatesFor, WorkflowStore.artifactsOfType, filter_append] at *
    rw [hBefore]
    simp [Sealed.artifact]

theorem SealsAnew.pause (h : SealsAnew s action candidate) :
    SealsAnew s.pause action candidate where
  unsaved := by
    rw [pause_artifacts]
    exact h.unsaved
  unnamed := by
    rw [WorkflowStore.candidatesFor, WorkflowStore.artifactsOfType, pause_artifacts]
    exact h.unnamed
  newest := by
    rw [pause_actions]
    exact h.newest

def sealedAnew : Answers := fun q =>
  match q with
  | .sealCandidate action => fun answer s =>
    match (answer : Except Error (Except String Sealed)) with
    | .ok (.ok candidate) => SealsAnew s action candidate
    | _ => True
  | _ => fun _ _ => True

instance : (q : Question) → (answer : q.Answer) → (s : WorkflowStore) →
    Decidable (sealedAnew q answer s)
  | .sealCandidate action, .ok (.ok candidate), s =>
    inferInstanceAs (Decidable (SealsAnew s action candidate))
  | .sealCandidate _, .ok (.error _), _ => .isTrue trivial
  | .sealCandidate _, .error _, _ => .isTrue trivial
  | .agentTurn _ _, _, _ => .isTrue trivial
  | .effect _, _, _ => .isTrue trivial
  | .test _, _, _ => .isTrue trivial
  | .uuid4 _, _, _ => .isTrue trivial
  | .boundContractProposal, _, _ => .isTrue trivial
  | .clampedProposal _, _, _ => .isTrue trivial
  | .draftDigests _, _, _ => .isTrue trivial
  | .installedCandidate _, _, _ => .isTrue trivial
  | .preflight _, _, _ => .isTrue trivial
  | .expandMatrix _, _, _ => .isTrue trivial
  | .reportDigest, _, _ => .isTrue trivial

theorem sealedAnew_pause (answer : (Question.sealCandidate action).Answer) (s : WorkflowStore)
    (h : sealedAnew (.sealCandidate action) answer s) :
    sealedAnew (.sealCandidate action) answer s.pause := by
  match answer with
  | .error _ => trivial
  | .ok (.error _) => trivial
  | .ok (.ok candidate) => exact SealsAnew.pause h

def CoverPre : Phase → WorkflowStore → Prop
  | .honeydewReviewContract _ => HasCandidate
  | .resumeApprovedAction _ | .promoteContractCandidate _ | .submitMatrix _ | .recover
  | .recoverRun | .resumeRejectedAction _ | .reconcileRun => Covered
  | _ => Elsewhere

theorem coverPre_plain (phase : Phase) (h : phase.plain = true) (s : WorkflowStore)
    (hs : Elsewhere s) : CoverPre phase s := by
  cases phase <;> first | exact hs | exact hs.covered | cases h

theorem recordCandidate_covered :
    Triple Covered sealedAnew
      (fun s => Elsewhere s ∧ sealedAnew (.sealCandidate action) (.ok (.ok candidate)) s)
      (recordCandidate action candidate) (Leaves Covered CoverPre) := by
  have hAnew : Stable Covered fun s =>
      Elsewhere s ∧ sealedAnew (.sealCandidate action) (.ok (.ok candidate)) s :=
    elsewhere_kept.toStable.and (sealedAnew_pause (.ok (.ok candidate)))
  have hHas := hasCandidate_kept
  have hSave : Triple Covered sealedAnew
      (fun s => Elsewhere s ∧ sealedAnew (.sealCandidate action) (.ok (.ok candidate)) s)
      (saveLocalArtifact (candidate.artifact action)) fun _ => HasCandidate :=
    Triple.bind (triple_access_keep hAnew hHas.toStable fun s hs => SealsAnew.hasCandidate hs.2)
      fun _ => hHas.ret
  refine hAnew.effect.seq fun _ => ?_
  refine hSave.bind fun _ => ?_
  refine hHas.event.seq fun _ => ?_
  refine Triple.seq (triple_transitionFor hHas.toStable hHas.toStable fun s hs _ =>
    hs.congr rfl rfl) fun _ => ?_
  exact triple_pure hHas.toStable fun _ hs => hs

theorem honeydewReviewContract_covered :
    Triple Covered G HasCandidate (honeydewReviewContract action) (Leaves Covered CoverPre) := by
  have hHas := hasCandidate_kept
  have hS := hHas.toStable
  refine Triple.seq (hHas.runAgentTurn fun s hs _ => hs.congr rfl rfl) fun result => ?_
  split
  · refine Triple.seq (triple_rewriteActionIf hS (fun _ => hS) fun s _ hs _ =>
      hs.rewriteAction tame_signedOff.actionId tame_signedOff.type) fun _ => ?_
    refine hHas.event.seq fun _ => ?_
    refine Triple.bind (triple_transitionFor hS hS fun s hs _ => hs.congr rfl rfl) fun _ => ?_
    exact hHas.event.seq fun _ => triple_pure hS fun _ hs => hHas.inv _ hs
  · refine Triple.seq (triple_rewriteActionIf hS (fun _ => hS) fun s _ hs _ =>
      hs.rewriteAction (fun _ => rfl) fun _ => rfl) fun _ => ?_
    refine hHas.event.seq fun _ => ?_
    refine Triple.bind (triple_transitionFor hS elsewhere_kept.toStable fun _ _ _ =>
      elsewhere_moved (by decide) (by decide)) fun _ => ?_
    exact covered_discipline.goto coverPre_plain rfl

/-! ## The other phases -/

variable {G : Answers}

theorem note_covered {kind : DeedKind} :
    Triple Covered G Covered (note kind action) fun _ => Covered :=
  Triple.bind (triple_access_keep covered_kept.toStable covered_kept.toStable fun _ hs =>
    hs.congr rfl rfl rfl rfl) fun _ => covered_kept.ret

/-- Every gate leads away from the review of a contract. -/
theorem open_covered {driver : Option String} {target : RunState} {phase : Phase}
    (hContract : target ∉ contractStates) (hPaused : target ≠ .paused)
    (hPhase : phase.plain = true) :
    Triple Covered G Covered (transitionFor driver target >>= fun _ => goto phase)
      (Leaves Covered CoverPre) :=
  Triple.bind (triple_transitionFor covered_kept.toStable elsewhere_kept.toStable fun _ _ _ =>
    elsewhere_moved hContract hPaused) fun _ => covered_discipline.goto coverPre_plain hPhase

theorem submitMatrix_covered :
    Triple Covered G Covered (submitMatrix action) (Leaves Covered CoverPre) := by
  have hI := covered_kept.toStable
  exact Discipline.submitMatrix hI covered_kept (fun _ _ _ hs hSeen => hSeen.keep hI hs)
    note_covered (open_covered (by decide) (by decide) rfl)

theorem resumeApprovedAction_covered :
    Triple Covered G Covered (resumeApprovedAction action) (Leaves Covered CoverPre) := by
  have hI := covered_kept.toStable
  have hFinish : Triple Covered G Covered finish (Leaves Covered CoverPre) :=
    hI.finish
  refine hI.getStore.seq fun run => ?_
  split
  · split
    · exact hFinish
    · refine hI.effect.seq fun _ => ?_
      refine hI.test.seq fun compatible => ?_
      split
      · exact open_covered (by decide) (by decide) rfl
      · exact open_covered (by decide) (by decide) rfl
  · split
    · exact hFinish
    · exact triple_pure hI fun _ hs => hs
  · split
    · exact hFinish
    · exact triple_pure hI fun _ hs => hs
  · split
    · exact hFinish
    · refine Triple.seq (triple_transitionFor hI hI fun _ _ _ =>
        (elsewhere_moved (by decide) (by decide)).covered) fun _ => ?_
      refine hI.effect.seq fun _ => ?_
      exact covered_kept.event.seq fun _ => hFinish
  · exact hFinish

theorem dispatch_covered {run : WorkflowStore} :
    Triple Covered G (fun s => Covered run ∧ Seen run s) (dispatch engine run)
      (Leaves Covered CoverPre) := by
  by_cases hGate : run.runState ∈ gateStates
  swap
  · exact covered_discipline.dispatch coverPre_plain hGate
  have hI := covered_kept.toStable
  have hCovered : ∀ s, Covered run ∧ Seen run s → Covered s := fun s hs => hs.2.keep hI hs.1
  simp only [gateStates, mem_cons, not_mem_nil, or_false] at hGate
  unfold dispatch
  rcases hGate with hState | hState | hState | hState <;> simp only [hState]
  · have hHas := hasCandidate_kept.toStable
    refine Triple.pre (P := HasCandidate) ?_ fun s hs =>
      hs.2.keep hHas (hs.1 (.inl (by rw [hState]; decide)))
    refine hHas.getStore.seq fun s => ?_
    split
    · exact Triple.pre (open_covered (by decide) (by decide) rfl) hHas.inv
    · refine Triple.seq ((triple_getAction hHas).post fun _ _ hs => hs.1) fun action => ?_
      exact triple_pure hHas fun _ hs => hs
  · refine Triple.pre (P := Covered) ?_ hCovered
    refine hI.getStore.seq fun s => ?_
    split <;> exact triple_pure hI fun _ hs => hs
  · refine Triple.pre (P := Covered) ?_ hCovered
    refine hI.getStore.seq fun s => ?_
    split
    · exact hI.finish
    · split <;> exact triple_pure hI fun _ hs => hs
  · refine Triple.pre (P := Covered) ?_ hCovered
    refine hI.getStore.seq fun s => ?_
    split <;> exact triple_pure hI fun _ hs => hs

theorem body_covered (phase : Phase) :
    Triple Covered sealedAnew (CoverPre phase) (phase.body engine) (Leaves Covered CoverPre) := by
  have hD := covered_discipline
  have hPre := coverPre_plain
  have hI := covered_kept.toStable
  cases phase with
  | resumeApprovedAction action => exact resumeApprovedAction_covered
  | resumeRejectedAction action => exact hD.resumeRejectedAction hPre
  | recover => exact hI.effect.seq fun _ => triple_pure hI fun _ hs => hs
  | recoverRun => exact hD.recoverRun hPre hI fun _ => dispatch_covered
  | draftProtocol => exact hD.draftProtocol
  | beakerDraftContract =>
    refine hD.beakerDraftContract hPre (hD.draftCandidate hPre ?_ ?_)
    · exact fun _ => sealedAnew_pause
    · exact fun _ _ => recordCandidate_covered
  | honeydewReviewContract action => exact honeydewReviewContract_covered
  | promoteContractCandidate action =>
    exact hD.promoteContractCandidate covered_kept note_covered
      (open_covered (by decide) (by decide) rfl)
  | beakerPlan => exact hD.beakerPlan hPre
  | beakerImplement => exact hD.beakerImplement hPre
  | beakerFinalize => exact hD.beakerFinalize hPre
  | honeydewReview => exact hD.honeydewReview hPre
  | beakerRevise => exact hD.beakerRevise hPre
  | submitMatrix action => exact submitMatrix_covered
  | fillJobCapacity => exact hD.fillJobCapacity hPre
  | reconcileRun => exact hD.reconcileRun hPre
  | analyzeResults => exact hD.analyzeResults hPre
  | verifyResults => exact hD.verifyResults hPre
  | writeReport attempt => exact hD.writeReport hPre

theorem approveAction_covered {actionId reviewer reason : String} :
    Triple Covered G Covered (approveAction actionId reviewer reason)
      (Leaves Covered CoverPre) := by
  have hI := covered_kept.toStable
  refine Triple.seq ((triple_getAction hI).post fun _ _ hs => hs.1) fun action => ?_
  split
  · exact triple_pure hI fun _ hs => hs
  · split
    · exact hI.raise
    · split
      · exact hI.raise
      · refine Triple.seq (triple_access_keep hI hI fun _ hs => hs.congr rfl rfl rfl rfl)
          fun _ => ?_
        refine Triple.seq (triple_rewriteActionIf hI (fun _ => hI) fun s _ hs _ hReview => ?_)
          fun approved => ?_
        · exact (hs hReview).rewriteAction (fun _ => rfl) fun _ => rfl
        refine covered_kept.event.seq fun _ => ?_
        exact triple_pure hI fun _ hs => hs

theorem Covered.resumed {target : RunState} (h : Covered s)
    (hPaused : s.runState = .paused) (hTarget : s.resumeState = some target) :
    Covered { s.moved none target with resumeState := none } := by
  rintro (hState | ⟨_, state, _, hNone⟩)
  · have hReview : UnderReview s := .inr ⟨hPaused, target, hState, hTarget⟩
    exact (h hReview).congr rfl rfl
  · cases hNone

theorem resumeRun_covered :
    Triple Covered G Covered resumeRun (Leaves Covered CoverPre) := by
  have hI := covered_kept.toStable
  have hPaused : Stable Covered fun s => Covered s ∧ s.runState = .paused :=
    { pause := fun s hs => by
        rw [pause_of_paused hs.2]
        exact hs
      inv := fun _ hs => hs.1 }
  refine Triple.bind (triple_getStore hI) fun run => ?_
  split
  next => exact (hI.seen run).raise
  next hRun =>
    have hState : run.runState = .paused := by
      by_contra hState
      exact hRun (.inl hState)
    refine Triple.pre (P := fun s => Covered s ∧ s.runState = .paused) ?_ fun s hs =>
      hs.2.keep hPaused ⟨hs.1, hState⟩
    refine hPaused.effect.seq fun _ => ?_
    refine Triple.bind (triple_getStore hPaused) fun run => ?_
    have hSeen := hPaused.seen run
    split
    next => exact hSeen.raise
    next target hTarget =>
      refine Triple.bind (triple_access_keep hSeen hI fun s hs => ?_) fun read => ?_
      · split
        next hValid =>
          obtain rfl : s = run := by
            rcases hs.2 with rfl | rfl
            · rfl
            · exact pause_of_paused hs.1.2
          exact hs.1.1.resumed hs.1.2 hTarget
        next => exact hSeen.inv s hs
      · split
        · refine hI.effect.seq fun _ => ?_
          refine hI.effect.seq fun _ => ?_
          refine covered_kept.event.seq fun _ => ?_
          exact triple_pure hI fun _ hs => hs
        · exact hI.raise

theorem recover_covered : Triple Covered G Covered recover (Leaves Covered CoverPre) := by
  have hI := covered_kept.toStable
  refine hI.getStore.seq fun run => ?_
  split
  · exact hI.finish
  · exact hI.effect.seq fun _ => triple_pure hI fun _ hs => hs

end Phases

section Histories

variable (engine) in
def SealAdmits (x : WorkflowConfig) : Stimulus (service engine) → Prop
  | .reply answer => ∀ q, x.pending = some q → sealedAnew q (answer q) x.store
  | _ => True

instance (x : WorkflowConfig) : ∀ i : Stimulus (service engine), Decidable (SealAdmits engine x i)
  | .reply answer => inferInstanceAs (Decidable (∀ q ∈ x.pending, sealedAnew q (answer q) x.store))
  | .call _ => .isTrue trivial
  | .tick => .isTrue trivial
  | .interfere _ => .isTrue trivial
  | .crash => .isTrue trivial

theorem entry_covered (x : WorkflowConfig) (e : Entry) (_ : SealAdmits engine x (.call e))
    (_ : x.control = none) (h : Covered x.store) :
    ∃ P : WorkflowStore → Prop, P x.store ∧
      Triple Covered sealedAnew P e.program (Leaves Covered CoverPre) := by
  refine ⟨Covered, h, ?_⟩
  cases e with
  | approveAction actionId reviewer reason => exact approveAction_covered
  | rejectAction actionId reviewer reason =>
    exact covered_discipline.rejectAction fun _ _ hs => hs
  | resumeRun => exact resumeRun_covered
  | recover => exact recover_covered
  | reconcileRun => exact covered_discipline.reconcileRun coverPre_plain

theorem covered_keep : Keeps Covered sealedAnew CoverPre (SealAdmits engine) where
  idle := covered_kept.toStable
  entry := entry_covered
  body := body_covered
  handle _ _ := covered_discipline.handle coverPre_plain
  reply _ _ q hAdmits hPending := hAdmits q hPending

def afterRead (p : Step) (s : WorkflowStore) : Option Step :=
  match p with
  | .act _ rest => some (rest s)
  | _ => none

theorem afterRead_getStore {rest : WorkflowStore → Step} {s : WorkflowStore} :
    afterRead (getStore >>= rest) s = some (rest s) := rfl

/-- The promotion of an action finds a candidate and goes on with it. -/
def Promotes (s : WorkflowStore) (action : ActionRecord) (artifact : LocalArtifact) : Prop :=
  ∃ rest : Except Error (Option Bool) → Step,
    afterRead (promoteContractCandidate action) s = some (effect .validateDescriptor >>= fun _ =>
      Proc.query (Question.installedCandidate artifact) >>= rest)

theorem promotes_of_candidatesFor {s : WorkflowStore} {action : ActionRecord}
    {artifact : LocalArtifact} (h : s.candidatesFor action.actionId = [artifact]) :
    Promotes s action artifact := by
  unfold WorkflowStore.candidatesFor at h
  unfold Promotes promoteContractCandidate
  rw [afterRead_getStore]
  rw [h]
  exact ⟨_, rfl⟩

/-- In every history whose drafts are sealed anew, the latest contract action has exactly one
candidate whenever the run waits for a promotion, and promoting the action promotes it. -/
theorem candidate_at_promotion (x : WorkflowConfig) (inputs done : List (Stimulus (service engine)))
    (hControl : x.control = none) (hStart : x.store.runState ∈ [RunState.created, .preparing])
    (hAlong : Machine.Along (service engine).step (SealAdmits engine) x inputs)
    (hDone : done <+: inputs)
    (hGate : (run engine x done).store.runState = .awaitingContractPromotion) :
    ∃ action artifact,
      latest (run engine x done).store.actions .proposeEvaluationContract = some action ∧
        (run engine x done).store.candidatesFor action.actionId = [artifact] ∧
        Promotes (run engine x done).store action artifact := by
  have hElsewhere : Elsewhere x.store := by
    simp only [mem_cons, not_mem_nil, or_false] at hStart
    rintro (hContract | ⟨hPaused, _⟩)
    · rcases hStart with hState | hState <;> rw [hState] at hContract <;>
        exact absurd hContract (by decide)
    · rcases hStart with hState | hState <;> rw [hState] at hPaused <;> cases hPaused
  have hCovered := covered_keep.run hControl hElsewhere.covered hAlong hDone
  have hReview : UnderReview (run engine x done).store := .inl (by rw [hGate]; decide)
  obtain ⟨action, artifact, hLatest, hCandidates⟩ := hCovered hReview
  exact ⟨action, artifact, hLatest, hCandidates, promotes_of_candidatesFor hCandidates⟩

end Histories

/-- Beaker drafts one candidate, sealed to these bytes, and Honeydew is content with it. -/
def draftingAnswer (digest : String) : (q : Question) → q.Answer
  | .agentTurn .beaker .contractCandidate =>
    Except.ok { requestedActions := [{ type := .proposeEvaluationContract }] }
  | .test .contractBindingCompatible => Except.ok false
  | .test .installedForProposal => Except.ok false
  | .sealCandidate _ =>
    Except.ok (Except.ok ⟨"artifact://run/contract-candidates/accuracy/1.0.0@" ++ digest, digest⟩)
  | q => trialAnswer q

def drafting (e : Entry) (digest : String) (rounds : Nat) : List (Stimulus (service trialEngine)) :=
  Stimulus.call e ::
    (List.replicate rounds [Stimulus.tick, .reply (draftingAnswer digest)]).flatten

/-- The protocol is approved, a candidate is drafted, and the human rejects it; the next draft is
sealed to these bytes. -/
def redraftHistory (digest : String) : List (Stimulus (service trialEngine)) :=
  called .recover 23 ++ drafting (.approveAction "protocol-1000" "human" "") "sha256-a" 30 ++
    drafting (.rejectAction "contract-200" "human" "") digest 30

theorem candidate_at_promotion_redraft :
    ∃ action artifact,
      latest (run trialEngine trialStart (redraftHistory "sha256-b")).store.actions
          .proposeEvaluationContract = some action ∧
        (run trialEngine trialStart (redraftHistory "sha256-b")).store.candidatesFor
          action.actionId = [artifact] ∧
        Promotes (run trialEngine trialStart (redraftHistory "sha256-b")).store action artifact :=
  candidate_at_promotion trialStart (redraftHistory "sha256-b") (redraftHistory "sha256-b") rfl
    (by decide) (by decide +kernel) (prefix_refl _) (by decide +kernel)

/-- Redrafted to the bytes of the rejected candidate, the action at the gate has none, and its
approval fails and pauses the run. -/
theorem not_candidate_at_promotion :
    trialStart.control = none ∧ trialStart.store.runState = .preparing ∧
      (run trialEngine trialStart (redraftHistory "sha256-a")).store.runState =
        .awaitingContractPromotion ∧
      (latest (run trialEngine trialStart (redraftHistory "sha256-a")).store.actions
        .proposeEvaluationContract).map ActionRecord.actionId = some "contract-400" ∧
      ((run trialEngine trialStart (redraftHistory "sha256-a")).store.candidatesFor
        "contract-400").isEmpty ∧
      (run trialEngine trialStart (redraftHistory "sha256-a" ++
        drafting (.approveAction "contract-400" "human" "") "sha256-a" 15)).store.runState =
          .paused ∧
      ⟨"action.execution_failed", some "contract-400"⟩ ∈
        (run trialEngine trialStart (redraftHistory "sha256-a" ++
          drafting (.approveAction "contract-400" "human" "") "sha256-a" 15)).store.events := by
  decide +kernel

end Glasslab.Engine.Workflow
