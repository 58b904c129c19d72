import Glasslab.Engine.WorkflowStore

/-!
# Phases of the workflow

The functions of `app/engine.py` that draft, review, implement, execute and report, from
`_draft_protocol` to `_write_report`. Each ends in the phase it calls last, in a state that waits
for a human, in a pause or in an exception.
-/

namespace Glasslab.Engine.Workflow

open Foundation

section Phases

variable (engine : Orchestrator)

/-- The loop of `_record_requested_actions`. -/
def recordActions (agent : AgentName) (turnNumber : Nat) :
    List RequestedAction → Nat → WorkflowM (List ActionRecord)
  | [], _ => pure []
  | requested :: rest, index => do
    let s ← getStore
    let ordinal := turnNumber * 100 + index
    let actionId ← Proc.query (Question.uuid4
      (engine.sha256 ⟨agent, requested.type, requested.arguments, ordinal⟩))
    let (record, created) ←
      saveActionWithEvent (engine.buildRecord s.runId actionId agent requested ordinal)
    if created then pure () else repairActionProposedEvent record
    let records ← recordActions agent turnNumber rest (index + 1)
    pure (record :: records)

def recordRequestedActions (agent : AgentName) (result : AgentTurnResult) :
    WorkflowM (List ActionRecord) := do
  let run ← getStore
  recordActions engine agent run.turnNumber result.requestedActions 0

def createHumanAction (type : ActionType) (reason : String) : WorkflowM ActionRecord := do
  let run ← getStore
  let s ← getStore
  let requested : RequestedAction := { type := type, reason := reason }
  let ordinal := run.turnNumber * 1000 + s.actions.length
  let actionId ← Proc.query (Question.uuid4 (engine.sha256 ⟨.orchestrator, type, [], ordinal⟩))
  let (record, created) ←
    saveActionWithEvent (engine.buildRecord run.runId actionId .orchestrator requested ordinal)
  if created then pure () else repairActionProposedEvent record
  pure record

inductive Phase where
  | resumeApprovedAction (action : ActionRecord)
  | resumeRejectedAction (action : ActionRecord)
  | recover
  | recoverRun
  | draftProtocol
  | beakerDraftContract
  | honeydewReviewContract (action : ActionRecord)
  | promoteContractCandidate (action : ActionRecord)
  | beakerPlan
  | beakerImplement
  | beakerFinalize
  | honeydewReview
  | beakerRevise
  | submitMatrix (action : ActionRecord)
  | fillJobCapacity
  | reconcileRun
  | analyzeResults
  | verifyResults
  /-- The loop of `_write_report`, before the attempt of that number. -/
  | writeReport (attempt : Nat)

/-- The `except` clauses around the workflow. -/
inductive Handler where
  | approvedActionFailure (action : ActionRecord)
  | resumedWorkflowFailure
  | recoveryFailure

abbrev Step := WorkflowM (Next Phase Handler)

def finish : Step := pure .finish

def goto (phase : Phase) : Step := pure (.goto phase)

def filesWithPurpose (result : AgentTurnResult) (purpose : String) : List ProducedFile :=
  result.producedFiles.filter fun file => file.purpose = purpose

def filesNamed (result : AgentTurnResult) (path purpose : String) : List ProducedFile :=
  (filesWithPurpose result purpose).filter fun file => file.path = path

def draftTurn : WorkflowM AgentTurnResult := do
  let result ← runAgentTurn .honeydew .protocolDraft
  if filesWithPurpose result "protocol" = [] then
    event "agent.output_rejected" none
    let repaired ← runAgentTurn .honeydew .protocolDraft
    if repaired.requestedActions.isEmpty then pure repaired
    else .raise (Error.workflow "Honeydew protocol-file repair must request no actions")
  else
    pure result

def repairMissingFile (agent : AgentName) (kind : TurnKind)
    (path purpose refusal missing : String) : WorkflowM Unit := do
  if ← test (.workspaceFile path) then
    pure ()
  else
    event "agent.file_repair_requested" none
    let repaired ← runAgentTurn agent kind
    if (filesNamed repaired path purpose).length ≠ 1 ∨ !repaired.requestedActions.isEmpty then
      .raise (Error.workflow refusal)
    else if ← test (.workspaceFile path) then
      event "agent.file_repair_completed" none
    else
      .raise (Error.workflow missing)

/-- The contract proposal of a draft: its own, that of a legacy task, or that of one focused
repair. -/
def draftProposal (result : AgentTurnResult) : WorkflowM Payload := do
  match result.evaluationContractProposal with
  | some proposal => pure proposal
  | none =>
    match ← Proc.query Question.boundContractProposal with
    | .error exc => .raise exc
    | .ok (some proposal) =>
      event "contract.proposal_bound" none
      pure proposal
    | .ok none =>
      event "agent.output_rejected" none
      let repaired ← runAgentTurn .honeydew .protocolDraft
      match repaired.evaluationContractProposal, repaired.requestedActions with
      | some proposal, [] =>
        event "agent.output_repaired" none
        pure proposal
      | _, _ =>
        .raise (Error.workflow
          "Honeydew contract-proposal repair did not return the required bounded proposal")

def clampProposal (proposal : Payload) : WorkflowM Payload := do
  match ← Proc.query (Question.clampedProposal proposal) with
  | none => pure proposal
  | some clamped =>
    event "contract.proposal_resources_clamped" none
    pure clamped

def protocolUri (runId : String) : String := "artifact://" ++ runId ++ "/protocol/program.md"

def proposalUri (runId : String) : String :=
  "artifact://" ++ runId ++ "/shared-artifacts/evaluation-contract-proposal.json"

/-- Record the two artifacts of a draft and ask a human for approval. -/
def submitDraft (proposal : Payload) : Step := do
  let run ← getStore
  let (protocolDigest, proposalDigest) ← Proc.query (Question.draftDigests proposal)
  saveLocalArtifact ⟨.protocol, protocolUri run.runId, protocolDigest, none, none⟩
  event "artifact.recorded" none
  saveLocalArtifact
    ⟨.evaluationContractProposal, proposalUri run.runId, proposalDigest, none, some proposal⟩
  event "artifact.recorded" none
  let _ ← createHumanAction engine .approveProtocol
    "Human approval is required before implementation."
  transition .awaitingProtocolApproval
  finish

def draftProtocol : Step := do
  effect .resolveContract
  let result ← draftTurn
  match filesWithPurpose result "protocol" with
  | [file] =>
    repairMissingFile .honeydew .protocolDraft file.path "protocol"
      "Honeydew protocol repair must produce the declared file and no actions"
      "Honeydew did not create the protocol after one focused repair turn"
    effect .resolveContract
    let proposal ← clampProposal (← draftProposal result)
    effect (.copyAgentOutput file.path)
    effect .replaceRun
    submitDraft engine proposal
  | _ => .raise (Error.workflow "Honeydew must produce exactly one protocol file")

def resumeTerminalRetry : Step := do
  effect .verifyRetryCheckpoint
  let run ← getStore
  match ← Proc.query Question.boundContractProposal with
  | .ok (some proposal) =>
    let (protocolDigest, proposalDigest) ← Proc.query (Question.draftDigests proposal)
    saveLocalArtifact
      ⟨.evaluationContractProposal, proposalUri run.runId, proposalDigest, none, some proposal⟩
    saveLocalArtifact ⟨.protocol, protocolUri run.runId, protocolDigest, none, none⟩
    let s ← getStore
    match s.actionsOfType .approveProtocol with
    | [] =>
      let _ ← createHumanAction engine .approveProtocol
        "A terminal retry reuses a verified protocol but requires fresh human approval."
    | existing :: _ => repairActionProposedEvent existing
    transition .awaitingProtocolApproval
    finish
  | .ok none => .raise (Error.workflow "retry contract digest no longer matches")
  | .error exc => .raise exc

inductive SealOutcome where
  | conflict
  | candidate (c : Sealed)
  | redraft

/-- The block of `_beaker_draft_contract` that seals a candidate and checks it against the
proposal. -/
def sealCandidate (action : ActionRecord) : WorkflowM SealOutcome :=
  let attempt : WorkflowM SealOutcome := do
    match ← Proc.query (Question.sealCandidate action) with
    | .error exc => .raise exc
    | .ok (.ok candidate) => pure (.candidate candidate)
    | .ok (.error conflict) =>
      let _ ← updateAction action.actionId .rejected "orchestrator"
        ("Contract candidate rejected by resource-authority preflight: " ++ conflict)
      event "action.rejected" (some action.actionId)
      event "methodology.resource_authority_conflict" (some action.actionId)
      pauseRun
      pure .conflict
  attempt.tryCatch fun exc => do
    if exc.cls ∈ [ErrorClass.osError, .valueError, .workflowError] then
      let _ ← updateAction action.actionId .rejected "orchestrator"
        ("The orchestrator rejected the candidate during deterministic validation: " ++
          exc.message)
      event "contract.candidate_rejected" (some action.actionId)
      let s ← getStore
      let rejections := s.events.countP fun e => e.eventType = "contract.candidate_rejected"
      if engine.settings.maxContractRedrafts ≤ rejections then
        .raise (Error.workflow "contract candidate failed deterministic validation; giving up")
      else
        pure .redraft
    else
      .raise exc

def Sealed.artifact (candidate : Sealed) (action : ActionRecord) : LocalArtifact :=
  ⟨.evaluationContractCandidate, candidate.uri, candidate.digest, some action.actionId, none⟩

def recordCandidate (action : ActionRecord) (candidate : Sealed) : Step := do
  effect .copyContractCandidateForReview
  saveLocalArtifact (candidate.artifact action)
  event "contract.candidate_sealed" (some action.actionId)
  transition .honeydewReviewingContract
  goto (.honeydewReviewContract action)

def draftCandidate : Step := do
  effect .allocateVersion
  let result ← runAgentTurn .beaker .contractCandidate
  let actions ← recordRequestedActions engine .beaker result
  let candidates := actions.filter fun action =>
    action.type = .proposeEvaluationContract ∧ action.approvalStatus = .pending
  match candidates with
  | [action] =>
    effect .validateCandidateRequest
    match ← sealCandidate engine action with
    | .conflict => finish
    | .redraft => goto .beakerDraftContract
    | .candidate candidate => recordCandidate action candidate
  | _ =>
    event "contract.candidate_rejected" none
    goto .beakerDraftContract

/-- `_beaker_draft_contract`: bind an installed contract that implements the proposal, or draft a
candidate. -/
def beakerDraftContract : Step := do
  let s ← getStore
  if s.artifactsOfType .evaluationContractProposal = [] then
    .raise (Error.workflow "run has no evaluation contract proposal")
  else if ← test .installedForProposal then
    effect .bindContract
    if ← test .contractBindingCompatible then
      event "contract.bound_existing" none
      transition .beakerPlanning
      goto .beakerPlan
    else
      effect .restoreBinding
      draftCandidate engine
  else
    draftCandidate engine

def honeydewReviewContract (action : ActionRecord) : Step := do
  let result ← runAgentTurn .honeydew .methodologyReview
  if result.done then
    let _ ← markActionHoneydewApproved action.actionId
    event "contract.candidate_reviewed" (some action.actionId)
    transition .awaitingContractPromotion
    event "action.human_approval_requested" (some action.actionId)
    finish
  else
    let _ ← updateAction action.actionId .rejected "honeydew" result.summary
    event "action.rejected" (some action.actionId)
    transition .beakerDraftingContract
    goto .beakerDraftContract

def failClosed (eventType : String) : Step := do
  event eventType none
  failRun
  finish

def promoteContractCandidate (action : ActionRecord) : Step := do
  let s ← getStore
  let candidates := (s.artifactsOfType .evaluationContractCandidate).filter fun artifact =>
    artifact.actionId = some action.actionId
  match candidates with
  | [artifact] =>
    effect .validateDescriptor
    match ← Proc.query (Question.installedCandidate artifact) with
    | .error exc => .raise exc
    | .ok (some false) => failClosed "contract.version_conflict"
    | .ok (some true) =>
      if ← test .resourceAuthorityConflict then
        failClosed "methodology.resource_authority_conflict"
      else
        note .promoteCandidate action
        effect .bindContract
        event "contract.bound_installed" none
        if ← test .contractBindingCompatible then
          transitionFor (some action.actionId) .beakerPlanning
          goto .beakerPlan
        else
          failClosed "methodology.resource_authority_conflict"
    | .ok none =>
      if ← test .resourceAuthorityConflict then
        failClosed "methodology.resource_authority_conflict"
      else
        note .promoteCandidate action
        effect .promoteCandidate
        effect .replaceRun
        effect .resolvePromotedContract
        event "contract.promoted" (some action.actionId)
        if ← test .contractBindingCompatible then
          transitionFor (some action.actionId) .beakerPlanning
          goto .beakerPlan
        else
          .raise (Error.workflow "promoted contract remains incompatible with the protocol")
  | _ => .raise (Error.workflow "approved contract action has no unique sealed candidate")

/-! ### Implementation and review -/

def beakerPlan : Step := do
  let result ← runAgentTurn .beaker .implementationPlan
  if (filesNamed result "implementation-plan.md" "implementation").length ≠ 1 ∨
      !result.requestedActions.isEmpty then
    .raise (Error.workflow "Beaker planning must produce implementation-plan.md and no actions")
  else
    repairMissingFile .beaker .implementationPlan "implementation-plan.md" "implementation"
      "Beaker plan repair must produce implementation-plan.md and no actions"
      "Beaker did not create implementation-plan.md after one focused repair turn"
    event "agent.plan_created" none
    transition .beakerImplementing
    goto .beakerImplement

def requestMethodologyRevision : Step := do
  let run ←
    replaceRun fun s => { s with methodologyRevisionCount := s.methodologyRevisionCount + 1 }
  if run.runState ≠ .beakerRevising then
    transition .beakerRevising
  event "methodology.revision_requested" none
  if engine.settings.maximumMethodologyRevisions < run.methodologyRevisionCount + 1 then
    event "methodology.human_resolution_requested" none
    pauseRun
    finish
  else
    goto .beakerRevise

def isPendingMatrix (action : ActionRecord) : Bool :=
  action.type = .submitExperimentMatrix ∧ action.approvalStatus = .pending

def advanceAfterMatrixProposal (actions : List ActionRecord) : Step :=
  if actions.any isPendingMatrix then do
    transition .honeydewReviewing
    goto .honeydewReview
  else
    requestMethodologyRevision engine

def beakerImplement : Step := do
  if ← test (.workspaceFile "implementation-plan.md") then
    effect .resolveContract
    let result ← runAgentTurn .beaker .implementationProposal
    let actions ← recordRequestedActions engine .beaker result
    advanceAfterMatrixProposal engine actions
  else
    transition .beakerPlanning
    goto .beakerPlan

def beakerFinalize : Step := do
  if ← test .importedTaskImplementation then
    let result ← runAgentTurn .beaker .implementationProposal
    let actions ← recordRequestedActions engine .beaker result
    advanceAfterMatrixProposal engine actions
  else
    transition .beakerImplementing
    goto .beakerImplement

def rejectMatrix (action : ActionRecord) (reason : String) : WorkflowM Unit := do
  let _ ← updateAction action.actionId .rejected "orchestrator" reason
  event "action.rejected" (some action.actionId)

def reviewMatrix (action : ActionRecord) : Step := do
  effect .reviewSnapshot
  event "agent.review_snapshot_created" (some action.actionId)
  let result ← runAgentTurn .honeydew .methodologyReview
  if result.done then
    let _ ← markActionHoneydewApproved action.actionId
    event "action.approved" (some action.actionId)
    transition .awaitingExecutionApproval
    event "action.human_approval_requested" (some action.actionId)
    finish
  else
    let _ ← updateAction action.actionId .rejected "honeydew" result.summary
    event "action.rejected" (some action.actionId)
    effect .preflightError
    requestMethodologyRevision engine

def honeydewReview : Step := do
  let s ← getStore
  match (s.actionsWithStatus .submitExperimentMatrix .pending).getLast? with
  | none => .raise (Error.workflow "run has no pending experiment matrix")
  | some action =>
    match ← Proc.query (Question.preflight action) with
    | .error exc => .raise exc
    | .ok .passed => reviewMatrix engine action
    | .ok (.nonRetryable errors) =>
      rejectMatrix action ("Deterministic matrix preflight failed: " ++ errors)
      event "methodology.resource_authority_conflict" (some action.actionId)
      pauseRun
      finish
    | .ok (.failed errors repeated) =>
      rejectMatrix action ("Deterministic matrix preflight failed: " ++ errors)
      if repeated then
        event "methodology.non_convergence_detected" (some action.actionId)
        pauseRun
        finish
      else
        requestMethodologyRevision engine

def beakerRevise : Step := do
  effect .repairBaseConfig
  let result ← runAgentTurn .beaker .revision
  let actions ← recordRequestedActions engine .beaker result
  advanceAfterMatrixProposal engine actions

def createJobs (action : ActionRecord) : List String → WorkflowM Unit
  | [] => pure ()
  | key :: rest => do
    let s ← Proc.access fun s =>
      if s.jobs.lookup key = none then { s with jobs := s.jobs ++ [(key, action.actionId)] } else s
    if s.jobs.lookup key = none then event "job.queued" none
    createJobs action rest

def submitRefusal (state : RunState) : Error :=
  Error.workflow ("cannot submit matrix while run is " ++ state.value)

def submitMatrix (action : ActionRecord) : Step := do
  let run ← getStore
  if run.runState ≠ .awaitingExecutionApproval then
    .raise (submitRefusal run.runState)
  else
    match ← Proc.query (Question.expandMatrix action) with
    | .error exc => .raise exc
    | .ok keys =>
      note .submitMatrix action
      createJobs action keys
      let current ← getStore
      if current.runState ≠ .awaitingExecutionApproval then
        .raise (submitRefusal current.runState)
      else
        transitionFor (some action.actionId) .jobQueued
        goto .fillJobCapacity

def fillJobCapacity : Step := do
  effect .submitQueuedJobs
  let run ← getStore
  let active ← test .jobsUnfinished
  if active ∧ run.runState = .jobQueued then
    transition .jobRunning
    finish
  else if !active ∧ run.runState ∈ [RunState.jobQueued, .jobRunning] then
    if ← test .waveDeferred then
      finish
    else
      transition .beakerAnalyzing
      goto .analyzeResults
  else
    finish

def reconcileRun : Step := do
  let run ← getStore
  if run.runState ∈ [RunState.jobQueued, .jobRunning] then
    effect .reconcileJobs
    goto .fillJobCapacity
  else
    finish

def analyzeResults : Step := do
  effect .evidenceSnapshot
  let result ← runAgentTurn .beaker .experimentAnalysis
  let _ ← recordRequestedActions engine .beaker result
  transition .honeydewVerifying
  goto .verifyResults

/-- The evidence does not support a report: revise, with a new budget of revisions. -/
def repairCycle : Step := do
  let _ ← Proc.access fun s =>
    { s with
      methodologyRevisionCount := 0,
      events := s.events ++ [⟨"methodology.revision_budget_reset", none⟩] }
  transition .beakerRevising
  goto .beakerRevise

def verifyResults : Step := do
  effect .evidenceSnapshot
  let result ← runAgentTurn .honeydew .verification
  let resolved ← if result.claims.isEmpty then pure true else test .claimsResolved
  if resolved ∧ result.done then
    transition .honeydewWritingReport
    goto (.writeReport 0)
  else
    repairCycle

def reportUri (runId : String) : String := "artifact://" ++ runId ++ "/reports/report.md"

/-- Take over the report file of a turn, or ask for it once more. -/
def handOverReport (attempt : Nat) (result : AgentTurnResult) : Step :=
  match filesWithPurpose result "report" with
  | [file] => do
    match ← Proc.query (Question.effect (.copyAgentOutput file.path)) with
    | .ok _ =>
      let run ← getStore
      let digest ← Proc.query Question.reportDigest
      saveLocalArtifact ⟨.report, reportUri run.runId, digest, none, none⟩
      event "report.created" none
      let _ ← createHumanAction engine .acceptFinalReport
        "Human acceptance is required to complete the research run."
      transition .awaitingFinalAcceptance
      finish
    | .error exc =>
      if exc.cls ≠ .workspaceError then
        .raise exc
      else if engine.settings.reportMaterialisationRepairAttempts ≤ attempt then
        event "report.materialisation_failed" none
        pauseRun
        finish
      else
        event "report.materialisation_repair_requested" none
        goto (.writeReport (attempt + 1))
  | _ => .raise (Error.workflow "Honeydew must produce exactly one report file")

/-- `_write_report`, from the attempt of that number on. -/
def writeReport (attempt : Nat) : Step := do
  if attempt = 0 then effect .evidenceSnapshot
  let result ← runAgentTurn .honeydew .finalReport
  handOverReport engine attempt result

end Phases

end Glasslab.Engine.Workflow
