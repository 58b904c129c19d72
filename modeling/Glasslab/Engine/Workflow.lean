import Glasslab.Engine.Phases

/-!
# Calls of the workflow

What moves a run: `approve_action` and `reject_action`, `resume_run`, `recover` and
`reconcile_run` under the run lock, and `pause_run` without it. The service is the machine that
follows from them.
-/

namespace Glasslab.Engine.Workflow

open Foundation

section Calls

variable (engine : Orchestrator)

/-! ## Decisions on actions -/

def resumeApprovedAction (action : ActionRecord) : Step := do
  let run ← getStore
  match action.type with
  | .approveProtocol =>
    if run.runState ≠ .awaitingProtocolApproval then
      finish
    else
      effect .freezeProtocol
      if ← test .contractBindingCompatible then
        transitionFor (some action.actionId) .beakerPlanning
        goto .beakerPlan
      else
        transitionFor (some action.actionId) .beakerDraftingContract
        goto .beakerDraftContract
  | .proposeEvaluationContract =>
    if run.runState ≠ .awaitingContractPromotion then finish
    else goto (.promoteContractCandidate action)
  | .submitExperimentMatrix =>
    if run.runState ≠ .awaitingExecutionApproval then finish
    else goto (.submitMatrix action)
  | .acceptFinalReport =>
    if run.runState ≠ .awaitingFinalAcceptance then
      finish
    else
      transitionFor (some action.actionId) .complete
      effect .registerReportBundle
      event "run.completed" none
      finish
  | .other _ => finish

/-- One branch of `_resume_rejected_action`. -/
def backTo (gate target : RunState) (phase : Phase) : Step := do
  let run ← getStore
  if run.runState ≠ gate then
    finish
  else
    transition target
    goto phase

def resumeRejectedAction (action : ActionRecord) : Step :=
  match action.type with
  | .approveProtocol => backTo .awaitingProtocolApproval .honeydewDraftingProtocol .draftProtocol
  | .submitExperimentMatrix => backTo .awaitingExecutionApproval .beakerRevising .beakerRevise
  | .acceptFinalReport =>
    backTo .awaitingFinalAcceptance .honeydewWritingReport (.writeReport 0)
  | .proposeEvaluationContract =>
    backTo .awaitingContractPromotion .beakerDraftingContract .beakerDraftContract
  | .other _ => do
    let run ← getStore
    if run.runState ∈ terminalStates then
      finish
    else
      failRun
      finish

def approveAction (actionId reviewer reason : String) : Step := do
  let action ← getAction actionId
  if action.approvalStatus = .approved then
    goto (.resumeApprovedAction action)
  else if action.approvalStatus ≠ .pending then
    .raise (Error.workflow "action is not pending")
  else if action.policyClassification = .honeydewAndHumanApproval ∧ !action.honeydewApproved then
    .raise (Error.workflow "Honeydew has not approved this action")
  else
    let _ ← Proc.access fun s => { s with approvals := actionId :: s.approvals }
    let approved ← updateAction actionId .approved reviewer reason
    event "action.approved" (some actionId)
    pure (.guarded (.approvedActionFailure approved) (.resumeApprovedAction approved))

def isLatestActionOfType (s : WorkflowStore) (action : ActionRecord) : Bool :=
  (s.actionsOfType action.type).getLast?.map ActionRecord.actionId = some action.actionId

def rejectAction (actionId reviewer reason : String) : Step := do
  let existing ← getAction actionId
  if existing.approvalStatus = .rejected then
    let s ← getStore
    if isLatestActionOfType s existing then
      event "action.rejection_resumed" (some actionId)
      goto (.resumeRejectedAction existing)
    else
      finish
  else if existing.approvalStatus ≠ .pending then
    .raise (Error.workflow "action is not pending")
  else
    let action ← updateAction actionId .rejected reviewer reason
    event "action.rejected" (some actionId)
    goto (.resumeRejectedAction action)

/-- A matrix whose expansion raised before any job was created: Beaker revises it. -/
def deterministicMatrixFailure (s : WorkflowStore) (action : ActionRecord) (exc : Error) : Bool :=
  action.type = .submitExperimentMatrix ∧ exc.cls = .valueError ∧
    s.jobs.filter (fun job => job.2 = action.actionId) = []

/-- Where `_handle_approved_action_failure` takes the run. -/
def afterFailure (action : ActionRecord) (exc : Error) (deterministic : Bool) : Step := do
  let current ← getStore
  event "action.execution_failed" (some action.actionId)
  if current.runState ∈ terminalStates ∨ current.runState = .paused then
    .raise exc
  else if deterministic then
    let s ← getStore
    if engine.settings.maximumMatrixRevisions ≤
        (s.actionsWithStatus .submitExperimentMatrix .rejected).length +
          (s.actionsWithStatus .submitExperimentMatrix .executionFailed).length then
      failRun
      .raise exc
    else
      transition .beakerRevising
      goto .beakerRevise
  else
    pauseRun
    .raise exc

def handleApprovedActionFailure (action : ActionRecord) (exc : Error) : Step := do
  let s ← getStore
  if deterministicMatrixFailure s action exc then
    let _ ← markActionExecutionFailed action.actionId
      ("Approved action could not execute: " ++ exc.message)
    afterFailure engine action exc true
  else
    afterFailure engine action exc false

/-- The phases that `recover` leaves to a resume when they fail. -/
def resumableAgentStates : List RunState :=
  [.honeydewDraftingProtocol, .beakerDraftingContract, .honeydewReviewingContract,
    .beakerPlanning, .beakerImplementing, .beakerFinalizing, .honeydewReviewing, .beakerRevising,
    .beakerAnalyzing, .honeydewVerifying, .honeydewWritingReport]

def handle : Handler → Error → Step
  | .approvedActionFailure action, exc => handleApprovedActionFailure engine action exc
  | .resumedWorkflowFailure, exc => do
    pauseRun
    .raise exc
  | .recoveryFailure, _ => do
    let current ← getStore
    if current.runState ∈ resumableAgentStates then
      event "run.recovery_failed" none
      pauseRun
      finish
    else
      failRun
      finish

/-! ## Recovery -/

def contractSensitiveStates : List RunState :=
  [.beakerPlanning, .beakerImplementing, .beakerFinalizing, .honeydewReviewing, .beakerRevising,
    .awaitingExecutionApproval]

/-- Whether the run is in a phase whose contract no longer fits. -/
def contractOutdated (state : RunState) : WorkflowM Bool :=
  if state ∈ contractSensitiveStates then do
    let compatible ← test .contractBindingCompatible
    pure !compatible
  else
    pure false

def rejectAll : List ActionRecord → WorkflowM Unit
  | [] => pure ()
  | action :: rest => do
    let _ ← updateAction action.actionId .rejected "orchestrator"
      "The approved protocol requires a different evaluation contract."
    rejectAll rest

/-- The state of `_recover_run`'s dispatch where the review left off. -/
def recoverReview (s : WorkflowStore) : Step :=
  if s.actionsWithStatus .submitExperimentMatrix .pending = [] then do
    transition .beakerRevising
    goto .beakerRevise
  else
    goto .honeydewReview

def lastApproved (s : WorkflowStore) (type : ActionType) : Option ActionRecord :=
  (s.actionsWithStatus type .approved).getLast?

/-- `_recover_run`, once the contract fits. -/
def dispatch (run : WorkflowStore) : Step :=
  match run.runState with
  | .preparing =>
    if run.terminalRetry then
      resumeTerminalRetry engine
    else do
      transition .honeydewDraftingProtocol
      goto .draftProtocol
  | .honeydewDraftingProtocol => goto .draftProtocol
  | .beakerDraftingContract => goto .beakerDraftContract
  | .honeydewReviewingContract => do
    let s ← getStore
    match (s.artifactsOfType .evaluationContractCandidate).getLast? with
    | none =>
      transition .beakerDraftingContract
      goto .beakerDraftContract
    | some artifact =>
      let action ← getAction (artifact.actionId.getD "")
      goto (.honeydewReviewContract action)
  | .awaitingContractPromotion => do
    let s ← getStore
    match lastApproved s .proposeEvaluationContract with
    | none => finish
    | some action => goto (.promoteContractCandidate action)
  | .beakerPlanning => goto .beakerPlan
  | .beakerImplementing => do
    let s ← getStore
    if s.actionsWithStatus .submitExperimentMatrix .pending ≠ [] then
      transition .honeydewReviewing
      goto .honeydewReview
    else if ← test .importedTaskImplementation then
      transition .beakerFinalizing
      goto .beakerFinalize
    else
      goto .beakerImplement
  | .beakerFinalizing => goto .beakerFinalize
  | .honeydewReviewing => do recoverReview (← getStore)
  | .beakerRevising => goto .beakerRevise
  | .awaitingExecutionApproval => do
    let s ← getStore
    match (s.actionsOfType .submitExperimentMatrix).getLast? with
    | none => finish
    | some action =>
      if action.approvalStatus = .approved then goto (.submitMatrix action) else finish
  | .jobQueued | .jobRunning => goto .reconcileRun
  | .beakerAnalyzing => goto .analyzeResults
  | .honeydewVerifying => goto .verifyResults
  | .honeydewWritingReport => goto (.writeReport 0)
  | .awaitingFinalAcceptance => do
    let s ← getStore
    match lastApproved s .acceptFinalReport with
    | none => finish
    | some action => goto (.resumeApprovedAction action)
  | _ => finish

def recoverRun : Step := do
  let run ← getStore
  if ← contractOutdated run.runState then
    let s ← getStore
    rejectAll (s.actionsWithStatus .submitExperimentMatrix .pending)
    transition .beakerDraftingContract
    goto .beakerDraftContract
  else
    dispatch engine run

def resumeRun : Step := do
  let run ← getStore
  if run.runState ≠ .paused ∨ run.resumeState = none then
    .raise (Error.workflow "run is not resumable")
  else
    effect .rotateFailedSession
    let run ← getStore
    match run.resumeState with
    | none => .raise ⟨.other, "run has no state to resume"⟩
    | some target =>
      let s ← Proc.access fun s =>
        if validTransition s.runState target then { s.moved none target with resumeState := none }
        else s
      if validTransition s.runState target then
        effect .seedAgentContext
        effect .materializeDatasets
        event "run.resumed" none
        pure (.guarded .resumedWorkflowFailure .recoverRun)
      else
        .raise (invalidTransition s.runState target)

def recover : Step := do
  let run ← getStore
  if run.runState ∈ terminalStates then
    finish
  else
    effect .interruptRunningTurns
    pure (.guarded .recoveryFailure .recover)

def Phase.body : Phase → Step
  | resumeApprovedAction action => Workflow.resumeApprovedAction action
  | resumeRejectedAction action => Workflow.resumeRejectedAction action
  | recover => do
    effect .seedAgentContext
    goto .recoverRun
  | recoverRun => Workflow.recoverRun engine
  | draftProtocol => Workflow.draftProtocol engine
  | beakerDraftContract => Workflow.beakerDraftContract engine
  | honeydewReviewContract action => Workflow.honeydewReviewContract action
  | promoteContractCandidate action => Workflow.promoteContractCandidate action
  | beakerPlan => Workflow.beakerPlan
  | beakerImplement => Workflow.beakerImplement engine
  | beakerFinalize => Workflow.beakerFinalize engine
  | honeydewReview => Workflow.honeydewReview engine
  | beakerRevise => Workflow.beakerRevise engine
  | submitMatrix action => Workflow.submitMatrix action
  | fillJobCapacity => Workflow.fillJobCapacity
  | reconcileRun => Workflow.reconcileRun
  | analyzeResults => Workflow.analyzeResults engine
  | verifyResults => Workflow.verifyResults
  | writeReport attempt => Workflow.writeReport engine attempt

/-- The calls that take the run lock. -/
inductive Entry where
  | approveAction (actionId reviewer reason : String)
  | rejectAction (actionId reviewer reason : String)
  | resumeRun
  | recover
  | reconcileRun

def Entry.program : Entry → Step
  | approveAction actionId reviewer reason => Workflow.approveAction actionId reviewer reason
  | rejectAction actionId reviewer reason => Workflow.rejectAction actionId reviewer reason
  | resumeRun => Workflow.resumeRun
  | recover => Workflow.recover
  | reconcileRun => Workflow.reconcileRun

/-- `pause_run` does not take the run lock. -/
def WorkflowStore.pause (s : WorkflowStore) : WorkflowStore :=
  if validTransition s.runState .paused then s.paused else s

def service : Service WorkflowStore Question Question.Answer Error Phase Handler where
  Entry := Entry
  entry := Entry.program
  body := Phase.body engine
  handle := handle engine
  Interference := Unit
  interfere _ := WorkflowStore.pause

end Calls

/-- A state of the machine that runs the workflow of one run. -/
abbrev WorkflowConfig := Activity WorkflowStore Question Question.Answer Error Phase Handler

def run (engine : Orchestrator) (x : WorkflowConfig) (inputs : List (Stimulus (service engine))) :
    WorkflowConfig :=
  Machine.exec (service engine).step x inputs

end Glasslab.Engine.Workflow
