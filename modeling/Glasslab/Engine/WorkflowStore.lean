import Glasslab.Foundation.Routine
import Glasslab.StateMachine

/-!
# The workflow of a run

The phases of `app/engine.py` that carry one run from its first protocol to its accepted
report, and the calls that move it: `approve_action`, `reject_action`, `pause_run`, `resume_run`,
`recover` and `reconcile_run`.

Every store call is one atomic access. What is decided outside the store of the run (a turn of an
agent, the contract catalog, the workspaces, the cluster) is a question, and its answer is
arbitrary. The phases call each other in tail position, so each of them is a routine that names
its successor; the `try` blocks of the calls are the handlers around them. The jobs of the
run are the subject of `Engine.Jobs`: here a pass over them is one question.

Three fields of the store are no fields of the source. `deeds` lists what was done to the run
and in the name of which action, with the actions as they were; `approvals` lists the actions that
passed the checks of `approve_action`; `initialState` is where the list of deeds starts.
-/

namespace Glasslab.Engine.Workflow

open Foundation

structure RequestedAction where
  type : ActionType
  arguments : Payload := []
  reason : String := ""

structure ProducedFile where
  path : String
  purpose : String

structure Claim where
  text : String
  evidence : List String

/-- The fields of `AgentTurnResult` that the workflow acts on. -/
structure AgentTurnResult where
  summary : String := ""
  evaluationContractProposal : Option Payload := none
  claims : List Claim := []
  requestedActions : List RequestedAction := []
  producedFiles : List ProducedFile := []
  done : Bool := false

/-- The exception classes that a handler tells apart. -/
inductive ErrorClass where
  | valueError
  | workflowError
  | osError
  | workspaceError
  | concurrencyConflict
  | other
  deriving DecidableEq, Repr

structure Error where
  cls : ErrorClass
  message : String

def Error.workflow (message : String) : Error := ⟨.workflowError, message⟩

inductive ArtifactType where
  | protocol
  | evaluationContractProposal
  | evaluationContractCandidate
  | report
  deriving DecidableEq, Repr

/-- An artifact the orchestrator wrote itself. Its id is a hash of the run, the uri and the
digest, so two artifacts of a run have one id when these agree. -/
structure LocalArtifact where
  type : ArtifactType
  uri : String
  sha256 : String
  actionId : Option String := none
  proposal : Option Payload := none

def LocalArtifact.sameId (a b : LocalArtifact) : Bool := a.uri = b.uri ∧ a.sha256 = b.sha256

inductive DeedKind where
  | move (source target : RunState)
  | submitMatrix
  | promoteCandidate
  deriving DecidableEq

structure Deed where
  kind : DeedKind
  /-- The action in whose name it was done. -/
  driver : Option String
  /-- The actions of the run at that moment. -/
  actions : List ActionRecord
  deriving DecidableEq

structure WorkflowEvent where
  eventType : String
  actionId : Option String := none
  deriving DecidableEq

structure WorkflowStore where
  runId : String
  runState : RunState
  resumeState : Option RunState := none
  turnNumber : Nat := 0
  methodologyRevisionCount : Nat := 0
  /-- The run has a parent and a retry checkpoint. -/
  terminalRetry : Bool := false
  /-- Oldest first. -/
  actions : List ActionRecord := []
  artifacts : List LocalArtifact := []
  /-- The idempotency keys of the job rows, with the action of each. -/
  jobs : List (String × String) := []
  events : List WorkflowEvent := []
  initialState : RunState
  deeds : List Deed := []
  approvals : List String := []

namespace WorkflowStore

variable (s : WorkflowStore)

def action? (actionId : String) : Option ActionRecord :=
  s.actions.find? fun action => action.actionId = actionId

def actionWithKey (idempotencyKey : String) : Option ActionRecord :=
  s.actions.find? fun action => action.idempotencyKey = idempotencyKey

def actionsOfType (type : ActionType) : List ActionRecord :=
  s.actions.filter fun action => action.type = type

def actionsWithStatus (type : ActionType) (status : ApprovalStatus) : List ActionRecord :=
  (s.actionsOfType type).filter fun action => action.approvalStatus = status

def rewriteAction (actionId : String) (f : ActionRecord → ActionRecord) : WorkflowStore :=
  { s with
    actions := s.actions.map fun action => if action.actionId = actionId then f action else action }

/-- The transition of the run to a state, in the name of an action or of none. -/
def moved (driver : Option String) (target : RunState) : WorkflowStore :=
  { s with
    runState := target, deeds := ⟨.move s.runState target, driver, s.actions⟩ :: s.deeds }

/-- `pause_run`, where it finds a run that can be paused. -/
def paused : WorkflowStore :=
  { s.moved none .paused with resumeState := some s.runState }

def artifactsOfType (type : ArtifactType) : List LocalArtifact :=
  s.artifacts.filter fun artifact => artifact.type = type

/-- `save_artifact`: an id that is taken keeps its row. -/
def saveArtifact (artifact : LocalArtifact) : WorkflowStore :=
  if s.artifacts.any artifact.sameId then s
  else { s with artifacts := s.artifacts ++ [artifact] }

end WorkflowStore

/-! ## Questions -/

/-- A step outside the store that goes through or raises. -/
inductive Effect where
  | freezeProtocol
  | resolveContract
  | bindContract
  | restoreBinding
  | allocateVersion
  | validateCandidateRequest
  | copyContractCandidateForReview
  | validateDescriptor
  | promoteCandidate
  | resolvePromotedContract
  | copyAgentOutput (path : String)
  | reviewSnapshot
  | repairBaseConfig
  | preflightError
  | replaceRun
  | submitQueuedJobs
  | reconcileJobs
  | evidenceSnapshot
  | registerReportBundle
  | verifyRetryCheckpoint
  | rotateFailedSession
  | seedAgentContext
  | materializeDatasets
  | interruptRunningTurns

/-- A question about the world outside the store. -/
inductive Test where
  | contractBindingCompatible
  | installedForProposal
  | resourceAuthorityConflict
  | workspaceFile (path : String)
  | importedTaskImplementation
  | claimsResolved
  | jobsUnfinished
  | waveDeferred

/-- `_matrix_preflight_report`, and whether the last rejection had the same signature. -/
inductive Preflight where
  | passed
  | nonRetryable (errors : String)
  | failed (errors : String) (repeated : Bool)

structure Sealed where
  uri : String
  digest : String

/-- What an agent turn does to the run before it fails: a budget is spent, or the sessions of the
agent are rotated without progress. -/
inductive TurnStop where
  | timedOut
  | paused

/-- How `_run_agent_turn` fails. -/
structure TurnFailure where
  error : Error
  stop : Option TurnStop := none

inductive Question where
  | agentTurn (agent : AgentName) (kind : TurnKind)
  | effect (e : Effect)
  | test (t : Test)
  | uuid4 (idempotencyKey : String)
  /-- The proposal that the bound contract of a legacy task or of a retry amounts to. -/
  | boundContractProposal
  /-- The proposal within the resource ceilings, when it exceeds them. -/
  | clampedProposal (proposal : Payload)
  /-- The digests of a drafted protocol and of its contract proposal. -/
  | draftDigests (proposal : Payload)
  | sealCandidate (action : ActionRecord)
  /-- The contract installed under the candidate's id and version: none, the candidate itself,
  or another one. -/
  | installedCandidate (artifact : LocalArtifact)
  | preflight (action : ActionRecord)
  | expandMatrix (action : ActionRecord)
  | reportDigest

def Question.Answer : Question → Type
  | agentTurn _ _ => Except TurnFailure AgentTurnResult
  | effect _ => Except Error Unit
  | test _ => Except Error Bool
  | uuid4 _ => String
  | boundContractProposal => Except Error (Option Payload)
  | clampedProposal _ => Option Payload
  | draftDigests _ => String × String
  | sealCandidate _ => Except Error (Except String Sealed)
  | installedCandidate _ => Except Error (Option Bool)
  | preflight _ => Except Error Preflight
  | expandMatrix _ => Except Error (List String)
  | reportDigest => String

abbrev WorkflowM := Proc WorkflowStore Question Question.Answer Error

def getStore : WorkflowM WorkflowStore := Proc.access id

def effect (e : Effect) : WorkflowM Unit := do
  Proc.ofExcept (← Proc.query (Question.effect e))

def test (t : Test) : WorkflowM Bool := do
  Proc.ofExcept (← Proc.query (Question.test t))

def event (eventType : String) (actionId : Option String) : WorkflowM Unit := do
  let _ ← Proc.access fun s => { s with events := s.events ++ [⟨eventType, actionId⟩] }

def invalidTransition (current target : RunState) : Error :=
  ⟨.valueError, "invalid run transition: " ++ current.value ++ " -> " ++ target.value⟩

/-- `_transition`, in the name of an action. -/
def transitionFor (driver : Option String) (target : RunState) : WorkflowM Unit := do
  let s ← Proc.access fun s =>
    if validTransition s.runState target then s.moved driver target else s
  if validTransition s.runState target then pure ()
  else .raise (invalidTransition s.runState target)

def transition (target : RunState) : WorkflowM Unit := transitionFor none target

/-- `pause_run`, called by the workflow itself. -/
def pauseRun : WorkflowM Unit := do
  let run ← getStore
  if run.runState ∈ terminalStates ∨ run.runState = .paused then
    pure ()
  else
    let s ← Proc.access fun s => if validTransition s.runState .paused then s.paused else s
    if validTransition s.runState .paused then event "run.paused" none
    else .raise (invalidTransition s.runState .paused)

def failRun : WorkflowM Unit := do
  let run ← getStore
  if run.runState ∈ terminalStates ∨ run.runState = .paused then
    pure ()
  else
    let attempt : WorkflowM Bool := do
      transition .failed
      pure true
    let failed ← attempt.tryCatch fun exc =>
      if exc.cls ∈ [ErrorClass.concurrencyConflict, .valueError] then pure false else .raise exc
    if failed then event "run.failed" none else pure ()

/-- `_run_agent_turn`, whose attempts are the subject of `Engine.AgentTurn`. A run that was paused
or ended in the meantime does not go on. -/
def runAgentTurn (agent : AgentName) (kind : TurnKind) : WorkflowM AgentTurnResult := do
  match ← Proc.query (Question.agentTurn agent kind) with
  | .error failure =>
    match failure.stop with
    | none => .raise failure.error
    | some .timedOut =>
      transition .timedOut
      .raise failure.error
    | some .paused =>
      pauseRun
      .raise failure.error
  | .ok result =>
    let _ ← Proc.access fun s => { s with turnNumber := s.turnNumber + 1 }
    let current ← getStore
    if current.runState = .paused ∨ current.runState ∈ terminalStates then
      .raise (Error.workflow
        ("workflow advancement stopped after agent turn because run is " ++
          current.runState.value))
    else
      pure result

/-- The checks of `ActionPolicy` on the arguments of an action. -/
structure Policy where
  /-- The arguments are a `ContractCandidateRequest`. -/
  candidateValid : Payload → Bool
  /-- `reject_contract_overrides` raises. -/
  overridesContract : Payload → Bool
  /-- The arguments are an `ExperimentMatrix` with a permitted image within the ceilings. -/
  matrixAdmissible : Payload → Bool

def automaticActions : List String :=
  ["read_workspace", "edit_workspace", "run_local_tests", "commit_experiment_branch"]

def humanActions : List String :=
  ["push_git_branch", "open_pull_request", "publish_report", "publish_external_artifact"]

def deniedActions : List String :=
  ["modify_evaluation_contract", "read_secrets", "delete_namespace", "delete_shared_resources",
    "raw_kubectl", "unrestricted_ssh", "registry_publish"]

/-- `ActionPolicy.classify`. -/
def Policy.classify (policy : Policy) (proposedBy : AgentName) (action : RequestedAction) :
    PolicyClassification :=
  match action.type with
  | .proposeEvaluationContract =>
    if proposedBy = .beaker ∧ policy.candidateValid action.arguments then
      .honeydewAndHumanApproval
    else .deny
  | .submitExperimentMatrix =>
    if policy.overridesContract action.arguments then .deny
    else if policy.matrixAdmissible action.arguments then .honeydewAndHumanApproval
    else .deny
  | .approveProtocol | .acceptFinalReport =>
    if policy.overridesContract action.arguments then .deny else .humanApproval
  | .other name =>
    if name ∈ deniedActions ∨ policy.overridesContract action.arguments then .deny
    else if name ∈ automaticActions then .automatic
    else if name = "draft_protocol" then
      if proposedBy = .honeydew then .automatic else .deny
    else if name = "submit_validation_job" then .deny
    else if name ∈ humanActions then .humanApproval
    else .deny

def initialStatus : PolicyClassification → ApprovalStatus
  | .automatic => .automaticallyApproved
  | .deny => .denied
  | .honeydewApproval | .humanApproval | .honeydewAndHumanApproval => .pending

/-- What the idempotency key of an action is the hash of, for one run. -/
structure ActionIdentity where
  proposedBy : AgentName
  type : ActionType
  arguments : Payload
  ordinal : Nat

structure Settings where
  maximumMethodologyRevisions : Nat := 2
  maximumMatrixRevisions : Nat := 3
  maxContractRedrafts : Nat := 3
  reportMaterialisationRepairAttempts : Nat := 1

/-- What the engine is configured with: the limits, the policy and the hash of an identity. -/
structure Orchestrator where
  settings : Settings := {}
  policy : Policy
  sha256 : ActionIdentity → String

/-- `ActionPolicy.build_record`. -/
def Orchestrator.buildRecord (engine : Orchestrator) (runId actionId : String)
    (proposedBy : AgentName)
    (action : RequestedAction) (ordinal : Nat) : ActionRecord :=
  { actionId := actionId
    runId := runId
    proposedBy := proposedBy
    type := action.type
    policyClassification := engine.policy.classify proposedBy action
    approvalStatus := initialStatus (engine.policy.classify proposedBy action)
    reason := action.reason
    idempotencyKey := engine.sha256 ⟨proposedBy, action.type, action.arguments, ordinal⟩ }

def getAction (actionId : String) : WorkflowM ActionRecord := do
  let s ← getStore
  match s.action? actionId with
  | none => .raise ⟨.other, actionId⟩
  | some action => pure action

/-- `save_action_with_event`: a taken idempotency key resolves to its row. -/
def saveActionWithEvent (record : ActionRecord) : WorkflowM (ActionRecord × Bool) := do
  let s ← Proc.access fun s =>
    if (s.actionWithKey record.idempotencyKey).isNone ∧ (s.action? record.actionId).isNone then
      { s with
        actions := s.actions ++ [record],
        events := s.events ++ [⟨"action.proposed", some record.actionId⟩] }
    else s
  match s.actionWithKey record.idempotencyKey with
  | some existing => pure (existing, false)
  | none =>
    if (s.action? record.actionId).isNone then pure (record, true)
    else .raise ⟨.other, "UNIQUE constraint failed: actions.action_id"⟩

def repairActionProposedEvent (action : ActionRecord) : WorkflowM Unit := do
  let s ← getStore
  if ⟨"action.proposed", some action.actionId⟩ ∈ s.events then pure ()
  else event "action.proposed" (some action.actionId)

/-- A write to one action row, which the store refuses unless the row is in one of `admitted`. -/
def rewriteActionIf (admitted : List ApprovalStatus) (refusal : String) (actionId : String)
    (f : ActionRecord → ActionRecord) : WorkflowM ActionRecord := do
  let s ← Proc.access fun s =>
    if (s.action? actionId).any (fun action => action.approvalStatus ∈ admitted) then
      s.rewriteAction actionId f
    else s
  match s.action? actionId with
  | none => .raise ⟨.other, actionId⟩
  | some action =>
    if action.approvalStatus ∈ admitted then pure (f action)
    else .raise ⟨.concurrencyConflict, refusal⟩

def decided (status : ApprovalStatus) (reviewer reason : String) (action : ActionRecord) :
    ActionRecord :=
  { action with approvalStatus := status, reviewer := some reviewer, reason := reason }

def signedOff (action : ActionRecord) : ActionRecord := { action with honeydewApproved := true }

def executionFailed (reason : String) (action : ActionRecord) : ActionRecord :=
  { action with approvalStatus := .executionFailed, reason := reason }

def updateAction (actionId : String) (status : ApprovalStatus) (reviewer reason : String) :
    WorkflowM ActionRecord :=
  rewriteActionIf [.pending, .automaticallyApproved] "action is already terminal" actionId
    (decided status reviewer reason)

def markActionHoneydewApproved (actionId : String) : WorkflowM ActionRecord :=
  rewriteActionIf [.pending] "action is not pending" actionId signedOff

def markActionExecutionFailed (actionId reason : String) : WorkflowM ActionRecord :=
  rewriteActionIf [.approved] "action is not approved" actionId (executionFailed reason)

def saveLocalArtifact (artifact : LocalArtifact) : WorkflowM Unit := do
  let _ ← Proc.access fun s => s.saveArtifact artifact

def note (kind : DeedKind) (action : ActionRecord) : WorkflowM Unit := do
  let _ ← Proc.access fun s =>
    { s with deeds := ⟨kind, some action.actionId, s.actions⟩ :: s.deeds }

/-- `replace_run`, which raises when another writer came first. Returns the record it replaces. -/
def replaceRun (f : WorkflowStore → WorkflowStore) : WorkflowM WorkflowStore := do
  effect .replaceRun
  Proc.access f

end Glasslab.Engine.Workflow
