import Glasslab.Foundation.Floats
import Glasslab.Foundation.Table

/-!
# Records of the research orchestrator

The enumerations and records of `app/schemas.py` that the modelled functions read or
write. Optional fields carry the defaults of the source. Instants and durations are exact
rational seconds; JSON payloads are insertion-ordered dictionaries of `Value`s.
-/

namespace Glasslab

open Foundation

inductive Value where
  | null
  | bool (b : Bool)
  | int (i : Int)
  | float (x : Float64)
  | str (s : String)
  | list (xs : List Value)
  | dict (entries : List (String × Value))
  deriving Repr

abbrev Payload := List (String × Value)

/-- `if value` for a JSON value. -/
def isTruthy : Value → Bool
  | .null => false
  | .bool b => b
  | .int i => i ≠ 0
  | .float x => x ≠ .finite 0
  | .str s => s ≠ ""
  | .list xs => !xs.isEmpty
  | .dict entries => !entries.isEmpty

def Payload.getStr (p : Payload) (key : String) : Option String :=
  match p.lookup key with
  | some (.str s) => some s
  | _ => none

/-- Seconds since the epoch. -/
abbrev Instant := ℚ

/-! ## Runs -/

inductive RunState where
  | created
  | preparing
  | honeydewDraftingProtocol
  | awaitingProtocolApproval
  | beakerDraftingContract
  | honeydewReviewingContract
  | awaitingContractPromotion
  | beakerPlanning
  | beakerImplementing
  | beakerFinalizing
  | honeydewReviewing
  | beakerRevising
  | awaitingExecutionApproval
  | jobQueued
  | jobRunning
  | beakerAnalyzing
  | honeydewVerifying
  | honeydewWritingReport
  | awaitingFinalAcceptance
  | complete
  | paused
  | failed
  | cancelled
  | timedOut
  deriving DecidableEq, Repr

namespace RunState

def all : List RunState :=
  [created, preparing, honeydewDraftingProtocol, awaitingProtocolApproval,
    beakerDraftingContract, honeydewReviewingContract, awaitingContractPromotion,
    beakerPlanning, beakerImplementing, beakerFinalizing, honeydewReviewing, beakerRevising,
    awaitingExecutionApproval, jobQueued, jobRunning, beakerAnalyzing, honeydewVerifying,
    honeydewWritingReport, awaitingFinalAcceptance, complete, paused, failed, cancelled,
    timedOut]

/-- The string an enumeration member is stored as. -/
def value : RunState → String
  | created => "CREATED"
  | preparing => "PREPARING"
  | honeydewDraftingProtocol => "HONEYDEW_DRAFTING_PROTOCOL"
  | awaitingProtocolApproval => "AWAITING_PROTOCOL_APPROVAL"
  | beakerDraftingContract => "BEAKER_DRAFTING_CONTRACT"
  | honeydewReviewingContract => "HONEYDEW_REVIEWING_CONTRACT"
  | awaitingContractPromotion => "AWAITING_CONTRACT_PROMOTION"
  | beakerPlanning => "BEAKER_PLANNING"
  | beakerImplementing => "BEAKER_IMPLEMENTING"
  | beakerFinalizing => "BEAKER_FINALIZING"
  | honeydewReviewing => "HONEYDEW_REVIEWING"
  | beakerRevising => "BEAKER_REVISING"
  | awaitingExecutionApproval => "AWAITING_EXECUTION_APPROVAL"
  | jobQueued => "JOB_QUEUED"
  | jobRunning => "JOB_RUNNING"
  | beakerAnalyzing => "BEAKER_ANALYZING"
  | honeydewVerifying => "HONEYDEW_VERIFYING"
  | honeydewWritingReport => "HONEYDEW_WRITING_REPORT"
  | awaitingFinalAcceptance => "AWAITING_FINAL_ACCEPTANCE"
  | complete => "COMPLETE"
  | paused => "PAUSED"
  | failed => "FAILED"
  | cancelled => "CANCELLED"
  | timedOut => "TIMED_OUT"

def ofValue (v : String) : Option RunState := all.find? fun s => s.value == v

@[simp] theorem ofValue_value (s : RunState) : ofValue s.value = some s := by
  cases s <;> decide

end RunState

def terminalStates : List RunState := [.complete, .failed, .cancelled, .timedOut]

inductive AgentName where
  | honeydew
  | beaker
  | orchestrator
  deriving DecidableEq, Repr

def AgentName.value : AgentName → String
  | honeydew => "honeydew"
  | beaker => "beaker"
  | orchestrator => "orchestrator"

inductive TurnKind where
  | taskSpec
  | protocolDraft
  | contractCandidate
  | implementationPlan
  | implementationProposal
  | methodologyReview
  | revision
  | experimentAnalysis
  | verification
  | finalReport
  | researchAnswer
  deriving DecidableEq, Repr

def TurnKind.value : TurnKind → String
  | taskSpec => "task_spec"
  | protocolDraft => "protocol_draft"
  | contractCandidate => "contract_candidate"
  | implementationPlan => "implementation_plan"
  | implementationProposal => "implementation_proposal"
  | methodologyReview => "methodology_review"
  | revision => "revision"
  | experimentAnalysis => "experiment_analysis"
  | verification => "verification"
  | finalReport => "final_report"
  | researchAnswer => "research_answer"

structure RunRecord where
  runId : String
  parentRunId : Option String := none
  retryCheckpointDigest : Option String := none
  objective : String
  state : RunState
  beakerSessionId : Option String := none
  honeydewSessionId : Option String := none
  currentAgent : Option AgentName := none
  turnNumber : Nat := 0
  methodologyRevisionCount : Nat := 0
  sessionRotationCount : Nat := 0
  lastRotationTurn : Nat := 0
  conversation : Bool := false
  investigationId : Option String := none
  maximumTurns : Nat
  maximumRuntimeSeconds : Nat
  maximumParallelJobs : Nat
  activeRuntimeSeconds : ℚ := 0
  activeSince : Option Instant := none
  resumeState : Option RunState := none
  version : Int := 1
  createdAt : Instant
  updatedAt : Instant
  deriving DecidableEq, Repr

/-- The open interval of the run clock at `now`: the time since the clock last started, never
negative, and nothing while the clock is stopped. -/
def RunRecord.openInterval (run : RunRecord) (now : Instant) : ℚ :=
  match run.activeSince with
  | some since => max 0 (now - since)
  | none => 0

/-- The action types that open a gate, and every other type an agent may request. -/
inductive ActionType where
  | approveProtocol
  | proposeEvaluationContract
  | submitExperimentMatrix
  | acceptFinalReport
  | other (name : String)
  deriving DecidableEq, Repr

inductive PolicyClassification where
  | automatic
  | honeydewApproval
  | humanApproval
  | honeydewAndHumanApproval
  | deny
  deriving DecidableEq, Repr

inductive ApprovalStatus where
  | automaticallyApproved
  | pending
  | approved
  | rejected
  | denied
  | executionFailed
  deriving DecidableEq, Repr

structure ActionRecord where
  actionId : String
  runId : String
  proposedBy : AgentName
  type : ActionType
  policyClassification : PolicyClassification
  approvalStatus : ApprovalStatus
  honeydewApproved : Bool := false
  reviewer : Option String := none
  reason : String := ""
  idempotencyKey : String
  deriving DecidableEq, Repr

inductive JobStatus where
  | queued
  | submitting
  | running
  | succeeded
  | failed
  | cancelled
  | unknown
  deriving DecidableEq, Repr

def JobStatus.value : JobStatus → String
  | queued => "queued"
  | submitting => "submitting"
  | running => "running"
  | succeeded => "succeeded"
  | failed => "failed"
  | cancelled => "cancelled"
  | unknown => "unknown"

def jobTerminalStatuses : List JobStatus := [.succeeded, .failed, .cancelled]

/-- The resources of a matrix, of a contract or of a proposal. The floats may be NaN: `Field(gt=0)`
refuses what is at most 0, and the text `nan` is parsed. -/
structure ResourceRequest where
  cpu : Float64
  memoryGib : Float64
  gpus : Nat
  wallclockMinutes : Nat
  deriving DecidableEq

/-- Some amount that is requested is greater than its ceiling. -/
def ResourceRequest.exceeds (requested ceiling : ResourceRequest) : Bool :=
  ceiling.cpu.lt requested.cpu || ceiling.memoryGib.lt requested.memoryGib ||
    ceiling.gpus < requested.gpus || ceiling.wallclockMinutes < requested.wallclockMinutes

/-- Every amount that is requested is at most its ceiling, which NaN is not. -/
def ResourceRequest.within (requested ceiling : ResourceRequest) : Bool :=
  requested.cpu.le ceiling.cpu && requested.memoryGib.le ceiling.memoryGib &&
    requested.gpus ≤ ceiling.gpus && requested.wallclockMinutes ≤ ceiling.wallclockMinutes

theorem ResourceRequest.within_iff {requested ceiling : ResourceRequest} :
    requested.within ceiling = true ↔
      requested.cpu.le ceiling.cpu = true ∧ requested.memoryGib.le ceiling.memoryGib = true ∧
        requested.gpus ≤ ceiling.gpus ∧ requested.wallclockMinutes ≤ ceiling.wallclockMinutes := by
  simp only [ResourceRequest.within, Bool.and_eq_true, decide_eq_true_eq, and_assoc]

structure ExperimentVariant where
  name : String
  overrides : Payload

structure ExperimentMatrix where
  baseConfig : String
  variants : List ExperimentVariant
  seeds : List Int
  maximumParallelJobs : Nat := 1
  runnerImage : String

structure ExpandedJobSpec where
  orchestratorJobId : String
  runId : String
  actionId : String
  variantName : String
  seed : Int
  idempotencyKey : String
  baseConfig : String
  overrides : Payload
  runnerImage : String
  evaluationContractDigest : String

/-- The id of a run of the cluster. Both cluster adapters name their runs with nonempty
strings, so an id that is stored is an id that counts as present. -/
abbrev ExternalRunId := { id : String // id ≠ "" }

/-- `exit_information`, with the key that only a cancellation writes kept apart. -/
structure ExitInformation where
  entries : Payload := []
  cancelRequested : Bool := false

/-- The fields of a job that are copied from its spec are read off the spec. -/
structure JobRecord where
  spec : ExpandedJobSpec
  status : JobStatus
  jobName : Option String := none
  kubernetesUid : Option String := none
  externalRunId : Option ExternalRunId := none
  exitInformation : ExitInformation := {}

def JobRecord.jobId (job : JobRecord) : String := job.spec.orchestratorJobId

/-- The pattern `^[a-f0-9]{64}$`. -/
def isSha256 (text : String) : Bool :=
  text.length = 64 ∧ text.toList.all fun c => ('0' ≤ c ∧ c ≤ '9') ∨ ('a' ≤ c ∧ c ≤ 'f')

structure Sha256 where
  text : String
  wellFormed : isSha256 text = true
  deriving DecidableEq

structure ArtifactRecord where
  artifactId : String
  jobId : Option String
  type : String
  uri : String
  sha256 : String

structure EventRecord where
  sequenceNumber : Nat
  runId : String
  source : String
  eventType : String
  payload : Payload
  deriving Repr

end Glasslab
