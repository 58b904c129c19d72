import Glasslab.Foundation.Document
import Glasslab.Foundation.Transaction
import Glasslab.Schemas

/-!
# Records of the workflow API

The records of `workflow-api/app/schemas.py` and `common/schemas` that the modelled routes read or
write, and the in-memory store of `app/persistence.py` that the durable stores extend. A dictionary
is a list of entries in insertion order.
-/

namespace Glasslab.WorkflowApi

open Foundation List

/-- The scalars of a JSON value. -/
inductive Scalar where
  | null
  | bool (b : Bool)
  | int (i : Int)
  | float (x : Float64)
  | str (s : String)
  deriving DecidableEq

abbrev Value := Document Scalar

abbrev Entries := Document.Entries Scalar

def text (s : String) : Value := .scalar (.str s)

def texts (items : List String) : Value := .list (items.map text)

/-- What an optional text is tested for by `if value:`. -/
def truthy : Option String → Bool
  | none => false
  | some s => s ≠ ""

inductive RunState where
  | accepted
  | queued
  | running
  | succeeded
  | failed
  | rejected
  | cancelled
  deriving DecidableEq, Repr

structure RunStatus where
  runId : String
  status : RunState
  updatedAt : Instant
  detail : Option String := none
  deriving DecidableEq

structure JobSubmissionReceipt where
  jobName : String
  «namespace» : String
  acceptedAt : Instant
  status : String
  detail : String
  jobUid : Option String := none
  deriving DecidableEq

inductive RunPriority where
  | user
  | autonomous
  deriving DecidableEq, Repr

structure ExpectedArtifactsSpec where
  required : List String
  optional : List String := []
  deriving DecidableEq, Repr

structure RunManifest where
  runId : String
  workflowId : String
  workflowFamily : String
  displayName : String
  objective : String
  submittedBy : String
  submittedAt : Instant
  runPriority : RunPriority
  inputs : Entries
  requestedModels : List String
  resourceProfile : String
  resourceRequests : List (String × String)
  resourceLimits : List (String × String)
  nodeSelector : List (String × String)
  runnerImage : String
  runnerServiceAccountName : String
  maximumWallclockMinutes : Option Int
  evaluatorType : String
  approvalTier : String
  expectedArtifacts : ExpectedArtifactsSpec
  experimentType : Option String := none
  workloadId : Option String := none
  schemaRef : Option String := none
  entrypoint : List String
  configPayload : Entries := []
  datasetBindings : List (String × String) := []
  budget : Entries
  metricContract : Entries := []
  traceId : Option String
  deriving DecidableEq

structure RunRecord where
  runId : String
  workflowId : String
  createdAt : Instant
  updatedAt : Instant
  manifest : RunManifest
  status : RunStatus
  jobSubmission : JobSubmissionReceipt
  sourceDesignId : Option String := none
  sourceIntakeId : Option String := none
  runPurpose : Option String := none
  runPriority : RunPriority
  sessionId : Option String := none
  reportedMetrics : Entries := []
  artifactRefs : List (String × String) := []
  runtimeSummary : Entries := []
  investigationId : Option String := none
  sourcePlanId : Option String := none
  sourceApprovalId : Option String := none
  sourceExecutionId : Option String := none
  planSha256 : Option String := none
  artifactBundleVerified : Bool := false
  idempotencyKey : Option String := none
  deriving DecidableEq

structure ArtifactIndexEntry where
  name : String
  path : String
  mediaType : String
  required : Bool
  sizeBytes : Option Nat := none
  sha256 : Option String := none
  description : Option String := none
  deriving DecidableEq

structure ArtifactsIndex where
  runId : String
  artifacts : List ArtifactIndexEntry
  deriving DecidableEq

structure LogEntry where
  timestamp : Instant
  level : String
  message : String
  payload : Entries
  deriving DecidableEq

structure ResearchSessionRecord where
  sessionId : String
  updatedAt : Instant
  latestRunId : Option String := none
  deriving DecidableEq

/-- What a route raises: an `HTTPException`, or another exception, as its text. -/
inductive Failure where
  | http (statusCode : Nat) (detail : Value)
  | raised (message : String)
  deriving DecidableEq

/-! ## The store -/

structure RunStore where
  runs : List (String × RunRecord) := []
  latestRunId : Option String := none
  artifacts : List (String × ArtifactsIndex) := []
  logs : List (String × List LogEntry) := []
  researchSessions : List (String × ResearchSessionRecord) := []
  deriving DecidableEq

namespace RunStore

def getRun (store : RunStore) (runId : String) : Option RunRecord := store.runs.lookup runId

def getRunByIdempotencyKey (store : RunStore) (key : String) : Option RunRecord :=
  (store.runs.map Prod.snd).find? fun record => record.idempotencyKey = some key

structure IdempotencyConflict where
  message : String
  deriving DecidableEq

def conflicts (store : RunStore) (record : RunRecord) : Bool :=
  truthy record.idempotencyKey &&
    (store.runs.map Prod.snd).any fun existing =>
      existing.runId ≠ record.runId ∧ existing.idempotencyKey = record.idempotencyKey

/-- The assignment in `save_run`. -/
def putRun (store : RunStore) (record : RunRecord) : RunStore :=
  { store with
    runs := Dict.set record.runId record store.runs
    latestRunId := some record.runId }

def saveRun (store : RunStore) (record : RunRecord) : Except IdempotencyConflict RunStore :=
  if store.conflicts record then
    .error ⟨"idempotency key already used: " ++ record.idempotencyKey.getD ""⟩
  else .ok (store.putRun record)

def transitionRunStatus (store : RunStore) (runId : String) (fromStatuses : List RunState)
    (toStatus : RunStatus) : Option RunRecord × RunStore :=
  match store.getRun runId with
  | none => (none, store)
  | some record =>
    if record.status.status ∉ fromStatuses then (some record, store)
    else
      let updated := { record with updatedAt := toStatus.updatedAt, status := toStatus }
      (some updated,
        { store with
          runs := Dict.set runId updated store.runs
          latestRunId := some runId })

def saveArtifacts (store : RunStore) (runId : String) (artifacts : ArtifactsIndex) : RunStore :=
  { store with artifacts := Dict.set runId artifacts store.artifacts }

def getArtifacts (store : RunStore) (runId : String) : Option ArtifactsIndex :=
  store.artifacts.lookup runId

def appendLog (store : RunStore) (runId : String) (entry : LogEntry) : RunStore :=
  { store with logs := Dict.set runId ((store.logs.lookup runId).getD [] ++ [entry]) store.logs }

/-- `touch_research_session(store, session_id, latest_run_id=run_id)`. -/
def touchResearchSession (store : RunStore) (sessionId : Option String) (runId : String)
    (now : Instant) : RunStore :=
  match sessionId with
  | none => store
  | some sessionId =>
    if sessionId = "" then store
    else
      match store.researchSessions.lookup sessionId with
      | none => store
      | some session =>
        let updated := { session with latestRunId := some runId, updatedAt := now }
        { store with
          researchSessions := Dict.set updated.sessionId updated store.researchSessions }

variable {store : RunStore} {record : RunRecord} {artifacts : ArtifactsIndex} {entry : LogEntry}
  {runId runId' key : String} {sessionId : Option String} {now : Instant}

@[simp] theorem runs_saveArtifacts : (store.saveArtifacts runId artifacts).runs = store.runs := rfl

@[simp] theorem runs_appendLog : (store.appendLog runId entry).runs = store.runs := rfl

@[simp] theorem runs_touchResearchSession :
    (store.touchResearchSession sessionId runId now).runs = store.runs := by
  unfold touchResearchSession
  cases sessionId with
  | none => rfl
  | some sessionId =>
    dsimp only
    split
    · rfl
    · split <;> rfl

theorem getRun_putRun :
    (store.putRun record).getRun runId =
      if runId = record.runId then some record else store.getRun runId :=
  Dict.lookup_set

theorem saveRun_eq_ok_iff {store' : RunStore} :
    store.saveRun record = .ok store' ↔ store.conflicts record = false ∧ store' =
    store.putRun record := by
  unfold saveRun
  split
  next h => simp [h]
  next h => simp [h, eq_comm]

theorem conflicts_of_free (h : store.getRunByIdempotencyKey key = none)
    (hKey : record.idempotencyKey = some key) : store.conflicts record = false := by
  unfold conflicts
  rw [Bool.and_eq_false_iff]
  right
  rw [any_eq_false]
  intro existing hExisting hClash
  have hFree := List.find?_eq_none.mp h existing hExisting
  rw [decide_eq_true_eq] at hClash
  exact hFree (by rw [hClash.2, hKey, decide_eq_true_eq])

def UniqueKeys (runs : List (String × RunRecord)) : Prop :=
  ∀ a ∈ runs.map Prod.snd, ∀ b ∈ runs.map Prod.snd, truthy a.idempotencyKey = true →
    a.idempotencyKey = b.idempotencyKey → a.runId = b.runId

variable {run stored : RunRecord}

theorem mem_runs_of_getRun (h : store.getRun runId = some run) :
    run ∈ store.runs.map Prod.snd := by
  have hEntry : ∀ runs : List (String × RunRecord), runs.lookup runId = some run →
      run ∈ runs.map Prod.snd := by
    intro runs
    induction runs with
    | nil =>
      intro h
      cases h
    | cons entry runs ih =>
      intro h
      rw [lookup_cons_if] at h
      split at h
      · obtain rfl := Option.some.inj h
        exact mem_cons_self
      · exact mem_cons_of_mem _ (ih h)
  exact hEntry store.runs h

theorem mem_runs_set {runs : List (String × RunRecord)}
    (h : stored ∈ (Dict.set runId run runs).map Prod.snd) :
    stored = run ∨ stored ∈ runs.map Prod.snd := by
  obtain ⟨entry, hEntry, rfl⟩ := mem_map.mp h
  rcases Dict.mem_of_mem_set hEntry with rfl | hOld
  · exact .inl rfl
  · exact .inr (mem_map_of_mem hOld)

theorem conflicts_eq_false_iff : store.conflicts record = false ↔
    (truthy record.idempotencyKey = true → ∀ existing ∈ store.runs.map Prod.snd,
      existing.idempotencyKey = record.idempotencyKey → existing.runId = record.runId) := by
  unfold conflicts
  rw [Bool.and_eq_false_iff, any_eq_false]
  constructor
  · rintro (hFalse | hNone) hTruthy existing hMem hKey
    · rw [hTruthy] at hFalse
      cases hFalse
    · by_contra hId
      exact hNone existing hMem (by simp [hId, hKey])
  · intro h
    by_cases hTruthy : truthy record.idempotencyKey = true
    · right
      intro existing hMem hClash
      obtain ⟨hId, hKey⟩ := of_decide_eq_true hClash
      exact hId (h hTruthy existing hMem hKey)
    · exact .inl (Bool.eq_false_iff.mpr hTruthy)

theorem uniqueKeys_set (hFree : store.conflicts record = false) (h : UniqueKeys store.runs) :
    UniqueKeys (Dict.set record.runId record store.runs) := by
  rw [conflicts_eq_false_iff] at hFree
  intro a ha b hb hTruthy hKey
  rcases mem_runs_set ha with hA | hOldA
  · rcases mem_runs_set hb with hB | hOldB
    · rw [hA, hB]
    · rw [hA] at hTruthy hKey ⊢
      exact (hFree hTruthy b hOldB hKey.symm).symm
  · rcases mem_runs_set hb with hB | hOldB
    · rw [hB] at hKey ⊢
      exact hFree (hKey ▸ hTruthy) a hOldA hKey
    · exact h a hOldA b hOldB hTruthy hKey

theorem conflicts_of_stored (h : UniqueKeys store.runs)
    (hMem : stored ∈ store.runs.map Prod.snd) (hId : record.runId = stored.runId)
    (hKey : record.idempotencyKey = stored.idempotencyKey) : store.conflicts record = false := by
  rw [conflicts_eq_false_iff]
  intro hTruthy existing hExisting hSame
  rw [hKey] at hTruthy hSame
  rw [hId]
  exact (h stored hMem existing hExisting hTruthy hSame.symm).symm

end RunStore

end Glasslab.WorkflowApi
