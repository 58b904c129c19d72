import Glasslab.WorkflowApi.Creation

/-!
# Creation under an idempotency key

A creation saves its record before it submits the job, so that no job is left without a record, and
a later request under the same key returns the record it finds. The record says nothing about what
became of the submission: where it failed, the later request answers with a run that was never
submitted. The answers are right exactly if the first request that passes its checks has its job
taken, or nothing comes after it (`idempotent_create_iff`).
-/

namespace Glasslab.WorkflowApi

open Foundation List

inductive CreateCall where
  | generic (request : GenericExperimentRunRequest) (lineage : Lineage)
  | registered (request : RunCreateRequest) (workflow : WorkflowRegistryEntry) (origin : Origin)

/-- A request, and what it meets. -/
structure Attempt where
  call : CreateCall
  registry : WorkflowRegistry := []
  settings : Settings := {}
  surroundings : Surroundings

namespace Attempt

/-- The checks of a request that does not find its key. -/
def accept (attempt : Attempt) (key : String) : Except Failure Accepted :=
  match attempt.call with
  | .generic request lineage =>
    acceptGeneric attempt.registry attempt.settings request lineage (some key) attempt.surroundings
  | .registered request workflow origin =>
    acceptRun request workflow attempt.settings origin (some key) attempt.surroundings

def serve (attempt : Attempt) (key : String) : Tx World Failure RunRecord :=
  match attempt.call with
  | .generic request lineage =>
    buildGenericRunRecord attempt.registry attempt.settings request lineage (some key)
      attempt.surroundings
  | .registered request workflow origin =>
    createRunRecord request workflow attempt.settings origin (some key) attempt.surroundings

end Attempt

def serveAll (key : String) : World → List Attempt → List (Except Failure RunRecord × World)
  | _, [] => []
  | world, attempt :: attempts =>
    let answer := attempt.serve key world
    answer :: serveAll key answer.2 attempts

def worldAfter (key : String) (world : World) (attempts : List Attempt) : World :=
  attempts.foldl (fun world attempt => (attempt.serve key world).2) world

def runsUnder (key : String) (store : RunStore) : List RunRecord :=
  (store.runs.map Prod.snd).filter fun record => record.idempotencyKey = some key

/-- At most one run and one job under the key, and no answer without a job. -/
structure Idempotent (key : String) (store : RunStore) (attempts : List Attempt) : Prop where
  oneRun : (runsUnder key (worldAfter key ⟨store, []⟩ attempts).store).length ≤ 1
  oneJob : (worldAfter key ⟨store, []⟩ attempts).jobs.length ≤ 1
  submitted : ∀ record world, (.ok record, world) ∈ serveAll key ⟨store, []⟩ attempts →
    record.manifest ∈ world.jobs

/-- The submitter takes the job of the first request that passes its checks, or no request comes
after it. -/
def FirstTaken (key : String) : List Attempt → Prop
  | [] => True
  | attempt :: attempts =>
    match attempt.accept key with
    | .error _ => FirstTaken key attempts
    | .ok creation =>
      (attempt.surroundings.submitRun creation.record.manifest).takesJob ∨ attempts = []

variable {key : String} {world : World} {creation : Accepted} {attempt : Attempt}

section Serve

variable {existing : RunRecord} {failure : Failure}

theorem accept_idempotencyKey (h : attempt.accept key = .ok creation) :
    creation.record.idempotencyKey = some key := by
  unfold Attempt.accept at h
  cases hCall : attempt.call with
  | generic request lineage =>
    rw [hCall] at h
    obtain ⟨workflow, configPayload, -, -, hRecord⟩ := acceptGeneric_ok h
    rw [hRecord]
    rfl
  | registered request workflow origin =>
    rw [hCall] at h
    rw [(acceptRun_ok h).2]
    rfl

theorem serve_eq : attempt.serve key =
    createFrom (some key) (attempt.accept key) attempt.surroundings := by
  unfold Attempt.serve Attempt.accept
  cases attempt.call <;> rfl

theorem serve_of_refused (h : world.store.getRunByIdempotencyKey key = none)
    (hAccept : attempt.accept key = .error failure) :
    attempt.serve key world = (.error failure, world) := by
  rw [serve_eq, hAccept]
  exact createFrom_of_refused h

end Serve

variable {store : RunStore}

namespace RunStore

variable {record : RunRecord}

theorem getRunByIdempotencyKey_eq_none_iff :
    store.getRunByIdempotencyKey key = none ↔ runsUnder key store = [] := by
  unfold getRunByIdempotencyKey runsUnder
  rw [List.find?_eq_none, filter_eq_nil_iff]

theorem runsUnder_putRun (h : store.getRunByIdempotencyKey key = none)
    (hKey : record.idempotencyKey = some key) : runsUnder key (store.putRun record) = [record] := by
  rw [getRunByIdempotencyKey_eq_none_iff] at h
  unfold runsUnder at h
  show List.filter _ ((Dict.set record.runId record store.runs).map Prod.snd) = [record]
  generalize store.runs = runs at h
  induction runs with
  | nil => simp [Dict.set, hKey]
  | cons entry runs ih =>
    obtain ⟨runId, other⟩ := entry
    rw [map_cons, filter_cons] at h
    split at h
    · cases h
    next hOther =>
      by_cases hId : runId = record.runId
      · simp [Dict.set, hId, hKey, h]
      · simp [Dict.set, hId, hOther, ih h]

theorem getRunByIdempotencyKey_of_runsUnder (h : runsUnder key store = [record]) :
    store.getRunByIdempotencyKey key = some record := by
  unfold getRunByIdempotencyKey
  rw [← List.head?_filter, show List.filter _ _ = [record] from h]
  rfl

theorem putRun_putRun {updated : RunRecord} (hId : updated.runId = record.runId) :
    (store.putRun record).putRun updated = store.putRun updated := by
  unfold putRun
  rw [hId]
  rw [Dict.set_set]

theorem conflicts_of_runsUnder {updated : RunRecord} (h : runsUnder key store = [record])
    (hKey : updated.idempotencyKey = some key) (hId : updated.runId = record.runId) :
    store.conflicts updated = false := by
  unfold conflicts
  rw [Bool.and_eq_false_iff]
  right
  rw [any_eq_false]
  intro existing hExisting hClash
  rw [decide_eq_true_eq] at hClash
  have hUnder : existing ∈ runsUnder key store := by
    refine mem_filter.mpr ⟨hExisting, ?_⟩
    rw [hClash.2, hKey, decide_eq_true_eq]
  rw [h, mem_singleton] at hUnder
  exact hClash.1 (by rw [hUnder, hId])

end RunStore

/-! ## A creation that passes its checks -/

section Persist

variable {surroundings : Surroundings} {receipt : JobSubmissionReceipt}

section

variable (hFree : world.store.getRunByIdempotencyKey key = none)
include hFree

theorem persistAndSubmit_of_accepted
    (hKey : creation.record.idempotencyKey = some key)
    (hSubmit : surroundings.submitRun creation.record.manifest = .accepted receipt) :
    ∃ run, (persistAndSubmit surroundings creation world).1 = .ok run ∧
      runsUnder key (persistAndSubmit surroundings creation world).2.store = [run] ∧
      run.manifest = creation.record.manifest ∧
      (persistAndSubmit surroundings creation world).2.jobs =
        world.jobs ++ [creation.record.manifest] := by
  have hSave : world.store.saveRun creation.record = .ok (world.store.putRun creation.record) :=
    RunStore.saveRun_eq_ok_iff.mpr ⟨RunStore.conflicts_of_free hFree hKey, rfl⟩
  have hRuns := RunStore.runsUnder_putRun hFree hKey
  unfold persistAndSubmit
  dsimp only
  rw [hSave]
  rw [hSubmit]
  dsimp only
  generalize hUpdated : RunRecord.mk _ _ _ _ _ _ _ _ _ _ _ _ _ _ _ _ _ _ _ _ _ _ = updated
  have hId : updated.runId = creation.record.runId := hUpdated ▸ rfl
  have hSame : updated.manifest = creation.record.manifest := hUpdated ▸ rfl
  have hKey' : updated.idempotencyKey = some key := hUpdated ▸ hKey
  -- The second save is of the same run, so it meets no other run under the key.
  have hAlone := RunStore.conflicts_of_runsUnder hRuns hKey' hId
  rw [RunStore.saveRun_eq_ok_iff.mpr ⟨hAlone, rfl⟩]
  have hRuns' := RunStore.runsUnder_putRun hFree hKey'
  rw [RunStore.putRun_putRun hId]
  refine ⟨updated, rfl, ?_, hSame, rfl⟩
  unfold runsUnder at hRuns' ⊢
  simpa using hRuns'

/-- A submission that is not accepted: nothing is answered, and the record stays under its key. -/
theorem persistAndSubmit_of_refused
    (hKey : creation.record.idempotencyKey = some key)
    (hSubmit : ∀ receipt, surroundings.submitRun creation.record.manifest ≠ .accepted receipt) :
    (∃ failure, (persistAndSubmit surroundings creation world).1 = .error failure) ∧
      runsUnder key (persistAndSubmit surroundings creation world).2.store = [creation.record] ∧
      (persistAndSubmit surroundings creation world).2.jobs =
        if (surroundings.submitRun creation.record.manifest).takesJob then
          world.jobs ++ [creation.record.manifest]
        else world.jobs := by
  have hSave : world.store.saveRun creation.record = .ok (world.store.putRun creation.record) :=
    RunStore.saveRun_eq_ok_iff.mpr ⟨RunStore.conflicts_of_free hFree hKey, rfl⟩
  unfold persistAndSubmit
  dsimp only
  rw [hSave]
  cases hCase : surroundings.submitRun creation.record.manifest with
  | accepted receipt => exact absurd hCase (hSubmit receipt)
  | jobSubmissionError statusCode detail =>
    exact ⟨⟨_, rfl⟩, RunStore.runsUnder_putRun hFree hKey, rfl⟩
  | raised message created => exact ⟨⟨_, rfl⟩, RunStore.runsUnder_putRun hFree hKey, rfl⟩

end

/-- What a creation under a free key leaves behind: its record is the only one under the key, and
its job is there if the submitter took it. An answer is the record. -/
structure Created (key : String) (taken : Bool) (manifest : RunManifest) (world : World)
    (answer : Except Failure RunRecord × World) : Prop where
  run : ∃ record, runsUnder key answer.2.store = [record] ∧ record.manifest = manifest
  jobs : answer.2.jobs = if taken then world.jobs ++ [manifest] else world.jobs
  answered : ∀ record, answer.1 = .ok record → taken ∧ record.manifest = manifest

theorem created_of_accept (hFree : world.store.getRunByIdempotencyKey key = none)
    (hAccept : attempt.accept key = .ok creation) :
    Created key (attempt.surroundings.submitRun creation.record.manifest).takesJob
      creation.record.manifest world (attempt.serve key world) := by
  have hRecord := accept_idempotencyKey hAccept
  rw [serve_eq, hAccept, createFrom_of_accepted hFree]
  by_cases hSubmit : ∃ receipt,
      attempt.surroundings.submitRun creation.record.manifest = .accepted receipt
  · obtain ⟨receipt, hSubmit⟩ := hSubmit
    obtain ⟨run, hAnswer, hRuns, hSame, hJobs⟩ :=
      persistAndSubmit_of_accepted hFree hRecord hSubmit
    rw [hSubmit]
    refine ⟨⟨run, hRuns, hSame⟩, hJobs, fun record hOk => ?_⟩
    rw [hAnswer] at hOk
    exact ⟨rfl, Except.ok.inj hOk ▸ hSame⟩
  · rw [not_exists] at hSubmit
    obtain ⟨⟨failure, hAnswer⟩, hRuns, hJobs⟩ := persistAndSubmit_of_refused hFree hRecord hSubmit
    refine ⟨⟨_, hRuns, rfl⟩, hJobs, fun record hOk => ?_⟩
    rw [hAnswer] at hOk
    cases hOk

end Persist

section History

variable {attempts : List Attempt} {existing : RunRecord}

theorem worldAfter_cons {attempt : Attempt} :
    worldAfter key world (attempt :: attempts) =
      worldAfter key (attempt.serve key world).2 attempts := rfl

/-- Once the key is taken, every request returns the record and changes nothing. -/
theorem serveAll_of_taken (hKey : key ≠ "")
    (h : world.store.getRunByIdempotencyKey key = some existing) :
    worldAfter key world attempts = world ∧
      serveAll key world attempts = attempts.map fun _ => (.ok existing, world) := by
  induction attempts with
  | nil => exact ⟨rfl, rfl⟩
  | cons attempt attempts ih =>
    rw [worldAfter_cons, serveAll, serve_eq, createFrom_of_taken hKey h]
    exact ⟨ih.1, by rw [ih.2]; rfl⟩

end History

/-- Under a key that no run has, the answers of a history are right exactly if the submitter takes
the job of the first request that passes its checks, or no request comes after it. -/
theorem idempotent_create_iff (key : String) (hKey : key ≠ "") (store : RunStore)
    (hFree : store.getRunByIdempotencyKey key = none) (attempts : List Attempt) :
    Idempotent key store attempts ↔ FirstTaken key attempts := by
  induction attempts with
  | nil =>
    have hNone := RunStore.getRunByIdempotencyKey_eq_none_iff.mp hFree
    have hRun : (runsUnder key store).length ≤ 1 := by simp [hNone]
    exact iff_of_true ⟨hRun, Nat.zero_le 1, fun record world hMem => by cases hMem⟩ trivial
  | cons attempt attempts ih =>
    cases hAccept : attempt.accept key with
    | error failure =>
      have hServe : attempt.serve key ⟨store, []⟩ = (.error failure, ⟨store, []⟩) :=
        serve_of_refused hFree hAccept
      have hCond : FirstTaken key (attempt :: attempts) ↔ FirstTaken key attempts := by
        rw [FirstTaken, hAccept]
      rw [hCond, ← ih]
      constructor
      · intro ⟨hRun, hJob, hSubmitted⟩
        rw [worldAfter_cons, hServe] at hRun hJob
        refine ⟨hRun, hJob, fun record world hMem => hSubmitted record world ?_⟩
        rw [serveAll, hServe]
        exact mem_cons_of_mem _ hMem
      · intro ⟨hRun, hJob, hSubmitted⟩
        refine ⟨?_, ?_, fun record world hMem => ?_⟩
        · rwa [worldAfter_cons, hServe]
        · rwa [worldAfter_cons, hServe]
        · rw [serveAll, hServe] at hMem
          rcases mem_cons.mp hMem with hHead | hTail
          · cases hHead
          · exact hSubmitted record world hTail
    | ok creation =>
      have hCreated : Created key _ _ ⟨store, []⟩ _ := created_of_accept hFree hAccept
      rw [FirstTaken, hAccept]
      dsimp only
      revert hCreated
      generalize (attempt.surroundings.submitRun creation.record.manifest).takesJob = taken
      intro hCreated
      obtain ⟨record, hRuns, hManifest⟩ := hCreated.run
      have hTaken := RunStore.getRunByIdempotencyKey_of_runsUnder hRuns
      obtain ⟨hWorld, hAnswers⟩ := @serveAll_of_taken _ _ attempts _ hKey hTaken
      constructor
      · intro h
        cases attempts with
        | nil => exact .inr rfl
        | cons next attempts =>
          left
          have hMem : (.ok record, (attempt.serve key ⟨store, []⟩).2) ∈
              serveAll key ⟨store, []⟩ (attempt :: next :: attempts) := by
            rw [serveAll, hAnswers]
            exact mem_cons_of_mem _ mem_cons_self
          have hJob := h.submitted record _ hMem
          rw [hCreated.jobs] at hJob
          cases taken with
          | true => rfl
          | false => cases hJob
      · intro hCond
        refine ⟨?_, ?_, fun answer world hMem => ?_⟩
        · rw [worldAfter_cons, hWorld, hRuns]
          exact le_rfl
        · rw [worldAfter_cons, hWorld, hCreated.jobs]
          cases taken <;> simp
        · rw [serveAll, hAnswers] at hMem
          rcases mem_cons.mp hMem with hHead | hTail
          · obtain ⟨rfl, hSame⟩ := hCreated.answered answer (congrArg Prod.fst hHead).symm
            have hWorldEq : world = (attempt.serve key ⟨store, []⟩).2 := congrArg Prod.snd hHead
            rw [hWorldEq, hCreated.jobs, hSame]
            simp
          · obtain ⟨later, hLater, hSame⟩ := mem_map.mp hTail
            obtain ⟨hOk, rfl⟩ := Prod.mk.inj hSame
            obtain rfl := Except.ok.inj hOk
            have hNonempty : attempts ≠ [] := ne_nil_of_mem hLater
            rcases hCond with rfl | hNil
            · rw [hCreated.jobs, hManifest]
              simp
            · exact absurd hNil hNonempty

def tabularBenchmark : WorkflowRegistryEntry where
  workflowId := "generic-tabular-benchmark"
  displayName := "Tabular benchmark"
  workflowFamily := "benchmark"
  requiredInputs := [⟨"dataset_name", true⟩]
  allowedModels := ["logistic_regression"]
  runnerImage := "runner@sha256:0"
  evaluatorType := "tabular"
  expectedArtifacts := ⟨["metrics.json"], []⟩
  resourceProfile := { profileName := "cpu-small" }
  approvalTier := "tier-2-approved-execution"
  defaultEntrypoint := ["python3", "main.py"]
  runnerServiceAccountName := "runner"
  maxWallclockMinutes := some 30

def tabularRequest : GenericExperimentRunRequest where
  objective := "Verify idempotent submission."
  experimentType := "tabular"
  workloadId := "generic-tabular-benchmark"
  budget := [("max_wallclock_minutes", .scalar (.int 5))]

/-- A request that passes its checks and whose submission comes to this. -/
def tabularAttempt (runId : String) (submission : Submission) : Attempt where
  call := .generic tabularRequest {}
  registry := [("generic-tabular-benchmark", tabularBenchmark)]
  surroundings :=
    { now := 0
      submittedAt := 1
      runId := runId
      preflight := fun _ => { ready := true }
      validateWorkspace := fun _ => .error "Field required"
      resolveEvaluationContract := fun _ => .ok ()
      submitRun := fun _ => submission }

def tabularReceipt : Submission :=
  .accepted
    { jobName := "job"
      «namespace» := "glasslab"
      acceptedAt := 1
      status := "submitted"
      detail := "Run submitted to Kubernetes Job API." }

/-- The job is refused, and the retry reports the run that was never submitted. -/
theorem pending_run_reported :
    ¬ Idempotent "retry-1" {}
      [tabularAttempt "a" (.jobSubmissionError 502 "Kubernetes Job API failed during submission"),
        tabularAttempt "b" tabularReceipt] := by
  intro h
  have hAnswer : (serveAll "retry-1" {}
      [tabularAttempt "a" (.jobSubmissionError 502 "Kubernetes Job API failed during submission"),
        tabularAttempt "b" tabularReceipt]).any (fun answer =>
          answer.2.jobs = [] ∧ answer.1.toOption.isSome) = true := by
    decide +kernel
  obtain ⟨⟨answer, world⟩, hMem, hHolds⟩ := any_eq_true.mp hAnswer
  obtain ⟨hJobs, hOk⟩ := of_decide_eq_true hHolds
  cases answer with
  | error failure => cases hOk
  | ok record =>
    have hJob := h.submitted record world hMem
    rw [show world.jobs = [] from hJobs] at hJob
    cases hJob

theorem idempotent_create_taken :
    Idempotent "retry-1" {}
    [tabularAttempt "a" tabularReceipt, tabularAttempt "b" tabularReceipt] :=
  (idempotent_create_iff "retry-1" (by decide) {} rfl _).mpr (.inl rfl)

end Glasslab.WorkflowApi
