import Glasslab.WorkflowApi.Claims
import Glasslab.WorkflowApi.IdempotentCreate
import Glasslab.WorkflowApi.RunRoutes

/-!
# Requests one after the other

The routes on runs and on one investigation, each run to completion before the next one starts. A
request that fails may have written already: a launch whose submission fails leaves its run behind.
-/

namespace Glasslab.WorkflowApi

open Foundation Raising

/-- The runs with their jobs, and the investigation. -/
structure Api where
  world : World
  investigation : InvestigationRecord
  deriving DecidableEq

/-- What stays the same over a history: the settings, the digest of a plan snapshot, the size check
of a configuration, and how a float is written. -/
structure Deployment where
  settings : Settings := {}
  digest : Digest
  fits : Entries → Bool
  repr : Float64 → String

inductive ApiRequest where
  | create (attempt : Attempt) (idempotencyKey : String)
  | results (runId : String) (request : GenericExperimentResultIngestRequest) (now : Instant)
  | ingest (runId : String) (clock : Clock) (directory : RunDirectory)
  | cancel (runId : String) (live : LiveAnswer) (answer : CancelAnswer) (now : Instant)
  | hypothesis (request : InvestigationHypothesisCreateRequest) (stamp : Stamp)
  | plan (request : InvestigationPlanCreateRequest) (stamp : Stamp)
  | approve (request : InvestigationPlanApproveRequest) (stamp : Stamp)
      (registry : WorkflowRegistry) (preflight : WorkflowRegistryEntry → ExecutionPreflightResult)
  | launch (request : InvestigationRunCreateRequest) (registry : WorkflowRegistry)
      (surroundings : Surroundings) (now : Instant)
  | claim (request : InvestigationClaimCreateRequest) (stamp : Stamp)
      (digestOnDisk : String → String → Option String)

namespace Api

/-- Save the copy of a run, as the routes do after they computed it. -/
def saveRun (api : Api) (record : RunRecord) : Except Failure RunRecord × Api :=
  match api.world.store.saveRun record with
  | .error clash => (.error (.raised clash.message), api)
  | .ok store => (.ok record, { api with world := { api.world with store := store } })

def modifyStore (api : Api) (f : RunStore → RunStore) : Api :=
  { api with world := { api.world with store := f api.world.store } }

def ingestGenericExperimentResults (runId : String)
    (request : GenericExperimentResultIngestRequest) (now : Instant) : Tx Api Failure RunRecord :=
  fun api =>
    match api.world.store.getRun runId with
    | none => (.error (notFound "run not found"), api)
    | some record =>
      match reportResults request now record with
      | .error failure => (.error failure, api)
      | .ok updated =>
        match api.saveRun updated with
        | (.error failure, api) => (.error failure, api)
        | (.ok updated, api) =>
          (.ok updated, api.modifyStore fun store =>
            let artifacts := mergeArtifactRefs runId (store.getArtifacts runId) request.artifactRefs
              record.manifest.expectedArtifacts
            (store.saveArtifacts runId artifacts).appendLog runId
              { timestamp := now
                level := "INFO"
                message := "generic experiment results ingested"
                payload := [("terminal_status", text request.terminalStatus.text),
                  ("artifact_count", .scalar (.int request.artifactRefs.length))] })

def ingestRunArtifactBundle (runId : String) (clock : Clock) (directory : RunDirectory) :
    Tx Api Failure (RunRecord × Option TerminalBundle) := fun api =>
  match api.world.store.getRun runId with
  | none => (.error (notFound "run not found"), api)
  | some record =>
    if record.artifactBundleVerified then (.ok (record, none), api)
    else
      match loadTerminalBundle clock directory record with
      | .error failure => (.error (bundleFailure failure), api)
      | .ok bundle =>
        match api.saveRun (verifyBundle bundle record) with
        | (.error failure, api) => (.error failure, api)
        | (.ok updated, api) =>
          (.ok (updated, some bundle), api.modifyStore fun store =>
            (store.saveArtifacts runId bundle.artifacts).appendLog runId
              { timestamp := bundle.status.updatedAt
                level := "INFO"
                message := "terminal artifact bundle ingested"
                payload := [("terminal_status", text bundle.status.status.text),
                  ("artifact_count", .scalar (.int bundle.refs.length))] })

def cancelRun (runId : String) (live : LiveAnswer) (answer : CancelAnswer) (now : Instant) :
    Tx Api Failure RunRecord := fun api =>
  match api.world.store.getRun runId with
  | none => (.error (notFound "run not found"), api)
  | some record =>
    match checkCancel record live answer with
    | .return record => (.ok record, api)
    | .fail failure => (.error failure, api)
    | .transition =>
      match api.world.store.transitionRunStatus runId cancellable (cancelledStatus runId now) with
      | (none, _) => (.error (notFound "run not found"), api)
      | (some updated, store) =>
        (.ok updated, { api with world := { api.world with store := store } })

def create (attempt : Attempt) (idempotencyKey : String) : Tx Api Failure RunRecord := fun api =>
  let (answer, world) := attempt.serve idempotencyKey api.world
  (answer, { api with world := world })

def investigationRuns (api : Api) : List RunRecord :=
  api.investigation.runIds.filterMap api.world.store.getRun

/-- Save what a request makes of the investigation. -/
def revise (compute : InvestigationRecord → Except Failure InvestigationRecord) :
    Tx Api Failure InvestigationRecord := fun api =>
  match compute api.investigation with
  | .error failure => (.error failure, api)
  | .ok updated => (.ok updated, { api with investigation := updated })

/-- The run of a launch, once its checks have passed. -/
def startRun (deployment : Deployment) (registry : WorkflowRegistry) (surroundings : Surroundings)
    (launch : LaunchPlan) : Tx Api Failure RunRecord := fun api =>
  match launchRequest deployment.fits api.investigation launch with
  | .error failure => (.error failure, api)
  | .ok runRequest =>
    let (answer, world) := buildGenericRunRecord registry deployment.settings runRequest
      (launchLineage api.investigation launch) (some (launchKey launch)) surroundings api.world
    (answer, { api with world := world })

def launchInvestigationRun (deployment : Deployment) (request : InvestigationRunCreateRequest)
    (registry : WorkflowRegistry) (surroundings : Surroundings) (now : Instant) :
    Tx Api Failure (LaunchPlan × RunRecord) := fun api =>
  match checkLaunch deployment.digest request api.investigation api.investigationRuns with
  | .error failure => (.error failure, api)
  | .ok launch =>
    match startRun deployment registry surroundings launch api with
    | (.error failure, api) => (.error failure, api)
    | (.ok run, api) =>
      (.ok (launch, run),
        { api with investigation := recordLaunch now run.runId api.investigation })

def step (deployment : Deployment) (api : Api) : ApiRequest → Api
  | .create attempt key => (create attempt key api).2
  | .results runId request now => (ingestGenericExperimentResults runId request now api).2
  | .ingest runId clock directory => (ingestRunArtifactBundle runId clock directory api).2
  | .cancel runId live answer now => (cancelRun runId live answer now api).2
  | .hypothesis request stamp =>
    (revise (addInvestigationHypothesis deployment.settings request stamp) api).2
  | .plan request stamp =>
    (revise (createInvestigationPlan deployment.settings request stamp) api).2
  | .approve request stamp registry preflight =>
    (revise (fun investigation => do
      let updated ← approveInvestigationPlan deployment.digest registry preflight
        deployment.settings request stamp investigation
      .ok (updated.getD investigation)) api).2
  | .launch request registry surroundings now =>
    (launchInvestigationRun deployment request registry surroundings now api).2
  | .claim request stamp digestOnDisk =>
    (revise (recordInvestigationClaim deployment.settings
      ⟨api.world.store, digestOnDisk, deployment.repr⟩ request stamp) api).2

/-! ## What a request makes of the stored runs -/

def WellKeyed (api : Api) : Prop :=
  ∀ runId run, api.world.store.getRun runId = some run → run.runId = runId

def verifiedBy (api : Api) : ApiRequest → Option (String × TerminalBundle)
  | .ingest runId clock directory =>
    match (ingestRunArtifactBundle runId clock directory api).1 with
    | .ok (_, some bundle) => some (runId, bundle)
    | _ => none
  | _ => none

inductive RunChange (deployment : Deployment) (api : Api) (runId : String) (run : RunRecord) :
    ApiRequest → Prop
  | kept {request : ApiRequest} (h : api.world.store.getRun runId = some run) :
      RunChange deployment api runId run request
  | created {attempt : Attempt} {key : String} {creation : Accepted}
      (hAccept : attempt.accept key = .ok creation) (hId : runId = creation.record.runId)
      (hRun : Submitted creation.record run) :
      RunChange deployment api runId run (.create attempt key)
  | launched {request : InvestigationRunCreateRequest} {registry : WorkflowRegistry}
      {surroundings : Surroundings} {now : Instant} {launch : LaunchPlan}
      {runRequest : GenericExperimentRunRequest} {creation : Accepted}
      (hCheck : checkLaunch deployment.digest request api.investigation api.investigationRuns =
        .ok launch)
      (hAccept : acceptGeneric registry deployment.settings runRequest
        (launchLineage api.investigation launch) (some (launchKey launch)) surroundings =
          .ok creation)
      (hId : runId = creation.record.runId) (hRun : Submitted creation.record run) :
      RunChange deployment api runId run (.launch request registry surroundings now)
  | reported {request : GenericExperimentResultIngestRequest} {now : Instant} {old : RunRecord}
      (hOld : api.world.store.getRun runId = some old)
      (hReport : reportResults request now old = .ok run) :
      RunChange deployment api runId run (.results runId request now)
  | verified {clock : Clock} {directory : RunDirectory} {old : RunRecord} {bundle : TerminalBundle}
      (hOld : api.world.store.getRun runId = some old)
      (hLoad : loadTerminalBundle clock directory old = .ok bundle)
      (hBy : api.verifiedBy (.ingest runId clock directory) = some (runId, bundle))
      (hRun : run = verifyBundle bundle old) :
      RunChange deployment api runId run (.ingest runId clock directory)
  | cancelled {live : LiveAnswer} {answer : CancelAnswer} {now : Instant} {old : RunRecord}
      (hOld : api.world.store.getRun runId = some old) (hState : old.status.status ∈ cancellable)
      (hRun : run = { old with updatedAt := now, status := cancelledStatus runId now }) :
      RunChange deployment api runId run (.cancel runId live answer now)

variable {deployment : Deployment} {api : Api} {record : RunRecord}

section Steps

variable {runId other : String} {run : RunRecord}

theorem getRun_saveRun (h : (api.saveRun record).2.world.store.getRun runId = some run) :
    api.world.store.getRun runId = some run ∨ runId = record.runId ∧ run = record := by
  unfold saveRun at h
  cases hSave : api.world.store.saveRun record with
  | error clash =>
    rw [hSave] at h
    exact .inl h
  | ok store =>
    obtain ⟨-, rfl⟩ := RunStore.saveRun_eq_ok_iff.mp hSave
    rw [hSave] at h
    rw [RunStore.getRun_putRun] at h
    split at h
    next hId => exact .inr ⟨hId, (Option.some.inj h).symm⟩
    · exact .inl h

variable {now : Instant}

theorem runChange_results {request : GenericExperimentResultIngestRequest}
    (hKeyed : api.WellKeyed)
    (h : (ingestGenericExperimentResults other request now api).2.world.store.getRun runId =
      some run) :
    RunChange deployment api runId run (.results other request now) := by
  unfold ingestGenericExperimentResults at h
  cases hOld : api.world.store.getRun other with
  | none =>
    rw [hOld] at h
    exact .kept h
  | some old =>
    rw [hOld] at h
    dsimp only at h
    cases hReport : reportResults request now old with
    | error failure =>
      rw [hReport] at h
      exact .kept h
    | ok updated =>
      rw [hReport] at h
      dsimp only at h
      have hSaved : (api.saveRun updated).2.world.store.getRun runId = some run := by
        split at h
        next hSame => rwa [hSame]
        next hSame =>
          rw [hSame]
          exact h
      rcases getRun_saveRun hSaved with hKept | ⟨hId, rfl⟩
      · exact .kept hKept
      · have hSame : run.runId = old.runId := by
          obtain ⟨-, h⟩ := of_check hReport
          exact Except.ok.inj h ▸ rfl
        obtain rfl : runId = other := by rw [hId, hSame, hKeyed other old hOld]
        exact .reported hOld hReport

theorem runChange_ingest {clock : Clock} {directory : RunDirectory} (hKeyed : api.WellKeyed)
    (h : (ingestRunArtifactBundle other clock directory api).2.world.store.getRun runId =
      some run) :
    RunChange deployment api runId run (.ingest other clock directory) := by
  have hBy (bundle : TerminalBundle) : api.verifiedBy (.ingest other clock directory) =
      some (other, bundle) ↔ ∃ run, (ingestRunArtifactBundle other clock directory api).1 =
        .ok (run, some bundle) := by
    unfold verifiedBy
    dsimp only
    split
    next run found hFound => simp [hFound, eq_comm]
    next hNone =>
      refine iff_of_false nofun ?_
      rintro ⟨run, hRun⟩
      exact hNone run bundle hRun
  unfold ingestRunArtifactBundle at h hBy
  cases hOld : api.world.store.getRun other with
  | none =>
    rw [hOld] at h
    exact .kept h
  | some old =>
    rw [hOld] at h hBy
    dsimp only at h hBy
    by_cases hFlag : old.artifactBundleVerified = true
    · rw [if_pos hFlag] at h
      exact .kept h
    · rw [if_neg hFlag] at h hBy
      cases hLoad : loadTerminalBundle clock directory old with
      | error failure =>
        rw [hLoad] at h
        exact .kept h
      | ok bundle =>
        rw [hLoad] at h hBy
        dsimp only at h hBy
        unfold saveRun at h hBy
        cases hSave : api.world.store.saveRun (verifyBundle bundle old) with
        | error clash =>
          rw [hSave] at h
          exact .kept h
        | ok store =>
          rw [hSave] at h hBy
          obtain ⟨-, rfl⟩ := RunStore.saveRun_eq_ok_iff.mp hSave
          replace h : (api.world.store.putRun (verifyBundle bundle old)).getRun runId =
            some run := h
          rw [RunStore.getRun_putRun] at h
          split at h
          next hId =>
            obtain rfl := Option.some.inj h
            obtain rfl : runId = other := hId.trans (hKeyed other old hOld)
            exact .verified hOld hLoad ((hBy bundle).mpr ⟨_, rfl⟩) rfl
          · exact .kept h

theorem runChange_cancel {live : LiveAnswer} {answer : CancelAnswer}
    (h : (cancelRun other live answer now api).2.world.store.getRun runId = some run) :
    RunChange deployment api runId run (.cancel other live answer now) := by
  unfold cancelRun RunStore.transitionRunStatus at h
  cases hOld : api.world.store.getRun other with
  | none =>
    rw [hOld] at h
    exact .kept h
  | some old =>
    rw [hOld] at h
    dsimp only at h
    split at h
    · exact .kept h
    · exact .kept h
    · by_cases hState : old.status.status ∈ cancellable
      · rw [if_neg (not_not.mpr hState)] at h
        replace h : (Dict.set other { old with
          updatedAt := now, status := cancelledStatus other now }
            api.world.store.runs).lookup runId = some run := h
        rw [Dict.lookup_set] at h
        split at h
        next hId =>
          subst hId
          exact .cancelled hOld hState (Option.some.inj h).symm
        · exact .kept h
      · rw [if_pos hState] at h
        exact .kept h

variable {registry : WorkflowRegistry} {surroundings : Surroundings}

theorem runChange_launch {request : InvestigationRunCreateRequest}
    (h : (launchInvestigationRun deployment request registry surroundings now
      api).2.world.store.getRun runId = some run) :
    RunChange deployment api runId run (.launch request registry surroundings now) := by
  unfold launchInvestigationRun at h
  cases hCheck : checkLaunch deployment.digest request api.investigation api.investigationRuns with
  | error failure =>
    rw [hCheck] at h
    exact .kept h
  | ok launch =>
    rw [hCheck] at h
    dsimp only at h
    have hStarted : (startRun deployment registry surroundings launch
        api).2.world.store.getRun runId = some run := by
      split at h
      next hSame => rwa [hSame]
      next hSame =>
        rw [hSame]
        exact h
    unfold startRun at hStarted
    split at hStarted
    · exact .kept hStarted
    next runRequest hRequest =>
      rcases getRun_createFrom hStarted with hKept | ⟨creation, hAccept, hId, hRun⟩
      · exact .kept hKept
      · exact .launched hCheck hAccept hId hRun

theorem world_revise {compute : InvestigationRecord → Except Failure InvestigationRecord} :
    (revise compute api).2.world = api.world := by
  unfold revise
  split <;> rfl

theorem investigation_startRun
    {launch : LaunchPlan} :
    (startRun deployment registry surroundings launch api).2.investigation = api.investigation := by
  unfold startRun
  split <;> rfl

/-- A launch that succeeds passed its checks and records its run; one that fails leaves the
investigation as it is. -/
theorem investigation_launch (request : InvestigationRunCreateRequest)
    (registry : WorkflowRegistry) (surroundings : Surroundings) (now : Instant) :
    match launchInvestigationRun deployment request registry surroundings now api with
    | (.ok (launch, run), api') =>
      checkLaunch deployment.digest request api.investigation api.investigationRuns = .ok launch ∧
        (startRun deployment registry surroundings launch api).1 = .ok run ∧
        api'.investigation = recordLaunch now run.runId api.investigation
    | (.error _, api') => api'.investigation = api.investigation := by
  unfold launchInvestigationRun
  cases hCheck : checkLaunch deployment.digest request api.investigation api.investigationRuns with
  | error failure => rfl
  | ok launch =>
    have hSame := @investigation_startRun deployment api registry surroundings launch
    dsimp only
    cases hStart : startRun deployment registry surroundings launch api with
    | mk answer api' =>
      rw [hStart] at hSame
      cases answer with
      | error failure => exact hSame
      | ok run => exact ⟨rfl, by rw [hStart], congrArg (recordLaunch now run.runId) hSame⟩

theorem getRun_of_startRun {api' : Api}
    {launch : LaunchPlan}
    (h : api.startRun deployment registry surroundings launch = (.ok run, api'))
    (hFree : api.world.store.getRunByIdempotencyKey (launchKey launch) = none) :
    run.sourceExecutionId = some launch.execution.executionId ∧
      api'.investigation = api.investigation ∧
      ∀ runId, api'.world.store.getRun runId =
        if runId = run.runId then some run else api.world.store.getRun runId := by
  unfold Api.startRun at h
  cases hRequest : launchRequest deployment.fits api.investigation launch with
  | error failure =>
    rw [hRequest] at h
    cases h
  | ok runRequest =>
    rw [hRequest] at h
    dsimp only at h
    generalize hBuild : buildGenericRunRecord registry deployment.settings runRequest
      (launchLineage api.investigation launch) (some (launchKey launch)) surroundings api.world =
        built at h
    obtain ⟨answer, world⟩ := built
    obtain ⟨rfl, rfl⟩ := Prod.mk.inj h
    unfold buildGenericRunRecord at hBuild
    cases hAccept : acceptGeneric registry deployment.settings runRequest
        (launchLineage api.investigation launch) (some (launchKey launch)) surroundings with
    | error failure =>
      rw [hAccept, createFrom_of_refused hFree] at hBuild
      cases hBuild
    | ok creation =>
      obtain ⟨workflow, configPayload, -, -, hGeneric⟩ := acceptGeneric_ok hAccept
      have hKey : creation.record.idempotencyKey = some (launchKey launch) := hGeneric ▸ rfl
      have hLineage : creation.record.sourceExecutionId = some launch.execution.executionId :=
        hGeneric ▸ rfl
      rw [hAccept, createFrom_of_accepted hFree] at hBuild
      obtain ⟨⟨submission, updatedAt, hRun⟩, hRuns⟩ :=
        getRun_of_persistAndSubmit hKey hFree hBuild
      refine ⟨?_, rfl, hRuns⟩
      rw [hRun]
      exact hLineage

theorem runChange_step (hKeyed : api.WellKeyed) {request : ApiRequest}
    (h : (step deployment api request).world.store.getRun runId = some run) :
    RunChange deployment api runId run request := by
  cases request with
  | create attempt key =>
    replace h : (attempt.serve key api.world).2.store.getRun runId = some run := h
    rw [serve_eq] at h
    rcases getRun_createFrom h with hKept | ⟨creation, hAccept, hId, hRun⟩
    · exact .kept hKept
    · exact .created hAccept hId hRun
  | results other request now => exact runChange_results hKeyed h
  | ingest other clock directory => exact runChange_ingest hKeyed h
  | cancel other live answer now => exact runChange_cancel h
  | hypothesis request stamp =>
    unfold step at h
    rw [world_revise] at h
    exact .kept h
  | plan request stamp =>
    unfold step at h
    rw [world_revise] at h
    exact .kept h
  | approve request stamp registry preflight =>
    unfold step at h
    rw [world_revise] at h
    exact .kept h
  | launch request registry surroundings now => exact runChange_launch h
  | claim request stamp digestOnDisk =>
    unfold step at h
    rw [world_revise] at h
    exact .kept h

end Steps

/-! ## What a request makes of the investigation -/

def launchedBy (deployment : Deployment) (api : Api) :
    ApiRequest → Option (LaunchPlan × RunRecord)
  | .launch request registry surroundings now =>
    (launchInvestigationRun deployment request registry surroundings now api).1.toOption
  | _ => none

/-- How the investigation after a request comes about. -/
inductive InvestigationChange (deployment : Deployment) (api : Api) :
    ApiRequest → InvestigationRecord → Prop
  | kept {request : ApiRequest} (h : api.launchedBy deployment request = none) :
      InvestigationChange deployment api request api.investigation
  | hypothesis {request : InvestigationHypothesisCreateRequest} {stamp : Stamp}
      {updated : InvestigationRecord}
      (h : addInvestigationHypothesis deployment.settings request stamp api.investigation =
        .ok updated) :
      InvestigationChange deployment api (.hypothesis request stamp) updated
  | plan {request : InvestigationPlanCreateRequest} {stamp : Stamp}
      {updated : InvestigationRecord}
      (h : createInvestigationPlan deployment.settings request stamp api.investigation =
        .ok updated) :
      InvestigationChange deployment api (.plan request stamp) updated
  | approve {request : InvestigationPlanApproveRequest} {stamp : Stamp}
      {registry : WorkflowRegistry} {preflight : WorkflowRegistryEntry → ExecutionPreflightResult}
      {updated : InvestigationRecord}
      (h : approveInvestigationPlan deployment.digest registry preflight deployment.settings request
        stamp api.investigation = .ok (some updated)) :
      InvestigationChange deployment api (.approve request stamp registry preflight) updated
  | launch {request : InvestigationRunCreateRequest} {registry : WorkflowRegistry}
      {surroundings : Surroundings} {now : Instant} {launch : LaunchPlan} {run : RunRecord}
      (hCheck : checkLaunch deployment.digest request api.investigation api.investigationRuns =
        .ok launch)
      (hStart : (startRun deployment registry surroundings launch api).1 = .ok run)
      (hBy : api.launchedBy deployment (.launch request registry surroundings now) =
        some (launch, run)) :
      InvestigationChange deployment api (.launch request registry surroundings now)
        (recordLaunch now run.runId api.investigation)
  | claim {request : InvestigationClaimCreateRequest} {stamp : Stamp}
      {digestOnDisk : String → String → Option String} {updated : InvestigationRecord}
      (h : recordInvestigationClaim deployment.settings
        ⟨api.world.store, digestOnDisk, deployment.repr⟩ request stamp api.investigation =
          .ok updated) :
      InvestigationChange deployment api (.claim request stamp digestOnDisk) updated

section Steps

theorem investigation_saveRun : (api.saveRun record).2.investigation = api.investigation := by
  unfold saveRun
  split <;> rfl

theorem investigation_results (runId : String) (request : GenericExperimentResultIngestRequest)
    (now : Instant) : (ingestGenericExperimentResults runId request now api).2.investigation =
      api.investigation := by
  unfold ingestGenericExperimentResults
  split
  · rfl
  · split
    · rfl
    next updated _ =>
      have hSaved := @investigation_saveRun api updated
      split
      next hSame => rwa [hSame] at hSaved
      next hSame =>
        rw [hSame] at hSaved
        exact hSaved

theorem investigation_ingest (runId : String) (clock : Clock) (directory : RunDirectory) :
    (ingestRunArtifactBundle runId clock directory api).2.investigation = api.investigation := by
  unfold ingestRunArtifactBundle
  split
  · rfl
  next old _ =>
    split
    · rfl
    · split
      · rfl
      next bundle _ =>
        have hSaved := @investigation_saveRun api (verifyBundle bundle old)
        split
        next hSame => rwa [hSame] at hSaved
        next hSame =>
          rw [hSame] at hSaved
          exact hSaved

theorem investigation_cancel (runId : String) (live : LiveAnswer) (answer : CancelAnswer)
    (now : Instant) :
    (cancelRun runId live answer now api).2.investigation = api.investigation := by
  unfold cancelRun
  split
  · rfl
  · split
    · rfl
    · rfl
    · split <;> rfl

theorem investigationChange_step (request : ApiRequest) :
    InvestigationChange deployment api request (step deployment api request).investigation := by
  cases request with
  | create attempt key => exact .kept rfl
  | results runId request now =>
    have hSame := @investigation_results api runId request now
    show InvestigationChange _ _ _ (ingestGenericExperimentResults runId request now
      api).2.investigation
    rw [hSame]
    exact .kept rfl
  | ingest runId clock directory =>
    have hSame := @investigation_ingest api runId clock directory
    show InvestigationChange _ _ _ (ingestRunArtifactBundle runId clock directory
      api).2.investigation
    rw [hSame]
    exact .kept rfl
  | cancel runId live answer now =>
    have hSame := @investigation_cancel api runId live answer now
    show InvestigationChange _ _ _ (cancelRun runId live answer now api).2.investigation
    rw [hSame]
    exact .kept rfl
  | hypothesis request stamp =>
    unfold step revise
    dsimp only
    split
    · exact .kept rfl
    next h => exact .hypothesis h
  | plan request stamp =>
    unfold step revise
    dsimp only
    split
    · exact .kept rfl
    next h => exact .plan h
  | approve request stamp registry preflight =>
    unfold step revise
    dsimp only
    split
    · exact .kept rfl
    next h =>
      obtain ⟨saved, hSaved, h⟩ := of_bind h
      obtain rfl := Except.ok.inj h
      cases saved with
      | none => exact .kept rfl
      | some updated => exact .approve hSaved
  | launch request registry surroundings now =>
    have hLaunch := @investigation_launch deployment api request registry
      surroundings now
    show InvestigationChange _ _ _ (launchInvestigationRun deployment request registry surroundings
      now api).2.investigation
    cases hOutcome : launchInvestigationRun deployment request registry surroundings now api with
    | mk answer api' =>
      rw [hOutcome] at hLaunch
      cases answer with
      | error failure =>
        rw [hLaunch]
        exact .kept (by rw [launchedBy, hOutcome]; rfl)
      | ok launched =>
        obtain ⟨hCheck, hStart, hSame⟩ := hLaunch
        rw [hSame]
        exact .launch hCheck hStart (by rw [launchedBy, hOutcome]; rfl)
  | claim request stamp digestOnDisk =>
    unfold step revise
    dsimp only
    split
    · exact .kept rfl
    next h => exact .claim h

variable {I : List (String × RunRecord) → Prop}

theorem runs_saveRun
    (hSet : ∀ runId run runs, I runs → I (Dict.set runId run runs)) (h : I api.world.store.runs) :
    I (api.saveRun record).2.world.store.runs := by
  unfold saveRun
  cases hSave : api.world.store.saveRun record with
  | error clash => exact h
  | ok store =>
    obtain ⟨-, rfl⟩ := RunStore.saveRun_eq_ok_iff.mp hSave
    exact hSet _ _ _ h

theorem runs_step
    (hSet : ∀ runId run runs, I runs → I (Dict.set runId run runs)) (h : I api.world.store.runs)
    (request : ApiRequest) : I (step deployment api request).world.store.runs := by
  cases request with
  | create attempt key =>
    show I (attempt.serve key api.world).2.store.runs
    rw [serve_eq]
    exact runs_createFrom (fun _ _ _ => hSet _ _ _) h
  | results other request now =>
    show I (ingestGenericExperimentResults other request now api).2.world.store.runs
    unfold ingestGenericExperimentResults
    split
    · exact h
    · dsimp only
      split
      · exact h
      next updated _ =>
        have hSaved := @runs_saveRun _ updated _ hSet h
        split
        next hSame => rwa [hSame] at hSaved
        next hSame =>
          rw [hSame] at hSaved
          exact hSaved
  | ingest other clock directory =>
    show I (ingestRunArtifactBundle other clock directory api).2.world.store.runs
    unfold ingestRunArtifactBundle
    split
    · exact h
    next old _ =>
      split
      · exact h
      · split
        · exact h
        next bundle _ =>
          have hSaved := @runs_saveRun _ (verifyBundle bundle old) _ hSet h
          split
          next hSame => rwa [hSame] at hSaved
          next hSame =>
            rw [hSame] at hSaved
            exact hSaved
  | cancel other live answer now =>
    show I (cancelRun other live answer now api).2.world.store.runs
    unfold cancelRun
    cases hOld : api.world.store.getRun other with
    | none => exact h
    | some old =>
      dsimp only
      cases checkCancel old live answer with
      | «return» record => exact h
      | fail failure => exact h
      | transition =>
        have hRuns : I (api.world.store.transitionRunStatus other cancellable
            (cancelledStatus other now)).2.runs := by
          unfold RunStore.transitionRunStatus
          rw [hOld]
          dsimp only
          split
          · exact h
          · exact hSet _ _ _ h
        dsimp only
        split
        · exact h
        next hAnswer =>
          rw [hAnswer] at hRuns
          exact hRuns
  | hypothesis request stamp =>
    unfold step
    rw [world_revise]
    exact h
  | plan request stamp =>
    unfold step
    rw [world_revise]
    exact h
  | approve request stamp registry preflight =>
    unfold step
    rw [world_revise]
    exact h
  | launch request registry surroundings now =>
    show I (launchInvestigationRun deployment request registry surroundings now
      api).2.world.store.runs
    unfold launchInvestigationRun
    split
    · exact h
    next launch _ =>
      have hStarted : I (startRun deployment registry surroundings launch
          api).2.world.store.runs := by
        unfold startRun
        split
        · exact h
        · exact runs_createFrom (fun _ _ _ => hSet _ _ _) h
      split
      next hSame => rwa [hSame] at hStarted
      next hSame =>
        rw [hSame] at hStarted
        exact hStarted
  | claim request stamp digestOnDisk =>
    unfold step
    dsimp only
    rw [world_revise]
    exact h

theorem wellKeyed_step (hKeyed : api.WellKeyed) (request : ApiRequest) :
    (step deployment api request).WellKeyed := by
  intro runId run hStored
  cases runChange_step hKeyed hStored with
  | kept h => exact hKeyed runId run h
  | created hAccept hId hRun =>
    obtain ⟨submission, updatedAt, rfl⟩ := hRun
    exact hId.symm
  | launched hCheck hAccept hId hRun =>
    obtain ⟨submission, updatedAt, rfl⟩ := hRun
    exact hId.symm
  | @reported request now old hOld hReport =>
    obtain ⟨-, h⟩ := of_check hReport
    obtain rfl := Except.ok.inj h
    exact hKeyed runId old hOld
  | @verified clock directory old bundle hOld hLoad hBy hRun =>
    subst hRun
    exact hKeyed runId old hOld
  | @cancelled live answer now old hOld hState hRun =>
    subst hRun
    exact hKeyed runId old hOld

end Steps

end Api

def sampleDeployment : Deployment where
  digest := fun _ => "digest"
  fits := fun _ => true
  repr := fun _ => "1.0"

def sampleInvestigation : InvestigationRecord where
  investigationId := "investigation"
  createdAt := 0
  updatedAt := 0
  title := "Tabular study"
  researchQuestion := "Which model is better?"
  researchMode := .confirmatory
  submittedBy := "researcher"

def sampleAsset (name : String) : ImmutableAssetReference :=
  ⟨"s3://assets/" ++ name, "0000000000000000000000000000000000000000000000000000000000000000", none⟩

def sampleExecution : InvestigationExecutionSpec where
  executionId := "baseline"
  objective := "Fit the baseline."
  experimentType := "tabular"
  workloadId := "generic-tabular-benchmark"
  dataAccessScope := .train
  workspace :=
    { taskBundle := sampleAsset "task", sourceBundle := sampleAsset "source"
      command := ["python3", "main.py"] }
  budget := { maxWallclockMinutes := some 5 }
  artifactContract := ⟨["metrics.json"], []⟩
  evaluatorContract := {}

def sampleQuestion : InvestigationCreateRequest where
  researchQuestion := "Which model is better?"
  researchMode := .confirmatory
  hypotheses := ["The baseline is enough."]

def questionApi : Api :=
  ⟨{}, createInvestigation sampleDeployment.settings sampleQuestion ⟨0, "investigation"⟩
    fun _ => "h"⟩

/-- A plan with one execution is created and approved, and the execution is launched as run `a`. -/
def launchOf (execution : InvestigationExecutionSpec) : List ApiRequest :=
  let attempt := tabularAttempt "a" tabularReceipt
  [.plan { title := "Plan", rationale := "", hypothesisIds := ["h"], executions := [execution] }
      ⟨1, "plan"⟩,
    .approve { planId := "plan" } ⟨2, "approval"⟩ attempt.registry fun _ => { ready := true },
    .launch ⟨"approval", execution.executionId⟩ attempt.registry attempt.surroundings 3]

def sampleLaunch : List ApiRequest := launchOf sampleExecution

end Glasslab.WorkflowApi
