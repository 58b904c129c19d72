import Glasslab.Foundation.Machine
import Glasslab.WorkflowApi.Requests

/-!
# The freeze of a confirmatory investigation

Requests run one after the other. No single check freezes an investigation: hypotheses are refused
while an approval is active, approvals are refused once there are runs, and a launch compares
digests. Together they hold: after the first launch of a confirmatory investigation its hypotheses
and its approval stay, and in both modes every run of the investigation comes from a launch under
the approval that was active then, of a plan that had not changed, with its dependencies satisfied
(`confirmatory_freeze`).
-/

namespace Glasslab.WorkflowApi

open Foundation Machine List

def FrozenAfterLaunch (deployment : Deployment) (start : Api) (requests : List ApiRequest) : Prop :=
  ∀ before request after, requests = before ++ request :: after →
    ((exec (Api.step deployment) start before).launchedBy deployment request).isSome →
      start.investigation.researchMode = .confirmatory →
        let launched := (exec (Api.step deployment) start (before ++ [request])).investigation
        let later := (exec (Api.step deployment) start requests).investigation
        later.hypotheses = launched.hypotheses ∧
          later.activePlanApprovalId = launched.activePlanApprovalId ∧
          getActiveApproval later = getActiveApproval launched

/-- What a launch rests on, in the state it meets. -/
structure UnderApproval (deployment : Deployment) (api : Api) (launch : LaunchPlan)
    (run : RunRecord) : Prop where
  active : getActiveApproval api.investigation = some launch.approval
  plan : launch.plan ∈ api.investigation.plans ∧ launch.plan.planId = launch.approval.planId
  execution : launch.execution ∈ launch.plan.executions
  planSha256 : launch.approval.planSha256 =
    deployment.digest (buildPlanSnapshot api.investigation launch.plan)
  snapshot : deployment.digest.Injective →
    launch.approval.planSnapshot = buildPlanSnapshot api.investigation launch.plan
  dependencies : ∀ dependencyId ∈ launch.execution.dependsOn,
    ∃ runId ∈ api.investigation.runIds, ∃ dependency,
      api.world.store.getRun runId = some dependency ∧
        dependency.sourceApprovalId = some launch.approval.approvalId ∧
        dependency.sourceExecutionId = some dependencyId ∧ dependency.status.status = .succeeded
  lineage : run.sourceApprovalId = some launch.approval.approvalId ∧
    run.sourceExecutionId = some launch.execution.executionId ∧
    run.planSha256 = some launch.approval.planSha256

def EveryRunApproved (deployment : Deployment) (start : Api) (requests : List ApiRequest) : Prop :=
  ∀ runId ∈ (exec (Api.step deployment) start requests).investigation.runIds,
    ∃ before request after launch run, requests = before ++ request :: after ∧
      (exec (Api.step deployment) start before).launchedBy deployment request = some (launch, run) ∧
      run.runId = runId ∧
      UnderApproval deployment (exec (Api.step deployment) start before) launch run

/-- A run that is created otherwise has no key of a launch, and an approval has an id without a
colon, as `uuid4().hex` is. -/
def ApiRequest.Admissible : ApiRequest → Prop
  | .create _ key => ∀ approvalId executionId, key ≠ investigationKey approvalId executionId
  | .approve _ stamp _ _ => ':' ∉ stamp.id.toList
  | _ => True

def Confirmatory (api : Api) : Prop := api.investigation.researchMode = .confirmatory

/-- The investigation is a confirmatory one with the same frozen parts. -/
structure Frozen (launched : InvestigationRecord) (api : Api) : Prop where
  mode : Confirmatory api
  begun : api.investigation.runIds ≠ []
  approved : api.investigation.activePlanApprovalId ≠ none
  hypotheses : api.investigation.hypotheses = launched.hypotheses
  activePlanApprovalId : api.investigation.activePlanApprovalId = launched.activePlanApprovalId
  planApprovals : api.investigation.planApprovals = launched.planApprovals

variable {deployment : Deployment} {request : ApiRequest} {launch : LaunchPlan} {run : RunRecord}
  {api : Api}

section Freeze

variable {launched : InvestigationRecord}

theorem confirmatory_step (h : Confirmatory api) (request : ApiRequest) :
    Confirmatory (api.step deployment request) := by
  unfold Confirmatory at h ⊢
  have hChange := @Api.investigationChange_step deployment api request
  generalize (api.step deployment request).investigation = updated at hChange
  cases hChange with
  | kept hNone => exact h
  | hypothesis hAdd =>
    obtain ⟨-, hypothesis, rfl⟩ := addInvestigationHypothesis_ok hAdd
    exact h
  | plan hCreate =>
    rw [createInvestigationPlan_ok hCreate]
    exact h
  | approve hApprove =>
    obtain hNone | ⟨plan, planSha256, -, hSame⟩ := approveInvestigationPlan_ok hApprove
    · cases hNone
    · obtain rfl := Option.some.inj hSame
      exact h
  | launch hCheck hStart hBy => exact h
  | claim hRecord =>
    obtain ⟨references, -, rfl⟩ := recordInvestigationClaim_ok hRecord
    exact h

theorem frozen_step (h : Frozen launched api) (request : ApiRequest) :
    Frozen launched (api.step deployment request) := by
  suffices hKept : (api.step deployment request).investigation.runIds ≠ [] ∧
      (api.step deployment request).investigation.activePlanApprovalId =
        api.investigation.activePlanApprovalId ∧
      (api.step deployment request).investigation.hypotheses = api.investigation.hypotheses ∧
      (api.step deployment request).investigation.planApprovals =
        api.investigation.planApprovals by
    obtain ⟨hBegun, hActive, hHypotheses, hApprovals⟩ := hKept
    exact ⟨confirmatory_step h.mode request, hBegun, hActive.symm ▸ h.approved,
      hHypotheses.trans h.hypotheses, hActive.trans h.activePlanApprovalId,
      hApprovals.trans h.planApprovals⟩
  have hChange := @Api.investigationChange_step deployment api request
  generalize (api.step deployment request).investigation = updated at hChange ⊢
  cases hChange with
  | kept hNone => exact ⟨h.begun, rfl, rfl, rfl⟩
  | hypothesis hAdd => exact absurd ⟨h.mode, h.approved⟩ (addInvestigationHypothesis_ok hAdd).1
  | plan hCreate =>
    rw [createInvestigationPlan_ok hCreate]
    exact ⟨h.begun, rfl, rfl, rfl⟩
  | approve hApprove =>
    obtain hNone | ⟨plan, planSha256, hCheck, -⟩ := approveInvestigationPlan_ok hApprove
    · cases hNone
    · exact absurd ⟨h.mode, h.begun⟩ (checkApproval_ok hCheck).1
  | launch hCheck hStart hBy =>
    exact ⟨ne_nil_of_mem (mem_runIds_recordLaunch.mpr (.inr rfl)), rfl, rfl, rfl⟩
  | claim hRecord =>
    obtain ⟨references, -, rfl⟩ := recordInvestigationClaim_ok hRecord
    exact ⟨h.begun, rfl, rfl, rfl⟩

theorem frozen_of_launchedBy (hMode : Confirmatory api)
    (h : api.launchedBy deployment request = some (launch, run)) :
    Frozen (api.step deployment request).investigation (api.step deployment request) := by
  suffices hLaunched : (api.step deployment request).investigation.runIds ≠ [] ∧
      (api.step deployment request).investigation.activePlanApprovalId ≠ none from
    ⟨confirmatory_step hMode request, hLaunched.1, hLaunched.2, rfl, rfl, rfl⟩
  have hChange := @Api.investigationChange_step deployment api request
  generalize (api.step deployment request).investigation = updated at hChange ⊢
  cases hChange with
  | kept hNone =>
    rw [h] at hNone
    cases hNone
  | launch hCheck hStart hBy =>
    refine ⟨ne_nil_of_mem (mem_runIds_recordLaunch.mpr (.inr rfl)), ?_⟩
    show api.investigation.activePlanApprovalId ≠ none
    rw [(checkLaunch_ok hCheck).active]
    exact Option.some_ne_none _
  | _ => cases h

theorem frozenAfterLaunch (start : Api) (requests : List ApiRequest) :
    FrozenAfterLaunch deployment start requests := by
  rintro before request after rfl hLaunched hMode
  obtain ⟨⟨launch, run⟩, hBy⟩ := Option.isSome_iff_exists.mp hLaunched
  have hModeThen : Confirmatory (exec (Api.step deployment) start before) :=
    exec_invariant before (fun api request h => confirmatory_step h request) hMode
  have hFrozen := frozen_of_launchedBy hModeThen hBy
  generalize hState : (exec (Api.step deployment) start before).step deployment request = state
    at hFrozen
  have hKept : ∀ api request, Frozen state.investigation api →
      Frozen state.investigation (Api.step deployment api request) :=
    fun api request h => frozen_step h request
  have hLater := exec_invariant after hKept hFrozen
  rw [← hState, ← exec_cons, ← exec_append] at hLater
  rw [exec_append start before [request], exec_cons, exec_nil]
  refine ⟨hLater.hypotheses, hLater.activePlanApprovalId, ?_⟩
  unfold getActiveApproval
  rw [hLater.activePlanApprovalId, hLater.planApprovals]

end Freeze

/-! ## Where the runs come from -/

def LaunchedFor (investigation : InvestigationRecord) (run : RunRecord) : Prop :=
  ∃ approval executionId, getApproval investigation approval.approvalId = .ok approval ∧
    run.idempotencyKey = some (investigationKey approval.approvalId executionId) ∧
    run.sourceApprovalId = some approval.approvalId ∧ run.sourceExecutionId = some executionId ∧
    run.planSha256 = some approval.planSha256

/-- What holds between two requests. -/
structure Provenance (digest : Digest) (api : Api) : Prop where
  keyed : api.WellKeyed
  nodup : (api.world.store.runs.map Prod.fst).Nodup
  approvals : ∀ approval ∈ api.investigation.planApprovals,
    ':' ∉ approval.approvalId.toList ∧ approval.planSha256 = digest approval.planSnapshot
  runs : ∀ runId run, api.world.store.getRun runId = some run →
    LaunchedFor api.investigation run ∨
      ∀ approvalId executionId, run.idempotencyKey ≠ some (investigationKey approvalId executionId)

section Provenance

variable {runId approvalId : String} {approval : InvestigationPlanApprovalRecord}

theorem investigationKey_inj {executionId approvalId' executionId' : String}
    (h : ':' ∉ approvalId.toList) (h' : ':' ∉ approvalId'.toList)
    (hSame : investigationKey approvalId executionId = investigationKey approvalId' executionId') :
    approvalId = approvalId' ∧ executionId = executionId' := by
  have hLists := congrArg String.toList hSame
  simp only [investigationKey, String.toList_append, append_assoc] at hLists
  have hFields := append_cons_inj h h' (append_cancel_left hLists)
  exact ⟨String.toList_injective hFields.1, String.toList_injective hFields.2⟩

theorem getApproval_step (h : getApproval api.investigation approvalId = .ok approval)
    (request : ApiRequest) :
    getApproval (api.step deployment request).investigation approvalId = .ok approval := by
  have hChange := @Api.investigationChange_step deployment api request
  generalize (api.step deployment request).investigation = updated at hChange
  cases hChange with
  | kept hNone => exact h
  | hypothesis hAdd =>
    obtain ⟨-, hypothesis, rfl⟩ := addInvestigationHypothesis_ok hAdd
    exact h
  | plan hCreate =>
    rw [createInvestigationPlan_ok hCreate]
    exact h
  | approve hApprove =>
    obtain hNone | ⟨plan, planSha256, -, hSame⟩ := approveInvestigationPlan_ok hApprove
    · cases hNone
    · obtain rfl := Option.some.inj hSame
      rw [getApproval_eq_ok_iff] at h ⊢
      rw [List.find?_append, h]
      rfl
  | launch hCheck hStart hBy => exact h
  | claim hRecord =>
    obtain ⟨references, -, rfl⟩ := recordInvestigationClaim_ok hRecord
    exact h

theorem launchedFor_step (h : LaunchedFor api.investigation run) (request : ApiRequest) :
    LaunchedFor (api.step deployment request).investigation run := by
  obtain ⟨approval, executionId, hApproval, hRun⟩ := h
  exact ⟨approval, executionId, getApproval_step hApproval request, hRun⟩

theorem approvals_step (h : Provenance deployment.digest api) (hAdmissible : request.Admissible)
    (hMem : approval ∈ (api.step deployment request).investigation.planApprovals) :
    ':' ∉ approval.approvalId.toList ∧
      approval.planSha256 = deployment.digest approval.planSnapshot := by
  have hChange := @Api.investigationChange_step deployment api request
  generalize (api.step deployment request).investigation = updated at hChange hMem
  cases hChange with
  | kept hNone => exact h.approvals approval hMem
  | hypothesis hAdd =>
    obtain ⟨-, hypothesis, rfl⟩ := addInvestigationHypothesis_ok hAdd
    exact h.approvals approval hMem
  | plan hCreate =>
    rw [createInvestigationPlan_ok hCreate] at hMem
    exact h.approvals approval hMem
  | approve hApprove =>
    obtain hNone | ⟨plan, planSha256, hCheck, hSame⟩ := approveInvestigationPlan_ok hApprove
    · cases hNone
    · obtain rfl := Option.some.inj hSame
      rcases mem_append.mp hMem with hOld | hNew
      · exact h.approvals approval hOld
      · obtain rfl := mem_singleton.mp hNew
        exact ⟨hAdmissible, (checkApproval_ok hCheck).2.2.symm⟩
  | launch hCheck hStart hBy => exact h.approvals approval hMem
  | claim hRecord =>
    obtain ⟨references, -, rfl⟩ := recordInvestigationClaim_ok hRecord
    exact h.approvals approval hMem

variable {launchRequest : InvestigationRunCreateRequest} {registry : WorkflowRegistry}
  {surroundings : Surroundings}

theorem launchedFor_of_submitted {runRequest : GenericExperimentRunRequest} {creation : Accepted}
    (hCheck : checkLaunch deployment.digest launchRequest api.investigation api.investigationRuns =
      .ok launch)
    (hAccept : acceptGeneric registry deployment.settings runRequest
      (launchLineage api.investigation launch) (some (launchKey launch)) surroundings =
    .ok creation)
    (hRun : Submitted creation.record run) :
    run.idempotencyKey = some (launchKey launch) ∧
      run.sourceApprovalId = some launch.approval.approvalId ∧
      run.sourceExecutionId = some launch.execution.executionId ∧
      run.planSha256 = some launch.approval.planSha256 ∧ LaunchedFor api.investigation run := by
  obtain ⟨submission, updatedAt, rfl⟩ := hRun
  obtain ⟨workflow, configPayload, -, -, hRecord⟩ := acceptGeneric_ok hAccept
  have hApproval := (checkLaunch_ok hCheck).approval
  rw [← (approvalId_of_getApproval hApproval).1] at hApproval
  rw [hRecord]
  exact ⟨rfl, rfl, rfl, rfl, launch.approval, launch.execution.executionId, hApproval, rfl, rfl,
    rfl, rfl⟩

section

variable (h : Provenance deployment.digest api)
include h

theorem runs_lineage_step (hAdmissible : request.Admissible)
    (hStored : (api.step deployment request).world.store.getRun runId = some run) :
    LaunchedFor (api.step deployment request).investigation run ∨
      ∀ approvalId executionId,
        run.idempotencyKey ≠ some (investigationKey approvalId executionId) := by
  suffices hBefore : LaunchedFor api.investigation run ∨ ∀ approvalId executionId,
      run.idempotencyKey ≠ some (investigationKey approvalId executionId) from
    hBefore.imp_left fun hLaunched => launchedFor_step hLaunched request
  cases Api.runChange_step h.keyed hStored with
  | kept hOld => exact h.runs runId run hOld
  | @created attempt key creation hAccept hId hRun =>
    right
    intro approvalId executionId hSame
    obtain ⟨submission, updatedAt, rfl⟩ := hRun
    have hKey := accept_idempotencyKey hAccept
    exact hAdmissible approvalId executionId (Option.some.inj (hKey.symm.trans hSame))
  | launched hCheck hAccept hId hRun =>
    exact .inl (launchedFor_of_submitted hCheck hAccept hRun).2.2.2.2
  | @reported request now old hOld hReport =>
    obtain ⟨-, hReport⟩ := Raising.of_check hReport
    obtain rfl := Except.ok.inj hReport
    exact h.runs runId old hOld
  | @verified clock directory old bundle hOld hLoad hBy hRun =>
    subst hRun
    exact h.runs runId old hOld
  | @cancelled live answer now old hOld hState hRun =>
    subst hRun
    exact h.runs runId old hOld

theorem provenance_step (hAdmissible : request.Admissible) :
    Provenance deployment.digest (api.step deployment request) where
  keyed := Api.wellKeyed_step h.keyed request
  nodup := Api.runs_step (I := fun runs => (runs.map Prod.fst).Nodup)
    (fun _ _ _ => Dict.nodup_set) h.nodup request
  approvals _ := approvals_step h hAdmissible
  runs _ _ := runs_lineage_step h hAdmissible

section

variable (hCheck : checkLaunch deployment.digest launchRequest api.investigation
  api.investigationRuns = .ok launch)
include hCheck

section

variable (hStart : (Api.startRun deployment registry surroundings launch api).1 = .ok run)
include hStart

/-- The run that answers a launch has the lineage of the approval, also if it was there before. -/
theorem lineage_of_startRun :
    run.sourceApprovalId = some launch.approval.approvalId ∧
      run.sourceExecutionId = some launch.execution.executionId ∧
      run.planSha256 = some launch.approval.planSha256 := by
  have hApproval := (checkLaunch_ok hCheck).approval
  obtain ⟨hApprovalId, hApprovalMem⟩ := approvalId_of_getApproval hApproval
  -- A run that is stored under the key of the launch was launched for the same approval.
  have hStored (hFound : api.world.store.getRunByIdempotencyKey (launchKey launch) = some run) :
      run.sourceApprovalId = some launch.approval.approvalId ∧
        run.sourceExecutionId = some launch.execution.executionId ∧
        run.planSha256 = some launch.approval.planSha256 := by
    have hKey : run.idempotencyKey = some (launchKey launch) := by
      simpa using List.find?_some hFound
    obtain ⟨⟨runId, stored⟩, hEntry, rfl⟩ := mem_map.mp (mem_of_find?_eq_some hFound)
    rcases h.runs runId stored (Dict.lookup_of_mem h.nodup hEntry) with hLaunched | hNone
    · obtain ⟨approval, executionId, hFor, hRunKey, hSource, hExecution, hSha256⟩ := hLaunched
      have hSame := Option.some.inj (hRunKey.symm.trans hKey)
      have hColon := (h.approvals approval (approvalId_of_getApproval hFor).2).1
      obtain ⟨hId, rfl⟩ := investigationKey_inj hColon (h.approvals _ hApprovalMem).1 hSame
      rw [hId, hApprovalId, hApproval] at hFor
      obtain rfl := Except.ok.inj hFor
      exact ⟨hSource, hExecution, hSha256⟩
    · exact absurd hKey (hNone _ _)
  unfold Api.startRun at hStart
  split at hStart
  · cases hStart
  next runRequest _ =>
    obtain ⟨k, hKey, hFound⟩ | ⟨creation, hAccept, ⟨k, hKey, hFound⟩ | hRun⟩ := createFrom_ok hStart
    · obtain rfl := Option.some.inj hKey
      exact hStored hFound
    · obtain ⟨workflow, configPayload, -, -, hRecord⟩ := acceptGeneric_ok hAccept
      rw [hRecord] at hKey
      obtain rfl : launchKey launch = k := Option.some.inj hKey
      exact hStored hFound
    · obtain ⟨-, hSource, hExecution, hSha256, -⟩ := launchedFor_of_submitted hCheck hAccept hRun
      exact ⟨hSource, hExecution, hSha256⟩

theorem underApproval_of_launchable :
    UnderApproval deployment api launch run := by
  have hLaunch := checkLaunch_ok hCheck
  have hPlan := planId_of_getPlan hLaunch.plan
  constructor
  · unfold getActiveApproval
    rw [hLaunch.active]
    exact getApproval_eq_ok_iff.mp hLaunch.approval
  · exact ⟨hPlan.2, hPlan.1⟩
  · exact (executionId_of_getExecution hLaunch.execution).2
  · exact hLaunch.unchanged.symm
  · intro hInjective
    have hSha256 := (h.approvals _ (approvalId_of_getApproval hLaunch.approval).2).2
    exact hInjective (hSha256.symm.trans hLaunch.unchanged.symm)
  · intro dependencyId hMem
    obtain ⟨dependency, hDependency, hHolds⟩ := any_eq_true.mp (hLaunch.satisfied _ hMem)
    obtain ⟨runId, hRunId, hStored⟩ := mem_filterMap.mp hDependency
    obtain ⟨hSource, hExecution, hStatus⟩ := of_decide_eq_true hHolds
    exact ⟨runId, hRunId, dependency, hStored, hSource, hExecution, hStatus⟩
  · exact lineage_of_startRun h hCheck hStart

end

end

theorem runIds_step
    (hMem : runId ∈ (api.step deployment request).investigation.runIds) :
    runId ∈ api.investigation.runIds ∨
      ∃ launch run, api.launchedBy deployment request = some (launch, run) ∧ run.runId = runId ∧
        UnderApproval deployment api launch run := by
  have hChange := @Api.investigationChange_step deployment api request
  generalize (api.step deployment request).investigation = updated at hChange hMem
  cases hChange with
  | kept hNone => exact .inl hMem
  | hypothesis hAdd =>
    obtain ⟨-, hypothesis, rfl⟩ := addInvestigationHypothesis_ok hAdd
    exact .inl hMem
  | plan hCreate =>
    rw [createInvestigationPlan_ok hCreate] at hMem
    exact .inl hMem
  | approve hApprove =>
    obtain hNone | ⟨plan, planSha256, -, hSame⟩ := approveInvestigationPlan_ok hApprove
    · cases hNone
    · obtain rfl := Option.some.inj hSame
      exact .inl hMem
  | @launch launchRequest registry surroundings now launchPlan run hCheck hStart hBy =>
    rcases mem_runIds_recordLaunch.mp hMem with hOld | rfl
    · exact .inl hOld
    · exact .inr ⟨launchPlan, run, hBy, rfl, underApproval_of_launchable h hCheck hStart⟩
  | claim hRecord =>
    obtain ⟨references, -, rfl⟩ := recordInvestigationClaim_ok hRecord
    exact .inl hMem

end

theorem everyRunApproved {start : Api} (hStart : Provenance deployment.digest start)
    (hRuns : start.investigation.runIds = []) {requests : List ApiRequest}
    (hRequests : ∀ request ∈ requests, request.Admissible) :
    EveryRunApproved deployment start requests := by
  induction requests using List.reverseRecOn with
  | nil =>
    intro runId hMem
    rw [exec_nil, hRuns] at hMem
    cases hMem
  | append_singleton requests request ih =>
    have hBefore : ∀ request ∈ requests, request.Admissible :=
      fun other hOther => hRequests other (mem_append_left _ hOther)
    have hProvenance : Provenance deployment.digest (exec (Api.step deployment) start requests) :=
      (along_of_forall fun request hMem _ => hBefore request hMem).invariant
        (fun api request hAdmissible h => provenance_step h hAdmissible) hStart
    intro runId hMem
    rw [exec_append, exec_cons, exec_nil] at hMem
    rcases runIds_step hProvenance hMem with hOld | ⟨launch, run, hBy, hId, hUnder⟩
    · obtain ⟨before, other, after, launch, run, rfl, hBy, hId, hUnder⟩ := ih hBefore runId hOld
      exact ⟨before, other, after ++ [request], launch, run, by simp, hBy, hId, hUnder⟩
    · exact ⟨requests, request, [], launch, run, rfl, hBy, hId, hUnder⟩

end Provenance

/-- A new investigation, in whatever history of requests, is frozen by its first launch if it is
confirmatory, and has only runs that were approved. -/
theorem confirmatory_freeze (deployment : Deployment) (request : InvestigationCreateRequest)
    (stamp : Stamp) (hypothesisIds : Nat → String) (requests : List ApiRequest)
    (hRequests : ∀ request ∈ requests, request.Admissible) :
    let start : Api := ⟨{}, createInvestigation deployment.settings request stamp hypothesisIds⟩
    FrozenAfterLaunch deployment start requests ∧ EveryRunApproved deployment start requests := by
  intro start
  have hStart : Provenance deployment.digest start :=
    { keyed := fun runId run h => by cases h
      nodup := nodup_nil
      approvals := fun approval h => by cases h
      runs := fun runId run h => by cases h }
  exact ⟨frozenAfterLaunch start requests, everyRunApproved hStart rfl hRequests⟩

theorem confirmatory_freeze_launched :
    let start : Api := ⟨{}, createInvestigation sampleDeployment.settings sampleQuestion
      ⟨0, "investigation"⟩ fun _ => "h"⟩
    FrozenAfterLaunch sampleDeployment start sampleLaunch ∧
      EveryRunApproved sampleDeployment start sampleLaunch := by
  refine confirmatory_freeze sampleDeployment sampleQuestion ⟨0, "investigation"⟩ (fun _ => "h")
    sampleLaunch fun request hMem => ?_
  simp only [sampleLaunch, launchOf, mem_cons, not_mem_nil, or_false] at hMem
  rcases hMem with rfl | rfl | rfl
  · trivial
  · show ':' ∉ "approval".toList
    decide
  · trivial

end Glasslab.WorkflowApi
