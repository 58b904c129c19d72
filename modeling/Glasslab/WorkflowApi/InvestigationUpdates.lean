import Glasslab.Foundation.Interleaving
import Glasslab.WorkflowApi.Requests

/-!
# Concurrent updates of one investigation

Any number of requests on one investigation run at once. Each reads the whole record, computes, and
saves the whole record; nothing compares what is saved over with what was read. In the runs in which
every save meets the record its request has read, the record only grows, so that everything a
response reported stays and a confirmatory approval never follows a launch (`updates_never_lost`).
-/

namespace Glasslab.WorkflowApi

open Foundation Machine List Raising

inductive InvestigationCall where
  | hypothesis (request : InvestigationHypothesisCreateRequest) (stamp : Stamp)
  | plan (request : InvestigationPlanCreateRequest) (stamp : Stamp)
  | approve (request : InvestigationPlanApproveRequest) (stamp : Stamp)
      (registry : WorkflowRegistry) (preflight : WorkflowRegistryEntry → ExecutionPreflightResult)
  | launch (request : InvestigationRunCreateRequest) (registry : WorkflowRegistry)
      (surroundings : Surroundings) (now : Instant)
  | claim (request : InvestigationClaimCreateRequest) (stamp : Stamp)
      (digestOnDisk : String → String → Option String)

/-- What a request that succeeds answers. -/
inductive Response where
  | hypothesisAdded (investigation : InvestigationRecord)
  | planCreated (plan : InvestigationPlanRecord)
  | approved (investigation : InvestigationRecord)
  /-- The plan was approved already, and nothing is saved. -/
  | approvalStands (investigation : InvestigationRecord)
  | launched (investigation : InvestigationRecord) (launch : LaunchPlan) (run : RunRecord)
  | claimRecorded (claim : InvestigationClaimRecord)

/-- What a request computes from the copy it has read: the record it saves, if any, and its answer.
A launch creates its run meanwhile. -/
def InvestigationCall.compute (deployment : Deployment) (world : World)
    (copy : InvestigationRecord) :
    InvestigationCall → Except Failure (Option InvestigationRecord × Response) × World
  | .hypothesis request stamp =>
    ((addInvestigationHypothesis deployment.settings request stamp copy).map fun updated =>
      (some updated, .hypothesisAdded updated), world)
  | .plan request stamp =>
    ((createInvestigationPlan deployment.settings request stamp copy).map fun updated =>
      (some updated, .planCreated (planRecord deployment.settings request stamp copy)), world)
  | .approve request stamp registry preflight =>
    ((approveInvestigationPlan deployment.digest registry preflight deployment.settings
      request stamp
      copy).map fun
        | none => (none, .approvalStands copy)
        | some updated => (some updated, .approved updated), world)
  | .launch request registry surroundings now =>
    let (answer, api) := Api.launchInvestigationRun deployment request registry surroundings now
      ⟨world, copy⟩
    (answer.map fun (launchPlan, run) =>
      (some api.investigation, .launched api.investigation launchPlan run), api.world)
  | .claim request stamp digestOnDisk =>
    let evidence : Evidence := ⟨world.store, digestOnDisk, deployment.repr⟩
    (do
      let updated ← recordInvestigationClaim deployment.settings evidence request stamp copy
      let references ← request.evidence.mapM (checkEvidence evidence copy request.assessment)
      .ok (some updated, .claimRecorded (claimRecord deployment.settings request stamp references)),
      world)

/-- The state, and the answers that were given, in their order. -/
structure Ledger where
  api : Api
  responses : List Response := []

def Ledger.withWorld (ledger : Ledger) (world : World) : Ledger :=
  { ledger with api := { ledger.api with world := world } }

def Ledger.answer (ledger : Ledger) (response : Response) : Ledger :=
  { ledger with responses := ledger.responses ++ [response] }

/-- Where a request stands. -/
inductive InvestigationTask where
  | begin (call : InvestigationCall)
  | computing (call : InvestigationCall) (copy : InvestigationRecord)
  | save (copy updated : InvestigationRecord) (response : Response)
  /-- Anything that happens to the runs meanwhile. -/
  | elsewhere (change : World → World)
  | done

def InvestigationTask.next (deployment : Deployment) (ledger : Ledger) :
    InvestigationTask → Ledger × InvestigationTask
  | .begin call => (ledger, .computing call ledger.api.investigation)
  | .computing call copy =>
    match call.compute deployment ledger.api.world copy with
    | (.error _, world) => (ledger.withWorld world, .done)
    | (.ok (none, response), world) => ((ledger.withWorld world).answer response, .done)
    | (.ok (some updated, response), world) =>
      (ledger.withWorld world, .save copy updated response)
  | .save _ updated response =>
    (Ledger.answer { ledger with api := { ledger.api with investigation := updated } } response,
      .done)
  | .elsewhere change => (ledger.withWorld (change ledger.api.world), .done)
  | .done => (ledger, .done)

inductive Traffic where
  | request (call : InvestigationCall)
  | elsewhere (change : World → World)

def Traffic.enter : Traffic → InvestigationTask
  | .request call => .begin call
  | .elsewhere change => .elsewhere change

def investigationRequests (deployment : Deployment) : Program Ledger Traffic InvestigationTask :=
  ⟨Traffic.enter, InvestigationTask.next deployment⟩

/-- Everything of the earlier record is in the later one. -/
structure Contains (later earlier : InvestigationRecord) : Prop where
  hypotheses : earlier.hypotheses ⊆ later.hypotheses
  plans : earlier.plans ⊆ later.plans
  planApprovals : earlier.planApprovals ⊆ later.planApprovals
  runIds : earlier.runIds ⊆ later.runIds
  claims : earlier.claims ⊆ later.claims

/-- Everything an answer reports is in the record. -/
def Response.Within (investigation : InvestigationRecord) : Response → Prop
  | hypothesisAdded updated | approved updated | approvalStands updated =>
    Contains investigation updated
  | planCreated plan => plan ∈ investigation.plans
  | launched updated launch run =>
    Contains investigation updated ∧ launch.approval ∈ investigation.planApprovals ∧
      launch.plan ∈ investigation.plans ∧ run.runId ∈ investigation.runIds
  | claimRecorded claim => claim ∈ investigation.claims

def Response.RecordsApproval : Response → Prop
  | approved _ => True
  | _ => False

def Response.IsLaunch : Response → Prop
  | launched _ _ _ => True
  | _ => False

structure NothingLost (initial : InvestigationRecord) (ledger : Ledger) : Prop where
  reported : ∀ response ∈ ledger.responses, response.Within ledger.api.investigation
  frozen : initial.researchMode = .confirmatory → ∀ before response after,
    ledger.responses = before ++ response :: after → response.RecordsApproval →
      initial.runIds = [] ∧ ∀ earlier ∈ before, ¬ earlier.IsLaunch

/-- A save meets the record that its request has read. -/
def FreshSave (s : Threads Ledger InvestigationTask) : Move Traffic → Prop
  | .call _ => True
  | .step i =>
    match s.locals[i]? with
    | some (.save copy _ _) => s.shared.api.investigation = copy
    | _ => True

instance (s : Threads Ledger InvestigationTask) : DecidablePred (FreshSave s)
  | .call _ => .isTrue trivial
  | .step i =>
    match h : s.locals[i]? with
    | some (.save copy _ _) =>
      decidable_of_iff (s.shared.api.investigation = copy) (by simp only [FreshSave, h])
    | some (.begin _) | some (.computing _ _) | some (.elsewhere _) | some .done | none =>
      .isTrue (by simp only [FreshSave, h])

structure Grows (earlier later : InvestigationRecord) : Prop extends Contains later earlier where
  mode : later.researchMode = earlier.researchMode

variable {response : Response}

section Grows

variable {first second third : InvestigationRecord}

theorem contains_refl (investigation : InvestigationRecord) :
    Contains investigation investigation := by
  constructor <;> exact List.Subset.refl _

theorem Contains.trans (h : Contains second first) (h' : Contains third second) :
    Contains third first where
  hypotheses := List.Subset.trans h.hypotheses h'.hypotheses
  plans := List.Subset.trans h.plans h'.plans
  planApprovals := List.Subset.trans h.planApprovals h'.planApprovals
  runIds := List.Subset.trans h.runIds h'.runIds
  claims := List.Subset.trans h.claims h'.claims

theorem grows_refl (investigation : InvestigationRecord) : Grows investigation investigation :=
  ⟨contains_refl investigation, rfl⟩

theorem Grows.trans (h : Grows first second) (h' : Grows second third) : Grows first third :=
  ⟨h.toContains.trans h'.toContains, h'.mode.trans h.mode⟩

theorem Response.Within.mono (h : response.Within first) (hContains : Contains second first) :
    response.Within second := by
  cases response with
  | hypothesisAdded updated => exact Contains.trans h hContains
  | planCreated plan => exact hContains.plans h
  | approved updated => exact Contains.trans h hContains
  | approvalStands updated => exact Contains.trans h hContains
  | launched updated launch run =>
    obtain ⟨hUpdated, hApproval, hPlan, hRun⟩ := h
    exact ⟨hUpdated.trans hContains, hContains.planApprovals hApproval, hContains.plans hPlan,
      hContains.runIds hRun⟩
  | claimRecorded claim => exact hContains.claims h

end Grows

/-- What a request makes of the copy it has read. -/
structure Saves (copy updated : InvestigationRecord) (response : Response) : Prop where
  grows : Grows copy updated
  reported : response.Within updated
  unlaunched : response.RecordsApproval → copy.researchMode = .confirmatory → copy.runIds = []

variable {deployment : Deployment}

section Compute

variable {world : World} {copy updated : InvestigationRecord} {saved : Option InvestigationRecord}

theorem grows_recordLaunch (now : Instant) (runId : String) :
    Grows copy (recordLaunch now runId copy) :=
  ⟨{ contains_refl copy with runIds := fun _ h => mem_runIds_recordLaunch.mpr (.inl h) }, rfl⟩

/-- A request that succeeds saves nothing, or what its answer reports. -/
theorem compute_ok {call : InvestigationCall}
    (h : (call.compute deployment world copy).1 = .ok (saved, response)) :
    saved = none ∧ response = .approvalStands copy ∨
      ∃ updated, saved = some updated ∧ Saves copy updated response := by
  cases call with
  | hypothesis request stamp =>
    obtain ⟨updated, hAdd, hSame⟩ := map_eq_ok_iff.mp h
    obtain ⟨rfl, rfl⟩ := Prod.mk.inj hSame
    obtain ⟨-, hypothesis, hUpdated⟩ := addInvestigationHypothesis_ok hAdd
    refine .inr ⟨updated, rfl, ⟨?_, ?_⟩, contains_refl updated, fun hApproval => hApproval.elim⟩
    · rw [hUpdated]
      exact { contains_refl copy with hypotheses := subset_append_left _ _ }
    · rw [hUpdated]
  | plan request stamp =>
    obtain ⟨updated, hCreate, hSame⟩ := map_eq_ok_iff.mp h
    obtain ⟨rfl, rfl⟩ := Prod.mk.inj hSame
    obtain rfl := createInvestigationPlan_ok hCreate
    refine .inr ⟨_, rfl, ⟨?_, rfl⟩, ?_, fun hApproval => hApproval.elim⟩
    · exact { contains_refl copy with plans := subset_append_left _ _ }
    · exact mem_append_right _ (mem_singleton_self _)
  | approve request stamp registry preflight =>
    obtain ⟨approved, hApprove, hSame⟩ := map_eq_ok_iff.mp h
    obtain rfl | ⟨plan, planSha256, hCheck, rfl⟩ := approveInvestigationPlan_ok hApprove
    · obtain ⟨rfl, rfl⟩ := Prod.mk.inj hSame
      exact .inl ⟨rfl, rfl⟩
    · obtain ⟨rfl, rfl⟩ := Prod.mk.inj hSame
      obtain ⟨hOpen, -, -⟩ := checkApproval_ok hCheck
      refine .inr ⟨_, rfl, ⟨?_, rfl⟩, contains_refl _, fun _ hMode => ?_⟩
      · exact { contains_refl copy with planApprovals := subset_append_left _ _ }
      · by_contra hRuns
        exact hOpen ⟨hMode, hRuns⟩
  | launch request registry surroundings now =>
    have hLaunch := @Api.investigation_launch deployment ⟨world, copy⟩ request
      registry surroundings now
    unfold InvestigationCall.compute at h
    dsimp only at h
    generalize Api.launchInvestigationRun deployment request registry surroundings now
      ⟨world, copy⟩ =
      outcome at h hLaunch
    obtain ⟨answer, api⟩ := outcome
    cases answer with
    | error failure => cases h
    | ok launched =>
      obtain ⟨launchPlan, run⟩ := launched
      obtain ⟨rfl, rfl⟩ := Prod.mk.inj (Except.ok.inj h)
      obtain ⟨hCheck, -, hInvestigation⟩ := hLaunch
      have hLaunchable := checkLaunch_ok hCheck
      rw [hInvestigation]
      refine .inr ⟨_, rfl, grows_recordLaunch now run.runId, ⟨contains_refl _, ?_, ?_, ?_⟩,
        fun hApproval => hApproval.elim⟩
      · exact (approvalId_of_getApproval hLaunchable.approval).2
      · exact (planId_of_getPlan hLaunchable.plan).2
      · exact mem_runIds_recordLaunch.mpr (.inr rfl)
  | claim request stamp digestOnDisk =>
    obtain ⟨updated, hRecord, h⟩ := of_bind h
    obtain ⟨references, hReferences, h⟩ := of_bind h
    obtain ⟨rfl, rfl⟩ := Prod.mk.inj (Except.ok.inj h)
    obtain ⟨checked, hChecked, rfl⟩ := recordInvestigationClaim_ok hRecord
    obtain rfl := Except.ok.inj (hChecked.symm.trans hReferences)
    refine .inr ⟨_, rfl, ⟨?_, rfl⟩, ?_, fun hApproval => hApproval.elim⟩
    · exact { contains_refl copy with claims := subset_append_left _ _ }
    · exact mem_append_right _ (mem_singleton_self _)

end Compute

/-! ## Runs -/

def InvestigationTask.Sound (stored : InvestigationRecord) : InvestigationTask → Prop
  | .computing _ copy => Grows copy stored
  | .save copy updated response => Saves copy updated response
  | _ => True

/-- What holds between two accesses. -/
structure Steady (initial : InvestigationRecord) (s : Threads Ledger InvestigationTask) :
    Prop where
  grows : Grows initial s.shared.api.investigation
  nothingLost : NothingLost initial s.shared
  launched : (∃ response ∈ s.shared.responses, response.IsLaunch) →
    s.shared.api.investigation.runIds ≠ []
  locals : ∀ (i : Nat) task, s.locals[i]? = some task → task.Sound s.shared.api.investigation

section Steps

variable {initial stored updated copy : InvestigationRecord} {ledger : Ledger}
  {s : Threads Ledger InvestigationTask}

theorem InvestigationTask.Sound.mono {task : InvestigationTask} (h : task.Sound stored)
    (hGrows : Grows stored updated) : task.Sound updated := by
  cases task with
  | computing call copy => exact Grows.trans h hGrows
  | save copy updated response => exact h
  | begin call => trivial
  | elsewhere change => trivial
  | done => trivial

theorem Response.IsLaunch.runIds_ne_nil (h : response.IsLaunch)
    (hWithin : response.Within stored) : stored.runIds ≠ [] := by
  cases response with
  | launched updated launch run => exact ne_nil_of_mem hWithin.2.2.2
  | _ => exact h.elim

theorem NothingLost.answer (h : NothingLost initial ledger) (hWithin : response.Within updated)
    (hGrows : Grows ledger.api.investigation updated)
    (hUnlaunched : initial.researchMode = .confirmatory → response.RecordsApproval →
      initial.runIds = [] ∧ ∀ earlier ∈ ledger.responses, ¬ earlier.IsLaunch) :
    NothingLost initial (Ledger.answer
      { ledger with api := { ledger.api with investigation := updated } } response) := by
  constructor
  · intro other hOther
    rcases mem_append.mp hOther with hOld | hNew
    · exact (h.reported other hOld).mono hGrows.toContains
    · obtain rfl := mem_singleton.mp hNew
      exact hWithin
  · intro hMode before other after hSplit hApproval
    rcases eq_nil_or_concat' after with rfl | ⟨rest, last, rfl⟩
    · obtain ⟨rfl, hSame⟩ := append_inj' hSplit rfl
      obtain rfl := singleton_inj.mp hSame
      exact hUnlaunched hMode hApproval
    · rw [← cons_append, ← append_assoc] at hSplit
      obtain ⟨hSame, -⟩ := append_inj' hSplit rfl
      exact h.frozen hMode before other rest hSame hApproval

variable {locals : List InvestigationTask}

/-- A save over the record that was read keeps what holds between two accesses. -/
theorem steady_save (h : Steady initial s) (hSaves : Saves copy updated response)
    (hFresh : s.shared.api.investigation = copy)
    (hLocals : ∀ (i : Nat) task, locals[i]? = some task →
      task = .done ∨ s.locals[i]? = some task) :
    Steady initial ⟨Ledger.answer
      { s.shared with api := { s.shared.api with investigation := updated } } response,
    locals⟩ := by
  subst hFresh
  constructor
  · exact h.grows.trans hSaves.grows
  · refine h.nothingLost.answer hSaves.reported hSaves.grows fun hMode hApproval => ?_
    have hRuns := hSaves.unlaunched hApproval (h.grows.mode.trans hMode)
    constructor
    · exact subset_nil.mp (hRuns ▸ h.grows.runIds)
    · intro earlier hEarlier hLaunch
      exact h.launched ⟨earlier, hEarlier, hLaunch⟩ hRuns
  · rintro ⟨other, hOther, hLaunch⟩
    show updated.runIds ≠ []
    rcases mem_append.mp hOther with hOld | hNew
    · intro hNone
      refine h.launched ⟨other, hOld, hLaunch⟩ (subset_nil.mp ?_)
      rw [← hNone]
      exact hSaves.grows.runIds
    · obtain rfl := mem_singleton.mp hNew
      exact hLaunch.runIds_ne_nil hSaves.reported
  · intro i task hTask
    rcases hLocals i task hTask with rfl | hOld
    · trivial
    · exact (h.locals i task hOld).mono hSaves.grows

/-- What happens to the runs and to the requests in flight only. -/
theorem steady_world (h : Steady initial s) (world : World)
    (hLocals : ∀ (i : Nat) task, locals[i]? = some task →
      task.Sound s.shared.api.investigation) :
    Steady initial ⟨s.shared.withWorld world, locals⟩ where
  grows := h.grows
  nothingLost := ⟨h.nothingLost.reported, h.nothingLost.frozen⟩
  launched := h.launched
  locals := hLocals

theorem steady_step (h : Steady initial s) {move : Move Traffic} (hFresh : FreshSave s move) :
    Steady initial ((investigationRequests deployment).step s move) := by
  cases move with
  | call traffic =>
    refine steady_world h s.shared.api.world fun i task hTask => ?_
    rcases Program.locals_call hTask with hOld | ⟨-, rfl⟩
    · exact h.locals i task hOld
    · cases traffic <;> trivial
  | step i =>
    cases hTask : s.locals[i]? with
    | none =>
      rw [Program.step_of_none hTask]
      exact h
    | some task =>
      have hSound := h.locals i task hTask
      have hRest {next : InvestigationTask} (hNext : next.Sound s.shared.api.investigation)
          (j : Nat) (other : InvestigationTask) (hOther : (s.locals.set i next)[j]? = some other) :
          other.Sound s.shared.api.investigation := by
        rw [List.getElem?_set] at hOther
        split at hOther
        · split at hOther
          · exact Option.some.inj hOther ▸ hNext
          · cases hOther
        · exact h.locals j other hOther
      rw [Program.step_of_getElem? hTask]
      cases task with
      | begin call => exact steady_world h s.shared.api.world (hRest (grows_refl _))
      | elsewhere change => exact steady_world h _ (hRest trivial)
      | done => exact steady_world h s.shared.api.world (hRest trivial)
      | computing call copy =>
        show Steady initial ⟨(InvestigationTask.next deployment s.shared (.computing call copy)).1,
          s.locals.set i (InvestigationTask.next deployment s.shared (.computing call copy)).2⟩
        unfold InvestigationTask.next
        dsimp only
        cases hCompute : call.compute deployment s.shared.api.world copy with
        | mk answer world =>
          cases answer with
          | error failure => exact steady_world h world (hRest trivial)
          | ok outcome =>
            obtain ⟨saved, response⟩ := outcome
            have hOk := compute_ok (congrArg Prod.fst hCompute)
            obtain ⟨rfl, rfl⟩ | ⟨updated, rfl, hSaves⟩ := hOk
            · have hWorld := steady_world h world (@hRest .done trivial)
              refine ⟨hWorld.grows, ?_, ?_, hWorld.locals⟩
              · exact hWorld.nothingLost.answer (Grows.toContains hSound) (grows_refl _)
                  fun _ hApproval => hApproval.elim
              · rintro ⟨other, hOther, hLaunch⟩
                rcases mem_append.mp hOther with hOld | hNew
                · exact h.launched ⟨other, hOld, hLaunch⟩
                · obtain rfl := mem_singleton.mp hNew
                  exact hLaunch.elim
            · exact steady_world h world (hRest hSaves)
      | save copy updated response =>
        rw [FreshSave, hTask] at hFresh
        refine steady_save h hSound hFresh fun j other hOther => ?_
        rw [List.getElem?_set] at hOther
        split at hOther
        · split at hOther
          · exact .inl (Option.some.inj hOther).symm
          · cases hOther
        · exact .inr hOther

end Steps

/-- In the runs whose saves meet the record that was read, no update is lost. -/
theorem updates_never_lost (deployment : Deployment) (api : Api) (moves : List (Move Traffic))
    (h : Along (investigationRequests deployment).step FreshSave ⟨⟨api, []⟩, []⟩ moves) :
    NothingLost api.investigation
      (exec (investigationRequests deployment).step ⟨⟨api, []⟩, []⟩ moves).shared := by
  have hStart : Steady api.investigation ⟨⟨api, []⟩, []⟩ :=
    { grows := grows_refl api.investigation
      nothingLost :=
        { reported := fun response hMem => by cases hMem
          frozen := fun _ before response after hSplit => by
            cases append_eq_nil_iff.mp hSplit.symm |>.2 }
      launched := by
        rintro ⟨response, hMem, -⟩
        cases hMem
      locals := fun i task hTask => by cases hTask }
  exact (h.invariant (fun s move hFresh hSteady => steady_step hSteady hFresh) hStart).nothingLost

def sampleApi : Api := ⟨{}, sampleInvestigation⟩

def hypothesisMove (id : String) : Move Traffic :=
  .call (.request (.hypothesis { statement := "Hypothesis " ++ id } ⟨1, id⟩))

/-- A plan is created and approved. While its execution is launched, a hypothesis is read, computed
and refused; another plan is created afterwards. -/
def launchAmongRequests : List (Move Traffic) :=
  let attempt := tabularAttempt "a" tabularReceipt
  let plan (id : String) : Move Traffic := .call (.request (.plan
    { title := "Plan", rationale := "", hypothesisIds := ["h"], executions := [sampleExecution] }
    ⟨1, id⟩))
  [plan "plan", .step 0, .step 0, .step 0,
    .call (.request (.approve { planId := "plan" } ⟨2, "approval"⟩ attempt.registry
      fun _ => { ready := true })), .step 1, .step 1, .step 1,
    .call (.request (.launch ⟨"approval", "baseline"⟩ attempt.registry attempt.surroundings 3)),
    hypothesisMove "h1", .step 2, .step 3, .step 2, .step 3, .step 2,
    plan "next", .step 4, .step 4, .step 4]

theorem updates_never_lost_launched :
    (exec (investigationRequests sampleDeployment).step ⟨⟨questionApi, []⟩, []⟩
        launchAmongRequests).shared.api.investigation.runIds = ["a"] ∧
      (exec (investigationRequests sampleDeployment).step ⟨⟨questionApi, []⟩, []⟩
        launchAmongRequests).shared.responses.length = 4 ∧
      NothingLost questionApi.investigation
        (exec (investigationRequests sampleDeployment).step ⟨⟨questionApi, []⟩, []⟩
          launchAmongRequests).shared :=
  ⟨by decide +kernel, by decide +kernel,
    updates_never_lost sampleDeployment questionApi launchAmongRequests (by decide +kernel)⟩

/-- Both requests read before either saves; the first answer reports a hypothesis that the second
save drops. -/
theorem hypothesis_lost :
    ¬ NothingLost sampleApi.investigation
      (exec (investigationRequests sampleDeployment).step ⟨⟨sampleApi, []⟩, []⟩
        [hypothesisMove "h1", hypothesisMove "h2", .step 0, .step 1, .step 0, .step 1, .step 0,
          .step 1]).shared := by
  intro h
  have hStored : (exec (investigationRequests sampleDeployment).step ⟨⟨sampleApi, []⟩, []⟩
      [hypothesisMove "h1", hypothesisMove "h2", .step 0, .step 1, .step 0, .step 1, .step 0,
        .step 1]).shared.api.investigation.hypotheses.map
          InvestigationHypothesisRecord.hypothesisId = ["h2"] := by
    decide +kernel
  have hReported := h.reported (.hypothesisAdded
    { sampleInvestigation with
      updatedAt := 1
      hypotheses := [⟨"h1", "Hypothesis h1", 1, "glasslab-operator"⟩] }) (.head _)
  have hMem := mem_map_of_mem (f := InvestigationHypothesisRecord.hypothesisId)
    (hReported.hypotheses (.head _))
  rw [hStored] at hMem
  revert hMem
  decide

end Glasslab.WorkflowApi
