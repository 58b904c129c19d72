import Glasslab.WorkflowApi.Requests
import Mathlib.Data.Set.Finite.List

/-!
# The graph of a plan

`validate_execution_graph` takes away the executions whose dependencies are resolved, as long as
there are any. It accepts just the plans whose ids are distinct and whose dependencies are known and
without a cycle. An accepted plan can be launched one execution after the other, and the check of a
launch lets no execution pass before all that it depends on have succeeded (`planGraph_exact`).
-/

namespace Glasslab.WorkflowApi

open Foundation List

def executionReady (resolved : List String) (e : InvestigationExecutionSpec) : Bool :=
  e.dependsOn.all (· ∈ resolved)

def ready (resolved : List String) (remaining : List InvestigationExecutionSpec) :
    List InvestigationExecutionSpec :=
  remaining.filter (executionReady resolved)

def waiting (resolved : List String) (remaining : List InvestigationExecutionSpec) :
    List InvestigationExecutionSpec :=
  remaining.filter fun e => !executionReady resolved e

theorem length_waiting_lt {resolved : List String} {remaining : List InvestigationExecutionSpec}
    (h : ready resolved remaining ≠ []) :
    (waiting resolved remaining).length < remaining.length := by
  rw [waiting, length_filter_lt_length_iff_exists]
  obtain ⟨e, hMem⟩ := exists_mem_of_ne_nil _ h
  obtain ⟨hMem, hReady⟩ := mem_filter.mp hMem
  exact ⟨e, hMem, by simpa using hReady⟩

/-- The loop of `validate_execution_graph`, with what remains and what is resolved. -/
def peel (remaining : List InvestigationExecutionSpec) (resolved : List String) :
    Except String Unit :=
  if remaining = [] then .ok ()
  else if _h : ready resolved remaining = [] then
    .error "plan execution dependencies must form an acyclic graph"
  else
    peel (waiting resolved remaining) (resolved ++ (ready resolved remaining).map (·.executionId))
termination_by remaining.length
decreasing_by exact length_waiting_lt _h

def unknownDependencies (executionIds : List String) (e : InvestigationExecutionSpec) :
    List String :=
  sortOn id (e.dependsOn.dedup.filter (· ∉ executionIds))

def validateExecutionGraph (executions : List InvestigationExecutionSpec) : Except String Unit :=
  let executionIds := executions.map (·.executionId)
  if ¬ executionIds.Nodup then .error "plan execution_ids must be unique"
  else
    match executions.find? fun e => unknownDependencies executionIds e ≠ [] with
    | some e => .error ("execution " ++ e.executionId ++ " has unknown dependencies: " ++
        ", ".intercalate (unknownDependencies executionIds e))
    | none => peel executions []

/-- The first execution has to be carried out before the second. -/
def Before (executions : List InvestigationExecutionSpec) (a b : String) : Prop :=
  ∃ e ∈ executions, e.executionId = b ∧ a ∈ e.dependsOn

/-- The ids are distinct, the dependencies are known, and there is no cycle. -/
structure CanBeCarriedOut (executions : List InvestigationExecutionSpec) : Prop where
  nodup : (executions.map (·.executionId)).Nodup
  known : ∀ e ∈ executions, ∀ id ∈ e.dependsOn, id ∈ executions.map (·.executionId)
  acyclic : ∀ id, ¬ Relation.TransGen (Before executions) id id

variable {executions remaining order before after : List InvestigationExecutionSpec}
  {resolved resolved' : List String} {e : InvestigationExecutionSpec} {a b : String}

/-! ## Orders -/

def InTurn : List String → List InvestigationExecutionSpec → Prop
  | _, [] => True
  | resolved, e :: rest => e.dependsOn ⊆ resolved ∧ InTurn (e.executionId :: resolved) rest

theorem InTurn.mono (h : InTurn resolved order) (hSub : resolved ⊆ resolved') :
    InTurn resolved' order := by
  induction order generalizing resolved resolved' with
  | nil => trivial
  | cons e rest ih => exact ⟨List.Subset.trans h.1 hSub, ih h.2 (cons_subset_cons _ hSub)⟩

theorem inTurn_append (hReady : ∀ e ∈ before, e.dependsOn ⊆ resolved)
    (hRest : InTurn (resolved ++ before.map (·.executionId)) after) :
    InTurn resolved (before ++ after) := by
  induction before generalizing resolved with
  | nil => simpa using hRest
  | cons e rest ih =>
    obtain ⟨hHere, hLater⟩ := forall_mem_cons.mp hReady
    refine ⟨hHere,
      ih (fun other hMem => List.Subset.trans (hLater other hMem) (subset_cons_self _ _)) ?_⟩
    refine hRest.mono fun id hMem => ?_
    simp only [map_cons, mem_append, mem_cons] at hMem ⊢
    tauto

theorem InTurn.dependsOn_of_split (h : InTurn resolved (before ++ e :: after)) :
    ∀ id ∈ e.dependsOn, id ∈ resolved ∨ ∃ other ∈ before, other.executionId = id := by
  induction before generalizing resolved with
  | nil => exact fun id hMem => .inl (h.1 hMem)
  | cons first rest ih =>
    intro id hMem
    rcases ih h.2 id hMem with hResolved | ⟨other, hOther, hId⟩
    · rcases mem_cons.mp hResolved with rfl | hResolved
      · exact .inr ⟨first, mem_cons_self, rfl⟩
      · exact .inl hResolved
    · exact .inr ⟨other, mem_cons_of_mem _ hOther, hId⟩

/-- What was peeled off can be carried out in that order. -/
theorem exists_inTurn_of_peel (h : peel remaining resolved = .ok ()) :
    ∃ order, order.Perm remaining ∧ InTurn resolved order := by
  induction remaining, resolved using peel.induct with
  | case1 resolved => exact ⟨[], .refl _, trivial⟩
  | case2 remaining resolved hNe hNone =>
    rw [peel, if_neg hNe, dif_pos hNone] at h
    cases h
  | case3 remaining resolved hNe hSome ih =>
    rw [peel, if_neg hNe, dif_neg hSome] at h
    obtain ⟨order, hPerm, hOrder⟩ := ih h
    refine ⟨ready resolved remaining ++ order, ?_, inTurn_append (fun e hMem id hId => ?_) hOrder⟩
    · exact (hPerm.append_left _).trans (filter_append_perm _ _)
    · have hReady := (mem_filter.mp hMem).2
      exact of_decide_eq_true (all_eq_true.mp hReady id hId)

theorem eq_of_executionId (h : (executions.map (·.executionId)).Nodup)
    {e' : InvestigationExecutionSpec} (hMem : e ∈ executions) (hMem' : e' ∈ executions)
    (hId : e.executionId = e'.executionId) : e = e' :=
  inj_on_of_nodup_map h hMem hMem' hId

theorem InTurn.acc (h : InTurn resolved order) (hOrder : order ⊆ executions)
    (hNodup : (executions.map (·.executionId)).Nodup)
    (hResolved : ∀ id ∈ resolved, Acc (Before executions) id) :
    ∀ e ∈ order, Acc (Before executions) e.executionId := by
  induction order generalizing resolved with
  | nil => exact fun _ hMem => absurd hMem not_mem_nil
  | cons first rest ih =>
    obtain ⟨hFirst, hRest⟩ := cons_subset.mp hOrder
    have hAcc : Acc (Before executions) first.executionId := by
      refine Acc.intro _ ?_
      rintro id ⟨e, hMem, hId, hDepends⟩
      have hSame := eq_of_executionId hNodup hMem hFirst hId
      rw [hSame] at hDepends
      exact hResolved id (h.1 hDepends)
    exact forall_mem_cons.mpr ⟨hAcc, ih h.2 hRest (forall_mem_cons.mpr ⟨hAcc, hResolved⟩)⟩

theorem not_transGen_of_acc {r : String → String → Prop} (h : Acc r a) :
    ¬ Relation.TransGen r a a := by
  have hTrans := h.transGen
  induction hTrans with
  | intro a _ ih => exact fun hCycle => ih a hCycle (h) hCycle

/-- Without a cycle the executions that remain have one that is ready. -/
theorem exists_ready (hAcyclic : ∀ id, ¬ Relation.TransGen (Before executions) id id)
    (hMem : remaining ⊆ executions) (hNe : remaining ≠ []) :
    ∃ e ∈ remaining, ∀ id ∈ e.dependsOn, ∀ other ∈ remaining, other.executionId ≠ id := by
  let r : {e // e ∈ remaining} → {e // e ∈ remaining} → Prop := fun x y =>
    Relation.TransGen (Before executions) x.1.executionId y.1.executionId
  have : Std.Irrefl r := ⟨fun x => hAcyclic x.1.executionId⟩
  obtain ⟨e, hFirst⟩ := exists_mem_of_ne_nil _ hNe
  obtain ⟨x, -, hMin⟩ :=
    (Finite.wellFounded_of_trans_of_irrefl r).has_min Set.univ ⟨⟨e, hFirst⟩, trivial⟩
  refine ⟨x.1, x.2, ?_⟩
  rintro id hId other hOther rfl
  exact hMin ⟨other, hOther⟩ trivial (.single ⟨x.1, hMem x.2, rfl, hId⟩)

theorem mem_ready_or_waiting (h : e ∈ remaining) :
    e ∈ ready resolved remaining ∨ e ∈ waiting resolved remaining := by
  unfold ready waiting
  cases hReady : executionReady resolved e <;> simp [h, hReady]

theorem peel_eq_ok (hAcyclic : ∀ id, ¬ Relation.TransGen (Before executions) id id)
    (hKnown : ∀ e ∈ executions, ∀ id ∈ e.dependsOn, id ∈ executions.map (·.executionId))
    (hMem : remaining ⊆ executions)
    (hAll : ∀ e ∈ executions, e.executionId ∈ resolved ∨ e ∈ remaining) :
    peel remaining resolved = .ok () := by
  induction remaining, resolved using peel.induct with
  | case1 resolved => rw [peel, if_pos rfl]
  | case2 remaining resolved hNe hNone =>
    obtain ⟨e, hHere, hFirst⟩ := exists_ready hAcyclic hMem hNe
    have hReady : e ∈ ready resolved remaining := by
      refine mem_filter.mpr ⟨hHere, all_eq_true.mpr fun id hId => decide_eq_true ?_⟩
      obtain ⟨other, hOther, rfl⟩ := mem_map.mp (hKnown e (hMem hHere) id hId)
      exact (hAll other hOther).resolve_right fun hThere => hFirst _ hId other hThere rfl
    rw [hNone] at hReady
    cases hReady
  | case3 remaining resolved hNe hSome ih =>
    rw [peel, if_neg hNe, dif_neg hSome]
    refine ih (List.Subset.trans (filter_subset_self _) hMem) fun e hExecution => ?_
    rcases hAll e hExecution with hResolved | hThere
    · exact .inl (mem_append_left _ hResolved)
    · rcases @mem_ready_or_waiting _ resolved _ hThere with hReady | hWaiting
      · exact .inl (mem_append_right _ (mem_map_of_mem hReady))
      · exact .inr hWaiting

theorem unknownDependencies_eq_nil_iff {executionIds : List String} :
    unknownDependencies executionIds e = [] ↔ ∀ id ∈ e.dependsOn, id ∈ executionIds := by
  rw [eq_nil_iff_forall_not_mem]
  simp [unknownDependencies]

theorem validateExecutionGraph_eq_ok_iff :
    validateExecutionGraph executions = .ok () ↔ CanBeCarriedOut executions := by
  unfold validateExecutionGraph
  by_cases hNodup : (executions.map (·.executionId)).Nodup
  case neg => exact iff_of_false (by simp [hNodup]) fun h => hNodup h.nodup
  rw [if_neg (not_not_intro hNodup)]
  cases hFind : executions.find? fun e =>
      unknownDependencies (executions.map (·.executionId)) e ≠ [] with
  | some e =>
    refine iff_of_false nofun fun h => ?_
    have hUnknown := List.find?_some hFind
    have hKnown := unknownDependencies_eq_nil_iff.mpr (h.known e (mem_of_find?_eq_some hFind))
    exact of_decide_eq_true hUnknown hKnown
  | none =>
    have hKnown : ∀ e ∈ executions, ∀ id ∈ e.dependsOn, id ∈ executions.map (·.executionId) := by
      intro e hMem
      have hNone := List.find?_eq_none.mp hFind e hMem
      exact unknownDependencies_eq_nil_iff.mp (by simpa using hNone)
    constructor
    · intro h
      obtain ⟨order, hPerm, hOrder⟩ := exists_inTurn_of_peel h
      refine ⟨hNodup, hKnown, fun id hCycle => ?_⟩
      obtain ⟨_, -, e, hMem, rfl, -⟩ := Relation.TransGen.tail'_iff.mp hCycle
      refine not_transGen_of_acc ?_ hCycle
      exact hOrder.acc hPerm.subset hNodup (fun _ hId => absurd hId not_mem_nil) e
        (hPerm.mem_iff.mpr hMem)
    · intro h
      exact peel_eq_ok h.acyclic hKnown (List.Subset.refl _) fun e hMem => .inr hMem

/-! ## Launches under one approval -/

section Launches

variable {digest : Digest} {investigation : InvestigationRecord}
  {approval : InvestigationPlanApprovalRecord} {plan : InvestigationPlanRecord}

/-- The approval is the active one, and the plan is what it approves. -/
structure Approved (digest : Digest) (investigation : InvestigationRecord)
    (approval : InvestigationPlanApprovalRecord) (plan : InvestigationPlanRecord) : Prop where
  active : investigation.activePlanApprovalId = some approval.approvalId
  found : getApproval investigation approval.approvalId = .ok approval
  plan_found : getPlan investigation approval.planId = .ok plan
  unchanged : buildPlanSha256 digest investigation plan = .ok approval.planSha256

theorem checkLaunch_eq_ok (h : Approved digest investigation approval plan)
    (hNodup : (plan.executions.map (·.executionId)).Nodup) (hMem : e ∈ plan.executions)
    {runs : List RunRecord}
    (hSatisfied : ∀ id ∈ e.dependsOn, dependencySatisfied runs approval.approvalId id = true) :
    checkLaunch digest ⟨approval.approvalId, e.executionId⟩ investigation runs =
      .ok ⟨approval, plan, e⟩ := by
  have hExecution : getExecution plan e.executionId = .ok e := by
    refine Raising.elim_eq_ok_iff.mpr ?_
    cases hFind : plan.executions.find? fun execution => execution.executionId = e.executionId with
    | none =>
      have hNot := List.find?_eq_none.mp hFind e hMem
      simp at hNot
    | some other =>
      have hId := List.find?_some hFind
      have hSame :=
        eq_of_executionId hNodup (mem_of_find?_eq_some hFind) hMem (of_decide_eq_true hId)
      exact congrArg some hSame
  have hNone :
      (e.dependsOn.filter fun id => !dependencySatisfied runs approval.approvalId id) = [] := by
    refine filter_eq_nil_iff.mpr fun id hId => ?_
    simp [hSatisfied id hId]
  unfold checkLaunch
  rw [if_neg (by simp [h.active]), if_neg (by simp [h.active]), h.found]
  refine Raising.bind_eq_ok_iff.mpr ⟨_, rfl, Raising.bind_eq_ok_iff.mpr ⟨_, h.plan_found, ?_⟩⟩
  refine Raising.bind_eq_ok_iff.mpr ⟨_, hExecution, Raising.bind_eq_ok_iff.mpr ⟨_, h.unchanged, ?_⟩⟩
  rw [if_neg (not_not_intro rfl)]
  exact if_neg (not_not_intro hNone)

/-- A launch that is admitted, a report of any status, or a run of another approval. -/
inductive RunStep (digest : Digest) (approval : InvestigationPlanApprovalRecord)
    (plan : InvestigationPlanRecord) : List RunRecord → List RunRecord → Prop where
  | launch {investigation : InvestigationRecord} {request : InvestigationRunCreateRequest}
      {runs : List RunRecord} {e : InvestigationExecutionSpec} {run : RunRecord} :
      checkLaunch digest request investigation runs = .ok ⟨approval, plan, e⟩ →
      run.sourceExecutionId = some e.executionId → RunStep digest approval plan runs (runs ++ [run])
  | report {runs later : List RunRecord} {run run' : RunRecord} :
      run'.sourceApprovalId = run.sourceApprovalId → run'.sourceExecutionId =
        run.sourceExecutionId →
      RunStep digest approval plan (runs ++ run :: later) (runs ++ run' :: later)
  | other {runs : List RunRecord} {run : RunRecord} :
      run.sourceApprovalId ≠ some approval.approvalId →
        RunStep digest approval plan runs (runs ++ [run])

/-- A launch whose key is free, and whose run is not one of the investigation yet, is a step of the
history of its runs. -/
theorem Api.runStep_of_launch {deployment : Deployment} {api api' : Api}
    {request : InvestigationRunCreateRequest} {registry : WorkflowRegistry}
    {surroundings : Surroundings} {now : Instant} {launch : LaunchPlan} {run : RunRecord}
    (h : api.launchInvestigationRun deployment request registry surroundings now =
      (.ok (launch, run), api'))
    (hFree : api.world.store.getRunByIdempotencyKey (launchKey launch) = none)
    (hNew : run.runId ∉ api.investigation.runIds) :
    RunStep deployment.digest launch.approval launch.plan api.investigationRuns
      api'.investigationRuns := by
  unfold Api.launchInvestigationRun at h
  cases hCheck : checkLaunch deployment.digest request api.investigation api.investigationRuns with
  | error failure =>
    rw [hCheck] at h
    cases h
  | ok plan =>
    rw [hCheck] at h
    dsimp only at h
    cases hStart : api.startRun deployment registry surroundings plan with
    | mk answer started =>
      rw [hStart] at h
      cases answer with
      | error failure => cases h
      | ok found =>
        obtain ⟨hAnswer, rfl⟩ := Prod.mk.inj h
        obtain ⟨rfl, rfl⟩ := Prod.mk.inj (Except.ok.inj hAnswer)
        obtain ⟨hExecution, hInvestigation, hRuns⟩ := Api.getRun_of_startRun hStart hFree
        have hOld : api.investigation.runIds.filterMap started.world.store.getRun =
            api.investigationRuns := by
          refine filterMap_congr fun runId hMem => ?_
          rw [hRuns, if_neg]
          rintro rfl
          exact hNew hMem
        have hAfter : Api.investigationRuns
            ⟨started.world, recordLaunch now found.runId started.investigation⟩ =
              api.investigationRuns ++ [found] := by
          rw [hInvestigation]
          show filterMap started.world.store.getRun (recordLaunch now found.runId
            api.investigation).runIds = _
          unfold recordLaunch
          rw [if_neg hNew, filterMap_append, hOld, filterMap_cons, hRuns, if_pos rfl]
          rfl
        rw [hAfter]
        exact .launch hCheck hExecution
/-- The executions that have a succeeded run under the approval. -/
def satisfied (approval : InvestigationPlanApprovalRecord) (runs : List RunRecord) : Set String :=
  {id | dependencySatisfied runs approval.approvalId id = true}

/-- The runs of an investigation, and the executions that have ever had a succeeded one. -/
inductive History (digest : Digest) (approval : InvestigationPlanApprovalRecord)
    (plan : InvestigationPlanRecord) : List RunRecord → Set String → Prop where
  | start : History digest approval plan [] ∅
  | step {runs runs' : List RunRecord} {done : Set String} :
    History digest approval plan runs done →
      RunStep digest approval plan runs runs' →
      History digest approval plan runs' (done ∪ satisfied approval runs')

/-- What has a run, or has had a succeeded one, comes after its dependencies. -/
structure Disciplined (approval : InvestigationPlanApprovalRecord) (plan : InvestigationPlanRecord)
    (runs : List RunRecord) (done : Set String) : Prop where
  satisfied : satisfied approval runs ⊆ done
  launched : ∀ run ∈ runs, run.sourceApprovalId = some approval.approvalId →
    ∀ id, run.sourceExecutionId = some id → ∀ b, Before plan.executions b id → b ∈ done
  closed : ∀ id ∈ done, ∀ b, Before plan.executions b id → b ∈ done

variable {runs : List RunRecord} {done : Set String} {request : InvestigationRunCreateRequest}

theorem Disciplined.dependencies (h : Disciplined approval plan runs done)
    (hNodup : (plan.executions.map (·.executionId)).Nodup)
    (hLaunch : checkLaunch digest request investigation runs = .ok ⟨approval, plan, e⟩) :
    ∀ b, Before plan.executions b e.executionId → b ∈ done := by
  rintro b ⟨other, hMem, hId, hDepends⟩
  have hChecked := checkLaunch_ok hLaunch
  have hSame := eq_of_executionId hNodup hMem (executionId_of_getExecution hChecked.execution).2 hId
  rw [hSame] at hDepends
  exact h.satisfied (hChecked.satisfied b hDepends)

theorem disciplined_of_history (hNodup : (plan.executions.map (·.executionId)).Nodup)
    (h : History digest approval plan runs done) : Disciplined approval plan runs done := by
  induction h with
  | start =>
    refine ⟨fun _ hMem => ?_, fun _ hMem => absurd hMem not_mem_nil, fun _ hMem => hMem.elim⟩
    cases (hMem : false = true)
  | @step runs runs' done _ hStep ih =>
    have hLaunched : ∀ run ∈ runs', run.sourceApprovalId = some approval.approvalId →
        ∀ id, run.sourceExecutionId = some id → ∀ b, Before plan.executions b id → b ∈ done := by
      cases hStep with
      | @launch _ _ _ e run hLaunch hExecution =>
        intro other hMem hApproval id hId b hBefore
        rcases mem_append.mp hMem with hMem | hMem
        · exact ih.launched other hMem hApproval id hId b hBefore
        · rw [mem_singleton.mp hMem, hExecution] at hId
          cases hId
          exact ih.dependencies hNodup hLaunch b hBefore
      | @report before later run run' hApproval' hExecution =>
        intro other hMem hApproval id hId b hBefore
        rcases mem_append.mp hMem with hMem | hMem
        · exact ih.launched other (mem_append_left _ hMem) hApproval id hId b hBefore
        · rcases mem_cons.mp hMem with rfl | hMem
          · exact ih.launched run (mem_append_right _ mem_cons_self)
              (hApproval' ▸ hApproval) id (hExecution ▸ hId) b hBefore
          · exact ih.launched other (mem_append_right _ (mem_cons_of_mem _ hMem)) hApproval
              id hId b hBefore
      | other hOther =>
        intro other hMem hApproval id hId b hBefore
        rcases mem_append.mp hMem with hMem | hMem
        · exact ih.launched other hMem hApproval id hId b hBefore
        · rw [mem_singleton.mp hMem] at hApproval
          exact absurd hApproval hOther
    refine ⟨Set.subset_union_right, fun run hMem hApproval id hId b hBefore =>
      .inl (hLaunched run hMem hApproval id hId b hBefore), ?_⟩
    rintro id (hDone | hSatisfied) b hBefore
    · exact .inl (ih.closed id hDone b hBefore)
    · obtain ⟨run, hMem, hRun⟩ := any_eq_true.mp hSatisfied
      obtain ⟨hApproval, hExecution, -⟩ := of_decide_eq_true hRun
      exact .inl (hLaunched run hMem hApproval id hExecution b hBefore)

/-- The graph check accepts what can be carried out, an accepted plan can be launched in some order,
and nothing is admitted before all that it depends on have succeeded. -/
theorem planGraph_exact (plan : InvestigationPlanRecord) :
    (validateExecutionGraph plan.executions = .ok () ↔ CanBeCarriedOut plan.executions) ∧
    (validateExecutionGraph plan.executions = .ok () →
      (∃ order, order.Perm plan.executions ∧ ∀ before e after, order = before ++ e :: after →
        ∀ digest investigation approval, Approved digest investigation approval plan → ∀ runs,
          (∀ other ∈ before, 
            dependencySatisfied runs approval.approvalId other.executionId = true) →
          checkLaunch digest ⟨approval.approvalId, e.executionId⟩ investigation runs =
            .ok ⟨approval, plan, e⟩) ∧
      ∀ digest approval runs done, History digest approval plan runs done →
        ∀ request investigation e, checkLaunch digest request investigation runs =
            .ok ⟨approval, plan, e⟩ →
          ∀ id, Relation.TransGen (Before plan.executions) id e.executionId → id ∈ done) := by
  refine ⟨validateExecutionGraph_eq_ok_iff, fun hAccepted => ?_⟩
  have hPlan := validateExecutionGraph_eq_ok_iff.mp hAccepted
  constructor
  · have hPeel : peel plan.executions [] = .ok () :=
      peel_eq_ok hPlan.acyclic hPlan.known (List.Subset.refl _) fun e hMem => .inr hMem
    obtain ⟨order, hPerm, hOrder⟩ := exists_inTurn_of_peel hPeel
    refine ⟨order, hPerm, ?_⟩
    rintro before e after rfl digest investigation approval hApproved runs hDone
    have hMem : e ∈ plan.executions := hPerm.subset (mem_append_right _ mem_cons_self)
    refine checkLaunch_eq_ok hApproved hPlan.nodup hMem fun id hId => ?_
    rcases hOrder.dependsOn_of_split id hId with hNone | ⟨other, hOther, rfl⟩
    · cases hNone
    · exact hDone other hOther
  · intro digest approval runs done hHistory request investigation e hLaunch id hBefore
    have hDisciplined := disciplined_of_history hPlan.nodup hHistory
    -- What comes directly before the execution is done, and `done` is closed under going back.
    obtain ⟨b, hPath, hLast⟩ := Relation.TransGen.tail'_iff.mp hBefore
    have hDone := hDisciplined.dependencies hPlan.nodup hLaunch b hLast
    induction hPath using Relation.ReflTransGen.head_induction_on with
    | refl => exact hDone
    | head hStep hRest ih => exact hDisciplined.closed _ (ih (.tail' hRest hLast)) _ hStep

end Launches

end Glasslab.WorkflowApi
