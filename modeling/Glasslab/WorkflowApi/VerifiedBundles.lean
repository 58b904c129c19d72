import Glasslab.WorkflowApi.Requests
import Glasslab.WorkflowApi.TerminalStatus

/-!
# Verified bundles

The flag `artifact_bundle_verified` is set by one endpoint, and the data it vouches for are
overwritten by another one that does not look at it. A claim that supports or refutes trusts the
stored metrics and compares them with the bounds of the guardrails, which no comparison with a NaN
contradicts. In the histories in which no report is accepted for a verified run, and no required
guardrail has to do with a NaN, the flag and the claims mean what they say (`verified_bundle_kept`).
-/

namespace Glasslab.WorkflowApi

open Foundation Machine Option Raising

/-! ## What the guardrails say -/

/-- The metric lies inside the bounds; a NaN lies inside none. -/
def GuardrailMetricContract.Inside (guardrail : GuardrailMetricContract) (x : Float64) : Prop :=
  x ≠ .nan ∧ (∀ b, guardrail.minimum = some b → b.le x = true) ∧
    ∀ b, guardrail.maximum = some b → x.le b = true

/-- The verified metrics contain the primary metric and put every required guardrail inside its
bounds. -/
structure MeetsContract (metrics : Entries) (contract : EvaluatorContract) : Prop where
  primary : ∀ metric, contract.primaryMetric = some metric →
    ((metrics.lookup metric.name).bind numeric).isSome
  guardrails : ∀ guardrail ∈ contract.guardrails, guardrail.required = true →
    ∃ x, (metrics.lookup guardrail.name).bind numeric = some (some x) ∧ guardrail.Inside x

def WithoutNaN (metrics : Entries) (guardrail : GuardrailMetricContract) : Prop :=
  (metrics.lookup guardrail.name).bind numeric ≠ some (some .nan) ∧
    guardrail.minimum ≠ some .nan ∧ guardrail.maximum ≠ some .nan

section Contract

variable {repr : Float64 → String} {metrics : Entries} {guardrail : GuardrailMetricContract}
  {execution : InvestigationExecutionSpec} {x : Float64}

/-- A required guardrail passes exactly if its metric is a number neither below nor above. -/
theorem guardrailIssues_eq_nil_iff (hRequired : guardrail.required = true) :
    guardrailIssues repr metrics guardrail = .ok [] ↔
      ∃ x, (metrics.lookup guardrail.name).bind numeric = some (some x) ∧
        isBelow guardrail.minimum x = false ∧ isAbove guardrail.maximum x = false := by
  unfold guardrailIssues
  cases hValue : metrics.lookup guardrail.name with
  | none => simp [hRequired]
  | some value =>
    by_cases hNull : value = .scalar .null
    · subst hNull
      simp [hRequired, numeric, Option.filter]
    · have hFilter : (some value).filter (fun v => decide (v ≠ .scalar .null)) = some value := by
        simp [Option.filter, hNull]
      rw [hFilter, bind_some]
      show boundIssues repr guardrail value = .ok [] ↔ _
      unfold boundIssues
      cases hNumeric : numeric value with
      | none => simp
      | some converted =>
        cases converted with
        | none => simp
        | some x =>
          cases hBelow : isBelow guardrail.minimum x <;>
            cases hAbove : isAbove guardrail.maximum x <;> simp [hBelow, hAbove]

/-- A metric that is neither below nor above lies inside the bounds, unless there is a NaN. -/
theorem inside_iff (hBelow : isBelow guardrail.minimum x = false)
    (hAbove : isAbove guardrail.maximum x = false) :
    guardrail.Inside x ↔
      x ≠ .nan ∧ guardrail.minimum ≠ some .nan ∧ guardrail.maximum ≠ some .nan := by
  constructor
  · rintro ⟨hx, hMin, hMax⟩
    refine ⟨hx, ?_, ?_⟩
    · intro hNaN
      have hLe := hMin _ hNaN
      cases hLe
    · intro hNaN
      have hLe := hMax _ hNaN
      rw [Float64.not_le_nan.1] at hLe
      cases hLe
  · rintro ⟨hx, hMin, hMax⟩
    refine ⟨hx, fun b hb => ?_, fun b hb => ?_⟩
    · rw [hb] at hBelow hMin
      exact (Float64.le_iff_not_lt (fun h => hMin (h ▸ rfl)) hx).mpr hBelow
    · rw [hb] at hAbove hMax
      exact (Float64.le_iff_not_lt hx fun h => hMax (h ▸ rfl)).mpr hAbove

section

variable (h : evaluatorContractIssues repr metrics execution = .ok [])
include h

theorem primary_of_issues_eq_nil :
    (∀ metric, execution.evaluatorContract.primaryMetric = some metric →
      ((metrics.lookup metric.name).bind numeric).isSome) ∧
      ∀ guardrail ∈ execution.evaluatorContract.guardrails,
        guardrailIssues repr metrics guardrail = .ok [] := by
  obtain ⟨rest, hRest, h⟩ := of_bind h
  obtain ⟨hPrimary, hFlat⟩ := List.append_eq_nil_iff.mp (Except.ok.inj h)
  refine ⟨fun metric hMetric => ?_, fun guardrail hGuardrail => ?_⟩
  · rw [hMetric] at hPrimary
    by_contra hMissing
    simp [hMissing] at hPrimary
  · obtain ⟨issues, hIssues, hSame⟩ := exists_of_mapM_eq_ok hRest hGuardrail
    rw [hSame, List.flatten_eq_nil_iff.mp hFlat issues hIssues]

theorem meetsContract_of_issues_eq_nil
    (hNaN : ∀ guardrail ∈ execution.evaluatorContract.guardrails, guardrail.required = true →
      WithoutNaN metrics guardrail) :
    MeetsContract metrics execution.evaluatorContract := by
  obtain ⟨hPrimary, hGuardrails⟩ := primary_of_issues_eq_nil h
  refine ⟨hPrimary, fun guardrail hMem hRequired => ?_⟩
  obtain ⟨x, hx, hBelow, hAbove⟩ :=
    (guardrailIssues_eq_nil_iff hRequired).mp (hGuardrails guardrail hMem)
  obtain ⟨hMetric, hBounds⟩ := hNaN guardrail hMem hRequired
  refine ⟨x, hx, (inside_iff hBelow hAbove).mpr ⟨?_, hBounds⟩⟩
  rintro rfl
  exact hMetric hx

end

end Contract

section Claims

variable {settings : Settings} {evidence : Evidence} {investigation updated : InvestigationRecord}
  {request : InvestigationClaimCreateRequest} {stamp : Stamp}

theorem evidence_of_claim
    (h : recordInvestigationClaim settings evidence request stamp investigation = .ok updated)
    {item : InvestigationEvidenceRequest} (hItem : item ∈ request.evidence) :
    ∃ run, evidence.store.getRun item.runId = some run ∧ run.artifactBundleVerified = true ∧
      (request.assessment.decides = true → ∃ execution,
        approvedExecution investigation run = .ok execution ∧
          evaluatorContractIssues evidence.repr run.reportedMetrics execution = .ok []) := by
  obtain ⟨references, hAll, -⟩ := recordInvestigationClaim_ok h
  obtain ⟨reference, -, hCheck⟩ := exists_of_mapM_eq_ok hAll hItem
  obtain ⟨-, hCheck⟩ := of_check hCheck
  obtain ⟨run, hRun, hCheck⟩ := of_bind hCheck
  obtain ⟨-, hCheck⟩ := of_check hCheck
  obtain ⟨-, hCheck⟩ := of_check hCheck
  obtain ⟨⟨⟩, hContract, hCheck⟩ := of_bind hCheck
  obtain ⟨hVerified, -⟩ := of_check hCheck
  refine ⟨run, elim_eq_ok_iff.mp hRun, by simpa using hVerified, fun hDecides => ?_⟩
  unfold checkDecided at hContract
  rw [if_pos hDecides] at hContract
  obtain ⟨-, hContract⟩ := of_check hContract
  obtain ⟨execution, hExecution, hContract⟩ := of_bind hContract
  obtain ⟨issues, hIssues, hContract⟩ := of_bind hContract
  obtain ⟨hNone, -⟩ := of_check hContract
  exact ⟨execution, hExecution, by rw [hIssues, not_not.mp hNone]⟩

end Claims

/-! ## Histories -/

/-- The state, and for each run the bundle of the ingestion that set its flag last. -/
structure Audit where
  api : Api
  ingested : List (String × TerminalBundle) := []

def auditStep (deployment : Deployment) (audit : Audit) (request : ApiRequest) : Audit where
  api := audit.api.step deployment request
  ingested := (audit.api.verifiedBy request).elim audit.ingested fun entry =>
    Dict.set entry.1 entry.2 audit.ingested

def BundleKept (audit : Audit) : Prop :=
  ∀ runId run, audit.api.world.store.getRun runId = some run → run.artifactBundleVerified = true →
    ∃ bundle, audit.ingested.lookup runId = some bundle ∧ run.status = bundle.status ∧
      run.reportedMetrics = bundle.metrics ∧ run.artifactRefs = bundle.refs

/-- A claim that the request records as supported or refuted rests on runs whose verified metrics
meet their contract. -/
def RestsOnVerified (deployment : Deployment) (audit : Audit) : ApiRequest → Prop
  | .claim request stamp digestOnDisk =>
    request.assessment.decides = true → ∀ updated,
      recordInvestigationClaim deployment.settings
          ⟨audit.api.world.store, digestOnDisk, deployment.repr⟩ request stamp
          audit.api.investigation = .ok updated →
        ∀ item ∈ request.evidence, ∃ run execution bundle,
          audit.api.world.store.getRun item.runId = some run ∧
            approvedExecution audit.api.investigation run = .ok execution ∧
            audit.ingested.lookup item.runId = some bundle ∧
            MeetsContract bundle.metrics execution.evaluatorContract
  | _ => True

/-- No report is accepted for a verified run, and no required guardrail that a claim is checked
against has to do with a NaN. -/
def Careful (audit : Audit) : ApiRequest → Prop
  | .results runId request _ => ∀ run, audit.api.world.store.getRun runId = some run →
    run.artifactBundleVerified = true → missingRequired request run ≠ []
  | .claim request _ _ => request.assessment.decides = true → ∀ item ∈ request.evidence,
    ∀ run, audit.api.world.store.getRun item.runId = some run →
      ∀ execution, approvedExecution audit.api.investigation run = .ok execution →
        ∀ guardrail ∈ execution.evaluatorContract.guardrails, guardrail.required = true →
          WithoutNaN run.reportedMetrics guardrail
  | _ => True

instance (metrics : Entries) (guardrail : GuardrailMetricContract) :
    Decidable (WithoutNaN metrics guardrail) :=
  inferInstanceAs (Decidable (_ ∧ _ ∧ _))

instance (audit : Audit) : DecidablePred (Careful audit)
  | .results runId request _ =>
    inferInstanceAs (Decidable (∀ run ∈ audit.api.world.store.getRun runId,
      run.artifactBundleVerified = true → missingRequired request run ≠ []))
  | .claim request _ _ =>
    inferInstanceAs (Decidable (request.assessment.decides = true → ∀ item ∈ request.evidence,
      ∀ run ∈ audit.api.world.store.getRun item.runId,
        ∀ execution, approvedExecution audit.api.investigation run = .ok execution →
          ∀ guardrail ∈ execution.evaluatorContract.guardrails, guardrail.required = true →
            WithoutNaN run.reportedMetrics guardrail))
  | .create _ _ | .ingest _ _ _ | .cancel _ _ _ _ | .hypothesis _ _ | .plan _ _
  | .approve _ _ _ _ | .launch _ _ _ _ => .isTrue trivial

/-- What holds between two requests. -/
structure Audited (audit : Audit) : Prop where
  keyed : audit.api.WellKeyed
  bundles : BundleKept audit
  terminal : ∀ runId bundle, audit.ingested.lookup runId = some bundle →
    bundle.status.status ∈ bundleStates

section Steps

variable {deployment : Deployment} {audit : Audit} {api : Api} {request : ApiRequest}
  {runId : String} {run : RunRecord} {bundle : TerminalBundle}

theorem verifiedBy_eq_some (h : api.verifiedBy request = some (runId, bundle)) :
    ∃ clock directory old, request = .ingest runId clock directory ∧
      api.world.store.getRun runId = some old ∧ old.artifactBundleVerified = false ∧
      loadTerminalBundle clock directory old = .ok bundle := by
  cases request with
  | ingest other clock directory =>
    unfold Api.verifiedBy Api.ingestRunArtifactBundle at h
    dsimp only at h
    cases hOld : api.world.store.getRun other with
    | none =>
      rw [hOld] at h
      cases h
    | some old =>
      rw [hOld] at h
      dsimp only at h
      by_cases hFlag : old.artifactBundleVerified = true
      · rw [if_pos hFlag] at h
        cases h
      · rw [if_neg hFlag] at h
        cases hLoad : loadTerminalBundle clock directory old with
        | error failure =>
          rw [hLoad] at h
          cases h
        | ok loaded =>
          rw [hLoad] at h
          dsimp only at h
          unfold Api.saveRun at h
          cases hSave : api.world.store.saveRun (verifyBundle loaded old) with
          | error clash =>
            rw [hSave] at h
            cases h
          | ok store =>
            rw [hSave] at h
            obtain ⟨rfl, rfl⟩ := Prod.mk.inj (Option.some.inj h)
            exact ⟨clock, directory, old, rfl, hOld, Bool.eq_false_iff.mpr hFlag, hLoad⟩
  | _ => cases h

theorem lookup_ingested : (auditStep deployment audit request).ingested.lookup runId =
    if (audit.api.verifiedBy request).map Prod.fst = some runId then
      (audit.api.verifiedBy request).map Prod.snd
    else audit.ingested.lookup runId := by
  unfold auditStep
  cases audit.api.verifiedBy request with
  | none => rfl
  | some entry =>
    show (Dict.set entry.1 entry.2 audit.ingested).lookup runId = _
    rw [Dict.lookup_set]
    simp [eq_comm]

theorem lookup_ingested_of_verified (hOld : audit.api.world.store.getRun runId = some run)
    (hFlag : run.artifactBundleVerified = true) :
    (auditStep deployment audit request).ingested.lookup runId = audit.ingested.lookup runId := by
  rw [lookup_ingested, if_neg]
  intro hSame
  obtain ⟨⟨other, bundle⟩, hBy, rfl⟩ := map_eq_some_iff.mp hSame
  obtain ⟨clock, directory, old, -, hOther, hUnverified, -⟩ := verifiedBy_eq_some hBy
  obtain rfl := Option.some.inj (hOld.symm.trans hOther)
  exact absurd (hFlag.symm.trans hUnverified) Bool.noConfusion

theorem accept_unverified {attempt : Attempt} {key : String} {creation : Accepted}
    (h : attempt.accept key = .ok creation) : creation.record.artifactBundleVerified = false := by
  unfold Attempt.accept at h
  cases hCall : attempt.call with
  | generic request lineage =>
    rw [hCall] at h
    obtain ⟨workflow, configPayload, -, -, hRecord⟩ := acceptGeneric_ok h
    rw [hRecord]
    rfl
  | registered request workflow origin =>
    rw [hCall] at h
    rw [(acceptRun_ok h).2]
    rfl

theorem not_cancellable_of_terminal {state : RunState} (h : state ∈ bundleStates) :
    state ∉ cancellable := by
  revert h
  cases state <;> decide

theorem bundleKept_step (h : Audited audit) (hCareful : Careful audit request) :
    BundleKept (auditStep deployment audit request) := by
  intro runId run hStored hFlag
  cases Api.runChange_step h.keyed hStored with
  | kept hOld =>
    rw [lookup_ingested_of_verified hOld hFlag]
    exact h.bundles runId run hOld hFlag
  | created hAccept hId hRun =>
    obtain ⟨submission, updatedAt, rfl⟩ := hRun
    have hNot := accept_unverified hAccept
    exact absurd (hNot.symm.trans hFlag) Bool.false_ne_true
  | launched hCheck hAccept hId hRun =>
    obtain ⟨submission, updatedAt, rfl⟩ := hRun
    obtain ⟨workflow, configPayload, -, -, hRecord⟩ := acceptGeneric_ok hAccept
    rw [hRecord] at hFlag
    cases hFlag
  | @reported request now old hOld hReport =>
    obtain ⟨hMissing, hReport⟩ := of_check hReport
    obtain rfl := Except.ok.inj hReport
    exact absurd (hCareful old hOld hFlag) hMissing
  | @verified clock directory old bundle hOld hLoad hBy hRun =>
    subst hRun
    refine ⟨bundle, ?_, rfl, rfl, rfl⟩
    rw [lookup_ingested, hBy]
    exact if_pos rfl
  | @cancelled live answer now old hOld hState hRun =>
    subst hRun
    obtain ⟨bundle, hBundle, hStatus, -⟩ := h.bundles runId old hOld hFlag
    have hTerminal := h.terminal runId bundle hBundle
    rw [hStatus] at hState
    exact absurd hState (not_cancellable_of_terminal hTerminal)

theorem terminal_step (h : Audited audit)
    (hBundle : (auditStep deployment audit request).ingested.lookup runId = some bundle) :
    bundle.status.status ∈ bundleStates := by
  rw [lookup_ingested] at hBundle
  split at hBundle
  next hSame =>
    obtain ⟨⟨other, verified⟩, hBy, rfl⟩ := map_eq_some_iff.mp hSame
    rw [hBy] at hBundle
    obtain rfl : verified = bundle := Option.some.inj hBundle
    obtain ⟨clock, directory, old, -, -, -, hLoad⟩ := verifiedBy_eq_some hBy
    exact (loadTerminalBundle_status hLoad).1
  next => exact h.terminal runId bundle hBundle

theorem audited_step (hCareful : Careful audit request) (h : Audited audit) :
    Audited (auditStep deployment audit request) where
  keyed := Api.wellKeyed_step h.keyed request
  bundles := bundleKept_step h hCareful
  terminal _ _ := terminal_step h

/-- A claim that decides is checked against the metrics that were verified. -/
theorem restsOnVerified_of_audited (h : Audited audit) (hCareful : Careful audit request) :
    RestsOnVerified deployment audit request := by
  cases request with
  | claim request stamp digestOnDisk =>
    intro hDecides updated hRecord item hItem
    obtain ⟨run, hRun, hVerified, hContract⟩ := evidence_of_claim hRecord hItem
    obtain ⟨execution, hExecution, hIssues⟩ := hContract hDecides
    obtain ⟨bundle, hBundle, -, hMetrics, -⟩ := h.bundles item.runId run hRun hVerified
    have hMeets := meetsContract_of_issues_eq_nil hIssues
      (hCareful hDecides item hItem run hRun execution hExecution)
    exact ⟨run, execution, bundle, hRun, hExecution, hBundle, hMetrics ▸ hMeets⟩
  | _ => trivial

end Steps

/-- Over the histories of careful requests the flag and the claims mean what they say. -/
theorem verified_bundle_kept (deployment : Deployment) (investigation : InvestigationRecord)
    (requests : List ApiRequest)
    (hCareful : Along (auditStep deployment) Careful ⟨⟨{}, investigation⟩, []⟩ requests) :
    BundleKept (exec (auditStep deployment) ⟨⟨{}, investigation⟩, []⟩ requests) ∧
      Along (auditStep deployment) (RestsOnVerified deployment) ⟨⟨{}, investigation⟩, []⟩
        requests := by
  have hStart : Audited ⟨⟨{}, investigation⟩, []⟩ :=
    { keyed := fun runId run h => by cases h
      bundles := fun runId run h => by cases h
      terminal := fun runId bundle h => by cases h }
  constructor
  · exact (hCareful.invariant (fun audit request => audited_step) hStart).bundles
  · exact hCareful.along_of_invariant (fun audit request => audited_step) hStart
      fun audit request hCareful h => restsOnVerified_of_audited h hCareful

def sampleClock : Clock where
  now := 1
  isoNow := .scalar (.int 1)
  parseInstant
    | .scalar (.int n) => some n
    | _ => none

def sampleDirectory : RunDirectory where
  status := .json (.map [("run_id", text "a"), ("status", text "succeeded"),
    ("updated_at", .scalar (.int 1))])
  metrics := .json (.map [("accuracy", .scalar (.int 1))])
  artifacts := some ⟨"a", []⟩

def verification : List ApiRequest :=
  [.create (tabularAttempt "a" tabularReceipt) "create-1", .ingest "a" sampleClock sampleDirectory]

/-- Then a failure without metrics is reported for the run. -/
def laterReport : ApiRequest := .results "a" { terminalStatus := .failed } 2

/-- An execution that has to reach an accuracy, and to leave its logs. -/
def guardedExecution : InvestigationExecutionSpec :=
  { sampleExecution with
    artifactContract := ⟨["metrics.json", "logs"], []⟩
    evaluatorContract :=
      { guardrails :=
        [{ name := "accuracy", minimum := some (.finite (1 / 2)), required := true }] } }

def launchedDirectory : RunDirectory :=
  { sampleDirectory with
    artifacts := some ⟨"a",
      [{ name := "metrics.json"
         path := "artifacts/a/metrics.json"
         mediaType := "application/json"
         required := true
         sha256 := some "digest" },
       { name := "logs/", path := "artifacts/a/logs/", mediaType := "inode/directory", required :=
         false }]⟩ }

theorem succeeded_mem : RunState.succeeded ∈ bundleStates := by decide

/-- The run is ingested. A report of its success is refused, since the index lists no `logs`, and a
claim rests on the metrics that were verified. -/
def supportedClaim : List ApiRequest :=
  launchOf guardedExecution ++
    [.ingest "a" sampleClock launchedDirectory,
      .results "a" { terminalStatus := .succeeded, terminal := succeeded_mem } 2,
      .claim
        { statement := "The baseline is enough."
          assessment := .supported
          hypothesisIds := ["h"]
          evidence := [⟨"a", "metrics.json"⟩] }
        ⟨4, "claim"⟩ fun _ _ => some "digest"]

def questionAudit : Audit := ⟨questionApi, []⟩

theorem verified_bundle_kept_claimed :
    ((exec (auditStep sampleDeployment) questionAudit supportedClaim).api.investigation.claims.map
        InvestigationClaimRecord.assessment = [.supported]) ∧
      BundleKept (exec (auditStep sampleDeployment) questionAudit supportedClaim) ∧
      Along (auditStep sampleDeployment) (RestsOnVerified sampleDeployment) questionAudit
        supportedClaim :=
  ⟨by decide +kernel, verified_bundle_kept sampleDeployment _ supportedClaim (by decide +kernel)⟩

theorem verified_bundle_overwritten :
    ¬ BundleKept (exec (auditStep sampleDeployment) ⟨⟨{}, sampleInvestigation⟩, []⟩
        (verification ++ [laterReport])) := by
  intro h
  have hRun : ((exec (auditStep sampleDeployment) ⟨⟨{}, sampleInvestigation⟩, []⟩
      (verification ++ [laterReport])).api.world.store.getRun "a").map
        (fun run => (run.artifactBundleVerified, run.reportedMetrics)) = some (true, []) := by
    decide +kernel
  have hBundle : ((exec (auditStep sampleDeployment) ⟨⟨{}, sampleInvestigation⟩, []⟩
      (verification ++ [laterReport])).ingested.lookup "a").map TerminalBundle.metrics =
        some [("accuracy", .scalar (.int 1))] := by
    decide +kernel
  obtain ⟨run, hStored, hFields⟩ := map_eq_some_iff.mp hRun
  obtain ⟨hFlag, hNone⟩ := Prod.mk.inj hFields
  obtain ⟨bundle, hLookup, -, hMetrics, -⟩ := h "a" run hStored hFlag
  rw [hLookup] at hBundle
  have hSame := (hMetrics.symm.trans hNone).symm.trans (Option.some.inj hBundle)
  cases hSame

end Glasslab.WorkflowApi
