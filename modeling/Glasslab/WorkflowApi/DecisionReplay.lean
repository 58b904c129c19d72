import Glasslab.WorkflowApi.Autoresearch
import Glasslab.WorkflowApi.ObservedStatus

/-!
# Deciding an iteration again

`decide_campaign_iteration` looks for the recorded decision of an iteration from the oldest record
of the campaign's log on, and takes an escalation there for stale once the run has succeeded with a
number. An escalation that was replaced stays in the log and is found again, and so does one that
the evaluation of a successful run comes to: in both cases the next call decides anew and writes one
more record. A call repeats the last one exactly if that one reused a record, or wrote the first
record of its iteration and this record is no stale escalation (`decide_idempotent_iff`).
-/

namespace Glasslab.WorkflowApi

open Foundation Foundation.Tx List Raising

variable {sight sight₂ : Sight} {now now₂ : Instant} {decisionId decisionId₂ iterationId : String}
  {campaign campaign' : AutoresearchCampaignRecord}
  {iteration iteration' : AutoresearchIterationRecord} {decision : AutoresearchDecisionRecord}
  {child : IterationSummary} {s s' : AutoresearchStore}

/-! ## What a decision finds and leaves -/

def contractOf (s : AutoresearchStore) (campaign : AutoresearchCampaignRecord)
    (iteration : AutoresearchIterationRecord) : Option EvaluatorContract :=
  resolveEvaluatorContract (s.getMethodologyDraft iteration.childMethodologyDraftId) campaign

def Scored (sight : Sight) (s : AutoresearchStore) (campaign : AutoresearchCampaignRecord)
    (iterationId : String) (iteration : AutoresearchIterationRecord) (child : IterationSummary) :
    Prop :=
  s.getIteration iterationId = some iteration ∧ ∃ run, s.getRun iteration.runId = some run ∧
    summarizeIterationRun sight run (contractOf s campaign iteration) = .ok child

theorem Scored.unique {child' : IterationSummary}
    (h : Scored sight s campaign iterationId iteration child)
    (h' : Scored sight s campaign iterationId iteration' child') :
    iteration' = iteration ∧ child' = child := by
  obtain ⟨hIteration, run, hRun, hChild⟩ := h
  obtain ⟨hIteration', run', hRun', hChild'⟩ := h'
  rw [hIteration] at hIteration'
  obtain rfl := Option.some.inj hIteration'
  rw [hRun] at hRun'
  obtain rfl := Option.some.inj hRun'
  rw [hChild] at hChild'
  exact ⟨rfl, (Except.ok.inj hChild').symm⟩

def reopenedStore (now : Instant) (s : AutoresearchStore)
    (iteration : AutoresearchIterationRecord) :
    AutoresearchStore :=
  if iteration.decision = none then s else s.saveIteration (reopened now iteration)

def reopenedIteration (now : Instant) (iteration : AutoresearchIterationRecord) :
    AutoresearchIterationRecord :=
  if iteration.decision = none then iteration else reopened now iteration

/-- What a fresh decision of an iteration writes, given the summary of the baseline. -/
def writtenBy (now : Instant) (decisionId : String) (s : AutoresearchStore)
    (campaign : AutoresearchCampaignRecord) (iteration : AutoresearchIterationRecord)
    (child : IterationSummary) (parent : Option IterationSummary) : Verdict :=
  let contract := contractOf s campaign iteration
  verdict now decisionId campaign iteration child (buildIterationComparison child parent contract)
    contract

theorem decideAfresh_returns :
    Returns (decideAfresh sight now decisionId campaign iteration child) s
        (campaign', iteration', decision) s' ↔
      ∃ parent, baselineSummary sight s campaign iteration (contractOf s campaign iteration) =
          .ok parent ∧
        ⟨decision, iteration', campaign'⟩ =
          writtenBy now decisionId s campaign iteration child parent ∧
        s' = s.record ⟨decision, iteration', campaign'⟩ now
          (s.getMethodologyDraft iteration.childMethodologyDraftId) := by
  unfold decideAfresh
  rw [returns_get_bind, returns_bind]
  constructor
  · rintro ⟨parent, s₁, hParent, h⟩
    obtain ⟨hParent, rfl⟩ := returns_ofExcept.mp hParent
    obtain ⟨_, s₂, hWrite, h⟩ := returns_bind.mp h
    obtain ⟨hResult, rfl⟩ := returns_pure.mp h
    cases hResult
    exact ⟨parent, hParent, rfl, returns_modify.mp hWrite⟩
  · rintro ⟨parent, hParent, hWritten, rfl⟩
    refine ⟨parent, s, returns_ofExcept.mpr ⟨hParent, rfl⟩, ?_⟩
    refine returns_bind.mpr ⟨(), _, returns_modify.mpr rfl, returns_pure.mpr ⟨?_, ?_⟩⟩
    · exact congrArg (fun v : Verdict => (v.campaign, v.iteration, v.decision)) hWritten
    · exact congrArg (fun v : Verdict => s.record v now
        (s.getMethodologyDraft iteration.childMethodologyDraftId)) hWritten

theorem reopen_returns {r : AutoresearchCampaignRecord × AutoresearchIterationRecord ×
    AutoresearchDecisionRecord} :
    Returns (if iteration.decision = none then
        decideAfresh sight now decisionId campaign iteration child
      else do
        Tx.modify fun store => store.saveIteration (reopened now iteration)
        decideAfresh sight now decisionId campaign (reopened now iteration) child) s r s' ↔
      Returns (decideAfresh sight now decisionId campaign (reopenedIteration now iteration) child)
        (reopenedStore now s iteration) r s' := by
  unfold reopenedIteration reopenedStore
  by_cases hOpen : iteration.decision = none
  · rw [if_pos hOpen, if_pos hOpen, if_pos hOpen]
  · rw [if_neg hOpen, if_neg hOpen, if_neg hOpen, returns_bind]
    constructor
    · rintro ⟨_, s₁, hSave, h⟩
      rw [returns_modify.mp hSave] at h
      exact h
    · intro h
      exact ⟨(), _, returns_modify.mpr rfl, h⟩

theorem decideCampaignIteration_returns :
    Returns (decideCampaignIteration sight now decisionId campaign iterationId) s
        (campaign', iteration', decision) s' ↔
      ∃ iteration child, Scored sight s campaign iterationId iteration child ∧
        match reusableDecision s campaign iteration child with
        | some existing =>
          campaign' = campaign ∧ iteration' = iteration ∧ decision = existing ∧ s' = s
        | none =>
          Returns (decideAfresh sight now decisionId campaign
              (reopenedIteration now iteration) child)
            (reopenedStore now s iteration) (campaign', iteration', decision) s' := by
  unfold decideCampaignIteration
  rw [returns_get_bind, returns_bind]
  constructor
  · rintro ⟨iteration, s₁, hIteration, h⟩
    obtain ⟨hIteration, rfl⟩ := returns_ofExcept.mp hIteration
    obtain ⟨run, s₂, hRun, h⟩ := returns_bind.mp h
    obtain ⟨hRun, rfl⟩ := returns_ofExcept.mp hRun
    obtain ⟨child, s₃, hChild, h⟩ := returns_bind.mp h
    obtain ⟨hChild, rfl⟩ := returns_ofExcept.mp hChild
    refine ⟨iteration, child, ⟨elim_eq_ok_iff.mp hIteration, run,
      elim_eq_ok_iff.mp hRun, hChild⟩, ?_⟩
    cases hReuse : reusableDecision s₃ campaign iteration child with
    | some existing =>
      rw [hReuse] at h
      obtain ⟨hResult, rfl⟩ := returns_pure.mp h
      cases hResult
      exact ⟨rfl, rfl, rfl, rfl⟩
    | none =>
      rw [hReuse] at h
      exact reopen_returns.mp h
  · rintro ⟨iteration, child, ⟨hIteration, run, hRun, hChild⟩, h⟩
    refine ⟨iteration, s, returns_ofExcept.mpr ⟨elim_eq_ok_iff.mpr hIteration, rfl⟩,
      returns_bind.mpr ⟨run, s, returns_ofExcept.mpr ⟨elim_eq_ok_iff.mpr hRun, rfl⟩,
        returns_bind.mpr ⟨child, s, returns_ofExcept.mpr ⟨hChild, rfl⟩, ?_⟩⟩⟩
    cases hReuse : reusableDecision s campaign iteration child with
    | some existing =>
      rw [hReuse] at h
      obtain ⟨rfl, rfl, rfl, rfl⟩ := h
      exact returns_pure.mpr ⟨rfl, rfl⟩
    | none =>
      rw [hReuse] at h
      exact reopen_returns.mpr h

/-- The records of an iteration, in the order in which they were saved. -/
def recordsOf (s : AutoresearchStore) (campaignId iterationId : String) :
    List AutoresearchDecisionRecord :=
  s.decisions.rows.filter fun record =>
    record.iterationId = iterationId ∧ record.campaignId = campaignId

theorem existingDecision_eq : existingDecision s campaign iteration =
    (sortOn AutoresearchDecisionRecord.createdAt
      (recordsOf s campaign.campaignId iteration.iterationId)).head? := by
  unfold existingDecision AutoresearchStore.listDecisions recordsOf
  rw [← List.head?_filter, filter_sortOn, filter_filter]
  simp only [Bool.decide_and]

def FirstRecord (now : Instant) (s : AutoresearchStore) (campaignId iterationId : String) : Prop :=
  ∀ record ∈ recordsOf s campaignId iterationId, now < record.createdAt

instance : Decidable (FirstRecord now s iterationId decisionId) :=
  inferInstanceAs
    (Decidable (∀ record ∈ recordsOf s iterationId decisionId, now < record.createdAt))

/-- A new record is found first only if no older one is there. -/
theorem head?_recordsOf_put {record : AutoresearchDecisionRecord}
    (hFresh : s.decisions.find record.decisionId = none)
    (hPut : s'.decisions = s.decisions.put record) :
    (sortOn AutoresearchDecisionRecord.createdAt
        (recordsOf s' record.campaignId record.iterationId)).head? =
      if FirstRecord record.createdAt s record.campaignId record.iterationId then some record
      else (sortOn AutoresearchDecisionRecord.createdAt
        (recordsOf s record.campaignId record.iterationId)).head? := by
  have hRecords : recordsOf s' record.campaignId record.iterationId =
      recordsOf s record.campaignId record.iterationId ++ [record] := by
    unfold recordsOf
    rw [hPut, KeyedTable.rows_put_of_find_none hFresh, filter_append]
    simp
  rw [hRecords, head?_sortOn_concat]
  rfl

/-- The evaluation of a successful run escalates: the contract has no primary metric, a guardrail
fails, or the change is smaller than the minimum effect. -/
def Inconclusive (child : IterationSummary) (comparison : IterationComparison)
    (contract : Option EvaluatorContract) : Prop :=
  ∀ primary ∈ contract.bind EvaluatorContract.primaryMetric, failedGuardrails child ≠ [] ∨
    ∃ delta ∈ comparison.normalizedDelta, truthy comparison.metricName = true ∧
      (effectiveMinimum comparison primary).le delta = false ∧
      delta.le (effectiveMinimum comparison primary).neg = false

variable {contract : Option EvaluatorContract}

theorem buildDecision_escalates_iff {comparison : IterationComparison}
    (h : child.actionable = true) :
    (buildDecision child comparison contract).1 = .escalateForReview ↔
      Inconclusive child comparison contract := by
  obtain ⟨hStatus, hValue⟩ :
    child.runStatus = .succeeded ∧ child.primaryMetricValue.isSome = true :=
    of_decide_eq_true h
  unfold buildDecision Inconclusive
  rw [if_neg (by rw [hStatus]; decide)]
  cases hPrimary : contract.bind EvaluatorContract.primaryMetric with
  | none => simp
  | some primary =>
    simp only [Option.mem_def, Option.some.injEq, forall_eq']
    by_cases hFailed : failedGuardrails child = []
    · unfold decideByMetric
      cases hDelta : comparison.normalizedDelta with
      | none => simp [hFailed, hStatus, hValue]
      | some delta =>
        cases hName : truthy comparison.metricName with
        | false => simp [hFailed, hStatus, hValue]
        | true =>
          cases hKeep : (effectiveMinimum comparison primary).le delta <;>
            cases hDiscard : delta.le (effectiveMinimum comparison primary).neg <;>
              simp [hFailed, hKeep, hDiscard]
    · simp [hFailed]

/-! ## The second call -/

theorem contractOf_reopened : contractOf (reopenedStore now s iteration) campaign
    (reopenedIteration now iteration) = contractOf s campaign iteration := by
  unfold reopenedStore reopenedIteration
  by_cases hOpen : iteration.decision = none
  · rw [if_pos hOpen, if_pos hOpen]
  · rw [if_neg hOpen, if_neg hOpen]
    rfl

theorem baselineSummary_reopened :
    baselineSummary sight (reopenedStore now s iteration) campaign (reopenedIteration now iteration)
        contract =
      baselineSummary sight s campaign iteration contract := by
  unfold reopenedStore reopenedIteration
  by_cases hOpen : iteration.decision = none
  · rw [if_pos hOpen, if_pos hOpen]
  · rw [if_neg hOpen, if_neg hOpen]
    have hOthers : ((s.saveIteration (reopened now iteration)).listIterations
          campaign.campaignId).filter (fun record => record.iterationId ≠ iteration.iterationId) =
        (s.listIterations campaign.campaignId).filter
          (fun record => record.iterationId ≠ iteration.iterationId) := by
      unfold AutoresearchStore.listIterations
      rw [filter_sortOn, filter_sortOn, filter_filter, filter_filter]
      refine congrArg _ (KeyedTable.filter_put fun row hRow => ?_)
      have hSame : row.iterationId = iteration.iterationId := hRow
      simp [hSame]
    have hBaseline : baselineIteration (s.saveIteration (reopened now iteration)) campaign
        (reopened now iteration) = baselineIteration s campaign iteration :=
      congrArg (fun l => l.reverse.find? fun prior => prior.decision = some .keep) hOthers
    unfold baselineSummary
    rw [hBaseline]
    rfl

theorem reopenedIteration_eq (now : Instant) (iteration : AutoresearchIterationRecord) :
    ∃ updatedAt status previous, reopenedIteration now iteration =
      { iteration with updatedAt := updatedAt, status := status, decision := previous } := by
  by_cases hOpen : iteration.decision = none
  · exact ⟨iteration.updatedAt, iteration.status, iteration.decision, if_pos hOpen⟩
  · exact ⟨now, .completed, none, if_neg hOpen⟩

/-- What a fresh decision has written about the iteration and the campaign. -/
structure Fresh (sight : Sight) (now : Instant) (decisionId : String) (s : AutoresearchStore)
    (campaign : AutoresearchCampaignRecord) (iteration : AutoresearchIterationRecord)
    (child : IterationSummary) (s' : AutoresearchStore) (campaign' : AutoresearchCampaignRecord)
    (iteration' : AutoresearchIterationRecord) (decision : AutoresearchDecisionRecord) : Prop where
  iterationId : iteration'.iterationId = iteration.iterationId
  runId : iteration'.runId = iteration.runId
  draftId : iteration'.childMethodologyDraftId = iteration.childMethodologyDraftId
  decided : iteration'.decision = some decision.decisionType
  campaignId : campaign'.campaignId = campaign.campaignId
  contract : campaign'.evaluatorContract = campaign.evaluatorContract
  best : campaign'.currentBestMethodologyDraftId =
    if decision.decisionType = .keep then some iteration.childMethodologyDraftId
    else campaign.currentBestMethodologyDraftId
  record : decision.decisionId = decisionId ∧ decision.campaignId = campaign.campaignId ∧
    decision.iterationId = iteration.iterationId ∧ decision.createdAt = now
  evaluated : ∃ parent,
    baselineSummary sight s campaign iteration (contractOf s campaign iteration) = .ok parent ∧
    decision.decisionType = (buildDecision child (buildIterationComparison child parent
      (contractOf s campaign iteration)) (contractOf s campaign iteration)).1
  runs : s'.world = s.world
  drafts : (s'.getMethodologyDraft iteration.childMethodologyDraftId).bind
      MethodologyDraftRecord.methodSpec =
    (s.getMethodologyDraft iteration.childMethodologyDraftId).bind MethodologyDraftRecord.methodSpec
  iterations : s'.getIteration iteration.iterationId = some iteration'
  decisions : s'.decisions = s.decisions.put decision
  campaigns : s'.campaigns = s.campaigns.put campaign'

theorem decideAfresh_fresh
    (h : Returns
    (decideAfresh sight now decisionId campaign (reopenedIteration now iteration) child)
      (reopenedStore now s iteration) (campaign', iteration', decision) s') :
    Fresh sight now decisionId s campaign iteration child s' campaign' iteration' decision := by
  obtain ⟨parent, hParent, hWritten, hStore⟩ := decideAfresh_returns.mp h
  rw [contractOf_reopened, baselineSummary_reopened] at hParent
  obtain ⟨updatedAt, status, previous, hReopened⟩ := reopenedIteration_eq now iteration
  have hWorld : (reopenedStore now s iteration).world = s.world := by
    unfold reopenedStore
    split <;> rfl
  have hDrafts : (reopenedStore now s iteration).methodologyDrafts = s.methodologyDrafts := by
    unfold reopenedStore
    split <;> rfl
  have hDecisions : (reopenedStore now s iteration).decisions = s.decisions := by
    unfold reopenedStore
    split <;> rfl
  have hCampaigns : (reopenedStore now s iteration).campaigns = s.campaigns := by
    unfold reopenedStore
    split <;> rfl
  unfold writtenBy at hWritten
  rw [contractOf_reopened, hReopened] at hWritten
  rw [hReopened] at hStore
  obtain ⟨hDecision, hIteration, hCampaign⟩ := Verdict.mk.injEq .. ▸ hWritten
  have hIterationId : iteration'.iterationId = iteration.iterationId := by rw [hIteration]
  exact
    { iterationId := hIterationId
      runId := by rw [hIteration]
      draftId := by rw [hIteration]
      decided := by rw [hIteration, hDecision]
      campaignId := by rw [hCampaign]
      contract := by rw [hCampaign]
      best := by rw [hCampaign, hDecision]
      record := by
        rw [hDecision]
        exact ⟨rfl, rfl, rfl, rfl⟩
      evaluated := ⟨parent, hParent, by rw [hDecision]⟩
      runs := by rw [hStore, AutoresearchStore.world_record, hWorld]
      drafts := by
        rw [hStore, AutoresearchStore.methodSpec_record]
        exact congrArg (fun drafts => (KeyedTable.find drafts _).bind
          MethodologyDraftRecord.methodSpec) hDrafts
      iterations := by
        have hFind : (s'.iterations.find iteration.iterationId) = some iteration' := by
          rw [hStore, AutoresearchStore.iterations_record, KeyedTable.find_put,
            if_pos hIterationId.symm]
        exact hFind
      decisions := by rw [hStore, AutoresearchStore.decisions_record, hDecisions]
      campaigns := by rw [hStore, AutoresearchStore.campaigns_record, hCampaigns] }

section

variable (h : Fresh sight now decisionId s campaign iteration child s' campaign' iteration'
  decision)
include h

theorem Fresh.scored
    (hScored : Scored sight s campaign iterationId iteration child)
    (hSees : ∀ run contract, s.getRun iteration.runId = some run →
      summarizeIterationRun sight₂ run contract = summarizeIterationRun sight run contract) :
    Scored sight₂ s' campaign' iterationId iteration' child := by
  obtain ⟨hIteration, run, hRun, hChild⟩ := hScored
  have hId : iteration.iterationId = iterationId := (KeyedTable.find_eq_some_iff.mp hIteration).2
  have hContract : contractOf s' campaign' iteration' = contractOf s campaign iteration := by
    unfold contractOf resolveEvaluatorContract
    rw [h.draftId, h.drafts, h.contract]
  refine ⟨hId ▸ h.iterations, run, ?_, ?_⟩
  · show s'.world.store.getRun iteration'.runId = some run
    rw [h.runs, h.runId]
    exact hRun
  · rw [hContract, hSees run _ hRun]
    exact hChild

theorem Fresh.existingDecision
    (hNew : s.decisions.find decisionId = none) :
    existingDecision s' campaign' iteration' =
      if FirstRecord now s campaign.campaignId iteration.iterationId then some decision
      else existingDecision s campaign iteration := by
  obtain ⟨hId, hCampaign, hIteration, hCreated⟩ := h.record
  rw [existingDecision_eq, existingDecision_eq, h.campaignId, h.iterationId, ← hCampaign,
    ← hIteration, head?_recordsOf_put (by rw [hId]; exact hNew) h.decisions, hCreated]

end

/-- Runs with these statuses and metrics files and no directory of their own. -/
def sampleSight (status : String → RunState) (metricsFile : String → MetricsFile) : Sight where
  clock := { now := 0, isoNow := text "", parseInstant := fun _ => none }
  directory _ := { status := .absent }
  live runId := .status ⟨runId, status runId, 0, none⟩
  metricsFile := metricsFile
  repr _ := ""

def accuracyFile (value : Rat) : MetricsFile :=
  .json (.map [("accuracy", .scalar (.float (.finite value)))])

def sampleCampaign : AutoresearchCampaignRecord where
  campaignId := "c"
  sessionId := "session"
  updatedAt := 0
  status := .active
  evaluatorContract := some { primaryMetric := some { name := "accuracy" } }

def sampleIteration (iterationId draftId : String) (createdAt : Instant) :
    AutoresearchIterationRecord where
  iterationId := iterationId
  campaignId := "c"
  childMethodologyDraftId := draftId
  runId := draftId
  createdAt := createdAt
  updatedAt := createdAt
  status := .launched

def launchedStore : AutoresearchStore :=
  (AutoresearchStore.saveIteration { world := { store := { runs := [("a", tabularRun)] } } }
    (sampleIteration "i" "a" 0)).saveCampaign sampleCampaign

def runningSight : Sight := sampleSight (fun _ => .running) fun _ => .absent

def succeededSight : Sight := sampleSight (fun _ => .succeeded) fun _ => accuracyFile (9 / 10)

/-! ## The result -/

/-- The call returns the recorded decision again, writes nothing, and changes no record. -/
def Repeats (sight : Sight) (now : Instant) (decisionId : String)
    (campaign : AutoresearchCampaignRecord) (iterationId : String)
    (iteration : AutoresearchIterationRecord) (decision : AutoresearchDecisionRecord)
    (s : AutoresearchStore) : Prop :=
  decideCampaignIteration sight now decisionId campaign iterationId s =
    (.ok (campaign, iteration, decision), s)

/-- The call reuses the record of the iteration, or the log has no older one and the run is not a
successful one whose evaluation settles nothing. -/
def Lasting (sight : Sight) (now : Instant) (campaign : AutoresearchCampaignRecord)
    (iterationId : String) (s : AutoresearchStore) : Prop :=
  ∀ iteration child, Scored sight s campaign iterationId iteration child →
    reusableDecision s campaign iteration child = none →
    FirstRecord now s campaign.campaignId iterationId ∧
      ∀ parent, baselineSummary sight s campaign iteration (contractOf s campaign iteration) =
          .ok parent →
        ¬ (child.actionable = true ∧
          Inconclusive child
            (buildIterationComparison child parent (contractOf s campaign iteration))
            (contractOf s campaign iteration))

/-- A decision that is taken afresh carries the new id. -/
theorem decisionId_of_fresh
    (h : decideCampaignIteration sight now decisionId campaign iterationId s =
      (.ok (campaign', iteration', decision), s'))
    (hScored : Scored sight s campaign iterationId iteration child)
    (hReuse : reusableDecision s campaign iteration child = none) :
    decision.decisionId = decisionId := by
  obtain ⟨iteration₁, child₁, hScored₁, hCase⟩ := decideCampaignIteration_returns.mp h
  obtain ⟨rfl, rfl⟩ := hScored.unique hScored₁
  rw [hReuse] at hCase
  exact (decideAfresh_fresh hCase).record.1

/-- Deciding an iteration again repeats the last call exactly if that call reused a record, or wrote
the first record of the iteration, which is no escalation of a successful run with a number. -/
theorem decide_idempotent_iff
    (hFirst : decideCampaignIteration sight now decisionId campaign iterationId s =
      (.ok (campaign', iteration', decision), s'))
    (hNew : s.decisions.find decisionId = none) (hNew₂ : s'.decisions.find decisionId₂ = none)
    (hSees : ∀ run contract, s.getRun iteration'.runId = some run →
      summarizeIterationRun sight₂ run contract = summarizeIterationRun sight run contract) :
    Repeats sight₂ now₂ decisionId₂ campaign' iterationId iteration' decision s' ↔
      Lasting sight now campaign iterationId s := by
  obtain ⟨iteration, child, hScored, hCase⟩ := decideCampaignIteration_returns.mp hFirst
  have hLasting : Lasting sight now campaign iterationId s ↔
      (reusableDecision s campaign iteration child = none →
        FirstRecord now s campaign.campaignId iterationId ∧
          ∀ parent, baselineSummary sight s campaign iteration (contractOf s campaign iteration) =
              .ok parent →
            ¬ (child.actionable = true ∧
              Inconclusive child
                (buildIterationComparison child parent (contractOf s campaign iteration))
                (contractOf s campaign iteration))) := by
    constructor
    · intro h
      exact h iteration child hScored
    · intro h iteration₁ child₁ hScored₁
      obtain ⟨rfl, rfl⟩ := hScored.unique hScored₁
      exact h
  rw [hLasting]
  cases hReuse : reusableDecision s campaign iteration child with
  | some existing =>
    rw [hReuse] at hCase
    obtain ⟨rfl, rfl, rfl, rfl⟩ := hCase
    refine ⟨fun _ h => (by cases h), fun _ => decideCampaignIteration_returns.mpr ?_⟩
    obtain ⟨hIteration, run, hRun, hChild⟩ := hScored
    refine ⟨iteration', child, ⟨hIteration, run, hRun, ?_⟩, ?_⟩
    · rw [hSees run _ hRun]
      exact hChild
    · rw [hReuse]
      exact ⟨rfl, rfl, rfl, rfl⟩
  | none =>
    rw [hReuse] at hCase
    have hFresh := decideAfresh_fresh hCase
    have hScored' := hFresh.scored hScored (by rw [← hFresh.runId]; exact hSees)
    have hId : iteration.iterationId = iterationId :=
      (KeyedTable.find_eq_some_iff.mp hScored.1).2
    have hFound := hFresh.existingDecision hNew
    rw [hId] at hFound
    have hReuse' : reusableDecision s' campaign' iteration' child =
        (existingDecision s' campaign' iteration').filter
          fun existing => !staleEscalation existing child := by
      unfold reusableDecision
      rw [if_neg (by rw [hFresh.decided]; exact Option.some_ne_none _)]
    -- the second call repeats the first one only by finding its record
    have hRepeats : Repeats sight₂ now₂ decisionId₂ campaign' iterationId iteration' decision s' ↔
        reusableDecision s' campaign' iteration' child = some decision := by
      constructor
      · intro h
        obtain ⟨iteration₁, child₁, hScored₁, hAgain⟩ := decideCampaignIteration_returns.mp h
        obtain ⟨rfl, rfl⟩ := hScored'.unique hScored₁
        cases hReuse₁ : reusableDecision s' campaign' iteration₁ child₁ with
        | some existing =>
          rw [hReuse₁] at hAgain
          rw [hAgain.2.2.1]
        | none =>
          have hSecond := decisionId_of_fresh h hScored' hReuse₁
          have hMem : decision ∈ s'.decisions.rows := by
            rw [hFresh.decisions]
            exact KeyedTable.mem_put.mpr (.inl rfl)
          exact absurd hSecond (KeyedTable.find_eq_none_iff.mp hNew₂ decision hMem)
      · intro h
        refine decideCampaignIteration_returns.mpr ⟨iteration', child, hScored', ?_⟩
        rw [h]
        exact ⟨rfl, rfl, rfl, rfl⟩
    rw [hRepeats, hReuse', hFound]
    by_cases hOldest : FirstRecord now s campaign.campaignId iterationId
    · rw [if_pos hOldest]
      obtain ⟨parent, hParent, hType⟩ := hFresh.evaluated
      have hStale : staleEscalation decision child = true ↔ child.actionable = true ∧
          Inconclusive child
            (buildIterationComparison child parent (contractOf s campaign iteration))
            (contractOf s campaign iteration) := by
        unfold staleEscalation
        rw [decide_eq_true_iff, hType, and_comm]
        exact and_congr_right fun hActionable => buildDecision_escalates_iff hActionable
      constructor
      · intro h _
        refine ⟨hOldest, fun parent' hParent' => ?_⟩
        rw [hParent] at hParent'
        obtain rfl := Except.ok.inj hParent'
        rw [← hStale]
        simpa using (Option.filter_eq_some_iff.mp h).2
      · intro h
        have hNot := (h rfl).2 parent hParent
        rw [← hStale] at hNot
        exact Option.filter_eq_some_iff.mpr ⟨rfl, by simpa using hNot⟩
    · rw [if_neg hOldest]
      constructor
      · -- an older record has another id
        intro h
        have hExisting := (Option.filter_eq_some_iff.mp h).1
        rw [existingDecision_eq] at hExisting
        have hMem := (mem_filter.mp (le_of_head?_sortOn hExisting).1).1
        exact absurd hFresh.record.1 (KeyedTable.find_eq_none_iff.mp hNew decision hMem)
      · intro h
        exact absurd (h rfl).1 hOldest

/-- The first decision of a successful run lasts. -/
theorem decide_idempotent_iff_kept : Lasting succeededSight 1 sampleCampaign "i" launchedStore := by
  have hKept : ∃ campaign iteration decision s,
      decideCampaignIteration succeededSight 1 "d1" sampleCampaign "i" launchedStore =
        (.ok (campaign, iteration, decision), s) ∧ s.decisions.find "d2" = none ∧
      Repeats succeededSight 2 "d2" campaign "i" iteration decision s := by
    refine ⟨_, _, _, _, rfl, ?_⟩
    unfold Repeats
    decide +kernel
  obtain ⟨campaign, iteration, decision, s, hFirst, hNew₂, hRepeats⟩ := hKept
  exact (decide_idempotent_iff hFirst rfl hNew₂ fun _ _ _ => rfl).mp hRepeats

/-- The replaced escalation is found again, and a third record is written. -/
theorem replaced_escalation_decided_again :
    ∃ campaign iteration decision s campaign₂ iteration₂ decision₂ s₂,
      decideCampaignIteration runningSight 1 "d1" sampleCampaign "i" launchedStore =
        (.ok (campaign, iteration, decision), s) ∧
      decision.decisionType = .escalateForReview ∧
      decideCampaignIteration succeededSight 2 "d2" campaign "i" s =
        (.ok (campaign₂, iteration₂, decision₂), s₂) ∧
      decision₂.decisionType = .keep ∧ s₂.decisions.find "d3" = none ∧
      ¬ Repeats succeededSight 3 "d3" campaign₂ "i" iteration₂ decision₂ s₂ := by
  refine ⟨_, _, _, _, _, _, _, _, rfl, rfl, rfl, rfl, rfl, ?_⟩
  unfold Repeats
  decide +kernel

end Glasslab.WorkflowApi
