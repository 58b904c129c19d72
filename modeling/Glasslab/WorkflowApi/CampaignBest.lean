import Glasslab.WorkflowApi.DecisionReplay

/-!
# The best methodology of a campaign

`decide-latest` and `decide-ready-batch`: every decision starts from the store that the one before
left. A decision that keeps an iteration makes its draft the best one. It compares the iteration
with the latest kept one in the order of creation, which need not be the best one recorded, and an
iteration that it cannot compare is kept as if it were the first. The best one does not regress in a
run whose decisions are all taken against a baseline that is as good as the best one
(`best_never_regresses`).
-/

namespace Glasslab.WorkflowApi

open Foundation Foundation.Tx List Option Raising Except

variable {sight : Sight} {now : Instant} {decisionId iterationId : String}
  {campaign campaign' : AutoresearchCampaignRecord}
  {iteration iteration' : AutoresearchIterationRecord} {decision : AutoresearchDecisionRecord}
  {child : IterationSummary} {s s' : AutoresearchStore}

/-! ## Which value is better -/

def AtLeastAsGood (direction : String) (new old : Float64) : Prop :=
  if direction ≠ "minimize" then old.le new = true else new.le old = true

instance {direction : String} {new old : Float64} : Decidable (AtLeastAsGood direction new old) :=
  inferInstanceAs (Decidable (ite ..))

theorem AtLeastAsGood.trans {direction : String} {new middle old : Float64}
    (h : AtLeastAsGood direction new middle) (h' : AtLeastAsGood direction middle old) :
    AtLeastAsGood direction new old := by
  unfold AtLeastAsGood at *
  by_cases hDirection : direction ≠ "minimize"
  · rw [if_pos hDirection] at *
    exact Float64.le_trans h' h
  · rw [if_neg hDirection] at *
    exact Float64.le_trans h h'

/-- The difference of two values, positive where the first one is better. -/
def normalizedDifference (direction : String) (new old : Float64) : Float64 :=
  if direction ≠ "minimize" then new.sub old else (new.sub old).neg

/-- A worse value that six digits do not tell from an equal one. -/
def LostInRounding : Float64 → Prop
  | .finite q => -(1 / 2000000) ≤ q ∧ q < 0
  | _ => False

instance : DecidablePred LostInRounding
  | .finite q => inferInstanceAs (Decidable (-(1 / 2000000) ≤ q ∧ q < 0))
  | .infinity | .negativeInfinity | .nan => .isFalse id

theorem nonneg_of_le_round6 {minimum difference : Float64}
    (hMinimum : (Float64.finite 0).le minimum)
    (hEffect : minimum.le difference.round6 = true)
    (hLost : minimum = .finite 0 → ¬ LostInRounding difference) :
    (Float64.finite 0).le difference = true := by
  cases difference with
  | infinity => rfl
  | nan => cases minimum <;> cases hEffect
  | negativeInfinity =>
    cases minimum with
    | negativeInfinity => cases hMinimum
    | _ => cases hEffect
  | finite q =>
    cases minimum with
    | infinity => cases hEffect
    | nan => cases hMinimum
    | negativeInfinity => cases hMinimum
    | finite m =>
      have hm : 0 ≤ m := of_decide_eq_true hMinimum
      have hRound : m ≤ (roundHalfEven (q * 1000000) : ℚ) / 1000000 := of_decide_eq_true hEffect
      refine decide_eq_true ?_
      by_contra hNeg
      have hq : q < 0 := not_le.mp hNeg
      -- a negative difference is rounded to zero at best
      have hNonpos : (roundHalfEven (q * 1000000) : ℚ) ≤ 0 := by
        exact_mod_cast roundHalfEven_nonpos (by linarith)
      have hZero : m = 0 := by linarith
      by_cases hSmall : -(1 / 2000000) ≤ q
      · exact hLost (congrArg _ hZero) ⟨hSmall, hq⟩
      · have hLess : (roundHalfEven (q * 1000000) : ℚ) < 0 := by
          exact_mod_cast roundHalfEven_neg (by linarith)
        linarith

theorem atLeastAsGood_of_difference {direction : String} {new old : Float64}
    (h : (Float64.finite 0).le (normalizedDifference direction new old) = true) :
    AtLeastAsGood direction new old := by
  unfold AtLeastAsGood
  unfold normalizedDifference at h
  by_cases hDirection : direction ≠ "minimize"
  · cases new <;> cases old <;> simp_all [Float64.le, Float64.sub]
  · cases new <;> cases old <;> simp_all [Float64.le, Float64.sub, Float64.neg]

/-- What one decision finds outside the store, its reading of the clock and its new id. -/
structure Turn where
  sight : Sight
  now : Instant
  decisionId : String

def getRequiredCampaign (store : AutoresearchStore) (campaignId : String) :
    Except Failure AutoresearchCampaignRecord :=
  (store.getCampaign campaignId).elim (.error (notFound "autoresearch campaign not found")) .ok

/-- `decide_latest_autoresearch_iteration`. -/
def decideLatest (campaignId : String) (turn : Turn) :
    Tx AutoresearchStore Failure
      (AutoresearchCampaignRecord × AutoresearchIterationRecord × AutoresearchDecisionRecord) := do
  let store ← Tx.get
  let campaign ← Tx.ofExcept (getRequiredCampaign store campaignId)
  if truthy campaign.latestIterationId then
    decideCampaignIteration turn.sight turn.now turn.decisionId campaign
      (campaign.latestIterationId.getD "")
  else Tx.raise (notFound "campaign has no iterations yet")

/-- An iteration whose run succeeded and that is undecided, or escalated and scored by now. -/
def isReady (check : String → Sight) (store : AutoresearchStore)
    (campaign : AutoresearchCampaignRecord) (iteration : AutoresearchIterationRecord) :
    Except Failure Bool :=
  match store.getRun iteration.runId with
  | none => .ok false
  | some run => do
    let draft := store.getMethodologyDraft iteration.childMethodologyDraftId
    let summary ← summarizeIterationRun (check iteration.iterationId) run
      (resolveEvaluatorContract draft campaign)
    .ok (summary.runStatus = .succeeded ∧ (iteration.decision = none ∨
      iteration.decision = some .escalateForReview ∧ summary.primaryMetricValue.isSome))

def readyIterations (check : String → Sight) (store : AutoresearchStore)
    (campaign : AutoresearchCampaignRecord) : Except Failure (List AutoresearchIterationRecord) :=
  (store.listIterations campaign.campaignId).filterM (isReady check store campaign)

/-- The decisions of a batch, each with the campaign that the one before returned. -/
def decideAll (turn : String → Turn) : AutoresearchCampaignRecord → List String →
    Tx AutoresearchStore Failure (AutoresearchCampaignRecord ×
      List (AutoresearchIterationRecord × AutoresearchDecisionRecord))
  | campaign, [] => pure (campaign, [])
  | campaign, iterationId :: rest => do
    let first ← decideCampaignIteration (turn iterationId).sight (turn iterationId).now
      (turn iterationId).decisionId campaign iterationId
    let others ← decideAll turn first.1 rest
    pure (others.1, first.2 :: others.2)

/-- `decide_ready_autoresearch_batch`. -/
def decideReadyBatch (campaignId : String) (check : String → Sight) (turn : String → Turn) :
    Tx AutoresearchStore Failure (AutoresearchCampaignRecord ×
      List (AutoresearchIterationRecord × AutoresearchDecisionRecord)) := do
  let store ← Tx.get
  let campaign ← Tx.ofExcept (getRequiredCampaign store campaignId)
  let ready ← Tx.ofExcept (readyIterations check store campaign)
  if ready = [] then
    Tx.raise (.http 409 (text "no completed undecided autoresearch iterations are ready"))
  else decideAll turn campaign (ready.map AutoresearchIterationRecord.iterationId)

/-- A request with what it finds: the state of every run, first where the batch is chosen, then
where it is decided. -/
inductive DecideRequest where
  | latest (turn : Turn)
  | readyBatch (check : String → Sight) (turn : String → Turn)

def DecideRequest.serve (campaignId : String) (s : AutoresearchStore) :
    DecideRequest → AutoresearchStore
  | .latest turn => (decideLatest campaignId turn s).2
  | .readyBatch check turn => (decideReadyBatch campaignId check turn s).2

/-- One call of `decide_campaign_iteration`, with the store it starts from. -/
structure DecideCall where
  turn : Turn
  campaign : AutoresearchCampaignRecord
  iterationId : String
  before : AutoresearchStore

def DecideCall.run (call : DecideCall) : Except Failure
    (AutoresearchCampaignRecord × AutoresearchIterationRecord × AutoresearchDecisionRecord) ×
      AutoresearchStore :=
  decideCampaignIteration call.turn.sight call.turn.now call.turn.decisionId call.campaign
    call.iterationId call.before

def DecideCall.after (call : DecideCall) : AutoresearchStore := call.run.2

def callsOfBatch (turn : String → Turn) :
    AutoresearchCampaignRecord → List String → AutoresearchStore → List DecideCall
  | _, [], _ => []
  | campaign, iterationId :: rest, s =>
    let call : DecideCall := ⟨turn iterationId, campaign, iterationId, s⟩
    call :: match call.run.1 with
      | .ok answer => callsOfBatch turn answer.1 rest call.after
      | .error _ => []

def DecideRequest.calls (campaignId : String) (s : AutoresearchStore) :
    DecideRequest → List DecideCall
  | .latest turn =>
    match s.getCampaign campaignId with
    | none => []
    | some campaign =>
      if truthy campaign.latestIterationId then
        [⟨turn, campaign, campaign.latestIterationId.getD "", s⟩]
      else []
  | .readyBatch check turn =>
    match s.getCampaign campaignId with
    | none => []
    | some campaign =>
      match readyIterations check s campaign with
      | .ok ready =>
        callsOfBatch turn campaign (ready.map AutoresearchIterationRecord.iterationId) s
      | .error _ => []

def callsOfAll (campaignId : String) : AutoresearchStore → List DecideRequest → List DecideCall
  | _, [] => []
  | s, request :: requests =>
    request.calls campaignId s ++ callsOfAll campaignId (request.serve campaignId s) requests

/-! ## From one decision to the next -/

/-- From one store to another by these decisions alone, each of the campaign as it is stored. -/
def Linked (campaignId : String) : AutoresearchStore → List DecideCall → AutoresearchStore → Prop
  | s, [], s' => s' = s
  | s, call :: calls, s' =>
    call.before = s ∧ s.getCampaign campaignId = some call.campaign ∧
      Linked campaignId call.after calls s'

variable {campaignId : String}

theorem Linked.append {s₁ s₂ s₃ : AutoresearchStore} {calls calls' : List DecideCall}
    (h : Linked campaignId s₁ calls s₂)
    (h' : Linked campaignId s₂ calls' s₃) : Linked campaignId s₁ (calls ++ calls') s₃ := by
  induction calls generalizing s₁ with
  | nil =>
    obtain rfl : s₂ = s₁ := h
    exact h'
  | cons call calls ih =>
    obtain ⟨hBefore, hCampaign, hRest⟩ := h
    exact ⟨hBefore, hCampaign, ih hRest⟩

/-- What holds of every decision whose campaign is the stored one holds of all of them. -/
theorem Linked.forall_campaign {calls : List DecideCall}
    (h : Linked campaignId s calls s') :
    ∀ call ∈ calls, call.before.getCampaign campaignId = some call.campaign := by
  induction calls generalizing s with
  | nil => simp
  | cons call calls ih =>
    obtain ⟨rfl, hCampaign, hRest⟩ := h
    intro other hOther
    rcases mem_cons.mp hOther with rfl | hOther
    · exact hCampaign
    · exact ih hRest other hOther

theorem getCampaign_of_decided
    (h : decideCampaignIteration sight now decisionId campaign iterationId s =
      (.ok (campaign', iteration', decision), s'))
    (hStored : s.getCampaign campaignId = some campaign) :
    s'.getCampaign campaignId = some campaign' := by
  obtain ⟨iteration, child, -, hCase⟩ := decideCampaignIteration_returns.mp h
  cases hReuse : reusableDecision s campaign iteration child with
  | some existing =>
    rw [hReuse] at hCase
    obtain ⟨rfl, -, -, rfl⟩ := hCase
    exact hStored
  | none =>
    rw [hReuse] at hCase
    have hFresh := decideAfresh_fresh hCase
    have hId : campaign.campaignId = campaignId := (KeyedTable.find_eq_some_iff.mp hStored).2
    show s'.campaigns.find campaignId = some campaign'
    rw [hFresh.campaigns, KeyedTable.find_put, if_pos (by rw [hFresh.campaignId, hId])]

theorem linked_callsOfBatch {turn : String → Turn} {ids : List String}
    (hStored : s.getCampaign campaignId = some campaign) :
    Linked campaignId s (callsOfBatch turn campaign ids s) (decideAll turn campaign ids s).2 := by
  induction ids generalizing campaign s with
  | nil => rfl
  | cons iterationId rest ih =>
    refine ⟨rfl, hStored, ?_⟩
    unfold decideAll DecideCall.after DecideCall.run
    cases hRun : decideCampaignIteration (turn iterationId).sight (turn iterationId).now
        (turn iterationId).decisionId campaign iterationId s with
    | mk answer s' =>
      cases answer with
      | error failure =>
        rw [bind_of_error hRun]
        rfl
      | ok answer =>
        rw [bind_of_ok hRun]
        have hRest := ih (getCampaign_of_decided hRun hStored)
        cases hOthers : decideAll turn answer.1 rest s' with
        | mk others s'' =>
          rw [hOthers] at hRest
          cases others with
          | error failure =>
            rw [bind_of_error hOthers]
            exact hRest
          | ok others =>
            rw [bind_of_ok hOthers]
            exact hRest

theorem requiredCampaign_of_some (h : s.getCampaign campaignId = some campaign) :
    Tx.ofExcept (getRequiredCampaign s campaignId) s = (.ok campaign, s) := by
  unfold Tx.ofExcept getRequiredCampaign
  rw [h]
  rfl

theorem requiredCampaign_of_none (h : s.getCampaign campaignId = none) :
    Tx.ofExcept (getRequiredCampaign s campaignId) s =
      (.error (notFound "autoresearch campaign not found"), s) := by
  unfold Tx.ofExcept getRequiredCampaign
  rw [h]
  rfl

theorem linked_latest (s : AutoresearchStore) (turn : Turn) :
    Linked campaignId s ((DecideRequest.latest turn).calls campaignId s)
      (decideLatest campaignId turn s).2 := by
  have hGet : (Tx.get : Tx AutoresearchStore Failure _) s = (.ok s, s) := rfl
  unfold DecideRequest.calls decideLatest
  rw [bind_of_ok hGet]
  cases hStored : s.getCampaign campaignId with
  | none =>
    rw [bind_of_error (requiredCampaign_of_none hStored)]
    rfl
  | some campaign =>
    rw [bind_of_ok (requiredCampaign_of_some hStored)]
    dsimp only
    by_cases hLatest : truthy campaign.latestIterationId = true
    · rw [if_pos hLatest, if_pos hLatest]
      exact ⟨rfl, hStored, rfl⟩
    · rw [if_neg hLatest, if_neg hLatest]
      rfl

theorem linked_readyBatch (s : AutoresearchStore) (check : String → Sight) (turn : String → Turn) :
    Linked campaignId s ((DecideRequest.readyBatch check turn).calls campaignId s)
      (decideReadyBatch campaignId check turn s).2 := by
  have hGet : (Tx.get : Tx AutoresearchStore Failure _) s = (.ok s, s) := rfl
  unfold DecideRequest.calls decideReadyBatch
  rw [bind_of_ok hGet]
  cases hStored : s.getCampaign campaignId with
  | none =>
    rw [bind_of_error (requiredCampaign_of_none hStored)]
    rfl
  | some campaign =>
    rw [bind_of_ok (requiredCampaign_of_some hStored)]
    cases hReady : readyIterations check s campaign with
    | error failure =>
      have hError : Tx.ofExcept (Except.error failure : Except Failure
        (List AutoresearchIterationRecord)) s = (.error failure, s) := rfl
      dsimp only
      rw [hReady]
      rfl
    | ok ready =>
      have hOk : Tx.ofExcept (Except.ok ready : Except Failure _) s = (.ok ready, s) := rfl
      rw [bind_of_ok hOk]
      dsimp only
      rw [hReady]
      by_cases hNone : ready = []
      · rw [if_pos hNone, hNone]
        rfl
      · rw [if_neg hNone]
        exact linked_callsOfBatch hStored

theorem linked_calls (s : AutoresearchStore) :
    ∀ request : DecideRequest,
      Linked campaignId s (request.calls campaignId s) (request.serve campaignId s)
  | .latest turn => linked_latest s turn
  | .readyBatch check turn => linked_readyBatch s check turn

theorem linked_callsOfAll (campaignId : String) (s : AutoresearchStore)
    (requests : List DecideRequest) :
    Linked campaignId s (callsOfAll campaignId s requests)
      (requests.foldl (DecideRequest.serve campaignId) s) := by
  induction requests generalizing s with
  | nil => rfl
  | cons request requests ih => exact (linked_calls s request).append (ih _)

def bestOf (s : AutoresearchStore) (campaignId : String) : Option String :=
  (s.getCampaign campaignId).bind AutoresearchCampaignRecord.currentBestMethodologyDraftId

/-- What a call looks at if it decides its iteration afresh: the run of the iteration and that of
the latest other iteration that is kept. -/
structure Evaluation where
  iteration : AutoresearchIterationRecord
  contract : Option EvaluatorContract
  child : IterationSummary
  parent : Option IterationSummary

def Evaluation.primary (e : Evaluation) : Option PrimaryMetricContract :=
  e.contract.bind EvaluatorContract.primaryMetric

def baselineValue (child : IterationSummary) (parent : Option IterationSummary) : Option Float64 :=
  parent.bind fun baseline =>
    if baseline.primaryMetricName = child.primaryMetricName then baseline.primaryMetricValue
    else none

def DecideCall.evaluation (call : DecideCall) : Option Evaluation := do
  let iteration ← call.before.getIteration call.iterationId
  let run ← call.before.getRun iteration.runId
  let contract := contractOf call.before call.campaign iteration
  let child ← (summarizeIterationRun call.turn.sight run contract).toOption
  let parent ←
    (baselineSummary call.turn.sight call.before call.campaign iteration contract).toOption
  if reusableDecision call.before call.campaign iteration child = none then
    some ⟨iteration, contract, child, parent⟩
  else none

def rationalMetric (sight : Sight) (run : RunRecord) (contract : Option EvaluatorContract) :
    Option ℚ :=
  match loadMetricsPayload (sight.metricsFile run.runId) with
  | .error _ => none
  | .ok metrics =>
    match extractPrimaryMetric metrics contract with
    | .ok ⟨_, some (.finite q), _⟩ => some q
    | _ => none

def DecideCall.bestValues (call : DecideCall) (contract : Option EvaluatorContract) : List ℚ :=
  (call.before.listIterations call.campaign.campaignId).filterMap fun prior =>
    if call.campaign.currentBestMethodologyDraftId = some prior.childMethodologyDraftId then
      (call.before.getRun prior.runId).bind fun run =>
        rationalMetric call.turn.sight run contract
    else none

def PassesGuardrails (metrics : Entries) (contract : Option EvaluatorContract) : Prop :=
  ∀ terms ∈ contract, ∀ guardrail ∈ terms.guardrails, guardrail.required = true →
    ∃ number ∈ getNumber metrics guardrail.name, ∃ value ∈ number,
      isBelow guardrail.minimum value = false ∧ isAbove guardrail.maximum value = false

instance {metrics : Entries} {contract : Option EvaluatorContract} :
    Decidable (PassesGuardrails metrics contract) :=
  inferInstanceAs (Decidable (∀ terms ∈ contract, ∀ guardrail ∈ terms.guardrails,
    guardrail.required = true → ∃ number ∈ getNumber metrics guardrail.name, ∃ value ∈ number,
      isBelow guardrail.minimum value = false ∧ isAbove guardrail.maximum value = false))

/-- The best draft changes only to one whose run succeeded, passes its guardrails, and is at least
as good as those of the best draft before. -/
def DecideCall.NeverRegresses (campaignId : String) (call : DecideCall) : Prop :=
  bestOf call.after campaignId ≠ bestOf call.before campaignId →
    ∃ e ∈ call.evaluation,
      bestOf call.after campaignId = some e.iteration.childMethodologyDraftId ∧
      e.child.runStatus = .succeeded ∧ PassesGuardrails e.child.metrics e.contract ∧
      ∀ q ∈ call.bestValues e.contract, ∃ primary ∈ e.primary,
        ∃ value ∈ e.child.primaryMetricValue, AtLeastAsGood primary.direction value (.finite q)

instance {campaignId : String} {call : DecideCall} :
    Decidable (call.NeverRegresses campaignId) := by
  unfold DecideCall.NeverRegresses
  infer_instance

/-- The iteration is compared with a baseline that is as good as the best draft, and not before its
run has ended. -/
structure Evaluation.Guarded (call : DecideCall) (e : Evaluation) : Prop where
  settled : (baselineValue e.child e.parent).isSome = true →
    e.child.runStatus ∈ [RunState.succeeded, .failed, .rejected]
  abreast : ∀ primary ∈ e.primary,
    call.campaign.currentBestMethodologyDraftId ≠ some e.iteration.childMethodologyDraftId →
      ∀ q ∈ call.bestValues e.contract,
        ∃ value ∈ baselineValue e.child e.parent,
          AtLeastAsGood primary.direction value (.finite q)
  /-- What the schema of the contract demands. -/
  validated : ∀ primary ∈ e.primary,
    primary.name ≠ "" ∧ (Float64.finite 0).le primary.minimumEffect = true
  told : ∀ primary ∈ e.primary, primary.minimumEffect = .finite 0 →
    ∀ value ∈ e.child.primaryMetricValue, ∀ baseline ∈ baselineValue e.child e.parent,
      ¬ LostInRounding (normalizedDifference primary.direction value baseline)

instance {call : DecideCall} {e : Evaluation} : Decidable (e.Guarded call) := by
  refine decidable_of_iff ((_ ∧ _) ∧ _ ∧ _)
    ⟨fun h => ⟨h.1.1, h.1.2, h.2.1, h.2.2⟩, fun h => ⟨⟨h.1, h.2⟩, h.3, h.4⟩⟩

def DecideCall.Guarded (call : DecideCall) : Prop := ∀ e ∈ call.evaluation, e.Guarded call

instance {call : DecideCall} : Decidable call.Guarded :=
  inferInstanceAs (Decidable (∀ e ∈ call.evaluation, e.Guarded call))

/-! ## What a decision to keep rests on -/

variable {primary : PrimaryMetricContract} {comparison : IterationComparison}

theorem decideByMetric_keep
    (h : (decideByMetric child comparison primary).1 = .keep) :
    (∃ delta ∈ comparison.normalizedDelta, truthy comparison.metricName = true ∧
        (effectiveMinimum comparison primary).le delta = true) ∨
      (comparison.normalizedDelta = none ∨ truthy comparison.metricName = false) ∧
        child.runStatus = .succeeded ∧ child.primaryMetricValue.isSome = true := by
  unfold decideByMetric at h
  have hFirst : ∀ kept escalated : String,
      (if child.runStatus = .succeeded ∧ child.primaryMetricValue.isSome then
        (DecisionType.keep, kept) else (.escalateForReview, escalated)).1 = .keep →
      child.runStatus = .succeeded ∧ child.primaryMetricValue.isSome = true := by
    intro kept escalated hKeep
    by_contra hNot
    rw [if_neg hNot] at hKeep
    cases hKeep
  cases hDelta : comparison.normalizedDelta with
  | none =>
    rw [hDelta] at h
    exact .inr ⟨.inl rfl, hFirst _ _ h⟩
  | some delta =>
    cases hName : truthy comparison.metricName with
    | false =>
      rw [hDelta, hName] at h
      exact .inr ⟨.inr rfl, hFirst _ _ h⟩
    | true =>
      rw [hDelta, hName] at h
      dsimp only at h
      refine .inl ⟨delta, rfl, rfl, ?_⟩
      by_contra hLess
      rw [if_neg hLess] at h
      split at h <;> cases h

variable {contract : Option EvaluatorContract}

theorem buildDecision_keep
    (h : (buildDecision child comparison contract).1 = .keep) :
    child.runStatus ∉ [RunState.failed, .rejected] ∧
      ∃ primary ∈ contract.bind EvaluatorContract.primaryMetric, failedGuardrails child = [] ∧
        (decideByMetric child comparison primary).1 = .keep := by
  unfold buildDecision at h
  by_cases hFailed : child.runStatus ∈ [RunState.failed, .rejected]
  · rw [if_pos hFailed] at h
    cases h
  refine ⟨hFailed, ?_⟩
  rw [if_neg hFailed] at h
  cases hPrimary : contract.bind EvaluatorContract.primaryMetric with
  | none =>
    rw [hPrimary] at h
    cases h
  | some primary =>
    rw [hPrimary] at h
    dsimp only at h
    by_cases hGuardrails : failedGuardrails child = []
    · rw [if_neg (not_not.mpr hGuardrails)] at h
      exact ⟨primary, rfl, hGuardrails, h⟩
    · rw [if_pos hGuardrails] at h
      cases h

variable {parent : Option IterationSummary}

/-- The difference that a decision is based on. -/
theorem normalizedDelta_eq
    (hPrimary : contract.bind EvaluatorContract.primaryMetric = some primary) :
    (buildIterationComparison child parent contract).normalizedDelta =
      (baselineValue child parent).bind fun baseline => child.primaryMetricValue.map fun value =>
        (normalizedDifference primary.direction value baseline).round6 := by
  unfold buildIterationComparison baselineValue
  rw [hPrimary]
  cases parent with
  | none => rfl
  | some parent =>
    rw [bind_some]
    dsimp only
    by_cases hName : child.primaryMetricName = parent.primaryMetricName
    · rw [if_neg (not_not.mpr hName), if_pos hName.symm]
      cases hValue : child.primaryMetricValue with
      | none => cases parent.primaryMetricValue <;> rfl
      | some value =>
        cases hBaseline : parent.primaryMetricValue with
        | none => rfl
        | some baseline =>
          unfold normalizedDifference
          by_cases hDirection : primary.direction = "minimize" <;> simp [hDirection]
    · rw [if_pos hName, if_neg (Ne.symm hName)]
      rfl

theorem metricName_buildIterationComparison :
    (buildIterationComparison child parent contract).metricName = child.primaryMetricName := by
  unfold buildIterationComparison
  split
  · rfl
  · split
    · rfl
    · split <;> rfl

theorem minimumEffect_buildIterationComparison
    (hPrimary : contract.bind EvaluatorContract.primaryMetric = some primary) :
    effectiveMinimum (buildIterationComparison child parent contract) primary =
      primary.minimumEffect := by
  have hEffect : (buildIterationComparison child parent contract).minimumEffect =
      primary.minimumEffect := by
    unfold buildIterationComparison
    rw [hPrimary]
    split
    · rfl
    · split
      · rfl
      · split <;> rfl
  unfold effectiveMinimum
  rw [hEffect]
  split <;> rfl

variable {run : RunRecord}

theorem summarize_returns
    (h : summarizeIterationRun sight run contract = .ok child) :
    (∃ primary, extractPrimaryMetric child.metrics contract = .ok primary ∧
        child.primaryMetricName = primary.name) ∧
      evaluateGuardrails sight.repr child.metrics contract = .ok child.guardrails := by
  obtain ⟨resolved, -, h⟩ := of_bind h
  obtain ⟨metrics, -, h⟩ := of_bind h
  obtain ⟨primary, hPrimary, h⟩ := of_bind h
  obtain ⟨guardrails, hGuardrails, h⟩ := of_bind h
  obtain rfl := ok.inj h
  exact ⟨⟨primary, hPrimary, rfl⟩, hGuardrails⟩

theorem primaryMetricName_of_summarize {terms : PrimaryMetricContract}
    (h : summarizeIterationRun sight run contract = .ok child)
    (hTerms : contract.bind EvaluatorContract.primaryMetric = some terms) :
    child.primaryMetricName = some terms.name := by
  obtain ⟨⟨primary, hPrimary, hName⟩, -⟩ := summarize_returns h
  rw [hName]
  unfold extractPrimaryMetric at hPrimary
  rw [hTerms] at hPrimary
  dsimp only at hPrimary
  unfold extractContractMetric at hPrimary
  split at hPrimary
  · obtain ⟨value, -, hResult⟩ := of_bind hPrimary
    obtain rfl := ok.inj hResult
    rfl
  · split at hPrimary
    · split at hPrimary
      · obtain ⟨value, -, hResult⟩ := of_bind hPrimary
        obtain rfl := ok.inj hResult
        rfl
      · obtain rfl := ok.inj hPrimary
        rfl
    · obtain rfl := ok.inj hPrimary
      rfl

theorem evaluateGuardrail_passed {repr : Float64 → String} {metrics : Entries}
    {guardrail : GuardrailMetricContract} {result : GuardrailResult}
    (h : evaluateGuardrail repr metrics guardrail = .ok result) (hPassed : result.passed = true)
    (hRequired : guardrail.required = true) :
    ∃ number ∈ getNumber metrics guardrail.name, ∃ value ∈ number,
      isBelow guardrail.minimum value = false ∧ isAbove guardrail.maximum value = false := by
  unfold evaluateGuardrail at h
  cases hNumber : getNumber metrics guardrail.name with
  | none =>
    rw [hNumber] at h
    obtain rfl := ok.inj h
    rw [hRequired] at hPassed
    cases hPassed
  | some number =>
    rw [hNumber] at h
    obtain ⟨value, hValue, h⟩ := of_bind h
    cases number with
    | none => cases hValue
    | some found =>
      obtain rfl : found = value := ok.inj hValue
      refine ⟨some found, rfl, found, rfl, ?_⟩
      cases hAbove : isAbove guardrail.maximum found with
      | true =>
        rw [hAbove, if_pos rfl] at h
        obtain rfl := ok.inj h
        cases hPassed
      | false =>
        cases hBelow : isBelow guardrail.minimum found with
        | true =>
          rw [hAbove, hBelow, if_neg Bool.false_ne_true, if_pos rfl] at h
          obtain rfl := ok.inj h
          cases hPassed
        | false => exact ⟨rfl, rfl⟩

theorem passesGuardrails_of_summarize
    (h : summarizeIterationRun sight run contract = .ok child)
    (hNone : failedGuardrails child = []) : PassesGuardrails child.metrics contract := by
  intro terms hTerms guardrail hGuardrail hRequired
  have hResults := (summarize_returns h).2
  rw [mem_def.mp hTerms] at hResults
  obtain ⟨result, hMem, hResult⟩ := exists_of_mapM_eq_ok hResults hGuardrail
  have hPassed := filter_eq_nil_iff.mp hNone result hMem
  exact evaluateGuardrail_passed hResult (by simpa using hPassed) hRequired

/-! ## The result -/

theorem wp_decideAfresh_campaigns :
    wp (decideAfresh sight now decisionId campaign iteration child) (fun _ _ => True)
      (fun _ s' => s'.campaigns = s.campaigns) s := by
  unfold decideAfresh
  rw [wp_bind, wp_get, wp_bind, wp_ofExcept]
  refine ⟨fun parent _ => ?_, fun _ _ => rfl⟩
  rw [wp_bind, wp_modify]
  exact wp_pure.mpr trivial

theorem campaigns_of_failed {failure : Failure}
    (h : decideCampaignIteration sight now decisionId campaign iterationId s =
      (.error failure, s')) : s'.campaigns = s.campaigns := by
  have hWp : wp (decideCampaignIteration sight now decisionId campaign iterationId)
      (fun _ _ => True) (fun _ s' => s'.campaigns = s.campaigns) s := by
    unfold decideCampaignIteration
    rw [wp_bind, wp_get, wp_bind, wp_ofExcept]
    refine ⟨fun iteration _ => ?_, fun _ _ => rfl⟩
    rw [wp_bind, wp_ofExcept]
    refine ⟨fun run _ => ?_, fun _ _ => rfl⟩
    rw [wp_bind, wp_ofExcept]
    refine ⟨fun child _ => ?_, fun _ _ => rfl⟩
    cases reusableDecision s campaign iteration child with
    | some existing => exact wp_pure.mpr trivial
    | none =>
      rw [wp_ite]
      refine ⟨fun _ => wp_decideAfresh_campaigns, fun _ => ?_⟩
      rw [wp_bind, wp_modify]
      exact wp_decideAfresh_campaigns
  unfold wp at hWp
  rw [h] at hWp
  exact hWp

theorem bestOf_of_some (h : s.getCampaign campaignId = some campaign) :
    bestOf s campaignId = campaign.currentBestMethodologyDraftId := by
  unfold bestOf
  rw [h]
  rfl

variable {call : DecideCall}

theorem evaluation_of_scored
    (hScored : Scored call.turn.sight call.before call.campaign call.iterationId iteration child)
    (hReuse : reusableDecision call.before call.campaign iteration child = none)
    (hParent : baselineSummary call.turn.sight call.before call.campaign iteration
      (contractOf call.before call.campaign iteration) = .ok parent) :
    call.evaluation =
      some ⟨iteration, contractOf call.before call.campaign iteration, child, parent⟩ := by
  obtain ⟨hIteration, run, hRun, hChild⟩ := hScored
  unfold DecideCall.evaluation
  rw [hIteration, bind_eq_bind, bind_some, hRun, bind_eq_bind,
    bind_some]
  dsimp only
  rw [hChild, hParent]
  exact if_pos hReuse

theorem DecideCall.kept_of_changed
    (hStored : call.before.getCampaign campaignId = some call.campaign)
    (hChanged : bestOf call.after campaignId ≠ bestOf call.before campaignId) :
    ∃ e ∈ call.evaluation,
      bestOf call.after campaignId = some e.iteration.childMethodologyDraftId ∧
      (buildDecision e.child (buildIterationComparison e.child e.parent e.contract)
        e.contract).1 = .keep ∧
      ∃ run, summarizeIterationRun call.turn.sight run e.contract = .ok e.child := by
  rw [bestOf_of_some hStored] at hChanged
  cases hRun : call.run with
  | mk answer s' =>
    have hAfter : call.after = s' := congrArg Prod.snd hRun
    rw [hAfter] at hChanged ⊢
    cases answer with
    | error failure =>
      refine absurd (bestOf_of_some ?_) hChanged
      unfold AutoresearchStore.getCampaign
      rw [campaigns_of_failed hRun]
      exact hStored
    | ok answer =>
      obtain ⟨campaign', iteration', decision⟩ := answer
      rw [bestOf_of_some (getCampaign_of_decided hRun hStored)] at hChanged ⊢
      obtain ⟨iteration, child, hScored, hCase⟩ := decideCampaignIteration_returns.mp hRun
      cases hReuse : reusableDecision call.before call.campaign iteration child with
      | some existing =>
        rw [hReuse] at hCase
        obtain ⟨rfl, -, -, -⟩ := hCase
        exact absurd rfl hChanged
      | none =>
        rw [hReuse] at hCase
        have hFresh := decideAfresh_fresh hCase
        obtain ⟨parent, hParent, hType⟩ := hFresh.evaluated
        by_cases hKeep : decision.decisionType = .keep
        · refine ⟨_, evaluation_of_scored hScored hReuse hParent, ?_, ?_, ?_⟩
          · rw [hFresh.best, if_pos hKeep]
          · rw [← hType, hKeep]
          · obtain ⟨-, run, -, hChild⟩ := hScored
            exact ⟨run, hChild⟩
        · rw [hFresh.best, if_neg hKeep] at hChanged
          exact absurd rfl hChanged

theorem Evaluation.Guarded.kept {e : Evaluation} (h : e.Guarded call)
    (hKeep : (buildDecision e.child (buildIterationComparison e.child e.parent e.contract)
      e.contract).1 = .keep)
    (hName : ∀ primary ∈ e.primary, e.child.primaryMetricName = some primary.name) :
    e.child.runStatus = .succeeded ∧ failedGuardrails e.child = [] ∧
      ∃ primary ∈ e.primary, ∀ baseline ∈ baselineValue e.child e.parent,
        ∃ value ∈ e.child.primaryMetricValue, AtLeastAsGood primary.direction value baseline := by
  obtain ⟨hStatus, primary, hPrimary, hGuardrails, hMetric⟩ := buildDecision_keep hKeep
  obtain ⟨hNonempty, hMinimum⟩ := h.validated primary hPrimary
  have hTruthy : truthy e.child.primaryMetricName = true := by
    rw [hName primary hPrimary]
    exact decide_eq_true hNonempty
  have hCases := decideByMetric_keep hMetric
  rw [normalizedDelta_eq hPrimary, metricName_buildIterationComparison,
    minimumEffect_buildIterationComparison hPrimary, hTruthy] at hCases
  rcases hCases with ⟨delta, hDelta, -, hLe⟩ | ⟨hNone, hSucceeded, hNumber⟩
  · obtain ⟨baseline, hBaseline, hDelta⟩ := bind_eq_some_iff.mp hDelta
    obtain ⟨value, hValue, rfl⟩ := map_eq_some_iff.mp hDelta
    have hBetter : AtLeastAsGood primary.direction value baseline :=
      atLeastAsGood_of_difference <| nonneg_of_le_round6 hMinimum hLe fun hZero =>
        h.told primary hPrimary hZero value hValue baseline hBaseline
    refine ⟨?_, hGuardrails, primary, hPrimary, fun other hOther => ⟨value, hValue, ?_⟩⟩
    · have hSettled := h.settled (by rw [hBaseline]; rfl)
      simp only [mem_cons, not_mem_nil, or_false] at hSettled hStatus
      exact hSettled.resolve_right hStatus
    · rw [hBaseline] at hOther
      rw [← Option.some.inj hOther]
      exact hBetter
  · refine ⟨hSucceeded, hGuardrails, primary, hPrimary, fun baseline hBaseline => ?_⟩
    -- a baseline would have been compared with
    obtain ⟨value, hValue⟩ := isSome_iff_exists.mp hNumber
    rw [mem_def.mp hBaseline, bind_some, hValue, map_some] at hNone
    rcases hNone with hNone | hNone <;> cases hNone

/-- A guarded decision does not make the best draft worse. -/
theorem DecideCall.neverRegresses
    (hStored : call.before.getCampaign campaignId = some call.campaign) (h : call.Guarded) :
    call.NeverRegresses campaignId := by
  intro hChanged
  obtain ⟨e, hEvaluation, hAfter, hKeep, run, hSummary⟩ := kept_of_changed hStored hChanged
  have hGuarded := h e hEvaluation
  obtain ⟨hSucceeded, hGuardrails, primary, hPrimary, hBetter⟩ :=
    hGuarded.kept hKeep fun terms hTerms => primaryMetricName_of_summarize hSummary hTerms
  refine ⟨e, hEvaluation, hAfter, hSucceeded, passesGuardrails_of_summarize hSummary hGuardrails,
    fun q hq => ⟨primary, hPrimary, ?_⟩⟩
  rw [hAfter, bestOf_of_some hStored] at hChanged
  obtain ⟨baseline, hBaseline, hAbreast⟩ := hGuarded.abreast primary hPrimary hChanged.symm q hq
  obtain ⟨value, hValue, hGood⟩ := hBetter baseline hBaseline
  exact ⟨value, hValue, hGood.trans hAbreast⟩

/-- Over any requests whose decisions are guarded, the decisions alone lead from one store to the
next and none of them makes the best draft worse. -/
theorem best_never_regresses (campaignId : String) (s : AutoresearchStore)
    (requests : List DecideRequest)
    (h : ∀ call ∈ callsOfAll campaignId s requests, call.Guarded) :
    Linked campaignId s (callsOfAll campaignId s requests)
        (requests.foldl (DecideRequest.serve campaignId) s) ∧
      ∀ call ∈ callsOfAll campaignId s requests, call.NeverRegresses campaignId := by
  have hLinked := linked_callsOfAll campaignId s requests
  refine ⟨hLinked, fun call hCall => ?_⟩
  exact DecideCall.neverRegresses (hLinked.forall_campaign call hCall) (h call hCall)

/-- The runs of the three drafts have succeeded with these accuracies. -/
def scoredSight (a b c : ℚ) : Sight :=
  sampleSight (fun _ => .succeeded) fun runId =>
    accuracyFile (if runId = "a" then a else if runId = "b" then b else c)

/-- Iterations of the drafts `a`, `b` and `c`, in this order of creation. -/
def threeIterations : AutoresearchStore :=
  ([sampleIteration "i1" "a" 0, sampleIteration "i2" "b" 1, sampleIteration "i3" "c" 2].foldl
    AutoresearchStore.saveIteration
    { world := { store := { runs :=
        [("a", tabularRun), ("b", { tabularRun with runId := "b" }),
          ("c", { tabularRun with runId := "c" })] } } }).saveCampaign
    { sampleCampaign with latestIterationId := some "i3" }

def batchOf (sight : Sight) : DecideRequest :=
  .readyBatch (fun _ => sight) fun iterationId => ⟨sight, 4, iterationId⟩

/-- A batch in the order of creation, with rising scores. -/
theorem best_never_regresses_rising :
    callsOfAll "c" threeIterations [batchOf (scoredSight (90 / 100) (92 / 100) (95 / 100))] ≠ [] ∧
      ∀ call ∈
        callsOfAll "c" threeIterations [batchOf (scoredSight (90 / 100) (92 / 100) (95 / 100))],
        call.NeverRegresses "c" :=
  ⟨ne_nil_of_length_pos (by decide +kernel),
    (best_never_regresses "c" threeIterations _ (by decide +kernel)).2⟩

/-- The latest iteration is decided first. The batch then compares both older ones with it, and the
second of them replaces the first, which is better. -/
theorem batch_replaces_better_draft :
    ¬ ∀ call ∈ callsOfAll "c" threeIterations
        [.latest ⟨scoredSight (95 / 100) (92 / 100) (90 / 100), 3, "d3"⟩,
          batchOf (scoredSight (95 / 100) (92 / 100) (90 / 100))],
      call.NeverRegresses "c" := by
  decide +kernel

end Glasslab.WorkflowApi
