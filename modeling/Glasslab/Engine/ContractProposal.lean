import Glasslab.Schemas
import Glasslab.Foundation.FirstWrite
import Glasslab.Foundation.Raising
import Glasslab.Methodology.Requirements

/-!
# The contract proposal of a protocol

A drafted protocol comes with a proposal of the evaluation contract. `_draft_protocol` tells the
human in the approval brief whether the bound contract fits the proposal, and when the protocol is
approved `_contract_binding_compatible` decides it again, from what it reads back. The stored
proposal is clamped to the resource policy; the brief is written from the resources as the agent
asked for them. What is read back is the newest row, which is not the drafted one where an earlier
draft had the same bytes.
-/

namespace Glasslab.Engine.ContractProposal

open Foundation Foundation.Raising Methodology Option

inductive Direction where
  | maximize
  | minimize
  deriving DecidableEq, Repr

def Direction.value : Direction → String
  | maximize => "maximize"
  | minimize => "minimize"

/-- An `EvaluationContractProposal`, with what the binding of a contract depends on. -/
structure Proposal where
  evaluatorType : String
  metricName : String
  metricDirection : Direction
  requiredArtifacts : List String
  resourceConstraints : ResourceRequest
  /-- The other fields as they are dumped. -/
  rest : Payload := []

structure Descriptor where
  contractId : String
  /-- `manifest['primary_metric']` and `manifest['primary_metric_direction']`, where given. -/
  primaryMetric : Option ConfigValue
  primaryMetricDirection : Option ConfigValue
  requiredArtifacts : List String
  resourceConstraints : ResourceRequest

structure InstalledContract where
  descriptor : Descriptor
  digest : String

structure BoundRun where
  evaluationContractDigest : String
  /-- The required artifacts of the task definition, if there is one. -/
  taskArtifacts : Option (List String) := none

structure ResourcePolicy where
  maximumCpu : Float64
  maximumMemoryGib : Float64
  maximumGpus : Nat

/-- The resources of a proposal after `_draft_protocol` has clamped them. -/
def clamped (policy : ResourcePolicy) (r : ResourceRequest) : ResourceRequest :=
  if policy.maximumCpu.lt r.cpu ∨ policy.maximumMemoryGib.lt r.memoryGib ∨
      policy.maximumGpus < r.gpus then
    { r with
      cpu := r.cpu.min policy.maximumCpu
      memoryGib := r.memoryGib.min policy.maximumMemoryGib
      gpus := min r.gpus policy.maximumGpus }
  else r

/-- The proposal that is dumped. -/
def Proposal.clamped (policy : ResourcePolicy) (proposal : Proposal) : Proposal :=
  { proposal with
    resourceConstraints := ContractProposal.clamped policy proposal.resourceConstraints }

def allowedArtifacts (descriptor : Descriptor) (run : BoundRun) : List String :=
  descriptor.requiredArtifacts ++
    if descriptor.contractId = "generic-task-integrity-v1" then run.taskArtifacts.getD [] else []

inductive BindingStatus where
  | compatible
  | requiresNewHarness
  deriving DecidableEq, Repr

/-- `technical_binding['status']` of the brief, with the `str` of a value. -/
def technicalBindingStatus (str : ConfigValue → String) (descriptor : Descriptor) (run : BoundRun)
    (proposal : Proposal) : BindingStatus :=
  if proposal.evaluatorType = descriptor.contractId ∧
      proposal.metricName = (descriptor.primaryMetric.map str).getD "" ∧
      descriptor.primaryMetricDirection = some (.scalar (.str proposal.metricDirection.value)) ∧
      (∀ artifact ∈ proposal.requiredArtifacts, artifact ∈ allowedArtifacts descriptor run) ∧
      proposal.resourceConstraints.within descriptor.resourceConstraints then
    .compatible
  else .requiresNewHarness

/-! ## What is stored and read back -/

/-- `resources.get(key)` of a stored proposal. -/
inductive StoredFloat where
  | absent
  | null
  | number (x : Float64)
  deriving DecidableEq

/-- JSON has no other floats, and the store writes `null` for them. -/
def storedFloat : Float64 → StoredFloat
  | .finite q => .number (.finite q)
  | _ => .null

structure StoredProposal where
  evaluatorType : String
  metricName : String
  metricDirection : String
  requiredArtifacts : List String
  cpu : StoredFloat
  memoryGib : StoredFloat
  gpus : Option Nat
  wallclockMinutes : Option Nat

def Proposal.stored (proposal : Proposal) : StoredProposal where
  evaluatorType := proposal.evaluatorType
  metricName := proposal.metricName
  metricDirection := proposal.metricDirection.value
  requiredArtifacts := proposal.requiredArtifacts
  cpu := storedFloat proposal.resourceConstraints.cpu
  memoryGib := storedFloat proposal.resourceConstraints.memoryGib
  gpus := some proposal.resourceConstraints.gpus
  wallclockMinutes := some proposal.resourceConstraints.wallclockMinutes

/-- `_latest_contract_proposal` of a run that has dumped these proposals. The id of a row is made of
the digest of the bytes, and a taken id keeps its row. -/
def latestContractProposal (digest : Proposal → String) (dumped : List Proposal) :
    Option StoredProposal :=
  (firstWrites digest dumped).getLast?.map Proposal.stored

inductive Raised where
  | typeError
  deriving DecidableEq, Repr

/-- `float(resources.get(key, float('inf'))) <= ceiling`. -/
def StoredFloat.atMost (ceiling : Float64) : StoredFloat → Except Raised Bool
  | absent => .ok (Float64.infinity.le ceiling)
  | null => .error .typeError
  | number x => .ok (x.le ceiling)

/-- `_contract_binding_compatible`. A resource that is not given takes the default of the source. -/
def contractBindingCompatible (policy : ResourcePolicy) (contract : InstalledContract)
    (run : BoundRun) : Option StoredProposal → Except Raised Bool
  | none => .ok false
  | some stored =>
    let descriptor := contract.descriptor
    let ceiling := descriptor.resourceConstraints
    if contract.digest = run.evaluationContractDigest ∧
        stored.evaluatorType = descriptor.contractId ∧
        descriptor.primaryMetric = some (.scalar (.str stored.metricName)) ∧
        descriptor.primaryMetricDirection = some (.scalar (.str stored.metricDirection)) ∧
        ∀ artifact ∈ stored.requiredArtifacts, artifact ∈ allowedArtifacts descriptor run then do
      if ← stored.cpu.atMost ceiling.cpu then
        if ← stored.memoryGib.atMost ceiling.memoryGib then
          .ok (stored.gpus.getD (policy.maximumGpus + 1) ≤ ceiling.gpus ∧
            stored.wallclockMinutes.getD (ceiling.wallclockMinutes + 1) ≤ ceiling.wallclockMinutes)
        else .ok false
      else .ok false
    else .ok false

/-- Where the approval of the protocol leads. -/
def approvedProtocolTarget (policy : ResourcePolicy) (contract : InstalledContract)
    (run : BoundRun) (stored : Option StoredProposal) : Except Raised RunState :=
  (contractBindingCompatible policy contract run stored).map fun compatible =>
    if compatible then .beakerPlanning else .beakerDraftingContract

section Binding

variable {str : ConfigValue → String} {digest : Proposal → String} {policy : ResourcePolicy}
  {contract : InstalledContract} {run : BoundRun} {proposal : Proposal} {earlier : List Proposal}
  {r ceiling : ResourceRequest}

/-- The clamp takes the smaller of each resource and its maximum. -/
theorem clamped_eq : clamped policy r =
    { r with
      cpu := r.cpu.min policy.maximumCpu
      memoryGib := r.memoryGib.min policy.maximumMemoryGib
      gpus := min r.gpus policy.maximumGpus } := by
  unfold clamped
  split
  next => rfl
  next h =>
    simp only [not_or, not_lt] at h
    obtain ⟨hCpu, hMemory, hGpus⟩ := h
    rw [Float64.min, if_neg hCpu, Float64.min, if_neg hMemory, min_eq_left hGpus]

/-- What the agent asked for is above the ceiling, and the maximum that replaces it is not. -/
def Hidden (asked maximum ceiling : Float64) : Prop :=
  asked.le ceiling = false ∧ maximum.lt asked = true ∧ maximum.le ceiling = true

theorem min_le_iff_hidden {asked maximum ceiling : Float64} :
    (asked.min maximum).le ceiling = true ↔
      (asked.le ceiling = false → Hidden asked maximum ceiling) := by
  rw [Float64.min_le_iff]
  cases hAsked : asked.le ceiling with
  | true => simp
  | false => simp [Hidden, hAsked]

def HiddenGpus (asked maximum ceiling : Nat) : Prop := ceiling < asked ∧ maximum ≤ ceiling

theorem min_le_iff_hiddenGpus {asked maximum ceiling : Nat} :
    min asked maximum ≤ ceiling ↔ (ceiling < asked → HiddenGpus asked maximum ceiling) := by
  unfold HiddenGpus
  omega

/-- Some resource was asked for above its ceiling, and the clamp hides every one that was. -/
structure ClampHides (policy : ResourcePolicy) (r ceiling : ResourceRequest) : Prop where
  above : r.cpu.le ceiling.cpu = false ∨ r.memoryGib.le ceiling.memoryGib = false ∨
    ceiling.gpus < r.gpus
  cpu : r.cpu.le ceiling.cpu = false → Hidden r.cpu policy.maximumCpu ceiling.cpu
  memory : r.memoryGib.le ceiling.memoryGib = false →
    Hidden r.memoryGib policy.maximumMemoryGib ceiling.memoryGib
  gpus : ceiling.gpus < r.gpus → HiddenGpus r.gpus policy.maximumGpus ceiling.gpus

theorem within_clamped :
    (clamped policy r).within ceiling = true ↔
      (r.cpu.le ceiling.cpu = false → Hidden r.cpu policy.maximumCpu ceiling.cpu) ∧
      (r.memoryGib.le ceiling.memoryGib = false →
        Hidden r.memoryGib policy.maximumMemoryGib ceiling.memoryGib) ∧
      (ceiling.gpus < r.gpus → HiddenGpus r.gpus policy.maximumGpus ceiling.gpus) ∧
      r.wallclockMinutes ≤ ceiling.wallclockMinutes := by
  rw [clamped_eq, ResourceRequest.within_iff, min_le_iff_hidden, min_le_iff_hidden,
    min_le_iff_hiddenGpus]

/-- The clamp changes the answer exactly where it hides something. -/
theorem clampHides_iff (hTime : r.wallclockMinutes ≤ ceiling.wallclockMinutes) :
    ClampHides policy r ceiling ↔
      ¬r.within ceiling = true ∧ (clamped policy r).within ceiling = true := by
  rw [within_clamped, ResourceRequest.within_iff]
  constructor
  · rintro ⟨hAbove, hCpu, hMemory, hGpus⟩
    refine ⟨?_, hCpu, hMemory, hGpus, hTime⟩
    rintro ⟨hCpuIn, hMemoryIn, hGpusIn, _⟩
    rcases hAbove with h | h | h
    · rw [hCpuIn] at h
      cases h
    · rw [hMemoryIn] at h
      cases h
    · omega
  · rintro ⟨hAbove, hCpu, hMemory, hGpus, _⟩
    refine ⟨?_, hCpu, hMemory, hGpus⟩
    by_contra hNone
    simp only [not_or, Bool.not_eq_false, not_lt] at hNone
    exact hAbove ⟨hNone.1, hNone.2.1, hNone.2.2, hTime⟩

theorem within_clamped_of_within (h : r.within ceiling = true) :
    (clamped policy r).within ceiling = true := by
  obtain ⟨hCpu, hMemory, hGpus, hTime⟩ := ResourceRequest.within_iff.mp h
  rw [within_clamped]
  refine ⟨fun hAbove => ?_, fun hAbove => ?_, fun hAbove => ?_, hTime⟩
  · rw [hCpu] at hAbove
    cases hAbove
  · rw [hMemory] at hAbove
    cases hAbove
  · omega

/-! ## The brief and the route -/

structure Fits (descriptor : Descriptor) (run : BoundRun) (proposal : Proposal) : Prop where
  evaluator : proposal.evaluatorType = descriptor.contractId
  direction :
    descriptor.primaryMetricDirection = some (.scalar (.str proposal.metricDirection.value))
  artifacts : ∀ artifact ∈ proposal.requiredArtifacts, artifact ∈ allowedArtifacts descriptor run
  time : proposal.resourceConstraints.wallclockMinutes ≤
    descriptor.resourceConstraints.wallclockMinutes

def SameMetric (descriptor : Descriptor) (proposal : Proposal) : Prop :=
  descriptor.primaryMetric = some (.scalar (.str proposal.metricName))

def MetricReads (str : ConfigValue → String) (descriptor : Descriptor) (proposal : Proposal) :
    Prop :=
  proposal.metricName = (descriptor.primaryMetric.map str).getD ""

/-- The amounts that JSON has numbers for. -/
def Written (r : ResourceRequest) : Prop := r.cpu.isFinite = true ∧ r.memoryGib.isFinite = true

theorem technicalBindingStatus_eq_compatible :
    technicalBindingStatus str contract.descriptor run proposal = .compatible ↔
      Fits contract.descriptor run proposal ∧ MetricReads str contract.descriptor proposal ∧
        proposal.resourceConstraints.within contract.descriptor.resourceConstraints = true := by
  unfold technicalBindingStatus
  constructor
  · intro h
    split at h
    next hAll =>
      obtain ⟨hEvaluator, hName, hDirection, hArtifacts, hWithin⟩ := hAll
      exact ⟨⟨hEvaluator, hDirection, hArtifacts, (ResourceRequest.within_iff.mp hWithin).2.2.2⟩,
        hName, hWithin⟩
    next => cases h
  · rintro ⟨hFits, hName, hWithin⟩
    rw [if_pos ⟨hFits.evaluator, hName, hFits.direction, hFits.artifacts, hWithin⟩]

theorem atMost_storedFloat {x top : Float64} :
    (storedFloat x).atMost top = .ok true ↔ x.isFinite = true ∧ x.le top = true := by
  cases x <;> simp [storedFloat, StoredFloat.atMost, Float64.isFinite]

theorem ite_eq_ok_true {b : Bool} {x : Except Raised Bool} :
    (if b then x else .ok false) = .ok true ↔ b = true ∧ x = .ok true := by
  cases b <;> simp

theorem approvedProtocolTarget_eq_beakerPlanning {stored : Option StoredProposal} :
    approvedProtocolTarget policy contract run stored = .ok .beakerPlanning ↔
      contractBindingCompatible policy contract run stored = .ok true := by
  unfold approvedProtocolTarget
  rw [map_eq_ok_iff]
  constructor
  · rintro ⟨compatible, hCompatible, hTarget⟩
    cases compatible with
    | true => exact hCompatible
    | false => cases hTarget
  · intro h
    exact ⟨true, h, rfl⟩

/-- The stored proposal leads to the planning of the run. -/
structure LeadsToPlanning (contract : InstalledContract) (run : BoundRun) (proposal : Proposal) :
    Prop where
  fits : Fits contract.descriptor run proposal
  bound : contract.digest = run.evaluationContractDigest
  metric : SameMetric contract.descriptor proposal
  within : proposal.resourceConstraints.within contract.descriptor.resourceConstraints = true
  written : Written proposal.resourceConstraints

theorem target_stored :
    approvedProtocolTarget policy contract run (some proposal.stored) = .ok .beakerPlanning ↔
      LeadsToPlanning contract run proposal := by
  rw [approvedProtocolTarget_eq_beakerPlanning]
  unfold contractBindingCompatible
  dsimp only
  constructor
  · intro h
    split at h
    next hAll =>
      obtain ⟨hDigest, hEvaluator, hMetric, hDirection, hArtifacts⟩ := hAll
      obtain ⟨cpu, hCpu, h⟩ := of_bind h
      obtain ⟨rfl, h⟩ := ite_eq_ok_true.mp h
      obtain ⟨memory, hMemory, h⟩ := of_bind h
      obtain ⟨rfl, h⟩ := ite_eq_ok_true.mp h
      obtain ⟨hCpuFinite, hCpu⟩ := atMost_storedFloat.mp hCpu
      obtain ⟨hMemoryFinite, hMemory⟩ := atMost_storedFloat.mp hMemory
      obtain ⟨hGpus, hTime⟩ := of_decide_eq_true (Except.ok.inj h)
      exact ⟨⟨hEvaluator, hDirection, hArtifacts, hTime⟩, hDigest, hMetric,
        ResourceRequest.within_iff.mpr ⟨hCpu, hMemory, hGpus, hTime⟩, hCpuFinite, hMemoryFinite⟩
    next => cases h
  · rintro ⟨hFits, hDigest, hMetric, hWithin, hWritten⟩
    obtain ⟨hCpu, hMemory, hGpus, hTime⟩ := ResourceRequest.within_iff.mp hWithin
    have hCpu := atMost_storedFloat.mpr ⟨hWritten.1, hCpu⟩
    have hMemory := atMost_storedFloat.mpr ⟨hWritten.2, hMemory⟩
    rw [if_pos ⟨hDigest, hFits.evaluator, hMetric, hFits.direction, hFits.artifacts⟩]
    refine bind_eq_ok_iff.mpr ⟨true, hCpu, ite_eq_ok_true.mpr ⟨rfl, ?_⟩⟩
    refine bind_eq_ok_iff.mpr ⟨true, hMemory, ite_eq_ok_true.mpr ⟨rfl, ?_⟩⟩
    exact congrArg Except.ok (decide_eq_true ⟨hGpus, hTime⟩)

/-- The brief of a draft says "compatible" exactly if the approval leads to the planning. -/
def Truthful (str : ConfigValue → String) (digest : Proposal → String) (policy : ResourcePolicy)
    (contract : InstalledContract) (run : BoundRun) (earlier : List Proposal)
    (proposal : Proposal) : Prop :=
  technicalBindingStatus str contract.descriptor run proposal = .compatible ↔
    approvedProtocolTarget policy contract run
      (latestContractProposal digest (earlier ++ [proposal.clamped policy])) = .ok .beakerPlanning

theorem exists_reread :
    ∃ reread ∈ earlier ++ [proposal],
      (firstWrites digest (earlier ++ [proposal])).getLast? = some reread := by
  cases hRows : firstWrites digest (earlier ++ [proposal]) using List.reverseRecOn with
  | nil =>
    have hKey : digest proposal ∈ (earlier ++ [proposal]).map digest := by simp
    rw [← mem_map_firstWrites, hRows] at hKey
    cases hKey
  | append_singleton rows last =>
    refine ⟨last, (firstWrites_sublist digest _).subset ?_, by simp⟩
    rw [hRows]
    simp

/-- No two proposals that were dumped have one digest. -/
def CollisionFree (digest : Proposal → String) (dumped : List Proposal) : Prop :=
  ∀ p ∈ dumped, ∀ p' ∈ dumped, digest p = digest p' → p = p'

theorem reread_iff {dumped : List Proposal} {p : Proposal} (hp : p ∈ dumped)
    (hFree : CollisionFree digest dumped) :
    (firstWrites digest dumped).getLast? = some p ↔ NoneNewAfter p dumped := by
  rw [← noneNewAfter_map hp hFree, ← getLast?_firstWrites]
  constructor
  · intro h
    rw [h, map_some]
  · intro h
    obtain ⟨row, hRow, hSame⟩ := map_eq_some_iff.mp h
    have hIn := mem_of_mem_firstWrites (List.mem_of_getLast? hRow)
    rw [hRow, hFree row hIn p hp hSame]

/-- Nothing that differs between the brief and the route of a draft that is read back itself: the
clamp does not hide what the agent asked for, and where the brief finds everything right, the run is
bound to the installed digest, the metric is the named text and the resources are numbers. -/
structure Consistent (str : ConfigValue → String) (policy : ResourcePolicy)
    (contract : InstalledContract) (run : BoundRun) (proposal : Proposal) : Prop where
  clamp : contract.digest = run.evaluationContractDigest →
    SameMetric contract.descriptor proposal →
    Written (clamped policy proposal.resourceConstraints) →
    ¬ClampHides policy proposal.resourceConstraints contract.descriptor.resourceConstraints
  route : MetricReads str contract.descriptor proposal →
    proposal.resourceConstraints.within contract.descriptor.resourceConstraints = true →
    contract.digest = run.evaluationContractDigest ∧ SameMetric contract.descriptor proposal ∧
      Written (clamped policy proposal.resourceConstraints)

theorem metricReads_of_sameMetric (hStr : ∀ s, str (.scalar (.str s)) = s)
    (h : SameMetric contract.descriptor proposal) :
    MetricReads str contract.descriptor proposal := by
  unfold MetricReads
  rw [h, map_some, getD_some, hStr]

theorem fits_clamped :
    Fits contract.descriptor run (proposal.clamped policy) ↔
      Fits contract.descriptor run proposal := by
  have hTime : (proposal.clamped policy).resourceConstraints.wallclockMinutes =
      proposal.resourceConstraints.wallclockMinutes := by
    rw [Proposal.clamped, clamped_eq]
  constructor
  · rintro ⟨hEvaluator, hDirection, hArtifacts, hWithin⟩
    exact ⟨hEvaluator, hDirection, hArtifacts, hTime ▸ hWithin⟩
  · rintro ⟨hEvaluator, hDirection, hArtifacts, hWithin⟩
    exact ⟨hEvaluator, hDirection, hArtifacts, hTime.symm ▸ hWithin⟩

/-- Read back itself, a draft is announced as routed unless the clamp or the binding differs. -/
theorem announced_iff_clamped (hStr : ∀ s, str (.scalar (.str s)) = s) :
    (technicalBindingStatus str contract.descriptor run proposal = .compatible ↔
        LeadsToPlanning contract run (proposal.clamped policy)) ↔
      (Fits contract.descriptor run proposal → Consistent str policy contract run proposal) := by
  have hReads := @metricReads_of_sameMetric str contract proposal hStr
  rw [technicalBindingStatus_eq_compatible]
  constructor
  · intro hSame hFits
    constructor
    · intro hBound hMetric hWritten hHides
      obtain ⟨hNot, hClamped⟩ := (clampHides_iff hFits.time).mp hHides
      exact hNot (hSame.mpr ⟨fits_clamped.mpr hFits, hBound, hMetric, hClamped, hWritten⟩).2.2
    · intro hName hWithin
      obtain ⟨_, hBound, hMetric, _, hWritten⟩ := hSame.mp ⟨hFits, hName, hWithin⟩
      exact ⟨hBound, hMetric, hWritten⟩
  · intro hConsistent
    constructor
    · rintro ⟨hFits, hName, hWithin⟩
      obtain ⟨hBound, hMetric, hWritten⟩ := (hConsistent hFits).route hName hWithin
      exact ⟨fits_clamped.mpr hFits, hBound, hMetric, within_clamped_of_within hWithin, hWritten⟩
    · rintro ⟨hFits, hBound, hMetric, hClamped, hWritten⟩
      have hFits := fits_clamped.mp hFits
      refine ⟨hFits, hReads hMetric, ?_⟩
      by_contra hAbove
      exact (hConsistent hFits).clamp hBound hMetric hWritten
        ((clampHides_iff hFits.time).mpr ⟨hAbove, hClamped⟩)

/-- The brief tells the truth about a draft that is read back itself, which is one that was not
followed by a new one when it was dumped for the first time, exactly if neither the clamp nor the
binding makes a difference while everything else fits. Where an earlier draft is read back instead,
that one must lead to the planning exactly if this one fits. -/
theorem truthful_iff (hStr : ∀ s, str (.scalar (.str s)) = s)
    (hFree : CollisionFree digest (earlier ++ [proposal.clamped policy])) :
    Truthful str digest policy contract run earlier proposal ↔
      (NoneNewAfter (proposal.clamped policy) (earlier ++ [proposal.clamped policy]) →
        Fits contract.descriptor run proposal → Consistent str policy contract run proposal) ∧
      ∀ reread ∈ earlier, reread ≠ proposal.clamped policy →
        NoneNewAfter reread (earlier ++ [proposal.clamped policy]) →
        (LeadsToPlanning contract run reread ↔
          Fits contract.descriptor run proposal ∧ MetricReads str contract.descriptor proposal ∧
            proposal.resourceConstraints.within contract.descriptor.resourceConstraints =
    true) := by
  obtain ⟨reread, hIn, hRead⟩ := @exists_reread digest (proposal.clamped policy) earlier
  have hNewest := (reread_iff hIn hFree).mp hRead
  have hOnly : ∀ p ∈ earlier ++ [proposal.clamped policy],
      NoneNewAfter p (earlier ++ [proposal.clamped policy]) → p = reread := by
    intro p hp hLast
    exact some.inj (((reread_iff hp hFree).mpr hLast).symm.trans hRead)
  have hTruthful : Truthful str digest policy contract run earlier proposal ↔
      (technicalBindingStatus str contract.descriptor run proposal = .compatible ↔
        LeadsToPlanning contract run reread) := by
    unfold Truthful latestContractProposal
    rw [hRead, map_some, target_stored]
  rw [hTruthful]
  by_cases hOwn : reread = proposal.clamped policy
  · subst hOwn
    rw [announced_iff_clamped hStr]
    constructor
    · intro h
      exact ⟨fun _ => h, fun p hp hNe hLast =>
        absurd (hOnly p (List.mem_append_left _ hp) hLast) hNe⟩
    · rintro ⟨h, _⟩
      exact h hNewest
  · have hEarlier : reread ∈ earlier := by
      rcases List.mem_append.mp hIn with h | h
      · exact h
      · exact absurd (List.mem_singleton.mp h) hOwn
    rw [technicalBindingStatus_eq_compatible]
    constructor
    · intro h
      refine ⟨fun hLast => ?_, fun p hp _ hLast => ?_⟩
      · exact absurd (hOnly _ (by simp) hLast).symm hOwn
      · rw [hOnly p (List.mem_append_left _ hp) hLast]
        exact h.symm
    · rintro ⟨_, h⟩
      exact (h reread hEarlier hOwn hNewest).symm

end Binding

def trialProposal (cpu : ℚ) : Proposal where
  evaluatorType := "models"
  metricName := "accuracy"
  metricDirection := .maximize
  requiredArtifacts := ["metrics.json"]
  resourceConstraints := ⟨.finite cpu, .finite 16, 0, 30⟩

def latencyProposal : Proposal := { trialProposal 4 with metricName := "latency" }

def trialContract : InstalledContract where
  descriptor :=
    { contractId := "models"
      primaryMetric := some (.scalar (.str "accuracy"))
      primaryMetricDirection := some (.scalar (.str "maximize"))
      requiredArtifacts := ["metrics.json"]
      resourceConstraints := ⟨.finite 8, .finite 32, 0, 60⟩ }
  digest := "c0"

def trialPolicy : ResourcePolicy := ⟨.finite 8, .finite 32, 0⟩

def trialRun : BoundRun := ⟨"c0", none⟩

/-- A second draft that is new: the first one asked for another metric. -/
theorem truthful_iff_trialProposal :
    Truthful scalarText Proposal.metricName trialPolicy trialContract trialRun [latencyProposal]
      (trialProposal 4) := by
  have hClamped : (trialProposal 4).clamped trialPolicy = trialProposal 4 := by
    rw [Proposal.clamped, clamped, if_neg (by decide)]
  have hFree : CollisionFree Proposal.metricName
      ([latencyProposal] ++ [(trialProposal 4).clamped trialPolicy]) := by
    intro p hp p' hp' hSame
    simp only [List.cons_append, List.nil_append, List.mem_cons, List.not_mem_nil,
      or_false] at hp hp'
    rcases hp with rfl | rfl <;> rcases hp' with rfl | rfl
    · rfl
    · exact absurd hSame (by decide)
    · exact absurd hSame (by decide)
    · rfl
  refine (truthful_iff (fun _ => rfl) hFree).mpr ⟨fun _ _ => ⟨?_, ?_⟩, ?_⟩
  · rintro _ _ _ ⟨hAbove, _⟩
    revert hAbove
    decide
  · intro _ _
    refine ⟨rfl, rfl, ?_⟩
    rw [show clamped trialPolicy (trialProposal 4).resourceConstraints = _ from
      congrArg Proposal.resourceConstraints hClamped]
    exact ⟨rfl, rfl⟩
  · intro reread hReread _ hLast
    rw [List.mem_singleton.mp hReread] at hLast ⊢
    have hNewest := getLast?_firstWrites.mpr
      ((noneNewAfter_map (by simp) (hClamped ▸ hFree)).mpr hLast)
    exact absurd hNewest (by decide)

/-- The agent asks for twelve CPUs: the brief announces a new contract, and the approval goes on
with the bound one. And a third draft, the same as the first, is announced as compatible while the
second one, with another metric, is read back and has a new contract drafted. -/
theorem not_truthful :
    (technicalBindingStatus scalarText trialContract.descriptor trialRun (trialProposal 12) =
        .requiresNewHarness ∧
      approvedProtocolTarget trialPolicy trialContract trialRun
        (latestContractProposal Proposal.metricName [(trialProposal 12).clamped trialPolicy]) =
          .ok .beakerPlanning) ∧
    technicalBindingStatus scalarText trialContract.descriptor trialRun (trialProposal 4) =
        .compatible ∧
      approvedProtocolTarget trialPolicy trialContract trialRun
        (latestContractProposal Proposal.metricName
          ([trialProposal 4, latencyProposal, trialProposal 4].map
            (Proposal.clamped trialPolicy))) = .ok .beakerDraftingContract := by
  decide +kernel

end Glasslab.Engine.ContractProposal
