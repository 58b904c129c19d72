import Glasslab.Schemas

/-!
# Legal run-state transitions

`app/state_machine.py`: the graph every transition is validated against before the store
writes it.
-/

namespace Glasslab

open RunState

/-- `HUMAN_WAIT_STATES`: no agent or cluster work is in flight, the run clock is stopped. -/
def humanWaitStates : List RunState :=
  [awaitingProtocolApproval, awaitingContractPromotion, awaitingExecutionApproval,
    awaitingFinalAcceptance]

def transitions : RunState → List RunState
  | created => [preparing, cancelled, failed]
  | preparing =>
    [honeydewDraftingProtocol, awaitingProtocolApproval, paused, cancelled, failed]
  | honeydewDraftingProtocol => [awaitingProtocolApproval, paused, cancelled, failed, timedOut]
  | awaitingProtocolApproval =>
    [honeydewDraftingProtocol, beakerDraftingContract, beakerPlanning, paused, cancelled, failed,
      timedOut]
  | beakerDraftingContract =>
    [honeydewReviewingContract, beakerPlanning, paused, cancelled, failed, timedOut]
  | honeydewReviewingContract =>
    [beakerDraftingContract, awaitingContractPromotion, paused, cancelled, failed, timedOut]
  | awaitingContractPromotion =>
    [beakerDraftingContract, beakerPlanning, paused, cancelled, failed, timedOut]
  | beakerPlanning =>
    [beakerDraftingContract, beakerImplementing, paused, cancelled, failed, timedOut]
  | beakerImplementing =>
    [beakerPlanning, beakerDraftingContract, beakerFinalizing, beakerRevising, honeydewReviewing,
      paused, cancelled, failed, timedOut]
  | beakerFinalizing =>
    [beakerDraftingContract, beakerRevising, honeydewReviewing, paused, cancelled, failed,
      timedOut]
  | honeydewReviewing =>
    [beakerDraftingContract, beakerRevising, awaitingExecutionApproval, paused, cancelled, failed,
      timedOut]
  | beakerRevising =>
    [beakerDraftingContract, honeydewReviewing, paused, cancelled, failed, timedOut]
  | awaitingExecutionApproval =>
    [beakerDraftingContract, jobQueued, beakerRevising, paused, cancelled, failed, timedOut]
  | jobQueued => [jobRunning, beakerAnalyzing, paused, cancelled, failed, timedOut]
  | jobRunning => [beakerAnalyzing, paused, cancelled, failed, timedOut]
  | beakerAnalyzing =>
    [honeydewVerifying, beakerRevising, paused, cancelled, failed, timedOut]
  | honeydewVerifying =>
    [beakerRevising, honeydewWritingReport, paused, cancelled, failed, timedOut]
  | honeydewWritingReport => [awaitingFinalAcceptance, paused, cancelled, failed, timedOut]
  | awaitingFinalAcceptance =>
    [complete, honeydewWritingReport, paused, cancelled, failed, timedOut]
  | paused => RunState.all.filter fun s => s ∉ [paused, complete, failed, timedOut]
  | complete => []
  | failed => []
  | cancelled => []
  | timedOut => []

/-- `validate_transition` raises exactly when this is false. -/
def validTransition (current target : RunState) : Bool := target ∈ transitions current

theorem not_validTransition_of_terminal {current target : RunState}
    (h : current ∈ terminalStates) : validTransition current target = false := by
  simp only [terminalStates, List.mem_cons, List.not_mem_nil, or_false] at h
  rcases h with rfl | rfl | rfl | rfl <;> rfl

theorem validTransition_irrefl (s : RunState) : validTransition s s = false := by
  cases s <;> decide

end Glasslab
