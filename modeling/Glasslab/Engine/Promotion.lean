import Glasslab.Foundation.Machine
import Glasslab.Storage.Spec

/-!
# Promoting a conversation into a run

`promote_conversation` looks for a `conversation.promoted` event of the conversation, creates a run,
and appends the event when everything else is done. A call that raises after the run was committed
and before the event was appended leaves a run that the next call does not see.
-/

namespace Glasslab.Promotion

open Foundation Foundation.Machine Foundation.Tx Storage List

inductive TurnStatus where
  | running
  | completed
  | failed
  | aborted
  deriving DecidableEq

/-- A turn of a conversation; the answer is `structured_output.research_answer`. -/
structure ConversationTurn where
  status : TurnStatus
  researchAnswer : Option String
  deriving DecidableEq

/-- The steps of a call in which something outside the tables of the store can raise. -/
inductive Stage where
  | prepare
  | attach
  | publishCreated
  | publishPreparing
  | materialize
  | publishDrafting
  | failing
  | draft
  | investigation
  | packet
  | references
  | publishPromoted
  deriving DecidableEq

inductive PromoteError where
  | workflow (message : String)
  | invalidRequest
  | store (error : StoreError)
  | outside (stage : Stage)
  deriving DecidableEq

/-- A call of `promote_conversation`, with what it meets. -/
structure Call where
  objective : Option String := none
  evaluationContractId : Option String := none
  evaluationContractVersion : Option String := none
  investigationId : Option String := none
  existingDiscordThreadId : Option String := none
  /-- `list_turns` of the conversation. -/
  turns : List ConversationTurn
  /-- What `_answer_objective` or `_conversation_objective` makes of the turns. -/
  synthesized : String
  /-- The id that is drawn for the run. -/
  runId : String
  now : Instant
  oneActiveRun : Bool := true
  stalePausedCutoff : Option Instant := none
  /-- What `create_thread` returns, and nothing if it raises. -/
  newThread : Option String := none
  raises : Stage → Bool := fun _ => false
  /-- `str` of an exception. -/
  text : PromoteError → String := fun _ => ""
  /-- What the rest of the service does in a step. A drafting turn is part of it. -/
  meanwhile : Stage → List StoreOp := fun _ => []

namespace Call

/-- The turns that have an answer. -/
def answered (call : Call) : List ConversationTurn :=
  call.turns.filter fun turn => turn.status = .completed ∧ turn.researchAnswer.isSome

/-- `objective or ..`: the empty string counts as none. -/
def resolvedObjective (call : Call) : String :=
  match call.objective with
  | some objective => if objective = "" then call.synthesized else objective
  | none => call.synthesized

def given (text : Option String) : Bool := text.any (· ≠ "")

/-- The checks of `RunCreateRequest`. -/
def valid (call : Call) : Bool :=
  10 ≤ call.resolvedObjective.length ∧
    given call.evaluationContractId = given call.evaluationContractVersion

/-- The thread the run is bound to without a new one being made. -/
def threadId (call : Call) (conversationId : String) : Option String :=
  match call.existingDiscordThreadId with
  | some threadId => some threadId
  | none =>
    if conversationId.startsWith "discord-thread-" then
      some (conversationId.drop "discord-thread-".length).toString
    else none

def record (call : Call) : RunRecord :=
  { freshRun call.runId call.resolvedObjective call.now with investigationId :=
    call.investigationId }

end Call

/-- The store, and the runs that were committed for the conversation. The list is kept for the
statements below; no code reads it. -/
structure Desk where
  store : Store
  created : List String := []

abbrev PromoteM := Tx Desk PromoteError

/-! ## Promotion -/

/-- The `conversation.promoted` events of a conversation. -/
def promotions (conversationId : String) (s : Store) : List EventRecord :=
  (s.eventsOf conversationId).filter fun event => event.eventType = "conversation.promoted"

/-- Everybody but `promote_conversation` leaves the promotions alone. -/
def quiet (conversationId : String) : StoreOp → Bool
  | .appendEvent runId _ eventType _ =>
    ¬ (runId = conversationId ∧ eventType = "conversation.promoted")
  | _ => true

def others (conversationId : String) (ops : List StoreOp) (s : Store) : Store :=
  exec stepStore s (ops.filter (quiet conversationId))

def onStore {α : Type} (t : StoreM α) : PromoteM α := fun desk =>
  match t desk.store with
  | (.ok a, s) => (.ok a, { desk with store := s })
  | (.error e, s) => (.error (.store e), { desk with store := s })

def readRun (runId : String) : PromoteM RunRecord :=
  onStore fun s => (getRun s runId, s)

section Promote

variable (conversationId : String) (call : Call)

/-- Pass a step, or raise in it, while the rest of the service goes on. -/
def pass (stage : Stage) : PromoteM Unit := do
  Tx.modify fun desk =>
    { desk with store := others conversationId (call.meanwhile stage) desk.store }
  if call.raises stage then Tx.raise (.outside stage) else pure ()

/-- `get_run` and `replace_run` with one field changed, which others may come between. The thread
and the context references of a run are fields that its record here does not keep. -/
def rewriteRun (runId : String) (stage : Stage) (change : RunRecord → RunRecord) :
    PromoteM Unit := do
  let current ← readRun runId
  pass conversationId call stage
  let _ ← onStore (replaceRun (change current) current.version call.now)

def transition (target : RunState) (payload : Payload) (stage : Stage) : PromoteM Unit := do
  let _ ← onStore (transitionRun call.runId target "orchestrator" payload .none call.now)
  pass conversationId call stage

def failRun (error : PromoteError) : PromoteM Unit := do
  let run ← readRun call.runId
  if run.state ∈ terminalStates ∨ run.state = .paused then pure ()
  else
    let moved ← Tx.result
      (transition conversationId call .failed [("error", .str (call.text error))] .failing)
    match moved with
    | .error (.store (.concurrencyConflict _)) => pure ()
    | .error (.store (.invalidTransition _ _)) => pure ()
    | .error e => Tx.raise e
    | .ok () => do
      onStore (appendEvent call.runId "orchestrator" "run.failed"
        [("error", .str (call.text error))])
      pass conversationId call .failing

/-- The part of `create_run` whose failure is fatal for the run. -/
def setUp : PromoteM Unit := do
  let done ← Tx.result do
    transition conversationId call .preparing [] .publishPreparing
    pass conversationId call .materialize
    transition conversationId call .honeydewDraftingProtocol [] .publishDrafting
  match done with
  | .ok () => pure ()
  | .error e => do
    failRun conversationId call e
    Tx.raise e

/-- `create_run` up to and with the commit. -/
def commitRun : PromoteM Unit := do
  if call.raises .prepare then Tx.raise (.outside .prepare)
  else
    let _ ← onStore
      (Storage.createRun call.record call.oneActiveRun call.stalePausedCutoff call.now)
    Tx.modify fun desk => { desk with created := desk.created ++ [call.runId] }

def attachThread : PromoteM Unit :=
  if Call.given (call.threadId conversationId) ∨ Call.given call.newThread then
    rewriteRun conversationId call call.runId .attach id
  else pure ()

/-- `create_run` after the commit, up to and with the draft of the protocol. -/
def startRun : PromoteM Unit := do
  attachThread conversationId call
  pass conversationId call .publishCreated
  setUp conversationId call
  pass conversationId call .draft

/-- `create_run` after the commit. -/
def openRun : PromoteM RunRecord := do
  startRun conversationId call
  readRun call.runId

def joinInvestigation : PromoteM Unit :=
  if Call.given call.investigationId then
    rewriteRun conversationId call conversationId .investigation fun run =>
      { run with investigationId := call.investigationId }
  else pure ()

/-- What `promote_conversation` does between the run and the event. -/
def describeRun (runId : String) : PromoteM Unit := do
  joinInvestigation conversationId call
  pass conversationId call .packet
  rewriteRun conversationId call runId .references id

/-- `_event` with the event of the promotion. -/
def markPromoted (runId : String) : PromoteM Unit := do
  onStore (appendEvent conversationId "orchestrator" "conversation.promoted"
    [("run_id", .str runId), ("objective", .str call.resolvedObjective),
      ("investigation_id", call.investigationId.elim .null .str)])
  pass conversationId call .publishPromoted

def priorRun (event : EventRecord) : String := (event.payload.getStr "run_id").getD "None"

/-- `promote_conversation` after the run is committed. -/
def completePromotion : PromoteM RunRecord := do
  let run ← openRun conversationId call
  describeRun conversationId call run.runId
  markPromoted conversationId call run.runId
  pure run

def promoteConversation : PromoteM RunRecord := do
  let desk ← Tx.get
  match (promotions conversationId desk.store).getLast? with
  | some event =>
    Tx.raise (.workflow ("conversation already promoted to run " ++ priorRun event))
  | none =>
    if call.answered = [] then
      Tx.raise (.workflow "conversation has no answered turns to promote")
    else if call.valid then do
      commitRun call
      completePromotion conversationId call
    else Tx.raise .invalidRequest

end Promote

inductive Activity where
  | others (ops : List StoreOp)
  | promote (call : Call)

def step (conversationId : String) (desk : Desk) : Activity → Desk
  | .others ops => { desk with store := others conversationId ops desk.store }
  | .promote call => (promoteConversation conversationId call desk).2

/-- A call returns a run, or says in its error which run there is. -/
def Reports (runId : String) : Except PromoteError RunRecord → Prop
  | .ok run => run.runId = runId
  | .error (.workflow message) => message = "conversation already promoted to run " ++ runId
  | .error (.store (.concurrencyConflict message)) =>
    message = "active run already exists: " ++ runId
  | .error _ => False

/-- After the activity there is one run at most, and a call reports the run that there was. -/
def PromotesOnce (conversationId : String) (desk : Desk) (activity : Activity) : Prop :=
  (step conversationId desk activity).created.length ≤ 1 ∧
    ∀ call, activity = .promote call → ∀ runId ∈ desk.created,
      Reports runId (promoteConversation conversationId call desk).1

/-- The slot is held by a run that a new one may not cancel. -/
def Held (s : Store) (investigationId : Option String) (one : Bool) (cutoff : Option Instant)
    (runId : String) : Prop :=
  one = true ∧ ∃ row, s.activeRun investigationId = some (runId, row) ∧
    ¬ (row.payload.state = .paused ∧ ∃ instant ∈ cutoff, row.payload.updatedAt < instant)

def SlotHeld (s : Store) (call : Call) (runId : String) : Prop :=
  call.answered ≠ [] ∧ call.valid = true ∧ call.raises .prepare = false ∧
    Held s call.investigationId call.oneActiveRun call.stalePausedCutoff runId

/-- A call is not made while there is a run without its event, unless that run holds the slot. -/
def Admits (conversationId : String) (desk : Desk) : Activity → Prop
  | .others _ => True
  | .promote call => promotions conversationId desk.store = [] →
    ∀ runId ∈ desk.created, SlotHeld desk.store call runId

variable {conversationId runId : String}

section Quiet

variable {source eventType : String} {payload : Payload} {s s' : Store}

theorem promotions_log (h : runId ≠ conversationId ∨ eventType ≠ "conversation.promoted") :
    promotions conversationId (s.log runId source eventType payload) =
      promotions conversationId s := by
  unfold promotions
  by_cases hRun : conversationId = runId
  · subst hRun
    have hType : eventType ≠ "conversation.promoted" := h.resolve_left fun hNe => hNe rfl
    rw [Store.eventsOf_log_self, filter_append]
    simp [Store.newEvent, hType]
  · rw [Store.eventsOf_log_ne hRun]

theorem promotions_log_type (h : eventType ≠ "conversation.promoted") :
    promotions conversationId (s.log runId source eventType payload) =
      promotions conversationId s := promotions_log (.inr h)

theorem promotions_claim {investigationId : Option String} {one : Bool} {cutoff : Option Instant}
    {now : Instant} (h : Returns (claimActiveSlot investigationId one cutoff now) s () s') :
    promotions conversationId s' = promotions conversationId s := by
  rcases claimActiveSlot_returns h with ⟨rfl, _⟩ | ⟨_, _, _, _, _, _, rfl⟩
  · rfl
  · exact promotions_log_type (by decide)

theorem promotions_effect {op : StoreOp} (hQuiet : quiet conversationId op = true)
    (h : op.Effect s s') : promotions conversationId s' = promotions conversationId s := by
  cases h with
  | createRun hClaim hFree =>
    refine Eq.trans ?_ (promotions_claim hClaim)
    exact promotions_log_type (by decide)
  | replayRetry => rfl
  | @openRetry record parentRunId key digest one cutoff now parent s₁ _ _ _ hClaim _ _ =>
    refine Eq.trans ?_ (promotions_claim hClaim)
    refine (promotions_log_type (by decide)).trans ((promotions_log_type (by decide)).trans
      ((promotions_log_type (by decide)).trans ?_))
    cases s.retrySlot parentRunId with
    | none => rfl
    | some existing => exact promotions_log_type (by decide)
  | transitionRun => exact promotions_log_type (by decide)
  | resetMethodologyRevisionBudget => exact promotions_log_type (by decide)
  | appendEvent =>
    refine promotions_log ?_
    simpa [quiet, Classical.not_and_iff_not_or_not] using hQuiet
  | resolveAction => rfl
  | saveAction => exact promotions_log_type (by decide)
  | replaceRun => rfl

/-- An operation leaves the promotions and the rows in order. -/
structure Orderly (conversationId : String) (s s' : Store) : Prop where
  promotions : promotions conversationId s' = promotions conversationId s
  rows : RowsInv s → RowsInv s'

theorem Orderly.refl : Orderly conversationId s s := ⟨rfl, id⟩

theorem orderly_stepStore {op : StoreOp} (hQuiet : quiet conversationId op = true) :
    Orderly conversationId s (stepStore s op) := by
  rcases stepStore_cases s op with hSame | hEffect
  · rw [hSame]
    exact .refl
  · exact ⟨promotions_effect hQuiet hEffect, fun h => h.effect hEffect⟩

theorem Orderly.trans {s₁ : Store} (h : Orderly conversationId s s₁)
    (h' : Orderly conversationId s₁ s') : Orderly conversationId s s' :=
  ⟨h'.promotions.trans h.promotions, fun hRows => h'.rows (h.rows hRows)⟩

theorem orderly_others (ops : List StoreOp) :
    Orderly conversationId s (others conversationId ops s) := by
  induction ops generalizing s with
  | nil => exact .refl
  | cons op ops ih =>
    unfold others
    rw [filter_cons]
    split
    next hQuiet => exact (orderly_stepStore hQuiet).trans ih
    next => exact ih

end Quiet

/-- The promotions and the runs committed for them are the same, and the rows are in order. -/
structure Same (conversationId : String) (desk desk' : Desk) : Prop where
  orderly : Orderly conversationId desk.store desk'.store
  created : desk'.created = desk.created

/-- A command leaves the promotions alone, whether it returns or raises. -/
def Leaves (conversationId : String) {α : Type} (t : PromoteM α) : Prop :=
  ∀ desk, wp t (fun _ => Same conversationId desk) (fun _ => Same conversationId desk) desk

section Leaves

variable {α β : Type} {t : PromoteM α} {f : α → PromoteM β}

theorem Same.refl (desk : Desk) : Same conversationId desk desk := ⟨.refl, rfl⟩

theorem Same.trans {desk desk₁ desk' : Desk} (h : Same conversationId desk desk₁)
    (h' : Same conversationId desk₁ desk') : Same conversationId desk desk' :=
  ⟨h.orderly.trans h'.orderly, h'.created.trans h.created⟩

theorem leaves_pure (a : α) : Leaves conversationId (pure a) := fun desk => Same.refl desk

theorem leaves_raise (e : PromoteError) : Leaves conversationId (Tx.raise e : PromoteM α) :=
  fun desk => Same.refl desk

theorem Leaves.bind (ht : Leaves conversationId t) (hf : ∀ a, Leaves conversationId (f a)) :
    Leaves conversationId (t >>= f) := by
  intro desk
  refine wp_step (ht desk) (fun a desk₁ hFirst => ?_) fun _ _ hFirst => hFirst
  exact wp_mono (hf a desk₁) (fun _ _ hRest => hFirst.trans hRest) fun _ _ hRest =>
    hFirst.trans hRest

theorem Leaves.ite {c : Prop} [Decidable c] {t u : PromoteM α} (ht : Leaves conversationId t)
    (hu : Leaves conversationId u) : Leaves conversationId (if c then t else u) := by
  split
  · exact ht
  · exact hu

theorem Leaves.result (ht : Leaves conversationId t) : Leaves conversationId (Tx.result t) :=
  fun desk => wp_result.mpr (ht desk)

theorem leaves_onStore {t : StoreM α} (ht : ∀ s, Orderly conversationId s (t s).2) :
    Leaves conversationId (onStore t) := by
  intro desk
  have hStore := ht desk.store
  unfold wp onStore
  rcases hRun : t desk.store with ⟨e | a, s⟩
  · rw [hRun] at hStore
    exact ⟨hStore, rfl⟩
  · rw [hRun] at hStore
    exact ⟨hStore, rfl⟩

/-- The value of an operation does not matter for the store it leaves. -/
theorem orderly_of_call {t : StoreM α} {op : StoreOp} (hQuiet : quiet conversationId op = true)
    (hCall : op.call = do let _ ← t) (s : Store) : Orderly conversationId s (t s).2 := by
  have hStore : stepStore s op = (t s).2 := by
    show (op.call s).2 = (t s).2
    rw [hCall]
    show (Tx.bind t _ s).2 = (t s).2
    unfold Tx.bind
    rcases t s with ⟨_ | _, s₁⟩ <;> rfl
  exact hStore ▸ orderly_stepStore hQuiet

theorem leaves_readRun (runId : String) : Leaves conversationId (readRun runId) :=
  leaves_onStore fun _ => .refl

section

variable (call : Call)
include call

theorem leaves_pass (stage : Stage) :
    Leaves conversationId (pass conversationId call stage) := by
  refine Leaves.bind (fun desk => ⟨orderly_others (call.meanwhile stage), rfl⟩) fun _ => ?_
  exact (leaves_raise _).ite (leaves_pure ())

theorem leaves_rewriteRun (runId : String) (stage : Stage)
    (change : RunRecord → RunRecord) :
    Leaves conversationId (rewriteRun conversationId call runId stage change) := by
  refine (leaves_readRun runId).bind fun current => (leaves_pass call stage).bind fun _ => ?_
  exact (leaves_onStore (@orderly_of_call _ _ _ (.replaceRun _ _ _) rfl rfl)).bind
    fun _ => leaves_pure ()

theorem leaves_transition (target : RunState) (payload : Payload) (stage : Stage) :
    Leaves conversationId (transition conversationId call target payload stage) := by
  refine Leaves.bind ?_ fun _ => leaves_pass call stage
  exact leaves_onStore (@orderly_of_call _ _ _
    (.transitionRun call.runId target "orchestrator" payload .none call.now) rfl rfl)

theorem leaves_failRun (error : PromoteError) :
    Leaves conversationId (failRun conversationId call error) := by
  refine (leaves_readRun _).bind fun run => (leaves_pure ()).ite ?_
  refine (leaves_transition call _ _ _).result.bind fun moved => ?_
  have hEvent : Leaves conversationId (onStore
      (appendEvent call.runId "orchestrator" "run.failed"
        [("error", .str (call.text error))])) := by
    refine leaves_onStore fun s => ?_
    exact @orderly_stepStore _ _ (.appendEvent call.runId "orchestrator" "run.failed"
      [("error", .str (call.text error))]) (by simp [quiet])
  split
  next => exact leaves_pure ()
  next => exact leaves_pure ()
  next => exact leaves_raise _
  next => exact hEvent.bind fun _ => leaves_pass call .failing

theorem leaves_setUp : Leaves conversationId (setUp conversationId call) := by
  refine Leaves.bind ?_ fun done => ?_
  · refine Leaves.result ?_
    refine (leaves_transition call _ _ _).bind fun _ => ?_
    exact (leaves_pass call _).bind fun _ => leaves_transition call _ _ _
  · split
    next => exact leaves_pure ()
    next => exact (leaves_failRun call _).bind fun _ => leaves_raise _

theorem leaves_startRun : Leaves conversationId (startRun conversationId call) := by
  have hAttach : Leaves conversationId (attachThread conversationId call) :=
    (leaves_rewriteRun call _ _ _).ite (leaves_pure ())
  refine hAttach.bind fun _ => (leaves_pass call _).bind fun _ => ?_
  exact (leaves_setUp call).bind fun _ => leaves_pass call _

theorem leaves_describeRun (runId : String) :
    Leaves conversationId (describeRun conversationId call runId) := by
  have hJoin : Leaves conversationId (joinInvestigation conversationId call) :=
    (leaves_rewriteRun call _ _ _).ite (leaves_pure ())
  exact hJoin.bind fun _ => (leaves_pass call _).bind fun _ => leaves_rewriteRun call _ _ _

end

end Leaves

/-! ## One call -/

section Calls

variable {call : Call} {desk : Desk}

theorem runId_getRun {s : Store} {run : RunRecord} (hRows : RowsInv s)
    (h : getRun s runId = .ok run) : run.runId = runId := by
  unfold getRun at h
  split at h
  next => cases h
  next row hFind =>
    cases h
    exact hRows.keyed runId row hFind

theorem wp_readRun (hRows : RowsInv desk.store) :
    wp (readRun runId) (fun run desk' => run.runId = runId ∧ desk' = desk)
      (fun _ desk' => desk' = desk) desk := by
  unfold wp readRun onStore
  dsimp only
  cases hGet : getRun desk.store runId with
  | error e => rfl
  | ok run => exact ⟨runId_getRun hRows hGet, rfl⟩

/-- What `create_run` returns is the run it has committed. -/
theorem wp_openRun (hRows : RowsInv desk.store) :
    wp (openRun conversationId call)
      (fun run desk' => run.runId = call.runId ∧ Same conversationId desk desk')
      (fun _ => Same conversationId desk) desk := by
  refine wp_step (leaves_startRun call desk) (fun _ desk₁ hSame => ?_) fun _ _ hSame => hSame
  refine wp_mono (wp_readRun (hSame.orderly.rows hRows)) ?_ ?_
  · rintro run desk' ⟨hRun, rfl⟩
    exact ⟨hRun, hSame⟩
  · rintro e desk' rfl
    exact hSame

section Slot

variable {s : Store} {investigationId : Option String} {one : Bool} {cutoff : Option Instant}
  {now : Instant} {message : String} {record : RunRecord}

/-- A command that raises nothing else does not raise a conflict. -/
theorem ne_conflict_of_wp {α : Type} {t : StoreM α}
    (h : wp t (fun _ _ => True) (fun e _ => ∃ column, e = .integrityError column) s) :
    (t s).1 ≠ .error (.concurrencyConflict message) := by
  intro hConflict
  unfold wp at h
  rcases hRun : t s with ⟨e | a, s₁⟩
  · rw [hRun] at h hConflict
    obtain ⟨column, rfl⟩ := h
    cases hConflict
  · rw [hRun] at hConflict
    cases hConflict

theorem wp_appendEventConn {runId source eventType : String} {payload : Payload} :
    wp (appendEventConn runId source eventType payload) (fun _ _ => True)
      (fun e _ => ∃ column, e = .integrityError column) s := by
  unfold appendEventConn
  rw [wp_bind, wp_get, wp_ite]
  exact ⟨fun _ => ⟨_, rfl⟩, fun _ => trivial⟩

theorem claim_conflict_iff :
    (claimActiveSlot investigationId one cutoff now s).1 = .error (.concurrencyConflict message) ↔
      ∃ runId, Held s investigationId one cutoff runId ∧
        message = "active run already exists: " ++ runId := by
  cases one with
  | false =>
    refine iff_of_false nofun ?_
    rintro ⟨runId, ⟨hOne, _⟩, _⟩
    cases hOne
  | true =>
    show (Tx.bind Tx.get _ s).1 = _ ↔ _
    unfold Tx.bind Tx.get
    simp only [Bool.true_eq_false, if_false]
    cases hActive : s.activeRun investigationId with
    | none =>
      refine iff_of_false nofun ?_
      rintro ⟨runId, ⟨_, row, hRow, _⟩, _⟩
      rw [hActive] at hRow
      cases hRow
    | some active =>
      obtain ⟨k, row⟩ := active
      dsimp only
      split
      next hStale =>
        refine iff_of_false (ne_conflict_of_wp ?_) ?_
        · exact wp_appendEventConn
        · rintro ⟨runId, ⟨_, found, hRow, hNot⟩, _⟩
          rw [hActive] at hRow
          cases hRow
          exact hNot hStale
      next hFresh =>
        constructor
        · intro hRaise
          refine ⟨k, ⟨rfl, row, hActive, hFresh⟩, ?_⟩
          cases hRaise
          rfl
        · rintro ⟨runId, ⟨_, found, hRow, _⟩, rfl⟩
          rw [hActive] at hRow
          cases hRow
          rfl

theorem createRun_conflict_iff :
    (Storage.createRun record one cutoff now s).1 = .error (.concurrencyConflict message) ↔
      ∃ runId, Held s record.investigationId one cutoff runId ∧
        message = "active run already exists: " ++ runId := by
  rw [← @claim_conflict_iff _ _ _ _ now]
  have hRest : ∀ s₁, wp (do
      insertRun record
      appendEventConn record.runId "orchestrator" "run.created"
        [("objective", .str record.objective), ("state", .str record.state.value)]
      pure record) (fun _ _ => True) (fun e _ => ∃ column, e = .integrityError column) s₁ := by
    intro s₁
    unfold insertRun
    rw [wp_bind, wp_bind, wp_get, wp_ite]
    refine ⟨fun _ => ?_, fun _ => ⟨_, rfl⟩⟩
    rw [wp_modify, wp_bind]
    exact wp_appendEventConn
  unfold Storage.createRun
  rw [fst_atomically, fst_bind_eq_error_iff]
  constructor
  · rintro (hClaim | ⟨_, s₁, _, hRaise⟩)
    · exact hClaim
    · exact absurd hRaise (ne_conflict_of_wp (hRest s₁))
  · exact .inl

/-- A run is not created because of another exactly if the other holds the slot. -/
theorem createRun_names_iff {runId : String} :
    (Storage.createRun record one cutoff now s).1 =
        .error (.concurrencyConflict ("active run already exists: " ++ runId)) ↔
      Held s record.investigationId one cutoff runId := by
  rw [createRun_conflict_iff]
  constructor
  · rintro ⟨k, hHeld, hMessage⟩
    have hSame : runId = k := (String.append_right_inj _).mp hMessage
    exact hSame ▸ hHeld
  · intro hHeld
    exact ⟨runId, hHeld, rfl⟩

end Slot

theorem reports_store_iff {e : StoreError} :
    Reports runId (.error (.store e)) ↔
      e = .concurrencyConflict ("active run already exists: " ++ runId) := by
  cases e <;> simp [Reports]

/-- A call before its run is committed: it raises and leaves everything as it was, and names the run
that holds the slot if there is one, or it commits the run because there is none. -/
theorem commitRun_cases (conversationId : String) (call : Call) (desk : Desk) :
    (∃ e, commitRun call desk = (.error e, desk) ∧
      ∀ runId, Reports runId (.error e) ↔ call.raises .prepare = false ∧
        Held desk.store call.investigationId call.oneActiveRun call.stalePausedCutoff runId) ∨
    ∃ s, commitRun call desk = (.ok (), ⟨s, desk.created ++ [call.runId]⟩) ∧
      Orderly conversationId desk.store s ∧ ∀ runId,
        ¬ Held desk.store call.investigationId call.oneActiveRun call.stalePausedCutoff runId := by
  unfold commitRun
  split
  next hRaises => exact .inl ⟨_, rfl, fun runId => iff_of_false nofun (by simp [hRaises])⟩
  next hPrepared =>
    have hNames : ∀ runId, _ ↔ Held desk.store call.investigationId call.oneActiveRun
        call.stalePausedCutoff runId := fun runId =>
      @createRun_names_iff _ _ _ call.now call.record _
    have hOrderly : Orderly conversationId desk.store
        (Storage.createRun call.record call.oneActiveRun call.stalePausedCutoff call.now
          desk.store).2 :=
      @orderly_of_call _ _ _ (.createRun call.record call.oneActiveRun call.stalePausedCutoff
        call.now) rfl rfl desk.store
    rcases atomically_cases _ desk.store with ⟨e, hRaise⟩ | ⟨run, s, hReturn⟩
    · have hCreate : Storage.createRun call.record call.oneActiveRun call.stalePausedCutoff
          call.now desk.store = (.error e, desk.store) := hRaise
      refine .inl ⟨.store e, ?_, fun runId => ?_⟩
      · show Tx.bind (onStore _) _ desk = _
        unfold Tx.bind onStore
        rw [hCreate]
      · rw [reports_store_iff, ← hNames runId, hCreate]
        simp [hPrepared]
    · have hCreate : Storage.createRun call.record call.oneActiveRun call.stalePausedCutoff
          call.now desk.store = (.ok run, s) := hReturn
      rw [hCreate] at hOrderly
      refine .inr ⟨s, ?_, hOrderly, fun runId => ?_⟩
      · show Tx.bind (onStore _) _ desk = _
        unfold Tx.bind onStore
        rw [hCreate]
        rfl
      · rw [← hNames runId, hCreate]
        nofun

/-- The promotions after a call that has committed its run. -/
structure Marked (conversationId runId : String) (created : List String) (desk : Desk) : Prop where
  rows : RowsInv desk.store
  created : desk.created = created
  promotions : promotions conversationId desk.store = [] ∨
    ∃ event, promotions conversationId desk.store = [event] ∧ priorRun event = runId

theorem Marked.same {created : List String} {desk' : Desk}
    (h : Marked conversationId runId created desk) (hSame : Same conversationId desk desk') :
    Marked conversationId runId created desk' where
  rows := hSame.orderly.rows h.rows
  created := hSame.created.trans h.created
  promotions := hSame.orderly.promotions ▸ h.promotions

theorem promotions_log_self {s : Store} {source : String} {payload : Payload} :
    promotions conversationId (s.log conversationId source "conversation.promoted" payload) =
      promotions conversationId s ++
        [s.newEvent conversationId source "conversation.promoted" payload] := by
  unfold promotions
  rw [Store.eventsOf_log_self, filter_append]
  simp [Store.newEvent]

theorem wp_markPromoted (hRows : RowsInv desk.store)
    (hNone : promotions conversationId desk.store = []) :
    wp (markPromoted conversationId call runId)
      (fun _ => Marked conversationId runId desk.created)
      (fun _ => Marked conversationId runId desk.created) desk := by
  unfold markPromoted
  rw [wp_bind]
  have hPass : ∀ desk', Marked conversationId runId desk.created desk' →
      wp (pass conversationId call .publishPromoted)
        (fun _ => Marked conversationId runId desk.created)
        (fun _ => Marked conversationId runId desk.created) desk' := by
    intro desk' hMarked
    exact wp_mono (leaves_pass call _ desk') (fun _ _ hSame => hMarked.same hSame)
      fun _ _ hSame => hMarked.same hSame
  unfold wp onStore
  rcases atomically_cases _ desk.store with ⟨e, hRaise⟩ | ⟨u, s, hReturn⟩
  · rw [appendEvent, hRaise]
    exact ⟨hRows, rfl, .inl hNone⟩
  · obtain ⟨_, rfl⟩ := appendEvent_returns.mp hReturn
    rw [appendEvent, hReturn]
    have hEvents := @promotions_log_self conversationId desk.store "orchestrator"
      [("run_id", .str runId), ("objective", .str call.resolvedObjective),
        ("investigation_id", call.investigationId.elim .null .str)]
    rw [hNone, nil_append] at hEvents
    exact hPass _ ⟨hRows.of_runs_eq rfl, rfl, .inr ⟨_, hEvents, rfl⟩⟩

theorem wp_completePromotion (hRows : RowsInv desk.store)
    (hNone : promotions conversationId desk.store = []) :
    wp (completePromotion conversationId call)
      (fun _ => Marked conversationId call.runId desk.created)
      (fun _ => Marked conversationId call.runId desk.created) desk := by
  have hSame : ∀ desk', Same conversationId desk desk' →
      Marked conversationId call.runId desk.created desk' := fun desk' hSame =>
    Marked.same ⟨hRows, rfl, .inl hNone⟩ hSame
  refine wp_step (wp_openRun hRows) ?_ fun _ desk₁ hOpen => hSame desk₁ hOpen
  rintro run desk₁ ⟨hRun, hOpen⟩
  rw [wp_bind, hRun]
  refine wp_mono (leaves_describeRun call call.runId desk₁) (fun _ desk₂ hDescribe => ?_)
    fun _ desk₂ hDescribe => hSame desk₂ (hOpen.trans hDescribe)
  have hBefore := hOpen.trans hDescribe
  have hMark : wp (markPromoted conversationId call call.runId) _ _ desk₂ :=
    wp_markPromoted (hBefore.orderly.rows hRows) (hBefore.orderly.promotions.trans hNone)
  rw [hBefore.created] at hMark
  rw [wp_bind]
  exact hMark

theorem promote_of_none (hNone : promotions conversationId desk.store = []) :
    promoteConversation conversationId call desk =
      if call.answered = [] then
        (.error (.workflow "conversation has no answered turns to promote"), desk)
      else if call.valid then
        (do
          commitRun call
          completePromotion conversationId call : PromoteM RunRecord) desk
      else (.error .invalidRequest, desk) := by
  have hLast : (promotions conversationId desk.store).getLast? = none := by
    rw [hNone]
    rfl
  show (match (promotions conversationId desk.store).getLast? with
    | some event => (Tx.raise
        (PromoteError.workflow ("conversation already promoted to run " ++ priorRun event)) :
          PromoteM RunRecord)
    | none => _) desk = _
  rw [hLast]
  split
  next => rfl
  next =>
    split
    next => rfl
    next => rfl

/-- A call for a conversation without an event raises and leaves everything as it was, and names the
run that holds the slot if there is one, or it commits a run. -/
theorem promote_cases (hRows : RowsInv desk.store)
    (hNone : promotions conversationId desk.store = []) :
    (∃ e, promoteConversation conversationId call desk = (.error e, desk) ∧
      ∀ runId, Reports runId (.error e) ↔ SlotHeld desk.store call runId) ∨
    (Marked conversationId call.runId (desk.created ++ [call.runId])
        (promoteConversation conversationId call desk).2 ∧
      ∀ runId, ¬ SlotHeld desk.store call runId) := by
  rw [promote_of_none hNone]
  split
  next hNothing =>
    refine .inl
      ⟨_, rfl, fun runId => iff_of_false (fun hReports => ?_) fun hHeld => hHeld.1 hNothing⟩
    have hChar := congrArg (fun message => message.toList[13]?) hReports
    simp only [String.toList_append] at hChar
    rw [List.getElem?_append_left (by decide)] at hChar
    revert hChar
    decide
  next hAnswered =>
    split
    next hValid =>
      rcases commitRun_cases conversationId call desk with
        ⟨e, hRaise, hReports⟩ | ⟨s, hCommit, hOrderly, hFree⟩
      · refine .inl ⟨e, ?_, fun runId => ?_⟩
        · show Tx.bind (commitRun call) _ desk = _
          rw [Tx.bind, hRaise]
        · rw [hReports runId]
          simp [SlotHeld, hAnswered, hValid]
      · refine .inr ⟨?_, fun runId hHeld => hFree runId hHeld.2.2.2⟩
        have hDone : wp (completePromotion conversationId call) _ _
            ⟨s, desk.created ++ [call.runId]⟩ :=
          wp_completePromotion (hOrderly.rows hRows) (hOrderly.promotions.trans hNone)
        show Marked _ _ _ (Tx.bind (commitRun call) _ desk).2
        rw [Tx.bind, hCommit]
        unfold wp at hDone
        dsimp only at hDone ⊢
        revert hDone
        rcases completePromotion conversationId call ⟨s, desk.created ++ [call.runId]⟩ with
          ⟨e | run, desk'⟩
        · exact id
        · exact id
    next hInvalid =>
      refine .inl ⟨_, rfl, fun runId => iff_of_false ?_ fun hHeld => hInvalid hHeld.2.1⟩
      intro hReports
      cases hReports

theorem promote_of_event {event : EventRecord}
    (hEvent : promotions conversationId desk.store = [event]) :
    promoteConversation conversationId call desk =
      (.error (.workflow ("conversation already promoted to run " ++ priorRun event)), desk) := by
  have hLast : (promotions conversationId desk.store).getLast? = some event := by
    rw [hEvent]
    rfl
  show (match (promotions conversationId desk.store).getLast? with
    | some event => (Tx.raise
        (PromoteError.workflow ("conversation already promoted to run " ++ priorRun event)) :
          PromoteM RunRecord)
    | none => _) desk = _
  rw [hLast]
  rfl

end Calls

/-! ## Whole histories -/

/-- There is one run at most, and it is the one that an event of a promotion names. -/
structure PromotionInv (conversationId : String) (desk : Desk) : Prop where
  rows : RowsInv desk.store
  once : desk.created.length ≤ 1
  promotions : promotions conversationId desk.store = [] ∨
    ∃ event, promotions conversationId desk.store = [event] ∧ desk.created = [priorRun event]

section Histories

variable {desk : Desk}

theorem PromotionInv.same {desk' : Desk} (h : PromotionInv conversationId desk)
    (hSame : Same conversationId desk desk') : PromotionInv conversationId desk' where
  rows := hSame.orderly.rows h.rows
  once := hSame.created ▸ h.once
  promotions := by
    rw [hSame.orderly.promotions, hSame.created]
    exact h.promotions

theorem promotionInv_step (h : PromotionInv conversationId desk) (activity : Activity)
    (hOnce : PromotesOnce conversationId desk activity) :
    PromotionInv conversationId (step conversationId desk activity) := by
  cases activity with
  | others ops => exact h.same ⟨orderly_others ops, rfl⟩
  | promote call =>
    rcases h.promotions with hNone | ⟨event, hEvent, _⟩
    · rcases @promote_cases _ call _ h.rows hNone with ⟨e, hRaise, _⟩ | ⟨hMarked, _⟩
      · rw [step, hRaise]
        exact h
      · have hCreated : desk.created = [] := by
          have hLength : (desk.created ++ [call.runId]).length ≤ 1 := hMarked.created ▸ hOnce.1
          rw [length_append, length_singleton] at hLength
          exact eq_nil_of_length_eq_zero (by omega)
        refine ⟨hMarked.rows, hOnce.1, ?_⟩
        rcases hMarked.promotions with hStill | ⟨event, hEvent, hRun⟩
        · exact .inl hStill
        · refine .inr ⟨event, hEvent, hMarked.created.trans ?_⟩
          rw [hCreated, hRun]
          rfl
    · rw [step, promote_of_event hEvent]
      exact h

/-- From one activity to the next, the condition is what the property needs. -/
theorem promotesOnce_iff_admits (h : PromotionInv conversationId desk) (activity : Activity) :
    PromotesOnce conversationId desk activity ↔ Admits conversationId desk activity := by
  cases activity with
  | others ops => exact iff_of_true ⟨h.once, nofun⟩ trivial
  | promote call =>
    rcases h.promotions with hNone | ⟨event, hEvent, hCreated⟩
    · rcases @promote_cases _ call _ h.rows hNone with
        ⟨e, hRaise, hReports⟩ | ⟨hMarked, hFree⟩
      · constructor
        · intro hOnce _ runId hRun
          have hReport := hOnce.2 call rfl runId hRun
          rw [hRaise] at hReport
          exact (hReports runId).mp hReport
        · intro hAdmits
          refine ⟨?_, ?_⟩
          · rw [step, hRaise]
            exact h.once
          · rintro _ ⟨⟩ runId hRun
            rw [hRaise]
            exact (hReports runId).mpr (hAdmits hNone runId hRun)
      · -- a second run is committed, or this is the first
        have hLength : (step conversationId desk (.promote call)).created.length =
            desk.created.length + 1 := by
          rw [step, hMarked.created, length_append, length_singleton]
        constructor
        · intro hOnce _ runId hRun
          have hPositive := length_pos_of_mem hRun
          have hAfter := hOnce.1
          omega
        · intro hAdmits
          have hEmpty : ∀ runId, runId ∉ desk.created := fun runId hRun =>
            hFree runId (hAdmits hNone runId hRun)
          rw [← eq_nil_iff_forall_not_mem] at hEmpty
          refine ⟨?_, ?_⟩
          · rw [hLength, hEmpty]
            rfl
          · rintro _ ⟨⟩ runId hRun
            rw [hEmpty] at hRun
            cases hRun
    · refine iff_of_true ⟨?_, ?_⟩ fun hNone => ?_
      · rw [step, promote_of_event hEvent]
        exact h.once
      · rintro _ ⟨⟩ runId hRun
        rw [hCreated] at hRun
        rw [promote_of_event hEvent, mem_singleton.mp hRun]
        exact rfl
      · rw [hEvent] at hNone
        cases hNone

end Histories

/-- In a history of promotions of a conversation, with anything else that the service does between
and during them, at every point one run at most was created for the conversation and every later
call returned or reported it, exactly if no call was made while there was a run without its event,
unless that run held the active slot the call asked for. -/
theorem promotesOnce_iff (conversationId : String) (activities : List Activity) :
    Along (step conversationId) (PromotesOnce conversationId) ⟨Store.empty, []⟩ activities ↔
      Along (step conversationId) (Admits conversationId) ⟨Store.empty, []⟩ activities :=
  along_congr (fun _ activity h hOnce => promotionInv_step h activity hOnce)
    (fun _ activity h => promotesOnce_iff_admits h activity)
    ⟨RowsInv.empty, Nat.zero_le 1, .inl rfl⟩

def chatTurn : ConversationTurn := ⟨.completed, some "Use a smaller learning rate."⟩

def chatCall (runId : String) (now : Instant) (raises : Stage → Bool) : Call where
  objective := some "Compare two learning rates."
  existingDiscordThreadId := some "thread-1"
  turns := [chatTurn]
  synthesized := ""
  runId := runId
  now := now
  raises := raises

/-- Setting the run up fails in the first call, and the second one finds the run failed. -/
def retriedPromotion : List Activity :=
  [.others [.createRun { freshRun "chat-1" "A conversation." 0 with conversation := true } false
    none 0],
    .promote (chatCall "run-1" 1 fun stage => stage = .materialize),
    .promote (chatCall "run-2" 2 fun _ => false)]

theorem promotedTwice_retriedPromotion :
    (exec (step "chat-1") ⟨Store.empty, []⟩ retriedPromotion).created = ["run-1", "run-2"] ∧
      ¬ Along (step "chat-1") (PromotesOnce "chat-1") ⟨Store.empty, []⟩ retriedPromotion := by
  have hTwice : (exec (step "chat-1") ⟨Store.empty, []⟩ retriedPromotion).created =
      ["run-1", "run-2"] := by decide +kernel
  refine ⟨hTwice, fun hAlong => ?_⟩
  have hOnce : (exec (step "chat-1") ⟨Store.empty, []⟩ retriedPromotion).created.length ≤ 1 :=
    hAlong.2.2.1.1
  rw [hTwice] at hOnce
  simp at hOnce

end Glasslab.Promotion
