import Glasslab.Foundation.Document
import Glasslab.Foundation.FirstWrite
import Glasslab.Foundation.Machine
import Glasslab.Schemas

/-!
# Requested actions

`_record_requested_actions` stores the actions that a turn of an agent requests. A turn may be
processed again, so a row is only added for a key that is new: the hash of the run, the agent, the
type and the arguments of the action and of an ordinal, which is a hundred times the number of the
turn plus the position of the action.

The ordinals of two turns overlap when one of them requests more than a hundred actions. There is
one row for every request exactly if no two requests of a run have the same ordinal, agent, type and
arguments (`recorded_iff`); turns with a hundred actions at most are safe (`apart_of_length_le`).
-/

namespace Glasslab.Actions

open Foundation Foundation.Machine List

variable {A κ : Type}

structure RequestedAction (A : Type) where
  type : String
  arguments : Document.Entries A
  reason : String

/-- A completed turn of a run, as far as the actions depend on it. -/
structure Turn (A : Type) where
  runId : String
  number : Nat
  agent : AgentName
  requestedActions : List (RequestedAction A)

structure Request (A : Type) where
  turn : Turn A
  position : Nat
  action : RequestedAction A

/-- `enumerate(result.requested_actions)`. -/
def Turn.requests (turn : Turn A) : List (Request A) :=
  turn.requestedActions.zipIdx.map fun p => ⟨turn, p.2, p.1⟩

def Request.ordinal (request : Request A) : Nat := request.turn.number * 100 + request.position

/-- What the idempotency key is a hash of. The spelling of the arguments has its keys in order. -/
structure ActionIdentity (A : Type) where
  runId : String
  proposedBy : AgentName
  type : String
  arguments : Document A
  ordinal : Nat
  deriving DecidableEq

/-- The arguments of an action, whatever the order of their keys. -/
def RequestedAction.canonicalArguments (action : RequestedAction A) : Document A :=
  (Document.map action.arguments).canonical id

def Request.identity (request : Request A) : ActionIdentity A where
  runId := request.turn.runId
  proposedBy := request.turn.agent
  type := request.action.type
  arguments := request.action.canonicalArguments
  ordinal := request.ordinal

structure ActionRow (A κ : Type) where
  actionId : String
  runId : String
  proposedBy : AgentName
  type : String
  arguments : Document.Entries A
  policyClassification : PolicyClassification
  approvalStatus : ApprovalStatus
  reason : String
  idempotencyKey : κ

/-- The policy, the hash of the keys, and the ids that are drawn. -/
structure PolicyEngine (A κ : Type) where
  evaluate : AgentName → RequestedAction A → PolicyClassification × Option String
  sha256 : ActionIdentity A ↪ κ
  uuid4 : ℕ ↪ String

def PolicyEngine.buildRecord (policy : PolicyEngine A κ) (request : Request A)
    (actionId : String) : ActionRow A κ :=
  let (classification, policyReason) := policy.evaluate request.turn.agent request.action
  { actionId
    runId := request.turn.runId
    proposedBy := request.turn.agent
    type := request.action.type
    arguments := request.action.arguments
    policyClassification := classification
    approvalStatus :=
      match classification with
      | .automatic => .automaticallyApproved
      | .deny => .denied
      | _ => .pending
    reason :=
      match policyReason with
      | some text =>
        if text = "" then request.action.reason
        else request.action.reason ++ " Policy denial: " ++ text
      | none => request.action.reason
    idempotencyKey := policy.sha256 request.identity }

structure ActionStore (A κ : Type) where
  rows : List (ActionRow A κ) := []
  /-- The ids in the `action.proposed` events. -/
  proposed : List String := []
  /-- How many ids were drawn. -/
  drawn : Nat := 0

section Recording

variable [DecidableEq κ]

/-- `save_action_with_event`: a key that is there keeps its row. -/
def saveActionWithEvent (s : ActionStore A κ) (record : ActionRow A κ) :
    ActionStore A κ × ActionRow A κ × Bool :=
  match s.rows.find? fun row => row.idempotencyKey = record.idempotencyKey with
  | some existing => (s, existing, false)
  | none =>
    ({ s with rows := s.rows ++ [record], proposed := s.proposed ++ [record.actionId] }, record,
      true)

def repairActionProposedEvent (s : ActionStore A κ) (action : ActionRow A κ) : ActionStore A κ :=
  if action.actionId ∈ s.proposed then s
  else { s with proposed := s.proposed ++ [action.actionId] }

/-- The body of the loop of `_record_requested_actions`. -/
def recordRequest (policy : PolicyEngine A κ) (s : ActionStore A κ) (request : Request A) :
    ActionStore A κ × ActionRow A κ :=
  let record := policy.buildRecord request (policy.uuid4 s.drawn)
  let (s, stored, created) := saveActionWithEvent { s with drawn := s.drawn + 1 } record
  if created then (s, stored) else (repairActionProposedEvent s stored, stored)

def recordRequestedActions (policy : PolicyEngine A κ) (s : ActionStore A κ) (turn : Turn A) :
    ActionStore A κ × List (ActionRow A κ) :=
  turn.requests.foldl
    (fun (s, records) request =>
      let (s, record) := recordRequest policy s request
      (s, records ++ [record]))
    (s, [])

def process (policy : PolicyEngine A κ) (turns : List (Turn A)) : ActionStore A κ :=
  exec (fun s turn => (recordRequestedActions policy s turn).1) {} turns

end Recording

def ActionStore.listActions (s : ActionStore A κ) (runId : String) : List (ActionRow A κ) :=
  s.rows.filter fun row => row.runId = runId

/-- The rows are in one-to-one correspondence with the requests, and have their types and
arguments. -/
def Recorded (rows : List (ActionRow A κ)) (requests : List (Request A)) : Prop :=
  (rows.map ActionRow.actionId).Nodup ∧ ∃ rowOf : Request A → ActionRow A κ,
    rows.Perm (requests.map rowOf) ∧ ∀ request ∈ requests,
      (rowOf request).type = request.action.type ∧
        (rowOf request).arguments = request.action.arguments

/-- No two requests have the same ordinal, agent, type and arguments. -/
def Apart (turns : List (Turn A)) : Prop :=
  ∀ turn ∈ turns, ∀ turn' ∈ turns, ∀ (i j : Nat) (action action' : RequestedAction A),
    turn.requestedActions[i]? = some action → turn'.requestedActions[j]? = some action' →
    turn.number * 100 + i = turn'.number * 100 + j → turn.agent = turn'.agent →
    action.type = action'.type → action.canonicalArguments = action'.canonicalArguments →
    turn.number = turn'.number ∧ i = j

variable {turns : List (Turn A)}

/-- Up to a hundred actions of a turn keep clear of the next turn. -/
theorem apart_of_length_le
    (h : ∀ turn ∈ turns, turn.requestedActions.length ≤ 100) : Apart turns := by
  intro turn hTurn turn' hTurn' i j action action' hAction hAction' hOrdinal _ _ _
  have hLength := h turn hTurn
  have hLength' := h turn' hTurn'
  obtain ⟨hi, _⟩ := List.getElem?_eq_some_iff.mp hAction
  obtain ⟨hj, _⟩ := List.getElem?_eq_some_iff.mp hAction'
  omega

/-! ## What is stored -/

section Stored

variable [DecidableEq κ] {policy : PolicyEngine A κ}

def attempts (policy : PolicyEngine A κ) (requests : List (Request A)) : List (ActionRow A κ) :=
  requests.zipIdx.map fun p => policy.buildRecord p.1 (policy.uuid4 p.2)

omit [DecidableEq κ] in
theorem attempts_concat (requests : List (Request A)) (request : Request A) :
    attempts policy (requests ++ [request]) =
      attempts policy requests ++ [policy.buildRecord request (policy.uuid4 requests.length)] := by
  simp [attempts, zipIdx_append]

/-- The rows of a store are the first writes of what was built, and every row was announced. -/
structure Logged (policy : PolicyEngine A κ) (requests : List (Request A)) (s : ActionStore A κ) :
    Prop where
  rows : s.rows = firstWrites ActionRow.idempotencyKey (attempts policy requests)
  proposed : s.proposed = s.rows.map ActionRow.actionId
  drawn : s.drawn = requests.length

variable {requests : List (Request A)}

theorem Logged.recordRequest {s : ActionStore A κ}
    (h : Logged policy requests s) (request : Request A) :
    Logged policy (requests ++ [request]) (recordRequest policy s request).1 := by
  unfold Actions.recordRequest saveActionWithEvent
  dsimp only
  cases hFind : s.rows.find? fun row => row.idempotencyKey =
      (policy.buildRecord request (policy.uuid4 s.drawn)).idempotencyKey with
  | some stored =>
    have hStored : stored ∈ s.rows := mem_of_find?_eq_some hFind
    have hSame : stored.idempotencyKey =
        (policy.buildRecord request (policy.uuid4 s.drawn)).idempotencyKey := by
      simpa using List.find?_some hFind
    have hAnnounced : stored.actionId ∈ s.proposed := by
      rw [h.proposed]
      exact mem_map_of_mem hStored
    simp only [repairActionProposedEvent, Bool.false_eq_true, if_false]
    rw [if_pos hAnnounced]
    refine ⟨?_, h.proposed, by simp [h.drawn]⟩
    have hTaken : (policy.buildRecord request (policy.uuid4 s.drawn)).idempotencyKey ∈
        s.rows.map ActionRow.idempotencyKey := hSame ▸ mem_map_of_mem hStored
    rw [h.rows, h.drawn] at hTaken
    rw [attempts_concat, firstWrites_concat, if_pos hTaken]
    exact h.rows
  | none =>
    have hNew : (policy.buildRecord request (policy.uuid4 s.drawn)).idempotencyKey ∉
        s.rows.map ActionRow.idempotencyKey := by
      intro hTaken
      obtain ⟨row, hRow, hSame⟩ := mem_map.mp hTaken
      have hNot := List.find?_eq_none.mp hFind row hRow
      exact hNot (decide_eq_true hSame)
    simp only [if_true]
    refine ⟨?_, ?_, by simp [h.drawn]⟩
    · rw [h.rows, h.drawn] at hNew
      rw [attempts_concat, firstWrites_concat, if_neg hNew, ← h.rows, h.drawn]
    · simp [h.proposed]

theorem recordRequestedActions_eq (s : ActionStore A κ) (turn : Turn A) :
    (recordRequestedActions policy s turn).1 =
      exec (fun s request => (recordRequest policy s request).1) s turn.requests := by
  have hLoop :
    ∀ (requests : List (Request A)) (s : ActionStore A κ) (records : List (ActionRow A κ)),
      (requests.foldl
        (fun (s, records) request =>
          let (s, record) := recordRequest policy s request
          (s, records ++ [record])) (s, records)).1 =
        exec (fun s request => (recordRequest policy s request).1) s requests := by
    intro requests
    induction requests with
    | nil => intro s records; rfl
    | cons request requests ih => intro s records; exact ih _ _
  exact hLoop turn.requests s []

theorem process_eq (turns : List (Turn A)) :
    process policy turns =
      exec (fun s request => (recordRequest policy s request).1) {}
    (turns.flatMap Turn.requests) := by
  unfold process
  generalize ({} : ActionStore A κ) = s
  induction turns generalizing s with
  | nil => rfl
  | cons turn turns ih =>
    rw [exec_cons, ih, flatMap_cons, exec_append, recordRequestedActions_eq]

theorem logged_process (turns : List (Turn A)) :
    Logged policy (turns.flatMap Turn.requests) (process policy turns) := by
  rw [process_eq]
  induction turns.flatMap Turn.requests using List.reverseRecOn with
  | nil => exact ⟨rfl, rfl, rfl⟩
  | append_singleton requests request ih =>
    rw [exec_append]
    exact ih.recordRequest request

omit [DecidableEq κ] in
theorem mem_attempts {row : ActionRow A κ}
    (h : row ∈ attempts policy requests) :
    ∃ request ∈ requests, ∃ actionId, row = policy.buildRecord request actionId := by
  obtain ⟨⟨request, n⟩, hMem, rfl⟩ := mem_map.mp h
  exact ⟨request, fst_mem_of_mem_zipIdx hMem, _, rfl⟩

omit [DecidableEq κ] in
theorem nodup_actionId_attempts (requests : List (Request A)) :
    ((attempts policy requests).map ActionRow.actionId).Nodup := by
  have hIds : (attempts policy requests).map ActionRow.actionId =
      (List.range' 0 requests.length).map policy.uuid4 := by
    rw [attempts, map_map, ← zipIdx_map_snd 0 requests, map_map]
    rfl
  rw [hIds]
  exact Nodup.map policy.uuid4.injective nodup_range'

end Stored

theorem mem_requests {turn : Turn A} {request : Request A} :
    request ∈ turn.requests ↔
      request.turn = turn ∧ turn.requestedActions[request.position]? = some request.action := by
  unfold Turn.requests
  constructor
  · intro h
    obtain ⟨⟨action, i⟩, hMem, rfl⟩ := mem_map.mp h
    exact ⟨rfl, mem_zipIdx_iff_getElem?.mp hMem⟩
  · rintro ⟨rfl, hAction⟩
    exact mem_map.mpr ⟨(request.action, request.position),
      mem_zipIdx_iff_getElem?.mpr hAction, rfl⟩

section

variable (hNumbers : turns.Pairwise fun turn turn' => turn.number < turn'.number)
include hNumbers

/-- Turns with different numbers request their actions under different pairs. -/
theorem nodup_pairs :
    ((turns.flatMap Turn.requests).map fun request =>
      (request.turn.number, request.position)).Nodup := by
  induction turns with
  | nil => exact nodup_nil
  | cons turn turns ih =>
    obtain ⟨hLater, hRest⟩ := pairwise_cons.mp hNumbers
    rw [flatMap_cons, map_append, nodup_append]
    refine ⟨?_, ih hRest, ?_⟩
    · have hPositions : (turn.requests.map fun request =>
          (request.turn.number, request.position)) =
          (List.range' 0 turn.requestedActions.length).map fun i => (turn.number, i) := by
        rw [Turn.requests, map_map, ← zipIdx_map_snd 0 turn.requestedActions, map_map]
        rfl
      rw [hPositions]
      exact Nodup.map (fun i j h => (Prod.mk.inj h).2) nodup_range'
    · intro pair hPair pair' hPair' hSame
      obtain ⟨request, hRequest, rfl⟩ := mem_map.mp hPair
      obtain ⟨request', hRequest', rfl⟩ := mem_map.mp hPair'
      obtain ⟨turn', hTurn', hRequest'⟩ := mem_flatMap.mp hRequest'
      have hTurn := (mem_requests.mp hRequest).1
      have hOther := (mem_requests.mp hRequest').1
      have hNumber := (Prod.mk.inj hSame).1
      have hLess := hLater turn' hTurn'
      rw [hTurn, hOther] at hNumber
      omega

/-- Requests of one run have one identity when their ordinals, agents, types and arguments agree. -/
theorem nodup_identity_iff {runId : String}
    (hRun : ∀ turn ∈ turns, turn.runId = runId) :
    ((turns.flatMap Turn.requests).map Request.identity).Nodup ↔ Apart turns := by
  have hPairs := nodup_pairs hNumbers
  rw [nodup_map_iff_inj_on (hPairs.of_map _)]
  constructor
  · intro hInj turn hTurn turn' hTurn' i j action action' hAction hAction' hOrdinal hAgent hType
      hArguments
    have hSame := hInj ⟨turn, i, action⟩
      (mem_flatMap.mpr ⟨turn, hTurn, mem_requests.mpr ⟨rfl, hAction⟩⟩) ⟨turn', j, action'⟩
      (mem_flatMap.mpr ⟨turn', hTurn', mem_requests.mpr ⟨rfl, hAction'⟩⟩)
      (ActionIdentity.mk.injEq .. |>.mpr
        ⟨(hRun turn hTurn).trans (hRun turn' hTurn').symm, hAgent, hType, hArguments, hOrdinal⟩)
    cases hSame
    exact ⟨rfl, rfl⟩
  · intro hApart request hRequest request' hRequest' hSame
    obtain ⟨turn, hTurn, hIn⟩ := mem_flatMap.mp hRequest
    obtain ⟨turn', hTurn', hIn'⟩ := mem_flatMap.mp hRequest'
    obtain ⟨rfl, hAction⟩ := mem_requests.mp hIn
    obtain ⟨rfl, hAction'⟩ := mem_requests.mp hIn'
    obtain ⟨_, hAgent, hType, hArguments, hOrdinal⟩ := ActionIdentity.mk.injEq .. |>.mp hSame
    have hPair := hApart request.turn hTurn request'.turn hTurn' request.position
      request'.position request.action request'.action hAction hAction' hOrdinal hAgent hType
      hArguments
    exact inj_on_of_nodup_map hPairs hRequest hRequest' (Prod.ext hPair.1 hPair.2)

end

/-! ## Runs -/

section Runs

variable [DecidableEq κ] {policy : PolicyEngine A κ} {processed : List (Turn A)} {runId : String}
theorem listActions_process (policy : PolicyEngine A κ) (processed : List (Turn A))
    (runId : String) :
    (process policy processed).listActions runId =
      firstWrites ActionRow.idempotencyKey
        ((attempts policy (processed.flatMap Turn.requests)).filter
    fun row => row.runId = runId) := by
  rw [ActionStore.listActions, (logged_process processed).rows]
  refine filter_firstWrites fun row hRow row' hRow' hKey => ?_
  -- the key is a hash of the run, among others
  obtain ⟨request, _, _, rfl⟩ := mem_attempts hRow
  obtain ⟨request', _, _, rfl⟩ := mem_attempts hRow'
  have hIdentity := policy.sha256.injective hKey
  have hRun : request.turn.runId = request'.turn.runId :=
    (ActionIdentity.mk.injEq .. |>.mp hIdentity).1
  show decide (request.turn.runId = runId) = decide (request'.turn.runId = runId)
  rw [hRun]

omit [DecidableEq κ] in
theorem mem_attempts_of_run
    (hProcessed : ∀ turn, turn ∈ turns ↔ turn ∈ processed ∧ turn.runId = runId)
    {row : ActionRow A κ}
    (h : row ∈ (attempts policy (processed.flatMap Turn.requests)).filter fun row =>
      row.runId = runId) :
    ∃ request ∈ turns.flatMap Turn.requests, ∃ actionId,
      row = policy.buildRecord request actionId := by
  obtain ⟨hRow, hRun⟩ := mem_filter.mp h
  obtain ⟨request, hRequest, actionId, rfl⟩ := mem_attempts hRow
  obtain ⟨turn, hTurn, hIn⟩ := mem_flatMap.mp hRequest
  have hTurnRun : turn.runId = runId :=
    (congrArg Turn.runId (mem_requests.mp hIn).1).symm.trans (of_decide_eq_true hRun)
  exact ⟨request, mem_flatMap.mpr ⟨turn, (hProcessed turn).mpr ⟨hTurn, hTurnRun⟩, hIn⟩,
    actionId, rfl⟩

omit [DecidableEq κ] in
theorem mem_keys_iff (hProcessed : ∀ turn, turn ∈ turns ↔ turn ∈ processed ∧ turn.runId = runId)
    (key : κ) :
    key ∈ (turns.flatMap Turn.requests).map (fun request => policy.sha256 request.identity) ↔
      key ∈ ((attempts policy (processed.flatMap Turn.requests)).filter fun row =>
        row.runId = runId).map ActionRow.idempotencyKey := by
  constructor
  · intro hKey
    obtain ⟨request, hRequest, rfl⟩ := mem_map.mp hKey
    obtain ⟨turn, hTurn, hIn⟩ := mem_flatMap.mp hRequest
    obtain ⟨hMem, hRun⟩ := (hProcessed turn).mp hTurn
    have hAll : request ∈ processed.flatMap Turn.requests := mem_flatMap.mpr ⟨turn, hMem, hIn⟩
    obtain ⟨n, hn⟩ := mem_iff_getElem?.mp hAll
    refine mem_map.mpr
      ⟨policy.buildRecord request (policy.uuid4 n), mem_filter.mpr ⟨?_, ?_⟩, rfl⟩
    · exact mem_map.mpr ⟨(request, n), mem_zipIdx_iff_getElem?.mpr hn, rfl⟩
    · exact decide_eq_true ((congrArg Turn.runId (mem_requests.mp hIn).1).trans hRun)
  · intro hKey
    obtain ⟨row, hRow, rfl⟩ := mem_map.mp hKey
    obtain ⟨request, hRequest, _, rfl⟩ := mem_attempts_of_run hProcessed hRow
    exact mem_map.mpr ⟨request, hRequest, rfl⟩

omit [DecidableEq κ] in
/-- The keys of the requests are distinct exactly if their ordinals, agents, types or arguments
are. -/
theorem nodup_keys_iff (policy : PolicyEngine A κ)
    (hNumbers : turns.Pairwise fun turn turn' => turn.number < turn'.number)
    (hRun : ∀ turn ∈ turns, turn.runId = runId) :
    ((turns.flatMap Turn.requests).map fun request => policy.sha256 request.identity).Nodup ↔
      Apart turns := by
  have hMap : (turns.flatMap Turn.requests).map (fun request => policy.sha256 request.identity) =
      ((turns.flatMap Turn.requests).map Request.identity).map policy.sha256 := by
    rw [map_map]
    rfl
  rw [hMap, nodup_map_iff policy.sha256.injective]
  exact nodup_identity_iff hNumbers hRun

section

variable (hNumbers : turns.Pairwise fun turn turn' => turn.number < turn'.number)
include hNumbers

theorem apart_of_recorded
    (hProcessed : ∀ turn, turn ∈ turns ↔ turn ∈ processed ∧ turn.runId = runId)
    (hRecorded : Recorded ((process policy processed).listActions runId)
      (turns.flatMap Turn.requests)) : Apart turns := by
  have hRun : ∀ turn ∈ turns, turn.runId = runId := fun turn hTurn => ((hProcessed turn).mp hTurn).2
  rw [listActions_process] at hRecorded
  obtain ⟨_, rowOf, hPerm, _⟩ := hRecorded
  refine (nodup_keys_iff policy hNumbers hRun).mp
    ((length_firstWrites_eq_iff (mem_keys_iff hProcessed)).mp ?_)
  simpa using hPerm.length_eq

theorem recorded_of_apart
    (hProcessed : ∀ turn, turn ∈ turns ↔ turn ∈ processed ∧ turn.runId = runId)
    (hApart : Apart turns) :
    Recorded ((process policy processed).listActions runId) (turns.flatMap Turn.requests) := by
  have hRun : ∀ turn ∈ turns, turn.runId = runId := fun turn hTurn => ((hProcessed turn).mp hTurn).2
  have hDistinct := (nodup_keys_iff policy hNumbers hRun).mpr hApart
  have hIds := @nodup_actionId_attempts _ _ policy (processed.flatMap Turn.requests)
  have hRows := (firstWrites_sublist ActionRow.idempotencyKey
    ((attempts policy (processed.flatMap Turn.requests)).filter fun row =>
      row.runId = runId)).trans filter_sublist
  rw [listActions_process]
  refine ⟨hIds.sublist (hRows.map _), ?_⟩
  have : Nonempty (ActionRow A κ) :=
    ⟨policy.buildRecord ⟨⟨"", 0, .honeydew, []⟩, 0, ⟨"", [], ""⟩⟩ ""⟩
  obtain ⟨rowOf, hPerm, hRowOf⟩ := exists_perm_firstWrites (mem_keys_iff hProcessed) hDistinct
  refine ⟨rowOf, hPerm, fun request hRequest => ?_⟩
  obtain ⟨hBuilt, hKey⟩ := hRowOf request hRequest
  obtain ⟨origin, hOrigin, actionId, hRow⟩ := mem_attempts_of_run hProcessed hBuilt
  -- the row was built for this very request, since no other one has its key
  have hSame : origin = request := by
    refine inj_on_of_nodup_map hDistinct hOrigin hRequest ?_
    rw [← hKey, hRow]
    rfl
  rw [hRow, hSame]
  exact ⟨rfl, rfl⟩

end

/-- After the turns of a run were processed, each of them any number of times and in any order, and
with turns of other runs between them, the rows of the run are in one-to-one correspondence with the
pairs of a turn and a position, with the types and arguments requested there, exactly if no two
requests have the same ordinal, agent, type and arguments. -/
theorem recorded_iff (policy : PolicyEngine A κ)
    (hNumbers : turns.Pairwise fun turn turn' => turn.number < turn'.number)
    (hProcessed : ∀ turn, turn ∈ turns ↔ turn ∈ processed ∧ turn.runId = runId) :
    Recorded ((process policy processed).listActions runId) (turns.flatMap Turn.requests) ↔
      Apart turns :=
  ⟨apart_of_recorded hNumbers hProcessed, recorded_of_apart hNumbers hProcessed⟩

end Runs

/-- A policy that asks a human about everything, with keys that are their own hashes. -/
def humanPolicy : PolicyEngine Unit (ActionIdentity Unit) where
  evaluate _ _ := (.humanApproval, none)
  sha256 := .refl _
  uuid4 := ⟨fun n => String.ofList (List.replicate n 'i'), fun m n h => by
    simpa using congrArg String.length h⟩

def sameAction : RequestedAction Unit := ⟨"execute_local_test", [], "Again."⟩

def turnOf (runId : String) (number count : Nat) : Turn Unit :=
  ⟨runId, number, .beaker, List.replicate count sameAction⟩

/-- Turns that ask for the same action time and again, one of them processed twice, with a turn of
another run between them. -/
theorem recorded_replayed :
    Recorded
      ((process humanPolicy
        [turnOf "r" 1 2, turnOf "q" 1 3, turnOf "r" 1 2, turnOf "r" 2 1]).listActions "r")
      ([turnOf "r" 1 2, turnOf "r" 2 1].flatMap Turn.requests) := by
  refine (recorded_iff humanPolicy (by simp [turnOf]) fun turn => ?_).mpr
    (apart_of_length_le (by simp [turnOf]))
  constructor
  · intro hTurn
    rcases mem_pair.mp hTurn with rfl | rfl <;> simp [turnOf]
  · rintro ⟨hTurn, hRun⟩
    simp only [mem_cons, not_mem_nil, or_false] at hTurn ⊢
    rcases hTurn with rfl | rfl | rfl | rfl <;> simp_all [turnOf]

/-- The action at position 100 of the first turn has the key of the first one of the next turn. -/
def overlappingTurns : List (Turn Unit) := [turnOf "r" 1 101, turnOf "r" 2 1]

theorem not_recorded_overlappingTurns :
    overlappingTurns.Pairwise (fun turn turn' => turn.number < turn'.number) ∧
      ¬ Recorded ((process humanPolicy overlappingTurns).listActions "r")
        (overlappingTurns.flatMap Turn.requests) := by
  have hNumbers : overlappingTurns.Pairwise fun turn turn' => turn.number < turn'.number := by
    simp [overlappingTurns, turnOf]
  refine ⟨hNumbers, fun hRecorded => ?_⟩
  have hProcessed :
      ∀ turn, turn ∈ overlappingTurns ↔ turn ∈ overlappingTurns ∧ turn.runId = "r" := by
    intro turn
    refine ⟨fun hTurn => ⟨hTurn, ?_⟩, And.left⟩
    rcases mem_pair.mp hTurn with rfl | rfl <;> rfl
  obtain ⟨hNumber, _⟩ := apart_of_recorded hNumbers hProcessed hRecorded (turnOf "r" 1 101)
    (by simp [overlappingTurns]) (turnOf "r" 2 1) (by simp [overlappingTurns]) 100 0 sameAction
    sameAction (by simp [turnOf]) (by simp [turnOf]) rfl rfl rfl rfl
  simp [turnOf] at hNumber

end Glasslab.Actions
