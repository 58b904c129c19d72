import Glasslab.Foundation.Machine
import Glasslab.Storage.Spec

/-!
# Retry requests and the retry slot

A parent has one retry slot: the child of its latest retry and the key of the request that
created it. A request under the slot's key, or any request while the slot's child is live, is
answered with that child; a request under another key supersedes a child that has ended. So
a key is recognised for as long as its child holds the slot, and forgotten when another key
takes the slot over.
-/

namespace Glasslab.Storage

open Foundation Foundation.Tx Foundation.Machine

/-- The key under which a call creates a child for the parent, when it does. -/
def createdRetryKey (parentRunId : String) (s : Store) : StoreOp → Option String
  | .createTerminalRetry record parent key digest one cutoff now =>
    match (createTerminalRetry record parent key digest one cutoff now s).1 with
    | .ok (_, true) => if parent = parentRunId then some key else none
    | _ => none
  | _ => none

/-- What the succeeding retry calls on a parent answer: key, child and whether it is new. -/
def retryAnswers (parentRunId : String) : Store → List StoreOp → List (String × String × Bool)
  | _, [] => []
  | s, op :: ops =>
    let rest := retryAnswers parentRunId (stepStore s op) ops
    match op with
    | .createTerminalRetry record parent key digest one cutoff now =>
      match (createTerminalRetry record parent key digest one cutoff now s).1 with
      | .ok (child, created) =>
        if parent = parentRunId then (key, child.runId, created) :: rest else rest
      | .error _ => rest
    | _ => rest

/-- One child per key, created once. -/
def IdempotentByKey (answers : List (String × String × Bool)) : Prop :=
  (∀ a ∈ answers, ∀ b ∈ answers, a.1 = b.1 → a.2.1 = b.2.1) ∧
    ∀ key, (answers.filter fun a => a.1 = key ∧ a.2.2 = true).length ≤ 1

/-- The first child ends, a second key supersedes it, and the first key is delivered again:
once while the second child is live and once after it has ended. -/
def supersededHistory : List StoreOp :=
  [.createRun (freshRun "parent" "objective" 0) true none 0,
    .transitionRun "parent" .failed "orchestrator" [] .none 1,
    .createTerminalRetry (freshRun "a" "objective" 2) "parent" "first" "digest" true none 2,
    .transitionRun "a" .failed "orchestrator" [] .none 3,
    .createTerminalRetry (freshRun "b" "objective" 4) "parent" "second" "digest" true none 4,
    .createTerminalRetry (freshRun "c" "objective" 5) "parent" "first" "digest" true none 5,
    .transitionRun "b" .failed "orchestrator" [] .none 6,
    .createTerminalRetry (freshRun "c" "objective" 7) "parent" "first" "digest" true none 7]

/-- The first key is answered with `a`, then with `b`, and in the end with a new child `c`. -/
theorem retryAnswers_supersededHistory :
    ¬ IdempotentByKey (retryAnswers "parent" Store.empty supersededHistory) := by
  have hAnswers : retryAnswers "parent" Store.empty supersededHistory =
      [("first", "a", true), ("second", "b", true), ("first", "b", false),
        ("first", "c", true)] := by decide
  rw [hAnswers]
  intro h
  have hSame := h.1 ("first", "a", true) (by simp) ("first", "b", false) (by simp) rfl
  simp at hSame

/-! ## The slot between two creations -/

/-- The slot of the parent points at a stored child created under the key. -/
structure HoldsSlot (parentRunId key childRunId : String) (s : Store) : Prop where
  rows : RowsInv s
  slot : ∃ slot, s.retries.find parentRunId = some slot ∧ slot.retryKey = key ∧
    slot.childRunId = childRunId
  stored : (s.runs.find childRunId).isSome

variable {cutoff : Option Instant} {now : Instant}

theorem claim_retries {s s₁ : Store} {investigationId : Option String} {one : Bool}
    (hClaim : Returns (claimActiveSlot investigationId one cutoff now) s () s₁) :
    s₁.retries = s.retries := by
  rcases claimActiveSlot_returns hClaim with ⟨rfl, _⟩ | ⟨_, _, _, _, _, _, rfl⟩
  · rfl
  · rfl

theorem holdsSlot_of_created {s : Store} {record : RunRecord} {parentRunId key digest : String}
    {one : Bool} (h : RowsInv s)
    (hCreated : createdRetryKey parentRunId s
      (.createTerminalRetry record parentRunId key digest one cutoff now) = some key) :
    HoldsSlot parentRunId key record.runId
      (stepStore s (.createTerminalRetry record parentRunId key digest one cutoff now)) := by
  simp only [createdRetryKey] at hCreated
  split at hCreated
  next child hReturn =>
    obtain ⟨s', hReturns⟩ : ∃ s', Returns (createTerminalRetry record parentRunId key digest one
        cutoff now) s (child, true) s' := ⟨_, Prod.ext hReturn rfl⟩
    have hCall : Returns (StoreOp.createTerminalRetry record parentRunId key digest one cutoff
        now).call s () s' :=
      returns_bind.mpr ⟨_, s', hReturns, returns_pure.mpr ⟨rfl, rfl⟩⟩
    have hStep : stepStore s (.createTerminalRetry record parentRunId key digest one cutoff now) =
        s' := congrArg Prod.snd hCall
    rw [hStep]
    rcases createTerminalRetry_returns hReturns with
      ⟨slot, row, _, _, hOld, _⟩ | ⟨_, _, _, s₁, hClaim, hFree, rfl⟩
    · cases hOld
    · refine ⟨((h.claim hClaim).addRun hFree).of_runs_eq Store.addRetry_runs, ?_, ?_⟩
      · rw [Store.addRetry_retries, Store.find_setRetrySlot_self]
        exact ⟨_, rfl, rfl, rfl⟩
      · rw [Store.addRetry_runs, Store.find_addRun_self hFree]
        rfl
  next => cases hCreated

namespace HoldsSlot

variable {s : Store} {parentRunId key childRunId : String}

theorem step (h : HoldsSlot parentRunId key childRunId s) {op : StoreOp}
    (hOp : ∀ key', createdRetryKey parentRunId s op = some key' → key' = key) :
    HoldsSlot parentRunId key childRunId (stepStore s op) := by
  refine stepStore_invariant h fun s' hEffect => ⟨h.rows.effect hEffect, ?_,
    hEffect.find_isSome h.stored⟩
  obtain ⟨slot, hSlot, hKey, hChild⟩ := h.slot
  cases hEffect with
  | createRun hClaim hFree =>
    refine ⟨slot, ?_, hKey, hChild⟩
    rw [← hSlot, ← claim_retries hClaim]
    rfl
  | @openRetry record parent key' digest one cutoff now _ s₁ hSlots _ _ hClaim _ hReturn =>
    by_cases hp : parent = parentRunId
    · -- a creation on this parent goes by the slot's key, which the slot would have replayed
      subst hp
      obtain ⟨child, hFound⟩ := Option.isSome_iff_exists.mp h.stored
      have hJoined : s.retrySlot parent = some (slot, child) := by
        simp [Store.retrySlot, hSlot, hChild, hFound]
      have hCreated : createdRetryKey parent s
          (.createTerminalRetry record parent key' digest one cutoff now) = some key' := by
        rw [Returns] at hReturn
        simp [createdRetryKey, hReturn]
      exact ((hSlots slot child hJoined).2 (hKey.trans (hOp key' hCreated).symm)).elim
    · refine ⟨slot, ?_, hKey, hChild⟩
      rw [Store.addRetry_retries, Store.find_setRetrySlot_ne (Ne.symm hp), claim_retries hClaim]
      exact hSlot
  | _ => exact ⟨slot, hSlot, hKey, hChild⟩

theorem answers (h : HoldsSlot parentRunId key childRunId s) :
    ∃ child, s.runs.find childRunId = some child ∧ child.payload.runId = childRunId ∧
      ∀ record key' digest one cutoff now, key' = key ∨ child.state ∉ terminalStates →
        createTerminalRetry record parentRunId key' digest one cutoff now s =
          (.ok (child.payload, false), s) := by
  obtain ⟨slot, hSlot, hKey, hChild⟩ := h.slot
  obtain ⟨child, hFound⟩ := Option.isSome_iff_exists.mp h.stored
  refine ⟨child, hFound, h.rows.keyed childRunId child hFound, ?_⟩
  intro record key' digest one cutoff now hReplay
  have hJoined : s.retrySlot parentRunId = some (slot, child) := by
    simp [Store.retrySlot, hSlot, hChild, hFound]
  have hGuard : child.state ∉ terminalStates ∨ slot.retryKey = key' :=
    hReplay.symm.imp_right fun hEq => hKey.trans hEq.symm
  have hReturns : Returns (createTerminalRetry record parentRunId key' digest one cutoff now) s
      (child.payload, false) s := by
    simp only [createTerminalRetry, returns_atomically, returns_get_bind, hJoined, returns_ite,
      returns_pure]
    exact .inl ⟨hGuard, trivial, trivial⟩
  exact hReturns

end HoldsSlot

theorem rowsInv_reachable (ops : List StoreOp) : RowsInv (exec stepStore Store.empty ops) :=
  exec_invariant ops (fun _ _ h => stepStore_invariant h fun _ => h.effect) RowsInv.empty

/-- Once a call has created a child under a key, and until a call under another key creates
one for the same parent, every call under that key returns this child and changes nothing, as
does a call under any key while the child is live; a call that creates a child after it has
another key, and finds this one ended. -/
theorem retry_idempotent_while_slotted (parentRunId key : String) (pre mid : List StoreOp)
    (record : RunRecord) (digest : String) (one : Bool) (cutoff : Option Instant) (now : Instant)
    (hCreated : createdRetryKey parentRunId (exec stepStore Store.empty pre)
      (.createTerminalRetry record parentRunId key digest one cutoff now) = some key)
    (hMid : Along stepStore
      (fun s op => ∀ key', createdRetryKey parentRunId s op = some key' → key' = key)
      (exec stepStore Store.empty
        (pre ++ [.createTerminalRetry record parentRunId key digest one cutoff now])) mid) :
    let s := exec stepStore Store.empty
      (pre ++ [.createTerminalRetry record parentRunId key digest one cutoff now] ++ mid)
    ∃ child, s.runs.find record.runId = some child ∧ child.payload.runId = record.runId ∧
      (∀ record' key' digest' one' cutoff' now', key' = key ∨ child.state ∉ terminalStates →
        createTerminalRetry record' parentRunId key' digest' one' cutoff' now' s =
          (.ok (child.payload, false), s)) ∧
      ∀ op key', createdRetryKey parentRunId s op = some key' →
        key' ≠ key ∧ child.state ∈ terminalStates := by
  intro s
  have hStart : HoldsSlot parentRunId key record.runId (exec stepStore Store.empty
      (pre ++ [.createTerminalRetry record parentRunId key digest one cutoff now])) := by
    rw [exec_append]
    exact holdsSlot_of_created (rowsInv_reachable pre) hCreated
  have hHolds : HoldsSlot parentRunId key record.runId s := by
    show HoldsSlot parentRunId key record.runId (exec stepStore Store.empty _)
    rw [exec_append]
    exact hMid.invariant (fun _ _ hOp h => h.step hOp) hStart
  obtain ⟨child, hFound, hId, hAnswers⟩ := hHolds.answers
  refine ⟨child, hFound, hId, hAnswers, fun op key' hNew => ?_⟩
  cases op with
  | createTerminalRetry record' parent key'' digest' one' cutoff' now' =>
    have hReplay : ¬ (key'' = key ∨ child.state ∉ terminalStates) ∧ key'' = key' := by
      simp only [createdRetryKey] at hNew
      split at hNew
      next hReturn =>
        split at hNew
        next hp =>
          subst hp
          refine ⟨fun hReplay => ?_, Option.some.inj hNew⟩
          rw [hAnswers record' key'' digest' one' cutoff' now' hReplay] at hReturn
          simp at hReturn
        next => cases hNew
      next => cases hNew
    obtain ⟨hNot, rfl⟩ := hReplay
    push Not at hNot
    exact hNot
  | _ => cases hNew

def failedParent : List StoreOp :=
  [.createRun (freshRun "parent" "objective" 0) true none 0,
    .transitionRun "parent" .failed "orchestrator" [] .none 1]

/-- The child that has ended under its key is still the answer to that key. -/
theorem retry_idempotent_while_slotted_failedParent :
    createdRetryKey "parent" (exec stepStore Store.empty failedParent)
        (.createTerminalRetry (freshRun "a" "objective" 2) "parent" "first" "digest" true none 2) =
          some "first" ∧
      ∃ child s, s = exec stepStore Store.empty (failedParent ++ [.createTerminalRetry
          (freshRun "a" "objective" 2) "parent" "first" "digest" true none 2] ++
          [.transitionRun "a" .failed "orchestrator" [] .none 3]) ∧ child.runId = "a" ∧
        createTerminalRetry (freshRun "b" "objective" 4) "parent" "first" "digest" true none 4 s =
          (.ok (child, false), s) := by
  have hCreated : createdRetryKey "parent" (exec stepStore Store.empty failedParent)
      (.createTerminalRetry (freshRun "a" "objective" 2) "parent" "first" "digest" true none 2) =
        some "first" := by decide
  refine ⟨hCreated, ?_⟩
  obtain ⟨child, _, hId, hAnswers, _⟩ := retry_idempotent_while_slotted "parent" "first"
    failedParent [.transitionRun "a" .failed "orchestrator" [] .none 3]
    (freshRun "a" "objective" 2) "digest" true none 2 hCreated
      ⟨(by simp [createdRetryKey]), trivial⟩
  exact ⟨child.payload, _, rfl, hId, hAnswers _ _ _ _ _ _ (.inl rfl)⟩

end Glasslab.Storage
