import Glasslab.Storage.EventLog
import Glasslab.Storage.TerminalRetry

/-!
# Versions as locks

`replace_run` compares the version that its caller has read with the one of the row. Every call that
writes a row raises the version, so a row with the version that was read is still the row that was
read, and no write in between is lost. The log only grows.
-/

namespace Glasslab.Storage

open Foundation Foundation.Tx Foundation.Machine List

variable {s s' : Store} {written : Option String} {op : StoreOp}

/-- Every row is still there, as it was or with a higher version. -/
def Versioned (s s' : Store) : Prop :=
  ∀ runId row, s.runs.find runId = some row → ∃ row', s'.runs.find runId = some row' ∧
    row.version ≤ row'.version ∧ (row'.version = row.version → row' = row)

theorem VersionsStep.versioned (h : VersionsStep s written s') : Versioned s s' := by
  intro runId row hRow
  obtain ⟨row', hRow', hWritten, hKept⟩ := h runId row hRow
  refine ⟨row', hRow', ?_⟩
  by_cases hName : written = some runId
  · have hNext := hWritten hName
    exact ⟨by omega, fun hEq => by omega⟩
  · rw [hKept hName]
    exact ⟨le_rfl, fun _ => rfl⟩

theorem RowsInv.step (h : RowsInv s) (op : StoreOp) :
    RowsInv (stepStore s op) ∧ Versioned s (stepStore s op) := by
  rcases stepStore_cases s op with hSame | hEffect
  · rw [hSame]
    exact ⟨h, (VersionsStep.refl s).versioned⟩
  · exact ⟨h.effect hEffect, (VersionsStep.of_effect h hEffect).versioned⟩

theorem RowsInv.versioned_exec (h : RowsInv s) (ops : List StoreOp) :
    Versioned s (exec stepStore s ops) := by
  induction ops generalizing s with
  | nil => exact (VersionsStep.refl s).versioned
  | cons op ops ih =>
    obtain ⟨hNext, hStep⟩ := h.step op
    intro runId row hRow
    obtain ⟨row₁, hRow₁, hLe, hSame⟩ := hStep runId row hRow
    obtain ⟨row', hRow', hLe', hSame'⟩ := ih hNext runId row₁ hRow₁
    refine ⟨row', hRow', hLe.trans hLe', fun hEq => ?_⟩
    have hFirst := hSame (by omega)
    rw [hSame' (by omega), hFirst]

/-- After any calls in between, a replacement under the version that was read is made exactly if the
run is as it was read. -/
theorem replaceRun_returns_iff_unchanged (pre mid : List StoreOp) {record run : RunRecord}
    {now : Instant}
    (hRead : getRun (exec stepStore Store.empty pre) record.runId = .ok run) :
    (∃ r s', Returns (replaceRun record run.version now)
        (exec stepStore Store.empty (pre ++ mid)) r s') ↔
      getRun (exec stepStore Store.empty (pre ++ mid)) record.runId = .ok run := by
  have hInv := rowsInv_reachable pre
  have hInv' := rowsInv_reachable (pre ++ mid)
  rw [exec_append] at hInv' ⊢
  unfold getRun at hRead ⊢
  split at hRead
  · cases hRead
  next row hRow =>
    obtain rfl := Except.ok.inj hRead
    obtain ⟨row', hRow', -, hSame⟩ := hInv.versioned_exec mid _ row hRow
    have hVersion := (hInv.mirrored _ _ hRow).2
    have hVersion' := (hInv'.mirrored _ _ hRow').2
    rw [hRow']
    constructor
    · rintro ⟨r, s', h⟩
      obtain ⟨found, hFound, hEq, -⟩ := replaceRun_returns h
      obtain rfl := Option.some.inj (hRow'.symm.trans hFound)
      rw [hSame (hEq.trans hVersion.symm)]
    · intro hEq
      have hExpected : row'.version = row.payload.version := by
        rw [hVersion', Except.ok.inj hEq]
      simp only [replaceRun, returns_atomically, returns_bind, writeRun_returns, returns_pure]
      exact ⟨_, _, (), _, ⟨⟨row', hRow', hExpected⟩, rfl⟩, rfl, rfl⟩

/-- An event in between does not stand in the way. -/
theorem replaceRun_returns_note :
    ∃ r s', Returns (replaceRun (freshRun "r" "objective" 0) 1 2) (exec stepStore Store.empty
      ([.createRun (freshRun "r" "objective" 0) true none 0] ++
    [.appendEvent "r" "agent" "run.note" []]))
        r s' :=
  (@replaceRun_returns_iff_unchanged _ _ (freshRun "r" "objective" 0) (freshRun "r" "objective" 0) 2
    rfl).mpr rfl

theorem StoreOp.Effect.events_prefix (h : op.Effect s s') : s.events <+: s'.events := by
  have hClaim {investigationId one cutoff now s₁}
      (h : Returns (claimActiveSlot investigationId one cutoff now) s () s₁) :
          s.events <+: s₁.events := by
    rcases claimActiveSlot_returns h with ⟨rfl, -⟩ | ⟨_, row, -, -, -, -, rfl⟩
    · exact prefix_rfl
    · exact prefix_append _ _
  cases h with
  | createRun h _ => exact (hClaim h).trans (prefix_append _ _)
  | @openRetry record parentRunId _ _ _ _ _ _ _ _ _ _ h _ _ =>
    refine (hClaim h).trans ?_
    cases s.retrySlot parentRunId <;> simp [Store.addRetry, Store.log, Store.supersede,
      Store.addRun, Store.setRetrySlot]
  | replayRetry _ _ | resolveAction | replaceRun _ _ => exact prefix_rfl
  | _ => exact prefix_append _ _

/-- Whatever is called, no event is taken from the log or changed in it. -/
theorem events_prefix_exec (s : Store) (ops : List StoreOp) :
    s.events <+: (exec stepStore s ops).events := by
  induction ops generalizing s with
  | nil => exact prefix_rfl
  | cons op ops ih =>
    refine IsPrefix.trans ?_ (ih (stepStore s op))
    rcases stepStore_cases s op with hSame | hEffect
    · exact hSame.symm ▸ prefix_rfl
    · exact hEffect.events_prefix

end Glasslab.Storage
