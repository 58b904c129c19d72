import Mathlib.Data.List.Basic

/-!
# One attempt after another

Each item is tried in turn. An attempt succeeds, passes, or raises, which ends the search.
-/

namespace Foundation

open List

variable {ε α β : Type*}

def firstSuccess (attempt : α → Except ε (Option β)) (none : ε) : List α → Except ε β
  | [] => .error none
  | item :: rest =>
    match attempt item with
    | .error e => .error e
    | .ok (some b) => .ok b
    | .ok Option.none => firstSuccess attempt none rest

variable {attempt : α → Except ε (Option β)} {e : ε} {items : List α} {b : β}

/-- An attempt succeeds exactly when all those before it pass. -/
theorem firstSuccess_eq_ok_iff : firstSuccess attempt e items = .ok b ↔
    ∃ before item after, items = before ++ item :: after ∧ attempt item = .ok (some b) ∧
      ∀ x ∈ before, attempt x = .ok none := by
  induction items with
  | nil =>
    constructor
    · intro h
      cases h
    · rintro ⟨before, item, after, hSplit, -⟩
      exact absurd hSplit.symm (by simp)
  | cons first rest ih =>
    rw [firstSuccess]
    cases hFirst : attempt first with
    | error e' =>
      constructor
      · intro h
        cases h
      · rintro ⟨before, item, after, hSplit, hItem, hBefore⟩
        cases before with
        | nil =>
          obtain ⟨rfl, -⟩ := List.cons.inj hSplit
          rw [hFirst] at hItem
          cases hItem
        | cons x before =>
          obtain ⟨rfl, -⟩ := List.cons.inj hSplit
          have hPass := hBefore first mem_cons_self
          rw [hFirst] at hPass
          cases hPass
    | ok found =>
      cases found with
      | some b' =>
        constructor
        · intro h
          obtain rfl := Except.ok.inj h
          exact ⟨[], first, rest, rfl, hFirst, by simp⟩
        · rintro ⟨before, item, after, hSplit, hItem, hBefore⟩
          cases before with
          | nil =>
            obtain ⟨rfl, -⟩ := List.cons.inj hSplit
            rw [hFirst] at hItem
            exact congrArg Except.ok (Option.some.inj (Except.ok.inj hItem))
          | cons x before =>
            obtain ⟨rfl, -⟩ := List.cons.inj hSplit
            have hPass := hBefore first mem_cons_self
            rw [hFirst] at hPass
            cases hPass
      | none =>
        apply ih.trans
        constructor
        · rintro ⟨before, item, after, rfl, hItem, hBefore⟩
          refine ⟨first :: before, item, after, rfl, hItem, ?_⟩
          intro x hx
          rcases mem_cons.mp hx with rfl | hx
          · exact hFirst
          · exact hBefore x hx
        · rintro ⟨before, item, after, hSplit, hItem, hBefore⟩
          cases before with
          | nil =>
            obtain ⟨rfl, -⟩ := List.cons.inj hSplit
            rw [hFirst] at hItem
            cases hItem
          | cons x before =>
            obtain ⟨rfl, rfl⟩ := List.cons.inj hSplit
            exact ⟨before, item, after, rfl, hItem, fun y hy => hBefore y (mem_cons_of_mem _ hy)⟩

/-- Where a list splits at the first item with a property, it splits so in one way. -/
theorem first_unique {P : α → Prop} {before before' after after' : List α} {item item' : α}
    (h : before ++ item :: after = before' ++ item' :: after') (hItem : P item) (hItem' : P item')
    (hBefore : ∀ x ∈ before, ¬P x) (hBefore' : ∀ x ∈ before', ¬P x) :
    before = before' ∧ item = item' ∧ after = after' := by
  induction before generalizing before' with
  | nil =>
    cases before' with
    | nil =>
      obtain ⟨rfl, rfl⟩ := List.cons.inj h
      exact ⟨rfl, rfl, rfl⟩
    | cons x before' =>
      obtain ⟨rfl, -⟩ := List.cons.inj h
      exact absurd hItem (hBefore' item mem_cons_self)
  | cons x before ih =>
    cases before' with
    | nil =>
      obtain ⟨rfl, -⟩ := List.cons.inj h
      exact absurd hItem' (hBefore x mem_cons_self)
    | cons y before' =>
      obtain ⟨rfl, hRest⟩ := List.cons.inj h
      obtain ⟨rfl, hEq⟩ := ih hRest (fun z hz => hBefore z (mem_cons_of_mem _ hz))
        fun z hz => hBefore' z (mem_cons_of_mem _ hz)
      exact ⟨rfl, hEq⟩

end Foundation
