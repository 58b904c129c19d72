import Mathlib.Data.List.Induction

/-!
# Histories

What a list of past events says about the present: `Since` is about something that began and has not
ended since, `trailing` counts the events of a kind at the end, and `getLast?_join_eq_iff` compares
the newest entry of a history with the newest one that is not empty.
-/

namespace Foundation

open List

variable {ι α : Type*}

/-- An event of the first kind happened, and none of the second kind did after it. -/
def Since (begins ends : ι → Prop) (events : List ι) : Prop :=
  ∃ before event after, events = before ++ event :: after ∧ begins event ∧
    ∀ later ∈ after, ¬ ends later

section Since

variable {begins ends : ι → Prop} {events : List ι} {event : ι}

@[simp] theorem not_since_nil : ¬ Since begins ends [] := by
  rintro ⟨before, event, after, hEvents, -⟩
  simp at hEvents

theorem since_concat :
    Since begins ends (events ++ [event]) ↔
      begins event ∨ Since begins ends events ∧ ¬ ends event := by
  constructor
  · rintro ⟨before, first, after, hEvents, hBegins, hAfter⟩
    cases after using List.reverseRecOn with
    | nil =>
      obtain ⟨-, hSame⟩ := append_inj' hEvents rfl
      cases hSame
      exact .inl hBegins
    | append_singleton after last =>
      have hSplit : events ++ [event] = (before ++ first :: after) ++ [last] := by
        simpa using hEvents
      obtain ⟨rfl, hSame⟩ := append_inj' hSplit rfl
      cases hSame
      have hKept : ∀ later ∈ after, ¬ ends later := fun later hLater =>
        hAfter later (mem_append_left _ hLater)
      exact .inr ⟨⟨before, first, after, rfl, hBegins, hKept⟩, hAfter event (by simp)⟩
  · rintro (hBegins | ⟨⟨before, first, after, rfl, hBegins, hAfter⟩, hEnds⟩)
    · exact ⟨events, event, [], rfl, hBegins, nofun⟩
    · refine ⟨before, first, after ++ [event], by simp, hBegins, fun later hLater => ?_⟩
      rcases mem_append.mp hLater with hLater | hLater
      · exact hAfter later hLater
      · rw [mem_singleton.mp hLater]
        exact hEnds

end Since

/-- How many events of a kind a history ends with. -/
def trailing (p : α → Bool) (events : List α) : Nat := (events.reverse.takeWhile p).length

section Trailing

variable {p : α → Bool} {events : List α} {event : α}

@[simp] theorem trailing_nil : trailing p [] = 0 := rfl

theorem trailing_concat : trailing p (events ++ [event]) =
    if p event then trailing p events + 1 else 0 := by
  rw [trailing, reverse_concat, takeWhile_cons]
  split <;> rfl

theorem replicate_suffix_iff [DecidableEq α] {n : Nat} :
    List.replicate n event <:+ events ↔ n ≤ trailing (· = event) events := by
  induction events using List.reverseRecOn generalizing n with
  | nil =>
    rw [trailing_nil, suffix_nil, replicate_eq_nil_iff, Nat.le_zero]
  | append_singleton events last ih =>
    cases n with
    | zero => simp
    | succ n =>
      rw [replicate_succ', trailing_concat]
      by_cases hLast : last = event
      · subst hLast
        rw [suffix_append_self_iff, ih]
        simp
      · rw [if_neg (by simpa using hLast)]
        refine iff_of_false ?_ (Nat.not_succ_le_zero n)
        rintro ⟨front, hFront⟩
        rw [← append_assoc] at hFront
        obtain ⟨-, hSame⟩ := append_inj' hFront rfl
        exact hLast (singleton_inj.mp hSame).symm

end Trailing

/-- The newest entry is the newest one that is not empty, if it is not empty itself or all are. -/
theorem getLast?_join_eq_iff {entries : List (Option α)} :
    entries.getLast?.join = (entries.filterMap fun entry => entry).getLast? ↔
      entries.getLast? ≠ some none ∨ ∀ entry ∈ entries, entry = none := by
  cases entries using List.reverseRecOn with
  | nil => simp
  | append_singleton entries entry =>
    cases entry with
    | some a => simp
    | none =>
      have hEmpty : (entries.filterMap fun entry => entry).getLast? = none ↔ ∀ entry ∈ entries,
        entry = none := by
        simp
      have hAll :
          (∀ entry ∈ entries ++ [none], entry = none) ↔ ∀ entry ∈ entries, entry = none := by
        simp [or_imp]
      rw [List.getLast?_concat, filterMap_append, hAll, ← hEmpty]
      simp [eq_comm (a := none)]

end Foundation
