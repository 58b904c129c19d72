import Mathlib.Data.List.Basic

/-!
# Joined texts

A list of texts joined by a separator can be read back where no text holds the separator
(`intercalate_injOn`), and so can the first field of a text (`append_cons_inj`).
-/

namespace Foundation

open List

variable {α β γ : Type*} {sep : α} {xs ys : List (List α)} {a b s t : List α}

theorem mem_intercalate {x : α} (h : x ∈ [sep].intercalate xs) : x = sep ∨ ∃ l ∈ xs, x ∈ l := by
  induction xs with
  | nil => cases h
  | cons l rest ih =>
    cases rest with
    | nil =>
      simp only [intercalate_singleton] at h
      exact .inr ⟨l, mem_cons_self, h⟩
    | cons l' rest =>
      simp only [intercalate_cons_cons, append_assoc, mem_append,
        mem_singleton] at h
      rcases h with h | h | h
      · exact .inr ⟨l, mem_cons_self, h⟩
      · exact .inl h
      · rcases ih h with hSep | ⟨m, hm, hx⟩
        · exact .inl hSep
        · exact .inr ⟨m, mem_cons_of_mem _ hm, hx⟩

theorem intercalate_ne_nil (hxs : xs ≠ []) (h : ∀ l ∈ xs, l ≠ []) : [sep].intercalate xs ≠ [] := by
  cases xs with
  | nil => exact absurd rfl hxs
  | cons l rest =>
    have hl := h l mem_cons_self
    cases rest with
    | nil => simpa using hl
    | cons l' rest => simp [intercalate_cons_cons, hl]

variable [DecidableEq α]

/-- The texts can be read back from their join, if none is empty or holds the separator. -/
theorem intercalate_injOn (hxs : ∀ l ∈ xs, l ≠ [] ∧ sep ∉ l) (hys : ∀ l ∈ ys, l ≠ [] ∧ sep ∉ l)
    (h : [sep].intercalate xs = [sep].intercalate ys) : xs = ys := by
  by_cases hx : xs = []
  · by_cases hy : ys = []
    · rw [hx, hy]
    · subst hx
      exact absurd h.symm (intercalate_ne_nil hy fun l hl => (hys l hl).1)
  · by_cases hy : ys = []
    · subst hy
      exact absurd h (intercalate_ne_nil hx fun l hl => (hxs l hl).1)
    · rw [← splitOn_intercalate sep (fun l hl => (hxs l hl).2) hx, h,
        splitOn_intercalate sep (fun l hl => (hys l hl).2) hy]

theorem mem_splitOn {l text : List α} (h : l ∈ text.splitOn sep) :
    sep ∉ l ∧ ∀ x ∈ l, x ∈ text := by
  induction text generalizing l with
  | nil =>
    rw [splitOn_nil, mem_singleton] at h
    subst h
    simp
  | cons x text ih =>
    obtain ⟨first, rest, hSplit⟩ := exists_cons_of_ne_nil (splitOn_ne_nil sep text)
    rw [splitOn_cons_eq_if_modifyHead, hSplit] at h
    have hOld : ∀ l ∈ first :: rest, sep ∉ l ∧ ∀ y ∈ l, y ∈ x :: text := by
      intro l hl
      obtain ⟨hSep, hMem⟩ := ih (hSplit ▸ hl)
      exact ⟨hSep, fun y hy => mem_cons_of_mem _ (hMem y hy)⟩
    split at h
    · rcases mem_cons.mp h with rfl | h
      · simp
      · exact hOld l h
    · rename_i hNe
      rcases mem_cons.mp h with rfl | h
      · obtain ⟨hSep, hMem⟩ := hOld first mem_cons_self
        have hx : sep ≠ x := by
          rintro rfl
          simp at hNe
        exact ⟨by simp [hx, hSep], by simpa using hMem⟩
      · exact hOld l (mem_cons_of_mem _ h)

/-- A field that does not hold the separator can be read back from the text it begins. -/
theorem append_cons_inj (ha : sep ∉ a) (hb : sep ∉ b) (h : a ++ sep :: s = b ++ sep :: t) :
    a = b ∧ s = t := by
  have hSplit := congrArg (List.splitOn sep) h
  rw [splitOn_append_cons_self_of_not_mem ha, splitOn_append_cons_self_of_not_mem hb]
    at hSplit
  have hEq : a = b := (List.cons.inj hSplit).1
  subst hEq
  have hRest := append_cancel_left h
  exact ⟨rfl, (List.cons.inj hRest).2⟩

omit [DecidableEq α] in
/-- Two lists that are written alike are alike, if the writing of their elements tells them. -/
theorem eq_of_map_eq_map {f g : β → γ} {us vs : List β} (h : us.map f = vs.map g)
    (hEq : ∀ u ∈ us, ∀ v ∈ vs, f u = g v → u = v) : us = vs := by
  induction us generalizing vs with
  | nil =>
    cases vs with
    | nil => rfl
    | cons v vs => cases h
  | cons u us ih =>
    cases vs with
    | nil => cases h
    | cons v vs =>
      rw [map_cons, map_cons, List.cons.injEq] at h
      have hHead := hEq u mem_cons_self v mem_cons_self h.1
      have hTail := ih h.2 fun u' hu v' hv =>
        hEq u' (mem_cons_of_mem _ hu) v' (mem_cons_of_mem _ hv)
      rw [hHead, hTail]

end Foundation
