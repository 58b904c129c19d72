import Glasslab.Foundation.Joining
import Mathlib.Data.List.DropRight

/-!
# White space

What `strip`, `split` and the join of the pieces do to a text, for any notion of white space.
-/

namespace Foundation

open List

variable {α : Type*} (space : α → Bool) (gap : α)

def strip (text : List α) : List α :=
  ((text.dropWhile space).reverse.dropWhile space).reverse

def pieces (text : List α) : List (List α) := (text.splitOnP space).filter (· ≠ [])

def collapse (text : List α) : List α := [gap].intercalate (pieces space text)

variable {space gap} {text l : List α} {c : α}

theorem strip_eq_rdropWhile : strip space text = (text.dropWhile space).rdropWhile space := rfl

theorem strip_eq_nil_iff : strip space text = [] ↔ ∀ c ∈ text, space c = true := by
  rw [strip_eq_rdropWhile, rdropWhile_eq_nil_iff]
  constructor
  · intro h c hMem
    rw [← takeWhile_append_dropWhile (p := space) (l := text)] at hMem
    rcases mem_append.mp hMem with hTake | hDrop
    · exact mem_takeWhile_imp hTake
    · exact h c hDrop
  · intro h c hMem
    exact h c ((dropWhile_sublist space).subset hMem)

theorem dropWhile_of_head (h : ∀ c ∈ text.head?, space c = false) :
    text.dropWhile space = text := by
  cases text with
  | nil => rfl
  | cons c rest => exact dropWhile_cons_of_neg (Bool.eq_false_iff.mp (h c rfl))

theorem strip_of_ends (hFirst : ∀ c ∈ text.head?, space c = false)
    (hLast : ∀ c ∈ text.getLast?, space c = false) : strip space text = text := by
  unfold strip
  rw [dropWhile_of_head hFirst, dropWhile_of_head, reverse_reverse]
  rwa [List.head?_reverse]

/-- A stripped text begins where there is no white space for the first time. -/
theorem head?_strip : (strip space text).head? = (text.filter fun c => !space c).head? := by
  rw [List.head?_filter, List.find?_not_eq_head?_dropWhile, strip_eq_rdropWhile]
  have hNot := List.head?_dropWhile_not space text
  cases hDropped : text.dropWhile space with
  | nil => rfl
  | cons c rest =>
    rw [hDropped] at hNot
    obtain ⟨tail, hTail⟩ := rdropWhile_prefix space (c :: rest)
    cases hStrip : (c :: rest).rdropWhile space with
    | nil =>
      have hSpace := rdropWhile_eq_nil_iff.mp hStrip c mem_cons_self
      rw [hNot] at hSpace
      cases hSpace
    | cons d others =>
      rw [hStrip] at hTail
      exact congrArg some (List.cons.inj hTail).1

theorem getLast?_strip :
    (strip space text).getLast? = (text.filter fun c => !space c).getLast? := by
  have hDropped :
      (text.dropWhile space).filter (fun c => !space c) = text.filter fun c => !space c := by
    have hNone : (text.takeWhile space).filter (fun c => !space c) = [] := by
      refine filter_eq_nil_iff.mpr fun c hMem => ?_
      rw [mem_takeWhile_imp hMem]
      exact Bool.false_ne_true
    have hAppend :=
      congrArg (List.filter fun c => !space c) (@List.takeWhile_append_dropWhile _ space text)
    rwa [filter_append, hNone, nil_append] at hAppend
  rw [strip, List.getLast?_reverse, ← List.find?_not_eq_head?_dropWhile, ← List.getLast?_filter,
    hDropped]

theorem strip_idem : strip space (strip space text) = strip space text := by
  apply strip_of_ends
  · intro c hFirst
    rw [head?_strip] at hFirst
    simpa using (mem_filter.mp (mem_of_mem_head? hFirst)).2
  · intro c hLast
    rw [getLast?_strip] at hLast
    simpa using (mem_filter.mp (mem_of_mem_getLast? hLast)).2

theorem of_mem_pieces (h : l ∈ pieces space text) : l ≠ [] ∧ ∀ c ∈ l, space c = false := by
  obtain ⟨hPiece, hNonempty⟩ := mem_filter.mp h
  refine ⟨of_decide_eq_true hNonempty, ?_⟩
  clear h hNonempty
  induction text generalizing l with
  | nil =>
    rw [splitOnP_nil, mem_singleton] at hPiece
    subst hPiece
    intro c hc
    cases hc
  | cons d text ih =>
    rw [splitOnP_cons_eq_if_modifyHead] at hPiece
    split at hPiece
    · rcases mem_cons.mp hPiece with rfl | hRest
      · intro c hc
        cases hc
      · exact ih hRest
    next hSpace =>
      obtain ⟨first, rest, hSplit⟩ := exists_cons_of_ne_nil (splitOnP_ne_nil space text)
      rw [hSplit, modifyHead_cons] at hPiece
      rcases mem_cons.mp hPiece with rfl | hRest
      · intro c hc
        rcases mem_cons.mp hc with rfl | hc
        · exact Bool.eq_false_iff.mpr hSpace
        · exact ih (hSplit ▸ mem_cons_self) c hc
      · exact ih (hSplit ▸ mem_cons_of_mem _ hRest)

theorem exists_mem_pieces (hMem : c ∈ text) (hSpace : space c = false) :
    ∃ l ∈ pieces space text, c ∈ l := by
  obtain ⟨l, hPiece, hc⟩ : ∃ l ∈ text.splitOnP space, c ∈ l := by
    induction text with
    | nil => cases hMem
    | cons d text ih =>
      obtain ⟨first, rest, hSplit⟩ := exists_cons_of_ne_nil (splitOnP_ne_nil space text)
      rw [splitOnP_cons_eq_if_modifyHead]
      rcases mem_cons.mp hMem with rfl | hRest
      · rw [if_neg (by simp [hSpace]), hSplit, modifyHead_cons]
        exact ⟨c :: first, mem_cons_self, mem_cons_self⟩
      · obtain ⟨l, hl, hc⟩ := ih hRest
        split
        · exact ⟨l, mem_cons_of_mem _ hl, hc⟩
        · rw [hSplit] at hl ⊢
          rcases mem_cons.mp hl with rfl | hl
          · exact ⟨d :: l, mem_cons_self, mem_cons_of_mem _ hc⟩
          · exact ⟨l, mem_cons_of_mem _ hl, hc⟩
  exact ⟨l, mem_filter.mpr ⟨hPiece, decide_eq_true (ne_nil_of_mem hc)⟩, hc⟩

theorem collapse_ne_nil (hMem : c ∈ text) (hSpace : space c = false) :
    collapse space gap text ≠ [] := by
  obtain ⟨l, hl, -⟩ := exists_mem_pieces hMem hSpace
  exact intercalate_ne_nil (ne_nil_of_mem hl) fun l hl => (of_mem_pieces hl).1

/-- Pieces can be read back from a text that they are joined to. -/
theorem pieces_joined (hGap : space gap = true) {ls : List (List α)}
    (h : ∀ l ∈ ls, l ≠ [] ∧ ∀ c ∈ l, space c = false) :
    pieces space ([gap].intercalate ls) = ls := by
  induction ls with
  | nil => rfl
  | cons l ls ih =>
    obtain ⟨hNonempty, hFree⟩ := h l mem_cons_self
    have hRest := ih fun m hm => h m (mem_cons_of_mem _ hm)
    cases ls with
    | nil =>
      rw [intercalate_singleton]
      unfold pieces
      rw [splitOnP_eq_singleton hFree]
      simp [hNonempty]
    | cons m ls =>
      rw [intercalate_cons_cons, append_assoc, singleton_append]
      unfold pieces at hRest ⊢
      rw [splitOnP_append_cons_of_forall_mem hFree gap hGap, filter_cons_of_pos, hRest]
      simpa using hNonempty

theorem pieces_collapse (hGap : space gap = true) :
    pieces space (collapse space gap text) = pieces space text :=
  pieces_joined hGap fun _ hl => of_mem_pieces hl

theorem collapse_collapse (hGap : space gap = true) :
    collapse space gap (collapse space gap text) = collapse space gap text := by
  show [gap].intercalate (pieces space (collapse space gap text)) = _
  rw [pieces_collapse hGap]
  rfl

theorem pieces_cons_of_space (hSpace : space c = true) :
    pieces space (c :: text) = pieces space text := by
  unfold pieces
  rw [splitOnP_cons_eq_if_modifyHead, if_pos hSpace]
  rfl

theorem pieces_append_cons (hSpace : space c = true) :
    pieces space (l ++ c :: text) = pieces space l ++ pieces space text := by
  have hSplit : (l ++ c :: text).splitOnP space = l.splitOnP space ++ text.splitOnP space := by
    induction l with
    | nil => rw [nil_append, splitOnP_cons_eq_if_modifyHead, if_pos hSpace]; rfl
    | cons d l ih =>
      rw [cons_append, splitOnP_cons_eq_if_modifyHead, splitOnP_cons_eq_if_modifyHead,
        ih]
      obtain ⟨first, rest, hFirst⟩ := exists_cons_of_ne_nil (splitOnP_ne_nil space l)
      rw [hFirst]
      split <;> rfl
  unfold pieces
  rw [hSplit, filter_append]

theorem pieces_intercalate (hGap : space gap = true) (texts : List (List α)) :
    pieces space ([gap].intercalate texts) = texts.flatMap (pieces space) := by
  induction texts with
  | nil => rfl
  | cons first rest ih =>
    cases rest with
    | nil => rw [intercalate_singleton, flatMap_singleton]
    | cons next rest =>
      rw [intercalate_cons_cons, append_assoc, singleton_append,
        pieces_append_cons hGap, ih]
      exact flatMap_cons.symm

end Foundation
