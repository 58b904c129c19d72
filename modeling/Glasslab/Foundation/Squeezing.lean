import Glasslab.Foundation.Spacing

/-!
# White space squeezed by a scan

`collapse` can be computed in one pass that remembers whether it is inside a word or after one
(`collapse_eq_squeeze`). So what is no white space is kept as it is (`filter_collapse`), and white
space stands alone between words (`spaced_collapse`).
-/

namespace Foundation

open List

variable {α : Type*} (space : α → Bool) (gap : α)

/-- Where a scan is: before the first word, inside a word, or in the white space after one. -/
inductive Place where
  | start
  | word
  | after
  deriving DecidableEq

/-- A text with its words one gap apart, from a place on. -/
def squeeze : Place → List α → List α
  | _, [] => []
  | .start, c :: rest => if space c then squeeze .start rest else c :: squeeze .word rest
  | .word, c :: rest => if space c then squeeze .after rest else c :: squeeze .word rest
  | .after, c :: rest => if space c then squeeze .after rest else gap :: c :: squeeze .word rest

variable {space gap} {c : α}

def following (gap : α) : List (List α) → List α
  | [] => []
  | words => gap :: [gap].intercalate words

theorem intercalate_cons_eq (word : List α) (words : List (List α)) :
    [gap].intercalate (word :: words) = word ++ following gap words := by
  cases words with
  | nil => rw [intercalate_singleton, following, append_nil]
  | cons next words => rw [intercalate_cons_cons, append_assoc]; rfl

theorem squeeze_eq_pieces (text : List α) :
    squeeze space gap .start text = collapse space gap text ∧
      squeeze space gap .after text = following gap (pieces space text) ∧
      ∀ first rest, text.splitOnP space = first :: rest →
        squeeze space gap .word text = first ++ following gap (rest.filter (· ≠ [])) := by
  induction text with
  | nil =>
    refine ⟨by simp [squeeze, collapse, pieces], by simp [squeeze, pieces, following], ?_⟩
    intro first rest h
    obtain ⟨rfl, rfl⟩ := h
    rfl
  | cons c text ih =>
    obtain ⟨hStart, hAfter, hWord⟩ := ih
    obtain ⟨first, rest, hSplit⟩ := exists_cons_of_ne_nil (splitOnP_ne_nil space text)
    have hCons := splitOnP_cons_eq_if_modifyHead (p := space) c text
    cases hSpace : space c with
    | true =>
      rw [if_pos hSpace] at hCons
      have hPieces : pieces space (c :: text) = pieces space text := by
        unfold pieces
        rw [hCons]
        rfl
      refine ⟨?_, ?_, ?_⟩
      · rw [squeeze, if_pos hSpace, hStart]
        unfold collapse
        rw [hPieces]
      · rw [squeeze, if_pos hSpace, hAfter, hPieces]
      · intro first' rest' h
        rw [hCons, List.cons.injEq] at h
        obtain ⟨rfl, rfl⟩ := h
        rw [squeeze, if_pos hSpace, hAfter, nil_append]
        rfl
    | false =>
      rw [hSpace, if_neg Bool.false_ne_true, hSplit, modifyHead_cons] at hCons
      have hPieces : pieces space (c :: text) = (c :: first) :: rest.filter (· ≠ []) := by
        unfold pieces
        rw [hCons]
        exact filter_cons_of_pos (by simp)
      have hRest := hWord first rest hSplit
      refine ⟨?_, ?_, ?_⟩
      · rw [squeeze, hSpace, if_neg Bool.false_ne_true, hRest]
        unfold collapse
        rw [hPieces, intercalate_cons_eq, cons_append]
      · have hFollowing : following gap ((c :: first) :: rest.filter (· ≠ [])) =
            gap :: [gap].intercalate ((c :: first) :: rest.filter (· ≠ [])) := rfl
        rw [squeeze, hSpace, if_neg Bool.false_ne_true, hRest, hPieces, hFollowing,
          intercalate_cons_eq, cons_append]
      · intro first' rest' h
        rw [hCons, List.cons.injEq] at h
        obtain ⟨rfl, rfl⟩ := h
        rw [squeeze, hSpace, if_neg Bool.false_ne_true, hRest, cons_append]

theorem collapse_eq_squeeze (text : List α) :
    collapse space gap text = squeeze space gap .start text :=
  (squeeze_eq_pieces text).1.symm

theorem filter_squeeze {keep : α → Bool} (hGap : keep gap = false)
    (hSpace : ∀ c, space c = true → keep c = false) (place : Place) (text : List α) :
    (squeeze space gap place text).filter keep = text.filter keep := by
  induction text generalizing place with
  | nil => cases place <;> rfl
  | cons c text ih =>
    have hDrop := hSpace c
    cases place <;> cases hc : space c <;>
      simp [squeeze, hc, ih, filter_cons, hGap, hDrop]

theorem filter_collapse {keep : α → Bool} (hGap : keep gap = false)
    (hSpace : ∀ c, space c = true → keep c = false) (text : List α) :
    (collapse space gap text).filter keep = text.filter keep := by
  rw [collapse_eq_squeeze]
  exact filter_squeeze hGap hSpace .start text

/-- White space is a gap before something that is no white space. -/
def Spaced (space : α → Bool) (gap : α) (text : List α) : Prop :=
  ∀ (i : Nat) (c : α), text[i]? = some c → space c = true →
    c = gap ∧ ∃ d, text[i + 1]? = some d ∧ space d = false

theorem Spaced.cons {text : List α} (hc : space c = false) (h : Spaced space gap text) :
    Spaced space gap (c :: text) := by
  intro i d hd hSpace
  cases i with
  | zero =>
    rw [← Option.some.inj hd, hc] at hSpace
    cases hSpace
  | succ i => exact h i d hd hSpace

theorem Spaced.cons_gap {text : List α} (hc : space c = false) (h : Spaced space gap text) :
    Spaced space gap (gap :: c :: text) := by
  intro i d hd hSpace
  cases i with
  | zero => exact ⟨(Option.some.inj hd).symm, c, rfl, hc⟩
  | succ i => exact h.cons hc i d hd hSpace

theorem spaced_squeeze (place : Place) (text : List α) :
    Spaced space gap (squeeze space gap place text) := by
  induction text generalizing place with
  | nil =>
    have hNil : Spaced space gap ([] : List α) := nofun
    cases place <;> exact hNil
  | cons c text ih =>
    cases hSpace : space c with
    | true => cases place <;> (rw [squeeze, if_pos hSpace]; exact ih _)
    | false =>
      have hWord := ih .word
      cases place with
      | start => rw [squeeze, hSpace, if_neg Bool.false_ne_true]; exact hWord.cons hSpace
      | word => rw [squeeze, hSpace, if_neg Bool.false_ne_true]; exact hWord.cons hSpace
      | after => rw [squeeze, hSpace, if_neg Bool.false_ne_true]; exact hWord.cons_gap hSpace

theorem head?_squeeze_start (text : List α) :
    ∀ c ∈ (squeeze space gap .start text).head?, space c = false := by
  induction text with
  | nil => nofun
  | cons d text ih =>
    cases hSpace : space d with
    | true => rw [squeeze, if_pos hSpace]; exact ih
    | false =>
      rw [squeeze, hSpace, if_neg Bool.false_ne_true]
      intro c hc
      rw [← Option.some.inj hc, hSpace]

theorem spaced_collapse (text : List α) : Spaced space gap (collapse space gap text) := by
  rw [collapse_eq_squeeze]
  exact spaced_squeeze .start text

theorem head?_collapse (text : List α) :
    ∀ c ∈ (collapse space gap text).head?, space c = false := by
  rw [collapse_eq_squeeze]
  exact head?_squeeze_start text

end Foundation
