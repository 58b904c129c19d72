import Mathlib.Data.List.Infix

/-!
# Scanning a text for patterns

`breakAt` splits a text at the first occurrence of a pattern, `replaceAll` replaces the occurrences
of a pattern from left to right, and `findAll` lists the matches of a matcher, each search starting
where the last match has ended.

A replacement that shares no symbol with the beginning of a text cannot make that text occur
(`infix_of_infix_replaceAll`); in particular no occurrence of the pattern itself is left. A text is
found again where it was written down before a pattern that it does not hold (`breakAt_append`).
-/

namespace Foundation

open List

variable {α β : Type*} [DecidableEq α]

/-- The text before and the text after the first occurrence of a pattern. -/
def breakAt (pattern : List α) : List α → Option (List α × List α)
  | [] => if pattern = [] then some ([], []) else none
  | c :: text =>
    if pattern <+: c :: text then some ([], (c :: text).drop pattern.length)
    else (breakAt pattern text).map fun found => (c :: found.1, found.2)

variable {c : α} {p a s : List α}

/-- A pattern whose first symbol does not come back in it is found behind a text that does not
hold it. -/
theorem breakAt_append (hp : c ∉ p) (ha : ¬c :: p <:+: a) :
    breakAt (c :: p) (a ++ (c :: p ++ s)) = some (a, s) := by
  induction a with
  | nil =>
    rw [nil_append, cons_append, breakAt, if_pos (by simp)]
    simp
  | cons x a ih =>
    have hRest : ¬c :: p <:+: a := fun h => ha (h.trans (suffix_cons x a).isInfix)
    have hHere : ¬c :: p <+: x :: (a ++ (c :: p ++ s)) := by
      intro h
      obtain ⟨rfl, hTail⟩ := cons_prefix_cons.mp h
      rcases prefix_or_prefix_of_prefix hTail (prefix_append a _) with hShort | ⟨q, rfl⟩
      · exact ha (cons_prefix_cons.mpr ⟨rfl, hShort⟩).isInfix
      · -- the pattern would begin a second time inside itself
        cases q with
        | nil => exact ha ⟨[], [], by simp⟩
        | cons y q =>
          have hAfter := (prefix_append_right_inj a).mp hTail
          obtain ⟨rfl, -⟩ := cons_prefix_cons.mp hAfter
          simp at hp
    rw [cons_append, breakAt, if_neg hHere, ih hRest]
    rfl

/-- A pattern that occurs is found, at the latest where it is known to be. -/
theorem exists_breakAt (p a s : List α) :
    ∃ before after, breakAt p (a ++ (p ++ s)) = some (before, after) ∧ before <+: a := by
  induction a with
  | nil =>
    refine ⟨[], s, ?_, prefix_refl _⟩
    cases hText : p ++ s with
    | nil =>
      obtain ⟨rfl, rfl⟩ := append_eq_nil_iff.mp hText
      rfl
    | cons x text =>
      have hPrefix : p <+: x :: text := hText ▸ prefix_append p s
      rw [nil_append, breakAt, if_pos hPrefix, ← hText, drop_left]
  | cons x a ih =>
    obtain ⟨before, after, hFound, hBefore⟩ := ih
    rw [cons_append, breakAt]
    split
    · exact ⟨[], _, rfl, nil_prefix⟩
    · exact ⟨x :: before, after, by rw [hFound]; rfl, cons_prefix_cons.mpr ⟨rfl, hBefore⟩⟩

theorem breakAt_suffix {before after : List α} (h : breakAt p s = some (before, after)) :
    after <:+ s := by
  induction s generalizing before with
  | nil =>
    rw [breakAt] at h
    split at h
    · cases h
      exact suffix_refl _
    · cases h
  | cons x s ih =>
    rw [breakAt] at h
    split at h
    · cases h
      exact drop_suffix _ _
    · obtain ⟨⟨before', after'⟩, hFound, hEq⟩ := Option.map_eq_some_iff.mp h
      cases hEq
      exact (ih hFound).trans (suffix_cons x s)

/-! ## Replacement -/

/-- Replace the occurrences of a pattern, after as many symbols as are still part of the last. -/
def replaceFrom (pattern replacement : List α) : Nat → List α → List α
  | _, [] => []
  | n + 1, _ :: text => replaceFrom pattern replacement n text
  | 0, c :: text =>
    if pattern <+: c :: text then
      replacement ++ replaceFrom pattern replacement (pattern.length - 1) text
    else c :: replaceFrom pattern replacement 0 text

def replaceAll (pattern replacement text : List α) : List α :=
  replaceFrom pattern replacement 0 text

variable {q r : List α} {n : Nat}

/-- A text without the first symbol of the replacement begins the result only if it begins what was
scanned. -/
theorem prefix_of_prefix_replaceFrom (hc : c ∉ q) (h : q <+: replaceFrom p (c :: r) 0 s) :
    q <+: s := by
  induction s generalizing q with
  | nil => exact h
  | cons x s ih =>
    cases q with
    | nil => exact nil_prefix
    | cons y q =>
      rw [replaceFrom] at h
      split at h
      · obtain ⟨rfl, -⟩ := cons_prefix_cons.mp h
        simp at hc
      · obtain ⟨rfl, hTail⟩ := cons_prefix_cons.mp h
        exact cons_prefix_cons.mpr ⟨rfl, ih (fun hMem => hc (by simp [hMem])) hTail⟩

variable {d : α}

omit [DecidableEq α] in
/-- A text does not begin where its first symbol is missing. -/
theorem infix_of_infix_append {l : List α} (hd : d ∉ l) (h : d :: q <:+: l ++ s) :
    d :: q <:+: s := by
  induction l with
  | nil => exact h
  | cons x l ih =>
    rcases infix_cons_iff.mp h with hPrefix | hInfix
    · obtain ⟨rfl, -⟩ := cons_prefix_cons.mp hPrefix
      simp at hd
    · exact ih (fun hMem => hd (by simp [hMem])) hInfix

/-- What occurs in the result has occurred before at a place that was not replaced, if its first
symbol is not in the replacement and the first symbol of the replacement is not in it. -/
theorem exists_of_infix_replaceFrom (hd : d ∉ c :: r) (hc : c ∉ q)
    (h : d :: q <:+: replaceFrom p (c :: r) n s) :
    ∃ t, t <:+ s ∧ d :: q <+: t ∧ ¬p <+: t := by
  induction s generalizing n with
  | nil =>
    cases n <;> simp [replaceFrom] at h
  | cons x s ih =>
    have hLater {k : Nat} (h : d :: q <:+: replaceFrom p (c :: r) k s) :
        ∃ t, t <:+ x :: s ∧ d :: q <+: t ∧ ¬p <+: t := by
      obtain ⟨t, hSuffix, ht⟩ := ih h
      exact ⟨t, hSuffix.trans (suffix_cons x s), ht⟩
    cases n with
    | succ n =>
      exact hLater h
    | zero =>
      rw [replaceFrom] at h
      split at h
      · exact hLater (infix_of_infix_append hd h)
      · rename_i hKept
        rcases infix_cons_iff.mp h with hPrefix | hInfix
        · obtain ⟨rfl, hTail⟩ := cons_prefix_cons.mp hPrefix
          refine ⟨d :: s, suffix_refl _, cons_prefix_cons.mpr ⟨rfl, ?_⟩, hKept⟩
          exact prefix_of_prefix_replaceFrom hc hTail
        · exact hLater hInfix

/-- A replacement does not make a text occur. -/
theorem infix_of_infix_replaceAll (hd : d ∉ c :: r) (hc : c ∉ q)
    (h : d :: q <:+: replaceAll p (c :: r) s) : d :: q <:+: s := by
  obtain ⟨t, hSuffix, hPrefix, -⟩ := exists_of_infix_replaceFrom hd hc h
  exact hPrefix.isInfix.trans hSuffix.isInfix

theorem not_infix_replaceAll (hd : d ∉ c :: r) (hc : c ∉ q) :
    ¬d :: q <:+: replaceAll (d :: q) (c :: r) s := by
  intro h
  obtain ⟨t, -, hPrefix, hNot⟩ := exists_of_infix_replaceFrom hd hc h
  exact hNot hPrefix

theorem replaceAll_eq_self (h : c ∉ s) : replaceAll (c :: p) r s = s := by
  induction s with
  | nil => rfl
  | cons x s ih =>
    have hx : ¬c :: p <+: x :: s := by
      intro hPrefix
      exact h (by simp [(cons_prefix_cons.mp hPrefix).1])
    rw [replaceAll, replaceFrom, if_neg hx]
    exact congrArg (x :: ·) (ih fun hMem => h (by simp [hMem]))

/-- The matches from a place on, after as many symbols as are still part of the last match. -/
def findAllFrom (find : List α → Option (β × List α)) : Nat → List α → List β
  | _, [] => []
  | n + 1, _ :: text => findAllFrom find n text
  | 0, c :: text =>
    match find (c :: text) with
    | some (found, rest) => found :: findAllFrom find (text.length - rest.length) text
    | none => findAllFrom find 0 text

/-- The matches of a matcher that returns what it has found and the rest of the text. -/
def findAll (find : List α → Option (β × List α)) (text : List α) : List β :=
  findAllFrom find 0 text

variable {find : List α → Option (β × List α)} {found : β} {u v rest : List α}

omit [DecidableEq α] in
theorem findAllFrom_eq_drop (n : Nat) (s : List α) :
    findAllFrom find n s = findAll find (s.drop n) := by
  induction s generalizing n with
  | nil => cases n <;> simp [findAll, findAllFrom]
  | cons x s ih =>
    cases n with
    | zero => rfl
    | succ n => exact ih n

omit [DecidableEq α] in
theorem findAll_of_match (h : find (c :: s) = some (found, rest)) (hRest : rest <:+ s) :
    findAll find (c :: s) = found :: findAll find rest := by
  have hDrop : s.drop (s.length - rest.length) = rest := (suffix_iff_eq_drop.mp hRest).symm
  rw [findAll, findAllFrom, h]
  dsimp only
  rw [findAllFrom_eq_drop, hDrop]

omit [DecidableEq α] in
/-- Nothing is found where no match can begin. -/
theorem findAll_append (hFind : ∀ x t, x ≠ c → find (x :: t) = none) (hu : c ∉ u) :
    findAll find (u ++ v) = findAll find v := by
  induction u with
  | nil => rfl
  | cons x u ih =>
    have hx : x ≠ c := fun h => hu (by simp [h])
    have hTail : findAll find (x :: (u ++ v)) = findAll find (u ++ v) := by
      rw [findAll, findAllFrom, hFind x (u ++ v) hx]
      rfl
    rw [cons_append, hTail]
    exact ih fun h => hu (by simp [h])

end Foundation
