import Glasslab.Corpus.Coverage
import Glasslab.Foundation.Filling

/-!
# How atoms are packed

`group_atoms` caps the sum of the tokens of its atoms: the groups are the runs that the atoms fill
(`exists_fills_groupAtoms`), and a short last group of evidence is merged with the one before it
(`exists_fills_groupAtoms_merged`). The tokens of a text are its words, or a third of its characters
if these are more. Between the atoms there is only white space, so a group has no more words than
its atoms have (`wordCount_hull_le`). It may be longer than they are.
-/

namespace Glasslab.Corpus

open Foundation Span List

/-! ## Counting words -/

/-- How many words there are, where one may have been entered already. -/
def countWords : Bool → List Char → Nat
  | entered, [] => entered.toNat
  | entered, c :: rest =>
    if isSpace c then entered.toNat + countWords false rest else countWords true rest

def wordCount (text : List Char) : Nat := countWords false text

variable {text part : List Char}

section Count

variable {entered : Bool} {rest : List Char}

theorem length_wordSpans (position : Nat) (entered : Option Nat) (text : List Char) :
    (wordSpans position entered text).length = countWords entered.isSome text := by
  induction text generalizing position entered with
  | nil => cases entered <;> simp [wordSpans, countWords]
  | cons c rest ih =>
    rw [countWords]
    cases hSpace : isSpace c with
    | true =>
      rw [wordSpans_space hSpace, length_append, ih]
      cases entered <;> simp
    | false =>
      rw [wordSpans_text hSpace, ih]
      simp

theorem countWords_true (text : List Char) :
    countWords false text ≤ countWords true text ∧
    countWords true text ≤ 1 + countWords false text := by
  cases text with
  | nil => simp [countWords]
  | cons c rest => cases hSpace : isSpace c <;> simp [countWords, hSpace]

/-- Fewer characters have no more words. -/
theorem countWords_le_of_sublist (h : part.Sublist text) :
    countWords entered part ≤ countWords entered text := by
  induction h generalizing entered with
  | slnil => exact le_rfl
  | @cons part text c h ih =>
    rw [countWords]
    split
    next =>
      have hEntered := (countWords_true part).2
      have hRest := @ih false
      cases entered with
      | false => simpa using hRest
      | true =>
        rw [Bool.toNat_true]
        omega
    next =>
      have hEntered := (countWords_true part).1
      have hRest := @ih true
      cases entered with
      | false => omega
      | true => exact hRest
  | @cons_cons part text c h ih =>
    rw [countWords, countWords]
    split
    next => exact Nat.add_le_add_left ih _
    next => exact ih

theorem countWords_append_le (part rest : List Char) :
    countWords entered (part ++ rest) ≤ countWords entered part + countWords false rest := by
  induction part generalizing entered with
  | nil =>
    cases entered with
    | false => simp [countWords]
    | true => exact (countWords_true rest).2
  | cons c part ih =>
    rw [cons_append, countWords, countWords]
    split
    next =>
      rw [Nat.add_assoc]
      exact Nat.add_le_add_left ih _
    next => exact ih

theorem wordCount_eq_zero : wordCount text = 0 ↔ ∀ c ∈ text, isSpace c = true := by
  unfold wordCount
  induction text with
  | nil => simp [countWords]
  | cons c rest ih =>
    rw [forall_mem_cons, ← ih, countWords]
    have hPos : 0 < countWords true rest := by
      have hEmpty : countWords true [] ≤ countWords true rest :=
        countWords_le_of_sublist (nil_sublist rest)
      exact Nat.lt_of_lt_of_le Nat.one_pos hEmpty
    cases hSpace : isSpace c with
    | true => simp
    | false =>
      simp only [Bool.false_eq_true, if_false, false_and, iff_false]
      omega

theorem countWords_le_one (h : ∀ c ∈ text, isSpace c = false) : countWords entered text ≤ 1 := by
  induction text generalizing entered with
  | nil => cases entered <;> simp [countWords]
  | cons c rest ih =>
    obtain ⟨hSpace, hRest⟩ := forall_mem_cons.mp h
    rw [countWords, if_neg (by simp [hSpace])]
    exact ih hRest

end Count

def SingleWord (text : List Char) : Prop := text ≠ [] ∧ ∀ c ∈ text, isSpace c = false

instance : DecidablePred SingleWord := fun _ => inferInstanceAs (Decidable (_ ∧ _))

/-- The text is too long for a number of tokens, and it has a word and white space. -/
def Overlong (cap : Nat) (text : List Char) : Prop :=
  charsPerToken * cap < text.length ∧ (∃ c ∈ text, isSpace c = true) ∧ ∃ c ∈ text, isSpace c = false

/-- The text has at most a number of tokens, or it is a single word. -/
def Fits (cap : Nat) (text : List Char) : Prop := estimateTokens text ≤ cap ∨ SingleWord text

instance (cap : Nat) : DecidablePred (Fits cap) := fun _ => inferInstanceAs (Decidable (_ ∨ _))

section Tokens

variable {cap : Nat}

theorem ceilDiv_le_iff (n : Nat) : ceilDiv n charsPerToken ≤ cap ↔ n ≤ charsPerToken * cap := by
  unfold ceilDiv charsPerToken
  omega

theorem estimateTokens_eq (text : List Char) :
    estimateTokens text =
      if wordCount text = 0 then 1
      else max 1 (max (wordCount text) (ceilDiv text.length charsPerToken)) := by
  unfold estimateTokens
  rw [length_wordSpans, Option.isSome_none, ← wordCount]

theorem estimateTokens_le_iff (hCap : 1 ≤ cap) :
    estimateTokens text ≤ cap ↔
      wordCount text = 0 ∨ wordCount text ≤ cap ∧ text.length ≤ charsPerToken * cap := by
  rw [estimateTokens_eq, ← ceilDiv_le_iff]
  split
  next hBlank => simp [hCap, hBlank]
  next hWords => simp [hCap, hWords]

theorem wordCount_le_estimateTokens (text : List Char) : wordCount text ≤ estimateTokens text := by
  rw [estimateTokens_eq]
  split
  next hBlank => omega
  next => exact (le_max_left _ _).trans (le_max_right _ _)

/-- A text is within a cap if it has no more words and is not too long. -/
theorem fits_iff (hCap : 1 ≤ cap) : Fits cap text ↔ wordCount text ≤ cap ∧ ¬ Overlong cap text := by
  constructor
  · rintro (hFits | hSingle)
    · refine ⟨(wordCount_le_estimateTokens text).trans hFits, ?_⟩
      rintro ⟨hLong, -, c, hc, hText⟩
      rcases (estimateTokens_le_iff hCap).mp hFits with hBlank | ⟨-, hLength⟩
      · rw [wordCount_eq_zero.mp hBlank c hc] at hText
        cases hText
      · omega
    · refine ⟨(countWords_le_one hSingle.2).trans hCap, ?_⟩
      rintro ⟨-, ⟨c, hc, hSpace⟩, -⟩
      rw [hSingle.2 c hc] at hSpace
      cases hSpace
  · rintro ⟨hWords, hLength⟩
    by_cases hLong : text.length ≤ charsPerToken * cap
    · exact .inl ((estimateTokens_le_iff hCap).mpr (.inr ⟨hWords, hLong⟩))
    · by_cases hSpace : ∃ c ∈ text, isSpace c = true
      · refine .inl ((estimateTokens_le_iff hCap).mpr (.inl (wordCount_eq_zero.mpr ?_)))
        intro c hc
        by_contra hText
        exact hLength ⟨not_le.mp hLong, hSpace, c, hc, eq_false_of_ne_true hText⟩
      · refine .inr ⟨?_, fun c hc => eq_false_of_ne_true fun hTrue => hSpace ⟨c, hc, hTrue⟩⟩
        rintro rfl
        exact hLong (Nat.zero_le _)

end Tokens

/-! ## Atoms -/

/-- The text from the first of several spans to the last one is in one of them. -/
def Dense (text : List Char) (atoms : List Span) : Prop :=
  ∀ p, TextAt text 0 p → (∃ first ∈ atoms, first.start ≤ p) → (∃ last ∈ atoms, p < last.stop) →
    ∃ atom ∈ atoms, atom.Contains p

section Atoms

variable {span word unit : Span} {atoms run : List Span} {maxTokens : Nat}

theorem slice_append {a b c : Nat} (hFrom : a ≤ b) (hTo : b ≤ c) :
    slice text ⟨a, c⟩ = slice text ⟨a, b⟩ ++ slice text ⟨b, c⟩ := by
  have hTake : text.take c = text.take b ++ (text.take c).drop b := by
    conv_lhs => rw [← take_append_drop b (text.take c), take_take, Nat.min_eq_left hTo]
  simp only [slice]
  rw [hTake, drop_append]
  by_cases hLength : a ≤ (text.take b).length
  · rw [Nat.sub_eq_zero_of_le hLength, drop_zero, ← hTake]
  · have hEnd : (text.take c).drop b = [] := by
      rw [drop_eq_nil_iff, length_take]
      rw [length_take] at hLength
      omega
    rw [← hTake, hEnd, drop_nil]

theorem exists_textAt_of_wordCount (h : wordCount (slice text span) ≠ 0) :
    ∃ p, span.Contains p ∧ TextAt text 0 p := by
  have hWords : wordSpans span.start none (slice text span) ≠ [] := by
    intro hNil
    apply h
    rw [wordCount, ← @Option.isSome_none Nat, ← length_wordSpans span.start none, hNil]
    rfl
  obtain ⟨p, hText⟩ := exists_textAt_of_wordSpans hWords
  exact ⟨p, textAt_slice.mp hText⟩

/-- A word consists of text, from where it was entered on. -/
theorem textAt_of_mem_wordSpans {chars : List Char} {position p : Nat} {entered : Option Nat}
    (hWord : word ∈ wordSpans position entered chars) (hContains : word.Contains p)
    (hFrom : position ≤ p) : TextAt chars position p := by
  induction chars generalizing position entered with
  | nil =>
    cases entered with
    | none => cases hWord
    | some start =>
      rw [wordSpans, mem_singleton] at hWord
      subst hWord
      exact absurd hContains.2 (not_lt.mpr hFrom)
  | cons c rest ih =>
    cases hSpace : isSpace c with
    | true =>
      rw [wordSpans_space hSpace] at hWord
      rcases mem_append.mp hWord with hWord | hWord
      · obtain ⟨start, -, rfl⟩ := mem_map.mp hWord
        exact absurd hContains.2 (not_lt.mpr hFrom)
      · have hStart := ((@wordSpans_inOrder rest (position + 1) none fun start hStart =>
          absurd hStart (Option.not_mem_none start)).2 word hWord).1
        exact textAt_cons.mpr (.inr (ih hWord (hStart.trans hContains.1)))
    | false =>
      rw [wordSpans_text hSpace] at hWord
      rcases hFrom.eq_or_lt with rfl | hLater
      · exact textAt_cons.mpr (.inl ⟨rfl, hSpace⟩)
      · exact textAt_cons.mpr (.inr (ih hWord hLater))

theorem wordCount_word (hSpan : span.start ≤ span.stop) (h : word ∈ words text span) :
    wordCount (slice text word) ≤ 1 := by
  refine countWords_le_one fun c hc => ?_
  obtain ⟨hOrder, hWithin⟩ := words_inOrder text hSpan
  obtain ⟨i, hLength, rfl⟩ := getElem_of_mem hc
  have hEnd := length_slice_le text word (hOrder.proper word h).le
  have hContains : word.Contains (word.start + i) := ⟨Nat.le_add_right _ _, by omega⟩
  have hText := textAt_of_mem_wordSpans h hContains ((hWithin word h).1.trans hContains.1)
  obtain ⟨-, c, hChar, hSpace⟩ := textAt_slice.mpr ⟨hContains, (textAt_slice.mp hText).2⟩
  rw [Nat.add_sub_cancel_left, List.getElem?_eq_getElem hLength] at hChar
  rwa [Option.some.inj hChar]

section Splitting

variable {holds : Span → Prop}

theorem Splitting.forall_add {s : Splitting} (h : ∀ piece ∈ s.pieces ++ s.piece.toList, holds piece)
    (hWord : holds word)
    (hFits : ∀ piece, estimateTokens (slice text piece) ≤ maxTokens → holds piece) :
    ∀ piece ∈ (s.add text maxTokens word).pieces ++ (s.add text maxTokens word).piece.toList,
      holds piece := by
  intro piece hPiece
  unfold Splitting.add at hPiece
  split at hPiece
  next =>
    rcases mem_append.mp hPiece with hPiece | hPiece
    · exact h piece (mem_append_left _ hPiece)
    · rwa [mem_singleton.mp hPiece]
  next whole hWhole =>
    split at hPiece
    next =>
      rcases mem_append.mp hPiece with hPiece | hPiece
      · apply h
        rwa [hWhole]
      · rwa [mem_singleton.mp hPiece]
    next hSmall =>
      rcases mem_append.mp hPiece with hPiece | hPiece
      · exact h piece (mem_append_left _ hPiece)
      · rw [mem_singleton.mp hPiece]
        exact hFits _ (not_lt.mp hSmall)

/-- What holds of the words of a span, and of all that fits, holds of its pieces. -/
theorem forall_splitOversized (hWord : ∀ word ∈ words text span, holds word)
    (hFits : ∀ piece, estimateTokens (slice text piece) ≤ maxTokens → holds piece) :
    ∀ piece ∈ splitOversized text span maxTokens, holds piece := by
  have hRun : ∀ (found : List Span) (s : Splitting), (∀ word ∈ found, holds word) →
      (∀ piece ∈ s.pieces ++ s.piece.toList, holds piece) →
      ∀ piece ∈ (found.foldl (Splitting.add text maxTokens) s).pieces ++
        (found.foldl (Splitting.add text maxTokens) s).piece.toList, holds piece := by
    intro found
    induction found with
    | nil => exact fun s _ h => h
    | cons word rest ih =>
      intro s hFound h
      obtain ⟨hFirst, hRest⟩ := forall_mem_cons.mp hFound
      exact ih _ hRest (Splitting.forall_add h hFirst hFits)
  exact hRun _ {} hWord nofun

end Splitting

theorem wordCount_splitOversized (hSpan : span.start ≤ span.stop) (hMax : 1 ≤ maxTokens) :
    ∀ piece ∈ splitOversized text span maxTokens, wordCount (slice text piece) ≤ maxTokens := by
  apply forall_splitOversized
  · intro word hWord
    exact (wordCount_word hSpan hWord).trans hMax
  · intro piece hFits
    exact (wordCount_le_estimateTokens _).trans hFits

/-- All text of an atom is in its pieces, once, and each of these fits or is a single word. -/
structure SplitsWell (text : List Char) (atom : Span) (maxTokens : Nat) (pieces : List Span) :
    Prop where
  inOrder : InOrder pieces
  within : ∀ piece ∈ pieces, piece.Within atom
  once : ∀ p, atom.Contains p → TextAt text 0 p →
    pieces.countP (fun piece => piece.Contains p) = 1
  fits : ∀ piece ∈ pieces, estimateTokens (slice text piece) ≤ maxTokens ∨ piece ∈ words text atom

theorem splitsWell (text : List Char) (atom : Span) (maxTokens : Nat) :
    SplitsWell text atom maxTokens (splitOversized text atom maxTokens) := by
  have hOrder : InOrder (splitOversized text atom maxTokens) ∧
      ∀ piece ∈ splitOversized text atom maxTokens, piece.Within atom := by
    by_cases hProper : atom.start ≤ atom.stop
    · exact splitOversized_inOrder text hProper maxTokens
    · have hSlice : slice text atom = [] := by
        apply drop_eq_nil_of_le
        rw [length_take]
        omega
      have hNone : splitOversized text atom maxTokens = [] := by
        rw [splitOversized, words, hSlice]
        rfl
      rw [hNone]
      exact ⟨inOrder_nil, nofun⟩
  refine ⟨hOrder.1, hOrder.2, ?_, ?_⟩
  · intro p hAtom hText
    exact hOrder.1.countP_contains (exists_contains_splitOversized hAtom hText maxTokens)
  · apply forall_splitOversized
    · intro word hWord
      exact .inr hWord
    · intro piece hFits
      exact .inl hFits

/-- Neither cutting atoms nor grouping them loses anything. -/
theorem nothing_lost (text : List Char) (maxTokens : Nat) :
    (∀ atom, SplitsWell text atom maxTokens (splitOversized text atom maxTokens)) ∧
      ∀ atoms maximum target mergeTail groupCount, ∃ groups, Packs atoms groups ∧
        groupAtoms atoms text maximum target mergeTail groupCount = groups.map hull := by
  constructor
  · intro atom
    exact splitsWell text atom maxTokens
  · intro atoms maximum target mergeTail groupCount
    exact exists_packs_groupAtoms atoms text maximum target mergeTail groupCount

/-- No atom has more words than its tier has tokens. -/
theorem wordCount_fittingAtoms (hAtoms : InOrder atoms) (hMax : 1 ≤ maxTokens) :
    ∀ atom ∈ fittingAtoms text maxTokens atoms, wordCount (slice text atom) ≤ maxTokens := by
  intro atom hAtom
  obtain ⟨whole, hWhole, hPart⟩ := mem_flatMap.mp hAtom
  split at hPart
  next => exact wordCount_splitOversized (hAtoms.proper whole hWhole).le hMax atom hPart
  next hFits =>
    rw [mem_singleton.mp hPart]
    exact (wordCount_le_estimateTokens _).trans (not_lt.mp hFits)

theorem dense_sentences (text : List Char) (s : DocumentSection) :
    Dense text (sentences text s) := by
  rintro p hText ⟨first, hFirst, hFrom⟩ ⟨last, hLast, hTo⟩
  obtain ⟨-, hWithin⟩ := sentenceAtoms_inOrder (slice text s.span) s.startChar
  have hLength : (slice text s.span).length ≤ s.endChar - s.startChar := by
    simp only [slice, DocumentSection.span, length_drop, length_take]
    omega
  have hStart := (hWithin first hFirst).1
  have hStop := (hWithin last hLast).2
  dsimp only at hStart hStop
  exact exists_contains_sentences ⟨hStart.trans hFrom, show p < s.endChar by omega⟩ hText

theorem Dense.filter_within (h : Dense text atoms) (hOrder : InOrder atoms) (unit : Span) :
    Dense text (atoms.filter fun atom => atom.Within unit) := by
  rintro p hText ⟨first, hFirst, hFrom⟩ ⟨last, hLast, hTo⟩
  obtain ⟨hFirst, hFirstIn⟩ := mem_filter.mp hFirst
  obtain ⟨hLast, hLastIn⟩ := mem_filter.mp hLast
  obtain ⟨atom, hAtom, hContains⟩ := h p hText ⟨first, hFirst, hFrom⟩ ⟨last, hLast, hTo⟩
  refine ⟨atom, mem_filter.mpr ⟨hAtom, decide_eq_true ⟨?_, ?_⟩⟩, hContains⟩
  · have hUnit := (of_decide_eq_true hFirstIn).1
    have hProper := hOrder.proper first hFirst
    rcases hOrder.eq_or_before hAtom hFirst with rfl | hBefore | hAfter
    · exact hUnit
    · exact absurd (hContains.2.trans_le (hBefore.trans hFrom)) (lt_irrefl p)
    · omega
  · have hUnit := (of_decide_eq_true hLastIn).2
    have hProper := hOrder.proper last hLast
    rcases hOrder.eq_or_before hAtom hLast with rfl | hBefore | hAfter
    · exact hUnit
    · omega
    · exact absurd (hTo.trans_le (hAfter.trans hContains.1)) (lt_irrefl p)

theorem Dense.fittingAtoms (h : Dense text atoms) (hOrder : InOrder atoms) (maxTokens : Nat) :
    Dense text (fittingAtoms text maxTokens atoms) := by
  rintro p hText ⟨first, hFirst, hFrom⟩ ⟨last, hLast, hTo⟩
  obtain ⟨front, hFront, hFirstIn⟩ := exists_atom_of_mem_fittingAtoms hOrder hFirst
  obtain ⟨back, hBack, hLastIn⟩ := exists_atom_of_mem_fittingAtoms hOrder hLast
  obtain ⟨atom, hAtom, hContains⟩ := h p hText ⟨front, hFront, hFirstIn.1.trans hFrom⟩
    ⟨back, hBack, hTo.trans_le hLastIn.2⟩
  exact exists_contains_fittingAtoms hAtom hContains hText maxTokens

/-- Spans that follow one another are dense among themselves. -/
theorem Dense.of_append {before after : List Span} (h : Dense text (before ++ (run ++ after)))
    (hOrder : InOrder (before ++ (run ++ after))) : Dense text run := by
  rintro p hText ⟨first, hFirst, hFrom⟩ ⟨last, hLast, hTo⟩
  obtain ⟨-, hRest, hBefore⟩ := inOrder_append.mp hOrder
  obtain ⟨-, -, hAfter⟩ := inOrder_append.mp hRest
  have hMem : ∀ s ∈ run, s ∈ before ++ (run ++ after) := by simp +contextual
  obtain ⟨atom, hAtom, hContains⟩ := h p hText ⟨first, hMem first hFirst, hFrom⟩
    ⟨last, hMem last hLast, hTo⟩
  rcases mem_append.mp hAtom with hAtom | hAtom
  · have hStop := hBefore atom hAtom first (mem_append_left _ hFirst)
    exact absurd (hContains.2.trans_le (hStop.trans hFrom)) (lt_irrefl p)
  · rcases mem_append.mp hAtom with hAtom | hAtom
    · exact ⟨atom, hAtom, hContains⟩
    · have hStart := hAfter last hLast atom hAtom
      exact absurd (hTo.trans_le (hStart.trans hContains.1)) (lt_irrefl p)

/-- Between the spans there is only white space, so there are no words but theirs. -/
theorem wordCount_hull_le (hDense : Dense text run) (hOrder : InOrder run) (hRun : run ≠ []) :
    wordCount (slice text (hull run)) ≤ (run.map fun s => wordCount (slice text s)).sum := by
  induction run using List.reverseRecOn with
  | nil => exact absurd rfl hRun
  | append_singleton front last ih =>
    rw [map_append, sum_append, map_singleton, sum_singleton]
    by_cases hFront : front = []
    · subst hFront
      rw [nil_append, hull_singleton]
      simp
    obtain ⟨hFrontOrder, hLastOrder, hBetween⟩ := inOrder_append.mp hOrder
    have hFrontDense : Dense text front := by
      have hSame : front ++ [last] = [] ++ (front ++ [last]) := rfl
      rw [hSame] at hDense hOrder
      exact hDense.of_append hOrder
    have hCount := ih hFrontDense hFrontOrder hFront
    obtain ⟨first, hFirst, hStart⟩ := exists_start_hull hFront
    obtain ⟨back, hBack, hStop⟩ := exists_stop_hull hFront
    have hProper : (hull front).start ≤ (hull front).stop := by
      rw [hStart]
      exact (hFrontOrder.proper first hFirst).le.trans (hFrontOrder.within_hull hFirst).2
    have hStopLe : (hull front).stop ≤ last.start := by
      rw [hStop]
      exact hBetween back hBack last (mem_singleton_self last)
    have hLastProper := hLastOrder.proper last (mem_singleton_self last)
    have hGap : wordCount (slice text ⟨(hull front).stop, last.start⟩) = 0 := by
      by_contra hWords
      obtain ⟨p, hContains, hText⟩ := exists_textAt_of_wordCount hWords
      have hFrom : first.start ≤ p := by
        rw [← hStart]
        exact hProper.trans hContains.1
      obtain ⟨atom, hAtom, hIn⟩ := hDense p hText ⟨first, mem_append_left _ hFirst, hFrom⟩
        ⟨last, by simp, hContains.2.trans hLastProper⟩
      rcases mem_append.mp hAtom with hAtom | hAtom
      · have hEnd := (hFrontOrder.within_hull hAtom).2
        exact absurd (hIn.2.trans_le (hEnd.trans hContains.1)) (lt_irrefl p)
      · rw [mem_singleton.mp hAtom] at hIn
        exact absurd (hContains.2.trans_le hIn.1) (lt_irrefl p)
    have hSlice : slice text ⟨(hull front).start, last.stop⟩ = slice text (hull front) ++
        (slice text ⟨(hull front).stop, last.start⟩ ++ slice text last) := by
      rw [slice_append hProper (hStopLe.trans hLastProper.le), slice_append hStopLe hLastProper.le]
    rw [hull_concat hFront, hSlice]
    have hOuter := @countWords_append_le false (slice text (hull front))
      (slice text ⟨(hull front).stop, last.start⟩ ++ slice text last)
    have hInner := @countWords_append_le false (slice text ⟨(hull front).stop, last.start⟩)
      (slice text last)
    unfold wordCount at hGap hCount ⊢
    omega

end Atoms

/-! ## Windows -/

/-- How windows are filled with the tokens of their atoms. -/
def tokenFilling (text : List Char) (cap share : Nat) : Filling Span where
  size span := estimateTokens (slice text span)
  cap := cap
  share := share

/-- How many groups may be complete because they have their share. -/
def earlyGroups (ideal : Option Nat) (groupCount : Nat) : Nat :=
  if ideal.isSome then groupCount - 1 else 0

section Packing

variable {maximum early : Nat} {f : Filling Span} {p : Packing} {span : Span} {rest : List Span}
  {result : List (List Span)}

/-- The group is complete if the span is too large for it. -/
def Packing.makeRoom (f : Filling Span) (p : Packing) (span : Span) : Packing :=
  if p.current ≠ [] ∧ f.cap < p.currentTokens + f.size span then p.flush else p

def Packing.take (f : Filling Span) (p : Packing) (span : Span) : Packing :=
  { p with
    current := p.current ++ [span]
    currentTokens := p.currentTokens + f.size span }

/-- The group is complete if it has its share. -/
def Packing.settle (f : Filling Span) (early : Nat) (p : Packing) : Packing :=
  if early - p.groups.length ≠ 0 ∧ f.share ≤ p.currentTokens then p.flush else p

theorem Packing.add_eq (p : Packing) (text : List Char) (maximum : Nat) (ideal : Option Nat)
    (groupCount : Nat) (span : Span) :
    p.add text maximum ideal groupCount span =
      ((p.makeRoom (tokenFilling text maximum (ideal.getD 0)) span).take
        (tokenFilling text maximum (ideal.getD 0)) span).settle
          (tokenFilling text maximum (ideal.getD 0)) (earlyGroups ideal groupCount) := by
  cases ideal with
  | none =>
    rw [settle, if_neg (fun h => h.1 (Nat.zero_sub _))]
    rfl
  | some share =>
    simp only [settle, Nat.sub_ne_zero_iff_lt]
    rfl

/-- The tokens of the group that spans are added to, and how it came to be. -/
structure Packing.Taken (p : Packing) (f : Filling Span) (early : Nat) : Prop where
  tokens : p.currentTokens = f.total p.current
  takes : ∀ front last, p.current = front ++ [last] → f.Takes (early - p.groups.length) front last

/-- The group that spans are added to is not complete. -/
structure Packing.Ready (p : Packing) (f : Filling Span) (early : Nat) : Prop
    extends p.Taken f early where
  unfilled : p.current ≠ [] → ¬ f.Full (early - p.groups.length) p.current

/-- The groups that there are, with others that the spans fill, are the result. -/
def Packing.Leads (p : Packing) (f : Filling Span) (early : Nat) (rest : List Span)
    (result : List (List Span)) : Prop :=
  ∃ runs, f.Fills (early - p.groups.length) (p.current ++ rest) runs ∧ result = p.groups ++ runs

theorem Packing.ready_flush (p : Packing) (f : Filling Span) (early : Nat) :
    p.flush.Ready f early where
  tokens := rfl
  unfilled hNe := absurd rfl hNe
  takes front last hNil := by simp [flush] at hNil

theorem Packing.ready_empty (f : Filling Span) (early : Nat) : ({} : Packing).Ready f early where
  tokens := rfl
  unfilled hNe := absurd rfl hNe
  takes front last hNil := by simp at hNil

theorem Packing.Leads.of_flush (hTaken : p.Taken f early) (hNe : p.current ≠ [])
    (hComplete : f.Complete (early - p.groups.length) p.current rest)
    (h : p.flush.Leads f early rest result) : p.Leads f early rest result := by
  obtain ⟨runs, hFills, rfl⟩ := h
  obtain ⟨front, last, hCurrent⟩ := (eq_nil_or_concat p.current).resolve_left hNe
  rw [concat_eq_append] at hCurrent
  have hEarly : early - p.flush.groups.length = early - p.groups.length - 1 := by
    simp only [flush, length_append, length_singleton]
    omega
  rw [hEarly] at hFills
  refine ⟨(front ++ [last]) :: runs, ?_, ?_⟩
  · rw [hCurrent] at hComplete ⊢
    rw [append_assoc, singleton_append]
    exact .run (hTaken.takes front last hCurrent) hComplete hFills
  · rw [flush, hCurrent, append_assoc, singleton_append]

theorem Packing.Ready.makeRoom (h : p.Ready f early) :
    (p.makeRoom f span).Ready f early ∧
      ((p.makeRoom f span).current ≠ [] →
        (p.makeRoom f span).currentTokens + f.size span ≤ f.cap) ∧
      ((p.makeRoom f span).Leads f early (span :: rest) result →
        p.Leads f early (span :: rest) result) := by
  unfold Packing.makeRoom
  split
  next hLarge =>
    refine ⟨p.ready_flush f early, fun hNe => absurd rfl hNe, ?_⟩
    apply Leads.of_flush h.toTaken hLarge.1
    refine .inr ?_
    rintro next ⟨⟩
    rw [← h.tokens]
    exact hLarge.2
  next hSmall => exact ⟨h, fun hNe => not_lt.mp fun hLarge => hSmall ⟨hNe, hLarge⟩, id⟩

theorem Packing.Ready.take (h : p.Ready f early)
    (hFits : p.current ≠ [] → p.currentTokens + f.size span ≤ f.cap) :
    (p.take f span).Taken f early where
  tokens := by
    rw [Packing.take, Filling.total_append, ← h.tokens]
    rfl
  takes front last hSame hNe := by
    obtain ⟨rfl, hLast⟩ := append_inj' hSame rfl
    obtain ⟨rfl, -⟩ := List.cons.inj hLast
    refine ⟨h.unfilled hNe, ?_⟩
    rw [← h.tokens]
    exact hFits hNe

theorem Packing.Taken.settle (h : p.Taken f early) (hNe : p.current ≠ []) :
    (p.settle f early).Ready f early ∧
      ((p.settle f early).Leads f early rest result → p.Leads f early rest result) := by
  unfold Packing.settle
  split
  next hShare =>
    refine ⟨p.ready_flush f early, Leads.of_flush h hNe (.inl ⟨hShare.1, ?_⟩)⟩
    rw [← h.tokens]
    exact hShare.2
  next hShare =>
    refine ⟨⟨h, fun _ hFull => hShare ⟨hFull.1, ?_⟩⟩, id⟩
    rw [h.tokens]
    exact hFull.2

theorem Packing.Ready.add {ideal : Option Nat} {groupCount : Nat}
    (hFilling : f = tokenFilling text maximum (ideal.getD 0))
    (hEarly : early = earlyGroups ideal groupCount) (h : p.Ready f early) :
    (p.add text maximum ideal groupCount span).Ready f early ∧
      ((p.add text maximum ideal groupCount span).Leads f early rest result →
        p.Leads f early (span :: rest) result) := by
  obtain ⟨hRoom, hFits, hBefore⟩ := @Ready.makeRoom early f p span rest result h
  obtain ⟨hReady, hAfter⟩ := @Taken.settle early f _ rest result (hRoom.take hFits)
    (by simp [Packing.take])
  rw [Packing.add_eq, ← hFilling, ← hEarly]
  refine ⟨hReady, fun hNext => hBefore ?_⟩
  obtain ⟨runs, hFills, hResult⟩ := hAfter hNext
  refine ⟨runs, ?_, hResult⟩
  rwa [Packing.take, append_assoc] at hFills

theorem Packing.close_false (p : Packing) (target : Nat) :
    p.close target false = if p.current = [] then p.groups else p.groups ++ [p.current] := by
  unfold Packing.close
  split
  next => rfl
  next => split <;> simp

theorem Packing.Ready.foldl {ideal : Option Nat} {groupCount : Nat}
    (hFilling : f = tokenFilling text maximum (ideal.getD 0))
    (hEarly : early = earlyGroups ideal groupCount) (atoms : List Span) (target : Nat)
    (h : p.Ready f early) :
    (atoms.foldl (Packing.add text maximum ideal groupCount) p).Ready f early ∧
      p.Leads f early atoms
        ((atoms.foldl (Packing.add text maximum ideal groupCount) p).close target false) := by
  induction atoms generalizing p with
  | nil =>
    refine ⟨h, ?_⟩
    rw [foldl_nil, Packing.close_false]
    split
    next hNil =>
      refine ⟨[], ?_, (append_nil _).symm⟩
      rw [hNil]
      exact .nil
    next hNe =>
      refine Packing.Leads.of_flush h.toTaken hNe (.inr nofun) ⟨[], .nil, ?_⟩
      rw [append_nil]
      rfl
  | cons span rest ih =>
    have hStep := fun result => @Ready.add _ _ _ _ p span rest result _ _ hFilling hEarly h
    obtain ⟨hReady, hLeads⟩ := ih (hStep []).1
    exact ⟨hReady, (hStep _).2 hLeads⟩

/-- The groups that are made of atoms are the runs that they fill. -/
theorem exists_fills_groupAtoms (atoms : List Span) (text : List Char) (maximum target : Nat)
    (groupCount : Option Nat) :
    ∃ runs, (tokenFilling text maximum ((idealShare text atoms groupCount).getD 0)).Fills
        (earlyGroups (idealShare text atoms groupCount) (groupCount.getD 0)) atoms runs ∧
      groupAtoms atoms text maximum target false groupCount = runs.map hull := by
  obtain ⟨-, runs, hFills, hResult⟩ := Packing.Ready.foldl rfl rfl atoms target
    (Packing.ready_empty (tokenFilling text maximum ((idealShare text atoms groupCount).getD 0))
      (earlyGroups (idealShare text atoms groupCount) (groupCount.getD 0)))
  exact ⟨runs, hFills, congrArg (List.map hull) hResult⟩

/-- With a tail that is merged, a short last run is joined to the one before it. -/
theorem Packing.joined_close (hTokens : p.currentTokens = f.total p.current) (hNe : p.current ≠ [])
    (target : Nat) : f.Joined target (p.close target false) (p.close target true) := by
  rw [Packing.close_false, if_neg hNe]
  unfold Packing.close
  rw [if_neg hNe]
  split
  next previous hLast =>
    obtain ⟨front, hGroups⟩ := List.getLast?_eq_some_iff.mp hLast
    have hRuns : p.groups ++ [p.current] = front ++ [previous, p.current] := by
      rw [hGroups, append_assoc, singleton_append]
    split
    next hShort =>
      refine .inl ⟨front, previous, p.current, ⟨hRuns, hTokens ▸ hShort.2⟩, ?_⟩
      rw [hGroups, dropLast_concat]
    next hLarge =>
      refine .inr ⟨?_, rfl⟩
      rintro front' previous' last' ⟨hSame, hShort⟩
      obtain ⟨-, hTail⟩ := append_inj' (hRuns.symm.trans hSame) rfl
      obtain ⟨-, hEnd⟩ := List.cons.inj hTail
      rw [← singleton_inj.mp hEnd, ← hTokens] at hShort
      exact hLarge ⟨rfl, hShort⟩
  next hNone =>
    refine .inr ⟨?_, rfl⟩
    rintro front previous last ⟨hSame, -⟩
    rw [List.getLast?_eq_none_iff.mp hNone] at hSame
    have hLength := congrArg List.length hSame
    simp at hLength

theorem exists_fills_groupAtoms_merged (atoms : List Span) (text : List Char)
    (maximum target : Nat) :
    ∃ runs groups, (tokenFilling text maximum 0).Fills 0 atoms runs ∧
      (tokenFilling text maximum 0).Joined target runs groups ∧
      groupAtoms atoms text maximum target true none = groups.map hull := by
  obtain ⟨hReady, runs, hFills, hResult⟩ :=
    @Packing.Ready.foldl text maximum 0 (tokenFilling text maximum 0) {} none 0 rfl rfl atoms target
      (Packing.ready_empty _ _)
  refine ⟨runs, _, hFills, ?_, rfl⟩
  have hRuns : runs = (atoms.foldl (Packing.add text maximum none 0) {}).close target false :=
    hResult.symm
  rw [hRuns]
  rcases eq_nil_or_concat atoms with rfl | ⟨front, last, rfl⟩
  · refine .inr ⟨?_, rfl⟩
    rintro front previous last ⟨hSame, -⟩
    have hLength := congrArg List.length hSame
    simp [Packing.close] at hLength
  · refine Packing.joined_close hReady.tokens ?_ target
    rw [concat_eq_append, foldl_append, foldl_cons, foldl_nil, Packing.add_eq,
      Packing.settle, if_neg (fun h => h.1 (Nat.zero_sub _))]
    simp [Packing.take]

end Packing

end Glasslab.Corpus
