import Glasslab.Corpus.Chunking

/-!
# What the chunks of a document cover

Sentences, words, the pieces of a sentence and the groups of a tier come in order, within the text
they were made from, and only white space is left out between them. Every position of the text that
is not white space is therefore in one section unit, and in at most one evidence span.

The evidence of a unit is made from the sentences that are within it. A sentence that is too large
for a unit is cut, and where its pieces come to be in different units it is within none of them:
then no evidence span has any of its text. Nothing is lost exactly if that does not happen, and if
no chunk consists of nothing but characters that cannot be stored (`noTextLost_iff`).
-/

namespace Glasslab.Corpus

open Foundation Span List

/-- Characters that start at a position have one at `p`, and it is not white space. -/
def TextAt (chars : List Char) (position p : Nat) : Prop :=
  position ≤ p ∧ ∃ c, chars[p - position]? = some c ∧ isSpace c = false

@[simp] theorem not_textAt_nil (position p : Nat) : ¬ TextAt [] position p := by
  rintro ⟨_, c, hChar, _⟩
  cases hChar

theorem textAt_cons {c : Char} {rest : List Char} {position p : Nat} :
    TextAt (c :: rest) position p ↔
      p = position ∧ isSpace c = false ∨ TextAt rest (position + 1) p := by
  constructor
  · rintro ⟨hLe, found, hChar, hSpace⟩
    rcases hLe.eq_or_lt with rfl | hLt
    · rw [Nat.sub_self] at hChar
      cases hChar
      exact .inl ⟨rfl, hSpace⟩
    · refine .inr ⟨hLt, found, ?_, hSpace⟩
      rwa [show p - position = p - (position + 1) + 1 by omega, List.getElem?_cons_succ] at hChar
  · rintro (⟨rfl, hSpace⟩ | ⟨hLt, found, hChar, hSpace⟩)
    · exact ⟨le_rfl, c, by simp, hSpace⟩
    · refine ⟨by omega, found, ?_, hSpace⟩
      rwa [show p - position = p - (position + 1) + 1 by omega, List.getElem?_cons_succ]

variable {span : Span} {text : List Char}

theorem textAt_slice {p : Nat} :
    TextAt (slice text span) span.start p ↔ span.Contains p ∧ TextAt text 0 p := by
  have hChar (hLe : span.start ≤ p) :
      (slice text span)[p - span.start]? = if p < span.stop then text[p]? else none := by
    rw [slice, List.getElem?_drop, List.getElem?_take, Nat.add_sub_cancel' hLe]
  constructor
  · rintro ⟨hLe, c, hFound, hSpace⟩
    rw [hChar hLe] at hFound
    split at hFound
    next hLt => exact ⟨⟨hLe, hLt⟩, Nat.zero_le p, c, hFound, hSpace⟩
    next => cases hFound
  · rintro ⟨⟨hLe, hLt⟩, _, c, hFound, hSpace⟩
    refine ⟨hLe, c, ?_, hSpace⟩
    rw [hChar hLe, if_pos hLt]
    exact hFound

theorem length_slice_le (text : List Char) (span : Span) (h : span.start ≤ span.stop) :
    span.start + (slice text span).length ≤ span.stop := by
  simp only [slice, length_drop, length_take]
  omega

/-! ## Words -/

variable {chars : List Char}

section Words

variable {position : Nat} {entered : Option Nat} {rest text : List Char}

theorem wordSpans_space {c : Char} (h : isSpace c = true) :
    wordSpans position entered (c :: rest) =
      (entered.toList.map fun start => ⟨start, position⟩) ++ wordSpans
    (position + 1) none rest := by
  cases entered <;> simp [wordSpans, h]

theorem wordSpans_text {c : Char} (h : isSpace c = false) :
    wordSpans position entered (c :: rest) =
      wordSpans (position + 1) (some (entered.getD position)) rest := by
  cases entered <;> simp [wordSpans, h]

/-- Words come in order, from where the first one was entered on. -/
theorem wordSpans_inOrder (hEntered : ∀ start, entered = some start → start < position) :
    InOrder (wordSpans position entered chars) ∧
      ∀ s ∈ wordSpans position entered chars,
        s.Within ⟨entered.getD position, position + chars.length⟩ := by
  induction chars generalizing position entered with
  | nil =>
    cases entered with
    | some start =>
      have hProper : start < position := hEntered start rfl
      refine ⟨inOrder_singleton hProper, fun s hs => ?_⟩
      rw [mem_singleton.mp hs]
      exact ⟨le_rfl, le_rfl⟩
    | none => exact ⟨inOrder_nil, nofun⟩
  | cons c rest ih =>
    rw [length_cons]
    cases hSpace : isSpace c with
    | true =>
      obtain ⟨hInOrder, hWithin⟩ := @ih (position + 1) none nofun
      rw [wordSpans_space hSpace]
      simp only [Span.Within, Option.getD_none] at hWithin
      cases entered with
      | some start =>
        have hProper : start < position := hEntered start rfl
        refine ⟨inOrder_append.mpr ⟨inOrder_singleton hProper, hInOrder, ?_⟩, ?_⟩
        · intro s hs t ht
          rw [mem_singleton.mp hs]
          have hStart := (hWithin t ht).1
          exact (Nat.le_succ position).trans hStart
        · intro s hs
          rcases mem_append.mp hs with hs | hs
          · rw [mem_singleton.mp hs]
            exact ⟨le_rfl, by dsimp only; omega⟩
          · obtain ⟨hStart, hStop⟩ := hWithin s hs
            exact ⟨by dsimp only [Option.getD_some]; omega, by dsimp only; omega⟩
      | none =>
        refine ⟨hInOrder, fun s hs => ?_⟩
        obtain ⟨hStart, hStop⟩ := hWithin s hs
        exact ⟨by dsimp only [Option.getD_none]; omega, by dsimp only; omega⟩
    | false =>
      rw [wordSpans_text hSpace]
      have hStart : entered.getD position < position + 1 := by
        cases entered with
        | some start => exact (hEntered start rfl).trans (Nat.lt_succ_self position)
        | none => exact Nat.lt_succ_self position
      obtain ⟨hInOrder, hWithin⟩ := @ih (position + 1) (some (entered.getD position))
        (fun start h => by cases h; exact hStart)
      refine ⟨hInOrder, fun s hs => ?_⟩
      obtain ⟨hFrom, hTo⟩ := hWithin s hs
      exact ⟨hFrom, by dsimp only at hTo ⊢; omega⟩

theorem exists_contains_wordSpans {p : Nat}
    (hEntered : ∀ start, entered = some start → start < position)
    (h : (∃ start, entered = some start ∧ start ≤ p ∧ p < position) ∨ TextAt chars position p) :
    ∃ s ∈ wordSpans position entered chars, s.Contains p := by
  induction chars generalizing position entered with
  | nil =>
    rcases h with ⟨start, rfl, hStart, hStop⟩ | h
    · exact ⟨⟨start, position⟩, mem_singleton_self _, hStart, hStop⟩
    · exact absurd h (not_textAt_nil _ _)
  | cons c rest ih =>
    cases hSpace : isSpace c with
    | true =>
      rw [wordSpans_space hSpace]
      rcases h with ⟨start, rfl, hStart, hStop⟩ | h
      · exact ⟨⟨start, position⟩, mem_append_left _ (mem_singleton_self _), hStart, hStop⟩
      · rcases textAt_cons.mp h with ⟨_, hOther⟩ | h
        · rw [hSpace] at hOther
          cases hOther
        · obtain ⟨s, hs, hContains⟩ := @ih (position + 1) none nofun (.inr h)
          exact ⟨s, mem_append_right _ hs, hContains⟩
    | false =>
      rw [wordSpans_text hSpace]
      have hStart : entered.getD position ≤ position := by
        cases entered with
        | some start => exact (hEntered start rfl).le
        | none => exact le_rfl
      refine ih (fun start h => by cases h; omega) ?_
      rcases h with ⟨start, rfl, hFrom, hTo⟩ | h
      · exact .inl ⟨start, rfl, hFrom, by omega⟩
      · rcases textAt_cons.mp h with ⟨rfl, _⟩ | h
        · exact .inl ⟨_, rfl, hStart, Nat.lt_succ_self p⟩
        · exact .inr h

theorem exists_textAt_of_wordSpans (h : wordSpans position none chars ≠ []) :
    ∃ p, TextAt chars position p := by
  induction chars generalizing position with
  | nil => exact absurd rfl h
  | cons c rest ih =>
    cases hSpace : isSpace c with
    | true =>
      rw [wordSpans_space hSpace] at h
      obtain ⟨p, hp⟩ := ih h
      exact ⟨p, textAt_cons.mpr (.inr hp)⟩
    | false => exact ⟨position, textAt_cons.mpr (.inl ⟨rfl, hSpace⟩)⟩

theorem words_inOrder (text : List Char) (h : span.start ≤ span.stop) :
    InOrder (words text span) ∧ ∀ s ∈ words text span, s.Within span := by
  obtain ⟨hInOrder, hWithin⟩ :=
    @wordSpans_inOrder (slice text span) span.start none nofun
  refine ⟨hInOrder, fun s hs => ⟨(hWithin s hs).1, (hWithin s hs).2.trans ?_⟩⟩
  exact length_slice_le text span h

theorem exists_contains_words {p : Nat} (hSpan : span.Contains p)
    (hText : TextAt text 0 p) : ∃ s ∈ words text span, s.Contains p :=
  exists_contains_wordSpans nofun (.inr (textAt_slice.mpr ⟨hSpan, hText⟩))

theorem exists_textAt_of_estimateTokens
    (h : 1 < estimateTokens (slice text span)) : ∃ p, span.Contains p ∧ TextAt text 0 p := by
  have hWords : wordSpans 0 none (slice text span) ≠ [] := by
    intro hNil
    rw [estimateTokens, hNil] at h
    exact absurd h (lt_irrefl 1)
  obtain ⟨p, _, c, hChar, hSpace⟩ := exists_textAt_of_wordSpans hWords
  refine ⟨span.start + p, textAt_slice.mp ⟨Nat.le_add_right _ _, c, ?_, hSpace⟩⟩
  rwa [Nat.add_sub_cancel_left]

end Words

section Sentences

variable {start position : Nat} {scan : Scan}

/-- One after the other, the texts between the ends of sentences. Some may be empty. -/
theorem sentenceSpans_ordered (h : start ≤ position) :
    ((sentenceSpans start position scan chars).Pairwise fun s t => s.stop ≤ t.start) ∧
      ∀ s ∈ sentenceSpans start position scan chars,
        s.Within ⟨start, position + chars.length⟩ := by
  induction chars generalizing start position scan with
  | nil =>
    have hEnd : sentenceSpans start position scan [] = [⟨start, position⟩] := by
      rw [sentenceSpans]
    refine ⟨pairwise_singleton _ _, fun s hs => ?_⟩
    rw [mem_singleton.mp hs]
    exact ⟨le_rfl, le_rfl⟩
  | cons c rest ih =>
    rw [length_cons]
    have hStay : ((sentenceSpans start (position + 1) (.sentence (endsSentence c)) rest).Pairwise
        fun s t => s.stop ≤ t.start) ∧
        ∀ s ∈ sentenceSpans start (position + 1) (.sentence (endsSentence c)) rest,
          s.Within ⟨start, position + (rest.length + 1)⟩ := by
      obtain ⟨hOrdered, hWithin⟩ := @ih start (position + 1) (.sentence (endsSentence c)) (by omega)
      refine ⟨hOrdered, fun s hs => ?_⟩
      obtain ⟨hFrom, hTo⟩ := hWithin s hs
      exact ⟨hFrom, by dsimp only at hTo ⊢; omega⟩
    obtain ⟨hGap, hGapWithin⟩ := @ih (position + 1) (position + 1) .gap le_rfl
    cases scan with
    | sentence ended =>
      rw [sentenceSpans]
      split
      next =>
        refine ⟨pairwise_cons.mpr ⟨fun t ht => ?_, hGap⟩, fun s hs => ?_⟩
        · have hFrom : position + 1 ≤ t.start := (hGapWithin t ht).1
          exact (Nat.le_succ position).trans hFrom
        · rcases mem_cons.mp hs with rfl | hs
          · exact ⟨le_rfl, by dsimp only; omega⟩
          · obtain ⟨hFrom, hTo⟩ := hGapWithin s hs
            dsimp only at hFrom hTo
            exact ⟨by dsimp only; omega, by dsimp only; omega⟩
      next => exact hStay
    | gap =>
      rw [sentenceSpans]
      split
      next =>
        refine ⟨hGap, fun s hs => ?_⟩
        obtain ⟨hFrom, hTo⟩ := hGapWithin s hs
        dsimp only at hFrom hTo
        exact ⟨by dsimp only; omega, by dsimp only; omega⟩
      next => exact hStay

theorem exists_contains_sentenceSpans {p : Nat} (hStart : start ≤ position)
    (hGap : ∀ q, scan = .gap → ¬ (start ≤ q ∧ q < position))
    (h : start ≤ p ∧ p < position ∨ TextAt chars position p) :
    ∃ s ∈ sentenceSpans start position scan chars, s.Contains p := by
  induction chars generalizing start position scan with
  | nil =>
    rcases h with h | h
    · exact ⟨⟨start, position⟩, by simp [sentenceSpans], h⟩
    · exact absurd h (not_textAt_nil _ _)
  | cons c rest ih =>
    have hStay : ∃ s ∈ sentenceSpans start (position + 1) (.sentence (endsSentence c)) rest,
        s.Contains p := by
      refine ih (by omega) nofun ?_
      rcases h with h | h
      · exact .inl ⟨h.1, by omega⟩
      · rcases textAt_cons.mp h with ⟨rfl, _⟩ | h
        · exact .inl ⟨hStart, Nat.lt_succ_self p⟩
        · exact .inr h
    have hSkip (hSpace : isSpace c = true) (hText : TextAt (c :: rest) position p) :
        ∃ s ∈ sentenceSpans (position + 1) (position + 1) .gap rest, s.Contains p := by
      rcases textAt_cons.mp hText with ⟨_, hOther⟩ | hText
      · rw [hSpace] at hOther
        cases hOther
      · exact ih le_rfl (fun q _ hq => absurd hq.1 (not_le.mpr hq.2)) (.inr hText)
    cases scan with
    | sentence ended =>
      rw [sentenceSpans]
      split
      next hEnd =>
        rcases h with h | h
        · exact ⟨⟨start, position⟩, mem_cons_self, h⟩
        · obtain ⟨s, hs, hContains⟩ := hSkip hEnd.2 h
          exact ⟨s, mem_cons_of_mem _ hs, hContains⟩
      next => exact hStay
    | gap =>
      rw [sentenceSpans]
      split
      next hSpace =>
        rcases h with h | h
        · exact absurd h (hGap p rfl)
        · exact hSkip hSpace h
      next => exact hStay

end Sentences

/-! ## Pieces and groups -/

/-- The words that were read are in the pieces: some in complete ones, and the others in the one
that words are added to. -/
def Splitting.Holds (s : Splitting) (read : List Span) : Prop :=
  ∃ (groups : List (List Span)) (current : List Span),
    groups.flatten ++ current = read ∧ (∀ group ∈ groups, group ≠ []) ∧
    s.pieces = groups.map hull ∧
    (current = [] ∧ s.piece = none ∨ current ≠ [] ∧ s.piece = some (hull current))

variable {read : List Span}

theorem Splitting.Holds.add {s : Splitting} (h : s.Holds read)
    (text : List Char) (maxTokens : Nat) (word : Span) :
    (s.add text maxTokens word).Holds (read ++ [word]) := by
  obtain ⟨groups, current, rfl, hNe, hPieces, ⟨rfl, hPiece⟩ | ⟨hCurrent, hPiece⟩⟩ := h
  · refine ⟨groups, [word], by simp, hNe, ?_, .inr ⟨cons_ne_nil _ _, ?_⟩⟩
    · simp [Splitting.add, hPiece, hPieces]
    · rw [hull_singleton]
      simp only [Splitting.add, hPiece]
  · unfold Splitting.add
    rw [hPiece]
    dsimp only
    split
    next =>
      refine ⟨groups ++ [current], [word], by simp, fun group hGroup => ?_, by simp [hPieces],
        .inr ⟨cons_ne_nil _ _, rfl⟩⟩
      rcases mem_append.mp hGroup with hGroup | hGroup
      · exact hNe group hGroup
      · rw [mem_singleton.mp hGroup]
        exact hCurrent
    next =>
      refine ⟨groups, current ++ [word], (append_assoc _ _ _).symm, hNe, hPieces,
        .inr ⟨by simp, ?_⟩⟩
      rw [hull_concat hCurrent]

theorem exists_packs_splitOversized (text : List Char) (span : Span) (maxTokens : Nat) :
    ∃ groups, Packs (words text span) groups ∧
      splitOversized text span maxTokens = groups.map hull := by
  have hRun : ∀ (spans read : List Span) (s : Splitting), s.Holds read →
      (spans.foldl (Splitting.add text maxTokens) s).Holds (read ++ spans) := by
    intro spans
    induction spans with
    | nil =>
      intro read s h
      rw [append_nil]
      exact h
    | cons word rest ih =>
      intro read s h
      have hRest := ih (read ++ [word]) _ (h.add text maxTokens word)
      rwa [append_assoc, singleton_append] at hRest
  have hStart : ({} : Splitting).Holds [] := ⟨[], [], rfl, nofun, rfl, .inl ⟨rfl, rfl⟩⟩
  obtain ⟨groups, current, hRead, hNe, hPieces, hLast⟩ := hRun (words text span) [] {} hStart
  unfold splitOversized
  dsimp only
  rcases hLast with ⟨rfl, hPiece⟩ | ⟨hCurrent, hPiece⟩
  · refine ⟨groups, ⟨by simpa using hRead, hNe⟩, ?_⟩
    rw [hPieces, hPiece, Option.toList_none, append_nil]
  · refine ⟨groups ++ [current], ⟨by simpa using hRead, fun group hGroup => ?_⟩, ?_⟩
    · rcases mem_append.mp hGroup with hGroup | hGroup
      · exact hNe group hGroup
      · rw [mem_singleton.mp hGroup]
        exact hCurrent
    · rw [hPieces, hPiece, Option.toList_some, map_append, map_singleton]

theorem splitOversized_inOrder (text : List Char) (h : span.start ≤ span.stop)
    (maxTokens : Nat) :
    InOrder (splitOversized text span maxTokens) ∧
      ∀ s ∈ splitOversized text span maxTokens, s.Within span := by
  obtain ⟨groups, hPacks, hSplit⟩ := exists_packs_splitOversized text span maxTokens
  obtain ⟨hInOrder, hWithin⟩ := words_inOrder text h
  rw [hSplit]
  exact ⟨hPacks.inOrder hInOrder, fun s hs => hPacks.within hWithin hs⟩

theorem exists_contains_splitOversized {p : Nat}
    (hSpan : span.Contains p) (hText : TextAt text 0 p) (maxTokens : Nat) :
    ∃ s ∈ splitOversized text span maxTokens, s.Contains p := by
  obtain ⟨groups, hPacks, hSplit⟩ := exists_packs_splitOversized text span maxTokens
  obtain ⟨word, hWord, hContains⟩ := exists_contains_words hSpan hText
  obtain ⟨piece, hPiece, hWithin⟩ :=
    hPacks.exists_hull (words_inOrder text (hSpan.1.trans hSpan.2.le)).1 hWord
  rw [hSplit]
  exact ⟨piece, hPiece, hContains.of_within hWithin⟩

structure Packing.Holds (p : Packing) (read : List Span) : Prop where
  read_eq : p.groups.flatten ++ p.current = read
  ne_nil : ∀ group ∈ p.groups, group ≠ []

variable {p : Packing}

theorem Packing.Holds.flush (h : p.Holds read)
    (hCurrent : p.current ≠ []) : p.flush.Holds read where
  read_eq := by
    rw [← h.read_eq]
    simp [Packing.flush]
  ne_nil group hGroup := by
    rcases mem_append.mp hGroup with hGroup | hGroup
    · exact h.ne_nil group hGroup
    · rw [mem_singleton.mp hGroup]
      exact hCurrent

theorem Packing.Holds.add (h : p.Holds read) (text : List Char)
    (maximum : Nat) (ideal : Option Nat) (groupCount : Nat) (span : Span) :
    (p.add text maximum ideal groupCount span).Holds (read ++ [span]) := by
  have hTake : ∀ {q : Packing}, q.Holds read → ∀ tokens,
      ({ q with current := q.current ++ [span], currentTokens := tokens } : Packing).Holds
        (read ++ [span]) := by
    intro q hq tokens
    refine ⟨?_, hq.ne_nil⟩
    rw [← hq.read_eq, append_assoc]
  have hFlush : (if p.current ≠ [] ∧
      maximum < p.currentTokens + estimateTokens (slice text span) then p.flush else p).Holds
        read := by
    split
    next hFull => exact h.flush hFull.1
    next => exact h
  unfold Packing.add
  dsimp only
  generalize (if p.current ≠ [] ∧ maximum < p.currentTokens + estimateTokens (slice text span)
    then p.flush else p) = q at hFlush ⊢
  split
  next =>
    split
    next => exact (hTake hFlush _).flush (by simp)
    next => exact hTake hFlush _
  next => exact hTake hFlush _

theorem Packing.Holds.close (h : p.Holds read) (target : Nat)
    (mergeTail : Bool) : Packs read (p.close target mergeTail) := by
  have hAppend (hCurrent : p.current ≠ []) : Packs read (p.groups ++ [p.current]) :=
    ⟨(h.flush hCurrent).read_eq ▸ (append_nil _).symm, (h.flush hCurrent).ne_nil⟩
  unfold Packing.close
  split
  next hCurrent => exact ⟨by simpa [hCurrent] using h.read_eq, h.ne_nil⟩
  next hCurrent =>
    split
    next last hLast =>
      split
      next =>
        obtain ⟨front, hGroups⟩ := List.getLast?_eq_some_iff.mp hLast
        have hRead := h.read_eq
        have hNe := h.ne_nil
        rw [hGroups] at hRead hNe ⊢
        rw [dropLast_concat]
        refine ⟨by simpa using hRead, fun group hGroup => ?_⟩
        rcases mem_append.mp hGroup with hGroup | hGroup
        · exact hNe group (mem_append_left _ hGroup)
        · rw [mem_singleton.mp hGroup]
          simp [hCurrent]
      next => exact hAppend hCurrent
    next => exact hAppend hCurrent

theorem exists_packs_groupAtoms (atoms : List Span) (text : List Char) (maximum target : Nat)
    (mergeTail : Bool) (groupCount : Option Nat) :
    ∃ groups, Packs atoms groups ∧
      groupAtoms atoms text maximum target mergeTail groupCount = groups.map hull := by
  have hRun : ∀ (ideal : Option Nat) (count : Nat) (spans read : List Span) (p : Packing),
      p.Holds read →
        (spans.foldl (Packing.add text maximum ideal count) p).Holds (read ++ spans) := by
    intro ideal count spans
    induction spans with
    | nil =>
      intro read p h
      rw [append_nil]
      exact h
    | cons span rest ih =>
      intro read p h
      have hRest := ih (read ++ [span]) _ (h.add text maximum ideal count span)
      rwa [append_assoc, singleton_append] at hRest
  have hStart : ({} : Packing).Holds [] := ⟨rfl, nofun⟩
  have hHolds := hRun (idealShare text atoms groupCount) (groupCount.getD 0) atoms [] {} hStart
  exact ⟨_, hHolds.close target mergeTail, rfl⟩

section Section

variable {text : List Char} {s : DocumentSection}

theorem sentenceAtoms_inOrder (body : List Char) (base : Nat) :
    InOrder (sentenceAtoms body base) ∧
      ∀ atom ∈ sentenceAtoms body base, atom.Within ⟨base, base + body.length⟩ := by
  obtain ⟨hOrdered, hWithin⟩ := @sentenceSpans_ordered body base base (.sentence false) le_rfl
  refine ⟨⟨fun atom hAtom => ?_, hOrdered.filter _⟩, fun atom hAtom => ?_⟩
  · exact of_decide_eq_true (mem_filter.mp hAtom).2
  · exact hWithin atom (mem_filter.mp hAtom).1

theorem sentences_inOrder (text : List Char) (h : s.startChar ≤ s.endChar) :
    InOrder (sentences text s) ∧ ∀ atom ∈ sentences text s, atom.Within s.span := by
  obtain ⟨hInOrder, hWithin⟩ := sentenceAtoms_inOrder (slice text s.span) s.startChar
  refine ⟨hInOrder, fun atom hAtom => ?_⟩
  obtain ⟨hFrom, hTo⟩ := hWithin atom hAtom
  exact ⟨hFrom, hTo.trans (length_slice_le text s.span h)⟩

theorem exists_contains_sentences {p : Nat} (hSection : s.span.Contains p)
    (hText : TextAt text 0 p) : ∃ atom ∈ sentences text s, atom.Contains p := by
  obtain ⟨atom, hAtom, hContains⟩ := @exists_contains_sentenceSpans (slice text s.span)
    s.startChar s.startChar (.sentence false) p le_rfl nofun
    (.inr (textAt_slice.mpr ⟨hSection, hText⟩))
  refine ⟨atom, mem_filter.mpr ⟨hAtom, ?_⟩, hContains⟩
  exact decide_eq_true (hContains.1.trans_lt hContains.2)

/-! ## Tiers -/

variable {atoms : List Span}

theorem exists_atom_of_mem_fittingAtoms {maxTokens : Nat} (hAtoms : InOrder atoms) {t : Span}
    (ht : t ∈ fittingAtoms text maxTokens atoms) : ∃ atom ∈ atoms, t.Within atom := by
  obtain ⟨atom, hAtom, ht⟩ := mem_flatMap.mp ht
  refine ⟨atom, hAtom, ?_⟩
  split at ht
  next => exact (splitOversized_inOrder text (hAtoms.proper atom hAtom).le maxTokens).2 t ht
  next =>
    rw [mem_singleton.mp ht]
    exact ⟨le_rfl, le_rfl⟩

theorem fittingAtoms_inOrder (text : List Char) (maxTokens : Nat) (h : InOrder atoms) :
    InOrder (fittingAtoms text maxTokens atoms) := by
  refine h.flatMap fun atom hAtom => ?_
  split
  next => exact splitOversized_inOrder text (h.proper atom hAtom).le maxTokens
  next =>
    refine ⟨inOrder_singleton (h.proper atom hAtom), fun t ht => ?_⟩
    rw [mem_singleton.mp ht]
    exact ⟨le_rfl, le_rfl⟩

theorem exists_contains_fittingAtoms {atom : Span} {p : Nat} (hAtom : atom ∈ atoms)
    (hContains : atom.Contains p) (hText : TextAt text 0 p) (maxTokens : Nat) :
    ∃ t ∈ fittingAtoms text maxTokens atoms, t.Contains p := by
  by_cases hLarge : maxTokens < estimateTokens (slice text atom)
  · obtain ⟨t, ht, hPiece⟩ := exists_contains_splitOversized hContains hText maxTokens
    refine ⟨t, mem_flatMap.mpr ⟨atom, hAtom, ?_⟩, hPiece⟩
    rw [if_pos hLarge]
    exact ht
  · refine ⟨atom, mem_flatMap.mpr ⟨atom, hAtom, ?_⟩, hContains⟩
    rw [if_neg hLarge]
    exact mem_singleton_self atom

theorem exists_packs_unitSpans (text : List Char) (s : DocumentSection) :
    ∃ groups, Packs (fittingAtoms text unitMax (sentences text s)) groups ∧
      unitSpans text s = groups.map hull :=
  exists_packs_groupAtoms _ text unitMax unitTargetTokens false _

theorem unitSpans_inOrder (text : List Char) (h : s.startChar ≤ s.endChar) :
    InOrder (unitSpans text s) ∧ ∀ unit ∈ unitSpans text s, unit.Within s.span := by
  obtain ⟨groups, hPacks, hUnits⟩ := exists_packs_unitSpans text s
  obtain ⟨hInOrder, hWithin⟩ := sentences_inOrder text h
  rw [hUnits]
  refine ⟨hPacks.inOrder (fittingAtoms_inOrder text unitMax hInOrder), fun unit hUnit => ?_⟩
  refine hPacks.within (fun t ht => ?_) hUnit
  obtain ⟨atom, hAtom, hPart⟩ := exists_atom_of_mem_fittingAtoms hInOrder ht
  exact hPart.trans (hWithin atom hAtom)

theorem exists_contains_unitSpans {p : Nat} (hSection : s.span.Contains p)
    (hText : TextAt text 0 p) : ∃ unit ∈ unitSpans text s, unit.Contains p := by
  obtain ⟨groups, hPacks, hUnits⟩ := exists_packs_unitSpans text s
  have hOrder := (sentences_inOrder text (hSection.1.trans hSection.2.le)).1
  obtain ⟨atom, hAtom, hContains⟩ := exists_contains_sentences hSection hText
  obtain ⟨t, ht, hPart⟩ := exists_contains_fittingAtoms hAtom hContains hText unitMax
  obtain ⟨unit, hUnit, hWithin⟩ :=
    hPacks.exists_hull (fittingAtoms_inOrder text unitMax hOrder) ht
  rw [hUnits]
  exact ⟨unit, hUnit, hPart.of_within hWithin⟩

theorem exists_unit_of_fits (h : s.startChar ≤ s.endChar) {atom : Span}
    (hAtom : atom ∈ sentences text s) (hFits : estimateTokens (slice text atom) ≤ unitMax) :
    ∃ unit ∈ unitSpans text s, atom.Within unit := by
  obtain ⟨groups, hPacks, hUnits⟩ := exists_packs_unitSpans text s
  have hOrder := (sentences_inOrder text h).1
  have hFitting : atom ∈ fittingAtoms text unitMax (sentences text s) := by
    refine mem_flatMap.mpr ⟨atom, hAtom, ?_⟩
    rw [if_neg (not_lt.mpr hFits)]
    exact mem_singleton_self atom
  rw [hUnits]
  exact hPacks.exists_hull (fittingAtoms_inOrder text unitMax hOrder) hFitting

section Evidence

variable {unit : Span}

theorem exists_packs_evidenceSpans (text : List Char) (s : DocumentSection) (unit : Span) :
    ∃ groups, Packs (fittingAtoms text evidenceMax
        ((sentences text s).filter fun atom => atom.Within unit)) groups ∧
      evidenceSpans text s unit = groups.map hull :=
  exists_packs_groupAtoms _ text evidenceMax evidenceTargetTokens true none

theorem exists_sentence_of_evidenceAtom (h : s.startChar ≤ s.endChar) {t : Span}
    (ht : t ∈ fittingAtoms text evidenceMax
      ((sentences text s).filter fun atom => atom.Within unit)) :
    ∃ atom ∈ sentences text s, atom.Within unit ∧ t.Within atom := by
  have hOrder := (sentences_inOrder text h).1
  obtain ⟨atom, hAtom, hPart⟩ :=
    exists_atom_of_mem_fittingAtoms (hOrder.sublist filter_sublist) ht
  obtain ⟨hMem, hWithin⟩ := mem_filter.mp hAtom
  exact ⟨atom, hMem, of_decide_eq_true hWithin, hPart⟩

theorem evidenceSpans_inOrder (text : List Char) (h : s.startChar ≤ s.endChar) (unit : Span) :
    InOrder (evidenceSpans text s unit) ∧ ∀ e ∈ evidenceSpans text s unit, e.Within unit := by
  obtain ⟨groups, hPacks, hEvidence⟩ := exists_packs_evidenceSpans text s unit
  have hOrder := (sentences_inOrder text h).1.sublist
    (filter_sublist (p := fun atom => decide (atom.Within unit)))
  rw [hEvidence]
  refine ⟨hPacks.inOrder (fittingAtoms_inOrder text evidenceMax hOrder), fun e he => ?_⟩
  refine hPacks.within (fun t ht => ?_) he
  obtain ⟨atom, _, hWithin, hPart⟩ := exists_sentence_of_evidenceAtom h ht
  exact hPart.trans hWithin

theorem exists_contains_evidenceSpans (h : s.startChar ≤ s.endChar) {atom : Span} {p : Nat}
    (hAtom : atom ∈ sentences text s) (hWithin : atom.Within unit) (hContains : atom.Contains p)
    (hText : TextAt text 0 p) : ∃ e ∈ evidenceSpans text s unit, e.Contains p := by
  obtain ⟨groups, hPacks, hEvidence⟩ := exists_packs_evidenceSpans text s unit
  have hOrder := (sentences_inOrder text h).1.sublist
    (filter_sublist (p := fun atom => decide (atom.Within unit)))
  have hMem : atom ∈ (sentences text s).filter fun atom => atom.Within unit :=
    mem_filter.mpr ⟨hAtom, decide_eq_true hWithin⟩
  obtain ⟨t, ht, hPart⟩ := exists_contains_fittingAtoms hMem hContains hText evidenceMax
  obtain ⟨e, he, hWhole⟩ := hPacks.exists_hull (fittingAtoms_inOrder text evidenceMax hOrder) ht
  rw [hEvidence]
  exact ⟨e, he, hPart.of_within hWhole⟩

theorem within_of_contains_evidenceSpans (h : s.startChar ≤ s.endChar) {atom e : Span} {p : Nat}
    (he : e ∈ evidenceSpans text s unit) (hp : e.Contains p) (hAtom : atom ∈ sentences text s)
    (hContains : atom.Contains p) : atom.Within unit := by
  obtain ⟨groups, hPacks, hEvidence⟩ := exists_packs_evidenceSpans text s unit
  have hOrder := (sentences_inOrder text h).1
  rw [hEvidence] at he
  obtain ⟨first, hFirst, last, hLast, hStart, hStop⟩ := hPacks.exists_ends he
  obtain ⟨atom₁, hAtom₁, hWithin₁, hPart₁⟩ := exists_sentence_of_evidenceAtom h hFirst
  obtain ⟨atom₂, hAtom₂, hWithin₂, hPart₂⟩ := exists_sentence_of_evidenceAtom h hLast
  have hProper₁ := hOrder.proper atom₁ hAtom₁
  have hProper₂ := hOrder.proper atom₂ hAtom₂
  obtain ⟨hFrom, hTo⟩ := hp
  obtain ⟨hAtomFrom, hAtomTo⟩ := hContains
  have hPartStart := hPart₁.1
  have hPartStop := hPart₂.2
  constructor
  · rcases hOrder.eq_or_before hAtom hAtom₁ with rfl | hBefore | hAfter
    · exact hWithin₁.1
    · omega
    · have hUnitStart := hWithin₁.1
      omega
  · rcases hOrder.eq_or_before hAtom hAtom₂ with rfl | hBefore | hAfter
    · exact hWithin₂.2
    · have hUnitStop := hWithin₂.2
      omega
    · omega

end Evidence

end Section

/-! ## Documents -/

def ContiguousFrom (position length : Nat) : List DocumentSection → Prop
  | [] => position = length
  | s :: rest =>
    s.startChar = position ∧ s.startChar ≤ s.endChar ∧ ContiguousFrom s.endChar length rest

variable {sections : List DocumentSection}

section Document

variable {text : List Char} {position length : Nat}

section

variable (h : ContiguousFrom position length sections)
include h

theorem ContiguousFrom.bounds :
    ∀ s ∈ sections, position ≤ s.startChar ∧ s.startChar ≤ s.endChar := by
  induction sections generalizing position with
  | nil => nofun
  | cons first rest ih =>
    obtain ⟨rfl, hProper, hRest⟩ := h
    intro s hs
    rcases mem_cons.mp hs with rfl | hs
    · exact ⟨le_rfl, hProper⟩
    · obtain ⟨hFrom, hTo⟩ := ih hRest s hs
      exact ⟨hProper.trans hFrom, hTo⟩

theorem ContiguousFrom.ordered :
    sections.Pairwise fun s t => s.span.stop ≤ t.span.start := by
  induction sections generalizing position with
  | nil => exact Pairwise.nil
  | cons first rest ih =>
    obtain ⟨_, _, hRest⟩ := h
    exact pairwise_cons.mpr ⟨fun s hs => (hRest.bounds s hs).1, ih hRest⟩

theorem ContiguousFrom.exists_section {p : Nat}
    (hFrom : position ≤ p) (hTo : p < length) : ∃ s ∈ sections, s.span.Contains p := by
  induction sections generalizing position with
  | nil =>
    have hEnd : position = length := h
    omega
  | cons first rest ih =>
    obtain ⟨rfl, _, hRest⟩ := h
    by_cases hHere : p < first.endChar
    · exact ⟨first, mem_cons_self, hFrom, hHere⟩
    · obtain ⟨s, hs, hContains⟩ := ih hRest (not_lt.mp hHere)
      exact ⟨s, mem_cons_of_mem _ hs, hContains⟩

theorem ContiguousFrom.orderedSections_eq :
    orderedSections sections = sections := by
  refine sortOn_eq_self (h.ordered.imp_of_mem fun {s t} hs ht hOrder => ?_)
  have hProper := (h.bounds s hs).2
  have hProper' := (h.bounds t ht).2
  have hStop : s.endChar ≤ t.startChar := hOrder
  rcases (hProper.trans hStop).eq_or_lt with hEq | hLt
  · exact Prod.Lex.toLex_le_toLex.mpr (.inr ⟨hEq, by dsimp only; omega⟩)
  · exact Prod.Lex.toLex_le_toLex.mpr (.inl hLt)

end

def documentUnits (text : List Char) (sections : List DocumentSection) : List Span :=
  sections.flatMap (unitSpans text)

def documentEvidence (text : List Char) (sections : List DocumentSection) : List Span :=
  sections.flatMap fun s => (unitSpans text s).flatMap (evidenceSpans text s)

theorem ContiguousFrom.units_inOrder (h : ContiguousFrom position length sections) :
    InOrder (documentUnits text sections) :=
  inOrder_flatMap h.ordered fun s hs => unitSpans_inOrder text (h.bounds s hs).2

theorem ContiguousFrom.evidence_inOrder (h : ContiguousFrom position length sections) :
    InOrder (documentEvidence text sections) := by
  refine inOrder_flatMap h.ordered fun s hs => ?_
  have hProper := (h.bounds s hs).2
  obtain ⟨hUnits, hWithin⟩ := unitSpans_inOrder text hProper
  refine ⟨hUnits.flatMap fun unit _ => evidenceSpans_inOrder text hProper unit, fun e he => ?_⟩
  obtain ⟨unit, hUnit, he⟩ := mem_flatMap.mp he
  exact ((evidenceSpans_inOrder text hProper unit).2 e he).trans (hWithin unit hUnit)

/-- No unit of a section ends within a sentence: a sentence that is too large for a unit is within
one all the same. -/
def Uncut (text : List Char) (s : DocumentSection) : Prop :=
  ∀ sentence ∈ sentences text s, unitMax < estimateTokens (slice text sentence) →
    ∃ unit ∈ unitSpans text s, sentence.Within unit

theorem ContiguousFrom.evidence_iff (h : ContiguousFrom position length sections)
    {s : DocumentSection} (hs : s ∈ sections) {sentence : Span} (hMem : sentence ∈ sentences text s)
    {p : Nat} (hContains : sentence.Contains p) (hText : TextAt text 0 p) :
    (∃ e ∈ documentEvidence text sections, e.Contains p) ↔
      ∃ unit ∈ unitSpans text s, sentence.Within unit := by
  have hProper := (h.bounds s hs).2
  constructor
  · rintro ⟨e, he, hp⟩
    obtain ⟨other, hOther, he⟩ := mem_flatMap.mp he
    obtain ⟨unit, hUnit, he⟩ := mem_flatMap.mp he
    have hOtherProper := (h.bounds other hOther).2
    -- sections do not overlap, so the evidence is of the section of the sentence
    have hHere : s.span.Contains p :=
      hContains.of_within ((sentences_inOrder text hProper).2 sentence hMem)
    have hThere : other.span.Contains p :=
      (hp.of_within ((evidenceSpans_inOrder text hOtherProper unit).2 e he)).of_within
        ((unitSpans_inOrder text hOtherProper).2 unit hUnit)
    have hSame : s = other := by
      rcases eq_or_related h.ordered hs hOther with hSame | hBefore | hAfter
      · exact hSame
      · exact absurd (hHere.2.trans_le (hBefore.trans hThere.1)) (lt_irrefl p)
      · exact absurd (hThere.2.trans_le (hAfter.trans hHere.1)) (lt_irrefl p)
    subst hSame
    exact ⟨unit, hUnit, within_of_contains_evidenceSpans hProper he hp hMem hContains⟩
  · rintro ⟨unit, hUnit, hWithin⟩
    obtain ⟨e, he, hp⟩ := exists_contains_evidenceSpans hProper hMem hWithin hContains hText
    exact ⟨e, mem_flatMap.mpr ⟨s, hs, mem_flatMap.mpr ⟨unit, hUnit, he⟩⟩, hp⟩

theorem ContiguousFrom.evidence_covers_iff (h : ContiguousFrom 0 text.length sections) :
    (∀ p, TextAt text 0 p → ∃ e ∈ documentEvidence text sections, e.Contains p) ↔
      ∀ s ∈ sections, Uncut text s := by
  constructor
  · intro hCovers s hs sentence hMem hLarge
    have hTokens : 1 < estimateTokens (slice text sentence) := lt_trans (by decide) hLarge
    obtain ⟨p, hContains, hText⟩ := exists_textAt_of_estimateTokens hTokens
    exact (h.evidence_iff hs hMem hContains hText).mp (hCovers p hText)
  · intro hUncut p hText
    obtain ⟨_, c, hChar, _⟩ := id hText
    have hLength : p < text.length := (List.getElem?_eq_some_iff.mp hChar).1
    obtain ⟨s, hs, hSection⟩ := h.exists_section (Nat.zero_le p) hLength
    obtain ⟨sentence, hMem, hContains⟩ := exists_contains_sentences hSection hText
    refine (h.evidence_iff hs hMem hContains hText).mpr ?_
    by_cases hLarge : unitMax < estimateTokens (slice text sentence)
    · exact hUncut s hs sentence hMem hLarge
    · exact exists_unit_of_fits (h.bounds s hs).2 hMem (not_lt.mp hLarge)

theorem ContiguousFrom.units_cover (h : ContiguousFrom 0 text.length sections) {p : Nat}
    (hText : TextAt text 0 p) : ∃ unit ∈ documentUnits text sections, unit.Contains p := by
  obtain ⟨_, c, hChar, _⟩ := id hText
  have hLength : p < text.length := (List.getElem?_eq_some_iff.mp hChar).1
  obtain ⟨s, hs, hSection⟩ := h.exists_section (Nat.zero_le p) hLength
  obtain ⟨unit, hUnit, hContains⟩ := exists_contains_unitSpans hSection hText
  exact ⟨unit, mem_flatMap.mpr ⟨s, hs, hUnit⟩, hContains⟩

end Document

/-! ## Chunks -/

/-- Every character that is not white space is in one section unit and in one evidence span, and
every evidence span is within one unit of its section. -/
structure NoTextLost (text : List Char) (chunks : List RagChunkRecord) : Prop where
  unit : ∀ p c, text[p]? = some c → isSpace c = false →
    chunks.countP (fun chunk => chunk.kind = .sectionUnit ∧ chunk.span.Contains p) = 1
  evidence : ∀ p c, text[p]? = some c → isSpace c = false →
    chunks.countP (fun chunk => chunk.kind = .evidenceSpan ∧ chunk.span.Contains p) = 1
  inside : ∀ chunk ∈ chunks, chunk.kind = .evidenceSpan →
    chunks.countP (fun unit => unit.kind = .sectionUnit ∧ unit.sectionPath = chunk.sectionPath ∧
      chunk.span.Within unit.span) = 1

def RagChunkRecord.place (chunk : RagChunkRecord) : String × ChunkKind × Span :=
  (chunk.sectionPath, chunk.kind, chunk.span)

def Storable (text : List Char) (s : DocumentSection) : Prop :=
  ∀ chunk ∈ sectionChunks text s, sanitizeText (slice text chunk.2) ≠ []

section Chunks

variable {digests : Digests} {source : Source} {text : List Char}

theorem makeChunk_eq_some {s : DocumentSection} {kind : ChunkKind} {index : Nat}
    {chunk : RagChunkRecord} (h : makeChunk digests source text s kind span index = some chunk) :
    chunk.place = (s.path, kind, span) := by
  unfold makeChunk at h
  dsimp only at h
  split at h
  next => cases h
  next =>
    cases h
    rfl

variable {chunks : List RagChunkRecord} {planned : List (DocumentSection × ChunkKind × Span)}

theorem place_makeChunks {index : Nat}
    (h : makeChunks digests source text index planned = some chunks) :
    chunks.map RagChunkRecord.place = planned.map fun entry => (entry.1.path, entry.2) := by
  induction planned generalizing index chunks with
  | nil =>
    cases h
    rfl
  | cons entry rest ih =>
    simp only [makeChunks, Option.bind_eq_bind, Option.bind_eq_some_iff, Option.pure_def,
      Option.some.injEq] at h
    obtain ⟨chunk, hChunk, later, hLater, rfl⟩ := h
    rw [map_cons, map_cons, ih hLater, makeChunk_eq_some hChunk]

theorem makeChunks_isSome {index : Nat} :
    (∃ chunks, makeChunks digests source text index planned = some chunks) ↔
      ∀ entry ∈ planned, sanitizeText (slice text entry.2.2) ≠ [] := by
  induction planned generalizing index with
  | nil => simp [makeChunks]
  | cons entry rest ih =>
    obtain ⟨s, kind, span⟩ := entry
    rw [forall_mem_cons, ← @ih (index + 1)]
    by_cases hEmpty : sanitizeText (slice text span) = []
    · simp [makeChunks, makeChunk, hEmpty]
    · cases hRest : makeChunks digests source text (index + 1) rest <;>
        simp [makeChunks, makeChunk, hEmpty, hRest]

def spansOf (kind : ChunkKind) (places : List (String × ChunkKind × Span)) : List Span :=
  places.filterMap fun place => if place.2.1 = kind then some place.2.2 else none

theorem countP_place (chunks : List RagChunkRecord) (kind : ChunkKind) (q : Span → Bool) :
    chunks.countP (fun chunk => chunk.kind = kind ∧ q chunk.span = true) =
      (spansOf kind (chunks.map RagChunkRecord.place)).countP q := by
  rw [spansOf, countP_filterMap, countP_map]
  refine countP_congr fun chunk _ => ?_
  by_cases hKind : chunk.kind = kind <;> simp [RagChunkRecord.place, hKind]

def places (text : List Char) (sections : List DocumentSection) :
    List (String × ChunkKind × Span) :=
  sections.flatMap fun s => (sectionChunks text s).map fun chunk => (s.path, chunk)

theorem spansOf_sectionUnit (text : List Char) (sections : List DocumentSection) :
    spansOf .sectionUnit (places text sections) = documentUnits text sections := by
  rw [spansOf, places, filterMap_flatMap, documentUnits]
  congr 1
  funext s
  rw [sectionChunks, map_flatMap, filterMap_flatMap]
  have hUnit : ∀ unit, List.filterMap
      (fun place : String × ChunkKind × Span =>
        if place.2.1 = .sectionUnit then some place.2.2 else none)
      (((ChunkKind.sectionUnit, unit) :: (evidenceSpans text s unit).map
        fun span => (ChunkKind.evidenceSpan, span)).map fun chunk => (s.path, chunk)) = [unit] := by
    simp [filterMap_map, Function.comp_def]
  simp only [hUnit, flatMap_singleton']

theorem spansOf_evidenceSpan (text : List Char) (sections : List DocumentSection) :
    spansOf .evidenceSpan (places text sections) = documentEvidence text sections := by
  rw [spansOf, places, filterMap_flatMap, documentEvidence]
  congr 1
  funext s
  rw [sectionChunks, map_flatMap, filterMap_flatMap]
  congr 1
  simp [filterMap_map, Function.comp_def]

section

variable (h : ContiguousFrom 0 text.length sections)
include h

/-- The chunks that are built are those of the sections, in their order, if all can be stored. -/
theorem buildChunks_iff
    {P : List RagChunkRecord → Prop} {Q : Prop}
    (hPlaces : ∀ chunks, chunks.map RagChunkRecord.place = places text sections → (P chunks ↔ Q)) :
    (∃ records chunks, buildChunks digests source text sections = some (records, chunks) ∧
        P chunks) ↔
      (∀ s ∈ sections, Storable text s) ∧ Q := by
  have hPlanned : plannedChunks text sections =
      sections.flatMap fun s => (sectionChunks text s).map fun chunk => (s, chunk) := by
    rw [plannedChunks, h.orderedSections_eq]
  have hMap : (plannedChunks text sections).map (fun entry => (entry.1.path, entry.2)) =
      places text sections := by
    rw [hPlanned, map_flatMap, places]
    congr 1
    funext s
    rw [map_map]
    rfl
  have hStorable : (∀ entry ∈ plannedChunks text sections,
      sanitizeText (slice text entry.2.2) ≠ []) ↔ ∀ s ∈ sections, Storable text s := by
    rw [hPlanned]
    simp only [mem_flatMap, mem_map, Storable]
    constructor
    · intro hAll s hs chunk hChunk
      exact hAll (s, chunk) ⟨s, hs, chunk, hChunk, rfl⟩
    · rintro hAll _ ⟨s, hs, chunk, hChunk, rfl⟩
      exact hAll s hs chunk hChunk
  rw [← hStorable, ← @makeChunks_isSome digests source text _ 0]
  unfold buildChunks
  cases hMake : makeChunks digests source text 0 (plannedChunks text sections) with
  | none => simp
  | some chunks =>
    have hHere := hPlaces chunks ((place_makeChunks hMake).trans hMap)
    simp [hHere]

section

variable (hPlaces : chunks.map RagChunkRecord.place = places text sections)
include hPlaces

theorem countP_unit_of_places {chunk : RagChunkRecord}
    (hChunk : chunk ∈ chunks) (hKind : chunk.kind = .evidenceSpan) :
    chunks.countP (fun unit => unit.kind = .sectionUnit ∧ unit.sectionPath = chunk.sectionPath ∧
      chunk.span.Within unit.span) = 1 := by
  have hPlace : chunk.place ∈ places text sections := by
    rw [← hPlaces]
    exact mem_map_of_mem hChunk
  obtain ⟨s, hs, hMem⟩ := mem_flatMap.mp hPlace
  obtain ⟨⟨kind, span⟩, hPart, hEq⟩ := mem_map.mp hMem
  obtain ⟨unit, hUnit, hPart⟩ := mem_flatMap.mp hPart
  have hPath : s.path = chunk.sectionPath := congrArg Prod.fst hEq
  have hSpan : span = chunk.span := congrArg (fun place => place.2.2) hEq
  have hEvidence : span ∈ evidenceSpans text s unit := by
    rcases mem_cons.mp hPart with hFirst | hRest
    · have hUnitKind : ChunkKind.sectionUnit = chunk.kind :=
        (congrArg Prod.fst hFirst).symm.trans (congrArg (fun place => place.2.1) hEq)
      rw [hKind] at hUnitKind
      cases hUnitKind
    · obtain ⟨_, hSpans, hSame⟩ := mem_map.mp hRest
      cases hSame
      exact hSpans
  have hProper := (h.bounds s hs).2
  obtain ⟨hInOrder, hWithin⟩ := evidenceSpans_inOrder text hProper unit
  have hInside : chunk.span.Within unit := hSpan ▸ hWithin span hEvidence
  have hNonempty : chunk.span.start < chunk.span.stop := hSpan ▸ hInOrder.proper span hEvidence
  have hAtMost := countP_place chunks .sectionUnit fun other => chunk.span.Within other
  have hUnitsOrder : InOrder (documentUnits text sections) := h.units_inOrder
  rw [hPlaces, spansOf_sectionUnit, hUnitsOrder.countP_within hNonempty
    ⟨unit, mem_flatMap.mpr ⟨s, hs, hUnit⟩, hInside⟩] at hAtMost
  have hLe : chunks.countP (fun unit => unit.kind = .sectionUnit ∧
      unit.sectionPath = chunk.sectionPath ∧ chunk.span.Within unit.span) ≤ 1 := by
    rw [← hAtMost]
    refine countP_mono_left fun other _ hOther => ?_
    obtain ⟨hOtherKind, _, hOtherWithin⟩ := of_decide_eq_true hOther
    exact decide_eq_true ⟨hOtherKind, decide_eq_true hOtherWithin⟩
  have hUnitPlace : (s.path, ChunkKind.sectionUnit, unit) ∈ chunks.map RagChunkRecord.place := by
    rw [hPlaces]
    refine mem_flatMap.mpr ⟨s, hs, mem_map.mpr ⟨(.sectionUnit, unit), ?_, rfl⟩⟩
    exact mem_flatMap.mpr ⟨unit, hUnit, mem_cons_self⟩
  obtain ⟨found, hFound, hFoundPlace⟩ := mem_map.mp hUnitPlace
  have hPos : 0 < chunks.countP (fun unit => unit.kind = .sectionUnit ∧
      unit.sectionPath = chunk.sectionPath ∧ chunk.span.Within unit.span) := by
    refine countP_pos_iff.mpr ⟨found, hFound, decide_eq_true ⟨?_, ?_, ?_⟩⟩
    · exact congrArg (fun place => place.2.1) hFoundPlace
    · exact (congrArg Prod.fst hFoundPlace).trans hPath
    · have hFoundSpan : found.span = unit := congrArg (fun place => place.2.2) hFoundPlace
      rw [hFoundSpan]
      exact hInside
  omega

theorem noTextLost_of_places_iff :
    NoTextLost text chunks ↔ ∀ s ∈ sections, Uncut text s := by
  have hUnits (q : Span → Bool) :
      chunks.countP (fun chunk => chunk.kind = .sectionUnit ∧ q chunk.span = true) =
        (documentUnits text sections).countP q := by
    rw [countP_place, hPlaces, spansOf_sectionUnit]
  have hEvidence (q : Span → Bool) :
      chunks.countP (fun chunk => chunk.kind = .evidenceSpan ∧ q chunk.span = true) =
        (documentEvidence text sections).countP q := by
    rw [countP_place, hPlaces, spansOf_evidenceSpan]
  have hUnitsOrder : InOrder (documentUnits text sections) := h.units_inOrder
  have hEvidenceOrder : InOrder (documentEvidence text sections) := h.evidence_inOrder
  rw [← h.evidence_covers_iff]
  constructor
  · rintro ⟨_, hOne, _⟩ p ⟨_, c, hChar, hSpace⟩
    have hCount := hEvidence fun span => span.Contains p
    simp only [decide_eq_true_eq] at hCount
    rw [hOne p c hChar hSpace] at hCount
    obtain ⟨e, he, hContains⟩ := countP_pos_iff.mp (hCount ▸ Nat.one_pos)
    exact ⟨e, he, of_decide_eq_true hContains⟩
  · intro hCovers
    refine ⟨fun p c hChar hSpace => ?_, fun p c hChar hSpace => ?_,
      fun chunk hChunk hKind => countP_unit_of_places h hPlaces hChunk hKind⟩
    · have hCount := hUnits fun span => span.Contains p
      simp only [decide_eq_true_eq] at hCount
      rw [hCount]
      exact hUnitsOrder.countP_contains (h.units_cover ⟨Nat.zero_le p, c, hChar, hSpace⟩)
    · have hCount := hEvidence fun span => span.Contains p
      simp only [decide_eq_true_eq] at hCount
      rw [hCount]
      exact hEvidenceOrder.countP_contains (hCovers p ⟨Nat.zero_le p, c, hChar, hSpace⟩)

end

end

/-- For every text and every sections that follow one another and cover it: the chunks are built and
lose no text, exactly if no unit ends within a sentence that is too large for a unit, and every
chunk has a character that can be stored. -/
theorem noTextLost_iff (digests : Digests) (source : Source) (text : List Char)
    (sections : List DocumentSection) (h : ContiguousFrom 0 text.length sections) :
    (∃ records chunks, buildChunks digests source text sections = some (records, chunks) ∧
        NoTextLost text chunks) ↔
      (∀ s ∈ sections, Storable text s) ∧ ∀ s ∈ sections, Uncut text s :=
  buildChunks_iff h fun _ => noTextLost_of_places_iff h

end Chunks

def emptyDigests : Digests := ⟨fun _ => "", fun _ => ""⟩

def paperSource : Source where
  sourceId := "source-1"
  docId := "doc-1"
  sourceId_ne := by decide
  docId_ne := by decide

def introduction (length : Nat) : DocumentSection where
  path := "1"
  title := none
  level := 1
  startChar := 0
  endChar := length
  path_ne := by decide
  level_pos := le_rfl

def twoQuestions : List Char := "It holds. Why? ".toList

/-- A section of 15 characters, and one with the rest of the text. -/
def twoSections (rest : Nat) : List DocumentSection :=
  [introduction 15,
    { introduction (15 + rest) with path := "2", startChar := 15, path_ne := by decide }]

/-- A sentence that is too large for a unit, whose words are not. -/
def spacedSentence : List Char :=
  List.replicate 1800 'a' ++ List.replicate 300 ' ' ++ List.replicate 1800 'b' ++ ['.']

/-- The sentence is split, and its pieces are in one unit. -/
theorem noTextLost_spacedSentence :
    ∃ records chunks, buildChunks emptyDigests paperSource (twoQuestions ++ spacedSentence)
        (twoSections 3901) = some (records, chunks) ∧
      NoTextLost (twoQuestions ++ spacedSentence) chunks := by
  have hLength : (twoQuestions ++ spacedSentence).length = 3916 := by decide +kernel
  refine (noTextLost_iff emptyDigests paperSource _ (twoSections 3901)
    ⟨rfl, by decide, rfl, by decide, hLength.symm⟩).mpr ⟨?_, ?_⟩
  · unfold Storable
    decide +kernel
  · unfold Uncut
    decide +kernel

/-- A sentence of two words with two thousand characters each. -/
def longSentence : List Char := List.replicate 2000 'a' ++ ' ' :: List.replicate 2000 'b'

/-- The two words are in different units, and no evidence span has any of them. -/
theorem textLost_longSentence :
    ¬ ∃ records chunks, buildChunks emptyDigests paperSource longSentence [introduction 4001] =
      some (records, chunks) ∧ NoTextLost longSentence chunks := by
  rintro ⟨records, chunks, hBuild, hCovers⟩
  have hKinds : ((buildChunks emptyDigests paperSource longSentence [introduction 4001]).map
      fun built => built.2.map RagChunkRecord.kind) = some [.sectionUnit, .sectionUnit] := by
    decide +kernel
  rw [hBuild] at hKinds
  have hChunks : chunks.map RagChunkRecord.kind = [.sectionUnit, .sectionUnit] :=
    Option.some.inj hKinds
  have hOne := hCovers.evidence 0 'a' (by decide +kernel) (by decide)
  obtain ⟨chunk, hMem, hChunk⟩ := countP_pos_iff.mp (hOne ▸ Nat.one_pos)
  have hIn := mem_map_of_mem (f := RagChunkRecord.kind) hMem
  rw [hChunks, (of_decide_eq_true hChunk).1] at hIn
  simp at hIn

end Glasslab.Corpus
