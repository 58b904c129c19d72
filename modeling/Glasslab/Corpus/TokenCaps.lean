import Glasslab.Corpus.Provenance
import Glasslab.Corpus.TokenWindows

/-!
# How large a chunk is

No group has more words than its cap allows (`wordCount_window_le`), but its text can be too long
for the cap, with what stands between the atoms. A short last group of evidence is merged with the
one before it whatever their size is. `normalize_chunks` cuts what is larger than a unit again, with
the same loop. `capped_iff` says for which documents all chunks are within their caps.
-/

namespace Glasslab.Corpus

open Foundation Span List

/-! ## Texts that are within their caps -/

def Windows (text : List Char) (maximum : Nat) (atoms : List Span) (runs : List (List Span)) :
    Prop :=
  (tokenFilling text maximum 0).Fills 0 atoms runs

def windowText (text : List Char) (window : List Span) : List Char :=
  sanitizeText (slice text (hull window))

/-- The text is right, or it is so large that it is cut again, into windows that are right. -/
def Mended (right : List Char → Prop) (text : List Char) : Prop :=
  right text ∨ unitMax < estimateTokens text ∧
    ∀ runs, Windows text unitMax (fittingAtoms text unitMax (sentenceAtoms text 0)) runs →
      ∀ window ∈ runs, right (slice text (hull window))

def unitAtoms (text : List Char) (s : DocumentSection) : List Span :=
  fittingAtoms text unitMax (sentences text s)

def unitCount (text : List Char) (s : DocumentSection) : Nat :=
  max 1 (ceilDiv (((sentences text s).map fun atom => estimateTokens (slice text atom)).sum)
    unitTargetTokens)

/-- The windows of a section, as many of which as possible have an equal share of it. -/
def UnitWindows (text : List Char) (s : DocumentSection) (runs : List (List Span)) : Prop :=
  let ideal := idealShare text (unitAtoms text s) (some (unitCount text s))
  (tokenFilling text unitMax (ideal.getD 0)).Fills (earlyGroups ideal (unitCount text s))
    (unitAtoms text s) runs

def evidenceAtoms (text : List Char) (s : DocumentSection) (unit : Span) : List Span :=
  fittingAtoms text evidenceMax ((sentences text s).filter fun atom => atom.Within unit)

def EvidenceWindows (text : List Char) (s : DocumentSection) (unit : Span)
    (runs : List (List Span)) : Prop :=
  Windows text evidenceMax (evidenceAtoms text s unit) runs

/-- The text of every window of a section is no longer than its cap allows, and two windows that are
joined have no more words than it allows. -/
structure WithinCaps (text : List Char) (s : DocumentSection) : Prop where
  unit : ∀ units, UnitWindows text s units → ∀ unit ∈ units,
    Mended (fun t => ¬ Overlong unitMax t) (windowText text unit)
  evidence : ∀ units, UnitWindows text s units → ∀ unit ∈ units,
    ∀ runs, EvidenceWindows text s (hull unit) runs →
      ∀ window, (tokenFilling text evidenceMax 0).Alone evidenceTargetTokens runs window →
        Mended (fun t => ¬ Overlong evidenceMax t) (windowText text window)
  joined : ∀ units, UnitWindows text s units → ∀ unit ∈ units,
    ∀ runs, EvidenceWindows text s (hull unit) runs → ∀ front previous last,
      (tokenFilling text evidenceMax 0).Joins evidenceTargetTokens runs front previous last →
        Mended (fun t => wordCount t ≤ evidenceMax ∧ ¬ Overlong evidenceMax t)
          (windowText text (previous ++ last))

def ChunkKind.maxTokens : ChunkKind → Nat
  | sectionUnit => unitMax
  | evidenceSpan => evidenceMax

/-- The chunk has no more tokens than its kind may have, or it is a single word. -/
def RagChunkRecord.Capped (chunk : RagChunkRecord) : Prop := Fits chunk.kind.maxTokens chunk.text

section Caps

variable {text part : List Char} {cap early share : Nat} {atoms window : List Span}
  {runs : List (List Span)} {right right' : List Char → Prop}

theorem slice_sublist (text : List Char) (span : Span) : (slice text span).Sublist text :=
  (drop_sublist _ _).trans (take_sublist _ _)

theorem wordCount_sanitizeText_le (text : List Char) :
    wordCount (sanitizeText text) ≤ wordCount text :=
  countWords_le_of_sublist filter_sublist

theorem wordCount_window_le (hOrder : InOrder atoms) (hDense : Dense text atoms)
    (hAtoms : ∀ atom ∈ atoms, wordCount (slice text atom) ≤ cap)
    (h : (tokenFilling text cap share).Fills early atoms runs) (hWindow : window ∈ runs) :
    wordCount (slice text (hull window)) ≤ cap := by
  rcases h.fits hWindow with hTotal | ⟨atom, hAtom, rfl⟩
  · obtain ⟨before, after, hRuns⟩ := append_of_mem hWindow
    have hFlatten : atoms = before.flatten ++ (window ++ after.flatten) := by
      rw [← h.flatten, hRuns, flatten_append, flatten_cons]
    rw [hFlatten] at hOrder hDense
    have hWindowOrder := (inOrder_append.mp (inOrder_append.mp hOrder).2.1).1
    have hCount := wordCount_hull_le (hDense.of_append hOrder) hWindowOrder (h.ne_nil hWindow)
    have hTokens : (window.map fun s => wordCount (slice text s)).sum ≤
        (tokenFilling text cap share).total window :=
      sum_le_sum fun s _ => wordCount_le_estimateTokens (slice text s)
    exact hCount.trans (hTokens.trans hTotal)
  · exact hAtoms atom hAtom

theorem Mended.congr (h : ∀ part, part.Sublist text → (right part ↔ right' part)) :
    Mended right text ↔ Mended right' text := by
  refine or_congr (h text (Sublist.refl text)) (and_congr_right fun _ => ?_)
  refine forall₂_congr fun runs _ => forall₂_congr fun window _ => ?_
  exact h _ (slice_sublist text (hull window))

/-- A text of few words is within a cap where it is not too long. -/
theorem mended_fits_iff (hCap : 1 ≤ cap) (hWords : wordCount text ≤ cap) :
    Mended (Fits cap) text ↔ Mended (fun t => ¬ Overlong cap t) text := by
  refine Mended.congr fun part hPart => ?_
  rw [fits_iff hCap, and_iff_right]
  exact (countWords_le_of_sublist hPart).trans hWords

theorem SingleWord.slice (h : SingleWord text) {span : Span} (hProper : span.start < span.stop)
    (hStop : span.stop ≤ text.length) : SingleWord (slice text span) := by
  refine ⟨?_, fun c hc => h.2 c ((slice_sublist text span).subset hc)⟩
  intro hNil
  have hLength := congrArg List.length hNil
  simp only [Corpus.slice, length_drop, length_take, length_nil] at hLength
  omega

theorem forall_pieces_iff {digests : Digests} {chunk : RagChunkRecord} (hCap : cap ≤ unitMax)
    (hTokens : chunk.tokenCount = estimateTokens chunk.text) :
    (∀ piece ∈ splitOversizedChunk digests unitMax chunk, Fits cap piece.text) ↔
      Mended (Fits cap) chunk.text := by
  unfold splitOversizedChunk Mended
  rw [hTokens]
  split
  next hSmall =>
    rw [forall_mem_singleton]
    exact (or_iff_left fun hLarge => absurd hLarge.1 (not_lt.mpr hSmall)).symm
  next hLarge =>
    obtain ⟨runs, hFills, hGroups⟩ := exists_fills_groupAtoms
      (fittingAtoms chunk.text unitMax (sentenceAtoms chunk.text 0)) chunk.text unitMax unitMax none
    rw [forall_mem_map]
    constructor
    · intro hPieces
      refine .inr ⟨not_le.mp hLarge, fun runs' hWindows window hWindow => ?_⟩
      obtain rfl : runs' = runs := hWindows.unique hFills
      apply hPieces
      rw [hGroups]
      exact mem_map_of_mem hWindow
    · rintro (hFits | ⟨-, hWindows⟩) span hSpan
      · rcases hFits with hFits | hSingle
        · exact absurd (hFits.trans hCap) hLarge
        · obtain ⟨hProper, hStop⟩ := pieces_within unitMax hSpan
          exact .inr (hSingle.slice hProper hStop)
      · rw [hGroups] at hSpan
        obtain ⟨window, hWindow, rfl⟩ := mem_map.mp hSpan
        exact hWindows runs hFills window hWindow

end Caps

/-! ## Chunks that are within their caps -/

section Chunks

variable {digests : Digests} {source : Source} {text : List Char} {sections : List DocumentSection}
  {records : List RagSectionRecord} {chunks : List RagChunkRecord}

theorem kind_of_mem_splitOversizedChunk {maxTokens : Nat} {chunk piece : RagChunkRecord}
    (h : piece ∈ splitOversizedChunk digests maxTokens chunk) : piece.kind = chunk.kind := by
  unfold splitOversizedChunk at h
  split at h
  · rw [mem_singleton.mp h]
  · obtain ⟨span, -, rfl⟩ := mem_map.mp h
    rfl

theorem exists_kept {seen : List (String × ChunkKind × List Char)} {piece : RagChunkRecord}
    (h : piece ∈ chunks) : (piece.sourceId, piece.kind, piece.text) ∈ seen ∨
      ∃ kept ∈ dropDuplicates seen chunks, kept.kind = piece.kind ∧ kept.text = piece.text := by
  induction chunks generalizing seen with
  | nil => cases h
  | cons first rest ih =>
    rw [dropDuplicates]
    split
    next hSeen =>
      rcases mem_cons.mp h with rfl | h
      · exact .inl hSeen
      · exact ih h
    next =>
      rcases mem_cons.mp h with rfl | h
      · exact .inr ⟨piece, mem_cons_self, rfl, rfl⟩
      · rcases @ih ((first.sourceId, first.kind, first.text) :: seen) h with hSeen | hKept
        · rcases mem_cons.mp hSeen with hSame | hSeen
          · obtain ⟨-, hKind, hText⟩ : piece.sourceId = first.sourceId ∧ piece.kind = first.kind ∧
                piece.text = first.text := by simpa using hSame
            exact .inr ⟨first, mem_cons_self, hKind.symm, hText.symm⟩
          · exact .inl hSeen
        · obtain ⟨kept, hMem, hSame⟩ := hKept
          exact .inr ⟨kept, mem_cons_of_mem first hMem, hSame⟩

/-- New indices and ids, and repeats that are dropped, change nothing of how large chunks are. -/
theorem forall_normalizeChunks_iff (digests : Digests) (chunks : List RagChunkRecord) :
    (∀ chunk ∈ normalizeChunks digests chunks, chunk.Capped) ↔
      ∀ whole ∈ chunks, ∀ piece ∈ splitOversizedChunk digests unitMax whole, piece.Capped := by
  constructor
  · intro hAll whole hWhole piece hPiece
    have hMem : piece ∈ chunks.flatMap (splitOversizedChunk digests unitMax) :=
      mem_flatMap.mpr ⟨whole, hWhole, hPiece⟩
    obtain ⟨kept, hKept, hKind, hText⟩ := (@exists_kept _ [] _ hMem).resolve_left nofun
    obtain ⟨index, hIndex, rfl⟩ := getElem_of_mem hKept
    have hCapped := hAll _ (mem_mapIdx.mpr ⟨index, hIndex, rfl⟩)
    unfold RagChunkRecord.Capped at hCapped ⊢
    rwa [← hKind, ← hText]
  · intro hAll chunk hChunk
    obtain ⟨index, hIndex, rfl⟩ := mem_mapIdx.mp hChunk
    have hMem := mem_of_mem_dropDuplicates (getElem_mem hIndex)
    obtain ⟨whole, hWhole, hPiece⟩ := mem_flatMap.mp hMem
    have hCapped := hAll whole hWhole _ hPiece
    exact hCapped

variable {P : ChunkKind → List Char → Prop}

theorem forall_makeChunks_iff
    {planned : List (DocumentSection × ChunkKind × Span)} {index : Nat}
    (h : makeChunks digests source text index planned = some chunks) :
    (∀ chunk ∈ chunks, P chunk.kind chunk.text) ↔
      ∀ entry ∈ planned, P entry.2.1 (sanitizeText (slice text entry.2.2)) := by
  induction planned generalizing index chunks with
  | nil =>
    cases h
    simp
  | cons entry rest ih =>
    obtain ⟨s, kind, span⟩ := entry
    simp only [makeChunks, Option.bind_eq_bind, Option.bind_eq_some_iff, Option.pure_def,
      Option.some.injEq] at h
    obtain ⟨first, hFirst, later, hLater, rfl⟩ := h
    have hKind : first.kind = kind := congrArg (fun place => place.2.1) (makeChunk_eq_some hFirst)
    obtain ⟨-, hText, -⟩ := makeChunk_says hFirst
    rw [forall_mem_cons, forall_mem_cons, ih hLater, hKind, hText]

theorem forall_plannedChunks_iff :
    (∀ entry ∈ plannedChunks text sections, P entry.2.1 (sanitizeText (slice text entry.2.2))) ↔
      ∀ s ∈ sections, ∀ unit ∈ unitSpans text s,
        P .sectionUnit (sanitizeText (slice text unit)) ∧
          ∀ e ∈ evidenceSpans text s unit, P .evidenceSpan (sanitizeText (slice text e)) := by
  unfold plannedChunks orderedSections sectionChunks
  simp only [forall_mem_flatMap, forall_mem_map, mem_sortOn, forall_mem_cons]

variable {s : DocumentSection} {units runs : List (List Span)} {unit window : List Span}

theorem exists_unitWindows (text : List Char) (s : DocumentSection) :
    ∃ units, UnitWindows text s units ∧ unitSpans text s = units.map hull :=
  exists_fills_groupAtoms (unitAtoms text s) text unitMax unitTargetTokens (some (unitCount text s))

theorem wordCount_unitWindow_le (h : UnitWindows text s units) (hUnit : unit ∈ units) :
    wordCount (windowText text unit) ≤ unitMax := by
  obtain ⟨hOrder, -⟩ := sentenceAtoms_inOrder (slice text s.span) s.startChar
  refine (wordCount_sanitizeText_le _).trans (wordCount_window_le ?_ ?_ ?_ h hUnit)
  · exact fittingAtoms_inOrder text unitMax hOrder
  · exact (dense_sentences text s).fittingAtoms hOrder unitMax
  · exact wordCount_fittingAtoms hOrder (by decide)

theorem wordCount_evidenceWindow_le {unit : Span} (h : EvidenceWindows text s unit runs)
    (hWindow : window ∈ runs) : wordCount (windowText text window) ≤ evidenceMax := by
  obtain ⟨hSentences, -⟩ := sentenceAtoms_inOrder (slice text s.span) s.startChar
  have hOrder : InOrder ((sentences text s).filter fun atom => atom.Within unit) :=
    hSentences.sublist filter_sublist
  refine (wordCount_sanitizeText_le _).trans (wordCount_window_le ?_ ?_ ?_ h hWindow)
  · exact fittingAtoms_inOrder text evidenceMax hOrder
  · exact ((dense_sentences text s).filter_within hSentences unit).fittingAtoms hOrder evidenceMax
  · exact wordCount_fittingAtoms hOrder (by decide)

theorem forall_unitSpans_iff (text : List Char) (s : DocumentSection) :
    (∀ unit ∈ unitSpans text s, Mended (Fits unitMax) (sanitizeText (slice text unit)) ∧
        ∀ e ∈ evidenceSpans text s unit, Mended (Fits evidenceMax) (sanitizeText (slice text e))) ↔
      WithinCaps text s := by
  obtain ⟨units, hUnits, hSpans⟩ := exists_unitWindows text s
  have hUnit : ∀ unit ∈ units, Mended (Fits unitMax) (windowText text unit) ↔
      Mended (fun t => ¬ Overlong unitMax t) (windowText text unit) := fun unit hMem =>
    mended_fits_iff (by decide) (wordCount_unitWindow_le hUnits hMem)
  have hJoined : ∀ t, Mended (Fits evidenceMax) t ↔
      Mended (fun t => wordCount t ≤ evidenceMax ∧ ¬ Overlong evidenceMax t) t := fun t =>
    Mended.congr fun part _ => fits_iff (by decide)
  rw [hSpans, forall_mem_map]
  constructor
  · intro hAll
    have hEvidence : ∀ units', UnitWindows text s units' → ∀ unit ∈ units',
        ∀ runs, EvidenceWindows text s (hull unit) runs →
          ∃ groups, (tokenFilling text evidenceMax 0).Joined evidenceTargetTokens runs groups ∧
            ∀ group ∈ groups, Mended (Fits evidenceMax) (windowText text group) := by
      intro units' hUnits' unit hMem runs hRuns
      obtain rfl : units' = units := hUnits'.unique hUnits
      obtain ⟨runs', groups, hFills, hGroups, hEvidence⟩ := exists_fills_groupAtoms_merged
        (evidenceAtoms text s (hull unit)) text evidenceMax evidenceTargetTokens
      obtain rfl : runs = runs' := hRuns.unique hFills
      refine ⟨groups, hGroups, fun group hGroup => (hAll unit hMem).2 (hull group) ?_⟩
      have hSame : evidenceSpans text s (hull unit) = groups.map hull := hEvidence
      rw [hSame]
      exact mem_map_of_mem hGroup
    constructor
    · intro units' hUnits' unit hMem
      obtain rfl : units' = units := hUnits'.unique hUnits
      exact (hUnit unit hMem).mp (hAll unit hMem).1
    · intro units' hUnits' unit hMem runs hRuns window hAlone
      obtain ⟨groups, hGroups, hRight⟩ := hEvidence units' hUnits' unit hMem runs hRuns
      have hFits := hRight window (hGroups.mem_iff.mpr (.inl hAlone))
      exact (mended_fits_iff (by decide) (wordCount_evidenceWindow_le hRuns hAlone.1)).mp hFits
    · intro units' hUnits' unit hMem runs hRuns front previous last hJoins
      obtain ⟨groups, hGroups, hRight⟩ := hEvidence units' hUnits' unit hMem runs hRuns
      have hFits := hRight _ (hGroups.mem_iff.mpr (.inr ⟨front, previous, last, hJoins, rfl⟩))
      exact (hJoined _).mp hFits
  · intro hCaps unit hMem
    refine ⟨(hUnit unit hMem).mpr (hCaps.unit units hUnits unit hMem), fun e he => ?_⟩
    obtain ⟨runs, groups, hRuns, hGroups, hEvidence⟩ := exists_fills_groupAtoms_merged
      (evidenceAtoms text s (hull unit)) text evidenceMax evidenceTargetTokens
    have hSame : evidenceSpans text s (hull unit) = groups.map hull := hEvidence
    rw [hSame] at he
    obtain ⟨group, hGroup, rfl⟩ := mem_map.mp he
    rcases hGroups.mem_iff.mp hGroup with hAlone | ⟨front, previous, last, hJoins, rfl⟩
    · have hWords := wordCount_evidenceWindow_le hRuns hAlone.1
      refine (mended_fits_iff (by decide) hWords).mpr ?_
      exact hCaps.evidence units hUnits unit hMem runs hRuns group hAlone
    · refine (hJoined _).mpr ?_
      exact hCaps.joined units hUnits unit hMem runs hRuns front previous last hJoins

/-- **Token caps**: of the chunks of a document that are stored, every one that is not a single word
has no more tokens than its kind may have, if and only if the texts of the windows of its sections
are no longer than their caps allow. -/
theorem capped_iff (hBuild : buildChunks digests source text sections = some (records, chunks)) :
    (∀ chunk ∈ normalizeChunks digests chunks, chunk.Capped) ↔
      ∀ s ∈ sections, WithinCaps text s := by
  simp only [buildChunks, Option.bind_eq_bind, Option.bind_eq_some_iff] at hBuild
  obtain ⟨made, hMade, hPure⟩ := hBuild
  cases hPure
  rw [forall_normalizeChunks_iff]
  have hPieces : ∀ whole ∈ chunks,
      (∀ piece ∈ splitOversizedChunk digests unitMax whole, piece.Capped) ↔
        Mended (Fits whole.kind.maxTokens) whole.text := by
    intro whole hWhole
    obtain ⟨entry, -, index, hMake⟩ := exists_planned_of_mem hMade hWhole
    obtain ⟨-, -, hTokens, -⟩ := makeChunk_says hMake
    have hCap : whole.kind.maxTokens ≤ unitMax := by cases whole.kind <;> decide
    rw [← @forall_pieces_iff _ digests whole hCap hTokens]
    refine forall₂_congr fun piece hPiece => ?_
    rw [RagChunkRecord.Capped, kind_of_mem_splitOversizedChunk hPiece]
  rw [forall₂_congr hPieces,
    forall_makeChunks_iff hMade (P := fun kind => Mended (Fits kind.maxTokens)),
    forall_plannedChunks_iff (P := fun kind => Mended (Fits kind.maxTokens))]
  exact forall₂_congr fun s _ => forall_unitSpans_iff text s

end Chunks

/-- A sentence of two words with 330 tokens each. -/
def wordySentence : List Char := List.replicate 990 'a' ++ ' ' :: List.replicate 990 'b' ++ ['.']

/-- The second section has a sentence that is too large for one evidence span. -/
theorem capped_iff_wordySentence : ∃ records chunks,
    buildChunks emptyDigests paperSource (twoQuestions ++ wordySentence) (twoSections 1982) =
        some (records, chunks) ∧
      chunks.map RagChunkRecord.kind =
        [.sectionUnit, .evidenceSpan, .sectionUnit, .evidenceSpan, .evidenceSpan] ∧
      ∀ chunk ∈ normalizeChunks emptyDigests chunks, chunk.Capped := by
  have hKinds : ((buildChunks emptyDigests paperSource (twoQuestions ++ wordySentence)
      (twoSections 1982)).map fun built => built.2.map RagChunkRecord.kind) =
        some [.sectionUnit, .evidenceSpan, .sectionUnit, .evidenceSpan, .evidenceSpan] := by
    decide +kernel
  obtain ⟨⟨records, chunks⟩, hBuild, hKinds⟩ := Option.map_eq_some_iff.mp hKinds
  refine ⟨records, chunks, hBuild, hKinds, (capped_iff hBuild).mpr fun s hs => ?_⟩
  have hFits : ∀ s ∈ twoSections 1982, ∀ unit ∈ unitSpans (twoQuestions ++ wordySentence) s,
      Fits unitMax (sanitizeText (slice (twoQuestions ++ wordySentence) unit)) ∧
        ∀ e ∈ evidenceSpans (twoQuestions ++ wordySentence) s unit,
          Fits evidenceMax (sanitizeText (slice (twoQuestions ++ wordySentence) e)) := by
    decide +kernel
  refine (forall_unitSpans_iff _ s).mp fun unit hUnit => ?_
  obtain ⟨hUnitFits, hEvidenceFits⟩ := hFits s hs unit hUnit
  exact ⟨.inl hUnitFits, fun e he => .inl (hEvidenceFits e he)⟩

/-- A sentence of 340 tokens, and one of a single token. -/
def tailedText : List Char := List.replicate 1019 'a' ++ ['.', ' ', 'b', '.']

/-- The second sentence is joined to the first one, and the evidence span has 341 tokens. -/
theorem tail_exceeds_cap : ContiguousFrom 0 tailedText.length [introduction 1023] ∧
    ∃ records chunks, buildChunks emptyDigests paperSource tailedText [introduction 1023] =
        some (records, chunks) ∧
      ¬ ∀ chunk ∈ normalizeChunks emptyDigests chunks, chunk.Capped := by
  have hLength : tailedText.length = 1023 := by
    rw [tailedText, length_append, length_replicate]
    rfl
  refine ⟨⟨rfl, Nat.zero_le _, hLength.symm⟩, ?_⟩
  have hLarge : ((buildChunks emptyDigests paperSource tailedText [introduction 1023]).any
      fun built => (normalizeChunks emptyDigests built.2).any fun chunk =>
        chunk.kind = .evidenceSpan ∧ evidenceMax < estimateTokens chunk.text ∧
          chunk.text.any isSpace = true) = true := by
    decide +kernel
  obtain ⟨⟨records, chunks⟩, hBuild, hLarge⟩ := (Option.any_eq_true _ _).mp hLarge
  refine ⟨records, chunks, hBuild, fun hCapped => ?_⟩
  obtain ⟨chunk, hChunk, hSays⟩ := any_eq_true.mp hLarge
  obtain ⟨hKind, hTokens, hSpace⟩ := of_decide_eq_true hSays
  have hHere := hCapped chunk hChunk
  rw [RagChunkRecord.Capped, hKind] at hHere
  rcases hHere with hFits | hSingle
  · exact absurd hFits (not_le.mpr hTokens)
  · obtain ⟨c, hc, hWhite⟩ := any_eq_true.mp hSpace
    rw [hSingle.2 c hc] at hWhite
    cases hWhite

end Glasslab.Corpus
