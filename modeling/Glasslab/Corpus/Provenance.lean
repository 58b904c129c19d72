import Glasslab.Corpus.SectionDetection

/-!
# Where a chunk is from

A chunk says from which positions of the document it is and from which page to which. What
`build_chunks` says is right. A chunk that is larger than a unit is cut again by `normalize_chunks`,
and there positions in the sanitized text are added to a position of the document, while the pages
stay those of the whole chunk. So the places of the pieces are right if the chunk has no character
that sanitizing removes and is on one page (`provenance_of_cutInPlace`). A piece that begins where
its chunk begins to differ from its sanitized text is placed wrong (`not_provenance_of_removed`).
-/

namespace Glasslab.Corpus

open Foundation Span List

/-- Where a page starts, with two line breaks after each page before it. -/
def pageOffset (pages : List ExtractedPage) (k : Nat) : Nat :=
  ((pages.take k).map fun page => page.text.length + 2).sum

def OnPage (pages : List ExtractedPage) (k position : Nat) : Prop :=
  pageOffset pages k ≤ position ∧ position < pageOffset pages (k + 1)

section Pages

variable {pages : List ExtractedPage} {j k position : Nat}

@[simp] theorem pageOffset_zero : pageOffset pages 0 = 0 := rfl

variable {rest : List ExtractedPage} {page : ExtractedPage}

@[simp] theorem pageOffset_cons :
    pageOffset (page :: rest) (k + 1) = page.text.length + 2 + pageOffset rest k := rfl

theorem pageOffset_mono (h : j ≤ k) : pageOffset pages j ≤ pageOffset pages k := by
  have hSublist : (pages.take j).Sublist (pages.take k) := take_sublist_take_left h
  exact (hSublist.map _).sum_le_sum fun _ _ => Nat.zero_le _

theorem OnPage.unique (h : OnPage pages j position) (h' : OnPage pages k position) : j = k := by
  obtain ⟨hFrom, hTo⟩ := h
  obtain ⟨hFrom', hTo'⟩ := h'
  rcases Nat.lt_trichotomy j k with hLt | hEq | hGt
  · have hMono : pageOffset pages (j + 1) ≤ pageOffset pages k := pageOffset_mono hLt
    omega
  · exact hEq
  · have hMono : pageOffset pages (k + 1) ≤ pageOffset pages j := pageOffset_mono hGt
    omega

theorem OnPage.between {first last : Nat} (hFirst : OnPage pages k first)
    (hLast : OnPage pages k last) (hFrom : first ≤ position) (hTo : position ≤ last) :
    OnPage pages k position :=
  ⟨hFirst.1.trans hFrom, hTo.trans_lt hLast.2⟩

/-- `offsets` of `_page_resolver`, from a position on, with the end of the last page. -/
def offsetsFrom (base : Nat) (pages : List ExtractedPage) : List Nat :=
  pages.scanl (fun position page => position + page.text.length + 2) base

theorem offsetsFrom_cons {base : Nat} :
    offsetsFrom base (page :: rest) =
      base :: offsetsFrom (base + page.text.length + 2) rest :=
  scanl_cons

theorem le_of_mem_offsetsFrom {base offset : Nat} (h : offset ∈ offsetsFrom base pages) :
    base ≤ offset := by
  induction pages generalizing base with
  | nil =>
    rw [offsetsFrom, scanl_nil, mem_singleton] at h
    exact h.ge
  | cons page rest ih =>
    rw [offsetsFrom_cons] at h
    rcases mem_cons.mp h with rfl | h
    · exact le_rfl
    · have hRest := ih h
      omega

theorem getLast?_offsetsFrom (base : Nat) (pages : List ExtractedPage) :
    (offsetsFrom base pages).getLast? = some (base + pageOffset pages pages.length) := by
  induction pages generalizing base with
  | nil => rfl
  | cons page rest ih =>
    rw [offsetsFrom_cons, List.getLast?_cons, ih, length_cons, pageOffset_cons,
      Option.getD_some]
    congr 1
    omega

theorem exists_countP_offsetsFrom {base : Nat} (hFrom : base ≤ position)
    (hTo : position < base + pageOffset pages pages.length) :
    ∃ k < pages.length, ((offsetsFrom base pages).take pages.length).countP
        (fun offset => offset ≤ position) = k + 1 ∧
      base + pageOffset pages k ≤ position ∧ position < base + pageOffset pages (k + 1) := by
  induction pages generalizing base with
  | nil => exact absurd hTo (not_lt.mpr hFrom)
  | cons page rest ih =>
    rw [length_cons, pageOffset_cons] at hTo
    rw [offsetsFrom_cons, length_cons, take_succ_cons,
      countP_cons_of_pos (by simpa using hFrom)]
    by_cases hHere : position < base + page.text.length + 2
    · refine ⟨0, Nat.succ_pos _, ?_, by simpa using hFrom, ?_⟩
      · rw [Nat.zero_add, Nat.add_eq_right, countP_eq_zero]
        intro offset hOffset
        have hLe := le_of_mem_offsetsFrom (mem_of_mem_take hOffset)
        simp only [decide_eq_true_iff]
        omega
      · rw [pageOffset_cons, pageOffset_zero]
        omega
    · obtain ⟨k, hk, hCount, hFrom', hTo'⟩ :=
        @ih (base + page.text.length + 2) (not_lt.mp hHere) (by omega)
      refine ⟨k + 1, Nat.succ_lt_succ hk, congrArg (· + 1) hCount, ?_, ?_⟩
      · rw [pageOffset_cons]
        omega
      · rw [pageOffset_cons]
        omega

/-- `_page_resolver` finds the page of a position of the text. -/
theorem exists_pageForChar (h : position + 2 < pageOffset pages pages.length) :
    ∃ k page, pages[k]? = some page ∧ OnPage pages k position ∧
      pageForChar pages position = some page.pageIndex := by
  obtain ⟨k, hk, hCount, hFrom, hTo⟩ := @exists_countP_offsetsFrom pages position 0
    (Nat.zero_le _) (by omega)
  rw [Nat.zero_add] at hFrom hTo
  refine ⟨k, pages[k], List.getElem?_eq_getElem hk, ⟨hFrom, hTo⟩, ?_⟩
  have hTotal :
      ((offsetsFrom 0 pages).getLast?.getD 0) - 2 = pageOffset pages pages.length - 2 := by
    rw [getLast?_offsetsFrom, Nat.zero_add, Option.getD_some]
  unfold pageForChar
  dsimp only
  rw [← offsetsFrom, hTotal, if_neg (by omega), hCount, Nat.add_sub_cancel,
    List.getElem?_eq_getElem hk]
  rfl

/-- Two line breaks stand between any two pages. -/
theorem length_assembled (h : pages ≠ []) :
    (['\n', '\n'].intercalate (pages.map ExtractedPage.text)).length + 2 =
      pageOffset pages pages.length := by
  induction pages with
  | nil => exact absurd rfl h
  | cons page rest ih =>
    cases rest with
    | nil => simp [pageOffset]
    | cons next rest =>
      have hRest := ih (cons_ne_nil _ _)
      rw [length_cons, pageOffset_cons, ← hRest, map_cons, map_cons,
        intercalate_cons_cons, length_append, length_append]
      simp only [length_cons, length_nil]
      omega

end Pages

def TypesetDocument.plainPages (document : TypesetDocument) : List ExtractedPage :=
  document.pages.map TypesetPage.toExtractedPage

def OfPage (document : TypesetDocument) (position : Nat) (pageIndex : Option Nat) : Prop :=
  ∃ k page, document.plainPages[k]? = some page ∧ OnPage document.plainPages k position ∧
    pageIndex = some page.pageIndex

/-- The chunk has the text at its place, and the pages of its first and last position. -/
structure Provenance (document : TypesetDocument) (chunk : RagChunkRecord) : Prop where
  proper : chunk.charStart < chunk.charEnd
  within : chunk.charEnd ≤ document.text.length
  text : strip isSpace (sanitizeText (slice document.text chunk.span)) = strip isSpace chunk.text
  pageStart : OfPage document chunk.charStart chunk.pageStart
  pageEnd : OfPage document (chunk.charEnd - 1) chunk.pageEnd

def Pipeline.documentChunks (pipeline : Pipeline) (source : Source) (document : TypesetDocument)
    (nodes : List SectionNode) : Option (List RagChunkRecord) :=
  let source := { source with resolvePage := pageForChar document.plainPages }
  match buildChunks pipeline.digests source document.text
      (nodes.map SectionNode.toDocumentSection) with
  | none => none
  | some (sections, chunks) =>
    some (pipeline.dropNonProse sections (normalizeChunks pipeline.digests chunks)).2

section Chunks

variable {document : TypesetDocument} {digests : Digests} {source : Source} {text : List Char}
  {sections : List DocumentSection} {position : Nat}

theorem exists_ofPage (h : position < document.text.length) :
    OfPage document position (pageForChar document.plainPages position) := by
  have hPages : document.plainPages ≠ [] := by
    simpa [TypesetDocument.plainPages] using document.pages_ne
  have hLength := length_assembled hPages
  rw [TypesetDocument.plainPages, map_map, ← TypesetDocument.plainPages] at hLength
  have hText : document.text.length + 2 =
      pageOffset document.plainPages document.plainPages.length := by
    rw [document.assembled]
    exact hLength
  obtain ⟨k, page, hPage, hOn, hIndex⟩ := @exists_pageForChar document.plainPages position
    (by omega)
  exact ⟨k, page, hPage, hOn, hIndex⟩

theorem ContiguousFrom.endChar_le {start length : Nat} (h : ContiguousFrom start length sections) :
    start ≤ length ∧ ∀ s ∈ sections, s.endChar ≤ length := by
  induction sections generalizing start with
  | nil => exact ⟨Eq.le h, nofun⟩
  | cons first rest ih =>
    obtain ⟨rfl, hProper, hRest⟩ := h
    obtain ⟨hEnd, hAll⟩ := ih hRest
    refine ⟨hProper.trans hEnd, fun s hs => ?_⟩
    rcases mem_cons.mp hs with rfl | hs
    · exact hEnd
    · exact hAll s hs

variable {s : DocumentSection}

theorem sectionChunks_within (h : s.startChar ≤ s.endChar)
    {chunk : ChunkKind × Span} (hMem : chunk ∈ sectionChunks text s) :
    chunk.2.start < chunk.2.stop ∧ chunk.2.Within s.span := by
  obtain ⟨unit, hUnit, hChunk⟩ := mem_flatMap.mp hMem
  obtain ⟨hUnits, hWithin⟩ := unitSpans_inOrder text h
  rcases mem_cons.mp hChunk with rfl | hChunk
  · exact ⟨hUnits.proper unit hUnit, hWithin unit hUnit⟩
  · obtain ⟨span, hSpan, rfl⟩ := mem_map.mp hChunk
    obtain ⟨hEvidence, hInside⟩ := evidenceSpans_inOrder text h unit
    exact ⟨hEvidence.proper span hSpan, (hInside span hSpan).trans (hWithin unit hUnit)⟩

variable {chunk : RagChunkRecord} {index : Nat}

theorem exists_planned_of_mem {planned : List (DocumentSection × ChunkKind × Span)}
    (h : makeChunks digests source text index planned = some chunks) (hMem : chunk ∈ chunks) :
    ∃ entry ∈ planned, ∃ i,
      makeChunk digests source text entry.1 entry.2.1 entry.2.2 i = some chunk := by
  induction planned generalizing index chunks with
  | nil =>
    cases h
    cases hMem
  | cons entry rest ih =>
    obtain ⟨s, kind, span⟩ := entry
    simp only [makeChunks, Option.bind_eq_bind, Option.bind_eq_some_iff, Option.pure_def,
      Option.some.injEq] at h
    obtain ⟨first, hFirst, later, hLater, rfl⟩ := h
    rcases mem_cons.mp hMem with rfl | hMem
    · exact ⟨(s, kind, span), mem_cons_self, index, hFirst⟩
    · obtain ⟨found, hFound, hMake⟩ := ih hLater hMem
      exact ⟨found, mem_cons_of_mem _ hFound, hMake⟩

variable {span : Span} {kind : ChunkKind}

theorem makeChunk_says (h : makeChunk digests source text s kind span index = some chunk) :
    chunk.span = span ∧ chunk.text = sanitizeText (slice text span) ∧
      chunk.tokenCount = estimateTokens chunk.text ∧
      chunk.pageStart = source.resolvePage span.start ∧
      chunk.pageEnd = source.resolvePage (max span.start (span.stop - 1)) := by
  unfold makeChunk at h
  dsimp only at h
  split at h
  next => cases h
  next =>
    cases h
    exact ⟨rfl, rfl, rfl, rfl, rfl⟩

/-! ## Pieces -/

theorem pieces_within (maxTokens : Nat)
    (h : span ∈ groupAtoms (fittingAtoms text maxTokens (sentenceAtoms text 0)) text maxTokens
      maxTokens false none) : span.start < span.stop ∧ span.stop ≤ text.length := by
  obtain ⟨hInOrder, hWithin⟩ := sentenceAtoms_inOrder text 0
  obtain ⟨groups, hPacks, hGroups⟩ := exists_packs_groupAtoms
    (fittingAtoms text maxTokens (sentenceAtoms text 0)) text maxTokens maxTokens false none
  rw [hGroups] at h
  refine ⟨(hPacks.inOrder (fittingAtoms_inOrder text maxTokens hInOrder)).proper span h, ?_⟩
  have hWhole : span.Within ⟨0, text.length⟩ := by
    refine hPacks.within (fun t ht => ?_) h
    obtain ⟨atom, hAtom, hPart⟩ := exists_atom_of_mem_fittingAtoms hInOrder ht
    rw [← Nat.zero_add text.length]
    exact hPart.trans (hWithin atom hAtom)
  exact hWhole.2

theorem slice_slice {piece : Span} (hProper : piece.start < piece.stop)
    (h : piece.stop ≤ (slice text span).length) :
    slice (slice text span) piece =
    slice text ⟨span.start + piece.start, span.start + piece.stop⟩ := by
  rw [slice, length_drop, length_take] at h
  simp only [slice, take_drop, drop_drop, take_take]
  rw [Nat.min_eq_left (by omega)]

theorem sanitizeText_slice (h : sanitizeText text = text) :
    sanitizeText (slice text span) = slice text span := by
  unfold sanitizeText at h ⊢
  rw [filter_eq_self] at h ⊢
  intro c hc
  exact h c (mem_of_mem_take (mem_of_mem_drop hc))

/-- The chunk consists of characters that are kept, and is on one page. -/
structure InPlace (document : TypesetDocument) (span : Span) : Prop where
  kept : sanitizeText (slice document.text span) = slice document.text span
  onePage : ∃ k, OnPage document.plainPages k span.start ∧
    OnPage document.plainPages k (span.stop - 1)

def CutInPlace (document : TypesetDocument) (nodes : List SectionNode) : Prop :=
  ∀ node ∈ nodes, ∀ chunk ∈ sectionChunks document.text node.toDocumentSection,
    unitMax < estimateTokens (sanitizeText (slice document.text chunk.2)) →
      InPlace document chunk.2

/-- What a chunk that has been made says is right. -/
theorem provenance_of_makeChunk
    (h : makeChunk digests { source with resolvePage := pageForChar document.plainPages }
      document.text s kind span index = some chunk)
    (hProper : span.start < span.stop) (hWithin : span.stop ≤ document.text.length) :
    Provenance document chunk := by
  obtain ⟨rfl, hText, -, hStart, hEnd⟩ := makeChunk_says h
  have hLast : max chunk.span.start (chunk.span.stop - 1) = chunk.span.stop - 1 :=
    Nat.max_eq_right (Nat.le_sub_one_of_lt hProper)
  refine ⟨hProper, hWithin, by rw [hText], ?_, ?_⟩
  · rw [hStart]
    exact exists_ofPage (hProper.trans_le hWithin)
  · rw [hEnd, hLast]
    apply exists_ofPage
    show chunk.span.stop - 1 < document.text.length
    omega

/-- On one page, a position between two others has the index that they have. -/
theorem OfPage.between {first last : Nat} {pageIndex : Option Nat}
    (h : OfPage document first pageIndex ∨ OfPage document last pageIndex)
    (hPage : ∃ k, OnPage document.plainPages k first ∧ OnPage document.plainPages k last)
    (hFrom : first ≤ position) (hTo : position ≤ last) : OfPage document position pageIndex := by
  obtain ⟨k, hFirst, hLast⟩ := hPage
  have hHere := hFirst.between hLast hFrom hTo
  rcases h with ⟨j, page, hGet, hOn, rfl⟩ | ⟨j, page, hGet, hOn, rfl⟩
  · obtain rfl := hOn.unique hFirst
    exact ⟨j, page, hGet, hHere, rfl⟩
  · obtain rfl := hOn.unique hLast
    exact ⟨j, page, hGet, hHere, rfl⟩

theorem Provenance.split {piece : RagChunkRecord} (h : Provenance document chunk)
    (hText : chunk.text = sanitizeText (slice document.text chunk.span))
    (hTokens : chunk.tokenCount = estimateTokens chunk.text)
    (hInPlace : unitMax < estimateTokens chunk.text → InPlace document chunk.span)
    (hPiece : piece ∈ splitOversizedChunk digests unitMax chunk) : Provenance document piece := by
  unfold splitOversizedChunk at hPiece
  split at hPiece
  next =>
    rw [mem_singleton.mp hPiece]
    exact h
  next hLarge =>
    obtain ⟨hKept, hPage⟩ := hInPlace (hTokens ▸ not_le.mp hLarge)
    obtain ⟨span, hSpan, rfl⟩ := mem_map.mp hPiece
    obtain ⟨hProper, hStop⟩ := pieces_within unitMax hSpan
    have hRaw : chunk.text = slice document.text chunk.span := hText.trans hKept
    have hEnd := length_slice_le document.text chunk.span h.proper.le
    have hPart : slice chunk.text span = slice document.text
        ⟨chunk.charStart + span.start, chunk.charStart + span.stop⟩ := by
      rw [hRaw]
      exact slice_slice hProper (hRaw ▸ hStop)
    rw [← hRaw] at hEnd
    have hStopLe : chunk.charStart + span.stop ≤ chunk.charEnd :=
      (Nat.add_le_add_left hStop _).trans hEnd
    have hPartKept : sanitizeText (slice chunk.text span) = slice chunk.text span :=
      sanitizeText_slice (by rw [hRaw, hKept])
    refine ⟨Nat.add_lt_add_left hProper _, hStopLe.trans h.within, ?_, ?_, ?_⟩
    · show strip isSpace (sanitizeText (slice document.text
          ⟨chunk.charStart + span.start, chunk.charStart + span.stop⟩)) =
        strip isSpace (slice chunk.text span)
      rw [← hPart, hPartKept]
    · refine OfPage.between (.inl h.pageStart) hPage (Nat.le_add_right _ _) ?_
      show chunk.charStart + span.start ≤ chunk.charEnd - 1
      omega
    · refine OfPage.between (.inr h.pageEnd) hPage ?_ ?_
      · show chunk.charStart ≤ chunk.charStart + span.stop - 1
        omega
      · show chunk.charStart + span.stop - 1 ≤ chunk.charEnd - 1
        omega

/-- A new index and id change nothing of what is said of the place. -/
theorem exists_piece_of_normalizeChunks {chunks : List RagChunkRecord}
    (h : chunk ∈ normalizeChunks digests chunks) :
    ∃ whole ∈ chunks, ∃ piece ∈ splitOversizedChunk digests unitMax whole,
      Provenance document piece → Provenance document chunk := by
  obtain ⟨index, hIndex, rfl⟩ := mem_mapIdx.mp h
  have hMem := mem_of_mem_dropDuplicates (getElem_mem hIndex)
  obtain ⟨whole, hWhole, hPiece⟩ := mem_flatMap.mp hMem
  exact ⟨whole, hWhole, _, hPiece, fun hRight => { hRight with }⟩

variable {pipeline : Pipeline} {nodes : List SectionNode} {chunks : List RagChunkRecord}

/-- **The place of a chunk**: every chunk of a document that is stored has the text that stands at
its place and the pages of its first and last position, if every chunk that is larger than a unit is
on one page and has no character that sanitizing removes. -/
theorem provenance_of_cutInPlace (hDetect : detectSections document = .ok nodes)
    (hChunks : pipeline.documentChunks source document nodes = some chunks)
    (hPlace : CutInPlace document nodes) : ∀ chunk ∈ chunks, Provenance document chunk := by
  intro chunk hChunk
  have hContiguous := contiguous_detectSections hDetect
  unfold Pipeline.documentChunks at hChunks
  dsimp only at hChunks
  split at hChunks
  · cases hChunks
  next records built hBuild =>
    obtain rfl := Option.some.inj hChunks
    obtain ⟨whole, hWhole, piece, hPiece, hSame⟩ :=
      @exists_piece_of_normalizeChunks document _ _ _ (mem_filter.mp hChunk).1
    apply hSame
    simp only [buildChunks, Option.bind_eq_bind, Option.bind_eq_some_iff] at hBuild
    obtain ⟨made, hMade, hPure⟩ := hBuild
    cases hPure
    obtain ⟨⟨s, kind, span⟩, hEntry, index, hMake⟩ := exists_planned_of_mem hMade hWhole
    obtain ⟨s', hSection, hPlanned⟩ := mem_flatMap.mp hEntry
    obtain ⟨planned, hMem, hEq⟩ := mem_map.mp hPlanned
    obtain ⟨rfl, rfl⟩ := Prod.mk.inj hEq
    rw [hContiguous.orderedSections_eq] at hSection
    have hBounds := (hContiguous.bounds s' hSection).2
    obtain ⟨hProper, hWithin⟩ := sectionChunks_within hBounds hMem
    have hRight := provenance_of_makeChunk hMake hProper
      (hWithin.2.trans (hContiguous.endChar_le.2 s' hSection))
    obtain ⟨hSpan, hText, hTokens, -, -⟩ := makeChunk_says hMake
    refine hRight.split (hSpan ▸ hText) hTokens ?_ hPiece
    intro hLarge
    obtain ⟨node, hNode, rfl⟩ := mem_map.mp hSection
    rw [hSpan]
    exact hPlace node hNode _ hMem (hText ▸ hLarge)

end Chunks

/-- A text with as many characters as its place has, none of which is white space at an end, is not
the text of its place if a character of the place is removed. -/
theorem not_provenance_of_removed {document : TypesetDocument} {chunk : RagChunkRecord}
    (hLength : chunk.text.length = chunk.charEnd - chunk.charStart)
    (hEnds : strip isSpace chunk.text = chunk.text)
    (hRemoved : sanitizeText (slice document.text chunk.span) ≠ slice document.text chunk.span) :
    ¬ Provenance document chunk := by
  intro h
  have hText := congrArg List.length h.text
  have hPlace := length_slice_le document.text chunk.span h.proper.le
  have hShort : (sanitizeText (slice document.text chunk.span)).length <
      (slice document.text chunk.span).length := by
    have hSublist : (sanitizeText (slice document.text chunk.span)).Sublist
        (slice document.text chunk.span) := filter_sublist
    exact Nat.lt_of_le_of_ne hSublist.length_le fun hEq => hRemoved (hSublist.eq_of_length hEq)
  have hStrip : (strip isSpace (sanitizeText (slice document.text chunk.span))).length ≤
      (sanitizeText (slice document.text chunk.span)).length := by
    exact (List.rdropWhile_prefix _ _).length_le.trans (dropWhile_sublist _).length_le
  rw [hEnds, hLength] at hText
  have hSpan : chunk.span.start = chunk.charStart := rfl
  have hStop : chunk.span.stop = chunk.charEnd := rfl
  omega

def onePage (text : List Char) (hText : text ≠ []) : TypesetDocument where
  text := text
  pages :=
    [{ pageIndex := 0
       text := text
       blocks :=
        [{ text := text, charStart := 0, charEnd := text.length, fontSize := some 10,
           text_ne := hText }] }]
  pages_ne := List.cons_ne_nil _ _
  assembled := by simp
  indexed := by simp [slice]

theorem pageOffset_onePage (text : List Char) (hText : text ≠ []) :
    pageOffset (onePage text hText).plainPages 1 = text.length + 2 := by
  simp [pageOffset, TypesetDocument.plainPages, onePage]

def longWord : List Char := List.replicate 3800 'a'

def wordDocument : TypesetDocument := onePage longWord (by decide)

def controlDocument : TypesetDocument :=
  onePage (Char.ofNat 1 :: longWord) (List.cons_ne_nil _ _)

/-- The word has 3800 characters, and its place in the document has 3799 of them. -/
theorem control_moves_piece : ∃ nodes chunks, detectSections controlDocument = .ok nodes ∧
    plainPipeline.documentChunks plainSource controlDocument nodes = some chunks ∧
    ¬ ∀ chunk ∈ chunks, Provenance controlDocument chunk := by
  have hWrong : (match detectSections controlDocument with
      | .ok nodes =>
        (plainPipeline.documentChunks plainSource controlDocument nodes).any fun chunks =>
          chunks.any fun chunk => chunk.span = ⟨0, 3800⟩ ∧ chunk.text = longWord
      | .error _ => false) = true := by
    decide +kernel
  have hPlace : strip isSpace (sanitizeText (slice controlDocument.text ⟨0, 3800⟩)) ≠
      strip isSpace longWord := by
    decide +kernel
  split at hWrong
  next nodes hDetect =>
    obtain ⟨chunks, hChunks, hWrong⟩ := (Option.any_eq_true _ _).mp hWrong
    refine ⟨nodes, chunks, hDetect, hChunks, ?_⟩
    intro hRight
    obtain ⟨chunk, hChunk, hSays⟩ := any_eq_true.mp hWrong
    obtain ⟨hSpan, hText⟩ := of_decide_eq_true hSays
    have hSame := (hRight chunk hChunk).text
    rw [hSpan, hText] at hSame
    exact hPlace hSame
  next => cases hWrong

theorem provenance_of_cutInPlace_word : ∃ nodes chunks, detectSections wordDocument = .ok nodes ∧
    plainPipeline.documentChunks plainSource wordDocument nodes = some chunks ∧
    ∀ chunk ∈ chunks, Provenance wordDocument chunk := by
  have hReturns : (match detectSections wordDocument with
      | .ok nodes => (plainPipeline.documentChunks plainSource wordDocument nodes).isSome
      | .error _ => false) = true := by
    decide +kernel
  split at hReturns
  next nodes hDetect =>
    obtain ⟨chunks, hChunks⟩ := Option.isSome_iff_exists.mp hReturns
    refine ⟨nodes, chunks, hDetect, hChunks, ?_⟩
    apply provenance_of_cutInPlace hDetect hChunks
    -- nothing is removed from the word, and there is one page
    intro node hNode chunk hChunk _
    have hContiguous := contiguous_detectSections hDetect
    have hMem : node.toDocumentSection ∈ nodes.map SectionNode.toDocumentSection :=
      mem_map_of_mem hNode
    obtain ⟨hProper, hWithin⟩ := sectionChunks_within (hContiguous.bounds _ hMem).2 hChunk
    have hStop : chunk.2.stop ≤ wordDocument.text.length :=
      hWithin.2.trans (hContiguous.endChar_le.2 _ hMem)
    have hEnd : pageOffset wordDocument.plainPages 1 = wordDocument.text.length + 2 :=
      pageOffset_onePage _ _
    refine ⟨sanitizeText_slice (by decide +kernel), 0, ⟨Nat.zero_le _, ?_⟩, Nat.zero_le _, ?_⟩
    · rw [hEnd]
      omega
    · rw [hEnd]
      omega
  next => cases hReturns

end Glasslab.Corpus
