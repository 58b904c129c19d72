import Glasslab.Corpus.RagStore
import Glasslab.Knowledge.Ingestion

/-!
# Ingestion of documents

`ingest_document` of `app/corpus_rag/pipeline.py`, with `ingest_document_bytes` of
`app/corpus_rag/documents.py` and `normalize_chunks` of `app/corpus_rag/normalize.py`. The uri and a
text are scanned for secrets before anything is written. The text of a PDF is known after the
extraction, and then the row of the source, its document and its corpus membership have been
written. So a document that is refused there leaves them behind (`refused_pdf_listed`); what a raise
never changes is said by `ingestDocument_raises`.

Secret patterns, digests, the extraction and the headings of a document are parameters.
-/

namespace Glasslab.Corpus

open Foundation Knowledge List Option Raising

abbrev Bytes := List UInt8

structure ExtractedPage where
  pageIndex : Nat
  text : List Char

structure ExtractedDocument where
  text : List Char
  pages : List ExtractedPage

/-- What an ingestion uses. `Corpus.SectionDetection` and `Corpus.HybridRetrieval` model the
detection of sections and `_is_index_like`; here they may be any functions. -/
structure Pipeline where
  /-- The first of `SECRET_PATH_PATTERNS` that is found in a uri, as `repr` shows it. -/
  secretPath : String → Option String
  /-- The first of `_content_secret_patterns()` that is found in a text. -/
  secretText : List Char → Option String
  digests : Digests
  /-- SHA-256 in hexadecimal digits. -/
  sha256Bytes : Bytes → String
  uuid : Nat → String
  detectSections : ExtractedDocument → List DocumentSection
  isIndexLike : List Char → Bool
  /-- `str.lower`. -/
  lower : List Char → List Char
  /-- `repr` of a text. -/
  pyRepr : String → String
  /-- The integer that pydantic reads from a text. -/
  intOfText : String → Option Int

/-- The types of `authors` and `year` are checked by the model of a document, not by the call. -/
structure IngestCall where
  data : Bytes
  canonicalUri : String
  title : Option String := none
  docType : DocType := .paper
  authors : Value := .null
  year : Value := .null
  doiIsbnUrl : Option String := none
  corpusSlug : Option String := none
  /-- `extractor.extract`. -/
  extract : Bytes → Except Raised ExtractedDocument
  metadata : Payload := []
  now : String

structure IngestReport where
  sourceId : String
  docId : String
  nSections : Nat
  nSectionUnits : Nat
  nEvidenceSpans : Nat
  nVectors : Nat
  extractionChars : Nat

/-- `_page_resolver`. -/
def pageForChar (pages : List ExtractedPage) (char : Nat) : Option Nat :=
  let offsets := pages.scanl (fun position page => position + page.text.length + 2) 0
  let total := offsets.getLast?.getD 0 - 2
  if total ≤ char then none
  else (pages[(offsets.take pages.length).countP (fun offset => offset ≤ char) - 1]?).map
    ExtractedPage.pageIndex

section Normalize

variable (digests : Digests)

def splitOversizedChunk (maxTokens : Nat) (chunk : RagChunkRecord) : List RagChunkRecord :=
  if chunk.tokenCount ≤ maxTokens then [chunk]
  else
    let atoms := fittingAtoms chunk.text maxTokens (sentenceAtoms chunk.text 0)
    (groupAtoms atoms chunk.text maxTokens maxTokens false none).map fun span =>
      let text := slice chunk.text span
      { chunk with
        text := text
        digest := digests.sha256 text
        tokenCount := estimateTokens text
        charStart := chunk.charStart + span.start
        charEnd := chunk.charStart + span.stop }

def dropDuplicates (seen : List (String × ChunkKind × List Char)) :
    List RagChunkRecord → List RagChunkRecord
  | [] => []
  | piece :: rest =>
    let key := (piece.sourceId, piece.kind, piece.text)
    if key ∈ seen then dropDuplicates seen rest else piece :: dropDuplicates (key :: seen) rest

def normalizeChunks (chunks : List RagChunkRecord) : List RagChunkRecord :=
  (dropDuplicates [] (chunks.flatMap (splitOversizedChunk digests unitMax))).mapIdx
    fun index piece =>
    { piece with
      chunkIndex := index
      chunkId := digests.detId
        (piece.sourceId ++ "|" ++ piece.kind.value ++ "|" ++ toString index) }

end Normalize

def nonProseSectionTitles : List (List Char) :=
  ["index".toList, "contents".toList, "table of contents".toList, "bibliography".toList,
    "references".toList]

def Pipeline.dropNonProse (pipeline : Pipeline) (sections : List RagSectionRecord)
    (chunks : List RagChunkRecord) : List RagSectionRecord × List RagChunkRecord :=
  let keptSections := sections.filter fun s =>
    pipeline.lower (strip (s.title.getD [])) ∉ nonProseSectionTitles
  let keptIds := keptSections.map RagSectionRecord.sectionId
  (keptSections, chunks.filter fun chunk =>
    chunk.sectionId ∈ keptIds ∧ pipeline.isIndexLike chunk.text = false)

/-! ## Ingestion -/

def extractionVersion : String := "pymupdf-v1"

def Pipeline.documentIdForSource (pipeline : Pipeline) (sourceId : String) : String :=
  pipeline.digests.sha256 ("rag-document:" ++ sourceId).toList

def secretError (pattern : String) : Raised :=
  ⟨"KnowledgeError", "document matches secret pattern " ++ pattern⟩

def Pipeline.assertNoSecrets (pipeline : Pipeline) (text : List Char) : Except Raised Unit :=
  match pipeline.secretText text with
  | some pattern => .error (secretError pattern)
  | none => .ok ()

/-- `b'%PDF'`. -/
def pdfMagic : Bytes := [0x25, 0x50, 0x44, 0x46]

def undecodable : Raised :=
  ⟨"KnowledgeError", "document bytes fail UTF-8 decode; treating as secret-suspect"⟩

/-- What `ingest_document_bytes` checks before it writes. -/
def Pipeline.screen (pipeline : Pipeline) (call : IngestCall) : Except Raised Unit :=
  match pipeline.secretPath call.canonicalUri with
  | some pattern => .error (secretError pattern)
  | none =>
    if pdfMagic.isPrefixOf call.data then .ok ()
    else
      match String.fromUTF8? ⟨call.data.toArray⟩ with
      | none => .error undecodable
      | some text => pipeline.assertNoSecrets text.toList

def validationError (model : String) : Failure :=
  .raised ⟨"ValidationError", "1 validation error for " ++ model⟩

def orNull {α : Type} (f : α → Value) (value : Option α) : Value := (value.map f).getD .null

def notIterable (typeName : String) : Failure :=
  .illTyped ⟨"TypeError", "'" ++ typeName ++ "' object is not iterable"⟩

/-- `list(value or [])`: a text is the list of its characters, a mapping the list of its keys. -/
def listOf : Value → Except Failure (List Value)
  | .null => .ok []
  | .bool b => if b then .error (notIterable "bool") else .ok []
  | .int i => if i = 0 then .ok [] else .error (notIterable "int")
  | .float x => if x = .finite 0 then .ok [] else .error (notIterable "float")
  | .str text => .ok (text.toList.map fun c => .str (String.singleton c))
  | .list items => .ok items
  | .dict entries => .ok (entries.map fun entry => .str entry.1)

def IngestCall.incomingMetadata (call : IngestCall) (authors : List Value) : Payload :=
  [("authors", .list authors), ("year", call.year), ("doi_isbn_url", orNull .str call.doiIsbnUrl),
    ("extraction_version", .str extractionVersion)]

def Pipeline.keyOf (pipeline : Pipeline) (call : IngestCall) : String × String :=
  (pipeline.sha256Bytes call.data, call.canonicalUri)

def IngestCall.refresh (call : IngestCall) (authors : List Value) (existing : KnowledgeSource) :
    KnowledgeSource :=
  { existing with
    title := call.title.or existing.title
    metadata := Dict.merge existing.metadata (call.incomingMetadata authors) }

def Pipeline.newSource (pipeline : Pipeline) (call : IngestCall) (authors : List Value)
    (number : Nat) : KnowledgeSource where
  sourceId := pipeline.uuid number
  sourceType := if call.docType = .paper then .paper else .documentation
  canonicalUri := call.canonicalUri
  digest := pipeline.sha256Bytes call.data
  ingestedAt := call.now
  title := call.title
  metadata := call.incomingMetadata authors

def Pipeline.sourceFor (pipeline : Pipeline) (call : IngestCall) (authors : List Value) :
    Command KnowledgeSource := do
  let s ← Tx.get
  match ← Tx.ofExcept
    (s.findKnowledgeSource (pipeline.sha256Bytes call.data) call.canonicalUri) with
  | some existing => pure (call.refresh authors existing)
  | none =>
    let number ← drawId
    if sourceValid call.canonicalUri call.title then pure (pipeline.newSource call authors number)
    else Tx.raise (validationError "KnowledgeSource")

/-- The authors of a document, which are texts. -/
def authorNames (authors : List Value) : Option (List String) :=
  authors.mapM fun author =>
    match author with
    | .str name => some name
    | _ => none

/-- pydantic reads a float as an integer if it is one, of at most 64 bits. -/
def floatAsInt : Float64 → Option Int
  | .finite q => if q.den = 1 ∧ -2 ^ 63 ≤ q ∧ q < 2 ^ 63 then some q.num else none
  | _ => none

/-- The year of a document, as pydantic reads it. -/
def Pipeline.yearOf (pipeline : Pipeline) : Value → Option (Option Int)
  | .null => some none
  | .bool b => some (some b.toInt)
  | .int year => some (some year)
  | .float x => (floatAsInt x).map some
  | .str text => (pipeline.intOfText text).map some
  | .list _ | .dict _ => none

/-- Authors and a year that the model of a document accepts. -/
def Pipeline.Documentable (pipeline : Pipeline) (authors year : Value) : Prop :=
  (∃ items names, listOf authors = .ok items ∧ authorNames items = some names) ∧
    ∃ number, pipeline.yearOf year = some number

def Pipeline.recordFor (pipeline : Pipeline) (call : IngestCall) (authors : List Value)
    (sourceId : String) : Except Failure RagDocumentRecord :=
  match authorNames authors, pipeline.yearOf call.year with
  | some names, some year =>
    .ok
      { docId := pipeline.documentIdForSource sourceId
        sourceId := sourceId
        docType := call.docType
        title := call.title
        authors := names
        year := year
        doiIsbnUrl := call.doiIsbnUrl
        extractionVersion := extractionVersion }
  | some _, none | none, some _ =>
    .error (.illTyped ⟨"ValidationError", "1 validation error for RagDocumentRecord"⟩)
  | none, none =>
    .error (.illTyped ⟨"ValidationError", "2 validation errors for RagDocumentRecord"⟩)

variable (pipeline : Pipeline) (faults : Faults)

def corpusFor (slug now : String) (title : Option String) (metadata : Payload) :
    Command String := do
  let s ← Tx.get
  match s.corpus? slug with
  | some corpus => pure corpus.corpusId
  | none =>
    let number ← drawId
    if slug = "" then Tx.raise (validationError "CorpusRecord")
    else
      let corpusId := pipeline.uuid number
      createCorpus faults
        { corpusId := corpusId, slug := slug, title := title, createdAt := now, metadata :=
          metadata }
      pure corpusId

def joinCorpus (call : IngestCall) (sourceId : String) : Command Unit :=
  match call.corpusSlug with
  | none => pure ()
  | some slug => do
    let corpusId ← corpusFor pipeline faults slug call.now none []
    addCorpusSource faults ⟨corpusId, sourceId, call.now⟩

def ingestDocumentBytes (call : IngestCall) : Command (KnowledgeSource × RagDocumentRecord) := do
  Tx.ofExcept ((pipeline.screen call).mapError .raised)
  let authors ← Tx.ofExcept (listOf call.authors)
  let source ← pipeline.sourceFor call authors
  saveKnowledgeSource faults source
  if source.sourceId = "" then Tx.raise (validationError "RagDocumentRecord")
  else
    let record ← Tx.ofExcept (pipeline.recordFor call authors source.sourceId)
    upsertRagDocument faults record
    joinCorpus pipeline faults call source.sourceId
    pure (source, record)

def saveExtra (call : IngestCall) (source : KnowledgeSource) : Command Unit :=
  if call.metadata = [] then pure ()
  else
    saveKnowledgeSource faults
      { source with metadata := Dict.merge source.metadata call.metadata }

def Pipeline.derive (document : ExtractedDocument) (sourceId docId : String) :
    Except Failure (List RagSectionRecord × List RagChunkRecord) :=
  if h : sourceId ≠ "" ∧ docId ≠ "" then
    let source : Source := ⟨sourceId, docId, h.1, h.2, pageForChar document.pages⟩
    match buildChunks pipeline.digests source document.text (pipeline.detectSections document) with
    | none => .error (validationError "RagChunkRecord")
    | some (sections, chunks) =>
      .ok (pipeline.dropNonProse sections (normalizeChunks pipeline.digests chunks))
  else .error (validationError "RagSectionRecord")

def Pipeline.extractChunks (call : IngestCall) (sourceId docId : String) :
    Except Failure (ExtractedDocument × List RagSectionRecord × List RagChunkRecord) := do
  let document ← (call.extract call.data).mapError .raised
  (pipeline.assertNoSecrets document.text).mapError .raised
  let derived ← pipeline.derive document sourceId docId
  pure (document, derived)

def ingestReport (sourceId docId : String) (document : ExtractedDocument)
    (sections : List RagSectionRecord) (chunks : List RagChunkRecord) : IngestReport where
  sourceId := sourceId
  docId := docId
  nSections := sections.length
  nSectionUnits := chunks.countP fun chunk => chunk.kind = .sectionUnit
  nEvidenceSpans := chunks.countP fun chunk => chunk.kind = .evidenceSpan
  nVectors := 0
  extractionChars := document.text.length

def ingestDocument (call : IngestCall) : Command IngestReport := do
  let (source, record) ← ingestDocumentBytes pipeline faults call
  saveExtra faults call source
  let (document, sections, chunks) ←
    Tx.ofExcept (pipeline.extractChunks call source.sourceId record.docId)
  replaceRagSections faults record.docId sections
  replaceRagChunks faults source.sourceId (chunks.map ChunkRow.ofRecord)
  pure (ingestReport source.sourceId record.docId document sections chunks)

section Derive

variable {digests : Digests} {source : Source} {text : List Char} {pipeline} {faults}
  {sections : List RagSectionRecord} {chunks : List RagChunkRecord}

def RagChunkRecord.BelongsTo (chunk : RagChunkRecord) (sourceId docId : String) : Prop :=
  chunk.sourceId = sourceId ∧ chunk.docId = docId

theorem makeChunks_belong {planned : List (DocumentSection × ChunkKind × Span)} {index : Nat}
    (h : makeChunks digests source text index planned = some chunks) :
    ∀ chunk ∈ chunks, chunk.BelongsTo source.sourceId source.docId := by
  induction planned generalizing index chunks with
  | nil =>
    cases h
    simp
  | cons item rest ih =>
    simp only [makeChunks, bind_eq_bind, bind_eq_some_iff] at h
    obtain ⟨first, hFirst, others, hOthers, hChunks⟩ := h
    cases hChunks
    intro chunk hChunk
    rcases mem_cons.mp hChunk with rfl | hChunk
    · unfold makeChunk at hFirst
      dsimp only at hFirst
      split at hFirst
      · cases hFirst
      · cases hFirst
        exact ⟨rfl, rfl⟩
    · exact ih hOthers chunk hChunk

variable {sourceId docId : String}

theorem splitOversizedChunk_belong {maxTokens : Nat} {chunk piece : RagChunkRecord}
    (hChunk : chunk.BelongsTo sourceId docId)
    (h : piece ∈ splitOversizedChunk digests maxTokens chunk) : piece.BelongsTo sourceId docId := by
  unfold splitOversizedChunk at h
  split at h
  · rw [mem_singleton.mp h]
    exact hChunk
  · obtain ⟨span, _, rfl⟩ := mem_map.mp h
    exact hChunk

theorem mem_of_mem_dropDuplicates {seen : List (String × ChunkKind × List Char)}
    {piece : RagChunkRecord} (h : piece ∈ dropDuplicates seen chunks) : piece ∈ chunks := by
  induction chunks generalizing seen with
  | nil => exact h
  | cons first rest ih =>
    rw [dropDuplicates] at h
    split at h
    · exact mem_cons_of_mem first (ih h)
    · rcases mem_cons.mp h with rfl | h
      · exact mem_cons_self
      · exact mem_cons_of_mem first (ih h)

def chunkKey (sourceId : String) (kind : ChunkKind) (index : Nat) : String :=
  sourceId ++ "|" ++ kind.value ++ "|" ++ toString index

theorem normalizeChunks_belong
    (hChunks : ∀ chunk ∈ chunks, chunk.BelongsTo sourceId docId) :
    ∀ piece ∈ normalizeChunks digests chunks, piece.BelongsTo sourceId docId ∧
      piece.chunkId = digests.detId (chunkKey sourceId piece.kind piece.chunkIndex) := by
  intro piece hPiece
  obtain ⟨index, hIndex, rfl⟩ := mem_mapIdx.mp hPiece
  have hMem := mem_of_mem_dropDuplicates (getElem_mem hIndex)
  obtain ⟨chunk, hChunk, hSplit⟩ := mem_flatMap.mp hMem
  have hBelongs := splitOversizedChunk_belong (hChunks chunk hChunk) hSplit
  refine ⟨hBelongs, ?_⟩
  simp only [chunkKey, ← hBelongs.1]

variable {document : ExtractedDocument}

theorem derive_eq_ok
    (h : pipeline.derive document sourceId docId = .ok (sections, chunks)) :
    (∀ row ∈ sections, row.docId = docId ∧
        row.sectionId = pipeline.digests.detId (sourceId ++ "|" ++ row.path)) ∧
      ∀ chunk ∈ chunks, chunk.BelongsTo sourceId docId ∧
        chunk.chunkId = pipeline.digests.detId (chunkKey sourceId chunk.kind chunk.chunkIndex) := by
  unfold Pipeline.derive at h
  split at h
  next hNe =>
    dsimp only at h
    split at h
    · cases h
    next built made hBuild =>
      obtain ⟨rfl, rfl⟩ := Prod.mk.inj (Except.ok.inj h)
      simp only [buildChunks, bind_eq_bind, bind_eq_some_iff] at hBuild
      obtain ⟨planned, hPlanned, hPure⟩ := hBuild
      cases hPure
      constructor
      · intro row hRow
        obtain ⟨part, _, rfl⟩ := mem_map.mp (mem_filter.mp hRow).1
        exact ⟨rfl, rfl⟩
      · intro chunk hChunk
        exact normalizeChunks_belong (makeChunks_belong hPlanned) chunk (mem_filter.mp hChunk).1
  · cases h

theorem extractChunks_eq_ok {call : IngestCall}
    (h : pipeline.extractChunks call sourceId docId = .ok (document, sections, chunks)) :
    (∀ row ∈ sections, row.docId = docId ∧
        row.sectionId = pipeline.digests.detId (sourceId ++ "|" ++ row.path)) ∧
      ∀ chunk ∈ chunks, chunk.BelongsTo sourceId docId ∧
        chunk.chunkId = pipeline.digests.detId (chunkKey sourceId chunk.kind chunk.chunkIndex) := by
  obtain ⟨extracted, -, h⟩ := of_bind h
  obtain ⟨_, -, h⟩ := of_bind h
  obtain ⟨derived, hDerive, h⟩ := of_bind h
  obtain ⟨rfl, rfl⟩ := Prod.mk.inj (pure_eq_ok_iff.mp h)
  exact derive_eq_ok hDerive

end Derive

/-! ## What a call writes before it raises -/

/-- The ids that are drawn from now on are new. -/
def Pipeline.Fresh (pipeline : Pipeline) (s : RagStore) : Prop :=
  ∀ n ≥ s.issued, (∀ source ∈ s.sources.rows, source.sourceId ≠ pipeline.uuid n) ∧
    ∀ corpus ∈ s.corpora.rows, corpus.corpusId ≠ pipeline.uuid n

def Pipeline.OwnSource (pipeline : Pipeline) (call : IngestCall) (tables : RagTables)
    (sourceId : String) : Prop :=
  ∃ source ∈ tables.sources.rows, source.key = pipeline.keyOf call ∧ source.sourceId = sourceId

def Pipeline.OwnDocument (pipeline : Pipeline) (call : IngestCall) (tables : RagTables)
    (docId : String) : Prop :=
  ∃ sourceId, pipeline.OwnSource call tables sourceId ∧
    docId = pipeline.documentIdForSource sourceId

/-- All sources stay, with their digests. The source of the call may be new, or have a new title and
new metadata; its document and its membership in the corpus of the call may have been written. -/
structure OwnWrites (pipeline : Pipeline) (call : IngestCall) (before after : RagTables) :
    Prop where
  knowledgeChunks : after.knowledgeChunks = before.knowledgeChunks
  source_kept : ∀ row ∈ before.sources.rows, ∃ row' ∈ after.sources.rows,
    row' = { row with title := row'.title, metadata := row'.metadata } ∧
      (row.key ≠ pipeline.keyOf call → row' = row)
  source_new : ∀ row ∈ after.sources.rows, row.key ≠ pipeline.keyOf call → row ∈ before.sources.rows
  document_kept : ∀ document ∈ before.documents.rows,
    document ∈ after.documents.rows ∨ pipeline.OwnDocument call after document.docId
  document_new : ∀ document ∈ after.documents.rows,
    document ∈ before.documents.rows ∨ pipeline.OwnDocument call after document.docId
  corpus_kept : ∀ corpus ∈ before.corpora.rows, corpus ∈ after.corpora.rows
  corpus_new : ∀ corpus ∈ after.corpora.rows,
    corpus ∈ before.corpora.rows ∨ call.corpusSlug = some corpus.slug
  membership_kept : ∀ member ∈ before.memberships.rows, member ∈ after.memberships.rows
  membership_new : ∀ member ∈ after.memberships.rows, member ∈ before.memberships.rows ∨
    pipeline.OwnSource call after member.sourceId ∧
      ∃ corpus ∈ after.corpora.rows, corpus.corpusId = member.corpusId ∧
        call.corpusSlug = some corpus.slug

section Raises

variable {pipeline} {faults} {call : IngestCall} {before tables : RagTables} {s : RagStore}
  {source record : KnowledgeSource} {sourceId docId : String}

theorem OwnWrites.refl (tables : RagTables) : OwnWrites pipeline call tables tables where
  knowledgeChunks := rfl
  source_kept row hRow := ⟨row, hRow, rfl, fun _ => rfl⟩
  source_new _ hRow _ := hRow
  document_kept _ hDocument := .inl hDocument
  document_new _ hDocument := .inl hDocument
  corpus_kept _ hCorpus := hCorpus
  corpus_new _ hCorpus := .inl hCorpus
  membership_kept _ hMember := hMember
  membership_new _ hMember := .inl hMember

theorem OwnSource.save {sources : SourceTable} (h : pipeline.OwnSource call tables sourceId)
    (hSave : tables.sources.save record = some sources) (hKey : record.key = pipeline.keyOf call) :
    pipeline.OwnSource call { tables with sources := sources } sourceId := by
  obtain ⟨row, hRow, hRowKey, hId⟩ := h
  by_cases hSame : row.sourceId = record.sourceId
  · exact ⟨record, (mem_save hSave).mpr (.inl rfl), hKey, hSame.symm.trans hId⟩
  · exact ⟨row, (mem_save hSave).mpr (.inr ⟨hRow, hSame⟩), hRowKey, hId⟩

section

variable (h : OwnWrites pipeline call before tables)
include h

theorem OwnWrites.save {sources : SourceTable}
    (hSave : tables.sources.save record = some sources) (hKey : record.key = pipeline.keyOf call)
    (hRow : ∀ row ∈ tables.sources.rows, row.sourceId = record.sourceId →
      record = { row with title := record.title, metadata := record.metadata }) :
    OwnWrites pipeline call before { tables with sources := sources } := by
  have hOwn : ∀ {id}, pipeline.OwnSource call tables id →
      pipeline.OwnSource call { tables with sources := sources } id :=
    fun hSource => OwnSource.save hSource hSave hKey
  have hDocument : ∀ {id}, pipeline.OwnDocument call tables id →
      pipeline.OwnDocument call { tables with sources := sources } id := by
    rintro id ⟨sourceId, hSource, hId⟩
    exact ⟨sourceId, hOwn hSource, hId⟩
  refine
    { h with
      source_kept := ?_, source_new := ?_, document_kept := ?_, document_new := ?_,
      membership_new := ?_ }
  · intro row hMem
    obtain ⟨row', hMem', hEq, hSame⟩ := h.source_kept row hMem
    by_cases hId : row'.sourceId = record.sourceId
    · refine ⟨record, (mem_save hSave).mpr (.inl rfl), ?_, ?_⟩
      · have hRecord := hRow row' hMem' hId
        rw [hEq] at hRecord
        exact hRecord
      · intro hNe
        have hRowKey : record.key = row.key := by
          rw [hRow row' hMem' hId, hEq]
          rfl
        exact absurd (hRowKey.symm.trans hKey) hNe
    · exact ⟨row', (mem_save hSave).mpr (.inr ⟨hMem', hId⟩), hEq, hSame⟩
  · intro row hMem hNe
    rcases (mem_save hSave).mp hMem with rfl | ⟨hMem, _⟩
    · exact absurd hKey hNe
    · exact h.source_new row hMem hNe
  · intro document hMem
    exact (h.document_kept document hMem).imp id hDocument
  · intro document hMem
    exact (h.document_new document hMem).imp id hDocument
  · intro member hMem
    exact (h.membership_new member hMem).imp id fun hNew => ⟨hOwn hNew.1, hNew.2⟩

theorem OwnWrites.upsert {document : RagDocumentRecord}
    {documents : UniqueTable RagDocumentRecord.docId RagDocumentRecord.sourceId}
    (hUpsert : tables.documents.upsert document = some documents)
    (hOwn : pipeline.OwnDocument call tables document.docId) :
    OwnWrites pipeline call before { tables with documents := documents } := by
  refine { h with document_kept := ?_, document_new := ?_ }
  · intro other hMem
    rcases h.document_kept other hMem with hKept | hOther
    · by_cases hId : other.docId = document.docId
      · exact .inr (hId ▸ hOwn)
      · exact .inl ((UniqueTable.mem_upsert hUpsert).mpr (.inr ⟨hKept, hId⟩))
    · exact .inr hOther
  · intro other hMem
    rcases (UniqueTable.mem_upsert hUpsert).mp hMem with rfl | ⟨hMem, _⟩
    · exact .inr hOwn
    · exact h.document_new other hMem

variable {corpus : CorpusRecord}

theorem OwnWrites.createCorpus
    {corpora : UniqueTable CorpusRecord.corpusId CorpusRecord.slug}
    (hUpsert : tables.corpora.upsert corpus = some corpora)
    (hNew : ∀ other ∈ tables.corpora.rows, other.corpusId ≠ corpus.corpusId)
    (hSlug : call.corpusSlug = some corpus.slug) :
    OwnWrites pipeline call before { tables with corpora := corpora } := by
  have hStays : ∀ other ∈ tables.corpora.rows, other ∈ corpora.rows := fun other hMem =>
    (UniqueTable.mem_upsert hUpsert).mpr (.inr ⟨hMem, hNew other hMem⟩)
  refine { h with corpus_kept := ?_, corpus_new := ?_, membership_new := ?_ }
  · intro other hMem
    exact hStays other (h.corpus_kept other hMem)
  · intro other hMem
    rcases (UniqueTable.mem_upsert hUpsert).mp hMem with rfl | ⟨hMem, _⟩
    · exact .inr hSlug
    · exact h.corpus_new other hMem
  · intro member hMem
    refine (h.membership_new member hMem).imp id ?_
    rintro ⟨hOwn, other, hOther, hRest⟩
    exact ⟨hOwn, other, hStays other hOther, hRest⟩

theorem OwnWrites.join {member : CorpusSource} {memberships : KeyedTable CorpusSource.pair}
    (hRows : memberships.rows = tables.memberships.rows ++ [member])
    (hOwn : pipeline.OwnSource call tables member.sourceId) (hCorpus : corpus ∈ tables.corpora.rows)
    (hId : corpus.corpusId = member.corpusId) (hSlug : call.corpusSlug = some corpus.slug) :
    OwnWrites pipeline call before { tables with memberships := memberships } := by
  refine { h with membership_kept := ?_, membership_new := ?_ }
  · intro other hMem
    rw [hRows]
    exact mem_append_left _ (h.membership_kept other hMem)
  · intro other hMem
    rw [hRows] at hMem
    rcases mem_append.mp hMem with hMem | hMem
    · exact h.membership_new other hMem
    · rw [mem_singleton.mp hMem]
      exact .inr ⟨hOwn, corpus, hCorpus, hId, hSlug⟩

end

/-- How far a call has come that has not written sections or chunks. -/
structure Progress (pipeline : Pipeline) (call : IngestCall) (before s : RagStore) : Prop where
  own : OwnWrites pipeline call before.toRagTables s.toRagTables
  sections : s.sections = before.sections
  chunks : s.chunks = before.chunks

variable {before : RagStore} {s₁ : RagStore}

theorem Progress.of_tables_eq (h : Progress pipeline call before s)
    (hTables : s₁.toRagTables = s.toRagTables) : Progress pipeline call before s₁ where
  own := hTables ▸ h.own
  sections := (congrArg RagTables.sections hTables).trans h.sections
  chunks := (congrArg RagTables.chunks hTables).trans h.chunks

variable {authors : List Value}

theorem recordFor_eq_ok {document : RagDocumentRecord}
    (h : pipeline.recordFor call authors sourceId = .ok document) :
    document.docId = pipeline.documentIdForSource sourceId ∧ document.sourceId = sourceId := by
  unfold Pipeline.recordFor at h
  split at h
  · cases h
    exact ⟨rfl, rfl⟩
  all_goals cases h

theorem wp_sourceFor (hFresh : pipeline.Fresh s) :
    Tx.wp (pipeline.sourceFor call authors)
      (fun source s₁ => s₁.toRagTables = s.toRagTables ∧ s.issued ≤ s₁.issued ∧
        source.key = pipeline.keyOf call ∧
        ∀ row ∈ s.sources.rows, row.sourceId = source.sourceId →
          source = { row with title := source.title, metadata := source.metadata })
      (fun _ s₁ => s₁.toRagTables = s.toRagTables) s := by
  rw [Pipeline.sourceFor, Tx.wp_bind, Tx.wp_get, Tx.wp_bind, Tx.wp_ofExcept]
  refine ⟨?_, fun _ _ => rfl⟩
  intro found hFind
  cases found with
  | some existing =>
    obtain ⟨hMem, hDigest, hUri⟩ :=
      SourceTable.find_eq_some_iff.mp (findKnowledgeSource_eq_ok_some hFind).1
    refine Tx.wp_pure.mpr ⟨rfl, Nat.le_refl _, Prod.ext hDigest hUri, ?_⟩
    intro row hRow hId
    rw [SourceTable.eq_of_sourceId_eq hRow hMem hId]
    rfl
  | none =>
    rw [Tx.wp_bind, wp_drawId, Tx.wp_ite]
    constructor
    · intro _
      refine Tx.wp_pure.mpr ⟨rfl, Nat.le_succ _, rfl, ?_⟩
      intro row hRow hId
      exact absurd hId ((hFresh s.issued (Nat.le_refl _)).1 row hRow)
    · intro _
      exact Tx.wp_raise.mpr rfl

theorem wp_corpusFor {slug now : String} {title : Option String} {metadata : Payload}
    (h : Progress pipeline call before s) (hSlug : call.corpusSlug = some slug)
    (hFresh : ∀ n ≥ s.issued, ∀ corpus ∈ s.corpora.rows, corpus.corpusId ≠ pipeline.uuid n) :
    Tx.wp (corpusFor pipeline faults slug now title metadata)
      (fun corpusId s₁ => Progress pipeline call before s₁ ∧ s₁.sources = s.sources ∧
        ∃ corpus ∈ s₁.corpora.rows, corpus.corpusId = corpusId ∧ corpus.slug = slug)
      (fun _ s₁ => Progress pipeline call before s₁) s := by
  rw [corpusFor, Tx.wp_bind, Tx.wp_get]
  split
  next corpus hFind =>
    obtain ⟨hMem, hCorpus⟩ := UniqueTable.findKey_eq_some_iff.mp hFind
    exact Tx.wp_pure.mpr ⟨h, rfl, corpus, hMem, rfl, hCorpus⟩
  next hFind =>
    rw [Tx.wp_bind, wp_drawId, Tx.wp_ite]
    constructor
    · intro _
      exact Tx.wp_raise.mpr (h.of_tables_eq rfl)
    · intro _
      rw [Tx.wp_bind]
      refine wp_createCorpus ?_ (fun _ => h.of_tables_eq rfl) (fun _ => h.of_tables_eq rfl)
      intro corpora hUpsert
      refine Tx.wp_pure.mpr ⟨⟨?_, h.sections, h.chunks⟩, rfl, _,
        (UniqueTable.mem_upsert hUpsert).mpr (.inl rfl), rfl, rfl⟩
      exact h.own.createCorpus hUpsert (hFresh s.issued (Nat.le_refl _)) hSlug

theorem wp_joinCorpus (h : Progress pipeline call before s)
    (hOwn : pipeline.OwnSource call s.toRagTables sourceId)
    (hFresh : ∀ n ≥ s.issued, ∀ corpus ∈ s.corpora.rows, corpus.corpusId ≠ pipeline.uuid n) :
    Tx.wp (joinCorpus pipeline faults call sourceId)
      (fun _ s₁ => Progress pipeline call before s₁ ∧ s₁.sources = s.sources)
      (fun _ s₁ => Progress pipeline call before s₁) s := by
  unfold joinCorpus
  split
  · exact Tx.wp_pure.mpr ⟨h, rfl⟩
  next slug hSlug =>
    refine Tx.wp_step (wp_corpusFor h hSlug hFresh) ?_ fun _ _ hProgress => hProgress
    rintro corpusId s₁ ⟨hProgress, hSources, corpus, hCorpus, hId, hCorpusSlug⟩
    refine wp_addCorpusSource (fun _ => ⟨hProgress, hSources⟩) ?_ fun _ => hProgress
    intro memberships hRows
    have hOwn₁ : pipeline.OwnSource call s₁.toRagTables sourceId := by
      obtain ⟨row, hRow, hKey⟩ := hOwn
      exact ⟨row, hSources ▸ hRow, hKey⟩
    exact ⟨⟨hProgress.own.join hRows hOwn₁ hCorpus hId (hCorpusSlug ▸ hSlug), hProgress.sections,
      hProgress.chunks⟩, hSources⟩

theorem wp_ingestDocumentBytes (hFresh : pipeline.Fresh s) :
    Tx.wp (ingestDocumentBytes pipeline faults call)
      (fun result s₁ => Progress pipeline call s s₁ ∧ result.1 ∈ s₁.sources.rows ∧
        result.1.key = pipeline.keyOf call ∧
        result.2.docId = pipeline.documentIdForSource result.1.sourceId)
      (fun _ s₁ => Progress pipeline call s s₁) s := by
  have hStart : Progress pipeline call s s := ⟨.refl _, rfl, rfl⟩
  rw [ingestDocumentBytes, Tx.wp_bind, Tx.wp_ofExcept]
  refine ⟨fun _ _ => ?_, fun _ _ => hStart⟩
  rw [Tx.wp_bind, Tx.wp_ofExcept]
  refine ⟨fun authors _ => ?_, fun _ _ => hStart⟩
  refine Tx.wp_step (wp_sourceFor hFresh) ?_ fun _ _ hTables => hStart.of_tables_eq hTables
  rintro source s₁ ⟨hTables, hIssued, hKey, hRow⟩
  have hSame : Progress pipeline call s s₁ := hStart.of_tables_eq hTables
  rw [Tx.wp_bind]
  refine wp_saveKnowledgeSource ?_ (fun _ => hSame) (fun _ => hSame)
  intro sources hSave
  have hRow₁ : ∀ row ∈ s₁.sources.rows, row.sourceId = source.sourceId →
      source = { row with title := source.title, metadata := source.metadata } := by
    rw [hTables]
    exact hRow
  have hSaved : Progress pipeline call s { s₁ with sources := sources } :=
    ⟨hSame.own.save hSave hKey hRow₁, hSame.sections, hSame.chunks⟩
  have hOwn : pipeline.OwnSource call { s₁ with sources := sources } source.sourceId :=
    ⟨source, (mem_save hSave).mpr (.inl rfl), hKey, rfl⟩
  rw [Tx.wp_ite]
  refine ⟨fun _ => Tx.wp_raise.mpr hSaved, fun _ => ?_⟩
  rw [Tx.wp_bind, Tx.wp_ofExcept]
  refine ⟨fun record hRecord => ?_, fun _ _ => hSaved⟩
  have hDoc := (recordFor_eq_ok hRecord).1
  rw [Tx.wp_bind]
  refine wp_upsertRagDocument ?_ (fun _ => hSaved) (fun _ => hSaved)
  intro documents hUpsert
  refine Tx.wp_step (wp_joinCorpus ⟨hSaved.own.upsert hUpsert ⟨source.sourceId, hOwn, hDoc⟩,
    hSaved.sections, hSaved.chunks⟩ hOwn ?_) ?_ fun _ _ hProgress => hProgress
  · intro n hn corpus hCorpus
    have hCorpora : corpus ∈ s.corpora.rows := hTables ▸ hCorpus
    exact (hFresh n (Nat.le_trans hIssued hn)).2 corpus hCorpora
  · rintro _ s₂ ⟨hProgress, hSources⟩
    refine Tx.wp_pure.mpr ⟨hProgress, ?_, hKey, hDoc⟩
    rw [hSources]
    exact (mem_save hSave).mpr (.inl rfl)

theorem wp_saveExtra (h : Progress pipeline call before s) (hMem : source ∈ s.sources.rows)
    (hKey : source.key = pipeline.keyOf call) :
    Tx.wp (saveExtra faults call source)
      (fun _ s₁ => Progress pipeline call before s₁ ∧
        pipeline.OwnSource call s₁.toRagTables source.sourceId)
      (fun _ s₁ => Progress pipeline call before s₁) s := by
  have hOwn : pipeline.OwnSource call s.toRagTables source.sourceId := ⟨source, hMem, hKey, rfl⟩
  rw [saveExtra, Tx.wp_ite]
  refine ⟨fun _ => Tx.wp_pure.mpr ⟨h, hOwn⟩, fun _ => ?_⟩
  refine wp_saveKnowledgeSource ?_ (fun _ => h) (fun _ => h)
  intro sources hSave
  refine ⟨⟨h.own.save hSave hKey ?_, h.sections, h.chunks⟩, OwnSource.save hOwn hSave hKey⟩
  intro row hRow hId
  rw [SourceTable.eq_of_sourceId_eq hRow hMem hId]

/-! ## Types -/

def Failure.IllTyped : Failure → Prop
  | .illTyped _ => True
  | .raised _ | .integrity _ _ | .unreadable _ => False

variable {failure : Failure}

theorem not_illTyped_of_mapError {α : Type} {outcome : Except Raised α}
    (h : outcome.mapError .raised = .error failure) : ¬ failure.IllTyped := by
  cases outcome with
  | ok a => cases h
  | error error =>
    cases h
    exact id

theorem not_illTyped_of_derive {document : ExtractedDocument}
    (h : pipeline.derive document sourceId docId = .error failure) : ¬ failure.IllTyped := by
  unfold Pipeline.derive at h
  split at h
  · dsimp only at h
    split at h
    · cases h
      exact id
    · cases h
  · cases h
    exact id

theorem not_illTyped_of_extractChunks
    (h : pipeline.extractChunks call sourceId docId = .error failure) : ¬ failure.IllTyped := by
  rcases error_of_bind h with h | ⟨document, -, h⟩
  · exact not_illTyped_of_mapError h
  rcases error_of_bind h with h | ⟨_, -, h⟩
  · exact not_illTyped_of_mapError h
  rcases error_of_bind h with h | ⟨derived, -, h⟩
  · exact not_illTyped_of_derive h
  · cases h

theorem not_illTyped_of_find {tables : RagTables} {digest uri : String}
    (h : tables.findKnowledgeSource digest uri = .error failure) : ¬ failure.IllTyped := by
  unfold RagTables.findKnowledgeSource readSource at h
  split at h
  · split at h
    · cases h
    · cases h
      exact id
  · cases h

theorem raisesOnly_sourceFor :
    Tx.RaisesOnly (fun failure => ¬ failure.IllTyped) (pipeline.sourceFor call authors) := by
  refine .bind .get fun s => .bind (.ofExcept fun _ => not_illTyped_of_find) fun found => ?_
  cases found with
  | some existing => exact .pure _
  | none => exact .bind (fun _ => trivial) fun number => .ite (.pure _) (.raise id)

theorem raisesOnly_joinCorpus :
    Tx.RaisesOnly
    (fun failure => ¬ failure.IllTyped) (joinCorpus pipeline faults call sourceId) := by
  unfold joinCorpus
  split
  · exact .pure ()
  · refine .bind ?_ fun corpusId =>
      fun s => wp_addCorpusSource (fun _ => trivial) (fun _ _ => trivial) fun _ => id
    refine .bind .get fun s => ?_
    split
    · exact .pure _
    · refine .bind (fun _ => trivial) fun number => .ite (.raise id) (.bind ?_ fun _ => .pure _)
      exact fun s => wp_createCorpus (fun _ _ => trivial) (fun _ => id) fun _ => id

theorem raisesOnly_save {record : KnowledgeSource} :
    Tx.RaisesOnly (fun failure => ¬ failure.IllTyped) (saveKnowledgeSource faults record) :=
  fun _ => wp_saveKnowledgeSource (fun _ _ => trivial) (fun _ => id) fun _ => id

theorem recordFor_of_documentable (h : pipeline.Documentable call.authors call.year) :
    ∃ items, listOf call.authors = .ok items ∧
      ∀ sourceId, ∃ record, pipeline.recordFor call items sourceId = .ok record := by
  obtain ⟨⟨items, names, hItems, hNames⟩, number, hYear⟩ := h
  refine ⟨items, hItems, ?_⟩
  intro sourceId
  unfold Pipeline.recordFor
  rw [hNames, hYear]
  exact ⟨_, rfl⟩

/-- With authors and a year that a document can have, nothing is said to be of a wrong type. -/
theorem raisesOnly_ingestDocument (h : pipeline.Documentable call.authors call.year) :
    Tx.RaisesOnly (fun failure => ¬ failure.IllTyped) (ingestDocument pipeline faults call) := by
  obtain ⟨items, hItems, hRecord⟩ := recordFor_of_documentable h
  have hBytes : Tx.RaisesOnly (fun failure => ¬ failure.IllTyped)
      (ingestDocumentBytes pipeline faults call) := by
    refine .bind (.ofExcept fun _ => not_illTyped_of_mapError) fun _ s => ?_
    rw [hItems, Tx.wp_bind, Tx.wp_ofExcept]
    refine ⟨fun authors hAuthors => ?_, nofun⟩
    cases hAuthors
    refine (Tx.RaisesOnly.bind raisesOnly_sourceFor fun source =>
      .bind raisesOnly_save fun _ => .ite (.raise id) (.bind (.ofExcept fun _ hError => ?_)
        fun record => .bind ?_ fun _ => .bind raisesOnly_joinCorpus fun _ => .pure _)) s
    · obtain ⟨record, hOk⟩ := hRecord source.sourceId
      rw [hOk] at hError
      cases hError
    · exact fun s => wp_upsertRagDocument (fun _ _ => trivial) (fun _ => id) fun _ => id
  refine .bind hBytes fun result => .bind (.ite (.pure ()) raisesOnly_save) fun _ =>
    .bind (.ofExcept fun _ => not_illTyped_of_extractChunks) fun parts =>
      .bind (fun s => ?_) fun _ => .bind (fun s => ?_) fun _ => .pure _
  · exact wp_replaceRagSections (fun _ _ => trivial) (fun _ => id) fun _ _ => id
  · exact wp_replaceRagChunks (fun _ _ => trivial) (fun _ => id) fun _ _ => id

/-- A refusal at the screen comes before everything else. -/
theorem ingestDocument_refused {error : Raised} (h : pipeline.screen call = .error error) :
    ingestDocument pipeline faults call s = (.error (.raised error), s) := by
  unfold ingestDocument ingestDocumentBytes
  rw [h]
  rfl

/-- What can be said of the store when a call raises. -/
structure FailedClosed (pipeline : Pipeline) (faults : Faults) (call : IngestCall)
    (failure : Failure)
    (before after : RagStore) : Prop where
  own : OwnWrites pipeline call before.toRagTables after.toRagTables
  chunks : after.chunks = before.chunks
  /-- Sections are changed only if it is the write of the chunks that fails. -/
  sections : after.sections = before.sections ∨
    ∃ sourceId chunks, replaceRagChunks faults sourceId chunks after = (.error failure, after)
  section_iff : ∀ row, ¬ pipeline.OwnDocument call after.toRagTables row.docId →
    (row ∈ after.sections.rows ↔ row ∈ before.sections.rows)

theorem Progress.failedClosed (h : Progress pipeline call before s) :
    FailedClosed pipeline faults call failure before s where
  own := h.own
  chunks := h.chunks
  sections := .inl h.sections
  section_iff row _ := by rw [h.sections]

/-- The last write: nothing else has failed, and the sections are there. -/
theorem wp_replaceRagChunks_failedClosed {rows : KeyedTable RagSectionRecord.sectionId}
    {sections : List RagSectionRecord} {chunks : List ChunkRow}
    (h : Progress pipeline call before s₁) (hOwn : pipeline.OwnDocument call s₁.toRagTables docId)
    (hRows : s₁.sections.replace (fun row => row.docId = docId) sections = .ok rows)
    (hSections : ∀ row ∈ sections, row.docId = docId) :
    Tx.wp (replaceRagChunks faults sourceId chunks) (fun _ _ => True)
      (fun failure s' => FailedClosed pipeline faults call failure before s')
      { s₁ with sections := rows } := by
  have hFailed : ∀ failure, replaceRagChunks faults sourceId chunks { s₁ with sections := rows } =
      (.error failure, { s₁ with sections := rows }) →
      FailedClosed pipeline faults call failure before { s₁ with sections := rows } := by
    intro failure hRaise
    refine ⟨{ h.own with }, h.chunks, .inr ⟨sourceId, chunks, hRaise⟩, ?_⟩
    intro row hNot
    have hDoc : row.docId ≠ docId := by
      rintro rfl
      exact hNot hOwn
    rw [KeyedTable.mem_replace hRows, h.sections]
    constructor
    · rintro (⟨hRow, _⟩ | hRow)
      · exact hRow
      · exact absurd (hSections row hRow) hDoc
    · intro hRow
      exact .inl ⟨hRow, by simpa using hDoc⟩
  unfold Tx.wp
  split
  · trivial
  next failure s' hRaise =>
    -- a write that raises leaves the store alone
    have hSame : s' = { s₁ with sections := rows } := by
      have hWrite := hRaise
      simp only [replaceRagChunks, write] at hWrite
      split at hWrite
      · exact (Prod.mk.inj hWrite).2.symm
      · split at hWrite
        · cases hWrite
        · exact (Prod.mk.inj hWrite).2.symm
    subst hSame
    exact hFailed failure hRaise

/-- **A call that raises** has written at most the row of its source, the document of that source
and its membership. The chunks are as they were, and so are the sections, unless it is the write of
the chunks that has failed. If the uri or the bytes were refused, nothing has been written. -/
theorem ingestDocument_raises {s' : RagStore} (hFresh : pipeline.Fresh s)
    (h : ingestDocument pipeline faults call s = (.error failure, s')) :
    ((∃ error, pipeline.screen call = .error error) → s' = s) ∧
      FailedClosed pipeline faults call failure s s' := by
  constructor
  · rintro ⟨error, hScreen⟩
    rw [ingestDocument_refused hScreen] at h
    exact (Prod.mk.inj h).2.symm
  · have hWp : Tx.wp (ingestDocument pipeline faults call) (fun _ _ => True)
        (fun failure s' => FailedClosed pipeline faults call failure s s') s := by
      refine Tx.wp_step (wp_ingestDocumentBytes hFresh) ?_
        fun _ _ hProgress => hProgress.failedClosed
      rintro ⟨source, record⟩ s₁ ⟨hProgress, hMem, hKey, hDoc⟩
      refine Tx.wp_step (wp_saveExtra hProgress hMem hKey) ?_ fun _ _ hNext => hNext.failedClosed
      rintro _ s₂ ⟨hProgress, hOwn⟩
      rw [Tx.wp_bind, Tx.wp_ofExcept]
      refine ⟨?_, fun _ _ => hProgress.failedClosed⟩
      rintro ⟨document, sections, chunks⟩ hExtract
      rw [Tx.wp_bind]
      refine wp_replaceRagSections ?_ (fun _ => hProgress.failedClosed)
        (fun _ _ => hProgress.failedClosed)
      intro rows hRows
      refine Tx.wp_step (wp_replaceRagChunks_failedClosed hProgress
        ⟨source.sourceId, hOwn, hDoc⟩ hRows ?_) (fun _ _ _ => trivial) fun _ _ hFailed => hFailed
      exact fun row hRow => ((extractChunks_eq_ok hExtract).1 row hRow).1
    unfold Tx.wp at hWp
    rw [h] at hWp
    exact hWp

end Raises

def noFaults : Faults := fun _ _ => none

def sampleDigests : Digests where
  detId key := key
  sha256 text :=
    if text = "rag-document:8f14e45fceea467ab9d5d1b2c3a4e5f6".toList then
      "510f4945266fe6bb534a1bdcd319c06ab3eca949c2648e95c93a06fc6d786882"
    else String.ofList text

/-- The number that decimal digits write. -/
def readDigits (text : String) : Option Int :=
  if text ≠ "" ∧ text.toList.all Char.isDigit then
    some (text.toList.foldl (fun n c => 10 * n + (c.toNat - '0'.toNat : Nat)) 0)
  else none

def samplePipeline : Pipeline where
  secretPath _ := none
  secretText text := if "password".toList <:+: text then some "'password'" else none
  digests := sampleDigests
  sha256Bytes _ := "86edbaa24831badfa0a8b04bb410141e2ee4182b6d0014493fe262a7a331c20b"
  uuid _ := "8f14e45fceea467ab9d5d1b2c3a4e5f6"
  detectSections _ := []
  isIndexLike _ := false
  lower := id
  pyRepr text := "'" ++ text ++ "'"
  intOfText := readDigits

/-- The bytes `%PDF-1.7`, whose extractor finds a password. -/
def passwordPdf : IngestCall where
  data := [0x25, 0x50, 0x44, 0x46, 0x2d, 0x31, 0x2e, 0x37]
  canonicalUri := "file:///raw/notes.pdf"
  extract _ := .ok ⟨"password: hunter2".toList, []⟩
  now := "2026-01-01T00:00:00+00:00"

/-- The call raises, and the source and its document have been written. -/
theorem refused_pdf_listed :
    ∃ failure s', ingestDocument samplePipeline noFaults passwordPdf {} = (.error failure, s') ∧
      s'.sources.rows ≠ ({} : RagStore).sources.rows ∧
      s'.documents.rows ≠ ({} : RagStore).documents.rows := by
  refine ⟨.raised (secretError "'password'"), _, rfl, ?_, ?_⟩
  · intro h
    cases h
  · intro h
    cases h

theorem ingestDocument_raises_passwordPdf :
    ∃ failure s', ingestDocument samplePipeline noFaults passwordPdf {} = (.error failure, s') ∧
      FailedClosed samplePipeline noFaults passwordPdf failure {} s' := by
  have hFresh : samplePipeline.Fresh {} := by
    intro n _
    constructor <;> intro row hRow <;> cases hRow
  refine ⟨.raised (secretError "'password'"), _, rfl, ?_⟩
  exact (ingestDocument_raises hFresh rfl).2

end Glasslab.Corpus
