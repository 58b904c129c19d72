import Glasslab.Knowledge.Retrieval
import Glasslab.Foundation.KeyedTable
import Glasslab.Foundation.Transaction
import Glasslab.Foundation.Raising

/-!
# The tables of the corpus

The tables of `app/storage.py` that the ingestion, the backfill and the healing of documents write,
with the constraints that the schema declares: primary keys, and one document for each source. A row
is written after the rows it refers to and no operation here deletes one of those, so that the
foreign keys refuse nothing.

Each write is a transaction of its own. It is refused by a constraint, or the engine fails in it (a
locked or full database), and then it has written nothing. An `IntegrityError` says whether the
value is held by a row that was there or is repeated in what is written. A source that is read is
validated: a row can be stored whose title is too long to be read back.
-/

namespace Glasslab.Corpus

open Foundation Knowledge Raising

inductive DocType where
  | book
  | paper
  | reference
  | other
  deriving DecidableEq, Repr

structure RagDocumentRecord where
  docId : String
  sourceId : String
  docType : DocType
  title : Option String := none
  authors : List String := []
  year : Option Int := none
  doiIsbnUrl : Option String := none
  extractionVersion : String
  metadata : Payload := []

structure CorpusRecord where
  corpusId : String
  slug : String
  title : Option String := none
  createdAt : String
  metadata : Payload := []

/-- A row of `rag_corpus_sources`. -/
structure CorpusSource where
  corpusId : String
  sourceId : String
  addedAt : String

def CorpusSource.pair (row : CorpusSource) : String × String := (row.corpusId, row.sourceId)

/-- A row of `rag_chunks`. What a chunk of the knowledge index does not have is optional. -/
structure ChunkRow where
  chunkId : String
  sourceId : String
  docId : Option String
  sectionId : Option String := none
  kind : ChunkKind
  chunkIndex : Nat
  text : List Char
  digest : String
  tokenCount : Nat
  pageStart : Option Nat := none
  pageEnd : Option Nat := none
  charStart : Option Nat := none
  charEnd : Option Nat := none
  sectionPath : Option String := none
  indexVersion : String

def ChunkRow.ofRecord (chunk : RagChunkRecord) : ChunkRow where
  chunkId := chunk.chunkId
  sourceId := chunk.sourceId
  docId := some chunk.docId
  sectionId := some chunk.sectionId
  kind := chunk.kind
  chunkIndex := chunk.chunkIndex
  text := chunk.text
  digest := chunk.digest
  tokenCount := chunk.tokenCount
  pageStart := chunk.pageStart
  pageEnd := chunk.pageEnd
  charStart := some chunk.charStart
  charEnd := some chunk.charEnd
  sectionPath := some chunk.sectionPath
  indexVersion := chunk.indexVersion

structure RagTables where
  sources : SourceTable := .empty
  knowledgeChunks : KeyedTable KnowledgeChunk.chunkId := .empty
  documents : UniqueTable RagDocumentRecord.docId RagDocumentRecord.sourceId := .empty
  corpora : UniqueTable CorpusRecord.corpusId CorpusRecord.slug := .empty
  memberships : KeyedTable CorpusSource.pair := .empty
  sections : KeyedTable RagSectionRecord.sectionId := .empty
  chunks : KeyedTable ChunkRow.chunkId := .empty

structure RagStore extends RagTables where
  /-- How many ids have been drawn. -/
  issued : Nat := 0

inductive Failure where
  | raised (error : Raised)
  /-- A `TypeError` or a `ValidationError`, because what is passed on as the authors or the year of
  a document cannot be that. -/
  | illTyped (error : Raised)
  /-- `sqlite3.IntegrityError`. -/
  | integrity (column : String) (clash : Clash)
  /-- A `ValidationError` for the row of a source. -/
  | unreadable (sourceId : String)
  deriving DecidableEq, Repr

inductive Write where
  | knowledgeSource
  | knowledgeChunks
  | ragDocument
  | corpus
  | corpusSource
  | ragSections
  | ragChunks
  | event
  deriving DecidableEq, Repr

/-- What the engine raises in a write, whatever is written. -/
abbrev Faults := Write → RagTables → Option Raised

abbrev Command := Tx RagStore Failure

variable (faults : Faults)

/-- `with self.transaction()`. -/
def write (which : Write) (change : RagTables → Except Failure RagTables) : Command Unit := fun s =>
  match faults which s.toRagTables with
  | some error => (.error (.raised error), s)
  | none =>
    match change s.toRagTables with
    | .ok tables => (.ok (), { s with toRagTables := tables })
    | .error failure => (.error failure, s)

def refusal (column : String) {α : Type} : Except Clash α → Except Failure α
  | .ok a => .ok a
  | .error clash => .error (.integrity column clash)

/-- The model of a source: `canonical_uri` has at least one character and `title` at most 512. -/
def sourceValid (canonicalUri : String) (title : Option String) : Bool :=
  canonicalUri ≠ "" ∧ title.all fun title => title.length ≤ 512

/-- `_knowledge_source_from_row`. -/
def readSource (row : KnowledgeSource) : Except Failure KnowledgeSource :=
  if sourceValid row.canonicalUri row.title then .ok row else .error (.unreadable row.sourceId)

def RagTables.findKnowledgeSource (tables : RagTables) (digest canonicalUri : String) :
    Except Failure (Option KnowledgeSource) :=
  match tables.sources.find digest canonicalUri with
  | some row => (readSource row).map some
  | none => .ok none

def RagTables.listKnowledgeSources (tables : RagTables) : Except Failure (List KnowledgeSource) :=
  (tables.sources.list ∅ none).mapM readSource

def saveKnowledgeSource (record : KnowledgeSource) : Command Unit :=
  write faults .knowledgeSource fun tables => do
    let sources ← ((tables.sources.save record).elim
      (.error (.integrity "knowledge_sources.digest, knowledge_sources.canonical_uri" .taken))
      .ok : Except Failure SourceTable)
    pure { tables with sources := sources }

def replaceKnowledgeChunks (sourceId : String) (chunks : List KnowledgeChunk) : Command Unit :=
  write faults .knowledgeChunks fun tables => do
    let chunks ← refusal "knowledge_chunks.chunk_id"
      (tables.knowledgeChunks.replace (fun chunk => chunk.sourceId = sourceId) chunks)
    pure { tables with knowledgeChunks := chunks }

def upsertRagDocument (record : RagDocumentRecord) : Command Unit :=
  write faults .ragDocument fun tables => do
    let documents ← ((tables.documents.upsert record).elim
      (.error (.integrity "rag_documents.source_id" .taken)) .ok : Except Failure _)
    pure { tables with documents := documents }

/-- `get_rag_document`; without one it raises `RecordNotFound`. -/
def RagTables.ragDocument? (tables : RagTables) (sourceId : String) : Option RagDocumentRecord :=
  tables.documents.findKey sourceId

/-- `get_corpus`. -/
def RagTables.corpus? (tables : RagTables) (slug : String) : Option CorpusRecord :=
  tables.corpora.findKey slug

def createCorpus (record : CorpusRecord) : Command Unit :=
  write faults .corpus fun tables => do
    let corpora ← ((tables.corpora.upsert record).elim
      (.error (.integrity "rag_corpora.slug" .taken)) .ok : Except Failure _)
    pure { tables with corpora := corpora }

/-- `add_corpus_source`: nothing happens if the source is a member. -/
def addCorpusSource (row : CorpusSource) : Command Unit :=
  write faults .corpusSource fun tables =>
    if row.pair ∈ tables.memberships.rows.map CorpusSource.pair then .ok tables
    else do
      let memberships ← refusal "rag_corpus_sources.corpus_id, rag_corpus_sources.source_id"
        (tables.memberships.replace (fun _ => false) [row])
      pure { tables with memberships := memberships }

def replaceRagSections (docId : String) (sections : List RagSectionRecord) : Command Unit :=
  write faults .ragSections fun tables => do
    let sections ← refusal "rag_sections.section_id"
      (tables.sections.replace (fun row => row.docId = docId) sections)
    pure { tables with sections := sections }

def replaceRagChunks (sourceId : String) (chunks : List ChunkRow) : Command Unit :=
  write faults .ragChunks fun tables => do
    let chunks ← refusal "rag_chunks.chunk_id"
      (tables.chunks.replace (fun row => row.sourceId = sourceId) chunks)
    pure { tables with chunks := chunks }

/-- `list_rag_chunks` with the id of one source. -/
def RagTables.chunksOf (tables : RagTables) (sourceId : String) : List ChunkRow :=
  tables.chunks.rows.filter fun row => row.sourceId = sourceId

/-- `uuid4`, by number. -/
def drawId : Command Nat := fun s => (.ok s.issued, { s with issued := s.issued + 1 })

/-! ## Specifications -/

variable {row source : KnowledgeSource}

theorem readSource_eq_ok_iff :
    readSource row = .ok source ↔ sourceValid row.canonicalUri row.title = true ∧ source = row := by
  unfold readSource
  split
  next hValid => simp [hValid, eq_comm]
  next hValid => simp [hValid]

variable {failure : Failure}

theorem readSource_eq_error_iff :
    readSource row = .error failure ↔
      sourceValid row.canonicalUri row.title = false ∧ failure = .unreadable row.sourceId := by
  unfold readSource
  split
  next hValid => simp [hValid]
  next hValid => simp [hValid, eq_comm]

variable {tables : RagTables} {digest uri : String}

theorem findKnowledgeSource_eq_ok_some
    (h : tables.findKnowledgeSource digest uri = .ok (some source)) :
    tables.sources.find digest uri = some source ∧
      sourceValid source.canonicalUri source.title = true := by
  unfold RagTables.findKnowledgeSource at h
  split at h
  next row hFind =>
    cases hRead : readSource row with
    | error failure => rw [hRead] at h; cases h
    | ok found =>
      rw [hRead] at h
      cases h
      obtain ⟨hValid, rfl⟩ := readSource_eq_ok_iff.mp hRead
      exact ⟨hFind, hValid⟩
  · cases h

theorem findKnowledgeSource_eq_ok_none (h : tables.findKnowledgeSource digest uri = .ok none) :
    tables.sources.find digest uri = none := by
  unfold RagTables.findKnowledgeSource at h
  split at h
  next row hFind =>
    cases hRead : readSource row with
    | error failure => rw [hRead] at h; cases h
    | ok found => rw [hRead] at h; cases h
  next hFind => exact hFind

theorem findKnowledgeSource_eq_error (h : tables.findKnowledgeSource digest uri = .error failure) :
    ∃ row ∈ tables.sources.rows, sourceValid row.canonicalUri row.title = false := by
  unfold RagTables.findKnowledgeSource at h
  split at h
  next row hFind =>
    cases hRead : readSource row with
    | error other =>
      exact ⟨row, (SourceTable.find_eq_some_iff.mp hFind).1, (readSource_eq_error_iff.mp hRead).1⟩
    | ok found => rw [hRead] at h; cases h
  · cases h

theorem listKnowledgeSources_eq_ok_iff {sources : List KnowledgeSource} :
    tables.listKnowledgeSources = .ok sources ↔
      (∀ row ∈ tables.sources.list ∅ none, sourceValid row.canonicalUri row.title = true) ∧
        sources = tables.sources.list ∅ none := by
  have hRead : ∀ row source, readSource row = .ok source ↔
      sourceValid row.canonicalUri row.title = true ∧ source = id row :=
    fun row source => readSource_eq_ok_iff
  unfold RagTables.listKnowledgeSources
  rw [mapM_eq_ok_iff hRead, List.map_id]

variable {faults} {s : RagStore} {Q : Unit → RagStore → Prop} {E : Failure → RagStore → Prop}
  {which : Write}

theorem wp_write {change : RagTables → Except Failure RagTables}
    (hOk : ∀ tables, change s.toRagTables = .ok tables → Q () { s with toRagTables := tables })
    (hFault : ∀ error, E (.raised error) s)
    (hRefused : ∀ failure, change s.toRagTables = .error failure → E failure s) :
    Tx.wp (write faults which change) Q E s := by
  unfold Tx.wp write
  cases faults which s.toRagTables with
  | some error => exact hFault error
  | none =>
    cases hChange : change s.toRagTables with
    | ok tables => exact hOk tables hChange
    | error failure => exact hRefused failure hChange

variable {β α : Type}

theorem wp_write_part {part : RagTables → Except Failure β}
    {put : RagTables → β → RagTables}
    (hOk : ∀ b, part s.toRagTables = .ok b →
      Q () { s with toRagTables := put s.toRagTables b })
    (hFault : ∀ error, E (.raised error) s)
    (hRefused : ∀ failure, part s.toRagTables = .error failure → E failure s) :
    Tx.wp (write faults which fun tables => do pure (put tables (← part tables))) Q E s := by
  refine wp_write ?_ hFault ?_
  · intro tables hTables
    obtain ⟨b, hPart, hPut⟩ := of_bind hTables
    obtain rfl := pure_eq_ok_iff.mp hPut
    exact hOk b hPart
  · intro failure hFailure
    cases hPart : part s.toRagTables with
    | error other =>
      rw [hPart] at hFailure
      cases hFailure
      exact hRefused failure hPart
    | ok b =>
      rw [hPart] at hFailure
      cases hFailure

theorem elim_eq_error_iff {o : Option α} {failure' : Failure} :
    (o.elim (.error failure) .ok : Except Failure α) = .error failure' ↔
      o = none ∧ failure' = failure := by
  cases o <;> simp [eq_comm]

variable {column : String} {r : Except Clash α}

theorem refusal_eq_ok_iff {a : α} :
    refusal column r = .ok a ↔ r = .ok a := by
  cases r <;> simp [refusal]

theorem refusal_eq_error_iff :
    refusal column r = .error failure ↔
      ∃ clash, r = .error clash ∧ failure = .integrity column clash := by
  cases r <;> simp [refusal, eq_comm]

theorem wp_write_elim {saved : RagTables → Option β}
    {put : RagTables → β → RagTables}
    (hOk : ∀ b, saved s.toRagTables = some b →
      Q () { s with toRagTables := put s.toRagTables b })
    (hFault : ∀ error, E (.raised error) s) (hTaken : saved s.toRagTables = none → E failure s) :
    Tx.wp (write faults which fun tables => do
      pure (put tables (← (saved tables).elim (.error failure) .ok))) Q E s := by
  refine wp_write_part (fun b hSave => hOk b (elim_eq_ok_iff.mp hSave)) hFault ?_
  intro failure hFailure
  obtain ⟨hNone, rfl⟩ := elim_eq_error_iff.mp hFailure
  exact hTaken hNone

theorem wp_write_refusal
    {replaced : RagTables → Except Clash β} {put : RagTables → β → RagTables}
    (hOk : ∀ b, replaced s.toRagTables = .ok b →
      Q () { s with toRagTables := put s.toRagTables b })
    (hFault : ∀ error, E (.raised error) s)
    (hClash : ∀ clash, replaced s.toRagTables = .error clash → E (.integrity column clash) s) :
    Tx.wp (write faults which fun tables => do
      pure (put tables (← refusal column (replaced tables)))) Q E s := by
  refine wp_write_part (fun b hReplace => hOk b (refusal_eq_ok_iff.mp hReplace)) hFault ?_
  intro failure hFailure
  obtain ⟨clash, hReplace, rfl⟩ := refusal_eq_error_iff.mp hFailure
  exact hClash clash hReplace

theorem wp_drawId {Q : Nat → RagStore → Prop} :
    Tx.wp drawId Q E s ↔ Q s.issued { s with issued := s.issued + 1 } := Iff.rfl

section Writes

variable {record : KnowledgeSource} {document : RagDocumentRecord} {corpus : CorpusRecord}
  {member : CorpusSource} {docId sourceId : String} {sections : List RagSectionRecord}
  {chunks : List ChunkRow} {fragments : List KnowledgeChunk}

theorem wp_saveKnowledgeSource
    (hOk : ∀ sources, s.sources.save record = some sources → Q () { s with sources := sources })
    (hFault : ∀ error, E (.raised error) s)
    (hTaken : s.sources.save record = none →
      E (.integrity "knowledge_sources.digest, knowledge_sources.canonical_uri" .taken) s) :
    Tx.wp (saveKnowledgeSource faults record) Q E s :=
  wp_write_elim hOk hFault hTaken

theorem wp_upsertRagDocument
    (hOk : ∀ documents, s.documents.upsert document = some documents →
      Q () { s with documents := documents })
    (hFault : ∀ error, E (.raised error) s)
    (hTaken : s.documents.upsert document = none →
      E (.integrity "rag_documents.source_id" .taken) s) :
    Tx.wp (upsertRagDocument faults document) Q E s :=
  wp_write_elim hOk hFault hTaken

theorem wp_createCorpus
    (hOk : ∀ corpora, s.corpora.upsert corpus = some corpora → Q () { s with corpora := corpora })
    (hFault : ∀ error, E (.raised error) s)
    (hTaken : s.corpora.upsert corpus = none → E (.integrity "rag_corpora.slug" .taken) s) :
    Tx.wp (createCorpus faults corpus) Q E s :=
  wp_write_elim hOk hFault hTaken

theorem wp_addCorpusSource
    (hMember : member.pair ∈ s.memberships.rows.map CorpusSource.pair → Q () s)
    (hOk : ∀ memberships, memberships.rows = s.memberships.rows ++ [member] →
      Q () { s with memberships := memberships })
    (hFault : ∀ error, E (.raised error) s) :
    Tx.wp (addCorpusSource faults member) Q E s := by
  have hKept : s.memberships.kept (fun _ => false) = s.memberships.rows := by
    simp [KeyedTable.kept]
  refine wp_write ?_ hFault ?_
  · intro tables hTables
    split at hTables
    next hMem => cases hTables; exact hMember hMem
    next hMem =>
      cases hReplace : s.memberships.replace (fun _ => false) [member] with
      | error clash => rw [hReplace] at hTables; cases hTables
      | ok memberships =>
        rw [hReplace] at hTables
        cases hTables
        exact hOk memberships ((KeyedTable.rows_replace hReplace).trans (by rw [hKept]))
  · intro failure hFailure
    split at hFailure
    · cases hFailure
    next hMem =>
      cases hReplace : s.memberships.replace (fun _ => false) [member] with
      | ok memberships => rw [hReplace] at hFailure; cases hFailure
      | error clash =>
        -- one row that is not there clashes with nothing
        unfold KeyedTable.replace at hReplace
        split at hReplace
        next clash' hClash =>
          rw [hKept] at hClash
          simp [firstClash, hMem] at hClash
        · cases hReplace

theorem wp_replaceRagSections
    (hOk : ∀ rows, s.sections.replace (fun row => row.docId = docId) sections = .ok rows →
      Q () { s with sections := rows })
    (hFault : ∀ error, E (.raised error) s)
    (hClash : ∀ clash, s.sections.replace (fun row => row.docId = docId) sections = .error clash →
      E (.integrity "rag_sections.section_id" clash) s) :
    Tx.wp (replaceRagSections faults docId sections) Q E s :=
  wp_write_refusal hOk hFault hClash

theorem wp_replaceRagChunks
    (hOk : ∀ rows, s.chunks.replace (fun row => row.sourceId = sourceId) chunks = .ok rows →
      Q () { s with chunks := rows })
    (hFault : ∀ error, E (.raised error) s)
    (hClash : ∀ clash, s.chunks.replace (fun row => row.sourceId = sourceId) chunks = .error clash →
      E (.integrity "rag_chunks.chunk_id" clash) s) :
    Tx.wp (replaceRagChunks faults sourceId chunks) Q E s :=
  wp_write_refusal hOk hFault hClash

theorem wp_replaceKnowledgeChunks
    (hOk : ∀ rows, s.knowledgeChunks.replace (fun row => row.sourceId = sourceId) fragments =
      .ok rows → Q () { s with knowledgeChunks := rows })
    (hFault : ∀ error, E (.raised error) s)
    (hClash : ∀ clash, s.knowledgeChunks.replace (fun row => row.sourceId = sourceId) fragments =
      .error clash → E (.integrity "knowledge_chunks.chunk_id" clash) s) :
    Tx.wp (replaceKnowledgeChunks faults sourceId fragments) Q E s :=
  wp_write_refusal hOk hFault hClash

end Writes

end Glasslab.Corpus
