import Glasslab.Corpus.Uploads

/-!
# Rows that belong together

Three functions write documents and chunks of a source. `Sound` says how the rows of the store
belong together whichever of them has written: ids have been drawn or are digests, a document has
the id that `ingest_document` gives it or the one that the backfill gives it, and a chunk is a chunk
of the document of its source. Each write keeps that, and so does `ingest_document`
(`wp_ingestDocument`). A call fails because of a row that is there only if the backfill has written
the document of its source, or a row cannot be read.

That different keys have different digests and that ids are drawn once is assumed (`Collisionless`).
-/

namespace Glasslab.Corpus

open Foundation Knowledge List

/-- Digests and ids that are drawn do not collide. -/
structure Collisionless (pipeline : Pipeline) : Prop where
  uuid_injective : Function.Injective pipeline.uuid
  uuid_plain : ∀ n, '|' ∉ (pipeline.uuid n).toList
  detId_injective : Function.Injective pipeline.digests.detId
  sha256_injective : Function.Injective pipeline.digests.sha256
  uuid_ne_detId : ∀ n key, pipeline.uuid n ≠ pipeline.digests.detId key
  /-- A digest is written with hexadecimal digits. -/
  sha256_ne : ∀ text rest, pipeline.digests.sha256 text ≠ "kb-" ++ rest

/-- The uri of an upload. -/
def IsUpload (uri : String) : Prop := ∃ name, uri = "upload://" ++ name

variable {pipeline : Pipeline}

section Ids

variable {n m : Nat} {rest rest' a b : String}

theorem append_toList_injective {head : String} (h : head ++ rest = head ++ rest') :
    rest = rest' := by
  have hList : head.toList ++ rest.toList = head.toList ++ rest'.toList := by
    rw [← String.toList_append, ← String.toList_append, h]
  exact String.toList_injective (append_cancel_left hList)

theorem takeWhile_ne_bar {a b : List Char} (h : '|' ∉ a) :
    (a ++ '|' :: b).takeWhile (fun c => c ≠ '|') = a := by
  rw [takeWhile_append_of_pos]
  · simp
  · intro c hc
    have hNe : c ≠ '|' := fun hEq => h (hEq ▸ hc)
    simpa using hNe

/-- What stands before the first separator of a key. -/
theorem uuid_eq_of_key_eq (laws : Collisionless pipeline)
    (h : pipeline.uuid n ++ "|" ++ rest = pipeline.uuid m ++ "|" ++ rest') :
    pipeline.uuid n = pipeline.uuid m := by
  have hList : (pipeline.uuid n).toList ++ '|' :: rest.toList =
      (pipeline.uuid m).toList ++ '|' :: rest'.toList := by
    have h' := congrArg String.toList h
    simpa only [String.toList_append, append_assoc, singleton_append,
      show "|".toList = ['|'] from rfl] using h'
  have hTake := congrArg (List.takeWhile fun c => c ≠ '|') hList
  rw [takeWhile_ne_bar (laws.uuid_plain n), takeWhile_ne_bar (laws.uuid_plain m)] at hTake
  exact String.toList_injective hTake

theorem chunkKey_eq (sourceId : String) (kind : ChunkKind) (index : Nat) :
    chunkKey sourceId kind index = sourceId ++ "|" ++ (kind.value ++ "|" ++ toString index) := by
  simp only [chunkKey, String.append_assoc]

end Ids

/-! ## The invariant -/

/-- A document has one of two ids. Only an upload is projected. -/
def DocumentOf (pipeline : Pipeline) (sources : SourceTable) (document : RagDocumentRecord) :
    Prop :=
  document.docId = pipeline.documentIdForSource document.sourceId ∨
    document.docId = pipeline.stableDocId document.sourceId ∧
      ∃ source ∈ sources.rows, source.sourceId = document.sourceId ∧ IsUpload source.canonicalUri

def ChunkOf (documents : List RagDocumentRecord) (chunk : ChunkRow) : Prop :=
  ∃ document ∈ documents, document.sourceId = chunk.sourceId ∧ chunk.docId = some document.docId

def ChunkId (pipeline : Pipeline) (issued : Nat) (fragments : List KnowledgeChunk)
    (chunk : ChunkRow) : Prop :=
  (∃ n kind index, chunk.sourceId = pipeline.uuid n ∧
      chunk.chunkId = pipeline.digests.detId (chunkKey chunk.sourceId kind index)) ∨
    (∃ n < issued, chunk.chunkId = pipeline.uuid n) ∧
      ∀ fragment ∈ fragments, fragment.chunkId = chunk.chunkId → fragment.sourceId = chunk.sourceId

/-- A section of a document that `ingest_document` has written. -/
def SectionOf (pipeline : Pipeline) (row : RagSectionRecord) : Prop :=
  ∃ n path, row.sectionId = pipeline.digests.detId (pipeline.uuid n ++ "|" ++ path) ∧
    row.docId = pipeline.documentIdForSource (pipeline.uuid n)

structure Sound (pipeline : Pipeline) (s : RagStore) : Prop where
  source_id : ∀ source ∈ s.sources.rows, ∃ n < s.issued, source.sourceId = pipeline.uuid n
  corpus_id : ∀ corpus ∈ s.corpora.rows, ∃ n < s.issued, corpus.corpusId = pipeline.uuid n
  fragment_id : ∀ fragment ∈ s.knowledgeChunks.rows,
    ∃ n < s.issued, fragment.chunkId = pipeline.uuid n
  fragment_source : ∀ fragment ∈ s.knowledgeChunks.rows,
    ∃ source ∈ s.sources.rows, source.sourceId = fragment.sourceId ∧ IsUpload source.canonicalUri
  document_of : ∀ document ∈ s.documents.rows, DocumentOf pipeline s.sources document
  section_of : ∀ row ∈ s.sections.rows, SectionOf pipeline row
  chunk_of : ∀ chunk ∈ s.chunks.rows, ChunkOf s.documents.rows chunk
  chunk_id : ∀ chunk ∈ s.chunks.rows, ChunkId pipeline s.issued s.knowledgeChunks.rows chunk

def Readable (sources : SourceTable) : Prop :=
  ∀ row ∈ sources.rows, sourceValid row.canonicalUri row.title = true

/-- The call fails because of a row that is there. -/
def Failure.Blocked : Failure → Prop
  | .integrity _ clash => clash = .taken
  | .unreadable _ => True
  | .raised _ | .illTyped _ => False

variable {record : KnowledgeSource} {sources : SourceTable} {s : RagStore}

section Writes

theorem sound_empty (pipeline : Pipeline) : Sound pipeline {} := by
  constructor <;> intro row hRow <;> cases hRow

theorem readable_empty : Readable ({} : RagStore).sources := by
  intro row hRow
  cases hRow

theorem DocumentOf.sourceId_eq (laws : Collisionless pipeline) {d d' : RagDocumentRecord}
    (h : DocumentOf pipeline sources d) (h' : DocumentOf pipeline sources d')
    (hEq : d.docId = d'.docId) : d.sourceId = d'.sourceId := by
  rcases h with hId | ⟨hId, _⟩
  · rcases h' with hId' | ⟨hId', _⟩
    · exact append_toList_injective (String.toList_injective
      (laws.sha256_injective (hId.symm.trans (hEq.trans hId'))))
    · exact absurd (hId.symm.trans (hEq.trans hId')) (laws.sha256_ne _ _)
  · rcases h' with hId' | ⟨hId', _⟩
    · exact absurd (hId'.symm.trans (hEq.symm.trans hId)) (laws.sha256_ne _ _)
    · exact append_toList_injective (laws.detId_injective
      (append_toList_injective (hId.symm.trans (hEq.trans hId'))))

theorem Sound.issue (h : Sound pipeline s) {issued : Nat} (hLe : s.issued ≤ issued) :
    Sound pipeline { s with issued := issued } := by
  have hBelow : ∀ {P : Nat → Prop}, (∃ n < s.issued, P n) → ∃ n < issued, P n := by
    rintro P ⟨n, hn, hP⟩
    exact ⟨n, Nat.lt_of_lt_of_le hn hLe, hP⟩
  refine
    { h with
      source_id := fun row hRow => hBelow (h.source_id row hRow)
      corpus_id := fun row hRow => hBelow (h.corpus_id row hRow)
      fragment_id := fun row hRow => hBelow (h.fragment_id row hRow)
      chunk_id := ?_ }
  intro chunk hChunk
  exact (h.chunk_id chunk hChunk).imp id fun hDrawn => ⟨hBelow hDrawn.1, hDrawn.2⟩

variable {sourceId : String}

theorem exists_source_save {P : String → Prop}
    (hSave : s.sources.save record = some sources)
    (hUri : ∀ row ∈ s.sources.rows, row.sourceId = record.sourceId →
      row.canonicalUri = record.canonicalUri)
    (h : ∃ source ∈ s.sources.rows, source.sourceId = sourceId ∧ P source.canonicalUri) :
    ∃ source ∈ sources.rows, source.sourceId = sourceId ∧ P source.canonicalUri := by
  obtain ⟨source, hSource, hId, hP⟩ := h
  by_cases hSame : source.sourceId = record.sourceId
  · exact ⟨record, (mem_save hSave).mpr (.inl rfl), hSame.symm.trans hId,
      hUri source hSource hSame ▸ hP⟩
  · exact ⟨source, (mem_save hSave).mpr (.inr ⟨hSource, hSame⟩), hId, hP⟩

theorem Sound.save (h : Sound pipeline s) (hSave : s.sources.save record = some sources)
    (hId : ∃ n < s.issued, record.sourceId = pipeline.uuid n)
    (hUri : ∀ row ∈ s.sources.rows, row.sourceId = record.sourceId →
      row.canonicalUri = record.canonicalUri) :
    Sound pipeline { s with sources := sources } := by
  refine { h with source_id := ?_, fragment_source := ?_, document_of := ?_ }
  · intro source hSource
    rcases (mem_save hSave).mp hSource with rfl | ⟨hSource, _⟩
    · exact hId
    · exact h.source_id source hSource
  · intro fragment hFragment
    exact exists_source_save hSave hUri (h.fragment_source fragment hFragment)
  · intro document hDocument
    exact (h.document_of document hDocument).imp id fun hStable =>
      ⟨hStable.1, exists_source_save hSave hUri hStable.2⟩

theorem Readable.save (h : Readable s.sources) (hSave : s.sources.save record = some sources)
    (hValid : sourceValid record.canonicalUri record.title = true) : Readable sources := by
  intro row hRow
  rcases (mem_save hSave).mp hRow with rfl | ⟨hRow, _⟩
  · exact hValid
  · exact h row hRow

theorem Sound.upsertDocument (laws : Collisionless pipeline) (h : Sound pipeline s)
    {document : RagDocumentRecord}
    {documents : UniqueTable RagDocumentRecord.docId RagDocumentRecord.sourceId}
    (hUpsert : s.documents.upsert document = some documents)
    (hDocument : DocumentOf pipeline s.sources document) :
    Sound pipeline { s with documents := documents } := by
  refine { h with document_of := ?_, chunk_of := ?_ }
  · intro row hRow
    rcases (UniqueTable.mem_upsert hUpsert).mp hRow with rfl | ⟨hRow, _⟩
    · exact hDocument
    · exact h.document_of row hRow
  · intro chunk hChunk
    obtain ⟨row, hRow, hSource, hDoc⟩ := h.chunk_of chunk hChunk
    by_cases hSame : row.docId = document.docId
    · have hSourceId := (h.document_of row hRow).sourceId_eq laws hDocument hSame
      exact ⟨document, (UniqueTable.mem_upsert hUpsert).mpr (.inl rfl),
        hSourceId.symm.trans hSource,
        hSame ▸ hDoc⟩
    · exact ⟨row, (UniqueTable.mem_upsert hUpsert).mpr (.inr ⟨hRow, hSame⟩), hSource, hDoc⟩

section

variable (h : Sound pipeline s)
include h

theorem Sound.createCorpus {corpus : CorpusRecord}
    {corpora : UniqueTable CorpusRecord.corpusId CorpusRecord.slug}
    (hUpsert : s.corpora.upsert corpus = some corpora)
    (hId : ∃ n < s.issued, corpus.corpusId = pipeline.uuid n) :
    Sound pipeline { s with corpora := corpora } := by
  refine { h with corpus_id := ?_ }
  intro row hRow
  rcases (UniqueTable.mem_upsert hUpsert).mp hRow with rfl | ⟨hRow, _⟩
  · exact hId
  · exact h.corpus_id row hRow

theorem Sound.replaceSections {docId : String}
    {sections : List RagSectionRecord} {rows : KeyedTable RagSectionRecord.sectionId}
    (hReplace : s.sections.replace (fun row => row.docId = docId) sections = .ok rows)
    (hSections : ∀ row ∈ sections, SectionOf pipeline row) :
    Sound pipeline { s with sections := rows } := by
  refine { h with section_of := ?_ }
  intro row hRow
  rcases (KeyedTable.mem_replace hReplace).mp hRow with ⟨hRow, _⟩ | hRow
  · exact h.section_of row hRow
  · exact hSections row hRow

theorem Sound.replaceChunks {chunks : List ChunkRow}
    {rows : KeyedTable ChunkRow.chunkId}
    (hReplace : s.chunks.replace (fun row => row.sourceId = sourceId) chunks = .ok rows)
    (hChunks : ∀ chunk ∈ chunks, ChunkOf s.documents.rows chunk ∧
      ChunkId pipeline s.issued s.knowledgeChunks.rows chunk) :
    Sound pipeline { s with chunks := rows } := by
  refine { h with chunk_of := ?_, chunk_id := ?_ }
  · intro chunk hChunk
    rcases (KeyedTable.mem_replace hReplace).mp hChunk with ⟨hChunk, _⟩ | hChunk
    · exact h.chunk_of chunk hChunk
    · exact (hChunks chunk hChunk).1
  · intro chunk hChunk
    rcases (KeyedTable.mem_replace hReplace).mp hChunk with ⟨hChunk, _⟩ | hChunk
    · exact h.chunk_id chunk hChunk
    · exact (hChunks chunk hChunk).2

theorem Sound.replaceFragments
    {fragments : List KnowledgeChunk} {rows : KeyedTable KnowledgeChunk.chunkId}
    (hReplace : s.knowledgeChunks.replace (fun row => row.sourceId = sourceId) fragments = .ok rows)
    (hSource : ∃ source ∈ s.sources.rows, source.sourceId = sourceId ∧ IsUpload source.canonicalUri)
    (hFragments : ∀ fragment ∈ fragments, fragment.sourceId = sourceId ∧
      (∃ n < s.issued, fragment.chunkId = pipeline.uuid n) ∧
        ∀ chunk ∈ s.chunks.rows, chunk.chunkId ≠ fragment.chunkId) :
    Sound pipeline { s with knowledgeChunks := rows } := by
  refine { h with fragment_id := ?_, fragment_source := ?_, chunk_id := ?_ }
  · intro fragment hFragment
    rcases (KeyedTable.mem_replace hReplace).mp hFragment with ⟨hOld, _⟩ | hNew
    · exact h.fragment_id fragment hOld
    · exact (hFragments fragment hNew).2.1
  · intro fragment hFragment
    rcases (KeyedTable.mem_replace hReplace).mp hFragment with ⟨hOld, _⟩ | hNew
    · exact h.fragment_source fragment hOld
    · rw [(hFragments fragment hNew).1]
      exact hSource
  · intro chunk hChunk
    refine (h.chunk_id chunk hChunk).imp id fun hDrawn => ⟨hDrawn.1, ?_⟩
    intro fragment hFragment hId
    rcases (KeyedTable.mem_replace hReplace).mp hFragment with ⟨hOld, _⟩ | hNew
    · exact hDrawn.2 fragment hOld hId
    · exact absurd hId.symm ((hFragments fragment hNew).2.2 chunk hChunk)

end

end Writes

/-- What every operation keeps: the invariant, the sources with their uris and, where the operation
is as it should be, that all rows can be read. -/
structure Later (pipeline : Pipeline) (ok : Prop) (s s' : RagStore) : Prop where
  sound : Sound pipeline s'
  uris : ∀ row ∈ s.sources.rows, ∃ row' ∈ s'.sources.rows,
    row'.sourceId = row.sourceId ∧ row'.canonicalUri = row.canonicalUri
  readable : ok → Readable s.sources → Readable s'.sources

section Later

variable {ok : Prop} {s₁ s₂ : RagStore}

theorem Later.refl (h : Sound pipeline s) : Later pipeline ok s s :=
  ⟨h, fun row hRow => ⟨row, hRow, rfl, rfl⟩, fun _ hReadable => hReadable⟩

section

variable (h : Later pipeline ok s s₁)
include h

theorem Later.trans (h' : Later pipeline ok s₁ s₂) :
    Later pipeline ok s s₂ where
  sound := h'.sound
  uris row hRow := by
    obtain ⟨row', hRow', hId', hUri'⟩ := h.uris row hRow
    obtain ⟨row'', hRow'', hId'', hUri''⟩ := h'.uris row' hRow'
    exact ⟨row'', hRow'', hId''.trans hId', hUri''.trans hUri'⟩
  readable hOk hReadable := h'.readable hOk (h.readable hOk hReadable)

theorem Later.mono {ok' : Prop} (hOk : ok' → ok) :
    Later pipeline ok' s s₁ :=
  ⟨h.sound, h.uris, fun hOk' => h.readable (hOk hOk')⟩

theorem Later.other (hSound : Sound pipeline s₂)
    (hSources : s₂.sources = s₁.sources) : Later pipeline ok s s₂ where
  sound := hSound
  uris := by rw [hSources]; exact h.uris
  readable := by rw [hSources]; exact h.readable

theorem Later.save (hSave : s₁.sources.save record = some sources)
    (hId : ∃ n < s₁.issued, record.sourceId = pipeline.uuid n)
    (hUri : ∀ row ∈ s₁.sources.rows, row.sourceId = record.sourceId →
      row.canonicalUri = record.canonicalUri)
    (hValid : ok → sourceValid record.canonicalUri record.title = true) :
    Later pipeline ok s { s₁ with sources := sources } where
  sound := h.sound.save hSave hId hUri
  uris row hRow := by
    obtain ⟨row', hRow', hSame, hSameUri⟩ := h.uris row hRow
    obtain ⟨kept, hKept, hKeptId, hKeptUri⟩ := exists_source_save (P := fun uri =>
      uri = row.canonicalUri) hSave hUri ⟨row', hRow', hSame, hSameUri⟩
    exact ⟨kept, hKept, hKeptId, hKeptUri⟩
  readable hOk hReadable := (h.readable hOk hReadable).save hSave (hValid hOk)

end

end Later

/-! ## Ingestion -/

/-- A call that does not meet a row in its way: the backfill has not written the document of its
source, and the title can be read back. -/
def Clear (pipeline : Pipeline) (call : IngestCall) (s : RagStore) : Prop :=
  ∀ source ∈ s.sources.rows, source.key = pipeline.keyOf call →
    (call.title.all fun title => title.length ≤ 512) = true ∧
      ∀ document ∈ s.documents.rows, document.sourceId = source.sourceId →
        document.docId ≠ pipeline.stableDocId source.sourceId

section Ingest

variable {faults : Faults} {call : IngestCall} {source : KnowledgeSource} {authors : List Value}

theorem sourceValid_refresh
    (hValid : sourceValid source.canonicalUri source.title = true)
    (hTitle : (call.title.all fun title => title.length ≤ 512) = true) :
    sourceValid (call.refresh authors source).canonicalUri (call.refresh authors source).title =
      true := by
  unfold sourceValid at hValid ⊢
  rw [decide_eq_true_iff] at hValid ⊢
  refine ⟨hValid.1, ?_⟩
  show (call.title.or source.title).all _ = true
  cases hCall : call.title with
  | none => exact hValid.2
  | some title => rwa [hCall] at hTitle

theorem wp_sourceFor_sound (laws : Collisionless pipeline)
    (h : Sound pipeline s) :
    Tx.wp (pipeline.sourceFor call authors)
      (fun source s₁ => s₁.toRagTables = s.toRagTables ∧ s.issued ≤ s₁.issued ∧
        (∃ n < s₁.issued, source.sourceId = pipeline.uuid n) ∧
        source.key = pipeline.keyOf call ∧
        (∀ row ∈ s.sources.rows, row.sourceId = source.sourceId ↔ row.key = pipeline.keyOf call) ∧
        (Clear pipeline call s → sourceValid source.canonicalUri source.title = true))
      (fun failure s₁ => s₁.toRagTables = s.toRagTables ∧ s.issued ≤ s₁.issued ∧
        (Readable s.sources → ¬ failure.Blocked)) s := by
  rw [Pipeline.sourceFor, Tx.wp_bind, Tx.wp_get, Tx.wp_bind, Tx.wp_ofExcept]
  constructor
  · intro found hFind
    cases found with
    | some existing =>
      obtain ⟨hFind, hValid⟩ := findKnowledgeSource_eq_ok_some hFind
      obtain ⟨hMem, hDigest, hUri⟩ := SourceTable.find_eq_some_iff.mp hFind
      have hKey : existing.key = pipeline.keyOf call := Prod.ext hDigest hUri
      refine Tx.wp_pure.mpr ⟨rfl, Nat.le_refl _, h.source_id existing hMem, hKey, ?_, ?_⟩
      · intro row hRow
        constructor
        · intro hId
          rw [SourceTable.eq_of_sourceId_eq hRow hMem hId]
          exact hKey
        · intro hRowKey
          rw [SourceTable.eq_of_key_eq hRow hMem (hRowKey.trans hKey.symm)]
          rfl
      · intro hClear
        exact sourceValid_refresh hValid (hClear existing hMem hKey).1
    | none =>
      have hNone := SourceTable.find_eq_none_iff.mp (findKnowledgeSource_eq_ok_none hFind)
      dsimp only
      rw [Tx.wp_bind, wp_drawId, Tx.wp_ite]
      constructor
      · intro hValid
        refine Tx.wp_pure.mpr
          ⟨rfl, Nat.le_succ _, ⟨s.issued, Nat.lt_succ_self _, rfl⟩, rfl, ?_, fun _ => hValid⟩
        intro row hRow
        constructor
        · intro hId
          obtain ⟨n, hn, hRowId⟩ := h.source_id row hRow
          have hEq := laws.uuid_injective (hRowId.symm.trans hId)
          omega
        · intro hKey
          exact absurd (Prod.ext_iff.mp hKey) (hNone row hRow)
      · intro _
        exact Tx.wp_raise.mpr ⟨rfl, Nat.le_succ _, fun _ => id⟩
  · intro failure hFind
    refine ⟨rfl, Nat.le_refl _, ?_⟩
    intro hReadable
    obtain ⟨row, hRow, hInvalid⟩ := findKnowledgeSource_eq_error hFind
    exact absurd (hReadable row hRow) (by rw [hInvalid]; exact Bool.false_ne_true)

theorem wp_corpusFor_sound (h : Sound pipeline s) {slug now : String} {title : Option String}
    {metadata : Payload} :
    Tx.wp (corpusFor pipeline faults slug now title metadata)
      (fun _ s₁ => Sound pipeline s₁ ∧ s₁.sources = s.sources ∧ s₁.documents = s.documents)
      (fun failure s₁ => Sound pipeline s₁ ∧ s₁.sources = s.sources ∧ ¬ failure.Blocked) s := by
  rw [corpusFor, Tx.wp_bind, Tx.wp_get]
  split
  next corpus hFind => exact Tx.wp_pure.mpr ⟨h, rfl, rfl⟩
  next hFind =>
    have hDrawn := h.issue (Nat.le_succ s.issued)
    rw [Tx.wp_bind, wp_drawId, Tx.wp_ite]
    constructor
    · intro _
      exact Tx.wp_raise.mpr ⟨hDrawn, rfl, id⟩
    · intro _
      rw [Tx.wp_bind]
      refine wp_createCorpus ?_ (fun _ => ⟨hDrawn, rfl, id⟩) ?_
      · intro corpora hUpsert
        exact Tx.wp_pure.mpr
          ⟨hDrawn.createCorpus hUpsert ⟨s.issued, Nat.lt_succ_self _, rfl⟩, rfl, rfl⟩
      · intro hTaken
        obtain ⟨other, hOther, -, hSlug⟩ := UniqueTable.upsert_eq_none_iff.mp hTaken
        exact absurd hSlug (UniqueTable.findKey_eq_none_iff.mp hFind other hOther)

theorem wp_addCorpusSource_sound (h : Sound pipeline s) {member : CorpusSource} :
    Tx.wp (addCorpusSource faults member)
      (fun _ s₁ => Sound pipeline s₁ ∧ s₁.sources = s.sources ∧ s₁.documents = s.documents)
      (fun failure s₁ => Sound pipeline s₁ ∧ s₁.sources = s.sources ∧ ¬ failure.Blocked) s :=
  wp_addCorpusSource (fun _ => ⟨h, rfl, rfl⟩) (fun _ _ => ⟨{ h with }, rfl, rfl⟩)
    fun _ => ⟨h, rfl, id⟩

variable {sourceId : String}

theorem wp_joinCorpus_sound (h : Sound pipeline s) :
    Tx.wp (joinCorpus pipeline faults call sourceId)
      (fun _ s₁ => Sound pipeline s₁ ∧ s₁.sources = s.sources ∧ s₁.documents = s.documents)
      (fun failure s₁ => Sound pipeline s₁ ∧ s₁.sources = s.sources ∧ ¬ failure.Blocked) s := by
  unfold joinCorpus
  split
  · exact Tx.wp_pure.mpr ⟨h, rfl, rfl⟩
  · refine Tx.wp_step (wp_corpusFor_sound h) ?_ fun _ _ hRaised => hRaised
    rintro corpusId s₁ ⟨hSound, hSources, hDocuments⟩
    refine Tx.wp_mono (wp_addCorpusSource_sound hSound) ?_ ?_
    · rintro _ s₂ ⟨hSound₂, hSources₂, hDocuments₂⟩
      exact ⟨hSound₂, hSources₂.trans hSources, hDocuments₂.trans hDocuments⟩
    · rintro failure s₂ ⟨hSound₂, hSources₂, hNot⟩
      exact ⟨hSound₂, hSources₂.trans hSources, hNot⟩

variable {failure : Failure}

/-- The extraction fails for reasons of the document. -/
theorem not_blocked_of_extractChunks {docId : String}
    (h : pipeline.extractChunks call sourceId docId = .error failure) : ¬ failure.Blocked := by
  unfold Pipeline.extractChunks at h
  cases hExtract : call.extract call.data with
  | error error =>
    rw [hExtract] at h
    cases h
    exact id
  | ok document =>
    rw [hExtract] at h
    cases hSecrets : pipeline.assertNoSecrets document.text with
    | error error =>
      change (((pipeline.assertNoSecrets document.text).mapError Failure.raised) >>= _) = _ at h
      rw [hSecrets] at h
      cases h
      exact id
    | ok _ =>
      change (((pipeline.assertNoSecrets document.text).mapError Failure.raised) >>= _) = _ at h
      rw [hSecrets] at h
      cases hDerive : pipeline.derive document sourceId docId with
      | ok derived =>
        rw [hDerive] at h
        cases h
      | error other =>
        rw [hDerive] at h
        cases h
        unfold Pipeline.derive at hDerive
        split at hDerive
        · dsimp only at hDerive
          split at hDerive
          · cases hDerive
            exact id
          · cases hDerive
        · cases hDerive
          exact id

section

variable (laws : Collisionless pipeline)
include laws

theorem SectionOf.docId_eq {row : RagSectionRecord} {n : Nat}
    {path : String} (h : SectionOf pipeline row)
    (hId : row.sectionId = pipeline.digests.detId (pipeline.uuid n ++ "|" ++ path)) :
    row.docId = pipeline.documentIdForSource (pipeline.uuid n) := by
  obtain ⟨m, path', hRowId, hDoc⟩ := h
  rw [hRowId] at hId
  rw [hDoc, uuid_eq_of_key_eq laws (laws.detId_injective hId)]

/-- Sections that are derived for a source are not in the way of those of another. -/
theorem replaceSections_not_taken (h : Sound pipeline s) {n : Nat}
    {sections : List RagSectionRecord}
    (hSections : ∀ row ∈ sections,
      row.sectionId = pipeline.digests.detId (pipeline.uuid n ++ "|" ++ row.path)) :
    s.sections.replace (fun row => row.docId = pipeline.documentIdForSource (pipeline.uuid n))
      sections ≠ .error .taken := by
  intro hTaken
  obtain ⟨record, hRecord, row, hRow, hStays, hId⟩ := KeyedTable.exists_of_replace_taken hTaken
  rw [hSections record hRecord] at hId
  have hDoc := (h.section_of row hRow).docId_eq laws hId
  simp [hDoc] at hStays

theorem replaceChunks_not_taken (h : Sound pipeline s) {n : Nat}
    {chunks : List ChunkRow}
    (hChunks : ∀ chunk ∈ chunks, ∃ kind index,
      chunk.chunkId = pipeline.digests.detId (chunkKey (pipeline.uuid n) kind index)) :
    s.chunks.replace (fun row => row.sourceId = pipeline.uuid n) chunks ≠ .error .taken := by
  intro hTaken
  obtain ⟨record, hRecord, row, hRow, hStays, hId⟩ := KeyedTable.exists_of_replace_taken hTaken
  obtain ⟨kind, index, hRecordId⟩ := hChunks record hRecord
  rcases h.chunk_id row hRow with ⟨m, kind', index', hSource, hRowId⟩ | ⟨⟨m, _, hRowId⟩, _⟩
  · rw [hRecordId, hRowId, hSource, chunkKey_eq, chunkKey_eq] at hId
    have hSame := uuid_eq_of_key_eq laws (laws.detId_injective hId)
    simp [hSource, hSame] at hStays
  · exact laws.uuid_ne_detId m _ (hRowId.symm.trans (hId.trans hRecordId))

end

theorem not_blocked_of_listOf {value : Value}
    (h : listOf value = .error failure) : ¬ failure.Blocked := by
  unfold listOf at h
  split at h
  case h_1 | h_5 | h_6 | h_7 => cases h
  all_goals
    split at h
    all_goals
      cases h
      try exact id

theorem not_blocked_of_recordFor
    (h : pipeline.recordFor call authors sourceId = .error failure) : ¬ failure.Blocked := by
  unfold Pipeline.recordFor at h
  split at h
  all_goals
    cases h
    try exact id

structure Stored (pipeline : Pipeline) (call : IngestCall) (source : KnowledgeSource)
    (s : RagStore) :
    Prop where
  id : ∃ n < s.issued, source.sourceId = pipeline.uuid n
  key : source.key = pipeline.keyOf call
  mem : source ∈ s.sources.rows
  only : ∀ row ∈ s.sources.rows, row.key = pipeline.keyOf call → row.sourceId = source.sourceId

theorem Stored.other {s₁ : RagStore} (h : Stored pipeline call source s)
    (hSound : Sound pipeline s₁) (hSources : s₁.sources = s.sources) :
    Stored pipeline call source s₁ where
  id := hSound.source_id source (hSources ▸ h.mem)
  key := h.key
  mem := hSources ▸ h.mem
  only := hSources ▸ h.only

def Raises (pipeline : Pipeline) (ok : Prop) (s : RagStore) (failure : Failure) (s' : RagStore) :
    Prop :=
  Later pipeline ok s s' ∧ (ok → Readable s.sources → ¬ failure.Blocked)

theorem wp_ingestDocumentBytes_sound (laws : Collisionless pipeline) (h : Sound pipeline s) :
    Tx.wp (ingestDocumentBytes pipeline faults call)
      (fun result s₁ => Later pipeline (Clear pipeline call s) s s₁ ∧
        Stored pipeline call result.1 s₁ ∧
        (Clear pipeline call s → sourceValid result.1.canonicalUri result.1.title = true) ∧
        result.2.docId = pipeline.documentIdForSource result.1.sourceId ∧
        result.2.sourceId = result.1.sourceId ∧ result.2 ∈ s₁.documents.rows)
      (Raises pipeline (Clear pipeline call s) s) s := by
  have hStart : Later pipeline (Clear pipeline call s) s s := .refl h
  rw [ingestDocumentBytes, Tx.wp_bind, Tx.wp_ofExcept]
  refine ⟨fun _ _ => ?_, ?_⟩
  rotate_left
  · intro failure hScreen
    refine ⟨hStart, fun _ _ => ?_⟩
    cases hError : pipeline.screen call with
    | ok _ => rw [hError] at hScreen; cases hScreen
    | error error => rw [hError] at hScreen; cases hScreen; exact id
  rw [Tx.wp_bind, Tx.wp_ofExcept]
  refine ⟨fun authors _ => ?_, ?_⟩
  rotate_left
  · intro failure hAuthors
    exact ⟨hStart, fun _ _ => not_blocked_of_listOf hAuthors⟩
  refine Tx.wp_step (wp_sourceFor_sound laws h) ?_ ?_
  rotate_left
  · rintro failure s₁ ⟨hTables, hIssued, hNot⟩
    have hSound : Sound pipeline { s with issued := s₁.issued } := h.issue hIssued
    rw [show ({ s with issued := s₁.issued } : RagStore) = s₁ by rw [← hTables]] at hSound
    exact ⟨hStart.other hSound (congrArg RagTables.sources hTables), fun _ => hNot⟩
  rintro source s₁ ⟨hTables, hIssued, hId, hKey, hIff, hValid⟩
  have hSound : Sound pipeline { s with issued := s₁.issued } := h.issue hIssued
  rw [show ({ s with issued := s₁.issued } : RagStore) = s₁ by rw [← hTables]] at hSound
  have hSources : s₁.sources = s.sources := congrArg RagTables.sources hTables
  have hLater : Later pipeline (Clear pipeline call s) s s₁ := hStart.other hSound hSources
  have hIff₁ : ∀ row ∈ s₁.sources.rows, row.sourceId = source.sourceId ↔
      row.key = pipeline.keyOf call := hSources ▸ hIff
  rw [Tx.wp_bind]
  refine wp_saveKnowledgeSource ?_ (fun _ => ⟨hLater, fun _ _ => id⟩) ?_
  rotate_left
  · -- the row with the key of the call has the id of the source
    intro hTaken
    obtain ⟨saved, hSaved⟩ := @save_eq_some s₁.sources source
      fun row hRow hRowKey => (hIff₁ row hRow).mpr (hRowKey.trans hKey)
    rw [hTaken] at hSaved
    cases hSaved
  intro sources hSave
  have hUri : ∀ row ∈ s₁.sources.rows, row.sourceId = source.sourceId →
      row.canonicalUri = source.canonicalUri := by
    intro row hRow hSame
    exact (Prod.ext_iff.mp (((hIff₁ row hRow).mp hSame).trans hKey.symm)).2
  have hSaved := hLater.save hSave hId hUri hValid
  have hStored : Stored pipeline call source { s₁ with sources := sources } := by
    refine ⟨hId, hKey, (mem_save hSave).mpr (.inl rfl), ?_⟩
    intro row hRow hRowKey
    rcases (mem_save hSave).mp hRow with rfl | ⟨hRow, hNe⟩
    · rfl
    · exact absurd ((hIff₁ row hRow).mpr hRowKey) hNe
  rw [Tx.wp_ite]
  refine ⟨fun _ => Tx.wp_raise.mpr ⟨hSaved, fun _ _ => id⟩, fun _ => ?_⟩
  rw [Tx.wp_bind, Tx.wp_ofExcept]
  refine ⟨fun record hRecord => ?_, fun failure hRecord =>
    ⟨hSaved, fun _ _ => not_blocked_of_recordFor hRecord⟩⟩
  obtain ⟨hDocId, hRecordSource⟩ := recordFor_eq_ok hRecord
  rw [Tx.wp_bind]
  refine wp_upsertRagDocument ?_ (fun _ => ⟨hSaved, fun _ _ => id⟩) ?_
  rotate_left
  · -- the document that is there is one of the backfill
    intro hTaken
    refine ⟨hSaved, fun hClear _ => ?_⟩
    obtain ⟨document, hDocument, hOtherId, hSource⟩ := UniqueTable.upsert_eq_none_iff.mp hTaken
    have hDocument₁ : document ∈ s.documents.rows := by
      have hSame : s₁.documents = s.documents := congrArg RagTables.documents hTables
      exact hSame ▸ hDocument
    rcases h.document_of document hDocument₁ with hOwn | ⟨hStable, row, hRow, hRowId, _⟩
    · refine absurd ?_ hOtherId
      rw [hOwn, hSource, hRecordSource, hDocId]
    · have hRowKey := (hIff row hRow).mp ((hRowId.trans hSource).trans hRecordSource)
      have hNot := (hClear row hRow hRowKey).2 document hDocument₁ hRowId.symm
      rw [hStable, hRowId] at hNot
      exact absurd rfl hNot
  intro documents hUpsert
  have hUpserted := hSaved.sound.upsertDocument laws hUpsert
    (.inl (hDocId.trans (congrArg pipeline.documentIdForSource hRecordSource.symm)))
  refine Tx.wp_step (wp_joinCorpus_sound hUpserted) ?_ ?_
  · rintro _ s₂ ⟨hSound₂, hSources₂, hDocuments₂⟩
    refine Tx.wp_pure.mpr ⟨hSaved.other hSound₂ hSources₂, hStored.other hSound₂ hSources₂, hValid,
      hDocId, hRecordSource, ?_⟩
    rw [hDocuments₂]
    exact (UniqueTable.mem_upsert hUpsert).mpr (.inl rfl)
  · rintro failure s₂ ⟨hSound₂, hSources₂, hNot⟩
    exact ⟨hSaved.other hSound₂ hSources₂, fun _ _ => hNot⟩

theorem wp_saveExtra_sound {before : RagStore} {ok : Prop} (h : Later pipeline ok before s)
    (hStored : Stored pipeline call source s)
    (hValid : ok → sourceValid source.canonicalUri source.title = true) :
    Tx.wp (saveExtra faults call source)
      (fun _ s₁ => Later pipeline ok before s₁ ∧ s₁.documents = s.documents)
      (Raises pipeline ok before) s := by
  rw [saveExtra, Tx.wp_ite]
  refine ⟨fun _ => Tx.wp_pure.mpr ⟨h, rfl⟩, fun _ => ?_⟩
  refine wp_saveKnowledgeSource ?_ (fun _ => ⟨h, fun _ _ => id⟩) ?_
  · intro sources hSave
    refine ⟨h.save hSave hStored.id ?_ hValid, rfl⟩
    intro row hRow hSame
    rw [SourceTable.eq_of_sourceId_eq hRow hStored.mem hSame]
  · intro hTaken
    obtain ⟨saved, hSaved⟩ := @save_eq_some s.sources
      { source with metadata := Dict.merge source.metadata call.metadata }
      fun row hRow hRowKey => hStored.only row hRow (hRowKey.trans hStored.key)
    rw [hTaken] at hSaved
    cases hSaved

/-- `ingest_document` keeps the invariant. It fails because of a row that is there only if the call
is not clear or a row cannot be read. -/
theorem wp_ingestDocument (laws : Collisionless pipeline) (h : Sound pipeline s) :
    Tx.wp (ingestDocument pipeline faults call)
      (fun _ s₁ => Later pipeline (Clear pipeline call s) s s₁)
      (Raises pipeline (Clear pipeline call s) s) s := by
  refine Tx.wp_step (wp_ingestDocumentBytes_sound laws h) ?_ fun _ _ hRaised => hRaised
  rintro ⟨source, record⟩ s₁ ⟨hLater, hStored, hValid, hDocId, hRecordSource, hRecord⟩
  obtain ⟨n, -, hId⟩ := hStored.id
  refine Tx.wp_step (wp_saveExtra_sound hLater hStored hValid) ?_ fun _ _ hRaised => hRaised
  rintro _ s₂ ⟨hLater, hDocuments⟩
  rw [Tx.wp_bind, Tx.wp_ofExcept]
  refine ⟨?_, fun failure hExtract => ⟨hLater, fun _ _ => not_blocked_of_extractChunks hExtract⟩⟩
  rintro ⟨document, sections, chunks⟩ hExtract
  obtain ⟨hSections, hChunks⟩ := extractChunks_eq_ok hExtract
  rw [hId] at hSections hChunks hDocId hRecordSource ⊢
  rw [Tx.wp_bind]
  refine wp_replaceRagSections ?_ (fun _ => ⟨hLater, fun _ _ => id⟩) ?_
  rotate_left
  · intro clash hClash
    refine ⟨hLater, fun _ _ hBlocked => ?_⟩
    cases clash with
    | taken =>
      rw [hDocId] at hClash
      exact replaceSections_not_taken laws hLater.sound
        (fun row hRow => (hSections row hRow).2) hClash
    | repeated => cases hBlocked
  intro rows hRows
  have hSound := hLater.sound.replaceSections hRows fun row hRow =>
    ⟨n, row.path, (hSections row hRow).2, (hSections row hRow).1.trans hDocId⟩
  have hLater := hLater.other hSound rfl
  rw [Tx.wp_bind]
  refine wp_replaceRagChunks ?_ (fun _ => ⟨hLater, fun _ _ => id⟩) ?_
  · intro rows hRows
    refine Tx.wp_pure.mpr (hLater.other (hLater.sound.replaceChunks hRows ?_) rfl)
    intro chunk hChunk
    obtain ⟨piece, hPiece, rfl⟩ := mem_map.mp hChunk
    obtain ⟨⟨hSource, hDoc⟩, hChunkId⟩ := hChunks piece hPiece
    refine ⟨⟨record, ?_, hRecordSource.trans hSource.symm, congrArg some hDoc⟩,
      .inl ⟨n, piece.kind, piece.chunkIndex, hSource, ?_⟩⟩
    · rw [hDocuments]
      exact hRecord
    · rw [← hSource] at hChunkId
      exact hChunkId
  · intro clash hClash
    refine ⟨hLater, fun _ _ hBlocked => ?_⟩
    cases clash with
    | taken =>
      refine replaceChunks_not_taken laws hLater.sound ?_ hClash
      intro chunk hChunk
      obtain ⟨piece, hPiece, rfl⟩ := mem_map.mp hChunk
      exact ⟨piece.kind, piece.chunkIndex, (hChunks piece hPiece).2⟩
    | repeated => cases hBlocked

end Ingest

end Glasslab.Corpus
