import Glasslab.Foundation.Indexed
import Glasslab.Foundation.Machine
import Glasslab.Corpus.Chunking

/-!
# Full-text indices of the SQLite store

The chunks of knowledge sources are stored in two tables, `knowledge_chunks` and `rag_chunks`, each
with a full-text table that the store keeps by hand. Both tables are also shortened by the database:
the rows of a source go when the source does.

Replacing chunks removes the entries of the old ones and adds those of the new ones, in both pairs
of tables. Deleting a source removes the entries of its knowledge chunks, but not those of its RAG
chunks. In a run, the full-text tables mirror the tables all the time exactly if no source is
deleted while it has RAG chunks (`consistent_iff`).

The rows have the columns that the full-text tables and the deletions use. `Corpus.RagStore` has
all columns and constraints of these tables, and no full-text table.
-/

namespace Glasslab.FullText

open Foundation Foundation.Machine Corpus List

/-! ## Tables -/

/-- A row of `knowledge_sources`, as far as the other tables and its unique index depend on it. -/
structure KnowledgeSource where
  sourceId : String
  canonicalUri : String
  digest : String

structure KnowledgeChunk where
  chunkId : String
  sourceId : String
  chunkIndex : Nat
  text : List Char
  digest : String
  tokenCount : Nat
  indexVersion : String := "v1"

/-- What the two tables of chunks have in common. -/
class ChunkRow (ρ : Type) where
  chunkId : ρ → String
  sourceId : ρ → String
  text : ρ → List Char

instance : ChunkRow KnowledgeChunk :=
  ⟨KnowledgeChunk.chunkId, KnowledgeChunk.sourceId, KnowledgeChunk.text⟩

instance : ChunkRow RagChunkRecord :=
  ⟨RagChunkRecord.chunkId, RagChunkRecord.sourceId, RagChunkRecord.text⟩

/-- A table of chunks with its full-text table. -/
abbrev ChunkTable (ρ : Type) := Indexed String (List Char) ρ

structure KnowledgeStore where
  sources : List KnowledgeSource := []
  knowledge : ChunkTable KnowledgeChunk := {}
  rag : ChunkTable RagChunkRecord := {}

def KnowledgeStore.sourceIds (s : KnowledgeStore) : List String :=
  s.sources.map KnowledgeSource.sourceId

section Chunks

variable {ρ : Type} [ChunkRow ρ]

def ofSources (sourceIds : List String) (row : ρ) : Bool := ChunkRow.sourceId row ∈ sourceIds

/-- Insert a chunk and its entry. The source of the chunk must exist, and its id must be free. -/
def insertChunk (sourceIds : List String) (t : ChunkTable ρ) (chunk : ρ) : Option (ChunkTable ρ) :=
  if ChunkRow.sourceId chunk ∈ sourceIds then t.insert ChunkRow.chunkId ChunkRow.text chunk
  else none

/-- Remove the chunks of a source with their entries, and insert others. -/
def replaceChunks (sourceIds : List String) (t : ChunkTable ρ) (sourceId : String)
    (chunks : List ρ) : Option (ChunkTable ρ) :=
  let cleared := (t.unindex ChunkRow.chunkId (ofSources [sourceId])).removeRows
    (ofSources [sourceId])
  chunks.foldlM (insertChunk sourceIds) cleared

end Chunks

/-! ## Operations

A transaction that raises is `none`. -/

/-- `save_knowledge_source`: insert, or update the source with this id. No other source may have the
digest and the uri. -/
def saveKnowledgeSource (s : KnowledgeStore) (record : KnowledgeSource) : Option KnowledgeStore :=
  if s.sources.any fun other => other.sourceId ≠ record.sourceId ∧ other.digest = record.digest ∧
      other.canonicalUri = record.canonicalUri then
    none
  else if record.sourceId ∈ s.sourceIds then
    some
      { s with
        sources := s.sources.map fun other =>
          if other.sourceId = record.sourceId then record else other }
  else some { s with sources := s.sources ++ [record] }

def replaceKnowledgeChunks (s : KnowledgeStore) (sourceId : String) (chunks : List KnowledgeChunk) :
    Option KnowledgeStore :=
  (replaceChunks s.sourceIds s.knowledge sourceId chunks).map fun t => { s with knowledge := t }

def replaceRagChunks (s : KnowledgeStore) (sourceId : String) (chunks : List RagChunkRecord) :
    Option KnowledgeStore :=
  (replaceChunks s.sourceIds s.rag sourceId chunks).map fun t => { s with rag := t }

/-- `DELETE FROM knowledge_sources`, with the chunks that refer to what is deleted. -/
def deleteSources (s : KnowledgeStore) (doomed : KnowledgeSource → Bool) : KnowledgeStore :=
  let gone := (s.sources.filter doomed).map KnowledgeSource.sourceId
  { sources := s.sources.filter fun source => !doomed source
    knowledge := s.knowledge.removeRows (ofSources gone)
    rag := s.rag.removeRows (ofSources gone) }

def deleteKnowledgeSource (s : KnowledgeStore) (sourceId : String) : KnowledgeStore :=
  deleteSources
    { s with knowledge := s.knowledge.unindex ChunkRow.chunkId (ofSources [sourceId]) }
    fun source => source.sourceId = sourceId

def KnowledgeStore.idsWithDigest (s : KnowledgeStore) (digest : String) : List String :=
  (s.sources.filter fun source => source.digest = digest).map KnowledgeSource.sourceId

def deleteKnowledgeSourcesByDigest (s : KnowledgeStore) (digest : String) : KnowledgeStore :=
  deleteSources
    { s with
      knowledge := s.knowledge.unindex ChunkRow.chunkId (ofSources (s.idsWithDigest digest)) }
    fun source => source.digest = digest

inductive StoreCall where
  | saveKnowledgeSource (record : KnowledgeSource)
  | replaceKnowledgeChunks (sourceId : String) (chunks : List KnowledgeChunk)
  | replaceRagChunks (sourceId : String) (chunks : List RagChunkRecord)
  | deleteKnowledgeSource (sourceId : String)
  | deleteKnowledgeSourcesByDigest (digest : String)

def step (s : KnowledgeStore) : StoreCall → KnowledgeStore
  | .saveKnowledgeSource record => (saveKnowledgeSource s record).getD s
  | .replaceKnowledgeChunks sourceId chunks => (replaceKnowledgeChunks s sourceId chunks).getD s
  | .replaceRagChunks sourceId chunks => (replaceRagChunks s sourceId chunks).getD s
  | .deleteKnowledgeSource sourceId => deleteKnowledgeSource s sourceId
  | .deleteKnowledgeSourcesByDigest digest => deleteKnowledgeSourcesByDigest s digest

/-- The full-text tables have one entry for every chunk. -/
structure Consistent (s : KnowledgeStore) : Prop where
  knowledge : s.knowledge.Mirrored ChunkRow.chunkId ChunkRow.text
  rag : s.rag.Mirrored ChunkRow.chunkId ChunkRow.text

/-- Every chunk is of a source that exists. -/
structure Linked (s : KnowledgeStore) : Prop where
  knowledge : ∀ row ∈ s.knowledge.rows, row.sourceId ∈ s.sourceIds
  rag : ∀ row ∈ s.rag.rows, row.sourceId ∈ s.sourceIds

section Chunks

variable {ρ : Type} [ChunkRow ρ] {t u : ChunkTable ρ} {sourceIds : List String}

theorem insertChunk_eq_some {chunk : ρ} (h : insertChunk sourceIds t chunk = some u) :
    ChunkRow.sourceId chunk ∈ sourceIds ∧
      t.insert ChunkRow.chunkId ChunkRow.text chunk = some u := by
  unfold insertChunk at h
  split at h
  next hSource => exact ⟨hSource, h⟩
  next => cases h

variable {sourceId : String} {chunks : List ρ}

theorem replaceChunks_invariant {P : ChunkTable ρ → Prop}
    (h : replaceChunks sourceIds t sourceId chunks = some u)
    (hCleared : P ((t.unindex ChunkRow.chunkId (ofSources [sourceId])).removeRows
      (ofSources [sourceId])))
    (hInsert : ∀ t chunk u, P t → insertChunk sourceIds t chunk = some u → P u) : P u := by
  unfold replaceChunks at h
  generalize (t.unindex ChunkRow.chunkId (ofSources [sourceId])).removeRows
    (ofSources [sourceId]) = cleared at h hCleared
  induction chunks generalizing cleared with
  | nil =>
    cases h
    exact hCleared
  | cons chunk rest ih =>
    rw [foldlM_cons, Option.bind_eq_bind, Option.bind_eq_some_iff] at h
    obtain ⟨next, hNext, hRest⟩ := h
    exact ih next hRest (hInsert cleared chunk next hCleared hNext)

theorem mirrored_replaceChunks
    (h : t.Mirrored ChunkRow.chunkId ChunkRow.text)
    (hReplace : replaceChunks sourceIds t sourceId chunks = some u) :
    u.Mirrored ChunkRow.chunkId ChunkRow.text := by
  refine replaceChunks_invariant hReplace (h.unindex_removeRows _) fun t chunk u ht hInsert => ?_
  exact ht.insert (insertChunk_eq_some hInsert).2

theorem linked_replaceChunks
    (h : ∀ row ∈ t.rows, ChunkRow.sourceId row ∈ sourceIds)
    (hReplace : replaceChunks sourceIds t sourceId chunks = some u) :
    ∀ row ∈ u.rows, ChunkRow.sourceId row ∈ sourceIds := by
  refine replaceChunks_invariant (P := fun t => ∀ row ∈ t.rows, ChunkRow.sourceId row ∈ sourceIds)
    hReplace (fun row hRow => h row (mem_filter.mp hRow).1) fun t chunk u ht hInsert => ?_
  obtain ⟨hSource, hInsert⟩ := insertChunk_eq_some hInsert
  obtain ⟨_, rfl⟩ := Indexed.insert_eq_some.mp hInsert
  intro row hRow
  rcases mem_append.mp hRow with hRow | hRow
  · exact ht row hRow
  · rw [mem_singleton.mp hRow]
    exact hSource

end Chunks

theorem sourceIds_deleteSources (s : KnowledgeStore) (doomed : KnowledgeSource → Bool) :
    (deleteSources s doomed).sourceIds =
      (s.sources.filter fun source => !doomed source).map KnowledgeSource.sourceId := rfl

variable {s : KnowledgeStore}

theorem mem_sourceIds_deleteSources {doomed : KnowledgeSource → Bool}
    {id : String} (h : id ∈ s.sourceIds)
    (hKept : id ∉ (s.sources.filter doomed).map KnowledgeSource.sourceId) :
    id ∈ (deleteSources s doomed).sourceIds := by
  obtain ⟨source, hMem, rfl⟩ := mem_map.mp h
  refine mem_map_of_mem (mem_filter.mpr ⟨hMem, ?_⟩)
  have hNot : doomed source ≠ true := fun hDoomed =>
    hKept (mem_map_of_mem (mem_filter.mpr ⟨hMem, hDoomed⟩))
  simpa using hNot

theorem linked_unindex (h : Linked s) (doomed : KnowledgeChunk → Bool) :
    Linked { s with knowledge := s.knowledge.unindex ChunkRow.chunkId doomed } :=
  ⟨h.knowledge, h.rag⟩

theorem linked_deleteSources (h : Linked s)
    (doomed : KnowledgeSource → Bool) : Linked (deleteSources s doomed) := by
  constructor
  · intro row hRow
    obtain ⟨hMem, hKept⟩ := mem_filter.mp hRow
    refine mem_sourceIds_deleteSources (h.knowledge row hMem) ?_
    simpa [ofSources, ChunkRow.sourceId] using hKept
  · intro row hRow
    obtain ⟨hMem, hKept⟩ := mem_filter.mp hRow
    refine mem_sourceIds_deleteSources (h.rag row hMem) ?_
    simpa [ofSources, ChunkRow.sourceId] using hKept

def NoRagChunks (s : KnowledgeStore) (doomed : KnowledgeSource → Bool) : Prop :=
  ∀ row ∈ s.rag.rows, ∀ source ∈ s.sources, doomed source = true →
    row.sourceId ≠ source.sourceId

/-- Where the entries of the knowledge chunks that go are removed, the tables are consistent after
sources were deleted exactly if these had no RAG chunks. -/
theorem consistent_deleteSources_iff (h : Consistent s)
    (doomed : KnowledgeSource → Bool) {sourceIds : List String}
    (hIds : ∀ row ∈ s.knowledge.rows, row.sourceId ∈ sourceIds ↔
      row.sourceId ∈ (s.sources.filter doomed).map KnowledgeSource.sourceId) :
    Consistent (deleteSources
        { s with knowledge := s.knowledge.unindex ChunkRow.chunkId (ofSources sourceIds) }
        doomed) ↔ NoRagChunks s doomed := by
  have hKnowledge : (deleteSources
      { s with knowledge := s.knowledge.unindex ChunkRow.chunkId (ofSources sourceIds) }
      doomed).knowledge =
      (s.knowledge.unindex ChunkRow.chunkId (ofSources sourceIds)).removeRows
        (ofSources sourceIds) := by
    simp only [deleteSources, Indexed.removeRows]
    congr 1
    refine filter_congr fun row hRow => ?_
    have hRow' := hIds row hRow
    simp only [ofSources, ChunkRow.sourceId]
    congr 1
    exact Bool.eq_iff_iff.mpr (by simpa only [decide_eq_true_eq] using hRow'.symm)
  constructor
  · intro hAfter row hRow source hSource hDoomed hSame
    refine Indexed.not_mirrored_removeRows h.rag ⟨row, hRow, ?_⟩ hAfter.rag
    refine decide_eq_true ?_
    change row.sourceId ∈ _
    rw [hSame]
    exact mem_map_of_mem (mem_filter.mpr ⟨hSource, hDoomed⟩)
  · intro hNone
    have hRag : (deleteSources
        { s with knowledge := s.knowledge.unindex ChunkRow.chunkId (ofSources sourceIds) }
        doomed).rag = s.rag := by
      refine Indexed.removeRows_eq_self fun row hRow => decide_eq_false fun hIn => ?_
      obtain ⟨source, hSource, hSame⟩ := mem_map.mp hIn
      obtain ⟨hMem, hDoomed⟩ := mem_filter.mp hSource
      exact hNone row hRow source hMem hDoomed hSame.symm
    constructor
    · rw [hKnowledge]
      exact h.knowledge.unindex_removeRows _
    · rw [hRag]
      exact h.rag

/-! ## Steps -/

def Admits (s : KnowledgeStore) : StoreCall → Prop
  | .deleteKnowledgeSource sourceId => NoRagChunks s fun source => source.sourceId = sourceId
  | .deleteKnowledgeSourcesByDigest digest => NoRagChunks s fun source => source.digest = digest
  | _ => True

theorem sourceIds_saveKnowledgeSource {s s' : KnowledgeStore} {record : KnowledgeSource}
    (h : saveKnowledgeSource s record = some s') :
    (∀ id ∈ s.sourceIds, id ∈ s'.sourceIds) ∧ s'.knowledge = s.knowledge ∧ s'.rag = s.rag := by
  unfold saveKnowledgeSource at h
  split at h
  next => cases h
  next =>
    split at h
    next =>
      cases h
      refine ⟨fun id hId => ?_, rfl, rfl⟩
      obtain ⟨source, hSource, rfl⟩ := mem_map.mp hId
      simp only [KnowledgeStore.sourceIds, map_map, mem_map, Function.comp_apply]
      refine ⟨source, hSource, ?_⟩
      split
      next hSame => exact hSame.symm
      next => rfl
    next =>
      cases h
      refine ⟨fun id hId => ?_, rfl, rfl⟩
      rw [KnowledgeStore.sourceIds, map_append]
      exact mem_append_left _ hId

theorem linked_step (h : Linked s) (call : StoreCall) :
    Linked (step s call) := by
  cases call with
  | saveKnowledgeSource record =>
    simp only [step]
    cases hSave : saveKnowledgeSource s record with
    | none => exact h
    | some s' =>
      obtain ⟨hIds, hKnowledge, hRag⟩ := sourceIds_saveKnowledgeSource hSave
      refine ⟨fun row hRow => hIds _ (h.knowledge row ?_), fun row hRow => hIds _ (h.rag row ?_)⟩
      · exact hKnowledge ▸ hRow
      · exact hRag ▸ hRow
  | replaceKnowledgeChunks sourceId chunks =>
    simp only [step, replaceKnowledgeChunks]
    cases hReplace : replaceChunks s.sourceIds s.knowledge sourceId chunks with
    | none => exact h
    | some t => exact ⟨linked_replaceChunks h.knowledge hReplace, h.rag⟩
  | replaceRagChunks sourceId chunks =>
    simp only [step, replaceRagChunks]
    cases hReplace : replaceChunks s.sourceIds s.rag sourceId chunks with
    | none => exact h
    | some t => exact ⟨h.knowledge, linked_replaceChunks h.rag hReplace⟩
  | deleteKnowledgeSource sourceId =>
    exact linked_deleteSources (linked_unindex h (ofSources [sourceId])) _
  | deleteKnowledgeSourcesByDigest digest =>
    exact linked_deleteSources (linked_unindex h (ofSources (s.idsWithDigest digest))) _

/-- A call keeps the tables consistent exactly if it is admitted. -/
theorem consistent_step_iff (h : Consistent s) (hLinked : Linked s)
    (call : StoreCall) : Consistent (step s call) ↔ Admits s call := by
  cases call with
  | saveKnowledgeSource record =>
    refine iff_of_true ?_ trivial
    simp only [step]
    cases hSave : saveKnowledgeSource s record with
    | none => exact h
    | some s' =>
      obtain ⟨_, hKnowledge, hRag⟩ := sourceIds_saveKnowledgeSource hSave
      exact ⟨hKnowledge ▸ h.knowledge, hRag ▸ h.rag⟩
  | replaceKnowledgeChunks sourceId chunks =>
    refine iff_of_true ?_ trivial
    simp only [step, replaceKnowledgeChunks]
    cases hReplace : replaceChunks s.sourceIds s.knowledge sourceId chunks with
    | none => exact h
    | some t => exact ⟨mirrored_replaceChunks h.knowledge hReplace, h.rag⟩
  | replaceRagChunks sourceId chunks =>
    refine iff_of_true ?_ trivial
    simp only [step, replaceRagChunks]
    cases hReplace : replaceChunks s.sourceIds s.rag sourceId chunks with
    | none => exact h
    | some t => exact ⟨h.knowledge, mirrored_replaceChunks h.rag hReplace⟩
  | deleteKnowledgeSource sourceId =>
    refine consistent_deleteSources_iff h _ fun row hRow => ?_
    -- a chunk with the id refers to a source, which is the one that is deleted
    constructor
    · intro hId
      obtain ⟨source, hSource, hSame⟩ := mem_map.mp (hLinked.knowledge row hRow)
      refine mem_map.mpr ⟨source, mem_filter.mpr ⟨hSource, ?_⟩, hSame⟩
      exact decide_eq_true (hSame.trans (mem_singleton.mp hId))
    · intro hIn
      obtain ⟨source, hSource, hSame⟩ := mem_map.mp hIn
      rw [← hSame, of_decide_eq_true (mem_filter.mp hSource).2]
      exact mem_singleton_self sourceId
  | deleteKnowledgeSourcesByDigest digest =>
    exact consistent_deleteSources_iff h _ fun row _ => Iff.rfl

def SearchesTruly {ρ : Type} [ChunkRow ρ] (t : ChunkTable ρ) : Prop :=
  ∀ matching, ((t.search ChunkRow.chunkId matching).map fun found =>
      ChunkRow.chunkId found.1).Nodup ∧
    ∀ found ∈ t.search ChunkRow.chunkId matching, found.2 = ChunkRow.text found.1

theorem searchesTruly_of_mirrored {ρ : Type} [ChunkRow ρ] {t : ChunkTable ρ}
    (h : t.Mirrored ChunkRow.chunkId ChunkRow.text) : SearchesTruly t := by
  intro matching
  rw [h.search_eq, map_map]
  refine ⟨h.keys.sublist (filter_sublist.map _), fun found hFound => ?_⟩
  obtain ⟨row, _, rfl⟩ := mem_map.mp hFound
  rfl

/-- After every prefix of a sequence of calls the full-text tables have one entry with the id and
the text of every chunk, and searches find every chunk once and by its text, exactly if no call of
the sequence deletes a source that has RAG chunks. -/
theorem consistent_iff (calls : List StoreCall) :
    (∀ before, before <+: calls →
        Consistent (exec step {} before) ∧ SearchesTruly (exec step {} before).knowledge ∧
          SearchesTruly (exec step {} before).rag) ↔
      Along step Admits {} calls := by
  have hStart : Consistent {} ∧ Linked {} :=
    ⟨⟨Indexed.mirrored_empty, Indexed.mirrored_empty⟩, nofun, nofun⟩
  have hStep : ∀ s call, Admits s call → Consistent s ∧ Linked s →
      Consistent (step s call) ∧ Linked (step s call) := by
    intro s call hAdmits ⟨hConsistent, hLinked⟩
    exact ⟨(consistent_step_iff hConsistent hLinked call).mpr hAdmits, linked_step hLinked call⟩
  constructor
  · intro hAlways
    induction calls using List.reverseRecOn with
    | nil => trivial
    | append_singleton calls call ih =>
      have hBefore : Along step Admits {} calls :=
        ih fun before hPrefix => hAlways before (hPrefix.trans (prefix_append _ _))
      obtain ⟨hConsistent, hLinked⟩ := hBefore.invariant hStep hStart
      have hAfter := (hAlways (calls ++ [call]) (prefix_refl _)).1
      rw [exec_append] at hAfter
      exact along_append.mpr
        ⟨hBefore, (consistent_step_iff hConsistent hLinked call).mp hAfter, trivial⟩
  · intro hAlong before hPrefix
    obtain ⟨hConsistent, _⟩ := hAlong.invariant_prefix hStep hStart hPrefix
    exact ⟨hConsistent, searchesTruly_of_mirrored hConsistent.knowledge,
      searchesTruly_of_mirrored hConsistent.rag⟩

def paper : KnowledgeSource := ⟨"source-1", "file:///paper.pdf", "d1"⟩

def paperChunk : RagChunkRecord where
  chunkId := "chunk-1"
  sourceId := "source-1"
  docId := "doc-1"
  sectionId := "section-1"
  kind := .evidenceSpan
  chunkIndex := 0
  text := ['a']
  digest := ""
  tokenCount := 1
  pageStart := none
  pageEnd := none
  charStart := 0
  charEnd := 1
  sectionPath := "1"
  indexVersion := "rag-v1"

def reingest : List StoreCall :=
  [.saveKnowledgeSource paper, .replaceRagChunks "source-1" [paperChunk],
    .deleteKnowledgeSource "source-1", .saveKnowledgeSource paper,
    .replaceRagChunks "source-1" [paperChunk]]

/-- A search then finds its chunk twice. -/
theorem inconsistent_reingest :
    ¬ ∀ before, before <+: reingest →
      Consistent (exec step {} before) ∧ SearchesTruly (exec step {} before).knowledge ∧
        SearchesTruly (exec step {} before).rag := by
  intro h
  have hOnce := ((h reingest (prefix_refl _)).2.2 fun _ => true).1
  have hTwice :
    (((exec step {} reingest).rag.search ChunkRow.chunkId fun _ => true).map fun found =>
      ChunkRow.chunkId found.1) = ["chunk-1", "chunk-1"] := by decide +kernel
  rw [hTwice] at hOnce
  simp at hOnce

end Glasslab.FullText
