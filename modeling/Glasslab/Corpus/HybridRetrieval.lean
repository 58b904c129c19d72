import Glasslab.Corpus.RagStore
import Glasslab.Foundation.Tally

/-!
# Hybrid retrieval

`retrieve` of `app/corpus_rag/retrieval.py`: the channels that the mode asks for give ids, the
chunks of these ids are fetched and ranked by the reciprocals of their ranks, the head of the
ranking may be reranked, chunks are selected with a cap for every source, each selected evidence
span may bring a neighbour from its section, and what fits the token budget is returned.

The full-text search, the vector index, the reranker and the planner are parameters, and so is the
order in which scores of a reranker are sorted. Fused scores are exact rationals.
-/

namespace Glasslab.HybridRetrieval

open Foundation Corpus List

inductive Mode where
  | lexical
  | dense
  | hybrid
  | hybridRerank
  deriving DecidableEq, Repr

structure RetrievalOptions where
  mode : Mode := .hybrid
  kFinal : Int := 8
  candidateK : Int := 40
  expand : Bool := false
  tokenBudget : Int := 3000

def RetrievalOptions.rerank (options : RetrievalOptions) : Bool := options.mode = .hybridRerank

def RetrievalOptions.wantsDense (options : RetrievalOptions) : Bool :=
  options.mode = .dense ∨ options.mode = .hybrid ∨ options.mode = .hybridRerank

structure RetrievedHit (ρ : Type) where
  chunk : ChunkRow
  score : ℚ
  stageScores : List (String × ℚ)
  denseRank : Option Nat := none
  lexicalRank : Option Nat := none
  rerankScore : Option ρ := none

structure Citation where
  chunkId : String
  sourceId : String
  evidenceUri : String
  sectionPath : Option String
  pageStart : Option Nat
  pageEnd : Option Nat
  charSpan : Option (Nat × Nat)
  quote : List Char

structure RetrievalResult (ρ : Type) where
  hits : List (RetrievedHit ρ)
  subqueries : List String
  citations : List Citation

/-- The ids that the two channels give, for every subquery. -/
structure Channels where
  lexical : List (List String)
  dense : List (List String)

structure Reranker (ρ : Type) where
  /-- The scores of some texts, or nothing where it fails. -/
  rerank : (question : String) → (texts : List (List Char)) → Option (List ρ)
  /-- Scores and ids, sorted. -/
  order : List (ρ × String) → List (ρ × String)
  order_perm : ∀ head, (order head).Perm head

structure HybridRetriever (ρ : Type) where
  chunks : KeyedTable ChunkRow.chunkId
  /-- `search_rag_chunks_fts`. -/
  searchFts : (query : String) → (scope : Option (List String)) → (limit : Int) → List String
  /-- `embed_queries` and a search for every row of the matrix. -/
  vectorIndex : Option ((queries : List String) → (scope : Option (List String)) → (limit : Int) →
    List (List String))
  reranker : Option (Reranker ρ)
  /-- The subqueries of `build_query_plan`. -/
  plan : String → List String
  /-- `str.isdigit` of one character. -/
  isDigit : Char → Bool

def rrfK : Nat := 60

def maxChunksPerSource : Nat := 3

def rerankTopN : Nat := 24

/-- `_is_index_like`. -/
def isIndexLike (isDigit : Char → Bool) (text : List Char) : Bool :=
  200 ≤ text.length ∧ 15 / 100 ≤ (text.countP isDigit / text.length : ℚ) ∧
    8 / 100 ≤ (text.count ',' / text.length : ℚ)

/-- Keep the better of two ranks of one id. -/
def recordRank (ranks : List (String × Nat)) (hit : String × Nat) : List (String × Nat) :=
  match ranks.lookup hit.1 with
  | none => Dict.set hit.1 hit.2 ranks
  | some known => if hit.2 < known then Dict.set hit.1 hit.2 ranks else ranks

def channelRanks (channels : List (List String)) : List (String × Nat) :=
  channels.foldl (fun ranks channel => (channel.zipIdx 1).foldl recordRank ranks) []

namespace Channels

variable (channels : Channels)

def lexicalRank (chunkId : String) : Option Nat := (channelRanks channels.lexical).lookup chunkId

def denseRank (chunkId : String) : Option Nat := (channelRanks channels.dense).lookup chunkId

def referenced : List String := channels.lexical.flatten ++ channels.dense.flatten

def relevant (mode : Mode) (chunkId : String) : Bool :=
  (mode ≠ .dense ∧ (channels.lexicalRank chunkId).isSome) ∨
    (mode ≠ .lexical ∧ (channels.denseRank chunkId).isSome)

def reciprocal (rank : Option Nat) : ℚ :=
  match rank with
  | none => 0
  | some rank => 1 / (rrfK + rank)

def fused (chunkId : String) : ℚ :=
  reciprocal (channels.lexicalRank chunkId) + reciprocal (channels.denseRank chunkId)

end Channels

def rowOf (table : List ChunkRow) (chunkId : String) : Option ChunkRow :=
  table.find? fun chunk => chunk.chunkId = chunkId

/-- At most so many chunks of one source, until there are enough. -/
def diversify (kFinal : Int) : (perSource : List (String × Nat)) → (selected : Nat) →
    List ChunkRow → List ChunkRow
  | _, _, [] => []
  | perSource, selected, chunk :: ranked =>
    if maxChunksPerSource ≤ Dict.count perSource chunk.sourceId then
      diversify kFinal perSource selected ranked
    else
      chunk :: if kFinal ≤ selected + 1 then []
        else diversify kFinal (Dict.bump perSource chunk.sourceId) (selected + 1) ranked

def neighbor (table : List ChunkRow) (chosen : List String) (anchor : ChunkRow) : Option ChunkRow :=
  if anchor.kind ≠ .evidenceSpan ∨ anchor.sectionPath = none then none
  else
    (sortOn (fun record => toLex
        (((record.chunkIndex : Int) - anchor.chunkIndex).natAbs, record.chunkIndex))
      (table.filter fun record => record.chunkId ∉ chosen ∧ record.sourceId = anchor.sourceId ∧
        record.kind = .evidenceSpan ∧ record.sectionPath = anchor.sectionPath)).head?

def neighbors (table : List ChunkRow) : (chosen : List String) → List ChunkRow → List ChunkRow
  | _, [] => []
  | chosen, anchor :: selected =>
    match neighbor table chosen anchor with
    | none => neighbors table chosen selected
    | some record => record :: neighbors table (record.chunkId :: chosen) selected

/-- The entries that fit, where something is used already. -/
def admission (tokenBudget : Int) : (cumulative : Int) → List ChunkRow → List ChunkRow
  | _, [] => []
  | cumulative, record :: records =>
    let cost : Int := estimateTokens record.text
    if tokenBudget < cumulative + cost then admission tokenBudget cumulative records
    else record :: admission tokenBudget (cumulative + cost) records

def citationFor (record : ChunkRow) : Citation where
  chunkId := record.chunkId
  sourceId := record.sourceId
  evidenceUri := "knowledge://" ++ record.sourceId
  sectionPath := record.sectionPath
  pageStart := record.pageStart
  pageEnd := record.pageEnd
  charSpan := record.charStart.bind fun start => record.charEnd.map fun stop => (start, stop)
  quote := record.text.take 240

namespace HybridRetriever

variable {ρ : Type} (retriever : HybridRetriever ρ) (question : String) (sourceIds : List String)
  (options : RetrievalOptions)

def scope (sourceIds : List String) : Option (List String) :=
  if sourceIds = [] then none else some sourceIds

def subqueries : List String :=
  let planned := retriever.plan question
  if planned = [] then [question] else planned

def channels : Channels where
  lexical := (retriever.subqueries question).map fun subquery =>
    retriever.searchFts subquery (scope sourceIds) options.candidateK
  dense :=
    match retriever.vectorIndex with
    | none => []
    | some search =>
      if options.wantsDense then
        search (retriever.subqueries question) (scope sourceIds) options.candidateK
      else []

/-- `get_rag_chunks`, without the chunks out of scope and those that look like an index. -/
def hydrate (channels : Channels) : List ChunkRow :=
  retriever.chunks.rows.filter fun chunk => chunk.chunkId ∈ channels.referenced ∧
    (scope sourceIds).all (fun scope => chunk.sourceId ∈ scope) ∧
      isIndexLike retriever.isDigit chunk.text = false

/-- The candidates, ranked by their fused scores. -/
def fuse (channels : Channels) (mode : Mode) (table : List ChunkRow) : List String :=
  sortOn (fun chunkId => toLex (-channels.fused chunkId, chunkId))
    (sortOn id ((table.map ChunkRow.chunkId).filter (channels.relevant mode)))

def rerankHead (table : List ChunkRow) (ranked : List String) : List String × List (String × ρ) :=
  match if options.rerank ∧ ranked ≠ [] then retriever.reranker else none with
  | none => (ranked, [])
  | some reranker =>
    let head := ranked.take rerankTopN
    match reranker.rerank question (head.filterMap fun chunkId => (rowOf table chunkId).map
        ChunkRow.text) with
    | none => (ranked, [])
    | some scores =>
      if scores.length = head.length then
        ((reranker.order (scores.zip head)).map Prod.snd ++ ranked.drop rerankTopN, head.zip scores)
      else (ranked, [])

def table : List ChunkRow :=
  retriever.hydrate sourceIds (retriever.channels question sourceIds options)

/-- The chunks in the order in which they are considered, with the scores of the reranker. -/
def ranking : List ChunkRow × List (String × ρ) :=
  let table := retriever.table question sourceIds options
  let ranked := retriever.rerankHead question options table
    (fuse (retriever.channels question sourceIds options) options.mode table)
  (ranked.1.filterMap (rowOf table), ranked.2)

def selected : List ChunkRow :=
  diversify options.kFinal [] 0 (retriever.ranking question sourceIds options).1

def listRagChunks (sourceIds : List String) : List ChunkRow :=
  sortOn (fun chunk => toLex (chunk.sourceId, chunk.chunkIndex))
    (retriever.chunks.rows.filter fun chunk => sourceIds = [] ∨ chunk.sourceId ∈ sourceIds)

def withSiblings (table selected : List ChunkRow) : List ChunkRow :=
  table ++ (retriever.listRagChunks (selected.map ChunkRow.sourceId)).filter fun chunk =>
    chunk.chunkId ∉ table.map ChunkRow.chunkId ∧ isIndexLike retriever.isDigit chunk.text = false

def extras : List ChunkRow :=
  let selected := retriever.selected question sourceIds options
  if options.expand then
    neighbors (retriever.withSiblings (retriever.table question sourceIds options) selected)
      (selected.map ChunkRow.chunkId) selected
  else []

def hitOf (record : ChunkRow) : RetrievedHit ρ :=
  let channels := retriever.channels question sourceIds options
  if record.chunkId ∈ (retriever.extras question sourceIds options).map ChunkRow.chunkId then
    { chunk := record, score := 0, stageScores := [("expanded", 1)] }
  else
    { chunk := record
      score := channels.fused record.chunkId
      stageScores := [("rrf", channels.fused record.chunkId)]
      lexicalRank := channels.lexicalRank record.chunkId
      denseRank := channels.denseRank record.chunkId
      rerankScore := (retriever.ranking question sourceIds options).2.lookup record.chunkId }

def admitted : List ChunkRow :=
  admission options.tokenBudget 0 (retriever.selected question sourceIds options ++
    retriever.extras question sourceIds options)

def retrieve : RetrievalResult ρ where
  hits := (retriever.admitted question sourceIds options).map
    (retriever.hitOf question sourceIds options)
  subqueries := retriever.subqueries question
  citations := (retriever.admitted question sourceIds options).map citationFor

end HybridRetriever

/-! ## Ranked chunks -/

section Ranked

variable {table ranked records : List ChunkRow} {ids chosen : List String} {chunk record : ChunkRow}
  {kFinal tokenBudget cumulative : Int} {perSource : List (String × Nat)} {count : Nat}

theorem chunkId_of_rowOf {chunkId : String} (h : rowOf table chunkId = some chunk) :
    chunk ∈ table ∧ chunk.chunkId = chunkId :=
  ⟨mem_of_find?_eq_some h, by simpa using List.find?_some h⟩

theorem chunkIds_filterMap_rowOf (ids : List String) :
    ((ids.filterMap (rowOf table)).map ChunkRow.chunkId).Sublist ids := by
  induction ids with
  | nil => exact Sublist.refl _
  | cons chunkId ids ih =>
    rw [filterMap_cons]
    cases hRow : rowOf table chunkId with
    | none => exact ih.cons _
    | some chunk =>
      rw [map_cons, (chunkId_of_rowOf hRow).2]
      exact ih.cons_cons _

theorem diversify_sublist : (diversify kFinal perSource count ranked).Sublist ranked := by
  induction ranked generalizing perSource count with
  | nil => exact Sublist.refl _
  | cons chunk ranked ih =>
    rw [diversify]
    split
    · exact ih.cons _
    · apply Sublist.cons_cons
      split
      · exact nil_sublist _
      · exact ih

theorem countP_diversify (source : String) :
    (diversify kFinal perSource count ranked).countP (fun chunk => chunk.sourceId = source) ≤
      maxChunksPerSource - Dict.count perSource source := by
  induction ranked generalizing perSource count with
  | nil => simp [diversify]
  | cons chunk ranked ih =>
    rw [diversify]
    split
    · exact ih
    next hFree =>
      have hRest : (if kFinal ≤ count + 1 then []
          else diversify kFinal (Dict.bump perSource chunk.sourceId) (count + 1) ranked).countP
            (fun chunk => chunk.sourceId = source) ≤
          maxChunksPerSource - Dict.count (Dict.bump perSource chunk.sourceId) source := by
        split
        · exact Nat.zero_le _
        · exact ih
      generalize (if kFinal ≤ (count : Int) + 1 then [] else _) = rest at hRest ⊢
      rw [Dict.count_bump] at hRest
      rw [countP_cons]
      by_cases hSource : source = chunk.sourceId
      · subst hSource
        simp only [decide_true, if_true] at hRest ⊢
        omega
      · rw [if_neg (by simpa using Ne.symm hSource)]
        omega

/-- As many as are asked for, but one more is taken before the number is looked at. -/
theorem length_diversify : ((diversify kFinal perSource count ranked).length : Int) ≤
    max 1 (kFinal - count) := by
  induction ranked generalizing perSource count with
  | nil => simp [diversify]
  | cons chunk ranked ih =>
    rw [diversify]
    split
    · exact ih
    · rw [length_cons]
      split
      · simp
      next hMore =>
        have hRest := @ih (Dict.bump perSource chunk.sourceId) (count + 1)
        omega

/-- Where nothing has been counted the best chunk is selected. -/
theorem head?_diversify : (diversify kFinal [] 0 ranked).head? = ranked.head? := by
  cases ranked with
  | nil => rfl
  | cons chunk ranked => rfl

theorem neighbor_eq_some (h : neighbor table chosen chunk = some record) :
    record ∈ table ∧ record.chunkId ∉ chosen ∧ record.sourceId = chunk.sourceId ∧
      record.kind = .evidenceSpan ∧ chunk.kind = .evidenceSpan ∧
      chunk.sectionPath ≠ none ∧ record.sectionPath = chunk.sectionPath := by
  rw [neighbor] at h
  split at h
  · cases h
  next hAnchor =>
    push Not at hAnchor
    have hMem := mem_of_head? h
    rw [mem_sortOn, mem_filter, decide_eq_true_iff] at hMem
    obtain ⟨hTable, hChosen, hSource, hKind, hSection⟩ := hMem
    exact ⟨hTable, hChosen, hSource, hKind, hAnchor.1, hAnchor.2, hSection⟩

/-- The record is a neighbour of a selected chunk. -/
structure SiblingOf (record anchor : ChunkRow) : Prop where
  kind : record.kind = .evidenceSpan
  source : record.sourceId = anchor.sourceId
  path : record.sectionPath = anchor.sectionPath
  anchored : anchor.kind = .evidenceSpan ∧ anchor.sectionPath ≠ none

theorem mem_neighbors (h : record ∈ neighbors table chosen ranked) :
    record ∈ table ∧ record.chunkId ∉ chosen ∧ ∃ anchor ∈ ranked, SiblingOf record anchor := by
  induction ranked generalizing chosen with
  | nil => cases h
  | cons chunk ranked ih =>
    rw [neighbors] at h
    split at h
    next =>
      obtain ⟨hTable, hChosen, anchor, hAnchor, hSibling⟩ := ih h
      exact ⟨hTable, hChosen, anchor, mem_cons_of_mem _ hAnchor, hSibling⟩
    next found hFound =>
      rcases mem_cons.mp h with rfl | hRest
      · obtain ⟨hTable, hChosen, hSource, hKind, hAnchor, hPath, hSection⟩ :=
          neighbor_eq_some hFound
        exact ⟨hTable, hChosen, chunk, mem_cons_self, hKind, hSource, hSection, hAnchor, hPath⟩
      · obtain ⟨hTable, hChosen, anchor, hAnchor, hSibling⟩ := ih hRest
        refine ⟨hTable, ?_, anchor, mem_cons_of_mem _ hAnchor, hSibling⟩
        exact fun hMem => hChosen (mem_cons_of_mem _ hMem)

theorem nodup_neighbors : ((neighbors table chosen ranked).map ChunkRow.chunkId).Nodup := by
  induction ranked generalizing chosen with
  | nil => exact nodup_nil
  | cons chunk ranked ih =>
    rw [neighbors]
    split
    · exact ih
    · rw [map_cons, nodup_cons]
      refine ⟨fun hMem => ?_, ih⟩
      obtain ⟨record, hRecord, hId⟩ := mem_map.mp hMem
      exact (mem_neighbors hRecord).2.1 (hId ▸ mem_cons_self)

theorem admission_sublist : (admission tokenBudget cumulative records).Sublist records := by
  induction records generalizing cumulative with
  | nil => exact Sublist.refl _
  | cons record records ih =>
    rw [admission]
    split
    · exact ih.cons _
    · exact ih.cons_cons _

def totalTokens (records : List ChunkRow) : Nat :=
  (records.map fun record => estimateTokens record.text).sum

theorem totalTokens_admission (hUsed : cumulative ≤ tokenBudget) :
    cumulative + totalTokens (admission tokenBudget cumulative records) ≤ tokenBudget := by
  induction records generalizing cumulative with
  | nil => simpa [admission, totalTokens] using hUsed
  | cons record records ih =>
    rw [admission]
    split
    · exact ih hUsed
    next hFits =>
      have hRest := ih (Int.not_lt.mp hFits)
      simp only [totalTokens, map_cons, sum_cons, Nat.cast_add] at hRest ⊢
      omega

theorem admission_append (more : List ChunkRow) :
    admission tokenBudget cumulative (records ++ more) =
    admission tokenBudget cumulative records ++ admission tokenBudget
      (cumulative + totalTokens (admission tokenBudget cumulative records)) more := by
  induction records generalizing cumulative with
  | nil => simp [admission, totalTokens]
  | cons record records ih =>
    rw [cons_append, admission, admission]
    split
    · exact ih
    · rw [ih, cons_append]
      simp [totalTokens, add_assoc]

end Ranked

/-! ## The contract of a retrieval -/

def RetrievedHit.expanded {ρ : Type} (hit : RetrievedHit ρ) : Bool :=
  hit.stageScores.any fun stage => stage.1 = "expanded"

namespace HybridRetriever

variable {ρ : Type} {retriever : HybridRetriever ρ} {question : String} {sourceIds : List String}
  {options : RetrievalOptions} {record : ChunkRow}

theorem nodup_table : ((retriever.table question sourceIds options).map ChunkRow.chunkId).Nodup :=
  (filter_sublist.map _).nodup retriever.chunks.ids

theorem nodup_fuse (channels : Channels) (mode : Mode) {table : List ChunkRow}
    (hTable : (table.map ChunkRow.chunkId).Nodup) : (fuse channels mode table).Nodup := by
  unfold fuse
  rw [(perm_sortOn _ _).nodup_iff, (perm_sortOn _ _).nodup_iff]
  exact hTable.filter _

/-- Reranking, with whatever scores, loses and doubles nothing. -/
theorem perm_rerankHead (table : List ChunkRow) (ranked : List String) :
    (retriever.rerankHead question options table ranked).1.Perm ranked := by
  unfold rerankHead
  split
  · exact Perm.refl _
  next reranker _ =>
    dsimp only
    split
    · exact Perm.refl _
    next scores _ =>
      split
      next hLength =>
        have hOrder := (reranker.order_perm (scores.zip (ranked.take rerankTopN))).map Prod.snd
        rw [map_snd_zip hLength.ge] at hOrder
        have hAll := hOrder.append_right (ranked.drop rerankTopN)
        rwa [take_append_drop] at hAll
      next => exact Perm.refl _

theorem nodup_ranking :
    ((retriever.ranking question sourceIds options).1.map ChunkRow.chunkId).Nodup := by
  refine (chunkIds_filterMap_rowOf _).nodup ?_
  rw [(perm_rerankHead _ _).nodup_iff]
  exact nodup_fuse _ _ nodup_table

theorem mem_table_of_mem_selected (h : record ∈ retriever.selected question sourceIds options) :
    record ∈ retriever.table question sourceIds options := by
  have hRanking := diversify_sublist.subset h
  obtain ⟨chunkId, -, hRow⟩ := mem_filterMap.mp hRanking
  exact (chunkId_of_rowOf hRow).1

theorem mem_extras (h : record ∈ retriever.extras question sourceIds options) :
    record.chunkId ∉ (retriever.selected question sourceIds options).map ChunkRow.chunkId ∧
      ∃ anchor ∈ retriever.selected question sourceIds options, SiblingOf record anchor := by
  unfold extras at h
  split at h
  · exact (mem_neighbors h).2
  · cases h

theorem nodup_entries : ((retriever.selected question sourceIds options ++
    retriever.extras question sourceIds options).map ChunkRow.chunkId).Nodup := by
  rw [map_append, nodup_append]
  refine ⟨(diversify_sublist.map _).nodup nodup_ranking, ?_, ?_⟩
  · unfold extras
    split
    · exact nodup_neighbors
    · exact nodup_nil
  · intro chunkId hSelected other hExtra hSame
    subst hSame
    obtain ⟨record, hRecord, rfl⟩ := mem_map.mp hExtra
    exact (mem_extras hRecord).1 hSelected

theorem expanded_hitOf : (retriever.hitOf question sourceIds options record).expanded =
    decide (record.chunkId ∈
      (retriever.extras question sourceIds options).map ChunkRow.chunkId) := by
  unfold hitOf
  split
  next h => simp [RetrievedHit.expanded, h]
  next h => simp [RetrievedHit.expanded, h]

theorem chunk_hitOf : (retriever.hitOf question sourceIds options record).chunk = record := by
  unfold hitOf
  split <;> rfl

theorem countP_hits (p : ChunkRow → Bool) :
    (retriever.retrieve question sourceIds options).hits.countP
        (fun hit => hit.expanded = false ∧ p hit.chunk = true) =
      (admission options.tokenBudget 0
        (retriever.selected question sourceIds options)).countP p := by
  rw [retrieve, admitted, admission_append, map_append, countP_append, countP_map,
    countP_map]
  have hExtras (cumulative : Int) : (admission options.tokenBudget cumulative
      (retriever.extras question sourceIds options)).countP ((fun hit => hit.expanded = false ∧
        p hit.chunk = true) ∘ retriever.hitOf question sourceIds options) = 0 := by
    refine countP_eq_zero.mpr fun record hRecord => ?_
    have hMem := mem_map_of_mem (f := ChunkRow.chunkId) (admission_sublist.subset hRecord)
    simp [expanded_hitOf, hMem]
  rw [hExtras, Nat.add_zero]
  refine countP_congr fun record hRecord => ?_
  have hOwn :
      record.chunkId ∉ (retriever.extras question sourceIds options).map ChunkRow.chunkId := by
    intro hMem
    obtain ⟨extra, hExtra, hId⟩ := mem_map.mp hMem
    exact (mem_extras hExtra).1 (hId ▸ mem_map_of_mem (admission_sublist.subset hRecord))
  simp [expanded_hitOf, chunk_hitOf, hOwn]

structure Contract (retriever : HybridRetriever ρ) (question : String) (sourceIds : List String)
    (options : RetrievalOptions) (result : RetrievalResult ρ) : Prop where
  distinct : (result.hits.map fun hit => hit.chunk.chunkId).Nodup
  inScope : sourceIds ≠ [] → ∀ hit ∈ result.hits, hit.chunk.sourceId ∈ sourceIds
  atMost : (result.hits.countP (fun hit => hit.expanded = false) : Int) ≤ options.kFinal
  capped : ∀ source, result.hits.countP (fun hit => hit.expanded = false ∧
    hit.chunk.sourceId = source) ≤ maxChunksPerSource
  siblings : ∀ hit ∈ result.hits, hit.expanded = true →
    ∃ anchor ∈ retriever.selected question sourceIds options, SiblingOf hit.chunk anchor
  withinBudget : (totalTokens (result.hits.map RetrievedHit.chunk) : Int) ≤ options.tokenBudget
  aligned : result.citations = result.hits.map fun hit => citationFor hit.chunk

/-- The options ask for a number of chunks and of tokens, and if they ask for no chunk then the best
one is missing or too large. -/
structure Allows (retriever : HybridRetriever ρ) (question : String) (sourceIds : List String)
    (options : RetrievalOptions) : Prop where
  tokenBudget : 0 ≤ options.tokenBudget
  kFinal : 0 ≤ options.kFinal
  best : options.kFinal = 0 → ∀ best ∈ (retriever.ranking question sourceIds options).1.head?,
    options.tokenBudget < estimateTokens best.text

theorem chunks_hits : (retriever.retrieve question sourceIds options).hits.map RetrievedHit.chunk =
    retriever.admitted question sourceIds options := by
  unfold retrieve
  rw [map_map]
  exact map_id'' (fun record => chunk_hitOf) _

variable {hit : RetrievedHit ρ}

theorem mem_entries_of_mem_hits
    (h : hit ∈ (retriever.retrieve question sourceIds options).hits) :
    hit = retriever.hitOf question sourceIds options hit.chunk ∧
      (hit.chunk ∈ retriever.selected question sourceIds options ∨
        hit.chunk ∈ retriever.extras question sourceIds options) := by
  obtain ⟨record, hRecord, rfl⟩ := mem_map.mp h
  rw [chunk_hitOf]
  exact ⟨rfl, mem_append.mp (admission_sublist.subset hRecord)⟩

theorem mem_scope (hScope : sourceIds ≠ [])
    (h : record ∈ retriever.selected question sourceIds options) : record.sourceId ∈ sourceIds := by
  have hTable := (mem_filter.mp (mem_table_of_mem_selected h)).2
  have hAll := (of_decide_eq_true hTable).2.1
  rw [scope, if_neg hScope, Option.all_some] at hAll
  exact of_decide_eq_true hAll

theorem countP_own : (retriever.retrieve question sourceIds options).hits.countP
    (fun hit => hit.expanded = false) = (admission options.tokenBudget 0
      (retriever.selected question sourceIds options)).length := by
  have hCount := @countP_hits _ retriever question sourceIds options fun _ => true
  simpa using hCount

/-- Without a number of chunks to return the best chunk is returned nevertheless, if it fits. -/
theorem countP_hits_of_kFinal (hZero : options.kFinal = 0) :
    (retriever.retrieve question sourceIds options).hits.countP
        (fun hit => hit.expanded = false) = 0 ↔
      ∀ best ∈ (retriever.ranking question sourceIds options).1.head?,
        options.tokenBudget < estimateTokens best.text := by
  have hLength :=
    @length_diversify (retriever.ranking question sourceIds options).1 options.kFinal [] 0
  rw [countP_own, ← @head?_diversify _ options.kFinal]
  rw [← selected] at hLength ⊢
  cases hList : retriever.selected question sourceIds options with
  | nil => simp [admission]
  | cons best rest =>
    rw [hList, length_cons] at hLength
    obtain rfl : rest = [] := length_eq_zero_iff.mp (by omega)
    rw [admission, Int.zero_add]
    split
    next hLarge => simpa [admission] using hLarge
    next hFits => simpa using hFits

theorem inScope_hits (hScope : sourceIds ≠ [])
    (hHit : hit ∈ (retriever.retrieve question sourceIds options).hits) :
    hit.chunk.sourceId ∈ sourceIds := by
  obtain ⟨-, hSelected | hExtra⟩ := mem_entries_of_mem_hits hHit
  · exact mem_scope hScope hSelected
  · obtain ⟨-, anchor, hAnchor, hSibling⟩ := mem_extras hExtra
    rw [hSibling.source]
    exact mem_scope hScope hAnchor

theorem exists_anchor
    (hHit : hit ∈ (retriever.retrieve question sourceIds options).hits)
    (hExpanded : hit.expanded = true) :
    ∃ anchor ∈ retriever.selected question sourceIds options, SiblingOf hit.chunk anchor := by
  obtain ⟨hEq, hEntry⟩ := mem_entries_of_mem_hits hHit
  rw [hEq, expanded_hitOf] at hExpanded
  obtain ⟨extra, hExtra, hId⟩ := mem_map.mp (of_decide_eq_true hExpanded)
  rcases hEntry with hSelected | hHere
  · exact absurd (hId ▸ mem_map_of_mem hSelected) (mem_extras hExtra).1
  · exact (mem_extras hHere).2

/-- A retrieval keeps its contract exactly if it may be asked for what its options ask for. -/
theorem contract_iff : Contract retriever question sourceIds options
    (retriever.retrieve question sourceIds options) ↔
      Allows retriever question sourceIds options := by
  have hTokens : (retriever.retrieve question sourceIds options).hits.map RetrievedHit.chunk =
    retriever.admitted question sourceIds options := chunks_hits
  constructor
  · intro h
    have hBudget := h.withinBudget
    have hCount := h.atMost
    refine ⟨by omega, by omega, fun hZero => ?_⟩
    rw [← countP_hits_of_kFinal hZero]
    omega
  · intro h
    refine ⟨?_, fun hScope hit => inScope_hits hScope, ?_, fun source => ?_,
      fun hit => exists_anchor,
      ?_, ?_⟩
    · have hIds : ((retriever.admitted question sourceIds options).map ChunkRow.chunkId).Nodup :=
        (admission_sublist.map _).nodup nodup_entries
      rwa [← hTokens, map_map] at hIds
    · rcases Int.lt_or_eq_of_le h.kFinal with hPos | hZero
      · have hLength := @length_diversify (retriever.ranking question sourceIds options).1
          options.kFinal [] 0
        have hAdmitted := (@admission_sublist (retriever.selected question sourceIds options)
          options.tokenBudget 0).length_le
        rw [← selected] at hLength
        rw [countP_own]
        omega
      · have hNone := (countP_hits_of_kFinal hZero.symm).mpr (h.best hZero.symm)
        omega
    · have hCount := @countP_hits _ retriever question sourceIds options
        fun record => record.sourceId = source
      simp only [decide_eq_true_eq] at hCount
      rw [hCount]
      exact admission_sublist.countP_le.trans (countP_diversify source)
    · have hTotal := @totalTokens_admission (retriever.selected question sourceIds options ++
        retriever.extras question sourceIds options) options.tokenBudget 0 h.tokenBudget
      rwa [Int.zero_add, ← admitted, ← hTokens] at hTotal
    · have hMap : (retriever.admitted question sourceIds options).map citationFor =
          (retriever.retrieve question sourceIds options).citations := rfl
      rw [← hMap, ← hTokens, map_map]
      rfl

end HybridRetriever

def spanRow : ChunkRow where
  chunkId := "chunk-1"
  sourceId := "source-1"
  docId := none
  kind := .evidenceSpan
  chunkIndex := 0
  text := "Cross-validation estimates the error of a model.".toList
  digest := "digest-1"
  tokenCount := 16
  indexVersion := "rag-v1"

/-- A store with one chunk, which the full-text search finds. -/
def oneChunk : HybridRetriever ℚ where
  chunks := ⟨[spanRow], List.nodup_singleton _⟩
  searchFts _ _ _ := ["chunk-1"]
  vectorIndex := none
  reranker := none
  plan _ := []
  isDigit c := c.isDigit

theorem chunk_not_asked_for : ¬HybridRetriever.Contract oneChunk "What is cross-validation?" []
    { mode := .lexical, kFinal := 0 }
    (oneChunk.retrieve "What is cross-validation?" [] { mode := .lexical, kFinal := 0 }) := by
  intro h
  have hCount := h.atMost
  have hOne : (oneChunk.retrieve "What is cross-validation?" []
      { mode := .lexical, kFinal := 0 }).hits.countP (fun hit => hit.expanded = false) = 1 := by
    decide +kernel
  rw [hOne] at hCount
  revert hCount
  decide

end Glasslab.HybridRetrieval
