import Glasslab.Corpus.HybridRetrieval
import Mathlib.Data.Fintype.EquivFin

/-!
# The dense mode

In the dense mode the lexical channel gives no candidates, but it is queried all the same: the rank
it gives to a candidate is part of the fused score and is reported with the hit, and the ids that it
gives decide in which order the chunks of a section are looked at when a neighbour is chosen. Two
full-text searches lead to the same hits where they rank the candidates alike, and agree about
chunks that share their place in a section from which neighbours are taken (`denseIgnoresLexical`).
-/

namespace Glasslab.HybridRetrieval

open Foundation Corpus List

section Ranks

variable {ranks hits : List (String × Nat)} {channels : List (List String)} {chunkId : String}

theorem isSome_lookup_recordRank {hit : String × Nat} :
    ((recordRank ranks hit).lookup chunkId).isSome ↔
      (ranks.lookup chunkId).isSome ∨ chunkId = hit.1 := by
  have hSet : ((Dict.set hit.1 hit.2 ranks).lookup chunkId).isSome ↔
      (ranks.lookup chunkId).isSome ∨ chunkId = hit.1 := by
    rw [Dict.lookup_set]
    split
    next hEq => simp [hEq]
    next hNe => simp [hNe]
  rw [recordRank]
  split
  · exact hSet
  next known hKnown =>
    split
    · exact hSet
    · refine (or_iff_left_of_imp fun hEq => ?_).symm
      rw [hEq, hKnown]
      rfl

theorem isSome_lookup_foldl : ((hits.foldl recordRank ranks).lookup chunkId).isSome ↔
    (ranks.lookup chunkId).isSome ∨ chunkId ∈ hits.map Prod.fst := by
  induction hits generalizing ranks with
  | nil => simp
  | cons hit hits ih =>
    rw [foldl_cons, ih, isSome_lookup_recordRank, map_cons, mem_cons, or_assoc]

theorem isSome_lookup_channelRanks :
    ((channelRanks channels).lookup chunkId).isSome ↔ chunkId ∈ channels.flatten := by
  have hAll (ranks : List (String × Nat)) : ((channels.foldl (fun ranks channel =>
      (channel.zipIdx 1).foldl recordRank ranks) ranks).lookup chunkId).isSome ↔
        (ranks.lookup chunkId).isSome ∨ chunkId ∈ channels.flatten := by
    induction channels generalizing ranks with
    | nil => simp
    | cons channel channels ih =>
      rw [foldl_cons, ih, isSome_lookup_foldl, zipIdx_map_fst, flatten_cons,
        mem_append, or_assoc]
  rw [channelRanks, hAll]
  simp

end Ranks

namespace HybridRetriever

variable {ρ : Type} {retriever : HybridRetriever ρ} {question : String} {sourceIds : List String}
  {options : RetrievalOptions} {record : ChunkRow}
  {searchFts' : String → Option (List String) → Int → List String}

theorem ranking_of_dense (hMode : options.mode = .dense) :
    retriever.ranking question sourceIds options =
      ((fuse (retriever.channels question sourceIds options) .dense
        (retriever.table question sourceIds options)).filterMap
          (rowOf (retriever.table question sourceIds options)), []) := by
  simp [ranking, rerankHead, RetrievalOptions.rerank, hMode]

theorem relevant_dense (channels : Channels) (chunkId : String) :
    channels.relevant .dense chunkId = true ↔ chunkId ∈ channels.dense.flatten := by
  rw [← isSome_lookup_channelRanks, Channels.relevant, decide_eq_true_iff]
  simp [Channels.denseRank]

variable {table selected : List ChunkRow}

theorem mem_dense_of_mem_fuse {channels : Channels} {chunkId : String}
    (h : chunkId ∈ fuse channels .dense table) : chunkId ∈ channels.dense.flatten := by
  rw [fuse, mem_sortOn, mem_sortOn, mem_filter, relevant_dense] at h
  exact h.2

theorem mem_dense_of_mem_selected (hMode : options.mode = .dense)
    (h : record ∈ retriever.selected question sourceIds options) :
    record.chunkId ∈ (retriever.channels question sourceIds options).dense.flatten := by
  have hRanking := diversify_sublist.subset h
  rw [ranking_of_dense hMode] at hRanking
  obtain ⟨chunkId, hFuse, hRow⟩ := mem_filterMap.mp hRanking
  rw [(chunkId_of_rowOf hRow).2]
  exact mem_dense_of_mem_fuse hFuse

/-- The chunks that the dense channel gives: the candidates of the dense mode. -/
def denseTable (retriever : HybridRetriever ρ) (question : String) (sourceIds : List String)
    (options : RetrievalOptions) : List ChunkRow :=
  retriever.hydrate sourceIds
    { retriever.channels question sourceIds options with lexical := [] }

def refersTo (channels : Channels) (row : ChunkRow) : Bool := row.chunkId ∈ channels.referenced

/-- Two searches agree for a request: they give every candidate the same lexical rank, and where
candidates bring neighbours and two chunks of a candidate's section have one place in their source,
both searches or neither of them refer to them. -/
structure AgreeFor (retriever : HybridRetriever ρ)
    (searchFts' : String → Option (List String) → Int → List String) (question : String)
    (sourceIds : List String) (options : RetrievalOptions) : Prop where
  ranks : ∀ row ∈ retriever.denseTable question sourceIds options,
    (retriever.channels question sourceIds options).lexicalRank row.chunkId =
      ({ retriever with searchFts := searchFts' }.channels question sourceIds options).lexicalRank
        row.chunkId
  neighbors : options.expand = true → ∀ anchor ∈ retriever.denseTable question sourceIds options,
    ∀ row ∈ retriever.chunks.rows, ∀ other ∈ retriever.chunks.rows,
      SiblingOf row anchor → SiblingOf other anchor → row.chunkIndex = other.chunkIndex →
        row ≠ other →
          refersTo (retriever.channels question sourceIds options) row =
            refersTo ({ retriever with searchFts := searchFts' }.channels question sourceIds
              options)
              row

theorem mem_denseTable : record ∈ retriever.denseTable question sourceIds options ↔
    record ∈ retriever.table question sourceIds options ∧
      record.chunkId ∈ (retriever.channels question sourceIds options).dense.flatten := by
  rw [denseTable, table, hydrate, hydrate, mem_filter, mem_filter, decide_eq_true_iff,
    decide_eq_true_iff, Channels.referenced, Channels.referenced, flatten_nil, nil_append,
      mem_append]
  constructor
  · rintro ⟨hRow, hDense, hRest⟩
    exact ⟨⟨hRow, .inr hDense, hRest⟩, hDense⟩
  · rintro ⟨⟨hRow, _, hRest⟩, hDense⟩
    exact ⟨hRow, hDense, hRest⟩

theorem fuse_dense : fuse (retriever.channels question sourceIds options) .dense
    (retriever.table question sourceIds options) =
      sortOn (fun chunkId => toLex
        (-(retriever.channels question sourceIds options).fused chunkId, chunkId))
        (sortOn id ((retriever.denseTable question sourceIds options).map ChunkRow.chunkId)) := by
  have hCandidates : ((retriever.table question sourceIds options).map ChunkRow.chunkId).filter
      ((retriever.channels question sourceIds options).relevant .dense) =
        (retriever.denseTable question sourceIds options).map ChunkRow.chunkId := by
    rw [filter_map]
    congr 1
    rw [table, denseTable, hydrate, hydrate, filter_filter]
    refine filter_congr fun chunk _ => ?_
    rw [Bool.eq_iff_iff, Bool.and_eq_true, Function.comp_apply, relevant_dense, decide_eq_true_iff,
      decide_eq_true_iff, Channels.referenced, Channels.referenced, flatten_nil, nil_append,
        mem_append]
    tauto
  rw [fuse, hCandidates]

theorem mem_denseTable_of_mem_selected (hMode : options.mode = .dense)
    (h : record ∈ retriever.selected question sourceIds options) :
    record ∈ retriever.denseTable question sourceIds options :=
  mem_denseTable.mpr ⟨mem_table_of_mem_selected h, mem_dense_of_mem_selected hMode h⟩

theorem rowOf_of_mem (hNodup : (table.map ChunkRow.chunkId).Nodup)
    (hMem : record ∈ table) : rowOf table record.chunkId = some record := by
  cases hFind : rowOf table record.chunkId with
  | none => exact absurd (List.find?_eq_none.mp hFind record hMem) (by simp)
  | some other =>
    obtain ⟨hOther, hId⟩ := chunkId_of_rowOf hFind
    rw [inj_on_of_nodup_map hNodup hOther hMem hId]

theorem ranking_congr (hMode : options.mode = .dense)
    (h : AgreeFor retriever searchFts' question sourceIds options) :
    retriever.ranking question sourceIds options =
      { retriever with searchFts := searchFts' }.ranking question sourceIds options := by
  let other : HybridRetriever ρ := { retriever with searchFts := searchFts' }
  have hFuse : fuse (retriever.channels question sourceIds options) .dense
      (retriever.table question sourceIds options) =
        fuse (other.channels question sourceIds options) .dense
          (other.table question sourceIds options) := by
    rw [fuse_dense, fuse_dense]
    refine sortOn_congr fun chunkId hMem => ?_
    obtain ⟨row, hRow, rfl⟩ := mem_map.mp (mem_sortOn.mp hMem)
    rw [Channels.fused, h.ranks row hRow]
    rfl
  rw [ranking_of_dense hMode, ranking_of_dense hMode, ← hFuse]
  congr 1
  refine filterMap_congr fun chunkId hMem => ?_
  rw [fuse_dense, mem_sortOn, mem_sortOn] at hMem
  obtain ⟨row, hRow, rfl⟩ := mem_map.mp hMem
  have hRow' : row ∈ other.denseTable question sourceIds options := hRow
  rw [rowOf_of_mem nodup_table (mem_denseTable.mp hRow).1,
    rowOf_of_mem nodup_table (mem_denseTable.mp hRow').1]

/-! ### Neighbours -/

theorem filter_append_filter_not_eq {α : Type} {p q : α → Bool} {xs : List α} (hNodup : xs.Nodup)
    (h : ∀ x ∈ xs, ∀ y ∈ xs, x ≠ y → p x = q x) :
    xs.filter p ++ xs.filter (fun x => !p x) = xs.filter q ++ xs.filter fun x => !q x := by
  cases xs with
  | nil => rfl
  | cons x xs =>
    cases xs with
    | nil => cases hp : p x <;> cases hq : q x <;> simp [hp, hq]
    | cons y xs =>
      have hApart : x ≠ y := fun hEq => (nodup_cons.mp hNodup).1 (hEq ▸ mem_cons_self)
      have hAll : ∀ z ∈ x :: y :: xs, p z = q z := by
        intro z hz
        by_cases hEq : z = x
        · rw [hEq]
          exact h x mem_cons_self y (mem_cons_of_mem _ mem_cons_self) hApart
        · exact h z hz x mem_cons_self hEq
      rw [filter_congr hAll, filter_congr fun z hz => congrArg Bool.not (hAll z hz)]

theorem neighbors_congr {table' chunks : List ChunkRow} {chosen : List String}
    (h : ∀ chosen, ∀ anchor ∈ chunks, neighbor table chosen anchor =
    neighbor table' chosen anchor) :
    neighbors table chosen chunks = neighbors table' chosen chunks := by
  induction chunks generalizing chosen with
  | nil => rfl
  | cons anchor chunks ih =>
    rw [HybridRetrieval.neighbors, HybridRetrieval.neighbors, h chosen anchor mem_cons_self]
    have hRest (chosen : List String) := @ih chosen fun chosen other hMem =>
      h chosen other (mem_cons_of_mem _ hMem)
    cases neighbor table' chosen anchor with
    | none => exact hRest chosen
    | some record => exact congrArg (record :: ·) (hRest (record.chunkId :: chosen))

/-- Chunks at one place of a source that is selected: first those that the channels refer to, then
the other ones, in the order of the store. -/
theorem filter_withSiblings {class' : ChunkRow → Bool}
    {sourceId : String} {chunkIndex : Nat} (hSource : sourceId ∈ selected.map ChunkRow.sourceId)
    (hScope : (scope sourceIds).all (fun scope => sourceId ∈ scope) = true)
    (hClass : ∀ row, class' row = true → row.sourceId = sourceId ∧ row.chunkIndex = chunkIndex) :
    (retriever.withSiblings (retriever.table question sourceIds options) selected).filter class' =
      (retriever.chunks.rows.filter fun row =>
          class' row ∧ isIndexLike retriever.isDigit row.text = false).filter
            (refersTo (retriever.channels question sourceIds options)) ++
        (retriever.chunks.rows.filter fun row =>
          class' row ∧ isIndexLike retriever.isDigit row.text = false).filter fun row =>
            !refersTo (retriever.channels question sourceIds options) row := by
  let channels := retriever.channels question sourceIds options
  let rows := retriever.chunks.rows.filter fun row =>
    class' row ∧ isIndexLike retriever.isDigit row.text = false
  have hTable (row : ChunkRow) (hRow : row ∈ retriever.chunks.rows) :
      row.chunkId ∈ (retriever.table question sourceIds options).map ChunkRow.chunkId ↔
        row ∈ retriever.table question sourceIds options := by
    constructor
    · intro hMem
      obtain ⟨other, hOther, hId⟩ := mem_map.mp hMem
      rw [← inj_on_of_nodup_map retriever.chunks.ids (mem_of_mem_filter hOther) hRow hId]
      exact hOther
    · exact mem_map_of_mem
  have hMemTable (row : ChunkRow) (hRow : row ∈ retriever.chunks.rows) (hIn : class' row = true)
      (hText : isIndexLike retriever.isDigit row.text = false) :
      row ∈ retriever.table question sourceIds options ↔ refersTo channels row = true := by
    rw [table, hydrate, mem_filter, decide_eq_true_iff, (hClass row hIn).1]
    simp [hRow, hScope, hText, refersTo, channels]
  rw [withSiblings, filter_append]
  congr 1
  · rw [table, hydrate, filter_filter, filter_filter]
    refine filter_congr fun row hRow => ?_
    rw [Bool.eq_iff_iff]
    simp only [Bool.and_eq_true, decide_eq_true_iff, refersTo]
    constructor
    · rintro ⟨hIn, hRef, _, hText⟩
      exact ⟨hRef, hIn, hText⟩
    · rintro ⟨hRef, hIn, hText⟩
      exact ⟨hIn, hRef, (hClass row hIn).1 ▸ hScope, hText⟩
  · have hPlace : (rows.filter fun row => !refersTo channels row).Pairwise fun a b =>
        toLex (a.sourceId, a.chunkIndex) ≤ toLex (b.sourceId, b.chunkIndex) := by
      refine pairwise_of_forall_mem_list fun a ha b hb => ?_
      have hA := hClass a (of_decide_eq_true (mem_filter.mp (mem_of_mem_filter ha)).2).1
      have hB := hClass b (of_decide_eq_true (mem_filter.mp (mem_of_mem_filter hb)).2).1
      rw [hA.1, hA.2, hB.1, hB.2]
    rw [listRagChunks, filter_sortOn, filter_sortOn, filter_filter, filter_filter,
      ← sortOn_eq_self hPlace]
    congr 1
    rw [filter_filter]
    refine filter_congr fun row hRow => ?_
    rw [Bool.eq_iff_iff]
    simp only [Bool.and_eq_true, decide_eq_true_iff, Bool.not_eq_true']
    constructor
    · rintro ⟨⟨hIn, hNot, hText⟩, _⟩
      refine ⟨?_, hIn, hText⟩
      rw [hTable row hRow, hMemTable row hRow hIn hText] at hNot
      simpa using hNot
    · rintro ⟨hRef, hIn, hText⟩
      refine ⟨⟨hIn, ?_, hText⟩, .inr ((hClass row hIn).1 ▸ hSource)⟩
      rw [hTable row hRow, hMemTable row hRow hIn hText, hRef]
      exact Bool.false_ne_true

theorem neighbor_congr (hMode : options.mode = .dense) (hExpand : options.expand = true)
    (h : AgreeFor retriever searchFts' question sourceIds options)
    {anchor : ChunkRow} (hSelected : selected = retriever.selected question sourceIds options)
    (hAnchor : anchor ∈ selected) (chosen : List String) :
    neighbor (retriever.withSiblings (retriever.table question sourceIds options) selected) chosen
        anchor =
      neighbor ({ retriever with searchFts := searchFts' }.withSiblings
        ({ retriever with searchFts := searchFts' }.table question sourceIds options)
          selected) chosen anchor := by
  let other : HybridRetriever ρ := { retriever with searchFts := searchFts' }
  have hCandidate : anchor ∈ retriever.denseTable question sourceIds options :=
    mem_denseTable_of_mem_selected hMode (hSelected ▸ hAnchor)
  have hScope := (of_decide_eq_true (mem_filter.mp hCandidate).2).2.1
  rw [neighbor, neighbor]
  split
  next => rfl
  next hKind =>
    push Not at hKind
    congr 1
    refine sortOn_eq_of_classes fun key => ?_
    rw [filter_filter, filter_filter]
    generalize hClass : (fun row : ChunkRow => decide (toLex
        (((row.chunkIndex : Int) - anchor.chunkIndex).natAbs, row.chunkIndex) = key) &&
      decide (row.chunkId ∉ chosen ∧ row.sourceId = anchor.sourceId ∧
        row.kind = .evidenceSpan ∧ row.sectionPath = anchor.sectionPath)) = class'
    have hIn (row : ChunkRow) (hRow : class' row = true) :
        (SiblingOf row anchor ∧ row.chunkIndex = (ofLex key).2) := by
      rw [← hClass, Bool.and_eq_true, decide_eq_true_iff, decide_eq_true_iff] at hRow
      obtain ⟨rfl, _, hSource, hSpan, hPath⟩ := hRow
      exact ⟨⟨hSpan, hSource, hPath, hKind⟩, rfl⟩
    have hPlace (row : ChunkRow) (hRow : class' row = true) :
        row.sourceId = anchor.sourceId ∧ row.chunkIndex = (ofLex key).2 :=
      ⟨(hIn row hRow).1.source, (hIn row hRow).2⟩
    rw [@filter_withSiblings _ retriever question sourceIds options selected class' anchor.sourceId
      _
        (mem_map_of_mem hAnchor) hScope hPlace,
      @filter_withSiblings _ other question sourceIds options selected class' anchor.sourceId _
        (mem_map_of_mem hAnchor) hScope hPlace]
    refine filter_append_filter_not_eq ?_ fun row hRow twin hTwin hApart => ?_
    · exact (retriever.chunks.ids.of_map _).filter _
    · obtain ⟨hRowMem, hRowIn⟩ := mem_filter.mp hRow
      obtain ⟨hTwinMem, hTwinIn⟩ := mem_filter.mp hTwin
      obtain ⟨hSibling, hIndex⟩ := hIn row (of_decide_eq_true hRowIn).1
      obtain ⟨hSibling', hIndex'⟩ := hIn twin (of_decide_eq_true hTwinIn).1
      exact h.neighbors hExpand anchor hCandidate row hRowMem twin hTwinMem hSibling hSibling'
        (hIndex.trans hIndex'.symm) hApart

/-- The dense mode gives the same hits with another full-text search, where the two searches agree
for the request. -/
theorem denseIgnoresLexical (retriever : HybridRetriever ρ)
    (searchFts' : String → Option (List String) → Int → List String) (question : String)
    (sourceIds : List String) (options : RetrievalOptions) (hMode : options.mode = .dense)
    (h : AgreeFor retriever searchFts' question sourceIds options) :
    (retriever.retrieve question sourceIds options).hits =
      ({ retriever with searchFts := searchFts' }.retrieve question sourceIds options).hits := by
  let other : HybridRetriever ρ := { retriever with searchFts := searchFts' }
  have hRanking : retriever.ranking question sourceIds options =
      other.ranking question sourceIds options := ranking_congr hMode h
  have hSelected : retriever.selected question sourceIds options =
      other.selected question sourceIds options := by
    rw [selected, selected, hRanking]
  have hExtras : retriever.extras question sourceIds options =
      other.extras question sourceIds options := by
    rw [extras, extras, ← hSelected]
    split
    next hExpand =>
      exact neighbors_congr fun chosen anchor hAnchor =>
        neighbor_congr hMode hExpand h rfl hAnchor chosen
    next => rfl
  have hAdmitted : retriever.admitted question sourceIds options =
      other.admitted question sourceIds options := by
    rw [admitted, admitted, hSelected, hExtras]
  unfold retrieve
  rw [← hAdmitted]
  refine map_congr_left fun record hRecord => ?_
  rw [hitOf, hitOf, ← hRanking, ← hExtras]
  split
  · rfl
  next hOwn =>
    rcases mem_append.mp (admission_sublist.subset hRecord) with hMem | hMem
    · rw [Channels.fused, h.ranks _ (mem_denseTable_of_mem_selected hMode hMem)]
      rfl
    · exact absurd (mem_map_of_mem hMem) hOwn

def sectionSpan (sourceId chunkId : String) (chunkIndex : Nat) : ChunkRow :=
  { spanRow with
    chunkId := chunkId
    sourceId := sourceId
    chunkIndex := chunkIndex
    text := []
    sectionPath := some "1" }

end HybridRetriever

/-- Two chunks of one section, of which the vector index finds the first. -/
def foundOnce : HybridRetriever ℚ :=
  { oneChunk with
    chunks := ⟨[HybridRetriever.sectionSpan "source-1" "chunk-1" 0,
      HybridRetriever.sectionSpan "source-1" "chunk-2" 1], by decide⟩
    searchFts := fun _ _ _ => []
    vectorIndex := some fun _ _ _ => [["chunk-1"]] }

/-- Another search finds the second chunk, which is brought as a neighbour in both cases. -/
theorem denseIgnoresLexical_foundOnce :
    (foundOnce.retrieve "What is cross-validation?" [] { mode := .dense, expand := true }).hits =
        ({ foundOnce with searchFts := fun _ _ _ => ["chunk-2"] }.retrieve
          "What is cross-validation?" [] { mode := .dense, expand := true }).hits ∧
      (foundOnce.retrieve "What is cross-validation?" []
        { mode := .dense, expand := true }).hits.map (fun hit => hit.chunk.chunkId) =
          ["chunk-1", "chunk-2"] := by
  refine ⟨HybridRetriever.denseIgnoresLexical foundOnce _ _ _ _ rfl ⟨?_, ?_⟩, by decide +kernel⟩
  · decide +kernel
  · intro _ anchor _ row hRow other hOther _ _ hIndex hApart
    simp only [foundOnce, mem_cons, not_mem_nil, or_false] at hRow hOther
    rcases hRow with rfl | rfl <;> rcases hOther with rfl | rfl
    · exact absurd rfl hApart
    · cases hIndex
    · cases hIndex
    · exact absurd rfl hApart

/-- A store with one chunk, which the vector index finds and the full-text search as well. -/
def foundTwice : HybridRetriever ℚ :=
  { oneChunk with vectorIndex := some fun _ _ _ => [["chunk-1"]] }

theorem score_of_dense_differs :
    (foundTwice.retrieve "What is cross-validation?" [] { mode := .dense }).hits.map
        RetrievedHit.score ≠
      ({ foundTwice with searchFts := fun _ _ _ => [] }.retrieve "What is cross-validation?" []
        { mode := .dense }).hits.map RetrievedHit.score := by
  decide +kernel

end Glasslab.HybridRetrieval
