import Glasslab.Knowledge.Retrieval
import Glasslab.Foundation.Raising

/-!
# The boundary of retrieval

The chunks of a packet belong to sources that `list_knowledge_sources` has returned, in every
retrieval mode (`covered_selectEntries`). The list is limited to the types that the role allows,
unless the set of allowed types is empty: then it is not limited at all. The set is empty exactly if
the caller gives a scope that has no type in common with the agent (`retrieval_boundary_iff`).
-/

namespace Glasslab.Knowledge

open Foundation Foundation.Raising List

variable {libs : Libraries} {settings : Settings} {store : KnowledgeStore} {request : Request}
  {sources : List KnowledgeSource} {entries found : List Entry} {entry : Entry}

def Covered (sources : List KnowledgeSource) (entry : Entry) : Prop :=
  entry.kind = .chunk → ∃ source ∈ sources, entry.sourceId = some source.sourceId

theorem covered_chunkEntry {chunk : KnowledgeChunk}
    (h : chunk.sourceId ∈ sources.map KnowledgeSource.sourceId) (score : ℚ) (mode : String) :
    Covered sources (chunkEntry sources chunk score mode) := by
  intro _
  obtain ⟨source, hSource, hId⟩ := mem_map.mp h
  exact ⟨source, hSource, congrArg some hId.symm⟩

variable {query : String} {sourceIds : List String} {limit : Nat}

theorem searchKnowledgeChunks_sourceId {hits : List (KnowledgeChunk × ℚ)} (hIds : sourceIds ≠ [])
    (h : searchKnowledgeChunks libs store query sourceIds limit = .ok hits) :
    ∀ hit ∈ hits, hit.1.sourceId ∈ sourceIds := by
  rw [searchKnowledgeChunks, bind_eq_ok_iff] at h
  obtain ⟨matching, -, hHits⟩ := h
  rw [pure_eq_ok_iff] at hHits
  subst hHits
  intro hit hHit
  have hMem := mem_sortOn.mp (mem_of_mem_take (mem_of_mem_take hHit))
  have hFilter := of_decide_eq_true (mem_filter.mp hMem).2
  exact hFilter.resolve_left hIds

def InSources (store : KnowledgeStore) (sourceIds : List String) (hit : String × ℚ) : Prop :=
  ∃ row, store.chunk? hit.1 = some row ∧ row.sourceId ∈ sourceIds

theorem inSources_foldl (raw : List (String × ℚ)) {collected : List (String × ℚ)}
    (h : ∀ hit ∈ collected, InSources store sourceIds hit) :
    ∀ hit ∈ raw.foldl (fun collected hit =>
      match store.chunk? hit.1 with
      | none => collected
      | some row =>
        if row.sourceId ∉ sourceIds then collected
        else if (collected.lookup hit.1).isSome then collected
        else collected ++ [hit]) collected, InSources store sourceIds hit := by
  induction raw generalizing collected with
  | nil => exact h
  | cons first raw ih =>
    rw [foldl_cons]
    apply ih
    split
    · exact h
    · rename_i row hRow
      split
      · exact h
      · rename_i hIn
        split
        · exact h
        · intro hit hHit
          rcases mem_append.mp hHit with hHit | hHit
          · exact h hit hHit
          · rw [mem_singleton.mp hHit]
            exact ⟨row, hRow, not_not.mp hIn⟩

theorem inSources_collectDense {index : DenseIndex} {attempts k : Nat}
    {collected result : List (String × ℚ)}
    (h : ∀ hit ∈ collected, InSources store sourceIds hit)
    (hResult : collectDense index store query sourceIds limit attempts k collected = .ok result) :
    ∀ hit ∈ result, InSources store sourceIds hit := by
  induction attempts generalizing k collected with
  | zero =>
    rw [collectDense, pure_eq_ok_iff] at hResult
    exact hResult ▸ h
  | succ attempts ih =>
    rw [collectDense, bind_eq_ok_iff] at hResult
    obtain ⟨raw, -, hResult⟩ := hResult
    have hMore := inSources_foldl raw h
    dsimp only at hResult
    split at hResult
    · rw [pure_eq_ok_iff] at hResult
      exact hResult ▸ hMore
    · exact ih hMore hResult

theorem covered_denseEntries {index : DenseIndex}
    (h : denseEntries index store sources limit query = .ok found) :
    ∀ entry ∈ found, Covered sources entry := by
  rw [denseEntries, bind_eq_ok_iff] at h
  obtain ⟨-, -, h⟩ := h
  rw [bind_eq_ok_iff] at h
  obtain ⟨collected, hCollected, h⟩ := h
  rw [pure_eq_ok_iff] at h
  subst h
  have hIn := inSources_collectDense (fun _ hHit => absurd hHit not_mem_nil) hCollected
  intro entry hEntry
  obtain ⟨hit, hHit, hRow⟩ := mem_filterMap.mp hEntry
  obtain ⟨row, hChunk, hId⟩ := hIn hit (mem_sortOn.mp (mem_of_mem_take hHit))
  rw [hChunk, Option.map_some, Option.some.injEq] at hRow
  subst hRow
  exact covered_chunkEntry hId _ _

/-! ## Merging -/

theorem covered_mergeBest {merged : List (String × Entry)}
    (h : ∀ p ∈ merged, Covered sources p.2) (hEntry : Covered sources entry) :
    ∀ p ∈ mergeBest merged entry, Covered sources p.2 := by
  have hSet : ∀ p ∈ Dict.set entry.entryId entry merged, Covered sources p.2 := by
    intro p hp
    rcases Dict.mem_of_mem_set hp with rfl | hp
    · exact hEntry
    · exact h p hp
  rw [mergeBest]
  split
  · exact hSet
  · split
    · exact hSet
    · exact h

variable {queries : List String}

theorem covered_mergeQueries {search : String → Except Raised (List Entry)}
    (hSearch : ∀ query entries, search query = .ok entries →
      ∀ entry ∈ entries, Covered sources entry)
    (h : mergeQueries search queries = .ok found) : ∀ entry ∈ found, Covered sources entry := by
  rw [mergeQueries, bind_eq_ok_iff] at h
  obtain ⟨merged, hMerged, h⟩ := h
  rw [pure_eq_ok_iff] at h
  subst h
  have hAll : ∀ p ∈ merged, Covered sources p.2 := by
    refine foldlM_invariant (P := fun merged => ∀ p ∈ merged, Covered sources p.2) ?_ hMerged
      (fun _ hp => absurd hp not_mem_nil)
    intro before query after hPass hBefore
    rw [bind_eq_ok_iff] at hPass
    obtain ⟨entries, hEntries, hPass⟩ := hPass
    rw [pure_eq_ok_iff] at hPass
    subst hPass
    have hCovered := hSearch query entries hEntries
    clear hEntries hMerged
    induction entries generalizing before with
    | nil => exact hBefore
    | cons entry entries ih =>
      refine ih _ (covered_mergeBest hBefore ?_) fun other hOther =>
        hCovered other (mem_cons_of_mem _ hOther)
      exact hCovered entry mem_cons_self
  intro entry hEntry
  obtain ⟨p, hp, rfl⟩ := mem_map.mp hEntry
  exact hAll p hp

theorem covered_lexicalEntries (h : lexicalEntries libs store sources limit queries = .ok found) :
    ∀ entry ∈ found, Covered sources entry := by
  rw [lexicalEntries] at h
  split at h
  · rw [pure_eq_ok_iff] at h
    subst h
    simp
  · rename_i hIds
    refine covered_mergeQueries ?_ h
    intro query entries hSearch entry hEntry
    rw [bind_eq_ok_iff] at hSearch
    obtain ⟨hits, hHits, hSearch⟩ := hSearch
    rw [pure_eq_ok_iff] at hSearch
    subst hSearch
    obtain ⟨hit, hHit, rfl⟩ := mem_map.mp hEntry
    exact covered_chunkEntry (searchKnowledgeChunks_sourceId hIds hHits hit hHit) _ _

theorem covered_findChunks {result : Found}
    (h : findChunks libs settings store sources limit queries request = .ok result) :
    ∀ entry ∈ result.entries, Covered sources entry := by
  have hLexical {actual reason requested : String}
      (h : (do
        let entries ← lexicalEntries libs store sources limit queries
        pure ⟨entries, requested, actual, reason⟩) = Except.ok result) :
      ∀ entry ∈ result.entries, Covered sources entry := by
    rw [bind_eq_ok_iff] at h
    obtain ⟨entries, hEntries, h⟩ := h
    rw [pure_eq_ok_iff] at h
    subst h
    exact covered_lexicalEntries hEntries
  rw [findChunks] at h
  split at h
  · split at h
    · exact hLexical h
    · split at h
      · exact hLexical h
      · rename_i index _ _ entries _ hEntries
        rw [pure_eq_ok_iff] at h
        subst h
        intro entry hEntry
        exact covered_mergeQueries (fun query found hFound => covered_denseEntries hFound) hEntries
          entry (mem_sortOn.mp hEntry)
      · exact hLexical h
  · exact hLexical h

theorem covered_retrieveRunEvents (sources : List KnowledgeSource)
    (h : entry ∈ retrieveRunEvents libs store request) : Covered sources entry := by
  intro hKind
  obtain ⟨event, -, hEvent⟩ := mem_filterMap.mp h
  obtain ⟨uri, -, hEvent⟩ := Option.bind_eq_some_iff.mp hEvent
  split at hEvent
  · cases hEvent
  · split at hEvent
    · cases hEvent
    · cases hEvent
      cases hKind

theorem mem_of_mem_diversify {maxPerSource maxResults selected : Nat}
    {perSource : List (String × Nat)}
    (h : entry ∈ diversify maxPerSource maxResults perSource selected entries) :
    entry ∈ entries := by
  induction entries generalizing perSource selected with
  | nil => exact h
  | cons first entries ih =>
    rw [diversify] at h
    split at h
    · exact mem_cons_of_mem _ (ih h)
    · split at h
      · cases h
      · rcases mem_cons.mp h with rfl | h
        · exact mem_cons_self
        · exact mem_cons_of_mem _ (ih h)

theorem mem_of_mem_enforceTokenBudget {budget total : Nat}
    (h : entry ∈ enforceTokenBudget budget total entries) : entry ∈ entries := by
  induction entries generalizing total with
  | nil => exact h
  | cons first entries ih =>
    rw [enforceTokenBudget] at h
    split at h
    · exact mem_cons_of_mem _ (ih h)
    · rcases mem_cons.mp h with rfl | h
      · exact mem_cons_self
      · exact mem_cons_of_mem _ (ih h)

variable {allowed : Finset SourceType}

theorem covered_selectEntries {result : Found}
    (hPinned : request.pinnedSourceIds = [])
    (h : selectEntries libs settings store allowed request = .ok result) :
    ∀ entry ∈ result.entries, Covered (scopedSources store allowed request) entry := by
  rw [selectEntries] at h
  rw [bind_eq_ok_iff] at h
  obtain ⟨found, hFound, h⟩ := h
  rw [pure_eq_ok_iff] at h
  subst h
  intro entry hEntry
  have hRanked := mem_of_mem_enforceTokenBudget hEntry
  rw [hPinned, pinnedEntries, flatMap_nil, append_nil] at hRanked
  have hMem := mem_sortOn.mp (mem_of_mem_diversify hRanked)
  rcases mem_append.mp hMem with hChunk | hEvent
  · exact covered_findChunks hFound entry hChunk
  · exact covered_retrieveRunEvents _ hEvent

/-- Retrieval for a run, without pinned or explicit sources. -/
structure Request.ForRun (request : Request) : Prop where
  scope : request.runScope = some request.runId
  explicit : request.sourceIds = none
  pinned : request.pinnedSourceIds = []

/-- Every chunk of the packet belongs to a source whose type is allowed for the agent and for the
turn, and which is no other run's. -/
def Within (store : KnowledgeStore) (turn : Turn) (packet : ContextPacket) : Prop :=
  ∀ ranked ∈ packet.rankedSources, ranked.kind = .chunk →
    ∃ source ∈ store.sources.rows, ranked.sourceId = some source.sourceId ∧
      source.sourceType ∈ agentSourceTypes turn.agent ∧ source.sourceType ∈ turn.allowed ∧
      (source.runScope = none ∨ source.runScope = some packet.runId)

theorem mem_scopedSources {source : KnowledgeSource}
    (hRequest : request.ForRun) (h : source ∈ scopedSources store allowed request) :
    source ∈ store.sources.rows ∧ (allowed = ∅ ∨ source.sourceType ∈ allowed) ∧
      (source.runScope = none ∨ source.runScope = some request.runId) := by
  rw [scopedSources, hRequest.explicit, hRequest.pinned] at h
  rcases mem_append.mp h with hMem | hPinned
  · obtain ⟨hRow, hScope, hType⟩ := SourceTable.mem_list.mp hMem
    rw [hRequest.scope, Option.all_some, SourceTable.visibleTo, decide_eq_true_iff] at hScope
    exact ⟨hRow, hType, hScope.symm⟩
  · simp at hPinned

theorem allowed_subset (turn : Turn) : turn.allowed ⊆ agentSourceTypes turn.agent := by
  rw [Turn.allowed]
  split
  · exact Finset.inter_subset_right
  · exact defaultSourceTypes_subset turn.agent turn.turnKind

variable {turn : Turn} {packet : ContextPacket}

theorem within_of_allowed (hAllowed : turn.allowed ≠ ∅)
    (hRequest : request.ForRun) (h : retrieve libs settings store turn request = .ok packet) :
    Within store turn packet := by
  rw [retrieve, bind_eq_ok_iff] at h
  obtain ⟨result, hResult, h⟩ := h
  rw [pure_eq_ok_iff] at h
  subst h
  intro ranked hRanked hKind
  obtain ⟨entry, hEntry, rfl⟩ := mem_map.mp hRanked
  obtain ⟨source, hSource, hId⟩ :=
    covered_selectEntries hRequest.pinned hResult entry hEntry hKind
  obtain ⟨hRow, hType, hScope⟩ := mem_scopedSources hRequest hSource
  have hIn := hType.resolve_left hAllowed
  exact ⟨source, hRow, hId, allowed_subset turn hIn, hIn, hScope⟩

theorem allowed_ne_empty_iff (turn : Turn) : turn.allowed ≠ ∅ ↔
    turn.sourceTypeScope.all (fun scope => scope ∩ agentSourceTypes turn.agent ≠ ∅) := by
  rw [Turn.allowed]
  cases turn.sourceTypeScope with
  | none => simpa using defaultSourceTypes_ne_empty turn.agent turn.turnKind
  | some scope => simp

def paperStore : KnowledgeStore where
  sources :=
    { rows :=
        [{ sourceId := "s1", sourceType := .paper, canonicalUri := "upload://graphs.pdf",
           digest := "d1", ingestedAt := "2026-01-01T00:00:00+00:00" }]
      ids := by decide
      keys := by decide }
  chunks :=
    [{ chunkId := "c1", sourceId := "s1", chunkIndex := 0, text := "graph", digest := "e1",
       tokenCount := 2 }]
  events := []

def paperLibraries : Libraries where
  lower text := text
  isalnum := Char.isAlphanum
  containsSecrets _ := false
  digestText _ := ""
  str _ := ""
  fullText query := .ok (if query = "graph" then [("c1", -1 / 1000000)] else [])

def paperRequest : Request := { runId := "run-1", query := "graph", runScope := some "run-1" }

theorem selectEntries_paper :
    (selectEntries paperLibraries {} paperStore ∅ paperRequest).toOption.map
      (fun found => found.entries.map fun entry => (entry.kind, entry.sourceId)) =
        some [(.chunk, some "s1")] := by
  decide +kernel

theorem retrieve_paper (h : turn.allowed = ∅) :
    ∃ packet, retrieve paperLibraries {} paperStore turn paperRequest = .ok packet ∧
      ∃ ranked ∈ packet.rankedSources, ranked.kind = .chunk ∧ ranked.sourceId = some "s1" := by
  cases hSelected : selectEntries paperLibraries {} paperStore ∅ paperRequest with
  | error raised =>
    have hShape := selectEntries_paper
    rw [hSelected] at hShape
    cases hShape
  | ok found =>
    have hShape := selectEntries_paper
    rw [hSelected] at hShape
    have hEntries : found.entries.map (fun entry => (entry.kind, entry.sourceId)) =
        [(.chunk, some "s1")] := Option.some.inj hShape
    obtain ⟨entry, hEntry, hKey⟩ := mem_map.mp (hEntries ▸ mem_singleton_self _)
    rw [retrieve, h, hSelected]
    refine ⟨_, rfl, _, mem_map_of_mem hEntry, ?_⟩
    exact ⟨congrArg Prod.fst hKey, congrArg Prod.snd hKey⟩

theorem not_within_of_empty (h : turn.allowed = ∅)
    (hChunk : ∃ ranked ∈ packet.rankedSources, ranked.kind = .chunk ∧ ranked.sourceId = some "s1") :
    ¬Within paperStore turn packet := by
  intro hWithin
  obtain ⟨ranked, hRanked, hKind, -⟩ := hChunk
  obtain ⟨source, -, -, -, hType, -⟩ := hWithin ranked hRanked hKind
  rw [h] at hType
  exact absurd hType (Finset.notMem_empty _)

/-- For a turn, retrieval stays within the types of the turn and within the run, for every store,
query plan and retrieval mode, exactly if the scope of the caller has a type of the agent. -/
theorem retrieval_boundary_iff (turn : Turn) :
    (∀ libs settings store request packet, Request.ForRun request →
      retrieve libs settings store turn request = .ok packet → Within store turn packet) ↔
    turn.sourceTypeScope.all (fun scope => scope ∩ agentSourceTypes turn.agent ≠ ∅) := by
  rw [← allowed_ne_empty_iff]
  constructor
  · intro h hEmpty
    obtain ⟨packet, hPacket, hChunk⟩ := retrieve_paper hEmpty
    refine not_within_of_empty hEmpty hChunk ?_
    exact h paperLibraries {} paperStore paperRequest packet ⟨rfl, rfl, rfl⟩ hPacket
  · intro h libs settings store request packet hRequest hPacket
    exact within_of_allowed h hRequest hPacket

def papersForBeaker : Turn where
  agent := .beaker
  turnNumber := 1
  turnKind := .implementationPlan
  sourceTypeScope := some {.paper}

theorem paper_shown_to_beaker : ∃ packet,
    retrieve paperLibraries {} paperStore papersForBeaker paperRequest = .ok packet ∧
      ¬Within paperStore papersForBeaker packet := by
  have hEmpty : papersForBeaker.allowed = ∅ := by decide
  obtain ⟨packet, hPacket, hChunk⟩ := retrieve_paper hEmpty
  exact ⟨packet, hPacket, not_within_of_empty hEmpty hChunk⟩

end Glasslab.Knowledge
