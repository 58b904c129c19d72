import Glasslab.Knowledge.Boundary

/-!
# The token budget of a packet

An entry is charged what was noted when it became a candidate: for an event that is the cost of the
first thousand characters of the payload, whatever text is supplied. The pinned entries come after
the ranked ones and compete with them for the budget. So the texts keep the budget and the pins are
kept where no entry is admitted that costs more than it is charged and the other entries leave the
pinned ones what they need (`respectsBudget_of_leavesRoom`).
-/

namespace Glasslab.Knowledge

open Foundation List Option

def Entry.supplied (entry : Entry) : Nat := estimateTokens (sanitizeRetrieved entry.text.toList)

def Entry.IsPinned (pinned : List String) (entry : Entry) : Prop :=
  ∃ sourceId ∈ pinned, entry.sourceId = some sourceId

instance (pinned : List String) (entry : Entry) : Decidable (entry.IsPinned pinned) :=
  inferInstanceAs (Decidable (∃ sourceId ∈ pinned, entry.sourceId = some sourceId))

section Packet

variable (settings : Settings) (store : KnowledgeStore) (sources : List KnowledgeSource)
  (request : Request) (entries : List Entry)

def offeredEntries : List Entry :=
  let maxResults := orNat request.maxResults settings.maxResults
  let ranked := diversify settings.maxChunksPerSource maxResults [] 0 (rank entries)
  ranked ++ pinnedEntries store sources entries ranked request.pinnedSourceIds

def packetEntries : List Entry :=
  enforceTokenBudget (orNat request.tokenBudget settings.tokenBudget) 0
    (offeredEntries settings store sources request entries)

/-- The entry by which a pinned source is added: the best found of it, or its first chunk. -/
def pinEntry (sourceId : String) : Option Entry :=
  if (sourceById sources sourceId).isNone then none
  else
    match (entries.filter fun entry => entry.sourceId = some sourceId).argmax
        fun entry => entry.score with
    | some best => some best
    | none =>
      (sortOn KnowledgeChunk.chunkIndex (store.chunks.filter fun chunk =>
        chunk.sourceId = sourceId)).head?.map fun chunk => chunkEntry sources chunk 0 "lexical"

theorem pinnedEntries_eq (ranked : List Entry) (pinned : List String) :
    pinnedEntries store sources entries ranked pinned = pinned.flatMap fun sourceId =>
      if ranked.any fun entry => entry.sourceId = some sourceId then []
      else (pinEntry store sources entries sourceId).toList := by
  unfold pinnedEntries pinEntry
  congr 1
  funext sourceId
  by_cases hRanked : (ranked.any fun entry => entry.sourceId = some sourceId) = true
  · rw [if_pos (.inl hRanked), if_pos hRanked]
  · by_cases hScope : (sourceById sources sourceId).isNone = true
    · simp [hRanked, hScope]
    · rw [if_neg (not_or.mpr ⟨hRanked, hScope⟩), if_neg hRanked, if_neg hScope]
      dsimp only
      cases (entries.filter fun entry => entry.sourceId = some sourceId).argmax
        fun entry => entry.score <;> rfl

/-- The texts of a packet are within the budget, and if the pinned candidates are within it then
every pinned source that may be read and has chunks is in the packet. -/
structure RespectsBudget : Prop where
  budget : ((packetEntries settings store sources request entries).map Entry.supplied).sum ≤
    orNat request.tokenBudget settings.tokenBudget
  pins : (((offeredEntries settings store sources request entries).filter fun entry =>
      entry.IsPinned request.pinnedSourceIds).map Entry.tokenCount).sum ≤
        orNat request.tokenBudget settings.tokenBudget →
    ∀ sourceId ∈ request.pinnedSourceIds, (sourceById sources sourceId).isSome →
      (∃ chunk ∈ store.chunks, chunk.sourceId = sourceId) →
        ∃ entry ∈ packetEntries settings store sources request entries,
          entry.sourceId = some sourceId

/-- What a list of entries is charged. -/
def charge (entries : List Entry) : Nat := (entries.map Entry.tokenCount).sum

/-- What the admitted entries of a list are charged, when the budget is enforced on it. -/
def admittedCharge (budget : Nat) (entries : List Entry) : Nat :=
  charge (enforceTokenBudget budget 0 entries)

/-- For one request: no entry is admitted that is supplied for more than it is charged, unless all
that are offered fit as they are supplied; and when the first entry of a pinned source comes to its
turn, the admitted entries of other sources leave what the pinned ones up to it are charged. -/
structure LeavesRoom : Prop where
  charged : (∀ before entry after,
      offeredEntries settings store sources request entries = before ++ entry :: after →
      admittedCharge (orNat request.tokenBudget settings.tokenBudget) before + entry.tokenCount ≤
        orNat request.tokenBudget settings.tokenBudget →
      entry.supplied ≤ entry.tokenCount) ∨
    ((offeredEntries settings store sources request entries).map Entry.supplied).sum ≤
      orNat request.tokenBudget settings.tokenBudget
  pins : charge ((offeredEntries settings store sources request entries).filter fun entry =>
      entry.IsPinned request.pinnedSourceIds) ≤ orNat request.tokenBudget settings.tokenBudget →
    ∀ sourceId ∈ request.pinnedSourceIds, (sourceById sources sourceId).isSome →
      (∃ chunk ∈ store.chunks, chunk.sourceId = sourceId) → ∀ before entry after,
      offeredEntries settings store sources request entries = before ++ entry :: after →
      entry.sourceId = some sourceId → (∀ other ∈ before, other.sourceId ≠ some sourceId) →
      charge ((enforceTokenBudget (orNat request.tokenBudget settings.tokenBudget) 0 before).filter
          fun other => ¬ other.IsPinned request.pinnedSourceIds) +
        charge (before.filter fun other => other.IsPinned request.pinnedSourceIds) +
          entry.tokenCount ≤ orNat request.tokenBudget settings.tokenBudget

end Packet

variable {settings : Settings} {store : KnowledgeStore} {sources : List KnowledgeSource}
  {request : Request} {entries : List Entry} {entry : Entry} {sourceId : String}
  {budget total : Nat}

theorem sum_enforceTokenBudget (h : total ≤ budget) :
    total + ((enforceTokenBudget budget total entries).map Entry.tokenCount).sum ≤ budget := by
  induction entries generalizing total with
  | nil => simpa [enforceTokenBudget] using h
  | cons entry rest ih =>
    rw [enforceTokenBudget]
    split
    next => exact ih h
    next hFits =>
      rw [map_cons, sum_cons, ← Nat.add_assoc]
      exact ih (Nat.not_lt.mp hFits)

theorem enforceTokenBudget_append (before after : List Entry) :
    enforceTokenBudget budget total (before ++ after) =
      enforceTokenBudget budget total before ++
        enforceTokenBudget budget
    (total + charge (enforceTokenBudget budget total before)) after := by
  induction before generalizing total with
  | nil => simp [enforceTokenBudget, charge]
  | cons entry before ih =>
    rw [cons_append, enforceTokenBudget, enforceTokenBudget]
    split
    next => exact ih
    next =>
      rw [ih, cons_append, charge, charge, map_cons, sum_cons, Nat.add_assoc]

theorem enforceTokenBudget_sublist :
    (enforceTokenBudget budget total entries).Sublist entries := by
  induction entries generalizing total with
  | nil => exact Sublist.refl _
  | cons entry rest ih =>
    rw [enforceTokenBudget]
    split
    · exact ih.cons _
    · exact ih.cons_cons _

/-- An entry is admitted exactly if what is admitted before it leaves what it is charged. -/
theorem mem_enforceTokenBudget {budget : Nat} : entry ∈ enforceTokenBudget budget 0 entries ↔
    ∃ before after, entries = before ++ entry :: after ∧
      admittedCharge budget before + entry.tokenCount ≤ budget := by
  constructor
  · intro h
    induction entries using List.reverseRecOn with
    | nil => cases h
    | append_singleton entries last ih =>
      rw [enforceTokenBudget_append, mem_append] at h
      rcases h with hEarly | hLast
      · obtain ⟨before, after, rfl, hRoom⟩ := ih hEarly
        exact ⟨before, after ++ [last], by simp, hRoom⟩
      · rw [enforceTokenBudget] at hLast
        split at hLast
        next => cases hLast
        next hRoom =>
          rw [enforceTokenBudget, mem_singleton] at hLast
          subst hLast
          exact ⟨entries, [], rfl, by rw [admittedCharge]; omega⟩
  · rintro ⟨before, after, rfl, hRoom⟩
    rw [enforceTokenBudget_append, enforceTokenBudget, if_neg]
    · exact mem_append_right _ mem_cons_self
    · rw [admittedCharge] at hRoom
      omega

theorem charge_filter_add (p : Entry → Bool) (entries : List Entry) :
    charge entries =
    charge (entries.filter p) + charge (entries.filter fun entry => ¬ p entry) := by
  induction entries with
  | nil => rfl
  | cons entry entries ih =>
    rw [charge, map_cons, sum_cons, ← charge, ih]
    by_cases hp : p entry = true <;> simp [charge, hp] <;> omega

theorem charge_le_of_sublist {others : List Entry} (h : entries.Sublist others) :
    charge entries ≤ charge others :=
  (h.map Entry.tokenCount).sum_le_sum fun _ _ => Nat.zero_le _

/-! ## The pinned entries -/

theorem of_mem_pinEntry (h : entry ∈ pinEntry store sources entries sourceId) :
    entry.sourceId = some sourceId ∧
      (entry ∈ entries ∨ entry ∈ pinEntry store sources [] sourceId) := by
  unfold pinEntry at h ⊢
  split at h
  · cases h
  next hScope =>
    rw [if_neg hScope]
    split at h
    next best hBest =>
      obtain rfl := Option.some.inj h
      have hMem := mem_filter.mp (argmax_mem hBest)
      exact ⟨of_decide_eq_true hMem.2, .inl hMem.1⟩
    next =>
      refine ⟨?_, .inr h⟩
      obtain ⟨chunk, hChunk, rfl⟩ := map_eq_some_iff.mp h
      have hMem := mem_filter.mp (mem_sortOn.mp (mem_of_head? hChunk))
      exact congrArg some (of_decide_eq_true hMem.2)

theorem exists_pinEntry (hScope : (sourceById sources sourceId).isSome)
    (hChunk : ∃ chunk ∈ store.chunks, chunk.sourceId = sourceId) :
    ∃ entry, pinEntry store sources entries sourceId = some entry := by
  obtain ⟨chunk, hMem, hSource⟩ := hChunk
  unfold pinEntry
  rw [if_neg (by simpa using isSome_iff_ne_none.mp hScope)]
  split
  next best _ => exact ⟨best, rfl⟩
  next =>
    have hIn : chunk ∈ sortOn KnowledgeChunk.chunkIndex (store.chunks.filter fun chunk =>
        chunk.sourceId = sourceId) :=
      mem_sortOn.mpr (mem_filter.mpr ⟨hMem, decide_eq_true hSource⟩)
    rw [List.head?_eq_some_head (ne_nil_of_mem hIn)]
    exact ⟨_, rfl⟩

theorem exists_mem_offered (hPinned : sourceId ∈ request.pinnedSourceIds)
    (hScope : (sourceById sources sourceId).isSome)
    (hChunk : ∃ chunk ∈ store.chunks, chunk.sourceId = sourceId) :
    ∃ entry ∈ offeredEntries settings store sources request entries,
      entry.sourceId = some sourceId := by
  unfold offeredEntries
  dsimp only
  generalize diversify settings.maxChunksPerSource _ [] 0 (rank entries) = ranked
  by_cases hRanked : (ranked.any fun entry => entry.sourceId = some sourceId) = true
  · obtain ⟨entry, hMem, hSource⟩ := any_eq_true.mp hRanked
    exact ⟨entry, mem_append_left _ hMem, of_decide_eq_true hSource⟩
  · obtain ⟨entry, hEntry⟩ := @exists_pinEntry store sources entries sourceId hScope hChunk
    refine ⟨entry, mem_append_right _ ?_, (of_mem_pinEntry hEntry).1⟩
    rw [pinnedEntries_eq]
    refine mem_flatMap.mpr ⟨sourceId, hPinned, ?_⟩
    rw [if_neg hRanked]
    exact mem_toList.mpr hEntry

/-- The texts of a packet keep the budget, and its pins stay, where the others leave room. -/
theorem respectsBudget_of_leavesRoom (settings : Settings) (store : KnowledgeStore)
    (sources : List KnowledgeSource) (request : Request) (entries : List Entry)
    (h : LeavesRoom settings store sources request entries) :
    RespectsBudget settings store sources request entries := by
  constructor
  · rcases h.charged with hCharged | hAll
    · have hSupplied : ∀ entry ∈ packetEntries settings store sources request entries,
          entry.supplied ≤ entry.tokenCount := by
        intro entry hMem
        obtain ⟨before, after, hOffered, hRoom⟩ := mem_enforceTokenBudget.mp hMem
        exact hCharged before entry after hOffered hRoom
      refine (sum_le_sum hSupplied).trans ?_
      exact (Nat.zero_add _).symm.le.trans (sum_enforceTokenBudget (Nat.zero_le _))
    · refine le_trans ?_ hAll
      exact (enforceTokenBudget_sublist.map Entry.supplied).sum_le_sum fun _ _ => Nat.zero_le _
  · intro hFits sourceId hPinned hScope hChunk
    obtain ⟨found, hFound, hSource⟩ :=
      @exists_mem_offered settings store sources request entries sourceId hPinned hScope hChunk
    -- the first entry of the source, before which every other one is of another source
    obtain ⟨entry, hFirst⟩ : ∃ entry, (offeredEntries settings store sources request entries).find?
        (fun entry => entry.sourceId = some sourceId) = some entry :=
      Option.isSome_iff_exists.mp (find?_isSome.mpr ⟨found, hFound, decide_eq_true hSource⟩)
    obtain ⟨hIs, before, after, hOffered, hBefore⟩ := find?_eq_some_iff_append.mp hFirst
    have hEntry : entry.sourceId = some sourceId := of_decide_eq_true hIs
    refine ⟨entry, mem_enforceTokenBudget.mpr ⟨before, after, hOffered, ?_⟩, hEntry⟩
    have hRoom := h.pins hFits sourceId hPinned hScope hChunk before entry after hOffered hEntry
      fun other hOther => by simpa using hBefore other hOther
    have hSplit := charge_filter_add (fun other => other.IsPinned request.pinnedSourceIds)
      (enforceTokenBudget (orNat request.tokenBudget settings.tokenBudget) 0 before)
    have hPins := charge_le_of_sublist ((@enforceTokenBudget_sublist before
      (orNat request.tokenBudget settings.tokenBudget) 0).filter
        fun other => decide (other.IsPinned request.pinnedSourceIds))
    simp only [decide_eq_true_eq] at hSplit
    rw [admittedCharge]
    omega

def pinnedSources : List KnowledgeSource :=
  ["s1", "s2", "s3"].map fun sourceId =>
    { sourceId, sourceType := .paper, canonicalUri := "upload://" ++ sourceId, digest := sourceId
      ingestedAt := "2026-01-01T00:00:00+00:00" }

def wordChunk (sourceId text : String) (tokenCount : Nat) : KnowledgeChunk where
  chunkId := sourceId ++ "-c"
  sourceId := sourceId
  chunkIndex := 0
  text := text
  digest := sourceId
  tokenCount := tokenCount

def pinnedStore : KnowledgeStore where
  sources := paperStore.sources
  chunks := [wordChunk "s1" "graph" 2, wordChunk "s2" "tree" 2, wordChunk "s3" "network" 10]
  events := []

/-- The second ranked entry is too large for the rest of the budget, the pinned one is not. -/
theorem respectsBudget_pinned :
    RespectsBudget { tokenBudget := 6 } pinnedStore pinnedSources
        { runId := "run-1", query := "graph", pinnedSourceIds := ["s2"] }
        [chunkEntry pinnedSources (wordChunk "s1" "graph" 2) 3 "lexical",
          chunkEntry pinnedSources (wordChunk "s3" "network" 10) 2 "lexical"] ∧
      (packetEntries { tokenBudget := 6 } pinnedStore pinnedSources
        { runId := "run-1", query := "graph", pinnedSourceIds := ["s2"] }
        [chunkEntry pinnedSources (wordChunk "s1" "graph" 2) 3 "lexical",
          chunkEntry pinnedSources (wordChunk "s3" "network" 10) 2 "lexical"]).map
            (fun entry => entry.sourceId) = [some "s1", some "s2"] := by
  have hOffered : offeredEntries { tokenBudget := 6 } pinnedStore pinnedSources
      { runId := "run-1", query := "graph", pinnedSourceIds := ["s2"] }
      [chunkEntry pinnedSources (wordChunk "s1" "graph" 2) 3 "lexical",
        chunkEntry pinnedSources (wordChunk "s3" "network" 10) 2 "lexical"] =
      [chunkEntry pinnedSources (wordChunk "s1" "graph" 2) 3 "lexical",
        chunkEntry pinnedSources (wordChunk "s3" "network" 10) 2 "lexical",
        chunkEntry pinnedSources (wordChunk "s2" "tree" 2) 0 "lexical"] := by
    decide +kernel
  refine ⟨respectsBudget_of_leavesRoom _ _ _ _ _ ⟨.inl ?_, ?_⟩, by decide +kernel⟩
  · intro before entry after hSplit hRoom
    rw [hOffered] at hSplit
    rcases before with _ | ⟨first, _ | ⟨second, _ | ⟨third, before⟩⟩⟩
    · obtain ⟨rfl, _⟩ := List.cons.inj hSplit
      decide +kernel
    · simp only [cons_append, nil_append, List.cons.injEq] at hSplit
      obtain ⟨rfl, rfl, _⟩ := hSplit
      exact absurd hRoom (by decide +kernel)
    · obtain ⟨rfl, rfl, rfl, _⟩ := hSplit
      decide +kernel
    · simp at hSplit
  · intro _ sourceId hPinned _ _ before entry after hSplit hSource _
    rw [mem_singleton.mp hPinned] at hSource
    rw [hOffered] at hSplit
    rcases before with _ | ⟨first, _ | ⟨second, _ | ⟨third, before⟩⟩⟩
    · obtain ⟨rfl, _⟩ := List.cons.inj hSplit
      exact absurd hSource (by decide)
    · obtain ⟨rfl, rfl, _⟩ := hSplit
      exact absurd hSource (by decide)
    · obtain ⟨rfl, rfl, rfl, _⟩ := hSplit
      decide +kernel
    · simp at hSplit

def recordedStore : KnowledgeStore where
  sources := paperStore.sources
  chunks := []
  events := [{
    eventId := "event-1", sequenceNumber := 1, runId := "run-1", source := "orchestrator"
    eventType := "artifact.recorded"
    payload := [("artifact", .dict [("uri", .str "artifact://job-1/metrics.json")])] }]

def recordedLibraries : Libraries :=
  { paperLibraries with
    str := fun _ => "\x7b'artifact': \x7b'uri': 'artifact://job-1/metrics.json'\x7d\x7d" }

/-- The event is charged its payload, and costs more with its heading. -/
theorem event_undercharged :
    ¬RespectsBudget { tokenBudget := 18 } recordedStore [] paperRequest
      (retrieveRunEvents recordedLibraries recordedStore paperRequest) := by
  intro h
  exact absurd h.budget (by decide +kernel)

end Glasslab.Knowledge
