import Glasslab.Knowledge.Sources
import Glasslab.Knowledge.ContextBlocks

/-!
# Knowledge retrieval

`retrieve` of `app/knowledge_manager.py`: the sources that the role, the turn and the run allow are
listed, the queries of the plan are run against the dense index or the full-text index, the hits are
merged per chunk, the artifact events of the run are added, and what is ranked, spread over the
sources and within the token budget makes up the packet.

The full-text engine, the dense index and what the standard library knows of characters are
parameters. Scores are exact rationals.
-/

namespace Glasslab.Knowledge

open Foundation Corpus

structure KnowledgeChunk where
  chunkId : String
  sourceId : String
  chunkIndex : Nat
  text : String
  digest : String
  tokenCount : Nat
  indexVersion : String := "v1"

structure StoredEvent extends EventRecord where
  eventId : String

structure KnowledgeStore where
  sources : SourceTable
  chunks : List KnowledgeChunk
  events : List StoredEvent

structure Raised where
  type : String
  message : String
  deriving DecidableEq, Repr

structure DenseIndex where
  /-- `readiness`, with the error that `_dense_entries` makes of it. -/
  readiness : Except Raised Unit
  /-- The ids and scores of the nearest chunks, with the embedding of the query. -/
  search : (query : String) → (sourceIds : List String) → (k : Nat) →
    Except Raised (List (String × ℚ))

structure Libraries where
  /-- `str.lower`. -/
  lower : List Char → List Char
  /-- `str.isalnum` of one character. -/
  isalnum : Char → Bool
  /-- Does one of the `SECRET_PATTERNS` match? -/
  containsSecrets : List Char → Bool
  /-- SHA-256 in hexadecimal digits. -/
  digestText : List Char → String
  /-- `str` of a payload. -/
  str : Payload → String
  /-- The rows of `knowledge_chunks_fts` that match the terms of a query, with their `bm25`. -/
  fullText : (query : String) → Except Raised (List (String × ℚ))

structure Settings where
  maxResults : Nat := 10
  tokenBudget : Nat := 4000
  maxChunksPerSource : Nat := 3
  denseIndex : Option DenseIndex := none
  defaultRetrievalMode : String := "lexical"

/-- What decides the source types. -/
structure Turn where
  agent : AgentName
  turnNumber : Nat
  turnKind : TurnKind
  sourceTypeScope : Option (Finset SourceType) := none

/-- The other arguments of `retrieve`. -/
structure Request where
  runId : String
  query : String
  indexVersion : String := "v1"
  maxResults : Option Nat := none
  tokenBudget : Option Nat := none
  runScope : Option String := none
  allowedSourceTypes : List String := []
  retrievalMode : Option String := none
  additionalQueries : List String := []
  sourceIds : Option (List String) := none
  pinnedSourceIds : List String := []
  includeExcerpts : Bool := false

structure RankedSource extends Attributes where
  mode : String
  verified : Bool
  text : Option String
  deriving DecidableEq, Repr

structure ContextPacket where
  runId : String
  agent : AgentName
  turnNumber : Nat
  turnKind : TurnKind
  query : String
  indexVersion : String
  rankedSources : List RankedSource
  exactTextSupplied : Option (List Char)
  tokenBudget : Nat
  retrievalModeRequested : String
  retrievalModeActual : String
  retrievalFallbackReason : String
  deriving DecidableEq, Repr

/-- `str.split`. -/
def splitWords (text : List Char) : List (List Char) :=
  (text.splitOnP isSpace).filter (· ≠ [])

def collapse (text : List Char) : List Char := [' '].intercalate (splitWords text)

def verifyExcerpt (excerpt chunkText : String) : Bool :=
  collapse excerpt.toList ≠ [] ∧ collapse excerpt.toList <:+: collapse chunkText.toList

def estimateTokens (text : List Char) : Nat :=
  let words := (splitWords text).length
  if words = 0 then 1 else max 1 (max words ((text.length + 2) / 3))

def stopwords : List (List Char) :=
  splitWords ("a an and are as at be been being but by can could did do does doing done " ++
    "for from had has have having he her hers him his how i if in into is it its " ++
    "me might may more most must my no nor not of off on or our ours out over " ++
    "shall she should so some such than that the their theirs them then there " ++
    "these they this those through to too under until up upon us very was we were " ++
    "what when where which while who whom why will with would you your yours " ++
    "about above after again against all also any because before below between " ++
    "both during each every few further here just much many neither once only " ++
    "other own same several since still well yet " ++
    "please note see seen show shows shown given give gave need needs required " ++
    "based following above below across along around " ++
    "explain tell describe compare contrast versus difference differences " ++
    "among list summarize outline detail discuss evaluate assess " ++
    "provide answer answers asked asking ask question questions " ++
    "complete requested return draft review revise revision approve approval").toList

/-- `_lexical_score`: how many terms of the query the text holds. -/
def lexicalScore (libs : Libraries) (text query : List Char) : Nat :=
  let filtered := (splitWords query).filter fun token =>
    2 < token.length ∧ (libs.lower token).any libs.isalnum ∧ libs.lower token ∉ stopwords
  (filtered.map libs.lower).dedup.countP fun term => term <:+: libs.lower text

/-! ## Candidates -/

/-- `allowed`: the scope of the caller within the types of the agent, or those of the turn. -/
def Turn.allowed (turn : Turn) : Finset SourceType :=
  match turn.sourceTypeScope with
  | some scope => scope ∩ agentSourceTypes turn.agent
  | none => defaultSourceTypes turn.agent turn.turnKind

def queryPlan (query : String) (additional : List String) : List String :=
  additional.foldl (fun queries extra =>
    let extra := String.ofList (collapse extra.toList)
    if extra = "" ∨ extra ∈ queries then queries else queries ++ [extra]) [query]

def scopedSources (store : KnowledgeStore) (allowed : Finset SourceType) (request : Request) :
    List KnowledgeSource :=
  let sources := store.sources.list allowed request.runScope
  match request.sourceIds with
  | some sourceIds => sources.filter fun source => source.sourceId ∈ sourceIds
  | none =>
    sources ++ (store.sources.list ∅ none).filter fun source =>
      source.sourceId ∈ request.pinnedSourceIds ∧
        source.sourceId ∉ sources.map KnowledgeSource.sourceId

def sourceById (sources : List KnowledgeSource) (sourceId : String) : Option KnowledgeSource :=
  sources.find? fun source => source.sourceId = sourceId

def sourceTypeBoost : SourceType → ℚ
  | .runArtifact => 2
  | .evaluationContract => 3 / 2
  | .runReport => 1
  | _ => 1 / 2

def chunkEntry (sources : List KnowledgeSource) (chunk : KnowledgeChunk) (score : ℚ)
    (mode : String) : Entry where
  kind := .chunk
  entryId := chunk.chunkId
  sourceId := some chunk.sourceId
  uri := ((sourceById sources chunk.sourceId).map KnowledgeSource.canonicalUri).getD chunk.sourceId
  digest := chunk.digest
  scope := (sourceById sources chunk.sourceId).bind KnowledgeSource.runScope
  score := score
  text := chunk.text
  tokenCount := chunk.tokenCount
  mode := mode
  verified := verifyExcerpt chunk.text chunk.text

def scoreChunkHit (libs : Libraries) (sources : List KnowledgeSource) (query : String)
    (hit : KnowledgeChunk × ℚ) : Entry :=
  let lexical := lexicalScore libs hit.1.text.toList query.toList
  let boost : ℚ :=
    match sourceById sources hit.1.sourceId with
    | none => 0
    | some source =>
      sourceTypeBoost source.sourceType +
        (if source.accessPolicy = .runApproved then 1 / 2 else 0) +
        (if source.sourceType = .runArtifact then 1 else 0)
  chunkEntry sources hit.1 (lexical * 3 - hit.2 + boost) "lexical"

def searchKnowledgeChunks (libs : Libraries) (store : KnowledgeStore) (query : String)
    (sourceIds : List String) (limit : Nat) : Except Raised (List (KnowledgeChunk × ℚ)) := do
  let matching ← libs.fullText query
  let joined := store.chunks.flatMap fun chunk =>
    (matching.filter fun row => row.1 = chunk.chunkId).map fun row => (chunk, row.2)
  let rows := joined.filter fun hit => sourceIds = [] ∨ hit.1.sourceId ∈ sourceIds
  pure (((sortOn Prod.snd rows).take (limit * 3)).take limit)

/-- `hydrate` for one chunk. -/
def KnowledgeStore.chunk? (store : KnowledgeStore) (chunkId : String) : Option KnowledgeChunk :=
  store.chunks.find? fun chunk => chunk.chunkId = chunkId

/-- The hits of the dense index that belong to the sources, in at most three attempts with a larger
and larger `k`. -/
def collectDense (index : DenseIndex) (store : KnowledgeStore) (query : String)
    (sourceIds : List String) (limit : Nat) :
    (attempts : Nat) → (k : Nat) → (collected : List (String × ℚ)) →
      Except Raised (List (String × ℚ))
  | 0, _, collected => pure collected
  | attempts + 1, k, collected => do
    let raw ← index.search query sourceIds k
    let collected := raw.foldl (fun collected hit =>
      match store.chunk? hit.1 with
      | none => collected
      | some row =>
        if row.sourceId ∉ sourceIds then collected
        else if (collected.lookup hit.1).isSome then collected
        else collected ++ [hit]) collected
    if min limit raw.length ≤ collected.length ∨ 4096 ≤ k then pure collected
    else collectDense index store query sourceIds limit attempts (k * 4) collected

def denseEntries (index : DenseIndex) (store : KnowledgeStore) (sources : List KnowledgeSource)
    (limit : Nat) (query : String) : Except Raised (List Entry) := do
  index.readiness
  let sourceIds := sources.map KnowledgeSource.sourceId
  let collected ← collectDense index store query sourceIds limit 3 (max limit 8) []
  let top := (sortOn (fun hit => toLex (-hit.2, hit.1)) collected).take limit
  pure (top.filterMap fun hit =>
    (store.chunk? hit.1).map fun row => chunkEntry sources row hit.2 "dense")

/-- Keep the better of two entries of one chunk. -/
def mergeBest (merged : List (String × Entry)) (entry : Entry) : List (String × Entry) :=
  match merged.lookup entry.entryId with
  | none => Dict.set entry.entryId entry merged
  | some prior => if prior.score < entry.score then Dict.set entry.entryId entry merged else merged

/-- Run all queries and merge what they find. -/
def mergeQueries (search : String → Except Raised (List Entry)) (queries : List String) :
    Except Raised (List Entry) := do
  let merged ← queries.foldlM (fun merged query => do
    let entries ← search query
    pure (entries.foldl (fun merged entry =>
      mergeBest merged { entry with matchedQuery := some query }) merged)) []
  pure (merged.map Prod.snd)

structure Found where
  entries : List Entry
  modeRequested : String
  modeActual : String
  fallbackReason : String

def lexicalEntries (libs : Libraries) (store : KnowledgeStore) (sources : List KnowledgeSource)
    (limit : Nat) (queries : List String) : Except Raised (List Entry) :=
  let sourceIds := sources.map KnowledgeSource.sourceId
  if sourceIds = [] then pure []
  else mergeQueries (fun query => do
    let hits ← searchKnowledgeChunks libs store query sourceIds limit
    pure (hits.map (scoreChunkHit libs sources query))) queries

def findChunks (libs : Libraries) (settings : Settings) (store : KnowledgeStore)
    (sources : List KnowledgeSource) (limit : Nat) (queries : List String) (request : Request) :
    Except Raised Found := do
  let requested := orElse request.retrievalMode settings.defaultRetrievalMode
  let lexical (actual reason : String) : Except Raised Found := do
    let entries ← lexicalEntries libs store sources limit queries
    pure ⟨entries, requested, actual, reason⟩
  if requested = "dense" then
    match settings.denseIndex with
    | none => lexical "lexical(fallback)" "dense index not configured"
    | some index =>
      match mergeQueries (denseEntries index store sources limit) queries with
      | .ok [] => lexical "lexical(fallback)" "no dense hits"
      | .ok entries => pure ⟨sortOn (fun entry => -entry.score) entries, requested, "dense", ""⟩
      | .error raised => lexical "lexical(fallback)" (raised.type ++ ": " ++ raised.message)
  else lexical requested ""

/-- `_enforce_access_control`, and the event types that carry an artifact. -/
def artifactEvents : List String :=
  ["artifact.recorded", "agent.output_repaired", "agent.file_repair_completed"]

def extractArtifactUri (event : StoredEvent) : Option String :=
  if event.eventType = "artifact.recorded" then
    match event.payload.lookup "artifact" with
    | some (.dict artifact) =>
      match Payload.getStr artifact "uri" with
      | some uri => some uri
      | none => event.payload.getStr "uri"
    | _ => event.payload.getStr "uri"
  else if (event.payload.lookup "repair").isSome then
    (event.payload.getStr "path").map fun path =>
      "artifact://" ++ event.runId ++ "/workspace/" ++ path
  else none

def retrieveRunEvents (libs : Libraries) (store : KnowledgeStore) (request : Request) :
    List Entry :=
  let events := store.events.filter fun event =>
    event.runId = request.runId ∧ event.eventType ∈ artifactEvents ∧
      libs.containsSecrets (libs.str event.payload).toList = false
  events.filterMap fun event =>
    (extractArtifactUri event).bind fun uri =>
      if uri = "" then none
      else if request.allowedSourceTypes ≠ [] ∧
          ¬request.allowedSourceTypes.any (fun token => token.toList <:+: uri.toList) then
        none
      else
        let payload := libs.str event.payload
        some
          { kind := .event
            entryId := event.eventId
            sourceId := none
            uri := uri
            digest := libs.digestText
              (event.eventId ++ ":" ++ event.eventType ++ ":" ++ payload).toList
            scope := some request.runId
            score := lexicalScore libs (uri ++ " " ++ payload).toList request.query.toList
            text := "[Event " ++ event.eventId ++ "] " ++ event.eventType ++ "\nArtifact: " ++
              uri ++
              "\nPayload: " ++ payload
            tokenCount := estimateTokens (payload.toList.take 1000)
            verified := true }

def rank (entries : List Entry) : List Entry := sortOn (fun entry => -entry.score) entries

/-- `_diversify`, from a place in the ranking on. -/
def diversify (maxPerSource maxResults : Nat) :
    (perSource : List (String × Nat)) → (selected : Nat) → List Entry → List Entry
  | _, _, [] => []
  | perSource, selected, entry :: entries =>
    let key := orElse entry.sourceId entry.uri
    let count := (perSource.lookup key).getD 0
    if maxPerSource ≤ count then diversify maxPerSource maxResults perSource selected entries
    else if maxResults ≤ selected then []
    else entry :: diversify maxPerSource maxResults (Dict.set key (count + 1) perSource)
      (selected + 1) entries

def pinnedEntries (store : KnowledgeStore) (sources : List KnowledgeSource)
    (entries ranked : List Entry) (pinned : List String) : List Entry :=
  pinned.flatMap fun sourceId =>
    if ranked.any (fun entry => entry.sourceId = some sourceId) ∨
        (sourceById sources sourceId).isNone then []
    else
      let candidates := entries.filter fun entry => entry.sourceId = some sourceId
      match candidates.argmax (fun entry => entry.score) with
      | some entry => [entry]
      | none =>
        ((sortOn KnowledgeChunk.chunkIndex (store.chunks.filter fun chunk =>
          chunk.sourceId = sourceId)).head?.map fun chunk =>
            chunkEntry sources chunk 0 "lexical").toList

/-- `_enforce_token_budget`, with what is used already. -/
def enforceTokenBudget (budget : Nat) : (total : Nat) → List Entry → List Entry
  | _, [] => []
  | total, entry :: entries =>
    if budget < total + entry.tokenCount then enforceTokenBudget budget total entries
    else entry :: enforceTokenBudget budget (total + entry.tokenCount) entries

/-- `value or default` of a number. -/
def orNat (value : Option Nat) (fallback : Nat) : Nat :=
  match value with
  | some 0 | none => fallback
  | some n => n

def selectEntries (libs : Libraries) (settings : Settings) (store : KnowledgeStore)
    (allowed : Finset SourceType) (request : Request) : Except Raised Found := do
  let maxResults := orNat request.maxResults settings.maxResults
  let sources := scopedSources store allowed request
  let queries := queryPlan request.query request.additionalQueries
  let found ← findChunks libs settings store sources (maxResults * 4) queries request
  let entries := found.entries ++ retrieveRunEvents libs store request
  let ranked := diversify settings.maxChunksPerSource maxResults [] 0 (rank entries)
  let ranked := ranked ++ pinnedEntries store sources entries ranked request.pinnedSourceIds
  let budget := orNat request.tokenBudget settings.tokenBudget
  pure { found with entries := enforceTokenBudget budget 0 ranked }

def retrieve (libs : Libraries) (settings : Settings) (store : KnowledgeStore) (turn : Turn)
    (request : Request) : Except Raised ContextPacket := do
  let found ← selectEntries libs settings store turn.allowed request
  pure
    { runId := request.runId
      agent := turn.agent
      turnNumber := turn.turnNumber
      turnKind := turn.turnKind
      query := request.query
      indexVersion := request.indexVersion
      rankedSources := found.entries.map fun entry =>
        { entry with text := if request.includeExcerpts then some entry.text else none }
      exactTextSupplied := buildContextString found.entries
      tokenBudget := orNat request.tokenBudget settings.tokenBudget
      retrievalModeRequested := found.modeRequested
      retrievalModeActual := found.modeActual
      retrievalFallbackReason := found.fallbackReason }

end Glasslab.Knowledge
