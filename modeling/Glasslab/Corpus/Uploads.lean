import Glasslab.Corpus.IngestDocument

/-!
# Uploads and their projection

`KnowledgeManager.ingest_bytes` of `app/knowledge_manager.py` stores an upload as a source with
chunks of the knowledge index. `backfill_knowledge_into_rag` of `app/corpus_rag/backfill.py` makes a
document and chunks of the corpus of every source that has such chunks and no document. The id of
that document is another one than `ingest_document` gives to the document of the source.
-/

namespace Glasslab.Corpus

open Foundation Knowledge

/-! ## Uploads -/

structure UploadSettings where
  chunkSize : Int := 1500
  chunkOverlap : Int := 150
  maxSourceBytes : Nat := 2 * 1024 * 1024

structure UploadCall where
  sourceType : SourceType
  filename : String
  data : Bytes
  title : Option String := none
  sourceVersion : Option String := none
  metadata : Payload := []
  accessPolicy : AccessPolicy := .runApproved
  emitEvent : Bool := false
  forbiddenValues : List String := []
  /-- `PyMuPdfBackend().extract`. -/
  extract : Bytes → Except Raised ExtractedDocument
  now : String

/-- The components of a path that `pathlib` keeps. -/
def pathParts (path : List Char) : List (List Char) :=
  (path.splitOn '/').filter fun part => part ≠ [] ∧ part ≠ ['.']

/-- `PurePosixPath(filename.replace('\\', '/')).name`. -/
def safeName (filename : String) : String :=
  String.ofList
    (((pathParts (filename.toList.map fun c => if c = '\\' then '/' else c)).getLast?).getD
    [])

def knowledgeError (message : String) : Raised := ⟨"KnowledgeError", message⟩

def UploadCall.extractUploadText (call : UploadCall) (pipeline : Pipeline) :
    Except Raised (List Char) :=
  if pdfMagic.isPrefixOf call.data then (call.extract call.data).map ExtractedDocument.text
  else
    match String.fromUTF8? ⟨call.data.toArray⟩ with
    | some text => .ok text.toList
    | none =>
      .error (knowledgeError ("unsupported upload " ++ pipeline.pyRepr (safeName call.filename) ++
        ": not a PDF and not UTF-8 text"))

variable (pipeline : Pipeline) (settings : UploadSettings) (faults : Faults)

def UploadCall.checkedText (call : UploadCall) : Except Raised (List Char) := do
  if settings.maxSourceBytes < call.data.length then
    .error (knowledgeError ("source exceeds ingestion size limit (" ++ toString call.data.length ++
      " > " ++ toString settings.maxSourceBytes ++ " bytes)"))
  let name := safeName call.filename
  if name = "" ∨ name = "." ∨ name = ".." then
    .error (knowledgeError "upload filename must name a file")
  if (pipeline.secretPath name).isSome then
    .error (knowledgeError ("refusing to index secret path: " ++ name))
  let text ← call.extractUploadText pipeline
  if strip text = [] then
    .error (knowledgeError ("upload " ++ pipeline.pyRepr name ++ " contains no extractable text"))
  if call.forbiddenValues.any fun value => value ≠ "" ∧ value.toList <:+: text then
    .error (knowledgeError "refusing to index known secret material")
  pure text

def lastBlank (text : List Char) (start stop : Nat) : Option Nat :=
  ((List.range stop).filter fun i => start ≤ i ∧ text[i]? = some ' ').getLast?

/-- The loop of `_chunk_text`. -/
def cutChunks (text : List Char) (size overlap start : Nat) : List (List Char) :=
  if start < text.length then
    let full := min (start + size) text.length
    let stop :=
      if full < text.length then
        match lastBlank text start full with
        | some boundary => if start < boundary then boundary else full
        | none => full
      else full
    let piece := strip (slice text ⟨start, stop⟩)
    let rest :=
      if text.length ≤ stop then []
      else cutChunks text size overlap (max (stop - overlap) (start + 1))
    if piece = [] then rest else piece :: rest
  else []
termination_by text.length - start
decreasing_by omega

def UploadSettings.chunkText (settings : UploadSettings) (text : List Char) :
    Except Raised (List (List Char)) :=
  if settings.chunkSize ≤ 0 ∨ settings.chunkOverlap < 0 ∨ settings.chunkSize ≤ settings.chunkOverlap
  then .error (knowledgeError "invalid chunk sizing")
  else
    let normalized := collapse text
    if (normalized.length : Int) ≤ settings.chunkSize then
      .ok (if normalized = [] then [] else [normalized])
    else .ok (cutChunks normalized settings.chunkSize.toNat settings.chunkOverlap.toNat 0)

/-- `_build_chunks`, with ids from a number on. -/
def buildKnowledgeChunks (source : KnowledgeSource) (first : Nat) (pieces : List (List Char)) :
    List KnowledgeChunk :=
  pieces.mapIdx fun index piece =>
    { chunkId := pipeline.uuid (first + index)
      sourceId := source.sourceId
      chunkIndex := index
      text := String.ofList piece
      digest := pipeline.digests.sha256 piece
      tokenCount := estimateTokens piece
      indexVersion := source.indexVersion }

def drawIds (count : Nat) : Command Nat := fun s =>
  (.ok s.issued, { s with issued := s.issued + count })

def uploadUri (call : UploadCall) : String := "upload://" ++ safeName call.filename

def UploadCall.newSource (call : UploadCall) (number : Nat) : KnowledgeSource where
  sourceId := pipeline.uuid number
  sourceType := call.sourceType
  canonicalUri := uploadUri call
  accessPolicy := call.accessPolicy
  sourceVersion := call.sourceVersion
  digest := pipeline.sha256Bytes call.data
  ingestedAt := call.now
  title := orOther call.title (some (safeName call.filename))
  metadata := call.metadata

/-- The row that is there, with what the upload brings. -/
def refreshUpload (source existing : KnowledgeSource) : KnowledgeSource :=
  { existing with
    sourceType := source.sourceType
    runScope := orOther source.runScope existing.runScope
    accessPolicy := source.accessPolicy
    sourceVersion := source.sourceVersion
    indexVersion := source.indexVersion
    title := orOther source.title existing.title
    metadata := Dict.merge existing.metadata source.metadata
    parentSourceId := orOther source.parentSourceId existing.parentSourceId }

def withNormalizedText (text : List Char) (source : KnowledgeSource) : KnowledgeSource :=
  { source with
    metadata := Dict.set "_normalized_text" (.str (String.ofList (collapse text))) source.metadata }

/-- The event of an ingestion. Events are not among the tables here. -/
def emitIngested (emitEvent : Bool) : Command Unit :=
  if emitEvent then write faults .event .ok else pure ()

def commitSource (source : KnowledgeSource) (text : List Char) (emitEvent : Bool) :
    Command KnowledgeSource := do
  let s ← Tx.get
  let existing ← Tx.ofExcept (s.findKnowledgeSource source.digest source.canonicalUri)
  let saved := (existing.map (refreshUpload source)).getD source
  saveKnowledgeSource faults saved
  let pieces ← Tx.ofExcept ((settings.chunkText text).mapError .raised)
  let first ← drawIds pieces.length
  replaceKnowledgeChunks faults saved.sourceId (buildKnowledgeChunks pipeline saved first pieces)
  saveKnowledgeSource faults (withNormalizedText text saved)
  emitIngested faults emitEvent
  pure (withNormalizedText text saved)

def ingestBytes (call : UploadCall) : Command KnowledgeSource := do
  let text ← Tx.ofExcept ((call.checkedText pipeline settings).mapError .raised)
  let number ← drawId
  let source := call.newSource pipeline number
  if sourceValid source.canonicalUri source.title = false then
    Tx.raise (validationError "KnowledgeSource")
  else commitSource pipeline settings faults source text call.emitEvent

def SourceType.value : SourceType → String
  | .documentation => "documentation"
  | .handoff => "handoff"
  | .evaluationContract => "evaluation_contract"
  | .taskBundle => "task_bundle"
  | .datasetMetadata => "dataset_metadata"
  | .paper => "paper"
  | .techniqueCard => "technique_card"
  | .runProtocol => "run_protocol"
  | .runReport => "run_report"
  | .runArtifact => "run_artifact"
  | .implementationFile => "implementation_file"

def docTypeBySource : SourceType → DocType
  | .paper => .paper
  | .documentation => .reference
  | _ => .other

def backfillVersion : String := "knowledge-backfill-v1"

def Pipeline.stableDocId (pipeline : Pipeline) (sourceId : String) : String :=
  "kb-" ++ pipeline.digests.detId ("knowledge-backfill:" ++ sourceId)

def documentFor (source : KnowledgeSource) : RagDocumentRecord where
  docId := pipeline.stableDocId source.sourceId
  sourceId := source.sourceId
  docType := docTypeBySource source.sourceType
  title := source.title
  extractionVersion := backfillVersion
  metadata :=
    [("backfill",
      .dict [("canonical_uri", .str source.canonicalUri), ("digest", .str source.digest),
      ("source_type", .str (SourceType.value source.sourceType))])]

def chunkRecord (docId : String) (chunk : KnowledgeChunk) : ChunkRow where
  chunkId := chunk.chunkId
  sourceId := chunk.sourceId
  docId := some docId
  kind := .evidenceSpan
  chunkIndex := chunk.chunkIndex
  text := chunk.text.toList
  digest := chunk.digest
  tokenCount := chunk.tokenCount
  indexVersion := backfillVersion

/-- `list_knowledge_chunks`. -/
def RagTables.knowledgeChunksOf (tables : RagTables) (sourceId : String) : List KnowledgeChunk :=
  sortOn KnowledgeChunk.chunkIndex
    (tables.knowledgeChunks.rows.filter fun chunk => chunk.sourceId = sourceId)

structure BackfillCall where
  apply : Bool := false
  corpusSlug : String := "live-knowledge"
  corpusTitle : String := "Live knowledge corpus (backfilled)"
  sourceIds : Option (List String) := none
  limit : Option Int := none
  now : String

structure BackfillSourceReport where
  sourceId : String
  canonicalUri : String
  status : String
  chunkCount : Nat

structure BackfillReport where
  considered : Nat := 0
  skippedExisting : Nat := 0
  skippedEmpty : Nat := 0
  addedSources : Nat := 0
  addedChunks : Nat := 0
  sources : List BackfillSourceReport := []

/-- `source_ids` is a filter unless it is empty. -/
def wantedSource (sourceIds : Option (List String)) (sourceId : String) : Bool :=
  match sourceIds with
  | some (first :: rest) => sourceId ∈ first :: rest
  | _ => true

def projectSource (corpusId now : String) (document : RagDocumentRecord) (records : List ChunkRow) :
    Command Unit := do
  upsertRagDocument faults document
  replaceRagChunks faults document.sourceId records
  addCorpusSource faults ⟨corpusId, document.sourceId, now⟩

def BackfillReport.add (report : BackfillReport) (apply : Bool) (source : KnowledgeSource)
    (count : Nat) : BackfillReport :=
  { report with
    considered := report.considered + 1
    addedSources := report.addedSources + 1
    addedChunks := report.addedChunks + count
    sources := report.sources ++ [⟨source.sourceId, source.canonicalUri,
      if apply then "added" else "would-add", count⟩] }

/-- The loop of `backfill_knowledge_into_rag`. There is a corpus if the call applies. -/
def backfillLoop (call : BackfillCall) (corpusId : Option String) :
    List KnowledgeSource → Option Int → BackfillReport → Command BackfillReport
  | [], _, report => pure report
  | source :: rest, remaining, report =>
    if wantedSource call.sourceIds source.sourceId = false then
      backfillLoop call corpusId rest remaining report
    else if remaining.any fun left => left ≤ 0 then pure report
    else do
      let s ← Tx.get
      if (s.ragDocument? source.sourceId).isSome then
        backfillLoop call corpusId rest remaining
          { report with skippedExisting := report.skippedExisting + 1 }
      else if (s.knowledgeChunksOf source.sourceId).isEmpty then
        backfillLoop call corpusId rest remaining
          { report with skippedEmpty := report.skippedEmpty + 1 }
      else
        let document := documentFor pipeline source
        let records := (s.knowledgeChunksOf source.sourceId).map (chunkRecord document.docId)
        match corpusId with
        | some corpusId => projectSource faults corpusId call.now document records
        | none => pure ()
        backfillLoop call corpusId rest (remaining.map fun left => left - 1)
          (report.add call.apply source records.length)

def backfillCorpus (call : BackfillCall) : Command (Option String) :=
  if call.apply then do
    let corpusId ← corpusFor pipeline faults call.corpusSlug call.now (some call.corpusTitle)
      [("backfill", .str backfillVersion)]
    pure (some corpusId)
  else pure none

def backfillKnowledgeIntoRag (call : BackfillCall) : Command BackfillReport := do
  let corpusId ← backfillCorpus pipeline faults call
  let s ← Tx.get
  let sources ← Tx.ofExcept s.listKnowledgeSources
  backfillLoop pipeline faults call corpusId sources call.limit {}

end Glasslab.Corpus
