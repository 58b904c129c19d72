import Glasslab.Corpus.Uploads
import Glasslab.Contracts.Versions

/-!
# Healing of sources without chunks

`reingest_missing_chunks` of `app/corpus_rag/reingest.py` goes through the sources without chunks. A
source whose file is in the raw directory is ingested from it. If the file is missing and an arXiv
id is known, the PDF is downloaded, staged in the raw directory and ingested from there. A staged
file is the raw directory with the last component of the path of the source, so that it is another
file if the path has a subdirectory. `_ingest` gives the source the digest of the bytes, and
`ingest_document` finds the source by that digest and the uri of the staged file.

A path is a list of components. How the standard library reads and writes the path of a file uri and
resolves links is a parameter, as are the downloader and what the disk refuses.
-/

namespace Glasslab.Corpus

open Foundation Knowledge

structure SplitUrl where
  scheme : List Char
  netloc : List Char
  path : List Char

def schemeChar (c : Char) : Bool := c.isAlphanum ∨ c = '+' ∨ c = '-' ∨ c = '.'

def splitScheme (url : List Char) : List Char × List Char :=
  let before := url.takeWhile fun c => c ≠ ':'
  match url.dropWhile fun c => c ≠ ':' with
  | ':' :: rest =>
    if (before.head?.any Char.isAlpha) ∧ before.all schemeChar then (before.map Char.toLower, rest)
    else ([], url)
  | _ => ([], url)

def splitNetloc (url : List Char) : List Char × List Char :=
  let inNetloc := fun c => c ≠ '/' ∧ c ≠ '?' ∧ c ≠ '#'
  match url with
  | '/' :: '/' :: rest => (rest.takeWhile inNetloc, rest.dropWhile inNetloc)
  | _ => ([], url)

/-- What `urlsplit` removes from a url. -/
def stripUrl (url : List Char) : List Char :=
  (url.dropWhile fun c => c.toNat ≤ 32).filter fun c => c ≠ '\t' ∧ c ≠ '\r' ∧ c ≠ '\n'

/-- `urllib.parse.urlsplit`, up to the query and the fragment. It raises for some netlocs. -/
def urlsplit (netlocError : List Char → Bool) (url : String) : Except Raised SplitUrl :=
  let (scheme, rest) := splitScheme (stripUrl url.toList)
  let (netloc, rest) := splitNetloc rest
  if netlocError netloc then .error ⟨"ValueError", "Invalid IPv6 URL"⟩
  else .ok ⟨scheme, netloc, rest.takeWhile fun c => c ≠ '?' ∧ c ≠ '#'⟩

def stripPdfSuffix (name : List Char) : List Char :=
  if (name.drop (name.length - 4)).map Char.toLower = ".pdf".toList then name.take (name.length - 4)
  else name

/-- `$` matches before a final newline. -/
def beforeEnd (text : List Char) : List Char :=
  if text.getLast? = some '\n' then text.dropLast else text

/-- `(v\d+)?` to the end. -/
def isVersionSuffix (text : List Char) : Bool :=
  match text with
  | [] => true
  | 'v' :: digits => digits ≠ [] ∧ digits.all Contracts.isDecimal
  | _ => false

/-- `_MODERN_ARXIV_ID`. -/
def isModernArxivId (text : List Char) : Bool :=
  let text := beforeEnd text
  let month := text.takeWhile Contracts.isDecimal
  match text.dropWhile Contracts.isDecimal with
  | '.' :: rest =>
    let number := rest.takeWhile Contracts.isDecimal
    month.length = 4 ∧ (number.length = 4 ∨ number.length = 5) ∧
      isVersionSuffix (rest.dropWhile Contracts.isDecimal)
  | _ => false

def archiveChar (c : Char) : Bool := c.isAlpha ∨ c = '.' ∨ c = '-'

/-- An archive, a separator, seven digits and a version: the groups of `_OLD_ARXIV_ID`, or of
`_OLD_STYLE_FULL_ARXIV_ID`, by the separator. -/
def oldArxivId (separator : Char) (text : List Char) : Option (List Char × List Char) :=
  let text := beforeEnd text
  let archive := text.takeWhile archiveChar
  match text.dropWhile archiveChar with
  | c :: rest =>
    let number := rest.take 7
    if c = separator ∧ archive.head?.any Char.isAlpha ∧ number.length = 7 ∧
        number.all Contracts.isDecimal ∧ isVersionSuffix (rest.drop 7) then
      some (archive, rest)
    else none
  | [] => none

def parseArxivId (name : List Char) : Option (List Char) :=
  let stem := stripPdfSuffix name
  if isModernArxivId stem then some stem
  else (oldArxivId '_' stem).map fun (archive, rest) => archive ++ '/' :: rest

def afterMarker (text : List Char) : List Char :=
  match breakAt "/abs/".toList text with
  | some (_, rest) => rest
  | none =>
    match breakAt "/pdf/".toList text with
    | some (_, rest) => rest
    | none => text

/-- `_arxiv_id_from_metadata`, for one entry. -/
def arxivIdFromEntry (value : String) : Option (List Char) :=
  let text := afterMarker (strip value.toList)
  let text := stripPdfSuffix (text.reverse.dropWhile fun c => c = '/').reverse
  if isModernArxivId text ∨ (oldArxivId '/' text).isSome then some text else none

def arxivIdFromMetadata (metadata : Payload) : Option (List Char) :=
  ["arxiv_id", "source_url"].findSome? fun key =>
    (Payload.getStr metadata key).bind arxivIdFromEntry

def arxivPdfUrl (arxivId : List Char) : String := "https://arxiv.org/pdf/" ++ String.ofList arxivId

/-! ## The disk -/

abbrev Path := List String

/-- How the standard library reads and writes the path of a file uri. -/
structure Disk where
  /-- Does `urlsplit` raise for this netloc? -/
  netlocError : List Char → Bool
  /-- `Path(url2pathname(...))`. -/
  url2pathname : List Char → Path
  /-- `Path.resolve`. -/
  resolve : Path → Path
  /-- `Path.as_uri`. -/
  asUri : Path → String
  asUri_file : ∀ path, ∃ rest, asUri path = "file://" ++ rest

/-- The store and what is under the paths after links are resolved. -/
structure World where
  store : RagStore
  files : Path → Option Bytes
  /-- The sources that something has been downloaded for. -/
  fetched : List String := []
  /-- The files that have been staged, with the source that each is for. -/
  staged : List (String × Path) := []

abbrev Healer := Tx World Failure

def onStore {α : Type} (command : Command α) : Healer α := fun w =>
  ((command w.store).1, { w with store := (command w.store).2 })

/-- What the healer is set up with. -/
structure Healing where
  pipeline : Pipeline
  faults : Faults
  disk : Disk
  root : Path
  apply : Bool := false
  /-- The download with a number. -/
  download : Nat → String → Except Raised Bytes
  /-- `PyMuPdfBackend().extract`. -/
  extract : Bytes → Except Raised ExtractedDocument
  /-- What the disk raises for a path that is read or written. -/
  diskFault : Path → Option Raised
  /-- What `is_file` raises for a path. -/
  statFault : Path → Option Raised := fun _ => none
  now : String

variable (healing : Healing)

/-- `_path_from_file_uri`, with the scheme of a uri that is none. -/
def Disk.pathFromFileUri (disk : Disk) (uri : String) :
    Except Raised (Except (List Char) Path) := do
  let parsed ← urlsplit disk.netlocError uri
  if parsed.scheme ≠ "file".toList ∨ (parsed.netloc ≠ [] ∧ parsed.netloc ≠ "localhost".toList) then
    pure (.error parsed.scheme)
  else pure (.ok (disk.url2pathname parsed.path))

def Disk.isUnder (disk : Disk) (path root : Path) : Bool :=
  (disk.resolve root).isPrefixOf (disk.resolve path)

def pathName (path : Path) : List Char := (path.getLast?.getD "").toList

inductive Decision where
  | unrecoverable (detail : String)
  | local (path : Path)
  | fetch (name : List Char) (arxivId : List Char) (url : String)

/-- `path.is_file()`. -/
def Healing.isFile (files : Path → Option Bytes) (path : Path) : Except Raised Bool :=
  match healing.statFault path with
  | some error => .error error
  | none => .ok (files (healing.disk.resolve path)).isSome

def Healing.classify (files : Path → Option Bytes) (source : KnowledgeSource) :
    Except Raised Decision := do
  match ← healing.disk.pathFromFileUri source.canonicalUri with
  | .error scheme =>
    pure (.unrecoverable ("canonical_uri scheme " ++
      healing.pipeline.pyRepr (String.ofList scheme) ++ " is not a local file"))
  | .ok path =>
    if healing.disk.isUnder path healing.root = false then
      pure (.unrecoverable "path is outside the raw root")
    else if ← healing.isFile files path then pure (.local path)
    else
      match (parseArxivId (pathName path)).or (arxivIdFromMetadata source.metadata) with
      | none => pure (.unrecoverable "file missing and no recoverable arXiv id")
      | some arxivId =>
        pure (.fetch (stripPdfSuffix (pathName path)) arxivId (arxivPdfUrl arxivId))

def unsafeName (name : List Char) : Bool :=
  name = [] ∨ name = ['.'] ∨ name = ['.', '.'] ∨ '/' ∈ name ∨ '\\' ∈ name ∨ '\x00' ∈ name

/-- The file that `stage_raw_pdf` writes for a name. -/
def Healing.stagedPath (name : List Char) : Path :=
  healing.root ++ [String.ofList (stripPdfSuffix name ++ ".pdf".toList)]

def setFile (path : Path) (content : Option Bytes) (w : World) : World :=
  { w with files := fun other => if other = path then content else w.files other }

def Healing.stageRawPdf (data : Bytes) (name : List Char) : Healer Path :=
  if unsafeName (stripPdfSuffix name) then
    Tx.raise (.raised ⟨"ValueError", "unsafe raw-pdf name: " ++
      healing.pipeline.pyRepr (String.ofList (stripPdfSuffix name))⟩)
  else
    match healing.diskFault (healing.stagedPath name) with
    | some error => Tx.raise (.raised error)
    | none => do
      Tx.modify (setFile (healing.disk.resolve (healing.stagedPath name)) (some data))
      pure (healing.stagedPath name)

/-- `metadata.get('authors') or None`, whatever was stored under that key. -/
def savedAuthors (metadata : Payload) : Value :=
  let value := (metadata.lookup "authors").getD .null
  if isTruthy value then value else .null

/-- `metadata.get('year')`. -/
def savedYear (metadata : Payload) : Value := (metadata.lookup "year").getD .null

/-- The call that `_ingest` makes. -/
def Healing.ingestCall (source : KnowledgeSource) (data : Bytes) (canonicalUri : String)
    (metadata : Payload) : IngestCall where
  data := data
  canonicalUri := canonicalUri
  title := source.title
  docType := if source.sourceType = .paper then .paper else .reference
  authors := savedAuthors source.metadata
  year := savedYear source.metadata
  extract := healing.extract
  metadata := metadata
  now := healing.now

def Healing.alignDigest (source : KnowledgeSource) (data : Bytes) : Command Unit :=
  let digest := healing.pipeline.sha256Bytes data
  if digest ≠ source.digest then
    saveKnowledgeSource healing.faults { source with digest := digest }
  else pure ()

def Healing.ingest (source : KnowledgeSource) (data : Bytes) (canonicalUri : String)
    (metadata : Payload) : Command Nat := do
  healing.alignDigest source data
  let report ← ingestDocument healing.pipeline healing.faults
    (healing.ingestCall source data canonicalUri metadata)
  pure (report.nSectionUnits + report.nEvidenceSpans)

/-- `_HealingContext.fetch`, for a source. -/
def Healing.fetch (sourceId url : String) : Healer Bytes := do
  let w ← Tx.get
  Tx.modify fun w => { w with fetched := w.fetched ++ [sourceId] }
  Tx.ofExcept ((healing.download w.fetched.length url).mapError .raised)

inductive Status where
  | healedLocal
  | healedFetch
  | wouldLocal
  | wouldFetch
  | skipped
  | unrecoverable
  | empty
  | error
  deriving DecidableEq, Repr

/-- `_heal_source` for a file that is there. -/
def Healing.healLocal (source : KnowledgeSource) (path : Path) : Healer (Status × Nat) := do
  let w ← Tx.get
  match healing.diskFault path, w.files (healing.disk.resolve path) with
  | none, some data => do
    let chunks ← onStore (healing.ingest source data source.canonicalUri [])
    pure (if chunks = 0 then (.empty, 0) else (.healedLocal, chunks))
  | some error, _ => Tx.raise (.raised error)
  | none, none => Tx.raise (.raised ⟨"FileNotFoundError", "No such file or directory"⟩)

/-- The ingestion of a staged file, which is removed if the ingestion raises. -/
def Healing.ingestStaged (source : KnowledgeSource) (data : Bytes) (staged : Path)
    (metadata : Payload) : Healer Nat := do
  let outcome ← Tx.result (onStore (healing.ingest source data
    (healing.disk.asUri (healing.disk.resolve staged)) metadata))
  match outcome with
  | .ok chunks => pure chunks
  | .error failure => do
    Tx.modify (setFile (healing.disk.resolve staged) none)
    Tx.raise failure

def noteStaged (sourceId : String) (path : Path) (w : World) : World :=
  { w with staged := w.staged ++ [(sourceId, path)] }

/-- `_heal_source` for a file that is downloaded. -/
def Healing.healFetch (source : KnowledgeSource) (name arxivId : List Char) (url : String) :
    Healer (Status × Nat) := do
  let data ← healing.fetch source.sourceId url
  let staged ← healing.stageRawPdf data name
  Tx.modify (noteStaged source.sourceId staged)
  let chunks ← healing.ingestStaged source data staged
    [("source_url", .str url), ("arxiv_id", .str (String.ofList arxivId))]
  pure (if chunks = 0 then (.empty, 0) else (.healedFetch, chunks))

/-- `_heal_source`. Nothing is healed where nothing can be recovered. -/
def Healing.healSource (source : KnowledgeSource) : Decision → Healer (Status × Nat)
  | .unrecoverable _ => pure (.unrecoverable, 0)
  | .local path => if healing.apply then healing.healLocal source path else pure (.wouldLocal, 0)
  | .fetch name arxivId url =>
    if healing.apply then healing.healFetch source name arxivId url else pure (.wouldFetch, 0)

/-! ## The loop -/

inductive FailureClass where
  | secretRejected
  | other
  deriving DecidableEq, Repr

def failureClass : Failure → FailureClass
  | .raised error =>
    if error.type = "KnowledgeError" ∧ "secret pattern".toList <:+: error.message.toList then
      .secretRejected
    else .other
  | _ => .other

structure ReingestSourceReport where
  sourceId : String
  canonicalUri : String
  status : Status
  /-- The detail of a source that cannot be recovered, or the exception. -/
  detail : Option String := none
  failure : Option Failure := none
  addedChunks : Nat := 0

structure ReingestReport where
  considered : Nat := 0
  added : Nat := 0
  addedChunks : Nat := 0
  skippedHasChunks : Nat := 0
  unrecoverable : Nat := 0
  empty : Nat := 0
  errors : Nat := 0
  secretRejected : Nat := 0
  sources : List ReingestSourceReport := []

/-- `_add`. -/
def ReingestReport.add (report : ReingestReport) (entry : ReingestSourceReport) : ReingestReport :=
  { report with sources := report.sources ++ [entry] }

structure ReingestCall where
  limit : Option Int := none
  sourceIds : Option (List String) := none

structure Pass where
  world : World
  report : ReingestReport := {}
  actions : Nat := 0
  /-- The loop has been left at the limit. -/
  ended : Bool := false
  /-- What has been raised out of the loop. -/
  raised : Option Failure := none

def ReingestReport.addFailure (report : ReingestReport) (source : KnowledgeSource)
    (failure : Failure) : ReingestReport :=
  { report with
    errors := report.errors + 1
    secretRejected := report.secretRejected +
      if failureClass failure = FailureClass.secretRejected then 1 else 0 }.add
    { sourceId := source.sourceId, canonicalUri := source.canonicalUri, status := .error,
      failure := some failure }

def ReingestReport.addOutcome (report : ReingestReport) (source : KnowledgeSource) (status : Status)
    (chunks : Nat) : ReingestReport :=
  let healed := status = Status.healedLocal ∨ status = Status.healedFetch
  { report with
    added := report.added + if healed then 1 else 0
    addedChunks := report.addedChunks + if healed then chunks else 0
    empty := report.empty + if status = Status.empty then 1 else 0 }.add
    { sourceId := source.sourceId, canonicalUri := source.canonicalUri, status := status,
      addedChunks := chunks }

/-- `_has_rag_chunks`. -/
def hasRagChunks (tables : RagTables) (sourceId : String) : Bool := tables.chunksOf sourceId ≠ []

def Healing.act (pass : Pass) (source : KnowledgeSource) (decision : Decision) : Pass :=
  match healing.healSource source decision pass.world with
  | (.error failure, world) =>
    { pass with world := world, report := pass.report.addFailure source failure }
  | (.ok (status, chunks), world) =>
    { pass with
      world := world
      report := pass.report.addOutcome source status chunks
      actions := pass.actions + 1 }

/-- `limit is not None and actions >= limit`. -/
def Pass.atLimit (pass : Pass) (call : ReingestCall) : Bool :=
  call.limit.any fun limit => limit ≤ (pass.actions : Int)

/-- The loop of `reingest_missing_chunks`, for one source that is wanted and has no chunks. -/
def Healing.visit (call : ReingestCall) (pass : Pass) (source : KnowledgeSource) : Pass :=
  match healing.classify pass.world.files source with
  | .error error => { pass with raised := some (.raised error) }
  | .ok (.unrecoverable detail) =>
    { pass with
      report := { pass.report with unrecoverable := pass.report.unrecoverable + 1 }.add
        { sourceId := source.sourceId, canonicalUri := source.canonicalUri,
          status := .unrecoverable, detail := some detail } }
  | .ok decision =>
    if pass.atLimit call then { pass with ended := true }
    else healing.act pass source decision

def Pass.consider (pass : Pass) : Pass :=
  { pass with report := { pass.report with considered := pass.report.considered + 1 } }

def Healing.turn (call : ReingestCall) (pass : Pass) (source : KnowledgeSource) : Pass :=
  if pass.ended ∨ pass.raised.isSome then pass
  else if wantedSource call.sourceIds source.sourceId = false then pass
  else if hasRagChunks pass.world.store.toRagTables source.sourceId then
    { pass.consider with
      report := { pass.consider.report with
        skippedHasChunks := pass.report.skippedHasChunks + 1 }.add
        { sourceId := source.sourceId, canonicalUri := source.canonicalUri, status := .skipped } }
  else healing.visit call pass.consider source

def startPass (store : RagStore) (files : Path → Option Bytes) : Pass :=
  { world := { store := store, files := files } }

def Healing.reingestMissingChunks (call : ReingestCall) (store : RagStore)
    (files : Path → Option Bytes) : Pass :=
  match store.listKnowledgeSources with
  | .error failure => { startPass store files with raised := some failure }
  | .ok sources => Machine.exec (healing.turn call) (startPass store files) sources

def Visits (call : ReingestCall) (pass : Pass) (source : KnowledgeSource) : Prop :=
  pass.ended = false ∧ pass.raised = none ∧ wantedSource call.sourceIds source.sourceId = true ∧
    hasRagChunks pass.world.store.toRagTables source.sourceId = false

def NoRival (healing : Healing) (s : RagStore) (source : KnowledgeSource) (data : Bytes) : Prop :=
  healing.pipeline.sha256Bytes data ≠ source.digest →
    ∀ other ∈ s.sources.rows,
      other.key = (healing.pipeline.sha256Bytes data, source.canonicalUri) →
        other.sourceId = source.sourceId

/-- The row of a source is no hindrance to its healing with these bytes: no other row has their
digest with its uri, and a document can have the authors and the year of its metadata. -/
structure Healable (healing : Healing) (s : RagStore) (source : KnowledgeSource) (data : Bytes) :
    Prop where
  noRival : NoRival healing s source data
  typed : healing.pipeline.Documentable (savedAuthors source.metadata) (savedYear source.metadata)

section Specifications

variable {healing} {w : World} {source : KnowledgeSource} {data : Bytes} {name : List Char}
  {E : Failure → World → Prop}

theorem wp_onStore {α : Type} {t : Command α} {Q : α → World → Prop} :
    Tx.wp (onStore t) Q E w ↔
      Tx.wp t (fun a s => Q a { w with store := s }) (fun e s => E e { w with store := s })
        w.store := by
  unfold Tx.wp onStore
  rcases t w.store with ⟨_ | _, _⟩ <;> rfl

theorem wp_fetch {sourceId url : String} {Q : Bytes → World → Prop}
    (hOk : ∀ data, healing.download w.fetched.length url = .ok data →
      Q data { w with fetched := w.fetched ++ [sourceId] })
    (hError : ∀ error, E (.raised error) { w with fetched := w.fetched ++ [sourceId] }) :
    Tx.wp (healing.fetch sourceId url) Q E w := by
  rw [Healing.fetch, Tx.wp_bind, Tx.wp_get, Tx.wp_bind, Tx.wp_modify, Tx.wp_ofExcept]
  cases hDownload : healing.download w.fetched.length url with
  | ok data =>
    refine ⟨?_, nofun⟩
    intro found hFound
    cases hFound
    exact hOk data hDownload
  | error error =>
    refine ⟨nofun, ?_⟩
    intro failure hFailure
    cases hFailure
    exact hError error

theorem wp_stageRawPdf {Q : Path → World → Prop}
    (hOk : Q (healing.stagedPath name)
      (setFile (healing.disk.resolve (healing.stagedPath name)) (some data) w))
    (hError : ∀ error, E (.raised error) w) :
    Tx.wp (healing.stageRawPdf data name) Q E w := by
  rw [Healing.stageRawPdf, Tx.wp_ite]
  refine ⟨fun _ => Tx.wp_raise.mpr (hError _), fun _ => ?_⟩
  split
  next error _ => exact Tx.wp_raise.mpr (hError error)
  · rw [Tx.wp_bind, Tx.wp_modify]
    exact Tx.wp_pure.mpr hOk

/-- A file is removed again where its ingestion raises. -/
theorem wp_ingestStaged {staged : Path} {metadata : Payload} {Q : Nat → World → Prop}
    (h : Tx.wp (healing.ingest source data (healing.disk.asUri (healing.disk.resolve staged))
    metadata)
      (fun chunks s => Q chunks { w with store := s })
      (fun failure s =>
        E failure (setFile (healing.disk.resolve staged) none { w with store := s })) w.store) :
    Tx.wp (healing.ingestStaged source data staged metadata) Q E w := by
  rw [Healing.ingestStaged, Tx.wp_bind, Tx.wp_result, wp_onStore]
  refine Tx.wp_mono h ?_ ?_
  · intro chunks s hQ
    exact Tx.wp_pure.mpr hQ
  · intro failure s hE
    rw [Tx.wp_bind, Tx.wp_modify]
    exact Tx.wp_raise.mpr hE

end Specifications

/-- A disk without links, and uris without escapes. -/
def plainDisk : Disk where
  netlocError _ := false
  url2pathname path := (pathParts path).map String.ofList
  resolve path := path
  asUri path := "file://" ++ String.ofList (path.flatMap fun part => '/' :: part.toList)
  asUri_file _ := ⟨_, rfl⟩

end Glasslab.Corpus
