import Glasslab.Schemas
import Glasslab.Methodology.Requirements
import Mathlib.Data.Prod.Lex

/-!
# Evidence snapshots

`app/evidence.py`: what an agent is shown of the jobs and artifacts of a run. Jobs and artifacts are
summarized for the phase of the turn, the contents of artifacts are excerpted, and entries are
dropped, least protected first, until the snapshot fits a budget of bytes. What was dropped is
summed up in a note that is part of the snapshot.

The size of a snapshot is a parameter of the functions that measure it; `evidenceByteSize` is the
size that the engine measures. Files, their digests and the parsing of JSON are parameters too.
-/

namespace Glasslab.Evidence

open Foundation Methodology

inductive EvidencePhase where
  | analysis
  | verification
  | report
  deriving DecidableEq, Repr

def phaseFilenames : EvidencePhase → List String
  | .analysis =>
    ["runner.log", "status.json", "evaluation.json", "metrics.json", "metrics.csv", "fairness.csv",
      "comparison.json"]
  | .verification =>
    ["status.json", "evaluation.json", "metrics.json", "report.md", "comparison.json"]
  | .report => ["evaluation.json", "metrics.json", "comparison.json"]

def verbatimFilenames : List String := ["evaluation.json", "metrics.json", "comparison.json"]

def priority2Filenames : List String := ["runner.log", "metrics.csv", "fairness.csv"]

def priority1Filenames : List String := ["status.json", "report.md"]

/-- `Path(path).name`. -/
def fileName (path : String) : String := String.ofList (pathName path)

def isComparisonFilename (filename : String) : Bool :=
  filename = "comparison.json" ∨
    ("comparison-".toList.isPrefixOf filename.toList ∧ ".json".toList.isSuffixOf filename.toList)

/-- The fields of a job that a summary may show. Instants are texts, as in a JSON dump. -/
structure StoredJob where
  jobId : String
  runId : String
  actionId : String
  jobName : Option String := none
  kubernetesUid : Option String := none
  externalRunId : Option String := none
  status : JobStatus
  evaluationContractId : String
  evaluationContractVersion : String
  evaluationContractDigest : String
  variantName : String
  seed : Int
  exitInformation : Config := []
  createdAt : String
  updatedAt : String

structure StoredArtifact extends ArtifactRecord where
  createdAt : Instant

/-- What only the analysis is shown of a job. -/
structure JobDetail where
  runId : String
  jobName : Option String
  kubernetesUid : Option String
  externalRunId : Option String
  evaluationContractId : String
  evaluationContractVersion : String
  evaluationContractDigest : String
  exitInformation : Config
  createdAt : String
  updatedAt : String

structure JobSummary where
  jobId : String
  actionId : String
  status : JobStatus
  variantName : String
  seed : Int
  detail : Option JobDetail

def projectJob (job : StoredJob) (phase : EvidencePhase) : JobSummary where
  jobId := job.jobId
  actionId := job.actionId
  status := job.status
  variantName := job.variantName
  seed := job.seed
  detail :=
    if phase = .analysis then
      some
        { runId := job.runId
          jobName := job.jobName
          kubernetesUid := job.kubernetesUid
          externalRunId := job.externalRunId
          evaluationContractId := job.evaluationContractId
          evaluationContractVersion := job.evaluationContractVersion
          evaluationContractDigest := job.evaluationContractDigest
          exitInformation := job.exitInformation
          createdAt := job.createdAt
          updatedAt := job.updatedAt }
    else none

inductive ExcerptPosition where
  | full
  | tail
  | head
  deriving DecidableEq

/-- What a snapshot holds of the content of an artifact. -/
inductive EntryBody where
  /-- The file has another digest than the artifact. -/
  | unavailable
  /-- A verbatim file that is too large. -/
  | omitted (sizeBytes : Nat)
  | excerpt (sizeBytes : Nat) (truncated : Bool) (position : ExcerptPosition)
    (content : ConfigValue)
  /-- The content is that of an earlier entry. -/
  | duplicate (sizeBytes : Nat) (truncated : Bool) (position : ExcerptPosition)
    (duplicateOf : String)

structure ContentEntry where
  uri : String
  type : String
  sha256 : String
  body : EntryBody

structure Settings where
  evidenceExcerptMaxBytes : Nat := 32 * 1024
  evidenceVerbatimMaxBytes : Nat := 64 * 1024
  evidenceSnapshotMaxBytes : Nat := 512 * 1024

/-- `EVIDENCE_SNAPSHOT_MIN_BYTES`. -/
def evidenceSnapshotMinBytes : Nat := 1024

structure Files where
  /-- The bytes of the file that a uri leads to, if it is a file under the shared root. -/
  read : String → Option (List UInt8)
  sha256 : List UInt8 → String
  /-- UTF-8, with replacement characters for what is none. -/
  decode : List UInt8 → String
  loads : String → Option ConfigValue

variable (settings : Settings) (files : Files)

def artifactUri (uri : String) : String := "artifact://" ++ uri

/-- `_read_excerpt`. -/
def readExcerpt (artifact : ArtifactRecord) (bytes : List UInt8) : EntryBody :=
  let filename := fileName artifact.uri
  let size := bytes.length
  let verbatim : Bool := filename ∈ verbatimFilenames ∨ isComparisonFilename filename
  let maximum :=
    if verbatim then settings.evidenceVerbatimMaxBytes else settings.evidenceExcerptMaxBytes
  if verbatim ∧ maximum < size then
    .omitted size
  else
    let tail : Bool := !verbatim ∧ filename = "runner.log" ∧ maximum < size
    let text := files.decode (if tail then bytes.drop (size - maximum) else bytes.take maximum)
    let parsed :=
      if pathSuffix filename = ".json".toList ∧ size ≤ maximum then
        (files.loads text).getD (.scalar (.str text))
      else .scalar (.str text)
    .excerpt size (maximum < size) (if verbatim then .full else if tail then .tail else .head)
      parsed

def artifactExcerpt (artifact : ArtifactRecord) : Option ContentEntry :=
  (files.read artifact.uri).map fun bytes =>
    { uri := artifactUri artifact.uri
      type := artifact.type
      sha256 := artifact.sha256
      body :=
        if files.sha256 bytes ≠ artifact.sha256 then .unavailable
        else readExcerpt settings files artifact bytes }

def isAuthoritativeComparison (artifact : ArtifactRecord) : Bool :=
  artifact.jobId = none ∧ artifact.type = "comparison"

def newestComparison (artifacts : List StoredArtifact) : Option StoredArtifact :=
  artifacts.foldl
    (fun newest artifact =>
      if isAuthoritativeComparison artifact.toArtifactRecord ∧
          isComparisonFilename (fileName artifact.uri) ∧
          newest.all fun other =>
            toLex (other.createdAt, other.artifactId) <
              toLex (artifact.createdAt, artifact.artifactId) then
        some artifact
      else newest)
    none

def visibleArtifacts (artifacts : List StoredArtifact) (allowed : List String) :
    List StoredArtifact :=
  artifacts.filter fun artifact =>
    if isComparisonFilename (fileName artifact.uri) then
      "comparison.json" ∈ allowed ∧
        (newestComparison artifacts).any fun newest => artifact.artifactId = newest.artifactId
    else fileName artifact.uri ∈ allowed

/-- The contents collected so far, the first uri of each digest and type, and the entries that refer
to the content of another one, after it. -/
structure Collected where
  contents : List ContentEntry := []
  firstUris : List ((String × String) × String) := []
  dependents : List (String × String) := []

def collectEntry (collected : Collected) (entry : ContentEntry) : Collected :=
  match entry.body with
  | .excerpt size truncated position _ =>
    match collected.firstUris.lookup (entry.sha256, entry.type) with
    | none =>
      { collected with
        contents := collected.contents ++ [entry],
        firstUris := collected.firstUris ++ [((entry.sha256, entry.type), entry.uri)] }
    | some firstUri =>
      { collected with
        contents := collected.contents ++
          [{ entry with body := .duplicate size truncated position firstUri }],
        dependents := collected.dependents ++ [(firstUri, entry.uri)] }
  | _ => { collected with contents := collected.contents ++ [entry] }

def collectContents (visible : List StoredArtifact) : Collected :=
  visible.foldl
    (fun collected artifact =>
      match artifactExcerpt settings files artifact.toArtifactRecord with
      | none => collected
      | some entry => collectEntry collected entry)
    {}

/-! ## Trimming -/

/-- The note on what was dropped. Its text is fixed. -/
structure TruncationNote where
  omittedReferences : List String
  omittedCount : Nat
  omittedMoreCount : Option Nat := none

structure Snapshot where
  jobs : List JobSummary
  artifacts : List ArtifactRecord
  artifactContents : List ContentEntry
  truncation : Option TruncationNote := none

inductive CandidateKind where
  | artifactContents
  | artifacts
  | jobs
  deriving DecidableEq

/-- What may be dropped: the entries of a list with a key, and how the note refers to them. -/
structure Candidate where
  kind : CandidateKind
  key : String
  identifier : String

/-- `text.split('://', 1)[-1]`. -/
def afterScheme (text : String) : String :=
  let rec find : List Char → Option (List Char)
    | ':' :: '/' :: '/' :: rest => some rest
    | _ :: rest => find rest
    | [] => none
  ((find text.toList).map String.ofList).getD text

def entryFilename (entry : ContentEntry) : String := fileName (afterScheme entry.uri)

def contentCandidates (contents : List ContentEntry) (named : String → Bool) : List Candidate :=
  (sortOn ContentEntry.uri (contents.filter fun entry => named (entryFilename entry))).map
    fun entry => ⟨.artifactContents, entry.uri, entry.uri⟩

def isVerbatim (filename : String) : Bool :=
  filename ∈ verbatimFilenames ∨ isComparisonFilename filename

def dropCandidates (jobs : List JobSummary) (artifacts : List ArtifactRecord)
    (contents : List ContentEntry) : List Candidate :=
  contentCandidates contents (· ∈ priority2Filenames) ++
    (sortOn ArtifactRecord.uri artifacts).map
      (fun artifact => ⟨.artifacts, artifact.uri, artifactUri artifact.uri⟩) ++
    (sortOn JobSummary.jobId jobs).map (fun job => ⟨.jobs, job.jobId, "job://" ++ job.jobId⟩) ++
    contentCandidates contents (· ∈ priority1Filenames) ++
    contentCandidates contents isVerbatim

def maxOmittedReferences : Nat := 25

def truncationNote (dropped : List String) : TruncationNote where
  omittedReferences := dropped.take maxOmittedReferences
  omittedCount := dropped.length
  omittedMoreCount :=
    if maxOmittedReferences < dropped.length then some (dropped.length - maxOmittedReferences)
    else none

def removeEntry (state : List ContentEntry × List String) (uri : String) :
    List ContentEntry × List String :=
  if state.1.any fun entry => entry.uri = uri then
    (state.1.eraseP fun entry => entry.uri = uri, state.2 ++ [uri])
  else state

/-- `_drop_content_entry`: the entries that are left, and the uris of those that were removed. -/
def dropContentEntry (contents : List ContentEntry) (dependents : List (String × String))
    (key : String) : List ContentEntry × List String :=
  if contents.any fun entry => entry.uri = key then
    ((dependents.filter fun pair => pair.1 = key).map Prod.snd).foldl removeEntry
      (removeEntry (contents, []) key)
  else (contents, [])

structure Trimming where
  snapshot : Snapshot
  dropped : List String := []

def recordDropped (dropped : List String) (reference : String) : List String :=
  if reference ∈ dropped then dropped else dropped ++ [reference]

def Trimming.drop (dependents : List (String × String)) (t : Trimming) (candidate : Candidate) :
    Trimming :=
  match candidate.kind with
  | .artifactContents =>
    let (contents, removed) :=
      dropContentEntry t.snapshot.artifactContents dependents candidate.key
    { snapshot := { t.snapshot with artifactContents := contents }
      dropped := removed.foldl recordDropped t.dropped }
  | .artifacts =>
    { snapshot :=
        { t.snapshot with
          artifacts := t.snapshot.artifacts.filter fun artifact => artifact.uri ≠ candidate.key }
      dropped := recordDropped t.dropped candidate.identifier }
  | .jobs =>
    { snapshot :=
        { t.snapshot with jobs := t.snapshot.jobs.filter fun job => job.jobId ≠ candidate.key }
      dropped := recordDropped t.dropped candidate.identifier }

def Trimming.provisional (t : Trimming) : Snapshot :=
  if t.dropped = [] then t.snapshot
  else { t.snapshot with truncation := some (truncationNote t.dropped) }

section Size

variable (size : Snapshot → Nat) (budget : Nat)

def trim (dependents : List (String × String)) : Trimming → List Candidate → Trimming
  | t, [] => t
  | t, candidate :: rest =>
    if size t.provisional ≤ budget then t else trim dependents (t.drop dependents candidate) rest

/-- One round of the loop that shortens the note. -/
def TruncationNote.halve (note : TruncationNote) : TruncationNote :=
  let references := note.omittedReferences.take (note.omittedReferences.length / 2)
  { note with
    omittedReferences := references
    omittedMoreCount :=
      if references.length < note.omittedCount then some (note.omittedCount - references.length)
      else note.omittedMoreCount }

theorem length_halve_lt {note : TruncationNote} (h : note.omittedReferences ≠ []) :
    note.halve.omittedReferences.length < note.omittedReferences.length := by
  have hPos := List.length_pos_iff.mpr h
  simp only [TruncationNote.halve, List.length_take]
  omega

/-- Halve the list of references until the snapshot fits or the list is empty. -/
def shorten (snapshot : Snapshot) (note : TruncationNote) : TruncationNote :=
  if note.omittedReferences ≠ [] ∧ budget < size { snapshot with truncation := some note } then
    shorten snapshot note.halve
  else note
termination_by note.omittedReferences.length
decreasing_by exact length_halve_lt (by simp_all)

/-- The snapshot before anything is dropped, and what refers to what in it. -/
def fullSnapshot (phase : EvidencePhase) (jobs : List StoredJob) (artifacts : List StoredArtifact) :
    Snapshot × List (String × String) :=
  let visible := visibleArtifacts artifacts (phaseFilenames phase)
  let collected := collectContents settings files visible
  ({ jobs := jobs.map fun job => projectJob job phase
     artifacts := visible.map StoredArtifact.toArtifactRecord
     artifactContents := collected.contents },
    collected.dependents)

/-- `max_bytes or settings.evidence_snapshot_max_bytes`. -/
def snapshotBudget (maxBytes : Option Nat) : Nat :=
  match maxBytes with
  | none | some 0 => settings.evidenceSnapshotMaxBytes
  | some bytes => bytes

def buildEvidenceSnapshot (phase : EvidencePhase) (maxBytes : Option Nat) (jobs : List StoredJob)
    (artifacts : List StoredArtifact) : Snapshot :=
  let budget := snapshotBudget settings maxBytes
  let (full, dependents) := fullSnapshot settings files phase jobs artifacts
  let candidates := dropCandidates full.jobs full.artifacts full.artifactContents
  let t := trim size budget dependents { snapshot := full } candidates
  if t.dropped = [] then t.snapshot
  else
    { t.snapshot with
      truncation := some (shorten size budget t.snapshot (truncationNote t.dropped)) }

end Size

/-- A string in JSON, with characters beyond ASCII as they are. -/
def quoted (text : String) : List Char :=
  let hex (n : Nat) : Char := Char.ofNat (if n < 10 then 48 + n else 87 + n)
  let escape (c : Char) : List Char :=
    if c = '"' then ['\\', '"']
    else if c = '\\' then ['\\', '\\']
    else if c = '\n' then ['\\', 'n']
    else if c = '\r' then ['\\', 'r']
    else if c = '\t' then ['\\', 't']
    else if c.toNat = 8 then ['\\', 'b']
    else if c.toNat = 12 then ['\\', 'f']
    else if c.toNat < 32 then ['\\', 'u', '0', '0', hex (c.toNat / 16), hex (c.toNat % 16)]
    else [c]
  '"' :: text.toList.flatMap escape ++ ['"']

def dumpScalar : Scalar → List Char
  | .null => "null".toList
  | .bool b => (if b then "true" else "false").toList
  | .int i => (toString i).toList
  | .float text => text.toList
  | .str text | .other text => quoted text

def newline (depth : Nat) : List Char := '\n' :: List.replicate (2 * depth) ' '

def enclosed (left right : Char) (depth : Nat) : List (List Char) → List Char
  | [] => [left, right]
  | items =>
    left :: newline (depth + 1) ++ (',' :: newline (depth + 1)).intercalate items ++
      newline depth ++ [right]

mutual

/-- `json.dumps(value, indent=2, ensure_ascii=False)`, at an indentation. -/
def dump (depth : Nat) : ConfigValue → List Char
  | .scalar s => dumpScalar s
  | .list items => enclosed '[' ']' depth (dumpItems (depth + 1) items)
  | .map entries => enclosed '\x7b' '\x7d' depth (dumpEntries (depth + 1) entries)

def dumpItems (depth : Nat) : List ConfigValue → List (List Char)
  | [] => []
  | item :: rest => dump depth item :: dumpItems depth rest

def dumpEntries (depth : Nat) : Config → List (List Char)
  | [] => []
  | (key, value) :: rest => (quoted key ++ ':' :: ' ' :: dump depth value) :: dumpEntries depth rest

end

def textValue (text : String) : ConfigValue := .scalar (.str text)

def natValue (n : Nat) : ConfigValue := .scalar (.int n)

def optionalText (text : Option String) : ConfigValue := (text.map textValue).getD (.scalar .null)

def JobDetail.entries (detail : JobDetail) : Config :=
  [("run_id", textValue detail.runId), ("job_name", optionalText detail.jobName),
    ("kubernetes_uid", optionalText detail.kubernetesUid),
    ("external_run_id", optionalText detail.externalRunId),
    ("evaluation_contract_id", textValue detail.evaluationContractId),
    ("evaluation_contract_version", textValue detail.evaluationContractVersion),
    ("evaluation_contract_digest", textValue detail.evaluationContractDigest),
    ("exit_information", .map detail.exitInformation), ("created_at", textValue detail.createdAt),
    ("updated_at", textValue detail.updatedAt)]

def JobSummary.document (job : JobSummary) : ConfigValue :=
  .map <|
    [("job_id", textValue job.jobId), ("action_id", textValue job.actionId),
      ("status", textValue job.status.value), ("variant_name", textValue job.variantName),
      ("seed", .scalar (.int job.seed))] ++ (job.detail.map JobDetail.entries).getD []

def artifactDocument (artifact : ArtifactRecord) : ConfigValue :=
  .map
    [("artifact_id", textValue artifact.artifactId), ("job_id", optionalText artifact.jobId),
      ("type", textValue artifact.type), ("uri", textValue artifact.uri),
      ("sha256", textValue artifact.sha256)]

def ExcerptPosition.value : ExcerptPosition → String
  | full => "full"
  | tail => "tail"
  | head => "head"

def EntryBody.entries (uri : String) : EntryBody → Config
  | unavailable => [("content_unavailable", textValue "artifact digest mismatch")]
  | omitted size =>
    [("digest_verified", .scalar (.bool true)), ("size_bytes", natValue size),
      ("content_omitted", textValue uri)]
  | excerpt size truncated position content =>
    [("digest_verified", .scalar (.bool true)), ("size_bytes", natValue size),
      ("truncated", .scalar (.bool truncated)), ("excerpt_position", textValue position.value),
      ("content", content)]
  | duplicate size truncated position duplicateOf =>
    [("digest_verified", .scalar (.bool true)), ("size_bytes", natValue size),
      ("truncated", .scalar (.bool truncated)), ("excerpt_position", textValue position.value),
      ("duplicate_of", textValue duplicateOf)]

def ContentEntry.document (entry : ContentEntry) : ConfigValue :=
  .map <|
    [("uri", textValue entry.uri), ("type", textValue entry.type),
      ("sha256", textValue entry.sha256)] ++ entry.body.entries entry.uri

def TruncationNote.document (note : TruncationNote) : ConfigValue :=
  .map <|
    [("note", textValue
        ("evidence snapshot exceeded evidence_snapshot_max_bytes; complete " ++
          "artifacts remain in the durable record")),
      ("omitted_references", .list (note.omittedReferences.map textValue)),
      ("omitted_count", natValue note.omittedCount)] ++
    (note.omittedMoreCount.map fun count => [("omitted_more_count", natValue count)]).getD []

def Snapshot.document (snapshot : Snapshot) : ConfigValue :=
  .map <|
    [("jobs", .list (snapshot.jobs.map JobSummary.document)),
      ("artifacts", .list (snapshot.artifacts.map artifactDocument)),
      ("artifact_contents", .list (snapshot.artifactContents.map ContentEntry.document))] ++
    (snapshot.truncation.map fun note => [("truncation", note.document)]).getD []

/-- `serialize_evidence`: JSON with sorted keys and an indentation of two. -/
def serializeEvidence (snapshot : Snapshot) : List Char :=
  dump 0 (snapshot.document.canonical id)

/-- `evidence_byte_size`: the length in UTF-8. -/
def evidenceByteSize (snapshot : Snapshot) : Nat :=
  ((serializeEvidence snapshot).map Char.utf8Size).sum

end Glasslab.Evidence
