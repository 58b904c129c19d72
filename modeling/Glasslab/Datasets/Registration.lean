import Glasslab.Datasets.UrlFetch
import Glasslab.Foundation.KeyedTable
import Glasslab.Foundation.Transaction

/-!
# Registration of datasets

`DatasetIngestionManager` of `app/datasets.py`. `ingest` stores bytes once, under their digest, and
returns the first record of the same bytes if there is one. `register_upload` and `register_url`
ingest bytes and make an entry of the catalog for them. The names of the catalog are unique:
`register_url` looks its name up first, and `register_upload` takes the name of the record that it
got from `ingest`.

The disk or the store may fail in any call, and what was written before stays. Catalog ids are drawn
from a counter. Timestamps are left out.
-/

namespace Glasslab.Datasets

open Foundation Knowledge Methodology

structure IngestedDatasetRecord where
  datasetId : Sha256
  name : String
  filename : String
  referenceUri : String
  artifactUri : String
  path : String
  sha256 : Sha256
  sizeBytes : Nat
  mediaType : Option String
  role : String
  containsLabels : Bool
  uploadedBy : Option String
  deriving DecidableEq

inductive Provenance where
  | upload
  | url
  deriving DecidableEq

structure CatalogDatasetRecord where
  catalogId : Nat
  name : String
  referenceUri : String
  artifactUri : String
  sha256 : Sha256
  sizeBytes : Nat
  provenance : Provenance
  sourceUrl : Option String := none
  finalUrl : Option String := none
  mediaType : Option String := none
  filename : Option String := none
  upstreamSha256 : Option String := none
  deduplicated : Bool := false
  createdBy : String
  deriving DecidableEq

inductive DatasetError where
  /-- `DatasetIngestionError`. -/
  | ingestion (message : String)
  /-- `DatasetUrlError`. -/
  | url (kind : UrlFetchErrorKind) (message : String)
  /-- A record that its schema refuses. -/
  | validation
  /-- `IntegrityError`. -/
  | integrity (constraint : String)
  /-- The disk or the store fails. -/
  | unavailable
  deriving DecidableEq

/-- The upload root and the tables. -/
structure Registry where
  /-- The content of the file of a name in the directory of a digest. -/
  files : List ((Sha256 × String) × Bytes) := []
  datasets : List IngestedDatasetRecord := []
  catalog : UniqueTable CatalogDatasetRecord.catalogId CatalogDatasetRecord.name := .empty
  /-- How many catalog ids were drawn. -/
  issued : Nat := 0

/-- Where the disk or the store fails in a call. -/
inductive Fault where
  /-- Before anything is stored: in a lookup, or with a staged file. -/
  | staging
  /-- When the file is moved to its place. -/
  | filing
  /-- In `save_dataset`. -/
  | datasetWrite
  /-- In `save_catalog_dataset`. -/
  | catalogWrite
  deriving DecidableEq

/-- `get_dataset`. -/
def Registry.getDataset (s : Registry) (digest : Sha256) : Option IngestedDatasetRecord :=
  s.datasets.find? fun record => record.datasetId = digest

def Registry.getCatalogDatasetByName (s : Registry) (name : String) : Option CatalogDatasetRecord :=
  s.catalog.findKey name

/-- `INSERT OR IGNORE`. -/
def Registry.insertDataset (s : Registry) (record : IngestedDatasetRecord) : Registry :=
  if (s.getDataset record.datasetId).isSome then s
  else { s with datasets := s.datasets ++ [record] }

/-- Move a staged file to its place, unless there is a file already. -/
def Registry.placeFile (s : Registry) (digest : Sha256) (filename : String) (content : Bytes) :
    Registry :=
  if s.files.any fun file => file.1 = (digest, filename) then s
  else { s with files := s.files ++ [((digest, filename), content)] }

abbrev Command := Tx Registry DatasetError

def refuse (condition : Prop) [Decidable condition] (error : DatasetError) : Command Unit :=
  fun s =>
  (if condition then .error error else .ok (), s)

def saveDataset (fault : Option Fault) (record : IngestedDatasetRecord) :
    Command IngestedDatasetRecord := do
  refuse (fault = some .datasetWrite) .unavailable
  Tx.modify fun s => s.insertDataset record
  let s ← Tx.get
  match s.getDataset record.datasetId with
  | some stored => pure stored
  | none => Tx.raise .unavailable

def saveCatalogDataset (fault : Option Fault) (record : CatalogDatasetRecord) :
    Command CatalogDatasetRecord := do
  refuse (fault = some .catalogWrite) .unavailable
  let s ← Tx.get
  match s.catalog.upsert record with
  | none => Tx.raise (.integrity "dataset_catalog.name")
  | some catalog => do
    Tx.modify fun s => { s with catalog }
    pure record

/-- `uuid4`. -/
def newCatalogId : Command Nat := fun s => (.ok s.issued, { s with issued := s.issued + 1 })

def safeFilename (filename : String) : Except DatasetError String :=
  let value := strippedName filename
  if value = "" ∨ value ∈ [".", ".."] ∨ 255 < value.length ∨
      (value.toList.any fun c => c ∈ [Char.ofNat 0, '/', '\\']) then
    .error (.ingestion "dataset filename is invalid")
  else .ok value

def isLowerAlphanumeric (c : Char) : Bool := ('a' ≤ c ∧ c ≤ 'z') ∨ ('0' ≤ c ∧ c ≤ '9')

/-- `[a-z0-9][a-z0-9_-]{0,62}`. -/
def isDatasetName : List Char → Bool
  | [] => false
  | c :: rest =>
    isLowerAlphanumeric c ∧ rest.length ≤ 62 ∧
      rest.all fun d => isLowerAlphanumeric d ∨ d = '_' ∨ d = '-'

/-- `name.strip().lower().replace(' ', '_')`. -/
def normalizedName (library : Library) (name : String) : String :=
  (library.lower (String.ofList (strip name.toList))).map fun c => if c = ' ' then '_' else c

def safeName (library : Library) (name : String) : Except DatasetError String :=
  let value := normalizedName library name
  if isDatasetName value.toList = false then
    .error (.ingestion "dataset name must use lowercase letters, numbers, _ or -")
  else .ok value

structure DatasetIngestionManager where
  library : Library
  /-- The upload root. -/
  root : String
  /-- The upload root, from the shared mount on. -/
  rootUri : String
  maximumBytes : Nat

/-- What a caller of `ingest` says about the bytes. -/
structure Metadata where
  filename : String
  name : String
  role : String := "input"
  containsLabels : Bool := false
  mediaType : Option String := none
  uploadedBy : Option String := none

/-- The limits of the schema, where the values do not keep them anyway. -/
def IngestedDatasetRecord.isValid (record : IngestedDatasetRecord) : Bool :=
  '\n' ∉ record.artifactUri.toList ∧ (record.mediaType.all fun value => value.length ≤ 255) ∧
    record.role.length ≤ 120 ∧ (record.uploadedBy.all fun value => value.length ≤ 255)

section Manager

variable (manager : DatasetIngestionManager) (fault : Option Fault)

def DatasetIngestionManager.newRecord (content : Bytes) (metadata : Metadata)
    (filename name : String) :
    IngestedDatasetRecord :=
  let digest := manager.library.sha256 content
  { datasetId := digest
    name
    filename
    referenceUri := "glasslab-dataset://" ++ digest.text
    artifactUri := "s3://artifacts/" ++ manager.rootUri ++ "/" ++ digest.text ++ "/" ++ filename
    path := manager.root ++ "/" ++ digest.text ++ "/" ++ filename
    sha256 := digest
    sizeBytes := content.length
    mediaType := metadata.mediaType
    role := String.ofList (strip metadata.role.toList)
    containsLabels := metadata.containsLabels
    uploadedBy := metadata.uploadedBy }

def DatasetIngestionManager.ingestNew (content : Bytes) (metadata : Metadata)
    (filename name : String) :
    Command IngestedDatasetRecord := do
  refuse (fault = some .filing) .unavailable
  Tx.modify fun s => s.placeFile (manager.library.sha256 content) filename content
  let record := manager.newRecord content metadata filename name
  refuse (record.isValid = false) .validation
  saveDataset fault record

def DatasetIngestionManager.ingest (content : Bytes) (metadata : Metadata) :
    Command IngestedDatasetRecord := do
  let filename ← Tx.ofExcept (safeFilename metadata.filename)
  let name ← Tx.ofExcept (safeName manager.library metadata.name)
  refuse (isBlank metadata.role = true) (.ingestion "dataset role is required")
  refuse (fault = some .staging) .unavailable
  refuse (manager.maximumBytes < content.length)
    (.ingestion "dataset exceeds the configured upload size limit")
  refuse (content = []) (.ingestion "dataset is empty")
  let s ← Tx.get
  match s.getDataset (manager.library.sha256 content) with
  | some existing => do
    refuse (existing.containsLabels ≠ metadata.containsLabels)
      (.ingestion "dataset content already exists with a different label declaration")
    pure existing
  | none => manager.ingestNew fault content metadata filename name

structure Upload where
  content : Bytes
  filename : String
  name : String
  role : String := "input"
  containsLabels : Bool := false
  mediaType : Option String := none
  createdBy : String := "operator"

def DatasetIngestionManager.registerUpload (upload : Upload) : Command CatalogDatasetRecord := do
  let ingested ← manager.ingest fault upload.content
    { filename := upload.filename
      name := upload.name
      role := upload.role
      containsLabels := upload.containsLabels
      mediaType := upload.mediaType
      uploadedBy := some upload.createdBy }
  let catalogId ← newCatalogId
  saveCatalogDataset fault
    { catalogId
      name := ingested.name
      referenceUri := ingested.referenceUri
      artifactUri := ingested.artifactUri
      sha256 := ingested.sha256
      sizeBytes := ingested.sizeBytes
      provenance := .upload
      createdBy := upload.createdBy }

def datasetUrlError (error : UrlFetchError) : DatasetError :=
  match error.kind with
  | .malformedUrl => .url error.kind "dataset URL is malformed or is not a public HTTPS URL"
  | .privateTarget => .url error.kind "dataset URL target is not globally routable"
  | .peerUnverifiable => .url .privateTarget "dataset URL connection peer is not globally routable"
  | .redirectRejected => .url error.kind "dataset URL redirect was rejected"
  | .sizeExceeded => .url error.kind "dataset URL exceeds the configured size limit"
  | .emptyBody => .url error.kind "dataset URL returned an empty body"
  | .networkFailure => .url error.kind "dataset URL fetch failed"
  | .checksumMismatch => .url error.kind "dataset URL content does not match expected_sha256"

def datasetFilename (fetched : FetchedUrl) : String :=
  match safeFilename ((fetched.filename.bind orNone).getD "dataset") with
  | .ok filename => filename
  | .error _ => "dataset"

structure UrlRequest where
  network : Network
  url : String
  name : String
  expectedSha256 : Option String := none
  role : String := "input"
  containsLabels : Bool := false
  createdBy : String := "operator"

def DatasetIngestionManager.fetcher : PublicHttpsFetcher where
  maximumBytes := manager.maximumBytes

/-- The download of `register_url`. -/
def DatasetIngestionManager.download (request : UrlRequest) :
    Except DatasetError (FetchedUrl × Bytes) :=
  match manager.fetcher.download manager.library request.network request.url
    request.expectedSha256 with
  | .ok fetched => .ok fetched
  | .error error => .error (datasetUrlError error)

/-- The limits of the schema of the catalog, where the values do not keep them anyway. -/
def CatalogDatasetRecord.isValid (record : CatalogDatasetRecord) : Bool :=
  (record.mediaType.all fun value => value.length ≤ 255) ∧ record.upstreamSha256.all isSha256

def catalogUrl (request : UrlRequest) (name filename : String)
    (fetched : FetchedUrl) (deduplicated : Bool) (ingested : IngestedDatasetRecord) :
    Command CatalogDatasetRecord := do
  let catalogId ← newCatalogId
  let record : CatalogDatasetRecord :=
    { catalogId
      name
      referenceUri := ingested.referenceUri
      artifactUri := ingested.artifactUri
      sha256 := ingested.sha256
      sizeBytes := ingested.sizeBytes
      provenance := .url
      sourceUrl := some request.url
      finalUrl := some fetched.finalUrl
      mediaType := fetched.mediaType
      filename := some filename
      upstreamSha256 := request.expectedSha256
      deduplicated
      createdBy := request.createdBy }
  refuse (record.isValid = false) .validation
  saveCatalogDataset fault record

def DatasetIngestionManager.registerUrl (request : UrlRequest) : Command CatalogDatasetRecord := do
  let name ← Tx.ofExcept (safeName manager.library request.name)
  refuse (isBlank request.role = true) (.ingestion "dataset role is required")
  refuse (fault = some .staging) .unavailable
  let s ← Tx.get
  let (fetched, content) ← Tx.ofExcept (manager.download request)
  refuse (∃ entry ∈ s.getCatalogDatasetByName name, entry.sha256 ≠ fetched.sha256)
    (.ingestion ("dataset name `" ++ name ++ "` is already registered to different content"))
  let filename := datasetFilename fetched
  let deduplicated := (s.getDataset fetched.sha256).isSome
  let ingested ← manager.ingest fault content
    { filename
      name
      role := request.role
      containsLabels := request.containsLabels
      mediaType := fetched.mediaType
      uploadedBy := some request.createdBy }
  match s.getCatalogDatasetByName name with
  | some entry =>
    if entry.sha256 = ingested.sha256 then pure { entry with deduplicated := true }
    else catalogUrl fault request name filename fetched deduplicated ingested
  | none => catalogUrl fault request name filename fetched deduplicated ingested

end Manager

inductive Route where
  | upload (upload : Upload)
  | url (request : UrlRequest)

/-- A call, and where the disk or the store fails in it, if it does. -/
structure Registration where
  route : Route
  fault : Option Fault := none

def DatasetIngestionManager.register (manager : DatasetIngestionManager) (call : Registration) :
    Command CatalogDatasetRecord :=
  match call.route with
  | .upload upload => manager.registerUpload call.fault upload
  | .url request => manager.registerUrl call.fault request

def DatasetIngestionManager.step (manager : DatasetIngestionManager) (s : Registry)
    (call : Registration) : Registry :=
  (manager.register call s).2

end Glasslab.Datasets
