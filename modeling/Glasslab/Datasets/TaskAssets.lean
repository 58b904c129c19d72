import Glasslab.Datasets.Registration
import Glasslab.Foundation.Machine

/-!
# Assets of a task

`TaskAssetFetcher.fetch` of `app/task_bundles.py`, for the proposals of one task digest. An asset is
downloaded into a staging directory, the directory is renamed to the name of the asset, and a record
is written beside the file. A fetch that finds the record returns it as it is. A fetch that finds
the directory without a record, because an earlier one crashed, drops its own download and records
it all the same.

So a record is the one of another file after a crash, and it is returned to a proposal that declares
another digest. `assets_faithful_iff` says that this is all that goes wrong. Staging directories
have fresh names and are not read by another fetch. The text of a record is torn by a crash while it
is written, and then it is no JSON.
-/

namespace Glasslab.Datasets

open Foundation Foundation.Machine Option

/-- A proposal of an asset with the fields that `fetch` reads. -/
structure TaskAssetProposal where
  name : String
  nameValid : isDatasetName name.toList = true
  role : String
  sourceUrl : Option String
  expectedSha256 : Option Sha256
  containsLabels : Bool

structure DatasetAsset where
  name : String
  uri : String
  sha256 : Sha256
  role : String
  containsLabels : Bool
  deriving DecidableEq

/-- `asset.json`. -/
inductive Sidecar where
  | torn
  | whole (record : DatasetAsset)

/-- The directory of an asset. It is made by a rename, together with the file `asset`. -/
structure Destination where
  asset : Bytes
  metadata : Option Sidecar

/-- The directories below the task digest. -/
abbrev AssetRoot := String → Option Destination

inductive FetchError where
  /-- `TaskBundleError`. -/
  | bundle (message : String)
  /-- A record that is no JSON. -/
  | validation

inductive FetchOutcome where
  | returned (record : DatasetAsset)
  | raised (error : FetchError)
  | crashed

/-- Where a fetch crashes, if it comes so far. -/
inductive CrashPoint where
  /-- Before the staging directory is renamed or removed. -/
  | staged
  /-- Before the record is opened. -/
  | renamed
  /-- While the record is written. -/
  | recording
  /-- Before the modes of the files are set. -/
  | recorded
  deriving DecidableEq

structure TaskAssetFetcher where
  library : Library
  fetcher : PublicHttpsFetcher
  /-- The directory of the task digest, from the shared mount on. -/
  rootUri : String

/-- A call of `fetch`, and the network as it is then. -/
structure Fetch where
  proposal : TaskAssetProposal
  network : Network
  crash : Option CrashPoint

section Fetcher

variable (fetcher : TaskAssetFetcher)

def TaskAssetFetcher.assetError (error : UrlFetchError) (name : String) : FetchError :=
  match error.kind with
  | .checksumMismatch => .bundle ("task asset checksum mismatch for " ++ name)
  | .malformedUrl | .privateTarget | .peerUnverifiable => .bundle error.message
  | .emptyBody => .bundle ("task asset is empty: " ++ name)
  | .sizeExceeded =>
    .bundle ("task asset exceeds " ++ toString fetcher.fetcher.maximumBytes ++ " bytes")
  | .redirectRejected => .bundle ("task asset redirect was rejected for " ++ name)
  | .networkFailure =>
    .bundle ("task asset download failed for " ++ name ++ ": " ++ error.message ++
      ". Retry the import, or upload the dataset via /dataset-upload and reference its " ++
      "glasslab-dataset://<sha256> URI in the task bundle.")

def TaskAssetFetcher.assetUri (name : String) : String :=
  "s3://artifacts/" ++ fetcher.rootUri ++ "/" ++ (name ++ "/asset")

def TaskAssetFetcher.record (proposal : TaskAssetProposal) (fetched : FetchedUrl) :
    DatasetAsset where
  name := proposal.name
  uri := fetcher.assetUri proposal.name
  sha256 := fetched.sha256
  role := proposal.role
  containsLabels := proposal.containsLabels

def TaskAssetFetcher.download (proposal : TaskAssetProposal) (network : Network) (url : String) :
    Except UrlFetchError (FetchedUrl × Bytes) :=
  fetcher.fetcher.download fetcher.library network url (proposal.expectedSha256.map Sha256.text)

/-- The steps after the download: the staged file is renamed, or dropped if there is a directory,
and the record is written. -/
def storeAsset (s : AssetRoot) (name : String) (content : Bytes) (record : DatasetAsset) :
    Option CrashPoint → FetchOutcome × AssetRoot :=
  let asset := ((s name).map Destination.asset).getD content
  let leave (metadata : Option Sidecar) : AssetRoot :=
    Function.update s name (some ⟨asset, metadata⟩)
  fun
  | some .staged => (.crashed, s)
  | some .renamed => (.crashed, leave none)
  | some .recording => (.crashed, leave (some .torn))
  | some .recorded => (.crashed, leave (some (.whole record)))
  | none => (.returned record, leave (some (.whole record)))

def TaskAssetFetcher.fetch (s : AssetRoot) (call : Fetch) : FetchOutcome × AssetRoot :=
  let proposal := call.proposal
  match proposal.sourceUrl.bind orNone with
  | none => (.raised (.bundle ("asset has no source URL: " ++ proposal.name)), s)
  | some url =>
    match (s proposal.name).bind Destination.metadata with
    | some (.whole record) => (.returned record, s)
    | some .torn => (.raised .validation, s)
    | none =>
      match fetcher.download proposal call.network url with
      | .error error => (.raised (fetcher.assetError error proposal.name), s)
      | .ok (fetched, content) =>
        storeAsset s proposal.name content (fetcher.record proposal fetched) call.crash

def TaskAssetFetcher.step (s : AssetRoot) (call : Fetch) : AssetRoot := (fetcher.fetch s call).2

/-! ## Faithful records -/

def TaskAssetFetcher.FileAt (s : AssetRoot) (uri : String) (content : Bytes) : Prop :=
  ∃ name destination, fetcher.assetUri name = uri ∧ s name = some destination ∧
    destination.asset = content

structure FaithfulStep (s : AssetRoot) (call : Fetch) : Prop where
  file : ∀ record, (fetcher.fetch s call).1 = .returned record →
    ∃ content, fetcher.FileAt (fetcher.step s call) record.uri content ∧
      fetcher.library.sha256 content = record.sha256
  declared : ∀ record digest, (fetcher.fetch s call).1 = .returned record →
    call.proposal.expectedSha256 = some digest → record.sha256 = digest

/-- A fetch finds no record of another file, nor of another digest than the proposal declares, and
where it finds a file without a record it gets a file with the same digest. -/
structure Undisturbed (s : AssetRoot) (call : Fetch) : Prop where
  cached : ∀ destination record, (call.proposal.sourceUrl.bind orNone).isSome →
    s call.proposal.name = some destination → destination.metadata = some (.whole record) →
      fetcher.library.sha256 destination.asset = record.sha256 ∧
        ∀ digest, call.proposal.expectedSha256 = some digest → record.sha256 = digest
  served : ∀ url fetched content destination, call.crash = none →
    call.proposal.sourceUrl.bind orNone = some url → s call.proposal.name = some destination →
      destination.metadata = none →
      fetcher.download call.proposal call.network url = .ok (fetched, content) →
        fetcher.library.sha256 destination.asset = fetcher.library.sha256 content

end Fetcher

section Faithful

variable {fetcher : TaskAssetFetcher} {s : AssetRoot} {call : Fetch} {name : String}
  {content : Bytes}

theorem assetUri_injective : fetcher.assetUri.Injective := by
  intro a b h
  have hTail := String.append_right_inj _ |>.mp h
  exact String.append_left_inj _ |>.mp hTail

theorem fileAt_iff : fetcher.FileAt s (fetcher.assetUri name) content ↔
    ∃ destination, s name = some destination ∧ destination.asset = content := by
  constructor
  · rintro ⟨other, destination, hUri, hFile⟩
    obtain rfl := assetUri_injective hUri
    exact ⟨destination, hFile⟩
  · rintro ⟨destination, hFile⟩
    exact ⟨name, destination, rfl, hFile⟩

def Located (fetcher : TaskAssetFetcher) (s : AssetRoot) : Prop :=
  ∀ name destination record, s name = some destination → destination.metadata =
    some (.whole record) →
    record.uri = fetcher.assetUri name

variable {record : DatasetAsset}

theorem storeAsset_none : storeAsset s name content record none =
    (.returned record, Function.update s name
      (some ⟨((s name).map Destination.asset).getD content, some (.whole record)⟩)) := rfl

theorem located_empty : Located fetcher fun _ => none := by
  intro name destination record h
  cases h

theorem Located.update (h : Located fetcher s) {asset : Bytes} {metadata : Option Sidecar}
    (hRecord : ∀ record, metadata = some (.whole record) → record.uri = fetcher.assetUri name) :
    Located fetcher (Function.update s name (some ⟨asset, metadata⟩)) := by
  intro other destination record hOther hMetadata
  by_cases hName : other = name
  · subst hName
    rw [Function.update_self, Option.some.injEq] at hOther
    subst hOther
    exact hRecord record hMetadata
  · rw [Function.update_of_ne hName] at hOther
    exact h other destination record hOther hMetadata

theorem Located.storeAsset (h : Located fetcher s) {crash : Option CrashPoint}
    (hRecord : record.uri = fetcher.assetUri name) :
    Located fetcher (storeAsset s name content record crash).2 := by
  have hUri : ∀ other, some (Sidecar.whole record) = some (.whole other) →
      other.uri = fetcher.assetUri name := by
    rintro other ⟨⟩
    exact hRecord
  cases crash with
  | none => exact h.update hUri
  | some point =>
    cases point with
    | staged => exact h
    | renamed => exact h.update fun _ hWhole => nomatch hWhole
    | recording => exact h.update fun _ hWhole => nomatch hWhole
    | recorded => exact h.update hUri

theorem Located.step (h : Located fetcher s) : Located fetcher (fetcher.step s call) := by
  dsimp only [TaskAssetFetcher.step, TaskAssetFetcher.fetch]
  split
  · exact h
  · split
    · exact h
    · exact h
    · split
      · exact h
      · exact h.storeAsset rfl

theorem fetch_of_cached {destination : Destination}
    (hUrl : (call.proposal.sourceUrl.bind orNone).isSome)
    (hDestination : s call.proposal.name = some destination)
    (hMetadata : destination.metadata = some (.whole record)) :
    fetcher.fetch s call = (.returned record, s) := by
  obtain ⟨url, hUrl⟩ := isSome_iff_exists.mp hUrl
  unfold TaskAssetFetcher.fetch
  simp only [hUrl, hDestination, bind_some, hMetadata]

theorem fetch_of_served {url : String} {fetched : FetchedUrl} (hCrash : call.crash = none)
    (hUrl : call.proposal.sourceUrl.bind orNone = some url)
    (hMetadata : (s call.proposal.name).bind Destination.metadata = none)
    (hDownload : fetcher.download call.proposal call.network url = .ok (fetched, content)) :
    fetcher.fetch s call =
      storeAsset s call.proposal.name content (fetcher.record call.proposal fetched) none := by
  unfold TaskAssetFetcher.fetch
  simp only [hUrl, hMetadata, hDownload, hCrash]

/-- A record is returned from the disk, or it is written for a file that was downloaded. -/
theorem fetch_returned (h : (fetcher.fetch s call).1 = .returned record) :
    (∃ destination, (call.proposal.sourceUrl.bind orNone).isSome ∧
        s call.proposal.name = some destination ∧ destination.metadata = some (.whole record) ∧
        fetcher.step s call = s) ∨
      ∃ url fetched content, call.proposal.sourceUrl.bind orNone = some url ∧
        (s call.proposal.name).bind Destination.metadata = none ∧
        fetcher.download call.proposal call.network url = .ok (fetched, content) ∧
          call.crash = none ∧
        record = fetcher.record call.proposal fetched ∧
        fetcher.step s call = (storeAsset s call.proposal.name content record none).2 := by
  have hFetch := h
  dsimp only [TaskAssetFetcher.fetch] at hFetch
  split at hFetch
  · cases hFetch
  next url hUrl =>
    split at hFetch
    next other hCached =>
      cases hFetch
      obtain ⟨destination, hDestination, hMetadata⟩ := bind_eq_some_iff.mp hCached
      have hSome : (call.proposal.sourceUrl.bind orNone).isSome := by rw [hUrl]; rfl
      refine .inl ⟨destination, hSome, hDestination, hMetadata, ?_⟩
      rw [TaskAssetFetcher.step, fetch_of_cached hSome hDestination hMetadata]
    · cases hFetch
    next hNone =>
      split at hFetch
      · cases hFetch
      next fetched content hDownload =>
        have hCrash : call.crash = none := by
          cases hPoint : call.crash with
          | none => rfl
          | some point =>
            rw [hPoint] at hFetch
            cases point <;> cases hFetch
        have hServed := fetch_of_served hCrash hUrl hNone hDownload
        rw [hCrash] at hFetch
        cases hFetch
        exact .inr ⟨url, fetched, content, hUrl, hNone, hDownload, hCrash, rfl,
          congrArg Prod.snd hServed⟩

theorem download_declared {url : String} {fetched : FetchedUrl} {digest : Sha256}
    (h : fetcher.download call.proposal call.network url = .ok (fetched, content))
    (hDeclared : call.proposal.expectedSha256 = some digest) : fetched.sha256 = digest := by
  have hFetched := fetched_of_download h
  have hExpected := hFetched.expected
  rw [hDeclared, map_some, meetsExpected, decide_eq_true_eq] at hExpected
  rw [hFetched.sha256]
  rcases hExpected with hEmpty | hEq
  · have hForm := digest.wellFormed
    rw [hEmpty] at hForm
    exact absurd hForm (by decide)
  · generalize fetcher.library.sha256 content = actual at hEq ⊢
    cases actual
    cases hEq
    rfl

theorem faithfulStep_of_undisturbed (hLocated : Located fetcher s)
    (h : Undisturbed fetcher s call) :
    FaithfulStep fetcher s call := by
  constructor
  · intro record hReturned
    rcases fetch_returned hReturned with ⟨destination, hUrl, hDestination, hMetadata, hStep⟩ |
      ⟨url, fetched, content, hUrl, hNone, hDownload, hCrash, rfl, hStep⟩
    · rw [hStep, hLocated _ _ _ hDestination hMetadata]
      exact ⟨destination.asset, fileAt_iff.mpr ⟨destination, hDestination, rfl⟩,
        (h.cached destination record hUrl hDestination hMetadata).1⟩
    · rw [hStep]
      cases hDestination : s call.proposal.name with
      | none =>
        refine ⟨content, fileAt_iff.mpr ⟨_, Function.update_self .., ?_⟩,
          (fetched_of_download hDownload).sha256.symm⟩
        rw [hDestination]
        rfl
      | some destination =>
        refine ⟨destination.asset, fileAt_iff.mpr ⟨_, Function.update_self .., ?_⟩, ?_⟩
        · rw [hDestination]
          rfl
        · rw [hDestination] at hNone
          rw [h.served url fetched content destination hCrash hUrl hDestination hNone hDownload]
          exact (fetched_of_download hDownload).sha256.symm
  · intro record digest hReturned hDeclared
    rcases fetch_returned hReturned with ⟨destination, hUrl, hDestination, hMetadata, -⟩ |
      ⟨url, fetched, content, -, -, hDownload, -, rfl, -⟩
    · exact (h.cached destination record hUrl hDestination hMetadata).2 digest hDeclared
    · exact download_declared hDownload hDeclared

theorem undisturbed_of_faithfulStep (hLocated : Located fetcher s)
    (h : FaithfulStep fetcher s call) :
    Undisturbed fetcher s call := by
  constructor
  · intro destination record hUrl hDestination hMetadata
    have hFetch : fetcher.fetch s call = (.returned record, s) :=
      fetch_of_cached hUrl hDestination hMetadata
    have hReturned : (fetcher.fetch s call).1 = .returned record := by rw [hFetch]
    refine ⟨?_, fun digest => h.declared record digest hReturned⟩
    obtain ⟨content, hFile, hSha⟩ := h.file record hReturned
    rw [TaskAssetFetcher.step, hFetch, hLocated _ _ _ hDestination hMetadata, fileAt_iff] at hFile
    obtain ⟨found, hFound, rfl⟩ := hFile
    obtain rfl : found = destination := Option.some.inj (hFound.symm.trans hDestination)
    exact hSha
  · intro url fetched content destination hCrash hUrl hDestination hMetadata hDownload
    have hNone : (s call.proposal.name).bind Destination.metadata = none := by
      rw [hDestination]
      exact hMetadata
    have hFetch := fetch_of_served hCrash hUrl hNone hDownload
    have hReturned :
        (fetcher.fetch s call).1 = .returned (fetcher.record call.proposal fetched) := by
      rw [hFetch]
      rfl
    obtain ⟨found, hFile, hSha⟩ := h.file _ hReturned
    rw [TaskAssetFetcher.step, hFetch] at hFile
    obtain ⟨other, hOther, rfl⟩ := fileAt_iff.mp hFile
    rw [storeAsset_none] at hOther
    dsimp only at hOther
    rw [Function.update_self, Option.some.injEq] at hOther
    subst hOther
    rw [hDestination] at hSha
    rw [← (fetched_of_download hDownload).sha256]
    exact hSha

/-- In a history of fetches all that is returned is faithful just if no fetch is disturbed. -/
theorem assets_faithful_iff (fetcher : TaskAssetFetcher) (calls : List Fetch) :
    Along fetcher.step (FaithfulStep fetcher) (fun _ => none) calls ↔
      Along fetcher.step (Undisturbed fetcher) (fun _ => none) calls :=
  along_congr (fun _ _ hLocated _ => hLocated.step)
    (fun _ _ hLocated => ⟨undisturbed_of_faithfulStep hLocated,
      faithfulStep_of_undisturbed hLocated⟩)
    located_empty

/-- The files and records are those of a digest that is fixed for each name. -/
def Agreed (fetcher : TaskAssetFetcher) (digest : String → Sha256) (s : AssetRoot) : Prop :=
  ∀ name destination, s name = some destination →
    fetcher.library.sha256 destination.asset = digest name ∧
      ∀ record, destination.metadata = some (.whole record) → record.sha256 = digest name

variable {digest : String → Sha256}

section

variable (h : Agreed fetcher digest s)
include h

theorem Agreed.storeAsset {record : DatasetAsset}
    {crash : Option CrashPoint}
    (hContent : fetcher.library.sha256 content = digest name)
    (hRecord : record.sha256 = digest name) :
    Agreed fetcher digest (storeAsset s name content record crash).2 := by
  have hAsset :
      fetcher.library.sha256 (((s name).map Destination.asset).getD content) = digest name := by
    cases hDestination : s name with
    | none => exact hContent
    | some destination => exact (h name destination hDestination).1
  have hUpdate (metadata : Option Sidecar)
      (hMetadata : ∀ other, metadata = some (.whole other) → other = record) :
      Agreed fetcher digest (Function.update s name
        (some ⟨((s name).map Destination.asset).getD content, metadata⟩)) := by
    intro other destination hOther
    by_cases hName : other = name
    · subst hName
      rw [Function.update_self, Option.some.injEq] at hOther
      subst hOther
      refine ⟨hAsset, fun found hFound => ?_⟩
      rw [hMetadata found hFound, hRecord]
    · rw [Function.update_of_ne hName] at hOther
      exact h other destination hOther
  have hWhole : ∀ other, some (Sidecar.whole record) = some (.whole other) → other = record := by
    rintro other ⟨⟩
    rfl
  cases crash with
  | none => exact hUpdate _ hWhole
  | some point =>
    cases point with
    | staged => exact h
    | renamed => exact hUpdate none fun _ hNone => nomatch hNone
    | recording => exact hUpdate _ fun _ hTorn => nomatch hTorn
    | recorded => exact hUpdate _ hWhole

section

variable (hDeclared : call.proposal.expectedSha256 = some (digest call.proposal.name))
include hDeclared

theorem Agreed.step :
    Agreed fetcher digest (fetcher.step s call) := by
  dsimp only [TaskAssetFetcher.step, TaskAssetFetcher.fetch]
  split
  · exact h
  · split
    · exact h
    · exact h
    · split
      · exact h
      next hDownload =>
        have hSha := download_declared hDownload hDeclared
        exact h.storeAsset ((fetched_of_download hDownload).sha256 ▸ hSha) hSha

theorem Agreed.undisturbed :
    Undisturbed fetcher s call := by
  constructor
  · intro destination record _ hDestination hMetadata
    obtain ⟨hFile, hRecord⟩ := h _ _ hDestination
    have hSha := hRecord record hMetadata
    refine ⟨hFile.trans hSha.symm, fun other hOther => ?_⟩
    rw [hDeclared, Option.some.injEq] at hOther
    exact hSha.trans hOther
  · intro url fetched content destination _ _ hDestination _ hDownload
    have hSha := download_declared hDownload hDeclared
    rw [(fetched_of_download hDownload).sha256] at hSha
    exact (h _ _ hDestination).1.trans hSha.symm

end

/-- Nothing is disturbed, wherever fetches crash, if all proposals of a name declare one digest. -/
theorem undisturbed_of_declared {calls : List Fetch}
    (hDeclared : ∀ call ∈ calls, call.proposal.expectedSha256 = some (digest call.proposal.name)) :
    Along fetcher.step (Undisturbed fetcher) s calls := by
  induction calls generalizing s with
  | nil => trivial
  | cons call calls ih =>
    obtain ⟨hCall, hRest⟩ := List.forall_mem_cons.mp hDeclared
    exact ⟨h.undisturbed hCall, ih (h.step hCall) hRest⟩

end

/-- Wherever fetches crash, all that is returned is faithful if the proposals of a name declare one
digest. -/
theorem faithful_of_declared (fetcher : TaskAssetFetcher) (digest : String → Sha256)
    {calls : List Fetch}
    (hDeclared : ∀ call ∈ calls, call.proposal.expectedSha256 = some (digest call.proposal.name)) :
    Along fetcher.step (FaithfulStep fetcher) (fun _ => none) calls := by
  have hAgreed : Agreed fetcher digest fun _ => none := by
    intro name destination h
    cases h
  have hFaithful : Along fetcher.step (FaithfulStep fetcher) (fun _ => none) calls ↔
      Along fetcher.step (Undisturbed fetcher) (fun _ => none) calls :=
    along_congr (fun _ _ hLocated _ => hLocated.step) (fun _ _ hLocated =>
      ⟨undisturbed_of_faithfulStep hLocated, faithfulStep_of_undisturbed hLocated⟩) located_empty
  exact hFaithful.mpr (undisturbed_of_declared hAgreed hDeclared)

end Faithful

section Example

/-- Two digests, one for the file with a single one, and one for every other file. -/
theorem isSha256_zeros : isSha256 (String.ofList (List.replicate 64 '0')) = true := by decide

def twoDigests : Library where
  sha256 content :=
    if content = [1] then ⟨String.ofList (List.replicate 64 '1'), by decide⟩
    else ⟨String.ofList (List.replicate 64 '0'), isSha256_zeros⟩
  urljoin _ location := location
  urlPath url := url
  lower text := text
  lower_eq _ _ := rfl

def twoDigestsFetcher : TaskAssetFetcher where
  library := twoDigests
  fetcher := { maximumBytes := 1024 }
  rootUri := "task-assets/task"

def serving (content : Bytes) : Network where
  validateUrl _ _ _ := .ok ()
  get _ _ _ := .ok
    { peer := .ok ()
      status := 200
      statusMessage := ""
      location := none
      contentType := none
      chunks := [content]
      cut := none }

def trainFetch (content : Bytes) (crash : Option CrashPoint) : Fetch where
  proposal :=
    { name := "train"
      nameValid := by decide
      role := "train"
      sourceUrl := some "https://example.com/train.csv"
      expectedSha256 := none
      containsLabels := false }
  network := serving content
  crash := crash

/-- A fetch crashes before the record, and the next one gets another file from the server. -/
theorem crashed_fetch_recorded_wrongly :
    ¬ Along twoDigestsFetcher.step (FaithfulStep twoDigestsFetcher) (fun _ => none)
      [trainFetch [1] (some .renamed), trainFetch [2] none] := by
  rintro ⟨-, hSecond, -⟩
  let record : DatasetAsset :=
    { name := "train"
      uri := twoDigestsFetcher.assetUri "train"
      sha256 := twoDigests.sha256 [2]
      role := "train"
      containsLabels := false }
  have hReturned : (twoDigestsFetcher.fetch
      (twoDigestsFetcher.step (fun _ => none) (trainFetch [1] (some .renamed)))
      (trainFetch [2] none)).1 = .returned record := rfl
  obtain ⟨content, hFile, hSha⟩ := hSecond.file record hReturned
  obtain ⟨destination, hDestination, rfl⟩ := fileAt_iff.mp hFile
  have hAsset : destination.asset = [1] := by
    cases hDestination
    rfl
  rw [hAsset] at hSha
  exact absurd hSha (by decide)

/-- The second fetch raises, as what it gets has another digest than was declared. -/
theorem faithful_of_declared_crashed :
    Along twoDigestsFetcher.step (FaithfulStep twoDigestsFetcher) (fun _ => none)
      ([trainFetch [1] (some .renamed), trainFetch [2] none].map fun call =>
        { call with proposal.expectedSha256 := some (twoDigests.sha256 [1]) }) :=
  faithful_of_declared twoDigestsFetcher (fun _ => twoDigests.sha256 [1]) (by simp)

end Example

end Glasslab.Datasets
