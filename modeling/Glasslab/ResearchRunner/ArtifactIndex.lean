import Glasslab.Foundation.Raising
import Glasslab.Methodology.Requirements
import Glasslab.WorkflowApi.RunArtifacts
import Mathlib.Data.List.ReduceOption

/-!
# The index of the artifacts of a run

`_build_artifact_index` of the runner writes an index of what a workload has left, and
`load_artifacts_from_disk` of `app/run_artifacts.py` reads it back and adds what a scan of the
directory finds. A file that cannot be read is recorded by the runner with a key of its own,
`unhashable`, which the schema of the reader does not know: one such file, and the whole index is
refused. The reader itself stops at a file it cannot read. Otherwise the index that is read back
lists every file once, with the digest that the runner recorded (`readBack_iff`).
-/

namespace Glasslab.ResearchRunner

open Foundation Foundation.Raising List
open Glasslab.WorkflowApi
open Glasslab.Methodology (pathSuffix)

/-- The path of a file or directory below the directory of the run, as `as_posix` shows it. -/
structure RelativePath where
  text : String
  text_ne : text.toList ≠ []
  no_slash : text.toList.getLast? ≠ some '/'
  deriving DecidableEq

def hexDigest (value : String) : Bool :=
  value.toList.length = 64 ∧ value.toList.all fun c => ('0' ≤ c ∧ c ≤ '9') ∨ ('a' ≤ c ∧ c ≤ 'f')

/-- SHA-256 in hexadecimal digits. -/
structure FileDigest where
  text : String
  valid : hexDigest text = true

/-- An `OSError` or a `RuntimeError`, as `str` shows it. -/
structure Fault where
  message : String

/-- What the file system answers for a path, call by call. -/
structure Looks where
  isSymlink : Except Fault Bool
  isWithin : Except Fault Bool
  isDir : Except Fault Bool
  isFile : Except Fault Bool
  size : Except Fault Nat
  sha256 : Except Fault FileDigest

/-- `sorted(root.rglob('*'))`, and what is found at each path. -/
structure Scan where
  entries : List (RelativePath × Looks)
  distinct : (entries.map fun entry => entry.1.text).Nodup

inductive Found where
  | skipped
  | directory
  | file (size : Nat) (sha256 : FileDigest)

/-- The calls that both services make for a path, in their order. -/
def Looks.found (looks : Looks) : Except Fault Found := do
  if ← looks.isSymlink then pure .skipped
  else if !(← looks.isWithin) then pure .skipped
  else if ← looks.isDir then pure .directory
  else if !(← looks.isFile) then pure .skipped
  else
    let size ← looks.size
    let sha256 ← looks.sha256
    pure (.file size sha256)

structure Looks.IsRegular (looks : Looks) : Prop where
  isSymlink : looks.isSymlink = .ok false
  isWithin : looks.isWithin = .ok true
  isDir : looks.isDir = .ok false
  isFile : looks.isFile = .ok true

section Runner

variable (runId runRoot : String) (required : List String)

def baseEntry (path : RelativePath) : Entries :=
  [("name", text path.text), ("path", text (runRoot ++ "/" ++ path.text)),
    ("media_type", text "application/octet-stream"),
    ("required", .scalar (.bool (path.text ∈ required)))]

def indexEntry (entry : RelativePath × Looks) : Option Entries :=
  match entry.2.found with
  | .ok (.file size sha256) =>
    some (baseEntry runRoot required entry.1 ++
      [("size_bytes", .scalar (.int size)), ("sha256", text sha256.text),
        ("description", text "Emitted by the frozen research workspace.")])
  | .ok .directory | .ok .skipped => none
  | .error exc =>
    some (baseEntry runRoot required entry.1 ++
      [("size_bytes", .scalar .null), ("sha256", .scalar .null),
        ("unhashable", .scalar (.bool true)),
        ("description", text ("Unreadable or vanished at bundle time: " ++ exc.message))])

def buildArtifactIndex (scan : Scan) : Entries :=
  [("run_id", text runId),
    ("artifacts", .list ((scan.entries.filterMap (indexEntry runRoot required)).map .map))]

end Runner

/-- What `load_artifacts_from_disk` raises. -/
inductive LoadError where
  | fault (fault : Fault)
  /-- `json.loads`. -/
  | json (message : String)
  | validation (model : String)

/-- What pydantic makes of a value that has not the type of its field. -/
structure Lax where
  toBool : WorkflowApi.Value → Option Bool
  toSize : WorkflowApi.Value → Option Nat

def entryFields : List String :=
  ["name", "path", "media_type", "required", "size_bytes", "sha256", "description"]

section Reader

variable (lax : Lax) (runId : String)

def textField (payload : Entries) (key : String) : Option String :=
  match payload.lookup key with
  | some (.scalar (.str value)) => some value
  | _ => none

def optionalText (payload : Entries) (key : String) : Option (Option String) :=
  match payload.lookup key with
  | none | some (.scalar .null) => some none
  | some (.scalar (.str value)) => some (some value)
  | _ => none

def requiredField (payload : Entries) : Option Bool :=
  match payload.lookup "required" with
  | none => some true
  | some (.scalar (.bool value)) => some value
  | some value => lax.toBool value

def sizeField (payload : Entries) : Option (Option Nat) :=
  match payload.lookup "size_bytes" with
  | none | some (.scalar .null) => some none
  | some (.scalar (.int (.ofNat size))) => some (some size)
  | some value => (lax.toSize value).map some

def sha256Field (payload : Entries) : Option (Option String) :=
  (optionalText payload "sha256").filter fun value => value.all hexDigest

/-- The fields of `ArtifactIndexEntry`, all of which must be valid, with no others. -/
def entryOf (payload : Entries) : Option ArtifactIndexEntry := do
  guard (payload.all fun field => field.1 ∈ entryFields)
  let name ← textField payload "name"
  let path ← textField payload "path"
  let mediaType ← textField payload "media_type"
  let required ← requiredField lax payload
  let sizeBytes ← sizeField lax payload
  let sha256 ← sha256Field payload
  let description ← optionalText payload "description"
  pure ⟨name, path, mediaType, required, sizeBytes, sha256, description⟩

def validateEntry : WorkflowApi.Value → Except LoadError ArtifactIndexEntry
  | .map payload =>
    match entryOf lax payload with
    | some entry => .ok entry
    | none => .error (.validation "ArtifactsIndex")
  | _ => .error (.validation "ArtifactsIndex")

/-- `ArtifactsIndex.model_validate`, for a payload that names the run. -/
def validateIndex (payload : Entries) : Except LoadError ArtifactsIndex :=
  if payload.all fun field => field.1 ∈ ["run_id", "artifacts"] then
    match payload.lookup "artifacts" with
    | none => .ok ⟨runId, []⟩
    | some (.list values) => do
      let artifacts ← values.mapM (validateEntry lax)
      pure ⟨runId, artifacts⟩
    | some _ => .error (.validation "ArtifactsIndex")
  else .error (.validation "ArtifactsIndex")

def mediaTypes : List (String × String) :=
  [(".json", "application/json"), (".md", "text/markdown"), (".csv", "text/csv"),
    (".txt", "text/plain"), (".log", "text/plain")]

def requiredFiles : List String :=
  ["run_manifest.json", "config.json", "metrics.json", "artifacts_index.json", "report.md",
    "status.json", "logs/runner.log"]

/-- One pass of the loop of `build_artifacts_from_directory`. -/
def scannedEntry (entry : RelativePath × Looks) : Except LoadError (Option ArtifactIndexEntry) :=
  let relative := entry.1.text
  match entry.2.found with
  | .error fault => .error (.fault fault)
  | .ok .skipped => .ok none
  | .ok .directory =>
    .ok (some
      { name := relative ++ "/"
        path := "artifacts/" ++ runId ++ "/" ++ relative ++ "/"
        mediaType := "inode/directory"
        required := relative = "logs"
        description := some "Discovered from shared artifacts volume" })
  | .ok (.file size sha256) =>
    .ok (some
      { name := relative
        path := "artifacts/" ++ runId ++ "/" ++ relative
        mediaType := (mediaTypes.lookup (String.ofList (pathSuffix relative)).toLower).getD
          "application/octet-stream"
        required := relative ∈ requiredFiles
        sizeBytes := some size
        sha256 := some sha256.text
        description := some "Discovered from shared artifacts volume" })

/-- `build_artifacts_from_directory`, where the directory may be missing. -/
def buildArtifactsFromDirectory : Option Scan → Except LoadError (Option ArtifactsIndex)
  | none => .ok none
  | some scan => do
    let found ← scan.entries.mapM (scannedEntry runId)
    pure (some ⟨runId, found.reduceOption⟩)

def mergeIndex (index scanned : ArtifactsIndex) : ArtifactsIndex :=
  ⟨runId, index.artifacts ++
    scanned.artifacts.filter fun entry => entry.name ∉ index.artifacts.map ArtifactIndexEntry.name⟩

def loadArtifactsFromDisk (indexFile : JsonFile) (directory : Option Scan) :
    Except LoadError (Option ArtifactsIndex) :=
  match indexFile with
  | .absent => buildArtifactsFromDirectory runId directory
  | .malformed message => .error (.json message)
  | .json (.map payload) =>
    if payload.lookup "run_id" ≠ some (text runId) then .ok none
    else do
      let index ← validateIndex lax runId payload
      let scanned ← buildArtifactsFromDirectory runId directory
      match scanned with
      | none => pure (some index)
      | some scanned => pure (some (mergeIndex runId index scanned))
  | .json _ => .ok none

end Reader

/-! ## What is read back -/

/-- Every regular file below the directory is listed once, with the digest that the runner recorded
for it. -/
structure Lists (written present : Scan) (index : ArtifactsIndex) : Prop where
  once : ∀ entry ∈ present.entries, entry.2.IsRegular →
    (index.artifacts.map ArtifactIndexEntry.name).count entry.1.text = 1
  recorded : ∀ entry ∈ written.entries, ∀ size sha256, entry.2.found = .ok (.file size sha256) →
    ∀ listed ∈ index.artifacts, listed.name = entry.1.text → listed.sha256 = some sha256.text

/-- No call that is made for a path fails. -/
def Scan.Answers (scan : Scan) : Prop := ∀ entry ∈ scan.entries, ∃ found, entry.2.found = .ok found

section ReadBack

variable {lax : Lax} {runId runRoot : String} {required : List String} {scan written present : Scan}
  {entry : RelativePath × Looks} {size : Nat} {sha256 : FileDigest}

def recordedEntry (runRoot : String) (required : List String) (path : RelativePath) (size : Nat)
    (sha256 : FileDigest) : ArtifactIndexEntry where
  name := path.text
  path := runRoot ++ "/" ++ path.text
  mediaType := "application/octet-stream"
  required := path.text ∈ required
  sizeBytes := some size
  sha256 := some sha256.text
  description := some "Emitted by the frozen research workspace."

/-- What the reader has of a path after the runner has been there. -/
def recorded (runRoot : String) (required : List String) (entry : RelativePath × Looks) :
    Option ArtifactIndexEntry :=
  match entry.2.found with
  | .ok (.file size sha256) => some (recordedEntry runRoot required entry.1 size sha256)
  | _ => none

/-- The entry of a file that was hashed is read back as it was written. -/
theorem validateEntry_file (h : entry.2.found = .ok (.file size sha256)) :
    ∃ payload, indexEntry runRoot required entry = some payload ∧
      validateEntry lax (.map payload) =
    .ok (recordedEntry runRoot required entry.1 size sha256) := by
  refine ⟨_, by rw [indexEntry, h], ?_⟩
  have hKept : (some (some sha256.text)).filter (fun value => value.all hexDigest) =
      some (some sha256.text) := by
    simp [Option.filter, sha256.valid]
  simp [validateEntry, entryOf, baseEntry, entryFields, textField, optionalText, requiredField,
    sizeField, sha256Field, text, hKept, recordedEntry, List.lookup_cons]

/-- The entry of a file that could not be hashed is refused. -/
theorem validateEntry_error {exc : Fault} (h : entry.2.found = .error exc) :
    ∃ payload, indexEntry runRoot required entry = some payload ∧
      validateEntry lax (.map payload) = .error (.validation "ArtifactsIndex") := by
  refine ⟨_, by rw [indexEntry, h], ?_⟩
  simp [validateEntry, entryOf, baseEntry, entryFields]

theorem validateEntries_eq_ok_iff {entries : List (RelativePath × Looks)}
    {artifacts : List ArtifactIndexEntry} :
    ((entries.filterMap (indexEntry runRoot required)).map Document.map).mapM (validateEntry lax) =
        .ok artifacts ↔
      (∀ entry ∈ entries, ∃ found, entry.2.found = .ok found) ∧
        artifacts = entries.filterMap (recorded runRoot required) := by
  induction entries generalizing artifacts with
  | nil =>
    rw [filterMap_nil, map_nil, mapM_nil, pure_eq_ok_iff]
    simp
  | cons entry rest ih =>
    rw [forall_mem_cons]
    cases hFound : entry.2.found with
    | error exc =>
      obtain ⟨payload, hPayload, hRefused⟩ :=
        @validateEntry_error lax runRoot required entry exc hFound
      rw [filterMap_cons_some hPayload, map_cons, mapM_cons, hRefused]
      constructor
      · intro hOk
        cases hOk
      · rintro ⟨⟨⟨found, hNone⟩, -⟩, -⟩
        cases hNone
    | ok found =>
      have hOther (hIndex : indexEntry runRoot required entry = none)
          (hRecorded : recorded runRoot required entry = none) :
          ((((entry :: rest).filterMap (indexEntry runRoot required)).map Document.map).mapM
              (validateEntry lax) = .ok artifacts) ↔
            ((∃ found', (.ok found : Except Fault Found) = .ok found') ∧
              ∀ entry ∈ rest, ∃ found, entry.2.found = .ok found) ∧
              artifacts = (entry :: rest).filterMap (recorded runRoot required) := by
        rw [filterMap_cons_none hIndex, filterMap_cons_none hRecorded, ih]
        exact and_congr_left fun _ => (and_iff_right ⟨found, rfl⟩).symm
      cases found with
      | skipped => exact hOther (by rw [indexEntry, hFound]) (by rw [recorded, hFound])
      | directory => exact hOther (by rw [indexEntry, hFound]) (by rw [recorded, hFound])
      | file size sha256 =>
        obtain ⟨payload, hPayload, hRead⟩ :=
          @validateEntry_file lax runRoot required entry size sha256 hFound
        have hRecorded : recorded runRoot required entry =
            some (recordedEntry runRoot required entry.1 size sha256) := by
          rw [recorded, hFound]
        rw [filterMap_cons_some hPayload, filterMap_cons_some hRecorded, map_cons,
          mapM_cons, hRead, bind_eq_ok_iff]
        constructor
        · rintro ⟨first, hFirst, hOk⟩
          cases hFirst
          obtain ⟨others, hOthers, hOk⟩ := of_bind hOk
          obtain ⟨hAnswers, rfl⟩ := ih.mp hOthers
          exact ⟨⟨⟨_, rfl⟩, hAnswers⟩, pure_eq_ok_iff.mp hOk⟩
        · rintro ⟨⟨-, hAnswers⟩, rfl⟩
          exact ⟨_, rfl, bind_eq_ok_iff.mpr ⟨_, ih.mpr ⟨hAnswers, rfl⟩, rfl⟩⟩

/-- The index that the runner writes is accepted if it could hash every file. -/
theorem validateIndex_eq_ok_iff {index : ArtifactsIndex} :
    validateIndex lax runId (buildArtifactIndex runId runRoot required written) = .ok index ↔
      written.Answers ∧ index = ⟨runId, written.entries.filterMap (recorded runRoot required)⟩ := by
  have hValidate : validateIndex lax runId (buildArtifactIndex runId runRoot required written) =
      (do
        let artifacts ← ((written.entries.filterMap (indexEntry runRoot required)).map
          Document.map).mapM (validateEntry lax)
        pure ⟨runId, artifacts⟩) := by
    simp [validateIndex, buildArtifactIndex, List.lookup_cons]
  rw [hValidate, bind_eq_ok_iff]
  constructor
  · rintro ⟨artifacts, hArtifacts, hPure⟩
    obtain ⟨hAnswers, rfl⟩ := validateEntries_eq_ok_iff.mp hArtifacts
    exact ⟨hAnswers, pure_eq_ok_iff.mp hPure⟩
  · rintro ⟨hAnswers, rfl⟩
    exact ⟨_, validateEntries_eq_ok_iff.mpr ⟨hAnswers, rfl⟩, rfl⟩

def listed (runId : String) (entry : RelativePath × Looks) : Option ArtifactIndexEntry :=
  (scannedEntry runId entry).toOption.join

variable {index : Option ArtifactsIndex}

theorem buildArtifactsFromDirectory_eq_ok_iff :
    buildArtifactsFromDirectory runId (some present) = .ok index ↔
      present.Answers ∧ index = some ⟨runId, present.entries.filterMap (listed runId)⟩ := by
  have hEntry : ∀ entry found, scannedEntry runId entry = .ok found ↔
      (∃ found, entry.2.found = .ok found) ∧ found = listed runId entry := by
    intro entry found
    unfold listed scannedEntry
    cases hFound : entry.2.found with
    | error exc => simp
    | ok kind => cases kind <;> simp [eq_comm, Except.toOption]
  rw [buildArtifactsFromDirectory, bind_eq_ok_iff]
  constructor
  · rintro ⟨found, hLoop, hPure⟩
    obtain ⟨hAnswers, rfl⟩ := (mapM_eq_ok_iff hEntry).mp hLoop
    refine ⟨hAnswers, (pure_eq_ok_iff.mp hPure).trans ?_⟩
    rw [List.reduceOption, filterMap_map]
    rfl
  · rintro ⟨hAnswers, rfl⟩
    refine ⟨_, (mapM_eq_ok_iff hEntry).mpr ⟨hAnswers, rfl⟩, ?_⟩
    rw [List.reduceOption, filterMap_map]
    rfl

/-! ## Names -/

variable {found : ArtifactIndexEntry}

theorem name_of_recorded
    (h : recorded runRoot required entry = some found) : found.name = entry.1.text := by
  unfold recorded at h
  split at h
  · cases h
    rfl
  · cases h

theorem name_of_listed (h : listed runId entry = some found) :
    found.name = entry.1.text ∨ found.name = entry.1.text ++ "/" := by
  unfold listed scannedEntry at h
  split at h
  · cases h
  · cases h
  · cases h
    exact .inr rfl
  · cases h
    exact .inl rfl

theorem text_ne_append_slash (path : RelativePath) (other : String) : path.text ≠ other ++ "/" := by
  intro hSame
  apply path.no_slash
  rw [hSame, String.toList_append]
  simp

theorem nodup_names {f : RelativePath × Looks → Option ArtifactIndexEntry} (scan : Scan)
    (h : ∀ a b, a.1.text ≠ b.1.text → ∀ x y, f a = some x → f b = some y → x.name ≠ y.name) :
    ((scan.entries.filterMap f).map ArtifactIndexEntry.name).Nodup := by
  have hDistinct : scan.entries.Pairwise fun a b => a.1.text ≠ b.1.text :=
    pairwise_map.mp scan.distinct
  rw [List.Nodup, pairwise_map, pairwise_filterMap]
  exact hDistinct.imp fun {a b} hNe x hx y hy => h a b hNe x y hx hy

theorem nodup_recorded (runRoot : String) (required : List String) (written : Scan) :
    ((written.entries.filterMap (recorded runRoot required)).map
      ArtifactIndexEntry.name).Nodup := by
  refine nodup_names written fun a b hNe x y hx hy => ?_
  rw [name_of_recorded hx, name_of_recorded hy]
  exact hNe

theorem nodup_listed (runId : String) (present : Scan) :
    ((present.entries.filterMap (listed runId)).map ArtifactIndexEntry.name).Nodup := by
  refine nodup_names present fun a b hNe x y hx hy => ?_
  rcases name_of_listed hx with hFile | hDirectory
  · rcases name_of_listed hy with hFile' | hDirectory'
    · rw [hFile, hFile']
      exact hNe
    · rw [hFile, hDirectory']
      exact text_ne_append_slash a.1 b.1.text
  · rcases name_of_listed hy with hFile' | hDirectory'
    · rw [hDirectory, hFile']
      exact (text_ne_append_slash b.1 a.1.text).symm
    · rw [hDirectory, hDirectory']
      intro hSame
      have hList := congrArg String.toList hSame
      rw [String.toList_append, String.toList_append] at hList
      exact hNe (String.toList_injective (append_cancel_right hList))

theorem nodup_mergeIndex {index scanned : ArtifactsIndex}
    (hIndex : (index.artifacts.map ArtifactIndexEntry.name).Nodup)
    (hScanned : (scanned.artifacts.map ArtifactIndexEntry.name).Nodup) :
    ((mergeIndex runId index scanned).artifacts.map ArtifactIndexEntry.name).Nodup := by
  rw [mergeIndex, map_append, nodup_append]
  refine ⟨hIndex, hScanned.sublist (filter_sublist.map _), ?_⟩
  rintro name hMem other hOther rfl
  obtain ⟨found, hFound, rfl⟩ := mem_map.mp hOther
  exact of_decide_eq_true (mem_filter.mp hFound).2 hMem

theorem found_of_isRegular (hRegular : entry.2.IsRegular) {found : Found}
    (h : entry.2.found = .ok found) : ∃ size sha256, entry.2.found = .ok (.file size sha256) := by
  have hFound : entry.2.found = (do
      let size ← entry.2.size
      let sha256 ← entry.2.sha256
      pure (.file size sha256)) := by
    simp [Looks.found, hRegular.isSymlink, hRegular.isWithin, hRegular.isDir, hRegular.isFile,
      bind, Except.bind]
  rw [hFound, bind_eq_ok_iff] at h
  obtain ⟨size, hSize, h⟩ := h
  obtain ⟨sha256, hDigest, -⟩ := of_bind h
  refine ⟨size, sha256, ?_⟩
  rw [hFound, hSize, hDigest]
  rfl

theorem lists_mergeIndex (hPresent : present.Answers) :
    Lists written present (mergeIndex runId
      ⟨runId, written.entries.filterMap (recorded runRoot required)⟩
      ⟨runId, present.entries.filterMap (listed runId)⟩) := by
  have hNodup :=
    @nodup_mergeIndex runId ⟨runId, written.entries.filterMap (recorded runRoot required)⟩
    ⟨runId, present.entries.filterMap (listed runId)⟩ (nodup_recorded runRoot required written)
    (nodup_listed runId present)
  constructor
  · intro entry hEntry hRegular
    obtain ⟨found, hFound⟩ := hPresent entry hEntry
    obtain ⟨size, sha256, hFile⟩ := found_of_isRegular hRegular hFound
    apply count_eq_one_of_mem hNodup
    by_cases hSeen : entry.1.text ∈
        (written.entries.filterMap (recorded runRoot required)).map ArtifactIndexEntry.name
    · rw [mergeIndex, map_append]
      exact mem_append_left _ hSeen
    · have hListed : ∃ new, listed runId entry = some new ∧ new.name = entry.1.text := by
        refine ⟨_, by simp only [listed, scannedEntry, hFile]; rfl, rfl⟩
      obtain ⟨new, hNew, hName⟩ := hListed
      rw [← hName]
      apply mem_map_of_mem
      refine mem_append_right _ (mem_filter.mpr ⟨?_, ?_⟩)
      · exact mem_filterMap.mpr ⟨entry, hEntry, hNew⟩
      · rw [hName]
        exact decide_eq_true hSeen
  · intro entry hEntry size sha256 hFile found hMem hName
    have hRecorded : recorded runRoot required entry =
        some (recordedEntry runRoot required entry.1 size sha256) := by
      rw [recorded, hFile]
    have hHere : recordedEntry runRoot required entry.1 size sha256 ∈ (mergeIndex runId
        ⟨runId, written.entries.filterMap (recorded runRoot required)⟩
        ⟨runId, present.entries.filterMap (listed runId)⟩).artifacts :=
      mem_append_left _ (mem_filterMap.mpr ⟨entry, hEntry, hRecorded⟩)
    rw [inj_on_of_nodup_map hNodup hMem hHere hName]
    rfl

theorem loadArtifactsFromDisk_eq_ok_iff :
    loadArtifactsFromDisk lax runId
        (.json (.map (buildArtifactIndex runId runRoot required written))) (some present) =
          .ok index ↔
      (written.Answers ∧ present.Answers) ∧ index = some (mergeIndex runId
        ⟨runId, written.entries.filterMap (recorded runRoot required)⟩
        ⟨runId, present.entries.filterMap (listed runId)⟩) := by
  have hRun : ¬ (buildArtifactIndex runId runRoot required written).lookup "run_id" ≠
      some (text runId) := by
    simp [buildArtifactIndex]
  rw [loadArtifactsFromDisk, if_neg hRun, bind_eq_ok_iff]
  constructor
  · rintro ⟨own, hOwn, hOk⟩
    obtain ⟨scanned, hScanned, hOk⟩ := of_bind hOk
    obtain ⟨hWritten, rfl⟩ := validateIndex_eq_ok_iff.mp hOwn
    obtain ⟨hPresent, rfl⟩ := buildArtifactsFromDirectory_eq_ok_iff.mp hScanned
    exact ⟨⟨hWritten, hPresent⟩, pure_eq_ok_iff.mp hOk⟩
  · rintro ⟨⟨hWritten, hPresent⟩, rfl⟩
    refine ⟨_, validateIndex_eq_ok_iff.mpr ⟨hWritten, rfl⟩, bind_eq_ok_iff.mpr ?_⟩
    exact ⟨_, buildArtifactsFromDirectory_eq_ok_iff.mpr ⟨hPresent, rfl⟩, rfl⟩

/-- **The index is read back**: whatever the runner found below the directory of a run and whatever
the reader finds there, the index that the runner writes is accepted and lists every regular file
once with the digest that was recorded, if and only if no call failed for a path, of the runner's
and of the reader's. -/
theorem readBack_iff (lax : Lax) (runId runRoot : String) (required : List String)
    (written present : Scan) :
    (∃ index, loadArtifactsFromDisk lax runId
          (.json (.map (buildArtifactIndex runId runRoot required written))) (some present) =
            .ok (some index) ∧ Lists written present index) ↔
      written.Answers ∧ present.Answers := by
  constructor
  · rintro ⟨index, hOk, -⟩
    exact (loadArtifactsFromDisk_eq_ok_iff.mp hOk).1
  · intro hAnswers
    exact ⟨_, loadArtifactsFromDisk_eq_ok_iff.mpr ⟨hAnswers, rfl⟩, lists_mergeIndex hAnswers.2⟩

end ReadBack

/-- A regular file of three bytes, and what reading it comes to. -/
def lookAt (sha256 : Except Fault FileDigest) : Looks where
  isSymlink := .ok false
  isWithin := .ok true
  isDir := .ok false
  isFile := .ok true
  size := .ok 3
  sha256 := sha256

def metricsPath : RelativePath where
  text := "metrics.json"
  text_ne := by decide
  no_slash := by decide

def metricsScan (sha256 : Except Fault FileDigest) : Scan where
  entries := [(metricsPath, lookAt sha256)]
  distinct := List.nodup_singleton _

/-- SHA-256 of `{}` and a line break. -/
def metricsDigest : FileDigest where
  text := "ca3d163bab055381827226140568f3bef7eaac187cebd76878e0b63e9e442356"
  valid := by decide +kernel

def permissionDenied : Fault :=
  ⟨"[Errno 13] Permission denied: '/mnt/artifacts/run-1/metrics.json'"⟩

/-- The workload has left a file that the runner may not read. The reader may, and finds it. -/
theorem unhashable_refused :
    ¬ ∃ index, loadArtifactsFromDisk ⟨fun _ => none, fun _ => none⟩ "run-1"
          (.json (.map (buildArtifactIndex "run-1" "/mnt/artifacts/run-1" []
            (metricsScan (.error permissionDenied)))))
          (some (metricsScan (.ok metricsDigest))) = .ok (some index) ∧
        Lists (metricsScan (.error permissionDenied)) (metricsScan (.ok metricsDigest)) index := by
  rintro ⟨index, hOk, -⟩
  obtain ⟨⟨hWritten, -⟩, -⟩ := loadArtifactsFromDisk_eq_ok_iff.mp hOk
  obtain ⟨found, hFound⟩ := hWritten _ (mem_singleton_self _)
  cases hFound

end Glasslab.ResearchRunner
