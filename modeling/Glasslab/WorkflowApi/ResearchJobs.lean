import Glasslab.Foundation.PurePaths
import Glasslab.WorkflowApi.Investigations
import Glasslab.WorkflowApi.Schedules

/-!
# Jobs of research workspaces

The validators of assets and dataset bindings of `app/schemas.py`, and what `submit_run` of
`app/job_submission.py` puts into the job of a research workspace: its environment and its mounts.
-/

namespace Glasslab.WorkflowApi

open Foundation List Raising Except
open Glasslab.Methodology (isSpace)

structure ValueError where
  message : String
  deriving DecidableEq

def assetPrefixes : List String := ["s3://datasets/", "s3://glasslab-datasets/", "s3://artifacts/"]

/-- `startswith`, and `removeprefix`. -/
def removePrefix? (pre value : String) : Option String :=
  (value.toList.dropPrefix? pre.toList).map String.ofList

def invalidRelative (relative : String) : Bool :=
  let path := parsePath relative
  relative = "" ∨ path.asPosix = "." ∨ path.isAbsolute ∨ ".." ∈ path.names

def normalizeAssetUri (value : String) : Except ValueError String :=
  let cleaned := stripText value
  if cleaned = "" then .error ⟨"asset reference values must not be blank"⟩
  else
    match assetPrefixes.findSome? fun pre => removePrefix? pre cleaned with
    | none =>
      .error ⟨"immutable investigation assets must use an approved data or artifact plane"⟩
    | some relative =>
      if invalidRelative relative then .error ⟨"immutable investigation asset path is invalid"⟩
      else .ok cleaned

def normalizeDatasetBindingText (value : String) : Except ValueError String :=
  let cleaned := stripText value
  if cleaned = "" then .error ⟨"dataset binding values must not be blank"⟩ else .ok cleaned

structure AcceptedBindings (execution : InvestigationExecutionSpec) : Prop where
  names : ∀ binding ∈ execution.datasetBindings,
    ∃ raw, normalizeDatasetBindingText raw = .ok binding.name
  uris : ∀ binding ∈ execution.datasetBindings,
    ∃ raw, normalizeAssetUri raw = .ok binding.asset.uri
  unique : (execution.datasetBindings.map InvestigationDatasetBinding.name).Nodup

/-- The mount paths of the settings; each names a directory below the root. -/
structure MountPaths where
  datasetMountPath : String := "/mnt/datasets"
  artifactsMountPath : String := "/mnt/artifacts"
  dataset_names : (parsePath datasetMountPath).names ≠ [] := by decide +kernel
  artifacts_names : (parsePath artifactsMountPath).names ≠ [] := by decide +kernel

inductive Volume where
  | dataset
  | artifacts
  deriving DecidableEq, Repr

def MountPaths.root (settings : MountPaths) : Volume → String
  | .dataset => settings.datasetMountPath
  | .artifacts => settings.artifactsMountPath

def validateRelativeSubpath (relative uri : String) : Except ValueError String :=
  if invalidRelative relative then .error ⟨"asset URI has an invalid path: " ++ uri⟩
  else .ok (parsePath relative).asPosix

def validateRunArtifactSubpath (runId : String) : Except ValueError String :=
  let path := parsePath runId
  if runId = "" ∨ runId = "." ∨ runId = ".." ∨ path.isAbsolute ∨ path.names.length ≠ 1 ∨
      ".." ∈ path.names then
    .error ⟨"run_id is not a safe artifact subpath: " ++ runId⟩
  else .ok runId

def assetVolume (uri : String) : Option (Volume × String) :=
  match removePrefix? "s3://datasets/" uri, removePrefix? "s3://glasslab-datasets/" uri,
    removePrefix? "s3://artifacts/" uri with
  | some relative, _, _ => some (.dataset, relative)
  | none, some relative, _ => some (.dataset, relative)
  | none, none, some relative => some (.artifacts, relative)
  | none, none, none => none

def assetVolumeSubpath (uri : String) : Except ValueError (Volume × String) :=
  match assetVolume uri with
  | none =>
    .error ⟨"research workspace assets must use an approved data or artifact URI"⟩
  | some (volume, relative) => (validateRelativeSubpath relative uri).map (volume, ·)

def resolveDatasetUri (settings : MountPaths) (uri : String) : Except ValueError String :=
  match assetVolume uri with
  | some (volume, relative) =>
    (validateRelativeSubpath relative uri).map fun subpath =>
      settings.root volume ++ "/" ++ subpath
  | none =>
    if (removePrefix? "s3://" uri).isSome then
      .error ⟨"asset URI must use an approved data or artifact prefix: " ++ uri⟩
    else (validateRelativeSubpath uri uri).map fun _ => uri

/-- `str` of a JSON value: a text itself, and another value as it is printed. -/
def strOf (repr : Value → String) : Value → String
  | .scalar (.str value) => value
  | value => repr value

def assetUris (repr : Value → String) (configPayload : Entries) : Except ValueError (List String) :=
  match configPayload.lookup "workspace" with
  | some (.map workspace) =>
    match (configPayload.lookup "dataset_contracts").getD (.list []) with
    | .list contracts =>
      let references := [workspace.lookup "task_bundle", workspace.lookup "source_bundle"] ++
        contracts.filterMap fun
          | .map contract => some (contract.lookup "asset")
          | _ => none
      references.mapM fun
        | some (.map reference) =>
          .ok (stripText (((reference.lookup "uri").map (strOf repr)).getD ""))
        | _ => .error ⟨"research workspace asset reference is missing"⟩
    | _ => .error ⟨"research workspace dataset_contracts must be a list"⟩
  | _ => .error ⟨"research workspace manifest is missing workspace config"⟩

def researchWorkspaceAssetLocations (repr : Value → String) (manifest : RunManifest) :
    Except ValueError (List (Volume × String)) := do
  let uris ← assetUris repr manifest.configPayload
  let locations ← uris.mapM assetVolumeSubpath
  .ok locations.reverse.dedup.reverse

structure VolumeMount where
  volume : Volume
  mountPath : String
  subPath : String
  readOnly : Bool
  deriving DecidableEq, Repr

def researchWorkspaceVolumeMountSpecs (repr : Value → String) (manifest : RunManifest)
    (settings : MountPaths) : Except ValueError (List VolumeMount) := do
  let locations ← researchWorkspaceAssetLocations repr manifest
  let runSubpath ← validateRunArtifactSubpath manifest.runId
  .ok (locations.map (fun (volume, subpath) =>
      ⟨volume, settings.root volume ++ "/" ++ subpath, subpath, true⟩) ++
    [⟨.artifacts, settings.artifactsMountPath ++ "/" ++ manifest.runId, runSubpath, false⟩])

/-- The environment that the runner reads, as the JSON values in it, and the mounts. -/
structure ResearchJob where
  experimentId : String
  configPayload : Entries
  datasetBindings : List (String × String)
  datasetRoot : String
  artifactsRoot : String
  volumeMounts : List VolumeMount
  deriving DecidableEq

/-- What `submit_run` makes of the manifest of a generic experiment in a research workspace. -/
def researchJob (repr : Value → String) (settings : MountPaths) (manifest : RunManifest) :
    Except ValueError ResearchJob := do
  let bindings ← manifest.datasetBindings.mapM fun (name, uri) =>
    (resolveDatasetUri settings uri).map (name, ·)
  let mounts ← researchWorkspaceVolumeMountSpecs repr manifest settings
  .ok
    { experimentId := manifest.runId
      configPayload := manifest.configPayload
      datasetBindings := bindings
      datasetRoot := settings.datasetMountPath
      artifactsRoot := settings.artifactsMountPath
      volumeMounts := mounts }

section Specifications

variable {settings : MountPaths} {repr : Value → String} {manifest : RunManifest}
  {job : ResearchJob}
  {raw value uri : String}

theorem collapseText_collapseText : collapseText (collapseText value) = collapseText value := by
  unfold collapseText
  rw [String.toList_ofList, collapse_collapse (by decide)]

theorem stripText_ne_iff : stripText value ≠ "" ↔ ∃ c ∈ value.toList, isSpace c = false := by
  unfold stripText
  rw [ne_eq, String.ofList_eq_empty_iff, strip_eq_nil_iff]
  simp

/-- A text without white space at its ends that is not empty. -/
structure Stripped (value : String) : Prop where
  stripped : stripText value = value
  nonempty : value ≠ ""

theorem stripped_of_ne (h : stripText raw ≠ "") : Stripped (stripText raw) :=
  ⟨by rw [stripText, stripText, String.toList_ofList, strip_idem], h⟩

theorem stripped_of_datasetBindingText (h : normalizeDatasetBindingText raw = .ok value) :
    Stripped value := by
  obtain ⟨hNonempty, h⟩ := of_check h
  obtain rfl := ok.inj h
  exact stripped_of_ne hNonempty

theorem stripped_of_assetUri (h : normalizeAssetUri raw = .ok uri) : Stripped uri := by
  obtain ⟨hNonempty, h⟩ := of_check h
  split at h
  · cases h
  · obtain ⟨-, h⟩ := of_check h
    obtain rfl := ok.inj h
    exact stripped_of_ne hNonempty

theorem collapseText_ne (h : Stripped value) : collapseText value ≠ "" := by
  have hNonempty : stripText value ≠ "" := by
    rw [h.stripped]
    exact h.nonempty
  obtain ⟨c, hMem, hSpace⟩ := stripText_ne_iff.mp hNonempty
  unfold collapseText
  rw [ne_eq, String.ofList_eq_empty_iff]
  exact collapse_ne_nil hMem hSpace

theorem resolveDatasetUri_of_asset {volume : Volume} {subpath : String}
    (h : assetVolumeSubpath uri = .ok (volume, subpath)) :
    resolveDatasetUri settings uri = .ok (settings.root volume ++ "/" ++ subpath) := by
  unfold assetVolumeSubpath at h
  unfold resolveDatasetUri
  cases hVolume : assetVolume uri with
  | none =>
    rw [hVolume] at h
    cases h
  | some place =>
    rw [hVolume] at h
    obtain ⟨sub, hSub, hPair⟩ := map_eq_ok_iff.mp h
    obtain ⟨rfl, rfl⟩ := Prod.mk.inj hPair
    exact map_eq_ok_iff.mpr ⟨sub, hSub, rfl⟩

theorem researchJob_ok (h : researchJob repr settings manifest = .ok job) :
    (manifest.datasetBindings.mapM fun (name, uri) =>
      (resolveDatasetUri settings uri).map (name, ·)) = .ok job.datasetBindings ∧
    researchWorkspaceVolumeMountSpecs repr manifest settings = .ok job.volumeMounts ∧
    job.configPayload = manifest.configPayload ∧
    job.datasetRoot = settings.root .dataset ∧ job.artifactsRoot = settings.root .artifacts := by
  obtain ⟨bindings, hBindings, h⟩ := of_bind h
  obtain ⟨mounts, hMounts, h⟩ := of_bind h
  obtain rfl := ok.inj h
  exact ⟨hBindings, hMounts, rfl, rfl, rfl⟩

variable {specs : List VolumeMount}

theorem exists_readOnly_mount_iff {path : String}
    (h : researchWorkspaceVolumeMountSpecs repr manifest settings = .ok specs) :
    (∃ mount ∈ specs, mount.readOnly = true ∧ mount.mountPath = path) ↔
      ∃ uris, assetUris repr manifest.configPayload = .ok uris ∧
        ∃ uri ∈ uris, resolveDatasetUri settings uri = .ok path := by
  obtain ⟨locations, hLocations, h⟩ := of_bind h
  obtain ⟨uris, hUris, hLocations⟩ := of_bind hLocations
  obtain ⟨found, hFound, hLocations⟩ := of_bind hLocations
  obtain rfl := ok.inj hLocations
  obtain ⟨runSubpath, -, h⟩ := of_bind h
  obtain rfl := ok.inj h
  have hPlace : ∀ uri ∈ uris, ∀ location, assetVolumeSubpath uri = .ok location →
      location ∈ found.reverse.dedup.reverse := by
    intro uri hUri location hLocation
    have hMem := (mem_iff_of_mapM_eq_ok hFound).mpr ⟨uri, hUri, hLocation⟩
    simpa using hMem
  constructor
  · rintro ⟨mount, hMount, hReadOnly, rfl⟩
    rcases mem_append.mp hMount with hInput | hOutput
    · obtain ⟨⟨volume, subpath⟩, hLocation, rfl⟩ := mem_map.mp hInput
      have hMem : (volume, subpath) ∈ found := by simpa using hLocation
      obtain ⟨uri, hUri, hAsset⟩ := (mem_iff_of_mapM_eq_ok hFound).mp hMem
      exact ⟨uris, hUris, uri, hUri, resolveDatasetUri_of_asset hAsset⟩
    · obtain rfl := mem_singleton.mp hOutput
      cases hReadOnly
  · rintro ⟨uris', hSame, uri, hUri, hResolve⟩
    obtain rfl := ok.inj (hUris.symm.trans hSame)
    obtain ⟨⟨volume, subpath⟩, -, hAsset⟩ := exists_of_mapM_eq_ok hFound hUri
    obtain rfl := ok.inj ((resolveDatasetUri_of_asset hAsset).symm.trans hResolve)
    refine ⟨_, mem_append_left _ (mem_map.mpr
      ⟨(volume, subpath), hPlace uri hUri _ hAsset, rfl⟩), rfl, rfl⟩

theorem mountPath_eq {mount : VolumeMount}
    (h : researchWorkspaceVolumeMountSpecs repr manifest settings = .ok specs)
    (hMem : mount ∈ specs) :
    ∃ volume subpath, mount.mountPath = settings.root volume ++ "/" ++ subpath := by
  obtain ⟨locations, -, h⟩ := of_bind h
  obtain ⟨runSubpath, -, h⟩ := of_bind h
  obtain rfl := ok.inj h
  rcases mem_append.mp hMem with hInput | hOutput
  · obtain ⟨⟨volume, subpath⟩, -, rfl⟩ := mem_map.mp hInput
    exact ⟨volume, subpath, rfl⟩
  · obtain rfl := mem_singleton.mp hOutput
    exact ⟨.artifacts, manifest.runId, rfl⟩

theorem MountPaths.root_names (settings : MountPaths) (volume : Volume) :
    (parsePath (settings.root volume)).names ≠ [] := by
  cases volume with
  | dataset => exact settings.dataset_names
  | artifacts => exact settings.artifacts_names

end Specifications

end Glasslab.WorkflowApi
