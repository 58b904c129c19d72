import Glasslab.WorkflowApi.ResearchJobs

/-!
# Dataset bindings from the launch to the runner

A binding of an approved execution reaches the runner on two ways: as a contract, under its own name
and with its own URI, and as an entry of the resolved bindings, for which the request has made each
run of white space one space. The runner looks the contract's name up in the bindings, and the job
mounts what the contracts name. So what a launch admits is accepted exactly if the names and the
URIs have no other white space, but for a URI that then names another mounted asset
(`launch_accepted_iff`).
-/

namespace Glasslab.ResearchRunner

open Foundation List Raising Except
open Glasslab.WorkflowApi
open Glasslab.Methodology (isSpace)

structure Container where
  /-- `Path(...).resolve()`. -/
  resolve : String → PurePath
  isFile : String → Bool
  fileSha256 : String → String

inductive RunnerError where
  | valueError (message : String)
  | fileNotFound (message : String)
  deriving DecidableEq

def isWithin (container : Container) (path : String) (roots : List String) : Bool :=
  roots.any fun root => (container.resolve path).isRelativeTo (container.resolve root)

/-- `str(entries.get(key, ''))`, stripped. -/
def strippedEntry (repr : WorkflowApi.Value → String) (entries : Entries) (key : String) : String :=
  stripText (((entries.lookup key).map (strOf repr)).getD "")

section Verify

variable (repr : WorkflowApi.Value → String) (container : Container)
  (datasetRoot artifactsRoot : String)
  (resolvedBindings : List (String × String))

/-- One pass of the loop over the contracts, with the names that were met before. -/
def verifyContract (expectedNames : List String) :
    WorkflowApi.Value → Except RunnerError (List String)
  | .map contract =>
    let name := strippedEntry repr contract "name"
    match contract.lookup "asset" with
    | some (.map asset) =>
      if name = "" then .error (.valueError "dataset contract requires name and asset")
      else if name ∈ expectedNames then
        .error (.valueError ("dataset contract name is duplicated: " ++ name))
      else
        match resolvedBindings.lookup name with
        | none => .error (.valueError ("dataset binding was not resolved: " ++ name))
        | some path =>
          if stripText path = "" then
            .error (.valueError ("dataset binding was not resolved: " ++ name))
          else if isWithin container path [datasetRoot, artifactsRoot] = false then
            .error (.valueError
              ("dataset binding is outside approved mounted roots: " ++ name))
          else if container.isFile path = false then
            .error (.fileNotFound ("dataset binding file not found: " ++ name))
          else
            let expectedSha256 := (strippedEntry repr asset "sha256").toLower
            let actualSha256 := container.fileSha256 path
            if actualSha256 ≠ expectedSha256 then
              .error (.valueError ("dataset digest mismatch for " ++ name ++ ": expected " ++
                expectedSha256 ++ ", got " ++ actualSha256))
            else .ok (expectedNames ++ [name])
    | _ => .error (.valueError "dataset contract requires name and asset")
  | _ => .error (.valueError "dataset contracts must be JSON objects")

def verifyDatasetBindings : WorkflowApi.Value → Except RunnerError Unit
  | .list contracts => do
    let expectedNames ← contracts.foldlM
      (verifyContract repr container datasetRoot artifactsRoot resolvedBindings) []
    let unexpectedNames :=
      sortedNames ((resolvedBindings.map Prod.fst).filter (· ∉ expectedNames))
    if unexpectedNames ≠ [] then
      .error (.valueError ("resolved dataset bindings were not declared: " ++
        ", ".intercalate unexpectedNames))
    else .ok ()
  | _ => .error (.valueError "config_payload.dataset_contracts must be a list")

end Verify

/-- `verify_dataset_bindings` as `run_from_environment` calls it in the container of the job. -/
def verifyJob (repr : WorkflowApi.Value → String) (container : Container) (job : ResearchJob) :
    Except RunnerError Unit :=
  verifyDatasetBindings repr container job.datasetRoot job.artifactsRoot job.datasetBindings
    ((job.configPayload.lookup "dataset_contracts").getD (.list []))

def MountedAt (job : ResearchJob) (path : String) : Prop :=
  ∃ mount ∈ job.volumeMounts, mount.readOnly = true ∧ mount.mountPath = path

def expectedSha256 (binding : InvestigationDatasetBinding) : String :=
  (stripText binding.asset.sha256).toLower

/-- The mounted files exist and have the digests that are declared for them, and the roots and the
mounts are no links. -/
structure Serves (container : Container) (job : ResearchJob)
    (bindings : List InvestigationDatasetBinding) : Prop where
  datasetRoot : container.resolve job.datasetRoot = parsePath job.datasetRoot
  artifactsRoot : container.resolve job.artifactsRoot = parsePath job.artifactsRoot
  mounts : ∀ path, MountedAt job path → container.resolve path = parsePath path
  files : ∀ binding ∈ bindings, ∀ path, job.datasetBindings.lookup binding.name = some path →
    MountedAt job path →
      container.isFile path = true ∧ container.fileSha256 path = expectedSha256 binding

structure RunnerAccepts (repr : WorkflowApi.Value → String) (container : Container)
    (job : ResearchJob) : Prop where
  verified : verifyJob repr container job = .ok ()
  mounted : ∀ binding ∈ job.datasetBindings, MountedAt job binding.2

def IsAsset (repr : WorkflowApi.Value → String) (configPayload : Entries) (uri : String) : Prop :=
  ∃ uris, assetUris repr configPayload = .ok uris ∧ uri ∈ uris

/-- The name has no white space but single spaces; nor has the URI, unless with single spaces it has
the path of another asset. -/
structure KeepsItsText (repr : WorkflowApi.Value → String) (mounts : MountPaths)
    (configPayload : Entries)
    (binding : InvestigationDatasetBinding) : Prop where
  name : collapseText binding.name = binding.name
  uri : collapseText binding.asset.uri = binding.asset.uri ∨ ∃ uri,
    IsAsset repr configPayload uri ∧
      resolveDatasetUri mounts uri = resolveDatasetUri mounts (collapseText binding.asset.uri)

variable {path name : String}

section Request

variable {bindings : List (String × String)} {uri key : String}

def cleanedBinding (binding : String × String) : Option (String × String) :=
  if collapseText binding.1 ≠ "" ∧ collapseText binding.2 ≠ "" then
    some (collapseText binding.1, collapseText binding.2)
  else none

theorem validateDatasetBindings_eq :
    validateDatasetBindings bindings = Dict.merge [] (bindings.filterMap cleanedBinding) := by
  unfold validateDatasetBindings Dict.merge cleanedBinding
  rw [foldl_filterMap]
  congr
  funext cleaned binding
  dsimp only
  split <;> rfl

theorem mem_validateDatasetBindings (h : (key, path) ∈ validateDatasetBindings bindings) :
    ∃ binding ∈ bindings, key = collapseText binding.1 ∧ path = collapseText binding.2 := by
  rw [validateDatasetBindings_eq] at h
  rcases Dict.mem_of_mem_merge h with hNone | hMem
  · cases hNone
  · obtain ⟨⟨name, uri⟩, hBinding, hClean⟩ := mem_filterMap.mp hMem
    unfold cleanedBinding at hClean
    split at hClean
    · obtain ⟨rfl, rfl⟩ := Prod.mk.inj (Option.some.inj hClean)
      exact ⟨_, hBinding, rfl, rfl⟩
    · cases hClean

theorem lookup_validateDatasetBindings (hMem : (name, uri) ∈ bindings) (hName : Stripped name)
    (hUri : Stripped uri)
    (hUnique : ∀ binding ∈ bindings, collapseText binding.1 = collapseText name →
      binding.2 = uri) :
    (validateDatasetBindings bindings).lookup (collapseText name) = some (collapseText uri) := by
  rw [validateDatasetBindings_eq]
  apply Dict.lookup_merge_of_mem
  · refine mem_filterMap.mpr ⟨(name, uri), hMem, ?_⟩
    exact if_pos ⟨collapseText_ne hName, collapseText_ne hUri⟩
  · intro other hOther
    obtain ⟨⟨key, raw⟩, hBinding, hClean⟩ := mem_filterMap.mp hOther
    unfold cleanedBinding at hClean
    split at hClean
    · obtain ⟨hKey, rfl⟩ := Prod.mk.inj (Option.some.inj hClean)
      exact congrArg collapseText (hUnique _ hBinding hKey)
    · cases hClean

theorem lookup_resolved_iff {mounts : MountPaths} {resolved : List (String × String)}
    (h : (bindings.mapM fun (name, uri) => (resolveDatasetUri mounts uri).map (name, ·)) =
      .ok resolved) :
    resolved.lookup name = some path ↔
      ∃ uri, bindings.lookup name = some uri ∧ resolveDatasetUri mounts uri = .ok path := by
  induction mapM_eq_ok_iff_forall₂.mp h with
  | nil => simp
  | @cons binding entry bindings resolved hHead hTail ih =>
    obtain ⟨other, uri⟩ := binding
    obtain ⟨found, hFound, rfl⟩ := map_eq_ok_iff.mp hHead
    rw [lookup_cons_if, lookup_cons_if]
    by_cases hName : name = other
    · rw [if_pos hName, if_pos hName]
      simp [hFound]
    · rw [if_neg hName, if_neg hName]
      exact ih (mapM_eq_ok_iff_forall₂.mpr hTail)

theorem launchRequest_ok {fits : Entries → Bool} {investigation : InvestigationRecord}
    {launch : LaunchPlan} {request : GenericExperimentRunRequest}
    (h : launchRequest fits investigation launch = .ok request) :
    request.configPayload =
        Dict.merge launch.execution.configPayload (launchConfig investigation launch) ∧
      request.datasetBindings = validateDatasetBindings (Dict.merge []
        ((visibleBindings launch.execution).map fun binding =>
          (binding.name, binding.asset.uri))) := by
  obtain ⟨-, h⟩ := of_check h
  obtain rfl := ok.inj h
  exact ⟨rfl, rfl⟩

/-- The validation of the workspace leaves the contracts as they are. -/
theorem lookup_contracts {surroundings : Surroundings} {workflow : WorkflowRegistryEntry}
    {configPayload resolved : Entries}
    (h : resolveConfigPayload surroundings workflow configPayload = .ok resolved) :
    resolved.lookup "dataset_contracts" = configPayload.lookup "dataset_contracts" := by
  unfold resolveConfigPayload at h
  split at h
  · split at h
    · cases h
    · obtain rfl := ok.inj h
      rw [Dict.lookup_set, if_neg (by decide)]
  · obtain rfl := ok.inj h
    rfl

end Request

variable {binding : InvestigationDatasetBinding} {repr : WorkflowApi.Value → String}
  {container : Container}

section Contracts

variable {datasetRoot artifactsRoot : String} {resolved : List (String × String)}
  {bindings : List InvestigationDatasetBinding} {expected final : List String}

/-- The path that a binding is resolved to passes the checks. -/
structure PathVerified (container : Container) (datasetRoot artifactsRoot : String)
    (resolved : List (String × String)) (binding : InvestigationDatasetBinding) (path : String) :
    Prop where
  found : resolved.lookup binding.name = some path
  nonblank : stripText path ≠ ""
  within : isWithin container path [datasetRoot, artifactsRoot] = true
  file : container.isFile path = true
  digest : container.fileSha256 path = expectedSha256 binding

theorem verifyContract_dump (h : Stripped binding.name) :
    verifyContract repr container datasetRoot artifactsRoot resolved expected binding.dump =
        .ok final ↔
      binding.name ∉ expected ∧
        (∃ path, PathVerified container datasetRoot artifactsRoot resolved binding path) ∧
        final = expected ++ [binding.name] := by
  have hName (entries : Entries) :
      strippedEntry repr (("name", text binding.name) :: entries) "name" = binding.name :=
    h.stripped
  have hDigest (entries : Entries) :
      strippedEntry repr (("uri", text binding.asset.uri) ::
        ("sha256", text binding.asset.sha256) :: entries) "sha256" =
        stripText binding.asset.sha256 := rfl
  unfold InvestigationDatasetBinding.dump ImmutableAssetReference.dump verifyContract
  dsimp only
  rw [hName]
  show (if _ then _ else _) = _ ↔ _
  rw [check_eq_ok_iff, check_eq_ok_iff, hDigest]
  cases hFound : resolved.lookup binding.name with
  | none =>
    refine iff_of_false ?_ ?_
    · rintro ⟨-, -, h⟩
      cases h
    · rintro ⟨-, ⟨path, hPath⟩, -⟩
      cases hFound.symm.trans hPath.found
  | some path =>
    rw [check_eq_ok_iff, check_eq_ok_iff, check_eq_ok_iff,
      check_eq_ok_iff]
    constructor
    · rintro ⟨-, hNew, hNonblank, hWithin, hFile, hSha256, h⟩
      refine ⟨hNew, ⟨path, hFound, hNonblank, ?_, ?_, not_not.mp hSha256⟩, (ok.inj h).symm⟩
      · exact Bool.eq_true_of_not_eq_false hWithin
      · exact Bool.eq_true_of_not_eq_false hFile
    · rintro ⟨hNew, ⟨other, hPath⟩, rfl⟩
      obtain rfl := Option.some.inj (hFound.symm.trans hPath.found)
      refine ⟨h.nonempty, hNew, hPath.nonblank, ?_, ?_, not_not.mpr hPath.digest, rfl⟩
      · exact ne_false_of_eq_true hPath.within
      · exact ne_false_of_eq_true hPath.file

section

variable (hStripped : ∀ binding ∈ bindings, Stripped binding.name)
include hStripped

/-- The loop passes if every binding has a path that does, under names that differ. -/
theorem foldlM_verifyContract
    (hUnique : (bindings.map InvestigationDatasetBinding.name).Nodup)
    (hNew : ∀ binding ∈ bindings, binding.name ∉ expected) :
    (bindings.map InvestigationDatasetBinding.dump).foldlM
        (verifyContract repr container datasetRoot artifactsRoot resolved) expected = .ok final ↔
      (∀ binding ∈ bindings,
        ∃ path, PathVerified container datasetRoot artifactsRoot resolved binding path) ∧
        final = expected ++ bindings.map InvestigationDatasetBinding.name := by
  induction bindings generalizing expected with
  | nil =>
    rw [map_nil, foldlM_nil, pure_eq_ok_iff]
    simp
  | cons binding bindings ih =>
    rw [map_cons, nodup_cons] at hUnique
    rw [forall_mem_cons] at hStripped hNew
    have hRest : ∀ other ∈ bindings, other.name ∉ expected ++ [binding.name] := by
      intro other hOther hMem
      rcases mem_append.mp hMem with hOld | hSame
      · exact hNew.2 other hOther hOld
      · rw [← mem_singleton.mp hSame] at hUnique
        exact hUnique.1 (mem_map_of_mem hOther)
    rw [map_cons, foldlM_cons, bind_eq_ok_iff, forall_mem_cons,
      map_cons]
    constructor
    · rintro ⟨next, hNext, hLoop⟩
      obtain ⟨-, hPath, rfl⟩ := (verifyContract_dump hStripped.1).mp hNext
      obtain ⟨hPaths, rfl⟩ := (ih hStripped.2 hUnique.2 hRest).mp hLoop
      exact ⟨⟨hPath, hPaths⟩, by simp⟩
    · rintro ⟨⟨hPath, hPaths⟩, rfl⟩
      refine ⟨_, (verifyContract_dump hStripped.1).mpr ⟨hNew.1, hPath, rfl⟩, ?_⟩
      exact (ih hStripped.2 hUnique.2 hRest).mpr ⟨hPaths, by simp⟩

theorem verifyDatasetBindings_ok_iff
    (hUnique : (bindings.map InvestigationDatasetBinding.name).Nodup) :
    verifyDatasetBindings repr container datasetRoot artifactsRoot resolved
        (.list (bindings.map InvestigationDatasetBinding.dump)) = .ok () ↔
      (∀ binding ∈ bindings,
        ∃ path, PathVerified container datasetRoot artifactsRoot resolved binding path) ∧
        ∀ entry ∈ resolved, ∃ binding ∈ bindings, binding.name = entry.1 := by
  have hNames (names : List String) : sortedNames names = [] ↔ names = [] := by
    simp [sortedNames, eq_nil_iff_forall_not_mem]
  have hLoop (final : List String) :=
    @foldlM_verifyContract repr container datasetRoot artifactsRoot
    resolved bindings [] final hStripped hUnique (by simp)
  unfold verifyDatasetBindings
  rw [bind_eq_ok_iff]
  simp only [hLoop, and_assoc, exists_and_left, exists_eq_left, nil_append]
  rw [check_eq_ok_iff, not_not, hNames]
  simp [filter_eq_nil_iff]

end

end Contracts

/-! ## From the launch to the runner -/

variable {mounts : MountPaths} {job : ResearchJob}

section Launch

variable {fits : Entries → Bool} {investigation : InvestigationRecord} {launch : LaunchPlan}
  {request : GenericExperimentRunRequest} {registry : WorkflowRegistry} {settings : Settings}
  {lineage : Lineage} {idempotencyKey : Option String} {surroundings : Surroundings}
  {creation : Accepted}

/-- What the schemas promise of the bindings that an execution sees. -/
structure VisibleAccepted (bindings : List InvestigationDatasetBinding) : Prop where
  names : ∀ binding ∈ bindings, Stripped binding.name
  uris : ∀ binding ∈ bindings, Stripped binding.asset.uri
  unique : (bindings.map InvestigationDatasetBinding.name).Nodup

theorem visibleAccepted (h : AcceptedBindings launch.execution) :
    VisibleAccepted (visibleBindings launch.execution) where
  names binding hMem := by
    obtain ⟨raw, hRaw⟩ := h.names binding (mem_of_mem_filter hMem)
    exact stripped_of_datasetBindingText hRaw
  uris binding hMem := by
    obtain ⟨raw, hRaw⟩ := h.uris binding (mem_of_mem_filter hMem)
    exact stripped_of_assetUri hRaw
  unique := h.unique.sublist (filter_sublist.map _)

/-- What the runner is given: the contracts of the visible bindings, and the bindings that the
request made of them. -/
structure Delivered (repr : WorkflowApi.Value → String) (mounts : MountPaths)
    (bindings : List InvestigationDatasetBinding) (configPayload : Entries) (job : ResearchJob) :
    Prop where
  config : job.configPayload = configPayload
  contracts : configPayload.lookup "dataset_contracts" =
    some (.list (bindings.map InvestigationDatasetBinding.dump))
  resolved : ((validateDatasetBindings (Dict.merge [] (bindings.map fun binding =>
    (binding.name, binding.asset.uri)))).mapM fun (name, uri) =>
      (resolveDatasetUri mounts uri).map (name, ·)) = .ok job.datasetBindings
  mountedAt : ∀ path, MountedAt job path ↔ ∃ uri, IsAsset repr configPayload uri ∧
    resolveDatasetUri mounts uri = .ok path
  below : ∀ path, MountedAt job path →
    ∃ volume subpath, path = mounts.root volume ++ "/" ++ subpath
  assets : ∃ uris, assetUris repr configPayload = .ok uris
  datasetRoot : job.datasetRoot = mounts.root .dataset
  artifactsRoot : job.artifactsRoot = mounts.root .artifacts

theorem delivered_of_launch (hRequest : launchRequest fits investigation launch = .ok request)
    (hCreate : acceptGeneric registry settings request lineage idempotencyKey surroundings =
      .ok creation)
    (hJob : researchJob repr mounts creation.record.manifest = .ok job) :
    Delivered repr mounts (visibleBindings launch.execution)
      creation.record.manifest.configPayload job := by
  obtain ⟨hPayload, hBindings⟩ := launchRequest_ok hRequest
  obtain ⟨workflow, configPayload, -, hConfig, hRecord⟩ := acceptGeneric_ok hCreate
  obtain ⟨hResolved, hMounts, hSame, hDataset, hArtifacts⟩ := researchJob_ok hJob
  rw [hRecord] at hResolved hMounts hSame ⊢
  replace hResolved : (request.datasetBindings.mapM fun (name, uri) =>
    (resolveDatasetUri mounts uri).map (name, ·)) = .ok job.datasetBindings := hResolved
  rw [hBindings] at hResolved
  have hAssets : ∃ uris, assetUris repr configPayload = .ok uris := by
    obtain ⟨locations, hLocations, -⟩ := of_bind hMounts
    obtain ⟨uris, hUris, -⟩ := of_bind hLocations
    exact ⟨uris, hUris⟩
  refine ⟨hSame, ?_, hResolved, fun path => ?_, ?_, hAssets, hDataset, hArtifacts⟩
  · show configPayload.lookup "dataset_contracts" = _
    rw [lookup_contracts hConfig, hPayload]
    apply Dict.lookup_merge_of_mem
    · exact mem_cons_of_mem _ mem_cons_self
    · simp [launchConfig]
  · unfold MountedAt IsAsset
    rw [exists_readOnly_mount_iff hMounts]
    constructor
    · rintro ⟨uris, hUris, uri, hUri, hPath⟩
      exact ⟨uri, ⟨uris, hUris, hUri⟩, hPath⟩
    · rintro ⟨uri, ⟨uris, hUris, hUri⟩, hPath⟩
      exact ⟨uris, hUris, uri, hUri, hPath⟩
  · rintro path ⟨mount, hMount, -, rfl⟩
    exact mountPath_eq hMounts hMount

end Launch

section Delivery

variable {bindings : List InvestigationDatasetBinding} {configPayload : Entries}

section

variable (h : Delivered repr mounts bindings configPayload job)
include h

theorem isAsset_of_mem
    (hAccepted : VisibleAccepted bindings) (hMem : binding ∈ bindings) :
    IsAsset repr configPayload binding.asset.uri := by
  obtain ⟨uris, hUris⟩ := h.assets
  refine ⟨uris, hUris, ?_⟩
  unfold assetUris at hUris
  split at hUris
  · rw [h.contracts] at hUris
    refine (mem_iff_of_mapM_eq_ok hUris).mpr ⟨some binding.asset.dump, ?_, ?_⟩
    · apply mem_append_right
      exact mem_filterMap.mpr ⟨binding.dump, mem_map_of_mem hMem, rfl⟩
    · exact congrArg Except.ok (hAccepted.uris binding hMem).stripped
  · cases hUris

theorem exists_of_mem_job
    {entry : String × String} (hMem : entry ∈ job.datasetBindings) :
    ∃ binding ∈ bindings, entry.1 = collapseText binding.name ∧
      resolveDatasetUri mounts (collapseText binding.asset.uri) = .ok entry.2 := by
  obtain ⟨⟨key, uri⟩, hKey, hEntry⟩ := (mem_iff_of_mapM_eq_ok h.resolved).mp hMem
  obtain ⟨found, hFound, rfl⟩ := map_eq_ok_iff.mp hEntry
  obtain ⟨⟨name, raw⟩, hRaw, rfl, rfl⟩ := mem_validateDatasetBindings hKey
  rcases Dict.mem_of_mem_merge hRaw with hNone | hMap
  · cases hNone
  · obtain ⟨binding, hBinding, hPair⟩ := mem_map.mp hMap
    obtain ⟨rfl, rfl⟩ := Prod.mk.inj hPair
    exact ⟨binding, hBinding, rfl, hFound⟩

theorem lookup_job
    (hAccepted : VisibleAccepted bindings)
    (hNames : ∀ binding ∈ bindings, collapseText binding.name = binding.name)
    (hMem : binding ∈ bindings) :
    ∃ path, job.datasetBindings.lookup binding.name = some path ∧
      resolveDatasetUri mounts (collapseText binding.asset.uri) = .ok path := by
  have hSame : ∀ other ∈ bindings, other.name = binding.name → other = binding := by
    intro other hOther hName
    exact inj_on_of_nodup_map hAccepted.unique hOther hMem hName
  have hRequested : (binding.name, binding.asset.uri) ∈ Dict.merge [] (bindings.map fun binding =>
      (binding.name, binding.asset.uri)) := by
    apply Dict.mem_of_lookup
    apply Dict.lookup_merge_of_mem
    · exact mem_map.mpr ⟨binding, hMem, rfl⟩
    · intro uri hUri
      obtain ⟨other, hOther, hPair⟩ := mem_map.mp hUri
      obtain ⟨hName, rfl⟩ := Prod.mk.inj hPair
      rw [hSame other hOther hName]
  have hLookup := lookup_validateDatasetBindings hRequested (hAccepted.names binding hMem)
    (hAccepted.uris binding hMem) (by
      rintro ⟨key, raw⟩ hEntry hKey
      rcases Dict.mem_of_mem_merge hEntry with hNone | hMap
      · cases hNone
      · obtain ⟨other, hOther, hPair⟩ := mem_map.mp hMap
        obtain ⟨rfl, rfl⟩ := Prod.mk.inj hPair
        rw [hNames other hOther, hNames binding hMem] at hKey
        rw [hSame other hOther hKey])
  rw [hNames binding hMem] at hLookup
  obtain ⟨⟨key, path⟩, -, hPass⟩ :=
    exists_of_mapM_eq_ok h.resolved (Dict.mem_of_lookup hLookup)
  obtain ⟨found, hFound, -⟩ := map_eq_ok_iff.mp hPass
  exact ⟨found, (lookup_resolved_iff h.resolved).mpr ⟨_, hLookup, hFound⟩, hFound⟩

theorem isWithin_of_mountedAt
    (hServes : Serves container job bindings) (hMounted : MountedAt job path) :
    isWithin container path [job.datasetRoot, job.artifactsRoot] = true ∧ stripText path ≠ "" := by
  obtain ⟨volume, subpath, hPath⟩ := h.below path hMounted
  constructor
  · unfold isWithin
    rw [any_cons, any_cons, any_nil, hServes.mounts path hMounted,
      hServes.datasetRoot, hServes.artifactsRoot, h.datasetRoot, h.artifactsRoot, hPath]
    have hBelow : (parsePath (mounts.root volume ++ "/" ++ subpath)).isRelativeTo
        (parsePath (mounts.root volume)) = true := isRelativeTo_join (mounts.root_names volume)
    cases volume with
    | dataset => rw [hBelow, Bool.true_or]
    | artifacts => rw [hBelow, Bool.true_or, Bool.or_true]
  · rw [hPath, stripText_ne_iff]
    exact ⟨'/', by simp, by decide⟩

theorem runnerAccepts_iff
    (hAccepted : VisibleAccepted bindings) (hServes : Serves container job bindings) :
    RunnerAccepts repr container job ↔
      ∀ binding ∈ bindings, KeepsItsText repr mounts configPayload binding := by
  have hVerify : verifyJob repr container job = .ok () ↔
      (∀ binding ∈ bindings, ∃ path,
        PathVerified container job.datasetRoot job.artifactsRoot job.datasetBindings binding path) ∧
      ∀ entry ∈ job.datasetBindings, ∃ binding ∈ bindings, binding.name = entry.1 := by
    unfold verifyJob
    rw [h.config, h.contracts]
    exact verifyDatasetBindings_ok_iff hAccepted.names hAccepted.unique
  constructor
  · rintro ⟨hVerified, hMounted⟩
    obtain ⟨hPaths, -⟩ := hVerify.mp hVerified
    have hNames : ∀ binding ∈ bindings, collapseText binding.name = binding.name := by
      intro binding hMem
      obtain ⟨path, hPath⟩ := hPaths binding hMem
      obtain ⟨other, -, hName, -⟩ := exists_of_mem_job h (Dict.mem_of_lookup hPath.found)
      rw [show binding.name = collapseText other.name from hName, collapseText_collapseText]
    intro binding hMem
    obtain ⟨path, hFound, hResolve⟩ := lookup_job h hAccepted hNames hMem
    obtain ⟨uri, hAsset, hSame⟩ :=
      (h.mountedAt path).mp (hMounted _ (Dict.mem_of_lookup hFound))
    exact ⟨hNames binding hMem, .inr ⟨uri, hAsset, hSame.trans hResolve.symm⟩⟩
  · intro hKeeps
    have hNames : ∀ binding ∈ bindings, collapseText binding.name = binding.name :=
      fun binding hMem => (hKeeps binding hMem).name
    have hMount : ∀ binding ∈ bindings, ∀ path,
        resolveDatasetUri mounts (collapseText binding.asset.uri) = .ok path →
          MountedAt job path := by
      intro binding hMem path hResolve
      rw [h.mountedAt]
      rcases (hKeeps binding hMem).uri with hSame | ⟨uri, hAsset, hSame⟩
      · rw [hSame] at hResolve
        exact ⟨_, isAsset_of_mem h hAccepted hMem, hResolve⟩
      · exact ⟨uri, hAsset, hSame.trans hResolve⟩
    constructor
    · refine hVerify.mpr ⟨fun binding hMem => ?_, fun entry hEntry => ?_⟩
      · obtain ⟨path, hFound, hResolve⟩ := lookup_job h hAccepted hNames hMem
        have hMounted := hMount binding hMem path hResolve
        obtain ⟨hWithin, hNonblank⟩ := isWithin_of_mountedAt h hServes hMounted
        obtain ⟨hFile, hSha256⟩ := hServes.files binding hMem path hFound hMounted
        exact ⟨path, hFound, hNonblank, hWithin, hFile, hSha256⟩
      · obtain ⟨binding, hMem, hName, -⟩ := exists_of_mem_job h hEntry
        exact ⟨binding, hMem, (hNames binding hMem).symm.trans hName.symm⟩
    · intro entry hEntry
      obtain ⟨binding, hMem, -, hResolve⟩ := exists_of_mem_job h hEntry
      exact hMount binding hMem _ hResolve

end

end Delivery

/-- What a launch admits is accepted exactly if the names and URIs have no white space that a
request changes, but for a URI that is then the path of another mounted asset. -/
theorem launch_accepted_iff {repr : WorkflowApi.Value → String} {mounts : MountPaths}
    {container : Container} {fits : Entries → Bool} {investigation : InvestigationRecord}
    {launch : LaunchPlan} {request : GenericExperimentRunRequest} {registry : WorkflowRegistry}
    {settings : Settings} {lineage : Lineage} {idempotencyKey : Option String}
    {surroundings : Surroundings} {creation : Accepted} {job : ResearchJob}
    (hAccepted : AcceptedBindings launch.execution)
    (hRequest : launchRequest fits investigation launch = .ok request)
    (hCreate : acceptGeneric registry settings request lineage idempotencyKey surroundings =
      .ok creation)
    (hJob : researchJob repr mounts creation.record.manifest = .ok job)
    (hServes : Serves container job (visibleBindings launch.execution)) :
    RunnerAccepts repr container job ↔ ∀ binding ∈ visibleBindings launch.execution,
      KeepsItsText repr mounts creation.record.manifest.configPayload binding := by
  exact runnerAccepts_iff (delivered_of_launch hRequest hCreate hJob) (visibleAccepted hAccepted)
    hServes

/-! ## A launch with one binding -/

section OneBinding

variable (name : String)

/-- The entry of the registry for research workspaces, as far as the checks read it. -/
def researchWorkspace : WorkflowRegistryEntry where
  workflowId := "research-workspace-cpu-v1"
  displayName := "Research Workspace CPU v1"
  workflowFamily := "research-workspace"
  requiredInputs := [⟨"workspace", true⟩, ⟨"dataset_bindings", false⟩]
  allowedModels := ["agent-generated-python"]
  runnerImage := "runner@sha256:0"
  evaluatorType := "rubric-gated-v1"
  expectedArtifacts := ⟨["metrics.json"], []⟩
  resourceProfile := { profileName := "cpu-research-medium" }
  approvalTier := "tier-2-approved-execution"
  experimentType := some "research-workspace-job"
  schemaRef := some "glasslab-investigation-workspace-v1"
  defaultEntrypoint := ["python3", "-m", "runner"]
  runnerServiceAccountName := "runner"
  maxWallclockMinutes := some 60

def zeroDigest : String := "0000000000000000000000000000000000000000000000000000000000000000"

def trainBinding : InvestigationDatasetBinding where
  name := name
  asset := ⟨"s3://artifacts/submissions/train.csv", zeroDigest, none⟩
  role := "train"

def trainExecution : InvestigationExecutionSpec where
  executionId := "baseline"
  objective := "Fit the baseline."
  experimentType := "research-workspace-job"
  workloadId := "research-workspace-cpu-v1"
  dataAccessScope := .train
  workspace :=
    { taskBundle := ⟨"s3://artifacts/task.zip", zeroDigest, none⟩
      sourceBundle := ⟨"s3://artifacts/source.zip", zeroDigest, none⟩
      command := ["python3", "main.py"] }
  datasetBindings := [trainBinding name]
  budget := { maxWallclockMinutes := some 5 }
  artifactContract := ⟨["metrics.json"], []⟩
  evaluatorContract := {}

def trainInvestigation : InvestigationRecord :=
  createInvestigation {} { researchQuestion := "Which model is better?", hypotheses := [] }
    ⟨0, "investigation"⟩ fun _ => "h"

def trainPlan : InvestigationPlanRecord where
  planId := "plan"
  revision := 1
  createdAt := 0
  submittedBy := "glasslab-operator"
  title := "Plan"
  rationale := "Fit the baseline."
  hypothesisIds := []
  executions := [trainExecution name]

def trainLaunch : LaunchPlan where
  approval :=
    { approvalId := "approval"
      planId := "plan"
      planSha256 := zeroDigest
      approvedAt := 1
      approvedBy := "glasslab-operator"
      hypothesisIds := []
      researchMode := .exploratory
      planSnapshot := buildPlanSnapshot trainInvestigation (trainPlan name) }
  plan := trainPlan name
  execution := trainExecution name

def trainSurroundings : Surroundings where
  now := 2
  submittedAt := 3
  runId := "run"
  preflight := fun _ => { ready := true }
  validateWorkspace := fun workspace => .ok (workspace.getD (.scalar .null))
  resolveEvaluationContract := fun _ => .ok ()
  submitRun := fun _ => .jobSubmissionError 502 ""

def trainRequest : GenericExperimentRunRequest where
  objective := "Fit the baseline."
  experimentType := "research-workspace-job"
  workloadId := "research-workspace-cpu-v1"
  configPayload := launchConfig trainInvestigation (trainLaunch name)
  datasetBindings := [(collapseText name, "s3://artifacts/submissions/train.csv")]
  budget := (trainExecution name).budget.dump
  artifactContract := some ⟨["metrics.json"], []⟩
  metricContract := (trainExecution name).evaluatorContract.dump
  submittedBy := some "glasslab-operator"

def trainManifest : RunManifest :=
  genericManifest (trainRequest name) researchWorkspace {} trainSurroundings
    (trainRequest name).configPayload

def trainJob : ResearchJob where
  experimentId := "run"
  configPayload := (trainRequest name).configPayload
  datasetBindings := [(collapseText name, "/mnt/artifacts/submissions/train.csv")]
  datasetRoot := "/mnt/datasets"
  artifactsRoot := "/mnt/artifacts"
  volumeMounts :=
    [⟨.artifacts, "/mnt/artifacts/task.zip", "task.zip", true⟩,
      ⟨.artifacts, "/mnt/artifacts/source.zip", "source.zip", true⟩,
      ⟨.artifacts, "/mnt/artifacts/submissions/train.csv", "submissions/train.csv", true⟩,
      ⟨.artifacts, "/mnt/artifacts/run", "run", false⟩]

def trainContainer : Container where
  resolve := parsePath
  isFile := fun _ => true
  fileSha256 := fun _ => zeroDigest

/-- How a value is printed; the texts that are read here are no other values. -/
def noRepr : WorkflowApi.Value → String := fun _ => ""

/-- A binding of this name is admitted, launched and mounted. -/
structure TrainLaunched : Prop where
  accepted : AcceptedBindings (trainExecution name)
  request : launchRequest (fun _ => true) trainInvestigation (trainLaunch name) =
    .ok (trainRequest name)
  creation : ∃ creation, acceptGeneric [("research-workspace-cpu-v1", researchWorkspace)] {}
    (trainRequest name) (launchLineage trainInvestigation (trainLaunch name))
    (some (launchKey (trainLaunch name))) trainSurroundings = .ok creation ∧
      creation.record.manifest = trainManifest name
  job : researchJob noRepr {} (trainManifest name) = .ok (trainJob name)
  serves : Serves trainContainer (trainJob name) (visibleBindings (trainExecution name))

end OneBinding

theorem acceptedBindings_train (h : normalizeDatasetBindingText name = .ok name) :
    AcceptedBindings (trainExecution name) where
  names binding hMem := by
    obtain rfl := mem_singleton.mp hMem
    exact ⟨name, h⟩
  uris binding hMem := by
    obtain rfl := mem_singleton.mp hMem
    have hUri : normalizeAssetUri "s3://artifacts/submissions/train.csv" =
        .ok "s3://artifacts/submissions/train.csv" := by
      decide +kernel
    exact ⟨_, hUri⟩
  unique := nodup_singleton _

theorem serves_train :
    Serves trainContainer (trainJob name) (visibleBindings (trainExecution name)) where
  datasetRoot := rfl
  artifactsRoot := rfl
  mounts _ _ := rfl
  files binding hMem path hPath hMounted := by
    obtain rfl := mem_singleton.mp (mem_of_mem_filter hMem)
    have hDigest : zeroDigest = (stripText zeroDigest).toLower := by
      decide +kernel
    exact ⟨rfl, hDigest⟩

theorem exists_creation_train
    (h : (acceptGeneric [("research-workspace-cpu-v1", researchWorkspace)] {}
      (trainRequest name) (launchLineage trainInvestigation (trainLaunch name))
      (some (launchKey (trainLaunch name))) trainSurroundings).toOption.map
        (fun creation => creation.record.manifest) = some (trainManifest name)) :
    ∃ creation, acceptGeneric [("research-workspace-cpu-v1", researchWorkspace)] {}
      (trainRequest name) (launchLineage trainInvestigation (trainLaunch name))
      (some (launchKey (trainLaunch name))) trainSurroundings = .ok creation ∧
        creation.record.manifest = trainManifest name := by
  cases hAccept : acceptGeneric [("research-workspace-cpu-v1", researchWorkspace)] {}
    (trainRequest name) (launchLineage trainInvestigation (trainLaunch name))
    (some (launchKey (trainLaunch name))) trainSurroundings with
  | error failure =>
    rw [hAccept] at h
    cases h
  | ok creation =>
    rw [hAccept] at h
    exact ⟨creation, rfl, Option.some.inj h⟩

theorem launch_accepted_train : TrainLaunched "train set" ∧
    (RunnerAccepts noRepr trainContainer (trainJob "train set") ↔
      ∀ binding ∈ visibleBindings (trainExecution "train set"),
        KeepsItsText noRepr {} (trainManifest "train set").configPayload binding) := by
  have hLaunched : TrainLaunched "train set" :=
    { accepted := acceptedBindings_train (by decide +kernel)
      request := by decide +kernel
      creation := exists_creation_train (by decide +kernel)
      job := by decide +kernel
      serves := serves_train }
  refine ⟨hLaunched, ?_⟩
  obtain ⟨creation, hCreation, hManifest⟩ := hLaunched.creation
  have hJob := hLaunched.job
  rw [← hManifest] at hJob ⊢
  exact launch_accepted_iff hLaunched.accepted hLaunched.request hCreation hJob hLaunched.serves

/-- The name has two spaces in a row: the contract has both, and the binding has one. -/
theorem doubled_space_refused : TrainLaunched "train  set" ∧
    verifyJob noRepr trainContainer (trainJob "train  set") =
      .error (.valueError "dataset binding was not resolved: train  set") ∧
    ¬ RunnerAccepts noRepr trainContainer (trainJob "train  set") := by
  have hRefused : verifyJob noRepr trainContainer (trainJob "train  set") =
      .error (.valueError "dataset binding was not resolved: train  set") := by
    decide +kernel
  refine ⟨?_, hRefused, ?_⟩
  · exact
      { accepted := acceptedBindings_train (by decide +kernel)
        request := by decide +kernel
        creation := exists_creation_train (by decide +kernel)
        job := by decide +kernel
        serves := serves_train }
  · rintro ⟨hVerified, -⟩
    cases hVerified

end Glasslab.ResearchRunner
