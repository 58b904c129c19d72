import Glasslab.Foundation.PurePaths
import Glasslab.Foundation.Raising
import Glasslab.Foundation.Table

/-!
# The datasets of a run

`install_run_datasets` in `app/workspaces.py`: the datasets that a run cites are copied below
`datasets/` in both worktrees, each under the last name of its file name. What stands there already
is left as it is, also when it is another dataset of the same call or of an earlier one.
-/

namespace Glasslab.Workspaces

open Foundation List Option Raising Except

abbrev DatasetBytes := List UInt8

/-- The path of a stored dataset, and its file name. -/
structure RunDataset where
  source : String
  filename : String

/-- `Path(filename).name`. -/
def RunDataset.targetName (dataset : RunDataset) : String :=
  (parsePath dataset.filename).names.getLast?.getD ""

inductive DatasetEntry where
  | file (content : DatasetBytes)
  | directory
  deriving DecidableEq

structure DatasetsDirectory where
  entries : List (String × DatasetEntry) := []
  writable : Bool := true
  deriving DecidableEq

/-- What stands at `datasets` in a worktree. -/
inductive DatasetsPlace where
  | absent
  | other
  | directory (d : DatasetsDirectory)
  deriving DecidableEq

inductive DatasetsRaised where
  | unavailable (filename : String)
  | fileExists
  | permission
  deriving DecidableEq

/-- What stands below the directory at a name; the empty name is the directory itself. -/
def DatasetsDirectory.found (d : DatasetsDirectory) (name : String) : Option DatasetEntry :=
  if name = "" ∨ name = ".." then some .directory else d.entries.lookup name

/-- `mkdir(exist_ok=True)`. -/
def DatasetsPlace.mkdir : DatasetsPlace → Except DatasetsRaised DatasetsDirectory
  | absent => .ok {}
  | other => .error .fileExists
  | directory d => .ok d

/-- `copy2`. -/
def DatasetsDirectory.copyIn (d : DatasetsDirectory) (name : String) (content : DatasetBytes) :
    Except DatasetsRaised DatasetsDirectory :=
  if d.writable then .ok { d with entries := Dict.set name (.file content) d.entries }
  else .error .permission

/-- The regular files among the stored paths, with their contents. -/
abbrev DatasetSources := String → Option DatasetBytes

def installDataset (sources : DatasetSources) (d : DatasetsDirectory) (dataset : RunDataset) :
    Except DatasetsRaised DatasetsDirectory :=
  match sources dataset.source with
  | none => .error (.unavailable dataset.filename)
  | some content =>
    if (d.found dataset.targetName).isSome then .ok d else d.copyIn dataset.targetName content

/-- `target.relative_to(workspace)`. -/
def RunDataset.installedPath (dataset : RunDataset) : String :=
  if dataset.targetName = "" then "datasets" else "datasets/" ++ dataset.targetName

def installInto (sources : DatasetSources) (datasets : List RunDataset) (place : DatasetsPlace) :
    Except DatasetsRaised (DatasetsDirectory × List String) := do
  let destination ← place.mkdir
  let filled ← datasets.foldlM (installDataset sources) destination
  pure ({ filled with writable := false }, datasets.map RunDataset.installedPath)

structure RunWorktrees where
  beaker : DatasetsPlace
  honeydew : DatasetsPlace
  deriving DecidableEq

def installRunDatasets (sources : DatasetSources) (datasets : List RunDataset) (w : RunWorktrees) :
    Except DatasetsRaised (RunWorktrees × List String) := do
  let beaker ← installInto sources datasets w.beaker
  let honeydew ← installInto sources datasets w.honeydew
  pure (⟨.directory beaker.1, .directory honeydew.1⟩, beaker.2 ++ honeydew.2)

def DatasetsPlace.read (place : DatasetsPlace) (path : String) : Option DatasetBytes :=
  match place, (parsePath path).names with
  | directory d, ["datasets", name] =>
    match d.found name with
    | some (.file content) => some content
    | _ => none
  | _, _ => none

def DatasetsPlace.entryAt (place : DatasetsPlace) (name : String) : Option DatasetEntry :=
  match place with
  | directory d => d.entries.lookup name
  | _ => none

/-- Each dataset is found at its path in each worktree, and a second call changes nothing. -/
structure InstallsRight (sources : DatasetSources) (datasets : List RunDataset) (w : RunWorktrees)
    (installed : List String) : Prop where
  beaker : ∀ (i : Nat) (dataset : RunDataset), datasets[i]? = some dataset →
    ∃ path content, installed[i]? = some path ∧ sources dataset.source = some content ∧
      w.beaker.read path = some content
  honeydew : ∀ (i : Nat) (dataset : RunDataset), datasets[i]? = some dataset →
    ∃ path content, installed[datasets.length + i]? = some path ∧
      sources dataset.source = some content ∧ w.honeydew.read path = some content
  again : installRunDatasets sources datasets w = .ok (w, installed)

/-- Every dataset has its own name, up to equal contents, and what stands there is the dataset. -/
def OwnNames (sources : DatasetSources) (datasets : List RunDataset) (place : DatasetsPlace) :
    Prop :=
  ∀ dataset ∈ datasets, dataset.targetName ≠ "" ∧ dataset.targetName ≠ ".." ∧
    (∀ other ∈ datasets, other.targetName = dataset.targetName →
      sources other.source = sources dataset.source) ∧
    ∀ entry, place.entryAt dataset.targetName = some entry →
      (sources dataset.source).map DatasetEntry.file = some entry

instance (sources : DatasetSources) (datasets : List RunDataset) (place : DatasetsPlace) :
    Decidable (OwnNames sources datasets place) :=
  inferInstanceAs (Decidable (∀ dataset ∈ datasets, dataset.targetName ≠ "" ∧
    dataset.targetName ≠ ".." ∧
      (∀ other ∈ datasets, other.targetName = dataset.targetName →
        sources other.source = sources dataset.source) ∧
      ∀ entry ∈ place.entryAt dataset.targetName,
        (sources dataset.source).map DatasetEntry.file = some entry))

/-! ## What the copies come to -/

variable {sources : DatasetSources} {datasets : List RunDataset} {dataset : RunDataset}
  {d d' : DatasetsDirectory} {name : String} {entry : DatasetEntry}

/-- The directory after the datasets have been installed. -/
structure Filled (sources : DatasetSources) (datasets : List RunDataset)
    (d d' : DatasetsDirectory) :
    Prop where
  keeps : ∀ name entry, d.found name = some entry → d'.found name = some entry
  origin : ∀ name entry, d'.found name = some entry → d.found name = some entry ∨
    ∃ dataset ∈ datasets, dataset.targetName = name ∧
      (sources dataset.source).map DatasetEntry.file = some entry
  present : ∀ dataset ∈ datasets, (d'.found dataset.targetName).isSome ∧
    (sources dataset.source).isSome

variable {content : DatasetBytes}

theorem found_copyIn (h : d.copyIn name content = .ok d')
    (hNew : d.found name = none) {name' : String} :
    d'.found name' = if name' = name then some (.file content) else d.found name' := by
  unfold DatasetsDirectory.copyIn at h
  split at h
  · rw [← ok.inj h]
    unfold DatasetsDirectory.found at hNew ⊢
    rw [Dict.lookup_set]
    by_cases hName : name' = name
    · subst hName
      by_cases hDots : name' = "" ∨ name' = ".."
      · rw [if_pos hDots] at hNew
        cases hNew
      · simp [hDots]
    · rw [if_neg hName, if_neg hName]
  · cases h

/-- A dataset keeps what stands at its name, or is put there. -/
theorem installDataset_cases (h : installDataset sources d dataset = .ok d') :
    ∃ content, sources dataset.source = some content ∧
      (((d.found dataset.targetName).isSome ∧ d' = d) ∨
        (d.found dataset.targetName = none ∧ ∀ name, d'.found name =
          if name = dataset.targetName then some (.file content) else d.found name)) := by
  unfold installDataset at h
  cases hSource : sources dataset.source with
  | none =>
    rw [hSource] at h
    cases h
  | some content =>
    rw [hSource] at h
    refine ⟨content, rfl, ?_⟩
    dsimp only at h
    split at h
    next hSome => exact .inl ⟨hSome, (ok.inj h).symm⟩
    next hNone =>
      have hNew := not_isSome_iff_eq_none.mp hNone
      exact .inr ⟨hNew, fun name => found_copyIn h hNew⟩

theorem Filled.cons {middle : DatasetsDirectory}
    (hFirst : installDataset sources d dataset = .ok middle)
    (h : Filled sources datasets middle d') :
    Filled sources (dataset :: datasets) d d' := by
  obtain ⟨content, hSource, hCases⟩ := installDataset_cases hFirst
  have hKeeps : ∀ name entry, d.found name = some entry → middle.found name = some entry := by
    intro name entry hFound
    rcases hCases with ⟨-, rfl⟩ | ⟨hNew, hMiddle⟩
    · exact hFound
    · rw [hMiddle, if_neg, hFound]
      rintro rfl
      rw [hNew] at hFound
      cases hFound
  constructor
  · exact fun name entry hFound => h.keeps name entry (hKeeps name entry hFound)
  · intro name entry hFound
    rcases h.origin name entry hFound with hMiddleFound | ⟨other, hMem, hOther⟩
    · rcases hCases with ⟨-, rfl⟩ | ⟨-, hMiddle⟩
      · exact .inl hMiddleFound
      · rw [hMiddle] at hMiddleFound
        split at hMiddleFound
        next hName =>
          refine .inr ⟨dataset, mem_cons_self, hName.symm, ?_⟩
          rw [hSource]
          exact hMiddleFound
        next => exact .inl hMiddleFound
    · exact .inr ⟨other, mem_cons_of_mem _ hMem, hOther⟩
  · intro other hMem
    rcases mem_cons.mp hMem with rfl | hMem
    · refine ⟨?_, by rw [hSource]; rfl⟩
      have hMiddle : (middle.found other.targetName).isSome := by
        rcases hCases with ⟨hSome, rfl⟩ | ⟨-, hMiddle⟩
        · exact hSome
        · rw [hMiddle, if_pos rfl]
          rfl
      obtain ⟨entry, hEntry⟩ := isSome_iff_exists.mp hMiddle
      rw [h.keeps _ _ hEntry]
      rfl
    · exact h.present other hMem

theorem filled_of_foldlM (h : datasets.foldlM (installDataset sources) d = .ok d') :
    Filled sources datasets d d' := by
  induction datasets generalizing d with
  | nil =>
    obtain rfl := ok.inj h
    exact ⟨fun _ _ h => h, fun _ _ h => .inl h, nofun⟩
  | cons dataset datasets ih =>
    obtain ⟨middle, hFirst, hRest⟩ := of_bind h
    exact Filled.cons hFirst (ih hRest)

theorem foldlM_of_present (h : ∀ dataset ∈ datasets, (d.found dataset.targetName).isSome ∧
    (sources dataset.source).isSome) : datasets.foldlM (installDataset sources) d = .ok d := by
  induction datasets with
  | nil => rfl
  | cons dataset datasets ih =>
    obtain ⟨hFound, hSource⟩ := h dataset mem_cons_self
    obtain ⟨content, hContent⟩ := isSome_iff_exists.mp hSource
    have hStep : installDataset sources d dataset = .ok d := by
      rw [installDataset, hContent]
      exact if_pos hFound
    rw [foldlM_cons, hStep]
    exact ih fun other hMem => h other (mem_cons_of_mem _ hMem)

theorem names_installedPath (h : dataset.targetName ≠ "") :
    (parsePath dataset.installedPath).names = ["datasets", dataset.targetName] := by
  have hMem : dataset.targetName ∈ namesOf dataset.filename.toList := by
    unfold RunDataset.targetName at h ⊢
    cases hLast : (parsePath dataset.filename).names.getLast? with
    | none =>
      rw [hLast] at h
      exact absurd rfl h
    | some name => exact mem_of_getLast? hLast
  have hName : namesOf dataset.targetName.toList = [dataset.targetName] :=
    @namesOf_intercalate [dataset.targetName] (by simpa using mem_namesOf hMem)
  have hText :
      dataset.installedPath.toList = "datasets".toList ++ '/' :: dataset.targetName.toList := by
    rw [RunDataset.installedPath, if_neg h]
    simp
  rw [parsePath, hText, namesOf_append_cons, hName]
  rfl

theorem read_installedPath :
    (DatasetsPlace.directory d).read dataset.installedPath = some content ↔
      d.found dataset.targetName = some (.file content) := by
  unfold DatasetsPlace.read
  by_cases hName : dataset.targetName = ""
  · have hPath : dataset.installedPath = "datasets" := if_pos hName
    have hNames : (parsePath "datasets").names = ["datasets"] := by decide +kernel
    have hFound : d.found dataset.targetName = some .directory := if_pos (.inl hName)
    rw [hPath, hNames, hFound]
    simp
  · rw [names_installedPath hName]
    cases hFound : d.found dataset.targetName with
    | none => simp [hFound]
    | some entry => cases entry <;> simp [hFound]

variable {place : DatasetsPlace} {installed : List String}

/-- What a worktree holds after its turn, by what it held before. -/
theorem filled_of_installInto
    (h : installInto sources datasets place = .ok (d, installed)) :
    installed = datasets.map RunDataset.installedPath ∧ d.writable = false ∧
      ∃ start, place.mkdir = .ok start ∧ Filled sources datasets start d := by
  obtain ⟨start, hStart, h⟩ := of_bind h
  obtain ⟨filled, hFilled, h⟩ := of_bind h
  obtain ⟨rfl, rfl⟩ := Prod.mk.inj (ok.inj h)
  refine ⟨rfl, rfl, start, hStart, ?_⟩
  have hFilled := filled_of_foldlM hFilled
  exact ⟨hFilled.keeps, hFilled.origin, hFilled.present⟩

/-- A second turn finds every dataset present. -/
theorem installInto_again
    (h : installInto sources datasets place = .ok (d, installed)) :
    installInto sources datasets (.directory d) = .ok (d, installed) := by
  obtain ⟨hInstalled, hWritable, start, -, hFilled⟩ := filled_of_installInto h
  unfold installInto
  show (datasets.foldlM (installDataset sources) d >>= _) = _
  rw [foldlM_of_present hFilled.present, hInstalled]
  show Except.ok ({ d with writable := false }, _) = _
  rw [← hWritable]

theorem found_mkdir (h : place.mkdir = .ok d) (hName : name ≠ "")
    (hDots : name ≠ "..") : d.found name = place.entryAt name := by
  unfold DatasetsDirectory.found
  rw [if_neg (not_or.mpr ⟨hName, hDots⟩)]
  cases place with
  | absent =>
    rw [← ok.inj h]
    rfl
  | other => cases h
  | directory d' =>
    rw [← ok.inj h]
    rfl

/-- The datasets are found in one worktree exactly if they have names of their own there. -/
theorem found_iff_ownNames {start : DatasetsDirectory}
    (hStart : place.mkdir = .ok start) (h : Filled sources datasets start d) :
    (∀ dataset ∈ datasets, ∃ content, sources dataset.source = some content ∧
      d.found dataset.targetName = some (.file content)) ↔ OwnNames sources datasets place := by
  constructor
  · intro hFound dataset hMem
    obtain ⟨content, hSource, hFile⟩ := hFound dataset hMem
    have hPlain : ¬(dataset.targetName = "" ∨ dataset.targetName = "..") := by
      intro hDots
      rw [DatasetsDirectory.found, if_pos hDots] at hFile
      cases hFile
    obtain ⟨hName, hDots⟩ := not_or.mp hPlain
    refine ⟨hName, hDots, ?_, ?_⟩
    · intro other hOther hSame
      obtain ⟨content', hSource', hFile'⟩ := hFound other hOther
      rw [hSame, hFile] at hFile'
      obtain rfl := DatasetEntry.file.inj (Option.some.inj hFile')
      rw [hSource, hSource']
    · intro entry hEntry
      rw [← found_mkdir hStart hName hDots] at hEntry
      have hKept := h.keeps _ _ hEntry
      rw [hFile] at hKept
      rw [hSource]
      exact hKept
  · intro hOwn dataset hMem
    obtain ⟨hName, hDots, hSame, hThere⟩ := hOwn dataset hMem
    obtain ⟨hPresent, hSome⟩ := h.present dataset hMem
    obtain ⟨entry, hEntry⟩ := isSome_iff_exists.mp hPresent
    obtain ⟨content, hSource⟩ := isSome_iff_exists.mp hSome
    refine ⟨content, hSource, ?_⟩
    rw [hEntry]
    rcases h.origin _ _ hEntry with hOld | ⟨other, hOther, hTarget, hFile⟩
    · rw [found_mkdir hStart hName hDots] at hOld
      rw [← hThere entry hOld, hSource]
      rfl
    · rw [← hFile, hSame other hOther hTarget, hSource]
      rfl

/-- Every dataset is found at its path in both worktrees exactly if in each of them its name is its
own; a second call changes nothing in any case. -/
theorem installs_right_iff {w w' : RunWorktrees}
    (h : installRunDatasets sources datasets w = .ok (w', installed)) :
    InstallsRight sources datasets w' installed ↔
      OwnNames sources datasets w.beaker ∧ OwnNames sources datasets w.honeydew := by
  obtain ⟨⟨beaker, first⟩, hBeaker, h⟩ := of_bind h
  obtain ⟨⟨honeydew, second⟩, hHoneydew, h⟩ := of_bind h
  obtain ⟨rfl, rfl⟩ := Prod.mk.inj (ok.inj h)
  obtain ⟨rfl, -, startBeaker, hStartBeaker, hFilledBeaker⟩ := filled_of_installInto hBeaker
  obtain ⟨rfl, -, startHoneydew, hStartHoneydew, hFilledHoneydew⟩ := filled_of_installInto hHoneydew
  rw [← found_iff_ownNames hStartBeaker hFilledBeaker,
    ← found_iff_ownNames hStartHoneydew hFilledHoneydew]
  have hFirst : ∀ {i : Nat} {dataset : RunDataset}, datasets[i]? = some dataset →
      (datasets.map RunDataset.installedPath ++ datasets.map RunDataset.installedPath)[i]? =
        some dataset.installedPath := by
    intro i dataset hAt
    have hLt := (List.getElem?_eq_some_iff.mp hAt).1
    rw [List.getElem?_append_left (by simpa using hLt), List.getElem?_map, hAt]
    rfl
  have hSecond : ∀ {i : Nat} {dataset : RunDataset}, datasets[i]? = some dataset →
      (datasets.map RunDataset.installedPath ++
        datasets.map RunDataset.installedPath)[datasets.length + i]? =
        some dataset.installedPath := by
    intro i dataset hAt
    rw [List.getElem?_append_right (by simp), length_map, Nat.add_sub_cancel_left,
      List.getElem?_map, hAt]
    rfl
  constructor
  · intro hRight
    constructor
    · intro dataset hMem
      obtain ⟨i, hAt⟩ := List.getElem?_of_mem hMem
      obtain ⟨path, content, hPath, hSource, hRead⟩ := hRight.beaker i dataset hAt
      rw [hFirst hAt] at hPath
      obtain rfl := Option.some.inj hPath
      exact ⟨content, hSource, read_installedPath.mp hRead⟩
    · intro dataset hMem
      obtain ⟨i, hAt⟩ := List.getElem?_of_mem hMem
      obtain ⟨path, content, hPath, hSource, hRead⟩ := hRight.honeydew i dataset hAt
      rw [hSecond hAt] at hPath
      obtain rfl := Option.some.inj hPath
      exact ⟨content, hSource, read_installedPath.mp hRead⟩
  · rintro ⟨hBeakerFound, hHoneydewFound⟩
    constructor
    · intro i dataset hAt
      obtain ⟨content, hSource, hFile⟩ := hBeakerFound dataset (mem_of_getElem? hAt)
      exact ⟨_, content, hFirst hAt, hSource, read_installedPath.mpr hFile⟩
    · intro i dataset hAt
      obtain ⟨content, hSource, hFile⟩ := hHoneydewFound dataset (mem_of_getElem? hAt)
      exact ⟨_, content, hSecond hAt, hSource, read_installedPath.mpr hFile⟩
    · unfold installRunDatasets
      rw [installInto_again hBeaker]
      rw [installInto_again hHoneydew]
      rfl

def freshWorktrees : RunWorktrees := ⟨.absent, .absent⟩

def storedDatasets : DatasetSources := fun source =>
  if source = "/mnt/datasets/a/data.csv" then some "x,y".toUTF8.toList
  else if source = "/mnt/datasets/b/data.csv" then some "u,v".toUTF8.toList
  else none

def datasetA : RunDataset := ⟨"/mnt/datasets/a/data.csv", "data.csv"⟩

def datasetB : RunDataset := ⟨"/mnt/datasets/b/data.csv", "data.csv"⟩

def labels : RunDataset := ⟨"/mnt/datasets/b/data.csv", "labels.csv"⟩

/-- One of the worktrees has the first table from a call that was cut short. -/
def halfInstalled : RunWorktrees :=
  ⟨.directory ⟨[("data.csv", .file "x,y".toUTF8.toList)], true⟩, .absent⟩

/-- Two tables under two names, in both worktrees. -/
def bothInstalled : RunWorktrees :=
  let tables := [("data.csv", DatasetEntry.file "x,y".toUTF8.toList),
    ("labels.csv", .file "u,v".toUTF8.toList)]
  ⟨.directory ⟨tables, false⟩, .directory ⟨tables, false⟩⟩

theorem installs_right_twoTables :
    installRunDatasets storedDatasets [datasetA, labels] halfInstalled =
        .ok (bothInstalled, ["datasets/data.csv", "datasets/labels.csv", "datasets/data.csv",
          "datasets/labels.csv"]) ∧
      InstallsRight storedDatasets [datasetA, labels] bothInstalled
        ["datasets/data.csv", "datasets/labels.csv", "datasets/data.csv",
    "datasets/labels.csv"] := by
  have hInstalled : installRunDatasets storedDatasets [datasetA, labels] halfInstalled =
      .ok (bothInstalled, ["datasets/data.csv", "datasets/labels.csv", "datasets/data.csv",
        "datasets/labels.csv"]) := by decide +kernel
  exact ⟨hInstalled, (installs_right_iff hInstalled).mpr (by decide +kernel)⟩

/-- The second table of the same name is not copied, and its path leads to the first one. -/
theorem second_table_not_installed :
    installRunDatasets storedDatasets [datasetA, datasetB] freshWorktrees =
        .ok (⟨.directory ⟨[("data.csv", .file "x,y".toUTF8.toList)], false⟩,
            .directory ⟨[("data.csv", .file "x,y".toUTF8.toList)], false⟩⟩,
          ["datasets/data.csv", "datasets/data.csv", "datasets/data.csv", "datasets/data.csv"]) ∧
      ¬ InstallsRight storedDatasets [datasetA, datasetB]
        ⟨.directory ⟨[("data.csv", .file "x,y".toUTF8.toList)], false⟩,
          .directory ⟨[("data.csv", .file "x,y".toUTF8.toList)], false⟩⟩
        ["datasets/data.csv", "datasets/data.csv", "datasets/data.csv", "datasets/data.csv"] := by
  refine ⟨by decide +kernel, fun h => ?_⟩
  obtain ⟨path, content, hPath, hSource, hRead⟩ := h.beaker 1 datasetB rfl
  obtain rfl := Option.some.inj hPath
  have hOther : (DatasetsPlace.directory ⟨[("data.csv", .file "x,y".toUTF8.toList)], false⟩).read
      "datasets/data.csv" = some "x,y".toUTF8.toList := by decide +kernel
  rw [← hRead] at hSource
  exact absurd hSource (by decide +kernel)

end Glasslab.Workspaces
