import Glasslab.Workspaces.RetryCheckpoint

/-!
# How exact a retry checkpoint is

A checkpoint is exact if the retry that it was copied into is verified, and is not verified any more
after a change outside the managed files. The second half holds because the manifest and the status
of the worktrees have to agree in both directions. The first half can fail: the creation leaves out
the managed files of the source without a look at those of the child, and it takes `program.md` to
be managed, but not what stands below a directory of that name.
-/

namespace Glasslab.Workspaces

open Foundation Foundation.Raising List

section Status

variable {base files : Files} {path : Path} {code : StatusCode} {node : Node}

theorem leaf_ne_directory (files : Files) (path : Path) : files.leaf path ≠ some .directory := by
  intro h
  exact (DirectoryTree.leaf_eq_some_iff.mp h).2 rfl

theorem changeCode_eq_none_iff :
    changeCode (base.leaf path) (files.leaf path) = none ↔ base.leaf path = files.leaf path := by
  have hBase := leaf_ne_directory base path
  generalize base.leaf path = old at hBase ⊢
  generalize files.leaf path = new
  cases old with
  | none => cases new <;> simp [changeCode]
  | some old =>
    cases new with
    | none => simp [changeCode]
    | some new =>
      cases old <;> cases new <;> simp_all [changeCode]

theorem mem_leafPaths : path ∈ leafPaths files ↔ (files.leaf path).isSome := by
  rw [leafPaths, mem_map]
  constructor
  · rintro ⟨entry, hEntry, rfl⟩
    exact (mem_filter.mp hEntry).2
  · intro h
    obtain ⟨node, hNode⟩ := Option.isSome_iff_exists.mp h
    exact ⟨(path, node), mem_filter.mpr ⟨(DirectoryTree.leaf_eq_some_iff.mp hNode).1, h⟩, rfl⟩

theorem mem_status : (code, path) ∈ status base files ↔
    changeCode (base.leaf path) (files.leaf path) = some code := by
  rw [status, mem_filterMap]
  constructor
  · rintro ⟨other, -, hCode⟩
    obtain ⟨found, hFound, hEq⟩ := Option.map_eq_some_iff.mp hCode
    cases hEq
    exact hFound
  · intro h
    refine ⟨path, ?_, by rw [h]; rfl⟩
    rw [mem_append, mem_leafPaths]
    cases hBase : base.leaf path with
    | some node => exact .inl rfl
    | none =>
      right
      refine mem_filter.mpr ⟨mem_leafPaths.mpr ?_, by rw [hBase]; rfl⟩
      cases hFiles : files.leaf path with
      | some node => rfl
      | none =>
        rw [hBase, hFiles] at h
        cases h

/-- A path is not in the delta just if nothing has changed there. -/
theorem not_mem_status :
    (∀ code, (code, path) ∉ status base files) ↔ files.leaf path = base.leaf path := by
  simp only [mem_status]
  rw [eq_comm, ← changeCode_eq_none_iff, Option.eq_none_iff_forall_ne_some]

end Status

section Checks

variable {α β : Type} {condition : Prop} [Decidable condition] {message : String} {b : β}

theorem require_eq_ok_iff : require condition message = .ok () ↔ condition := by
  rw [require]
  split <;> simp [*]

theorem require_bind_eq_ok_iff {f : Unit → Except WorkspaceError β} :
    (require condition message >>= f) = .ok b ↔ condition ∧ f () = .ok b := by
  rw [bind_eq_ok_iff]
  constructor
  · rintro ⟨⟨⟩, h, hRest⟩
    exact ⟨require_eq_ok_iff.mp h, hRest⟩
  · rintro ⟨h, hRest⟩
    exact ⟨(), require_eq_ok_iff.mpr h, hRest⟩

variable {f : α → Except WorkspaceError Unit} {xs : List α}

theorem forM_eq_ok_iff :
    xs.forM f = .ok () ↔ ∀ x ∈ xs, f x = .ok () := by
  induction xs with
  | nil => exact iff_of_true rfl nofun
  | cons x xs ih =>
    rw [forM_eq_forM] at ih ⊢
    rw [forM_cons, bind_eq_ok_iff, forall_mem_cons]
    constructor
    · rintro ⟨⟨⟩, h, hRest⟩
      exact ⟨h, ih.mp hRest⟩
    · rintro ⟨h, hRest⟩
      exact ⟨(), h, ih.mpr hRest⟩

variable {next : Unit → Except WorkspaceError β}

theorem forM_bind_eq_ok_iff :
    (xs.forM f >>= next) = .ok b ↔ (∀ x ∈ xs, f x = .ok ()) ∧ next () = .ok b := by
  rw [bind_eq_ok_iff]
  constructor
  · rintro ⟨⟨⟩, h, hRest⟩
    exact ⟨forM_eq_ok_iff.mp h, hRest⟩
  · rintro ⟨h, hRest⟩
    exact ⟨(), forM_eq_ok_iff.mpr h, hRest⟩

theorem unit_bind_eq_ok_iff {x : Except WorkspaceError Unit} :
    (x >>= next) = .ok b ↔ x = .ok () ∧ next () = .ok b := by
  rw [bind_eq_ok_iff]
  constructor
  · rintro ⟨⟨⟩, h, hRest⟩
    exact ⟨h, hRest⟩
  · rintro ⟨h, hRest⟩
    exact ⟨(), h, hRest⟩

end Checks

section Checkpoint

variable {H D : Type} [DecidableEq H] [DecidableEq D] {commits : String → Files}
  {sha256 : Content → H}
  {manifestSha256 : Manifest H → D} {host : String → Option Content}

theorem hasDigest_iff (hSha : sha256.Injective) {node : Option Node} {content : Content} :
    hasDigest sha256 node (sha256 content) ↔ node = some (.file content) := by
  cases node with
  | none => simp [hasDigest]
  | some node =>
    cases node with
    | file found => simp [hasDigest, hSha.eq_iff]
    | link target => simp [hasDigest]
    | directory => simp [hasDigest]

def PlainDelta (commits : String → Files) (root : Worktree) : Prop :=
  ∀ code path, (code, path) ∈ status (commits root.head) root.files → code ∈ plainCodes ∧
    ".." ∉ path

def delta (commits : String → Files) (name : String) (root : Worktree) : List (String × Path) :=
  ((status (commits root.head) root.files).filter fun entry => !isManaged entry.2).map
    fun entry => (name, entry.2)

theorem mem_delta {name name' : String} {root : Worktree} {path : Path} :
    (name', path) ∈ delta commits name root ↔ name' = name ∧ isManaged path = false ∧
      ∃ code, (code, path) ∈ status (commits root.head) root.files := by
  rw [delta, mem_map]
  constructor
  · rintro ⟨⟨code, path⟩, hEntry, hEq⟩
    cases hEq
    obtain ⟨hMem, hManaged⟩ := mem_filter.mp hEntry
    exact ⟨rfl, by simpa using hManaged, code, hMem⟩
  · rintro ⟨rfl, hManaged, code, hMem⟩
    exact ⟨(code, path), mem_filter.mpr ⟨hMem, by simpa using hManaged⟩, rfl⟩

theorem observedFiles_eq_ok_iff {name : String} {root : Worktree} {files : List (String × Path)} :
    observedFiles commits name root = .ok files ↔
      PlainDelta commits root ∧ files = delta commits name root := by
  simp only [observedFiles]
  rw [forM_bind_eq_ok_iff, pure_eq_ok_iff]
  refine and_congr ?_ Iff.rfl
  simp only [require_eq_ok_iff]
  exact ⟨fun h code path hMem => h (code, path) hMem, fun h entry hMem => h entry.1 entry.2 hMem⟩

def FileFound (sha256 : Content → H) (run : RunFiles H) (item : FileEntry H) : Prop :=
  ∃ root, run.worktree item.workspace = some root ∧ ".." ∉ item.path ∧
    hasDigest sha256 (root.files.lookup item.path) item.sha256

theorem verifyFile_eq_ok_iff {run : RunFiles H} {item : FileEntry H} :
    verifyFile sha256 run item = .ok () ↔ FileFound sha256 run item := by
  rw [verifyFile, FileFound]
  cases run.worktree item.workspace with
  | none =>
    refine iff_of_false nofun ?_
    rintro ⟨root, h, -⟩
    cases h
  | some root =>
    simp only [require_bind_eq_ok_iff, require_eq_ok_iff, Option.some.injEq]
    constructor
    · intro h
      exact ⟨root, rfl, h⟩
    · rintro ⟨_, rfl, h⟩
      exact h

structure Verified (commits : String → Files) (sha256 : Content → H)
    (manifestSha256 : Manifest H → D)
    (run : RunFiles H) (checkpointDigest : D) (manifest : Manifest H) : Prop where
  found : run.manifest = some manifest
  digest : manifestSha256 manifest = checkpointDigest
  schema : manifest.schemaVersion = schemaVersion
  shared : run.beaker.head = run.honeydew.head
  base : run.beaker.head = manifest.baseCommit
  protocol : hasDigest sha256 (run.node manifest.protocolPath) manifest.protocolSha256
  beakerManaged : verifyManaged sha256 manifest run.beaker.files = .ok ()
  honeydewManaged : verifyManaged sha256 manifest run.honeydew.files = .ok ()
  files : ∀ item ∈ manifest.files, FileFound sha256 run item
  beakerPlain : PlainDelta commits run.beaker
  honeydewPlain : PlainDelta commits run.honeydew
  listed : ∀ file ∈ delta commits "beaker" run.beaker ++ delta commits "honeydew" run.honeydew,
    file ∈ manifest.files.map fun item => (item.workspace, item.path)
  observed : ∀ file ∈ manifest.files.map fun item => (item.workspace, item.path),
    file ∈ delta commits "beaker" run.beaker ++ delta commits "honeydew" run.honeydew

theorem verify_eq_ok_iff {run : RunFiles H} {checkpointDigest : D} {manifest : Manifest H} :
    verifyTerminalRetryCheckpoint commits sha256 manifestSha256 run checkpointDigest =
    .ok manifest ↔
      Verified commits sha256 manifestSha256 run checkpointDigest manifest := by
  rw [verifyTerminalRetryCheckpoint]
  cases hFound : run.manifest with
  | none =>
    refine iff_of_false nofun fun h => ?_
    rw [h.found] at hFound
    cases hFound
  | some found =>
    simp only [unit_bind_eq_ok_iff, require_eq_ok_iff, forM_eq_ok_iff, verifyFile_eq_ok_iff]
    constructor
    · rintro ⟨hDigest, hSchema, hShared, hBase, hProtocol, hBeaker, hHoneydew, hFiles, hRest⟩
      obtain ⟨beaker, hBeakerFiles, hRest⟩ := of_bind hRest
      obtain ⟨honeydew, hHoneydewFiles, hRest⟩ := of_bind hRest
      obtain ⟨hBeakerPlain, rfl⟩ := observedFiles_eq_ok_iff.mp hBeakerFiles
      obtain ⟨hHoneydewPlain, rfl⟩ := observedFiles_eq_ok_iff.mp hHoneydewFiles
      obtain ⟨⟨hListed, hObserved⟩, hManifest⟩ := require_bind_eq_ok_iff.mp hRest
      obtain rfl := pure_eq_ok_iff.mp hManifest
      exact ⟨hFound, hDigest, hSchema, hShared, hBase, hProtocol, hBeaker, hHoneydew, hFiles,
        hBeakerPlain, hHoneydewPlain, hListed, hObserved⟩
    · intro h
      obtain rfl : found = manifest := Option.some.inj (hFound.symm.trans h.found)
      refine ⟨h.digest, h.schema, h.shared, h.base, h.protocol, h.beakerManaged, h.honeydewManaged,
        h.files, bind_eq_ok_iff.mpr ⟨_, observedFiles_eq_ok_iff.mpr ⟨h.beakerPlain, rfl⟩,
          bind_eq_ok_iff.mpr ⟨_, observedFiles_eq_ok_iff.mpr ⟨h.honeydewPlain, rfl⟩, ?_⟩⟩⟩
      exact require_bind_eq_ok_iff.mpr ⟨⟨h.listed, h.observed⟩, rfl⟩

end Checkpoint

/-! ## What is copied -/

section Copies

variable {H : Type} {sha256 : Content → H}

def IsCopied (entries : List (StatusCode × Path)) (path : Path) : Prop :=
  isManaged path = false ∧ ∃ code, (code, path) ∈ entries

theorem isCopied_append {entries entries' : List (StatusCode × Path)} {path : Path} :
    IsCopied (entries ++ entries') path ↔ IsCopied entries path ∨ IsCopied entries' path := by
  simp only [IsCopied, mem_append, exists_or, ← and_or_left]

/-- What the entries of the status of a source make of a worktree. -/
structure Copied (sha256 : Content → H) (name : String) (source : Files)
    (entries : List (StatusCode × Path)) (before after : Copying H) : Prop where
  plain : ∀ code path, (code, path) ∈ entries → code ∈ plainCodes ∧ ".." ∉ path
  regular : ∀ path, IsCopied entries path → ∃ content, source.lookup path = some (.file content)
  leaf : ∀ path, IsCopied entries path → after.target.leaf path = source.leaf path
  kept : ∀ path, ¬ IsCopied entries path → after.target.leaf path = before.target.leaf path
  files : ∀ item, item ∈ after.files ↔ item ∈ before.files ∨ ∃ path content,
    IsCopied entries path ∧ source.lookup path = some (.file content) ∧
      item = ⟨name, path, content.length, sha256 content⟩
  program : (∀ path, IsCopied entries path → ¬ ["program.md"] <+: path) → ∀ node,
    (["program.md"], node) ∈ after.target.entries ↔ (["program.md"], node) ∈ before.target.entries
  programDirectory : ∀ path, IsCopied entries path → ["program.md"] <+: path →
    (["program.md"], .directory) ∈ after.target.entries
  task : ∀ path node, ["benchmark-task"] <+: path →
    ((path, node) ∈ after.target.entries ↔ (path, node) ∈ before.target.entries)

section Copied

variable {limits : Limits} {name : String} {source : Files} {entry : StatusCode × Path}
  {entries entries' : List (StatusCode × Path)} {before middle after : Copying H}

theorem Copied.append (h : Copied sha256 name source entries before middle)
    (h' : Copied sha256 name source entries' middle after) :
    Copied sha256 name source (entries ++ entries') before after where
  plain := by
    intro code path hMem
    rcases mem_append.mp hMem with hOld | hNew
    · exact h.plain code path hOld
    · exact h'.plain code path hNew
  regular := by
    intro path hCopied
    rcases isCopied_append.mp hCopied with hOld | hNew
    · exact h.regular path hOld
    · exact h'.regular path hNew
  leaf := by
    intro path hCopied
    by_cases hNew : IsCopied entries' path
    · exact h'.leaf path hNew
    · rw [h'.kept path hNew]
      exact h.leaf path ((isCopied_append.mp hCopied).resolve_right hNew)
  kept := by
    intro path hNot
    rw [isCopied_append, not_or] at hNot
    rw [h'.kept path hNot.2, h.kept path hNot.1]
  files := by
    intro item
    rw [h'.files, h.files]
    simp only [isCopied_append, or_and_right, exists_or, or_assoc]
  program := by
    intro hNone node
    rw [h'.program fun path hCopied => hNone path (isCopied_append.mpr (.inr hCopied)),
      h.program fun path hCopied => hNone path (isCopied_append.mpr (.inl hCopied))]
  programDirectory := by
    intro path hCopied hPrefix
    by_cases hNew : ∃ other, IsCopied entries' other ∧ ["program.md"] <+: other
    · obtain ⟨other, hOther, hOtherPrefix⟩ := hNew
      exact h'.programDirectory other hOther hOtherPrefix
    · push Not at hNew
      rw [h'.program hNew]
      rcases isCopied_append.mp hCopied with hOld | hLate
      · exact h.programDirectory path hOld hPrefix
      · exact absurd hPrefix (hNew path hLate)
  task := by
    intro path node hPrefix
    rw [h'.task path node hPrefix, h.task path node hPrefix]

theorem Copied.nil (copying : Copying H) : Copied sha256 name source [] copying copying where
  plain := nofun
  regular := fun _ h => by obtain ⟨-, code, hMem⟩ := h; cases hMem
  leaf := fun _ h => by obtain ⟨-, code, hMem⟩ := h; cases hMem
  kept := fun _ _ => rfl
  files := by
    intro item
    refine ⟨.inl, ?_⟩
    rintro (h | ⟨path, content, ⟨-, code, hMem⟩, -⟩)
    · exact h
    · cases hMem
  program := fun _ _ => Iff.rfl
  programDirectory := fun _ h => by obtain ⟨-, code, hMem⟩ := h; cases hMem
  task := fun _ _ _ => Iff.rfl

theorem isCopied_singleton :
    IsCopied [entry] path ↔ isManaged path = false ∧ path = entry.2 := by
  simp only [IsCopied, mem_singleton, Prod.ext_iff, exists_and_right]
  simp

/-- A file that is not managed is no entry of the managed paths, and stands in none. -/
theorem not_managed (h : isManaged path = false) :
    path ≠ ["program.md"] ∧ ¬ ["benchmark-task"] <+: path := by
  simp only [isManaged, decide_eq_false_iff_not, not_or] at h
  refine ⟨h.1, fun hPrefix => h.2.2 ?_⟩
  obtain ⟨rest, rfl⟩ := hPrefix
  rfl

variable {code : StatusCode} {path : Path} {content : Content}

theorem Copied.managed (hPlain : code ∈ plainCodes ∧ ".." ∉ path) (hManaged : isManaged path = true)
    (copying : Copying H) : Copied sha256 name source [(code, path)] copying copying := by
  have hNone (other : Path) : ¬ IsCopied [(code, path)] other := by
    rw [isCopied_singleton]
    rintro ⟨hOther, rfl⟩
    rw [hManaged] at hOther
    cases hOther
  refine ⟨?_, ?_, ?_, fun _ _ => rfl, ?_, fun _ _ => Iff.rfl, ?_, fun _ _ _ => Iff.rfl⟩
  · intro code' path' hMem
    cases mem_singleton.mp hMem
    exact hPlain
  · exact fun other hOther => absurd hOther (hNone other)
  · exact fun other hOther => absurd hOther (hNone other)
  · intro item
    refine ⟨.inl, ?_⟩
    rintro (hItem | ⟨other, content, hOther, -⟩)
    · exact hItem
    · exact absurd hOther (hNone other)
  · exact fun other hOther => absurd hOther (hNone other)

theorem Copied.put (hPlain : code ∈ plainCodes ∧ ".." ∉ path) (hManaged : isManaged path = false)
    (hContent : source.lookup path = some (.file content)) {copying : Copying H}
    (hPut : copying.target.canPut path) :
    Copied sha256 name source [(code, path)] copying
      { target := copying.target.put path content hPut
        files := copying.files ++ [⟨name, path, content.length, sha256 content⟩]
        total := copying.total + content.length } := by
  obtain ⟨hProgram, hTask⟩ := not_managed hManaged
  have hSelf (other : Path) : IsCopied [(code, path)] other ↔ other = path := by
    rw [isCopied_singleton]
    exact ⟨And.right, fun hEq => ⟨hEq ▸ hManaged, hEq⟩⟩
  refine ⟨?_, ?_, ?_, ?_, ?_, ?_, ?_, ?_⟩
  · intro code' path' hMem
    cases mem_singleton.mp hMem
    exact hPlain
  · intro other hOther
    exact ⟨content, (hSelf other).mp hOther ▸ hContent⟩
  · intro other hOther
    obtain rfl := (hSelf other).mp hOther
    rw [DirectoryTree.leaf_put hPut, if_pos rfl, eq_comm, DirectoryTree.leaf_eq_some_iff]
    exact ⟨DirectoryTree.mem_of_lookup hContent, nofun⟩
  · intro other hOther
    rw [DirectoryTree.leaf_put hPut, if_neg fun hEq => hOther ((hSelf other).mpr hEq)]
  · intro item
    simp only [mem_append, mem_singleton, hSelf]
    refine or_congr_right ⟨?_, ?_⟩
    · rintro rfl
      exact ⟨path, content, rfl, hContent, rfl⟩
    · rintro ⟨other, found, rfl, hFound, rfl⟩
      rw [hContent] at hFound
      cases hFound
      rfl
  · intro hNone node
    refine DirectoryTree.mem_put_of_not_front hPut hProgram.symm fun hFront => ?_
    obtain ⟨-, rest, -, hPath⟩ := DirectoryTree.mem_fronts.mp hFront
    exact hNone path ((hSelf path).mpr rfl) ⟨rest, hPath⟩
  · intro other hOther hPrefix
    obtain rfl := (hSelf other).mp hOther
    obtain ⟨rest, hRest⟩ := hPrefix
    refine DirectoryTree.mem_put_front hPut (DirectoryTree.mem_fronts.mpr
      ⟨cons_ne_nil _ _, rest, ?_, hRest⟩)
    rintro rfl
    exact hProgram hRest.symm
  · intro other node hPrefix
    refine DirectoryTree.mem_put_of_not_front hPut ?_ ?_
    · rintro rfl
      exact hTask hPrefix
    · intro hFront
      obtain ⟨-, rest, -, hPath⟩ := DirectoryTree.mem_fronts.mp hFront
      exact hTask (hPrefix.trans ⟨rest, hPath⟩)

theorem copyEntry_copied (h : copyEntry sha256 limits name source before entry = .ok after) :
    Copied sha256 name source [entry] before after := by
  rw [copyEntry, check_eq_ok_iff, check_eq_ok_iff] at h
  obtain ⟨hPlain, hUp, h⟩ := h
  rw [not_not] at hPlain
  split at h
  · rename_i hManaged
    cases h
    exact Copied.managed ⟨hPlain, hUp⟩ hManaged before
  · rename_i hManaged
    split at h
    · rename_i content hContent
      rw [check_eq_ok_iff, check_eq_ok_iff] at h
      obtain ⟨-, -, h⟩ := h
      split at h
      · rename_i hPut
        cases h
        exact Copied.put ⟨hPlain, hUp⟩ (Bool.not_eq_true _ ▸ hManaged) hContent hPut
      · cases h
    · cases h

theorem foldlM_copied
    (h : entries.foldlM (copyEntry sha256 limits name source) before = .ok after) :
    Copied sha256 name source entries before after := by
  induction entries generalizing before with
  | nil =>
    rw [foldlM_nil, pure_eq_ok_iff] at h
    obtain rfl := h
    exact Copied.nil after
  | cons entry entries ih =>
    rw [foldlM_cons, bind_eq_ok_iff] at h
    obtain ⟨middle, hStep, hRest⟩ := h
    exact (copyEntry_copied hStep).append (ih hRest)

end Copied

end Copies

section Agreement

variable {H D : Type} [DecidableEq H] [DecidableEq D] {commits : String → Files}
  {sha256 : Content → H}
  {manifestSha256 : Manifest H → D} {run run' : RunFiles H} {checkpointDigest : D}
  {manifest : Manifest H} {name : String} {root root' : Worktree} {path : Path}

theorem exists_of_hasDigest {node : Option Node} {digest : H} (h : hasDigest sha256 node digest) :
    ∃ content, node = some (.file content) ∧ sha256 content = digest := by
  cases node with
  | none => cases h
  | some node =>
    cases node with
    | file content => exact ⟨content, rfl, of_decide_eq_true h⟩
    | link target => cases h
    | directory => cases h

omit [DecidableEq H] in
theorem mem_deltas : (name, path) ∈ delta commits "beaker" run.beaker ++
      delta commits "honeydew" run.honeydew ↔
    isManaged path = false ∧ ∃ root, run.worktree name = some root ∧
      ∃ code, (code, path) ∈ status (commits root.head) root.files := by
  rw [mem_append, mem_delta, mem_delta, RunFiles.worktree]
  constructor
  · rintro (⟨rfl, hManaged, hCode⟩ | ⟨rfl, hManaged, hCode⟩)
    · exact ⟨hManaged, run.beaker, rfl, hCode⟩
    · exact ⟨hManaged, run.honeydew, rfl, hCode⟩
  · rintro ⟨hManaged, root, hRoot, hCode⟩
    split at hRoot
    · rename_i hName
      cases hRoot
      exact .inl ⟨hName, hManaged, hCode⟩
    · split at hRoot
      · rename_i hName
        cases hRoot
        exact .inr ⟨hName, hManaged, hCode⟩
      · cases hRoot

omit [DecidableEq D] in
theorem Verified.head_eq (h : Verified commits sha256 manifestSha256 run checkpointDigest manifest)
    (hRoot : run.worktree name = some root) : root.head = manifest.baseCommit := by
  rw [RunFiles.worktree] at hRoot
  split at hRoot
  · cases hRoot
    exact h.base
  · split at hRoot
    · cases hRoot
      exact h.shared.symm.trans h.base
    · cases hRoot

omit [DecidableEq D] in
theorem Verified.leaf_eq_base
    (h : Verified commits sha256 manifestSha256 run checkpointDigest manifest)
    (hRoot : run.worktree name = some root) (hManaged : isManaged path = false)
    (hNot : (name, path) ∉ manifest.files.map fun item => (item.workspace, item.path)) :
    root.files.leaf path = (commits manifest.baseCommit).leaf path := by
  rw [← h.head_eq hRoot]
  refine not_mem_status.mp fun code hMem => hNot (h.listed _ ?_)
  exact mem_deltas.mpr ⟨hManaged, root, hRoot, code, hMem⟩

omit [DecidableEq D] in
/-- Outside the managed files, runs that are verified against one manifest have the same files. -/
theorem Verified.leaf_eq (hSha : sha256.Injective)
    (h : Verified commits sha256 manifestSha256 run checkpointDigest manifest)
    (h' : Verified commits sha256 manifestSha256 run' checkpointDigest manifest)
    (hRoot : run.worktree name = some root) (hRoot' : run'.worktree name = some root')
    (hManaged : isManaged path = false) : root.files.leaf path = root'.files.leaf path := by
  by_cases hListed : (name, path) ∈ manifest.files.map fun item => (item.workspace, item.path)
  · obtain ⟨item, hItem, hEq⟩ := mem_map.mp hListed
    cases hEq
    obtain ⟨found, hFound, -, hDigest⟩ := h.files item hItem
    obtain ⟨found', hFound', -, hDigest'⟩ := h'.files item hItem
    obtain rfl := Option.some.inj (hRoot.symm.trans hFound)
    obtain rfl := Option.some.inj (hRoot'.symm.trans hFound')
    obtain ⟨content, hNode, hContent⟩ := exists_of_hasDigest hDigest
    obtain ⟨content', hNode', hContent'⟩ := exists_of_hasDigest hDigest'
    obtain rfl := hSha (hContent.trans hContent'.symm)
    rw [DirectoryTree.leaf, DirectoryTree.leaf, hNode, hNode']
  · rw [h.leaf_eq_base hRoot hManaged hListed, h'.leaf_eq_base hRoot' hManaged hListed]

end Agreement

/-! ## Managed files -/

section Managed

variable {H : Type} [DecidableEq H] {sha256 : Content → H} {host : String → Option Content}
  {files files' : Files} {path : Path}

/-- The inputs of the task, as they have to stand in a worktree: nothing without a task, and with
one just its two files. -/
def TaskInputs (host : String → Option Content) (files : Files) : Option TaskBinding → Prop
  | none => isLink (files.lookup ["benchmark-task"]) = false ∧
      ∀ entry ∈ files.entries, ["benchmark-task"] <+: entry.1 → entry.1 = ["benchmark-task"]
  | some binding => isDirectory (files.lookup ["benchmark-task"]) ∧
      (∀ path ∈ leavesBelow files ["benchmark-task"], path ∈ taskFilePaths.map fun name => [name]) ∧
      files.lookup ["benchmark-task", "problem.md"] = (host binding.problemPath).map .file ∧
      files.lookup ["benchmark-task", "eval_agent_prompt.md"] =
        (host binding.evaluatorPromptPath).map .file

theorem mem_leavesBelow {directory : Path} :
    path ∈ leavesBelow files directory ↔ path ≠ [] ∧ (files.leaf (directory ++ path)).isSome := by
  rw [leavesBelow, mem_filterMap]
  constructor
  · rintro ⟨other, hOther, hPath⟩
    rw [mem_leafPaths] at hOther
    split at hPath
    · cases hPath
    · rename_i hNe
      have hEq := List.isPrefixOf?_eq_some_iff_append_eq.mp hPath
      refine ⟨?_, hEq ▸ hOther⟩
      rintro rfl
      exact hNe hPath
  · rintro ⟨hNe, hLeaf⟩
    have hPrefix : directory.isPrefixOf? (directory ++ path) = some path :=
      List.isPrefixOf?_eq_some_iff_append_eq.mpr rfl
    refine ⟨directory ++ path, mem_leafPaths.mpr hLeaf, ?_⟩
    rw [hPrefix]
    cases path with
    | nil => exact absurd rfl hNe
    | cons name path => rfl

variable {binding : Option TaskBinding}

theorem taskInputs_congr
    (h : ∀ path node, ["benchmark-task"] <+: path →
      ((path, node) ∈ files.entries ↔ (path, node) ∈ files'.entries)) :
    TaskInputs host files binding ↔ TaskInputs host files' binding := by
  have hLookup (rest : Path) :
      files.lookup ("benchmark-task" :: rest) = files'.lookup ("benchmark-task" :: rest) := by
    refine Option.ext fun node => ?_
    rw [DirectoryTree.lookup_eq_some_iff, DirectoryTree.lookup_eq_some_iff]
    exact h _ node ⟨rest, rfl⟩
  have hLeaves (path : Path) : path ∈ leavesBelow files ["benchmark-task"] ↔
      path ∈ leavesBelow files' ["benchmark-task"] := by
    rw [mem_leavesBelow, mem_leavesBelow, singleton_append, DirectoryTree.leaf,
      DirectoryTree.leaf, hLookup]
  cases binding with
  | none =>
    simp only [TaskInputs, hLookup]
    refine and_congr_right fun _ => ?_
    constructor
    · intro hAll entry hEntry hPrefix
      exact hAll entry ((h entry.1 entry.2 hPrefix).mpr hEntry) hPrefix
    · intro hAll entry hEntry hPrefix
      exact hAll entry ((h entry.1 entry.2 hPrefix).mp hEntry) hPrefix
  | some binding => simp only [TaskInputs, hLookup, hLeaves]

omit [DecidableEq H] in
theorem managedTaskFiles_eq_ok {binding : TaskBinding} {taskFiles : List (TaskFile H)}
    (h : managedTaskFiles sha256 host (some binding) = .ok taskFiles) :
    ∃ problem prompt, host binding.problemPath = some problem ∧
      host binding.evaluatorPromptPath = some prompt ∧
        taskFiles = [⟨"problem.md", sha256 problem⟩, ⟨"eval_agent_prompt.md", sha256 prompt⟩] := by
  simp only [managedTaskFiles, mapM_cons, mapM_nil] at h
  cases hProblem : host binding.problemPath with
  | none =>
    rw [hProblem] at h
    cases h
  | some problem =>
    cases hPrompt : host binding.evaluatorPromptPath with
    | none =>
      rw [hProblem, hPrompt] at h
      cases h
    | some prompt =>
      rw [hProblem, hPrompt] at h
      cases h
      exact ⟨problem, prompt, rfl, rfl, rfl⟩

theorem program_iff (hSha : sha256.Injective) {program : Option Node} {protocol : Content} :
    isLink program = false ∧ (program.isNone ∨ hasDigest sha256 program (sha256 protocol)) ↔
      ∀ node, program = some node → node = .file protocol := by
  rw [hasDigest_iff hSha]
  cases program with
  | none => simp [isLink]
  | some node =>
    simp only [Option.isNone_some, Bool.false_eq_true, false_or, Option.some.injEq, forall_eq']
    constructor
    · exact And.right
    · rintro rfl
      exact ⟨rfl, rfl⟩

/-- With both files in place, only what else is there is left to check. -/
theorem mem_leavesBelow_of_lookup {name : String} {content : Content}
    (h : files.lookup ["benchmark-task", name] = some (.file content)) :
    [name] ∈ leavesBelow files ["benchmark-task"] := by
  refine mem_leavesBelow.mpr ⟨cons_ne_nil _ _, ?_⟩
  rw [singleton_append, DirectoryTree.leaf, h]
  rfl

theorem verifyManaged_eq_ok_iff (hSha : sha256.Injective) {manifest : Manifest H}
    {protocol : Content}
    (hProtocol : manifest.protocolSha256 = sha256 protocol)
    (hTask : managedTaskFiles sha256 host binding = .ok manifest.managedTaskFiles) :
    verifyManaged sha256 manifest files = .ok () ↔
      (∀ node, files.lookup ["program.md"] = some node → node = .file protocol) ∧
        TaskInputs host files binding := by
  simp only [verifyManaged, hProtocol, unit_bind_eq_ok_iff, require_eq_ok_iff]
  rw [← program_iff hSha, and_assoc]
  refine and_congr_right fun _ => and_congr_right fun _ => ?_
  cases binding with
  | none =>
    have hEmpty : manifest.managedTaskFiles = [] := (Except.ok.inj hTask).symm
    simp only [hEmpty, isEmpty_nil, if_true, require_eq_ok_iff, TaskInputs]
  | some binding =>
    obtain ⟨problem, prompt, hProblem, hPrompt, hFiles⟩ := managedTaskFiles_eq_ok hTask
    simp only [hFiles, isEmpty_cons, Bool.false_eq_true, if_false, unit_bind_eq_ok_iff,
      require_eq_ok_iff, forM_eq_ok_iff, TaskInputs, hProblem, hPrompt, Option.map_some]
    have hProblemDigest : taskDigest
        [⟨"problem.md", sha256 problem⟩, ⟨"eval_agent_prompt.md", sha256 prompt⟩] "problem.md" =
          some (sha256 problem) := rfl
    have hPromptDigest : taskDigest
        [⟨"problem.md", sha256 problem⟩, ⟨"eval_agent_prompt.md", sha256 prompt⟩]
          "eval_agent_prompt.md" = some (sha256 prompt) := rfl
    have hNames (P : String → Prop) : (∀ name ∈ taskFilePaths, P name) ↔
        P "problem.md" ∧ P "eval_agent_prompt.md" := by
      rw [taskFilePaths, forall_mem_cons, forall_mem_singleton]
    simp only [hNames, hProblemDigest, hPromptDigest, Option.any_some, hasDigest_iff hSha]
    constructor
    · rintro ⟨-, hDirectory, -, ⟨hOnly, -⟩, hProblemFile, hPromptFile⟩
      exact ⟨hDirectory, hOnly, hProblemFile, hPromptFile⟩
    · rintro ⟨hDirectory, hOnly, hProblemFile, hPromptFile⟩
      refine ⟨?_, hDirectory, ⟨?_, rfl, rfl⟩, ⟨hOnly, mem_leavesBelow_of_lookup hProblemFile,
        mem_leavesBelow_of_lookup hPromptFile⟩, hProblemFile, hPromptFile⟩
      · cases hLookup : files.lookup ["benchmark-task"] with
        | none => rfl
        | some node =>
          rw [hLookup] at hDirectory
          cases node with
          | file content => rfl
          | link target => cases hDirectory
          | directory => rfl
      · simp [taskFilePaths]

end Managed

/-! ## Exact checkpoints -/

section Exact

variable {H D : Type} [DecidableEq H] [DecidableEq D] {commits : String → Files}
  {sha256 : Content → H}
  {manifestSha256 : Manifest H → D} {host : String → Option Content}

def ChangedOutside (before after : RunFiles H) : Prop :=
  (∃ path, isManaged path = false ∧ before.beaker.files.leaf path ≠ after.beaker.files.leaf path) ∨
    (∃ path, isManaged path = false ∧
      before.honeydew.files.leaf path ≠ after.honeydew.files.leaf path) ∨
    before.protocol ≠ after.protocol ∨ before.manifest ≠ after.manifest

/-- The run is verified, and is not verified any more after a change outside the managed paths. -/
def ExactCheckpoint (commits : String → Files) (sha256 : Content → H)
    (manifestSha256 : Manifest H → D)
    (run : RunFiles H) (checkpointDigest : D) : Prop :=
  (∃ manifest, verifyTerminalRetryCheckpoint commits sha256 manifestSha256 run checkpointDigest =
    .ok manifest) ∧
  ∀ after, ChangedOutside run after → ∀ manifest,
    verifyTerminalRetryCheckpoint commits sha256 manifestSha256 after checkpointDigest ≠ .ok
      manifest

/-- The worktrees that a checkpoint can be made from, and made in, so that it is exact: the protocol
of the child, if there is one, is the authoritative one, the source has changed nothing below a
directory of that name, the child has just the inputs of its task, and its delta is covered by that
of the source or managed. -/
structure Retryable (host : String → Option Content) (binding : Option TaskBinding)
    (protocol : Content)
    (base source target : Files) : Prop where
  program : ∀ node, target.lookup ["program.md"] = some node → node = .file protocol
  programDirectory : ∀ path, IsCopied (status base source) path → ¬ ["program.md"] <+: path
  task : TaskInputs host target binding
  covered : ∀ code path, (code, path) ∈ status base target → ¬ IsCopied (status base source) path →
    code ∈ plainCodes ∧ ".." ∉ path ∧ isManaged path = true

section Copied

variable {name : String} {base source : Files} {before after : Copying H}
  {binding : Option TaskBinding}
  {protocol : Content}

omit [DecidableEq H] in
theorem Copied.mem_status_iff (h : Copied sha256 name source (status base source) before after)
    {code : StatusCode} {path : Path} : (code, path) ∈ status base after.target ↔
      IsCopied (status base source) path ∧ (code, path) ∈ status base source ∨
        ¬ IsCopied (status base source) path ∧ (code, path) ∈ status base before.target := by
  by_cases hCopied : IsCopied (status base source) path
  · rw [mem_status, h.leaf path hCopied, ← mem_status]
    simp [hCopied]
  · rw [mem_status, h.kept path hCopied, ← mem_status]
    simp [hCopied]

omit [DecidableEq H] in
theorem Copied.managed_iff (h : Copied sha256 name source (status base source) before after) :
    ((∀ node, after.target.lookup ["program.md"] = some node → node = .file protocol) ∧
        TaskInputs host after.target binding) ↔
      (∀ node, before.target.lookup ["program.md"] = some node → node = .file protocol) ∧
        (∀ path, IsCopied (status base source) path → ¬ ["program.md"] <+: path) ∧
          TaskInputs host before.target binding := by
  rw [taskInputs_congr h.task, ← and_assoc]
  refine and_congr_left fun _ => ?_
  simp only [DirectoryTree.lookup_eq_some_iff]
  constructor
  · intro hProgram
    have hNone : ∀ path, IsCopied (status base source) path → ¬ ["program.md"] <+: path := by
      intro path hCopied hPrefix
      cases hProgram _ (h.programDirectory path hCopied hPrefix)
    exact ⟨fun node hNode => hProgram node ((h.program hNone node).mpr hNode), hNone⟩
  · rintro ⟨hProgram, hNone⟩ node hNode
    exact hProgram node ((h.program hNone node).mp hNode)

omit [DecidableEq H] in
theorem Copied.lookup_eq (h : Copied sha256 name source (status base source) before after)
    {path : Path} {content : Content} (hCopied : IsCopied (status base source) path)
    (hContent : source.lookup path = some (.file content)) :
    after.target.lookup path = some (.file content) := by
  have hLeaf : source.leaf path = some (.file content) :=
    DirectoryTree.leaf_eq_some_iff.mpr ⟨DirectoryTree.mem_of_lookup hContent, nofun⟩
  rw [← h.leaf path hCopied] at hLeaf
  exact DirectoryTree.lookup_eq_some_iff.mpr (DirectoryTree.leaf_eq_some_iff.mp hLeaf).1

omit [DecidableEq H] in
/-- When a worktree that copies were made in has a plain delta, and just the listed one. -/
theorem Copied.covered_iff
    (h : Copied sha256 name source (status base source) before after) :
    ((∀ code path, (code, path) ∈ status base after.target → code ∈ plainCodes ∧ ".." ∉ path) ∧
        ∀ code path, (code, path) ∈ status base after.target → isManaged path = false →
          IsCopied (status base source) path) ↔
      ∀ code path, (code, path) ∈ status base before.target → ¬ IsCopied (status base source) path →
        code ∈ plainCodes ∧ ".." ∉ path ∧ isManaged path = true := by
  constructor
  · rintro ⟨hPlain, hListed⟩ code path hMem hNot
    have hAfter := h.mem_status_iff.mpr (.inr ⟨hNot, hMem⟩)
    obtain ⟨hCode, hUp⟩ := hPlain code path hAfter
    refine ⟨hCode, hUp, ?_⟩
    by_contra hManaged
    exact hNot (hListed code path hAfter (Bool.not_eq_true _ ▸ hManaged))
  · intro hCovered
    refine ⟨fun code path hMem => ?_, fun code path hMem hManaged => ?_⟩
    · rcases h.mem_status_iff.mp hMem with ⟨-, hSource⟩ | ⟨hNot, hBefore⟩
      · exact h.plain code path hSource
      · obtain ⟨hCode, hUp, -⟩ := hCovered code path hBefore hNot
        exact ⟨hCode, hUp⟩
    · rcases h.mem_status_iff.mp hMem with ⟨hCopied, -⟩ | ⟨hNot, hBefore⟩
      · exact hCopied
      · obtain ⟨-, -, hOther⟩ := hCovered code path hBefore hNot
        rw [hManaged] at hOther
        cases hOther

omit [DecidableEq H] in
/-- What the verification of the copies asks of the worktrees they were made from and in. -/
theorem Copied.retryable_iff (h : Copied sha256 name source (status base source) before after) :
    ((∀ node, after.target.lookup ["program.md"] = some node → node = .file protocol) ∧
        TaskInputs host after.target binding) ∧
      (∀ code path, (code, path) ∈ status base after.target → code ∈ plainCodes ∧ ".." ∉ path) ∧
      (∀ code path, (code, path) ∈ status base after.target → isManaged path = false →
        IsCopied (status base source) path) ↔
      Retryable host binding protocol base source before.target := by
  rw [h.managed_iff, h.covered_iff]
  constructor
  · rintro ⟨⟨hProgram, hDirectory, hTask⟩, hCovered⟩
    exact ⟨hProgram, hDirectory, hTask, hCovered⟩
  · rintro ⟨hProgram, hDirectory, hTask, hCovered⟩
    exact ⟨⟨hProgram, hDirectory, hTask⟩, hCovered⟩

end Copied

/-- What the creation of a checkpoint has read and written. -/
structure Created (commits : String → Files) (sha256 : Content → H)
    (manifestSha256 : Manifest H → D)
    (host : String → Option Content) (parent child : RunFiles H) (binding : Option TaskBinding)
    (baseCommit : String) (checkpointed : RunFiles H) (checkpointDigest : D) (protocol : Content)
    (manifest : Manifest H) (beaker honeydew : Copying H) : Prop where
  protocol_eq : checkpointed.protocol = some (.file protocol)
  protocolSha256 : manifest.protocolSha256 = sha256 protocol
  protocolPath : manifest.protocolPath = protocolPath
  parentProtocol : parent.protocol = some (.file protocol)
  taskFiles : managedTaskFiles sha256 host binding = .ok manifest.managedTaskFiles
  schema : manifest.schemaVersion = schemaVersion
  base : manifest.baseCommit = baseCommit
  beakerCopied : Copied sha256 "beaker" parent.beaker.files
    (status (commits baseCommit) parent.beaker.files) ⟨child.beaker.files, [], 0⟩ beaker
  honeydewCopied : Copied sha256 "honeydew" parent.honeydew.files
    (status (commits baseCommit) parent.honeydew.files)
    ⟨child.honeydew.files, beaker.files, beaker.total⟩ honeydew
  beaker_eq : checkpointed.beaker = ⟨baseCommit, beaker.target⟩
  honeydew_eq : checkpointed.honeydew = ⟨baseCommit, honeydew.target⟩
  manifest_eq : checkpointed.manifest = some manifest
  files : manifest.files = honeydew.files
  digest : checkpointDigest = manifestSha256 manifest

variable {baseCommit parentRunId : String} {limits : Limits}

omit [DecidableEq H] in
theorem copyWorktree_eq_ok {name : String} {source target : Worktree}
    {files : List (FileEntry H)} {total : Nat} {copying : Copying H}
    (h : copyWorktree commits sha256 limits baseCommit name source target files total =
    .ok copying) :
    target.head = baseCommit ∧ Copied sha256 name source.files
      (status (commits baseCommit) source.files) ⟨target.files, files, total⟩ copying := by
  simp only [copyWorktree] at h
  obtain ⟨rfl, h⟩ := require_bind_eq_ok_iff.mp h
  obtain ⟨hTarget, h⟩ := require_bind_eq_ok_iff.mp h
  exact ⟨hTarget, foldlM_copied h⟩

variable {parent child checkpointed : RunFiles H} {contract : List (String × String)}
  {binding : Option TaskBinding} {protocolDigest : H} {checkpointDigest : D}

omit [DecidableEq D] in
theorem create_eq_ok
    (h : createTerminalRetryCheckpoint commits sha256 manifestSha256 host limits parent child
      parentRunId protocolDigest contract binding baseCommit =
    .ok (checkpointed, checkpointDigest)) :
    ∃ protocol manifest beaker honeydew,
    Created commits sha256 manifestSha256 host parent child binding
      baseCommit checkpointed checkpointDigest protocol manifest beaker honeydew := by
  rw [createTerminalRetryCheckpoint] at h
  split at h
  · rename_i protocol hProtocol
    obtain ⟨rfl, h⟩ := require_bind_eq_ok_iff.mp h
    obtain ⟨taskFiles, hTaskFiles, h⟩ := of_bind h
    obtain ⟨beaker, hBeaker, h⟩ := of_bind h
    obtain ⟨honeydew, hHoneydew, h⟩ := of_bind h
    obtain ⟨hBeakerHead, hBeakerCopied⟩ := copyWorktree_eq_ok hBeaker
    obtain ⟨hHoneydewHead, hHoneydewCopied⟩ := copyWorktree_eq_ok hHoneydew
    cases pure_eq_ok_iff.mp h
    refine ⟨protocol, _, beaker, honeydew, rfl, rfl, rfl, hProtocol, hTaskFiles, rfl, rfl,
      hBeakerCopied, hHoneydewCopied, ?_, ?_, rfl, rfl, rfl⟩
    · exact congrArg (fun head => (⟨head, beaker.target⟩ : Worktree)) hBeakerHead
    · exact congrArg (fun head => (⟨head, honeydew.target⟩ : Worktree)) hHoneydewHead
  · cases h

section Creation

variable {parent child checkpointed : RunFiles H} {binding : Option TaskBinding}
  {baseCommit : String}
  {checkpointDigest : D} {protocol : Content} {manifest : Manifest H} {beaker honeydew : Copying H}

omit [DecidableEq H] [DecidableEq D] in
theorem Created.mem_files (h : Created commits sha256 manifestSha256 host parent child binding
    baseCommit checkpointed checkpointDigest protocol manifest beaker honeydew) {item :
    FileEntry H} :
    item ∈ manifest.files ↔
      (∃ path content, IsCopied (status (commits baseCommit) parent.beaker.files) path ∧
        parent.beaker.files.lookup path = some (.file content) ∧
          item = ⟨"beaker", path, content.length, sha256 content⟩) ∨
      ∃ path content, IsCopied (status (commits baseCommit) parent.honeydew.files) path ∧
        parent.honeydew.files.lookup path = some (.file content) ∧
          item = ⟨"honeydew", path, content.length, sha256 content⟩ := by
  rw [h.files, h.honeydewCopied.files, h.beakerCopied.files]
  simp

omit [DecidableEq H] [DecidableEq D] in
theorem Created.mem_listed (h : Created commits sha256 manifestSha256 host parent child binding
    baseCommit checkpointed checkpointDigest protocol manifest beaker honeydew) {name : String}
    {path : Path} : (name, path) ∈ manifest.files.map (fun item => (item.workspace, item.path)) ↔
      name = "beaker" ∧ IsCopied (status (commits baseCommit) parent.beaker.files) path ∨
        name = "honeydew" ∧ IsCopied (status (commits baseCommit) parent.honeydew.files) path := by
  rw [mem_map]
  constructor
  · rintro ⟨item, hItem, hEq⟩
    cases hEq
    rcases h.mem_files.mp hItem with ⟨path, content, hCopied, -, rfl⟩ |
      ⟨path, content, hCopied, -, rfl⟩
    · exact .inl ⟨rfl, hCopied⟩
    · exact .inr ⟨rfl, hCopied⟩
  · rintro (⟨rfl, hCopied⟩ | ⟨rfl, hCopied⟩)
    · obtain ⟨content, hContent⟩ := h.beakerCopied.regular path hCopied
      exact ⟨_, h.mem_files.mpr (.inl ⟨path, content, hCopied, hContent, rfl⟩), rfl⟩
    · obtain ⟨content, hContent⟩ := h.honeydewCopied.regular path hCopied
      exact ⟨_, h.mem_files.mpr (.inr ⟨path, content, hCopied, hContent, rfl⟩), rfl⟩

omit [DecidableEq H] [DecidableEq D] in
theorem Created.mem_deltas_iff (h : Created commits sha256 manifestSha256 host parent child binding
    baseCommit checkpointed checkpointDigest protocol manifest beaker honeydew) {name : String}
    {path : Path} : (name, path) ∈ delta commits "beaker" checkpointed.beaker ++
        delta commits "honeydew" checkpointed.honeydew ↔ isManaged path = false ∧
      (name = "beaker" ∧ (∃ code, (code, path) ∈ status (commits baseCommit) beaker.target) ∨
        name = "honeydew" ∧ ∃ code,
    (code, path) ∈ status (commits baseCommit) honeydew.target) := by
  rw [mem_append, mem_delta, mem_delta, h.beaker_eq, h.honeydew_eq]
  constructor
  · rintro (⟨hName, hManaged, hCode⟩ | ⟨hName, hManaged, hCode⟩)
    · exact ⟨hManaged, .inl ⟨hName, hCode⟩⟩
    · exact ⟨hManaged, .inr ⟨hName, hCode⟩⟩
  · rintro ⟨hManaged, ⟨hName, hCode⟩ | ⟨hName, hCode⟩⟩
    · exact .inl ⟨hName, hManaged, hCode⟩
    · exact .inr ⟨hName, hManaged, hCode⟩

omit [DecidableEq D] in
theorem Created.verified_iff (hSha : sha256.Injective)
    (h : Created commits sha256 manifestSha256 host
    parent child binding baseCommit checkpointed checkpointDigest protocol manifest beaker
    honeydew) :
    Verified commits sha256 manifestSha256 checkpointed checkpointDigest manifest ↔
      Retryable host binding protocol (commits baseCommit) parent.beaker.files child.beaker.files ∧
        Retryable host binding protocol (commits baseCommit) parent.honeydew.files
          child.honeydew.files := by
  have hManaged (files : Files) :
      verifyManaged sha256 manifest files = .ok () ↔
        (∀ node, files.lookup ["program.md"] = some node → node = .file protocol) ∧
          TaskInputs host files binding :=
    verifyManaged_eq_ok_iff hSha h.protocolSha256 h.taskFiles
  constructor
  · intro hVerified
    have hBeakerManaged := (hManaged _).mp hVerified.beakerManaged
    have hHoneydewManaged := (hManaged _).mp hVerified.honeydewManaged
    have hBeakerPlain := hVerified.beakerPlain
    have hHoneydewPlain := hVerified.honeydewPlain
    rw [PlainDelta, h.beaker_eq] at hBeakerPlain
    rw [PlainDelta, h.honeydew_eq] at hHoneydewPlain
    rw [h.beaker_eq] at hBeakerManaged
    rw [h.honeydew_eq] at hHoneydewManaged
    constructor
    · refine h.beakerCopied.retryable_iff.mp
        ⟨hBeakerManaged, hBeakerPlain, fun code path hMem hPath => ?_⟩
      have hListed := hVerified.listed ("beaker", path)
        (h.mem_deltas_iff.mpr ⟨hPath, .inl ⟨rfl, code, hMem⟩⟩)
      rcases h.mem_listed.mp hListed with ⟨-, hCopied⟩ | ⟨hName, -⟩
      · exact hCopied
      · exact absurd hName (by decide)
    · refine h.honeydewCopied.retryable_iff.mp
        ⟨hHoneydewManaged, hHoneydewPlain, fun code path hMem hPath => ?_⟩
      have hListed := hVerified.listed ("honeydew", path)
        (h.mem_deltas_iff.mpr ⟨hPath, .inr ⟨rfl, code, hMem⟩⟩)
      rcases h.mem_listed.mp hListed with ⟨hName, -⟩ | ⟨-, hCopied⟩
      · exact absurd hName (by decide)
      · exact hCopied
  · rintro ⟨hBeaker, hHoneydew⟩
    obtain ⟨hBeakerManaged, hBeakerPlain, hBeakerListed⟩ := h.beakerCopied.retryable_iff.mpr hBeaker
    obtain ⟨hHoneydewManaged, hHoneydewPlain, hHoneydewListed⟩ :=
      h.honeydewCopied.retryable_iff.mpr hHoneydew
    refine
      { found := h.manifest_eq
        digest := h.digest.symm
        schema := h.schema
        shared := by rw [h.beaker_eq, h.honeydew_eq]
        base := by rw [h.beaker_eq, h.base]
        protocol := ?_
        beakerManaged := (hManaged _).mpr (by rw [h.beaker_eq]; exact hBeakerManaged)
        honeydewManaged := (hManaged _).mpr (by rw [h.honeydew_eq]; exact hHoneydewManaged)
        files := ?_
        beakerPlain := by rw [PlainDelta, h.beaker_eq]; exact hBeakerPlain
        honeydewPlain := by rw [PlainDelta, h.honeydew_eq]; exact hHoneydewPlain
        listed := ?_
        observed := ?_ }
    · rw [h.protocolPath, h.protocolSha256, hasDigest_iff hSha]
      exact h.protocol_eq
    · intro item hItem
      rcases h.mem_files.mp hItem with
        ⟨path, content, hCopied, hContent, rfl⟩ | ⟨path, content, hCopied, hContent, rfl⟩
      · obtain ⟨-, code, hMem⟩ := id hCopied
        refine ⟨⟨baseCommit, beaker.target⟩, ?_, (h.beakerCopied.plain code path hMem).2, ?_⟩
        · rw [← h.beaker_eq]
          rfl
        · exact (hasDigest_iff hSha).mpr (h.beakerCopied.lookup_eq hCopied hContent)
      · obtain ⟨-, code, hMem⟩ := id hCopied
        refine ⟨⟨baseCommit, honeydew.target⟩, ?_, (h.honeydewCopied.plain code path hMem).2, ?_⟩
        · rw [← h.honeydew_eq]
          rfl
        · exact (hasDigest_iff hSha).mpr (h.honeydewCopied.lookup_eq hCopied hContent)
    · rintro ⟨name, path⟩ hFile
      obtain ⟨hPath, ⟨hName, code, hMem⟩ | ⟨hName, code, hMem⟩⟩ := h.mem_deltas_iff.mp hFile
      · exact h.mem_listed.mpr (.inl ⟨hName, hBeakerListed code path hMem hPath⟩)
      · exact h.mem_listed.mpr (.inr ⟨hName, hHoneydewListed code path hMem hPath⟩)
    · rintro ⟨name, path⟩ hFile
      rcases h.mem_listed.mp hFile with ⟨hName, hCopied⟩ | ⟨hName, hCopied⟩
      · obtain ⟨hPath, code, hMem⟩ := id hCopied
        exact h.mem_deltas_iff.mpr
          ⟨hPath, .inl ⟨hName, code, h.beakerCopied.mem_status_iff.mpr (.inl ⟨hCopied, hMem⟩)⟩⟩
      · obtain ⟨hPath, code, hMem⟩ := id hCopied
        exact h.mem_deltas_iff.mpr
          ⟨hPath, .inr ⟨hName, code, h.honeydewCopied.mem_status_iff.mpr (.inl ⟨hCopied, hMem⟩)⟩⟩

omit [DecidableEq D] in
theorem Created.not_changedOutside (hSha : sha256.Injective) (hManifest : manifestSha256.Injective)
    (h : Created commits sha256 manifestSha256 host parent child binding baseCommit checkpointed
      checkpointDigest protocol manifest beaker honeydew)
    (hVerified : Verified commits sha256 manifestSha256 checkpointed checkpointDigest manifest)
    {after : RunFiles H} {manifest' : Manifest H}
    (hAfter : Verified commits sha256 manifestSha256 after checkpointDigest manifest') :
    ¬ ChangedOutside checkpointed after := by
  obtain rfl : manifest' = manifest := hManifest (hAfter.digest.trans h.digest)
  rintro (⟨path, hPath, hNe⟩ | ⟨path, hPath, hNe⟩ | hNe | hNe)
  · have hBeaker (run : RunFiles H) : run.worktree "beaker" = some run.beaker := rfl
    exact hNe (hVerified.leaf_eq hSha hAfter (hBeaker _) (hBeaker _) hPath)
  · have hHoneydew (run : RunFiles H) : run.worktree "honeydew" = some run.honeydew := rfl
    exact hNe (hVerified.leaf_eq hSha hAfter (hHoneydew _) (hHoneydew _) hPath)
  · have hProtocol := hAfter.protocol
    rw [h.protocolPath, h.protocolSha256, hasDigest_iff hSha] at hProtocol
    exact hNe (h.protocol_eq.trans hProtocol.symm)
  · exact hNe (h.manifest_eq.trans hAfter.found.symm)

end Creation

/-- When a checkpoint that was created is exact. -/
theorem exact_checkpoint_iff (hSha : sha256.Injective) (hManifest : manifestSha256.Injective)
    {protocol : Content}
    (hProtocol : parent.protocol = some (.file protocol))
    (h : createTerminalRetryCheckpoint commits sha256 manifestSha256 host limits parent child
      parentRunId protocolDigest contract binding baseCommit =
    .ok (checkpointed, checkpointDigest)) :
    ExactCheckpoint commits sha256 manifestSha256 checkpointed checkpointDigest ↔
      Retryable host binding protocol (commits baseCommit) parent.beaker.files child.beaker.files ∧
        Retryable host binding protocol (commits baseCommit) parent.honeydew.files
          child.honeydew.files := by
  obtain ⟨protocol', manifest, beaker, honeydew, hCreated⟩ := create_eq_ok h
  obtain rfl : protocol' = protocol := by
    have hSame := hCreated.parentProtocol.symm.trans hProtocol
    cases hSame
    rfl
  rw [← hCreated.verified_iff hSha]
  constructor
  · rintro ⟨⟨manifest', hVerify⟩, -⟩
    have hVerified := verify_eq_ok_iff.mp hVerify
    obtain rfl : manifest = manifest' :=
      Option.some.inj (hCreated.manifest_eq.symm.trans hVerified.found)
    exact hVerified
  · intro hVerified
    refine ⟨⟨manifest, verify_eq_ok_iff.mpr hVerified⟩, fun after hChanged manifest' hVerify => ?_⟩
    exact hCreated.not_changedOutside hSha hManifest hVerified (verify_eq_ok_iff.mp hVerify)
      hChanged

end Exact

section Examples

def readmeCommit : Files :=
  .ofEntries [(["README.md"], .file [1])] (by decide) (by decide)

def freshChild : RunFiles Content where
  protocol := none
  beaker :=
    ⟨"base", .ofEntries [(["README.md"], .file [1]), (["AGENTS.md"], .file [2])] (by decide)
      (by decide)⟩
  honeydew :=
    ⟨"base", .ofEntries [(["README.md"], .file [1]), (["AGENTS.md"], .file [2])] (by decide)
      (by decide)⟩
  manifest := none

/-- A failed run in which one agent has changed a file and added another. -/
def editedParent : RunFiles Content where
  protocol := some (.file [3])
  beaker :=
    ⟨"base",
      .ofEntries
        [(["README.md"], .file [4]), (["src"], .directory), (["src", "train.py"], .file [5])]
        (by decide) (by decide)⟩
  honeydew := ⟨"base", readmeCommit⟩
  manifest := none

/-- A failed run in which one agent has made a directory `program.md`. -/
def directoryParent : RunFiles Content where
  protocol := some (.file [3])
  beaker :=
    ⟨"base",
      .ofEntries
        [(["README.md"], .file [1]), (["program.md"], .directory),
          (["program.md", "notes.md"], .file [5])]
        (by decide) (by decide)⟩
  honeydew := ⟨"base", readmeCommit⟩
  manifest := none

/-- The checkpoint of a run, without a task, where all digests are the texts themselves. -/
def checkpointOf (parent : RunFiles Content) :
    Except WorkspaceError (RunFiles Content × Manifest Content) :=
  createTerminalRetryCheckpoint (fun _ => readmeCommit) id id (fun _ => none) {} parent freshChild
    "run-1" [3] [] none "base"

theorem exists_eq_ok {α : Type} {x : Except WorkspaceError α} (h : x.toBool) : ∃ a, x = .ok a := by
  cases x with
  | ok a => exact ⟨a, rfl⟩
  | error e => cases h

theorem retryable_freshChild {protocol : Content} {source : Files}
    (hSource : ∀ entry ∈ status readmeCommit source, ¬ ["program.md"] <+: entry.2) :
    Retryable (fun _ => none) none protocol readmeCommit source freshChild.beaker.files := by
  refine
    { program := fun node hNode => by cases hNode
      programDirectory := ?_
      task := ⟨rfl, by decide⟩
      covered := ?_ }
  · rintro path ⟨-, code, hMem⟩
    exact hSource (code, path) hMem
  · intro code path hMem _
    have hStatus : status readmeCommit freshChild.beaker.files = [(.untracked, ["AGENTS.md"])] :=
      rfl
    rw [hStatus, mem_singleton] at hMem
    cases hMem
    decide

theorem exact_checkpoint_edited : ∃ checkpointed checkpointDigest,
    checkpointOf editedParent = .ok (checkpointed, checkpointDigest) ∧
      ExactCheckpoint (fun _ => readmeCommit) id id checkpointed checkpointDigest := by
  obtain ⟨⟨checkpointed, checkpointDigest⟩, h⟩ :
    ∃ created, checkpointOf editedParent = .ok created :=
    exists_eq_ok (by decide +kernel)
  refine ⟨checkpointed, checkpointDigest, h, (exact_checkpoint_iff Function.injective_id
    Function.injective_id rfl h).mpr ⟨?_, ?_⟩⟩
  · exact retryable_freshChild (by decide)
  · exact retryable_freshChild (by decide)

/-- A directory in the place of the protocol is copied, and then not verified. -/
theorem program_directory_not_verified : ∃ checkpointed checkpointDigest,
    checkpointOf directoryParent = .ok (checkpointed, checkpointDigest) ∧
      ¬ ExactCheckpoint (fun _ => readmeCommit) id id checkpointed checkpointDigest := by
  obtain ⟨⟨checkpointed, checkpointDigest⟩, h⟩ :
    ∃ created, checkpointOf directoryParent = .ok created :=
    exists_eq_ok (by decide +kernel)
  refine ⟨checkpointed, checkpointDigest, h, ?_⟩
  rintro ⟨⟨manifest, hVerify⟩, -⟩
  have hRaises : (checkpointOf directoryParent >>= fun created =>
      verifyTerminalRetryCheckpoint (fun _ => readmeCommit) id id created.1 created.2).toBool =
        false := by
    decide +kernel
  rw [h] at hRaises
  have hFalse : (verifyTerminalRetryCheckpoint (fun _ => readmeCommit) id id checkpointed
      checkpointDigest).toBool = false := hRaises
  rw [hVerify] at hFalse
  cases hFalse

end Examples

end Glasslab.Workspaces
