import Glasslab.Foundation.DirectoryTree
import Glasslab.Foundation.Raising

/-!
# Checkpoints of terminal retries

`create_terminal_retry_checkpoint` and `verify_terminal_retry_checkpoint` of `app/workspaces.py`.
The files that the agents of a failed run have changed or added are copied into the worktrees of its
retry and listed, with their digests, in a manifest. Before the retry starts, the manifest is
compared with the worktrees. Files that the orchestrator manages are no part of the delta: the
protocol, the notes for the agents and the inputs of the task.

`git status` is the list of the paths at which a worktree has another file or link than its base
commit, nothing where the commit has one, or something where it has none. Links are compared by
their targets. A manifest is what `json.loads` reads from its file.
-/

namespace Glasslab.Workspaces

open Foundation

abbrev Path := List String

/-- The bytes of a file. -/
abbrev Content := List UInt8

abbrev Node := TreeNode String Content

abbrev Files := DirectoryTree String Content

structure WorkspaceError where
  message : String

def require (condition : Prop) [Decidable condition] (message : String) :
    Except WorkspaceError Unit :=
  if condition then .ok () else .error ⟨message⟩

def isLink : Option Node → Bool
  | some (.link _) => true
  | _ => false

def isDirectory : Option Node → Bool
  | some .directory => true
  | _ => false

inductive StatusCode where
  | modified
  | untracked
  | deleted
  | typeChanged
  deriving DecidableEq, Repr

def StatusCode.text : StatusCode → String
  | modified => " M"
  | untracked => "??"
  | deleted => " D"
  | typeChanged => " T"

def plainCodes : List StatusCode := [.modified, .untracked]

/-- What became of a file or link of the base commit. -/
def changeCode : Option Node → Option Node → Option StatusCode
  | none, none => none
  | none, some _ => some .untracked
  | some _, none => some .deleted
  | some (.file old), some (.file new) => if old = new then none else some .modified
  | some (.link old), some (.link new) => if old = new then none else some .modified
  | some _, some _ => some .typeChanged

def leafPaths (files : Files) : List Path :=
  (files.entries.filter fun entry => (files.leaf entry.1).isSome).map Prod.fst

/-- `git status --porcelain=v1 -z --untracked-files=all`: tracked paths, then the others. -/
def status (base files : Files) : List (StatusCode × Path) :=
  (leafPaths base ++ (leafPaths files).filter fun path => (base.leaf path).isNone).filterMap
    fun path => (changeCode (base.leaf path) (files.leaf path)).map fun code => (code, path)

structure Worktree where
  /-- `git rev-parse HEAD`. -/
  head : String
  files : Files

structure TaskBinding where
  problemPath : String
  evaluatorPromptPath : String
  deriving DecidableEq

/-- The type of digests is a parameter. -/
structure TaskFile (H : Type) where
  path : String
  sha256 : H
  deriving DecidableEq

structure FileEntry (H : Type) where
  workspace : String
  path : Path
  sizeBytes : Nat
  sha256 : H
  deriving DecidableEq

structure Manifest (H : Type) where
  schemaVersion : String
  parentRunId : String
  baseCommit : String
  protocolPath : Path
  protocolSha256 : H
  contract : List (String × String)
  taskBinding : Option TaskBinding
  managedTaskFiles : List (TaskFile H)
  files : List (FileEntry H)
  totalBytes : Nat
  deriving DecidableEq

/-- The files of a run: its protocol, the worktrees of its agents and its manifest, if any. -/
structure RunFiles (H : Type) where
  protocol : Option Node
  beaker : Worktree
  honeydew : Worktree
  manifest : Option (Manifest H)

def schemaVersion : String := "glasslab-terminal-retry-checkpoint-v1"

def protocolPath : Path := ["protocol", "program.md"]

/-- What stands at a path below the root of a run. -/
def RunFiles.node {H : Type} (run : RunFiles H) : Path → Option Node
  | ["protocol", "program.md"] => run.protocol
  | "beaker-worktree" :: path => run.beaker.files.lookup path
  | "honeydew-worktree" :: path => run.honeydew.files.lookup path
  | _ => none

def isManaged (path : Path) : Bool :=
  path = ["program.md"] ∨ path = ["AGENTS.md"] ∨ path.head? = some "benchmark-task"

structure Limits where
  maximumFiles : Nat := 128
  maximumBytes : Nat := 4 * 1024 * 1024

section Checkpoint

variable {H D : Type} [DecidableEq H] [DecidableEq D]
/- `git` finds the files of a commit, SHA-256 is taken of files and of the JSON text of a manifest,
and task inputs are read from the host. -/
variable (commits : String → Files) (sha256 : Content → H) (manifestSha256 : Manifest H → D)
  (host : String → Option Content)

def managedTaskFiles : Option TaskBinding → Except WorkspaceError (List (TaskFile H))
  | none => .ok []
  | some binding =>
    [("problem.md", binding.problemPath),
      ("eval_agent_prompt.md", binding.evaluatorPromptPath)].mapM
      fun (destination, source) =>
        match host source with
        | none => .error ⟨"retry task source is unavailable"⟩
        | some content => .ok ⟨destination, sha256 content⟩

/-- A worktree that files are copied into, and the list of these files. -/
structure Copying (H : Type) where
  target : Files
  files : List (FileEntry H)
  total : Nat

def copyEntry (limits : Limits) (name : String) (source : Files) (copying : Copying H)
    (entry : StatusCode × Path) : Except WorkspaceError (Copying H) :=
  if entry.1 ∉ plainCodes then
    .error ⟨"retry source has ambiguous worktree change: b'" ++ entry.1.text ++ " " ++
      "/".intercalate entry.2 ++ "'"⟩
  else if ".." ∈ entry.2 then .error ⟨"retry source path escapes worktree"⟩
  else if isManaged entry.2 then .ok copying
  else
    match source.lookup entry.2 with
    | some (.file content) =>
      if limits.maximumFiles ≤ copying.files.length then .error
        ⟨"retry checkpoint exceeds file limit"⟩
      else if limits.maximumBytes < copying.total + content.length then
        .error ⟨"retry checkpoint exceeds byte limit"⟩
      else if h : copying.target.canPut entry.2 then
        .ok
          { target := copying.target.put entry.2 content h
            files := copying.files ++ [⟨name, entry.2, content.length, sha256 content⟩]
            total := copying.total + content.length }
      -- a link on the way belongs to the base commit, and the source has another change there
      else .error ⟨"File exists"⟩
    | _ => .error ⟨"retry source is not a regular file: " ++ "/".intercalate entry.2⟩

def copyWorktree (limits : Limits) (baseCommit name : String) (source target : Worktree)
    (files : List (FileEntry H)) (total : Nat) : Except WorkspaceError (Copying H) := do
  require (source.head = baseCommit) "retry source contains an unbounded committed checkpoint"
  require (target.head = baseCommit) "retry child was not created from source base commit"
  (status (commits source.head) source.files).foldlM (copyEntry sha256 limits name source.files)
    ⟨target.files, files, total⟩

/-- `create_terminal_retry_checkpoint`: the child with the copies, and its manifest's digest. -/
def createTerminalRetryCheckpoint (limits : Limits) (parent child : RunFiles H)
    (parentRunId : String)
    (protocolDigest : H) (contract : List (String × String)) (taskBinding : Option TaskBinding)
    (baseCommit : String) : Except WorkspaceError (RunFiles H × D) :=
  match parent.protocol with
  | some (.file protocol) => do
    require (sha256 protocol = protocolDigest) "retry source protocol checksum mismatch"
    let taskFiles ← managedTaskFiles sha256 host taskBinding
    let beaker ←
      copyWorktree commits sha256 limits baseCommit "beaker" parent.beaker child.beaker [] 0
    let honeydew ← copyWorktree commits sha256 limits baseCommit "honeydew" parent.honeydew
      child.honeydew beaker.files beaker.total
    let manifest : Manifest H :=
      { schemaVersion
        parentRunId
        baseCommit
        protocolPath
        protocolSha256 := protocolDigest
        contract
        taskBinding
        managedTaskFiles := taskFiles
        files := honeydew.files
        totalBytes := honeydew.total }
    let checkpointed : RunFiles H :=
      { protocol := some (.file protocol)
        beaker := { child.beaker with files := beaker.target }
        honeydew := { child.honeydew with files := honeydew.target }
        manifest := some manifest }
    pure (checkpointed, manifestSha256 manifest)
  | _ => .error ⟨"retry source protocol is unavailable"⟩

def hasDigest (node : Option Node) (digest : H) : Bool :=
  match node with
  | some (.file content) => sha256 content = digest
  | _ => false

def leavesBelow (files : Files) (directory : Path) : List Path :=
  (leafPaths files).filterMap fun path =>
    match directory.isPrefixOf? path with
    | some [] => none
    | rest => rest

/-- The digest that a manifest has for an input of the task: of equal paths, the last one counts. -/
def taskDigest (taskFiles : List (TaskFile H)) (path : String) : Option H :=
  (taskFiles.reverse.find? fun file => file.path = path).map TaskFile.sha256

def taskFilePaths : List String := ["problem.md", "eval_agent_prompt.md"]

def verifyManaged (manifest : Manifest H) (files : Files) : Except WorkspaceError Unit := do
  let program := files.lookup ["program.md"]
  let taskRoot := files.lookup ["benchmark-task"]
  require (isLink program = false) "retry worktree protocol must not be a symlink"
  require (program.isNone ∨ hasDigest sha256 program manifest.protocolSha256)
    "retry worktree protocol does not match authoritative protocol"
  require (isLink taskRoot = false) "retry benchmark-task root must not be a symlink"
  if manifest.managedTaskFiles.isEmpty then
    require (∀ entry ∈ files.entries, ["benchmark-task"] <+: entry.1 → entry.1 = ["benchmark-task"])
      "taskless retry contains benchmark-task content"
  else do
    require (isDirectory taskRoot) "retry task inputs are unavailable"
    require ((∀ file ∈ manifest.managedTaskFiles, file.path ∈ taskFilePaths) ∧
        ∀ path ∈ taskFilePaths, (taskDigest manifest.managedTaskFiles path).isSome)
      "retry managed task manifest is invalid"
    require ((∀ path ∈ leavesBelow files ["benchmark-task"],
    path ∈ taskFilePaths.map fun name => [name]) ∧
        ∀ name ∈ taskFilePaths, [name] ∈ leavesBelow files ["benchmark-task"])
      "retry task inputs contain unexpected or missing files"
    taskFilePaths.forM fun name =>
      require ((taskDigest manifest.managedTaskFiles name).any
          (hasDigest sha256 (files.lookup ["benchmark-task", name])))
        "retry task input checksum mismatch"

def RunFiles.worktree (run : RunFiles H) (name : String) : Option Worktree :=
  if name = "beaker" then some run.beaker
  else if name = "honeydew" then some run.honeydew
  else none

/-- One entry of the manifest. Where a link stands on the way, the path is not found here, and it is
not in the delta either. -/
def verifyFile (run : RunFiles H) (item : FileEntry H) : Except WorkspaceError Unit :=
  match run.worktree item.workspace with
  | none => .error ⟨"retry checkpoint path is invalid"⟩
  | some root => do
    require (".." ∉ item.path) "retry checkpoint path is invalid"
    require (hasDigest sha256 (root.files.lookup item.path) item.sha256)
      "retry checkpoint file checksum mismatch"

def observedFiles (name : String) (root : Worktree) :
    Except WorkspaceError (List (String × Path)) := do
  let entries := status (commits root.head) root.files
  entries.forM fun entry =>
    require (entry.1 ∈ plainCodes ∧ ".." ∉ entry.2) "retry child worktree delta is ambiguous"
  pure ((entries.filter fun entry => !isManaged entry.2).map fun entry => (name, entry.2))

def verifyTerminalRetryCheckpoint (run : RunFiles H) (checkpointDigest : D) :
    Except WorkspaceError (Manifest H) :=
  match run.manifest with
  | none => .error ⟨"retry checkpoint manifest checksum mismatch"⟩
  | some manifest => do
    require (manifestSha256 manifest = checkpointDigest)
      "retry checkpoint manifest checksum mismatch"
    require (manifest.schemaVersion = schemaVersion) "retry checkpoint schema is unsupported"
    require (run.beaker.head = run.honeydew.head) "agent worktrees do not share a base commit"
    require (run.beaker.head = manifest.baseCommit) "retry worktree base commit mismatch"
    require (hasDigest sha256 (run.node manifest.protocolPath) manifest.protocolSha256)
      "retry protocol checksum mismatch"
    verifyManaged sha256 manifest run.beaker.files
    verifyManaged sha256 manifest run.honeydew.files
    manifest.files.forM (verifyFile sha256 run)
    let beaker ← observedFiles commits "beaker" run.beaker
    let honeydew ← observedFiles commits "honeydew" run.honeydew
    let manifestFiles := manifest.files.map fun item => (item.workspace, item.path)
    require ((∀ file ∈ beaker ++ honeydew, file ∈ manifestFiles) ∧
        ∀ file ∈ manifestFiles, file ∈ beaker ++ honeydew)
      "retry child worktree delta does not match manifest"
    pure manifest

end Checkpoint

end Glasslab.Workspaces
