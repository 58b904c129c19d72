import Glasslab.Schemas
import Glasslab.Foundation.DirectoryTree
import Glasslab.Foundation.Sorting
import Mathlib.Data.String.Basic

/-!
# Storage retention

`app/storage_retention.py`: how much the workspaces of the runs take, and the cleanup of the
directories in which agents have worked. `plan_cleanup` lists the directories of the runs that are
over for long enough, and of the conversations that were left alone for long enough. `run_cleanup`
makes the plan and, unless it is a dry run, reads each run again and removes the directories that
may still be removed.

Run ids and names of directories are components of paths, and the roots of the runs no links.
-/

namespace Glasslab.Storage

open Foundation

abbrev Path := List String

/-! ## Store and workspace -/

/-- The `path` in the metadata of an artifact, if there is one. -/
structure ArtifactPath where
  runId : String
  path : Option Path

structure RetentionStore where
  runs : List RunRecord
  distinct : (runs.map RunRecord.runId).Nodup
  artifacts : List ArtifactPath

namespace RetentionStore

variable (store : RetentionStore)

def listRuns : List RunRecord := sortOn (fun run => OrderDual.toDual run.createdAt) store.runs

def getRun (runId : String) : Option RunRecord := store.runs.find? fun run => run.runId = runId

def listArtifacts (runId : String) : List ArtifactPath :=
  store.artifacts.filter fun artifact => artifact.runId = runId

end RetentionStore

/-- The files around the workspaces. A file is given by its size. -/
structure Workspace where
  root : Path
  tree : DirectoryTree String Nat
  /-- The size of a link itself. -/
  linkBytes : Path → Nat
  /-- The directories that the process may not write, such as those of the installed task inputs. -/
  locked : Path → Bool
  plain : ∀ runId before target, before <+: root ++ [runId] → (before, .link target) ∉ tree.entries

/-- How many links are followed. -/
def maximumLinks : Nat := 40

namespace Workspace

variable (ws : Workspace)

/-- `Path.resolve`. -/
def resolve (path : Path) : Path := ws.tree.realpath maximumLinks [] path

/-- `Path.is_dir`. -/
def isDir (path : Path) : Bool :=
  match ws.tree.lookup (ws.resolve path) with
  | some .directory => true
  | _ => false

/-- `Path.is_symlink`, for a path whose parents are real. -/
def isSymlink (path : Path) : Bool :=
  match ws.tree.lookup path with
  | some (.link _) => true
  | _ => false

def entryBytes (entry : Path × TreeNode String Nat) : Nat :=
  match entry.2 with
  | .file bytes => bytes
  | .link _ => if ws.isDir entry.1 then 0 else ws.linkBytes entry.1
  | .directory => 0

def directoryBytes (path : Path) : Nat :=
  if ws.isDir path then ((ws.tree.under (ws.resolve path)).map ws.entryBytes).sum else 0

def removeAll (removed : List Path) : Workspace where
  root := ws.root
  tree := ws.tree.removeAll removed
  linkBytes := ws.linkBytes
  locked := ws.locked
  plain := fun runId before target hPrefix hMem =>
    ws.plain runId before target hPrefix (DirectoryTree.mem_removeAll.mp hMem).1

/-- Does everything in the directory stand where it can be deleted? -/
def unlocked (path : Path) : Bool :=
  ws.tree.entries.all fun entry => !(path.isPrefixOf entry.1 && ws.locked entry.1.dropLast)

end Workspace

/-- What deletion raises. -/
structure PermissionError where
  path : Path

/-- `shutil.rmtree`. What is left after it raises is not described. -/
def rmtree (ws : Workspace) (path : Path) : Except PermissionError Workspace :=
  if ws.unlocked path then .ok (ws.removeAll [path]) else .error ⟨path⟩

def cleanableSubdirectories : List String := ["beaker-worktree", "honeydew-worktree", "runtime"]

structure RunStorageUsage where
  runId : String
  state : RunState
  totalBytes : Nat
  subdirectoryBytes : List (String × Nat)

structure StorageReport where
  generatedAt : Instant
  totalBytes : Nat
  runs : List RunStorageUsage

def subdirectoryNames (ws : Workspace) (directory : Path) : List String :=
  sortOn id <| ws.tree.entries.filterMap fun entry =>
    match entry.2, directory.isPrefixOf? entry.1 with
    | .directory, some [name] => some name
    | _, _ => none

def runStorageUsage (ws : Workspace) (run : RunRecord) : Option RunStorageUsage :=
  let runRoot := ws.root ++ [run.runId]
  if ws.isDir runRoot then
    let subdirectoryBytes := (subdirectoryNames ws runRoot).map fun name =>
      (name, ws.directoryBytes (runRoot ++ [name]))
    some ⟨run.runId, run.state, (subdirectoryBytes.map Prod.snd).sum, subdirectoryBytes⟩
  else none

def reportStorageUsage (store : RetentionStore) (ws : Workspace) (now : Instant) : StorageReport :=
  let usages := store.listRuns.filterMap (runStorageUsage ws)
  ⟨now, (usages.map RunStorageUsage.totalBytes).sum, usages⟩

structure SubdirectoryCleanupPlan where
  name : String
  path : Path
  bytesToFree : Nat
  skipReason : Option String

def SubdirectoryCleanupPlan.eligible (plan : SubdirectoryCleanupPlan) : Bool :=
  plan.skipReason.isNone

structure RunCleanupPlan where
  runId : String
  state : RunState
  terminalSince : Instant
  subdirectories : List SubdirectoryCleanupPlan

def RunCleanupPlan.eligibleBytes (plan : RunCleanupPlan) : Nat :=
  ((plan.subdirectories.filter SubdirectoryCleanupPlan.eligible).map
    SubdirectoryCleanupPlan.bytesToFree).sum

structure Retention where
  retentionDays : Int
  conversationRetentionDays : Option Int

/-- `timedelta(days=…)`. -/
def days (n : Int) : ℚ := n * 86400

section Cleanup

variable (store : RetentionStore) (ws : Workspace) (retention : Retention) (now : Instant)

/-- The checks of `plan_cleanup` on a run, and the time since when it is eligible. -/
def eligibilityTimestamp (run : RunRecord) : Option Instant :=
  if run.state ∉ terminalStates ∧ run.conversation = false then none
  else if run.state ∈ terminalStates then
    if now - run.updatedAt < days retention.retentionDays then none else some run.updatedAt
  else
    match retention.conversationRetentionDays with
    | none => none
    | some threshold => if now - run.updatedAt < days threshold then none else some run.updatedAt

def referencedPaths (runId : String) : List Path :=
  (store.listArtifacts runId).filterMap fun artifact => artifact.path.map ws.resolve

/-- The first path of an artifact of the run that leads into the directory. -/
def blocking (runId : String) (candidate : Path) : Option Path :=
  (referencedPaths store ws runId).find? fun path => (ws.resolve candidate).isPrefixOf path

def candidatePath (runId name : String) : Path := ws.root ++ [runId] ++ [name]

def planSubdirectory (runId name : String) : Option SubdirectoryCleanupPlan :=
  let candidate := candidatePath ws runId name
  if ws.isDir candidate then
    some
      { name
        path := candidate
        bytesToFree := ws.directoryBytes candidate
        skipReason := (blocking store ws runId candidate).map fun path =>
          "referenced by an artifact record: /" ++ "/".intercalate path }
  else none

def planRun (run : RunRecord) : Option RunCleanupPlan :=
  match eligibilityTimestamp retention now run with
  | none => none
  | some since =>
    let subdirectories := cleanableSubdirectories.filterMap (planSubdirectory store ws run.runId)
    if subdirectories.isEmpty then none
    else some ⟨run.runId, run.state, since, subdirectories⟩

def planCleanup : List RunCleanupPlan := store.listRuns.filterMap (planRun store ws retention now)

structure CleanupReport where
  generatedAt : Instant
  dryRun : Bool
  plans : List RunCleanupPlan
  usageBefore : StorageReport
  usageAfter : Option StorageReport

def CleanupReport.bytesFreed (report : CleanupReport) : Nat :=
  (report.plans.map RunCleanupPlan.eligibleBytes).sum

/-- The checks of `run_cleanup` on a run that was read again. -/
def mayRemove (current : RunRecord) : Bool :=
  if current.state ∉ terminalStates ∧ current.conversation = false then false
  else if current.state ∈ terminalStates then ¬ now - current.updatedAt < days
    retention.retentionDays
  else
    match retention.conversationRetentionDays with
    | none => false
    | some threshold => ¬ now - current.updatedAt < days threshold

/-- The loop of `run_cleanup` over the directories of a run. -/
def removeSubdirectory (runId : String) (ws : Workspace) (item : SubdirectoryCleanupPlan) :
    Except PermissionError Workspace :=
  if !item.eligible then .ok ws
  else if ws.isSymlink item.path || !ws.isDir item.path then .ok ws
  else
    match store.getRun runId with
    | none => .ok ws
    | some current =>
      if !mayRemove retention now current then .ok ws
      else if (blocking store ws runId item.path).isSome then .ok ws
      else rmtree ws item.path

/-- The loop of `run_cleanup` over the plans. -/
def applyPlan (ws : Workspace) (plan : RunCleanupPlan) : Except PermissionError Workspace :=
  match store.getRun plan.runId with
  | none => .ok ws
  | some current =>
    if current.state ∉ terminalStates then .ok ws
    else plan.subdirectories.foldlM (removeSubdirectory store retention now plan.runId) ws

/-- `run_cleanup`, with the time of the last report. -/
def runCleanup (dryRun : Bool) (later : Instant) :
    Except PermissionError (CleanupReport × Workspace) :=
  let usageBefore := reportStorageUsage store ws now
  let plans := planCleanup store ws retention now
  if dryRun then .ok (⟨now, true, plans, usageBefore, none⟩, ws)
  else do
    let after ← plans.foldlM (applyPlan store retention now) ws
    pure (⟨now, false, plans, usageBefore, some (reportStorageUsage store after later)⟩, after)

end Cleanup

end Glasslab.Storage
