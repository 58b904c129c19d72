import Glasslab.Storage.Retention

/-!
# The dry run of a cleanup

A dry run lists directories as eligible, and the cleanup that follows it removes some of them. The
two read the runs with checks that were written separately. `run_cleanup` first skips every run that
is not terminal, so that the directories of conversations are listed and never removed; links are
listed with the bytes they lead to; and artifacts protect directories of their own run only.
-/

namespace Glasslab.Storage

open Foundation List

variable {store : RetentionStore} {ws : Workspace} {retention : Retention} {now later : Instant}
  {name : String} {path : Path}

section Candidates

variable {runId : String} {removed : List Path}

theorem isSymlink_iff : ws.isSymlink path ↔ ∃ target, (path, .link target) ∈ ws.tree.entries := by
  rw [Workspace.isSymlink]
  constructor
  · intro h
    split at h
    · rename_i target hLookup
      exact ⟨target, DirectoryTree.mem_of_lookup hLookup⟩
    · cases h
  · rintro ⟨target, hMem⟩
    rw [DirectoryTree.lookup_eq_some_iff.mpr hMem]

theorem isDir_iff : ws.isDir path ↔ (ws.resolve path, .directory) ∈ ws.tree.entries := by
  rw [Workspace.isDir]
  constructor
  · intro h
    split at h
    · rename_i hLookup
      exact DirectoryTree.mem_of_lookup hLookup
    · cases h
  · intro hMem
    rw [DirectoryTree.lookup_eq_some_iff.mpr hMem]

/-- A cleanable directory that is no link is its own real path. -/
theorem resolve_candidatePath (h : ¬ ws.isSymlink (candidatePath ws runId name)) :
    ws.resolve (candidatePath ws runId name) = candidatePath ws runId name := by
  refine DirectoryTree.realpath_of_not_link fun before hBefore target hLink => ?_
  rcases prefix_concat_iff.mp hBefore with rfl | hAbove
  · exact h (isSymlink_iff.mpr ⟨target, hLink⟩)
  · exact ws.plain runId before target hAbove hLink

theorem length_candidatePath (ws : Workspace) (runId name : String) :
    (candidatePath ws runId name).length = ws.root.length + 2 := by
  simp [candidatePath]

theorem candidatePath_inj {runId' name' : String} :
    candidatePath ws runId name = candidatePath ws runId' name' ↔ runId = runId' ∧ name =
    name' := by
  simp [candidatePath]

theorem apart_candidatePath {runId' name' : String} (h : runId = runId' → name ≠ name') :
    Apart (candidatePath ws runId name) (candidatePath ws runId' name') := by
  have hNe : candidatePath ws runId name ≠ candidatePath ws runId' name' := by
    intro hEq
    obtain ⟨hRun, hName⟩ := candidatePath_inj.mp hEq
    exact h hRun hName
  have hLength : (candidatePath ws runId name).length = (candidatePath ws runId' name').length := by
    rw [length_candidatePath, length_candidatePath]
  exact ⟨fun hPrefix => hNe (hPrefix.eq_of_length hLength),
    fun hPrefix => hNe (hPrefix.eq_of_length hLength.symm).symm⟩

section Removed

variable (hApart : ∀ directory ∈ removed, Apart directory (candidatePath ws runId name))

include hApart

theorem mem_removeAll_candidatePath {node : TreeNode String Nat} :
    (candidatePath ws runId name, node) ∈ (ws.removeAll removed).tree.entries ↔
      (candidatePath ws runId name, node) ∈ ws.tree.entries := by
  rw [Workspace.removeAll, DirectoryTree.mem_removeAll]
  exact ⟨And.left, fun hMem => ⟨hMem, fun directory hDirectory => (hApart directory hDirectory).1⟩⟩

theorem isSymlink_removeAll : (ws.removeAll removed).isSymlink (candidatePath ws runId name) =
    ws.isSymlink (candidatePath ws runId name) := by
  rw [Bool.eq_iff_iff, isSymlink_iff, isSymlink_iff]
  simp only [mem_removeAll_candidatePath hApart]

section

variable (h : ¬ ws.isSymlink (candidatePath ws runId name))
include h

theorem resolve_removeAll_candidatePath :
    (ws.removeAll removed).resolve (candidatePath ws runId name) = candidatePath ws runId name := by
  rw [← isSymlink_removeAll hApart] at h
  exact resolve_candidatePath h

theorem isDir_removeAll :
    (ws.removeAll removed).isDir (candidatePath ws runId name) =
      ws.isDir (candidatePath ws runId name) := by
  rw [Bool.eq_iff_iff, isDir_iff, isDir_iff, resolve_removeAll_candidatePath hApart h,
    resolve_candidatePath h, mem_removeAll_candidatePath hApart]

/-- A directory that no artifact leads into is not led into because others are gone. -/
theorem blocking_removeAll
    (hNone : blocking store ws runId (candidatePath ws runId name) = none) :
    blocking store (ws.removeAll removed) runId (candidatePath ws runId name) = none := by
  rw [blocking, List.find?_eq_none] at hNone ⊢
  intro path hPath
  obtain ⟨artifact, hArtifact, hResolved⟩ := mem_filterMap.mp hPath
  obtain ⟨raw, hRaw, rfl⟩ := Option.map_eq_some_iff.mp hResolved
  have hBefore := hNone (ws.resolve raw)
    (mem_filterMap.mpr ⟨artifact, hArtifact, Option.map_eq_some_iff.mpr ⟨raw, hRaw, rfl⟩⟩)
  rw [resolve_candidatePath h, isPrefixOf_iff_prefix] at hBefore
  rw [resolve_removeAll_candidatePath hApart h, isPrefixOf_iff_prefix]
  rcases DirectoryTree.realpath_removeAll ws.tree removed maximumLinks [] raw with
    hSame | ⟨directory, hDirectory, hInside⟩
  · rw [Workspace.resolve, Workspace.removeAll, hSame]
    exact hBefore
  · intro hPrefix
    -- the path ends in a directory that is gone, which lies apart
    rcases prefix_or_prefix_of_prefix hInside hPrefix with hAbove | hBelow
    · exact (hApart directory hDirectory).1 hAbove
    · exact (hApart directory hDirectory).2 hBelow

end

theorem unlocked_removeAll : (ws.removeAll removed).unlocked (candidatePath ws runId name) =
    ws.unlocked (candidatePath ws runId name) := by
  rw [Bool.eq_iff_iff, Workspace.unlocked, Workspace.unlocked, all_eq_true, all_eq_true]
  constructor
  · intro h entry hEntry
    by_cases hBelow : candidatePath ws runId name <+: entry.1
    · refine h entry
        (DirectoryTree.mem_removeAll.mpr ⟨hEntry, fun directory hDirectory hPrefix => ?_⟩)
      rcases prefix_or_prefix_of_prefix hPrefix hBelow with hAbove | hInner
      · exact (hApart directory hDirectory).1 hAbove
      · exact (hApart directory hDirectory).2 hInner
    · rw [← isPrefixOf_iff_prefix, Bool.not_eq_true] at hBelow
      rw [hBelow]
      rfl
  · intro h entry hEntry
    exact h entry (DirectoryTree.mem_removeAll.mp hEntry).1

end Removed

end Candidates

theorem removeAll_nil (ws : Workspace) : ws.removeAll [] = ws := by
  simp only [Workspace.removeAll, DirectoryTree.removeAll_nil]

theorem removeAll_concat (ws : Workspace) (removed : List Path) (directory : Path) :
    (ws.removeAll removed).removeAll [directory] = ws.removeAll (removed ++ [directory]) := by
  simp only [Workspace.removeAll, DirectoryTree.removeAll_concat]

/-! ## The loops -/

/-- A loop whose steps remove directories, each from what the steps before have left. -/
theorem foldlM_removeAll {β : Type*} {step : Workspace → β → Except PermissionError Workspace}
    {paths removals : β → List Path} {bs : List β} (hSub : ∀ b, removals b ⊆ paths b)
    (hStep : ∀ b ∈ bs, ∀ done result, (∀ directory ∈ done, ∀ path ∈ paths b, Apart directory path) →
      (step (ws.removeAll done) b = .ok result ↔
        (∀ path ∈ removals b, ws.unlocked path) ∧ result = ws.removeAll (done ++ removals b)))
    (hApart : bs.Pairwise fun b c => ∀ path ∈ paths b, ∀ other ∈ paths c, Apart path other)
    (done : List Path)
    (hDone : ∀ directory ∈ done, ∀ b ∈ bs, ∀ path ∈ paths b, Apart directory path)
    (result : Workspace) :
    bs.foldlM step (ws.removeAll done) = .ok result ↔
      (∀ path ∈ bs.flatMap removals, ws.unlocked path) ∧
        result = ws.removeAll (done ++ bs.flatMap removals) := by
  induction bs generalizing done with
  | nil =>
    rw [foldlM_nil, flatMap_nil, append_nil]
    constructor
    · intro h
      cases h
      exact ⟨nofun, rfl⟩
    · rintro ⟨-, rfl⟩
      rfl
  | cons b bs ih =>
    obtain ⟨hFirst, hRest⟩ := pairwise_cons.mp hApart
    have hHead := hStep b mem_cons_self done
    have hHeadApart : ∀ directory ∈ done, ∀ path ∈ paths b, Apart directory path :=
      fun directory hDirectory => hDone directory hDirectory b mem_cons_self
    have hNext : ∀ directory ∈ done ++ removals b, ∀ c ∈ bs, ∀ path ∈ paths c,
        Apart directory path := by
      intro directory hDirectory c hc path hPath
      rcases mem_append.mp hDirectory with hOld | hNew
      · exact hDone directory hOld c (mem_cons_of_mem _ hc) path hPath
      · exact hFirst c hc directory (hSub b hNew) path hPath
    have hTail := ih (fun c hc => hStep c (mem_cons_of_mem _ hc)) hRest (done ++ removals b) hNext
    rw [foldlM_cons, flatMap_cons, ← append_assoc]
    cases hRun : step (ws.removeAll done) b with
    | error failure =>
      constructor
      · intro h
        cases h
      · rintro ⟨hUnlocked, -⟩
        have hOk := (hHead _ hHeadApart).mpr
          ⟨fun path hPath => hUnlocked path (mem_append_left _ hPath), rfl⟩
        rw [hRun] at hOk
        cases hOk
    | ok middle =>
      obtain ⟨hUnlocked, rfl⟩ := (hHead _ hHeadApart).mp hRun
      have hSplit : (∀ path ∈ removals b ++ bs.flatMap removals, ws.unlocked path) ↔
          ∀ path ∈ bs.flatMap removals, ws.unlocked path := by
        rw [forall_mem_append]
        exact and_iff_right hUnlocked
      rw [hSplit]
      exact hTail

variable {item : SubdirectoryCleanupPlan} {plan : RunCleanupPlan} {run : RunRecord}

section Loops

variable (store ws retention now)

/-- What the checks on the two readings of a run have in common. -/
theorem mayRemove_of_eligible
    (h : eligibilityTimestamp retention now run = some since) : mayRemove retention now run := by
  rw [eligibilityTimestamp] at h
  rw [mayRemove]
  split at h
  · cases h
  · rename_i hKind
    rw [if_neg hKind]
    split at h
    · rename_i hTerminal
      rw [if_pos hTerminal]
      split at h
      · cases h
      · rename_i hOld
        exact decide_eq_true hOld
    · rename_i hTerminal
      rw [if_neg hTerminal]
      split at h
      · cases h
      · split at h
        · cases h
        · rename_i hOld
          exact decide_eq_true hOld

def itemRemovals (item : SubdirectoryCleanupPlan) : List Path :=
  if item.eligible && !ws.isSymlink item.path then [item.path] else []

def planRemovals (plan : RunCleanupPlan) : List Path :=
  if plan.state ∈ terminalStates then plan.subdirectories.flatMap (itemRemovals ws) else []

variable {store ws retention now} {since : Instant} {done : List Path} {result : Workspace}

theorem planSubdirectory_eq_some (h : planSubdirectory store ws run.runId name = some item) :
    item.path = candidatePath ws run.runId name ∧ item.name = name ∧
      ws.isDir (candidatePath ws run.runId name) ∧
      item.bytesToFree = ws.directoryBytes (candidatePath ws run.runId name) ∧
      (item.eligible ↔ blocking store ws run.runId (candidatePath ws run.runId name) = none) := by
  simp only [planSubdirectory] at h
  split at h
  · rename_i hDir
    cases h
    refine ⟨rfl, rfl, hDir, rfl, ?_⟩
    simp [SubdirectoryCleanupPlan.eligible]
  · cases h

theorem getRun_of_mem (h : run ∈ store.runs) : store.getRun run.runId = some run := by
  rw [RetentionStore.getRun]
  cases hFind : store.runs.find? fun other => other.runId = run.runId with
  | none =>
    have hNone := List.find?_eq_none.mp hFind run h
    simp at hNone
  | some other =>
    have hId : other.runId = run.runId := by simpa using List.find?_some hFind
    have hMem := mem_of_find?_eq_some hFind
    rw [inj_on_of_nodup_map store.distinct hMem h hId]

/-- A step of the inner loop, from what the steps before have left. -/
theorem removeSubdirectory_iff (hRun : run ∈ store.runs)
    (hDue : eligibilityTimestamp retention now run = some since)
    (hItem : planSubdirectory store ws run.runId name = some item)
    (hApart : ∀ directory ∈ done, Apart directory item.path) :
    removeSubdirectory store retention now run.runId (ws.removeAll done) item = .ok result ↔
      (∀ path ∈ itemRemovals ws item, ws.unlocked path) ∧
        result = ws.removeAll (done ++ itemRemovals ws item) := by
  obtain ⟨hPath, -, hDir, -, hEligible⟩ := planSubdirectory_eq_some hItem
  rw [hPath] at hApart
  simp only [removeSubdirectory, itemRemovals, hPath]
  have hSkip : .ok (ws.removeAll done) = (.ok result : Except PermissionError Workspace) ↔
      (∀ path ∈ ([] : List Path), ws.unlocked path) ∧ result = ws.removeAll (done ++ []) := by
    rw [append_nil, Except.ok.injEq]
    constructor
    · rintro rfl
      exact ⟨nofun, rfl⟩
    · rintro ⟨-, rfl⟩
      rfl
  by_cases hOk : item.eligible
  · by_cases hLink : ws.isSymlink (candidatePath ws run.runId name)
    · simpa only [hOk, isSymlink_removeAll hApart, hLink, Bool.not_true, Bool.false_eq_true,
        if_false,
        Bool.true_or, if_true, Bool.and_false] using hSkip
    · have hBlocking := blocking_removeAll hApart hLink (hEligible.mp hOk)
      simp only [hOk, Bool.not_true, Bool.false_eq_true, if_false, isSymlink_removeAll hApart,
        isDir_removeAll hApart hLink, hDir, hLink, Bool.or_false, getRun_of_mem hRun,
        mayRemove_of_eligible retention now hDue, hBlocking, Option.isSome_none, rmtree,
        unlocked_removeAll hApart, Bool.not_false, Bool.and_self, if_true, forall_mem_singleton]
      rw [removeAll_concat]
      split
      · rename_i hUnlocked
        rw [Except.ok.injEq, and_iff_right hUnlocked, eq_comm]
      · rename_i hLocked
        exact iff_of_false nofun fun h => hLocked h.1
  · simpa only [hOk, Bool.not_false, if_true, Bool.false_and, Bool.false_eq_true, if_false] using
      hSkip

/-! ### Plans -/

theorem planRun_eq_some (h : planRun store ws retention now run = some plan) :
    plan.runId = run.runId ∧ plan.state = run.state ∧
      (eligibilityTimestamp retention now run).isSome ∧
      plan.subdirectories =
    cleanableSubdirectories.filterMap (planSubdirectory store ws run.runId) := by
  simp only [planRun] at h
  split at h
  · cases h
  · rename_i since hSince
    split at h
    · cases h
    · cases h
      exact ⟨rfl, rfl, by rw [hSince]; rfl, rfl⟩

theorem exists_run_of_mem_planCleanup (h : plan ∈ planCleanup store ws retention now) :
    ∃ run ∈ store.runs, planRun store ws retention now run = some plan := by
  obtain ⟨run, hRun, hPlan⟩ := mem_filterMap.mp h
  exact ⟨run, mem_sortOn.mp hRun, hPlan⟩

theorem pairwise_subdirectories (h : planRun store ws retention now run = some plan) :
    plan.subdirectories.Pairwise fun a b => ∀ path ∈ [a.path], ∀ other ∈ [b.path],
    Apart path other := by
  rw [(planRun_eq_some h).2.2.2, pairwise_filterMap]
  have hNames : cleanableSubdirectories.Nodup := by decide
  refine hNames.imp ?_
  intro name name' hNe item hItem item' hItem'
  rw [(planSubdirectory_eq_some hItem).1, (planSubdirectory_eq_some hItem').1]
  simp only [mem_singleton, forall_eq]
  exact apart_candidatePath fun _ => hNe

theorem mem_subdirectories (h : planRun store ws retention now run = some plan)
    (hItem : item ∈ plan.subdirectories) :
    ∃ name ∈ cleanableSubdirectories, planSubdirectory store ws run.runId name = some item := by
  rw [(planRun_eq_some h).2.2.2] at hItem
  exact mem_filterMap.mp hItem

theorem pairwise_planCleanup : (planCleanup store ws retention now).Pairwise fun a b =>
    ∀ path ∈ a.subdirectories.map SubdirectoryCleanupPlan.path,
      ∀ other ∈ b.subdirectories.map SubdirectoryCleanupPlan.path, Apart path other := by
  have hRuns : store.listRuns.Pairwise fun a b => a.runId ≠ b.runId := by
    have hPerm :=
      (perm_sortOn (fun run : RunRecord => OrderDual.toDual run.createdAt) store.runs).map
      RunRecord.runId
    exact pairwise_map.mp (hPerm.nodup_iff.mpr store.distinct)
  rw [planCleanup, pairwise_filterMap]
  refine hRuns.imp ?_
  intro run run' hNe plan hPlan plan' hPlan' path hPath other hOther
  obtain ⟨item, hItem, rfl⟩ := mem_map.mp hPath
  obtain ⟨item', hItem', rfl⟩ := mem_map.mp hOther
  obtain ⟨name, -, hName⟩ := mem_subdirectories hPlan hItem
  obtain ⟨name', -, hName'⟩ := mem_subdirectories hPlan' hItem'
  rw [(planSubdirectory_eq_some hName).1, (planSubdirectory_eq_some hName').1]
  exact apart_candidatePath fun hId => absurd hId hNe

theorem itemRemovals_subset (item : SubdirectoryCleanupPlan) :
    itemRemovals ws item ⊆ [item.path] := by
  rw [itemRemovals]
  split
  · exact List.Subset.refl _
  · exact nil_subset _

theorem planRemovals_subset (plan : RunCleanupPlan) :
    planRemovals ws plan ⊆ plan.subdirectories.map SubdirectoryCleanupPlan.path := by
  rw [planRemovals]
  split
  · intro path hPath
    obtain ⟨item, hItem, hRemoved⟩ := mem_flatMap.mp hPath
    rw [mem_singleton.mp (itemRemovals_subset item hRemoved)]
    exact mem_map.mpr ⟨item, hItem, rfl⟩
  · exact nil_subset _

/-- A step of the outer loop, from what the steps before have left. -/
theorem applyPlan_iff (h : plan ∈ planCleanup store ws retention now)
    (hApart : ∀ directory ∈ done, ∀ path ∈ plan.subdirectories.map SubdirectoryCleanupPlan.path,
      Apart directory path) :
    applyPlan store retention now (ws.removeAll done) plan = .ok result ↔
      (∀ path ∈ planRemovals ws plan, ws.unlocked path) ∧
        result = ws.removeAll (done ++ planRemovals ws plan) := by
  obtain ⟨run, hRun, hPlan⟩ := exists_run_of_mem_planCleanup h
  obtain ⟨hId, hState, hDue, -⟩ := planRun_eq_some hPlan
  obtain ⟨since, hSince⟩ := Option.isSome_iff_exists.mp hDue
  simp only [applyPlan, planRemovals, hId, getRun_of_mem hRun, hState]
  by_cases hTerminal : run.state ∈ terminalStates
  · rw [if_neg (not_not.mpr hTerminal), if_pos hTerminal]
    refine foldlM_removeAll itemRemovals_subset ?_ (pairwise_subdirectories hPlan) done ?_ result
    · intro item hItem done result hDone
      obtain ⟨name, -, hName⟩ := mem_subdirectories hPlan hItem
      exact removeSubdirectory_iff hRun hSince hName fun directory hDirectory =>
        hDone directory hDirectory _ mem_cons_self
    · intro directory hDirectory item hItem path hPath
      rw [mem_singleton.mp hPath]
      exact hApart directory hDirectory _ (mem_map.mpr ⟨item, hItem, rfl⟩)
  · rw [if_pos hTerminal, if_neg hTerminal, append_nil, Except.ok.injEq]
    constructor
    · rintro rfl
      exact ⟨nofun, rfl⟩
    · rintro ⟨-, rfl⟩
      rfl

variable (store ws retention now) in
def removals : List Path := (planCleanup store ws retention now).flatMap (planRemovals ws)

theorem applyPlans_iff :
    (planCleanup store ws retention now).foldlM (applyPlan store retention now) ws = .ok result ↔
      (∀ path ∈ removals store ws retention now, ws.unlocked path) ∧
        result = ws.removeAll (removals store ws retention now) := by
  have hLoop := @foldlM_removeAll ws _ (applyPlan store retention now) _ _
    (planCleanup store ws retention now) planRemovals_subset
    (fun plan hPlan done result hDone => applyPlan_iff hPlan hDone) pairwise_planCleanup [] nofun
      result
  rwa [removeAll_nil] at hLoop

end Loops

variable (store ws retention now) in
/-- The directory is listed as eligible. -/
structure Offered (run : RunRecord) (name : String) : Prop where
  stored : run ∈ store.runs
  due : (eligibilityTimestamp retention now run).isSome
  cleanable : name ∈ cleanableSubdirectories
  directory : ws.isDir (candidatePath ws run.runId name)
  unreferenced : blocking store ws run.runId (candidatePath ws run.runId name) = none

section Offers

theorem exists_item_of_offered (h : Offered store ws retention now run name) :
    ∃ plan ∈ planCleanup store ws retention now, ∃ item ∈ plan.subdirectories,
      plan.state = run.state ∧ item.eligible ∧ item.path = candidatePath ws run.runId name ∧
        item.bytesToFree = ws.directoryBytes (candidatePath ws run.runId name) := by
  obtain ⟨since, hSince⟩ := Option.isSome_iff_exists.mp h.due
  obtain ⟨item, hItem⟩ : ∃ item, planSubdirectory store ws run.runId name = some item := by
    simp only [planSubdirectory, h.directory, if_true]
    exact ⟨_, rfl⟩
  have hMem : item ∈ cleanableSubdirectories.filterMap (planSubdirectory store ws run.runId) :=
    mem_filterMap.mpr ⟨name, h.cleanable, hItem⟩
  obtain ⟨plan, hPlan⟩ : ∃ plan, planRun store ws retention now run = some plan := by
    have hSome : (cleanableSubdirectories.filterMap
        (planSubdirectory store ws run.runId)).isEmpty = false :=
      isEmpty_eq_false_iff.mpr (ne_nil_of_mem hMem)
    simp only [planRun, hSince, hSome, Bool.false_eq_true, if_false]
    exact ⟨_, rfl⟩
  obtain ⟨-, hState, -, hSubdirectories⟩ := planRun_eq_some hPlan
  obtain ⟨hPath, -, -, hBytes, hEligible⟩ := planSubdirectory_eq_some hItem
  refine ⟨plan, mem_filterMap.mpr ⟨run, mem_sortOn.mpr h.stored, hPlan⟩, item, ?_, hState,
    hEligible.mpr h.unreferenced, hPath, hBytes⟩
  rw [hSubdirectories]
  exact hMem

theorem offered_of_item (hPlan : plan ∈ planCleanup store ws retention now)
    (hItem : item ∈ plan.subdirectories) (hOk : item.eligible) :
    ∃ run name, Offered store ws retention now run name ∧ plan.state = run.state ∧
      item.path = candidatePath ws run.runId name ∧
        item.bytesToFree = ws.directoryBytes (candidatePath ws run.runId name) := by
  obtain ⟨run, hRun, hPlan⟩ := exists_run_of_mem_planCleanup hPlan
  obtain ⟨-, hState, hDue, -⟩ := planRun_eq_some hPlan
  obtain ⟨name, hName, hItem⟩ := mem_subdirectories hPlan hItem
  obtain ⟨hPath, -, hDir, hBytes, hEligible⟩ := planSubdirectory_eq_some hItem
  exact ⟨run, name, ⟨hRun, hDue, hName, hDir, hEligible.mp hOk⟩, hState, hPath, hBytes⟩

theorem mem_itemRemovals : path ∈ itemRemovals ws item ↔
    item.eligible ∧ ¬ ws.isSymlink item.path ∧ path = item.path := by
  rw [itemRemovals]
  by_cases h : item.eligible ∧ ¬ ws.isSymlink item.path
  · rw [if_pos (by simpa using h), mem_singleton]
    exact ⟨fun hEq => ⟨h.1, h.2, hEq⟩, fun hAll => hAll.2.2⟩
  · rw [if_neg (by simpa using h)]
    exact iff_of_false not_mem_nil fun hAll => h ⟨hAll.1, hAll.2.1⟩

theorem mem_removals : path ∈ removals store ws retention now ↔
    ∃ run name, Offered store ws retention now run name ∧ run.state ∈ terminalStates ∧
      ¬ ws.isSymlink (candidatePath ws run.runId name) ∧ path =
    candidatePath ws run.runId name := by
  rw [removals, mem_flatMap]
  constructor
  · rintro ⟨plan, hPlan, hPath⟩
    rw [planRemovals] at hPath
    split at hPath
    · rename_i hTerminal
      obtain ⟨item, hItem, hRemoved⟩ := mem_flatMap.mp hPath
      obtain ⟨hOk, hLink, rfl⟩ := mem_itemRemovals.mp hRemoved
      obtain ⟨run, name, hOffered, hState, hCandidate, -⟩ := offered_of_item hPlan hItem hOk
      rw [hCandidate] at hLink ⊢
      exact ⟨run, name, hOffered, hState ▸ hTerminal, hLink, rfl⟩
    · cases hPath
  · rintro ⟨run, name, hOffered, hTerminal, hLink, rfl⟩
    obtain ⟨plan, hPlan, item, hItem, hState, hOk, hCandidate, -⟩ := exists_item_of_offered hOffered
    refine ⟨plan, hPlan, ?_⟩
    rw [planRemovals, if_pos (hState ▸ hTerminal), mem_flatMap]
    exact ⟨item, hItem, mem_itemRemovals.mpr ⟨hOk, hCandidate ▸ hLink, hCandidate.symm⟩⟩

end Offers

section Bytes

theorem pairwise_removals : (removals store ws retention now).Pairwise Apart := by
  refine pairwise_flatMap.mpr ⟨fun plan hPlan => ?_, ?_⟩
  · obtain ⟨run, -, hPlan⟩ := exists_run_of_mem_planCleanup hPlan
    rw [planRemovals]
    split
    · refine pairwise_flatMap.mpr ⟨fun item _ => ?_, ?_⟩
      · rw [itemRemovals]
        split
        · exact pairwise_singleton _ _
        · exact Pairwise.nil
      · refine (pairwise_subdirectories hPlan).imp fun hApart path hPath other hOther => ?_
        exact hApart path (itemRemovals_subset _ hPath) other (itemRemovals_subset _ hOther)
    · exact Pairwise.nil
  · refine pairwise_planCleanup.imp fun hApart path hPath other hOther => ?_
    exact hApart path (planRemovals_subset _ hPath) other (planRemovals_subset _ hOther)

def bytesLost (before after : Workspace) : Nat :=
  ((DirectoryTree.gone before.tree after.tree).map before.entryBytes).sum

theorem bytesLost_removeAll : bytesLost ws (ws.removeAll (removals store ws retention now)) =
    ((removals store ws retention now).map ws.directoryBytes).sum := by
  rw [bytesLost, Workspace.removeAll, DirectoryTree.sum_gone _ pairwise_removals]
  congr 1
  refine map_congr_left fun path hPath => ?_
  obtain ⟨run, name, hOffered, -, hLink, rfl⟩ := mem_removals.mp hPath
  rw [Workspace.directoryBytes, if_pos hOffered.directory, resolve_candidatePath hLink]

variable (ws) in
def skippedItems (plan : RunCleanupPlan) : List SubdirectoryCleanupPlan :=
  plan.subdirectories.filter fun item =>
    item.eligible && !(decide (plan.state ∈ terminalStates) && !ws.isSymlink item.path)

theorem bytesToFree_of_mem (h : plan ∈ planCleanup store ws retention now)
    (hItem : item ∈ plan.subdirectories) : item.bytesToFree = ws.directoryBytes item.path := by
  obtain ⟨run, -, hPlan⟩ := exists_run_of_mem_planCleanup h
  obtain ⟨name, -, hName⟩ := mem_subdirectories hPlan hItem
  obtain ⟨hPath, -, -, hBytes, -⟩ := planSubdirectory_eq_some hName
  rw [hBytes, hPath]

theorem planRemovals_eq (plan : RunCleanupPlan) : planRemovals ws plan =
    (plan.subdirectories.filter fun item =>
      item.eligible && (decide (plan.state ∈ terminalStates) && !ws.isSymlink item.path)).map
        SubdirectoryCleanupPlan.path := by
  rw [planRemovals]
  split
  · rename_i hTerminal
    simp only [hTerminal, decide_true, Bool.true_and]
    induction plan.subdirectories with
    | nil => rfl
    | cons item items ih =>
      rw [flatMap_cons, ih, filter_cons, itemRemovals]
      split
      · rfl
      · rfl
  · rename_i hTerminal
    simp [hTerminal]

theorem eligibleBytes_eq (h : plan ∈ planCleanup store ws retention now) :
    plan.eligibleBytes = ((planRemovals ws plan).map ws.directoryBytes).sum +
      ((skippedItems ws plan).map SubdirectoryCleanupPlan.bytesToFree).sum := by
  have hRemoved : (planRemovals ws plan).map ws.directoryBytes =
      (plan.subdirectories.filter fun item =>
        item.eligible && (decide (plan.state ∈ terminalStates) && !ws.isSymlink item.path)).map
          SubdirectoryCleanupPlan.bytesToFree := by
    rw [planRemovals_eq, map_map]
    refine map_congr_left fun item hItem => ?_
    exact (bytesToFree_of_mem h (mem_filter.mp hItem).1).symm
  rw [hRemoved, skippedItems, RunCleanupPlan.eligibleBytes, ← sum_filter_or]
  · congr 2
    refine filter_congr fun item _ => ?_
    rw [← Bool.and_or_distrib_left, Bool.or_not_self, Bool.and_true]
  · intro item hItem
    simp only [Bool.and_eq_true] at hItem
    simp [hItem.2.1, hItem.2.2]

omit ws in
theorem sum_flatMap_add {α β : Type*} {whole rest : α → Nat} {parts : α → List β} {weight : β → Nat}
    {xs : List α} (h : ∀ x ∈ xs, whole x = ((parts x).map weight).sum + rest x) :
    (xs.map whole).sum = ((xs.flatMap parts).map weight).sum + (xs.map rest).sum := by
  induction xs with
  | nil => rfl
  | cons x xs ih =>
    have hTail := ih fun y hy => h y (mem_cons_of_mem _ hy)
    have hHead := h x mem_cons_self
    simp only [map_cons, sum_cons, flatMap_cons, map_append, sum_append]
    omega

/-- The report claims the bytes that are lost just if the skipped directories have none. -/
theorem sum_eligibleBytes_eq_iff :
    ((planCleanup store ws retention now).map RunCleanupPlan.eligibleBytes).sum =
        bytesLost ws (ws.removeAll (removals store ws retention now)) ↔
      ∀ plan ∈ planCleanup store ws retention now, ∀ item ∈ skippedItems ws plan,
        item.bytesToFree = 0 := by
  have hSum : ((planCleanup store ws retention now).map RunCleanupPlan.eligibleBytes).sum =
      (((planCleanup store ws retention now).flatMap (planRemovals ws)).map ws.directoryBytes).sum +
        ((planCleanup store ws retention now).map fun plan =>
          ((skippedItems ws plan).map SubdirectoryCleanupPlan.bytesToFree).sum).sum :=
    sum_flatMap_add fun _ hPlan => eligibleBytes_eq hPlan
  rw [bytesLost_removeAll, removals, hSum, Nat.add_eq_left, List.sum_eq_zero_iff_forall_eq_nat]
  simp only [forall_mem_map, List.sum_eq_zero_iff_forall_eq_nat]

end Bytes

/-! ## The preview -/

def Gone (before after : Workspace) (path : Path) : Prop :=
  path ∈ (DirectoryTree.gone before.tree after.tree).map Prod.fst

/-- What the report of a dry run, and the report and the result of the cleanup, have to do with each
other. -/
structure Truthful (store : RetentionStore) (ws : Workspace) (preview report : CleanupReport)
    (after : Workspace) : Prop where
  exact : ∀ path, Gone ws after path ↔ path ∈ ws.tree.entries.map Prod.fst ∧
    ∃ plan ∈ preview.plans, ∃ item ∈ plan.subdirectories,
      item.eligible ∧ ¬ ws.isSymlink item.path ∧ item.path <+: path
  bytes : report.bytesFreed = bytesLost ws after
  cleanable : ∀ path, Gone ws after path →
    ∃ runId, ∃ name ∈ cleanableSubdirectories, candidatePath ws runId name <+: path
  unreferenced : ∀ path, Gone ws after path → ∀ artifact ∈ store.artifacts, ∀ raw,
    artifact.path = some raw → ¬ path <+: ws.resolve raw

/-- The dry run leaves everything in place, the cleanup returns, and the two agree. -/
def PreviewTruthful (store : RetentionStore) (ws : Workspace) (retention : Retention)
    (now later : Instant) : Prop :=
  ∃ preview report after, runCleanup store ws retention now true later = .ok (preview, ws) ∧
    runCleanup store ws retention now false later = .ok (report, after) ∧
      Truthful store ws preview report after

variable (store ws retention now) in
/-- Of the directories on offer, those that are no links belong to terminal runs, can be deleted,
and no artifact of any run refers into them; and the links lead to nothing that has bytes. -/
structure PreviewHolds : Prop where
  conversations : ∀ run name, Offered store ws retention now run name →
    ¬ ws.isSymlink (candidatePath ws run.runId name) → run.state ∈ terminalStates
  links : ∀ run name, Offered store ws retention now run name →
    ws.isSymlink (candidatePath ws run.runId name) →
      ws.directoryBytes (candidatePath ws run.runId name) = 0
  unlocked : ∀ run name, Offered store ws retention now run name →
    ¬ ws.isSymlink (candidatePath ws run.runId name) → run.state ∈ terminalStates →
      ws.unlocked (candidatePath ws run.runId name)
  foreign : ∀ run name, Offered store ws retention now run name →
    ¬ ws.isSymlink (candidatePath ws run.runId name) → run.state ∈ terminalStates →
      ∀ artifact ∈ store.artifacts, ∀ raw, artifact.path = some raw →
        ¬ candidatePath ws run.runId name <+: ws.resolve raw

section Preview

theorem gone_removeAll_iff {removed : List Path} : Gone ws (ws.removeAll removed) path ↔
    path ∈ ws.tree.entries.map Prod.fst ∧ ∃ directory ∈ removed, directory <+: path := by
  rw [Gone, Workspace.removeAll, DirectoryTree.gone_removeAll, mem_map, mem_map]
  constructor
  · rintro ⟨entry, hEntry, rfl⟩
    obtain ⟨hMem, hIn⟩ := mem_filter.mp hEntry
    exact ⟨⟨entry, hMem, rfl⟩, DirectoryTree.isIn_iff.mp hIn⟩
  · rintro ⟨⟨entry, hMem, rfl⟩, hIn⟩
    exact ⟨entry, mem_filter.mpr ⟨hMem, DirectoryTree.isIn_iff.mpr hIn⟩, rfl⟩

theorem Offered.mem_entries (h : Offered store ws retention now run name)
    (hLink : ¬ ws.isSymlink (candidatePath ws run.runId name)) :
    candidatePath ws run.runId name ∈ ws.tree.entries.map Prod.fst := by
  have hDir := isDir_iff.mp h.directory
  rw [resolve_candidatePath hLink] at hDir
  exact mem_map.mpr ⟨_, hDir, rfl⟩

/-- The runs of a store are told apart by their ids. -/
theorem run_eq_of_candidatePath {run' : RunRecord} {name' : String} (h : run ∈ store.runs)
    (h' : run' ∈ store.runs)
    (hEq : candidatePath ws run.runId name = candidatePath ws run'.runId name') : run = run' :=
  inj_on_of_nodup_map store.distinct h h' (candidatePath_inj.mp hEq).1

theorem runCleanup_false_iff {report : CleanupReport} {after : Workspace} :
    runCleanup store ws retention now false later = .ok (report, after) ↔
      (∀ path ∈ removals store ws retention now, ws.unlocked path) ∧
        after = ws.removeAll (removals store ws retention now) ∧
          report = ⟨now, false, planCleanup store ws retention now, reportStorageUsage store ws now,
            some (reportStorageUsage store after later)⟩ := by
  simp only [runCleanup, Bool.false_eq_true, if_false]
  cases hLoop : (planCleanup store ws retention now).foldlM (applyPlan store retention now) ws with
  | error failure =>
    refine iff_of_false nofun fun h => ?_
    rw [applyPlans_iff.mpr ⟨h.1, rfl⟩] at hLoop
    cases hLoop
  | ok result =>
    obtain ⟨hUnlocked, rfl⟩ := applyPlans_iff.mp hLoop
    rw [and_iff_right hUnlocked]
    constructor
    · intro h
      cases h
      exact ⟨rfl, rfl⟩
    · rintro ⟨rfl, rfl⟩
      rfl

/-- When the dry run of a cleanup is a truthful preview. -/
theorem preview_truthful_iff (store : RetentionStore) (ws : Workspace) (retention : Retention)
    (now later : Instant) :
    PreviewTruthful store ws retention now later ↔ PreviewHolds store ws retention now := by
  constructor
  · rintro ⟨preview, report, after, hPreview, hReport, hTruthful⟩
    cases hPreview
    obtain ⟨hUnlocked, rfl, rfl⟩ := runCleanup_false_iff.mp hReport
    have hBytes := sum_eligibleBytes_eq_iff.mp hTruthful.bytes
    refine ⟨?_, ?_, ?_, ?_⟩
    · intro run name hOffered hLink
      -- it is listed as eligible, so it is gone, and only directories of terminal runs go
      obtain ⟨plan, hPlan, item, hItem, -, hOk, hPath, -⟩ := exists_item_of_offered hOffered
      have hGone := (hTruthful.exact (candidatePath ws run.runId name)).mpr
        ⟨hOffered.mem_entries hLink, plan, hPlan, item, hItem, hOk, hPath ▸ hLink, hPath ▸
          prefix_refl _⟩
      obtain ⟨-, directory, hDirectory, hPrefix⟩ := gone_removeAll_iff.mp hGone
      obtain ⟨run', name', hOffered', hTerminal, -, rfl⟩ := mem_removals.mp hDirectory
      have hEq := hPrefix.eq_of_length (by rw [length_candidatePath, length_candidatePath])
      rw [← run_eq_of_candidatePath hOffered'.stored hOffered.stored hEq]
      exact hTerminal
    · intro run name hOffered hLink
      obtain ⟨plan, hPlan, item, hItem, -, hOk, hPath, hItemBytes⟩ :=
        exists_item_of_offered hOffered
      rw [← hItemBytes]
      refine hBytes plan hPlan item (mem_filter.mpr ⟨hItem, ?_⟩)
      rw [hOk, hPath, hLink]
      simp
    · intro run name hOffered hLink hTerminal
      exact hUnlocked _ (mem_removals.mpr ⟨run, name, hOffered, hTerminal, hLink, rfl⟩)
    · intro run name hOffered hLink hTerminal
      refine hTruthful.unreferenced _ (gone_removeAll_iff.mpr ⟨hOffered.mem_entries hLink, ?_⟩)
      exact ⟨_, mem_removals.mpr ⟨run, name, hOffered, hTerminal, hLink, rfl⟩, prefix_refl _⟩
  · intro h
    have hUnlocked : ∀ path ∈ removals store ws retention now, ws.unlocked path := by
      intro path hPath
      obtain ⟨run, name, hOffered, hTerminal, hLink, rfl⟩ := mem_removals.mp hPath
      exact h.unlocked run name hOffered hLink hTerminal
    refine ⟨_, _, _, rfl, runCleanup_false_iff.mpr ⟨hUnlocked, rfl, rfl⟩, ?_, ?_, ?_, ?_⟩
    · intro path
      rw [gone_removeAll_iff]
      refine and_congr_right fun _ => ?_
      constructor
      · rintro ⟨directory, hDirectory, hPrefix⟩
        obtain ⟨run, name, hOffered, -, hLink, rfl⟩ := mem_removals.mp hDirectory
        obtain ⟨plan, hPlan, item, hItem, -, hOk, hPath, -⟩ := exists_item_of_offered hOffered
        exact ⟨plan, hPlan, item, hItem, hOk, hPath ▸ hLink, hPath ▸ hPrefix⟩
      · rintro ⟨plan, hPlan, item, hItem, hOk, hLink, hPrefix⟩
        obtain ⟨run, name, hOffered, -, hPath, -⟩ := offered_of_item hPlan hItem hOk
        rw [hPath] at hLink hPrefix
        exact ⟨_, mem_removals.mpr
          ⟨run, name, hOffered, h.conversations run name hOffered hLink, hLink,
          rfl⟩, hPrefix⟩
    · refine sum_eligibleBytes_eq_iff.mpr fun plan hPlan item hItem => ?_
      obtain ⟨hMem, hSkipped⟩ := mem_filter.mp hItem
      obtain ⟨hOk, hSkipped⟩ := Bool.and_eq_true_iff.mp hSkipped
      obtain ⟨run, name, hOffered, hState, hPath, hBytes⟩ := offered_of_item hPlan hMem hOk
      rw [hBytes]
      refine h.links run name hOffered ?_
      by_contra hLink
      have hTerminal := h.conversations run name hOffered hLink
      simp [hState, hTerminal, hPath, hLink] at hSkipped
    · intro path hGone
      obtain ⟨-, directory, hDirectory, hPrefix⟩ := gone_removeAll_iff.mp hGone
      obtain ⟨run, name, hOffered, -, -, rfl⟩ := mem_removals.mp hDirectory
      exact ⟨run.runId, name, hOffered.cleanable, hPrefix⟩
    · intro path hGone artifact hArtifact raw hRaw hInside
      obtain ⟨-, directory, hDirectory, hPrefix⟩ := gone_removeAll_iff.mp hGone
      obtain ⟨run, name, hOffered, hTerminal, hLink, rfl⟩ := mem_removals.mp hDirectory
      exact h.foreign run name hOffered hLink hTerminal artifact hArtifact raw hRaw
        (hPrefix.trans hInside)

end Preview

/-- A conversation that was left alone at time 0. -/
def idleConversation : RetentionStore where
  runs :=
    [{ runId := "conv-1"
       objective := ""
       state := .paused
       conversation := true
       maximumTurns := 1
       maximumRuntimeSeconds := 1
       maximumParallelJobs := 1
       createdAt := 0
       updatedAt := 0 }]
  distinct := by decide
  artifacts := []

def idleWorkspace : Workspace where
  root := ["workspaces"]
  tree :=
    .ofEntries
      [(["workspaces"], .directory), (["workspaces", "conv-1"], .directory),
        (["workspaces", "conv-1", "runtime"], .directory),
        (["workspaces", "conv-1", "runtime", "cache.bin"], .file 100)]
      (by decide) (by decide)
  linkBytes := fun _ => 0
  locked := fun _ => false
  plain := by
    intro runId before target _ hMem
    simp [DirectoryTree.ofEntries] at hMem

/-- After 60 days the dry run lists the directory of the conversation, and the cleanup leaves it. -/
theorem conversation_listed_and_kept :
    ¬ PreviewTruthful idleConversation idleWorkspace ⟨14, some 30⟩ (days 60) (days 60) := by
  rintro ⟨preview, report, after, hPreview, hReport, hTruthful⟩
  cases hPreview
  obtain ⟨-, rfl, -⟩ := runCleanup_false_iff.mp hReport
  have hOffered (run : RunRecord) (hRun : run ∈ idleConversation.runs) :
      Offered idleConversation idleWorkspace ⟨14, some 30⟩ (days 60) run "runtime" := by
    obtain rfl := mem_singleton.mp hRun
    exact ⟨hRun, by decide +kernel, by decide, by decide, by decide⟩
  obtain ⟨plan, hPlan, item, hItem, -, hOk, hPath, -⟩ :=
    exists_item_of_offered (hOffered _ mem_cons_self)
  have hGone := (hTruthful.exact ["workspaces", "conv-1", "runtime"]).mpr
    ⟨by decide, plan, hPlan, item, hItem, hOk, by rw [hPath]; decide, by rw [hPath]; decide⟩
  obtain ⟨-, directory, hDirectory, -⟩ := gone_removeAll_iff.mp hGone
  obtain ⟨run, name, hRemoved, hTerminal, -, -⟩ := mem_removals.mp hDirectory
  obtain rfl := mem_singleton.mp hRemoved.stored
  exact absurd hTerminal (by decide)

end Glasslab.Storage
