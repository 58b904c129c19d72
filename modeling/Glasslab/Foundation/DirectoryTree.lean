import Glasslab.Foundation.FileTree
import Mathlib.Algebra.BigOperators.Group.List.Basic
import Mathlib.Data.List.Nodup
import Mathlib.Algebra.GroupWithZero.Nat

/-!
# Trees that lose directories

A tree with an entry for every file, link and directory. An entry stands in directories of the tree.
A link is given by the path it is a link to; `realpath` follows links, up to a number of them, and
joins what is left of the path where nothing stands.
-/

namespace Foundation

open List

structure DirectoryTree (N C : Type*) where
  entries : List (List N × TreeNode N C)
  distinct : (entries.map Prod.fst).Nodup
  inside : ∀ front rest node, (front ++ rest, node) ∈ entries → front ≠ [] → rest ≠ [] →
    (front, TreeNode.directory) ∈ entries

theorem sum_filter_or {α : Type*} {weight : α → Nat} {p q : α → Bool} (h : ∀ a, p a → q a = false)
    (xs : List α) : ((xs.filter fun a => p a || q a).map weight).sum =
      ((xs.filter p).map weight).sum + ((xs.filter q).map weight).sum := by
  induction xs with
  | nil => rfl
  | cons x xs ih =>
    by_cases hp : p x
    · simp only [filter_cons, hp, h x hp, Bool.true_or, if_true, map_cons, sum_cons, ih,
        Bool.false_eq_true, if_false]
      omega
    · by_cases hq : q x
      · simp only [filter_cons, hp, hq, Bool.or_true, if_true, map_cons, sum_cons, ih,
          Bool.false_eq_true, if_false]
        omega
      · simp only [filter_cons, hp, hq, Bool.or_self, ih, Bool.false_eq_true, if_false]

namespace DirectoryTree

variable {N C : Type*} [DecidableEq N] {tree : DirectoryTree N C} {node : TreeNode N C}
  {path : List N}

section Lookup

def lookup (tree : DirectoryTree N C) (path : List N) : Option (TreeNode N C) :=
  tree.entries.lookup path

theorem mem_of_lookup (h : tree.lookup path = some node) : (path, node) ∈ tree.entries := by
  obtain ⟨before, after, hEntries, -⟩ := List.lookup_eq_some_iff.mp h
  rw [hEntries]
  exact mem_append_right _ mem_cons_self

omit [DecidableEq N] in
theorem eq_of_mem {node' : TreeNode N C} (h : (path, node) ∈ tree.entries)
    (h' : (path, node') ∈ tree.entries) : node = node' := by
  have hEq := inj_on_of_nodup_map tree.distinct h h' rfl
  exact (Prod.mk.inj hEq).2

theorem lookup_eq_some_iff : tree.lookup path = some node ↔ (path, node) ∈ tree.entries := by
  refine ⟨mem_of_lookup, fun h => ?_⟩
  cases hLookup : tree.lookup path with
  | none =>
    have hNone := lookup_eq_none_iff.mp hLookup _ h
    simp at hNone
  | some node' => rw [eq_of_mem h (mem_of_lookup hLookup)]

def isDirectoryIn (entries : List (List N × TreeNode N C)) (path : List N) : Bool :=
  match entries.lookup path with
  | some .directory => true
  | _ => false

def closed (entries : List (List N × TreeNode N C)) : Bool :=
  entries.all fun entry => entry.1.inits.all fun front =>
    decide (front = []) || decide (front = entry.1) || isDirectoryIn entries front

def ofEntries (entries : List (List N × TreeNode N C)) (distinct : (entries.map Prod.fst).Nodup)
    (h : closed entries) : DirectoryTree N C where
  entries := entries
  distinct := distinct
  inside := by
    intro front rest node hMem hFront hRest
    have hPrefix : front ∈ (front ++ rest).inits :=
      (List.mem_inits _ _).mpr (List.prefix_append _ _)
    have hCheck := List.all_eq_true.mp (List.all_eq_true.mp h _ hMem) front hPrefix
    simp only [Bool.or_eq_true, decide_eq_true_eq] at hCheck
    rcases hCheck with (hEmpty | hSame) | hDirectory
    · exact absurd hEmpty hFront
    · exact absurd (List.self_eq_append_right.mp hSame) hRest
    · rw [isDirectoryIn] at hDirectory
      split at hDirectory
      · rename_i hLookup
        obtain ⟨before, after, hEntries, -⟩ := List.lookup_eq_some_iff.mp hLookup
        rw [hEntries]
        exact List.mem_append_right _ List.mem_cons_self
      · cases hDirectory

end Lookup

/-- Where a walk stops: at its end, or at a link. -/
inductive Stop (N : Type*) where
  | done (place : List N)
  | jump (target rest : List N)

def walk (tree : DirectoryTree N C) : List N → List N → Stop N
  | base, [] => .done base
  | base, name :: rest =>
    match tree.lookup (base ++ [name]) with
    | some (.link target) => .jump target rest
    | _ => tree.walk (base ++ [name]) rest

/-- The place that a path leads to from a directory, through at most so many links. -/
def realpath (tree : DirectoryTree N C) : Nat → List N → List N → List N
  | 0, base, path => base ++ path
  | links + 1, base, path =>
    match tree.walk base path with
    | .done place => place
    | .jump target rest => tree.realpath links [] (target ++ rest)

variable {links : Nat}

section Links

variable {base rest target : List N} {name : N}

theorem walk_cons_of_not_link (h : ∀ target, (base ++ [name], .link target) ∉ tree.entries) :
    tree.walk base (name :: rest) = tree.walk (base ++ [name]) rest := by
  rw [walk]
  split
  · rename_i target hLink
    exact absurd (mem_of_lookup hLink) (h target)
  · rfl

theorem walk_cons_of_link (h : (base ++ [name], .link target) ∈ tree.entries) :
    tree.walk base (name :: rest) = .jump target rest := by
  rw [walk, lookup_eq_some_iff.mpr h]

theorem walk_of_not_link
    (h : ∀ before, before <+: path → ∀ target, (base ++ before, .link target) ∉ tree.entries) :
    tree.walk base path = .done (base ++ path) := by
  induction path generalizing base with
  | nil => rw [walk, append_nil]
  | cons name path ih =>
    rw [walk_cons_of_not_link (h [name] (by simp)), ih, append_assoc, singleton_append]
    intro before hBefore target
    rw [append_assoc, singleton_append]
    exact h (name :: before) (cons_prefix_cons.mpr ⟨rfl, hBefore⟩) target

theorem realpath_of_not_link
    (h : ∀ before, before <+: path → ∀ target, (base ++ before, .link target) ∉ tree.entries) :
    tree.realpath links base path = base ++ path := by
  cases links with
  | zero => rfl
  | succ links => rw [realpath, walk_of_not_link h]

end Links

/-! ## Removal -/

variable {removed : List (List N)}

section Removal

def isIn (removed : List (List N)) (path : List N) : Bool :=
  removed.any fun directory => directory <+: path

theorem isIn_iff : isIn removed path ↔ ∃ directory ∈ removed, directory <+: path := by
  simp [isIn]

def removeAll (tree : DirectoryTree N C) (removed : List (List N)) : DirectoryTree N C where
  entries := tree.entries.filter fun entry => !isIn removed entry.1
  distinct := tree.distinct.sublist (List.filter_sublist.map Prod.fst)
  inside := by
    intro front rest node hMem hFront hRest
    obtain ⟨hMem, hStays⟩ := List.mem_filter.mp hMem
    refine List.mem_filter.mpr ⟨tree.inside front rest node hMem hFront hRest, ?_⟩
    simp only [Bool.not_eq_true', Bool.eq_false_iff, ne_eq, isIn_iff] at hStays ⊢
    rintro ⟨directory, hDirectory, hPrefix⟩
    exact hStays ⟨directory, hDirectory, hPrefix.trans (List.prefix_append _ _)⟩

theorem mem_removeAll : (path, node) ∈ (tree.removeAll removed).entries ↔
    (path, node) ∈ tree.entries ∧ ∀ directory ∈ removed, ¬ directory <+: path := by
  have hIn : (!isIn removed path) = true ↔ ∀ directory ∈ removed, ¬ directory <+: path := by
    rw [Bool.not_eq_true', Bool.eq_false_iff, ne_eq, isIn_iff]
    push Not
    rfl
  rw [removeAll, mem_filter, hIn]

@[simp] theorem removeAll_nil : tree.removeAll [] = tree := by
  have hEntries : (tree.removeAll []).entries = tree.entries := filter_true tree.entries
  cases tree
  simpa only [removeAll, mk.injEq] using hEntries

theorem removeAll_concat (directory : List N) :
    (tree.removeAll removed).removeAll [directory] = tree.removeAll (removed ++ [directory]) := by
  simp only [removeAll, mk.injEq, filter_filter]
  congr 1
  simp [isIn, any_append, Bool.and_comm]

variable {base rest : List N}

/-- Where a directory is gone, no link is met. -/
theorem walk_removeAll_below {directory : List N} (hDirectory : directory ∈ removed)
    (hBase : directory <+: base) :
    (tree.removeAll removed).walk base path = .done (base ++ path) := by
  refine walk_of_not_link fun before _ target hLink => ?_
  exact (mem_removeAll.mp hLink).2 directory hDirectory (hBase.trans (prefix_append _ _))

/-- A walk meets the same links, or it ends in a directory that is gone. -/
theorem walk_removeAll (tree : DirectoryTree N C) (removed : List (List N)) (base path : List N) :
    (tree.removeAll removed).walk base path = tree.walk base path ∨
      ∃ place, (tree.removeAll removed).walk base path = .done place ∧
        ∃ directory ∈ removed, directory <+: place := by
  induction path generalizing base with
  | nil => exact .inl rfl
  | cons name path ih =>
    by_cases hGone : ∃ directory ∈ removed, directory <+: base ++ [name]
    · obtain ⟨directory, hDirectory, hPrefix⟩ := hGone
      right
      refine ⟨base ++ [name] ++ path, ?_, directory, hDirectory, hPrefix.trans (prefix_append _ _)⟩
      rw [walk_cons_of_not_link, walk_removeAll_below hDirectory hPrefix]
      intro target hLink
      exact (mem_removeAll.mp hLink).2 directory hDirectory hPrefix
    · push Not at hGone
      by_cases hLink : ∃ target, (base ++ [name], TreeNode.link target) ∈ tree.entries
      · obtain ⟨target, hLink⟩ := hLink
        left
        rw [walk_cons_of_link hLink, walk_cons_of_link (mem_removeAll.mpr ⟨hLink, hGone⟩)]
      · push Not at hLink
        rw [walk_cons_of_not_link hLink, walk_cons_of_not_link]
        · exact ih (base ++ [name])
        · intro target hMem
          exact hLink target (mem_removeAll.mp hMem).1

/-- Without some directories, a path leads where it led, or into one of them. -/
theorem realpath_removeAll (tree : DirectoryTree N C) (removed : List (List N)) (links : Nat)
    (base path : List N) :
    (tree.removeAll removed).realpath links base path = tree.realpath links base path ∨
      ∃ directory ∈ removed, directory <+: (tree.removeAll removed).realpath links base path := by
  induction links generalizing base path with
  | zero => exact .inl rfl
  | succ links ih =>
    rcases walk_removeAll tree removed base path with hWalk | ⟨place, hWalk, hPlace⟩
    · rw [realpath, realpath, hWalk]
      cases tree.walk base path with
      | done place => exact .inl rfl
      | jump target rest => exact ih [] (target ++ rest)
    · right
      rw [realpath, hWalk]
      exact hPlace

end Removal

section Lost

def under (tree : DirectoryTree N C) (directory : List N) : List (List N × TreeNode N C) :=
  tree.entries.filter fun entry => directory <+: entry.1

def gone (before after : DirectoryTree N C) : List (List N × TreeNode N C) :=
  before.entries.filter fun entry => (after.lookup entry.1).isNone

theorem gone_removeAll (tree : DirectoryTree N C) (removed : List (List N)) :
    gone tree (tree.removeAll removed) = tree.entries.filter fun entry => isIn removed entry.1 := by
  refine filter_congr fun entry hEntry => ?_
  cases hLookup : (tree.removeAll removed).lookup entry.1 with
  | none =>
    have hNot : (entry.1, entry.2) ∉ (tree.removeAll removed).entries := by
      intro hMem
      rw [lookup_eq_some_iff.mpr hMem] at hLookup
      cases hLookup
    rw [mem_removeAll] at hNot
    push Not at hNot
    exact (isIn_iff.mpr (hNot hEntry)).symm
  | some node =>
    have hStays := (mem_removeAll.mp (mem_of_lookup hLookup)).2
    refine (Bool.eq_false_iff.mpr fun hIn => ?_).symm
    obtain ⟨directory, hDirectory, hPrefix⟩ := isIn_iff.mp hIn
    exact hStays directory hDirectory hPrefix

/-- What is lost with directories that lie apart is lost with one of them. -/
theorem sum_gone (weight : List N × TreeNode N C → Nat) (hApart : removed.Pairwise Apart) :
    ((gone tree (tree.removeAll removed)).map weight).sum =
      (removed.map fun directory => ((tree.under directory).map weight).sum).sum := by
  rw [gone_removeAll]
  induction removed with
  | nil => simp [isIn]
  | cons directory removed ih =>
    obtain ⟨hFirst, hRest⟩ := pairwise_cons.mp hApart
    have hOne : ∀ entry : List N × TreeNode N C, decide (directory <+: entry.1) = true →
        isIn removed entry.1 = false := by
      intro entry hPrefix
      refine Bool.eq_false_iff.mpr fun hIn => ?_
      obtain ⟨other, hOther, hOtherPrefix⟩ := isIn_iff.mp hIn
      rcases prefix_or_prefix_of_prefix (of_decide_eq_true hPrefix) hOtherPrefix with h | h
      · exact (hFirst other hOther).1 h
      · exact (hFirst other hOther).2 h
    rw [map_cons, sum_cons, ← ih hRest, under, ← sum_filter_or hOne]
    rfl

end Lost

/-! ## Files that are written -/

section Put

variable {other : List N} {content : C}

omit [DecidableEq N] in
def fronts (path : List N) : List (List N) :=
  (List.range (path.length - 1)).map fun n => path.take (n + 1)

omit [DecidableEq N] in
theorem mem_fronts :
    other ∈ fronts path ↔ other ≠ [] ∧ ∃ rest, rest ≠ [] ∧ other ++ rest = path := by
  rw [fronts, mem_map]
  constructor
  · rintro ⟨n, hn, rfl⟩
    rw [mem_range] at hn
    refine ⟨?_, path.drop (n + 1), ?_, take_append_drop _ _⟩
    · rw [Ne, take_eq_nil_iff]
      rintro (h | rfl)
      · omega
      · simp at hn
    · rw [Ne, drop_eq_nil_iff]
      omega
  · rintro ⟨hOther, rest, hRest, rfl⟩
    have hPos := length_pos_iff.mpr hOther
    have hRestPos := length_pos_iff.mpr hRest
    refine ⟨other.length - 1, ?_, ?_⟩
    · rw [mem_range, length_append]
      omega
    · rw [Nat.sub_add_cancel hPos, take_left]

omit [DecidableEq N] in
theorem nodup_fronts (path : List N) : (fronts path).Nodup := by
  refine Nodup.map_on ?_ nodup_range
  intro n hn m hm hEq
  rw [mem_range] at hn hm
  have hLength := congrArg List.length hEq
  simp only [length_take] at hLength
  omega

omit [DecidableEq N] in
theorem self_not_mem_fronts (path : List N) : path ∉ fronts path := by
  intro h
  obtain ⟨-, rest, hRest, hEq⟩ := mem_fronts.mp h
  exact hRest (append_right_eq_self.mp hEq)

/-- Can a file be written at the path, once the directories are made? No link is followed. -/
def canPut (tree : DirectoryTree N C) (path : List N) : Bool :=
  !path.isEmpty &&
    (match tree.lookup path with
      | none | some (.file _) => true
      | _ => false) &&
    (fronts path).all fun front =>
      match tree.lookup front with
      | none | some .directory => true
      | _ => false

theorem canPut_iff : tree.canPut path ↔ path ≠ [] ∧
    (∀ node, (path, node) ∈ tree.entries → ∃ content, node = .file content) ∧
      ∀ front ∈ fronts path, ∀ node, (front, node) ∈ tree.entries → node = .directory := by
  simp only [canPut, Bool.and_eq_true, Bool.not_eq_true', isEmpty_eq_false_iff,
    all_eq_true, and_assoc]
  refine and_congr_right fun _ => and_congr ?_ (forall₂_congr fun front _ => ?_)
  · simp only [← lookup_eq_some_iff]
    cases tree.lookup path with
    | none => simp
    | some node => cases node <;> simp
  · simp only [← lookup_eq_some_iff]
    cases tree.lookup front with
    | none => simp
    | some node => cases node <;> simp

def newFronts (tree : DirectoryTree N C) (path : List N) : List (List N) :=
  (fronts path).filter fun front => (tree.lookup front).isNone

theorem mem_newFronts {front : List N} : front ∈ tree.newFronts path ↔
    front ∈ fronts path ∧ ∀ node, (front, node) ∉ tree.entries := by
  rw [newFronts, mem_filter, Option.isNone_iff_eq_none, Option.eq_none_iff_forall_ne_some]
  simp only [ne_eq, lookup_eq_some_iff]

def putEntries (tree : DirectoryTree N C) (path : List N) (content : C) :
    List (List N × TreeNode N C) :=
  (path, .file content) :: (tree.newFronts path).map (fun front => (front, .directory)) ++
    tree.entries.filter fun entry => entry.1 ≠ path

theorem mem_putEntries : (other, node) ∈ tree.putEntries path content ↔
    other = path ∧ node = .file content ∨ other ∈ tree.newFronts path ∧ node = .directory ∨
      other ≠ path ∧ (other, node) ∈ tree.entries := by
  simp only [putEntries, cons_append, mem_cons, Prod.mk.injEq, mem_append,
    mem_map, mem_filter, decide_eq_true_eq]
  refine or_congr_right (or_congr ?_ and_comm)
  constructor
  · rintro ⟨front, hFront, rfl, rfl⟩
    exact ⟨hFront, rfl⟩
  · rintro ⟨hFront, rfl⟩
    exact ⟨other, hFront, rfl, rfl⟩

def put (tree : DirectoryTree N C) (path : List N) (content : C) (h : tree.canPut path) :
    DirectoryTree N C where
  entries := tree.putEntries path content
  distinct := by
    have hKeys : (tree.putEntries path content).map Prod.fst = path :: tree.newFronts path ++
        (tree.entries.filter fun entry => entry.1 ≠ path).map Prod.fst := by
      simp [putEntries, Function.comp_def]
    rw [hKeys, List.cons_append, List.nodup_cons, List.nodup_append]
    refine ⟨?_, (nodup_fronts path).filter _,
      tree.distinct.sublist (List.filter_sublist.map Prod.fst),
      ?_⟩
    · intro hMem
      rcases List.mem_append.mp hMem with hFront | hOld
      · exact self_not_mem_fronts path (mem_newFronts.mp hFront).1
      · obtain ⟨entry, hEntry, hPath⟩ := List.mem_map.mp hOld
        exact of_decide_eq_true (List.mem_filter.mp hEntry).2 hPath
    · rintro front hFront old hOld rfl
      obtain ⟨entry, hEntry, hPath⟩ := List.mem_map.mp hOld
      exact (mem_newFronts.mp hFront).2 entry.2 (hPath ▸ (List.mem_filter.mp hEntry).1)
  inside := by
    intro front rest node hMem hFront hRest
    obtain ⟨-, hSelf, hAbove⟩ := canPut_iff.mp h
    -- whatever stands above the path is a directory, old or new
    have hDirectory (hMemFronts : front ∈ fronts path) :
        (front, TreeNode.directory) ∈ tree.putEntries path content := by
      refine mem_putEntries.mpr (.inr ?_)
      by_cases hOld : ∃ node, (front, node) ∈ tree.entries
      · obtain ⟨old, hOld⟩ := hOld
        right
        refine ⟨fun hEq => self_not_mem_fronts path (hEq ▸ hMemFronts), ?_⟩
        exact hAbove front hMemFronts old hOld ▸ hOld
      · push Not at hOld
        exact .inl ⟨mem_newFronts.mpr ⟨hMemFronts, hOld⟩, rfl⟩
    rcases mem_putEntries.mp hMem with ⟨hPath, -⟩ | ⟨hNew, -⟩ | ⟨-, hOld⟩
    · exact hDirectory (mem_fronts.mpr ⟨hFront, rest, hRest, hPath⟩)
    · obtain ⟨-, more, -, hPath⟩ := mem_fronts.mp (mem_newFronts.mp hNew).1
      refine hDirectory (mem_fronts.mpr ⟨hFront, rest ++ more, ?_, ?_⟩)
      · exact List.append_ne_nil_of_left_ne_nil hRest _
      · rw [← hPath, List.append_assoc]
    · have hInside := tree.inside front rest node hOld hFront hRest
      refine mem_putEntries.mpr (.inr (.inr ⟨?_, hInside⟩))
      rintro rfl
      obtain ⟨content, hFile⟩ := hSelf _ hInside
      cases hFile

theorem mem_put (h : tree.canPut path) : (other, node) ∈ (tree.put path content h).entries ↔
    other = path ∧ node = .file content ∨ other ∈ tree.newFronts path ∧ node = .directory ∨
      other ≠ path ∧ (other, node) ∈ tree.entries := mem_putEntries

def leaf (tree : DirectoryTree N C) (path : List N) : Option (TreeNode N C) :=
  match tree.lookup path with
  | some .directory => none
  | found => found

theorem leaf_eq_some_iff : tree.leaf path = some node ↔
    (path, node) ∈ tree.entries ∧ node ≠ .directory := by
  rw [← lookup_eq_some_iff, leaf]
  cases tree.lookup path with
  | none => simp
  | some found =>
    cases found with
    | directory =>
      simp only [reduceCtorEq, Option.some.injEq, ne_eq, false_iff, not_and, not_not]
      rintro rfl
      rfl
    | file found =>
      simp only [Option.some.injEq, ne_eq, iff_self_and]
      nofun
    | link found =>
      simp only [Option.some.injEq, ne_eq, iff_self_and]
      nofun

/-- Writing a file changes that file, and makes nothing but directories. -/
theorem leaf_put (h : tree.canPut path) : (tree.put path content h).leaf other =
    if other = path then some (.file content) else tree.leaf other := by
  refine Option.ext fun node => ?_
  rw [leaf_eq_some_iff, mem_put]
  split
  · rename_i hEq
    constructor
    · rintro ⟨⟨-, rfl⟩ | ⟨hNew, -⟩ | ⟨hNe, -⟩, -⟩
      · rfl
      · exact absurd (hEq ▸ (mem_newFronts.mp hNew).1) (self_not_mem_fronts path)
      · exact absurd hEq hNe
    · rintro ⟨rfl⟩
      exact ⟨.inl ⟨hEq, rfl⟩, nofun⟩
  · rename_i hNe
    rw [leaf_eq_some_iff]
    constructor
    · rintro ⟨⟨hEq, -⟩ | ⟨-, rfl⟩ | ⟨-, hOld⟩, hLeaf⟩
      · exact absurd hEq hNe
      · exact absurd rfl hLeaf
      · exact ⟨hOld, hLeaf⟩
    · rintro ⟨hOld, hLeaf⟩
      exact ⟨.inr (.inr ⟨hNe, hOld⟩), hLeaf⟩

theorem mem_put_of_not_front (h : tree.canPut path) (hNe : other ≠ path)
    (hFront : other ∉ fronts path) :
    (other, node) ∈ (tree.put path content h).entries ↔ (other, node) ∈ tree.entries := by
  rw [mem_put]
  constructor
  · rintro (⟨hEq, -⟩ | ⟨hNew, -⟩ | ⟨-, hOld⟩)
    · exact absurd hEq hNe
    · exact absurd (mem_newFronts.mp hNew).1 hFront
    · exact hOld
  · intro hOld
    exact .inr (.inr ⟨hNe, hOld⟩)

theorem mem_put_front (h : tree.canPut path) (hFront : other ∈ fronts path) :
    (other, .directory) ∈ (tree.put path content h).entries := by
  obtain ⟨hOther, rest, hRest, hPath⟩ := mem_fronts.mp hFront
  have hMem : (other ++ rest, TreeNode.file content) ∈ (tree.put path content h).entries :=
    (mem_put h).mpr (.inl ⟨hPath, rfl⟩)
  exact (tree.put path content h).inside other rest _ hMem hOther hRest

end Put

end DirectoryTree

end Foundation
