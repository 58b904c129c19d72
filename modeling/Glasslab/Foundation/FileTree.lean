import Mathlib.Data.List.Infix
import Mathlib.Data.List.Pairwise

/-!
# File trees with symbolic links

A tree is the list of its files, links and empty directories under their paths; the other
directories are the paths above these. Nothing stands below a file or a link, and a link is given
by the real path it leads to in the end. `realpath` walks a path and jumps at every link.
-/

namespace Foundation

open List

inductive TreeNode (N C : Type*) where
  | file (content : C)
  | link (target : List N)
  | directory

/-- Neither path lies on the way to the other. -/
def Apart {N : Type*} (a b : List N) : Prop := ¬ a <+: b ∧ ¬ b <+: a

structure FileTree (N C : Type*) where
  entries : List (List N × TreeNode N C)
  apart : entries.Pairwise fun a b => Apart a.1 b.1
  /-- A link's target has no link on its way. -/
  real : ∀ path target, (path, .link target) ∈ entries →
    ∀ other next, (other, .link next) ∈ entries → ¬ other <+: target

variable {N C : Type*} [DecidableEq N]

namespace FileTree

variable {tree : FileTree N C} {base path other rest more target : List N} {node : TreeNode N C}
  {content : C}

def lookup (tree : FileTree N C) (path : List N) : Option (TreeNode N C) :=
  tree.entries.lookup path

omit [DecidableEq N] in
/-- Nothing stands below an entry. -/
theorem eq_of_isPrefix {node' : TreeNode N C} (h : (path, node) ∈ tree.entries)
    (h' : (other, node') ∈ tree.entries) (hPrefix : path <+: other) :
    path = other ∧ node = node' := by
  by_contra hNe
  have hEntries : (path, node) ≠ (other, node') := fun hEq => hNe (Prod.mk.inj hEq)
  have : Std.Symm fun a b : List N × TreeNode N C => Apart a.1 b.1 := ⟨fun _ _ hab => hab.symm⟩
  exact (tree.apart.forall h h' hEntries).1 hPrefix

theorem lookup_eq_some_iff : tree.lookup path = some node ↔ (path, node) ∈ tree.entries := by
  constructor
  · intro h
    obtain ⟨before, after, hEntries, -⟩ := List.lookup_eq_some_iff.mp h
    rw [hEntries]
    exact mem_append_right _ mem_cons_self
  · intro h
    cases hLookup : tree.lookup path with
    | none =>
      have hNone := lookup_eq_none_iff.mp hLookup _ h
      simp at hNone
    | some node' =>
      obtain ⟨before, after, hEntries, -⟩ := List.lookup_eq_some_iff.mp hLookup
      have hMem : (path, node') ∈ tree.entries := by
        rw [hEntries]
        exact mem_append_right _ mem_cons_self
      rw [(tree.eq_of_isPrefix h hMem (prefix_refl path)).2]

/-- The place that a path leads to from a real directory. -/
def realpath (tree : FileTree N C) : List N → List N → List N
  | base, [] => base
  | base, name :: rest =>
    match tree.lookup (base ++ [name]) with
    | some (.link target) => tree.realpath target rest
    | _ => tree.realpath (base ++ [name]) rest

def read (tree : FileTree N C) (base path : List N) : Option C :=
  match tree.lookup (tree.realpath base path) with
  | some (.file content) => some content
  | _ => none

theorem realpath_append : tree.realpath base (path ++ more) =
    tree.realpath (tree.realpath base path) more := by
  induction path generalizing base with
  | nil => rfl
  | cons name path ih =>
    simp only [cons_append, realpath]
    split
    · exact ih
    · exact ih

theorem realpath_cons_of_not_link {name : N}
    (h : ∀ target, (base ++ [name], .link target) ∉ tree.entries) :
    tree.realpath base (name :: rest) = tree.realpath (base ++ [name]) rest := by
  rw [realpath]
  split
  · rename_i target hLink
    exact absurd (lookup_eq_some_iff.mp hLink) (h target)
  · rfl

theorem realpath_of_not_link
    (h : ∀ before, before <+: path → ∀ target, (base ++ before, .link target) ∉ tree.entries) :
    tree.realpath base path = base ++ path := by
  induction path generalizing base with
  | nil => rw [realpath, append_nil]
  | cons name path ih =>
    rw [realpath_cons_of_not_link (h [name] (by simp))]
    rw [ih, append_assoc, singleton_append]
    intro before hBefore target
    rw [append_assoc, singleton_append]
    exact h (name :: before) (cons_prefix_cons.mpr ⟨rfl, hBefore⟩) target

theorem realpath_of_mem (h : (base ++ path, node) ∈ tree.entries)
    (hNode : ∀ target, node ≠ .link target) : tree.realpath base path = base ++ path := by
  refine realpath_of_not_link fun before hBefore target hLink => ?_
  have hPrefix : base ++ before <+: base ++ path := (prefix_append_right_inj base).mpr hBefore
  exact hNode target (tree.eq_of_isPrefix hLink h hPrefix).2.symm

theorem realpath_below (h : (base, node) ∈ tree.entries) :
    tree.realpath base path = base ++ path := by
  cases path with
  | nil => rw [realpath, append_nil]
  | cons name path =>
    have hNone (before target) : (base ++ name :: before, .link target) ∉ tree.entries := by
      intro hLink
      have hEq := (tree.eq_of_isPrefix h hLink (prefix_append _ _)).1
      exact absurd (self_eq_append_right.mp hEq) (cons_ne_nil _ _)
    rw [realpath_cons_of_not_link (hNone [])]
    rw [realpath_of_not_link, append_assoc, singleton_append]
    intro before _ target
    rw [append_assoc, singleton_append]
    exact hNone before target

theorem realpath_of_link (hPath : path ≠ []) (h : (base ++ path, .link target) ∈ tree.entries)
    (rest : List N) : tree.realpath base (path ++ rest) = tree.realpath target rest := by
  rw [realpath_append]
  obtain ⟨front, name, rfl⟩ := (eq_nil_or_concat path).resolve_left hPath
  have hFront : tree.realpath base front = base ++ front := by
    refine realpath_of_not_link fun before hBefore next hLink => ?_
    have hPrefix : base ++ before <+: base ++ front.concat name :=
      (prefix_append_right_inj base).mpr
        (hBefore.trans (by rw [concat_eq_append]; exact prefix_append _ _))
    have hLength := congrArg List.length (tree.eq_of_isPrefix hLink h hPrefix).1
    have hShort := hBefore.length_le
    simp only [length_append, length_concat] at hLength
    omega
  rw [concat_eq_append, ← append_assoc] at h
  rw [concat_eq_append, realpath_append, hFront, realpath, lookup_eq_some_iff.mpr h]
  rfl

theorem read_eq_some_iff : tree.read base path = some content ↔
    (tree.realpath base path, .file content) ∈ tree.entries := by
  rw [read, ← lookup_eq_some_iff]
  split
  · rename_i found hFound
    rw [hFound]
    simp
  · rename_i hNone
    constructor
    · intro h
      cases h
    · intro h
      exact absurd h (hNone content)

theorem read_of_mem (h : (base ++ path, .file content) ∈ tree.entries) :
    tree.read base path = some content := by
  rw [read_eq_some_iff, realpath_of_mem h (by simp)]
  exact h

theorem file_or_link_of_read (h : tree.read base path = some content) :
    (base ++ path, .file content) ∈ tree.entries ∨
      ∃ before rest target, path = before ++ rest ∧ (base ++ before, .link target) ∈
        tree.entries := by
  by_cases hLink : ∃ before, before <+: path ∧ ∃ target,
      (base ++ before, TreeNode.link target) ∈ tree.entries
  · obtain ⟨before, ⟨rest, rfl⟩, target, hMem⟩ := hLink
    exact .inr ⟨before, rest, target, rfl, hMem⟩
  · left
    have hReal : tree.realpath base path = base ++ path :=
      realpath_of_not_link fun before hBefore target hMem => hLink ⟨before, hBefore, target, hMem⟩
    rwa [read_eq_some_iff, hReal] at h

theorem eq_nil_of_read {content' : C} (h : tree.read base path = some content)
    (hMore : tree.read base (path ++ more) = some content') : more = [] := by
  rw [read_eq_some_iff] at h hMore
  rw [realpath_append, realpath_below h] at hMore
  have hEq := (tree.eq_of_isPrefix h hMore (prefix_append _ _)).1
  exact self_eq_append_right.mp hEq

/-! ## Copies behind links -/

section Divert

variable (base hidden : List N) (wanted : List (List N)) (copy : List N → C)

def divertNode (path : List N) : TreeNode N C → TreeNode N C
  | .file content =>
    match base.isPrefixOf? path with
    | some relative => if relative ∈ wanted then .file (copy relative) else .file content
    | none => .file content
  | .link target =>
    match base.isPrefixOf? path with
    | some relative => .link (base ++ hidden ++ relative)
    | none => .link target
  | .directory => .directory

def isFileAt (tree : FileTree N C) (path : List N) : Bool :=
  match tree.lookup path with
  | some (.file _) => true
  | _ => false

def divertEntries (tree : FileTree N C) : List (List N × TreeNode N C) :=
  tree.entries.map (fun entry => (entry.1, divertNode base hidden wanted copy entry.1 entry.2)) ++
    (wanted.filter fun path => !tree.isFileAt (base ++ path)).map
      fun path => (base ++ hidden ++ path, .file (copy path))

variable {base hidden wanted copy}

theorem divertNode_eq_link (h : divertNode base hidden wanted copy path node = .link target) :
    (∃ relative, path = base ++ relative ∧ target = base ++ hidden ++ relative ∧
      ∃ old, node = .link old) ∨ node = .link target := by
  cases node with
  | file content =>
    simp only [divertNode] at h
    split at h
    · split at h <;> cases h
    · cases h
  | link old =>
    simp only [divertNode] at h
    split at h
    · rename_i relative hRelative
      have hPath := List.isPrefixOf?_eq_some_iff_append_eq.mp hRelative
      exact .inl ⟨relative, hPath.symm, (TreeNode.link.inj h).symm, old, rfl⟩
    · exact .inr h
  | directory => cases h

theorem mem_divertEntries_link
    (h : (path, .link target) ∈ divertEntries base hidden wanted copy tree) :
    ∃ old, (path, .link old) ∈ tree.entries ∧
      ((∃ relative, target = base ++ hidden ++ relative) ∨ target = old) := by
  rcases mem_append.mp h with h | h
  · obtain ⟨⟨path', node⟩, hMem, hEq⟩ := mem_map.mp h
    obtain ⟨rfl, hNode⟩ := Prod.mk.inj hEq
    rcases divertNode_eq_link hNode with ⟨relative, -, hTarget, old, rfl⟩ | rfl
    · exact ⟨old, hMem, .inl ⟨relative, hTarget⟩⟩
    · exact ⟨target, hMem, .inr rfl⟩
  · obtain ⟨path', -, hEq⟩ := mem_map.mp h
    cases (Prod.mk.inj hEq).2

/-- The tree whose links below `base` all lead into a hidden directory with the copies. -/
def divert (tree : FileTree N C) (base hidden : List N) (wanted : List (List N))
    (copy : List N → C)
    (hHidden : ∀ entry ∈ tree.entries, ∀ rest, Apart entry.1 (base ++ hidden ++ rest))
    (hWanted : wanted.Nodup)
    (hReads : ∀ path ∈ wanted, ∃ content, tree.read base path = some content) :
    FileTree N C where
  entries := divertEntries base hidden wanted copy tree
  apart := by
    refine List.pairwise_append.mpr ⟨?_, ?_, ?_⟩
    · exact List.pairwise_map.mpr tree.apart
    · refine List.pairwise_map.mpr (List.Pairwise.imp_of_mem ?_ (hWanted.filter _))
      intro a b ha hb hNe
      -- of two copies none is below the other: no file is read below a file
      have hNot (c d : List N) (hc : c ∈ wanted) (hd : d ∈ wanted) (hNe : c ≠ d) :
          ¬ base ++ hidden ++ c <+: base ++ hidden ++ d := by
        intro hPrefix
        obtain ⟨more, rfl⟩ := (List.prefix_append_right_inj _).mp hPrefix
        obtain ⟨content, hRead⟩ := hReads c hc
        obtain ⟨content', hRead'⟩ := hReads (c ++ more) hd
        rw [eq_nil_of_read hRead hRead', List.append_nil] at hNe
        exact hNe rfl
      have ha := (List.mem_filter.mp ha).1
      have hb := (List.mem_filter.mp hb).1
      exact ⟨hNot a b ha hb hNe, hNot b a hb ha hNe.symm⟩
    · intro a ha b hb
      obtain ⟨entry, hEntry, rfl⟩ := List.mem_map.mp ha
      obtain ⟨path, -, rfl⟩ := List.mem_map.mp hb
      exact hHidden entry hEntry path
  real := by
    intro path target hLink other next hOther hPrefix
    obtain ⟨old, hMem, hTarget⟩ := mem_divertEntries_link hLink
    obtain ⟨oldNext, hOtherMem, -⟩ := mem_divertEntries_link hOther
    rcases hTarget with ⟨relative, rfl⟩ | rfl
    · exact (hHidden _ hOtherMem relative).1 hPrefix
    · exact tree.real path target hMem other oldNext hOtherMem hPrefix

omit [DecidableEq N] in
/-- A link stands strictly below `base`. -/
theorem ne_nil_of_link
    (hHidden : ∀ entry ∈ tree.entries, ∀ rest, Apart entry.1 (base ++ hidden ++ rest))
    (h : (base ++ path, .link target) ∈ tree.entries) : path ≠ [] := by
  rintro rfl
  refine (hHidden _ h []).1 ?_
  rw [append_nil, append_nil]
  exact prefix_append _ _

section Reading

variable (copy)
  (hHidden : ∀ entry ∈ tree.entries, ∀ rest, Apart entry.1 (base ++ hidden ++ rest))
  (hWanted : wanted.Nodup)
  (hReads : ∀ path ∈ wanted, ∃ content, tree.read base path = some content)

theorem mem_divert (h : (path, node) ∈ tree.entries) :
    (path, divertNode base hidden wanted copy path node) ∈
      (tree.divert base hidden wanted copy hHidden hWanted hReads).entries :=
  mem_append_left _ (mem_map.mpr ⟨(path, node), h, rfl⟩)

theorem mem_divert_link (h : (base ++ path, .link target) ∈ tree.entries) :
    (base ++ path, .link (base ++ hidden ++ path)) ∈
      (tree.divert base hidden wanted copy hHidden hWanted hReads).entries := by
  have hMem := mem_divert copy hHidden hWanted hReads h
  have hPrefix : base.isPrefixOf? (base ++ path) = some path :=
    List.isPrefixOf?_eq_some_iff_append_eq.mpr rfl
  simpa only [divertNode, hPrefix] using hMem

theorem mem_divert_file (h : (base ++ path, .file content) ∈ tree.entries) :
    (base ++ path, .file (if path ∈ wanted then copy path else content)) ∈
      (tree.divert base hidden wanted copy hHidden hWanted hReads).entries := by
  have hMem := mem_divert copy hHidden hWanted hReads h
  have hPrefix : base.isPrefixOf? (base ++ path) = some path :=
    List.isPrefixOf?_eq_some_iff_append_eq.mpr rfl
  simp only [divertNode, hPrefix] at hMem
  split
  · rwa [if_pos ‹_›] at hMem
  · rwa [if_neg ‹_›] at hMem

theorem mem_divert_hidden
    (h : (base ++ hidden ++ rest, node) ∈
      (tree.divert base hidden wanted copy hHidden hWanted hReads).entries) : rest ∈ wanted := by
  rcases mem_append.mp h with h | h
  · obtain ⟨entry, hEntry, hEq⟩ := mem_map.mp h
    have hPath : entry.1 = base ++ hidden ++ rest := congrArg Prod.fst hEq
    exact absurd (hPath ▸ prefix_refl _) (hHidden entry hEntry rest).1
  · obtain ⟨path, hPath, hEq⟩ := mem_map.mp h
    have hRest : path = rest := append_cancel_left (congrArg Prod.fst hEq)
    exact hRest ▸ (mem_filter.mp hPath).1

theorem realpath_divert (h : path ∈ wanted) :
    ∃ place, (tree.divert base hidden wanted copy hHidden hWanted hReads).realpath base path =
        base ++ place ∧
      (base ++ place, .file (copy path)) ∈
        (tree.divert base hidden wanted copy hHidden hWanted hReads).entries := by
  obtain ⟨content, hRead⟩ := hReads path h
  rcases file_or_link_of_read hRead with hFile | ⟨before, rest, target, hPath, hLink⟩
  · have hMem := mem_divert_file copy hHidden hWanted hReads hFile
    rw [if_pos h] at hMem
    exact ⟨path, realpath_of_mem hMem (by simp), hMem⟩
  · -- the link comes first, so the path itself is no file and has a copy
    have hNotFile : tree.isFileAt (base ++ path) = false := by
      rw [isFileAt]
      split
      · rename_i found hFound
        have hPrefix : base ++ before <+: base ++ path := by
          rw [hPath, ← append_assoc]
          exact prefix_append _ _
        cases (tree.eq_of_isPrefix hLink (lookup_eq_some_iff.mp hFound) hPrefix).2
      · rfl
    have hCopy : (base ++ (hidden ++ path), TreeNode.file (copy path)) ∈
        (tree.divert base hidden wanted copy hHidden hWanted hReads).entries := by
      refine mem_append_right _ (mem_map.mpr ⟨path, ?_, by rw [append_assoc]⟩)
      exact mem_filter.mpr ⟨h, by rw [hNotFile]; rfl⟩
    refine ⟨hidden ++ path, ?_, hCopy⟩
    have hJump := realpath_of_link (ne_nil_of_link hHidden hLink)
      (mem_divert_link copy hHidden hWanted hReads hLink) rest
    rw [hPath] at hCopy ⊢
    rw [hJump]
    rw [← append_assoc, ← append_assoc] at hCopy
    rw [realpath_of_mem hCopy (by simp)]
    simp only [append_assoc]

theorem read_divert (h : path ∈ wanted) :
    (tree.divert base hidden wanted copy hHidden hWanted hReads).read base path =
      some (copy path) := by
  obtain ⟨place, hPlace, hMem⟩ := realpath_divert copy hHidden hWanted hReads h
  rw [read_eq_some_iff, hPlace]
  exact hMem

/-- Of the other entries, the files read as before, and nothing is read through the links. -/
theorem read_divert_of_mem (h : (base ++ path, node) ∈ tree.entries) (hPath : path ∉ wanted) :
    (tree.divert base hidden wanted copy hHidden hWanted hReads).read base path =
      match node with
      | .file content => some content
      | _ => none := by
  cases node with
  | file content =>
    have hMem := mem_divert_file copy hHidden hWanted hReads h
    rw [if_neg hPath] at hMem
    exact read_of_mem hMem
  | link target =>
    have hJump := realpath_of_link (ne_nil_of_link hHidden h)
      (mem_divert_link copy hHidden hWanted hReads h) []
    rw [append_nil, realpath] at hJump
    refine Option.eq_none_iff_forall_ne_some.mpr fun content hRead => ?_
    rw [read_eq_some_iff, hJump] at hRead
    exact hPath (mem_divert_hidden copy hHidden hWanted hReads hRead)
  | directory =>
    have hMem := mem_divert copy hHidden hWanted hReads h
    rw [divertNode] at hMem
    refine Option.eq_none_iff_forall_ne_some.mpr fun content hRead => ?_
    rw [read_eq_some_iff, realpath_of_mem hMem (by simp)] at hRead
    cases (eq_of_isPrefix hMem hRead (prefix_refl _)).2

end Reading

end Divert

end FileTree

end Foundation
