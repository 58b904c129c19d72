import Glasslab.Foundation.Raising
import Mathlib.Data.List.Infix

/-!
# File systems with symbolic links

A file system tells what stands at each real path: a file, a link or a directory. It is closed:
what stands somewhere stands in a directory. `walk` resolves a path as the system does, through
any links on the way and at most so many of them.
-/

namespace Foundation

open List Option

inductive PathStep (N : Type*) where
  | down (name : N)
  | up

/-- A link keeps its text: whether it starts at the top, and what to walk from there. -/
inductive LinkedNode (N C : Type*) where
  | file (content : C)
  | link (absolute : Bool) (target : List (PathStep N))
  | directory

inductive Errno where
  | missing
  | «exists»
  | notDirectory
  | isDirectory
  | tooManyLinks
  | nameTooLong
  deriving DecidableEq, Repr

structure LinkedTree (N C : Type*) where
  node : List N → Option (LinkedNode N C)
  root : node [] = some .directory
  closed : ∀ path name, node (path ++ [name]) ≠ none → node path = some .directory

namespace LinkedTree

variable {N C : Type*} {tree tree' : LinkedTree N C} {base path place rest front : List N}
  {name : N}

theorem ext_node (h : ∀ path, tree.node path = tree'.node path) : tree = tree' := by
  cases tree
  congr
  funext path
  exact h path

/-- Nothing stands below a free path. -/
theorem node_append_of_none (h : tree.node path = none) (rest : List N) :
    tree.node (path ++ rest) = none := by
  induction rest using List.reverseRecOn with
  | nil => rwa [append_nil]
  | append_singleton rest name ih =>
    by_contra hNode
    rw [← append_assoc] at hNode
    rw [tree.closed _ _ hNode] at ih
    cases ih

/-- Where the part of a walk up to its first link ends. -/
inductive Stop (N : Type*) where
  | at (place : List N)
  | jump (base : List N) (steps : List (PathStep N))
  | fail (e : Errno)

def scan (tree : LinkedTree N C) : List N → List (PathStep N) → Stop N
  | base, [] => .at base
  | base, step :: steps =>
    match tree.node base with
    | some .directory =>
      match step with
      | .up => tree.scan base.dropLast steps
      | .down name =>
        match tree.node (base ++ [name]) with
        | none => .fail .missing
        | some (.link absolute target) => .jump (if absolute then [] else base) (target ++ steps)
        | some _ => tree.scan (base ++ [name]) steps
    | _ => .fail .notDirectory

/-- Follow a path, through at most so many links: where it leads, and how many links are left. -/
def walk (tree : LinkedTree N C) : Nat → List N → List (PathStep N) → Except Errno (List N × Nat)
  | 0, base, steps =>
    match tree.scan base steps with
    | .at place => .ok (place, 0)
    | .jump _ _ => .error .tooManyLinks
    | .fail e => .error e
  | links + 1, base, steps =>
    match tree.scan base steps with
    | .at place => .ok (place, links + 1)
    | .jump base steps => tree.walk links base steps
    | .fail e => .error e

variable {steps more : List (PathStep N)} {links left : Nat}

theorem scan_append : tree.scan base (steps ++ more) =
    match tree.scan base steps with
    | .at place => tree.scan place more
    | .jump base rest => .jump base (rest ++ more)
    | .fail e => .fail e := by
  induction steps generalizing base with
  | nil => rfl
  | cons step steps ih =>
    simp only [cons_append, scan]
    split
    · cases step with
      | up => exact ih
      | down name =>
        dsimp only
        split
        · rfl
        · simp only [append_assoc]
        · exact ih
    · rfl

/-- A walk goes on where its first part led, with the links that are left. -/
theorem walk_append : tree.walk links base (steps ++ more) =
    (tree.walk links base steps).bind fun r => tree.walk r.2 r.1 more := by
  induction links generalizing base steps with
  | zero =>
    simp only [walk, scan_append]
    cases tree.scan base steps <;> rfl
  | succ links ih =>
    simp only [walk, scan_append]
    cases hScan : tree.scan base steps with
    | «at» place => rfl
    | fail e => rfl
    | jump base' steps' => exact ih

theorem walk_nil : tree.walk links base [] = .ok (base, links) := by
  cases links <;> rfl

theorem walk_missing (hDirectory : tree.node base = some .directory)
    (hNone : tree.node (base ++ [name]) = none) :
    tree.walk links base (.down name :: steps) = .error .missing := by
  have hScan : tree.scan base (.down name :: steps) = .fail .missing := by
    simp [scan, hDirectory, hNone]
  cases links <;> simp [walk, hScan]

variable {node : LinkedNode N C}

theorem walk_down (hDirectory : tree.node base = some .directory)
    (hNode : tree.node (base ++ [name]) = some node) (hLink : ∀ a t, node ≠ .link a t) :
    tree.walk links base (.down name :: steps) = tree.walk links (base ++ [name]) steps := by
  have hScan : tree.scan base (.down name :: steps) = tree.scan (base ++ [name]) steps := by
    cases node with
    | link a t => exact absurd rfl (hLink a t)
    | file content => simp [scan, hDirectory, hNode]
    | directory => simp [scan, hDirectory, hNode]
  cases links <;> simp [walk, hScan]

/-- What stands somewhere, but for the content of a file. -/
def kind : LinkedNode N C → LinkedNode N Unit
  | .file _ => .file ()
  | .link absolute target => .link absolute target
  | .directory => .directory

/-- Whatever stands in one file system stands in the other, files perhaps with other contents. -/
def Grows (tree tree' : LinkedTree N C) : Prop :=
  ∀ path found, (tree.node path).map kind = some found → (tree'.node path).map kind = some found

theorem Grows.refl (tree : LinkedTree N C) : Grows tree tree := fun _ _ h => h

theorem Grows.trans {tree'' : LinkedTree N C} (h : Grows tree tree') (h' : Grows tree' tree'') :
    Grows tree tree'' := fun path found hFound => h' path found (h path found hFound)

theorem kind_eq_directory : kind node = .directory ↔ node = .directory := by
  cases node <;> simp [kind]

theorem kind_eq_link {absolute : Bool} {target : List (PathStep N)} :
    kind node = .link absolute target ↔ node = .link absolute target := by
  cases node <;> simp [kind]

section

variable (h : Grows tree tree')
include h

theorem Grows.directory (hNode : tree.node path = some .directory) :
    tree'.node path = some .directory := by
  have hMap := h path .directory (by rw [hNode]; rfl)
  obtain ⟨node, hNode', hKind⟩ := map_eq_some_iff.mp hMap
  rw [hNode', kind_eq_directory.mp hKind]

theorem Grows.ne_none (hNode : tree.node path ≠ none) :
    tree'.node path ≠ none := by
  obtain ⟨node, hNode⟩ := ne_none_iff_exists'.mp hNode
  have hMap := h path (kind node) (by rw [hNode]; rfl)
  obtain ⟨node', hNode', -⟩ := map_eq_some_iff.mp hMap
  rw [hNode']
  exact some_ne_none node'

theorem scan_of_grows (hScan : ∀ e, tree.scan base steps ≠ .fail e) :
    tree'.scan base steps = tree.scan base steps := by
  induction steps generalizing base with
  | nil => rfl
  | cons step steps ih =>
    by_cases hDirectory : tree.node base = some .directory
    · have hDirectory' := h.directory hDirectory
      cases step with
      | up =>
        simp only [scan, hDirectory, hDirectory'] at hScan ⊢
        exact ih hScan
      | down name =>
        simp only [scan, hDirectory, hDirectory'] at hScan ⊢
        cases hNode : tree.node (base ++ [name]) with
        | none =>
          rw [hNode] at hScan
          exact absurd rfl (hScan .missing)
        | some node =>
          have hMap := h (base ++ [name]) (kind node) (by rw [hNode]; rfl)
          obtain ⟨node', hNode', hKind⟩ := map_eq_some_iff.mp hMap
          rw [hNode] at hScan
          rw [hNode']
          cases node with
          | link absolute target => rw [kind_eq_link.mp hKind]
          | directory =>
            rw [kind_eq_directory.mp hKind]
            exact ih hScan
          | file content =>
            cases node' with
            | file content' => exact ih hScan
            | link absolute target => cases hKind
            | directory => cases hKind
    · exact absurd (by simp only [scan]) (hScan .notDirectory)

theorem walk_of_grows (hWalk : tree.walk links base steps = .ok (place, left)) :
    tree'.walk links base steps = .ok (place, left) := by
  induction links generalizing base steps with
  | zero =>
    rw [walk] at hWalk ⊢
    rw [scan_of_grows h]
    · exact hWalk
    · intro e hFail
      rw [hFail] at hWalk
      cases hWalk
  | succ links ih =>
    rw [walk] at hWalk ⊢
    rw [scan_of_grows h]
    · cases hScan : tree.scan base steps with
      | «at» place' =>
        rw [hScan] at hWalk
        exact hWalk
      | fail e =>
        rw [hScan] at hWalk
        cases hWalk
      | jump base' steps' =>
        rw [hScan] at hWalk
        exact ih hWalk
    · intro e hFail
      rw [hFail] at hWalk
      cases hWalk

end

/-! ## Adding -/

variable [DecidableEq N]

def put (tree : LinkedTree N C) (place : List N) (name : N) (new : LinkedNode N C)
    (hDirectory : tree.node place = some .directory)
    (hOld : tree.node (place ++ [name]) ≠ some .directory) : LinkedTree N C where
  node path := if path = place ++ [name] then some new else tree.node path
  root := by simp [tree.root]
  closed := by
    intro path name' hNode
    split at hNode
    · rename_i hEq
      obtain ⟨rfl, -⟩ := List.append_inj' hEq rfl
      simp [hDirectory]
    · have hPath := tree.closed path name' hNode
      rw [if_neg, hPath]
      rintro rfl
      exact hOld hPath

def isNew (place rest path : List N) : Bool :=
  place <+: path ∧ path <+: place ++ rest ∧ path ≠ place

theorem isNew_iff :
    isNew place rest path ↔ ∃ front, front ≠ [] ∧ front <+: rest ∧ path = place ++ front := by
  simp only [isNew, decide_eq_true_eq]
  constructor
  · rintro ⟨⟨front, rfl⟩, hPrefix, hNe⟩
    refine ⟨front, ?_, (prefix_append_right_inj place).mp hPrefix, rfl⟩
    rintro rfl
    exact hNe (append_nil place)
  · rintro ⟨front, hFront, hPrefix, rfl⟩
    refine ⟨prefix_append _ _, (prefix_append_right_inj place).mpr hPrefix, ?_⟩
    exact fun hEq => hFront (append_right_eq_self.mp hEq)

def Free (tree : LinkedTree N C) (place rest : List N) : Prop :=
  ∀ name more, rest = name :: more → tree.node (place ++ [name]) = none

omit [DecidableEq N] in
theorem Free.node_eq_none (h : tree.Free place rest) (hFront : front ≠ [])
    (hPrefix : front <+: rest) :
    tree.node (place ++ front) = none := by
  obtain ⟨name, front, rfl⟩ := exists_cons_of_ne_nil hFront
  obtain ⟨more, rfl⟩ := hPrefix
  have hNone := node_append_of_none (h name (front ++ more) rfl) front
  rwa [append_assoc] at hNone

/-- The file system with a chain of new directories. -/
def made (tree : LinkedTree N C) (place rest : List N)
    (hDirectory : tree.node place = some .directory)
    (hFree : tree.Free place rest) : LinkedTree N C where
  node path := if isNew place rest path then some .directory else tree.node path
  root := by simp [tree.root]
  closed := by
    intro path name hNode
    split at hNode
    · rename_i hNew
      obtain ⟨front, hFront, hPrefix, hPath⟩ := isNew_iff.mp hNew
      obtain ⟨front, last, rfl⟩ := (List.eq_nil_or_concat' front).resolve_left hFront
      rw [← List.append_assoc] at hPath
      obtain ⟨rfl, -⟩ := List.append_inj' hPath rfl
      by_cases hEmpty : front = []
      · subst hEmpty
        simp [hDirectory]
      · have hAbove : isNew place rest (place ++ front) :=
          isNew_iff.mpr ⟨front, hEmpty, (List.prefix_append _ _).trans hPrefix, rfl⟩
        rw [if_pos hAbove]
    · have hPath := tree.closed path name hNode
      rw [if_neg, hPath]
      intro hNew
      obtain ⟨front, hFront, hPrefix, rfl⟩ := isNew_iff.mp hNew
      rw [hFree.node_eq_none hFront hPrefix] at hPath
      cases hPath

section Made

variable {hDirectory : tree.node place = some .directory} {hFree : tree.Free place rest}

theorem node_made : (tree.made place rest hDirectory hFree).node path =
    if isNew place rest path then some .directory else tree.node path := rfl

theorem node_made_of_ne_none (h : tree.node path ≠ none) :
    (tree.made place rest hDirectory hFree).node path = tree.node path := by
  rw [node_made, if_neg]
  intro hNew
  obtain ⟨front, hFront, hPrefix, rfl⟩ := isNew_iff.mp hNew
  exact h (hFree.node_eq_none hFront hPrefix)

theorem grows_made : Grows tree (tree.made place rest hDirectory hFree) := by
  intro path found hFound
  rw [node_made_of_ne_none, hFound]
  rintro hNone
  rw [hNone] at hFound
  cases hFound

theorem made_nil (hFree : tree.Free place []) : tree.made place [] hDirectory hFree = tree := by
  apply ext_node
  intro path
  rw [node_made, if_neg]
  intro hNew
  obtain ⟨front, hFront, hPrefix, -⟩ := isNew_iff.mp hNew
  exact hFront (prefix_nil.mp hPrefix)

theorem node_made_end : (tree.made place rest hDirectory hFree).node (place ++ rest) =
    some .directory := by
  rw [node_made]
  by_cases hRest : rest = []
  · subst hRest
    simp [hDirectory]
  · rw [if_pos (isNew_iff.mpr ⟨rest, hRest, prefix_rfl, rfl⟩)]

theorem node_made_other : (tree.made place rest hDirectory hFree).node (place ++ rest ++ [name]) =
    tree.node (place ++ rest ++ [name]) := by
  rw [node_made, if_neg]
  intro hNew
  obtain ⟨front, -, hPrefix, hEq⟩ := isNew_iff.mp hNew
  rw [append_assoc, append_cancel_left_eq] at hEq
  have hLength := hPrefix.length_le
  rw [← hEq, length_append, length_singleton] at hLength
  omega

/-- Nothing stands in the directory at the end of a chain that is not empty. -/
theorem node_made_below (hRest : rest ≠ []) (name : N) :
    (tree.made place rest hDirectory hFree).node (place ++ rest ++ [name]) = none := by
  rw [node_made_other]
  exact node_append_of_none (hFree.node_eq_none hRest prefix_rfl) [name]

theorem walk_made (links : Nat) :
    (tree.made place rest hDirectory hFree).walk links place (rest.map .down) =
      .ok (place ++ rest, links) := by
  have hPart : ∀ front, front <+: rest →
      (tree.made place rest hDirectory hFree).walk links place (front.map .down) =
        .ok (place ++ front, links) := by
    intro front
    induction front using List.reverseRecOn with
    | nil =>
      intro _
      rw [map_nil, walk_nil, append_nil]
    | append_singleton front name ih =>
      intro hPrefix
      have hFront : front <+: rest := (prefix_append _ _).trans hPrefix
      have hName : (tree.made place rest hDirectory hFree).node (place ++ front ++ [name]) =
          some .directory := by
        rw [node_made, if_pos]
        exact isNew_iff.mpr ⟨front ++ [name], by simp, hPrefix, append_assoc _ _ _⟩
      have hAbove := (tree.made place rest hDirectory hFree).closed _ _
        (by rw [hName]; exact some_ne_none _)
      rw [map_append, walk_append, ih hFront]
      show walk _ links (place ++ front) [.down name] = _
      rw [walk_down hAbove hName nofun, walk_nil, append_assoc]
  exact hPart rest prefix_rfl

theorem made_concat (hDirectory' : (tree.made place rest hDirectory hFree).node (place ++ rest) =
      some .directory) (hFree' :
    (tree.made place rest hDirectory hFree).Free (place ++ rest) [name])
    (hWhole : tree.Free place (rest ++ [name])) :
    (tree.made place rest hDirectory hFree).made (place ++ rest) [name] hDirectory' hFree' =
      tree.made place (rest ++ [name]) hDirectory hWhole := by
  apply ext_node
  intro path
  have hNew : isNew place (rest ++ [name]) path ↔
      isNew (place ++ rest) [name] path ∨ isNew place rest path := by
    simp only [isNew_iff]
    constructor
    · rintro ⟨front, hFront, hPrefix, rfl⟩
      rcases prefix_concat_iff.mp hPrefix with rfl | hRest
      · exact .inl ⟨[name], by simp, prefix_rfl, (append_assoc _ _ _).symm⟩
      · exact .inr ⟨front, hFront, hRest, rfl⟩
    · rintro (⟨front, hFront, hPrefix, rfl⟩ | ⟨front, hFront, hPrefix, rfl⟩)
      · exact ⟨rest ++ front, by simp [hFront], (prefix_append_right_inj rest).mpr hPrefix,
          append_assoc _ _ _⟩
      · exact ⟨front, hFront, hPrefix.trans (prefix_append _ _), rfl⟩
  simp only [node_made, hNew]
  by_cases hLast : isNew (place ++ rest) [name] path
  · simp [hLast]
  · simp [hLast]

theorem put_directory (hOld : tree.node (place ++ [name]) ≠ some .directory)
    (hFree : tree.Free place [name]) : tree.put place name .directory hDirectory hOld =
      tree.made place [name] hDirectory hFree := by
  apply ext_node
  intro path
  have hNew : isNew place [name] path ↔ path = place ++ [name] := by
    rw [isNew_iff]
    constructor
    · rintro ⟨front, hFront, hPrefix, rfl⟩
      rcases prefix_concat_iff.mp (show front <+: [] ++ [name] from hPrefix) with rfl | hNil
      · rfl
      · exact absurd (prefix_nil.mp hNil) hFront
    · rintro rfl
      exact ⟨[name], cons_ne_nil _ _, prefix_rfl, rfl⟩
  rw [node_made]
  simp only [hNew]
  rfl

end Made

omit [DecidableEq N] in
theorem free_single (h : tree.node (place ++ [name]) = none) : tree.Free place [name] := by
  intro first more hEq
  cases hEq
  exact h

omit [DecidableEq N] in
theorem free_nil : tree.Free place [] := nofun

end LinkedTree

end Foundation
