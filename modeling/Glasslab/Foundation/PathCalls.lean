import Glasslab.Foundation.LinkedTree

/-!
# Calls on relative paths

A program works below one directory and names what it means by relative paths, which the system
refuses when they are too long. `makeDirectories` makes a directory and whatever is missing above
it, by trying the directory itself first and its parent when that fails.

It succeeds exactly where the path opens: a front of the path leads to a directory, and the rest is
free below it (`makeDirectories_eq_ok_iff`). What it makes is then that rest.
-/

namespace Foundation

open LinkedTree List

structure Workdir (N : Type*) where
  base : List N
  /-- The links that may be followed on the way from the directory. -/
  links : Nat
  tooLong : List N → Bool
  tooLong_nil : tooLong [] = false
  tooLong_append : ∀ front rest, tooLong front → tooLong (front ++ rest)

namespace Workdir

variable {N C : Type*} [DecidableEq N] (dir : Workdir N) (tree : LinkedTree N C)

/-- The place that a path leads to. -/
def lead (names : List N) : Except Errno (List N) :=
  if dir.tooLong names then .error .nameTooLong
  else (tree.walk dir.links dir.base (names.map .down)).map Prod.fst

/-- Most failures to find out count as no. -/
def isDir (names : List N) : Except Errno Bool :=
  match dir.lead tree names with
  | .ok place =>
    match tree.node place with
    | some .directory => .ok true
    | _ => .ok false
  | .error .nameTooLong => .error .nameTooLong
  | .error _ => .ok false

def mkdir (front : List N) (name : N) : Except Errno (LinkedTree N C) :=
  if dir.tooLong (front ++ [name]) then .error .nameTooLong
  else
    match dir.lead tree front with
    | .error e => .error e
    | .ok place =>
      match hDirectory : tree.node place with
      | some .directory =>
        match hOld : tree.node (place ++ [name]) with
        | none => .ok (tree.put place name .directory hDirectory (by simp [hOld]))
        | some _ => .error .exists
      | _ => .error .notDirectory

/-- What a failed `mkdir` comes to where the directory may be there already. -/
def excuse (e : Errno) (names : List N) : Except Errno (LinkedTree N C) :=
  match dir.isDir tree names with
  | .ok true => .ok tree
  | .ok false => .error e
  | .error e => .error e

/-- Make a directory that may be there, in a directory that must be. -/
def mkdirExisting (front : List N) (name : N) : Except Errno (LinkedTree N C) :=
  match dir.mkdir tree front name with
  | .ok tree => .ok tree
  | .error e => if e = .missing then .error e else dir.excuse tree e (front ++ [name])

def makeDirectories (tree : LinkedTree N C) : List N → Except Errno (LinkedTree N C)
  -- the directory the program works in is there
  | [] => .ok tree
  | name :: above =>
    match dir.mkdir tree above.reverse name with
    | .ok tree => .ok tree
    | .error e =>
      if e = .missing then do
        let tree ← makeDirectories tree above
        dir.mkdirExisting tree above.reverse name
      else dir.excuse tree e (above.reverse ++ [name])

end Workdir

section Opens

variable {N C : Type*} {dir : Workdir N} {tree : LinkedTree N C}
  {names front rest place place' rest' : List N} {name : N}

/-- A front of the path leads to a directory, below which the rest is free. -/
structure Opens (dir : Workdir N) (tree : LinkedTree N C) (names place rest : List N) : Prop where
  walked : ∃ front left, names = front ++ rest ∧
    tree.walk dir.links dir.base (front.map .down) = .ok (place, left)
  directory : tree.node place = some .directory
  free : tree.Free place rest

/-- Below the place where a path opens nothing is found. -/
theorem Opens.walk (h : Opens dir tree names place (name :: rest)) :
    tree.walk dir.links dir.base (names.map .down) = .error .missing := by
  obtain ⟨front, left, rfl, hWalk⟩ := h.walked
  rw [map_append, walk_append, hWalk]
  exact walk_missing h.directory (h.free name rest rfl)

theorem Opens.unique (h : Opens dir tree names place rest)
    (h' : Opens dir tree names place' rest') :
    place = place' ∧ rest = rest' := by
  have hShorter : ∀ {place place' rest rest' : List N}, Opens dir tree names place rest →
      Opens dir tree names place' rest' → rest'.length ≤ rest.length →
        place = place' ∧ rest = rest' := by
    intro place place' rest rest' h h' hLength
    obtain ⟨front, left, hNames, hWalk⟩ := h.walked
    obtain ⟨front', left', hNames', hWalk'⟩ := h'.walked
    have hSuffix : rest' <:+ rest :=
      suffix_of_suffix_length_le ⟨front', hNames'.symm⟩ ⟨front, hNames.symm⟩ hLength
    obtain ⟨middle, rfl⟩ := hSuffix
    have hFront : front' = front ++ middle := by
      rw [hNames, ← append_assoc] at hNames'
      exact (append_cancel_right hNames').symm
    cases middle with
    | nil =>
      rw [hFront, append_nil, hWalk] at hWalk'
      cases hWalk'
      exact ⟨rfl, rfl⟩
    | cons name middle =>
      rw [hFront, map_append, walk_append, hWalk] at hWalk'
      have hMissing : tree.walk left place ((name :: middle).map .down) = .error .missing :=
        walk_missing h.directory (h.free name (middle ++ rest') rfl)
      rw [Except.bind, hMissing] at hWalk'
      cases hWalk'
  rcases le_total rest'.length rest.length with hLe | hLe
  · exact hShorter h h' hLe
  · obtain ⟨rfl, rfl⟩ := hShorter h' h hLe
    exact ⟨rfl, rfl⟩

end Opens

/-! ## Making directories -/

section Make

variable {N C : Type} {dir : Workdir N} {tree tree' : LinkedTree N C}
  {names front rest place : List N} {name : N} {e : Errno}

theorem Workdir.tooLong_of_append (h : dir.tooLong (front ++ rest) = false) :
    dir.tooLong front = false := by
  by_contra hLong
  rw [Bool.not_eq_false] at hLong
  rw [dir.tooLong_append front rest hLong] at h
  cases h

theorem Workdir.lead_eq_ok_iff : dir.lead tree names = .ok place ↔ dir.tooLong names = false ∧
    ∃ left, tree.walk dir.links dir.base (names.map .down) = .ok (place, left) := by
  rw [Workdir.lead]
  cases dir.tooLong names with
  | true => simp
  | false =>
    cases hWalk : tree.walk dir.links dir.base (names.map .down) with
    | error e => simp [Except.map]
    | ok r =>
      obtain ⟨place', left⟩ := r
      simp [Except.map]

theorem Workdir.lead_of_grows (h : Grows tree tree') (hLead : dir.lead tree names = .ok place) :
    dir.lead tree' names = .ok place := by
  obtain ⟨hLong, left, hWalk⟩ := lead_eq_ok_iff.mp hLead
  exact lead_eq_ok_iff.mpr ⟨hLong, left, walk_of_grows h hWalk⟩

theorem Workdir.isDir_eq_true_iff : dir.isDir tree names = .ok true ↔
    ∃ place, dir.lead tree names = .ok place ∧ tree.node place = some .directory := by
  rw [Workdir.isDir]
  cases hLead : dir.lead tree names with
  | error e => cases e <;> simp
  | ok place =>
    cases hNode : tree.node place with
    | none => simp [hNode]
    | some node => cases node <;> simp [hNode]

theorem Workdir.excuse_eq_ok_iff : dir.excuse tree e names = .ok tree' ↔
    dir.isDir tree names = .ok true ∧ tree' = tree := by
  rw [Workdir.excuse]
  cases dir.isDir tree names with
  | error e => simp
  | ok found => cases found <;> simp [eq_comm]

variable [DecidableEq N]

/-- Where `mkdir` succeeds, it makes a chain of one. -/
theorem Workdir.mkdir_eq_ok_iff : dir.mkdir tree front name = .ok tree' ↔
    dir.tooLong (front ++ [name]) = false ∧ ∃ place, dir.lead tree front = .ok place ∧
      ∃ (hDirectory : tree.node place = some .directory) (hFree : tree.Free place [name]),
        tree' = tree.made place [name] hDirectory hFree := by
  rw [Workdir.mkdir]
  cases hLong : dir.tooLong (front ++ [name]) with
  | true => simp
  | false =>
    cases hLead : dir.lead tree front with
    | error e => simp
    | ok place =>
      simp only [Bool.false_eq_true, if_false, true_and, Except.ok.injEq, exists_eq_left']
      split
      · rename_i hDirectory
        split
        · rename_i hOld
          rw [Except.ok.injEq, put_directory _ (free_single hOld)]
          constructor
          · rintro rfl
            exact ⟨hDirectory, free_single hOld, rfl⟩
          · rintro ⟨-, -, rfl⟩
            rfl
        · rename_i hOld
          simp only [reduceCtorEq, false_iff, not_exists]
          intro _ hFree
          rw [hFree name [] rfl] at hOld
          cases hOld
      · rename_i hDirectory
        simp only [reduceCtorEq, false_iff, not_exists]
        intro h
        exact absurd h hDirectory

theorem Workdir.mkdir_eq_missing (h : dir.mkdir tree front name = .error .missing) :
    dir.tooLong (front ++ [name]) = false ∧
      tree.walk dir.links dir.base (front.map .down) = .error .missing := by
  rw [Workdir.mkdir] at h
  cases hLong : dir.tooLong (front ++ [name]) with
  | true =>
    rw [hLong] at h
    cases h
  | false =>
    refine ⟨rfl, ?_⟩
    simp only [hLong, Bool.false_eq_true, if_false, Workdir.lead, tooLong_of_append hLong] at h
    cases hWalk : tree.walk dir.links dir.base (front.map .down) with
    | error e =>
      simp only [hWalk, Except.map] at h
      rw [Except.error.inj h]
    | ok r =>
      simp only [hWalk, Except.map] at h
      split at h
      · split at h
        · cases h
        · cases h
      · cases h

omit [DecidableEq N] in
/-- A path opens at its end, or with its last name free. -/
theorem Opens.concat (h : Opens dir tree (names ++ [name]) place rest) :
    rest = [] ∨ ∃ rest', rest = rest' ++ [name] ∧ Opens dir tree names place rest' := by
  rcases eq_nil_or_concat' rest with rfl | ⟨rest', last, rfl⟩
  · exact .inl rfl
  · obtain ⟨front, left, hNames, hWalk⟩ := h.walked
    rw [← append_assoc] at hNames
    obtain ⟨hFront, hLast⟩ := append_inj' hNames rfl
    cases singleton_inj.mp hLast
    refine .inr ⟨rest', rfl, ⟨front, left, hFront, hWalk⟩, h.directory, ?_⟩
    intro first more hEq
    exact h.free first (more ++ [name]) (by rw [hEq, cons_append])

omit [DecidableEq N] in
theorem opens_nil_iff : Opens dir tree names place [] ↔ tree.node place = some .directory ∧
    ∃ left, tree.walk dir.links dir.base (names.map .down) = .ok (place, left) := by
  constructor
  · intro h
    obtain ⟨front, left, hNames, hWalk⟩ := h.walked
    rw [append_nil] at hNames
    exact ⟨h.directory, left, hNames ▸ hWalk⟩
  · rintro ⟨hDirectory, left, hWalk⟩
    exact ⟨⟨names, left, (append_nil _).symm, hWalk⟩, hDirectory, free_nil⟩

/-- When what is free of a path is made, the path leads there. -/
theorem Opens.lead_made (h : Opens dir tree names place rest) (hLong : dir.tooLong names = false) :
    dir.lead (tree.made place rest h.directory h.free) names = .ok (place ++ rest) := by
  obtain ⟨front, left, hNames, hWalk⟩ := h.walked
  refine Workdir.lead_eq_ok_iff.mpr ⟨hLong, left, ?_⟩
  have hPath : names.map PathStep.down = front.map .down ++ rest.map .down := by
    rw [hNames, map_append]
  rw [hPath, walk_append, walk_of_grows grows_made hWalk]
  exact walk_made left

/-- Below a chain that was made, the next directory is made as well. -/
theorem Opens.mkdir_made (h : Opens dir tree names place rest) (hRest : rest ≠ [])
    (hLong : dir.tooLong (names ++ [name]) = false) (hWhole : tree.Free place (rest ++ [name])) :
    dir.mkdir (tree.made place rest h.directory h.free) names name =
      .ok (tree.made place (rest ++ [name]) h.directory hWhole) := by
  have hLead := h.lead_made (Workdir.tooLong_of_append hLong)
  have hBelow : (tree.made place rest h.directory h.free).node (place ++ rest ++ [name]) = none :=
    node_made_below hRest name
  refine Workdir.mkdir_eq_ok_iff.mpr ⟨hLong, place ++ rest, hLead, node_made_end,
    free_single hBelow, ?_⟩
  exact (made_concat node_made_end (free_single hBelow) hWhole).symm

theorem Workdir.makeDirectories_eq_ok_iff (hBase : tree.node dir.base = some .directory) :
    dir.makeDirectories tree names.reverse = .ok tree' ↔ dir.tooLong names = false ∧
      ∃ place rest, ∃ h : Opens dir tree names place rest,
        tree' = tree.made place rest h.directory h.free := by
  induction names using List.reverseRecOn generalizing tree' with
  | nil =>
    rw [reverse_nil, Workdir.makeDirectories, dir.tooLong_nil, Except.ok.injEq]
    have hOpens : Opens dir tree [] dir.base [] := opens_nil_iff.mpr ⟨hBase, dir.links, walk_nil⟩
    constructor
    · rintro rfl
      exact ⟨rfl, dir.base, [], hOpens, (made_nil hOpens.free).symm⟩
    · rintro ⟨-, place, rest, h, rfl⟩
      obtain ⟨rfl, rfl⟩ := h.unique hOpens
      exact (made_nil h.free).symm
  | append_singleton names name ih =>
    rw [reverse_append, reverse_singleton, singleton_append, Workdir.makeDirectories,
      reverse_reverse]
    cases hMkdir : dir.mkdir tree names name with
    | ok made =>
      obtain ⟨hLong, place, hLead, hDirectory, hFree, rfl⟩ := mkdir_eq_ok_iff.mp hMkdir
      obtain ⟨-, left, hWalk⟩ := lead_eq_ok_iff.mp hLead
      have hOpens : Opens dir tree (names ++ [name]) place [name] :=
        ⟨⟨names, left, rfl, hWalk⟩, hDirectory, hFree⟩
      rw [Except.ok.injEq]
      constructor
      · rintro rfl
        exact ⟨hLong, place, [name], hOpens, rfl⟩
      · rintro ⟨-, place', rest', h, rfl⟩
        obtain ⟨rfl, rfl⟩ := hOpens.unique h
        rfl
    | error e =>
      by_cases hMissing : e = .missing
      · -- the parent is made first
        subst hMissing
        obtain ⟨hLong, hWalk⟩ := mkdir_eq_missing hMkdir
        have hNotNil {place rest} (h : Opens dir tree names place rest) : rest ≠ [] := by
          rintro rfl
          obtain ⟨-, left, hOk⟩ := opens_nil_iff.mp h
          rw [hWalk] at hOk
          cases hOk
        dsimp only
        rw [if_pos rfl, Raising.bind_eq_ok_iff]
        simp only [ih]
        constructor
        · rintro ⟨above, ⟨-, place, rest, h, rfl⟩, hAgain⟩
          have hWhole : tree.Free place (rest ++ [name]) := by
            intro first more hEq
            obtain ⟨first', rest, rfl⟩ := exists_cons_of_ne_nil (hNotNil h)
            cases hEq
            exact h.free first rest rfl
          rw [mkdirExisting, h.mkdir_made (hNotNil h) hLong hWhole] at hAgain
          obtain ⟨front, left, hNames, hFront⟩ := h.walked
          have hOpens : Opens dir tree (names ++ [name]) place (rest ++ [name]) :=
            ⟨⟨front, left, by rw [hNames, append_assoc], hFront⟩, h.directory, hWhole⟩
          exact ⟨hLong, place, rest ++ [name], hOpens, (Except.ok.inj hAgain).symm⟩
        · rintro ⟨-, place, rest, h, rfl⟩
          rcases h.concat with rfl | ⟨rest, rfl, hAbove⟩
          · obtain ⟨-, left, hOk⟩ := opens_nil_iff.mp h
            rw [map_append, walk_append, hWalk] at hOk
            cases hOk
          · refine ⟨_, ⟨tooLong_of_append hLong, place, rest, hAbove, rfl⟩, ?_⟩
            rw [mkdirExisting, hAbove.mkdir_made (hNotNil hAbove) hLong h.free]
      · -- nothing is made: the path leads to a directory already, or the failure stands
        dsimp only
        rw [if_neg hMissing, excuse_eq_ok_iff, isDir_eq_true_iff]
        constructor
        · rintro ⟨⟨place, hLead, hDirectory⟩, rfl⟩
          obtain ⟨hLong, hWalk⟩ := lead_eq_ok_iff.mp hLead
          have hOpens := opens_nil_iff.mpr ⟨hDirectory, hWalk⟩
          exact ⟨hLong, place, [], hOpens, (made_nil hOpens.free).symm⟩
        · rintro ⟨hLong, place, rest, h, rfl⟩
          rcases h.concat with rfl | ⟨rest, rfl, hAbove⟩
          · obtain ⟨hDirectory, hWalk⟩ := opens_nil_iff.mp h
            exact ⟨⟨place, lead_eq_ok_iff.mpr ⟨hLong, hWalk⟩, hDirectory⟩, made_nil h.free⟩
          · exfalso
            cases rest with
            | nil =>
              obtain ⟨hDirectory, hWalk⟩ := opens_nil_iff.mp hAbove
              have hOk := mkdir_eq_ok_iff.mpr ⟨hLong, place,
                lead_eq_ok_iff.mpr ⟨tooLong_of_append hLong, hWalk⟩, hDirectory, h.free, rfl⟩
              rw [hMkdir] at hOk
              cases hOk
            | cons first rest =>
              have hError : dir.mkdir tree names name = .error .missing := by
                rw [mkdir, hLong, lead, tooLong_of_append hLong, hAbove.walk]
                rfl
              rw [hMkdir] at hError
              exact hMissing (Except.error.inj hError)

end Make

end Foundation
