import Glasslab.Foundation.Table
import Glasslab.Foundation.Sorting
import Mathlib.Data.String.Basic

/-!
# Documents

Trees of mappings, lists and scalars, such as a parsed YAML or JSON file. A path is a list of keys;
`follow` walks it through mappings, and `put` changes the value it leads to, with new mappings on
the way where there are none. Reading back what was put, and reading along a path that neither
extends the other nor is extended by it, are the two laws (`follow_put_self`,
`follow_put_of_apart`).
-/

namespace Foundation

open List Option

inductive Document (A : Type) where
  | scalar (a : A)
  | list (items : List (Document A))
  | map (entries : List (String × Document A))

namespace Document

variable {A : Type}

mutual

protected def decEq [DecidableEq A] : (a b : Document A) → Decidable (a = b)
  | scalar a, scalar b => decidable_of_iff (a = b) (by simp)
  | list xs, list ys =>
    have := Document.decEqList xs ys
    decidable_of_iff (xs = ys) (by simp)
  | map xs, map ys =>
    have := Document.decEqEntries xs ys
    decidable_of_iff (xs = ys) (by simp)
  | scalar _, list _ => .isFalse nofun
  | scalar _, map _ => .isFalse nofun
  | list _, scalar _ => .isFalse nofun
  | list _, map _ => .isFalse nofun
  | map _, scalar _ => .isFalse nofun
  | map _, list _ => .isFalse nofun

protected def decEqList [DecidableEq A] : (xs ys : List (Document A)) → Decidable (xs = ys)
  | [], [] => .isTrue rfl
  | [], _ :: _ => .isFalse nofun
  | _ :: _, [] => .isFalse nofun
  | x :: xs, y :: ys =>
    have := Document.decEq x y
    have := Document.decEqList xs ys
    decidable_of_iff (x = y ∧ xs = ys) (by simp)

protected def decEqEntries [DecidableEq A] :
    (xs ys : List (String × Document A)) → Decidable (xs = ys)
  | [], [] => .isTrue rfl
  | [], _ :: _ => .isFalse nofun
  | _ :: _, [] => .isFalse nofun
  | (a, x) :: xs, (b, y) :: ys =>
    have := Document.decEq x y
    have := Document.decEqEntries xs ys
    decidable_of_iff ((a = b ∧ x = y) ∧ xs = ys) (by simp)

end

instance [DecidableEq A] : DecidableEq (Document A) := Document.decEq

abbrev Entries (A : Type) := List (String × Document A)

def entries : Document A → Entries A
  | map entries => entries
  | _ => []

def isMap : Document A → Bool
  | map _ => true
  | _ => false

def follow : List String → Document A → Option (Document A)
  | [], d => some d
  | key :: path, map entries => (entries.lookup key).bind (follow path)
  | _ :: _, _ => none

/-- Make a mapping of every node above the end of the path, and assign a value there, if one is
given. -/
def put (value : Option (Document A)) : List String → Entries A → Entries A
  | [], node => node
  | [leaf], node =>
    match value with
    | none => node
    | some v => Dict.set leaf v node
  | key :: path, node =>
    Dict.set key (map (put value path (((node.lookup key).map entries).getD []))) node

mutual

/-- The document with its scalars rewritten and the keys of every mapping in order. Its spelling as
JSON with sorted keys is one to one with it. -/
def canonical (f : A → A) : Document A → Document A
  | scalar a => scalar (f a)
  | list items => list (canonicalItems f items)
  | map entries => map (sortOn Prod.fst (canonicalEntries f entries))

def canonicalItems (f : A → A) : List (Document A) → List (Document A)
  | [] => []
  | d :: rest => canonical f d :: canonicalItems f rest

def canonicalEntries (f : A → A) : Entries A → Entries A
  | [] => []
  | (key, d) :: rest => (key, canonical f d) :: canonicalEntries f rest

end

variable {p q : List String} {d v : Document A} {value : Option (Document A)} {node : Entries A}

theorem follow_cons (key : String) (p : List String) (es : Entries A) :
    follow (key :: p) (map es) = (es.lookup key).bind (follow p) := rfl

theorem put_leaf (key : String) : put (some v) [key] node = Dict.set key v node := rfl

theorem put_cons (key next : String) (p : List String) :
    put value (key :: next :: p) node =
      Dict.set key (map (put value (next :: p) (((node.lookup key).map entries).getD []))) node :=
  rfl

theorem follow_append (p q : List String) (d : Document A) :
    follow (p ++ q) d = (follow p d).bind (follow q) := by
  induction p generalizing d with
  | nil => rfl
  | cons key p ih =>
    cases d with
    | scalar a => rfl
    | list items => rfl
    | map entries =>
      rw [cons_append, follow_cons, follow_cons]
      cases entries.lookup key with
      | none => rfl
      | some child => exact ih child

theorem isMap_of_follow (hPath : p ≠ []) (h : follow p d = some v) : d.isMap = true := by
  cases p with
  | nil => exact absurd rfl hPath
  | cons key p =>
    cases d with
    | scalar a => cases h
    | list items => cases h
    | map entries => rfl

/-- Where a longer path leads, a shorter one leads to a mapping. -/
theorem isMap_of_follow_append (hRest : q ≠ []) (h : follow (p ++ q) d = some v) :
    ∃ m, follow p d = some m ∧ m.isMap = true := by
  rw [follow_append] at h
  obtain ⟨m, hm, hRestAt⟩ := bind_eq_some_iff.mp h
  exact ⟨m, hm, isMap_of_follow hRest hRestAt⟩

theorem follow_put_self (hPath : p ≠ []) : follow p (map (put (some v) p node)) = some v := by
  induction p generalizing node with
  | nil => exact absurd rfl hPath
  | cons key rest ih =>
    cases rest with
    | nil =>
      rw [put_leaf, follow_cons, Dict.lookup_set, if_pos rfl]
      rfl
    | cons key' rest =>
      rw [put_cons]
      simp only [follow_cons, Dict.lookup_set, if_true, bind_some]
      exact ih (by simp)

/-- Neither path extends the other. -/
def Apart (p q : List String) : Prop := ¬p <+: q ∧ ¬q <+: p

theorem Apart.symm (h : Apart p q) : Apart q p := ⟨h.2, h.1⟩

/-- What is found along other paths is left alone. -/
theorem follow_put_of_apart (h : Apart p q) :
    follow q (map (put value p node)) = follow q (map node) := by
  induction p generalizing q node with
  | nil => exact absurd (List.nil_prefix) h.1
  | cons key rest ih =>
    cases q with
    | nil => exact absurd (List.nil_prefix) h.2
    | cons key' q =>
      cases rest with
      | nil =>
        have hKey : key' ≠ key := by
          rintro rfl
          exact h.1 (by simp)
        cases value with
        | none => rfl
        | some v => simp [put_leaf, follow_cons, Dict.lookup_set, hKey]
      | cons next rest =>
        simp only [put_cons, follow_cons, Dict.lookup_set]
        split
        next hKey =>
          subst hKey
          have hApart : Apart (next :: rest) q := by
            simpa [Apart, cons_prefix_cons] using h
          have hq : q ≠ [] := by
            rintro rfl
            exact hApart.2 nil_prefix
          rw [bind_some, ih hApart]
          cases node.lookup key' with
          | none =>
            cases q with
            | nil => exact absurd rfl hq
            | cons _ _ => rfl
          | some child => cases hRest : q with
      | nil => exact absurd hRest hq
      | cons key q => cases child <;> rfl
        next => rfl

/-- Above a path there are only mappings after a change at it. -/
theorem follow_put_of_prefix (h : p <+: q) (hNe : p ≠ q) :
    ∃ es, follow p (map (put value q node)) = some (map es) := by
  induction q generalizing p node with
  | nil => exact absurd (prefix_nil.mp h) hNe
  | cons key rest ih =>
    cases p with
    | nil => exact ⟨_, rfl⟩
    | cons key' p =>
      obtain ⟨rfl, hRest⟩ := cons_prefix_cons.mp h
      have hNeRest : p ≠ rest := fun hEq => hNe (hEq ▸ rfl)
      cases rest with
      | nil => exact absurd (prefix_nil.mp hRest) hNeRest
      | cons next rest =>
        rw [put_cons]
        simp only [follow_cons, Dict.lookup_set, if_true, bind_some]
        exact ih hRest hNeRest

/-- Below something that is not a mapping there is nothing. -/
theorem follow_eq_none_of_prefix (h : p <+: q) (hNe : p ≠ q) (hFollow : follow p d = some v)
    (hMap : v.isMap = false) : follow q d = none := by
  obtain ⟨rest, rfl⟩ := h
  have hRest : rest ≠ [] := by
    rintro rfl
    exact hNe (append_nil p).symm
  cases hEnd : follow (p ++ rest) d with
  | none => rfl
  | some w =>
    obtain ⟨m, hm, hIsMap⟩ := isMap_of_follow_append hRest hEnd
    rw [hFollow] at hm
    cases hm
    rw [hMap] at hIsMap
    cases hIsMap

/-- Nothing changes where the path leads somewhere already and no value is given. -/
theorem put_none (h : (follow p (map node)).isSome = true) : put none p node = node := by
  induction p generalizing node with
  | nil => rfl
  | cons key rest ih =>
    cases rest with
    | nil => rfl
    | cons next rest =>
      rw [follow_cons] at h
      cases hChild : node.lookup key with
      | none =>
        rw [hChild] at h
        cases h
      | some child =>
        rw [hChild, bind_some] at h
        cases child with
        | scalar a => cases h
        | list items => cases h
        | map entries =>
          have hRest := ih h
          simp only [put_cons, hChild, map_some, getD_some, Document.entries]
          rw [hRest]
          exact Dict.set_of_lookup hChild

section Canonical

variable {f : A → A} {es es' : Entries A}

theorem lookup_canonicalEntries (key : String) :
    (canonicalEntries f es).lookup key = (es.lookup key).map (canonical f) := by
  induction es with
  | nil => rfl
  | cons entry es ih =>
    rw [canonicalEntries, lookup_cons_if, lookup_cons_if, ih]
    split <;> rfl

theorem keys_canonicalEntries : (canonicalEntries f es).map Prod.fst = es.map Prod.fst := by
  induction es with
  | nil => rfl
  | cons entry es ih =>
    rw [canonicalEntries, map_cons, ih]
    rfl

/-- The order of distinct keys does not matter for what is found under one. -/
theorem lookup_eq_of_perm (hNodup : (es.map Prod.fst).Nodup) (hPerm : es.Perm es') (key : String) :
    es.lookup key = es'.lookup key := by
  have hNodup' : (es'.map Prod.fst).Nodup := (hPerm.map Prod.fst).nodup_iff.mp hNodup
  let table : Table String (Document A) := ⟨es, hNodup⟩
  let table' : Table String (Document A) := ⟨es', hNodup'⟩
  have hFind : ∀ d, table.find key = some d ↔ table'.find key = some d := by
    intro d
    rw [Table.find_eq_some_iff, Table.find_eq_some_iff]
    exact hPerm.mem_iff
  exact Option.ext hFind

/-- Mappings with one canonical form have values with one canonical form under every key. -/
theorem lookup_of_canonical_eq (hNodup : (es.map Prod.fst).Nodup)
    (hNodup' : (es'.map Prod.fst).Nodup)
    (h : canonical f (map es) = canonical f (map es')) (key : String) :
    (es.lookup key).map (canonical f) = (es'.lookup key).map (canonical f) := by
  rw [canonical, canonical, map.injEq] at h
  have hSorted : ∀ {es : Entries A}, (es.map Prod.fst).Nodup →
      (es.lookup key).map (canonical f) =
        (sortOn Prod.fst (canonicalEntries f es)).lookup key := by
    intro es hNodup
    rw [← lookup_canonicalEntries]
    refine lookup_eq_of_perm ?_ (perm_sortOn Prod.fst _).symm key
    rw [keys_canonicalEntries]
    exact hNodup
  rw [hSorted hNodup, hSorted hNodup', h]

end Canonical

end Document

end Foundation
