import Mathlib.Data.List.TakeWhile
import Mathlib.Data.String.Basic

/-!
# Pure paths

A text as a path: its anchor, which is empty where the path is relative, and its names, without
those that are empty or a dot. A path that is joined to a root is relative to it
(`isRelativeTo_join`), and a relative path that is written out has its names again
(`namesOf_asPosix`).
-/

namespace Foundation

open List

structure PurePath where
  anchor : String
  names : List String
  deriving DecidableEq, Repr

/-- One slash, and three or more, are one root; two slashes are a root of their own. -/
def anchorOf (text : List Char) : String :=
  match (text.takeWhile (· = '/')).length with
  | 0 => ""
  | 2 => "//"
  | _ => "/"

def namesOf (text : List Char) : List String :=
  ((text.splitOn '/').map String.ofList).filter fun name => name ≠ "" ∧ name ≠ "."

def parsePath (text : String) : PurePath := ⟨anchorOf text.toList, namesOf text.toList⟩

namespace PurePath

def isAbsolute (path : PurePath) : Bool := path.anchor ≠ ""

def asPosix (path : PurePath) : String :=
  if path.anchor = "" ∧ path.names = [] then "."
  else path.anchor ++ "/".intercalate path.names

def isRelativeTo (path root : PurePath) : Bool :=
  path.anchor = root.anchor ∧ root.names <+: path.names

end PurePath

variable {root sub : String} {text rest : List Char}

theorem namesOf_append_cons : namesOf (text ++ '/' :: rest) = namesOf text ++ namesOf rest := by
  unfold namesOf
  rw [splitOn_append_cons_self, map_append, filter_append]

theorem exists_ne_slash (h : namesOf text ≠ []) : ∃ c ∈ text, c ≠ '/' := by
  by_contra hNone
  push Not at hNone
  apply h
  induction text with
  | nil => rfl
  | cons c text ih =>
    obtain rfl := hNone c mem_cons_self
    have hRest : namesOf text = [] := by
      by_contra hNames
      exact hNames (ih hNames fun d hd => hNone d (mem_cons_of_mem _ hd))
    have hHead : namesOf ([] ++ '/' :: text) = namesOf [] ++ namesOf text := namesOf_append_cons
    rw [nil_append, hRest] at hHead
    rw [hHead]
    rfl

/-- The anchor is decided by what comes before the first name. -/
theorem anchorOf_append (h : namesOf text ≠ []) : anchorOf (text ++ rest) = anchorOf text := by
  obtain ⟨c, hMem, hNe⟩ := exists_ne_slash h
  unfold anchorOf
  rw [takeWhile_append, if_neg]
  intro hAll
  have hSame : text.takeWhile (· = '/') = text :=
    (List.takeWhile_prefix _).eq_of_length hAll
  have hSlash := mem_takeWhile_imp (hSame ▸ hMem)
  exact hNe (of_decide_eq_true hSlash)

theorem isRelativeTo_join (h : (parsePath root).names ≠ []) :
    (parsePath (root ++ "/" ++ sub)).isRelativeTo (parsePath root) = true := by
  have hText : (root ++ "/" ++ sub).toList = root.toList ++ '/' :: sub.toList := by
    simp
  have hNames : (parsePath (root ++ "/" ++ sub)).names =
      (parsePath root).names ++ (parsePath sub).names := by
    unfold parsePath
    rw [hText]
    exact namesOf_append_cons
  have hAnchor : (parsePath (root ++ "/" ++ sub)).anchor = (parsePath root).anchor := by
    unfold parsePath
    rw [hText]
    exact anchorOf_append h
  unfold PurePath.isRelativeTo
  rw [decide_eq_true_eq, hNames]
  exact ⟨hAnchor, prefix_append _ _⟩

theorem not_mem_of_mem_splitOn {l : List Char} (h : l ∈ text.splitOn '/') : '/' ∉ l := by
  induction text generalizing l with
  | nil =>
    rw [splitOn_nil, mem_singleton] at h
    subst h
    exact not_mem_nil
  | cons c text ih =>
    rw [splitOn_cons_eq_if_modifyHead] at h
    split at h
    · rcases mem_cons.mp h with rfl | hRest
      · exact not_mem_nil
      · exact ih hRest
    next hSlash =>
      obtain ⟨first, more, hSplit⟩ := exists_cons_of_ne_nil (splitOn_ne_nil '/' text)
      rw [hSplit, modifyHead_cons] at h
      rcases mem_cons.mp h with rfl | hRest
      · rw [mem_cons]
        rintro (rfl | hMem)
        · exact hSlash (beq_self_eq_true _)
        · exact ih (hSplit ▸ mem_cons_self) hMem
      · exact ih (hSplit ▸ mem_cons_of_mem _ hRest)

/-- A text without a slash at the end goes to the last piece. -/
theorem splitOn_append_of_not_mem (h : '/' ∉ rest) :
    ∃ front last, text.splitOn '/' = front ++ [last] ∧
      (text ++ rest).splitOn '/' = front ++ [last ++ rest] := by
  induction text with
  | nil => exact ⟨[], [], splitOn_nil '/', splitOn_eq_singleton h⟩
  | cons c text ih =>
    obtain ⟨front, last, hText, hBoth⟩ := ih
    rw [cons_append, splitOn_cons_eq_if_modifyHead, splitOn_cons_eq_if_modifyHead, hText,
      hBoth]
    split
    · exact ⟨[] :: front, last, rfl, rfl⟩
    · cases front with
      | nil => exact ⟨[], c :: last, rfl, rfl⟩
      | cons first front => exact ⟨(c :: first) :: front, last, rfl, rfl⟩

theorem mem_namesOf {name : String} (h : name ∈ namesOf text) :
    '/' ∉ name.toList ∧ name ≠ "" ∧ name ≠ "." := by
  obtain ⟨hPiece, hName⟩ := mem_filter.mp h
  obtain ⟨l, hl, rfl⟩ := mem_map.mp hPiece
  exact ⟨by simpa using not_mem_of_mem_splitOn hl, of_decide_eq_true hName⟩

theorem anchorOf_of_head (h : ∀ c ∈ text.head?, c ≠ '/') : anchorOf text = "" := by
  cases text with
  | nil => rfl
  | cons c text =>
    have hNot : decide (c = '/') = false := decide_eq_false (h c rfl)
    simp [anchorOf, hNot]

/-- A longer text at the end makes no name of two dots. -/
theorem dots_not_mem_namesOf_append (hText : ".." ∉ namesOf text) (h : '/' ∉ rest)
    (hLong : 2 < rest.length) : ".." ∉ namesOf (text ++ rest) := by
  obtain ⟨front, last, hSplit, hBoth⟩ := @splitOn_append_of_not_mem text rest h
  intro hMem
  obtain ⟨hPiece, -⟩ := mem_filter.mp hMem
  rw [hBoth, map_append, mem_append] at hPiece
  rcases hPiece with hFront | hLast
  · apply hText
    rw [namesOf, hSplit, map_append]
    exact mem_filter.mpr ⟨mem_append_left _ hFront, by decide⟩
  · have hDots : ".." = String.ofList (last ++ rest) := by simpa using hLast
    have hLength := congrArg (fun s => s.toList.length) hDots
    simp at hLength
    omega

theorem namesOf_intercalate {names : List String}
    (h : ∀ name ∈ names, '/' ∉ name.toList ∧ name ≠ "" ∧ name ≠ ".") :
    namesOf ("/".intercalate names).toList = names := by
  by_cases hNames : names = []
  · subst hNames
    rfl
  have hSplit : ("/".intercalate names).toList.splitOn '/' = names.map String.toList := by
    rw [String.toList_intercalate]
    apply splitOn_intercalate
    · intro l hl
      obtain ⟨name, hName, rfl⟩ := mem_map.mp hl
      exact (h name hName).1
    · simpa using hNames
  rw [namesOf, hSplit, map_map]
  have hId : names.map (String.ofList ∘ String.toList) = names := by simp
  rw [hId, filter_eq_self]
  exact fun name hName => decide_eq_true (h name hName).2

theorem namesOf_asPosix (names : List String)
    (h : ∀ name ∈ names, '/' ∉ name.toList ∧ name ≠ "" ∧ name ≠ ".") :
    namesOf (PurePath.asPosix ⟨"", names⟩).toList = names := by
  by_cases hNames : names = []
  · subst hNames
    rfl
  · rw [PurePath.asPosix, if_neg (fun hBoth => hNames hBoth.2), String.empty_append]
    exact namesOf_intercalate h

end Foundation
