import Glasslab.Corpus.Chunking
import Glasslab.Foundation.Spacing
import Glasslab.Foundation.Tally
import Mathlib.Tactic.Linarith

/-!
# Repeated headers and footers

The text runs of each page come in reading order. A short text that stands first or last on enough
pages is a header or a footer and is left out before the document is assembled.
-/

namespace Glasslab.Corpus

open Foundation List

/-- A text run of a page, before it has a place in the document. -/
structure RawBlock where
  text : List Char
  fontSize : Option ℚ
  bold : Bool
deriving DecidableEq

def RawBlock.stripped (block : RawBlock) : List Char := strip isSpace block.text

def headerFooterMaxChars : Nat := 120

def headerFooterMinShare : ℚ := 3 / 5

/-- The texts at the two ends of a page, each once. -/
def edgeTexts : List RawBlock → List (List Char)
  | [] => []
  | first :: rest =>
    match rest.getLast? with
    | none => [first.stripped]
    | some last => [first.stripped].insert last.stripped

def countedTexts (blocks : List RawBlock) : List (List Char) :=
  (edgeTexts blocks).filter (· ≠ [])

/-- The short texts that stand at an edge of enough pages. -/
def repeatedTexts (pages : List (List RawBlock)) : List (List Char) :=
  let repeated := (Dict.tally countedTexts pages).filter fun entry =>
    entry.1.length ≤ headerFooterMaxChars ∧ headerFooterMinShare * pages.length ≤ entry.2
  repeated.map Prod.fst

/-- The blocks whose place is not taken out, in their order. -/
def keptBlocks (removed : Nat → RawBlock → Bool) (blocks : List RawBlock) : List RawBlock :=
  (blocks.zipIdx.filter fun entry => !removed entry.2 entry.1).map Prod.fst

def isRepeatedEdge (texts : List (List Char)) (length index : Nat) (block : RawBlock) : Bool :=
  (index = 0 ∨ index = length - 1) ∧ block.stripped ∈ texts

def survivors (texts : List (List Char)) (blocks : List RawBlock) : List RawBlock :=
  keptBlocks (isRepeatedEdge texts blocks.length) blocks

/-- The pages that are left, and how many blocks were taken out. -/
def stripRepeatedHeadersFooters (pages : List (List RawBlock)) : List (List RawBlock) × Nat :=
  let texts := repeatedTexts pages
  if texts = [] then (pages, 0)
  else
    (pages.map (survivors texts),
      (pages.map fun blocks => blocks.length - (survivors texts blocks).length).sum)

variable {pages : List (List RawBlock)} {blocks : List RawBlock} {text : List Char}
  {texts : List (List Char)}

theorem mem_edgeTexts : text ∈ edgeTexts blocks ↔
    ∃ block, (blocks.head? = some block ∨ blocks.getLast? = some block) ∧ block.stripped =
    text := by
  cases blocks with
  | nil => simp [edgeTexts]
  | cons first rest =>
    rw [edgeTexts, List.getLast?_cons, List.head?_cons]
    cases hLast : rest.getLast? with
    | none => simp [eq_comm]
    | some last =>
      simp only [mem_insert_iff, mem_singleton, Option.getD_some, Option.some.injEq]
      constructor
      · rintro (rfl | rfl)
        · exact ⟨last, .inr rfl, rfl⟩
        · exact ⟨first, .inl rfl, rfl⟩
      · rintro ⟨block, rfl | rfl, rfl⟩
        · exact .inr rfl
        · exact .inl rfl

theorem nodup_edgeTexts : (edgeTexts blocks).Nodup := by
  cases blocks with
  | nil => exact nodup_nil
  | cons first rest =>
    rw [edgeTexts]
    cases rest.getLast? with
    | none => exact nodup_singleton _
    | some last => exact (nodup_singleton _).insert

theorem nodup_countedTexts (blocks : List RawBlock) : (countedTexts blocks).Nodup :=
  nodup_edgeTexts.filter _

theorem mem_countedTexts : text ∈ countedTexts blocks ↔ text ∈ edgeTexts blocks ∧ text ≠ [] := by
  rw [countedTexts, mem_filter, decide_eq_true_iff]

def edgePages (pages : List (List RawBlock)) (text : List Char) : Nat :=
  Dict.count (Dict.tally countedTexts pages) text

/-- A repeated text is short and stands on enough pages, at least one. -/
theorem mem_repeatedTexts : text ∈ repeatedTexts pages ↔
    text.length ≤ headerFooterMaxChars ∧ 0 < edgePages pages text ∧
      headerFooterMinShare * pages.length ≤ edgePages pages text := by
  simp only [repeatedTexts, mem_map, mem_filter, Prod.exists, exists_and_right,
    exists_eq_right, decide_eq_true_iff, Dict.mem_tally]
  constructor
  · rintro ⟨n, ⟨hPos, hCount⟩, hShort, hShare⟩
    rw [edgePages, hCount]
    exact ⟨hShort, hPos, hShare⟩
  · rintro ⟨hShort, hPos, hShare⟩
    exact ⟨edgePages pages text, ⟨hPos, rfl⟩, hShort, hShare⟩

theorem two_le_of_repeated (hPages : 2 ≤ pages.length) (h : text ∈ repeatedTexts pages) :
    2 ≤ edgePages pages text := by
  obtain ⟨-, -, hShare⟩ := mem_repeatedTexts.mp h
  have hTwo : (2 : ℚ) ≤ pages.length := by exact_mod_cast hPages
  have hOne : (1 : ℚ) < edgePages pages text := by
    unfold headerFooterMinShare at hShare
    linarith
  exact_mod_cast hOne

/-- On a single page every short edge text counts as repeated. -/
theorem mem_repeatedTexts_lone : text ∈ repeatedTexts [blocks] ↔
    text.length ≤ headerFooterMaxChars ∧ text ∈ edgeTexts blocks ∧ text ≠ [] := by
  rw [mem_repeatedTexts, edgePages, Dict.count_tally nodup_countedTexts, countP_singleton,
    ← mem_countedTexts]
  by_cases hText : text ∈ countedTexts blocks
  · norm_num [hText, headerFooterMinShare]
  · simp [hText]

/-! ## What is taken out -/

/-- The block stands first or last on another page with the same stripped text. -/
def OnOtherPage (pages : List (List RawBlock)) (i : Nat) (block : RawBlock) : Prop :=
  ∃ j other edge, j ≠ i ∧ pages[j]? = some other ∧
    (other.head? = some edge ∨ other.getLast? = some edge) ∧ edge.stripped = block.stripped

/-- Each page keeps its blocks in their order, except for the first or the last one where another
page has the same text at an edge. -/
structure OnlyRepeatedRemoved (pages kept : List (List RawBlock)) : Prop where
  length_eq : kept.length = pages.length
  page : ∀ i blocks left, pages[i]? = some blocks → kept[i]? = some left →
    ∃ removed : Nat → RawBlock → Bool, left = keptBlocks removed blocks ∧
      ∀ j block, blocks[j]? = some block → removed j block = true →
        (j = 0 ∨ j = blocks.length - 1) ∧ OnOtherPage pages i block

def LoneEdgeText (pages : List (List RawBlock)) : Prop :=
  ∃ blocks, pages = [blocks] ∧
    ∃ text ∈ edgeTexts blocks, text ≠ [] ∧ text.length ≤ headerFooterMaxChars

theorem keptBlocks_none : keptBlocks (fun _ _ => false) blocks = blocks := by
  simp [keptBlocks]

/-- With no repeated text the pages stay as they are. -/
theorem survivors_nil : survivors [] blocks = blocks := by
  have hNone : isRepeatedEdge [] blocks.length = fun _ _ => false := by
    funext index block
    simp [isRepeatedEdge]
  rw [survivors, hNone, keptBlocks_none]

theorem strip_pages : (stripRepeatedHeadersFooters pages).1 =
    pages.map (survivors (repeatedTexts pages)) := by
  unfold stripRepeatedHeadersFooters
  by_cases hNone : repeatedTexts pages = []
  · rw [if_pos hNone, hNone]
    conv_lhs => rw [← map_id pages]
    exact map_congr_left fun blocks _ => survivors_nil.symm
  · rw [if_neg hNone]

variable {removed : Nat → RawBlock → Bool} {block : RawBlock}

theorem length_keptBlocks_lt {i : Nat}
    (hAt : blocks[i]? = some block) (hRemoved : removed i block = true) :
    (keptBlocks removed blocks).length < blocks.length := by
  rw [keptBlocks, length_map]
  calc _ < blocks.zipIdx.length := by
        apply length_filter_lt_length_iff_exists.mpr
        exact ⟨(block, i), mem_zipIdx_iff_getElem?.mpr hAt, by simp [hRemoved]⟩
    _ = blocks.length := length_zipIdx

theorem keptBlocks_of_none_removed
    (h : ∀ i block, blocks[i]? = some block → removed i block = false) :
    keptBlocks removed blocks = blocks := by
  have hAll : blocks.zipIdx.filter (fun entry => !removed entry.2 entry.1) = blocks.zipIdx := by
    apply filter_eq_self.mpr
    rintro ⟨block, i⟩ hMem
    rw [h i block (mem_zipIdx_iff_getElem?.mp hMem)]
    rfl
  rw [keptBlocks, hAll, zipIdx_map_fst]

/-- An edge text stands at one of the two ends of the page. -/
theorem exists_edge_of_mem (h : text ∈ edgeTexts blocks) : ∃ i block, blocks[i]? = some block ∧
    (i = 0 ∨ i = blocks.length - 1) ∧ block.stripped = text := by
  obtain ⟨block, hFirst | hLast, rfl⟩ := mem_edgeTexts.mp h
  · exact ⟨0, block, by rw [← List.head?_eq_getElem?, hFirst], .inl rfl, rfl⟩
  · exact ⟨blocks.length - 1, block, by rw [← List.getLast?_eq_getElem?, hLast], .inr rfl, rfl⟩

theorem onOtherPage_of_repeated {i : Nat} (hPages : 2 ≤ pages.length)
    (hAt : pages[i]? = some blocks) (h : block.stripped ∈ repeatedTexts pages) :
    OnOtherPage pages i block := by
  have hTwo := two_le_of_repeated hPages h
  rw [edgePages, Dict.count_tally nodup_countedTexts] at hTwo
  obtain ⟨j, other, hNe, hOther, hCounted⟩ := exists_other_of_two_le_countP hTwo hAt
  have hEdge : block.stripped ∈ countedTexts other := by simpa using hCounted
  obtain ⟨edge, hEnd, hText⟩ := mem_edgeTexts.mp (mem_countedTexts.mp hEdge).1
  exact ⟨j, other, edge, hNe, hOther, hEnd, hText⟩

/-- A single page loses its short edge texts, which no other page has. -/
theorem not_onlyRepeatedRemoved_of_lone (hEdge : text ∈ edgeTexts blocks) (hText : text ≠ [])
    (hShort : text.length ≤ headerFooterMaxChars) :
    ¬OnlyRepeatedRemoved [blocks] (stripRepeatedHeadersFooters [blocks]).1 := by
  rw [strip_pages]
  intro h
  have hRepeated := mem_repeatedTexts_lone.mpr ⟨hShort, hEdge, hText⟩
  obtain ⟨i, block, hAt, hEnd, rfl⟩ := exists_edge_of_mem hEdge
  obtain ⟨removed, hLeft, hOnly⟩ := h.page 0 blocks _ rfl rfl
  have hLess : (survivors (repeatedTexts [blocks]) blocks).length < blocks.length := by
    apply length_keptBlocks_lt hAt
    simpa [isRepeatedEdge, hRepeated] using hEnd
  have hNothing : ∀ j block, blocks[j]? = some block → removed j block = false := by
    intro j block hBlock
    by_contra hRemoved
    obtain ⟨-, k, other, edge, hNe, hOther, -⟩ :=
      hOnly j block hBlock (Bool.eq_true_of_not_eq_false hRemoved)
    have hLt := (List.getElem?_eq_some_iff.mp hOther).1
    rw [length_singleton] at hLt
    omega
  rw [hLeft, keptBlocks_of_none_removed hNothing] at hLess
  omega

/-- Only text that stands on another page is taken out, unless the document has a single page with
a short text at an edge. -/
theorem only_repeated_removed_iff (pages : List (List RawBlock)) :
    OnlyRepeatedRemoved pages (stripRepeatedHeadersFooters pages).1 ↔ ¬LoneEdgeText pages := by
  constructor
  · rintro h ⟨blocks, rfl, text, hEdge, hText, hShort⟩
    exact not_onlyRepeatedRemoved_of_lone hEdge hText hShort h
  · intro hLone
    rw [strip_pages]
    refine ⟨length_map _, ?_⟩
    intro i blocks left hAt hKept
    rw [List.getElem?_map, hAt, Option.map_some, Option.some.injEq] at hKept
    subst hKept
    refine ⟨_, rfl, ?_⟩
    intro j block hBlock hRemoved
    obtain ⟨hEnd, hRepeated⟩ := of_decide_eq_true hRemoved
    refine ⟨hEnd, ?_⟩
    rcases Nat.lt_or_ge pages.length 2 with hFew | hPages
    · exfalso
      obtain ⟨lone, rfl⟩ : ∃ lone, pages = [lone] := by
        have hLt := (List.getElem?_eq_some_iff.mp hAt).1
        exact length_eq_one_iff.mp (by omega)
      obtain ⟨hShort, hEdge, hText⟩ := mem_repeatedTexts_lone.mp hRepeated
      exact hLone ⟨lone, rfl, _, hEdge, hText, hShort⟩
    · exact onOtherPage_of_repeated hPages hAt hRepeated

def onePageReport : List RawBlock :=
  [⟨"Annual report".toList, some 18, true⟩, ⟨"The sensor was recalibrated.".toList, some 10, false⟩,
    ⟨"The drift is gone.".toList, some 10, false⟩]

/-- The title of a report of one page is taken out. -/
theorem lone_title_removed :
    ¬ OnlyRepeatedRemoved [onePageReport] (stripRepeatedHeadersFooters [onePageReport]).1 := by
  have hEdge : "Annual report".toList ∈ edgeTexts onePageReport := by decide +kernel
  have hShort : "Annual report".toList.length ≤ headerFooterMaxChars := by decide +kernel
  exact not_onlyRepeatedRemoved_of_lone hEdge (by decide) hShort

end Glasslab.Corpus
