import Glasslab.Corpus.Coverage
import Glasslab.Corpus.Composition
import Glasslab.Foundation.FirstFree
import Glasslab.Foundation.Spacing
import Mathlib.Data.Int.Log

/-!
# Detection of sections

`detect_sections` of `app/corpus_rag/documents.py`. Headings cut the text of a document: a numbered
heading brings its own path, any other one takes the next number that is free. No path is taken
twice there, and the sections come one after the other. What stands before the first heading becomes
a section of its own, whose path `0` is not looked up among those that are taken. So a document
whose text does not begin with a heading, and which has a heading with the number 0, gets two
sections with that path (`partitions_iff`).

A font size is the rational that the float is.
-/

namespace Glasslab.Corpus

open Foundation Knowledge Contracts List

/-- A text run with its place in the text of the document. -/
structure ExtractedBlock where
  text : List Char
  charStart : Nat
  charEnd : Nat
  fontSize : Option ℚ := none
  bold : Bool := false
  text_ne : text ≠ []

structure TypesetPage extends ExtractedPage where
  blocks : List ExtractedBlock

/-- What the validator of an extracted document asks for. -/
structure TypesetDocument where
  text : List Char
  pages : List TypesetPage
  pages_ne : pages ≠ []
  assembled : text = ['\n', '\n'].intercalate (pages.map fun page => page.text)
  indexed : ∀ page ∈ pages, ∀ block ∈ page.blocks,
    slice text ⟨block.charStart, block.charEnd⟩ = block.text

/-- The nearest number with 53 binary digits, for a positive one. -/
def roundFloat (q : ℚ) : ℚ :=
  let unit : ℚ := 2 ^ (Int.log 2 q - 52)
  roundHalfEven (q / unit) * unit

/-- The float `1.12`. -/
def headingSizeRatio : ℚ := 5044031582654956 / 4503599627370496

def headingMaxChars : Nat := 120

def minReadableFontSize : ℚ := 5

/-- The readable blocks, each with its rounded size and how many characters it has. -/
def readableSizes (blocks : List ExtractedBlock) : List (ℤ × Nat) :=
  blocks.filterMap fun block =>
    match block.fontSize with
    | some size =>
      if size < minReadableFontSize then none else some (roundHalfEven size, block.text.length)
    | none => none

def charCount (sizes : List (ℤ × Nat)) (size : ℤ) : Nat :=
  ((sizes.filter fun entry => entry.1 = size).map Prod.snd).sum

/-- `_modal_body_font_size`: the size of most characters, the larger one of two. -/
def modalBodyFontSize (blocks : List ExtractedBlock) : Option ℤ :=
  let sizes := readableSizes blocks
  match (sizes.map fun entry => charCount sizes entry.1).max? with
  | some topCount =>
    ((sizes.filter fun entry => charCount sizes entry.1 = topCount).map Prod.fst).max?
  | none => none

def isLarge (bodyFontSize : Option ℤ) (block : ExtractedBlock) : Bool :=
  match block.fontSize, bodyFontSize with
  | some size, some body => roundFloat (headingSizeRatio * body) ≤ size
  | _, _ => false

/-- What `\d+(?:\.\d+)*` takes from a text that begins with a digit, and what is left. -/
def numberPrefix : List Char → List Char × List Char
  | [] => ([], [])
  | c :: rest =>
    if isDecimal c ∨ (c = '.' ∧ rest.head?.any isDecimal) then
      (c :: (numberPrefix rest).1, (numberPrefix rest).2)
    else ([], c :: rest)

/-- What is left after `[.)]?`. -/
def dropClosing : List Char → List Char
  | '.' :: rest => rest
  | ')' :: rest => rest
  | rest => rest

structure NumberedHeading where
  number : List Char
  title : List Char
  number_ne : number ≠ []

/-- `_numbered_heading`. A point of a pattern does not stand for a line break. -/
def numberedHeading (text : List Char) : Option NumberedHeading :=
  let stripped := strip isSpace text
  let number := (numberPrefix stripped).1
  let after := dropClosing (numberPrefix stripped).2
  let body := after.dropWhile isSpace
  if h : number ≠ [] ∧ number.head?.any isDecimal ∧ body.length < after.length ∧ body ≠ [] ∧
      '\n' ∉ body then
    some ⟨number, strip isSpace body, h.1⟩
  else none

/-- So many points from here on, each with at most one white space after it. -/
def dotLeader : Nat → List Char → Bool
  | 0, _ => true
  | n + 1, '.' :: c :: rest => dotLeader n (if isSpace c then rest else c :: rest)
  | n + 1, ['.'] => n = 0
  | _ + 1, _ => false

/-- `\s\d{1,4}$`, before the end or a final line break. -/
def trailingPageNumber (text : List Char) : Bool :=
  let line := (if text.getLast? = some '\n' then text.dropLast else text).reverse
  let digits := line.takeWhile isDecimal
  1 ≤ digits.length ∧ digits.length ≤ 4 ∧ (line.dropWhile isDecimal).head?.any isSpace

def isTocEntry (text : List Char) : Bool :=
  text.tails.any (fun tail => dotLeader 4 tail || tail.take 5 = List.replicate 5 '.') ||
    trailingPageNumber text

/-- A line that counts as a heading, and where it starts. -/
inductive Candidate where
  | numbered (heading : NumberedHeading) (startChar : Nat)
  | sized (title : List Char) (size : ℚ) (startChar : Nat)

def Candidate.startChar : Candidate → Nat
  | numbered _ startChar => startChar
  | sized _ _ startChar => startChar

def sizedCandidate (bodyFontSize : Option ℤ) (block : ExtractedBlock) : Option Candidate :=
  match block.fontSize with
  | some size =>
    if block.text.length < headingMaxChars ∧ isLarge bodyFontSize block then
      some (.sized (strip isSpace block.text) size block.charStart)
    else none
  | none => none

def candidate (bodyFontSize : Option ℤ) (block : ExtractedBlock) : Option Candidate :=
  match numberedHeading block.text with
  | some heading =>
    if isLarge bodyFontSize block ∨ block.bold then
      if isTocEntry block.text then none else some (.numbered heading block.charStart)
    else sizedCandidate bodyFontSize block
  | none => sizedCandidate bodyFontSize block

def TypesetDocument.blocks (document : TypesetDocument) : List ExtractedBlock :=
  sortOn ExtractedBlock.charStart (document.pages.flatMap TypesetPage.blocks)

/-- `raw_drafts`. -/
def TypesetDocument.candidates (document : TypesetDocument) : List Candidate :=
  document.blocks.filterMap (candidate (modalBodyFontSize document.blocks))

/-- The most digits that `int` reads. -/
def maxStrDigits : Nat := 4300

/-- `int(path.split('.')[0])`. -/
def topLevel (heading : NumberedHeading) : Except Raised Nat :=
  let digits := heading.number.takeWhile (· ≠ '.')
  if maxStrDigits < digits.length then
    .error
      { type := "ValueError"
        message := "Exceeds the limit (4300 digits) for integer string conversion: value has " ++
          toString digits.length ++
            " digits; use sys.set_int_max_str_digits() to increase the limit" }
  else .ok (intOfDigits digits)

def usedTopLevel (candidates : List Candidate) : Except Raised (List Nat) :=
  (candidates.filterMap fun found =>
    match found with
    | .numbered heading _ => some heading
    | .sized .. => none).mapM topLevel

/-- A heading with its path. Only the level of one without a number is open. -/
structure DraftSection where
  path : String
  title : Option (List Char)
  level : Nat
  startChar : Nat
  headingSize : Option ℚ := none
  path_ne : path ≠ ""
  level_pos : headingSize = none → 1 ≤ level

theorem ofList_ne_empty {text : List Char} (h : text ≠ []) : String.ofList text ≠ "" := by
  intro hEmpty
  have hList := congrArg String.toList hEmpty
  rw [String.toList_ofList] at hList
  exact h hList

def NumberedHeading.draft (heading : NumberedHeading) (startChar : Nat) : DraftSection where
  path := String.ofList heading.number
  title := some heading.title
  level := heading.number.count '.' + 1
  startChar := startChar
  path_ne := ofList_ne_empty heading.number_ne
  level_pos _ := Nat.succ_pos _

def sizedDraft (title : List Char) (size : ℚ) (startChar number : Nat) : DraftSection where
  path := toString number
  title := some title
  level := 0
  startChar := startChar
  headingSize := some size
  path_ne := Nat.repr_ne_empty
  level_pos := nofun

/-- The first number from `nextFree` on that no heading has as its number or its top level. -/
def freeNumber (used : List Nat) (seen : List String) (nextFree : Nat) : Nat :=
  let taken := used.map toString ++ seen
  (firstFree taken toString (taken.length + 1) nextFree).getD nextFree

/-- The loop over `raw_drafts`. The first heading with a number keeps it. -/
def assignPaths (used : List Nat) : Nat → List String → List Candidate → List DraftSection
  | _, _, [] => []
  | nextFree, seen, .numbered heading startChar :: rest =>
    let draft := heading.draft startChar
    if draft.path ∈ seen then assignPaths used nextFree seen rest
    else draft :: assignPaths used nextFree (draft.path :: seen) rest
  | nextFree, seen, .sized title size startChar :: rest =>
    let number := freeNumber used seen nextFree
    let draft := sizedDraft title size startChar number
    draft :: assignPaths used (number + 1) (draft.path :: seen) rest

def sizeRank (drafts : List DraftSection) (size : ℚ) : Nat :=
  let sizes := ((drafts.filterMap DraftSection.headingSize).filter (· ≠ 0)).dedup
  sizes.countP (fun other => size < other) + 1

def resolvedLevel (drafts : List DraftSection) (draft : DraftSection) : Nat :=
  match draft.headingSize with
  | some size => sizeRank drafts size
  | none => draft.level

theorem resolvedLevel_pos (drafts : List DraftSection) (draft : DraftSection) :
    1 ≤ resolvedLevel drafts draft := by
  unfold resolvedLevel
  split
  next => exact Nat.succ_pos _
  next hSize => exact draft.level_pos hSize

def frontMatter : DraftSection where
  path := "0"
  title := some "Front matter".toList
  level := 1
  startChar := 0
  path_ne h := absurd h (by decide)
  level_pos _ := le_rfl

def withFrontMatter (drafts : List DraftSection) : List DraftSection :=
  match drafts with
  | [] => [frontMatter]
  | first :: _ => if first.startChar ≠ 0 then frontMatter :: drafts else drafts

def pageBounds (offset : Nat) : List TypesetPage → List (Nat × Nat)
  | [] => []
  | page :: rest =>
    (offset, offset + page.text.length) :: pageBounds (offset + page.text.length + 2) rest

/-- `_page_for_char`: the last of the pages that start at the position or before it. -/
def pageIndexForChar (bounds : List (Nat × Nat)) (charIndex : ℤ) : Option Nat :=
  match (bounds.takeWhile fun bound => bound.1 ≤ charIndex).length with
  | 0 => none
  | n + 1 => some n

structure SectionNode extends DocumentSection where
  pageStart : Option Nat
  pageEnd : Option Nat

/-- The node of a heading whose text ends at a position. -/
def sectionNode (bounds : List (Nat × Nat)) (drafts : List DraftSection) (draft : DraftSection)
    (endChar : Nat) : SectionNode :=
  let pageStart := pageIndexForChar bounds draft.startChar
  let pageEnd := pageIndexForChar bounds (endChar - 1)
  { path := draft.path
    title := draft.title
    level := resolvedLevel drafts draft
    startChar := draft.startChar
    endChar := endChar
    path_ne := draft.path_ne
    level_pos := resolvedLevel_pos drafts draft
    pageStart := pageStart
    pageEnd :=
      match pageStart, pageEnd with
      | some first, some last => some (max first last)
      | _, _ => pageEnd }

/-- A section ends where the next one starts, the last one at the end of the text. -/
def sectionNodes (node : DraftSection → Nat → SectionNode) (textLength : Nat) :
    List DraftSection → List SectionNode
  | [] => []
  | draft :: rest =>
    node draft ((rest.head?.map DraftSection.startChar).getD textLength) ::
      sectionNodes node textLength rest

def detectSections (document : TypesetDocument) : Except Raised (List SectionNode) := do
  let used ← usedTopLevel document.candidates
  let drafts := assignPaths used 1 [] document.candidates
  pure (sectionNodes (sectionNode (pageBounds 0 document.pages) drafts) document.text.length
    (withFrontMatter drafts))

variable {document : TypesetDocument} {used : List Nat} {seen : List String} {nextFree : Nat}
  {candidates : List Candidate} {drafts : List DraftSection} {block : ExtractedBlock}
  {found : Candidate} {body : Option ℤ}

theorem startChar_of_sizedCandidate
    (h : sizedCandidate body block = some found) : found.startChar = block.charStart := by
  unfold sizedCandidate at h
  split at h
  · split at h
    · obtain rfl := Option.some.inj h
      rfl
    · cases h
  · cases h

theorem startChar_of_candidate
    (h : candidate body block = some found) : found.startChar = block.charStart := by
  unfold candidate at h
  split at h
  · split at h
    · split at h
      · cases h
      · obtain rfl := Option.some.inj h
        rfl
    · exact startChar_of_sizedCandidate h
  · exact startChar_of_sizedCandidate h

theorem TypesetDocument.charStart_lt (h : block ∈ document.blocks) :
    block.charStart < document.text.length := by
  obtain ⟨page, hPage, hBlock⟩ := mem_flatMap.mp (mem_sortOn.mp h)
  have hText := document.indexed page hPage block hBlock
  have hPos := length_pos_of_ne_nil block.text_ne
  rw [← hText, slice, length_drop, length_take] at hPos
  dsimp only at hPos
  omega

theorem TypesetDocument.candidates_lt (h : found ∈ document.candidates) :
    found.startChar < document.text.length := by
  obtain ⟨block, hBlock, hFound⟩ := mem_filterMap.mp h
  rw [startChar_of_candidate hFound]
  exact document.charStart_lt hBlock

theorem TypesetDocument.candidates_sorted (document : TypesetDocument) :
    (document.candidates.map Candidate.startChar).Pairwise (· ≤ ·) := by
  rw [pairwise_map, candidates, pairwise_filterMap]
  apply (pairwise_sortOn _ _).imp
  intro first second hLe found hFound found' hFound'
  rw [startChar_of_candidate hFound, startChar_of_candidate hFound']
  exact hLe

/-! ## Paths that are given -/

theorem toString_nat_injective : Function.Injective (toString : Nat → String) := by
  intro n m h
  have hDigits := congrArg String.toList h
  rw [Nat.toString_eq_repr, Nat.toString_eq_repr, Nat.toList_repr, Nat.toList_repr] at hDigits
  rw [← Nat.ofDigitChars_ten_toDigits (n := n), hDigits, Nat.ofDigitChars_ten_toDigits]

theorem freeNumber_spec (used : List Nat) (seen : List String) (nextFree : Nat) :
    toString (freeNumber used seen nextFree) ∉ seen ∧ nextFree ≤ freeNumber used seen nextFree := by
  obtain ⟨number, hNumber⟩ := @exists_firstFree _ _ (used.map toString ++ seen) toString
    ((used.map toString ++ seen).length + 1) nextFree toString_nat_injective (Nat.lt_succ_self _)
  obtain ⟨hFree, hLe, -⟩ := free_of_firstFree hNumber
  have hEq : freeNumber used seen nextFree = number := by
    rw [freeNumber, hNumber, Option.getD_some]
  rw [hEq]
  exact ⟨fun hSeen => hFree (mem_append_right _ hSeen), hLe⟩

/-- No path is given twice, and none that has been given before. -/
theorem nodup_assignPaths (used : List Nat) (nextFree : Nat) (seen : List String)
    (candidates : List Candidate) :
    ((assignPaths used nextFree seen candidates).map DraftSection.path).Nodup ∧
      ∀ draft ∈ assignPaths used nextFree seen candidates, draft.path ∉ seen := by
  have hCons : ∀ {draft : DraftSection} {rest : List DraftSection} {seen : List String},
      draft.path ∉ seen →
      (rest.map DraftSection.path).Nodup ∧ (∀ other ∈ rest, other.path ∉ draft.path :: seen) →
      ((draft :: rest).map DraftSection.path).Nodup ∧ ∀ other ∈ draft :: rest,
        other.path ∉ seen := by
    intro draft rest seen hFree hRest
    refine ⟨?_, ?_⟩
    · rw [map_cons, nodup_cons]
      refine ⟨?_, hRest.1⟩
      intro hMem
      obtain ⟨other, hOther, hPath⟩ := mem_map.mp hMem
      exact hRest.2 other hOther (hPath ▸ mem_cons_self)
    · intro other hOther
      rcases mem_cons.mp hOther with rfl | hOther
      · exact hFree
      · exact fun hSeen => hRest.2 other hOther (mem_cons_of_mem _ hSeen)
  induction candidates generalizing nextFree seen with
  | nil => exact ⟨nodup_nil, nofun⟩
  | cons found rest ih =>
    cases found with
    | numbered heading startChar =>
      rw [assignPaths]
      split
      next => exact ih _ _
      next hFree => exact hCons hFree (ih _ _)
    | sized title size startChar => exact hCons (freeNumber_spec used seen nextFree).1 (ih _ _)

theorem startChars_assignPaths (used : List Nat) (nextFree : Nat) (seen : List String)
    (candidates : List Candidate) :
    ((assignPaths used nextFree seen candidates).map DraftSection.startChar).Sublist
      (candidates.map Candidate.startChar) := by
  induction candidates generalizing nextFree seen with
  | nil => exact Sublist.refl _
  | cons found rest ih =>
    cases found with
    | numbered heading startChar =>
      rw [assignPaths]
      split
      next => exact (ih _ _).cons _
      next => exact (ih _ _).cons_cons _
    | sized title size startChar => exact (ih _ _).cons_cons _

/-- The first line that counts as a heading is one. -/
theorem head?_assignPaths (used : List Nat) (nextFree : Nat) (candidates : List Candidate) :
    (assignPaths used nextFree [] candidates).head?.map DraftSection.startChar =
      candidates.head?.map Candidate.startChar := by
  cases candidates with
  | nil => rfl
  | cons found rest => cases found <;> simp [assignPaths, NumberedHeading.draft, sizedDraft,
      Candidate.startChar]

/-- Only a heading with the number 0 has the path `0`. -/
theorem zero_mem_assignPaths (hNext : 1 ≤ nextFree) :
    "0" ∈ (assignPaths used nextFree seen candidates).map DraftSection.path ↔
      "0" ∉ seen ∧ ∃ heading startChar, .numbered heading startChar ∈ candidates ∧
        heading.number = ['0'] := by
  induction candidates generalizing nextFree seen with
  | nil => simp [assignPaths]
  | cons found rest ih =>
    -- a heading with another number makes no difference
    have hOther (hNot : ∀ heading startChar, found = .numbered heading startChar →
        heading.number ≠ ['0']) :
        (∃ heading startChar, .numbered heading startChar ∈ found :: rest ∧ heading.number =
          ['0']) ↔
          ∃ heading startChar, .numbered heading startChar ∈ rest ∧ heading.number = ['0'] := by
      refine exists_congr fun heading => exists_congr fun startChar => ?_
      rw [mem_cons]
      exact and_congr_left
        fun hZero => or_iff_right fun hEq => hNot heading startChar hEq.symm hZero
    cases found with
    | numbered heading startChar =>
      have hPath : (heading.draft startChar).path = "0" ↔ heading.number = ['0'] := by
        exact ⟨fun h => String.ofList_injective h, congrArg String.ofList⟩
      rw [assignPaths]
      by_cases hNumber : heading.number = ['0']
      · have hIs := hPath.mpr hNumber
        rw [hIs]
        split
        next hSeen => rw [ih hNext]; exact iff_of_false (fun h => h.1 hSeen) fun h => h.1 hSeen
        next hFree =>
          rw [map_cons, hIs]
          exact iff_of_true mem_cons_self ⟨hFree, heading, startChar, mem_cons_self, hNumber⟩
      · have hNot := Ne.symm (mt hPath.mp hNumber)
        rw [hOther fun other position hEq => by cases hEq; exact hNumber]
        split
        · exact ih hNext
        · rw [map_cons, mem_cons, or_iff_right hNot, ih hNext, mem_cons,
            or_iff_right hNot]
    | sized title size startChar =>
      obtain ⟨-, hLe⟩ := freeNumber_spec used seen nextFree
      have hNot : "0" ≠
          (sizedDraft title size startChar (freeNumber used seen nextFree)).path := by
        intro hZero
        have hEq := @toString_nat_injective 0 _ hZero
        omega
      rw [assignPaths, map_cons, mem_cons, or_iff_right hNot, ih (by omega), mem_cons,
        or_iff_right hNot, hOther nofun]

theorem contiguous_sectionNodes {textLength : Nat} {bounds : List (Nat × Nat)}
    (all : List DraftSection) (hSorted : (drafts.map DraftSection.startChar).Pairwise (· ≤ ·))
    (hWithin : ∀ draft ∈ drafts, draft.startChar ≤ textLength) :
    ContiguousFrom ((drafts.head?.map DraftSection.startChar).getD textLength) textLength
      ((sectionNodes (sectionNode bounds all) textLength drafts).map
        SectionNode.toDocumentSection) := by
  induction drafts with
  | nil => exact rfl
  | cons draft rest ih =>
    rw [map_cons, pairwise_cons] at hSorted
    refine ⟨rfl, ?_, ih hSorted.2 fun other hOther => hWithin other (mem_cons_of_mem _ hOther)⟩
    cases rest with
    | nil => exact hWithin draft mem_cons_self
    | cons next rest => exact hSorted.1 next.startChar mem_cons_self

theorem paths_sectionNodes {textLength : Nat} {bounds : List (Nat × Nat)}
    (all : List DraftSection) :
    (sectionNodes (sectionNode bounds all) textLength drafts).map (fun node => node.path) =
      drafts.map DraftSection.path := by
  induction drafts with
  | nil => rfl
  | cons draft rest ih =>
    rw [sectionNodes, map_cons, map_cons, ih]
    rfl

theorem withFrontMatter_startChars
    (hSorted : (drafts.map DraftSection.startChar).Pairwise (· ≤ ·)) :
    ((withFrontMatter drafts).map DraftSection.startChar).Pairwise (· ≤ ·) ∧
      (withFrontMatter drafts).head?.map DraftSection.startChar = some 0 := by
  cases drafts with
  | nil => exact ⟨pairwise_singleton _ _, rfl⟩
  | cons first rest =>
    rw [withFrontMatter]
    split
    next =>
      refine ⟨pairwise_cons.mpr ⟨?_, hSorted⟩, rfl⟩
      exact fun position _ => Nat.zero_le position
    next hFirst => exact ⟨hSorted, congrArg some (not_not.mp hFirst)⟩

theorem mem_withFrontMatter {draft : DraftSection} (h : draft ∈ withFrontMatter drafts) :
    draft = frontMatter ∨ draft ∈ drafts := by
  unfold withFrontMatter at h
  split at h
  next => exact .inl (mem_singleton.mp h)
  next =>
    split at h
    · exact mem_cons.mp h
    · exact .inr h

theorem nodup_withFrontMatter_iff (hNodup : (drafts.map DraftSection.path).Nodup) :
    ((withFrontMatter drafts).map DraftSection.path).Nodup ↔
      ("0" ∈ drafts.map DraftSection.path →
        drafts.head?.map DraftSection.startChar = some 0) := by
  cases drafts with
  | nil => simp [withFrontMatter]
  | cons first rest =>
    rw [withFrontMatter]
    split
    next hFirst =>
      rw [map_cons, nodup_cons]
      constructor
      · exact fun h hZero => absurd hZero h.1
      · intro h
        refine ⟨fun hZero => hFirst ?_, hNodup⟩
        exact Option.some.inj (h hZero)
    next hFirst => exact iff_of_true hNodup fun _ => congrArg some (not_not.mp hFirst)

/-! ## When the sections can be stored -/

/-- The section records of a document, as `build_chunks` makes them. -/
def sectionRecords (digests : Digests) (source : Source) (nodes : List SectionNode) :
    List RagSectionRecord :=
  (orderedSections (nodes.map SectionNode.toDocumentSection)).map (sectionRecord digests source)

/-- The sections partition the text, their paths and ids tell them apart, and whatever sections
other documents have, they can be stored. -/
structure Partitions (pipeline : Pipeline) (source : Source) (document : TypesetDocument)
    (nodes : List SectionNode) : Prop where
  contiguous : ContiguousFrom 0 document.text.length (nodes.map SectionNode.toDocumentSection)
  paths : (nodes.map fun node => node.path).Nodup
  ids : (nodes.map fun node => sectionId pipeline.digests source node.toDocumentSection).Nodup
  accepted : ∀ stored : KeyedTable RagSectionRecord.sectionId,
    (∀ row ∈ stored.rows, SectionOf pipeline row) →
      ∃ rows, stored.replace (fun row => row.docId = source.docId)
        (sectionRecords pipeline.digests source nodes) = .ok rows

/-- A line with the number 0 counts as a heading, and the first heading does not begin the text. -/
def ZeroAfterFrontMatter (document : TypesetDocument) : Prop :=
  (∃ heading startChar, .numbered heading startChar ∈ document.candidates ∧
      heading.number = ['0']) ∧
    document.candidates.head?.map Candidate.startChar ≠ some 0

section Accepted

variable {pipeline : Pipeline} {source : Source} {nodes : List SectionNode} {n : Nat}

theorem sectionId_injective (laws : Collisionless pipeline) {s s' : DocumentSection}
    (h : sectionId pipeline.digests source s = sectionId pipeline.digests source s') :
    s.path = s'.path := by
  have hKey := laws.detId_injective h
  rw [String.append_assoc, String.append_assoc] at hKey
  exact append_toList_injective (append_toList_injective hKey)

theorem detectSections_eq_ok (h : detectSections document = .ok nodes) :
    ∃ used, nodes = sectionNodes
      (sectionNode (pageBounds 0 document.pages) (assignPaths used 1 [] document.candidates))
      document.text.length (withFrontMatter (assignPaths used 1 [] document.candidates)) := by
  obtain ⟨used, -, h⟩ := Raising.of_bind h
  exact ⟨used, (Except.ok.inj h).symm⟩

theorem startChar_lt_of_mem_assignPaths {draft : DraftSection}
    (h : draft ∈ assignPaths used nextFree seen document.candidates) :
    draft.startChar < document.text.length := by
  have hMem := (startChars_assignPaths used nextFree seen document.candidates).subset
    (mem_map_of_mem h)
  obtain ⟨found, hFound, hStart⟩ := mem_map.mp hMem
  rw [← hStart]
  exact document.candidates_lt hFound

theorem contiguous_detectSections (h : detectSections document = .ok nodes) :
    ContiguousFrom 0 document.text.length (nodes.map SectionNode.toDocumentSection) := by
  obtain ⟨used, rfl⟩ := detectSections_eq_ok h
  have hSublist := startChars_assignPaths used 1 [] document.candidates
  obtain ⟨hSorted, hHead⟩ := withFrontMatter_startChars
    (document.candidates_sorted.sublist hSublist)
  have hWithin : ∀ draft ∈ withFrontMatter (assignPaths used 1 [] document.candidates),
      draft.startChar ≤ document.text.length := by
    intro draft hDraft
    rcases mem_withFrontMatter hDraft with rfl | hDraft
    · exact Nat.zero_le _
    · exact (startChar_lt_of_mem_assignPaths hDraft).le
  have hContiguous := @contiguous_sectionNodes _ _ (pageBounds 0 document.pages)
    (assignPaths used 1 [] document.candidates) hSorted hWithin
  rwa [hHead, Option.getD_some] at hContiguous

theorem nodup_paths_iff (h : detectSections document = .ok nodes) :
    (nodes.map fun node => node.path).Nodup ↔ ¬ ZeroAfterFrontMatter document := by
  obtain ⟨used, rfl⟩ := detectSections_eq_ok h
  rw [paths_sectionNodes, nodup_withFrontMatter_iff (nodup_assignPaths used 1 [] _).1,
    zero_mem_assignPaths le_rfl, head?_assignPaths, ZeroAfterFrontMatter, not_and_not_right]
  exact ⟨fun hZero hHeading => hZero ⟨not_mem_nil, hHeading⟩, fun hZero hHeading =>
    hZero hHeading.2⟩

theorem Partitions.of_paths (laws : Collisionless pipeline)
    (hSource : source.sourceId = pipeline.uuid n)
    (hDoc : source.docId = pipeline.documentIdForSource source.sourceId)
    (hContiguous : ContiguousFrom 0 document.text.length (nodes.map SectionNode.toDocumentSection))
    (hPaths : (nodes.map fun node => node.path).Nodup) :
    Partitions pipeline source document nodes := by
  have hIds : (nodes.map fun node =>
      sectionId pipeline.digests source node.toDocumentSection).Nodup := by
    rw [nodup_map_iff_inj_on (Nodup.of_map _ hPaths)]
    intro node hNode other hOther hId
    exact inj_on_of_nodup_map hPaths hNode hOther (sectionId_injective laws hId)
  refine ⟨hContiguous, hPaths, hIds, ?_⟩
  intro stored hStored
  have hRecordIds : (sectionRecords pipeline.digests source nodes).map RagSectionRecord.sectionId =
      nodes.map fun node => sectionId pipeline.digests source node.toDocumentSection := by
    rw [sectionRecords, hContiguous.orderedSections_eq, map_map, map_map]
    rfl
  refine KeyedTable.exists_replace (hRecordIds ▸ hIds) ?_
  intro record hRecord row hRow hStays hId
  obtain ⟨s, -, rfl⟩ := mem_map.mp hRecord
  have hKey : row.sectionId = pipeline.digests.detId (pipeline.uuid n ++ "|" ++ s.path) := by
    rw [hId, ← hSource]
    rfl
  have hRowDoc := (hStored row hRow).docId_eq laws hKey
  rw [hDoc, hSource] at hStays
  simp [hRowDoc] at hStays

/-- **Detected sections** partition the text, with paths and ids of their own, and can be stored,
exactly if no line with the number 0 counts as a heading where front matter comes before the first
one. -/
theorem partitions_iff (laws : Collisionless pipeline) (hSource : source.sourceId = pipeline.uuid n)
    (hDoc : source.docId = pipeline.documentIdForSource source.sourceId)
    (h : detectSections document = .ok nodes) :
    Partitions pipeline source document nodes ↔ ¬ ZeroAfterFrontMatter document := by
  rw [← nodup_paths_iff h]
  constructor
  · exact fun hPartitions => hPartitions.paths
  · exact Partitions.of_paths laws hSource hDoc (contiguous_detectSections h)

end Accepted

/-- The text `1 Introduction` and a line of body text. -/
def introductionDocument : TypesetDocument where
  text := "1 Introduction\nWe fold proteins.".toList
  pages :=
    [{ pageIndex := 0
       text := "1 Introduction\nWe fold proteins.".toList
       blocks :=
        [{ text := "1 Introduction".toList, charStart := 0, charEnd := 14, fontSize := some 10,
           bold := true, text_ne := by decide },
         { text := "We fold proteins.".toList, charStart := 15, charEnd := 32, fontSize := some 10,
           text_ne := by decide }] }]
  pages_ne := by decide
  assembled := by decide
  indexed := by decide

/-- A line of body text, and the heading `0 Introduction` in bold. -/
def prefaceDocument : TypesetDocument where
  text := "A preface.\n0 Introduction".toList
  pages :=
    [{ pageIndex := 0
       text := "A preface.\n0 Introduction".toList
       blocks :=
        [{ text := "A preface.".toList, charStart := 0, charEnd := 10, fontSize := some 10,
           text_ne := by decide },
         { text := "0 Introduction".toList, charStart := 11, charEnd := 25, fontSize := some 10,
           bold := true, text_ne := by decide }] }]
  pages_ne := by decide
  assembled := by decide
  indexed := by decide

def plainSource : Source where
  sourceId := plainPipeline.uuid 0
  docId := plainPipeline.documentIdForSource (plainPipeline.uuid 0)
  sourceId_ne := by decide
  docId_ne := by decide

/-- Both sections have the path `0`. -/
theorem zero_heading_clashes : ∃ nodes, detectSections prefaceDocument = .ok nodes ∧
    ¬ Partitions plainPipeline plainSource prefaceDocument nodes := by
  have hPaths : (detectSections prefaceDocument).toOption.map
      (fun nodes => nodes.map fun node => node.path) = some ["0", "0"] := by
    decide +kernel
  cases hDetect : detectSections prefaceDocument with
  | error failure =>
    rw [hDetect] at hPaths
    cases hPaths
  | ok nodes =>
    rw [hDetect] at hPaths
    have hTwice : (nodes.map fun node => node.path) = ["0", "0"] := Option.some.inj hPaths
    refine ⟨nodes, rfl, ?_⟩
    intro hPartitions
    have hNodup := hPartitions.paths
    rw [hTwice] at hNodup
    exact absurd hNodup (by decide)

theorem partitions_iff_introduction : ∃ nodes, detectSections introductionDocument = .ok nodes ∧
    Partitions plainPipeline plainSource introductionDocument nodes := by
  have hReturns : (detectSections introductionDocument).toOption.isSome = true := by
    decide +kernel
  have hFirst : introductionDocument.candidates.head?.map Candidate.startChar = some 0 := by
    decide +kernel
  cases hDetect : detectSections introductionDocument with
  | error failure =>
    rw [hDetect] at hReturns
    cases hReturns
  | ok nodes =>
    refine ⟨nodes, rfl, ?_⟩
    exact (partitions_iff collisionless_plainPipeline rfl rfl hDetect).mpr fun hZero =>
      hZero.2 hFirst

end Glasslab.Corpus
