import Glasslab.Foundation.Spans
import Glasslab.Foundation.Sorting
import Mathlib.Data.Prod.Lex
import Mathlib.Algebra.GroupWithZero.Nat

/-!
# Chunks of a document

`app/corpus_rag/chunking.py` and `app/corpus_rag/spans.py`: the text of a section is cut into
sentences, the sentences are packed into section units, and the sentences of a unit into evidence
spans. A sentence that is too large for its tier is cut at the ends of words first.
`app/text_tokens.py` says how large a text is.

A text is a list of characters, and a chunk refers to it by a span. Digests and the pages of a
position are parameters.
-/

namespace Glasslab.Corpus

open Foundation

/-- What `\s` of a pattern and `str.split` take for white space. -/
def isSpace (c : Char) : Bool :=
  let n := c.toNat
  (9 ≤ n ∧ n ≤ 13) ∨ (28 ≤ n ∧ n ≤ 32) ∨ n = 0x85 ∨ n = 0xa0 ∨ n = 0x1680 ∨
    (0x2000 ≤ n ∧ n ≤ 0x200a) ∨ n = 0x2028 ∨ n = 0x2029 ∨ n = 0x202f ∨ n = 0x205f ∨ n = 0x3000

/-- `text[start:end]`. -/
def slice (text : List Char) (span : Span) : List Char :=
  (text.take span.stop).drop span.start

/-- The matches of `\S+` from a position on, where a word may have been entered already. -/
def wordSpans (position : Nat) : Option Nat → List Char → List Span
  | some start, [] => [⟨start, position⟩]
  | none, [] => []
  | entered, c :: rest =>
    if isSpace c then
      match entered with
      | some start => ⟨start, position⟩ :: wordSpans (position + 1) none rest
      | none => wordSpans (position + 1) none rest
    else wordSpans (position + 1) (some (entered.getD position)) rest

/-- `_WORD.finditer(text, start, end)`. -/
def words (text : List Char) (span : Span) : List Span :=
  wordSpans span.start none (slice text span)

def charsPerToken : Nat := 3

/-- `-(-numerator // denominator)`. -/
def ceilDiv (numerator denominator : Nat) : Nat := (numerator + denominator - 1) / denominator

def estimateTokens (text : List Char) : Nat :=
  let count := (wordSpans 0 none text).length
  if count = 0 then 1 else max 1 (max count (ceilDiv text.length charsPerToken))

inductive Scan where
  /-- In a sentence; does its last character end it? -/
  | sentence (ended : Bool)
  /-- In the white space after a sentence. -/
  | gap

def endsSentence (c : Char) : Bool := c = '.' ∨ c = '!' ∨ c = '?'

/-- The texts between the matches of `(?<=[.!?])\s+`. -/
def sentenceSpans (start position : Nat) : Scan → List Char → List Span
  | _, [] => [⟨start, position⟩]
  | .sentence ended, c :: rest =>
    if ended ∧ isSpace c then
      ⟨start, position⟩ :: sentenceSpans (position + 1) (position + 1) .gap rest
    else sentenceSpans start (position + 1) (.sentence (endsSentence c)) rest
  | .gap, c :: rest =>
    if isSpace c then sentenceSpans (position + 1) (position + 1) .gap rest
    else sentenceSpans start (position + 1) (.sentence (endsSentence c)) rest

def sentenceAtoms (body : List Char) (base : Nat) : List Span :=
  (sentenceSpans base base (.sentence false) body).filter fun span => span.start < span.stop

/-- The pieces that are complete, and the one that words are added to. -/
structure Splitting where
  pieces : List Span := []
  piece : Option Span := none

def Splitting.add (text : List Char) (maxTokens : Nat) (s : Splitting) (word : Span) : Splitting :=
  match s.piece with
  | none => { s with piece := some word }
  | some piece =>
    if maxTokens < estimateTokens (slice text ⟨piece.start, word.stop⟩) then
      { pieces := s.pieces ++ [piece], piece := some word }
    else { s with piece := some ⟨piece.start, word.stop⟩ }

def splitOversized (text : List Char) (span : Span) (maxTokens : Nat) : List Span :=
  let s := (words text span).foldl (Splitting.add text maxTokens) {}
  s.pieces ++ s.piece.toList

/-- The groups that are complete, and the one that spans are added to. -/
structure Packing where
  groups : List (List Span) := []
  current : List Span := []
  currentTokens : Nat := 0

def Packing.flush (p : Packing) : Packing where
  groups := p.groups ++ [p.current]

/-- The loop of `group_atoms`, for one span. -/
def Packing.add (text : List Char) (maximum : Nat) (ideal : Option Nat) (groupCount : Nat)
    (p : Packing) (span : Span) : Packing :=
  let spanTokens := estimateTokens (slice text span)
  let p := if p.current ≠ [] ∧ maximum < p.currentTokens + spanTokens then p.flush else p
  let p :=
    { p with
      current := p.current ++ [span]
      currentTokens := p.currentTokens + spanTokens }
  match ideal with
  | some share =>
    if p.groups.length < groupCount - 1 ∧ share ≤ p.currentTokens then p.flush else p
  | none => p

/-- What is left at the end: a group of its own, or part of the last one. -/
def Packing.close (p : Packing) (target : Nat) (mergeTail : Bool) : List (List Span) :=
  if p.current = [] then p.groups
  else
    match p.groups.getLast? with
    | some last =>
      if mergeTail ∧ p.currentTokens < target then p.groups.dropLast ++ [last ++ p.current]
      else p.groups ++ [p.current]
    | none => p.groups ++ [p.current]

/-- How large a group should be, where their number is given. -/
def idealShare (text : List Char) (atoms : List Span) : Option Nat → Option Nat
  | some groupCount =>
    if 1 < groupCount then
      some (ceilDiv ((atoms.map fun span => estimateTokens (slice text span)).sum) groupCount)
    else none
  | none => none

def groupAtoms (atoms : List Span) (text : List Char) (maximum target : Nat) (mergeTail : Bool)
    (groupCount : Option Nat) : List Span :=
  let p := atoms.foldl
    (Packing.add text maximum (idealShare text atoms groupCount) (groupCount.getD 0)) {}
  (p.close target mergeTail).map Span.hull

def evidenceTargetTokens : Nat := 300

def evidenceMax : Nat := 340

def unitTargetTokens : Nat := 1200

def unitMax : Nat := 1260

/-- A section of a document, as `SectionNode` describes it. -/
structure DocumentSection where
  path : String
  title : Option (List Char)
  level : Nat
  startChar : Nat
  endChar : Nat
  path_ne : path ≠ ""
  level_pos : 1 ≤ level

def DocumentSection.span (s : DocumentSection) : Span := ⟨s.startChar, s.endChar⟩

section Tiers

variable (text : List Char)

def sentences (s : DocumentSection) : List Span := sentenceAtoms (slice text s.span) s.startChar

/-- The sentences, and the pieces of those that are too large. -/
def fittingAtoms (maxTokens : Nat) (atoms : List Span) : List Span :=
  atoms.flatMap fun atom =>
    if maxTokens < estimateTokens (slice text atom) then splitOversized text atom maxTokens
    else [atom]

def unitSpans (s : DocumentSection) : List Span :=
  let atoms := sentences text s
  let bodyTokens := (atoms.map fun atom => estimateTokens (slice text atom)).sum
  groupAtoms (fittingAtoms text unitMax atoms) text unitMax unitTargetTokens false
    (some (max 1 (ceilDiv bodyTokens unitTargetTokens)))

def evidenceSpans (s : DocumentSection) (unit : Span) : List Span :=
  groupAtoms (fittingAtoms text evidenceMax
    ((sentences text s).filter fun atom => atom.Within unit))
    text evidenceMax evidenceTargetTokens true none

inductive ChunkKind where
  | sectionUnit
  | evidenceSpan
  deriving DecidableEq, Repr

def ChunkKind.value : ChunkKind → String
  | sectionUnit => "section_unit"
  | evidenceSpan => "evidence_span"

def sectionChunks (s : DocumentSection) : List (ChunkKind × Span) :=
  (unitSpans text s).flatMap fun unit =>
    (.sectionUnit, unit) :: (evidenceSpans text s unit).map fun span => (.evidenceSpan, span)

end Tiers

/-- `sanitize_text`: without the characters that a text column cannot store. -/
def sanitizeText (text : List Char) : List Char :=
  text.filter fun c =>
    let n := c.toNat
    ¬ (n ≤ 8 ∨ n = 11 ∨ n = 12 ∨ (14 ≤ n ∧ n ≤ 31) ∨ n = 127)

structure RagSectionRecord where
  sectionId : String
  docId : String
  path : String
  title : Option (List Char)
  level : Nat
  pageStart : Option Nat
  pageEnd : Option Nat

structure RagChunkRecord where
  chunkId : String
  sourceId : String
  docId : String
  sectionId : String
  kind : ChunkKind
  chunkIndex : Nat
  text : List Char
  digest : String
  tokenCount : Nat
  pageStart : Option Nat
  pageEnd : Option Nat
  charStart : Nat
  charEnd : Nat
  sectionPath : String
  indexVersion : String

def RagChunkRecord.span (chunk : RagChunkRecord) : Span := ⟨chunk.charStart, chunk.charEnd⟩

/-- The document that is chunked. Its ids are not empty. -/
structure Source where
  sourceId : String
  docId : String
  sourceId_ne : sourceId ≠ ""
  docId_ne : docId ≠ ""
  resolvePage : Nat → Option Nat := fun _ => none

structure Digests where
  /-- The first half of the SHA-256 digest of a key. -/
  detId : String → String
  sha256 : List Char → String

section Build

variable (digests : Digests) (source : Source) (text : List Char)

def sectionId (s : DocumentSection) : String := digests.detId (source.sourceId ++ "|" ++ s.path)

def sectionRecord (s : DocumentSection) : RagSectionRecord where
  sectionId := sectionId digests source s
  docId := source.docId
  path := s.path
  title := s.title.map sanitizeText
  level := s.level
  pageStart := source.resolvePage s.startChar
  pageEnd := source.resolvePage (max s.startChar (s.endChar - 1))

/-- `_make_chunk`. A record with an empty text is refused. -/
def makeChunk (s : DocumentSection) (kind : ChunkKind) (span : Span) (chunkIndex : Nat) :
    Option RagChunkRecord :=
  let chunkText := sanitizeText (slice text span)
  if chunkText = [] then none
  else
    some
      { chunkId := digests.detId
          (source.sourceId ++ "|" ++ kind.value ++ "|" ++ toString chunkIndex)
        sourceId := source.sourceId
        docId := source.docId
        sectionId := sectionId digests source s
        kind := kind
        chunkIndex := chunkIndex
        text := chunkText
        digest := digests.sha256 chunkText
        tokenCount := estimateTokens chunkText
        pageStart := source.resolvePage span.start
        pageEnd := source.resolvePage (max span.start (span.stop - 1))
        charStart := span.start
        charEnd := span.stop
        sectionPath := s.path
        indexVersion := "rag-v1" }

def orderedSections (sections : List DocumentSection) : List DocumentSection :=
  sortOn (fun s => toLex (s.startChar, s.endChar)) sections

def plannedChunks (sections : List DocumentSection) : List (DocumentSection × ChunkKind × Span) :=
  (orderedSections sections).flatMap fun s => (sectionChunks text s).map fun chunk => (s, chunk)

/-- Make the records of chunks, with indices from a number on. -/
def makeChunks (chunkIndex : Nat) :
    List (DocumentSection × ChunkKind × Span) → Option (List RagChunkRecord)
  | [] => some []
  | (s, kind, span) :: rest => do
    let chunk ← makeChunk digests source text s kind span chunkIndex
    let chunks ← makeChunks (chunkIndex + 1) rest
    pure (chunk :: chunks)

def buildChunks (sections : List DocumentSection) :
    Option (List RagSectionRecord × List RagChunkRecord) := do
  let chunks ← makeChunks digests source text 0 (plannedChunks text sections)
  pure ((orderedSections sections).map (sectionRecord digests source), chunks)

end Build

end Glasslab.Corpus
