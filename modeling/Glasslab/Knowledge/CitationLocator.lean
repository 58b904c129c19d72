import Glasslab.Knowledge.Retrieval
import Glasslab.Foundation.Squeezing

/-!
# The block of a citation

`match_block` of `app/citation_locator.py` looks for the block that an excerpt was quoted from: the
blocks with the first letters and digits of the excerpt are candidates, the first of them that has
the excerpt word for word is preferred, and the rank of the citation is used where there is none.

An excerpt without an ASCII letter or digit has no candidates, so its block is found by its rank or
not at all. For other excerpts the first block that has the excerpt up to white space is found
(`matchBlock_located`).
-/

namespace Glasslab.Knowledge.CitationLocator

open Foundation Corpus List Option

structure MatchResult where
  blockIndex : Nat
  blockText : List Char
  deriving DecidableEq, Repr

def normalizeAlnum (text : List Char) : List Char := (collapse text).filter Char.isAlphanum

def excerptPrefixChars : Nat := 36

def excerptPrefix (excerpt : List Char) : List Char :=
  (normalizeAlnum excerpt).take excerptPrefixChars

def prefixMatchPositions (blocks : List ContextBlock) (start : List Char) : List Nat :=
  if start = [] then []
  else (blocks.zipIdx.filter fun entry => start <:+: normalizeAlnum entry.1.text).map Prod.snd

/-- `verify_excerpt` of the text of a block. -/
def verifies (excerpt : List Char) (block : ContextBlock) : Bool :=
  verifyExcerpt (String.ofList excerpt) (String.ofList block.text)

def preferVerbatim (blocks : List ContextBlock) (first : Nat) (rest : List Nat)
    (excerpt : List Char) : Nat :=
  ((first :: rest).find? fun position => blocks[position]?.any (verifies excerpt)).getD first

def matchBlock (blocks : List ContextBlock) (excerpt : List Char) (sourceIndex : Option Int) :
    Option MatchResult :=
  let matched : Option Nat :=
    match prefixMatchPositions blocks (excerptPrefix excerpt) with
    | first :: rest => some (preferVerbatim blocks first rest excerpt)
    | [] =>
      sourceIndex.bind fun rank =>
        if 1 ≤ rank ∧ rank ≤ blocks.length then some (rank - 1).toNat else none
  matched.bind fun position => blocks[position]?.map fun block => ⟨position, block.text⟩

def OccursIn (excerpt : List Char) (block : ContextBlock) : Prop := excerpt <:+: block.text

def Locates (occurs : ContextBlock → Prop) (blocks : List ContextBlock) (excerpt : List Char)
    (sourceIndex : Option Int) : Prop :=
  (∃ block ∈ blocks, occurs block) →
    ∃ result block, matchBlock blocks excerpt sourceIndex = some result ∧
      blocks[result.blockIndex]? = some block ∧ result.blockText = block.text ∧ occurs block

/-- There is an ASCII letter or digit. -/
def HasAlnum (excerpt : List Char) : Prop := ∃ c ∈ excerpt, c.isAlphanum = true

variable {blocks : List ContextBlock} {excerpt text : List Char} {sourceIndex : Option Int}
  {block : ContextBlock}

theorem not_isAlphanum_of_isSpace (c : Char) (h : isSpace c = true) : c.isAlphanum = false := by
  have hSpace := of_decide_eq_true h
  rw [Bool.eq_false_iff]
  intro hAlnum
  unfold Char.isAlphanum Char.isAlpha Char.isUpper Char.isLower Char.isDigit at hAlnum
  simp only [Bool.or_eq_true, Bool.and_eq_true, decide_eq_true_eq, UInt32.le_iff_toNat_le,
    ge_iff_le] at hAlnum
  have hNat : c.toNat = c.val.toNat := rfl
  have hBounds : 'A'.val.toNat = 65 ∧ 'Z'.val.toNat = 90 ∧ 'a'.val.toNat = 97 ∧
      'z'.val.toNat = 122 ∧ '0'.val.toNat = 48 ∧ '9'.val.toNat = 57 := by decide
  omega

theorem normalizeAlnum_eq (text : List Char) : normalizeAlnum text = text.filter Char.isAlphanum :=
  filter_collapse (by decide) not_isAlphanum_of_isSpace text

theorem excerptPrefix_ne_nil_iff : excerptPrefix excerpt ≠ [] ↔ HasAlnum excerpt := by
  have hTake : excerptPrefix excerpt = [] ↔ normalizeAlnum excerpt = [] := by
    rw [excerptPrefix, take_eq_nil_iff]
    exact or_iff_right (by decide)
  rw [ne_eq, hTake, normalizeAlnum_eq, filter_eq_nil_iff, HasAlnum]
  simp

theorem verifies_iff : verifies excerpt block = true ↔
    collapse excerpt ≠ [] ∧ collapse excerpt <:+: collapse block.text := by
  rw [verifies, verifyExcerpt, decide_eq_true_iff, String.toList_ofList, String.toList_ofList]

/-- A block that has the excerpt up to white space has its first letters and digits. -/
theorem excerptPrefix_infix (h : verifies excerpt block = true) :
    excerptPrefix excerpt <:+: normalizeAlnum block.text := by
  have hCollapse := (verifies_iff.mp h).2
  exact (List.take_prefix _ _).isInfix.trans (hCollapse.filter _)

/-- The candidates that have the excerpt up to white space are the blocks that have it. -/
theorem find?_positions (hAlnum : HasAlnum excerpt) :
    (prefixMatchPositions blocks (excerptPrefix excerpt)).find?
        (fun position => blocks[position]?.any (verifies excerpt)) =
      (blocks.zipIdx.find? fun entry => verifies excerpt entry.1).map Prod.snd := by
  rw [prefixMatchPositions, if_neg (excerptPrefix_ne_nil_iff.mpr hAlnum), List.find?_map,
    List.find?_filter]
  rw [← List.head?_filter, ← List.head?_filter]
  congr 2
  refine filter_congr fun entry hEntry => ?_
  have hBlock : blocks[entry.2]? = some entry.1 := mem_zipIdx_iff_getElem?.mp hEntry
  rw [Function.comp_apply, hBlock, any_some]
  cases hVerifies : verifies excerpt entry.1 with
  | false => simp
  | true => simpa using excerptPrefix_infix hVerifies

/-- The first block that has the excerpt up to white space is found. -/
theorem matchBlock_of_alnum (hAlnum : HasAlnum excerpt)
    (hFind : blocks.find? (verifies excerpt) = some block) :
    ∃ position, blocks[position]? = some block ∧
      matchBlock blocks excerpt sourceIndex = some ⟨position, block.text⟩ := by
  have hEntries : (blocks.zipIdx.find? fun entry => verifies excerpt entry.1).map Prod.fst =
      some block := by
    rw [← hFind]
    have hFst : blocks.zipIdx.map Prod.fst = blocks := zipIdx_map_fst 0 blocks
    conv_rhs => rw [← hFst, List.find?_map]
    rfl
  obtain ⟨⟨found, position⟩, hEntry, rfl⟩ := map_eq_some_iff.mp hEntries
  have hBlock : blocks[position]? = some found :=
    mem_zipIdx_iff_getElem?.mp (mem_of_find?_eq_some hEntry)
  have hPositions : (prefixMatchPositions blocks (excerptPrefix excerpt)).find? _ = _ :=
    find?_positions hAlnum
  rw [hEntry, map_some] at hPositions
  refine ⟨position, hBlock, ?_⟩
  unfold matchBlock
  cases hAll : prefixMatchPositions blocks (excerptPrefix excerpt) with
  | nil =>
    rw [hAll] at hPositions
    cases hPositions
  | cons first rest =>
    rw [hAll] at hPositions
    dsimp only
    rw [preferVerbatim, hPositions, getD_some, bind_some, hBlock, map_some]

/-- Without letters and digits the block is the one of the rank. -/
theorem matchBlock_of_not_alnum (hAlnum : ¬HasAlnum excerpt) {result : MatchResult} :
    matchBlock blocks excerpt sourceIndex = some result ↔
      ∃ (n : Nat) (block : ContextBlock), sourceIndex = some (n + 1 : Int) ∧
        blocks[n]? = some block ∧ result = ⟨n, block.text⟩ := by
  have hNil : excerptPrefix excerpt = [] := by
    by_contra hNe
    exact hAlnum (excerptPrefix_ne_nil_iff.mp hNe)
  unfold matchBlock
  rw [hNil, prefixMatchPositions, if_pos rfl]
  constructor
  · intro h
    obtain ⟨n, hRank, hBlock⟩ := bind_eq_some_iff.mp h
    obtain ⟨block, hGet, rfl⟩ := map_eq_some_iff.mp hBlock
    obtain ⟨rank, rfl, hn⟩ := bind_eq_some_iff.mp hRank
    split at hn
    next hIn =>
      obtain rfl := Option.some.inj hn
      refine ⟨_, block, ?_, hGet, rfl⟩
      congr 1
      omega
    next => cases hn
  · rintro ⟨n, block, rfl, hGet, rfl⟩
    have hLt : n < blocks.length := (List.getElem?_eq_some_iff.mp hGet).1
    have hIn : 1 ≤ (n + 1 : Int) ∧ (n + 1 : Int) ≤ blocks.length := by omega
    rw [bind_some, if_pos hIn, bind_some]
    have hToNat : ((n : Int) + 1 - 1).toNat = n := by omega
    rw [hToNat, hGet, map_some]

/-- An excerpt with an ASCII letter or digit that is in some block up to white space gives the first
such block. An excerpt without one gives the block of the rank of the citation, if there is
one. -/
theorem matchBlock_located (blocks : List ContextBlock) (excerpt : List Char)
    (sourceIndex : Option Int) :
    (HasAlnum excerpt → (∃ block ∈ blocks, verifies excerpt block = true) →
      ∃ position block, matchBlock blocks excerpt sourceIndex = some ⟨position, block.text⟩ ∧
        blocks[position]? = some block ∧ blocks.find? (verifies excerpt) = some block) ∧
    (¬HasAlnum excerpt → ∀ result, matchBlock blocks excerpt sourceIndex = some result ↔
      ∃ (n : Nat) (block : ContextBlock), sourceIndex = some (n + 1 : Int) ∧
        blocks[n]? = some block ∧ result = ⟨n, block.text⟩) := by
  constructor
  · rintro hAlnum ⟨held, hMem, hHeld⟩
    obtain ⟨first, hFirst⟩ : ∃ first, blocks.find? (verifies excerpt) = some first :=
      isSome_iff_exists.mp (List.find?_isSome.mpr ⟨held, hMem, hHeld⟩)
    obtain ⟨position, hGet, hMatch⟩ := matchBlock_of_alnum hAlnum hFirst
    exact ⟨position, first, hMatch, hGet, hFirst⟩
  · exact fun hAlnum _ => matchBlock_of_not_alnum hAlnum

def arrowBlocks : List ContextBlock :=
  [⟨0, "training loss".toList⟩, ⟨1, "loss → 0".toList⟩]

/-- The text around the arrow is found. -/
theorem matchBlock_located_arrow :
    ∃ position block, matchBlock arrowBlocks "loss →".toList none = some ⟨position, block.text⟩ ∧
      arrowBlocks[position]? = some block ∧
      arrowBlocks.find? (verifies "loss →".toList) = some block :=
  (matchBlock_located arrowBlocks "loss →".toList none).1 ⟨'l', by decide, by decide⟩
    ⟨⟨1, "loss → 0".toList⟩, mem_of_getElem? (i := 1) rfl, by decide +kernel⟩

/-- The arrow is in the second block, and no block is found. -/
theorem arrow_not_located :
    ¬Locates (OccursIn "→".toList) arrowBlocks "→".toList none ∧
      ¬Locates (fun block => verifies "→".toList block = true) arrowBlocks "→".toList none := by
  have hMatch : matchBlock arrowBlocks "→".toList none = none := by decide +kernel
  constructor
  · intro h
    obtain ⟨result, -, hResult, -⟩ :=
      h ⟨⟨1, "loss → 0".toList⟩, mem_of_getElem? (i := 1) rfl, "loss ".toList, " 0".toList, rfl⟩
    cases hResult
  · intro h
    obtain ⟨result, -, hResult, -⟩ :=
      h ⟨⟨1, "loss → 0".toList⟩, mem_of_getElem? (i := 1) rfl, by decide +kernel⟩
    cases hResult

end Glasslab.Knowledge.CitationLocator
