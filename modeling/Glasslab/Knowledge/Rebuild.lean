import Glasslab.Knowledge.ChunkWindows
import Glasslab.Knowledge.Ingestion
import Glasslab.Corpus.TokenWindows
import Glasslab.Foundation.LongestFit

/-!
# Rebuilding the index

`_commit_source`, `_rechunk_source` and `rebuild_index` of `app/knowledge_manager.py`. A source that
is ingested is stored with its normalized text, and every rebuild cuts that text again. A source
without it is joined from its chunks: what a chunk adds is what follows the longest end of what the
chunk before it has added, and all that is added is joined with spaces. That gives the text back
where every window ends at a space and that end is the text that the two windows share
(`collapse_joinStored`).
-/

namespace Glasslab.Knowledge

open Foundation Corpus Foundation.Machine List

/-- The length of the longest end of one text, of at most so many characters, with which the other
one begins. -/
def sharedLength (previous current : List Char) : (limit : Nat) → Nat
  | 0 => 0
  | o + 1 =>
    if previous.drop (previous.length - (o + 1)) = current.take (o + 1) then o + 1
    else sharedLength previous current o

/-- What is kept of the chunks after the first. Each is compared with what was kept before it. -/
def keptParts (overlap : Nat) : (last : List Char) → List (List Char) → List (List Char)
  | _, [] => []
  | last, current :: rest =>
    let limit := min (min last.length current.length) (overlap * 3)
    let part := current.drop (sharedLength last current limit)
    part :: keptParts overlap part rest

def joinStored (overlap : Nat) : List (List Char) → List Char
  | [] => []
  | first :: rest => [' '].intercalate ((first :: keptParts overlap first rest).filter (· ≠ []))

variable {z : Sizing} {text previous current last : List Char} {window next : Span}
  {start stop limit fuel : Nat}

theorem longest_sharedLength (hPrevious : limit ≤ previous.length)
    (hCurrent : limit ≤ current.length) :
    LongestPrefix (fun part => part <:+ previous ∧ part.length ≤ limit) current
      (current.take (sharedLength previous current limit)) := by
  induction limit with
  | zero =>
    refine ⟨⟨List.take_prefix _ _, nil_suffix, Nat.le_refl _⟩, fun other hOther => ?_⟩
    exact hOther.2.2
  | succ o ih =>
    have hShorter := ih (by omega) (by omega)
    rw [sharedLength]
    by_cases hEq : previous.drop (previous.length - (o + 1)) = current.take (o + 1)
    · rw [if_pos hEq]
      have hLength : (current.take (o + 1)).length = o + 1 := length_take_of_le hCurrent
      refine ⟨⟨List.take_prefix _ _, hEq ▸ drop_suffix _ _, hLength.le⟩, fun other hOther => ?_⟩
      rw [hLength]
      exact hOther.2.2
    · rw [if_neg hEq]
      refine hShorter.congr fun part hPart => and_congr_right fun hSuffix => ?_
      -- an end with one more character would be the one that was tried
      refine ⟨fun hLe => Nat.le_succ_of_le hLe, fun hLe => ?_⟩
      refine Nat.le_of_lt_succ (lt_of_le_of_ne hLe fun hLength => hEq ?_)
      have hLength : part.length = o + 1 := hLength
      rw [← hLength, ← suffix_iff_eq_drop.mp hSuffix, ← prefix_iff_eq_take.mp hPart]

/-- What is cut off is the longest end of what was kept before. -/
theorem longest_cut (overlap : Nat) :
    LongestPrefix (fun part => part <:+ last ∧ part.length ≤ overlap * 3) current
      (current.take (sharedLength last current
        (min (min last.length current.length) (overlap * 3)))) := by
  refine (longest_sharedLength (by omega) (by omega)).congr fun part hPart => ?_
  refine and_congr_right fun hSuffix => ?_
  have hLast := hSuffix.length_le
  have hCurrent := hPart.length_le
  omega

/-! ## Junctions -/

/-- Two windows can be told apart again: the first one ends at a space, and the longest end of what
it adds with which the chunk of the second one begins is the text that they share. -/
structure Rejoins (overlap : Nat) (text : List Char) (start : Nat) (window next : Span) : Prop where
  atSpace : text[window.stop]? = some ' '
  shared : LongestPrefix
    (fun part => part <:+ slice text ⟨start, window.stop⟩ ∧ part.length ≤ overlap * 3)
    (strip (slice text next)) (strip (slice text ⟨next.start, window.stop⟩))

/-- Every two windows in a row can be told apart, where the first one adds what follows a place. -/
def AllRejoin (overlap : Nat) (text : List Char) : (start : Nat) → List Span → Prop
  | start, window :: next :: rest =>
    Rejoins overlap text start window next ∧ AllRejoin overlap text window.stop (next :: rest)
  | _, _ => True

variable {overlap : Nat}

theorem rejoins_iff : Rejoins overlap text start window next ↔
    text[window.stop]? = some ' ' ∧
      (strip (slice text next)).take (sharedLength (slice text ⟨start, window.stop⟩)
        (strip (slice text next)) (min (min (slice text ⟨start, window.stop⟩).length
          (strip (slice text next)).length) (overlap * 3))) =
        strip (slice text ⟨next.start, window.stop⟩) := by
  constructor
  · intro h
    exact ⟨h.atSpace, (longest_cut overlap).unique h.shared⟩
  · rintro ⟨hSpace, hShared⟩
    exact ⟨hSpace, hShared ▸ longest_cut overlap⟩

instance (overlap : Nat) (text : List Char) (start : Nat) (window next : Span) :
    Decidable (Rejoins overlap text start window next) :=
  decidable_of_iff' _ rejoins_iff

instance AllRejoin.decidable (overlap : Nat) (text : List Char) :
    (start : Nat) → (windows : List Span) → Decidable (AllRejoin overlap text start windows)
  | _, [] => .isTrue trivial
  | _, [_] => .isTrue trivial
  | start, window :: next :: rest =>
    have := AllRejoin.decidable overlap text window.stop (next :: rest)
    inferInstanceAs (Decidable (Rejoins overlap text start window next ∧ _))

def skipSpace (text : List Char) (place : Nat) : Nat :=
  if text[place]? = some ' ' then place + 1 else place

def WordEnd (text : List Char) (stop : Nat) : Prop := stop = text.length ∨ text[stop]? = some ' '

theorem isSpace_of_wordEnd (hSpaced : Spaced isSpace ' ' text) {c : Char}
    (hGet : text[stop]? = some c) (hEnd : WordEnd text (stop + 1)) : isSpace c = false := by
  cases hSpace : isSpace c with
  | false => rfl
  | true =>
    obtain ⟨-, d, hd, hText⟩ := hSpaced _ _ hGet hSpace
    rcases hEnd with hEnd | hEnd
    · rw [hEnd, List.getElem?_length] at hd
      cases hd
    · rw [hEnd] at hd
      rw [← Option.some.inj hd] at hText
      revert hText
      decide

theorem slice_append_drop (hLe : start ≤ stop) (hStop : stop ≤ text.length) :
    slice text ⟨start, stop⟩ ++ text.drop stop = text.drop start := by
  conv_rhs => rw [← take_append_drop stop text]
  rw [drop_append_of_le_length (by rw [length_take]; omega)]
  rfl

theorem slice_cons {c : Char} (hGet : text[start]? = some c) (hLt : start < stop) :
    slice text ⟨start, stop⟩ = c :: slice text ⟨start + 1, stop⟩ := by
  have hTake : (text.take stop)[start]? = some c := by rw [List.getElem?_take, if_pos hLt, hGet]
  obtain ⟨hLength, hEq⟩ := List.getElem?_eq_some_iff.mp hTake
  unfold slice
  rw [drop_eq_getElem_cons hLength, hEq]

theorem slice_of_le (h : stop ≤ start) : slice text ⟨start, stop⟩ = [] := by
  unfold slice
  rw [drop_eq_nil_iff, length_take]
  exact (Nat.min_le_left _ _).trans h

theorem strip_slice (hSpaced : Spaced isSpace ' ' text) (hLt : start < stop)
    (hStop : stop ≤ text.length) (hEnd : WordEnd text stop) :
    skipSpace text start < stop ∧ strip (slice text ⟨start, stop⟩) =
      slice text ⟨skipSpace text start, stop⟩ ∧
      ∀ c ∈ (slice text ⟨skipSpace text start, stop⟩).head?, isSpace c = false := by
  obtain ⟨last, rfl⟩ := Nat.exists_eq_succ_of_ne_zero (Nat.ne_zero_of_lt hLt)
  have hWord {place : Nat} {c : Char} (hPlace : place ≤ last) (hGet : text[place]? = some c)
      (hText : isSpace c = false) :
      strip (slice text ⟨place, last + 1⟩) = slice text ⟨place, last + 1⟩ ∧
        ∀ d ∈ (slice text ⟨place, last + 1⟩).head?, isSpace d = false := by
    have hHead : ∀ d ∈ (slice text ⟨place, last + 1⟩).head?, isSpace d = false := by
      rw [slice_cons hGet (Nat.lt_succ_of_le hPlace)]
      intro d hd
      rw [← Option.some.inj hd, hText]
    refine ⟨strip_of_ends hHead fun d hd => ?_, hHead⟩
    refine isSpace_of_wordEnd hSpaced ?_ hEnd
    have hLength : (slice text ⟨place, last + 1⟩).length = last + 1 - place := by
      simp only [slice, length_drop, length_take]
      omega
    have hPlaces : place + (last + 1 - place - 1) = last := by omega
    rw [← Option.mem_def.mp hd, List.getLast?_eq_getElem?, hLength, slice, List.getElem?_drop,
      List.getElem?_take, hPlaces, if_pos (Nat.lt_succ_self _)]
  have hStart := List.getElem?_eq_getElem (Nat.lt_of_lt_of_le hLt hStop)
  by_cases hSpace : text[start]? = some ' '
  · have hSkip : skipSpace text start = start + 1 := if_pos hSpace
    obtain ⟨-, d, hd, hText⟩ := hSpaced _ _ hSpace (by decide)
    have hLater : start + 1 < last + 1 := by
      refine lt_of_le_of_ne hLt fun hEq => ?_
      obtain rfl : start = last := Nat.succ.inj hEq
      have hNot := isSpace_of_wordEnd hSpaced hSpace hEnd
      revert hNot
      decide
    obtain ⟨hStrip, hHead⟩ := hWord (Nat.le_of_lt_succ hLater) hd hText
    rw [hSkip]
    refine ⟨hLater, ?_, hHead⟩
    rw [slice_cons hSpace hLt]
    exact hStrip
  · have hSkip : skipSpace text start = start := if_neg hSpace
    have hText : isSpace text[start] = false := by
      cases hChar : isSpace text[start] with
      | false => rfl
      | true =>
        rw [(hSpaced _ _ hStart hChar).1] at hStart
        exact absurd hStart hSpace
    obtain ⟨hStrip, hHead⟩ := hWord (Nat.le_of_lt_succ hLt) hStart hText
    rw [hSkip]
    exact ⟨hLt, hStrip, hHead⟩

def Kept (part added : List Char) : Prop := part = added ∨ ' ' :: part = added

theorem Kept.pieces_eq {part added : List Char} (h : Kept part added) :
    pieces isSpace part = pieces isSpace added := by
  rcases h with rfl | rfl
  · rfl
  · exact (pieces_cons_of_space (by decide)).symm

/-- What is kept of a chunk that can be told apart from the one before it. -/
theorem kept_drop (hSpaced : Spaced isSpace ' ' text)
    (hKept : Kept last (slice text ⟨start, window.stop⟩))
    (h : Rejoins overlap text start window next)
    (hFrom : next.start ≤ window.stop) (hLater : next.start < next.stop)
    (hTo : window.stop ≤ next.stop) (hStop : next.stop ≤ text.length)
    (hEnd : WordEnd text next.stop) :
    Kept ((strip (slice text next)).drop (sharedLength last (strip (slice text next))
        (min (min last.length (strip (slice text next)).length) (overlap * 3))))
      (slice text ⟨window.stop, next.stop⟩) := by
  obtain ⟨-, hChunk, hHead⟩ := strip_slice hSpaced hLater hStop hEnd
  have hTake := (@longest_cut (strip (slice text next)) last overlap).unique
    (h.shared.congr fun part hPart => and_congr_left fun _ => by
      rcases hKept with rfl | hCons
      · exact Iff.rfl
      · rw [← hCons, suffix_cons_iff]
        refine or_iff_right fun hWhole => ?_
        -- a chunk does not begin with a space
        obtain ⟨rest, hRest⟩ := hPart
        have hFirst : (strip (slice text next)).head? = some ' ' := by
          rw [← hRest, hWhole]
          rfl
        have hNot := hHead ' ' (by rw [← hChunk]; exact hFirst)
        revert hNot
        decide)
  generalize sharedLength last (strip (slice text next))
    (min (min last.length (strip (slice text next)).length) (overlap * 3)) = cut at hTake ⊢
  have hSplit := take_append_drop cut (strip (slice text next))
  rw [hTake] at hSplit
  rcases Nat.lt_or_eq_of_le hFrom with hLt | hEq
  · left
    obtain ⟨hSkip, hShared, -⟩ :=
      strip_slice hSpaced hLt (hTo.trans hStop) (.inr h.atSpace)
    rw [hShared] at hSplit
    refine append_cancel_left (hSplit.trans ?_)
    exact hChunk.trans (slice_append hSkip.le hTo)
  · right
    have hShared : strip (slice text ⟨next.start, window.stop⟩) = [] := by
      rw [slice_of_le hEq.ge]
      rfl
    have hSpace : skipSpace text next.start = window.stop + 1 := by
      rw [hEq]
      exact if_pos h.atSpace
    rw [hShared, nil_append] at hSplit
    rw [slice_cons h.atSpace (hEq ▸ hLater), hSplit]
    exact congrArg (' ' :: ·) (hChunk.trans (by rw [hSpace]))

theorem AllRejoin.atSpace {rest : List Span}
    (h : AllRejoin overlap text start (window :: rest)) (hRest : rest ≠ []) :
    text[window.stop]? = some ' ' := by
  cases rest with
  | nil => exact absurd rfl hRest
  | cons next rest => exact h.1.atSpace

theorem pieces_append_drop (hEnd : WordEnd text stop) (part : List Char) :
    pieces isSpace (part ++ text.drop stop) =
      pieces isSpace part ++ pieces isSpace (text.drop stop) := by
  rcases hEnd with rfl | hSpace
  · have hNil : pieces isSpace ([] : List Char) = [] := rfl
    rw [drop_length, append_nil, hNil, append_nil]
  · obtain ⟨hIn, hEq⟩ := List.getElem?_eq_some_iff.mp hSpace
    have hGap : isSpace ' ' = true := by decide
    rw [drop_eq_getElem_cons hIn, hEq, pieces_append_cons hGap, pieces_cons_of_space hGap]

namespace Sizing

theorem nextStart_le (h : window.start < window.stop) : z.nextStart window ≤ window.stop := by
  unfold nextStart
  omega

theorem lt_nextStart (z : Sizing) (window : Span) : window.start < z.nextStart window :=
  Nat.lt_of_succ_le (Nat.le_max_right _ _)

end Sizing

theorem pieces_keptParts (hSpaced : Spaced isSpace ' ' text)
    (hWindow : window.stop = z.windowEnd text window.start) (hStart : window.start < text.length)
    (hStop : window.stop < text.length) (hFuel : text.length ≤ z.nextStart window + fuel)
    (hKept : Kept last (slice text ⟨start, window.stop⟩))
    (hRejoin : AllRejoin z.overlap text start
      (window :: z.windowsFrom text fuel (z.nextStart window))) :
    (keptParts z.overlap last ((z.windowsFrom text fuel (z.nextStart window)).map fun s =>
      strip (slice text s))).flatMap (pieces isSpace) = pieces isSpace (text.drop window.stop) := by
  have hNext : z.nextStart window ≤ window.stop :=
    Sizing.nextStart_le (hWindow ▸ Sizing.lt_windowEnd hStart)
  induction fuel generalizing window start last with
  | zero => omega
  | succ fuel ih =>
    have hIn : z.nextStart window < text.length := by omega
    obtain ⟨next, hEq, hFrom, hEnd⟩ : ∃ next : Span,
        ⟨z.nextStart window, z.windowEnd text (z.nextStart window)⟩ = next ∧
          next.start = z.nextStart window ∧ next.stop = z.windowEnd text next.start :=
      ⟨_, rfl, rfl, rfl⟩
    have hLe : window.stop ≤ next.stop := by
      rw [hEnd, hFrom]
      exact (Sizing.windowEnd_nextStart hWindow hStop).1
    have hLater : next.start < next.stop := hEnd ▸ Sizing.lt_windowEnd (hFrom ▸ hIn)
    have hBound : next.stop ≤ text.length := hEnd ▸ z.windowEnd_le text next.start
    rw [Sizing.windowsFrom_succ hIn, hEq, ← hFrom, ← hEnd] at hRejoin ⊢
    have hDrop := slice_append_drop hLe hBound
    by_cases hLast : text.length ≤ next.stop
    · rw [if_pos hLast] at hRejoin ⊢
      have hWord : WordEnd text next.stop := .inl (Nat.le_antisymm hBound hLast)
      have hPart := kept_drop hSpaced hKept hRejoin.1 (hFrom ▸ hNext) hLater hLe hBound hWord
      rw [map_singleton, keptParts, keptParts, flatMap_singleton, hPart.pieces_eq, ← hDrop,
        drop_of_length_le hLast, append_nil]
    · rw [if_neg hLast] at hRejoin ⊢
      have hMore : z.windowsFrom text fuel (z.nextStart next) ≠ [] := by
        have hNextLe : z.nextStart next ≤ next.stop := Sizing.nextStart_le hLater
        have hHead : (z.windowsFrom text fuel (z.nextStart next)).head? = some _ :=
          Sizing.head?_windowsFrom (by omega) (by omega)
        exact fun hNil => by rw [hNil] at hHead; cases hHead
      have hWord : WordEnd text next.stop := .inr (hRejoin.2.atSpace hMore)
      have hPart := kept_drop hSpaced hKept hRejoin.1 (hFrom ▸ hNext) hLater hLe hBound hWord
      rw [map_cons, keptParts, flatMap_cons, hPart.pieces_eq, ← hDrop,
        pieces_append_drop hWord]
      congr 1
      exact ih hEnd (hFrom ▸ hIn) (Nat.not_le.mp hLast) (by have := z.lt_nextStart next; omega)
        hPart hRejoin.2 (Sizing.nextStart_le hLater)

theorem pieces_joinStored (overlap : Nat) (first : List Char) (rest : List (List Char)) :
    pieces isSpace (joinStored overlap (first :: rest)) =
      pieces isSpace first ++ (keptParts overlap first rest).flatMap (pieces isSpace) := by
  have hFilter (texts : List (List Char)) :
      (texts.filter (· ≠ [])).flatMap (pieces isSpace) = texts.flatMap (pieces isSpace) := by
    induction texts with
    | nil => rfl
    | cons part texts ih =>
      cases part with
      | nil =>
        rw [filter_cons_of_neg (by simp), ih, flatMap_cons]
        rfl
      | cons c part =>
        rw [filter_cons_of_pos (by simp), flatMap_cons, flatMap_cons, ih]
  rw [joinStored, pieces_intercalate (by decide), hFilter, flatMap_cons]

/-- The words of the text are read off its windows if every two of them can be told apart. -/
theorem pieces_windows (hSpaced : Spaced isSpace ' ' text)
    (hHead : ∀ c ∈ text.head?, isSpace c = false)
    (hRejoin : AllRejoin z.overlap text 0 (z.windows text)) :
    pieces isSpace (joinStored z.overlap ((z.windows text).map fun s => strip (slice text s))) =
      pieces isSpace text := by
  rw [Sizing.windows_eq] at hRejoin ⊢
  by_cases hNil : text = []
  · subst hNil
    rfl
  have hStart : 0 < text.length := length_pos_iff.mpr hNil
  obtain ⟨fuel, hFuel⟩ := Nat.exists_eq_succ_of_ne_zero hStart.ne'
  obtain ⟨window, hEq, hFrom, hEnd⟩ : ∃ window : Span,
      ⟨0, z.windowEnd text 0⟩ = window ∧ window.start = 0 ∧
        window.stop = z.windowEnd text window.start := ⟨_, rfl, rfl, rfl⟩
  have hLater : window.start < window.stop := hEnd ▸ Sizing.lt_windowEnd (hFrom ▸ hStart)
  have hBound : window.stop ≤ text.length := hEnd ▸ z.windowEnd_le text window.start
  have hSkip : skipSpace text 0 = 0 := by
    refine if_neg fun hSpace => ?_
    rw [← List.head?_eq_getElem?] at hSpace
    have hNot := hHead ' ' hSpace
    revert hNot
    decide
  have hFirst (hWord : WordEnd text window.stop) :
      strip (slice text window) = slice text ⟨0, window.stop⟩ := by
    have hChunk := (strip_slice hSpaced hLater hBound hWord).2.1
    have hWindow : window = ⟨0, window.stop⟩ := by rw [← hFrom]
    rw [hFrom, hSkip] at hChunk
    exact (congrArg (fun s => strip (slice text s)) hWindow).trans hChunk
  rw [hFuel, Sizing.windowsFrom_succ hStart, hEq] at hRejoin ⊢
  rw [← hFrom, ← hEnd] at hRejoin ⊢
  have hDrop := slice_append_drop (Nat.zero_le window.stop) hBound
  rw [drop_zero] at hDrop
  rw [map_cons, pieces_joinStored]
  by_cases hLast : text.length ≤ window.stop
  · rw [if_pos hLast, map_nil, keptParts, flatMap_nil, append_nil,
      hFirst (.inl (Nat.le_antisymm hBound hLast))]
    rw [drop_of_length_le hLast, append_nil] at hDrop
    rw [hDrop]
  · rw [if_neg hLast] at hRejoin ⊢
    have hAfter := z.lt_nextStart window
    have hNextLe : z.nextStart window ≤ window.stop := Sizing.nextStart_le hLater
    have hMore : z.windowsFrom text fuel (z.nextStart window) ≠ [] := by
      have hNext : (z.windowsFrom text fuel (z.nextStart window)).head? = some _ :=
        Sizing.head?_windowsFrom (by omega) (by omega)
      exact fun hNone => by rw [hNone] at hNext; cases hNext
    have hWord : WordEnd text window.stop := .inr (hRejoin.atSpace hMore)
    rw [hFrom] at hRejoin
    rw [hFirst hWord,
      pieces_keptParts hSpaced hEnd (hFrom ▸ hStart) (Nat.not_le.mp hLast) (by omega)
      (.inl rfl) hRejoin, ← pieces_append_drop hWord, hDrop]

/-- The text is joined from its chunks again if every two windows can be told apart. -/
theorem collapse_joinStored (hSize : 2 ≤ z.size)
    (hRejoin : AllRejoin z.overlap (collapse text) 0 (z.windows (collapse text))) :
    collapse (joinStored z.overlap (z.chunks text)) = collapse text := by
  have hSpaced : Spaced isSpace ' ' (collapse text) := spaced_collapse text
  have hHead : ∀ c ∈ (collapse text).head?, isSpace c = false := head?_collapse text
  have hWords := pieces_windows hSpaced hHead hRejoin
  have hIdem : collapse (collapse text) = collapse text := collapse_collapse (by decide)
  rw [← hIdem]
  unfold Sizing.chunks
  rw [Sizing.chunkSpans_eq_windows hSpaced hSize]
  exact congrArg [' '].intercalate hWords

theorem keptParts_zero (last : List Char) (rest : List (List Char)) :
    keptParts 0 last rest = rest := by
  induction rest generalizing last with
  | nil => rfl
  | cons current rest ih =>
    have hCut : min (min last.length current.length) (0 * 3) = 0 := by omega
    rw [keptParts, hCut, sharedLength, drop_zero, ih]

def inked (text : List Char) : List Char := text.filter fun c => !isSpace c

theorem inked_collapse (text : List Char) : inked (collapse text) = inked text :=
  filter_collapse (by decide) (fun c hc => by rw [hc]; rfl) text

theorem inked_intercalate (texts : List (List Char)) :
    inked ([' '].intercalate (texts.filter (· ≠ []))) = texts.flatMap inked := by
  induction texts with
  | nil => rfl
  | cons part texts ih =>
    cases part with
    | nil =>
      rw [filter_cons_of_neg (by simp), ih, flatMap_cons]
      rfl
    | cons c part =>
      rw [filter_cons_of_pos (by simp), flatMap_cons, ← ih]
      cases texts.filter (· ≠ []) with
      | nil =>
        rw [intercalate_singleton]
        exact (append_nil _).symm
      | cons next rest =>
        rw [intercalate_cons_cons]
        unfold inked
        rw [filter_append, filter_append]
        congr 1
        exact append_nil _

theorem flatMap_inked {ink : List Char} (h : ∀ c ∈ ink, isSpace c = false) :
    (ink.map fun c => [c]).flatMap inked = ink := by
  induction ink with
  | nil => rfl
  | cons c ink ih =>
    have hInk : inked [c] = [c] := filter_cons_of_pos (by simp [h c mem_cons_self])
    rw [map_cons, flatMap_cons, hInk, ih fun d hd => h d (mem_cons_of_mem _ hd)]
    rfl

theorem windowsFrom_of_size_one (hSize : z.size = 1) (hFuel : text.length ≤ start + fuel) :
    ((z.windowsFrom text fuel start).filter fun s => strip (slice text s) ≠ []).map
      (fun s => strip (slice text s)) = (inked (text.drop start)).map fun c => [c] := by
  induction fuel generalizing start with
  | zero =>
    rw [drop_of_length_le (by omega)]
    rfl
  | succ fuel ih =>
    by_cases hStart : start < text.length
    · have hEnd : z.windowEnd text start = start + 1 := by
        rcases z.windowEnd_cases text start with ⟨_, hEnd⟩ | ⟨_, hAfter, hBefore, -⟩ |
          ⟨_, hEnd, -⟩ <;>
          omega
      have hNext : z.nextStart ⟨start, start + 1⟩ = start + 1 := by
        unfold Sizing.nextStart
        dsimp only
        omega
      have hRest : (if text.length ≤ start + 1 then [] else z.windowsFrom text fuel (start + 1)) =
          z.windowsFrom text fuel (start + 1) := by
        split
        next hLast =>
          cases fuel with
          | zero => rfl
          | succ fuel => rw [Sizing.windowsFrom, if_neg (Nat.not_lt.mpr hLast)]
        next => rfl
      have hChar : slice text ⟨start, start + 1⟩ = [text[start]] := by
        rw [slice_cons (List.getElem?_eq_getElem hStart) (Nat.lt_succ_self _),
          slice_of_le (Nat.le_refl _)]
      rw [Sizing.windowsFrom_succ hStart, hEnd, hNext, hRest, drop_eq_getElem_cons hStart]
      have hTail := @ih (start + 1) (by omega)
      cases hSpace : isSpace text[start] with
      | true =>
        have hStrip : strip (slice text ⟨start, start + 1⟩) = [] := by
          rw [hChar]
          exact strip_eq_nil_iff.mpr fun c hc => (mem_singleton.mp hc) ▸ hSpace
        rw [filter_cons_of_neg (by simp [hStrip]), hTail]
        unfold inked
        rw [filter_cons_of_neg (by simp [hSpace])]
      | false =>
        have hStrip : strip (slice text ⟨start, start + 1⟩) = [text[start]] := by
          rw [hChar]
          refine strip_of_ends ?_ ?_ <;> exact fun c hc => (Option.some.inj hc) ▸ hSpace
        rw [filter_cons_of_pos (by simp [hStrip]), map_cons, hTail, hStrip]
        unfold inked
        rw [filter_cons_of_pos (by simp [hSpace]), map_cons]
    · rw [Sizing.windowsFrom, if_neg hStart, drop_of_length_le (Nat.not_lt.mp hStart)]
      rfl

theorem chunks_of_size_one (hSize : z.size = 1) (text : List Char) :
    z.chunks text = (inked text).map fun c => [c] := by
  have hWindows : ((z.windowsFrom (collapse text) (collapse text).length 0).filter _).map _ = _ :=
    windowsFrom_of_size_one hSize (by omega)
  rw [drop_zero, inked_collapse, ← Sizing.windows_eq] at hWindows
  exact hWindows

def Recoverable (z : Sizing) (text : List Char) : Prop :=
  z.size = 1 ∨ AllRejoin z.overlap (collapse text) 0 (z.windows (collapse text))

instance (z : Sizing) (text : List Char) : Decidable (Recoverable z text) :=
  inferInstanceAs (Decidable (_ ∨ _))

theorem chunks_congr {other : List Char} (h : collapse text = collapse other) :
    z.chunks text = z.chunks other := by
  unfold Sizing.chunks
  rw [h]

theorem chunks_collapse (z : Sizing) (text : List Char) :
    z.chunks (collapse text) = z.chunks text :=
  chunks_congr (collapse_collapse (by decide))

theorem chunks_joinStored (h : Recoverable z text) :
    z.chunks (joinStored z.overlap (z.chunks text)) = z.chunks text := by
  have hOverlap := z.overlap_lt
  by_cases hSize : z.size = 1
  · have hNone : z.overlap = 0 := by omega
    rw [chunks_of_size_one hSize text, hNone, chunks_of_size_one hSize]
    congr 1
    cases hInk : inked text with
    | nil => rfl
    | cons c rest =>
      have hText : ∀ d ∈ c :: rest, isSpace d = false := by
        intro d hd
        rw [← hInk] at hd
        simpa using (mem_filter.mp hd).2
      rw [map_cons, joinStored, keptParts_zero, inked_intercalate]
      exact flatMap_inked hText
  · exact chunks_congr (collapse_joinStored (by omega) (h.resolve_left hSize))

/-! ## The index -/

/-- The sources with the rows of `knowledge_chunks`. -/
structure ChunkIndex extends Index where
  chunks : List KnowledgeChunk := []

def KnowledgeChunk.content (chunk : KnowledgeChunk) : Nat × String × String :=
  (chunk.chunkIndex, chunk.text, chunk.digest)

def ChunkIndex.listKnowledgeChunks (index : ChunkIndex) (sourceId : String) : List KnowledgeChunk :=
  sortOn KnowledgeChunk.chunkIndex (index.chunks.filter fun chunk => chunk.sourceId = sourceId)

def ChunkIndex.contents (index : ChunkIndex) (sourceId : String) : List (Nat × String × String) :=
  (index.listKnowledgeChunks sourceId).map KnowledgeChunk.content

/-- `replace_knowledge_chunks`, with chunks whose ids were drawn for it. -/
def ChunkIndex.replaceKnowledgeChunks (index : ChunkIndex) (sourceId : String)
    (chunks : List KnowledgeChunk) : ChunkIndex :=
  { index with
    issued := index.issued + chunks.length
    chunks := index.chunks.filter (fun chunk => chunk.sourceId ≠ sourceId) ++ chunks }

def Manager.toChunks (manager : Manager) (issued : Nat) (source : KnowledgeSource)
    (pieces : List (List Char)) : List KnowledgeChunk :=
  pieces.mapIdx fun place piece =>
    { chunkId := manager.uuid (issued + place)
      sourceId := source.sourceId
      chunkIndex := place
      text := String.ofList piece
      digest := manager.digestText (String.ofList piece)
      tokenCount := estimateTokens piece
      indexVersion := source.indexVersion }

def Manager.buildChunks (manager : Manager) (issued : Nat) (source : KnowledgeSource)
    (text : List Char) : Option (List KnowledgeChunk) :=
  (chunkText text manager.chunkSize manager.chunkOverlap).map (manager.toChunks issued source)

/-- `ingest_text`: what `_commit_source` does to the chunks, after what it does to the sources. -/
def Manager.ingestText (manager : Manager) (index : ChunkIndex) (call : IngestText) (now : String) :
    ChunkIndex :=
  let record := manager.rowFor index.toIndex call now
  let ingested := { index with toIndex := manager.step index.toIndex (.ingestText call now) }
  if manager.accepts call ∧ (index.sources.save record).isSome then
    match manager.buildChunks ingested.issued record call.text.toList with
    | none => ingested
    | some chunks => ingested.replaceKnowledgeChunks record.sourceId chunks
  else ingested

/-- The branch of `_rechunk_source` for a source without its text. -/
def Manager.rechunkStored (manager : Manager) (index : ChunkIndex) (source : KnowledgeSource) :
    Option (List KnowledgeChunk) :=
  match index.listKnowledgeChunks source.sourceId with
  | [] => some []
  | stored =>
    manager.buildChunks index.issued source
      (joinStored manager.chunkOverlap.toNat (stored.map fun chunk => chunk.text.toList))

/-- `_rechunk_source`. A text that is no text makes the pattern raise. -/
def Manager.rechunkSource (manager : Manager) (index : ChunkIndex) (source : KnowledgeSource) :
    Option (List KnowledgeChunk) :=
  match source.metadata.lookup "_normalized_text" with
  | none => manager.rechunkStored index source
  | some value =>
    if isTruthy value then
      match value with
      | .str normalized => manager.buildChunks index.issued source normalized.toList
      | _ => none
    else manager.rechunkStored index source

/-- The loop of `rebuild_index`. -/
def Manager.rebuildSources (manager : Manager) (index : ChunkIndex) :
    List KnowledgeSource → Option ChunkIndex
  | [] => some index
  | source :: sources =>
    (manager.rechunkSource index source).bind fun chunks =>
      manager.rebuildSources (index.replaceKnowledgeChunks source.sourceId chunks) sources

/-- `rebuild_index`: nothing if it raises. -/
def Manager.rebuildIndex (manager : Manager) (index : ChunkIndex) : Option ChunkIndex :=
  manager.rebuildSources index (index.sources.list ∅ none)

/-- So many calls of `rebuild_index`. -/
def Manager.rebuildTimes (manager : Manager) : Nat → ChunkIndex → Option ChunkIndex
  | 0, index => some index
  | n + 1, index => (manager.rebuildIndex index).bind (manager.rebuildTimes n)

variable {manager : Manager} {index : ChunkIndex} {source : KnowledgeSource} {call : IngestText}
  {now : String} {sourceId : String}

theorem listKnowledgeChunks_replace (manager : Manager) (index : ChunkIndex) (issued : Nat)
    (source : KnowledgeSource) (texts : List (List Char)) :
    (index.replaceKnowledgeChunks source.sourceId
      (manager.toChunks issued source texts)).listKnowledgeChunks source.sourceId =
        manager.toChunks issued source texts := by
  have hOld : (index.chunks.filter fun chunk => chunk.sourceId ≠ source.sourceId).filter
      (fun chunk => chunk.sourceId = source.sourceId) = [] := by
    rw [filter_filter]
    simp
  have hNew : (manager.toChunks issued source texts).filter
      (fun chunk => chunk.sourceId = source.sourceId) = manager.toChunks issued source texts := by
    refine filter_eq_self.mpr fun chunk hChunk => ?_
    obtain ⟨place, hPlace, rfl⟩ := exists_of_mem_mapIdx hChunk
    exact decide_eq_true rfl
  rw [ChunkIndex.listKnowledgeChunks, ChunkIndex.replaceKnowledgeChunks, filter_append, hOld, hNew,
    nil_append]
  refine sortOn_eq_self ?_
  rw [pairwise_iff_getElem]
  intro i j hi hj hLt
  simp only [Manager.toChunks, getElem_mapIdx]
  exact hLt.le

theorem listKnowledgeChunks_replace_of_ne (hNe : sourceId ≠ source.sourceId) (issued : Nat)
    (texts : List (List Char)) :
    (index.replaceKnowledgeChunks source.sourceId
      (manager.toChunks issued source texts)).listKnowledgeChunks sourceId =
        index.listKnowledgeChunks sourceId := by
  have hOld : (index.chunks.filter fun chunk => chunk.sourceId ≠ source.sourceId).filter
      (fun chunk => chunk.sourceId = sourceId) =
        index.chunks.filter fun chunk => chunk.sourceId = sourceId := by
    rw [filter_filter]
    refine filter_congr fun chunk _ => ?_
    by_cases hEq : chunk.sourceId = sourceId
    · simp [hEq, hNe]
    · simp [hEq]
  have hNew : (manager.toChunks issued source texts).filter
      (fun chunk => chunk.sourceId = sourceId) = [] := by
    refine filter_eq_nil_iff.mpr fun chunk hChunk => ?_
    obtain ⟨place, hPlace, rfl⟩ := exists_of_mem_mapIdx hChunk
    simpa using hNe.symm
  rw [ChunkIndex.listKnowledgeChunks, ChunkIndex.replaceKnowledgeChunks, filter_append, hOld, hNew,
    append_nil]
  rfl

/-! ## What a rebuild keeps -/

def Manager.contentsOf (manager : Manager) (z : Sizing) (text : List Char) :
    List (Nat × String × String) :=
  (z.chunks text).mapIdx fun place piece =>
    (place, String.ofList piece, manager.digestText (String.ofList piece))

/-- The row of a source and its chunks are as the ingestion of a text leaves them, with the
normalized text or, if it was ingested before, without. -/
structure Stored (manager : Manager) (z : Sizing) (index : ChunkIndex) (source : KnowledgeSource)
    (text : List Char) : Prop where
  chunks : index.contents source.sourceId = manager.contentsOf z text
  kept : source.metadata.lookup "_normalized_text" = none ∨
    source.metadata.lookup "_normalized_text" = some (.str (String.ofList (collapse text)))

def Sound (manager : Manager) (z : Sizing) (index : ChunkIndex) : Prop :=
  ∀ source ∈ index.sources.rows, ∃ text, Stored manager z index source text ∧
    (source.metadata.lookup "_normalized_text" = none → Recoverable z text)

theorem sizing?_eq_some {chunkSize overlap : Int} (h : sizing? chunkSize overlap = some z) :
    overlap.toNat = z.overlap := by
  unfold sizing? at h
  split at h
  · cases h
  · rw [← Option.some.inj h]

theorem contents_toChunks (manager : Manager) (z : Sizing) (issued : Nat) (source : KnowledgeSource)
    (text : List Char) :
    (manager.toChunks issued source (z.chunks text)).map KnowledgeChunk.content =
      manager.contentsOf z text := by
  apply ext_getElem?
  simp [Manager.toChunks, Manager.contentsOf, KnowledgeChunk.content, Function.comp_def]

theorem buildChunks_eq (hSizing : sizing? manager.chunkSize manager.chunkOverlap = some z)
    (issued : Nat) (source : KnowledgeSource) (text : List Char) :
    manager.buildChunks issued source text =
    some (manager.toChunks issued source (z.chunks text)) := by
  rw [Manager.buildChunks, chunkText, hSizing]
  rfl

theorem texts_of_contents {stored : List KnowledgeChunk}
    (h : stored.map KnowledgeChunk.content = manager.contentsOf z text) :
    stored.map (fun chunk => chunk.text.toList) = z.chunks text := by
  have hBack :
      (manager.contentsOf z text).map (fun content => content.2.1.toList) = z.chunks text := by
    apply ext_getElem?
    simp [Manager.contentsOf, Function.comp_def]
  rw [← hBack, ← h, map_map]
  rfl

theorem chunks_of_collapse_eq_nil (h : collapse text = []) : z.chunks text = [] := by
  unfold Sizing.chunks
  rw [h]
  rfl

theorem rechunkSource_eq (hSizing : sizing? manager.chunkSize manager.chunkOverlap = some z)
    (hStored : Stored manager z index source text)
    (hOld : source.metadata.lookup "_normalized_text" = none → Recoverable z text) :
    manager.rechunkSource index source =
      some (manager.toChunks index.issued source (z.chunks text)) := by
  have hTexts := texts_of_contents hStored.chunks
  have hStoredBranch (hChunks : z.chunks (joinStored z.overlap (z.chunks text)) = z.chunks text) :
      manager.rechunkStored index source =
        some (manager.toChunks index.issued source (z.chunks text)) := by
    unfold Manager.rechunkStored
    cases hList : index.listKnowledgeChunks source.sourceId with
    | nil =>
      rw [hList] at hTexts
      rw [← hTexts]
      rfl
    | cons first rest =>
      rw [hList] at hTexts
      dsimp only
      rw [hTexts, sizing?_eq_some hSizing, buildChunks_eq hSizing, hChunks]
  unfold Manager.rechunkSource
  rcases hStored.kept with hNone | hSome
  · rw [hNone]
    exact hStoredBranch (chunks_joinStored (hOld hNone))
  · rw [hSome]
    by_cases hNil : collapse text = []
    · have hEmpty : z.chunks text = [] := chunks_of_collapse_eq_nil hNil
      rw [hNil]
      refine hStoredBranch ?_
      rw [hEmpty]
      exact chunks_of_collapse_eq_nil rfl
    · have hTruthy : isTruthy (.str (String.ofList (collapse text))) = true := by
        simpa [isTruthy] using hNil
      dsimp only
      rw [if_pos hTruthy, buildChunks_eq hSizing, String.toList_ofList, chunks_collapse]

theorem contents_replace (hContents : index.contents source.sourceId = manager.contentsOf z text)
    (issued : Nat) (sourceId : String) :
    (index.replaceKnowledgeChunks source.sourceId
      (manager.toChunks issued source (z.chunks text))).contents sourceId =
        index.contents sourceId := by
  unfold ChunkIndex.contents at hContents ⊢
  by_cases hSame : sourceId = source.sourceId
  · rw [hSame, listKnowledgeChunks_replace, contents_toChunks, hContents]
  · rw [listKnowledgeChunks_replace_of_ne hSame]

structure SameContents (index index' : ChunkIndex) : Prop where
  sources : index'.sources = index.sources
  contents : ∀ sourceId, index'.contents sourceId = index.contents sourceId

variable {index' : ChunkIndex}

section

variable (h : SameContents index index')
include h

theorem SameContents.stored
    (hStored : Stored manager z index source text) : Stored manager z index' source text :=
  ⟨(h.contents source.sourceId).trans hStored.chunks, hStored.kept⟩

theorem SameContents.sound
    (hSound : Sound manager z index) : Sound manager z index' := by
  intro source hSource
  rw [h.sources] at hSource
  obtain ⟨text, hStored, hOld⟩ := hSound source hSource
  exact ⟨text, h.stored hStored, hOld⟩

theorem SameContents.trans {index'' : ChunkIndex}
    (h' : SameContents index' index'') : SameContents index index'' :=
  ⟨h'.sources.trans h.sources, fun sourceId => (h'.contents sourceId).trans (h.contents sourceId)⟩

end

section

variable (hSizing : sizing? manager.chunkSize manager.chunkOverlap = some z)
include hSizing

section

variable (hSound : Sound manager z index)
include hSound

theorem rebuildSources_same {sources : List KnowledgeSource}
    (hSources : ∀ source ∈ sources, source ∈ index.sources.rows) :
    ∃ rebuilt, manager.rebuildSources index sources = some rebuilt ∧
    SameContents index rebuilt := by
  induction sources generalizing index with
  | nil => exact ⟨index, rfl, rfl, fun _ => rfl⟩
  | cons source sources ih =>
    obtain ⟨text, hStored, hOld⟩ := hSound source (hSources source mem_cons_self)
    have hHere : SameContents index (index.replaceKnowledgeChunks source.sourceId
        (manager.toChunks index.issued source (z.chunks text))) :=
      ⟨rfl, contents_replace hStored.chunks index.issued⟩
    obtain ⟨rebuilt, hRebuilt, hRest⟩ := ih (hHere.sound hSound)
      fun other hOther => hSources other (mem_cons_of_mem _ hOther)
    refine ⟨rebuilt, ?_, hHere.trans hRest⟩
    rw [Manager.rebuildSources, rechunkSource_eq hSizing hStored hOld]
    exact hRebuilt

theorem rebuildIndex_same :
    ∃ rebuilt, manager.rebuildIndex index = some rebuilt ∧ SameContents index rebuilt :=
  rebuildSources_same hSizing hSound fun _ hSource => (SourceTable.mem_list.mp hSource).1

theorem rebuildTimes_same (n : Nat) :
    ∃ rebuilt, manager.rebuildTimes n index = some rebuilt ∧ SameContents index rebuilt := by
  induction n generalizing index with
  | zero => exact ⟨index, rfl, rfl, fun _ => rfl⟩
  | succ n ih =>
    obtain ⟨once, hOnce, hSame⟩ := rebuildIndex_same hSizing hSound
    obtain ⟨rebuilt, hRebuilt, hRest⟩ := ih (hSame.sound hSound)
    refine ⟨rebuilt, ?_, hSame.trans hRest⟩
    rw [Manager.rebuildTimes, hOnce]
    exact hRebuilt

end

end

/-! ## What an ingestion leaves -/

theorem Issued.mono {index index' : Index} (h : Issued manager index)
    (hSources : index'.sources = index.sources) (hIssued : index.issued ≤ index'.issued) :
    Issued manager index' := by
  intro source hSource
  rw [hSources] at hSource
  obtain ⟨n, hn, hId⟩ := h source hSource
  exact ⟨n, by omega, hId⟩

theorem invalidSizing_eq_false (hSizing : sizing? manager.chunkSize manager.chunkOverlap = some z) :
    manager.invalidSizing = false := by
  unfold sizing? at hSizing
  split at hSizing
  · cases hSizing
  next hValid => exact decide_eq_false hValid

theorem ingestText_of_refused (h : manager.accepts call ≠ true) (now : String) :
    manager.ingestText index call now = index := by
  unfold Manager.ingestText
  rw [if_neg fun hBoth => h hBoth.1, Manager.step, if_neg h]

section

variable (hSizing : sizing? manager.chunkSize manager.chunkOverlap = some z)
include hSizing

theorem ingestText_of_accepted
    (hIssued : Issued manager index.toIndex) (h : manager.accepts call = true) (now : String) :
    manager.ingestText index call now =
      ({ index with toIndex := manager.step index.toIndex (.ingestText call now) } :
        ChunkIndex).replaceKnowledgeChunks (manager.rowFor index.toIndex call now).sourceId
          (manager.toChunks (manager.step index.toIndex (.ingestText call now)).issued
            (manager.rowFor index.toIndex call now) (z.chunks call.text.toList)) := by
  have hFree : ∀ other ∈ index.sources.rows,
      other.key = (manager.rowFor index.toIndex call now).key →
        other.sourceId = (manager.rowFor index.toIndex call now).sourceId := by
    intro other hOther hSame
    exact (rowFor_sourceId hIssued hOther).mpr (hSame.trans (rowFor_key _ _ _ _))
  obtain ⟨saved, hSaved⟩ := save_eq_some hFree
  unfold Manager.ingestText
  rw [if_pos ⟨h, by rw [hSaved]; rfl⟩, buildChunks_eq hSizing]

/-- An ingestion stores its source with its text, and leaves the others as they are. -/
theorem sound_ingestText
    (hIssued : Issued manager index.toIndex) (hSound : Sound manager z index) (call : IngestText)
    (now : String) : Issued manager (manager.ingestText index call now).toIndex ∧
      Sound manager z (manager.ingestText index call now) := by
  by_cases hAccepts : manager.accepts call = true
  · rw [ingestText_of_accepted hSizing hIssued hAccepts]
    refine ⟨(issued_step manager _ (.ingestText call now) hIssued).mono rfl (Nat.le_add_right _ _),
      ?_⟩
    obtain ⟨final, hFinal, hRows⟩ := mem_commitSource hIssued call now
    rw [invalidSizing_eq_false hSizing, if_neg Bool.false_ne_true] at hFinal
    intro source hSource
    have hStep : (manager.step index.toIndex (.ingestText call now)).sources =
        manager.commitSource index.toIndex call now := by
      rw [Manager.step, if_pos hAccepts]
    have hSource : source ∈ (manager.step index.toIndex (.ingestText call now)).sources.rows :=
      hSource
    rw [hStep] at hSource
    rcases (hRows source).mp hSource with hNew | ⟨hOther, hNe⟩
    · rw [hNew, hFinal]
      have hKept : (normalized call (manager.rowFor index.toIndex call now)).metadata.lookup
          "_normalized_text" = some (.str (String.ofList (collapse call.text.toList))) := by
        rw [normalized, Dict.lookup_set, if_pos rfl]
      refine ⟨call.text.toList, ⟨?_, .inr hKept⟩, fun hNone => ?_⟩
      · exact (congrArg _ (listKnowledgeChunks_replace _ _ _ _ _)).trans
          (contents_toChunks _ _ _ _ _)
      · rw [hKept] at hNone
        cases hNone
    · obtain ⟨text, hStored, hOld⟩ := hSound source hOther
      have hId : source.sourceId ≠ (manager.rowFor index.toIndex call now).sourceId :=
        fun hSame => hNe ((rowFor_sourceId hIssued hOther).mp hSame)
      refine ⟨text, ⟨?_, hStored.kept⟩, hOld⟩
      rw [← hStored.chunks]
      unfold ChunkIndex.contents
      rw [listKnowledgeChunks_replace_of_ne hId]
      rfl
  · rw [ingestText_of_refused hAccepts]
    exact ⟨hIssued, hSound⟩

end

/-- Calls of `ingest_text` in a row. -/
def Manager.ingestAll (manager : Manager) (index : ChunkIndex)
    (calls : List (IngestText × String)) :
    ChunkIndex :=
  exec (fun index call => manager.ingestText index call.1 call.2) index calls

/-- Every number of rebuilds gives every source the chunk texts that it has, in the same order and
with the same digests. -/
def RebuildsKeep (manager : Manager) (index : ChunkIndex) : Prop :=
  ∀ n, ∃ rebuilt, manager.rebuildTimes n index = some rebuilt ∧
    ∀ source ∈ index.sources.rows,
      rebuilt.contents source.sourceId = index.contents source.sourceId

/-- Rebuilds keep what was ingested, and what was stored without its text if it can be joined from
its chunks. -/
theorem rebuildsKeep_ingested (hSizing : sizing? manager.chunkSize manager.chunkOverlap = some z)
    (hIssued : Issued manager index.toIndex) (hSound : Sound manager z index)
    (calls : List (IngestText × String)) :
    RebuildsKeep manager (manager.ingestAll index calls) := by
  have hStep (index : ChunkIndex) (call : IngestText × String)
      (h : Issued manager index.toIndex ∧ Sound manager z index) :
      Issued manager (manager.ingestText index call.1 call.2).toIndex ∧
        Sound manager z (manager.ingestText index call.1 call.2) :=
    sound_ingestText hSizing h.1 h.2 call.1 call.2
  have hIngested := exec_invariant calls hStep ⟨hIssued, hSound⟩
  intro n
  obtain ⟨rebuilt, hRebuilt, hSame⟩ := rebuildTimes_same hSizing hIngested.2 n
  exact ⟨rebuilt, hRebuilt, fun source _ => hSame.contents source.sourceId⟩

/-- What `plainManager` cuts with a sizing. -/
def sizedManager (z : Sizing) : Manager :=
  { plainManager with chunkSize := z.size, chunkOverlap := z.overlap }

def oldSource (text : List Char) : KnowledgeSource where
  sourceId := plainManager.uuid 0
  sourceType := .documentation
  canonicalUri := "repo://old.md"
  digest := String.ofList text
  ingestedAt := "2026-01-01T00:00:00+00:00"

def oldIndex (z : Sizing) (text : List Char) : ChunkIndex :=
  ({ sources := ⟨[oldSource text], List.nodup_singleton _, List.nodup_singleton _⟩, issued := 1 } :
    ChunkIndex).replaceKnowledgeChunks (oldSource text).sourceId
      ((sizedManager z).toChunks 1 (oldSource text) (z.chunks text))

theorem sizing?_sizedManager (z : Sizing) :
    sizing? (sizedManager z).chunkSize (sizedManager z).chunkOverlap = some z := by
  have hOverlap := z.overlap_lt
  have hValid : ¬((z.size : Int) ≤ 0 ∨ (z.overlap : Int) < 0 ∨ (z.size : Int) ≤ z.overlap) := by
    omega
  show sizing? (z.size : Int) (z.overlap : Int) = some z
  rw [sizing?, dif_neg hValid]
  rfl

theorem stored_oldIndex (z : Sizing) (text : List Char) :
    Stored (sizedManager z) z (oldIndex z text) (oldSource text) text := by
  refine ⟨?_, .inl rfl⟩
  exact (congrArg _ (listKnowledgeChunks_replace _ _ _ _ _)).trans (contents_toChunks _ _ _ _ _)

def threes : Sizing := ⟨3, 0, by decide⟩

theorem word_cut_again : Stored (sizedManager threes) threes (oldIndex threes "abcdef".toList)
      (oldSource "abcdef".toList) "abcdef".toList ∧
    ¬RebuildsKeep (sizedManager threes) (oldIndex threes "abcdef".toList) := by
  refine ⟨stored_oldIndex threes _, fun h => ?_⟩
  obtain ⟨rebuilt, hRebuilt, hKeeps⟩ := h 1
  have hContents : ((sizedManager threes).rebuildTimes 1 (oldIndex threes "abcdef".toList)).map
      (fun index => index.contents "") = some [(0, "abc", "abc"), (1, "de", "de"),
        (2, "f", "f")] := by
    decide +kernel
  rw [hRebuilt, Option.map_some] at hContents
  have hBefore := (stored_oldIndex threes "abcdef".toList).chunks
  have hSame := hKeeps (oldSource "abcdef".toList) mem_cons_self
  have hLengths := congrArg List.length ((Option.some.inj hContents).symm.trans hSame)
  revert hLengths
  decide +kernel

def eightByThree : Sizing := ⟨8, 3, by decide⟩

theorem rebuildsKeep_ingested_words :
    RebuildsKeep (sizedManager eightByThree)
      ((sizedManager eightByThree).ingestAll (oldIndex eightByThree "aaa bbb ccc ddd".toList)
        [({ sourceType := .techniqueCard, canonicalUri := "repo://card.md", text :=
  "abcdefghijkl" },
          "2026-01-01T00:00:00+00:00")]) := by
  refine rebuildsKeep_ingested (sizing?_sizedManager eightByThree) ?_ ?_ _
  · intro source hSource
    obtain rfl := mem_singleton.mp hSource
    exact ⟨0, by decide +kernel, rfl⟩
  · intro source hSource
    obtain rfl := mem_singleton.mp hSource
    exact ⟨_, stored_oldIndex eightByThree _, fun _ => by decide +kernel⟩

end Glasslab.Knowledge
