import Glasslab.Knowledge.Retrieval
import Glasslab.Foundation.Squeezing

/-!
# Chunks of a text

`_chunk_text` of `app/knowledge_manager.py` collapses the white space of a text and cuts it into
windows. A window ends at the last space in reach, and the next one begins an overlap before that
end. Every window ends no earlier than the one before it, and it ends at the same place exactly if
that place is a space, the window begins before it, and there is neither another space nor the end
of the text in reach (`windowEnd_nextStart`). The chunks are free of redundancy exactly if that
happens nowhere (`noRedundancy_iff`).
-/

namespace Glasslab.Knowledge

open Foundation Corpus List

/-- The numbers that `_chunk_text` accepts. -/
structure Sizing where
  size : Nat
  overlap : Nat
  overlap_lt : overlap < size

/-- The check of `_chunk_text`: nothing where it raises `invalid chunk sizing`. -/
def sizing? (chunkSize overlap : Int) : Option Sizing :=
  if h : chunkSize ≤ 0 ∨ overlap < 0 ∨ chunkSize ≤ overlap then none
  else some ⟨chunkSize.toNat, overlap.toNat, by omega⟩

/-- `text.rfind(' ', start, stop)`. -/
def rfindSpace (text : List Char) (start : Nat) : Nat → Option Nat
  | 0 => none
  | stop + 1 =>
    if stop < start then none
    else if text[stop]? = some ' ' then some stop
    else rfindSpace text start stop

namespace Sizing

variable (z : Sizing) (text : List Char)

def windowEnd (start : Nat) : Nat :=
  let stop := min (start + z.size) text.length
  if stop < text.length then
    match rfindSpace text start stop with
    | some boundary => if start < boundary then boundary else stop
    | none => stop
  else stop

def nextStart (window : Span) : Nat := max (window.stop - z.overlap) (window.start + 1)

/-- The windows from a place on. Every one begins after the one before it. -/
def windowsFrom : (fuel : Nat) → (start : Nat) → List Span
  | 0, _ => []
  | fuel + 1, start =>
    if start < text.length then
      let window : Span := ⟨start, z.windowEnd text start⟩
      window :: if text.length ≤ window.stop then [] else windowsFrom fuel (z.nextStart window)
    else []

/-- The windows of a text without white space to collapse. -/
def windows : List Span :=
  if text.length ≤ z.size then if text = [] then [] else [⟨0, text.length⟩]
  else z.windowsFrom text text.length 0

def chunkSpans : List Span := (z.windows text).filter fun window => strip (slice text window) ≠ []

/-- `_chunk_text`, once the sizing is accepted. -/
def chunks : List (List Char) :=
  (z.chunkSpans (collapse text)).map fun window => strip (slice (collapse text) window)

end Sizing

def chunkText (text : List Char) (chunkSize overlap : Int) : Option (List (List Char)) :=
  (sizing? chunkSize overlap).map fun z => z.chunks text

variable {z : Sizing} {text : List Char} {start stop boundary fuel : Nat} {window next : Span}

/-- There is no space at the places from one on and before another. -/
def NoSpace (text : List Char) (start stop : Nat) : Prop :=
  ∀ i, start ≤ i → i < stop → text[i]? ≠ some ' '

theorem rfindSpace_eq_some (h : rfindSpace text start stop = some boundary) :
    start ≤ boundary ∧ boundary < stop ∧ text[boundary]? = some ' ' ∧
      NoSpace text (boundary + 1) stop := by
  induction stop with
  | zero => cases h
  | succ stop ih =>
    rw [rfindSpace] at h
    split at h
    · cases h
    next hLe =>
      split at h
      next hSpace =>
        obtain rfl := Option.some.inj h
        refine ⟨Nat.not_lt.mp hLe, Nat.lt_succ_self _, hSpace, fun i hFrom hTo => ?_⟩
        omega
      next hNot =>
        obtain ⟨hFrom, hTo, hSpace, hNone⟩ := ih h
        refine ⟨hFrom, Nat.lt_succ_of_lt hTo, hSpace, fun i hi hi' => ?_⟩
        rcases Nat.lt_succ_iff_lt_or_eq.mp hi' with hi' | rfl
        · exact hNone i hi hi'
        · exact hNot

theorem rfindSpace_eq_none (h : rfindSpace text start stop = none) : NoSpace text start stop := by
  induction stop with
  | zero => exact fun i _ hi => absurd hi (Nat.not_lt_zero i)
  | succ stop ih =>
    rw [rfindSpace] at h
    split at h
    next hLt =>
      intro i hFrom hTo
      omega
    next =>
      split at h
      · cases h
      next hNot =>
        intro i hFrom hTo
        rcases Nat.lt_succ_iff_lt_or_eq.mp hTo with hTo | rfl
        · exact ih h i hFrom hTo
        · exact hNot

/-! ## Windows -/

namespace Sizing

theorem size_pos (z : Sizing) : 0 < z.size := Nat.zero_lt_of_lt z.overlap_lt

/-- A window ends at the end of the text, at a space, or where it is full without a space after its
first place. -/
theorem windowEnd_cases (z : Sizing) (text : List Char) (start : Nat) :
    (text.length ≤ start + z.size ∧ z.windowEnd text start = text.length) ∨
    (start + z.size < text.length ∧ start < z.windowEnd text start ∧
      z.windowEnd text start < start + z.size ∧ text[z.windowEnd text start]? = some ' ' ∧
      NoSpace text (z.windowEnd text start + 1) (start + z.size)) ∨
    (start + z.size < text.length ∧ z.windowEnd text start = start + z.size ∧
      NoSpace text (start + 1) (start + z.size)) := by
  rcases Nat.lt_or_ge (start + z.size) text.length with hIn | hOut
  · right
    have hStop : min (start + z.size) text.length = start + z.size := Nat.min_eq_left hIn.le
    unfold windowEnd
    rw [hStop]
    rw [if_pos hIn]
    cases hFind : rfindSpace text start (start + z.size) with
    | none =>
      refine .inr ⟨hIn, rfl, fun i hFrom hTo => ?_⟩
      exact rfindSpace_eq_none hFind i (by omega) hTo
    | some boundary =>
      obtain ⟨hFrom, hTo, hSpace, hNone⟩ := rfindSpace_eq_some hFind
      dsimp only
      by_cases hLater : start < boundary
      · rw [if_pos hLater]
        exact .inl ⟨hIn, hLater, hTo, hSpace, hNone⟩
      · rw [if_neg hLater]
        refine .inr ⟨hIn, rfl, fun i hi hi' => ?_⟩
        exact hNone i (by omega) hi'
  · left
    have hStop : min (start + z.size) text.length = text.length := Nat.min_eq_right hOut
    unfold windowEnd
    rw [hStop]
    exact ⟨hOut, if_neg (Nat.lt_irrefl _)⟩

theorem lt_windowEnd (hStart : start < text.length) : start < z.windowEnd text start := by
  rcases z.windowEnd_cases text start with ⟨-, hEnd⟩ | ⟨-, hEnd, -⟩ | ⟨-, hEnd, -⟩
  · omega
  · exact hEnd
  · have hSize := z.size_pos
    omega

theorem windowEnd_le (z : Sizing) (text : List Char) (start : Nat) :
    z.windowEnd text start ≤ text.length := by
  rcases z.windowEnd_cases text start with ⟨-, hEnd⟩ | ⟨hIn, -, hEnd, -⟩ | ⟨hIn, hEnd, -⟩ <;> omega

/-- The window after this one, which begins before the space at which this one ends, has neither
another space nor the end of the text in reach. -/
def Stalls (z : Sizing) (text : List Char) (window : Span) : Prop :=
  text[window.stop]? = some ' ' ∧ z.nextStart window < window.stop ∧
    z.nextStart window + z.size < text.length ∧
    NoSpace text (window.stop + 1) (z.nextStart window + z.size)

/-- The next window ends no earlier, and later unless this one stalls. -/
theorem windowEnd_nextStart (hWindow : window.stop = z.windowEnd text window.start)
    (hStop : window.stop < text.length) :
    window.stop ≤ z.windowEnd text (z.nextStart window) ∧
      (z.windowEnd text (z.nextStart window) = window.stop ↔ z.Stalls text window) := by
  have hLater : window.start < window.stop := by
    rcases z.windowEnd_cases text window.start with ⟨-, hEnd⟩ | ⟨-, hEnd, -⟩ | ⟨-, hEnd, -⟩
    · omega
    · omega
    · have hSize := z.size_pos
      omega
  have hOverlap := z.overlap_lt
  have hNext : window.stop - z.overlap ≤ z.nextStart window ∧ window.start < z.nextStart window ∧
      z.nextStart window ≤ window.stop := by
    unfold nextStart
    omega
  have hReach : window.stop < z.nextStart window + z.size := by omega
  have hNone' {stop : Nat} (hStall : z.Stalls text window) (hFree : NoSpace text stop
      (z.nextStart window + z.size)) : window.stop < stop :=
    Nat.lt_of_not_le fun hLe => hFree window.stop hLe hReach hStall.1
  rcases z.windowEnd_cases text (z.nextStart window) with
    ⟨hOut, hEnd⟩ | ⟨hIn, hAfter, hTo, hSpace, hNone⟩ | ⟨hIn, hEnd, hNone⟩
  · refine ⟨by omega, iff_of_false (by omega) fun hStall => ?_⟩
    have hIn := hStall.2.2.1
    omega
  · have hBound : window.stop ≤ z.windowEnd text (z.nextStart window) := by
      by_contra hEarlier
      -- the space would be inside this window, which ends at its last space or has none
      rcases z.windowEnd_cases text window.start with
        ⟨-, hEnd⟩ | ⟨-, -, -, hHere, -⟩ | ⟨-, hFull, hFree⟩
      · omega
      · rw [← hWindow] at hHere
        exact hNone window.stop (by omega) hReach hHere
      · exact hFree _ (by omega) (by omega) hSpace
    refine ⟨hBound, ?_, fun hStall => ?_⟩
    · intro hSame
      rw [hSame] at hSpace hNone hAfter
      exact ⟨hSpace, hAfter, hIn, hNone⟩
    · by_contra hNe
      exact hStall.2.2.2 _ (by omega) hTo hSpace
  · refine ⟨by omega, iff_of_false (by omega) fun hStall => ?_⟩
    have hAfter := hNone' hStall hNone
    have hBefore := hStall.2.1
    omega

theorem windows_eq (z : Sizing) (text : List Char) :
    z.windows text = z.windowsFrom text text.length 0 := by
  unfold windows
  split
  next hSmall =>
    cases hText : text with
    | nil => rfl
    | cons c rest =>
      rw [← hText, if_neg (by simp [hText])]
      have hLength : text.length = rest.length + 1 := by rw [hText, length_cons]
      have hEnd : z.windowEnd text 0 = text.length := by
        rcases z.windowEnd_cases text 0 with ⟨-, hEnd⟩ | ⟨hIn, -⟩ | ⟨hIn, -⟩ <;> omega
      rw [hLength, windowsFrom, if_pos (by omega)]
      dsimp only
      rw [hEnd, if_pos (Nat.le_refl _), hLength]
  · rfl

/-- The windows from a place on, where there is text left. -/
theorem windowsFrom_succ (hStart : start < text.length) (fuel : Nat) :
    z.windowsFrom text (fuel + 1) start = ⟨start, z.windowEnd text start⟩ ::
      if text.length ≤ z.windowEnd text start then []
      else z.windowsFrom text fuel (z.nextStart ⟨start, z.windowEnd text start⟩) := by
  rw [windowsFrom, if_pos hStart]

theorem of_mem_windowsFrom (h : window ∈ z.windowsFrom text fuel start) :
    window.start < text.length ∧ window.stop = z.windowEnd text window.start := by
  induction fuel generalizing start with
  | zero => cases h
  | succ fuel ih =>
    by_cases hStart : start < text.length
    · rw [windowsFrom_succ hStart] at h
      rcases mem_cons.mp h with rfl | hRest
      · exact ⟨hStart, rfl⟩
      · split at hRest
        · cases hRest
        · exact ih hRest
    · rw [windowsFrom, if_neg hStart] at h
      cases h

theorem head?_windowsFrom (hStart : start < text.length) (hFuel : fuel ≠ 0) :
    (z.windowsFrom text fuel start).head? = some ⟨start, z.windowEnd text start⟩ := by
  obtain ⟨fuel, rfl⟩ := Nat.exists_eq_succ_of_ne_zero hFuel
  rw [windowsFrom_succ hStart]
  rfl

theorem increasing_windowsFrom (hFuel : text.length ≤ start + fuel) :
    (z.windowsFrom text fuel start).IsChain (fun s t => s.stop < t.stop) ↔
      ∀ window ∈ z.windowsFrom text fuel start, ¬z.Stalls text window := by
  induction fuel generalizing start with
  | zero => exact iff_of_true List.IsChain.nil nofun
  | succ fuel ih =>
    by_cases hStart : start < text.length
    · rw [windowsFrom_succ hStart]
      have hLater : start < z.windowEnd text start := lt_windowEnd hStart
      by_cases hEnd : text.length ≤ z.windowEnd text start
      · rw [if_pos hEnd]
        refine iff_of_true (.singleton _) fun window hWindow hStall => ?_
        obtain rfl := mem_singleton.mp hWindow
        exact absurd (List.getElem?_eq_some_iff.mp hStall.1).1 (Nat.not_lt.mpr hEnd)
      · rw [if_neg hEnd]
        have hStop : z.windowEnd text start < text.length := Nat.not_le.mp hEnd
        obtain ⟨hLe, hSame⟩ := @windowEnd_nextStart z text ⟨start, z.windowEnd text start⟩ rfl hStop
        have hNext : start < z.nextStart ⟨start, z.windowEnd text start⟩ ∧
            z.nextStart ⟨start, z.windowEnd text start⟩ ≤ z.windowEnd text start := by
          unfold nextStart
          dsimp only
          omega
        generalize z.nextStart ⟨start, z.windowEnd text start⟩ = begin at *
        have hRest := @ih begin (by omega)
        have hHead : (z.windowsFrom text fuel begin).head? = some ⟨begin, z.windowEnd text begin⟩ :=
          head?_windowsFrom (by omega) (by omega)
        obtain ⟨rest, hCons⟩ := List.head?_eq_some_iff.mp hHead
        rw [hCons] at hRest ⊢
        have hHere : z.windowEnd text start < z.windowEnd text begin ↔
            ¬z.Stalls text ⟨start, z.windowEnd text start⟩ := by
          rw [← hSame]
          dsimp only at hLe ⊢
          omega
        rw [isChain_cons_cons, hRest]
        simp only [forall_mem_cons, hHere]
    · rw [windowsFrom, if_neg hStart]
      exact iff_of_true List.IsChain.nil nofun

theorem mem_slice {i : Nat} {c : Char} (hGet : text[i]? = some c) (hFrom : window.start ≤ i)
    (hTo : i < window.stop) : c ∈ slice text window := by
  refine mem_of_getElem? (i := i - window.start) ?_
  rw [slice, List.getElem?_drop, List.getElem?_take, if_pos (by omega), ← hGet]
  congr 1
  omega

theorem strip_slice_ne_nil {i : Nat} {c : Char} (hGet : text[i]? = some c)
    (hSpace : isSpace c = false) (hFrom : window.start ≤ i) (hTo : i < window.stop) :
    strip (slice text window) ≠ [] := by
  intro hNil
  have hAll := strip_eq_nil_iff.mp hNil c (mem_slice hGet hFrom hTo)
  rw [hSpace] at hAll
  cases hAll

/-- A window of more than one place has something that is no white space. -/
theorem strip_window_ne_nil (hSpaced : Spaced isSpace ' ' text) (hSize : 2 ≤ z.size)
    (hStart : window.start < text.length) (hStop : window.stop = z.windowEnd text window.start) :
    strip (slice text window) ≠ [] := by
  have hLater : window.start < window.stop := hStop ▸ lt_windowEnd hStart
  have hGet := List.getElem?_eq_getElem hStart
  cases hSpace : isSpace text[window.start] with
  | false => exact strip_slice_ne_nil hGet hSpace (Nat.le_refl _) hLater
  | true =>
    obtain ⟨-, d, hd, hText⟩ := hSpaced _ _ hGet hSpace
    refine strip_slice_ne_nil hd hText (Nat.le_succ _) ?_
    have hIn := (List.getElem?_eq_some_iff.mp hd).1
    rcases z.windowEnd_cases text window.start with ⟨-, hEnd⟩ | ⟨-, -, -, hHere, -⟩ | ⟨-, hEnd, -⟩
    · omega
    · rw [← hStop] at hHere
      refine lt_of_le_of_ne hLater fun hEq => ?_
      rw [← hEq, hd] at hHere
      rw [Option.some.inj hHere] at hText
      revert hText
      decide
    · omega

theorem chunkSpans_eq_windows (hSpaced : Spaced isSpace ' ' text) (hSize : 2 ≤ z.size) :
    z.chunkSpans text = z.windows text := by
  refine filter_eq_self.mpr fun window hWindow => decide_eq_true ?_
  rw [windows_eq] at hWindow
  obtain ⟨hStart, hStop⟩ := of_mem_windowsFrom hWindow
  exact strip_window_ne_nil hSpaced hSize hStart hStop

theorem not_stalls (hOverlap : z.overlap = 0) : ¬z.Stalls text window := by
  intro hStall
  have hBefore := hStall.2.1
  unfold nextStart at hBefore
  omega

end Sizing

def freshPlaces : List Span → Nat
  | s :: t :: rest =>
    ((List.range' t.start (t.stop - t.start)).countP fun place => ¬s.Contains place) +
      freshPlaces (t :: rest)
  | _ => 0

/-- The chunks of a text end one after the other; none is within the one before it; and there are no
more of them, but one, than places that a chunk does not share with the one before it. -/
structure NoRedundancy (z : Sizing) (text : List Char) : Prop where
  increasing : (z.chunkSpans text).IsChain fun s t => s.stop < t.stop
  apart : (z.chunkSpans text).IsChain fun s t => ¬t.Within s
  bounded : (z.chunkSpans text).length ≤ freshPlaces (z.chunkSpans text) + 1

theorem length_le_freshPlaces {spans : List Span} (hProper : ∀ s ∈ spans, s.start < s.stop)
    (h : spans.IsChain fun s t => s.stop < t.stop) : spans.length ≤ freshPlaces spans + 1 := by
  induction spans with
  | nil => exact Nat.zero_le _
  | cons s rest ih =>
    cases rest with
    | nil => exact Nat.le_refl _
    | cons t rest =>
      obtain ⟨hStop, hRest⟩ := isChain_cons_cons.mp h
      have hLength := ih (fun u hu => hProper u (mem_cons_of_mem _ hu)) hRest
      have hNew : 1 ≤ (List.range' t.start (t.stop - t.start)).countP
          fun place => ¬s.Contains place := by
        have hLast : t.start < t.stop := hProper t (by simp)
        refine countP_pos_iff.mpr ⟨t.stop - 1, ?_, ?_⟩
        · rw [mem_range'_1]
          omega
        · have hOut : ¬s.Contains (t.stop - 1) := fun hIn => by
            have := hIn.2
            omega
          simpa using hOut
      rw [length_cons, freshPlaces]
      omega

/-- The chunks of a text are free of redundancy exactly if no window stalls. -/
theorem noRedundancy_iff (text : List Char) (z : Sizing) :
    NoRedundancy z (collapse text) ↔
      ∀ window ∈ z.windows (collapse text), ¬z.Stalls (collapse text) window := by
  have hSpaced : Spaced isSpace ' ' (collapse text) := spaced_collapse text
  generalize collapse text = text at hSpaced ⊢
  have hWindows : (z.windowsFrom text text.length 0).IsChain (fun s t => s.stop < t.stop) ↔ _ :=
    Sizing.increasing_windowsFrom (by omega)
  rw [← Sizing.windows_eq] at hWindows
  rw [← hWindows]
  have hProper : ∀ window ∈ z.windows text, window.start < window.stop := by
    intro window hWindow
    rw [Sizing.windows_eq] at hWindow
    obtain ⟨hStart, hStop⟩ := Sizing.of_mem_windowsFrom hWindow
    rw [hStop]
    exact Sizing.lt_windowEnd hStart
  constructor
  · intro h
    by_cases hSize : 2 ≤ z.size
    · rw [← Sizing.chunkSpans_eq_windows hSpaced hSize]
      exact h.increasing
    · have hOverlap := z.overlap_lt
      exact hWindows.mpr fun window _ => Sizing.not_stalls (by omega)
  · intro h
    have hChain : (z.chunkSpans text).IsChain fun s t => s.stop < t.stop := by
      rw [isChain_iff_pairwise] at h ⊢
      exact h.sublist filter_sublist
    refine ⟨hChain, hChain.imp fun s t hStop hWithin => ?_, length_le_freshPlaces ?_ hChain⟩
    · exact Nat.not_le.mpr hStop hWithin.2
    · exact fun window hWindow => hProper window (mem_filter.mp hWindow).1

def tenByFive : Sizing := ⟨10, 5, by decide⟩

/-- After the window `aaa bbb` five more end there. -/
def longWord : List Char := "aaa bbb cccccccccccccccccccc".toList

theorem redundant_chunk : ¬NoRedundancy tenByFive (collapse longWord) := by
  intro h
  have hSpans : tenByFive.chunkSpans (collapse longWord) =
      [⟨0, 7⟩, ⟨2, 7⟩, ⟨3, 7⟩, ⟨4, 7⟩, ⟨5, 7⟩, ⟨6, 7⟩, ⟨7, 17⟩, ⟨12, 22⟩, ⟨17, 27⟩, ⟨22, 28⟩] := by
    decide +kernel
  have hIncreasing := h.increasing
  rw [hSpans, isChain_cons_cons] at hIncreasing
  exact Nat.lt_irrefl 7 hIncreasing.1

end Glasslab.Knowledge
