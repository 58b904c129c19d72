import Glasslab.Foundation.LongestFit
import Glasslab.Knowledge.Retrieval

/-!
# The context of a follow-up

`_conversation_prior_context` of `app/engine.py` renders the last answered turns of a conversation
within a bound on their tokens. It goes through them from the oldest one and stops at the first that
is too much, so it keeps the oldest turns and not the most recent ones.

What it returns is the rendering of the longest suffix that fits exactly if all turns fit, or the
turns at the two ends happen to read the same (`priorContext_iff`); three turns of which two fit are
rendered without the most recent one (`oldest_kept`).
-/

namespace Glasslab.PriorContext

open Foundation Knowledge List

inductive TurnStatus where
  | running
  | completed
  | failed
  | aborted
  deriving DecidableEq, Repr

structure ResearchAnswer where
  answer : String
  deriving DecidableEq, Repr

structure AgentTurnResult where
  researchAnswer : Option ResearchAnswer
  deriving DecidableEq, Repr

structure TurnRecord where
  inputEvent : Payload
  structuredOutput : Option AgentTurnResult
  status : TurnStatus

def TurnRecord.answer? (turn : TurnRecord) : Option String :=
  if turn.status = .completed then
    (turn.structuredOutput.bind AgentTurnResult.researchAnswer).map ResearchAnswer.answer
  else none

section Render

-- `str` of what an event holds
variable (str : Value → String)

def block (turn : TurnRecord) (answer : String) : List Char :=
  "Q: ".toList ++ (str ((turn.inputEvent.lookup "question").getD (.str "?"))).toList ++
    "\nA: ".toList ++ answer.toList

def answeredBlocks (turns : List TurnRecord) : List (List Char) :=
  turns.filterMap fun turn => turn.answer?.map (block str turn)

end Render

/-- `max(1, len(text.split()))`. -/
def tokens (text : List Char) : Nat := max 1 (splitWords text).length

/-- `'\n\n'.join`. -/
def render (blocks : List (List Char)) : List Char := "\n\n".toList.intercalate blocks

/-- `xs[-n:]`, which is the whole list where `n` is zero. -/
def sliceLast {α : Type} (n : Nat) (xs : List α) : List α :=
  if n = 0 then xs else xs.drop (xs.length - n)

def conversationPriorContext (str : Value → String) (turns : List TurnRecord)
    (maxTurns maxTokens : Nat) : List Char :=
  render (takeFitting tokens maxTokens 0 (sliceLast maxTurns (answeredBlocks str turns)))

/-! ## What should be kept -/

def lastOf {α : Type} (n : Nat) (xs : List α) : List α := xs.drop (xs.length - n)

def KeepsMostRecent (str : Value → String) (turns : List TurnRecord) (maxTurns maxTokens : Nat) :
    Prop :=
  ∃ kept, LongestSuffix (fun l => total tokens l ≤ maxTokens)
      (lastOf maxTurns (answeredBlocks str turns)) kept ∧
    conversationPriorContext str turns maxTurns maxTokens = render kept

/-- Not all blocks fit. Those from the front up to the first that is too much read the same as those
from the back up to the first that is too much. -/
def SameEnds (blocks : List (List Char)) (maxTokens : Nat) : Prop :=
  ∃ front next rest before previous back,
    blocks = front ++ next :: rest ∧ blocks = before ++ previous :: back ∧
    (total tokens front ≤ maxTokens ∧ maxTokens < total tokens front + tokens next) ∧
    (total tokens back ≤ maxTokens ∧ maxTokens < tokens previous + total tokens back) ∧
    render front = render back

/-- All of the last turns fit, or the two ends read the same. Where no turns are asked for, the
first turn of the conversation is too much already. -/
def Spared (blocks : List (List Char)) (maxTurns maxTokens : Nat) : Prop :=
  if maxTurns = 0 then ∀ first ∈ blocks.head?, maxTokens < tokens first
  else
    total tokens (lastOf maxTurns blocks) ≤ maxTokens ∨ SameEnds (lastOf maxTurns blocks) maxTokens

variable {str : Value → String} {turns : List TurnRecord} {maxTurns maxTokens : Nat}
  {blocks : List (List Char)}

/-- The scan keeps the longest suffix, up to how it reads, exactly if everything fits or the ends
read the same. -/
theorem render_takeFitting_iff :
    (∃ kept, LongestSuffix (fun l => total tokens l ≤ maxTokens) blocks kept ∧
        render (takeFitting tokens maxTokens 0 blocks) = render kept) ↔
      total tokens blocks ≤ maxTokens ∨ SameEnds blocks maxTokens := by
  have hScan := longestPrefix_takeFitting tokens maxTokens blocks
  constructor
  · rintro ⟨back, hBack, hRender⟩
    by_cases hAll : total tokens blocks ≤ maxTokens
    · exact .inl hAll
    · right
      generalize takeFitting tokens maxTokens 0 blocks = front at hScan hRender
      obtain ⟨after, hFront⟩ := hScan.holds.1
      obtain ⟨before, hBefore⟩ := hBack.holds.1
      cases after with
      | nil =>
        rw [append_nil] at hFront
        rw [← hFront] at hAll
        exact absurd hScan.holds.2 hAll
      | cons next rest =>
        rcases eq_nil_or_concat before with rfl | ⟨before, previous, rfl⟩
        · rw [← hBefore] at hAll
          exact absurd hBack.holds.2 hAll
        · rw [concat_eq_append, append_assoc, singleton_append] at hBefore
          refine ⟨front, next, rest, before, previous, back, hFront.symm, hBefore.symm, ?_, ?_,
            hRender⟩
          · rw [← hFront] at hScan
            exact longestPrefix_append_iff.mp hScan
          · rw [← hBefore] at hBack
            exact longestSuffix_append_iff.mp hBack
  · rintro (hAll |
      ⟨front, next, rest, before, previous, back, hFront, hBefore, hFits, hFits', hRender⟩)
    · refine ⟨blocks, longestSuffix_self_iff.mpr hAll, ?_⟩
      rw [takeFitting_eq_self_iff.mpr hAll]
    · refine ⟨back, ?_, ?_⟩
      · rw [hBefore]
        exact longestSuffix_append_iff.mpr hFits'
      · have hPrefix : LongestPrefix (fun l => total tokens l ≤ maxTokens) blocks front := by
          rw [hFront]
          exact longestPrefix_append_iff.mpr hFits
        rw [hScan.unique hPrefix, hRender]

theorem ne_nil_of_mem_answeredBlocks {text : List Char} (h : text ∈ answeredBlocks str turns) :
    text ≠ [] := by
  obtain ⟨turn, -, hText⟩ := mem_filterMap.mp h
  obtain ⟨answer, -, rfl⟩ := Option.map_eq_some_iff.mp hText
  simp [block]

/-- Nothing is rendered only where nothing is kept. -/
theorem render_eq_nil_iff (h : ∀ text ∈ blocks, text ≠ []) : render blocks = [] ↔ blocks = [] := by
  cases blocks with
  | nil => exact ⟨fun _ => rfl, fun _ => rfl⟩
  | cons text rest =>
    have hText := h text mem_cons_self
    cases rest with
    | nil => simpa [render] using hText
    | cons next rest => simp [render, hText]

theorem takeFitting_eq_nil_iff :
    takeFitting tokens maxTokens 0 blocks =
    [] ↔ ∀ first ∈ blocks.head?, maxTokens < tokens first := by
  cases blocks with
  | nil => simp [takeFitting]
  | cons first rest => simp [takeFitting]

section Sufficient

variable (hSome : maxTurns ≠ 0)
include hSome

theorem keepsMostRecent_of_fits
    (h : total tokens (lastOf maxTurns (answeredBlocks str turns)) ≤ maxTokens) :
    KeepsMostRecent str turns maxTurns maxTokens := by
  unfold KeepsMostRecent conversationPriorContext sliceLast
  rw [if_neg hSome]
  exact render_takeFitting_iff.mpr (.inl h)

/-- Where neither the oldest nor the newest of the last turns fits alone, nothing is rendered, as it
should be. -/
theorem keepsMostRecent_of_ends {previous : List (List Char)} {newest : List Char}
    (hLast : lastOf maxTurns (answeredBlocks str turns) = previous ++ [newest])
    (hOldest : ∀ oldest ∈ (previous ++ [newest]).head?, maxTokens < tokens oldest)
    (hNewest : maxTokens < tokens newest) : KeepsMostRecent str turns maxTurns maxTokens := by
  unfold KeepsMostRecent conversationPriorContext sliceLast
  rw [if_neg hSome]
  show ∃ kept, LongestSuffix _ (lastOf maxTurns (answeredBlocks str turns)) kept ∧
    render (takeFitting tokens maxTokens 0 (lastOf maxTurns (answeredBlocks str turns))) =
      render kept
  rw [hLast, takeFitting_eq_nil_iff.mpr hOldest]
  exact ⟨[], longestSuffix_append_iff.mpr ⟨Nat.zero_le _, hNewest⟩, rfl⟩

end Sufficient

/-- The most recent turns are kept exactly if all of the last turns fit, or what fits at the two
ends reads the same. -/
theorem priorContext_iff (str : Value → String) (turns : List TurnRecord)
    (maxTurns maxTokens : Nat) :
    KeepsMostRecent str turns maxTurns maxTokens ↔
      Spared (answeredBlocks str turns) maxTurns maxTokens := by
  unfold KeepsMostRecent conversationPriorContext Spared sliceLast
  by_cases hNone : maxTurns = 0
  · subst hNone
    rw [if_pos rfl, if_pos rfl, lastOf, Nat.sub_zero, drop_length]
    have hScan := longestPrefix_takeFitting tokens maxTokens (answeredBlocks str turns)
    have hNe : ∀ text ∈ takeFitting tokens maxTokens 0 (answeredBlocks str turns), text ≠ [] :=
      fun text hText => ne_nil_of_mem_answeredBlocks (hScan.holds.1.subset hText)
    rw [← takeFitting_eq_nil_iff, ← render_eq_nil_iff hNe]
    constructor
    · rintro ⟨kept, hKept, hRender⟩
      rw [suffix_nil.mp hKept.holds.1] at hRender
      exact hRender
    · intro hRender
      exact ⟨[], longestSuffix_self_iff.mpr (Nat.zero_le _), hRender⟩
  · rw [if_neg hNone, if_neg hNone]
    exact render_takeFitting_iff

def answered (question answer : String) : TurnRecord where
  inputEvent := [("question", .str question)]
  structuredOutput := some ⟨some ⟨answer⟩⟩
  status := .completed

def strOf : Value → String
  | .str s => s
  | _ => ""

def conversation : List TurnRecord :=
  [answered "first" "one", answered "second" "two", answered "third" "three"]

/-- Two turns fit, and the most recent one is left out. -/
theorem oldest_kept : ¬ KeepsMostRecent strOf conversation 5 8 := by
  rintro ⟨kept, hKept, hRender⟩
  have hLast : LongestSuffix (fun l => total tokens l ≤ 8)
      (lastOf 5 (answeredBlocks strOf conversation))
      ["Q: second\nA: two".toList, "Q: third\nA: three".toList] := by
    have hBlocks : lastOf 5 (answeredBlocks strOf conversation) =
        [] ++ "Q: first\nA: one".toList ::
          ["Q: second\nA: two".toList, "Q: third\nA: three".toList] := by decide +kernel
    rw [hBlocks]
    exact longestSuffix_append_iff.mpr (by decide +kernel)
  rw [hKept.unique hLast] at hRender
  revert hRender
  decide +kernel

end Glasslab.PriorContext
