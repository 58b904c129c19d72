import Glasslab.Knowledge.EvidenceTool
import Glasslab.Foundation.LongestFit

/-!
# Truncated results of the evidence tool

`_apply_budget` of `app/knowledge_tool.py` drops entries from the end until the rest fits into the
bytes that are left. What it renders is the longest prefix of the entries that fits
(`longestPrefix_applyBudget`). The flag `truncated` is set only where nothing fits, so it tells
whether entries were dropped exactly if all entries fit or not even the first one does
(`truncated_iff`).
-/

namespace Glasslab.Knowledge.EvidenceTool

open Foundation List

/-- The rendering of the entries takes no more than the bytes that are left. -/
def FitsIn (remaining : Nat) (entries : List Entry) : Prop :=
  contextBytes (buildContextString entries) ≤ remaining

instance (remaining : Nat) (entries : List Entry) : Decidable (FitsIn remaining entries) :=
  inferInstanceAs (Decidable (_ ≤ _))

def remainingBytes (settings : Settings) (log : List ToolEvent) : Nat :=
  settings.evidenceSnapshotMaxBytes - usedBytes log

def entriesOf (settings : Settings) (call : Call) : List Entry :=
  (retrievedEvidence settings.containsSecrets call.packetId call.packet).entries

/-- The longest prefix that fits is rendered, and the flag says whether it is the whole list. -/
def ReportsTruncation (settings : Settings) (log : List ToolEvent) (call : Call) : Prop :=
  ∃ kept, LongestPrefix (FitsIn (remainingBytes settings log)) (entriesOf settings call) kept ∧
    (applyBudget settings log call).context = buildContextString kept ∧
    ((applyBudget settings log call).truncated = true ↔
      kept.length < (entriesOf settings call).length)

variable {settings : Settings} {log : List ToolEvent} {call : Call} {remaining : Nat}
  {entries kept : List Entry} {entry : Entry}

theorem fitsIn_nil : FitsIn remaining [] := Nat.zero_le _

theorem buildContextString_eq_none_iff : buildContextString entries = none ↔ entries = [] := by
  unfold buildContextString
  split
  next h => exact ⟨fun _ => h, fun _ => rfl⟩
  next h => exact ⟨nofun, fun hNil => absurd hNil h⟩

/-- More entries take no fewer bytes. -/
theorem FitsIn.of_prefix (h : FitsIn remaining entries) (hPrefix : kept <+: entries) :
    FitsIn remaining kept := by
  obtain ⟨rest, rfl⟩ := hPrefix
  cases kept with
  | nil => exact fitsIn_nil
  | cons entry kept =>
    unfold FitsIn at h ⊢
    rw [cons_append] at h
    rw [buildContextString, if_neg (cons_ne_nil _ _), intercalate_renderEntries] at h ⊢
    refine le_trans ?_ h
    have hEntries : renderEntries (entry :: (kept ++ rest)) =
        renderEntries (entry :: kept) ++ renderEntries rest := by
      rw [← cons_append]
      exact flatMap_append
    rw [hEntries]
    simp only [contextBytes, Option.getD_some, map_append, sum_append]
    omega

/-- The loop keeps the longest prefix, of those with no more than some number of entries. -/
theorem longestPrefix_fitting (remaining : Nat) (entries : List Entry) (n : Nat) :
    (fitting remaining entries n).2 =
        buildContextString (entries.take (fitting remaining entries n).1) ∧
      (fitting remaining entries n).1 ≤ n ∧
      FitsIn remaining (entries.take (fitting remaining entries n).1) ∧
      ∀ m ≤ n, FitsIn remaining (entries.take m) → m ≤ (fitting remaining entries n).1 ∨
        entries.take m = [] := by
  induction n with
  | zero =>
    refine ⟨rfl, Nat.le_refl _, fitsIn_nil, fun m hm _ => .inl hm⟩
  | succ n ih =>
    obtain ⟨hContext, hLe, hFits, hLongest⟩ := ih
    rw [fitting]
    cases hBuild : buildContextString (entries.take (n + 1)) with
    | none =>
      refine ⟨hContext, Nat.le_succ_of_le hLe, hFits, fun m hm hm' => ?_⟩
      rcases Nat.le_succ_iff.mp hm with hm | rfl
      · exact hLongest m hm hm'
      · exact .inr (buildContextString_eq_none_iff.mp hBuild)
    | some candidate =>
      dsimp only
      by_cases hFit : contextBytes (some candidate) ≤ remaining
      · rw [if_pos hFit]
        refine ⟨hBuild.symm, Nat.le_refl _, ?_, fun m hm _ => .inl hm⟩
        rwa [FitsIn, hBuild]
      · rw [if_neg hFit]
        refine ⟨hContext, Nat.le_succ_of_le hLe, hFits, fun m hm hm' => ?_⟩
        rcases Nat.le_succ_iff.mp hm with hm | rfl
        · exact hLongest m hm hm'
        · rw [FitsIn, hBuild] at hm'
          exact absurd hm' hFit

def keptCount (settings : Settings) (log : List ToolEvent) (call : Call) : Nat :=
  (fitting (remainingBytes settings log) (entriesOf settings call)
    (entriesOf settings call).length).1

theorem context_applyBudget (settings : Settings) (log : List ToolEvent) (call : Call) :
    (applyBudget settings log call).context =
      buildContextString ((entriesOf settings call).take (keptCount settings log call)) :=
  (longestPrefix_fitting _ _ _).1

theorem longestPrefix_applyBudget (settings : Settings) (log : List ToolEvent) (call : Call) :
    LongestPrefix (FitsIn (remainingBytes settings log)) (entriesOf settings call)
      ((entriesOf settings call).take (keptCount settings log call)) := by
  obtain ⟨-, hLe, hFits, hLongest⟩ := longestPrefix_fitting (remainingBytes settings log)
    (entriesOf settings call) (entriesOf settings call).length
  refine ⟨⟨List.take_prefix _ _, hFits⟩, fun other hOther => ?_⟩
  have hTake := prefix_iff_eq_take.mp hOther.1
  have hOtherFits := hOther.2
  rw [hTake] at hOtherFits
  rcases hLongest other.length hOther.1.length_le hOtherFits with hLe' | hNil
  · rw [length_take]
    exact Nat.le_min.mpr ⟨hLe', hOther.1.length_le⟩
  · rw [hTake, hNil]
    exact Nat.zero_le _

theorem truncated_applyBudget (settings : Settings) (log : List ToolEvent) (call : Call) :
    (applyBudget settings log call).truncated = true ↔
      entriesOf settings call ≠ [] ∧
        (entriesOf settings call).take (keptCount settings log call) = [] := by
  have hContext : (applyBudget settings log call).truncated = true ↔
      entriesOf settings call ≠ [] ∧ (applyBudget settings log call).context = none :=
    decide_eq_true_iff
  rw [hContext, context_applyBudget, buildContextString_eq_none_iff]

def AllOrNothing (remaining : Nat) (entries : List Entry) : Prop :=
  FitsIn remaining entries ∨ ∀ first ∈ entries.head?, ¬FitsIn remaining [first]

theorem longestPrefix_nil_iff :
    LongestPrefix (FitsIn remaining) entries [] ↔ ∀ first ∈ entries.head?,
    ¬FitsIn remaining [first] := by
  constructor
  · intro h first hFirst hFits
    obtain ⟨rest, rfl⟩ := List.head?_eq_some_iff.mp hFirst
    have hLe := h.length_le [first] ⟨⟨rest, rfl⟩, hFits⟩
    cases hLe
  · intro h
    refine ⟨⟨List.nil_prefix, fitsIn_nil⟩, fun other hOther => ?_⟩
    cases other with
    | nil => exact Nat.le_refl _
    | cons first rest =>
      obtain ⟨after, hAfter⟩ := hOther.1
      have hFirst : FitsIn remaining [first] :=
        FitsIn.of_prefix hOther.2 (cons_prefix_cons.mpr ⟨rfl, nil_prefix⟩)
      refine absurd hFirst (h first ?_)
      rw [← hAfter]
      rfl

theorem ReportsTruncation.allOrNothing (h : ReportsTruncation settings log call) :
    AllOrNothing (remainingBytes settings log) (entriesOf settings call) := by
  obtain ⟨kept, hKept, -, hFlag⟩ := h
  have hTruncated := truncated_applyBudget settings log call
  rw [← hKept.unique (longestPrefix_applyBudget settings log call)] at hTruncated
  by_cases hWhole : kept = entriesOf settings call
  · left
    rw [← hWhole]
    exact hKept.holds.2
  · right
    have hShorter : kept.length < (entriesOf settings call).length :=
      lt_of_le_of_ne hKept.holds.1.length_le
        fun hLength => hWhole (hKept.holds.1.eq_of_length hLength)
    have hNil := (hTruncated.mp (hFlag.mpr hShorter)).2
    rw [hNil] at hKept
    exact longestPrefix_nil_iff.mp hKept

/-- What is reported is right exactly if all entries fit or not even the first one does. -/
theorem truncated_iff (settings : Settings) (log : List ToolEvent) (call : Call) :
    ReportsTruncation settings log call ↔
      AllOrNothing (remainingBytes settings log) (entriesOf settings call) := by
  constructor
  · exact ReportsTruncation.allOrNothing
  · intro h
    have hLongest := longestPrefix_applyBudget settings log call
    have hTruncated := truncated_applyBudget settings log call
    have hContext := context_applyBudget settings log call
    generalize (entriesOf settings call).take (keptCount settings log call) = kept at *
    refine ⟨kept, hLongest, hContext, ?_⟩
    rw [hTruncated]
    rcases h with hAll | hFirst
    · obtain rfl := hLongest.unique (longestPrefix_self_iff.mpr hAll)
      exact iff_of_false (fun h => h.1 h.2) (lt_irrefl _)
    · obtain rfl := hLongest.unique (longestPrefix_nil_iff.mpr hFirst)
      rw [length_nil, length_pos_iff]
      exact and_iff_left rfl

def shortSource (entryId : String) : RankedSource where
  kind := .chunk
  entryId := entryId
  sourceId := some "s1"
  uri := "upload://a.pdf"
  digest := "d1"
  scope := none
  score := 4
  mode := "lexical"
  verified := true
  text := some "graph"

def sixChunks : Call :=
  { oneChunk with
    packet :=
      { oneChunk.packet with
        rankedSources := ["c1", "c2", "c3", "c4", "c5", "c6"].map shortSource } }

/-- The last one is dropped, and the result does not say so. -/
theorem dropped_silently : ¬ ReportsTruncation smallBudget [] sixChunks := by
  intro h
  rcases h.allOrNothing with hAll | hFirst
  · have hNot : ¬FitsIn (remainingBytes smallBudget []) (entriesOf smallBudget sixChunks) := by
      decide +kernel
    exact hNot hAll
  · have hHead : (entriesOf smallBudget sixChunks).head? =
        (entriesOf smallBudget oneChunk).head? := rfl
    have hFits : FitsIn (remainingBytes smallBudget []) (entriesOf smallBudget oneChunk) := by
      decide +kernel
    exact hFirst _ rfl hFits

end Glasslab.Knowledge.EvidenceTool
