import Glasslab.Knowledge.Retrieval
import Glasslab.Foundation.Interleaving

/-!
# The evidence tool and its budget

`BoundRetrieveEvidenceTool` of `app/knowledge_tool.py`. A call adds up the bytes that the tool
results in the event log have returned, keeps as many entries as fit into what is left, and appends
its own result to the log. Any number of calls of a run may be under way.

What the calls of a run return stays within the budget if no call adds up the log while another one
has its result still to append (`tool_budget`); calls that read the same log may each return as much
as the budget allows (`budget_overspent`).
-/

namespace Glasslab.Knowledge.EvidenceTool

open Foundation Foundation.Machine List

structure Excerpt where
  uri : String
  verified : Bool
  deriving DecidableEq, Repr

/-- `RetrievedEvidence`, as far as the tool reads it. -/
structure Evidence where
  packetId : String
  entries : List Entry
  chunks : List Excerpt
  deriving DecidableEq, Repr

def citedUri (ranked : RankedSource) : String :=
  match ranked.kind, ranked.sourceId with
  | .chunk, some sourceId => if sourceId = "" then ranked.uri else "knowledge://" ++ sourceId
  | _, _ => ranked.uri

/-- The entries of a packet that have a text without secrets, with their excerpts. -/
def retrievedEvidence (containsSecrets : List Char → Bool) (packetId : String)
    (packet : ContextPacket) : Evidence :=
  let surfaced := packet.rankedSources.filterMap fun ranked =>
    ranked.text.bind fun text =>
      if text = "" ∨ containsSecrets text.toList = true then none
      else some ({ ranked with uri := citedUri ranked, text := text }, ranked.verified)
  { packetId := packetId
    entries := surfaced.map Prod.fst
    chunks := surfaced.map fun entry => ⟨entry.1.uri, entry.2⟩ }

structure Settings where
  evidenceSnapshotMaxBytes : Nat := 512 * 1024
  maxK : Int := 20
  maxQueryChars : Nat := 2000
  containsSecrets : List Char → Bool

/-- The arguments of a call, and the packet that its retrieval gives it. -/
structure Call where
  query : String
  k : Int := 5
  packetId : String
  packet : ContextPacket

structure KnowledgeToolResult where
  query : List Char
  k : Int
  packetId : String
  context : Option (List Char)
  uris : List String
  verified : List Bool
  chunkCount : Nat
  bytesReturned : Nat
  truncated : Bool
  deriving DecidableEq, Repr

inductive ToolEvent where
  | toolCall (query : List Char) (k : Int)
  | toolResult (result : KnowledgeToolResult)
  deriving DecidableEq, Repr

inductive Stage where
  | entered
  | retrieved
  | budgeted (result : KnowledgeToolResult)
  | returned (result : KnowledgeToolResult)
  /-- `query must not be empty`. -/
  | denied

structure Thread where
  call : Call
  stage : Stage

def normalizedQuery (settings : Settings) (call : Call) : List Char :=
  (collapse call.query.toList).take settings.maxQueryChars

def resolvedK (settings : Settings) (call : Call) : Int := max 1 (min call.k settings.maxK)

/-- `len(text.encode('utf-8'))`, and nothing for no context. -/
def contextBytes (context : Option (List Char)) : Nat :=
  ((context.getD []).map Char.utf8Size).sum

def usedBytes (log : List ToolEvent) : Nat :=
  (log.map fun
    | .toolCall _ _ => 0
    | .toolResult result => result.bytesReturned).sum

/-- How many of the first entries fit, and their context. -/
def fitting (remaining : Nat) (entries : List Entry) : Nat → Nat × Option (List Char)
  | 0 => (0, none)
  | n + 1 =>
    match buildContextString (entries.take (n + 1)) with
    | none => fitting remaining entries n
    | some candidate =>
      if contextBytes (some candidate) ≤ remaining then (n + 1, some candidate)
      else fitting remaining entries n

def applyBudget (settings : Settings) (log : List ToolEvent) (call : Call) : KnowledgeToolResult :=
  let evidence := retrievedEvidence settings.containsSecrets call.packetId call.packet
  let remaining := settings.evidenceSnapshotMaxBytes - usedBytes log
  let fit := fitting remaining evidence.entries evidence.entries.length
  let chunks := evidence.chunks.take fit.1
  { query := normalizedQuery settings call
    k := resolvedK settings call
    packetId := evidence.packetId
    context := fit.2
    uris := chunks.map Excerpt.uri
    verified := chunks.map Excerpt.verified
    chunkCount := chunks.length
    bytesReturned := contextBytes fit.2
    truncated := evidence.entries ≠ [] ∧ fit.2 = none }

def next (settings : Settings) (log : List ToolEvent) (thread : Thread) :
    List ToolEvent × Thread :=
  match thread.stage with
  | .entered =>
    (log ++ [.toolCall (normalizedQuery settings thread.call) (resolvedK settings thread.call)],
      { thread with stage := .retrieved })
  | .retrieved => (log, { thread with stage := .budgeted (applyBudget settings log thread.call) })
  | .budgeted result => (log ++ [.toolResult result], { thread with stage := .returned result })
  | .returned _ | .denied => (log, thread)

def enter (call : Call) : Thread :=
  ⟨call, if collapse call.query.toList = [] then .denied else .entered⟩

def program (settings : Settings) : Program (List ToolEvent) Call Thread where
  enter := enter
  next := next settings

def initial : Threads (List ToolEvent) Thread := ⟨[], []⟩

def after (settings : Settings) (moves : List (Move Call)) : Threads (List ToolEvent) Thread :=
  exec (program settings).step initial moves

/-! ## The budget -/

def Thread.returnedBytes (thread : Thread) : Nat :=
  match thread.stage with
  | .returned result => contextBytes result.context
  | _ => 0

def Thread.pendingBytes (thread : Thread) : Nat :=
  match thread.stage with
  | .budgeted result => contextBytes result.context
  | _ => 0

def Thread.isBudgeted (thread : Thread) : Bool :=
  match thread.stage with
  | .budgeted _ => true
  | _ => false

def Thread.isRetrieved (thread : Thread) : Bool :=
  match thread.stage with
  | .retrieved => true
  | _ => false

/-- The sizes of the contexts that the calls have returned. -/
def returnedTotal (s : Threads (List ToolEvent) Thread) : Nat :=
  (s.locals.map Thread.returnedBytes).sum

/-- A call adds up the log while no other call has a result to append. -/
def OneAtATime (s : Threads (List ToolEvent) Thread) : Move Call → Prop
  | .call _ => True
  | .step i =>
    s.locals[i]?.any Thread.isRetrieved = true →
      s.locals.all (fun thread => !thread.isBudgeted) = true

instance (s : Threads (List ToolEvent) Thread) : (move : Move Call) → Decidable (OneAtATime s move)
  | .call _ => .isTrue trivial
  | .step _ => inferInstanceAs (Decidable (_ → _))

variable {settings : Settings} {log : List ToolEvent} {s : Threads (List ToolEvent) Thread}

theorem fitting_bytes (remaining : Nat) (entries : List Entry) (n : Nat) :
    contextBytes (fitting remaining entries n).2 ≤ remaining := by
  induction n with
  | zero => exact Nat.zero_le _
  | succ n ih =>
    rw [fitting]
    split
    · exact ih
    · split
      · assumption
      · exact ih

theorem usedBytes_append (log : List ToolEvent) (event : ToolEvent) :
    usedBytes (log ++ [event]) = usedBytes log + usedBytes [event] := by
  simp [usedBytes]

/-- The log has the bytes that were returned, and those that are still to be appended fit. -/
structure Budgeted (settings : Settings) (s : Threads (List ToolEvent) Thread) : Prop where
  counted : ∀ (i : Nat) thread result, s.locals[i]? = some thread →
    thread.stage = .budgeted result → result.bytesReturned = contextBytes result.context
  returned : usedBytes s.shared = returnedTotal s
  bounded : usedBytes s.shared + (s.locals.map Thread.pendingBytes).sum ≤
    settings.evidenceSnapshotMaxBytes

theorem budgeted_initial (settings : Settings) : Budgeted settings initial := by
  have hUsed : usedBytes [] = 0 := rfl
  refine ⟨?_, ?_, ?_⟩
  · intro i thread result hThread
    cases hThread
  · rfl
  · exact Nat.zero_le _

/-- A call that begins has returned nothing and has nothing to append. -/
theorem enter_bytes (call : Call) : (enter call).returnedBytes = 0 ∧ (enter call).pendingBytes = 0 ∧
    ∀ result, (enter call).stage ≠ .budgeted result := by
  by_cases h : collapse call.query.toList = []
  · rw [enter, if_pos h]
    exact ⟨rfl, rfl, nofun⟩
  · rw [enter, if_neg h]
    exact ⟨rfl, rfl, nofun⟩

theorem budgeted_call (call : Call) (hs : Budgeted settings s) :
    Budgeted settings ((program settings).step s (.call call)) := by
  obtain ⟨hReturned, hPending, hStage⟩ := enter_bytes call
  have hEnter : (program settings).enter call = enter call := rfl
  refine ⟨?_, ?_, ?_⟩
  · intro i thread result hThread hBudgeted
    rcases Program.locals_call hThread with hThread | ⟨-, rfl⟩
    · exact hs.counted i thread result hThread hBudgeted
    · exact absurd hBudgeted (hStage result)
  · rw [Program.step_call, hEnter, returnedTotal, map_append, map_singleton,
      sum_append, sum_singleton, hReturned]
    exact hs.returned
  · rw [Program.step_call, hEnter, map_append, map_singleton, sum_append,
      sum_singleton, hPending]
    exact hs.bounded

theorem sum_pendingBytes_eq_zero (h : s.locals.all (fun thread => !thread.isBudgeted) = true) :
    (s.locals.map Thread.pendingBytes).sum = 0 := by
  refine sum_eq_zero fun bytes hBytes => ?_
  obtain ⟨thread, hThread, rfl⟩ := mem_map.mp hBytes
  have hNot := all_eq_true.mp h thread hThread
  unfold Thread.pendingBytes
  split
  · rename_i result hStage
    rw [Thread.isBudgeted, hStage] at hNot
    cases hNot
  · rfl

def Counted (thread : Thread) : Prop :=
  ∀ result, thread.stage = .budgeted result → result.bytesReturned = contextBytes result.context

theorem counted_next (thread : Thread) : Counted (next settings log thread).2 ∨
    (next settings log thread).2 = thread := by
  obtain ⟨call, stage⟩ := thread
  cases stage with
  | entered => exact .inl nofun
  | retrieved =>
    left
    intro result hStage
    obtain rfl := Stage.budgeted.inj hStage
    rfl
  | budgeted result => exact .inl nofun
  | returned result => exact .inr rfl
  | denied => exact .inr rfl

/-- A step that appends a result moves its bytes from the call to the log. -/
theorem usedBytes_next (settings : Settings) (log : List ToolEvent) {thread : Thread}
    (h : Counted thread) :
    usedBytes (next settings log thread).1 + thread.returnedBytes =
      usedBytes log + (next settings log thread).2.returnedBytes := by
  obtain ⟨call, stage⟩ := thread
  cases stage with
  | entered =>
    rw [next, usedBytes_append]
    rfl
  | retrieved => rfl
  | budgeted result =>
    have hEvent : usedBytes [.toolResult result] = result.bytesReturned := Nat.add_zero _
    rw [next, usedBytes_append, hEvent, h result rfl]
    rfl
  | returned result => rfl
  | denied => rfl

/-- The bytes that are used or claimed grow only when a call adds up the log. -/
theorem pendingBytes_next (settings : Settings) (log : List ToolEvent) {thread : Thread}
    (h : Counted thread) :
    usedBytes (next settings log thread).1 + (next settings log thread).2.pendingBytes ≤
        usedBytes log + thread.pendingBytes ∨
      thread.isRetrieved = true ∧ (next settings log thread).1 = log ∧
        (next settings log thread).2.pendingBytes ≤
          settings.evidenceSnapshotMaxBytes - usedBytes log := by
  obtain ⟨call, stage⟩ := thread
  cases stage with
  | entered =>
    left
    rw [next, usedBytes_append]
    exact Nat.le_refl _
  | retrieved => exact .inr ⟨rfl, rfl, fitting_bytes _ _ _⟩
  | budgeted result =>
    left
    have hEvent : usedBytes [.toolResult result] = result.bytesReturned := Nat.add_zero _
    rw [next, usedBytes_append, hEvent, h result rfl]
    exact Nat.le_refl _
  | returned result => exact .inl (Nat.le_refl _)
  | denied => exact .inl (Nat.le_refl _)

theorem budgeted_step {i : Nat} (hMove : OneAtATime s (.step i)) (hs : Budgeted settings s) :
    Budgeted settings ((program settings).step s (.step i)) := by
  cases hThread : s.locals[i]? with
  | none => rwa [Program.step_of_none hThread]
  | some thread =>
    have hOwn : Counted thread := fun result => hs.counted i thread result hThread
    have hShared : ((program settings).step s (.step i)).shared =
        (next settings s.shared thread).1 := by
      rw [Program.step_of_getElem? hThread]
      rfl
    have hReturned := Program.sum_locals_step (P := program settings) Thread.returnedBytes hThread
    have hPending := Program.sum_locals_step (P := program settings) Thread.pendingBytes hThread
    have hNext : (program settings).next s.shared thread = next settings s.shared thread := rfl
    rw [hNext] at hReturned hPending
    have hOld := hs.returned
    have hBound := hs.bounded
    rw [returnedTotal] at hOld
    refine ⟨?_, ?_, ?_⟩
    · intro j other result hOther
      rcases Program.locals_step hThread hOther with ⟨-, rfl⟩ | ⟨-, hOther⟩
      · rcases counted_next thread with hNew | hSame
        · exact hNew result
        · rw [hNext, hSame]
          exact hOwn result
      · exact hs.counted j other result hOther
    · have hUsed := usedBytes_next settings s.shared hOwn
      rw [hShared, returnedTotal]
      omega
    · rw [hShared]
      rcases pendingBytes_next settings s.shared hOwn with
        hLess | ⟨hRetrieved, hLog, hFits⟩
      · omega
      · have hNone := sum_pendingBytes_eq_zero (hMove (by rw [hThread]; exact hRetrieved))
        rw [hLog]
        omega

/-- What the calls of a run return stays within the budget, if a call adds up the log only while no
other one has a result to append. -/
theorem tool_budget (settings : Settings) (moves : List (Move Call))
    (h : Along (program settings).step OneAtATime initial moves) :
    returnedTotal (after settings moves) ≤ settings.evidenceSnapshotMaxBytes := by
  have hStep (s : Threads (List ToolEvent) Thread) (move : Move Call) (hMove : OneAtATime s move)
      (hs : Budgeted settings s) : Budgeted settings ((program settings).step s move) := by
    cases move with
    | call call => exact budgeted_call call hs
    | step i => exact budgeted_step hMove hs
  have hAfter := h.invariant hStep (budgeted_initial settings)
  have hBound := hAfter.bounded
  rw [hAfter.returned] at hBound
  exact (Nat.le_add_right _ _).trans hBound

/-- A call whose retrieval finds one short chunk. -/
def oneChunk : Call where
  query := "graph"
  packetId := "p1"
  packet :=
    { runId := "run-1"
      agent := .honeydew
      turnNumber := 1
      turnKind := .methodologyReview
      query := "graph"
      indexVersion := "v1"
      rankedSources :=
        [{ kind := .chunk, entryId := "c1", sourceId := some "s1", uri := "upload://a.pdf",
           digest := "d1", scope := none, score := 4, mode := "lexical", verified := true,
           text := some "graph" }]
      exactTextSupplied := none
      tokenBudget := 4000
      retrievalModeRequested := "lexical"
      retrievalModeActual := "lexical"
      retrievalFallbackReason := "" }

def smallBudget : Settings where
  evidenceSnapshotMaxBytes := 1024
  containsSecrets _ := false

/-- A call adds up the log after the one before it has returned. -/
def oneAfterAnother : List (Move Call) :=
  [.call oneChunk, .call oneChunk, .call oneChunk, .step 0, .step 1, .step 2, .step 0, .step 0,
    .step 1, .step 1, .step 2, .step 2]

theorem tool_budget_oneAfterAnother :
    returnedTotal (after smallBudget oneAfterAnother) ≤ 1024 :=
  tool_budget smallBudget oneAfterAnother (by decide +kernel)

/-- All calls add up the log before one of them has appended its result. -/
def allAddUpFirst : List (Move Call) :=
  [.call oneChunk, .call oneChunk, .call oneChunk, .step 0, .step 1, .step 2, .step 0, .step 1,
    .step 2, .step 0, .step 1, .step 2]

theorem budget_overspent : 1024 < returnedTotal (after smallBudget allAddUpFirst) := by
  decide +kernel

end Glasslab.Knowledge.EvidenceTool
