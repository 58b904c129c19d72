import Glasslab.Knowledge.Retrieval
import Glasslab.Foundation.Machine

/-!
# Ingestion of knowledge sources

`ingest_text` and `_commit_source` of `app/knowledge_manager.py`, with the two ways to delete
sources. A text that is ingested again under its uri goes to the row that is there, and the row gets
the run scope of the new call if there is one. So a run loses what it has ingested when another run
ingests it (`taken_away`); in histories where no call finds the row of another run, it keeps it
(`ingestion_scopes`). That a private source is not shown to other runs holds in every history.
-/

namespace Glasslab.Knowledge

open Foundation Foundation.Machine List

/-! ## Operations -/

structure IngestText where
  sourceType : SourceType
  canonicalUri : String
  text : String
  title : Option String := none
  sourceVersion : Option String := none
  metadata : Payload := []
  runScope : Option String := none
  accessPolicy : AccessPolicy := .runPrivate
  indexVersion : String := "v1"

/-- What the manager is set up with. The ids of `uuid4` are distinct. -/
structure Manager where
  digestText : String → String
  containsSecrets : String → Bool
  uuid : Nat → String
  uuid_injective : Function.Injective uuid
  chunkSize : Int := 1500
  chunkOverlap : Int := 150

structure Index where
  sources : SourceTable := .empty
  /-- How many ids have been drawn. -/
  issued : Nat := 0

inductive Operation where
  | ingestText (call : IngestText) (now : String)
  | deleteSource (sourceId : String)
  | invalidateByDigest (digest : String)

variable {manager : Manager} {index : Index} {call : IngestText} {now : String}
  {source : KnowledgeSource} {table table' : SourceTable} {record : KnowledgeSource}

/-- `value or other` of optional strings. -/
def orOther (value other : Option String) : Option String :=
  match value with
  | some text => if text = "" then other else some text
  | none => other

/-- Nothing is raised before the source is committed. -/
def Manager.accepts (manager : Manager) (call : IngestText) : Bool :=
  manager.containsSecrets call.text = false ∧ call.canonicalUri ≠ "" ∧
    call.title.all (fun title => title.length ≤ 512)

def Manager.keyOf (manager : Manager) (call : IngestText) : String × String :=
  (manager.digestText call.text, call.canonicalUri)

/-- The row to save: a new one, or the one that is there with what the call brings. -/
def Manager.rowFor (manager : Manager) (index : Index) (call : IngestText) (now : String) :
    KnowledgeSource :=
  match index.sources.find (manager.digestText call.text) call.canonicalUri with
  | none =>
    { sourceId := manager.uuid index.issued
      sourceType := call.sourceType
      canonicalUri := call.canonicalUri
      runScope := call.runScope
      accessPolicy := call.accessPolicy
      sourceVersion := call.sourceVersion
      digest := manager.digestText call.text
      ingestedAt := now
      indexVersion := call.indexVersion
      title := call.title
      metadata := call.metadata }
  | some existing =>
    { existing with
      sourceType := call.sourceType
      runScope := orOther call.runScope existing.runScope
      accessPolicy := call.accessPolicy
      sourceVersion := call.sourceVersion
      indexVersion := call.indexVersion
      title := orOther call.title existing.title
      metadata := Dict.merge existing.metadata call.metadata }

/-- `_chunk_text` raises `invalid chunk sizing`. -/
def Manager.invalidSizing (manager : Manager) : Bool :=
  manager.chunkSize ≤ 0 ∨ manager.chunkOverlap < 0 ∨ manager.chunkSize ≤ manager.chunkOverlap

def normalized (call : IngestText) (record : KnowledgeSource) : KnowledgeSource :=
  { record with
    metadata := Dict.set "_normalized_text" (.str (String.ofList (collapse call.text.toList)))
      record.metadata }

def Manager.commitSource (manager : Manager) (index : Index) (call : IngestText) (now : String) :
    SourceTable :=
  let record := manager.rowFor index call now
  match index.sources.save record with
  | none => index.sources
  | some saved =>
    if manager.invalidSizing then saved
    else (saved.save (normalized call record)).getD saved

/-- One operation. What raises leaves what it has saved. -/
def Manager.step (manager : Manager) (index : Index) : Operation → Index
  | .ingestText call now =>
    if manager.accepts call then
      { sources := manager.commitSource index call now, issued := index.issued + 1 }
    else index
  | .deleteSource sourceId =>
    { index with sources := index.sources.delete fun source => source.sourceId = sourceId }
  | .invalidateByDigest digest =>
    { index with sources := index.sources.delete fun source => source.digest = digest }

def Manager.after (manager : Manager) (operations : List Operation) : Index :=
  exec manager.step {} operations

theorem mem_save (h : table.save record = some table') :
    source ∈ table'.rows ↔
      source = record ∨ source ∈ table.rows ∧ source.sourceId ≠ record.sourceId := by
  rw [SourceTable.save] at h
  split at h
  · cases h
  · split at h
    next hId =>
      obtain rfl := Option.some.inj h
      rw [mem_map]
      constructor
      · rintro ⟨other, hOther, rfl⟩
        split
        next => exact .inl rfl
        next hNe => exact .inr ⟨hOther, hNe⟩
      · rintro (rfl | ⟨hMem, hNe⟩)
        · obtain ⟨other, hOther, hSame⟩ := mem_map.mp hId
          exact ⟨other, hOther, if_pos hSame⟩
        · exact ⟨source, hMem, if_neg hNe⟩
    next hId =>
      obtain rfl := Option.some.inj h
      rw [mem_append, mem_singleton, or_comm]
      refine or_congr_right (and_iff_left_of_imp fun hMem hSame => ?_).symm
      exact hId (hSame ▸ mem_map_of_mem hMem)

theorem save_eq_some (h : ∀ other ∈ table.rows, other.key = record.key →
    other.sourceId = record.sourceId) : ∃ table', table.save record = some table' := by
  have hClash : ¬∃ other ∈ table.rows, other.sourceId ≠ record.sourceId ∧
      other.key = record.key := by
    rintro ⟨other, hOther, hNe, hKey⟩
    exact hNe (h other hOther hKey)
  rw [SourceTable.save, dif_neg hClash]
  split
  · exact ⟨_, rfl⟩
  · exact ⟨_, rfl⟩

def Issued (manager : Manager) (index : Index) : Prop :=
  ∀ source ∈ index.sources.rows, ∃ n < index.issued, source.sourceId = manager.uuid n

theorem rowFor_key (manager : Manager) (index : Index) (call : IngestText) (now : String) :
    (manager.rowFor index call now).key = manager.keyOf call := by
  rw [Manager.rowFor]
  split
  · rfl
  · rename_i existing hFind
    obtain ⟨-, hDigest, hUri⟩ := SourceTable.find_eq_some_iff.mp hFind
    exact Prod.ext hDigest hUri

theorem rowFor_sourceId (hIssued : Issued manager index) (hSource : source ∈ index.sources.rows) :
    source.sourceId = (manager.rowFor index call now).sourceId ↔
      source.key = manager.keyOf call := by
  rw [Manager.rowFor]
  split
  · rename_i hFind
    constructor
    · intro hId
      obtain ⟨n, hn, hSourceId⟩ := hIssued source hSource
      have hEq := manager.uuid_injective (hSourceId.symm.trans hId)
      omega
    · intro hKey
      have hNot := SourceTable.find_eq_none_iff.mp hFind source hSource
      exact absurd (Prod.ext_iff.mp hKey) hNot
  · rename_i existing hFind
    obtain ⟨hExisting, hDigest, hUri⟩ := SourceTable.find_eq_some_iff.mp hFind
    constructor
    · intro hId
      rw [SourceTable.eq_of_sourceId_eq hSource hExisting hId]
      exact Prod.ext hDigest hUri
    · intro hKey
      have hSame : source.key = existing.key := hKey.trans (Prod.ext hDigest hUri).symm
      rw [SourceTable.eq_of_key_eq hSource hExisting hSame]

/-- The commit puts one row in the place of the row with its key, and keeps the others. -/
theorem mem_commitSource (hIssued : Issued manager index) (call : IngestText) (now : String) :
    ∃ final, final = (if manager.invalidSizing then manager.rowFor index call now
        else normalized call (manager.rowFor index call now)) ∧
      ∀ source, source ∈ (manager.commitSource index call now).rows ↔
        source = final ∨ source ∈ index.sources.rows ∧ source.key ≠ manager.keyOf call := by
  have hKey := rowFor_key manager index call now
  have hFirst : ∀ other ∈ index.sources.rows, other.key = (manager.rowFor index call now).key →
      other.sourceId = (manager.rowFor index call now).sourceId := by
    intro other hOther hSame
    exact (rowFor_sourceId hIssued hOther).mpr (hSame.trans hKey)
  obtain ⟨saved, hSaved⟩ := save_eq_some hFirst
  have hRows : ∀ source, source ∈ saved.rows ↔ source = manager.rowFor index call now ∨
      source ∈ index.sources.rows ∧ source.key ≠ manager.keyOf call := by
    intro source
    rw [mem_save hSaved]
    refine or_congr_right (and_congr_right fun hSource => ?_)
    exact not_congr (rowFor_sourceId hIssued hSource)
  rw [Manager.commitSource, hSaved]
  dsimp only
  split
  · exact ⟨_, rfl, hRows⟩
  · have hAgain : ∀ other ∈ saved.rows,
        other.key = (normalized call (manager.rowFor index call now)).key →
          other.sourceId = (normalized call (manager.rowFor index call now)).sourceId := by
      intro other hOther hSame
      rcases (hRows other).mp hOther with rfl | ⟨-, hNe⟩
      · rfl
      · exact absurd (hSame.trans hKey) hNe
    obtain ⟨final, hFinal⟩ := save_eq_some hAgain
    rw [hFinal, Option.getD_some]
    refine ⟨_, rfl, fun source => ?_⟩
    rw [mem_save hFinal, hRows]
    constructor
    · rintro (rfl | ⟨rfl | hOld, hNe⟩)
      · exact .inl rfl
      · exact absurd rfl hNe
      · exact .inr hOld
    · rintro (rfl | ⟨hOld, hNe⟩)
      · exact .inl rfl
      · refine .inr ⟨.inr ⟨hOld, hNe⟩, fun hId => hNe ?_⟩
        exact (rowFor_sourceId hIssued hOld).mp hId

theorem rowFor_runScope (manager : Manager) (index : Index) (call : IngestText) (now : String) :
    (manager.rowFor index call now).runScope = call.runScope ∨
      ∃ existing ∈ index.sources.rows, existing.key = manager.keyOf call ∧
        (manager.rowFor index call now).runScope = existing.runScope := by
  rw [Manager.rowFor]
  split
  · exact .inl rfl
  · rename_i existing hFind
    obtain ⟨hExisting, hDigest, hUri⟩ := SourceTable.find_eq_some_iff.mp hFind
    have hKey : existing.key = manager.keyOf call := Prod.ext hDigest hUri
    unfold orOther
    split
    · rename_i scope hScope
      split
      · exact .inr ⟨existing, hExisting, hKey, rfl⟩
      · exact .inl hScope.symm
    · exact .inr ⟨existing, hExisting, hKey, rfl⟩

theorem rowFor_runScope_of_some {scope : String} (hScope : call.runScope = some scope)
    (hNonempty : scope ≠ "") : (manager.rowFor index call now).runScope = some scope := by
  rw [Manager.rowFor]
  split
  · exact hScope
  · rw [hScope, orOther, if_neg hNonempty]

theorem mem_ingest (hIssued : Issued manager index) (hAccepts : manager.accepts call = true)
    (now : String) :
    ∃ final, final.key = manager.keyOf call ∧
      final.sourceId = (manager.rowFor index call now).sourceId ∧
      final.runScope = (manager.rowFor index call now).runScope ∧
      ∀ source, source ∈ (manager.step index (.ingestText call now)).sources.rows ↔
        source = final ∨ source ∈ index.sources.rows ∧ source.key ≠ manager.keyOf call := by
  obtain ⟨final, hFinal, hRows⟩ := mem_commitSource hIssued call now
  have hKey := rowFor_key manager index call now
  rw [Manager.step, if_pos hAccepts]
  split at hFinal
  · exact ⟨final, hFinal ▸ hKey, hFinal ▸ rfl, hFinal ▸ rfl, hRows⟩
  · exact ⟨final, hFinal ▸ hKey, hFinal ▸ rfl, hFinal ▸ rfl, hRows⟩

theorem issued_step (manager : Manager) (index : Index) (operation : Operation)
    (hIssued : Issued manager index) : Issued manager (manager.step index operation) := by
  cases operation with
  | deleteSource sourceId =>
    exact fun source hSource => hIssued source (mem_of_mem_filter hSource)
  | invalidateByDigest digest =>
    exact fun source hSource => hIssued source (mem_of_mem_filter hSource)
  | ingestText call now =>
    by_cases hAccepts : manager.accepts call = true
    · obtain ⟨final, hKey, hId, -, hRows⟩ := mem_ingest hIssued hAccepts now
      have hCount : (manager.step index (.ingestText call now)).issued = index.issued + 1 := by
        rw [Manager.step, if_pos hAccepts]
      intro source hSource
      rcases (hRows source).mp hSource with rfl | ⟨hOld, -⟩
      · rw [hId, Manager.rowFor]
        split
        · exact ⟨index.issued, by omega, rfl⟩
        · rename_i existing hFind
          obtain ⟨n, hn, hEq⟩ := hIssued existing (SourceTable.find_eq_some_iff.mp hFind).1
          exact ⟨n, by omega, hEq⟩
      · obtain ⟨n, hn, hEq⟩ := hIssued source hOld
        exact ⟨n, by omega, hEq⟩
    · rw [Manager.step, if_neg hAccepts]
      exact hIssued

theorem issued_after (manager : Manager) (operations : List Operation) :
    Issued manager (manager.after operations) :=
  exec_invariant operations (issued_step manager) fun _ hSource => absurd hSource not_mem_nil

theorem after_concat (manager : Manager) (operations : List Operation) (operation : Operation) :
    manager.after (operations ++ [operation]) =
      manager.step (manager.after operations) operation := by
  rw [Manager.after, exec_append]
  rfl

/-- A history has ingested a source with this scope. -/
def Ingested (manager : Manager) (operations : List Operation) (key : String × String)
    (scope : Option String) : Prop :=
  ∃ call now, .ingestText call now ∈ operations ∧ manager.accepts call = true ∧
    manager.keyOf call = key ∧ call.runScope = scope

variable {operations : List Operation} {key : String × String}

theorem Ingested.concat
    {scope : Option String} (h : Ingested manager operations key scope) (operation : Operation) :
    Ingested manager (operations ++ [operation]) key scope := by
  obtain ⟨call, now, hMem, hRest⟩ := h
  exact ⟨call, now, mem_append_left _ hMem, hRest⟩

theorem ingested_of_mem (manager : Manager) (operations : List Operation) :
    ∀ source ∈ (manager.after operations).sources.rows,
      Ingested manager operations source.key source.runScope := by
  induction operations using List.reverseRecOn with
  | nil => exact fun _ hSource => absurd hSource not_mem_nil
  | append_singleton operations operation ih =>
    rw [after_concat]
    intro source hSource
    cases operation with
    | deleteSource sourceId => exact (ih source (mem_of_mem_filter hSource)).concat _
    | invalidateByDigest digest => exact (ih source (mem_of_mem_filter hSource)).concat _
    | ingestText call now =>
      by_cases hAccepts : manager.accepts call = true
      · obtain ⟨final, hKey, -, hScope, hRows⟩ :=
          mem_ingest (issued_after manager operations) hAccepts now
        rcases (hRows source).mp hSource with rfl | ⟨hOld, -⟩
        · rcases rowFor_runScope manager (manager.after operations) call now with hCall | hExisting
          · refine ⟨call, now, mem_append_right _ (mem_singleton_self _), hAccepts,
              hKey.symm, ?_⟩
            rw [hScope, hCall]
          · obtain ⟨existing, hExisting, hSame, hEq⟩ := hExisting
            have hBefore := ih existing hExisting
            rw [hKey, hScope, hEq, ← hSame]
            exact hBefore.concat _
        · exact (ih source hOld).concat _
      · rw [Manager.step, if_neg hAccepts] at hSource
        exact (ih source hSource).concat _

def StaysPrivate (manager : Manager) (operations : List Operation) : Prop :=
  ∀ run, ∀ source ∈ (manager.after operations).sources.rows,
    (∀ scope, Ingested manager operations source.key scope → scope = some run) →
      ∀ other, SourceTable.visibleTo other source = true → other = run

theorem staysPrivate (manager : Manager) (operations : List Operation) :
    StaysPrivate manager operations := by
  intro run source hSource hOnly other hVisible
  have hScope := hOnly _ (ingested_of_mem manager operations source hSource)
  rw [SourceTable.visibleTo, decide_eq_true_iff, hScope] at hVisible
  rcases hVisible with hSame | hNone
  · exact (Option.some.inj hSame).symm
  · cases hNone

/-! ## Runs keep what they ingest -/

def Removes (index : Index) (key : String × String) : Operation → Prop
  | .ingestText _ _ => False
  | .deleteSource sourceId =>
    ∃ source ∈ index.sources.rows, source.key = key ∧ source.sourceId = sourceId
  | .invalidateByDigest digest =>
    ∃ source ∈ index.sources.rows, source.key = key ∧ source.digest = digest

/-- A run that has ingested a text, and has not deleted it since, can retrieve it. -/
def KeepsRuns (manager : Manager) (operations : List Operation) : Prop :=
  ∀ before call now later run, before ++ .ingestText call now :: later = operations →
    manager.accepts call = true → call.runScope = some run →
      Along manager.step (fun index operation => ¬Removes index (manager.keyOf call) operation)
        (manager.after (before ++ [.ingestText call now])) later →
      ∃ source ∈ (manager.after operations).sources.rows, source.key = manager.keyOf call ∧
        SourceTable.visibleTo run source = true

/-- A call with a run scope does not find the row of another run. -/
def Undisputed (manager : Manager) (index : Index) : Operation → Prop
  | .ingestText call _ =>
    (manager.accepts call = true → call.runScope.all (fun scope =>
      scope ≠ "" ∧ ∀ source ∈ index.sources.rows, source.key = manager.keyOf call →
        source.runScope = none ∨ source.runScope = some scope) = true)
  | _ => True

instance (manager : Manager) (index : Index) :
    (operation : Operation) → Decidable (Undisputed manager index operation)
  | .ingestText _ _ => inferInstanceAs (Decidable (_ → _))
  | .deleteSource _ => .isTrue trivial
  | .invalidateByDigest _ => .isTrue trivial

theorem Undisputed.scope {scope : String} (h : Undisputed manager index (.ingestText call now))
    (hAccepts : manager.accepts call = true) (hScope : call.runScope = some scope) :
    scope ≠ "" ∧ ∀ source ∈ index.sources.rows, source.key = manager.keyOf call →
      source.runScope = none ∨ source.runScope = some scope := by
  have hAll := h hAccepts
  rw [hScope, Option.all_some, decide_eq_true_iff] at hAll
  exact hAll

def Owned (key : String × String) (run : String) (index : Index) : Prop :=
  ∃ source ∈ index.sources.rows, source.key = key ∧ source.runScope = some run

theorem owned_ingest {run : String} (hIssued : Issued manager index)
    (hMove : Undisputed manager index (.ingestText call now))
    (hAccepts : manager.accepts call = true) (hScope : call.runScope = some run) :
    Owned (manager.keyOf call) run (manager.step index (.ingestText call now)) := by
  obtain ⟨final, hKey, -, hFinal, hRows⟩ := mem_ingest hIssued hAccepts now
  refine ⟨final, (hRows final).mpr (.inl rfl), hKey, ?_⟩
  rw [hFinal]
  exact rowFor_runScope_of_some hScope (hMove.scope hAccepts hScope).1

theorem owned_step {run : String} {operation : Operation}
    (hIssued : Issued manager index) (hMove : Undisputed manager index operation)
    (hKept : ¬Removes index key operation) (h : Owned key run index) :
    Owned key run (manager.step index operation) := by
  obtain ⟨source, hSource, hKey, hRun⟩ := h
  cases operation with
  | deleteSource sourceId =>
    refine ⟨source, mem_filter.mpr ⟨hSource, ?_⟩, hKey, hRun⟩
    have hNe : source.sourceId ≠ sourceId := fun hEq => hKept ⟨source, hSource, hKey, hEq⟩
    simp [hNe]
  | invalidateByDigest digest =>
    refine ⟨source, mem_filter.mpr ⟨hSource, ?_⟩, hKey, hRun⟩
    have hNe : source.digest ≠ digest := fun hEq => hKept ⟨source, hSource, hKey, hEq⟩
    simp [hNe]
  | ingestText call now =>
    by_cases hAccepts : manager.accepts call = true
    · obtain ⟨final, hFinalKey, -, hFinal, hRows⟩ := mem_ingest hIssued hAccepts now
      by_cases hSame : source.key = manager.keyOf call
      · -- the row of the run is rewritten
        refine ⟨final, (hRows final).mpr (.inl rfl), hFinalKey.trans (hSame.symm.trans hKey), ?_⟩
        rw [hFinal]
        cases hScope : call.runScope with
        | some scope =>
          obtain ⟨hNonempty, hOwner⟩ := hMove.scope hAccepts hScope
          rw [rowFor_runScope_of_some hScope hNonempty]
          rcases hOwner source hSource hSame with hNone | hSome
          · rw [hNone] at hRun
            cases hRun
          · exact hSome.symm.trans hRun
        | none =>
          rw [Manager.rowFor]
          have hFind := SourceTable.find_eq_some_iff.mpr
            ⟨hSource, congrArg Prod.fst hSame, congrArg Prod.snd hSame⟩
          rw [Manager.keyOf] at hFind
          rw [hFind]
          rw [hScope]
          exact hRun
      · exact ⟨source, (hRows source).mpr (.inr ⟨hSource, hSame⟩), hKey, hRun⟩
    · rw [Manager.step, if_neg hAccepts]
      exact ⟨source, hSource, hKey, hRun⟩

structure Keeping (manager : Manager) (key : String × String) (run : String) (index : Index) :
    Prop where
  issued : Issued manager index
  owned : Owned key run index

theorem keepsRuns
    (h : Along manager.step (Undisputed manager) {} operations) : KeepsRuns manager operations := by
  rintro before call now later run rfl hAccepts hScope hKept
  obtain ⟨-, hMove, hLater⟩ := along_append.mp h
  have hStart := owned_ingest (issued_after manager before) hMove hAccepts hScope
  rw [after_concat] at hKept
  have hStep : ∀ index operation, Undisputed manager index operation ∧
      ¬Removes index (manager.keyOf call) operation →
        Keeping manager (manager.keyOf call) run index →
        Keeping manager (manager.keyOf call) run (manager.step index operation) := by
    rintro index operation ⟨hMove, hKept⟩ ⟨hIssued, hOwned⟩
    exact ⟨issued_step _ _ _ hIssued, owned_step hIssued hMove hKept hOwned⟩
  have hEnd := (along_and.mpr ⟨hLater, hKept⟩).invariant hStep
    ⟨issued_step _ _ _ (issued_after manager before), hStart⟩
  have hAfter : manager.after (before ++ .ingestText call now :: later) =
      exec manager.step (manager.step (manager.after before) (.ingestText call now)) later := by
    rw [Manager.after, exec_append]
    rfl
  obtain ⟨source, hSource, hKey, hRun⟩ := hEnd.owned
  rw [hAfter]
  exact ⟨source, hSource, hKey, decide_eq_true (.inl hRun)⟩

/-- In every history a private source stays private, and a run keeps what it has ingested if no call
with a run scope finds the row of another run. -/
theorem ingestion_scopes (manager : Manager) (operations : List Operation) :
    StaysPrivate manager operations ∧
      (Along manager.step (Undisputed manager) {} operations → KeepsRuns manager operations) :=
  ⟨staysPrivate manager operations, keepsRuns⟩

theorem replicate_injective : Function.Injective fun n => String.ofList (List.replicate n 'i') := by
  intro m n h
  have hLength := congrArg (fun id => id.toList.length) h
  simpa using hLength

def plainManager : Manager where
  digestText text := text
  containsSecrets _ := false
  uuid n := String.ofList (List.replicate n 'i')
  uuid_injective := replicate_injective

def card (run : String) : Operation :=
  .ingestText
    { sourceType := .techniqueCard, canonicalUri := "repo://card.md", text := "card",
      runScope := some run } "2026-01-01T00:00:00+00:00"

/-- Two runs ingest documents of their own around one that belongs to no run. -/
def ownDocuments : List Operation :=
  [card "run-1",
    .ingestText
      { sourceType := .techniqueCard, canonicalUri := "repo://notes.md", text := "notes",
        runScope := some "run-2" } "2026-01-01T00:00:00+00:00",
    .ingestText
      { sourceType := .techniqueCard, canonicalUri := "repo://guide.md", text := "guide",
        runScope := none } "2026-01-01T00:00:00+00:00",
    card "run-1"]

theorem ingestion_scopes_ownDocuments :
    StaysPrivate plainManager ownDocuments ∧ KeepsRuns plainManager ownDocuments :=
  ⟨(ingestion_scopes plainManager ownDocuments).1,
    (ingestion_scopes plainManager ownDocuments).2 (by decide +kernel)⟩

/-- The second run takes the card away from the first. -/
theorem taken_away : ¬KeepsRuns plainManager [card "run-1", card "run-2"] := by
  intro h
  obtain ⟨source, hSource, -, hVisible⟩ := h [] _ _ [card "run-2"] "run-1" rfl (by decide) rfl
    ⟨not_false, trivial⟩
  have hAll : ∀ source ∈ (plainManager.after [card "run-1", card "run-2"]).sources.rows,
      SourceTable.visibleTo "run-1" source = false := by
    decide +kernel
  rw [hAll source hSource] at hVisible
  cases hVisible

end Glasslab.Knowledge
