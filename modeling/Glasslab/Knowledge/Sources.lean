import Glasslab.Schemas
import Glasslab.Foundation.Sorting
import Mathlib.Data.Prod.Lex
import Mathlib.Data.String.Basic

/-!
# Knowledge sources

The table `knowledge_sources` of `app/storage.py` and the source types of `app/schemas.py`. The ids
of the sources are distinct, and so are their pairs of digest and uri; both are part of the table.

`list_knowledge_sources` filters by run scope and source types; an empty set is no filter.
-/

namespace Glasslab.Knowledge

open Foundation List

inductive SourceType where
  | documentation
  | handoff
  | evaluationContract
  | taskBundle
  | datasetMetadata
  | paper
  | techniqueCard
  | runProtocol
  | runReport
  | runArtifact
  | implementationFile
  deriving DecidableEq, Repr

def honeydewSourceTypes : Finset SourceType :=
  {.documentation, .handoff, .evaluationContract, .taskBundle, .datasetMetadata, .paper,
    .techniqueCard, .runProtocol, .runReport, .runArtifact}

def beakerSourceTypes : Finset SourceType :=
  {.documentation, .handoff, .evaluationContract, .taskBundle, .datasetMetadata, .runProtocol,
    .runReport, .runArtifact, .implementationFile}

inductive AccessPolicy where
  | runPrivate
  | runApproved
  deriving DecidableEq, Repr

structure KnowledgeSource where
  sourceId : String
  sourceType : SourceType
  canonicalUri : String
  runScope : Option String := none
  accessPolicy : AccessPolicy := .runApproved
  sourceVersion : Option String := none
  digest : String
  /-- In ISO format, as the table keeps it. -/
  ingestedAt : String
  indexVersion : String := "v1"
  title : Option String := none
  metadata : Payload := []
  parentSourceId : Option String := none

/-- The unique index of the table. -/
def KnowledgeSource.key (source : KnowledgeSource) : String × String :=
  (source.digest, source.canonicalUri)

structure SourceTable where
  rows : List KnowledgeSource
  ids : (rows.map KnowledgeSource.sourceId).Nodup
  keys : (rows.map KnowledgeSource.key).Nodup

namespace SourceTable

def empty : SourceTable := ⟨[], List.nodup_nil, List.nodup_nil⟩

variable {table : SourceTable} {source other : KnowledgeSource}

/-- `find_knowledge_source`. -/
def find (table : SourceTable) (digest canonicalUri : String) : Option KnowledgeSource :=
  table.rows.find? fun source => source.digest = digest ∧ source.canonicalUri = canonicalUri

/-- `(run_scope = ? OR run_scope IS NULL)`. -/
def visibleTo (runScope : String) (source : KnowledgeSource) : Bool :=
  source.runScope = some runScope ∨ source.runScope = none

/-- `list_knowledge_sources`. -/
def list (table : SourceTable) (sourceTypes : Finset SourceType) (runScope : Option String) :
    List KnowledgeSource :=
  sortOn (fun source => toLex (source.ingestedAt, source.sourceId)) (table.rows.filter fun source =>
    runScope.all (fun scope => visibleTo scope source) ∧
      (sourceTypes = ∅ ∨ source.sourceType ∈ sourceTypes))

theorem mem_list {sourceTypes : Finset SourceType} {runScope : Option String} :
    source ∈ table.list sourceTypes runScope ↔ source ∈ table.rows ∧
      runScope.all (fun scope => visibleTo scope source) ∧
        (sourceTypes = ∅ ∨ source.sourceType ∈ sourceTypes) := by
  rw [list, mem_sortOn, mem_filter, decide_eq_true_iff]

theorem eq_of_sourceId_eq (h : source ∈ table.rows) (h' : other ∈ table.rows)
    (hEq : source.sourceId = other.sourceId) : source = other :=
  inj_on_of_nodup_map table.ids h h' hEq

theorem eq_of_key_eq (h : source ∈ table.rows) (h' : other ∈ table.rows)
    (hEq : source.key = other.key) : source = other :=
  inj_on_of_nodup_map table.keys h h' hEq

theorem find_eq_some_iff {digest uri : String} :
    table.find digest uri = some source ↔
      source ∈ table.rows ∧ source.digest = digest ∧ source.canonicalUri = uri := by
  constructor
  · intro h
    exact ⟨mem_of_find?_eq_some h, by simpa using List.find?_some h⟩
  · rintro ⟨hMem, rfl, rfl⟩
    cases hFind : table.find source.digest source.canonicalUri with
    | none =>
      have hNot := List.find?_eq_none.mp hFind source hMem
      simp at hNot
    | some found =>
      have hFound : found.digest = source.digest ∧ found.canonicalUri = source.canonicalUri :=
        by simpa using List.find?_some hFind
      have hKey : found.key = source.key := Prod.ext hFound.1 hFound.2
      rw [eq_of_key_eq (mem_of_find?_eq_some hFind) hMem hKey]

/-- `save_knowledge_source`: insert, or rewrite the source with this id. A second source with the
digest and the uri violates the unique index. -/
def save (table : SourceTable) (record : KnowledgeSource) : Option SourceTable :=
  if hClash : ∃ other ∈ table.rows, other.sourceId ≠ record.sourceId ∧ other.key = record.key then
    none
  else if hId : record.sourceId ∈ table.rows.map KnowledgeSource.sourceId then
    some
      { rows := table.rows.map fun other =>
          if other.sourceId = record.sourceId then record else other
        ids := by
          rw [List.map_map]
          have hIds : table.rows.map (KnowledgeSource.sourceId ∘ fun other =>
              if other.sourceId = record.sourceId then record else other) =
                table.rows.map KnowledgeSource.sourceId := by
            refine List.map_congr_left fun other _ => ?_
            rw [Function.comp_apply]
            split
            next hSame => exact hSame.symm
            next => rfl
          exact hIds ▸ table.ids
        keys := by
          rw [List.map_map]
          refine (List.nodup_map_iff_inj_on table.ids.of_map).mpr ?_
          intro a ha b hb hEq
          rw [Function.comp_apply, Function.comp_apply] at hEq
          split at hEq
          next hA =>
            split at hEq
            next hB => exact eq_of_sourceId_eq ha hb (hA.trans hB.symm)
            next hB => exact absurd ⟨b, hb, hB, hEq.symm⟩ hClash
          next hA =>
            split at hEq
            next hB => exact absurd ⟨a, ha, hA, hEq⟩ hClash
            next hB => exact eq_of_key_eq ha hb hEq }
  else
    some
      { rows := table.rows ++ [record]
        ids := by
          rw [List.map_append, List.map_singleton, ← List.concat_eq_append]
          exact List.Nodup.concat hId table.ids
        keys := by
          rw [List.map_append, List.map_singleton, ← List.concat_eq_append]
          refine List.Nodup.concat ?_ table.keys
          intro hKey
          obtain ⟨other, hOther, hEq⟩ := List.mem_map.mp hKey
          refine hClash ⟨other, hOther, ?_, hEq⟩
          rintro hSame
          exact hId (List.mem_map.mpr ⟨other, hOther, hSame⟩) }

/-- `DELETE FROM knowledge_sources WHERE ...`. -/
def delete (table : SourceTable) (doomed : KnowledgeSource → Bool) : SourceTable where
  rows := table.rows.filter fun source => !doomed source
  ids := table.ids.sublist (List.filter_sublist.map _)
  keys := table.keys.sublist (List.filter_sublist.map _)

theorem find_eq_none_iff {digest uri : String} :
    table.find digest uri = none ↔
      ∀ source ∈ table.rows, ¬(source.digest = digest ∧ source.canonicalUri = uri) := by
  simp [find, List.find?_eq_none]

end SourceTable

def agentSourceTypes (agent : AgentName) : Finset SourceType :=
  if agent = .honeydew then honeydewSourceTypes else beakerSourceTypes

def defaultSourceTypes (agent : AgentName) (turnKind : TurnKind) : Finset SourceType :=
  let base := agentSourceTypes agent
  match turnKind with
  | .verification | .finalReport =>
    base ∩ {.runArtifact, .runReport, .runProtocol, .evaluationContract}
  | .experimentAnalysis => base ∩ {.runArtifact, .runReport, .runProtocol, .implementationFile}
  | .protocolDraft => base.erase .implementationFile
  | _ => base

theorem defaultSourceTypes_ne_empty (agent : AgentName) (turnKind : TurnKind) :
    defaultSourceTypes agent turnKind ≠ ∅ := by
  have hBase : .runReport ∈ agentSourceTypes agent := by cases agent <;> decide
  have hReport : .runReport ∈ defaultSourceTypes agent turnKind := by
    cases turnKind <;> simp [defaultSourceTypes, hBase]
  exact Finset.ne_empty_of_mem hReport

theorem defaultSourceTypes_subset (agent : AgentName) (turnKind : TurnKind) :
    defaultSourceTypes agent turnKind ⊆ agentSourceTypes agent := by
  cases turnKind <;> simp only [defaultSourceTypes, Finset.inter_subset_left,
    Finset.erase_subset, Finset.Subset.refl]

end Glasslab.Knowledge
