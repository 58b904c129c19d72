import Glasslab.Evidence.Snapshot
import Mathlib.Algebra.Order.BigOperators.Group.List

/-!
# Resolution of evidence uris

`app/evidence_resolver.py`: the uris that an agent cites for its claims are looked up in the store.
An artifact uri is split into a namespace and a path. The artifacts of the run that the namespace
names are searched, or those of all runs if it names none with artifacts, and the first one with an
equal path is taken. The namespace is compared neither with the run nor with the artifact's uri.
-/

namespace Glasslab.Evidence

open Foundation List

structure RunArtifact extends StoredArtifact where
  runId : String

structure StoredRun where
  runId : String
  createdAt : Instant

/-- The fields of an event that are read here. -/
structure StoredEvent where
  eventId : String
  runId : String
  sequenceNumber : Nat

structure EvidenceStore where
  runs : List StoredRun
  artifacts : List RunArtifact
  /-- The foreign key of the artifacts. -/
  owned : ∀ artifact ∈ artifacts, ∃ run ∈ runs, run.runId = artifact.runId
  jobs : List StoredJob := []
  events : List StoredEvent := []
  knowledgeSources : List String := []
  contextPackets : List String := []

namespace EvidenceStore

variable (store : EvidenceStore)

/-- `list_runs`. -/
def listRuns : List StoredRun := sortOn (fun run => OrderDual.toDual run.createdAt) store.runs

def listArtifacts (runId : String) : List RunArtifact :=
  sortOn (fun artifact => toLex (artifact.createdAt, artifact.artifactId))
    (store.artifacts.filter fun artifact => artifact.runId = runId)

def listJobs (runId : String) : List StoredJob :=
  sortOn (fun job => toLex (job.createdAt, job.jobId))
    (store.jobs.filter fun job => job.runId = runId)

def listEvents (runId : String) : List StoredEvent :=
  sortOn StoredEvent.sequenceNumber (store.events.filter fun event => event.runId = runId)

variable {store}

theorem mem_listArtifacts {runId : String} {artifact : RunArtifact} :
    artifact ∈ store.listArtifacts runId ↔ artifact ∈ store.artifacts ∧ artifact.runId = runId := by
  rw [listArtifacts, mem_sortOn, mem_filter, decide_eq_true_iff]

end EvidenceStore

def artifactScheme : List Char := "artifact://".toList

def withoutPrefix (front text : List Char) : List Char := (front.isPrefixOf? text).getD text

/-- `lstrip('/')`. -/
def lstripSlashes (text : List Char) : List Char := text.dropWhile fun c => c = '/'

def canonicalArtifactPath (value : List Char) : List Char :=
  let path := lstripSlashes (withoutPrefix artifactScheme value)
  match "mnt/artifacts/".toList.isPrefixOf? path with
  | some rest => rest
  | none => withoutPrefix "artifacts/".toList path

def splitSlash (text : List Char) : Option (List Char × List Char) :=
  match text.dropWhile fun c => c ≠ '/' with
  | [] => none
  | _ :: rest => some (text.takeWhile fun c => c ≠ '/', rest)

/-- `re.sub(r'^artifact://[^/]+/', '', uri)`. -/
def withoutNamespace (uri : List Char) : List Char :=
  match artifactScheme.isPrefixOf? uri with
  | none => uri
  | some rest =>
    match splitSlash rest with
    | some (namespaced, path) => if namespaced = [] then uri else path
    | none => uri

def artifactUriMatches (artifactUri path : List Char) (legacyPath : Option (List Char)) : Bool :=
  let normalized := lstripSlashes (withoutNamespace artifactUri)
  normalized = lstripSlashes path ∨
    (legacyPath.any fun legacy => normalized = lstripSlashes legacy) ∨
    canonicalArtifactPath artifactUri = canonicalArtifactPath (lstripSlashes path)

/-! ## Resolution -/

inductive ResolvedRecord where
  | artifact (record : RunArtifact)
  | job (record : StoredJob)
  | event (record : StoredEvent)
  | knowledgeSource (sourceId : String)
  | knowledgeChunk (packetId : String)
  | contract (contractId version : String)

/-- `ResolvedEvidence`: the record, or the error. -/
structure ResolvedEvidence where
  uri : String
  outcome : Except String ResolvedRecord

/-- The namespace and the path of an artifact uri, behind a scheme that may be doubled. -/
def citedArtifact (uri : List Char) : Option (List Char × List Char) :=
  splitSlash (withoutPrefix artifactScheme (uri.drop artifactScheme.length))

/-- `path[len('artifacts/'):] if path.startswith('artifacts/') else None`. -/
def legacyPath (path : List Char) : Option (List Char) := "artifacts/".toList.isPrefixOf? path

def searchedArtifacts (store : EvidenceStore) (runId : String) : List RunArtifact :=
  let own := if runId = "" then [] else store.listArtifacts runId
  if own = [] then store.listRuns.flatMap fun run => store.listArtifacts run.runId else own

/-- The test of the loop of `_resolve_artifact`. -/
def isCited (uri path : List Char) (artifact : RunArtifact) : Bool :=
  artifactScheme ++ artifact.uri.toList = uri ∨
    artifactUriMatches artifact.uri.toList path (legacyPath path)

def resolveArtifact (store : EvidenceStore) (uri : String) : Except String RunArtifact :=
  match citedArtifact uri.toList with
  | none => .error "artifact:// URI must include a path"
  | some (runId, path) =>
    match (searchedArtifacts store (String.ofList runId)).find? (isCited uri.toList path) with
    | some artifact => .ok artifact
    | none => .error ("artifact not found for path: " ++ String.ofList path)

def lookupJob (store : EvidenceStore) (jobId : String) : Option StoredJob :=
  if jobId = "" then none else store.jobs.find? fun job => job.jobId = jobId

def jobForAction (store : EvidenceStore) (runId actionId : String) : Option StoredJob :=
  if runId = "" ∨ actionId = "" then none
  else (store.listJobs runId).find? fun job => job.actionId = actionId

/-- `rpartition('/')`, if there is a slash. -/
def rpartitionSlash (text : List Char) : Option (List Char × List Char) :=
  (splitSlash text.reverse).map fun (tail, front) => (front.reverse, tail.reverse)

def resolveJob (store : EvidenceStore) (uri : String) : Except String StoredJob :=
  let reference := uri.toList.drop "job://".toList.length
  let compound := (rpartitionSlash reference).bind fun (runId, tail) =>
    (lookupJob store (String.ofList tail)).or
      (jobForAction store (String.ofList runId) (String.ofList tail))
  match (lookupJob store (String.ofList reference)).or compound with
  | some job => .ok job
  | none => .error ("job not found: " ++ String.ofList reference)

def resolveEvent (store : EvidenceStore) (uri : String) : Except String StoredEvent :=
  let eventId := String.ofList (uri.toList.drop "event://".toList.length)
  let events := store.listRuns.flatMap fun run => store.listEvents run.runId
  match events.find? fun event => event.eventId = eventId with
  | some event => .ok event
  | none => .error ("event not found: " ++ eventId)

/-- The groups of `_KNOWLEDGE_PATTERN`. -/
def knowledgeGroups (text : List Char) : Option (List Char × Option (List Char)) :=
  let first := text.takeWhile fun c => c ≠ ':'
  if first = [] then none
  else
    match text.dropWhile fun c => c ≠ ':' with
    | [] => some (first, none)
    | _ :: second => if second = [] ∨ ':' ∈ second then none else some (first, some second)

def resolveKnowledge (store : EvidenceStore) (uri : String) : Except String ResolvedRecord :=
  match knowledgeGroups (uri.toList.drop "knowledge://".toList.length) with
  | none =>
    .error ("knowledge:// URI must follow format: knowledge://<source_id> or " ++
      "knowledge://context:<packet_id>")
  | some (first, none) =>
    let sourceId := String.ofList first
    if sourceId ∈ store.knowledgeSources then .ok (.knowledgeSource sourceId)
    else .error ("knowledge source not found: " ++ sourceId)
  | some (first, some second) =>
    let packetId := String.ofList second
    if first ≠ "context".toList then
      .error ("knowledge:// context: prefix required, got: " ++ String.ofList first)
    else if packetId ∈ store.contextPackets then .ok (.knowledgeChunk packetId)
    else .error ("context packet not found: " ++ packetId)

/-- The resolver of contracts: the digest of a version that is sealed. -/
abbrev ContractDigests := String → String → Option String

def resolveContract (contracts : Option ContractDigests) (uri : String) :
    Except String ResolvedRecord :=
  match splitSlash (uri.toList.drop "contract://".toList.length) with
  | none => .error "contract:// URI must include <contract_id>/<version>"
  | some (contractId, rest) =>
    let version := rest.takeWhile fun c => c ≠ '@'
    let digest := (rest.dropWhile fun c => c ≠ '@').drop 1
    if contractId = [] ∨ version = [] then
      .error "contract:// URI must include <contract_id>/<version>"
    else
      let name := String.ofList (contractId ++ '/' :: version)
      match contracts with
      | none => .error "contract resolution is unavailable in this context"
      | some digests =>
        match digests (String.ofList contractId) (String.ofList version) with
        | none => .error ("contract not found: " ++ name)
        | some found =>
          if digest ≠ [] ∧ found ≠ String.ofList digest then
            .error ("contract digest mismatch: " ++ name)
          else .ok (.contract (String.ofList contractId) (String.ofList version))

def resolve (store : EvidenceStore) (contracts : Option ContractDigests) (uri : String) :
    ResolvedEvidence where
  uri := uri
  outcome :=
    if artifactScheme <+: uri.toList then (resolveArtifact store uri).map .artifact
    else if "job://".toList <+: uri.toList then (resolveJob store uri).map .job
    else if "event://".toList <+: uri.toList then (resolveEvent store uri).map .event
    else if "knowledge://".toList <+: uri.toList then resolveKnowledge store uri
    else if "contract://".toList <+: uri.toList then resolveContract contracts uri
    else .error "unsupported evidence URI scheme"

variable {artifact : RunArtifact} {store : EvidenceStore}

section Resolving

variable {contracts : Option ContractDigests} {uri : String} {runId : String}

theorem mem_of_mem_searchedArtifacts
    (h : artifact ∈ searchedArtifacts store runId) : artifact ∈ store.artifacts := by
  simp only [searchedArtifacts] at h
  by_cases hOwn : (if runId = "" then [] else store.listArtifacts runId) = []
  · rw [if_pos hOwn] at h
    obtain ⟨run, -, hMem⟩ := mem_flatMap.mp h
    exact (EvidenceStore.mem_listArtifacts.mp hMem).1
  · rw [if_neg hOwn] at h
    by_cases hEmpty : runId = ""
    · rw [if_pos hEmpty] at h
      cases h
    · rw [if_neg hEmpty] at h
      exact (EvidenceStore.mem_listArtifacts.mp h).1

theorem mem_searchedArtifacts_of_unknown (h : artifact ∈ store.artifacts)
    (hUnknown : ∀ run ∈ store.runs, run.runId ≠ runId) :
    artifact ∈ searchedArtifacts store runId := by
  have hNone : store.listArtifacts runId = [] := by
    refine eq_nil_iff_forall_not_mem.mpr fun other hOther => ?_
    obtain ⟨hMem, hId⟩ := EvidenceStore.mem_listArtifacts.mp hOther
    obtain ⟨run, hRun, hRunId⟩ := store.owned other hMem
    exact hUnknown run hRun (hRunId.trans hId)
  simp only [searchedArtifacts, hNone, ite_self, if_true]
  obtain ⟨run, hRun, hRunId⟩ := store.owned artifact h
  refine mem_flatMap.mpr ⟨run, mem_sortOn.mpr hRun, ?_⟩
  exact EvidenceStore.mem_listArtifacts.mpr ⟨h, hRunId.symm⟩

theorem resolveArtifact_sound (h : resolveArtifact store uri = .ok artifact) :
    artifact ∈ store.artifacts ∧
      ∃ runId path, citedArtifact uri.toList = some (runId, path) ∧
    isCited uri.toList path artifact := by
  rw [resolveArtifact] at h
  split at h
  · cases h
  · rename_i runId path hCited
    split at h
    · rename_i found hFound
      cases h
      have hMem := mem_of_mem_searchedArtifacts (mem_of_find?_eq_some hFound)
      exact ⟨hMem, runId, path, hCited, List.find?_some hFound⟩
    · cases h

variable {runId path : List Char}

theorem exists_resolveArtifact
    (hCited : citedArtifact uri.toList = some (runId, path))
    (hMem : artifact ∈ searchedArtifacts store (String.ofList runId))
    (hMatch : isCited uri.toList path artifact) :
    ∃ found, resolveArtifact store uri = .ok found := by
  cases hFind : (searchedArtifacts store (String.ofList runId)).find? (isCited uri.toList path) with
  | some found => exact ⟨found, by simp only [resolveArtifact, hCited, hFind]⟩
  | none => exact absurd hMatch (List.find?_eq_none.mp hFind _ hMem)

theorem resolve_of_scheme (h : artifactScheme <+: uri.toList) :
    (resolve store contracts uri).outcome = (resolveArtifact store uri).map .artifact := by
  rw [resolve, if_pos h]

/-- A stored uri resolves to a record with this uri exactly if the artifacts that are searched
before the first such record are not cited by it. -/
theorem resolves_to_uri_iff (hScheme : artifactScheme <+: uri.toList)
    (hCited : citedArtifact uri.toList = some (runId, path)) :
    (∃ found, (resolve store contracts uri).outcome = .ok (.artifact found) ∧ found.uri = uri) ↔
      ∃ before found after, searchedArtifacts store (String.ofList runId) =
    before ++ found :: after ∧
        found.uri = uri ∧ isCited uri.toList path found = true ∧
        ∀ other ∈ before, isCited uri.toList path other = false := by
  have hFound (found : RunArtifact) :
      (resolve store contracts uri).outcome = .ok (.artifact found) ↔
        (searchedArtifacts store (String.ofList runId)).find? (isCited uri.toList path) =
          some found := by
    rw [resolve_of_scheme hScheme]
    simp only [resolveArtifact, hCited]
    cases (searchedArtifacts store (String.ofList runId)).find? (isCited uri.toList path) with
    | none => exact iff_of_false nofun nofun
    | some first =>
      constructor
      · intro h
        cases h
        rfl
      · intro h
        cases h
        rfl
  constructor
  · rintro ⟨found, h, hUri⟩
    obtain ⟨hMatch, before, after, hSplit, hBefore⟩ :=
      find?_eq_some_iff_append.mp ((hFound found).mp h)
    exact ⟨before, found, after, hSplit, hUri, hMatch, fun other hOther => by
      simpa using hBefore other hOther⟩
  · rintro ⟨before, found, after, hSplit, hUri, hMatch, hBefore⟩
    refine ⟨found, (hFound found).mpr ?_, hUri⟩
    exact find?_eq_some_iff_append.mpr ⟨hMatch, before, after, hSplit, fun other hOther => by
      simp [hBefore other hOther]⟩

end Resolving

/-- The namespace and the path of an artifact uri, whatever its spelling: without a doubled scheme,
a mount prefix and the directory of the legacy grammar. -/
def namedRecord (uri : List Char) : List Char :=
  let path := canonicalArtifactPath (withoutPrefix artifactScheme uri)
  match splitSlash path with
  | some (namespaced, rest) => namespaced ++ '/' :: withoutPrefix "artifacts/".toList rest
  | none => path

def namespaceOf (uri : String) : String :=
  String.ofList ((namedRecord uri.toList).takeWhile fun c => c ≠ '/')

/-- Artifact uris resolve to the records they name. -/
structure ResolvesAsNamed (store : EvidenceStore) (contracts : Option ContractDigests) : Prop where
  named : ∀ uri artifact, artifactScheme <+: uri.toList →
    (resolve store contracts uri).outcome = .ok (.artifact artifact) →
      namedRecord artifact.uri.toList = namedRecord uri.toList ∨ namespaceOf uri = artifact.runId
  stored : ∀ artifact ∈ store.artifacts, artifactScheme <+: artifact.uri.toList →
    ∃ found, (resolve store contracts artifact.uri).outcome = .ok (.artifact found) ∧
      found.uri = artifact.uri
  unknown : ∀ uri, artifactScheme <+: uri.toList →
    (∀ run ∈ store.runs, run.runId ≠ namespaceOf uri) →
    (∀ artifact ∈ store.artifacts, namespaceOf artifact.uri ≠ namespaceOf uri) →
    ∀ record, (resolve store contracts uri).outcome ≠ .ok record

section Named

variable {front text rest uri : List Char}

theorem withoutPrefix_sublist (front text : List Char) :
    (withoutPrefix front text).Sublist text := by
  rw [withoutPrefix]
  cases h : front.isPrefixOf? text with
  | none => exact Sublist.refl text
  | some rest =>
    rw [← List.isPrefixOf?_eq_some_iff_append_eq.mp h]
    exact sublist_append_right front rest

theorem canonicalArtifactPath_sublist (value : List Char) :
    (canonicalArtifactPath value).Sublist value := by
  have hPath : (lstripSlashes (withoutPrefix artifactScheme value)).Sublist value :=
    (dropWhile_sublist _).trans (withoutPrefix_sublist _ _)
  simp only [canonicalArtifactPath]
  split
  · rename_i rest hRest
    rw [← List.isPrefixOf?_eq_some_iff_append_eq.mp hRest] at hPath
    exact (sublist_append_right _ _).trans hPath
  · exact (withoutPrefix_sublist _ _).trans hPath

theorem splitSlash_eq_some (h : splitSlash text = some (front, rest)) :
    text = front ++ '/' :: rest := by
  have hText := takeWhile_append_dropWhile (p := fun c => decide (c ≠ '/')) (l := text)
  rw [splitSlash] at h
  split at h
  · cases h
  · rename_i c tail hDrop
    cases h
    have hHead := head_dropWhile_not (fun c => decide (c ≠ '/')) (hDrop ▸ cons_ne_nil c rest)
    simp only [hDrop, head_cons, decide_eq_false_iff_not, not_not] at hHead
    rw [hDrop, hHead] at hText
    exact hText.symm

theorem splitSlash_append (h : '/' ∉ front) :
    splitSlash (front ++ '/' :: rest) = some (front, rest) := by
  have hAll : ∀ c ∈ front, decide (c ≠ '/') = true :=
    fun c hc => decide_eq_true fun hEq => h (hEq ▸ hc)
  have hSlash : decide ('/' ≠ '/') = false := rfl
  rw [splitSlash, dropWhile_append_of_pos hAll, takeWhile_append_of_pos hAll,
    dropWhile_cons, takeWhile_cons, hSlash]
  simp

theorem namedRecord_sublist (uri : List Char) : (namedRecord uri).Sublist uri := by
  have hPath : (canonicalArtifactPath (withoutPrefix artifactScheme uri)).Sublist uri :=
    (canonicalArtifactPath_sublist _).trans (withoutPrefix_sublist _ _)
  simp only [namedRecord]
  split
  · rename_i front rest hSplit
    rw [splitSlash_eq_some hSplit] at hPath
    exact (((withoutPrefix_sublist _ rest).cons_cons '/').append_left front).trans hPath
  · exact hPath

theorem length_namespaceOf_le (uri : String) :
    (namespaceOf uri).toList.length ≤ uri.toList.length := by
  rw [namespaceOf, String.toList_ofList]
  exact ((takeWhile_sublist _).trans (namedRecord_sublist _)).length_le

/-! ## A namespace that nobody has -/

def unusedName (store : EvidenceStore) : List Char :=
  List.replicate ((store.runs.map fun run => run.runId.toList.length).sum +
    (store.artifacts.map fun artifact => artifact.uri.toList.length).sum + 1) 'x'

def unusedUri (store : EvidenceStore) (artifact : RunArtifact) : List Char :=
  artifactScheme ++ (unusedName store ++ '/' :: withoutNamespace artifact.uri.toList)

theorem length_runId_lt {run : StoredRun} (h : run ∈ store.runs) :
    run.runId.toList.length < (unusedName store).length := by
  have hMem : run.runId.toList.length ∈ store.runs.map fun run => run.runId.toList.length :=
    mem_map.mpr ⟨run, h, rfl⟩
  have hLe := le_sum_of_mem hMem
  rw [unusedName, length_replicate]
  omega

theorem length_uri_lt (h : artifact ∈ store.artifacts) :
    artifact.uri.toList.length < (unusedName store).length := by
  have hMem : artifact.uri.toList.length ∈
      store.artifacts.map fun artifact => artifact.uri.toList.length :=
    mem_map.mpr ⟨artifact, h, rfl⟩
  have hLe := le_sum_of_mem hMem
  rw [unusedName, length_replicate]
  omega

theorem slash_not_mem_unusedName (store : EvidenceStore) : '/' ∉ unusedName store := by
  intro h
  exact absurd (eq_of_mem_replicate h) (by decide)

theorem unusedName_append (store : EvidenceStore) (rest : List Char) :
    ∃ tail, unusedName store ++ rest = 'x' :: tail := by
  exact ⟨_, rfl⟩

theorem isPrefixOf?_unusedName (store : EvidenceStore) {c : Char} (h : c ≠ 'x')
    (front rest : List Char) :
    (c :: front).isPrefixOf? (unusedName store ++ rest) = none := by
  obtain ⟨tail, hTail⟩ := unusedName_append store rest
  rw [hTail, List.isPrefixOf?, if_neg (by simpa using h)]

theorem citedArtifact_unusedUri (store : EvidenceStore) (artifact : RunArtifact) :
    citedArtifact (unusedUri store artifact) =
      some (unusedName store, withoutNamespace artifact.uri.toList) := by
  have hScheme : artifactScheme.isPrefixOf?
      (unusedName store ++ '/' :: withoutNamespace artifact.uri.toList) = none :=
    isPrefixOf?_unusedName store (by decide) _ _
  exact splitSlash_append (slash_not_mem_unusedName store)

theorem canonicalArtifactPath_unusedName (store : EvidenceStore) (rest : List Char) :
    canonicalArtifactPath (unusedName store ++ rest) = unusedName store ++ rest := by
  have hScheme : artifactScheme.isPrefixOf? (unusedName store ++ rest) = none :=
    isPrefixOf?_unusedName store (by decide) _ _
  have hMount : "mnt/artifacts/".toList.isPrefixOf? (unusedName store ++ rest) = none :=
    isPrefixOf?_unusedName store (by decide) _ _
  have hArtifacts : "artifacts/".toList.isPrefixOf? (unusedName store ++ rest) = none :=
    isPrefixOf?_unusedName store (by decide) _ _
  have hStrip : lstripSlashes (unusedName store ++ rest) = unusedName store ++ rest := by
    obtain ⟨tail, hTail⟩ := unusedName_append store rest
    rfl
  simp only [canonicalArtifactPath, withoutPrefix, hScheme, Option.getD_none, hStrip, hMount,
    hArtifacts]

theorem namespaceOf_unusedUri (store : EvidenceStore) (artifact : RunArtifact) :
    namespaceOf (String.ofList (unusedUri store artifact)) = String.ofList (unusedName store) := by
  have hScheme : withoutPrefix artifactScheme (unusedUri store artifact) =
      unusedName store ++ '/' :: withoutNamespace artifact.uri.toList := by
    rw [withoutPrefix, unusedUri, List.isPrefixOf?_eq_some_iff_append_eq.mpr rfl, Option.getD_some]
  have hAll : ∀ c ∈ unusedName store, decide (c ≠ '/') = true := by
    intro c hc
    exact decide_eq_true fun hEq => slash_not_mem_unusedName store (hEq ▸ hc)
  have hSplit := @splitSlash_append _ (withoutNamespace artifact.uri.toList)
    (slash_not_mem_unusedName store)
  rw [namespaceOf, String.toList_ofList, namedRecord, hScheme, canonicalArtifactPath_unusedName]
  simp only [hSplit]
  rw [takeWhile_append_of_pos hAll, takeWhile_cons, if_neg (by decide), append_nil]

end Named

/-- Artifact uris resolve to the records they name just where no artifact is stored. -/
theorem resolves_as_named_iff (store : EvidenceStore) (contracts : Option ContractDigests) :
    ResolvesAsNamed store contracts ↔ store.artifacts = [] := by
  constructor
  · intro h
    by_contra hSome
    obtain ⟨artifact, hMem⟩ := exists_mem_of_ne_nil _ hSome
    let uri := String.ofList (unusedUri store artifact)
    have hUri : uri.toList = unusedUri store artifact := String.toList_ofList
    have hScheme : artifactScheme <+: uri.toList := by
      rw [hUri]
      exact prefix_append _ _
    have hName : (namespaceOf uri).toList = unusedName store := by
      rw [namespaceOf_unusedUri, String.toList_ofList]
    have hRuns : ∀ run ∈ store.runs, run.runId ≠ namespaceOf uri := by
      intro run hRun hEq
      have hLt := length_runId_lt hRun
      rw [hEq, hName] at hLt
      exact lt_irrefl _ hLt
    have hNames : ∀ other ∈ store.artifacts, namespaceOf other.uri ≠ namespaceOf uri := by
      intro other hOther hEq
      have hLe := length_namespaceOf_le other.uri
      have hLt := length_uri_lt hOther
      rw [hEq, hName] at hLe
      omega
    have hCited : citedArtifact uri.toList =
        some (unusedName store, withoutNamespace artifact.uri.toList) := by
      rw [hUri, citedArtifact_unusedUri]
    have hSearched : artifact ∈ searchedArtifacts store (String.ofList (unusedName store)) := by
      refine mem_searchedArtifacts_of_unknown hMem fun run hRun => ?_
      rw [← hName, String.ofList_toList]
      exact hRuns run hRun
    have hMatch : isCited uri.toList (withoutNamespace artifact.uri.toList) artifact := by
      simp [isCited, artifactUriMatches]
    obtain ⟨found, hFound⟩ := exists_resolveArtifact hCited hSearched hMatch
    refine h.unknown uri hScheme hRuns hNames (.artifact found) ?_
    rw [resolve_of_scheme hScheme, hFound]
    rfl
  · intro hNone
    have hUnresolved (uri : String) (artifact : RunArtifact) :
        resolveArtifact store uri ≠ .ok artifact := by
      intro hFound
      have hMem := (resolveArtifact_sound hFound).1
      rw [hNone] at hMem
      cases hMem
    have hError (uri : String) (hScheme : artifactScheme <+: uri.toList) (record : ResolvedRecord) :
        (resolve store contracts uri).outcome ≠ .ok record := by
      rw [resolve_of_scheme hScheme]
      cases hOutcome : resolveArtifact store uri with
      | error message => nofun
      | ok artifact => exact absurd hOutcome (hUnresolved uri artifact)
    refine ⟨?_, ?_, ?_⟩
    · intro uri artifact hScheme hFound
      exact absurd hFound (hError uri hScheme _)
    · intro artifact hMem
      rw [hNone] at hMem
      cases hMem
    · intro uri hScheme _ _ record
      exact hError uri hScheme record

/-- The metrics of a job, as `FakeClusterExecutor.complete` reports them. -/
def completedMetrics (runId externalRunId : String) (createdAt : Instant) : RunArtifact where
  artifactId := "metrics-of-" ++ externalRunId
  jobId := none
  type := "metrics"
  uri := "artifact://" ++ externalRunId ++ "/metrics.json"
  sha256 := ""
  createdAt := createdAt
  runId := runId

def twoJobs : EvidenceStore where
  runs := [⟨"run-1", 0⟩]
  artifacts := [completedMetrics "run-1" "fake-job-1" 1, completedMetrics "run-1" "fake-job-2" 2]
  owned := by
    intro artifact hMem
    refine ⟨⟨"run-1", 0⟩, List.mem_cons_self, ?_⟩
    rcases List.mem_cons.mp hMem with rfl | hMem
    · rfl
    · rw [List.mem_singleton.mp hMem]
      rfl

/-- The uri of the metrics of the second job resolves to those of the first one, as does a uri in a
namespace that nobody has. -/
theorem metrics_of_another_job :
    (resolve twoJobs none "artifact://fake-job-2/metrics.json").outcome =
        .ok (.artifact (completedMetrics "run-1" "fake-job-1" 1)) ∧
      (resolve twoJobs none "artifact://nobody/metrics.json").outcome =
        .ok (.artifact (completedMetrics "run-1" "fake-job-1" 1)) ∧
      ¬ ResolvesAsNamed twoJobs none := by
  have hSecond : (resolve twoJobs none "artifact://fake-job-2/metrics.json").outcome =
      .ok (.artifact (completedMetrics "run-1" "fake-job-1" 1)) := by
    rfl
  refine ⟨hSecond, by rfl, fun h => ?_⟩
  have hMem : completedMetrics "run-1" "fake-job-2" 2 ∈ twoJobs.artifacts := by
    exact mem_cons_of_mem _ mem_cons_self
  obtain ⟨found, hFound, hUri⟩ := h.stored _ hMem (by decide)
  have hEq : Except.ok (.artifact found) =
      (.ok (.artifact (completedMetrics "run-1" "fake-job-1" 1)) : Except String ResolvedRecord) :=
    hFound.symm.trans hSecond
  cases hEq
  exact absurd hUri (by decide)

end Glasslab.Evidence
