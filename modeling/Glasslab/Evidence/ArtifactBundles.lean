import Glasslab.Evidence.ArtifactDelivery

/-!
# Bundles of artifacts

`build_run_artifact_bundle` in `app/artifact_delivery.py`: the artifacts of a run that can be read
and named are put into one archive, in their order, as long as they fit. A name that is in use is
told apart by the digest, once. The size of an artifact that does not fit stays counted, so nothing
fits after it.
-/

namespace Glasslab.Evidence

open Foundation Methodology List Raising Except

/-- `Path(text).name`. -/
def lastName (text : String) : String := (namesOf text.toList).getLast?.getD ""

def safeArchiveName (value : String) : Except Raised String :=
  let normalized :=
    ((strip isSpace value.toList).map fun c => if c = '\\' then '/' else c).dropWhile (· = '/')
  let path : PurePath := ⟨anchorOf normalized, namesOf normalized⟩
  if normalized = [] ∨ ".." ∈ path.names ∨ "" ∈ path.names then .error (.unsafePath value)
  else .ok path.asPosix

/-- The id of the job, unless there is none or it is empty. -/
def DeliveredArtifact.ofJob (artifact : DeliveredArtifact) : Option String :=
  artifact.jobId.filter (· ≠ "")

def artifactArchiveName (artifact : DeliveredArtifact) : Except Raised String :=
  let basename :=
    if lastName artifact.uri = "" then lastName artifact.type else lastName artifact.uri
  match artifact.ofJob with
  | some jobId => do
    let relativeJob ← safeArchiveName jobId
    let relativeType ← safeArchiveName artifact.type
    pure ("jobs/" ++ relativeJob ++ "/" ++ relativeType)
  | none => do
    let relativeType ← safeArchiveName artifact.type
    let relativeName ← safeArchiveName basename
    pure ("run/" ++ relativeType ++ "/" ++ relativeName)

def DeliveredArtifact.distinguished (artifact : DeliveredArtifact) (name : String) : String :=
  name ++ "." ++ String.ofList (artifact.sha256.toList.take 12)

structure BundleJob where
  jobId : String
  status : JobStatus

structure BundleRequest where
  runId : String
  artifacts : List DeliveredArtifact
  jobs : List BundleJob
  maximumBytes : Int
  includeSource : Bool := false

/-- `_latest_run_artifacts`: those of jobs, then the last one of each type. -/
def latestRunArtifacts (artifacts : List DeliveredArtifact) : List DeliveredArtifact :=
  let latest := (artifacts.filter fun artifact => artifact.ofJob.isNone).foldl
    (fun latest artifact => Dict.set artifact.type artifact latest) []
  (artifacts.filter fun artifact => artifact.ofJob.isSome) ++ latest.map Prod.snd

def isSource (artifact : DeliveredArtifact) : Bool :=
  lastName artifact.uri ∈ ["source.zip", "task.zip"] ∨
    lastName artifact.type ∈ ["source.zip", "task.zip"]

def BundleRequest.selected (request : BundleRequest) : List DeliveredArtifact :=
  let succeeded := (request.jobs.filter fun job => job.status = .succeeded).map BundleJob.jobId
  let selected := (latestRunArtifacts request.artifacts).filter fun artifact =>
    artifact.jobId.all (· ∈ succeeded)
  if request.includeSource then selected else selected.filter fun artifact => !isSource artifact

/-- A file of the archive. -/
structure Member where
  artifact : DeliveredArtifact
  name : String
  content : Bytes

def bytesOf (members : List Member) : Nat := (members.map fun m => m.content.length).sum

def VerifiedArtifactReader.read (reader : VerifiedArtifactReader) (maximumBytes : Int)
    (artifact : DeliveredArtifact) : Except Raised Bytes := do
  let path ← reader.resolve artifact
  match reader.standing path with
  | .ok (.file content) =>
    if maximumBytes < content.length then throw (.tooLarge artifact.uri) else pure content
  | .ok _ => throw (.fault "FileNotFoundError")
  | .error kind => throw (.fault kind)

def VerifiedArtifactReader.offer (reader : VerifiedArtifactReader) (maximumBytes : Int)
    (artifact : DeliveredArtifact) : Except Raised Member := do
  let content ← reader.read maximumBytes artifact
  let name ← artifactArchiveName artifact
  pure ⟨artifact, name, content⟩

structure Delivery where
  delivered : List Member := []
  usedNames : List String := []
  total : Nat := 0
  unavailable : List (String × Raised) := []

namespace Delivery

/-- An artifact that is left out; an error of another kind ends the loop. -/
def leaveOut (s : Delivery) (artifact : DeliveredArtifact) (raised : Raised) :
    Except Raised Delivery :=
  if raised.isDelivery then .ok { s with unavailable := s.unavailable ++ [(artifact.uri, raised)] }
  else .error raised

def add (reader : VerifiedArtifactReader) (maximumBytes : Int) (s : Delivery)
    (artifact : DeliveredArtifact) : Except Raised Delivery :=
  match reader.offer maximumBytes artifact with
  | .error raised => s.leaveOut artifact raised
  | .ok offered =>
    let name :=
      if offered.name ∈ s.usedNames then artifact.distinguished offered.name else offered.name
    let total := s.total + offered.content.length
    if maximumBytes < total then { s with total := total }.leaveOut artifact .bundleTooLarge
    else
      .ok { s with
        delivered := s.delivered ++ [{ offered with name := name }]
        usedNames := s.usedNames.insert name
        total := total }

end Delivery

def deliverAll (reader : VerifiedArtifactReader) (maximumBytes : Int)
    (artifacts : List DeliveredArtifact) : Except Raised Delivery :=
  artifacts.foldlM (Delivery.add reader maximumBytes) {}

structure DeliveryManifest where
  schemaVersion : String := "glasslab-artifact-delivery-v1"
  runId : String
  includeSource : Bool
  /-- Each with its path in the archive and its size. -/
  artifacts : List (ArtifactRecord × String × Nat)
  unavailable : List (String × String)

/-- What writes the manifest as JSON and the files as a zip archive. -/
structure Packer where
  dumps : DeliveryManifest → Bytes
  zip : List (String × Bytes) → Bytes

structure ArtifactBundle where
  filename : String
  content : Bytes
  artifactCount : Nat
  deriving DecidableEq

def manifestName : String := "artifact-manifest.json"

def BundleRequest.manifest (request : BundleRequest) (delivery : Delivery) : DeliveryManifest where
  runId := request.runId
  includeSource := request.includeSource
  artifacts := delivery.delivered.map fun m =>
    (m.artifact.toArtifactRecord, m.name, m.content.length)
  unavailable := delivery.unavailable.map fun entry => (entry.1, entry.2.message)

def BundleRequest.files (request : BundleRequest) (packer : Packer) (delivery : Delivery) :
    List (String × Bytes) :=
  (manifestName, packer.dumps (request.manifest delivery)) ::
    delivery.delivered.map fun m => (m.name, m.content)

def buildRunArtifactBundle (packer : Packer) (reader : VerifiedArtifactReader)
    (request : BundleRequest) : Except Raised ArtifactBundle := do
  let delivery ← deliverAll reader request.maximumBytes request.selected
  if delivery.delivered.isEmpty then throw .nothingAvailable
  let payload := packer.zip (request.files packer delivery)
  if request.maximumBytes < payload.length then throw .archiveTooLarge
  pure {
    filename := "glasslab-" ++ String.ofList (request.runId.toList.take 12) ++ "-artifacts.zip"
    content := payload
    artifactCount := delivery.delivered.length }

def RelativeName (name : String) : Prop :=
  (parsePath name).isAbsolute = false ∧ ".." ∉ (parsePath name).names

def Backs (reader : VerifiedArtifactReader) (artifact : DeliveredArtifact) (content : Bytes) :
    Prop :=
  ∃ path, reader.resolve artifact = .ok path ∧ reader.standing path = .ok (.file content)

def LeftOutForSize (reader : VerifiedArtifactReader) (maximumBytes : Int) (s : Delivery)
    (artifact : DeliveredArtifact) : Prop :=
  ∃ s' raised, s.add reader maximumBytes artifact = .ok s' ∧ raised.isSize = true ∧
    s'.unavailable = s.unavailable ++ [(artifact.uri, raised)]

structure BundleRight (packer : Packer) (reader : VerifiedArtifactReader) (request : BundleRequest)
    (delivery : Delivery) : Prop where
  distinct : ((request.files packer delivery).map Prod.fst).Nodup
  relative : ∀ file ∈ request.files packer delivery, RelativeName file.1
  total : (bytesOf delivery.delivered : Int) ≤ request.maximumBytes
  size : ∀ front artifact back s content, request.selected = front ++ artifact :: back →
    deliverAll reader request.maximumBytes front = .ok s →
    LeftOutForSize reader request.maximumBytes s artifact → Backs reader artifact content →
      request.maximumBytes < content.length + bytesOf s.delivered

def offers (reader : VerifiedArtifactReader) (maximumBytes : Int)
    (artifacts : List DeliveredArtifact) : List Member :=
  artifacts.filterMap fun artifact => (reader.offer maximumBytes artifact).toOption

/-- The offers from the front, as long as they fit. -/
def fitting (maximumBytes : Int) (total : Nat) : List Member → List Member
  | [] => []
  | offered :: rest =>
    if maximumBytes < (total + offered.content.length : Nat) then []
    else offered :: fitting maximumBytes (total + offered.content.length) rest

/-- A name is in use after these offers, the latest first. Either way, the derived name of an offer
is in use after it. -/
inductive InUse : List Member → String → Prop where
  | derived (offered : Member) (earlier : List Member) : InUse (offered :: earlier) offered.name
  | distinguished {offered : Member} {earlier : List Member} (h : InUse earlier offered.name) :
      InUse (offered :: earlier) (offered.artifact.distinguished offered.name)
  | older {offered : Member} {earlier : List Member} {name : String} (h : InUse earlier name) :
      InUse (offered :: earlier) name

def Clashes (earlier : List Member) (offered : Member) : Prop :=
  InUse earlier offered.name ∧ InUse earlier (offered.artifact.distinguished offered.name)

def NoClash (members : List Member) : Prop :=
  ∀ front offered back, members = front ++ offered :: back → ¬Clashes front.reverse offered

/-- Every offer at which the sizes of all offers so far are too much is too large for what the
fitting ones leave. -/
def RestTooLarge (maximumBytes : Int) (members : List Member) : Prop :=
  ∀ front offered back, members = front ++ offered :: back →
    maximumBytes < (bytesOf front + offered.content.length : Nat) →
      maximumBytes < (offered.content.length + bytesOf (fitting maximumBytes 0 members) : Nat)

variable {reader : VerifiedArtifactReader} {maximumBytes : Int} {artifact : DeliveredArtifact}
  {value name : String} {members front back earlier : List Member} {offered : Member}

/-! ### Names -/

theorem dots_not_mem_of_safe (h : safeArchiveName value = .ok name) :
    ".." ∉ namesOf name.toList := by
  unfold safeArchiveName at h
  generalize hText :
    ((strip isSpace value.toList).map fun c => if c = '\\' then '/' else c).dropWhile
    (· = '/') = text at h
  have hAnchor : anchorOf text = "" := by
    apply anchorOf_of_head
    intro c hc
    rw [← hText] at hc
    have hNot := List.head?_dropWhile_not (fun c => decide (c = '/'))
      ((strip isSpace value.toList).map fun c => if c = '\\' then '/' else c)
    rw [hc] at hNot
    simpa using hNot
  dsimp only at h
  split at h
  · cases h
  next hSafe =>
    push Not at hSafe
    rw [← ok.inj h, hAnchor, namesOf_asPosix _ fun name hName => mem_namesOf hName]
    exact hSafe.2.1

/-- A name that starts below one of the two directories, without two dots. -/
def MemberName (name : String) : Prop :=
  ".." ∉ namesOf name.toList ∧ (name.toList.head? = some 'j' ∨ name.toList.head? = some 'r')

theorem dots_not_mem_namesOf_join {a b directory : String}
    (hDirectory : ".." ∉ namesOf directory.toList)
    (ha : ".." ∉ namesOf a.toList) (hb : ".." ∉ namesOf b.toList) :
    ".." ∉ namesOf (directory ++ "/" ++ a ++ "/" ++ b).toList := by
  have hText : (directory ++ "/" ++ a ++ "/" ++ b).toList =
      (directory.toList ++ '/' :: a.toList) ++ '/' :: b.toList := by
    simp
  rw [hText, namesOf_append_cons, namesOf_append_cons]
  simp [hDirectory, ha, hb]

theorem memberName_of_archiveName (h : artifactArchiveName artifact = .ok name) :
    MemberName name := by
  unfold artifactArchiveName at h
  cases hJob : artifact.ofJob with
  | some jobId =>
    rw [hJob] at h
    obtain ⟨job, hSafeJob, h⟩ := of_bind h
    obtain ⟨type, hSafeType, h⟩ := of_bind h
    rw [← ok.inj h]
    refine ⟨?_, .inl (by simp)⟩
    exact @dots_not_mem_namesOf_join job type "jobs" (by decide) (dots_not_mem_of_safe hSafeJob)
      (dots_not_mem_of_safe hSafeType)
  | none =>
    rw [hJob] at h
    obtain ⟨type, hSafeType, h⟩ := of_bind h
    obtain ⟨base, hSafeBase, h⟩ := of_bind h
    rw [← ok.inj h]
    refine ⟨?_, .inr (by simp)⟩
    exact @dots_not_mem_namesOf_join type base "run" (by decide) (dots_not_mem_of_safe hSafeType)
      (dots_not_mem_of_safe hSafeBase)

theorem MemberName.distinguished (h : MemberName name) :
    MemberName (artifact.distinguished name) := by
  have hText : (artifact.distinguished name).toList =
      name.toList ++ '.' :: artifact.sha256.toList.take 12 := by
    simp [DeliveredArtifact.distinguished]
  unfold MemberName
  rw [hText]
  constructor
  · apply dots_not_mem_namesOf_append h.1
    · rw [mem_cons]
      rintro (hDot | hSlash)
      · cases hDot
      · have hHex := artifact.sha256_hex _ (mem_of_mem_take hSlash)
        revert hHex
        decide
    · have hLength := artifact.sha256_length
      simp only [length_cons, length_take]
      omega
  · rw [List.head?_append]
    exact h.2.imp (fun hHead => by rw [hHead]; rfl) fun hHead => by rw [hHead]; rfl

theorem MemberName.relativeName (h : MemberName name) : RelativeName name := by
  refine ⟨?_, h.1⟩
  have hAnchor : anchorOf name.toList = "" := by
    apply anchorOf_of_head
    intro c hc
    rcases h.2 with hHead | hHead
    · rw [hHead] at hc
      rintro rfl
      cases hc
    · rw [hHead] at hc
      rintro rfl
      cases hc
  simp [parsePath, PurePath.isAbsolute, hAnchor]

theorem MemberName.ne_manifestName (h : MemberName name) : name ≠ manifestName := by
  rintro rfl
  rcases h.2 with hHead | hHead
  · cases hHead
  · cases hHead

theorem relativeName_manifest : RelativeName manifestName :=
  ⟨by decide +kernel, by decide +kernel⟩

theorem bytesOf_append : bytesOf (front ++ back) = bytesOf front + bytesOf back := by
  simp [bytesOf]

theorem bytesOf_singleton : bytesOf [offered] = offered.content.length := by
  simp [bytesOf]

/-- What comes behind an overflow changes nothing. -/
theorem fitting_of_overflow (total : Nat)
    (h : maximumBytes < (total + bytesOf front + offered.content.length : Nat)) :
    fitting maximumBytes total (front ++ offered :: back) = fitting maximumBytes total front := by
  induction front generalizing total with
  | nil =>
    rw [nil_append, fitting, fitting, if_pos (by simpa [bytesOf] using h)]
  | cons first front ih =>
    rw [cons_append, fitting, fitting]
    split
    · rfl
    · rw [ih]
      have hCons : bytesOf (first :: front) = first.content.length + bytesOf front := by
        simp [bytesOf]
      rwa [Nat.add_assoc total]

/-- Offers that all fit together all fit. -/
theorem fitting_of_le (total : Nat) (h : ((total + bytesOf members : Nat) : Int) ≤ maximumBytes) :
    fitting maximumBytes total members = members := by
  induction members generalizing total with
  | nil => rfl
  | cons first rest ih =>
    have hCons : bytesOf (first :: rest) = first.content.length + bytesOf rest := by
      simp [bytesOf]
    rw [fitting, if_neg (by omega), ih _ (by omega)]

theorem fitting_eq_nil_or_le (total : Nat) : fitting maximumBytes total members = [] ∨
    ((total + bytesOf (fitting maximumBytes total members) : Nat) : Int) ≤ maximumBytes := by
  induction members generalizing total with
  | nil => exact .inl rfl
  | cons first rest ih =>
    rw [fitting]
    split
    · exact .inl rfl
    next hFits =>
      have hCons : bytesOf (first :: fitting maximumBytes (total + first.content.length) rest) =
          first.content.length + bytesOf
            (fitting maximumBytes (total + first.content.length) rest) := by
        simp [bytesOf]
      rw [hCons]
      rcases ih (total + first.content.length) with hNone | hRest
      · rw [hNone]
        simp only [bytesOf, map_nil, sum_nil]
        omega
      · omega

theorem inUse_cons_iff : InUse (offered :: earlier) name ↔ name = offered.name ∨
    (InUse earlier offered.name ∧ name = offered.artifact.distinguished offered.name) ∨
      InUse earlier name := by
  constructor
  · intro h
    cases h with
    | derived => exact .inl rfl
    | distinguished h => exact .inr (.inl ⟨h, rfl⟩)
    | older h => exact .inr (.inr h)
  · rintro (rfl | ⟨h, rfl⟩ | h)
    · exact .derived offered earlier
    · exact .distinguished h
    · exact .older h

theorem noClash_concat : NoClash (members ++ [offered]) ↔
    NoClash members ∧ ¬Clashes members.reverse offered := by
  constructor
  · intro h
    refine ⟨?_, h members offered [] rfl⟩
    rintro front other back rfl
    exact h front other (back ++ [offered]) (by simp)
  · rintro ⟨hMembers, hLast⟩ front other back hSplit
    rcases eq_nil_or_concat back with rfl | ⟨back', last, rfl⟩
    · obtain ⟨rfl, hSame⟩ := append_inj' hSplit rfl
      obtain rfl := (List.cons.inj hSame).1
      exact hLast
    · have hSplit' : members ++ [offered] = (front ++ other :: back') ++ [last] := by
        rw [hSplit]
        simp
      exact hMembers front other back' (append_inj' hSplit' rfl).1

/-! ### The loop -/

/-- The state after the artifacts that have been offered so far. -/
structure Bundled (maximumBytes : Int) (offered : List Member) (s : Delivery) : Prop where
  total : s.total = bytesOf offered
  kept : s.delivered.map (fun m => (m.artifact, m.content)) =
    (fitting maximumBytes 0 offered).map fun m => (m.artifact, m.content)
  used : ∀ name, name ∈ s.usedNames ↔ InUse (fitting maximumBytes 0 offered).reverse name
  names : ∀ name, name ∈ s.delivered.map Member.name ↔ name ∈ s.usedNames
  distinct : (s.delivered.map Member.name).Nodup ↔ NoClash (fitting maximumBytes 0 offered)
  member : ∀ m ∈ s.delivered, MemberName m.name

variable {s : Delivery}

theorem Bundled.bytesOf_delivered (h : Bundled maximumBytes members s) :
    bytesOf s.delivered = bytesOf (fitting maximumBytes 0 members) := by
  have hLengths := congrArg (List.map fun p : DeliveredArtifact × Bytes => p.2.length) h.kept
  rw [map_map, map_map] at hLengths
  exact congrArg List.sum hLengths

theorem bundled_nil : Bundled maximumBytes [] {} where
  total := rfl
  kept := rfl
  used _ := iff_of_false List.not_mem_nil nofun
  names _ := Iff.rfl
  distinct := by
    refine iff_of_true nodup_nil ?_
    intro front offered back hSplit
    exact absurd hSplit.symm (append_ne_nil_of_right_ne_nil _ (cons_ne_nil _ _))
  member := nofun

theorem offer_eq_ok (h : reader.offer maximumBytes artifact = .ok offered) :
    reader.read maximumBytes artifact = .ok offered.content ∧
      artifactArchiveName artifact = .ok offered.name ∧ offered.artifact = artifact := by
  obtain ⟨content, hRead, h⟩ := of_bind h
  obtain ⟨name, hName, h⟩ := of_bind h
  obtain rfl := ok.inj h
  exact ⟨hRead, hName, rfl⟩

/-- What one turn of the loop does: the artifact cannot be offered, does not fit, or is put in. -/
theorem add_cases {s s' : Delivery} (h : s.add reader maximumBytes artifact = .ok s') :
    (∃ raised, reader.offer maximumBytes artifact = .error raised ∧
      s' = { s with unavailable := s.unavailable ++ [(artifact.uri, raised)] }) ∨
    (∃ offered, reader.offer maximumBytes artifact = .ok offered ∧
      ((maximumBytes < (s.total + offered.content.length : Nat) ∧
        s' = { s with
          total := s.total + offered.content.length
          unavailable := s.unavailable ++ [(artifact.uri, .bundleTooLarge)] }) ∨
      (((s.total + offered.content.length : Nat) : Int) ≤ maximumBytes ∧ ∃ name,
        name = (if offered.name ∈ s.usedNames then artifact.distinguished offered.name
          else offered.name) ∧
        s' = { s with
          delivered := s.delivered ++ [{ offered with name := name }]
          usedNames := s.usedNames.insert name
          total := s.total + offered.content.length }))) := by
  unfold Delivery.add at h
  cases hOffer : reader.offer maximumBytes artifact with
  | error raised =>
    rw [hOffer] at h
    dsimp only [Delivery.leaveOut] at h
    split at h
    · exact .inl ⟨raised, rfl, (ok.inj h).symm⟩
    · cases h
  | ok offered =>
    rw [hOffer] at h
    refine .inr ⟨offered, rfl, ?_⟩
    dsimp only at h
    split at h
    next hOver => exact .inl ⟨hOver, (ok.inj h).symm⟩
    next hFits => exact .inr ⟨not_lt.mp hFits, _, rfl, (ok.inj h).symm⟩

theorem Bundled.overflow {unavailable : List (String × Raised)}
    (h : Bundled maximumBytes members s)
    (hOver : maximumBytes < (s.total + offered.content.length : Nat)) :
    Bundled maximumBytes (members ++ [offered])
      { s with total := s.total + offered.content.length, unavailable := unavailable } := by
  have hSame : fitting maximumBytes 0 (members ++ [offered]) = fitting maximumBytes 0 members := by
    apply fitting_of_overflow
    rwa [Nat.zero_add, ← h.total]
  constructor
  · rw [bytesOf_append, bytesOf_singleton, ← h.total]
  · rw [hSame]
    exact h.kept
  · rw [hSame]
    exact h.used
  · exact h.names
  · rw [hSame]
    exact h.distinct
  · exact h.member

theorem Bundled.put (h : Bundled maximumBytes members s)
    (hFits : ((s.total + offered.content.length : Nat) : Int) ≤ maximumBytes)
    (hMember : MemberName offered.name)
    (hName : name = if offered.name ∈ s.usedNames then offered.artifact.distinguished offered.name
      else offered.name) :
    Bundled maximumBytes (members ++ [offered])
      { s with
        delivered := s.delivered ++ [{ offered with name := name }]
        usedNames := s.usedNames.insert name
        total := s.total + offered.content.length } := by
  have hAll : fitting maximumBytes 0 members = members := by
    apply fitting_of_le
    rw [Nat.zero_add, ← h.total]
    omega
  have hBoth : fitting maximumBytes 0 (members ++ [offered]) = members ++ [offered] := by
    apply fitting_of_le
    rwa [Nat.zero_add, bytesOf_append, bytesOf_singleton, ← h.total]
  have hUsed := h.used
  have hKept := h.kept
  have hDistinct := h.distinct
  rw [hAll] at hUsed hKept hDistinct
  constructor
  · rw [bytesOf_append, bytesOf_singleton, ← h.total]
  · rw [hBoth, map_append, map_append, hKept]
    rfl
  · intro n
    rw [hBoth, reverse_append, reverse_singleton, singleton_append, inUse_cons_iff,
      mem_insert_iff, hName, ← hUsed, ← hUsed]
    by_cases hTaken : offered.name ∈ s.usedNames
    · simp only [hTaken, true_and]
      constructor
      · rintro (rfl | hOld)
        · exact .inr (.inl rfl)
        · exact .inr (.inr hOld)
      · rintro (rfl | rfl | hOld)
        · exact .inr hTaken
        · exact .inl rfl
        · exact .inr hOld
    · simp [hTaken]
  · intro n
    rw [map_append, mem_append, h.names, mem_insert_iff]
    simp [or_comm]
  · rw [hBoth, noClash_concat, ← hDistinct, map_append, nodup_append]
    have hNew : name ∈ s.delivered.map Member.name ↔ Clashes members.reverse offered := by
      rw [h.names, hName, Clashes, ← hUsed, ← hUsed]
      by_cases hTaken : offered.name ∈ s.usedNames
      · simp [hTaken]
      · simp [hTaken]
    rw [← hNew]
    simp
  · intro m hm
    rcases mem_append.mp hm with hOld | hNew
    · exact h.member m hOld
    · obtain rfl := mem_singleton.mp hNew
      rw [hName]
      split
      · exact hMember.distinguished
      · exact hMember

variable {artifacts : List DeliveredArtifact}

theorem offers_concat :
    offers reader maximumBytes (artifacts ++ [artifact]) = offers reader maximumBytes artifacts ++
      (reader.offer maximumBytes artifact).toOption.toList := by
  rw [offers, filterMap_append, filterMap_cons]
  cases (reader.offer maximumBytes artifact).toOption with
  | none => rfl
  | some offered => rfl

theorem Bundled.add {s s' : Delivery}
    (h : Bundled maximumBytes (offers reader maximumBytes artifacts) s)
    (hAdd : s.add reader maximumBytes artifact = .ok s') :
    Bundled maximumBytes (offers reader maximumBytes (artifacts ++ [artifact])) s' := by
  rcases add_cases hAdd with
    ⟨raised, hOffer, rfl⟩ | ⟨offered, hOffer, ⟨hOver, rfl⟩ | ⟨hFits, name, hName, rfl⟩⟩
  · rw [offers_concat, hOffer]
    simp only [Except.toOption, Option.toList_none, append_nil]
    exact ⟨h.total, h.kept, h.used, h.names, h.distinct, h.member⟩
  · rw [offers_concat, hOffer]
    exact h.overflow hOver
  · rw [offers_concat, hOffer]
    obtain ⟨-, hDerived, rfl⟩ := offer_eq_ok hOffer
    exact h.put hFits (memberName_of_archiveName hDerived) hName

theorem bundled_of_deliverAll
    (h : deliverAll reader maximumBytes artifacts = .ok s) :
    Bundled maximumBytes (offers reader maximumBytes artifacts) s := by
  induction artifacts using List.reverseRecOn generalizing s with
  | nil =>
    obtain rfl := ok.inj h
    exact bundled_nil
  | append_singleton artifacts artifact ih =>
    rw [deliverAll, foldlM_append] at h
    obtain ⟨middle, hMiddle, h⟩ := of_bind h
    obtain ⟨s', hAdd, h⟩ := of_bind h
    obtain rfl := ok.inj h
    exact (ih hMiddle).add hAdd

/-! ### What is left out -/

variable {raised : Raised}

theorem safeArchiveName_eq_error (h : safeArchiveName value = .error raised) :
    raised.isSize = false := by
  unfold safeArchiveName at h
  dsimp only at h
  split at h
  · rw [← error.inj h]
    rfl
  · cases h

theorem artifactArchiveName_eq_error (h : artifactArchiveName artifact = .error raised) :
    raised.isSize = false := by
  have hTwo : ∀ (first second : String) (f : String → String → String),
      (do
        let a ← safeArchiveName first
        let b ← safeArchiveName second
        pure (f a b) : Except Raised String) = .error raised → raised.isSize = false := by
    intro first second f hError
    cases hFirst : safeArchiveName first with
    | error raised' =>
      rw [hFirst] at hError
      obtain rfl := error.inj hError
      exact safeArchiveName_eq_error hFirst
    | ok a =>
      rw [hFirst] at hError
      cases hSecond : safeArchiveName second with
      | error raised' =>
        rw [hSecond] at hError
        obtain rfl := error.inj hError
        exact safeArchiveName_eq_error hSecond
      | ok b =>
        rw [hSecond] at hError
        cases hError
  unfold artifactArchiveName at h
  cases hJob : artifact.ofJob with
  | some jobId =>
    rw [hJob] at h
    exact hTwo _ _ (fun a b => "jobs/" ++ a ++ "/" ++ b) h
  | none =>
    rw [hJob] at h
    exact hTwo _ _ (fun a b => "run/" ++ a ++ "/" ++ b) h

variable {content : Bytes}

theorem read_of_backs (maximumBytes : Int) (h : Backs reader artifact content) :
    reader.read maximumBytes artifact =
      if maximumBytes < content.length then .error (.tooLarge artifact.uri) else .ok content := by
  obtain ⟨path, hPath, hStanding⟩ := h
  unfold VerifiedArtifactReader.read
  rw [hPath]
  dsimp only [bind, Except.bind]
  rw [hStanding]
  rfl

theorem backs_of_read (h : reader.read maximumBytes artifact = .ok content) :
    Backs reader artifact content := by
  obtain ⟨path, hPath, h⟩ := of_bind h
  refine ⟨path, hPath, ?_⟩
  cases hStanding : reader.standing path with
  | error kind =>
    rw [hStanding] at h
    cases h
  | ok standing =>
    rw [hStanding] at h
    cases standing with
    | absent | link | directory => cases h
    | file content' =>
      dsimp only at h
      split at h
      · cases h
      · rw [ok.inj h]

theorem offer_eq_error (hRead : reader.read maximumBytes artifact = .ok content)
    (h : reader.offer maximumBytes artifact = .error raised) : raised.isSize = false := by
  unfold VerifiedArtifactReader.offer at h
  rw [hRead] at h
  cases hName : artifactArchiveName artifact with
  | ok name =>
    rw [hName] at h
    cases h
  | error raised' =>
    rw [hName] at h
    obtain rfl := error.inj h
    exact artifactArchiveName_eq_error hName

/-- What is left out for its size is too large on its own, or with everything offered before it. -/
theorem LeftOutForSize.cases (h : LeftOutForSize reader maximumBytes s artifact)
    (hBacks : Backs reader artifact content) :
    maximumBytes < content.length ∨ ∃ offered, reader.offer maximumBytes artifact = .ok offered ∧
      offered.content = content ∧ maximumBytes < (s.total + offered.content.length : Nat) := by
  rcases lt_or_ge maximumBytes content.length with hLarge | hSmall
  · exact .inl hLarge
  right
  obtain ⟨s', raised, hAdd, hSize, hNoted⟩ := h
  have hRead := read_of_backs maximumBytes hBacks
  rw [if_neg (not_lt.mpr hSmall)] at hRead
  rcases add_cases hAdd with
    ⟨raised', hOffer, rfl⟩ | ⟨offered, hOffer, ⟨hOver, rfl⟩ | ⟨hFits, name, hName, rfl⟩⟩
  · have hSame : raised' = raised := by simpa using hNoted
    rw [← hSame, offer_eq_error hRead hOffer] at hSize
    cases hSize
  · refine ⟨offered, hOffer, ?_, hOver⟩
    have hSame := (offer_eq_ok hOffer).1
    rw [hRead] at hSame
    exact (ok.inj hSame).symm
  · simp at hNoted

theorem leftOutForSize_of_overflow
    (hOffer : reader.offer maximumBytes artifact = .ok offered)
    (hOver : maximumBytes < (s.total + offered.content.length : Nat)) :
    LeftOutForSize reader maximumBytes s artifact := by
  refine ⟨{ s with
    total := s.total + offered.content.length
    unavailable :=
      s.unavailable ++ [(artifact.uri, .bundleTooLarge)] }, .bundleTooLarge, ?_, rfl, rfl⟩
  rw [Delivery.add, hOffer]
  exact if_pos hOver

theorem exists_split_of_offers
    (h : offers reader maximumBytes artifacts = front ++ offered :: back) :
    ∃ before artifact after, artifacts = before ++ artifact :: after ∧
      reader.offer maximumBytes artifact = .ok offered ∧
      offers reader maximumBytes before = front := by
  obtain ⟨before, rest, rfl, hFront, hRest⟩ := filterMap_eq_append_iff.mp h
  obtain ⟨passed, artifact, after, rfl, hPassed, hOffer, -⟩ := filterMap_eq_cons_iff.mp hRest
  refine ⟨before ++ passed, artifact, after, by simp, ?_, ?_⟩
  · cases hResult : reader.offer maximumBytes artifact with
    | error raised =>
      rw [hResult] at hOffer
      cases hOffer
    | ok offered' =>
      rw [hResult] at hOffer
      rw [Option.some.inj hOffer]
  · rw [offers, filterMap_append, hFront, filterMap_eq_nil_iff.mpr hPassed, append_nil]

variable {before after : List DeliveredArtifact}

theorem offers_append
    (hOffer : reader.offer maximumBytes artifact = .ok offered) :
    offers reader maximumBytes (before ++ artifact :: after) =
      offers reader maximumBytes before ++ offered :: offers reader maximumBytes after := by
  rw [offers, filterMap_append, filterMap_cons, hOffer]
  rfl

/-- The loop over the front of the artifacts comes to a state as well. -/
theorem exists_deliverAll_front
    (h : deliverAll reader maximumBytes (before ++ after) = .ok s) :
    ∃ middle, deliverAll reader maximumBytes before = .ok middle := by
  rw [deliverAll, foldlM_append] at h
  obtain ⟨middle, hMiddle, -⟩ := of_bind h
  exact ⟨middle, hMiddle⟩

/-- An artifact is left out for its size only if it does not fit with what was delivered before it,
exactly if everything behind the first overflow is too large on its own. -/
theorem size_iff {request : BundleRequest} {delivery : Delivery}
    (h : deliverAll reader request.maximumBytes request.selected = .ok delivery) :
    (∀ front artifact back s content, request.selected = front ++ artifact :: back →
      deliverAll reader request.maximumBytes front = .ok s →
      LeftOutForSize reader request.maximumBytes s artifact → Backs reader artifact content →
        request.maximumBytes < content.length + bytesOf s.delivered) ↔
      RestTooLarge request.maximumBytes (offers reader request.maximumBytes request.selected) := by
  constructor
  · intro hSize front offered back hSplit hOver
    obtain ⟨before, artifact, after, hSelected, hOffer, hFront⟩ := exists_split_of_offers hSplit
    obtain ⟨s, hs⟩ := exists_deliverAll_front (hSelected ▸ h)
    have hBundled := bundled_of_deliverAll hs
    rw [hFront] at hBundled
    have hLeft : LeftOutForSize reader request.maximumBytes s artifact := by
      apply leftOutForSize_of_overflow hOffer
      rwa [hBundled.total]
    have hLarge := hSize before artifact after s offered.content hSelected hs hLeft
      (backs_of_read (offer_eq_ok hOffer).1)
    rw [hBundled.bytesOf_delivered] at hLarge
    rw [hSplit, fitting_of_overflow 0 (by rwa [Nat.zero_add])]
    omega
  · intro hRest before artifact after s content hSelected hs hLeft hBacks
    rcases hLeft.cases hBacks with hLarge | ⟨offered, hOffer, rfl, hOver⟩
    · omega
    · have hBundled := bundled_of_deliverAll hs
      have hSplit : offers reader request.maximumBytes request.selected =
          offers reader request.maximumBytes before ++
            offered :: offers reader request.maximumBytes after := by
        rw [hSelected, offers_append hOffer]
      rw [hBundled.total] at hOver
      have hLarge := hRest _ _ _ hSplit hOver
      rw [hSplit, fitting_of_overflow 0 (by rwa [Nat.zero_add]),
        ← hBundled.bytesOf_delivered] at hLarge
      omega

theorem exists_delivery_of_bundle {packer : Packer} {request : BundleRequest}
    {bundle : ArtifactBundle}
    (h : buildRunArtifactBundle packer reader request = .ok bundle) :
    ∃ delivery, deliverAll reader request.maximumBytes request.selected = .ok delivery ∧
      delivery.delivered ≠ [] ∧ bundle.content = packer.zip (request.files packer delivery) := by
  obtain ⟨delivery, hDelivery, h⟩ := of_bind h
  refine ⟨delivery, hDelivery, ?_⟩
  by_cases hNone : delivery.delivered.isEmpty = true
  · rw [if_pos hNone] at h
    cases h
  · rw [if_neg hNone] at h
    refine ⟨fun hEmpty => hNone (by rw [hEmpty]; rfl), ?_⟩
    by_cases hLarge : request.maximumBytes < (packer.zip (request.files packer delivery)).length
    · simp only [if_pos hLarge] at h
      cases h
    · simp only [if_neg hLarge] at h
      rw [← ok.inj h]

/-- A bundle is right exactly if no delivered artifact finds both its names in use, and everything
behind the first overflow is too large for what the delivered ones leave. -/
theorem bundle_right_iff {packer : Packer} {request : BundleRequest} {bundle : ArtifactBundle}
    (h : buildRunArtifactBundle packer reader request = .ok bundle) :
    ∃ delivery, deliverAll reader request.maximumBytes request.selected = .ok delivery ∧
      bundle.content = packer.zip (request.files packer delivery) ∧
      (BundleRight packer reader request delivery ↔
        NoClash (fitting request.maximumBytes 0
          (offers reader request.maximumBytes request.selected)) ∧
        RestTooLarge request.maximumBytes
    (offers reader request.maximumBytes request.selected)) := by
  obtain ⟨delivery, hDelivery, hSome, hContent⟩ := exists_delivery_of_bundle h
  refine ⟨delivery, hDelivery, hContent, ?_⟩
  have hBundled := bundled_of_deliverAll hDelivery
  have hNames : ((request.files packer delivery).map Prod.fst).Nodup ↔
      (delivery.delivered.map Member.name).Nodup := by
    rw [BundleRequest.files, map_cons, map_map, nodup_cons]
    apply and_iff_right
    intro hMem
    obtain ⟨m, hm, hName⟩ := mem_map.mp hMem
    exact (hBundled.member m hm).ne_manifestName hName
  constructor
  · intro hRight
    exact ⟨hBundled.distinct.mp (hNames.mp hRight.distinct), (size_iff hDelivery).mp hRight.size⟩
  · rintro ⟨hClash, hRest⟩
    refine ⟨hNames.mpr (hBundled.distinct.mpr hClash), ?_, ?_, (size_iff hDelivery).mpr hRest⟩
    · intro file hFile
      rcases mem_cons.mp hFile with rfl | hFile
      · exact relativeName_manifest
      · obtain ⟨m, hm, rfl⟩ := mem_map.mp hFile
        exact (hBundled.member m hm).relativeName
    · rw [hBundled.bytesOf_delivered]
      rcases @fitting_eq_nil_or_le request.maximumBytes
        (offers reader request.maximumBytes request.selected) 0 with hNone | hLe
      · have hKept := hBundled.kept
        rw [hNone, map_nil, map_eq_nil_iff] at hKept
        exact absurd hKept hSome
      · omega

def sizesOnly : Packer where
  dumps _ := []
  zip files := files.map fun file => UInt8.ofNat file.2.length

def reportArtifact (artifactId : String) : DeliveredArtifact where
  artifactId := artifactId
  jobId := some "job-1"
  type := "report.md"
  uri := "artifact://report.md"
  sha256 := VerifiedArtifactReader.oldDigest
  sha256_length := by decide +kernel
  sha256_hex := List.all_eq_true.mp (by decide +kernel)

def reportMount : VerifiedArtifactReader :=
  .mountOf [(["mnt", "artifacts", "report.md"], "v1".toUTF8.toList)]
    VerifiedArtifactReader.knownDigest

def reportRequest (artifactIds : List String) : BundleRequest where
  runId := "run-1"
  artifacts := artifactIds.map reportArtifact
  jobs := [⟨"job-1", .succeeded⟩]
  maximumBytes := 8000000

theorem bundle_right_iff_two_reports :
    ∃ delivery, deliverAll reportMount 8000000 (reportRequest ["a1", "a2"]).selected =
    .ok delivery ∧
      [0, 2, 2] = sizesOnly.zip ((reportRequest ["a1", "a2"]).files sizesOnly delivery) ∧
      (BundleRight sizesOnly reportMount (reportRequest ["a1", "a2"]) delivery ↔
        NoClash (fitting 8000000 0
    (offers reportMount 8000000 (reportRequest ["a1", "a2"]).selected)) ∧
        RestTooLarge 8000000 (offers reportMount 8000000 (reportRequest ["a1", "a2"]).selected)) :=
  @bundle_right_iff reportMount sizesOnly (reportRequest ["a1", "a2"])
    ⟨"glasslab-run-1-artifacts.zip", [0, 2, 2], 2⟩ (by decide +kernel)

/-- The second copy gets the longer name, and so does the third one. -/
theorem third_report_clashes :
    buildRunArtifactBundle sizesOnly reportMount (reportRequest ["a1", "a2", "a3"]) =
        .ok ⟨"glasslab-run-1-artifacts.zip", [0, 2, 2, 2], 3⟩ ∧
      ¬ ∃ delivery,
        deliverAll reportMount 8000000 (reportRequest ["a1", "a2", "a3"]).selected = .ok delivery ∧
          BundleRight sizesOnly reportMount (reportRequest ["a1", "a2", "a3"]) delivery := by
  refine ⟨by decide +kernel, ?_⟩
  rintro ⟨delivery, hDelivery, hRight⟩
  have hNames : (deliverAll reportMount 8000000 (reportRequest ["a1", "a2", "a3"]).selected).map
      (fun s => s.delivered.map Member.name) = .ok ["jobs/job-1/report.md",
        "jobs/job-1/report.md.3bfc269594ef", "jobs/job-1/report.md.3bfc269594ef"] := by
    decide +kernel
  have hMap : delivery.delivered.map Member.name = ["jobs/job-1/report.md",
      "jobs/job-1/report.md.3bfc269594ef", "jobs/job-1/report.md.3bfc269594ef"] := by
    apply ok.inj
    rw [← hNames]
    exact (congrArg (Except.map fun s => s.delivered.map Member.name) hDelivery).symm
  have hDistinct := hRight.distinct
  rw [BundleRequest.files, map_cons, map_map] at hDistinct
  have hNodup : (delivery.delivered.map Member.name).Nodup := (nodup_cons.mp hDistinct).2
  rw [hMap] at hNodup
  exact absurd hNodup (by decide +kernel)

end Glasslab.Evidence
