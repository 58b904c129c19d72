import Glasslab.Foundation.Joining
import Glasslab.Comparison.Verdict

/-!
# The fingerprint of a comparison

A run does not build its comparison again while `comparison_input_fingerprint` is unchanged. The
fingerprint covers the newest wave of jobs with their states, and the digests of their evaluations,
but not where the evaluations lie. The place of an evaluation stands in the document, and decides
which of several evaluations of a job is the one that counts.
-/

namespace Glasslab.Comparison

open Foundation Methodology List

def evaluationShas (artifacts : List ArtifactRecord) (jobId : String) : List String :=
  (artifacts.filter fun artifact =>
    artifact.jobId = some jobId ∧ pathName artifact.uri = evaluationFilename).map (·.sha256)

def fingerprintLine (artifacts : List ArtifactRecord) (job : JobRecord) : List Char :=
  job.jobId.toList ++ ':' :: ((toString job.seed).toList ++ ':' :: (job.variantName.toList ++
    ':' :: (job.status.value.toList ++ ':' ::
      [','].intercalate ((sortOn id (evaluationShas artifacts job.jobId)).map String.toList))))

/-- The text that `comparison_input_fingerprint` takes the digest of. -/
def fingerprintText (jobs : List JobRecord) (artifacts : List ArtifactRecord) : List Char :=
  ['\n'].intercalate ((latestSubmissionJobs jobs).map (fingerprintLine artifacts))

section Fingerprint

-- `sha256(...).hexdigest()`
variable {sha256 : List Char → String}

def comparisonInputFingerprint (sha256 : List Char → String) (jobs : List JobRecord)
    (artifacts : List ArtifactRecord) : String :=
  sha256 (fingerprintText jobs artifacts)

variable {jobs jobs' : List JobRecord} {artifacts artifacts' : List ArtifactRecord}
  {job job' : JobRecord}

/-- Ids and digests are hexadecimal, and the names of variants have no line breaks. -/
structure Plain (jobs : List JobRecord) (artifacts : List ArtifactRecord) : Prop where
  ids : ∀ job ∈ jobs, ':' ∉ job.jobId.toList ∧ '\n' ∉ job.jobId.toList
  variants : ∀ job ∈ jobs, '\n' ∉ job.variantName.toList
  digests : ∀ artifact ∈ artifacts, '\n' ∉ artifact.sha256.toList

theorem mem_of_mem_latest (h : job ∈ latestSubmissionJobs jobs) : job ∈ jobs := by
  unfold latestSubmissionJobs at h
  split at h
  · cases h
  · exact (mem_filter.mp (mem_sortOn.mp h)).1

theorem newline_notMem_toString (n : Int) : '\n' ∉ (toString n).toList := by
  have hNat (m : Nat) : '\n' ∉ (Nat.repr m).toList := by
    intro h
    have hDigit : '\n' ∈ Nat.toDigits 10 m := by
      simpa [Nat.repr] using h
    have hIs := Nat.isDigit_of_mem_toDigits (by decide) (by decide) hDigit
    revert hIs
    decide
  cases n with
  | ofNat m => exact hNat m
  | negSucc m =>
    have hText : toString (Int.negSucc m) = "-" ++ Nat.repr (m + 1) := rfl
    rw [hText]
    simpa using hNat (m + 1)

theorem statusValue_injective : Function.Injective JobStatus.value := by
  intro a b h
  cases a <;> cases b <;> first | rfl | (revert h; decide)

theorem value_plain (status : JobStatus) :
    ':' ∉ status.value.toList ∧ '\n' ∉ status.value.toList := by
  cases status <;> decide

theorem newline_notMem_line (hPlain : Plain jobs artifacts) (hJob : job ∈ jobs) :
    '\n' ∉ fingerprintLine artifacts job := by
  have hShas : '\n' ∉ [','].intercalate
      ((sortOn id (evaluationShas artifacts job.jobId)).map String.toList) := by
    intro h
    rcases mem_intercalate h with hComma | ⟨l, hl, hNewline⟩
    · revert hComma
      decide
    · obtain ⟨sha, hSha, rfl⟩ := mem_map.mp hl
      obtain ⟨artifact, hArtifact, rfl⟩ := mem_map.mp (mem_sortOn.mp hSha)
      exact hPlain.digests artifact (mem_filter.mp hArtifact).1 hNewline
  simp only [fingerprintLine, mem_append, mem_cons, not_or]
  exact ⟨(hPlain.ids job hJob).2, by decide, newline_notMem_toString _, by decide,
    hPlain.variants job hJob, by decide, (value_plain _).2, by decide, hShas⟩

def SameJobs (jobs jobs' : List JobRecord) : Prop :=
  ∀ job ∈ jobs, ∀ job' ∈ jobs', job.jobId = job'.jobId → job' = { job with status := job'.status }

theorem eq_of_line_eq (hPlain : Plain jobs artifacts) (hPlain' : Plain jobs' artifacts')
    (hSame : SameJobs jobs jobs') (hJob : job ∈ jobs) (hJob' : job' ∈ jobs')
    (h : fingerprintLine artifacts job = fingerprintLine artifacts' job') : job = job' := by
  obtain ⟨hId, hRest⟩ := append_cons_inj (hPlain.ids job hJob).1 (hPlain'.ids job' hJob').1 h
  have hEq := hSame job hJob job' hJob' (String.toList_injective hId)
  have hSeed : job'.seed = job.seed := by rw [hEq]
  have hVariant : job'.variantName = job.variantName := by rw [hEq]
  rw [hSeed, hVariant] at hRest
  -- the seed and the name of the variant are the same, so the states stand at the same place
  have hStates := (List.cons.inj (append_cancel_left
    (List.cons.inj (append_cancel_left hRest)).2)).2
  obtain ⟨hStatus, _⟩ := append_cons_inj (value_plain _).1 (value_plain _).1 hStates
  have hStatusEq := statusValue_injective (String.toList_injective hStatus)
  rw [hEq, ← hStatusEq]

theorem latest_eq_of_fingerprint_eq (hSha : Function.Injective sha256)
    (hPlain : Plain jobs artifacts) (hPlain' : Plain jobs' artifacts')
    (hSame : SameJobs jobs jobs')
    (h : comparisonInputFingerprint sha256 jobs artifacts =
      comparisonInputFingerprint sha256 jobs' artifacts') :
    latestSubmissionJobs jobs = latestSubmissionJobs jobs' := by
  have hText : fingerprintText jobs artifacts = fingerprintText jobs' artifacts' := hSha h
  have hLine {jobs : List JobRecord} {artifacts : List ArtifactRecord}
      (hPlain : Plain jobs artifacts) :
      ∀ l ∈ (latestSubmissionJobs jobs).map (fingerprintLine artifacts), l ≠ [] ∧ '\n' ∉ l := by
    intro l hl
    obtain ⟨job, hJob, rfl⟩ := mem_map.mp hl
    exact ⟨by simp [fingerprintLine], newline_notMem_line hPlain (mem_of_mem_latest hJob)⟩
  refine eq_of_map_eq_map (intercalate_injOn (hLine hPlain) (hLine hPlain') hText) ?_
  intro job hJob job' hJob' hLines
  exact eq_of_line_eq hPlain hPlain' hSame (mem_of_mem_latest hJob) (mem_of_mem_latest hJob') hLines

variable {run : RunRecord} {contract : ResolvedContract} {reader : ArtifactReader}
  {context context' : ComparisonContext} {requirement : Requirement} {value : String}

def firstEvaluation (artifacts : List ArtifactRecord) (jobId : String) : Option ArtifactRecord :=
  (evaluationArtifacts artifacts jobId).head?

/-- Two evaluations that lie at the same place, have the same digest, and can both be read or both
not be read. -/
def SameEvidence (reader : ArtifactReader) (a b : Option ArtifactRecord) : Prop :=
  a.map (·.uri) = b.map (·.uri) ∧ a.map (·.sha256) = b.map (·.sha256) ∧
    (a.bind reader).isSome = (b.bind reader).isSome

/-- What is read has the recorded digest, so equal digests give equal contents. -/
def DigestVerifying (reader : ArtifactReader) : Prop :=
  ∀ a b e f, a.sha256 = b.sha256 → reader a = some e → reader b = some f → e = f

variable {a b : Option ArtifactRecord}

theorem SameEvidence.evaluation (hReader : DigestVerifying reader)
    (h : SameEvidence reader a b) : a.bind reader = b.bind reader := by
  obtain ⟨_, hSha, hRead⟩ := h
  cases a with
  | none =>
    cases b with
    | none => rfl
    | some b => cases hSha
  | some a =>
    cases b with
    | none => cases hSha
    | some b =>
      simp only [Option.bind_some] at hRead ⊢
      cases hA : reader a with
      | none =>
        rw [hA] at hRead
        exact (Option.isNone_iff_eq_none.mp (by simpa using hRead.symm)).symm
      | some e =>
        rw [hA] at hRead
        obtain ⟨f, hB⟩ := Option.isSome_iff_exists.mp hRead.symm
        rw [hB, hReader a b e f (Option.some.inj hSha) hA hB]

/-- The contexts of two reports of one run under one contract. -/
structure SameRun (context context' : ComparisonContext) : Prop where
  run : context.run = context'.run
  primaryMetricKey : context.primaryMetricKey = context'.primaryMetricKey

theorem jobDocument_congr (hRun : SameRun context context') {evidence evidence' : JobEvidence}
    (hUri : evidence.artifact.map (·.uri) = evidence'.artifact.map (·.uri))
    (hSha : evidence.artifact.map (·.sha256) = evidence'.artifact.map (·.sha256))
    (hEvaluation : evidence.evaluation = evidence'.evaluation) :
    jobDocument job evidence context = jobDocument job evidence' context' := by
  obtain ⟨artifact, evaluation⟩ := evidence
  obtain ⟨artifact', evaluation'⟩ := evidence'
  subst hEvaluation
  have hReason : jobReason job ⟨artifact, evaluation⟩ context =
      jobReason job ⟨artifact', evaluation⟩ context' := by
    cases artifact with
    | none =>
      cases artifact' with
      | none => rfl
      | some _ => cases hUri
    | some _ =>
      cases artifact' with
      | none => cases hUri
      | some _ =>
        unfold jobReason
        rw [hRun.run, hRun.primaryMetricKey]
        cases evaluation with
        | none => rfl
        | some e => rfl
  have hBind : (artifact.bind fun _ => evaluation) = artifact'.bind fun _ => evaluation := by
    cases artifact with
    | none =>
      cases artifact' with
      | none => rfl
      | some _ => cases hUri
    | some _ =>
      cases artifact' with
      | none => cases hUri
      | some _ => rfl
  unfold jobDocument primaryMetric
  rw [hReason, hBind, hUri, hSha, hRun.run, hRun.primaryMetricKey]

theorem sameEvidence_of_document
    (h : (jobDocument job ⟨a, a.bind reader⟩ context).1 =
      (jobDocument job ⟨b, b.bind reader⟩ context').1) : SameEvidence reader a b := by
  refine ⟨congrArg JobDocument.evaluationUri h, congrArg JobDocument.artifactDigest h, ?_⟩
  have hPass := congrArg (fun document => document.integrityPass.isSome) h
  cases a with
  | none =>
    cases b with
    | none => rfl
    | some b => simpa [jobDocument] using hPass
  | some a =>
    cases b with
    | none => simpa [jobDocument] using hPass
    | some b => simpa [jobDocument] using hPass

/-! ## What a report reads -/

variable {jobsForValue : List JobRecord}

theorem valueDocument_congr
    (h : ∀ job ∈ jobsForValue, jobDocument job (context.evidenceByJob job.jobId) context =
      jobDocument job (context'.evidenceByJob job.jobId) context') :
    valueDocument value jobsForValue context = valueDocument value jobsForValue context' := by
  have hSorted : ∀ job ∈ sortOn JobRecord.jobId jobsForValue,
      jobDocument job (context.evidenceByJob job.jobId) context =
        jobDocument job (context'.evidenceByJob job.jobId) context' :=
    fun job hJob => h job (mem_sortOn.mp hJob)
  have hPassed : ((sortOn JobRecord.jobId jobsForValue).any fun job =>
      (jobDocument job (context.evidenceByJob job.jobId) context).2.1) =
      (sortOn JobRecord.jobId jobsForValue).any fun job =>
        (jobDocument job (context'.evidenceByJob job.jobId) context').2.1 := by
    rw [Bool.eq_iff_iff, any_eq_true, any_eq_true]
    exact exists_congr fun job => and_congr_right fun hJob => by rw [hSorted job hJob]
  have hJobs : ((sortOn JobRecord.jobId jobsForValue).map fun job =>
      (jobDocument job (context.evidenceByJob job.jobId) context).1) =
      (sortOn JobRecord.jobId jobsForValue).map fun job =>
        (jobDocument job (context'.evidenceByJob job.jobId) context').1 :=
    map_congr_left fun job hJob => congrArg Prod.fst (hSorted job hJob)
  have hReasons : ((sortOn JobRecord.jobId jobsForValue).filterMap fun job =>
      (jobDocument job (context.evidenceByJob job.jobId) context).2.2.map fun reason =>
        "job " ++ job.jobId ++ ": " ++ reason) =
      (sortOn JobRecord.jobId jobsForValue).filterMap fun job =>
        (jobDocument job (context'.evidenceByJob job.jobId) context').2.2.map fun reason =>
          "job " ++ job.jobId ++ ": " ++ reason := by
    refine filterMap_congr fun job hJob => ?_
    rw [hSorted job hJob]
  simp only [valueDocument, hPassed, hJobs, hReasons]

theorem document_of_valueDocument_eq
    (h : valueDocument value jobsForValue context = valueDocument value jobsForValue context')
    (hJob : job ∈ jobsForValue) :
    (jobDocument job (context.evidenceByJob job.jobId) context).1 =
      (jobDocument job (context'.evidenceByJob job.jobId) context').1 := by
  have hJobs := congrArg ValueDocument.jobs h
  exact map_inj_left.mp hJobs job (mem_sortOn.mpr hJob)

theorem requirementDocument_congr (hRun : SameRun context context')
    (h : ∀ job ∈ jobs, (comparedValue requirement job).isSome = true →
      (context.evidenceByJob job.jobId).evaluation =
          (context'.evidenceByJob job.jobId).evaluation ∧
        jobDocument job (context.evidenceByJob job.jobId) context =
          jobDocument job (context'.evidenceByJob job.jobId) context') :
    requirementDocument requirement jobs context =
    requirementDocument requirement jobs context' := by
  have hValues : ((sortOn Prod.fst (buildValueIndex requirement jobs).byValue).map
      fun p => valueDocument p.1 p.2 context) =
      (sortOn Prod.fst (buildValueIndex requirement jobs).byValue).map
        fun p => valueDocument p.1 p.2 context' := by
    refine map_congr_left fun p hp => valueDocument_congr fun job hJob => ?_
    rw [mem_sortOn, byValue_eq, mem_map] at hp
    obtain ⟨value, _, rfl⟩ := hp
    simp only [mem_filter, decide_eq_true_eq] at hJob
    exact (h job hJob.1 (by rw [hJob.2]; rfl)).2
  have hKeys : comparisonKeyReasons (buildValueIndex requirement jobs) context =
      comparisonKeyReasons (buildValueIndex requirement jobs) context' := by
    have hMap : ((buildValueIndex requirement jobs).participating.map fun job =>
        comparisonKey (context.evidenceByJob job.jobId)) =
        (buildValueIndex requirement jobs).participating.map fun job =>
          comparisonKey (context'.evidenceByJob job.jobId) := by
      refine map_congr_left fun job hJob => ?_
      obtain ⟨hMem, hValue⟩ := mem_participating.mp hJob
      unfold comparisonKey
      rw [(h job hMem hValue).1]
    unfold comparisonKeyReasons
    rw [hMap]
  have hReasons : comparabilityReasons requirement (buildValueIndex requirement jobs) context =
      comparabilityReasons requirement (buildValueIndex requirement jobs) context' := by
    unfold comparabilityReasons
    rw [hKeys, hRun.run]
  simp only [requirementDocument, hValues, hReasons]

theorem document_of_requirementDocument_eq
    (h : requirementDocument requirement jobs context =
      requirementDocument requirement jobs context')
    (hJob : job ∈ jobs) (hValue : (comparedValue requirement job).isSome = true) :
    (jobDocument job (context.evidenceByJob job.jobId) context).1 =
      (jobDocument job (context'.evidenceByJob job.jobId) context').1 := by
  obtain ⟨value, hValue⟩ := Option.isSome_iff_exists.mp hValue
  have hValues := congrArg RequirementDocument.values h
  have hMem : (value, jobs.filter fun job => comparedValue requirement job = some value) ∈
      sortOn Prod.fst (buildValueIndex requirement jobs).byValue := by
    rw [mem_sortOn, byValue_eq]
    exact mem_map_of_mem (mem_comparedValues.mpr ⟨job, hJob, hValue⟩)
  have hDocument := map_inj_left.mp hValues _ hMem
  refine document_of_valueDocument_eq hDocument ?_
  simpa using ⟨hJob, hValue⟩

/-- In both inputs, every compared job has its first evaluation at the same place and with the same
digest, and it can be read in both or in neither. -/
def SameEvaluations (contract : ResolvedContract) (reader : ArtifactReader)
    (jobs : List JobRecord) (artifacts artifacts' : List ArtifactRecord) : Prop :=
  ∀ requirements, contract.requirements = some requirements →
    ∀ requirement ∈ requirements, requirement.acrossJobs = true →
      ∀ job ∈ latestSubmissionJobs jobs, (comparedValue requirement job).isSome = true →
        SameEvidence reader (firstEvaluation artifacts job.jobId)
          (firstEvaluation artifacts' job.jobId)

theorem buildComparisonReport_eq_iff :
    buildComparisonReport run contract jobs artifacts reader =
        buildComparisonReport run contract jobs' artifacts' reader ↔
      ∀ requirements, contract.requirements = some requirements →
        reportDocuments run contract requirements jobs artifacts reader =
          reportDocuments run contract requirements jobs' artifacts' reader := by
  unfold buildComparisonReport
  cases contract.requirements with
  | none => simp
  | some requirements =>
    simp only [Option.some.injEq, forall_eq']
    split
    next hNone =>
      have hNil : sortOn Requirement.requirementId (requirements.filter (·.acrossJobs)) = [] := by
        simpa using hNone
      simp [reportDocuments, hNil]
    next =>
      rw [Option.some.injEq, ComparisonReport.mk.injEq]
      constructor
      · intro h
        exact h.2.2.2.2.1
      · intro h
        unfold reportDocuments reportContext at h
        rw [h]
        exact ⟨rfl, rfl, rfl, rfl, rfl, rfl, rfl, rfl⟩

/-- Between two inputs with the same fingerprint, the report is the same exactly when the
evaluations that count are at the same places. -/
theorem report_eq_iff_of_fingerprint_eq (hSha : Function.Injective sha256)
    (hReader : DigestVerifying reader) (hPlain : Plain jobs artifacts)
    (hPlain' : Plain jobs' artifacts') (hSame : SameJobs jobs jobs')
    (h : comparisonInputFingerprint sha256 jobs artifacts =
      comparisonInputFingerprint sha256 jobs' artifacts') :
    buildComparisonReport run contract jobs artifacts reader =
        buildComparisonReport run contract jobs' artifacts' reader ↔
      SameEvaluations contract reader jobs artifacts artifacts' := by
  have hLatest := latest_eq_of_fingerprint_eq hSha hPlain hPlain' hSame h
  have hRun : SameRun (reportContext run contract artifacts reader)
      (reportContext run contract artifacts' reader) := ⟨rfl, rfl⟩
  rw [buildComparisonReport_eq_iff]
  refine forall₂_congr fun requirements _ => ?_
  unfold reportDocuments
  rw [← hLatest]
  constructor
  · intro hDocuments requirement hMem hAcross job hJob hValue
    have hIn : requirement ∈ sortOn Requirement.requirementId
        (requirements.filter (·.acrossJobs)) :=
      mem_sortOn.mpr (mem_filter.mpr ⟨hMem, hAcross⟩)
    have hDocument := map_inj_left.mp hDocuments requirement hIn
    exact sameEvidence_of_document (document_of_requirementDocument_eq hDocument hJob hValue)
  · intro hEvidence
    refine map_congr_left fun requirement hIn => ?_
    obtain ⟨hMem, hAcross⟩ := mem_filter.mp (mem_sortOn.mp hIn)
    refine requirementDocument_congr hRun fun job hJob hValue => ?_
    have hSameEvidence := hEvidence requirement hMem hAcross job hJob hValue
    exact ⟨hSameEvidence.evaluation hReader, jobDocument_congr hRun hSameEvidence.1
      hSameEvidence.2.1 (hSameEvidence.evaluation hReader)⟩

end Fingerprint

theorem sameJobs_trialJobs : SameJobs trialJobs trialJobs := by
  intro job hJob job' hJob' hId
  have hEq : job = job' := by
    revert job job'
    decide +kernel
  rw [hEq]

/-- The order in which the artifacts are listed does not matter. -/
theorem report_eq_iff_of_fingerprint_eq_trialJobs :
    buildComparisonReport trialRun trialContract trialJobs (trialJobs.map trialArtifact)
        trialReader =
      buildComparisonReport trialRun trialContract trialJobs
        (trialJobs.map trialArtifact).reverse trialReader := by
  have hReader : DigestVerifying trialReader := by
    intro a b e f _ he hf
    exact Option.some.inj (he.symm.trans hf)
  have hPlain : Plain trialJobs (trialJobs.map trialArtifact) :=
    ⟨by decide +kernel, by decide +kernel, by decide +kernel⟩
  have hPlain' : Plain trialJobs (trialJobs.map trialArtifact).reverse :=
    ⟨hPlain.ids, hPlain.variants, by decide +kernel⟩
  have hText : fingerprintText trialJobs (trialJobs.map trialArtifact) =
      fingerprintText trialJobs (trialJobs.map trialArtifact).reverse := by
    decide +kernel
  have hFirst : ∀ job ∈ latestSubmissionJobs trialJobs,
      firstEvaluation (trialJobs.map trialArtifact) job.jobId =
        firstEvaluation (trialJobs.map trialArtifact).reverse job.jobId := by
    decide +kernel
  have hSha : Function.Injective String.ofList := fun _ _ h => String.ofList_injective h
  refine (report_eq_iff_of_fingerprint_eq hSha hReader hPlain hPlain' sameJobs_trialJobs
    (congrArg String.ofList hText)).mpr ?_
  intro requirements _ requirement _ _ job hJob _
  rw [hFirst job hJob]
  exact ⟨rfl, rfl, rfl⟩

/-- A reader of two contents: the first passes, every other one does not. -/
def verdictReader : ArtifactReader := fun artifact =>
  some [("integrity_pass", .scalar (.bool (artifact.sha256 = trialDigest 'e'))),
    ("comparison_key", .scalar (.str "split"))]

def twoEvaluations (first second : Char) : List ArtifactRecord :=
  [⟨some "a", "a/1/evaluation.json", trialDigest first, none⟩,
    ⟨some "a", "a/2/evaluation.json", trialDigest second, none⟩,
    ⟨some "b", "b/1/evaluation.json", trialDigest 'e', none⟩]

/-- The places of the two evaluations are exchanged: the fingerprint stays, and the verdict does
not. -/
theorem not_report_eq_of_fingerprint_eq :
    DigestVerifying verdictReader ∧ SameJobs trialJobs trialJobs ∧
    Plain trialJobs (twoEvaluations 'e' 'f') ∧ Plain trialJobs (twoEvaluations 'f' 'e') ∧
    comparisonInputFingerprint String.ofList trialJobs (twoEvaluations 'e' 'f') =
      comparisonInputFingerprint String.ofList trialJobs (twoEvaluations 'f' 'e') ∧
    (buildComparisonReport trialRun trialContract trialJobs (twoEvaluations 'e' 'f')
      verdictReader).map (·.satisfied) = some true ∧
    (buildComparisonReport trialRun trialContract trialJobs (twoEvaluations 'f' 'e')
      verdictReader).map (·.satisfied) = some false := by
  have hText : fingerprintText trialJobs (twoEvaluations 'e' 'f') =
      fingerprintText trialJobs (twoEvaluations 'f' 'e') := by
    decide +kernel
  refine ⟨?_, sameJobs_trialJobs, ⟨by decide +kernel, by decide +kernel, by decide +kernel⟩,
    ⟨by decide +kernel, by decide +kernel, by decide +kernel⟩, congrArg String.ofList hText,
    by decide +kernel, by decide +kernel⟩
  intro a b e f hSha he hf
  simp only [verdictReader, hSha] at he hf
  exact Option.some.inj (he.symm.trans hf)

end Glasslab.Comparison
