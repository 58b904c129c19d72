import Glasslab.Comparison.Fingerprint

/-!
# The order of the inputs

A report is built from lists that a store returns in some order. The report itself does not depend
on that order. Which of several evaluations of a job counts does not depend on it either: it is the
first one by its place and its digest, read or not. An evaluation that can no longer be read
therefore hides one that can.
-/

namespace Glasslab.Comparison

open Foundation Methodology List Option

section InputOrder

variable {run : RunRecord} {contract : ResolvedContract} {jobs jobs' : List JobRecord}
  {artifacts artifacts' : List ArtifactRecord} {reader : ArtifactReader} {job : JobRecord}
  {jobId : String} {readable : ArtifactRecord} {evaluation : Evaluation}

theorem latestSubmissionJobs_of_perm (hIds : (jobs.map JobRecord.jobId).Nodup)
    (hPerm : jobs.Perm jobs') : latestSubmissionJobs jobs = latestSubmissionJobs jobs' := by
  have hId : ∀ a ∈ jobs, ∀ b ∈ jobs, a.jobId = b.jobId → a = b := fun a ha b hb h =>
    inj_on_of_nodup_map hIds ha hb h
  have hLatest : (jobs.argmax fun job => toLex (job.createdAt, job.jobId)) =
      jobs'.argmax fun job => toLex (job.createdAt, job.jobId) := by
    refine argmax_eq_of_perm hPerm fun a ha b hb h => hId a ha b hb ?_
    exact congrArg Prod.snd (toLex.injective h)
  unfold latestSubmissionJobs
  rw [hLatest]
  cases jobs'.argmax fun job => toLex (job.createdAt, job.jobId) with
  | none => rfl
  | some latest =>
    refine sortOn_eq_of_perm (hPerm.filter _) fun a ha b hb h => ?_
    exact hId a (mem_filter.mp ha).1 b (mem_filter.mp hb).1 h

def evaluationKey (artifact : ArtifactRecord) : String ×ₗ String :=
  toLex (artifact.uri, artifact.sha256)

theorem evaluationArtifacts_perm (hPerm : artifacts.Perm artifacts') (jobId : String) :
    (evaluationArtifacts artifacts jobId).Perm (evaluationArtifacts artifacts' jobId) :=
  (perm_sortOn _ _).trans ((hPerm.filter _).trans (perm_sortOn _ _).symm)

theorem firstEvaluation_of_perm (hPerm : artifacts.Perm artifacts') (jobId : String) :
    (firstEvaluation artifacts jobId).map evaluationKey =
      (firstEvaluation artifacts' jobId).map evaluationKey := by
  unfold firstEvaluation
  rw [← List.head?_map, ← List.head?_map]
  exact congrArg List.head? (@map_sortOn_of_perm _ _ _ evaluationKey _ _ (hPerm.filter _))

def placeReader (read : String → String → Option Evaluation) : ArtifactReader := fun artifact =>
  read artifact.uri artifact.sha256

theorem sameEvidence_of_perm (read : String → String → Option Evaluation)
    (hPerm : artifacts.Perm artifacts') (jobId : String) :
    (firstEvaluation artifacts jobId).map (·.uri) =
        (firstEvaluation artifacts' jobId).map (·.uri) ∧
      (firstEvaluation artifacts jobId).map (·.sha256) =
        (firstEvaluation artifacts' jobId).map (·.sha256) ∧
      (firstEvaluation artifacts jobId).bind (placeReader read) =
        (firstEvaluation artifacts' jobId).bind (placeReader read) := by
  have hKey := firstEvaluation_of_perm hPerm jobId
  refine ⟨?_, ?_, ?_⟩
  · have hUri := congrArg (Option.map fun key : String ×ₗ String => (ofLex key).1) hKey
    rwa [Option.map_map, Option.map_map] at hUri
  · have hSha := congrArg (Option.map fun key : String ×ₗ String => (ofLex key).2) hKey
    rwa [Option.map_map, Option.map_map] at hSha
  · have hRead := congrArg
      (fun key : Option (String ×ₗ String) => key.bind fun k => read (ofLex k).1 (ofLex k).2) hKey
    rwa [Option.bind_map, Option.bind_map] at hRead

/-- The order of the jobs and of the artifacts does not matter for a report. -/
theorem report_eq_of_perm (read : String → String → Option Evaluation)
    (hIds : (jobs.map JobRecord.jobId).Nodup) (hJobs : jobs.Perm jobs')
    (hArtifacts : artifacts.Perm artifacts') :
    buildComparisonReport run contract jobs artifacts (placeReader read) =
      buildComparisonReport run contract jobs' artifacts' (placeReader read) := by
  have hRun : SameRun (reportContext run contract artifacts (placeReader read))
      (reportContext run contract artifacts' (placeReader read)) := ⟨rfl, rfl⟩
  refine buildComparisonReport_eq_iff.mpr fun requirements _ => ?_
  unfold reportDocuments
  rw [← latestSubmissionJobs_of_perm hIds hJobs]
  refine map_congr_left fun requirement _ => ?_
  refine requirementDocument_congr hRun fun job _ _ => ?_
  obtain ⟨hUri, hSha, hRead⟩ := sameEvidence_of_perm read hArtifacts job.jobId
  exact ⟨hRead, jobDocument_congr hRun hUri hSha hRead⟩

/-- The trial jobs and their evaluations, listed the other way round. -/
theorem report_eq_of_perm_trialJobs :
    buildComparisonReport trialRun trialContract trialJobs (trialJobs.map trialArtifact)
        (placeReader fun _ _ => some [("integrity_pass", .scalar (.bool true))]) =
      buildComparisonReport trialRun trialContract trialJobs.reverse
        (trialJobs.map trialArtifact).reverse
        (placeReader fun _ _ => some [("integrity_pass", .scalar (.bool true))]) :=
  report_eq_of_perm _ (by decide) (reverse_perm _).symm (reverse_perm _).symm

variable {report : ComparisonReport} {requirements : List Requirement}

def ComparisonReport.jobDocuments (report : ComparisonReport) : List JobDocument :=
  report.requirements.flatMap fun requirement =>
    requirement.values.flatMap ValueDocument.jobs

variable {context : ComparisonContext}

theorem mem_jobDocuments_requirementDocument {requirement : Requirement} {document : JobDocument} :
    document ∈ (requirementDocument requirement jobs context).values.flatMap ValueDocument.jobs ↔
      ∃ job ∈ jobs, (comparedValue requirement job).isSome = true ∧
        document = (jobDocument job (context.evidenceByJob job.jobId) context).1 := by
  rw [mem_flatMap]
  constructor
  · rintro ⟨valueDoc, hValueDoc, hDocument⟩
    obtain ⟨value, _, rfl⟩ := mem_values.mp hValueDoc
    obtain ⟨job, hJob, rfl⟩ := mem_map.mp hDocument
    obtain ⟨hMem, hValue⟩ := mem_filter.mp (mem_sortOn.mp hJob)
    refine ⟨job, hMem, ?_, rfl⟩
    rw [of_decide_eq_true hValue]
    rfl
  · rintro ⟨job, hJob, hSome, rfl⟩
    obtain ⟨value, hValue⟩ := isSome_iff_exists.mp hSome
    refine ⟨_, mem_values.mpr ⟨value, mem_comparedValues.mpr ⟨job, hJob, hValue⟩, rfl⟩, ?_⟩
    refine mem_map.mpr ⟨job, mem_sortOn.mpr (mem_filter.mpr ⟨hJob, ?_⟩), rfl⟩
    exact decide_eq_true hValue

/-- The jobs that a report covers: those of the newest wave that take part in a comparison. -/
def Covered (contract : ResolvedContract) (jobs : List JobRecord) (job : JobRecord) : Prop :=
  job ∈ latestSubmissionJobs jobs ∧ ∃ requirements, contract.requirements = some requirements ∧
    ∃ requirement ∈ requirements, requirement.acrossJobs = true ∧
      (comparedValue requirement job).isSome = true

section

variable (h : buildComparisonReport run contract jobs artifacts reader = some report)
include h

theorem mem_jobDocuments
    {document : JobDocument} :
    document ∈ report.jobDocuments ↔ ∃ job, Covered contract jobs job ∧
      document = (jobDocument job (jobEvidence artifacts reader job.jobId)
        (reportContext run contract artifacts reader)).1 := by
  obtain ⟨requirements, hRequirements, hDocuments, _⟩ := buildComparisonReport_eq_some h
  unfold ComparisonReport.jobDocuments Covered
  rw [hDocuments, mem_flatMap, hRequirements]
  constructor
  · rintro ⟨requirementDoc, hRequirementDoc, hDocument⟩
    obtain ⟨requirement, hRequirement, rfl⟩ := mem_map.mp hRequirementDoc
    obtain ⟨hMem, hAcross⟩ := mem_filter.mp (mem_sortOn.mp hRequirement)
    obtain ⟨job, hJob, hSome, hEq⟩ := mem_jobDocuments_requirementDocument.mp hDocument
    exact ⟨job, ⟨hJob, requirements, rfl, requirement, hMem, hAcross, hSome⟩, hEq⟩
  · rintro ⟨job, ⟨hJob, _, hSame, requirement, hMem, hAcross, hSome⟩, hEq⟩
    obtain rfl := Option.some.inj hSame
    refine ⟨_, mem_map_of_mem (mem_sortOn.mpr (mem_filter.mpr ⟨hMem, hAcross⟩)), ?_⟩
    exact mem_jobDocuments_requirementDocument.mpr ⟨job, hJob, hSome, hEq⟩

theorem exists_report
    (artifacts' : List ArtifactRecord) :
    ∃ report', buildComparisonReport run contract jobs artifacts' reader = some report' := by
  unfold buildComparisonReport at h ⊢
  cases hRequirements : contract.requirements with
  | none =>
    rw [hRequirements] at h
    cases h
  | some requirements =>
    rw [hRequirements] at h
    dsimp only at h ⊢
    by_cases hNone : (sortOn Requirement.requirementId
        (requirements.filter (·.acrossJobs))).isEmpty = true
    · rw [if_pos hNone] at h
      cases h
    · rw [if_neg hNone]
      exact ⟨_, rfl⟩

end

/-! ## The evaluation that counts -/

structure ShowsVerdict (document : JobDocument) (artifact : ArtifactRecord)
    (evaluation : Evaluation) : Prop where
  evaluationUri : document.evaluationUri = some artifact.uri
  artifactDigest : document.artifactDigest = some artifact.sha256
  integrityPass : document.integrityPass = some (evaluationPassed evaluation)

theorem showsVerdict_of_evidence
    (hRead : reader readable = some evaluation) :
    ShowsVerdict (jobDocument job ⟨some readable, (some readable).bind reader⟩ context).1 readable
      evaluation where
  evaluationUri := rfl
  artifactDigest := rfl
  integrityPass := by
    rw [bind_some, hRead]
    rfl

theorem not_showsVerdict_of_unreadable {first : ArtifactRecord}
    (hRead : reader first = none) :
    ¬ ShowsVerdict (jobDocument job ⟨some first, (some first).bind reader⟩ context).1 readable
      evaluation := by
  intro h
  have hPass := h.integrityPass
  rw [bind_some, hRead] at hPass
  cases hPass

def OnlyReadable (reader : ArtifactReader) (artifacts : List ArtifactRecord) (jobId : String)
    (readable : ArtifactRecord) : Prop :=
  (evaluationArtifacts artifacts jobId).filter (fun artifact => (reader artifact).isSome) =
    [readable]

variable {artifact : ArtifactRecord}

theorem OnlyReadable.mem_iff (h : OnlyReadable reader artifacts jobId readable)
    :
    artifact ∈ evaluationArtifacts artifacts jobId ∧ (reader artifact).isSome = true ↔
      artifact = readable := by
  have hMem : artifact ∈ (evaluationArtifacts artifacts jobId).filter
      (fun artifact => (reader artifact).isSome) ↔ artifact ∈ [readable] := by
    rw [h]
  rwa [mem_filter, mem_singleton] at hMem

def ComesFirst (reader : ArtifactReader) (artifacts : List ArtifactRecord) (jobId : String)
    (readable : ArtifactRecord) : Prop :=
  ∀ other ∈ evaluationArtifacts artifacts jobId, reader other = none →
    evaluationKey readable < evaluationKey other

theorem OnlyReadable.of_perm (h : OnlyReadable reader artifacts jobId readable)
    (hPerm : artifacts.Perm artifacts') : OnlyReadable reader artifacts' jobId readable := by
  have hFilter := (evaluationArtifacts_perm hPerm jobId).filter
    fun artifact => (reader artifact).isSome
  rw [h] at hFilter
  exact (singleton_perm.mp hFilter).symm

theorem mem_evaluationArtifacts :
    artifact ∈ evaluationArtifacts artifacts jobId ↔ artifact ∈ artifacts ∧
      artifact.jobId = some jobId ∧ pathName artifact.uri = evaluationFilename := by
  rw [evaluationArtifacts, mem_sortOn, mem_filter, decide_eq_true_eq]

section

variable (hOnly : OnlyReadable reader artifacts jobId readable)
include hOnly

theorem ComesFirst.firstEvaluation
    (h : ComesFirst reader artifacts jobId readable) :
    firstEvaluation artifacts jobId = some readable := by
  obtain ⟨hMem, _⟩ := hOnly.mem_iff.mpr rfl
  cases hFirst : Comparison.firstEvaluation artifacts jobId with
  | none =>
    have hNil := List.head?_eq_none_iff.mp hFirst
    rw [hNil] at hMem
    cases hMem
  | some first =>
    obtain ⟨hIn, hLe⟩ := le_of_head?_sortOn hFirst
    have hFirstMem : first ∈ evaluationArtifacts artifacts jobId := mem_sortOn.mpr hIn
    cases hRead : reader first with
    | none =>
      exact absurd (hLe readable (mem_sortOn.mp hMem)) (not_le.mpr (h first hFirstMem hRead))
    | some _ =>
      rw [hOnly.mem_iff.mp ⟨hFirstMem, by rw [hRead]; rfl⟩]

/-- Where it does not, in some order of the artifacts one counts that cannot be read. -/
theorem exists_unreadable_first
    (h : ¬ ComesFirst reader artifacts jobId readable) :
    ∃ artifacts' first, artifacts.Perm artifacts' ∧
      firstEvaluation artifacts' jobId = some first ∧ reader first = none := by
  unfold ComesFirst at h
  push Not at h
  obtain ⟨other, hOther, hUnread, hLe⟩ := h
  obtain ⟨hIn, hJobName⟩ := mem_evaluationArtifacts.mp hOther
  have hPerm : artifacts.Perm (other :: artifacts.erase other) := perm_cons_erase hIn
  have hCons : evaluationArtifacts (other :: artifacts.erase other) jobId =
      sortOn evaluationKey (other :: (artifacts.erase other).filter fun artifact =>
        artifact.jobId = some jobId ∧ pathName artifact.uri = evaluationFilename) :=
    congrArg (sortOn evaluationKey) (filter_cons_of_pos (decide_eq_true hJobName))
  obtain ⟨first, hFirst⟩ : ∃ first,
      firstEvaluation (other :: artifacts.erase other) jobId = some first := by
    rw [firstEvaluation, ← ne_none_iff_exists', ne_eq, List.head?_eq_none_iff]
    apply ne_nil_of_mem
    rw [hCons, mem_sortOn]
    exact mem_cons_self
  refine ⟨_, first, hPerm, hFirst, ?_⟩
  have hFirstMem : first ∈ evaluationArtifacts artifacts jobId :=
    (evaluationArtifacts_perm hPerm jobId).mem_iff.mpr (mem_of_head? hFirst)
  rw [firstEvaluation, hCons] at hFirst
  rcases head?_sortOn_cons hFirst with rfl | hLt
  · exact hUnread
  · by_contra hRead
    have hEq : first = readable :=
      hOnly.mem_iff.mp ⟨hFirstMem, isSome_iff_ne_none.mpr hRead⟩
    rw [hEq] at hLt
    exact absurd hLe (not_le.mpr hLt)

end

/-- A job of which exactly one evaluation can be read: in every order in which the artifacts may be
listed, the report shows the verdict of that evaluation for the job, exactly if it comes before the
other evaluations of the job by its place and its digest. -/
theorem verdict_shown_iff
    (hReport : buildComparisonReport run contract jobs artifacts reader = some report)
    (hJob : Covered contract jobs job) (hOnly : OnlyReadable reader artifacts job.jobId readable)
    (hRead : reader readable = some evaluation) :
    (∀ artifacts' report', artifacts.Perm artifacts' →
        buildComparisonReport run contract jobs artifacts' reader = some report' →
        ∀ document ∈ report'.jobDocuments, document.jobId = job.jobId →
          ShowsVerdict document readable evaluation) ↔
      ComesFirst reader artifacts job.jobId readable := by
  constructor
  · intro hShown
    by_contra hNot
    obtain ⟨artifacts', first, hPerm, hFirst, hUnread⟩ := exists_unreadable_first hOnly hNot
    obtain ⟨report', hReport'⟩ := exists_report hReport artifacts'
    have hShows := hShown artifacts' report' hPerm hReport' _
      ((mem_jobDocuments hReport').mpr ⟨job, hJob, rfl⟩) rfl
    have hEvidence : jobEvidence artifacts' reader job.jobId =
        ⟨some first, (some first).bind reader⟩ := by
      rw [← hFirst]
      rfl
    rw [hEvidence] at hShows
    exact not_showsVerdict_of_unreadable hUnread hShows
  · intro hFirst artifacts' report' hPerm hReport' document hDocument hId
    obtain ⟨other, _, rfl⟩ := (mem_jobDocuments hReport').mp hDocument
    have hSameId : other.jobId = job.jobId := hId
    have hComesFirst : ComesFirst reader artifacts' job.jobId readable := fun a ha =>
      hFirst a ((evaluationArtifacts_perm hPerm job.jobId).mem_iff.mpr ha)
    have hEvidence : jobEvidence artifacts' reader other.jobId =
        ⟨some readable, (some readable).bind reader⟩ := by
      rw [hSameId, ← hComesFirst.firstEvaluation (hOnly.of_perm hPerm)]
      rfl
    rw [hEvidence]
    exact showsVerdict_of_evidence hRead

end InputOrder

def currentReader (current : Char) : ArtifactReader := fun artifact =>
  if artifact.sha256 = trialDigest current then
    some [("integrity_pass", .scalar (.bool true)), ("comparison_key", .scalar (.str "split"))]
  else none

/-- The evaluation of a job was recorded, written again, and recorded again at the same place. -/
def rewrittenEvaluation (before after : Char) : List ArtifactRecord :=
  [⟨some "a", "a/evaluation.json", trialDigest before, none⟩,
    ⟨some "a", "a/evaluation.json", trialDigest after, none⟩]

def verdictsOf (report : ComparisonReport) (jobId : String) : List (Option Bool) :=
  (report.jobDocuments.filter fun document => document.jobId = jobId).map
    JobDocument.integrityPass

theorem verdict_shown_rewritten : ∃ report,
    buildComparisonReport trialRun trialContract trialJobs (rewrittenEvaluation 'f' 'e')
        (currentReader 'e') = some report ∧
      ∀ document ∈ report.jobDocuments, document.jobId = "a" →
        ShowsVerdict document ⟨some "a", "a/evaluation.json", trialDigest 'e', none⟩
          [("integrity_pass", .scalar (.bool true)),
    ("comparison_key", .scalar (.str "split"))] := by
  have hSome : (buildComparisonReport trialRun trialContract trialJobs
      (rewrittenEvaluation 'f' 'e') (currentReader 'e')).isSome = true := by
    decide +kernel
  obtain ⟨report, hReport⟩ := isSome_iff_exists.mp hSome
  have hJob : Covered trialContract trialJobs (trialJob "a" "linear" 1 .succeeded) := by
    refine ⟨?_, [trialRequirement], rfl, trialRequirement, by simp, by decide, by decide⟩
    decide +kernel
  have hOnly : OnlyReadable (currentReader 'e') (rewrittenEvaluation 'f' 'e') "a"
      ⟨some "a", "a/evaluation.json", trialDigest 'e', none⟩ := by
    unfold OnlyReadable
    decide +kernel
  have hFirst : ComesFirst (currentReader 'e') (rewrittenEvaluation 'f' 'e') "a"
      ⟨some "a", "a/evaluation.json", trialDigest 'e', none⟩ := by
    unfold ComesFirst
    decide +kernel
  exact ⟨report, hReport, (verdict_shown_iff hReport hJob hOnly (by decide +kernel)).mpr hFirst _ _
    (Perm.refl _) hReport⟩

/-- The record of the first writing has the smaller digest, and hides that of the second one. -/
theorem rewritten_evaluation_hidden :
    OnlyReadable (currentReader 'f') (rewrittenEvaluation 'e' 'f') "a"
      ⟨some "a", "a/evaluation.json", trialDigest 'f', none⟩ ∧
    (buildComparisonReport trialRun trialContract trialJobs (rewrittenEvaluation 'e' 'f')
      (currentReader 'f')).map (verdictsOf · "a") = some [none] := by
  unfold OnlyReadable
  exact ⟨by decide +kernel, by decide +kernel⟩

end Glasslab.Comparison
