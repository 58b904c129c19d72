import Glasslab.Evidence.Duplicates

/-!
# The order of retention

Trimming drops logs and tables first, then the inventory, the jobs, states and reports, and at last
evaluations, metrics and comparisons (`dropStage`). But a content that is dropped takes its
duplicates with it, whatever files they are of. The order is kept where no content that trimming
comes to has a better protected duplicate, states and reports apart that nothing else of their rank
outlives (`retentionOrder_kept`).
-/

namespace Glasslab.Evidence

open Foundation List

structure RetentionOrder (full snapshot : Snapshot) : Prop where
  /-- Where an entry of an evaluation, of metrics or of a comparison is omitted, nothing else is
  left. -/
  verbatim : ∀ uri, dropRank uri = 2 →
    withUri uri snapshot.artifactContents ≠ withUri uri full.artifactContents →
      snapshot.artifacts = [] ∧ snapshot.jobs = [] ∧
        ∀ entry ∈ snapshot.artifactContents, dropRank entry.uri = 2
  /-- Where a job is omitted, no log, table or inventory entry is left. -/
  jobs : snapshot.jobs ≠ full.jobs →
    snapshot.artifacts = [] ∧ ∀ entry ∈ snapshot.artifactContents, dropRank entry.uri ≠ 0

/-- The same of the content that stands first at a uri, and the entries after it. -/
def LayeredAt (entries : List ContentEntry) (uri : String) : Prop :=
  ∀ low verbatim, Shared entries low verbatim → low.uri = uri → dropRank verbatim.uri = 2 →
    dropRank uri ≠ 0 ∧ (dropRank uri = 1 → ∀ other ∈ entries, dropRank other.uri = 1 →
      uri ≤ other.uri → hasContentOf low.key other = true)

/-- Contents are layered where they are shared within a rank only. -/
theorem layeredAt_of_ranks {entries : List ContentEntry}
    (h : ∀ x ∈ entries, ∀ y ∈ entries, x.key = y.key → dropRank x.uri = dropRank y.uri)
    (uri : String) : LayeredAt entries uri := by
  rintro low verbatim hShared rfl hRank
  obtain ⟨before, after, rfl, _, hVerbatim⟩ := hShared.split
  have hKey := (hasContentOf_eq_true.mp hShared.shares).2
  have hSame : dropRank low.uri = 2 :=
    (h low (by simp) verbatim (by simp [hVerbatim]) hKey.symm).trans hRank
  exact ⟨by omega, fun hOne => by omega⟩

theorem dropRank_le_two (uri : String) : dropRank uri ≤ 2 := by
  unfold dropRank
  split
  · omega
  · split <;> omega

variable {full : Snapshot}

section Stages

variable {before after : List Candidate} {candidate : Candidate}
  {dependents : List (String × String)}

section

variable (hRanked : ∀ entry ∈ full.artifactContents, Ranked (entryFilename entry))
  (hCandidates : full.dropOrder = before ++ after) (hMem : candidate ∈ before)
include hRanked hCandidates hMem

/-- When a candidate has been dropped, nothing of an earlier stage is left. -/
theorem left_eq_zero_of_stage (dependents : List (String × String)) {kind : CandidateKind}
    {key : String} (hStage : dropStage kind key < dropStage candidate.kind candidate.key) :
    (full.without dependents before).left kind key = 0 := by
  refine left_eq_zero_of_candidatesWith hRanked hCandidates dependents ?_
  refine countP_eq_zero.mpr fun other hOther hIs => ?_
  obtain ⟨hKind, hKey⟩ := of_decide_eq_true hIs
  have hStaged := pairwise_dropOrder full
  rw [hCandidates] at hStaged
  have hLater := ((pairwise_append.mp hStaged).2.2 candidate hMem other hOther).1
  rw [hKind, hKey] at hLater
  omega

theorem artifacts_eq_nil_of_stage (hStage : 1 < dropStage candidate.kind candidate.key) :
    (full.without dependents before).snapshot.artifacts = [] :=
  eq_nil_of_countP_eq_zero fun key =>
    left_eq_zero_of_stage hRanked hCandidates hMem dependents
      (show dropStage .artifacts key < dropStage candidate.kind candidate.key from hStage)

theorem jobs_eq_nil_of_stage (hStage : 2 < dropStage candidate.kind candidate.key) :
    (full.without dependents before).snapshot.jobs = [] :=
  eq_nil_of_countP_eq_zero fun key =>
    left_eq_zero_of_stage hRanked hCandidates hMem dependents
      (show dropStage .jobs key < dropStage candidate.kind candidate.key from hStage)

theorem stage_le_of_left {entry : ContentEntry}
    (hEntry : entry ∈ (full.without dependents before).snapshot.artifactContents) :
    dropStage candidate.kind candidate.key ≤ dropStage .artifactContents entry.uri := by
  by_contra hNot
  have hZero := left_eq_zero_of_stage hRanked hCandidates hMem dependents (not_le.mp hNot)
  exact countP_eq_zero.mp hZero entry hEntry (decide_eq_true rfl)

end

theorem foldl_drop_kept {α : Type} {f : Snapshot → α} (t : Trimming)
    (h : ∀ candidate ∈ before, ∀ t : Trimming,
      f (t.drop dependents candidate).snapshot = f t.snapshot) :
    f (before.foldl (Trimming.drop dependents) t).snapshot = f t.snapshot := by
  induction before generalizing t with
  | nil => rfl
  | cons candidate rest ih =>
    rw [foldl_cons, ih _ fun other hMem => h other (mem_cons_of_mem _ hMem)]
    exact h candidate mem_cons_self t

theorem jobs_drop (h : candidate.kind ≠ .jobs) (t : Trimming) :
    (t.drop dependents candidate).snapshot.jobs = t.snapshot.jobs := by
  cases hKind : candidate.kind <;> simp_all [Trimming.drop]

end Stages

/-! ## Where the order is kept -/

variable {collected : Collected}

section Kept

variable {entries : List ContentEntry} {before after : List Candidate}

/-- A state or report is dropped, and every one that is dropped no earlier has the same content:
no state or report is left. -/
theorem CollectedFrom.withUri_eq_nil_of_layered (h : CollectedFrom entries collected)
    {key : String × String} {dropped other : String}
    (hFirst : collected.firstUri key = some dropped)
    (hSame : ∀ entry ∈ entries, entry.uri = other → hasContentOf key entry = true)
    {contents : List ContentEntry} (hSub : contents.Sublist collected.contents)
    (hPresent : withUri dropped contents ≠ []) :
    withUri other (dropContentEntry contents collected.dependents dropped).1 = [] := by
  rw [withUri_dropContentEntry collected.dependents hPresent]
  apply drop_eq_nil_of_le
  have hLength : (withUri other contents).length ≤ (withUri other collected.contents).length :=
    (hSub.filter _).length_le
  refine hLength.trans (h.length_withUri_le_of_held hFirst fun entry hMem hUri => ?_)
  obtain ⟨source, hSource, hLabel⟩ := h.exists_entry hMem
  have hHas := hSame source hSource ((congrArg Label.uri hLabel).trans hUri)
  simp only [hasContentOf, Bool.decide_and, Bool.and_eq_true, decide_eq_true_eq] at hHas
  refine ⟨(congrArg Label.key hLabel).symm.trans hHas.2, ?_⟩
  rw [← hLabel]
  simp [ContentEntry.label, hHas.1]

theorem withUri_eq_nil_of_sublist {contents contents' : List ContentEntry} {uri : String}
    (hSub : contents.Sublist contents') (h : withUri uri contents' = []) :
    withUri uri contents = [] := by
  have hFilter : (withUri uri contents).Sublist (withUri uri contents') := hSub.filter _
  rw [h] at hFilter
  exact sublist_nil.mp hFilter

theorem CollectedFrom.retentionOrder_foldl_drop (h : CollectedFrom entries collected)
    (hFresh : ∀ entry ∈ entries, entry.body.reference = none)
    (hLayered : ∀ candidate ∈ before, candidate.kind = .artifactContents →
      LayeredAt entries candidate.key)
    (hFull : full.artifactContents = collected.contents)
    (hRanked : ∀ entry ∈ full.artifactContents, Ranked (entryFilename entry))
    (hCandidates : full.dropOrder = before ++ after) :
    RetentionOrder full (full.without collected.dependents before).snapshot := by
  constructor
  · intro uri hRank hChanged
    obtain ⟨early, candidate, late, rfl, hKind, hPresent, hCount⟩ := exists_removing hChanged
    have hMem : candidate ∈ early ++ candidate :: late := by simp
    have hStage : dropStage candidate.kind candidate.key =
        if dropRank candidate.key = 0 then 0 else dropRank candidate.key + 2 := by
      rw [hKind]
      rfl
    by_cases hVerbatim : dropRank candidate.key = 2
    · rw [hVerbatim, if_neg (by omega)] at hStage
      refine ⟨artifacts_eq_nil_of_stage hRanked hCandidates hMem (by omega),
        jobs_eq_nil_of_stage hRanked hCandidates hMem (by omega), fun entry hEntry => ?_⟩
      have hLeft := stage_le_of_left hRanked hCandidates hMem hEntry
      have hLe := dropRank_le_two entry.uri
      rw [hStage, dropStage_contents] at hLeft
      split at hLeft <;> omega
    · -- the entry is a duplicate of a less protected one
      have hApart : candidate.key ≠ uri := by
        rintro rfl
        exact hVerbatim hRank
      rw [count_cons_of_ne hApart, h.dependents] at hCount
      obtain ⟨duplicate, hDuplicate, hRefers⟩ :=
        countP_pos_iff.mp (Nat.pos_of_ne_zero hCount)
      rw [mem_withUri] at hDuplicate
      have hReference : duplicate.body.reference = some candidate.key := by
        simpa [refersTo] using hRefers
      obtain ⟨low, high, hShared, hLowUri, hHighUri, hKey⟩ :=
        h.exists_shared hFresh hDuplicate.1 hReference
      obtain ⟨hNotLog, hState⟩ := hLayered candidate hMem hKind low high hShared hLowUri
        (by rw [hHighUri, hDuplicate.2]; exact hRank)
      have hOne : dropRank candidate.key = 1 := by
        have hLe := dropRank_le_two candidate.key
        omega
      rw [hOne, if_neg (by omega)] at hStage
      refine ⟨artifacts_eq_nil_of_stage hRanked hCandidates hMem (by omega),
        jobs_eq_nil_of_stage hRanked hCandidates hMem (by omega), fun entry hEntry => ?_⟩
      have hLeft := stage_le_of_left hRanked hCandidates hMem hEntry
      rw [hStage, dropStage_contents] at hLeft
      by_contra hNotTwo
      have hEntryRank : dropRank entry.uri = 1 := by
        have hLe := dropRank_le_two entry.uri
        split at hLeft <;> omega
      rw [append_assoc, cons_append] at hCandidates
      -- the states and reports that come first are gone, the other ones go with this one
      have hGone : withUri entry.uri (full.without collected.dependents
          (early ++ [candidate])).snapshot.artifactContents = [] := by
        have hSub := sublist_foldl_drop collected.dependents ⟨full, []⟩ early
        rw [without_concat, artifactContents_drop, if_pos hKind]
        by_cases hOrder : DropsNoLater candidate.key entry.uri
        · have hFirst : collected.firstUri low.key = some candidate.key := by
            rw [hKey]
            exact h.refers duplicate hDuplicate.1 _ hReference
          have hSame : ∀ other ∈ entries, other.uri = entry.uri →
              hasContentOf low.key other = true := by
            intro other hOther hUri
            refine hState hOne other hOther (by rw [hUri, hEntryRank]) ?_
            rcases hOrder with hLt | ⟨_, hLe⟩
            · omega
            · rw [hUri]
              exact hLe
          exact h.withUri_eq_nil_of_layered hFirst hSame (hFull ▸ hSub) hPresent
        · refine withUri_eq_nil_of_sublist (sublist_dropContentEntry _ _ _) ?_
          exact withUri_eq_nil_of_dropped hRanked hCandidates hKind hOrder
      have hSplit : early ++ candidate :: late = (early ++ [candidate]) ++ late := by simp
      rw [Snapshot.without] at hGone
      rw [hSplit, Snapshot.without, foldl_append] at hEntry
      have hIn := mem_withUri.mpr ⟨hEntry, rfl⟩
      rw [withUri_eq_nil_of_sublist (sublist_foldl_drop _ _ late) hGone] at hIn
      cases hIn
  · intro hChanged
    obtain ⟨candidate, hMem, hKind⟩ : ∃ candidate ∈ before, candidate.kind = .jobs := by
      by_contra hNone
      push Not at hNone
      exact hChanged (foldl_drop_kept _ fun candidate hMem => jobs_drop (hNone candidate hMem))
    have hStage : dropStage candidate.kind candidate.key = 2 := by
      rw [hKind]
      rfl
    refine ⟨artifacts_eq_nil_of_stage hRanked hCandidates hMem (by omega), fun entry hEntry => ?_⟩
    have hLeft := stage_le_of_left hRanked hCandidates hMem hEntry
    intro hZero
    rw [hStage, dropStage_contents, if_pos hZero] at hLeft
    omega

end Kept

namespace Arranged

variable {low : ContentEntry} {last : String} {near far : List ContentEntry}
  {before after : List Candidate}

end Arranged

/-! ## By every measure of size -/

theorem retentionOrder_note {full snapshot : Snapshot} {note : Option TruncationNote} :
    RetentionOrder full { snapshot with truncation := note } ↔ RetentionOrder full snapshot :=
  ⟨fun h => ⟨h.verbatim, h.jobs⟩, fun h => ⟨h.verbatim, h.jobs⟩⟩

section Store

variable (settings : Settings) (files : Files) (phase : EvidencePhase) (jobs : List StoredJob)

theorem retentionOrder_buildEvidenceSnapshot (full : Snapshot) (size : Snapshot → Nat)
    (maxBytes : Option Nat) (artifacts : List StoredArtifact) :
    RetentionOrder full (buildEvidenceSnapshot settings files size phase maxBytes jobs artifacts) ↔
      RetentionOrder full
        (trimmed settings files phase jobs size maxBytes artifacts).snapshot := by
  obtain ⟨note, hBuild⟩ := buildEvidenceSnapshot_eq size maxBytes artifacts
  rw [hBuild]
  exact retentionOrder_note

variable {settings files phase jobs} {artifacts : List StoredArtifact}

/-- The snapshot that is returned keeps the order of retention where the excerpts are layered at
every uri that trimming comes to. -/
theorem retentionOrder_kept (settings : Settings) (files : Files) (phase : EvidencePhase)
    (jobs : List StoredJob) (artifacts : List StoredArtifact) (size : Snapshot → Nat)
    (maxBytes : Option Nat)
    (hLayered : ∀ uri, TrimsAt size (snapshotBudget settings maxBytes)
      (fullSnapshot settings files phase jobs artifacts).1
      (fullSnapshot settings files phase jobs artifacts).2 uri →
        LayeredAt (excerpts settings files (visibleRecords phase artifacts)) uri) :
    RetentionOrder (fullSnapshot settings files phase jobs artifacts).1
      (buildEvidenceSnapshot settings files size phase maxBytes jobs artifacts) := by
  have hFrom := collectedFrom_foldl collectedFrom_nil
    (fresh_excerpts settings files (visibleRecords phase artifacts))
  rw [nil_append, visibleRecords, ← collectContents_eq] at hFrom
  rw [retentionOrder_buildEvidenceSnapshot]
  obtain ⟨before, after, hCandidates, hTrim, hComes⟩ :=
    exists_trimmed settings files phase jobs size
    maxBytes artifacts
  rw [hTrim]
  exact hFrom.retentionOrder_foldl_drop (fresh_excerpts settings files _)
    (fun candidate hMem hKind => hLayered candidate.key (hComes candidate hMem hKind)) rfl
    (ranked_fullSnapshot settings files phase jobs artifacts) hCandidates

end Store

def printedFiles : Files :=
  { metricsFiles with
    read := fun uri =>
      if uri = "job-1/runner.log" ∨ uri = "job-1/metrics.json" then some (asciiBytes metricsText)
      else none }

def jobArtifact (artifactId uri : String) : StoredArtifact where
  artifactId := artifactId
  jobId := some "job-1"
  type := "artifact"
  uri := uri
  sha256 := metricsDigest
  createdAt := 0

/-- Both files were listed without a name. -/
def printedArtifacts : List StoredArtifact :=
  [jobArtifact "a-1" "job-1/runner.log", jobArtifact "a-2" "job-1/metrics.json"]

/-- The log is dropped first and takes the metrics with it; the inventory is left. -/
theorem metrics_dropped_with_log :
    ¬ RetentionOrder (fullSnapshot {} printedFiles .analysis [] printedArtifacts).1
      (buildEvidenceSnapshot {} printedFiles evidenceByteSize .analysis (some 1024) []
        printedArtifacts) := by
  intro h
  have hLeft : ((buildEvidenceSnapshot {} printedFiles evidenceByteSize .analysis (some 1024) []
        printedArtifacts).artifacts.map ArtifactRecord.uri,
      (buildEvidenceSnapshot {} printedFiles evidenceByteSize .analysis (some 1024) []
        printedArtifacts).artifactContents.map ContentEntry.uri) =
      (["job-1/runner.log", "job-1/metrics.json"], []) := by
    decide +kernel
  obtain ⟨hArtifacts, hContents⟩ := Prod.mk.inj hLeft
  have hFull : (withUri "artifact://job-1/metrics.json" (fullSnapshot {} printedFiles .analysis []
      printedArtifacts).1.artifactContents).length = 1 := by
    decide +kernel
  have hRank : dropRank "artifact://job-1/metrics.json" = 2 := by
    decide +kernel
  obtain ⟨hNone, _⟩ := h.verbatim "artifact://job-1/metrics.json" hRank (by
    intro hSame
    rw [← hSame, map_eq_nil_iff.mp hContents] at hFull
    cases hFull)
  rw [hNone] at hArtifacts
  cases hArtifacts

/-- The first metrics are dropped with their copy when the logs and the inventory are gone; the
other metrics are left. -/
theorem retentionOrder_kept_copied :
    RetentionOrder (fullSnapshot {} copiedFiles .analysis [] copiedArtifacts).1
      (buildEvidenceSnapshot {} copiedFiles evidenceByteSize .analysis (some 1400) []
        copiedArtifacts) := by
  have hRanks : let entries := excerpts {} copiedFiles (visibleRecords .analysis copiedArtifacts)
      ∀ x ∈ entries, ∀ y ∈ entries, x.key = y.key → dropRank x.uri = dropRank y.uri := by
    decide +kernel
  exact retentionOrder_kept {} copiedFiles .analysis [] copiedArtifacts evidenceByteSize (some 1400)
    fun uri _ => layeredAt_of_ranks hRanks uri

end Glasslab.Evidence
