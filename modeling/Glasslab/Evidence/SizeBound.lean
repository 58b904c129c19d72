import Glasslab.Evidence.Snapshot

/-!
# The size of an evidence snapshot

A snapshot never exceeds its budget, whatever is stored (`size_buildEvidenceSnapshot_le`). Trimming
stops at the first snapshot that fits. If it runs out of candidates, nothing is left but the note:
every entry has a candidate, and there are as many candidates for a uri as there are contents with
it. The note is then shortened until the snapshot fits or the note has no references, and such a
note takes less than the smallest budget.

Of the size nothing is used but this last fact.
-/

namespace Glasslab.Evidence

open Foundation Methodology List

variable {size : Snapshot → Nat} {budget : Nat} {dependents : List (String × String)}
  {t : Trimming} {candidates : List Candidate} {candidate : Candidate}

theorem trim_fits_or_exhausted (size : Snapshot → Nat) (budget : Nat)
    (dependents : List (String × String)) (t : Trimming) (candidates : List Candidate) :
    size (trim size budget dependents t candidates).provisional ≤ budget ∨
      trim size budget dependents t candidates = candidates.foldl (Trimming.drop dependents) t := by
  induction candidates generalizing t with
  | nil => exact .inr rfl
  | cons candidate rest ih =>
    unfold trim
    split
    next hFits => exact .inl hFits
    next => exact ih (t.drop dependents candidate)

theorem trim_keeps {P : Trimming → Prop} (hStart : P t)
    (hDrop : ∀ t, ∀ candidate ∈ candidates, P t → P (t.drop dependents candidate)) :
    P (trim size budget dependents t candidates) := by
  induction candidates generalizing t with
  | nil => exact hStart
  | cons candidate rest ih =>
    unfold trim
    split
    next => exact hStart
    next =>
      refine ih (hDrop t candidate mem_cons_self hStart) fun t other hMem ht => ?_
      exact hDrop t other (mem_cons_of_mem _ hMem) ht

def Trimming.left (t : Trimming) : CandidateKind → String → Nat
  | .artifactContents, key => t.snapshot.artifactContents.countP fun entry => entry.uri = key
  | .artifacts, key => t.snapshot.artifacts.countP fun artifact => artifact.uri = key
  | .jobs, key => t.snapshot.jobs.countP fun job => job.jobId = key

variable {key : String} {α : Type} {f : α → String} {dropped : String} {xs : List α}

theorem countP_filter_ne_le :
    (xs.filter fun x => f x ≠ dropped).countP (fun x => f x = key) ≤
      xs.countP (fun x => f x = key) - if dropped = key then 1 else 0 := by
  split
  next hSame =>
    have hNone : (xs.filter fun x => f x ≠ dropped).countP (fun x => f x = key) = 0 := by
      refine countP_eq_zero.mpr fun x hx => ?_
      have hOther := (mem_filter.mp hx).2
      rw [hSame] at hOther
      simpa using hOther
    omega
  next => exact filter_sublist.countP_le

theorem countP_removeEntry_le (state : List ContentEntry × List String) (uri key : String) :
    (removeEntry state uri).1.countP (fun entry => entry.uri = key) ≤
      state.1.countP (fun entry => entry.uri = key) - if uri = key then 1 else 0 := by
  unfold removeEntry
  split
  next hAny =>
    obtain ⟨entry, hMem, hUri⟩ := any_eq_true.mp hAny
    obtain ⟨found, before, after, _, hFound, hList, hErased⟩ :=
      exists_of_eraseP (p := fun entry : ContentEntry => decide (entry.uri = uri)) hMem hUri
    rw [hErased, hList]
    have hFoundUri : found.uri = uri := by simpa using hFound
    simp only [countP_append, countP_cons, hFoundUri, decide_eq_true_eq]
    omega
  next hNone =>
    split
    next hSame =>
      have hZero : state.1.countP (fun entry => entry.uri = key) = 0 := by
        refine countP_eq_zero.mpr fun entry hMem hUri => ?_
        exact hNone (any_eq_true.mpr ⟨entry, hMem, by rw [hSame]; exact hUri⟩)
      omega
    next => exact le_rfl

theorem countP_foldl_removeEntry_le {state : List ContentEntry × List String} {uris : List String} :
    (uris.foldl removeEntry state).1.countP (fun entry => entry.uri = key) ≤
      state.1.countP (fun entry => entry.uri = key) := by
  induction uris generalizing state with
  | nil => exact le_rfl
  | cons uri rest ih =>
    have hStep := countP_removeEntry_le state uri key
    have hRest := @ih (removeEntry state uri)
    rw [foldl_cons]
    omega

theorem countP_dropContentEntry_le {contents : List ContentEntry} :
    (dropContentEntry contents dependents dropped).1.countP (fun entry => entry.uri = key) ≤
      contents.countP (fun entry => entry.uri = key) - if dropped = key then 1 else 0 := by
  have hRemoved := countP_removeEntry_le (contents, []) dropped key
  unfold dropContentEntry
  split
  next => exact countP_foldl_removeEntry_le.trans hRemoved
  next hNone =>
    have hSame : removeEntry (contents, []) dropped = (contents, []) := if_neg hNone
    rw [hSame] at hRemoved
    exact hRemoved

/-- A dropped candidate takes one entry with its key, if there is one, and none comes back. -/
theorem left_drop_le (dependents : List (String × String)) (t : Trimming) (candidate : Candidate)
    (kind : CandidateKind) (key : String) :
    (t.drop dependents candidate).left kind key ≤
      t.left kind key - if candidate.kind = kind ∧ candidate.key = key then 1 else 0 := by
  cases hKind : candidate.kind <;> cases kind <;>
    simp only [Trimming.drop, hKind, Trimming.left, reduceCtorEq, false_and, if_false,
      Nat.sub_zero, le_refl, true_and]
  · exact countP_dropContentEntry_le
  · exact countP_filter_ne_le
  · exact countP_filter_ne_le

theorem left_foldl_drop_le (dependents : List (String × String)) (t : Trimming)
    (candidates : List Candidate) (kind : CandidateKind) (key : String) :
    (candidates.foldl (Trimming.drop dependents) t).left kind key ≤
      t.left kind key - candidates.countP fun c => c.kind = kind ∧ c.key = key := by
  induction candidates generalizing t with
  | nil => exact le_rfl
  | cons candidate rest ih =>
    have hStep := left_drop_le dependents t candidate kind key
    have hRest := ih (t := t.drop dependents candidate)
    rw [foldl_cons, countP_cons]
    simp only [decide_eq_true_eq]
    omega

/-- The files whose contents have a place in the order of dropping. -/
def Ranked (filename : String) : Prop :=
  filename ∈ priority2Filenames ∨ filename ∈ priority1Filenames ∨ isVerbatim filename = true

def candidatesWith (candidates : List Candidate) (kind : CandidateKind) (key : String) : Nat :=
  candidates.countP fun candidate => candidate.kind = kind ∧ candidate.key = key

@[simp] theorem candidatesWith_append (xs ys : List Candidate) (kind : CandidateKind)
    (key : String) :
    candidatesWith (xs ++ ys) kind key =
      candidatesWith xs kind key + candidatesWith ys kind key :=
  countP_append

/-- There is a candidate for every entry of a list that is offered as a whole. -/
theorem candidatesWith_map_sortOn (xs : List α) (f : α → String) (kind : CandidateKind)
    (identifier : α → String) (key : String) :
    candidatesWith ((sortOn f xs).map fun x => ⟨kind, f x, identifier x⟩) kind key =
      xs.countP fun x => f x = key := by
  rw [candidatesWith, countP_map, (perm_sortOn f xs).countP_eq]
  refine countP_congr fun x _ => ?_
  simp

theorem candidatesWith_contentCandidates (contents : List ContentEntry) (named : String → Bool)
    (entry : ContentEntry) (hNamed : named (entryFilename entry) = true) :
    candidatesWith (contentCandidates contents named) .artifactContents entry.uri =
      contents.countP fun other => other.uri = entry.uri := by
  rw [contentCandidates, candidatesWith_map_sortOn, countP_filter]
  refine countP_congr fun other _ => ?_
  simp only [Bool.and_eq_true, decide_eq_true_eq, and_iff_left_iff_imp]
  intro hUri
  rw [entryFilename, hUri]
  exact hNamed

/-- Everything that can be dropped from a snapshot, in the order of dropping. -/
def Snapshot.dropOrder (full : Snapshot) : List Candidate :=
  dropCandidates full.jobs full.artifacts full.artifactContents

abbrev Candidate.content (uri : String) : Candidate := ⟨.artifactContents, uri, uri⟩

/-- A snapshot from which some candidates were dropped. -/
def Snapshot.without (full : Snapshot) (dependents : List (String × String))
    (dropped : List Candidate) : Trimming :=
  dropped.foldl (Trimming.drop dependents) ⟨full, []⟩

variable {full : Snapshot}

theorem without_concat (dropped : List Candidate) (candidate : Candidate) :
    full.without dependents (dropped ++ [candidate]) =
      (full.without dependents dropped).drop dependents candidate :=
  foldl_concat _ _ _ _

theorem left_le_candidatesWith
    (hRanked : ∀ entry ∈ full.artifactContents, Ranked (entryFilename entry))
    (kind : CandidateKind) (key : String) :
    (⟨full, []⟩ : Trimming).left kind key ≤
      candidatesWith full.dropOrder kind key := by
  simp only [Snapshot.dropOrder, dropCandidates, candidatesWith_append]
  cases kind with
  | jobs =>
    have hJobs := candidatesWith_map_sortOn full.jobs JobSummary.jobId .jobs
      (fun job => "job://" ++ job.jobId) key
    simp only [Trimming.left]
    omega
  | artifacts =>
    have hArtifacts := candidatesWith_map_sortOn full.artifacts ArtifactRecord.uri .artifacts
      (fun artifact => artifactUri artifact.uri) key
    simp only [Trimming.left]
    omega
  | artifactContents =>
    simp only [Trimming.left]
    rcases Nat.eq_zero_or_pos (full.artifactContents.countP fun entry => entry.uri = key)
      with hNone | hSome
    · omega
    · obtain ⟨entry, hMem, hUri⟩ := countP_pos_iff.mp hSome
      obtain rfl : entry.uri = key := by simpa using hUri
      rcases hRanked entry hMem with hName | hName | hName
      · have hCount := candidatesWith_contentCandidates full.artifactContents
          (· ∈ priority2Filenames) entry (decide_eq_true hName)
        omega
      · have hCount := candidatesWith_contentCandidates full.artifactContents
          (· ∈ priority1Filenames) entry (decide_eq_true hName)
        omega
      · have hCount := candidatesWith_contentCandidates full.artifactContents isVerbatim entry
          hName
        omega

theorem left_without_le (hRanked : ∀ entry ∈ full.artifactContents, Ranked (entryFilename entry))
    (dropped : List Candidate) (kind : CandidateKind) (key : String) :
    (full.without dependents dropped).left kind key ≤
      candidatesWith full.dropOrder kind key - candidatesWith dropped kind key :=
  (left_foldl_drop_le dependents ⟨full, []⟩ dropped kind key).trans
    (Nat.sub_le_sub_right (left_le_candidatesWith hRanked kind key) _)

theorem eq_nil_of_countP_eq_zero
    (h : ∀ key, xs.countP (fun x => f x = key) = 0) : xs = [] := by
  cases xs with
  | nil => rfl
  | cons x xs => exact absurd (h (f x)) (by simp)

theorem exhausted_empty (hRanked : ∀ entry ∈ full.artifactContents, Ranked (entryFilename entry))
    (ht : t = full.without dependents full.dropOrder) :
    t.snapshot.jobs = [] ∧ t.snapshot.artifacts = [] ∧ t.snapshot.artifactContents = [] := by
  have hLeft (kind : CandidateKind) (key : String) : t.left kind key = 0 := by
    have hDropped := @left_without_le dependents _ hRanked full.dropOrder kind key
    rw [← ht] at hDropped
    omega
  exact ⟨eq_nil_of_countP_eq_zero (hLeft .jobs), eq_nil_of_countP_eq_zero (hLeft .artifacts),
    eq_nil_of_countP_eq_zero (hLeft .artifactContents)⟩

section Full

variable (settings : Settings) (files : Files) (phase : EvidencePhase) (jobs : List StoredJob)
  (artifacts visible : List StoredArtifact)

theorem afterScheme_artifactUri (uri : String) : afterScheme (artifactUri uri) = uri := by
  have hList : (artifactUri uri).toList = "artifact://".toList ++ uri.toList := by
    simp [artifactUri]
  have hFind : afterScheme.find ("artifact://".toList ++ uri.toList) = some uri.toList := rfl
  rw [afterScheme, hList, hFind]
  simp

theorem collectEntry_contents (collected : Collected) (entry : ContentEntry) :
    ∃ body, (collectEntry collected entry).contents =
      collected.contents ++ [{ entry with body := body }] := by
  unfold collectEntry
  split
  · split
    · exact ⟨entry.body, rfl⟩
    · exact ⟨_, rfl⟩
  · exact ⟨entry.body, rfl⟩

theorem collectContents_contents :
    (collectContents settings files visible).contents.length ≤ visible.length ∧
      ∀ entry ∈ (collectContents settings files visible).contents,
        ∃ artifact ∈ visible, entry.uri = artifactUri artifact.uri := by
  induction visible using List.reverseRecOn with
  | nil => exact ⟨le_rfl, nofun⟩
  | append_singleton visible artifact ih =>
    obtain ⟨hLength, hUris⟩ := ih
    have hOlder : ∀ entry ∈ (collectContents settings files visible).contents,
        ∃ artifact' ∈ visible ++ [artifact], entry.uri = artifactUri artifact'.uri := by
      intro entry hMem
      obtain ⟨older, hOlder, hUri⟩ := hUris entry hMem
      exact ⟨older, mem_append_left _ hOlder, hUri⟩
    rw [length_append, length_singleton]
    cases hExcerpt : artifactExcerpt settings files artifact.toArtifactRecord with
    | none =>
      have hStep : collectContents settings files (visible ++ [artifact]) =
          collectContents settings files visible := by
        simp only [collectContents, foldl_append, foldl_cons, foldl_nil, hExcerpt]
      rw [hStep]
      exact ⟨by omega, hOlder⟩
    | some entry =>
      have hStep : collectContents settings files (visible ++ [artifact]) =
          collectEntry (collectContents settings files visible) entry := by
        simp only [collectContents, foldl_append, foldl_cons, foldl_nil, hExcerpt]
      rw [hStep]
      obtain ⟨bytes, _, rfl⟩ := Option.map_eq_some_iff.mp hExcerpt
      obtain ⟨body, hContents⟩ := collectEntry_contents (collectContents settings files visible)
        { uri := artifactUri artifact.uri
          type := artifact.type
          sha256 := artifact.sha256
          body :=
            if files.sha256 bytes ≠ artifact.sha256 then .unavailable
            else readExcerpt settings files artifact.toArtifactRecord bytes }
      rw [hContents, length_append, length_singleton]
      refine ⟨by omega, fun other hMem => ?_⟩
      rcases mem_append.mp hMem with hMem | hMem
      · exact hOlder other hMem
      · rw [mem_singleton.mp hMem]
        exact ⟨artifact, mem_append_right _ mem_cons_self, rfl⟩

variable {phase artifacts} in
theorem ranked_of_mem_phaseFilenames {filename : String} (h : filename ∈ phaseFilenames phase) :
    Ranked filename := by
  have hAll : ∀ phase, ∀ filename ∈ phaseFilenames phase, filename ∈ priority2Filenames ∨
      filename ∈ priority1Filenames ∨ isVerbatim filename = true := by
    intro phase
    cases phase <;> decide
  exact hAll phase filename h

variable {phase artifacts} in
theorem ranked_of_mem_visibleArtifacts {artifact : StoredArtifact}
    (h : artifact ∈ visibleArtifacts artifacts (phaseFilenames phase)) :
    Ranked (fileName artifact.uri) := by
  have hVisible := (mem_filter.mp h).2
  split at hVisible
  next hComparison =>
    refine .inr (.inr ?_)
    simp [isVerbatim, hComparison]
  next => exact ranked_of_mem_phaseFilenames (of_decide_eq_true hVisible)

theorem ranked_fullSnapshot :
    ∀ entry ∈ (fullSnapshot settings files phase jobs artifacts).1.artifactContents,
      Ranked (entryFilename entry) := by
  intro entry hMem
  obtain ⟨artifact, hVisible, hUri⟩ := (collectContents_contents settings files _).2 entry hMem
  rw [entryFilename, hUri, afterScheme_artifactUri]
  exact ranked_of_mem_visibleArtifacts hVisible

end Full

/-! ## What the note counts -/

def references (full : Snapshot) : List String :=
  full.artifactContents.map ContentEntry.uri ++
    full.artifacts.map (fun artifact => artifactUri artifact.uri) ++
    full.jobs.map fun job => "job://" ++ job.jobId

/-- Only entries of the snapshot were dropped, and each is noted once. -/
structure DroppedFrom (full : Snapshot) (t : Trimming) : Prop where
  nodup : t.dropped.Nodup
  known : ∀ reference ∈ t.dropped, reference ∈ references full
  contents : ∀ entry ∈ t.snapshot.artifactContents, entry ∈ full.artifactContents
  unnoted : t.snapshot.truncation = none

theorem foldl_removeEntry (uris : List String) (state : List ContentEntry × List String) :
    (∀ entry ∈ (uris.foldl removeEntry state).1, entry ∈ state.1) ∧
      ∀ uri ∈ (uris.foldl removeEntry state).2,
        uri ∈ state.2 ∨ ∃ entry ∈ state.1, entry.uri = uri := by
  induction uris generalizing state with
  | nil => exact ⟨fun _ h => h, fun _ h => .inl h⟩
  | cons uri rest ih =>
    obtain ⟨hLeft, hRemoved⟩ := ih (removeEntry state uri)
    have hStep : (∀ entry ∈ (removeEntry state uri).1, entry ∈ state.1) ∧
        ∀ removed ∈ (removeEntry state uri).2,
          removed ∈ state.2 ∨ ∃ entry ∈ state.1, entry.uri = removed := by
      unfold removeEntry
      split
      next hAny =>
        obtain ⟨entry, hMem, hUri⟩ := any_eq_true.mp hAny
        refine ⟨fun _ h => mem_of_mem_eraseP h, fun removed h => ?_⟩
        rcases mem_append.mp h with h | h
        · exact .inl h
        · rw [mem_singleton.mp h]
          exact .inr ⟨entry, hMem, of_decide_eq_true hUri⟩
      next => exact ⟨fun _ h => h, fun _ h => .inl h⟩
    refine ⟨fun entry h => hStep.1 entry (hLeft entry h), fun removed h => ?_⟩
    rcases hRemoved removed h with h | ⟨entry, hMem, hUri⟩
    · exact hStep.2 removed h
    · exact .inr ⟨entry, hStep.1 entry hMem, hUri⟩

theorem dropContentEntry_spec (contents : List ContentEntry)
    (dependents : List (String × String)) (key : String) :
    (∀ entry ∈ (dropContentEntry contents dependents key).1, entry ∈ contents) ∧
      ∀ uri ∈ (dropContentEntry contents dependents key).2,
        ∃ entry ∈ contents, entry.uri = uri := by
  unfold dropContentEntry
  split
  next =>
    obtain ⟨hLeft, hRemoved⟩ := foldl_removeEntry
      (key :: (dependents.filter fun pair => pair.1 = key).map Prod.snd) (contents, [])
    refine ⟨hLeft, fun uri h => ?_⟩
    rcases hRemoved uri h with h | h
    · cases h
    · exact h
  next => exact ⟨fun _ h => h, nofun⟩

variable {dropped : List String}

theorem nodup_recordDropped (h : dropped.Nodup) (reference : String) :
    (recordDropped dropped reference).Nodup := by
  unfold recordDropped
  split
  next => exact h
  next hNew =>
    have hApart : ∀ other ∈ dropped, other ≠ reference := fun _ h => ne_of_mem_of_not_mem h hNew
    exact nodup_append.mpr ⟨h, nodup_singleton _, by simpa using hApart⟩

theorem mem_recordDropped {reference other : String} (h : other ∈ recordDropped dropped reference) :
    other ∈ dropped ∨ other = reference := by
  unfold recordDropped at h
  split at h
  · exact .inl h
  · simpa using h

theorem foldl_recordDropped {removed : List String} (h : dropped.Nodup) :
    (removed.foldl recordDropped dropped).Nodup ∧
      ∀ reference ∈ removed.foldl recordDropped dropped,
        reference ∈ dropped ∨ reference ∈ removed := by
  induction removed generalizing dropped with
  | nil => exact ⟨h, fun _ h => .inl h⟩
  | cons reference rest ih =>
    obtain ⟨hNodup, hMem⟩ := ih (nodup_recordDropped h reference)
    refine ⟨hNodup, fun other hOther => ?_⟩
    rcases hMem other hOther with hOther | hOther
    · rcases mem_recordDropped hOther with hOther | rfl
      · exact .inl hOther
      · exact .inr mem_cons_self
    · exact .inr (mem_cons_of_mem _ hOther)

/-- A candidate outside the contents refers to an entry of the snapshot. -/
theorem identifier_mem_references
    (h : candidate ∈ full.dropOrder)
    (hKind : candidate.kind ≠ .artifactContents) : candidate.identifier ∈ references full := by
  have hContents : ∀ named, candidate ∉ contentCandidates full.artifactContents named := by
    intro named hMem
    obtain ⟨entry, _, rfl⟩ := mem_map.mp hMem
    exact hKind rfl
  simp only [Snapshot.dropOrder, dropCandidates, mem_append, hContents, false_or, or_false, mem_map,
    mem_sortOn] at h
  simp only [references, mem_append, mem_map]
  rcases h with ⟨artifact, hMem, rfl⟩ | ⟨job, hMem, rfl⟩
  · exact .inl (.inr ⟨artifact, hMem, rfl⟩)
  · exact .inr ⟨job, hMem, rfl⟩

theorem DroppedFrom.drop (h : DroppedFrom full t)
    (hCandidate : candidate ∈ full.dropOrder) :
    DroppedFrom full (t.drop dependents candidate) := by
  have hRecord (hKind : candidate.kind ≠ .artifactContents) :
      ∀ reference ∈ recordDropped t.dropped candidate.identifier, reference ∈ references full := by
    intro reference hMem
    rcases mem_recordDropped hMem with hMem | rfl
    · exact h.known reference hMem
    · exact identifier_mem_references hCandidate hKind
  cases hKind : candidate.kind with
  | artifactContents =>
    obtain ⟨hLeft, hRemoved⟩ :=
      dropContentEntry_spec t.snapshot.artifactContents dependents candidate.key
    simp only [Trimming.drop, hKind]
    refine ⟨(foldl_recordDropped h.nodup).1, fun reference hMem => ?_, fun entry hMem => ?_,
      h.unnoted⟩
    · rcases (foldl_recordDropped h.nodup).2 reference hMem with hMem | hMem
      · exact h.known reference hMem
      · obtain ⟨entry, hEntry, rfl⟩ := hRemoved reference hMem
        refine mem_append_left _ (mem_append_left _ ?_)
        exact mem_map_of_mem (h.contents entry hEntry)
    · exact h.contents entry (hLeft entry hMem)
  | artifacts =>
    have hKnown := hRecord (by simp [hKind])
    simp only [Trimming.drop, hKind]
    exact ⟨nodup_recordDropped h.nodup _, hKnown, h.contents, h.unnoted⟩
  | jobs =>
    have hKnown := hRecord (by simp [hKind])
    simp only [Trimming.drop, hKind]
    exact ⟨nodup_recordDropped h.nodup _, hKnown, h.contents, h.unnoted⟩

theorem DroppedFrom.length_le (h : DroppedFrom full t) :
    t.dropped.length ≤ (references full).length :=
  (h.nodup.subperm h.known).length_le

/-! ## The note -/

/-- A note without references, for so many omitted entries. -/
def bareNote (omitted : Nat) : TruncationNote := ⟨[], omitted, some omitted⟩

/-- The notes that the loop goes through. -/
structure Shortened (omitted : Nat) (note : TruncationNote) : Prop where
  count : note.omittedCount = omitted
  bare : note.omittedReferences = [] → note.omittedMoreCount = some omitted

theorem Shortened.halve {omitted : Nat} {note : TruncationNote} (h : Shortened omitted note)
    (hPos : 0 < omitted) : Shortened omitted note.halve where
  count := h.count
  bare hBare := by
    have hLength : note.halve.omittedReferences.length = 0 := length_eq_zero_iff.mpr hBare
    simp only [TruncationNote.halve] at hLength ⊢
    rw [hLength, h.count, if_pos hPos, Nat.sub_zero]

theorem shorten_fits_or_bare (size : Snapshot → Nat) (budget : Nat) (snapshot : Snapshot)
    {omitted : Nat} (hPos : 0 < omitted) (note : TruncationNote) (h : Shortened omitted note) :
    size { snapshot with truncation := some (shorten size budget snapshot note) } ≤ budget ∨
      shorten size budget snapshot note = bareNote omitted := by
  induction note using shorten.induct size budget snapshot with
  | case1 note hLarge ih =>
    rw [shorten, if_pos hLarge]
    exact ih (h.halve hPos)
  | case2 note hDone =>
    rw [shorten, if_neg hDone]
    by_cases hBare : note.omittedReferences = []
    · refine .inr ?_
      obtain ⟨references, count, more⟩ := note
      obtain ⟨rfl, hMore⟩ := h
      dsimp only at hBare hMore
      rw [hMore hBare, hBare]
      rfl
    · exact .inl (not_lt.mp fun hLarge => hDone ⟨hBare, hLarge⟩)

theorem shortened_truncationNote (h : dropped ≠ []) :
    Shortened dropped.length (truncationNote dropped) where
  count := rfl
  bare hBare := by
    rcases take_eq_nil_iff.mp hBare with hNone | hNil
    · cases hNone
    · exact absurd hNil h

/-- The end of `build_evidence_snapshot`: the note is added, and shortened where it must be. -/
theorem size_trimmed_le (hFull : full.truncation = none)
    (hRanked : ∀ entry ∈ full.artifactContents, Ranked (entryFilename entry))
    (hEmpty : size ⟨[], [], [], none⟩ ≤ budget)
    (hBare : ∀ omitted ≤ (references full).length,
      size ⟨[], [], [], some (bareNote omitted)⟩ ≤ budget)
    (ht : t = trim size budget dependents ⟨full, []⟩
      full.dropOrder) :
    size (if t.dropped = [] then t.snapshot
      else { t.snapshot with
        truncation := some (shorten size budget t.snapshot (truncationNote t.dropped)) }) ≤
      budget := by
  have hDropped : DroppedFrom full t := by
    rw [ht]
    exact trim_keeps ⟨nodup_nil, nofun, fun _ h => h, hFull⟩ fun _ _ hMem h => h.drop hMem
  have hTrim := trim_fits_or_exhausted size budget dependents ⟨full, []⟩
    full.dropOrder
  rw [← ht] at hTrim
  rcases hTrim with hFits | hExhausted
  · -- the note that was measured is the one that is added
    unfold Trimming.provisional at hFits
    split at hFits
    next hNone =>
      rw [if_pos hNone]
      exact hFits
    next hSome =>
      have hNote : shorten size budget t.snapshot (truncationNote t.dropped) =
          truncationNote t.dropped := by
        rw [shorten, if_neg fun hLarge => not_lt.mpr hFits hLarge.2]
      rw [if_neg hSome, hNote]
      exact hFits
  · obtain ⟨hJobs, hArtifacts, hContents⟩ := exhausted_empty hRanked hExhausted
    have hSnapshot : t.snapshot = ⟨[], [], [], none⟩ := by
      rw [← hJobs, ← hArtifacts, ← hContents, ← hDropped.unnoted]
    split
    next => rw [hSnapshot]; exact hEmpty
    next hSome =>
      have hPos := length_pos_iff.mpr hSome
      rcases shorten_fits_or_bare size budget t.snapshot hPos (truncationNote t.dropped)
        (shortened_truncationNote hSome) with hFits | hNote
      · exact hFits
      · rw [hNote, hSnapshot]
        exact hBare _ hDropped.length_le

section Bound

variable (settings : Settings) (files : Files) (phase : EvidencePhase) (jobs : List StoredJob)
  (artifacts : List StoredArtifact)

theorem length_references_fullSnapshot_le :
    (references (fullSnapshot settings files phase jobs artifacts).1).length ≤
      jobs.length + 2 * artifacts.length := by
  have hVisible : (visibleArtifacts artifacts (phaseFilenames phase)).length ≤ artifacts.length :=
    length_filter_le _ _
  have hContents := (collectContents_contents settings files
    (visibleArtifacts artifacts (phaseFilenames phase))).1
  simp only [references, fullSnapshot, length_append, length_map]
  omega

/-- Whatever the jobs, the artifacts and their files are, the snapshot that is built fits a budget
of at least `EVIDENCE_SNAPSHOT_MIN_BYTES`, with its note. The size may be any one for which an empty
snapshot, and one that holds nothing but a bare note, is below that. -/
theorem size_buildEvidenceSnapshot_le (size : Snapshot → Nat) (maxBytes : Option Nat)
    (hBudget : evidenceSnapshotMinBytes ≤ snapshotBudget settings maxBytes)
    (hEmpty : size ⟨[], [], [], none⟩ < evidenceSnapshotMinBytes)
    (hBare : ∀ omitted ≤ jobs.length + 2 * artifacts.length,
      size ⟨[], [], [], some (bareNote omitted)⟩ < evidenceSnapshotMinBytes) :
    size (buildEvidenceSnapshot settings files size phase maxBytes jobs artifacts) ≤
      snapshotBudget settings maxBytes := by
  have hLength := length_references_fullSnapshot_le settings files phase jobs artifacts
  refine size_trimmed_le rfl (ranked_fullSnapshot settings files phase jobs artifacts)
    (hEmpty.le.trans hBudget) (fun omitted hOmitted => ?_) rfl
  exact (hBare omitted (hOmitted.trans hLength)).le.trans hBudget

end Bound

def metricsText : String := "\x7b\"accuracy\": 1\x7d"

def asciiBytes (text : String) : List UInt8 := text.toList.map fun c => c.toNat.toUInt8

def metricsDigest : String := "a9a1118bd29a1113df8170b31eec892bcd705ec1df48c40c2ae0a0ad896306e8"

def metricsFiles : Files where
  read uri := if uri = "run-1/job-1/metrics.json" then some (asciiBytes metricsText) else none
  sha256 bytes := if bytes = asciiBytes metricsText then metricsDigest else ""
  decode bytes := String.ofList (bytes.map fun b => Char.ofNat b.toNat)
  loads text := if text = metricsText then some (.map [("accuracy", .scalar (.int 1))]) else none

def metricsArtifact (artifactId : String) : StoredArtifact where
  artifactId := artifactId
  jobId := some "job-1"
  type := "metrics"
  uri := "run-1/job-1/metrics.json"
  sha256 := metricsDigest
  createdAt := 0

theorem evidenceByteSize_metrics_le :
    evidenceByteSize (buildEvidenceSnapshot {} metricsFiles evidenceByteSize .analysis (some 1024)
      [] [metricsArtifact "artifact-1", metricsArtifact "artifact-2"]) ≤ 1024 :=
  size_buildEvidenceSnapshot_le {} metricsFiles .analysis []
    [metricsArtifact "artifact-1", metricsArtifact "artifact-2"] evidenceByteSize (some 1024)
    (by decide) (by decide +kernel) (by decide +kernel)

end Glasslab.Evidence
