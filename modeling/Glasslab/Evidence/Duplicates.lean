import Glasslab.Evidence.SizeBound

/-!
# Duplicates in an evidence snapshot

An entry whose content an earlier one has refers to it by its uri, and trimming takes the entries
that refer to a content away with it. Both go by uris alone: whatever is removed, it is the first
entry that is left with the uri. A snapshot is therefore known by how many entries of each uri were
removed (`withUri_dropContentEntry`), and no reference dangles where at every uri that trimming
comes to the entries agree (`neverDangling`).
-/

namespace Glasslab.Evidence

open Foundation Methodology List

def EntryBody.hasContent : EntryBody → Bool
  | excerpt .. => true
  | _ => false

def EntryBody.reference : EntryBody → Option String
  | duplicate _ _ _ uri => some uri
  | _ => none

/-- Contents are told apart by their digest and their type. -/
def ContentEntry.key (entry : ContentEntry) : String × String := (entry.sha256, entry.type)

def Resolved (contents : List ContentEntry) : Prop :=
  ∀ entry ∈ contents, ∀ uri, entry.body.reference = some uri →
    ∃ other ∈ contents, other.uri = uri ∧ other.sha256 = entry.sha256 ∧
      other.type = entry.type ∧ other.body.hasContent = true

def withUri (uri : String) (contents : List ContentEntry) : List ContentEntry :=
  contents.filter fun entry => entry.uri = uri

variable {uri : String} {contents : List ContentEntry} {entry : ContentEntry}

@[simp] theorem mem_withUri :
    entry ∈ withUri uri contents ↔ entry ∈ contents ∧ entry.uri = uri := by
  simp [withUri]

theorem withUri_removeEntry (state : List ContentEntry × List String) (removed uri : String) :
    withUri uri (removeEntry state removed).1 =
      (withUri uri state.1).drop (if removed = uri then 1 else 0) := by
  unfold removeEntry
  split
  next hAny =>
    obtain ⟨entry, hMem, hUri⟩ := any_eq_true.mp hAny
    obtain ⟨found, before, after, hBefore, hFound, hList, hErased⟩ :=
      exists_of_eraseP (p := fun entry : ContentEntry => decide (entry.uri = removed)) hMem hUri
    have hFoundUri : found.uri = removed := by simpa using hFound
    rw [hErased, hList]
    unfold withUri
    by_cases hSame : removed = uri
    · have hNone : before.filter (fun entry => entry.uri = uri) = [] := by
        refine filter_eq_nil_iff.mpr fun entry hEntry => ?_
        rw [← hSame]
        exact hBefore entry hEntry
      simp [filter_append, hNone, hFoundUri, hSame]
    · simp [filter_append, hFoundUri, hSame]
  next hNone =>
    split
    next hSame =>
      have hNil : withUri uri state.1 = [] := by
        refine filter_eq_nil_iff.mpr fun entry hMem hUri => ?_
        exact hNone (any_eq_true.mpr ⟨entry, hMem, by rw [hSame]; exact hUri⟩)
      rw [hNil, drop_nil]
    next => rfl

theorem withUri_foldl_removeEntry (uris : List String) (state : List ContentEntry × List String)
    (uri : String) :
    withUri uri (uris.foldl removeEntry state).1 = (withUri uri state.1).drop (uris.count uri) := by
  induction uris generalizing state with
  | nil => rfl
  | cons removed rest ih =>
    rw [foldl_cons, ih, withUri_removeEntry, drop_drop, count_cons]
    by_cases hSame : removed = uri
    · simp [hSame, Nat.add_comm]
    · simp [hSame]

def dependentsOf (dependents : List (String × String)) (uri : String) : List String :=
  (dependents.filter fun pair => pair.1 = uri).map Prod.snd

/-- What a drop leaves of the entries with a uri: all but as many, from the front, as it is asked to
remove. -/
theorem withUri_dropContentEntry (dependents : List (String × String)) {dropped : String}
    (hPresent : withUri dropped contents ≠ []) (uri : String) :
    withUri uri (dropContentEntry contents dependents dropped).1 =
      (withUri uri contents).drop ((dropped :: dependentsOf dependents dropped).count uri) := by
  obtain ⟨entry, hMem⟩ := exists_mem_of_ne_nil _ hPresent
  rw [mem_withUri] at hMem
  have hAny : (contents.any fun entry => entry.uri = dropped) = true :=
    any_eq_true.mpr ⟨entry, hMem.1, decide_eq_true hMem.2⟩
  rw [dropContentEntry, if_pos hAny]
  exact withUri_foldl_removeEntry (dropped :: dependentsOf dependents dropped) (contents, []) uri

variable {dependents : List (String × String)}

theorem dropContentEntry_of_absent {dropped : String} (hAbsent : withUri dropped contents = []) :
    (dropContentEntry contents dependents dropped).1 = contents := by
  have hAny : ¬ (contents.any fun entry => entry.uri = dropped) = true := by
    intro hAny
    obtain ⟨entry, hMem, hUri⟩ := any_eq_true.mp hAny
    exact filter_eq_nil_iff.mp hAbsent entry hMem hUri
  rw [dropContentEntry, if_neg hAny]

/-! ## The entries that were collected -/

/-- What an entry keeps when its content is replaced by a reference. -/
structure Label where
  uri : String
  key : String × String
  /-- The entry has its content, or had it. -/
  held : Bool

def ContentEntry.label (entry : ContentEntry) : Label :=
  ⟨entry.uri, entry.key, entry.body.hasContent || entry.body.reference.isSome⟩

/-- The uri of the first entry with a content. -/
def Collected.firstUri (collected : Collected) (key : String × String) : Option String :=
  collected.firstUris.lookup key

def refersTo (uri : String) (entry : ContentEntry) : Bool := entry.body.reference = some uri

def hasContentOf (key : String × String) (entry : ContentEntry) : Bool :=
  entry.body.hasContent ∧ entry.key = key

/-- What was collected from a list of excerpts: the same entries, where every content stands once,
and the other entries with it refer to the uri of that one. -/
structure CollectedFrom (entries : List ContentEntry) (collected : Collected) : Prop where
  labels : collected.contents.map ContentEntry.label = entries.map ContentEntry.label
  content : ∀ entry ∈ collected.contents, entry.body.hasContent = true →
    collected.firstUri entry.key = some entry.uri
  refers : ∀ entry ∈ collected.contents, ∀ uri, entry.body.reference = some uri →
    collected.firstUri entry.key = some uri
  first : ∀ key uri, collected.firstUri key = some uri →
    ∃ entry ∈ collected.contents, entry.uri = uri ∧ entry.key = key ∧
      entry.body.hasContent = true
  once : ∀ key, collected.contents.countP (hasContentOf key) ≤ 1
  origin : ∀ key, collected.firstUri key =
    (entries.find? (hasContentOf key)).map ContentEntry.uri
  dependents : ∀ referred uri, (dependentsOf collected.dependents referred).count uri =
    (withUri uri collected.contents).countP (refersTo referred)

theorem collectedFrom_nil : CollectedFrom [] {} where
  labels := rfl
  content := nofun
  refers := nofun
  first := nofun
  once _ := Nat.zero_le 1
  origin _ := rfl
  dependents _ _ := rfl

theorem dependentsOf_append (dependents : List (String × String)) (referred uri other : String) :
    dependentsOf (dependents ++ [(referred, uri)]) other =
      dependentsOf dependents other ++ if referred = other then [uri] else [] := by
  by_cases hSame : referred = other <;> simp [dependentsOf, hSame]

theorem withUri_append (uri : String) (contents : List ContentEntry) (entry : ContentEntry) :
    withUri uri (contents ++ [entry]) =
      withUri uri contents ++ if entry.uri = uri then [entry] else [] := by
  by_cases hSame : entry.uri = uri <;> simp [withUri, hSame]

variable {collected : Collected} {entries : List ContentEntry}

section

variable (h : CollectedFrom entries collected)
include h

theorem CollectedFrom.append_other
    (hContent : entry.body.hasContent = false) (hReference : entry.body.reference = none) :
    CollectedFrom (entries ++ [entry])
      { collected with contents := collected.contents ++ [entry] } where
  labels := by simp [h.labels]
  content other hMem hOther := by
    rcases mem_append.mp hMem with hMem | hMem
    · exact h.content other hMem hOther
    · rw [mem_singleton.mp hMem, hContent] at hOther
      cases hOther
  refers other hMem uri hOther := by
    rcases mem_append.mp hMem with hMem | hMem
    · exact h.refers other hMem uri hOther
    · rw [mem_singleton.mp hMem, hReference] at hOther
      cases hOther
  first key uri hFirst := by
    obtain ⟨other, hMem, hOther⟩ := h.first key uri hFirst
    exact ⟨other, mem_append_left _ hMem, hOther⟩
  once key := by simpa [hasContentOf, hContent] using h.once key
  origin key := by
    have hNone : [entry].find? (hasContentOf key) = none := by simp [hasContentOf, hContent]
    rw [find?_append, hNone, Option.or_none]
    exact h.origin key
  dependents referred uri := by
    rw [h.dependents, withUri_append, countP_append]
    split <;> simp [refersTo, hReference]

theorem CollectedFrom.append_first
    (hContent : entry.body.hasContent = true) (hReference : entry.body.reference = none)
    (hNew : collected.firstUri entry.key = none) :
    CollectedFrom (entries ++ [entry])
      { collected with
        contents := collected.contents ++ [entry]
        firstUris := collected.firstUris ++ [(entry.key, entry.uri)] } := by
  have hFirst (key : String × String) :
      (collected.firstUris ++ [(entry.key, entry.uri)]).lookup key =
        (collected.firstUri key).or (if key = entry.key then some entry.uri else none) := by
    rw [lookup_append, Collected.firstUri]
    by_cases hKey : key = entry.key
    · simp [hKey]
    · simp [hKey, List.lookup_cons, beq_eq_false_iff_ne.mpr hKey]
  refine ⟨?_, ?_, ?_, ?_, ?_, ?_, ?_⟩
  · simp [h.labels]
  · intro other hMem hOther
    dsimp only [Collected.firstUri]
    rw [hFirst]
    rcases mem_append.mp hMem with hMem | hMem
    · rw [h.content other hMem hOther, Option.some_or]
    · rw [mem_singleton.mp hMem, hNew, if_pos rfl, Option.none_or]
  · intro other hMem uri hOther
    dsimp only [Collected.firstUri]
    rw [hFirst]
    rcases mem_append.mp hMem with hMem | hMem
    · rw [h.refers other hMem uri hOther, Option.some_or]
    · rw [mem_singleton.mp hMem, hReference] at hOther
      cases hOther
  · intro key uri hLookup
    dsimp only [Collected.firstUri] at hLookup
    rw [hFirst] at hLookup
    cases hOld : collected.firstUri key with
    | some old =>
      rw [hOld, Option.some_or] at hLookup
      cases hLookup
      obtain ⟨other, hMem, hOther⟩ := h.first key uri hOld
      exact ⟨other, mem_append_left _ hMem, hOther⟩
    | none =>
      rw [hOld, Option.none_or] at hLookup
      split at hLookup
      next hKey =>
        cases hLookup
        exact ⟨entry, mem_append_right _ mem_cons_self, rfl, hKey.symm, hContent⟩
      next => cases hLookup
  · intro key
    rw [countP_append]
    by_cases hKey : entry.key = key
    · have hNone : collected.contents.countP (hasContentOf key) = 0 := by
        refine countP_eq_zero.mpr fun other hMem hOther => ?_
        simp only [hasContentOf, Bool.decide_and, Bool.and_eq_true, decide_eq_true_eq] at hOther
        have hOld := h.content other hMem hOther.1
        rw [hOther.2, ← hKey, hNew] at hOld
        cases hOld
      rw [hNone]
      exact (Nat.zero_add _).le.trans countP_le_length
    · have hOther : [entry].countP (hasContentOf key) = 0 := by simp [hasContentOf, hKey]
      rw [hOther]
      exact h.once key
  · intro key
    rw [Collected.firstUri, hFirst, h.origin, find?_append, Option.map_or]
    by_cases hKey : key = entry.key
    · simp [hasContentOf, hContent, hKey]
    · simp [hasContentOf, hContent, hKey, Ne.symm hKey]
  · intro referred uri
    rw [h.dependents, withUri_append, countP_append]
    split <;> simp [refersTo, hReference]

theorem CollectedFrom.append_duplicate {size : Nat} {truncated : Bool}
    {position : ExcerptPosition} {firstUri : String} (hContent : entry.body.hasContent = true)
    (hOld : collected.firstUri entry.key = some firstUri) :
    CollectedFrom (entries ++ [entry])
      { collected with
        contents := collected.contents ++
          [{ entry with body := .duplicate size truncated position firstUri }]
        dependents := collected.dependents ++ [(firstUri, entry.uri)] } where
  labels := by
    have hLabel : entry.label = ⟨entry.uri, entry.key, true⟩ := by
      rw [ContentEntry.label, hContent, Bool.true_or]
    simp only [map_append, h.labels, map_cons, hLabel]
    rfl
  content other hMem hOther := by
    rcases mem_append.mp hMem with hMem | hMem
    · exact h.content other hMem hOther
    · rw [mem_singleton.mp hMem] at hOther
      cases hOther
  refers other hMem uri hOther := by
    rcases mem_append.mp hMem with hMem | hMem
    · exact h.refers other hMem uri hOther
    · rw [mem_singleton.mp hMem] at hOther ⊢
      cases hOther
      exact hOld
  first key uri hFirst := by
    obtain ⟨other, hMem, hOther⟩ := h.first key uri hFirst
    exact ⟨other, mem_append_left _ hMem, hOther⟩
  once key := by simpa [hasContentOf, EntryBody.hasContent] using h.once key
  origin key := by
    refine (h.origin key).trans ?_
    rw [find?_append]
    by_cases hKey : entry.key = key
    · rw [← hKey, Option.or_of_isSome]
      rw [← Option.isSome_map, ← h.origin, hOld]
      rfl
    · have hNone : [entry].find? (hasContentOf key) = none := by simp [hasContentOf, hKey]
      rw [hNone, Option.or_none]
  dependents referred uri := by
    dsimp only
    rw [dependentsOf_append, count_append, h.dependents, withUri_append, countP_append]
    by_cases hReferred : firstUri = referred <;> by_cases hUri : entry.uri = uri <;>
      simp [refersTo, EntryBody.reference, hReferred, hUri]

theorem CollectedFrom.collectEntry
    (hFresh : entry.body.reference = none) :
    CollectedFrom (entries ++ [entry]) (collectEntry collected entry) := by
  unfold Evidence.collectEntry
  split
  next size truncated position content hBody =>
    have hContent : entry.body.hasContent = true := by rw [hBody]; rfl
    split
    next hNone => exact h.append_first hContent hFresh hNone
    next firstUri hSome => exact h.append_duplicate hContent hSome
  next hOther =>
    refine h.append_other ?_ hFresh
    cases hBody : entry.body with
    | excerpt size truncated position content =>
      exact absurd hBody (hOther size truncated position content)
    | unavailable | omitted | duplicate => rfl

theorem collectedFrom_foldl {more : List ContentEntry}
    (hFresh : ∀ entry ∈ more, entry.body.reference = none) :
    CollectedFrom (entries ++ more) (more.foldl collectEntry collected) := by
  induction more generalizing entries collected with
  | nil => simpa using h
  | cons entry more ih =>
    have hStep := h.collectEntry (hFresh entry mem_cons_self)
    have hRest := ih hStep fun other hMem => hFresh other (mem_cons_of_mem _ hMem)
    simpa using hRest

end

def dropRank (uri : String) : Nat :=
  if fileName (afterScheme uri) ∈ priority2Filenames then 0
  else if fileName (afterScheme uri) ∈ priority1Filenames then 1
  else 2

/-- Contents are dropped by their rank, and by their uri within a rank. -/
def DropsNoLater (uri other : String) : Prop :=
  dropRank uri < dropRank other ∨ dropRank uri = dropRank other ∧ uri ≤ other

def dropStage (kind : CandidateKind) (key : String) : Nat :=
  match kind with
  | .artifactContents => if dropRank key = 0 then 0 else dropRank key + 2
  | .artifacts => 1
  | .jobs => 2

theorem dropStage_contents (uri : String) :
    dropStage .artifactContents uri = if dropRank uri = 0 then 0 else dropRank uri + 2 := rfl

def OfStage (stage : Nat) (candidates : List Candidate) : Prop :=
  ∀ candidate ∈ candidates, dropStage candidate.kind candidate.key = stage

/-- The stages of candidates do not decrease, and their contents come in the order of dropping. -/
def MayPrecede (x y : Candidate) : Prop :=
  dropStage x.kind x.key ≤ dropStage y.kind y.key ∧
    (x.kind = .artifactContents → y.kind = .artifactContents → DropsNoLater x.key y.key)

section Candidates

variable {stage : Nat} {xs ys : List Candidate}

theorem OfStage.pairwise (h : OfStage stage xs)
    (hKeys : xs.Pairwise fun x y => x.kind = .artifactContents → x.key ≤ y.key) :
    xs.Pairwise MayPrecede := by
  refine hKeys.imp_of_mem fun {x y} hx hy hKey => ?_
  have hSame := (h x hx).trans (h y hy).symm
  refine ⟨hSame.le, fun hKindX hKindY => .inr ⟨?_, hKey hKindX⟩⟩
  rw [hKindX, hKindY, dropStage_contents, dropStage_contents] at hSame
  split at hSame <;> split at hSame <;> omega

theorem OfStage.pairwise_append (h : OfStage stage ys) (hy : ys.Pairwise MayPrecede)
    (hx : xs.Pairwise MayPrecede) (hBelow : ∀ x ∈ xs, dropStage x.kind x.key < stage) :
    (xs ++ ys).Pairwise MayPrecede ∧
      ∀ x ∈ xs ++ ys, dropStage x.kind x.key < stage + 1 := by
  refine ⟨List.pairwise_append.mpr ⟨hx, hy, fun x hMemX y hMemY => ?_⟩,
    forall_mem_append.mpr ⟨fun x hMem => (hBelow x hMem).trans stage.lt_succ_self,
      fun y hMem => (h y hMem).trans_lt stage.lt_succ_self⟩⟩
  have hLt := (hBelow x hMemX).trans_eq (h y hMemY).symm
  refine ⟨hLt.le, fun hKindX hKindY => .inl ?_⟩
  rw [hKindX, hKindY, dropStage_contents, dropStage_contents] at hLt
  split at hLt <;> split at hLt <;> omega

theorem contentCandidates_ofStage {contents : List ContentEntry} {named : String → Bool}
    (h : ∀ uri, named (fileName (afterScheme uri)) = true →
      dropStage .artifactContents uri = stage) :
    OfStage stage (contentCandidates contents named) ∧
      (contentCandidates contents named).Pairwise MayPrecede := by
  have hStage : OfStage stage (contentCandidates contents named) := by
    intro candidate hMem
    obtain ⟨entry, hEntry, rfl⟩ := mem_map.mp hMem
    exact h entry.uri (mem_filter.mp (mem_sortOn.mp hEntry)).2
  refine ⟨hStage, hStage.pairwise (pairwise_map.mpr ?_)⟩
  refine (pairwise_sortOn ContentEntry.uri _).imp fun hKey => ?_
  exact fun _ => hKey

theorem map_ofStage {α : Type} {f : α → Candidate} (items : List α)
    (h : ∀ x, dropStage (f x).kind (f x).key = stage)
    (hOther : ∀ x, (f x).kind ≠ .artifactContents) :
    OfStage stage (items.map f) ∧ (items.map f).Pairwise MayPrecede := by
  have hStage : OfStage stage (items.map f) := forall_mem_map.mpr fun x _ => h x
  refine ⟨hStage, hStage.pairwise (pairwise_map.mpr ?_)⟩
  exact pairwise_of_forall fun x _ hKind => absurd hKind (hOther x)

end Candidates

theorem dropRank_of_mem_priority1
    (h : decide (fileName (afterScheme uri) ∈ priority1Filenames) = true) : dropRank uri = 1 := by
  have hMem := of_decide_eq_true h
  have hApart : ∀ filename ∈ priority1Filenames, filename ∉ priority2Filenames := by decide
  rw [dropRank, if_neg (hApart _ hMem), if_pos hMem]

theorem dropRank_of_isVerbatim (h : isVerbatim (fileName (afterScheme uri)) = true) :
    dropRank uri = 2 := by
  have hApart : ∀ filename ∈ priority1Filenames ++ priority2Filenames,
      isVerbatim filename = false := by decide
  have hOther : fileName (afterScheme uri) ∉ priority1Filenames ++ priority2Filenames := by
    intro hMem
    rw [hApart _ hMem] at h
    cases h
  rw [mem_append, not_or] at hOther
  rw [dropRank, if_neg hOther.2, if_neg hOther.1]

theorem pairwise_dropOrder (full : Snapshot) : full.dropOrder.Pairwise MayPrecede := by
  have hRank {uri : String} {rank : Nat} (h : dropRank uri = rank) :
      dropStage .artifactContents uri = if rank = 0 then 0 else rank + 2 := by
    rw [dropStage_contents, h]
  obtain ⟨hFirst, hFirstOrdered⟩ := @contentCandidates_ofStage 0 full.artifactContents
    (· ∈ priority2Filenames) fun _ h => hRank (if_pos (of_decide_eq_true h))
  obtain ⟨hFourth, hFourthOrdered⟩ := @contentCandidates_ofStage 3 full.artifactContents
    (· ∈ priority1Filenames) fun _ h => hRank (dropRank_of_mem_priority1 h)
  obtain ⟨hFifth, hFifthOrdered⟩ := @contentCandidates_ofStage 4 full.artifactContents
    isVerbatim fun _ h => hRank (dropRank_of_isVerbatim h)
  unfold Snapshot.dropOrder dropCandidates
  generalize hArtifacts : (sortOn ArtifactRecord.uri full.artifacts).map _ = artifactCandidates
  generalize hJobs : (sortOn JobSummary.jobId full.jobs).map _ = jobCandidates
  obtain ⟨hSecond, hSecondOrdered⟩ : OfStage 1 artifactCandidates ∧
      artifactCandidates.Pairwise MayPrecede := by
    rw [← hArtifacts]
    refine map_ofStage _ (fun _ => rfl) fun _ => ?_
    simp
  obtain ⟨hThird, hThirdOrdered⟩ : OfStage 2 jobCandidates ∧
      jobCandidates.Pairwise MayPrecede := by
    rw [← hJobs]
    refine map_ofStage _ (fun _ => rfl) fun _ => ?_
    simp
  obtain ⟨hOrdered, hBelow⟩ := hSecond.pairwise_append hSecondOrdered hFirstOrdered fun x hx =>
    (hFirst x hx).trans_lt Nat.one_pos
  obtain ⟨hOrdered, hBelow⟩ := hThird.pairwise_append hThirdOrdered hOrdered hBelow
  obtain ⟨hOrdered, hBelow⟩ := hFourth.pairwise_append hFourthOrdered hOrdered hBelow
  exact (hFifth.pairwise_append hFifthOrdered hOrdered hBelow).1

/-! ## Entries that agree -/

/-- The first entry with a content, and one after it that has the same. -/
structure Shared (entries : List ContentEntry) (first second : ContentEntry) : Prop where
  split : ∃ before after, entries = before ++ first :: after ∧
    (∀ entry ∈ before, hasContentOf first.key entry = false) ∧ second ∈ after
  content : first.body.hasContent = true
  shares : hasContentOf first.key second = true

/-- Where the first entry with a content has a uri, and another one with it is dropped no earlier,
every entry with the uri of the other one has that content's digest and type. -/
def UnmixedAt (entries : List ContentEntry) (uri : String) : Prop :=
  ∀ first second, Shared entries first second → first.uri = uri → DropsNoLater uri second.uri →
    ∀ other ∈ entries, other.uri = second.uri → other.key = first.key

theorem hasContentOf_eq_true {key : String × String} :
    hasContentOf key entry = true ↔ entry.body.hasContent = true ∧ entry.key = key := by
  simp [hasContentOf]

/-- Entries with different uris agree. -/
theorem unmixedAt_of_nodup (h : (entries.map ContentEntry.uri).Nodup) (uri : String) :
    UnmixedAt entries uri := by
  intro first second hShared _ _ other hMem hUri
  obtain ⟨before, after, hEntries, _, hSecond⟩ := hShared.split
  have hIn : second ∈ entries := by
    rw [hEntries]
    exact mem_append_right _ (mem_cons_of_mem _ hSecond)
  rw [inj_on_of_nodup_map h hMem hIn hUri]
  exact (hasContentOf_eq_true.mp hShared.shares).2

theorem exists_perm_cons_cons {α : Type} {x y : α} {xs : List α} (hx : x ∈ xs) (hy : y ∈ xs)
    (hNe : x ≠ y) : ∃ rest, xs.Perm (x :: y :: rest) := by
  obtain ⟨before, after, rfl⟩ := append_of_mem hx
  have hRest : y ∈ before ++ after := by
    have hCases : y ∈ before ∨ y = x ∨ y ∈ after := by simpa using hy
    rcases hCases with h | h | h
    · exact mem_append_left _ h
    · exact absurd h.symm hNe
    · exact mem_append_right _ h
  obtain ⟨before', after', hSplit⟩ := append_of_mem hRest
  refine ⟨before' ++ after', perm_middle.trans (.cons x ?_)⟩
  rw [hSplit]
  exact perm_middle

section Unmixed

theorem CollectedFrom.exists_entry (h : CollectedFrom entries collected)
    (hMem : entry ∈ collected.contents) : ∃ other ∈ entries, other.label = entry.label := by
  have hLabel : entry.label ∈ entries.map ContentEntry.label := by
    rw [← h.labels]
    exact mem_map_of_mem hMem
  exact mem_map.mp hLabel

theorem hasContent_of_held (hFresh : entry.body.reference = none) (h : entry.label.held = true) :
    entry.body.hasContent = true := by
  simpa [ContentEntry.label, hFresh] using h

theorem held_of_refers (h : entry.body.reference = some uri) : entry.label.held = true := by
  simp [ContentEntry.label, h]

theorem ne_of_refers {other : ContentEntry} (hContent : other.body.hasContent = true)
    (hRefers : entry.body.reference = some uri) : other ≠ entry := by
  rintro rfl
  cases hBody : other.body with
  | excerpt => rw [hBody] at hRefers; cases hRefers
  | unavailable | omitted | duplicate => rw [hBody] at hContent; cases hContent

/-- An entry that refers to a uri shares the content that stands there first. -/
theorem CollectedFrom.exists_shared (h : CollectedFrom entries collected)
    (hFresh : ∀ entry ∈ entries, entry.body.reference = none)
    (hMem : entry ∈ collected.contents) (hRefers : entry.body.reference = some uri) :
    ∃ first second, Shared entries first second ∧ first.uri = uri ∧
      second.uri = entry.uri ∧ first.key = entry.key := by
  have hOrigin := (h.origin entry.key).symm.trans (h.refers entry hMem uri hRefers)
  obtain ⟨first, hFind, rfl⟩ := Option.map_eq_some_iff.mp hOrigin
  obtain ⟨hFirst, before, after, hEntries, hBefore⟩ := find?_eq_some_iff_append.mp hFind
  obtain ⟨hContent, hKey⟩ := hasContentOf_eq_true.mp hFirst
  have hNone : ∀ other ∈ before, hasContentOf first.key other = false := by
    intro other hOther
    rw [hKey]
    simpa using hBefore other hOther
  -- the content and the entry that refers to it are two entries with this digest and type
  obtain ⟨holder, hHolder, hHolderUri, hHolderKey, hHolderContent⟩ :=
    h.first _ _ (h.refers entry hMem first.uri hRefers)
  have hLabel : holder.label = first.label := by
    simp only [ContentEntry.label, hHolderUri, hHolderKey, hKey, hContent, hHolderContent,
      Bool.true_or]
  obtain ⟨rest, hPerm⟩ := exists_perm_cons_cons hHolder hMem (ne_of_refers hHolderContent hRefers)
  have hLabels : ((before ++ after).map ContentEntry.label).Perm
      (entry.label :: rest.map ContentEntry.label) := by
    have hAll := hPerm.map ContentEntry.label
    rw [h.labels, hEntries] at hAll
    have hMoved := (perm_middle.map ContentEntry.label).symm.trans hAll
    rw [map_cons, map_cons, map_cons, hLabel] at hMoved
    exact hMoved.cons_inv
  obtain ⟨second, hSecond, hSecondLabel⟩ :=
    mem_map.mp (hLabels.mem_iff.mpr mem_cons_self)
  have hSecondKey : second.key = first.key :=
    (congrArg Label.key hSecondLabel).trans hKey.symm
  have hSecondIn : second ∈ entries := by
    rw [hEntries]
    exact (perm_middle.mem_iff).mpr (mem_cons_of_mem _ hSecond)
  have hHeld : second.label.held = true := by
    rw [hSecondLabel]
    exact held_of_refers hRefers
  have hShares : hasContentOf first.key second = true :=
    hasContentOf_eq_true.mpr ⟨hasContent_of_held (hFresh second hSecondIn) hHeld, hSecondKey⟩
  refine ⟨first, second, ⟨⟨before, after, hEntries, hNone, ?_⟩, hContent, hShares⟩, rfl,
    congrArg Label.uri hSecondLabel, hKey⟩
  rcases mem_append.mp hSecond with hIn | hIn
  · rw [hNone second hIn] at hShares
    cases hShares
  · exact hIn

theorem CollectedFrom.key_eq_of_refers (h : CollectedFrom entries collected)
    (hFresh : ∀ entry ∈ entries, entry.body.reference = none) (hUnmixed : UnmixedAt entries uri)
    (hMem : entry ∈ collected.contents) (hRefers : entry.body.reference = some uri)
    (hOrder : DropsNoLater uri entry.uri) :
    ∀ other ∈ collected.contents, other.uri = entry.uri → other.key = entry.key := by
  intro other hOther hUri
  obtain ⟨first, second, hShared, hFirstUri, hSecondUri, hKey⟩ :=
    h.exists_shared hFresh hMem hRefers
  obtain ⟨source, hSource, hLabel⟩ := h.exists_entry hOther
  have hSourceUri : source.uri = other.uri := congrArg Label.uri hLabel
  have hSourceKey : source.key = other.key := congrArg Label.key hLabel
  rw [← hSourceKey, ← hKey]
  refine hUnmixed first second hShared hFirstUri ?_ source hSource ?_
  · rw [hSecondUri]
    exact hOrder
  · rw [hSourceUri, hUri, hSecondUri]

/-- As many entries are removed with a content as there are entries with a uri, where these all have
that content or had it. -/
theorem CollectedFrom.length_withUri_le_of_held (h : CollectedFrom entries collected)
    {key : String × String} {other : String} (hUri : collected.firstUri key = some uri)
    (hHeld : ∀ entry ∈ collected.contents, entry.uri = other →
      entry.key = key ∧ entry.label.held = true) :
    (withUri other collected.contents).length ≤
      (uri :: dependentsOf collected.dependents uri).count other := by
  have hCases : ∀ entry ∈ withUri other collected.contents,
      ¬ refersTo uri entry = true → hasContentOf key entry = true := by
    intro entry hEntry hNot
    rw [mem_withUri] at hEntry
    obtain ⟨hKey, hEntryHeld⟩ := hHeld entry hEntry.1 hEntry.2
    cases hReference : entry.body.reference with
    | some referred =>
      have hReferred := h.refers entry hEntry.1 referred hReference
      rw [hKey, hUri] at hReferred
      cases hReferred
      exact absurd (by simp [refersTo, hReference]) hNot
    | none => simp [hasContentOf, hasContent_of_held hReference hEntryHeld, hKey]
  have hRest : (withUri other collected.contents).countP
      (fun entry => ¬ refersTo uri entry = true) ≤ if uri = other then 1 else 0 := by
    refine (countP_mono_left fun entry hEntry hNot =>
      hCases entry hEntry (of_decide_eq_true hNot)).trans ?_
    split
    next => exact filter_sublist.countP_le.trans (h.once key)
    next hApart =>
      refine (countP_eq_zero.mpr fun entry hEntry hContent => ?_).le
      rw [mem_withUri] at hEntry
      simp only [hasContentOf, Bool.decide_and, Bool.and_eq_true, decide_eq_true_eq] at hContent
      have hFirst := h.content entry hEntry.1 hContent.1
      rw [hContent.2, hUri, hEntry.2] at hFirst
      exact hApart (Option.some.inj hFirst)
  have hLength := length_eq_countP_add_countP (refersTo uri)
    (l := withUri other collected.contents)
  rw [count_cons, h.dependents]
  simp only [beq_iff_eq]
  omega

theorem CollectedFrom.length_withUri_le (h : CollectedFrom entries collected)
    (hHeld : ∀ x ∈ entries, ∀ y ∈ entries, x.uri = y.uri → x.key = y.key → x.label = y.label)
    (hMem : entry ∈ collected.contents) (hRefers : entry.body.reference = some uri)
    (hKeys : ∀ other ∈ collected.contents, other.uri = entry.uri → other.key = entry.key) :
    (withUri entry.uri collected.contents).length ≤
      (uri :: dependentsOf collected.dependents uri).count entry.uri := by
  refine h.length_withUri_le_of_held (h.refers entry hMem uri hRefers) fun other hOther hUri => ?_
  have hKey := hKeys other hOther hUri
  obtain ⟨x, hx, hxLabel⟩ := h.exists_entry hOther
  obtain ⟨y, hy, hyLabel⟩ := h.exists_entry hMem
  have hSame : x.label = y.label := by
    refine hHeld x hx y hy ?_ ?_
    · exact (congrArg Label.uri hxLabel).trans (hUri.trans (congrArg Label.uri hyLabel).symm)
    · exact (congrArg Label.key hxLabel).trans (hKey.trans (congrArg Label.key hyLabel).symm)
  refine ⟨hKey, ?_⟩
  rw [← hxLabel, hSame, hyLabel]
  exact held_of_refers hRefers

end Unmixed

/-! ## Dropping where the entries agree -/

theorem sublist_dropContentEntry (contents : List ContentEntry)
    (dependents : List (String × String)) (dropped : String) :
    ((dropContentEntry contents dependents dropped).1).Sublist contents := by
  have hRemove : ∀ (uris : List String) (state : List ContentEntry × List String),
      (uris.foldl removeEntry state).1.Sublist state.1 := by
    intro uris
    induction uris with
    | nil => exact fun state => Sublist.refl state.1
    | cons uri rest ih =>
      intro state
      refine (ih (removeEntry state uri)).trans ?_
      unfold removeEntry
      split
      · exact eraseP_sublist
      · exact Sublist.refl state.1
  unfold dropContentEntry
  split
  · exact hRemove (dropped :: dependentsOf dependents dropped) (contents, [])
  · exact Sublist.refl contents

theorem artifactContents_drop (dependents : List (String × String)) (t : Trimming)
    (candidate : Candidate) :
    (t.drop dependents candidate).snapshot.artifactContents =
      if candidate.kind = .artifactContents then
        (dropContentEntry t.snapshot.artifactContents dependents candidate.key).1
      else t.snapshot.artifactContents := by
  cases hKind : candidate.kind <;> simp [Trimming.drop, hKind]

variable {full : Snapshot}

section Drop

/-- One drop leaves no reference without its content, where nothing is left that should have been
dropped before. -/
theorem CollectedFrom.resolved_dropContentEntry (h : CollectedFrom entries collected)
    (hFresh : ∀ entry ∈ entries, entry.body.reference = none)
    (hHeld : ∀ x ∈ entries, ∀ y ∈ entries, x.uri = y.uri → x.key = y.key → x.label = y.label)
    {dropped : String} (hUnmixed : UnmixedAt entries dropped)
    (hSub : contents.Sublist collected.contents)
    (hGone : ∀ uri, ¬ DropsNoLater dropped uri → withUri uri contents = [])
    (hResolved : Resolved contents) :
    Resolved (dropContentEntry contents collected.dependents dropped).1 := by
  by_cases hAbsent : withUri dropped contents = []
  · rw [dropContentEntry_of_absent hAbsent]
    exact hResolved
  have hLeft := withUri_dropContentEntry collected.dependents hAbsent
  have hOrder : ∀ entry ∈ contents, DropsNoLater dropped entry.uri := by
    intro entry hMem
    by_contra hNot
    have hIn := mem_withUri.mpr ⟨hMem, rfl⟩
    rw [hGone entry.uri hNot] at hIn
    cases hIn
  intro entry hMem uri hRefers
  have hEntry := (sublist_dropContentEntry contents collected.dependents dropped).subset hMem
  obtain ⟨holder, hHolder, rfl, hDigest, hType, hContent⟩ := hResolved entry hEntry uri hRefers
  refine ⟨holder, ?_, rfl, hDigest, hType, hContent⟩
  by_contra hLost
  by_cases hSame : dropped = holder.uri
  · -- the content is dropped: so is every entry with the uri of one that refers to it
    have hKeys := h.key_eq_of_refers hFresh (hSame ▸ hUnmixed) (hSub.subset hEntry) hRefers
      (hSame ▸ hOrder entry hEntry)
    have hCount := h.length_withUri_le hHeld (hSub.subset hEntry) hRefers hKeys
    have hLength : (withUri entry.uri contents).length ≤
        (withUri entry.uri collected.contents).length := (hSub.filter _).length_le
    have hNil : withUri entry.uri
        (dropContentEntry contents collected.dependents dropped).1 = [] := by
      rw [hLeft, hSame]
      exact drop_eq_nil_of_le (hLength.trans hCount)
    have hIn := mem_withUri.mpr ⟨hMem, rfl⟩
    rw [hNil] at hIn
    cases hIn
  · -- the content goes as if it were a reference: then its uri has nothing but references
    have hCount : (dependentsOf collected.dependents dropped).count holder.uri ≠ 0 := by
      intro hZero
      have hKept := hLeft holder.uri
      rw [count_cons, hZero, if_neg (by simpa using hSame), drop_zero] at hKept
      have hIn := mem_withUri.mpr ⟨hHolder, rfl⟩
      rw [← hKept, mem_withUri] at hIn
      exact hLost hIn.1
    rw [h.dependents] at hCount
    obtain ⟨other, hOther, hOtherRefers⟩ := countP_pos_iff.mp (Nat.pos_of_ne_zero hCount)
    rw [mem_withUri] at hOther
    have hReference : other.body.reference = some dropped := by simpa [refersTo] using hOtherRefers
    have hKeys := h.key_eq_of_refers hFresh hUnmixed hOther.1 hReference
      (hOther.2 ▸ hOrder holder hHolder)
    have hHolderKey := hKeys holder (hSub.subset hHolder) hOther.2.symm
    have hFirst := h.content holder (hSub.subset hHolder) hContent
    rw [hHolderKey, h.refers other hOther.1 dropped hReference] at hFirst
    exact hSame (Option.some.inj hFirst)

section

variable (hRanked : ∀ entry ∈ full.artifactContents, Ranked (entryFilename entry))
include hRanked

variable {before after : List Candidate}

theorem left_eq_zero_of_candidatesWith
    (hCandidates : full.dropOrder = before ++ after)
    (dependents : List (String × String)) {kind : CandidateKind} {key : String}
    (hLater : candidatesWith after kind key = 0) :
    (full.without dependents before).left kind key = 0 := by
  have hLeft := @left_without_le dependents _ hRanked before kind key
  rw [hCandidates, candidatesWith_append, hLater] at hLeft
  omega

/-- What should have been dropped before a candidate is gone when it is dropped. -/
theorem withUri_eq_nil_of_dropped {candidate : Candidate}
    (hCandidates : full.dropOrder = before ++ candidate :: after)
    (hKind : candidate.kind = .artifactContents)
    (hOrder : ¬ DropsNoLater candidate.key uri) :
    withUri uri (full.without dependents before).snapshot.artifactContents =
      [] := by
  have hOrdered := pairwise_dropOrder full
  rw [hCandidates] at hOrdered
  have hAfter := (pairwise_cons.mp (pairwise_append.mp hOrdered).2.1).1
  have hLater : candidatesWith (candidate :: after) .artifactContents uri = 0 := by
    refine countP_eq_zero.mpr fun other hOther hIs => ?_
    obtain ⟨hOtherKind, rfl⟩ := of_decide_eq_true hIs
    rcases mem_cons.mp hOther with rfl | hOther
    · exact hOrder (.inr ⟨rfl, le_rfl⟩)
    · exact hOrder ((hAfter other hOther).2 hKind hOtherKind)
  have hZero := left_eq_zero_of_candidatesWith hRanked hCandidates dependents hLater
  exact filter_eq_nil_iff.mpr (countP_eq_zero.mp hZero)

end

theorem sublist_foldl_drop (dependents : List (String × String)) (t : Trimming)
    (candidates : List Candidate) :
    (candidates.foldl (Trimming.drop dependents) t).snapshot.artifactContents.Sublist
      t.snapshot.artifactContents := by
  induction candidates generalizing t with
  | nil => exact Sublist.refl _
  | cons candidate rest ih =>
    refine (ih (t.drop dependents candidate)).trans ?_
    rw [artifactContents_drop]
    split
    · exact sublist_dropContentEntry _ dependents candidate.key
    · exact Sublist.refl _

/-- Dropping candidates one by one leaves no reference without its content, where the entries agree
at every uri that is dropped. -/
theorem CollectedFrom.resolved_foldl_drop (h : CollectedFrom entries collected)
    (hFresh : ∀ entry ∈ entries, entry.body.reference = none)
    (hHeld : ∀ x ∈ entries, ∀ y ∈ entries, x.uri = y.uri → x.key = y.key → x.label = y.label)
    (hFull : full.artifactContents = collected.contents)
    (hRanked : ∀ entry ∈ full.artifactContents, Ranked (entryFilename entry))
    (before after : List Candidate)
    (hUnmixed : ∀ candidate ∈ before, candidate.kind = .artifactContents →
      UnmixedAt entries candidate.key)
    (hCandidates : full.dropOrder = before ++ after) :
    Resolved (full.without collected.dependents before).snapshot.artifactContents := by
  induction before using List.reverseRecOn generalizing after with
  | nil =>
    intro entry hMem uri hRefers
    change entry ∈ full.artifactContents at hMem
    rw [hFull] at hMem
    obtain ⟨holder, hHolder, hUri, hKey, hContent⟩ := h.first _ _ (h.refers entry hMem uri hRefers)
    refine ⟨holder, ?_, hUri, congrArg Prod.fst hKey, congrArg Prod.snd hKey, hContent⟩
    change holder ∈ full.artifactContents
    rw [hFull]
    exact hHolder
  | append_singleton before candidate ih =>
    rw [append_assoc, singleton_append] at hCandidates
    have hResolved := ih (candidate :: after)
      (fun other hMem => hUnmixed other (mem_append_left _ hMem)) hCandidates
    have hSub := sublist_foldl_drop collected.dependents ⟨full, []⟩ before
    rw [without_concat, artifactContents_drop]
    split
    next hKind =>
      have hAgree := hUnmixed candidate (mem_append_right _ mem_cons_self) hKind
      refine h.resolved_dropContentEntry hFresh hHeld hAgree (hFull ▸ hSub) (fun uri hOrder => ?_)
        hResolved
      exact withUri_eq_nil_of_dropped hRanked hCandidates hKind hOrder
    next => exact hResolved

end Drop

/-! ## Where trimming comes to -/

theorem eq_of_mem_dropCandidates {candidate : Candidate}
    (hMem : candidate ∈ full.dropOrder)
    (hKind : candidate.kind = .artifactContents) :
    candidate = .content candidate.key := by
  have hOf (named : String → Bool)
      (hIn : candidate ∈ contentCandidates full.artifactContents named) :
      candidate = .content candidate.key := by
    obtain ⟨entry, _, rfl⟩ := mem_map.mp hIn
    rfl
  simp only [Snapshot.dropOrder, dropCandidates, mem_append, mem_map] at hMem
  rcases hMem with (((hMem | ⟨_, _, rfl⟩) | ⟨_, _, rfl⟩) | hMem) | hMem
  · exact hOf _ hMem
  · cases hKind
  · cases hKind
  · exact hOf _ hMem
  · exact hOf _ hMem

/-- Where dropping changes the entries with a uri, one of the candidates is left to be dropped and
has the uri or takes an entry with it. -/
theorem exists_removing {candidates : List Candidate} {t : Trimming}
    (h : withUri uri (candidates.foldl (Trimming.drop dependents) t).snapshot.artifactContents ≠
      withUri uri t.snapshot.artifactContents) :
    ∃ before candidate after, candidates = before ++ candidate :: after ∧
      candidate.kind = .artifactContents ∧
      withUri candidate.key
        (before.foldl (Trimming.drop dependents) t).snapshot.artifactContents ≠ [] ∧
      (candidate.key :: dependentsOf dependents candidate.key).count uri ≠ 0 := by
  induction candidates generalizing t with
  | nil => exact absurd rfl h
  | cons candidate rest ih =>
    by_cases hRemoves : candidate.kind = .artifactContents ∧
        withUri candidate.key t.snapshot.artifactContents ≠ [] ∧
        (candidate.key :: dependentsOf dependents candidate.key).count uri ≠ 0
    · exact ⟨[], candidate, rest, rfl, hRemoves⟩
    · have hSame : withUri uri (t.drop dependents candidate).snapshot.artifactContents =
          withUri uri t.snapshot.artifactContents := by
        rw [artifactContents_drop]
        split
        next hKind =>
          by_cases hAbsent : withUri candidate.key t.snapshot.artifactContents = []
          · rw [dropContentEntry_of_absent hAbsent]
          · have hCount :
                (candidate.key :: dependentsOf dependents candidate.key).count uri = 0 := by
              by_contra hCount
              exact hRemoves ⟨hKind, hAbsent, hCount⟩
            rw [withUri_dropContentEntry dependents hAbsent, hCount, drop_zero]
        next => rfl
      rw [foldl_cons, ← hSame] at h
      obtain ⟨before, found, after, rfl, hFound⟩ := ih h
      exact ⟨candidate :: before, found, after, rfl, hFound⟩

/-- Trimming drops the candidates until something fits, and nothing before that does. -/
theorem trim_eq_foldl (size : Snapshot → Nat) (budget : Nat) (dependents : List (String × String))
    (t : Trimming) (candidates : List Candidate) :
    ∃ before after, candidates = before ++ after ∧
      trim size budget dependents t candidates = before.foldl (Trimming.drop dependents) t ∧
      ∀ dropped candidate rest, before = dropped ++ candidate :: rest →
        budget < size (dropped.foldl (Trimming.drop dependents) t).provisional := by
  induction candidates generalizing t with
  | nil => exact ⟨[], [], rfl, rfl, fun dropped _ _ h => by simp at h⟩
  | cons candidate rest ih =>
    unfold trim
    split
    next => exact ⟨[], candidate :: rest, rfl, rfl, fun dropped _ _ h => by simp at h⟩
    next hOver =>
      obtain ⟨before, after, rfl, hTrim, hLarge⟩ := ih (t.drop dependents candidate)
      refine ⟨candidate :: before, after, rfl, hTrim, fun dropped other late hSplit => ?_⟩
      cases dropped with
      | nil => exact Nat.not_le.mp hOver
      | cons first dropped =>
        obtain ⟨rfl, hRest⟩ := List.cons.inj hSplit
        exact hLarge dropped other late hRest

/-- Trimming comes to the entries with a uri: nothing fits before it is their turn. -/
def TrimsAt (size : Snapshot → Nat) (budget : Nat) (full : Snapshot)
    (dependents : List (String × String)) (uri : String) : Prop :=
  ∃ before after, full.dropOrder = before ++ .content uri :: after ∧
    ∀ dropped, dropped <+: before → budget < size (full.without dependents dropped).provisional

/-! ## The store -/

variable {artifacts : List StoredArtifact}

section Store

variable (settings : Settings) (files : Files)

def excerpts (records : List ArtifactRecord) : List ContentEntry :=
  records.filterMap (artifactExcerpt settings files)

theorem collectContents_eq (visible : List StoredArtifact) :
    collectContents settings files visible =
      (excerpts settings files (visible.map StoredArtifact.toArtifactRecord)).foldl collectEntry
        {} := by
  rw [excerpts, foldl_filterMap, foldl_map, collectContents]
  congr 1
  funext collected artifact
  cases artifactExcerpt settings files artifact.toArtifactRecord <;> rfl

variable {settings files} {records : List ArtifactRecord}

theorem exists_record_of_mem_excerpts
    (h : entry ∈ excerpts settings files records) :
    ∃ record ∈ records, ∃ bytes, files.read record.uri = some bytes ∧
      entry = ⟨artifactUri record.uri, record.type, record.sha256,
        if files.sha256 bytes ≠ record.sha256 then .unavailable
        else readExcerpt settings files record bytes⟩ := by
  obtain ⟨record, hMem, hEntry⟩ := mem_filterMap.mp h
  obtain ⟨bytes, hBytes, rfl⟩ := Option.map_eq_some_iff.mp hEntry
  exact ⟨record, hMem, bytes, hBytes, rfl⟩

variable (settings files records) in
theorem fresh_excerpts :
    ∀ entry ∈ excerpts settings files records, entry.body.reference = none := by
  intro entry hMem
  obtain ⟨record, _, bytes, _, rfl⟩ := exists_record_of_mem_excerpts hMem
  dsimp only
  split
  · rfl
  · exact (apply_ite EntryBody.reference _ _ _).trans (ite_self none)

theorem artifactUri_injective : Function.Injective artifactUri := by
  intro uri other h
  rw [← afterScheme_artifactUri uri, h, afterScheme_artifactUri]

/-- What an excerpt has of a content depends on nothing but its uri and its digest. -/
theorem label_eq_of_mem_excerpts :
    ∀ x ∈ excerpts settings files records, ∀ y ∈ excerpts settings files records,
      x.uri = y.uri → x.key = y.key → x.label = y.label := by
  intro x hx y hy hUri hKey
  obtain ⟨record, _, bytes, hBytes, rfl⟩ := exists_record_of_mem_excerpts hx
  obtain ⟨other, _, bytes', hBytes', rfl⟩ := exists_record_of_mem_excerpts hy
  have hUris : record.uri = other.uri := artifactUri_injective hUri
  have hDigest : record.sha256 = other.sha256 := congrArg Prod.fst hKey
  have hType : record.type = other.type := congrArg Prod.snd hKey
  rw [← hUris, hBytes] at hBytes'
  cases hBytes'
  have hRead :
      readExcerpt settings files record bytes = readExcerpt settings files other bytes := by
    unfold readExcerpt
    rw [hUris]
  rw [hUris, hType, hDigest, hRead]

end Store

/-! ## When no reference ever dangles -/

section Dangling

variable (settings : Settings) (files : Files) (phase : EvidencePhase) (jobs : List StoredJob)

def trimmed (size : Snapshot → Nat) (maxBytes : Option Nat) (artifacts : List StoredArtifact) :
    Trimming :=
  let full := (fullSnapshot settings files phase jobs artifacts).1
  trim size (snapshotBudget settings maxBytes)
    (fullSnapshot settings files phase jobs artifacts).2 ⟨full, []⟩
    (dropCandidates full.jobs full.artifacts full.artifactContents)

variable {settings files phase jobs} in
theorem buildEvidenceSnapshot_eq (size : Snapshot → Nat) (maxBytes : Option Nat)
    (artifacts : List StoredArtifact) :
    ∃ note, buildEvidenceSnapshot settings files size phase maxBytes jobs artifacts =
      { (trimmed settings files phase jobs size maxBytes artifacts).snapshot with
        truncation := note } := by
  unfold buildEvidenceSnapshot
  dsimp only
  split
  · exact ⟨_, rfl⟩
  · exact ⟨_, rfl⟩

theorem exists_trimmed (size : Snapshot → Nat) (maxBytes : Option Nat)
    (artifacts : List StoredArtifact) :
    let full := (fullSnapshot settings files phase jobs artifacts).1
    let dependents := (fullSnapshot settings files phase jobs artifacts).2
    ∃ before after, full.dropOrder = before ++ after ∧
      trimmed settings files phase jobs size maxBytes artifacts = full.without dependents before ∧
      ∀ candidate ∈ before, candidate.kind = .artifactContents →
        TrimsAt size (snapshotBudget settings maxBytes) full dependents candidate.key := by
  intro full dependents
  obtain ⟨before, after, hCandidates, hTrim, hLarge⟩ := trim_eq_foldl size
    (snapshotBudget settings maxBytes) dependents ⟨full, []⟩ full.dropOrder
  refine ⟨before, after, hCandidates, hTrim, fun candidate hMem hKind => ?_⟩
  have hContent : candidate = .content candidate.key :=
    eq_of_mem_dropCandidates (hCandidates ▸ mem_append_left _ hMem) hKind
  obtain ⟨early, late, rfl⟩ := append_of_mem hMem
  refine ⟨early, late ++ after, ?_, fun dropped hPrefix => ?_⟩
  · rw [hCandidates, ← hContent, append_assoc, cons_append]
  · obtain ⟨rest, rfl⟩ := hPrefix
    cases rest with
    | nil => exact hLarge dropped candidate late (by rw [append_nil])
    | cons next rest =>
      exact hLarge dropped next (rest ++ candidate :: late) (by rw [append_assoc, cons_append])

def visibleRecords (artifacts : List StoredArtifact) : List ArtifactRecord :=
  (visibleArtifacts artifacts (phaseFilenames phase)).map StoredArtifact.toArtifactRecord

variable {settings files phase jobs}

/-- In the snapshot that is returned every reference leads to an entry that has the content, where
the excerpts agree at every uri that trimming comes to. -/
theorem neverDangling (settings : Settings) (files : Files) (phase : EvidencePhase)
    (jobs : List StoredJob) (artifacts : List StoredArtifact) (size : Snapshot → Nat)
    (maxBytes : Option Nat)
    (hAgree : ∀ uri, TrimsAt size (snapshotBudget settings maxBytes)
      (fullSnapshot settings files phase jobs artifacts).1
      (fullSnapshot settings files phase jobs artifacts).2 uri →
        UnmixedAt (excerpts settings files (visibleRecords phase artifacts)) uri) :
    Resolved
      (buildEvidenceSnapshot settings files size phase maxBytes jobs
        artifacts).artifactContents := by
  have hFrom := collectedFrom_foldl collectedFrom_nil
    (fresh_excerpts settings files (visibleRecords phase artifacts))
  rw [nil_append, visibleRecords, ← collectContents_eq] at hFrom
  obtain ⟨note, hBuild⟩ := buildEvidenceSnapshot_eq size maxBytes artifacts
  obtain ⟨before, after, hCandidates, hTrim, hComes⟩ :=
    exists_trimmed settings files phase jobs size
    maxBytes artifacts
  rw [hBuild, hTrim]
  exact hFrom.resolved_foldl_drop (fresh_excerpts settings files _) label_eq_of_mem_excerpts rfl
    (ranked_fullSnapshot settings files phase jobs artifacts) before after
    (fun candidate hMem hKind => hAgree candidate.key (hComes candidate hMem hKind)) hCandidates

end Dangling

def rewrittenFiles : Files :=
  { metricsFiles with
    read := fun uri =>
      if uri = "job-1/metrics.json" ∨ uri = "job-2/metrics.json" then
        some (asciiBytes metricsText)
      else none }

def jobMetrics (artifactId jobId sha256 : String) (createdAt : Instant) : StoredArtifact where
  artifactId := artifactId
  jobId := some jobId
  type := "metrics"
  uri := jobId ++ "/metrics.json"
  sha256 := sha256
  createdAt := createdAt

def staleDigest : String := "0f4636c78f65d3639ece5a064b5ae753e3408614a14fb18ab4d7540d2c248543"

/-- The metrics of the second job were recorded, changed to those of the first job, and were
recorded again. -/
def rewrittenArtifacts : List StoredArtifact :=
  [jobMetrics "a-1" "job-1" metricsDigest 0, jobMetrics "a-2" "job-2" staleDigest 1,
    jobMetrics "a-3" "job-2" metricsDigest 2]

/-- The snapshot keeps a reference to the metrics of the first job, and drops these. -/
theorem dangling_rewritten :
    ¬ Resolved (buildEvidenceSnapshot {} rewrittenFiles evidenceByteSize .analysis (some 1024) []
      rewrittenArtifacts).artifactContents := by
  intro h
  have hLeft : (buildEvidenceSnapshot {} rewrittenFiles evidenceByteSize .analysis (some 1024) []
      rewrittenArtifacts).artifactContents.map
        (fun entry => (entry.body.reference, entry.body.hasContent)) =
      [(some "artifact://job-1/metrics.json", false)] := by decide +kernel
  obtain ⟨entry, hContents, hEntry⟩ := map_eq_singleton_iff.mp hLeft
  rw [hContents] at h
  obtain ⟨other, hOther, _, _, _, hContent⟩ :=
    h entry mem_cons_self _ (congrArg Prod.fst hEntry)
  have hNone : entry.body.hasContent = false := congrArg Prod.snd hEntry
  rw [mem_singleton.mp hOther, hNone] at hContent
  cases hContent

def logText : String := "done"

def logDigest : String := "a4c3ed04a95a3da14a9d235c83d868bed7c0f45cf7f3faa751ee8f50598d2211"

/-- The first two jobs wrote the same log and the same metrics, a third one other metrics. -/
def copiedFiles : Files where
  read uri :=
    if uri = "job-1/metrics.json" ∨ uri = "job-2/metrics.json" then some (asciiBytes metricsText)
    else if uri = "job-1/runner.log" ∨ uri = "job-2/runner.log" ∨ uri = "job-3/metrics.json" then
      some (asciiBytes logText)
    else none
  sha256 bytes := if bytes = asciiBytes logText then logDigest else metricsFiles.sha256 bytes
  decode := metricsFiles.decode
  loads := metricsFiles.loads

def jobLog (artifactId jobId : String) (createdAt : Instant) : StoredArtifact where
  artifactId := artifactId
  jobId := some jobId
  type := "log"
  uri := jobId ++ "/runner.log"
  sha256 := logDigest
  createdAt := createdAt

def copiedArtifacts : List StoredArtifact :=
  [jobLog "a-1" "job-1" 0, jobMetrics "a-2" "job-1" metricsDigest 1, jobLog "a-3" "job-2" 2,
    jobMetrics "a-4" "job-2" metricsDigest 3, jobMetrics "a-5" "job-3" logDigest 4]

/-- The logs are dropped together, then the inventory; the three metrics are left, and the second
refers to the first. -/
theorem neverDangling_copied :
    Resolved (buildEvidenceSnapshot {} copiedFiles evidenceByteSize .analysis (some 1500) []
      copiedArtifacts).artifactContents := by
  have hApart : ((excerpts {} copiedFiles (visibleRecords .analysis copiedArtifacts)).map
      ContentEntry.uri).Nodup := by decide +kernel
  exact neverDangling {} copiedFiles .analysis [] copiedArtifacts evidenceByteSize (some 1500)
    fun uri _ => unmixedAt_of_nodup hApart uri

end Glasslab.Evidence
