import Glasslab.Corpus.Soundness
import Glasslab.Corpus.Reingest

/-!
# Ingestion, backfill and healing together

Uploads, backfills, ingestions and healings write to one store in any order. However they follow one
another, a source has one document and its chunks are chunks of that document. A step may fail
because of a row that an earlier one has written (`rows_in_the_way`): the backfill and
`ingest_document` give the document of a source different ids, `ingest_document` gives a source a
title that cannot be read back, or metadata whose authors or year no document can have, and the
healing gives a source a digest that another source with its uri has, or reads a uri that cannot be
split or looked up. In histories without these, no step fails because of an earlier one
(`steps_compose`).
-/

namespace Glasslab.Corpus

open Foundation Knowledge Machine List Raising

/-! ## Uploads -/

variable {source : KnowledgeSource} {pipeline : Pipeline} {s : RagStore} {faults : Faults}

section Uploads

variable {settings : UploadSettings} {text : List Char}

theorem wp_drawIds {count : Nat} {Q : Nat → RagStore → Prop} {E : Failure → RagStore → Prop} :
    Tx.wp (drawIds count) Q E s ↔ Q s.issued { s with issued := s.issued + count } := Iff.rfl

theorem orOther_eq (value other : Option String) :
    orOther value other = value ∨ orOther value other = other := by
  unfold orOther
  split
  · split
    · exact .inr rfl
    · exact .inl rfl
  · exact .inr rfl

theorem sourceValid_refreshUpload {existing : KnowledgeSource}
    (hSource : sourceValid source.canonicalUri source.title = true)
    (hExisting : sourceValid existing.canonicalUri existing.title = true) :
    sourceValid (refreshUpload source existing).canonicalUri (refreshUpload source existing).title =
      true := by
  unfold sourceValid at hSource hExisting ⊢
  rw [decide_eq_true_iff] at hSource hExisting ⊢
  refine ⟨hExisting.1, ?_⟩
  show (orOther source.title existing.title).all _ = true
  rcases orOther_eq source.title existing.title with hEq | hEq
  · rw [hEq]
    exact hSource.2
  · rw [hEq]
    exact hExisting.2

theorem buildKnowledgeChunks_fresh (laws : Collisionless pipeline) (h : Sound pipeline s)
    {saved : KnowledgeSource} {pieces : List (List Char)} {fragment : KnowledgeChunk}
    (hFragment : fragment ∈ buildKnowledgeChunks pipeline saved s.issued pieces) :
    fragment.sourceId = saved.sourceId ∧
      (∃ n < s.issued + pieces.length, fragment.chunkId = pipeline.uuid n) ∧
      (∀ chunk ∈ s.chunks.rows, chunk.chunkId ≠ fragment.chunkId) ∧
      ∀ other ∈ s.knowledgeChunks.rows, other.chunkId ≠ fragment.chunkId := by
  obtain ⟨index, hIndex, rfl⟩ := mem_mapIdx.mp hFragment
  refine ⟨rfl, ⟨s.issued + index, by omega, rfl⟩, ?_, ?_⟩
  · intro chunk hChunk hEq
    rcases h.chunk_id chunk hChunk with ⟨_, _, _, _, hId⟩ | ⟨⟨n, hn, hId⟩, _⟩
    · exact laws.uuid_ne_detId _ _ (hEq.symm.trans hId)
    · have hSame := laws.uuid_injective (hId.symm.trans hEq)
      omega
  · intro other hOther hEq
    obtain ⟨n, hn, hId⟩ := h.fragment_id other hOther
    have hSame := laws.uuid_injective (hId.symm.trans hEq)
    omega

structure UploadRow (pipeline : Pipeline) (s : RagStore) (saved : KnowledgeSource) : Prop where
  id : ∃ n < s.issued, saved.sourceId = pipeline.uuid n
  upload : IsUpload saved.canonicalUri
  valid : sourceValid saved.canonicalUri saved.title = true
  iff : ∀ row ∈ s.sources.rows, row.sourceId = saved.sourceId ↔ row.key = saved.key

theorem uploadRow_of_find (h : Sound pipeline s) {found : Option KnowledgeSource}
    (hId : ∃ n < s.issued, source.sourceId = pipeline.uuid n)
    (hNew : ∀ row ∈ s.sources.rows, row.sourceId ≠ source.sourceId)
    (hUpload : IsUpload source.canonicalUri)
    (hValid : sourceValid source.canonicalUri source.title = true)
    (hFind : s.findKnowledgeSource source.digest source.canonicalUri = .ok found) :
    UploadRow pipeline s ((found.map (refreshUpload source)).getD source) := by
  cases found with
  | none =>
    have hNone := SourceTable.find_eq_none_iff.mp (findKnowledgeSource_eq_ok_none hFind)
    refine ⟨hId, hUpload, hValid, ?_⟩
    intro row hRow
    constructor
    · intro hSame
      exact absurd hSame (hNew row hRow)
    · intro hKey
      exact absurd (Prod.ext_iff.mp hKey) (hNone row hRow)
  | some existing =>
    obtain ⟨hFind, hExisting⟩ := findKnowledgeSource_eq_ok_some hFind
    obtain ⟨hMem, hDigest, hUri⟩ := SourceTable.find_eq_some_iff.mp hFind
    refine ⟨h.source_id existing hMem, ?_, sourceValid_refreshUpload hValid hExisting, ?_⟩
    · show IsUpload existing.canonicalUri
      rw [hUri]
      exact hUpload
    · intro row hRow
      constructor
      · intro hSame
        rw [SourceTable.eq_of_sourceId_eq hRow hMem hSame]
        rfl
      · intro hKey
        rw [SourceTable.eq_of_key_eq hRow hMem hKey]
        rfl

theorem wp_saveUpload {before : RagStore} {saved : KnowledgeSource} {Q : Unit → RagStore → Prop}
    (h : Later pipeline True before s) (hRow : UploadRow pipeline s saved)
    (hOk : ∀ sources, Later pipeline True before { s with sources := sources } →
      saved ∈ sources.rows → UploadRow pipeline { s with sources := sources } saved →
        Q () { s with sources := sources }) :
    Tx.wp (saveKnowledgeSource faults saved) Q (Raises pipeline True before) s := by
  refine wp_saveKnowledgeSource ?_ (fun _ => ⟨h, fun _ _ => id⟩) ?_
  · intro sources hSave
    have hLater := h.save hSave hRow.id (fun row hMem hSame =>
      (Prod.ext_iff.mp ((hRow.iff row hMem).mp hSame)).2) fun _ => hRow.valid
    refine hOk sources hLater ((mem_save hSave).mpr (.inl rfl)) { hRow with iff := ?_ }
    intro row hMem
    rcases (mem_save hSave).mp hMem with rfl | ⟨hMem, _⟩
    · exact ⟨fun _ => rfl, fun _ => rfl⟩
    · exact hRow.iff row hMem
  · intro hTaken
    obtain ⟨sources, hSave⟩ := @save_eq_some s.sources saved
      fun row hMem hKey => (hRow.iff row hMem).mpr hKey
    rw [hTaken] at hSave
    cases hSave

theorem wp_commitSource (laws : Collisionless pipeline) {before : RagStore} {emitEvent : Bool}
    (h : Later pipeline True before s) (hId : ∃ n < s.issued, source.sourceId = pipeline.uuid n)
    (hNew : ∀ row ∈ s.sources.rows, row.sourceId ≠ source.sourceId)
    (hUpload : IsUpload source.canonicalUri)
    (hValid : sourceValid source.canonicalUri source.title = true) :
    Tx.wp (commitSource pipeline settings faults source text emitEvent)
      (fun _ s₁ => Later pipeline True before s₁) (Raises pipeline True before) s := by
  rw [commitSource, Tx.wp_bind, Tx.wp_get, Tx.wp_bind, Tx.wp_ofExcept]
  refine ⟨?_, ?_⟩
  rotate_left
  · intro failure hFind
    refine ⟨h, fun _ hReadable => ?_⟩
    obtain ⟨row, hRow, hInvalid⟩ := findKnowledgeSource_eq_error hFind
    exact absurd (h.readable trivial hReadable row hRow)
      (by rw [hInvalid]; exact Bool.false_ne_true)
  intro found hFind
  have hRow := uploadRow_of_find h.sound hId hNew hUpload hValid hFind
  generalize (found.map (refreshUpload source)).getD source = saved at hRow ⊢
  rw [Tx.wp_bind]
  refine wp_saveUpload h hRow ?_
  intro sources hLater hSaved hRow
  rw [Tx.wp_bind, Tx.wp_ofExcept]
  refine ⟨?_, ?_⟩
  rotate_left
  · intro failure hPieces
    refine ⟨hLater, fun _ _ => ?_⟩
    cases hChunks : settings.chunkText text with
    | ok _ => rw [hChunks] at hPieces; cases hPieces
    | error error => rw [hChunks] at hPieces; cases hPieces; exact id
  intro pieces _
  rw [Tx.wp_bind, wp_drawIds, Tx.wp_bind]
  have hDrawn := hLater.other (hLater.sound.issue (Nat.le_add_right s.issued pieces.length)) rfl
  have hFresh := fun fragment => @buildKnowledgeChunks_fresh _ _ laws hLater.sound saved pieces
    fragment
  refine wp_replaceKnowledgeChunks ?_ (fun _ => ⟨hDrawn, fun _ _ => id⟩) ?_
  rotate_left
  · intro clash hClash
    refine ⟨hDrawn, fun _ _ hBlocked => ?_⟩
    cases clash with
    | repeated => cases hBlocked
    | taken =>
      obtain ⟨fragment, hFragment, row, hMem, _, hSame⟩ := KeyedTable.exists_of_replace_taken hClash
      exact (hFresh fragment hFragment).2.2.2 row hMem hSame
  intro rows hRows
  have hLater := hDrawn.other (hDrawn.sound.replaceFragments hRows
    ⟨saved, hSaved, rfl, hRow.upload⟩ fun fragment hFragment =>
      ⟨(hFresh fragment hFragment).1, (hFresh fragment hFragment).2.1,
        (hFresh fragment hFragment).2.2.1⟩) rfl
  rw [Tx.wp_bind]
  have hBelow : ∃ n < s.issued + pieces.length, saved.sourceId = pipeline.uuid n := by
    obtain ⟨n, hn, hEq⟩ := hRow.id
    exact ⟨n, Nat.lt_of_lt_of_le hn (Nat.le_add_right _ _), hEq⟩
  refine wp_saveUpload hLater
    ⟨hBelow, hRow.upload, hRow.valid, fun row hMem => hRow.iff row hMem⟩ ?_
  intro sources hLater _ _
  rw [Tx.wp_bind, emitIngested, Tx.wp_ite]
  refine ⟨fun _ => ?_, fun _ => Tx.wp_pure.mpr (Tx.wp_pure.mpr hLater)⟩
  refine wp_write ?_ (fun _ => ⟨hLater, fun _ _ => id⟩) ?_
  · intro tables hTables
    cases hTables
    exact Tx.wp_pure.mpr hLater
  · intro failure hFailure
    cases hFailure

/-- `ingest_bytes` keeps the invariant and fails because of no row that can be read. -/
theorem wp_ingestBytes (laws : Collisionless pipeline) (h : Sound pipeline s) {call : UploadCall} :
    Tx.wp (ingestBytes pipeline settings faults call)
      (fun _ s₁ => Later pipeline True s s₁) (Raises pipeline True s) s := by
  have hStart : Later pipeline True s s := .refl h
  rw [ingestBytes, Tx.wp_bind, Tx.wp_ofExcept]
  refine ⟨?_, ?_⟩
  rotate_left
  · intro failure hText
    refine ⟨hStart, fun _ _ => ?_⟩
    cases hChecked : call.checkedText pipeline settings with
    | ok _ => rw [hChecked] at hText; cases hText
    | error error => rw [hChecked] at hText; cases hText; exact id
  intro text _
  rw [Tx.wp_bind, wp_drawId, Tx.wp_ite]
  have hDrawn := hStart.other (h.issue (Nat.le_succ s.issued)) rfl
  refine ⟨fun _ => Tx.wp_raise.mpr ⟨hDrawn, fun _ _ => id⟩, fun hValid => ?_⟩
  refine wp_commitSource laws hDrawn ⟨s.issued, Nat.lt_succ_self _, rfl⟩ ?_ ⟨_, rfl⟩
    (by simpa using hValid)
  intro row hRow hSame
  obtain ⟨n, hn, hId⟩ := h.source_id row hRow
  have hEq := laws.uuid_injective (hId.symm.trans hSame)
  omega

end Uploads

variable {before : RagStore}

section Backfill

theorem mem_knowledgeChunksOf {tables : RagTables} {sourceId : String} {fragment : KnowledgeChunk} :
    fragment ∈ tables.knowledgeChunksOf sourceId ↔
      fragment ∈ tables.knowledgeChunks.rows ∧ fragment.sourceId = sourceId := by
  rw [RagTables.knowledgeChunksOf, mem_sortOn, mem_filter, decide_eq_true_iff]

section

variable (laws : Collisionless pipeline)
include laws

theorem wp_projectSource (h : Later pipeline True before s)
    (hNone : (s.ragDocument? source.sourceId).isSome = false)
    (hChunks : (s.knowledgeChunksOf source.sourceId).isEmpty = false) {corpusId now : String} :
    Tx.wp (projectSource faults corpusId now (documentFor pipeline source)
        ((s.knowledgeChunksOf source.sourceId).map
    (chunkRecord (documentFor pipeline source).docId)))
      (fun _ s₁ => Later pipeline True before s₁) (Raises pipeline True before) s := by
  have hNoDocument : ∀ document ∈ s.documents.rows, document.sourceId ≠ source.sourceId :=
    UniqueTable.findKey_eq_none_iff.mp (by simpa [RagTables.ragDocument?] using hNone)
  have hUpload : ∃ row ∈ s.sources.rows, row.sourceId = source.sourceId ∧
      IsUpload row.canonicalUri := by
    obtain ⟨fragment, hFragment⟩ :=
      exists_mem_of_ne_nil _ (by simpa using hChunks : s.knowledgeChunksOf source.sourceId ≠ [])
    obtain ⟨hMem, hSource⟩ := mem_knowledgeChunksOf.mp hFragment
    exact hSource ▸ h.sound.fragment_source fragment hMem
  rw [projectSource, Tx.wp_bind]
  refine wp_upsertRagDocument ?_ (fun _ => ⟨h, fun _ _ => id⟩) ?_
  rotate_left
  · intro hTaken
    obtain ⟨document, hDocument, -, hSource⟩ := UniqueTable.upsert_eq_none_iff.mp hTaken
    exact absurd hSource (hNoDocument document hDocument)
  intro documents hUpsert
  have hLater := h.other (h.sound.upsertDocument laws hUpsert (.inr ⟨rfl, hUpload⟩)) rfl
  rw [Tx.wp_bind]
  refine wp_replaceRagChunks ?_ (fun _ => ⟨hLater, fun _ _ => id⟩) ?_
  · intro rows hRows
    have hSound := hLater.sound.replaceChunks hRows (by
      intro chunk hChunk
      obtain ⟨fragment, hFragment, rfl⟩ := mem_map.mp hChunk
      obtain ⟨hMem, hSource⟩ := mem_knowledgeChunksOf.mp hFragment
      refine ⟨⟨documentFor pipeline source, (UniqueTable.mem_upsert hUpsert).mpr (.inl rfl),
        hSource.symm, rfl⟩, .inr ⟨hLater.sound.fragment_id fragment hMem, ?_⟩⟩
      intro other hOther hSame
      rw [KeyedTable.eq_of_id_eq hOther hMem hSame]
      rfl)
    refine Tx.wp_mono (wp_addCorpusSource_sound hSound) ?_ ?_
    · rintro _ s₂ ⟨hSound₂, hSources₂, _⟩
      exact hLater.other hSound₂ hSources₂
    · rintro failure s₂ ⟨hSound₂, hSources₂, hNot⟩
      exact ⟨hLater.other hSound₂ hSources₂, fun _ _ => hNot⟩
  · intro clash hClash
    refine ⟨hLater, fun _ _ hBlocked => ?_⟩
    cases clash with
    | repeated => cases hBlocked
    | taken =>
      obtain ⟨record, hRecord, row, hRow, hStays, hSame⟩ :=
        KeyedTable.exists_of_replace_taken hClash
      obtain ⟨fragment, hFragment, rfl⟩ := mem_map.mp hRecord
      obtain ⟨hMem, hSource⟩ := mem_knowledgeChunksOf.mp hFragment
      rcases h.sound.chunk_id row hRow with ⟨_, _, _, _, hId⟩ | ⟨_, hOwner⟩
      · obtain ⟨n, _, hDrawn⟩ := h.sound.fragment_id fragment hMem
        exact laws.uuid_ne_detId n _ (hDrawn.symm.trans (hSame.symm.trans hId))
      · have hOwn : row.sourceId = source.sourceId :=
          (hOwner fragment hMem hSame.symm).symm.trans hSource
        simp [hOwn, documentFor] at hStays

theorem wp_backfillLoop {call : BackfillCall}
    {corpusId : Option String} {sources : List KnowledgeSource} {remaining : Option Int}
    {report : BackfillReport} (h : Later pipeline True before s) :
    Tx.wp (backfillLoop pipeline faults call corpusId sources remaining report)
      (fun _ s₁ => Later pipeline True before s₁) (Raises pipeline True before) s := by
  induction sources generalizing s remaining report with
  | nil => exact Tx.wp_pure.mpr h
  | cons source rest ih =>
    rw [backfillLoop, Tx.wp_ite, Tx.wp_ite]
    refine ⟨fun _ => ih h, fun _ => ⟨fun _ => Tx.wp_pure.mpr h, fun _ => ?_⟩⟩
    rw [Tx.wp_bind, Tx.wp_get, Tx.wp_ite, Tx.wp_ite]
    refine ⟨fun _ => ih h, fun hNone => ⟨fun _ => ih h, fun hChunks => ?_⟩⟩
    split
    · refine Tx.wp_step (wp_projectSource laws h (by simpa using hNone) (by simpa using hChunks)) ?_
        fun _ _ hRaised => hRaised
      intro _ s₁ hLater
      exact ih hLater
    · exact ih h

/-- The backfill keeps the invariant and fails because of no row that can be read. -/
theorem wp_backfillKnowledgeIntoRag (h : Sound pipeline s)
    {call : BackfillCall} :
    Tx.wp (backfillKnowledgeIntoRag pipeline faults call)
      (fun _ s₁ => Later pipeline True s s₁) (Raises pipeline True s) s := by
  have hStart : Later pipeline True s s := .refl h
  have hLoop : ∀ {s₁ : RagStore} {corpusId : Option String}, Later pipeline True s s₁ →
      Tx.wp (do
        let sources ← Tx.ofExcept s₁.listKnowledgeSources
        backfillLoop pipeline faults call corpusId sources call.limit {})
        (fun _ s₂ => Later pipeline True s s₂) (Raises pipeline True s) s₁ := by
    intro s₁ corpusId hLater
    rw [Tx.wp_bind, Tx.wp_ofExcept]
    refine ⟨fun sources _ => wp_backfillLoop laws hLater, ?_⟩
    intro failure hList
    refine ⟨hLater, fun _ hReadable => ?_⟩
    have hRead := hLater.readable trivial hReadable
    have hOk := listKnowledgeSources_eq_ok_iff.mpr
      ⟨fun row hRow => hRead row (SourceTable.mem_list.mp hRow).1, rfl⟩
    rw [hList] at hOk
    cases hOk
  rw [backfillKnowledgeIntoRag, Tx.wp_bind, backfillCorpus, Tx.wp_ite]
  refine ⟨fun _ => ?_, fun _ => Tx.wp_pure.mpr ?_⟩
  · refine Tx.wp_step (wp_corpusFor_sound h) ?_ ?_
    · rintro corpusId s₁ ⟨hSound, hSources, _⟩
      exact Tx.wp_pure.mpr (hLoop (hStart.other hSound hSources))
    · rintro failure s₁ ⟨hSound, hSources, hNot⟩
      exact ⟨hStart.other hSound hSources, fun _ _ => hNot⟩
  · exact hLoop hStart

end

end Backfill

/-! ## Healing -/

section Healing

variable {healing : Healing} {w : World}

theorem scheme_of_upload {netlocError : List Char → Bool} {uri : String} {parsed : SplitUrl}
    (hUpload : IsUpload uri) (h : urlsplit netlocError uri = .ok parsed) :
    parsed.scheme = "upload".toList := by
  obtain ⟨name, rfl⟩ := hUpload
  have hList : ("upload://" ++ name).toList =
      'u' :: 'p' :: 'l' :: 'o' :: 'a' :: 'd' :: ':' :: '/' :: '/' :: name.toList := by
    rw [String.toList_append]
    rfl
  have hScheme : (splitScheme (stripUrl ("upload://" ++ name).toList)).1 = "upload".toList := by
    simp [stripUrl, splitScheme, schemeChar]
  unfold urlsplit at h
  dsimp only at h
  split at h
  · cases h
  · cases h
    exact hScheme

theorem not_upload_of_classify {files : Path → Option Bytes} {decision : Decision}
    (h : healing.classify files source = .ok decision)
    (hDecision : ∀ detail, decision ≠ .unrecoverable detail) : ¬ IsUpload source.canonicalUri := by
  intro hUpload
  obtain ⟨found, hFound, h⟩ := of_bind h
  obtain ⟨parsed, hParsed, hPath⟩ := of_bind hFound
  have hScheme := scheme_of_upload hUpload hParsed
  rw [hScheme, if_pos (.inl (by decide))] at hPath
  obtain rfl := pure_eq_ok_iff.mp hPath
  obtain rfl := pure_eq_ok_iff.mp h
  exact hDecision _ rfl

theorem not_upload_asUri (disk : Disk) (path : Path) : ¬ IsUpload (disk.asUri path) := by
  rintro ⟨name, hName⟩
  obtain ⟨rest, hRest⟩ := disk.asUri_file path
  have hList := congrArg String.toList (hRest.symm.trans hName)
  rw [String.toList_append, String.toList_append] at hList
  have hHead := congrArg List.head? hList
  cases hHead

def ReadFrom (s : RagStore) (source : KnowledgeSource) : Prop :=
  ∃ row ∈ s.sources.rows, row.sourceId = source.sourceId ∧ row.canonicalUri = source.canonicalUri

theorem wp_alignDigest {data : Bytes} (h : Later healing.pipeline True before s)
    (hRow : ReadFrom s source) (hValid : sourceValid source.canonicalUri source.title = true) :
    Tx.wp (healing.alignDigest source data) (fun _ s₁ => Later healing.pipeline True before s₁)
      (fun failure s₁ => Later healing.pipeline True before s₁ ∧
        (NoRival healing s source data → ¬ failure.Blocked)) s := by
  obtain ⟨row, hMem, hId, hUri⟩ := hRow
  rw [Healing.alignDigest, Tx.wp_ite]
  refine ⟨fun hDigest => ?_, fun _ => Tx.wp_pure.mpr h⟩
  refine wp_saveKnowledgeSource ?_ (fun _ => ⟨h, fun _ => id⟩) ?_
  · intro sources hSave
    obtain ⟨n, hn, hDrawn⟩ := h.sound.source_id row hMem
    refine h.save hSave ⟨n, hn, hId.symm.trans hDrawn⟩ ?_ fun _ => hValid
    intro other hOther hSame
    rw [SourceTable.eq_of_sourceId_eq hOther hMem (hSame.trans hId.symm)]
    exact hUri
  · intro hTaken
    refine ⟨h, fun hNoRival _ => ?_⟩
    obtain ⟨sources, hSave⟩ := @save_eq_some s.sources
      { source with digest := healing.pipeline.sha256Bytes data }
      fun other hOther hKey => hNoRival hDigest other hOther hKey
    rw [hTaken] at hSave
    cases hSave

/-- A call of `_ingest` is clear: its uri is the uri of a file. -/
theorem clear_ingestCall (laws : Collisionless healing.pipeline) (h : Sound healing.pipeline s)
    {data : Bytes} {uri : String} {metadata : Payload}
    (hValid : sourceValid source.canonicalUri source.title = true) (hUri : ¬ IsUpload uri) :
    Clear healing.pipeline (healing.ingestCall source data uri metadata) s := by
  intro row hRow hKey
  have hRowUri : row.canonicalUri = uri := (Prod.ext_iff.mp hKey).2
  constructor
  · unfold sourceValid at hValid
    rw [decide_eq_true_iff] at hValid
    exact hValid.2
  · intro document hDocument hSource hStable
    rcases h.document_of document hDocument with hOwn | ⟨-, other, hOther, hId, hUpload⟩
    · exact laws.sha256_ne _ _ (hOwn.symm.trans hStable)
    · rw [SourceTable.eq_of_sourceId_eq hOther hRow (hId.trans hSource), hRowUri] at hUpload
      exact hUri hUpload

/-- In the healing, the authors and the year are those of the row. -/
def Failure.FromRow (failure : Failure) : Prop := failure.Blocked ∨ failure.IllTyped

theorem not_fromRow_raised {error : Raised} : ¬ (Failure.raised error).FromRow :=
  not_or.mpr ⟨id, id⟩

theorem wp_ingest_typed {data : Bytes} {uri : String} {metadata : Payload} :
    Tx.wp (healing.ingest source data uri metadata) (fun _ _ => True)
      (fun failure _ => Healable healing s source data → ¬ failure.IllTyped) s := by
  by_cases hHealable : Healable healing s source data
  · have hOnly : Tx.RaisesOnly (fun failure => ¬ failure.IllTyped)
        (healing.ingest source data uri metadata) :=
      .bind (.ite raisesOnly_save (.pure ())) fun _ =>
        .bind (raisesOnly_ingestDocument hHealable.typed) fun _ => .pure _
    exact Tx.wp_mono (hOnly s) (fun _ _ h => h) fun _ _ h _ => h
  · unfold Tx.wp
    split
    · trivial
    · exact fun h => absurd h hHealable

theorem wp_ingest_rows (laws : Collisionless healing.pipeline) {data : Bytes} {uri : String}
    {metadata : Payload} (h : Later healing.pipeline True before s) (hRow : ReadFrom s source)
    (hValid : sourceValid source.canonicalUri source.title = true) (hUri : ¬ IsUpload uri) :
    Tx.wp (healing.ingest source data uri metadata)
      (fun _ s₁ => Later healing.pipeline True before s₁)
      (fun failure s₁ => Later healing.pipeline True before s₁ ∧
        (Healable healing s source data → Readable before.sources → ¬ failure.Blocked)) s := by
  refine Tx.wp_step (wp_alignDigest h hRow hValid) ?_ fun _ _ hRaised =>
    ⟨hRaised.1, fun hHealable _ => hRaised.2 hHealable.noRival⟩
  intro _ s₁ hLater
  have hClear := @clear_ingestCall _ _ _ laws hLater.sound data _ metadata hValid hUri
  refine Tx.wp_step (wp_ingestDocument laws hLater.sound) ?_ ?_
  · intro report s₂ hNext
    exact Tx.wp_pure.mpr (hLater.trans (hNext.mono fun _ => hClear))
  · rintro failure s₂ ⟨hNext, hNot⟩
    exact ⟨hLater.trans (hNext.mono fun _ => hClear), fun _ hReadable =>
      hNot hClear (hLater.readable trivial hReadable)⟩

theorem wp_ingest (laws : Collisionless healing.pipeline) {data : Bytes} {uri : String}
    {metadata : Payload} (h : Later healing.pipeline True before s) (hRow : ReadFrom s source)
    (hValid : sourceValid source.canonicalUri source.title = true) (hUri : ¬ IsUpload uri) :
    Tx.wp (healing.ingest source data uri metadata)
      (fun _ s₁ => Later healing.pipeline True before s₁)
      (fun failure s₁ => Later healing.pipeline True before s₁ ∧
        (Healable healing s source data → Readable before.sources → ¬ failure.FromRow)) s := by
  refine Tx.wp_mono (Tx.wp_and (wp_ingest_rows laws h hRow hValid hUri) wp_ingest_typed)
    (fun _ _ hBoth => hBoth.1) ?_
  rintro failure s₁ ⟨⟨hLater, hNot⟩, hTyped⟩
  exact ⟨hLater, fun hHealable hReadable =>
    not_or.mpr ⟨hNot hHealable hReadable, hTyped hHealable⟩⟩

def Healing.bytesFor (healing : Healing) (w : World) : Decision → Option Bytes
  | .unrecoverable _ => none
  | .local path => w.files (healing.disk.resolve path)
  | .fetch _ _ url => (healing.download w.fetched.length url).toOption

theorem wp_healSource (laws : Collisionless healing.pipeline) {decision : Decision}
    (h : Later healing.pipeline True before w.store) (hRow : ReadFrom w.store source)
    (hValid : sourceValid source.canonicalUri source.title = true)
    (hClassify : healing.classify w.files source = .ok decision) :
    Tx.wp (healing.healSource source decision)
      (fun _ w₁ => Later healing.pipeline True before w₁.store)
      (fun failure w₁ => Later healing.pipeline True before w₁.store ∧
        ((∀ data, healing.bytesFor w decision = some data → Healable healing w.store source data) →
          Readable before.sources → ¬ failure.FromRow)) w := by
  cases decision with
  | unrecoverable detail => exact Tx.wp_pure.mpr h
  | «local» path =>
    have hUri := not_upload_of_classify hClassify nofun
    rw [Healing.healSource, Tx.wp_ite]
    refine ⟨fun _ => ?_, fun _ => Tx.wp_pure.mpr h⟩
    rw [Healing.healLocal, Tx.wp_bind, Tx.wp_get]
    split
    next data _ hData =>
      rw [Tx.wp_bind, wp_onStore]
      refine Tx.wp_mono (wp_ingest laws h hRow hValid hUri) ?_ ?_
      · intro chunks s₁ hLater
        exact Tx.wp_pure.mpr hLater
      · rintro failure s₁ ⟨hLater, hNot⟩
        exact ⟨hLater, fun hRival => hNot (hRival data hData)⟩
    · exact Tx.wp_raise.mpr ⟨h, fun _ _ => not_fromRow_raised⟩
    · exact Tx.wp_raise.mpr ⟨h, fun _ _ => not_fromRow_raised⟩
  | fetch name arxivId url =>
    rw [Healing.healSource, Tx.wp_ite]
    refine ⟨fun _ => ?_, fun _ => Tx.wp_pure.mpr h⟩
    rw [Healing.healFetch, Tx.wp_bind]
    refine wp_fetch ?_ fun _ => ⟨h, fun _ _ => not_fromRow_raised⟩
    intro data hData
    have hBytes : healing.bytesFor w (.fetch name arxivId url) = some data := by
      rw [Healing.bytesFor, hData]
      rfl
    rw [Tx.wp_bind]
    refine wp_stageRawPdf ?_ fun _ => ⟨h, fun _ _ => not_fromRow_raised⟩
    rw [Tx.wp_bind, Tx.wp_modify, Tx.wp_bind]
    refine wp_ingestStaged (Tx.wp_mono (wp_ingest laws h hRow hValid
      (not_upload_asUri healing.disk _)) ?_ ?_)
    · intro chunks s₁ hLater
      exact Tx.wp_pure.mpr hLater
    · rintro failure s₁ ⟨hLater, hNot⟩
      exact ⟨hLater, fun hRival => hNot (hRival data hBytes)⟩

/-- A turn that does not meet a row in its way: the source can be classified, and its row is no
hindrance to healing it with the bytes that are found for it. -/
def TurnClear (healing : Healing) (call : ReingestCall) (pass : Pass) (source : KnowledgeSource) :
    Prop :=
  Visits call pass source →
    ∃ decision, healing.classify pass.world.files source = .ok decision ∧
      (pass.atLimit call = false →
        ∀ data, healing.bytesFor pass.world decision = some data →
          Healable healing pass.world.store source data)

/-- Nothing has failed because of a row. -/
structure PassClean (pass : Pass) : Prop where
  raised : pass.raised = none
  entries : ∀ entry ∈ pass.report.sources, ∀ failure, entry.failure = some failure →
    ¬ failure.FromRow

def PassLater (healing : Healing) (before : RagStore) (pass : Pass) : Prop :=
  Later healing.pipeline True before pass.world.store

def PassSound (healing : Healing) (before : RagStore) (pass : Pass) : Prop :=
  PassLater healing before pass ∧ PassClean pass

theorem PassClean.add {pass : Pass} {report : ReingestReport} {entry : ReingestSourceReport}
    (h : ∀ entry ∈ pass.report.sources, ∀ failure, entry.failure = some failure →
      ¬ failure.FromRow)
    (hSources : report.sources = pass.report.sources ++ [entry])
    (hEntry : ∀ failure, entry.failure = some failure → ¬ failure.FromRow) :
    ∀ entry ∈ report.sources, ∀ failure, entry.failure = some failure → ¬ failure.FromRow := by
  intro other hOther
  rw [hSources] at hOther
  rcases mem_append.mp hOther with hOther | hOther
  · exact h other hOther
  · rw [mem_singleton.mp hOther]
    exact hEntry

theorem act_keeps (laws : Collisionless healing.pipeline) {pass : Pass} {decision : Decision}
    (h : Later healing.pipeline True before pass.world.store)
    (hRow : ReadFrom pass.world.store source)
    (hValid : sourceValid source.canonicalUri source.title = true)
    (hClassify : healing.classify pass.world.files source = .ok decision) :
    Later healing.pipeline True before (healing.act pass source decision).world.store ∧
      ((∀ data, healing.bytesFor pass.world decision = some data →
          Healable healing pass.world.store source data) → Readable before.sources →
        PassClean pass → PassClean (healing.act pass source decision)) := by
  have hWp := wp_healSource laws h hRow hValid hClassify
  unfold Tx.wp at hWp
  unfold Healing.act
  rcases hHeal :
    healing.healSource source decision pass.world with ⟨failure | ⟨status, chunks⟩, world⟩
  · rw [hHeal] at hWp
    refine ⟨hWp.1, fun hRival hReadable hClean => ⟨hClean.raised, ?_⟩⟩
    refine PassClean.add hClean.entries rfl ?_
    intro other hOther
    cases hOther
    exact hWp.2 hRival hReadable
  · rw [hHeal] at hWp
    refine ⟨hWp, fun _ _ hClean => ⟨hClean.raised, ?_⟩⟩
    refine PassClean.add hClean.entries rfl ?_
    intro other hOther
    cases hOther

theorem turn_keeps (laws : Collisionless healing.pipeline) {call : ReingestCall} {pass : Pass}
    (h : Later healing.pipeline True before pass.world.store)
    (hSource : source ∈ before.sources.rows)
    (hValid : sourceValid source.canonicalUri source.title = true) :
    Later healing.pipeline True before (healing.turn call pass source).world.store ∧
      (TurnClear healing call pass source → Readable before.sources → PassClean pass →
        PassClean (healing.turn call pass source)) := by
  have hRow : ReadFrom pass.world.store source := h.uris source hSource
  unfold Healing.turn
  split
  · exact ⟨h, fun _ _ hClean => hClean⟩
  next hOpen =>
    split
    · exact ⟨h, fun _ _ hClean => hClean⟩
    next hWanted =>
      split
      · refine ⟨h, fun _ _ hClean => ⟨hClean.raised, ?_⟩⟩
        refine PassClean.add hClean.entries rfl ?_
        intro failure hFailure
        cases hFailure
      next hChunks =>
        have hVisits : Visits call pass source := by
          rw [not_or] at hOpen
          exact ⟨by simpa using hOpen.1, by simpa using hOpen.2, by simpa using hWanted,
            by simpa using hChunks⟩
        unfold Healing.visit
        split
        next error hClassify =>
          refine ⟨h, fun hClear _ _ => ?_⟩
          obtain ⟨decision, hDecision, -⟩ := hClear hVisits
          cases hClassify.symm.trans hDecision
        next detail hClassify =>
          refine ⟨h, fun _ _ hClean => ⟨hClean.raised, ?_⟩⟩
          refine PassClean.add hClean.entries rfl ?_
          intro failure hFailure
          cases hFailure
        next decision _ hClassify =>
          split
          · exact ⟨h, fun _ _ hClean => ⟨hClean.raised, hClean.entries⟩⟩
          next hLimit =>
            obtain ⟨hLater, hClean⟩ := @act_keeps _ _ _ laws pass.consider _ h hRow hValid
              hClassify
            refine ⟨hLater, fun hClear hReadable hPass => ?_⟩
            obtain ⟨other, hOther, hRival⟩ := hClear hVisits
            obtain rfl := Except.ok.inj (hOther.symm.trans hClassify)
            exact hClean (hRival (Bool.eq_false_of_not_eq_true hLimit)) hReadable
              ⟨hPass.raised, hPass.entries⟩

end Healing

/-! ## Histories -/

inductive Step where
  | ingestBytes (settings : UploadSettings) (call : UploadCall)
  | backfill (call : BackfillCall)
  | ingestDocument (call : IngestCall)
  | reingest (healing : Healing) (call : ReingestCall) (files : Path → Option Bytes)

/-- A step, with what the engine raises in it. -/
structure CorpusOperation where
  faults : Faults
  step : Step

section Histories

variable (pipeline : Pipeline)

def healingOf (faults : Faults) (healing : Healing) : Healing :=
  { healing with pipeline := pipeline, faults := faults, apply := true }

def perform (s : RagStore) (operation : CorpusOperation) : RagStore :=
  match operation.step with
  | .ingestBytes settings call => (ingestBytes pipeline settings operation.faults call s).2
  | .backfill call =>
    (backfillKnowledgeIntoRag pipeline operation.faults { call with apply := true } s).2
  | .ingestDocument call => (ingestDocument pipeline operation.faults call s).2
  | .reingest healing call files =>
    ((healingOf pipeline operation.faults healing).reingestMissingChunks call s files).world.store

/-- A step raises because of a row that is there. -/
def FailsByRow {α : Type} (outcome : Except Failure α × RagStore) : Prop :=
  ∃ failure, outcome.1 = .error failure ∧ failure.Blocked

/-- A step fails because of a row that is there. The healing raises, or reports that a source has
failed. -/
def Fails (s : RagStore) (operation : CorpusOperation) : Prop :=
  match operation.step with
  | .ingestBytes settings call => FailsByRow (ingestBytes pipeline settings operation.faults call s)
  | .backfill call =>
    FailsByRow (backfillKnowledgeIntoRag pipeline operation.faults { call with apply := true } s)
  | .ingestDocument call => FailsByRow (ingestDocument pipeline operation.faults call s)
  | .reingest healing call files =>
    ¬ PassClean ((healingOf pipeline operation.faults healing).reingestMissingChunks call s files)

/-- The step does not meet a row in its way. -/
def Admitted (s : RagStore) (operation : CorpusOperation) : Prop :=
  match operation.step with
  | .ingestBytes _ _ => True
  | .backfill _ => True
  | .ingestDocument call => Clear pipeline call s
  | .reingest healing call files =>
    Along ((healingOf pipeline operation.faults healing).turn call)
      (TurnClear (healingOf pipeline operation.faults healing) call) (startPass s files)
      (s.sources.list ∅ none)

variable {pipeline} {operation : CorpusOperation}

theorem reingest_keeps {healing : Healing} (laws : Collisionless healing.pipeline)
    (h : Sound healing.pipeline s) {call : ReingestCall} {files : Path → Option Bytes} :
    Later healing.pipeline True s (healing.reingestMissingChunks call s files).world.store ∧
      (Along (healing.turn call) (TurnClear healing call) (startPass s files)
          (s.sources.list ∅ none) → Readable s.sources →
        PassClean (healing.reingestMissingChunks call s files)) := by
  have hStart : Later healing.pipeline True s s := .refl h
  unfold Healing.reingestMissingChunks
  split
  next failure hList =>
    refine ⟨hStart, fun _ hReadable => ?_⟩
    have hOk := listKnowledgeSources_eq_ok_iff.mpr
      ⟨fun row hRow => hReadable row (SourceTable.mem_list.mp hRow).1, rfl⟩
    rw [hList] at hOk
    cases hOk
  next sources hList =>
    obtain ⟨hValid, rfl⟩ := listKnowledgeSources_eq_ok_iff.mp hList
    have hMem : ∀ {pass : Pass}, Along (healing.turn call) (fun _ source =>
        source ∈ s.sources.rows ∧ sourceValid source.canonicalUri source.title = true) pass
        (s.sources.list ∅ none) :=
      along_of_forall fun source hSource _ => ⟨(SourceTable.mem_list.mp hSource).1,
        hValid source hSource⟩
    constructor
    · have hKeeps : ∀ (pass : Pass) (source : KnowledgeSource), (source ∈ s.sources.rows ∧
          sourceValid source.canonicalUri source.title = true) → PassLater healing s pass →
          PassLater healing s (healing.turn call pass source) :=
        fun pass source hSource hLater => (turn_keeps laws hLater hSource.1 hSource.2).1
      exact hMem.invariant hKeeps hStart
    · intro hClear hReadable
      have hKeeps : ∀ (pass : Pass) (source : KnowledgeSource), ((source ∈ s.sources.rows ∧
          sourceValid source.canonicalUri source.title = true) ∧
          TurnClear healing call pass source) → PassSound healing s pass →
          PassSound healing s (healing.turn call pass source) := by
        rintro pass source ⟨hSource, hTurn⟩ ⟨hLater, hClean⟩
        obtain ⟨hNext, hKeeps⟩ := turn_keeps laws hLater hSource.1 hSource.2
        exact ⟨hNext, hKeeps hTurn hReadable hClean⟩
      have hSound : PassSound healing s (startPass s files) :=
        ⟨hStart, rfl, fun entry hEntry => absurd hEntry not_mem_nil⟩
      exact ((along_and.mpr ⟨hMem, hClear⟩).invariant hKeeps hSound).2

theorem perform_keeps (laws : Collisionless pipeline) (h : Sound pipeline s) :
    Later pipeline (Admitted pipeline s operation) s (perform pipeline s operation) ∧
      (Admitted pipeline s operation → Readable s.sources → ¬ Fails pipeline s operation) := by
  have hCommand : ∀ {α : Type} {t : Command α} {ok : Prop},
      Tx.wp t (fun _ s₁ => Later pipeline ok s s₁) (Raises pipeline ok s) s →
        Later pipeline ok s (t s).2 ∧ (ok → Readable s.sources → ¬ FailsByRow (t s)) := by
    intro α t ok hWp
    unfold Tx.wp at hWp
    rcases hRun : t s with ⟨failure | a, s₁⟩
    · rw [hRun] at hWp
      refine ⟨hWp.1, fun hOk hReadable => ?_⟩
      rintro ⟨other, hOther, hBlocked⟩
      cases hOther
      exact hWp.2 hOk hReadable hBlocked
    · rw [hRun] at hWp
      refine ⟨hWp, fun _ _ => ?_⟩
      rintro ⟨other, hOther, _⟩
      cases hOther
  obtain ⟨faults, step⟩ := operation
  cases step with
  | ingestBytes settings call => exact hCommand (wp_ingestBytes laws h)
  | backfill call => exact hCommand (wp_backfillKnowledgeIntoRag laws h)
  | ingestDocument call => exact hCommand (wp_ingestDocument laws h)
  | reingest healing call files =>
    obtain ⟨hLater, hClean⟩ := @reingest_keeps _ (healingOf pipeline faults healing) laws h call
      files
    exact ⟨hLater.mono fun _ => trivial, fun hAdmitted hReadable hFails =>
      hFails (hClean hAdmitted hReadable)⟩

structure OneDocument (s : RagStore) : Prop where
  document : ∀ document ∈ s.documents.rows, ∀ other ∈ s.documents.rows,
    document.sourceId = other.sourceId → document = other
  chunk : ∀ chunk ∈ s.chunks.rows, ∃ document ∈ s.documents.rows,
    document.sourceId = chunk.sourceId ∧ chunk.docId = some document.docId

theorem Sound.oneDocument (h : Sound pipeline s) : OneDocument s where
  document _ hDocument _ hOther hEq := UniqueTable.eq_of_key_eq hDocument hOther hEq
  chunk := h.chunk_of

/-- The invariant of a history whose steps are admitted. -/
def SoundReadable (pipeline : Pipeline) (s : RagStore) : Prop :=
  Sound pipeline s ∧ Readable s.sources

/-- **The operations compose.** After every history, a source has at most one document and its
chunks are chunks of that document. If no step of the history meets a row in its way, no step fails
because of a row that an earlier step has written. -/
theorem steps_compose (laws : Collisionless pipeline) (history : List CorpusOperation) :
    (∀ pre, pre <+: history → OneDocument (exec (perform pipeline) {} pre)) ∧
      (Along (perform pipeline) (Admitted pipeline) {} history →
        Along (perform pipeline) (fun s operation => ¬ Fails pipeline s operation) {} history) := by
  constructor
  · intro pre _
    have hKeeps : ∀ s operation, Sound pipeline s → Sound pipeline (perform pipeline s operation) :=
      fun s operation hSound => (perform_keeps laws hSound).1.sound
    exact (exec_invariant pre hKeeps (sound_empty pipeline)).oneDocument
  · intro hAdmitted
    have hKeeps : ∀ s operation, SoundReadable pipeline s → Admitted pipeline s operation →
        SoundReadable pipeline (perform pipeline s operation) := by
      rintro s operation ⟨hSound, hReadable⟩ hStep
      have hLater := (@perform_keeps _ _ operation laws hSound).1
      exact ⟨hLater.sound, hLater.readable hStep hReadable⟩
    have hBoth : Along (perform pipeline) (fun s operation => Admitted pipeline s operation ∧
        ¬ Fails pipeline s operation) {} history := by
      refine (along_congr hKeeps ?_ ⟨sound_empty pipeline, readable_empty⟩).mp hAdmitted
      rintro s operation ⟨hSound, hReadable⟩
      constructor
      · intro hStep
        exact ⟨hStep, (perform_keeps laws hSound).2 hStep hReadable⟩
      · exact And.left
    exact (along_and.mp hBoth).2

end Histories

/-- Digests and ids that keep what they are made of. -/
def plainPipeline : Pipeline where
  secretPath _ := none
  secretText _ := none
  digests := ⟨fun key => "#" ++ key, fun text => "d" ++ String.ofList text⟩
  sha256Bytes data := String.ofList (data.map fun byte => Char.ofNat byte.toNat)
  uuid n := String.ofList (List.replicate (n + 1) 'u')
  detectSections _ := []
  isIndexLike _ := false
  lower := id
  pyRepr text := "'" ++ text ++ "'"
  intOfText := readDigits

theorem collisionless_plainPipeline : Collisionless plainPipeline where
  uuid_injective := by
    intro n m h
    have hLength := congrArg List.length (congrArg String.toList h)
    simpa [plainPipeline] using hLength
  uuid_plain n := by simp [plainPipeline]
  detId_injective := by
    intro a b h
    exact append_toList_injective h
  sha256_injective := by
    intro a b h
    exact String.ofList_injective (append_toList_injective h)
  uuid_ne_detId n key h := by
    have hHead := congrArg List.head? (congrArg String.toList h)
    simp [plainPipeline, replicate_succ] at hHead
  sha256_ne text rest h := by
    have hHead := congrArg List.head? (congrArg String.toList h)
    simp [plainPipeline] at hHead

/-- The bytes `%PDF`, which say that notes are kept. -/
def notesText (_ : Bytes) : Except Raised ExtractedDocument := .ok ⟨"Keep notes.".toList, []⟩

def notesUpload : UploadCall where
  sourceType := .documentation
  filename := "notes.pdf"
  data := pdfMagic
  extract := notesText
  now := "2026-01-01"

def notesIngest : IngestCall where
  data := pdfMagic
  canonicalUri := "upload://notes.pdf"
  extract := notesText
  now := "2026-01-03"

def uploadNotes : CorpusOperation := ⟨noFaults, .ingestBytes {} notesUpload⟩

def backfillAll : CorpusOperation := ⟨noFaults, .backfill { now := "2026-01-02" }⟩

def ingestNotes : CorpusOperation := ⟨noFaults, .ingestDocument notesIngest⟩

/-- A paper whose extraction fails. Its row keeps the year that is given in the metadata. -/
def lostPaper (year : Value) : CorpusOperation :=
  ⟨noFaults, .ingestDocument
    { data := pdfMagic
      canonicalUri := "file:///raw/paper.pdf"
      extract := fun _ => .error ⟨"RuntimeError", "no text"⟩
      metadata := [("year", year)]
      now := "2026-01-04" }⟩

def rawFiles (path : Path) : Option Bytes :=
  if path = ["raw", "paper.pdf"] then some pdfMagic else none

def notesHealing : Healing where
  pipeline := plainPipeline
  faults := noFaults
  disk := plainDisk
  root := ["raw"]
  download _ _ := .error ⟨"URLError", "no network"⟩
  extract := notesText
  diskFault _ := none
  now := "2026-01-05"

def healPapers : CorpusOperation := ⟨noFaults, .reingest notesHealing {} rawFiles⟩

/-- What becomes of the paper in the healing. -/
def healedPaper (year : Value) : Pass :=
  (healingOf plainPipeline noFaults notesHealing).reingestMissingChunks {}
    (perform plainPipeline {} (lostPaper year)) rawFiles

/-- Two steps that fail because of a row. After the backfill of an upload, the ingestion of the same
bytes under the same uri finds a document of its source with another id. And a source whose metadata
has a year that is none cannot be healed. -/
theorem rows_in_the_way :
    ¬ Along (perform plainPipeline) (fun s operation => ¬ Fails plainPipeline s operation) {}
        [uploadNotes, backfillAll, ingestNotes] ∧
      ¬ Along (perform plainPipeline) (fun s operation => ¬ Fails plainPipeline s operation) {}
        [lostPaper (.str "n.d."), healPapers] := by
  constructor
  · rintro ⟨-, -, hLast, -⟩
    exact hLast ⟨.integrity "rag_documents.source_id" .taken, rfl, rfl⟩
  · rintro ⟨-, hLast, -⟩
    have hReport : (healedPaper (.str "n.d.")).report.sources.map ReingestSourceReport.failure =
        [some (.illTyped ⟨"ValidationError", "1 validation error for RagDocumentRecord"⟩)] := by
      decide +kernel
    refine hLast fun hClean => ?_
    obtain ⟨entry, hEntry, hFailure⟩ := mem_map.mp (hReport ▸ mem_singleton_self _)
    exact hClean.entries entry hEntry _ hFailure (.inr trivial)

def composedHistory : List CorpusOperation :=
  [lostPaper (.int 2024), healPapers, uploadNotes, backfillAll]

theorem steps_compose_notes :
    Along (perform plainPipeline) (Admitted plainPipeline) {} composedHistory ∧
      Along (perform plainPipeline) (fun s operation => ¬ Fails plainPipeline s operation) {}
        composedHistory := by
  have hAdmitted : Along (perform plainPipeline) (Admitted plainPipeline) {} composedHistory := by
    refine ⟨?_, ⟨?_, trivial⟩, trivial, trivial, trivial⟩
    · intro row hRow
      cases hRow
    · intro _
      refine ⟨.local ["raw", "paper.pdf"], rfl, fun _ data hData => ?_⟩
      obtain rfl : pdfMagic = data := Option.some.inj hData
      exact ⟨fun hDigest => absurd rfl hDigest, ⟨_, _, rfl, rfl⟩, _, rfl⟩
  exact ⟨hAdmitted, (steps_compose collisionless_plainPipeline _).2 hAdmitted⟩

end Glasslab.Corpus
