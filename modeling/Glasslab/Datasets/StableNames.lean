import Glasslab.Datasets.Registration
import Glasslab.Foundation.Machine

/-!
# Names of the dataset catalog

A name of the catalog is never bound to another digest (`step_keeps_names`). Two more things are
expected of a registration: an entry that it returns is the one of its name, and the same bytes are
registered again under the same name without a failure. `register_url` does both. `register_upload`
inserts an entry in any case, so that a repetition fails, and it inserts it under the name of the
stored record, which is another name if a call has stored the bytes and failed before it came to the
catalog. `stable_names_iff` says that a sequence of calls keeps the three laws just if no upload of
it is of these two kinds.
-/

namespace Glasslab.Datasets

open Foundation Foundation.Machine Knowledge List Except
open Corpus (isSpace)
open Methodology (isBlank pathName)

def Registration.name (call : Registration) : String :=
  match call.route with
  | .upload upload => upload.name
  | .url request => request.name

def DatasetIngestionManager.content (manager : DatasetIngestionManager) (call : Registration) :
    Option Bytes :=
  match call.route with
  | .upload upload => some upload.content
  | .url request => (manager.download request).toOption.map Prod.snd

def Registry.Binds (s : Registry) (name : String) (digest : Sha256) : Prop :=
  ∃ entry, s.getCatalogDatasetByName name = some entry ∧ entry.sha256 = digest

/-- What a call says apart from its name and its bytes is in order. -/
def Registration.inOrder (call : Registration) : Bool :=
  match call.route with
  | .upload upload => (safeFilename upload.filename).toBool ∧ isBlank upload.role = false
  | .url request => isBlank request.role = false

def Registration.containsLabels (call : Registration) : Bool :=
  match call.route with
  | .upload upload => upload.containsLabels
  | .url request => request.containsLabels

/-- The call repeats the registration of an entry: it has the name, the bytes and the declaration of
labels, and nothing fails in it. -/
structure Repeats (manager : DatasetIngestionManager) (s : Registry) (call : Registration)
    (entry : CatalogDatasetRecord) : Prop where
  name : ∃ name, safeName manager.library call.name = .ok name ∧
    s.getCatalogDatasetByName name = some entry
  content : ∃ content, manager.content call = some content ∧
    manager.library.sha256 content = entry.sha256 ∧ content ≠ [] ∧
      content.length ≤ manager.maximumBytes
  labels : ∀ record, s.getDataset entry.sha256 = some record →
    record.containsLabels = call.containsLabels
  inOrder : call.inOrder = true
  works : call.fault = none

structure StableStep (manager : DatasetIngestionManager) (s : Registry) (call : Registration) :
    Prop where
  /-- What is returned is in the catalog. -/
  returned : ∀ entry, (manager.register call s).1 = .ok entry → ∃ name content,
    safeName manager.library call.name = .ok name ∧ manager.content call = some content ∧
      (manager.step s call).Binds name (manager.library.sha256 content)
  /-- No name is bound to something else. -/
  kept : ∀ name digest, s.Binds name digest → (manager.step s call).Binds name digest
  /-- A repetition returns the entry. -/
  repeated : ∀ entry, Repeats manager s call entry →
    ∃ deduplicated, (manager.register call s).1 = .ok { entry with deduplicated }

structure Sound (s : Registry) : Prop where
  fresh : ∀ entry ∈ s.catalog.rows, entry.catalogId < s.issued
  stored : ∀ entry ∈ s.catalog.rows, ∃ record, s.getDataset entry.sha256 = some record
  digests : ∀ digest record, s.getDataset digest = some record → record.sha256 = digest

theorem sound_empty : Sound {} where
  fresh _ h := absurd h List.not_mem_nil
  stored _ h := absurd h List.not_mem_nil
  digests _ _ h := by cases h

variable {name : String} {digest : Sha256}

section Commands

variable {s s' : Registry}

theorem getCatalog_eq_some_iff {entry : CatalogDatasetRecord} :
    s.getCatalogDatasetByName name = some entry ↔ entry ∈ s.catalog.rows ∧ entry.name = name :=
  UniqueTable.findKey_eq_some_iff

theorem binds_iff : s.Binds name digest ↔
    ∃ entry ∈ s.catalog.rows, entry.name = name ∧ entry.sha256 = digest := by
  simp only [Registry.Binds, getCatalog_eq_some_iff, and_assoc]

variable {E : DatasetError → Registry → Prop}

theorem wp_refuse {condition : Prop} [Decidable condition] {error : DatasetError}
    {Q : Unit → Registry → Prop} :
    Tx.wp (refuse condition error) Q E s ↔ (condition → E error s) ∧ (¬ condition → Q () s) := by
  unfold Tx.wp refuse
  split <;> rename_i h <;> split at h <;> cases h <;> simp [*]

theorem wp_newCatalogId {Q : Nat → Registry → Prop} :
    Tx.wp newCatalogId Q E s ↔ Q s.issued { s with issued := s.issued + 1 } := Iff.rfl

/-- The tables are the same. -/
structure SameTables (s s' : Registry) : Prop where
  catalog : s'.catalog = s.catalog
  issued : s'.issued = s.issued
  datasets : ∀ digest, s'.getDataset digest = s.getDataset digest

theorem SameTables.refl (s : Registry) : SameTables s s := ⟨rfl, rfl, fun _ => rfl⟩

theorem sameTables_placeFile {filename : String} {content : Bytes} :
    SameTables s (s.placeFile digest filename content) := by
  unfold Registry.placeFile
  split
  · exact SameTables.refl s
  · exact ⟨rfl, rfl, fun _ => rfl⟩

variable {record : IngestedDatasetRecord}

theorem getDataset_insertDataset
    (hNew : s.getDataset record.datasetId = none) :
    (s.insertDataset record).getDataset digest =
      if digest = record.datasetId then some record else s.getDataset digest := by
  rw [Registry.insertDataset, hNew, Option.isSome_none, if_neg Bool.false_ne_true]
  unfold Registry.getDataset
  rw [List.find?_append]
  split
  next hEq =>
    rw [hEq, show s.datasets.find? _ = none from hNew]
    simp
  next hNe =>
    simp [Ne.symm hNe]

theorem saveDataset_spec {fault : Option Fault}
    (hNew : s.getDataset record.datasetId = none) :
    Tx.wp (saveDataset fault record)
      (fun stored s' => stored = record ∧ s'.catalog = s.catalog ∧ s'.issued = s.issued ∧
        ∀ digest, s'.getDataset digest =
          if digest = record.datasetId then some record else s.getDataset digest)
      (fun _ s' => s' = s) s := by
  simp only [saveDataset, Tx.wp_bind, wp_refuse, Tx.wp_modify, Tx.wp_get]
  refine ⟨fun _ => trivial, fun _ => ?_⟩
  have hSame : (s.insertDataset record).catalog = s.catalog ∧
      (s.insertDataset record).issued = s.issued := by
    unfold Registry.insertDataset
    split <;> exact ⟨rfl, rfl⟩
  rw [getDataset_insertDataset hNew, if_pos rfl, Tx.wp_pure]
  exact ⟨rfl, hSame.1, hSame.2, fun digest => getDataset_insertDataset hNew⟩

theorem saveCatalogDataset_spec {fault : Option Fault} {record : CatalogDatasetRecord}
    (hFresh : ∀ entry ∈ s.catalog.rows, entry.catalogId < record.catalogId) :
    Tx.wp (saveCatalogDataset fault record)
      (fun entry s' => entry = record ∧ fault ≠ some .catalogWrite ∧
        s.getCatalogDatasetByName record.name = none ∧ s'.issued = s.issued ∧
        (∀ digest, s'.getDataset digest = s.getDataset digest) ∧
        ∀ row, row ∈ s'.catalog.rows ↔ row = record ∨ row ∈ s.catalog.rows)
      (fun _ s' => s' = s ∧ (fault = some .catalogWrite ∨
        ∃ entry, s.getCatalogDatasetByName record.name = some entry)) s := by
  have hOther (entry : CatalogDatasetRecord) (hEntry : entry ∈ s.catalog.rows) :
      entry.catalogId ≠ record.catalogId := Nat.ne_of_lt (hFresh entry hEntry)
  simp only [saveCatalogDataset, Tx.wp_bind, wp_refuse, Tx.wp_get]
  refine ⟨fun hFault => ⟨trivial, .inl hFault⟩, fun hFault => ?_⟩
  cases hUpsert : s.catalog.upsert record with
  | none =>
    obtain ⟨entry, hEntry, -, hName⟩ := UniqueTable.upsert_eq_none_iff.mp hUpsert
    exact ⟨rfl, .inr ⟨entry, getCatalog_eq_some_iff.mpr ⟨hEntry, hName⟩⟩⟩
  | some catalog =>
    simp only [Tx.wp_bind, Tx.wp_modify, Tx.wp_pure]
    refine ⟨trivial, hFault, UniqueTable.findKey_eq_none_iff.mpr fun entry hEntry hName => ?_,
      trivial,
      fun _ => rfl, fun row => ?_⟩
    · have hClash := UniqueTable.upsert_eq_none_iff.mpr ⟨entry, hEntry, hOther entry hEntry, hName⟩
      rw [hUpsert] at hClash
      cases hClash
    · rw [UniqueTable.mem_upsert hUpsert]
      constructor
      · rintro (hRow | ⟨hRow, -⟩)
        · exact .inl hRow
        · exact .inr hRow
      · rintro (hRow | hRow)
        · exact .inl hRow
        · exact .inr ⟨hRow, hOther row hRow⟩

end Commands

section Names

/-- The component that a filename is cut down to is kept by the next cut. -/
theorem safeFilename_of_eq_ok {filename value : String} (h : safeFilename filename = .ok value) :
    safeFilename value = .ok value := by
  dsimp only [safeFilename] at h
  split at h
  · cases h
  next hPlain =>
    cases h
    have hSame : strippedName (strippedName filename) = strippedName filename := by
      push Not at hPlain
      obtain ⟨hEmpty, hDots, -, hChars⟩ := hPlain
      have hSlash : '/' ∉ (strippedName filename).toList := by
        intro hMem
        simp only [Bool.not_eq_true, any_eq_false] at hChars
        exact absurd (hChars '/' hMem) (by decide)
      have hDot : (strippedName filename).toList ≠ ['.'] := by
        intro hEq
        exact hDots (by rw [← String.ofList_toList (s := strippedName filename), hEq]; decide)
      have hNonempty : (strippedName filename).toList ≠ [] := by
        intro hEq
        exact hEmpty (String.toList_eq_nil_iff.mp hEq)
      have hName : pathName (strippedName filename) = (strippedName filename).toList := by
        unfold pathName
        rw [splitOn_eq_singleton hSlash]
        simp [hNonempty, hDot]
      have hStripped : strip (strippedName filename).toList = (strippedName filename).toList := by
        rw [strippedName, String.toList_ofList, strip_strip]
      rw [strippedName, hName, hStripped, String.ofList_toList]
    dsimp only [safeFilename]
    rw [hSame, if_neg hPlain]

theorem safeFilename_datasetFilename (fetched : FetchedUrl) :
    ∃ filename, safeFilename (datasetFilename fetched) = .ok filename := by
  unfold datasetFilename
  split
  next filename hFilename => exact ⟨filename, safeFilename_of_eq_ok hFilename⟩
  next => exact ⟨"dataset", by decide⟩

theorem isDatasetName_chars {text : List Char} (h : isDatasetName text = true) :
    ∀ c ∈ text, isLowerAlphanumeric c = true ∨ c = '_' ∨ c = '-' := by
  cases text with
  | nil => cases h
  | cons first rest =>
    simp only [isDatasetName, decide_eq_true_eq, all_eq_true] at h
    obtain ⟨hFirst, -, hRest⟩ := h
    intro c hc
    rcases mem_cons.mp hc with rfl | hc
    · exact .inl hFirst
    · exact hRest c hc

theorem plain_of_isDatasetName {text : List Char} (h : isDatasetName text = true) {c : Char}
    (hc : c ∈ text) :
    isSpace c = false ∧ (c.toNat < 128 ∧ ¬ ('A' ≤ c ∧ c ≤ 'Z')) ∧ c ≠ ' ' := by
  have hRange : 97 ≤ c.toNat ∧ c.toNat ≤ 122 ∨ 48 ≤ c.toNat ∧ c.toNat ≤ 57 ∨ c.toNat = 95 ∨
      c.toNat = 45 := by
    rcases isDatasetName_chars h c hc with hAlphanumeric | rfl | rfl
    · rw [isLowerAlphanumeric, decide_eq_true_eq] at hAlphanumeric
      rcases hAlphanumeric with hLetter | hDigit
      · exact .inl hLetter
      · exact .inr (.inl hDigit)
    · decide
    · decide
  refine ⟨?_, ⟨by omega, ?_⟩, ?_⟩
  · simp only [isSpace, decide_eq_false_iff_not]
    omega
  · rw [Char.le_def, Char.le_def, UInt32.le_iff_toNat_le, UInt32.le_iff_toNat_le]
    simp only [Char.toNat] at hRange
    have hA : 'A'.val.toNat = 65 := rfl
    have hZ : 'Z'.val.toNat = 90 := rfl
    omega
  · rintro rfl
    revert hRange
    decide

/-- A name that was normalized is not changed by the next normalization. -/
theorem safeName_of_eq_ok {library : Library} {name value : String}
    (h : safeName library name = .ok value) : safeName library value = .ok value := by
  dsimp only [safeName] at h
  split at h
  · cases h
  next hName =>
    rw [ok.inj h, Bool.not_eq_false] at hName
    have hPlain c (hc : c ∈ value.toList) := plain_of_isDatasetName hName hc
    have hStrip : strip value.toList = value.toList := strip_eq_self fun c hc => (hPlain c hc).1
    have hLower : library.lower value = value :=
      library.lower_eq value fun c hc => (hPlain c hc).2.1
    have hSame : normalizedName library value = value := by
      rw [normalizedName, hStrip, String.ofList_toList, hLower, ← String.toList_inj,
        String.toList_map]
      refine (map_congr_left fun c hc => if_neg (hPlain c hc).2.2).trans ?_
      exact map_id' _
    dsimp only [safeName]
    rw [hSame, if_neg (by simp [hName])]

end Names

-- from here on the two checks of names are used by their lemmas only
attribute [local irreducible] safeFilename safeName

variable {manager : DatasetIngestionManager} {record : IngestedDatasetRecord} {fault : Option Fault}

section Ingestion

variable {content : Bytes} {metadata : Metadata} {s s' : Registry}

/-- The checks that `ingest` makes before it looks for the bytes. -/
structure Accepted (manager : DatasetIngestionManager) (fault : Option Fault) (content : Bytes)
    (metadata : Metadata) (name : String) : Prop where
  filename : ∃ filename, safeFilename metadata.filename = .ok filename
  name : safeName manager.library metadata.name = .ok name
  role : isBlank metadata.role = false
  staged : fault ≠ some .staging
  bounded : content.length ≤ manager.maximumBytes
  nonempty : content ≠ []

/-- What `ingest` leaves behind when it returns. -/
structure Ingested (manager : DatasetIngestionManager) (content : Bytes) (metadata : Metadata)
    (s : Registry) (record : IngestedDatasetRecord) (s' : Registry) : Prop where
  catalog : s'.catalog = s.catalog
  issued : s'.issued = s.issued
  datasets : ∀ digest, s'.getDataset digest =
    if digest = manager.library.sha256 content then some record else s.getDataset digest
  /-- The bytes were stored with the same declaration, or the record is new. -/
  origin : s.getDataset (manager.library.sha256 content) = some record ∧
      record.containsLabels = metadata.containsLabels ∨
    s.getDataset (manager.library.sha256 content) = none ∧
      safeName manager.library metadata.name = .ok record.name ∧
      record.sha256 = manager.library.sha256 content

theorem ingest_spec (metadata : Metadata) : Tx.wp (manager.ingest fault content metadata)
    (fun record s' => Ingested manager content metadata s record s' ∧
      ∃ name, Accepted manager fault content metadata name)
    (fun _ s' => SameTables s s' ∧ ∀ name record, Accepted manager fault content metadata name →
      s.getDataset (manager.library.sha256 content) = some record →
        record.containsLabels ≠ metadata.containsLabels) s := by
  simp only [DatasetIngestionManager.ingest, Tx.wp_bind, Tx.wp_ofExcept, wp_refuse, Tx.wp_get]
  have hSame := SameTables.refl s
  refine ⟨fun filename hFilename => ⟨fun name hName => ⟨fun hRole => ?_, fun hRole =>
    ⟨fun hFault => ?_, fun hFault => ⟨fun hLarge => ?_, fun hLarge => ⟨fun hEmpty => ?_,
      fun hEmpty => ?_⟩⟩⟩⟩, fun error hName => ?_⟩, fun error hFilename => ?_⟩
  · exact ⟨hSame, fun name' record hAccepted => absurd hRole (by simp [hAccepted.role])⟩
  · exact ⟨hSame, fun name' record hAccepted => absurd hFault hAccepted.staged⟩
  · exact ⟨hSame, fun name' record hAccepted => absurd hLarge (Nat.not_lt.mpr hAccepted.bounded)⟩
  · exact ⟨hSame, fun name' record hAccepted => absurd hEmpty hAccepted.nonempty⟩
  · have hAccepted : Accepted manager fault content metadata name :=
      { filename := ⟨filename, hFilename⟩
        name := hName
        role := by simpa using hRole
        staged := hFault
        bounded := Nat.le_of_not_lt hLarge
        nonempty := hEmpty }
    cases hStored : s.getDataset (manager.library.sha256 content) with
    | some existing =>
      simp only [Tx.wp_bind, wp_refuse, Tx.wp_pure]
      refine ⟨fun hLabels => ⟨hSame, fun _ record _ hRecord => ?_⟩,
        fun hLabels => ⟨?_, name, hAccepted⟩⟩
      · cases hRecord
        exact hLabels
      · refine ⟨rfl, rfl, fun digest => ?_, .inl ⟨hStored, not_not.mp hLabels⟩⟩
        split
        next hDigest => rw [hDigest, hStored]
        · rfl
    | none =>
      have hPlaced : SameTables s (s.placeFile (manager.library.sha256 content) filename content) :=
        sameTables_placeFile
      have hNone : ∀ name' (record : IngestedDatasetRecord),
          Accepted manager fault content metadata name' → none = some record →
            record.containsLabels ≠ metadata.containsLabels := fun _ _ _ hRecord => nomatch hRecord
      simp only [DatasetIngestionManager.ingestNew, Tx.wp_bind, wp_refuse, Tx.wp_modify]
      refine ⟨fun _ => ⟨hSame, hNone⟩, fun _ => ⟨fun _ => ⟨hPlaced, hNone⟩, fun _ => ?_⟩⟩
      refine Tx.wp_mono (saveDataset_spec (hPlaced.datasets _ |>.trans hStored)) ?_ ?_
      · rintro record s' ⟨rfl, hCatalog, hIssued, hDatasets⟩
        refine ⟨⟨hCatalog.trans hPlaced.catalog, hIssued.trans hPlaced.issued, fun digest => ?_,
          .inr ⟨hStored, hName, rfl⟩⟩, name, hAccepted⟩
        rw [hDatasets, hPlaced.datasets]
        rfl
      · rintro error s' rfl
        exact ⟨hPlaced, hNone⟩
  · exact ⟨hSame, fun name' record hAccepted => by rw [hAccepted.name] at hName; cases hName⟩
  · refine ⟨hSame, fun name' record hAccepted => ?_⟩
    obtain ⟨filename, hOk⟩ := hAccepted.filename
    rw [hFilename] at hOk
    cases hOk

theorem Sound.sameTables (h : Sound s) (hSame : SameTables s s') : Sound s' where
  fresh := by
    rw [hSame.catalog, hSame.issued]
    exact h.fresh
  stored := by
    rw [hSame.catalog]
    simpa only [hSame.datasets] using h.stored
  digests := by simpa only [hSame.datasets] using h.digests

section

variable (h : Ingested manager content metadata s record s')
include h

theorem Ingested.sha256 (hSound : Sound s) :
    record.sha256 = manager.library.sha256 content := by
  rcases h.origin with ⟨hStored, -⟩ | ⟨-, -, hDigest⟩
  · exact hSound.digests _ _ hStored
  · exact hDigest

theorem Ingested.getDataset_eq :
    s'.getDataset (manager.library.sha256 content) = some record := by
  rw [h.datasets, if_pos rfl]

theorem Ingested.sound (hSound : Sound s) :
    Sound s' where
  fresh := by
    rw [h.catalog, h.issued]
    exact hSound.fresh
  stored := by
    rw [h.catalog]
    intro entry hEntry
    rw [h.datasets]
    split
    · exact ⟨record, rfl⟩
    · exact hSound.stored entry hEntry
  digests := by
    intro digest other hOther
    rw [h.datasets] at hOther
    split at hOther
    next hDigest =>
      cases hOther
      rw [h.sha256 hSound, hDigest]
    · exact hSound.digests digest other hOther

end

end Ingestion

/-! ## What a call does -/

/-- The catalog has one entry more, or none. -/
structure Outcome (s s' : Registry) (added : Option CatalogDatasetRecord) : Prop where
  rows : ∀ row, row ∈ s'.catalog.rows ↔ added = some row ∨ row ∈ s.catalog.rows
  sound : Sound s'

variable {call : Registration} {upload : Upload}

section Calls

variable {s s' : Registry} {added : Option CatalogDatasetRecord}

theorem Outcome.of_same (hSound : Sound s) (hSame : SameTables s s') : Outcome s s' none where
  rows := by simp [hSame.catalog]
  sound := hSound.sameTables hSame

theorem Outcome.binds (h : Outcome s s' added) (hBinds : s.Binds name digest) :
    s'.Binds name digest := by
  obtain ⟨entry, hEntry, hName⟩ := binds_iff.mp hBinds
  exact binds_iff.mpr ⟨entry, (h.rows entry).mpr (.inr hEntry), hName⟩

variable {entry : CatalogDatasetRecord}

theorem Outcome.binds_added (h : Outcome s s' (some entry)) :
    s'.Binds entry.name entry.sha256 :=
  binds_iff.mpr ⟨entry, (h.rows entry).mpr (.inl rfl), rfl, rfl⟩

variable {s₁ : Registry} {content : Bytes}

/-- The registry with the bytes, when an id is drawn for their entry. -/
theorem Ingested.drawn {metadata : Metadata} (h : Ingested manager content metadata s record s₁)
    (hSound : Sound s) :
    Outcome s { s₁ with issued := s₁.issued + 1 } none where
  rows := by simp [h.catalog]
  sound :=
    { fresh := fun row hRow => Nat.lt_succ_of_lt ((h.sound hSound).fresh row hRow)
      stored := (h.sound hSound).stored
      digests := (h.sound hSound).digests }

theorem saveNew_spec {metadata : Metadata} (hSound : Sound s)
    (hIngested : Ingested manager content metadata s record s₁)
    (hId : entry.catalogId = s₁.issued) (hSha : entry.sha256 = record.sha256) :
    Tx.wp (saveCatalogDataset fault entry)
      (fun saved s' => saved = entry ∧ fault ≠ some .catalogWrite ∧
        s.getCatalogDatasetByName entry.name = none ∧ Outcome s s' (some entry))
      (fun _ s' => Outcome s s' none ∧ (fault = some .catalogWrite ∨
        ∃ other, s.getCatalogDatasetByName entry.name = some other))
      { s₁ with issued := s₁.issued + 1 } := by
  have hSound₁ := hIngested.sound hSound
  have hCatalog (name : String) : Registry.getCatalogDatasetByName
      { s₁ with issued := s₁.issued + 1 } name = s.getCatalogDatasetByName name := by
    unfold Registry.getCatalogDatasetByName
    rw [hIngested.catalog]
  have hDrawn := hIngested.drawn hSound
  refine Tx.wp_mono (saveCatalogDataset_spec fun row hRow => hId ▸ hSound₁.fresh row hRow) ?_ ?_
  · rintro saved s' ⟨rfl, hFault, hNone, hIssued, hDatasets, hRows⟩
    refine ⟨rfl, hFault, hCatalog _ ▸ hNone, ?_⟩
    refine
      { rows := fun row => ?_
        sound :=
          { fresh := fun row hRow => ?_
            stored := fun row hRow => ?_
            digests := fun digest other hOther => ?_ } }
    · rw [hRows, hIngested.catalog, eq_comm, Option.some.injEq]
    · rw [hIssued]
      rcases (hRows row).mp hRow with rfl | hRow
      · exact hId ▸ Nat.lt_succ_self _
      · exact hDrawn.sound.fresh row hRow
    · rw [hDatasets]
      rcases (hRows row).mp hRow with rfl | hRow
      · rw [hSha, hIngested.sha256 hSound]
        exact ⟨record, hIngested.getDataset_eq⟩
      · exact hSound₁.stored row hRow
    · rw [hDatasets] at hOther
      exact hSound₁.digests digest other hOther
  · rintro error s' ⟨rfl, hReason⟩
    refine ⟨hDrawn, ?_⟩
    simpa only [hCatalog] using hReason

def UrlRequest.metadata (request : UrlRequest) (name : String) (fetched : FetchedUrl) :
    Metadata where
  filename := datasetFilename fetched
  name := name
  role := request.role
  containsLabels := request.containsLabels
  mediaType := fetched.mediaType
  uploadedBy := some request.createdBy

def Upload.metadata (upload : Upload) : Metadata where
  filename := upload.filename
  name := upload.name
  role := upload.role
  containsLabels := upload.containsLabels
  mediaType := upload.mediaType
  uploadedBy := some upload.createdBy

theorem registerUpload_spec (hSound : Sound s) :
    Tx.wp (manager.registerUpload fault upload)
      (fun entry s' => ∃ record s₁,
        Ingested manager upload.content upload.metadata s record s₁ ∧
          (∃ name, Accepted manager fault upload.content upload.metadata name) ∧
          fault ≠ some .catalogWrite ∧ s.getCatalogDatasetByName record.name = none ∧
          entry.name = record.name ∧ entry.sha256 = manager.library.sha256 upload.content ∧
          s.issued ≤ entry.catalogId ∧ Outcome s s' (some entry))
      (fun _ s' => Outcome s s' none ∧ ∀ name record,
        Accepted manager fault upload.content upload.metadata name →
        s.getDataset (manager.library.sha256 upload.content) = some record →
        record.containsLabels = upload.containsLabels → fault = some .catalogWrite ∨
          ∃ other, s.getCatalogDatasetByName record.name = some other) s := by
  refine Tx.wp_step (ingest_spec upload.metadata) ?_ ?_
  · rintro record s₁ ⟨hIngested, hAccepted⟩
    refine Tx.wp_mono (saveNew_spec hSound hIngested rfl rfl) ?_ ?_
    · rintro entry s' ⟨rfl, hFault, hNone, hOutcome⟩
      exact ⟨record, s₁, hIngested, hAccepted, hFault, hNone, rfl, hIngested.sha256 hSound,
        hIngested.issued.ge, hOutcome⟩
    · rintro error s' ⟨hOutcome, hReason⟩
      refine ⟨hOutcome, fun name other _ hStored hLabels => ?_⟩
      rcases hIngested.origin with ⟨hSame, -⟩ | ⟨hNone, -⟩
      · rw [hSame] at hStored
        cases hStored
        exact hReason
      · rw [hNone] at hStored
        cases hStored
  · rintro error s' ⟨hSame, hReason⟩
    exact ⟨.of_same hSound hSame, fun name record hAccepted hStored hLabels =>
      absurd hLabels (hReason name record hAccepted hStored)⟩

theorem sha256_of_download {fetched : FetchedUrl}
    (h : manager.download request = .ok (fetched, content)) :
    fetched.sha256 = manager.library.sha256 content := by
  unfold DatasetIngestionManager.download at h
  split at h
  next hDownload =>
    cases h
    exact (fetched_of_download hDownload).sha256
  · cases h

theorem catalogUrl_spec {filename : String} {fetched : FetchedUrl} {deduplicated : Bool}
    {metadata : Metadata} (hSound : Sound s)
    (hIngested : Ingested manager content metadata s record s₁) :
    Tx.wp (catalogUrl fault request name filename fetched deduplicated record)
      (fun entry s' => s.getCatalogDatasetByName name = none ∧ entry.name = name ∧
        entry.sha256 = manager.library.sha256 content ∧ Outcome s s' (some entry))
      (fun _ s' => Outcome s s' none) s₁ := by
  unfold catalogUrl
  rw [Tx.wp_bind, wp_newCatalogId, Tx.wp_bind, wp_refuse]
  refine ⟨fun _ => hIngested.drawn hSound, fun _ => ?_⟩
  refine Tx.wp_mono (saveNew_spec hSound hIngested rfl rfl) ?_ ?_
  · rintro entry s' ⟨rfl, -, hNone, hOutcome⟩
    exact ⟨hNone, rfl, hIngested.sha256 hSound, hOutcome⟩
  · rintro error s' ⟨hOutcome, -⟩
    exact hOutcome

theorem registerUrl_spec (hSound : Sound s) :
    Tx.wp (manager.registerUrl fault request)
      (fun entry s' => ∃ name fetched content, safeName manager.library request.name = .ok name ∧
        manager.download request = .ok (fetched, content) ∧
        ((∃ old, s.getCatalogDatasetByName name = some old ∧
            old.sha256 = manager.library.sha256 content ∧ entry =
    { old with deduplicated := true } ∧
            Outcome s s' none) ∨
          s.getCatalogDatasetByName name = none ∧ entry.name = name ∧
            entry.sha256 = manager.library.sha256 content ∧ Outcome s s' (some entry)))
      (fun _ s' => Outcome s s' none ∧ ∀ entry, ¬ Repeats manager s ⟨.url request, fault⟩ entry)
    s := by
  have hSame : Outcome s s none := .of_same hSound (.refl s)
  simp only [DatasetIngestionManager.registerUrl, Tx.wp_bind, Tx.wp_ofExcept, wp_refuse, Tx.wp_get]
  refine ⟨fun name hName => ⟨fun hRole => ?_, fun hRole => ⟨fun hFault => ?_, fun hFault =>
    ⟨fun got hGot => ⟨fun hOther => ?_, fun hOther => ?_⟩, fun error hGot => ?_⟩⟩⟩,
      fun error hName => ?_⟩
  · exact ⟨hSame, fun entry h => absurd hRole (by simpa [Registration.inOrder] using h.inOrder)⟩
  · exact ⟨hSame, fun entry h => by rw [show fault = none from h.works] at hFault; cases hFault⟩
  · obtain ⟨fetched, content⟩ := got
    refine ⟨hSame, fun entry h => ?_⟩
    obtain ⟨other, hOther, hNe⟩ := hOther
    obtain ⟨name', hName', hEntry⟩ := h.name
    obtain ⟨content', hContent', hSha, -⟩ := h.content
    obtain rfl : name = name' := ok.inj (hName.symm.trans hName')
    rw [hEntry] at hOther
    obtain rfl : entry = other := Option.some.inj hOther
    have hContent : content = content' := by
      simpa [DatasetIngestionManager.content, hGot, Except.toOption] using hContent'
    rw [sha256_of_download hGot, hContent] at hNe
    exact hNe hSha.symm
  · obtain ⟨fetched, content⟩ := got
    have hDigest := sha256_of_download hGot
    refine Tx.wp_mono (ingest_spec (request.metadata name fetched)) ?_ ?_
    · rintro record s₁ ⟨hIngested, -⟩
      have hSha := hIngested.sha256 hSound
      cases hExisting : s.getCatalogDatasetByName name with
      | some old =>
        have hOld : old.sha256 = manager.library.sha256 content := by
          by_contra hNe
          exact hOther ⟨old, hExisting, by rwa [hDigest]⟩
        dsimp only
        rw [if_pos (hOld.trans hSha.symm), Tx.wp_pure]
        refine ⟨name, fetched, content, hName, hGot, .inl ⟨old, hExisting, hOld, rfl, ?_⟩⟩
        exact ⟨fun row => by simp [hIngested.catalog], hIngested.sound hSound⟩
      | none =>
        refine Tx.wp_mono (catalogUrl_spec hSound hIngested) ?_ ?_
        · rintro entry s' ⟨-, hEntry⟩
          exact ⟨name, fetched, content, hName, hGot, .inr ⟨hExisting, hEntry⟩⟩
        · rintro error s' hOutcome
          refine ⟨hOutcome, fun entry h => ?_⟩
          obtain ⟨name', hName', hEntry⟩ := h.name
          obtain rfl : name = name' := ok.inj (hName.symm.trans hName')
          rw [hExisting] at hEntry
          cases hEntry
    · rintro error s' ⟨hTables, hReason⟩
      refine ⟨.of_same hSound hTables, fun entry h => ?_⟩
      obtain ⟨content', hContent', hSha, hNonempty, hBounded⟩ := h.content
      have hContent : content = content' := by
        simpa [DatasetIngestionManager.content, hGot, Except.toOption] using hContent'
      subst hContent
      obtain ⟨name', hName', hEntry⟩ := h.name
      obtain ⟨record, hStored⟩ := hSound.stored entry (getCatalog_eq_some_iff.mp hEntry).1
      refine hReason name record ?_ (hSha ▸ hStored) (h.labels record hStored)
      exact
        { filename := safeFilename_datasetFilename fetched
          name := safeName_of_eq_ok hName
          role := Bool.not_eq_true _ ▸ hRole
          staged := hFault
          bounded := hBounded
          nonempty := hNonempty }
  · refine ⟨hSame, fun entry h => ?_⟩
    obtain ⟨content', hContent', -⟩ := h.content
    simp [DatasetIngestionManager.content, hGot, Except.toOption] at hContent'
  · refine ⟨hSame, fun entry h => ?_⟩
    obtain ⟨name', hName', -⟩ := h.name
    cases hName.symm.trans hName'

theorem wp_iff {α : Type} {t : Command α} {Q : α → Registry → Prop}
    {E : DatasetError → Registry → Prop} :
    Tx.wp t Q E s ↔ (∀ a, (t s).1 = .ok a → Q a (t s).2) ∧ ∀ e,
    (t s).1 = .error e → E e (t s).2 := by
  unfold Tx.wp
  rcases t s with ⟨e | a, s₁⟩ <;> simp

variable {request : UrlRequest}

theorem register_of_upload (h : call.route = .upload upload) :
    manager.register call = manager.registerUpload call.fault upload := by
  rw [DatasetIngestionManager.register, h]

theorem register_of_url (h : call.route = .url request) :
    manager.register call = manager.registerUrl call.fault request := by
  rw [DatasetIngestionManager.register, h]

section

variable (hSound : Sound s)
include hSound

theorem upload_returned (hRoute : call.route = .upload upload)
    (h : (manager.register call s).1 = .ok entry) :
    ∃ record s₁, Ingested manager upload.content upload.metadata s record s₁ ∧
      (∃ name, Accepted manager call.fault upload.content upload.metadata name) ∧
      call.fault ≠ some .catalogWrite ∧ s.getCatalogDatasetByName record.name = none ∧
      entry.name = record.name ∧ entry.sha256 = manager.library.sha256 upload.content ∧
      s.issued ≤ entry.catalogId ∧ Outcome s (manager.step s call) (some entry) := by
  have hSpec : Tx.wp (manager.registerUpload call.fault upload) _ _ s := registerUpload_spec hSound
  rw [← register_of_upload hRoute, wp_iff] at hSpec
  exact hSpec.1 entry h

theorem upload_refused (hRoute : call.route = .upload upload)
    {error : DatasetError} (h : (manager.register call s).1 = .error error) :
    Outcome s (manager.step s call) none ∧ ∀ name record,
      Accepted manager call.fault upload.content upload.metadata name →
      s.getDataset (manager.library.sha256 upload.content) = some record →
      record.containsLabels = upload.containsLabels → call.fault = some .catalogWrite ∨
        ∃ other, s.getCatalogDatasetByName record.name = some other := by
  have hSpec : Tx.wp (manager.registerUpload call.fault upload) _ _ s := registerUpload_spec hSound
  rw [← register_of_upload hRoute, wp_iff] at hSpec
  exact hSpec.2 error h

theorem url_returned (hRoute : call.route = .url request)
    (h : (manager.register call s).1 = .ok entry) :
    ∃ name fetched content, safeName manager.library request.name = .ok name ∧
      manager.download request = .ok (fetched, content) ∧
      ((∃ old, s.getCatalogDatasetByName name = some old ∧
          old.sha256 = manager.library.sha256 content ∧ entry = { old with deduplicated := true } ∧
          Outcome s (manager.step s call) none) ∨
        s.getCatalogDatasetByName name = none ∧ entry.name = name ∧
          entry.sha256 = manager.library.sha256 content ∧
          Outcome s (manager.step s call) (some entry)) := by
  have hSpec : Tx.wp (manager.registerUrl call.fault request) _ _ s := registerUrl_spec hSound
  rw [← register_of_url hRoute, wp_iff] at hSpec
  exact hSpec.1 entry h

theorem url_refused (hRoute : call.route = .url request)
    {error : DatasetError} (h : (manager.register call s).1 = .error error) :
    Outcome s (manager.step s call) none ∧
      ∀ entry, ¬ Repeats manager s ⟨.url request, call.fault⟩ entry := by
  have hSpec : Tx.wp (manager.registerUrl call.fault request) _ _ s := registerUrl_spec hSound
  rw [← register_of_url hRoute, wp_iff] at hSpec
  exact hSpec.2 error h

end

end Calls

/-! ## When the names are stable -/

/-- An upload that is accepted and whose bytes are stored with the same declaration of labels. -/
structure Reuses (manager : DatasetIngestionManager) (s : Registry) (call : Registration)
    (upload : Upload) (name : String) (record : IngestedDatasetRecord) : Prop where
  route : call.route = .upload upload
  accepted : Accepted manager call.fault upload.content upload.metadata name
  stored : s.getDataset (manager.library.sha256 upload.content) = some record
  labels : record.containsLabels = upload.containsLabels

/-- No call is an upload that repeats an entry, and none takes bytes that are stored under another
name which the catalog does not have. -/
structure Kept (manager : DatasetIngestionManager) (s : Registry) (call : Registration) : Prop where
  notRepeated : ∀ upload name record, Reuses manager s call upload name record → call.fault = none →
    ¬ s.Binds name (manager.library.sha256 upload.content)
  notOrphaned : ∀ upload name record, Reuses manager s call upload name record →
    call.fault ≠ some .catalogWrite → record.name = name ∨
      (∃ entry, s.getCatalogDatasetByName record.name = some entry) ∨
        s.Binds name (manager.library.sha256 upload.content)

section Stable

variable {s s' : Registry}

/-- What a call leaves behind, whatever becomes of it. -/
theorem step_outcome (hSound : Sound s) : ∃ added, Outcome s (manager.step s call) added := by
  cases hRoute : call.route with
  | upload upload =>
    cases hResult : (manager.register call s).1 with
    | ok entry =>
      obtain ⟨_, _, _, _, _, _, _, _, _, hOutcome⟩ := upload_returned hSound hRoute hResult
      exact ⟨some entry, hOutcome⟩
    | error error => exact ⟨none, (upload_refused hSound hRoute hResult).1⟩
  | url request =>
    cases hResult : (manager.register call s).1 with
    | ok entry =>
      obtain ⟨_, _, _, _, _, ⟨_, _, _, _, hOutcome⟩ | ⟨_, _, _, hOutcome⟩⟩ :=
        url_returned hSound hRoute hResult
      · exact ⟨none, hOutcome⟩
      · exact ⟨some entry, hOutcome⟩
    | error error => exact ⟨none, (url_refused hSound hRoute hResult).1⟩

theorem step_keeps_names (hSound : Sound s) {digest : Sha256} (h : s.Binds name digest) :
    (manager.step s call).Binds name digest := by
  obtain ⟨added, hOutcome⟩ := step_outcome hSound
  exact hOutcome.binds h

variable {entry : CatalogDatasetRecord}

theorem Repeats.reuses (hSound : Sound s)
    (h : Repeats manager s call entry) (hRoute : call.route = .upload upload) :
    ∃ name record, Reuses manager s call upload name record ∧
      s.Binds name (manager.library.sha256 upload.content) := by
  obtain ⟨name, hName, hEntry⟩ := h.name
  obtain ⟨content, hContent, hSha, hNonempty, hBounded⟩ := h.content
  have hInOrder := h.inOrder
  have hLabels := h.labels
  rw [Registration.name, hRoute] at hName
  rw [DatasetIngestionManager.content, hRoute, Option.some.injEq] at hContent
  simp only [Registration.inOrder, hRoute, decide_eq_true_eq] at hInOrder
  simp only [Registration.containsLabels, hRoute] at hLabels
  subst hContent
  obtain ⟨record, hStored⟩ := hSound.stored entry (getCatalog_eq_some_iff.mp hEntry).1
  refine ⟨name, record, ⟨hRoute, ?_, hSha ▸ hStored, hLabels record hStored⟩,
    ⟨entry, hEntry, hSha.symm⟩⟩
  refine
    { filename := ?_
      name := hName
      role := hInOrder.2
      staged := by simp [h.works]
      bounded := hBounded
      nonempty := hNonempty }
  show ∃ filename, safeFilename upload.filename = .ok filename
  cases hFilename : safeFilename upload.filename with
  | ok filename => exact ⟨filename, rfl⟩
  | error error =>
    rw [hFilename] at hInOrder
    cases hInOrder.1

theorem Reuses.repeats (h : Reuses manager s call upload name record) (hWorks : call.fault = none)
    (hEntry : s.getCatalogDatasetByName name = some entry)
    (hSha : entry.sha256 = manager.library.sha256 upload.content) :
    Repeats manager s call entry where
  name := by
    rw [Registration.name, h.route]
    exact ⟨name, h.accepted.name, hEntry⟩
  content := by
    rw [DatasetIngestionManager.content, h.route]
    exact ⟨upload.content, rfl, hSha.symm, h.accepted.nonempty, h.accepted.bounded⟩
  labels := by
    intro other hOther
    rw [hSha, h.stored] at hOther
    cases hOther
    rw [Registration.containsLabels, h.route]
    exact h.labels
  inOrder := by
    obtain ⟨filename, hFilename⟩ := h.accepted.filename
    have hOk : safeFilename upload.filename = .ok filename := hFilename
    have hRole : isBlank upload.role = false := h.accepted.role
    rw [Registration.inOrder, h.route]
    simp [hOk, hRole, Except.toBool]
  works := hWorks

section

variable (hSound : Sound s)
include hSound

theorem stableStep_of_url {request : UrlRequest} (hRoute : call.route = .url request) :
    StableStep manager s call := by
  have hName : call.name = request.name := by rw [Registration.name, hRoute]
  have hContent : manager.content call = (manager.download request).toOption.map Prod.snd := by
    rw [DatasetIngestionManager.content, hRoute]
  refine ⟨fun entry hResult => ?_, fun name digest => step_keeps_names hSound,
    fun entry hRepeats => ?_⟩
  · obtain ⟨name, fetched, content, hOk, hGot, hCase⟩ := url_returned hSound hRoute hResult
    refine ⟨name, content, hName ▸ hOk, by rw [hContent, hGot]; rfl, ?_⟩
    rcases hCase with ⟨old, hOld, hSha, -, -⟩ | ⟨-, rfl, hSha, hOutcome⟩
    · exact step_keeps_names hSound ⟨old, hOld, hSha⟩
    · exact hSha ▸ hOutcome.binds_added
  · have hCall : (⟨.url request, call.fault⟩ : Registration) = call := by rw [← hRoute]
    cases hResult : (manager.register call s).1 with
    | error error =>
      have hNot := (url_refused hSound hRoute hResult).2 entry
      rw [hCall] at hNot
      exact absurd hRepeats hNot
    | ok returned =>
      obtain ⟨name, fetched, content, hOk, hGot, hCase⟩ := url_returned hSound hRoute hResult
      obtain ⟨name', hOk', hEntry⟩ := hRepeats.name
      rw [hName, hOk, Except.ok.injEq] at hOk'
      subst hOk'
      rcases hCase with ⟨old, hOld, -, rfl, -⟩ | ⟨hNone, -⟩
      · obtain rfl : old = entry := Option.some.inj (hOld.symm.trans hEntry)
        exact ⟨true, rfl⟩
      · cases hNone.symm.trans hEntry

theorem stableStep_of_kept (hRoute : call.route = .upload upload)
    (hKept : Kept manager s call) : StableStep manager s call := by
  refine ⟨fun entry hResult => ?_, fun name digest => step_keeps_names hSound,
    fun entry hRepeats => ?_⟩
  · have hContent : manager.content call = some upload.content := by
      rw [DatasetIngestionManager.content, hRoute]
    have hCallName : call.name = upload.name := by rw [Registration.name, hRoute]
    obtain ⟨record, s₁, hIngested, ⟨name, hAccepted⟩, hFault, hNone, hName, hSha, -, hOutcome⟩ :=
      upload_returned hSound hRoute hResult
    have hAdded :
        (manager.step s call).Binds record.name (manager.library.sha256 upload.content) := by
      rw [← hName, ← hSha]
      exact hOutcome.binds_added
    rw [hCallName]
    rcases hIngested.origin with ⟨hStored, hLabels⟩ | ⟨-, hNew, -⟩
    · refine ⟨name, upload.content, hAccepted.name, hContent, ?_⟩
      rcases hKept.notOrphaned upload name record ⟨hRoute, hAccepted, hStored, hLabels⟩ hFault with
        rfl | ⟨other, hOther⟩ | hBinds
      · exact hAdded
      · cases hNone.symm.trans hOther
      · exact hOutcome.binds hBinds
    · exact ⟨record.name, upload.content, hNew, hContent, hAdded⟩
  · obtain ⟨name, record, hReuses, hBinds⟩ := hRepeats.reuses hSound hRoute
    exact absurd hBinds (hKept.notRepeated upload name record hReuses hRepeats.works)

theorem kept_of_stableStep (h : StableStep manager s call) : Kept manager s call := by
  constructor
  · rintro upload name record hReuses hWorks ⟨entry, hEntry, hSha⟩
    obtain ⟨deduplicated, hResult⟩ := h.repeated entry (hReuses.repeats hWorks hEntry hSha)
    obtain ⟨_, _, _, _, _, _, _, _, hId, _⟩ := upload_returned hSound hReuses.route hResult
    have hOld := hSound.fresh entry (getCatalog_eq_some_iff.mp hEntry).1
    exact absurd hId (Nat.not_le.mpr hOld)
  · intro upload name record hReuses hFault
    cases hResult : (manager.register call s).1 with
    | error error =>
      rcases (upload_refused hSound hReuses.route hResult).2 name record hReuses.accepted
        hReuses.stored hReuses.labels with hWrite | hTaken
      · exact absurd hWrite hFault
      · exact .inr (.inl hTaken)
    | ok entry =>
      obtain ⟨name', content, hName', hContent, hBinds⟩ := h.returned entry hResult
      obtain ⟨record', s₁, hIngested, -, -, -, hName, -, -, hOutcome⟩ :=
        upload_returned hSound hReuses.route hResult
      have hSame : record' = record := by
        rcases hIngested.origin with ⟨hOld, -⟩ | ⟨hNone, -⟩
        · exact Option.some.inj (hOld.symm.trans hReuses.stored)
        · cases hNone.symm.trans hReuses.stored
      rw [Registration.name, hReuses.route] at hName'
      obtain rfl : name = name' := ok.inj (hReuses.accepted.name.symm.trans hName')
      rw [DatasetIngestionManager.content, hReuses.route, Option.some.injEq] at hContent
      subst hSame hContent
      rw [binds_iff] at hBinds
      obtain ⟨row, hRow, hRowName, hRowSha⟩ := hBinds
      rcases (hOutcome.rows row).mp hRow with hNew | hOld
      · cases hNew
        exact .inl (hName.symm.trans hRowName)
      · exact .inr (.inr (binds_iff.mpr ⟨row, hOld, hRowName, hRowSha⟩))

theorem stableStep_iff : StableStep manager s call ↔ Kept manager s call := by
  refine ⟨kept_of_stableStep hSound, fun hKept => ?_⟩
  cases hRoute : call.route with
  | upload upload => exact stableStep_of_kept hSound hRoute hKept
  | url request => exact stableStep_of_url hSound hRoute

end

/-- In a sequence of calls the names are stable just if no call is an upload of the two kinds. -/
theorem stable_names_iff (manager : DatasetIngestionManager) (calls : List Registration) :
    Along manager.step (StableStep manager) {} calls ↔ Along manager.step (Kept manager) {} calls :=
  along_congr
    (fun _ _ hSound _ => (step_outcome hSound).elim fun _ hOutcome => hOutcome.sound)
    (fun _ _ hSound => stableStep_iff hSound) sound_empty

end Stable

section Example

/-- A digest of sixty-four zeros for all bytes, and nothing in upper case. -/
def plainLibrary : Library where
  sha256 _ := ⟨String.ofList (List.replicate 64 '0'), by decide⟩
  urljoin _ location := location
  urlPath url := url
  lower text := text
  lower_eq _ _ := rfl

def plainManager : DatasetIngestionManager where
  library := plainLibrary
  root := "/mnt/artifacts/dataset-uploads"
  rootUri := "dataset-uploads"
  maximumBytes := 1024

def trainUpload : Registration where
  route := .upload { content := [1, 2, 3], filename := "train.csv", name := "train" }

/-- The second of two equal uploads fails, although it repeats the first one. -/
theorem repeated_upload_fails :
    ¬ Along plainManager.step (StableStep plainManager) {} [trainUpload, trainUpload] := by
  rintro ⟨-, hSecond, -⟩
  have hFails : (plainManager.register trainUpload (plainManager.step {} trainUpload)).1.toBool =
      false := by decide +kernel
  have hStored : ∀ record ∈ (plainManager.step {} trainUpload).datasets,
      record.containsLabels = false := by decide +kernel
  have hEntered : ((plainManager.step {} trainUpload).getCatalogDatasetByName "train").map
      CatalogDatasetRecord.sha256 = some (plainLibrary.sha256 [1, 2, 3]) := by decide +kernel
  obtain ⟨entry, hEntry, hSha⟩ := Option.map_eq_some_iff.mp hEntered
  have hRepeats : Repeats plainManager (plainManager.step {} trainUpload) trainUpload entry :=
    { name := ⟨"train", by decide +kernel, hEntry⟩
      content := ⟨[1, 2, 3], rfl, hSha.symm, by decide, by decide⟩
      labels := fun record hRecord => hStored record (mem_of_find?_eq_some hRecord)
      inOrder := by decide +kernel
      works := rfl }
  obtain ⟨deduplicated, hReturns⟩ := hSecond.repeated entry hRepeats
  rw [hReturns] at hFails
  cases hFails

end Example

end Glasslab.Datasets
