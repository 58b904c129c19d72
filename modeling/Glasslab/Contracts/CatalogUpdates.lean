import Glasslab.Contracts.Catalog

/-!
# Which promotions the catalog keeps

Two calls that both read the catalog before either has replaced it lose an entry: the second one
writes back what it read. The entry of a call that has returned stays in the catalog in every run
in which no call reads the catalog while another one is between its read and its replacement
(`keepsEntries`). The digest of a key does not change in any run, overlapping or not
(`keepsDigests`), as long as contract ids have no `@` and no hashed file of a shipped bundle is
dropped when it is copied.
-/

namespace Glasslab.Contracts.Catalog

open Foundation Foundation.Machine Foundation.Raising List

variable {manager : Manager} {store : Store} {call : Call} {stage : Stage}
  {descriptor : Descriptor} {digest key : String}

def Call.source : Call → Source
  | .promote candidate _ => candidate
  | .install source => source

/-- The contract id has no `@`, and the copy of a shipped bundle drops no file that is hashed. -/
def Call.Sane (call : Call) : Prop :=
  (∀ descriptor, call.source.descriptor = .ok descriptor → '@' ∉ descriptor.contractId.toList) ∧
    match call with
    | .promote _ _ => True
    | .install source =>
      ∀ file ∈ source.files, Kept file.1 → ∀ name ∈ file.1, ¬ ".pyc".toList <:+ name.toList

theorem treeDigest_copied (h : call.Sane) :
    treeDigest manager call.copied = treeDigest manager call.source.files := by
  cases call with
  | promote candidate expectedDigest => rfl
  | install source =>
    have hSame : (source.files.filter fun file => !file.1.any ignored).filter
        (fun file => Kept file.1) = source.files.filter fun file => Kept file.1 := by
      rw [filter_filter]
      refine filter_congr fun file hFile => ?_
      by_cases hKept : Kept file.1
      · have hNone : file.1.any ignored = false := by
          refine any_eq_false.mpr fun name hName => ?_
          have hCache : name ≠ "__pycache__" := by
            rintro rfl
            exact hKept.2.1 hName
          have hCode := h.2 file hFile hKept name hName
          rw [ignored, decide_eq_false (not_or.mpr ⟨hCache, hCode⟩)]
          exact Bool.false_ne_true
        simp [hKept, hNone]
      · simp [hKept]
    show treeDigest manager (source.files.filter fun file => !file.1.any ignored) = _
    rw [treeDigest, treeDigest, hSame]
    rfl

theorem verifySource_eq_ok (h : verifySource manager call = .ok (descriptor, digest)) :
    call.source.descriptor = .ok descriptor ∧
      treeDigest manager call.source.files = .ok digest := by
  cases call with
  | promote candidate expectedDigest =>
    rw [verifySource, bind_eq_ok_iff] at h
    obtain ⟨actual, hActual, h⟩ := h
    rw [check_eq_ok_iff, bind_eq_ok_iff, not_or, not_not, not_not] at h
    obtain ⟨⟨-, rfl⟩, found, hFound, h⟩ := h
    obtain ⟨rfl, rfl⟩ := Prod.mk.inj (pure_eq_ok_iff.mp h)
    exact ⟨hFound, hActual⟩
  | install source =>
    rw [verifySource, bind_eq_ok_iff] at h
    obtain ⟨found, hFound, h⟩ := h
    rw [bind_eq_ok_iff] at h
    obtain ⟨actual, hActual, h⟩ := h
    rw [check_eq_ok_iff] at h
    obtain ⟨rfl, rfl⟩ := Prod.mk.inj (pure_eq_ok_iff.mp h.2)
    exact ⟨hFound, hActual⟩

def inSection : Stage → Bool
  | .writeTemporary _ _ _ _ | .replaceCatalog _ _ _ => true
  | _ => false

theorem next_effect (manager : Manager) (store : Store) (thread : Call × Stage) :
    (next manager store thread).1 = store ∨
    (∃ descriptor digest, thread.2 = .place descriptor digest ∧
      store.promoted.lookup (destination descriptor) = none ∧
      next manager store thread =
        ({ store with promoted := store.promoted ++ [(destination descriptor, thread.1.copied)] },
          thread.1, .readCatalog descriptor digest)) ∨
    (∃ root descriptor digest catalog,
      thread.2 = .writeTemporary root descriptor digest catalog ∧
      next manager store thread =
        ({ store with temporary := some (Dict.set (catalogKey descriptor)
            (catalogEntry root descriptor digest) catalog) },
          thread.1, .replaceCatalog root descriptor digest)) ∨
    ∃ root descriptor digest written, thread.2 = .replaceCatalog root descriptor digest ∧
      store.temporary = some written ∧
      next manager store thread =
        ({ store with catalog := some written, temporary := none }, thread.1,
          .returned descriptor digest) := by
  obtain ⟨call, stage⟩ := thread
  cases stage with
  | verify =>
    left
    simp only [next]
    split <;> rfl
  | locate descriptor digest =>
    left
    simp only [next]
    split
    · rfl
    · split
      · rfl
      · split <;> rfl
  | place descriptor digest =>
    cases hPlace : store.promoted.lookup (destination descriptor) with
    | none => exact .inr (.inl ⟨descriptor, digest, rfl, hPlace, by simp only [next, hPlace]⟩)
    | some tree =>
      left
      simp only [next, hPlace]
  | readCatalog descriptor digest =>
    left
    simp only [next]
    split <;> rfl
  | writeTemporary root descriptor digest catalog =>
    exact .inr (.inr (.inl ⟨root, descriptor, digest, catalog, rfl, rfl⟩))
  | replaceCatalog root descriptor digest =>
    cases hWritten : store.temporary with
    | none =>
      left
      simp only [next, hWritten]
    | some written =>
      exact .inr (.inr (.inr ⟨root, descriptor, digest, written, rfl, rfl,
        by simp only [next, hWritten]⟩))
  | returned descriptor digest => exact .inl rfl
  | raised failure => exact .inl rfl

def readsCatalog : Stage → Bool
  | .readCatalog _ _ => true
  | _ => false

variable {thread : Call × Stage} {place : String × String}

theorem lookup_promoted_next {tree : Tree}
    (h : store.promoted.lookup place = some tree) :
    (next manager store thread).1.promoted.lookup place = some tree := by
  rcases next_effect manager store thread with hSame | ⟨_, _, -, -, hNext⟩ |
    ⟨_, _, _, _, -, hNext⟩ | ⟨_, _, _, _, -, -, hNext⟩
  · rwa [hSame]
  · rw [hNext, lookup_append, h]
    rfl
  · rwa [hNext]
  · rwa [hNext]

/-- Outside of its section a call leaves the catalog files alone. -/
theorem files_next (manager : Manager) (store : Store) (h : inSection thread.2 = false) :
    (next manager store thread).1.catalog = store.catalog ∧
      (next manager store thread).1.temporary = store.temporary := by
  rcases next_effect manager store thread with hSame | ⟨_, _, -, -, hNext⟩ |
    ⟨_, _, _, _, hStage, -⟩ | ⟨_, _, _, _, hStage, -, -⟩
  · rw [hSame]
    exact ⟨rfl, rfl⟩
  · rw [hNext]
    exact ⟨rfl, rfl⟩
  · rw [hStage] at h
    cases h
  · rw [hStage] at h
    cases h

theorem inSection_next (h : inSection (next manager store thread).2.2 = true) :
    inSection thread.2 = true ∨ readsCatalog thread.2 = true := by
  obtain ⟨call, stage⟩ := thread
  cases stage with
  | readCatalog descriptor digest => exact .inr rfl
  | writeTemporary root descriptor digest catalog => exact .inl rfl
  | replaceCatalog root descriptor digest => exact .inl rfl
  | verify =>
    simp only [next] at h
    split at h <;> cases h
  | locate descriptor digest =>
    simp only [next] at h
    split at h
    · cases h
    · split at h
      · cases h
      · split at h <;> cases h
  | place descriptor digest =>
    simp only [next] at h
    split at h <;> cases h
  | returned descriptor digest => cases h
  | raised failure => cases h

/-! ## Digests -/

variable (manager store)

def Placed (descriptor : Descriptor) (digest : String) : Prop :=
  '@' ∉ descriptor.contractId.toList ∧ ∃ tree,
    store.promoted.lookup (destination descriptor) = some tree ∧
      treeDigest manager tree = .ok digest

def SoundEntry (key : String) (entry : CatalogEntry) : Prop :=
  ∃ root descriptor digest, manager.promotedRoot = some root ∧ key = catalogKey descriptor ∧
    entry = catalogEntry root descriptor digest ∧ Placed manager store descriptor digest

def SoundCatalog (catalog : CatalogData) : Prop :=
  ∀ key entry, catalog.lookup key = some entry → SoundEntry manager store key entry

def SoundStore : Prop :=
  SoundCatalog manager store store.entries ∧
    ∀ written, store.temporary = some written → SoundCatalog manager store written

def SoundCall : Call × Stage → Prop
  | (call, .verify) => call.Sane
  | (call, .locate descriptor digest) | (call, .place descriptor digest) =>
    call.Sane ∧ verifySource manager call = .ok (descriptor, digest)
  | (_, .readCatalog descriptor digest) => Placed manager store descriptor digest
  | (_, .writeTemporary root descriptor digest catalog) =>
    Placed manager store descriptor digest ∧ manager.promotedRoot = some root ∧
      SoundCatalog manager store catalog
  | (_, .replaceCatalog root descriptor digest) =>
    Placed manager store descriptor digest ∧ manager.promotedRoot = some root
  | (_, .returned descriptor digest) => Placed manager store descriptor digest
  | (_, .raised _) => True

variable {manager store}

theorem Placed.next (h : Placed manager store descriptor digest) (thread : Call × Stage) :
    Placed manager (next manager store thread).1 descriptor digest := by
  obtain ⟨hId, tree, hTree, hDigest⟩ := h
  exact ⟨hId, tree, lookup_promoted_next hTree, hDigest⟩

variable {catalog : CatalogData}

theorem SoundCatalog.next (h : SoundCatalog manager store catalog) (thread : Call × Stage) :
    SoundCatalog manager (next manager store thread).1 catalog := by
  intro key entry hEntry
  obtain ⟨root, descriptor, digest, hRoot, hKey, hEq, hPlaced⟩ := h key entry hEntry
  exact ⟨root, descriptor, digest, hRoot, hKey, hEq, hPlaced.next thread⟩

theorem SoundCall.next {other : Call × Stage} (h : SoundCall manager store other)
    (thread : Call × Stage) :
    SoundCall manager (next manager store thread).1 other := by
  obtain ⟨call, stage⟩ := other
  cases stage with
  | verify => exact h
  | locate descriptor digest => exact h
  | place descriptor digest => exact h
  | readCatalog descriptor digest => exact Placed.next h thread
  | writeTemporary root descriptor digest catalog =>
    exact ⟨h.1.next thread, h.2.1, h.2.2.next thread⟩
  | replaceCatalog root descriptor digest => exact ⟨h.1.next thread, h.2⟩
  | returned descriptor digest => exact Placed.next h thread
  | raised failure => trivial

variable {root : Path}

theorem SoundCatalog.set (h : SoundCatalog manager store catalog)
    (hRoot : manager.promotedRoot = some root)
    (hPlaced : Placed manager store descriptor digest) :
    SoundCatalog manager store
      (Dict.set (catalogKey descriptor) (catalogEntry root descriptor digest) catalog) := by
  intro key entry hEntry
  rw [Dict.lookup_set] at hEntry
  split at hEntry
  · exact ⟨root, descriptor, digest, hRoot, ‹_›, (Option.some.inj hEntry).symm, hPlaced⟩
  · exact h key entry hEntry

theorem placed_of_place (hSane : call.Sane)
    (hVerify : verifySource manager call = .ok (descriptor, digest))
    (hFree : store.promoted.lookup (destination descriptor) = none) :
    Placed manager
      { store with promoted := store.promoted ++ [(destination descriptor, call.copied)] }
      descriptor digest := by
  obtain ⟨hDescriptor, hDigest⟩ := verifySource_eq_ok hVerify
  refine ⟨hSane.1 descriptor hDescriptor, call.copied, ?_, ?_⟩
  · rw [lookup_append, hFree]
    simp
  · rw [treeDigest_copied hSane, hDigest]

theorem soundStore_next (hStore : SoundStore manager store)
    (hCall : SoundCall manager store thread) :
    SoundStore manager (next manager store thread).1 := by
  have hEntries := hStore.1.next thread
  have hWritten := fun written h => (hStore.2 written h).next thread
  rcases next_effect manager store thread with hSame | ⟨_, _, -, -, hNext⟩ |
    ⟨root, descriptor, digest, catalog, hStage, hNext⟩ | ⟨_, _, _, written, -, hTemporary, hNext⟩
  · rwa [hSame]
  · rw [hNext] at hEntries hWritten ⊢
    exact ⟨hEntries, hWritten⟩
  · obtain ⟨call, stage⟩ := thread
    subst hStage
    obtain ⟨hPlaced, hRoot, hCatalog⟩ :=
      hCall.next (call, .writeTemporary root descriptor digest catalog)
    have hSet := hCatalog.set hRoot hPlaced
    refine ⟨hEntries, fun written h => ?_⟩
    rwa [← Option.some.inj h]
  · have hNew := hWritten written hTemporary
    rw [hNext] at hNew ⊢
    exact ⟨hNew, nofun⟩

theorem soundCall_next (hStore : SoundStore manager store)
    (hCall : SoundCall manager store thread) :
    SoundCall manager (next manager store thread).1 (next manager store thread).2 := by
  obtain ⟨call, stage⟩ := thread
  cases stage with
  | verify =>
    simp only [next]
    split
    · trivial
    · exact ⟨hCall, ‹_›⟩
  | locate descriptor digest =>
    obtain ⟨hSane, hVerify⟩ := hCall
    simp only [next]
    split
    · exact ⟨hSane, hVerify⟩
    · rename_i tree hTree
      split
      · trivial
      · rename_i existing hExisting
        split
        · trivial
        · rename_i hEq
          have hId := hSane.1 descriptor (verifySource_eq_ok hVerify).1
          exact ⟨hId, tree, hTree, not_not.mp hEq ▸ hExisting⟩
  | place descriptor digest =>
    obtain ⟨hSane, hVerify⟩ := hCall
    simp only [next]
    split
    · trivial
    · exact placed_of_place hSane hVerify ‹_›
  | readCatalog descriptor digest =>
    simp only [next]
    split
    · trivial
    · exact ⟨hCall, ‹_›, hStore.1⟩
  | writeTemporary root descriptor digest catalog => exact ⟨hCall.1, hCall.2.1⟩
  | replaceCatalog root descriptor digest =>
    simp only [next]
    split
    · trivial
    · exact hCall.1
  | returned descriptor digest => exact hCall
  | raised failure => trivial

def SaneMove (_ : Threads Store (Call × Stage)) : Move Call → Prop
  | .call call => call.Sane
  | .step _ => True

def Exclusive (s : Threads Store (Call × Stage)) : Move Call → Prop
  | .call _ => True
  | .step i =>
    s.locals[i]?.any (fun thread => readsCatalog thread.2) = true →
      ∀ j < s.locals.length, i ≠ j → s.locals[j]?.any (fun thread => inSection thread.2) = false

instance (s : Threads Store (Call × Stage)) : (move : Move Call) → Decidable (Exclusive s move)
  | .call _ => .isTrue trivial
  | .step _ => inferInstanceAs (Decidable (_ → _))

def Sound (manager : Manager) : Threads Store (Call × Stage) → Prop :=
  Threads.Holds (SoundStore manager) (SoundCall manager) fun _ _ => True

theorem sound_initial : Sound manager initial := by
  refine ⟨⟨?_, nofun⟩, fun i l h => ?_, fun _ _ _ _ _ _ _ => trivial⟩
  · intro key entry h
    cases h
  · cases h

theorem sound_step (s : Threads Store (Call × Stage)) (move : Move Call) (hSane : SaneMove s move)
    (hs : Sound manager s) : Sound manager ((program manager).step s move) := by
  cases move with
  | call call => exact hs.call hSane fun _ => ⟨trivial, trivial⟩
  | step i =>
    cases hThread : s.locals[i]? with
    | none => rwa [Program.step_of_none hThread]
    | some thread =>
      have hCall := hs.own i thread hThread
      refine hs.step hThread ⟨soundStore_next hs.shared hCall, soundCall_next hs.shared hCall⟩ ?_
      intro j other _ _ _ hOther
      exact ⟨hOther.next thread, trivial, trivial⟩

variable {descriptor' : Descriptor}

theorem catalogKey_inj (h : '@' ∉ descriptor.contractId.toList)
    (h' : '@' ∉ descriptor'.contractId.toList)
    (hKey : catalogKey descriptor = catalogKey descriptor') :
    destination descriptor = destination descriptor' := by
  have hList := congrArg String.toList hKey
  simp only [catalogKey, String.toList_append, append_assoc] at hList
  have hText : descriptor.contractId.toList ++ '@' :: descriptor.version.toList =
      descriptor'.contractId.toList ++ '@' :: descriptor'.version.toList := hList
  obtain ⟨hId, hVersion⟩ := append_cons_inj h h' hText
  exact Prod.ext (String.toList_injective hId) (String.toList_injective hVersion)

variable {store' : Store} {digest' : String}

theorem Placed.digest_eq (h : Placed manager store descriptor digest)
    (h' : Placed manager store' descriptor' digest')
    (hKey : catalogKey descriptor = catalogKey descriptor')
    (hMono : ∀ place tree, store.promoted.lookup place = some tree →
      store'.promoted.lookup place = some tree) : digest' = digest := by
  obtain ⟨hId, tree, hTree, hDigest⟩ := h
  obtain ⟨hId', tree', hTree', hDigest'⟩ := h'
  rw [← catalogKey_inj hId hId' hKey, hMono _ _ hTree] at hTree'
  obtain rfl := Option.some.inj hTree'
  exact Except.ok.inj (hDigest'.symm.trans hDigest)

variable {s : Threads Store (Call × Stage)}

theorem lookup_promoted_exec
    {tree : Tree} (moves : List (Move Call)) (h : s.shared.promoted.lookup place = some tree) :
    (exec (program manager).step s moves).shared.promoted.lookup place = some tree := by
  induction moves generalizing s with
  | nil => exact h
  | cons move moves ih =>
    have hNext (store : Store) (thread : Call × Stage)
        (hStore : store.promoted.lookup place = some tree) :
        ((program manager).next store thread).1.promoted.lookup place = some tree :=
      lookup_promoted_next hStore
    exact ih (Program.shared_step hNext move h)

/-- A key has the same digest whenever it is in the catalog. -/
def KeepsDigests (manager : Manager) (moves : List (Move Call)) : Prop :=
  ∀ before after key entry entry', before ++ after <+: moves →
    (exec (program manager).step initial before).shared.entries.lookup key = some entry →
    (exec (program manager).step initial (before ++ after)).shared.entries.lookup key =
      some entry' → entry'.digest = entry.digest

variable {moves : List (Move Call)}

theorem keepsDigests
    (h : Along (program manager).step SaneMove initial moves) : KeepsDigests manager moves := by
  intro before after key entry entry' hPrefix hEntry hEntry'
  have hBefore := h.invariant_prefix sound_step sound_initial
    ((prefix_append before after).trans hPrefix)
  have hAfter := h.invariant_prefix sound_step sound_initial hPrefix
  obtain ⟨-, descriptor, digest, -, hKey, rfl, hPlaced⟩ := hBefore.shared.1 key entry hEntry
  obtain ⟨-, descriptor', digest', -, hKey', rfl, hPlaced'⟩ := hAfter.shared.1 key entry' hEntry'
  refine hPlaced.digest_eq hPlaced' (hKey.symm.trans hKey') fun place tree hTree => ?_
  rw [exec_append]
  exact lookup_promoted_exec after hTree

/-! ## Entries -/

def Recorded (manager : Manager) (store : Store) (descriptor : Descriptor) (digest : String) :
    Prop :=
  ∃ root entry, manager.promotedRoot = some root ∧
    store.entries.lookup (catalogKey descriptor) = some entry ∧
    entry.contractId = descriptor.contractId ∧ entry.version = descriptor.version ∧
    entry.digest = digest ∧ entry.bundlePath = bundlePath root descriptor

/-- What a call in its section has read is what the catalog still holds. -/
def FreshCall (manager : Manager) (store : Store) : Call × Stage → Prop
  | (_, .writeTemporary _ _ _ catalog) => catalog = store.entries
  | (_, .replaceCatalog root descriptor digest) =>
    store.temporary = some (Dict.set (catalogKey descriptor)
      (catalogEntry root descriptor digest) store.entries)
  | (_, .returned descriptor digest) => Recorded manager store descriptor digest
  | _ => True

theorem Recorded.congr (h : Recorded manager store descriptor digest)
    (hEntries : store'.entries = store.entries) : Recorded manager store' descriptor digest := by
  obtain ⟨root, entry, hRoot, hEntry, hRest⟩ := h
  exact ⟨root, entry, hRoot, hEntries ▸ hEntry, hRest⟩

theorem recorded_of_entries (hRoot : manager.promotedRoot = some root)
    (h : store.entries = Dict.set (catalogKey descriptor) (catalogEntry root descriptor digest)
      catalog) : Recorded manager store descriptor digest := by
  refine ⟨root, catalogEntry root descriptor digest, hRoot, ?_, rfl, rfl, rfl, rfl⟩
  rw [h, Dict.lookup_set, if_pos rfl]

/-- The entry of another contract leaves this one recorded, and so does an entry of the same
contract. -/
theorem Recorded.set (h : Recorded manager store descriptor digest)
    (hPlaced : Placed manager store descriptor digest)
    (hRoot : manager.promotedRoot = some root)
    (hPlaced' : Placed manager store descriptor' digest')
    (hEntries : store'.entries = Dict.set (catalogKey descriptor')
      (catalogEntry root descriptor' digest') store.entries) :
    Recorded manager store' descriptor digest := by
  by_cases hKey : catalogKey descriptor = catalogKey descriptor'
  · have hDigest := hPlaced.digest_eq hPlaced' hKey fun _ _ hTree => hTree
    have hPlace := catalogKey_inj hPlaced.1 hPlaced'.1 hKey
    obtain ⟨hId, hVersion⟩ := Prod.mk.inj hPlace
    refine ⟨root, catalogEntry root descriptor' digest', hRoot, ?_, hId.symm, hVersion.symm,
      hDigest, ?_⟩
    · rw [hEntries, Dict.lookup_set, if_pos hKey]
    · rw [catalogEntry, bundlePath, bundlePath, hId, hVersion]
  · obtain ⟨root', entry, hRoot', hEntry, hRest⟩ := h
    refine ⟨root', entry, hRoot', ?_, hRest⟩
    rw [hEntries, Dict.lookup_set, if_neg hKey]
    exact hEntry

theorem freshCall_next (hSound : SoundCall manager store thread)
    (hFresh : FreshCall manager store thread) :
    FreshCall manager (next manager store thread).1 (next manager store thread).2 := by
  obtain ⟨call, stage⟩ := thread
  cases stage with
  | verify =>
    simp only [next]
    split <;> trivial
  | locate descriptor digest =>
    simp only [next]
    split
    · trivial
    · split
      · trivial
      · split <;> trivial
  | place descriptor digest =>
    simp only [next]
    split <;> trivial
  | readCatalog descriptor digest =>
    simp only [next]
    split
    · trivial
    · rfl
  | writeTemporary root descriptor digest catalog =>
    obtain rfl : catalog = store.entries := hFresh
    rfl
  | replaceCatalog root descriptor digest =>
    have hTemporary : store.temporary = _ := hFresh
    simp only [next, hTemporary]
    exact recorded_of_entries hSound.2 rfl
  | returned descriptor digest => exact hFresh
  | raised failure => trivial

theorem freshCall_other {other : Call × Stage} (hSound : SoundCall manager store thread)
    (hFresh : FreshCall manager store thread) (hOther : SoundCall manager store other)
    (hOtherFresh : FreshCall manager store other)
    (hApart : ¬ (inSection thread.2 = true ∧ inSection other.2 = true)) :
    FreshCall manager (next manager store thread).1 other := by
  have hFiles (h : inSection other.2 = true) :
      (next manager store thread).1.entries = store.entries ∧
        (next manager store thread).1.temporary = store.temporary := by
    have hOutside : inSection thread.2 = false :=
      Bool.eq_false_iff.mpr fun hInside => hApart ⟨hInside, h⟩
    obtain ⟨hCatalog, hTemporary⟩ := files_next manager store hOutside
    exact ⟨by rw [Store.entries, Store.entries, hCatalog], hTemporary⟩
  obtain ⟨call, stage⟩ := other
  cases stage with
  | writeTemporary root descriptor digest catalog =>
    obtain ⟨hEntries, -⟩ := hFiles rfl
    exact Eq.trans hOtherFresh hEntries.symm
  | replaceCatalog root descriptor digest =>
    obtain ⟨hEntries, hTemporary⟩ := hFiles rfl
    rw [FreshCall, hEntries, hTemporary]
    exact hOtherFresh
  | returned descriptor digest =>
    rcases next_effect manager store thread with hSame | ⟨_, _, -, -, hNext⟩ |
      ⟨_, _, _, _, -, hNext⟩ | ⟨root, descriptor', digest', written, hStage, hTemporary, hNext⟩
    · rwa [hSame]
    · rw [hNext]
      exact hOtherFresh.congr rfl
    · rw [hNext]
      exact hOtherFresh.congr rfl
    · obtain ⟨call', stage'⟩ := thread
      subst hStage
      obtain ⟨hPlaced', hRoot⟩ := hSound
      have hWritten := Option.some.inj (hTemporary.symm.trans hFresh)
      rw [hNext]
      exact hOtherFresh.set hOther hRoot hPlaced' hWritten
  | verify => trivial
  | locate descriptor digest => trivial
  | place descriptor digest => trivial
  | readCatalog descriptor digest => trivial
  | raised failure => trivial

def Fresh (manager : Manager) : Threads Store (Call × Stage) → Prop :=
  Threads.Holds (SoundStore manager)
    (fun store thread => SoundCall manager store thread ∧ FreshCall manager store thread)
    fun thread other => ¬ (inSection thread.2 = true ∧ inSection other.2 = true)

theorem fresh_initial : Fresh manager initial := by
  refine ⟨sound_initial.shared, fun i l h => ?_, fun i j l m _ h => ?_⟩
  · cases h
  · cases h

theorem fresh_step (s : Threads Store (Call × Stage)) (move : Move Call)
    (hMove : SaneMove s move ∧ Exclusive s move) (hs : Fresh manager s) :
    Fresh manager ((program manager).step s move) := by
  cases move with
  | call call =>
    refine hs.call ⟨hMove.1, trivial⟩ fun m => ⟨?_, ?_⟩
    · rintro ⟨h, -⟩
      cases h
    · rintro ⟨-, h⟩
      cases h
  | step i =>
    cases hThread : s.locals[i]? with
    | none => rwa [Program.step_of_none hThread]
    | some thread =>
      obtain ⟨hSound, hFresh⟩ := hs.own i thread hThread
      refine hs.step hThread ⟨soundStore_next hs.shared hSound,
        soundCall_next hs.shared hSound, freshCall_next hSound hFresh⟩ ?_
      intro j other hNe hOther hApart hOwn
      have hStill : ¬ (inSection (next manager s.shared thread).2.2 = true ∧
          inSection other.2 = true) := by
        rintro ⟨hInside, hOtherInside⟩
        rcases inSection_next hInside with hBefore | hReads
        · exact hApart ⟨hBefore, hOtherInside⟩
        · have hLength := (List.getElem?_eq_some_iff.mp hOther).1
          have hOutside := hMove.2 (by rw [hThread]; exact hReads) j hLength hNe
          rw [hOther, Option.any_some, hOtherInside] at hOutside
          cases hOutside
      exact ⟨⟨hOwn.1.next thread, freshCall_other hSound hFresh hOwn.1 hOwn.2 hApart⟩, hStill,
        fun h => hStill h.symm⟩

/-- The entry of a call stays in the catalog once the call has returned. -/
def KeepsEntries (manager : Manager) (moves : List (Move Call)) : Prop :=
  ∀ before, before <+: moves → ∀ (i : Nat) call descriptor digest,
    (exec (program manager).step initial before).locals[i]? =
        some (call, .returned descriptor digest) →
      Recorded manager (exec (program manager).step initial before).shared descriptor digest

/-- In every run, overlapping or not, no key changes its digest; and in every run in which no call
reads the catalog while another is between its read and its replacement, the entries of all calls
that have returned are in the catalog, with their own digests and paths. -/
theorem catalog_updates (manager : Manager) (moves : List (Move Call)) :
    (Along (program manager).step SaneMove initial moves → KeepsDigests manager moves) ∧
    (Along (program manager).step (fun s move => SaneMove s move ∧ Exclusive s move) initial moves →
      KeepsEntries manager moves) := by
  refine ⟨keepsDigests, fun h before hBefore i call descriptor digest hReturned => ?_⟩
  exact ((h.invariant_prefix fresh_step fresh_initial hBefore).own i _ hReturned).2

theorem along_sane_iff :
    Along (program manager).step SaneMove s moves ↔ ∀ call, .call call ∈ moves → call.Sane := by
  induction moves generalizing s with
  | nil => simp [Along]
  | cons move moves ih =>
    rw [Along, ih]
    cases move with
    | call call => simp [SaneMove]
    | step i => simp [SaneMove]

def demoManager : Manager where
  hash files :=
    String.ofList (files.flatMap fun file => file.2.map fun byte => Char.ofNat byte.toNat)
  promotedRoot := some ["bundles"]

def demoDescriptorOf (contractId : String) : Descriptor where
  contractId := contractId
  version := "1.0.0"
  manifest := []
  executionWrapper := "run.py"
  evaluationEntryPoint := "evaluate.py"
  expectedInputSchema := "input.json"
  expectedOutputSchema := "output.json"
  requiredArtifacts := ["metrics.json"]
  resourceConstraints := ⟨.finite 1, .finite 1, 0, 5⟩
  containerImageDigest := none

def demoPromotion (contractId digest : String) (content : Bytes) : Call :=
  .promote
    { files := [(["contract.json"], content)], checksum := digest,
      descriptor := .ok (demoDescriptorOf contractId) }
    digest

def alpha : Call := demoPromotion "alpha" "a" [97]

def beta : Call := demoPromotion "beta" "b" [98]

def oneAfterAnother : List (Move Call) :=
  [.call alpha, .call beta] ++ List.replicate 6 (.step 0) ++ List.replicate 6 (.step 1)

/-- Both promotions read the catalog before either has replaced it. -/
def bothReadFirst : List (Move Call) :=
  [.call alpha, .call beta] ++ List.replicate 4 (.step 0) ++ List.replicate 4 (.step 1) ++
    List.replicate 2 (.step 0) ++ List.replicate 2 (.step 1)

def Stage.promoted? : Stage → Option (String × String)
  | .returned descriptor digest => some (descriptor.contractId, digest)
  | _ => none

theorem demoCalls_sane (h : call = alpha ∨ call = beta) : call.Sane := by
  refine ⟨fun descriptor hDescriptor => ?_, ?_⟩
  · rcases h with rfl | rfl
    · obtain rfl := Except.ok.inj hDescriptor
      decide
    · obtain rfl := Except.ok.inj hDescriptor
      decide
  · rcases h with rfl | rfl <;> trivial

theorem catalog_updates_oneAfterAnother :
    (exec (program demoManager).step initial oneAfterAnother).shared.entries.map Prod.fst =
        ["alpha@1.0.0", "beta@1.0.0"] ∧
      KeepsDigests demoManager oneAfterAnother ∧ KeepsEntries demoManager oneAfterAnother := by
  have hSane : Along (program demoManager).step SaneMove initial oneAfterAnother :=
    along_sane_iff.mpr fun call h => demoCalls_sane (by simpa [oneAfterAnother] using h)
  have hExclusive : Along (program demoManager).step Exclusive initial oneAfterAnother := by
    decide +kernel
  exact ⟨by decide +kernel, (catalog_updates _ _).1 hSane,
    (catalog_updates _ _).2 (along_and.mpr ⟨hSane, hExclusive⟩)⟩

/-- Both promotions have returned, and the catalog holds the entry of the second one only. -/
theorem lost_bothReadFirst :
    Along (program demoManager).step SaneMove initial bothReadFirst ∧
      (exec (program demoManager).step initial bothReadFirst).locals.map
          (fun thread => thread.2.promoted?) = [some ("alpha", "a"), some ("beta", "b")] ∧
      (exec (program demoManager).step initial bothReadFirst).shared.entries.map Prod.fst =
        ["beta@1.0.0"] ∧
      ¬ KeepsEntries demoManager bothReadFirst := by
  have hSane : Along (program demoManager).step SaneMove initial bothReadFirst :=
    along_sane_iff.mpr fun call h => demoCalls_sane (by simpa [bothReadFirst] using h)
  refine ⟨hSane, by decide +kernel, by decide +kernel, fun hKeeps => ?_⟩
  have hReturned : ((exec (program demoManager).step initial bothReadFirst).locals[0]?.map
      fun thread => thread.2) = some (.returned (demoDescriptorOf "alpha") "a") := rfl
  obtain ⟨⟨call, stage⟩, hThread, hStage⟩ := Option.map_eq_some_iff.mp hReturned
  obtain rfl : stage = .returned (demoDescriptorOf "alpha") "a" := hStage
  obtain ⟨root, entry, -, hEntry, -⟩ := hKeeps _ (prefix_refl _) 0 call _ _ hThread
  have hLost : (exec (program demoManager).step initial bothReadFirst).shared.entries.lookup
      "alpha@1.0.0" = none := by decide +kernel
  have hKey : catalogKey (demoDescriptorOf "alpha") = "alpha@1.0.0" := by decide +kernel
  rw [hKey, hLost] at hEntry
  cases hEntry

end Glasslab.Contracts.Catalog
