import Glasslab.Datasets.TaskAssets

/-!
# Compilation of a task

`TaskBundleManager.compile` in `app/task_bundles.py`, for the calls on one archive. The assets of
the proposal are resolved or fetched one after another. What cannot be obtained becomes a missing
input of the record, and the record is written all the same. A later call that finds the record
returns it, with its missing inputs.
-/

namespace Glasslab.Datasets

open Foundation Foundation.Machine Methodology List

structure TaskSpecAsset extends TaskAssetProposal where
  approvedUri : Option String

structure AssetTurn where
  asset : TaskSpecAsset
  /-- What the registry of ingested datasets, if there is one, resolves the approved uri to. -/
  registry : Option (Except FetchError DatasetAsset)
  network : Network
  crash : Option CrashPoint

/-- Where a call crashes after the assets, if it comes so far. -/
inductive RecordCrash where
  /-- Before the staged archive is renamed or removed. -/
  | gathered
  /-- Before the record is opened. -/
  | placed
  /-- While the record is written. -/
  | recording
  /-- Before the modes of the files are set. -/
  | recorded
  deriving DecidableEq

structure CompileCall where
  displayName : String
  requiredArtifacts : List String
  missingInputs : List String
  turns : List AssetTurn
  crash : Option RecordCrash

/-- The fields of the record that depend on the call. -/
structure TaskBundleRecord where
  displayName : String
  requiredArtifacts : List String
  datasets : List DatasetAsset
  missingInputs : List String
  deriving DecidableEq

/-- `task.json`. -/
inductive TaskSidecar where
  | torn
  | whole (record : TaskBundleRecord)

structure TaskStore where
  assets : AssetRoot
  placed : Bool
  record : Option TaskSidecar

def emptyStore : TaskStore := ⟨fun _ => none, false, none⟩

inductive CompileOutcome where
  | returned (record : TaskBundleRecord)
  /-- A record that is no JSON. -/
  | invalid
  | crashed

section Compile

variable (fetcher : TaskAssetFetcher)

inductive CompileStop where
  | invalid
  | crashed

/-- The turn of one asset: a dataset, or the text of a missing input. -/
def TaskAssetFetcher.turn (s : AssetRoot) (t : AssetTurn) :
    Except CompileStop (Except String DatasetAsset) × AssetRoot :=
  match t.asset.approvedUri.bind orNone with
  | some _ =>
    match t.registry with
    | none => (.ok (.error ("ingested dataset registry is unavailable: " ++ t.asset.name)), s)
    | some (.ok dataset) => (.ok (.ok dataset), s)
    | some (.error (.bundle message)) => (.ok (.error message), s)
    | some (.error .validation) => (.error .invalid, s)
  | none =>
    match t.asset.sourceUrl.bind orNone with
    | none => (.ok (.error ("asset `" ++ t.asset.name ++ "` has no approved URI or source URL")), s)
    | some _ =>
      match fetcher.fetch s ⟨t.asset.toTaskAssetProposal, t.network, t.crash⟩ with
      | (.returned dataset, s') => (.ok (.ok dataset), s')
      | (.raised (.bundle message), s') => (.ok (.error message), s')
      | (.raised .validation, s') => (.error .invalid, s')
      | (.crashed, s') => (.error .crashed, s')

structure Gathered where
  datasets : List DatasetAsset := []
  missing : List String

def TaskAssetFetcher.gather : AssetRoot → Gathered → List AssetTurn →
    Except CompileStop Gathered × AssetRoot
  | s, g, [] => (.ok g, s)
  | s, g, t :: rest =>
    match fetcher.turn s t with
    | (.error stop, s') => (.error stop, s')
    | (.ok (.ok dataset), s') => gather s' { g with datasets := g.datasets ++ [dataset] } rest
    | (.ok (.error message), s') => gather s' { g with missing := g.missing ++ [message] } rest

def baseRequiredArtifacts : List String :=
  ["run_manifest.json", "config.json", "metrics.json", "evaluation.json", "artifacts_index.json",
    "report.md", "status.json", "logs/", "source.zip"]

def CompileCall.record (call : CompileCall) (g : Gathered) : TaskBundleRecord where
  displayName := call.displayName
  requiredArtifacts := fromkeys (baseRequiredArtifacts ++ call.requiredArtifacts)
  datasets := g.datasets
  missingInputs := fromkeys g.missing

/-- The steps after the assets: the archive is put in its place, and the record is written. -/
def storeRecord (placed : Bool) (assets : AssetRoot) (record : TaskBundleRecord) :
    Option RecordCrash → CompileOutcome × TaskStore
  | some .gathered => (.crashed, ⟨assets, placed, none⟩)
  | some .placed => (.crashed, ⟨assets, true, none⟩)
  | some .recording => (.crashed, ⟨assets, true, some .torn⟩)
  | some .recorded => (.crashed, ⟨assets, true, some (.whole record)⟩)
  | none => (.returned record, ⟨assets, true, some (.whole record)⟩)

def TaskAssetFetcher.compile (s : TaskStore) (call : CompileCall) : CompileOutcome × TaskStore :=
  match s.record with
  | some (.whole record) => (.returned record, s)
  | some .torn => (.invalid, s)
  | none =>
    match fetcher.gather s.assets { missing := call.missingInputs } call.turns with
    | (.error .invalid, assets) => (.invalid, { s with assets := assets })
    | (.error .crashed, assets) => (.crashed, { s with assets := assets })
    | (.ok g, assets) => storeRecord s.placed assets (call.record g) call.crash

def TaskAssetFetcher.compileStep (s : TaskStore) (call : CompileCall) : TaskStore :=
  (fetcher.compile s call).2

/-! ## Repair -/

def TaskBundleRecord.Complete (record : TaskBundleRecord) (assets : Nat) : Prop :=
  record.missingInputs = [] ∧ record.datasets.length = assets

/-- The asset can be obtained: the registry resolves it, or the server has it. -/
def Available (t : AssetTurn) : Prop :=
  match t.asset.approvedUri.bind orNone with
  | some _ => ∃ dataset, t.registry = some (.ok dataset)
  | none => ∃ url fetched content, t.asset.sourceUrl.bind orNone = some url ∧
      fetcher.download t.asset.toTaskAssetProposal t.network url = .ok (fetched, content)

/-- A call that ends, without missing inputs of its own, while every asset is available. -/
structure Repairing (call : CompileCall) : Prop where
  missing : call.missingInputs = []
  available : ∀ t ∈ call.turns, Available fetcher t ∧ t.crash = none
  completes : call.crash = none

def Repairs (s : TaskStore) (call : CompileCall) : Prop :=
  ∃ record, (fetcher.compile s call).1 = .returned record ∧ record.Complete call.turns.length

def TornAsset (s : AssetRoot) (t : AssetTurn) : Prop :=
  t.asset.approvedUri.bind orNone = none ∧
    (s t.asset.name).bind Destination.metadata = some .torn

def Repairable (s : TaskStore) (call : CompileCall) : Prop :=
  match s.record with
  | some (.whole record) => record.Complete call.turns.length
  | some .torn => False
  | none => ∀ t ∈ call.turns, ¬TornAsset s.assets t

variable {fetcher} {s s' : AssetRoot} {t : AssetTurn} {turns : List AssetTurn}

/-- A record that stays whole, or is written anew, tears no asset. -/
theorem tornAsset_update_iff {name : String} {asset : Bytes} {record : DatasetAsset}
    (h : (s name).bind Destination.metadata = none) :
    TornAsset (Function.update s name (some ⟨asset, some (.whole record)⟩)) t ↔ TornAsset s t := by
  apply and_congr_right'
  by_cases hName : t.asset.name = name
  · rw [hName, Function.update_self, h]
    exact iff_of_false (by simp) (by simp)
  · rw [Function.update_of_ne hName]

theorem turn_of_available (h : Available fetcher t) (hCrash : t.crash = none) :
    (TornAsset s t ∧ fetcher.turn s t = (.error .invalid, s)) ∨
      (¬TornAsset s t ∧ ∃ dataset s', fetcher.turn s t = (.ok (.ok dataset), s') ∧
        ∀ t', TornAsset s' t' ↔ TornAsset s t') := by
  unfold Available at h
  cases hApproved : t.asset.approvedUri.bind orNone with
  | some uri =>
    rw [hApproved] at h
    obtain ⟨dataset, hRegistry⟩ := h
    refine .inr ⟨fun hTorn => ?_, dataset, s, ?_, fun _ => Iff.rfl⟩
    · rw [hTorn.1] at hApproved
      cases hApproved
    · unfold TaskAssetFetcher.turn
      rw [hApproved, hRegistry]
  | none =>
    rw [hApproved] at h
    obtain ⟨url, fetched, content, hUrl, hDownload⟩ := h
    have hTurn : fetcher.turn s t =
        match fetcher.fetch s ⟨t.asset.toTaskAssetProposal, t.network, t.crash⟩ with
        | (.returned dataset, s') => (.ok (.ok dataset), s')
        | (.raised (.bundle message), s') => (.ok (.error message), s')
        | (.raised .validation, s') => (.error .invalid, s')
        | (.crashed, s') => (.error .crashed, s') := by
      unfold TaskAssetFetcher.turn
      rw [hApproved, hUrl]
    cases hMetadata : (s t.asset.name).bind Destination.metadata with
    | none =>
      refine .inr ⟨fun hTorn => ?_, ?_⟩
      · rw [hTorn.2] at hMetadata
        cases hMetadata
      · have hFetch := @fetch_of_served fetcher s ⟨t.asset.toTaskAssetProposal, t.network, t.crash⟩
          content url fetched hCrash hUrl hMetadata hDownload
        rw [hFetch] at hTurn
        exact ⟨_, _, hTurn, fun _ => tornAsset_update_iff hMetadata⟩
    | some sidecar =>
      obtain ⟨destination, hDestination, hSidecar⟩ := Option.bind_eq_some_iff.mp hMetadata
      cases sidecar with
      | torn =>
        refine .inl ⟨⟨hApproved, hMetadata⟩, ?_⟩
        have hFetch : fetcher.fetch s ⟨t.asset.toTaskAssetProposal, t.network, t.crash⟩ =
            (.raised .validation, s) := by
          unfold TaskAssetFetcher.fetch
          simp only [hUrl, hMetadata]
        rw [hTurn, hFetch]
      | whole record =>
        refine .inr ⟨fun hTorn => ?_, record, s, ?_, fun _ => Iff.rfl⟩
        · rw [hTorn.2] at hMetadata
          cases hMetadata
        · have hFetch := @fetch_of_cached fetcher s
            ⟨t.asset.toTaskAssetProposal, t.network, t.crash⟩ record destination (by rw [hUrl]; rfl)
            hDestination hSidecar
          rw [hTurn, hFetch]

/-- Available assets are all obtained, unless a record of one of them is torn. -/
theorem gather_of_available (h : ∀ t ∈ turns, Available fetcher t ∧ t.crash = none) (g : Gathered) :
    ((∃ t ∈ turns, TornAsset s t) ∧ (fetcher.gather s g turns).1 = .error .invalid) ∨
      ((∀ t ∈ turns, ¬TornAsset s t) ∧ ∃ g', (fetcher.gather s g turns).1 = .ok g' ∧
        g'.missing = g.missing ∧ g'.datasets.length = g.datasets.length + turns.length) := by
  induction turns generalizing s g with
  | nil => exact .inr ⟨by simp, g, rfl, rfl, rfl⟩
  | cons t rest ih =>
    obtain ⟨hAvailable, hCrash⟩ := h t mem_cons_self
    rcases @turn_of_available fetcher s t hAvailable hCrash with
      ⟨hTorn, hTurn⟩ | ⟨hFine, dataset, s', hTurn, hSame⟩
    · refine .inl ⟨⟨t, mem_cons_self, hTorn⟩, ?_⟩
      rw [TaskAssetFetcher.gather, hTurn]
    · have hGather : fetcher.gather s g (t :: rest) =
          fetcher.gather s' { g with datasets := g.datasets ++ [dataset] } rest := by
        rw [TaskAssetFetcher.gather, hTurn]
      rw [hGather]
      rcases @ih s' (fun t' hMem => h t' (mem_cons_of_mem _ hMem))
        { g with datasets := g.datasets ++ [dataset] } with
        ⟨⟨t', hMem, hTorn⟩, hStop⟩ | ⟨hRest, g', hOk, hMissing, hLength⟩
      · exact .inl ⟨⟨t', mem_cons_of_mem _ hMem, (hSame t').mp hTorn⟩, hStop⟩
      · refine .inr ⟨?_, g', hOk, hMissing, ?_⟩
        · intro t' hMem
          rcases mem_cons.mp hMem with rfl | hMem
          · exact hFine
          · exact fun hTorn => hRest t' hMem ((hSame t').mpr hTorn)
        · rw [hLength, length_append, length_singleton, length_cons]
          omega

theorem repairs_iff {store : TaskStore} {call : CompileCall} (h : Repairing fetcher call) :
    Repairs fetcher store call ↔ Repairable store call := by
  unfold Repairs Repairable TaskAssetFetcher.compile
  cases store.record with
  | some sidecar =>
    cases sidecar with
    | torn =>
      constructor
      · rintro ⟨record, hReturned, -⟩
        cases hReturned
      · intro hFalse
        cases hFalse
    | whole record =>
      constructor
      · rintro ⟨record', hReturned, hComplete⟩
        cases hReturned
        exact hComplete
      · exact fun hComplete => ⟨record, rfl, hComplete⟩
  | none =>
    rcases @gather_of_available fetcher store.assets call.turns h.available
      { missing := call.missingInputs } with ⟨⟨t, hMem, hTorn⟩, hStop⟩ |
        ⟨hFine, g, hOk, hMissing, hLength⟩
    · refine iff_of_false ?_ fun hNone => hNone t hMem hTorn
      rintro ⟨record, hReturned, -⟩
      generalize fetcher.gather store.assets { missing := call.missingInputs } call.turns = result
        at hStop hReturned
      obtain ⟨outcome, assets⟩ := result
      obtain rfl : outcome = .error .invalid := hStop
      cases hReturned
    · refine iff_of_true ?_ hFine
      generalize fetcher.gather store.assets { missing := call.missingInputs } call.turns = result
        at hOk
      obtain ⟨outcome, assets⟩ := result
      obtain rfl : outcome = .ok g := hOk
      refine ⟨call.record g, ?_, ?_, ?_⟩
      · rw [h.completes]
        rfl
      · show fromkeys g.missing = []
        rw [hMissing, h.missing]
        rfl
      · show g.datasets.length = _
        rw [hLength]
        exact Nat.zero_add _

theorem record_stays {store : TaskStore} {record : TaskBundleRecord}
    (h : store.record = some (.whole record)) (history : List CompileCall) :
    exec fetcher.compileStep store history = store ∧
      ∀ call, fetcher.compile store call = (.returned record, store) := by
  have hCompile : ∀ call, fetcher.compile store call = (.returned record, store) := by
    intro call
    unfold TaskAssetFetcher.compile
    rw [h]
  refine ⟨?_, hCompile⟩
  induction history with
  | nil => rfl
  | cons call history ih =>
    rw [exec_cons, TaskAssetFetcher.compileStep, hCompile]
    exact ih

/-- After any history, a call that could repair the task does so exactly if the record that is
stored is complete, or there is none and no record of an asset is torn. -/
theorem compile_repairs_iff (fetcher : TaskAssetFetcher) (history : List CompileCall)
    (call : CompileCall) (h : Repairing fetcher call) :
    Repairs fetcher (exec fetcher.compileStep emptyStore history) call ↔
      Repairable (exec fetcher.compileStep emptyStore history) call :=
  repairs_iff h

end Compile

section Example

def unreachable : Network where
  validateUrl _ _ _ := .ok ()
  get _ _ _ := .error (.transport "connection refused")

def trainCall (network : Network) (assetCrash : Option CrashPoint := none)
    (crash : Option RecordCrash := none) : CompileCall where
  displayName := "Train a model"
  requiredArtifacts := []
  missingInputs := []
  turns := [
    { asset := { (trainFetch [1] none).proposal with approvedUri := none }
      registry := none
      network := network
      crash := assetCrash }]
  crash := crash

theorem repairing_trainCall : Repairing twoDigestsFetcher (trainCall (serving [1])) where
  missing := rfl
  available := by
    intro t hMem
    obtain rfl := mem_singleton.mp hMem
    exact ⟨⟨_, _, _, rfl, rfl⟩, rfl⟩
  completes := rfl

/-- A call that crashed before the record of its asset, and one that did not reach the server and
crashed before its own record. -/
def crashedCalls : List CompileCall :=
  [trainCall (serving [1]) (some .renamed), trainCall unreachable none (some .placed)]

theorem compile_repairs_after_crashes :
    (exec twoDigestsFetcher.compileStep emptyStore crashedCalls).placed = true ∧
      Repairs twoDigestsFetcher (exec twoDigestsFetcher.compileStep emptyStore crashedCalls)
        (trainCall (serving [1])) := by
  have hRepairable : Repairable (exec twoDigestsFetcher.compileStep emptyStore crashedCalls)
      (trainCall (serving [1])) := by
    intro t hMem
    obtain rfl := mem_singleton.mp hMem
    rintro ⟨-, hTorn⟩
    cases hTorn
  exact ⟨rfl, (compile_repairs_iff twoDigestsFetcher crashedCalls (trainCall (serving [1]))
    repairing_trainCall).mpr hRepairable⟩

/-- The record of the call that did not reach the server is returned when the server is back. -/
theorem retried_import_stays_incomplete :
    Repairing twoDigestsFetcher (trainCall (serving [1])) ∧
      ¬ Repairs twoDigestsFetcher
        (exec twoDigestsFetcher.compileStep emptyStore [trainCall unreachable])
        (trainCall (serving [1])) := by
  refine ⟨repairing_trainCall, ?_⟩
  rintro ⟨record, hReturned, hMissing, -⟩
  obtain ⟨stored, hStored, hIncomplete⟩ : ∃ stored,
      (exec twoDigestsFetcher.compileStep emptyStore [trainCall unreachable]).record =
        some (.whole stored) ∧ stored.missingInputs ≠ [] :=
    ⟨_, rfl, cons_ne_nil _ _⟩
  rw [(record_stays hStored []).2] at hReturned
  cases hReturned
  exact hIncomplete hMissing

end Example

end Glasslab.Datasets
