import Glasslab.Foundation.Attempts
import Glasslab.Foundation.PurePaths
import Glasslab.Foundation.Raising
import Glasslab.Foundation.Spacing
import Glasslab.Methodology.Requirements
import Glasslab.Schemas

/-!
# Delivery of artifacts

`app/artifact_delivery.py`: an artifact is read below the root of the shared mount, from the first
of up to three places that holds a file with the recorded digest. A place that holds nothing, a
link, or something outside the root is passed over. A file with another digest ends the search, and
so do the places behind it (`finds_first_iff`).
-/

namespace Glasslab.Evidence

open Foundation Methodology Except

abbrev Bytes := List UInt8

def hexDigit (c : Char) : Bool := ('0' ≤ c ∧ c ≤ '9') ∨ ('a' ≤ c ∧ c ≤ 'f')

structure DeliveredArtifact extends ArtifactRecord where
  /-- `metadata['path']`, where that is a text. -/
  metadataPath : Option String := none
  sha256_length : sha256.toList.length = 64
  sha256_hex : ∀ c ∈ sha256.toList, hexDigit c = true

/-- What the reader raises. -/
inductive Raised where
  | unavailable (uri : String)
  | digestMismatch (uri : String)
  | tooLarge (uri : String)
  | unsafePath (value : String)
  | bundleTooLarge
  | nothingAvailable
  | archiveTooLarge
  /-- Anything that is no `ArtifactDeliveryError`. -/
  | fault (kind : String)
  deriving DecidableEq

namespace Raised

def message : Raised → String
  | unavailable uri => "artifact content is unavailable: " ++ uri
  | digestMismatch uri => "artifact digest mismatch: " ++ uri
  | tooLarge uri => "artifact exceeds delivery limit: " ++ uri
  | unsafePath value => "unsafe artifact archive path: " ++ value
  | bundleTooLarge =>
    "artifact bundle exceeds the Discord delivery limit; retry without source bundles or use " ++
      "the artifact store"
  | nothingAvailable => "no digest-verified artifacts are currently available for this run"
  | archiveTooLarge => "compressed artifact bundle exceeds the Discord delivery limit"
  | fault kind => kind

def isDelivery : Raised → Bool
  | fault _ => false
  | _ => true

/-- The artifact is left out for its size. -/
def isSize : Raised → Bool
  | tooLarge _ => true
  | bundleTooLarge => true
  | _ => false

end Raised

inductive Standing where
  | absent
  | link
  | directory
  | file (content : Bytes)
  deriving DecidableEq

/-- The mount as the calls of the reader see it. -/
structure VerifiedArtifactReader where
  root : PurePath
  /-- `Path.resolve`, which raises on a loop of links. -/
  resolvePath : PurePath → Except String PurePath
  /-- What `is_symlink`, `is_file`, `stat` and `open` find at a resolved path. -/
  standing : PurePath → Except String Standing
  sha256 : Bytes → String

namespace VerifiedArtifactReader

variable (reader : VerifiedArtifactReader) (artifact : DeliveredArtifact)

/-- `root / text`. -/
def joinRoot (text : List Char) : PurePath :=
  if anchorOf text = "" then ⟨reader.root.anchor, reader.root.names ++ namesOf text⟩
  else ⟨anchorOf text, namesOf text⟩

def uriCandidates (uri : List Char) : List PurePath :=
  match "artifact://".toList.isPrefixOf? uri with
  | some relative => [reader.joinRoot relative]
  | none =>
    if "s3://".toList <+: uri ∨ "job://".toList <+: uri ∨ "contract://".toList <+: uri then []
    else
      let place := if ['/'] <+: uri then ⟨anchorOf uri, namesOf uri⟩ else reader.joinRoot uri
      match "artifacts/".toList.isPrefixOf? uri with
      | some relative => [place, reader.joinRoot relative]
      | none => [place]

def candidates : List PurePath :=
  (artifact.metadataPath.filter (· ≠ "")).toList.map parsePath ++
    reader.uriCandidates artifact.uri.toList

/-- One turn of the loop: the resolved path, or nothing if the candidate is passed over. -/
def tryCandidate (candidate : PurePath) : Except Raised (Option PurePath) := do
  let resolved ← (reader.resolvePath candidate).mapError .fault
  if resolved.isRelativeTo reader.root then
    match ← (reader.standing resolved).mapError .fault with
    | .file content =>
      if reader.sha256 content = artifact.sha256 then pure (some resolved)
      else throw (.digestMismatch artifact.uri)
    | _ => pure none
  else pure none

def resolve : Except Raised PurePath :=
  firstSuccess (reader.tryCandidate artifact) (.unavailable artifact.uri)
    (reader.candidates artifact)

/-! ## The first verified file -/

structure Holds (candidate path : PurePath) (content : Bytes) : Prop where
  resolved : reader.resolvePath candidate = .ok path
  inside : path.isRelativeTo reader.root = true
  standing : reader.standing path = .ok (.file content)

/-- The candidate leads to a regular file inside the root that hashes to the recorded digest. -/
def Verified (candidate path : PurePath) : Prop :=
  ∃ content, reader.Holds candidate path content ∧ reader.sha256 content = artifact.sha256

/-- The candidate leads to a file inside the root with another digest. -/
def Stale (candidate : PurePath) : Prop :=
  ∃ path content, reader.Holds candidate path content ∧ reader.sha256 content ≠ artifact.sha256

def Faulty (candidate : PurePath) : Prop :=
  (∃ kind, reader.resolvePath candidate = .error kind) ∨
    ∃ path kind, reader.resolvePath candidate = .ok path ∧ path.isRelativeTo reader.root = true ∧
      reader.standing path = .error kind

def FindsFirst : Prop :=
  ∀ path, reader.resolve artifact = .ok path ↔
    ∃ before candidate after, reader.candidates artifact = before ++ candidate :: after ∧
      reader.Verified artifact candidate path ∧ ∀ c ∈ before, ∀ p, ¬reader.Verified artifact c p

def NothingHidden : Prop :=
  ∀ before candidate after path, reader.candidates artifact = before ++ candidate :: after →
    reader.Verified artifact candidate path → (∀ c ∈ before, ∀ p, ¬reader.Verified artifact c p) →
      ∀ c ∈ before, ¬reader.Stale artifact c ∧ ¬reader.Faulty c

variable {reader artifact} {candidate path : PurePath}

theorem Verified.not_hiding (h : reader.Verified artifact candidate path) :
    ¬reader.Stale artifact candidate ∧ ¬reader.Faulty candidate := by
  obtain ⟨content, ⟨hResolved, hInside, hStanding⟩, hDigest⟩ := h
  constructor
  · rintro ⟨path', content', ⟨hResolved', -, hStanding'⟩, hOther⟩
    obtain rfl := ok.inj (hResolved.symm.trans hResolved')
    obtain rfl := Standing.file.inj (ok.inj (hStanding.symm.trans hStanding'))
    exact hOther hDigest
  · rintro (⟨kind, hRaise⟩ | ⟨path', kind, hResolved', -, hRaise⟩)
    · cases hResolved.symm.trans hRaise
    · obtain rfl := ok.inj (hResolved.symm.trans hResolved')
      cases hStanding.symm.trans hRaise

theorem tryCandidate_cases (reader : VerifiedArtifactReader) (artifact : DeliveredArtifact)
    (candidate : PurePath) :
    (∃ path, reader.tryCandidate artifact candidate = .ok (some path) ∧
      reader.Verified artifact candidate path) ∨
    (∃ raised, reader.tryCandidate artifact candidate = .error raised ∧
      (reader.Stale artifact candidate ∨ reader.Faulty candidate)) ∨
    (reader.tryCandidate artifact candidate = .ok none ∧
      (∀ path, ¬reader.Verified artifact candidate path) ∧
      ¬reader.Stale artifact candidate ∧ ¬reader.Faulty candidate) := by
  have hPassed : reader.tryCandidate artifact candidate = .ok none →
      (∀ path content, ¬reader.Holds candidate path content) → ¬reader.Faulty candidate →
      reader.tryCandidate artifact candidate = .ok none ∧
        (∀ path, ¬reader.Verified artifact candidate path) ∧
        ¬reader.Stale artifact candidate ∧ ¬reader.Faulty candidate := by
    intro hTry hNone hFine
    refine ⟨hTry, ?_, ?_, hFine⟩
    · rintro path ⟨content, hHolds, -⟩
      exact hNone path content hHolds
    · rintro ⟨path, content, hHolds, -⟩
      exact hNone path content hHolds
  cases hResolved : reader.resolvePath candidate with
  | error kind =>
    refine .inr (.inl ⟨.fault kind, ?_, .inr (.inl ⟨kind, hResolved⟩)⟩)
    simp [tryCandidate, hResolved, Except.mapError, bind, Except.bind]
  | ok path =>
    cases hInside : path.isRelativeTo reader.root with
    | false =>
      refine .inr (.inr (hPassed ?_ ?_ ?_))
      · simp [tryCandidate, hResolved, hInside, Except.mapError, bind, Except.bind, pure,
          Except.pure]
      · rintro path' content ⟨hResolved', hInside', -⟩
        obtain rfl := ok.inj (hResolved.symm.trans hResolved')
        cases hInside.symm.trans hInside'
      · rintro (⟨kind, hRaise⟩ | ⟨path', kind, hResolved', hInside', -⟩)
        · cases hResolved.symm.trans hRaise
        · obtain rfl := ok.inj (hResolved.symm.trans hResolved')
          cases hInside.symm.trans hInside'
    | true =>
      cases hStanding : reader.standing path with
      | error kind =>
        refine .inr
          (.inl ⟨.fault kind, ?_, .inr (.inr ⟨path, kind, hResolved, hInside, hStanding⟩)⟩)
        simp [tryCandidate, hResolved, hInside, hStanding, Except.mapError, bind, Except.bind]
      | ok standing =>
        by_cases hFile : ∃ content, standing = .file content
        · obtain ⟨content, rfl⟩ := hFile
          have hHolds : reader.Holds candidate path content := ⟨hResolved, hInside, hStanding⟩
          by_cases hDigest : reader.sha256 content = artifact.sha256
          · refine .inl ⟨path, ?_, content, hHolds, hDigest⟩
            simp [tryCandidate, hResolved, hInside, hStanding, hDigest, Except.mapError, bind,
              Except.bind, pure, Except.pure]
          · refine .inr
              (.inl ⟨.digestMismatch artifact.uri, ?_, .inl ⟨path, content, hHolds, hDigest⟩⟩)
            simp [tryCandidate, hResolved, hInside, hStanding, hDigest, Except.mapError, bind,
              Except.bind, throw, throwThe, MonadExceptOf.throw]
        · refine .inr (.inr (hPassed ?_ ?_ ?_))
          · cases standing with
            | file content => exact absurd ⟨content, rfl⟩ hFile
            | absent | link | directory =>
              simp [tryCandidate, hResolved, hInside, hStanding, Except.mapError, bind, Except.bind,
                pure, Except.pure]
          · rintro path' content ⟨hResolved', -, hStanding'⟩
            obtain rfl := ok.inj (hResolved.symm.trans hResolved')
            exact hFile ⟨content, ok.inj (hStanding.symm.trans hStanding')⟩
          · rintro (⟨kind, hRaise⟩ | ⟨path', kind, hResolved', -, hRaise⟩)
            · cases hResolved.symm.trans hRaise
            · obtain rfl := ok.inj (hResolved.symm.trans hResolved')
              cases hStanding.symm.trans hRaise

theorem tryCandidate_eq_some_iff : reader.tryCandidate artifact candidate = .ok (some path) ↔
    reader.Verified artifact candidate path := by
  rcases tryCandidate_cases reader artifact candidate with
    ⟨path', hTry, hVerified⟩ | ⟨raised, hTry, hHiding⟩ | ⟨hTry, hNone, -⟩
  · rw [hTry]
    constructor
    · intro h
      obtain rfl := Option.some.inj (ok.inj h)
      exact hVerified
    · rintro ⟨content, hHolds, -⟩
      obtain ⟨content', hHolds', -⟩ := hVerified
      rw [ok.inj (hHolds'.resolved.symm.trans hHolds.resolved)]
  · rw [hTry]
    constructor
    · intro h
      cases h
    · intro hVerified
      obtain ⟨hStale, hFaulty⟩ := hVerified.not_hiding
      exact (hHiding.elim hStale hFaulty).elim
  · rw [hTry]
    constructor
    · intro h
      cases h
    · intro hVerified
      exact absurd hVerified (hNone path)

/-- A candidate is passed over if it is not verified, not stale, and no call raises. -/
theorem tryCandidate_eq_none_iff : reader.tryCandidate artifact candidate = .ok none ↔
    (∀ path, ¬reader.Verified artifact candidate path) ∧ ¬reader.Stale artifact candidate ∧
      ¬reader.Faulty candidate := by
  rcases tryCandidate_cases reader artifact candidate with
    ⟨path', hTry, hVerified⟩ | ⟨raised, hTry, hHiding⟩ | ⟨hTry, hNone⟩
  · rw [hTry]
    constructor
    · intro h
      cases h
    · rintro ⟨hNone, -⟩
      exact absurd hVerified (hNone path')
  · rw [hTry]
    constructor
    · intro h
      cases h
    · rintro ⟨-, hStale, hFaulty⟩
      exact (hHiding.elim hStale hFaulty).elim
  · exact ⟨fun _ => hNone, fun _ => hTry⟩

theorem first_of_resolve (h : reader.resolve artifact = .ok path) :
    ∃ before candidate after, reader.candidates artifact = before ++ candidate :: after ∧
      reader.Verified artifact candidate path ∧
      ∀ c ∈ before, (∀ p, ¬reader.Verified artifact c p) ∧ ¬reader.Stale artifact c ∧
        ¬reader.Faulty c := by
  obtain ⟨before, candidate, after, hSplit, hTry, hBefore⟩ := firstSuccess_eq_ok_iff.mp h
  exact ⟨before, candidate, after, hSplit, tryCandidate_eq_some_iff.mp hTry,
    fun c hc => tryCandidate_eq_none_iff.mp (hBefore c hc)⟩

/-- The first verified file is found exactly if no stale or faulty candidate stands before it. -/
theorem finds_first_iff (reader : VerifiedArtifactReader) (artifact : DeliveredArtifact) :
    reader.FindsFirst artifact ↔ reader.NothingHidden artifact := by
  constructor
  · intro h before candidate after path hSplit hVerified hBefore
    have hReturned := (h path).mpr ⟨before, candidate, after, hSplit, hVerified, hBefore⟩
    obtain ⟨before', candidate', after', hSplit', hVerified', hPassed⟩ := first_of_resolve hReturned
    obtain ⟨rfl, -⟩ := first_unique (P := fun c => ∃ p, reader.Verified artifact c p)
      (hSplit.symm.trans hSplit') ⟨path, hVerified⟩ ⟨path, hVerified'⟩
      (fun c hc ⟨p, hp⟩ => hBefore c hc p hp) fun c hc ⟨p, hp⟩ => (hPassed c hc).1 p hp
    exact fun c hc => (hPassed c hc).2
  · intro h path
    constructor
    · intro hReturned
      obtain ⟨before, candidate, after, hSplit, hVerified, hPassed⟩ := first_of_resolve hReturned
      exact ⟨before, candidate, after, hSplit, hVerified, fun c hc => (hPassed c hc).1⟩
    · rintro ⟨before, candidate, after, hSplit, hVerified, hBefore⟩
      have hFree := h before candidate after path hSplit hVerified hBefore
      apply firstSuccess_eq_ok_iff.mpr
      exact ⟨before, candidate, after, hSplit, tryCandidate_eq_some_iff.mpr hVerified,
        fun c hc => tryCandidate_eq_none_iff.mpr ⟨hBefore c hc, hFree c hc⟩⟩

def mountOf (files : List (List String × Bytes)) (sha256 : Bytes → String) :
    VerifiedArtifactReader where
  root := parsePath "/mnt/artifacts"
  resolvePath path := .ok path
  standing path := .ok (((files.lookup path.names).map Standing.file).getD .absent)
  sha256 := sha256

def oldDigest : String := "3bfc269594ef649228e9a74bab00f042efc91d5acc6fbee31a382e80d42388fe"

def newDigest : String := "fb04dcb6970e4c3d1873de51fd5a50d7bb46b3383113602665c350ec40b5f990"

def knownDigest (content : Bytes) : String :=
  if content = "v1".toUTF8.toList then oldDigest else newDigest

/-- A record whose metadata still names the place of an older file. -/
def movedArtifact : DeliveredArtifact where
  artifactId := "a1"
  jobId := none
  type := "report"
  uri := "artifact://runs/r1/report.md"
  sha256 := newDigest
  metadataPath := some "/mnt/artifacts/report.md"
  sha256_length := by decide +kernel
  sha256_hex := List.all_eq_true.mp (by decide +kernel)

def staleMount : VerifiedArtifactReader :=
  mountOf [(["mnt", "artifacts", "report.md"], "v1".toUTF8.toList),
    (["mnt", "artifacts", "runs", "r1", "report.md"], "v2".toUTF8.toList)] knownDigest

/-- The older file hides the one with the recorded digest. -/
theorem stale_copy_hides_verified : ¬ FindsFirst staleMount movedArtifact := by
  intro h
  have hRaised : staleMount.resolve movedArtifact = .error (.digestMismatch movedArtifact.uri) := by
    decide +kernel
  have hFound := (h (parsePath "/mnt/artifacts/runs/r1/report.md")).mpr
  rw [hRaised] at hFound
  refine nomatch hFound ⟨[parsePath "/mnt/artifacts/report.md"], _, [], by decide +kernel,
    ⟨"v2".toUTF8.toList, ⟨rfl, by decide +kernel, by decide +kernel⟩, by decide +kernel⟩, ?_⟩
  rintro c hc path ⟨content, ⟨hResolved, -, hStanding⟩, hDigest⟩
  obtain rfl := List.mem_singleton.mp hc
  obtain rfl := ok.inj hResolved
  have hOld : staleMount.standing (parsePath "/mnt/artifacts/report.md") =
      .ok (.file "v1".toUTF8.toList) := by decide +kernel
  obtain rfl := Standing.file.inj (ok.inj (hOld.symm.trans hStanding))
  exact absurd hDigest (by decide +kernel)

end VerifiedArtifactReader

end Glasslab.Evidence
