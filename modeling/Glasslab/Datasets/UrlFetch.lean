import Glasslab.Foundation.Raising
import Glasslab.Knowledge.ContextBlocks
import Glasslab.Schemas

/-!
# Fetches of public urls

`PublicHttpsFetcher.download` of `app/url_fetch.py` streams a public HTTPS resource into a file. It
follows redirects, each of which is validated, and tries again after a failure of the transport. The
bytes are counted and digested as they are written.

What the network answers may differ from request to request. It is a parameter, and so are SHA-256
and what the standard library makes of urls. The file of a download that fails is deleted by every
caller, so that only the bytes of a successful one are returned here.
-/

namespace Glasslab.Datasets

open Foundation Knowledge Methodology

abbrev Bytes := List UInt8

/-- `if expected_sha256 and actual != expected_sha256`, negated. -/
def meetsExpected (expected : Option String) (digest : Sha256) : Bool :=
  match expected with
  | none => true
  | some text => text = "" ∨ text = digest.text

/-- What the standard library computes. -/
structure Library where
  sha256 : Bytes → Sha256
  urljoin : String → String → String
  /-- `unquote(urlparse(url).path)`. -/
  urlPath : String → String
  lower : String → String
  /-- ASCII text without upper case letters stays as it is. -/
  lower_eq : ∀ text : String,
    (∀ c ∈ text.toList, c.toNat < 128 ∧ ¬ ('A' ≤ c ∧ c ≤ 'Z')) → lower text = text

inductive UrlFetchErrorKind where
  | malformedUrl
  | privateTarget
  | peerUnverifiable
  | redirectRejected
  | sizeExceeded
  | emptyBody
  | networkFailure
  | checksumMismatch
  deriving DecidableEq, Repr

structure UrlFetchError where
  kind : UrlFetchErrorKind
  message : String
  deriving DecidableEq, Repr

/-- What `httpx` raises. -/
inductive HttpError where
  /-- `TransportError`. -/
  | transport (message : String)
  /-- Any other `HTTPError`. -/
  | other (message : String)
  deriving DecidableEq, Repr

structure Response where
  /-- `revalidate_peer`. -/
  peer : Except UrlFetchError Unit
  status : Nat
  /-- What `raise_for_status` says of another status than success. -/
  statusMessage : String
  location : Option String
  contentType : Option String
  chunks : List Bytes
  /-- The error in which the body ends, if it is not complete. -/
  cut : Option HttpError

/-- What the network answers at an attempt and a hop. -/
structure Network where
  /-- `validate_url`. -/
  validateUrl : Nat → Nat → String → Except UrlFetchError Unit
  get : Nat → Nat → String → Except HttpError Response

structure FetchedUrl where
  originalUrl : String
  finalUrl : String
  sha256 : Sha256
  sizeBytes : Nat
  mediaType : Option String
  filename : Option String
  deriving DecidableEq

structure PublicHttpsFetcher where
  maximumBytes : Nat
  maxRetries : Nat := 2
  maxRedirects : Nat := 5

def redirectStatuses : List Nat := [301, 302, 303, 307, 308]

def orNone (text : String) : Option String := if text = "" then none else some text

/-- `_media_type`. -/
def mediaType (library : Library) (contentType : Option String) : Option String :=
  contentType.bind fun value =>
    orNone (library.lower (String.ofList (strip (value.toList.takeWhile (· ≠ ';')))))

/-- `Path(path).name.strip()`. -/
def strippedName (path : String) : String := String.ofList (strip (pathName path))

/-- `_filename`. -/
def urlFilename (library : Library) (url : String) : Option String :=
  let candidate := strippedName (library.urlPath url)
  if candidate = "" ∨ candidate ∈ [".", ".."] ∨ 255 < candidate.length then none else some candidate

inductive Failure where
  | url (error : UrlFetchError)
  | http (error : HttpError)

section Download

variable (library : Library) (fetcher : PublicHttpsFetcher) (network : Network)

def PublicHttpsFetcher.writeBody (written : Bytes) (cut : Option HttpError) :
    List Bytes → Except Failure Bytes
  | [] =>
    match cut with
    | none => .ok written
    | some error => .error (.http error)
  | chunk :: rest =>
    if fetcher.maximumBytes < (written ++ chunk).length then
      .error (.url ⟨.sizeExceeded, "content exceeds the configured size limit of " ++
        toString fetcher.maximumBytes ++ " bytes"⟩)
    else PublicHttpsFetcher.writeBody (written ++ chunk) cut rest

def liftUrl {α : Type} : Except UrlFetchError α → Except Failure α
  | .ok a => .ok a
  | .error error => .error (.url error)

def liftHttp {α : Type} : Except HttpError α → Except Failure α
  | .ok a => .ok a
  | .error error => .error (.http error)

/-- The file and what is known of it, when a response is no redirect. -/
def PublicHttpsFetcher.receive (url current : String) (expected : Option String)
    (response : Response) :
    Except Failure (FetchedUrl × Bytes) :=
  if response.status < 200 ∨ 300 ≤ response.status then
    .error (.http (.other response.statusMessage))
  else do
    let content ← fetcher.writeBody [] response.cut response.chunks
    if content.length = 0 then .error (.url ⟨.emptyBody, "content is empty"⟩)
    else if meetsExpected expected (library.sha256 content) = false then
      .error (.url ⟨.checksumMismatch, "content does not match expected_sha256"⟩)
    else
      .ok
        ({ originalUrl := url
           finalUrl := current
           sha256 := library.sha256 content
           sizeBytes := content.length
           mediaType := mediaType library response.contentType
           filename := urlFilename library current }, content)

/-- The requests of `_download_once`, when so many hops are left. -/
def PublicHttpsFetcher.followHops (attempt : Nat) (url : String) (expected : Option String) :
    Nat → Nat → String → Except Failure (FetchedUrl × Bytes)
  | 0, _, _ => .error (.url ⟨.redirectRejected, "too many redirects"⟩)
  | left + 1, hop, current => do
    liftUrl (network.validateUrl attempt hop current)
    let response ← liftHttp (network.get attempt hop current)
    liftUrl response.peer
    if response.status ∈ redirectStatuses then
      match response.location.bind orNone with
      | none => .error (.url ⟨.redirectRejected, "redirect response is missing a Location header"⟩)
      | some location =>
        PublicHttpsFetcher.followHops attempt url expected left (hop + 1)
          (library.urljoin current location)
    else fetcher.receive library url current expected response

def PublicHttpsFetcher.downloadOnce (attempt : Nat) (url : String) (expected : Option String) :
    Except Failure (FetchedUrl × Bytes) :=
  fetcher.followHops library network attempt url expected (fetcher.maxRedirects + 1) 0 url

/-- The attempts of `download` from one on, when so many are left after it. -/
def PublicHttpsFetcher.attempts (url : String) (expected : Option String) :
    Nat → Nat → Except UrlFetchError (FetchedUrl × Bytes)
  | left, attempt =>
    match fetcher.downloadOnce library network attempt url expected with
    | .ok fetched => .ok fetched
    | .error (.url error) => .error error
    | .error (.http (.other message)) => .error ⟨.networkFailure, "download failed: " ++ message⟩
    | .error (.http (.transport message)) =>
      match left with
      | 0 => .error ⟨.networkFailure, "download failed: " ++ message⟩
      | left + 1 => PublicHttpsFetcher.attempts url expected left (attempt + 1)

def PublicHttpsFetcher.download (url : String) (expected : Option String) :
    Except UrlFetchError (FetchedUrl × Bytes) :=
  fetcher.attempts library network url expected fetcher.maxRetries 0

end Download

/-- What is known of a file that was fetched. -/
structure Fetched (library : Library) (fetcher : PublicHttpsFetcher) (url : String)
    (expected : Option String) (fetched : FetchedUrl) (content : Bytes) : Prop where
  originalUrl : fetched.originalUrl = url
  sha256 : fetched.sha256 = library.sha256 content
  sizeBytes : fetched.sizeBytes = content.length
  nonempty : content ≠ []
  bounded : content.length ≤ fetcher.maximumBytes
  expected : meetsExpected expected (library.sha256 content) = true

section Fetched

open Foundation.Raising

variable {library : Library} {fetcher : PublicHttpsFetcher} {network : Network} {url : String}
  {expected : Option String} {fetched : FetchedUrl} {content : Bytes}

theorem length_writeBody {written : Bytes} {cut : Option HttpError} {chunks : List Bytes}
    (h : fetcher.writeBody written cut chunks = .ok content)
    (hWritten : written.length ≤ fetcher.maximumBytes) : content.length ≤ fetcher.maximumBytes := by
  induction chunks generalizing written with
  | nil =>
    cases cut with
    | none =>
      cases h
      exact hWritten
    | some error => cases h
  | cons chunk rest ih =>
    rw [PublicHttpsFetcher.writeBody, check_eq_ok_iff] at h
    exact ih h.2 (Nat.le_of_not_lt h.1)

theorem fetched_of_receive {current : String} {response : Response}
    (h : fetcher.receive library url current expected response = .ok (fetched, content)) :
    Fetched library fetcher url expected fetched content := by
  rw [PublicHttpsFetcher.receive, check_eq_ok_iff, bind_eq_ok_iff] at h
  obtain ⟨-, written, hWritten, h⟩ := h
  rw [check_eq_ok_iff, check_eq_ok_iff] at h
  obtain ⟨hNonempty, hExpected, h⟩ := h
  cases h
  exact
    { originalUrl := rfl
      sha256 := rfl
      sizeBytes := rfl
      nonempty := fun hNil => hNonempty (by rw [hNil]; rfl)
      bounded := length_writeBody hWritten (Nat.zero_le _)
      expected := by simpa using hExpected }

theorem fetched_of_followHops {attempt left hop : Nat} {current : String}
    (h : fetcher.followHops library network attempt url expected left hop current =
      .ok (fetched, content)) : Fetched library fetcher url expected fetched content := by
  induction left generalizing hop current with
  | zero => cases h
  | succ left ih =>
    rw [PublicHttpsFetcher.followHops, bind_eq_ok_iff] at h
    obtain ⟨-, -, h⟩ := h
    obtain ⟨response, -, h⟩ := of_bind h
    obtain ⟨-, -, h⟩ := of_bind h
    split at h
    · split at h
      · cases h
      · exact ih h
    · exact fetched_of_receive h

theorem fetched_of_attempts {left attempt : Nat}
    (h : fetcher.attempts library network url expected left attempt = .ok (fetched, content)) :
    Fetched library fetcher url expected fetched content := by
  induction left generalizing attempt with
  | zero =>
    rw [PublicHttpsFetcher.attempts] at h
    split at h
    next hOnce =>
      cases h
      exact fetched_of_followHops hOnce
    all_goals cases h
  | succ left ih =>
    rw [PublicHttpsFetcher.attempts] at h
    split at h
    next hOnce =>
      cases h
      exact fetched_of_followHops hOnce
    · cases h
    · cases h
    · exact ih h

/-- The digest is that of the bytes in the file, which are not too many, and the expected one. -/
theorem fetched_of_download
    (h : fetcher.download library network url expected = .ok (fetched, content)) :
    Fetched library fetcher url expected fetched content :=
  fetched_of_attempts h

end Fetched

end Glasslab.Datasets
