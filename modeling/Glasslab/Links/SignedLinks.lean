import Glasslab.Contracts.Versions
import Glasslab.Foundation.Base64Url
import Glasslab.Knowledge.ContextBlocks

/-!
# Signed links

`sign_link` and `verify_link` of `app/links.py`. A token is the payload and its HMAC, both in base64
without padding and with a dot between them. The payload is a text of seven lines. A token that is
too long is refused when it is verified, and not when it is signed.

A time is the number of seconds that `_epoch_seconds` makes of it. HMAC-SHA-256 is a parameter, as
is what the standard library puts in the place of bytes that are no UTF-8.
-/

namespace Glasslab.Links

open Foundation Knowledge Contracts

abbrev Bytes := List UInt8

structure LinkError where
  message : String
  deriving DecidableEq, Repr

inductive LinkKind where
  | report
  | artifact
  | packet
  deriving DecidableEq, Repr

def LinkKind.value : LinkKind → String
  | report => "report"
  | artifact => "artifact"
  | packet => "packet"

/-- `LinkKind(value)`. -/
def linkKind? (value : String) : Option LinkKind :=
  [LinkKind.report, .artifact, .packet].find? fun kind => kind.value = value

structure LinkPayload where
  kind : LinkKind
  runId : String
  ref : String
  exp : Int
  kid : String
  deriving DecidableEq, Repr

structure Signature where
  bytes : Bytes
  length_eq : bytes.length = 32

/-- What the module takes from elsewhere. -/
structure Primitives where
  /-- `hmac.new(secret.encode('utf-8'), payload_bytes, sha256).digest()`. -/
  hmac : String → Bytes → Signature
  /-- `decode('utf-8', errors='replace')` of bytes that are no UTF-8. -/
  replaceInvalid : Bytes → String

def linkSigningDomain : String := "glink"

def linkPayloadVersion : String := "v1"

def defaultLinkKid : String := "v1"

def acceptedLinkKids : List String := [defaultLinkKid]

def maximumTokenChars : Nat := 4096

/-- `encode('utf-8')`. -/
def encodeUtf8 (text : String) : Bytes := text.toByteArray.data.toList

/-- `decode('utf-8', errors='replace')`. -/
def decodeUtf8 (primitives : Primitives) (bytes : Bytes) : String :=
  (String.fromUTF8? ⟨bytes.toArray⟩).getD (primitives.replaceInvalid bytes)

def b64urlEncode (data : Bytes) : List Char := Base64Url.encode data

/-- `_b64url_decode`. Without the standard aliases and padding, `b64decode` is left with the
URL-safe alphabet. -/
def b64urlDecode (value : List Char) : Option Bytes :=
  if value.any fun c => c ∈ ['+', '/', '='] then none else Base64Url.decode value

/-- The number that groups of digits make, with underscores between them. -/
def digitGroups (digits : List Char) : Option Int :=
  if (digits.splitOn '_').all fun group => group ≠ [] ∧ group.all isDecimal then
    some (intOfDigits (digits.filter (· ≠ '_')) : Nat)
  else none

/-- `int(text)`, with nothing where it raises. -/
def pyInt (text : List Char) : Option Int :=
  match strip text with
  | '-' :: digits => (digitGroups digits).map fun n => -n
  | '+' :: digits => digitGroups digits
  | digits => digitGroups digits

/-- `[A-Za-z0-9._-]`. -/
def isIdentifierChar (c : Char) : Bool := c.isAlphanum ∨ c = '.' ∨ c = '_' ∨ c = '-'

def isIdentifier (shortest longest : Nat) (text : List Char) : Bool :=
  shortest ≤ text.length ∧ text.length ≤ longest ∧ text.all isIdentifierChar

def validateRunId (runId : String) : Except LinkError String :=
  if isIdentifier 8 64 runId.toList =
    false then .error ⟨"link run id is not a valid run identifier"⟩
  else .ok runId

def validateKid (kid : String) : Except LinkError String :=
  if isIdentifier 1 32 kid.toList = false then .error ⟨"link key id is not valid"⟩ else .ok kid

def knowledgePacketPrefix : List Char := "knowledge://context:".toList

/-- `PurePosixPath(ref).parts`, of a path that is not absolute. -/
def pathParts (ref : List Char) : List (List Char) :=
  (ref.splitOn '/').filter fun part => part ≠ [] ∧ part ≠ ['.']

/-- `PurePosixPath(ref).as_posix()`, of a path that is not absolute. -/
def asPosix (ref : List Char) : List Char :=
  if pathParts ref = [] then ['.'] else ['/'].intercalate (pathParts ref)

def validateRef (ref : String) : Except LinkError String :=
  let text := ref.toList
  if text = [] ∨ text.any fun c => c.toNat < 0x20 then
    .error ⟨"link ref is empty or contains control characters"⟩
  else if '\\' ∈ text ∨ '%' ∈ text then .error ⟨"link ref contains forbidden characters"⟩
  else
    match knowledgePacketPrefix.isPrefixOf? text with
    | some packetId =>
      if isIdentifier 1 64 packetId = false then .error ⟨"link packet ref is not a valid packet id"⟩
      else .ok ref
    | none =>
      if text.head? = some '/' then .error ⟨"link ref must be run-relative"⟩
      else if ['.', '.'] ∈ pathParts text then .error ⟨"link ref must not escape the run root"⟩
      else if asPosix text ≠ text then .error ⟨"link ref must be a canonical relative path"⟩
      else .ok ref

def payloadFields (payload : LinkPayload) : List String :=
  [linkSigningDomain, linkPayloadVersion, payload.kid, payload.kind.value, payload.runId,
    payload.ref,
    toString payload.exp]

def payloadBytes (payload : LinkPayload) : Bytes :=
  encodeUtf8 (String.ofList (['\n'].intercalate ((payloadFields payload).map String.toList)))

section Primitives

variable (primitives : Primitives) (secret : String)

def tokenOf (payload : LinkPayload) : List Char :=
  b64urlEncode (payloadBytes payload) ++
    '.' :: b64urlEncode (primitives.hmac secret (payloadBytes payload)).bytes

def signLink (kind : LinkKind) (runId ref kid : String) (ttlSeconds now : Int) :
    Except LinkError String :=
  if secret = "" then .error ⟨"link signing secret is not configured"⟩
  else do
    let runId ← validateRunId runId
    let ref ← validateRef ref
    let kid ← validateKid kid
    let payload : LinkPayload := { kind, runId, ref, exp := now + ttlSeconds, kid }
    pure (String.ofList (tokenOf primitives secret payload))

def malformed {α : Type} : Except LinkError α := .error ⟨"link token is malformed"⟩

def parsePayload (bytes : Bytes) (now : Int) : Except LinkError LinkPayload :=
  match (decodeUtf8 primitives bytes).toList.splitOn '\n' with
  | [domain, version, kid, kind, runId, ref, exp] =>
    if domain ≠ linkSigningDomain.toList ∨ version ≠ linkPayloadVersion.toList then
      .error ⟨"link token payload is malformed"⟩
    else
      match pyInt exp with
      | none => .error ⟨"link token expiry is malformed"⟩
      | some exp =>
        match linkKind? (String.ofList kind) with
        | none => .error ⟨"link token kind is unknown"⟩
        | some kind => do
          let runId ← validateRunId (String.ofList runId)
          let ref ← validateRef (String.ofList ref)
          let kid ← validateKid (String.ofList kid)
          if kid ∉ acceptedLinkKids then .error ⟨"link token key id is not accepted"⟩
          else if exp ≤ now then .error ⟨"link token has expired"⟩
          else pure { kind, runId, ref, exp, kid }
  | _ => .error ⟨"link token payload is malformed"⟩

def verifyLink (token : String) (now : Int) : Except LinkError LinkPayload :=
  if secret = "" then .error ⟨"link signing secret is not configured"⟩
  else if token = "" ∨ maximumTokenChars < token.length then malformed
  else
    let encodedPayload := token.toList.takeWhile (· ≠ '.')
    match token.toList.dropWhile (· ≠ '.') with
    | [] => malformed
    | _ :: encodedSignature =>
      if encodedPayload = [] ∨ encodedSignature = [] ∨ '.' ∈ encodedSignature then malformed
      else
        match b64urlDecode encodedPayload, b64urlDecode encodedSignature with
        | some payload, some signature =>
          if signature ≠ (primitives.hmac secret payload).bytes then
            .error ⟨"link token signature is invalid"⟩
          else parsePayload primitives payload now
        | _, _ => malformed

end Primitives

end Glasslab.Links
