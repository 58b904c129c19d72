import Glasslab.Foundation.Joining
import Glasslab.Links.SignedLinks

/-!
# Round trips and spellings of signed links

A token that is not too long is accepted until it expires, with the payload that was signed. It is
not the only token of its payload: an HMAC has thirty-two bytes, so the last character of its base64
text has two bits to spare, which the decoder drops. So every payload that has a token has another
one (`signed_links_iff`).
-/

namespace Glasslab.Links

open Foundation Knowledge Contracts List

variable {bytes : Bytes}

section Texts

variable {text : List Char}

theorem decodeUtf8_encodeUtf8 (primitives : Primitives) (text : String) :
    decodeUtf8 primitives (encodeUtf8 text) = text := by
  have hBytes : (⟨(encodeUtf8 text).toArray⟩ : ByteArray) = text.toByteArray := by
    rw [encodeUtf8, Array.toArray_toList]
  rw [decodeUtf8, hBytes, String.fromUTF8?, dif_pos text.isValidUTF8, Option.getD_some]
  rfl

theorem not_mem_of_decode {c : Char} (h : Base64Url.decode text = some bytes)
    (hc : Base64Url.sextetValue? c = none) : c ∉ text := by
  intro hMem
  have hSome := Base64Url.sextetValue?_of_decode h c hMem
  rw [hc] at hSome
  cases hSome

theorem b64urlDecode_of_decode (h : Base64Url.decode text = some bytes) :
    b64urlDecode text = some bytes := by
  have hPlain : (text.any fun c => c ∈ ['+', '/', '=']) = false := by
    rw [any_eq_false]
    intro c hc hAlias
    have hNone : Base64Url.sextetValue? c = none := by
      simp only [mem_cons, not_mem_nil, or_false, decide_eq_true_eq] at hAlias
      rcases hAlias with rfl | rfl | rfl <;> decide
    exact not_mem_of_decode h hNone hc
  rw [b64urlDecode, hPlain, if_neg Bool.false_ne_true, h]

end Texts

theorem isSpace_of_isDigit {c : Char} (h : c.isDigit = true) : Corpus.isSpace c = false := by
  rw [Char.isDigit_iff_toNat] at h
  have h0 : '0'.toNat = 48 := rfl
  have h9 : '9'.toNat = 57 := rfl
  simp only [Corpus.isSpace, decide_eq_false_iff_not]
  omega

theorem isDigit_of_mem_toDigits {n : Nat} {c : Char} (h : c ∈ Nat.toDigits 10 n) :
    c.isDigit = true :=
  Nat.isDigit_of_mem_toDigits (by decide) (by decide) h

theorem digitGroups_toDigits (n : Nat) : digitGroups (Nat.toDigits 10 n) = some (n : Int) := by
  have hBar : '_' ∉ Nat.toDigits 10 n :=
    fun hMem => absurd (isDigit_of_mem_toDigits hMem) (by decide)
  have hSplit : (Nat.toDigits 10 n).splitOn '_' = [Nat.toDigits 10 n] := splitOn_eq_singleton hBar
  have hFilter : (Nat.toDigits 10 n).filter (· ≠ '_') = Nat.toDigits 10 n := by
    rw [filter_eq_self]
    intro c hc
    have hNe : c ≠ '_' := fun hEq => hBar (hEq ▸ hc)
    simpa using hNe
  have hAll : ∀ c ∈ Nat.toDigits 10 n, isDecimal c = true :=
    fun c hc => isDecimal_of_mem_toDigits hc
  have hGroup :
    ((Nat.toDigits 10 n).splitOn '_').all (fun group => group ≠ [] ∧ group.all isDecimal) =
      true := by
    rw [hSplit]
    simpa [Nat.toDigits_ne_nil] using hAll
  rw [digitGroups, if_pos hGroup, hFilter, intOfDigits_toDigits]

theorem pyInt_toDigits (n : Nat) : pyInt (Nat.toDigits 10 n) = some (n : Int) := by
  have hStrip : strip (Nat.toDigits 10 n) = Nat.toDigits 10 n :=
    strip_eq_self fun c hc => isSpace_of_isDigit (isDigit_of_mem_toDigits hc)
  rw [pyInt, hStrip]
  split
  next hEq => exact absurd (isDigit_of_mem_toDigits (hEq ▸ mem_cons_self)) (by decide)
  next hEq => exact absurd (isDigit_of_mem_toDigits (hEq ▸ mem_cons_self)) (by decide)
  · exact digitGroups_toDigits n

theorem pyInt_neg_toDigits (n : Nat) : pyInt ('-' :: Nat.toDigits 10 n) = some (-(n : Int)) := by
  have hStrip : strip ('-' :: Nat.toDigits 10 n) = '-' :: Nat.toDigits 10 n := by
    refine strip_eq_self fun c hc => ?_
    rcases mem_cons.mp hc with rfl | hc
    · decide
    · exact isSpace_of_isDigit (isDigit_of_mem_toDigits hc)
  rw [pyInt, hStrip]
  show (digitGroups (Nat.toDigits 10 n)).map (fun m => -m) = _
  rw [digitGroups_toDigits]
  rfl

theorem toList_toString_int (n : Int) : (toString n).toList =
    if 0 ≤ n then Nat.toDigits 10 n.toNat else '-' :: Nat.toDigits 10 (-n).toNat := by
  rw [Int.toString_eq_repr, Int.repr_eq_if]
  split
  · exact Nat.toList_repr
  · rw [String.toList_append, Nat.toList_repr]
    rfl

theorem pyInt_toString (n : Int) : pyInt (toString n).toList = some n := by
  rw [toList_toString_int]
  split
  next hNonneg => rw [pyInt_toDigits, Int.toNat_of_nonneg hNonneg]
  next hNeg =>
    rw [pyInt_neg_toDigits, Int.toNat_of_nonneg (by omega), Int.neg_neg]

/-- The fields of a payload are valid, and its key id is accepted. -/
structure LinkPayload.IsValid (payload : LinkPayload) : Prop where
  runId : isIdentifier 8 64 payload.runId.toList = true
  ref : validateRef payload.ref = .ok payload.ref
  kid : payload.kid = defaultLinkKid

variable {primitives : Primitives} {payload : LinkPayload} {secret : String} {now : Int}

section Payloads

theorem newline_notMem_identifier {shortest longest : Nat} {text : List Char}
    (h : isIdentifier shortest longest text = true) : '\n' ∉ text := by
  intro hMem
  simp only [isIdentifier, decide_eq_true_eq, all_eq_true] at h
  exact absurd (h.2.2 '\n' hMem) (by decide)

theorem newline_notMem_ref {ref ref' : String} (h : validateRef ref = .ok ref') :
    '\n' ∉ ref.toList := by
  intro hMem
  have hControl : ref.toList.any (fun c => c.toNat < 0x20) = true :=
    any_eq_true.mpr ⟨'\n', hMem, by decide⟩
  dsimp only [validateRef] at h
  rw [if_pos (.inr hControl)] at h
  cases h

theorem newline_notMem_toString (n : Int) : '\n' ∉ (toString n).toList := by
  intro hMem
  have hDigits (m : Nat) : '\n' ∉ Nat.toDigits 10 m := fun h =>
    absurd (isDigit_of_mem_toDigits h) (by decide)
  rw [toList_toString_int] at hMem
  split at hMem
  · exact hDigits _ hMem
  · rcases mem_cons.mp hMem with hEq | hMem
    · exact absurd hEq (by decide)
    · exact hDigits _ hMem

theorem linkKind?_value (kind : LinkKind) : linkKind? kind.value = some kind := by
  cases kind <;> decide

theorem splitOn_payload (h : payload.IsValid) :
    (decodeUtf8 primitives (payloadBytes payload)).toList.splitOn '\n' =
      (payloadFields payload).map String.toList := by
  rw [payloadBytes, decodeUtf8_encodeUtf8, String.toList_ofList]
  refine splitOn_intercalate '\n' ?_ (by simp [payloadFields])
  have hKind : '\n' ∉ payload.kind.value.toList := by cases payload.kind <;> decide
  simp only [payloadFields, map_cons, map_nil, forall_mem_cons]
  refine ⟨by decide, by decide, ?_, hKind, newline_notMem_identifier h.runId,
    newline_notMem_ref h.ref,
    newline_notMem_toString _, nofun⟩
  rw [h.kid]
  decide

theorem parsePayload_payloadBytes (h : payload.IsValid) :
    parsePayload primitives (payloadBytes payload) now =
      if payload.exp ≤ now then .error ⟨"link token has expired"⟩ else .ok payload := by
  have hKid : validateKid payload.kid = .ok payload.kid := by
    rw [h.kid]
    rfl
  have hAccepted : payload.kid ∈ acceptedLinkKids := by
    rw [h.kid]
    decide
  rw [parsePayload, splitOn_payload h]
  simp only [payloadFields, map_cons, map_nil, ne_eq, not_true_eq_false, or_self, if_false,
    pyInt_toString, String.ofList_toList, linkKind?_value]
  rw [validateRunId, h.runId, if_neg nofun, h.ref, hKid]
  show (if payload.kid ∉ acceptedLinkKids then _ else _) = _
  rw [if_neg (not_not.mpr hAccepted)]
  rfl

end Payloads

/-! ## Tokens -/

section Tokens

variable {front back : List Char}

/-- Verification of a text that consists of a payload and its HMAC, however they are written. -/
theorem verifyLink_of_parts (hSecret : secret ≠ "")
    (hLength : (front ++ '.' :: back).length ≤ maximumTokenChars)
    (hFront : Base64Url.decode front = some bytes) (hNonempty : bytes ≠ [])
    (hBack : Base64Url.decode back = some (primitives.hmac secret bytes).bytes) (now : Int) :
    verifyLink primitives secret (String.ofList (front ++ '.' :: back)) now =
      parsePayload primitives bytes now := by
  have hFrontDot : '.' ∉ front := not_mem_of_decode hFront (by decide)
  have hBackDot : '.' ∉ back := not_mem_of_decode hBack (by decide)
  have hFrontNe : front ≠ [] := by
    rintro rfl
    exact hNonempty (Option.some.inj hFront).symm
  have hBackNe : back ≠ [] := by
    rintro rfl
    have hLong := (primitives.hmac secret bytes).length_eq
    rw [← Option.some.inj hBack] at hLong
    cases hLong
  have hBefore : ∀ c ∈ front, decide (c ≠ '.') = true := by
    intro c hc
    have hNe : c ≠ '.' := fun hEq => hFrontDot (hEq ▸ hc)
    simpa using hNe
  have hTake : (front ++ '.' :: back).takeWhile (· ≠ '.') = front := by
    rw [takeWhile_append_of_pos hBefore]
    simp
  have hDrop : (front ++ '.' :: back).dropWhile (· ≠ '.') = '.' :: back := by
    rw [dropWhile_append_of_pos hBefore]
    simp
  have hToken : ¬ (String.ofList (front ++ '.' :: back) = "" ∨
      maximumTokenChars < (String.ofList (front ++ '.' :: back)).length) := by
    rw [String.length_ofList]
    rintro (hEmpty | hLong)
    · have hList := congrArg String.toList hEmpty
      simp at hList
    · omega
  rw [verifyLink, if_neg hSecret, if_neg hToken]
  simp only [String.toList_ofList]
  rw [hTake, hDrop]
  dsimp only
  rw [if_neg (by simp [hFrontNe, hBackNe, hBackDot]), b64urlDecode_of_decode hFront,
    b64urlDecode_of_decode hBack]
  dsimp only
  rw [if_neg (by simp)]

theorem encodeUtf8_injective (primitives : Primitives) : encodeUtf8.Injective := by
  intro text other h
  have hText := decodeUtf8_encodeUtf8 primitives text
  rw [h, decodeUtf8_encodeUtf8] at hText
  exact hText.symm

theorem payloadBytes_ne_nil (primitives : Primitives) (payload : LinkPayload) :
    payloadBytes payload ≠ [] := by
  intro hNil
  have hText := congrArg String.toList
    (encodeUtf8_injective primitives (hNil.trans (show [] = encodeUtf8 "" from rfl)))
  rw [String.toList_ofList, payloadFields, map_cons, map_cons, intercalate_cons_cons] at hText
  exact absurd hText (by simp [linkSigningDomain])

/-- The token of a payload that is not too long is accepted until the payload expires. -/
theorem verifyLink_tokenOf (hSecret : secret ≠ "") (h : payload.IsValid)
    (hLength : (tokenOf primitives secret payload).length ≤ maximumTokenChars) (now : Int) :
    verifyLink primitives secret (String.ofList (tokenOf primitives secret payload)) now =
      if payload.exp ≤ now then .error ⟨"link token has expired"⟩ else .ok payload := by
  rw [tokenOf, verifyLink_of_parts hSecret hLength (Base64Url.decode_encode _)
    (payloadBytes_ne_nil primitives payload) (Base64Url.decode_encode _),
      parsePayload_payloadBytes h]

theorem verifyLink_of_long {token : String} (hLong : maximumTokenChars < token.length) (now : Int) :
    ∃ error, verifyLink primitives secret token now = .error error := by
  rw [verifyLink]
  split
  · exact ⟨_, rfl⟩
  · rw [if_pos (.inr hLong)]
    exact ⟨_, rfl⟩

/-- The token is accepted until the payload expires, and yields it. -/
structure RoundTrip (primitives : Primitives) (secret token : String) (payload : LinkPayload) :
    Prop where
  accepted : ∀ now, now < payload.exp → verifyLink primitives secret token now = .ok payload
  rejected : ∀ now, payload.exp ≤ now → ∃ error, verifyLink primitives secret token now =
    .error error

def OneSpelling (primitives : Primitives) (secret : String) (payload : LinkPayload) : Prop :=
  ∀ token token' now now', verifyLink primitives secret token now = .ok payload →
    verifyLink primitives secret token' now' = .ok payload → token = token'

theorem roundTrip_iff (hSecret : secret ≠ "") (h : payload.IsValid) :
    RoundTrip primitives secret (String.ofList (tokenOf primitives secret payload)) payload ↔
      (tokenOf primitives secret payload).length ≤ maximumTokenChars := by
  constructor
  · intro hRound
    by_contra hLong
    have hToken :
        maximumTokenChars < (String.ofList (tokenOf primitives secret payload)).length := by
      rw [String.length_ofList]
      omega
    obtain ⟨error, hError⟩ :
      ∃ error, verifyLink primitives secret _ (payload.exp - 1) = .error error :=
      verifyLink_of_long hToken _
    rw [hRound.accepted (payload.exp - 1) (by omega)] at hError
    cases hError
  · intro hLength
    constructor
    · intro now hNow
      rw [verifyLink_tokenOf hSecret h hLength, if_neg (by omega)]
    · intro now hNow
      rw [verifyLink_tokenOf hSecret h hLength, if_pos hNow]
      exact ⟨_, rfl⟩

theorem not_oneSpelling (hSecret : secret ≠ "") (h : payload.IsValid)
    (hLength : (tokenOf primitives secret payload).length ≤ maximumTokenChars) :
    ¬ OneSpelling primitives secret payload := by
  intro hOne
  have hBytes : (primitives.hmac secret (payloadBytes payload)).bytes.length % 3 ≠ 0 := by
    rw [(primitives.hmac secret (payloadBytes payload)).length_eq]
    decide
  obtain ⟨other, hNe, hSame, hDecode⟩ := Base64Url.exists_other_text hBytes
  have hOtherLength : (b64urlEncode (payloadBytes payload) ++ '.' :: other).length ≤
      maximumTokenChars := by
    rw [tokenOf, length_append, length_cons] at hLength
    rw [length_append, length_cons, hSame]
    exact hLength
  have hNow : ¬ payload.exp ≤ payload.exp - 1 := by omega
  have hToken := verifyLink_tokenOf hSecret h hLength (payload.exp - 1)
  have hOther := verifyLink_of_parts hSecret hOtherLength (Base64Url.decode_encode _)
    (payloadBytes_ne_nil primitives payload) hDecode (payload.exp - 1)
  rw [parsePayload_payloadBytes h, if_neg hNow] at hOther
  rw [if_neg hNow] at hToken
  have hEq := congrArg String.toList (hOne _ _ _ _ hOther hToken)
  rw [String.toList_ofList, String.toList_ofList, tokenOf] at hEq
  exact hNe (List.cons.inj (append_cancel_left hEq)).2

end Tokens

/-- A link that is signed makes its round trip just if its token is not too long, and then the token
is not the only one of its payload. -/
theorem signed_links_iff (primitives : Primitives) (kind : LinkKind) (ttlSeconds now : Int)
    {secret runId ref : String} (hSecret : secret ≠ "") (hRunId : validateRunId runId = .ok runId)
    (hRef : validateRef ref = .ok ref) :
    let payload : LinkPayload :=
  { kind, runId, ref, exp := now + ttlSeconds, kid := defaultLinkKid }
    ∃ token, signLink primitives secret kind runId ref defaultLinkKid ttlSeconds now = .ok token ∧
      (RoundTrip primitives secret token payload ↔ token.length ≤ maximumTokenChars) ∧
      ¬ (RoundTrip primitives secret token payload ∧ OneSpelling primitives secret payload) := by
  intro payload
  have hIdentifier : isIdentifier 8 64 runId.toList = true := by
    rw [validateRunId] at hRunId
    split at hRunId
    · cases hRunId
    next hTrue => exact Bool.eq_true_of_not_eq_false hTrue
  have hValid : payload.IsValid := ⟨hIdentifier, hRef, rfl⟩
  have hRound : RoundTrip primitives secret _ payload ↔ _ := roundTrip_iff hSecret hValid
  refine ⟨String.ofList (tokenOf primitives secret payload), ?_, ?_, ?_⟩
  · rw [signLink, if_neg hSecret, hRunId, hRef]
    rfl
  · rw [String.length_ofList]
    exact hRound
  · rintro ⟨hTrip, hOne⟩
    exact not_oneSpelling hSecret hValid (hRound.mp hTrip) hOne

section Example

def reportSecret : String := "link-signing-secret"

def reportPayload : LinkPayload where
  kind := .report
  runId := "run-0001"
  ref := "reports/report.md"
  exp := 1700003600
  kid := "v1"

/-- The HMAC-SHA-256 of the payload with the secret. -/
def reportPrimitives : Primitives where
  hmac _ _ :=
    { bytes := [217, 59, 201, 8, 130, 51, 180, 101, 68, 139, 54, 82, 198, 93, 164, 142, 159, 41,
      251, 191,
        50, 29, 43, 136, 221, 244, 194, 129, 75, 174, 72, 14]
      length_eq := rfl }
  replaceInvalid _ := ""

theorem signed_links_report :
    ∃ token, signLink reportPrimitives reportSecret .report "run-0001" "reports/report.md" "v1" 3600
        1700000000 = .ok token ∧
      (RoundTrip reportPrimitives reportSecret token reportPayload ↔
    token.length ≤ maximumTokenChars) ∧
      ¬ (RoundTrip reportPrimitives reportSecret token reportPayload ∧
        OneSpelling reportPrimitives reportSecret reportPayload) :=
  signed_links_iff reportPrimitives .report 3600 1700000000 (by decide) (by decide +kernel)
    (by decide +kernel)

/-- The report has a token that ends in A4, and it is verified with A5 at the end as well. -/
theorem report_has_two_tokens : ¬ OneSpelling reportPrimitives reportSecret reportPayload := by
  intro hOne
  have hTokens := hOne
    ("Z2xpbmsKdjEKdjEKcmVwb3J0CnJ1bi0wMDAxCnJlcG9ydHMvcmVwb3J0Lm1kCjE3MDAwMDM2MDA" ++
      ".2TvJCIIztGVEizZSxl2kjp8p-78yHSuI3fTCgUuuSA4")
    ("Z2xpbmsKdjEKdjEKcmVwb3J0CnJ1bi0wMDAxCnJlcG9ydHMvcmVwb3J0Lm1kCjE3MDAwMDM2MDA" ++
      ".2TvJCIIztGVEizZSxl2kjp8p-78yHSuI3fTCgUuuSA5") 1700000000 1700000000
  exact absurd hTokens (by decide +kernel)

end Example

end Glasslab.Links
