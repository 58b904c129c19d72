import Mathlib.Data.List.Basic

/-!
# Base64 without padding

Three bytes are written as four characters of the URL-safe alphabet, one byte that is left over as
two and two bytes as three. `decode` drops the bits of the last character that belong to no byte,
whatever they are, so that it is a left inverse of `encode` (`decode_encode`) and no right inverse:
unless the number of bytes is a multiple of three, there is another text of the same length
(`exists_other_text`).
-/

namespace Foundation.Base64Url

open List Option

def sextetChar (n : Nat) : Char :=
  if n < 26 then Char.ofNat (n + 65)
  else if n < 52 then Char.ofNat (n + 71)
  else if n < 62 then Char.ofNat (n - 4)
  else if n = 62 then '-'
  else '_'

def sextetValue? (c : Char) : Option Nat :=
  if 65 ≤ c.toNat ∧ c.toNat ≤ 90 then some (c.toNat - 65)
  else if 97 ≤ c.toNat ∧ c.toNat ≤ 122 then some (c.toNat - 71)
  else if 48 ≤ c.toNat ∧ c.toNat ≤ 57 then some (c.toNat + 4)
  else if c = '-' then some 62
  else if c = '_' then some 63
  else none

theorem sextetValue?_sextetChar : ∀ n < 64, sextetValue? (sextetChar n) = some n := by decide

def encodeValues : List UInt8 → List Nat
  | a :: b :: c :: rest =>
    a.toNat / 4 :: (a.toNat % 4 * 16 + b.toNat / 16) :: (b.toNat % 16 * 4 + c.toNat / 64) ::
      c.toNat % 64 :: encodeValues rest
  | [a, b] => [a.toNat / 4, a.toNat % 4 * 16 + b.toNat / 16, b.toNat % 16 * 4]
  | [a] => [a.toNat / 4, a.toNat % 4 * 16]
  | [] => []

def encode (bytes : List UInt8) : List Char := (encodeValues bytes).map sextetChar

/-- The bytes of a text of sextets. One sextet alone at its end is an error. -/
def decodeValues : List Nat → Option (List UInt8)
  | a :: b :: c :: d :: rest =>
    (decodeValues rest).map fun bytes =>
      UInt8.ofNat (a * 4 + b / 16) :: UInt8.ofNat (b % 16 * 16 + c / 4) ::
        UInt8.ofNat (c % 4 * 64 + d) :: bytes
  | [a, b, c] => some [UInt8.ofNat (a * 4 + b / 16), UInt8.ofNat (b % 16 * 16 + c / 4)]
  | [a, b] => some [UInt8.ofNat (a * 4 + b / 16)]
  | [_] => none
  | [] => some []

def decode (text : List Char) : Option (List UInt8) := (text.mapM sextetValue?).bind decodeValues

theorem mapM_sextetChar {values : List Nat} (h : ∀ n ∈ values, n < 64) :
    (values.map sextetChar).mapM sextetValue? = some values := by
  induction values with
  | nil => rfl
  | cons n rest ih =>
    obtain ⟨hn, hRest⟩ := forall_mem_cons.mp h
    simp [sextetValue?_sextetChar n hn, ih hRest]

theorem encodeValues_lt (bytes : List UInt8) : ∀ n ∈ encodeValues bytes, n < 64 := by
  induction bytes using encodeValues.induct with
  | case1 a b c rest ih =>
    have ha := a.toNat_lt
    have hb := b.toNat_lt
    have hc := c.toNat_lt
    simp only [encodeValues, forall_mem_cons]
    exact ⟨by omega, by omega, by omega, by omega, ih⟩
  | case2 a b =>
    have ha := a.toNat_lt
    have hb := b.toNat_lt
    simp only [encodeValues, forall_mem_cons]
    exact ⟨by omega, by omega, by omega, nofun⟩
  | case3 a =>
    have ha := a.toNat_lt
    simp only [encodeValues, forall_mem_cons]
    exact ⟨by omega, by omega, nofun⟩
  | case4 => nofun

theorem ofNat_eq (byte : UInt8) {n : Nat} (h : n = byte.toNat) : UInt8.ofNat n = byte := by
  rw [h, UInt8.ofNat_toNat]

theorem decodeValues_encodeValues (bytes : List UInt8) :
    decodeValues (encodeValues bytes) = some bytes := by
  induction bytes using encodeValues.induct with
  | case1 a b c rest ih =>
    have hb := b.toNat_lt
    have hc := c.toNat_lt
    rw [encodeValues, decodeValues, ih, map_some, ofNat_eq a (by omega),
      ofNat_eq b (by omega), ofNat_eq c (by omega)]
  | case2 a b =>
    have hb := b.toNat_lt
    rw [encodeValues, decodeValues, ofNat_eq a (by omega), ofNat_eq b (by omega)]
  | case3 a => rw [encodeValues, decodeValues, ofNat_eq a (by omega)]
  | case4 => rfl

theorem decode_encode (bytes : List UInt8) : decode (encode bytes) = some bytes := by
  rw [decode, encode, mapM_sextetChar (encodeValues_lt bytes), bind_some,
    decodeValues_encodeValues]

/-- Other sextets for the same bytes, with a bit more in the last one. -/
def otherValues : List UInt8 → List Nat
  | a :: b :: c :: rest =>
    a.toNat / 4 :: (a.toNat % 4 * 16 + b.toNat / 16) :: (b.toNat % 16 * 4 + c.toNat / 64) ::
      c.toNat % 64 :: otherValues rest
  | [a, b] => [a.toNat / 4, a.toNat % 4 * 16 + b.toNat / 16, b.toNat % 16 * 4 + 1]
  | [a] => [a.toNat / 4, a.toNat % 4 * 16 + 1]
  | [] => []

variable {bytes : List UInt8}

theorem otherValues_spec (h : bytes.length % 3 ≠ 0) :
    (∀ n ∈ otherValues bytes, n < 64) ∧ decodeValues (otherValues bytes) = some bytes ∧
      otherValues bytes ≠ encodeValues bytes ∧
        (otherValues bytes).length = (encodeValues bytes).length := by
  induction bytes using otherValues.induct with
  | case1 a b c rest ih =>
    have ha := a.toNat_lt
    have hb := b.toNat_lt
    have hc := c.toNat_lt
    have hRest : rest.length % 3 ≠ 0 := by
      simp only [length_cons] at h
      omega
    obtain ⟨hLt, hDecode, hNe, hLength⟩ := ih hRest
    refine ⟨?_, ?_, ?_, by simp [otherValues, encodeValues, hLength]⟩
    · simp only [otherValues, forall_mem_cons]
      exact ⟨by omega, by omega, by omega, by omega, hLt⟩
    · rw [otherValues, decodeValues, hDecode, map_some, ofNat_eq a (by omega),
        ofNat_eq b (by omega), ofNat_eq c (by omega)]
    · simpa [otherValues, encodeValues] using hNe
  | case2 a b =>
    have ha := a.toNat_lt
    have hb := b.toNat_lt
    refine ⟨?_, ?_, by simp [otherValues, encodeValues], rfl⟩
    · simp only [otherValues, forall_mem_cons]
      exact ⟨by omega, by omega, by omega, nofun⟩
    · rw [otherValues, decodeValues, ofNat_eq a (by omega), ofNat_eq b (by omega)]
  | case3 a =>
    have ha := a.toNat_lt
    refine ⟨?_, ?_, by simp [otherValues, encodeValues], rfl⟩
    · simp only [otherValues, forall_mem_cons]
      exact ⟨by omega, by omega, nofun⟩
    · rw [otherValues, decodeValues, ofNat_eq a (by omega)]
  | case4 => exact absurd rfl h

theorem sextetValue?_of_decode {text : List Char} (h : decode text = some bytes) :
    ∀ c ∈ text, (sextetValue? c).isSome := by
  obtain ⟨values, hValues, -⟩ := bind_eq_some_iff.mp h
  clear h
  induction text generalizing values with
  | nil => nofun
  | cons c text ih =>
    rw [mapM_cons] at hValues
    obtain ⟨n, hn, hRest⟩ := bind_eq_some_iff.mp hValues
    obtain ⟨rest, hText, -⟩ := bind_eq_some_iff.mp hRest
    exact forall_mem_cons.mpr ⟨by rw [hn]; rfl, ih rest hText⟩

theorem exists_other_text (h : bytes.length % 3 ≠ 0) :
    ∃ text, text ≠ encode bytes ∧ text.length =
    (encode bytes).length ∧ decode text = some bytes := by
  obtain ⟨hLt, hDecode, hNe, hLength⟩ := otherValues_spec h
  refine ⟨(otherValues bytes).map sextetChar, ?_, ?_, ?_⟩
  · intro hEq
    have hValues := congrArg (List.mapM sextetValue?) hEq
    rw [encode, mapM_sextetChar hLt, mapM_sextetChar (encodeValues_lt bytes), Option.some.injEq]
      at hValues
    exact hNe hValues
  · rw [length_map, encode, length_map, hLength]
  · rw [decode, mapM_sextetChar hLt, bind_some, hDecode]

end Foundation.Base64Url
