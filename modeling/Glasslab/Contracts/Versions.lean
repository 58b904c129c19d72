import Mathlib.Data.String.Basic
import Mathlib.Data.List.TakeWhile

/-!
# Semantic versions

`_bump_patch` of `app/contract_candidates.py` reads a version with the pattern
`^(\d+)\.(\d+)\.(\d+)(?:-[0-9A-Za-z.-]+)?$` and writes the next patch version. Bumping drops a
prerelease and counts up the patch (`semanticVersion_bumpPatch`), so that no version comes twice
among those that are reached by bumping (`bumps_injective`).
-/

namespace Glasslab.Contracts

open List Option

/-- The zeros of the decimal digits that `\d` matches and `int` reads (Unicode category Nd). -/
def decimalZeros : List Nat :=
  [0x30, 0x660, 0x6f0, 0x7c0, 0x966, 0x9e6, 0xa66, 0xae6, 0xb66, 0xbe6, 0xc66, 0xce6, 0xd66, 0xde6,
    0xe50, 0xed0, 0xf20, 0x1040, 0x1090, 0x17e0, 0x1810, 0x1946, 0x19d0, 0x1a80, 0x1a90, 0x1b50,
    0x1bb0, 0x1c40, 0x1c50, 0xa620, 0xa8d0, 0xa900, 0xa9d0, 0xa9f0, 0xaa50, 0xabf0, 0xff10, 0x104a0,
    0x10d30, 0x11066, 0x110f0, 0x11136, 0x111d0, 0x112f0, 0x11450, 0x114d0, 0x11650, 0x116c0,
    0x11730, 0x118e0, 0x11950, 0x11c50, 0x11d50, 0x11da0, 0x16a60, 0x16ac0, 0x16b50, 0x1d7ce,
    0x1d7d8, 0x1d7e2, 0x1d7ec, 0x1d7f6, 0x1e140, 0x1e2f0, 0x1e950, 0x1fbf0]

def decimal? (c : Char) : Option Nat :=
  (decimalZeros.find? fun first => first ≤ c.toNat ∧ c.toNat < first + 10).map fun first =>
    c.toNat - first

def isDecimal (c : Char) : Bool := (decimal? c).isSome

/-- `int(text)` of a text of digits. -/
def intOfDigits (text : List Char) : Nat :=
  text.foldl (fun n c => 10 * n + (decimal? c).getD 0) 0

/-- The end of the pattern: a prerelease or nothing, before the end or a final newline. -/
def isVersionEnd (rest : List Char) : Bool :=
  match if rest.getLast? = some '\n' then rest.dropLast else rest with
  | [] => true
  | '-' :: prerelease =>
    prerelease ≠ [] ∧ prerelease.all fun c => c.isAlphanum ∨ c = '.' ∨ c = '-'
  | _ => false

/-- The groups of the pattern, the patch as a number. -/
def semanticVersion (version : String) : Option (List Char × List Char × Nat) :=
  let major := version.toList.takeWhile isDecimal
  match version.toList.dropWhile isDecimal with
  | '.' :: rest =>
    let minor := rest.takeWhile isDecimal
    match rest.dropWhile isDecimal with
    | '.' :: rest =>
      let patch := rest.takeWhile isDecimal
      if major ≠ [] ∧ minor ≠ [] ∧ patch ≠ [] ∧ isVersionEnd (rest.dropWhile isDecimal) then
        some (major, minor, intOfDigits patch)
      else none
    | _ => none
  | _ => none

/-- `_bump_patch`, with nothing where it raises. -/
def bumpPatch (version : String) : Option String :=
  (semanticVersion version).map fun (major, minor, patch) =>
    String.ofList (major ++ '.' :: minor ++ '.' :: (toString (patch + 1)).toList)

/-! ## Bumping -/

theorem decimal?_of_isDigit {c : Char} (h : c.isDigit = true) :
    decimal? c = some (c.toNat - '0'.toNat) := by
  have hRange : 0x30 ≤ c.toNat ∧ c.toNat < 0x30 + 10 := by
    rw [Char.isDigit_iff_toNat] at h
    have h0 : '0'.toNat = 0x30 := rfl
    have h9 : '9'.toNat = 0x39 := rfl
    omega
  have hFind : (decimalZeros.find? fun first => first ≤ c.toNat ∧ c.toNat < first + 10) =
      some 0x30 := by
    exact List.find?_cons_of_pos (by simpa using hRange)
  rw [decimal?, hFind]
  rfl

theorem isDecimal_of_mem_toDigits {n : Nat} {c : Char} (h : c ∈ Nat.toDigits 10 n) :
    isDecimal c = true := by
  have hDigit := Nat.isDigit_of_mem_toDigits (by decide) (by decide) h
  rw [isDecimal, decimal?_of_isDigit hDigit]
  rfl

theorem intOfDigits_toDigits (n : Nat) : intOfDigits (Nat.toDigits 10 n) = n := by
  have hDigits : ∀ c ∈ Nat.toDigits 10 n, (decimal? c).getD 0 = c.toNat - '0'.toNat := by
    intro c hc
    rw [decimal?_of_isDigit (Nat.isDigit_of_mem_toDigits (by decide) (by decide) hc)]
    rfl
  have hFold : intOfDigits (Nat.toDigits 10 n) = Nat.ofDigitChars 10 (Nat.toDigits 10 n) 0 := by
    refine foldl_ext _ _ _ fun total c hc => ?_
    rw [hDigits c hc]
  rw [hFold, Nat.ofDigitChars_ten_toDigits]

theorem takeWhile_digits {digits rest : List Char} (h : ∀ c ∈ digits, isDecimal c = true) :
    (digits ++ '.' :: rest).takeWhile isDecimal = digits ∧
      (digits ++ '.' :: rest).dropWhile isDecimal = '.' :: rest := by
  have hDot : isDecimal '.' = false := by decide
  rw [takeWhile_append_of_pos h, dropWhile_append_of_pos h, takeWhile_cons,
    dropWhile_cons, hDot]
  exact ⟨by simp, by simp⟩

variable {major minor : List Char}

/-- Digits, a dot, digits, a dot and a number are read back. -/
theorem semanticVersion_ofList (hMajor : major ≠ []) (hMinor : minor ≠ [])
    (hMajorDigits : ∀ c ∈ major, isDecimal c = true)
    (hMinorDigits : ∀ c ∈ minor, isDecimal c = true) (patch : Nat) :
    semanticVersion
        (String.ofList (major ++ '.' :: minor ++ '.' :: (toString patch).toList)) =
      some (major, minor, patch) := by
  have hText : (toString patch).toList = Nat.toDigits 10 patch := Nat.toList_repr
  have hAll : ∀ c ∈ Nat.toDigits 10 patch, isDecimal c = true :=
    fun c hc => isDecimal_of_mem_toDigits hc
  have hShape : major ++ '.' :: minor ++ '.' :: (toString patch).toList =
      major ++ '.' :: (minor ++ '.' :: Nat.toDigits 10 patch) := by
    rw [hText, append_assoc, cons_append]
  have hNone : (Nat.toDigits 10 patch).dropWhile isDecimal = [] :=
    dropWhile_eq_nil_iff.mpr hAll
  have hTake : (Nat.toDigits 10 patch).takeWhile isDecimal = Nat.toDigits 10 patch :=
    takeWhile_eq_self_iff.mpr hAll
  have hCondition : major ≠ [] ∧ minor ≠ [] ∧ Nat.toDigits 10 patch ≠ [] ∧
      isVersionEnd [] = true := ⟨hMajor, hMinor, Nat.toDigits_ne_nil, rfl⟩
  rw [semanticVersion, String.toList_ofList, hShape, (takeWhile_digits hMajorDigits).1,
    (takeWhile_digits hMajorDigits).2]
  simp only [(takeWhile_digits hMinorDigits).1, (takeWhile_digits hMinorDigits).2, hNone, hTake,
    intOfDigits_toDigits]
  rw [if_pos hCondition]

variable {version : String} {patch k : Nat}

theorem semanticVersion_eq_some
    (h : semanticVersion version = some (major, minor, patch)) :
    (major ≠ [] ∧ ∀ c ∈ major, isDecimal c = true) ∧
      minor ≠ [] ∧ ∀ c ∈ minor, isDecimal c = true := by
  have hDigits (text : List Char) : ∀ c ∈ text.takeWhile isDecimal, isDecimal c = true :=
    fun c hc => mem_takeWhile_imp hc
  simp only [semanticVersion] at h
  split at h
  · split at h
    · split at h
      · rename_i hCondition
        obtain ⟨rfl, rfl, -⟩ := Prod.mk.inj (Option.some.inj h) |>.imp id Prod.mk.inj
        exact ⟨⟨hCondition.1, hDigits _⟩, hCondition.2.1, hDigits _⟩
      · cases h
    · cases h
  · cases h

variable {next : String}

theorem semanticVersion_bumpPatch (h : bumpPatch version = some next) :
    ∃ major minor patch, semanticVersion version = some (major, minor, patch) ∧
      semanticVersion next = some (major, minor, patch + 1) := by
  obtain ⟨⟨major, minor, patch⟩, hVersion, rfl⟩ := map_eq_some_iff.mp h
  obtain ⟨⟨hMajor, hMajorDigits⟩, hMinor, hMinorDigits⟩ := semanticVersion_eq_some hVersion
  exact ⟨major, minor, patch, hVersion,
    semanticVersion_ofList hMajor hMinor hMajorDigits hMinorDigits (patch + 1)⟩

def bumps (version : String) : Nat → Option String
  | 0 => some version
  | k + 1 => (bumps version k).bind bumpPatch

theorem semanticVersion_bumps
    (hVersion : semanticVersion version = some (major, minor, patch))
    (h : bumps version k = some next) :
    semanticVersion next = some (major, minor, patch + k) := by
  induction k generalizing next with
  | zero =>
    obtain rfl := Option.some.inj h
    exact hVersion
  | succ k ih =>
    obtain ⟨before, hBefore, hNext⟩ := bind_eq_some_iff.mp h
    obtain ⟨major', minor', patch', hOld, hNew⟩ := semanticVersion_bumpPatch hNext
    rw [ih hBefore] at hOld
    obtain ⟨rfl, hRest⟩ := Prod.mk.inj (Option.some.inj hOld)
    obtain ⟨rfl, rfl⟩ := Prod.mk.inj hRest
    exact hNew

theorem bumps_injective {j : Nat} (hj : bumps version j = some next)
    (hk : bumps version k = some next) : j = k := by
  cases hVersion : semanticVersion version with
  | some groups =>
    have hSame := (semanticVersion_bumps hVersion hj).symm.trans (semanticVersion_bumps hVersion hk)
    simp only [Option.some.injEq, Prod.mk.injEq, true_and] at hSame
    omega
  | none =>
    -- a version that is not semantic cannot be bumped
    have hZero {i : Nat} (hi : bumps version i = some next) : i = 0 := by
      have hNone (n : Nat) : bumps version (n + 1) = none := by
        induction n with
        | zero => rw [bumps, bumps, bind_some, bumpPatch, hVersion, map_none]
        | succ n ih => rw [bumps, ih, bind_none]
      cases i with
      | zero => rfl
      | succ n =>
        rw [hNone n] at hi
        cases hi
    rw [hZero hj, hZero hk]

end Glasslab.Contracts
