import Mathlib.Data.Set.Prod
import Mathlib.Algebra.Group.Nat.Defs

/-!
# Framed texts

A code delimits its words when the end of a word can be told from what follows it. A stream of
such words can be cut back into them (`Delimits.flatMap_inj`), and two codes that delimit can be
written after one another (`Delimits.append`). A text behind its length, written with a fixed
number of bytes, is such a code (`delimits_frame`).
-/

namespace Foundation

open List

variable {α β γ : Type*} {S : Set α} {T : Set β} {f : α → List γ} {g : β → List γ}

/-- What follows a word does not change how the word reads. -/
def Delimits (code : α → List γ) (S : Set α) : Prop :=
  ∀ a ∈ S, ∀ b ∈ S, ∀ s t, code a ++ s = code b ++ t → a = b ∧ s = t

theorem Delimits.append (hf : Delimits f S) (hg : Delimits g T) :
    Delimits (fun p : α × β => f p.1 ++ g p.2) (S ×ˢ T) := by
  intro a ha b hb s t h
  simp only [append_assoc] at h
  obtain ⟨hFirst, h⟩ := hf a.1 ha.1 b.1 hb.1 _ _ h
  obtain ⟨hSecond, h⟩ := hg a.2 ha.2 b.2 hb.2 _ _ h
  exact ⟨Prod.ext hFirst hSecond, h⟩

/-- A stream of words is cut back into the words it was written from. -/
theorem Delimits.flatMap_inj (hf : Delimits f S) (hne : ∀ a, f a ≠ []) {as bs : List α}
    (ha : ∀ a ∈ as, a ∈ S) (hb : ∀ b ∈ bs, b ∈ S) (h : as.flatMap f = bs.flatMap f) :
    as = bs := by
  induction as generalizing bs with
  | nil =>
    cases bs with
    | nil => rfl
    | cons b bs =>
      exact absurd (append_eq_nil_iff.mp h.symm).1 (hne b)
  | cons a as ih =>
    cases bs with
    | nil =>
      exact absurd (append_eq_nil_iff.mp h).1 (hne a)
    | cons b bs =>
      obtain ⟨rfl, hRest⟩ := hf a (ha a mem_cons_self) b (hb b mem_cons_self) _ _ h
      have hTail := ih (fun c hc => ha c (mem_cons_of_mem _ hc))
        (fun c hc => hb c (mem_cons_of_mem _ hc)) hRest
      rw [hTail]

/-- The `width` low bytes of a number, the highest first. -/
def bigEndian : Nat → Nat → List UInt8
  | 0, _ => []
  | width + 1, n => UInt8.ofNat (n / 256 ^ width) :: bigEndian width n

@[simp] theorem length_bigEndian (width n : Nat) : (bigEndian width n).length = width := by
  induction width with
  | zero => rfl
  | succ width ih => rw [bigEndian, length_cons, ih]

variable {width : Nat}

theorem mod_eq_of_bigEndian_eq {n m : Nat} (h : bigEndian width n = bigEndian width m) :
    n % 256 ^ width = m % 256 ^ width := by
  induction width with
  | zero => rw [Nat.pow_zero, Nat.mod_one, Nat.mod_one]
  | succ width ih =>
    rw [bigEndian, bigEndian, List.cons.injEq] at h
    have hHead := congrArg UInt8.toNat h.1
    simp only [UInt8.toNat_ofNat'] at hHead
    rw [Nat.mod_pow_succ, Nat.mod_pow_succ, ih h.2, hHead]

theorem bigEndian_inj {n m : Nat} (hn : n < 256 ^ width) (hm : m < 256 ^ width)
    (h : bigEndian width n = bigEndian width m) : n = m := by
  have hMod := mod_eq_of_bigEndian_eq h
  rwa [Nat.mod_eq_of_lt hn, Nat.mod_eq_of_lt hm] at hMod

def frame (width : Nat) (text : List UInt8) : List UInt8 := bigEndian width text.length ++ text

theorem frame_ne_nil (h : 0 < width) (text : List UInt8) : frame width text ≠ [] := by
  intro hNil
  have hLength := congrArg List.length hNil
  rw [frame, length_append, length_bigEndian, length_nil] at hLength
  omega

theorem delimits_frame (width : Nat) :
    Delimits (frame width) {text | text.length < 256 ^ width} := by
  intro a ha b hb s t h
  simp only [frame, append_assoc] at h
  obtain ⟨hLength, h⟩ := append_inj h (by simp)
  have hLength := bigEndian_inj ha hb hLength
  exact append_inj h hLength

end Foundation
