import Mathlib.Data.List.Range
import Mathlib.Order.Lattice

/-!
# Logs numbered per owner

One append-only list holds the entries of many owners. A new entry is numbered with one
more than the greatest number its owner has so far, and with one when the owner has none.
`Numbered` says that the entries of every owner are numbered 1, 2, 3, and so on without a
gap, in the order of the log; appending under the numbering rule keeps it.
-/

namespace Foundation.NumberedLog

open List

variable {ε κ : Type*} [DecidableEq κ] {owner : ε → κ} {seq : ε → Nat}

def entries (owner : ε → κ) (log : List ε) (k : κ) : List ε := log.filter fun e => owner e = k

def next (owner : ε → κ) (seq : ε → Nat) (log : List ε) (k : κ) : Nat :=
  ((entries owner log k).map seq).foldl max 0 + 1

def Numbered (owner : ε → κ) (seq : ε → Nat) (log : List ε) : Prop :=
  ∀ k, (entries owner log k).map seq = List.range' 1 (entries owner log k).length

theorem entries_append_self (log : List ε) (e : ε) :
    entries owner (log ++ [e]) (owner e) = entries owner log (owner e) ++ [e] := by
  simp [entries]

theorem entries_append_ne (log : List ε) {e : ε} {k : κ} (h : owner e ≠ k) :
    entries owner (log ++ [e]) k = entries owner log k := by
  simp [entries, h]

theorem foldl_max_range' (n : Nat) : (List.range' 1 n).foldl max 0 = n := by
  induction n with
  | zero => rfl
  | succ n ih =>
    rw [List.range'_concat, foldl_append, ih]
    simp only [foldl_cons, foldl_nil]
    omega

theorem Numbered.append {log : List ε} (h : Numbered owner seq log) {e : ε}
    (he : seq e = next owner seq log (owner e)) : Numbered owner seq (log ++ [e]) := by
  intro k
  by_cases hk : owner e = k
  · subst hk
    rw [entries_append_self, map_append, h (owner e), length_append,
      length_singleton, List.range'_concat]
    simp [he, next, h _, foldl_max_range', Nat.add_comm]
  · rw [entries_append_ne log hk]
    exact h k

end Foundation.NumberedLog
