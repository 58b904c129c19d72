import Mathlib.Data.List.Induction
import Mathlib.Data.List.Nodup
import Mathlib.Data.List.Perm.Subperm

/-!
# First writes

Rows that are written under a key, where a key that is taken keeps its first row. What is read back
as the newest row is the last one whose key was new, which need not be the last one written.
-/

namespace Foundation

open List

variable {α κ : Type*} [DecidableEq κ] {key : α → κ} {xs : List α} {x y : α}

def firstWrites (key : α → κ) (xs : List α) : List α :=
  xs.foldl (fun rows x => if key x ∈ rows.map key then rows else rows ++ [x]) []

theorem firstWrites_concat :
    firstWrites key (xs ++ [x]) =
      if key x ∈ (firstWrites key xs).map key then firstWrites key xs
      else firstWrites key xs ++ [x] := by
  simp [firstWrites]

variable {k k' : κ}

theorem mem_map_firstWrites : k ∈ (firstWrites key xs).map key ↔ k ∈ xs.map key := by
  induction xs using List.reverseRecOn with
  | nil => simp [firstWrites]
  | append_singleton xs x ih =>
    have hSplit : k ∈ (xs ++ [x]).map key ↔ k ∈ xs.map key ∨ k = key x := by simp
    rw [firstWrites_concat, hSplit, ← ih]
    split
    next hTaken =>
      constructor
      · exact .inl
      · rintro (h | rfl)
        · exact h
        · exact hTaken
    next => simp

theorem firstWrites_sublist (key : α → κ) (xs : List α) : (firstWrites key xs).Sublist xs := by
  induction xs using List.reverseRecOn with
  | nil => exact Sublist.slnil
  | append_singleton xs y ih =>
    rw [firstWrites_concat]
    split
    next => exact ih.trans (sublist_append_left _ _)
    next => exact ih.append (Sublist.refl _)

theorem mem_of_mem_firstWrites (h : x ∈ firstWrites key xs) : x ∈ xs :=
  (firstWrites_sublist key xs).subset h

theorem nodup_map_firstWrites : ((firstWrites key xs).map key).Nodup := by
  induction xs using List.reverseRecOn with
  | nil => exact nodup_nil
  | append_singleton xs x ih =>
    rw [firstWrites_concat]
    split
    next => exact ih
    next hNew =>
      rw [map_append, nodup_append]
      refine ⟨ih, nodup_singleton _, fun a ha b hb => ?_⟩
      rw [map_singleton, mem_singleton] at hb
      rintro rfl
      exact hNew (hb ▸ ha)

theorem filter_firstWrites {p : α → Bool} (hKind : ∀ x ∈ xs, ∀ y ∈ xs, key x = key y → p x = p y) :
    (firstWrites key xs).filter p = firstWrites key (xs.filter p) := by
  induction xs using List.reverseRecOn with
  | nil => rfl
  | append_singleton xs x ih =>
    have ih := ih fun a ha b hb => hKind a (by simp [ha]) b (by simp [hb])
    have hOld : p x = true →
        (key x ∈ (firstWrites key xs).map key ↔
          key x ∈ (firstWrites key (xs.filter p)).map key) := by
      intro hx
      rw [mem_map_firstWrites, mem_map_firstWrites]
      constructor
      · intro hIn
        obtain ⟨y, hy, hSame⟩ := mem_map.mp hIn
        have hKept : p y = true := (hKind y (by simp [hy]) x (by simp) hSame).trans hx
        exact mem_map.mpr ⟨y, mem_filter.mpr ⟨hy, hKept⟩, hSame⟩
      · intro hIn
        obtain ⟨y, hy, hSame⟩ := mem_map.mp hIn
        exact mem_map.mpr ⟨y, (mem_filter.mp hy).1, hSame⟩
    rw [firstWrites_concat, filter_append, filter_singleton]
    cases hx : p x with
    | false =>
      rw [cond_false, append_nil, ← ih]
      split
      next => rfl
      next => simp [hx]
    | true =>
      rw [cond_true, firstWrites_concat]
      by_cases hIn : key x ∈ (firstWrites key xs).map key
      · rw [if_pos hIn, if_pos ((hOld hx).mp hIn), ih]
      · rw [if_neg hIn, if_neg ((hOld hx).not.mp hIn), filter_append, ih]
        simp [hx]

section Correspondence

variable {β : Type*} {ys : List β} {g : β → κ}

/-- There are as many rows as requests exactly if no two requests have one key. -/
theorem length_firstWrites_eq_iff (hKeys : ∀ k, k ∈ ys.map g ↔ k ∈ xs.map key) :
    (firstWrites key xs).length = ys.length ↔ (ys.map g).Nodup := by
  have hMem : ∀ k, k ∈ (firstWrites key xs).map key ↔ k ∈ ys.map g := fun k =>
    mem_map_firstWrites.trans (hKeys k).symm
  constructor
  · intro hLength
    have hSubperm := subperm_of_subset (@nodup_map_firstWrites _ _ _ key xs)
      fun k hk => (hMem k).mp hk
    have hPerm := hSubperm.perm_of_length_le (by simp [hLength])
    exact hPerm.nodup_iff.mp nodup_map_firstWrites
  · intro hNodup
    have hPerm : ((firstWrites key xs).map key).Perm (ys.map g) :=
      (perm_ext_iff_of_nodup nodup_map_firstWrites hNodup).mpr hMem
    simpa using hPerm.length_eq

/-- The rows are those of the requests, if no two requests have one key. -/
theorem exists_perm_firstWrites (hKeys : ∀ k, k ∈ ys.map g ↔ k ∈ xs.map key)
    (hNodup : (ys.map g).Nodup) [Nonempty α] :
    ∃ f : β → α, (firstWrites key xs).Perm (ys.map f) ∧
      ∀ y ∈ ys, f y ∈ xs ∧ key (f y) = g y := by
  have hRow : ∀ y ∈ ys, ∃ row ∈ firstWrites key xs, key row = g y := by
    intro y hy
    have hIn := mem_map_firstWrites.mpr ((hKeys (g y)).mp (mem_map_of_mem hy))
    obtain ⟨row, hRow, hSame⟩ := mem_map.mp hIn
    exact ⟨row, hRow, hSame⟩
  choose! f hf using hRow
  have hRows : (firstWrites key xs).Nodup := nodup_map_firstWrites.of_map key
  have hImage : (ys.map f).Nodup := by
    have hKeyed : (ys.map f).map key = ys.map g := by
      rw [map_map]
      exact map_congr_left fun y hy => (hf y hy).2
    exact (hKeyed ▸ hNodup).of_map key
  refine ⟨f, (perm_ext_iff_of_nodup hRows hImage).mpr fun row => ?_, fun y hy =>
    ⟨mem_of_mem_firstWrites (hf y hy).1, (hf y hy).2⟩⟩
  constructor
  · intro hIn
    obtain ⟨y, hy, hSame⟩ := mem_map.mp
      ((hKeys (key row)).mpr (mem_map_firstWrites.mp (mem_map_of_mem hIn)))
    have hEq : f y = row := inj_on_of_nodup_map nodup_map_firstWrites (hf y hy).1 hIn
      ((hf y hy).2.trans hSame)
    exact hEq ▸ mem_map_of_mem hy
  · intro hIn
    obtain ⟨y, hy, rfl⟩ := mem_map.mp hIn
    exact (hf y hy).1

end Correspondence

/-- Every key after the first `k` had been written before it or is `k` itself. -/
def NoneNewAfter (k : κ) (keys : List κ) : Prop :=
  ∃ before after, keys = before ++ k :: after ∧ k ∉ before ∧ ∀ k' ∈ after, k' ∈ before ++ [k]

variable {keys : List κ}

omit [DecidableEq κ] in
theorem NoneNewAfter.concat (h : NoneNewAfter k keys)
    (hOld : k' ∈ keys) : NoneNewAfter k (keys ++ [k']) := by
  obtain ⟨before, after, rfl, hFirst, hAfter⟩ := h
  refine ⟨before, after ++ [k'], by simp, hFirst, fun k'' hk => ?_⟩
  rcases mem_append.mp hk with hk | hk
  · exact hAfter k'' hk
  · rw [mem_singleton.mp hk]
    rcases mem_append.mp hOld with hBefore | hRest
    · exact mem_append_left _ hBefore
    · rcases mem_cons.mp hRest with rfl | hRest
      · exact mem_append_right _ (mem_singleton.mpr rfl)
      · exact hAfter k' hRest

omit [DecidableEq κ] in
theorem NoneNewAfter.of_concat (h : NoneNewAfter k (keys ++ [k'])) :
    (k' ∉ keys ∧ k = k') ∨ (k' ∈ keys ∧ NoneNewAfter k keys) := by
  obtain ⟨before, after, hKeys, hFirst, hAfter⟩ := h
  cases after using List.reverseRecOn with
  | nil =>
    obtain ⟨rfl, hEq⟩ := append_inj' hKeys rfl
    cases hEq
    exact .inl ⟨hFirst, rfl⟩
  | append_singleton after last =>
    have hSplit : keys ++ [k'] = (before ++ k :: after) ++ [last] := by simpa using hKeys
    obtain ⟨rfl, hEq⟩ := append_inj' hSplit rfl
    cases hEq
    have hOld := hAfter k' (by simp)
    refine .inr ⟨?_, before, after, rfl, hFirst, fun k'' hk => hAfter k'' (by simp [hk])⟩
    rcases mem_append.mp hOld with hBefore | hSelf
    · exact mem_append_left _ hBefore
    · rw [mem_singleton.mp hSelf]
      exact mem_append_right _ mem_cons_self

omit [DecidableEq κ] in
/-- Renaming the keys without a collision changes nothing. -/
theorem noneNewAfter_map {κ' : Type*} {f : κ → κ'} (hk : k ∈ keys)
    (hf : ∀ a ∈ keys, ∀ b ∈ keys, f a = f b → a = b) :
    NoneNewAfter (f k) (keys.map f) ↔ NoneNewAfter k keys := by
  constructor
  · rintro ⟨before, after, hKeys, hFirst, hAfter⟩
    obtain ⟨before, rest, rfl, rfl, hRest⟩ := map_eq_append_iff.mp hKeys
    obtain ⟨k', after, rfl, hk', rfl⟩ := map_eq_cons_iff.mp hRest
    have hSame : k' = k := hf k' (by simp) k hk hk'
    subst hSame
    refine ⟨before, after, rfl, fun h => hFirst (mem_map_of_mem h), fun a ha => ?_⟩
    have hOld := hAfter (f a) (mem_map_of_mem ha)
    rcases mem_append.mp hOld with hBefore | hSelf
    · obtain ⟨b, hb, hEq⟩ := mem_map.mp hBefore
      have hSame : b = a := hf b (by simp [hb]) a (by simp [ha]) hEq
      exact mem_append_left _ (hSame ▸ hb)
    · have hSame : a = k' := hf a (by simp [ha]) k' hk (mem_singleton.mp hSelf)
      exact mem_append_right _ (mem_singleton.mpr hSame)
  · rintro ⟨before, after, rfl, hFirst, hAfter⟩
    refine ⟨before.map f, after.map f, by simp, fun h => ?_, fun b hb => ?_⟩
    · obtain ⟨a, ha, hEq⟩ := mem_map.mp h
      exact hFirst (hf a (by simp [ha]) k hk hEq ▸ ha)
    · obtain ⟨a, ha, rfl⟩ := mem_map.mp hb
      simpa using mem_map_of_mem (f := f) (hAfter a ha)

/-- The newest row that is there has the last key after which no new one was written. -/
theorem getLast?_firstWrites :
    (firstWrites key xs).getLast?.map key = some k ↔ NoneNewAfter k (xs.map key) := by
  induction xs using List.reverseRecOn with
  | nil => simp [firstWrites, NoneNewAfter]
  | append_singleton xs x ih =>
    rw [firstWrites_concat, map_append, map_singleton]
    split
    next hTaken =>
      rw [mem_map_firstWrites] at hTaken
      rw [ih]
      constructor
      · exact fun h => h.concat hTaken
      · intro h
        rcases h.of_concat with ⟨hNew, _⟩ | ⟨_, hRest⟩
        · exact absurd hTaken hNew
        · exact hRest
    next hNew =>
      rw [mem_map_firstWrites] at hNew
      simp only [List.getLast?_append, List.getLast?_singleton, Option.some_or, Option.map_some,
        Option.some.injEq]
      constructor
      · rintro rfl
        exact ⟨xs.map key, [], rfl, hNew, nofun⟩
      · intro h
        rcases h.of_concat with ⟨_, rfl⟩ | ⟨hOld, _⟩
        · rfl
        · exact absurd hOld hNew

end Foundation
