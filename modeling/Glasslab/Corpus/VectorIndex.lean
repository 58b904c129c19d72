import Glasslab.Foundation.Sorting
import Glasslab.Foundation.Table
import Mathlib.Data.Prod.Lex
import Mathlib.Data.String.Basic

/-!
# The vector index in memory

`app/corpus_rag/vector_index.py`: a search takes some rows with the largest scores and then sorts
these by score and id. So what is returned is the head of the full sort exactly if the scores on
both sides of the cut differ (`search_exact_iff`): in a tie at the cut the ids have no say.

What numpy does with vectors is a parameter, and a score is compared as it is.
-/

namespace Glasslab.Corpus

open Foundation OrderDual List

/-! ## Selections -/

section Selections

variable {S : Type} [LinearOrder S]

/-- What `np.argpartition(scores, -k)[-k:]` is assumed to be: `k` positions with largest scores. -/
structure Selects (select : List S → Nat → List Nat) : Prop where
  nodup : ∀ scores k, (select scores k).Nodup
  length : ∀ (scores : List S) k, k ≤ scores.length → (select scores k).length = k
  lt : ∀ (scores : List S) k, ∀ i ∈ select scores k, i < scores.length
  largest : ∀ (scores : List S) k i j (hi : i < scores.length) (hj : j < scores.length),
    i ∈ select scores k → j ∉ select scores k → scores[j] ≤ scores[i]

/-- By descending score, and then by id. -/
def rankKey (row : String × S) : Sᵒᵈ ×ₗ String := toLex (toDual row.2, row.1)

/-- The rows at the selected positions, sorted. -/
def ranked (select : List S → Nat → List Nat) (k : Nat) (candidates : List (String × S)) :
    List (String × S) :=
  sortOn rankKey ((select (candidates.map Prod.snd) k).filterMap (candidates[·]?))

/-- No score of a row before the cut is that of a row after it. -/
def CutApart (k : Nat) (candidates : List (String × S)) : Prop :=
  ∀ a ∈ (sortOn rankKey candidates).take k, ∀ b ∈ (sortOn rankKey candidates).drop k, b.2 < a.2

variable {κ α : Type} [LinearOrder κ] {key : α → κ} {a b : α} {xs : List α} {k : Nat}

theorem mem_take_or_drop_sortOn (h : b ∈ xs) :
    b ∈ (sortOn key xs).take k ∨ b ∈ (sortOn key xs).drop k := by
  rw [← mem_append, take_append_drop]
  exact mem_sortOn.mpr h

theorem le_of_mem_take_sortOn (ha : a ∈ (sortOn key xs).take k) (hb : b ∈ (sortOn key xs).drop k) :
    key a ≤ key b := by
  have hSorted := pairwise_sortOn key xs
  rw [← take_append_drop k (sortOn key xs)] at hSorted
  exact (pairwise_append.mp hSorted).2.2 a ha b hb

def selectKey (preferred : Nat) (entry : S × Nat) : Sᵒᵈ ×ₗ Bool :=
  toLex (toDual entry.1, decide (entry.2 ≠ preferred))

/-- The positions sorted by score, and among equal scores with one of them first. -/
def selectFirst (preferred : Nat) (scores : List S) (k : Nat) : List Nat :=
  ((sortOn (selectKey preferred) scores.zipIdx).take k).map Prod.snd

theorem mem_selectFirst {preferred i : Nat} {scores : List S} : i ∈ selectFirst preferred scores k ↔
    ∃ score, (score, i) ∈ (sortOn (selectKey preferred) scores.zipIdx).take k := by
  rw [selectFirst, mem_map]
  constructor
  · rintro ⟨⟨score, _⟩, hMem, rfl⟩
    exact ⟨score, hMem⟩
  · rintro ⟨score, hMem⟩
    exact ⟨_, hMem, rfl⟩

/-- What is not selected does not come before what is. -/
theorem le_of_selectFirst {preferred i j : Nat} {scores : List S} (hi : i < scores.length)
    (hj : j < scores.length) (hIn : i ∈ selectFirst preferred scores k)
    (hOut : j ∉ selectFirst preferred scores k) :
    selectKey preferred (scores[i], i) ≤ selectKey preferred (scores[j], j) := by
  obtain ⟨score, hTake⟩ := mem_selectFirst.mp hIn
  have hScore : score = scores[i] := by
    have hMem : (score, i) ∈ scores.zipIdx := mem_sortOn.mp (mem_of_mem_take hTake)
    rw [mem_zipIdx_iff_getElem?, List.getElem?_eq_getElem hi] at hMem
    exact (Option.some.inj hMem).symm
  have hMem : (scores[j], j) ∈ scores.zipIdx := by
    rw [mem_zipIdx_iff_getElem?, List.getElem?_eq_getElem hj]
  rcases @mem_take_or_drop_sortOn _ _ _ (selectKey preferred) _ _ k hMem with hThere | hThere
  · exact absurd (mem_selectFirst.mpr ⟨_, hThere⟩) hOut
  · rw [← hScore]
    exact le_of_mem_take_sortOn hTake hThere

theorem selects_selectFirst (preferred : Nat) : Selects (@selectFirst S _ preferred) where
  nodup scores k := by
    have hAll : ((sortOn (selectKey preferred) scores.zipIdx).map Prod.snd).Nodup := by
      rw [((perm_sortOn _ _).map _).nodup_iff, zipIdx_map_snd]
      exact nodup_range'
    exact hAll.sublist ((take_sublist _ _).map _)
  length scores k h := by
    rw [selectFirst, length_map, length_take, (perm_sortOn _ _).length_eq,
      length_zipIdx, Nat.min_eq_left h]
  lt scores k i h := by
    obtain ⟨score, hTake⟩ := mem_selectFirst.mp h
    have hMem : (score, i) ∈ scores.zipIdx := mem_sortOn.mp (mem_of_mem_take hTake)
    rw [mem_zipIdx_iff_getElem?] at hMem
    exact (List.getElem?_eq_some_iff.mp hMem).1
  largest scores k i j hi hj hIn hOut := by
    rcases Prod.Lex.toLex_le_toLex.mp (le_of_selectFirst hi hj hIn hOut) with hLt | ⟨hEq, -⟩
    · exact le_of_lt (toDual_lt_toDual.mp hLt)
    · exact (toDual_inj.mp hEq).ge

section Ranked

variable {select : List S → Nat → List Nat} {candidates : List (String × S)} {row : String × S}

theorem mem_ranked : row ∈ ranked select k candidates ↔
    ∃ i ∈ select (candidates.map Prod.snd) k, candidates[i]? = some row := by
  rw [ranked, mem_sortOn, mem_filterMap]

theorem ranked_of_cutApart (hSelects : Selects select) (hNodup : candidates.Nodup)
    (hk : k ≤ candidates.length) (hApart : CutApart k candidates) :
    ranked select k candidates = (sortOn rankKey candidates).take k := by
  have hLt : ∀ i ∈ select (candidates.map Prod.snd) k, i < candidates.length := by
    intro i hi
    have hBound := hSelects.lt _ k i hi
    rwa [length_map] at hBound
  have hLength : (ranked select k candidates).length = k := by
    rw [ranked, (perm_sortOn _ _).length_eq, length_filterMap_eq_countP,
      countP_eq_length.mpr, hSelects.length _ k (by rwa [length_map])]
    intro i hi
    rw [List.getElem?_eq_getElem (hLt i hi), Option.isSome_some]
  have hRanked : (ranked select k candidates).Nodup := by
    rw [ranked, (perm_sortOn _ _).nodup_iff]
    refine (hSelects.nodup _ k).filterMap fun i j row hi hj => ?_
    exact (List.getElem?_inj (List.getElem?_eq_some_iff.mp hi).1 hNodup).mp (hi.trans hj.symm)
  have hTaken : ((sortOn rankKey candidates).take k).Nodup :=
    ((perm_sortOn _ _).nodup_iff.mpr hNodup).sublist (take_sublist _ _)
  have hTakenLength : ((sortOn rankKey candidates).take k).length = k := by
    rw [length_take, (perm_sortOn _ _).length_eq, Nat.min_eq_left hk]
  have hSubset : ranked select k candidates ⊆ (sortOn rankKey candidates).take k := by
    intro x hx
    by_contra hOut
    obtain ⟨i, hi, hRow⟩ := mem_ranked.mp hx
    -- There is one row for each place, so where one comes in another is left out.
    obtain ⟨y, hy, hLeft⟩ :
        ∃ y ∈ (sortOn rankKey candidates).take k, y ∉ ranked select k candidates := by
      by_contra hNone
      have hAll : ∀ y ∈ (sortOn rankKey candidates).take k, y ∈ ranked select k candidates := by
        intro y hy
        by_contra hLeft
        exact hNone ⟨y, hy, hLeft⟩
      have hMore := (nodup_cons.mpr ⟨hOut, hTaken⟩).length_le_of_subset
        (cons_subset.mpr ⟨hx, hAll⟩)
      rw [length_cons, hTakenLength, hLength] at hMore
      omega
    obtain ⟨j, hj, hOther⟩ := getElem_of_mem (mem_sortOn.mp (mem_of_mem_take hy))
    have hBehind : x ∈ (sortOn rankKey candidates).drop k :=
      (mem_take_or_drop_sortOn (mem_of_getElem? hRow)).resolve_left hOut
    have hScore := hSelects.largest (candidates.map Prod.snd) k i j
      (by rw [length_map]; exact hLt i hi) (by rwa [length_map]) hi
      (fun hIn => hLeft (mem_ranked.mpr ⟨j, hIn, by rw [List.getElem?_eq_getElem hj, hOther]⟩))
    rw [getElem_map, getElem_map, hOther,
      (List.getElem?_eq_some_iff.mp hRow).2] at hScore
    exact absurd (hApart y hy x hBehind) (not_lt.mpr hScore)
  have hPerm : (ranked select k candidates).Perm ((sortOn rankKey candidates).take k) :=
    (hRanked.subperm hSubset).perm_of_length_le (by rw [hTakenLength, hLength])
  refine hPerm.eq_of_pairwise ?_ (pairwise_sortOn rankKey _)
    ((pairwise_sortOn rankKey candidates).sublist (take_sublist _ _))
  intro a b _ _ hab hba
  have hKey := toLex_inj.mp (le_antisymm hab hba)
  simp only [Prod.mk.injEq, toDual_inj] at hKey
  exact Prod.ext hKey.2 hKey.1

theorem cutApart_of_ranked (hNodup : candidates.Nodup)
    (h : ∀ select, Selects select → ranked select k candidates =
    (sortOn rankKey candidates).take k) :
    CutApart k candidates := by
  intro a ha b hb
  by_contra hTie
  have hNe : a ≠ b := by
    rintro rfl
    have hSorted := (perm_sortOn rankKey candidates).nodup_iff.mpr hNodup
    rw [← take_append_drop k (sortOn rankKey candidates)] at hSorted
    exact disjoint_of_nodup_append hSorted ha hb
  have hScore : a.2 = b.2 := by
    rcases Prod.Lex.toLex_le_toLex.mp (le_of_mem_take_sortOn ha hb) with hLt | ⟨hEq, -⟩
    · exact absurd (toDual_lt_toDual.mp hLt) hTie
    · exact toDual_inj.mp hEq
  obtain ⟨i, hi, hRow⟩ := getElem_of_mem (mem_sortOn.mp (mem_of_mem_take ha))
  obtain ⟨j, hj, hOther⟩ := getElem_of_mem (mem_sortOn.mp (mem_of_mem_drop hb))
  -- The selection that prefers the row behind the cut.
  have hSelected := h _ (selects_selectFirst j)
  have hIn : i ∈ selectFirst j (candidates.map Prod.snd) k := by
    rw [← hSelected] at ha
    obtain ⟨i', hi', hRow'⟩ := mem_ranked.mp ha
    rw [← hRow, ← List.getElem?_eq_getElem hi] at hRow'
    rwa [← (List.getElem?_inj hi hNodup).mp hRow'.symm] at hi'
  have hOut : j ∉ selectFirst j (candidates.map Prod.snd) k := by
    intro hThere
    have hMem := mem_ranked.mpr ⟨j, hThere, by rw [List.getElem?_eq_getElem hj, hOther]⟩
    rw [hSelected] at hMem
    have hSorted := (perm_sortOn rankKey candidates).nodup_iff.mpr hNodup
    rw [← take_append_drop k (sortOn rankKey candidates)] at hSorted
    exact disjoint_of_nodup_append hSorted hMem hb
  have hLe := le_of_selectFirst (by rwa [length_map]) (by rwa [length_map]) hIn hOut
  simp only [selectKey, getElem_map, hRow, hOther, hScore] at hLe
  rcases Prod.Lex.toLex_le_toLex.mp hLe with hLt | ⟨-, hBool⟩
  · exact lt_irrefl _ hLt
  · have hij : i ≠ j := by
      rintro rfl
      exact hNe (hRow.symm.trans hOther)
    rw [decide_eq_true hij, decide_eq_false (not_not_intro rfl)] at hBool
    cases (hBool : true ≤ false) rfl

end Ranked

end Selections

/-- What numpy does with vectors. A row and a query are vectors of unit length. -/
structure Vectors (V U S : Type) where
  /-- `_as_unit_row`, which refuses a vector, or one that has not the declared dimensions. -/
  asUnitRow : V → Option Nat → Except String U
  dims : U → Nat
  dot : U → U → S

structure ChunkVectorMeta where
  chunkId : String
  dims : Nat

structure NumpyVectorIndex (U : Type) where
  rows : List (String × U) := []
  cache : Option (List (String × U)) := none

/-- The part of an id before the first `::`. -/
def beforeDelimiter : List Char → Option (List Char)
  | [] => none
  | ':' :: ':' :: _ => some []
  | c :: rest => (beforeDelimiter rest).map (c :: ·)

def sourceFor (sourceMap : List (String × String)) (chunkId : String) : Option String :=
  if sourceMap ≠ [] then sourceMap.lookup chunkId
  else (beforeDelimiter chunkId.toList).map String.ofList

section Index

variable {V U S : Type} (vectors : Vectors V U S) (sourceMap : List (String × String))

/-- `np.stack`. -/
def stack (rows : List (String × U)) : Except String (List (String × U)) :=
  if ∀ row ∈ rows, ∀ other ∈ rows, vectors.dims row.2 = vectors.dims other.2 then .ok rows
  else .error "all input arrays must have the same shape"

def NumpyVectorIndex.add (index : NumpyVectorIndex U) (info : ChunkVectorMeta) (vec : V) :
    NumpyVectorIndex U :=
  match vectors.asUnitRow vec (some info.dims) with
  | .ok unit => ⟨Dict.set info.chunkId unit index.rows, none⟩
  | .error _ => index

def NumpyVectorIndex.cached (index : NumpyVectorIndex U) : Except String (List (String × U)) :=
  match index.cache with
  | some cached => .ok cached
  | none => stack vectors index.rows

/-- The rows that a query may find, each with its score. -/
def admittedRows (sourceIds : List String) (query : V) (rows : List (String × U)) :
    Except String (List (String × S)) := do
  let unit ← vectors.asUnitRow query none
  if ∀ row ∈ rows, vectors.dims row.2 = vectors.dims unit then
    .ok ((rows.map fun row => (row.1, vectors.dot row.2 unit)).filter fun row =>
      sourceIds = [] ∨ ∃ sourceId ∈ sourceIds, sourceFor sourceMap row.1 = some sourceId)
  else .error "matmul: Input operand 1 has a mismatch in its core dimension 0"

/-- What a search leaves: the rows are stacked once. -/
def NumpyVectorIndex.afterSearch (index : NumpyVectorIndex U) (k : Int) : NumpyVectorIndex U :=
  if k ≤ 0 ∨ index.rows = [] then index
  else
    match index.cached vectors with
    | .ok cached => { index with cache := some cached }
    | .error _ => index

inductive IndexCall (V : Type) where
  | add (info : ChunkVectorMeta) (vec : V)
  | search (k : Int)

def NumpyVectorIndex.call (index : NumpyVectorIndex U) : IndexCall V → NumpyVectorIndex U
  | .add info vec => index.add vectors info vec
  | .search k => index.afterSearch vectors k

/-- The index after some calls. -/
def indexAfter (calls : List (IndexCall V)) : NumpyVectorIndex U :=
  calls.foldl (NumpyVectorIndex.call vectors) {}

/-- The rows that were added, the last one under each id. -/
def addedRows (calls : List (IndexCall V)) : List (String × U) :=
  Dict.merge [] (calls.filterMap fun
    | .add info vec => (vectors.asUnitRow vec (some info.dims)).toOption.map (info.chunkId, ·)
    | .search _ => none)

/-- The cache, if there is one, is that of the rows, of which no two have one id. -/
structure CacheValid (index : NumpyVectorIndex U) : Prop where
  nodup : (index.rows.map Prod.fst).Nodup
  cached_eq : index.cached vectors = stack vectors index.rows

variable {vectors} {sourceMap} {index : NumpyVectorIndex U}

theorem cacheValid_call (h : CacheValid vectors index) (call : IndexCall V) :
    CacheValid vectors (index.call vectors call) := by
  cases call with
  | add info vec =>
    rw [NumpyVectorIndex.call, NumpyVectorIndex.add]
    split
    next => exact ⟨Dict.nodup_set h.nodup, rfl⟩
    next => exact h
  | search k =>
    rw [NumpyVectorIndex.call, NumpyVectorIndex.afterSearch]
    split
    next => exact h
    next =>
      split
      next cached hCached => exact ⟨h.nodup, hCached.symm.trans h.cached_eq⟩
      next => exact h

theorem rows_call (call : IndexCall V) : (index.call vectors call).rows = Dict.merge index.rows
    ([call].filterMap fun
      | .add info vec => (vectors.asUnitRow vec (some info.dims)).toOption.map (info.chunkId, ·)
      | .search _ => none) := by
  cases call with
  | add info vec =>
    rw [NumpyVectorIndex.call, NumpyVectorIndex.add]
    cases hUnit :
      vectors.asUnitRow vec (some info.dims) <;> simp [Except.toOption, hUnit, Dict.merge]
  | search k =>
    rw [NumpyVectorIndex.call, NumpyVectorIndex.afterSearch]
    split
    next => rfl
    next => split <;> rfl

theorem indexAfter_spec (calls : List (IndexCall V)) :
    CacheValid vectors (indexAfter vectors calls) ∧
      (indexAfter vectors calls).rows = addedRows vectors calls := by
  induction calls using List.reverseRecOn with
  | nil => exact ⟨⟨nodup_nil, rfl⟩, rfl⟩
  | append_singleton calls call ih =>
    have hCall :
        indexAfter vectors (calls ++ [call]) = (indexAfter vectors calls).call vectors call := by
      rw [indexAfter, foldl_concat]
      rfl
    rw [hCall]
    refine ⟨cacheValid_call ih.1 call, ?_⟩
    rw [rows_call, ih.2, addedRows, addedRows, filterMap_append, Dict.merge, Dict.merge,
      Dict.merge, foldl_append]

variable {candidates : List (String × S)}

theorem nodup_candidates {rows : List (String × U)} {query : V} {sourceIds : List String}
    (hNodup : (rows.map Prod.fst).Nodup)
    (h : stack vectors rows >>= admittedRows vectors sourceMap sourceIds query = .ok candidates) :
    candidates.Nodup := by
  rw [stack] at h
  split at h
  case isFalse => cases h
  dsimp only [bind, Except.bind] at h
  rw [admittedRows] at h
  cases hUnit : vectors.asUnitRow query none with
  | error error =>
    rw [hUnit] at h
    cases h
  | ok unit =>
    rw [hUnit] at h
    dsimp only [bind, Except.bind] at h
    split at h
    next =>
      cases h
      refine Nodup.filter _ (Nodup.of_map Prod.fst ?_)
      rwa [map_map]
    next => cases h

variable [LinearOrder S]

def NumpyVectorIndex.search (vectors : Vectors V U S) (sourceMap : List (String × String))
    (select : List S → Nat → List Nat) (index : NumpyVectorIndex U) (query : V) (k : Int)
    (sourceIds : List String) : Except String (List (String × S)) :=
  if k ≤ 0 ∨ index.rows = [] then .ok []
  else do
    let candidates ← index.cached vectors >>= admittedRows vectors sourceMap sourceIds query
    if candidates = [] then return []
    return ranked select (min k.toNat candidates.length) candidates

/-- The first of all rows that are admitted. -/
def fullSearch (vectors : Vectors V U S) (sourceMap : List (String × String))
    (rows : List (String × U)) (query : V) (k : Int) (sourceIds : List String) :
    Except String (List (String × S)) :=
  if k ≤ 0 ∨ rows = [] then .ok []
  else do
    let candidates ← stack vectors rows >>= admittedRows vectors sourceMap sourceIds query
    return (sortOn rankKey candidates).take k.toNat

/-- The scores on both sides of the cut differ, if there are scores. -/
def ScoresApart (vectors : Vectors V U S) (sourceMap : List (String × String))
    (rows : List (String × U)) (query : V) (k : Int) (sourceIds : List String) : Prop :=
  ¬ (k ≤ 0 ∨ rows = []) → ∀ candidates,
    stack vectors rows >>= admittedRows vectors sourceMap sourceIds query = .ok candidates →
      CutApart k.toNat candidates

/-- For the candidates there are, selecting first is exact just if the scores at the cut differ. -/
theorem ranked_eq_iff {k : Nat} (hNodup : candidates.Nodup) :
    (∀ select, Selects select →
      ranked select (min k candidates.length) candidates = (sortOn rankKey candidates).take k) ↔
    CutApart k candidates := by
  rcases le_total candidates.length k with hAll | hSome
  · have hLength : (sortOn rankKey candidates).length = candidates.length :=
      (perm_sortOn _ _).length_eq
    have hApart {n : Nat} (hn : candidates.length ≤ n) : CutApart n candidates := by
      intro a _ b hb
      rw [drop_eq_nil_of_le (by rwa [hLength])] at hb
      cases hb
    refine iff_of_true (fun select hSelects => ?_) (hApart hAll)
    rw [Nat.min_eq_right hAll, ranked_of_cutApart hSelects hNodup le_rfl (hApart le_rfl),
      take_of_length_le hLength.le, take_of_length_le (hLength.trans_le hAll)]
  · rw [Nat.min_eq_left hSome]
    refine ⟨cutApart_of_ranked hNodup, fun hApart select hSelects => ?_⟩
    exact ranked_of_cutApart hSelects hNodup hSome hApart

/-- Whatever was added and searched before, a search returns the first of all admitted rows for
every selection just if no score occurs on both sides of the cut. -/
theorem search_exact_iff (vectors : Vectors V U S) (sourceMap : List (String × String))
    (calls : List (IndexCall V)) (query : V) (k : Int) (sourceIds : List String) :
    (∀ select, Selects select →
      (indexAfter vectors calls).search vectors sourceMap select query k sourceIds =
        fullSearch vectors sourceMap (addedRows vectors calls) query k sourceIds) ↔
    ScoresApart vectors sourceMap (addedRows vectors calls) query k sourceIds := by
  obtain ⟨⟨hNodup, hCached⟩, hRows⟩ := @indexAfter_spec V U S vectors calls
  unfold NumpyVectorIndex.search fullSearch ScoresApart
  rw [hCached, hRows]
  rw [hRows] at hNodup
  generalize addedRows vectors calls = rows at hNodup ⊢
  by_cases hEmpty : k ≤ 0 ∨ rows = []
  · exact iff_of_true (fun _ _ => by rw [if_pos hEmpty, if_pos hEmpty]) (absurd hEmpty)
  · simp only [if_neg hEmpty]
    cases hFound : stack vectors rows >>= admittedRows vectors sourceMap sourceIds query with
    | error error => exact iff_of_true (fun _ _ => rfl) fun _ _ h => nomatch h
    | ok candidates =>
      have hSearch (select : List S → Nat → List Nat) : (Except.ok candidates >>= fun candidates =>
          if candidates = [] then pure [] else
            pure (ranked select (min k.toNat candidates.length) candidates)) =
          (.ok (ranked select (min k.toNat candidates.length) candidates) :
            Except String (List (String × S))) := by
        by_cases hNil : candidates = []
        · subst hNil
          exact congrArg Except.ok (by simp [ranked, sortOn])
        · exact if_neg hNil
      constructor
      · intro h _ found hOk
        cases hOk
        exact (ranked_eq_iff (nodup_candidates hNodup hFound)).mp fun select hSelects =>
          Except.ok.inj ((hSearch select).symm.trans (h select hSelects))
      · intro h select hSelects
        refine (hSearch select).trans (congrArg Except.ok ?_)
        exact (ranked_eq_iff (nodup_candidates hNodup hFound)).mpr (h hEmpty candidates rfl) select
          hSelects

end Index

/-- Vectors of one dimension. -/
def scalars : Vectors Int Int Int where
  asUnitRow vec _ := .ok vec
  dims _ := 1
  dot := (· * ·)

/-- Of two equal scores the selection may take the second, though its id is the greater one. -/
theorem tie_at_cut : ∃ select, Selects select ∧
    (indexAfter scalars [.add ⟨"a", 1⟩ 1, .add ⟨"b", 1⟩ 1]).search scalars [] select 1 1 [] =
      .ok [("b", 1)] ∧
    fullSearch scalars [] (addedRows scalars [.add ⟨"a", 1⟩ 1, .add ⟨"b", 1⟩ 1]) 1 1 [] =
      .ok [("a", 1)] :=
  ⟨_, selects_selectFirst 1, by decide +kernel, by decide +kernel⟩

end Glasslab.Corpus
