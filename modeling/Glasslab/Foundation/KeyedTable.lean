import Mathlib.Data.List.Nodup

/-!
# Tables with unique columns

`UniqueTable id key` is a table with the primary key `id` and one more unique column `key`. An
upsert rewrites the row with the id of the record, or adds the record; it is refused if another row
has the key of the record.

`KeyedTable id` has a primary key only, and its rows are replaced in batches: some rows are deleted
and a batch is inserted one by one. An id of the batch may be taken by a row that stays, or it may
be repeated in the batch.
-/

namespace Foundation

open List

variable {α ι κ : Type*}

/-- In a column without repetitions a value finds the row that has it. -/
theorem find?_eq_some_iff_of_nodup [DecidableEq κ] {f : α → κ} {rows : List α} {row : α} {k : κ}
    (h : (rows.map f).Nodup) :
    (rows.find? fun row => f row = k) = some row ↔ row ∈ rows ∧ f row = k := by
  constructor
  · intro hFind
    exact ⟨mem_of_find?_eq_some hFind, by simpa using List.find?_some hFind⟩
  · rintro ⟨hMem, hKey⟩
    cases hFind : rows.find? fun row => f row = k with
    | none =>
      have hNot := List.find?_eq_none.mp hFind row hMem
      simp [hKey] at hNot
    | some found =>
      have hFound : f found = k := by simpa using List.find?_some hFind
      rw [inj_on_of_nodup_map h (mem_of_find?_eq_some hFind) hMem
        (hFound.trans hKey.symm)]

structure UniqueTable (id : α → ι) (key : α → κ) where
  rows : List α
  ids : (rows.map id).Nodup
  keys : (rows.map key).Nodup

namespace UniqueTable

variable {id : α → ι} {key : α → κ} {table table' : UniqueTable id key} {record row row' : α}

def empty : UniqueTable id key := ⟨[], List.nodup_nil, List.nodup_nil⟩

theorem eq_of_key_eq (h : row ∈ table.rows) (h' : row' ∈ table.rows) (hEq : key row = key row') :
    row = row' :=
  inj_on_of_nodup_map table.keys h h' hEq

def findKey [DecidableEq κ] (table : UniqueTable id key) (k : κ) : Option α :=
  table.rows.find? fun row => key row = k

theorem findKey_eq_some_iff [DecidableEq κ] {k : κ} :
    table.findKey k = some row ↔ row ∈ table.rows ∧ key row = k :=
  find?_eq_some_iff_of_nodup table.keys

theorem findKey_eq_none_iff [DecidableEq κ] {k : κ} :
    table.findKey k = none ↔ ∀ row ∈ table.rows, key row ≠ k := by
  simp [findKey, List.find?_eq_none]

variable [DecidableEq ι]

def upsertRows (id : α → ι) (record : α) (rows : List α) : List α :=
  if id record ∈ rows.map id then rows.map fun row => if id row = id record then record else row
  else rows ++ [record]

theorem mem_upsertRows {rows : List α} :
    row ∈ upsertRows id record rows ↔ row = record ∨ row ∈ rows ∧ id row ≠ id record := by
  unfold upsertRows
  split
  next hId =>
    obtain ⟨old, hOld, hSame⟩ := mem_map.mp hId
    rw [mem_map]
    constructor
    · rintro ⟨other, hOther, rfl⟩
      split
      · exact .inl rfl
      next hNe => exact .inr ⟨hOther, hNe⟩
    · rintro (rfl | ⟨hRow, hNe⟩)
      · exact ⟨old, hOld, if_pos hSame⟩
      · exact ⟨row, hRow, if_neg hNe⟩
  next hId =>
    rw [mem_append, mem_singleton]
    constructor
    · rintro (hRow | rfl)
      · refine .inr ⟨hRow, ?_⟩
        intro hSame
        exact hId (mem_map.mpr ⟨row, hRow, hSame⟩)
      · exact .inl rfl
    · rintro (rfl | ⟨hRow, _⟩)
      · exact .inr rfl
      · exact .inl hRow

/-- A column without repetitions in a table, where the record repeats none of the other rows, has
none after the upsert. -/
theorem nodup_upsertRows {β : Type*} {f : α → β} {rows : List α} (hIds : (rows.map id).Nodup)
    (hNodup : (rows.map f).Nodup)
    (hNew : ∀ row ∈ rows, id row ≠ id record → f row ≠ f record) :
    ((upsertRows id record rows).map f).Nodup := by
  unfold upsertRows
  split
  next hId =>
    rw [map_map]
    refine (nodup_map_iff_inj_on hIds.of_map).mpr ?_
    intro a ha b hb hEq
    rw [Function.comp_apply, Function.comp_apply] at hEq
    split at hEq
    next hA =>
      split at hEq
      next hB => exact inj_on_of_nodup_map hIds ha hb (hA.trans hB.symm)
      next hB => exact absurd hEq.symm (hNew b hb hB)
    next hA =>
      split at hEq
      next hB => exact absurd hEq (hNew a ha hA)
      next hB => exact inj_on_of_nodup_map hNodup ha hb hEq
  next hId =>
    rw [map_append, map_singleton, ← concat_eq_append]
    refine Nodup.concat ?_ hNodup
    intro hMem
    obtain ⟨row, hRow, hEq⟩ := mem_map.mp hMem
    refine hNew row hRow ?_ hEq
    intro hSame
    exact hId (mem_map.mpr ⟨row, hRow, hSame⟩)

/-- `INSERT ... ON CONFLICT(id) DO UPDATE`. -/
def upsert [DecidableEq κ] (table : UniqueTable id key) (record : α) :
    Option (UniqueTable id key) :=
  if hClash : ∃ row ∈ table.rows, id row ≠ id record ∧ key row = key record then none
  else
    some
      { rows := upsertRows id record table.rows
        ids := nodup_upsertRows table.ids table.ids fun _ _ hNe => hNe
        keys := nodup_upsertRows table.ids table.keys fun row hRow hNe hEq =>
          hClash ⟨row, hRow, hNe, hEq⟩ }

variable [DecidableEq κ]

theorem upsert_eq_none_iff :
    table.upsert record = none ↔ ∃ row ∈ table.rows, id row ≠ id record ∧ key row = key record := by
  unfold upsert
  split
  next hClash => exact ⟨fun _ => hClash, fun _ => rfl⟩
  next hClash => exact ⟨nofun, fun h => absurd h hClash⟩

theorem mem_upsert (h : table.upsert record = some table') :
    row ∈ table'.rows ↔ row = record ∨ row ∈ table.rows ∧ id row ≠ id record := by
  unfold upsert at h
  split at h
  · cases h
  · obtain rfl := Option.some.inj h
    exact mem_upsertRows

end UniqueTable

/-! ## Batches -/

variable [DecidableEq ι]

/-- Why an id of a batch is refused. -/
inductive Clash where
  /-- A row that is there already has the id. -/
  | taken
  /-- An earlier record of the batch has the id. -/
  | repeated
  deriving DecidableEq, Repr

/-- The first id that cannot be inserted, when some rows are there and a part of the batch is in. -/
def firstClash (held inserted : List ι) : List ι → Option Clash
  | [] => none
  | i :: rest =>
    if i ∈ held then some .taken
    else if i ∈ inserted then some .repeated
    else firstClash held (i :: inserted) rest

variable {held inserted ids : List ι}

theorem firstClash_eq_none_iff :
    firstClash held inserted ids = none ↔
      ids.Nodup ∧ ∀ i ∈ ids, i ∉ held ∧ i ∉ inserted := by
  induction ids generalizing inserted with
  | nil => simp [firstClash]
  | cons i rest ih =>
    rw [firstClash]
    split
    next hHeld => simp [hHeld]
    next hHeld =>
      split
      next hInserted => simp [hInserted]
      next hInserted =>
        rw [ih, nodup_cons]
        constructor
        · rintro ⟨hNodup, hRest⟩
          refine ⟨⟨?_, hNodup⟩, ?_⟩
          · intro hMem
            exact (hRest i hMem).2 mem_cons_self
          · intro j hj
            rcases mem_cons.mp hj with rfl | hj
            · exact ⟨hHeld, hInserted⟩
            · exact ⟨(hRest j hj).1, fun hIn => (hRest j hj).2 (mem_cons_of_mem i hIn)⟩
        · rintro ⟨⟨hNot, hNodup⟩, hAll⟩
          refine ⟨hNodup, ?_⟩
          intro j hj
          have hOld := hAll j (mem_cons_of_mem i hj)
          refine ⟨hOld.1, ?_⟩
          intro hIn
          rcases mem_cons.mp hIn with rfl | hIn
          · exact hNot hj
          · exact hOld.2 hIn

theorem exists_of_firstClash_taken
    (h : firstClash held inserted ids = some .taken) : ∃ i ∈ ids, i ∈ held := by
  induction ids generalizing inserted with
  | nil => cases h
  | cons i rest ih =>
    rw [firstClash] at h
    split at h
    next hHeld => exact ⟨i, mem_cons_self, hHeld⟩
    next hHeld =>
      split at h
      · cases h
      · obtain ⟨j, hj, hIn⟩ := ih h
        exact ⟨j, mem_cons_of_mem i hj, hIn⟩

structure KeyedTable (id : α → ι) where
  rows : List α
  ids : (rows.map id).Nodup

namespace KeyedTable

variable {id : α → ι} {table table' : KeyedTable id} {doomed : α → Bool} {records : List α}
  {row : α}

instance [DecidableEq α] : DecidableEq (KeyedTable id) := fun s t =>
  decidable_of_iff (s.rows = t.rows) (by cases s; cases t; simp)

def empty : KeyedTable id := ⟨[], List.nodup_nil⟩

omit [DecidableEq ι] in
theorem eq_of_id_eq {row' : α} (h : row ∈ table.rows) (h' : row' ∈ table.rows)
    (hEq : id row = id row') : row = row' :=
  inj_on_of_nodup_map table.ids h h' hEq

def kept (table : KeyedTable id) (doomed : α → Bool) : List α :=
  table.rows.filter fun row => !doomed row

/-- `DELETE ... WHERE ...` and one `INSERT` for each record, in one transaction. -/
def replace (table : KeyedTable id) (doomed : α → Bool) (records : List α) :
    Except Clash (KeyedTable id) :=
  match hClash : firstClash ((table.kept doomed).map id) [] (records.map id) with
  | some clash => .error clash
  | none =>
    .ok
      { rows := table.kept doomed ++ records
        ids := by
          obtain ⟨hNodup, hNew⟩ := firstClash_eq_none_iff.mp hClash
          rw [List.map_append]
          refine List.Nodup.append (table.ids.sublist (List.filter_sublist.map _)) hNodup ?_
          intro i hKept hNewMem
          exact (hNew i hNewMem).1 hKept }

theorem rows_replace (h : table.replace doomed records = .ok table') :
    table'.rows = table.kept doomed ++ records := by
  unfold replace at h
  split at h
  · cases h
  · obtain rfl := Except.ok.inj h
    rfl

theorem mem_replace (h : table.replace doomed records = .ok table') :
    row ∈ table'.rows ↔ (row ∈ table.rows ∧ doomed row = false) ∨ row ∈ records := by
  simp [rows_replace h, kept]

theorem exists_replace (hIds : (records.map id).Nodup)
    (hFree : ∀ record ∈ records, ∀ row ∈ table.rows, doomed row = false → id row ≠ id record) :
    ∃ table', table.replace doomed records = .ok table' := by
  have hNone : firstClash ((table.kept doomed).map id) [] (records.map id) = none := by
    refine firstClash_eq_none_iff.mpr ⟨hIds, ?_⟩
    intro i hi
    refine ⟨?_, not_mem_nil⟩
    intro hHeld
    obtain ⟨record, hRecord, rfl⟩ := mem_map.mp hi
    obtain ⟨row, hRow, hEq⟩ := mem_map.mp hHeld
    obtain ⟨hRow, hStays⟩ := mem_filter.mp hRow
    exact hFree record hRecord row hRow (by simpa using hStays) hEq
  unfold replace
  split
  next clash hClash =>
    rw [hNone] at hClash
    cases hClash
  next => exact ⟨_, rfl⟩

theorem exists_of_replace_taken (h : table.replace doomed records = .error .taken) :
    ∃ record ∈ records, ∃ row ∈ table.rows, doomed row = false ∧ id row = id record := by
  unfold replace at h
  split at h
  next clash hClash =>
    rw [Except.error.inj h] at hClash
    obtain ⟨i, hi, hHeld⟩ := exists_of_firstClash_taken hClash
    obtain ⟨record, hRecord, rfl⟩ := mem_map.mp hi
    obtain ⟨row, hRow, hEq⟩ := mem_map.mp hHeld
    obtain ⟨hRow, hStays⟩ := mem_filter.mp hRow
    exact ⟨record, hRecord, row, hRow, by simpa using hStays, hEq⟩
  · cases h

variable {record : α} {i : ι}

def find (table : KeyedTable id) (i : ι) : Option α := table.rows.find? fun row => id row = i

def put (table : KeyedTable id) (record : α) : KeyedTable id where
  rows := UniqueTable.upsertRows id record table.rows
  ids := UniqueTable.nodup_upsertRows table.ids table.ids fun _ _ hNe => hNe

theorem find_eq_some_iff : table.find i = some row ↔ row ∈ table.rows ∧ id row = i :=
  find?_eq_some_iff_of_nodup table.ids

theorem find_eq_none_iff : table.find i = none ↔ ∀ row ∈ table.rows, id row ≠ i := by
  simp [find, List.find?_eq_none]

theorem mem_put : row ∈ (table.put record).rows ↔
    row = record ∨ row ∈ table.rows ∧ id row ≠ id record := UniqueTable.mem_upsertRows

theorem find_put :
    (table.put record).find i = if i = id record then some record else table.find i := by
  refine Option.ext fun row => ?_
  rw [find_eq_some_iff, mem_put]
  by_cases hId : i = id record
  · subst hId
    rw [if_pos rfl]
    constructor
    · rintro ⟨rfl | ⟨-, hNe⟩, hSame⟩
      · rfl
      · exact absurd hSame hNe
    · intro hRow
      obtain rfl := Option.some.inj hRow
      exact ⟨.inl rfl, rfl⟩
  · rw [if_neg hId, find_eq_some_iff]
    constructor
    · rintro ⟨rfl | ⟨hRow, -⟩, hSame⟩
      · exact absurd hSame.symm hId
      · exact ⟨hRow, hSame⟩
    · rintro ⟨hRow, hSame⟩
      exact ⟨.inr ⟨hRow, fun hEq => hId (hSame.symm.trans hEq)⟩, hSame⟩

/-- A selection that leaves out the id of the record does not see the assignment. -/
theorem filter_put {p : α → Bool} (h : ∀ row, id row = id record → p row = false) :
    (table.put record).rows.filter p = table.rows.filter p := by
  show (UniqueTable.upsertRows id record table.rows).filter p = _
  unfold UniqueTable.upsertRows
  split
  · induction table.rows with
    | nil => rfl
    | cons row rows ih =>
      rw [map_cons, filter_cons, filter_cons, ih]
      by_cases hId : id row = id record
      · rw [if_pos hId, h record rfl, h row hId]
        rfl
      · rw [if_neg hId]
  · rw [filter_append, filter_singleton, h record rfl]
    exact append_nil _

theorem rows_put_of_find_none (h : table.find (id record) = none) :
    (table.put record).rows = table.rows ++ [record] := by
  refine if_neg fun hMem => ?_
  obtain ⟨row, hRow, hSame⟩ := mem_map.mp hMem
  exact find_eq_none_iff.mp h row hRow hSame

end KeyedTable

end Foundation
