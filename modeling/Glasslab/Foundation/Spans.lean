import Mathlib.Data.List.Basic
import Mathlib.Data.List.Pairwise
import Mathlib.Order.Lattice

/-!
# Spans of positions

A span is a half-open interval of positions. Spans that come in order do not overlap, so no position
is in two of them. Order is kept when a span is replaced by spans within it (`InOrder.flatMap`), and
when neighbours are put together (`InOrder.map_hull`); the latter loses no position.
-/

namespace Foundation

open List

structure Span where
  start : Nat
  stop : Nat
  deriving DecidableEq, Repr

variable {spans : List Span}

namespace Span

def Contains (s : Span) (position : Nat) : Prop := s.start ≤ position ∧ position < s.stop

def Within (s t : Span) : Prop := t.start ≤ s.start ∧ s.stop ≤ t.stop

instance (s : Span) (position : Nat) : Decidable (s.Contains position) :=
  inferInstanceAs (Decidable (_ ∧ _))

instance (s t : Span) : Decidable (s.Within t) := inferInstanceAs (Decidable (_ ∧ _))

variable {s t : Span}

theorem Within.trans {u : Span} (h : s.Within t) (h' : t.Within u) : s.Within u :=
  ⟨h'.1.trans h.1, h.2.trans h'.2⟩

theorem Contains.of_within {position : Nat} (h : s.Contains position)
    (hWithin : s.Within t) : t.Contains position :=
  ⟨hWithin.1.trans h.1, h.2.trans_le hWithin.2⟩

/-- Spans that are not empty, one after the other. -/
structure InOrder (spans : List Span) : Prop where
  proper : ∀ s ∈ spans, s.start < s.stop
  ordered : spans.Pairwise fun s t => s.stop ≤ t.start

theorem inOrder_nil : InOrder [] := ⟨nofun, List.Pairwise.nil⟩

theorem inOrder_cons :
    InOrder (s :: spans) ↔
      s.start < s.stop ∧ (∀ t ∈ spans, s.stop ≤ t.start) ∧ InOrder spans := by
  constructor
  · intro h
    have hOrdered := pairwise_cons.mp h.ordered
    exact ⟨h.proper s mem_cons_self, hOrdered.1,
      fun t ht => h.proper t (mem_cons_of_mem _ ht), hOrdered.2⟩
  · rintro ⟨hProper, hFirst, h⟩
    refine ⟨fun t ht => ?_, pairwise_cons.mpr ⟨hFirst, h.ordered⟩⟩
    rcases mem_cons.mp ht with rfl | ht
    · exact hProper
    · exact h.proper t ht

theorem inOrder_singleton (h : s.start < s.stop) : InOrder [s] :=
  inOrder_cons.mpr ⟨h, nofun, inOrder_nil⟩

theorem inOrder_append {xs ys : List Span} :
    InOrder (xs ++ ys) ↔ InOrder xs ∧ InOrder ys ∧ ∀ s ∈ xs, ∀ t ∈ ys, s.stop ≤ t.start := by
  constructor
  · intro h
    obtain ⟨hx, hy, hBetween⟩ := pairwise_append.mp h.ordered
    exact ⟨⟨fun s hs => h.proper s (mem_append_left _ hs), hx⟩,
      ⟨fun s hs => h.proper s (mem_append_right _ hs), hy⟩, hBetween⟩
  · rintro ⟨hx, hy, hBetween⟩
    refine ⟨fun s hs => ?_, pairwise_append.mpr ⟨hx.ordered, hy.ordered, hBetween⟩⟩
    rcases mem_append.mp hs with hs | hs
    · exact hx.proper s hs
    · exact hy.proper s hs

theorem InOrder.sublist {xs ys : List Span} (h : InOrder ys) (hSub : xs.Sublist ys) : InOrder xs :=
  ⟨fun s hs => h.proper s (hSub.subset hs), h.ordered.sublist hSub⟩

/-- Of two members of a list in order, one is before the other, unless they are the same. -/
theorem eq_or_related {α : Type*} {R : α → α → Prop} {xs : List α} (h : xs.Pairwise R) {a b : α}
    (ha : a ∈ xs) (hb : b ∈ xs) : a = b ∨ R a b ∨ R b a := by
  by_cases hSame : a = b
  · exact .inl hSame
  · have hEither : xs.Pairwise fun a b => R a b ∨ R b a := h.imp .inl
    have : Std.Symm fun a b => R a b ∨ R b a := ⟨fun _ _ => Or.symm⟩
    exact .inr (hEither.forall ha hb hSame)

section

variable (h : InOrder spans)
include h

theorem InOrder.eq_or_before {s t : Span} (hs : s ∈ spans) (ht : t ∈ spans) :
    s = t ∨ s.stop ≤ t.start ∨ t.stop ≤ s.start :=
  eq_or_related h.ordered hs ht

/-- A property of spans that no two spans in order have together holds of one of them at most. -/
theorem InOrder.countP_le_one {p : Span → Bool}
    (hApart : ∀ s t, p s = true → p t = true → ¬ s.stop ≤ t.start) : spans.countP p ≤ 1 := by
  induction spans with
  | nil => exact Nat.zero_le 1
  | cons first rest ih =>
    obtain ⟨_, hFirst, hRest⟩ := inOrder_cons.mp h
    rw [countP_cons]
    split
    next hHere =>
      have hNone : rest.countP p = 0 := by
        refine countP_eq_zero.mpr fun t ht hThere => ?_
        exact hApart first t hHere hThere (hFirst t ht)
      omega
    next => exact ih hRest

theorem InOrder.countP_eq_one {p : Span → Bool}
    (hApart : ∀ s t, p s = true → p t = true → ¬ s.stop ≤ t.start)
    (hSome : ∃ s ∈ spans, p s = true) : spans.countP p = 1 := by
  have hLe := h.countP_le_one hApart
  have hPos := countP_pos_iff.mpr hSome
  omega

theorem InOrder.countP_contains {position : Nat}
    (hSome : ∃ s ∈ spans, s.Contains position) :
    spans.countP (fun s => s.Contains position) = 1 := by
  refine h.countP_eq_one (fun s t hs ht hBefore => ?_) ?_
  · have hInS : s.Contains position := of_decide_eq_true hs
    have hInT : t.Contains position := of_decide_eq_true ht
    exact absurd (hInS.2.trans_le (hBefore.trans hInT.1)) (lt_irrefl _)
  · obtain ⟨s, hMem, hs⟩ := hSome
    exact ⟨s, hMem, decide_eq_true hs⟩

theorem InOrder.countP_within {inner : Span} (hInner : inner.start < inner.stop)
    (hSome : ∃ s ∈ spans, inner.Within s) :
    spans.countP (fun s => inner.Within s) = 1 := by
  refine h.countP_eq_one (fun s t hs ht hBefore => ?_) ?_
  · have hInS : inner.Within s := of_decide_eq_true hs
    have hInT : inner.Within t := of_decide_eq_true ht
    have hStop := hInS.2
    have hStart := hInT.1
    omega
  · obtain ⟨s, hMem, hs⟩ := hSome
    exact ⟨s, hMem, decide_eq_true hs⟩

end

/-- Parts of things that come one after the other come in order. -/
theorem inOrder_flatMap {α : Type*} {xs : List α} {whole : α → Span} {parts : α → List Span}
    (hOrdered : xs.Pairwise fun a b => (whole a).stop ≤ (whole b).start)
    (hParts : ∀ a ∈ xs, InOrder (parts a) ∧ ∀ s ∈ parts a, s.Within (whole a)) :
    InOrder (xs.flatMap parts) := by
  induction xs with
  | nil => exact inOrder_nil
  | cons a rest ih =>
    obtain ⟨hFirst, hRest⟩ := pairwise_cons.mp hOrdered
    obtain ⟨hHere, hWithin⟩ := hParts a mem_cons_self
    refine inOrder_append.mpr ⟨hHere, ih hRest fun b hb =>
      hParts b (mem_cons_of_mem _ hb), fun s hs t ht => ?_⟩
    obtain ⟨b, hb, ht⟩ := mem_flatMap.mp ht
    have hStop := (hWithin s hs).2
    have hStart := ((hParts b (mem_cons_of_mem _ hb)).2 t ht).1
    exact hStop.trans ((hFirst b hb).trans hStart)

theorem InOrder.flatMap (h : InOrder spans) {parts : Span → List Span}
    (hParts : ∀ s ∈ spans, InOrder (parts s) ∧ ∀ t ∈ parts s, t.Within s) :
    InOrder (spans.flatMap parts) :=
  @inOrder_flatMap Span spans id parts h.ordered hParts

def hull (group : List Span) : Span :=
  ⟨(group.head?.map Span.start).getD 0, (group.getLast?.map Span.stop).getD 0⟩

theorem hull_singleton (s : Span) : hull [s] = s := rfl

variable {group : List Span}

theorem hull_concat (h : group ≠ []) (s : Span) :
    hull (group ++ [s]) = ⟨(hull group).start, s.stop⟩ := by
  obtain ⟨first, rest, rfl⟩ := exists_cons_of_ne_nil h
  rw [hull, List.getLast?_concat]
  rfl

theorem exists_start_hull (h : group ≠ []) :
    ∃ s ∈ group, (hull group).start = s.start := by
  obtain ⟨first, rest, rfl⟩ := exists_cons_of_ne_nil h
  exact ⟨first, mem_cons_self, rfl⟩

theorem exists_stop_hull (h : group ≠ []) :
    ∃ s ∈ group, (hull group).stop = s.stop := by
  refine ⟨group.getLast h, getLast_mem h, ?_⟩
  simp [hull, List.getLast?_eq_getLast_of_ne_nil h]

theorem InOrder.within_hull (h : InOrder group) (hs : s ∈ group) :
    s.Within (hull group) := by
  obtain ⟨before, after, rfl⟩ := append_of_mem hs
  obtain ⟨hBefore, hRest, hBetween⟩ := inOrder_append.mp h
  obtain ⟨hProper, hAfter, _⟩ := inOrder_cons.mp hRest
  constructor
  · cases before with
    | nil => exact le_rfl
    | cons first before =>
      have hFirst := hBefore.proper first mem_cons_self
      exact hFirst.le.trans (hBetween first mem_cons_self s mem_cons_self)
  · rcases eq_nil_or_concat after with rfl | ⟨front, last, rfl⟩
    · simp [hull]
    · have hLast : last ∈ front ++ [last] := mem_append_right _ mem_cons_self
      have hStop : (hull (before ++ s :: front.concat last)).stop = last.stop := by
        rw [concat_eq_append, ← cons_append, ← append_assoc, hull,
          List.getLast?_concat]
        rfl
      rw [hStop]
      rw [concat_eq_append] at hAfter hRest
      have hProperLast := hRest.proper last (mem_cons_of_mem _ hLast)
      exact (hAfter last hLast).trans hProperLast.le

theorem InOrder.map_hull {groups : List (List Span)} (h : InOrder groups.flatten)
    (hNe : ∀ group ∈ groups, group ≠ []) : InOrder (groups.map hull) := by
  induction groups with
  | nil => exact inOrder_nil
  | cons group rest ih =>
    obtain ⟨hHere, hRest, hBetween⟩ := inOrder_append.mp h
    have hGroup := hNe group mem_cons_self
    have hLater : ∀ other ∈ rest, other ≠ [] := fun other hMem =>
      hNe other (mem_cons_of_mem _ hMem)
    rw [map_cons, inOrder_cons]
    refine ⟨?_, fun t ht => ?_, ih hRest hLater⟩
    · obtain ⟨s, hs, _⟩ := exists_start_hull hGroup
      have hWithin := hHere.within_hull hs
      have hProper := hHere.proper s hs
      exact hWithin.1.trans_lt (hProper.trans_le hWithin.2)
    · obtain ⟨other, hOther, rfl⟩ := mem_map.mp ht
      obtain ⟨last, hLast, hStop⟩ := exists_stop_hull hGroup
      obtain ⟨first, hFirst, hStart⟩ := exists_start_hull (hLater other hOther)
      rw [hStop, hStart]
      exact hBetween last hLast first (mem_flatten.mpr ⟨other, hOther, hFirst⟩)

end Span

/-- Spans put together in groups, in their order. -/
structure Packs (spans : List Span) (groups : List (List Span)) : Prop where
  flatten : groups.flatten = spans
  ne_nil : ∀ group ∈ groups, group ≠ []

namespace Packs

variable {groups : List (List Span)}

section

variable (h : Packs spans groups)
include h

theorem inOrder (hSpans : Span.InOrder spans) :
    Span.InOrder (groups.map Span.hull) :=
  Span.InOrder.map_hull (h.flatten ▸ hSpans) h.ne_nil

theorem exists_hull (hSpans : Span.InOrder spans) {s : Span}
    (hs : s ∈ spans) : ∃ t ∈ groups.map Span.hull, s.Within t := by
  rw [← h.flatten] at hs hSpans
  obtain ⟨group, hGroup, hMem⟩ := mem_flatten.mp hs
  have hInOrder := hSpans.sublist (sublist_flatten_of_mem hGroup)
  exact ⟨Span.hull group, mem_map_of_mem hGroup, hInOrder.within_hull hMem⟩

/-- A group starts where one of the spans does, and ends where one does. -/
theorem exists_ends {t : Span} (ht : t ∈ groups.map Span.hull) :
    ∃ first ∈ spans, ∃ last ∈ spans, t.start = first.start ∧ t.stop = last.stop := by
  obtain ⟨group, hGroup, rfl⟩ := mem_map.mp ht
  have hSub : ∀ s ∈ group, s ∈ spans := by
    intro s hs
    rw [← h.flatten]
    exact mem_flatten.mpr ⟨group, hGroup, hs⟩
  obtain ⟨first, hFirst, hStart⟩ := Span.exists_start_hull (h.ne_nil group hGroup)
  obtain ⟨last, hLast, hStop⟩ := Span.exists_stop_hull (h.ne_nil group hGroup)
  exact ⟨first, hSub first hFirst, last, hSub last hLast, hStart, hStop⟩

theorem within {whole : Span} (hWhole : ∀ s ∈ spans, s.Within whole)
    {t : Span} (ht : t ∈ groups.map Span.hull) : t.Within whole := by
  obtain ⟨first, hFirst, last, hLast, hStart, hStop⟩ := h.exists_ends ht
  exact ⟨hStart ▸ (hWhole first hFirst).1, hStop ▸ (hWhole last hLast).2⟩

end

end Packs

end Foundation
