import Mathlib.Data.List.Forall2

/-!
# Computations that may raise

Each lemma takes the success of an `Except` computation apart at its first statement, so that the
success of a function is described by a sequence of rewrites.
-/

namespace Foundation.Raising

open List

variable {ε α β : Type} {x : Except ε α} {a : α} {b : β} {e : ε} {f : α → Except ε β}

theorem bind_eq_ok_iff :
    x >>= f = .ok b ↔ ∃ a, x = .ok a ∧ f a = .ok b := by
  cases x with
  | error e =>
    constructor
    · intro h
      cases h
    · rintro ⟨a, h, -⟩
      cases h
  | ok a =>
    constructor
    · intro h
      exact ⟨a, rfl, h⟩
    · rintro ⟨a', h, hf⟩
      cases h
      exact hf

theorem of_bind (h : x >>= f = .ok b) : ∃ a, x = .ok a ∧ f a = .ok b :=
  bind_eq_ok_iff.mp h

/-- A sequence succeeds if both parts do, where the second does whatever the first returns. -/
theorem exists_bind_eq_ok_iff {P : Prop}
    (hf : ∀ a, (∃ b, f a = .ok b) ↔ P) :
    (∃ b, x >>= f = .ok b) ↔ (∃ a, x = .ok a) ∧ P := by
  constructor
  · rintro ⟨b, h⟩
    obtain ⟨a, ha, hb⟩ := of_bind h
    exact ⟨⟨a, ha⟩, (hf a).mp ⟨b, hb⟩⟩
  · rintro ⟨⟨a, ha⟩, hP⟩
    obtain ⟨b, hb⟩ := (hf a).mpr hP
    exact ⟨b, bind_eq_ok_iff.mpr ⟨a, ha, hb⟩⟩

theorem exists_bind_pure_eq_ok_iff {f : α → β} :
    (∃ b, (x >>= fun a => pure (f a)) = .ok b) ↔ ∃ a, x = .ok a :=
  (exists_bind_eq_ok_iff fun a => iff_true_intro ⟨f a, rfl⟩).trans (by rw [and_true])

/-- A sequence raises in its first part or in what comes after. -/
theorem error_of_bind (h : x >>= f = .error e) :
    x = .error e ∨ ∃ a, x = .ok a ∧ f a = .error e := by
  cases x with
  | error e' =>
    cases h
    exact .inl rfl
  | ok a => exact .inr ⟨a, rfl, h⟩

theorem pure_eq_ok_iff {a' : α} : (pure a' : Except ε α) = .ok a ↔ a = a' := by
  constructor
  · intro h
    exact (Except.ok.inj h).symm
  · rintro rfl
    rfl

theorem map_eq_ok_iff {f : α → β} : x.map f = .ok b ↔ ∃ a, x = .ok a ∧ f a = b := by
  cases x <;> simp [Except.map]

theorem check_eq_ok_iff {c : Prop} [Decidable c] :
    (if c then .error e else x) = .ok a ↔ ¬ c ∧ x = .ok a := by
  split <;> simp [*]

theorem of_check {c : Prop} [Decidable c] (h : (if c then .error e else x) = .ok a) :
    ¬ c ∧ x = .ok a :=
  check_eq_ok_iff.mp h

theorem elim_eq_ok_iff {o : Option α} :
    (o.elim (.error e) .ok : Except ε α) = .ok a ↔ o = some a := by
  cases o <;> simp

/-- What has to hold of the value, if there is one. -/
instance decidableForallOk {P : α → Prop} [DecidablePred P] : Decidable (∀ a, x = .ok a → P a) :=
  match x with
  | .error _ => .isTrue fun _ h => by cases h
  | .ok a => decidable_of_iff (P a)
    ⟨fun hP _ h => by cases h; exact hP, fun h => h a rfl⟩

variable {xs : List α}

/-- What a search must find is in the list and passes the test. -/
theorem and_mem_of_find {p : α → Prop} [DecidablePred p]
    (h : ((xs.find? fun x => p x).elim (.error e) .ok : Except ε α) = .ok a) : p a ∧ a ∈ xs := by
  have hFound := elim_eq_ok_iff.mp h
  have hTest := List.find?_some hFound
  exact ⟨by simpa using hTest, mem_of_find?_eq_some hFound⟩

variable {ys : List β}

/-- A loop succeeds if every pass does. -/
theorem mapM_eq_ok_iff {g : α → β} {P : α → Prop}
    (hf : ∀ x y, f x = .ok y ↔ P x ∧ y = g x) :
    xs.mapM f = .ok ys ↔ (∀ x ∈ xs, P x) ∧ ys = xs.map g := by
  induction xs generalizing ys with
  | nil =>
    rw [mapM_nil, pure_eq_ok_iff]
    simp
  | cons x xs ih =>
    rw [mapM_cons, bind_eq_ok_iff, forall_mem_cons, map_cons]
    constructor
    · rintro ⟨y, hy, h⟩
      obtain ⟨hx, rfl⟩ := (hf x y).mp hy
      obtain ⟨rest, hRest, h⟩ := of_bind h
      obtain ⟨hxs, rfl⟩ := ih.mp hRest
      exact ⟨⟨hx, hxs⟩, pure_eq_ok_iff.mp h⟩
    · rintro ⟨⟨hx, hxs⟩, rfl⟩
      refine ⟨g x, (hf x _).mpr ⟨hx, rfl⟩, bind_eq_ok_iff.mpr ⟨xs.map g, ih.mpr ⟨hxs, rfl⟩, rfl⟩⟩

/-- The results of a loop are those of its passes, in order. -/
theorem mapM_eq_ok_iff_forall₂ :
    xs.mapM f = .ok ys ↔ List.Forall₂ (fun x y => f x = .ok y) xs ys := by
  induction xs generalizing ys with
  | nil => rw [mapM_nil, pure_eq_ok_iff, forall₂_nil_left_iff]
  | cons x xs ih =>
    rw [mapM_cons, bind_eq_ok_iff, forall₂_cons_left_iff]
    constructor
    · rintro ⟨y, hy, h⟩
      obtain ⟨rest, hRest, h⟩ := of_bind h
      exact ⟨y, rest, hy, ih.mp hRest, pure_eq_ok_iff.mp h⟩
    · rintro ⟨y, rest, hy, hRest, rfl⟩
      exact ⟨y, hy, bind_eq_ok_iff.mpr ⟨rest, ih.mpr hRest, rfl⟩⟩

/-- A result is one of a loop's exactly if a pass gives it. -/
theorem mem_iff_of_mapM_eq_ok {y : β}
    (h : xs.mapM f = .ok ys) : y ∈ ys ↔ ∃ x ∈ xs, f x = .ok y := by
  induction mapM_eq_ok_iff_forall₂.mp h with
  | nil => simp
  | @cons x z xs ys hHead hTail ih =>
    rw [mem_cons, exists_mem_cons_iff, ih (mapM_eq_ok_iff_forall₂.mpr hTail), hHead,
      Except.ok.injEq, eq_comm]

/-- Every pass of a loop that succeeds succeeds, with one of the results. -/
theorem exists_of_mapM_eq_ok
    (h : xs.mapM f = .ok ys) {x : α} (hx : x ∈ xs) : ∃ y ∈ ys, f x = .ok y := by
  induction mapM_eq_ok_iff_forall₂.mp h with
  | nil => cases hx
  | @cons first y xs ys hHead hTail ih =>
    rcases mem_cons.mp hx with rfl | hx
    · exact ⟨y, mem_cons_self, hHead⟩
    · obtain ⟨z, hz, hSame⟩ := ih (mapM_eq_ok_iff_forall₂.mpr hTail) hx
      exact ⟨z, mem_cons_of_mem _ hz, hSame⟩

/-- What every pass of a loop keeps is kept by the loop. -/
theorem foldlM_invariant {f : β → α → Except ε β} {P : β → Prop} {s s' : β}
    (hStep : ∀ s x s', f s x = .ok s' → P s → P s') (h : xs.foldlM f s = .ok s') (hs : P s) :
    P s' := by
  induction xs generalizing s with
  | nil =>
    rw [foldlM_nil, pure_eq_ok_iff] at h
    exact h ▸ hs
  | cons x xs ih =>
    rw [foldlM_cons, bind_eq_ok_iff] at h
    obtain ⟨next, hNext, hRest⟩ := h
    exact ih hRest (hStep s x next hNext hs)

end Foundation.Raising
