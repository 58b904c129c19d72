import Mathlib.Tactic.Common

/-!
# Transactions

`Tx σ ε α` is a command over a store `σ` that returns an `α` or raises an `ε`. A command
that raises may have written already: the second component is the store at the point of
the raise. `atomically` is the transaction around a command: it commits the writes of a
command that returns and rolls back those of one that raises.

`Returns t s a s'` says that the command returns `a` and leaves `s'`. The iff lemmas below
take a command apart from its first statement on, so that an inversion lemma for a
command is a sequence of rewrites.

Where the store after a raise matters, `wp t Q E s` is the weakest precondition of a command
for a postcondition `Q` on returning and `E` on raising; its equations execute a command
symbolically, and `wp_mono` puts the specification of a command in the place of its body.
-/

namespace Foundation

/-- A command that may write to a store and may raise. -/
def Tx (σ ε α : Type) : Type := σ → Except ε α × σ

namespace Tx

variable {σ ε α β : Type}

def bind (t : Tx σ ε α) (f : α → Tx σ ε β) : Tx σ ε β := fun s =>
  match t s with
  | (.ok a, s') => f a s'
  | (.error e, s') => (.error e, s')

instance : Monad (Tx σ ε) where
  pure a := fun s => (.ok a, s)
  bind := Tx.bind

def get : Tx σ ε σ := fun s => (.ok s, s)

def modify (f : σ → σ) : Tx σ ε Unit := fun s => (.ok (), f s)

def raise (e : ε) : Tx σ ε α := fun s => (.error e, s)

/-- Commit what a command wrote when it returns, roll it back when it raises. -/
def atomically (t : Tx σ ε α) : Tx σ ε α := fun s =>
  match t s with
  | (.ok a, s') => (.ok a, s')
  | (.error e, _) => (.error e, s)

/-- The command returns `a` and leaves the store `s'`. -/
def Returns (t : Tx σ ε α) (s : σ) (a : α) (s' : σ) : Prop := t s = (.ok a, s')

variable {t : Tx σ ε α} {f : α → Tx σ ε β} {s s' : σ} {a : α} {b : β}

theorem returns_pure {c : α} : Returns (pure c : Tx σ ε α) s a s' ↔ a = c ∧ s' = s := by
  show ((.ok c, s) : Except ε α × σ) = (.ok a, s') ↔ _
  simp [eq_comm]

variable {e : ε}

theorem returns_raise : ¬ Returns (raise e : Tx σ ε α) s a s' := by
  intro h
  cases h

theorem returns_modify {g : σ → σ} {u : Unit} :
    Returns (modify g : Tx σ ε Unit) s u s' ↔ s' = g s := by
  show ((.ok (), g s) : Except ε Unit × σ) = (.ok u, s') ↔ _
  simp [eq_comm]

theorem returns_bind :
    Returns (t >>= f) s b s' ↔ ∃ a s₁, Returns t s a s₁ ∧ Returns (f a) s₁ b s' := by
  show Tx.bind t f s = (.ok b, s') ↔ _
  unfold Tx.bind Returns
  rcases t s with ⟨_ | _, s₁⟩ <;> simp

theorem bind_of_ok (h : t s = (.ok a, s')) : (t >>= f) s = f a s' := by
  show Tx.bind t f s = _
  unfold Tx.bind
  rw [h]

theorem bind_of_error (h : t s = (.error e, s')) : (t >>= f) s = (.error e, s') := by
  show Tx.bind t f s = _
  unfold Tx.bind
  rw [h]

theorem returns_get_bind {g : σ → Tx σ ε β} :
    Returns (get >>= g) s b s' ↔ Returns (g s) s b s' := Iff.rfl

theorem returns_ite {c : Prop} [Decidable c] {u : Tx σ ε α} :
    Returns (if c then t else u) s a s' ↔ (c ∧ Returns t s a s') ∨ (¬ c ∧ Returns u s a s') := by
  split <;> simp [*]

theorem returns_atomically : Returns (atomically t) s a s' ↔ Returns t s a s' := by
  simp only [atomically, Returns]
  rcases t s with ⟨_ | _, s₁⟩ <;> simp

/-- A transaction raises and leaves the store as it found it, or it returns. -/
theorem atomically_cases (t : Tx σ ε α) (s : σ) :
    (∃ e, atomically t s = (.error e, s)) ∨ ∃ a s', Returns (atomically t) s a s' := by
  simp only [atomically, Returns]
  rcases t s with ⟨e | a, s₁⟩
  · exact .inl ⟨e, rfl⟩
  · exact .inr ⟨a, s₁, rfl⟩

/-- A transaction raises what its command raises. -/
theorem fst_atomically (t : Tx σ ε α) (s : σ) : (atomically t s).1 = (t s).1 := by
  unfold atomically
  rcases t s with ⟨_ | _, s₁⟩ <;> rfl

/-- A sequence raises in its first part or in what comes after. -/
theorem fst_bind_eq_error_iff :
    ((t >>= f) s).1 = .error e ↔
      (t s).1 = .error e ∨ ∃ a s₁, Returns t s a s₁ ∧ (f a s₁).1 = .error e := by
  show (Tx.bind t f s).1 = .error e ↔ _
  unfold Tx.bind Returns
  rcases t s with ⟨_ | _, s₁⟩ <;> simp

/-- The same for a transaction whose value is dropped. -/
theorem atomically_discard_cases (t : Tx σ ε α) (s : σ) :
    (∃ e, (do let _ ← atomically t : Tx σ ε Unit) s = (.error e, s)) ∨
      ∃ a s', Returns (atomically t) s a s' ∧
        Returns (do let _ ← atomically t : Tx σ ε Unit) s () s' := by
  rcases atomically_cases t s with ⟨e, hRaise⟩ | ⟨a, s', hReturn⟩
  · refine .inl ⟨e, ?_⟩
    show Tx.bind (atomically t) _ s = _
    rw [Tx.bind, hRaise]
  · exact .inr ⟨a, s', hReturn, returns_bind.mpr ⟨a, s', hReturn, returns_pure.mpr ⟨rfl, rfl⟩⟩⟩

/-- Run a command and hand its outcome on as a value. -/
def result (t : Tx σ ε α) : Tx σ ε (Except ε α) := fun s => (.ok (t s).1, (t s).2)

/-- Return the value of an outcome, or raise its exception. -/
def ofExcept (r : Except ε α) : Tx σ ε α := fun s => (r, s)

theorem returns_ofExcept {r : Except ε α} :
    Returns (ofExcept r : Tx σ ε α) s a s' ↔ r = .ok a ∧ s' = s := by
  show ((r, s) : Except ε α × σ) = (.ok a, s') ↔ _
  simp [eq_comm]

/-- The command run from `s` ends in `Q` if it returns and in `E` if it raises. -/
def wp (t : Tx σ ε α) (Q : α → σ → Prop) (E : ε → σ → Prop) (s : σ) : Prop :=
  match t s with
  | (.ok a, s') => Q a s'
  | (.error e, s') => E e s'

section Wp

variable {Q Q' : α → σ → Prop} {E E' : ε → σ → Prop}

theorem wp_pure {c : α} : wp (pure c : Tx σ ε α) Q E s ↔ Q c s := Iff.rfl

theorem wp_raise : wp (raise e : Tx σ ε α) Q E s ↔ E e s := Iff.rfl

theorem wp_get {Q : σ → σ → Prop} : wp (get : Tx σ ε σ) Q E s ↔ Q s s := Iff.rfl

theorem wp_modify {g : σ → σ} {Q : Unit → σ → Prop} :
    wp (modify g : Tx σ ε Unit) Q E s ↔ Q () (g s) := Iff.rfl

theorem wp_bind {Q : β → σ → Prop} :
    wp (t >>= f) Q E s ↔ wp t (fun a => wp (f a) Q E) E s := by
  show (match Tx.bind t f s with | (.ok a, s') => Q a s' | (.error e, s') => E e s') ↔ _
  unfold wp Tx.bind
  rcases t s with ⟨e | a, s₁⟩ <;> rfl

theorem wp_ite {c : Prop} [Decidable c] {u : Tx σ ε α} :
    wp (if c then t else u) Q E s ↔ (c → wp t Q E s) ∧ (¬ c → wp u Q E s) := by
  split <;> simp [*]

theorem wp_result {Q : Except ε α → σ → Prop} :
    wp (result t) Q E s ↔ wp t (fun a => Q (.ok a)) (fun e => Q (.error e)) s := by
  unfold wp result
  rcases t s with ⟨e | a, s₁⟩ <;> rfl

theorem wp_ofExcept {r : Except ε α} :
    wp (ofExcept r) Q E s ↔ (∀ a, r = .ok a → Q a s) ∧ ∀ e, r = .error e → E e s := by
  unfold wp ofExcept
  cases r <;> simp

theorem wp_mono (h : wp t Q E s) (hQ : ∀ a s', Q a s' → Q' a s') (hE : ∀ e s', E e s' → E' e s') :
    wp t Q' E' s := by
  unfold wp at h ⊢
  revert h
  rcases t s with ⟨e | a, s₁⟩
  · exact hE e s₁
  · exact hQ a s₁

theorem wp_step {R : β → σ → Prop} (h : wp t Q E s) (hQ : ∀ a s', Q a s' → wp (f a) R E' s')
    (hE : ∀ e s', E e s' → E' e s') : wp (t >>= f) R E' s :=
  wp_bind.mpr (wp_mono h hQ hE)

/-- Two specifications of one command hold together. -/
theorem wp_and (h : wp t Q E s) (h' : wp t Q' E' s) :
    wp t (fun a s' => Q a s' ∧ Q' a s') (fun e s' => E e s' ∧ E' e s') s := by
  unfold wp at h h' ⊢
  revert h h'
  rcases t s with ⟨e | a, s₁⟩
  · exact And.intro
  · exact And.intro

end Wp

section Keeps

variable {γ : Type} {g : σ → γ} {u : Tx σ ε α}

/-- The command does not change `g` of the store, whether it returns or raises. -/
def Keeps (g : σ → γ) (t : Tx σ ε α) : Prop :=
  ∀ s, wp t (fun _ s' => g s' = g s) (fun _ s' => g s' = g s) s

theorem Keeps.pure (a : α) : Keeps g (Pure.pure a : Tx σ ε α) := fun _ => rfl

theorem Keeps.raise (e : ε) : Keeps g (Tx.raise e : Tx σ ε α) := fun _ => rfl

theorem Keeps.get : Keeps g (Tx.get : Tx σ ε σ) := fun _ => rfl

theorem Keeps.ofExcept (r : Except ε α) : Keeps g (Tx.ofExcept r) :=
  fun _ => wp_ofExcept.mpr ⟨fun _ _ => rfl, fun _ _ => rfl⟩

theorem Keeps.modify {h : σ → σ} (hSame : ∀ s, g (h s) = g s) :
    Keeps g (Tx.modify h : Tx σ ε Unit) := hSame

theorem Keeps.bind (ht : Keeps g t) (hf : ∀ a, Keeps g (f a)) : Keeps g (t >>= f) := by
  intro s
  rw [wp_bind]
  refine wp_mono (ht s) (fun a s₁ hs₁ => ?_) (fun e s₁ hs₁ => hs₁)
  refine wp_mono (hf a s₁) (fun b s₂ hs₂ => ?_) (fun e s₂ hs₂ => ?_)
  · exact hs₂.trans hs₁
  · exact hs₂.trans hs₁

theorem Keeps.ite {c : Prop} [Decidable c] (ht : Keeps g t) (hu : Keeps g u) :
    Keeps g (if c then t else u) := by
  split
  · exact ht
  · exact hu

end Keeps

section RaisesOnly

variable {E : ε → Prop} {u : Tx σ ε α}

/-- Whatever the command raises satisfies `E`. -/
def RaisesOnly (E : ε → Prop) (t : Tx σ ε α) : Prop :=
  ∀ s, wp t (fun _ _ => True) (fun e _ => E e) s

theorem RaisesOnly.pure (a : α) : RaisesOnly E (Pure.pure a : Tx σ ε α) := fun _ => trivial

theorem RaisesOnly.raise (h : E e) : RaisesOnly E (Tx.raise e : Tx σ ε α) := fun _ => h

theorem RaisesOnly.get : RaisesOnly E (Tx.get : Tx σ ε σ) := fun _ => trivial

theorem RaisesOnly.ofExcept {r : Except ε α} (h : ∀ e, r = .error e → E e) :
    RaisesOnly E (Tx.ofExcept r : Tx σ ε α) :=
  fun _ => wp_ofExcept.mpr ⟨fun _ _ => trivial, h⟩

theorem RaisesOnly.bind (ht : RaisesOnly E t) (hf : ∀ a, RaisesOnly E (f a)) :
    RaisesOnly E (t >>= f) :=
  fun s => wp_step (ht s) (fun a s₁ _ => hf a s₁) fun _ _ h => h

theorem RaisesOnly.ite {c : Prop} [Decidable c] (ht : RaisesOnly E t) (hu : RaisesOnly E u) :
    RaisesOnly E (if c then t else u) := by
  split
  · exact ht
  · exact hu

end RaisesOnly

end Tx

end Foundation
