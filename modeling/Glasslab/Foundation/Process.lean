import Glasslab.Foundation.Machine

/-!
# Programs that run interleaved

A `Proc` is a program over a store that other writers may change between any two of its
steps, and that puts questions to a partner outside. One step is one atomic access to the
store (`act`) or one answered question (`ask`); a program returns or raises.

A `Component` offers programs behind a lock: one call is under way at a time, while
interference, the partner's own moves and a crash may fall between any two steps. `step` is
the machine that follows from it.

`Safe S Q E p w` is the rely-guarantee judgement for a `Contract` `S`: started in `w`, every
state the program passes through satisfies the invariant, every question it puts is one the
contract allows there, and it ends in `Q` or `E`. The rules take a program apart statement by
statement, each under an assertion that interference cannot break. `Governs.sound_step` carries the
judgement to the machine: it is the step lemma of every safety result about a component.
-/

namespace Foundation

/-- A program over the store `σ` that asks questions `κ`, raises `ε` and returns `α`. -/
inductive Proc (σ κ : Type) (A : κ → Type) (ε α : Type) where
  | done (a : α)
  | raise (e : ε)
  | act (f : σ → σ) (k : σ → Proc σ κ A ε α)
  | ask (q : κ) (k : A q → Proc σ κ A ε α)

namespace Proc

variable {σ κ : Type} {A : κ → Type} {ε α β : Type}

def bind : Proc σ κ A ε α → (α → Proc σ κ A ε β) → Proc σ κ A ε β
  | done a, g => g a
  | raise e, _ => raise e
  | act f k, g => act f fun s => (k s).bind g
  | ask q k, g => ask q fun a => (k a).bind g

instance : Monad (Proc σ κ A ε) where
  pure := done
  bind := bind

def tryCatch : Proc σ κ A ε α → (ε → Proc σ κ A ε α) → Proc σ κ A ε α
  | done a, _ => done a
  | raise e, h => h e
  | act f k, h => act f fun s => (k s).tryCatch h
  | ask q k, h => ask q fun a => (k a).tryCatch h

/-- One atomic access: apply `f` to the store and return what was there before. -/
def access (f : σ → σ) : Proc σ κ A ε σ := act f done

def query (q : κ) : Proc σ κ A ε (A q) := ask q done

def ofExcept : Except ε α → Proc σ κ A ε α
  | .ok a => done a
  | .error e => raise e

def pending : Proc σ κ A ε α → Option κ
  | ask q _ => some q
  | _ => none

end Proc

open Proc

/-- Whoever answers the questions, with what it may answer and do by itself. -/
structure Partner (κ : Type) (A : κ → Type) where
  State : Type
  Choice : Type
  respond : State → (q : κ) → Choice → State × A q
  Move : Type
  move : State → Move → State

/-- Programs that run under one lock, and what happens to their store without it. -/
structure Component (σ κ : Type) (A : κ → Type) (ε : Type) where
  Entry : Type
  entry : Entry → Proc σ κ A ε Unit
  Interference : Type
  interfere : Interference → σ → σ
  restart : σ → σ

variable {σ κ : Type} {A : κ → Type} {ε α β : Type}

structure Config (σ κ : Type) (A : κ → Type) (ε : Type) (P : Partner κ A) where
  store : σ
  partner : P.State
  /-- The rest of the call that holds the lock. -/
  control : Option (Proc σ κ A ε Unit)

variable {P : Partner κ A}

namespace Config

def world (x : Config σ κ A ε P) : σ × P.State := (x.store, x.partner)

@[simp] theorem world_fst (x : Config σ κ A ε P) : x.world.1 = x.store := rfl

def pending (x : Config σ κ A ε P) : Option κ := x.control.bind Proc.pending

end Config

inductive Input (C : Component σ κ A ε) (P : Partner κ A) where
  | call (e : C.Entry)
  | tick
  | reply (c : P.Choice)
  | interfere (i : C.Interference)
  | move (m : P.Move)
  | crash

namespace Component

variable (C : Component σ κ A ε) (P : Partner κ A)

/-- Let the call under way take one step that needs no answer. -/
def tick (x : Config σ κ A ε P) : Config σ κ A ε P :=
  match x.control with
  | some (.act f k) => { x with store := f x.store, control := some (k x.store) }
  | some (.ask q k) => { x with control := some (.ask q k) }
  | _ => { x with control := none }

/-- Let the partner answer the question the call under way waits on. -/
def reply (x : Config σ κ A ε P) (c : P.Choice) : Config σ κ A ε P :=
  match x.control with
  | some (.ask q k) =>
    { x with
      partner := (P.respond x.partner q c).1,
      control := some (k (P.respond x.partner q c).2) }
  | _ => x

/-- A call waits while another one holds the lock. -/
def call (x : Config σ κ A ε P) (e : C.Entry) : Config σ κ A ε P :=
  match x.control with
  | none => { x with control := some (C.entry e) }
  | some _ => x

def step (x : Config σ κ A ε P) : Input C P → Config σ κ A ε P
  | .call e => C.call P x e
  | .tick => tick P x
  | .reply c => reply P x c
  | .interfere i => { x with store := C.interfere i x.store }
  | .move m => { x with partner := P.move x.partner m }
  | .crash => { x with store := C.restart x.store, control := none }

end Component

/-- What a program keeps up (`Inv`, `Asks`) and what it may count on (`rely`, `answers`). -/
structure Contract (σ γ κ : Type) (A : κ → Type) where
  Inv : σ × γ → Prop
  Asks : κ → σ × γ → Prop
  rely : σ × γ → σ × γ → Prop
  answers : (q : κ) → σ × γ → γ → A q → Prop
  refl : ∀ w, rely w w
  trans : ∀ {w w' w''}, rely w w' → rely w' w'' → rely w w''

namespace Contract

variable {γ : Type} (S : Contract σ γ κ A)

/-- An assertion that interference cannot break and that is strong enough for the invariant. -/
structure Holds (P : σ × γ → Prop) : Prop where
  stable : ∀ w w', P w → S.rely w w' → P w'
  inv : ∀ w, P w → S.Inv w

variable {S}

theorem Holds.and {P R : σ × γ → Prop} (hP : S.Holds P)
    (hR : ∀ w w', R w → S.rely w w' → R w') : S.Holds fun w => P w ∧ R w where
  stable w w' h hRely := ⟨hP.stable w w' h.1 hRely, hR w w' h.2 hRely⟩
  inv w h := hP.inv w h.1

end Contract

/-- The program started in `w` keeps the contract and ends in `Q` or raises in `E`. -/
def Safe {γ : Type} (S : Contract σ γ κ A) (Q : α → σ × γ → Prop) (E : ε → σ × γ → Prop) :
    Proc σ κ A ε α → σ × γ → Prop
  | .done a, w => ∀ w', S.rely w w' → S.Inv w' ∧ Q a w'
  | .raise e, w => ∀ w', S.rely w w' → S.Inv w' ∧ E e w'
  | .act f k, w => ∀ w', S.rely w w' → S.Inv w' ∧ Safe S Q E (k w'.1) (f w'.1, w'.2)
  | .ask q k, w => ∀ w', S.rely w w' → S.Inv w' ∧ S.Asks q w' ∧
      ∀ c a, S.answers q w' c a → Safe S Q E (k a) (w'.1, c)

section Rules

variable {γ : Type} {S : Contract σ γ κ A} {Q Q' : α → σ × γ → Prop} {E E' : ε → σ × γ → Prop}
  {R : β → σ × γ → Prop} {p : Proc σ κ A ε α} {w w' : σ × γ} {P : σ × γ → Prop}

theorem Safe.inv (h : Safe S Q E p w) : S.Inv w := by
  cases p <;> exact (h w (S.refl w)).1

theorem Safe.rely (h : Safe S Q E p w) (hRely : S.rely w w') : Safe S Q E p w' := by
  cases p <;> exact fun w'' h' => h w'' (S.trans hRely h')

theorem safe_pure {a : α} (hP : S.Holds P) (h : P w) (hQ : ∀ w, P w → Q a w) :
    Safe S Q E (pure a : Proc σ κ A ε α) w := by
  intro w' hRely
  have h' := hP.stable w w' h hRely
  exact ⟨hP.inv w' h', hQ w' h'⟩

theorem Contract.Holds.ret {a : α} (hP : S.Holds P) (h : P w) :
    Safe S (fun _ => P) E (pure a : Proc σ κ A ε α) w :=
  safe_pure hP h fun _ h => h

theorem safe_raise {e : ε} (hP : S.Holds P) (h : P w) (hE : ∀ w, P w → E e w) :
    Safe S Q E (.raise e : Proc σ κ A ε α) w := by
  intro w' hRely
  have h' := hP.stable w w' h hRely
  exact ⟨hP.inv w' h', hE w' h'⟩

theorem Contract.Holds.raise {e : ε} (hP : S.Holds P) (h : P w) :
    Safe S Q (fun _ => P) (.raise e : Proc σ κ A ε α) w :=
  safe_raise hP h fun _ h => h

theorem safe_access {f : σ → σ} {g : σ → Proc σ κ A ε α} (hP : S.Holds P) (h : P w)
    (hNext : ∀ w, P w → Safe S Q E (g w.1) (f w.1, w.2)) :
    Safe S Q E (Proc.access f >>= g) w := by
  intro w' hRely
  have h' := hP.stable w w' h hRely
  exact ⟨hP.inv w' h', hNext w' h'⟩

/-- The rule of an access in a program that is itself the start of one. -/
theorem safe_access_bind {β : Type} {f : σ → σ} {k : σ → Proc σ κ A ε β} {g : β → Proc σ κ A ε α}
    (hP : S.Holds P) (h : P w) (hNext : ∀ w, P w → Safe S Q E (k w.1 >>= g) (f w.1, w.2)) :
    Safe S Q E ((Proc.access f >>= k) >>= g) w :=
  safe_access (g := fun s => k s >>= g) hP h hNext

theorem safe_query {q : κ} {g : A q → Proc σ κ A ε α} (hP : S.Holds P) (h : P w)
    (hAsks : ∀ w, P w → S.Asks q w)
    (hNext : ∀ w c a, P w → S.answers q w c a → Safe S Q E (g a) (w.1, c)) :
    Safe S Q E (Proc.query q >>= g) w := by
  intro w' hRely
  have h' := hP.stable w w' h hRely
  exact ⟨hP.inv w' h', hAsks w' h', fun c a hAnswer => hNext w' c a h' hAnswer⟩

variable {g : α → Proc σ κ A ε β}

theorem safe_bind
    (h : Safe S (fun a => Safe S R E (g a)) E p w) : Safe S R E (p >>= g) w := by
  induction p generalizing w with
  | done a => exact (h w (S.refl w)).2
  | raise e => exact h
  | act f k ih => exact fun w' hRely => ⟨(h w' hRely).1, ih w'.1 (h w' hRely).2⟩
  | ask q k ih =>
    intro w' hRely
    obtain ⟨hInv, hAsks, hNext⟩ := h w' hRely
    exact ⟨hInv, hAsks, fun c a hAnswer => ih a (hNext c a hAnswer)⟩

theorem safe_tryCatch {handler : ε → Proc σ κ A ε α}
    (h : Safe S Q (fun e => Safe S Q E (handler e)) p w) : Safe S Q E (p.tryCatch handler) w := by
  induction p generalizing w with
  | done a => exact h
  | raise e => exact (h w (S.refl w)).2
  | act f k ih => exact fun w' hRely => ⟨(h w' hRely).1, ih w'.1 (h w' hRely).2⟩
  | ask q k ih =>
    intro w' hRely
    obtain ⟨hInv, hAsks, hNext⟩ := h w' hRely
    exact ⟨hInv, hAsks, fun c a hAnswer => ih a (hNext c a hAnswer)⟩

theorem Safe.mono (h : Safe S Q E p w) (hQ : ∀ a w, Q a w → Q' a w)
    (hE : ∀ e w, E e w → E' e w) : Safe S Q' E' p w := by
  induction p generalizing w with
  | done a => exact fun w' hRely => ⟨(h w' hRely).1, hQ a w' (h w' hRely).2⟩
  | raise e => exact fun w' hRely => ⟨(h w' hRely).1, hE e w' (h w' hRely).2⟩
  | act f k ih => exact fun w' hRely => ⟨(h w' hRely).1, ih w'.1 (h w' hRely).2⟩
  | ask q k ih =>
    intro w' hRely
    obtain ⟨hInv, hAsks, hNext⟩ := h w' hRely
    exact ⟨hInv, hAsks, fun c a hAnswer => ih a (hNext c a hAnswer)⟩

theorem Safe.seq (h : Safe S Q E p w)
    (hNext : ∀ a w, Q a w → Safe S R E (g a) w) : Safe S R E (p >>= g) w :=
  safe_bind (h.mono hNext fun _ _ h => h)

end Rules

section Runs

variable {C : Component σ κ A ε} {S : Contract σ P.State κ A} {Idle : σ × P.State → Prop}
  {Admits : Config σ κ A ε P → Input C P → Prop}

/-- The contract holds of the state, and of the rest of the call under way. -/
def Sound (S : Contract σ P.State κ A) (Idle : σ × P.State → Prop) (x : Config σ κ A ε P) :
    Prop :=
  match x.control with
  | none => Idle x.world
  | some p => Safe S (fun _ => Idle) (fun _ => Idle) p x.world

/-- Every program of the component keeps the contract from a state in which none is under way,
and the admitted inputs are what the contract counts on. -/
structure Governs (C : Component σ κ A ε) (P : Partner κ A) (S : Contract σ P.State κ A)
    (Idle : σ × P.State → Prop) (Admits : Config σ κ A ε P → Input C P → Prop) : Prop where
  idle : S.Holds Idle
  entry : ∀ x e, Admits x (.call e) → x.control = none → Idle x.world →
    Safe S (fun _ => Idle) (fun _ => Idle) (C.entry e) x.world
  interfere : ∀ x i, Admits x (.interfere i) →
    S.rely x.world (C.interfere i x.store, x.partner)
  move : ∀ x m, Admits x (.move m) → S.rely x.world (x.store, P.move x.partner m)
  reply : ∀ x q c, Admits x (.reply c) → x.pending = some q →
    S.answers q x.world (P.respond x.partner q c).1 (P.respond x.partner q c).2
  crash : ∀ x, Admits x .crash → S.Inv x.world → Idle (C.restart x.store, x.partner)

variable {x : Config σ κ A ε P} {i : Input C P}

theorem Sound.inv (hIdle : S.Holds Idle) (h : Sound S Idle x) : S.Inv x.world := by
  unfold Sound at h
  split at h
  · exact hIdle.inv _ h
  · exact h.inv

theorem sound_of_idle (hControl : x.control = none) (h : Idle x.world) : Sound S Idle x := by
  unfold Sound
  rwa [hControl]

theorem Sound.idle (h : Sound S Idle x) (hControl : x.control = none) : Idle x.world := by
  unfold Sound at h
  rwa [hControl] at h

theorem Sound.asks (h : Sound S Idle x) {q : κ} (hPending : x.pending = some q) :
    S.Asks q x.world := by
  unfold Sound at h
  unfold Config.pending at hPending
  split at h
  next hControl => simp [hControl] at hPending
  next p hControl =>
    rw [hControl] at hPending
    cases p <;> simp only [Option.bind_some, Proc.pending, Option.some.injEq, reduceCtorEq]
      at hPending
    subst hPending
    exact (h _ (S.refl _)).2.1

theorem Sound.rely {y : Config σ κ A ε P} (hIdle : S.Holds Idle) (h : Sound S Idle x)
    (hControl : y.control = x.control) (hRely : S.rely x.world y.world) :
    Sound S Idle y := by
  unfold Sound at h ⊢
  rw [hControl]
  split at h
  · exact hIdle.stable _ _ h hRely
  · exact h.rely hRely

theorem sound_tick (h : Sound S Idle x) :
    Sound S Idle (Component.tick P x) := by
  obtain ⟨store, partner, control⟩ := x
  match control with
  | none => exact h
  | some (.done a) => exact (h _ (S.refl _)).2
  | some (.raise e) => exact (h _ (S.refl _)).2
  | some (.act f k) => exact (h _ (S.refl _)).2
  | some (.ask q k) => exact h

theorem sound_reply (hGoverns : Governs C P S Idle Admits) (h : Sound S Idle x) {c : P.Choice}
    (hAdmits : Admits x (.reply c)) : Sound S Idle (Component.reply P x c) := by
  obtain ⟨store, partner, control⟩ := x
  match control with
  | none => exact h
  | some (.done a) => exact h
  | some (.raise e) => exact h
  | some (.act f k) => exact h
  | some (.ask q k) =>
    exact (h _ (S.refl _)).2.2 _ _ (hGoverns.reply _ q c hAdmits rfl)

/-- One admitted input leaves the machine in a state that satisfies the contract. -/
theorem Governs.sound_step (hGoverns : Governs C P S Idle Admits) (x : Config σ κ A ε P)
    (i : Input C P) (hAdmits : Admits x i) (h : Sound S Idle x) : Sound S Idle (C.step P x i) := by
  cases i with
  | call e =>
    obtain ⟨store, partner, control⟩ := x
    cases control with
    | none => exact hGoverns.entry ⟨store, partner, none⟩ e hAdmits rfl h
    | some p => exact h
  | tick => exact sound_tick h
  | reply c => exact sound_reply hGoverns h hAdmits
  | interfere i => exact h.rely hGoverns.idle rfl (hGoverns.interfere x i hAdmits)
  | move m => exact h.rely hGoverns.idle rfl (hGoverns.move x m hAdmits)
  | crash => exact hGoverns.crash x hAdmits (h.inv hGoverns.idle)

end Runs

end Foundation
