import Glasslab.Foundation.Process

/-!
# Routines that hand over to one another

A routine is a `Proc` that ends by naming what comes next: nothing, another routine that takes
its place, or another routine with an exception handler around it. Such calls may go on for any
number of steps, so there is no program for a whole call, only for the routine it is in.

A `Service` offers calls that start routines, one at a time. `step` is the machine: questions are
answered in any way, other writers change the store between any two steps, and the process may
stop at any of them.

`Leads S E P p Q` is the triple over `Safe`: from every state that satisfies `P`. A service upholds
a contract when every routine leads from its precondition to that of its successor
(`Upholds.sound_step`).
-/

namespace Foundation

/-- How a routine ends. -/
inductive Next (L H : Type) where
  | finish
  | goto (l : L)
  | guarded (h : H) (l : L)

structure Service (σ κ : Type) (A : κ → Type) (ε L H : Type) where
  Entry : Type
  entry : Entry → Proc σ κ A ε (Next L H)
  body : L → Proc σ κ A ε (Next L H)
  handle : H → ε → Proc σ κ A ε (Next L H)
  Interference : Type
  interfere : Interference → σ → σ

variable {σ κ : Type} {A : κ → Type} {ε L H α β : Type}

structure Activity (σ κ : Type) (A : κ → Type) (ε L H : Type) where
  store : σ
  /-- The rest of the routine under way, and the handler around it. -/
  control : Option (Proc σ κ A ε (Next L H) × Option H)

/-- The question the routine under way waits on. -/
def Activity.pending (x : Activity σ κ A ε L H) : Option κ := x.control.bind fun c => c.1.pending

inductive Stimulus (V : Service σ κ A ε L H) where
  | call (e : V.Entry)
  | tick
  | reply (answer : (q : κ) → A q)
  | interfere (i : V.Interference)
  | crash

namespace Service

variable (V : Service σ κ A ε L H)

def proceed (handler : Option H) : Next L H → Option (Proc σ κ A ε (Next L H) × Option H)
  | .finish => none
  | .goto l => some (V.body l, handler)
  | .guarded h l => some (V.body l, some h)

def catching (e : ε) : Option H → Option (Proc σ κ A ε (Next L H) × Option H)
  | none => none
  | some h => some (V.handle h e, none)

/-- Let the routine under way take one step that needs no answer. -/
def tick (x : Activity σ κ A ε L H) : Activity σ κ A ε L H :=
  match x.control with
  | some (.act f k, handler) =>
    { x with store := f x.store, control := some (k x.store, handler) }
  | some (.done next, handler) => { x with control := V.proceed handler next }
  | some (.raise e, handler) => { x with control := V.catching e handler }
  | _ => x

/-- Answer the question the routine under way waits on. -/
def reply (x : Activity σ κ A ε L H) (answer : (q : κ) → A q) : Activity σ κ A ε L H :=
  match x.control with
  | some (.ask q k, handler) => { x with control := some (k (answer q), handler) }
  | _ => x

/-- A call waits while another one is under way. -/
def call (x : Activity σ κ A ε L H) (e : V.Entry) : Activity σ κ A ε L H :=
  match x.control with
  | none => { x with control := some (V.entry e, none) }
  | some _ => x

def step (x : Activity σ κ A ε L H) : Stimulus V → Activity σ κ A ε L H
  | .call e => V.call x e
  | .tick => V.tick x
  | .reply answer => reply x answer
  | .interfere i => { x with store := V.interfere i x.store }
  | .crash => { x with control := none }

end Service

variable {S : Contract σ Unit κ A}

section Triples

variable {E : ε → σ × Unit → Prop} {P P' : σ × Unit → Prop} {Q Q' : α → σ × Unit → Prop}
  {R : β → σ × Unit → Prop} {p : Proc σ κ A ε α}

/-- From every state in `P` the program keeps the contract and ends in `Q` or raises in `E`. -/
def Leads (S : Contract σ Unit κ A) (E : ε → σ × Unit → Prop) (P : σ × Unit → Prop)
    (p : Proc σ κ A ε α) (Q : α → σ × Unit → Prop) : Prop :=
  ∀ w, P w → Safe S Q E p w

theorem leads_pure {a : α} (hP : S.Holds P) (h : ∀ w, P w → Q a w) :
    Leads S E P (pure a : Proc σ κ A ε α) Q :=
  fun _ hw => safe_pure hP hw h

theorem leads_raise {e : ε} (hP : S.Holds P) (h : ∀ w, P w → E e w) :
    Leads S E P (.raise e : Proc σ κ A ε α) Q :=
  fun _ hw => safe_raise hP hw h

theorem leads_bind {g : α → Proc σ κ A ε β} (hFirst : Leads S E P p Q)
    (hRest : ∀ a, Leads S E (Q a) (g a) R) : Leads S E P (p >>= g) R :=
  fun w hw => safe_bind ((hFirst w hw).mono hRest fun _ _ h => h)

theorem leads_access {f : σ → σ} {F : σ → σ × Unit → Prop} (hP : S.Holds P)
    (hF : ∀ s, S.Holds (F s)) (h : ∀ w, P w → F w.1 (f w.1, w.2)) :
    Leads S E P (Proc.access f) F := by
  intro w hw w' hRely
  have hw' := hP.stable w w' hw hRely
  refine ⟨hP.inv w' hw', ?_⟩
  exact safe_pure (hF w'.1) (h w' hw') fun _ h => h

theorem leads_query {q : κ} (hP : S.Holds P) (hAsks : ∀ w, P w → S.Asks q w) :
    Leads S E P (Proc.query q : Proc σ κ A ε (A q)) fun _ => P := by
  intro w hw w' hRely
  have hw' := hP.stable w w' hw hRely
  refine ⟨hP.inv w' hw', hAsks w' hw', fun _ _ _ => ?_⟩
  exact safe_pure hP hw' fun _ h => h

theorem leads_tryCatch {handler : ε → Proc σ κ A ε α} {E' : ε → σ × Unit → Prop}
    (hBody : Leads S E' P p Q) (hHandler : ∀ e, Leads S E (E' e) (handler e) Q) :
    Leads S E P (p.tryCatch handler) Q :=
  fun w hw => safe_tryCatch ((hBody w hw).mono (fun _ _ h => h) hHandler)

theorem Leads.pre (h : Leads S E P p Q) (hPre : ∀ w, P' w → P w) : Leads S E P' p Q :=
  fun w hw => h w (hPre w hw)

theorem Leads.post (h : Leads S E P p Q) (hPost : ∀ a w, Q a w → Q' a w) : Leads S E P p Q' :=
  fun w hw => (h w hw).mono hPost fun _ _ h => h

end Triples

section Runs

variable {V : Service σ κ A ε L H} {Idle : σ × Unit → Prop} {Pre : L → σ × Unit → Prop}
  {Admits : Activity σ κ A ε L H → Stimulus V → Prop}

/-- The state in which a routine leaves the store to what comes next. -/
def Ends (Idle : σ × Unit → Prop) (Pre : L → σ × Unit → Prop) : Next L H → σ × Unit → Prop
  | .finish => Idle
  | .goto l => Pre l
  | .guarded _ l => Pre l

/-- The contract holds of the store, and of the rest of the routine under way. -/
def Attended (S : Contract σ Unit κ A) (Idle : σ × Unit → Prop) (Pre : L → σ × Unit → Prop)
    (x : Activity σ κ A ε L H) : Prop :=
  match x.control with
  | none => Idle (x.store, ())
  | some (p, _) => Safe S (Ends Idle Pre) (fun _ => Idle) p (x.store, ())

/-- Every routine keeps the contract from its precondition, and every call from a store on which
none is under way. -/
structure Upholds (V : Service σ κ A ε L H) (S : Contract σ Unit κ A) (Idle : σ × Unit → Prop)
    (Pre : L → σ × Unit → Prop) (Admits : Activity σ κ A ε L H → Stimulus V → Prop) : Prop where
  idle : S.Holds Idle
  entry : ∀ x e, Admits x (.call e) → x.control = none → Idle (x.store, ()) →
    Safe S (Ends Idle Pre) (fun _ => Idle) (V.entry e) (x.store, ())
  body : ∀ l, Leads S (fun _ => Idle) (Pre l) (V.body l) (Ends Idle Pre)
  handle : ∀ h e, Leads S (fun _ => Idle) Idle (V.handle h e) (Ends Idle Pre)
  interfere : ∀ s i, S.Inv (s, ()) → S.rely (s, ()) (V.interfere i s, ())
  reply : ∀ x answer q, Admits x (.reply answer) → x.pending = some q →
    S.answers q (x.store, ()) () (answer q)
  restart : ∀ w, S.Inv w → Idle w

variable {x : Activity σ κ A ε L H} {i : Stimulus V}

theorem attended_of_idle (hControl : x.control = none) (h : Idle (x.store, ())) :
    Attended S Idle Pre x := by
  unfold Attended
  rw [hControl]
  exact h

theorem Attended.inv (hIdle : S.Holds Idle) (h : Attended S Idle Pre x) : S.Inv (x.store, ()) := by
  unfold Attended at h
  split at h
  · exact hIdle.inv _ h
  · exact h.inv

theorem attended_tick (hUpholds : Upholds V S Idle Pre Admits) (h : Attended S Idle Pre x) :
    Attended S Idle Pre (V.tick x) := by
  obtain ⟨store, control⟩ := x
  match control with
  | none => exact h
  | some (.ask q k, handler) => exact h
  | some (.act f k, handler) => exact (h _ (S.refl _)).2
  | some (.done .finish, handler) => exact (h _ (S.refl _)).2
  | some (.done (.goto l), handler) => exact hUpholds.body l _ (h _ (S.refl _)).2
  | some (.done (.guarded c l), handler) => exact hUpholds.body l _ (h _ (S.refl _)).2
  | some (.raise e, none) => exact (h _ (S.refl _)).2
  | some (.raise e, some c) => exact hUpholds.handle c e _ (h _ (S.refl _)).2

theorem attended_reply (hUpholds : Upholds V S Idle Pre Admits) (h : Attended S Idle Pre x)
    {answer : (q : κ) → A q} (hAdmits : Admits x (.reply answer)) :
    Attended S Idle Pre (Service.reply x answer) := by
  obtain ⟨store, control⟩ := x
  match control with
  | none => exact h
  | some (.done _, _) => exact h
  | some (.raise _, _) => exact h
  | some (.act _ _, _) => exact h
  | some (.ask q k, handler) =>
    exact (h _ (S.refl _)).2.2 () (answer q) (hUpholds.reply _ answer q hAdmits rfl)

theorem attended_interfere (hUpholds : Upholds V S Idle Pre Admits) (h : Attended S Idle Pre x)
    (i : V.Interference) : Attended S Idle Pre { x with store := V.interfere i x.store } := by
  have hRely := hUpholds.interfere x.store i (h.inv hUpholds.idle)
  unfold Attended at h ⊢
  split at h
  next hControl => exact hControl ▸ hUpholds.idle.stable _ _ h hRely
  next p handler hControl => exact hControl ▸ h.rely hRely

/-- One admitted stimulus leaves the machine in a state that satisfies the contract. -/
theorem Upholds.sound_step (hUpholds : Upholds V S Idle Pre Admits) (x : Activity σ κ A ε L H)
    (i : Stimulus V) (hAdmits : Admits x i) (h : Attended S Idle Pre x) :
    Attended S Idle Pre (V.step x i) := by
  cases i with
  | call e =>
    obtain ⟨store, control⟩ := x
    cases control with
    | none => exact hUpholds.entry ⟨store, none⟩ e hAdmits rfl h
    | some p => exact h
  | tick => exact attended_tick hUpholds h
  | reply answer => exact attended_reply hUpholds h hAdmits
  | interfere i => exact attended_interfere hUpholds h i
  | crash =>
    have hInv := h.inv hUpholds.idle
    exact hUpholds.restart _ hInv

end Runs

end Foundation
