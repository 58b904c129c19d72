import Glasslab.Contracts.Reservations
import Mathlib.Data.List.FinRange

/-!
# What version reservations guarantee
-/

namespace Glasslab.Contracts.Reservations

open Foundation Foundation.Machine List Option

variable {store : Store} {thread other : Thread} {request : Request} {version : String}

/-! ## Reservations belong to one run -/

def Marked (store : Store) : Thread → Prop
  | .allocating _ (.mark version) => (version, none) ∈ store.reservations
  | .allocating request (.returned version _) =>
    (version, some request.runId) ∈ store.reservations
  | _ => True

/-- Two calls do not mark the same directory. -/
def ApartMarks : Thread → Thread → Prop
  | .allocating _ (.mark version), .allocating _ (.mark version') => version ≠ version'
  | _, _ => True

theorem apartMarks_iff : ApartMarks thread other ↔ ∀ request version request' version',
    thread = .allocating request (.mark version) → other = .allocating request' (.mark version') →
      version ≠ version' := by
  constructor
  · rintro h request version request' version' rfl rfl
    exact h
  · intro h
    unfold ApartMarks
    split
    · exact h _ _ _ _ rfl rfl
    · trivial

theorem ApartMarks.symm (h : ApartMarks thread other) : ApartMarks other thread := by
  rw [apartMarks_iff] at h ⊢
  intro request version request' version' hOther hThread
  exact (h request' version' request version hThread hOther).symm

variable {marker : Option String}

theorem marker_unique (hNodup : store.reserved.Nodup) {marker' : Option String}
    (h : (version, marker) ∈ store.reservations) (h' : (version, marker') ∈ store.reservations) :
    marker = marker' := by
  have hEq := inj_on_of_nodup_map hNodup h h' rfl
  exact (Prod.mk.inj hEq).2

variable {runId : String}

theorem runReservation_eq_some (h : runReservation store runId = some version) :
    (version, some runId) ∈ store.reservations := by
  obtain ⟨entry, hFind, rfl⟩ := map_eq_some_iff.mp h
  have hMarker := List.find?_some hFind
  have hMem := mem_sortOn.mp (mem_of_find?_eq_some hFind)
  obtain ⟨name, marker⟩ := entry
  rwa [show marker = some runId from of_decide_eq_true hMarker] at hMem

theorem runReservation_eq_none (h : runReservation store runId = none) :
    (version, some runId) ∉ store.reservations := by
  intro hMem
  have hFind := List.find?_eq_none.mp (map_eq_none_iff.mp h) _ (mem_sortOn.mpr hMem)
  simp at hFind

theorem nodup_reserved_next (h : store.reserved.Nodup) :
    (next store thread).1.reserved.Nodup := by
  rcases next_effect store thread with hSame | ⟨_, _, candidate, -, -, hFree, hNext⟩ |
    ⟨_, _, -, hNext⟩ | ⟨_, -, -, hNext⟩
  · rwa [hSame]
  · rw [hNext, Store.reserved, map_append, map_singleton]
    exact nodup_append.mpr ⟨h, nodup_singleton _, by
      rintro a ha b hb rfl
      rw [mem_singleton.mp hb] at ha
      exact hFree ha⟩
  · rw [hNext, reserved_mark]
    exact h
  · rwa [hNext]

theorem marked_next (h : Marked store thread) :
    Marked (next store thread).1 (next store thread).2 := by
  cases thread with
  | promoting version done => cases done <;> trivial
  | allocating request stage =>
    cases stage with
    | scan =>
      simp only [next, allocateNext]
      split
      · exact runReservation_eq_some ‹_›
      · trivial
    | listPromoted => trivial
    | listReserved occupied => trivial
    | attempt occupied candidate =>
      simp only [next, allocateNext, bumpStage]
      split
      · split <;> trivial
      · split
        · split <;> trivial
        · exact mem_append_right _ mem_cons_self
    | mark version =>
      exact mem_map.mpr ⟨(version, none), h, if_pos rfl⟩
    | returned version newlyReserved => exact h
    | raised version => trivial

/-- An entry stays as it is, unless a call marks it. -/
theorem mem_reservations_next
    (h : (version, marker) ∈ store.reservations)
    (hOther : ∀ request version', thread = .allocating request (.mark version') →
      version ≠ version') : (version, marker) ∈ (next store thread).1.reservations := by
  rcases next_effect store thread with hSame | ⟨_, _, _, -, -, -, hNext⟩ |
    ⟨request, version', hThread, hNext⟩ | ⟨_, -, -, hNext⟩
  · rwa [hSame]
  · rw [hNext]
    exact mem_append_left _ h
  · rw [hNext]
    exact mem_map.mpr ⟨(version, marker), h, if_neg (hOther request version' hThread)⟩
  · rwa [hNext]

theorem marked_other (hNodup : store.reserved.Nodup) (hThread : Marked store thread)
    (hOther : Marked store other) (hApart : ApartMarks thread other) :
    Marked (next store thread).1 other := by
  cases other with
  | promoting version done => trivial
  | allocating request stage =>
    cases stage with
    | mark version =>
      refine mem_reservations_next hOther ?_
      rintro request' version' rfl
      exact (apartMarks_iff.mp hApart _ _ _ _ rfl rfl).symm
    | returned version newlyReserved =>
      refine mem_reservations_next hOther ?_
      rintro request' version' rfl rfl
      cases marker_unique hNodup hThread hOther
    | scan => trivial
    | listPromoted => trivial
    | listReserved occupied => trivial
    | attempt occupied candidate => trivial
    | raised version => trivial

theorem apartMarks_next (hOther : Marked store other) (hApart : ApartMarks thread other) :
    ApartMarks (next store thread).2 other := by
  rw [apartMarks_iff]
  rintro request version request' version' hNext rfl
  cases thread with
  | promoting version done => cases done <;> cases hNext
  | allocating request₀ stage =>
    cases stage with
    | attempt occupied candidate =>
      simp only [next, allocateNext, bumpStage] at hNext
      split at hNext
      · split at hNext <;> cases hNext
      · split at hNext
        · split at hNext <;> cases hNext
        · cases hNext
          rename_i hFree
          rintro rfl
          exact hFree (mem_map.mpr ⟨_, hOther, rfl⟩)
    | scan =>
      simp only [next, allocateNext] at hNext
      split at hNext <;> cases hNext
    | listPromoted => cases hNext
    | listReserved occupied => cases hNext
    | mark version => cases hNext
    | returned version newlyReserved => cases hNext
    | raised version => cases hNext

def Reserved : Threads Store Thread → Prop :=
  Threads.Holds (fun store => store.reserved.Nodup) Marked ApartMarks

theorem reserved_initial : Reserved initial := by
  refine ⟨nodup_nil, fun i l h => ?_, fun i j l m _ h => ?_⟩
  · cases h
  · cases h

theorem reserved_step (s : Threads Store Thread) (move : Move Call) (hs : Reserved s) :
    Reserved (program.step s move) := by
  cases move with
  | call call =>
    cases call with
    | allocate request => exact hs.call trivial fun m => ⟨trivial, by cases m with
      | promoting version done => trivial
      | allocating request stage => cases stage <;> trivial⟩
    | promote version => exact hs.call trivial fun m => ⟨trivial, by cases m with
      | promoting version done => trivial
      | allocating request stage => cases stage <;> trivial⟩
  | step i =>
    cases hThread : s.locals[i]? with
    | none => rwa [Program.step_of_none hThread]
    | some thread =>
      have hOwn := hs.own i thread hThread
      refine hs.step hThread ⟨nodup_reserved_next hs.shared, marked_next hOwn⟩ ?_
      intro j other _ _ hApart hOther
      have hStill := apartMarks_next hOther hApart
      exact ⟨marked_other hs.shared hOwn hOther hApart, hStill, hStill.symm⟩

def OneRun (s : Threads Store Thread) : Prop :=
  ∀ (i j : Nat) request request' version newly newly',
    s.locals[i]? = some (.allocating request (.returned version newly)) →
      s.locals[j]? = some (.allocating request' (.returned version newly')) →
        request.runId = request'.runId

theorem oneRun (moves : List (Move Call)) : OneRun (after moves) := by
  intro i j request request' version newly newly' hi hj
  have hInv : Reserved (after moves) := exec_invariant moves reserved_step reserved_initial
  have hMarker := marker_unique hInv.shared (hInv.own i _ hi) (hInv.own j _ hj)
  exact Option.some.inj hMarker

/-! ## Every call ends -/

def Thread.finished : Thread → Bool
  | .allocating _ (.returned _ _) | .allocating _ (.raised _) => true
  | .allocating _ _ => false
  | .promoting _ done => done

def Store.taken (store : Store) : List String := store.promoted ++ store.reserved

theorem taken_next (h : version ∈ store.taken) : version ∈ (next store thread).1.taken := by
  rcases mem_append.mp h with h | h
  · exact mem_append_left _ (promoted_next h)
  · exact mem_append_right _ (reserved_next h)

theorem length_taken_next : store.taken.length ≤ (next store thread).1.taken.length := by
  simp only [Store.taken, Store.reserved, length_append, length_map]
  rcases next_effect store thread with hSame | ⟨_, _, _, -, -, -, hNext⟩ | ⟨_, _, -, hNext⟩ |
    ⟨_, -, -, hNext⟩
  · rw [hSame]
  · rw [hNext]
    simp
  · rw [hNext]
    simp
  · rw [hNext]
    simp

/-- Where a call can be after `n` of its steps. In the loop, every version it has bumped past is
taken. -/
def Taken (n : Nat) (store : Store) : Thread → Prop
  | .allocating _ .scan => n ≤ 0
  | .allocating _ .listPromoted => n ≤ 1
  | .allocating _ (.listReserved occupied) => n ≤ 2 ∧ ∀ v ∈ occupied, v ∈ store.taken
  | .allocating request (.attempt occupied candidate) =>
    ∃ k, n ≤ 3 + k ∧ bumps request.requestedVersion k = some candidate ∧
      (∀ j < k, ∀ v, bumps request.requestedVersion j = some v → v ∈ occupied) ∧
      ∀ v ∈ occupied, v ∈ store.taken
  | .allocating _ (.mark _) => n ≤ 4 + store.taken.length
  | .promoting _ false => n ≤ 0
  | _ => True

variable {candidate : String} {j k n i : Nat} {requested : String}

theorem isSome_bumps_of_le (hjk : j ≤ k)
    (h : bumps requested k = some candidate) : ∃ v, bumps requested j = some v := by
  induction k generalizing candidate with
  | zero =>
    obtain rfl : j = 0 := by omega
    exact ⟨candidate, h⟩
  | succ k ih =>
    obtain ⟨before, hBefore, -⟩ := bind_eq_some_iff.mp h
    by_cases hj : j = k + 1
    · subst hj
      exact ⟨candidate, h⟩
    · exact ih (by omega) hBefore

/-- A call cannot bump past more versions than are taken. -/
theorem bumps_le_length {occupied taken : List String}
    (h : bumps requested k = some candidate)
    (hPast : ∀ j < k, ∀ v, bumps requested j = some v → v ∈ occupied)
    (hTaken : ∀ v ∈ occupied, v ∈ taken) : k ≤ taken.length := by
  have hGet (j : Fin k) : ∃ v, bumps requested j = some v :=
    isSome_bumps_of_le (Nat.le_of_lt j.isLt) h
  choose f hf using hGet
  have hInjective : Function.Injective f := by
    intro a b hab
    exact Fin.ext (bumps_injective (hf a) (hab ▸ hf b))
  have hNodup : (List.ofFn f).Nodup := nodup_ofFn.mpr hInjective
  have hSubset : List.ofFn f ⊆ taken := by
    intro v hv
    obtain ⟨j, rfl⟩ := mem_ofFn.mp hv
    exact hTaken _ (hPast j j.isLt _ (hf j))
  have hLength := (subperm_of_subset hNodup hSubset).length_le
  rwa [length_ofFn] at hLength

theorem taken_bump {occupied : List String}
    (hn : n ≤ 3 + k) (hk : bumps request.requestedVersion k = some candidate)
    (hPast : ∀ j < k, ∀ v, bumps request.requestedVersion j = some v → v ∈ occupied)
    (hTaken : ∀ v ∈ occupied, v ∈ store.taken) (hOccupied : candidate ∈ occupied) :
    Taken (n + 1) store (.allocating request (bumpStage occupied candidate)) := by
  rw [bumpStage]
  cases hBump : bumpPatch candidate with
  | none => trivial
  | some bumped =>
    refine ⟨k + 1, by omega, ?_, fun j hj v hv => ?_, hTaken⟩
    · rw [bumps, hk, bind_some, hBump]
    · by_cases hLast : j = k
      · subst hLast
        rw [hk] at hv
        exact Option.some.inj hv ▸ hOccupied
      · exact hPast j (by omega) v hv

theorem taken_own (h : Taken n store thread) :
    Taken (n + 1) (next store thread).1 (next store thread).2 := by
  cases thread with
  | promoting version done => cases done <;> trivial
  | allocating request stage =>
    cases stage with
    | scan =>
      have hn : n ≤ 0 := h
      simp only [next, allocateNext]
      split
      · trivial
      · show n + 1 ≤ 1
        omega
    | listPromoted =>
      have hn : n ≤ 1 := h
      refine ⟨?_, fun v hv => mem_append_left _ hv⟩
      omega
    | listReserved occupied =>
      obtain ⟨hn, hOccupied⟩ := h
      refine ⟨0, by omega, rfl, fun j hj => absurd hj (Nat.not_lt_zero j), fun v hv => ?_⟩
      rcases mem_append.mp hv with hv | hv
      · exact hOccupied v hv
      · exact mem_append_right _ hv
    | attempt occupied candidate =>
      obtain ⟨k, hn, hk, hPast, hTaken⟩ := h
      simp only [next, allocateNext]
      split
      · exact taken_bump hn hk hPast hTaken ‹_›
      · split
        · refine taken_bump hn hk (fun j hj v hv => mem_cons_of_mem _ (hPast j hj v hv)) ?_
            mem_cons_self
          intro v hv
          rcases mem_cons.mp hv with rfl | hv
          · exact mem_append_right _ ‹_›
          · exact hTaken v hv
        · have hLength := bumps_le_length hk hPast hTaken
          show n + 1 ≤ 4 + _
          simp only [Store.taken, Store.reserved, length_append, length_map,
            length_singleton] at hLength ⊢
          omega
    | mark version => trivial
    | returned version newlyReserved => trivial
    | raised version => trivial

theorem taken_other (h : Taken n store other) : Taken n (next store thread).1 other := by
  cases other with
  | promoting version done => cases done <;> exact h
  | allocating request stage =>
    cases stage with
    | listReserved occupied => exact ⟨h.1, fun v hv => taken_next (h.2 v hv)⟩
    | attempt occupied candidate =>
      obtain ⟨k, hn, hk, hPast, hTaken⟩ := h
      exact ⟨k, hn, hk, hPast, fun v hv => taken_next (hTaken v hv)⟩
    | mark version =>
      have hn : n ≤ 4 + store.taken.length := h
      exact hn.trans (Nat.add_le_add_left length_taken_next 4)
    | scan => exact h
    | listPromoted => exact h
    | returned version newlyReserved => trivial
    | raised version => trivial

theorem Taken.le (h : Taken n store thread) (hUnfinished : thread.finished = false) :
    n ≤ 4 + store.taken.length := by
  cases thread with
  | promoting version done =>
    cases done with
    | true => cases hUnfinished
    | false =>
      have hn : n ≤ 0 := h
      omega
  | allocating request stage =>
    cases stage with
    | scan =>
      have hn : n ≤ 0 := h
      omega
    | listPromoted =>
      have hn : n ≤ 1 := h
      omega
    | listReserved occupied =>
      have hn := h.1
      omega
    | attempt occupied candidate =>
      obtain ⟨k, hn, hk, hPast, hTaken⟩ := h
      have hLength := bumps_le_length hk hPast hTaken
      omega
    | mark version => exact h
    | returned version newlyReserved => cases hUnfinished
    | raised version => cases hUnfinished

/-- How many steps of call `i` a history has. -/
def stepsOf (i : Nat) (moves : List (Move Call)) : Nat :=
  moves.countP fun
    | .step j => j = i
    | .call _ => false

variable {s : Threads Store Thread}

theorem taken_exec (moves : List (Move Call))
    (h : ∃ thread, s.locals[i]? = some thread ∧ Taken n s.shared thread) :
    ∃ thread, (exec program.step s moves).locals[i]? = some thread ∧
      Taken (n + stepsOf i moves) (exec program.step s moves).shared thread := by
  induction moves generalizing s n with
  | nil => exact h
  | cons move moves ih =>
    obtain ⟨thread, hThread, hTaken⟩ := h
    have hLength := (List.getElem?_eq_some_iff.mp hThread).1
    cases move with
    | call call =>
      refine ih ⟨thread, ?_, hTaken⟩
      rw [Program.step_call, List.getElem?_append_left hLength]
      exact hThread
    | step j =>
      by_cases hj : j = i
      · subst hj
        have hOwn : ∃ thread', (program.step s (.step j)).locals[j]? = some thread' ∧
            Taken (n + 1) (program.step s (.step j)).shared thread' := by
          rw [Program.step_of_getElem? hThread]
          exact ⟨_, List.getElem?_set_self hLength, taken_own hTaken⟩
        have hRest := ih hOwn
        have hCount : n + 1 + stepsOf j moves = n + stepsOf j (.step j :: moves) := by
          simp only [stepsOf, countP_cons, decide_true, if_true]
          omega
        rwa [hCount] at hRest
      · have hOther : ∃ thread', (program.step s (.step j)).locals[i]? = some thread' ∧
            Taken n (program.step s (.step j)).shared thread' := by
          cases hMoving : s.locals[j]? with
          | none =>
            rw [Program.step_of_none hMoving]
            exact ⟨thread, hThread, hTaken⟩
          | some moving =>
            rw [Program.step_of_getElem? hMoving]
            refine ⟨thread, ?_, taken_other hTaken⟩
            exact (List.getElem?_set_ne hj).trans hThread
        have hRest := ih hOther
        have hCount : stepsOf i (.step j :: moves) = stepsOf i moves := by
          simp only [stepsOf, countP_cons, hj, decide_false]
          rfl
        rwa [hCount]

def Thread.made : Thread → Nat
  | .allocating _ (.mark _) | .allocating _ (.returned _ true) => 1
  | .allocating _ _ => 0
  | .promoting _ done => done.toNat

theorem Thread.made_le (thread : Thread) : thread.made ≤ 1 := by
  cases thread with
  | promoting version done => cases done <;> simp [made]
  | allocating request stage =>
    cases stage with
    | returned version newly => cases newly <;> simp [made]
    | _ => simp [made]

theorem length_taken_made : (next store thread).1.taken.length + thread.made ≤
    store.taken.length + (next store thread).2.made := by
  simp only [Store.taken, Store.reserved, length_append, length_map]
  rcases next_effect store thread with hSame | ⟨_, _, _, rfl, -, -, hNext⟩ | ⟨_, _, rfl, hNext⟩ |
    ⟨_, rfl, -, hNext⟩
  · rw [hSame]
    cases thread with
    | promoting version done => cases done <;> simp [next, Thread.made]
    | allocating request stage =>
      cases stage with
      | mark version => simp [next, allocateNext, Thread.made]
      | returned version newly => simp [next, allocateNext]
      | _ => simp [Thread.made]
  · rw [hNext]
    simp only [length_append, length_singleton, Thread.made]
    omega
  · rw [hNext]
    simp [Thread.made]
  · rw [hNext]
    simp only [length_append, length_singleton, Thread.made, Bool.toNat_true,
      Bool.toNat_false]
    omega

theorem length_taken_le (moves : List (Move Call)) :
    (after moves).shared.taken.length ≤ (after moves).locals.length := by
  have hStep (s : Threads Store Thread) (move : Move Call)
      (hs : s.shared.taken.length ≤ (s.locals.map Thread.made).sum) :
      (program.step s move).shared.taken.length ≤
        ((program.step s move).locals.map Thread.made).sum := by
    cases move with
    | call call =>
      rw [Program.step_call, map_append, sum_append]
      exact hs.trans (Nat.le_add_right _ _)
    | step i =>
      cases hThread : s.locals[i]? with
      | none => rwa [Program.step_of_none hThread]
      | some thread =>
        have hSum : ((program.step s (.step i)).locals.map Thread.made).sum + thread.made =
            (s.locals.map Thread.made).sum + (next s.shared thread).2.made :=
          Program.sum_locals_step Thread.made hThread
        have hShared : (program.step s (.step i)).shared = (next s.shared thread).1 := by
          rw [Program.step_of_getElem? hThread]
          rfl
        have hMade : (next s.shared thread).1.taken.length + thread.made ≤
            s.shared.taken.length + (next s.shared thread).2.made := length_taken_made
        rw [hShared]
        omega
  have hSum : (after moves).shared.taken.length ≤
      ((after moves).locals.map Thread.made).sum :=
    exec_invariant moves hStep (Nat.zero_le _)
  have hOne (threads : List Thread) : (threads.map Thread.made).sum ≤ threads.length := by
    induction threads with
    | nil => exact Nat.le_refl 0
    | cons thread threads ih =>
      have hMade := thread.made_le
      rw [map_cons, sum_cons, length_cons]
      omega
  exact hSum.trans (hOne _)

/-- A call that has taken more steps than there are calls, and four more, has ended. -/
def Terminates (moves : List (Move Call)) : Prop :=
  ∀ before call later, before ++ .call call :: later = moves →
    ∃ thread, (after moves).locals[(after before).locals.length]? = some thread ∧
      (thread.finished = true ∨
        stepsOf (after before).locals.length later ≤ 4 + (after moves).locals.length)

theorem terminates (moves : List (Move Call)) : Terminates moves := by
  rintro before call later rfl
  have hNew : ∃ thread, (program.step (after before) (.call call)).locals[
      (after before).locals.length]? = some thread ∧
      Taken 0 (program.step (after before) (.call call)).shared thread := by
    rw [Program.step_call]
    refine ⟨program.enter call, by simp, ?_⟩
    cases call <;> exact Nat.le_refl 0
  obtain ⟨thread, hThread, hTaken⟩ := taken_exec later hNew
  have hAfter : exec program.step (program.step (after before) (.call call)) later =
      after (before ++ .call call :: later) := by
    rw [after, after, exec_append, exec_cons]
  rw [hAfter, Nat.zero_add] at hTaken
  rw [hAfter] at hThread
  refine ⟨thread, hThread, ?_⟩
  cases hFinished : thread.finished with
  | true => exact .inl rfl
  | false =>
    have hSteps := hTaken.le hFinished
    have hCalls := length_taken_le (before ++ .call call :: later)
    exact .inr (by omega)

/-! ## Promotions between listing and reserving -/

/-- The versions that a call takes to be occupied, from its listing of the promoted ones on. -/
def Thread.occupied? : Thread → Option (List String)
  | .allocating _ (.listReserved occupied) | .allocating _ (.attempt occupied _) => some occupied
  | _ => none

def Thread.promotes? : Thread → Option String
  | .promoting version false => some version
  | _ => none

/-- A version is promoted under its reservation, or while no call that has listed the promoted
versions without it is still looking. -/
def PromotionsApart (s : Threads Store Thread) : Move Call → Prop
  | .call _ => True
  | .step i =>
    (s.locals[i]?.bind Thread.promotes?).all (fun version =>
      version ∈ s.shared.reserved ∨
        ∀ thread ∈ s.locals, thread.occupied?.all (fun occupied => version ∈ occupied)) = true

instance (s : Threads Store Thread) : (move : Move Call) → Decidable (PromotionsApart s move)
  | .call _ => .isTrue trivial
  | .step _ => inferInstanceAs (Decidable (_ = true))

/-- A call that is looking knows all promoted versions, or finds them reserved. -/
def Aware (store : Store) (thread : Thread) : Prop :=
  ∀ occupied, thread.occupied? = some occupied →
    ∀ version ∈ store.promoted, version ∈ occupied ∨ version ∈ store.reserved

theorem aware_own (h : Aware store thread) : Aware (next store thread).1 (next store thread).2 := by
  intro occupied hOccupied version hPromoted
  cases thread with
  | promoting version done => cases done <;> cases hOccupied
  | allocating request stage =>
    cases stage with
    | scan =>
      simp only [next, allocateNext] at hOccupied
      split at hOccupied <;> cases hOccupied
    | listPromoted =>
      cases hOccupied
      exact .inl hPromoted
    | listReserved listed =>
      cases hOccupied
      rcases h listed rfl version hPromoted with hListed | hReserved
      · exact .inl (mem_append_left _ hListed)
      · exact .inr hReserved
    | attempt listed candidate =>
      have hKnown := h listed rfl version
      simp only [next, allocateNext, bumpStage] at hOccupied hPromoted ⊢
      split at hOccupied
      · rename_i hIn
        rw [if_pos hIn] at hPromoted ⊢
        split at hOccupied
        · cases hOccupied
        · cases hOccupied
          exact hKnown hPromoted
      · rename_i hIn
        split at hOccupied
        · rename_i hReserved
          rw [if_neg hIn, if_pos hReserved] at hPromoted ⊢
          split at hOccupied
          · cases hOccupied
          · cases hOccupied
            exact (hKnown hPromoted).imp_left (mem_cons_of_mem _)
        · cases hOccupied
    | mark version => cases hOccupied
    | returned version newlyReserved => cases hOccupied
    | raised version => cases hOccupied

theorem aware_other (h : Aware store other)
    (hPromotion : ∀ version, thread = .promoting version false → version ∈ store.reserved ∨
      (other.occupied?.all fun occupied => version ∈ occupied) = true) :
    Aware (next store thread).1 other := by
  intro occupied hOccupied version hPromoted
  have hKept (hOld : version ∈ store.promoted) :
      version ∈ occupied ∨ version ∈ (next store thread).1.reserved :=
    (h occupied hOccupied version hOld).imp_right reserved_next
  rcases next_effect store thread with hSame | ⟨_, _, _, -, -, -, hNext⟩ | ⟨_, _, -, hNext⟩ |
    ⟨new, hThread, -, hNext⟩
  · rw [hSame] at hPromoted
    exact hKept hPromoted
  · rw [hNext] at hPromoted
    exact hKept hPromoted
  · rw [hNext] at hPromoted
    exact hKept hPromoted
  · have hMem : version ∈ store.promoted ++ [new] := by
      rw [hNext] at hPromoted
      exact hPromoted
    rcases mem_append.mp hMem with hOld | hNew
    · exact hKept hOld
    · obtain rfl := mem_singleton.mp hNew
      rcases hPromotion version hThread with hReserved | hKnown
      · exact .inr (reserved_next hReserved)
      · rw [hOccupied, all_some, decide_eq_true_iff] at hKnown
        exact .inl hKnown

def AllAware : Threads Store Thread → Prop :=
  Threads.Holds (fun _ => True) Aware fun _ _ => True

theorem allAware_step (s : Threads Store Thread) (move : Move Call)
    (hMove : PromotionsApart s move) (hs : AllAware s) : AllAware (program.step s move) := by
  cases move with
  | call call =>
    refine hs.call ?_ fun _ => ⟨trivial, trivial⟩
    intro occupied hOccupied
    cases call <;> cases hOccupied
  | step i =>
    cases hThread : s.locals[i]? with
    | none => rwa [Program.step_of_none hThread]
    | some thread =>
      refine hs.step hThread ⟨trivial, aware_own (hs.own i thread hThread)⟩ ?_
      intro j other _ hOther _ hAware
      refine ⟨aware_other hAware ?_, trivial, trivial⟩
      rintro version rfl
      rw [PromotionsApart, hThread, bind_some, Thread.promotes?, all_some,
        decide_eq_true_iff] at hMove
      exact hMove.imp_right fun h => h other (mem_of_getElem? hOther)

def NeverPromotedBefore (moves : List (Move Call)) : Prop :=
  ∀ before i later version, before ++ .step i :: later <+: moves →
    version ∉ (after before).shared.reserved →
    version ∈ (after (before ++ [.step i])).shared.reserved →
    version ∈ (after before).shared.promoted →
      ∀ request newly, .allocating request (.returned version newly) ∉
        (after (before ++ .step i :: later)).locals

theorem neverPromotedBefore {moves : List (Move Call)}
    (h : Along program.step PromotionsApart initial moves) : NeverPromotedBefore moves := by
  intro before i later version hPrefix hFree hReserved hPromoted
  -- the call that reserves the version knew it to be promoted
  have hAware : AllAware (after before) :=
    h.invariant_prefix allAware_step ⟨trivial, nofun, fun _ _ _ _ _ _ _ => trivial⟩
      ((prefix_append before _).trans hPrefix)
  exfalso
  rw [after, exec_append, exec_cons, exec_nil] at hReserved
  cases hThread : (after before).locals[i]? with
  | none =>
    have hSame : program.step (exec program.step initial before) (.step i) = after before :=
      Program.step_of_none hThread
    rw [hSame] at hReserved
    exact hFree hReserved
  | some thread =>
    have hShared : (program.step (exec program.step initial before) (.step i)).shared =
        (next (after before).shared thread).1 :=
      congrArg Threads.shared (Program.step_of_getElem? (P := program) hThread)
    rw [hShared] at hReserved
    rcases next_effect (after before).shared thread with hSame |
      ⟨request, occupied, candidate, rfl, hOccupied, hNotReserved, hNext⟩ | ⟨_, _, -, hNext⟩ |
      ⟨_, -, -, hNext⟩
    · rw [hSame] at hReserved
      exact hFree hReserved
    · rw [hNext, Store.reserved, map_append] at hReserved
      rcases mem_append.mp hReserved with hOld | hNew
      · exact hFree hOld
      · obtain rfl : version = candidate := mem_singleton.mp hNew
        rcases hAware.own i _ hThread occupied rfl version hPromoted with hKnown | hKnown
        · exact hOccupied hKnown
        · exact hNotReserved hKnown
    · rw [hNext, reserved_mark] at hReserved
      exact hFree hReserved
    · rw [hNext] at hReserved
      exact hFree hReserved

/-! ## Later calls of a run -/

def Thread.run? : Thread → Option String
  | .allocating request _ => some request.runId
  | .promoting _ _ => none

/-- The call has found no reservation of its run, and has not ended. -/
def Stage.active : Stage → Bool
  | .listPromoted | .listReserved _ | .attempt _ _ | .mark _ => true
  | _ => false

/-- A call takes no step after a later call of the same run has begun, unless it has ended. -/
def SequentialRuns (s : Threads Store Thread) : Move Call → Prop
  | .call _ => True
  | .step i =>
    s.locals[i]?.all (fun thread => thread.finished ∨
      ∀ later ∈ s.locals.drop (i + 1), thread.run? = none ∨ later.run? ≠ thread.run?) = true

instance (s : Threads Store Thread) : (move : Move Call) → Decidable (SequentialRuns s move)
  | .call _ => .isTrue trivial
  | .step _ => inferInstanceAs (Decidable (_ = true))

theorem SequentialRuns.apart {later : Thread} {stage : Stage}
    (h : SequentialRuns s (.step i)) (hi : s.locals[i]? = some (.allocating request stage))
    (hUnfinished : (Thread.allocating request stage).finished = false) (hij : i < j)
    (hj : s.locals[j]? = some later) : later.run? ≠ some request.runId := by
  rw [SequentialRuns, hi, all_some, decide_eq_true_iff, hUnfinished] at h
  have hMem : later ∈ s.locals.drop (i + 1) := by
    refine mem_iff_getElem?.mpr ⟨j - (i + 1), ?_⟩
    rw [List.getElem?_drop, Nat.add_sub_cancel' hij]
    exact hj
  rcases h with h | h
  · cases h
  · rcases h later hMem with hNone | hNe
    · cases hNone
    · exact hNe

theorem marker_next
    (h : (version, some runId) ∈ (next store thread).1.reservations) :
    (version, some runId) ∈ store.reservations ∨
      ∃ request, thread = .allocating request (.mark version) ∧ request.runId = runId := by
  rcases next_effect store thread with hSame | ⟨_, _, candidate, -, -, -, hNext⟩ |
    ⟨request, marked, hThread, hNext⟩ | ⟨_, -, -, hNext⟩
  · rw [hSame] at h
    exact .inl h
  · rw [hNext] at h
    rcases mem_append.mp h with h | h
    · exact .inl h
    · cases mem_singleton.mp h
  · rw [hNext] at h
    obtain ⟨entry, hEntry, hEq⟩ := mem_map.mp h
    split at hEq
    · obtain ⟨rfl, hRun⟩ := Prod.mk.inj hEq
      exact .inr ⟨request, hThread, Option.some.inj hRun⟩
    · exact .inl (hEq ▸ hEntry)
  · rw [hNext] at h
    exact .inl h

def UniqueMarks (store : Store) : Prop :=
  ∀ version version' runId, (version, some runId) ∈ store.reservations →
    (version', some runId) ∈ store.reservations → version = version'

theorem runReservation_of_mem (hUnique : UniqueMarks store)
    (h : (version, some request.runId) ∈ store.reservations) :
    runReservation store request.runId = some version := by
  cases hFound : runReservation store request.runId with
  | none => exact absurd h (runReservation_eq_none hFound)
  | some found => rw [hUnique found version _ (runReservation_eq_some hFound) h]

/-- The threads of a run, in their order: at most the newest is at work, and what an older one has
returned is what a newer one returns. -/
structure Ordered (s : Threads Store Thread) : Prop where
  reserved : Reserved s
  unique : UniqueMarks s.shared
  newest : ∀ (i : Nat) request stage, s.locals[i]? = some (.allocating request stage) →
    stage.active = true → ∀ version, (version, some request.runId) ∈ s.shared.reservations →
      ∃ j later, i < j ∧ s.locals[j]? = some later ∧ later.run? = some request.runId
  later : ∀ (i j : Nat) request request' version newly stage, i < j →
    s.locals[i]? = some (.allocating request (.returned version newly)) →
    s.locals[j]? = some (.allocating request' stage) → request.runId = request'.runId →
      stage = .scan ∨ ∃ newly', stage = .returned version newly'

theorem ordered_initial : Ordered initial := by
  refine ⟨reserved_initial, fun _ _ _ h => ?_, fun i _ _ h => ?_, fun i j _ _ _ _ _ _ h => ?_⟩
  · cases h
  · cases h
  · cases h

theorem ordered_call (call : Call) (hs : Ordered s) :
    Ordered (program.step s (.call call)) := by
  have hOld {j : Nat} {thread : Thread} (h : s.locals[j]? = some thread) :
      (program.step s (.call call)).locals[j]? = some thread := by
    rw [Program.step_call, List.getElem?_append_left (List.getElem?_eq_some_iff.mp h).1]
    exact h
  have hNew {request : Request} {stage : Stage}
      (h : Thread.allocating request stage = program.enter call) : stage = .scan := by
    cases call with
    | allocate request => cases h; rfl
    | promote version => cases h
  refine ⟨reserved_step s _ hs.reserved, hs.unique, ?_, ?_⟩
  · intro i request stage hi hActive version hMarker
    rcases Program.locals_call hi with hi | ⟨-, hEnter⟩
    · obtain ⟨j, thread, hij, hj, hRun⟩ := hs.newest i request stage hi hActive version hMarker
      exact ⟨j, thread, hij, hOld hj, hRun⟩
    · rw [hNew hEnter] at hActive
      cases hActive
  · intro i j request request' version newly stage hij hi hj hRun
    rcases Program.locals_call hj with hj | ⟨-, hEnter⟩
    · rcases Program.locals_call hi with hi | ⟨-, hEnter⟩
      · exact hs.later i j request request' version newly stage hij hi hj hRun
      · cases hNew hEnter
    · exact .inl (hNew hEnter)

theorem run?_next : (next store thread).2.run? = thread.run? := by
  cases thread with
  | allocating request stage => rfl
  | promoting version done => cases done <;> rfl

theorem finished_next (h : thread.finished = true) : next store thread = (store, thread) := by
  cases thread with
  | promoting version done =>
    cases done with
    | true => rfl
    | false => cases h
  | allocating request stage =>
    cases stage with
    | returned version newly => rfl
    | raised version => rfl
    | _ => cases h

theorem ordered_step (hMove : SequentialRuns s (.step i))
    (hs : Ordered s) : Ordered (program.step s (.step i)) := by
  cases hThread : s.locals[i]? with
  | none => rwa [Program.step_of_none hThread]
  | some thread =>
    have hShared : (program.step s (.step i)).shared = (next s.shared thread).1 :=
      congrArg Threads.shared (Program.step_of_getElem? hThread)
    have hNewer {j : Nat} {later : Thread} (h : s.locals[j]? = some later) :
        ∃ later', (program.step s (.step i)).locals[j]? = some later' ∧
          later'.run? = later.run? := by
      rw [Program.step_of_getElem? hThread]
      by_cases hj : i = j
      · subst hj
        obtain rfl := Option.some.inj (hThread.symm.trans h)
        exact ⟨_, List.getElem?_set_self (List.getElem?_eq_some_iff.mp h).1, run?_next⟩
      · exact ⟨later, (List.getElem?_set_ne hj).trans h, rfl⟩
    -- a call that marks is the newest of its run, and so the first to be marked
    have hFirst {request : Request} {marked version : String}
        (hMark : thread = .allocating request (.mark marked))
        (hMarker : (version, some request.runId) ∈ s.shared.reservations) : False := by
      subst hMark
      obtain ⟨j, later, hij, hj, hRun⟩ := hs.newest i request _ hThread rfl version hMarker
      exact hMove.apart hThread rfl hij hj hRun
    refine ⟨reserved_step s _ hs.reserved, ?_, ?_, ?_⟩
    · rw [hShared]
      intro version version' runId h h'
      rcases marker_next h with h | ⟨request, hMark, rfl⟩
      · rcases marker_next h' with h' | ⟨request, hMark, rfl⟩
        · exact hs.unique version version' runId h h'
        · exact absurd h fun h => hFirst hMark h
      · rcases marker_next h' with h' | ⟨request', hMark', -⟩
        · exact absurd h' fun h' => hFirst hMark h'
        · cases hMark.symm.trans hMark'
          rfl
    · intro k request stage hk hActive version hMarker
      rw [hShared] at hMarker
      rcases Program.locals_step hThread hk with ⟨rfl, hEq⟩ | ⟨hNe, hk⟩
      · -- the call itself: it was active, or it has found no reservation
        cases thread with
        | promoting version done => cases done <;> cases hEq
        | allocating request₀ before =>
          obtain ⟨rfl, hStage⟩ := Thread.allocating.inj hEq
          have hWas : before.active = true := by
            cases before with
            | scan =>
              have hNone : runReservation s.shared request.runId = none := by
                cases hFound : runReservation s.shared request.runId with
                | none => rfl
                | some found =>
                  simp only [allocateNext, hFound] at hStage
                  rw [hStage] at hActive
                  cases hActive
              rcases marker_next hMarker with hMarker | ⟨_, hMark, -⟩
              · exact absurd hMarker (runReservation_eq_none hNone)
              · cases hMark
            | returned version newly =>
              rw [hStage] at hActive
              cases hActive
            | raised version =>
              rw [hStage] at hActive
              cases hActive
            | _ => rfl
          rcases marker_next hMarker with hMarker | ⟨request', hMark, -⟩
          · obtain ⟨j, later, hij, hj, hRun⟩ :=
              hs.newest i request before hThread hWas version hMarker
            obtain ⟨later', hLater, hSame⟩ := hNewer hj
            exact ⟨j, later', hij, hLater, hSame.trans hRun⟩
          · obtain ⟨-, rfl⟩ := Thread.allocating.inj hMark
            rw [hStage] at hActive
            cases hActive
      · rcases marker_next hMarker with hMarker | ⟨request', rfl, hRun⟩
        · obtain ⟨j, later, hij, hj, hRun⟩ := hs.newest k request stage hk hActive version hMarker
          obtain ⟨later', hLater, hSame⟩ := hNewer hj
          exact ⟨j, later', hij, hLater, hSame.trans hRun⟩
        · -- the call that marks is the newer one
          have hki : k < i := by
            by_contra hNot
            have hApart := hMove.apart hThread rfl (by omega) hk
            exact hApart (congrArg some hRun.symm)
          obtain ⟨later', hLater, hSame⟩ := hNewer hThread
          exact ⟨i, later', hki, hLater, hSame.trans (congrArg some hRun)⟩
    · intro k j request request' version newly stage hkj hk hj hRun
      rcases Program.locals_step hThread hk with ⟨rfl, hEq⟩ | ⟨hNe, hk⟩
      · cases hFinished : thread.finished with
        | true =>
          -- it had ended before, so nothing has moved
          have hSame : (program.next s.shared thread).2 = thread :=
            congrArg Prod.snd (finished_next hFinished)
          rw [hSame] at hEq
          subst hEq
          rcases Program.locals_step hThread hj with ⟨rfl, -⟩ | ⟨-, hj⟩
          · omega
          · exact hs.later i j request request' version newly stage hkj hThread hj hRun
        | false =>
          rcases Program.locals_step hThread hj with ⟨rfl, -⟩ | ⟨-, hj⟩
          · omega
          · cases thread with
            | promoting version done => cases done <;> cases hEq
            | allocating request₀ before =>
              obtain ⟨rfl, -⟩ := Thread.allocating.inj hEq
              exact absurd (congrArg some hRun.symm) (hMove.apart hThread hFinished hkj hj)
      · rcases Program.locals_step hThread hj with ⟨rfl, hEq⟩ | ⟨-, hj⟩
        · cases thread with
          | promoting version done => cases done <;> cases hEq
          | allocating request₀ before =>
            obtain ⟨rfl, hStage⟩ := Thread.allocating.inj hEq
            rcases hs.later k i request request' version newly before hkj hk hThread hRun with
              rfl | ⟨newly', rfl⟩
            · have hMarker := hs.reserved.own k _ hk
              rw [Marked, hRun] at hMarker
              have hFound := runReservation_of_mem hs.unique hMarker
              simp only [allocateNext, hFound] at hStage
              exact .inr ⟨false, hStage⟩
            · exact .inr ⟨newly', hStage⟩
        · exact hs.later k j request request' version newly stage hkj hk hj hRun

/-- A call of a run that follows one that has returned: it has returned the same version, or it has
taken no step yet, and its first step returns that version. -/
def Repeats (s : Threads Store Thread) : Prop :=
  ∀ (i j : Nat) request request' version newly stage, i < j →
    s.locals[i]? = some (.allocating request (.returned version newly)) →
    s.locals[j]? = some (.allocating request' stage) → request.runId = request'.runId →
      (stage = .scan ∧ next s.shared (.allocating request' stage) =
        (s.shared, .allocating request' (.returned version false))) ∨
      ∃ newly', stage = .returned version newly'

theorem Ordered.repeats (hs : Ordered s) : Repeats s := by
  intro i j request request' version newly stage hij hi hj hRun
  rcases hs.later i j request request' version newly stage hij hi hj hRun with rfl | hReturned
  · refine .inl ⟨rfl, ?_⟩
    have hMarker := hs.reserved.own i _ hi
    rw [Marked, hRun] at hMarker
    have hFound := runReservation_of_mem hs.unique hMarker
    simp only [next, allocateNext, hFound]
  · exact .inr hReturned

theorem repeats {moves before : List (Move Call)}
    (h : Along program.step SequentialRuns initial moves) (hBefore : before <+: moves) :
    Repeats (after before) := by
  have hStep (s : Threads Store Thread) (move : Move Call) (hMove : SequentialRuns s move)
      (hs : Ordered s) : Ordered (program.step s move) := by
    cases move with
    | call call => exact ordered_call call hs
    | step i => exact ordered_step hMove hs
  exact (h.invariant_prefix hStep ordered_initial hBefore).repeats

/-- In every history of calls for one contract, no version is returned to two runs and every call
ends. A version that was promoted when it was reserved is not returned if promotions keep out of
the time between the listing of a call and its reservation, and a later call of a run returns the
version that the run has if the calls of a run follow one another. -/
theorem reservations_hold (moves : List (Move Call)) :
    (∀ before, before <+: moves → OneRun (after before)) ∧ Terminates moves ∧
      (Along program.step PromotionsApart initial moves → NeverPromotedBefore moves) ∧
      (Along program.step SequentialRuns initial moves →
        ∀ before, before <+: moves → Repeats (after before)) :=
  ⟨fun before _ => oneRun before, terminates moves, neverPromotedBefore,
    fun h _ hBefore => repeats h hBefore⟩

/-- The first run crashes before it has written its marker, the version is promoted, and the second
run reserves the next one and asks for it again. -/
def oneByOne : List (Move Call) :=
  [.call (.allocate ⟨"run-1", "1.0.0"⟩), .step 0, .step 0, .step 0, .step 0,
    .call (.promote "1.0.0"), .step 1,
    .call (.allocate ⟨"run-2", "1.0.0"⟩), .step 2, .step 2, .step 2, .step 2, .step 2, .step 2,
    .call (.allocate ⟨"run-2", "1.0.0"⟩), .step 3]

theorem reservations_hold_oneByOne :
    NeverPromotedBefore oneByOne ∧ Repeats (after oneByOne) ∧
      (after oneByOne).locals[3]? =
        some (.allocating ⟨"run-2", "1.0.0"⟩ (.returned "1.0.1" false)) :=
  ⟨(reservations_hold oneByOne).2.2.1 (by decide +kernel),
    (reservations_hold oneByOne).2.2.2 (by decide +kernel) oneByOne (prefix_refl _),
    by decide +kernel⟩

def promotedMeanwhile : List (Move Call) :=
  [.call (.allocate ⟨"run-1", "1.0.0"⟩), .step 0, .step 0, .step 0,
    .call (.promote "1.0.0"), .step 1, .step 0, .step 0]

/-- Two calls of one run at the same time reserve a version each; a third one, after both have
returned, finds the first of the two. -/
def overlapping : List (Move Call) :=
  [.call (.allocate ⟨"run-1", "1.0.0"⟩), .call (.allocate ⟨"run-1", "1.0.0"⟩),
    .step 0, .step 1, .step 0, .step 1, .step 0, .step 1, .step 0, .step 1, .step 0, .step 1,
    .step 1, .call (.allocate ⟨"run-1", "1.0.0"⟩), .step 2]

theorem promoted_before_reserved :
    ¬NeverPromotedBefore promotedMeanwhile ∧ ¬Repeats (after overlapping) := by
  constructor
  · intro h
    refine h (promotedMeanwhile.take 6) 0 [.step 0] "1.0.0" (prefix_refl _) ?_ ?_ ?_
      ⟨"run-1", "1.0.0"⟩ true ?_
    · decide +kernel
    · decide +kernel
    · decide +kernel
    · decide +kernel
  · intro h
    have hLast := h 1 2 ⟨"run-1", "1.0.0"⟩ ⟨"run-1", "1.0.0"⟩ "1.0.1" true
      (.returned "1.0.0" false) (by omega) (by decide +kernel) (by decide +kernel) rfl
    rcases hLast with ⟨hScan, -⟩ | ⟨newly, hReturned⟩
    · cases hScan
    · have hVersion := (Stage.returned.inj hReturned).1
      revert hVersion
      decide

end Glasslab.Contracts.Reservations
