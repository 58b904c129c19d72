import Glasslab.Contracts.Versions
import Glasslab.Foundation.Interleaving
import Glasslab.Foundation.Sorting

/-!
# Version reservations

`allocate_version` of `app/contract_candidates.py` reserves a version of a contract for a run: it
looks for a reservation of the run, lists the versions that are promoted or reserved, and bumps the
requested version until it can create the reservation directory of one that is not among them. The
directory is created atomically; the run is written into it in a second step, and a call may crash
between the two. Promotions and installs of the same contract go on meanwhile.
-/

namespace Glasslab.Contracts.Reservations

open Foundation Foundation.Machine List

structure Request where
  runId : String
  requestedVersion : String
  deriving DecidableEq, Repr

inductive Call where
  | allocate (request : Request)
  /-- `promote` or `install_repository_contract`. -/
  | promote (version : String)
  deriving DecidableEq, Repr

structure Store where
  /-- The directories under `promoted_root / contract_id`. -/
  promoted : List String
  /-- The directories under the reservations root, with the text of their `run` file. -/
  reservations : List (String × Option String)
  deriving DecidableEq, Repr

def Store.reserved (store : Store) : List String := store.reservations.map Prod.fst

/-- Where a call of `allocate_version` is. -/
inductive Stage where
  | scan
  | listPromoted
  | listReserved (occupied : List String)
  | attempt (occupied : List String) (candidate : String)
  | mark (version : String)
  | returned (version : String) (newlyReserved : Bool)
  /-- `cannot allocate a version above non-semantic version`. -/
  | raised (version : String)
  deriving DecidableEq, Repr

inductive Thread where
  | allocating (request : Request) (stage : Stage)
  | promoting (version : String) (done : Bool)
  deriving DecidableEq, Repr

/-- `_run_reservation`: the first directory, by name, that is marked with the run. -/
def runReservation (store : Store) (runId : String) : Option String :=
  ((sortOn Prod.fst store.reservations).find? fun entry => entry.2 = some runId).map Prod.fst

def bumpStage (occupied : List String) (candidate : String) : Stage :=
  match bumpPatch candidate with
  | none => .raised candidate
  | some bumped => .attempt occupied bumped

/-- One step of `allocate_version`; one pass of its loop is one step. -/
def allocateNext (store : Store) (request : Request) : Stage → Store × Stage
  | .scan =>
    match runReservation store request.runId with
    | some existing => (store, .returned existing false)
    | none => (store, .listPromoted)
  | .listPromoted => (store, .listReserved store.promoted)
  | .listReserved occupied =>
    (store, .attempt (occupied ++ store.reserved) request.requestedVersion)
  | .attempt occupied candidate =>
    if candidate ∈ occupied then
      (store, bumpStage occupied candidate)
    else if candidate ∈ store.reserved then
      -- `FileExistsError`
      (store, bumpStage (candidate :: occupied) candidate)
    else
      ({ store with reservations := store.reservations ++ [(candidate, none)] }, .mark candidate)
  | .mark version =>
    ({ store with
        reservations := store.reservations.map fun entry =>
          if entry.1 = version then (version, some request.runId) else entry },
      .returned version true)
  | .returned version newlyReserved => (store, .returned version newlyReserved)
  | .raised version => (store, .raised version)

def next (store : Store) : Thread → Store × Thread
  | .allocating request stage =>
    ((allocateNext store request stage).1, .allocating request (allocateNext store request stage).2)
  | .promoting version false =>
    (if version ∈ store.promoted then store
      else { store with promoted := store.promoted ++ [version] }, .promoting version true)
  | .promoting version true => (store, .promoting version true)

def program : Program Store Call Thread where
  enter
    | .allocate request => .allocating request .scan
    | .promote version => .promoting version false
  next := next

def initial : Threads Store Thread :=
  { shared := { promoted := [], reservations := [] }, locals := [] }

def after (moves : List (Move Call)) : Threads Store Thread := exec program.step initial moves

variable {store : Store} {thread : Thread} {request : Request} {version : String}

theorem next_effect (store : Store) (thread : Thread) :
    (next store thread).1 = store ∨
    (∃ request occupied candidate, thread = .allocating request (.attempt occupied candidate) ∧
      candidate ∉ occupied ∧ candidate ∉ store.reserved ∧
      next store thread =
        ({ store with reservations := store.reservations ++ [(candidate, none)] },
          .allocating request (.mark candidate))) ∨
    (∃ request version, thread = .allocating request (.mark version) ∧
      next store thread =
        ({ store with
            reservations := store.reservations.map fun entry =>
              if entry.1 = version then (version, some request.runId) else entry },
          .allocating request (.returned version true))) ∨
    ∃ version, thread = .promoting version false ∧ version ∉ store.promoted ∧
      next store thread =
        ({ store with promoted := store.promoted ++ [version] }, .promoting version true) := by
  cases thread with
  | promoting version done =>
    cases done with
    | true => exact .inl rfl
    | false =>
      by_cases h : version ∈ store.promoted
      · left
        simp only [next, if_pos h]
      · exact .inr (.inr (.inr ⟨version, rfl, h, by simp only [next, if_neg h]⟩))
  | allocating request stage =>
    cases stage with
    | scan =>
      left
      simp only [next, allocateNext]
      split <;> rfl
    | listPromoted => exact .inl rfl
    | listReserved occupied => exact .inl rfl
    | attempt occupied candidate =>
      by_cases hOccupied : candidate ∈ occupied
      · left
        simp only [next, allocateNext, if_pos hOccupied]
      · by_cases hReserved : candidate ∈ store.reserved
        · left
          simp only [next, allocateNext, if_neg hOccupied, if_pos hReserved]
        · exact .inr (.inl ⟨request, occupied, candidate, rfl, hOccupied, hReserved,
            by simp only [next, allocateNext, if_neg hOccupied, if_neg hReserved]⟩)
    | mark version => exact .inr (.inr (.inl ⟨request, version, rfl, rfl⟩))
    | returned version newlyReserved => exact .inl rfl
    | raised version => exact .inl rfl

theorem reserved_mark (store : Store) (version : String) (marker : Option String) :
    Store.reserved { store with
      reservations := store.reservations.map fun entry =>
        if entry.1 = version then (version, marker) else entry } = store.reserved := by
  rw [Store.reserved, Store.reserved, map_map]
  refine map_congr_left fun entry _ => ?_
  rw [Function.comp_apply]
  split
  · exact Eq.symm ‹_›
  · rfl

theorem reserved_next (h : version ∈ store.reserved) :
    version ∈ (next store thread).1.reserved := by
  rcases next_effect store thread with hSame | ⟨_, _, _, -, -, -, hNext⟩ | ⟨_, _, -, hNext⟩ |
    ⟨_, -, -, hNext⟩
  · rwa [hSame]
  · rw [hNext, Store.reserved, map_append]
    exact mem_append_left _ h
  · rw [hNext, reserved_mark]
    exact h
  · rwa [hNext]

theorem promoted_next (h : version ∈ store.promoted) :
    version ∈ (next store thread).1.promoted := by
  rcases next_effect store thread with hSame | ⟨_, _, _, -, -, -, hNext⟩ | ⟨_, _, -, hNext⟩ |
    ⟨_, -, -, hNext⟩
  · rwa [hSame]
  · rwa [hNext]
  · rwa [hNext]
  · rw [hNext]
    exact mem_append_left _ h

end Glasslab.Contracts.Reservations
