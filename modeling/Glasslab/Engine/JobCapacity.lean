import Glasslab.Engine.JobRules

/-!
# How many jobs are on the cluster

`_fill_job_capacity` recomputes the free capacity of a run from the statuses of its rows. The
invariant counts the rows that are handed over and unfinished. A pass has one row in hand at a
time: it may be written as anything, so the invariant is kept with a place reserved for it, and
the submission loop starts with a place reserved for each job it is about to hand over.

The capacity is computed from the limit of the run alone. The limit of the matrix is kept where
it cannot matter: when it is not below the limit of the run, or when there are never more
unfinished jobs than it allows.
-/

namespace Glasslab.Engine.Jobs

open Foundation List

def isUnfinished (job : JobRecord) : Bool := job.status ∈ unfinishedStatuses

/-- Counted against the capacity of the run. -/
def isOccupied (job : JobRecord) : Bool := isUnfinished job && isActive job

/-- The number of jobs that were handed to the cluster and are not terminal. -/
def JobStore.handed (s : JobStore) : Nat :=
  s.jobs.count fun job =>
    isUnfinished job && s.submissions.any fun spec => spec.orchestratorJobId = job.jobId

/-- The smaller of the limits of the run and of the matrix submitted last. -/
def JobStore.limit (s : JobStore) : Nat :=
  match s.matrix with
  | none => s.maximumParallelJobs
  | some matrix => min s.maximumParallelJobs matrix.maximumParallelJobs

/-- The rows that submitting a matrix adds. -/
def newSpecs (s : JobStore) (specs : List ExpandedJobSpec) : List ExpandedJobSpec :=
  specs.filter fun spec => (s.jobWithKey spec.idempotencyKey).isNone

/-- The limit of a matrix cannot be exceeded: the run's limit is no larger, or there are not that
many jobs. -/
def MatrixFits (naming : Naming) (s : JobStore) (actionId : String) (matrix : ExperimentMatrix) :
    Prop :=
  s.maximumParallelJobs ≤ matrix.maximumParallelJobs ∨
    s.jobs.count isUnfinished +
        (newSpecs s (expandExperimentMatrix naming s.runId actionId matrix
          s.evaluationContractDigest)).length ≤
      matrix.maximumParallelJobs

section Invariant

variable {γ : Type}

def SubmittedKnown (s : JobStore) : Prop :=
  ∀ spec ∈ s.submissions, ∃ job, s.jobs.find spec.orchestratorJobId = some job ∧
    job.spec = spec ∧ isActive job

/-- Room for `a` jobs more than take up capacity, and in the matrix, if there is one, for `b` more
than are unfinished. The second part is claimed only where `F`, that every matrix fits, is
assumed. -/
structure Room (F : Prop) (a b : Nat) (w : JobStore × γ) : Prop where
  keys : KeysWf w.1
  known : SubmittedKnown w.1
  run : w.1.jobs.count isOccupied + a ≤ w.1.maximumParallelJobs
  matrix : F → ∀ matrix, w.1.matrix = some matrix →
    w.1.maximumParallelJobs ≤ matrix.maximumParallelJobs ∨
      w.1.jobs.count isUnfinished + b ≤ matrix.maximumParallelJobs

/-- Between two visits, with room for `n` more jobs to hand over. -/
def RoomIdle (F : Prop) (n : Nat) : JobStore × γ → Prop := Room F n 0

/-- With the row of `job` in hand: its place is taken or reserved. -/
def RoomHold (F : Prop) (n : Nat) (job : JobRecord) : JobStore × γ → Prop :=
  Room F (n + (!isOccupied job).toNat) (!isUnfinished job).toNat

/-- While the rows of `specs` are still to be created. -/
def RoomPlan (F : Prop) (specs : List ExpandedJobSpec) (w : JobStore × γ) : Prop :=
  Room F 0 (newSpecs w.1 specs).length w

/-- Others change neither the rows nor the limits; the cluster may do anything. -/
def capacityContract (F : Prop) (γ : Type) : Contract JobStore γ Request Request.Answer where
  Inv := RoomIdle F 0
  Asks
    | .submit spec, w => ∃ job, w.1.jobs.find spec.orchestratorJobId = some job ∧
        job.spec = spec ∧ job.externalRunId = none
    | _, _ => True
  rely w w' := w'.1.jobs = w.1.jobs ∧ w'.1.matrix = w.1.matrix ∧
    w'.1.constants = w.1.constants ∧ w'.1.submissions = w.1.submissions
  answers _ _ _ _ := True
  refl _ := ⟨rfl, rfl, rfl, rfl⟩
  trans h h' := ⟨h'.1.trans h.1, h'.2.1.trans h.2.1, h'.2.2.1.trans h.2.2.1,
    h'.2.2.2.trans h.2.2.2⟩

variable {F : Prop} {n : Nat} {job record : JobRecord} {specs : List ExpandedJobSpec}
  {w w' : JobStore × γ}

theorem capacity_watches : Watches (capacityContract F γ) where
  quiet h hSubmissions := ⟨h.jobs, h.matrix, h.constants, hSubmissions⟩
  jobs h := h.1
  looks request _ hLooks := by
    cases request with
    | inspect | notebook => trivial
    | submit | cancel => exact hLooks.elim
  looked _ _ _ _ _ _ := ⟨rfl, rfl, rfl, rfl⟩

theorem length_active (s : JobStore) :
    (s.unfinished.filter isActive).length = s.jobs.count isOccupied := by
  simp only [JobStore.unfinished, JobStore.listJobs, Table.count,
    countP_eq_length_filter, filter_filter, JobStore.allJobs]
  congr 2
  funext job
  rw [Bool.and_comm]
  rfl

variable {s : JobStore} {q : JobRecord → Bool}

theorem count_putJob
    (h : s.jobs.find job.jobId = some job) (hSpec : record.spec = job.spec) :
    (s.putJob record).jobs.count q + (q job).toNat = s.jobs.count q + (q record).toNat := by
  have hId : record.jobId = job.jobId := by simp only [JobRecord.jobId, hSpec]
  exact Table.count_update (hId ▸ h)

theorem isUnfinished_of_mem (h : job.status ∈ unfinishedStatuses) : isUnfinished job = true := by
  simpa [isUnfinished] using h

theorem SubmittedKnown.putJob (h : SubmittedKnown s)
    (hRow : s.jobs.find job.jobId = some job) (hSpec : record.spec = job.spec)
    (hActive : isActive record) : SubmittedKnown (s.putJob record) := by
  intro spec hMem
  obtain ⟨known, hFind, hKnown, hWas⟩ := h spec hMem
  by_cases hId : spec.orchestratorJobId = record.jobId
  · have hSame : record.jobId = job.jobId := by simp only [JobRecord.jobId, hSpec]
    have hEq : known = job := by
      rw [hId, hSame, hRow] at hFind
      exact (Option.some.inj hFind).symm
    refine ⟨record, ?_, ?_, hActive⟩
    · rw [hId]
      exact find_putJob_self (hSame ▸ hRow)
    · rw [hSpec, ← hEq, hKnown]
  · exact ⟨known, (find_putJob_ne hId).trans hFind, hKnown, hWas⟩

variable {a b a' b' : Nat}

theorem Room.rely (h : Room F a b w) (hRely : (capacityContract F γ).rely w w') :
    Room F a b w' := by
  obtain ⟨hJobs, hMatrix, hConstants, hSubmissions⟩ := hRely
  have hMaximum : w'.1.maximumParallelJobs = w.1.maximumParallelJobs :=
    congrArg (fun fields => fields.2.1) hConstants
  constructor
  · rw [KeysWf, hJobs]
    exact h.keys
  · rw [SubmittedKnown, hJobs, hSubmissions]
    exact h.known
  · rw [hJobs, hMaximum]
    exact h.run
  · rw [hJobs, hMatrix, hMaximum]
    exact h.matrix

theorem Room.mono (h : Room F a b w) (ha : a' ≤ a) (hb : b' ≤ b) :
    Room F a' b' w := by
  refine ⟨h.keys, h.known, ?_, fun hF matrix hMatrix => ?_⟩
  · have hRun := h.run
    omega
  · refine (h.matrix hF matrix hMatrix).imp_right fun hRoom => ?_
    omega

theorem Room.holds : (capacityContract F γ).Holds (Room F a b) where
  stable _ _ := Room.rely
  inv _ h := h.mono (Nat.zero_le a) (Nat.zero_le b)

/-- Writing a row trades the places that the old record takes for those of the new one. -/
theorem Room.putJob (h : Room F a b w) (hRow : w.1.jobs.find job.jobId = some job)
    (hSpec : record.spec = job.spec) (hActive : isActive record)
    (hRun : (isOccupied record).toNat + a' ≤ (isOccupied job).toNat + a)
    (hMatrix : (isUnfinished record).toNat + b' ≤ (isUnfinished job).toNat + b) :
    Room F a' b' (w.1.putJob record, w.2) := by
  refine ⟨h.keys.putJob, h.known.putJob hRow hSpec hActive, ?_, fun hF matrix hSome => ?_⟩
  · have hCount := count_putJob (q := isOccupied) hRow hSpec
    have hBefore := h.run
    show (w.1.putJob record).jobs.count isOccupied + a' ≤ w.1.maximumParallelJobs
    omega
  · refine (h.matrix hF matrix hSome).imp_right fun hRoom => ?_
    have hCount := count_putJob (q := isUnfinished) hRow hSpec
    show (w.1.putJob record).jobs.count isUnfinished + b' ≤ _
    omega

/-- A place was kept for the row in hand, whatever it holds. -/
theorem RoomHold.putJob (h : RoomHold F n job w) (hRow : w.1.jobs.find job.jobId = some job)
    (hSpec : record.spec = job.spec) (hActive : isActive record) :
    RoomHold F n record (w.1.putJob record, w.2) := by
  have hOne (q : Bool) : q.toNat + (!q).toNat = 1 := by cases q <;> rfl
  refine Room.putJob h hRow hSpec hActive ?_ ((hOne _).trans (hOne _).symm).le
  have hNew := hOne (isOccupied record)
  have hOld := hOne (isOccupied job)
  omega

theorem RoomHold.release (h : RoomHold F n job w) : RoomIdle F n w :=
  h.mono (Nat.le_add_right _ _) (Nat.zero_le _)

theorem RoomHold.call (h : RoomHold F n job w) (hRow : w.1.jobs.find job.jobId = some job)
    (hActive : isActive job) :
    RoomHold F n job ({ w.1 with submissions := job.spec :: w.1.submissions }, w.2) := by
  refine ⟨h.keys, fun spec hMem => ?_, h.run, h.matrix⟩
  rcases mem_cons.mp hMem with rfl | hOld
  · exact ⟨job, hRow, rfl, hActive⟩
  · exact h.known spec hOld

theorem capacity_discipline (naming : Naming) :
    Discipline (capacityContract F γ) naming (RoomIdle F) (RoomHold F) where
  watches := capacity_watches
  idle _ := Room.holds
  hold _ _ := Room.holds
  keys h := h.keys
  relax h := h.mono (Nat.zero_le _) (Nat.le_refl _)
  reserve h := by
    refine ⟨h.keys, h.known, ?_, h.matrix⟩
    have hRun := h.run
    rw [length_active]
    omega
  take h _ hStatus hActive := by
    have hUnfinished := isUnfinished_of_mem hStatus
    rw [RoomHold, isOccupied, hUnfinished, hActive]
    exact h
  takeQueued h hRow hQueued hNew := by
    refine Room.putJob h hRow rfl (by simp [isActive, withStatus]) ?_ ?_
    · simp [isOccupied, isUnfinished, isActive, withStatus, hQueued, hNew, unfinishedStatuses]
      omega
    · simp [isUnfinished, withStatus, hQueued, unfinishedStatuses]
  release h _ _ := h.release
  keep record h hRow hRewrites _ _ hActive := RoomHold.putJob h hRow hRewrites.spec hActive
  call h hRow hActive := RoomHold.call h hRow hActive
  asks _ hRow hNew := ⟨_, hRow, rfl, hNew⟩
  answered h _ _ _ := Room.rely h ⟨rfl, rfl, rfl, rfl⟩
  accept record h hRow _ _ hRely hRewrites hId _ :=
    RoomHold.putJob (Room.rely h hRely) (hRely.1.symm ▸ hRow) hRewrites.spec
      (by simp [isActive, hId])
  unchanged h _ _ _ _ := Room.rely h.release ⟨rfl, rfl, rfl, rfl⟩
  refused h _ _ _ _ := Room.rely h.release ⟨rfl, rfl, rfl, rfl⟩
  outcome {job rest _ _ _ w' _ snapshot} h hListed hId _ _ _ hRely := by
    have hListed' := hListed.of_jobs_eq hRely.1
    have hHold : RoomHold F 0 (withSnapshot job snapshot)
        (w'.1.putJob (withSnapshot job snapshot), w'.2) :=
      RoomHold.putJob (Room.rely h hRely) hListed'.head rfl (by simp [isActive, withSnapshot, hId])
    have hNext : Listed (withSnapshot job snapshot :: rest)
        (w'.1.putJob (withSnapshot job snapshot)) := hListed'.putJob rfl
    refine (safe_recordOutcome capacity_watches (capacity_watches.listed Room.holds _)
      (fun _ _ _ => ⟨rfl, rfl, rfl, rfl⟩) ⟨hHold.release, hNext.tail⟩).mono (fun _ _ h => h) ?_
    exact fun _ _ h => h.1

theorem capacity_cancel :
    CancelDiscipline (capacityContract F γ) (RoomIdle F 0) (fun _ _ => True) where
  watches := capacity_watches
  idle := Room.holds
  keys h := h.keys
  gone _ _ := trivial
  asks _ _ := trivial
  answered h _ := h.rely ⟨rfl, rfl, rfl, rfl⟩
  confirmed _ _ _ _ := trivial
  unsubmitted _ _ _ _ := trivial
  drop h hRow _ _ := by
    refine h.putJob hRow rfl (by simp [isActive, cancelRequested]) ?_ ?_
    · simp [isOccupied, isUnfinished, cancelRequested, unfinishedStatuses]
    · simp [isUnfinished, cancelRequested, unfinishedStatuses]

theorem jobWithKey_addJob {key : String}
    (hFree : s.jobs.find record.jobId = none) (h : (s.addJob record).jobWithKey key = none) :
    s.jobWithKey key = none := by
  simp only [JobStore.jobWithKey, JobStore.allJobs, JobStore.addJob, Table.rows_add hFree,
    map_append, List.find?_append, Option.or_eq_none_iff] at h
  exact h.1

theorem SubmittedKnown.addJob (h : SubmittedKnown s)
    (hFree : s.jobs.find record.jobId = none) : SubmittedKnown (s.addJob record) := by
  intro spec hMem
  obtain ⟨known, hFind, hKnown, hWas⟩ := h spec hMem
  have hNe : spec.orchestratorJobId ≠ record.jobId := by
    intro hEq
    rw [hEq, hFree] at hFind
    cases hFind
  exact ⟨known, (Table.find_add_ne hFree hNe).trans hFind, hKnown, hWas⟩

theorem count_addJob
    (hFree : s.jobs.find record.jobId = none) :
    (s.addJob record).jobs.count q = s.jobs.count q + (q record).toNat :=
  Table.count_add hFree

theorem newSpecs_addJob (hFree : s.jobs.find record.jobId = none)
    (rest : List ExpandedJobSpec) :
    (newSpecs (s.addJob record) rest).length ≤ (newSpecs s rest).length := by
  refine (monotone_filter_right rest fun spec hNew => ?_).length_le
  rw [Option.isNone_iff_eq_none] at hNew ⊢
  exact jobWithKey_addJob hFree hNew

theorem capacity_create : CreateDiscipline (capacityContract F γ) (RoomPlan F) where
  watches := capacity_watches
  plan specs := by
    refine ⟨fun w w' h hRely => ?_, fun w h => h.mono (Nat.le_refl _) (Nat.zero_le _)⟩
    have hNew : newSpecs w'.1 specs = newSpecs w.1 specs := by
      simp only [newSpecs, JobStore.jobWithKey, JobStore.allJobs, hRely.1]
    rw [RoomPlan, hNew]
    exact Room.rely h hRely
  skip h hKey := by
    refine Room.mono h (Nat.le_refl _) (Nat.le_of_eq ?_)
    simp [newSpecs, hKey]
  add {spec rest w} h hKey hFree := by
    have hFree' : w.1.jobs.find (queuedRecord spec).jobId = none := hFree
    refine ⟨h.keys.addJob hFree', h.known.addJob hFree', ?_, fun hF matrix hMatrix => ?_⟩
    · have hRun := h.run
      have hNot : (isOccupied (queuedRecord spec)).toNat = 0 := rfl
      rw [count_addJob hFree', hNot]
      exact hRun
    · refine (h.matrix hF matrix hMatrix).imp_right fun hRoom => ?_
      have hOne : (isUnfinished (queuedRecord spec)).toNat = 1 := rfl
      have hHead : newSpecs w.1 (spec :: rest) = spec :: newSpecs w.1 rest := by
        simp [newSpecs, hKey]
      have hRest := newSpecs_addJob hFree' rest
      rw [hHead, length_cons] at hRoom
      rw [count_addJob hFree', hOne]
      dsimp only
      omega

end Invariant

/-! ## Runs -/

section Runs

variable {F : Prop} {naming : Naming} {P : Partner Request Request.Answer}

/-- The inputs under which the limit of every submitted matrix is kept. -/
def CapacityAdmits (F : Prop) (naming : Naming) (P : Partner Request Request.Answer)
    (x : JobConfig P) : Input (component naming) P → Prop
  | .call (.submitMatrix actionId matrix _) =>
    F → x.control = none → MatrixFits naming x.store actionId matrix
  | _ => True

theorem capacity_governs :
    Governs (component naming) P (capacityContract F P.State) (RoomIdle F 0)
      (CapacityAdmits F naming P) where
  idle := Room.holds
  entry x e hAdmits hControl h := by
    have hD := capacity_discipline (F := F) (γ := P.State) naming
    match e with
    | .submitMatrix actionId matrix prepared =>
      have hStable : (capacityContract F P.State).Holds fun w =>
          RoomIdle F 0 w ∧ w.1.jobs = x.store.jobs ∧ w.1.constants = x.store.constants := by
        refine Room.holds.and fun w w' hw hRely => ?_
        exact ⟨hRely.1.trans hw.1, hRely.2.2.1.trans hw.2⟩
      refine safe_submitMatrix capacity_create (fun h => h.mono (Nat.le_refl _) (Nat.zero_le _))
        Room.holds hStable (fun _ h => h.1) (fun w h => ?_) (fun _ => safe_fillJobCapacity hD)
        ⟨h, rfl, rfl⟩
      obtain ⟨hRoom, hJobs, hConstants⟩ := h
      simp only [JobStore.constants, Prod.mk.injEq] at hConstants
      obtain ⟨hRun, hMaximum, hDigest⟩ := hConstants
      refine ⟨hRoom.keys, hRoom.known, hRoom.run, fun hF m hMatrix => ?_⟩
      obtain rfl : matrix = m := Option.some.inj hMatrix
      have hFits : MatrixFits naming x.store actionId matrix := hAdmits hF hControl
      simp only [newSpecs, JobStore.jobWithKey, JobStore.allJobs, hJobs, hRun, hMaximum, hDigest]
      exact hFits
    | .fillJobCapacity => exact safe_fillJobCapacity hD h
    | .reconcileRun => exact safe_reconcileRun hD h
    | .cancelRun seen => exact safe_cancelRun capacity_cancel h
    | .sweepCancelledRunJobs => exact safe_sweepCancelledRunJobs capacity_cancel h
    | .resumeRun => exact safe_resumeRun capacity_watches Room.holds h
    | .advance target => exact safe_transition capacity_watches Room.holds h
  interfere x seen _ := capacity_watches.quiet (Quiet.pause seen x.store)
    (pause_submissions seen x.store)
  move _ _ _ := ⟨rfl, rfl, rfl, rfl⟩
  reply _ _ _ _ _ := trivial
  crash _ _ h := ⟨h.keys, h.known, h.run, h.matrix⟩

/-- No job was created yet, and no call is under way. -/
structure IsNew (x : JobConfig P) : Prop where
  jobs : x.store.jobs = Table.empty
  matrix : x.store.matrix = none
  submissions : x.store.submissions = []
  control : x.control = none

/-- What holds of the submissions of a run, with `limit` for the number of jobs on the cluster. -/
structure SubmissionDiscipline (limit : JobStore → Nat) (x : JobConfig P) : Prop where
  withinLimit : x.store.handed ≤ limit x.store
  sameKey : ∀ spec ∈ x.store.submissions, ∀ other ∈ x.store.submissions,
    spec.orchestratorJobId = other.orchestratorJobId → spec.idempotencyKey = other.idempotencyKey
  notAgain : ∀ spec, x.pending = some (.submit spec) →
    ∃ job, x.store.jobs.find spec.orchestratorJobId = some job ∧ job.externalRunId = none

theorem IsNew.room {x : JobConfig P} (h : IsNew x) : RoomIdle F 0 x.world := by
  have hCount : ∀ q, x.store.jobs.count q = 0 := by
    intro q
    rw [h.jobs]
    rfl
  constructor
  · intro jobId job hFind
    simp only [Config.world, h.jobs, Table.find_empty, reduceCtorEq] at hFind
  · intro spec hMem
    simp only [Config.world, h.submissions, not_mem_nil] at hMem
  · simp only [Config.world, hCount]
    exact Nat.zero_le _
  · intro hF matrix hMatrix
    simp only [Config.world, h.matrix, reduceCtorEq] at hMatrix

theorem handed_le_occupied {s : JobStore} (hKeys : KeysWf s) (hKnown : SubmittedKnown s) :
    s.handed ≤ s.jobs.count isOccupied := by
  refine Table.count_mono fun jobId job hFind hHanded => ?_
  simp only [Bool.and_eq_true, any_eq_true, decide_eq_true_eq] at hHanded
  obtain ⟨hUnfinished, spec, hMem, hId⟩ := hHanded
  obtain ⟨known, hRow, -, hActive⟩ := hKnown spec hMem
  obtain rfl : known = job := by
    rw [hId, hKeys jobId job hFind, hFind] at hRow
    exact (Option.some.inj hRow).symm
  rw [isOccupied, hUnfinished, hActive]
  rfl

theorem handed_le_unfinished (s : JobStore) : s.handed ≤ s.jobs.count isUnfinished := by
  refine Table.count_mono fun jobId job _ hHanded => ?_
  rw [Bool.and_eq_true] at hHanded
  exact hHanded.1

theorem Room.sameKey {w : JobStore × P.State} (h : RoomIdle F 0 w) :
    ∀ spec ∈ w.1.submissions, ∀ other ∈ w.1.submissions,
      spec.orchestratorJobId = other.orchestratorJobId →
        spec.idempotencyKey = other.idempotencyKey := by
  intro spec hSpec other hOther hId
  obtain ⟨job, hFind, rfl, -⟩ := h.known spec hSpec
  obtain ⟨job', hFind', rfl, -⟩ := h.known other hOther
  rw [← hId, hFind] at hFind'
  rw [Option.some.inj hFind']

theorem submissionDiscipline_of_room {limit : JobStore → Nat} {x : JobConfig P} (hNew : IsNew x)
    {inputs pre : List (Input (component naming) P)}
    (hAdmits : Machine.Along ((component naming).step P) (CapacityAdmits F naming P) x inputs)
    (hPre : pre <+: inputs)
    (hLimit : ∀ w : JobStore × P.State, RoomIdle F 0 w → w.1.handed ≤ limit w.1) :
    SubmissionDiscipline limit (run naming P x pre) := by
  have hStart : Sound (capacityContract F P.State) (RoomIdle F 0) x :=
    sound_of_idle hNew.control hNew.room
  have hSound : Sound (capacityContract F P.State) (RoomIdle F 0) (run naming P x pre) :=
    hAdmits.invariant_prefix capacity_governs.sound_step hStart hPre
  have hRoom : RoomIdle F 0 (run naming P x pre).world := hSound.inv Room.holds
  refine ⟨hLimit _ hRoom, Room.sameKey hRoom, fun spec hPending => ?_⟩
  obtain ⟨job, hFind, -, hId⟩ := hSound.asks hPending
  exact ⟨job, hFind, hId⟩

/-- Whatever the cluster answers, the limit of the run is kept, a job is always submitted under
one key, and never again once its external run id is stored. -/
theorem submissionDiscipline_runLimit (x : JobConfig P) (hNew : IsNew x)
    (inputs : List (Input (component naming) P)) :
    SubmissionDiscipline JobStore.maximumParallelJobs (run naming P x inputs) := by
  have hAdmits : Machine.Along ((component naming).step P) (CapacityAdmits False naming P) x
      inputs := by
    refine Machine.along_true.mono fun y i _ => ?_
    unfold CapacityAdmits
    split
    · exact fun hF => hF.elim
    · trivial
  refine submissionDiscipline_of_room hNew hAdmits prefix_rfl fun w h => ?_
  exact Nat.le_trans (handed_le_occupied h.keys h.known) h.run

/-- The limit of the matrix is kept as well in every run in which each submitted matrix fits. -/
theorem submissionDiscipline_of_matrixFits (naming : Naming)
    (P : Partner Request Request.Answer) (x : JobConfig P) (hNew : IsNew x)
    (inputs pre : List (Input (component naming) P))
    (hFits : Machine.Along ((component naming).step P) (CapacityAdmits True naming P) x inputs)
    (hPre : pre <+: inputs) : SubmissionDiscipline JobStore.limit (run naming P x pre) := by
  refine submissionDiscipline_of_room hNew hFits hPre fun w h => ?_
  have hRun := Nat.le_trans (handed_le_occupied h.keys h.known) h.run
  unfold JobStore.limit
  split
  · exact hRun
  next matrix hMatrix =>
    refine Nat.le_min.mpr ⟨hRun, ?_⟩
    rcases h.matrix trivial matrix hMatrix with hMaximum | hUnfinished
    · exact Nat.le_trans hRun hMaximum
    · exact Nat.le_trans (handed_le_unfinished w.1) hUnfinished

instance (s : JobStore) (actionId : String) (matrix : ExperimentMatrix) :
    Decidable (MatrixFits naming s actionId matrix) :=
  inferInstanceAs (Decidable (_ ∨ _))

instance (x : JobConfig P) : ∀ i, Decidable (CapacityAdmits True naming P x i)
  | .call (.submitMatrix actionId matrix _) =>
    inferInstanceAs
      (Decidable (True → x.control = none → MatrixFits naming x.store actionId matrix))
  | .call .fillJobCapacity | .call .reconcileRun | .call (.cancelRun _)
  | .call .sweepCancelledRunJobs | .call .resumeRun | .call (.advance _)
  | .tick | .reply _ | .interfere _ | .move _ | .crash => .isTrue trivial

end Runs

def pairStart : JobConfig anyCluster := ⟨newStore 4, [], none⟩

theorem pairStart_isNew : IsNew pairStart := ⟨rfl, rfl, rfl, rfl⟩

/-- Both jobs of a matrix with the given limit are submitted, and the cluster takes both. -/
def pairHistory (maximumParallelJobs : Nat) : List (Input (component variantNaming) anyCluster) :=
  paced [.call (.submitMatrix "action-1"
      (matrixOf ["baseline", "candidate"] maximumParallelJobs) (.ok ())),
    .reply (startsAs firstRun), .reply (startsAs secondRun)]

theorem submissionDiscipline_pairHistory :
    SubmissionDiscipline JobStore.limit (run variantNaming anyCluster pairStart (pairHistory 2)) ∧
      (run variantNaming anyCluster pairStart (pairHistory 2)).store.handed = 2 :=
  ⟨submissionDiscipline_of_matrixFits variantNaming anyCluster pairStart pairStart_isNew
    (pairHistory 2) (pairHistory 2) (by decide +kernel) prefix_rfl, by decide +kernel⟩

theorem submissionDiscipline_runLimit_pairHistory :
    SubmissionDiscipline JobStore.maximumParallelJobs
      (run variantNaming anyCluster pairStart (pairHistory 1)) :=
  submissionDiscipline_runLimit pairStart pairStart_isNew (pairHistory 1)

/-- A matrix that allows one job at a time, in a run that may have four: both jobs run at once. -/
theorem not_submissionDiscipline_pairHistory :
    ¬ SubmissionDiscipline JobStore.limit
      (run variantNaming anyCluster pairStart (pairHistory 1)) := by
  intro h
  have hTwo : (run variantNaming anyCluster pairStart (pairHistory 1)).store.handed = 2 := by
    decide +kernel
  have hOne : (run variantNaming anyCluster pairStart (pairHistory 1)).store.limit = 1 := by
    decide +kernel
  have hWithin := h.withinLimit
  rw [hTwo, hOne] at hWithin
  omega

end Glasslab.Engine.Jobs
