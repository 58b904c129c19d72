import Glasslab.Engine.JobRules

/-!
# The end of a job is reported

When an inspection finds a job in a terminal status, `reconcile_run` writes the row, passes the
artifacts of the snapshot on and appends one `job.completed` or `job.failed` event. Rows that
a cancellation writes off carry `cancel_requested` and are not reported.

The invariant says this of every row but the one in hand. Two things can break it. One is the
submission that `reconcile_run` repeats for a job without an external run id: its status goes into
the row as it is, terminal or not, and an inspection that then finds the row as the submission left
it says nothing. The other is an exception between the write of the row and the event: a malformed
digest, or a notebook that cannot be written for a reason nobody expected. `Telling` names the
answers after which nothing was left unsaid.
-/

namespace Glasslab.Engine.Jobs

open Foundation List Option

def outcomesOf (s : JobStore) (jobId : String) : List JobEvent :=
  (outcomeEvents s).filter fun e => e.payload.getStr "job_id" = some jobId

def inspected (id : ExternalRunId) (snapshot : ClusterJobSnapshot) :
    (request : Request) × request.Answer :=
  ⟨.inspect id, (.ok snapshot : Except String ClusterJobSnapshot)⟩

/-- The end of the job was reported once, and the artifacts of the snapshot that showed it were
passed on. -/
structure Settled (job : JobRecord) (w : JobStore × Said) : Prop where
  event : (outcomesOf w.1 job.jobId).length = 1
  artifacts : ∃ id snapshot, job.externalRunId = some id ∧ inspected id snapshot ∈ w.2 ∧
    snapshot.status = job.status ∧ (job.jobId, snapshot.artifacts) ∈ w.1.recordings

/-- Nothing is said about the end of an unfinished job, and everything about a terminal one. -/
structure Reported (job : JobRecord) (w : JobStore × Said) : Prop where
  unfinished : job.status ∈ unfinishedStatuses →
    outcomesOf w.1 job.jobId = [] ∧ job.exitInformation.cancelRequested = false
  terminal : job.status ∈ jobTerminalStatuses → job.exitInformation.cancelRequested = false →
    Settled job w

/-- All rows but at most one are reported, and there are no events about jobs without a row. -/
structure ReportedExcept (exempt : Option String) (w : JobStore × Said) : Prop where
  keys : KeysWf w.1
  stray : ∀ jobId, w.1.jobs.find jobId = none → outcomesOf w.1 jobId = []
  rows : ∀ jobId job, some jobId ≠ exempt → w.1.jobs.find jobId = some job → Reported job w

/-- The row of `job` is in hand, and nothing was said about its end yet. -/
structure InHand (job : JobRecord) (w : JobStore × Said) : Prop where
  others : ReportedExcept (some job.jobId) w
  silent : outcomesOf w.1 job.jobId = []
  wanted : job.exitInformation.cancelRequested = false

/-- Nobody asked for the end of the job, and nothing was said about it. -/
def Unreported (s : JobStore) (job : JobRecord) : Prop :=
  job.exitInformation.cancelRequested = false ∧ outcomesOf s job.jobId = []

/-- A row that holds a terminal status nobody reported. -/
def IsSilent (s : JobStore) (job : JobRecord) : Prop :=
  job.status ∈ jobTerminalStatuses ∧ Unreported s job

/-- An inspection finds the status that is stored already. -/
def repeats (status : JobStatus) : Except String ClusterJobSnapshot → Bool
  | .ok snapshot => snapshot.status = status
  | .error _ => false

/-- If the snapshot is terminal, its artifacts have the digests that `ArtifactRecord` asks for. -/
def recordable : Except String ClusterJobSnapshot → Bool
  | .ok snapshot => snapshot.status ∈ jobTerminalStatuses →
      snapshot.artifacts.all fun artifact => isSha256 artifact.sha256
  | .error _ => true

/-- The notebook is written, or fails in a way the caller handles. -/
def isHandled : Except NotebookError AnalysisNotebook → Bool
  | .ok _ | .error (.handled _) => true
  | .error (.escaped _) => false

/-- The end of no row is lost with the answer. If the answer to an inspection shows the end of a job
that is not reported, it can be recorded; if the row says already that the job is over, it can still
be written, and the answer says something else. No exception escapes from the notebook of a job
whose end is being reported. -/
def Telling (s : JobStore) : (request : Request) → request.Answer → Prop
  | .inspect id, answer => ∀ job ∈ s.allJobs, job.externalRunId = some id → Unreported s job →
      recordable answer ∧
        (job.status ∈ jobTerminalStatuses →
          job.status ≠ .cancelled ∧ repeats job.status answer = false)
  | .notebook jobId _, written => ∀ job ∈ s.allJobs, job.jobId = jobId → IsSilent s job →
      isHandled written
  | .submit _, _ => True
  | .cancel _, _ => True

def eventsContract : Contract JobStore Said Request Request.Answer where
  Inv w := ∃ exempt, ReportedExcept exempt w
  Asks _ _ := True
  rely w w' := w'.1.jobs = w.1.jobs ∧ outcomeEvents w'.1 = outcomeEvents w.1 ∧
    (∀ call ∈ w.1.recordings, call ∈ w'.1.recordings) ∧ ∀ x ∈ w.2, x ∈ w'.2
  answers request w said answer := said = ⟨request, answer⟩ :: w.2 ∧ Telling w.1 request answer
  refl _ := ⟨rfl, rfl, fun _ h => h, fun _ h => h⟩
  trans h h' := ⟨h'.1.trans h.1, h'.2.1.trans h.2.1, fun x hx => h'.2.2.1 x (h.2.2.1 x hx),
    fun x hx => h'.2.2.2 x (h.2.2.2 x hx)⟩

section Invariant

variable {s : JobStore} {job record : JobRecord} {jobId : String} {exempt : Option String}
  {w w' : JobStore × Said}

theorem events_watches : Watches eventsContract where
  quiet h _ := ⟨h.jobs, h.outcomeEvents, h.recordings, fun _ h => h⟩
  jobs h := h.1
  looks _ _ _ := trivial
  looked request w c a _ h := by
    rw [h.1]
    exact ⟨rfl, rfl, fun _ h => h, fun _ h => mem_cons_of_mem _ h⟩

/-- A report stays: events are not taken back, and neither is what was passed on or said. -/
theorem Reported.mono (h : Reported job w)
    (hOutcomes : outcomesOf w'.1 job.jobId = outcomesOf w.1 job.jobId)
    (hRecordings : ∀ call ∈ w.1.recordings, call ∈ w'.1.recordings)
    (hSaid : ∀ x ∈ w.2, x ∈ w'.2) : Reported job w' := by
  constructor
  · intro hStatus
    rw [hOutcomes]
    exact h.unfinished hStatus
  · intro hStatus hWanted
    obtain ⟨hEvent, id, snapshot, hId, hInspected, hSnapshot, hRecorded⟩ :=
      h.terminal hStatus hWanted
    refine ⟨?_, id, snapshot, hId, hSaid _ hInspected, hSnapshot, hRecordings _ hRecorded⟩
    rw [hOutcomes]
    exact hEvent

theorem outcomesOf_rely (hRely : eventsContract.rely w w') :
    outcomesOf w'.1 jobId = outcomesOf w.1 jobId := by
  rw [outcomesOf, hRely.2.1]
  rfl

theorem ReportedExcept.rely (h : ReportedExcept exempt w) (hRely : eventsContract.rely w w') :
    ReportedExcept exempt w' := by
  constructor
  · rw [KeysWf, hRely.1]
    exact h.keys
  · intro jobId hNone
    rw [hRely.1] at hNone
    rw [outcomesOf_rely hRely]
    exact h.stray jobId hNone
  · intro jobId job hNe hFind
    rw [hRely.1] at hFind
    exact (h.rows jobId job hNe hFind).mono (outcomesOf_rely hRely) hRely.2.2.1 hRely.2.2.2

theorem ReportedExcept.holds : eventsContract.Holds (ReportedExcept exempt) where
  stable _ _ := ReportedExcept.rely
  inv _ h := ⟨exempt, h⟩

theorem InHand.rely (h : InHand job w) (hRely : eventsContract.rely w w') : InHand job w' := by
  refine ⟨h.others.rely hRely, ?_, h.wanted⟩
  rw [outcomesOf_rely hRely]
  exact h.silent

theorem InHand.holds : eventsContract.Holds (InHand job) where
  stable _ _ := InHand.rely
  inv _ h := ⟨_, h.others⟩

theorem find_putJob_eq_none :
    (s.putJob record).jobs.find jobId = none ↔ s.jobs.find jobId = none := by
  rw [← not_isSome_iff_eq_none, ← not_isSome_iff_eq_none, JobStore.putJob,
    Table.find_update_isSome]

theorem ReportedExcept.putJob (h : ReportedExcept (some record.jobId) w) :
    ReportedExcept (some record.jobId) (w.1.putJob record, w.2) := by
  refine ⟨h.keys.putJob, fun jobId hNone => ?_, fun jobId job hNe hFind => ?_⟩
  · exact h.stray jobId (find_putJob_eq_none.mp hNone)
  · have hOther : jobId ≠ record.jobId := fun hEq => hNe (congrArg some hEq)
    rw [find_putJob_ne hOther] at hFind
    exact (h.rows jobId job hNe hFind).mono rfl (fun _ h => h) fun _ h => h

theorem ReportedExcept.take (h : ReportedExcept none w) (jobId : String) :
    ReportedExcept (some jobId) w :=
  ⟨h.keys, h.stray, fun jobId job _ hFind => h.rows jobId job (by simp) hFind⟩

theorem ReportedExcept.close (h : ReportedExcept (some job.jobId) w)
    (hRow : w.1.jobs.find job.jobId = some job) (hReported : Reported job w) :
    ReportedExcept none w := by
  refine ⟨h.keys, h.stray, fun jobId other _ hFind => ?_⟩
  by_cases hId : jobId = job.jobId
  · rw [hId, hRow] at hFind
    exact Option.some.inj hFind ▸ hReported
  · exact h.rows jobId other (fun hEq => hId (Option.some.inj hEq)) hFind

theorem InHand.putJob (h : InHand job w) (hRewrites : Rewrites record job) :
    InHand record (w.1.putJob record, w.2) := by
  have hId := hRewrites.jobId
  refine ⟨ReportedExcept.putJob (hId ▸ h.others), hId ▸ h.silent, ?_⟩
  by_contra hCancel
  rw [Bool.not_eq_false] at hCancel
  have hWas := hRewrites.exit hCancel
  rw [h.wanted] at hWas
  cases hWas

theorem InHand.release (h : InHand job w) (hRow : w.1.jobs.find job.jobId = some job)
    (hStatus : job.status ∈ unfinishedStatuses) : ReportedExcept none w := by
  refine h.others.close hRow ⟨fun _ => ⟨h.silent, h.wanted⟩, fun hTerminal => ?_⟩
  exfalso
  revert hStatus hTerminal
  cases job.status <;> decide

variable {id : ExternalRunId} {answer : Except String ClusterJobSnapshot}

/-- The row in hand after the recovered submission: an admitted answer shows that it is
unfinished, or shows something new. -/
theorem InHand.told
    (h : InHand job w) (hRow : w.1.jobs.find job.jobId = some job)
    (hId : job.externalRunId = some id) (hTelling : Telling w.1 (.inspect id) answer)
    (hTerminal : job.status ∈ jobTerminalStatuses) :
    job.status ≠ .cancelled ∧ repeats job.status answer = false :=
  (hTelling job ((mem_allJobs h.others.keys).mpr hRow) hId ⟨h.wanted, h.silent⟩).2 hTerminal

theorem InHand.recordable
    (h : InHand job w) (hRow : w.1.jobs.find job.jobId = some job)
    (hId : job.externalRunId = some id) (hTelling : Telling w.1 (.inspect id) answer) :
    Jobs.recordable answer = true :=
  (hTelling job ((mem_allJobs h.others.keys).mpr hRow) hId ⟨h.wanted, h.silent⟩).1

theorem InHand.isHandled {artifacts : List RecordedArtifact}
    {written : Except NotebookError AnalysisNotebook} (h : InHand job w)
    (hRow : w.1.jobs.find job.jobId = some job) (hTerminal : job.status ∈ jobTerminalStatuses)
    (hTelling : Telling w.1 (.notebook job.jobId artifacts) written) :
    Jobs.isHandled written = true :=
  hTelling job ((mem_allJobs h.others.keys).mpr hRow) rfl ⟨hTerminal, h.wanted, h.silent⟩

theorem outcomesOf_append (e : JobEvent) :
    outcomesOf { s with events := s.events ++ [e] } jobId =
      outcomesOf s jobId ++
        if e.eventType ∈ ["job.completed", "job.failed"] ∧ e.payload.getStr "job_id" = some jobId
        then [e] else [] := by
  simp only [outcomesOf, outcomeEvents, filter_append, append_cancel_left_eq]
  by_cases hType : e.eventType ∈ ["job.completed", "job.failed"] <;>
    by_cases hJob : e.payload.getStr "job_id" = some jobId <;>
    simp only [filter_cons, filter_nil, hType, hJob, decide_true, decide_false,
      and_true, and_false, if_true, if_false, Bool.false_eq_true]

variable {snapshot : ClusterJobSnapshot}

theorem InHand.settle {e : JobEvent}
    (h : InHand job w) (hRow : w.1.jobs.find job.jobId = some job)
    (hType : e.eventType ∈ ["job.completed", "job.failed"])
    (hJob : e.payload.getStr "job_id" = some job.jobId) (hId : job.externalRunId = some id)
    (hInspected : inspected id snapshot ∈ w.2) (hStatus : snapshot.status = job.status)
    (hTerminal : job.status ∈ jobTerminalStatuses)
    (hRecorded : (job.jobId, snapshot.artifacts) ∈ w.1.recordings) :
    ReportedExcept none ({ w.1 with events := w.1.events ++ [e] }, w.2) := by
  have hOthers : ∀ jobId, jobId ≠ job.jobId →
      outcomesOf { w.1 with events := w.1.events ++ [e] } jobId = outcomesOf w.1 jobId := by
    intro jobId hNe
    rw [outcomesOf_append, if_neg, append_nil]
    rintro ⟨-, hSame⟩
    rw [hJob] at hSame
    exact hNe (Option.some.inj hSame).symm
  have hExcept :
      ReportedExcept (some job.jobId) ({ w.1 with events := w.1.events ++ [e] }, w.2) := by
    refine ⟨h.others.keys, fun jobId hNone => ?_, fun jobId other hNe hFind => ?_⟩
    · rw [hOthers jobId (by rintro rfl; rw [hRow] at hNone; cases hNone)]
      exact h.others.stray jobId hNone
    · have hKey := h.others.keys jobId other hFind
      refine (h.others.rows jobId other hNe hFind).mono ?_ (fun _ h => h) fun _ h => h
      exact hOthers _ (hKey ▸ fun hEq => hNe (congrArg some hEq))
  refine hExcept.close hRow ⟨fun hUnfinished => ?_, fun _ _ => ⟨?_, ?_⟩⟩
  · exfalso
    revert hUnfinished hTerminal
    cases job.status <;> decide
  · rw [outcomesOf_append, if_pos ⟨hType, hJob⟩, h.silent]
    rfl
  · exact ⟨id, snapshot, hId, hInspected, hStatus, hRecorded⟩

/-- Recording the end of the job in hand: the artifacts go first, the event last. -/
theorem safe_recordOutcome_settles {naming : Naming} {rest : List JobRecord}
    {newlyRecorded : Nat} (hId : job.externalRunId = some id)
    (hStatus : snapshot.status = job.status) (hTerminal : job.status ∈ jobTerminalStatuses)
    (hDigests : ∀ artifact ∈ snapshot.artifacts, isSha256 artifact.sha256 = true)
    (h : InHand job w ∧ Listed (job :: rest) w.1) (hInspected : inspected id snapshot ∈ w.2) :
    Safe eventsContract (fun _ w => ReportedExcept none w ∧ Listed rest w.1)
      (fun _ => ReportedExcept none) (recordOutcome naming job snapshot.artifacts newlyRecorded)
      w := by
  have hHeld : eventsContract.Holds fun w => InHand job w ∧ Listed (job :: rest) w.1 :=
    events_watches.listed InHand.holds (job :: rest)
  have hShown : eventsContract.Holds fun w => (InHand job w ∧ Listed (job :: rest) w.1) ∧
      inspected id snapshot ∈ w.2 := hHeld.and fun _ _ hMem hRely => hRely.2.2.2 _ hMem
  have hPassed : eventsContract.Holds fun w => ((InHand job w ∧ Listed (job :: rest) w.1) ∧
      inspected id snapshot ∈ w.2) ∧ (job.jobId, snapshot.artifacts) ∈ w.1.recordings :=
    hShown.and fun _ _ hMem hRely => hRely.2.2.1 _ hMem
  have hRest : eventsContract.Holds fun w => ReportedExcept none w ∧ Listed rest w.1 :=
    events_watches.listed ReportedExcept.holds rest
  refine safe_bind (Safe.mono (Q := fun _ w => ((InHand job w ∧ Listed (job :: rest) w.1) ∧
    inspected id snapshot ∈ w.2) ∧ (job.jobId, snapshot.artifacts) ∈ w.1.recordings) ?_ ?_
    fun _ _ h => h)
  · refine safe_access hShown ⟨h, hInspected⟩ fun w h => ?_
    have hLogged : eventsContract.rely w
        ({ w.1 with recordings := (job.jobId, snapshot.artifacts) :: w.1.recordings }, w.2) :=
      ⟨rfl, rfl, fun call hCall => mem_cons_of_mem _ hCall, fun _ h => h⟩
    refine (safe_recordArtifacts events_watches hPassed _ _ ?_
      ⟨hShown.stable w _ h hLogged, mem_cons_self⟩).seq fun recorded w h => ?_
    · rintro ⟨artifact, hMem, hBad⟩
      rw [hDigests artifact hMem] at hBad
      cases hBad
    · refine (safe_notebookFrom events_watches hPassed ?_ h).seq fun _ w h => hPassed.ret h
      intro artifacts w c m h hAnswer
      have hHandled := h.1.1.1.isHandled h.1.1.2.head hTerminal hAnswer.2
      cases hHandled
  · intro recorded w h
    refine safe_bind (Safe.mono (Q := fun _ w => ReportedExcept none w ∧ Listed rest w.1) ?_ ?_
      fun _ _ h => h)
    · refine safe_access hPassed h fun w h => ?_
      refine safe_pure hRest ⟨?_, h.1.1.2.tail.of_jobs_eq rfl⟩ fun _ h => h
      exact h.1.1.1.settle h.1.1.2.head (by unfold terminalEvent; split <;> simp) rfl hId h.1.2
        hStatus
        hTerminal h.2
    · exact fun _ w h => safe_pure hRest h fun _ h => h

theorem events_discipline (naming : Naming) :
    Discipline eventsContract naming (fun _ => ReportedExcept none) (fun _ => InHand) where
  watches := events_watches
  idle _ := ReportedExcept.holds
  hold _ _ := InHand.holds
  keys h := h.keys
  relax h := h
  reserve h := h
  take {job w} h hRow hStatus _ := by
    obtain ⟨hSilent, hWanted⟩ := (h.rows job.jobId job (by simp) hRow).unfinished hStatus
    exact ⟨h.take job.jobId, hSilent, hWanted⟩
  takeQueued {n job w} h hRow hQueued _ := by
    obtain ⟨hSilent, hWanted⟩ := (h.rows job.jobId job (by simp) hRow).unfinished
      (by rw [hQueued]; decide)
    exact InHand.putJob ⟨h.take job.jobId, hSilent, hWanted⟩ ⟨rfl, fun h => h⟩
  release h hRow hStatus := h.release hRow hStatus
  keep record h _ hRewrites _ _ _ := h.putJob hRewrites
  call h _ _ := ⟨⟨h.others.keys, h.others.stray, fun jobId job hNe hFind =>
    (h.others.rows jobId job hNe hFind).mono rfl (fun _ h => h) fun _ h => h⟩, h.silent, h.wanted⟩
  asks _ _ _ := trivial
  answered {n job w c a} h _ _ hAnswer := by
    refine h.rely ⟨rfl, rfl, fun _ h => h, fun _ h => ?_⟩
    rw [hAnswer.1]
    exact mem_cons_of_mem _ h
  accept {n job w c w' submission} record h _ _ hAnswer hRely hRewrites _ _ := by
    have hAnswered : eventsContract.rely w (w.1, c) := by
      refine ⟨rfl, rfl, fun _ h => h, fun _ h => ?_⟩
      rw [hAnswer.1]
      exact mem_cons_of_mem _ h
    exact (h.rely (eventsContract.trans hAnswered hRely)).putJob hRewrites
  unchanged {job id w c snapshot} h hRow hId hAnswer hSame := by
    have hStatus : job.status ∈ unfinishedStatuses := by
      by_contra hNot
      have hTerminal : job.status ∈ jobTerminalStatuses := by
        revert hNot
        cases job.status <;> decide
      have hRepeats := (h.told hRow hId hAnswer.2 hTerminal).2
      simp [repeats, hSame] at hRepeats
    exact (h.release hRow hStatus).rely (events_watches.inspected hAnswer)
  refused {job id w c a} h hRow hId hAnswer hCancelled := by
    have hTerminal : job.status ∈ jobTerminalStatuses := by
      rw [hCancelled]
      decide
    exact absurd hCancelled (h.told hRow hId hAnswer.2 hTerminal).1
  outcome {job rest id w c w' _ snapshot} h hListed hId hAnswer hTerminal _ hRely := by
    have hSince := eventsContract.trans (events_watches.inspected hAnswer) hRely
    have hSaid : inspected id snapshot ∈ w'.2 := by
      refine hRely.2.2.2 _ ?_
      rw [hAnswer.1]
      exact mem_cons_self
    have hDigests : ∀ artifact ∈ snapshot.artifacts, isSha256 artifact.sha256 = true := by
      have hRecordable := h.recordable hListed.head hId hAnswer.2
      simpa [recordable, hTerminal] using hRecordable
    refine safe_recordOutcome_settles hId rfl hTerminal hDigests ⟨?_, ?_⟩ hSaid
    · exact (h.rely hSince).putJob rewrites_withSnapshot
    · exact (hListed.of_jobs_eq hSince.1).putJob rfl

theorem events_cancel :
    CancelDiscipline eventsContract (ReportedExcept none) (fun _ _ => True) where
  watches := events_watches
  idle := ReportedExcept.holds
  keys h := h.keys
  gone _ _ := trivial
  asks _ _ := trivial
  answered {id w c a} h hAnswer := by
    refine h.rely ⟨rfl, rfl, fun _ h => h, fun _ h => ?_⟩
    rw [hAnswer.1]
    exact mem_cons_of_mem _ h
  confirmed _ _ _ _ := trivial
  unsubmitted _ _ _ _ := trivial
  drop {job w} h hRow _ _ := by
    have hDropped : (w.1.putJob (cancelRequested job)).jobs.find (cancelRequested job).jobId =
        some (cancelRequested job) := find_putJob_self hRow
    refine (h.take (cancelRequested job).jobId).putJob.close hDropped
      ⟨fun hUnfinished => ?_, fun _ hWanted => ?_⟩
    · exact absurd hUnfinished (by simp [cancelRequested, unfinishedStatuses])
    · cases hWanted

theorem events_create : CreateDiscipline eventsContract (fun _ => ReportedExcept none) where
  watches := events_watches
  plan _ := ReportedExcept.holds
  skip h _ := h
  add {spec rest w} h _ hFree := by
    have hFree' : w.1.jobs.find (queuedRecord spec).jobId = none := hFree
    refine ⟨h.keys.addJob hFree', fun jobId hNone => ?_, fun jobId job hNe hFind => ?_⟩
    · rw [JobStore.addJob, Table.find_add hFree'] at hNone
      split at hNone
      · cases hNone
      · exact h.stray jobId hNone
    · rw [JobStore.addJob, Table.find_add hFree'] at hFind
      split at hFind
      next hId =>
        obtain rfl := Option.some.inj hFind
        refine ⟨fun _ => ⟨h.stray _ hFree', rfl⟩, fun hTerminal => ?_⟩
        exact absurd hTerminal (by simp [queuedRecord, jobTerminalStatuses])
      next => exact (h.rows jobId job hNe hFind).mono rfl (fun _ h => h) fun _ h => h

end Invariant

/-! ## Runs -/

section Runs

variable {naming : Naming}

/-- The inputs after which no terminal status stays unreported: the process does not stop, and
every answer is telling. -/
def EventsAdmits (naming : Naming) (x : JobConfig anyCluster) :
    Input (component naming) anyCluster → Prop
  | .reply choice =>
    match x.pending with
    | some request => Telling x.store request (choice request)
    | none => True
  | .crash => False
  | _ => True

theorem events_governs :
    Governs (component naming) anyCluster eventsContract (ReportedExcept none)
      (EventsAdmits naming) where
  idle := ReportedExcept.holds
  entry x e _ _ h := by
    have hD := events_discipline naming
    match e with
    | .submitMatrix actionId matrix prepared =>
      refine safe_submitMatrix events_create (fun h => h) ReportedExcept.holds
        ReportedExcept.holds (fun _ h => h) (fun w h => ?_) (fun _ => safe_fillJobCapacity hD) h
      exact ⟨h.keys, h.stray, fun jobId job hNe hFind =>
        (h.rows jobId job hNe hFind).mono rfl (fun _ h => h) fun _ h => h⟩
    | .fillJobCapacity => exact safe_fillJobCapacity hD h
    | .reconcileRun => exact safe_reconcileRun hD h
    | .cancelRun seen => exact safe_cancelRun events_cancel h
    | .sweepCancelledRunJobs => exact safe_sweepCancelledRunJobs events_cancel h
    | .resumeRun => exact safe_resumeRun events_watches ReportedExcept.holds h
    | .advance target => exact safe_transition events_watches ReportedExcept.holds h
  interfere x seen _ := events_watches.quiet (Quiet.pause seen x.store)
    (pause_submissions seen x.store)
  move _ m _ := m.elim
  reply _ request _ hAdmits hPending := by
    simp only [EventsAdmits, hPending] at hAdmits
    exact ⟨rfl, hAdmits⟩
  crash _ hAdmits _ := hAdmits.elim

/-- The rows that were not written off by a cancellation and are terminal are settled, except that
of at most one job. -/
def SettledExcept (exempt : Option String) (x : JobConfig anyCluster) : Prop :=
  ∀ jobId job, some jobId ≠ exempt → x.store.jobs.find jobId = some job →
    job.status ∈ jobTerminalStatuses → job.exitInformation.cancelRequested = false →
    Settled job x.world

/-- In every run of telling answers every terminal row is settled once its call has returned, and
while a call is under way every terminal row is but that of the job in hand. -/
theorem terminalJobs_settled (naming : Naming) (x : JobConfig anyCluster)
    (hJobs : x.store.jobs = Table.empty) (hEvents : x.store.events = []) (hIdle : x.control = none)
    (inputs pre : List (Input (component naming) anyCluster))
    (hTelling : Machine.Along ((component naming).step anyCluster) (EventsAdmits naming) x inputs)
    (hPre : pre <+: inputs) :
    ((run naming anyCluster x pre).control = none →
        SettledExcept none (run naming anyCluster x pre)) ∧
      ∃ inHand, SettledExcept inHand (run naming anyCluster x pre) := by
  have hStart : Sound eventsContract (ReportedExcept none) x := by
    refine sound_of_idle hIdle
      ⟨fun jobId job hFind => ?_, fun jobId _ => ?_, fun jobId job _ hFind => ?_⟩
    · simp only [Config.world, hJobs, Table.find_empty, reduceCtorEq] at hFind
    · simp only [Config.world, outcomesOf, outcomeEvents, hEvents, filter_nil]
    · simp only [Config.world, hJobs, Table.find_empty, reduceCtorEq] at hFind
  have hSound : Sound eventsContract (ReportedExcept none) (run naming anyCluster x pre) :=
    hTelling.invariant_prefix events_governs.sound_step hStart hPre
  have hSettled : ∀ {exempt}, ReportedExcept exempt (run naming anyCluster x pre).world →
      SettledExcept exempt (run naming anyCluster x pre) :=
    fun h jobId job hNe hFind => (h.rows jobId job hNe hFind).terminal
  refine ⟨fun hControl => hSettled (hSound.idle hControl), ?_⟩
  obtain ⟨inHand, hExcept⟩ := hSound.inv ReportedExcept.holds
  exact ⟨inHand, hSettled hExcept⟩

instance (s : JobStore) (job : JobRecord) : Decidable (Unreported s job) :=
  inferInstanceAs (Decidable (_ ∧ _))

instance (s : JobStore) (job : JobRecord) : Decidable (IsSilent s job) :=
  inferInstanceAs (Decidable (_ ∧ _))

instance (s : JobStore) : ∀ request answer, Decidable (Telling s request answer)
  | .inspect id, answer => inferInstanceAs (Decidable (∀ job ∈ s.allJobs,
      job.externalRunId = some id → Unreported s job →
        recordable answer ∧ (job.status ∈ jobTerminalStatuses →
          job.status ≠ .cancelled ∧ repeats job.status answer = false)))
  | .notebook jobId _, written => inferInstanceAs (Decidable (∀ job ∈ s.allJobs,
      job.jobId = jobId → IsSilent s job → isHandled written))
  | .submit _, _ => .isTrue trivial
  | .cancel _, _ => .isTrue trivial

instance (x : JobConfig anyCluster) : ∀ i, Decidable (EventsAdmits naming x i)
  | .reply choice =>
    match h : x.pending with
    | some request => decidable_of_iff (Telling x.store request (choice request))
        (by simp only [EventsAdmits, h])
    | none => .isTrue (by simp only [EventsAdmits, h])
  | .crash => .isFalse id
  | .call _ | .tick | .interfere _ | .move _ => .isTrue trivial

end Runs

def digestOf (digit : Char) : String := String.ofList (replicate 64 digit)

/-- The answers after a first submission whose fate is unknown: the repeated submission reports
`recovered`, every inspection SUCCEEDED, with metrics under the given digest. -/
def recoversAs (recovered : JobStatus) (sha256 : String) :
    (request : Request) → request.Answer :=
  answerWith (.ok { externalRunId := firstRun, status := recovered })
    (.ok { status := .succeeded, artifacts :=
      [{ type := "metrics", uri := "metrics.json", sha256 }] })
    (.ok ())

/-- One job is submitted, the answer is lost, and the next poll finds it. -/
def recoveryHistory (recovered : JobStatus) (sha256 : String) :
    List (Input (component variantNaming) anyCluster) :=
  paced ([.call (.submitMatrix "action-1" (matrixOf ["baseline"] 1) (.ok ())),
    .reply (answerWith (.error "timeout") (.error "timeout") (.error "timeout")),
    .call .reconcileRun] ++ replicate 5 (.reply (recoversAs recovered sha256)))

def recoveryStart : JobConfig anyCluster := ⟨newStore 4, [], none⟩

def recovered (status : JobStatus) (sha256 : String) : JobConfig anyCluster :=
  run variantNaming anyCluster recoveryStart (recoveryHistory status sha256)

theorem terminalJobs_settled_recoveredRunning :
    SettledExcept none (recovered .running (digestOf 'a')) ∧
      (recovered .running (digestOf 'a')).store.allJobs.map JobRecord.status = [.succeeded] := by
  refine ⟨(terminalJobs_settled variantNaming recoveryStart rfl rfl rfl
    (recoveryHistory .running (digestOf 'a')) (recoveryHistory .running (digestOf 'a'))
    (by decide +kernel) prefix_rfl).1 ?_, by decide +kernel⟩
  have hReturned : (recovered .running (digestOf 'a')).control.isNone := by decide +kernel
  exact isNone_iff_eq_none.mp hReturned

/-- A terminal row whose end was neither asked for nor reported. -/
theorem not_settledExcept {x : JobConfig anyCluster} (jobId : String) (status : JobStatus)
    (hRow : (x.store.jobs.find jobId).map
      (fun job => (job.status, job.exitInformation.cancelRequested, job.jobId)) =
        some (status, false, jobId))
    (hStatus : status ∈ jobTerminalStatuses) (hNone : (outcomesOf x.store jobId).length = 0) :
    ¬ SettledExcept none x := by
  intro h
  obtain ⟨job, hFind, hJob⟩ := map_eq_some_iff.mp hRow
  simp only [Prod.mk.injEq] at hJob
  obtain ⟨rfl, hWanted, hId⟩ := hJob
  have hOne := (h jobId job (by simp) hFind hStatus hWanted).event
  rw [Config.world_fst, hId, hNone] at hOne
  cases hOne

/-- Two polls that end with a SUCCEEDED row no event tells of. In the first the repeated submission
reports SUCCEEDED and the inspection confirms it; in the second the digest of an artifact is 64
times the letter Z. -/
theorem not_settled_recovered :
    ((recovered .succeeded (digestOf 'a')).control = none ∧
        ¬ SettledExcept none (recovered .succeeded (digestOf 'a'))) ∧
      ((recovered .running (digestOf 'Z')).control = none ∧
        ¬ SettledExcept none (recovered .running (digestOf 'Z'))) := by
  have hFirst : (recovered .succeeded (digestOf 'a')).control.isNone := by decide +kernel
  have hSecond : (recovered .running (digestOf 'Z')).control.isNone := by decide +kernel
  refine ⟨⟨isNone_iff_eq_none.mp hFirst, ?_⟩, isNone_iff_eq_none.mp hSecond, ?_⟩
  · exact not_settledExcept "glasslab-job:baseline" .succeeded
      (by decide +kernel) (by decide) (by decide +kernel)
  · exact not_settledExcept "glasslab-job:baseline" .succeeded
      (by decide +kernel) (by decide) (by decide +kernel)

end Glasslab.Engine.Jobs
