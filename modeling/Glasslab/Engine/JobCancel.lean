import Glasslab.Engine.JobRules

/-!
# Cancellation and the cluster

A cluster that keeps its word: a submission is accepted, with or without the answer reaching
the orchestrator, or refused; a key that was accepted before names the same run again; a run is
cancelled by its id; a terminal status is reported only of a run that is over. Runs end by
themselves at any time.

The invariant is that every live run of the cluster belongs to a row that is still unfinished,
and that a stored external run id is the id of the run under the key of its row. A row may be
unfinished without an id while its run is live: the answer was lost, or the process stopped before
the write. `reconcile_run` finds the id again by submitting under the same key. `cancel_run` and
`sweep_cancelled_run_jobs` do not, they write such a row off, and whatever runs under its key is
out of reach from then on.
-/

namespace Glasslab.Engine.Jobs

open Foundation Option

structure ClusterRun where
  id : ExternalRunId
  live : Bool

def ClusterRun.stopped (run : ClusterRun) : ClusterRun := { run with live := false }

/-- The runs that were accepted, under their idempotency keys. -/
abbrev Cluster := Table String ClusterRun

/-- Accept a submission; a key that is known already keeps its run. -/
def acceptRun (c : Cluster) (key : String) (id : ExternalRunId) : Cluster := c.add key ⟨id, true⟩

def stopRun (c : Cluster) (key : String) : Cluster := c.update key ClusterRun.stopped

def cancelById (c : Cluster) (id : ExternalRunId) : Cluster :=
  c.mapRows fun run => if run.id = id then run.stopped else run

def isLive (c : Cluster) (id : ExternalRunId) : Bool :=
  c.rows.any fun entry => entry.2.id = id && entry.2.live

/-- What is said about a run: never that it is over while it is live. -/
def honestStatus (c : Cluster) (id : ExternalRunId) (status : JobStatus) : JobStatus :=
  if status ∈ jobTerminalStatuses ∧ isLive c id then .running else status

/-- How the cluster treats a call: it carries it out and answers, carries it out without the
answer arriving, or refuses. `id` is the name of a new run. The cluster has no part in writing a
notebook; how that ends is `write`. -/
inductive Treatment where
  | serve (id : ExternalRunId) (snapshot : ClusterJobSnapshot)
  | lose (id : ExternalRunId)
  | refuse (message : String)
  | write (written : Except NotebookError AnalysisNotebook)

def submissionAnswer (c : Cluster) (key : String) (status : JobStatus) :
    Except String ClusterSubmission :=
  match c.find key with
  | some run => .ok { externalRunId := run.id, status := honestStatus c run.id status }
  | none => .error "submission lost"

def respond (c : Cluster) : (request : Request) → Treatment → Cluster × request.Answer
  | .submit spec, .serve id snapshot =>
    let c' := acceptRun c spec.idempotencyKey id
    (c', submissionAnswer c' spec.idempotencyKey snapshot.status)
  | .submit spec, .lose id =>
    (acceptRun c spec.idempotencyKey id, (.error "timeout" : Except String ClusterSubmission))
  | .submit _, .refuse message => (c, (.error message : Except String ClusterSubmission))
  | .submit _, .write _ => (c, (.error "refused" : Except String ClusterSubmission))
  | .inspect id, .serve _ snapshot =>
    (c, (.ok { snapshot with status := honestStatus c id snapshot.status } :
      Except String ClusterJobSnapshot))
  | .inspect _, .lose _ => (c, (.error "timeout" : Except String ClusterJobSnapshot))
  | .inspect _, .refuse message => (c, (.error message : Except String ClusterJobSnapshot))
  | .inspect _, .write _ => (c, (.error "refused" : Except String ClusterJobSnapshot))
  | .cancel id, .serve _ _ => (cancelById c id, (.ok () : Except String Unit))
  | .cancel id, .lose _ => (cancelById c id, (.error "timeout" : Except String Unit))
  | .cancel _, .refuse message => (c, (.error message : Except String Unit))
  | .cancel _, .write _ => (c, (.error "refused" : Except String Unit))
  | .notebook _ _, .write written => (c, written)
  | .notebook _ _, _ =>
    (c, (.error (.handled "not written") : Except NotebookError AnalysisNotebook))

def honestCluster : Partner Request Request.Answer where
  State := Cluster
  Choice := Treatment
  respond := respond
  Move := String
  move := stopRun

/-- Runs keep their ids, end for good, and none is added. -/
structure Ages (c c' : Cluster) : Prop where
  kept : ∀ key run, c.find key = some run →
    ∃ run', c'.find key = some run' ∧ run'.id = run.id ∧ (run'.live → run.live)
  none : ∀ key, c.find key = none → c'.find key = none

section Ages

variable {c c' c'' : Cluster}

theorem Ages.refl (c : Cluster) : Ages c c :=
  ⟨fun _ run h => ⟨run, h, rfl, fun hLive => hLive⟩, fun _ h => h⟩

theorem Ages.trans (h : Ages c c') (h' : Ages c' c'') : Ages c c'' := by
  refine ⟨fun key run hFind => ?_, fun key hNone => h'.none key (h.none key hNone)⟩
  obtain ⟨run', hFind', hId, hLive⟩ := h.kept key run hFind
  obtain ⟨run'', hFind'', hId', hLive'⟩ := h'.kept key run' hFind'
  exact ⟨run'', hFind'', hId'.trans hId, fun hAlive => hLive (hLive' hAlive)⟩

variable {key : String}

/-- A run that is there later was there before. -/
theorem Ages.back {run' : ClusterRun} (h : Ages c c')
    (hFind : c'.find key = some run') :
    ∃ run, c.find key = some run ∧ run'.id = run.id ∧ (run'.live → run.live) := by
  cases hBefore : c.find key with
  | none =>
    rw [h.none key hBefore] at hFind
    cases hFind
  | some run =>
    obtain ⟨later, hLater, hId, hLive⟩ := h.kept key run hBefore
    obtain rfl : later = run' := Option.some.inj (hLater.symm.trans hFind)
    exact ⟨run, rfl, hId, hLive⟩

theorem ages_stopRun (key : String) : Ages c (stopRun c key) := by
  refine ⟨fun other run hFind => ?_, fun other hNone => ?_⟩
  · rw [stopRun, Table.find_update, hFind]
    split
    · exact ⟨run.stopped, rfl, rfl, fun h => by cases h⟩
    · exact ⟨run, rfl, rfl, fun h => h⟩
  · rw [stopRun, Table.find_update, hNone]
    split <;> rfl

theorem ages_cancelById (id : ExternalRunId) : Ages c (cancelById c id) := by
  refine ⟨fun key run hFind => ?_, fun key hNone => ?_⟩
  · rw [cancelById, Table.find_mapRows, hFind, map_some]
    split
    · exact ⟨run.stopped, rfl, rfl, fun h => by cases h⟩
    · exact ⟨run, rfl, rfl, fun h => h⟩
  · rw [cancelById, Table.find_mapRows, hNone, map_none]

theorem cancelById_dead {id : ExternalRunId} {run : ClusterRun}
    (hFind : (cancelById c id).find key = some run) (hId : run.id = id) : run.live = false := by
  rw [cancelById, Table.find_mapRows, map_eq_some_iff] at hFind
  obtain ⟨before, -, rfl⟩ := hFind
  by_cases hSame : before.id = id
  · rw [if_pos hSame]
    rfl
  · rw [if_neg hSame] at hId
    exact absurd hId hSame

theorem live_of_honestStatus {id : ExternalRunId} {status : JobStatus}
    {run : ClusterRun} (hTerminal : honestStatus c id status ∈ jobTerminalStatuses)
    (hFind : c.find key = some run) (hId : run.id = id) : run.live = false := by
  by_contra hAlive
  have hLive : isLive c id := by
    simp only [isLive, List.any_eq_true, Bool.and_eq_true, decide_eq_true_eq]
    exact ⟨(key, run), Table.find_eq_some_iff.mp hFind, hId, by simpa using hAlive⟩
  rw [honestStatus] at hTerminal
  split at hTerminal
  · exact absurd hTerminal (by decide)
  next hNot => exact hNot ⟨hTerminal, hLive⟩

end Ages

/-! ## The invariant -/

/-- Every live run belongs to an unfinished row, and every stored id to the run of its row. -/
structure Covered (w : JobStore × Cluster) : Prop where
  keys : KeysWf w.1
  live : ∀ key run, w.2.find key = some run → run.live →
    ∃ jobId job, w.1.jobs.find jobId = some job ∧ job.spec.idempotencyKey = key ∧
      job.status ∈ unfinishedStatuses
  ids : ∀ jobId job id, w.1.jobs.find jobId = some job → job.externalRunId = some id →
    ∃ run, w.2.find job.spec.idempotencyKey = some run ∧ run.id = id

def Gone (job : JobRecord) (w : JobStore × Cluster) : Prop :=
  ∀ run, w.2.find job.spec.idempotencyKey = some run → run.live = false

/-- Nothing runs under the key of an unfinished row without an external run id. -/
def NoneHidden (w : JobStore × Cluster) : Prop :=
  ∀ job ∈ w.1.allJobs, job.status ∈ unfinishedStatuses → job.externalRunId = none → Gone job w

def cancelContract : Contract JobStore Cluster Request Request.Answer where
  Inv := Covered
  Asks _ _ := True
  rely w w' := w'.1.jobs = w.1.jobs ∧ Ages w.2 w'.2
  answers request w c answer := ∃ treatment, respond w.2 request treatment = (c, answer)
  refl w := ⟨rfl, Ages.refl w.2⟩
  trans h h' := ⟨h'.1.trans h.1, h.2.trans h'.2⟩

section Invariant

variable {job record : JobRecord} {w w' : JobStore × Cluster} {treatment : Treatment}
  {c c' : Cluster} {id : ExternalRunId}

theorem respond_inspect
    {answer : Except String ClusterJobSnapshot}
    (h : respond c (.inspect id) treatment = (c', answer)) :
    c' = c ∧ ∀ snapshot, answer = .ok snapshot →
      ∃ status, snapshot.status = honestStatus c id status := by
  cases treatment with
  | serve name snapshot =>
    obtain ⟨rfl, rfl⟩ := Prod.mk.inj h
    exact ⟨rfl, fun _ hOk => ⟨snapshot.status, by rw [← Except.ok.inj hOk]⟩⟩
  | lose name =>
    obtain ⟨rfl, rfl⟩ := Prod.mk.inj h
    exact ⟨rfl, fun _ hOk => by cases hOk⟩
  | refuse _ | write _ =>
    obtain ⟨rfl, rfl⟩ := Prod.mk.inj h
    exact ⟨rfl, fun _ hOk => by cases hOk⟩

theorem respond_cancel
    {answer : Except String Unit} (h : respond c (.cancel id) treatment = (c', answer)) :
    Ages c c' ∧ (answer = .ok () → c' = cancelById c id) := by
  cases treatment with
  | serve name snapshot =>
    obtain ⟨rfl, rfl⟩ := Prod.mk.inj h
    exact ⟨ages_cancelById id, fun _ => rfl⟩
  | lose name =>
    obtain ⟨rfl, rfl⟩ := Prod.mk.inj h
    exact ⟨ages_cancelById id, fun hOk => by cases hOk⟩
  | refuse _ | write _ =>
    obtain ⟨rfl, rfl⟩ := Prod.mk.inj h
    exact ⟨Ages.refl c, fun hOk => by cases hOk⟩

variable {answer : Except String ClusterSubmission}

/-- A submission is accepted, or leaves the cluster as it was; the answer names the run under the
key, and says that it is over only if it is. -/
theorem respond_submit {spec : ExpandedJobSpec}
    (h : respond c (.submit spec) treatment = (c', answer)) :
    (c' = c ∨ ∃ id, c' = acceptRun c spec.idempotencyKey id) ∧
      ∀ submission, answer = .ok submission →
        ∃ run, c'.find spec.idempotencyKey = some run ∧ run.id = submission.externalRunId ∧
          (submission.status ∈ jobTerminalStatuses → run.live = false) := by
  cases treatment with
  | serve id snapshot =>
    obtain ⟨rfl, rfl⟩ := Prod.mk.inj h
    refine ⟨.inr ⟨id, rfl⟩, fun submission hOk => ?_⟩
    rw [submissionAnswer] at hOk
    split at hOk
    next run hFind =>
      obtain rfl := Except.ok.inj hOk
      exact ⟨run, hFind, rfl, fun hTerminal => live_of_honestStatus hTerminal hFind rfl⟩
    next => cases hOk
  | lose id =>
    obtain ⟨rfl, rfl⟩ := Prod.mk.inj h
    exact ⟨.inr ⟨id, rfl⟩, fun _ hOk => by cases hOk⟩
  | refuse _ | write _ =>
    obtain ⟨rfl, rfl⟩ := Prod.mk.inj h
    exact ⟨.inl rfl, fun _ hOk => by cases hOk⟩

theorem respond_notebook {jobId : String} {artifacts : List RecordedArtifact}
    {written : Except NotebookError AnalysisNotebook}
    (h : respond c (.notebook jobId artifacts) treatment = (c', written)) : c' = c := by
  cases treatment <;> exact (Prod.mk.inj h).1.symm

theorem cancel_watches : Watches cancelContract where
  quiet h _ := ⟨h.jobs, Ages.refl _⟩
  jobs h := h.1
  looks _ _ _ := trivial
  looked request {w c a} hLooks h := by
    obtain ⟨treatment, hRespond⟩ := h
    have hSame : c = w.2 := by
      cases request with
      | inspect id => exact (respond_inspect hRespond).1
      | notebook jobId artifacts => exact respond_notebook hRespond
      | submit | cancel => exact hLooks.elim
    subst hSame
    exact ⟨rfl, Ages.refl _⟩

theorem Covered.rely (h : Covered w) (hRely : cancelContract.rely w w') : Covered w' := by
  obtain ⟨hJobs, hAges⟩ := hRely
  refine ⟨?_, fun key run hFind hLive => ?_, fun jobId job id hFind hId => ?_⟩
  · rw [KeysWf, hJobs]
    exact h.keys
  · obtain ⟨before, hBefore, -, hWas⟩ := hAges.back hFind
    rw [hJobs]
    exact h.live key before hBefore (hWas hLive)
  · rw [hJobs] at hFind
    obtain ⟨run, hRun, hRunId⟩ := h.ids jobId job id hFind hId
    obtain ⟨run', hRun', hSame, -⟩ := hAges.kept _ run hRun
    exact ⟨run', hRun', hSame.trans hRunId⟩

theorem Covered.holds : cancelContract.Holds Covered where
  stable _ _ := Covered.rely
  inv _ h := h

theorem Gone.rely (h : Gone job w) (hRely : cancelContract.rely w w') : Gone job w' := by
  intro run hFind
  obtain ⟨before, hBefore, -, hWas⟩ := hRely.2.back hFind
  have hDead := h before hBefore
  by_contra hLive
  rw [hWas (by simpa using hLive)] at hDead
  cases hDead

theorem NoneHidden.rely (h : NoneHidden w) (hRely : cancelContract.rely w w') : NoneHidden w' := by
  intro job hMem hStatus hNew
  rw [JobStore.allJobs, hRely.1] at hMem
  exact (h job hMem hStatus hNew).rely hRely

/-- Writing a row keeps the invariant if the new record is unfinished or nothing runs under its
key, and if it names the run under its key. -/
theorem Covered.putJob (h : Covered w) (hRow : w.1.jobs.find job.jobId = some job)
    (hSpec : record.spec = job.spec) (hStatus : record.status ∈ unfinishedStatuses ∨ Gone job w)
    (hIds : ∀ id, record.externalRunId = some id →
      ∃ run, w.2.find job.spec.idempotencyKey = some run ∧ run.id = id) :
    Covered (w.1.putJob record, w.2) := by
  have hId : record.jobId = job.jobId := by simp only [JobRecord.jobId, hSpec]
  have hWritten : (w.1.putJob record).jobs.find record.jobId = some record :=
    find_putJob_self (hId ▸ hRow)
  refine ⟨h.keys.putJob, fun key run hFind hLive => ?_, fun jobId other id hFind hOther => ?_⟩
  · obtain ⟨jobId, other, hOther, hKey, hUnfinished⟩ := h.live key run hFind hLive
    by_cases hSame : jobId = record.jobId
    · obtain rfl : job = other := by
        rw [hSame, hId, hRow] at hOther
        exact Option.some.inj hOther
      refine ⟨record.jobId, record, hWritten, by rw [hSpec, hKey], ?_⟩
      refine hStatus.resolve_right fun hGone => ?_
      rw [hGone run (hKey ▸ hFind)] at hLive
      cases hLive
    · exact ⟨jobId, other, (find_putJob_ne hSame).trans hOther, hKey, hUnfinished⟩
  · by_cases hSame : jobId = record.jobId
    · obtain rfl : record = other := by
        rw [hSame, hWritten] at hFind
        exact Option.some.inj hFind
      rw [hSpec]
      exact hIds id hOther
    · rw [find_putJob_ne hSame] at hFind
      exact h.ids jobId other id hFind hOther

/-- The run that a submission adds belongs to the row it was made for. -/
theorem Covered.submitted {c : Cluster} (h : Covered w)
    (hRow : w.1.jobs.find job.jobId = some job) (hStatus : job.status ∈ unfinishedStatuses)
    (hAnswer : cancelContract.answers (.submit job.spec) w c answer) : Covered (w.1, c) := by
  obtain ⟨treatment, hRespond⟩ := hAnswer
  rcases (respond_submit hRespond).1 with rfl | ⟨id, rfl⟩
  · exact h
  by_cases hNew : w.2.find job.spec.idempotencyKey = none
  · refine ⟨h.keys, fun key run hFind hLive => ?_, fun jobId other id' hFind hId => ?_⟩
    · rw [acceptRun, Table.find_add hNew] at hFind
      split at hFind
      next hKey => exact ⟨job.jobId, job, hRow, hKey.symm, hStatus⟩
      next => exact h.live key run hFind hLive
    · obtain ⟨run, hRun, hRunId⟩ := h.ids jobId other id' hFind hId
      refine ⟨run, ?_, hRunId⟩
      rw [acceptRun, Table.find_add_ne hNew, hRun]
      rintro hKey
      rw [hKey, hNew] at hRun
      cases hRun
  · have hSame : acceptRun w.2 job.spec.idempotencyKey id = w.2 := by
      rw [acceptRun, Table.add, dif_neg hNew]
    rw [hSame]
    exact h

theorem gone_of_run {run : ClusterRun}
    (hFind : w.2.find job.spec.idempotencyKey = some run) (hDead : run.live = false) :
    Gone job w := by
  intro other hOther
  rw [hFind] at hOther
  rw [← Option.some.inj hOther, hDead]

theorem cancel_discipline (naming : Naming) :
    Discipline cancelContract naming (fun _ => Covered) (fun _ _ => Covered) where
  watches := cancel_watches
  idle _ := Covered.holds
  hold _ _ := Covered.holds
  keys h := h.keys
  relax h := h
  reserve h := h
  take h _ _ _ := h
  takeQueued {_ job w} h hRow _ _ := by
    refine h.putJob hRow rfl (.inl ?_) fun id hId => h.ids job.jobId job id hRow hId
    simp [withStatus, unfinishedStatuses]
  release h _ _ := h
  keep {_ job w} record h hRow hRewrites hSame hStatus _ := by
    refine h.putJob hRow hRewrites.spec (.inl hStatus) fun id hId => ?_
    exact h.ids job.jobId job id hRow (hSame ▸ hId)
  call h _ _ := ⟨h.keys, h.live, h.ids⟩
  asks _ _ _ := trivial
  answered h hRow hStatus hAnswer := h.submitted hRow hStatus hAnswer
  accept {_ job w c w' submission} record h hRow hStatus hAnswer hRely hRewrites hId hEither := by
    obtain ⟨treatment, hRespond⟩ := hAnswer
    obtain ⟨run, hRun, hRunId, hOver⟩ := (respond_submit hRespond).2 submission rfl
    obtain ⟨run', hRun', hSame, hWas⟩ := hRely.2.kept _ run hRun
    have hCovered := (h.submitted hRow hStatus ⟨treatment, hRespond⟩).rely hRely
    refine hCovered.putJob (hRely.1.symm ▸ hRow) hRewrites.spec ?_ fun id hSome => ?_
    · by_cases hTerminal : submission.status ∈ jobTerminalStatuses
      · refine .inr (gone_of_run hRun' ?_)
        by_contra hLive
        have hAlive := hWas (by simpa using hLive)
        rw [hOver hTerminal] at hAlive
        cases hAlive
      · refine .inl (hEither.elim id fun hStatus => ?_)
        rw [hStatus]
        revert hTerminal
        cases submission.status <;> decide
    · rw [hId] at hSome
      exact ⟨run', hRun', (hSame.trans hRunId).trans (Option.some.inj hSome)⟩
  unchanged h _ _ hAnswer _ := h.rely (cancel_watches.inspected hAnswer)
  refused h _ _ hAnswer _ := h.rely (cancel_watches.inspected hAnswer)
  outcome {job rest id w c w' _ snapshot} h hListed hId hAnswer hTerminal _ hRely := by
    have hSince := cancelContract.trans (cancel_watches.inspected hAnswer) hRely
    have hListed' := hListed.of_jobs_eq hSince.1
    obtain ⟨run, hRun, hRunId⟩ := h.ids job.jobId job id hListed.head hId
    have hGone : Gone job w := by
      obtain ⟨treatment, hRespond⟩ := hAnswer
      obtain ⟨-, hSnapshot⟩ := respond_inspect hRespond
      obtain ⟨status, hStatus⟩ := hSnapshot snapshot rfl
      rw [hStatus] at hTerminal
      exact gone_of_run hRun (live_of_honestStatus hTerminal hRun hRunId)
    have hCovered : Covered (w'.1.putJob (withSnapshot job snapshot), w'.2) := by
      refine (h.rely hSince).putJob hListed'.head rfl (.inr (hGone.rely hSince)) fun id hSome => ?_
      exact (h.rely hSince).ids job.jobId job id hListed'.head hSome
    have hNext : Listed (withSnapshot job snapshot :: rest)
        (w'.1.putJob (withSnapshot job snapshot)) := hListed'.putJob rfl
    refine (safe_recordOutcome cancel_watches (cancel_watches.listed Covered.holds _)
      (fun _ _ _ => ⟨rfl, Ages.refl _⟩) ⟨hCovered, hNext.tail⟩).mono (fun _ _ h => h) ?_
    exact fun _ _ h => h.1

theorem cancel_cancel :
    CancelDiscipline cancelContract (fun w => Covered w ∧ NoneHidden w) Gone where
  watches := cancel_watches
  idle := Covered.holds.and fun _ _ => NoneHidden.rely
  keys h := h.1.keys
  gone := Gone.rely
  asks _ _ := trivial
  answered {id w c a} h hAnswer := by
    obtain ⟨treatment, hRespond⟩ := hAnswer
    have hRely : cancelContract.rely w (w.1, c) := ⟨rfl, (respond_cancel hRespond).1⟩
    exact ⟨h.1.rely hRely, h.2.rely hRely⟩
  confirmed {job id w c} h hRow hId hAnswer := by
    obtain ⟨treatment, hRespond⟩ := hAnswer
    obtain ⟨hAges, hCancelled⟩ := respond_cancel hRespond
    intro run hFind
    obtain ⟨before, hBefore, hSame, -⟩ := hAges.back hFind
    obtain ⟨own, hOwn, hOwnId⟩ := h.1.ids job.jobId job id hRow hId
    obtain rfl : own = before := Option.some.inj (hOwn.symm.trans hBefore)
    rw [hCancelled rfl] at hFind
    exact cancelById_dead hFind (hSame.trans hOwnId)
  unsubmitted {job w} h hRow hStatus hNew := h.2 job ((mem_allJobs h.1.keys).mpr hRow) hStatus hNew
  drop {job w} h hRow _ hGone := by
    refine ⟨h.1.putJob hRow rfl (.inr hGone) fun id hId => h.1.ids job.jobId job id hRow hId, ?_⟩
    intro other hMem hStatus hNew
    have hFind := (mem_allJobs h.1.keys.putJob).mp hMem
    by_cases hSame : other.jobId = (cancelRequested job).jobId
    · have hDropped : (w.1.putJob (cancelRequested job)).jobs.find (cancelRequested job).jobId =
          some (cancelRequested job) := find_putJob_self hRow
      rw [hSame, hDropped] at hFind
      rw [← Option.some.inj hFind] at hStatus
      exact absurd hStatus (by simp [cancelRequested, unfinishedStatuses])
    · rw [find_putJob_ne hSame] at hFind
      exact h.2 other ((mem_allJobs h.1.keys).mpr hFind) hStatus hNew

theorem cancel_create : CreateDiscipline cancelContract (fun _ => Covered) where
  watches := cancel_watches
  plan _ := Covered.holds
  skip h _ := h
  add {spec _ w} h _ hFree := by
    have hFree' : w.1.jobs.find (queuedRecord spec).jobId = none := hFree
    refine ⟨h.keys.addJob hFree', fun key run hFind hLive => ?_, fun jobId job id hFind hId => ?_⟩
    · obtain ⟨jobId, job, hRow, hKey, hStatus⟩ := h.live key run hFind hLive
      refine ⟨jobId, job, ?_, hKey, hStatus⟩
      rw [JobStore.addJob, Table.find_add_ne hFree', hRow]
      rintro rfl
      rw [hFree'] at hRow
      cases hRow
    · rw [JobStore.addJob, Table.find_add hFree'] at hFind
      split at hFind
      · rw [← Option.some.inj hFind] at hId
        cases hId
      · exact h.ids jobId job id hFind hId

end Invariant

section Runs

variable {naming : Naming}

/-- No call that writes jobs off starts while something runs under the key of an unfinished row
without an external run id. -/
def CancelAdmits (naming : Naming) (x : JobConfig honestCluster) :
    Input (component naming) honestCluster → Prop
  | .call (.cancelRun seen) => x.control = none → seen ∉ terminalStates → NoneHidden x.world
  | .call .sweepCancelledRunJobs => x.control = none → NoneHidden x.world
  | _ => True

theorem cancel_governs :
    Governs (component naming) honestCluster cancelContract Covered (CancelAdmits naming) where
  idle := Covered.holds
  entry x e hAdmits hControl h := by
    have hD := cancel_discipline naming
    match e with
    | .submitMatrix actionId matrix prepared =>
      exact safe_submitMatrix cancel_create (fun h => h) Covered.holds Covered.holds
        (fun _ h => h) (fun w h => ⟨h.keys, h.live, h.ids⟩) (fun _ => safe_fillJobCapacity hD) h
    | .fillJobCapacity => exact safe_fillJobCapacity hD h
    | .reconcileRun => exact safe_reconcileRun hD h
    | .cancelRun seen =>
      by_cases hOver : seen ∈ terminalStates
      · show Safe _ _ _ (cancelRun seen) _
        rw [cancelRun, if_pos hOver]
        exact safe_pure Covered.holds h fun _ h => h
      · exact (safe_cancelRun cancel_cancel ⟨h, hAdmits hControl hOver⟩).mono
          (fun _ _ h => h.1) fun _ _ h => h.1
    | .sweepCancelledRunJobs =>
      exact (safe_sweepCancelledRunJobs cancel_cancel ⟨h, hAdmits hControl⟩).mono
        (fun _ _ h => h.1) fun _ _ h => h.1
    | .resumeRun => exact safe_resumeRun cancel_watches Covered.holds h
    | .advance target => exact safe_transition cancel_watches Covered.holds h
  interfere x seen _ := cancel_watches.quiet (Quiet.pause seen x.store)
    (pause_submissions seen x.store)
  move _ key _ := ⟨rfl, ages_stopRun key⟩
  reply _ _ treatment _ _ := ⟨treatment, rfl⟩
  crash _ _ h := ⟨h.keys, h.live, h.ids⟩

def NothingLeft (x : JobConfig honestCluster) : Prop :=
  x.store.runState = .cancelled → (∀ job ∈ x.store.allJobs, job.status ∉ unfinishedStatuses) →
    ∀ key run, x.partner.find key = some run → run.live = false

theorem nothingLeft_of_covered {x : JobConfig honestCluster} (h : Covered x.world) :
    NothingLeft x := by
  intro _ hFinished key run hFind
  by_contra hLive
  obtain ⟨jobId, job, hRow, -, hStatus⟩ := h.live key run hFind (by simpa using hLive)
  refine hFinished job ((mem_allJobs h.keys).mpr ?_) hStatus
  rw [h.keys jobId job hRow]
  exact hRow

/-- Cancellation leaves nothing on the cluster in every run in which no job without an external run
id is live when a cancellation or a sweep starts. -/
theorem nothingLeft_of_noneHidden (naming : Naming) (x : JobConfig honestCluster)
    (hJobs : x.store.jobs = Table.empty) (hCluster : x.partner = Table.empty)
    (hIdle : x.control = none) (inputs pre : List (Input (component naming) honestCluster))
    (hHidden : Machine.Along ((component naming).step honestCluster) (CancelAdmits naming) x inputs)
    (hPre : pre <+: inputs) : NothingLeft (run naming honestCluster x pre) := by
  have hStart : Sound cancelContract Covered x := by
    refine sound_of_idle hIdle ⟨fun jobId job hFind => ?_, fun key run hFind => ?_,
      fun jobId job id hFind => ?_⟩
    · rw [Config.world_fst, hJobs, Table.find_empty] at hFind
      cases hFind
    · have hNone : x.partner.find key = none := by rw [hCluster, Table.find_empty]
      cases hNone.symm.trans hFind
    · rw [Config.world_fst, hJobs, Table.find_empty] at hFind
      cases hFind
  have hSound : Sound cancelContract Covered (run naming honestCluster x pre) :=
    hHidden.invariant_prefix cancel_governs.sound_step hStart hPre
  exact nothingLeft_of_covered (hSound.inv Covered.holds)

instance (job : JobRecord) (w : JobStore × Cluster) : Decidable (Gone job w) :=
  match h : w.2.find job.spec.idempotencyKey with
  | some run => decidable_of_iff (run.live = false) (by simp [Gone, h])
  | none => .isTrue (by simp [Gone, h])

instance (w : JobStore × Cluster) : Decidable (NoneHidden w) :=
  inferInstanceAs (Decidable (∀ job ∈ w.1.allJobs, _ → _ → Gone job w))

instance (x : JobConfig honestCluster) : ∀ i, Decidable (CancelAdmits naming x i)
  | .call (.cancelRun seen) =>
    have : Decidable (NoneHidden x.world) := inferInstanceAs (Decidable (NoneHidden (_, _)))
    inferInstanceAs (Decidable (x.control = none → seen ∉ terminalStates → NoneHidden x.world))
  | .call .sweepCancelledRunJobs =>
    have : Decidable (NoneHidden x.world) := inferInstanceAs (Decidable (NoneHidden (_, _)))
    inferInstanceAs (Decidable (x.control = none → NoneHidden x.world))
  | .call (.submitMatrix _ _ _) | .call .fillJobCapacity | .call .reconcileRun
  | .call .resumeRun | .call (.advance _)
  | .tick | .reply _ | .interfere _ | .move _ | .crash => .isTrue trivial

end Runs

def cancelStart : JobConfig honestCluster := ⟨newStore 4, Table.empty, none⟩

def cancelHistory (treatment : Treatment) : List (Input (component variantNaming) honestCluster) :=
  paced [.call (.submitMatrix "action-1" (matrixOf ["baseline"] 1) (.ok ())), .reply treatment,
    .call (.cancelRun .jobRunning), .reply (.serve firstRun { status := .cancelled })]

def cancelled (treatment : Treatment) : JobConfig honestCluster :=
  run variantNaming honestCluster cancelStart (cancelHistory treatment)

theorem nothingLeft_answerReceived :
    NothingLeft (cancelled (.serve firstRun { status := .running })) ∧
      (cancelled (.serve firstRun { status := .running })).store.runState = .cancelled ∧
      (cancelled (.serve firstRun { status := .running })).store.allJobs.map JobRecord.status =
        [.cancelled] :=
  ⟨nothingLeft_of_noneHidden variantNaming cancelStart rfl rfl rfl
    (cancelHistory (.serve firstRun { status := .running }))
    (cancelHistory (.serve firstRun { status := .running })) (by decide +kernel) List.prefix_rfl,
    by decide +kernel, by decide +kernel⟩

/-- The submission is accepted and its answer lost: the run is CANCELLED, its only row too, and
the accepted job goes on. -/
theorem not_nothingLeft_answerLost : ¬ NothingLeft (cancelled (.lose firstRun)) := by
  intro h
  have hCancelled : (cancelled (.lose firstRun)).store.runState = .cancelled := by decide +kernel
  have hFinished : ∀ job ∈ (cancelled (.lose firstRun)).store.allJobs,
      job.status ∉ unfinishedStatuses := by decide +kernel
  have hLive : ((cancelled (.lose firstRun)).partner.find "baseline").map ClusterRun.live =
      some true := by decide +kernel
  obtain ⟨run, hFind, hAlive⟩ := map_eq_some_iff.mp hLive
  have hDead := h hCancelled hFinished "baseline" run hFind
  rw [hAlive] at hDead
  cases hDead

end Glasslab.Engine.Jobs
