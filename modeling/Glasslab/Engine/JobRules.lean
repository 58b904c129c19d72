import Glasslab.Engine.Jobs

/-!
# Rules for the job functions

What the job functions do to the rows, said once. Most of their steps leave the rows alone
(`Quiet`); a `Watches` contract counts such steps as interference, so that any assertion it
holds passes through them. The others work on one job at a time: a pass lists the rows it is
going to visit, the lock keeps the list true, and each visit writes the row of its own job only.

A `Discipline` is what an invariant has to say about the row in hand: `Hold` is the invariant
with one row exempted, `Idle` the invariant between visits, where `n` is the number of jobs that
the pass may still hand over. From the facts about single writes that it collects,
`safe_fillJobCapacity` and `safe_reconcileRun` follow for the whole passes.
-/

namespace Glasslab.Engine.Jobs

open Foundation List

/-! ## Quiet steps -/

def outcomeEvents (s : JobStore) : List JobEvent :=
  s.events.filter fun e => e.eventType ∈ ["job.completed", "job.failed"]

def JobStore.constants (s : JobStore) : String × Nat × String :=
  (s.runId, s.maximumParallelJobs, s.evaluationContractDigest)

/-- A change that leaves the job rows and what was said about their outcome alone. -/
structure Quiet (s s' : JobStore) : Prop where
  jobs : s'.jobs = s.jobs
  matrix : s'.matrix = s.matrix
  constants : s'.constants = s.constants
  outcomeEvents : outcomeEvents s' = outcomeEvents s
  recordings : ∀ call ∈ s.recordings, call ∈ s'.recordings

theorem Quiet.refl (s : JobStore) : Quiet s s := ⟨rfl, rfl, rfl, rfl, fun _ h => h⟩

theorem Quiet.pause (seen : RunState) (s : JobStore) : Quiet s (s.pause seen) := by
  unfold JobStore.pause
  split
  · exact ⟨rfl, rfl, rfl, rfl, fun _ h => h⟩
  · exact Quiet.refl s

theorem pause_submissions (seen : RunState) (s : JobStore) :
    (s.pause seen).submissions = s.submissions := by
  unfold JobStore.pause
  split <;> rfl

variable {γ : Type} {S : Contract JobStore γ Request Request.Answer}

/-- A question about how things are: it changes nothing on the cluster. -/
def Request.Looks : Request → Prop
  | inspect _ | notebook _ _ => True
  | submit _ | cancel _ => False

/-- A contract that counts quiet steps and such questions as interference. -/
structure Watches (S : Contract JobStore γ Request Request.Answer) : Prop where
  quiet : ∀ {s s' c}, Quiet s s' → s'.submissions = s.submissions → S.rely (s, c) (s', c)
  jobs : ∀ {w w'}, S.rely w w' → w'.1.jobs = w.1.jobs
  looks : ∀ (request : Request) w, request.Looks → S.Asks request w
  looked : ∀ (request : Request) {w c a}, request.Looks → S.answers request w c a →
    S.rely w (w.1, c)

theorem Watches.inspected {w : JobStore × γ} {id : ExternalRunId} {c : γ}
    {answer : Except String ClusterJobSnapshot} (hS : Watches S)
    (h : S.answers (.inspect id) w c answer) : S.rely w (w.1, c) :=
  hS.looked (.inspect id) trivial h

variable {w : JobStore × γ} {E : String → JobStore × γ → Prop} {naming : Naming} {α : Type}

section Quiet

variable {P : JobStore × γ → Prop} {Q : α → JobStore × γ → Prop} {g : JobStore → JobM α}

theorem safe_quiet {f : JobStore → JobStore} (hS : Watches S)
    (hP : S.Holds P) (h : P w)
    (hf : ∀ s, Quiet s (f s) ∧ (f s).submissions = s.submissions)
    (hNext : ∀ s w, P w → Safe S Q E (g s) w) : Safe S Q E (Proc.access f >>= g) w := by
  refine safe_access hP h fun w hw => hNext w.1 _ ?_
  exact hP.stable w _ hw (hS.quiet (hf w.1).1 (hf w.1).2)

theorem safe_getStore (hP : S.Holds P) (h : P w)
    (hNext : ∀ w, P w → Safe S Q E (g w.1) w) : Safe S Q E (getStore >>= g) w :=
  safe_access hP h hNext

section

variable (hS : Watches S)
  (hP : S.Holds P)
include hS hP

theorem safe_event {source eventType : String} {payload : Payload} (h : P w)
    (hType : eventType ∉ ["job.completed", "job.failed"]) :
    Safe S (fun _ => P) E (event source eventType payload) w := by
  refine safe_quiet hS hP h (fun s => ⟨⟨rfl, rfl, rfl, ?_, fun _ h => h⟩, rfl⟩) ?_
  · have hNone : decide (eventType ∈ ["job.completed", "job.failed"]) = false := by
      simpa using hType
    simp only [outcomeEvents, filter_append, filter_cons, hNone, filter_nil,
      Bool.false_eq_true, if_false, append_nil]
  · exact fun s w hw => hP.ret hw

theorem safe_transition {target : RunState} (h : P w) :
    Safe S (fun _ => P) (fun _ => P) (transition target) w := by
  refine safe_quiet hS hP h (fun s => ?_) fun s w hw => ?_
  · split
    · exact ⟨⟨rfl, rfl, rfl, rfl, fun _ h => h⟩, rfl⟩
    · exact ⟨Quiet.refl s, rfl⟩
  · split
    · exact hP.ret hw
    · exact hP.raise hw

theorem safe_saveArtifact {record : RecordedArtifact} {g : JobStore → JobM α} (h : P w)
    (hNext : ∀ s w, P w → Safe S Q E (g s) w) :
    Safe S Q E (Proc.access (fun s => s.saveArtifact record) >>= g) w := by
  refine safe_quiet hS hP h (fun s => ?_) hNext
  unfold JobStore.saveArtifact
  split
  · exact ⟨Quiet.refl s, rfl⟩
  · exact ⟨⟨rfl, rfl, rfl, rfl, fun _ h => h⟩, rfl⟩

/-- Recording raises at the first digest that is malformed, and nowhere else. -/
theorem safe_recordArtifacts {jobId : String} (artifacts : List ClusterArtifact)
    (existing : List String)
    (hRefused : (∃ artifact ∈ artifacts, isSha256 artifact.sha256 = false) → ∀ m w, P w → E m w)
    (h : P w) :
    Safe S (fun _ => P) E (recordArtifacts naming jobId artifacts existing) w := by
  induction artifacts generalizing existing w with
  | nil => exact hP.ret h
  | cons artifact rest ih =>
    have hRest : (∃ other ∈ rest, isSha256 other.sha256 = false) → ∀ m w, P w → E m w := by
      rintro ⟨other, hMem, hBad⟩
      exact hRefused ⟨other, mem_cons_of_mem _ hMem, hBad⟩
    unfold recordArtifacts
    dsimp only
    split
    · exact ih existing hRest h
    · split
      · refine safe_saveArtifact hS hP h fun s w hw => ?_
        refine (safe_event hS hP hw (by decide)).seq fun _ w hw => ?_
        refine (ih _ hRest hw).seq fun recorded w hw => ?_
        exact hP.ret hw
      next hBad =>
        have hMalformed : isSha256 artifact.sha256 = false := by simpa using hBad
        exact safe_raise hP h (hRefused ⟨artifact, mem_cons_self, hMalformed⟩ _)

/-- The notebook raises only what its caller does not handle. -/
theorem safe_notebookFrom {job : JobRecord} {recorded : List RecordedArtifact}
    (hEscaped : ∀ artifacts w c m, P w →
      S.answers (.notebook job.jobId artifacts) w c (.error (.escaped m)) → ∀ w, P w → E m w)
    (h : P w) : Safe S (fun _ => P) E (notebookFrom naming job recorded) w := by
  unfold notebookFrom
  split
  · refine safe_getStore hP h fun w h => ?_
    dsimp only
    split
    · exact hP.ret h
    · refine safe_getStore hP h fun w h => ?_
      refine safe_query hP h (fun w _ => hS.looks _ w trivial) fun w c answer h hAnswer => ?_
      have h' : P (w.1, c) := hP.stable w _ h (hS.looked (.notebook job.jobId _) trivial hAnswer)
      match answer with
      | .error (.escaped m) => exact safe_raise hP h' (hEscaped _ w c m h hAnswer)
      | .error (.handled m) => exact safe_event hS hP h' (by decide)
      | .ok notebook =>
        refine safe_saveArtifact hS hP h' fun s w h => ?_
        exact safe_event hS hP h (by decide)
  · exact hP.ret h

variable {artifacts : List ClusterArtifact}

/-- Recording the artifacts of a job, under an assertion that the call itself does not break. -/
theorem safe_recordJobArtifacts {job : JobRecord} (h : P w) :
    Safe S (fun _ => P) (fun _ => P) (recordJobArtifacts naming job artifacts) w := by
  refine safe_quiet hS hP h (fun s => ⟨⟨rfl, rfl, rfl, rfl, ?_⟩, rfl⟩) fun s w h => ?_
  · exact fun call hCall => mem_cons_of_mem _ hCall
  · refine (safe_recordArtifacts hS hP _ _ (fun _ _ _ h => h) h).seq fun recorded w h => ?_
    refine (safe_notebookFrom hS hP (fun _ _ _ _ _ _ _ h => h) h).seq fun _ w h => ?_
    exact hP.ret h

variable {newlyRecorded : Nat}

/-- A contract that does not listen to events lets the report of an outcome pass as well. -/
theorem safe_recordOutcome {updated : JobRecord}
    (hDeaf : ∀ s events c, S.rely (s, c) ({ s with events := events }, c)) (h : P w) :
    Safe S (fun _ => P) (fun _ => P) (recordOutcome naming updated artifacts newlyRecorded) w := by
  refine (safe_recordJobArtifacts hS hP h).seq fun recorded w h => ?_
  refine safe_bind (Safe.mono (Q := fun _ => P) ?_ ?_ fun _ _ h => h)
  · refine safe_access hP h fun w h => ?_
    exact safe_pure hP (hP.stable w _ h (hDeaf _ _ _)) fun _ h => h
  · exact fun _ w h => hP.ret h

theorem safe_inspect {id : ExternalRunId} {g : Except String ClusterJobSnapshot → JobM α} (h : P w)
    (hNext : ∀ (w : JobStore × γ) (c : γ) (a : Except String ClusterJobSnapshot), P w →
      S.answers (.inspect id) w c a → Safe S Q E (g a) (w.1, c)) :
    Safe S Q E (inspect id >>= g) w :=
  safe_query hP h (fun w _ => hS.looks (.inspect id) w trivial) hNext

theorem safe_syncJobs (jobs : List JobRecord) (h : P w) :
    Safe S (fun _ => P) (fun _ => P) (syncJobs naming jobs) w := by
  induction jobs generalizing w with
  | nil => exact hP.ret h
  | cons job rest ih =>
    unfold syncJobs
    split
    · exact ih h
    · split
      · refine safe_inspect hS hP h fun w c a hw hAnswer => ?_
        have hw' : P (w.1, c) := hP.stable w _ hw (hS.inspected hAnswer)
        cases a with
        | error exc =>
          refine (safe_event hS hP hw' (by decide)).seq fun _ w hw => ?_
          exact ih hw
        | ok snapshot =>
          refine (safe_recordJobArtifacts hS hP hw').seq fun _ w hw => ?_
          refine (ih hw).seq fun _ w hw => ?_
          exact hP.ret hw
      · exact ih h

theorem safe_syncWaveArtifacts (h : P w) :
    Safe S (fun _ => P) (fun _ => P) (syncWaveArtifacts naming) w :=
  safe_getStore hP h fun _ hw => safe_syncJobs hS hP _ hw

theorem safe_finishWave (h : P w) :
    Safe S (fun _ => P) (fun _ => P) (finishWave naming newlyRecorded) w := by
  refine (safe_syncWaveArtifacts hS hP h).seq fun synced w hw => ?_
  refine safe_getStore hP hw fun w hw => ?_
  have hReset : ∀ w, P w → Safe S (fun _ => P) (fun _ => P)
      (do let _ ← Proc.access fun s => { s with waveDeferrals := 0 }
          transition .beakerAnalyzing : JobM Unit) w := by
    refine fun w hw => safe_quiet hS hP hw (fun s => ⟨⟨rfl, rfl, rfl, rfl, fun _ h => h⟩, rfl⟩) ?_
    exact fun s w hw => safe_transition hS hP hw
  split
  · refine safe_quiet hS hP hw (fun s => ⟨⟨rfl, rfl, rfl, rfl, fun _ h => h⟩, rfl⟩) ?_
    exact fun s w hw => hP.ret hw
  · split
    · refine (safe_event hS hP hw (by decide)).seq fun _ w hw => ?_
      exact hReset w hw
    · exact hReset w hw

theorem safe_resumeRun (h : P w) :
    Safe S (fun _ => P) (fun _ => P) resumeRun w := by
  refine safe_getStore hP h fun w hw => ?_
  split
  · refine (safe_transition hS hP hw).seq fun _ w hw => ?_
    refine safe_quiet hS hP hw (fun s => ⟨⟨rfl, rfl, rfl, rfl, fun _ h => h⟩, rfl⟩) ?_
    exact fun s w hw => hP.ret hw
  · exact hP.raise hw

end

end Quiet

def KeysWf (s : JobStore) : Prop :=
  ∀ jobId job, s.jobs.find jobId = some job → job.jobId = jobId

/-- The records a pass is going to visit are the rows of distinct jobs. -/
def Listed (jobs : List JobRecord) (s : JobStore) : Prop :=
  (jobs.map JobRecord.jobId).Nodup ∧ ∀ job ∈ jobs, s.jobs.find job.jobId = some job

variable {job : JobRecord} {rest : List JobRecord}

section Rows

variable {s : JobStore} {record : JobRecord} {jobs : List JobRecord}

theorem find_putJob_self (h : s.jobs.find record.jobId = some job) :
    (s.putJob record).jobs.find record.jobId = some record := by
  simp [JobStore.putJob, h]

theorem find_putJob_ne {jobId : String} (h : jobId ≠ record.jobId) :
    (s.putJob record).jobs.find jobId = s.jobs.find jobId :=
  Table.find_update_ne h

theorem mem_allJobs (hKeys : KeysWf s) : job ∈ s.allJobs ↔ s.jobs.find job.jobId = some job := by
  simp only [JobStore.allJobs, mem_map, Prod.exists, exists_eq_right, Table.find_eq_some_iff]
  constructor
  · rintro ⟨jobId, hMem⟩
    rwa [hKeys jobId job (Table.find_eq_some_iff.mpr hMem)]
  · exact fun hMem => ⟨job.jobId, hMem⟩

theorem KeysWf.putJob (h : KeysWf s) : KeysWf (s.putJob record) := by
  intro jobId job hFind
  by_cases hId : jobId = record.jobId
  · subst hId
    rw [JobStore.putJob, Table.find_update_self, Option.map_eq_some_iff] at hFind
    obtain ⟨-, -, rfl⟩ := hFind
    rfl
  · exact h jobId job (find_putJob_ne hId ▸ hFind)

theorem KeysWf.addJob (h : KeysWf s) (hFree : s.jobs.find record.jobId = none) :
    KeysWf (s.addJob record) := by
  intro jobId job hFind
  rw [JobStore.addJob, Table.find_add hFree] at hFind
  split at hFind
  next hId => rw [hId, Option.some.inj hFind]
  next => exact h jobId job hFind

theorem listed_allJobs (hKeys : KeysWf s) : Listed s.allJobs s := by
  constructor
  · have hIds : s.allJobs.map JobRecord.jobId = s.jobs.rows.map Prod.fst := by
      rw [JobStore.allJobs, map_map]
      refine map_congr_left fun p hp => ?_
      exact hKeys p.1 p.2 (Table.find_eq_some_iff.mpr hp)
    rw [hIds]
    exact s.jobs.nodup
  · exact fun job hJob => (mem_allJobs hKeys).mp hJob

theorem Listed.sublist (h : Listed jobs s) (hSub : rest.Sublist jobs) : Listed rest s :=
  ⟨h.1.sublist (hSub.map _), fun job hJob => h.2 job (hSub.subset hJob)⟩

theorem listed_unfinished (hKeys : KeysWf s) : Listed s.unfinished s :=
  (listed_allJobs hKeys).sublist filter_sublist

theorem Listed.head (h : Listed (job :: rest) s) : s.jobs.find job.jobId = some job :=
  h.2 job mem_cons_self

theorem Listed.tail (h : Listed (job :: rest) s) : Listed rest s :=
  h.sublist (sublist_cons_self job rest)

theorem Listed.of_jobs_eq {s' : JobStore} (h : Listed jobs s) (hJobs : s'.jobs = s.jobs) :
    Listed jobs s' :=
  ⟨h.1, fun job hJob => hJobs ▸ h.2 job hJob⟩

/-- Writing the row of the job in hand leaves the rest of the pass true. -/
theorem Listed.putJob (h : Listed (job :: rest) s) (hId : record.jobId = job.jobId) :
    Listed (record :: rest) (s.putJob record) := by
  have hNodup := h.1
  rw [map_cons, nodup_cons] at hNodup
  refine ⟨by rw [map_cons, nodup_cons, hId]; exact hNodup, fun other hOther => ?_⟩
  rcases mem_cons.mp hOther with rfl | hRest
  · exact find_putJob_self (hId ▸ h.head)
  · have hNe : other.jobId ≠ record.jobId := by
      intro hEq
      exact hNodup.1 (mem_map.mpr ⟨other, hRest, hEq.trans hId⟩)
    rw [find_putJob_ne hNe]
    exact h.2 other (mem_cons_of_mem _ hRest)

end Rows

section Writes

variable {P P' : JobStore × γ → Prop} {Q : α → JobStore × γ → Prop}

/-- Writing a row that is there starts a program. Only a row that is CANCELLED refuses. -/
theorem safe_updateJob {job record : JobRecord} {g : JobRecord → JobM α} (hP : S.Holds P)
    (h : P w) (hRow : ∀ w, P w → w.1.jobs.find record.jobId = some job)
    (hNext : ∀ w, P w → Safe S Q E (g record) (w.1.putJob record, w.2))
    (hRefused : job.status = .cancelled → ∀ m w, P w → E m w) :
    Safe S Q E (updateJob record >>= g) w := by
  refine safe_access_bind hP h fun w hw => ?_
  cases hRefusal : w.1.updateRefusal record with
  | none =>
    exact hNext w hw
  | some message =>
    have hCancelled : job.status = .cancelled := by
      by_contra hNot
      simp [JobStore.updateRefusal, hRow w hw, hNot] at hRefusal
    exact safe_raise hP hw fun w hw => hRefused hCancelled message w hw

theorem safe_submit {spec : ExpandedJobSpec} {g : Except String ClusterSubmission → JobM α}
    (hP : S.Holds P) (hP' : S.Holds P') (h : P w)
    (hLog : ∀ w, P w → P' ({ w.1 with submissions := spec :: w.1.submissions }, w.2))
    (hAsks : ∀ w, P' w → S.Asks (.submit spec) w)
    (hNext : ∀ (w : JobStore × γ) (c : γ) (a : Except String ClusterSubmission), P' w →
      S.answers (.submit spec) w c a → Safe S Q E (g a) (w.1, c)) :
    Safe S Q E (submit spec >>= g) w := by
  refine safe_access (g := fun _ => Proc.query (Request.submit spec) >>= g) hP h fun w hw => ?_
  exact safe_query hP' (hLog w hw) hAsks hNext

end Writes

/-! ## Passes over the rows -/

/-- A rewrite of a record by a pass: the job stays, and nobody asks for its cancellation. -/
structure Rewrites (record job : JobRecord) : Prop where
  spec : record.spec = job.spec
  exit : record.exitInformation.cancelRequested → job.exitInformation.cancelRequested

theorem Rewrites.jobId {record : JobRecord} (h : Rewrites record job) :
    record.jobId = job.jobId := by
  rw [JobRecord.jobId, h.spec]
  rfl

theorem rewrites_withSubmission {status : JobStatus}
    {submission : ClusterSubmission} : Rewrites (withSubmission job status submission) job :=
  ⟨rfl, fun h => h⟩

theorem rewrites_withSnapshot {snapshot : ClusterJobSnapshot} :
    Rewrites (withSnapshot job snapshot) job := ⟨rfl, fun h => by cases h⟩

/-- What an invariant says about the writes of a pass. `Hold n job` is the invariant with the row
of `job` in hand, `Idle n` the invariant between two visits; `n` jobs may still be handed over. -/
structure Discipline (S : Contract JobStore γ Request Request.Answer) (naming : Naming)
    (Idle : Nat → JobStore × γ → Prop) (Hold : Nat → JobRecord → JobStore × γ → Prop) : Prop where
  watches : Watches S
  idle : ∀ n, S.Holds (Idle n)
  hold : ∀ n job, S.Holds (Hold n job)
  keys : ∀ {n w}, Idle n w → KeysWf w.1
  relax : ∀ {n w}, Idle n w → Idle 0 w
  reserve : ∀ {w}, Idle 0 w →
    Idle (w.1.maximumParallelJobs - (w.1.unfinished.filter isActive).length) w
  take : ∀ {job w}, Idle 0 w → w.1.jobs.find job.jobId = some job →
    job.status ∈ unfinishedStatuses → isActive job → Hold 0 job w
  takeQueued : ∀ {n job w}, Idle (n + 1) w → w.1.jobs.find job.jobId = some job →
    job.status = .queued → job.externalRunId = none →
    Hold n (withStatus job .submitting) (w.1.putJob (withStatus job .submitting), w.2)
  release : ∀ {n job w}, Hold n job w → w.1.jobs.find job.jobId = some job →
    job.status ∈ unfinishedStatuses → Idle n w
  keep : ∀ {n job w} (record), Hold n job w → w.1.jobs.find job.jobId = some job →
    Rewrites record job → record.externalRunId = job.externalRunId →
    record.status ∈ unfinishedStatuses → isActive record → Hold n record (w.1.putJob record, w.2)
  call : ∀ {n job w}, Hold n job w → w.1.jobs.find job.jobId = some job → isActive job →
    Hold n job ({ w.1 with submissions := job.spec :: w.1.submissions }, w.2)
  asks : ∀ {n job w}, Hold n job w → w.1.jobs.find job.jobId = some job →
    job.externalRunId = none → S.Asks (.submit job.spec) w
  answered : ∀ {n job w c a}, Hold n job w → w.1.jobs.find job.jobId = some job →
    job.status ∈ unfinishedStatuses → S.answers (.submit job.spec) w c a → Hold n job (w.1, c)
  accept : ∀ {n job w c w'} {submission : ClusterSubmission} (record), Hold n job w →
    w.1.jobs.find job.jobId = some job → job.status ∈ unfinishedStatuses →
    S.answers (.submit job.spec) w c (.ok submission) → S.rely (w.1, c) w' →
    Rewrites record job → record.externalRunId = some submission.externalRunId →
    record.status ∈ unfinishedStatuses ∨ record.status = submission.status →
    Hold n record (w'.1.putJob record, w'.2)
  unchanged : ∀ {job id w c} {snapshot : ClusterJobSnapshot}, Hold 0 job w →
    w.1.jobs.find job.jobId = some job → job.externalRunId = some id →
    S.answers (.inspect id) w c (.ok snapshot) → snapshot.status = job.status → Idle 0 (w.1, c)
  refused : ∀ {job id w c a}, Hold 0 job w → w.1.jobs.find job.jobId = some job →
    job.externalRunId = some id → S.answers (.inspect id) w c a → job.status = .cancelled →
    Idle 0 (w.1, c)
  outcome : ∀ {job rest id w c w' newlyRecorded} {snapshot : ClusterJobSnapshot}, Hold 0 job w →
    Listed (job :: rest) w.1 → job.externalRunId = some id →
    S.answers (.inspect id) w c (.ok snapshot) → snapshot.status ∈ jobTerminalStatuses →
    snapshot.status ≠ job.status → S.rely (w.1, c) w' →
    Safe S (fun _ w => Idle 0 w ∧ Listed rest w.1) (fun _ => Idle 0)
      (recordOutcome naming (withSnapshot job snapshot) snapshot.artifacts newlyRecorded)
      (w'.1.putJob (withSnapshot job snapshot), w'.2)

section Passes

variable {Idle : Nat → JobStore × γ → Prop} {Hold : Nat → JobRecord → JobStore × γ → Prop} {n : Nat}

/-- An assertion about the rows that are still to be visited survives with any other. -/
theorem Watches.listed {P : JobStore × γ → Prop} (hS : Watches S) (hP : S.Holds P)
    (jobs : List JobRecord) : S.Holds fun w => P w ∧ Listed jobs w.1 :=
  hP.and fun _ _ h hRely => h.of_jobs_eq (hS.jobs hRely)

/-- A record with a written status, next in a pass. -/
theorem Discipline.released (hD : Discipline S naming Idle Hold)
    (h : Hold n job w ∧ Listed (job :: rest) w.1) (hStatus : job.status ∈ unfinishedStatuses) :
    Idle n w ∧ Listed rest w.1 :=
  ⟨hD.release h.1 h.2.head hStatus, h.2.tail⟩

theorem Discipline.kept (hD : Discipline S naming Idle Hold) (record : JobRecord)
    (h : Hold n job w ∧ Listed (job :: rest) w.1) (hRewrites : Rewrites record job)
    (hId : record.externalRunId = job.externalRunId) (hStatus : record.status ∈ unfinishedStatuses)
    (hActive : isActive record) :
    Hold n record (w.1.putJob record, w.2) ∧ Listed (record :: rest) (w.1.putJob record) :=
  ⟨hD.keep record h.1 h.2.head hRewrites hId hStatus hActive, h.2.putJob hRewrites.jobId⟩

theorem uncertain_unfinished {key exc : String} :
    (uncertain job key exc).status ∈ unfinishedStatuses := by
  simp [uncertain, unfinishedStatuses]

section

variable (hD : Discipline S naming Idle Hold)
include hD

/-- Writing a job off as uncertain ends the visit. -/
theorem Discipline.uncertain {key exc : String}
    (h : Hold n job w ∧ Listed (job :: rest) w.1) :
    Idle n (w.1.putJob (uncertain job key exc), w.2) ∧
      Listed rest (w.1.putJob (Jobs.uncertain job key exc)) :=
  hD.released (hD.kept (Jobs.uncertain job key exc) h ⟨rfl, nofun⟩ rfl uncertain_unfinished
    (by simp [isActive, Jobs.uncertain])) uncertain_unfinished

theorem safe_submitQueued (job : JobRecord)
    (hStatus : job.status = .submitting) (hNew : job.externalRunId = none)
    (h : Hold n job w ∧ Listed (job :: rest) w.1) :
    Safe S (fun _ w => Idle n w ∧ Listed rest w.1) (fun _ => Idle 0) (submitQueued job) w := by
  have hS := hD.watches
  have hHeld := hS.listed (hD.hold n job) (job :: rest)
  have hPass := hS.listed (hD.idle n) rest
  have hOpen : job.status ≠ .cancelled := by rw [hStatus]; decide
  have hActive : isActive job := by simp [isActive, hStatus]
  have hUnfinished : job.status ∈ unfinishedStatuses := by rw [hStatus]; decide
  refine safe_bind (Safe.mono (Q := fun _ w => Idle n w ∧ Listed rest w.1)
    (safe_tryCatch ?_) ?_ fun _ _ h => h)
  · refine safe_submit hHeld hHeld h (fun w h => ⟨hD.call h.1 h.2.head hActive, h.2.of_jobs_eq rfl⟩)
      (fun w h => hD.asks h.1 h.2.head hNew) fun w c a h hAnswer => ?_
    have hAnswered : Hold n job (w.1, c) := hD.answered h.1 h.2.head hUnfinished hAnswer
    cases a with
    | ok submission =>
      -- Between the answer and its write only interference can happen.
      have hSince : S.Holds fun w' => (Hold n job w' ∧ Listed (job :: rest) w'.1) ∧
          S.rely (w.1, c) w' := hHeld.and fun _ _ => S.trans
      refine safe_updateJob hSince ⟨⟨hAnswered, h.2⟩, S.refl _⟩ (fun w' h' => h'.1.2.head)
        (fun w' h' => ?_) fun hCancelled => absurd hCancelled hOpen
      generalize hCoerce : (if submission.status ∈ [JobStatus.queued, .running] then
        submission.status else .running) = status
      have hCoerced : status ∈ unfinishedStatuses := by
        rw [← hCoerce]
        cases submission.status <;> decide
      have hAccepted := hD.accept (withSubmission job status submission) h.1 h.2.head
        hUnfinished hAnswer h'.2 rewrites_withSubmission rfl (.inl hCoerced)
      exact safe_pure hPass (hD.released ⟨hAccepted, h'.1.2.putJob rfl⟩ hCoerced) fun _ h => h
    | error exc =>
      refine safe_raise (P := fun w => Hold n job w ∧ Listed (job :: rest) w.1) hHeld
        ⟨hAnswered, h.2⟩ fun w h => ?_
      refine safe_updateJob hHeld h (fun w h => h.2.head) (fun w h => ?_)
        fun hCancelled => absurd hCancelled hOpen
      refine (safe_event hS hPass (hD.uncertain h) (by decide)).seq fun _ w h => ?_
      exact hPass.ret h
  · intro outcome w h
    cases outcome with
    | none => exact hPass.ret h
    | some updated => exact safe_event hS hPass h (by decide)

/-- The submission loop hands over at most as many jobs as it has room for. -/
theorem safe_submitAll (jobs : List JobRecord)
    (hRoom : jobs.length ≤ n)
    (hQueued : ∀ job ∈ jobs, job.status = .queued ∧ job.externalRunId = none)
    (h : Idle n w ∧ Listed jobs w.1) :
    Safe S (fun _ => Idle 0) (fun _ => Idle 0) (submitAll jobs) w := by
  induction jobs generalizing n w with
  | nil => exact safe_pure (hD.idle n) h.1 fun _ => hD.relax
  | cons job rest ih =>
    obtain ⟨m, rfl⟩ : ∃ m, n = m + 1 := ⟨n - 1, by simp only [length_cons] at hRoom; omega⟩
    have hPass := hD.watches.listed (hD.idle (m + 1)) (job :: rest)
    obtain ⟨hStatus, hNew⟩ := hQueued job mem_cons_self
    refine safe_getStore hPass h fun w h => ?_
    split
    · exact safe_pure hPass h fun _ h => hD.relax h.1
    · refine safe_updateJob hPass h (fun w h => h.2.head) (fun w h => ?_) ?_
      · have hTaken := hD.takeQueued h.1 h.2.head hStatus hNew
        refine safe_bind ((safe_submitQueued hD (withStatus job .submitting) rfl hNew
          ⟨hTaken, h.2.putJob rfl⟩).mono ?_ fun _ _ h => h)
        have hRest : rest.length ≤ m := by simp only [length_cons] at hRoom; omega
        exact fun _ w h => ih hRest (fun job hJob => hQueued job (mem_cons_of_mem _ hJob)) h
      · intro hCancelled
        rw [hStatus] at hCancelled
        cases hCancelled

end

section

variable (hD : Discipline S naming Idle Hold)
include hD

theorem safe_fillJobCapacity {newlyRecorded : Nat}
    (h : Idle 0 w) :
    Safe S (fun _ => Idle 0) (fun _ => Idle 0) (fillJobCapacity naming newlyRecorded) w := by
  have hS := hD.watches
  have hIdle := hD.idle 0
  refine safe_getStore hIdle h fun w h => ?_
  refine safe_bind ((safe_submitAll hD _ (length_take_le _ _) ?_ ⟨hD.reserve h, ?_⟩).mono ?_
    fun _ _ h => h)
  · intro job hJob
    have hMem := (take_sublist _ _).subset hJob
    simpa [isActive] using (mem_filter.mp hMem).2
  · exact (listed_unfinished (hD.keys h)).sublist
      ((take_sublist _ _).trans filter_sublist)
  · refine fun _ w h => safe_getStore hIdle h fun w h => ?_
    split
    · exact safe_transition hS hIdle h
    · split
      · exact safe_finishWave hS hIdle h
      · exact hIdle.ret h

theorem safe_recoverSubmission
    (hStatus : job.status ∈ unfinishedStatuses) (hActive : isActive job)
    (h : Hold 0 job w ∧ Listed (job :: rest) w.1) :
    Safe S
      (fun found w => match found with
        | none => Idle 0 w ∧ Listed rest w.1
        | some (job, id) => (Hold 0 job w ∧ Listed (job :: rest) w.1) ∧ job.externalRunId = some id)
      (fun _ => Idle 0) (recoverSubmission job) w := by
  have hS := hD.watches
  have hHeld := hS.listed (hD.hold 0 job) (job :: rest)
  have hPass := hS.listed (hD.idle 0) rest
  have hOpen : job.status ≠ .cancelled := by
    rintro hCancelled
    rw [hCancelled] at hStatus
    exact absurd hStatus (by decide)
  unfold recoverSubmission
  split
  next id hId => exact safe_pure hHeld h fun w h => ⟨h, hId⟩
  next hNew =>
    refine safe_submit hHeld hHeld h (fun w h => ⟨hD.call h.1 h.2.head hActive, h.2.of_jobs_eq rfl⟩)
      (fun w h => hD.asks h.1 h.2.head hNew) fun w c a h hAnswer => ?_
    have hAnswered : Hold 0 job (w.1, c) := hD.answered h.1 h.2.head hStatus hAnswer
    cases a with
    | error exc =>
      refine safe_updateJob hHeld ⟨hAnswered, h.2⟩ (fun w h => h.2.head) (fun w h => ?_)
        fun hCancelled => absurd hCancelled hOpen
      exact safe_pure hPass (hD.uncertain h) fun _ h => h
    | ok submission =>
      have hSince : S.Holds fun w' => (Hold 0 job w' ∧ Listed (job :: rest) w'.1) ∧
          S.rely (w.1, c) w' := hHeld.and fun _ _ => S.trans
      refine safe_updateJob hSince ⟨⟨hAnswered, h.2⟩, S.refl _⟩ (fun w' h' => h'.1.2.head)
        (fun w' h' => ?_) fun hCancelled => absurd hCancelled hOpen
      have hAccepted := hD.accept (withSubmission job submission.status submission) h.1
        h.2.head hStatus hAnswer h'.2 rewrites_withSubmission rfl (.inr rfl)
      have hRecovered := hS.listed (hD.hold 0 (withSubmission job submission.status submission))
        (withSubmission job submission.status submission :: rest)
      refine (safe_event hS hRecovered ⟨hAccepted, h'.1.2.putJob rfl⟩ (by decide)).seq
        fun _ w h => ?_
      exact safe_pure hRecovered h fun w h => ⟨h, rfl⟩

theorem safe_observe {id : ExternalRunId} {newlyRecorded : Nat} (hId : job.externalRunId = some id)
    (h : Hold 0 job w ∧ Listed (job :: rest) w.1) :
    Safe S (fun _ w => Idle 0 w ∧ Listed rest w.1) (fun _ => Idle 0)
      (observe naming job id newlyRecorded) w := by
  have hS := hD.watches
  have hHeld := hS.listed (hD.hold 0 job) (job :: rest)
  have hPass := hS.listed (hD.idle 0) rest
  refine safe_inspect hS hHeld h fun w c a h hAnswer => ?_
  have hAnswered := hHeld.stable w (w.1, c) h (hS.inspected hAnswer)
  have hSince : S.Holds fun w' => (Hold 0 job w' ∧ Listed (job :: rest) w'.1) ∧
      S.rely (w.1, c) w' := hHeld.and fun _ _ => S.trans
  have hRefused : job.status = .cancelled → ∀ (m : String) w',
      ((Hold 0 job w' ∧ Listed (job :: rest) w'.1) ∧ S.rely (w.1, c) w') → Idle 0 w' :=
    fun hCancelled _ w' h' => (hD.idle 0).stable _ _
      (hD.refused h.1 h.2.head hId hAnswer hCancelled) h'.2
  cases a with
  | error exc =>
    refine safe_updateJob hSince ⟨hAnswered, S.refl _⟩ (fun w' h' => h'.1.2.head)
      (fun w' h' => ?_) hRefused
    exact safe_pure hPass (hD.uncertain h'.1) fun _ h => h
  | ok snapshot =>
    dsimp only
    split
    next hSame =>
      exact safe_pure hPass ⟨hD.unchanged h.1 h.2.head hId hAnswer hSame, h.2.tail⟩ fun _ h => h
    next hChanged =>
      refine safe_updateJob hSince ⟨hAnswered, S.refl _⟩ (fun w' h' => h'.1.2.head)
        (fun w' h' => ?_) hRefused
      split
      next hTerminal => exact hD.outcome h.1 h.2 hId hAnswer hTerminal hChanged h'.2
      next hTerminal =>
        have hStatus : snapshot.status ∈ unfinishedStatuses := by
          revert hTerminal
          cases snapshot.status <;> decide
        have hReleased := hD.released
          (hD.kept (withSnapshot job snapshot) h'.1 rewrites_withSnapshot rfl hStatus
            (by simp [isActive, withSnapshot, hId])) hStatus
        split
        · refine (safe_event hS hPass hReleased (by decide)).seq fun _ w h => ?_
          exact hPass.ret h
        · exact hPass.ret hReleased

theorem safe_reconcileJobs (jobs : List JobRecord)
    (newlyRecorded : Nat) (hStatus : ∀ job ∈ jobs, job.status ∈ unfinishedStatuses)
    (h : Idle 0 w ∧ Listed jobs w.1) :
    Safe S (fun _ => Idle 0) (fun _ => Idle 0) (reconcileJobs naming jobs newlyRecorded) w := by
  induction jobs generalizing newlyRecorded w with
  | nil => exact safe_pure (hD.idle 0) h.1 fun _ h => h
  | cons job rest ih =>
    have hPass := hD.watches.listed (hD.idle 0) rest
    refine safe_bind (Safe.mono (Q := fun _ w => Idle 0 w ∧ Listed rest w.1) ?_ ?_ fun _ _ h => h)
    · unfold reconcileJob
      split
      next hActive =>
        have hHeld := hD.take h.1 h.2.head (hStatus job mem_cons_self) hActive
        refine safe_bind ((safe_recoverSubmission hD (hStatus job mem_cons_self) hActive
          ⟨hHeld, h.2⟩).mono ?_ fun _ _ h => h)
        intro found w hFound
        match found with
        | none => exact hPass.ret hFound
        | some (job, id) => exact safe_observe hD hFound.2 hFound.1
      next => exact safe_pure hPass ⟨h.1, h.2.tail⟩ fun _ h => h
    · exact fun recorded w h =>
        ih recorded (fun job hJob => hStatus job (mem_cons_of_mem _ hJob)) h

theorem safe_reconcileRun (h : Idle 0 w) :
    Safe S (fun _ => Idle 0) (fun _ => Idle 0) (reconcileRun naming) w := by
  have hIdle := hD.idle 0
  refine safe_getStore hIdle h fun w h => ?_
  split
  · refine safe_getStore hIdle h fun w h => ?_
    refine safe_bind ((safe_reconcileJobs hD _ 0 ?_ ⟨h, listed_unfinished (hD.keys h)⟩).mono ?_
      fun _ _ h => h)
    · exact fun job hJob => by simpa using (mem_filter.mp hJob).2
    · refine fun _ w h => (safe_syncWaveArtifacts hD.watches hIdle h).seq fun _ w h => ?_
      exact safe_fillJobCapacity hD h
  · exact hIdle.ret h

end

end Passes

/-- What an invariant says about the writes of a cancellation. `Gone job` says that nothing of the
job is left on the cluster. -/
structure CancelDiscipline (S : Contract JobStore γ Request Request.Answer)
    (Idle : JobStore × γ → Prop) (Gone : JobRecord → JobStore × γ → Prop) : Prop where
  watches : Watches S
  idle : S.Holds Idle
  keys : ∀ {w}, Idle w → KeysWf w.1
  gone : ∀ {job w w'}, Gone job w → S.rely w w' → Gone job w'
  asks : ∀ id w, S.Asks (.cancel id) w
  answered : ∀ {id w c a}, Idle w → S.answers (.cancel id) w c a → Idle (w.1, c)
  confirmed : ∀ {job id w c}, Idle w → w.1.jobs.find job.jobId = some job →
    job.externalRunId = some id → S.answers (.cancel id) w c (.ok ()) → Gone job (w.1, c)
  unsubmitted : ∀ {job w}, Idle w → w.1.jobs.find job.jobId = some job →
    job.status ∈ unfinishedStatuses → job.externalRunId = none → Gone job w
  drop : ∀ {job w}, Idle w → w.1.jobs.find job.jobId = some job →
    job.status ∈ unfinishedStatuses → Gone job w →
    Idle (w.1.putJob (cancelRequested job), w.2)

variable {Idle : JobStore × γ → Prop}

section Cancel

variable {Gone : JobRecord → JobStore × γ → Prop} {report : String → String → JobM Unit}

section

variable (hD : CancelDiscipline S Idle Gone)
include hD

section

variable (hReport : ∀ {P : JobStore × γ → Prop} jobId exc w, S.Holds P → P w →
  Safe S (fun _ => P) (fun _ => Idle) (report jobId exc) w)
include hReport

theorem safe_cancelJobs
    (jobs : List JobRecord) (hStatus : ∀ job ∈ jobs, job.status ∈ unfinishedStatuses)
    (h : Idle w ∧ Listed jobs w.1) :
    Safe S (fun _ => Idle) (fun _ => Idle) (cancelJobs report jobs) w := by
  induction jobs generalizing w with
  | nil => exact safe_pure hD.idle h.1 fun _ h => h
  | cons job rest ih =>
    have hPass := hD.watches.listed hD.idle (job :: rest)
    have hRest := hD.watches.listed hD.idle rest
    have hJob := hStatus job mem_cons_self
    have hTail : ∀ other ∈ rest, other.status ∈ unfinishedStatuses :=
      fun other hOther => hStatus other (mem_cons_of_mem _ hOther)
    have hGone : S.Holds fun w => (Idle w ∧ Listed (job :: rest) w.1) ∧ Gone job w :=
      hPass.and fun _ _ => hD.gone
    -- The write follows the confirmation, or comes at once for a job without an external run.
    have hWrite : ∀ w, (Idle w ∧ Listed (job :: rest) w.1) ∧ Gone job w →
        Safe S (fun _ => Idle) (fun _ => Idle)
          (do let _ ← updateJob (cancelRequested job)
              cancelJobs report rest) w := by
      intro w h
      refine safe_updateJob hGone h (fun w h => h.1.2.head) (fun w h => ?_) ?_
      · have hDropped := h.1.2.putJob (show (cancelRequested job).jobId = job.jobId from rfl)
        exact ih hTail ⟨hD.drop h.1.1 h.1.2.head hJob h.2, hDropped.tail⟩
      · intro hCancelled
        rw [hCancelled] at hJob
        exact absurd hJob (by decide)
    unfold cancelJobs
    split
    next hNew => exact hWrite w ⟨h, hD.unsubmitted h.1 h.2.head hJob hNew⟩
    next id hId =>
      refine safe_query hPass h (fun w _ => hD.asks id w) fun w c a h hAnswer => ?_
      have hAnswered : Idle (w.1, c) := hD.answered h.1 hAnswer
      cases a with
      | error exc =>
        refine (hReport _ exc _ hRest ⟨hAnswered, h.2.tail⟩).seq fun _ w h => ?_
        refine (ih hTail h).seq fun _ w h => ?_
        exact hD.idle.ret h
      | ok u => exact hWrite _ ⟨⟨hAnswered, h.2⟩, hD.confirmed h.1 h.2.head hId hAnswer⟩

theorem safe_cancelUnfinished (h : Idle w) :
    Safe S (fun _ => Idle) (fun _ => Idle) (cancelJobs report w.1.unfinished) w := by
  refine safe_cancelJobs hD hReport _ (fun job hJob => ?_) ⟨h, listed_unfinished (hD.keys h)⟩
  simpa using (mem_filter.mp hJob).2

end

theorem safe_cancelRun {seen : RunState} (h : Idle w) :
    Safe S (fun _ => Idle) (fun _ => Idle) (cancelRun seen) w := by
  have hS := hD.watches
  unfold cancelRun
  split
  · exact hD.idle.ret h
  · refine safe_getStore hD.idle h fun w h => ?_
    refine safe_bind ((safe_cancelUnfinished hD
      (fun _ _ w hP h => hP.ret h) h).mono ?_ fun _ _ h => h)
    intro errors w h
    split
    · refine (safe_event hS hD.idle h (by decide)).seq fun _ w h => ?_
      exact hD.idle.raise h
    · refine (safe_transition hS hD.idle h).seq fun _ w h => ?_
      exact safe_event hS hD.idle h (by decide)

theorem safe_sweepCancelledRunJobs (h : Idle w) :
    Safe S (fun _ => Idle) (fun _ => Idle) sweepCancelledRunJobs w := by
  refine safe_getStore hD.idle h fun w h => ?_
  split
  · exact hD.idle.ret h
  · refine safe_getStore hD.idle h fun w h => ?_
    refine (safe_cancelUnfinished hD
      (fun _ _ w hP h => safe_event hD.watches hP h (by decide)) h).seq fun _ w h => ?_
    exact hD.idle.ret h

end

end Cancel

/-- What an invariant says about creating the rows of a matrix; `Plan specs` holds while the rows
of `specs` are still to be created. -/
structure CreateDiscipline (S : Contract JobStore γ Request Request.Answer)
    (Plan : List ExpandedJobSpec → JobStore × γ → Prop) : Prop where
  watches : Watches S
  plan : ∀ specs, S.Holds (Plan specs)
  skip : ∀ {spec rest w job}, Plan (spec :: rest) w →
    w.1.jobWithKey spec.idempotencyKey = some job → Plan rest w
  add : ∀ {spec rest w}, Plan (spec :: rest) w → w.1.jobWithKey spec.idempotencyKey = none →
    w.1.jobs.find spec.orchestratorJobId = none →
    Plan rest (w.1.addJob (queuedRecord spec), w.2)

section Create

variable {Plan : List ExpandedJobSpec → JobStore × γ → Prop} {P : JobStore × γ → Prop}

theorem safe_createJobIfAbsent {α : Type} {Q : α → JobStore × γ → Prop}
    {E : String → JobStore × γ → Prop} {record : JobRecord} {g : JobRecord × Bool → JobM α}
    (hP : S.Holds P) (h : P w)
    (hThere : ∀ w job, P w → w.1.jobWithKey record.spec.idempotencyKey = some job →
      Safe S Q E (g (job, false)) w)
    (hAdded : ∀ w, P w → w.1.jobWithKey record.spec.idempotencyKey = none →
      w.1.jobs.find record.jobId = none →
      Safe S Q E (g (record, true)) (w.1.addJob record, w.2))
    (hTaken : ∀ m w, P w → E m w) : Safe S Q E (createJobIfAbsent record >>= g) w := by
  refine safe_access_bind hP h fun w h => ?_
  cases hKey : w.1.jobWithKey record.spec.idempotencyKey with
  | some existing =>
    exact hThere w existing h hKey
  | none =>
    by_cases hFree : w.1.jobs.find record.jobId = none
    · simp only [hFree]
      exact hAdded w h hKey hFree
    · have hSame : w.1.addJob record = w.1 := by
        rw [JobStore.addJob, Table.add, dif_neg hFree]
      simp only [hFree, hSame, if_false]
      exact safe_raise hP h fun w h => hTaken _ w h

theorem safe_createJobs (hD : CreateDiscipline S Plan) (hStop : ∀ {specs w}, Plan specs w → Idle w)
    (specs : List ExpandedJobSpec) (h : Plan specs w) :
    Safe S (fun _ => Idle) (fun _ => Idle) (createJobs specs) w := by
  induction specs generalizing w with
  | nil => exact safe_pure (hD.plan []) h fun _ => hStop
  | cons spec rest ih =>
    refine safe_createJobIfAbsent (hD.plan (spec :: rest)) h (fun w job h hKey => ?_)
      (fun w h hKey hFree => ?_) fun _ _ => hStop
    · exact ih (hD.skip h hKey)
    · refine safe_bind (p := event "orchestrator" "job.queued" _) ?_
      exact (safe_event hD.watches (hD.plan rest) (hD.add h hKey hFree) (by decide)).mono
        (fun _ w h => ih h) fun _ _ h => h

/-- `P` is what the call is made under; it has to provide for all rows of the matrix. -/
theorem safe_submitMatrix {actionId : String} {matrix : ExperimentMatrix}
    {prepared : Except String Unit} (hD : CreateDiscipline S Plan)
    (hStop : ∀ {specs w}, Plan specs w → Idle w) (hIdle : S.Holds Idle) (hP : S.Holds P)
    (hPIdle : ∀ w, P w → Idle w)
    (hPlan : ∀ w, P w → Plan
      (expandExperimentMatrix naming w.1.runId actionId matrix w.1.evaluationContractDigest)
      ({ w.1 with matrix := some matrix }, w.2))
    (hFill : ∀ w, Idle w → Safe S (fun _ => Idle) (fun _ => Idle) (fillJobCapacity naming 0) w)
    (h : P w) :
    Safe S (fun _ => Idle) (fun _ => Idle) (submitMatrix naming actionId matrix prepared) w := by
  refine safe_access hP h fun w h => ?_
  split
  next hState =>
    exact safe_raise hIdle (hPIdle w h) fun _ h => h
  next hState =>
    rw [if_pos (not_not.mp hState)]
    cases prepared with
    | error e =>
      exact safe_raise (hD.plan _) (hPlan w h) fun _ => hStop
    | ok u =>
      refine (safe_createJobs hD hStop _ (hPlan w h)).seq fun _ w h => ?_
      refine safe_getStore hIdle h fun w h => ?_
      split
      · exact hIdle.raise h
      · refine (safe_transition hD.watches hIdle h).seq fun _ w h => ?_
        exact hFill w h

end Create

end Glasslab.Engine.Jobs
