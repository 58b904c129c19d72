import Glasslab.WorkflowApi.TerminalStatus

/-!
# The status that readers observe

A reader asks the status file, then the job, then the stored record, and nothing of the answer is
kept. A status that was read from the file stays, because the file is written once. A terminal
status from the job or from the record does not: the job disappears, or is retried after a pod has
failed, the interface fails, the file comes late.
And a file that is no JSON text makes every read fail. Reads are stable exactly in the lifecycles in
which no read meets such a file, and what answers after a terminal report from the job or the record
agrees with it (`observed_status_stable_iff`).
-/

namespace Glasslab.WorkflowApi

open Foundation Machine Except

/-! ## The life of a run -/

/-- The job of a run, as the interface shows it. A job that may be retried has failed pods before it
has finished. -/
inductive JobPhase where
  | notCreated
  | queued
  | active (failed pods : Nat)
  | finished (succeeded : Bool) (failed : Nat) (conditions : List (Option String))
  | deleted
  deriving DecidableEq

def JobPhase.rank : JobPhase → Nat
  | notCreated => 0
  | queued => 1
  | active _ _ => 2
  | finished _ _ _ => 3
  | deleted => 4

/-- A job goes on to a later phase, or to another pod of the same phase. -/
def JobPhase.precedes : JobPhase → JobPhase → Bool
  | active failed _, active failed' _ => failed ≤ failed'
  | phase, phase' => phase.rank < phase'.rank

/-- What happens to one call of the interface. -/
inductive Outage where
  | up
  | down
  /-- An error that the submitter does not expect. -/
  | unexpected (message : String)
  deriving DecidableEq

/-- What `read_namespaced_job` answers. A job that is not there is an error of the interface. -/
def JobPhase.answer (phase : JobPhase) : Outage → JobAnswer
  | .down => .unavailable
  | .unexpected message => .raised message
  | .up =>
    match phase with
    | notCreated | deleted => .unavailable
    | queued => .job 0 0 0 []
    | active failed pods => .job 0 failed pods []
    | finished true failed conditions => .job 1 failed 0 conditions
    | finished false failed conditions => .job 0 (failed + 1) 0 conditions

/-- How instants are written and read. -/
structure Calendar where
  iso : Instant → Value
  parse : Value → Option Instant
  parse_iso : ∀ now, parse (iso now) = some now

def Calendar.clock (calendar : Calendar) (now : Instant) : Clock where
  now := now
  isoNow := calendar.iso now
  parseInstant := calendar.parse

/-- Which of the three answers. -/
inductive StatusSource where
  | disk
  | job
  | stored
  deriving DecidableEq, Repr

structure Lifecycle where
  phase : JobPhase
  file : JsonFile
  stored : RunRecord
  /-- The first terminal status that a read returned, and where it came from. -/
  reported : Option (StatusSource × RunState) := none

inductive LifecycleEvent where
  /-- The job goes on. -/
  | advance (phase : JobPhase)
  /-- The runner writes the status file. -/
  | write (file : JsonFile)
  /-- Another request cancels the run. -/
  | cancel (now : Instant)
  | resolve (now : Instant) (outage : Outage)

/-- The state a status file names for the run, if it is a status of the run. -/
def fileStatus (calendar : Calendar) (file : JsonFile) (runId : String) : Option RunState :=
  match file with
  | .json payload =>
    (statusOfPayload (calendar.clock 0) runId payload).map RunStatus.status
  | _ => none

namespace Lifecycle

def resolve (calendar : Calendar) (s : Lifecycle) (now : Instant) (outage : Outage) :
    Except Failure RunStatus :=
  resolveRunStatus (calendar.clock now) { status := s.file }
    (getLiveStatus s.stored now (s.phase.answer outage)) s.stored

def source (calendar : Calendar) (s : Lifecycle) (outage : Outage) : StatusSource :=
  if (fileStatus calendar s.file s.stored.runId).isSome then .disk
  else
    match s.phase.answer outage with
    | .job _ _ _ _ => .job
    | _ => .stored

/-- The first terminal report is remembered. -/
def report (s : Lifecycle) (source : StatusSource) (answer : Except Failure RunStatus) :
    Lifecycle :=
  match s.reported, answer with
  | none, .ok status =>
    if status.status ∈ endedStates then { s with reported := some (source, status.status) } else s
  | _, _ => s

def step (calendar : Calendar) (s : Lifecycle) : LifecycleEvent → Lifecycle
  | .advance phase => if s.phase.precedes phase then { s with phase := phase } else s
  | .write file => if s.file = .absent then { s with file := file } else s
  | .cancel now =>
    if s.stored.status.status ∈ cancellable then
      { s with
        stored :=
          { s.stored with updatedAt := now, status := cancelledStatus s.stored.runId now } }
    else s
  | .resolve now outage => s.report (s.source calendar outage) (s.resolve calendar now outage)

/-- A read fails only with the submitter, after the file was read, and repeats a terminal status
that was reported. -/
def Stable (calendar : Calendar) (s : Lifecycle) : LifecycleEvent → Prop
  | .resolve now outage =>
    (∀ failure, s.resolve calendar now outage = .error failure →
      ∃ message, outage = .unexpected message ∧
        loadStatusFromDisk (calendar.clock now) { status := s.file } s.stored.runId = .ok none) ∧
    ∀ status source state, s.resolve calendar now outage = .ok status →
      s.reported = some (source, state) → status.status = state
  | _ => True

/-- A read meets no file that is no JSON text; and after a terminal report from the job or the
stored record, a status file that has come, or else the job, or else the record, has that status. -/
def Agrees (calendar : Calendar) (s : Lifecycle) : LifecycleEvent → Prop
  | .resolve _ outage =>
    (∀ message, s.file ≠ .malformed message) ∧
    ∀ source state, s.reported = some (source, state) → source ≠ .disk →
      match fileStatus calendar s.file s.stored.runId with
      | some named => named = state
      | none =>
        match s.phase.answer outage with
        | .job succeeded failed _ _ =>
          succeeded ≠ 0 ∧ state = .succeeded ∨ succeeded = 0 ∧ failed ≠ 0 ∧ state = .failed
        | .unavailable => s.stored.status.status = state
        | .raised _ => True
  | _ => True

end Lifecycle

variable {calendar : Calendar} {s : Lifecycle} {now : Instant}

section Read

variable {outage : Outage} {runId : String} {payload : Value} {state : RunState}

/-- When a payload is read makes no difference to the status it names. -/
theorem statusOfPayload_status (now now' : Instant) :
    (statusOfPayload (calendar.clock now) runId payload).map RunStatus.status =
      (statusOfPayload (calendar.clock now') runId payload).map RunStatus.status := by
  unfold statusOfPayload
  cases payload with
  | map entries =>
    dsimp only
    split
    · rfl
    · split
      · rfl
      · have hKeys : ((Dict.set "updated_at" (calendar.clock now).isoNow entries).all fun entry =>
            decide (entry.1 ∈ statusFields)) =
              (Dict.set "updated_at" (calendar.clock now').isoNow entries).all fun entry =>
                decide (entry.1 ∈ statusFields) := by
          have hAll (d : Entries) : (d.all fun entry => decide (entry.1 ∈ statusFields)) =
              (d.map Prod.fst).all fun key => decide (key ∈ statusFields) := by
            rw [List.all_map]
            rfl
          rw [hAll, hAll, Dict.keys_set]
        unfold validateRunStatus
        rw [hKeys]
        split
        · have hParse (at' : Instant) : (some (calendar.clock at').isoNow).bind
              (calendar.clock at').parseInstant = some at' := calendar.parse_iso at'
          simp only [Dict.lookup_set, String.reduceEq, if_false, if_true, hParse]
          split
          next runId' status at' detail hRun hStatus hAt hDetail =>
            simp only [hRun, hStatus, hDetail]
            cases runStates.lookup status with
            | none => rfl
            | some state => cases detail <;> rfl
          next hNone =>
            split
            next runId' status at' detail hRun hStatus hAt hDetail =>
              exact absurd hDetail (hNone runId' status now detail hRun hStatus rfl)
            · rfl
        · rfl
  | _ => rfl

/-- A read of a file that names the run returns what it names. -/
theorem resolve_of_fileStatus (h : fileStatus calendar s.file s.stored.runId = some state) :
    ∃ status, s.resolve calendar now outage = .ok status ∧ status.status = state := by
  unfold fileStatus at h
  cases hFile : s.file with
  | json payload =>
    rw [hFile] at h
    dsimp only at h
    rw [statusOfPayload_status 0 now] at h
    obtain ⟨status, hStatus, hState⟩ := Option.map_eq_some_iff.mp h
    refine ⟨status, ?_, hState⟩
    unfold Lifecycle.resolve resolveRunStatus loadStatusFromDisk
    rw [hFile]
    dsimp only
    rw [hStatus]
    rfl
  | absent =>
    rw [hFile] at h
    cases h
  | malformed message =>
    rw [hFile] at h
    cases h

theorem loadStatusFromDisk_of_no_fileStatus (hFile : ∀ message, s.file ≠ .malformed message)
    (h : fileStatus calendar s.file s.stored.runId = none) :
    loadStatusFromDisk (calendar.clock now) { status := s.file } s.stored.runId = .ok none := by
  unfold fileStatus at h
  unfold loadStatusFromDisk
  cases hCase : s.file with
  | absent => rfl
  | malformed message => exact absurd hCase (hFile message)
  | json payload =>
    rw [hCase] at h
    dsimp only at h ⊢
    rw [statusOfPayload_status 0 now] at h
    rw [Option.map_eq_none_iff.mp h]

/-- A read without a file that names the run returns what the job or the record says. -/
theorem resolve_of_no_fileStatus (hFile : ∀ message, s.file ≠ .malformed message)
    (h : fileStatus calendar s.file s.stored.runId = none) :
    match s.phase.answer outage with
    | .raised message => s.resolve calendar now outage = .error (.raised message)
    | .unavailable => ∃ status, s.resolve calendar now outage = .ok status ∧
      status.status = s.stored.status.status
    | .job succeeded failed active _ => ∃ status, s.resolve calendar now outage = .ok status ∧
      status.status = if succeeded ≠ 0 then .succeeded else if failed ≠ 0 then .failed
        else if active ≠ 0 then .running else .queued := by
  have hDisk := @loadStatusFromDisk_of_no_fileStatus _ _ now hFile h
  unfold Lifecycle.resolve resolveRunStatus
  rw [hDisk]
  dsimp only [bind, Except.bind]
  cases s.phase.answer outage with
  | unavailable => exact ⟨_, rfl, rfl⟩
  | raised message => rfl
  | job succeeded failed active conditions =>
    by_cases hSucceeded : succeeded = 0
    · by_cases hFailed : failed = 0
      · by_cases hActive : active = 0
        · simp [getLiveStatus, hSucceeded, hFailed, hActive]
        · simp [getLiveStatus, hSucceeded, hFailed, hActive]
      · simp [getLiveStatus, hSucceeded, hFailed]
    · simp [getLiveStatus, hSucceeded]

theorem resolve_of_malformed {message : String} (h : s.file = .malformed message) :
    s.resolve calendar now outage = .error (.raised message) := by
  unfold Lifecycle.resolve resolveRunStatus loadStatusFromDisk
  rw [h]
  rfl

end Read

/-! ## Whole lifecycles -/

/-- A report is terminal, and the file still names what it reported. -/
structure Lifecycle.Remembers (calendar : Calendar) (s : Lifecycle) : Prop where
  ended : ∀ source state, s.reported = some (source, state) → state ∈ endedStates
  disk : ∀ state, s.reported = some (.disk, state) →
    fileStatus calendar s.file s.stored.runId = some state

section Lifecycles

variable {outage : Outage}

theorem source_eq_disk_iff : s.source calendar outage = .disk ↔
    (fileStatus calendar s.file s.stored.runId).isSome := by
  unfold Lifecycle.source
  split
  next h => simp [h]
  next h =>
    refine iff_of_false ?_ h
    split <;> simp

theorem report_cases (source : StatusSource) (answer : Except Failure RunStatus) :
    s.report source answer = s ∨ ∃ status, answer = .ok status ∧ status.status ∈ endedStates ∧
      s.report source answer = { s with reported := some (source, status.status) } := by
  unfold Lifecycle.report
  split
  next status _ =>
    split
    next hEnded => exact .inr ⟨status, rfl, hEnded, rfl⟩
    · exact .inl rfl
  · exact .inl rfl

theorem remembers_step (h : s.Remembers calendar) (event : LifecycleEvent) :
    (s.step calendar event).Remembers calendar := by
  cases event with
  | advance phase =>
    unfold Lifecycle.step
    dsimp only
    split
    · exact ⟨h.ended, h.disk⟩
    · exact h
  | write file =>
    unfold Lifecycle.step
    dsimp only
    split
    next hAbsent =>
      refine ⟨h.ended, fun state hReported => ?_⟩
      have hNone := h.disk state hReported
      rw [hAbsent] at hNone
      cases hNone
    · exact h
  | cancel now =>
    unfold Lifecycle.step
    dsimp only
    split
    · exact ⟨h.ended, h.disk⟩
    · exact h
  | resolve now outage =>
    show (s.report (s.source calendar outage) (s.resolve calendar now outage)).Remembers calendar
    obtain hSame | ⟨status, hAnswer, hEnded, hSame⟩ :=
      report_cases (s := s) (s.source calendar outage) (s.resolve calendar now outage)
    · rwa [hSame]
    · rw [hSame]
      constructor
      · rintro source state hReported
        obtain ⟨-, rfl⟩ := Prod.mk.inj (Option.some.inj hReported)
        exact hEnded
      · intro state hReported
        obtain ⟨hSource, rfl⟩ := Prod.mk.inj (Option.some.inj hReported)
        obtain ⟨named, hNamed⟩ := Option.isSome_iff_exists.mp (source_eq_disk_iff.mp hSource)
        obtain ⟨status', hAnswer', hState⟩ :=
          @resolve_of_fileStatus _ _ now outage _ hNamed
        obtain rfl := ok.inj (hAnswer.symm.trans hAnswer')
        rw [hState]
        exact hNamed

theorem ended_of_job_iff {state : RunState} (hEnded : state ∈ endedStates)
    (succeeded failed active : Nat) :
    ((if succeeded ≠ 0 then RunState.succeeded else if failed ≠ 0 then .failed
        else if active ≠ 0 then .running else .queued) = state) ↔
      succeeded ≠ 0 ∧ state = .succeeded ∨ succeeded = 0 ∧ failed ≠ 0 ∧ state = .failed := by
  by_cases hSucceeded : succeeded = 0
  · by_cases hFailed : failed = 0
    · by_cases hActive : active = 0
      · rw [if_neg (not_not.mpr hSucceeded), if_neg (not_not.mpr hFailed),
          if_neg (not_not.mpr hActive)]
        simp only [hSucceeded, hFailed, ne_eq, not_true_eq_false, false_and, and_false, or_self,
          iff_false]
        rintro rfl
        revert hEnded
        decide
      · rw [if_neg (not_not.mpr hSucceeded), if_neg (not_not.mpr hFailed), if_pos hActive]
        simp only [hSucceeded, hFailed, ne_eq, not_true_eq_false, false_and, and_false, or_self,
          iff_false]
        rintro rfl
        revert hEnded
        decide
    · simp [hSucceeded, hFailed, eq_comm]
  · simp [hSucceeded, eq_comm]

/-- A read is stable exactly if it meets no unreadable file and the sources agree. -/
theorem stable_iff_agrees (h : s.Remembers calendar) (event : LifecycleEvent) :
    s.Stable calendar event ↔ s.Agrees calendar event := by
  cases event with
  | advance phase => exact Iff.rfl
  | write file => exact Iff.rfl
  | cancel now => exact Iff.rfl
  | resolve now outage =>
    unfold Lifecycle.Stable Lifecycle.Agrees
    dsimp only
    by_cases hFile : ∀ message, s.file ≠ .malformed message
    · cases hNamed : fileStatus calendar s.file s.stored.runId with
      | some named =>
        obtain ⟨status, hAnswer, hState⟩ :=
          @resolve_of_fileStatus _ _ now outage _ hNamed
        rw [hAnswer]
        constructor
        · rintro ⟨-, hSame⟩
          refine ⟨hFile, fun source state hReported _ => ?_⟩
          exact hState.symm.trans (hSame status source state rfl hReported)
        · rintro ⟨-, hAgrees⟩
          refine ⟨fun failure hFailure => (by cases hFailure),
            fun status' source state hOk hReported => ?_⟩
          obtain rfl := ok.inj hOk
          by_cases hSource : source = .disk
          · subst hSource
            have hDisk := h.disk state hReported
            rw [hNamed] at hDisk
            rw [hState]
            exact Option.some.inj hDisk
          · exact hState.trans (hAgrees source state hReported hSource)
      | none =>
        have hNotDisk {source : StatusSource} {state : RunState}
            (hReported : s.reported = some (source, state)) : source ≠ .disk := by
          rintro rfl
          have hDisk := h.disk state hReported
          rw [hNamed] at hDisk
          cases hDisk
        have hLoad := @loadStatusFromDisk_of_no_fileStatus _ _ now hFile hNamed
        have hResolve := @resolve_of_no_fileStatus _ _ now outage hFile hNamed
        cases hAnswer : s.phase.answer outage with
        | unavailable =>
          rw [hAnswer] at hResolve
          obtain ⟨status, hOk, hState⟩ := hResolve
          rw [hOk]
          constructor
          · rintro ⟨-, hSame⟩
            refine ⟨hFile, fun source state hReported _ => ?_⟩
            exact hState.symm.trans (hSame status source state rfl hReported)
          · rintro ⟨-, hAgrees⟩
            refine ⟨fun failure hFailure => (by cases hFailure),
              fun status' source state hOk hReported => ?_⟩
            obtain rfl := ok.inj hOk
            exact hState.trans (hAgrees source state hReported (hNotDisk hReported))
        | raised message =>
          rw [hAnswer] at hResolve
          rw [hResolve]
          have hOutage : outage = .unexpected message := by
            cases outage with
            | unexpected other => exact congrArg Outage.unexpected (JobAnswer.raised.inj hAnswer)
            | down => cases hAnswer
            | up =>
              revert hAnswer
              cases s.phase with
              | finished succeeded failed conditions => cases succeeded <;> simp [JobPhase.answer]
              | _ => simp [JobPhase.answer]
          refine iff_of_true ⟨fun failure _ => ⟨message, hOutage, hLoad⟩, ?_⟩ ⟨hFile, ?_⟩
          · rintro status source state hOk
            cases hOk
          · intros
            trivial
        | job succeeded failed active conditions =>
          rw [hAnswer] at hResolve
          obtain ⟨status, hOk, hState⟩ := hResolve
          rw [hOk]
          constructor
          · rintro ⟨-, hSame⟩
            refine ⟨hFile, fun source state hReported _ => ?_⟩
            have hEnded := h.ended source state hReported
            have hSays := hState.symm.trans (hSame status source state rfl hReported)
            exact (ended_of_job_iff hEnded succeeded failed active).mp hSays
          · rintro ⟨-, hAgrees⟩
            refine ⟨fun failure hFailure => (by cases hFailure),
              fun status' source state hOk hReported => ?_⟩
            obtain rfl := ok.inj hOk
            have hEnded := h.ended source state hReported
            rw [hState, ended_of_job_iff hEnded succeeded failed active]
            exact hAgrees source state hReported (hNotDisk hReported)
    · obtain ⟨message, hMalformed⟩ := not_forall_not.mp hFile
      refine iff_of_false ?_ fun hAgrees => hAgrees.1 message hMalformed
      rintro ⟨hFailure, -⟩
      obtain ⟨-, -, hLoad⟩ := hFailure _ (resolve_of_malformed hMalformed)
      rw [hMalformed] at hLoad
      cases hLoad

end Lifecycles

/-- Reads are stable over a whole lifecycle exactly if the sources agree at every read. -/
theorem observed_status_stable_iff (calendar : Calendar) (phase : JobPhase) (file : JsonFile)
    (stored : RunRecord) (events : List LifecycleEvent) :
    Along (Lifecycle.step calendar) (Lifecycle.Stable calendar) ⟨phase, file, stored, none⟩ events ↔
      Along (Lifecycle.step calendar) (Lifecycle.Agrees calendar) ⟨phase, file, stored, none⟩
        events := by
  have hStart : Lifecycle.Remembers calendar ⟨phase, file, stored, none⟩ :=
    { ended := fun source state h => by cases h
      disk := fun state h => by cases h }
  have hStep : ∀ s event, Lifecycle.Remembers calendar s → s.Stable calendar event →
      (s.step calendar event).Remembers calendar :=
    fun s event hRemembers _ => remembers_step hRemembers event
  have hIff : ∀ s event, Lifecycle.Remembers calendar s →
      (s.Stable calendar event ↔ s.Agrees calendar event) :=
    fun s event hRemembers => stable_iff_agrees hRemembers event
  exact along_congr hStep hIff hStart

def sampleCalendar : Calendar where
  iso now := .scalar (.float (.finite now))
  parse
    | .scalar (.float (.finite q)) => some q
    | _ => none
  parse_iso _ := rfl

/-- An accepted run whose status was never stored again. -/
def tabularRun : RunRecord :=
  let surroundings := (tabularAttempt "a" tabularReceipt).surroundings
  genericRecord tabularRequest {} none surroundings tabularBenchmark
    (genericManifest tabularRequest tabularBenchmark {} surroundings [])

/-- The job succeeds, the run is read, and the job is deleted after its time. -/
def disappearance : List LifecycleEvent :=
  [.advance (.active 0 1), .advance (.finished true 0 []), .resolve 1 .up, .advance .deleted,
    .resolve 2 .up]

theorem succeeded_run_accepted_again :
    ¬ Along (Lifecycle.step sampleCalendar) (Lifecycle.Stable sampleCalendar)
        ⟨.notCreated, .absent, tabularRun, none⟩ disappearance := by
  rintro ⟨-, -, -, -, hLast, -⟩
  have hReported : (Lifecycle.step sampleCalendar (Lifecycle.step sampleCalendar
      ⟨.finished true 0 [], .absent, tabularRun, none⟩ (.resolve 1 .up))
        (.advance .deleted)).reported = some (.job, .succeeded) := by
    decide +kernel
  have hSame := hLast.2 _ .job .succeeded rfl hReported
  revert hSame
  decide +kernel

end Glasslab.WorkflowApi
