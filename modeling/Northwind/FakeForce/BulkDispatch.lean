import Northwind.FakeForce.CursorPages
import Northwind.FakeForce.JobTables

/-!
# The dispatch of bulk jobs

A request writes the row of a job in one transaction and submits the job behind
it.  Both dispatchers submit to one executor, a queue before `bulk_workers`
threads, and all of this is lost where the process dies.  A start expires old
jobs and submits again what the table still calls UploadComplete or InProgress.

A thread reads the row twice before it moves it, and once more at the end of the
stream.  Requests and other threads run between any two of these.  What an
execution writes besides the row of its job is left out here, as is a store that
cannot be written to.
-/

namespace Northwind
namespace FakeForce

/-- `BulkJobState.value` -/
def BulkJobState.value : BulkJobState → String
  | .jobOpen => "Open"
  | .uploadComplete => "UploadComplete"
  | .inProgress => "InProgress"
  | .jobComplete => "JobComplete"
  | .failed => "Failed"
  | .aborted => "Aborted"

/-- `job.state in {UPLOAD_COMPLETE, IN_PROGRESS}` -/
def BulkJobState.Resumable (state : BulkJobState) : Prop :=
  state = .uploadComplete ∨ state = .inProgress

/-- A state without a transition out of it. -/
def BulkJobState.Final (state : BulkJobState) : Prop :=
  allowedTransitions state = []

instance (state : BulkJobState) : Decidable state.Resumable := instDecidableOr

namespace BulkJob

/-- `expires_at IS NULL OR expires_at > current_timestamp` -/
def Live (now : Int) (job : BulkJob) : Prop :=
  ∀ time ∈ job.expiresAt, now < time

instance (now : Int) (job : BulkJob) : Decidable (job.Live now) :=
  inferInstanceAs (Decidable (∀ time ∈ job.expiresAt, now < time))

/-- The row behind an `UPDATE` of `transition_job`. -/
def moved (next : BulkJobState) (errorCode errorMessage : Option String) (job : BulkJob) :
    BulkJob :=
  { job with state := next, errorCode := errorCode, errorMessage := errorMessage }

end BulkJob

/-- What a worker demands of the row besides its state. -/
def BulkJobType.Accepts (worker : BulkJobType) (job : BulkJob) : Prop :=
  job.jobType = worker ∧
    match worker with
    | .query => job.queryText ≠ none
    | .ingest => job.objectName ≠ none

instance (worker : BulkJobType) (job : BulkJob) : Decidable (worker.Accepts job) := by
  unfold BulkJobType.Accepts
  cases worker <;> infer_instance

namespace JobTables

/-- `StateStore.get_job` -/
def getJob (now : Int) (jobId : String) (s : JobTables) : Option BulkJob :=
  s.jobs.find? fun job => job.jobId = jobId ∧ job.Live now

/-- `StateStore.resumable_query_jobs` and `StateStore.resumable_ingest_jobs` -/
def resumableJobs (jobType : BulkJobType) (now : Int) (s : JobTables) : List String :=
  (s.jobs.filter fun job =>
    job.jobType = jobType ∧ job.state.Resumable ∧ job.Live now).map BulkJob.jobId

end JobTables

/-! ## Requests -/

structure BulkSettings where
  bulkWorkers : Nat
  bulkJobRetentionHours : Nat

/-- `timedelta(hours=…)` in microseconds -/
def BulkSettings.retention (settings : BulkSettings) : Int :=
  settings.bulkJobRetentionHours * 3600000000

/-- The row of `create_bulk_query_job`. -/
def createdQueryJob (settings : BulkSettings) (now : Int) (jobId query snapshotId : String) :
    BulkJob where
  jobId := jobId
  jobType := .query
  apiVersion := apiVersion
  state := .uploadComplete
  objectName := none
  operation := some "query"
  queryText := some query
  datasetSnapshotId := some snapshotId
  errorCode := none
  errorMessage := none
  expiresAt := some (now + settings.retention)
  options := []

/-- The row of `create_bulk_ingest_job`. -/
def createdIngestJob (settings : BulkSettings) (now : Int)
    (jobId objectName operation snapshotId : String) (options : List (String × String)) :
    BulkJob where
  jobId := jobId
  jobType := .ingest
  apiVersion := apiVersion
  state := .jobOpen
  objectName := some objectName
  operation := some operation
  queryText := none
  datasetSnapshotId := some snapshotId
  errorCode := none
  errorMessage := none
  expiresAt := some (now + settings.retention)
  options := options

/-- What an update answers; `failed` is an exception that no handler expects. -/
inductive UpdateAnswer where
  | job (job : BulkJob)
  | error (error : ApiError)
  | failed
deriving DecidableEq

def resourceNotFound : ApiError :=
  ⟨404, "NOT_FOUND", "The requested resource does not exist"⟩

/-- `transition_job` and what the update makes of its exceptions. -/
def JobTables.updateTo (now : Int) (jobId : String) (next : BulkJobState)
    (invalid keyError : UpdateAnswer) (s : JobTables) : JobTables × UpdateAnswer :=
  match s.transitionJob jobId next none none with
  | .error (.invalidTransition _) => (s, invalid)
  | .error _ => (s, keyError)
  | .ok s' =>
      match s'.getJob now jobId with
      | none => (s', .failed)
      | some job => (s', .job job)

/-- `update_bulk_ingest_job` up to its `submit`; `uploaded` is whether `input.csv` is there. -/
def updateBulkIngestJob (now : Int) (uploaded : Bool) (jobId : String)
    (requestedState : Option String) (s : JobTables) : JobTables × UpdateAnswer :=
  let invalid := .error ⟨400, "INVALIDJOB", "invalid Bulk ingest job state transition"⟩
  match s.getJob now jobId with
  | none => (s, .error resourceNotFound)
  | some job =>
      if job.jobType ≠ .ingest then (s, .error resourceNotFound)
      else if requestedState = some BulkJobState.uploadComplete.value then
        if uploaded then s.updateTo now jobId .uploadComplete invalid .failed
        else (s, .error ⟨400, "INVALIDJOB", "CSV data must be uploaded before closing the job"⟩)
      else if requestedState = some BulkJobState.aborted.value then
        s.updateTo now jobId .aborted invalid .failed
      else (s, invalid)

/-- `update_bulk_query_job`.  It asks for the row by its id alone. -/
def updateBulkQueryJob (now : Int) (jobId : String) (requestedState : Option String)
    (s : JobTables) : JobTables × UpdateAnswer :=
  if requestedState ≠ some BulkJobState.aborted.value then
    (s, .error ⟨400, "INVALIDJOB",
      "Bulk query jobs can only be aborted through this resource"⟩)
  else s.updateTo now jobId .aborted
    (.error ⟨400, "INVALIDJOB", "invalid Bulk job state transition"⟩) (.error resourceNotFound)

/-! ## Threads -/

/-- A call of `_run`: the dispatcher's worker and the job. -/
structure Submission where
  worker : BulkJobType
  jobId : String
deriving DecidableEq

/-- What `update_bulk_ingest_job` submits. -/
def UpdateAnswer.submissions : UpdateAnswer → List Submission
  | .job row => if row.state = .uploadComplete then [⟨.ingest, row.jobId⟩] else []
  | .error _ => []
  | .failed => []

inductive TaskPhase where
  /-- before the check of `_run` -/
  | waking
  /-- before the `get_job` of `run` -/
  | checked
  /-- before the transition to InProgress -/
  | loaded
  /-- inside `_stream` -/
  | streaming
  /-- behind `_stream`, with the error code and message of an exception -/
  | streamed (failure : Option (String × String))
deriving DecidableEq

/-- A thread of the executor at work. -/
structure Task where
  submission : Submission
  phase : TaskPhase

/-- The next step of a thread, `none` where it is free again; `failure` is how `_stream`
ends. -/
def Task.step (now : Int) (failure : Option (String × String)) (task : Task) (s : JobTables) :
    Option Task × JobTables :=
  let jobId := task.submission.jobId
  match task.phase with
  | .waking =>
      match s.getJob now jobId with
      | none => (none, s)
      | some job => (if job.state.Resumable then some { task with phase := .checked } else none, s)
  | .checked =>
      match s.getJob now jobId with
      | none => (none, s)
      | some job =>
          if ¬task.submission.worker.Accepts job then (none, s)
          else if job.state = .uploadComplete then (some { task with phase := .loaded }, s)
          else if job.state = .inProgress then (some { task with phase := .streaming }, s)
          else (none, s)
  | .loaded =>
      match s.transitionJob jobId .inProgress none none with
      | .error _ => (none, s)
      | .ok s' =>
          -- the assertion behind the `COMMIT`
          match s'.getJob now jobId with
          | none => (none, s')
          | some _ => (some { task with phase := .streaming }, s')
  | .streaming => (some { task with phase := .streamed failure }, s)
  | .streamed none =>
      match s.transitionJob jobId .jobComplete none none with
      | .error _ => (none, s)
      | .ok s' => (none, s')
  | .streamed (some (code, message)) =>
      match s.transitionJob jobId .failed (some code) (some message) with
      | .error _ => (none, s)
      | .ok s' => (none, s')

/-! ## The server -/

inductive ServerProcess where
  | down
  /-- behind `recover_bulk_artifacts` -/
  | recovered
  | serving
deriving DecidableEq

/-- The job tables and what the process holds in memory: the submissions that requests
are about to make, the executor's queue and its threads. -/
structure BulkServer where
  process : ServerProcess
  now : Int
  tables : JobTables
  accepted : List Submission
  queue : List Submission
  running : List Task

namespace BulkServer

/-- Every call of `_run` that is to come or under way. -/
def pending (s : BulkServer) : List Submission :=
  s.accepted ++ s.queue ++ s.running.map Task.submission

/-- A step of the dispatch in the background: a submission, a thread that takes one up, or
the next step of a thread. -/
inductive Background (settings : BulkSettings) : BulkServer → BulkServer → Prop
  | submit {s : BulkServer} {before after : List Submission} {submission : Submission} :
      s.accepted = before ++ submission :: after →
      Background settings s
        { s with accepted := before ++ after, queue := s.queue ++ [submission] }
  | take {s : BulkServer} {rest : List Submission} {submission : Submission} :
      s.queue = submission :: rest →
      s.running.length < settings.bulkWorkers →
      Background settings s
        { s with queue := rest, running := s.running ++ [⟨submission, .waking⟩] }
  | work {s : BulkServer} {before after : List Task} {task : Task}
      {failure : Option (String × String)} {next : Option Task} {tables : JobTables} :
      s.running = before ++ task :: after →
      task.step s.now failure s.tables = (next, tables) →
      Background settings s
        { s with running := before ++ next.toList ++ after, tables := tables }

/-- A step of the server. -/
inductive Step (settings : BulkSettings) : BulkServer → BulkServer → Prop
  | background {s s' : BulkServer} : Background settings s s' → Step settings s s'
  | createQuery {s : BulkServer} {tables : JobTables} {jobId query snapshotId : String} :
      s.process = .serving →
      JobTables.createJob (createdQueryJob settings s.now jobId query snapshotId) s.tables =
        .ok tables →
      Step settings s
        { s with tables := tables, accepted := s.accepted ++ [⟨.query, jobId⟩] }
  | createIngest {s : BulkServer} {tables : JobTables}
      {jobId objectName operation snapshotId : String} {options : List (String × String)} :
      s.process = .serving →
      JobTables.createJob
        (createdIngestJob settings s.now jobId objectName operation snapshotId options) s.tables =
        .ok tables →
      Step settings s { s with tables := tables }
  | updateIngest {s : BulkServer} {tables : JobTables} {answer : UpdateAnswer} {uploaded : Bool}
      {jobId : String} {requestedState : Option String} :
      s.process = .serving →
      updateBulkIngestJob s.now uploaded jobId requestedState s.tables = (tables, answer) →
      Step settings s
        { s with tables := tables, accepted := s.accepted ++ answer.submissions }
  | updateQuery {s : BulkServer} {tables : JobTables} {answer : UpdateAnswer}
      {jobId : String} {requestedState : Option String} :
      s.process = .serving →
      updateBulkQueryJob s.now jobId requestedState s.tables = (tables, answer) →
      Step settings s { s with tables := tables }
  | pass {s : BulkServer} {now : Int} : s.now ≤ now → Step settings s { s with now := now }
  | crash {s : BulkServer} :
      Step settings s { s with process := .down, accepted := [], queue := [], running := [] }
  /-- `recover_bulk_artifacts`, with the statement of `expire_jobs` that raises -/
  | recover {s : BulkServer} {raisesAt : Option Nat} {tables : JobTables} :
      s.process = .down →
      s.tables.expireJobs s.now raisesAt = .ok tables →
      Step settings s { s with process := .recovered, tables := tables }
  /-- both `resume_pending` -/
  | resume {s : BulkServer} :
      s.process = .recovered →
      Step settings s { s with
        process := .serving
        queue := (s.tables.resumableJobs .query s.now).map (⟨.query, ·⟩) ++
          (s.tables.resumableJobs .ingest s.now).map (⟨.ingest, ·⟩) }

/-- A process that has not started yet, over a store without jobs. -/
structure Fresh (s : BulkServer) : Prop where
  process : s.process = .down
  jobs : s.tables.jobs = []
  pending : s.pending = []

end BulkServer

/-! ## What an operation does to the rows -/

/-- What becomes of a row that is not deleted: its state and its error move along the
allowed transitions, and nothing else changes. -/
structure BulkJob.Advances (job job' : BulkJob) : Prop where
  row : job'.moved job.state job.errorCode job.errorMessage = job
  state : job' = job ∨ job'.state ∈ allowedTransitions job.state

namespace BulkJob

variable {job job' : BulkJob}

theorem Advances.refl (job : BulkJob) : job.Advances job :=
  ⟨rfl, Or.inl rfl⟩

theorem Advances.jobId (h : job.Advances job') : job'.jobId = job.jobId :=
  (congrArg BulkJob.jobId h.row :)

theorem Advances.jobType (h : job.Advances job') : job'.jobType = job.jobType :=
  (congrArg BulkJob.jobType h.row :)

theorem Advances.expiresAt (h : job.Advances job') : job'.expiresAt = job.expiresAt :=
  (congrArg BulkJob.expiresAt h.row :)

theorem Advances.live_iff {now : Int} (h : job.Advances job') : job'.Live now ↔ job.Live now := by
  rw [Live, Live, h.expiresAt]

theorem Advances.accepts (h : job.Advances job') {worker : BulkJobType} (hjob : worker.Accepts job) :
    worker.Accepts job' := by
  refine ⟨h.jobType.trans hjob.1, ?_⟩
  have hquery : job'.queryText = job.queryText := (congrArg BulkJob.queryText h.row :)
  have hobject : job'.objectName = job.objectName := (congrArg BulkJob.objectName h.row :)
  cases worker with
  | query => exact hquery ▸ hjob.2
  | ingest => exact hobject ▸ hjob.2

/-- No transition leads to Open. -/
theorem Advances.ne_jobOpen (h : job.Advances job') (hjob : job.state ≠ .jobOpen) :
    job'.state ≠ .jobOpen := by
  rcases h.state with rfl | hnext
  · exact hjob
  · intro hopen
    rw [hopen] at hnext
    cases hstate : job.state <;> rw [hstate] at hnext <;> revert hnext <;> decide

theorem advances_moved {next : BulkJobState} (hnext : next ∈ allowedTransitions job.state)
    (errorCode errorMessage : Option String) :
    job.Advances (job.moved next errorCode errorMessage) :=
  ⟨rfl, Or.inr hnext⟩

end BulkJob

namespace JobTables

variable {s s' : JobTables} {now : Int} {jobId : String} {job : BulkJob}

theorem getJob_eq_some (h : s.getJob now jobId = some job) :
    job ∈ s.jobs ∧ job.jobId = jobId ∧ job.Live now := by
  have hfound := List.find?_some h
  rw [decide_eq_true_iff] at hfound
  exact ⟨List.mem_of_find?_eq_some h, hfound⟩

theorem not_live_of_getJob (h : s.getJob now jobId = none) (hjob : job ∈ s.jobs)
    (hid : job.jobId = jobId) : ¬job.Live now := by
  intro hlive
  have hnone := List.find?_eq_none.mp h job hjob
  rw [decide_eq_true_iff] at hnone
  exact hnone ⟨hid, hlive⟩

/-- Two rows with one id are one row. -/
theorem eq_of_jobId (hids : s.jobIds.Nodup) {job job' : BulkJob} (hjob : job ∈ s.jobs)
    (hjob' : job' ∈ s.jobs) (hid : job.jobId = job'.jobId) : job = job' :=
  List.inj_on_of_nodup_map hids hjob hjob' hid

/-- What `transition_job` makes of a row. -/
def movedRow (jobId : String) (next : BulkJobState) (errorCode errorMessage : Option String)
    (job : BulkJob) : BulkJob :=
  if job.jobId = jobId then job.moved next errorCode errorMessage else job

theorem transitionJob_ok {next : BulkJobState} {errorCode errorMessage : Option String}
    (h : s.transitionJob jobId next errorCode errorMessage = .ok s') :
    (∃ job ∈ s.jobs, job.jobId = jobId ∧ next ∈ allowedTransitions job.state) ∧
      s'.jobs = s.jobs.map (movedRow jobId next errorCode errorMessage) := by
  unfold transitionJob at h
  split at h
  · cases h
  · rename_i job hfind
    split at h
    · cases h
    · rename_i hvalid
      obtain rfl := Except.ok.inj h
      have hid := List.find?_some hfind
      rw [decide_eq_true_iff] at hid
      refine ⟨⟨job, List.mem_of_find?_eq_some hfind, hid, ?_⟩, rfl⟩
      unfold validateTransition at hvalid
      split at hvalid
      · assumption
      · cases hvalid

theorem not_allowed_of_transitionJob {next : BulkJobState}
    {errorCode errorMessage : Option String} {error : JobError} (hids : s.jobIds.Nodup)
    (h : s.transitionJob jobId next errorCode errorMessage = .error error)
    (hjob : job ∈ s.jobs) (hid : job.jobId = jobId) : next ∉ allowedTransitions job.state := by
  intro hnext
  have hfind : s.jobs.find? (fun job => job.jobId = jobId) = some job := by
    cases hfound : s.jobs.find? (fun job => job.jobId = jobId) with
    | none =>
        have hnone := List.find?_eq_none.mp hfound job hjob
        rw [decide_eq_true_iff] at hnone
        exact absurd hid hnone
    | some found =>
        have hfoundId := List.find?_some hfound
        rw [decide_eq_true_iff] at hfoundId
        rw [eq_of_jobId hids (List.mem_of_find?_eq_some hfound) hjob (hfoundId.trans hid.symm)]
  have hvalid : validateTransition job.state next = .ok () := if_pos hnext
  simp only [transitionJob, hfind, hvalid] at h
  cases h

/-- A transition advances the row that it is for and keeps the others. -/
theorem advances_movedRow {next : BulkJobState} {errorCode errorMessage : Option String}
    (hids : s.jobIds.Nodup) (h : s.transitionJob jobId next errorCode errorMessage = .ok s')
    (hjob : job ∈ s.jobs) : job.Advances (movedRow jobId next errorCode errorMessage job) := by
  obtain ⟨⟨found, hfound, hfoundId, hnext⟩, -⟩ := transitionJob_ok h
  by_cases hid : job.jobId = jobId
  · rw [movedRow, if_pos hid]
    rw [eq_of_jobId hids hfound hjob (hfoundId.trans hid.symm)] at hnext
    exact BulkJob.advances_moved hnext errorCode errorMessage
  · rw [movedRow, if_neg hid]
    exact .refl job

theorem mem_expiredIds : jobId ∈ s.expiredIds now ↔
    ∃ job ∈ s.jobs, ¬job.Live now ∧ job.jobId = jobId := by
  simp only [expiredIds, List.mem_map, List.mem_filter, decide_eq_true_iff, BulkJob.Live, not_forall,
    not_lt, exists_prop, and_assoc]

/-- An expiry keeps the rows that are live. -/
theorem jobs_of_expireJobs {raisesAt : Option Nat} (h : s.expireJobs now raisesAt = .ok s') :
    s'.jobs = s.jobs.filter fun job => job.jobId ∉ s.expiredIds now := by
  rw [expireJobs_eq h]
  rfl

end JobTables

/-! ## One call for each job -/

/-- The states a job can be in while a thread stands at a phase. -/
def TaskPhase.Fits : TaskPhase → BulkJobState → Prop
  | .waking, state => state ≠ .jobOpen
  | .checked, state => state ≠ .jobOpen
  | .loaded, state => state = .uploadComplete ∨ state = .aborted
  | .streaming, state => state = .inProgress ∨ state = .aborted
  | .streamed _, state => state = .inProgress ∨ state = .aborted

/-- The row that a submission is for. -/
def Submission.For (submission : Submission) (job : BulkJob) : Prop :=
  job.jobId = submission.jobId ∧ job.jobType = submission.worker ∧ job.state ≠ .jobOpen

namespace TaskPhase

theorem Fits.aborted {phase : TaskPhase} : phase.Fits .aborted := by
  cases phase with
  | waking => exact fun h => BulkJobState.noConfusion h
  | checked => exact fun h => BulkJobState.noConfusion h
  | loaded => exact Or.inr rfl
  | streaming => exact Or.inr rfl
  | streamed failure => exact Or.inr rfl

theorem Fits.ne_jobOpen {phase : TaskPhase} {state : BulkJobState} (h : phase.Fits state) :
    state ≠ .jobOpen := by
  rintro rfl
  cases phase with
  | waking => exact h rfl
  | checked => exact h rfl
  | loaded => rcases h with h | h <;> cases h
  | streaming => rcases h with h | h <;> cases h
  | streamed failure => rcases h with h | h <;> cases h

end TaskPhase

/-- How a thread goes on.  Its job's row moves or stays; the thread stands at a phase that
fits, or it is free and its job is over or expired. -/
structure Task.Continues (now : Int) (task : Task) (job job' : BulkJob) (next : Option Task) :
    Prop where
  advances : job.Advances job'
  stays : ∀ task' ∈ next, task'.submission = task.submission ∧ task'.phase.Fits job'.state
  ends : next = none → ¬(job'.Live now ∧ job'.state.Resumable)

theorem Task.step_cases {now : Int} {failure : Option (String × String)} {task : Task}
    {s s' : JobTables} {next : Option Task} {job : BulkJob} (hids : s.jobIds.Nodup)
    (hjob : job ∈ s.jobs) (hid : job.jobId = task.submission.jobId)
    (haccepts : task.submission.worker.Accepts job) (hfits : task.phase.Fits job.state)
    (h : task.step now failure s = (next, s')) :
    ∃ f : BulkJob → BulkJob, s'.jobs = s.jobs.map f ∧ task.Continues now job (f job) next ∧
      ∀ other ∈ s.jobs, other.jobId ≠ task.submission.jobId → f other = other := by
  have hsame : ∀ {next' : Option Task}, (next', s) = (next, s') →
      task.Continues now job job next' →
      ∃ f : BulkJob → BulkJob, s'.jobs = s.jobs.map f ∧ task.Continues now job (f job) next ∧
        ∀ other ∈ s.jobs, other.jobId ≠ task.submission.jobId → f other = other := by
    rintro next' heq hcontinues
    obtain ⟨rfl, rfl⟩ := Prod.mk.inj heq
    exact ⟨id, (List.map_id _).symm, hcontinues, fun _ _ _ => rfl⟩
  have hstays : ∀ {phase : TaskPhase}, phase.Fits job.state →
      task.Continues now job job (some { task with phase := phase }) := by
    intro phase hphase
    refine ⟨.refl job, ?_, fun hnone => by cases hnone⟩
    rintro task' ⟨⟩
    exact ⟨rfl, hphase⟩
  have hfree : ¬(job.Live now ∧ job.state.Resumable) → task.Continues now job job none :=
    fun hover => ⟨.refl job, fun _ hnone => (by cases hnone), fun _ => hover⟩
  have hmissing : ∀ {found : BulkJob}, s.getJob now task.submission.jobId = some found →
      found = job := fun hfound =>
    JobTables.eq_of_jobId hids (JobTables.getJob_eq_some hfound).1 hjob
      ((JobTables.getJob_eq_some hfound).2.1.trans hid.symm)
  have hmoves : ∀ {state : BulkJobState} {errorCode errorMessage : Option String}
      {moved : JobTables} {next' : Option Task},
      s.transitionJob task.submission.jobId state errorCode errorMessage = .ok moved →
      (next', moved) = (next, s') →
      (∀ task' ∈ next', task'.submission = task.submission ∧ task'.phase.Fits state) →
      (next' = none → ¬(job.Live now ∧ state.Resumable)) →
      ∃ f : BulkJob → BulkJob, s'.jobs = s.jobs.map f ∧ task.Continues now job (f job) next ∧
        ∀ other ∈ s.jobs, other.jobId ≠ task.submission.jobId → f other = other := by
    intro state errorCode errorMessage moved next' hmoved heq hstays' hfree'
    obtain ⟨rfl, rfl⟩ := Prod.mk.inj heq
    have hrow : JobTables.movedRow task.submission.jobId state errorCode errorMessage job =
        job.moved state errorCode errorMessage := if_pos hid
    refine ⟨_, (JobTables.transitionJob_ok hmoved).2,
      ⟨JobTables.advances_movedRow hids hmoved hjob, ?_, ?_⟩, fun other _ hne => if_neg hne⟩
    · rw [hrow]
      exact hstays'
    · rw [hrow]
      exact hfree'
  obtain ⟨submission, phase⟩ := task
  cases phase with
  | waking =>
      simp only [step] at h
      split at h
      · rename_i hnone
        exact hsame h (hfree fun hlive => JobTables.not_live_of_getJob hnone hjob hid hlive.1)
      · rename_i found hfound
        obtain rfl := hmissing hfound
        split at h
        · exact hsame h (hstays hfits)
        · rename_i hover
          exact hsame h (hfree fun hlive => hover hlive.2)
  | checked =>
      simp only [step] at h
      split at h
      · rename_i hnone
        exact hsame h (hfree fun hlive => JobTables.not_live_of_getJob hnone hjob hid hlive.1)
      · rename_i found hfound
        obtain rfl := hmissing hfound
        rw [if_neg (not_not_intro haccepts)] at h
        split at h
        · rename_i hstate
          exact hsame h (hstays (Or.inl hstate))
        · rename_i hstate
          split at h
          · rename_i hstate'
            exact hsame h (hstays (Or.inl hstate'))
          · rename_i hstate'
            exact hsame h (hfree fun hlive => hlive.2.elim hstate hstate')
  | loaded =>
      simp only [step] at h
      split at h
      · rename_i error herror
        refine hsame h (hfree fun hlive => ?_)
        have hnot := JobTables.not_allowed_of_transitionJob hids herror hjob hid
        rcases hfits with hstate | hstate
        · exact hnot (by rw [hstate]; decide)
        · rw [hstate] at hlive
          exact absurd hlive.2 (by decide)
      · rename_i moved hmoved
        split at h
        · rename_i hnone
          refine hmoves hmoved h (fun _ hnone' => by cases hnone') fun _ hlive => ?_
          have hmem : job.moved .inProgress none none ∈ moved.jobs := by
            rw [(JobTables.transitionJob_ok hmoved).2]
            exact List.mem_map.mpr ⟨job, hjob, if_pos hid⟩
          exact JobTables.not_live_of_getJob hnone hmem hid hlive.1
        · refine hmoves hmoved h ?_ fun hnone => by cases hnone
          rintro task' ⟨⟩
          exact ⟨rfl, Or.inl rfl⟩
  | streaming => exact hsame h (hstays hfits)
  | streamed outcome =>
      have hover : ∀ {state : BulkJobState} {errorCode errorMessage : Option String}
          {error : JobError}, state ∈ allowedTransitions .inProgress →
          s.transitionJob submission.jobId state errorCode errorMessage = .error error →
          ¬(job.Live now ∧ job.state.Resumable) := by
        intro state errorCode errorMessage error hstate herror hlive
        have hnot := JobTables.not_allowed_of_transitionJob hids herror hjob hid
        rcases hfits with hfit | hfit
        · exact hnot (by rwa [hfit])
        · rw [hfit] at hlive
          exact absurd hlive.2 (by decide)
      cases outcome with
      | none =>
          simp only [step] at h
          split at h
          · rename_i error herror
            exact hsame h (hfree (hover (by decide) herror))
          · rename_i moved hmoved
            exact hmoves hmoved h (fun _ hnone => by cases hnone)
              fun _ hlive => absurd hlive.2 (by decide)
      | some error =>
          obtain ⟨code, message⟩ := error
          simp only [step] at h
          split at h
          · rename_i error herror
            exact hsame h (hfree (hover (by decide) herror))
          · rename_i moved hmoved
            exact hmoves hmoved h (fun _ hnone => by cases hnone)
              fun _ hlive => absurd hlive.2 (by decide)

/-! ## Requests and starts -/

namespace JobTables

variable {s s' : JobTables} {now : Int} {jobId : String}

/-- An update leaves the rows or moves the one that it names, which it then answers with
unless the job has expired. -/
theorem updateTo_cases {next : BulkJobState} {invalid keyError answer : UpdateAnswer}
    (h : s.updateTo now jobId next invalid keyError = (s', answer)) :
    (s' = s ∧ (answer = invalid ∨ answer = keyError)) ∨
      (s.transitionJob jobId next none none = .ok s' ∧
        ((answer = .failed ∧ s'.getJob now jobId = none) ∨
          ∃ job ∈ s.jobs, job.jobId = jobId ∧ answer = .job (job.moved next none none))) := by
  unfold updateTo at h
  split at h
  · obtain ⟨rfl, rfl⟩ := Prod.mk.inj h
    exact Or.inl ⟨rfl, Or.inl rfl⟩
  · obtain ⟨rfl, rfl⟩ := Prod.mk.inj h
    exact Or.inl ⟨rfl, Or.inr rfl⟩
  · rename_i moved hmoved
    split at h
    · rename_i hnone
      obtain ⟨rfl, rfl⟩ := Prod.mk.inj h
      exact Or.inr ⟨hmoved, Or.inl ⟨rfl, hnone⟩⟩
    · rename_i found hfound
      obtain ⟨rfl, rfl⟩ := Prod.mk.inj h
      obtain ⟨hmem, hid, -⟩ := getJob_eq_some hfound
      rw [(transitionJob_ok hmoved).2] at hmem
      obtain ⟨job, hjob, rfl⟩ := List.mem_map.mp hmem
      by_cases hjobId : job.jobId = jobId
      · refine Or.inr ⟨hmoved, Or.inr ⟨job, hjob, hjobId, ?_⟩⟩
        rw [movedRow, if_pos hjobId]
      · rw [movedRow, if_neg hjobId] at hid
        exact absurd hid hjobId

/-- An ingest update closes an ingest job that was Open and submits it if it is live, or it
aborts a job, or it leaves the rows. -/
theorem updateBulkIngestJob_cases {uploaded : Bool} {requestedState : Option String}
    {answer : UpdateAnswer} (hids : s.jobIds.Nodup)
    (h : updateBulkIngestJob now uploaded jobId requestedState s = (s', answer)) :
    (s' = s ∧ answer.submissions = []) ∨
      (s.transitionJob jobId .aborted none none = .ok s' ∧ answer.submissions = []) ∨
      (s.transitionJob jobId .uploadComplete none none = .ok s' ∧
        (∃ job ∈ s.jobs, job.jobId = jobId ∧ job.jobType = .ingest) ∧
        ((answer.submissions = [] ∧ s'.getJob now jobId = none) ∨
          answer.submissions = [⟨.ingest, jobId⟩])) := by
  simp only [updateBulkIngestJob] at h
  split at h
  · obtain ⟨rfl, rfl⟩ := Prod.mk.inj h
    exact Or.inl ⟨rfl, rfl⟩
  · rename_i found hfound
    obtain ⟨hmem, hid, -⟩ := getJob_eq_some hfound
    split at h
    · obtain ⟨rfl, rfl⟩ := Prod.mk.inj h
      exact Or.inl ⟨rfl, rfl⟩
    · rename_i htype
      split at h
      · split at h
        · rcases updateTo_cases h with ⟨rfl, rfl | rfl⟩ | ⟨hmoved, hanswer⟩
          · exact Or.inl ⟨rfl, rfl⟩
          · exact Or.inl ⟨rfl, rfl⟩
          · refine Or.inr (Or.inr ⟨hmoved, ⟨found, hmem, hid, not_not.mp htype⟩, ?_⟩)
            rcases hanswer with ⟨rfl, hnone⟩ | ⟨job, hjob, rfl, rfl⟩
            · exact Or.inl ⟨rfl, hnone⟩
            · exact Or.inr rfl
        · obtain ⟨rfl, rfl⟩ := Prod.mk.inj h
          exact Or.inl ⟨rfl, rfl⟩
      · split at h
        · rcases updateTo_cases h with ⟨rfl, rfl | rfl⟩ | ⟨hmoved, hanswer⟩
          · exact Or.inl ⟨rfl, rfl⟩
          · exact Or.inl ⟨rfl, rfl⟩
          · refine Or.inr (Or.inl ⟨hmoved, ?_⟩)
            rcases hanswer with ⟨rfl, -⟩ | ⟨job, hjob, rfl, rfl⟩
            · rfl
            · rfl
        · obtain ⟨rfl, rfl⟩ := Prod.mk.inj h
          exact Or.inl ⟨rfl, rfl⟩

/-- A query update aborts a job or leaves the rows. -/
theorem updateBulkQueryJob_cases {requestedState : Option String} {answer : UpdateAnswer}
    (h : updateBulkQueryJob now jobId requestedState s = (s', answer)) :
    s' = s ∨ s.transitionJob jobId .aborted none none = .ok s' := by
  unfold updateBulkQueryJob at h
  split at h
  · exact Or.inl (Prod.mk.inj h).1.symm
  · rcases updateTo_cases h with ⟨hsame, -⟩ | ⟨hmoved, -⟩
    · exact Or.inl hsame
    · exact Or.inr hmoved

theorem mem_resumableJobs {jobType : BulkJobType} :
    jobId ∈ s.resumableJobs jobType now ↔ ∃ job ∈ s.jobs,
      job.jobType = jobType ∧ job.state.Resumable ∧ job.Live now ∧ job.jobId = jobId := by
  simp only [resumableJobs, List.mem_map, List.mem_filter, decide_eq_true_iff, and_assoc]

theorem nodup_resumableJobs {jobType : BulkJobType} (hids : s.jobIds.Nodup) :
    (s.resumableJobs jobType now).Nodup :=
  hids.sublist (List.filter_sublist.map BulkJob.jobId)

end JobTables

end FakeForce
end Northwind
