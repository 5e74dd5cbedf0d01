import Northwind.FakeForce.BulkIngest

/-!
# The job tables and their expiry

Four tables hold what belongs to a job: `jobs` itself, `job_checkpoints`,
`job_row_results`, and the rows of `artifacts` whose owner type is `job`.  No
foreign key ties them together, and nothing under this store writes an
artifact.

An operation runs in a transaction.  `perform` is an operation with its
`COMMIT`, or with the `ROLLBACK` that any exception ends in.

Expiry deletes from three of the tables, and a checkpoint or a batch is written
whether its job is still there or not.  Rows stay with their jobs in exactly
the runs where neither of these happens to matter.

`ingestStore` is what the tables hold of one ingest job.  A transition and a batch of
the tables are those of `BulkIngest` on it.
-/

namespace Northwind
namespace FakeForce

inductive BulkJobType where
  | query
  | ingest
deriving DecidableEq

/-- A row of `jobs`; times are microseconds. -/
structure BulkJob where
  jobId : String
  jobType : BulkJobType
  apiVersion : String
  state : BulkJobState
  objectName : Option String
  operation : Option String
  queryText : Option String
  datasetSnapshotId : Option String
  errorCode : Option String
  errorMessage : Option String
  expiresAt : Option Int
  options : List (String × String)
deriving DecidableEq

/-- A row of `job_checkpoints`, from a query or from an ingest. -/
structure JobCheckpoint where
  jobId : String
  checkpointNumber : Nat
  recordsProcessed : Nat
  recordsFailed : Nat
  bytesWritten : Nat
  csvRowNumber : Option Nat
  artifactPath : Option String
deriving DecidableEq

/-- A row of `job_row_results`. -/
structure JobRowResult where
  jobId : String
  result : RowResult
deriving DecidableEq

/-- A row of `artifacts`. -/
structure Artifact where
  artifactId : String
  ownerType : String
  ownerId : String
  path : String
deriving DecidableEq

/-- The tables of the store that an operation on jobs writes to. -/
structure JobTables where
  jobs : List BulkJob
  checkpoints : List JobCheckpoint
  results : List JobRowResult
  artifacts : List Artifact
  mutableRows : String → List TableRow

inductive JobError where
  | jobKey
  | keyError (jobId : String)
  | invalidTransition (error : InvalidJobTransition)
  | constraint (error : ConstraintError)
  /-- any other exception inside the transaction -/
  | raised
deriving DecidableEq

namespace JobTables

/-! ## Operations -/

def jobIds (s : JobTables) : List String :=
  s.jobs.map BulkJob.jobId

def resultsOf (s : JobTables) (jobId : String) : List RowResult :=
  (s.results.filter fun row => row.jobId = jobId).map JobRowResult.result

/-- `coalesce(max(checkpoint_number), -1) + 1` -/
def nextCheckpoint (s : JobTables) (jobId : String) : Nat :=
  nextNumber ((s.checkpoints.filter fun row => row.jobId = jobId).map
    JobCheckpoint.checkpointNumber)

/-- `StateStore.create_job`, under the primary key of `jobs`. -/
def createJob (job : BulkJob) (s : JobTables) : Except JobError JobTables :=
  if job.jobId ∈ s.jobIds then .error .jobKey else .ok { s with jobs := s.jobs ++ [job] }

/-- `StateStore.transition_job`.  An expired job can still be moved: the assertion
behind the `COMMIT` fails then, and the move stays. -/
def transitionJob (jobId : String) (next : BulkJobState)
    (errorCode errorMessage : Option String) (s : JobTables) : Except JobError JobTables :=
  match s.jobs.find? fun job => job.jobId = jobId with
  | none => .error (.keyError jobId)
  | some job =>
      match validateTransition job.state next with
      | .error error => .error (.invalidTransition error)
      | .ok _ => .ok { s with
          jobs := s.jobs.map fun job =>
            if job.jobId = jobId then
              { job with state := next, errorCode := errorCode, errorMessage := errorMessage }
            else job }

/-- `StateStore.add_job_checkpoint` -/
def addJobCheckpoint (jobId : String) (recordsProcessed bytesWritten : Nat)
    (artifactPath : String) (recordsFailed : Nat) (csvRowNumber : Option Nat)
    (s : JobTables) : Except JobError JobTables :=
  .ok { s with
    checkpoints := s.checkpoints ++
      [{ jobId := jobId
         checkpointNumber := s.nextCheckpoint jobId
         recordsProcessed := recordsProcessed
         recordsFailed := recordsFailed
         bytesWritten := bytesWritten
         csvRowNumber := csvRowNumber
         artifactPath := some artifactPath }] }

/-- One turn of the loop of `_commit_batch`, over the whole tables. -/
def insertOutcome (spec : IngestSpec) (jobId : String) (s : JobTables)
    (outcome : RowOutcome) : Except JobError JobTables :=
  match insertRow spec (s.mutableRows spec.objectName) outcome with
  | .error error => .error (.constraint error)
  | .ok table =>
      match insertResult (s.resultsOf jobId) outcome.result with
      | .error error => .error (.constraint error)
      | .ok _ => .ok { s with
          mutableRows := Function.update s.mutableRows spec.objectName table
          results := s.results ++ [⟨jobId, outcome.result⟩] }

/-- `BulkIngestWorker._commit_batch`, over the whole tables. -/
def commitBatch (spec : IngestSpec) (jobId : String) (outcomes : List RowOutcome)
    (processed failed inputBytes : Nat) (s : JobTables) : Except JobError JobTables := do
  let written ← outcomes.foldlM (insertOutcome spec jobId) s
  .ok { written with
    checkpoints := written.checkpoints ++
      [{ jobId := jobId
         checkpointNumber := written.nextCheckpoint jobId
         recordsProcessed := processed + succeeded outcomes
         recordsFailed := failed + outcomes.length - succeeded outcomes
         bytesWritten := inputBytes
         csvRowNumber := outcomes.getLast?.map RowOutcome.csvRowNumber
         artifactPath := none }] }

/-- `SELECT job_id FROM jobs WHERE expires_at <= current_timestamp` -/
def expiredIds (now : Int) (s : JobTables) : List String :=
  (s.jobs.filter fun job => ∃ time ∈ job.expiresAt, time ≤ now).map BulkJob.jobId

/-- `DELETE FROM artifacts WHERE owner_type = 'job' AND owner_id IN …` -/
def deleteArtifacts (ids : List String) (s : JobTables) : JobTables :=
  { s with artifacts := s.artifacts.filter fun row => ¬(row.ownerType = "job" ∧ row.ownerId ∈ ids) }

/-- `DELETE FROM job_checkpoints WHERE job_id IN …` -/
def deleteCheckpoints (ids : List String) (s : JobTables) : JobTables :=
  { s with checkpoints := s.checkpoints.filter fun row => row.jobId ∉ ids }

/-- `DELETE FROM jobs WHERE job_id IN …` -/
def deleteJobs (ids : List String) (s : JobTables) : JobTables :=
  { s with jobs := s.jobs.filter fun job => job.jobId ∉ ids }

/-- The statements of `expire_jobs`. -/
def expireStatements (ids : List String) : List (JobTables → JobTables) :=
  if ids = [] then [] else [deleteArtifacts ids, deleteCheckpoints ids, deleteJobs ids]

/-- Statements one after the other, the one at `raisesAt` raising; the place behind
the last is that of the `COMMIT`. -/
def execute (raisesAt : Option Nat) :
    Nat → List (JobTables → JobTables) → JobTables → Except JobError JobTables
  | k, [], s => if raisesAt = some k then .error .raised else .ok s
  | k, statement :: rest, s =>
      if raisesAt = some k then .error .raised else execute raisesAt (k + 1) rest (statement s)

/-- `StateStore.expire_jobs` -/
def expireJobs (now : Int) (raisesAt : Option Nat) (s : JobTables) :
    Except JobError JobTables :=
  execute raisesAt 0 (expireStatements (s.expiredIds now)) s

end JobTables

/-! ## Runs -/

inductive JobAction where
  | createJob (job : BulkJob)
  | transitionJob (jobId : String) (next : BulkJobState) (errorCode errorMessage : Option String)
  | addJobCheckpoint (jobId : String) (recordsProcessed bytesWritten : Nat)
      (artifactPath : String) (recordsFailed : Nat) (csvRowNumber : Option Nat)
  | commitBatch (spec : IngestSpec) (jobId : String) (outcomes : List RowOutcome)
      (processed failed inputBytes : Nat)
  | expireJobs (now : Int) (raisesAt : Option Nat)

/-- What an operation makes of the tables up to its `COMMIT`. -/
def JobAction.body : JobAction → JobTables → Except JobError JobTables
  | .createJob job => JobTables.createJob job
  | .transitionJob jobId next errorCode errorMessage =>
      JobTables.transitionJob jobId next errorCode errorMessage
  | .addJobCheckpoint jobId recordsProcessed bytesWritten artifactPath recordsFailed
      csvRowNumber =>
      JobTables.addJobCheckpoint jobId recordsProcessed bytesWritten artifactPath recordsFailed
        csvRowNumber
  | .commitBatch spec jobId outcomes processed failed inputBytes =>
      JobTables.commitBatch spec jobId outcomes processed failed inputBytes
  | .expireJobs now raisesAt => JobTables.expireJobs now raisesAt

/-- An operation in its transaction: an exception is followed by `ROLLBACK`. -/
def JobAction.perform (action : JobAction) (s : JobTables) : JobTables :=
  match action.body s with
  | .ok s' => s'
  | .error _ => s

namespace JobTables

/-- Every row that belongs to a job belongs to a row of `jobs`. -/
structure OrphanFree (s : JobTables) : Prop where
  checkpoints : ∀ row ∈ s.checkpoints, row.jobId ∈ s.jobIds
  results : ∀ row ∈ s.results, row.jobId ∈ s.jobIds
  artifacts : ∀ row ∈ s.artifacts, row.ownerType = "job" → row.ownerId ∈ s.jobIds

/-- The tables without the given jobs and all that belongs to them. -/
def without (ids : List String) (s : JobTables) : JobTables where
  jobs := s.jobs.filter fun job => job.jobId ∉ ids
  checkpoints := s.checkpoints.filter fun row => row.jobId ∉ ids
  results := s.results.filter fun row => row.jobId ∉ ids
  artifacts := s.artifacts.filter fun row => ¬(row.ownerType = "job" ∧ row.ownerId ∈ ids)
  mutableRows := s.mutableRows

/-- An expiry removes the expired jobs with all that belongs to them, or nothing
where it raises. -/
def ExpiresExactly (now : Int) (raisesAt : Option Nat) (s : JobTables) : Prop :=
  (JobAction.expireJobs now raisesAt).perform s =
    match s.expireJobs now raisesAt with
    | .ok _ => s.without (s.expiredIds now)
    | .error _ => s

end JobTables

/-- What an operation must find where it goes through: an expiry, no row results of
an expired job, and a checkpoint or a batch, the job that it is for. -/
def JobAction.FindsOwners : JobAction → JobTables → Prop
  | .createJob _, _ => True
  | .transitionJob _ _ _ _, _ => True
  | .addJobCheckpoint jobId _ _ _ _ _, s => jobId ∈ s.jobIds
  | .commitBatch _ jobId _ _ _ _, s => jobId ∈ s.jobIds
  | .expireJobs now _, s => ∀ row ∈ s.results, row.jobId ∉ s.expiredIds now

/-- A property of every operation of a run, in the tables that it finds. -/
def JobTables.EveryStep (P : JobAction → JobTables → Prop) :
    JobTables → List JobAction → Prop
  | _, [] => True
  | s, action :: rest => P action s ∧ EveryStep P (action.perform s) rest

/-! ## What an operation leaves -/

namespace JobTables

variable {s s' : JobTables} {jobId : String}

@[simp] theorem mem_jobIds : jobId ∈ s.jobIds ↔ ∃ job ∈ s.jobs, job.jobId = jobId :=
  List.mem_map

theorem createJob_eq {job : BulkJob} (h : createJob job s = .ok s') :
    s' = { s with jobs := s.jobs ++ [job] } := by
  unfold createJob at h
  split at h
  · cases h
  · exact (Except.ok.inj h).symm

/-- A transition keeps the ids of the jobs and the three other tables. -/
theorem transitionJob_eq {next : BulkJobState} {errorCode errorMessage : Option String}
    (h : transitionJob jobId next errorCode errorMessage s = .ok s') :
    s'.jobIds = s.jobIds ∧ s'.checkpoints = s.checkpoints ∧ s'.results = s.results ∧
      s'.artifacts = s.artifacts := by
  unfold transitionJob at h
  split at h
  · cases h
  · split at h
    · cases h
    · obtain rfl := Except.ok.inj h
      refine ⟨?_, rfl, rfl, rfl⟩
      rw [jobIds, jobIds, List.map_map]
      refine List.map_congr_left fun job _ => ?_
      rw [Function.comp_apply]
      split <;> rfl

theorem insertOutcome_eq {spec : IngestSpec} {outcome : RowOutcome}
    (h : insertOutcome spec jobId s outcome = .ok s') :
    s'.jobs = s.jobs ∧ s'.checkpoints = s.checkpoints ∧ s'.artifacts = s.artifacts ∧
      s'.results = s.results ++ [⟨jobId, outcome.result⟩] := by
  unfold insertOutcome at h
  split at h
  · cases h
  · split at h
    · cases h
    · obtain rfl := Except.ok.inj h
      exact ⟨rfl, rfl, rfl, rfl⟩

theorem foldlM_insertOutcome_eq {spec : IngestSpec} {outcomes : List RowOutcome}
    (h : outcomes.foldlM (insertOutcome spec jobId) s = .ok s') :
    s'.jobs = s.jobs ∧ s'.checkpoints = s.checkpoints ∧ s'.artifacts = s.artifacts ∧
      s'.results = s.results ++ outcomes.map fun outcome => ⟨jobId, outcome.result⟩ := by
  induction outcomes generalizing s with
  | nil =>
      obtain rfl := Except.ok.inj h
      exact ⟨rfl, rfl, rfl, (List.append_nil _).symm⟩
  | cons outcome outcomes ih =>
      rw [List.foldlM_cons] at h
      cases hfirst : insertOutcome spec jobId s outcome with
      | error error =>
          rw [hfirst] at h
          cases h
      | ok written =>
          rw [hfirst] at h
          obtain ⟨hjobs, hcheckpoints, hartifacts, hresults⟩ := insertOutcome_eq hfirst
          obtain ⟨hjobs', hcheckpoints', hartifacts', hresults'⟩ := ih h
          refine ⟨hjobs'.trans hjobs, hcheckpoints'.trans hcheckpoints,
            hartifacts'.trans hartifacts, ?_⟩
          rw [hresults', hresults, List.append_assoc, List.map_cons, List.singleton_append]

/-- A committed batch adds one checkpoint and its row results, all of them its job's. -/
theorem commitBatch_eq {spec : IngestSpec} {outcomes : List RowOutcome}
    {processed failed inputBytes : Nat}
    (h : commitBatch spec jobId outcomes processed failed inputBytes s = .ok s') :
    s'.jobs = s.jobs ∧ s'.artifacts = s.artifacts ∧
      (∃ row : JobCheckpoint, row.jobId = jobId ∧ s'.checkpoints = s.checkpoints ++ [row]) ∧
      s'.results = s.results ++ outcomes.map fun outcome => ⟨jobId, outcome.result⟩ := by
  unfold commitBatch at h
  cases hrows : outcomes.foldlM (insertOutcome spec jobId) s with
  | error error =>
      rw [hrows] at h
      cases h
  | ok written =>
      rw [hrows] at h
      obtain rfl := Except.ok.inj h
      obtain ⟨hjobs, hcheckpoints, hartifacts, hresults⟩ := foldlM_insertOutcome_eq hrows
      exact ⟨hjobs, hartifacts, ⟨_, rfl, congrArg (· ++ [_]) hcheckpoints⟩, hresults⟩

/-- Statements that do not raise are all executed. -/
theorem execute_eq {raisesAt : Option Nat} {k : Nat} {statements : List (JobTables → JobTables)}
    (h : execute raisesAt k statements s = .ok s') :
    s' = statements.foldl (fun s statement => statement s) s := by
  induction statements generalizing k s with
  | nil =>
      unfold execute at h
      split at h
      · cases h
      · exact (Except.ok.inj h).symm
  | cons statement statements ih =>
      unfold execute at h
      split at h
      · cases h
      · exact ih h

/-- What a completed expiry leaves: no expired job, no checkpoint or artifact of one,
and every row result. -/
theorem expireJobs_eq {now : Int} {raisesAt : Option Nat}
    (h : expireJobs now raisesAt s = .ok s') :
    s' = { s.without (s.expiredIds now) with results := s.results } := by
  rw [execute_eq h, expireStatements]
  split
  · rename_i hnone
    simp [hnone, without]
  · rfl

theorem mem_jobIds_without {ids : List String} :
    jobId ∈ (s.without ids).jobIds ↔ jobId ∈ s.jobIds ∧ jobId ∉ ids := by
  rw [mem_jobIds, mem_jobIds]
  constructor
  · rintro ⟨job, hjob, rfl⟩
    obtain ⟨hmem, hkept⟩ := List.mem_filter.mp hjob
    exact ⟨⟨job, hmem, rfl⟩, by simpa using hkept⟩
  · rintro ⟨⟨job, hmem, rfl⟩, hkept⟩
    exact ⟨job, List.mem_filter.mpr ⟨hmem, by simpa using hkept⟩, rfl⟩

/-! ## The store of one ingest job -/

/-- What `BulkIngest` has of a checkpoint; ingest writes no artifact path. -/
def asIngest (row : JobCheckpoint) : IngestCheckpoint where
  checkpointNumber := row.checkpointNumber
  recordsProcessed := row.recordsProcessed
  recordsFailed := row.recordsFailed
  bytesWritten := row.bytesWritten
  csvRowNumber := row.csvRowNumber.getD 0

/-- The rows of one job and the mutable table of its object: the store that `BulkIngest`
follows. -/
def ingestStore (s : JobTables) (objectName jobId : String) : Option IngestStore :=
  (s.jobs.find? fun job => job.jobId = jobId).map fun job =>
    { state := job.state
      errorCode := job.errorCode
      errorMessage := job.errorMessage
      table := s.mutableRows objectName
      results := s.resultsOf jobId
      checkpoints := (s.checkpoints.filter fun row => row.jobId = jobId).map asIngest }

/-- An operation on the tables answers as one on the store of the job does, and leaves
that store. -/
def SameAnswer {ε : Type} (objectName jobId : String) (wrap : ε → JobError) :
    Except JobError JobTables → Except ε IngestStore → Prop
  | .ok s, .ok store => s.ingestStore objectName jobId = some store
  | .error error, .error error' => error = wrap error'
  | .ok _, .error _ | .error _, .ok _ => False

theorem exists_job_of_ingestStore {objectName : String} {store : IngestStore}
    (h : s.ingestStore objectName jobId = some store) :
    ∃ job, s.jobs.find? (fun job => job.jobId = jobId) = some job ∧
      store =
        { state := job.state
          errorCode := job.errorCode
          errorMessage := job.errorMessage
          table := s.mutableRows objectName
          results := s.resultsOf jobId
          checkpoints := (s.checkpoints.filter fun row => row.jobId = jobId).map asIngest } := by
  obtain ⟨job, hjob, rfl⟩ := Option.map_eq_some_iff.mp h
  exact ⟨job, hjob, rfl⟩

/-- **A transition of the tables is one of the job's store.** -/
theorem transitionJob_ingestStore {objectName : String} {store : IngestStore}
    (h : s.ingestStore objectName jobId = some store) (next : BulkJobState)
    (errorCode errorMessage : Option String) :
    SameAnswer objectName jobId JobError.invalidTransition
      (transitionJob jobId next errorCode errorMessage s)
      (store.transitionJob next errorCode errorMessage) := by
  obtain ⟨job, hjob, rfl⟩ := exists_job_of_ingestStore h
  unfold transitionJob IngestStore.transitionJob
  simp only [hjob]
  cases hvalid : validateTransition job.state next with
  | error error => rfl
  | ok _ =>
      have hfind : ∀ f : BulkJob → BulkJob, (∀ job, (f job).jobId = job.jobId) →
          (s.jobs.map f).find? (fun job => job.jobId = jobId) = some (f job) := by
        intro f hf
        have hsame : (fun job => decide (job.jobId = jobId)) ∘ f =
            fun job => decide (job.jobId = jobId) := by
          funext job
          simp [hf]
        rw [List.find?_map, hsame, hjob, Option.map_some]
      have hid : job.jobId = jobId := by simpa using List.find?_some hjob
      change ingestStore _ objectName jobId = some _
      rw [ingestStore, hfind]
      · rw [Option.map_some, if_pos hid]
        rfl
      · intro job
        split <;> rfl

theorem insertOutcome_ingestStore {spec : IngestSpec} {store : IngestStore}
    (h : s.ingestStore spec.objectName jobId = some store) (outcome : RowOutcome) :
    SameAnswer spec.objectName jobId JobError.constraint (insertOutcome spec jobId s outcome)
      (FakeForce.insertOutcome spec store outcome) := by
  obtain ⟨job, hjob, rfl⟩ := exists_job_of_ingestStore h
  unfold insertOutcome FakeForce.insertOutcome
  cases htable : insertRow spec (s.mutableRows spec.objectName) outcome with
  | error error => rfl
  | ok table =>
      cases hresult : insertResult (s.resultsOf jobId) outcome.result with
      | error error =>
          simp only
          rfl
      | ok results =>
          obtain ⟨-, rfl⟩ := insertResult_eq_ok_iff.mp hresult
          simp only
          change ingestStore _ spec.objectName jobId = some _
          simp [ingestStore, hjob, resultsOf]

/-- Answers that are the same stay so under what is done with them next. -/
theorem SameAnswer.bind {ε : Type} {objectName : String} {wrap : ε → JobError}
    {x : Except JobError JobTables} {y : Except ε IngestStore}
    {f : JobTables → Except JobError JobTables} {g : IngestStore → Except ε IngestStore}
    (h : SameAnswer objectName jobId wrap x y)
    (hnext : ∀ s store, ingestStore s objectName jobId = some store →
      SameAnswer objectName jobId wrap (f s) (g store)) :
    SameAnswer objectName jobId wrap (x >>= f) (y >>= g) := by
  cases x with
  | error error =>
      cases y with
      | error error' => exact h
      | ok store => exact h.elim
  | ok s =>
      cases y with
      | error error => exact h.elim
      | ok store => exact hnext s store h

theorem foldlM_insertOutcome_ingestStore {spec : IngestSpec} {store : IngestStore}
    (outcomes : List RowOutcome) (h : s.ingestStore spec.objectName jobId = some store) :
    SameAnswer spec.objectName jobId JobError.constraint
      (outcomes.foldlM (insertOutcome spec jobId) s)
      (outcomes.foldlM (FakeForce.insertOutcome spec) store) := by
  induction outcomes generalizing s store with
  | nil => exact h
  | cons outcome outcomes ih =>
      rw [List.foldlM_cons, List.foldlM_cons]
      exact (insertOutcome_ingestStore h outcome).bind fun _ _ hwritten => ih hwritten

/-- **A batch of the tables is one of the job's store.** -/
theorem commitBatch_ingestStore {spec : IngestSpec} {store : IngestStore}
    (h : s.ingestStore spec.objectName jobId = some store) (outcomes : List RowOutcome)
    (processed failed inputBytes : Nat) :
    SameAnswer spec.objectName jobId JobError.constraint
      (commitBatch spec jobId outcomes processed failed inputBytes s)
      (FakeForce.commitBatch spec outcomes processed failed inputBytes store) := by
  unfold commitBatch FakeForce.commitBatch
  refine (foldlM_insertOutcome_ingestStore outcomes h).bind fun tables written hwritten => ?_
  obtain ⟨job, hjob, rfl⟩ := exists_job_of_ingestStore hwritten
  -- the number of the checkpoint is the next one of the job on both sides
  have hnumbers : IngestCheckpoint.checkpointNumber ∘ asIngest =
      JobCheckpoint.checkpointNumber := rfl
  change ingestStore _ spec.objectName jobId = some _
  simp [ingestStore, hjob, resultsOf, nextCheckpoint, hnumbers, asIngest]

/-! ## Steps -/

/-- Taking jobs away with all that belongs to them orphans nothing. -/
theorem OrphanFree.without (h : s.OrphanFree) (ids : List String) :
    (s.without ids).OrphanFree where
  checkpoints row hrow := by
    obtain ⟨hmem, hkept⟩ := List.mem_filter.mp hrow
    exact mem_jobIds_without.mpr ⟨h.checkpoints row hmem, by simpa using hkept⟩
  results row hrow := by
    obtain ⟨hmem, hkept⟩ := List.mem_filter.mp hrow
    exact mem_jobIds_without.mpr ⟨h.results row hmem, by simpa using hkept⟩
  artifacts row hrow howner := by
    obtain ⟨hmem, hkept⟩ := List.mem_filter.mp hrow
    refine mem_jobIds_without.mpr ⟨h.artifacts row hmem howner, fun hid => ?_⟩
    simp [howner, hid] at hkept

/-- Where no row result belongs to the given jobs, none goes with them. -/
theorem without_eq_of_forall {ids : List String} (h : ∀ row ∈ s.results, row.jobId ∉ ids) :
    { s.without ids with results := s.results } = s.without ids := by
  have hall : s.results.filter (fun row => row.jobId ∉ ids) = s.results :=
    List.filter_eq_self.mpr fun row hrow => by simpa using h row hrow
  rw [JobTables.without, hall]

end JobTables

namespace JobAction

open JobTables

variable {s s' : JobTables} {action : JobAction}

/-- Where an operation finds the owners, it leaves no orphan. -/
theorem orphanFree_of_findsOwners (hs : s.OrphanFree) (hbody : action.body s = .ok s')
    (hfinds : action.FindsOwners s) : s'.OrphanFree := by
  cases action with
  | createJob job =>
      obtain rfl := createJob_eq hbody
      have hkept : ∀ {jobId}, jobId ∈ s.jobIds →
          jobId ∈ JobTables.jobIds { s with jobs := s.jobs ++ [job] } := by
        intro jobId hmem
        rw [jobIds, List.map_append]
        exact List.mem_append_left _ hmem
      exact ⟨fun row hrow => hkept (hs.checkpoints row hrow),
        fun row hrow => hkept (hs.results row hrow),
        fun row hrow howner => hkept (hs.artifacts row hrow howner)⟩
  | transitionJob jobId next errorCode errorMessage =>
      obtain ⟨hids, hcheckpoints, hresults, hartifacts⟩ := transitionJob_eq hbody
      refine ⟨?_, ?_, ?_⟩
      · rw [hids, hcheckpoints]
        exact hs.checkpoints
      · rw [hids, hresults]
        exact hs.results
      · rw [hids, hartifacts]
        exact hs.artifacts
  | addJobCheckpoint jobId recordsProcessed bytesWritten artifactPath recordsFailed
      csvRowNumber =>
      obtain rfl := Except.ok.inj hbody
      refine ⟨fun row hrow => ?_, hs.results, hs.artifacts⟩
      rcases List.mem_append.mp hrow with hold | hnew
      · exact hs.checkpoints row hold
      · rw [List.mem_singleton.mp hnew]
        exact hfinds
  | commitBatch spec jobId outcomes processed failed inputBytes =>
      obtain ⟨hjobs, hartifacts, ⟨checkpoint, hid, hcheckpoints⟩, hresults⟩ :=
        JobTables.commitBatch_eq hbody
      have hids : s'.jobIds = s.jobIds := congrArg (List.map BulkJob.jobId) hjobs
      refine ⟨fun row hrow => ?_, fun row hrow => ?_, ?_⟩
      · rw [hcheckpoints] at hrow
        rw [hids]
        rcases List.mem_append.mp hrow with hold | hnew
        · exact hs.checkpoints row hold
        · rw [List.mem_singleton.mp hnew, hid]
          exact hfinds
      · rw [hresults] at hrow
        rw [hids]
        rcases List.mem_append.mp hrow with hold | hnew
        · exact hs.results row hold
        · obtain ⟨outcome, _, rfl⟩ := List.mem_map.mp hnew
          exact hfinds
      · rw [hids, hartifacts]
        exact hs.artifacts
  | expireJobs now raisesAt =>
      obtain rfl := expireJobs_eq hbody
      rw [without_eq_of_forall hfinds]
      exact hs.without _

/-- Where an operation leaves no orphan, it has found the owners. -/
theorem findsOwners_of_orphanFree (hbody : action.body s = .ok s') (hs' : s'.OrphanFree) :
    action.FindsOwners s := by
  cases action with
  | createJob job => trivial
  | transitionJob jobId next errorCode errorMessage => trivial
  | addJobCheckpoint jobId recordsProcessed bytesWritten artifactPath recordsFailed
      csvRowNumber =>
      obtain rfl := Except.ok.inj hbody
      exact hs'.checkpoints _ (List.mem_append_right _ (List.mem_singleton_self _))
  | commitBatch spec jobId outcomes processed failed inputBytes =>
      obtain ⟨hjobs, _, ⟨checkpoint, rfl, hcheckpoints⟩, _⟩ :=
        JobTables.commitBatch_eq hbody
      have hids : s'.jobIds = s.jobIds := congrArg (List.map BulkJob.jobId) hjobs
      have howner := hs'.checkpoints checkpoint (by rw [hcheckpoints]; simp)
      rwa [hids] at howner
  | expireJobs now raisesAt =>
      intro row hrow
      obtain rfl := expireJobs_eq hbody
      exact (mem_jobIds_without.mp (hs'.results row hrow)).2

/-- An operation that may go through only with the owners there. -/
def Guarded (action : JobAction) (s : JobTables) : Prop :=
  ∀ s', action.body s = .ok s' → action.FindsOwners s

/-- What is promised of an operation: no orphan behind it, and of an expiry that it
takes exactly what belongs to the expired jobs. -/
structure Sound (action : JobAction) (s : JobTables) : Prop where
  orphanFree : (action.perform s).OrphanFree
  expires : ∀ now raisesAt, action = .expireJobs now raisesAt → s.ExpiresExactly now raisesAt

theorem sound_iff (hs : s.OrphanFree) : action.Sound s ↔ action.Guarded s := by
  constructor
  · intro h s' hbody
    have hs' := h.orphanFree
    rw [perform, hbody] at hs'
    exact findsOwners_of_orphanFree hbody hs'
  · intro h
    cases hbody : action.body s with
    | error error =>
        refine ⟨by rwa [perform, hbody], ?_⟩
        rintro now raisesAt rfl
        change JobTables.expireJobs now raisesAt s = .error error at hbody
        simp only [ExpiresExactly, perform, body, hbody]
    | ok s' =>
        have hfinds := h s' hbody
        refine ⟨?_, ?_⟩
        · rw [perform, hbody]
          exact orphanFree_of_findsOwners hs hbody hfinds
        · rintro now raisesAt rfl
          change JobTables.expireJobs now raisesAt s = .ok s' at hbody
          simp only [ExpiresExactly, perform, body, hbody]
          exact (expireJobs_eq hbody).trans (without_eq_of_forall hfinds)

end JobAction

/-- **Runs of the store.**  Nothing is orphaned and every expiry takes exactly what
belongs to the expired jobs, in exactly the runs whose operations all find the
owners of what they write or leave. -/
theorem JobTables.everyStep_sound_iff {start : JobTables} {actions : List JobAction}
    (hstart : start.OrphanFree) :
    start.EveryStep JobAction.Sound actions ↔ start.EveryStep JobAction.Guarded actions := by
  induction actions generalizing start with
  | nil => rfl
  | cons action actions ih =>
      have hstep : action.Sound start ↔ action.Guarded start := JobAction.sound_iff hstart
      constructor
      · rintro ⟨hsound, hrest⟩
        exact ⟨hstep.mp hsound, (ih hsound.orphanFree).mp hrest⟩
      · rintro ⟨hguarded, hrest⟩
        have hsound := hstep.mpr hguarded
        exact ⟨hsound, (ih hsound.orphanFree).mpr hrest⟩

/-- Tables that nothing has been written to. -/
def JobTables.empty : JobTables := ⟨[], [], [], [], fun _ => []⟩

/-- An ingest job that expires at 1. -/
def JobTables.shortLived : BulkJob :=
  ⟨"7500001", .ingest, "v60.0", .inProgress, some "Account", some "insert", none, none, none,
    none, some 1, []⟩

/-- The object that the job inserts into. -/
def JobTables.accounts : IngestSpec where
  objectName := "Account"
  idField := "Id"
  isMutable := true
  schema := [⟨"Id", .other⟩]
  idField_mem := by simp

/-- A batch of one failed row. -/
def JobTables.failedRow : RowOutcome :=
  ⟨1, .failed, none, some "Name: must be a boolean", [], none⟩

/-- The job is created, its batch is committed, and the job expires. -/
def JobTables.ingestThenExpiry : List JobAction :=
  [.createJob shortLived, .commitBatch accounts "7500001" [failedRow] 0 0 10, .expireJobs 1 none]

/-- A second ingest job, which does not expire. -/
def JobTables.keptJob : BulkJob :=
  { shortLived with jobId := "7500002", expiresAt := none }

/-- Two jobs, each with an artifact, and an artifact of a cursor. -/
def JobTables.twoJobs : JobTables where
  jobs := [shortLived, keptJob]
  checkpoints := []
  results := []
  artifacts := [⟨"1", "job", "7500001", "a.csv"⟩, ⟨"2", "job", "7500002", "b.csv"⟩,
    ⟨"3", "cursor", "7500001", "c.idx"⟩]
  mutableRows := fun _ => []

/-- A checkpoint of the first job, a batch of the second, and an expiry of the first. -/
def JobTables.checkpointsThenExpiry : List JobAction :=
  [.addJobCheckpoint "7500001" 2 10 "part-00000.csv" 0 none,
    .commitBatch accounts "7500002" [failedRow] 0 0 10, .expireJobs 1 none]

/-- The expiry takes the checkpoint and the artifact of the first job, and leaves the
rows of the second. -/
theorem JobTables.everyStep_sound_twoJobs :
    twoJobs.EveryStep JobAction.Sound checkpointsThenExpiry ∧
      (checkpointsThenExpiry.foldl (fun s action => action.perform s) twoJobs).checkpoints.map
        JobCheckpoint.jobId = ["7500002"] ∧
      (checkpointsThenExpiry.foldl (fun s action => action.perform s) twoJobs).results =
        [⟨"7500002", failedRow.result⟩] ∧
      (checkpointsThenExpiry.foldl (fun s action => action.perform s) twoJobs).artifacts.map
        Artifact.artifactId = ["2", "3"] := by
  refine ⟨(everyStep_sound_iff ⟨by decide, by decide, by decide⟩).mpr ⟨?_, ?_, ?_, trivial⟩,
    by decide, by decide, by decide⟩
  · intro _ _
    change "7500001" ∈ twoJobs.jobIds
    decide
  · intro _ _
    change "7500002" ∈ jobIds _
    decide
  · intro _ _
    change ∀ row ∈ results _, row.jobId ∉ expiredIds 1 _
    decide

/-- After a batch, the expiry leaves the row results of the job. -/
theorem JobTables.rowResults_orphaned :
    ¬ JobTables.empty.EveryStep JobAction.Sound ingestThenExpiry := by
  intro h
  have hleft := h.2.2.1.orphanFree.results ⟨"7500001", failedRow.result⟩ (by decide)
  revert hleft
  decide

end FakeForce
end Northwind
