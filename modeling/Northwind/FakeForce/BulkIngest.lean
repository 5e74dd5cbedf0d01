import Northwind.FakeForce.BulkJobs
import Northwind.FakeForce.IngestRows
import Northwind.Library.Batches
import Mathlib.Data.List.MinMax
import Mathlib.Logic.Relation

/-!
# The bulk ingest worker and its store

The store of an ingest job is the object's mutable table, the job's row
results and its checkpoints, and the job's own state.  A batch is one
transaction: `commitBatch` is what its `COMMIT` makes durable, and an
exception or a crash before that leaves the store as it was.

`IngestStep` is the worker with everything that happens beside it.  Between
two batches the worker keeps the rows still to read and its two counters in
memory; a crash loses them, and the next execution reads the last checkpoint.
-/

namespace Northwind
namespace FakeForce

open Batches

/-- A row of `job_row_results`. -/
structure RowResult where
  csvRowNumber : Nat
  status : RowStatus
  recordId : Option String
  errorMessage : Option String
  sourceValues : List (String × Option String)
deriving DecidableEq

/-- What `_commit_batch` records of an outcome. -/
def RowOutcome.result (outcome : RowOutcome) : RowResult where
  csvRowNumber := outcome.csvRowNumber
  status := outcome.status
  recordId := outcome.recordId
  errorMessage := outcome.errorMessage
  sourceValues := outcome.sourceValues

/-- A row of `job_checkpoints` as ingest writes it; `artifact_path` is NULL. -/
structure IngestCheckpoint where
  checkpointNumber : Nat
  recordsProcessed : Nat
  recordsFailed : Nat
  bytesWritten : Nat
  csvRowNumber : Nat
deriving DecidableEq

structure IngestProgress where
  recordsProcessed : Nat
  recordsFailed : Nat
  csvRowNumber : Nat
deriving DecidableEq

/-- `StateStore.ingest_progress` -/
def ingestProgress (checkpoints : List IngestCheckpoint) : IngestProgress :=
  match checkpoints.argmax IngestCheckpoint.checkpointNumber with
  | none => ⟨0, 0, 0⟩
  | some last => ⟨last.recordsProcessed, last.recordsFailed, last.csvRowNumber⟩

structure IngestStore where
  state : BulkJobState
  errorCode : Option String
  errorMessage : Option String
  table : List TableRow
  results : List RowResult
  checkpoints : List IngestCheckpoint
deriving DecidableEq

/-- `StateStore.transition_job` -/
def IngestStore.transitionJob (store : IngestStore) (next : BulkJobState)
    (errorCode errorMessage : Option String) : Except InvalidJobTransition IngestStore :=
  (validateTransition store.state next).map fun _ =>
    { store with state := next, errorCode := errorCode, errorMessage := errorMessage }

/-- The uniqueness constraints that a batch writes under. -/
inductive ConstraintError where
  | idIndex
  | resultKey
deriving DecidableEq

/-- `INSERT INTO ff_mutable_…`, under the unique index on the id column. -/
def insertValues (spec : IngestSpec) (table : List TableRow) (values : TableRow) :
    Except ConstraintError (List TableRow) :=
  if spec.storedId values ≠ none ∧ spec.storedId values ∈ table.map spec.storedId then
    .error .idIndex
  else .ok (table ++ [values])

/-- `INSERT INTO job_row_results`, under its primary key. -/
def insertResult (results : List RowResult) (result : RowResult) :
    Except ConstraintError (List RowResult) :=
  if result.csvRowNumber ∈ results.map RowResult.csvRowNumber then .error .resultKey
  else .ok (results ++ [result])

/-- The insert of an outcome, if it has values. -/
def insertRow (spec : IngestSpec) (table : List TableRow) (outcome : RowOutcome) :
    Except ConstraintError (List TableRow) :=
  match outcome.values with
  | some values => insertValues spec table values
  | none => .ok table

/-- One turn of the loop of `_commit_batch`. -/
def insertOutcome (spec : IngestSpec) (store : IngestStore) (outcome : RowOutcome) :
    Except ConstraintError IngestStore := do
  let table ← insertRow spec store.table outcome
  let results ← insertResult store.results outcome.result
  .ok { store with table := table, results := results }

/-- `sum(outcome.status == "success" for outcome in outcomes)` -/
def succeeded (outcomes : List RowOutcome) : Nat :=
  outcomes.countP fun outcome => outcome.status = .success

/-- `_commit_batch`.  Batches are never empty, so `outcomes[-1]` exists. -/
def commitBatch (spec : IngestSpec) (outcomes : List RowOutcome)
    (processed failed inputBytes : Nat) (store : IngestStore) :
    Except ConstraintError IngestStore := do
  let written ← outcomes.foldlM (insertOutcome spec) store
  .ok { written with
    checkpoints := written.checkpoints ++
      [{ checkpointNumber :=
          nextNumber (written.checkpoints.map IngestCheckpoint.checkpointNumber)
         recordsProcessed := processed + succeeded outcomes
         recordsFailed := failed + outcomes.length - succeeded outcomes
         bytesWritten := inputBytes
         csvRowNumber := (outcomes.getLast?.map RowOutcome.csvRowNumber).getD 0 }] }

/-- The loop of `_stream` up to the next full batch, or to the end of the file:
the batch and the rows behind it. -/
def nextBatch (size : Nat) (batch : List CsvRow) :
    List CsvRow → Except IngestFileError (List CsvRow × List CsvRow)
  | [] => .ok (batch, [])
  | row :: rest =>
      if row.surplus ≠ [] then
        .error ⟨s!"row {row.number} has more values than the CSV header"⟩
      else if size ≤ (batch ++ [row]).length then .ok (batch ++ [row], rest)
      else nextBatch size (batch ++ [row]) rest

/-- The worker, with its settings and the job it is given. -/
structure BulkIngestWorker where
  readers : Readers
  catalog : String → Option IngestSpec
  batchRecords : Nat
  jobId : String
  objectName : String

/-- Where an execution of the worker stands. -/
inductive IngestPhase where
  | idle
  | started
  | streaming (spec : IngestSpec) (rest : List CsvRow) (processed failed : Nat)
  | decided (spec : IngestSpec) (outcomes : List RowOutcome) (inputBytes : Nat)
      (rest : List CsvRow) (processed failed : Nat)
  | raised (error : Option IngestFileError)

structure IngestState where
  store : IngestStore
  phase : IngestPhase

inductive IngestAction where
  | worker
  | crash
  | patch (requested : BulkJobState)
deriving DecidableEq

namespace BulkIngestWorker

variable (W : BulkIngestWorker)

/-- What `_stream` opens: the object and the rows of the upload. -/
def openUpload (input : Option CsvUpload) :
    Except IngestFileError (IngestSpec × List CsvRow) :=
  match W.catalog W.objectName with
  | none => .error ⟨s!"{W.objectName} is not configured for ingest"⟩
  | some spec =>
      if spec.isMutable = false then
        .error ⟨s!"{W.objectName} is not configured for ingest"⟩
      else match input with
        | none => .error ⟨"CSV upload is missing"⟩
        | some upload =>
            (readRows upload (spec.schema.map Field.name)).map fun rows => (spec, rows)

/-- The rows that the loop of `_stream` does not skip. -/
def resumeRows (store : IngestStore) (rows : List CsvRow) : List CsvRow :=
  rows.filter fun row => ¬ row.number ≤ (ingestProgress store.checkpoints).csvRowNumber

/-- The outcomes of a batch, decided against a table. -/
def applyBatch (spec : IngestSpec) (table : List TableRow) (batch : List CsvRow) :
    List RowOutcome :=
  batchOutcomes spec table (batch.map (prepareRow W.readers W.jobId spec))

/-- The error code and message of `run`'s two exception handlers. -/
def failureOf : Option IngestFileError → String × String
  | some error => ("INVALID_CSV", error.message)
  | none => ("BULK_PROCESSING_ERROR", "Bulk ingest processing failed")

/-- One step of an execution over the file that is stored. -/
inductive WorkerStep (input : Option CsvUpload) : IngestState → IngestState → Prop
  | start {store store' : IngestStore} :
      store.state = .uploadComplete →
      store.transitionJob .inProgress none none = .ok store' →
      WorkerStep input ⟨store, .idle⟩ ⟨store', .started⟩
  | restart {store : IngestStore} :
      store.state = .inProgress →
      WorkerStep input ⟨store, .idle⟩ ⟨store, .started⟩
  | openFile {store : IngestStore} {spec : IngestSpec} {rows : List CsvRow} :
      W.openUpload input = .ok (spec, rows) →
      WorkerStep input ⟨store, .started⟩
        ⟨store, .streaming spec (resumeRows store rows)
          (ingestProgress store.checkpoints).recordsProcessed
          (ingestProgress store.checkpoints).recordsFailed⟩
  | openFails {store : IngestStore} {error : IngestFileError} :
      W.openUpload input = .error error →
      WorkerStep input ⟨store, .started⟩ ⟨store, .raised (some error)⟩
  | lookup {store : IngestStore} {spec : IngestSpec} {unread batch rest : List CsvRow}
      {processed failed : Nat} {upload : CsvUpload} :
      unread ≠ [] →
      nextBatch W.batchRecords [] unread = .ok (batch, rest) →
      input = some upload →
      WorkerStep input ⟨store, .streaming spec unread processed failed⟩
        ⟨store, .decided spec (W.applyBatch spec store.table batch) upload.byteSize rest
          processed failed⟩
  | surplus {store : IngestStore} {spec : IngestSpec} {unread : List CsvRow}
      {processed failed : Nat} {error : IngestFileError} :
      nextBatch W.batchRecords [] unread = .error error →
      WorkerStep input ⟨store, .streaming spec unread processed failed⟩
        ⟨store, .raised (some error)⟩
  | commit {store store' : IngestStore} {spec : IngestSpec} {outcomes : List RowOutcome}
      {inputBytes processed failed : Nat} {rest : List CsvRow} :
      commitBatch spec outcomes processed failed inputBytes store = .ok store' →
      WorkerStep input ⟨store, .decided spec outcomes inputBytes rest processed failed⟩
        ⟨store', .streaming spec rest (processed + succeeded outcomes)
          (failed + outcomes.length - succeeded outcomes)⟩
  /-- any other exception inside `_stream`, a violated constraint among them -/
  | raise {store : IngestStore} {phase : IngestPhase} :
      phase ≠ .idle → (∀ error, phase ≠ .raised error) →
      WorkerStep input ⟨store, phase⟩ ⟨store, .raised none⟩
  | complete {store store' : IngestStore} {spec : IngestSpec} {processed failed : Nat} :
      store.transitionJob .jobComplete none none = .ok store' →
      WorkerStep input ⟨store, .streaming spec [] processed failed⟩ ⟨store', .idle⟩
  | completeRefused {store : IngestStore} {spec : IngestSpec} {processed failed : Nat}
      {error : InvalidJobTransition} :
      store.transitionJob .jobComplete none none = .error error →
      WorkerStep input ⟨store, .streaming spec [] processed failed⟩ ⟨store, .idle⟩
  | fail {store store' : IngestStore} {error : Option IngestFileError} :
      store.transitionJob .failed (some (failureOf error).1) (some (failureOf error).2) =
        .ok store' →
      WorkerStep input ⟨store, .raised error⟩ ⟨store', .idle⟩
  | failRefused {store : IngestStore} {error : Option IngestFileError}
      {refused : InvalidJobTransition} :
      store.transitionJob .failed (some (failureOf error).1) (some (failureOf error).2) =
        .error refused →
      WorkerStep input ⟨store, .raised error⟩ ⟨store, .idle⟩

/-- The worker, a crash of the process, or a PATCH of the job. -/
inductive IngestStep (input : Option CsvUpload) :
    IngestState → IngestAction → IngestState → Prop
  | worker {s s' : IngestState} :
      W.WorkerStep input s s' → IngestStep input s .worker s'
  | crash {s : IngestState} : IngestStep input s .crash ⟨s.store, .idle⟩
  | close {store store' : IngestStore} {phase : IngestPhase} :
      input ≠ none →
      store.transitionJob .uploadComplete none none = .ok store' →
      IngestStep input ⟨store, phase⟩ (.patch .uploadComplete) ⟨store', phase⟩
  | abort {store store' : IngestStore} {phase : IngestPhase} :
      store.transitionJob .aborted none none = .ok store' →
      IngestStep input ⟨store, phase⟩ (.patch .aborted) ⟨store', phase⟩

/-- Any step over a file that stays as it is. -/
def AnyIngestStep (input : Option CsvUpload) (s s' : IngestState) : Prop :=
  ∃ a, W.IngestStep input s a s'

end BulkIngestWorker

theorem insertRow_eq_ok_iff
    {spec : IngestSpec} {table table' : List TableRow} {outcome : RowOutcome} :
    insertRow spec table outcome = .ok table' ↔
      (∀ values ∈ outcome.values, spec.storedId values ≠ none →
        spec.storedId values ∉ table.map spec.storedId) ∧
      table' = table ++ outcome.values.toList := by
  unfold insertRow
  cases outcome.values with
  | none => simp [eq_comm]
  | some values =>
      simp only [insertValues, Option.mem_some_iff, forall_eq', Option.toList_some]
      by_cases hid : spec.storedId values ≠ none ∧
          spec.storedId values ∈ table.map spec.storedId
      · rw [if_pos hid]
        exact ⟨nofun, fun h => absurd hid.2 (h.1 hid.1)⟩
      · rw [if_neg hid, Except.ok.injEq]
        exact ⟨fun h => ⟨fun hne hmem => hid ⟨hne, hmem⟩, h.symm⟩, fun h => h.2.symm⟩

theorem insertResult_eq_ok_iff {results results' : List RowResult} {result : RowResult} :
    insertResult results result = .ok results' ↔
      result.csvRowNumber ∉ results.map RowResult.csvRowNumber ∧
        results' = results ++ [result] := by
  unfold insertResult
  by_cases hold : result.csvRowNumber ∈ results.map RowResult.csvRowNumber
  · rw [if_pos hold]
    exact ⟨nofun, fun h => absurd hold h.1⟩
  · rw [if_neg hold, Except.ok.injEq]
    exact ⟨fun h => ⟨hold, h.symm⟩, fun h => h.2.symm⟩

theorem insertOutcome_eq_ok_iff
    {spec : IngestSpec} {store store' : IngestStore} {outcome : RowOutcome} :
    insertOutcome spec store outcome = .ok store' ↔
      (∀ values ∈ outcome.values, spec.storedId values ≠ none →
        spec.storedId values ∉ store.table.map spec.storedId) ∧
      outcome.csvRowNumber ∉ store.results.map RowResult.csvRowNumber ∧
      store' = { store with
        table := store.table ++ outcome.values.toList
        results := store.results ++ [outcome.result] } := by
  unfold insertOutcome
  cases htable : insertRow spec store.table outcome with
  | error e =>
      refine ⟨nofun, fun h => ?_⟩
      rw [insertRow_eq_ok_iff.mpr ⟨h.1, rfl⟩] at htable
      cases htable
  | ok table =>
      obtain ⟨hfree, rfl⟩ := insertRow_eq_ok_iff.mp htable
      cases hresult : insertResult store.results outcome.result with
      | error e =>
          refine ⟨nofun, fun h => ?_⟩
          rw [insertResult_eq_ok_iff.mpr ⟨h.2.1, rfl⟩] at hresult
          cases hresult
      | ok results =>
          obtain ⟨hnew, rfl⟩ := insertResult_eq_ok_iff.mp hresult
          exact ⟨fun h => ⟨hfree, hnew, (Except.ok.inj h).symm⟩,
            fun h => congrArg Except.ok h.2.2.symm⟩

/-- The row results and inserts of a batch, once they all go through. -/
theorem foldlM_insertOutcome
    {spec : IngestSpec} {outcomes : List RowOutcome} {store store' : IngestStore}
    (h : outcomes.foldlM (insertOutcome spec) store = .ok store') :
    store' = { store with
      table := store.table ++ outcomes.filterMap RowOutcome.values
      results := store.results ++ outcomes.map RowOutcome.result } := by
  induction outcomes generalizing store with
  | nil =>
      rw [List.foldlM_nil] at h
      simpa using (Except.ok.inj h).symm
  | cons outcome outcomes ih =>
      rw [List.foldlM_cons] at h
      cases hfirst : insertOutcome spec store outcome with
      | error e =>
          rw [hfirst] at h
          cases h
      | ok written =>
          rw [hfirst] at h
          obtain ⟨-, -, rfl⟩ := insertOutcome_eq_ok_iff.mp hfirst
          rw [ih h]
          cases hvalues : outcome.values <;> simp [hvalues]

/-- A batch leaves the ids of the table unique. -/
theorem nodup_foldlM_insertOutcome
    {spec : IngestSpec} {outcomes : List RowOutcome} {store store' : IngestStore}
    (h : outcomes.foldlM (insertOutcome spec) store = .ok store')
    (hunique : (store.table.filterMap spec.storedId).Nodup) :
    (store'.table.filterMap spec.storedId).Nodup := by
  induction outcomes generalizing store with
  | nil =>
      rw [List.foldlM_nil] at h
      rwa [← Except.ok.inj h]
  | cons outcome outcomes ih =>
      rw [List.foldlM_cons] at h
      cases hfirst : insertOutcome spec store outcome with
      | error e =>
          rw [hfirst] at h
          cases h
      | ok written =>
          rw [hfirst] at h
          refine ih h ?_
          obtain ⟨hfree, -, rfl⟩ := insertOutcome_eq_ok_iff.mp hfirst
          cases hvalues : outcome.values with
          | none => simpa [hvalues] using hunique
          | some values =>
              cases hid : spec.storedId values with
              | none => simpa [hvalues, hid] using hunique
              | some recordId =>
                  have hnew := hfree values hvalues (by simp [hid])
                  rw [hid] at hnew
                  have hfresh : recordId ∉ store.table.filterMap spec.storedId := by
                    intro hmem
                    obtain ⟨row, hrow, hstored⟩ := List.mem_filterMap.mp hmem
                    exact hnew (List.mem_map.mpr ⟨row, hrow, hstored⟩)
                  simp only [Option.toList_some, List.filterMap_append,
                    List.filterMap_cons, hid, List.filterMap_nil]
                  rw [List.nodup_append]
                  refine ⟨hunique, List.nodup_singleton _, ?_⟩
                  rintro x hx y hy rfl
                  rw [List.mem_singleton.mp hy] at hx
                  exact hfresh hx

/-- **What a committed batch leaves.** -/
theorem commitBatch_eq
    {spec : IngestSpec} {outcomes : List RowOutcome} {processed failed inputBytes : Nat}
    {store store' : IngestStore}
    (h : commitBatch spec outcomes processed failed inputBytes store = .ok store') :
    store' = { store with
      table := store.table ++ outcomes.filterMap RowOutcome.values
      results := store.results ++ outcomes.map RowOutcome.result
      checkpoints := store.checkpoints ++
        [{ checkpointNumber :=
            nextNumber (store.checkpoints.map IngestCheckpoint.checkpointNumber)
           recordsProcessed := processed + succeeded outcomes
           recordsFailed := failed + outcomes.length - succeeded outcomes
           bytesWritten := inputBytes
           csvRowNumber := (outcomes.getLast?.map RowOutcome.csvRowNumber).getD 0 }] } := by
  unfold commitBatch at h
  cases hrows : outcomes.foldlM (insertOutcome spec) store with
  | error e =>
      rw [hrows] at h
      cases h
  | ok written =>
      rw [hrows] at h
      rw [← Except.ok.inj h, foldlM_insertOutcome hrows]

theorem nodup_commitBatch
    {spec : IngestSpec} {outcomes : List RowOutcome} {processed failed inputBytes : Nat}
    {store store' : IngestStore}
    (h : commitBatch spec outcomes processed failed inputBytes store = .ok store')
    (hunique : (store.table.filterMap spec.storedId).Nodup) :
    (store'.table.filterMap spec.storedId).Nodup := by
  unfold commitBatch at h
  cases hrows : outcomes.foldlM (insertOutcome spec) store with
  | error e =>
      rw [hrows] at h
      cases h
  | ok written =>
      rw [hrows] at h
      have hnodup := nodup_foldlM_insertOutcome hrows hunique
      rwa [← Except.ok.inj h]

theorem transitionJob_eq_ok_iff
    {store store' : IngestStore} {next : BulkJobState} {errorCode errorMessage : Option String} :
    store.transitionJob next errorCode errorMessage = .ok store' ↔
      next ∈ allowedTransitions store.state ∧
        store' = { store with
          state := next, errorCode := errorCode, errorMessage := errorMessage } := by
  unfold IngestStore.transitionJob validateTransition
  by_cases h : next ∈ allowedTransitions store.state
  · simp [h, Except.map, eq_comm]
  · simp [h, Except.map]

/-- The full batch the reader cuts off, when no row has too many cells. -/
theorem nextBatch_eq_ok
    {size : Nat} {batch unread cut rest : List CsvRow} (hroom : batch.length < size)
    (h : nextBatch size batch unread = .ok (cut, rest)) :
    cut = batch ++ unread.take (size - batch.length) ∧
      rest = unread.drop (size - batch.length) := by
  induction unread generalizing batch with
  | nil =>
      simp only [nextBatch, Except.ok.injEq, Prod.mk.injEq] at h
      simp [← h.1, ← h.2]
  | cons row unread ih =>
      have hsplit : size - batch.length = size - (batch.length + 1) + 1 := by omega
      rw [nextBatch] at h
      split at h
      · cases h
      · split at h
        · rename_i hfull
          simp only [List.length_append, List.length_singleton] at hfull
          simp only [Except.ok.injEq, Prod.mk.injEq] at h
          have hone : size - batch.length = 1 := by omega
          rw [hone]
          simp [← h.1, ← h.2]
        · rename_i hfull
          simp only [List.length_append, List.length_singleton, Nat.not_le] at hfull
          obtain ⟨hcut, hrest⟩ := ih (by simpa using hfull) h
          rw [hsplit]
          simp only [List.length_append, List.length_singleton] at hcut hrest
          simp [hcut, hrest]

theorem number_of_getElem?
    {rows : List CsvRow} (hnumber : rows.map CsvRow.number = List.range' 1 rows.length)
    {i : Nat} {row : CsvRow} (h : rows[i]? = some row) : row.number = 1 + i := by
  have hlt := (List.getElem?_eq_some_iff.mp h).1
  have hmap : (rows.map CsvRow.number)[i]? = some (1 + i) := by
    rw [hnumber, List.getElem?_range' hlt, Nat.one_mul]
  rw [List.getElem?_map, h] at hmap
  exact Option.some.inj hmap

/-- Skipping the rows up to a number drops that many. -/
theorem filter_number_eq_drop
    {rows : List CsvRow} (hnumber : rows.map CsvRow.number = List.range' 1 rows.length)
    (k : Nat) :
    rows.filter (fun row => ¬ row.number ≤ min k rows.length) = rows.drop k := by
  have hleft : (rows.take k).filter (fun row => ¬ row.number ≤ min k rows.length) = [] := by
    rw [List.filter_eq_nil_iff]
    intro row hrow
    obtain ⟨i, hi⟩ := List.mem_iff_getElem?.mp hrow
    have hlt := (List.getElem?_eq_some_iff.mp hi).1
    rw [List.length_take] at hlt
    rw [List.getElem?_take_of_lt (by omega)] at hi
    have := number_of_getElem? hnumber hi
    simp only [decide_eq_true_eq, not_not]
    omega
  have hright : (rows.drop k).filter (fun row => ¬ row.number ≤ min k rows.length) =
      rows.drop k := by
    rw [List.filter_eq_self]
    intro row hrow
    obtain ⟨i, hi⟩ := List.mem_iff_getElem?.mp hrow
    rw [List.getElem?_drop] at hi
    have := number_of_getElem? hnumber hi
    have hlt := (List.getElem?_eq_some_iff.mp hi).1
    simp only [decide_eq_true_eq]
    omega
  have hsplit := List.filter_append (p := fun row => decide ¬ row.number ≤ min k rows.length)
    (rows.take k) (rows.drop k)
  rw [hleft, hright, List.take_append_drop, List.nil_append] at hsplit
  exact hsplit

/-- The progress that a list of outcomes amounts to. -/
def progressOf (outcomes : List RowOutcome) : IngestProgress :=
  ⟨succeeded outcomes, outcomes.length - succeeded outcomes, outcomes.length⟩

theorem succeeded_le_length (outcomes : List RowOutcome) :
    succeeded outcomes ≤ outcomes.length :=
  List.countP_le_length

theorem succeeded_append (outcomes outcomes' : List RowOutcome) :
    succeeded (outcomes ++ outcomes') = succeeded outcomes + succeeded outcomes' :=
  List.countP_append

/-- The progress behind a new checkpoint, when the checkpoints are numbered in
order. -/
theorem ingestProgress_append
    {checkpoints : List IngestCheckpoint} {last : IngestCheckpoint}
    (hnumbers : checkpoints.map IngestCheckpoint.checkpointNumber =
      List.range checkpoints.length)
    (hlast : last.checkpointNumber = checkpoints.length) :
    ingestProgress (checkpoints ++ [last]) =
      ⟨last.recordsProcessed, last.recordsFailed, last.csvRowNumber⟩ := by
  unfold ingestProgress
  rw [List.argmax_concat]
  cases hmax : checkpoints.argmax IngestCheckpoint.checkpointNumber with
  | none => rfl
  | some top =>
      have hbelow : top.checkpointNumber < last.checkpointNumber := by
        have hmem : top.checkpointNumber ∈ checkpoints.map IngestCheckpoint.checkpointNumber :=
          List.mem_map_of_mem (List.argmax_mem hmax)
        rw [hnumbers, List.mem_range] at hmem
        omega
      simp [hbelow]

end FakeForce
end Northwind
