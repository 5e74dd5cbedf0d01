import Mathlib.Data.List.Basic

/-!
# Bulk jobs: states and checkpoints

The state machine of a bulk job and the rows of `job_checkpoints` that belong
to one job.
-/

namespace Northwind
namespace FakeForce

inductive BulkJobState where
  | jobOpen
  | uploadComplete
  | inProgress
  | jobComplete
  | failed
  | aborted
deriving DecidableEq

structure InvalidJobTransition where
  current : BulkJobState
  next : BulkJobState
deriving DecidableEq

/-- `_ALLOWED_TRANSITIONS` -/
def allowedTransitions : BulkJobState → List BulkJobState
  | .jobOpen => [.uploadComplete, .aborted]
  | .uploadComplete => [.inProgress, .aborted]
  | .inProgress => [.jobComplete, .failed, .aborted]
  | .jobComplete => []
  | .failed => []
  | .aborted => []

/-- `validate_transition` -/
def validateTransition (current next : BulkJobState) : Except InvalidJobTransition Unit :=
  if next ∈ allowedTransitions current then .ok () else .error ⟨current, next⟩

/-- `max(numbers, default=-1) + 1` -/
def nextNumber (numbers : List Nat) : Nat :=
  numbers.foldr (fun n next => max (n + 1) next) 0

theorem nextNumber_range (k : Nat) :
    nextNumber (List.range k) = k := by
  have hbound : ∀ (numbers : List Nat) (bound : Nat),
      numbers.foldr (fun n next => max (n + 1) next) bound = max (nextNumber numbers) bound := by
    intro numbers bound
    unfold nextNumber
    induction numbers with
    | nil => simp
    | cons n numbers ih =>
        rw [List.foldr_cons, List.foldr_cons, ih]
        omega
  induction k with
  | zero => rfl
  | succ k ih =>
      have hsplit : nextNumber (List.range (k + 1)) = max (nextNumber (List.range k)) (k + 1) := by
        rw [List.range_succ, nextNumber, List.foldr_append]
        exact hbound _ _
      rw [hsplit, ih]
      omega

/-- A row of `job_checkpoints`. -/
structure Checkpoint where
  checkpointNumber : Nat
  recordsProcessed : Nat
  recordsFailed : Nat
  bytesWritten : Nat
  csvRowNumber : Option Nat
  artifactPath : String
deriving DecidableEq

/-- `StateStore.add_job_checkpoint` -/
def addJobCheckpoint (checkpoints : List Checkpoint)
    (recordsProcessed bytesWritten : Nat) (artifactPath : String)
    (recordsFailed : Nat) (csvRowNumber : Option Nat) : List Checkpoint :=
  checkpoints ++
    [{ checkpointNumber := nextNumber (checkpoints.map Checkpoint.checkpointNumber)
       recordsProcessed := recordsProcessed
       recordsFailed := recordsFailed
       bytesWritten := bytesWritten
       csvRowNumber := csvRowNumber
       artifactPath := artifactPath }]

/-- `StateStore.latest_job_checkpoint_records` -/
def latestJobCheckpointRecords (checkpoints : List Checkpoint) : Nat :=
  (checkpoints.map Checkpoint.recordsProcessed).foldl max 0

theorem latestJobCheckpointRecords_add
    (checkpoints : List Checkpoint) (recordsProcessed bytesWritten : Nat)
    (artifactPath : String) (recordsFailed : Nat) (csvRowNumber : Option Nat) :
    latestJobCheckpointRecords (addJobCheckpoint checkpoints recordsProcessed bytesWritten
        artifactPath recordsFailed csvRowNumber) =
      max (latestJobCheckpointRecords checkpoints) recordsProcessed := by
  simp [latestJobCheckpointRecords, addJobCheckpoint]

end FakeForce
end Northwind
