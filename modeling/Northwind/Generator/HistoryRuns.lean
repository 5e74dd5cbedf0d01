import Northwind.Generator.HistoryCandidates
import Northwind.Generator.AuditBackfill

/-!
# Running the history backfill

`HistoryBackfill.run` fetches the next candidates behind its checkpoint that have no
history, infers their rows and appends those whose event id is new, one transaction for
each batch.  `dry_run` fetches and infers in the same way but writes nothing.

The SHA-256 of an event's text is a parameter.
-/

namespace Northwind
namespace Generator

open Simulator Keysets

/-! ## State -/

/-- The history of a target and its ledger row. -/
structure HistoryState (target : HistoryTarget) where
  history : List (StatusHistoryRow target.Status)
  progress : Option Progress

def HistoryState.ledger {target : HistoryTarget} (state : HistoryState target) : Progress :=
  state.progress.getD Progress.inserted

structure HistoryDatabase where
  tables : OpsTables
  states : ∀ target, HistoryState target

/-- A database with another state of a target. -/
def HistoryDatabase.withState (db : HistoryDatabase) (target : HistoryTarget)
    (state : HistoryState target) : HistoryDatabase :=
  { db with states := Function.update db.states target state }

@[simp] theorem HistoryDatabase.withState_same (db : HistoryDatabase) (target : HistoryTarget)
    (state : HistoryState target) : (db.withState target state).states target = state :=
  Function.update_self target state db.states

theorem HistoryDatabase.withState_other (db : HistoryDatabase) {target other : HistoryTarget}
    (state : HistoryState other) (hne : target ≠ other) :
    (db.withState other state).states target = db.states target :=
  Function.update_of_ne hne state db.states

/-- `_result`, without the name of the target; `written` is reported as `would_write` by
a dry run and as `inserted` by a run. -/
structure BatchResult where
  scanned : Nat
  eligible : Nat
  inferred : Nat
  skippedInvalid : Nat
  written : Nat
  dryRun : Bool
  completed : Bool
deriving DecidableEq

/-- What `dry_run` reports of a batch. -/
def BatchResult.predicted (result : BatchResult) : BatchResult :=
  { result with dryRun := true }

structure InferenceBatch (status : Type) where
  inserts : List (StatusHistoryRow status)
  invalidSources : Nat

/-- The arguments that the constructor, `run` and `dry_run` accept. -/
structure HistoryArguments where
  batchSize : Nat
  maxBatches : Nat
  size_pos : 1 ≤ batchSize
  size_le : batchSize ≤ 100000
  batches_pos : 1 ≤ maxBatches

namespace HistoryBackfill

section Batch

variable {target : HistoryTarget} (hexdigest : String → String) (batchSize : Nat)
variable (sources : List target.Candidate)

/-- `NOT EXISTS` a row of the history for the entity. -/
def withoutHistory (history : List (StatusHistoryRow target.Status)) : List target.Candidate :=
  sources.filter (fun row => ∀ recorded ∈ history, recorded.recordId ≠ target.entityId row)

/-- `_fetch_candidates`; nothing where the checkpoint is no number. -/
def fetchCandidates (history : List (StatusHistoryRow target.Status)) :
    Option String → Option (List target.Candidate)
  | none => some (page target.entityId batchSize none (withoutHistory sources history))
  | some lastKey => lastKey.toNat?.map (fun k =>
      page target.entityId batchSize (some k) (withoutHistory sources history))

/-- `_build_batch`; nothing where an inference raises. -/
def buildBatch : List target.Candidate → Option (InferenceBatch target.Status)
  | [] => some ⟨[], 0⟩
  | row :: rows =>
      match target.infer hexdigest row with
      | none => none
      | some (events, invalid) => (buildBatch rows).map (fun batch =>
          ⟨events ++ batch.inserts, invalid.toNat + batch.invalidSources⟩)

/-- `_result` -/
def result (rows : List target.Candidate) (batch : InferenceBatch target.Status)
    (dryRun completed : Bool) : BatchResult where
  scanned := rows.length
  eligible := rows.length
  inferred := batch.inserts.length
  skippedInvalid := batch.invalidSources
  written := batch.inserts.length
  dryRun := dryRun
  completed := completed

/-- `str(rows[-1][0])` -/
def lastKeyOf (rows : List target.Candidate) : Option String :=
  rows.getLast?.map (fun row => toString (target.entityId row))

/-- The loop of `dry_run` with its remaining batches. -/
def dryRunFrom (history : List (StatusHistoryRow target.Status)) :
    Nat → Option String → Option (List BatchResult)
  | 0, _ => some []
  | batches + 1, lastKey =>
      (fetchCandidates batchSize sources history lastKey).bind (fun rows =>
        if rows.isEmpty then some [result rows ⟨[], 0⟩ true true]
        else (buildBatch hexdigest rows).bind (fun batch =>
          (dryRunFrom history batches (lastKeyOf rows)).map (fun results =>
            result rows batch true false :: results)))

/-- `ON CONFLICT (source_event_id) DO NOTHING` -/
def insertRow {status : Type} (history : List (StatusHistoryRow status))
    (row : StatusHistoryRow status) : List (StatusHistoryRow status) :=
  if ∃ recorded ∈ history, recorded.sourceEventId = row.sourceEventId then history
  else history ++ [row]

/-- `executemany` -/
def insertRows {status : Type} (history rows : List (StatusHistoryRow status)) :
    List (StatusHistoryRow status) :=
  rows.foldl insertRow history

/-- The history and the ledger behind a batch. -/
def advanced (state : HistoryState target) (rows : List target.Candidate)
    (batch : InferenceBatch target.Status) : HistoryState target where
  history := insertRows state.history batch.inserts
  progress := some { state.ledger with
    lastKey := lastKeyOf rows
    rowsScanned := state.ledger.rowsScanned + rows.length
    rowsUpdated := state.ledger.rowsUpdated + batch.inserts.length }

/-- The transaction of one batch of `run` and what it reports; nothing where it raises. -/
def runBatch (state : HistoryState target) : Option (HistoryState target × BatchResult) :=
  let progress := state.ledger
  if progress.completed then
    some (⟨state.history, some progress⟩, result ([] : List target.Candidate) ⟨[], 0⟩ false true)
  else
    (fetchCandidates batchSize sources state.history progress.lastKey).bind (fun rows =>
      if rows.isEmpty then
        some (⟨state.history, some { progress with completed := true }⟩,
          result rows ⟨[], 0⟩ false true)
      else (buildBatch hexdigest rows).map (fun batch =>
        (advanced state rows batch, result rows batch false false)))

end Batch

/-! ## Runs -/

/-- `dry_run` -/
def dryRun (hexdigest : String → String) (target : HistoryTarget) (args : HistoryArguments)
    (db : HistoryDatabase) : Option (List BatchResult) :=
  dryRunFrom hexdigest args.batchSize (db.tables.sources target) (db.states target).history
    args.maxBatches none

/-- A committed batch. -/
structure CommittedBatch where
  target : HistoryTarget
  batchSize : Nat
  result : BatchResult

structure RunOutcome where
  ending : AuditBackfill.Ending
  committed : List CommittedBatch
  database : HistoryDatabase

section Runs

variable (hexdigest : String → String)

/-- `run` with its remaining batches, up to its end or up to a crash behind a number of
commits. -/
def runFor (target : HistoryTarget) (batchSize : Nat) : Nat → Nat → HistoryDatabase → RunOutcome
  | _, 0, db => ⟨.returned, [], db⟩
  | 0, _ + 1, db => ⟨.crashed, [], db⟩
  | k + 1, batches + 1, db =>
      match runBatch hexdigest batchSize (db.tables.sources target) (db.states target) with
      | none => ⟨.raised, [], db⟩
      | some (state, result) =>
          let after := db.withState target state
          if result.completed then ⟨.returned, [⟨target, batchSize, result⟩], after⟩
          else
            let outcome := runFor target batchSize k batches after
            { outcome with committed := ⟨target, batchSize, result⟩ :: outcome.committed }

/-- Runs of any targets one after the other, ended or crashed anywhere, with the batches
they committed. -/
inductive Runs (start : HistoryDatabase) : HistoryDatabase → List CommittedBatch → Prop where
  | none : Runs start start []
  | run {db : HistoryDatabase} {log : List CommittedBatch} (h : Runs start db log)
      (target : HistoryTarget) (args : HistoryArguments) (k : Nat) :
      Runs start (runFor hexdigest target args.batchSize k args.maxBatches db).database
        (log ++ (runFor hexdigest target args.batchSize k args.maxBatches db).committed)

/-- Committed batches one after the other. -/
inductive Committed (start : HistoryDatabase) : HistoryDatabase → List CommittedBatch → Prop where
  | none : Committed start start []
  | batch {db : HistoryDatabase} {log : List CommittedBatch} {target : HistoryTarget}
      {state : HistoryState target} {result : BatchResult} (h : Committed start db log)
      {batchSize : Nat} (hsize : 1 ≤ batchSize)
      (hbatch : runBatch hexdigest batchSize (db.tables.sources target) (db.states target) =
        some (state, result)) :
      Committed start (db.withState target state) (log ++ [⟨target, batchSize, result⟩])

end Runs

def batchesOf (target : HistoryTarget) (log : List CommittedBatch) : List CommittedBatch :=
  log.filter (fun batch => batch.target = target)

/-- The batches up to the first one that reports the completion. -/
def upToCompleted : List CommittedBatch → List CommittedBatch
  | [] => []
  | batch :: log => if batch.result.completed then [batch] else batch :: upToCompleted log

end HistoryBackfill
end Generator
end Northwind
