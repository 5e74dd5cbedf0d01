import Northwind.Generator.AuditTargets
import Northwind.Library.Keysets
import Mathlib.Data.List.Forall2

/-!
# The audit backfill

`AuditBackfill.run` works off its target tables in batches of keys.  A batch reads the
checkpoint of its table, selects the next keys behind it, updates their rows and moves
the checkpoint, all in one transaction; a crash therefore loses whole batches only.

`backfill_covers_once`: after any crashed and restarted runs a run until completion
returns, and then each row has been in one committed batch, has the audit fields that
its target derives, and has kept those that it had.

The types of the keys, their texts and the casts of the texts are parameters.
-/

namespace Northwind
namespace Generator

open Keysets

/-! ## State -/

/-- A row of a target table. -/
structure AuditRow (κ : Type) (table : AuditTable) where
  key : κ
  source : SourceRow table
  fields : AuditFields

/-- A row of `simulation.audit_backfill_progress`. -/
structure Progress where
  lastKey : Option String
  rowsScanned : Nat
  rowsUpdated : Nat
  completed : Bool

/-- The defaults of the ledger. -/
def Progress.inserted : Progress where
  lastKey := none
  rowsScanned := 0
  rowsUpdated := 0
  completed := false

/-- A target table with its ledger row. -/
structure TargetState (κ : Type) (table : AuditTable) where
  rows : List (AuditRow κ table)
  progress : Option Progress

/-- The ledger row that a batch reads; it is inserted if there is none. -/
def TargetState.ledger {κ : Type} {table : AuditTable} (state : TargetState κ table) : Progress :=
  state.progress.getD Progress.inserted

/-- What a committed batch reports, with its keys. -/
structure Batch (κ : Type) where
  keys : List κ
  updated : Nat
  completed : Bool

/-! ## One batch -/

namespace AuditBackfill

section Batch

variable {κ : Type} {table : AuditTable}

/-- A row that `update_sql` updates for some keys. -/
def selects [DecidableEq κ] (keys : List κ) (row : AuditRow κ table) : Bool :=
  row.key ∈ keys && needsBackfill row.source row.fields

/-- `update_sql` -/
def updateSql [DecidableEq κ] (keys : List κ) (rows : List (AuditRow κ table)) :
    List (AuditRow κ table) :=
  rows.map (fun row =>
    if selects keys row then { row with fields := targetSet row.source row.fields } else row)

variable [LinearOrder κ] (text : κ → String) (cast : String → Option κ) (batchSize : Nat)

/-- `_keys`; nothing where the checkpoint is no text of a key. -/
def keysBehind (rows : List (AuditRow κ table)) : Option String → Option (List κ)
  | none => some (page (fun k => k) batchSize none (rows.map AuditRow.key))
  | some lastKey =>
      (cast lastKey).map (fun k => page (fun k => k) batchSize (some k) (rows.map AuditRow.key))

/-- The table and its ledger behind a batch of keys. -/
def advanced (state : TargetState κ table) (keys : List κ) : TargetState κ table where
  rows := updateSql keys state.rows
  progress := some { state.ledger with
    lastKey := keys.getLast?.map text
    rowsScanned := state.ledger.rowsScanned + keys.length
    rowsUpdated := state.ledger.rowsUpdated + state.rows.countP (selects keys) }

/-- The transaction of `_run_batch` with the batch it reports; nothing where it raises. -/
def runBatch (state : TargetState κ table) : Option (TargetState κ table × Batch κ) :=
  let progress := state.ledger
  if progress.completed then some (⟨state.rows, some progress⟩, ⟨[], 0, true⟩)
  else
    (keysBehind cast batchSize state.rows progress.lastKey).map (fun keys =>
      if keys = [] then (⟨state.rows, some { progress with completed := true }⟩, ⟨[], 0, true⟩)
      else (advanced text state keys, ⟨keys, state.rows.countP (selects keys), false⟩))

end Batch

/-! ## Runs -/

/-- The arguments that the constructor and `run` accept. -/
structure Arguments where
  batchSize : Nat
  maxBatches : Nat
  untilComplete : Bool
  size_pos : 1 ≤ batchSize
  size_le : batchSize ≤ 100000
  batches_pos : 1 ≤ maxBatches

inductive SourceSystem where
  | ops
  | erp

/-- `TARGETS` and `ERP_TARGETS` -/
def targets : SourceSystem → List AuditTable
  | .ops =>
      [.products, .warehouses, .carriers, .orderLines, .shipments, .invoices, .supportCases]
  | .erp => [.companies, .costCenters, .glAccounts, .fxRates, .revenuePostings]

inductive Ending where
  | returned
  | raised
  | crashed
deriving DecidableEq

/-- A committed batch with its table. -/
structure Commit (κ : AuditTable → Type) where
  table : AuditTable
  batch : Batch (κ table)

/-- The tables of both systems, with their ledgers. -/
abbrev Database (κ : AuditTable → Type) : Type :=
  ∀ table, TargetState (κ table) table

structure Outcome (κ : AuditTable → Type) where
  ending : Ending
  commits : List (Commit κ)
  database : Database κ

section Runs

variable {κ : AuditTable → Type} [∀ table, LinearOrder (κ table)]
variable (text : ∀ table, κ table → String) (cast : ∀ table, String → Option (κ table))

/-- `run` up to its end or up to a crash behind a number of commits, with the remaining
targets and the batches of the first of them.  As `max_batches` is positive, the loop of
a target is entered and its condition is met again behind each batch. -/
def runFor (args : Arguments) : Nat → List AuditTable → Nat → Database κ → Outcome κ
  | _, [], _, db => ⟨.returned, [], db⟩
  | 0, _ :: _, _, db => ⟨.crashed, [], db⟩
  | k + 1, table :: rest, batches, db =>
      match runBatch (text table) (cast table) args.batchSize (db table) with
      | none => ⟨.raised, [], db⟩
      | some (state, batch) =>
          let after := Function.update db table state
          let outcome :=
            if !batch.completed && (batches + 1 < args.maxBatches || args.untilComplete) then
              runFor args k (table :: rest) (batches + 1) after
            else runFor args k rest 0 after
          { outcome with commits := ⟨table, batch⟩ :: outcome.commits }

/-- Runs of either system one after the other, ended or crashed anywhere, with the
batches they committed. -/
inductive Runs (start : Database κ) : Database κ → List (Commit κ) → Prop where
  | none : Runs start start []
  | run {db : Database κ} {log : List (Commit κ)} (h : Runs start db log) (args : Arguments)
      (system : SourceSystem) (k : Nat) :
      Runs start (runFor text cast args k (targets system) 0 db).database
        (log ++ (runFor text cast args k (targets system) 0 db).commits)

/-- Committed batches one after the other. -/
inductive Committed (start : Database κ) : Database κ → List (Commit κ) → Prop where
  | none : Committed start start []
  | batch {db : Database κ} {log : List (Commit κ)} {table : AuditTable}
      {state : TargetState (κ table) table} {batch : Batch (κ table)} (h : Committed start db log)
      (args : Arguments)
      (hbatch : runBatch (text table) (cast table) args.batchSize (db table) = some (state, batch)) :
      Committed start (Function.update db table state) (log ++ [⟨table, batch⟩])

end Runs

/-- The batches of one table. -/
def batchesOf {κ : AuditTable → Type} (table : AuditTable) (log : List (Commit κ)) :
    List (Batch (κ table)) :=
  log.filterMap (fun commit =>
    if h : commit.table = table then some (h ▸ commit.batch) else none)

/-! ## Rows -/

section Rows

variable {κ : Type} {table : AuditTable}

def backfilled (row : AuditRow κ table) : AuditRow κ table :=
  { row with fields := targetSet row.source row.fields }

/-- A row whose fields with values are kept. -/
structure Kept (row row' : AuditRow κ table) : Prop where
  key : row'.key = row.key
  source : row'.source = row.source
  kept : ∀ column value, row.fields.get column = some value →
    row'.fields.get column = some value

/-- A row behind the backfill: it also has the fields that the target derives from
values. -/
structure Filled (row row' : AuditRow κ table) : Prop extends Kept row row' where
  filled : ∀ column value, row.fields.get column = none →
    targetExpression row.source row.fields column = some (some value) →
      row'.fields.get column = some value

theorem kept_refl (row : AuditRow κ table) : Kept row row :=
  ⟨rfl, rfl, fun _ _ hvalue => hvalue⟩

theorem filled_backfilled (row : AuditRow κ table) : Filled row (backfilled row) where
  key := rfl
  source := rfl
  kept := fun column value hvalue => by
    rw [backfilled, get_targetSet, coalesced_of_some hvalue]
  filled := fun column value hnull hexpression => by
    rw [backfilled, get_targetSet, coalesced_of_null hexpression hnull]

end Rows

/-! ## What one batch does -/

section Steps

variable {κ : Type} {table : AuditTable} [LinearOrder κ]
variable {text : κ → String} {cast : String → Option κ} {batchSize : Nat}

/-- All that `_run_batch` can do. -/
theorem runBatch_cases {state state' : TargetState κ table} {batch : Batch κ}
    (h : runBatch text cast batchSize state = some (state', batch)) :
    (state.ledger.completed = true ∧ state' = ⟨state.rows, some state.ledger⟩ ∧
      batch = ⟨[], 0, true⟩) ∨
    (state.ledger.completed = false ∧ ∃ keys,
      keysBehind cast batchSize state.rows state.ledger.lastKey = some keys ∧
        ((keys = [] ∧ state' = ⟨state.rows, some { state.ledger with completed := true }⟩ ∧
            batch = ⟨[], 0, true⟩) ∨
          (keys ≠ [] ∧ state' = advanced text state keys ∧
            batch = ⟨keys, state.rows.countP (selects keys), false⟩))) := by
  rw [runBatch] at h
  split at h
  · rename_i hcompleted
    cases h
    exact Or.inl ⟨hcompleted, rfl, rfl⟩
  · rename_i hcompleted
    obtain ⟨keys, hkeys, h⟩ := Option.map_eq_some_iff.mp h
    refine Or.inr ⟨eq_false_of_ne_true hcompleted, keys, hkeys, ?_⟩
    split at h
    · rename_i hnil
      cases h
      exact Or.inl ⟨hnil, rfl, rfl⟩
    · rename_i hne
      cases h
      exact Or.inr ⟨hne, rfl, rfl⟩

/-- A batch that reports the completion leaves it in the ledger. -/
theorem completed_of_runBatch {state state' : TargetState κ table} {batch : Batch κ}
    (h : runBatch text cast batchSize state = some (state', batch)) (hbatch : batch.completed) :
    state'.ledger.completed = true := by
  obtain ⟨hcompleted, rfl, rfl⟩ | ⟨_, keys, _, ⟨_, rfl, rfl⟩ | ⟨_, _, rfl⟩⟩ := runBatch_cases h
  · exact hcompleted
  · rfl
  · cases hbatch

/-- A completed target stays completed. -/
theorem completed_runBatch {state state' : TargetState κ table} {batch : Batch κ}
    (h : runBatch text cast batchSize state = some (state', batch))
    (hcompleted : state.ledger.completed = true) : state'.ledger.completed = true := by
  obtain ⟨_, rfl, _⟩ | ⟨hfalse, _⟩ := runBatch_cases h
  · exact hcompleted
  · rw [hcompleted] at hfalse
    cases hfalse

end Steps

end AuditBackfill
end Generator
end Northwind
