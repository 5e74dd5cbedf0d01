import Northwind.FakeForce.BulkIngest

/-!
# Runs of the bulk ingest worker

`outcomes` is what the first batches of an upload amount to, each batch decided
against the initial table and the rows inserted before it.  After any run of
executions, crashes and requests the store is the store after some number of
batches (`IngestInvariant`), so every CSV row up to the last checkpoint has
been applied exactly once.  No batch violates a constraint, so an execution
that nothing interrupts completes its job.
-/

namespace Northwind
namespace FakeForce

open Batches

namespace BulkIngestWorker

variable (W : BulkIngestWorker)

/-- One batch, decided against the initial table and what the batches before
it inserted. -/
def ingestBatch (spec : IngestSpec) (initial : List TableRow)
    (done : List RowOutcome) (batch : List CsvRow) : List RowOutcome :=
  W.applyBatch spec (initial ++ done.filterMap RowOutcome.values) batch

/-- The outcomes of the first `b` batches of an upload. -/
def outcomes (input : Option CsvUpload) (initial : List TableRow) (b : Nat) :
    List RowOutcome :=
  match W.openUpload input with
  | .error _ => []
  | .ok (spec, rows) => folded (W.ingestBatch spec initial) W.batchRecords rows b

/-- The id column of the worker's object. -/
def storedId (row : TableRow) : Option Value :=
  (W.catalog W.objectName).bind fun spec => spec.storedId row

variable {W} {input : Option CsvUpload} {initial : List TableRow}

theorem catalog_of_openUpload {spec : IngestSpec} {rows : List CsvRow}
    (h : W.openUpload input = .ok (spec, rows)) : W.catalog W.objectName = some spec := by
  unfold openUpload at h
  split at h
  · cases h
  · rename_i spec' hspec
    split at h
    · cases h
    · split at h
      · cases h
      · cases hread : readRows _ (spec'.schema.map Field.name) with
        | error e =>
            rw [hread] at h
            cases h
        | ok read =>
            rw [hread] at h
            obtain ⟨rfl, -⟩ := Prod.mk.inj (Except.ok.inj h)
            exact hspec

theorem input_of_openUpload {spec : IngestSpec} {rows : List CsvRow}
    (h : W.openUpload input = .ok (spec, rows)) : ∃ upload, input = some upload := by
  cases input with
  | none =>
      unfold openUpload at h
      split at h
      · cases h
      · split at h <;> cases h
  | some upload => exact ⟨upload, rfl⟩

theorem number_of_openUpload {spec : IngestSpec} {rows : List CsvRow}
    (h : W.openUpload input = .ok (spec, rows)) :
    rows.map CsvRow.number = List.range' 1 rows.length := by
  unfold openUpload at h
  split at h
  · cases h
  · rename_i spec' hspec
    split at h
    · cases h
    · split at h
      · cases h
      · cases hread : readRows _ (spec'.schema.map Field.name) with
        | error e =>
            rw [hread] at h
            cases h
        | ok read =>
            rw [hread] at h
            obtain ⟨-, rfl⟩ := Prod.mk.inj (Except.ok.inj h)
            exact readRows_number hread

theorem storedId_eq {spec : IngestSpec} (h : W.catalog W.objectName = some spec) :
    W.storedId = spec.storedId := by
  funext row
  simp [storedId, h]

theorem applyBatch_eq (spec : IngestSpec) (table : List TableRow) (batch : List CsvRow) :
    W.applyBatch spec table batch =
      (batch.map (prepareRow W.readers W.jobId spec)).map fun outcome =>
        if ∃ recordId ∈ outcome.key, Rejected spec table
            (batch.map (prepareRow W.readers W.jobId spec)) recordId then
          asDuplicate outcome
        else outcome := by
  refine batchOutcomes_eq spec table fun outcome hmem => ?_
  obtain ⟨row, -, rfl⟩ := List.mem_map.mp hmem
  exact prepareRow_recordId

theorem applyBatch_csvRowNumber (spec : IngestSpec) (table : List TableRow)
    (batch : List CsvRow) :
    (W.applyBatch spec table batch).map RowOutcome.csvRowNumber = batch.map CsvRow.number := by
  rw [applyBatch_eq, List.map_map, List.map_map]
  refine List.map_congr_left fun row _ => ?_
  simp only [Function.comp_apply]
  split <;> simp

theorem applyBatch_length (spec : IngestSpec) (table : List TableRow) (batch : List CsvRow) :
    (W.applyBatch spec table batch).length = batch.length := by
  simpa using congrArg List.length (applyBatch_csvRowNumber spec table batch)

theorem applyBatch_consistent {spec : IngestSpec} {table : List TableRow}
    {batch : List CsvRow} {outcome : RowOutcome}
    (h : outcome ∈ W.applyBatch spec table batch) : spec.Consistent outcome := by
  rw [applyBatch_eq] at h
  obtain ⟨prepared, hprepared, rfl⟩ := List.mem_map.mp h
  obtain ⟨row, -, rfl⟩ := List.mem_map.mp hprepared
  split
  · exact asDuplicate_consistent spec _
  · exact prepareRow_consistent

section Opened

variable {spec : IngestSpec} {rows : List CsvRow}

theorem outcomes_of_open (h : W.openUpload input = .ok (spec, rows)) (b : Nat) :
    W.outcomes input initial b = folded (W.ingestBatch spec initial) W.batchRecords rows b := by
  simp [outcomes, h]

theorem outcomes_succ (h : W.openUpload input = .ok (spec, rows)) (b : Nat) :
    W.outcomes input initial (b + 1) = W.outcomes input initial b ++
      W.applyBatch spec
        (initial ++ (W.outcomes input initial b).filterMap RowOutcome.values)
        (batch W.batchRecords rows b) := by
  rw [outcomes_of_open h, outcomes_of_open h, folded_succ]
  rfl

variable (initial) in
theorem length_outcomes (h : W.openUpload input = .ok (spec, rows)) (b : Nat) :
    (W.outcomes input initial b).length = min (W.batchRecords * b) rows.length := by
  rw [outcomes_of_open h]
  exact length_folded _ _ _ (fun done batch => applyBatch_length _ _ _) b

end Opened

@[simp] theorem outcomes_zero : W.outcomes input initial 0 = [] := by
  unfold outcomes
  split <;> rfl

/-- The outcomes carry the row numbers in order, from 1 on. -/
theorem outcomes_csvRowNumber (b : Nat) :
    (W.outcomes input initial b).map RowOutcome.csvRowNumber =
      List.range' 1 (W.outcomes input initial b).length := by
  cases hopen : W.openUpload input with
  | error e => simp [outcomes, hopen]
  | ok opened =>
      obtain ⟨spec, rows⟩ := opened
      have hmap := map_folded (W.ingestBatch spec initial) W.batchRecords rows
        (g := RowOutcome.csvRowNumber) (f := CsvRow.number)
        (fun done batch => applyBatch_csvRowNumber _ _ _) b
      rw [length_outcomes initial hopen, outcomes_of_open hopen, hmap, List.map_take,
        number_of_openUpload hopen]
      rcases Nat.le_total (W.batchRecords * b) rows.length with h | h
      · rw [List.take_range'_of_length_ge h, Nat.min_eq_left h]
      · rw [List.take_range'_of_length_le h, Nat.min_eq_right h]

theorem outcomes_consistent {spec : IngestSpec} (hspec : W.catalog W.objectName = some spec)
    (b : Nat) : ∀ outcome ∈ W.outcomes input initial b, spec.Consistent outcome := by
  induction b with
  | zero => simp
  | succ b ih =>
      cases hopen : W.openUpload input with
      | error e => simp [outcomes, hopen]
      | ok opened =>
          obtain ⟨spec', rows⟩ := opened
          obtain rfl : spec = spec' :=
            Option.some.inj (hspec.symm.trans (catalog_of_openUpload hopen))
          rw [outcomes_succ hopen]
          intro outcome hmem
          rcases List.mem_append.mp hmem with hmem | hmem
          · exact ih outcome hmem
          · exact applyBatch_consistent hmem

variable (W input initial)

/-- The store after `b` batches. -/
structure StoreAfter (b : Nat) (store : IngestStore) : Prop where
  table : store.table = initial ++ (W.outcomes input initial b).filterMap RowOutcome.values
  results : store.results = (W.outcomes input initial b).map RowOutcome.result
  numbers : store.checkpoints.map IngestCheckpoint.checkpointNumber =
    List.range store.checkpoints.length
  progress : ingestProgress store.checkpoints = progressOf (W.outcomes input initial b)
  unique : (store.table.filterMap W.storedId).Nodup

/-- What an execution holds in memory after `b` batches. -/
def PhaseAfter (b : Nat) : IngestPhase → Prop
  | .idle | .started | .raised _ => True
  | .streaming spec rest processed failed => ∃ rows,
      W.openUpload input = .ok (spec, rows) ∧ rest = rows.drop (W.batchRecords * b) ∧
        (progressOf (W.outcomes input initial b)).recordsProcessed = processed ∧
        (progressOf (W.outcomes input initial b)).recordsFailed = failed
  | .decided spec outcomes _ rest processed failed => ∃ rows,
      W.openUpload input = .ok (spec, rows) ∧ W.batchRecords * b < rows.length ∧
        outcomes = W.applyBatch spec
          (initial ++ (W.outcomes input initial b).filterMap RowOutcome.values)
          (batch W.batchRecords rows b) ∧
        rest = rows.drop (W.batchRecords * (b + 1)) ∧
        (progressOf (W.outcomes input initial b)).recordsProcessed = processed ∧
        (progressOf (W.outcomes input initial b)).recordsFailed = failed

/-- A completed job has worked off its whole upload. -/
def CompletedAfter (b : Nat) (s : IngestState) : Prop :=
  s.store.state = .jobComplete →
    s.phase = .idle ∧ ∃ spec rows, W.openUpload input = .ok (spec, rows) ∧
      rows.length ≤ W.batchRecords * b

/-- An execution holds the job in progress, unless it has been aborted. -/
def JobHeld (s : IngestState) : Prop :=
  s.phase ≠ .idle → s.store.state = .inProgress ∨ s.store.state = .aborted

structure IngestInvariant (b : Nat) (s : IngestState) : Prop where
  store : W.StoreAfter input initial b s.store
  phase : W.PhaseAfter input initial b s.phase
  completed : W.CompletedAfter input b s
  held : JobHeld s

variable {W input initial}

/-- The rows behind the last checkpoint are the ones of the batches to come. -/
theorem StoreAfter.resumeRows_eq {b : Nat} {store : IngestStore} {spec : IngestSpec}
    {rows : List CsvRow} (h : W.StoreAfter input initial b store)
    (hopen : W.openUpload input = .ok (spec, rows)) :
    resumeRows store rows = rows.drop (W.batchRecords * b) := by
  rw [resumeRows, h.progress, progressOf, length_outcomes initial hopen]
  exact filter_number_eq_drop (number_of_openUpload hopen) _

/-- **A committed batch** takes the store one batch further. -/
theorem StoreAfter.commit {b : Nat} {store store' : IngestStore} {spec : IngestSpec}
    {rows : List CsvRow} {processed failed inputBytes : Nat}
    (h : W.StoreAfter input initial b store)
    (hopen : W.openUpload input = .ok (spec, rows))
    (hsize : 1 ≤ W.batchRecords) (hmore : W.batchRecords * b < rows.length)
    (hprocessed : (progressOf (W.outcomes input initial b)).recordsProcessed = processed)
    (hfailed : (progressOf (W.outcomes input initial b)).recordsFailed = failed)
    {outcomes : List RowOutcome}
    (houtcomes : outcomes = W.applyBatch spec
      (initial ++ (W.outcomes input initial b).filterMap RowOutcome.values)
      (batch W.batchRecords rows b))
    (hcommit : commitBatch spec outcomes processed failed inputBytes store = .ok store') :
    W.StoreAfter input initial (b + 1) store' ∧
      (progressOf (W.outcomes input initial (b + 1))).recordsProcessed =
        processed + succeeded outcomes ∧
      (progressOf (W.outcomes input initial (b + 1))).recordsFailed =
        failed + outcomes.length - succeeded outcomes := by
  have hnext : W.outcomes input initial (b + 1) = W.outcomes input initial b ++ outcomes := by
    rw [outcomes_succ hopen, houtcomes]
  have hnonempty : outcomes ≠ [] := by
    have hlength : outcomes.length = min W.batchRecords (rows.length - W.batchRecords * b) := by
      rw [houtcomes, applyBatch_length, length_batch]
    intro hnil
    rw [hnil, List.length_nil] at hlength
    omega
  have hlast : (outcomes.getLast?.map RowOutcome.csvRowNumber).getD 0 =
      (W.outcomes input initial (b + 1)).length := by
    have hwhole : (W.outcomes input initial (b + 1)).getLast? = outcomes.getLast? := by
      rw [hnext, List.getLast?_append]
      simp [List.getLast?_eq_some_getLast hnonempty]
    have hpos : 0 < (W.outcomes input initial (b + 1)).length := by
      rw [hnext, List.length_append]
      have := List.length_pos_iff.mpr hnonempty
      omega
    rw [← hwhole, ← List.getLast?_map, outcomes_csvRowNumber, List.getLast?_range']
    rw [if_neg (by omega)]
    simp
  simp only [progressOf] at hprocessed hfailed
  have hle := succeeded_le_length (W.outcomes input initial b)
  have hle' := succeeded_le_length outcomes
  have hcounted : succeeded (W.outcomes input initial (b + 1)) =
      processed + succeeded outcomes := by
    rw [hnext, succeeded_append, hprocessed]
  have hrest : (W.outcomes input initial (b + 1)).length -
        succeeded (W.outcomes input initial (b + 1)) =
      failed + outcomes.length - succeeded outcomes := by
    rw [hcounted, hnext, List.length_append]
    omega
  have hunique := h.unique
  rw [storedId_eq (catalog_of_openUpload hopen)] at hunique
  have hnodup := nodup_commitBatch hcommit hunique
  obtain rfl := commitBatch_eq hcommit
  refine ⟨⟨?_, ?_, ?_, ?_, ?_⟩, hcounted, hrest⟩
  · simp only [h.table, hnext, List.filterMap_append, List.append_assoc]
  · simp only [h.results, hnext, List.map_append]
  · simp only [List.map_append, List.map_cons, List.map_nil, h.numbers, nextNumber_range,
      List.length_append, List.length_singleton, List.range_succ]
  · rw [ingestProgress_append h.numbers (by simp [h.numbers, nextNumber_range])]
    simp only [progressOf, hcounted, hlast, IngestProgress.mk.injEq, true_and, and_true]
    rw [← hrest, hcounted]
  · rw [storedId_eq (catalog_of_openUpload hopen)]
    exact hnodup

/-- A change of the job's own state leaves what the batches stored. -/
theorem StoreAfter.transition {b : Nat} {store store' : IngestStore} {next : BulkJobState}
    {errorCode errorMessage : Option String} (h : W.StoreAfter input initial b store)
    (hnext : store.transitionJob next errorCode errorMessage = .ok store') :
    W.StoreAfter input initial b store' := by
  obtain ⟨-, rfl⟩ := transitionJob_eq_ok_iff.mp hnext
  exact ⟨h.table, h.results, h.numbers, h.progress, h.unique⟩

/-- A job in progress or aborted is not completed. -/
theorem completedAfter_of_held {b : Nat} {s : IngestState}
    (h : s.store.state = .inProgress ∨ s.store.state = .aborted) :
    W.CompletedAfter input b s := by
  intro hcomplete
  rcases h with h | h <;> rw [h] at hcomplete <;> cases hcomplete

theorem IngestInvariant.worker {b : Nat} {s s' : IngestState} (hsize : 1 ≤ W.batchRecords)
    (h : W.IngestInvariant input initial b s) (hstep : W.WorkerStep input s s') :
    ∃ b', W.IngestInvariant input initial b' s' := by
  cases hstep with
  | start _ hnext =>
      have hstate := (transitionJob_eq_ok_iff.mp hnext).2
      exact ⟨b, h.store.transition hnext, trivial, by simp [CompletedAfter, hstate],
        fun _ => Or.inl (by simp [hstate])⟩
  | restart hstate =>
      exact ⟨b, h.store, trivial, by simp [CompletedAfter, hstate], fun _ => Or.inl hstate⟩
  | @openFile store spec rows hopen =>
      have hheld := h.held (by simp)
      refine ⟨b, h.store, ⟨rows, hopen, h.store.resumeRows_eq hopen, ?_, ?_⟩,
        completedAfter_of_held hheld, fun _ => hheld⟩
      · rw [h.store.progress]
      · rw [h.store.progress]
  | openFails _ =>
      have hheld := h.held (by simp)
      exact ⟨b, h.store, trivial, completedAfter_of_held hheld, fun _ => hheld⟩
  | @lookup store spec unread cut rest processed failed upload hunread hcut hinput =>
      obtain ⟨rows, hopen, rfl, hprocessed, hfailed⟩ := h.phase
      have hheld := h.held (by simp)
      obtain ⟨rfl, rfl⟩ := nextBatch_eq_ok (List.length_nil ▸ hsize) hcut
      have hmore : W.batchRecords * b < rows.length := by
        by_contra hdone
        exact hunread (List.drop_eq_nil_of_le (by omega))
      refine ⟨b, h.store, ⟨rows, hopen, hmore, ?_, ?_, hprocessed, hfailed⟩,
        completedAfter_of_held hheld, fun _ => hheld⟩
      · rw [h.store.table]
        simp [batch]
      · rw [Nat.mul_succ, ← List.drop_drop]
        simp
  | surplus _ =>
      have hheld := h.held (by simp)
      exact ⟨b, h.store, trivial, completedAfter_of_held hheld, fun _ => hheld⟩
  | @commit store store' spec outcomes inputBytes processed failed rest hcommit =>
      obtain ⟨rows, hopen, hmore, houtcomes, hrest, hprocessed, hfailed⟩ := h.phase
      obtain ⟨hstore, hprocessed', hfailed'⟩ :=
        h.store.commit hopen hsize hmore hprocessed hfailed houtcomes hcommit
      have hheld := h.held (by simp)
      have hstate : store'.state = store.state := by rw [commitBatch_eq hcommit]
      rw [← hstate] at hheld
      exact ⟨b + 1, hstore, ⟨rows, hopen, hrest, hprocessed', hfailed'⟩,
        completedAfter_of_held hheld, fun _ => hheld⟩
  | raise hactive _ =>
      have hheld := h.held hactive
      exact ⟨b, h.store, trivial, completedAfter_of_held hheld, fun _ => hheld⟩
  | @complete store store' spec processed failed hnext =>
      obtain ⟨rows, hopen, hrest, -, -⟩ := h.phase
      refine ⟨b, h.store.transition hnext, trivial, fun _ => ⟨rfl, spec, rows, hopen, ?_⟩,
        fun hactive => absurd rfl hactive⟩
      exact List.drop_eq_nil_iff.mp hrest.symm
  | completeRefused _ =>
      have hheld := h.held (by simp)
      exact ⟨b, h.store, trivial, completedAfter_of_held hheld, fun hactive => absurd rfl hactive⟩
  | fail hnext =>
      have hstate := (transitionJob_eq_ok_iff.mp hnext).2
      exact ⟨b, h.store.transition hnext, trivial, by simp [CompletedAfter, hstate],
        fun hactive => absurd rfl hactive⟩
  | failRefused _ =>
      have hheld := h.held (by simp)
      exact ⟨b, h.store, trivial, completedAfter_of_held hheld, fun hactive => absurd rfl hactive⟩

theorem IngestInvariant.step {b : Nat} {s s' : IngestState} {a : IngestAction}
    (hsize : 1 ≤ W.batchRecords) (h : W.IngestInvariant input initial b s)
    (hstep : W.IngestStep input s a s') : ∃ b', W.IngestInvariant input initial b' s' := by
  cases hstep with
  | worker hworker => exact h.worker hsize hworker
  | crash =>
      exact ⟨b, h.store, trivial, fun hcomplete => ⟨rfl, (h.completed hcomplete).2⟩,
        fun hactive => absurd rfl hactive⟩
  | @close store store' phase _ hnext =>
      obtain ⟨hallowed, hstate⟩ := transitionJob_eq_ok_iff.mp hnext
      have hopen : store.state = .jobOpen := by
        cases hcurrent : store.state <;> simp [hcurrent, allowedTransitions] at hallowed
        rfl
      have hidle : phase = .idle := by
        by_contra hactive
        have := h.held hactive
        simp [hopen] at this
      subst hidle
      exact ⟨b, h.store.transition hnext, trivial, by simp [CompletedAfter, hstate],
        fun hactive => absurd rfl hactive⟩
  | @abort store store' phase hnext =>
      have hstate := (transitionJob_eq_ok_iff.mp hnext).2
      exact ⟨b, h.store.transition hnext, h.phase, by simp [CompletedAfter, hstate],
        fun _ => Or.inr (by simp [hstate])⟩

variable (W) in
/-- A job just created over a table with unique ids. -/
structure Created (s : IngestState) : Prop where
  phase : s.phase = .idle
  state : s.store.state = .jobOpen
  results : s.store.results = []
  checkpoints : s.store.checkpoints = []
  unique : (s.store.table.filterMap W.storedId).Nodup

theorem Created.invariant {s : IngestState} (h : W.Created s) :
    W.IngestInvariant input s.store.table 0 s where
  store :=
    { table := by simp
      results := by simp [h.results]
      numbers := by simp [h.checkpoints]
      progress := by simp [h.checkpoints, ingestProgress, progressOf, succeeded]
      unique := h.unique }
  phase := by
    rw [h.phase]
    trivial
  completed := by simp [CompletedAfter, h.state]
  held := fun hactive => absurd h.phase hactive

/-- After any run the store is the store after some number of batches. -/
theorem invariant_of_run {start s : IngestState} (hsize : 1 ≤ W.batchRecords)
    (hcreated : W.Created start)
    (hrun : Relation.ReflTransGen (W.AnyIngestStep input) start s) :
    ∃ b, W.IngestInvariant input start.store.table b s := by
  induction hrun with
  | refl => exact ⟨0, hcreated.invariant⟩
  | tail _ hstep ih =>
      obtain ⟨b, h⟩ := ih
      obtain ⟨a, hstep⟩ := hstep
      exact h.step hsize hstep

variable (W) in
/-- Every CSV row up to the last checkpoint has its one result, the counters
count the results, and the table has grown by one row for each success. -/
structure AppliedExactlyOnce (initial : List TableRow) (store : IngestStore) : Prop where
  numbers : store.results.map RowResult.csvRowNumber =
    List.range' 1 (ingestProgress store.checkpoints).csvRowNumber
  processed : (ingestProgress store.checkpoints).recordsProcessed =
    store.results.countP fun result => result.status = .success
  failed : (ingestProgress store.checkpoints).recordsFailed =
    store.results.countP fun result => result.status = .failed
  inserted : ∃ rows, store.table = initial ++ rows ∧
    rows.map W.storedId =
      (store.results.filter fun result => result.status = .success).map
        fun result => result.recordId.map Value.text
  unique : (store.table.filterMap W.storedId).Nodup

/-- The rows that consistent outcomes insert, and the results they record. -/
theorem map_storedId_filterMap_values {spec : IngestSpec} {outcomes : List RowOutcome}
    (h : ∀ outcome ∈ outcomes, spec.Consistent outcome) :
    (outcomes.filterMap RowOutcome.values).map spec.storedId =
      ((outcomes.map RowOutcome.result).filter fun result => result.status = .success).map
        fun result => result.recordId.map Value.text := by
  induction outcomes with
  | nil => rfl
  | cons outcome outcomes ih =>
      have hrest := ih fun o ho => h o (List.mem_cons_of_mem _ ho)
      have hhead := h outcome List.mem_cons_self
      cases hvalues : outcome.values with
      | none =>
          have hfailed : ¬ outcome.result.status = .success := by
            change ¬ outcome.status = .success
            simp [hhead.success_iff, hvalues]
          simp [hvalues, hfailed, hrest]
      | some values =>
          have hsuccess : outcome.result.status = .success := by
            change outcome.status = .success
            simp [hhead.success_iff, hvalues]
          obtain ⟨recordId, hid, hstored⟩ := hhead.stored values hvalues
          have hresult : outcome.result.recordId = some recordId := hid
          simp [hvalues, hsuccess, hresult, hstored, hrest]

theorem countP_failed (outcomes : List RowOutcome) :
    (outcomes.map RowOutcome.result).countP (fun result => result.status = .failed) =
      outcomes.length - succeeded outcomes := by
  have hsplit := List.length_eq_countP_add_countP
    (fun outcome : RowOutcome => decide (outcome.status = .success)) (l := outcomes)
  have hfailed : (outcomes.map RowOutcome.result).countP
        (fun result => result.status = .failed) =
      outcomes.countP fun outcome => ¬ decide (outcome.status = .success) = true := by
    rw [List.countP_map]
    refine List.countP_congr fun outcome _ => ?_
    change decide (outcome.status = .failed) = true ↔ _
    cases outcome.status <;> simp
  simp only [succeeded]
  omega

theorem StoreAfter.appliedExactlyOnce {b : Nat} {store : IngestStore}
    (h : W.StoreAfter input initial b store) : W.AppliedExactlyOnce initial store where
  numbers := by
    rw [h.results, h.progress, List.map_map]
    exact outcomes_csvRowNumber b
  processed := by
    rw [h.results, h.progress, List.countP_map]
    rfl
  failed := by
    rw [h.results, h.progress, countP_failed]
    rfl
  inserted := by
    refine ⟨_, h.table, ?_⟩
    rw [h.results]
    cases hopen : W.openUpload input with
    | error e => simp [outcomes, hopen]
    | ok opened =>
        have hspec := catalog_of_openUpload hopen
        rw [storedId_eq hspec]
        exact map_storedId_filterMap_values (outcomes_consistent hspec b)
  unique := h.unique

/-- **Every CSV row is applied exactly once**, after any run of executions,
crashes and requests over the upload. -/
theorem applied_exactly_once_of_run {start s : IngestState}
    (hsize : 1 ≤ W.batchRecords) (hcreated : W.Created start)
    (hrun : Relation.ReflTransGen (W.AnyIngestStep input) start s) :
    W.AppliedExactlyOnce start.store.table s.store := by
  obtain ⟨b, h⟩ := invariant_of_run hsize hcreated hrun
  exact h.store.appliedExactlyOnce

/-- Outcomes with new numbers and new ids violate no constraint. -/
theorem exists_foldlM_insertOutcome
    {spec : IngestSpec} {outcomes : List RowOutcome} {store : IngestStore}
    (hconsistent : ∀ outcome ∈ outcomes, spec.Consistent outcome)
    (hnumbers : (store.results.map RowResult.csvRowNumber ++
      outcomes.map RowOutcome.csvRowNumber).Nodup)
    (hids : (outcomes.filterMap RowOutcome.key).Nodup)
    (hfree : ∀ recordId ∈ outcomes.filterMap RowOutcome.key,
      some (Value.text recordId) ∉ store.table.map spec.storedId) :
    ∃ store', outcomes.foldlM (insertOutcome spec) store = .ok store' := by
  induction outcomes generalizing store with
  | nil => exact ⟨store, rfl⟩
  | cons outcome outcomes ih =>
      have hkey : ∀ values ∈ outcome.values, ∃ recordId, outcome.key = some recordId ∧
          spec.storedId values = some (.text recordId) := by
        intro values hvalues
        obtain ⟨recordId, hid, hstored⟩ :=
          (hconsistent outcome List.mem_cons_self).stored values hvalues
        exact ⟨recordId, by simp [RowOutcome.key, Option.mem_def.mp hvalues, hid], hstored⟩
      rw [List.map_cons, List.nodup_middle] at hnumbers
      have hnew := (List.nodup_cons.mp hnumbers).1
      obtain ⟨written, hwritten⟩ : ∃ written, insertOutcome spec store outcome = .ok written := by
        refine ⟨_, insertOutcome_eq_ok_iff.mpr ⟨?_, ?_, rfl⟩⟩
        · intro values hvalues _
          obtain ⟨recordId, hid, hstored⟩ := hkey values hvalues
          rw [hstored]
          exact hfree recordId (List.mem_filterMap.mpr ⟨outcome, List.mem_cons_self, hid⟩)
        · exact fun hold => hnew (List.mem_append_left _ hold)
      obtain ⟨-, -, rfl⟩ := insertOutcome_eq_ok_iff.mp hwritten
      have hrest : (outcomes.filterMap RowOutcome.key).Nodup := by
        cases hid : outcome.key with
        | none => simpa [List.filterMap_cons, hid] using hids
        | some recordId =>
            rw [List.filterMap_cons_some hid] at hids
            exact (List.nodup_cons.mp hids).2
      have hnumbers' : ((store.results ++ [outcome.result]).map RowResult.csvRowNumber ++
          outcomes.map RowOutcome.csvRowNumber).Nodup := by
        rw [List.map_append, List.append_assoc]
        exact List.nodup_middle.mpr hnumbers
      obtain ⟨store', hstore'⟩ := @ih { store with
          table := store.table ++ outcome.values.toList
          results := store.results ++ [outcome.result] }
        (fun o ho => hconsistent o (List.mem_cons_of_mem _ ho)) hnumbers' hrest (by
          intro recordId hmem
          have hold := hfree recordId (by
            obtain ⟨o, ho, hid⟩ := List.mem_filterMap.mp hmem
            exact List.mem_filterMap.mpr ⟨o, List.mem_cons_of_mem _ ho, hid⟩)
          cases hvalues : outcome.values with
          | none => simpa using hold
          | some values =>
              obtain ⟨headId, hid, hstored⟩ := hkey values hvalues
              rw [List.filterMap_cons_some hid] at hids
              have hne : headId ≠ recordId := by
                rintro rfl
                exact (List.nodup_cons.mp hids).1 hmem
              rw [Option.toList_some, List.map_append, List.mem_append, not_or]
              exact ⟨hold, by simp [hstored, Ne.symm hne]⟩)
      refine ⟨store', ?_⟩
      rw [List.foldlM_cons, hwritten]
      exact hstore'

/-- The keys a batch accepts: free ids that occur once in it. -/
theorem applyBatch_key (spec : IngestSpec) (table : List TableRow) (batch : List CsvRow) :
    (W.applyBatch spec table batch).map RowOutcome.key =
      batch.map fun row =>
        (prepareRow W.readers W.jobId spec row).key.filter fun recordId =>
          ¬ Rejected spec table (batch.map (prepareRow W.readers W.jobId spec)) recordId := by
  rw [applyBatch_eq, List.map_map, List.map_map]
  refine List.map_congr_left fun row _ => ?_
  simp only [Function.comp_apply]
  cases hkey : (prepareRow W.readers W.jobId spec row).key with
  | none => simp [hkey]
  | some recordId =>
      by_cases hreject : Rejected spec table
          (batch.map (prepareRow W.readers W.jobId spec)) recordId
      · simp [Option.filter_some, hreject]
      · simp [Option.filter_some, hreject, hkey]

/-- The ids a batch inserts. -/
theorem applyBatch_ids (spec : IngestSpec) (table : List TableRow) (batch : List CsvRow) :
    (W.applyBatch spec table batch).filterMap RowOutcome.key =
      ((batch.map (prepareRow W.readers W.jobId spec)).map RowOutcome.key).filterMap
        fun key => key.filter fun recordId =>
          ¬ Rejected spec table (batch.map (prepareRow W.readers W.jobId spec)) recordId := by
  have hmap := congrArg (List.filterMap id) (applyBatch_key (W := W) spec table batch)
  rw [List.filterMap_map, List.filterMap_map] at hmap
  rw [List.filterMap_map, List.filterMap_map]
  exact hmap

theorem not_rejected_of_mem_ids
    {spec : IngestSpec} {table : List TableRow} {batch : List CsvRow} {recordId : String}
    (h : recordId ∈ (W.applyBatch spec table batch).filterMap RowOutcome.key) :
    ¬ Rejected spec table (batch.map (prepareRow W.readers W.jobId spec)) recordId := by
  rw [applyBatch_ids] at h
  obtain ⟨key, -, hkey⟩ := List.mem_filterMap.mp h
  obtain ⟨rfl, haccepted⟩ := Option.filter_eq_some_iff.mp hkey
  exact of_decide_eq_true haccepted

/-- A batch inserts an id at most once. -/
theorem nodup_applyBatch_ids (spec : IngestSpec) (table : List TableRow)
    (batch : List CsvRow) :
    ((W.applyBatch spec table batch).filterMap RowOutcome.key).Nodup := by
  rw [List.nodup_iff_count_le_one]
  intro recordId
  by_cases hmem : recordId ∈ (W.applyBatch spec table batch).filterMap RowOutcome.key
  · have hone : ((batch.map (prepareRow W.readers W.jobId spec)).map
        RowOutcome.key).count (some recordId) = 1 := by
      by_contra hne
      exact not_rejected_of_mem_ids hmem (Or.inl hne)
    rw [← hone, applyBatch_ids, List.count_filterMap, List.count_eq_countP]
    refine List.countP_mono_left fun key _ hkey => ?_
    have hfiltered := beq_iff_eq.mp hkey
    exact beq_iff_eq.mpr (Option.filter_eq_some_iff.mp hfiltered).1
  · rw [List.count_eq_zero_of_not_mem hmem]
    omega

/-- **A batch violates no constraint**: after `b` batches the next one commits. -/
theorem StoreAfter.exists_commit {b : Nat} {store : IngestStore} {spec : IngestSpec}
    {rows : List CsvRow} (h : W.StoreAfter input initial b store)
    (hopen : W.openUpload input = .ok (spec, rows)) (processed failed inputBytes : Nat) :
    ∃ store', commitBatch spec
      (W.applyBatch spec store.table (batch W.batchRecords rows b))
      processed failed inputBytes store = .ok store' := by
  have hnumbers : (store.results.map RowResult.csvRowNumber ++
      (W.applyBatch spec store.table (batch W.batchRecords rows b)).map
        RowOutcome.csvRowNumber).Nodup := by
    have hnext : (W.outcomes input initial (b + 1)).map RowOutcome.csvRowNumber =
        List.range' 1 (W.outcomes input initial (b + 1)).length := outcomes_csvRowNumber (b + 1)
    rw [outcomes_succ hopen, List.map_append, ← h.table] at hnext
    rw [h.results, List.map_map]
    change ((W.outcomes input initial b).map RowOutcome.csvRowNumber ++ _).Nodup
    rw [hnext]
    exact List.nodup_range'
  obtain ⟨written, hwritten⟩ := exists_foldlM_insertOutcome
    (fun outcome hmem => applyBatch_consistent hmem) hnumbers
    (nodup_applyBatch_ids spec store.table _)
    (fun recordId hmem hstored => not_rejected_of_mem_ids hmem (Or.inr hstored))
  unfold commitBatch
  rw [hwritten]
  exact ⟨_, rfl⟩

/-- The reader cuts off a full batch when no row has too many cells. -/
theorem nextBatch_of_fit
    {size : Nat} {batch unread : List CsvRow} (hroom : batch.length < size)
    (hfit : ∀ row ∈ unread, row.surplus = []) :
    nextBatch size batch unread = .ok (batch ++ unread.take (size - batch.length),
      unread.drop (size - batch.length)) := by
  cases hcut : nextBatch size batch unread with
  | ok cut =>
      obtain ⟨first, rest⟩ := cut
      obtain ⟨rfl, rfl⟩ := nextBatch_eq_ok hroom hcut
      rfl
  | error e =>
      induction unread generalizing batch with
      | nil => simp [nextBatch] at hcut
      | cons row unread ih =>
          rw [nextBatch, if_neg (by simp [hfit row List.mem_cons_self])] at hcut
          split at hcut
          · cases hcut
          · rename_i hfull
            simp only [List.length_append, List.length_singleton, Nat.not_le] at hfull
            have hrest := @ih (batch ++ [row]) (by simpa using hfull)
              (fun r hr => hfit r (List.mem_cons_of_mem _ hr)) hcut
            cases hrest

/-- The lookup and the commit of one more batch. -/
theorem exists_next_batch {b : Nat} {store : IngestStore} {spec : IngestSpec}
    {rows : List CsvRow} {processed failed : Nat}
    (hsize : 1 ≤ W.batchRecords)
    (hopen : W.openUpload input = .ok (spec, rows)) (hfit : ∀ row ∈ rows, row.surplus = [])
    (hstore : W.StoreAfter input initial b store)
    (hphase : W.PhaseAfter input initial b
      (.streaming spec (rows.drop (W.batchRecords * b)) processed failed))
    (hmore : W.batchRecords * b < rows.length) :
    ∃ store' processed' failed',
      Relation.ReflTransGen (W.AnyIngestStep input)
        ⟨store, .streaming spec (rows.drop (W.batchRecords * b)) processed failed⟩
        ⟨store', .streaming spec (rows.drop (W.batchRecords * (b + 1))) processed' failed'⟩ ∧
      W.StoreAfter input initial (b + 1) store' ∧
      W.PhaseAfter input initial (b + 1)
        (.streaming spec (rows.drop (W.batchRecords * (b + 1))) processed' failed') ∧
      store'.state = store.state := by
  obtain ⟨rows', hopen', -, hprocessed, hfailed⟩ := hphase
  obtain ⟨upload, rfl⟩ := input_of_openUpload hopen
  have hcut : nextBatch W.batchRecords [] (rows.drop (W.batchRecords * b)) =
      .ok (batch W.batchRecords rows b, rows.drop (W.batchRecords * (b + 1))) := by
    rw [nextBatch_of_fit (List.length_nil ▸ hsize)
      (fun row hrow => hfit row (List.mem_of_mem_drop hrow))]
    rw [Nat.mul_succ, ← List.drop_drop]
    simp [batch]
  have hunread : rows.drop (W.batchRecords * b) ≠ [] := by
    intro hnil
    have := List.drop_eq_nil_iff.mp hnil
    omega
  obtain ⟨store', hcommit⟩ := hstore.exists_commit hopen processed failed upload.byteSize
  obtain ⟨hstore', hprocessed', hfailed'⟩ := hstore.commit hopen hsize hmore hprocessed hfailed
    (by rw [hstore.table]) hcommit
  refine ⟨store', _, _, ?_, hstore', ⟨rows, hopen, rfl, hprocessed', hfailed'⟩, ?_⟩
  · exact Relation.ReflTransGen.head ⟨_, .worker (.lookup hunread hcut rfl)⟩
      (Relation.ReflTransGen.single ⟨_, .worker (.commit hcommit)⟩)
  · rw [commitBatch_eq hcommit]

/-- From any batch on, an execution that nothing interrupts completes the job. -/
theorem exists_completed_of_streaming {b : Nat} {store : IngestStore} {spec : IngestSpec}
    {rows : List CsvRow} {processed failed : Nat}
    (hsize : 1 ≤ W.batchRecords)
    (hopen : W.openUpload input = .ok (spec, rows)) (hfit : ∀ row ∈ rows, row.surplus = [])
    (hstore : W.StoreAfter input initial b store)
    (hphase : W.PhaseAfter input initial b
      (.streaming spec (rows.drop (W.batchRecords * b)) processed failed))
    (hstate : store.state = .inProgress) :
    ∃ s, Relation.ReflTransGen (W.AnyIngestStep input)
        ⟨store, .streaming spec (rows.drop (W.batchRecords * b)) processed failed⟩ s ∧
      s.store.state = .jobComplete := by
  by_cases hmore : W.batchRecords * b < rows.length
  · obtain ⟨store', processed', failed', hrun, hstore', hphase', hstate'⟩ :=
      exists_next_batch hsize hopen hfit hstore hphase hmore
    obtain ⟨s, hrest, hcomplete⟩ :=
      exists_completed_of_streaming hsize hopen hfit hstore' hphase' (hstate'.trans hstate)
    exact ⟨s, hrun.trans hrest, hcomplete⟩
  · rw [List.drop_eq_nil_of_le (by omega)]
    obtain ⟨store', hnext⟩ : ∃ store', store.transitionJob .jobComplete none none = .ok store' :=
      ⟨_, transitionJob_eq_ok_iff.mpr ⟨by simp [hstate, allowedTransitions], rfl⟩⟩
    refine ⟨_, Relation.ReflTransGen.single ⟨_, .worker (.complete hnext)⟩, ?_⟩
    rw [(transitionJob_eq_ok_iff.mp hnext).2]
termination_by rows.length - W.batchRecords * b
decreasing_by
  rw [Nat.mul_succ]
  omega

/-- An execution that takes up the job after `b` batches. -/
theorem exists_streaming_of_inProgress {b : Nat} {store : IngestStore} {spec : IngestSpec}
    {rows : List CsvRow} (hopen : W.openUpload input = .ok (spec, rows))
    (hstore : W.StoreAfter input initial b store) (hstate : store.state = .inProgress) :
    ∃ processed failed, Relation.ReflTransGen (W.AnyIngestStep input) ⟨store, .idle⟩
        ⟨store, .streaming spec (rows.drop (W.batchRecords * b)) processed failed⟩ ∧
      W.PhaseAfter input initial b
        (.streaming spec (rows.drop (W.batchRecords * b)) processed failed) := by
  have hopened : W.WorkerStep input ⟨store, .started⟩ ⟨store, .streaming spec
      (resumeRows store rows) (ingestProgress store.checkpoints).recordsProcessed
      (ingestProgress store.checkpoints).recordsFailed⟩ := .openFile hopen
  rw [hstore.resumeRows_eq hopen] at hopened
  exact ⟨_, _, Relation.ReflTransGen.head ⟨_, .worker (.restart hstate)⟩
      (Relation.ReflTransGen.single ⟨_, .worker hopened⟩),
    rows, hopen, rfl, by rw [hstore.progress], by rw [hstore.progress]⟩

/-- A created job can be closed and taken up. -/
theorem Created.exists_inProgress {s : IngestState} {upload : CsvUpload}
    (h : W.Created s) (hinput : input = some upload) :
    ∃ store, Relation.ReflTransGen (W.AnyIngestStep input) s ⟨store, .idle⟩ ∧
      W.StoreAfter input s.store.table 0 store ∧ store.state = .inProgress := by
  obtain ⟨store, phase⟩ := s
  obtain rfl : phase = .idle := h.phase
  obtain ⟨closed, hclose⟩ : ∃ closed, store.transitionJob .uploadComplete none none = .ok closed :=
    ⟨_, transitionJob_eq_ok_iff.mpr
      ⟨by simp [show store.state = .jobOpen from h.state, allowedTransitions], rfl⟩⟩
  have hclosed := (transitionJob_eq_ok_iff.mp hclose).2
  obtain ⟨started, hstart⟩ : ∃ started, closed.transitionJob .inProgress none none = .ok started :=
    ⟨_, transitionJob_eq_ok_iff.mpr ⟨by simp [hclosed, allowedTransitions], rfl⟩⟩
  refine ⟨started, ?_, (h.invariant.store.transition hclose).transition hstart, ?_⟩
  · refine Relation.ReflTransGen.head ⟨_, .close (by simp [hinput]) hclose⟩ ?_
    refine Relation.ReflTransGen.head ⟨_, .worker (.start (by simp [hclosed]) hstart)⟩ ?_
    exact Relation.ReflTransGen.single ⟨_, .crash⟩
  · rw [(transitionJob_eq_ok_iff.mp hstart).2]

/-- **Every readable upload can be completed.** -/
theorem Created.exists_completed {s : IngestState} {upload : CsvUpload} {spec : IngestSpec}
    {rows : List CsvRow} (h : W.Created s) (hsize : 1 ≤ W.batchRecords)
    (hinput : input = some upload) (hopen : W.openUpload input = .ok (spec, rows))
    (hfit : ∀ row ∈ rows, row.surplus = []) :
    ∃ s', Relation.ReflTransGen (W.AnyIngestStep input) s s' ∧
      s'.store.state = .jobComplete := by
  obtain ⟨store, hrun, hstore, hstate⟩ := h.exists_inProgress hinput
  obtain ⟨processed, failed, hopened, hphase⟩ :=
    exists_streaming_of_inProgress hopen hstore hstate
  obtain ⟨s', hrest, hcomplete⟩ :=
    exists_completed_of_streaming hsize hopen hfit hstore hphase hstate
  exact ⟨s', hrun.trans (hopened.trans hrest), hcomplete⟩

/-- A schema of three columns under the object name `Account`. -/
def accountIngest : IngestSpec where
  objectName := "Account"
  idField := "Id"
  isMutable := true
  schema := [⟨"Id", .other⟩, ⟨"Name", .other⟩, ⟨"IsDeleted", .boolean⟩]
  idField_mem := by decide

/-- Readers for uploads whose cells are all text and carry their ids. -/
def textReaders : Readers where
  int := .error
  float := .error
  dateFromisoformat := .error
  datetimeFromisoformat := .error
  sha1Hexdigest := id

def accountWorker (batchRecords : Nat) : BulkIngestWorker where
  readers := textReaders
  catalog := fun name => if name = "Account" then some accountIngest else none
  batchRecords := batchRecords
  jobId := "750"
  objectName := "Account"

/-- Two rows under one new id. -/
def repeatedId : CsvUpload where
  lines := [["Id", "Name"], ["002", "New"], ["002", "Again"]]
  byteSize := 26

def createdAccountJob : IngestState where
  store :=
    { state := .jobOpen
      errorCode := none
      errorMessage := none
      table := [[some (.text "001"), some (.text "Existing"), some (.flag false)]]
      results := []
      checkpoints := [] }
  phase := .idle

theorem created_createdAccountJob (batchRecords : Nat) :
    (accountWorker batchRecords).Created createdAccountJob where
  phase := rfl
  state := rfl
  results := rfl
  checkpoints := rfl
  unique := by
    change [Value.text "001"].Nodup
    exact List.nodup_singleton _

/-- One row at a time: a crash after the first batch, and a second execution. -/
theorem applied_exactly_once_after_crash :
    ∃ s, Relation.ReflTransGen ((accountWorker 1).AnyIngestStep (some repeatedId))
        createdAccountJob s ∧
      s.store.state = .jobComplete ∧
      (accountWorker 1).AppliedExactlyOnce createdAccountJob.store.table s.store := by
  have hcreated := created_createdAccountJob 1
  have hopen : (accountWorker 1).openUpload (some repeatedId) =
      .ok (accountIngest, dictRows ["Id", "Name"] repeatedId.lines.tail) := rfl
  have hfit : ∀ row ∈ dictRows ["Id", "Name"] repeatedId.lines.tail, row.surplus = [] := by
    decide
  obtain ⟨store, hrun, hstore, hstate⟩ := hcreated.exists_inProgress rfl
  obtain ⟨processed, failed, hopened, hphase⟩ :=
    exists_streaming_of_inProgress hopen hstore hstate
  obtain ⟨store', processed', failed', hbatch, hstore', -, hstate'⟩ :=
    exists_next_batch (Nat.le_refl 1) hopen hfit hstore hphase (by decide)
  obtain ⟨_, _, hreopened, hphase'⟩ :=
    exists_streaming_of_inProgress hopen hstore' (hstate'.trans hstate)
  obtain ⟨s, hrest, hcomplete⟩ := exists_completed_of_streaming (Nat.le_refl 1) hopen hfit
    hstore' hphase' (hstate'.trans hstate)
  have hwhole := hrun.trans (hopened.trans
    ((hbatch.tail ⟨_, .crash⟩).trans (hreopened.trans hrest)))
  exact ⟨s, hwhole, hcomplete, applied_exactly_once_of_run (Nat.le_refl 1) hcreated hwhole⟩

end BulkIngestWorker

end FakeForce
end Northwind
