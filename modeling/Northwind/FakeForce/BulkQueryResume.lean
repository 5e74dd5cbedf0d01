import Northwind.FakeForce.BulkQueryParts
import Northwind.FakeForce.Snapshots
import Northwind.Library.TieOrders

/-!
# A resumed bulk query

A resumed execution runs the query again and skips as many rows as the manifest
counts.  The source may have changed since the job was created, and rows that
the ORDER BY does not tell apart may come in another order.

`resumed_of_run`: when every execution finds the rows the job was created over,
and no tie of the ORDER BY crosses the start of the result or the end of what is
committed, the rows skipped are the rows stored and the finished parts are one
result list of the recorded snapshot.
-/

namespace Northwind
namespace FakeForce

open CrashPrefixes TieOrders Windows

abbrev PublicRow := List (Option Value)

namespace QueryPlan

variable (plan : QueryPlan)

/-- The ORDER BY of `execution_sql`: the query's own, or the internal id. -/
def executionOrder : OrderBy :=
  plan.orderBy.getD ⟨plan.idField, .asc, .last⟩

/-- The rows a query keeps in the order of `execution_sql`. -/
def orderedRows (E : QueryEngine) (rows : List Row) : List Row :=
  E.order (some plan.executionOrder) (rows.filter plan.keeps)

/-- The public columns of a row. -/
def publicRow (r : Row) : PublicRow :=
  plan.fields.map r

/-- The rows an execution of `_stream` gets, without the internal id. -/
def executionRows (E : QueryEngine) (rows : List Row) : List PublicRow :=
  (plan.limitOffset (plan.orderedRows E rows)).map plan.publicRow

end QueryPlan

/-! ## Steps -/

/-- The source, the job and the snapshot id `create_bulk_query_job` recorded. -/
structure ResumeState where
  disk : Disk
  job : QueryJob PublicRow
  datasetSnapshotId : String

inductive ResumeAction where
  | change (spec : DatasetSpec) (op : TreeOp)
  | execute

/-- One change of the source, or one execution of the job: on any engine, to its
end or up to an exception, and crashed after any of its writes. -/
inductive ResumeStep (service : Service) (plan : QueryPlan) (Q : BulkQuery PublicRow) :
    ResumeState → ResumeAction → ResumeState → Prop
  | change {s : ResumeState} (spec : DatasetSpec) (op : TreeOp) :
      ResumeStep service plan Q s (.change spec op)
        { s with disk := op.run spec service.ranking s.disk }
  | execute {s : ResumeState} {rows : List Row} (E : QueryEngine) (execution : Execution)
      (k : Nat) (read : service.objectRows plan s.disk = some rows) :
      ResumeStep service plan Q s .execute
        { s with
          job := after QueryJob.write s.job
            ((executionWrites Q (plan.executionRows E rows) execution s.job).take k) }
  /-- The source cannot be opened: the exception comes before the first row. -/
  | unreadable {s : ResumeState} (partRecords k k' : Nat)
      (read : service.objectRows plan s.disk = none) :
      ResumeStep service plan Q s .execute
        { s with
          job := after QueryJob.write s.job
            ((executionWrites Q [] (.raises partRecords k) s.job).take k') }

/-- The rows the query keeps of the source it was created over. -/
def createdRows (service : Service) (plan : QueryPlan) (created : Disk) : List Row :=
  ((service.objectRows plan created).getD []).filter plan.keeps

/-- An execution finds the rows the job was created over; when it resumes behind
committed rows, no tie crosses the start of the result or their end. -/
def MeetsResumeCondition (service : Service) (plan : QueryPlan) (created : Disk)
    (s : ResumeState) : ResumeAction → Prop
  | .change _ _ => True
  | .execute =>
      readyToRun s.job → ∀ rows, service.objectRows plan s.disk = some rows →
        (service.objectRows plan created).isSome = true ∧
        (rows.filter plan.keeps).Perm (createdRows service plan created) ∧
        (0 < recordTotal s.job.parts →
          ¬ TieAt plan.executionOrder.allows (plan.orderedRows .stable rows) plan.offset ∧
          ¬ TieAt plan.executionOrder.allows (plan.orderedRows .stable rows)
            (plan.offset + recordTotal s.job.parts))

/-- The rows of the part files, one after the other. -/
def storedRows (j : QueryJob PublicRow) : List PublicRow :=
  j.parts.flatMap (fun part => ((j.files.lookup part.path).map PartFile.rows).getD [])

/-- The job continues one result list of the snapshot it records. -/
structure Resumed (service : Service) (plan : QueryPlan) (created : Disk) (s : ResumeState) :
    Prop where
  /-- What is stored begins a result list of the source the job was created over. -/
  stored : ∃ ordered,
    IsOrderOf plan.executionOrder.allows (createdRows service plan created) ordered ∧
    storedRows s.job =
      ((plan.limitOffset ordered).take (recordTotal s.job.parts)).map plan.publicRow
  /-- The rows the next execution skips are the rows stored. -/
  skipped : MeetsResumeCondition service plan created s .execute → readyToRun s.job →
    ∀ (E : QueryEngine) (rows : List Row), service.objectRows plan s.disk = some rows →
      ((plan.executionRows E rows).take (recordTotal s.job.parts)).Perm (storedRows s.job)
  /-- The parts of a completed job are a result list of the recorded snapshot. -/
  completed : s.job.state = .jobComplete →
    service.snapshotId created = .ok s.datasetSnapshotId ∧
    ∃ rows ordered, service.objectRows plan created = some rows ∧
      IsOrderOf plan.executionOrder.allows (rows.filter plan.keeps) ordered ∧
      storedRows s.job = (plan.limitOffset ordered).map plan.publicRow

/-! ## Result lists that agree -/

section Limits

variable (plan : QueryPlan)

theorem length_limitOffset_congr
    {ordered ordered' : List Row} (h : ordered'.length = ordered.length) :
    (plan.limitOffset ordered').length = (plan.limitOffset ordered).length := by
  unfold QueryPlan.limitOffset
  cases plan.limit <;> simp [h]

/-- The first rows of a result list. -/
theorem take_limitOffset
    {ordered : List Row} {n : Nat} (hn : n ≤ (plan.limitOffset ordered).length) :
    (plan.limitOffset ordered).take n = (ordered.take (plan.offset + n)).drop plan.offset := by
  rw [List.drop_take, Nat.add_sub_cancel_left]
  unfold QueryPlan.limitOffset at hn ⊢
  cases hlimit : plan.limit with
  | none => rfl
  | some limit =>
      rw [hlimit] at hn
      simp only [List.length_take] at hn ⊢
      rw [List.take_take, Nat.min_eq_left (by omega)]

/-- The head of one order with the tail of another gives the head of the one
result list with the tail of the other. -/
theorem limitOffset_splice
    {ordered ordered' : List Row} (hlength : ordered'.length = ordered.length) {n : Nat}
    (hn : n ≤ (plan.limitOffset ordered).length) :
    plan.limitOffset (ordered.take (plan.offset + n) ++ ordered'.drop (plan.offset + n)) =
      (plan.limitOffset ordered).take n ++ (plan.limitOffset ordered').drop n := by
  rw [take_limitOffset plan hn]
  unfold QueryPlan.limitOffset at hn ⊢
  have hhead : ((ordered.take (plan.offset + n)).drop plan.offset).length =
      min n (ordered.length - plan.offset) := by
    rw [List.length_drop, List.length_take]
    omega
  have hsplit : (ordered.take (plan.offset + n) ++ ordered'.drop (plan.offset + n)).drop
      plan.offset = (ordered.take (plan.offset + n)).drop plan.offset ++
        (ordered'.drop plan.offset).drop n := by
    rcases Nat.le_total plan.offset ordered.length with hle | hle
    · rw [List.drop_append_of_le_length (by rw [List.length_take]; omega), List.drop_drop]
    · rw [List.drop_of_length_le (by simp; omega), List.drop_of_length_le (by simp; omega),
        List.drop_drop, List.drop_of_length_le (by omega), List.append_nil]
  rw [hsplit]
  cases hlimit : plan.limit with
  | none => rfl
  | some limit =>
      rw [hlimit] at hn
      simp only [List.length_take, List.length_drop] at hn
      have hleft : limit - min n (ordered.length - plan.offset) = limit - n := by omega
      have htail : ((ordered'.drop plan.offset).take limit).drop n =
          ((ordered'.drop plan.offset).drop n).take (limit - n) :=
        List.drop_take
      calc
        ((ordered.take (plan.offset + n)).drop plan.offset ++
            (ordered'.drop plan.offset).drop n).take limit
          = (ordered.take (plan.offset + n)).drop plan.offset ++
              ((ordered'.drop plan.offset).drop n).take (limit - n) := by
            rw [List.take_append, List.take_of_length_le (by rw [hhead]; omega), hhead, hleft]
        _ = (ordered.take (plan.offset + n)).drop plan.offset ++
              ((ordered'.drop plan.offset).take limit).drop n := by
            rw [htail]

theorem isOrderOf_orderedRows (E : QueryEngine) (rows : List Row) :
    IsOrderOf plan.executionOrder.allows (rows.filter plan.keeps) (plan.orderedRows E rows) :=
  ⟨E.order_perm _ _, E.order_sorted _ _⟩

variable {plan}

/-- A result list that begins as one order's and goes on as another's. -/
theorem exists_continued_order
    {kept ordered ordered' sorted : List Row} {n : Nat}
    (h : IsOrderOf plan.executionOrder.allows kept ordered)
    (h' : IsOrderOf plan.executionOrder.allows kept ordered')
    (hsorted : IsOrderOf plan.executionOrder.allows kept sorted)
    (hn : n ≤ (plan.limitOffset ordered).length)
    (hstart : ¬ TieAt plan.executionOrder.allows sorted plan.offset)
    (hend : ¬ TieAt plan.executionOrder.allows sorted (plan.offset + n)) :
    ((plan.limitOffset ordered').take n).Perm ((plan.limitOffset ordered).take n) ∧
    ∃ continued, IsOrderOf plan.executionOrder.allows kept continued ∧
      (plan.limitOffset continued).take n = (plan.limitOffset ordered).take n ∧
      (plan.limitOffset continued).drop n = (plan.limitOffset ordered').drop n := by
  have htotal := plan.executionOrder.allows_total
  have htrans : ∀ a b c, plan.executionOrder.allows a b = true →
      plan.executionOrder.allows b c = true → plan.executionOrder.allows a c = true :=
    fun _ _ _ => plan.executionOrder.allows_trans
  have hlength : ordered'.length = ordered.length :=
    (h'.perm.trans h.perm.symm).length_eq
  have hn' : n ≤ (plan.limitOffset ordered').length := by
    rw [length_limitOffset_congr plan hlength]
    exact hn
  obtain ⟨hfront, _⟩ := h.splice htotal htrans h' hsorted hstart
  obtain ⟨hwhole, hcontinued⟩ := h.splice htotal htrans h' hsorted hend
  have hspliced := limitOffset_splice plan hlength hn
  have htakeLength : ((plan.limitOffset ordered).take n).length = n := by
    rw [List.length_take]
    omega
  refine ⟨?_, _, hcontinued, ?_, ?_⟩
  · rw [take_limitOffset plan hn, take_limitOffset plan hn']
    have hcut : ∀ l : List Row, l.take plan.offset ++ (l.take (plan.offset + n)).drop plan.offset =
        l.take (plan.offset + n) := by
      intro l
      have hsplit := List.take_append_drop plan.offset (l.take (plan.offset + n))
      rwa [List.take_take, Nat.min_eq_left (by omega)] at hsplit
    rw [← hcut ordered, ← hcut ordered'] at hwhole
    exact ((List.perm_append_left_iff _).mp
      ((hfront.append_right _).symm.trans hwhole)).symm
  · rw [hspliced, List.take_append_of_le_length (by omega), List.take_of_length_le (by omega)]
  · rw [hspliced, List.drop_append_of_le_length (by omega), List.drop_of_length_le (by omega),
      List.nil_append]

end Limits

/-! ## Executions over rows that agree behind the committed ones -/

section Congruence

variable {ρ : Type} {Q : BulkQuery ρ} {rows rows' : List ρ} {j : QueryJob ρ}
variable {partRecords resumeRecords : Nat}

/-- Rows that are skipped leave nothing but their number. -/
theorem foldl_scanRow_skipped
    (skip : List ρ) {s : Scan ρ} (h : s.skipped + skip.length ≤ resumeRecords) :
    skip.foldl (scanRow Q partRecords resumeRecords) s =
      { s with skipped := s.skipped + skip.length } := by
  induction skip generalizing s with
  | nil => rfl
  | cons row skip ih =>
      rw [List.length_cons] at h
      have hskip : s.skipped < resumeRecords := by omega
      have hnext : ({ s with skipped := s.skipped + 1 } : Scan ρ).skipped + skip.length ≤
          resumeRecords := by
        change s.skipped + 1 + skip.length ≤ resumeRecords
        omega
      rw [List.foldl_cons, scanRow, if_pos hskip, ih hnext, List.length_cons]
      congr 1
      change s.skipped + 1 + skip.length = s.skipped + (skip.length + 1)
      omega

theorem scanRows_congr
    {parts : List ManifestPart}
    (hlength : recordTotal parts ≤ rows.length) (hlength' : recordTotal parts ≤ rows'.length)
    (hdrop : rows'.drop (recordTotal parts) = rows.drop (recordTotal parts)) :
    scanRows Q partRecords parts rows' = scanRows Q partRecords parts rows := by
  have hfold : ∀ l : List ρ, recordTotal parts ≤ l.length →
      l.foldl (scanRow Q partRecords (recordTotal parts)) (Scan.start parts) =
        (l.drop (recordTotal parts)).foldl (scanRow Q partRecords (recordTotal parts))
          { Scan.start parts with skipped := recordTotal parts } := by
    intro l hl
    have htake : (l.take (recordTotal parts)).length = recordTotal parts := by
      rw [List.length_take]
      omega
    have hskip : (l.take (recordTotal parts)).foldl
        (scanRow Q partRecords (recordTotal parts)) (Scan.start parts) =
          { Scan.start parts with
            skipped := (Scan.start parts : Scan ρ).skipped +
              (l.take (recordTotal parts)).length } :=
      foldl_scanRow_skipped _ (by simp only [Scan.start]; omega)
    conv_lhs => rw [← List.take_append_drop (recordTotal parts) l]
    rw [List.foldl_append, hskip, htake]
    simp only [Scan.start, Nat.zero_add]
  simp only [scanRows, hfold rows' hlength', hfold rows hlength, hdrop]

theorem executionWrites_congr
    (hlength : recordTotal j.parts ≤ rows.length) (hlength' : recordTotal j.parts ≤ rows'.length)
    (hdrop : rows'.drop (recordTotal j.parts) = rows.drop (recordTotal j.parts))
    (execution : Execution) :
    executionWrites Q rows' execution j = executionWrites Q rows execution j := by
  have hstream : ∀ partRecords, stream Q partRecords rows' j = stream Q partRecords rows j := by
    intro partRecords
    unfold stream
    cases hloaded : loadManifest j with
    | error e => rfl
    | ok parts =>
        have hparts : parts = j.parts := by
          unfold loadManifest at hloaded
          split at hloaded
          · cases hloaded
          · exact (Except.ok.inj hloaded).symm
        subst hparts
        simp only [scanRows_congr hlength hlength' hdrop]
  cases execution with
  | completes partRecords => simp only [executionWrites, run, hstream]
  | raises partRecords k => simp only [executionWrites, runRaising, hstream]

/-- Without rows an execution only unlinks, as with any rows before the first part. -/
theorem runRaising_nil (partRecords k : Nat) (rows : List ρ) (j : QueryJob ρ) :
    ∃ k', runRaising Q partRecords [] k j = runRaising Q partRecords rows k' j := by
  have hstream : ∃ m, (stream Q partRecords [] j).1 =
      (stream Q partRecords rows j).1.take m := by
    unfold stream
    cases loadManifest j with
    | error e => exact ⟨0, rfl⟩
    | ok parts =>
        refine ⟨(discardUncommittedParts j parts).length, ?_⟩
        simp only
        split
        · exact (List.take_length).symm
        · rw [List.take_left]
          exact List.append_nil _
  obtain ⟨m, hm⟩ := hstream
  refine ⟨min k m, ?_⟩
  simp only [runRaising, hm, List.take_take]

/-- The manifest says nothing about the rows behind those it counts. -/
theorem PartsFrom.rows_congr
    {files : AList (fun _ : String => PartFile ρ)} {number start : Nat}
    {parts : List ManifestPart} (h : PartsFrom Q rows files number start parts)
    (hsame : rows'.take (start + recordTotal parts) = rows.take (start + recordTotal parts)) :
    PartsFrom Q rows' files number start parts := by
  induction parts generalizing number start with
  | nil => trivial
  | cons part parts ih =>
      obtain ⟨hpart, hcount, hfile, hrest⟩ := h
      rw [recordTotal_cons] at hsame
      have hwindow : window rows' start part.recordCount = window rows start part.recordCount :=
        window_eq_of_take_eq hsame (by omega)
      rw [← hwindow] at hpart hfile
      exact ⟨hpart, hcount, hfile, ih hrest (by rw [Nat.add_assoc]; exact hsame)⟩

theorem JobInvariant.rows_congr
    (h : JobInvariant Q rows j) (hstate : j.state ≠ .jobComplete)
    (hsame : rows'.take (recordTotal j.parts) = rows.take (recordTotal j.parts)) :
    JobInvariant Q rows' j :=
  ⟨⟨h.committed.parts.rows_congr (by rw [Nat.zero_add]; exact hsame), h.committed.checkpoints⟩,
    fun hcomplete => absurd hcomplete hstate⟩

end Congruence

/-! ## The invariant of a run -/

section Runs

variable {service : Service} {plan : QueryPlan} {Q : BulkQuery PublicRow} {created : Disk}
variable {s s' : ResumeState} {a : ResumeAction}

/-- The job is a job over one result list of the source it was created over. -/
structure ResumeInvariant (service : Service) (plan : QueryPlan) (Q : BulkQuery PublicRow)
    (created : Disk) (s : ResumeState) : Prop where
  ordered : ∃ ordered,
    IsOrderOf plan.executionOrder.allows (createdRows service plan created) ordered ∧
    JobInvariant Q ((plan.limitOffset ordered).map plan.publicRow) s.job
  readable : s.job.state = .jobComplete → (service.objectRows plan created).isSome = true
  snapshot : service.snapshotId created = .ok s.datasetSnapshotId

theorem recordTotal_le_limitOffset
    {ordered : List Row} {j : QueryJob PublicRow}
    (h : JobInvariant Q ((plan.limitOffset ordered).map plan.publicRow) j) :
    recordTotal j.parts ≤ (plan.limitOffset ordered).length := by
  have hle := h.committed.parts.total_le (Nat.zero_le _)
  rw [Nat.zero_add, List.length_map] at hle
  exact hle

theorem readyToRun.ne_jobComplete
    {ρ : Type} {j : QueryJob ρ} (h : readyToRun j) : j.state ≠ .jobComplete := by
  rcases h with hstate | hstate <;>
    · rw [hstate]
      decide

/-- Under the condition, the rows of an execution go on from what is stored as
some result list does. -/
theorem ResumeInvariant.continued
    (h : ResumeInvariant service plan Q created s)
    (hmeets : MeetsResumeCondition service plan created s .execute) (hready : readyToRun s.job)
    (E : QueryEngine) {rows : List Row} (hread : service.objectRows plan s.disk = some rows) :
    ((plan.executionRows E rows).take (recordTotal s.job.parts)).Perm (storedRows s.job) ∧
    ∃ continued,
      IsOrderOf plan.executionOrder.allows (createdRows service plan created) continued ∧
      JobInvariant Q ((plan.limitOffset continued).map plan.publicRow) s.job ∧
      recordTotal s.job.parts ≤ (plan.executionRows E rows).length ∧
      (plan.executionRows E rows).drop (recordTotal s.job.parts) =
        ((plan.limitOffset continued).map plan.publicRow).drop (recordTotal s.job.parts) := by
  obtain ⟨ordered, hordered, hjob⟩ := h.ordered
  obtain ⟨_, hperm, hties⟩ := hmeets hready rows hread
  have hexecuted : ∀ E, IsOrderOf plan.executionOrder.allows (createdRows service plan created)
      (plan.orderedRows E rows) := by
    intro E
    have horder := isOrderOf_orderedRows plan E rows
    exact ⟨horder.perm.trans hperm, horder.sorted⟩
  have hn := recordTotal_le_limitOffset hjob
  have hlength : (plan.orderedRows E rows).length = ordered.length :=
    ((hexecuted E).perm.trans hordered.perm.symm).length_eq
  have hn' : recordTotal s.job.parts ≤ (plan.executionRows E rows).length := by
    rw [QueryPlan.executionRows, List.length_map, length_limitOffset_congr plan hlength]
    exact hn
  have hstored : storedRows s.job =
      ((plan.limitOffset ordered).take (recordTotal s.job.parts)).map plan.publicRow := by
    rw [storedRows, hjob.committed.parts.contents, window, List.drop_zero, List.map_take]
  rcases Nat.eq_zero_or_pos (recordTotal s.job.parts) with hzero | hpositive
  · refine ⟨?_, plan.orderedRows E rows, hexecuted E, ?_, hn', rfl⟩
    · rw [hstored, hzero]
      exact List.Perm.refl []
    · refine hjob.rows_congr hready.ne_jobComplete ?_
      rw [hzero, List.take_zero, List.take_zero]
  · obtain ⟨hstart, hend⟩ := hties hpositive
    obtain ⟨hskipped, continued, hcontinued, htake, hdrop⟩ :=
      exists_continued_order hordered (hexecuted E) (hexecuted .stable) hn hstart hend
    refine ⟨?_, continued, hcontinued, ?_, hn', ?_⟩
    · rw [hstored, QueryPlan.executionRows, ← List.map_take]
      exact hskipped.map plan.publicRow
    · refine hjob.rows_congr hready.ne_jobComplete ?_
      rw [← List.map_take, ← List.map_take, htake]
    · rw [QueryPlan.executionRows, ← List.map_drop, ← List.map_drop, hdrop]

/-- One step that meets the condition keeps the invariant. -/
theorem ResumeInvariant.step
    (h : ResumeInvariant service plan Q created s)
    (hstep : ResumeStep service plan Q s a s')
    (hmeets : MeetsResumeCondition service plan created s a) :
    ResumeInvariant service plan Q created s' := by
  cases hstep with
  | change spec op => exact ⟨h.ordered, h.readable, h.snapshot⟩
  | @execute rows E execution k read =>
      by_cases hready : readyToRun s.job
      · obtain ⟨_, continued, hcontinued, hjob, hn, hdrop⟩ :=
          h.continued hmeets hready E read
        have hwrites := executionWrites_congr (Q := Q) (by
            rw [List.length_map]
            exact recordTotal_le_limitOffset hjob) hn hdrop execution
        obtain ⟨hreadable, _⟩ := hmeets hready rows read
        refine ⟨⟨continued, hcontinued, ?_⟩, fun _ => hreadable, h.snapshot⟩
        simp only [hwrites]
        exact (hjob.throughout_execution execution).crash k
      · simp only [executionWrites_of_not_ready hready, List.take_nil, after_nil]
        exact h
  | unreadable partRecords k k' read =>
      by_cases hready : readyToRun s.job
      · obtain ⟨ordered, hordered, hjob⟩ := h.ordered
        obtain ⟨k'', hnil⟩ := runRaising_nil (Q := Q) partRecords k
          ((plan.limitOffset ordered).map plan.publicRow) s.job
        have hcrash := (hjob.committed.throughout_runRaising hready partRecords k'').crash k'
        simp only [executionWrites, hnil]
        exact ⟨⟨ordered, hordered, hcrash.invariant⟩,
          fun hcomplete => absurd hcomplete hcrash.2, h.snapshot⟩
      · simp only [executionWrites_of_not_ready hready, List.take_nil, after_nil]
        exact h

/-! ## Runs -/

/-- The state `create_bulk_query_job` leaves. -/
structure ResumeState.Created (service : Service) (s : ResumeState) : Prop where
  job : s.job.Created
  snapshot : service.snapshotId s.disk = .ok s.datasetSnapshotId

/-- A step that meets the condition, for a job created over `created`. -/
def ResumingStep (service : Service) (plan : QueryPlan) (Q : BulkQuery PublicRow)
    (created : Disk) (s s' : ResumeState) : Prop :=
  ∃ a, ResumeStep service plan Q s a s' ∧ MeetsResumeCondition service plan created s a

theorem ResumeInvariant.of_run
    {start : ResumeState} (hcreated : start.Created service)
    (hrun : Relation.ReflTransGen (ResumingStep service plan Q start.disk) start s) :
    ResumeInvariant service plan Q start.disk s := by
  induction hrun with
  | refl =>
      have hstate := hcreated.job.state
      refine ⟨⟨plan.orderedRows .stable ((service.objectRows plan start.disk).getD []),
        isOrderOf_orderedRows plan .stable _, hcreated.job.invariant⟩, ?_, hcreated.snapshot⟩
      intro hcomplete
      rw [hstate] at hcomplete
      cases hcomplete
  | tail _ hlast ih =>
      obtain ⟨a, hstep, hmeets⟩ := hlast
      exact ih.step hstep hmeets

end Runs

/-- In every run of changes and executions, crashed anywhere and on any engine,
whose executions find the rows the job was created over and resume behind no
tie: the rows skipped are the rows stored, and the parts of the completed job
are a result list of the snapshot the job records. -/
theorem resumed_of_run
    (service : Service) (plan : QueryPlan) (Q : BulkQuery PublicRow) {start s : ResumeState}
    (hcreated : start.Created service)
    (hrun : Relation.ReflTransGen (ResumingStep service plan Q start.disk) start s) :
    Resumed service plan start.disk s := by
  have h := ResumeInvariant.of_run hcreated hrun
  obtain ⟨ordered, hordered, hjob⟩ := h.ordered
  have hstored : storedRows s.job = window ((plan.limitOffset ordered).map plan.publicRow) 0
      (recordTotal s.job.parts) :=
    hjob.committed.parts.contents
  refine ⟨⟨ordered, hordered, ?_⟩, ?_, ?_⟩
  · rw [hstored, window, List.drop_zero, List.map_take]
  · intro hmeets hready E rows hread
    exact (h.continued hmeets hready E hread).1
  · intro hcomplete
    obtain ⟨rows, hrows⟩ := Option.isSome_iff_exists.mp (h.readable hcomplete)
    refine ⟨h.snapshot, rows, ordered, hrows, ?_, ?_⟩
    · rw [createdRows, hrows] at hordered
      exact hordered
    · rw [hstored, (hjob.finished hcomplete).total, window, List.drop_zero, List.take_length]

/-! ## A publication between two executions -/

/-- A step of any run. -/
def AnyResumeStep (service : Service) (plan : QueryPlan) (Q : BulkQuery PublicRow)
    (s s' : ResumeState) : Prop :=
  ∃ a, ResumeStep service plan Q s a s'

/-- The parts of `opportunityQuery`. -/
def opportunityExtract : BulkQuery PublicRow where
  columns := ["Id", "StageName"]
  outputDirectory := "bulk/query/750"
  byteSize := fun file => (file.rows.map (fun row =>
    (row.map (fun cell => (cellText cell).length + 1)).sum)).sum
  checksum := fun file => String.join (file.rows.map (fun row =>
    String.join (row.map cellText)))

/-- A job as it is created over two opportunities. -/
def createdResume : ResumeState where
  disk := twoOpportunities
  job := ⟨.uploadComplete, [], ∅, none⟩
  datasetSnapshotId := "/app/seed/crm_opportunities.parquet@4"

theorem created_createdResume : createdResume.Created opportunityService :=
  ⟨⟨rfl, rfl, rfl⟩, by decide +kernel⟩

/-- What `opportunityQuery` finds on a tree. -/
def opportunityRowsOf (disk : Disk) : List Row :=
  (opportunityService.objectRows opportunityQuery disk).getD []

theorem objectRows_of_isSome
    {disk : Disk}
    (h : (opportunityService.objectRows opportunityQuery disk).isSome = true) :
    opportunityService.objectRows opportunityQuery disk = some (opportunityRowsOf disk) := by
  obtain ⟨rows, hrows⟩ := Option.isSome_iff_exists.mp h
  rw [opportunityRowsOf, hrows, Option.getD_some]

/-- The job after `k` writes of an execution with parts of one record. -/
def executedOn (disk : Disk) (k : Nat) (j : QueryJob PublicRow) : QueryJob PublicRow :=
  after QueryJob.write j ((executionWrites opportunityExtract
    (opportunityQuery.executionRows .stable (opportunityRowsOf disk)) (.completes 1) j).take k)

theorem execute_step
    {s : ResumeState}
    (h : (opportunityService.objectRows opportunityQuery s.disk).isSome = true) (k : Nat) :
    ResumeStep opportunityService opportunityQuery opportunityExtract s .execute
      { s with job := executedOn s.disk k s.job } :=
  .execute .stable (.completes 1) k (objectRows_of_isSome h)

/-- The first part is committed, and a second execution writes the rest. -/
theorem resumed_over_unchanged_source :
    ∃ s, s.job.state = .jobComplete ∧ (ResumeState.job s).parts.length = 2 ∧
      Resumed opportunityService opportunityQuery twoOpportunities s := by
  have hsome : (opportunityService.objectRows opportunityQuery twoOpportunities).isSome =
      true := by
    decide +kernel
  have hmeets : ∀ j : QueryJob PublicRow,
      ¬ TieAt opportunityQuery.executionOrder.allows
        (opportunityQuery.orderedRows .stable (opportunityRowsOf twoOpportunities))
        (0 + recordTotal j.parts) →
      MeetsResumeCondition opportunityService opportunityQuery twoOpportunities
        { createdResume with job := j } .execute := by
    intro j hties _ rows hrows
    have hsame := Option.some.inj (hrows.symm.trans (objectRows_of_isSome hsome))
    subst hsame
    refine ⟨hsome, List.Perm.refl _, fun _ => ⟨?_, hties⟩⟩
    rintro ⟨hposition, _⟩
    exact absurd hposition (Nat.lt_irrefl 0)
  refine ⟨_, ?_, ?_, resumed_of_run opportunityService opportunityQuery opportunityExtract
    created_createdResume ((Relation.ReflTransGen.single ⟨.execute,
      execute_step (s := createdResume) hsome 4, hmeets _ ?_⟩).tail ⟨.execute,
        execute_step (s := { createdResume with
          job := executedOn twoOpportunities 4 createdResume.job }) hsome 100,
        hmeets _ ?_⟩)⟩
  all_goals decide +kernel

/-- An opportunity of a smaller id, published after the job was created. -/
def smallerId : TreeOp :=
  .publish (opportunityPartition "2026-07-25")
    [opportunityRow "0060" "Prospecting" "2026-07-25T08:00:00Z"]

/-- The first part is committed, the partition is published, the job resumes: it
skips the new row and stores the first one again. -/
theorem resumed_over_published_partition :
    ¬ ∀ (service : Service) (plan : QueryPlan) (Q : BulkQuery PublicRow)
      (start s : ResumeState), start.Created service →
        Relation.ReflTransGen (AnyResumeStep service plan Q) start s →
          Resumed service plan start.disk s := by
  intro hall
  have hsome : (opportunityService.objectRows opportunityQuery twoOpportunities).isSome =
      true := by
    decide +kernel
  have hsome' : (opportunityService.objectRows opportunityQuery
      (smallerId.run deployedOpportunity firstInScanEngine twoOpportunities)).isSome = true := by
    decide +kernel
  have hresumed := hall opportunityService opportunityQuery opportunityExtract createdResume _
    created_createdResume (((Relation.ReflTransGen.single ⟨.execute,
      execute_step (s := createdResume) hsome 4⟩).tail
        ⟨_, .change deployedOpportunity smallerId⟩).tail ⟨.execute,
          execute_step (s := ⟨smallerId.run deployedOpportunity firstInScanEngine
            twoOpportunities, executedOn twoOpportunities 4 createdResume.job,
            createdResume.datasetSnapshotId⟩) hsome' 100⟩)
  obtain ⟨_, rows, ordered, hrows, hordered, hstored⟩ := hresumed.completed (by decide +kernel)
  have hthree : ∀ stored : List PublicRow, storedRows (executedOn
      (smallerId.run deployedOpportunity firstInScanEngine twoOpportunities) 100
        (executedOn twoOpportunities 4 createdResume.job)) = stored → stored.length = 3 := by
    rintro stored rfl
    decide +kernel
  have htwo : (opportunityRowsOf createdResume.disk).length = 2 := by
    decide +kernel
  have hlength := hthree _ hstored
  have hkept := hordered.perm.length_eq
  have hsame := Option.some.inj (hrows.symm.trans (objectRows_of_isSome hsome))
  subst hsame
  have hall' : (opportunityRowsOf createdResume.disk).filter opportunityQuery.keeps =
      opportunityRowsOf createdResume.disk :=
    List.filter_eq_self.mpr (fun _ _ => rfl)
  rw [hall', htwo] at hkept
  rw [List.length_map] at hlength
  have hlimit : (opportunityQuery.limitOffset ordered).length = ordered.length := rfl
  omega

end FakeForce
end Northwind
