import Northwind.FakeForce.BulkIngestRuns

/-!
# What the batch size decides

Two executions of one upload under two batch sizes.  A valid row is inserted
when its id is free and the row is the first one that is alone with its id in
its batch, so repeated ids fare differently when a batch boundary moves.
-/

namespace Northwind
namespace FakeForce

open Batches

namespace BulkIngestWorker

variable (W : BulkIngestWorker)

/-- The worker under another setting of `bulk_ingest_batch_records`. -/
def withBatchRecords (batchRecords : Nat) : BulkIngestWorker :=
  { W with batchRecords := batchRecords }

/-- The id each row of an upload would insert. -/
def rowKeys (spec : IngestSpec) (rows : List CsvRow) : List (Option String) :=
  rows.map fun row => (prepareRow W.readers W.jobId spec row).key

/-- The ids of a table, as texts. -/
def takenIds (spec : IngestSpec) (table : List TableRow) : List String :=
  table.filterMap fun row =>
    match spec.storedId row with
    | some (.text recordId) => some recordId
    | _ => none

theorem mem_takenIds_iff (spec : IngestSpec) (table : List TableRow) (recordId : String) :
    recordId ∈ takenIds spec table ↔ some (Value.text recordId) ∈ table.map spec.storedId := by
  rw [takenIds, List.mem_filterMap, List.mem_map]
  refine exists_congr fun row => and_congr_right fun _ => ?_
  cases spec.storedId row with
  | none => simp
  | some value => cases value <;> simp

variable {W} {input : Option CsvUpload} {initial : List TableRow}

theorem key_of_values {spec : IngestSpec} {outcome : RowOutcome} {values : TableRow}
    (h : spec.Consistent outcome) (hvalues : outcome.values = some values) :
    ∃ recordId, outcome.key = some recordId ∧
      spec.storedId values = some (.text recordId) := by
  obtain ⟨recordId, hid, hstored⟩ := h.stored values hvalues
  exact ⟨recordId, by simp [RowOutcome.key, hvalues, hid], hstored⟩

theorem success_iff_key {spec : IngestSpec} {outcome : RowOutcome}
    (h : spec.Consistent outcome) :
    outcome.status = .success ↔ outcome.key.isSome := by
  rw [h.success_iff]
  cases hvalues : outcome.values with
  | none => simp [RowOutcome.key, hvalues]
  | some values =>
      obtain ⟨recordId, hkey, -⟩ := key_of_values h hvalues
      simp [hkey]

/-- The ids of inserted rows are the keys of their outcomes. -/
theorem mem_storedIds_inserted_iff {spec : IngestSpec} {done : List RowOutcome}
    (h : ∀ outcome ∈ done, spec.Consistent outcome) (recordId : String) :
    some (Value.text recordId) ∈ (done.filterMap RowOutcome.values).map spec.storedId ↔
      some recordId ∈ done.map RowOutcome.key := by
  rw [List.mem_map, List.mem_map]
  constructor
  · rintro ⟨values, hmem, hstored⟩
    obtain ⟨outcome, houtcome, hvalues⟩ := List.mem_filterMap.mp hmem
    obtain ⟨headId, hkey, hstored'⟩ := key_of_values (h outcome houtcome) hvalues
    rw [hstored'] at hstored
    obtain rfl : headId = recordId := by simpa using hstored
    exact ⟨outcome, houtcome, hkey⟩
  · rintro ⟨outcome, houtcome, hkey⟩
    cases hvalues : outcome.values with
    | none => simp [RowOutcome.key, hvalues] at hkey
    | some values =>
        obtain ⟨headId, hkey', hstored⟩ := key_of_values (h outcome houtcome) hvalues
        obtain rfl : headId = recordId := by simpa [hkey'] using hkey
        exact ⟨values, List.mem_filterMap.mpr ⟨outcome, houtcome, hvalues⟩, hstored⟩

/-- What a batch can make of a prepared row. -/
def Settled (prepared outcome : RowOutcome) : Prop :=
  outcome = prepared ∨ outcome = asDuplicate prepared ∧ prepared.key ≠ none

/-- The key tells which of the two a row became. -/
theorem Settled.eq_of_key {prepared outcome outcome' : RowOutcome}
    (h : Settled prepared outcome) (h' : Settled prepared outcome')
    (hkey : outcome.key = outcome'.key) : outcome = outcome' := by
  rcases h with rfl | ⟨rfl, hne⟩ <;> rcases h' with rfl | ⟨rfl, hne'⟩
  · rfl
  · exact absurd hkey hne'
  · exact absurd hkey.symm hne
  · rfl

/-- The status tells it too. -/
theorem Settled.eq_of_status {spec : IngestSpec} {prepared outcome outcome' : RowOutcome}
    (hprepared : spec.Consistent prepared)
    (h : Settled prepared outcome) (h' : Settled prepared outcome')
    (hstatus : outcome.status = outcome'.status) : outcome = outcome' := by
  have hne_status : prepared.key ≠ none → prepared.status ≠ .failed := by
    intro hne hfailed
    have hsuccess := (success_iff_key hprepared).mpr (Option.isSome_iff_ne_none.mpr hne)
    rw [hsuccess] at hfailed
    cases hfailed
  rcases h with rfl | ⟨rfl, hne⟩ <;> rcases h' with rfl | ⟨rfl, hne'⟩
  · rfl
  · exact absurd hstatus (hne_status hne')
  · exact absurd hstatus.symm (hne_status hne)
  · rfl

section Opened

variable {spec : IngestSpec} {rows : List CsvRow}

/-- **The keys that an upload gets in** are the admitted keys of its rows. -/
theorem outcomes_key (hopen : W.openUpload input = .ok (spec, rows)) (b : Nat) :
    (W.outcomes input initial b).map RowOutcome.key =
      admitted (takenIds spec initial) W.batchRecords (W.rowKeys spec rows) b := by
  induction b with
  | zero => simp [admitted]
  | succ b ih =>
      have hconsistent : ∀ outcome ∈ W.outcomes input initial b, spec.Consistent outcome :=
        outcomes_consistent (catalog_of_openUpload hopen) b
      have hsucc : admitted (takenIds spec initial) W.batchRecords (W.rowKeys spec rows) (b + 1) =
          admitted (takenIds spec initial) W.batchRecords (W.rowKeys spec rows) b ++
            admitBatch (takenIds spec initial)
              (admitted (takenIds spec initial) W.batchRecords (W.rowKeys spec rows) b)
              (batch W.batchRecords (W.rowKeys spec rows) b) := folded_succ _ _ _ b
      rw [outcomes_succ hopen, List.map_append, ih, hsucc, applyBatch_key]
      congr 1
      have hkeys : batch W.batchRecords (W.rowKeys spec rows) b =
          ((batch W.batchRecords rows b).map (prepareRow W.readers W.jobId spec)).map
            RowOutcome.key := by
        rw [rowKeys, batch_map, List.map_map]
        rfl
      rw [admitBatch, hkeys, List.map_map, List.map_map]
      refine List.map_congr_left fun row _ => ?_
      refine congrArg (fun p => Option.filter p _) (funext fun recordId => ?_)
      rw [decide_eq_decide, Rejected, ← ih, ← mem_storedIds_inserted_iff hconsistent,
        mem_takenIds_iff, List.map_append, List.mem_append]
      tauto

variable (initial) in
/-- What a row becomes, by its position. -/
theorem getElem?_outcomes (hopen : W.openUpload input = .ok (spec, rows))
    (hsize : 0 < W.batchRecords) {b i : Nat} (hi : i / W.batchRecords < b)
    {row : CsvRow} (hrow : rows[i]? = some row) :
    ∃ outcome, (W.outcomes input initial b)[i]? = some outcome ∧
      Settled (prepareRow W.readers W.jobId spec row) outcome := by
  rw [outcomes_of_open hopen, getElem?_folded (W.ingestBatch spec initial) W.batchRecords rows
    (f := fun done batch row =>
      if ∃ recordId ∈ (prepareRow W.readers W.jobId spec row).key,
          Rejected spec (initial ++ done.filterMap RowOutcome.values)
            (batch.map (prepareRow W.readers W.jobId spec)) recordId then
        asDuplicate (prepareRow W.readers W.jobId spec row)
      else prepareRow W.readers W.jobId spec row)
    (fun done batch => by
      rw [ingestBatch, applyBatch_eq, List.map_map]
      rfl) hsize hi, hrow]
  refine ⟨_, rfl, ?_⟩
  beta_reduce
  split
  · rename_i hreject
    obtain ⟨recordId, hkey, -⟩ := hreject
    exact Or.inr ⟨rfl, by simp [Option.mem_def.mp hkey]⟩
  · exact Or.inl rfl

end Opened

/-- The same rows inserted, and the same status and record id for every CSV row. -/
def SameOutcome (store store' : IngestStore) : Prop :=
  store.table = store'.table ∧
    store.results.map (fun result => (result.csvRowNumber, result.status, result.recordId)) =
      store'.results.map fun result => (result.csvRowNumber, result.status, result.recordId)

/-- For every id that the table lacks, the first row alone with it in its batch
is the same under both sizes. -/
def SameFirstAlone (W : BulkIngestWorker) (spec : IngestSpec) (rows : List CsvRow)
    (initial : List TableRow) (size size' : Nat) : Prop :=
  ∀ (i : Nat) (recordId : String), (W.rowKeys spec rows)[i]? = some (some recordId) →
    some (Value.text recordId) ∉ initial.map spec.storedId →
      (FirstAlone size (W.rowKeys spec rows) i ↔ FirstAlone size' (W.rowKeys spec rows) i)

/-- Alone in every batching: a key without a second position. -/
theorem firstAlone_of_unrepeated {keys : List (Option String)} {i : Nat}
    (hunrepeated : ∀ j, keys[j]? = keys[i]? → j = i) (size : Nat) :
    FirstAlone size keys i := by
  refine ⟨fun j _ hsame => hunrepeated j hsame, fun j hj hsame => ?_⟩
  have := hunrepeated j hsame
  omega

/-- All sizes agree exactly when no valid id outside the table is repeated. -/
theorem sameFirstAlone_forall_iff
    (W : BulkIngestWorker) (spec : IngestSpec) (rows : List CsvRow) (initial : List TableRow) :
    (∀ size size', 1 ≤ size → 1 ≤ size' → W.SameFirstAlone spec rows initial size size') ↔
      ∀ (i j : Nat) (recordId : String), (W.rowKeys spec rows)[i]? = some (some recordId) →
        (W.rowKeys spec rows)[j]? = some (some recordId) →
        some (Value.text recordId) ∉ initial.map spec.storedId → i = j := by
  constructor
  · intro hall i j recordId hi hj hfree
    by_contra hne
    have hsome : ∃ k, (W.rowKeys spec rows)[k]? = some (some recordId) := ⟨i, hi⟩
    have hfirst : FirstAlone 1 (W.rowKeys spec rows) (Nat.find hsome) := by
      refine ⟨fun k hk _ => by simpa using hk, fun k hk hsame => ?_⟩
      exact absurd (hsame.trans (Nat.find_spec hsome)) (Nat.find_min hsome hk)
    have hpos : 1 ≤ (W.rowKeys spec rows).length :=
      Nat.one_le_iff_ne_zero.mpr fun hzero => by
        have := (List.getElem?_eq_some_iff.mp hi).1
        omega
    have hwhole := (hall 1 (W.rowKeys spec rows).length (Nat.le_refl 1) hpos _ recordId
      (Nat.find_spec hsome) hfree).mp hfirst
    have hone : ∀ k, (W.rowKeys spec rows)[k]? = some (some recordId) →
        k = Nat.find hsome := by
      intro k hk
      refine hwhole.1 k ?_ (hk.trans (Nat.find_spec hsome).symm)
      rw [Nat.div_eq_of_lt (List.getElem?_eq_some_iff.mp hk).1,
        Nat.div_eq_of_lt (List.getElem?_eq_some_iff.mp (Nat.find_spec hsome)).1]
    exact hne ((hone i hi).trans (hone j hj).symm)
  · intro hunrepeated size size' _ _ i recordId hkey hfree
    have hone : ∀ j, (W.rowKeys spec rows)[j]? = (W.rowKeys spec rows)[i]? → j = i :=
      fun j hj => hunrepeated j i recordId (hj.trans hkey) hkey hfree
    exact iff_of_true (firstAlone_of_unrepeated hone size) (firstAlone_of_unrepeated hone size')

section Completed

variable {start s s' : IngestState} {size size' : Nat}

/-- A completed run has stored the outcomes of the whole upload. -/
theorem completed_of_run (hsize : 1 ≤ W.batchRecords) (hcreated : W.Created start)
    (hrun : Relation.ReflTransGen (W.AnyIngestStep input) start s)
    (hcomplete : s.store.state = .jobComplete) :
    ∃ spec rows b, W.openUpload input = .ok (spec, rows) ∧
      rows.length ≤ W.batchRecords * b ∧ W.StoreAfter input start.store.table b s.store := by
  obtain ⟨b, h⟩ := invariant_of_run hsize hcreated hrun
  obtain ⟨-, spec, rows, hopen, hcover⟩ := h.completed hcomplete
  exact ⟨spec, rows, b, hopen, hcover, h.store⟩

theorem div_lt_of_covered {rows : List CsvRow} {b i : Nat} (hsize : 0 < size)
    (hcover : rows.length ≤ size * b) (hi : i < rows.length) : i / size < b := by
  rw [Nat.div_lt_iff_lt_mul hsize, Nat.mul_comm]
  omega

/-- Position by position, the key of an outcome is the key of its row if the
row is the first one alone, and no key otherwise. -/
theorem getElem?_outcomes_key {spec : IngestSpec} {rows : List CsvRow}
    (hopen : W.openUpload input = .ok (spec, rows)) (hsize : 0 < W.batchRecords)
    {b i : Nat} (hi : i / W.batchRecords < b) {recordId : String}
    (hkey : (W.rowKeys spec rows)[i]? = some (some recordId)) :
    ((W.outcomes input initial b).map RowOutcome.key)[i]? = some (some recordId) ↔
      some (Value.text recordId) ∉ initial.map spec.storedId ∧
        FirstAlone W.batchRecords (W.rowKeys spec rows) i := by
  rw [outcomes_key hopen, ← mem_takenIds_iff]
  by_cases htaken : recordId ∈ takenIds spec initial
  · rw [getElem?_admitted _ _ _ hsize hi]
    simp [htaken]
  · rw [admitted_iff_firstAlone _ hsize hi htaken hkey]
    simp [htaken]

section Compared

variable {spec : IngestSpec} {rows : List CsvRow} {b b' : Nat}
variable (hopen : W.openUpload input = .ok (spec, rows))
variable (hsize : 1 ≤ size) (hsize' : 1 ≤ size')
variable (hcover : rows.length ≤ size * b) (hcover' : rows.length ≤ size' * b')
include hopen hsize hsize' hcover hcover'

/-- Two lists of outcomes are the same if they are so row by row. -/
theorem outcomes_ext
    (hrows : ∀ (i : Nat) (row : CsvRow) (outcome outcome' : RowOutcome), rows[i]? = some row →
      ((W.withBatchRecords size).outcomes input initial b)[i]? = some outcome →
      ((W.withBatchRecords size').outcomes input initial b')[i]? = some outcome' →
      Settled (prepareRow W.readers W.jobId spec row) outcome →
      Settled (prepareRow W.readers W.jobId spec row) outcome' → outcome = outcome') :
    (W.withBatchRecords size).outcomes input initial b =
      (W.withBatchRecords size').outcomes input initial b' := by
  have hlength := length_outcomes (W := W.withBatchRecords size) initial hopen b
  have hlength' := length_outcomes (W := W.withBatchRecords size') initial hopen b'
  change _ = min (size * b) _ at hlength
  change _ = min (size' * b') _ at hlength'
  refine List.ext_getElem? fun i => ?_
  by_cases hi : i < rows.length
  · obtain ⟨row, hrow⟩ : ∃ row, rows[i]? = some row := ⟨_, List.getElem?_eq_getElem hi⟩
    obtain ⟨outcome, hget, hsettled⟩ := getElem?_outcomes (W := W.withBatchRecords size)
      initial hopen hsize (div_lt_of_covered hsize hcover hi) hrow
    obtain ⟨outcome', hget', hsettled'⟩ := getElem?_outcomes (W := W.withBatchRecords size')
      initial hopen hsize' (div_lt_of_covered hsize' hcover' hi) hrow
    rw [hget, hget', hrows i row outcome outcome' hrow hget hget' hsettled hsettled']
  · rw [List.getElem?_eq_none (by omega), List.getElem?_eq_none (by omega)]

variable (initial) in
/-- Both sizes give a row with a free id that id exactly if it is first alone. -/
theorem getElem?_outcomes_keys {i : Nat} {recordId : String}
    (hkey : (W.rowKeys spec rows)[i]? = some (some recordId)) :
    ((((W.withBatchRecords size).outcomes input initial b).map RowOutcome.key)[i]? =
        some (some recordId) ↔
      some (Value.text recordId) ∉ initial.map spec.storedId ∧
        FirstAlone size (W.rowKeys spec rows) i) ∧
    ((((W.withBatchRecords size').outcomes input initial b').map RowOutcome.key)[i]? =
        some (some recordId) ↔
      some (Value.text recordId) ∉ initial.map spec.storedId ∧
        FirstAlone size' (W.rowKeys spec rows) i) := by
  have hi : i < rows.length := by
    simpa [rowKeys] using (List.getElem?_eq_some_iff.mp hkey).1
  exact ⟨getElem?_outcomes_key (W := W.withBatchRecords size) hopen hsize
      (div_lt_of_covered hsize hcover hi) hkey,
    getElem?_outcomes_key (W := W.withBatchRecords size') hopen hsize'
      (div_lt_of_covered hsize' hcover' hi) hkey⟩

/-- The outcomes agree when every id has the same first row alone. -/
theorem outcomes_eq_iff :
    (W.withBatchRecords size).outcomes input initial b =
        (W.withBatchRecords size').outcomes input initial b' ↔
      SameFirstAlone W spec rows initial size size' := by
  constructor
  · intro hsame i recordId hkey hfree
    obtain ⟨hfirst, hfirst'⟩ := getElem?_outcomes_keys initial hopen hsize hsize' hcover hcover' hkey
    rw [hsame] at hfirst
    simpa [hfree] using hfirst.symm.trans hfirst'
  · intro hsame
    refine outcomes_ext hopen hsize hsize' hcover hcover' ?_
    intro i row outcome outcome' hrow hget hget' hsettled hsettled'
    refine hsettled.eq_of_key hsettled' ?_
    cases hkey : (prepareRow W.readers W.jobId spec row).key with
    | none =>
        have hunkeyed : ∀ {o}, Settled (prepareRow W.readers W.jobId spec row) o →
            o.key = none := by
          rintro o (rfl | ⟨rfl, hne⟩)
          · exact hkey
          · exact absurd hkey hne
        rw [hunkeyed hsettled, hunkeyed hsettled']
    | some recordId =>
        have hrowKey : (W.rowKeys spec rows)[i]? = some (some recordId) := by
          rw [rowKeys, List.getElem?_map, hrow, Option.map_some, hkey]
        obtain ⟨hfirst, hfirst'⟩ :=
          getElem?_outcomes_keys initial hopen hsize hsize' hcover hcover' hrowKey
        rw [List.getElem?_map, hget, Option.map_some, Option.some.injEq] at hfirst
        rw [List.getElem?_map, hget', Option.map_some, Option.some.injEq] at hfirst'
        have hboth : outcome.key = some recordId ↔ outcome'.key = some recordId := by
          rw [hfirst, hfirst']
          exact and_congr_right fun hfree => hsame i recordId hrowKey hfree
        rcases hsettled with rfl | ⟨rfl, -⟩ <;> rcases hsettled' with rfl | ⟨rfl, -⟩
        · rfl
        · exact absurd (hboth.mp hkey) (by simp)
        · exact absurd (hboth.mpr hkey) (by simp)
        · rfl

/-- **Two batch sizes agree** exactly when every id that the table lacks has the
same first row alone in its batch. -/
theorem sameOutcome_iff {store store' : IngestStore}
    (h : (W.withBatchRecords size).StoreAfter input initial b store)
    (h' : (W.withBatchRecords size').StoreAfter input initial b' store') :
    SameOutcome store store' ↔ SameFirstAlone W spec rows initial size size' := by
  rw [← outcomes_eq_iff hopen hsize hsize' hcover hcover']
  constructor
  · rintro ⟨-, hresults⟩
    refine outcomes_ext hopen hsize hsize' hcover hcover' ?_
    intro i row outcome outcome' hrow hget hget' hsettled hsettled'
    refine hsettled.eq_of_status prepareRow_consistent hsettled' ?_
    have hrow := congrArg (fun results => results[i]?) hresults
    simp only [h.results, h'.results, List.getElem?_map, hget, hget', Option.map_some,
      Option.some.injEq, Prod.mk.injEq] at hrow
    exact hrow.2.1
  · intro hsame
    exact ⟨by rw [h.table, h'.table, hsame], by rw [h.results, h'.results, hsame]⟩

end Compared

/-- **The outcome of two completed jobs** over one upload and one table. -/
theorem same_outcome_iff_of_runs
    (hsize : 1 ≤ size) (hsize' : 1 ≤ size') (hcreated : W.Created start)
    (hrun : Relation.ReflTransGen ((W.withBatchRecords size).AnyIngestStep input) start s)
    (hrun' : Relation.ReflTransGen ((W.withBatchRecords size').AnyIngestStep input) start s')
    (hcomplete : s.store.state = .jobComplete) (hcomplete' : s'.store.state = .jobComplete) :
    SameOutcome s.store s'.store ↔
      ∀ spec rows, W.openUpload input = .ok (spec, rows) →
        SameFirstAlone W spec rows start.store.table size size' := by
  have hstart : (W.withBatchRecords size).Created start :=
    ⟨hcreated.phase, hcreated.state, hcreated.results, hcreated.checkpoints, hcreated.unique⟩
  have hstart' : (W.withBatchRecords size').Created start :=
    ⟨hcreated.phase, hcreated.state, hcreated.results, hcreated.checkpoints, hcreated.unique⟩
  obtain ⟨spec, rows, b, hopen, hcover, hstore⟩ := completed_of_run hsize hstart hrun hcomplete
  obtain ⟨spec', rows', b', hopen', hcover', hstore'⟩ :=
    completed_of_run hsize' hstart' hrun' hcomplete'
  change W.openUpload input = .ok (spec, rows) at hopen
  change W.openUpload input = .ok (spec', rows') at hopen'
  have hpair := Except.ok.inj (hopen.symm.trans hopen')
  simp only [Prod.mk.injEq] at hpair
  obtain ⟨rfl, rfl⟩ := hpair
  rw [sameOutcome_iff hopen hsize hsize' hcover hcover' hstore hstore']
  constructor
  · intro h spec' rows' hopen'
    have hpair := Except.ok.inj (hopen.symm.trans hopen')
    simp only [Prod.mk.injEq] at hpair
    obtain ⟨rfl, rfl⟩ := hpair
    exact h
  · exact fun h => h spec rows hopen

end Completed

/-- Two rows under two new ids. -/
def distinctIds : CsvUpload where
  lines := [["Id", "Name"], ["002", "New"], ["003", "Other"]]
  byteSize := 26

/-- Completed runs of an upload under the worker `accountWorker`. -/
theorem exists_completed_accountJob
    {upload : CsvUpload} {rows : List CsvRow} (batchRecords : Nat) (hsize : 1 ≤ batchRecords)
    (hopen : (accountWorker 1).openUpload (some upload) = .ok (accountIngest, rows))
    (hfit : ∀ row ∈ rows, row.surplus = []) :
    ∃ s, Relation.ReflTransGen
        (((accountWorker 1).withBatchRecords batchRecords).AnyIngestStep (some upload))
        createdAccountJob s ∧ s.store.state = .jobComplete :=
  (created_createdAccountJob batchRecords).exists_completed
    (W := (accountWorker 1).withBatchRecords batchRecords) hsize rfl hopen hfit

theorem same_outcome_of_distinct_ids :
    ∃ s s', Relation.ReflTransGen
        (((accountWorker 1).withBatchRecords 1).AnyIngestStep (some distinctIds))
        createdAccountJob s ∧
      Relation.ReflTransGen
        (((accountWorker 1).withBatchRecords 2).AnyIngestStep (some distinctIds))
        createdAccountJob s' ∧
      s.store.state = .jobComplete ∧ s'.store.state = .jobComplete ∧
      SameOutcome s.store s'.store := by
  have hopen : (accountWorker 1).openUpload (some distinctIds) =
      .ok (accountIngest, dictRows ["Id", "Name"] distinctIds.lines.tail) := rfl
  have hfit : ∀ row ∈ dictRows ["Id", "Name"] distinctIds.lines.tail, row.surplus = [] := by
    decide
  obtain ⟨s, hrun, hcomplete⟩ := exists_completed_accountJob 1 (by decide) hopen hfit
  obtain ⟨s', hrun', hcomplete'⟩ := exists_completed_accountJob 2 (by decide) hopen hfit
  refine ⟨s, s', hrun, hrun', hcomplete, hcomplete', ?_⟩
  refine (same_outcome_iff_of_runs (by decide) (by decide) (created_createdAccountJob 1)
    hrun hrun' hcomplete hcomplete').mpr ?_
  intro spec rows hopened
  obtain ⟨rfl, rfl⟩ : accountIngest = spec ∧
      dictRows ["Id", "Name"] distinctIds.lines.tail = rows := by
    simpa using Except.ok.inj (hopen.symm.trans hopened)
  have hkeys : (accountWorker 1).rowKeys accountIngest
      (dictRows ["Id", "Name"] distinctIds.lines.tail) = [some "002", some "003"] := by
    decide +kernel
  refine (sameFirstAlone_forall_iff _ _ _ _).mpr ?_ 1 2 (by decide) (by decide)
  rw [hkeys]
  intro i j recordId hi hj _
  have hnodup : [some "002", some "003"].Nodup := by decide
  obtain ⟨hlt, hi⟩ := List.getElem?_eq_some_iff.mp hi
  obtain ⟨hlt', hj⟩ := List.getElem?_eq_some_iff.mp hj
  exact (List.Nodup.getElem_inj_iff hnodup).mp (hi.trans hj.symm)

/-- A repeated id: with batches of one row the first row is inserted, with
batches of two both rows fail. -/
theorem outcome_depends_on_batch_size :
    ¬ ∀ (W : BulkIngestWorker) (input : Option CsvUpload) (start s s' : IngestState)
      (size size' : Nat), 1 ≤ size → 1 ≤ size' → W.Created start →
      Relation.ReflTransGen ((W.withBatchRecords size).AnyIngestStep input) start s →
      Relation.ReflTransGen ((W.withBatchRecords size').AnyIngestStep input) start s' →
      s.store.state = .jobComplete → s'.store.state = .jobComplete →
        SameOutcome s.store s'.store := by
  intro hall
  have hopen : (accountWorker 1).openUpload (some repeatedId) =
      .ok (accountIngest, dictRows ["Id", "Name"] repeatedId.lines.tail) := rfl
  have hfit : ∀ row ∈ dictRows ["Id", "Name"] repeatedId.lines.tail, row.surplus = [] := by
    decide
  obtain ⟨s, hrun, hcomplete⟩ := exists_completed_accountJob 1 (by decide) hopen hfit
  obtain ⟨s', hrun', hcomplete'⟩ := exists_completed_accountJob 2 (by decide) hopen hfit
  have hsame := hall (accountWorker 1) (some repeatedId) createdAccountJob s s' 1 2 (by decide)
    (by decide) (created_createdAccountJob 1) hrun hrun' hcomplete hcomplete'
  obtain ⟨_, _, b, hopened, hcover, hstore⟩ :=
    completed_of_run (by decide) (created_createdAccountJob 1) hrun hcomplete
  obtain ⟨_, _, b', hopened', hcover', hstore'⟩ :=
    completed_of_run (by decide) (created_createdAccountJob 2) hrun' hcomplete'
  obtain ⟨rfl, rfl⟩ := Prod.mk.inj (Except.ok.inj (hopen.symm.trans hopened))
  obtain ⟨-, rfl⟩ := Prod.mk.inj (Except.ok.inj (hopen.symm.trans hopened'))
  have hfirst := (sameOutcome_iff hopen (Nat.le_refl 1) (show 1 ≤ 2 by decide) hcover hcover'
    hstore hstore').mp hsame 0 "002" (by decide +kernel) (by decide +kernel)
  have hkeys : (accountWorker 1).rowKeys accountIngest
      (dictRows ["Id", "Name"] repeatedId.lines.tail) = [some "002", some "002"] := by
    decide +kernel
  rw [hkeys] at hfirst
  have halone : FirstAlone 1 [some "002", some "002"] 0 :=
    ⟨fun j hj _ => by simpa using hj, fun j hj => absurd hj (Nat.not_lt_zero j)⟩
  exact absurd ((hfirst.mp halone).1 1 rfl rfl) (by decide)

end BulkIngestWorker

end FakeForce
end Northwind
