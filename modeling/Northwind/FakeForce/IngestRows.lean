import Northwind.FakeForce.Catalog
import Mathlib.Data.List.Count
import Mathlib.Data.List.ReduceOption

/-!
# Rows of a bulk ingest upload and their outcomes

`csv.DictReader` makes a row of every line after the header; the worker gives
each row an outcome.  `prepareRow` reads the columns, and `batchOutcomes` then
rejects the ids that a batch repeats and the ids that the table holds already.

The upload is given by its CSV lines, each the list of its cells.  The number
and date readers of the standard library and its SHA-1 are parameters.
-/

namespace Northwind
namespace FakeForce

/-- The column types that `_coerce` tells apart. -/
inductive FieldType where
  | boolean
  | integer
  | floating
  | date
  | timestamp
  | other
deriving DecidableEq

structure Field where
  name : String
  type : FieldType
deriving DecidableEq

/-- The part of a dataset specification that ingest reads.  The catalog
accepts an object only if its id field is in the source schema. -/
structure IngestSpec where
  objectName : String
  idField : String
  isMutable : Bool
  schema : List Field
  idField_mem : idField ∈ schema.map Field.name

/-- Readers of the standard library, with the texts of their errors. -/
structure Readers where
  int : String → Except String Value
  float : String → Except String Value
  dateFromisoformat : String → Except String Value
  datetimeFromisoformat : String → Except String Value
  sha1Hexdigest : String → String

structure IngestFileError where
  message : String
deriving DecidableEq

/-- The CSV lines of `input.csv`, and its size on disk. -/
structure CsvUpload where
  lines : List (List String)
  byteSize : Nat
deriving DecidableEq

/-- A dictionary of `csv.DictReader`: its assignments in order, and the cells
under the key `None`. -/
structure CsvRow where
  number : Nat
  cells : List (String × Option String)
  surplus : List String
deriving DecidableEq

/-- `row.get`: the last assignment of a key counts. -/
def CsvRow.get (row : CsvRow) (field : String) : Option String :=
  (row.cells.reverse.lookup field).join

/-- `csv.DictReader.__next__` on one line -/
def dictRow (fieldnames : List String) (number : Nat) (line : List String) : CsvRow where
  number := number
  cells := fieldnames.zip (line.map some) ++
    (fieldnames.drop line.length).map fun field => (field, none)
  surplus := line.drop fieldnames.length

/-- `enumerate(reader, start=1)`; blank lines are skipped. -/
def dictRows (fieldnames : List String) (lines : List (List String)) : List CsvRow :=
  ((lines.filter fun line => line ≠ []).zipIdx 1).map fun line =>
    dictRow fieldnames line.2 line.1

/-- `_validate_header` -/
def validateHeader (fieldnames : Option (List String)) (schemaNames : List String) :
    Except IngestFileError (List String) :=
  match fieldnames with
  | none | some [] => .error ⟨"CSV upload must have a valid header"⟩
  | some names =>
      if "" ∈ names then .error ⟨"CSV upload must have a valid header"⟩
      else
        let unknown := (names.filter fun name => name ∉ schemaNames).dedup
        if unknown ≠ [] then
          .error ⟨"CSV header has unknown fields: " ++
            ", ".intercalate (unknown.insertionSort (· ≤ ·))⟩
        else .ok names

/-- The rows the reader of an upload yields, in order. -/
def readRows (upload : CsvUpload) (schemaNames : List String) :
    Except IngestFileError (List CsvRow) :=
  (validateHeader upload.lines.head? schemaNames).map fun names =>
    dictRows names upload.lines.tail

theorem dictRows_number (fieldnames : List String) (lines : List (List String)) :
    (dictRows fieldnames lines).map CsvRow.number =
      List.range' 1 (dictRows fieldnames lines).length := by
  rw [dictRows, List.map_map, List.length_map, List.length_zipIdx]
  exact (List.zipIdx_map_snd 1 _)

theorem readRows_number
    {upload : CsvUpload} {schemaNames : List String} {rows : List CsvRow}
    (h : readRows upload schemaNames = .ok rows) :
    rows.map CsvRow.number = List.range' 1 rows.length := by
  unfold readRows at h
  cases hheader : validateHeader upload.lines.head? schemaNames with
  | error e =>
      rw [hheader] at h
      simp [Except.map] at h
  | ok names =>
      rw [hheader] at h
      simp only [Except.map, Except.ok.injEq] at h
      subst h
      exact dictRows_number names upload.lines.tail

/-- A stored row: one nullable value for each field of the schema. -/
abbrev TableRow := List (Option Value)

/-- The id column of a stored row. -/
def IngestSpec.storedId (spec : IngestSpec) (row : TableRow) : Option Value :=
  (((spec.schema.map Field.name).zip row).lookup spec.idField).join

inductive RowStatus where
  | success
  | failed
deriving DecidableEq

structure RowOutcome where
  csvRowNumber : Nat
  status : RowStatus
  recordId : Option String
  errorMessage : Option String
  sourceValues : List (String × Option String)
  values : Option TableRow
deriving DecidableEq

/-- What `_coerce` makes of an empty cell. -/
def emptyCell (field : Field) : Option Value :=
  if field.name = "IsDeleted" then some (.flag false) else none

section Preparation

variable (readers : Readers)

/-- The conversions of `_coerce`, by column type. -/
def Readers.convert : FieldType → String → Except String Value
  | .boolean, value =>
      if value.toLower ∈ ["true", "1"] then .ok (.flag true)
      else if value.toLower ∈ ["false", "0"] then .ok (.flag false)
      else .error "must be a boolean"
  | .integer, value => readers.int value
  | .floating, value => readers.float value
  | .date, value => readers.dateFromisoformat value
  | .timestamp, value => readers.datetimeFromisoformat (value.replace "Z" "+00:00")
  | .other, value => .ok (.text value)

/-- `_coerce` -/
def coerce (field : Field) (value : Option String) : Except String (Option Value) :=
  match value with
  | none | some "" => .ok (emptyCell field)
  | some text =>
      match readers.convert field.type text with
      | .ok converted => .ok (some converted)
      | .error message => .error (field.name ++ ": " ++ message)

/-- `_generated_id` -/
def generatedId (jobId : String) (rowNumber : Nat) : String :=
  "001" ++ String.ofList ((readers.sha1Hexdigest s!"{jobId}:{rowNumber}").toList.take 15)

/-- `row.get(spec.id_field) or self._generated_id(job_id, row_number)` -/
def rowId (jobId : String) (spec : IngestSpec) (row : CsvRow) : String :=
  match row.get spec.idField with
  | none | some "" => generatedId readers jobId row.number
  | some recordId => recordId

/-- The `values` tuple of `_prepare_row`. -/
def rowValues (jobId : String) (spec : IngestSpec) (row : CsvRow) :
    Except String TableRow :=
  spec.schema.mapM fun field =>
    if field.name = spec.idField then .ok (some (.text (rowId readers jobId spec row)))
    else coerce readers field (row.get field.name)

/-- `_prepare_row` -/
def prepareRow (jobId : String) (spec : IngestSpec) (row : CsvRow) : RowOutcome :=
  match rowValues readers jobId spec row with
  | .ok values =>
      { csvRowNumber := row.number
        status := .success
        recordId := some (rowId readers jobId spec row)
        errorMessage := none
        sourceValues := row.cells
        values := some values }
  | .error message =>
      { csvRowNumber := row.number
        status := .failed
        recordId := none
        errorMessage := some message
        sourceValues := row.cells
        values := none }

end Preparation

/-- `_as_duplicate` -/
def asDuplicate (outcome : RowOutcome) : RowOutcome where
  csvRowNumber := outcome.csvRowNumber
  status := .failed
  recordId := outcome.recordId
  errorMessage := some "DUPLICATE_VALUE: Id already exists"
  sourceValues := outcome.sourceValues
  values := none

/-- The loop of `_apply_batch` over the valid outcomes: the ids met again. -/
def duplicateIds (seenIds : List String) : List String → List String
  | [] => []
  | recordId :: ids =>
      if recordId ∈ seenIds then recordId :: duplicateIds (recordId :: seenIds) ids
      else duplicateIds (recordId :: seenIds) ids

/-- The ids of the outcomes that carry values. -/
def validIds (outcomes : List RowOutcome) : List String :=
  (outcomes.filter fun outcome => outcome.values.isSome).filterMap RowOutcome.recordId

/-- The ids of a list that the table holds. -/
def existingIds (spec : IngestSpec) (table : List TableRow) (ids : List String) :
    List String :=
  ids.filter fun recordId => some (Value.text recordId) ∈ table.map spec.storedId

/-- The outcomes that `_apply_batch` hands to `_commit_batch`. -/
def batchOutcomes (spec : IngestSpec) (table : List TableRow)
    (outcomes : List RowOutcome) : List RowOutcome :=
  let valid := validIds outcomes
  let duplicates := duplicateIds [] valid
  let existing := existingIds spec table (valid.filter fun recordId => recordId ∉ duplicates)
  if valid = [] then outcomes
  else outcomes.map fun outcome =>
    if ∃ recordId ∈ outcome.recordId, recordId ∈ duplicates ++ existing then
      asDuplicate outcome
    else outcome

/-- The id an outcome would insert. -/
def RowOutcome.key (outcome : RowOutcome) : Option String :=
  if outcome.values.isSome then outcome.recordId else none

/-- Status, values and record id of an outcome fit together: a success carries
a row to insert, and that row has the record id. -/
structure IngestSpec.Consistent (spec : IngestSpec) (outcome : RowOutcome) : Prop where
  success_iff : outcome.status = .success ↔ outcome.values.isSome
  stored : ∀ values ∈ outcome.values, ∃ recordId,
    outcome.recordId = some recordId ∧ spec.storedId values = some (.text recordId)

/-- The column of a mapped schema, when all fields of its name agree on it. -/
theorem lookup_zip_mapM
    {schema : List Field} {f : Field → Except String (Option Value)}
    {values : TableRow} {name : String} {cell : Option Value}
    (hvalues : schema.mapM f = .ok values)
    (hcell : ∀ field ∈ schema, field.name = name → f field = .ok cell)
    (hname : name ∈ schema.map Field.name) :
    ((schema.map Field.name).zip values).lookup name = some cell := by
  have hpairs := (DatasetSpec.mapM_eq_ok_iff f schema values).mp hvalues
  clear hvalues
  induction hpairs with
  | nil => simp at hname
  | @cons field value schema values hfield _ ih =>
      by_cases hhead : field.name = name
      · have hvalue : value = cell := by
          have := hcell field List.mem_cons_self hhead
          rw [hfield] at this
          exact Except.ok.inj this
        simp [hhead, hvalue]
      · have hne : (name == field.name) = false := by
          simpa using fun h => hhead h.symm
        rw [List.map_cons, List.zip_cons_cons, List.lookup_cons, hne]
        refine ih (fun g hg => hcell g (List.mem_cons_of_mem _ hg)) ?_
        rw [List.map_cons, List.mem_cons] at hname
        rcases hname with h | h
        · exact absurd h.symm hhead
        · exact h

section Outcomes

variable {readers : Readers} {jobId : String} {spec : IngestSpec} {row : CsvRow}

theorem storedId_rowValues {values : TableRow}
    (h : rowValues readers jobId spec row = .ok values) :
    spec.storedId values = some (.text (rowId readers jobId spec row)) := by
  rw [IngestSpec.storedId, lookup_zip_mapM h (fun field _ hfield => if_pos hfield)
    spec.idField_mem]
  rfl

@[simp] theorem prepareRow_csvRowNumber :
    (prepareRow readers jobId spec row).csvRowNumber = row.number := by
  unfold prepareRow
  split <;> rfl

theorem prepareRow_consistent : spec.Consistent (prepareRow readers jobId spec row) := by
  unfold prepareRow
  split
  · rename_i values hvalues
    refine ⟨by simp, ?_⟩
    rintro _ ⟨⟩
    exact ⟨_, rfl, storedId_rowValues hvalues⟩
  · exact ⟨by simp, by simp⟩

/-- A row that fails its preparation has no record id. -/
theorem prepareRow_recordId :
    (prepareRow readers jobId spec row).recordId = (prepareRow readers jobId spec row).key := by
  unfold prepareRow
  split <;> rfl

end Outcomes

@[simp] theorem asDuplicate_csvRowNumber (outcome : RowOutcome) :
    (asDuplicate outcome).csvRowNumber = outcome.csvRowNumber :=
  rfl

@[simp] theorem asDuplicate_key (outcome : RowOutcome) : (asDuplicate outcome).key = none :=
  rfl

theorem asDuplicate_consistent (spec : IngestSpec) (outcome : RowOutcome) :
    spec.Consistent (asDuplicate outcome) :=
  ⟨by simp [asDuplicate], by simp [asDuplicate]⟩

theorem mem_duplicateIds_iff (seenIds ids : List String) (recordId : String) :
    recordId ∈ duplicateIds seenIds ids ↔
      (recordId ∈ seenIds ∧ recordId ∈ ids) ∨ 2 ≤ ids.count recordId := by
  induction ids generalizing seenIds with
  | nil => simp [duplicateIds]
  | cons head ids ih =>
      have hcount : recordId ∈ ids ↔ 1 ≤ ids.count recordId := List.count_pos_iff.symm
      by_cases hhead : recordId = head
      · subst hhead
        by_cases hseen : recordId ∈ seenIds
        · simp [duplicateIds, hseen]
        · simp only [duplicateIds, hseen, if_false, ih, List.mem_cons, true_or, true_and,
            false_and, false_or, List.count_cons_self, hcount]
          omega
      · have hskip : recordId ∈ duplicateIds seenIds (head :: ids) ↔
            recordId ∈ duplicateIds (head :: seenIds) ids := by
          rw [duplicateIds]
          split <;> simp [hhead]
        have hcons : (head :: ids).count recordId = ids.count recordId :=
          List.count_cons_of_ne (Ne.symm hhead)
        rw [hskip, ih, hcons]
        simp [hhead]

theorem validIds_eq (outcomes : List RowOutcome) :
    validIds outcomes = (outcomes.map RowOutcome.key).reduceOption := by
  induction outcomes with
  | nil => rfl
  | cons outcome outcomes ih =>
      cases hvalues : outcome.values with
      | none =>
          have hkey : outcome.key = none := by simp [RowOutcome.key, hvalues]
          rw [List.map_cons, hkey, List.reduceOption_cons_of_none, ← ih]
          simp [validIds, hvalues]
      | some values =>
          have hkey : outcome.key = outcome.recordId := by simp [RowOutcome.key, hvalues]
          cases hid : outcome.recordId with
          | none =>
              rw [List.map_cons, hkey, hid, List.reduceOption_cons_of_none, ← ih]
              simp [validIds, hvalues, hid]
          | some recordId =>
              rw [List.map_cons, hkey, hid, List.reduceOption_cons_of_some, ← ih]
              simp [validIds, hvalues, hid]

theorem mem_validIds_iff (outcomes : List RowOutcome) (recordId : String) :
    recordId ∈ validIds outcomes ↔ some recordId ∈ outcomes.map RowOutcome.key := by
  rw [validIds_eq, List.reduceOption_mem_iff]

theorem count_validIds (outcomes : List RowOutcome) (recordId : String) :
    (validIds outcomes).count recordId =
      (outcomes.map RowOutcome.key).count (some recordId) := by
  rw [validIds_eq]
  induction outcomes.map RowOutcome.key with
  | nil => rfl
  | cons key keys ih =>
      cases key with
      | none => simpa using ih
      | some x => simp [List.count_cons, ih]

/-- The ids that a batch turns down. -/
def Rejected (spec : IngestSpec) (table : List TableRow) (outcomes : List RowOutcome)
    (recordId : String) : Prop :=
  (outcomes.map RowOutcome.key).count (some recordId) ≠ 1 ∨
    some (Value.text recordId) ∈ table.map spec.storedId

instance (spec : IngestSpec) (table : List TableRow) (outcomes : List RowOutcome)
    (recordId : String) : Decidable (Rejected spec table outcomes recordId) :=
  inferInstanceAs (Decidable (_ ∨ _))

/-- **What a batch makes of its prepared rows**: the ones whose id it turns
down become duplicates, the others stay. -/
theorem batchOutcomes_eq
    (spec : IngestSpec) (table : List TableRow) {outcomes : List RowOutcome}
    (hprepared : ∀ outcome ∈ outcomes, outcome.recordId = outcome.key) :
    batchOutcomes spec table outcomes =
      outcomes.map fun outcome =>
        if ∃ recordId ∈ outcome.key, Rejected spec table outcomes recordId then
          asDuplicate outcome
        else outcome := by
  have hrejected : ∀ recordId ∈ validIds outcomes,
      (recordId ∈ duplicateIds [] (validIds outcomes) ++
          existingIds spec table ((validIds outcomes).filter
            fun recordId => recordId ∉ duplicateIds [] (validIds outcomes)) ↔
        Rejected spec table outcomes recordId) := by
    intro recordId hmem
    have hpos : 0 < (validIds outcomes).count recordId := List.count_pos_iff.mpr hmem
    simp only [List.mem_append, existingIds, List.mem_filter, mem_duplicateIds_iff,
      List.not_mem_nil, false_and, false_or, decide_eq_true_eq, hmem, true_and, Rejected,
      ← count_validIds]
    by_cases htwo : 2 ≤ (validIds outcomes).count recordId
    · simp only [htwo, true_or, true_iff]
      omega
    · have hone : (validIds outcomes).count recordId = 1 := by omega
      simp [hone]
  have hmap : ∀ outcome ∈ outcomes,
      ((∃ recordId ∈ outcome.recordId,
          recordId ∈ duplicateIds [] (validIds outcomes) ++
            existingIds spec table ((validIds outcomes).filter
              fun recordId => recordId ∉ duplicateIds [] (validIds outcomes))) ↔
        ∃ recordId ∈ outcome.key, Rejected spec table outcomes recordId) := by
    intro outcome hmem
    rw [hprepared outcome hmem]
    refine exists_congr fun recordId => and_congr_right fun hkey => hrejected recordId ?_
    rw [mem_validIds_iff, ← Option.mem_def.mp hkey]
    exact List.mem_map_of_mem hmem
  unfold batchOutcomes
  by_cases hvalid : validIds outcomes = []
  · rw [if_pos hvalid]
    symm
    refine (List.map_congr_left fun outcome hmem => ?_).trans (List.map_id _)
    rw [if_neg]
    · rfl
    · rintro ⟨recordId, hkey, -⟩
      have hin := (mem_validIds_iff outcomes recordId).mpr
        (Option.mem_def.mp hkey ▸ List.mem_map_of_mem hmem)
      rw [hvalid] at hin
      exact List.not_mem_nil hin
  · rw [if_neg hvalid]
    refine List.map_congr_left fun outcome hmem => ?_
    simp only [hmap outcome hmem]

end FakeForce
end Northwind
