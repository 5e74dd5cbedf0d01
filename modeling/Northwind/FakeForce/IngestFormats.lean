import Northwind.FakeForce.BulkIngest
import Northwind.FakeForce.BulkQueryResults
import Northwind.Library.CsvReading

/-!
# The delimiter and the line ending of an ingest job

Creation checks both options and stores them with the job.  The worker reads the
upload with `csv.DictReader` in its default dialect, whatever was stored: lines
may end either way, but the delimiter is the comma.

A table is serialised with some of its cells quoted; those that need quotes
with the delimiter of the job have them.
-/

namespace Northwind
namespace FakeForce

open CsvText

/-! ## Creation -/

inductive LineEnding where
  | lf
  | crlf
deriving DecidableEq

inductive ColumnDelimiter where
  | comma
  | tab
  | pipe
  | semicolon
deriving DecidableEq

/-- A value of the request's JSON: a text, a list or an object, or anything else. -/
inductive PayloadValue where
  | text (value : String)
  | unhashable
  | other
deriving DecidableEq

def LineEnding.ofPayload : PayloadValue → Option LineEnding
  | .text "LF" => some .lf
  | .text "CRLF" => some .crlf
  | _ => none

def ColumnDelimiter.ofPayload : PayloadValue → Option ColumnDelimiter
  | .text "COMMA" => some .comma
  | .text "TAB" => some .tab
  | .text "PIPE" => some .pipe
  | .text "SEMICOLON" => some .semicolon
  | _ => none

/-- `IngestConfiguration`; operation and content type have one value each. -/
structure IngestConfiguration where
  objectName : String
  lineEnding : LineEnding
  columnDelimiter : ColumnDelimiter
deriving DecidableEq

inductive IngestCreateError where
  | validation (code message : String)
  /-- a list or an object looked up in a set -/
  | typeError
deriving DecidableEq

/-- `value not in {…}`, with the error of a value that cannot be looked up. -/
def chosen {α : Type} (read : PayloadValue → Option α) (message : String)
    (value : PayloadValue) : Except IngestCreateError α :=
  match read value with
  | some choice => .ok choice
  | none =>
      if value = .unhashable then .error .typeError else .error (.validation "INVALIDJOB" message)

/-- `validate_ingest_create` -/
def validateIngestCreate (payload : String → Option PayloadValue)
    (catalog : String → Option IngestSpec) : Except IngestCreateError IngestConfiguration :=
  match payload "object" with
  | some (.text objectName) =>
      if objectName = "" then .error (.validation "INVALIDJOB" "Bulk ingest jobs require an object")
      else match catalog objectName with
        | none => .error (.validation "NOT_FOUND" ("Unknown configured object: " ++ objectName))
        | some spec =>
            if spec.isMutable = false then
              .error (.validation "INVALIDJOB" (objectName ++ " is not configured for ingest"))
            else if payload "operation" ≠ some (.text "insert") then
              .error (.validation "INVALIDJOB" "only insert ingest operation is currently supported")
            else if (payload "contentType").getD (.text "CSV") ≠ .text "CSV" then
              .error (.validation "INVALIDJOB" "only CSV ingest content is currently supported")
            else do
              let lineEnding ← chosen LineEnding.ofPayload "unsupported CSV line ending"
                ((payload "lineEnding").getD (.text "LF"))
              let columnDelimiter ← chosen ColumnDelimiter.ofPayload
                "unsupported CSV column delimiter"
                ((payload "columnDelimiter").getD (.text "COMMA"))
              .ok ⟨objectName, lineEnding, columnDelimiter⟩
  | _ => .error (.validation "INVALIDJOB" "Bulk ingest jobs require an object")

/-! ## Uploads -/

def LineEnding.text : LineEnding → List Char
  | .lf => ['\n']
  | .crlf => ['\r', '\n']

def ColumnDelimiter.char : ColumnDelimiter → Char
  | .comma => ','
  | .tab => '\t'
  | .pipe => '|'
  | .semicolon => ';'

/-- What a client of the job writes with. -/
def ColumnDelimiter.dialect (delimiter : ColumnDelimiter) : Dialect where
  delimiter := delimiter.char
  fieldLimit := excel.fieldLimit
  delimiter_ne_quote := by cases delimiter <;> decide
  delimiter_ne_newline := by cases delimiter <;> decide
  delimiter_ne_return := by cases delimiter <;> decide

/-- The field texts of a row of cells. -/
def fieldTexts (cells : List Cell) : List String :=
  cells.map fun cell => String.ofList cell.value

/-- A table over the fields of an object, as it is serialised with a delimiter. -/
structure SerializedTable (delimiter : ColumnDelimiter) (schemaNames : List String) where
  columns : List Cell
  rows : List (List Cell)
  columns_ne_nil : columns ≠ []
  columns_subset : fieldTexts columns ⊆ schemaNames
  columns_nodup : (fieldTexts columns).Nodup
  width : ∀ row ∈ rows, row.length = columns.length
  quoted : ∀ row ∈ columns :: rows, ∀ cell ∈ row,
    needsQuotes delimiter.dialect cell.value = true → cell.quoted = true

namespace SerializedTable

variable {delimiter : ColumnDelimiter} {schemaNames : List String}

/-- The upload: the header and the rows, every line with its ending. -/
def text (table : SerializedTable delimiter schemaNames) (lineEnding : LineEnding) : List Char :=
  (table.columns :: table.rows).flatMap fun row =>
    rowText delimiter.dialect row ++ lineEnding.text

/-- The rows that the worker is to process, numbered, with the values of the table. -/
def csvRows (table : SerializedTable delimiter schemaNames) : List CsvRow :=
  (table.rows.zipIdx 1).map fun row =>
    dictRow (fieldTexts table.columns) row.2 (fieldTexts row.1)

end SerializedTable

/-- The upload as `csv.DictReader` finds it; `none` where the reader raises. -/
def readUpload (text : List Char) : Option CsvUpload :=
  match readText excel text with
  | (lines, none) => some ⟨lines.map (List.map String.ofList), (String.ofList text).utf8ByteSize⟩
  | (_, some _) => none

/-- The worker opens the upload with the columns and exactly the rows of the table. -/
def Honoured (W : BulkIngestWorker) (config : IngestConfiguration) (spec : IngestSpec)
    (table : SerializedTable config.columnDelimiter (spec.schema.map Field.name)) : Prop :=
  ∃ upload, readUpload (table.text config.lineEnding) = some upload ∧
    upload.lines.head? = some (fieldTexts table.columns) ∧
    W.openUpload (some upload) = .ok (spec, table.csvRows)

/-- The tables that a reader of commas finds as they are: the delimiter is the comma,
or there is one column and no comma stands outside quotes; no column without a name;
no row that is a blank line; no field beyond the limit of the reader. -/
structure ReadsAlike (config : IngestConfiguration) {schemaNames : List String}
    (table : SerializedTable config.columnDelimiter schemaNames) : Prop where
  delimiter : config.columnDelimiter = .comma ∨ (table.columns.length = 1 ∧
    ∀ row ∈ table.columns :: table.rows, ∀ cell ∈ row, ',' ∈ cell.value → cell.quoted = true)
  named : ∀ cell ∈ table.columns, cell.value ≠ []
  notBlank : blankRow ∉ table.rows
  lengths : ∀ row ∈ table.columns :: table.rows, ∀ cell ∈ row,
    cell.value.length ≤ excel.fieldLimit

/-! ## What the reader finds -/

theorem isLineEnd_text (lineEnding : LineEnding) : IsLineEnd lineEnding.text := by
  cases lineEnding with
  | lf => exact .inl rfl
  | crlf => exact .inr rfl

theorem readUpload_eq_some_iff {text : List Char} {upload : CsvUpload} :
    readUpload text = some upload ↔ ∃ lines, readText excel text = (lines, none) ∧
      upload = ⟨lines.map (List.map String.ofList), (String.ofList text).utf8ByteSize⟩ := by
  unfold readUpload
  rcases hread : readText excel text with ⟨lines, _ | error⟩
  · simp [eq_comm]
  · simp

theorem ofList_map_injective :
    Function.Injective (List.map String.ofList) := by
  refine List.map_injective_iff.mpr fun cs cs' h => ?_
  have hlist := congrArg String.toList h
  rwa [String.toList_ofList, String.toList_ofList] at hlist

theorem fieldTexts_eq (cells : List Cell) :
    fieldTexts cells = (cells.map Cell.value).map String.ofList := by
  rw [fieldTexts, List.map_map]
  rfl

/-- A line that makes the dictionary of a row of full width is that row. -/
theorem dictRow_inj {fieldnames line row : List String} {number : Nat}
    (hwidth : row.length = fieldnames.length)
    (h : dictRow fieldnames number line = dictRow fieldnames number row) : line = row := by
  -- the values of the dictionary, without the keys that are missing a cell
  have hvalues : ∀ l : List String, l.length ≤ fieldnames.length →
      ((dictRow fieldnames number l).cells.map Prod.snd).filterMap id = l := by
    intro l hl
    rw [dictRow, List.map_append, List.map_snd_zip (by rw [List.length_map]; exact hl),
      List.map_map, List.filterMap_append, List.filterMap_map, List.filterMap_map]
    have hnone : (fieldnames.drop l.length).filterMap
        (id ∘ (Prod.snd ∘ fun field => (field, (none : Option String)))) = [] :=
      List.filterMap_eq_nil_iff.mpr fun _ _ => rfl
    rw [hnone, List.append_nil]
    exact List.filterMap_some
  have hsurplus := congrArg CsvRow.surplus h
  change line.drop fieldnames.length = row.drop fieldnames.length at hsurplus
  rw [← hwidth, List.drop_length, List.drop_eq_nil_iff, hwidth] at hsurplus
  rw [← hvalues line hsurplus, h, hvalues row hwidth.le]

theorem dictRows_inj {fieldnames : List String} {lines rows : List (List String)} {first : Nat}
    (hwidth : ∀ row ∈ rows, row.length = fieldnames.length)
    (h : (lines.zipIdx first).map (fun line => dictRow fieldnames line.2 line.1) =
      (rows.zipIdx first).map fun row => dictRow fieldnames row.2 row.1) :
    lines = rows := by
  induction rows generalizing lines first with
  | nil =>
      rw [List.zipIdx_nil, List.map_nil, List.map_eq_nil_iff, List.zipIdx_eq_nil_iff] at h
      exact h
  | cons row rows ih =>
      cases lines with
      | nil => simp at h
      | cons line lines =>
          rw [List.zipIdx_cons, List.zipIdx_cons, List.map_cons, List.map_cons] at h
          obtain ⟨hrow, hrest⟩ := List.cons.inj h
          have hline : line = row := dictRow_inj (hwidth row List.mem_cons_self) hrow
          rw [hline, ih (fun row hrow => hwidth row (List.mem_cons_of_mem _ hrow)) hrest]

/-! ## Rows as a reader of commas finds them -/

/-- No comma stands outside quotes. -/
def Plain (row : List Cell) : Prop :=
  ∀ cell ∈ row, ',' ∈ cell.value → cell.quoted = true

/-- A row as the cells between its commas. -/
def commaRow (row : List Cell) : List Cell :=
  row.flatMap (Cell.pieces ',')

section CommaRow

variable {delimiter : ColumnDelimiter} {row : List Cell}

theorem commaRow_of_plain (h : Plain row) : commaRow row = row := by
  rw [commaRow, List.flatMap_congr fun cell hcell => cell_pieces_of_plain (h cell hcell)]
  exact List.flatMap_singleton' row

theorem Plain.of_comma (hcomma : delimiter = .comma)
    (hquoted : ∀ cell ∈ row, needsQuotes delimiter.dialect cell.value = true →
      cell.quoted = true) : Plain row := by
  subst hcomma
  intro cell hcell hmem
  refine hquoted cell hcell (List.any_eq_true.mpr ⟨',', hmem, ?_⟩)
  simp [ColumnDelimiter.dialect, ColumnDelimiter.char]

variable (hrow : delimiter = .comma ∨ row.length = 1)
variable (hquoted : ∀ cell ∈ row, needsQuotes delimiter.dialect cell.value = true →
  cell.quoted = true)

include hrow hquoted

theorem rowText_commaRow : rowText excel (commaRow row) = rowText delimiter.dialect row := by
  rcases hrow with hcomma | hone
  · rw [commaRow_of_plain (.of_comma hcomma hquoted)]
    subst hcomma
    exact rowText_congr rfl row
  · obtain ⟨cell, rfl⟩ := List.length_eq_one_iff.mp hone
    rw [commaRow, List.flatMap_singleton]
    exact rowText_cell_pieces excel cell

theorem recordOf_commaRow_iff :
    recordOf (commaRow row) = row.map Cell.value ↔ row ≠ blankRow ∧ Plain row := by
  rcases hrow with hcomma | hone
  · have hplain := Plain.of_comma hcomma hquoted
    rw [commaRow_of_plain hplain, recordOf]
    by_cases hblank : row = blankRow
    · simp [hblank, blankRow]
    · simp [hblank, hplain]
  · obtain ⟨cell, rfl⟩ := List.length_eq_one_iff.mp hone
    rw [commaRow, List.flatMap_singleton, List.map_singleton, recordOf_cell_pieces]
    simp [blankRow, Plain]

end CommaRow

section Honoured

variable {W : BulkIngestWorker} {config : IngestConfiguration} {spec : IngestSpec}
variable {table : SerializedTable config.columnDelimiter (spec.schema.map Field.name)}

theorem validateHeader_eq_ok_iff {names schemaNames names' : List String} (hne : names ≠ [])
    (hsub : names ⊆ schemaNames) :
    validateHeader (some names) schemaNames = .ok names' ↔ "" ∉ names ∧ names' = names := by
  have hknown : (names.filter fun name => name ∉ schemaNames).dedup = [] := by
    rw [List.dedup_eq_nil, List.filter_eq_nil_iff]
    intro name hname
    simpa using hsub hname
  cases names with
  | nil => exact absurd rfl hne
  | cons name names =>
      by_cases hempty : "" ∈ name :: names
      · simp only [validateHeader, hempty, if_true, not_true_eq_false, false_and, iff_false]
        exact nofun
      · simp only [validateHeader, hempty, if_false, hknown, ne_eq, not_true_eq_false,
          not_false_eq_true, true_and, Except.ok.injEq]
        exact eq_comm

theorem SerializedTable.csvRows_eq :
    table.csvRows = ((table.rows.map fieldTexts).zipIdx 1).map fun row =>
      dictRow (fieldTexts table.columns) row.2 row.1 := by
  rw [SerializedTable.csvRows, List.zipIdx_map, List.map_map]
  rfl

/-- What the worker makes of an upload that has the columns of the table in front. -/
theorem openUpload_eq_ok_iff (hspec : W.catalog W.objectName = some spec)
    (hmutable : spec.isMutable = true) {upload : CsvUpload}
    (hheader : upload.lines.head? = some (fieldTexts table.columns)) :
    W.openUpload (some upload) = .ok (spec, table.csvRows) ↔
      (∀ cell ∈ table.columns, cell.value ≠ []) ∧
        (upload.lines.tail.filter fun line => line ≠ []) = table.rows.map fieldTexts := by
  have hne : fieldTexts table.columns ≠ [] := fun h =>
    table.columns_ne_nil (List.map_eq_nil_iff.mp h)
  have hnamed : "" ∉ fieldTexts table.columns ↔ ∀ cell ∈ table.columns, cell.value ≠ [] := by
    simp [fieldTexts]
  have hwidth : ∀ row ∈ table.rows.map fieldTexts,
      row.length = (fieldTexts table.columns).length := by
    intro row hrow
    obtain ⟨cells, hcells, rfl⟩ := List.mem_map.mp hrow
    rw [fieldTexts, fieldTexts, List.length_map, List.length_map]
    exact table.width cells hcells
  have hopen : W.openUpload (some upload) =
      (readRows upload (spec.schema.map Field.name)).map fun rows => (spec, rows) := by
    simp only [BulkIngestWorker.openUpload, hspec, hmutable, Bool.true_eq_false, if_false]
  rw [hopen, readRows, hheader, ← hnamed, table.csvRows_eq]
  constructor
  · intro h
    cases hvalid : validateHeader (some (fieldTexts table.columns))
        (spec.schema.map Field.name) with
    | error error =>
        rw [hvalid] at h
        cases h
    | ok names =>
        rw [hvalid] at h
        obtain ⟨hempty, rfl⟩ := (validateHeader_eq_ok_iff hne table.columns_subset).mp hvalid
        exact ⟨hempty, dictRows_inj hwidth (Prod.mk.inj (Except.ok.inj h)).2⟩
  · rintro ⟨hempty, hlines⟩
    rw [(validateHeader_eq_ok_iff hne table.columns_subset).mpr ⟨hempty, rfl⟩, ← hlines]
    rfl

/-- The text of a table is that of its rows between commas. -/
theorem SerializedTable.text_eq
    (hcompatible : config.columnDelimiter = .comma ∨ table.columns.length = 1)
    (lineEnding : LineEnding) :
    table.text lineEnding =
      ((table.columns :: table.rows).map commaRow).flatMap fun row =>
        rowText excel row ++ lineEnding.text := by
  rw [SerializedTable.text, List.flatMap_map]
  refine List.flatMap_congr fun row hrow => ?_
  rw [rowText_commaRow (hcompatible.imp_right fun hone => ?_) (table.quoted row hrow)]
  rcases List.mem_cons.mp hrow with rfl | hmem
  · exact hone
  · rw [table.width row hmem, hone]

theorem SerializedTable.one_column {row : List Cell} (hrow : row ∈ table.columns :: table.rows)
    (hcompatible : config.columnDelimiter = .comma ∨ table.columns.length = 1) :
    config.columnDelimiter = .comma ∨ row.length = 1 := by
  refine hcompatible.imp_right fun hone => ?_
  rcases List.mem_cons.mp hrow with rfl | hmem
  · exact hone
  · rw [table.width row hmem, hone]

theorem Honoured.of_readsAlike (hspec : W.catalog W.objectName = some spec)
    (hmutable : spec.isMutable = true) (h : ReadsAlike config table) :
    Honoured W config spec table := by
  have hcompatible : config.columnDelimiter = .comma ∨ table.columns.length = 1 :=
    h.delimiter.imp_right And.left
  have hplain : ∀ row ∈ table.columns :: table.rows, Plain row := by
    intro row hrow
    rcases h.delimiter with hcomma | ⟨_, hplain⟩
    · exact .of_comma hcomma (table.quoted row hrow)
    · exact hplain row hrow
  have hblank : ∀ row ∈ table.columns :: table.rows, row ≠ blankRow := by
    intro row hrow heq
    rcases List.mem_cons.mp hrow with rfl | hmem
    · exact h.named ⟨false, []⟩ (by rw [heq]; exact List.mem_cons_self) rfl
    · exact h.notBlank (heq ▸ hmem)
  have hwritten : ∀ cells ∈ (table.columns :: table.rows).map commaRow, ∀ cell ∈ cells,
      cell.Written excel := by
    intro cells hcells cell hcell
    obtain ⟨row, hrow, rfl⟩ := List.mem_map.mp hcells
    obtain ⟨whole, hwhole, hpiece⟩ := List.mem_flatMap.mp hcell
    exact ⟨quoted_of_mem_pieces (table.quoted row hrow whole hwhole) hpiece,
      (length_le_of_mem_cell_pieces hpiece).trans (h.lengths row hrow whole hwhole)⟩
  have hread := readText_rows (isLineEnd_text config.lineEnding) hwritten
  rw [← table.text_eq hcompatible] at hread
  have hlines : (((table.columns :: table.rows).map commaRow).map recordOf).map
      (List.map String.ofList) = (table.columns :: table.rows).map fieldTexts := by
    rw [List.map_map, List.map_map]
    refine List.map_congr_left fun row hrow => ?_
    have hrecord := (recordOf_commaRow_iff (table.one_column hrow hcompatible)
      (table.quoted row hrow)).mpr ⟨hblank row hrow, hplain row hrow⟩
    rw [Function.comp_apply, Function.comp_apply, hrecord, fieldTexts_eq]
  refine ⟨_, readUpload_eq_some_iff.mpr ⟨_, hread, rfl⟩, ?_, ?_⟩
  · rw [hlines, List.map_cons, List.head?_cons]
  · refine (openUpload_eq_ok_iff hspec hmutable ?_).mpr ⟨h.named, ?_⟩
    · rw [hlines, List.map_cons, List.head?_cons]
    · rw [hlines, List.map_cons, List.tail_cons, List.filter_eq_self]
      intro line hline
      obtain ⟨row, hrow, rfl⟩ := List.mem_map.mp hline
      have hne : row ≠ [] := by
        intro hnil
        have hwidth := table.width row hrow
        rw [hnil, List.length_nil] at hwidth
        exact table.columns_ne_nil (List.eq_nil_of_length_eq_zero hwidth.symm)
      simpa [fieldTexts] using hne

/-- Behind another delimiter than the comma, a header of several columns is not found. -/
theorem Honoured.compatible (h : Honoured W config spec table) :
    config.columnDelimiter = .comma ∨ table.columns.length = 1 := by
  by_contra hother
  rw [not_or] at hother
  obtain ⟨upload, hupload, hheader, _⟩ := h
  obtain ⟨lines, hread, rfl⟩ := readUpload_eq_some_iff.mp hupload
  obtain ⟨cell, cell', cells, hcolumns⟩ : ∃ cell cell' cells,
      table.columns = cell :: cell' :: cells := by
    cases hcolumns : table.columns with
    | nil => exact absurd hcolumns table.columns_ne_nil
    | cons cell cells =>
        cases cells with
        | nil => exact absurd (by rw [hcolumns]; rfl) hother.2
        | cons cell' cells => exact ⟨cell, cell', cells, rfl⟩
  have hne : config.columnDelimiter.dialect.delimiter ≠ excel.delimiter := by
    cases hdelimiter : config.columnDelimiter with
    | comma => exact absurd hdelimiter hother.1
    | tab => decide
    | pipe => decide
    | semicolon => decide
  rw [SerializedTable.text, List.flatMap_cons, hcolumns, rowText_cons_cons, List.append_assoc,
    List.append_assoc, List.cons_append] at hread
  cases lines with
  | nil => cases hheader
  | cons line lines =>
      have hquoted := table.quoted table.columns List.mem_cons_self cell
        (by rw [hcolumns]; exact List.mem_cons_self)
      refine head_ne_of_delimiter hne hquoted hread rfl ?_
      rw [List.map_cons, List.head?_cons, Option.some.injEq, fieldTexts_eq, hcolumns] at hheader
      rw [ofList_map_injective hheader]
      rfl

theorem Honoured.readsAlike (hspec : W.catalog W.objectName = some spec)
    (hmutable : spec.isMutable = true) (h : Honoured W config spec table) :
    ReadsAlike config table := by
  have hcompatible := h.compatible
  obtain ⟨upload, hupload, hheader, hopen⟩ := h
  obtain ⟨lines, hread, rfl⟩ := readUpload_eq_some_iff.mp hupload
  obtain ⟨hnamed, htail⟩ := (openUpload_eq_ok_iff hspec hmutable hheader).mp hopen
  have hquoted : ∀ cells ∈ (table.columns :: table.rows).map commaRow, ∀ cell ∈ cells,
      needsQuotes excel cell.value = true → cell.quoted = true := by
    intro cells hcells cell hcell
    obtain ⟨row, hrow, rfl⟩ := List.mem_map.mp hcells
    obtain ⟨whole, hwhole, hpiece⟩ := List.mem_flatMap.mp hcell
    exact quoted_of_mem_pieces (table.quoted row hrow whole hwhole) hpiece
  rw [table.text_eq hcompatible] at hread
  obtain ⟨hlines, hlengths⟩ := eq_of_readText_rows (isLineEnd_text config.lineEnding) hquoted hread
  rw [hlines, List.map_cons, List.map_cons, List.map_cons, List.head?_cons,
    Option.some.injEq, fieldTexts_eq] at hheader
  rw [hlines, List.map_cons, List.map_cons, List.map_cons, List.tail_cons] at htail
  -- as many lines as rows, so none of them is blank
  have hall := List.length_filter_eq_length_iff.mp
    (by rw [htail, List.length_map, List.length_map, List.length_map, List.length_map])
  rw [List.filter_eq_self.mpr hall, List.map_map, List.map_map] at htail
  have hrecords : ∀ row ∈ table.columns :: table.rows,
      recordOf (commaRow row) = row.map Cell.value := by
    intro row hrow
    rcases List.mem_cons.mp hrow with rfl | hmem
    · exact ofList_map_injective hheader
    · have hline := List.map_inj_left.mp htail row hmem
      rw [fieldTexts_eq] at hline
      exact ofList_map_injective hline
  have hrows : ∀ row ∈ table.columns :: table.rows, row ≠ blankRow ∧ Plain row :=
    fun row hrow => (recordOf_commaRow_iff (table.one_column hrow hcompatible)
      (table.quoted row hrow)).mp (hrecords row hrow)
  refine ⟨hcompatible.imp_right fun hone => ⟨hone, fun row hrow => (hrows row hrow).2⟩, hnamed,
    fun hblank => (hrows _ (List.mem_cons_of_mem _ hblank)).1 rfl, fun row hrow cell hcell => ?_⟩
  refine hlengths (row.map Cell.value) ?_ cell.value (List.mem_map_of_mem hcell)
  rw [hlines, ← hrecords row hrow]
  exact List.mem_map_of_mem (List.mem_map_of_mem hrow)

/-- Jobs are created for mutable objects only. -/
theorem isMutable_of_create {payload : String → Option PayloadValue}
    (hcreate : validateIngestCreate payload W.catalog = .ok config)
    (hspec : W.catalog config.objectName = some spec) : spec.isMutable = true := by
  unfold validateIngestCreate at hcreate
  split at hcreate
  · rename_i objectName _
    split at hcreate
    · cases hcreate
    · split at hcreate
      · cases hcreate
      · rename_i found hfound
        split at hcreate
        · cases hcreate
        · rename_i hmutable
          split at hcreate
          · cases hcreate
          · split at hcreate
            · cases hcreate
            · cases hending : chosen LineEnding.ofPayload "unsupported CSV line ending"
                  ((payload "lineEnding").getD (.text "LF")) with
              | error error =>
                  rw [hending] at hcreate
                  cases hcreate
              | ok lineEnding =>
                  cases hdelimiter : chosen ColumnDelimiter.ofPayload
                      "unsupported CSV column delimiter"
                      ((payload "columnDelimiter").getD (.text "COMMA")) with
                  | error error =>
                      rw [hending, hdelimiter] at hcreate
                      cases hcreate
                  | ok columnDelimiter =>
                      rw [hending, hdelimiter] at hcreate
                      obtain rfl := Except.ok.inj hcreate
                      obtain rfl := Option.some.inj (hfound.symm.trans hspec)
                      simpa using hmutable
  · cases hcreate

/-- **The options of an ingest job.**  The worker processes a table as it was written
with the job's delimiter in exactly the cases where a reader of commas finds the
same. -/
theorem honoured_iff {payload : String → Option PayloadValue}
    (hcreate : validateIngestCreate payload W.catalog = .ok config)
    (hobject : W.objectName = config.objectName)
    (hspec : W.catalog config.objectName = some spec) :
    Honoured W config spec table ↔ ReadsAlike config table := by
  have hmutable := isMutable_of_create hcreate hspec
  rw [← hobject] at hspec
  exact ⟨fun h => h.readsAlike hspec hmutable, fun h => .of_readsAlike hspec hmutable h⟩

end Honoured

/-- An object with two fields. -/
def contactSpec : IngestSpec where
  objectName := "Contact"
  idField := "Id"
  isMutable := true
  schema := [⟨"Id", .other⟩, ⟨"Name", .other⟩]
  idField_mem := by decide

def contactWorker : BulkIngestWorker where
  readers := ⟨fun _ => .error "", fun _ => .error "", fun _ => .error "", fun _ => .error "", id⟩
  catalog := fun name => if name = "Contact" then some contactSpec else none
  batchRecords := 100
  jobId := "750"
  objectName := "Contact"

/-- The request for a job with tabs and `\r\n`. -/
def tabPayload : String → Option PayloadValue
  | "object" => some (.text "Contact")
  | "operation" => some (.text "insert")
  | "lineEnding" => some (.text "CRLF")
  | "columnDelimiter" => some (.text "TAB")
  | _ => none

def tabConfiguration : IngestConfiguration := ⟨"Contact", .crlf, .tab⟩

/-- One column of names, one of them with a comma, in quotes. -/
def namesTable : SerializedTable .tab ["Id", "Name"] where
  columns := [⟨false, "Name".toList⟩]
  rows := [[⟨false, "A".toList⟩], [⟨true, "B, C".toList⟩]]
  columns_ne_nil := by decide
  columns_subset := by decide
  columns_nodup := by decide
  width := by decide
  quoted := by decide

/-- Two columns. -/
def contactsTable : SerializedTable .tab ["Id", "Name"] where
  columns := [⟨false, "Id".toList⟩, ⟨false, "Name".toList⟩]
  rows := [[⟨false, "003".toList⟩, ⟨false, "A".toList⟩]]
  columns_ne_nil := by decide
  columns_subset := by decide
  columns_nodup := by decide
  width := by decide
  quoted := by decide

theorem honoured_iff_oneColumn :
    Honoured contactWorker tabConfiguration contactSpec namesTable ↔
      ReadsAlike tabConfiguration namesTable :=
  honoured_iff
    (by decide : validateIngestCreate tabPayload contactWorker.catalog = .ok tabConfiguration)
    rfl rfl

/-- A job with tabs and a table of two columns. -/
theorem tabs_not_honoured :
    validateIngestCreate tabPayload contactWorker.catalog = .ok tabConfiguration ∧
      ¬ Honoured contactWorker tabConfiguration contactSpec contactsTable := by
  refine ⟨by decide, fun h => ?_⟩
  rcases h.compatible with hcomma | hone
  · exact absurd hcomma (by decide)
  · exact absurd hone (by decide)

end FakeForce
end Northwind
