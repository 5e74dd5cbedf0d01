import Northwind.FakeForce.BulkQueryParts
import Northwind.FakeForce.JobTables
import Northwind.FakeForce.QueryPlans
import Northwind.Library.CsvText
import Northwind.Sources.Integers

/-!
# Downloading the result of a bulk query

A request without `maxRecords` is answered with one part file as it is stored;
its locators are the numbers of the parts.  A request with `maxRecords` is
answered with a window of rows, read from the parts and written again; its
locators `r:n` are numbers of rows.

The locators that the server makes are numbers of parts and rows.  From 10^4300 on
neither `str` nor `int` takes them; the limit is left out.

A row is the list of its field texts, and a body is a text; both are stored and
sent in UTF-8.  A result without rows has no part and no manifest, so there is
nothing to download.
-/

namespace Northwind
namespace FakeForce

open CrashPrefixes Windows CsvText

/-- `str(n)` -/
def decimal (n : Nat) : String :=
  String.ofList (Nat.toDigits 10 n)

/-- The dialect of `csv.reader` and `csv.writer` by default, with the module's field
size limit. -/
def excel : Dialect where
  delimiter := ','
  fieldLimit := 131072
  delimiter_ne_quote := by decide
  delimiter_ne_newline := by decide
  delimiter_ne_return := by decide

/-- `_csv_row`, and what `_write_part` writes of a row. -/
def csvRow (row : CsvRecord) : List Char :=
  rowText excel (writtenCells excel row) ++ ['\r', '\n']

/-- The text of a part file. -/
def partText (columns : List String) (rows : List CsvRecord) : List Char :=
  csvRow (columns.map String.toList) ++ rows.flatMap csvRow

inductive ResultError where
  | invalidLocator (message : String)
  | fileNotFound
deriving DecidableEq

structure BulkResultPage where
  path : String
  recordCount : Nat
  nextLocator : Option String
deriving DecidableEq

/-- What can break a stream that has begun. -/
inductive StreamError where
  | missingPart (name : String)
  | unreadable (error : ReadError)
deriving DecidableEq

namespace BulkQueryResultStore

/-! ## Pages -/

def invalidLocator : ResultError :=
  .invalidLocator "invalid bulk result locator"

/-- `BulkQueryResultStore.page` -/
def page (j : QueryJob CsvRecord) (locator : Option String) : Except ResultError BulkResultPage :=
  match locator.elim (some 0) spelledInt with
  | none => .error invalidLocator
  | some partIndex =>
      if partIndex < 0 then .error invalidLocator
      else match j.manifest with
        | none => .error .fileNotFound
        | some parts =>
            match parts[partIndex.toNat]? with
            | none => .error invalidLocator
            | some part =>
                if (j.files.lookup part.path).isSome then
                  .ok { path := part.path
                        recordCount := part.recordCount
                        nextLocator :=
                          if partIndex.toNat + 1 < parts.length then
                            some (decimal (partIndex.toNat + 1))
                          else none }
                else .error .fileNotFound

/-! ## Windows -/

/-- `locator.removeprefix("r:")` -/
def withoutMark (locator : String) : String :=
  match locator.toList with
  | 'r' :: ':' :: rest => String.ofList rest
  | _ => locator

/-- `locator.startswith("r:")` -/
def isMarked (locator : String) : Bool :=
  "r:".toList.isPrefixOf locator.toList

/-- `0 if locator is None else int(locator.removeprefix("r:"))` -/
def offsetOf (locator : Option String) : Option Int :=
  locator.elim (some 0) fun locator => spelledInt (withoutMark locator)

/-- `f"r:{n}"` -/
def rowLocator (n : Nat) : String :=
  "r:" ++ decimal n

/-- `BulkQueryResultStore.window`; the path of a window is that of the manifest. -/
def window (j : QueryJob CsvRecord) (locator : Option String) (maxRecords : Int) :
    Except ResultError BulkResultPage :=
  if maxRecords ≤ 0 then .error (.invalidLocator "maxRecords must be positive")
  else match offsetOf locator with
    | none => .error invalidLocator
    | some offset =>
        if locator.any fun locator => ¬ isMarked locator then .error invalidLocator
        else match j.manifest with
          | none => .error .fileNotFound
          | some parts =>
              let total := recordTotal parts
              if offset < 0 ∨ offset ≥ total then .error invalidLocator
              else
                let count := min maxRecords.toNat (total - offset.toNat)
                .ok { path := "manifest.json"
                      recordCount := count
                      nextLocator :=
                        if offset.toNat + count < total then
                          some (rowLocator (offset.toNat + count))
                        else none }

/-- The variables of `stream_window`, with the bytes sent so far. -/
structure WindowScan where
  skipped : Nat
  emitted : Nat
  wroteHeader : Bool
  output : List Char

/-- The loop over the rows of a part; the flag says that it has returned. -/
def scanRows (offset count : Nat) : WindowScan → List CsvRecord → WindowScan × Bool
  | s, [] => (s, false)
  | s, row :: rest =>
      if s.skipped < offset then scanRows offset count { s with skipped := s.skipped + 1 } rest
      else if s.emitted ≥ count then (s, true)
      else scanRows offset count
        { s with emitted := s.emitted + 1, output := s.output ++ csvRow row } rest

def scanHeader (s : WindowScan) (header : CsvRecord) : WindowScan :=
  if header ≠ [] ∧ s.wroteHeader = false then
    { s with wroteHeader := true, output := s.output ++ csvRow header }
  else s

/-- The loop over the parts of the manifest. -/
def scanParts (j : QueryJob CsvRecord) (offset count : Nat) :
    WindowScan → List ManifestPart → List Char × Option StreamError
  | s, [] => (s.output, none)
  | s, part :: rest =>
      match j.files.lookup part.path with
      | none => (s.output, some (.missingPart part.path))
      | some file =>
          let read := readText excel (partText file.columns file.rows)
          let scanned :=
            match read.1 with
            | [] => (s, false)
            | header :: rows => scanRows offset count (scanHeader s header) rows
          if scanned.2 then (scanned.1.output, none)
          else match read.2 with
            | some error => (scanned.1.output, some (.unreadable error))
            | none => scanParts j offset count scanned.1 rest

/-- `BulkQueryResultStore.stream_window` -/
def streamWindow (j : QueryJob CsvRecord) (locator : Option String) (count : Nat) :
    List Char × Option StreamError :=
  scanParts j ((offsetOf locator).getD 0).toNat count ⟨0, 0, false, []⟩ j.parts

/-- `BulkQueryResultStore.stream` -/
def stream (j : QueryJob CsvRecord) (path : String) : List Char × Option StreamError :=
  match j.files.lookup path with
  | none => ([], some (.missingPart path))
  | some file => (partText file.columns file.rows, none)

end BulkQueryResultStore

/-! ## The endpoint -/

/-- An error of `sf_error`, or a CSV response with its two headers. -/
inductive ResultResponse where
  | error (status : Nat) (code message : String)
  | csv (numberOfRecords : String) (locator : Option String)
      (body : List Char × Option StreamError)
deriving DecidableEq

/-- The page of a request, with the stream that sends it. -/
def resultPage (j : QueryJob CsvRecord) (locator : Option String) (maxRecords : Option Int) :
    Except ResultError (BulkResultPage × (List Char × Option StreamError)) :=
  match maxRecords with
  | some maxRecords =>
      (BulkQueryResultStore.window j locator maxRecords).map fun page =>
        (page, BulkQueryResultStore.streamWindow j locator page.recordCount)
  | none =>
      (BulkQueryResultStore.page j locator).map fun page =>
        (page, BulkQueryResultStore.stream j page.path)

/-- `get_bulk_query_results`, for the row that `get_job` finds and the directory of
the job. -/
def getBulkQueryResults (job : Option BulkJob) (j : QueryJob CsvRecord)
    (locator : Option String) (maxRecords : Option Int) : ResultResponse :=
  match job with
  | none => .error 404 "NOT_FOUND" "The requested resource does not exist"
  | some job =>
      if job.jobType ≠ .query then
        .error 404 "NOT_FOUND" "The requested resource does not exist"
      else if job.apiVersion ≠ apiVersion then
        .error 409 "API_VERSION_MISMATCH" "Bulk job API version does not match request"
      else if job.state ≠ .jobComplete then
        .error 400 "INVALIDJOB" "Bulk query results are not available until the job is complete"
      else match resultPage j locator maxRecords with
        | .error _ => .error 400 "INVALIDLOCATOR" "invalid bulk result locator"
        | .ok (page, body) => .csv (decimal page.recordCount) page.nextLocator body

/-- A response that was downloaded to its end. -/
structure Download where
  numberOfRecords : String
  body : List Char
deriving DecidableEq

/-- Following the locators of the responses until there is none, the request with
number `k` asking for `sizes k` records. -/
inductive Follows (respond : Option String → Option Int → ResultResponse)
    (sizes : Nat → Option Int) : Nat → Option String → List Download → Prop
  | last {k : Nat} {locator : Option String} {numberOfRecords : String} {body : List Char} :
      respond locator (sizes k) = .csv numberOfRecords none (body, none) →
      Follows respond sizes k locator [⟨numberOfRecords, body⟩]
  | next {k : Nat} {locator : Option String} {numberOfRecords locator' : String}
      {body : List Char} {rest : List Download} :
      respond locator (sizes k) = .csv numberOfRecords (some locator') (body, none) →
      Follows respond sizes (k + 1) (some locator') rest →
      Follows respond sizes k locator (⟨numberOfRecords, body⟩ :: rest)

/-- Starting without a locator, every response is the header and some of the rows,
as many as it says, and the last one ends the result. -/
def Downloads (columns : List String) (rows : List CsvRecord)
    (respond : Option String → Option Int → ResultResponse) (sizes : Nat → Option Int) : Prop :=
  ∃ parts : List (List CsvRecord),
    Follows respond sizes 0 none
      (parts.map fun part => ⟨decimal part.length, partText columns part⟩) ∧
    parts.flatten = rows

/-! ## The stream of a window -/

/-- Texts that the CSV reader takes. -/
def Readable (record : CsvRecord) : Prop :=
  ∀ value ∈ record, value.length ≤ excel.fieldLimit

theorem readText_partText {columns : List String} {rows : List CsvRecord}
    (hcolumns : Readable (columns.map String.toList)) (hrows : ∀ row ∈ rows, Readable row) :
    readText excel (partText columns rows) = (columns.map String.toList :: rows, none) := by
  have hwritten : ∀ cells ∈ (columns.map String.toList :: rows).map (writtenCells excel),
      ∀ cell ∈ cells, cell.Written excel := by
    intro cells hcells
    obtain ⟨record, hrecord, rfl⟩ := List.mem_map.mp hcells
    refine written_writtenCells ?_
    rcases List.mem_cons.mp hrecord with rfl | hrow
    · exact hcolumns
    · exact hrows record hrow
  have hread := readText_rows (.inr rfl : IsLineEnd ['\r', '\n']) hwritten
  rw [List.flatMap_map, List.map_map] at hread
  rw [partText, ← List.flatMap_cons]
  refine hread.trans (congrArg (·, none) ?_)
  exact (List.map_congr_left fun record _ => recordOf_writtenCells record).trans (List.map_id _)

namespace BulkQueryResultStore

variable {j : QueryJob CsvRecord} {offset count : Nat} {s : WindowScan}

/-- The loop over rows skips up to the offset, sends up to the count, and returns when
a row is left over. -/
theorem scanRows_eq {rows : List CsvRecord} (hskipped : s.skipped ≤ offset)
    (hemitted : s.emitted ≤ count) :
    scanRows offset count s rows =
      ({ s with
          skipped := s.skipped + min (offset - s.skipped) rows.length
          emitted := s.emitted +
            (Windows.window rows (offset - s.skipped) (count - s.emitted)).length
          output := s.output ++
            (Windows.window rows (offset - s.skipped) (count - s.emitted)).flatMap csvRow },
        decide (offset - s.skipped + (count - s.emitted) < rows.length)) := by
  induction rows generalizing s with
  | nil => simp [scanRows, Windows.window]
  | cons row rows ih =>
      rw [scanRows]
      by_cases hskip : s.skipped < offset
      · have hnext : offset - s.skipped = offset - (s.skipped + 1) + 1 := by omega
        rw [if_pos hskip, ih (s := { s with skipped := s.skipped + 1 }) hskip hemitted, hnext]
        simp only [Windows.window, List.drop_succ_cons, List.length_cons, Prod.mk.injEq,
          WindowScan.mk.injEq, decide_eq_decide, and_true]
        omega
      · have hstart : offset - s.skipped = 0 := by omega
        rw [if_neg hskip]
        by_cases hfull : count ≤ s.emitted
        · have hnone : count - s.emitted = 0 := by omega
          rw [if_pos hfull, hstart, hnone]
          simp [Windows.window]
        · have hmore : count - s.emitted = count - (s.emitted + 1) + 1 := by omega
          have hemitted' : s.emitted + 1 ≤ count := by omega
          rw [if_neg hfull, ih (s := { s with
              emitted := s.emitted + 1, output := s.output ++ csvRow row }) hskipped hemitted',
            hstart, hmore]
          simp only [Windows.window, List.drop_zero, List.take_succ_cons, List.flatMap_cons,
            List.length_cons, List.append_assoc, Nat.zero_min, Nat.add_zero, Prod.mk.injEq,
            WindowScan.mk.injEq, decide_eq_decide, and_true, true_and]
          omega

/-- The loop over parts sends the header once and the window of their rows. -/
theorem scanParts_eq {Q : BulkQuery CsvRecord} {rows : List CsvRecord} {number start : Nat}
    {parts : List ManifestPart} (hparts : PartsFrom Q rows j.files number start parts)
    (hcolumns : Q.columns ≠ []) (hheader : Readable (Q.columns.map String.toList))
    (hrows : ∀ row ∈ rows, Readable row) (hskipped : s.skipped ≤ offset)
    (hemitted : s.emitted ≤ count) (hbegun : s.wroteHeader = true ∨ parts ≠ []) :
    scanParts j offset count s parts =
      (s.output ++ (if s.wroteHeader then [] else csvRow (Q.columns.map String.toList)) ++
        (Windows.window (Windows.window rows start (recordTotal parts)) (offset - s.skipped)
          (count - s.emitted)).flatMap csvRow, none) := by
  induction parts generalizing number start s with
  | nil =>
      rw [scanParts, if_pos (hbegun.resolve_right fun h => h rfl), recordTotal_nil]
      simp [Windows.window]
  | cons part parts ih =>
      obtain ⟨_, _, hfile, hrest⟩ := hparts
      set content := Windows.window rows start part.recordCount with hcontent
      have hread : readText excel (partText Q.columns content) =
          (Q.columns.map String.toList :: content, none) :=
        readText_partText hheader fun row hrow => hrows row (mem_of_mem_window hrow)
      have hsplit : Windows.window rows start (recordTotal (part :: parts)) =
          content ++ Windows.window rows (start + part.recordCount) (recordTotal parts) := by
        rw [recordTotal_cons, hcontent, Windows.window, Windows.window, Windows.window,
          ← List.drop_drop, List.take_add]
      have hheaderScan : scanHeader s (Q.columns.map String.toList) =
          { s with
            wroteHeader := true
            output := s.output ++
              (if s.wroteHeader then [] else csvRow (Q.columns.map String.toList)) } := by
        have hne : Q.columns.map String.toList ≠ [] := fun h => hcolumns (List.map_eq_nil_iff.mp h)
        unfold scanHeader
        cases hwrote : s.wroteHeader with
        | false => simp only [hne, ne_eq, not_false_eq_true, and_true, if_true, Bool.false_eq_true,
            if_false]
        | true =>
            rw [if_neg (by simp), if_pos rfl, List.append_nil, ← hwrote]
      rw [scanParts, hfile]
      simp only [hread, hheaderScan]
      rw [scanRows_eq (s := { s with
          wroteHeader := true
          output := s.output ++
            (if s.wroteHeader then [] else csvRow (Q.columns.map String.toList)) })
        hskipped hemitted, hsplit, window_append, List.flatMap_append]
      by_cases hreturned : offset - s.skipped + (count - s.emitted) < content.length
      · have hnone : count - s.emitted -
            (Windows.window content (offset - s.skipped) (count - s.emitted)).length = 0 := by
          rw [length_window]
          omega
        simp only [hreturned, decide_true, if_true, hnone]
        simp [Windows.window]
      · simp only [hreturned, decide_false, Bool.false_eq_true, if_false]
        rw [ih hrest (by simp only; omega) (by simp only [length_window]; omega) (.inl rfl)]
        have hskip : offset - (s.skipped + min (offset - s.skipped) content.length) =
            offset - s.skipped - content.length := by omega
        have hleft : count - (s.emitted +
            (Windows.window content (offset - s.skipped) (count - s.emitted)).length) =
              count - s.emitted -
                (Windows.window content (offset - s.skipped) (count - s.emitted)).length := by
          omega
        simp only [hskip, hleft, if_true, List.append_assoc, List.append_nil]

end BulkQueryResultStore

/-! ## Locators -/

open BulkQueryResultStore (rowLocator offsetOf isMarked withoutMark)

/-- A locator of pages, with the number of the part it stands for. -/
def PageAt (locator : Option String) (number : Nat) : Prop :=
  (locator = none ∧ number = 0) ∨ locator = some (decimal number)

/-- A locator of windows, with the number of the row it stands for. -/
def RowAt (locator : Option String) (number : Nat) : Prop :=
  (locator = none ∧ number = 0) ∨ locator = some (rowLocator number)

theorem PageAt.eq {locator : Option String} {number : Nat} (h : PageAt locator number) :
    locator.elim (some 0) spelledInt = some (number : Int) := by
  rcases h with ⟨rfl, rfl⟩ | rfl
  · rfl
  · exact spelledInt_toDigits number

theorem toList_rowLocator (number : Nat) :
    (rowLocator number).toList = 'r' :: ':' :: Nat.toDigits 10 number := by
  have hdigits : (decimal number).toList = Nat.toDigits 10 number := String.toList_ofList
  rw [rowLocator, String.toList_append, hdigits]
  rfl

theorem RowAt.eq {locator : Option String} {number : Nat} (h : RowAt locator number) :
    offsetOf locator = some (number : Int) ∧
      (locator.any fun locator => ¬ isMarked locator) = false := by
  rcases h with ⟨rfl, rfl⟩ | rfl
  · exact ⟨rfl, rfl⟩
  · have hmark : isMarked (rowLocator number) = true := by
      rw [isMarked, toList_rowLocator]
      rfl
    refine ⟨?_, by simp [hmark]⟩
    rw [offsetOf, Option.elim_some, withoutMark, toList_rowLocator]
    exact spelledInt_toDigits number

/-! ## Responses -/

/-- A completed job, with its result in parts. -/
structure Completed (Q : BulkQuery CsvRecord) (rows : List CsvRecord)
    (j : QueryJob CsvRecord) : Prop where
  state : j.state = .jobComplete
  parts : PartsFrom Q rows j.files 0 0 j.parts
  total : recordTotal j.parts = rows.length

/-- The row of `jobs` that the endpoint finds for a job of this API. -/
structure RowOf (job : BulkJob) (j : QueryJob CsvRecord) : Prop where
  jobType : job.jobType = .query
  apiVersion : job.apiVersion = apiVersion
  state : job.state = j.state

section Responses

variable {Q : BulkQuery CsvRecord} {rows : List CsvRecord} {j : QueryJob CsvRecord}
variable {job : BulkJob} {locator : Option String} {sizes : Nat → Option Int}

theorem JobInvariant.completed (h : JobInvariant Q rows j) (hstate : j.state = .jobComplete) :
    Completed Q rows j :=
  ⟨hstate, h.committed.parts, (h.finished hstate).total⟩

theorem Completed.response (h : Completed Q rows j) (hjob : RowOf job j)
    {maxRecords : Option Int} {page : BulkResultPage} {body : List Char × Option StreamError}
    (hpage : resultPage j locator maxRecords = .ok (page, body)) :
    getBulkQueryResults (some job) j locator maxRecords =
      .csv (decimal page.recordCount) page.nextLocator body := by
  rw [getBulkQueryResults]
  simp only [hjob.jobType, hjob.apiVersion, hjob.state, h.state, hpage, ne_eq,
    not_true_eq_false, if_false]

theorem manifest_eq_some (h : j.parts ≠ []) : j.manifest = some j.parts := by
  cases hmanifest : j.manifest with
  | none => exact absurd (by rw [QueryJob.parts, hmanifest]; rfl) h
  | some parts => rw [QueryJob.parts, hmanifest, Option.getD_some]

theorem Completed.parts_ne_nil (h : Completed Q rows j) (hrows : rows ≠ []) : j.parts ≠ [] := by
  intro hnone
  have htotal := h.total
  rw [hnone, recordTotal_nil] at htotal
  exact hrows (List.eq_nil_of_length_eq_zero htotal.symm)

/-- Every part stands for at least one row. -/
theorem Completed.parts_eq_nil (h : Completed Q rows j) (hrows : rows = []) : j.parts = [] := by
  have hparts := h.parts
  have htotal := h.total
  cases hlist : j.parts with
  | nil => rfl
  | cons part parts =>
      rw [hlist] at hparts htotal
      rw [hrows, recordTotal_cons, List.length_nil] at htotal
      have hcount := hparts.2.1
      omega

/-! ## Windows -/

/-- What a window request is answered with: the header and the window, and the
locator of the row behind it. -/
def windowResponse (columns : List String) (rows : List CsvRecord) (offset size : Nat) :
    ResultResponse :=
  let part := Windows.window rows offset size
  .csv (decimal part.length)
    (if offset + part.length < rows.length then some (rowLocator (offset + part.length)) else none)
    (partText columns part, none)

theorem Completed.window_response (h : Completed Q rows j) (hjob : RowOf job j)
    (hcolumns : Q.columns ≠ []) (hheader : Readable (Q.columns.map String.toList))
    (hrows : ∀ row ∈ rows, Readable row) {offset : Nat} (hoffset : offset < rows.length)
    (hlocator : RowAt locator offset) {maxRecords : Int} (hmax : 0 < maxRecords) :
    getBulkQueryResults (some job) j locator (some maxRecords) =
      windowResponse Q.columns rows offset maxRecords.toNat := by
  have hne : j.parts ≠ [] := h.parts_ne_nil (by
    rintro rfl
    exact absurd hoffset (Nat.not_lt_zero _))
  obtain ⟨hnumber, hmarked⟩ := hlocator.eq
  have hlength : min maxRecords.toNat (rows.length - offset) =
      (Windows.window rows offset maxRecords.toNat).length := (length_window _ _ _).symm
  have hwhole : Windows.window rows 0 rows.length = rows := by simp [Windows.window]
  have hpart : Windows.window rows offset (min maxRecords.toNat (rows.length - offset)) =
      Windows.window rows offset maxRecords.toNat := by
    rw [Windows.window, Windows.window, ← List.length_drop]
    exact List.take_eq_take_min.symm
  have hscan := BulkQueryResultStore.scanParts_eq (s := ⟨0, 0, false, []⟩) h.parts hcolumns
    hheader hrows (Nat.zero_le offset)
    (Nat.zero_le (min maxRecords.toNat (rows.length - offset))) (.inr hne)
  rw [h.total, hwhole, Nat.sub_zero, Nat.sub_zero, hpart] at hscan
  have hstream : BulkQueryResultStore.streamWindow j locator
      (min maxRecords.toNat (rows.length - offset)) =
        (partText Q.columns (Windows.window rows offset maxRecords.toNat), none) := by
    rw [BulkQueryResultStore.streamWindow, hnumber, Option.getD_some, Int.toNat_natCast]
    exact hscan
  have hinside : ¬((offset : Int) < 0 ∨ (offset : Int) ≥ (rows.length : Int)) := by omega
  have hpage : resultPage j locator (some maxRecords) =
      .ok (⟨"manifest.json", min maxRecords.toNat (rows.length - offset),
        if offset + min maxRecords.toNat (rows.length - offset) < rows.length then
          some (rowLocator (offset + min maxRecords.toNat (rows.length - offset))) else none⟩,
        (partText Q.columns (Windows.window rows offset maxRecords.toNat), none)) := by
    simp only [resultPage, BulkQueryResultStore.window, hnumber, hmarked, manifest_eq_some hne,
      h.total, hinside, if_neg (not_le.mpr hmax), Int.toNat_natCast, Bool.false_eq_true, if_false,
      Except.map, hstream]
  rw [h.response hjob hpage, windowResponse, hlength]

/-- From any row on, the windows are followed to the end. -/
theorem Completed.follows_windows (h : Completed Q rows j) (hjob : RowOf job j)
    (hcolumns : Q.columns ≠ []) (hheader : Readable (Q.columns.map String.toList))
    (hrows : ∀ row ∈ rows, Readable row)
    (hsizes : ∀ k, ∃ maxRecords, sizes k = some maxRecords ∧ 0 < maxRecords)
    {offset k : Nat} (hoffset : offset < rows.length) (hlocator : RowAt locator offset) :
    ∃ parts : List (List CsvRecord),
      Follows (getBulkQueryResults (some job) j) sizes k locator
        (parts.map fun part => ⟨decimal part.length, partText Q.columns part⟩) ∧
      parts.flatten = rows.drop offset := by
  induction hleft : rows.length - offset using Nat.strong_induction_on
    generalizing offset k locator with
  | _ left ih =>
      obtain ⟨maxRecords, hsize, hmax⟩ := hsizes k
      have hresponse := h.window_response hjob hcolumns hheader hrows hoffset hlocator hmax
      rw [← hsize] at hresponse
      set part := Windows.window rows offset maxRecords.toNat with hpart
      have hlength : part.length = min maxRecords.toNat (rows.length - offset) :=
        length_window _ _ _
      by_cases hmore : offset + part.length < rows.length
      · obtain ⟨parts, hfollows, hflatten⟩ :=
          ih (rows.length - (offset + part.length)) (by omega) (k := k + 1) hmore (.inr rfl) rfl
        refine ⟨part :: parts, .next ?_ hfollows, ?_⟩
        · rw [hresponse, windowResponse, ← hpart, if_pos hmore]
        · rw [List.flatten_cons, hflatten, ← window_append_drop rows offset maxRecords.toNat,
            ← hpart]
          have hall : part.length = maxRecords.toNat := by omega
          rw [hall]
      · refine ⟨[part], .last ?_, ?_⟩
        · rw [hresponse, windowResponse, ← hpart, if_neg hmore]
        · rw [List.flatten_singleton, hpart]
          exact window_eq_drop (by omega)

/-! ## Pages -/

theorem Completed.page_response (h : Completed Q rows j) (hjob : RowOf job j)
    {before rest : List ManifestPart} {part : ManifestPart} {content : List CsvRecord}
    (hparts : j.parts = before ++ part :: rest)
    (hfile : j.files.lookup part.path = some ⟨Q.columns, content⟩)
    (hlocator : PageAt locator before.length) :
    getBulkQueryResults (some job) j locator none =
      .csv (decimal part.recordCount)
        (if rest = [] then none else some (decimal (before.length + 1)))
        (partText Q.columns content, none) := by
  have hmanifest := manifest_eq_some (j := j) (by rw [hparts]; simp)
  have hindex : (before ++ part :: rest)[before.length]? = some part := by simp
  have hnext : (before.length + 1 < (before ++ part :: rest).length) ↔ rest ≠ [] := by
    rw [List.length_append, List.length_cons, ← List.length_pos_iff]
    omega
  have hpage : resultPage j locator none =
      .ok (⟨part.path, part.recordCount,
        if before.length + 1 < (before ++ part :: rest).length then
          some (decimal (before.length + 1)) else none⟩,
        (partText Q.columns content, none)) := by
    have hnonneg : ¬((before.length : Int) < 0) := Int.not_lt.mpr (Int.natCast_nonneg _)
    rw [resultPage, BulkQueryResultStore.page, hlocator.eq]
    simp only [hnonneg, hmanifest, hparts, Int.toNat_natCast, hindex, hfile, Option.isSome_some,
      if_true, if_false, Except.map, BulkQueryResultStore.stream]
  rw [h.response hjob hpage]
  by_cases hrest : rest = []
  · rw [if_neg (by rw [hnext]; exact fun hne => hne hrest), if_pos hrest]
  · rw [if_pos (hnext.mpr hrest), if_neg hrest]

/-- From any part on, the pages are followed to the end. -/
theorem Completed.follows_pages (h : Completed Q rows j) (hjob : RowOf job j)
    {before parts : List ManifestPart} {start k : Nat} (hsplit : j.parts = before ++ parts)
    (hparts : PartsFrom Q rows j.files before.length start parts) (hne : parts ≠ [])
    (hlocator : PageAt locator before.length) :
    ∃ contents : List (List CsvRecord),
      Follows (getBulkQueryResults (some job) j) (fun _ => none) k locator
        (contents.map fun part => ⟨decimal part.length, partText Q.columns part⟩) ∧
      contents.flatten = Windows.window rows start (recordTotal parts) := by
  induction parts generalizing before start k locator with
  | nil => exact absurd rfl hne
  | cons part parts ih =>
      obtain ⟨hpart, _, hfile, hrest⟩ := hparts
      have hcount : part.recordCount = (Windows.window rows start part.recordCount).length := by
        conv_lhs => rw [hpart]
        rfl
      have hresponse := h.page_response hjob hsplit hfile hlocator
      have hrows : Windows.window rows start (recordTotal (part :: parts)) =
          Windows.window rows start part.recordCount ++
            Windows.window rows (start + part.recordCount) (recordTotal parts) := by
        rw [recordTotal_cons, Windows.window, Windows.window, Windows.window, ← List.drop_drop,
          List.take_add]
      by_cases hlast : parts = []
      · refine ⟨[Windows.window rows start part.recordCount], .last ?_, ?_⟩
        · rw [hresponse, if_pos hlast, ← hcount]
        · rw [hrows, hlast, recordTotal_nil, List.flatten_singleton]
          simp [Windows.window]
      · have hsplit' : j.parts = (before ++ [part]) ++ parts := by
          rw [hsplit, List.append_assoc, List.singleton_append]
        have hlength : (before ++ [part]).length = before.length + 1 := by simp
        obtain ⟨contents, hfollows, hflatten⟩ :=
          ih (k := k + 1) hsplit' (hlength ▸ hrest) hlast (.inr rfl)
        refine ⟨Windows.window rows start part.recordCount :: contents, .next ?_ hfollows, ?_⟩
        · rw [hresponse, if_neg hlast, ← hcount, hlength]
        · rw [List.flatten_cons, hflatten, hrows]

/-- A job without rows has nothing to answer a request with. -/
theorem Completed.no_response (h : Completed Q rows j) (hjob : RowOf job j) (hrows : rows = []) :
    getBulkQueryResults (some job) j none none =
      .error 400 "INVALIDLOCATOR" "invalid bulk result locator" := by
  have hnone := h.parts_eq_nil hrows
  have herror : ∃ error, resultPage j none none = .error error := by
    cases hmanifest : j.manifest with
    | none => exact ⟨_, by simp only [resultPage, BulkQueryResultStore.page, hmanifest]; rfl⟩
    | some parts =>
        rw [QueryJob.parts, hmanifest, Option.getD_some] at hnone
        exact ⟨_, by simp only [resultPage, BulkQueryResultStore.page, hmanifest, hnone]; rfl⟩
  obtain ⟨error, herror⟩ := herror
  rw [getBulkQueryResults]
  simp only [hjob.jobType, hjob.apiVersion, hjob.state, h.state, herror, ne_eq,
    not_true_eq_false, if_false]

/-! ## Downloads -/

/-- Nothing writes to a completed job. -/
theorem eq_of_rounds {j' : QueryJob CsvRecord} (hstate : j.state = .jobComplete)
    (hrun : Relation.ReflTransGen (Round QueryJob.write (executionWrites Q rows)) j j') :
    j' = j := by
  have hready : ¬ readyToRun j := by
    rintro (h | h) <;> rw [hstate] at h <;> cases h
  induction hrun with
  | refl => rfl
  | tail _ hround ih =>
      obtain ⟨execution, k, hlast⟩ := hround
      rw [ih, executionWrites_of_not_ready hready, List.take_nil] at hlast
      exact hlast

variable {start : QueryJob CsvRecord}

/-- A completed job can be downloaded part by part, unless its result is empty. -/
theorem downloadable_iff (hcreated : start.Created)
    (hrun : Relation.ReflTransGen (Round QueryJob.write (executionWrites Q rows)) start j)
    (hstate : j.state = .jobComplete) (hjob : RowOf job j) :
    Downloads Q.columns rows (getBulkQueryResults (some job) j) (fun _ => none) ↔ rows ≠ [] := by
  have hinvariant : JobInvariant Q rows j :=
    invariant_of_rounds QueryJob.write (fun execution _ h => h.throughout_execution execution)
      hcreated.invariant hrun
  have hcompleted := hinvariant.completed hstate
  constructor
  · rintro ⟨parts, hfollows, _⟩ hrows
    have herror := hcompleted.no_response hjob hrows
    generalize hdownloads :
      parts.map (fun part => (⟨decimal part.length, partText Q.columns part⟩ : Download)) =
        downloads at hfollows
    cases hfollows with
    | last hresponse =>
        rw [herror] at hresponse
        cases hresponse
    | next hresponse _ =>
        rw [herror] at hresponse
        cases hresponse
  · intro hrows
    obtain ⟨contents, hfollows, hflatten⟩ := hcompleted.follows_pages (k := 0)
      hjob (List.nil_append _).symm hcompleted.parts (hcompleted.parts_ne_nil hrows) (.inl ⟨rfl, rfl⟩)
    refine ⟨contents, hfollows, ?_⟩
    rw [hflatten, hcompleted.total]
    simp [Windows.window]

/-- **Windows read the rows of the parts.**  Whatever sizes are asked for on the way,
the windows end and are the rows; each of them reads back as one header and its
rows; and the answer to a locator depends on nothing but the rows. -/
theorem windows_read_rows (hcreated : start.Created)
    (hrun : Relation.ReflTransGen (Round QueryJob.write (executionWrites Q rows)) start j)
    (hstate : j.state = .jobComplete) (hjob : RowOf job j) (hne : rows ≠ [])
    (hcolumns : Q.columns ≠ []) (hheader : Readable (Q.columns.map String.toList))
    (hrows : ∀ row ∈ rows, Readable row)
    (hsizes : ∀ k, ∃ maxRecords, sizes k = some maxRecords ∧ 0 < maxRecords) :
    Downloads Q.columns rows (getBulkQueryResults (some job) j) sizes ∧
      (∀ part : List CsvRecord, part ⊆ rows →
        readText excel (partText Q.columns part) =
          (Q.columns.map String.toList :: part, none)) ∧
      (∀ locator offset maxRecords, RowAt locator offset → offset < rows.length →
        0 < maxRecords →
          getBulkQueryResults (some job) j locator (some maxRecords) =
            windowResponse Q.columns rows offset maxRecords.toNat) ∧
      ∀ j', Relation.ReflTransGen (Round QueryJob.write (executionWrites Q rows)) j j' →
        ∀ locator maxRecords, getBulkQueryResults (some job) j' locator maxRecords =
          getBulkQueryResults (some job) j locator maxRecords := by
  have hinvariant : JobInvariant Q rows j :=
    invariant_of_rounds QueryJob.write (fun execution _ h => h.throughout_execution execution)
      hcreated.invariant hrun
  have hcompleted := hinvariant.completed hstate
  refine ⟨?_, ?_, ?_, ?_⟩
  · obtain ⟨parts, hfollows, hflatten⟩ := hcompleted.follows_windows (k := 0) hjob hcolumns
      hheader hrows hsizes (List.length_pos_iff.mpr hne) (.inl ⟨rfl, rfl⟩)
    exact ⟨parts, hfollows, hflatten⟩
  · intro part hpart
    exact readText_partText hheader fun row hrow => hrows row (hpart hrow)
  · intro locator offset maxRecords hlocator hoffset hmax
    exact hcompleted.window_response hjob hcolumns hheader hrows hoffset hlocator hmax
  · intro j' hlater locator maxRecords
    rw [eq_of_rounds hstate hlater]

end Responses

/-- A query over accounts. -/
def namesQuery : BulkQuery CsvRecord where
  columns := ["Id", "Name"]
  outputDirectory := "bulk/query/750"
  byteSize := fun file => (partText file.columns file.rows).length
  checksum := fun _ => ""

/-- Names with a comma, a quote and a line break. -/
def namesRows : List CsvRecord :=
  [["001".toList, "A, B".toList], ["002".toList, "\"C\"".toList], ["003".toList, "D\nE".toList]]

def createdQuery : QueryJob CsvRecord where
  state := .uploadComplete
  checkpoints := []
  files := ∅
  manifest := none

/-- The job after one execution with parts of two rows. -/
def completedQuery (rows : List CsvRecord) : QueryJob CsvRecord :=
  after QueryJob.write createdQuery
    ((executionWrites namesQuery rows (.completes 2) createdQuery).take 100)

def completedRow : BulkJob :=
  ⟨"750", .query, apiVersion, .jobComplete, some "Account", some "query",
    some "SELECT Id, Name FROM Account", none, none, none, none, []⟩

theorem downloadable_iff_twoParts :
    Downloads ["Id", "Name"] namesRows
      (getBulkQueryResults (some completedRow) (completedQuery namesRows)) (fun _ => none) ↔
        namesRows ≠ [] :=
  downloadable_iff (Q := namesQuery) ⟨rfl, rfl, rfl⟩
    (Relation.ReflTransGen.single ⟨.completes 2, 100, rfl⟩) (by decide +kernel)
    ⟨rfl, rfl, by decide +kernel⟩

/-- The completed job of an empty result answers its first request with an error. -/
theorem emptyResult_not_downloadable :
    ¬ Downloads ["Id", "Name"] [] (getBulkQueryResults (some completedRow) (completedQuery []))
        (fun _ => none) := by
  rintro ⟨parts, hfollows, _⟩
  have herror : getBulkQueryResults (some completedRow) (completedQuery []) none none =
      .error 400 "INVALIDLOCATOR" "invalid bulk result locator" := by
    decide +kernel
  generalize parts.map (fun part => (⟨decimal part.length, partText ["Id", "Name"] part⟩ :
    Download)) = downloads at hfollows
  cases hfollows with
  | last hresponse =>
      rw [herror] at hresponse
      cases hresponse
  | next hresponse _ =>
      rw [herror] at hresponse
      cases hresponse

/-- Windows of one, then two rows over parts of two and one. -/
theorem windows_read_rows_growing :
    Downloads ["Id", "Name"] namesRows
      (getBulkQueryResults (some completedRow) (completedQuery namesRows))
        (fun k => some (k + 1)) :=
  (windows_read_rows (Q := namesQuery) ⟨rfl, rfl, rfl⟩
    (Relation.ReflTransGen.single ⟨.completes 2, 100, rfl⟩) (by decide +kernel)
    ⟨rfl, rfl, by decide +kernel⟩ (by decide) (by decide) (by unfold Readable; decide)
    (by unfold Readable; decide) (fun k => ⟨k + 1, rfl, by omega⟩)).1

end FakeForce
end Northwind
