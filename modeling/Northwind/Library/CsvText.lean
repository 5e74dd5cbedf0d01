import Mathlib.Data.List.Basic
import Mathlib.Data.Bool.Basic

/-!
# CSV text: a reader and what it makes of written rows

The reader is the usual state machine of a CSV dialect with doubled quotes: it
takes the characters of the text and, at the end of every line, a mark of its
own.  A record is complete when such a mark finds it between two records; a
quoted field goes on over the mark.

A written row is a list of cells, each quoted or not.  `read_row` says that
the text of a row, followed by anything, is read as its values and then
whatever the rest is read as.  The delimiter and the largest field that the
reader takes are parameters.
-/

namespace Northwind
namespace CsvText

/-- The delimiter, and the length that a field must not exceed. -/
structure Dialect where
  delimiter : Char
  fieldLimit : Nat
  delimiter_ne_quote : delimiter ≠ '"'
  delimiter_ne_newline : delimiter ≠ '\n'
  delimiter_ne_return : delimiter ≠ '\r'

abbrev CsvRecord := List (List Char)

/-! ## The reader -/

inductive ReaderState where
  | startRecord
  | startField
  | inField
  | inQuotedField
  | quoteInQuotedField
  | eatNewlines
deriving DecidableEq

inductive ReadError where
  | fieldTooLarge
  | newlineInField
deriving DecidableEq

/-- The state with the fields of the record so far and the field being read. -/
structure Reader where
  state : ReaderState
  fields : CsvRecord
  field : List Char
deriving DecidableEq

/-- What a character makes the reader do, and the state it is in then. -/
inductive Move where
  | keep (next : ReaderState)
  | save (next : ReaderState)
  | add (c : Char) (next : ReaderState)
  | fail
deriving DecidableEq

/-- A line break, or the end of the line. -/
def isBreak (c : Option Char) : Bool :=
  c = some '\n' ∨ c = some '\r' ∨ c = none

/-- Behind the end of a line the next record starts; behind a line break the end is
still to come. -/
def afterBreak (c : Option Char) : ReaderState :=
  if c = none then .startRecord else .eatNewlines

/-- A character where a field is expected. -/
def moveAtField (delimiter : Char) (c : Option Char) : Move :=
  if isBreak c then .save (afterBreak c)
  else if c = some '"' then .keep .inQuotedField
  else if c = some delimiter then .save .startField
  else c.elim .fail fun c => .add c .inField

/-- The table of the reader; `none` is the end of a line. -/
def move (delimiter : Char) (c : Option Char) : ReaderState → Move
  | .startRecord =>
      if c = none then .keep .startRecord
      else if isBreak c then .keep .eatNewlines
      else moveAtField delimiter c
  | .startField => moveAtField delimiter c
  | .inField =>
      if isBreak c then .save (afterBreak c)
      else if c = some delimiter then .save .startField
      else c.elim .fail fun c => .add c .inField
  | .inQuotedField =>
      if c = some '"' then .keep .quoteInQuotedField
      else c.elim (.keep .inQuotedField) fun c => .add c .inQuotedField
  | .quoteInQuotedField =>
      if c = some '"' then .add '"' .inQuotedField
      else if c = some delimiter then .save .startField
      else if isBreak c then .save (afterBreak c)
      else c.elim .fail fun c => .add c .inField
  | .eatNewlines =>
      if c = none then .keep .startRecord
      else if isBreak c then .keep .eatNewlines
      else .fail

namespace Reader

def start : Reader := ⟨.startRecord, [], []⟩

variable (d : Dialect) (r : Reader)

def addChar (c : Char) (next : ReaderState) : Except ReadError Reader :=
  if d.fieldLimit ≤ r.field.length then .error .fieldTooLarge
  else .ok ⟨next, r.fields, r.field ++ [c]⟩

def saveField (next : ReaderState) : Reader :=
  ⟨next, r.fields ++ [r.field], []⟩

def apply : Move → Except ReadError Reader
  | .keep next => .ok { r with state := next }
  | .save next => .ok (r.saveField next)
  | .add c next => r.addChar d c next
  | .fail => .error .newlineInField

/-- One character. -/
def process (c : Option Char) : Except ReadError Reader :=
  r.apply d (move d.delimiter c r.state)

end Reader

/-- The end of a line stands behind `\n`, behind `\r` unless `\n` follows, and at
the end of the text. -/
def endsLine (c : Char) (rest : List Char) : Bool :=
  c = '\n' ∨ (c = '\r' ∧ rest.head? ≠ some '\n') ∨ rest = []

/-- The characters of a text with the ends of its lines. -/
def events : List Char → List (Option Char)
  | [] => []
  | c :: rest =>
      if endsLine c rest then some c :: none :: events rest else some c :: events rest

/-- One more record in front of those that are read. -/
def withRecord (record : CsvRecord) (read : List CsvRecord × Option ReadError) :
    List CsvRecord × Option ReadError :=
  (record :: read.1, read.2)

/-- The records that the reader yields, and the error it stops with. -/
def readEvents (d : Dialect) : Reader → List (Option Char) → List CsvRecord × Option ReadError
  | r, [] =>
      if r.field ≠ [] ∨ r.state = .inQuotedField then ([r.fields ++ [r.field]], none)
      else ([], none)
  | r, c :: rest =>
      match r.process d c with
      | .error error => ([], some error)
      | .ok r' =>
          if c = none ∧ r'.state = .startRecord then
            withRecord r'.fields (readEvents d .start rest)
          else readEvents d r' rest

/-- The records of a text. -/
def readText (d : Dialect) (text : List Char) : List CsvRecord × Option ReadError :=
  readEvents d .start (events text)

/-! ## The writer -/

/-- A field as it is written. -/
structure Cell where
  quoted : Bool
  value : List Char
deriving DecidableEq

/-- A field that cannot stand without quotes. -/
def needsQuotes (d : Dialect) (value : List Char) : Bool :=
  value.any fun c => c = d.delimiter ∨ c = '"' ∨ c = '\n' ∨ c = '\r'

/-- Quotes are doubled. -/
def escape : List Char → List Char
  | [] => []
  | c :: cs => if c = '"' then '"' :: '"' :: escape cs else c :: escape cs

def Cell.text (cell : Cell) : List Char :=
  if cell.quoted then '"' :: (escape cell.value ++ ['"']) else cell.value

/-- The cells of a row with delimiters between them. -/
def rowText (d : Dialect) : List Cell → List Char
  | [] => []
  | [cell] => cell.text
  | cell :: cells => cell.text ++ d.delimiter :: rowText d cells

/-- Quoted where it has to be, and not too long to be read. -/
structure Cell.Written (d : Dialect) (cell : Cell) : Prop where
  quoted : needsQuotes d cell.value = true → cell.quoted = true
  length_le : cell.value.length ≤ d.fieldLimit

/-- The row that looks like a blank line. -/
def blankRow : List Cell := [⟨false, []⟩]

/-- What a row is read as. -/
def recordOf (cells : List Cell) : CsvRecord :=
  if cells = blankRow then [] else cells.map Cell.value

/-- A row as a writer writes it that quotes only where it has to, and the single
empty field. -/
def writtenCells (d : Dialect) (record : CsvRecord) : List Cell :=
  if record = [[]] then [⟨true, []⟩]
  else record.map fun value => ⟨needsQuotes d value, value⟩

/-! ## Steps -/

section Steps

variable {d : Dialect} {r r' : Reader} {c next : Char} {fields : CsvRecord} {field : List Char}
variable {rest : List Char} {es : List (Option Char)}

theorem events_cons (hnewline : c ≠ '\n') (hreturn : c ≠ '\r') :
    events (c :: next :: rest) = some c :: events (next :: rest) := by
  have hline : endsLine c (next :: rest) = false := by simp [endsLine, hnewline, hreturn]
  rw [events, hline]
  rfl

theorem readEvents_some (h : r.process d (some c) = .ok r') :
    readEvents d r (some c :: es) = readEvents d r' es := by
  rw [readEvents, h]
  simp

/-- A mark that does not complete a record. -/
theorem readEvents_none (h : r.process d none = .ok r') (hstate : r'.state ≠ .startRecord) :
    readEvents d r (none :: es) = readEvents d r' es := by
  rw [readEvents, h]
  simp [hstate]

theorem addChar_eq {state : ReaderState} (h : r.field.length < d.fieldLimit) :
    r.addChar d c state = .ok ⟨state, r.fields, r.field ++ [c]⟩ :=
  if_neg (Nat.not_le.mpr h)

/-- Characters that need no quotes are taken as they are. -/
theorem readEvents_plain {cs : List Char} (hplain : needsQuotes d cs = false)
    (hroom : field.length + cs.length ≤ d.fieldLimit) :
    readEvents d ⟨.inField, fields, field⟩ (events (cs ++ next :: rest)) =
      readEvents d ⟨.inField, fields, field ++ cs⟩ (events (next :: rest)) := by
  induction cs generalizing field with
  | nil => rw [List.nil_append, List.append_nil]
  | cons c cs ih =>
      rw [List.length_cons] at hroom
      simp only [needsQuotes, List.any_cons, Bool.or_eq_false_iff, decide_eq_false_iff_not,
        not_or] at hplain
      obtain ⟨⟨hdelimiter, hquote, hnewline, hreturn⟩, hplain⟩ := hplain
      have hevents : events (c :: (cs ++ next :: rest)) =
          some c :: events (cs ++ next :: rest) := by
        cases cs with
        | nil => exact events_cons hnewline hreturn
        | cons c' cs => exact events_cons hnewline hreturn
      have hstep : Reader.process d ⟨.inField, fields, field⟩ (some c) =
          .ok ⟨.inField, fields, field ++ [c]⟩ := by
        have hadd : Reader.addChar d ⟨.inField, fields, field⟩ c .inField =
            .ok ⟨.inField, fields, field ++ [c]⟩ := addChar_eq (by simp only; omega)
        simpa [Reader.process, Reader.apply, move, isBreak, hdelimiter, hnewline, hreturn] using hadd
      rw [List.cons_append, hevents, readEvents_some hstep,
        ih hplain (by rw [List.length_append, List.length_singleton]; omega), List.append_assoc,
        List.singleton_append]

/-- Inside quotes only a quote is special, and it is doubled there. -/
theorem readEvents_escape {cs : List Char} (hroom : field.length + cs.length ≤ d.fieldLimit) :
    readEvents d ⟨.inQuotedField, fields, field⟩ (events (escape cs ++ '"' :: next :: rest)) =
      readEvents d ⟨.quoteInQuotedField, fields, field ++ cs⟩ (events (next :: rest)) := by
  induction cs generalizing field with
  | nil =>
      rw [escape, List.nil_append, List.append_nil, events_cons (by decide) (by decide)]
      exact readEvents_some rfl
  | cons c cs ih =>
      rw [List.length_cons] at hroom
      have hadd : ∀ state, Reader.addChar d ⟨state, fields, field⟩ c .inQuotedField =
          .ok ⟨.inQuotedField, fields, field ++ [c]⟩ := fun state =>
        addChar_eq (by simp only; omega)
      have hroom' : (field ++ [c]).length + cs.length ≤ d.fieldLimit := by
        rw [List.length_append, List.length_singleton]
        omega
      have htail := ih hroom'
      rw [List.append_assoc, List.singleton_append] at htail
      -- what stands behind this character is not empty
      obtain ⟨x, xs, hnext⟩ : ∃ x xs, escape cs ++ '"' :: next :: rest = x :: xs := by
        cases hescape : escape cs with
        | nil => exact ⟨_, _, rfl⟩
        | cons x xs => exact ⟨_, _, rfl⟩
      by_cases hquote : c = '"'
      · subst hquote
        have hfirst : Reader.process d ⟨.inQuotedField, fields, field⟩ (some '"') =
            .ok ⟨.quoteInQuotedField, fields, field⟩ := rfl
        have hdouble : Reader.process d ⟨.quoteInQuotedField, fields, field⟩ (some '"') =
            .ok ⟨.inQuotedField, fields, field ++ ['"']⟩ := hadd _
        rw [escape, if_pos rfl, List.cons_append, List.cons_append, hnext,
          events_cons (by decide) (by decide), events_cons (by decide) (by decide),
          readEvents_some hfirst, readEvents_some hdouble, ← hnext]
        exact htail
      · have hstep : Reader.process d ⟨.inQuotedField, fields, field⟩ (some c) =
            .ok ⟨.inQuotedField, fields, field ++ [c]⟩ := by
          rw [← hadd .inQuotedField]
          simp [Reader.process, Reader.apply, move, hquote]
        rw [escape, if_neg hquote, List.cons_append, hnext, events]
        split
        · rw [readEvents_some hstep, readEvents_none rfl (by simp), ← hnext]
          exact htail
        · rw [readEvents_some hstep, ← hnext]
          exact htail

end Steps

/-! ## Rows -/

section Rows

variable {d : Dialect} {r : Reader} {cell : Cell} {cells : List Cell} {fields : CsvRecord}
variable {lineEnd rest : List Char} {next : Char}

/-- `\n` or `\r\n` -/
def IsLineEnd (lineEnd : List Char) : Prop :=
  lineEnd = ['\n'] ∨ lineEnd = ['\r', '\n']

/-- Where the reader stands behind the text of a cell. -/
def afterCell (r : Reader) (cell : Cell) : Reader :=
  if cell.quoted then ⟨.quoteInQuotedField, r.fields, cell.value⟩
  else if cell.value = [] then r
  else ⟨.inField, r.fields, cell.value⟩

/-- A reader that expects a field. -/
structure Reader.Expects (r : Reader) : Prop where
  state : r.state = .startField ∨ r.state = .startRecord
  field : r.field = []

/-- A character that is no line break and no quote begins a field. -/
theorem process_first {c : Char} (hr : r.Expects) (hplain : needsQuotes d [c] = false)
    (hroom : 1 ≤ d.fieldLimit) :
    r.process d (some c) = .ok ⟨.inField, r.fields, [c]⟩ := by
  simp only [needsQuotes, List.any_cons, List.any_nil, Bool.or_false, decide_eq_false_iff_not,
    not_or] at hplain
  obtain ⟨hdelimiter, hquote, hnewline, hreturn⟩ := hplain
  have hadd : r.addChar d c .inField = .ok ⟨.inField, r.fields, r.field ++ [c]⟩ :=
    addChar_eq (by rw [hr.field]; exact hroom)
  rw [hr.field, List.nil_append] at hadd
  rcases hr.state with hstate | hstate <;>
    simpa [Reader.process, Reader.apply, move, moveAtField, isBreak, hstate, hdelimiter, hquote,
      hnewline, hreturn] using hadd

theorem process_quote (hr : r.Expects) :
    r.process d (some '"') = .ok ⟨.inQuotedField, r.fields, []⟩ := by
  rcases hr.state with hstate | hstate <;>
    simp [Reader.process, Reader.apply, move, moveAtField, isBreak, hstate, ← hr.field]

/-- The text of a cell takes the reader behind it. -/
theorem readEvents_cell (hr : r.Expects) (hcell : cell.Written d) :
    readEvents d r (events (cell.text ++ next :: rest)) =
      readEvents d (afterCell r cell) (events (next :: rest)) := by
  have hlength := hcell.length_le
  unfold Cell.text afterCell
  by_cases hquoted : cell.quoted = true
  · rw [if_pos hquoted, if_pos hquoted, List.cons_append, List.append_assoc,
      List.singleton_append]
    have hescape : readEvents d ⟨.inQuotedField, r.fields, []⟩
        (events (escape cell.value ++ '"' :: next :: rest)) =
          readEvents d ⟨.quoteInQuotedField, r.fields, [] ++ cell.value⟩
            (events (next :: rest)) := readEvents_escape (by simpa using hlength)
    rw [List.nil_append] at hescape
    rw [← hescape]
    cases hvalue : escape cell.value with
    | nil =>
        rw [List.nil_append, events_cons (by decide) (by decide)]
        exact readEvents_some (process_quote hr)
    | cons c cs =>
        rw [List.cons_append, events_cons (by decide) (by decide)]
        exact readEvents_some (process_quote hr)
  · have hplain : needsQuotes d cell.value = false := by
      by_contra hneeds
      exact hquoted (hcell.quoted (by simpa using hneeds))
    rw [if_neg hquoted, if_neg hquoted]
    cases hvalue : cell.value with
    | nil => rfl
    | cons c cs =>
        rw [hvalue, List.length_cons] at hlength
        rw [hvalue] at hplain
        rw [needsQuotes, List.any_cons, Bool.or_eq_false_iff] at hplain
        obtain ⟨hfirst, hothers⟩ := hplain
        have hstep : r.process d (some c) = .ok ⟨.inField, r.fields, [c]⟩ :=
          process_first hr (by rw [needsQuotes, List.any_cons, hfirst]; rfl) (by omega)
        have hplain : readEvents d ⟨.inField, r.fields, [c]⟩ (events (cs ++ next :: rest)) =
            readEvents d ⟨.inField, r.fields, [c] ++ cs⟩ (events (next :: rest)) :=
          readEvents_plain hothers (by rw [List.length_singleton]; omega)
        simp only [decide_eq_false_iff_not, not_or] at hfirst
        rw [if_neg (List.cons_ne_nil _ _), ← List.singleton_append, ← hplain,
          List.singleton_append, List.cons_append]
        cases cs with
        | nil =>
            rw [List.nil_append, events_cons hfirst.2.2.1 hfirst.2.2.2]
            exact readEvents_some hstep
        | cons c' cs =>
            rw [List.cons_append, events_cons hfirst.2.2.1 hfirst.2.2.2]
            exact readEvents_some hstep

/-- Behind a cell the delimiter saves its value. -/
theorem process_delimiter (hr : r.Expects) :
    (afterCell r cell).process d (some d.delimiter) =
      .ok ⟨.startField, r.fields ++ [cell.value], []⟩ := by
  have hquote := d.delimiter_ne_quote
  have hnewline := d.delimiter_ne_newline
  have hreturn := d.delimiter_ne_return
  unfold afterCell
  split
  · simp [Reader.process, Reader.apply, move, Reader.saveField, hquote]
  · split
    · rename_i hempty
      rcases hr.state with hstate | hstate <;>
        simp [Reader.process, Reader.apply, move, moveAtField, isBreak, Reader.saveField, hstate,
          hquote, hnewline, hreturn, hr.field, hempty]
    · simp [Reader.process, Reader.apply, move, isBreak, Reader.saveField, hnewline, hreturn]

/-- Behind a cell a line break saves its value, unless nothing of the row has been
seen. -/
theorem process_break {c : Char} (hc : c = '\n' ∨ c = '\r') (hr : r.Expects)
    (hseen : r.state = .startField ∨ cell ≠ ⟨false, []⟩) :
    (afterCell r cell).process d (some c) =
      .ok ⟨.eatNewlines, r.fields ++ [cell.value], []⟩ := by
  have hbreak : isBreak (some c) = true := by
    rcases hc with rfl | rfl <;> rfl
  have hquote : c ≠ '"' := by
    rcases hc with rfl | rfl <;> decide
  have hdelimiter : c ≠ d.delimiter := by
    rcases hc with rfl | rfl
    · exact d.delimiter_ne_newline.symm
    · exact d.delimiter_ne_return.symm
  unfold afterCell
  split
  · simp [Reader.process, Reader.apply, move, afterBreak, Reader.saveField, hbreak, hquote,
      hdelimiter]
  · rename_i hquoted
    split
    · rename_i hempty
      have hstate : r.state = .startField := by
        refine hseen.resolve_right fun hne => hne ?_
        cases cell
        simp_all
      simp [Reader.process, Reader.apply, move, moveAtField, afterBreak, Reader.saveField, hstate,
        hbreak, hr.field, hempty]
    · simp [Reader.process, Reader.apply, move, afterBreak, Reader.saveField, hbreak]

/-- A line break completes the record. -/
theorem readEvents_lineEnd (hend : IsLineEnd lineEnd)
    (hbreak : ∀ c, c = '\n' ∨ c = '\r' → r.process d (some c) = .ok ⟨.eatNewlines, fields, []⟩) :
    readEvents d r (events (lineEnd ++ rest)) = withRecord fields (readText d rest) := by
  have hnewline : ∀ {r' : Reader}, r'.process d (some '\n') = .ok ⟨.eatNewlines, fields, []⟩ →
      readEvents d r' (events ('\n' :: rest)) = withRecord fields (readText d rest) := by
    intro r' hstep
    rw [events, if_pos (by simp [endsLine]), readEvents_some hstep, readEvents]
    rfl
  rcases hend with rfl | rfl
  · exact hnewline (hbreak '\n' (.inl rfl))
  · rw [List.cons_append, List.cons_append, events, if_neg (by simp [endsLine]),
      readEvents_some (hbreak '\r' (.inr rfl)), List.nil_append]
    exact hnewline rfl

theorem rowText_cons_cons (d : Dialect) (cell cell' : Cell) (cells : List Cell) :
    rowText d (cell :: cell' :: cells) = cell.text ++ d.delimiter :: rowText d (cell' :: cells) :=
  rfl

/-- The text of a row behind which a line break stands. -/
theorem readEvents_row (hend : IsLineEnd lineEnd) (hr : r.Expects) (hne : cells ≠ [])
    (hcells : ∀ cell ∈ cells, cell.Written d)
    (hseen : r.state = .startField ∨ cells ≠ blankRow) :
    readEvents d r (events (rowText d cells ++ (lineEnd ++ rest))) =
      withRecord (r.fields ++ cells.map Cell.value) (readText d rest) := by
  induction cells generalizing r with
  | nil => exact absurd rfl hne
  | cons cell cells ih =>
      have hcell := hcells cell List.mem_cons_self
      cases cells with
      | nil =>
          have hlast : r.state = .startField ∨ cell ≠ ⟨false, []⟩ :=
            hseen.imp_right fun h hblank => h (congrArg (fun cell => [cell]) hblank)
          have hstart : ∃ x xs, lineEnd ++ rest = x :: xs := by
            rcases hend with rfl | rfl <;> exact ⟨_, _, rfl⟩
          obtain ⟨x, xs, hstart⟩ := hstart
          rw [rowText, hstart, readEvents_cell hr hcell, ← hstart]
          exact readEvents_lineEnd hend fun c hc => process_break hc hr hlast
      | cons cell' cells =>
          rw [rowText_cons_cons, List.append_assoc, List.cons_append, readEvents_cell hr hcell]
          obtain ⟨x, xs, hnext⟩ : ∃ x xs,
              rowText d (cell' :: cells) ++ (lineEnd ++ rest) = x :: xs := by
            cases htext : rowText d (cell' :: cells) with
            | nil =>
                rcases hend with rfl | rfl <;> exact ⟨_, _, rfl⟩
            | cons x xs => exact ⟨_, _, rfl⟩
          rw [hnext, events_cons d.delimiter_ne_newline d.delimiter_ne_return, ← hnext,
            readEvents_some (process_delimiter hr),
            ih ⟨.inl rfl, rfl⟩ (List.cons_ne_nil _ _)
              (fun cell h => hcells cell (List.mem_cons_of_mem _ h)) (.inl rfl),
            List.append_assoc, List.singleton_append, List.map_cons, List.map_cons,
            List.map_cons]

/-- **Reading a written row.**  The text of a row and its line break are read as the
values of the row, and what follows is read as if it stood alone. -/
theorem readText_row (hend : IsLineEnd lineEnd) (hcells : ∀ cell ∈ cells, cell.Written d) :
    readText d (rowText d cells ++ (lineEnd ++ rest)) =
      withRecord (recordOf cells) (readText d rest) := by
  have hstart : Reader.start.Expects := ⟨.inr rfl, rfl⟩
  have hblank : readEvents d Reader.start (events (lineEnd ++ rest)) =
      withRecord [] (readText d rest) := by
    refine readEvents_lineEnd hend fun c hc => ?_
    rcases hc with rfl | rfl <;> rfl
  unfold recordOf
  split
  · rename_i hcells
    subst hcells
    exact hblank
  · rename_i hseen
    cases cells with
    | nil => exact hblank
    | cons cell cells =>
        exact readEvents_row hend hstart (List.cons_ne_nil _ _) hcells (.inr hseen)

theorem readText_rows {rows : List (List Cell)} (hend : IsLineEnd lineEnd)
    (hrows : ∀ cells ∈ rows, ∀ cell ∈ cells, cell.Written d) :
    readText d (rows.flatMap fun cells => rowText d cells ++ lineEnd) =
      (rows.map recordOf, none) := by
  induction rows with
  | nil => rfl
  | cons cells rows ih =>
      rw [List.flatMap_cons, List.append_assoc, readText_row hend (hrows cells List.mem_cons_self),
        ih fun cells h => hrows cells (List.mem_cons_of_mem _ h)]
      rfl

theorem recordOf_writtenCells (record : CsvRecord) :
    recordOf (writtenCells d record) = record := by
  unfold writtenCells
  split
  · rename_i hblank
    rw [hblank]
    rfl
  · rename_i hblank
    have hne : record.map (fun value => (⟨needsQuotes d value, value⟩ : Cell)) ≠ blankRow := by
      intro h
      obtain ⟨value, rfl, hcell⟩ := List.map_eq_singleton_iff.mp h
      exact hblank (congrArg (fun value => [value]) (congrArg Cell.value hcell))
    rw [recordOf, if_neg hne, List.map_map]
    exact List.map_id _

theorem written_writtenCells {record : CsvRecord}
    (hlength : ∀ value ∈ record, value.length ≤ d.fieldLimit) :
    ∀ cell ∈ writtenCells d record, cell.Written d := by
  intro cell hcell
  unfold writtenCells at hcell
  split at hcell
  · rw [List.mem_singleton.mp hcell]
    exact ⟨fun _ => rfl, Nat.zero_le _⟩
  · obtain ⟨value, hvalue, rfl⟩ := List.mem_map.mp hcell
    exact ⟨id, hlength value hvalue⟩

end Rows

end CsvText
end Northwind
