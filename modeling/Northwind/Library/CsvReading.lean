import Northwind.Library.CsvText
import Mathlib.Algebra.Order.BigOperators.Group.List
import Mathlib.Algebra.Order.Ring.Nat

/-!
# What can be said of any CSV text

No field that is read exceeds the limit, and a larger limit changes nothing that
has been read without an error.  The first field of the first record stays what
it was saved as, and grows only at its end before that.

A field without quotes is, to a reader with another delimiter, the pieces
between the delimiters that stand in it.
-/

namespace Northwind
namespace CsvText

section Reading

variable {d e : Dialect} {r r' : Reader} {c : Option Char} {es : List (Option Char)}

/-- What a character does, by the move that the table has for it. -/
theorem process_cases (h : r.process d c = .ok r') :
    (∃ next, r' = { r with state := next }) ∨ (∃ next, r' = r.saveField next) ∨
      ∃ a next, r.field.length < d.fieldLimit ∧ r' = ⟨next, r.fields, r.field ++ [a]⟩ := by
  unfold Reader.process at h
  cases hmove : move d.delimiter c r.state with
  | keep next =>
      rw [hmove] at h
      exact .inl ⟨next, (Except.ok.inj h).symm⟩
  | save next =>
      rw [hmove] at h
      exact .inr (.inl ⟨next, (Except.ok.inj h).symm⟩)
  | add a next =>
      rw [hmove] at h
      change r.addChar d a next = .ok r' at h
      unfold Reader.addChar at h
      split at h
      · cases h
      · rename_i hroom
        exact .inr (.inr ⟨a, next, Nat.not_le.mp hroom, (Except.ok.inj h).symm⟩)
  | fail =>
      rw [hmove] at h
      cases h

/-- Induction over a text that is read without an error. -/
theorem readEvents_ok_cons {c : Option Char} {records : List CsvRecord}
    (h : readEvents d r (c :: es) = (records, none)) :
    ∃ r', r.process d c = .ok r' ∧
      ((c = none ∧ r'.state = .startRecord ∧ ∃ rest, records = r'.fields :: rest ∧
          readEvents d .start es = (rest, none)) ∨
        (¬(c = none ∧ r'.state = .startRecord) ∧ readEvents d r' es = (records, none))) := by
  rw [readEvents] at h
  cases hstep : r.process d c with
  | error error =>
      rw [hstep] at h
      exact absurd (congrArg Prod.snd h) (by simp)
  | ok r' =>
      rw [hstep] at h
      refine ⟨r', rfl, ?_⟩
      by_cases hcomplete : c = none ∧ r'.state = .startRecord
      · simp only [hcomplete, and_self, if_true, withRecord, Prod.mk.injEq] at h
        exact .inl ⟨hcomplete.1, hcomplete.2, _, h.1.symm, Prod.ext rfl h.2⟩
      · simp only [hcomplete, if_false] at h
        exact .inr ⟨hcomplete, h⟩

/-! ## The limit -/

theorem process_of_le (hdelimiter : e.delimiter = d.delimiter)
    (hlimit : d.fieldLimit ≤ e.fieldLimit) (h : r.process d c = .ok r') :
    r.process e c = .ok r' := by
  unfold Reader.process at h ⊢
  rw [hdelimiter]
  cases hmove : move d.delimiter c r.state with
  | add a next =>
      rw [hmove] at h
      change r.addChar d a next = .ok r' at h
      change r.addChar e a next = .ok r'
      unfold Reader.addChar at h ⊢
      split at h
      · cases h
      · rename_i hroom
        rwa [if_neg (by omega)]
  | keep next => rwa [hmove] at h
  | save next => rwa [hmove] at h
  | fail => rwa [hmove] at h

/-- What is read without an error is read the same under a larger limit. -/
theorem readEvents_of_le {records : List CsvRecord} (hdelimiter : e.delimiter = d.delimiter)
    (hlimit : d.fieldLimit ≤ e.fieldLimit) (h : readEvents d r es = (records, none)) :
    readEvents e r es = (records, none) := by
  induction es generalizing r records with
  | nil => exact h
  | cons c es ih =>
      obtain ⟨r', hstep, hrest⟩ := readEvents_ok_cons h
      rw [readEvents, process_of_le hdelimiter hlimit hstep]
      rcases hrest with ⟨hend, hstate, rest, rfl, hrest⟩ | ⟨hopen, hrest⟩
      · simp only [hend, hstate, and_self, if_true, ih hrest, withRecord]
      · simp only [hopen, if_false]
        exact ih hrest

/-- The fields that a reader holds are within the limit. -/
def Reader.Within (d : Dialect) (r : Reader) : Prop :=
  r.field.length ≤ d.fieldLimit ∧ ∀ field ∈ r.fields, field.length ≤ d.fieldLimit

theorem Reader.Within.process (hr : r.Within d) (h : r.process d c = .ok r') : r'.Within d := by
  rcases process_cases h with ⟨next, rfl⟩ | ⟨next, rfl⟩ | ⟨a, next, hroom, rfl⟩
  · exact hr
  · refine ⟨Nat.zero_le _, fun field hfield => ?_⟩
    rcases List.mem_append.mp hfield with hold | hnew
    · exact hr.2 field hold
    · rw [List.mem_singleton.mp hnew]
      exact hr.1
  · refine ⟨?_, hr.2⟩
    rw [List.length_append, List.length_singleton]
    omega

theorem length_le_of_readEvents {records : List CsvRecord} (hr : r.Within d)
    (h : readEvents d r es = (records, none)) :
    ∀ record ∈ records, ∀ field ∈ record, field.length ≤ d.fieldLimit := by
  induction es generalizing r records with
  | nil =>
      intro record hrecord field hfield
      rw [readEvents] at h
      split at h
      · rw [← (Prod.mk.inj h).1, List.mem_singleton] at hrecord
        rw [hrecord] at hfield
        rcases List.mem_append.mp hfield with hold | hnew
        · exact hr.2 field hold
        · rw [List.mem_singleton.mp hnew]
          exact hr.1
      · rw [← (Prod.mk.inj h).1] at hrecord
        cases hrecord
  | cons c es ih =>
      obtain ⟨r', hstep, hrest⟩ := readEvents_ok_cons h
      have hr' := hr.process hstep
      rcases hrest with ⟨_, _, rest, rfl, hrest⟩ | ⟨_, hrest⟩
      · intro record hrecord
        rcases List.mem_cons.mp hrecord with rfl | hmem
        · exact hr'.2
        · exact ih ⟨Nat.zero_le _, fun _ h => absurd h List.not_mem_nil⟩ hrest record hmem
      · exact ih hr' hrest

/-! ## The first field -/

/-- The first record begins with the field that was saved first. -/
theorem head_of_saved {records : List CsvRecord} {record : CsvRecord} {field : List Char}
    (hr : r.fields.head? = some field) (h : readEvents d r es = (records, none))
    (hrecord : records.head? = some record) : record.head? = some field := by
  have hsaved : ∀ more : CsvRecord, (r.fields ++ more).head? = some field := by
    intro more
    rw [List.head?_append, hr, Option.some_or]
  induction es generalizing r records with
  | nil =>
      rw [readEvents] at h
      split at h
      · rw [← (Prod.mk.inj h).1, List.head?_cons, Option.some.injEq] at hrecord
        rw [← hrecord]
        exact hsaved _
      · rw [← (Prod.mk.inj h).1] at hrecord
        cases hrecord
  | cons c es ih =>
      obtain ⟨r', hstep, hrest⟩ := readEvents_ok_cons h
      have hr' : r'.fields.head? = some field := by
        rcases process_cases hstep with ⟨next, rfl⟩ | ⟨next, rfl⟩ | ⟨a, next, _, rfl⟩
        · exact hr
        · exact hsaved _
        · exact hr
      rcases hrest with ⟨_, _, rest, rfl, _⟩ | ⟨_, hrest⟩
      · rw [List.head?_cons, Option.some.injEq] at hrecord
        rwa [← hrecord]
      · refine ih hr' hrest hrecord fun more => ?_
        rw [List.head?_append, hr', Option.some_or]

/-- A first field that has begun without quotes grows at its end. -/
theorem prefix_of_begun {records : List CsvRecord} {record : CsvRecord} {begun field : List Char}
    (hbegun : begun <+: field) (h : readEvents d ⟨.inField, [], field⟩ es = (records, none))
    (hrecord : records.head? = some record) :
    ∃ first, record.head? = some first ∧ begun <+: first := by
  induction es generalizing field with
  | nil =>
      rw [readEvents] at h
      split at h
      · rw [← (Prod.mk.inj h).1, List.head?_cons, Option.some.injEq] at hrecord
        exact ⟨field, by rw [← hrecord]; rfl, hbegun⟩
      · rw [← (Prod.mk.inj h).1] at hrecord
        cases hrecord
  | cons c es ih =>
      -- inside an unquoted field a character is added or the field is saved
      have hmove : (∃ next, move d.delimiter c .inField = .save next) ∨
          ∃ a, move d.delimiter c .inField = .add a .inField := by
        by_cases hbreak : isBreak c = true
        · exact .inl ⟨afterBreak c, by rw [move, if_pos hbreak]⟩
        · by_cases hdelimiter : c = some d.delimiter
          · refine .inl ⟨.startField, ?_⟩
            rw [move, if_neg hbreak, if_pos hdelimiter]
          · cases c with
            | none => exact absurd rfl hbreak
            | some a => exact .inr ⟨a, by simp [move, hbreak, hdelimiter]⟩
      rcases hmove with ⟨next, hmove⟩ | ⟨a, hmove⟩
      · obtain ⟨r', hstep, hrest⟩ := readEvents_ok_cons h
        have hr' : r' = ⟨next, [field], []⟩ := by
          rw [Reader.process, hmove] at hstep
          exact (Except.ok.inj hstep).symm
        subst hr'
        refine ⟨field, ?_, hbegun⟩
        rcases hrest with ⟨_, _, rest, rfl, _⟩ | ⟨_, hrest⟩
        · rw [List.head?_cons, Option.some.injEq] at hrecord
          rw [← hrecord]
          rfl
        · exact head_of_saved rfl hrest hrecord
      · obtain ⟨r', hstep, hrest⟩ := readEvents_ok_cons h
        have hr' : r' = ⟨.inField, [], field ++ [a]⟩ := by
          rw [Reader.process, hmove] at hstep
          change Reader.addChar d _ a .inField = .ok r' at hstep
          unfold Reader.addChar at hstep
          split at hstep
          · cases hstep
          · exact (Except.ok.inj hstep).symm
        subst hr'
        rcases hrest with ⟨_, hstate, _⟩ | ⟨_, hrest⟩
        · cases hstate
        · exact ih (hbegun.trans (List.prefix_append _ _)) hrest

end Reading

/-! ## Pieces between delimiters -/

/-- The pieces of a text between the delimiters in it. -/
def pieces (delimiter : Char) : List Char → List (List Char)
  | [] => [[]]
  | c :: cs =>
      if c = delimiter then [] :: pieces delimiter cs
      else (pieces delimiter cs).modifyHead (c :: ·)

/-- A cell as the cells that a reader with another delimiter finds in it. -/
def Cell.pieces (delimiter : Char) (cell : Cell) : List Cell :=
  if cell.quoted then [cell] else (CsvText.pieces delimiter cell.value).map fun piece => ⟨false, piece⟩

section Pieces

variable {d e : Dialect} {delimiter c : Char} {cs piece : List Char} {cell : Cell}

theorem pieces_ne_nil (delimiter : Char) (cs : List Char) : pieces delimiter cs ≠ [] := by
  induction cs with
  | nil => simp [pieces]
  | cons c cs ih =>
      rw [pieces]
      split
      · simp
      · cases hpieces : pieces delimiter cs with
        | nil => exact absurd hpieces ih
        | cons piece rest => simp

theorem pieces_cons_delimiter : pieces delimiter (delimiter :: cs) = [] :: pieces delimiter cs :=
  if_pos rfl

theorem pieces_cons (cs : List Char) (hc : c ≠ delimiter) :
    ∃ piece rest, pieces delimiter cs = piece :: rest ∧
      pieces delimiter (c :: cs) = (c :: piece) :: rest := by
  cases hpieces : pieces delimiter cs with
  | nil => exact absurd hpieces (pieces_ne_nil delimiter cs)
  | cons piece rest =>
      refine ⟨piece, rest, rfl, ?_⟩
      rw [pieces, if_neg hc, hpieces, List.modifyHead_cons]

/-- The pieces with delimiters between them are the text again. -/
theorem rowText_pieces (d : Dialect) (cs : List Char) :
    rowText d ((pieces d.delimiter cs).map fun piece => ⟨false, piece⟩) = cs := by
  have hcell : ∀ piece : List Char, (⟨false, piece⟩ : Cell).text = piece := fun _ => rfl
  induction cs with
  | nil => rfl
  | cons c cs ih =>
      by_cases hc : c = d.delimiter
      · subst hc
        rw [pieces_cons_delimiter, List.map_cons]
        cases hpieces : pieces d.delimiter cs with
        | nil => exact absurd hpieces (pieces_ne_nil _ cs)
        | cons piece rest =>
            rw [hpieces] at ih
            rw [List.map_cons, rowText_cons_cons, hcell, List.nil_append, ← List.map_cons, ih]
      · obtain ⟨piece, rest, hpieces, hcons⟩ := pieces_cons cs hc
        rw [hpieces] at ih
        rw [hcons]
        cases rest with
        | nil =>
            rw [List.map_cons, List.map_nil, rowText, hcell] at ih ⊢
            rw [ih]
        | cons piece' rest =>
            rw [List.map_cons, List.map_cons, rowText_cons_cons, hcell] at ih ⊢
            rw [List.cons_append, ih]

theorem not_mem_of_mem_pieces (h : piece ∈ pieces delimiter cs) : delimiter ∉ piece := by
  induction cs generalizing piece with
  | nil =>
      rw [List.mem_singleton.mp h]
      exact List.not_mem_nil
  | cons c cs ih =>
      by_cases hc : c = delimiter
      · subst hc
        rw [pieces_cons_delimiter] at h
        rcases List.mem_cons.mp h with rfl | hmem
        · exact List.not_mem_nil
        · exact ih hmem
      · obtain ⟨first, rest, hpieces, hcons⟩ := pieces_cons cs hc
        rw [hcons] at h
        rcases List.mem_cons.mp h with rfl | hmem
        · rw [List.mem_cons, not_or]
          exact ⟨fun heq => hc heq.symm, ih (by rw [hpieces]; exact List.mem_cons_self)⟩
        · exact ih (by rw [hpieces]; exact List.mem_cons_of_mem _ hmem)

theorem sublist_of_mem_pieces (h : piece ∈ pieces delimiter cs) : piece.Sublist cs := by
  induction cs generalizing piece with
  | nil =>
      rw [List.mem_singleton.mp h]
  | cons c cs ih =>
      by_cases hc : c = delimiter
      · subst hc
        rw [pieces_cons_delimiter] at h
        rcases List.mem_cons.mp h with rfl | hmem
        · exact List.nil_sublist _
        · exact (ih hmem).cons _
      · obtain ⟨first, rest, hpieces, hcons⟩ := pieces_cons cs hc
        rw [hcons] at h
        rcases List.mem_cons.mp h with rfl | hmem
        · exact (ih (by rw [hpieces]; exact List.mem_cons_self)).cons_cons _
        · exact (ih (by rw [hpieces]; exact List.mem_cons_of_mem _ hmem)).cons _

theorem pieces_of_not_mem (h : delimiter ∉ cs) : pieces delimiter cs = [cs] := by
  induction cs with
  | nil => rfl
  | cons c cs ih =>
      rw [List.mem_cons, not_or] at h
      rw [pieces, if_neg (fun heq => h.1 heq.symm), ih h.2, List.modifyHead_cons]

theorem two_pieces (h : delimiter ∈ cs) :
    ∃ piece piece' rest, pieces delimiter cs = piece :: piece' :: rest := by
  induction cs with
  | nil => cases h
  | cons c cs ih =>
      by_cases hc : c = delimiter
      · subst hc
        rw [pieces_cons_delimiter]
        cases hpieces : pieces c cs with
        | nil => exact absurd hpieces (pieces_ne_nil _ cs)
        | cons piece rest => exact ⟨[], piece, rest, rfl⟩
      · obtain ⟨piece, piece', rest, hpieces⟩ :=
          ih ((List.mem_cons.mp h).resolve_left fun heq => hc heq.symm)
        rw [pieces, if_neg hc, hpieces]
        exact ⟨c :: piece, piece', rest, rfl⟩

theorem rowText_cell_pieces (e : Dialect) (cell : Cell) :
    rowText e (cell.pieces e.delimiter) = cell.text := by
  unfold Cell.pieces Cell.text
  split
  · rename_i hquoted
    rw [rowText, Cell.text, if_pos hquoted]
  · exact rowText_pieces e cell.value

/-- Whatever the delimiter was that a cell was written with, its pieces are quoted
where the reader needs it. -/
theorem quoted_of_mem_pieces {piece : Cell}
    (hquoted : needsQuotes d cell.value = true → cell.quoted = true)
    (hpiece : piece ∈ cell.pieces e.delimiter) (hneeds : needsQuotes e piece.value = true) :
    piece.quoted = true := by
  unfold Cell.pieces at hpiece
  split at hpiece
  · rename_i h
    rwa [List.mem_singleton.mp hpiece]
  · rename_i hplain
    obtain ⟨value, hvalue, rfl⟩ := List.mem_map.mp hpiece
    refine absurd (hquoted ?_) hplain
    -- the piece has no delimiter of the reader, so the cell has what needs the quotes
    obtain ⟨c, hc, hspecial⟩ := List.any_eq_true.mp hneeds
    have hother : c ≠ e.delimiter := fun heq => not_mem_of_mem_pieces hvalue (heq ▸ hc)
    refine List.any_eq_true.mpr ⟨c, (sublist_of_mem_pieces hvalue).subset hc, ?_⟩
    simp only [hother, false_or, decide_eq_true_eq] at hspecial ⊢
    exact .inr hspecial

theorem length_le_of_mem_cell_pieces {piece : Cell} (hpiece : piece ∈ cell.pieces delimiter) :
    piece.value.length ≤ cell.value.length := by
  unfold Cell.pieces at hpiece
  split at hpiece
  · rw [List.mem_singleton.mp hpiece]
  · obtain ⟨value, hvalue, rfl⟩ := List.mem_map.mp hpiece
    exact (sublist_of_mem_pieces hvalue).length_le

theorem cell_pieces_of_plain (h : delimiter ∈ cell.value → cell.quoted = true) :
    cell.pieces delimiter = [cell] := by
  unfold Cell.pieces
  split
  · rfl
  · rename_i hplain
    have hfree : delimiter ∉ cell.value := fun hmem => hplain (h hmem)
    rw [Bool.not_eq_true] at hplain
    have hcell : (⟨false, cell.value⟩ : Cell) = cell := by rw [← hplain]
    rw [pieces_of_not_mem hfree, List.map_singleton, hcell]

theorem recordOf_cell_pieces :
    recordOf (cell.pieces delimiter) = [cell.value] ↔
      cell ≠ ⟨false, []⟩ ∧ (delimiter ∈ cell.value → cell.quoted = true) := by
  obtain ⟨quoted, value⟩ := cell
  unfold Cell.pieces
  by_cases hquoted : quoted = true
  · simp [hquoted, recordOf, blankRow]
  · rw [Bool.not_eq_true] at hquoted
    subst hquoted
    by_cases hmem : delimiter ∈ value
    · obtain ⟨piece, piece', rest, hpieces⟩ := two_pieces hmem
      simp [hpieces, hmem, recordOf, blankRow]
    · rw [pieces_of_not_mem hmem]
      by_cases hblank : value = [] <;> simp [recordOf, blankRow, hblank, hmem]

end Pieces

theorem rowText_congr {d e : Dialect} (h : e.delimiter = d.delimiter) (cells : List Cell) :
    rowText e cells = rowText d cells := by
  induction cells with
  | nil => rfl
  | cons cell cells ih =>
      cases cells with
      | nil => rfl
      | cons cell' cells =>
          rw [rowText_cons_cons, rowText_cons_cons, h, ih]

/-- What a written text can be read as without an error, if at all: its rows, and
only if all of their fields are within the limit. -/
theorem eq_of_readText_rows {d : Dialect} {rows : List (List Cell)} {lineEnd : List Char}
    {records : List CsvRecord} (hend : IsLineEnd lineEnd)
    (hquoted : ∀ cells ∈ rows, ∀ cell ∈ cells,
      needsQuotes d cell.value = true → cell.quoted = true)
    (h : readText d (rows.flatMap fun cells => rowText d cells ++ lineEnd) = (records, none)) :
    records = rows.map recordOf ∧
      ∀ record ∈ records, ∀ field ∈ record, field.length ≤ d.fieldLimit := by
  refine ⟨?_, length_le_of_readEvents (r := .start)
    ⟨Nat.zero_le _, fun _ h => absurd h List.not_mem_nil⟩ h⟩
  -- under a limit that all fields meet
  let lengths := (rows.flatten.map fun cell => cell.value.length)
  let e : Dialect := { d with fieldLimit := max d.fieldLimit lengths.sum }
  have hwritten : ∀ cells ∈ rows, ∀ cell ∈ cells, cell.Written e := by
    intro cells hcells cell hcell
    refine ⟨hquoted cells hcells cell hcell, le_trans ?_ (Nat.le_max_right _ _)⟩
    exact List.single_le_sum (fun _ _ => Nat.zero_le _) _
      (List.mem_map_of_mem (List.mem_flatten_of_mem hcells hcell))
  have hall := readText_rows hend hwritten
  have htext : (rows.flatMap fun cells => rowText e cells ++ lineEnd) =
      rows.flatMap fun cells => rowText d cells ++ lineEnd :=
    List.flatMap_congr fun cells _ => by rw [rowText_congr (d := d) (e := e) rfl]
  rw [htext] at hall
  have hlarge : readText e (rows.flatMap fun cells => rowText d cells ++ lineEnd) =
      (records, none) := readEvents_of_le (d := d) rfl (Nat.le_max_left _ _) h
  exact (Prod.mk.inj (hlarge.symm.trans hall)).1

/-- Behind a cell a character that is nothing special is added to it. -/
theorem process_afterCell {e : Dialect} {r : Reader} {cell : Cell} {c : Char} (hr : r.Expects)
    (hplain : needsQuotes e [c] = false) (hroom : cell.value.length < e.fieldLimit) :
    (afterCell r cell).process e (some c) = .ok ⟨.inField, r.fields, cell.value ++ [c]⟩ := by
  have hadd : ∀ state, Reader.addChar e ⟨state, r.fields, cell.value⟩ c .inField =
      .ok ⟨.inField, r.fields, cell.value ++ [c]⟩ := fun _ => addChar_eq hroom
  have hfirst := process_first hr hplain (Nat.one_le_of_lt hroom)
  simp only [needsQuotes, List.any_cons, List.any_nil, Bool.or_false, decide_eq_false_iff_not,
    not_or] at hplain
  obtain ⟨hdelimiter, hquote, hnewline, hreturn⟩ := hplain
  unfold afterCell
  split
  · simp [Reader.process, Reader.apply, move, isBreak, hdelimiter, hquote, hnewline, hreturn, hadd]
  · split
    · rename_i hempty
      rw [hfirst, hempty, List.nil_append]
    · simp [Reader.process, Reader.apply, move, isBreak, hdelimiter, hnewline, hreturn, hadd]

/-- A cell before a delimiter that the reader does not know is not read as it was
written. -/
theorem head_ne_of_delimiter {d e : Dialect} {cell : Cell} {rest : List Char}
    {records : List CsvRecord} {record : CsvRecord} (hne : d.delimiter ≠ e.delimiter)
    (hquoted : needsQuotes d cell.value = true → cell.quoted = true)
    (h : readText e (cell.text ++ d.delimiter :: rest) = (records, none))
    (hrecord : records.head? = some record) : record.head? ≠ some cell.value := by
  -- a limit that the cell does not meet
  let e' : Dialect := { e with fieldLimit := max e.fieldLimit (cell.value.length + 1) }
  have hroom : cell.value.length < e'.fieldLimit := Nat.le_max_right _ _
  have h' : readText e' (cell.text ++ d.delimiter :: rest) = (records, none) :=
    readEvents_of_le (d := e) rfl (Nat.le_max_left _ _) h
  have hstart : Reader.start.Expects := ⟨.inr rfl, rfl⟩
  have hevents : ∀ c cs, ∃ es, events (c :: cs) = some c :: es := by
    intro c cs
    rw [events]
    split <;> exact ⟨_, rfl⟩
  have hwritten : ∀ piece ∈ cell.pieces e'.delimiter, piece.Written e' := fun piece hpiece =>
    ⟨quoted_of_mem_pieces hquoted hpiece,
      (length_le_of_mem_cell_pieces hpiece).trans (Nat.le_of_lt hroom)⟩
  have htext := rowText_cell_pieces e' cell
  by_cases hmem : cell.quoted = false ∧ e.delimiter ∈ cell.value
  · -- the first field ends at the reader's own delimiter
    obtain ⟨piece, piece', pieces, hpieces⟩ := two_pieces hmem.2
    have hcells : cell.pieces e'.delimiter =
        ⟨false, piece⟩ :: ⟨false, piece'⟩ :: pieces.map fun piece => ⟨false, piece⟩ := by
      rw [Cell.pieces, if_neg (by simp [hmem.1])]
      exact congrArg (List.map _) hpieces
    rw [hcells] at htext hwritten
    rw [rowText_cons_cons] at htext
    rw [readText, ← htext, List.append_assoc, List.cons_append,
      readEvents_cell hstart (hwritten _ List.mem_cons_self)] at h'
    obtain ⟨es, hes⟩ := hevents e'.delimiter
      (rowText e' (⟨false, piece'⟩ :: pieces.map fun piece => ⟨false, piece⟩) ++
        d.delimiter :: rest)
    rw [hes, readEvents_some (process_delimiter hstart)] at h'
    have hhead : record.head? = some piece := head_of_saved rfl h' hrecord
    rw [hhead]
    intro heq
    have hfree : e.delimiter ∉ piece :=
      not_mem_of_mem_pieces (by rw [hpieces]; exact List.mem_cons_self)
    exact hfree (Option.some.inj heq ▸ hmem.2)
  · -- the field goes on behind the cell
    have hcells : cell.pieces e'.delimiter = [cell] := by
      refine cell_pieces_of_plain fun hin => ?_
      by_contra hplain
      exact hmem ⟨by simpa using hplain, hin⟩
    rw [hcells] at hwritten
    have hplain : needsQuotes e' [d.delimiter] = false := by
      simp [needsQuotes, e', hne, d.delimiter_ne_quote, d.delimiter_ne_newline,
        d.delimiter_ne_return]
    rw [readText, readEvents_cell hstart (hwritten _ List.mem_cons_self)] at h'
    obtain ⟨es, hes⟩ := hevents d.delimiter rest
    rw [hes, readEvents_some (process_afterCell hstart hplain hroom)] at h'
    obtain ⟨first, hfirst, hprefix⟩ :=
      prefix_of_begun (List.prefix_refl (cell.value ++ [d.delimiter])) h' hrecord
    rw [hfirst]
    intro heq
    have hlength := hprefix.length_le
    rw [Option.some.inj heq, List.length_append, List.length_singleton] at hlength
    omega

end CsvText
end Northwind
