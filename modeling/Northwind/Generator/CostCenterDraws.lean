import Northwind.Library.Redraws
import Mathlib.Data.List.Perm.Basic
import Mathlib.Data.List.Nodup

/-!
# Cost centres of generated postings

The generator draws a cost centre of the company for every invoice posting, and
draws again, at most six times, for those whose centre is not open on the posting
date.  A credit note takes the centre of the posting it reverses, at a later date.

`postings_open_iff`: every posting has an open centre of its company exactly if
every invoice posting was given one among its draws, and every credit note's posting
one that is still open on the date of the note.

What the calls of `rng.integers` return is a parameter, one number for each call of
a company and each place of its array.
-/

namespace Northwind
namespace Generator

open Redraws

/-! ## Cost centres -/

/-- The `valid_to` of a generated centre: `None`, an empty text or a date. -/
inductive ValidTo where
  | missing
  | blank
  | date (date : Nat)
deriving DecidableEq

structure CostCenter where
  costCenterCode : String
  companyCode : String
  validFrom : Nat
  validTo : ValidTo
deriving DecidableEq

/-- `np.datetime64("2999-01-01")` -/
def farFuture : Nat :=
  1094998

/-- `cc_to`; `None` becomes NaT. -/
def ValidTo.ccTo : ValidTo → Option Nat
  | missing => none
  | blank => some farFuture
  | date d => some d

/-- `(cc_from > day) | (cc_to <= day)`; NaT compares as false. -/
def CostCenter.bad (center : CostCenter) (day : Nat) : Bool :=
  day < center.validFrom || center.validTo.ccTo.any (fun closed => closed ≤ day)

/-- `valid_from <= day < valid_to`, open-ended when `valid_to` is empty. -/
def CostCenter.OpenOn (center : CostCenter) (day : Nat) : Prop :=
  center.validFrom ≤ day ∧ ∀ closed, center.validTo = .date closed → day < closed

/-! ## Postings -/

/-- `START` -/
def calendarStart : Nat :=
  738521

/-- `n_days`, from `START` to `END`. -/
def nDays : Nat :=
  1301

/-- `all_days` -/
def allDays (day : Nat) : Nat :=
  calendarStart + day

/-- The keys of `COMPANY_CCY`. -/
def companyCodes : List String :=
  ["US01", "CA01", "GB01", "DE01", "JP01"]

/-- An order to post: its company and its day in the calendar. -/
structure InvoiceRow where
  companyCode : String
  day : Nat
  company : companyCode ∈ companyCodes
  inCalendar : day < nDays

/-- An invoice posting with its place. -/
structure InvoicePosting where
  index : Nat
  row : InvoiceRow

/-- A draw for a credit note: the invoice posting it reverses, and the days between. -/
structure CreditNoteDraw where
  selected : Nat
  lag : Nat

/-- A generated posting with its cost centre. -/
structure GeneratedPosting where
  companyCode : String
  costCenter : CostCenter
  postingDate : Nat

def InvoicePosting.postingDate (posting : InvoicePosting) : Nat :=
  allDays posting.row.day

/-- `np.minimum(p_day + lag, n_days - 1)` -/
def CreditNoteDraw.postingDate (note : CreditNoteDraw) (posting : InvoicePosting) : Nat :=
  allDays (min (posting.row.day + note.lag) (nDays - 1))

def invoicePostings (rows : List InvoiceRow) : List InvoicePosting :=
  rows.zipIdx.map (fun row => ⟨row.2, row.1⟩)

/-- What `rng.integers` returns for a company, a call and a place of its array. -/
abbrev CenterDraws : Type :=
  String → Nat → Nat → Nat

section Attribution

variable (costCenters : List CostCenter) (integers : CenterDraws)

/-- `pool` -/
def centerPool (companyCode : String) : List CostCenter :=
  costCenters.filter (fun center => center.companyCode = companyCode)

/-- `pool[choice]`; a draw is below the length of the pool. -/
def drawnCenter {pool : List CostCenter} (hpool : pool ≠ []) (choice : Nat) : CostCenter :=
  pool.get ⟨choice % pool.length, Nat.mod_lt _ (List.length_pos_of_ne_nil hpool)⟩

def isBad (posting : InvoicePosting) (center : CostCenter) : Bool :=
  center.bad posting.postingDate

/-- The centres of the postings of one company; `none` is the ValueError of drawing
from an empty pool. -/
def attributeCompany (companyCode : String) (postings : List InvoicePosting) :
    Option (List (InvoicePosting × CostCenter)) :=
  if postings = [] then some []
  else if hpool : centerPool costCenters companyCode ≠ [] then
    some (sample isBad
      (fun round place => drawnCenter hpool (integers companyCode round place)) 6 postings)
  else none

def postingsOf (rows : List InvoiceRow) (companyCode : String) : List InvoicePosting :=
  (invoicePostings rows).filter (fun posting => posting.row.companyCode = companyCode)

/-- `p_cc` -/
def attributed (rows : List InvoiceRow) : Option (List (InvoicePosting × CostCenter)) :=
  (companyCodes.mapM (fun companyCode =>
    attributeCompany costCenters integers companyCode (postingsOf rows companyCode))).map
      List.flatten

/-- The posting of a credit note, with the centre of the posting it reverses. -/
def creditNote (centers : List (InvoicePosting × CostCenter)) (note : CreditNoteDraw) :
    Option GeneratedPosting :=
  (centers.find? (fun entry => entry.1.index = note.selected)).map (fun entry =>
    ⟨entry.1.row.companyCode, entry.2, note.postingDate entry.1⟩)

/-- The invoice postings and the credit notes; adjustments have no cost centre. -/
def generatedPostings (rows : List InvoiceRow) (notes : List CreditNoteDraw) :
    Option (List GeneratedPosting) :=
  (attributed costCenters integers rows).map (fun centers =>
    centers.map (fun entry => ⟨entry.1.row.companyCode, entry.2, entry.1.postingDate⟩) ++
      notes.filterMap (creditNote centers))

/-! ## What the postings were given -/

/-- The centres that the postings of one company are given, one draw after the other. -/
def givenOf (companyCode : String) (postings : List InvoicePosting) :
    List (Drawn InvoicePosting CostCenter) :=
  if hpool : centerPool costCenters companyCode ≠ [] then
    trace isBad (fun round place => drawnCenter hpool (integers companyCode round place)) 6 postings
  else []

def given (rows : List InvoiceRow) : List (Drawn InvoicePosting CostCenter) :=
  companyCodes.flatMap (fun companyCode =>
    givenOf costCenters integers companyCode (postingsOf rows companyCode))

end Attribution

/-- An open centre of its company. -/
structure GeneratedPosting.Sound (costCenters : List CostCenter) (posting : GeneratedPosting) :
    Prop where
  listed : posting.costCenter ∈ costCenters
  company : posting.costCenter.companyCode = posting.companyCode
  openOn : posting.costCenter.OpenOn posting.postingDate

theorem allDays_lt_farFuture {day : Nat} (h : day < nDays) : allDays day < farFuture := by
  rw [allDays, farFuture, calendarStart]
  rw [nDays] at h
  omega

/-- The generator's test is right for the days of its calendar. -/
theorem bad_eq_false_iff {center : CostCenter} {day : Nat} (h : day < farFuture) :
    center.bad day = false ↔ center.OpenOn day := by
  rw [CostCenter.bad, CostCenter.OpenOn, Bool.or_eq_false_iff, decide_eq_false_iff_not, Nat.not_lt]
  refine and_congr_right (fun _ => ?_)
  cases hto : center.validTo with
  | missing => simp [ValidTo.ccTo]
  | blank => simp [ValidTo.ccTo, h]
  | date closed => simp [ValidTo.ccTo]

theorem isBad_eq_false_iff {posting : InvoicePosting} {center : CostCenter} :
    isBad posting center = false ↔ center.OpenOn posting.postingDate :=
  bad_eq_false_iff (allDays_lt_farFuture posting.row.inCalendar)

/-! ## The places of the postings -/

/-- The lists of the values of a key, one after the other, are the whole list. -/
theorem perm_flatMap_filter {α κ : Type} [DecidableEq κ] (key : α → κ) {keys : List κ}
    (hnodup : keys.Nodup) {xs : List α} (hkeys : ∀ x ∈ xs, key x ∈ keys) :
    (keys.flatMap (fun k => xs.filter (fun x => key x = k))).Perm xs := by
  induction keys generalizing xs with
  | nil =>
      cases xs with
      | nil => exact List.Perm.refl _
      | cons x xs => exact nomatch hkeys x List.mem_cons_self
  | cons k keys ih =>
      obtain ⟨hk, hrest⟩ := List.nodup_cons.mp hnodup
      have hothers := @ih hrest (xs.filter (fun x => ¬ key x = k)) (by
        intro x hx
        obtain ⟨hmem, hne⟩ := List.mem_filter.mp hx
        rw [decide_eq_true_eq] at hne
        exact (List.mem_cons.mp (hkeys x hmem)).resolve_left hne)
      have hsame : keys.flatMap (fun k' => (xs.filter (fun x => ¬ key x = k)).filter
          (fun x => key x = k')) = keys.flatMap (fun k' => xs.filter (fun x => key x = k')) := by
        apply List.flatMap_congr
        intro k' hk'
        rw [List.filter_filter]
        apply List.filter_congr
        intro x _
        by_cases hx : key x = k'
        · have hne : key x ≠ k := fun h => hk (h.symm.trans hx ▸ hk')
          simp [hx, hx ▸ hne]
        · simp [hx]
      rw [hsame] at hothers
      rw [List.flatMap_cons]
      refine (hothers.append_left _).trans ?_
      have hsplit := List.filter_append_perm (fun x => decide (key x = k)) xs
      simpa only [decide_not] using hsplit

section Given

variable {costCenters : List CostCenter} {integers : CenterDraws} {rows : List InvoiceRow}

theorem perm_postings :
    (companyCodes.flatMap (postingsOf rows)).Perm (invoicePostings rows) := by
  apply perm_flatMap_filter (fun posting : InvoicePosting => posting.row.companyCode)
  · decide
  · exact fun posting _ => posting.row.company

theorem nodup_indices : ((invoicePostings rows).map InvoicePosting.index).Nodup := by
  have hindices : (invoicePostings rows).map InvoicePosting.index = List.range rows.length := by
    rw [invoicePostings, List.map_map]
    exact (List.zipIdx_map_snd 0 rows).trans (List.range_eq_range' ▸ rfl)
  rw [hindices]
  exact List.nodup_range

/-- Every company that is posted to has a centre. -/
def Pooled (costCenters : List CostCenter) (rows : List InvoiceRow) : Prop :=
  ∀ companyCode, postingsOf rows companyCode ≠ [] → centerPool costCenters companyCode ≠ []

variable (integers) in
theorem map_item_givenOf (hpool : Pooled costCenters rows) (companyCode : String) :
    (givenOf costCenters integers companyCode (postingsOf rows companyCode)).map Drawn.item =
      postingsOf rows companyCode := by
  rw [givenOf]
  split
  · exact map_item_trace _ 6 _
  · rename_i hempty
    by_contra hne
    exact hempty (hpool companyCode (Ne.symm hne))

theorem attributeCompany_eq (hpool : Pooled costCenters rows) (companyCode : String) :
    attributeCompany costCenters integers companyCode (postingsOf rows companyCode) =
      some ((givenOf costCenters integers companyCode (postingsOf rows companyCode)).map
        Drawn.entry) := by
  have hitems := map_item_givenOf integers hpool companyCode
  rw [attributeCompany]
  by_cases hnil : postingsOf rows companyCode = []
  · rw [if_pos hnil]
    rw [hnil, List.map_eq_nil_iff] at hitems
    rw [hnil, hitems]
    rfl
  · have hne := hpool companyCode hnil
    rw [if_neg hnil, dif_pos hne, givenOf, dif_pos hne, map_entry_trace]

theorem attributed_eq (hpool : Pooled costCenters rows) :
    attributed costCenters integers rows =
      some ((given costCenters integers rows).map Drawn.entry) := by
  let entries := fun companyCode =>
    (givenOf costCenters integers companyCode (postingsOf rows companyCode)).map Drawn.entry
  have hall : (fun companyCode => attributeCompany costCenters integers companyCode
      (postingsOf rows companyCode)) = fun companyCode => some (entries companyCode) :=
    funext (attributeCompany_eq hpool)
  have hcompanies : companyCodes.mapM (fun companyCode => some (entries companyCode)) =
      some (companyCodes.map entries) :=
    List.mapM_pure
  rw [attributed, hall, hcompanies, given, List.map_flatMap, List.flatMap_def]
  rfl

variable (integers) in
theorem perm_given (hpool : Pooled costCenters rows) :
    ((given costCenters integers rows).map Drawn.item).Perm (invoicePostings rows) := by
  have hitems : (given costCenters integers rows).map Drawn.item =
      companyCodes.flatMap (postingsOf rows) := by
    rw [given, List.map_flatMap]
    exact List.flatMap_congr (fun companyCode _ => map_item_givenOf integers hpool companyCode)
  rw [hitems]
  exact perm_postings

/-- What was given to the postings, each in its own place. -/
theorem nodup_given (hpool : Pooled costCenters rows) :
    ((given costCenters integers rows).map (fun drawn => drawn.item.index)).Nodup := by
  have hperm := (perm_given integers hpool).map InvoicePosting.index
  rw [List.map_map] at hperm
  exact hperm.nodup_iff.mpr nodup_indices

/-- A posting is given centres of its company. -/
theorem sound_of_mem_given {drawn : Drawn InvoicePosting CostCenter}
    (hdrawn : drawn ∈ given costCenters integers rows) :
    (∀ center ∈ drawn.given,
        center ∈ costCenters ∧ center.companyCode = drawn.item.row.companyCode) ∧
      ∀ center ∈ drawn.given, center.OpenOn drawn.item.postingDate → center = drawn.value := by
  obtain ⟨companyCode, _, hcompany⟩ := List.mem_flatMap.mp hdrawn
  rw [givenOf] at hcompany
  split at hcompany
  · rename_i hpool
    constructor
    · have hpooled : ∀ choice, drawnCenter hpool choice ∈ centerPool costCenters companyCode :=
        fun choice => List.get_mem _ _
      have hall : ∀ center ∈ drawn.given, center ∈ centerPool costCenters companyCode := by
        refine forall_trace (p := fun drawn => ∀ center ∈ drawn.given,
          center ∈ centerPool costCenters companyCode) ?_ ?_ 6 drawn hcompany
        · intro round drawn hgiven _ place center hcenter
          rcases List.mem_append.mp hcenter with hold | hnew
          · exact hgiven center hold
          · rw [List.mem_singleton.mp hnew]
            exact hpooled _
        · intro posting _ place center hcenter
          rw [List.mem_singleton.mp hcenter]
          exact hpooled _
      have hitem : drawn.item ∈ postingsOf rows companyCode := by
        have hitems := List.mem_map_of_mem (f := Drawn.item) hcompany
        rwa [map_item_trace] at hitems
      have hcode := of_decide_eq_true (List.mem_filter.mp hitem).2
      intro center hcenter
      obtain ⟨hlisted, hsame⟩ := List.mem_filter.mp (hall center hcenter)
      exact ⟨hlisted, (of_decide_eq_true hsame).trans hcode.symm⟩
    · intro center hcenter hopen
      exact eq_value_of_mem_given hcompany hcenter (isBad_eq_false_iff.mpr hopen)
  · cases hcompany

/-- A credit note reverses the posting of its place. -/
theorem creditNote_eq_some_iff (hpool : Pooled costCenters rows) {note : CreditNoteDraw}
    {posting : GeneratedPosting} :
    creditNote ((given costCenters integers rows).map Drawn.entry) note = some posting ↔
      ∃ drawn ∈ given costCenters integers rows, drawn.item.index = note.selected ∧
        posting = ⟨drawn.item.row.companyCode, drawn.value, note.postingDate drawn.item⟩ := by
  rw [creditNote, Option.map_eq_some_iff]
  constructor
  · rintro ⟨entry, hfind, rfl⟩
    obtain ⟨drawn, hdrawn, rfl⟩ := List.mem_map.mp (List.mem_of_find?_eq_some hfind)
    have hindex := List.find?_some hfind
    rw [decide_eq_true_eq] at hindex
    exact ⟨drawn, hdrawn, hindex, rfl⟩
  · rintro ⟨drawn, hdrawn, hindex, rfl⟩
    refine ⟨drawn.entry, ?_, rfl⟩
    obtain ⟨found, hfound⟩ : ∃ found, ((given costCenters integers rows).map Drawn.entry).find?
        (fun entry => entry.1.index = note.selected) = some found := by
      rw [← Option.isSome_iff_exists, List.find?_isSome]
      exact ⟨drawn.entry, List.mem_map_of_mem hdrawn, decide_eq_true hindex⟩
    obtain ⟨drawn', hdrawn', rfl⟩ := List.mem_map.mp (List.mem_of_find?_eq_some hfound)
    have hindex' := List.find?_some hfound
    rw [decide_eq_true_eq] at hindex'
    have hsame : drawn' = drawn := List.inj_on_of_nodup_map (nodup_given hpool) hdrawn' hdrawn
      (hindex'.trans hindex.symm)
    rw [hfound, hsame]

/-- A posting with a centre it was given is sound if the centre is open. -/
theorem sound_of_openOn {drawn : Drawn InvoicePosting CostCenter}
    (hdrawn : drawn ∈ given costCenters integers rows) {date : Nat}
    (hopen : drawn.value.OpenOn date) :
    (GeneratedPosting.mk drawn.item.row.companyCode drawn.value date).Sound costCenters := by
  obtain ⟨hlisted, hcompany⟩ := (sound_of_mem_given hdrawn).1 drawn.value (value_mem_given drawn)
  exact ⟨hlisted, hcompany, hopen⟩

/-- Every posting has an open centre of its company exactly if every invoice posting
was given one, and every credit note's posting one that is still open on the date of
the note. -/
theorem postings_open_iff (notes : List CreditNoteDraw)
    (hpool : ∀ row ∈ rows, ∃ center ∈ costCenters,
      center.companyCode = row.companyCode ∧ center.OpenOn (allDays row.day)) :
    ((given costCenters integers rows).map Drawn.item).Perm (invoicePostings rows) ∧
    ∃ postings, generatedPostings costCenters integers rows notes = some postings ∧
      ((∀ posting ∈ postings, posting.Sound costCenters) ↔
        (∀ drawn ∈ given costCenters integers rows, ∃ center ∈ drawn.given,
          center.OpenOn drawn.item.postingDate) ∧
        ∀ note ∈ notes, ∀ drawn ∈ given costCenters integers rows,
          drawn.item.index = note.selected → ∃ center ∈ drawn.given,
            center.OpenOn drawn.item.postingDate ∧
              center.OpenOn (note.postingDate drawn.item)) := by
  have hpooled : Pooled costCenters rows := by
    intro companyCode hne
    obtain ⟨posting, hposting⟩ := List.exists_mem_of_ne_nil _ hne
    obtain ⟨hmem, hcode⟩ := List.mem_filter.mp hposting
    obtain ⟨⟨row, k⟩, hrow, rfl⟩ := List.mem_map.mp hmem
    obtain ⟨center, hcenter, hcompany, _⟩ := hpool row (List.fst_mem_of_mem_zipIdx hrow)
    have hsame : center.companyCode = companyCode := hcompany.trans (of_decide_eq_true hcode)
    exact List.ne_nil_of_mem (List.mem_filter.mpr ⟨hcenter, decide_eq_true hsame⟩)
  refine ⟨perm_given integers hpooled, _, by rw [generatedPostings, attributed_eq hpooled]; rfl, ?_⟩
  constructor
  · intro hsound
    have hinvoices : ∀ drawn ∈ given costCenters integers rows,
        drawn.value.OpenOn drawn.item.postingDate := fun drawn hdrawn =>
      (hsound _ (List.mem_append_left _
        (List.mem_map_of_mem (List.mem_map_of_mem hdrawn)))).openOn
    refine ⟨fun drawn hdrawn => ⟨_, value_mem_given drawn, hinvoices drawn hdrawn⟩, ?_⟩
    intro note hnote drawn hdrawn hindex
    have hposting := (creditNote_eq_some_iff hpooled).mpr ⟨drawn, hdrawn, hindex, rfl⟩
    have hopen := (hsound _ (List.mem_append_right _
      (List.mem_filterMap.mpr ⟨note, hnote, hposting⟩))).openOn
    exact ⟨drawn.value, value_mem_given drawn, hinvoices drawn hdrawn, hopen⟩
  · rintro ⟨hinvoices, hnotes⟩ posting hposting
    rcases List.mem_append.mp hposting with hinvoice | hcredit
    · obtain ⟨entry, hentry, rfl⟩ := List.mem_map.mp hinvoice
      obtain ⟨drawn, hdrawn, rfl⟩ := List.mem_map.mp hentry
      obtain ⟨center, hcenter, hopen⟩ := hinvoices drawn hdrawn
      obtain rfl := (sound_of_mem_given hdrawn).2 center hcenter hopen
      exact sound_of_openOn hdrawn hopen
    · obtain ⟨note, hnote, hposting⟩ := List.mem_filterMap.mp hcredit
      obtain ⟨drawn, hdrawn, hindex, rfl⟩ := (creditNote_eq_some_iff hpooled).mp hposting
      obtain ⟨center, hcenter, hopen, hlater⟩ := hnotes note hnote drawn hdrawn hindex
      obtain rfl := (sound_of_mem_given hdrawn).2 center hcenter hopen
      exact sound_of_openOn hdrawn hlater

end Given

/-! ## A company with a closed centre -/

/-- Two centres of a company, of which the second closes on 2024-09-30. -/
def twoCenters : List CostCenter :=
  [⟨"CC-US001", "US01", 737791, .missing⟩, ⟨"CC-US002", "US01", 737791, .date 739159⟩]

def openCenter : CostCenter :=
  ⟨"CC-US001", "US01", 737791, .missing⟩

/-- A posting of 2024-12-31. -/
def decemberRow : InvoiceRow where
  companyCode := "US01"
  day := 730
  company := by decide
  inCalendar := by decide

theorem openCenter_openOn {day : Nat} (h : 737791 ≤ day) : openCenter.OpenOn day :=
  ⟨h, fun _ hclosed => nomatch hclosed⟩

theorem pooled_december : ∀ row ∈ [decemberRow], ∃ center ∈ twoCenters,
    center.companyCode = row.companyCode ∧ center.OpenOn (allDays row.day) := by
  intro row hrow
  rw [List.mem_singleton.mp hrow]
  exact ⟨openCenter, List.mem_cons_self, rfl, openCenter_openOn (by decide)⟩

/-- The closed centre is drawn first, and the open one with the first redraw. -/
def secondThenFirst : CenterDraws :=
  fun _ round _ => 1 - round

theorem given_december : given twoCenters secondThenFirst [decemberRow] =
    [⟨⟨0, decemberRow⟩, [⟨"CC-US002", "US01", 737791, .date 739159⟩], openCenter⟩] := by
  rfl

/-- The posting gets its open centre with the first redraw, and its credit note too. -/
theorem postings_open_iff_december :
    ∃ postings, generatedPostings twoCenters secondThenFirst [decemberRow] [⟨0, 30⟩] =
        some postings ∧
      ∀ posting ∈ postings, posting.Sound twoCenters := by
  have hiff := @postings_open_iff twoCenters secondThenFirst [decemberRow] [⟨0, 30⟩]
    pooled_december
  obtain ⟨_, postings, hpostings, hsound⟩ := hiff
  refine ⟨postings, hpostings, hsound.mpr ?_⟩
  rw [given_december]
  constructor
  · intro drawn hdrawn
    rw [List.mem_singleton.mp hdrawn]
    exact ⟨openCenter, value_mem_given _, openCenter_openOn (by decide)⟩
  · intro note hnote drawn hdrawn _
    rw [List.mem_singleton.mp hdrawn, List.mem_singleton.mp hnote]
    exact ⟨openCenter, value_mem_given _, openCenter_openOn (by decide),
      openCenter_openOn (by decide)⟩

/-- The centre of every generated posting is open on its date. -/
def EveryPostingOpen : Prop :=
  ∀ (costCenters : List CostCenter) (integers : CenterDraws) (rows : List InvoiceRow)
    (notes : List CreditNoteDraw),
    (∀ row ∈ rows, ∀ day < nDays, ∃ center ∈ costCenters,
      center.companyCode = row.companyCode ∧ center.OpenOn (allDays day)) →
    ∀ postings, generatedPostings costCenters integers rows notes = some postings →
      ∀ posting ∈ postings, posting.Sound costCenters

/-- With the closed centre in all seven draws the posting keeps it. -/
theorem december_keeps_closed : ¬ EveryPostingOpen := by
  intro hall
  have hpool : ∀ row ∈ [decemberRow], ∀ day < nDays, ∃ center ∈ twoCenters,
      center.companyCode = row.companyCode ∧ center.OpenOn (allDays day) := by
    intro row hrow day _
    rw [List.mem_singleton.mp hrow]
    have hstart : 737791 ≤ allDays day := Nat.le_trans (by decide) (Nat.le_add_right calendarStart day)
    exact ⟨openCenter, List.mem_cons_self, rfl, openCenter_openOn hstart⟩
  have hsound := hall twoCenters (fun _ _ _ => 1) [decemberRow] [] hpool _ rfl
    _ List.mem_cons_self
  have hlt := hsound.openOn.2 739159 rfl
  revert hlt
  decide

end Generator
end Northwind
