import Northwind.Generator.AuditTargets
import Mathlib.Data.List.Forall2

/-!
# Loading a seed from before the audit columns

The loader derives the audit columns that a seed file lacks, and the audit backfill
derives them for rows that are loaded already.  `loaded_eq_backfilled_iff`: the two
agree exactly on seeds without undelivered shipments, open-ended cost centres and
order lines that were updated after the creation of their order, as far as the file
lacks the column in question.
-/

namespace Northwind
namespace Generator

variable {table : AuditTable}

/-- The audit columns of a table: postings are never updated. -/
def auditColumns : AuditTable → List AuditColumn
  | .revenuePostings => [.createdAt]
  | _ => [.createdAt, .updatedAt]

/-- `LEGACY_AUDIT_EXPRESSIONS` on a staged row; nothing where the table has no
expression for a column. -/
def legacyAuditExpression :
    SourceRow table → AuditFields → AuditColumn → Option (Option Nat)
  | .products launchDate, _, .createdAt => some (some (atHour launchDate 2))
  | .products _, _, .updatedAt => none
  | .warehouses, _, _ => some (some referenceInstant)
  | .carriers, _, _ => some (some referenceInstant)
  | .orderLines _, staged, .createdAt => some staged.updatedAt
  | .orderLines _, _, .updatedAt => none
  | .shipments shipDate _, _, .createdAt => some (some (atHour shipDate 8))
  | .shipments shipDate deliveredDate, _, .updatedAt =>
      some (some (atHour (deliveredDate.getD shipDate) 17))
  | .invoices, _, .createdAt => none
  | .invoices, staged, .updatedAt => some staged.createdAt
  | .supportCases openedAt _, _, .createdAt => some (some openedAt)
  | .supportCases openedAt resolutionHours, _, .updatedAt =>
      some (some (openedAt + resolutionInterval resolutionHours))
  | .companies, _, _ => some (some referenceInstant)
  | .costCenters validFrom _, _, .createdAt => some (some (atHour validFrom 8))
  | .costCenters validFrom validTo, _, .updatedAt =>
      some (some (atHour (validTo.getD validFrom) 17))
  | .glAccounts, _, _ => some (some referenceInstant)
  | .fxRates loadedAt, _, _ => some (some loadedAt)
  | .revenuePostings postedAt, _, .createdAt => some (some postedAt)
  | .revenuePostings _, _, .updatedAt => none

/-- The keys of a table in `LEGACY_AUDIT_EXPRESSIONS`. -/
def legacyColumns : AuditTable → List AuditColumn
  | .products => [.createdAt]
  | .orderLines => [.createdAt]
  | .invoices => [.updatedAt]
  | .revenuePostings => [.createdAt]
  | _ => [.createdAt, .updatedAt]

/-- A staged row: its audit fields count for the columns that the file has. -/
structure SeedRow (table : AuditTable) where
  row : SourceRow table
  staged : AuditFields

section Loading

variable (seedColumns : List AuditColumn)

/-- `missing` -/
def missing (table : AuditTable) : List AuditColumn :=
  (auditColumns table).filter (fun column => column ∉ seedColumns)

/-- `unsupported` -/
def unsupported (table : AuditTable) : List AuditColumn :=
  (missing seedColumns table).filter (fun column => column ∉ legacyColumns table)

/-- What the loader selects for a column. -/
def selected (seed : SeedRow table) (column : AuditColumn) : Option Nat :=
  if column ∈ missing seedColumns table then
    (legacyAuditExpression seed.row seed.staged column).getD none
  else seed.staged.get column

def loadedFields (seed : SeedRow table) : AuditFields where
  createdAt := selected seedColumns seed .createdAt
  updatedAt := selected seedColumns seed .updatedAt

/-- `_copy_legacy_seed`: the audit fields of the inserted rows, or the ValueError with
the columns that cannot be derived. -/
def copyLegacySeed (seeds : List (SeedRow table)) : Except (List AuditColumn) (List AuditFields) :=
  if unsupported seedColumns table = [] then .ok (seeds.map (loadedFields seedColumns))
  else .error (unsupported seedColumns table)

/-- The row as the backfill finds it: the missing columns are NULL. -/
def unfilled (seed : SeedRow table) (column : AuditColumn) : Option Nat :=
  if column ∈ missing seedColumns table then none else seed.staged.get column

def backfilledFields (seed : SeedRow table) : AuditFields :=
  targetSet seed.row ⟨unfilled seedColumns seed .createdAt, unfilled seedColumns seed .updatedAt⟩

end Loading

/-- The same values in some columns. -/
def AuditFields.AgreeOn (columns : List AuditColumn) (fields fields' : AuditFields) : Prop :=
  ∀ column ∈ columns, fields.get column = fields'.get column

/-- A row that the loader and the backfill derive a column of in the same way. -/
def SeedRow.Mirrored (seed : SeedRow table) (column : AuditColumn) : Prop :=
  match seed.row, column with
  | .shipments _ deliveredDate, .updatedAt => deliveredDate ≠ none
  | .costCenters _ validTo, .updatedAt => validTo ≠ none
  | .orderLines header, .createdAt => seed.staged.updatedAt = some header.createdAt
  | _, _ => True

/-! ## One column -/

section Columns

variable {seedColumns : List AuditColumn}

/-- A missing column of a file that can be loaded has an expression. -/
theorem mem_legacyColumns_of_mem_missing (hsupported : unsupported seedColumns table = [])
    {column : AuditColumn} (hmissing : column ∈ missing seedColumns table) :
    column ∈ legacyColumns table := by
  have hnone := List.filter_eq_nil_iff.mp hsupported column hmissing
  simpa using hnone

/-- The creation of an invoice is in the file. -/
theorem not_mem_missing_invoices (hsupported : unsupported seedColumns .invoices = []) :
    AuditColumn.createdAt ∉ missing seedColumns .invoices := by
  intro hmissing
  have hlegacy := mem_legacyColumns_of_mem_missing hsupported hmissing
  rw [legacyColumns, List.mem_singleton] at hlegacy
  cases hlegacy

/-- Where there is an expression, the target derives the column too, and the two agree
on mirrored rows. -/
theorem expressions_agree_iff (seed : SeedRow table) {fields : AuditFields}
    {column : AuditColumn} (hlegacy : column ∈ legacyColumns table)
    (hcreated : table = .invoices → fields.createdAt = seed.staged.createdAt) :
    ∃ expression, targetExpression seed.row fields column = some expression ∧
      ((legacyAuditExpression seed.row seed.staged column).getD none = expression ↔
        seed.Mirrored column) := by
  obtain ⟨row, staged⟩ := seed
  cases row with
  | products launchDate =>
      rw [legacyColumns, List.mem_singleton] at hlegacy
      subst hlegacy
      exact ⟨_, rfl, iff_of_true rfl trivial⟩
  | warehouses => exact ⟨_, rfl, iff_of_true rfl trivial⟩
  | carriers => exact ⟨_, rfl, iff_of_true rfl trivial⟩
  | orderLines header =>
      rw [legacyColumns, List.mem_singleton] at hlegacy
      subst hlegacy
      exact ⟨_, rfl, Iff.rfl⟩
  | shipments shipDate deliveredDate =>
      cases column with
      | createdAt => exact ⟨_, rfl, iff_of_true rfl trivial⟩
      | updatedAt =>
          cases deliveredDate with
          | none =>
              refine ⟨_, rfl, iff_of_false ?_ (fun h => h rfl)⟩
              simp [legacyAuditExpression, atHour, microsecondsPerHour]
          | some delivered => exact ⟨_, rfl, iff_of_true rfl (Option.some_ne_none delivered)⟩
  | invoices =>
      rw [legacyColumns, List.mem_singleton] at hlegacy
      subst hlegacy
      exact ⟨_, rfl, iff_of_true (hcreated rfl).symm trivial⟩
  | supportCases openedAt resolutionHours =>
      cases column with
      | createdAt => exact ⟨_, rfl, iff_of_true rfl trivial⟩
      | updatedAt => exact ⟨_, rfl, iff_of_true rfl trivial⟩
  | companies => exact ⟨_, rfl, iff_of_true rfl trivial⟩
  | costCenters validFrom validTo =>
      cases column with
      | createdAt => exact ⟨_, rfl, iff_of_true rfl trivial⟩
      | updatedAt =>
          cases validTo with
          | none =>
              refine ⟨_, rfl, iff_of_false ?_ (fun h => h rfl)⟩
              simp [legacyAuditExpression, atHour, microsecondsPerHour]
          | some closed => exact ⟨_, rfl, iff_of_true rfl (Option.some_ne_none closed)⟩
  | glAccounts => exact ⟨_, rfl, iff_of_true rfl trivial⟩
  | fxRates loadedAt => exact ⟨_, rfl, iff_of_true rfl trivial⟩
  | revenuePostings postedAt =>
      rw [legacyColumns, List.mem_singleton] at hlegacy
      subst hlegacy
      exact ⟨_, rfl, iff_of_true rfl trivial⟩

theorem get_loadedFields (seed : SeedRow table) (column : AuditColumn) :
    (loadedFields seedColumns seed).get column = selected seedColumns seed column := by
  cases column with
  | createdAt => rfl
  | updatedAt => rfl

/-- What the loader and the backfill make of a missing column. -/
theorem loaded_eq_backfilled_column_iff (hsupported : unsupported seedColumns table = [])
    (seed : SeedRow table) {column : AuditColumn}
    (hmissing : column ∈ missing seedColumns table) :
    (loadedFields seedColumns seed).get column = (backfilledFields seedColumns seed).get column ↔
      seed.Mirrored column := by
  let fields : AuditFields :=
    ⟨unfilled seedColumns seed .createdAt, unfilled seedColumns seed .updatedAt⟩
  have hnull : fields.get column = none := by
    cases column with
    | createdAt => exact if_pos hmissing
    | updatedAt => exact if_pos hmissing
  have hcreated : table = .invoices → fields.createdAt = seed.staged.createdAt := by
    rintro rfl
    exact if_neg (not_mem_missing_invoices hsupported)
  obtain ⟨expression, hexpression, hiff⟩ := expressions_agree_iff seed
    (mem_legacyColumns_of_mem_missing hsupported hmissing) hcreated
  rw [get_loadedFields, selected, if_pos hmissing, backfilledFields, get_targetSet,
    coalesced_of_null hexpression hnull]
  exact hiff

end Columns

/-! ## Whole files -/

/-- The loader and the backfill set the missing columns of all rows to the same values
exactly if each of the rows is mirrored in them. -/
theorem loaded_eq_backfilled_iff {seedColumns : List AuditColumn} {seeds : List (SeedRow table)}
    {loaded : List AuditFields} (hload : copyLegacySeed seedColumns seeds = .ok loaded) :
    List.Forall₂ (AuditFields.AgreeOn (missing seedColumns table)) loaded
        (seeds.map (backfilledFields seedColumns)) ↔
      ∀ seed ∈ seeds, ∀ column ∈ missing seedColumns table, seed.Mirrored column := by
  rw [copyLegacySeed] at hload
  split at hload
  · rename_i hsupported
    cases hload
    rw [List.forall₂_map_left_iff, List.forall₂_map_right_iff, List.forall₂_same]
    refine forall₂_congr (fun seed _ => forall₂_congr (fun column hmissing => ?_))
    exact loaded_eq_backfilled_column_iff hsupported seed hmissing
  · cases hload

/-- A shipment of 2026-07-10 that was delivered on 2026-07-14. -/
def deliveredShipment : SeedRow .shipments where
  row := .shipments 739807 (some 739811)
  staged := ⟨none, none⟩

/-- A shipment of 2026-07-10 that is in transit. -/
def shipmentInTransit : SeedRow .shipments where
  row := .shipments 739807 none
  staged := ⟨none, none⟩

theorem loaded_eq_backfilled_delivered :
    copyLegacySeed [] [deliveredShipment] =
        .ok [⟨some (atHour 739807 8), some (atHour 739811 17)⟩] ∧
      List.Forall₂ (AuditFields.AgreeOn [.createdAt, .updatedAt])
        [⟨some (atHour 739807 8), some (atHour 739811 17)⟩]
        ([deliveredShipment].map (backfilledFields [])) := by
  have hload : copyLegacySeed [] [deliveredShipment] =
      .ok [⟨some (atHour 739807 8), some (atHour 739811 17)⟩] := rfl
  refine ⟨hload, (loaded_eq_backfilled_iff hload).mpr ?_⟩
  intro seed hseed column _
  rw [List.mem_singleton.mp hseed]
  cases column with
  | createdAt => trivial
  | updatedAt => exact Option.some_ne_none _

/-- The loader computes the values of the backfill for every file it can load. -/
def LoadMirrorsBackfill : Prop :=
  ∀ (table : AuditTable) (seedColumns : List AuditColumn) (seeds : List (SeedRow table))
    (loaded : List AuditFields), copyLegacySeed seedColumns seeds = .ok loaded →
    List.Forall₂ (AuditFields.AgreeOn (missing seedColumns table)) loaded
      (seeds.map (backfilledFields seedColumns))

/-- The shipment in transit is updated at 17:00 by the loader and at 08:00 by the
backfill. -/
theorem transit_not_mirrored : ¬ LoadMirrorsBackfill := by
  intro hall
  have hagree := hall .shipments [] [shipmentInTransit] _ rfl
  have hupdated := (List.forall₂_cons.mp hagree).1 .updatedAt (by decide)
  revert hupdated
  decide

end Generator
end Northwind
