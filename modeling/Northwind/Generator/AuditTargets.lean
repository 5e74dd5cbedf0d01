import Northwind.Sources.Instants
import Northwind.Sources.Floats

/-!
# Audit fields of rows from before the audit columns

A row of one of twelve tables, with the columns its audit fields are derived from,
and what the audit backfill sets them to.  A field that is not NULL stays as it is,
and one that the target does not derive does too.

Columns that the schemas declare NOT NULL have values; an audit field may be NULL.
-/

namespace Northwind
namespace Generator

/-! ## Rows -/

/-- The tables of `TARGETS` and of `ERP_TARGETS`. -/
inductive AuditTable where
  | products
  | warehouses
  | carriers
  | orderLines
  | shipments
  | invoices
  | supportCases
  | companies
  | costCenters
  | glAccounts
  | fxRates
  | revenuePostings
deriving DecidableEq

inductive AuditColumn where
  | createdAt
  | updatedAt
deriving DecidableEq

/-- The audit fields of a row, `none` where they are NULL. -/
structure AuditFields where
  createdAt : Option Nat
  updatedAt : Option Nat
deriving DecidableEq

def AuditFields.get (fields : AuditFields) : AuditColumn → Option Nat
  | .createdAt => fields.createdAt
  | .updatedAt => fields.updatedAt

/-- Both audit fields of the header of an order line. -/
structure OrderHeader where
  createdAt : Nat
  updatedAt : Nat
deriving DecidableEq

/-- The columns of a row that its audit fields are derived from; an order line stands
with the header of its order, and `resolutionHours` counts hundredths. -/
inductive SourceRow : AuditTable → Type where
  | products (launchDate : Nat) : SourceRow .products
  | warehouses : SourceRow .warehouses
  | carriers : SourceRow .carriers
  | orderLines (header : OrderHeader) : SourceRow .orderLines
  | shipments (shipDate : Nat) (deliveredDate : Option Nat) : SourceRow .shipments
  | invoices : SourceRow .invoices
  | supportCases (openedAt : Nat) (resolutionHours : Option Nat) : SourceRow .supportCases
  | companies : SourceRow .companies
  | costCenters (validFrom : Nat) (validTo : Option Nat) : SourceRow .costCenters
  | glAccounts : SourceRow .glAccounts
  | fxRates (loadedAt : Nat) : SourceRow .fxRates
  | revenuePostings (postedAt : Nat) : SourceRow .revenuePostings

/-! ## Derivations -/

/-- `timestamp '2022-01-03 08:00:00'` -/
def referenceInstant : Nat :=
  atHour 738158 8

/-- `coalesce(resolution_hours, 0) * interval '1 hour'`, a double rounded to
microseconds. -/
def resolutionInterval (resolutionHours : Option Nat) : Nat :=
  let hours := binary64 (resolutionHours.getD 0 / 100)
  (roundHalfEven (binary64 (hours * microsecondsPerHour))).toNat

variable {table : AuditTable}

/-- The second argument of the COALESCE that a target sets a column to; nothing where
it does not set the column. -/
def targetExpression : SourceRow table → AuditFields → AuditColumn → Option (Option Nat)
  | .products launchDate, _, _ => some (some (atHour launchDate 2))
  | .warehouses, _, _ => some (some referenceInstant)
  | .carriers, _, _ => some (some referenceInstant)
  | .orderLines header, _, .createdAt => some (some header.createdAt)
  | .orderLines header, _, .updatedAt => some (some header.updatedAt)
  | .shipments shipDate _, _, .createdAt => some (some (atHour shipDate 8))
  | .shipments shipDate deliveredDate, _, .updatedAt =>
      some (some (atHour (deliveredDate.getD shipDate) (if deliveredDate = none then 8 else 17)))
  | .invoices, _, .createdAt => none
  | .invoices, fields, .updatedAt => some fields.createdAt
  | .supportCases openedAt _, _, .createdAt => some (some openedAt)
  | .supportCases openedAt resolutionHours, _, .updatedAt =>
      some (some (openedAt + resolutionInterval resolutionHours))
  | .companies, _, _ => some (some referenceInstant)
  | .costCenters validFrom _, _, .createdAt => some (some (atHour validFrom 8))
  | .costCenters validFrom validTo, _, .updatedAt =>
      some (some (atHour (validTo.getD validFrom) (if validTo = none then 8 else 17)))
  | .glAccounts, _, _ => some (some referenceInstant)
  | .fxRates loadedAt, _, _ => some (some loadedAt)
  | .revenuePostings postedAt, _, .createdAt => some (some postedAt)
  | .revenuePostings _, _, .updatedAt => none

/-- A column is set to `COALESCE(column, expression)`. -/
def coalesced (row : SourceRow table) (fields : AuditFields) (column : AuditColumn) :
    Option Nat :=
  match targetExpression row fields column with
  | some expression => (fields.get column).or expression
  | none => fields.get column

/-- The SET clause of a target. -/
def targetSet (row : SourceRow table) (fields : AuditFields) : AuditFields where
  createdAt := coalesced row fields .createdAt
  updatedAt := coalesced row fields .updatedAt

/-- A column of the target that is NULL. -/
def lacks (row : SourceRow table) (fields : AuditFields) (column : AuditColumn) : Bool :=
  (targetExpression row fields column).isSome && fields.get column = none

/-- The WHERE clause of a target, the keys apart: a column that it sets is NULL. -/
def needsBackfill (row : SourceRow table) (fields : AuditFields) : Bool :=
  lacks row fields .createdAt || lacks row fields .updatedAt

/-! ## What a target does to a row -/

variable (row : SourceRow table) (fields : AuditFields) (column : AuditColumn)

@[simp] theorem get_targetSet :
    (targetSet row fields).get column = coalesced row fields column := by
  cases column with
  | createdAt => rfl
  | updatedAt => rfl

variable {row fields column}

/-- A field with a value keeps it. -/
theorem coalesced_of_some {value : Nat} (h : fields.get column = some value) :
    coalesced row fields column = some value := by
  rw [coalesced, h]
  split
  · rfl
  · rfl

/-- A NULL field becomes what the target derives for it. -/
theorem coalesced_of_null {expression : Option Nat}
    (hexpression : targetExpression row fields column = some expression)
    (h : fields.get column = none) : coalesced row fields column = expression := by
  rw [coalesced, hexpression, h]
  exact Option.none_or

/-- A target sets nothing on a row that its WHERE clause leaves out. -/
theorem targetSet_of_not_needsBackfill (h : needsBackfill row fields = false) :
    targetSet row fields = fields := by
  have hkept : ∀ column, lacks row fields column = false →
      coalesced row fields column = fields.get column := by
    intro column hlacks
    rw [coalesced]
    cases hexpression : targetExpression row fields column with
    | none => rfl
    | some expression =>
        rw [lacks, hexpression] at hlacks
        obtain ⟨value, hvalue⟩ : ∃ value, fields.get column = some value :=
          Option.ne_none_iff_exists'.mp (by simpa using hlacks)
        simp [hvalue]
  obtain ⟨hcreated, hupdated⟩ := Bool.or_eq_false_iff.mp h
  rw [targetSet, hkept .createdAt hcreated, hkept .updatedAt hupdated]
  rfl

end Generator
end Northwind
