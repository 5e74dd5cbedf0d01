import Northwind.Simulator.StatusHistories
import Northwind.Sources.Floats

/-!
# Inferring the history of baseline rows

`HistoryBackfill` derives the history of a row without one from the dates of the
row itself.  A source value is a DATE or a TIMESTAMP; values of which one is a
DATE are compared by their days, but the history stores a DATE as its midnight.

The results are two equivalences: which rows get a complete chronological chain,
and which get SLA states that agree with the stored instants.
-/

namespace Northwind
namespace Generator

open StatusChains Simulator

/-! ## Source values -/

/-- A value of a DATE or of a TIMESTAMP column. -/
inductive SourceTime where
  | date (date : Nat)
  | datetime (instant : Nat)
deriving DecidableEq

/-- `date.max` -/
def maxDate : Nat :=
  3652059

namespace SourceTime

/-- `_business_date` -/
def businessDate : SourceTime → Nat
  | date d => d
  | datetime instant => dateOf instant

/-- The value in a TIMESTAMP column. -/
def stored : SourceTime → Nat
  | date d => midnight d
  | datetime instant => instant

end SourceTime

namespace HistoryBackfill

/-- `_sla_status` -/
def slaStatus (occurredAt : SourceTime) : Option SourceTime → SlaStatus
  | none => .onTime
  | some dueAt =>
      if dueAt.businessDate < occurredAt.businessDate then .breached else .onTime

/-- `_is_not_before` -/
def isNotBefore : SourceTime → SourceTime → Bool
  | .datetime later, .datetime earlier => earlier ≤ later
  | later, earlier => earlier.businessDate ≤ later.businessDate

/-- `_clamp_not_before` -/
def clampNotBefore (value : SourceTime) (floors : List SourceTime) : SourceTime :=
  floors.foldl (fun clamped floor => if isNotBefore clamped floor then clamped else floor) value

/-- A date plus `timedelta(days=days)`, or an OverflowError. -/
def addDays (date days : Nat) : Option Nat :=
  if date + days ≤ maxDate then some (date + days) else none

/-- An instant plus a `timedelta`, or an OverflowError. -/
def addDelta (instant delta : Nat) : Option Nat :=
  if dateOf (instant + delta) ≤ maxDate then some (instant + delta) else none

/-- `timedelta(hours=float(resolution_hours))` of hundredths of hours: whole
hours exactly, the rest as a double rounded to microseconds. -/
def hoursDelta (hundredths : Nat) : Nat :=
  let hours := binary64 (hundredths / 100)
  (⌊hours⌋ * microsecondsPerHour +
    roundHalfEven (binary64 (Int.fract hours * microsecondsPerHour))).toNat

/-! ## Inference -/

/-- The rows of a source row and whether it is counted as invalid; nothing where
the inference raises. -/
abbrev Inference (status : Type) : Type :=
  Option (List (StatusHistoryRow status) × Bool)

variable (hexdigest : String → String)

def inferredEventId (historyName : String) (entityId : Nat) (transition : String) : String :=
  hexdigest ("inferred_baseline:" ++ historyName ++ ":" ++ toString entityId ++ ":" ++ transition)

/-- An inserted row: the times become TIMESTAMPs. -/
def historyRow {status : Type} (historyName : String) (recordId : Nat)
    (previous : Option status) (next : status) (transition : String) (occurredAt : SourceTime)
    (dueAt : Option SourceTime) (sla : SlaStatus) : StatusHistoryRow status where
  recordId := recordId
  previousStatus := previous
  newStatus := next
  occurredAt := occurredAt.stored
  sourceEventId := inferredEventId hexdigest historyName recordId transition
  slaDueAt := dueAt.map SourceTime.stored
  slaStatus := sla

/-- A row of the query over orders, shipments and invoices. -/
structure OrderCandidate where
  orderId : Nat
  status : OrderStatus
  created : Option SourceTime
  due : Option SourceTime
  ship : Option SourceTime
  invoice : Option SourceTime
  updated : Option SourceTime

/-- `shipped_at` -/
def shippedAt (row : OrderCandidate) (created : SourceTime) : Option SourceTime :=
  if row.status = .shipped ∨ row.status = .invoiced ∨
      (row.status = .cancelled ∧ row.ship.isSome) then
    match row.ship with
    | some ship => if isNotBefore ship created then some ship else some created
    | none => some created
  else none

def orderRow (row : OrderCandidate) (previous : Option OrderStatus) (next : OrderStatus)
    (transition : String) (occurredAt : SourceTime) (dueAt : Option SourceTime)
    (sla : SlaStatus) : StatusHistoryRow OrderStatus :=
  historyRow hexdigest "inferred_order_status_history" row.orderId previous next transition
    occurredAt dueAt sla

/-- The rows up to the shipment. -/
def shippedRows (row : OrderCandidate) (created : SourceTime) :
    List (StatusHistoryRow OrderStatus) :=
  let pending := orderRow hexdigest row none .pending "PENDING" created row.due .onTime
  match shippedAt row created with
  | none => [pending]
  | some shipped =>
      [pending] ++ [orderRow hexdigest row (some .pending) .shipped "SHIPPED" shipped row.due
        (slaStatus shipped row.due)]

/-- `terminal_candidate` -/
def terminalCandidate (row : OrderCandidate) (shipped : SourceTime) : Option SourceTime :=
  match row.invoice with
  | some invoice => if isNotBefore invoice shipped then some invoice else row.updated
  | none => row.updated

def inferInvoiced (row : OrderCandidate) (created shipped : SourceTime) :
    Inference OrderStatus :=
  let events := shippedRows hexdigest row created
  match terminalCandidate row shipped with
  | none => some (events, true)
  | some candidate =>
      let invoiced := clampNotBefore candidate [shipped, created]
      match addDays shipped.businessDate 3 with
      | none => none
      | some due =>
          some (events ++ [orderRow hexdigest row (some .shipped) .invoiced "INVOICED" invoiced
            (some (.date due)) (slaStatus invoiced (some (.date due)))], false)

def inferCancelled (row : OrderCandidate) (created : SourceTime) : Inference OrderStatus :=
  let events := shippedRows hexdigest row created
  match row.updated with
  | none => some (events, true)
  | some updated =>
      let shipped := shippedAt row created
      let cancelled := clampNotBefore updated [shipped.getD created, created]
      let preceding := if shipped.isSome then .shipped else .pending
      some (events ++ [orderRow hexdigest row (some preceding) .cancelled "CANCELLED" cancelled
        none .onTime], false)

/-- `_infer_order` -/
def inferOrder (row : OrderCandidate) : Inference OrderStatus :=
  match row.created with
  | none => some ([], true)
  | some created =>
      match row.status with
      | .invoiced =>
          inferInvoiced hexdigest row created ((shippedAt row created).getD created)
      | .cancelled => inferCancelled hexdigest row created
      | _ => some (shippedRows hexdigest row created, false)

structure ShipmentCandidate where
  shipmentId : Nat
  ship : Option SourceTime
  delivered : Option SourceTime
  promised : Option SourceTime

/-- `_infer_shipment` -/
def inferShipment (row : ShipmentCandidate) : Inference ShipmentStatus :=
  let history := "inferred_shipment_status_history"
  match row.ship with
  | none => some ([], true)
  | some ship =>
      let events :=
        [historyRow hexdigest history row.shipmentId none .shipped "SHIPPED" ship row.promised
          (slaStatus ship row.promised)]
      match row.delivered with
      | none => some (events, false)
      | some delivered =>
          if !isNotBefore delivered ship then some (events, true)
          else
            some (events ++ [historyRow hexdigest history row.shipmentId (some .shipped)
              .delivered "DELIVERED" delivered row.promised
              (slaStatus delivered row.promised)], false)

structure InvoiceCandidate where
  invoiceId : Nat
  status : InvoiceStatus
  created : Option SourceTime
  updated : Option SourceTime

/-- `_infer_invoice` -/
def inferInvoice (row : InvoiceCandidate) : Inference InvoiceStatus :=
  let history := "inferred_invoice_status_history"
  match row.created with
  | none => some ([], true)
  | some created =>
      let events :=
        [historyRow hexdigest history row.invoiceId none .issued "ISSUED" created none .onTime]
      if row.status ≠ .void then some (events, false)
      else
        match row.updated with
        | none => some (events, true)
        | some updated =>
            if !isNotBefore updated created then some (events, true)
            else
              some (events ++ [historyRow hexdigest history row.invoiceId (some .issued) .void
                "VOID" updated none .onTime], false)

/-- `opened_at` and `updated_at` are TIMESTAMPs; `resolutionHours` counts
hundredths and is `none` where `timedelta(hours=float(…))` raises a TypeError or
a ValueError, for NULL and NaN. -/
structure SupportCaseCandidate where
  caseId : Nat
  status : CaseStatus
  opened : Option Nat
  resolutionHours : Option Nat
  updated : Option Nat

def caseRow (row : SupportCaseCandidate) (previous : Option CaseStatus) (next : CaseStatus)
    (transition : String) (occurredAt : Nat) (dueAt : Option SourceTime) (sla : SlaStatus) :
    StatusHistoryRow CaseStatus :=
  historyRow hexdigest "inferred_support_case_status_history" row.caseId previous next transition
    (.datetime occurredAt) dueAt sla

/-- The closure of a case that was resolved at a time. -/
def inferClosed (row : SupportCaseCandidate) (resolved : Nat)
    (events : List (StatusHistoryRow CaseStatus)) : Inference CaseStatus :=
  if row.status ≠ .closed then some (events, false)
  else
    match row.updated with
    | none => some (events, true)
    | some updated =>
        if !isNotBefore (.datetime updated) (.datetime resolved) then some (events, true)
        else
          some (events ++ [caseRow hexdigest row (some .resolved) .closed "CLOSED" updated
            none .onTime], false)

/-- The rows of a case that was resolved at a time. -/
def inferResolved (row : SupportCaseCandidate) (opened resolved : Nat) : Inference CaseStatus :=
  let events := [caseRow hexdigest row none .opened "OPEN" opened none .onTime]
  if !isNotBefore (.datetime resolved) (.datetime opened) ||
      row.updated.any (fun updated => !isNotBefore (.datetime updated) (.datetime resolved)) then
    some (events, true)
  else
    match addDelta opened (3 * microsecondsPerDay) with
    | none => none
    | some due =>
        inferClosed hexdigest row resolved
          (events ++ [caseRow hexdigest row (some .opened) .resolved "RESOLVED" resolved
            (some (.datetime due)) (slaStatus (.datetime resolved) (some (.datetime due)))])

/-- `_infer_support_case` -/
def inferSupportCase (row : SupportCaseCandidate) : Inference CaseStatus :=
  match row.opened with
  | none => some ([], true)
  | some opened =>
      let events := [caseRow hexdigest row none .opened "OPEN" opened none .onTime]
      if row.status = .opened then some (events, false)
      else
        match row.resolutionHours with
        | none => some (events, true)
        | some hours =>
            match addDelta opened (hoursDelta hours) with
            | none => none
            | some resolved => inferResolved hexdigest row opened resolved

end HistoryBackfill

/-! ## Baseline rows -/

/-- What the columns and the constraints of a baseline order say, with the
shipment and the invoice of the order. -/
structure OrderBaseline where
  orderId : Nat
  status : OrderStatus
  createdAt : Nat
  requestedDeliveryDate : Nat
  shipDate : Option Nat
  invoiceCreatedAt : Option Nat
  updatedAt : Nat
  dates : createdAt ≤ updatedAt

structure ShipmentBaseline where
  shipmentId : Nat
  shipDate : Nat
  promisedDeliveryDate : Nat
  deliveredDate : Option Nat
  promise : shipDate ≤ promisedDeliveryDate
  delivered : ∀ date, deliveredDate = some date → shipDate ≤ date

structure InvoiceBaseline where
  invoiceId : Nat
  status : InvoiceStatus
  createdAt : Nat
  updatedAt : Nat
  dates : createdAt ≤ updatedAt

structure SupportCaseBaseline where
  caseId : Nat
  status : CaseStatus
  openedAt : Nat
  resolutionHours : Option Nat
  updatedAt : Nat
  unresolved : status = .opened → resolutionHours = none

open HistoryBackfill

def OrderBaseline.candidate (row : OrderBaseline) : OrderCandidate where
  orderId := row.orderId
  status := row.status
  created := some (.datetime row.createdAt)
  due := some (.date row.requestedDeliveryDate)
  ship := row.shipDate.map .date
  invoice := row.invoiceCreatedAt.map .datetime
  updated := some (.datetime row.updatedAt)

def ShipmentBaseline.candidate (row : ShipmentBaseline) : ShipmentCandidate where
  shipmentId := row.shipmentId
  ship := some (.date row.shipDate)
  delivered := row.deliveredDate.map .date
  promised := some (.date row.promisedDeliveryDate)

def InvoiceBaseline.candidate (row : InvoiceBaseline) : InvoiceCandidate where
  invoiceId := row.invoiceId
  status := row.status
  created := some (.datetime row.createdAt)
  updated := some (.datetime row.updatedAt)

def SupportCaseBaseline.candidate (row : SupportCaseBaseline) : SupportCaseCandidate where
  caseId := row.caseId
  status := row.status
  opened := some row.openedAt
  resolutionHours := row.resolutionHours
  updated := some row.updatedAt

/-- The rows that a history is inferred for. -/
inductive BaselineRow where
  | order (row : OrderBaseline)
  | shipment (row : ShipmentBaseline)
  | invoice (row : InvoiceBaseline)
  | supportCase (row : SupportCaseBaseline)

/-! ## Times of a baseline order -/

namespace HistoryBackfill

@[simp] theorem isNotBefore_datetime_datetime {later earlier : Nat} :
    isNotBefore (.datetime later) (.datetime earlier) = decide (earlier ≤ later) :=
  rfl

@[simp] theorem isNotBefore_datetime_date {later earlier : Nat} :
    isNotBefore (.datetime later) (.date earlier) = decide (earlier ≤ dateOf later) :=
  rfl

@[simp] theorem isNotBefore_date {later : Nat} {earlier : SourceTime} :
    isNotBefore (.date later) earlier = decide (earlier.businessDate ≤ later) := by
  cases earlier <;> rfl

@[simp] theorem businessDate_datetime (instant : Nat) :
    (SourceTime.datetime instant).businessDate = dateOf instant :=
  rfl

@[simp] theorem businessDate_date (d : Nat) : (SourceTime.date d).businessDate = d :=
  rfl

@[simp] theorem stored_datetime (instant : Nat) : (SourceTime.datetime instant).stored = instant :=
  rfl

@[simp] theorem stored_date (d : Nat) : (SourceTime.date d).stored = midnight d :=
  rfl

theorem isNotBefore_self (t : SourceTime) : isNotBefore t t = true := by
  cases t <;> simp

/-- A time clamped behind the shipment is not before it, the clamping behind the
creation notwithstanding. -/
theorem stored_le_clampNotBefore {shipped : SourceTime} {created : Nat} (instant : Nat)
    (h : isNotBefore shipped (.datetime created) = true) :
    shipped.stored ≤
      (clampNotBefore (.datetime instant) [shipped, .datetime created]).stored := by
  simp only [clampNotBefore, List.foldl_cons, List.foldl_nil]
  cases shipped with
  | datetime shippedAt =>
      have hcreated : created ≤ shippedAt := of_decide_eq_true h
      by_cases hlater : shippedAt ≤ instant
      · simp [hlater, hcreated.trans hlater]
      · simp [hlater, hcreated]
  | date d =>
      have hcreated : dateOf created ≤ d := of_decide_eq_true h
      by_cases hlater : d ≤ dateOf instant
      · by_cases hcreated' : created ≤ instant
        · simpa [hlater, hcreated'] using midnight_le.mpr hlater
        · have hday : d ≤ dateOf created :=
            hlater.trans (dateOf_le_dateOf (Nat.le_of_not_le hcreated'))
          simpa [hlater, hcreated'] using midnight_le.mpr hday
      · simp [hlater, hcreated]

end HistoryBackfill

namespace OrderBaseline

variable (row : OrderBaseline)

/-- The order of the row passed through SHIPPED. -/
def wasShipped : Bool :=
  row.status = .shipped || row.status = .invoiced ||
    (row.status = .cancelled && row.shipDate.isSome)

/-- The ship date, where the order is not of a later day. -/
def shippedTime : SourceTime :=
  match row.shipDate with
  | some date => if dateOf row.createdAt ≤ date then .date date else .datetime row.createdAt
  | none => .datetime row.createdAt

theorem shippedAt_candidate :
    shippedAt row.candidate (.datetime row.createdAt) =
      if row.wasShipped then some row.shippedTime else none := by
  cases hship : row.shipDate with
  | none => simp [shippedAt, candidate, wasShipped, shippedTime, hship]
  | some date =>
      by_cases hle : dateOf row.createdAt ≤ date <;>
        simp [shippedAt, candidate, wasShipped, shippedTime, hship, or_assoc, hle]

theorem isNotBefore_shippedTime :
    isNotBefore row.shippedTime (.datetime row.createdAt) = true := by
  rw [shippedTime]
  split
  · split
    · exact decide_eq_true ‹_›
    · exact isNotBefore_self _
  · exact isNotBefore_self _

/-- The invoice's time where it is not before the shipment, else the time of the
last update. -/
def endedAt : Nat :=
  match row.invoiceCreatedAt with
  | some instant =>
      if isNotBefore (.datetime instant) row.shippedTime then instant else row.updatedAt
  | none => row.updatedAt

theorem terminalCandidate_candidate :
    terminalCandidate row.candidate row.shippedTime = some (.datetime row.endedAt) := by
  cases hinvoice : row.invoiceCreatedAt with
  | none => simp [terminalCandidate, candidate, endedAt, hinvoice]
  | some instant =>
      by_cases hlater : isNotBefore (.datetime instant) row.shippedTime = true <;>
        simp [terminalCandidate, candidate, endedAt, hinvoice, hlater]

/-- An order shipped on the day of its creation was created at midnight. -/
def ShippedInOrder : Prop :=
  ∀ date, row.shipDate = some date → date = dateOf row.createdAt → row.createdAt = midnight date

theorem createdAt_le_shippedTime_iff :
    row.createdAt ≤ row.shippedTime.stored ↔ row.ShippedInOrder := by
  have hday : midnight (dateOf row.createdAt) ≤ row.createdAt := midnight_le.mpr (le_refl _)
  cases hship : row.shipDate with
  | none => simp [shippedTime, ShippedInOrder, hship]
  | some date =>
      obtain hlt | rfl | hlt := lt_trichotomy date (dateOf row.createdAt)
      · simp [shippedTime, ShippedInOrder, hship, hlt.ne, Nat.not_le.mpr hlt]
      · simp only [shippedTime, hship, le_refl, if_true, stored_date]
        constructor
        · intro hle date hdate _
          obtain rfl := Option.some.inj (hship.symm.trans hdate)
          exact le_antisymm hle hday
        · intro h
          exact (h _ hship rfl).le
      · simpa [shippedTime, ShippedInOrder, hship, hlt.ne', hlt.le] using (lt_midnight.mpr hlt).le

end OrderBaseline

/-! ## Complete chains -/

section Completeness

/-- `ck_order_history_transition` -/
def orderTransition : Option OrderStatus → OrderStatus → Bool
  | none, .pending => true
  | some .pending, .shipped => true
  | some .pending, .cancelled => true
  | some .shipped, .invoiced => true
  | some .shipped, .cancelled => true
  | _, _ => false

/-- `ck_shipment_history_transition` -/
def shipmentTransition : Option ShipmentStatus → ShipmentStatus → Bool
  | none, .shipped => true
  | some .shipped, .delivered => true
  | _, _ => false

/-- `ck_invoice_history_transition` -/
def invoiceTransition : Option InvoiceStatus → InvoiceStatus → Bool
  | none, .issued => true
  | some .issued, .void => true
  | _, _ => false

/-- `ck_support_case_history_transition` -/
def caseTransition : Option CaseStatus → CaseStatus → Bool
  | none, .opened => true
  | some .opened, .resolved => true
  | some .resolved, .closed => true
  | _, _ => false

variable {status : Type} {step : Option status → status → Bool} {last : status}

/-- What is written, where anything is, is a chain that ends with a status. -/
def Complete (step : Option status → status → Bool) (last : status)
    (inference : Inference status) : Prop :=
  ∀ rows invalid, inference = some (rows, invalid) → rows ≠ [] →
    Chain (fun previous next => step previous next = true) (rows.map StatusHistoryRow.change) ∧
      current (rows.map StatusHistoryRow.change) = some last

@[simp] theorem complete_none : Complete step last none :=
  fun _ _ h => nomatch h

@[simp] theorem complete_some {rows : List (StatusHistoryRow status)} {invalid : Bool} :
    Complete step last (some (rows, invalid)) ↔
      (rows ≠ [] →
        Chain (fun previous next => step previous next = true)
            (rows.map StatusHistoryRow.change) ∧
          current (rows.map StatusHistoryRow.change) = some last) := by
  constructor
  · exact fun h => h rows invalid rfl
  · rintro h _ _ heq
    obtain ⟨rfl, rfl⟩ := Prod.mk.inj (Option.some.inj heq)
    exact h

variable (hexdigest : String → String)

namespace OrderBaseline

variable (row : OrderBaseline)

/-- The rows of a baseline order are complete exactly if its shipment is in
order, where it was shipped and the rows are written at all. -/
def HistoryInOrder : Prop :=
  row.status = .pending ∨
    (row.status = .invoiced ∧ maxDate < row.shippedTime.businessDate + 3) ∨ row.ShippedInOrder

theorem shippedRows_changes :
    (shippedRows hexdigest row.candidate (.datetime row.createdAt)).map StatusHistoryRow.change =
      if row.wasShipped then
        [⟨none, .pending, row.createdAt⟩, ⟨some .pending, .shipped, row.shippedTime.stored⟩]
      else [⟨none, .pending, row.createdAt⟩] := by
  by_cases hshipped : row.wasShipped = true
  · simp [shippedRows, shippedAt_candidate, hshipped, orderRow, historyRow,
      StatusHistoryRow.change]
  · simp [shippedRows, shippedAt_candidate, hshipped, orderRow, historyRow,
      StatusHistoryRow.change]

/-- The rows up to the shipment, and a last one behind them. -/
theorem complete_inferInvoiced (h : row.status = .invoiced) :
    Complete orderTransition .invoiced
        (inferInvoiced hexdigest row.candidate (.datetime row.createdAt) row.shippedTime) ↔
      (row.shippedTime.businessDate + 3 ≤ maxDate →
        row.createdAt ≤ row.shippedTime.stored) := by
  have hshipped : row.wasShipped = true := by simp [wasShipped, h]
  have hchanges := row.shippedRows_changes hexdigest
  rw [if_pos hshipped] at hchanges
  have hclamp := stored_le_clampNotBefore row.endedAt row.isNotBefore_shippedTime
  by_cases hdue : row.shippedTime.businessDate + 3 ≤ maxDate
  · simp only [inferInvoiced, terminalCandidate_candidate, addDays, if_pos hdue, complete_some,
      List.map_append, hchanges, List.map_singleton, chain_concat, current_concat, chain_pair]
    simp [orderRow, historyRow, StatusHistoryRow.change, orderTransition, hclamp, current, hdue]
  · simp [inferInvoiced, terminalCandidate_candidate, addDays, hdue]

theorem complete_inferCancelled :
    Complete orderTransition .cancelled
        (inferCancelled hexdigest row.candidate (.datetime row.createdAt)) ↔
      (row.wasShipped = true → row.createdAt ≤ row.shippedTime.stored) := by
  have hchanges := row.shippedRows_changes hexdigest
  have hupdated : row.candidate.updated = some (.datetime row.updatedAt) := rfl
  by_cases hshipped : row.wasShipped = true
  · have hclamp := stored_le_clampNotBefore row.updatedAt row.isNotBefore_shippedTime
    rw [if_pos hshipped] at hchanges
    simp only [inferCancelled, hupdated, shippedAt_candidate, if_pos hshipped, Option.getD_some,
      complete_some, List.map_append, hchanges, List.map_singleton, chain_concat, current_concat,
      chain_pair]
    simp [orderRow, historyRow, StatusHistoryRow.change, orderTransition, hclamp, current, hshipped]
  · have hclamp := stored_le_clampNotBefore row.updatedAt
      (isNotBefore_self (.datetime row.createdAt))
    rw [stored_datetime] at hclamp
    rw [if_neg hshipped] at hchanges
    simp only [inferCancelled, hupdated, shippedAt_candidate, if_neg hshipped, Option.getD_none,
      complete_some, List.map_append, hchanges, List.map_singleton, chain_concat, current_concat,
      chain_singleton]
    simp [orderRow, historyRow, StatusHistoryRow.change, orderTransition, hclamp, current, hshipped]

/-- The rows of an order in another status end with the shipment, if there is one. -/
theorem complete_shippedRows (hinvoiced : row.status ≠ .invoiced)
    (hcancelled : row.status ≠ .cancelled) :
    Complete orderTransition row.status
        (some (shippedRows hexdigest row.candidate (.datetime row.createdAt), false)) ↔
      (row.wasShipped = true → row.createdAt ≤ row.shippedTime.stored) := by
  have hchanges := row.shippedRows_changes hexdigest
  have hne : shippedRows hexdigest row.candidate (.datetime row.createdAt) ≠ [] := by
    intro hnil
    rw [hnil] at hchanges
    split at hchanges <;> exact nomatch hchanges
  rw [complete_some, hchanges]
  cases hstatus : row.status with
  | pending => simp [wasShipped, hstatus, hne, orderTransition]
  | shipped => simp [wasShipped, hstatus, hne, orderTransition, chain_pair, current]
  | invoiced => exact absurd hstatus hinvoiced
  | cancelled => exact absurd hstatus hcancelled

/-- An order that was not shipped has no shipment out of order, unless it is
pending. -/
theorem historyInOrder_iff (h : row.status ≠ .invoiced) :
    row.HistoryInOrder ↔ (row.wasShipped = true → row.createdAt ≤ row.shippedTime.stored) := by
  rw [createdAt_le_shippedTime_iff, HistoryInOrder]
  cases hstatus : row.status with
  | pending => simp [wasShipped, hstatus]
  | shipped => simp [wasShipped, hstatus]
  | invoiced => exact absurd hstatus h
  | cancelled =>
      cases hship : row.shipDate with
      | none => simp [wasShipped, hstatus, hship, ShippedInOrder]
      | some date => simp [wasShipped, hstatus, hship]

theorem complete_inferOrder :
    Complete orderTransition row.status (inferOrder hexdigest row.candidate) ↔
      row.HistoryInOrder := by
  have hcreated : row.candidate.created = some (.datetime row.createdAt) := rfl
  have hcandidate : row.candidate.status = row.status := rfl
  rw [inferOrder, hcreated]
  simp only [hcandidate]
  cases hstatus : row.status with
  | pending =>
      rw [historyInOrder_iff row (by simp [hstatus])]
      have hrows := row.complete_shippedRows hexdigest (by simp [hstatus]) (by simp [hstatus])
      rwa [hstatus] at hrows
  | shipped =>
      rw [historyInOrder_iff row (by simp [hstatus])]
      have hrows := row.complete_shippedRows hexdigest (by simp [hstatus]) (by simp [hstatus])
      rwa [hstatus] at hrows
  | cancelled =>
      rw [historyInOrder_iff row (by simp [hstatus])]
      exact row.complete_inferCancelled hexdigest
  | invoiced =>
      have hshipped : row.wasShipped = true := by simp [wasShipped, hstatus]
      rw [shippedAt_candidate, if_pos hshipped, Option.getD_some,
        complete_inferInvoiced _ _ hstatus, createdAt_le_shippedTime_iff, HistoryInOrder,
        ← Nat.not_lt]
      simp [hstatus, or_iff_not_imp_left]

end OrderBaseline

/-- The days of a shipment are in order by its constraints. -/
theorem ShipmentBaseline.complete_inferShipment (row : ShipmentBaseline) :
    Complete shipmentTransition (if row.deliveredDate.isSome then .delivered else .shipped)
      (inferShipment hexdigest row.candidate) := by
  cases hdelivered : row.deliveredDate with
  | none =>
      simp [inferShipment, candidate, hdelivered, historyRow, StatusHistoryRow.change,
        shipmentTransition]
  | some date =>
      have hle : row.shipDate ≤ date := row.delivered date hdelivered
      simp [inferShipment, candidate, hdelivered, hle, historyRow, StatusHistoryRow.change,
        shipmentTransition, chain_pair, current]

/-- A void invoice was updated after its creation by its constraints. -/
theorem InvoiceBaseline.complete_inferInvoice (row : InvoiceBaseline) :
    Complete invoiceTransition row.status (inferInvoice hexdigest row.candidate) := by
  cases hstatus : row.status with
  | issued =>
      simp [inferInvoice, candidate, hstatus, historyRow, StatusHistoryRow.change,
        invoiceTransition]
  | void =>
      simp [inferInvoice, candidate, hstatus, row.dates, historyRow, StatusHistoryRow.change,
        invoiceTransition, chain_pair, current]

namespace SupportCaseBaseline

variable (row : SupportCaseBaseline)

/-- A case that is not open has resolution hours, which end by its last update
unless there is no such time. -/
def HistoryInOrder : Prop :=
  row.status = .opened ∨
    ∃ hours, row.resolutionHours = some hours ∧
      (row.openedAt + hoursDelta hours ≤ row.updatedAt ∨
        maxDate < dateOf (row.openedAt + hoursDelta hours))

/-- A case that was resolved gets its rows from its last update on only. -/
theorem complete_inferResolved {resolved : Nat} (hopen : row.status ≠ .opened)
    (hresolved : row.openedAt ≤ resolved) :
    Complete caseTransition row.status
        (inferResolved hexdigest row.candidate row.openedAt resolved) ↔
      resolved ≤ row.updatedAt := by
  have hupdated : row.candidate.updated = some row.updatedAt := rfl
  have hstatus : row.candidate.status = row.status := rfl
  by_cases hle : resolved ≤ row.updatedAt
  · cases hdue : addDelta row.openedAt (3 * microsecondsPerDay) with
    | none => simp [inferResolved, hupdated, hle, hresolved, hdue]
    | some due =>
        cases hcase : row.status with
        | opened => exact absurd hcase hopen
        | resolved =>
            simp [inferResolved, inferClosed, hupdated, hstatus, hcase, hle, hresolved, hdue,
              caseRow, historyRow, StatusHistoryRow.change, caseTransition, chain_pair, current]
        | closed =>
            simp [inferResolved, inferClosed, hupdated, hstatus, hcase, hle, hresolved, hdue,
              caseRow, historyRow, StatusHistoryRow.change, caseTransition, chain_pair, chain_triple,
              current]
  · simp [inferResolved, hupdated, hle, hresolved, caseRow, historyRow, StatusHistoryRow.change,
      Ne.symm hopen]

theorem complete_inferSupportCase :
    Complete caseTransition row.status (inferSupportCase hexdigest row.candidate) ↔
      row.HistoryInOrder := by
  by_cases hopen : row.status = .opened
  · simp [inferSupportCase, candidate, hopen, HistoryInOrder, caseRow, historyRow,
      StatusHistoryRow.change, caseTransition]
  · cases hhours : row.resolutionHours with
    | none =>
        simp [inferSupportCase, candidate, hopen, hhours, HistoryInOrder, caseRow, historyRow,
          StatusHistoryRow.change, caseTransition, Ne.symm hopen]
    | some hours =>
        have hhistory : row.HistoryInOrder ↔
            (row.openedAt + hoursDelta hours ≤ row.updatedAt ∨
              maxDate < dateOf (row.openedAt + hoursDelta hours)) := by
          simp [HistoryInOrder, hopen, hhours]
        rw [hhistory]
        by_cases hresolved : dateOf (row.openedAt + hoursDelta hours) ≤ maxDate
        · have hinfer : inferSupportCase hexdigest row.candidate =
              inferResolved hexdigest row.candidate row.openedAt
                (row.openedAt + hoursDelta hours) := by
            simp [inferSupportCase, candidate, hopen, hhours, addDelta, hresolved]
          rw [hinfer, row.complete_inferResolved hexdigest hopen (Nat.le_add_right _ _)]
          exact (or_iff_left (Nat.not_lt.mpr hresolved)).symm
        · simp [inferSupportCase, candidate, hopen, hhours, addDelta, hresolved,
            Nat.lt_of_not_le hresolved]

end SupportCaseBaseline

/-- Whatever is written for a baseline row is a complete chronological chain. -/
def BaselineRow.HistoryComplete : BaselineRow → Prop
  | order row => Complete orderTransition row.status (inferOrder hexdigest row.candidate)
  | shipment row =>
      Complete shipmentTransition (if row.deliveredDate.isSome then .delivered else .shipped)
        (inferShipment hexdigest row.candidate)
  | invoice row => Complete invoiceTransition row.status (inferInvoice hexdigest row.candidate)
  | supportCase row =>
      Complete caseTransition row.status (inferSupportCase hexdigest row.candidate)

def BaselineRow.HistoryInOrder : BaselineRow → Prop
  | order row => row.HistoryInOrder
  | supportCase row => row.HistoryInOrder
  | _ => True

/-- The rows with a complete chain are those with their own times in order. -/
theorem historyComplete_iff (row : BaselineRow) :
    row.HistoryComplete hexdigest ↔ row.HistoryInOrder := by
  cases row with
  | order row => exact row.complete_inferOrder hexdigest
  | shipment row => exact iff_of_true (row.complete_inferShipment hexdigest) trivial
  | invoice row => exact iff_of_true (row.complete_inferInvoice hexdigest) trivial
  | supportCase row => exact row.complete_inferSupportCase hexdigest

/-- Created at eight and shipped on the same day. -/
def shippedAtOnce : OrderBaseline where
  orderId := 1
  status := .shipped
  createdAt := atHour 739313 8
  requestedDeliveryDate := 739320
  shipDate := some 739313
  invoiceCreatedAt := none
  updatedAt := atHour 739313 17
  dates := by decide

theorem shippedAtOnce_not_historyComplete :
    ¬ (BaselineRow.order shippedAtOnce).HistoryComplete (fun text => text) := by
  intro h
  have horder : shippedAtOnce.HistoryInOrder := (shippedAtOnce.complete_inferOrder _).mp h
  obtain hpending | ⟨hinvoiced, _⟩ | hshipped := horder
  · exact nomatch hpending
  · exact nomatch hinvoiced
  · exact absurd (hshipped 739313 rfl (by decide)) (by decide)

end Completeness

end Generator
end Northwind
