import Northwind.Generator.HistoryBackfill

/-!
# The SLA states of inferred rows

The backfill compares calendar days, but the history stores instants.  The two
differ for a row that occurs on the day it is due, after its midnight.
-/

namespace Northwind
namespace Generator

open Simulator HistoryBackfill

section Sla

variable {status : Type}

/-- Every row that is written has an SLA state that agrees with its instants. -/
def Agrees (inference : Inference status) : Prop :=
  ∀ rows invalid, inference = some (rows, invalid) → ∀ row, row ∈ rows → row.SlaAgrees

@[simp] theorem agrees_none : Agrees (none : Inference status) :=
  fun _ _ h => nomatch h

@[simp] theorem agrees_some {rows : List (StatusHistoryRow status)} {invalid : Bool} :
    Agrees (some (rows, invalid)) ↔ ∀ row, row ∈ rows → row.SlaAgrees := by
  constructor
  · exact fun h => h rows invalid rfl
  · rintro h _ _ heq
    obtain ⟨rfl, rfl⟩ := Prod.mk.inj (Option.some.inj heq)
    exact h

variable (hexdigest : String → String) {historyName : String} {recordId : Nat}
variable {previous : Option status} {next : status} {transition : String}

@[simp] theorem slaAgrees_historyRow_none {occurred : SourceTime} :
    (historyRow hexdigest historyName recordId previous next transition occurred none
      .onTime).SlaAgrees := by
  simp [StatusHistoryRow.SlaAgrees, historyRow]

@[simp] theorem slaAgrees_historyRow_onTime {occurred due : SourceTime} :
    (historyRow hexdigest historyName recordId previous next transition occurred (some due)
      .onTime).SlaAgrees ↔ occurred.stored ≤ due.stored := by
  simp [StatusHistoryRow.SlaAgrees, historyRow]

/-- The days are compared where the instants should be. -/
@[simp] theorem slaAgrees_historyRow {occurred due : SourceTime} :
    (historyRow hexdigest historyName recordId previous next transition occurred (some due)
      (slaStatus occurred (some due))).SlaAgrees ↔
        (due.businessDate < occurred.businessDate ↔ due.stored < occurred.stored) := by
  by_cases hlate : due.businessDate < occurred.businessDate <;>
    simp [StatusHistoryRow.SlaAgrees, historyRow, slaStatus, hlate]

/-- Days and instants differ on the day itself, after its midnight. -/
theorem late_iff_date {occurred : SourceTime} {due : Nat} :
    (due < occurred.businessDate ↔ midnight due < occurred.stored) ↔
      (occurred.businessDate = due → occurred.stored = midnight due) := by
  cases occurred with
  | date d =>
      simp only [businessDate_date, stored_date, midnight_lt_midnight, true_iff]
      exact fun h => congrArg midnight h
  | datetime instant =>
      simp only [businessDate_datetime, stored_datetime]
      obtain hlt | heq | hlt := lt_trichotomy (dateOf instant) due
      · have hbefore := lt_midnight.mpr hlt
        exact iff_of_true (iff_of_false hlt.asymm hbefore.asymm) (fun h => absurd h hlt.ne)
      · have hle : midnight due ≤ instant := midnight_le.mpr heq.ge
        simp only [heq, lt_irrefl, false_iff, not_lt, forall_const]
        exact ⟨fun h => le_antisymm h hle, fun h => h.le⟩
      · have hafter : midnight due < instant := by
          exact lt_of_lt_of_le (midnight_lt_midnight.mpr hlt) (midnight_le.mpr (le_refl _))
        exact iff_of_true (iff_of_true hlt hafter) (fun h => absurd h hlt.ne')

theorem late_iff_instant {occurred due : Nat} :
    (dateOf due < dateOf occurred ↔ due < occurred) ↔
      (dateOf occurred = dateOf due → occurred ≤ due) := by
  obtain hlt | heq | hlt := lt_trichotomy (dateOf occurred) (dateOf due)
  · have hbefore : ¬ due < occurred := fun h => hlt.not_ge (dateOf_le_dateOf h.le)
    exact iff_of_true (iff_of_false hlt.asymm hbefore) (fun h => absurd h hlt.ne)
  · simp [heq]
  · have hafter : due < occurred := by
      by_contra hle
      exact hlt.not_ge (dateOf_le_dateOf (Nat.le_of_not_lt hle))
    exact iff_of_true (iff_of_true hlt hafter) (fun h => absurd h hlt.ne')

/-- A time clamped behind the shipment is of the day of the shipment at most,
unless it stays as it is. -/
theorem clampNotBefore_eq_or {shipped : SourceTime} {created : Nat} (instant : Nat)
    (h : isNotBefore shipped (.datetime created) = true) :
    clampNotBefore (.datetime instant) [shipped, .datetime created] = .datetime instant ∨
      ((clampNotBefore (.datetime instant) [shipped, .datetime created]).businessDate ≤
          shipped.businessDate ∧ dateOf instant ≤ shipped.businessDate) := by
  simp only [clampNotBefore, List.foldl_cons, List.foldl_nil]
  cases shipped with
  | datetime shippedAt =>
      have hcreated : created ≤ shippedAt := of_decide_eq_true h
      by_cases hlater : shippedAt ≤ instant
      · simp [hlater, hcreated.trans hlater]
      · simp [hlater, hcreated, dateOf_le_dateOf (Nat.le_of_not_le hlater)]
  | date d =>
      have hcreated : dateOf created ≤ d := of_decide_eq_true h
      by_cases hlater : d ≤ dateOf instant
      · by_cases hcreated' : created ≤ instant
        · simp [hlater, hcreated']
        · have hday : dateOf instant ≤ d :=
            (dateOf_le_dateOf (Nat.le_of_not_le hcreated')).trans hcreated
          simp [hlater, hcreated', hcreated, hday]
      · simp [hlater, hcreated, Nat.le_of_not_le hlater]

namespace OrderBaseline

variable (row : OrderBaseline)

/-- The order was created by the midnight of its requested delivery, and its
invoice or last update is not of the third day after the shipment, except at
midnight; or no row is written at all. -/
def DueInOrder : Prop :=
  (row.status = .invoiced ∧ maxDate < row.shippedTime.businessDate + 3) ∨
    (row.createdAt ≤ midnight row.requestedDeliveryDate ∧
      (row.status = .invoiced → dateOf row.endedAt = row.shippedTime.businessDate + 3 →
        row.endedAt = midnight (row.shippedTime.businessDate + 3)))

/-- A shipment that is due agrees where the creation does. -/
theorem agrees_shippedTime {due : Nat} (h : row.createdAt ≤ midnight due) :
    due < row.shippedTime.businessDate ↔ midnight due < row.shippedTime.stored := by
  rw [late_iff_date]
  rw [shippedTime]
  have hcreated : dateOf row.createdAt = due → row.createdAt = midnight due :=
    fun heq => le_antisymm h (midnight_le.mpr heq.ge)
  split
  · split
    · exact fun heq => congrArg midnight heq
    · exact hcreated
  · exact hcreated

theorem agrees_shippedRows :
    (∀ other, other ∈ shippedRows hexdigest row.candidate (.datetime row.createdAt) →
        other.SlaAgrees) ↔
      row.createdAt ≤ midnight row.requestedDeliveryDate := by
  have hdue : row.candidate.due = some (.date row.requestedDeliveryDate) := rfl
  by_cases hshipped : row.wasShipped = true
  · simp only [shippedRows, shippedAt_candidate, hshipped, if_true, hdue, orderRow,
      List.singleton_append, List.forall_mem_cons, slaAgrees_historyRow_onTime,
      slaAgrees_historyRow, stored_datetime, stored_date, businessDate_date, List.not_mem_nil,
      false_imp_iff, implies_true, and_true]
    exact and_iff_left_of_imp fun h => row.agrees_shippedTime h
  · simp [shippedRows, shippedAt_candidate, hshipped, hdue, orderRow]

/-- The terminal row of an invoiced order agrees where its candidate does. -/
theorem agrees_invoiced {due : Nat} (hdue : row.shippedTime.businessDate < due) :
    (due < (clampNotBefore (.datetime row.endedAt)
          [row.shippedTime, .datetime row.createdAt]).businessDate ↔
        midnight due < (clampNotBefore (.datetime row.endedAt)
          [row.shippedTime, .datetime row.createdAt]).stored) ↔
      (dateOf row.endedAt = due → row.endedAt = midnight due) := by
  rw [late_iff_date]
  obtain heq | ⟨hclamped, hended⟩ :=
    clampNotBefore_eq_or row.endedAt row.isNotBefore_shippedTime
  · rw [heq, businessDate_datetime, stored_datetime]
  · exact iff_of_true (fun h => absurd h (hclamped.trans_lt hdue).ne)
      (fun h => absurd h (hended.trans_lt hdue).ne)

theorem agrees_inferOrder :
    Agrees (inferOrder hexdigest row.candidate) ↔ row.DueInOrder := by
  have hcreated : row.candidate.created = some (.datetime row.createdAt) := rfl
  have hcandidate : row.candidate.status = row.status := rfl
  have hupdated : row.candidate.updated = some (.datetime row.updatedAt) := rfl
  have hrows := row.agrees_shippedRows hexdigest
  rw [inferOrder, hcreated]
  simp only [hcandidate]
  cases hstatus : row.status with
  | pending => simpa [DueInOrder, hstatus] using hrows
  | shipped => simpa [DueInOrder, hstatus] using hrows
  | cancelled =>
      simp only [inferCancelled, hupdated, agrees_some, List.forall_mem_append,
        List.forall_mem_singleton, orderRow, slaAgrees_historyRow_none, and_true]
      simpa [DueInOrder, hstatus] using hrows
  | invoiced =>
      have hshipped : row.wasShipped = true := by simp [wasShipped, hstatus]
      rw [shippedAt_candidate, if_pos hshipped, Option.getD_some]
      by_cases hdue : row.shippedTime.businessDate + 3 ≤ maxDate
      · have hinvoiced := row.agrees_invoiced (Nat.lt_add_of_pos_right (Nat.succ_pos 2))
        simp only [inferInvoiced, terminalCandidate_candidate, addDays, if_pos hdue, agrees_some,
          List.forall_mem_append, hrows, List.forall_mem_singleton, orderRow, slaAgrees_historyRow,
          businessDate_date, stored_date, hinvoiced]
        simp [DueInOrder, hstatus, Nat.not_lt.mpr hdue]
      · simp [inferInvoiced, terminalCandidate_candidate, addDays, hdue, DueInOrder, hstatus,
          Nat.lt_of_not_le hdue]

end OrderBaseline

/-- Two days, both as their midnights. -/
theorem ShipmentBaseline.agrees_inferShipment (row : ShipmentBaseline) :
    Agrees (inferShipment hexdigest row.candidate) := by
  cases hdelivered : row.deliveredDate with
  | none => simp [inferShipment, candidate, hdelivered]
  | some date =>
      have hle : row.shipDate ≤ date := row.delivered date hdelivered
      simp [inferShipment, candidate, hdelivered, hle]

theorem InvoiceBaseline.agrees_inferInvoice (row : InvoiceBaseline) :
    Agrees (inferInvoice hexdigest row.candidate) := by
  cases hstatus : row.status with
  | issued => simp [inferInvoice, candidate, hstatus]
  | void => simp [inferInvoice, candidate, hstatus, row.dates]

namespace SupportCaseBaseline

variable (row : SupportCaseBaseline)

/-- A resolution on the third day is no later in the day than the opening was,
where the resolution is written. -/
def DueInOrder : Prop :=
  ∀ hours, row.resolutionHours = some hours →
    row.openedAt + hoursDelta hours ≤ row.updatedAt →
      dateOf (row.openedAt + hoursDelta hours) = dateOf row.openedAt + 3 →
        dateOf row.openedAt + 3 ≤ maxDate →
          row.openedAt + hoursDelta hours ≤ daysAfter 3 row.openedAt

theorem addDelta_days {instant due : Nat} :
    addDelta instant (3 * microsecondsPerDay) = some due ↔
      dateOf instant + 3 ≤ maxDate ∧ daysAfter 3 instant = due := by
  rw [← dateOf_daysAfter, addDelta, daysAfter]
  split <;> simp_all

theorem agrees_inferResolved {resolved due : Nat} (hresolved : row.openedAt ≤ resolved)
    (hupdated : resolved ≤ row.updatedAt)
    (hdue : addDelta row.openedAt (3 * microsecondsPerDay) = some due) :
    Agrees (inferResolved hexdigest row.candidate row.openedAt resolved) ↔
      (dateOf resolved = dateOf due → resolved ≤ due) := by
  have hcandidate : row.candidate.updated = some row.updatedAt := rfl
  have hstatus : row.candidate.status = row.status := rfl
  rw [← late_iff_instant]
  by_cases hclosed : row.status = .closed
  · simp [inferResolved, inferClosed, hcandidate, hstatus, hclosed, hresolved, hupdated, hdue,
      caseRow]
  · simp [inferResolved, inferClosed, hcandidate, hstatus, hclosed, hresolved, hupdated, hdue,
      caseRow]

/-- Nothing is late about a case that was not updated since. -/
theorem agrees_inferResolved_of_not_updated {resolved : Nat}
    (hresolved : row.openedAt ≤ resolved) (hupdated : ¬ resolved ≤ row.updatedAt) :
    Agrees (inferResolved hexdigest row.candidate row.openedAt resolved) := by
  have hcandidate : row.candidate.updated = some row.updatedAt := rfl
  simp [inferResolved, hcandidate, hresolved, hupdated, caseRow]

theorem agrees_inferSupportCase :
    Agrees (inferSupportCase hexdigest row.candidate) ↔ row.DueInOrder := by
  cases hhours : row.resolutionHours with
  | none =>
      by_cases hopen : row.status = .opened <;>
        simp [inferSupportCase, candidate, hopen, hhours, DueInOrder, caseRow]
  | some hours =>
      have hopen : row.status ≠ .opened := by
        intro hopen
        cases hhours.symm.trans (row.unresolved hopen)
      have hresolved : row.openedAt ≤ row.openedAt + hoursDelta hours := Nat.le_add_right _ _
      have hcond : row.DueInOrder ↔
          (row.openedAt + hoursDelta hours ≤ row.updatedAt →
            dateOf (row.openedAt + hoursDelta hours) = dateOf row.openedAt + 3 →
              dateOf row.openedAt + 3 ≤ maxDate →
                row.openedAt + hoursDelta hours ≤ daysAfter 3 row.openedAt) := by
        simp [DueInOrder, hhours]
      rw [hcond]
      by_cases hmax : dateOf (row.openedAt + hoursDelta hours) ≤ maxDate
      · have hinfer : inferSupportCase hexdigest row.candidate =
            inferResolved hexdigest row.candidate row.openedAt
              (row.openedAt + hoursDelta hours) := by
          simp [inferSupportCase, candidate, hopen, hhours, addDelta, hmax]
        rw [hinfer]
        generalize row.openedAt + hoursDelta hours = resolved at hresolved ⊢
        by_cases hupdated : resolved ≤ row.updatedAt
        · cases hdue : addDelta row.openedAt (3 * microsecondsPerDay) with
          | none =>
              have hcandidate : row.candidate.updated = some row.updatedAt := rfl
              have hnone : inferResolved hexdigest row.candidate row.openedAt resolved = none := by
                simp [inferResolved, hcandidate, hresolved, hupdated, hdue]
              simp only [hnone, agrees_none, true_iff]
              intro _ _ hdays
              have hsome := addDelta_days.mpr ⟨hdays, rfl⟩
              cases hdue.symm.trans hsome
          | some due =>
              obtain ⟨hdays, rfl⟩ := addDelta_days.mp hdue
              simp only [agrees_inferResolved hexdigest row hresolved hupdated hdue,
                dateOf_daysAfter, hupdated, hdays, forall_const]
        · exact iff_of_true (row.agrees_inferResolved_of_not_updated hexdigest hresolved hupdated)
            (fun h => absurd h hupdated)
      · have hinfer : inferSupportCase hexdigest row.candidate = none := by
          simp [inferSupportCase, candidate, hopen, hhours, addDelta, hmax]
        rw [hinfer]
        exact iff_of_true agrees_none (fun _ heq hdays => absurd (heq.trans_le hdays) hmax)

end SupportCaseBaseline

/-- Every row that the backfill writes for a baseline row agrees with its
instants. -/
def BaselineRow.SlaAgrees : BaselineRow → Prop
  | order row => Agrees (inferOrder hexdigest row.candidate)
  | shipment row => Agrees (inferShipment hexdigest row.candidate)
  | invoice row => Agrees (inferInvoice hexdigest row.candidate)
  | supportCase row => Agrees (inferSupportCase hexdigest row.candidate)

def BaselineRow.DueInOrder : BaselineRow → Prop
  | order row => row.DueInOrder
  | supportCase row => row.DueInOrder
  | _ => True

/-- The rows of the applier agree for every list of events and every database,
those of the backfill exactly for the baseline rows with nothing due on the day
it occurs, but later. -/
theorem slaAgrees_iff :
    (∀ events db, (OpsEventApplier.apply events).Meets (OpsEventApplier.SlaRecorded db)
      (fun _ => OpsEventApplier.SlaRecorded db) (fun _ => OpsEventApplier.SlaRecorded db) db) ∧
    ∀ row : BaselineRow, row.SlaAgrees hexdigest ↔ row.DueInOrder := by
  refine ⟨fun events db => OpsEventApplier.apply_slaRecorded events db
    (OpsEventApplier.recorded_refl db), fun row => ?_⟩
  cases row with
  | order row => exact row.agrees_inferOrder hexdigest
  | shipment row => exact iff_of_true (row.agrees_inferShipment hexdigest) trivial
  | invoice row => exact iff_of_true (row.agrees_inferInvoice hexdigest) trivial
  | supportCase row => exact row.agrees_inferSupportCase hexdigest

/-- Shipped on a day and invoiced at nine on the third day after it. -/
def invoicedOnThirdDay : OrderBaseline where
  orderId := 1
  status := .invoiced
  createdAt := atHour 739312 8
  requestedDeliveryDate := 739320
  shipDate := some 739313
  invoiceCreatedAt := some (atHour 739316 9)
  updatedAt := atHour 739316 9
  dates := by decide

theorem invoicedOnThirdDay_not_slaAgrees :
    ¬ (BaselineRow.order invoicedOnThirdDay).SlaAgrees (fun text => text) := by
  intro h
  have horder : invoicedOnThirdDay.DueInOrder := (invoicedOnThirdDay.agrees_inferOrder _).mp h
  obtain ⟨_, hmax⟩ | ⟨_, hended⟩ := horder
  · exact absurd hmax (by decide)
  · exact absurd (hended rfl (by decide)) (by decide)

end Sla

end Generator
end Northwind
