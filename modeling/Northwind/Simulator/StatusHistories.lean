import Northwind.Library.StatusChains
import Northwind.Simulator.OpsApplied

/-!
# The rows of the status histories

A history row is a change of status at an instant, and states whether the change
was late.  The applier only appends to the histories, and every row it appends
is late exactly if its instant is later than the one it was due at.
-/

namespace Northwind
namespace Simulator

open CrashPrograms CrashPrograms.Program StatusChains

def StatusHistoryRow.change {status : Type} (row : StatusHistoryRow status) :
    Change status Nat :=
  ⟨row.previousStatus, row.newStatus, row.occurredAt⟩

/-- BREACHED exactly for a change later than the instant it was due at. -/
def StatusHistoryRow.SlaAgrees {status : Type} (row : StatusHistoryRow status) : Prop :=
  row.slaStatus = .breached ↔ ∃ due, row.slaDueAt = some due ∧ due < row.occurredAt

/-- The histories go on by rows with a property. -/
structure Recorded (P : ∀ status, StatusHistoryRow status → Prop) (db db' : OpsDatabase) :
    Prop where
  orders : ∃ rows, db'.orderHistory = db.orderHistory ++ rows ∧ ∀ row, row ∈ rows → P _ row
  shipments : ∃ rows, db'.shipmentHistory = db.shipmentHistory ++ rows ∧
    ∀ row, row ∈ rows → P _ row
  invoices : ∃ rows, db'.invoiceHistory = db.invoiceHistory ++ rows ∧
    ∀ row, row ∈ rows → P _ row
  cases : ∃ rows, db'.caseHistory = db.caseHistory ++ rows ∧ ∀ row, row ∈ rows → P _ row

namespace OpsEventApplier

variable {P : ∀ status, StatusHistoryRow status → Prop} {db db' : OpsDatabase}

theorem recorded_refl (db : OpsDatabase) : Recorded P db db where
  orders := ⟨[], (List.append_nil _).symm, fun _ h => nomatch h⟩
  shipments := ⟨[], (List.append_nil _).symm, fun _ h => nomatch h⟩
  invoices := ⟨[], (List.append_nil _).symm, fun _ h => nomatch h⟩
  cases := ⟨[], (List.append_nil _).symm, fun _ h => nomatch h⟩

/-- One more row at the end. -/
theorem exists_append_concat {ρ : Type} {Q : ρ → Prop} {old rows : List ρ} {row : ρ}
    (h : ∃ added, rows = old ++ added ∧ ∀ row, row ∈ added → Q row) (hrow : Q row) :
    ∃ added, rows ++ [row] = old ++ added ∧ ∀ row, row ∈ added → Q row := by
  obtain ⟨added, rfl, hadded⟩ := h
  refine ⟨added ++ [row], List.append_assoc _ _ _, fun other hother => ?_⟩
  obtain hold | hnew := List.mem_append.mp hother
  · exact hadded other hold
  · exact List.mem_singleton.mp hnew ▸ hrow

/-- An INSERT keeps what the longer table keeps. -/
theorem keeps_insertRow {ρ : Type} {table : OpsTable} {rows : OpsDatabase → List ρ}
    {store : List ρ → OpsDatabase → OpsDatabase} {clashes : ρ → Bool} {row : ρ}
    {K : OpsDatabase → Prop} (h : ∀ db, K db → K (store (rows db ++ [row]) db)) :
    (insertRow table rows store clashes row).Keeps K :=
  fun db hdb => meets_insertRow.mpr ⟨fun _ => hdb, fun _ => ⟨hdb, h db hdb⟩⟩

theorem keeps_insertOrderHistory {row : StatusHistoryRow OrderStatus} (hrow : P _ row) :
    (insertOrderHistory row).Keeps (Recorded P db) :=
  keeps_insertRow fun _ h => { h with orders := exists_append_concat h.orders hrow }

theorem keeps_insertShipmentHistory {row : StatusHistoryRow ShipmentStatus} (hrow : P _ row) :
    (insertShipmentHistory row).Keeps (Recorded P db) :=
  keeps_insertRow fun _ h => { h with shipments := exists_append_concat h.shipments hrow }

theorem keeps_insertInvoiceHistory {row : StatusHistoryRow InvoiceStatus} (hrow : P _ row) :
    (insertInvoiceHistory row).Keeps (Recorded P db) :=
  keeps_insertRow fun _ h => { h with invoices := exists_append_concat h.invoices hrow }

theorem keeps_insertCaseHistory {row : StatusHistoryRow CaseStatus} (hrow : P _ row) :
    (insertCaseHistory row).Keeps (Recorded P db) :=
  keeps_insertRow fun _ h => { h with cases := exists_append_concat h.cases hrow }

/-- A statement that leaves the histories alone. -/
theorem keeps_of_histories {change : OpsDatabase → OpsDatabase}
    (horders : ∀ s, (change s).orderHistory = s.orderHistory := by intros; rfl)
    (hshipments : ∀ s, (change s).shipmentHistory = s.shipmentHistory := by intros; rfl)
    (hinvoices : ∀ s, (change s).invoiceHistory = s.invoiceHistory := by intros; rfl)
    (hcases : ∀ s, (change s).caseHistory = s.caseHistory := by intros; rfl) :
    (write change : OpsProgram PUnit).Keeps (Recorded P db) :=
  keeps_write fun s h =>
    { orders := horders s ▸ h.orders
      shipments := hshipments s ▸ h.shipments
      invoices := hinvoices s ▸ h.invoices
      cases := hcases s ▸ h.cases }

/-! ## Late rows -/

theorem slaStatus_eq_breached {due occurred : Nat} :
    slaStatus due occurred = .breached ↔ due < occurred := by
  rw [slaStatus]
  split
  · exact iff_of_true rfl ‹_›
  · exact iff_of_false (fun h => nomatch h) ‹_›

/-- Two days are compared as the same hour of either. -/
theorem slaAgrees_of_dates {status : Type} {row : StatusHistoryRow status} {due date hour : Nat}
    (hdue : row.slaDueAt = some (atHour due hour)) (hoccurred : row.occurredAt = atHour date hour)
    (hsla : row.slaStatus = slaStatus due date) :
    row.SlaAgrees := by
  simp [StatusHistoryRow.SlaAgrees, hdue, hoccurred, hsla, slaStatus_eq_breached]

theorem slaAgrees_of_not_due {status : Type} {row : StatusHistoryRow status}
    (hdue : row.slaDueAt = none) (hsla : row.slaStatus = .onTime) :
    row.SlaAgrees := by
  simp [StatusHistoryRow.SlaAgrees, hdue, hsla]

theorem slaAgrees_of_onTime {status : Type} {row : StatusHistoryRow status} {due : Nat}
    (hdue : row.slaDueAt = some due) (hle : row.occurredAt ≤ due)
    (hsla : row.slaStatus = .onTime) :
    row.SlaAgrees := by
  simp [StatusHistoryRow.SlaAgrees, hdue, hsla, hle]

/-! ## Events -/

/-- What the histories go on by in an event. -/
abbrev SlaRecorded (db : OpsDatabase) : OpsDatabase → Prop :=
  Recorded (fun _ row => row.SlaAgrees) db

theorem applyOrder_slaRecorded (event : BusinessEvent) (order : OrderCreated) :
    (applyOrder event order).Keeps (SlaRecorded db) := by
  have hcustomer : (ensureCustomer order.customerId).Keeps (SlaRecorded db) := by
    refine keeps_read_bind fun s hs => ?_
    split
    · exact keeps_pure _ s hs
    · exact keeps_insertRow (fun _ h => { h with }) s hs
  have hline : (insertFirstLine order.orderId).Keeps (SlaRecorded db) := by
    refine keeps_read_bind fun s hs => ?_
    split
    · exact keeps_raise _ s hs
    · exact keeps_insertRow (fun _ h => { h with }) s hs
  have hnew : (insertNewOrder event order).Keeps (SlaRecorded db) :=
    (keeps_insertRow fun _ h => { h with }).bind fun _ =>
      (keeps_insertOrderHistory (slaAgrees_of_not_due rfl rfl)).bind fun _ => hline
  refine hcustomer.bind fun _ => keeps_read_bind fun s hs => ?_
  split
  · split
    · exact keeps_raise _ s hs
    · exact keeps_pure _ s hs
  · exact hnew s hs

theorem applyShipment_slaRecorded (event : BusinessEvent) (shipment : ShipmentCreated) :
    (applyShipment event shipment).Keeps (SlaRecorded db) := by
  have hship : ∀ status, (shipOrder event shipment status).Keeps (SlaRecorded db) := by
    intro status
    refine keeps_ite ?_ (keeps_pure _)
    exact (keeps_insertOrderHistory (slaAgrees_of_dates rfl rfl rfl)).bind fun _ =>
      keeps_of_histories
  have hnew : ∀ order, (insertNewShipment event shipment order).Keeps (SlaRecorded db) :=
    fun order =>
      (keeps_insertRow fun _ h => { h with }).bind fun _ =>
        (keeps_insertShipmentHistory (slaAgrees_of_not_due rfl rfl)).bind fun _ =>
          hship order.status
  refine keeps_read_bind fun s hs => ?_
  split
  · split
    · exact keeps_raise _ s hs
    · exact keeps_pure _ s hs
  · rw [shipExistingOrder]
    split
    · exact keeps_raise _ s hs
    · split
      · exact keeps_raise _ s hs
      · exact hnew _ s hs

theorem applyDelivery_slaRecorded (event : BusinessEvent) (delivery : ShipmentDelivered) :
    (applyDelivery event delivery).Keeps (SlaRecorded db) := by
  refine keeps_read_bind fun s hs => ?_
  split
  · exact keeps_raise _ s hs
  · split
    · exact keeps_pure _ s hs
    · refine Keeps.bind keeps_of_histories (fun _ => ?_) s hs
      exact keeps_insertShipmentHistory (slaAgrees_of_dates rfl rfl rfl)

theorem applyInvoice_slaRecorded (event : BusinessEvent) (invoice : InvoiceCreated) :
    (applyInvoice event invoice).Keeps (SlaRecorded db) := by
  have horder : ∀ status, (invoiceOrder event invoice status).Keeps (SlaRecorded db) := by
    intro status
    refine keeps_ite ?_ (keeps_pure _)
    exact (keeps_insertOrderHistory (slaAgrees_of_dates rfl rfl rfl)).bind fun _ =>
      keeps_of_histories
  have hnew : ∀ order amount invoiceId,
      (insertNewInvoice event invoice order amount invoiceId).Keeps (SlaRecorded db) :=
    fun order _ _ =>
      (keeps_insertRow fun _ h => { h with }).bind fun _ =>
        (keeps_insertInvoiceHistory (slaAgrees_of_dates rfl rfl rfl)).bind fun _ =>
          horder order.status
  refine keeps_read_bind fun s hs => ?_
  split
  · exact keeps_pure _ s hs
  · rw [invoiceExistingOrder]
    split
    · exact keeps_raise _ s hs
    · split
      · exact keeps_raise _ s hs
      · split
        · exact keeps_raise _ s hs
        · exact hnew _ _ _ s hs

theorem applySupportCase_slaRecorded (event : BusinessEvent) (opening : SupportCaseOpened) :
    (applySupportCase event opening).Keeps (SlaRecorded db) := by
  refine keeps_read_bind fun s hs => ?_
  split
  · exact keeps_pure _ s hs
  · rw [openCase]
    split
    · exact keeps_raise _ s hs
    · refine Keeps.bind (keeps_insertRow fun _ h => { h with }) (fun _ => ?_) s hs
      refine keeps_insertCaseHistory (slaAgrees_of_onTime rfl ?_ rfl)
      exact Nat.add_le_add_right (midnight_le_midnight.mpr (Nat.le_add_right _ 3)) _

/-- A resolution is compared as an instant, whenever its case was opened. -/
theorem applySupportResolution_slaRecorded (event : BusinessEvent)
    (resolution : SupportCaseChanged) :
    (applySupportResolution event resolution).Keeps (SlaRecorded db) := by
  refine keeps_read_bind fun s hs => ?_
  split
  · exact keeps_raise _ s hs
  · split
    · exact keeps_pure _ s hs
    · refine Keeps.bind keeps_of_histories (fun _ => ?_) s hs
      refine keeps_insertCaseHistory ?_
      simp [StatusHistoryRow.SlaAgrees, slaStatus_eq_breached]

theorem applySupportClosure_slaRecorded (event : BusinessEvent) (closure : SupportCaseChanged) :
    (applySupportClosure event closure).Keeps (SlaRecorded db) := by
  refine keeps_read_bind fun s hs => ?_
  split
  · exact keeps_raise _ s hs
  · split
    · exact keeps_pure _ s hs
    · refine Keeps.bind keeps_of_histories (fun _ => ?_) s hs
      exact keeps_insertCaseHistory (slaAgrees_of_onTime rfl (le_refl _) rfl)

theorem applyEvent_slaRecorded (event : BusinessEvent) :
    (applyEvent event).Keeps (SlaRecorded db) := by
  rw [applyEvent]
  cases event.body with
  | orderCreated order => exact applyOrder_slaRecorded event order
  | shipmentCreated shipment => exact applyShipment_slaRecorded event shipment
  | shipmentDelivered delivery => exact applyDelivery_slaRecorded event delivery
  | invoiceCreated invoice => exact applyInvoice_slaRecorded event invoice
  | supportCaseOpened opening => exact applySupportCase_slaRecorded event opening
  | supportCaseResolved resolution => exact applySupportResolution_slaRecorded event resolution
  | supportCaseClosed closure => exact applySupportClosure_slaRecorded event closure
  | crmChange change => exact keeps_raise _
  | revenuePostingCreated posting => exact keeps_raise _

/-- Every history row that a transaction writes, whatever becomes of it, has an
SLA state that agrees with its instants. -/
theorem apply_slaRecorded (events : List BusinessEvent) :
    (apply events).Keeps (SlaRecorded db) := by
  refine keeps_sumEach (fun event => ?_) _
  refine keeps_ite (keeps_raise _) (keeps_read_bind fun s hs => ?_)
  split
  · exact keeps_pure _ s hs
  · refine (applyEvent_slaRecorded event).bind (fun _ => ?_) s hs
    exact (keeps_insertRow fun _ h => { h with }).bind fun _ => keeps_pure _

end OpsEventApplier

end Simulator
end Northwind
