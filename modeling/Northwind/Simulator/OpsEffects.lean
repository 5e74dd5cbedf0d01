import Northwind.Simulator.OpsApplied

/-!
# The rows an Ops event writes

An event that is applied leaves the database as it is, where what it brings is
there, or writes the rows listed here.  Every branch of the applier is one case
of `Effect`; the later modules read the cases and not the applier.
-/

namespace Northwind
namespace Simulator

open CrashPrograms CrashPrograms.Program OpsDatabase

namespace OpsEventApplier

/-! ## Rows -/

def orderRow (event : BusinessEvent) (order : OrderCreated) : OrderRow where
  orderId := order.orderId
  customerId := order.customerId
  opportunityRef := some order.opportunityRef
  orderDate := event.businessDate
  currencyCode := "USD"
  status := .pending

def pendingRow (event : BusinessEvent) (order : OrderCreated) : StatusHistoryRow OrderStatus where
  recordId := order.orderId
  previousStatus := none
  newStatus := .pending
  occurredAt := atHour event.businessDate 8
  sourceEventId := event.eventId
  slaDueAt := none
  slaStatus := .onTime

def lineRow (db : OpsDatabase) (order : OrderCreated) (product : ProductRow) : OrderLineRow where
  orderLineId := nextId (db.orderLines.map OrderLineRow.orderLineId)
  orderId := order.orderId
  productId := product.productId
  lineAmount := product.listPriceUsd

def shipmentRow (event : BusinessEvent) (shipment : ShipmentCreated) : ShipmentRow where
  shipmentId := shipment.shipmentId
  orderId := shipment.orderId
  shipDate := event.businessDate
  promisedDeliveryDate := event.businessDate + 5
  deliveredDate := none

def shipmentShippedRow (event : BusinessEvent) (shipment : ShipmentCreated) :
    StatusHistoryRow ShipmentStatus where
  recordId := shipment.shipmentId
  previousStatus := none
  newStatus := .shipped
  occurredAt := atHour event.businessDate 8
  sourceEventId := event.eventId
  slaDueAt := none
  slaStatus := .onTime

def orderShippedRow (event : BusinessEvent) (shipment : ShipmentCreated) :
    StatusHistoryRow OrderStatus where
  recordId := shipment.orderId
  previousStatus := some .pending
  newStatus := .shipped
  occurredAt := atHour event.businessDate 8
  sourceEventId := event.eventId
  slaDueAt := some (atHour (shipment.orderCreatedDate + 5) 8)
  slaStatus := slaStatus (shipment.orderCreatedDate + 5) event.businessDate

def deliveredRow (event : BusinessEvent) (delivery : ShipmentDelivered) (row : ShipmentRow) :
    StatusHistoryRow ShipmentStatus where
  recordId := delivery.shipmentId
  previousStatus := some .shipped
  newStatus := .delivered
  occurredAt := atHour event.businessDate 17
  sourceEventId := event.eventId
  slaDueAt := some (atHour row.promisedDeliveryDate 17)
  slaStatus := slaStatus row.promisedDeliveryDate event.businessDate

def invoiceRow (event : BusinessEvent) (invoice : InvoiceCreated) (order : OrderRow)
    (db : OpsDatabase) : InvoiceRow where
  invoiceId := nextId (db.invoices.map InvoiceRow.invoiceId)
  invoiceNumber := invoiceNumber invoice.orderId
  orderId := invoice.orderId
  invoiceDate := event.businessDate
  currencyCode := order.currencyCode
  amount := orderAmount db invoice.orderId
  status := .issued

def issuedRow (event : BusinessEvent) (invoice : InvoiceCreated) (db : OpsDatabase) :
    StatusHistoryRow InvoiceStatus where
  recordId := nextId (db.invoices.map InvoiceRow.invoiceId)
  previousStatus := none
  newStatus := .issued
  occurredAt := atHour event.businessDate 8
  sourceEventId := event.eventId
  slaDueAt := some (atHour (invoice.shipmentDate + 3) 8)
  slaStatus := slaStatus (invoice.shipmentDate + 3) event.businessDate

def orderInvoicedRow (event : BusinessEvent) (invoice : InvoiceCreated) :
    StatusHistoryRow OrderStatus where
  recordId := invoice.orderId
  previousStatus := some .shipped
  newStatus := .invoiced
  occurredAt := atHour event.businessDate 8
  sourceEventId := event.eventId
  slaDueAt := some (atHour (invoice.shipmentDate + 3) 8)
  slaStatus := slaStatus (invoice.shipmentDate + 3) event.businessDate

def caseRow (event : BusinessEvent) (opening : SupportCaseOpened) (customerId : Nat) :
    SupportCaseRow where
  caseId := opening.caseId
  customerId := customerId
  priority := opening.priority
  openedAt := atHour event.businessDate 9
  status := .opened

def openedRow (event : BusinessEvent) (opening : SupportCaseOpened) :
    StatusHistoryRow CaseStatus where
  recordId := opening.caseId
  previousStatus := none
  newStatus := .opened
  occurredAt := atHour event.businessDate 9
  sourceEventId := event.eventId
  slaDueAt := some (atHour (event.businessDate + 3) 9)
  slaStatus := .onTime

def resolvedRow (event : BusinessEvent) (resolution : SupportCaseChanged)
    (row : SupportCaseRow) : StatusHistoryRow CaseStatus where
  recordId := resolution.caseId
  previousStatus := some .opened
  newStatus := .resolved
  occurredAt := atHour event.businessDate 17
  sourceEventId := event.eventId
  slaDueAt := some (daysAfter 3 row.openedAt)
  slaStatus := slaStatus (daysAfter 3 row.openedAt) (atHour event.businessDate 17)

def closedRow (event : BusinessEvent) (closure : SupportCaseChanged) :
    StatusHistoryRow CaseStatus where
  recordId := closure.caseId
  previousStatus := some .resolved
  newStatus := .closed
  occurredAt := atHour event.businessDate 17
  sourceEventId := event.eventId
  slaDueAt := some (atHour event.businessDate 17)
  slaStatus := .onTime

/-! ## Tables -/

/-- The customers with the one of a new order. -/
def customersWith (customerId : Nat) (db : OpsDatabase) : List CustomerRow :=
  if db.customers.any (fun row => row.customerId = customerId) then db.customers
  else db.customers ++ [⟨customerId, accountNumber customerId, "US01"⟩]

def setOrderStatus (orderId : Nat) (status : OrderStatus) (orders : List OrderRow) :
    List OrderRow :=
  orders.map (fun row => if row.orderId = orderId then { row with status := status } else row)

def setDeliveredDate (shipmentId deliveredDate : Nat) (shipments : List ShipmentRow) :
    List ShipmentRow :=
  shipments.map
    (fun row =>
      if row.shipmentId = shipmentId then { row with deliveredDate := some deliveredDate }
      else row)

def setCaseStatus (caseId : Nat) (status : CaseStatus) (cases : List SupportCaseRow) :
    List SupportCaseRow :=
  cases.map (fun row => if row.caseId = caseId then { row with status := status } else row)

/-- An order on to its next status, with the row of the change. -/
def advanceOrder (row : StatusHistoryRow OrderStatus) (db : OpsDatabase) : OpsDatabase :=
  { db with
    orders := setOrderStatus row.recordId row.newStatus db.orders
    orderHistory := db.orderHistory ++ [row] }

def withOrder (event : BusinessEvent) (order : OrderCreated) (product : ProductRow)
    (db : OpsDatabase) : OpsDatabase :=
  { db with
    customers := customersWith order.customerId db
    orders := db.orders ++ [orderRow event order]
    orderHistory := db.orderHistory ++ [pendingRow event order]
    orderLines := db.orderLines ++ [lineRow db order product] }

def withShipment (event : BusinessEvent) (shipment : ShipmentCreated) (db : OpsDatabase) :
    OpsDatabase :=
  { db with
    shipments := db.shipments ++ [shipmentRow event shipment]
    shipmentHistory := db.shipmentHistory ++ [shipmentShippedRow event shipment] }

def withDelivery (event : BusinessEvent) (delivery : ShipmentDelivered) (row : ShipmentRow)
    (db : OpsDatabase) : OpsDatabase :=
  { db with
    shipments := setDeliveredDate delivery.shipmentId event.businessDate db.shipments
    shipmentHistory := db.shipmentHistory ++ [deliveredRow event delivery row] }

def withInvoice (event : BusinessEvent) (invoice : InvoiceCreated) (order : OrderRow)
    (db : OpsDatabase) : OpsDatabase :=
  { db with
    invoices := db.invoices ++ [invoiceRow event invoice order db]
    invoiceHistory := db.invoiceHistory ++ [issuedRow event invoice db] }

def withCase (event : BusinessEvent) (opening : SupportCaseOpened) (customerId : Nat)
    (db : OpsDatabase) : OpsDatabase :=
  { db with
    supportCases := db.supportCases ++ [caseRow event opening customerId]
    caseHistory := db.caseHistory ++ [openedRow event opening] }

/-- A case on to its next status, with the row of the change. -/
def advanceCase (row : StatusHistoryRow CaseStatus) (db : OpsDatabase) : OpsDatabase :=
  { db with
    supportCases := setCaseStatus row.recordId row.newStatus db.supportCases
    caseHistory := db.caseHistory ++ [row] }

/-! ## Effects -/

/-- What applying an event has done, its marker apart. -/
inductive Effect (event : BusinessEvent) (db : OpsDatabase) : OpsDatabase → Prop
  | orderKnown {order : OrderCreated} {row : OrderRow}
      (body : event.body = .orderCreated order) (known : row ∈ db.orders)
      (id : row.orderId = order.orderId) (ref : row.opportunityRef = some order.opportunityRef) :
      Effect event db { db with customers := customersWith order.customerId db }
  | orderCreated {order : OrderCreated} {product : ProductRow}
      (body : event.body = .orderCreated order)
      (new : order.orderId ∉ db.orders.map OrderRow.orderId)
      (first : firstProduct db = some product) :
      Effect event db (withOrder event order product db)
  | shipmentKnown {shipment : ShipmentCreated} {row : ShipmentRow}
      (body : event.body = .shipmentCreated shipment) (known : row ∈ db.shipments)
      (id : row.shipmentId = shipment.shipmentId) (order : row.orderId = shipment.orderId) :
      Effect event db db
  | shipmentCreated {shipment : ShipmentCreated} {order : OrderRow}
      (body : event.body = .shipmentCreated shipment)
      (newId : shipment.shipmentId ∉ db.shipments.map ShipmentRow.shipmentId)
      (newOrder : shipment.orderId ∉ db.shipments.map ShipmentRow.orderId)
      (known : order ∈ db.orders) (id : order.orderId = shipment.orderId)
      (status : order.status ≠ .pending) :
      Effect event db (withShipment event shipment db)
  | orderShipped {shipment : ShipmentCreated} {order : OrderRow}
      (body : event.body = .shipmentCreated shipment)
      (newId : shipment.shipmentId ∉ db.shipments.map ShipmentRow.shipmentId)
      (newOrder : shipment.orderId ∉ db.shipments.map ShipmentRow.orderId)
      (known : order ∈ db.orders) (id : order.orderId = shipment.orderId)
      (status : order.status = .pending) :
      Effect event db
        (advanceOrder (orderShippedRow event shipment) (withShipment event shipment db))
  | deliveryKnown {delivery : ShipmentDelivered} {row : ShipmentRow}
      (body : event.body = .shipmentDelivered delivery) (known : row ∈ db.shipments)
      (id : row.shipmentId = delivery.shipmentId) (delivered : row.deliveredDate.isSome) :
      Effect event db db
  | shipmentDelivered {delivery : ShipmentDelivered} {row : ShipmentRow}
      (body : event.body = .shipmentDelivered delivery) (known : row ∈ db.shipments)
      (id : row.shipmentId = delivery.shipmentId) (undelivered : row.deliveredDate = none) :
      Effect event db (withDelivery event delivery row db)
  | invoiceKnown {invoice : InvoiceCreated}
      (body : event.body = .invoiceCreated invoice)
      (known : invoice.orderId ∈ db.invoices.map InvoiceRow.orderId) :
      Effect event db db
  | invoiceCreated {invoice : InvoiceCreated} {order : OrderRow}
      (body : event.body = .invoiceCreated invoice)
      (new : invoice.orderId ∉ db.invoices.map InvoiceRow.orderId)
      (known : order ∈ db.orders) (id : order.orderId = invoice.orderId)
      (status : order.status ≠ .shipped) :
      Effect event db (withInvoice event invoice order db)
  | orderInvoiced {invoice : InvoiceCreated} {order : OrderRow}
      (body : event.body = .invoiceCreated invoice)
      (new : invoice.orderId ∉ db.invoices.map InvoiceRow.orderId)
      (known : order ∈ db.orders) (id : order.orderId = invoice.orderId)
      (status : order.status = .shipped) :
      Effect event db
        (advanceOrder (orderInvoicedRow event invoice) (withInvoice event invoice order db))
  | caseKnown {opening : SupportCaseOpened}
      (body : event.body = .supportCaseOpened opening)
      (known : opening.caseId ∈ db.supportCases.map SupportCaseRow.caseId) :
      Effect event db db
  | caseOpened {opening : SupportCaseOpened} {order : OrderRow}
      (body : event.body = .supportCaseOpened opening)
      (new : opening.caseId ∉ db.supportCases.map SupportCaseRow.caseId)
      (known : order ∈ db.orders) (id : order.orderId = opening.orderId) :
      Effect event db (withCase event opening order.customerId db)
  | resolutionKnown {resolution : SupportCaseChanged} {row : SupportCaseRow}
      (body : event.body = .supportCaseResolved resolution) (known : row ∈ db.supportCases)
      (id : row.caseId = resolution.caseId) (status : row.status ≠ .opened) :
      Effect event db db
  | caseResolved {resolution : SupportCaseChanged} {row : SupportCaseRow}
      (body : event.body = .supportCaseResolved resolution) (known : row ∈ db.supportCases)
      (id : row.caseId = resolution.caseId) (status : row.status = .opened) :
      Effect event db (advanceCase (resolvedRow event resolution row) db)
  | closureKnown {closure : SupportCaseChanged} {row : SupportCaseRow}
      (body : event.body = .supportCaseClosed closure) (known : row ∈ db.supportCases)
      (id : row.caseId = closure.caseId) (status : row.status ≠ .resolved) :
      Effect event db db
  | caseClosed {closure : SupportCaseChanged} {row : SupportCaseRow}
      (body : event.body = .supportCaseClosed closure) (known : row ∈ db.supportCases)
      (id : row.caseId = closure.caseId) (status : row.status = .resolved) :
      Effect event db (advanceCase (closedRow event closure) db)

section Handlers

variable {event : BusinessEvent} {E : OpsError → OpsDatabase → Prop}

/-- A query for the row of an id finds a row of the table, or the id is free. -/
theorem find_key_cases {ρ : Type} (rows : List ρ) (key : ρ → Nat) (n : Nat) :
    (∃ row, rows.find? (fun row => key row = n) = some row ∧ row ∈ rows ∧ key row = n) ∨
      (rows.find? (fun row => key row = n) = none ∧ n ∉ rows.map key) := by
  cases hfind : rows.find? (fun row => key row = n) with
  | some row =>
      exact .inl ⟨row, rfl, List.mem_of_find?_eq_some hfind, by simpa using List.find?_some hfind⟩
  | none =>
      refine .inr ⟨rfl, fun hmem => ?_⟩
      obtain ⟨row, hrow, hkey⟩ := List.mem_map.mp hmem
      simpa [hkey] using List.find?_eq_none.mp hfind row hrow

theorem any_key_iff {ρ : Type} {rows : List ρ} {key : ρ → Nat} {n : Nat} :
    rows.any (fun row => key row = n) = true ↔ n ∈ rows.map key := by
  simp

theorem applyOrder_effect
    {order : OrderCreated} (hbody : event.body = .orderCreated order) (db : OpsDatabase) :
    (applyOrder event order).Meets (fun _ => True) (fun _ => Effect event db)
      (fun _ _ => True) db := by
  have hcustomer : (ensureCustomer order.customerId).Meets (fun _ => True)
      (fun _ db' => db' = { db with customers := customersWith order.customerId db })
      (fun _ _ => True) db := by
    simp only [ensureCustomer, insertCustomer, customersWith, meets_bind, meets_read, meets_ite,
      meets_pure, meets_insertRow]
    exact ⟨fun h => by rw [if_pos h], fun h => ⟨fun _ => trivial, fun _ => ⟨trivial, by
      rw [if_neg h]⟩⟩⟩
  rw [applyOrder]
  refine hcustomer.bind ?_
  rintro _ _ rfl
  rw [meets_bind, meets_read]
  obtain ⟨row, hfind, hmem, hid⟩ | ⟨hfind, hnew⟩ :=
    find_key_cases db.orders OrderRow.orderId order.orderId
  · rw [hfind]
    simp only [meets_ite, meets_raise, meets_pure]
    exact ⟨fun _ => trivial, fun href => .orderKnown hbody hmem hid (not_not.mp href)⟩
  · rw [hfind]
    simp only [insertNewOrder, insertOrder, insertOrderHistory, insertFirstLine, insertOrderLine,
      meets_bind, meets_read, meets_insertRow, true_and]
    refine ⟨fun _ => trivial, fun _ => ⟨fun _ => trivial, fun _ => ?_⟩⟩
    cases hfirst : firstProduct db with
    | none =>
        have hfirst' : ∀ customers orders orderHistory, firstProduct { db with
            customers := customers, orders := orders, orderHistory := orderHistory } = none :=
          fun _ _ _ => hfirst
        rw [hfirst']
        exact (meets_raise _).mpr trivial
    | some product =>
        have hfirst' : ∀ customers orders orderHistory, firstProduct { db with
            customers := customers, orders := orders, orderHistory := orderHistory } =
              some product :=
          fun _ _ _ => hfirst
        rw [hfirst']
        simp only [meets_insertRow]
        exact ⟨fun _ => trivial, fun _ => ⟨trivial, .orderCreated hbody hnew hfirst⟩⟩

theorem applyShipment_effect
    {shipment : ShipmentCreated} (hbody : event.body = .shipmentCreated shipment)
    (db : OpsDatabase) :
    (applyShipment event shipment).Meets (fun _ => True) (fun _ => Effect event db)
      (fun _ _ => True) db := by
  rw [applyShipment, meets_bind, meets_read]
  obtain ⟨row, hfind, hmem, hid⟩ | ⟨hfind, hnewId⟩ :=
    find_key_cases db.shipments ShipmentRow.shipmentId shipment.shipmentId
  · rw [hfind]
    simp only [meets_ite, meets_raise, meets_pure]
    exact ⟨fun _ => trivial, fun horder => .shipmentKnown hbody hmem hid (not_not.mp horder)⟩
  rw [hfind, shipExistingOrder]
  obtain ⟨order, hfind, hmem, hid⟩ | ⟨hfind, _⟩ :=
    find_key_cases db.orders OrderRow.orderId shipment.orderId
  · rw [hfind]
    simp only [insertNewShipment, insertShipment, insertShipmentHistory, shipOrder,
      insertOrderHistory, updateOrderStatus, meets_ite, meets_raise, meets_bind, meets_insertRow,
      meets_write, meets_pure, true_and]
    refine ⟨fun _ => trivial, fun _ => ⟨fun _ => trivial, fun hfree => ⟨fun _ => trivial,
      fun _ => ⟨fun hpending => ⟨fun _ => trivial, fun _ => ?_⟩, fun hpending => ?_⟩⟩⟩⟩
    all_goals
      have hnewOrder : shipment.orderId ∉ db.shipments.map ShipmentRow.orderId := by
        intro hmem
        obtain ⟨row, hrow, horder⟩ := List.mem_map.mp hmem
        have hrow' := hfree row hrow
        simp [horder] at hrow'
    · exact .orderShipped hbody hnewId hnewOrder hmem hid hpending
    · exact .shipmentCreated hbody hnewId hnewOrder hmem hid hpending
  · rw [hfind]
    exact (meets_raise _).mpr trivial

theorem applyDelivery_effect
    {delivery : ShipmentDelivered} (hbody : event.body = .shipmentDelivered delivery)
    (db : OpsDatabase) :
    (applyDelivery event delivery).Meets (fun _ => True) (fun _ => Effect event db)
      (fun _ _ => True) db := by
  rw [applyDelivery, meets_bind, meets_read]
  obtain ⟨row, hfind, hmem, hid⟩ | ⟨hfind, _⟩ :=
    find_key_cases db.shipments ShipmentRow.shipmentId delivery.shipmentId
  · rw [hfind]
    simp only [updateDeliveredDate, insertShipmentHistory, meets_ite, meets_pure, meets_bind,
      meets_write, meets_insertRow, true_and]
    refine ⟨fun hsome => .deliveryKnown hbody hmem hid hsome, fun hnone => ⟨fun _ => trivial,
      fun _ => ?_⟩⟩
    exact .shipmentDelivered hbody hmem hid (Option.not_isSome_iff_eq_none.mp hnone)
  · rw [hfind]
    exact (meets_raise _).mpr trivial

theorem applyInvoice_effect
    {invoice : InvoiceCreated} (hbody : event.body = .invoiceCreated invoice)
    (db : OpsDatabase) :
    (applyInvoice event invoice).Meets (fun _ => True) (fun _ => Effect event db)
      (fun _ _ => True) db := by
  simp only [applyInvoice, meets_bind, meets_read, meets_ite, meets_pure]
  refine ⟨fun hknown => .invoiceKnown hbody (any_key_iff.mp hknown), fun hnone => ?_⟩
  have hnew := mt any_key_iff.mpr hnone
  rw [invoiceExistingOrder]
  obtain ⟨order, hfind, hmem, hid⟩ | ⟨hfind, _⟩ :=
    find_key_cases db.orders OrderRow.orderId invoice.orderId
  · rw [hfind]
    simp only [insertNewInvoice, insertInvoice, insertInvoiceHistory, invoiceOrder,
      insertOrderHistory, updateOrderStatus, meets_ite, meets_raise, meets_bind, meets_insertRow,
      meets_write, meets_pure, true_and]
    refine ⟨fun _ => trivial, fun _ => ⟨fun _ => trivial, fun _ => ⟨fun _ => trivial, fun _ =>
      ⟨fun _ => trivial, fun _ => ⟨fun hshipped => ⟨fun _ => trivial, fun _ => ?_⟩,
        fun hshipped => ?_⟩⟩⟩⟩⟩
    · exact .orderInvoiced hbody hnew hmem hid hshipped
    · exact .invoiceCreated hbody hnew hmem hid hshipped
  · rw [hfind]
    exact (meets_raise _).mpr trivial

theorem applySupportCase_effect
    {opening : SupportCaseOpened} (hbody : event.body = .supportCaseOpened opening)
    (db : OpsDatabase) :
    (applySupportCase event opening).Meets (fun _ => True) (fun _ => Effect event db)
      (fun _ _ => True) db := by
  simp only [applySupportCase, meets_bind, meets_read, meets_ite, meets_pure]
  refine ⟨fun hknown => .caseKnown hbody (any_key_iff.mp hknown), fun hnone => ?_⟩
  have hnew := mt any_key_iff.mpr hnone
  rw [openCase]
  obtain ⟨order, hfind, hmem, hid⟩ | ⟨hfind, _⟩ :=
    find_key_cases db.orders OrderRow.orderId opening.orderId
  · rw [hfind]
    simp only [insertSupportCase, insertCaseHistory, meets_bind, meets_insertRow, true_and]
    exact ⟨fun _ => trivial, fun _ => ⟨fun _ => trivial, fun _ =>
      .caseOpened hbody hnew hmem hid⟩⟩
  · rw [hfind]
    exact (meets_raise _).mpr trivial

theorem applySupportResolution_effect
    {resolution : SupportCaseChanged} (hbody : event.body = .supportCaseResolved resolution)
    (db : OpsDatabase) :
    (applySupportResolution event resolution).Meets (fun _ => True) (fun _ => Effect event db)
      (fun _ _ => True) db := by
  rw [applySupportResolution, meets_bind, meets_read]
  obtain ⟨row, hfind, hmem, hid⟩ | ⟨hfind, _⟩ :=
    find_key_cases db.supportCases SupportCaseRow.caseId resolution.caseId
  · rw [hfind]
    simp only [updateCaseStatus, insertCaseHistory, meets_ite, meets_pure, meets_bind,
      meets_write, meets_insertRow, true_and]
    exact ⟨fun hstatus => .resolutionKnown hbody hmem hid hstatus, fun hstatus =>
      ⟨fun _ => trivial, fun _ => .caseResolved hbody hmem hid (not_not.mp hstatus)⟩⟩
  · rw [hfind]
    exact (meets_raise _).mpr trivial

theorem applySupportClosure_effect
    {closure : SupportCaseChanged} (hbody : event.body = .supportCaseClosed closure)
    (db : OpsDatabase) :
    (applySupportClosure event closure).Meets (fun _ => True) (fun _ => Effect event db)
      (fun _ _ => True) db := by
  rw [applySupportClosure, meets_bind, meets_read]
  obtain ⟨row, hfind, hmem, hid⟩ | ⟨hfind, _⟩ :=
    find_key_cases db.supportCases SupportCaseRow.caseId closure.caseId
  · rw [hfind]
    simp only [updateCaseStatus, insertCaseHistory, meets_ite, meets_pure, meets_bind,
      meets_write, meets_insertRow, true_and]
    exact ⟨fun hstatus => .closureKnown hbody hmem hid hstatus, fun hstatus =>
      ⟨fun _ => trivial, fun _ => .caseClosed hbody hmem hid (not_not.mp hstatus)⟩⟩
  · rw [hfind]
    exact (meets_raise _).mpr trivial

/-- Every way through the applier is a case of `Effect`. -/
theorem applyEvent_effect (event : BusinessEvent) (db : OpsDatabase) :
    (applyEvent event).Meets (fun _ => True) (fun _ => Effect event db)
      (fun _ _ => True) db := by
  rw [applyEvent]
  cases hbody : event.body with
  | orderCreated order => exact applyOrder_effect hbody db
  | shipmentCreated shipment => exact applyShipment_effect hbody db
  | shipmentDelivered delivery => exact applyDelivery_effect hbody db
  | invoiceCreated invoice => exact applyInvoice_effect hbody db
  | supportCaseOpened opening => exact applySupportCase_effect hbody db
  | supportCaseResolved resolution => exact applySupportResolution_effect hbody db
  | supportCaseClosed closure => exact applySupportClosure_effect hbody db
  | crmChange change => exact (meets_raise _).mpr trivial
  | revenuePostingCreated posting => exact (meets_raise _).mpr trivial

end Handlers

end OpsEventApplier

/-! ## Transactions -/

section Transactions

open OpsEventApplier

variable {db db' : OpsDatabase} {event : BusinessEvent} {events : List BusinessEvent}

/-- One event applied and marked, with the rows it wrote. -/
def EffectStep (event : BusinessEvent) (db db' : OpsDatabase) : Prop :=
  event.eventId ∉ db.appliedEvents ∧
    ∃ applied, Effect event db applied ∧ Applied event db applied ∧ Done applied event.body ∧
      db' = { applied with appliedEvents := db.appliedEvents ++ [event.eventId] }

theorem EffectStep.markStep (h : EffectStep event db db') : MarkStep event db db' := by
  obtain ⟨hunmarked, applied, _, happlied, hdone, rfl⟩ := h
  exact ⟨hunmarked, applied, happlied, hdone, rfl⟩

/-- Events of a list, applied and marked one after another. -/
def EffectsBy (events : List BusinessEvent) : OpsDatabase → OpsDatabase → Prop :=
  Relation.ReflTransGen (fun db db' => ∃ event, event ∈ events ∧ EffectStep event db db')

theorem EffectsBy.appliedBy (h : EffectsBy events db db') : AppliedBy events db db' := by
  refine h.lift id ?_
  rintro t t' ⟨event, hevent, hstep⟩
  exact ⟨event, hevent, hstep.markStep⟩

/-- What the steps of a transaction keep, the transaction keeps. -/
theorem EffectsBy.keeps
    {P : OpsDatabase → Prop} (h : EffectsBy events db db') (hdb : P db)
    (hstep : ∀ event, event ∈ events → ∀ t t', P t → EffectStep event t t' → P t') :
    P db' := by
  induction h with
  | refl => exact hdb
  | tail _ hlast ih =>
      obtain ⟨event, hevent, hlast⟩ := hlast
      exact hstep event hevent _ _ ih hlast

theorem applyOnce_effect (event : BusinessEvent) (db : OpsDatabase) :
    (applyOnce event).Meets (fun _ => True)
      (fun _ db' => (event.eventId ∈ db.appliedEvents ∧ db' = db) ∨ EffectStep event db db')
      (fun _ _ => True) db := by
  simp only [applyOnce, applyUnmarked, meets_ite, meets_raise, meets_bind, meets_read,
    meets_pure]
  refine ⟨fun _ => trivial, fun _ => ⟨fun hmem => .inl ⟨hmem, trivial⟩, fun hunmarked => ?_⟩⟩
  have hboth := (applyEvent_effect event db).and
    (applyEvent_spec (fun _ => True) event db)
  refine hboth.mono (fun _ _ => trivial) ?_ (fun _ _ _ => trivial)
  rintro _ applied ⟨heffect, happlied, hdone⟩
  simp only [insertAppliedEvent, meets_bind, meets_pure, meets_insertRow, true_and]
  refine ⟨fun _ => trivial, fun _ => .inr ⟨hunmarked, applied, heffect, happlied, hdone, ?_⟩⟩
  rw [← happlied.appliedEvents]

theorem apply_effects (events : List BusinessEvent) (db : OpsDatabase) :
    (apply events).Meets (fun _ => True)
      (fun _ db' => EffectsBy events db db' ∧
        ∀ event, event ∈ events → event.eventId ∈ db'.appliedEvents)
      (fun _ _ => True) db := by
  have hmem : ∀ event, event ∈ inOrder events ↔ event ∈ events := fun event =>
    List.mem_insertionSort _
  have hloop : (sumEach applyOnce (inOrder events)).Meets (fun _ => True)
      (fun _ db' =>
        Relation.ReflTransGen
            (fun t t' => ∃ event, event ∈ inOrder events ∧ EffectStep event t t') db db' ∧
          ∀ event, event ∈ inOrder events → event.eventId ∈ db'.appliedEvents)
      (fun _ _ => True → True) db := by
    refine meets_sumEach_once (R := fun _ => True) (F := fun _ : OpsError => True) ?_ ?_ ?_ ?_ db
    · exact fun event t => (applyOnce_effect event t).mono (fun _ h => h) (fun _ _ h => h)
        (fun _ _ _ _ _ => trivial)
    · intro event t t' hstep
      rw [hstep.markStep.appliedEvents]
      exact List.mem_append_right _ (List.mem_singleton_self _)
    · intro event other t t' hstep hmarked
      rw [hstep.markStep.appliedEvents]
      exact List.mem_append_left _ hmarked
    · exact fun _ _ _ _ _ _ => trivial
  refine hloop.mono (fun _ h => h) ?_ (fun _ _ _ => trivial)
  rintro _ db' ⟨hsteps, hmarked⟩
  refine ⟨hsteps.lift id ?_, fun event hevent => hmarked event ((hmem event).mpr hevent)⟩
  rintro t t' ⟨event, hevent, hstep⟩
  exact ⟨event, (hmem event).mp hevent, hstep⟩

end Transactions

end Simulator
end Northwind
