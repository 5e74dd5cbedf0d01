import Northwind.Simulator.BusinessEvents
import Northwind.Sources.Instants

/-!
# Applying Ops events to the Ops database

`OpsEventApplier` applies the events of a list in the order of their dates and
types, inside the transaction of its caller.  An event whose id has a marker is
passed over; every other one is applied and marked.

The tables keep the columns that a planner, an applier or a constraint reads.
A statement that breaks a primary key or a UNIQUE constraint raises.
-/

namespace Northwind
namespace Simulator

open CrashPrograms

/-! ## Tables -/

inductive OrderStatus where
  | pending
  | shipped
  | invoiced
  | cancelled
deriving DecidableEq

inductive ShipmentStatus where
  | shipped
  | delivered
deriving DecidableEq

inductive InvoiceStatus where
  | issued
  | void
deriving DecidableEq

inductive CaseStatus where
  | opened
  | resolved
  | closed
deriving DecidableEq

inductive SlaStatus where
  | onTime
  | breached
deriving DecidableEq

structure CustomerRow where
  customerId : Nat
  accountNumber : String
  companyCode : String
deriving DecidableEq

structure ProductRow where
  productId : Nat
  listPriceUsd : Int
deriving DecidableEq

structure OrderRow where
  orderId : Nat
  customerId : Nat
  opportunityRef : Option String
  orderDate : Nat
  currencyCode : String
  status : OrderStatus
deriving DecidableEq

structure OrderLineRow where
  orderLineId : Nat
  orderId : Nat
  productId : Nat
  lineAmount : Int
deriving DecidableEq

structure ShipmentRow where
  shipmentId : Nat
  orderId : Nat
  shipDate : Nat
  promisedDeliveryDate : Nat
  deliveredDate : Option Nat
deriving DecidableEq

structure InvoiceRow where
  invoiceId : Nat
  invoiceNumber : String
  orderId : Nat
  invoiceDate : Nat
  currencyCode : String
  amount : Int
  status : InvoiceStatus
deriving DecidableEq

structure SupportCaseRow where
  caseId : Nat
  customerId : Nat
  priority : String
  openedAt : Nat
  status : CaseStatus
deriving DecidableEq

/-- A row of one of the four status histories. -/
structure StatusHistoryRow (status : Type) where
  recordId : Nat
  previousStatus : Option status
  newStatus : status
  occurredAt : Nat
  sourceEventId : String
  slaDueAt : Option Nat
  slaStatus : SlaStatus

structure OpsDatabase where
  customers : List CustomerRow
  products : List ProductRow
  warehouses : List String
  carriers : List String
  orders : List OrderRow
  orderLines : List OrderLineRow
  shipments : List ShipmentRow
  invoices : List InvoiceRow
  supportCases : List SupportCaseRow
  orderHistory : List (StatusHistoryRow OrderStatus)
  shipmentHistory : List (StatusHistoryRow ShipmentStatus)
  invoiceHistory : List (StatusHistoryRow InvoiceStatus)
  caseHistory : List (StatusHistoryRow CaseStatus)
  appliedEvents : List String

/-- The tables with a key that an INSERT may find in use. -/
inductive OpsTable where
  | customers
  | orders
  | orderLines
  | shipments
  | invoices
  | supportCases
  | orderHistory
  | shipmentHistory
  | invoiceHistory
  | caseHistory
  | appliedEvents
deriving DecidableEq

inductive OpsError where
  | notOps
  | unsupportedEventType (eventType : String)
  | orderIdCollision (orderId : Nat)
  | noProductCatalog
  | shipmentIdCollision (shipmentId : Nat)
  | shipmentWithoutOrder (orderId : Nat)
  | noWarehouseOrCarrier
  | deliveryWithoutShipment (shipmentId : Nat)
  | invoiceWithoutOrder (orderId : Nat)
  | invoiceWithoutShipment (shipmentId orderId : Nat)
  | amountNotPositive (orderId : Nat)
  | caseWithoutOrder (orderId : Nat)
  | resolutionWithoutCase (caseId : Nat)
  | closureWithoutCase (caseId : Nat)
  | uniqueViolation (table : OpsTable)
deriving DecidableEq

def OpsError.message : OpsError → String
  | .notOps => "Ops applier supports only Ops events"
  | .unsupportedEventType eventType => "unsupported Ops event type: " ++ eventType
  | .orderIdCollision orderId => "order ID collision for " ++ toString orderId
  | .noProductCatalog => "Ops order cannot be created without a product catalog"
  | .shipmentIdCollision shipmentId => "shipment ID collision for " ++ toString shipmentId
  | .shipmentWithoutOrder orderId => "shipment requires existing order " ++ toString orderId
  | .noWarehouseOrCarrier => "shipment requires a warehouse and carrier master record"
  | .deliveryWithoutShipment shipmentId =>
      "delivery requires shipment " ++ toString shipmentId
  | .invoiceWithoutOrder orderId => "invoice requires existing order " ++ toString orderId
  | .invoiceWithoutShipment shipmentId orderId =>
      "invoice requires shipment " ++ toString shipmentId ++ " for order " ++
        toString orderId
  | .amountNotPositive orderId =>
      "invoice requires positive order amount for " ++ toString orderId
  | .caseWithoutOrder orderId => "support case requires order " ++ toString orderId
  | .resolutionWithoutCase caseId => "support resolution requires case " ++ toString caseId
  | .closureWithoutCase caseId => "support closure requires case " ++ toString caseId
  | .uniqueViolation _ => "duplicate key value violates unique constraint"

abbrev OpsProgram : Type → Type :=
  Program OpsDatabase OpsError

/-! ## Statements -/

namespace OpsEventApplier

open Program

/-- An INSERT where no row of the table may clash with the new one. -/
def insertRow {ρ : Type} (table : OpsTable) (rows : OpsDatabase → List ρ)
    (store : List ρ → OpsDatabase → OpsDatabase) (clashes : ρ → Bool) (row : ρ) :
    OpsProgram PUnit := do
  let db ← read
  if (rows db).any clashes then raise (.uniqueViolation table)
  else write (fun db => store (rows db ++ [row]) db)

def insertCustomer (row : CustomerRow) : OpsProgram PUnit :=
  insertRow .customers OpsDatabase.customers (fun rows db => { db with customers := rows })
    (fun known =>
      known.customerId = row.customerId || known.accountNumber = row.accountNumber) row

def insertOrder (row : OrderRow) : OpsProgram PUnit :=
  insertRow .orders OpsDatabase.orders (fun rows db => { db with orders := rows })
    (fun known => known.orderId = row.orderId) row

def insertOrderLine (row : OrderLineRow) : OpsProgram PUnit :=
  insertRow .orderLines OpsDatabase.orderLines (fun rows db => { db with orderLines := rows })
    (fun known =>
      known.orderLineId = row.orderLineId ||
        (known.orderId = row.orderId && known.productId = row.productId)) row

def insertShipment (row : ShipmentRow) : OpsProgram PUnit :=
  insertRow .shipments OpsDatabase.shipments (fun rows db => { db with shipments := rows })
    (fun known => known.shipmentId = row.shipmentId || known.orderId = row.orderId) row

def insertInvoice (row : InvoiceRow) : OpsProgram PUnit :=
  insertRow .invoices OpsDatabase.invoices (fun rows db => { db with invoices := rows })
    (fun known =>
      known.invoiceId = row.invoiceId || known.invoiceNumber = row.invoiceNumber ||
        known.orderId = row.orderId) row

def insertSupportCase (row : SupportCaseRow) : OpsProgram PUnit :=
  insertRow .supportCases OpsDatabase.supportCases
    (fun rows db => { db with supportCases := rows })
    (fun known => known.caseId = row.caseId) row

def insertOrderHistory (row : StatusHistoryRow OrderStatus) : OpsProgram PUnit :=
  insertRow .orderHistory OpsDatabase.orderHistory
    (fun rows db => { db with orderHistory := rows })
    (fun known => known.sourceEventId = row.sourceEventId) row

def insertShipmentHistory (row : StatusHistoryRow ShipmentStatus) : OpsProgram PUnit :=
  insertRow .shipmentHistory OpsDatabase.shipmentHistory
    (fun rows db => { db with shipmentHistory := rows })
    (fun known => known.sourceEventId = row.sourceEventId) row

def insertInvoiceHistory (row : StatusHistoryRow InvoiceStatus) : OpsProgram PUnit :=
  insertRow .invoiceHistory OpsDatabase.invoiceHistory
    (fun rows db => { db with invoiceHistory := rows })
    (fun known => known.sourceEventId = row.sourceEventId) row

def insertCaseHistory (row : StatusHistoryRow CaseStatus) : OpsProgram PUnit :=
  insertRow .caseHistory OpsDatabase.caseHistory
    (fun rows db => { db with caseHistory := rows })
    (fun known => known.sourceEventId = row.sourceEventId) row

def insertAppliedEvent (eventId : String) : OpsProgram PUnit :=
  insertRow .appliedEvents OpsDatabase.appliedEvents
    (fun rows db => { db with appliedEvents := rows })
    (fun known => known = eventId) eventId

/-- `UPDATE ops.orders SET status = …` -/
def updateOrderStatus (orderId : Nat) (status : OrderStatus) : OpsProgram PUnit :=
  write
    (fun db =>
      { db with
        orders :=
          db.orders.map
            (fun row => if row.orderId = orderId then { row with status := status } else row) })

def updateDeliveredDate (shipmentId deliveredDate : Nat) : OpsProgram PUnit :=
  write
    (fun db =>
      { db with
        shipments :=
          db.shipments.map
            (fun row =>
              if row.shipmentId = shipmentId then
                { row with deliveredDate := some deliveredDate }
              else row) })

def updateCaseStatus (caseId : Nat) (status : CaseStatus) : OpsProgram PUnit :=
  write
    (fun db =>
      { db with
        supportCases :=
          db.supportCases.map
            (fun row => if row.caseId = caseId then { row with status := status } else row) })

/-! ## Events -/

/-- `f"ACC-{customer_id:06d}"` -/
def accountNumber (customerId : Nat) : String :=
  "ACC-" ++ zeroPadded 6 customerId

/-- `f"OPS-{order_id:012d}"` -/
def invoiceNumber (orderId : Nat) : String :=
  "OPS-" ++ zeroPadded 12 orderId

/-- Of two dates, or of two instants. -/
def slaStatus (due occurred : Nat) : SlaStatus :=
  if due < occurred then .breached else .onTime

/-- The customer of a new order, where the account is not one yet. -/
def ensureCustomer (customerId : Nat) : OpsProgram PUnit := do
  let db ← read
  if db.customers.any (fun row => row.customerId = customerId) then pure ⟨⟩
  else insertCustomer ⟨customerId, accountNumber customerId, "US01"⟩

/-- `SELECT … FROM ops.products ORDER BY product_id LIMIT 1` -/
def firstProduct (db : OpsDatabase) : Option ProductRow :=
  (db.products.insertionSort (fun row row' => row.productId ≤ row'.productId)).head?

def insertFirstLine (orderId : Nat) : OpsProgram PUnit := do
  let db ← read
  match firstProduct db with
  | none => raise .noProductCatalog
  | some product =>
      insertOrderLine
        ⟨nextId (db.orderLines.map OrderLineRow.orderLineId), orderId, product.productId,
          product.listPriceUsd⟩

def insertNewOrder (event : BusinessEvent) (order : OrderCreated) : OpsProgram PUnit := do
  insertOrder
    { orderId := order.orderId
      customerId := order.customerId
      opportunityRef := some order.opportunityRef
      orderDate := event.businessDate
      currencyCode := "USD"
      status := .pending }
  insertOrderHistory
    { recordId := order.orderId
      previousStatus := none
      newStatus := .pending
      occurredAt := atHour event.businessDate 8
      sourceEventId := event.eventId
      slaDueAt := none
      slaStatus := .onTime }
  insertFirstLine order.orderId

/-- `_apply_order` -/
def applyOrder (event : BusinessEvent) (order : OrderCreated) : OpsProgram PUnit := do
  ensureCustomer order.customerId
  let db ← read
  match db.orders.find? (fun row => row.orderId = order.orderId) with
  | some existing =>
      if existing.opportunityRef ≠ some order.opportunityRef then
        raise (.orderIdCollision order.orderId)
      else pure ⟨⟩
  | none => insertNewOrder event order

/-- The transition of the order that a shipment starts. -/
def shipOrder (event : BusinessEvent) (shipment : ShipmentCreated) (status : OrderStatus) :
    OpsProgram PUnit :=
  if status = .pending then do
    insertOrderHistory
      { recordId := shipment.orderId
        previousStatus := some .pending
        newStatus := .shipped
        occurredAt := atHour event.businessDate 8
        sourceEventId := event.eventId
        slaDueAt := some (atHour (shipment.orderCreatedDate + 5) 8)
        slaStatus := slaStatus (shipment.orderCreatedDate + 5) event.businessDate }
    updateOrderStatus shipment.orderId .shipped
  else pure ⟨⟩

def insertNewShipment (event : BusinessEvent) (shipment : ShipmentCreated) (order : OrderRow) :
    OpsProgram PUnit := do
  insertShipment
    ⟨shipment.shipmentId, shipment.orderId, event.businessDate, event.businessDate + 5, none⟩
  insertShipmentHistory
    { recordId := shipment.shipmentId
      previousStatus := none
      newStatus := .shipped
      occurredAt := atHour event.businessDate 8
      sourceEventId := event.eventId
      slaDueAt := none
      slaStatus := .onTime }
  shipOrder event shipment order.status

def shipExistingOrder (event : BusinessEvent) (shipment : ShipmentCreated) (db : OpsDatabase) :
    OpsProgram PUnit :=
  match db.orders.find? (fun row => row.orderId = shipment.orderId) with
  | none => raise (.shipmentWithoutOrder shipment.orderId)
  | some order =>
      if db.warehouses.isEmpty || db.carriers.isEmpty then raise .noWarehouseOrCarrier
      else insertNewShipment event shipment order

/-- `_apply_shipment` -/
def applyShipment (event : BusinessEvent) (shipment : ShipmentCreated) : OpsProgram PUnit := do
  let db ← read
  match db.shipments.find? (fun row => row.shipmentId = shipment.shipmentId) with
  | some existing =>
      if existing.orderId ≠ shipment.orderId then
        raise (.shipmentIdCollision shipment.shipmentId)
      else pure ⟨⟩
  | none => shipExistingOrder event shipment db

/-- `_apply_delivery` -/
def applyDelivery (event : BusinessEvent) (delivery : ShipmentDelivered) :
    OpsProgram PUnit := do
  let db ← read
  match db.shipments.find? (fun row => row.shipmentId = delivery.shipmentId) with
  | none => raise (.deliveryWithoutShipment delivery.shipmentId)
  | some shipment =>
      if shipment.deliveredDate.isSome then pure ⟨⟩
      else do
        updateDeliveredDate delivery.shipmentId event.businessDate
        insertShipmentHistory
          { recordId := delivery.shipmentId
            previousStatus := some .shipped
            newStatus := .delivered
            occurredAt := atHour event.businessDate 17
            sourceEventId := event.eventId
            slaDueAt := some (atHour shipment.promisedDeliveryDate 17)
            slaStatus := slaStatus shipment.promisedDeliveryDate event.businessDate }

/-- The transition of the order that an invoice ends. -/
def invoiceOrder (event : BusinessEvent) (invoice : InvoiceCreated) (status : OrderStatus) :
    OpsProgram PUnit :=
  if status = .shipped then do
    insertOrderHistory
      { recordId := invoice.orderId
        previousStatus := some .shipped
        newStatus := .invoiced
        occurredAt := atHour event.businessDate 8
        sourceEventId := event.eventId
        slaDueAt := some (atHour (invoice.shipmentDate + 3) 8)
        slaStatus := slaStatus (invoice.shipmentDate + 3) event.businessDate }
    updateOrderStatus invoice.orderId .invoiced
  else pure ⟨⟩

def insertNewInvoice (event : BusinessEvent) (invoice : InvoiceCreated) (order : OrderRow)
    (amount : Int) (invoiceId : Nat) : OpsProgram PUnit := do
  insertInvoice
    { invoiceId := invoiceId
      invoiceNumber := invoiceNumber invoice.orderId
      orderId := invoice.orderId
      invoiceDate := event.businessDate
      currencyCode := order.currencyCode
      amount := amount
      status := .issued }
  insertInvoiceHistory
    { recordId := invoiceId
      previousStatus := none
      newStatus := .issued
      occurredAt := atHour event.businessDate 8
      sourceEventId := event.eventId
      slaDueAt := some (atHour (invoice.shipmentDate + 3) 8)
      slaStatus := slaStatus (invoice.shipmentDate + 3) event.businessDate }
  invoiceOrder event invoice order.status

/-- `coalesce(sum(line_amount), 0)` of an order -/
def orderAmount (db : OpsDatabase) (orderId : Nat) : Int :=
  ((db.orderLines.filter (fun row => row.orderId = orderId)).map OrderLineRow.lineAmount).sum

def invoiceExistingOrder (event : BusinessEvent) (invoice : InvoiceCreated)
    (db : OpsDatabase) : OpsProgram PUnit :=
  match db.orders.find? (fun row => row.orderId = invoice.orderId) with
  | none => raise (.invoiceWithoutOrder invoice.orderId)
  | some order =>
      if !db.shipments.any
          (fun row => row.shipmentId = invoice.shipmentId && row.orderId = invoice.orderId) then
        raise (.invoiceWithoutShipment invoice.shipmentId invoice.orderId)
      else if orderAmount db invoice.orderId ≤ 0 then
        raise (.amountNotPositive invoice.orderId)
      else
        insertNewInvoice event invoice order (orderAmount db invoice.orderId)
          (nextId (db.invoices.map InvoiceRow.invoiceId))

/-- `_apply_invoice` -/
def applyInvoice (event : BusinessEvent) (invoice : InvoiceCreated) : OpsProgram PUnit := do
  let db ← read
  if db.invoices.any (fun row => row.orderId = invoice.orderId) then pure ⟨⟩
  else invoiceExistingOrder event invoice db

def openCase (event : BusinessEvent) (opening : SupportCaseOpened) (db : OpsDatabase) :
    OpsProgram PUnit :=
  match db.orders.find? (fun row => row.orderId = opening.orderId) with
  | none => raise (.caseWithoutOrder opening.orderId)
  | some order => do
      insertSupportCase
        ⟨opening.caseId, order.customerId, opening.priority, atHour event.businessDate 9,
          .opened⟩
      insertCaseHistory
        { recordId := opening.caseId
          previousStatus := none
          newStatus := .opened
          occurredAt := atHour event.businessDate 9
          sourceEventId := event.eventId
          slaDueAt := some (atHour (event.businessDate + 3) 9)
          slaStatus := .onTime }

/-- `_apply_support_case` -/
def applySupportCase (event : BusinessEvent) (opening : SupportCaseOpened) :
    OpsProgram PUnit := do
  let db ← read
  if db.supportCases.any (fun row => row.caseId = opening.caseId) then pure ⟨⟩
  else openCase event opening db

/-- `_apply_support_resolution` -/
def applySupportResolution (event : BusinessEvent) (resolution : SupportCaseChanged) :
    OpsProgram PUnit := do
  let db ← read
  match db.supportCases.find? (fun row => row.caseId = resolution.caseId) with
  | none => raise (.resolutionWithoutCase resolution.caseId)
  | some row =>
      if row.status ≠ .opened then pure ⟨⟩
      else do
        updateCaseStatus resolution.caseId .resolved
        insertCaseHistory
          { recordId := resolution.caseId
            previousStatus := some .opened
            newStatus := .resolved
            occurredAt := atHour event.businessDate 17
            sourceEventId := event.eventId
            slaDueAt := some (daysAfter 3 row.openedAt)
            slaStatus := slaStatus (daysAfter 3 row.openedAt) (atHour event.businessDate 17) }

/-- `_apply_support_closure` -/
def applySupportClosure (event : BusinessEvent) (closure : SupportCaseChanged) :
    OpsProgram PUnit := do
  let db ← read
  match db.supportCases.find? (fun row => row.caseId = closure.caseId) with
  | none => raise (.closureWithoutCase closure.caseId)
  | some row =>
      if row.status ≠ .resolved then pure ⟨⟩
      else do
        updateCaseStatus closure.caseId .closed
        insertCaseHistory
          { recordId := closure.caseId
            previousStatus := some .resolved
            newStatus := .closed
            occurredAt := atHour event.businessDate 17
            sourceEventId := event.eventId
            slaDueAt := some (atHour event.businessDate 17)
            slaStatus := .onTime }

/-- `_apply_event` -/
def applyEvent (event : BusinessEvent) : OpsProgram PUnit :=
  match event.body with
  | .orderCreated order => applyOrder event order
  | .shipmentCreated shipment => applyShipment event shipment
  | .shipmentDelivered delivery => applyDelivery event delivery
  | .invoiceCreated invoice => applyInvoice event invoice
  | .supportCaseOpened opening => applySupportCase event opening
  | .supportCaseResolved resolution => applySupportResolution event resolution
  | .supportCaseClosed closure => applySupportClosure event closure
  | .crmChange change => raise (.unsupportedEventType change.eventType)
  | .revenuePostingCreated _ => raise (.unsupportedEventType "revenue_posting_created")

/-- An event and its marker, or nothing where the marker is there. -/
def applyUnmarked (event : BusinessEvent) : OpsProgram Nat := do
  let db ← read
  if event.eventId ∈ db.appliedEvents then pure 0
  else do
    applyEvent event
    insertAppliedEvent event.eventId
    pure 1

def applyOnce (event : BusinessEvent) : OpsProgram Nat :=
  if event.source ≠ .ops then raise .notOps else applyUnmarked event

/-- `_event_priority` -/
def eventPriority (event : BusinessEvent) : Nat :=
  match event.body with
  | .orderCreated _ => 0
  | .shipmentCreated _ => 1
  | .shipmentDelivered _ => 2
  | .invoiceCreated _ => 3
  | .supportCaseOpened _ => 4
  | .supportCaseResolved _ => 5
  | .supportCaseClosed _ => 6
  | _ => 99

/-- `sorted(…, key=lambda event: (event.business_date, self._event_priority(event)))` -/
def inOrder (events : List BusinessEvent) : List BusinessEvent :=
  events.insertionSort
    (fun event event' =>
      event.businessDate < event'.businessDate ∨
        (event.businessDate = event'.businessDate ∧
          eventPriority event ≤ eventPriority event'))

/-- `OpsEventApplier.apply` -/
def apply (events : List BusinessEvent) : OpsProgram Nat :=
  sumEach applyOnce (inOrder events)

end OpsEventApplier

end Simulator
end Northwind
