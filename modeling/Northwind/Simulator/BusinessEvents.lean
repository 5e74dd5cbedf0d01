import Northwind.Simulator.CrmEvents
import Northwind.Simulator.SimulationState
import Northwind.Sources.Numbers

/-!
# The events of the order-to-cash flow

A Closed Won opportunity becomes an order, the order a shipment, the shipment an
invoice and a delivery, the invoice a revenue posting, and some deliveries a
support case.  Every event keeps its payload by its fields; its id is the digest
of its date, source, type, entity and payload.

SHA-256 and the calendar rule of the weekly breach date are parameters.  Amounts
are counted in hundredths, which is the scale of their columns.
-/

namespace Northwind
namespace Simulator

/-! ## Payloads -/

structure CrmChange where
  eventType : String
  entityId : String
  payload : Payload
deriving DecidableEq

structure OrderCreated where
  orderId : Nat
  customerId : Nat
  opportunityRef : String
  orderDate : Nat
  crmClosedWonDate : Nat
  crmToOpsDelayDays : Nat
deriving DecidableEq

structure ShipmentCreated where
  shipmentId : Nat
  orderId : Nat
  orderCreatedDate : Nat
  orderToShipmentDelayDays : Nat
deriving DecidableEq

structure InvoiceCreated where
  orderId : Nat
  shipmentId : Nat
  shipmentDate : Nat
  shipmentToInvoiceDelayDays : Nat
deriving DecidableEq

structure ShipmentDelivered where
  shipmentId : Nat
  orderId : Nat
  shipmentDate : Nat
  shipmentToDeliveryDelayDays : Nat
deriving DecidableEq

structure SupportCaseOpened where
  caseId : Nat
  shipmentId : Nat
  orderId : Nat
  priority : String
deriving DecidableEq

/-- The payload of a resolution and of a closure. -/
structure SupportCaseChanged where
  caseId : Nat
  priority : String
deriving DecidableEq

structure RevenuePostingCreated where
  postingId : Nat
  documentNumber : String
  invoiceId : Nat
  invoiceNumber : String
  orderRef : Nat
  companyCode : String
  companyCurrency : String
  documentCurrency : String
  amountDoc : Int
  postingDate : Nat
  invoiceToErpDelayDays : Nat
deriving DecidableEq

inductive EventBody where
  | crmChange (change : CrmChange)
  | orderCreated (order : OrderCreated)
  | shipmentCreated (shipment : ShipmentCreated)
  | shipmentDelivered (delivery : ShipmentDelivered)
  | invoiceCreated (invoice : InvoiceCreated)
  | supportCaseOpened (opening : SupportCaseOpened)
  | supportCaseResolved (resolution : SupportCaseChanged)
  | supportCaseClosed (closure : SupportCaseChanged)
  | revenuePostingCreated (posting : RevenuePostingCreated)
deriving DecidableEq

namespace EventBody

def source : EventBody → SourceSystem
  | .crmChange _ => .crm
  | .revenuePostingCreated _ => .erp
  | _ => .ops

def eventType : EventBody → String
  | .crmChange change => change.eventType
  | .orderCreated _ => "order_created"
  | .shipmentCreated _ => "shipment_created"
  | .shipmentDelivered _ => "shipment_delivered"
  | .invoiceCreated _ => "invoice_created"
  | .supportCaseOpened _ => "support_case_opened"
  | .supportCaseResolved _ => "support_case_resolved"
  | .supportCaseClosed _ => "support_case_closed"
  | .revenuePostingCreated _ => "revenue_posting_created"

def entityId : EventBody → String
  | .crmChange change => change.entityId
  | .orderCreated order => toString order.orderId
  | .shipmentCreated shipment => toString shipment.shipmentId
  | .shipmentDelivered delivery => toString delivery.shipmentId
  | .invoiceCreated invoice => toString invoice.orderId
  | .supportCaseOpened opening => toString opening.caseId
  | .supportCaseResolved resolution => toString resolution.caseId
  | .supportCaseClosed closure => toString closure.caseId
  | .revenuePostingCreated posting => toString posting.postingId

/-- An integer of a payload; a date is its ordinal. -/
def integer (n : Int) : Option Value :=
  some (.number n)

def string (s : String) : Option Value :=
  some (.text s)

def payload : EventBody → Payload
  | .crmChange change => change.payload
  | .orderCreated order =>
      [("order_id", integer order.orderId), ("customer_id", integer order.customerId),
        ("opportunity_ref", string order.opportunityRef),
        ("order_date", integer order.orderDate), ("status", string "PENDING"),
        ("sales_channel", string "DIRECT"),
        ("crm_closed_won_date", integer order.crmClosedWonDate),
        ("crm_to_ops_delay_days", integer order.crmToOpsDelayDays)]
  | .shipmentCreated shipment =>
      [("shipment_id", integer shipment.shipmentId), ("order_id", integer shipment.orderId),
        ("order_created_date", integer shipment.orderCreatedDate),
        ("order_to_shipment_delay_days", integer shipment.orderToShipmentDelayDays)]
  | .shipmentDelivered delivery =>
      [("shipment_id", integer delivery.shipmentId), ("order_id", integer delivery.orderId),
        ("shipment_date", integer delivery.shipmentDate),
        ("shipment_to_delivery_delay_days", integer delivery.shipmentToDeliveryDelayDays)]
  | .invoiceCreated invoice =>
      [("order_id", integer invoice.orderId), ("shipment_id", integer invoice.shipmentId),
        ("shipment_date", integer invoice.shipmentDate),
        ("shipment_to_invoice_delay_days", integer invoice.shipmentToInvoiceDelayDays)]
  | .supportCaseOpened opening =>
      [("case_id", integer opening.caseId), ("shipment_id", integer opening.shipmentId),
        ("order_id", integer opening.orderId), ("priority", string opening.priority)]
  | .supportCaseResolved resolution =>
      [("case_id", integer resolution.caseId), ("priority", string resolution.priority)]
  | .supportCaseClosed closure =>
      [("case_id", integer closure.caseId), ("priority", string closure.priority)]
  | .revenuePostingCreated posting =>
      [("posting_id", integer posting.postingId),
        ("document_number", string posting.documentNumber),
        ("invoice_id", integer posting.invoiceId),
        ("invoice_number", string posting.invoiceNumber),
        ("order_ref", integer posting.orderRef),
        ("company_code", string posting.companyCode),
        ("company_currency", string posting.companyCurrency),
        ("document_currency", string posting.documentCurrency),
        ("amount_doc", integer posting.amountDoc),
        ("posting_date", integer posting.postingDate),
        ("invoice_to_erp_delay_days", integer posting.invoiceToErpDelayDays)]

end EventBody

abbrev BusinessEvent :=
  SimulationEvent EventBody

/-! ## Digests and the policy -/

/-- SHA-256: the bytes of the digest of a text, and the hexadecimal digest of
the text of an event. -/
structure Sha256 where
  digest : String → Nat → Nat
  hexdigest : Nat → SourceSystem → String → String → Payload → String

namespace Sha256

variable (sha256 : Sha256)

/-- `SourceEvent.create` -/
def createEvent (businessDate : Nat) (body : EventBody) : BusinessEvent where
  eventId :=
    sha256.hexdigest businessDate body.source body.eventType body.entityId body.payload
  businessDate := businessDate
  source := body.source
  body := body

/-- Events of one digest have one date, one source and, outside CRM, one body.
Two orders of the entries of a CRM payload are one text. -/
def Injective : Prop :=
  ∀ {d d' : Nat} {body body' : EventBody},
    (sha256.createEvent d body).eventId = (sha256.createEvent d' body').eventId →
      d = d' ∧ body.source = body'.source ∧ (body.source ≠ .crm → body = body')

end Sha256

/-- Inclusive calendar-day window with a validated natural ordering. -/
structure DayWindow where
  minimum : Nat
  maximum : Nat
  ordered : minimum ≤ maximum

/-- The windows of the policy.  An anomaly rate is the test `byte / 255 < rate`. -/
structure SimulationPolicy where
  crmToOps : DayWindow := ⟨1, 3, by decide⟩
  orderToShipment : DayWindow := ⟨1, 5, by decide⟩
  shipmentToDelivery : DayWindow := ⟨1, 5, by decide⟩
  shipmentToInvoice : DayWindow := ⟨0, 3, by decide⟩
  invoiceToErp : DayWindow := ⟨1, 2, by decide⟩
  delayedCrmToOps : Nat → Bool := (· ≤ 1)
  stalledShipment : Nat → Bool := (· ≤ 2)
  delayedErpPosting : Nat → Bool := (· ≤ 1)
  isWeeklySlaBreachDate : Nat → Int → Bool

/-- The delay inside a window that the digest of a text selects. -/
def DayWindow.delay (window : DayWindow) (sha256 : Sha256) (text : String) : Nat :=
  window.minimum + sha256.digest text 0 % (window.maximum - window.minimum + 1)

/-- `sorted(…, key=lambda event: event.event_id)` -/
def sortedById (events : List BusinessEvent) : List BusinessEvent :=
  events.insertionSort (fun event event' => event.eventId ≤ event'.eventId)

/-- `coalesce(max(id), 0) + 1` -/
def nextId (ids : List Nat) : Nat :=
  ids.foldr max 0 + 1

theorem lt_nextId {ids : List Nat} {n : Nat} (h : n ∈ ids) : n < nextId ids :=
  Nat.lt_succ_of_le (le_foldr_max h)

@[simp] theorem mem_sortedById {event : BusinessEvent} {events : List BusinessEvent} :
    event ∈ sortedById events ↔ event ∈ events :=
  List.mem_insertionSort _

/-- Events numbered in the order of their list. -/
def numbered {α : Type} (first : Nat) (xs : List α) : List (Nat × α) :=
  xs.zipIdx.map (fun x => (first + x.2, x.1))

end Simulator
end Northwind
