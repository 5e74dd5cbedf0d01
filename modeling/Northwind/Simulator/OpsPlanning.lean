import Northwind.Simulator.BusinessEvents

/-!
# Planning the Ops events of one day

Three planners read the recorded events and what the Ops database already holds,
and write nothing.  A delay is taken from the digest of the event it counts
from; new ids are the next one of the database and those after it, in the order
of the event ids.
-/

namespace Northwind
namespace Simulator

/-- Events made one by one under consecutive ids; an id is used up also where
nothing is made. -/
def planNumbered {α : Type} (first : Nat) (make : Nat → α → Option BusinessEvent)
    (xs : List α) : List BusinessEvent :=
  (numbered first xs).filterMap (fun x => make x.1 x.2)

theorem mem_planNumbered
    {α : Type} {first : Nat} {make : Nat → α → Option BusinessEvent} {xs : List α}
    {event : BusinessEvent} :
    event ∈ planNumbered first make xs ↔
      ∃ i x, xs[i]? = some x ∧ make (first + i) x = some event := by
  simp only [planNumbered, numbered, List.mem_filterMap, List.mem_map, Prod.exists]
  constructor
  · rintro ⟨n, x, ⟨y, i, hmem, heq⟩, hmake⟩
    obtain ⟨rfl, rfl⟩ := Prod.mk.inj heq
    exact ⟨i, y, List.mem_zipIdx_iff_getElem?.mp hmem, hmake⟩
  · rintro ⟨i, x, hx, hmake⟩
    exact ⟨first + i, x, ⟨x, i, List.mem_zipIdx_iff_getElem?.mpr hx, rfl⟩, hmake⟩

/-! ## Orders -/

namespace OpsDailyPlanner

variable (policy : SimulationPolicy) (sha256 : Sha256)

/-- The change of an `opportunity_stage_changed` event to Closed Won. -/
def closedWon (event : BusinessEvent) : Option CrmChange :=
  match event.body with
  | .crmChange change =>
      if change.eventType = "opportunity_stage_changed" ∧
          change.payload.lookup "StageName" = some (some (.text "Closed Won")) then
        some change
      else none
  | _ => none

/-- `int(account_id[3:])` of an id that starts with `001` and ends in digits -/
def customerIdOf (accountId : String) : Option Nat :=
  let digits := accountId.toList.drop 3
  if startsWith accountId "001" && !digits.isEmpty && digits.all Char.isDigit then
    some (Nat.ofDigitChars 10 digits 0)
  else none

/-- `str(event.payload.get("AccountId", ""))` -/
def accountIdOf (payload : Payload) : String :=
  match payload.lookup "AccountId" with
  | none => ""
  | some cell => cellText cell

/-- `_conversion_delay` -/
def conversionDelay (event : BusinessEvent) : Nat :=
  let text := "ops:" ++ event.eventId
  if policy.delayedCrmToOps (sha256.digest text 1) then policy.crmToOps.maximum + 1
  else policy.crmToOps.delay sha256 text

/-- A Closed Won event that is due and whose opportunity has no order. -/
def isEligible (runDate : Nat) (converted : List String) (event : BusinessEvent) : Bool :=
  match closedWon event with
  | none => false
  | some change =>
      change.entityId ∉ converted &&
        event.businessDate + conversionDelay policy sha256 event ≤ runDate

def orderFor (runDate orderId : Nat) (event : BusinessEvent) : Option BusinessEvent :=
  match closedWon event with
  | none => none
  | some change =>
      (customerIdOf (accountIdOf change.payload)).map
        (fun customerId =>
          sha256.createEvent runDate
            (.orderCreated
              { orderId := orderId
                customerId := customerId
                opportunityRef := change.entityId
                orderDate := runDate
                crmClosedWonDate := event.businessDate
                crmToOpsDelayDays := conversionDelay policy sha256 event }))

/-- `OpsDailyPlanner.plan` -/
def plan (runDate : Nat) (crmEvents : List BusinessEvent) (converted : List String)
    (nextOrderId : Nat) : List BusinessEvent :=
  planNumbered nextOrderId (orderFor policy sha256 runDate)
    (sortedById (crmEvents.filter (isEligible policy sha256 runDate converted)))

end OpsDailyPlanner

/-! ## Shipments, invoices and deliveries -/

namespace FulfillmentPlanner

variable (policy : SimulationPolicy) (sha256 : Sha256)

/-- `_shipment_delay` -/
def shipmentDelay (order : BusinessEvent) : Nat :=
  let text := "shipment:" ++ order.eventId
  if policy.stalledShipment (sha256.digest text 1) then policy.orderToShipment.maximum + 3
  else policy.orderToShipment.delay sha256 text

/-- `_invoice_delay` -/
def invoiceDelay (shipment : BusinessEvent) : Nat :=
  policy.shipmentToInvoice.delay sha256 ("invoice:" ++ shipment.eventId)

/-- `_delivery_delay` -/
def deliveryDelay (shipment : BusinessEvent) : Nat :=
  policy.shipmentToDelivery.delay sha256 ("delivery:" ++ shipment.eventId)

/-- An order event that is due and whose order has no shipment. -/
def isEligible (runDate : Nat) (shipped : List Nat) (event : BusinessEvent) : Bool :=
  match event.body with
  | .orderCreated order =>
      order.orderId ∉ shipped &&
        event.businessDate + shipmentDelay policy sha256 event ≤ runDate
  | _ => false

def shipmentFor (runDate shipmentId : Nat) (event : BusinessEvent) : Option BusinessEvent :=
  match event.body with
  | .orderCreated order =>
      some
        (sha256.createEvent runDate
          (.shipmentCreated
            { shipmentId := shipmentId
              orderId := order.orderId
              orderCreatedDate := event.businessDate
              orderToShipmentDelayDays := shipmentDelay policy sha256 event }))
  | _ => none

/-- `_shipments` -/
def shipments (runDate : Nat) (events : List BusinessEvent) (shipped : List Nat)
    (nextShipmentId : Nat) : List BusinessEvent :=
  planNumbered nextShipmentId (shipmentFor policy sha256 runDate)
    (sortedById (events.filter (isEligible policy sha256 runDate shipped)))

def invoiceFor (runDate : Nat) (invoiced : List Nat) (event : BusinessEvent) :
    Option BusinessEvent :=
  match event.body with
  | .shipmentCreated shipment =>
      if shipment.orderId ∈ invoiced then none
      else if event.businessDate + invoiceDelay policy sha256 event > runDate then none
      else
        some
          (sha256.createEvent runDate
            (.invoiceCreated
              { orderId := shipment.orderId
                shipmentId := shipment.shipmentId
                shipmentDate := event.businessDate
                shipmentToInvoiceDelayDays := invoiceDelay policy sha256 event }))
  | _ => none

/-- `_invoices` -/
def invoices (runDate : Nat) (existing new : List BusinessEvent) (invoiced : List Nat) :
    List BusinessEvent :=
  (sortedById (existing ++ new)).filterMap (invoiceFor policy sha256 runDate invoiced)

def deliveryFor (runDate : Nat) (delivered : List Nat) (event : BusinessEvent) :
    Option BusinessEvent :=
  match event.body with
  | .shipmentCreated shipment =>
      if shipment.shipmentId ∈ delivered then none
      else if event.businessDate + deliveryDelay policy sha256 event > runDate then none
      else
        some
          (sha256.createEvent runDate
            (.shipmentDelivered
              { shipmentId := shipment.shipmentId
                orderId := shipment.orderId
                shipmentDate := event.businessDate
                shipmentToDeliveryDelayDays := deliveryDelay policy sha256 event }))
  | _ => none

/-- `_deliveries` -/
def deliveries (runDate : Nat) (events : List BusinessEvent) (delivered : List Nat) :
    List BusinessEvent :=
  (sortedById events).filterMap (deliveryFor policy sha256 runDate delivered)

/-- `FulfillmentPlanner.plan` -/
def plan (runDate : Nat) (opsEvents : List BusinessEvent)
    (shipped invoiced delivered : List Nat) (nextShipmentId : Nat) : List BusinessEvent :=
  let new := shipments policy sha256 runDate opsEvents shipped nextShipmentId
  new ++ invoices policy sha256 runDate opsEvents new invoiced ++
    deliveries policy sha256 runDate (opsEvents ++ new) delivered

end FulfillmentPlanner

/-! ## Support cases -/

namespace SupportCasePlanner

variable (sha256 : Sha256)

/-- `_opens_case`: `byte / 255 < 0.02` -/
def opensCase (delivery : BusinessEvent) : Bool :=
  sha256.digest ("support:" ++ delivery.eventId) 0 ≤ 5

/-- `_opening_delay` -/
def openingDelay (delivery : BusinessEvent) : Nat :=
  1 + sha256.digest ("support-delay:" ++ delivery.eventId) 0 % 7

/-- `_resolution_delay` -/
def resolutionDelay (opening : BusinessEvent) : Nat :=
  1 + sha256.digest ("support-resolution:" ++ opening.eventId) 0 % 3

/-- `_closure_delay` -/
def closureDelay (resolution : BusinessEvent) : Nat :=
  1 + sha256.digest ("support-close:" ++ resolution.eventId) 0 % 2

/-- The shipments of the recorded openings. -/
def alreadyOpened (events : List BusinessEvent) : List Nat :=
  events.filterMap
    (fun event =>
      match event.body with
      | .supportCaseOpened opening => some opening.shipmentId
      | _ => none)

/-- A delivery that opens a case, is due and has none. -/
def isEligible (runDate : Nat) (opened : List Nat) (event : BusinessEvent) : Bool :=
  match event.body with
  | .shipmentDelivered delivery =>
      delivery.shipmentId ∉ opened && opensCase sha256 event &&
        event.businessDate + openingDelay sha256 event ≤ runDate
  | _ => false

/-- The deliveries for which a case is opened, in the order of their ids. -/
def eligible (runDate : Nat) (events : List BusinessEvent) : List BusinessEvent :=
  sortedById (events.filter (isEligible sha256 runDate (alreadyOpened events)))

def openingFor (runDate caseId : Nat) (event : BusinessEvent) : Option BusinessEvent :=
  match event.body with
  | .shipmentDelivered delivery =>
      some
        (sha256.createEvent runDate
          (.supportCaseOpened
            { caseId := caseId
              shipmentId := delivery.shipmentId
              orderId := delivery.orderId
              priority := "P3" }))
  | _ => none

def openings (runDate : Nat) (events : List BusinessEvent) (nextCaseId : Nat) :
    List BusinessEvent :=
  planNumbered nextCaseId (openingFor sha256 runDate) (eligible sha256 runDate events)

def resolvedCaseIds (events : List BusinessEvent) : List Nat :=
  events.filterMap
    (fun event =>
      match event.body with
      | .supportCaseResolved resolution => some resolution.caseId
      | _ => none)

def resolutionFor (runDate : Nat) (resolved : List Nat) (event : BusinessEvent) :
    Option BusinessEvent :=
  match event.body with
  | .supportCaseOpened opening =>
      if opening.caseId ∈ resolved then none
      else if event.businessDate + resolutionDelay sha256 event > runDate then none
      else
        some
          (sha256.createEvent runDate
            (.supportCaseResolved ⟨opening.caseId, opening.priority⟩))
  | _ => none

def closedCaseIds (events : List BusinessEvent) : List Nat :=
  events.filterMap
    (fun event =>
      match event.body with
      | .supportCaseClosed closure => some closure.caseId
      | _ => none)

def closureFor (runDate : Nat) (closed : List Nat) (event : BusinessEvent) :
    Option BusinessEvent :=
  match event.body with
  | .supportCaseResolved resolution =>
      if resolution.caseId ∈ closed then none
      else if event.businessDate + closureDelay sha256 event > runDate then none
      else
        some
          (sha256.createEvent runDate
            (.supportCaseClosed ⟨resolution.caseId, resolution.priority⟩))
  | _ => none

/-- `SupportCasePlanner.plan` -/
def plan (runDate : Nat) (opsEvents : List BusinessEvent) (nextCaseId : Nat) :
    List BusinessEvent :=
  let new := openings sha256 runDate opsEvents nextCaseId
  let resolved := resolvedCaseIds opsEvents
  let closed := closedCaseIds opsEvents
  new ++ (opsEvents ++ new).filterMap (resolutionFor sha256 runDate resolved) ++
    opsEvents.filterMap (closureFor sha256 runDate closed)

end SupportCasePlanner

end Simulator
end Northwind
