import Northwind.Simulator.EventJournal

/-!
# The moves of a day

What an attempt does to the stores is a sequence of moves: a part of a plan is
recorded, a transaction commits, control rows change, the day completes.  Every
move keeps what the program knows when it makes it.  A crash or an error ends
the sequence anywhere, and the next attempt goes on from there.

The invariants of the later modules are proved of the moves; the program is
looked at once, here.
-/

namespace Northwind
namespace Simulator

open CrashPrograms CrashPrograms.Program SimulationState SimulationStateStore

variable {sha256 : Sha256} {w d : Nat} {s t : Stores}

/-! ## Plans -/

/-- An event of the plan of a source for a date. -/
structure Planned (sha256 : Sha256) (d : Nat) (source : SourceSystem) (event : BusinessEvent) :
    Prop where
  created : Created sha256 event
  businessDate : event.businessDate = d
  source : event.source = source

theorem planned_createEvent (d : Nat) (body : EventBody) :
    Planned sha256 d body.source (sha256.createEvent d body) :=
  ⟨created_createEvent d body, rfl, rfl⟩

section Plans

variable {policy : SimulationPolicy} {crmPlan : Nat → List CrmChange} {event : BusinessEvent}

theorem planned_crmPlan (h : event ∈ CrmRun.plan sha256 crmPlan d) :
    Planned sha256 d .crm event := by
  obtain ⟨change, _, rfl⟩ := List.mem_map.mp h
  exact planned_createEvent d (.crmChange change)

theorem OpsDailyPlanner.orderFor_eq_some {runDate orderId : Nat} {crmEvent : BusinessEvent}
    (h : OpsDailyPlanner.orderFor policy sha256 runDate orderId crmEvent = some event) :
    ∃ change order, OpsDailyPlanner.closedWon crmEvent = some change ∧
      order.orderId = orderId ∧ order.opportunityRef = change.entityId ∧
        event = sha256.createEvent runDate (.orderCreated order) := by
  rw [OpsDailyPlanner.orderFor] at h
  cases hwon : OpsDailyPlanner.closedWon crmEvent with
  | none =>
      rw [hwon] at h
      cases h
  | some change =>
      rw [hwon] at h
      obtain ⟨customerId, _, rfl⟩ := Option.map_eq_some_iff.mp h
      exact ⟨change, _, rfl, rfl, rfl, rfl⟩

/-- A planned order: the number of its Closed Won event in the sorted list is
the offset of its id. -/
theorem OpsDailyPlanner.mem_plan
    {runDate : Nat} {crmEvents : List BusinessEvent} {converted : List String} {first : Nat}
    (h : event ∈ OpsDailyPlanner.plan policy sha256 runDate crmEvents converted first) :
    ∃ i crmEvent change order,
      (sortedById (crmEvents.filter
        (OpsDailyPlanner.isEligible policy sha256 runDate converted)))[i]? = some crmEvent ∧
      OpsDailyPlanner.orderFor policy sha256 runDate (first + i) crmEvent = some event ∧
      crmEvent ∈ crmEvents ∧ OpsDailyPlanner.closedWon crmEvent = some change ∧
      change.entityId ∉ converted ∧
      order.orderId = first + i ∧ order.opportunityRef = change.entityId ∧
      event = sha256.createEvent runDate (.orderCreated order) := by
  obtain ⟨i, crmEvent, hget, hmake⟩ := mem_planNumbered.mp h
  obtain ⟨change, order, hwon, hid, href, rfl⟩ := OpsDailyPlanner.orderFor_eq_some hmake
  have hmem := mem_sortedById.mp (List.mem_of_getElem? hget)
  obtain ⟨hmem, heligible⟩ := List.mem_filter.mp hmem
  rw [OpsDailyPlanner.isEligible, hwon] at heligible
  simp only [Bool.and_eq_true, decide_eq_true_iff] at heligible
  exact ⟨i, crmEvent, change, order, hget, hmake, hmem, hwon, heligible.1, hid, href, rfl⟩

theorem planned_planOrders (h : event ∈ OpsRun.planOrders policy sha256 d s) :
    Planned sha256 d .ops event ∧ OpsRun.isOrderCreated event := by
  obtain ⟨_, _, _, order, _, _, _, _, _, _, _, rfl⟩ := OpsDailyPlanner.mem_plan h
  exact ⟨planned_createEvent d (.orderCreated order), rfl⟩

/-- The payload of a planned shipment of an order event. -/
def FulfillmentPlanner.shipmentOf (policy : SimulationPolicy) (sha256 : Sha256)
    (shipmentId : Nat) (orderEvent : BusinessEvent) (order : OrderCreated) : ShipmentCreated where
  shipmentId := shipmentId
  orderId := order.orderId
  orderCreatedDate := orderEvent.businessDate
  orderToShipmentDelayDays := FulfillmentPlanner.shipmentDelay policy sha256 orderEvent

def FulfillmentPlanner.invoiceOf (policy : SimulationPolicy) (sha256 : Sha256)
    (shipped : BusinessEvent) (shipment : ShipmentCreated) : InvoiceCreated where
  orderId := shipment.orderId
  shipmentId := shipment.shipmentId
  shipmentDate := shipped.businessDate
  shipmentToInvoiceDelayDays := FulfillmentPlanner.invoiceDelay policy sha256 shipped

def FulfillmentPlanner.deliveryOf (policy : SimulationPolicy) (sha256 : Sha256)
    (shipped : BusinessEvent) (shipment : ShipmentCreated) : ShipmentDelivered where
  shipmentId := shipment.shipmentId
  orderId := shipment.orderId
  shipmentDate := shipped.businessDate
  shipmentToDeliveryDelayDays := FulfillmentPlanner.deliveryDelay policy sha256 shipped

theorem FulfillmentPlanner.isEligible_iff {runDate : Nat} {shipped : List Nat} :
    FulfillmentPlanner.isEligible policy sha256 runDate shipped event ↔
      ∃ order, event.body = .orderCreated order ∧ order.orderId ∉ shipped ∧
        event.businessDate + FulfillmentPlanner.shipmentDelay policy sha256 event ≤ runDate := by
  cases hbody : event.body <;> simp [FulfillmentPlanner.isEligible, hbody]

/-- A planned shipment: the number of its order event in the sorted list is the
offset of its id. -/
theorem FulfillmentPlanner.mem_shipments
    {runDate : Nat} {events : List BusinessEvent} {shipped : List Nat} {first : Nat} :
    event ∈ FulfillmentPlanner.shipments policy sha256 runDate events shipped first ↔
      ∃ i orderEvent order,
        (sortedById (events.filter
          (FulfillmentPlanner.isEligible policy sha256 runDate shipped)))[i]? = some orderEvent ∧
        orderEvent.body = .orderCreated order ∧
        event = sha256.createEvent runDate (.shipmentCreated
          (FulfillmentPlanner.shipmentOf policy sha256 (first + i) orderEvent order)) := by
  rw [FulfillmentPlanner.shipments, mem_planNumbered]
  constructor
  · rintro ⟨i, orderEvent, hget, hmake⟩
    have heligible := (List.mem_filter.mp (mem_sortedById.mp (List.mem_of_getElem? hget))).2
    obtain ⟨order, hbody, _⟩ := FulfillmentPlanner.isEligible_iff.mp heligible
    rw [FulfillmentPlanner.shipmentFor, hbody] at hmake
    exact ⟨i, orderEvent, order, hget, hbody, (Option.some.inj hmake).symm⟩
  · rintro ⟨i, orderEvent, order, hget, hbody, rfl⟩
    refine ⟨i, orderEvent, hget, ?_⟩
    rw [FulfillmentPlanner.shipmentFor, hbody]
    rfl

/-- A planned invoice belongs to a shipment event that is due and whose order has
no invoice. -/
theorem FulfillmentPlanner.mem_invoices
    {runDate : Nat} {existing new : List BusinessEvent} {invoiced : List Nat} :
    event ∈ FulfillmentPlanner.invoices policy sha256 runDate existing new invoiced ↔
      ∃ shipped shipment, (shipped ∈ existing ∨ shipped ∈ new) ∧
        shipped.body = .shipmentCreated shipment ∧ shipment.orderId ∉ invoiced ∧
        shipped.businessDate + FulfillmentPlanner.invoiceDelay policy sha256 shipped ≤ runDate ∧
        event = sha256.createEvent runDate
          (.invoiceCreated (FulfillmentPlanner.invoiceOf policy sha256 shipped shipment)) := by
  simp only [FulfillmentPlanner.invoices, List.mem_filterMap, mem_sortedById, List.mem_append]
  refine exists_congr fun shipped => ?_
  cases hbody : shipped.body with
  | shipmentCreated shipment =>
      simp [FulfillmentPlanner.invoiceFor, hbody, FulfillmentPlanner.invoiceOf, eq_comm]
  | _ => simp [FulfillmentPlanner.invoiceFor, hbody]

/-- A planned delivery belongs to a shipment event that is due and not delivered. -/
theorem FulfillmentPlanner.mem_deliveries
    {runDate : Nat} {events : List BusinessEvent} {delivered : List Nat} :
    event ∈ FulfillmentPlanner.deliveries policy sha256 runDate events delivered ↔
      ∃ shipped shipment, shipped ∈ events ∧ shipped.body = .shipmentCreated shipment ∧
        shipment.shipmentId ∉ delivered ∧
        shipped.businessDate + FulfillmentPlanner.deliveryDelay policy sha256 shipped ≤
          runDate ∧
        event = sha256.createEvent runDate
          (.shipmentDelivered (FulfillmentPlanner.deliveryOf policy sha256 shipped shipment)) := by
  simp only [FulfillmentPlanner.deliveries, List.mem_filterMap, mem_sortedById]
  refine exists_congr fun shipped => ?_
  cases hbody : shipped.body with
  | shipmentCreated shipment =>
      simp [FulfillmentPlanner.deliveryFor, hbody, FulfillmentPlanner.deliveryOf, eq_comm]
  | _ => simp [FulfillmentPlanner.deliveryFor, hbody]

theorem SupportCasePlanner.mem_openings
    {runDate : Nat} {events : List BusinessEvent} {first : Nat}
    (h : event ∈ SupportCasePlanner.openings sha256 runDate events first) :
    ∃ i deliveryEvent opening,
      (SupportCasePlanner.eligible sha256 runDate events)[i]? = some deliveryEvent ∧
      opening.caseId = first + i ∧
      (∃ delivery, deliveryEvent.body = .shipmentDelivered delivery ∧
        opening.shipmentId = delivery.shipmentId ∧ opening.orderId = delivery.orderId) ∧
      event = sha256.createEvent runDate (.supportCaseOpened opening) := by
  obtain ⟨i, deliveryEvent, hget, hmake⟩ := mem_planNumbered.mp h
  cases hbody : deliveryEvent.body with
  | shipmentDelivered delivery =>
      rw [SupportCasePlanner.openingFor, hbody] at hmake
      cases hmake
      exact ⟨i, deliveryEvent, _, hget, rfl, ⟨delivery, hbody, rfl, rfl⟩, rfl⟩
  | _ =>
      rw [SupportCasePlanner.openingFor, hbody] at hmake
      cases hmake

theorem SupportCasePlanner.mem_resolutions
    {runDate : Nat} {events : List BusinessEvent} {resolved : List Nat}
    (h : event ∈ events.filterMap (SupportCasePlanner.resolutionFor sha256 runDate resolved)) :
    ∃ opened opening, opened ∈ events ∧ opened.body = .supportCaseOpened opening ∧
      opening.caseId ∉ resolved ∧
      event = sha256.createEvent runDate
        (.supportCaseResolved ⟨opening.caseId, opening.priority⟩) := by
  obtain ⟨opened, hmem, hmake⟩ := List.mem_filterMap.mp h
  cases hbody : opened.body with
  | supportCaseOpened opening =>
      rw [SupportCasePlanner.resolutionFor, hbody] at hmake
      simp only [Option.ite_none_left_eq_some] at hmake
      exact ⟨opened, opening, hmem, hbody, hmake.1, (Option.some.inj hmake.2.2).symm⟩
  | _ =>
      rw [SupportCasePlanner.resolutionFor, hbody] at hmake
      cases hmake

theorem SupportCasePlanner.mem_closures
    {runDate : Nat} {events : List BusinessEvent} {closed : List Nat}
    (h : event ∈ events.filterMap (SupportCasePlanner.closureFor sha256 runDate closed)) :
    ∃ opened resolution, opened ∈ events ∧ opened.body = .supportCaseResolved resolution ∧
      resolution.caseId ∉ closed ∧
      event = sha256.createEvent runDate
        (.supportCaseClosed ⟨resolution.caseId, resolution.priority⟩) := by
  obtain ⟨opened, hmem, hmake⟩ := List.mem_filterMap.mp h
  cases hbody : opened.body with
  | supportCaseResolved resolution =>
      rw [SupportCasePlanner.closureFor, hbody] at hmake
      simp only [Option.ite_none_left_eq_some] at hmake
      exact ⟨opened, resolution, hmem, hbody, hmake.1, (Option.some.inj hmake.2.2).symm⟩
  | _ =>
      rw [SupportCasePlanner.closureFor, hbody] at hmake
      cases hmake

theorem planned_planFulfillment (h : event ∈ OpsRun.planFulfillment policy sha256 d s) :
    Planned sha256 d .ops event ∧ OpsRun.isFulfillment event := by
  rw [OpsRun.planFulfillment, FulfillmentPlanner.plan] at h
  obtain (h | h) | h := List.mem_append.mp h |>.imp_left List.mem_append.mp
  · obtain ⟨_, _, _, _, _, rfl⟩ := FulfillmentPlanner.mem_shipments.mp h
    exact ⟨planned_createEvent d (.shipmentCreated _), rfl⟩
  · obtain ⟨_, _, _, _, _, _, rfl⟩ := FulfillmentPlanner.mem_invoices.mp h
    exact ⟨planned_createEvent d (.invoiceCreated _), rfl⟩
  · obtain ⟨_, _, _, _, _, _, rfl⟩ := FulfillmentPlanner.mem_deliveries.mp h
    exact ⟨planned_createEvent d (.shipmentDelivered _), rfl⟩

theorem planned_planSupportCases (h : event ∈ OpsRun.planSupportCases sha256 d s) :
    Planned sha256 d .ops event ∧ OpsRun.isFulfillment event := by
  rw [OpsRun.planSupportCases, SupportCasePlanner.plan] at h
  obtain (h | h) | h := List.mem_append.mp h |>.imp_left List.mem_append.mp
  · obtain ⟨_, _, opening, _, _, _, rfl⟩ := SupportCasePlanner.mem_openings h
    exact ⟨planned_createEvent d (.supportCaseOpened opening), rfl⟩
  · obtain ⟨_, _, _, _, _, rfl⟩ := SupportCasePlanner.mem_resolutions h
    exact ⟨planned_createEvent d (.supportCaseResolved _), rfl⟩
  · obtain ⟨_, _, _, _, _, rfl⟩ := SupportCasePlanner.mem_closures h
    exact ⟨planned_createEvent d (.supportCaseClosed _), rfl⟩

theorem planned_planPostings {seed : Int}
    (h : event ∈ ErpRun.planPostings policy sha256 d seed s) :
    Planned sha256 d .erp event := by
  rw [ErpRun.planPostings, ErpDailyPlanner.plan] at h
  obtain ⟨_, invoice, _, hmake⟩ := mem_planNumbered.mp h
  obtain rfl := Option.some.inj hmake
  exact planned_createEvent d (.revenuePostingCreated _)

end Plans

/-! ## What a source run knows -/

/-- The transaction of the Ops applier commits. -/
def OpsCommits (events : List BusinessEvent) (db db' : OpsDatabase) : Prop :=
  ∃ n, (OpsEventApplier.apply events db).result = .ok n ∧
    (OpsEventApplier.apply events db).final = db'

/-- The transaction of the ERP applier commits. -/
def ErpCommits (events : List BusinessEvent) (db db' : ErpDatabase) : Prop :=
  ∃ n, (ErpEventApplier.apply events db).result = .ok n ∧
    (ErpEventApplier.apply events db).final = db'

def recordedOrders (d : Nat) (s : Stores) : List BusinessEvent :=
  (s.control.eventsFor d .ops).filter OpsRun.isOrderCreated

def recordedFulfillment (d : Nat) (s : Stores) : List BusinessEvent :=
  (s.control.eventsFor d .ops).filter OpsRun.isFulfillment

section Knowledge

variable (policy : SimulationPolicy) (sha256 : Sha256) (crmPlan : Nat → List CrmChange)

/-- No attempt records further CRM events of the date. -/
def CrmSettled (d : Nat) (s : Stores) : Prop :=
  s.control.eventsFor d .crm ≠ [] ∨ CrmRun.plan sha256 crmPlan d = []

/-- No attempt records further orders of the date. -/
def OrdersSettled (d : Nat) (s : Stores) : Prop :=
  recordedOrders d s ≠ [] ∨ OpsRun.planOrders policy sha256 d s = []

/-- The orders of the date are recorded and applied. -/
structure OrdersDone (d : Nat) (s : Stores) : Prop where
  crm : CrmSettled sha256 crmPlan d s
  settled : OrdersSettled policy sha256 d s
  marked : ∀ event, event ∈ recordedOrders d s → event.eventId ∈ s.ops.appliedEvents

/-- The fulfillment events have been planned and recorded. -/
def FulfillmentRecorded (d : Nat) (s : Stores) : Prop :=
  ∃ p, OrdersDone policy sha256 crmPlan d p ∧
    s = p.record (OpsRun.planFulfillment policy sha256 d p)

/-- And so have the support cases. -/
def CasesRecorded (d : Nat) (s : Stores) : Prop :=
  ∃ p, FulfillmentRecorded policy sha256 crmPlan d p ∧
    s = p.record (OpsRun.planSupportCases sha256 d p)

/-- An Ops run has gone through since `p`, where its events were recorded. -/
structure OpsDone (d : Nat) (s : Stores) : Prop where
  marked : OpsMarked d s
  worked : ∃ p, CasesRecorded policy sha256 crmPlan d p ∧
    OpsCommits (recordedFulfillment d p) p.ops s.ops ∧
    ∀ event, event.source ≠ .erp → (event ∈ s.control.events ↔ event ∈ p.control.events)

end Knowledge

/-! ## Moves -/

section Moves

variable (policy : SimulationPolicy) (sha256 : Sha256) (crmPlan : Nat → List CrmChange)

/-- One move of the day after `w`. -/
inductive Move (w : Nat) : Stores → Stores → Prop
  | control {s t : Stores} (journal : Journal sha256 w s) (moved : Moved (w + 1) [] s t) :
      Move w s t
  | crmPlan {s : Stores} (journal : Journal sha256 w s)
      (new : s.control.eventsFor (w + 1) .crm = []) (k : Nat) :
      Move w s (s.record ((CrmRun.plan sha256 crmPlan (w + 1)).take k))
  | crmApplied {s t : Stores} (journal : Journal sha256 w s)
      (settled : CrmSettled sha256 crmPlan (w + 1) s) (moved : Moved (w + 1) [.crm] s t) :
      Move w s t
  | orderPlan {s : Stores} (journal : Journal sha256 w s)
      (crm : CrmSettled sha256 crmPlan (w + 1) s) (new : recordedOrders (w + 1) s = [])
      (k : Nat) :
      Move w s (s.record ((OpsRun.planOrders policy sha256 (w + 1) s).take k))
  | orders {s : Stores} {events : List BusinessEvent} {db : OpsDatabase}
      (journal : Journal sha256 w s) (crm : CrmSettled sha256 crmPlan (w + 1) s)
      (settled : OrdersSettled policy sha256 (w + 1) s)
      (same : ∀ event, event ∈ events ↔ event ∈ recordedOrders (w + 1) s)
      (committed : OpsCommits events s.ops db) :
      Move w s { s with ops := db }
  | fulfillmentPlan {s : Stores} (journal : Journal sha256 w s)
      (done : OrdersDone policy sha256 crmPlan (w + 1) s) (k : Nat) :
      Move w s (s.record ((OpsRun.planFulfillment policy sha256 (w + 1) s).take k))
  | casePlan {s : Stores} (journal : Journal sha256 w s)
      (recorded : FulfillmentRecorded policy sha256 crmPlan (w + 1) s) (k : Nat) :
      Move w s (s.record ((OpsRun.planSupportCases sha256 (w + 1) s).take k))
  | fulfillment {s : Stores} {db : OpsDatabase} (journal : Journal sha256 w s)
      (recorded : CasesRecorded policy sha256 crmPlan (w + 1) s)
      (committed : OpsCommits (recordedFulfillment (w + 1) s) s.ops db) :
      Move w s { s with ops := db }
  | opsApplied {s t : Stores} (journal : Journal sha256 w s)
      (done : OpsDone policy sha256 crmPlan (w + 1) s) (moved : Moved (w + 1) [.ops] s t) :
      Move w s t
  | postingPlan {s : Stores} (journal : Journal sha256 w s)
      (done : OpsDone policy sha256 crmPlan (w + 1) s)
      (new : s.control.eventsFor (w + 1) .erp = [])
      (known : missingCompanies s.erp (readOpsInvoices s.ops) = []) (seed : Int) (k : Nat) :
      Move w s (s.record ((ErpRun.planPostings policy sha256 (w + 1) seed s).take k))
  | postings {s : Stores} {events : List BusinessEvent} {db : ErpDatabase}
      (journal : Journal sha256 w s) (done : OpsDone policy sha256 crmPlan (w + 1) s)
      (same : ∀ event, event ∈ events ↔ event ∈ s.control.eventsFor (w + 1) .erp)
      (committed : ErpCommits events s.erp db) :
      Move w s { s with erp := db }
  | erpApplied {s t : Stores} (journal : Journal sha256 w s)
      (done : OpsDone policy sha256 crmPlan (w + 1) s) (marked : ErpMarked (w + 1) s)
      (moved : Moved (w + 1) [.erp] s t) :
      Move w s t
  | completed {s : Stores} (journal : Journal sha256 w s)
      (done : OpsDone policy sha256 crmPlan (w + 1) s) (marked : ErpMarked (w + 1) s) :
      Move w s (s.complete (w + 1))

/-- Where a transaction of the day after `w` can meet a collision of ids or a
broken uniqueness constraint. -/
inductive Doubling (w : Nat) (s : Stores) : Prop
  | orders (journal : Journal sha256 w s) (settled : OrdersSettled policy sha256 (w + 1) s)
      (unready : ¬ ∃ foreign, OpsSound foreign s.ops ∧
        Ready foreign (recordedOrders (w + 1) s) s.ops)
  | fulfillment (journal : Journal sha256 w s)
      (recorded : CasesRecorded policy sha256 crmPlan (w + 1) s)
      (unready : ¬ ∃ foreign, OpsSound foreign s.ops ∧
        Ready foreign (recordedFulfillment (w + 1) s) s.ops)
  | postings (journal : Journal sha256 w s) (done : OpsDone policy sha256 crmPlan (w + 1) s)
      (unready : ¬ ErpReady (s.control.eventsFor (w + 1) .erp) s.erp)

end Moves

end Simulator
end Northwind
