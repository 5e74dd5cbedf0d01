import Northwind.Simulator.PlacedOrders

/-!
# Where the recorded shipments come from

Fulfillment is planned anew by every attempt at a day.  Once the orders of the
day are applied, the shipments of the plan stay the same until they are applied
too: so every recorded shipment is in the database or is one of that plan, no two
of them have one id or one order, and each is of a recorded order.
-/

namespace Northwind
namespace Simulator

open CrashPrograms SimulationState OpsEventApplier

variable {policy : SimulationPolicy} {sha256 : Sha256} {crmPlan : Nat → List CrmChange}
variable {w d : Nat} {s t : Stores} {event event' : BusinessEvent}

/-! ## The plan of the shipments -/

namespace OpsRun

/-- The shipments of `_plan_fulfillment`. -/
def planShipments (policy : SimulationPolicy) (sha256 : Sha256) (runDate : Nat)
    (stores : Stores) : List BusinessEvent :=
  let events := stores.control.eventsThrough runDate .ops
  FulfillmentPlanner.shipments policy sha256 runDate events
    (shipped stores.ops (orderIds events))
    (nextId (stores.ops.shipments.map ShipmentRow.shipmentId))

/-- A shipment event that is recorded or planned. -/
structure Shipped (policy : SimulationPolicy) (sha256 : Sha256) (d : Nat) (s : Stores)
    (event : BusinessEvent) (shipment : ShipmentCreated) : Prop where
  known : event ∈ s.control.eventsThrough d .ops ∨ event ∈ planShipments policy sha256 d s
  body : event.body = .shipmentCreated shipment

theorem mem_planFulfillment :
    event ∈ planFulfillment policy sha256 d s ↔
      event ∈ planShipments policy sha256 d s ∨
      (∃ shipped shipment, Shipped policy sha256 d s shipped shipment ∧
        shipment.orderId ∉ invoiced s.ops (orderIds (s.control.eventsThrough d .ops)) ∧
        shipped.businessDate + FulfillmentPlanner.invoiceDelay policy sha256 shipped ≤ d ∧
        event = sha256.createEvent d
          (.invoiceCreated (FulfillmentPlanner.invoiceOf policy sha256 shipped shipment))) ∨
      (∃ shipped shipment, Shipped policy sha256 d s shipped shipment ∧
        shipment.shipmentId ∉ delivered s.ops (orderIds (s.control.eventsThrough d .ops)) ∧
        shipped.businessDate + FulfillmentPlanner.deliveryDelay policy sha256 shipped ≤ d ∧
        event = sha256.createEvent d
          (.shipmentDelivered (FulfillmentPlanner.deliveryOf policy sha256 shipped shipment))) := by
  rw [planFulfillment, FulfillmentPlanner.plan, List.mem_append, List.mem_append,
    FulfillmentPlanner.mem_invoices, FulfillmentPlanner.mem_deliveries, or_assoc]
  refine or_congr_right (or_congr ?_ ?_)
  · refine exists_congr fun shipped => exists_congr fun shipment => ?_
    constructor
    · rintro ⟨hknown, hbody, hrest⟩
      exact ⟨⟨hknown, hbody⟩, hrest⟩
    · rintro ⟨hshipped, hrest⟩
      exact ⟨hshipped.known, hshipped.body, hrest⟩
  · refine exists_congr fun shipped => exists_congr fun shipment => ?_
    rw [List.mem_append]
    constructor
    · rintro ⟨hknown, hbody, hrest⟩
      exact ⟨⟨hknown, hbody⟩, hrest⟩
    · rintro ⟨hshipped, hrest⟩
      exact ⟨hshipped.known, hshipped.body, hrest⟩

theorem mem_orderIds {events : List BusinessEvent} {order : OrderCreated}
    (hmem : event ∈ events) (hbody : event.body = .orderCreated order) :
    order.orderId ∈ orderIds events :=
  List.mem_filterMap.mpr ⟨event, hmem, by rw [hbody]⟩

theorem mem_shipped {order : OrderCreated} (hmem : event ∈ s.control.eventsThrough d .ops)
    (hbody : event.body = .orderCreated order) :
    order.orderId ∈ shipped s.ops (orderIds (s.control.eventsThrough d .ops)) ↔
      order.orderId ∈ s.ops.shipments.map ShipmentRow.orderId := by
  rw [shipped, List.mem_filter, and_iff_left]
  exact decide_eq_true (mem_orderIds hmem hbody)

/-- The order events that are due and have no shipment, in the order of their ids. -/
def shippable (policy : SimulationPolicy) (sha256 : Sha256) (d : Nat) (s : Stores) :
    List BusinessEvent :=
  sortedById ((s.control.eventsThrough d .ops).filter
    (FulfillmentPlanner.isEligible policy sha256 d
      (shipped s.ops (orderIds (s.control.eventsThrough d .ops)))))

theorem mem_shippable : event ∈ shippable policy sha256 d s ↔
    event ∈ s.control.events ∧ event.businessDate ≤ d ∧ event.source = .ops ∧
      ∃ order, event.body = .orderCreated order ∧
        order.orderId ∉ s.ops.shipments.map ShipmentRow.orderId ∧
        event.businessDate + FulfillmentPlanner.shipmentDelay policy sha256 event ≤ d := by
  rw [shippable, mem_sortedById, List.mem_filter, FulfillmentPlanner.isEligible_iff]
  constructor
  · rintro ⟨hmem, order, hbody, hnew, hdue⟩
    obtain ⟨hrecorded, hdate, hsource⟩ := mem_eventsThrough.mp hmem
    exact ⟨hrecorded, hdate, hsource, order, hbody, (mem_shipped hmem hbody).not.mp hnew, hdue⟩
  · rintro ⟨hrecorded, hdate, hsource, order, hbody, hnew, hdue⟩
    have hmem := mem_eventsThrough.mpr ⟨hrecorded, hdate, hsource⟩
    exact ⟨hmem, order, hbody, (mem_shipped hmem hbody).not.mpr hnew, hdue⟩

theorem nodup_shippable (hs : WellRecorded sha256 s.control) :
    ((shippable policy sha256 d s).map SimulationEvent.eventId).Nodup := by
  refine (List.Perm.nodup_iff ((List.perm_insertionSort _ _).map _)).mpr ?_
  exact hs.nodup_eventsThrough.sublist (List.filter_sublist.map _)

/-- A planned shipment: the number of its order event is the offset of its id. -/
theorem mem_planShipments : event ∈ planShipments policy sha256 d s ↔
    ∃ i orderEvent order, (shippable policy sha256 d s)[i]? = some orderEvent ∧
      orderEvent.body = .orderCreated order ∧
      event = sha256.createEvent d (.shipmentCreated
        (FulfillmentPlanner.shipmentOf policy sha256
          (nextId (s.ops.shipments.map ShipmentRow.shipmentId) + i) orderEvent order)) :=
  FulfillmentPlanner.mem_shipments

/-- A planned shipment has an id and an order that no shipment has. -/
theorem planned_shipment {shipment : ShipmentCreated}
    (h : event ∈ planShipments policy sha256 d s) (hbody : event.body = .shipmentCreated shipment) :
    shipment.shipmentId ∉ s.ops.shipments.map ShipmentRow.shipmentId ∧
      shipment.orderId ∉ s.ops.shipments.map ShipmentRow.orderId ∧
      ∃ orderEvent order, orderEvent ∈ s.control.events ∧
        orderEvent.body = .orderCreated order ∧ order.orderId = shipment.orderId := by
  obtain ⟨i, orderEvent, order, hget, horder, rfl⟩ := mem_planShipments.mp h
  obtain rfl := EventBody.shipmentCreated.inj hbody
  obtain ⟨hmem, _, _, order', horder', hnew, _⟩ := mem_shippable.mp (List.mem_of_getElem? hget)
  obtain rfl := EventBody.orderCreated.inj (horder.symm.trans horder')
  refine ⟨fun hid => ?_, hnew, orderEvent, order, hmem, horder, rfl⟩
  have := lt_nextId hid
  simp only [FulfillmentPlanner.shipmentOf] at this
  omega

/-- Two planned shipments of one id or one order are one. -/
theorem eq_of_planned_shipment {shipment shipment' : ShipmentCreated}
    (hs : WellRecorded sha256 s.control) (hplaced : OrdersPlaced policy sha256 crmPlan w s)
    (h : event ∈ planShipments policy sha256 d s) (h' : event' ∈ planShipments policy sha256 d s)
    (hbody : event.body = .shipmentCreated shipment)
    (hbody' : event'.body = .shipmentCreated shipment')
    (hclash : shipment.shipmentId = shipment'.shipmentId ∨ shipment.orderId = shipment'.orderId) :
    event = event' := by
  obtain ⟨i, orderEvent, order, hget, horder, rfl⟩ := mem_planShipments.mp h
  obtain ⟨i', orderEvent', order', hget', horder', rfl⟩ := mem_planShipments.mp h'
  obtain rfl := EventBody.shipmentCreated.inj hbody
  obtain rfl := EventBody.shipmentCreated.inj hbody'
  rcases hclash with hid | hid
  · simp only [FulfillmentPlanner.shipmentOf, Nat.add_left_cancel_iff] at hid
    obtain rfl := hid
    obtain rfl := Option.some.inj (hget.symm.trans hget')
    obtain rfl := EventBody.orderCreated.inj (horder.symm.trans horder')
    rfl
  · have hmem := (mem_shippable.mp (List.mem_of_getElem? hget)).1
    have hmem' := (mem_shippable.mp (List.mem_of_getElem? hget')).1
    obtain rfl := hplaced.distinct orderEvent hmem orderEvent' hmem' order horder order' horder' hid
    obtain rfl := EventBody.orderCreated.inj (horder.symm.trans horder')
    have hlt := (List.getElem?_eq_some_iff.mp hget).1
    obtain rfl := (List.getElem?_inj hlt (nodup_shippable hs).of_map).mp (hget.trans hget'.symm)
    rfl

end OpsRun

/-! ## Moves that leave the shipments alone -/

def isShipmentCreated (event : BusinessEvent) : Prop :=
  ∃ shipment, event.body = .shipmentCreated shipment

/-- The stores agree in the shipments that are recorded, applied or marked. -/
structure SameShipments (s t : Stores) : Prop where
  events : ∀ event, isShipmentCreated event →
    (event ∈ t.control.events ↔ event ∈ s.control.events)
  keys : t.ops.shipmentKeys = s.ops.shipmentKeys
  marks : ∀ event, event ∈ s.control.events → isShipmentCreated event →
    (event.eventId ∈ t.ops.appliedEvents ↔ event.eventId ∈ s.ops.appliedEvents)

theorem Moved.sameShipments {applied : List SourceSystem} (h : Moved d applied s t) :
    SameShipments s t where
  events event _ := by rw [h.events]
  keys := by rw [h.ops]
  marks event _ _ := by rw [h.ops]

theorem sameShipments_record {events : List BusinessEvent}
    (h : ∀ event, event ∈ events → ¬ isShipmentCreated event) :
    SameShipments s (s.record events) where
  events event hshipment := by
    refine ⟨fun hmem => ?_, fun hmem => events_subset_insertEvents _ _ hmem⟩
    exact (mem_of_mem_insertEvents hmem).resolve_right fun hnew => h event hnew hshipment
  keys := rfl
  marks _ _ _ := Iff.rfl

theorem not_isShipmentCreated_of_source (hcreated : Created sha256 event)
    (hsource : event.source ≠ .ops) : ¬ isShipmentCreated event := by
  rintro ⟨shipment, hbody⟩
  exact hsource (by rw [hcreated.source_eq, hbody]; rfl)

/-- The transaction of the orders changes no shipment. -/
theorem sameShipments_orders {events : List BusinessEvent} {db : OpsDatabase}
    (hs : Journal sha256 w s)
    (hsame : ∀ event, event ∈ events ↔ event ∈ recordedOrders (w + 1) s)
    (hcommits : OpsCommits events s.ops db) : SameShipments s { s with ops := db } where
  events _ _ := Iff.rfl
  keys := by
    refine hcommits.effects.1.keeps (P := fun u => u.shipmentKeys = s.ops.shipmentKeys) rfl ?_
    rintro event hmem u v hu ⟨_, applied, _, happlied, _, rfl⟩
    rcases happlied.shipments with hkeys | ⟨shipment, hbody, _⟩
    · exact hkeys.trans hu
    · have horder := (mem_recordedOrders.mp ((hsame event).mp hmem)).2.2.2
      simp [OpsRun.isOrderCreated, hbody] at horder
  marks event hmem hshipment := by
    rw [hs.mem_of_marked (dayEvents_orders hsame) hcommits hmem, or_iff_left]
    intro hmem'
    obtain ⟨shipment, hbody⟩ := hshipment
    have horder := (mem_recordedOrders.mp ((hsame event).mp hmem')).2.2.2
    simp [OpsRun.isOrderCreated, hbody] at horder

/-- The plan of the shipments depends on the order events and on the keys of the
shipment table. -/
theorem planShipments_congr (hs : WellRecorded sha256 s.control)
    (ht : WellRecorded sha256 t.control)
    (horders : ∀ event, OpsRun.isOrderCreated event →
      (event ∈ t.control.events ↔ event ∈ s.control.events))
    (hkeys : t.ops.shipmentKeys = s.ops.shipmentKeys) :
    OpsRun.planShipments policy sha256 d t = OpsRun.planShipments policy sha256 d s := by
  have hshippable : OpsRun.shippable policy sha256 d t = OpsRun.shippable policy sha256 d s := by
    refine sortedById_eq (ht.nodup_eventsThrough.sublist (List.filter_sublist.map _))
      (hs.nodup_eventsThrough.sublist (List.filter_sublist.map _)) fun event => ?_
    have hmem : event ∈ OpsRun.shippable policy sha256 d t ↔
        event ∈ OpsRun.shippable policy sha256 d s := by
      rw [OpsRun.mem_shippable, OpsRun.mem_shippable, shipments_map_orderId,
        shipments_map_orderId, hkeys]
      refine ⟨fun ⟨hmem, hdate, hsource, order, hbody, hrest⟩ => ?_,
        fun ⟨hmem, hdate, hsource, order, hbody, hrest⟩ => ?_⟩
      · exact ⟨(horders event (isOrderCreated_iff.mpr ⟨order, hbody⟩)).mp hmem, hdate,
          hsource, order, hbody, hrest⟩
      · exact ⟨(horders event (isOrderCreated_iff.mpr ⟨order, hbody⟩)).mpr hmem, hdate,
          hsource, order, hbody, hrest⟩
    rwa [OpsRun.shippable, OpsRun.shippable, mem_sortedById, mem_sortedById] at hmem
  change planNumbered (nextId (t.ops.shipments.map ShipmentRow.shipmentId)) _
      (OpsRun.shippable policy sha256 d t) =
    planNumbered (nextId (s.ops.shipments.map ShipmentRow.shipmentId)) _
      (OpsRun.shippable policy sha256 d s)
  rw [hshippable, shipments_map_shipmentId, shipments_map_shipmentId, hkeys]

/-! ## Orders that are done -/

theorem SameOrders.mem_recordedOrders (h : SameOrders s t) :
    event ∈ recordedOrders d t ↔ event ∈ recordedOrders d s := by
  rw [Northwind.Simulator.mem_recordedOrders, Northwind.Simulator.mem_recordedOrders]
  refine ⟨fun ⟨hmem, hdate, hsource, horder⟩ => ?_, fun ⟨hmem, hdate, hsource, horder⟩ => ?_⟩
  · exact ⟨(h.events event horder).mp hmem, hdate, hsource, horder⟩
  · exact ⟨(h.events event horder).mpr hmem, hdate, hsource, horder⟩

theorem SameOrders.recordedOrders_eq_nil (h : SameOrders s t) :
    recordedOrders d t = [] ↔ recordedOrders d s = [] := by
  rw [List.eq_nil_iff_forall_not_mem, List.eq_nil_iff_forall_not_mem]
  exact forall_congr' fun event => not_congr h.mem_recordedOrders

theorem OrdersDone.congr (hs : OrdersDone policy sha256 crmPlan d s) (h : SameOrders s t) :
    OrdersDone policy sha256 crmPlan d t where
  crm := hs.crm.congr (h.crmFor d)
  settled := by
    rw [OrdersSettled, Ne, h.recordedOrders_eq_nil, planOrders_congr (h.crmThrough d) h.keys]
    exact hs.settled
  marked event hmem := by
    have hmem' := h.mem_recordedOrders.mp hmem
    have hrecorded := Northwind.Simulator.mem_recordedOrders.mp hmem'
    exact (h.marks event hrecorded.1 hrecorded.2.2.2).mpr (hs.marked event hmem')

theorem sameOrders_plan {plan : List BusinessEvent}
    (h : ∀ event, event ∈ plan →
      Planned sha256 d .ops event ∧ OpsRun.isFulfillment event) :
    SameOrders s (s.record plan) :=
  sameOrders_record fun event hmem => by
    refine ⟨not_isOrderCreated_of_isFulfillment (h event hmem).2, ?_⟩
    rw [(h event hmem).1.source]
    decide

theorem FulfillmentRecorded.ordersDone (h : FulfillmentRecorded policy sha256 crmPlan d s) :
    OrdersDone policy sha256 crmPlan d s := by
  obtain ⟨p, hdone, rfl⟩ := h
  exact hdone.congr (sameOrders_plan fun _ => planned_planFulfillment)

theorem CasesRecorded.ordersDone (h : CasesRecorded policy sha256 crmPlan d s) :
    OrdersDone policy sha256 crmPlan d s := by
  obtain ⟨p, hrecorded, rfl⟩ := h
  exact hrecorded.ordersDone.congr (sameOrders_plan fun _ => planned_planSupportCases)

/-- Done orders stay done in the transaction that applies them. -/
theorem OrdersDone.apply {events : List BusinessEvent} {db : OpsDatabase}
    (hs : Journal sha256 w s) (h : OrdersDone policy sha256 crmPlan (w + 1) s)
    (hsame : ∀ event, event ∈ events ↔ event ∈ recordedOrders (w + 1) s)
    (hcommits : OpsCommits events s.ops db) :
    OrdersDone policy sha256 crmPlan (w + 1) { s with ops := db } where
  crm := h.crm
  settled := by
    rcases h.settled with hne | hplan
    · exact .inl hne
    · refine .inr ?_
      rw [← hplan]
      refine planOrders_congr rfl ?_
      refine hcommits.effects.1.keeps (P := fun u => u.orderKeys = s.ops.orderKeys ∧
        s.ops.appliedEvents ⊆ u.appliedEvents) ⟨rfl, List.Subset.refl _⟩ ?_ |>.1
      rintro event hmem u v ⟨_, hmarks⟩ ⟨hunmarked, _⟩
      exact absurd (hmarks (h.marked event ((hsame event).mp hmem))) hunmarked
  marked event hmem :=
    (hs.mem_of_marked (dayEvents_orders hsame) hcommits (mem_recordedOrders.mp hmem).1).mpr
      (.inl (h.marked event hmem))

/-! ## Recorded shipments -/

/-- Every recorded shipment is in the database, or one of the plan that stands. -/
structure ShipmentsPlaced (policy : SimulationPolicy) (sha256 : Sha256)
    (crmPlan : Nat → List CrmChange) (w : Nat) (s : Stores) : Prop where
  started : ∀ event, event ∈ s.control.events → event.businessDate = w + 1 →
    OpsRun.isFulfillment event → OrdersDone policy sha256 crmPlan (w + 1) s
  placed : ∀ event, event ∈ s.control.events → ∀ shipment,
    event.body = .shipmentCreated shipment → event.eventId ∈ s.ops.appliedEvents →
      (shipment.shipmentId, shipment.orderId) ∈ s.ops.shipmentKeys
  planned : ∀ event, event ∈ s.control.events → isShipmentCreated event →
    event.eventId ∉ s.ops.appliedEvents → event ∈ OpsRun.planShipments policy sha256 (w + 1) s
  ordered : ∀ event, event ∈ s.control.events → ∀ shipment,
    event.body = .shipmentCreated shipment →
      ∃ orderEvent order, orderEvent ∈ s.control.events ∧
        orderEvent.body = .orderCreated order ∧ order.orderId = shipment.orderId
  invoiced : ∀ event, event ∈ s.control.events → ∀ invoice,
    event.body = .invoiceCreated invoice →
      ∃ orderEvent order, orderEvent ∈ s.control.events ∧
        orderEvent.body = .orderCreated order ∧ order.orderId = invoice.orderId
  distinct : ∀ event, event ∈ s.control.events → ∀ event', event' ∈ s.control.events →
    ∀ shipment, event.body = .shipmentCreated shipment →
    ∀ shipment', event'.body = .shipmentCreated shipment' →
      (shipment.shipmentId = shipment'.shipmentId ∨ shipment.orderId = shipment'.orderId) →
        event = event'

theorem mem_shipments_of_key {db : OpsDatabase} {shipmentId orderId : Nat}
    (h : (shipmentId, orderId) ∈ db.shipmentKeys) :
    shipmentId ∈ db.shipments.map ShipmentRow.shipmentId ∧
      orderId ∈ db.shipments.map ShipmentRow.orderId := by
  rw [shipments_map_shipmentId, shipments_map_orderId]
  exact ⟨List.mem_map_of_mem h, List.mem_map_of_mem h⟩

/-- Shipments that are in the database or planned are told apart by their ids and
by their orders. -/
theorem distinct_of_placed_or_planned {shipment shipment' : ShipmentCreated}
    (hs : WellRecorded sha256 s.control) (hplaced : OrdersPlaced policy sha256 crmPlan w s)
    (h : ShipmentsPlaced policy sha256 crmPlan w s)
    (hmem : (event ∈ s.control.events ∧ event.eventId ∈ s.ops.appliedEvents) ∨
      event ∈ OpsRun.planShipments policy sha256 d s)
    (hmem' : (event' ∈ s.control.events ∧ event'.eventId ∈ s.ops.appliedEvents) ∨
      event' ∈ OpsRun.planShipments policy sha256 d s)
    (hbody : event.body = .shipmentCreated shipment)
    (hbody' : event'.body = .shipmentCreated shipment')
    (hclash : shipment.shipmentId = shipment'.shipmentId ∨ shipment.orderId = shipment'.orderId) :
    event = event' := by
  have hmixed : ∀ {event event' : BusinessEvent} {shipment shipment' : ShipmentCreated},
      event ∈ s.control.events → event.eventId ∈ s.ops.appliedEvents →
      event' ∈ OpsRun.planShipments policy sha256 d s →
      event.body = .shipmentCreated shipment → event'.body = .shipmentCreated shipment' →
      ¬ (shipment.shipmentId = shipment'.shipmentId ∨ shipment.orderId = shipment'.orderId) := by
    intro event event' shipment shipment' hmem hmarked hplan hbody hbody' hclash
    have hkey := mem_shipments_of_key (h.placed event hmem shipment hbody hmarked)
    have hfree := OpsRun.planned_shipment hplan hbody'
    rcases hclash with hid | hid
    · exact hfree.1 (hid ▸ hkey.1)
    · exact hfree.2.1 (hid ▸ hkey.2)
  rcases hmem with ⟨hmem, hmarked⟩ | hplan <;> rcases hmem' with ⟨hmem', hmarked'⟩ | hplan'
  · exact h.distinct event hmem event' hmem' shipment hbody shipment' hbody' hclash
  · exact absurd hclash (hmixed hmem hmarked hplan' hbody hbody')
  · exact absurd (hclash.imp Eq.symm Eq.symm) (hmixed hmem' hmarked' hplan hbody' hbody)
  · exact OpsRun.eq_of_planned_shipment hs hplaced hplan hplan' hbody hbody' hclash

/-- What keeps the orders and the shipments as they are keeps them placed. -/
theorem ShipmentsPlaced.congr (hs : WellRecorded sha256 s.control)
    (ht : WellRecorded sha256 t.control) (h : ShipmentsPlaced policy sha256 crmPlan w s)
    (horders : ∀ event, OpsRun.isOrderCreated event →
      (event ∈ t.control.events ↔ event ∈ s.control.events))
    (hsame : SameShipments s t)
    (hinvoices : ∀ event, event ∈ t.control.events → ∀ invoice,
      event.body = .invoiceCreated invoice → event ∈ s.control.events)
    (hstarted : ∀ event, event ∈ t.control.events → event.businessDate = w + 1 →
      OpsRun.isFulfillment event → OrdersDone policy sha256 crmPlan (w + 1) t) :
    ShipmentsPlaced policy sha256 crmPlan w t where
  started := hstarted
  placed event hmem shipment hbody hmarked := by
    have hmem := (hsame.events event ⟨shipment, hbody⟩).mp hmem
    rw [hsame.keys]
    exact h.placed event hmem shipment hbody
      ((hsame.marks event hmem ⟨shipment, hbody⟩).mp hmarked)
  planned event hmem hshipment hunmarked := by
    have hmem := (hsame.events event hshipment).mp hmem
    rw [planShipments_congr hs ht horders hsame.keys]
    exact h.planned event hmem hshipment fun hmarked =>
      hunmarked ((hsame.marks event hmem hshipment).mpr hmarked)
  ordered event hmem shipment hbody := by
    have hmem := (hsame.events event ⟨shipment, hbody⟩).mp hmem
    obtain ⟨orderEvent, order, hrecorded, horder, hid⟩ := h.ordered event hmem shipment hbody
    exact ⟨orderEvent, order, (horders orderEvent (isOrderCreated_iff.mpr ⟨order, horder⟩)).mpr
      hrecorded, horder, hid⟩
  invoiced event hmem invoice hbody := by
    obtain ⟨orderEvent, order, hrecorded, horder, hid⟩ :=
      h.invoiced event (hinvoices event hmem invoice hbody) invoice hbody
    exact ⟨orderEvent, order, (horders orderEvent (isOrderCreated_iff.mpr ⟨order, horder⟩)).mpr
      hrecorded, horder, hid⟩
  distinct event hmem event' hmem' shipment hbody shipment' hbody' :=
    h.distinct event ((hsame.events event ⟨shipment, hbody⟩).mp hmem) event'
      ((hsame.events event' ⟨shipment', hbody'⟩).mp hmem') shipment hbody shipment' hbody'

/-- Where no shipment waits for its marker, events that are no fulfillment may be
recorded. -/
theorem ShipmentsPlaced.record (hs : Journal sha256 w s)
    (h : ShipmentsPlaced policy sha256 crmPlan w s) {events : List BusinessEvent}
    (hevents : ∀ event, event ∈ events → ¬ OpsRun.isFulfillment event)
    (hnone : ∀ event, event ∈ s.control.events → event.businessDate = w + 1 →
      ¬ OpsRun.isFulfillment event) :
    ShipmentsPlaced policy sha256 crmPlan w (s.record events) := by
  have hold : ∀ event, event ∈ (s.record events).control.events →
      OpsRun.isFulfillment event → event ∈ s.control.events := fun event hmem hkind =>
    (mem_of_mem_insertEvents hmem).resolve_right fun hnew => hevents event hnew hkind
  have hshipment : ∀ {event : BusinessEvent} {shipment : ShipmentCreated},
      event.body = .shipmentCreated shipment → OpsRun.isFulfillment event := fun hbody => by
    simp [OpsRun.isFulfillment, hbody]
  have hsubset : s.control.events ⊆ (s.record events).control.events :=
    events_subset_insertEvents _ _
  refine ⟨fun event hmem hdate hkind => absurd hkind (hnone event (hold event hmem hkind) hdate),
    fun event hmem shipment hbody => h.placed event (hold event hmem (hshipment hbody)) shipment
      hbody, fun event hmem hkind hunmarked => ?_, fun event hmem shipment hbody => ?_,
    fun event hmem invoice hbody => ?_, fun event hmem event' hmem' shipment hbody shipment'
      hbody' => h.distinct event (hold event hmem (hshipment hbody)) event'
        (hold event' hmem' (hshipment hbody')) shipment hbody shipment' hbody'⟩
  · obtain ⟨shipment, hbody⟩ := hkind
    have hmem := hold event hmem (hshipment hbody)
    have hsource := source_of_isFulfillment (hs.recorded.created event hmem) (hshipment hbody)
    exact absurd (hshipment hbody)
      (hnone event hmem (hs.date_of_unmarked hmem hsource hunmarked))
  · obtain ⟨orderEvent, order, hrecorded, hrest⟩ :=
      h.ordered event (hold event hmem (hshipment hbody)) shipment hbody
    exact ⟨orderEvent, order, hsubset hrecorded, hrest⟩
  · have hkind : OpsRun.isFulfillment event := by simp [OpsRun.isFulfillment, hbody]
    obtain ⟨orderEvent, order, hrecorded, hrest⟩ :=
      h.invoiced event (hold event hmem hkind) invoice hbody
    exact ⟨orderEvent, order, hsubset hrecorded, hrest⟩

/-- The recorded part of a fulfillment plan keeps the shipments placed. -/
theorem ShipmentsPlaced.recordFulfillment (hinjective : sha256.Injective)
    (hs : Journal sha256 w s) (hplaced : OrdersPlaced policy sha256 crmPlan w s)
    (h : ShipmentsPlaced policy sha256 crmPlan w s)
    (hdone : OrdersDone policy sha256 crmPlan (w + 1) s) (k : Nat) :
    ShipmentsPlaced policy sha256 crmPlan w
      (s.record ((OpsRun.planFulfillment policy sha256 (w + 1) s).take k)) := by
  have horders : SameOrders s
      (s.record ((OpsRun.planFulfillment policy sha256 (w + 1) s).take k)) :=
    sameOrders_recordFulfillment k fun _ => planned_planFulfillment
  have hjournal := journal_record (OpsRun.planFulfillment policy sha256 (w + 1) s) hs
    (fun _ hmem => (planned_planFulfillment hmem).1) k
  have hsamePlan : OpsRun.planShipments policy sha256 (w + 1) (s.record _) =
      OpsRun.planShipments policy sha256 (w + 1) s :=
    planShipments_congr hs.recorded hjournal.recorded horders.events rfl
  have hsubset : s.control.events ⊆
      (s.record ((OpsRun.planFulfillment policy sha256 (w + 1) s).take k)).control.events :=
    events_subset_insertEvents _ _
  have hsplit : ∀ event, event ∈ (s.record ((OpsRun.planFulfillment policy sha256 (w + 1) s).take
      k)).control.events → event ∈ s.control.events ∨ (event ∉ s.control.events ∧
        event ∈ OpsRun.planFulfillment policy sha256 (w + 1) s) := by
    intro event hmem
    by_cases hmem' : event ∈ s.control.events
    · exact .inl hmem'
    · exact .inr ⟨hmem', List.mem_of_mem_take
        ((mem_of_mem_insertEvents hmem).resolve_left hmem')⟩
  have hshipment : ∀ {event : BusinessEvent} {shipment : ShipmentCreated},
      event.body = .shipmentCreated shipment →
      event ∈ OpsRun.planFulfillment policy sha256 (w + 1) s →
        event ∈ OpsRun.planShipments policy sha256 (w + 1) s := by
    intro event shipment hbody hplan
    rcases OpsRun.mem_planFulfillment.mp hplan with hplan | ⟨_, _, _, _, _, rfl⟩ |
      ⟨_, _, _, _, _, rfl⟩
    · exact hplan
    · cases hbody
    · cases hbody
  -- every recorded shipment has its marker or is planned
  have hknown : ∀ {event : BusinessEvent} {shipment : ShipmentCreated},
      event ∈ (s.record ((OpsRun.planFulfillment policy sha256 (w + 1) s).take
        k)).control.events → event.body = .shipmentCreated shipment →
      (event ∈ s.control.events ∧ event.eventId ∈ s.ops.appliedEvents) ∨
        event ∈ OpsRun.planShipments policy sha256 (w + 1) s := by
    intro event shipment hmem hbody
    rcases hsplit event hmem with hmem | ⟨_, hplan⟩
    · by_cases hmarked : event.eventId ∈ s.ops.appliedEvents
      · exact .inl ⟨hmem, hmarked⟩
      · exact .inr (h.planned event hmem ⟨shipment, hbody⟩ hmarked)
    · exact .inr (hshipment hbody hplan)
  have hordered : ∀ {event : BusinessEvent} {shipment : ShipmentCreated},
      (event ∈ s.control.events ∨ event ∈ OpsRun.planShipments policy sha256 (w + 1) s) →
      event.body = .shipmentCreated shipment → ∃ orderEvent order,
        orderEvent ∈ s.control.events ∧ orderEvent.body = .orderCreated order ∧
          order.orderId = shipment.orderId := by
    rintro event shipment (hmem | hplan) hbody
    · exact h.ordered event hmem shipment hbody
    · exact (OpsRun.planned_shipment hplan hbody).2.2
  refine ⟨fun _ _ _ _ => hdone.congr horders, fun event hmem shipment hbody hmarked => ?_,
    fun event hmem hkind hunmarked => ?_, fun event hmem shipment hbody => ?_,
    fun event hmem invoice hbody => ?_,
    fun event hmem event' hmem' shipment hbody shipment' hbody' => ?_⟩
  · rcases hsplit event hmem with hmem | ⟨hmem, hplan⟩
    · exact h.placed event hmem shipment hbody hmarked
    · have hcreated := (planned_planFulfillment hplan).1
      have hunmarked := hs.not_mem_opsMarks hinjective hcreated.created hcreated.source hmem
      exact absurd hmarked hunmarked
  · obtain ⟨shipment, hbody⟩ := hkind
    rw [hsamePlan]
    rcases hknown hmem hbody with ⟨_, hmarked⟩ | hplan
    · exact absurd hmarked hunmarked
    · exact hplan
  · have hmem' : event ∈ s.control.events ∨
        event ∈ OpsRun.planShipments policy sha256 (w + 1) s :=
      (hsplit event hmem).imp_right fun hplan => hshipment hbody hplan.2
    obtain ⟨orderEvent, order, hrecorded, hrest⟩ := hordered hmem' hbody
    exact ⟨orderEvent, order, hsubset hrecorded, hrest⟩
  · rcases hsplit event hmem with hmem | ⟨_, hplan⟩
    · obtain ⟨orderEvent, order, hrecorded, hrest⟩ := h.invoiced event hmem invoice hbody
      exact ⟨orderEvent, order, hsubset hrecorded, hrest⟩
    · rcases OpsRun.mem_planFulfillment.mp hplan with hplan | ⟨shipped, shipment, hshipped, _, _,
        rfl⟩ | ⟨_, _, _, _, _, rfl⟩
      · obtain ⟨_, _, _, _, _, rfl⟩ := OpsRun.mem_planShipments.mp hplan
        cases hbody
      · obtain rfl := EventBody.invoiceCreated.inj hbody
        obtain ⟨orderEvent, order, hrecorded, hrest⟩ := hordered
          (hshipped.known.imp_left fun hmem => (mem_eventsThrough.mp hmem).1) hshipped.body
        exact ⟨orderEvent, order, hsubset hrecorded, hrest⟩
      · cases hbody
  · exact distinct_of_placed_or_planned hs.recorded hplaced h (hknown hmem hbody)
      (hknown hmem' hbody') hbody hbody'

/-- After its event a shipment has its key. -/
theorem key_of_effect {db db' : OpsDatabase} {shipment : ShipmentCreated}
    (hbody : event.body = .shipmentCreated shipment) (h : Effect event db db') :
    (shipment.shipmentId, shipment.orderId) ∈ db'.shipmentKeys := by
  have hnew : (shipment.shipmentId, shipment.orderId) ∈
      (withShipment event shipment db).shipmentKeys := by
    simp [OpsDatabase.shipmentKeys, withShipment, shipmentRow, ShipmentRow.key]
  cases h with
  | shipmentKnown body known id order =>
      obtain rfl := EventBody.shipmentCreated.inj (hbody.symm.trans body)
      exact List.mem_map.mpr ⟨_, known, by rw [ShipmentRow.key, id, order]⟩
  | shipmentCreated body =>
      obtain rfl := EventBody.shipmentCreated.inj (hbody.symm.trans body)
      exact hnew
  | orderShipped body =>
      obtain rfl := EventBody.shipmentCreated.inj (hbody.symm.trans body)
      exact hnew
  | _ => simp_all

theorem Applied.shipmentKeys_subset {db db' : OpsDatabase} (h : Applied event db db') :
    db.shipmentKeys ⊆ db'.shipmentKeys := by
  rcases h.shipments with hkeys | ⟨shipment, _, _, _, hkeys⟩
  · rw [hkeys]
    exact List.Subset.refl _
  · rw [hkeys]
    exact List.subset_append_left _ _

/-- After their transaction the recorded shipments are in the database. -/
theorem ShipmentsPlaced.apply {db : OpsDatabase} (hs : Journal sha256 w s)
    (h : ShipmentsPlaced policy sha256 crmPlan w s)
    (hdone : OrdersDone policy sha256 crmPlan (w + 1) s)
    (hcommits : OpsCommits (recordedFulfillment (w + 1) s) s.ops db) :
    ShipmentsPlaced policy sha256 crmPlan w { s with ops := db } := by
  refine ⟨fun _ _ _ _ => hdone.congr (sameOrders_fulfillment hs hcommits), ?_,
    fun event hmem hkind hunmarked => ?_, h.ordered, h.invoiced, h.distinct⟩
  · refine hcommits.effects.1.keeps (P := fun u => ∀ event, event ∈ s.control.events →
      ∀ shipment, event.body = .shipmentCreated shipment → event.eventId ∈ u.appliedEvents →
        (shipment.shipmentId, shipment.orderId) ∈ u.shipmentKeys) h.placed ?_
    rintro other hother u v hu ⟨_, applied, heffect, happlied, _, rfl⟩ event hmem shipment hbody
      hmarked
    rcases List.mem_append.mp hmarked with hmarked | hmarked
    · exact happlied.shipmentKeys_subset (hu event hmem shipment hbody hmarked)
    · obtain rfl := hs.recorded.eq_of_eventId hmem (mem_recordedFulfillment.mp hother).1
        (List.mem_singleton.mp hmarked)
      have hkey := key_of_effect hbody heffect
      exact hkey
  · -- no shipment is left without a marker
    obtain ⟨shipment, hbody⟩ := hkind
    have hkind : OpsRun.isFulfillment event := by simp [OpsRun.isFulfillment, hbody]
    have hsource := source_of_isFulfillment (hs.recorded.created event hmem) hkind
    have hunmarked' := (hs.mem_of_marked dayEvents_fulfillment hcommits hmem).not.mp hunmarked
    have hdate := hs.date_of_unmarked hmem hsource fun hmarked => hunmarked' (.inl hmarked)
    exact absurd (.inr (mem_recordedFulfillment.mpr ⟨hmem, hdate, hsource, hkind⟩)) hunmarked'

/-- The rest of the moves: they bring no shipment and no invoice. -/
theorem ShipmentsPlaced.keep (hs : WellRecorded sha256 s.control)
    (ht : WellRecorded sha256 t.control) (h : ShipmentsPlaced policy sha256 crmPlan w s)
    (horders : SameOrders s t) (hsame : SameShipments s t)
    (hinvoices : ∀ event, event ∈ t.control.events → ∀ invoice,
      event.body = .invoiceCreated invoice → event ∈ s.control.events)
    (hdone : ∀ event, event ∈ t.control.events → event.businessDate = w + 1 →
      OpsRun.isFulfillment event → OrdersDone policy sha256 crmPlan (w + 1) s) :
    ShipmentsPlaced policy sha256 crmPlan w t :=
  h.congr hs ht horders.events hsame hinvoices fun event hmem hdate hkind =>
    (hdone event hmem hdate hkind).congr horders

theorem ShipmentsPlaced.moved {applied : List SourceSystem} (hs : Journal sha256 w s)
    (h : ShipmentsPlaced policy sha256 crmPlan w s) (hmoved : Moved (w + 1) applied s t) :
    ShipmentsPlaced policy sha256 crmPlan w t :=
  h.keep hs.recorded (hs.moved hmoved).recorded hmoved.sameOrders hmoved.sameShipments
    (fun _ hmem _ _ => hmoved.events ▸ hmem)
    (fun event hmem hdate hkind => h.started event (hmoved.events ▸ hmem) hdate hkind)

/-- An event of the support-case plan is of a case. -/
theorem isCase_of_planSupportCases (h : event ∈ OpsRun.planSupportCases sha256 d s) :
    (∃ opening, event.body = .supportCaseOpened opening) ∨
      (∃ resolution, event.body = .supportCaseResolved resolution) ∨
        ∃ closure, event.body = .supportCaseClosed closure := by
  rw [OpsRun.planSupportCases, SupportCasePlanner.plan] at h
  rcases List.mem_append.mp h |>.imp_left List.mem_append.mp with (h | h) | h
  · obtain ⟨_, _, opening, _, _, _, rfl⟩ := SupportCasePlanner.mem_openings h
    exact .inl ⟨opening, rfl⟩
  · obtain ⟨_, _, _, _, _, rfl⟩ := SupportCasePlanner.mem_resolutions h
    exact .inr (.inl ⟨_, rfl⟩)
  · obtain ⟨_, _, _, _, _, rfl⟩ := SupportCasePlanner.mem_closures h
    exact .inr (.inr ⟨_, rfl⟩)

theorem ShipmentsPlaced.recordCases (hs : Journal sha256 w s)
    (h : ShipmentsPlaced policy sha256 crmPlan w s)
    (hdone : OrdersDone policy sha256 crmPlan (w + 1) s) (k : Nat) :
    ShipmentsPlaced policy sha256 crmPlan w
      (s.record ((OpsRun.planSupportCases sha256 (w + 1) s).take k)) := by
  have hjournal := journal_record (OpsRun.planSupportCases sha256 (w + 1) s) hs
    (fun _ hmem => (planned_planSupportCases hmem).1) k
  have hcase : ∀ event, event ∈ (OpsRun.planSupportCases sha256 (w + 1) s).take k →
      ¬ isShipmentCreated event ∧ ∀ invoice, event.body ≠ .invoiceCreated invoice := by
    intro event hmem
    rcases isCase_of_planSupportCases (List.mem_of_mem_take hmem) with ⟨_, hbody⟩ | ⟨_, hbody⟩ |
      ⟨_, hbody⟩ <;> simp [isShipmentCreated, hbody]
  refine h.keep hs.recorded hjournal.recorded
    (sameOrders_recordFulfillment k fun _ => planned_planSupportCases)
    (sameShipments_record fun event hmem => (hcase event hmem).1)
    (fun event hmem invoice hbody => ?_) (fun _ _ _ _ => hdone)
  exact (mem_of_mem_insertEvents hmem).resolve_right fun hnew => (hcase event hnew).2 invoice hbody

theorem ShipmentsPlaced.recordPostings {seed : Int} (hs : Journal sha256 w s)
    (h : ShipmentsPlaced policy sha256 crmPlan w s) (k : Nat) :
    ShipmentsPlaced policy sha256 crmPlan w
      (s.record ((ErpRun.planPostings policy sha256 (w + 1) seed s).take k)) := by
  have hjournal := journal_record (ErpRun.planPostings policy sha256 (w + 1) seed s) hs
    (fun _ => planned_planPostings) k
  have hplanned : ∀ event, event ∈ (ErpRun.planPostings policy sha256 (w + 1) seed s).take k →
      Planned sha256 (w + 1) .erp event := fun _ hmem =>
    planned_planPostings (List.mem_of_mem_take hmem)
  have hfulfillment : ∀ event,
      event ∈ (ErpRun.planPostings policy sha256 (w + 1) seed s).take k →
        ¬ OpsRun.isFulfillment event := by
    intro event hmem hkind
    have hsource := source_of_isFulfillment (hplanned event hmem).created hkind
    rw [(hplanned event hmem).source] at hsource
    cases hsource
  have hold : ∀ event, event ∈ (s.record ((ErpRun.planPostings policy sha256 (w + 1) seed s).take
      k)).control.events → OpsRun.isFulfillment event → event ∈ s.control.events :=
    fun event hmem hkind =>
      (mem_of_mem_insertEvents hmem).resolve_right fun hnew => hfulfillment event hnew hkind
  refine h.keep hs.recorded hjournal.recorded (sameOrders_recordPostings k)
    (sameShipments_record fun event hmem => ?_) (fun event hmem invoice hbody => ?_)
    (fun event hmem hdate hkind => h.started event (hold event hmem hkind) hdate hkind)
  · refine not_isShipmentCreated_of_source (hplanned event hmem).created ?_
    rw [(hplanned event hmem).source]
    decide
  · exact hold event hmem (by simp [OpsRun.isFulfillment, hbody])

/-- The recorded orders and shipments are in the database or in the plans that stand. -/
theorem invariant_shipmentsPlaced (hinjective : sha256.Injective) :
    Invariant policy sha256 crmPlan (fun w s => OrdersPlaced policy sha256 crmPlan w s ∧
      ShipmentsPlaced policy sha256 crmPlan w s) := by
  refine (invariant_ordersPlaced hinjective).and (fun w s t horders h hmove ht _ => ?_)
    (fun w s _ h hs hdone _ => ?_)
  · have hs := hmove.before
    -- until the orders are done, no fulfillment of the day is recorded
    have hnone : ¬ OrdersDone policy sha256 crmPlan (w + 1) s → ∀ event,
        event ∈ s.control.events → event.businessDate = w + 1 → ¬ OpsRun.isFulfillment event :=
      fun hnot event hmem hdate hkind => hnot (h.started event hmem hdate hkind)
    cases hmove with
    | control _ moved => exact h.moved hs moved
    | crmPlan _ new k =>
        by_cases hplan : CrmRun.plan sha256 crmPlan (w + 1) = []
        · rw [hplan, List.take_nil]
          exact h
        · refine h.record hs (fun event hmem hkind => ?_)
            (hnone fun hdone => hplan (hdone.crm.plan_eq_nil new))
          obtain ⟨change, _, rfl⟩ := List.mem_map.mp (List.mem_of_mem_take hmem)
          cases hkind
    | crmApplied _ _ moved => exact h.moved hs moved
    | orderPlan _ _ new k =>
        by_cases hplan : OpsRun.planOrders policy sha256 (w + 1) s = []
        · rw [hplan, List.take_nil]
          exact h
        · refine h.record hs (fun event hmem hkind => ?_)
            (hnone fun hdone => hdone.settled.elim (fun hne => hne new) hplan)
          exact not_isOrderCreated_of_isFulfillment hkind
            (planned_planOrders (List.mem_of_mem_take hmem)).2
    | orders _ _ _ same committed =>
        refine h.congr hs.recorded ht.recorded (fun _ _ => Iff.rfl)
          (sameShipments_orders hs same committed) (fun _ hmem _ _ => hmem) ?_
        exact fun event hmem hdate hkind =>
          (h.started event hmem hdate hkind).apply hs same committed
    | fulfillmentPlan _ done k => exact h.recordFulfillment hinjective hs horders done k
    | casePlan _ recorded k => exact h.recordCases hs recorded.ordersDone k
    | fulfillment _ recorded committed => exact h.apply hs recorded.ordersDone committed
    | opsApplied _ _ moved => exact h.moved hs moved
    | postingPlan _ _ _ _ seed k => exact h.recordPostings hs k
    | postings =>
        exact ⟨fun event hmem hdate hkind => (h.started event hmem hdate hkind).congr
          ⟨fun _ => rfl, fun _ => rfl, fun _ _ => Iff.rfl, rfl, fun _ _ _ => Iff.rfl⟩, h.placed,
          h.planned, h.ordered, h.invoiced, h.distinct⟩
    | erpApplied _ _ _ moved => exact h.moved hs moved
    | completed =>
        have hlast := ht.lastCompleted
        simp [Stores.complete] at hlast
  · refine ⟨fun event hmem hdate _ => ?_, h.placed, fun event hmem hkind hunmarked => ?_,
      h.ordered, h.invoiced, h.distinct⟩
    · have := hs.dated event hmem
      omega
    · obtain ⟨shipment, hbody⟩ := hkind
      have hsource := source_of_isFulfillment (hs.recorded.created event hmem)
        (by simp [OpsRun.isFulfillment, hbody])
      exact absurd (hdone.marked event hmem hsource (hs.date_of_unmarked hmem hsource hunmarked))
        hunmarked

theorem Unstarted.shipmentsPlaced {b : Nat} (h : Unstarted b s) :
    ShipmentsPlaced policy sha256 crmPlan b s := by
  constructor <;> simp [h.events]

end Simulator
end Northwind
