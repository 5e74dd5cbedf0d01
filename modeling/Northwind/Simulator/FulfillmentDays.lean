import Northwind.Simulator.WorkedDays

/-!
# Fulfillment comes on its day

A shipment is planned from the date of its order, an invoice and a delivery from
the date of their shipment.  What is due by the watermark is in the database,
whatever crashed on the way, and so a step that is planned was not due the day
before: every one of them comes on the day that its delay names.
-/

namespace Northwind
namespace Simulator

open CrashPrograms CrashPrograms.Program SimulationState OpsEventApplier

variable {policy : SimulationPolicy} {sha256 : Sha256} {crmPlan : Nat → List CrmChange}
variable {w d : Nat} {s t : Stores} {event : BusinessEvent}

/-! ## What a move does to the Ops database -/

theorem Move.keeps_ops {P : OpsDatabase → Prop} (h : Move policy sha256 crmPlan w s t)
    (hs : P s.ops) (hstep : ∀ event db db', P db → EffectStep event db db' → P db') :
    P t.ops := by
  rcases h.ops with hsame | ⟨events, _, hcommits⟩
  · rwa [hsame]
  · exact hcommits.effects.1.keeps hs fun event _ u v => hstep event u v

theorem EffectStep.shipmentKeys_subset {db db' : OpsDatabase} (h : EffectStep event db db') :
    db.shipmentKeys ⊆ db'.shipmentKeys := by
  obtain ⟨_, applied, _, happlied, _, rfl⟩ := h
  exact happlied.shipmentKeys_subset

theorem EffectStep.invoices_subset {db db' : OpsDatabase} (h : EffectStep event db db') :
    db.invoices ⊆ db'.invoices := by
  obtain ⟨_, applied, _, happlied, _, rfl⟩ := h
  change db.invoices ⊆ applied.invoices
  rcases happlied.invoices with hsame | ⟨row, _, _, _, _, hrows⟩
  · rw [hsame]
    exact List.Subset.refl _
  · rw [hrows]
    exact List.subset_append_left _ _

/-- The shipment of this key has been delivered. -/
def OpsDatabase.Delivered (db : OpsDatabase) (key : Nat × Nat) : Prop :=
  ∃ row, row ∈ db.shipments ∧ row.key = key ∧ row.deliveredDate.isSome

/-- A shipment stays delivered. -/
theorem EffectStep.delivered {db db' : OpsDatabase} {key : Nat × Nat}
    (h : EffectStep event db db') (hdelivered : db.Delivered key) : db'.Delivered key := by
  obtain ⟨_, applied, heffect, _, _, rfl⟩ := h
  obtain ⟨row, hrow, hkey, hdate⟩ := hdelivered
  change applied.Delivered key
  have hsame : applied.shipments = db.shipments → applied.Delivered key := fun hrows =>
    ⟨row, hrows ▸ hrow, hkey, hdate⟩
  cases heffect with
  | shipmentCreated => exact ⟨row, List.mem_append_left _ hrow, hkey, hdate⟩
  | orderShipped => exact ⟨row, List.mem_append_left _ hrow, hkey, hdate⟩
  | @shipmentDelivered delivery =>
      refine ⟨_, List.mem_map_of_mem hrow, ?_, ?_⟩
      · split
        · exact hkey
        · exact hkey
      · split
        · rfl
        · exact hdate
  | _ => exact hsame rfl

/-! ## What is in the database -/

/-- What an invoice or a delivery brings. -/
def Brought : EventBody → OpsDatabase → Prop
  | .invoiceCreated invoice, db => invoice.orderId ∈ db.invoices.map InvoiceRow.orderId
  | .shipmentDelivered delivery, db =>
      ∃ row, row ∈ db.shipments ∧ row.shipmentId = delivery.shipmentId ∧ row.deliveredDate.isSome
  | _, _ => True

theorem brought_of_effectStep {db db' : OpsDatabase} (h : EffectStep event db db') :
    Brought event.body db' := by
  obtain ⟨_, applied, heffect, _, _, rfl⟩ := h
  cases hbody : event.body with
  | invoiceCreated invoice =>
      change invoice.orderId ∈ applied.invoices.map InvoiceRow.orderId
      cases heffect with
      | invoiceKnown body known =>
          obtain rfl := EventBody.invoiceCreated.inj (hbody.symm.trans body)
          exact known
      | invoiceCreated body =>
          obtain rfl := EventBody.invoiceCreated.inj (hbody.symm.trans body)
          simp [withInvoice, invoiceRow]
      | orderInvoiced body =>
          obtain rfl := EventBody.invoiceCreated.inj (hbody.symm.trans body)
          simp [advanceOrder, withInvoice, invoiceRow]
      | _ => simp_all
  | shipmentDelivered delivery =>
      change ∃ row, row ∈ applied.shipments ∧ row.shipmentId = delivery.shipmentId ∧
        row.deliveredDate.isSome
      cases heffect with
      | deliveryKnown body known id delivered =>
          obtain rfl := EventBody.shipmentDelivered.inj (hbody.symm.trans body)
          exact ⟨_, known, id, delivered⟩
      | shipmentDelivered body known id =>
          obtain rfl := EventBody.shipmentDelivered.inj (hbody.symm.trans body)
          refine ⟨_, List.mem_map_of_mem known, ?_⟩
          rw [if_pos id]
          exact ⟨id, rfl⟩
      | _ => simp_all
  | _ => trivial

theorem brought_kept {db db' : OpsDatabase} {body : EventBody} (h : EffectStep event db db')
    (hbody : Brought body db) : Brought body db' := by
  cases body with
  | invoiceCreated invoice => exact List.map_subset _ h.invoices_subset hbody
  | shipmentDelivered delivery =>
      obtain ⟨row, hrow, hid, hdate⟩ := hbody
      obtain ⟨row', hrow', hkey, hdate'⟩ := h.delivered ⟨row, hrow, rfl, hdate⟩
      exact ⟨row', hrow', (congrArg Prod.fst hkey).trans hid, hdate'⟩
  | _ => trivial

/-- What is known of the stores of a run besides the days. -/
structure Fulfilling (policy : SimulationPolicy) (sha256 : Sha256)
    (crmPlan : Nat → List CrmChange) (w : Nat) (s : Stores) : Prop where
  orders : OrdersPlaced policy sha256 crmPlan w s
  shipments : ShipmentsPlaced policy sha256 crmPlan w s
  brought : ∀ event, event ∈ s.control.events → event.eventId ∈ s.ops.appliedEvents →
    Brought event.body s.ops
  ids : (s.ops.shipments.map ShipmentRow.shipmentId).Nodup

theorem invariant_fulfilling (hinjective : sha256.Injective) :
    Invariant policy sha256 crmPlan (Fulfilling policy sha256 crmPlan) := by
  have hplaced : Invariant policy sha256 crmPlan (fun w s => OrdersPlaced policy sha256 crmPlan w s ∧
      ShipmentsPlaced policy sha256 crmPlan w s) := invariant_shipmentsPlaced hinjective
  have hinvariant := (hplaced.inter (invariant_brought (B := Brought)
    (fun _ _ _ h => brought_of_effectStep h) fun _ _ _ _ h => brought_kept h)).inter
      invariant_shipmentIds
  refine ⟨fun w s t h hmove ht => ?_, fun w s h hs hdone hmarked => ?_⟩
  · obtain ⟨⟨⟨horders, hshipments⟩, hbrought⟩, hids⟩ := hinvariant.move w s t
      ⟨⟨⟨h.orders, h.shipments⟩, h.brought⟩, h.ids⟩ hmove ht
    exact ⟨horders, hshipments, hbrought, hids⟩
  · obtain ⟨⟨⟨horders, hshipments⟩, hbrought⟩, hids⟩ := hinvariant.complete w s
      ⟨⟨⟨h.orders, h.shipments⟩, h.brought⟩, h.ids⟩ hs hdone hmarked
    exact ⟨horders, hshipments, hbrought, hids⟩

/-- The row of a marked shipment is told by its id. -/
theorem Fulfilling.delivered_of_id {shipment : ShipmentCreated}
    (h : Fulfilling policy sha256 crmPlan w s) (hmem : event ∈ s.control.events)
    (hbody : event.body = .shipmentCreated shipment)
    (hmarked : event.eventId ∈ s.ops.appliedEvents) {row : ShipmentRow}
    (hrow : row ∈ s.ops.shipments) (hid : row.shipmentId = shipment.shipmentId)
    (hdate : row.deliveredDate.isSome) :
    s.ops.Delivered (shipment.shipmentId, shipment.orderId) := by
  obtain ⟨row', hrow', hkey⟩ :=
    List.mem_map.mp (h.shipments.placed event hmem shipment hbody hmarked)
  have hid' : row'.shipmentId = shipment.shipmentId := congrArg Prod.fst hkey
  obtain rfl := List.inj_on_of_nodup_map h.ids hrow hrow' (hid.trans hid'.symm)
  exact ⟨row, hrow, hkey, hdate⟩

/-! ## What is due -/

/-- The shipments, invoices and deliveries that are due by `w` are in the database. -/
structure FulfilledThrough (policy : SimulationPolicy) (sha256 : Sha256) (w : Nat) (s : Stores) :
    Prop where
  shipped : ∀ event, event ∈ s.control.events → ∀ order, event.body = .orderCreated order →
    event.businessDate + FulfillmentPlanner.shipmentDelay policy sha256 event ≤ w →
      order.orderId ∈ s.ops.shipments.map ShipmentRow.orderId
  invoiced : ∀ event, event ∈ s.control.events → ∀ shipment,
    event.body = .shipmentCreated shipment →
    event.businessDate + FulfillmentPlanner.invoiceDelay policy sha256 event ≤ w →
      shipment.orderId ∈ s.ops.invoices.map InvoiceRow.orderId
  delivered : ∀ event, event ∈ s.control.events → ∀ shipment,
    event.body = .shipmentCreated shipment →
    event.businessDate + FulfillmentPlanner.deliveryDelay policy sha256 event ≤ w →
      s.ops.Delivered (shipment.shipmentId, shipment.orderId)

/-- A move records nothing that was due the day before. -/
theorem FulfilledThrough.move (h : FulfilledThrough policy sha256 w s)
    (hmove : Move policy sha256 crmPlan w s t) : FulfilledThrough policy sha256 w t := by
  have hold : ∀ {event : BusinessEvent} {delay : Nat}, event ∈ t.control.events →
      event.businessDate + delay ≤ w → event ∈ s.control.events := by
    intro event delay hmem hdue
    refine (hmove.events.2 event hmem).resolve_right fun hnew => ?_
    omega
  refine ⟨fun event hmem order hbody hdue => ?_, fun event hmem shipment hbody hdue => ?_,
    fun event hmem shipment hbody hdue => ?_⟩
  · have hshipped := h.shipped event (hold hmem hdue) order hbody hdue
    refine hmove.keeps_ops (P := fun db => order.orderId ∈ db.shipments.map ShipmentRow.orderId)
      hshipped fun other db db' hdb hstep => ?_
    rw [shipments_map_orderId] at hdb ⊢
    exact List.map_subset _ hstep.shipmentKeys_subset hdb
  · have hinvoiced := h.invoiced event (hold hmem hdue) shipment hbody hdue
    exact hmove.keeps_ops (P := fun db => shipment.orderId ∈ db.invoices.map InvoiceRow.orderId)
      hinvoiced fun other db db' hdb hstep => List.map_subset _ hstep.invoices_subset hdb
  · have hdelivered := h.delivered event (hold hmem hdue) shipment hbody hdue
    exact hmove.keeps_ops (P := fun db => db.Delivered (shipment.shipmentId, shipment.orderId))
      hdelivered fun other db db' hdb hstep => hstep.delivered hdb

/-! ## The work of a day -/

namespace Work

variable {p q r : Stores} {order : OrderCreated} {shipment : ShipmentCreated}

theorem not_isCase (hkind : ∀ opening, event.body ≠ .supportCaseOpened opening)
    (hkind' : ∀ resolution, event.body ≠ .supportCaseResolved resolution)
    (hkind'' : ∀ closure, event.body ≠ .supportCaseClosed closure) :
    event ∉ OpsRun.planSupportCases sha256 d s := by
  intro hmem
  rcases isCase_of_planSupportCases hmem with ⟨_, hbody⟩ | ⟨_, hbody⟩ | ⟨_, hbody⟩
  · exact hkind _ hbody
  · exact hkind' _ hbody
  · exact hkind'' _ hbody

/-- An order of the day is there when its fulfillment is planned. -/
theorem mem_of_order (h : Work policy sha256 w p q r s) (hinjective : sha256.Injective)
    (hcreated : Created sha256 event) (hmem : event ∈ s.control.events)
    (hbody : event.body = .orderCreated order) : event ∈ p.control.events := by
  have hsource : event.source ≠ .erp := by
    rw [hcreated.source_eq, hbody]
    exact fun hsource => SourceSystem.noConfusion hsource
  have hrecorded := (h.same event hsource).mp hmem
  rcases (h.mem_cases hinjective).mp hrecorded with hrecorded | hplan
  · refine ((h.mem_fulfillment hinjective).mp hrecorded).resolve_right fun hplan => ?_
    have hkind := (planned_planFulfillment hplan).2
    simp [OpsRun.isFulfillment, hbody] at hkind
  · have hkind := (planned_planSupportCases hplan).2
    simp [OpsRun.isFulfillment, hbody] at hkind

/-- A shipment is there, or it is one of the plan. -/
theorem shipped (h : Work policy sha256 w p q r s) (hinjective : sha256.Injective)
    (hcreated : Created sha256 event) (hmem : event ∈ s.control.events)
    (hbody : event.body = .shipmentCreated shipment) :
    OpsRun.Shipped policy sha256 (w + 1) p event shipment := by
  have hsource : event.source = .ops := by
    rw [hcreated.source_eq, hbody]
    rfl
  have hrecorded := (h.same event (by simp [hsource])).mp hmem
  have hdate := h.journal.dated event hrecorded
  refine ⟨?_, hbody⟩
  rcases (h.mem_cases hinjective).mp hrecorded with hrecorded | hplan
  · rcases (h.mem_fulfillment hinjective).mp hrecorded with hrecorded | hplan
    · exact .inl (mem_eventsThrough.mpr ⟨hrecorded, hdate, hsource⟩)
    · rcases OpsRun.mem_planFulfillment.mp hplan with hplan | ⟨_, _, _, _, _, rfl⟩ |
        ⟨_, _, _, _, _, rfl⟩
      · exact .inr hplan
      · cases hbody
      · cases hbody
  · refine absurd hplan (not_isCase ?_ ?_ ?_)
    all_goals simp [hbody]

/-- What was planned is recorded and marked. -/
theorem planned (h : Work policy sha256 w p q r s) (hinjective : sha256.Injective)
    (hplan : event ∈ OpsRun.planFulfillment policy sha256 (w + 1) p) :
    event ∈ s.control.events ∧ event.eventId ∈ s.ops.appliedEvents := by
  obtain ⟨hplanned, hkind⟩ := planned_planFulfillment hplan
  have hrecorded := (h.mem_cases hinjective).mpr
    (.inl ((h.mem_fulfillment hinjective).mpr (.inr hplan)))
  refine ⟨(h.same event (by simp [hplanned.source])).mpr hrecorded, ?_⟩
  exact h.committed.effects.2 event
    (mem_recordedFulfillment.mpr ⟨hrecorded, hplanned.businessDate, hplanned.source, hkind⟩)

theorem keeps_ops {P : OpsDatabase → Prop} (h : Work policy sha256 w p q r s) (hp : P p.ops)
    (hstep : ∀ event db db', P db → EffectStep event db db' → P db') : P s.ops :=
  h.committed.effects.1.keeps (h.ops_planned ▸ hp) fun event _ u v => hstep event u v

end Work

/-- The work of a day does what is due on it. -/
theorem fulfilledThrough_of_work (hinjective : sha256.Injective)
    (h : Fulfilling policy sha256 crmPlan (w + 1) s) (hs : Journal sha256 (w + 1) s)
    (hworked : WorkedOff policy sha256 w s) : FulfilledThrough policy sha256 (w + 1) s := by
  obtain ⟨p, q, r, hwork⟩ := hworked
  refine ⟨fun event hmem order hbody hdue => ?_, fun event hmem shipment hbody hdue => ?_,
    fun event hmem shipment hbody hdue => ?_⟩
  · have hcreated := hs.recorded.created event hmem
    by_cases hknown : order.orderId ∈ p.ops.shipments.map ShipmentRow.orderId
    · refine hwork.keeps_ops (P := fun db =>
        order.orderId ∈ db.shipments.map ShipmentRow.orderId) hknown fun other db db' hdb hstep => ?_
      rw [shipments_map_orderId] at hdb ⊢
      exact List.map_subset _ hstep.shipmentKeys_subset hdb
    · have hsource : event.source = .ops := by
        rw [hcreated.source_eq, hbody]
        rfl
      have hshippable : event ∈ OpsRun.shippable policy sha256 (w + 1) p :=
        OpsRun.mem_shippable.mpr ⟨hwork.mem_of_order hinjective hcreated hmem hbody, by omega,
          hsource, order, hbody, hknown, hdue⟩
      obtain ⟨i, hget⟩ := List.getElem?_of_mem hshippable
      have hplan := OpsRun.mem_planFulfillment.mpr
        (.inl (OpsRun.mem_planShipments.mpr ⟨i, event, order, hget, hbody, rfl⟩))
      obtain ⟨hrecorded, hmarked⟩ := hwork.planned hinjective hplan
      exact (mem_shipments_of_key (h.shipments.placed _ hrecorded _ rfl hmarked)).2
  · have hshipped := hwork.shipped hinjective (hs.recorded.created event hmem) hmem hbody
    by_cases hknown : shipment.orderId ∈
        OpsRun.invoiced p.ops (OpsRun.orderIds (p.control.eventsThrough (w + 1) .ops))
    · have hinvoiced := (List.mem_filter.mp hknown).1
      exact hwork.keeps_ops (P := fun db =>
        shipment.orderId ∈ db.invoices.map InvoiceRow.orderId) hinvoiced
          fun other db db' hdb hstep => List.map_subset _ hstep.invoices_subset hdb
    · have hplan := OpsRun.mem_planFulfillment.mpr
        (.inr (.inl ⟨event, shipment, hshipped, hknown, hdue, rfl⟩))
      obtain ⟨hrecorded, hmarked⟩ := hwork.planned hinjective hplan
      exact h.brought _ hrecorded hmarked
  · have hcreated := hs.recorded.created event hmem
    have hsource : event.source = .ops := by
      rw [hcreated.source_eq, hbody]
      rfl
    have hmarkedShipment := hs.opsMarked event hmem hsource (by omega)
    have hshipped := hwork.shipped hinjective hcreated hmem hbody
    by_cases hknown : shipment.shipmentId ∈
        OpsRun.delivered p.ops (OpsRun.orderIds (p.control.eventsThrough (w + 1) .ops))
    · obtain ⟨row, hrow, hid⟩ := List.mem_map.mp hknown
      obtain ⟨hrow, hcondition⟩ := List.mem_filter.mp hrow
      rw [Bool.and_eq_true] at hcondition
      obtain ⟨row', hrow', hkey, hdate⟩ := hwork.keeps_ops
        (P := fun db => db.Delivered row.key) ⟨row, hrow, rfl, hcondition.2⟩
          fun other db db' hdb hstep => hstep.delivered hdb
      exact h.delivered_of_id hmem hbody hmarkedShipment hrow'
        ((congrArg Prod.fst hkey).trans hid) hdate
    · have hplan := OpsRun.mem_planFulfillment.mpr
        (.inr (.inr ⟨event, shipment, hshipped, hknown, hdue, rfl⟩))
      obtain ⟨hrecorded, hmarked⟩ := hwork.planned hinjective hplan
      obtain ⟨row, hrow, hid, hdate⟩ := h.brought _ hrecorded hmarked
      exact h.delivered_of_id hmem hbody hmarkedShipment hrow hid hdate

/-! ## The days of the events -/

/-- A shipment, an invoice or a delivery. -/
def isDispatch (event : BusinessEvent) : Prop :=
  match event.body with
  | .shipmentCreated _ | .invoiceCreated _ | .shipmentDelivered _ => True
  | _ => False

/-- Every recorded shipment, invoice and delivery is the one of its order or its shipment, on
the day that the delay counted from there names. -/
structure OnDueDays (policy : SimulationPolicy) (sha256 : Sha256) (s : Stores) : Prop where
  shipments : ∀ event, event ∈ s.control.events → ∀ shipment,
    event.body = .shipmentCreated shipment →
      ∃ orderEvent order, orderEvent ∈ s.control.events ∧
        orderEvent.body = .orderCreated order ∧
        event = sha256.createEvent
          (orderEvent.businessDate + FulfillmentPlanner.shipmentDelay policy sha256 orderEvent)
          (.shipmentCreated (FulfillmentPlanner.shipmentOf policy sha256 shipment.shipmentId
            orderEvent order))
  invoices : ∀ event, event ∈ s.control.events → ∀ invoice,
    event.body = .invoiceCreated invoice →
      ∃ shipped shipment, shipped ∈ s.control.events ∧
        shipped.body = .shipmentCreated shipment ∧
        event = sha256.createEvent
          (shipped.businessDate + FulfillmentPlanner.invoiceDelay policy sha256 shipped)
          (.invoiceCreated (FulfillmentPlanner.invoiceOf policy sha256 shipped shipment))
  deliveries : ∀ event, event ∈ s.control.events → ∀ delivery,
    event.body = .shipmentDelivered delivery →
      ∃ shipped shipment, shipped ∈ s.control.events ∧
        shipped.body = .shipmentCreated shipment ∧
        event = sha256.createEvent
          (shipped.businessDate + FulfillmentPlanner.deliveryDelay policy sha256 shipped)
          (.shipmentDelivered (FulfillmentPlanner.deliveryOf policy sha256 shipped shipment))

/-- Recording nothing of the kind keeps the days. -/
theorem OnDueDays.congr (h : OnDueDays policy sha256 s)
    (hsubset : s.control.events ⊆ t.control.events)
    (hkept : ∀ event, event ∈ t.control.events → isDispatch event → event ∈ s.control.events) :
    OnDueDays policy sha256 t := by
  refine ⟨fun event hmem shipment hbody => ?_, fun event hmem invoice hbody => ?_,
    fun event hmem delivery hbody => ?_⟩
  · obtain ⟨orderEvent, order, horder, hrest⟩ := h.shipments event
      (hkept event hmem (by simp [isDispatch, hbody])) shipment hbody
    exact ⟨orderEvent, order, hsubset horder, hrest⟩
  · obtain ⟨shipped, shipment, hshipped, hrest⟩ := h.invoices event
      (hkept event hmem (by simp [isDispatch, hbody])) invoice hbody
    exact ⟨shipped, shipment, hsubset hshipped, hrest⟩
  · obtain ⟨shipped, shipment, hshipped, hrest⟩ := h.deliveries event
      (hkept event hmem (by simp [isDispatch, hbody])) delivery hbody
    exact ⟨shipped, shipment, hsubset hshipped, hrest⟩

theorem OnDueDays.record {events : List BusinessEvent} (h : OnDueDays policy sha256 s)
    (hevents : ∀ event, event ∈ events → ¬ isDispatch event) :
    OnDueDays policy sha256 (s.record events) :=
  h.congr (events_subset_insertEvents _ _) fun event hmem hkind =>
    (mem_of_mem_insertEvents hmem).resolve_right fun hnew => hevents event hnew hkind

theorem OnDueDays.same (h : OnDueDays policy sha256 s)
    (hevents : t.control.events = s.control.events) : OnDueDays policy sha256 t := by
  refine h.congr ?_ fun event hmem _ => hevents ▸ hmem
  rw [hevents]
  exact List.Subset.refl _

theorem isFulfillment_of_isDispatch (h : isDispatch event) : OpsRun.isFulfillment event := by
  cases hbody : event.body <;> simp [isDispatch, OpsRun.isFulfillment, hbody] at h ⊢

theorem not_isDispatch_of_source (hcreated : Created sha256 event) (hsource : event.source ≠ .ops) :
    ¬ isDispatch event :=
  fun h => hsource (source_of_isFulfillment hcreated (isFulfillment_of_isDispatch h))

/-! ## The plan of a day -/

section Plan

variable {shipped : BusinessEvent} {shipment : ShipmentCreated}

/-- A shipment that was due the day before is recorded. -/
theorem OpsRun.Shipped.recorded (h : OpsRun.Shipped policy sha256 (w + 1) s shipped shipment)
    {delay : Nat} (hdue : shipped.businessDate + delay ≤ w) :
    shipped ∈ s.control.eventsThrough (w + 1) .ops := by
  refine h.known.resolve_right fun hplan => ?_
  obtain ⟨_, _, _, _, _, rfl⟩ := OpsRun.mem_planShipments.mp hplan
  change w + 1 + delay ≤ w at hdue
  omega

/-- The order of a recorded shipment is among those that are asked for. -/
theorem Fulfilling.mem_orderIds (h : Fulfilling policy sha256 crmPlan w s)
    (hs : Journal sha256 w s) (hmem : shipped ∈ s.control.events)
    (hbody : shipped.body = .shipmentCreated shipment) :
    shipment.orderId ∈ OpsRun.orderIds (s.control.eventsThrough (w + 1) .ops) := by
  obtain ⟨orderEvent, order, horder, hbody', hid⟩ :=
    h.shipments.ordered shipped hmem shipment hbody
  rw [← hid]
  have hsource : orderEvent.source = .ops := by
    rw [(hs.recorded.created orderEvent horder).source_eq, hbody']
    rfl
  exact OpsRun.mem_orderIds (mem_eventsThrough.mpr ⟨horder, hs.dated orderEvent horder, hsource⟩)
    hbody'

theorem planShipments_onDueDay (hthrough : FulfilledThrough policy sha256 w s)
    (hplan : event ∈ OpsRun.planShipments policy sha256 (w + 1) s)
    (hbody : event.body = .shipmentCreated shipment) :
    ∃ orderEvent order, orderEvent ∈ s.control.events ∧
      orderEvent.body = .orderCreated order ∧
      event = sha256.createEvent
        (orderEvent.businessDate + FulfillmentPlanner.shipmentDelay policy sha256 orderEvent)
        (.shipmentCreated (FulfillmentPlanner.shipmentOf policy sha256 shipment.shipmentId
          orderEvent order)) := by
  obtain ⟨i, orderEvent, order, hget, horder, rfl⟩ := OpsRun.mem_planShipments.mp hplan
  obtain rfl := EventBody.shipmentCreated.inj hbody
  obtain ⟨hmem, _, _, order', horder', hnew, hdue⟩ :=
    OpsRun.mem_shippable.mp (List.mem_of_getElem? hget)
  obtain rfl := EventBody.orderCreated.inj (horder.symm.trans horder')
  have hnot := mt (hthrough.shipped orderEvent hmem order horder) hnew
  have hday : w + 1 = orderEvent.businessDate +
      FulfillmentPlanner.shipmentDelay policy sha256 orderEvent := by omega
  exact ⟨orderEvent, order, hmem, horder, by rw [← hday]; rfl⟩

theorem planned_invoice_day (h : Fulfilling policy sha256 crmPlan w s) (hs : Journal sha256 w s)
    (hthrough : FulfilledThrough policy sha256 w s)
    (hshipped : OpsRun.Shipped policy sha256 (w + 1) s shipped shipment)
    (hnew : shipment.orderId ∉
      OpsRun.invoiced s.ops (OpsRun.orderIds (s.control.eventsThrough (w + 1) .ops)))
    (hdue : shipped.businessDate + FulfillmentPlanner.invoiceDelay policy sha256 shipped ≤ w + 1) :
    w + 1 = shipped.businessDate + FulfillmentPlanner.invoiceDelay policy sha256 shipped := by
  by_contra hne
  have hbefore : shipped.businessDate + FulfillmentPlanner.invoiceDelay policy sha256 shipped ≤ w := by
    omega
  obtain ⟨hmem, _, _⟩ := mem_eventsThrough.mp (hshipped.recorded hbefore)
  have hinvoiced := hthrough.invoiced shipped hmem shipment hshipped.body hbefore
  exact hnew (List.mem_filter.mpr
    ⟨hinvoiced, decide_eq_true (h.mem_orderIds hs hmem hshipped.body)⟩)

theorem planned_delivery_day (h : Fulfilling policy sha256 crmPlan w s) (hs : Journal sha256 w s)
    (hthrough : FulfilledThrough policy sha256 w s)
    (hshipped : OpsRun.Shipped policy sha256 (w + 1) s shipped shipment)
    (hnew : shipment.shipmentId ∉
      OpsRun.delivered s.ops (OpsRun.orderIds (s.control.eventsThrough (w + 1) .ops)))
    (hdue : shipped.businessDate + FulfillmentPlanner.deliveryDelay policy sha256 shipped ≤ w + 1) :
    w + 1 = shipped.businessDate + FulfillmentPlanner.deliveryDelay policy sha256 shipped := by
  by_contra hne
  have hbefore :
      shipped.businessDate + FulfillmentPlanner.deliveryDelay policy sha256 shipped ≤ w := by omega
  obtain ⟨hmem, _, _⟩ := mem_eventsThrough.mp (hshipped.recorded hbefore)
  obtain ⟨row, hrow, hkey, hdate⟩ := hthrough.delivered shipped hmem shipment hshipped.body hbefore
  refine hnew (List.mem_map.mpr ⟨row, List.mem_filter.mpr ⟨hrow, ?_⟩, congrArg Prod.fst hkey⟩)
  have horder : row.orderId = shipment.orderId := congrArg Prod.snd hkey
  rw [horder, hdate, Bool.and_true]
  exact decide_eq_true (h.mem_orderIds hs hmem hshipped.body)

end Plan

/-- A part of a plan with an event of its second half has all of the first one. -/
theorem subset_take_of_mem {α : Type} {xs ys : List α} {x : α} {k : Nat}
    (h : x ∈ (xs ++ ys).take k) (hx : x ∉ xs) : xs ⊆ (xs ++ ys).take k := by
  rw [List.take_append] at h ⊢
  have hlong : xs.length ≤ k := by
    rcases List.mem_append.mp h with hmem | hmem
    · exact absurd (List.mem_of_mem_take hmem) hx
    · by_contra hshort
      rw [Nat.sub_eq_zero_of_le (by omega), List.take_zero] at hmem
      cases hmem
  rw [List.take_of_length_le hlong]
  exact List.subset_append_left _ _

/-- The recorded part of a plan comes on its day. -/
theorem OnDueDays.recordFulfillment (hinjective : sha256.Injective)
    (h : OnDueDays policy sha256 s) (hfulfilling : Fulfilling policy sha256 crmPlan w s)
    (hs : Journal sha256 w s) (hthrough : FulfilledThrough policy sha256 w s) (k : Nat) :
    OnDueDays policy sha256
      (s.record ((OpsRun.planFulfillment policy sha256 (w + 1) s).take k)) := by
  have hsubset : s.control.events ⊆
      (s.record ((OpsRun.planFulfillment policy sha256 (w + 1) s).take k)).control.events :=
    events_subset_insertEvents _ _
  have hplanned : ∀ event,
      event ∈ (OpsRun.planFulfillment policy sha256 (w + 1) s).take k →
        Planned sha256 (w + 1) .ops event := fun event hmem =>
    (planned_planFulfillment (List.mem_of_mem_take hmem)).1
  have hmem_iff : ∀ event, event ∈ (s.record ((OpsRun.planFulfillment policy sha256 (w + 1) s).take
      k)).control.events ↔ event ∈ s.control.events ∨
        event ∈ (OpsRun.planFulfillment policy sha256 (w + 1) s).take k := fun event =>
    mem_insertEvents hinjective hs.recorded fun event hmem =>
      ⟨(hplanned event hmem).created, by simp [(hplanned event hmem).source]⟩
  -- the shipments of a plan are recorded before its invoices and its deliveries
  have hshipped : ∀ {event shipped : BusinessEvent} {shipment : ShipmentCreated},
      event ∈ (OpsRun.planFulfillment policy sha256 (w + 1) s).take k →
      (∀ shipment, event.body ≠ .shipmentCreated shipment) →
      OpsRun.Shipped policy sha256 (w + 1) s shipped shipment →
        shipped ∈ (s.record ((OpsRun.planFulfillment policy sha256 (w + 1) s).take
          k)).control.events := by
    intro event shipped shipment hmem hkind hshipped
    rcases hshipped.known with hknown | hplan
    · exact hsubset (mem_eventsThrough.mp hknown).1
    · refine (hmem_iff shipped).mpr (.inr ?_)
      rw [OpsRun.planFulfillment, FulfillmentPlanner.plan, List.append_assoc] at hmem ⊢
      refine subset_take_of_mem hmem (fun hfirst => ?_) hplan
      obtain ⟨_, _, _, _, _, rfl⟩ := FulfillmentPlanner.mem_shipments.mp hfirst
      exact hkind _ rfl
  refine ⟨fun event hmem shipment hbody => ?_, fun event hmem invoice hbody => ?_,
    fun event hmem delivery hbody => ?_⟩
  · rcases (hmem_iff event).mp hmem with hold | hnew
    · obtain ⟨orderEvent, order, horder, hrest⟩ := h.shipments event hold shipment hbody
      exact ⟨orderEvent, order, hsubset horder, hrest⟩
    · rcases OpsRun.mem_planFulfillment.mp (List.mem_of_mem_take hnew) with hplan |
        ⟨_, _, _, _, _, rfl⟩ | ⟨_, _, _, _, _, rfl⟩
      · obtain ⟨orderEvent, order, horder, hrest⟩ := planShipments_onDueDay hthrough hplan hbody
        exact ⟨orderEvent, order, hsubset horder, hrest⟩
      · cases hbody
      · cases hbody
  · rcases (hmem_iff event).mp hmem with hold | hnew
    · obtain ⟨shipped, shipment, hmem, hrest⟩ := h.invoices event hold invoice hbody
      exact ⟨shipped, shipment, hsubset hmem, hrest⟩
    · rcases OpsRun.mem_planFulfillment.mp (List.mem_of_mem_take hnew) with hplan |
        ⟨shipped, shipment, hknown, hfree, hdue, heq⟩ | ⟨_, _, _, _, _, rfl⟩
      · obtain ⟨_, _, _, _, _, rfl⟩ := OpsRun.mem_planShipments.mp hplan
        cases hbody
      · refine ⟨shipped, shipment, hshipped hnew (by simp [hbody]) hknown, hknown.body, ?_⟩
        rw [← planned_invoice_day hfulfilling hs hthrough hknown hfree hdue]
        exact heq
      · cases hbody
  · rcases (hmem_iff event).mp hmem with hold | hnew
    · obtain ⟨shipped, shipment, hmem, hrest⟩ := h.deliveries event hold delivery hbody
      exact ⟨shipped, shipment, hsubset hmem, hrest⟩
    · rcases OpsRun.mem_planFulfillment.mp (List.mem_of_mem_take hnew) with hplan |
        ⟨_, _, _, _, _, rfl⟩ | ⟨shipped, shipment, hknown, hfree, hdue, heq⟩
      · obtain ⟨_, _, _, _, _, rfl⟩ := OpsRun.mem_planShipments.mp hplan
        cases hbody
      · cases hbody
      · refine ⟨shipped, shipment, hshipped hnew (by simp [hbody]) hknown, hknown.body, ?_⟩
        rw [← planned_delivery_day hfulfilling hs hthrough hknown hfree hdue]
        exact heq

/-- No other move records an event of the kind. -/
theorem OnDueDays.move (hinjective : sha256.Injective) (h : OnDueDays policy sha256 s)
    (hfulfilling : Fulfilling policy sha256 crmPlan w s)
    (hthrough : FulfilledThrough policy sha256 w s) (hmove : Move policy sha256 crmPlan w s t) :
    OnDueDays policy sha256 t := by
  have hs := hmove.before
  cases hmove with
  | control _ moved => exact h.same moved.events
  | crmPlan =>
      refine h.record fun event hmem => ?_
      have hplanned := planned_crmPlan (List.mem_of_mem_take hmem)
      refine not_isDispatch_of_source hplanned.created ?_
      rw [hplanned.source]
      decide
  | crmApplied _ _ moved => exact h.same moved.events
  | orderPlan =>
      refine h.record fun event hmem hkind => ?_
      exact not_isOrderCreated_of_isFulfillment (isFulfillment_of_isDispatch hkind)
        (planned_planOrders (List.mem_of_mem_take hmem)).2
  | orders => exact h.same rfl
  | fulfillmentPlan _ _ k => exact h.recordFulfillment hinjective hfulfilling hs hthrough k
  | casePlan =>
      refine h.record fun event hmem hkind => ?_
      rcases isCase_of_planSupportCases (List.mem_of_mem_take hmem) with ⟨_, hbody⟩ | ⟨_, hbody⟩ |
        ⟨_, hbody⟩
      all_goals simp [isDispatch, hbody] at hkind
  | fulfillment => exact h.same rfl
  | opsApplied _ _ moved => exact h.same moved.events
  | postingPlan =>
      refine h.record fun event hmem => ?_
      have hplanned := planned_planPostings (List.mem_of_mem_take hmem)
      refine not_isDispatch_of_source hplanned.created ?_
      rw [hplanned.source]
      decide
  | postings => exact h.same rfl
  | erpApplied _ _ _ moved => exact h.same moved.events
  | completed => exact h.same rfl

/-! ## Runs -/

theorem fulfillment_dayByDay (hinjective : sha256.Injective) :
    DayByDay policy sha256 crmPlan (Fulfilling policy sha256 crmPlan)
      (FulfilledThrough policy sha256) (OnDueDays policy sha256) where
  invariant := invariant_fulfilling hinjective
  kept _ _ _ _ h hmove := h.move hmove
  worked _ _ h hs hworked := fulfilledThrough_of_work hinjective h hs hworked
  dated _ _ _ h hthrough hdays hmove := hdays.move hinjective h hthrough hmove

section Runs

variable {start : Stores} {b : Nat}

theorem Unstarted.fulfilling (h : Unstarted b s)
    (hids : (s.ops.shipments.map ShipmentRow.shipmentId).Nodup) :
    Fulfilling policy sha256 crmPlan b s := by
  refine ⟨h.ordersPlaced, h.shipmentsPlaced, fun event hmem => ?_, hids⟩
  rw [h.events] at hmem
  cases hmem

theorem Unstarted.onDueDays (h : Unstarted b s) :
    FulfilledThrough policy sha256 b s ∧ OnDueDays policy sha256 s := by
  constructor
  · constructor <;> simp [h.events]
  · constructor <;> simp [h.events]

/-- **Fulfillment on its day.**  In every store that a run of attempts and crashes reaches, each
recorded shipment, invoice and delivery has the date that its delay names, and what is due by
the watermark is in the database. -/
theorem fulfillment_onDueDays (hinjective : sha256.Injective) (hstart : Unstarted b start)
    (hids : (start.ops.shipments.map ShipmentRow.shipmentId).Nodup)
    (hreached : Attempts policy sha256 crmPlan start t) :
    OnDueDays policy sha256 t ∧
      ∀ w, t.control.lastCompleted = some w → FulfilledThrough policy sha256 w t := by
  obtain ⟨w, hjournal, _, hthrough, hdays⟩ := (fulfillment_dayByDay hinjective).reached hinjective
    hstart.journal (hstart.fulfilling hids) hstart.onDueDays.1 hstart.onDueDays.2 hreached
  refine ⟨hdays, fun w' hw' => ?_⟩
  obtain rfl := Option.some.inj (hjournal.lastCompleted.symm.trans hw')
  exact hthrough

/-- Every step takes a day at least, and every shipment stalls. -/
def slowPolicy : SimulationPolicy where
  crmToOps := ⟨1, 2, Nat.le_add_right 1 1⟩
  orderToShipment := ⟨1, 3, Nat.le_add_right 1 2⟩
  shipmentToDelivery := ⟨1, 5, Nat.le_add_right 1 4⟩
  shipmentToInvoice := ⟨1, 3, Nat.le_add_right 1 2⟩
  invoiceToErp := ⟨1, 2, Nat.le_add_right 1 1⟩
  delayedCrmToOps _ := false
  isWeeklySlaBreachDate _ _ := false

def slowRun (d : Nat) : RunProgram PUnit :=
  DailySimulationRunner.run slowPolicy spelledDigest oneWon d 0

/-- What the first attempt at a day leaves to the second: the one at day 8 crashes
where the shipment is recorded and not applied. -/
def slowMorning (d : Nat) (s : Stores) : Stores :=
  if d = 8 then ((slowRun d s).states[8]?).getD s else s

def slowEvening : Nat → Stores
  | 0 => opening
  | d + 1 => (slowRun (d + 1) (slowMorning (d + 1) (slowEvening d))).final

theorem leaves_slowMorning {d : Nat} {s : Stores} (hw : s.control.lastCompleted = some d) :
    Attempts slowPolicy spelledDigest oneWon s (slowMorning (d + 1) s) := by
  unfold slowMorning
  split
  · cases hcrash : (slowRun (d + 1) s).states[8]? with
    | none => exact .refl
    | some crashed => exact .single ⟨0, d, hw, 8, hcrash⟩
  · exact .refl

theorem slowEvening_reached : ∀ d, (∀ d' < d,
      (slowEvening d').control.lastCompleted = some d' ∧
      (slowMorning (d' + 1) (slowEvening d')).control.lastCompleted = some d') →
    Attempts slowPolicy spelledDigest oneWon opening (slowEvening d)
  | 0, _ => .refl
  | d + 1, hmarks => by
      obtain ⟨hw, hw'⟩ := hmarks d (Nat.lt_succ_self d)
      have hbefore := slowEvening_reached d fun d' hd' => hmarks d' (Nat.lt_succ_of_lt hd')
      exact (hbefore.trans (leaves_slowMorning hw)).tail ⟨0, d, hw', leaves_final _ _⟩

/-- What nine days bring: the order of day 2 is shipped on day 8, which is late, and
delivered and invoiced on day 9. -/
theorem slowEvening_nine :
    (∀ d < 9, (slowEvening d).control.lastCompleted = some d ∧
      (slowMorning (d + 1) (slowEvening d)).control.lastCompleted = some d) ∧
    (slowEvening 9).control.lastCompleted = some 9 ∧
    (slowMorning 8 (slowEvening 7)).control.events.length = 3 ∧
    (slowMorning 8 (slowEvening 7)).ops.shipments = [] ∧
    (slowEvening 9).control.events.map (fun event => (event.businessDate, event.body.eventType)) =
      [(1, "opportunity_stage_changed"), (2, "order_created"), (8, "shipment_created"),
        (9, "invoice_created"), (9, "shipment_delivered")] ∧
    (slowEvening 9).ops.orderHistory.map StatusHistoryRow.slaStatus =
      [.onTime, .breached, .onTime] := by
  decide +kernel

/-- The order is shipped six days after it was made, and one shipment is left although
the attempt that recorded it crashed. -/
theorem fulfillment_onDueDays_stalled :
    OnDueDays slowPolicy spelledDigest (slowEvening 9) ∧
      FulfilledThrough slowPolicy spelledDigest 9 (slowEvening 9) ∧
      (slowMorning 8 (slowEvening 7)).control.events.length = 3 ∧
      (slowMorning 8 (slowEvening 7)).ops.shipments = [] ∧
      (slowEvening 9).control.events.map
          (fun event => (event.businessDate, event.body.eventType)) =
        [(1, "opportunity_stage_changed"), (2, "order_created"), (8, "shipment_created"),
          (9, "invoice_created"), (9, "shipment_delivered")] := by
  have hstart : Unstarted 0 opening := ⟨rfl, rfl, rfl⟩
  obtain ⟨hmarks, hnine, hrecorded, happlied, hevents, _⟩ := slowEvening_nine
  have hdays := fulfillment_onDueDays spelledDigest_injective hstart List.nodup_nil
    (slowEvening_reached 9 hmarks)
  exact ⟨hdays.1, hdays.2 9 hnine, hrecorded, happlied, hevents⟩

end Runs

end Simulator
end Northwind
