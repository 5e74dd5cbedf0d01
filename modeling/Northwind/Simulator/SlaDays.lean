import Northwind.Simulator.FulfillmentDays

/-!
# Where an agreement is breached

The status histories promise a shipment five days after the order, a delivery
five days and an invoice three days after the shipment.  Since every step comes
on the day that its delay names, a row is breached where this delay is longer
than the promise, and there only: no crash and no late attempt breaches one.
-/

namespace Northwind
namespace Simulator

open CrashPrograms CrashPrograms.Program SimulationState OpsEventApplier

variable {policy : SimulationPolicy} {sha256 : Sha256} {crmPlan : Nat → List CrmChange}
variable {w : Nat} {s t : Stores} {event : BusinessEvent}

/-! ## Rows of the histories -/

/-- An order is shipped late where its delay is, and invoiced late where the one of its
shipment is. -/
inductive OrderSla (policy : SimulationPolicy) (sha256 : Sha256) (events : List BusinessEvent)
    (row : StatusHistoryRow OrderStatus) : Prop
  | created (status : row.newStatus = .pending) (sla : row.slaStatus = .onTime)
  | shipped {orderEvent : BusinessEvent} {order : OrderCreated} (mem : orderEvent ∈ events)
      (body : orderEvent.body = .orderCreated order) (id : row.recordId = order.orderId)
      (status : row.newStatus = .shipped)
      (sla : row.slaStatus = .breached ↔
        5 < FulfillmentPlanner.shipmentDelay policy sha256 orderEvent)
  | invoiced {shipped : BusinessEvent} {shipment : ShipmentCreated} (mem : shipped ∈ events)
      (body : shipped.body = .shipmentCreated shipment) (id : row.recordId = shipment.orderId)
      (status : row.newStatus = .invoiced)
      (sla : row.slaStatus = .breached ↔
        3 < FulfillmentPlanner.invoiceDelay policy sha256 shipped)

inductive ShipmentSla (policy : SimulationPolicy) (sha256 : Sha256) (events : List BusinessEvent)
    (row : StatusHistoryRow ShipmentStatus) : Prop
  | created (status : row.newStatus = .shipped) (sla : row.slaStatus = .onTime)
  | delivered {shipped : BusinessEvent} {shipment : ShipmentCreated} (mem : shipped ∈ events)
      (body : shipped.body = .shipmentCreated shipment) (id : row.recordId = shipment.shipmentId)
      (status : row.newStatus = .delivered)
      (sla : row.slaStatus = .breached ↔
        5 < FulfillmentPlanner.deliveryDelay policy sha256 shipped)

/-- The invoice of a row is known by its event. -/
inductive InvoiceSla (policy : SimulationPolicy) (sha256 : Sha256) (events : List BusinessEvent)
    (row : StatusHistoryRow InvoiceStatus) : Prop
  | issued {event shipped : BusinessEvent} {invoice : InvoiceCreated} {shipment : ShipmentCreated}
      (source : event ∈ events) (id : row.sourceEventId = event.eventId)
      (invoiceBody : event.body = .invoiceCreated invoice) (mem : shipped ∈ events)
      (body : shipped.body = .shipmentCreated shipment)
      (order : invoice.orderId = shipment.orderId) (status : row.newStatus = .issued)
      (sla : row.slaStatus = .breached ↔
        3 < FulfillmentPlanner.invoiceDelay policy sha256 shipped)

theorem OrderSla.mono {events events' : List BusinessEvent} {row : StatusHistoryRow OrderStatus}
    (h : OrderSla policy sha256 events row) (hsubset : events ⊆ events') :
    OrderSla policy sha256 events' row := by
  cases h with
  | created status sla => exact .created status sla
  | shipped mem body id status sla => exact .shipped (hsubset mem) body id status sla
  | invoiced mem body id status sla => exact .invoiced (hsubset mem) body id status sla

theorem ShipmentSla.mono {events events' : List BusinessEvent}
    {row : StatusHistoryRow ShipmentStatus} (h : ShipmentSla policy sha256 events row)
    (hsubset : events ⊆ events') : ShipmentSla policy sha256 events' row := by
  cases h with
  | created status sla => exact .created status sla
  | delivered mem body id status sla => exact .delivered (hsubset mem) body id status sla

theorem InvoiceSla.mono {events events' : List BusinessEvent}
    {row : StatusHistoryRow InvoiceStatus} (h : InvoiceSla policy sha256 events row)
    (hsubset : events ⊆ events') : InvoiceSla policy sha256 events' row := by
  cases h with
  | issued source id invoiceBody mem body order status sla =>
      exact .issued (hsubset source) id invoiceBody (hsubset mem) body order status sla

/-- The rows that were not there at the start. -/
structure SlaKept (policy : SimulationPolicy) (sha256 : Sha256) (start : OpsDatabase)
    (events : List BusinessEvent) (db : OpsDatabase) : Prop where
  orders : ∀ row, row ∈ db.orderHistory →
    row ∈ start.orderHistory ∨ OrderSla policy sha256 events row
  shipments : ∀ row, row ∈ db.shipmentHistory →
    row ∈ start.shipmentHistory ∨ ShipmentSla policy sha256 events row
  invoices : ∀ row, row ∈ db.invoiceHistory →
    row ∈ start.invoiceHistory ∨ InvoiceSla policy sha256 events row

theorem SlaKept.mono {start db : OpsDatabase} {events events' : List BusinessEvent}
    (h : SlaKept policy sha256 start events db) (hsubset : events ⊆ events') :
    SlaKept policy sha256 start events' db :=
  ⟨fun row hrow => (h.orders row hrow).imp_right fun hsla => hsla.mono hsubset,
    fun row hrow => (h.shipments row hrow).imp_right fun hsla => hsla.mono hsubset,
    fun row hrow => (h.invoices row hrow).imp_right fun hsla => hsla.mono hsubset⟩

/-- A history that has got a row. -/
theorem forall_mem_concat {α : Type} {P : α → Prop} {rows : List α} {row : α}
    (hrows : ∀ x, x ∈ rows → P x) (hrow : P row) : ∀ x, x ∈ rows ++ [row] → P x := by
  intro x hx
  rcases List.mem_append.mp hx with hold | hnew
  · exact hrows x hold
  · rwa [List.mem_singleton.mp hnew]

/-! ## Dates of an event -/

namespace OnDueDays

theorem shipment_dates {shipment : ShipmentCreated} (h : OnDueDays policy sha256 s)
    (hmem : event ∈ s.control.events) (hbody : event.body = .shipmentCreated shipment) :
    ∃ orderEvent order, orderEvent ∈ s.control.events ∧ orderEvent.body = .orderCreated order ∧
      shipment.orderId = order.orderId ∧
      shipment.orderCreatedDate = orderEvent.businessDate ∧
      event.businessDate =
        orderEvent.businessDate + FulfillmentPlanner.shipmentDelay policy sha256 orderEvent := by
  obtain ⟨orderEvent, order, horder, hbody', heq⟩ := h.shipments event hmem shipment hbody
  rw [heq] at hbody
  have hshipment := EventBody.shipmentCreated.inj hbody
  exact ⟨orderEvent, order, horder, hbody', (congrArg ShipmentCreated.orderId hshipment).symm,
    (congrArg ShipmentCreated.orderCreatedDate hshipment).symm,
    congrArg SimulationEvent.businessDate heq⟩

theorem invoice_dates {invoice : InvoiceCreated} (h : OnDueDays policy sha256 s)
    (hmem : event ∈ s.control.events) (hbody : event.body = .invoiceCreated invoice) :
    ∃ shipped shipment, shipped ∈ s.control.events ∧ shipped.body = .shipmentCreated shipment ∧
      invoice.orderId = shipment.orderId ∧ invoice.shipmentDate = shipped.businessDate ∧
      event.businessDate =
        shipped.businessDate + FulfillmentPlanner.invoiceDelay policy sha256 shipped := by
  obtain ⟨shipped, shipment, hshipped, hbody', heq⟩ := h.invoices event hmem invoice hbody
  rw [heq] at hbody
  have hinvoice := EventBody.invoiceCreated.inj hbody
  exact ⟨shipped, shipment, hshipped, hbody', (congrArg InvoiceCreated.orderId hinvoice).symm,
    (congrArg InvoiceCreated.shipmentDate hinvoice).symm,
    congrArg SimulationEvent.businessDate heq⟩

theorem delivery_dates {delivery : ShipmentDelivered} (h : OnDueDays policy sha256 s)
    (hmem : event ∈ s.control.events) (hbody : event.body = .shipmentDelivered delivery) :
    ∃ shipped shipment, shipped ∈ s.control.events ∧ shipped.body = .shipmentCreated shipment ∧
      delivery.shipmentId = shipment.shipmentId ∧
      event.businessDate =
        shipped.businessDate + FulfillmentPlanner.deliveryDelay policy sha256 shipped := by
  obtain ⟨shipped, shipment, hshipped, hbody', heq⟩ := h.deliveries event hmem delivery hbody
  rw [heq] at hbody
  have hdelivery := EventBody.shipmentDelivered.inj hbody
  exact ⟨shipped, shipment, hshipped, hbody',
    (congrArg ShipmentDelivered.shipmentId hdelivery).symm,
    congrArg SimulationEvent.businessDate heq⟩

end OnDueDays

/-! ## Promised dates -/

/-- The rows of the recorded shipments: those without a marker have none, and the others
promise the fifth day. -/
structure Promised (events : List BusinessEvent) (db : OpsDatabase) : Prop where
  fresh : ∀ event, event ∈ events → ∀ shipment, event.body = .shipmentCreated shipment →
    event.eventId ∉ db.appliedEvents →
      ∀ row, row ∈ db.shipments → row.shipmentId ≠ shipment.shipmentId
  promised : ∀ event, event ∈ events → ∀ shipment, event.body = .shipmentCreated shipment →
    event.eventId ∈ db.appliedEvents →
      ∀ row, row ∈ db.shipments → row.shipmentId = shipment.shipmentId →
        row.promisedDeliveryDate = event.businessDate + 5

/-- What an event does to the rows of the shipments: it adds its own, or none. -/
theorem shipments_of_effect {db db' : OpsDatabase} (h : Effect event db db') :
    (∀ row, row ∈ db'.shipments → ∃ old, old ∈ db.shipments ∧ old.shipmentId = row.shipmentId ∧
      old.promisedDeliveryDate = row.promisedDeliveryDate) ∨
    ∃ shipment, event.body = .shipmentCreated shipment ∧
      (∀ row, row ∈ db.shipments → row.shipmentId ≠ shipment.shipmentId) ∧
      db'.shipments = db.shipments ++ [shipmentRow event shipment] := by
  have hsame : db'.shipments = db.shipments → ∀ row, row ∈ db'.shipments →
      ∃ old, old ∈ db.shipments ∧ old.shipmentId = row.shipmentId ∧
        old.promisedDeliveryDate = row.promisedDeliveryDate := fun hrows row hrow =>
    ⟨row, hrows ▸ hrow, rfl, rfl⟩
  have hnew : ∀ {shipment : ShipmentCreated},
      shipment.shipmentId ∉ db.shipments.map ShipmentRow.shipmentId →
        ∀ row, row ∈ db.shipments → row.shipmentId ≠ shipment.shipmentId :=
    fun hnot row hrow hid => hnot (hid ▸ List.mem_map_of_mem hrow)
  cases h with
  | shipmentCreated body newId => exact .inr ⟨_, body, hnew newId, rfl⟩
  | orderShipped body newId => exact .inr ⟨_, body, hnew newId, rfl⟩
  | shipmentDelivered =>
      refine .inl fun row hrow => ?_
      obtain ⟨old, hold, rfl⟩ := List.mem_map.mp hrow
      refine ⟨old, hold, ?_, ?_⟩
      · split
        · rfl
        · rfl
      · split
        · rfl
        · rfl
  | _ => exact .inl (hsame rfl)

theorem Promised.effectStep {events : List BusinessEvent} {db db' : OpsDatabase}
    (h : Promised events db)
    (hids : ∀ event, event ∈ events → ∀ event', event' ∈ events →
      event.eventId = event'.eventId → event = event')
    (hdistinct : ∀ event, event ∈ events → ∀ event', event' ∈ events →
      ∀ shipment, event.body = .shipmentCreated shipment →
      ∀ shipment', event'.body = .shipmentCreated shipment' →
        shipment.shipmentId = shipment'.shipmentId → event = event')
    (hmem : event ∈ events) (hstep : EffectStep event db db') : Promised events db' := by
  obtain ⟨hunmarked, applied, heffect, _, _, rfl⟩ := hstep
  have hmarked_iff : ∀ other, other ∈ events →
      (other.eventId ∈ db.appliedEvents ++ [event.eventId] ↔
        other.eventId ∈ db.appliedEvents ∨ other = event) := by
    intro other hother
    rw [List.mem_append, List.mem_singleton]
    exact or_congr_right ⟨hids other hother event hmem, fun heq => by rw [heq]⟩
  refine ⟨fun other hother shipment hbody hnot row hrow => ?_,
    fun other hother shipment hbody hmarked row hrow hid => ?_⟩
  · rw [hmarked_iff other hother, not_or] at hnot
    have hfresh := h.fresh other hother shipment hbody hnot.1
    rcases shipments_of_effect heffect with hold | ⟨shipment', hbody', _, hrows⟩
    · obtain ⟨old, hold, hid, _⟩ := hold row hrow
      exact hid ▸ hfresh old hold
    · change row ∈ applied.shipments at hrow
      rw [hrows] at hrow
      rcases List.mem_append.mp hrow with hold | hnew
      · exact hfresh row hold
      · rw [List.mem_singleton.mp hnew]
        exact fun hid => hnot.2
          (hdistinct other hother event hmem shipment hbody shipment' hbody' hid.symm)
  · rw [hmarked_iff other hother] at hmarked
    rcases shipments_of_effect heffect with hold | ⟨shipment', hbody', hnewId, hrows⟩
    · obtain ⟨old, hold, hid', hdate⟩ := hold row hrow
      rcases hmarked with hmarked | rfl
      · rw [← hdate]
        exact h.promised other hother shipment hbody hmarked old hold (hid'.trans hid)
      · exact absurd (hid'.trans hid) (h.fresh other hother shipment hbody hunmarked old hold)
    · change row ∈ applied.shipments at hrow
      rw [hrows] at hrow
      rcases List.mem_append.mp hrow with hold | hnew
      · rcases hmarked with hmarked | rfl
        · exact h.promised other hother shipment hbody hmarked row hold hid
        · obtain rfl := EventBody.shipmentCreated.inj (hbody.symm.trans hbody')
          exact absurd hid (hnewId row hold)
      · rw [List.mem_singleton.mp hnew] at hid ⊢
        obtain rfl :=
          hdistinct other hother event hmem shipment hbody shipment' hbody' hid.symm
        rfl

/-! ## Histories -/

section Histories

variable {start db db' : OpsDatabase}

/-- An event of the journal writes rows that keep to the days. -/
theorem SlaKept.effectStep (h : SlaKept policy sha256 start s.control.events db)
    (hdays : OnDueDays policy sha256 s) (hpromised : Promised s.control.events db)
    (hmem : event ∈ s.control.events) (hstep : EffectStep event db db') :
    SlaKept policy sha256 start s.control.events db' := by
  obtain ⟨_, applied, heffect, _, _, rfl⟩ := hstep
  have hsame : applied.orderHistory = db.orderHistory →
      applied.shipmentHistory = db.shipmentHistory →
      applied.invoiceHistory = db.invoiceHistory →
        SlaKept policy sha256 start s.control.events applied := fun horders hshipments hinvoices =>
    ⟨by rw [horders]; exact h.orders, by rw [hshipments]; exact h.shipments,
      by rw [hinvoices]; exact h.invoices⟩
  have hshippedRow : ∀ {shipment : ShipmentCreated}, ∀ row,
      row ∈ db.shipmentHistory ++ [shipmentShippedRow event shipment] →
        row ∈ start.shipmentHistory ∨ ShipmentSla policy sha256 s.control.events row := fun {_} =>
    forall_mem_concat h.shipments (.inr (.created rfl rfl))
  have hissuedRow : ∀ {invoice : InvoiceCreated}, event.body = .invoiceCreated invoice → ∀ row,
      row ∈ db.invoiceHistory ++ [issuedRow event invoice db] →
        row ∈ start.invoiceHistory ∨ InvoiceSla policy sha256 s.control.events row := by
    intro invoice hbody
    obtain ⟨shipped, shipment, hshipped, hshipment, horder, hdate, hday⟩ :=
      hdays.invoice_dates hmem hbody
    refine forall_mem_concat h.invoices
      (.inr (.issued hmem rfl hbody hshipped hshipment horder rfl ?_))
    change slaStatus (invoice.shipmentDate + 3) event.businessDate = .breached ↔ _
    rw [slaStatus_eq_breached, hdate, hday]
    omega
  suffices happlied : SlaKept policy sha256 start s.control.events applied from
    ⟨happlied.orders, happlied.shipments, happlied.invoices⟩
  cases heffect with
  | orderCreated body =>
      exact ⟨forall_mem_concat h.orders (.inr (.created rfl rfl)), h.shipments, h.invoices⟩
  | shipmentCreated => exact ⟨h.orders, hshippedRow, h.invoices⟩
  | @orderShipped shipment _ body =>
      obtain ⟨orderEvent, order, horder, hbody, hid, hdate, hday⟩ := hdays.shipment_dates hmem body
      refine ⟨forall_mem_concat h.orders (.inr (.shipped horder hbody hid rfl ?_)), hshippedRow,
        h.invoices⟩
      change slaStatus (shipment.orderCreatedDate + 5) event.businessDate = .breached ↔ _
      rw [slaStatus_eq_breached, hdate, hday]
      omega
  | @shipmentDelivered delivery row body known id =>
      obtain ⟨shipped, shipment, hshipped, hbody, hid, hday⟩ := hdays.delivery_dates hmem body
      have hrow : row.shipmentId = shipment.shipmentId := id.trans hid
      -- the shipment was applied before, since its row is there
      have hmarked : shipped.eventId ∈ db.appliedEvents := by
        by_contra hunmarked
        exact hpromised.fresh shipped hshipped shipment hbody hunmarked row known hrow
      have hpromise := hpromised.promised shipped hshipped shipment hbody hmarked row known hrow
      refine ⟨h.orders, forall_mem_concat h.shipments
        (.inr (.delivered hshipped hbody hid rfl ?_)), h.invoices⟩
      change slaStatus row.promisedDeliveryDate event.businessDate = .breached ↔ _
      rw [slaStatus_eq_breached, hpromise, hday]
      omega
  | invoiceCreated body => exact ⟨h.orders, h.shipments, hissuedRow body⟩
  | @orderInvoiced invoice _ body =>
      obtain ⟨shipped, shipment, hshipped, hbody, hid, hdate, hday⟩ := hdays.invoice_dates hmem body
      refine ⟨forall_mem_concat h.orders (.inr (.invoiced hshipped hbody hid rfl ?_)), h.shipments,
        hissuedRow body⟩
      change slaStatus (invoice.shipmentDate + 3) event.businessDate = .breached ↔ _
      rw [slaStatus_eq_breached, hdate, hday]
      omega
  | _ => exact hsame rfl rfl rfl

end Histories

/-! ## The windows of the policy -/

/-- A delay of a window is not longer than the window. -/
theorem DayWindow.delay_le (window : DayWindow) (sha256 : Sha256) (text : String) :
    window.delay sha256 text ≤ window.maximum := by
  have hlt := Nat.mod_lt (sha256.digest text 0)
    (show 0 < window.maximum - window.minimum + 1 by omega)
  have hordered := window.ordered
  rw [DayWindow.delay]
  omega

namespace FulfillmentPlanner

theorem invoiceDelay_le (shipped : BusinessEvent) :
    invoiceDelay policy sha256 shipped ≤ policy.shipmentToInvoice.maximum :=
  DayWindow.delay_le _ _ _

theorem deliveryDelay_le (shipped : BusinessEvent) :
    deliveryDelay policy sha256 shipped ≤ policy.shipmentToDelivery.maximum :=
  DayWindow.delay_le _ _ _

theorem stalled_of_shipmentDelay {orderEvent : BusinessEvent}
    (h : policy.orderToShipment.maximum < shipmentDelay policy sha256 orderEvent) :
    policy.stalledShipment (sha256.digest ("shipment:" ++ orderEvent.eventId) 1) = true := by
  by_contra hstalled
  rw [shipmentDelay, if_neg hstalled] at h
  exact absurd h (Nat.not_lt.mpr (DayWindow.delay_le _ _ _))

end FulfillmentPlanner

/-- The windows are not longer than the promises, as those of the default policy are. -/
structure WindowsKept (policy : SimulationPolicy) : Prop where
  shipment : policy.orderToShipment.maximum ≤ 5
  delivery : policy.shipmentToDelivery.maximum ≤ 5
  invoice : policy.shipmentToInvoice.maximum ≤ 3

/-- Among the rows that were not there at the start, the breached ones are of shipments that
have stalled. -/
structure OnlyStalls (policy : SimulationPolicy) (sha256 : Sha256) (start : OpsDatabase)
    (events : List BusinessEvent) (db : OpsDatabase) : Prop where
  orders : ∀ row, row ∈ db.orderHistory → row ∉ start.orderHistory → row.slaStatus = .breached →
    row.newStatus = .shipped ∧ ∃ orderEvent order, orderEvent ∈ events ∧
      orderEvent.body = .orderCreated order ∧ row.recordId = order.orderId ∧
      policy.stalledShipment (sha256.digest ("shipment:" ++ orderEvent.eventId) 1) = true
  shipments : ∀ row, row ∈ db.shipmentHistory → row ∉ start.shipmentHistory →
    row.slaStatus = .onTime
  invoices : ∀ row, row ∈ db.invoiceHistory → row ∉ start.invoiceHistory → row.slaStatus = .onTime

theorem SlaKept.onlyStalls {start db : OpsDatabase} {events : List BusinessEvent}
    (h : SlaKept policy sha256 start events db) (hwindows : WindowsKept policy) :
    OnlyStalls policy sha256 start events db := by
  have honTime : ∀ {status : SlaStatus}, status ≠ .breached → status = .onTime := by
    intro status hstatus
    cases status with
    | onTime => rfl
    | breached => exact absurd rfl hstatus
  refine ⟨fun row hrow hnew hbreached => ?_, fun row hrow hnew => ?_, fun row hrow hnew => ?_⟩
  · cases (h.orders row hrow).resolve_left hnew with
    | created status sla => exact absurd (hbreached.symm.trans sla) (by decide)
    | @shipped orderEvent order mem body id status sla =>
        have hdelay := hwindows.shipment.trans_lt (sla.mp hbreached)
        exact ⟨status, orderEvent, order, mem, body, id,
          FulfillmentPlanner.stalled_of_shipmentDelay hdelay⟩
    | @invoiced shipped _ mem body id status sla =>
        have hdelay := hwindows.invoice.trans_lt (sla.mp hbreached)
        exact absurd hdelay (Nat.not_lt.mpr (FulfillmentPlanner.invoiceDelay_le shipped))
  · refine honTime fun hbreached => ?_
    cases (h.shipments row hrow).resolve_left hnew with
    | created status sla => exact absurd (hbreached.symm.trans sla) (by decide)
    | @delivered shipped _ mem body id status sla =>
        have hdelay := hwindows.delivery.trans_lt (sla.mp hbreached)
        exact absurd hdelay (Nat.not_lt.mpr (FulfillmentPlanner.deliveryDelay_le shipped))
  · refine honTime fun hbreached => ?_
    cases (h.invoices row hrow).resolve_left hnew with
    | @issued event shipped _ _ source id invoiceBody mem body order status sla =>
        have hdelay := hwindows.invoice.trans_lt (sla.mp hbreached)
        exact absurd hdelay (Nat.not_lt.mpr (FulfillmentPlanner.invoiceDelay_le shipped))

/-! ## Runs -/

theorem Fulfilling.fresh (h : Fulfilling policy sha256 crmPlan w s)
    (hmem : event ∈ s.control.events) {shipment : ShipmentCreated}
    (hbody : event.body = .shipmentCreated shipment)
    (hunmarked : event.eventId ∉ s.ops.appliedEvents) :
    ∀ row, row ∈ s.ops.shipments → row.shipmentId ≠ shipment.shipmentId := by
  intro row hrow hid
  have hplan := h.shipments.planned event hmem ⟨shipment, hbody⟩ hunmarked
  exact (OpsRun.planned_shipment hplan hbody).1 (hid ▸ List.mem_map_of_mem hrow)

theorem Fulfilling.promised_effectStep {db db' : OpsDatabase}
    (h : Fulfilling policy sha256 crmPlan w s) (hs : Journal sha256 w s)
    (hpromised : Promised s.control.events db) (hmem : event ∈ s.control.events)
    (hstep : EffectStep event db db') : Promised s.control.events db' :=
  hpromised.effectStep
    (fun _ hmem _ hmem' hid => hs.recorded.eq_of_eventId hmem hmem' hid)
    (fun event hmem event' hmem' shipment hbody shipment' hbody' hid =>
      h.shipments.distinct event hmem event' hmem' shipment hbody shipment' hbody' (.inl hid))
    hmem hstep

/-- What is known of the rows of a store. -/
structure SlaStands (policy : SimulationPolicy) (sha256 : Sha256) (start : OpsDatabase)
    (s : Stores) : Prop where
  days : OnDueDays policy sha256 s
  promised : Promised s.control.events s.ops
  kept : SlaKept policy sha256 start s.control.events s.ops

theorem SlaStands.move {start : OpsDatabase} (hinjective : sha256.Injective)
    (h : SlaStands policy sha256 start s) (hfulfilling : Fulfilling policy sha256 crmPlan w s)
    (hthrough : FulfilledThrough policy sha256 w s) (hmove : Move policy sha256 crmPlan w s t) :
    SlaStands policy sha256 start t := by
  have hs := hmove.before
  have hdays := h.days.move hinjective hfulfilling hthrough hmove
  obtain ⟨hpromised, hkept⟩ : Promised s.control.events t.ops ∧
      SlaKept policy sha256 start s.control.events t.ops := by
    rcases hmove.ops with hsame | ⟨events, hday, hcommits⟩
    · rw [hsame]
      exact ⟨h.promised, h.kept⟩
    · refine hcommits.effects.1.keeps (P := fun u => Promised s.control.events u ∧
        SlaKept policy sha256 start s.control.events u) ⟨h.promised, h.kept⟩ ?_
      rintro event hevent u v ⟨hpromised, hkept⟩ hstep
      have hmem := (hday event hevent).1
      exact ⟨hfulfilling.promised_effectStep hs hpromised hmem hstep,
        hkept.effectStep h.days hpromised hmem hstep⟩
  obtain ⟨w', ht, hfulfilling'⟩ :
      ∃ w', Journal sha256 w' t ∧ Fulfilling policy sha256 crmPlan w' t := by
    rcases hmove.journal with ht | ⟨rfl, ht, _, hops, hmarked⟩
    · exact ⟨w, ht, (invariant_fulfilling hinjective).move w s t hfulfilling hmove ht⟩
    · exact ⟨w + 1, ht, (invariant_fulfilling hinjective).complete w s hfulfilling hs hops hmarked⟩
  refine ⟨hdays, ⟨fun event hmem shipment hbody hunmarked => ?_,
    fun event hmem shipment hbody hmarked => ?_⟩, hkept.mono hmove.events.1⟩
  · exact hfulfilling'.fresh hmem hbody hunmarked
  · exact hpromised.promised event (hmove.mem_of_marked ht.recorded hmem hmarked) shipment hbody
      hmarked

theorem sla_dayByDay (hinjective : sha256.Injective) (start : OpsDatabase) :
    DayByDay policy sha256 crmPlan (Fulfilling policy sha256 crmPlan)
      (FulfilledThrough policy sha256) (SlaStands policy sha256 start) where
  invariant := invariant_fulfilling hinjective
  kept _ _ _ _ h hmove := h.move hmove
  worked _ _ h hs hworked := fulfilledThrough_of_work hinjective h hs hworked
  dated _ _ _ h hthrough hstands hmove := hstands.move hinjective h hthrough hmove

section Runs

variable {start : Stores} {b : Nat}

/-- **Breaches are delays.**  In every store that a run of attempts and crashes reaches, the rows
it has written are breached where the planned delay is longer than the promise, and only
there; with windows inside the promises this leaves the stalled shipments. -/
theorem breached_iff_delayed (hinjective : sha256.Injective) (hstart : Unstarted b start)
    (hids : (start.ops.shipments.map ShipmentRow.shipmentId).Nodup)
    (hreached : Attempts policy sha256 crmPlan start t) :
    SlaKept policy sha256 start.ops t.control.events t.ops ∧
      (WindowsKept policy → OnlyStalls policy sha256 start.ops t.control.events t.ops) := by
  have hpromised : Promised start.control.events start.ops := by
    constructor <;> simp [hstart.events]
  have hkept : SlaKept policy sha256 start.ops start.control.events start.ops :=
    ⟨fun _ => .inl, fun _ => .inl, fun _ => .inl⟩
  obtain ⟨_, _, _, _, hstands⟩ := (sla_dayByDay hinjective start.ops).reached hinjective
    hstart.journal (hstart.fulfilling hids) hstart.onDueDays.1
    ⟨hstart.onDueDays.2, hpromised, hkept⟩ hreached
  exact ⟨hstands.kept, hstands.kept.onlyStalls⟩

/-- The shipment that stalled is breached, and nothing else is. -/
theorem breached_iff_delayed_stalled :
    SlaKept slowPolicy spelledDigest opening.ops (slowEvening 9).control.events
        (slowEvening 9).ops ∧
      OnlyStalls slowPolicy spelledDigest opening.ops (slowEvening 9).control.events
        (slowEvening 9).ops ∧
      (slowEvening 9).ops.orderHistory.map StatusHistoryRow.slaStatus =
        [.onTime, .breached, .onTime] := by
  have hstart : Unstarted 0 opening := ⟨rfl, rfl, rfl⟩
  have hwindows : WindowsKept slowPolicy := ⟨by decide, by decide, by decide⟩
  obtain ⟨hmarks, _, _, _, _, hbreached⟩ := slowEvening_nine
  have hkept := breached_iff_delayed spelledDigest_injective hstart List.nodup_nil
    (slowEvening_reached 9 hmarks)
  exact ⟨hkept.1, hkept.2 hwindows, hbreached⟩

end Runs

end Simulator
end Northwind
