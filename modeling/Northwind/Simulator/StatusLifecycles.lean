import Northwind.Simulator.DayRuns
import Northwind.Simulator.StatusHistories

/-!
# Lifecycles of orders, shipments, invoices and support cases

The history of everything the simulator has created is a chain of its statuses
that ends with the status of its row.  It is so after every run, because every
row that an event writes goes on from the status it has read, and no event is
earlier than one that is applied.
-/

namespace Northwind
namespace Simulator

open CrashPrograms CrashPrograms.Program SimulationState SimulationStateStore StatusChains
open OpsEventApplier

/-! ## Steps of the lifecycles -/

inductive OrderStep : Option OrderStatus → OrderStatus → Prop
  | pending : OrderStep none .pending
  | shipped : OrderStep (some .pending) .shipped
  | invoiced : OrderStep (some .shipped) .invoiced

inductive ShipmentStep : Option ShipmentStatus → ShipmentStatus → Prop
  | shipped : ShipmentStep none .shipped
  | delivered : ShipmentStep (some .shipped) .delivered

inductive InvoiceStep : Option InvoiceStatus → InvoiceStatus → Prop
  | issued : InvoiceStep none .issued

inductive CaseStep : Option CaseStatus → CaseStatus → Prop
  | opened : CaseStep none .opened
  | resolved : CaseStep (some .opened) .resolved
  | closed : CaseStep (some .resolved) .closed

/-- The status that the dates of a shipment imply. -/
def ShipmentRow.status (row : ShipmentRow) : ShipmentStatus :=
  if row.deliveredDate.isSome then .delivered else .shipped

/-! ## Tables with a history -/

section Tracking

variable {ρ σ : Type} {key : ρ → Nat} {status : ρ → σ} {step : Option σ → σ → Prop}
variable {old : List Nat} {latest : Nat} {rows : List ρ} {history : List (StatusHistoryRow σ)}

/-- The history of a record. -/
def lifecycle (history : List (StatusHistoryRow σ)) (id : Nat) : List (Change σ Nat) :=
  changesOf StatusHistoryRow.recordId StatusHistoryRow.change history id

/-- Every record that is not an old one has a chain that ends with its status, and
no change after `latest`. -/
structure Tracked (old : List Nat) (step : Option σ → σ → Prop) (key : ρ → Nat)
    (status : ρ → σ) (latest : Nat) (rows : List ρ) (history : List (StatusHistoryRow σ)) :
    Prop where
  known : ∀ change, change ∈ history → change.recordId ∈ rows.map key
  past : ∀ change, change ∈ history → change.recordId ∉ old → change.occurredAt ≤ latest
  ends : ∀ row, row ∈ rows → key row ∉ old →
    EndsIn step (lifecycle history (key row)) (status row)

theorem Tracked.mono {latest' : Nat} (h : Tracked old step key status latest rows history)
    (hle : latest ≤ latest') : Tracked old step key status latest' rows history :=
  { h with past := fun change hmem hnew => (h.past change hmem hnew).trans hle }

/-- At the start, every record is an old one. -/
theorem tracked_start (h : ∀ change, change ∈ history → change.recordId ∈ rows.map key) :
    Tracked (rows.map key) step key status latest rows history where
  known := h
  past change hmem hnew := absurd (h change hmem) hnew
  ends _ hmem hnew := absurd (List.mem_map_of_mem hmem) hnew

/-- A new record with the first change of its chain. -/
theorem Tracked.create {row : ρ} {change : StatusHistoryRow σ}
    (h : Tracked old step key status latest rows history) (hnew : key row ∉ rows.map key)
    (hid : change.recordId = key row) (hprevious : change.previousStatus = none)
    (hnext : change.newStatus = status row) (hstep : step none (status row))
    (hlatest : change.occurredAt ≤ latest) :
    Tracked old step key status latest (rows ++ [row]) (history ++ [change]) where
  known other hmem := by
    rw [List.map_append]
    obtain hmem | hmem := List.mem_append.mp hmem
    · exact List.mem_append_left _ (h.known other hmem)
    · obtain rfl := List.mem_singleton.mp hmem
      exact List.mem_append_right _ (by simp [hid])
  past other hmem hother := by
    obtain hmem | hmem := List.mem_append.mp hmem
    · exact h.past other hmem hother
    · obtain rfl := List.mem_singleton.mp hmem
      exact hlatest
  ends other hmem hother := by
    obtain hmem | hmem := List.mem_append.mp hmem
    · have hne : change.recordId ≠ key other := by
        rw [hid]
        intro heq
        exact hnew (heq ▸ List.mem_map_of_mem hmem)
      rw [lifecycle, changesOf_concat_of_ne hne]
      exact h.ends other hmem hother
    · obtain rfl := List.mem_singleton.mp hmem
      have hnone : lifecycle history (key other) = [] :=
        changesOf_eq_nil fun known hknown heq => hnew (heq ▸ h.known known hknown)
      have hlog : lifecycle (history ++ [change]) (key other) = [change.change] := by
        rw [lifecycle, ← hid, changesOf_concat, hid]
        exact congrArg (· ++ [change.change]) hnone
      rw [← hnext] at hstep
      rw [hlog, ← hnext]
      exact endsIn_singleton hprevious hstep

/-- A record on to its next status, with the change. -/
theorem Tracked.advance {row : ρ} {update : ρ → ρ} {change : StatusHistoryRow σ}
    (h : Tracked old step key status latest rows history) (hmem : row ∈ rows)
    (hid : key row = change.recordId) (hprevious : change.previousStatus = some (status row))
    (hstep : step (some (status row)) change.newStatus) (hlatest : change.occurredAt = latest)
    (hkey : ∀ row, key (update row) = key row)
    (hset : ∀ row, key row = change.recordId → status (update row) = change.newStatus)
    (hkeep : ∀ row, key row ≠ change.recordId → status (update row) = status row) :
    Tracked old step key status latest (rows.map update) (history ++ [change]) where
  known other hother := by
    rw [map_key_update hkey]
    obtain hother | hother := List.mem_append.mp hother
    · exact h.known other hother
    · obtain rfl := List.mem_singleton.mp hother
      exact hid ▸ List.mem_map_of_mem hmem
  past other hother hnew := by
    obtain hother | hother := List.mem_append.mp hother
    · exact h.past other hother hnew
    · obtain rfl := List.mem_singleton.mp hother
      exact hlatest.le
  ends updated hupdated hnew := by
    obtain ⟨other, hother, rfl⟩ := List.mem_map.mp hupdated
    rw [hkey] at hnew ⊢
    by_cases hsame : key other = change.recordId
    · -- rows of one id have one chain, so they have one status
      have hends := h.ends other hother hnew
      have hrow : EndsIn step (lifecycle history (key other)) (status row) := by
        rw [hsame, ← hid]
        exact h.ends row hmem (by rwa [hid, ← hsame])
      have hlog : lifecycle (history ++ [change]) (key other) =
          lifecycle history (key other) ++ [change.change] := by
        rw [lifecycle, hsame, changesOf_concat]
        rfl
      rw [hlog, hset other hsame]
      refine hrow.concat hprevious hstep fun earlier hearlier => ?_
      obtain ⟨known, hknown, hknownId, rfl⟩ := mem_changesOf.mp hearlier
      exact (h.past known hknown (hknownId ▸ hnew)).trans hlatest.ge
    · have hne : change.recordId ≠ key other := fun heq => hsame heq.symm
      rw [lifecycle, changesOf_concat_of_ne hne, hkeep other hsame]
      exact h.ends other hother hnew

end Tracking

/-! ## The four tables -/

/-- The chains of everything that is not in the first database. -/
structure Lifecycles (start : OpsDatabase) (d : Nat) (db : OpsDatabase) : Prop where
  orders : Tracked (start.orders.map OrderRow.orderId) OrderStep OrderRow.orderId
    OrderRow.status (atHour d 8) db.orders db.orderHistory
  shipments : Tracked (start.shipments.map ShipmentRow.shipmentId) ShipmentStep
    ShipmentRow.shipmentId ShipmentRow.status (atHour d 17) db.shipments db.shipmentHistory
  invoices : Tracked (start.invoices.map InvoiceRow.invoiceId) InvoiceStep
    InvoiceRow.invoiceId InvoiceRow.status (atHour d 17) db.invoices db.invoiceHistory
  cases : Tracked (start.supportCases.map SupportCaseRow.caseId) CaseStep
    SupportCaseRow.caseId SupportCaseRow.status (atHour d 17) db.supportCases db.caseHistory

/-- The foreign keys of the status histories. -/
structure HistoriesKnown (db : OpsDatabase) : Prop where
  orders : ∀ row, row ∈ db.orderHistory → row.recordId ∈ db.orders.map OrderRow.orderId
  shipments : ∀ row, row ∈ db.shipmentHistory →
    row.recordId ∈ db.shipments.map ShipmentRow.shipmentId
  invoices : ∀ row, row ∈ db.invoiceHistory →
    row.recordId ∈ db.invoices.map InvoiceRow.invoiceId
  cases : ∀ row, row ∈ db.caseHistory →
    row.recordId ∈ db.supportCases.map SupportCaseRow.caseId

variable {start db db' : OpsDatabase} {event : BusinessEvent} {d : Nat}

theorem lifecycles_start (h : HistoriesKnown db) : Lifecycles db d db where
  orders := tracked_start h.orders
  shipments := tracked_start h.shipments
  invoices := tracked_start h.invoices
  cases := tracked_start h.cases

theorem atHour_le_atHour {d d' hour hour' : Nat} (hd : d ≤ d') (hhour : hour ≤ hour') :
    atHour d hour ≤ atHour d' hour' :=
  Nat.add_le_add (midnight_le_midnight.mpr hd) (Nat.mul_le_mul_right _ hhour)

theorem Lifecycles.mono {d' : Nat} (h : Lifecycles start d db) (hle : d ≤ d') :
    Lifecycles start d' db where
  orders := h.orders.mono (atHour_le_atHour hle le_rfl)
  shipments := h.shipments.mono (atHour_le_atHour hle le_rfl)
  invoices := h.invoices.mono (atHour_le_atHour hle le_rfl)
  cases := h.cases.mono (atHour_le_atHour hle le_rfl)

/-- An order goes on by a row of the day. -/
theorem Lifecycles.advanceOrder {order : OrderRow} {change : StatusHistoryRow OrderStatus}
    (h : Lifecycles start d db) (hmem : order ∈ db.orders)
    (hid : order.orderId = change.recordId) (hprevious : change.previousStatus = some order.status)
    (hstep : OrderStep (some order.status) change.newStatus)
    (hoccurred : change.occurredAt = atHour d 8) :
    Lifecycles start d (advanceOrder change db) :=
  { h with
    orders := h.orders.advance hmem hid hprevious hstep hoccurred
      (fun row => by split <;> rfl) (fun row hrow => by rw [if_pos hrow])
      (fun row hrow => by rw [if_neg hrow]) }

theorem Lifecycles.advanceCase {row : SupportCaseRow} {change : StatusHistoryRow CaseStatus}
    (h : Lifecycles start d db) (hmem : row ∈ db.supportCases)
    (hid : row.caseId = change.recordId) (hprevious : change.previousStatus = some row.status)
    (hstep : CaseStep (some row.status) change.newStatus)
    (hoccurred : change.occurredAt = atHour d 17) :
    Lifecycles start d (advanceCase change db) :=
  { h with
    cases := h.cases.advance hmem hid hprevious hstep hoccurred
      (fun row => by split <;> rfl) (fun row hrow => by rw [if_pos hrow])
      (fun row hrow => by rw [if_neg hrow]) }

theorem Lifecycles.withShipment {shipment : ShipmentCreated} (h : Lifecycles start d db)
    (hdate : event.businessDate = d)
    (hnew : shipment.shipmentId ∉ db.shipments.map ShipmentRow.shipmentId) :
    Lifecycles start d (withShipment event shipment db) :=
  { h with
    shipments := h.shipments.create hnew rfl rfl rfl .shipped
      (atHour_le_atHour hdate.le (by decide)) }

theorem Lifecycles.withDelivery {delivery : ShipmentDelivered} {row : ShipmentRow}
    (h : Lifecycles start d db) (hdate : event.businessDate = d) (hmem : row ∈ db.shipments)
    (hid : row.shipmentId = delivery.shipmentId) (hnone : row.deliveredDate = none) :
    Lifecycles start d (withDelivery event delivery row db) := by
  have hstatus : row.status = .shipped := by simp [ShipmentRow.status, hnone]
  refine
    { h with
      shipments := h.shipments.advance hmem hid (by rw [hstatus]; rfl)
        (by rw [hstatus]; exact .delivered) (by rw [← hdate]; rfl)
        (fun row => by split <;> rfl) (fun known hknown => ?_) (fun known hknown => ?_) }
  · rw [if_pos (show known.shipmentId = delivery.shipmentId from hknown)]
    rfl
  · rw [if_neg (show known.shipmentId ≠ delivery.shipmentId from hknown)]

theorem Lifecycles.withInvoice {invoice : InvoiceCreated} {order : OrderRow}
    (h : Lifecycles start d db) (hdate : event.businessDate = d) :
    Lifecycles start d (withInvoice event invoice order db) :=
  { h with
    invoices := h.invoices.create (fun hmem => (lt_nextId hmem).ne rfl) rfl rfl rfl .issued
      (atHour_le_atHour hdate.le (by decide)) }

/-- What applying an event of the day does keeps the lifecycles. -/
theorem Lifecycles.effect (h : Lifecycles start d db) (hdate : event.businessDate = d)
    (heffect : Effect event db db') : Lifecycles start d db' := by
  have hat : ∀ hour, atHour event.businessDate hour = atHour d hour := fun _ => by rw [hdate]
  cases heffect with
  | orderKnown => exact { h with }
  | orderCreated _ new =>
      exact
        { h with
          orders := h.orders.create new rfl rfl rfl .pending (hat 8).le }
  | shipmentKnown => exact h
  | shipmentCreated _ newId => exact h.withShipment hdate newId
  | orderShipped _ newId _ known id status =>
      exact (h.withShipment hdate newId).advanceOrder known id (by rw [status]; rfl)
        (by rw [status]; exact .shipped) (hat 8)
  | deliveryKnown => exact h
  | shipmentDelivered _ known id undelivered => exact h.withDelivery hdate known id undelivered
  | invoiceKnown => exact h
  | invoiceCreated => exact h.withInvoice hdate
  | orderInvoiced _ _ known id status =>
      exact (h.withInvoice hdate).advanceOrder known id (by rw [status]; rfl)
        (by rw [status]; exact .invoiced) (hat 8)
  | caseKnown => exact h
  | caseOpened _ new =>
      exact
        { h with
          cases := h.cases.create new rfl rfl rfl .opened
            (atHour_le_atHour hdate.le (by decide)) }
  | resolutionKnown => exact h
  | caseResolved _ known id status =>
      exact h.advanceCase known id (by rw [status]; rfl) (by rw [status]; exact .resolved)
        (hat 17)
  | closureKnown => exact h
  | caseClosed _ known id status =>
      exact h.advanceCase known id (by rw [status]; rfl) (by rw [status]; exact .closed)
        (hat 17)

/-! ## Attempts -/

section Attempts

variable {policy : SimulationPolicy} {sha256 : Sha256} {crmPlan : Nat → List CrmChange}
variable {w : Nat} {s t : Stores} {seed : Int}

/-- The Ops database and the watermark as they were. -/
structure Untouched (s t : Stores) : Prop where
  ops : t.ops = s.ops
  lastCompleted : t.control.lastCompleted = s.control.lastCompleted

theorem Untouched.refl (s : Stores) : Untouched s s :=
  ⟨rfl, rfl⟩

/-- What an attempt at the day after `w` does to the Ops database and the
watermark: events of the day are applied, and the day completes. -/
structure Touch (w : Nat) (s t : Stores) : Prop where
  ops : t.ops = s.ops ∨ ∃ events : List BusinessEvent,
    (∀ event, event ∈ events → event.businessDate = w + 1) ∧ OpsCommits events s.ops t.ops
  lastCompleted : t.control.lastCompleted = s.control.lastCompleted ∨
    t.control.lastCompleted = some (w + 1)

theorem Untouched.touch (h : Untouched s t) : Touch w s t :=
  ⟨.inl h.ops, .inl h.lastCompleted⟩

/-- The program touches the stores as an attempt does. -/
abbrev Touches (w : Nat) {α : Type} (p : RunProgram α) (L : α → Prop) : Prop :=
  BySteps (Touch w) (fun _ _ => True) (fun _ => True) p (fun a _ => L a)

theorem touches_of_untouched {α : Type} {p : RunProgram α}
    (h : ∀ s, p.Meets (Untouched s) (fun _ => Untouched s) (fun _ => Untouched s) s) :
    Touches w p (fun _ => True) := by
  intro s _
  exact (h s).mono (fun _ h => .single h.touch) (fun _ _ h => ⟨.single h.touch, trivial⟩)
    (fun _ _ h => ⟨.single h.touch, trivial⟩)

theorem claimRun_touches (breach : Nat → Int → Bool) (d : Nat) :
    Touches w (inControl (claimRun breach d seed)) (fun _ => True) := by
  refine touches_of_untouched fun s => ?_
  rw [inControl, meets_onPart]
  exact (claimRun_sameOutside breach d seed).mono (fun _ h => ⟨rfl, h.lastCompleted⟩)
    (fun _ _ h => ⟨rfl, h.lastCompleted⟩) (fun _ _ h => ⟨rfl, h.lastCompleted⟩)

theorem untouched_record (s : Stores) (events : List BusinessEvent) :
    Untouched s (s.record events) :=
  ⟨rfl, (insertEvents_sameControl s.control events).lastCompleted⟩

theorem recordEvents_touches (events : List BusinessEvent) :
    Touches w (inControl (recordEvents events)) (fun _ => True) := by
  refine touches_of_untouched fun s => (record_spec s events).mono ?_ ?_ ?_
  · rintro _ ⟨k, rfl⟩
    exact untouched_record s _
  · rintro _ _ rfl
    exact untouched_record s _
  · rintro _ _ ⟨_, k, rfl⟩
    exact untouched_record s _

theorem recordedOr_touches
    {known plan : List BusinessEvent} {P : BusinessEvent → Prop}
    (hknown : ∀ event, event ∈ known → P event) (hplan : ∀ event, event ∈ plan → P event) :
    Touches w (inControl (recordedOr known plan)) (fun events => ∀ event, event ∈ events →
      P event) := by
  intro s _
  refine (recordedOr_stores_spec s known plan).mono ?_ ?_ ?_
  · rintro _ ⟨_, k, rfl⟩
    exact .single (untouched_record s _).touch
  · rintro _ _ (⟨_, rfl, rfl⟩ | ⟨_, rfl, rfl⟩)
    · exact ⟨.refl, hknown⟩
    · exact ⟨.single (untouched_record s _).touch, hplan⟩
  · rintro _ _ ⟨_, _, k, rfl⟩
    exact ⟨.single (untouched_record s _).touch, trivial⟩

theorem mark_touches (d : Nat) (source : SourceSystem) (generated applied : Int) :
    Touches w (inControl (markSourceApplied d source generated applied)) (fun _ => True) := by
  refine touches_of_untouched fun s => (mark_spec s d source generated applied).mono ?_ ?_ ?_
  · rintro _ rfl
    exact Untouched.refl _
  · exact fun _ _ h => ⟨h.ops, h.lastCompleted⟩
  · rintro _ _ ⟨rfl, _⟩
    exact Untouched.refl _

theorem sourceRunState_touches (d : Nat) (source : SourceSystem) :
    Touches w (inControl (sourceRunState d source)) (fun _ => True) := by
  refine touches_of_untouched fun s => (sourceRunState_spec s d source).mono ?_ ?_ ?_
  · rintro _ rfl
    exact Untouched.refl _
  · rintro _ _ ⟨rfl, _⟩
    exact Untouched.refl _
  · rintro _ _ ⟨rfl, _⟩
    exact Untouched.refl _

theorem opsApply_touches {events : List BusinessEvent}
    (h : ∀ event, event ∈ events → event.businessDate = w + 1) :
    Touches w (inOps (OpsEventApplier.apply events)) (fun _ => True) := by
  intro s _
  refine (opsApply_commits s events).mono ?_ ?_ ?_
  · rintro _ rfl
    exact .refl
  · rintro _ _ ⟨db, rfl, hcommits⟩
    exact ⟨.single ⟨.inr ⟨events, h, hcommits⟩, .inl rfl⟩, trivial⟩
  · rintro _ _ ⟨rfl, _⟩
    exact ⟨.refl, trivial⟩

theorem erpApply_touches (events : List BusinessEvent) :
    Touches w (inErp (ErpEventApplier.apply events)) (fun _ => True) := by
  refine touches_of_untouched fun s => (erpApply_commits s events).mono ?_ ?_ ?_
  · rintro _ rfl
    exact Untouched.refl _
  · rintro _ _ ⟨db, rfl, _⟩
    exact ⟨rfl, rfl⟩
  · rintro _ _ ⟨rfl, _⟩
    exact Untouched.refl _

theorem complete_touches : Touches w (inControl (completeRun (w + 1))) (fun _ => True) := by
  intro s _
  refine (complete_spec s (w + 1)).mono ?_ ?_ ?_
  · exact fun _ h => .single (Untouched.touch ⟨h.ops, h.lastCompleted⟩)
  · rintro _ _ ⟨rfl, _⟩
    exact ⟨.single ⟨.inl rfl, .inr rfl⟩, trivial⟩
  · rintro _ _ ⟨rfl, _⟩
    exact ⟨.refl, trivial⟩

theorem read_touches {L : Stores → Prop} (h : ∀ s, L s) :
    Touches w (read : RunProgram Stores) L :=
  bySteps_read fun s _ => h s

theorem touches_mono {α : Type} {p : RunProgram α} {L : α → Prop} (h : Touches w p L) :
    Touches w p (fun _ => True) :=
  h.mono (fun _ h => h) (fun _ _ _ => trivial)

theorem crmRun_touches :
    Touches w (CrmRun.run policy sha256 crmPlan (w + 1) seed) (fun _ => True) := by
  rw [CrmRun.run]
  refine (claimRun_touches _ _).bind fun _ => (read_touches fun _ => trivial).bind fun s => ?_
  have hrecord : ∀ known plan : List BusinessEvent,
      Touches w (inControl (recordedOr known plan)) (fun _ => True) := fun known plan =>
    touches_mono (recordedOr_touches (P := fun _ => True) (fun _ _ => trivial) fun _ _ => trivial)
  exact (hrecord _ _).bind fun events => mark_touches _ _ _ _

theorem opsRun_touches :
    Touches w (OpsRun.run policy sha256 (w + 1) seed) (fun _ => True) := by
  have hrecorded : ∀ (s : Stores) (p : BusinessEvent → Bool) event,
      event ∈ (s.control.eventsFor (w + 1) .ops).filter p → event.businessDate = w + 1 :=
    fun s p event hmem => (mem_eventsFor.mp (List.mem_filter.mp hmem).1).2.1
  have horders : Touches w (OpsRun.recordOrders policy sha256 (w + 1))
      (fun events => ∀ event, event ∈ events → event.businessDate = w + 1) := by
    rw [OpsRun.recordOrders]
    refine (read_touches (L := fun _ => True) fun _ => trivial).bind fun s => ?_
    exact (recordedOr_touches (hrecorded s _)
      fun event hmem => (planned_planOrders hmem).1.businessDate).mono (fun _ _ => trivial)
        (fun _ _ h => h)
  have hfulfillment : Touches w (OpsRun.recordFulfillment policy sha256 (w + 1))
      (fun _ => True) := by
    rw [OpsRun.recordFulfillment]
    refine (read_touches fun _ => trivial).bind fun s => (recordEvents_touches _).bind fun _ => ?_
    exact (read_touches fun _ => trivial).bind fun s => recordEvents_touches _
  have happly : Touches w (OpsRun.applyFulfillment (w + 1)) (fun _ => True) := by
    rw [OpsRun.applyFulfillment]
    exact (read_touches fun _ => trivial).bind fun s => opsApply_touches (hrecorded s _)
  rw [OpsRun.run]
  refine (claimRun_touches _ _).bind fun _ => (sourceRunState_touches _ _).bind fun crm => ?_
  refine bySteps_ite (fun _ => bySteps_raise fun _ _ => trivial) fun _ => ?_
  rw [OpsRun.work]
  refine BySteps.bind (L := fun events _ => ∀ event, event ∈ events →
    event.businessDate = w + 1) horders fun events s hevents => ?_
  refine BySteps.bind (K := fun _ => True) (opsApply_touches hevents) (fun orders => ?_) s trivial
  refine hfulfillment.bind fun _ => happly.bind fun fulfillment => ?_
  exact (read_touches fun _ => trivial).bind fun stores => mark_touches _ _ _ _

theorem erpRun_touches :
    Touches w (ErpRun.run policy sha256 (w + 1) seed) (fun _ => True) := by
  have hrecord : Touches w (ErpRun.recordPostings policy sha256 (w + 1) seed)
      (fun _ => True) := by
    rw [ErpRun.recordPostings]
    refine (read_touches fun _ => trivial).bind fun s => bySteps_ite (fun _ => ?_) fun _ =>
      bySteps_pure fun _ _ => trivial
    rw [ErpRun.planAndRecord]
    refine bySteps_ite (fun _ => bySteps_raise fun _ _ => trivial) fun _ => ?_
    rw [ErpRun.recordPlan]
    exact (recordEvents_touches _).bind fun _ => bySteps_pure fun _ _ => trivial
  rw [ErpRun.run]
  refine (claimRun_touches _ _).bind fun _ => (sourceRunState_touches _ _).bind fun ops => ?_
  refine bySteps_ite (fun _ => bySteps_raise fun _ _ => trivial) fun _ => ?_
  rw [ErpRun.work]
  exact hrecord.bind fun events => (erpApply_touches events).bind fun applied =>
    (mark_touches _ _ _ _).bind fun _ => complete_touches

theorem run_touches :
    Touches w (DailySimulationRunner.run policy sha256 crmPlan (w + 1) seed)
      (fun _ => True) := by
  rw [DailySimulationRunner.run]
  refine crmRun_touches.bind fun _ => opsRun_touches.bind fun _ => erpRun_touches.bind fun _ => ?_
  have hlast : Touches w (inControl lastCompletedDate) (fun _ => True) := by
    refine touches_of_untouched fun s => ?_
    rw [inControl, meets_onPart, lastCompletedDate, meets_bind, meets_read]
    cases s.control.lastCompleted with
    | none => exact (meets_raise _).mpr (Untouched.refl s)
    | some last => exact (meets_pure _).mpr (Untouched.refl s)
  exact hlast.bind fun last => bySteps_ite (fun _ => bySteps_raise fun _ _ => trivial)
    fun _ => bySteps_pure fun _ _ => trivial

/-- The watermark stays, or goes on by a day, while the lifecycles grow. -/
theorem Lifecycles.attempt {start : OpsDatabase} (hw : s.control.lastCompleted = some w)
    (h : Lifecycles start (w + 1) s.ops)
    (hattempt : DailySimulationRunner.Attempt policy sha256 crmPlan seed s t) :
    ∃ w', t.control.lastCompleted = some w' ∧ Lifecycles start (w' + 1) t.ops := by
  obtain ⟨w', hw', hleaves⟩ := hattempt
  obtain rfl := Option.some.inj (hw.symm.trans hw')
  have hmoves := run_touches.leaves trivial hleaves
  have hend : (t.control.lastCompleted = some w ∨ t.control.lastCompleted = some (w + 1)) ∧
      Lifecycles start (w + 1) t.ops := by
    clear hleaves
    induction hmoves with
    | refl => exact ⟨.inl hw, h⟩
    | tail _ hmove ih =>
        refine ⟨hmove.lastCompleted.elim (fun heq => heq ▸ ih.1) .inr, ?_⟩
        obtain hsame | ⟨events, hdate, hcommits⟩ := hmove.ops
        · exact hsame ▸ ih.2
        · refine hcommits.effects.1.keeps (P := Lifecycles start (w + 1)) ih.2 ?_
          rintro event hmem u v hu ⟨_, applied, heffect, _, _, rfl⟩
          exact { hu.effect (hdate event hmem) heffect with }
  obtain ⟨hlast | hlast, hend⟩ := hend
  · exact ⟨w, hlast, hend⟩
  · exact ⟨w + 1, hlast, hend.mono (Nat.le_succ _)⟩

/-- In every store that a run reaches, the history of every order, shipment,
invoice and support case the simulator has created is a chain of its statuses
that ends with the status of its row. -/
theorem lifecycles_chained {start : Stores} (hknown : HistoriesKnown start.ops)
    (hrun : Attempts policy sha256 crmPlan start t) :
    (∀ row, row ∈ t.ops.orders → row.orderId ∉ start.ops.orders.map OrderRow.orderId →
      EndsIn OrderStep (lifecycle t.ops.orderHistory row.orderId) row.status) ∧
    (∀ row, row ∈ t.ops.shipments →
      row.shipmentId ∉ start.ops.shipments.map ShipmentRow.shipmentId →
      EndsIn ShipmentStep (lifecycle t.ops.shipmentHistory row.shipmentId) row.status) ∧
    (∀ row, row ∈ t.ops.invoices → row.invoiceId ∉ start.ops.invoices.map InvoiceRow.invoiceId →
      EndsIn InvoiceStep (lifecycle t.ops.invoiceHistory row.invoiceId) row.status) ∧
    (∀ row, row ∈ t.ops.supportCases →
      row.caseId ∉ start.ops.supportCases.map SupportCaseRow.caseId →
      EndsIn CaseStep (lifecycle t.ops.caseHistory row.caseId) row.status) := by
  have hend : (∃ d, Lifecycles start.ops d t.ops) ∧
      ∀ w, t.control.lastCompleted = some w → Lifecycles start.ops (w + 1) t.ops := by
    induction hrun with
    | refl => exact ⟨⟨0, lifecycles_start hknown⟩, fun _ _ => lifecycles_start hknown⟩
    | tail _ hattempt ih =>
        obtain ⟨seed, hattempt⟩ := hattempt
        obtain ⟨w, hw, _⟩ := id hattempt
        obtain ⟨w', hw', h⟩ := (ih.2 w hw).attempt hw hattempt
        refine ⟨⟨_, h⟩, fun w'' hw'' => ?_⟩
        obtain rfl := Option.some.inj (hw'.symm.trans hw'')
        exact h
  obtain ⟨⟨_, h⟩, _⟩ := hend
  exact ⟨h.orders.ends, h.shipments.ends, h.invoices.ends, h.cases.ends⟩

end Attempts

/-! ## An order invoiced on its first day -/

/-- Nothing is delayed, and no date is a breach date. -/
def promptPolicy : SimulationPolicy where
  crmToOps := ⟨0, 0, le_rfl⟩
  orderToShipment := ⟨0, 0, le_rfl⟩
  shipmentToDelivery := ⟨0, 0, le_rfl⟩
  shipmentToInvoice := ⟨0, 0, le_rfl⟩
  invoiceToErp := ⟨0, 0, le_rfl⟩
  delayedCrmToOps _ := false
  stalledShipment _ := false
  delayedErpPosting _ := false
  isWeeklySlaBreachDate _ _ := false

/-- An event is told by its date, its type and its entity. -/
def plainDigest : Sha256 where
  digest _ _ := 0
  hexdigest d _ eventType entityId _ := eventType ++ " " ++ entityId ++ " " ++ toString d

/-- One opportunity is won, on day 1. -/
def oneWon : Nat → List CrmChange
  | 1 => [⟨"opportunity_stage_changed", "006A",
      [("StageName", some (.text "Closed Won")), ("AccountId", some (.text "0017"))]⟩]
  | _ => []

def stockedOps : OpsDatabase where
  customers := []
  products := [⟨1, 1999⟩]
  warehouses := ["W1"]
  carriers := ["C1"]
  orders := []
  orderLines := []
  shipments := []
  invoices := []
  supportCases := []
  orderHistory := []
  shipmentHistory := []
  invoiceHistory := []
  caseHistory := []
  appliedEvents := []

def chartedErp : ErpDatabase where
  companies := [⟨"US01", "USD"⟩]
  glAccounts := [⟨"4000", "REVENUE", true⟩]
  costCenters := [⟨"CC1", "US01", true, 0, none⟩]
  fxRates := []
  revenuePostings := []
  appliedEvents := []

def opening : Stores :=
  ⟨initialized 0, stockedOps, chartedErp⟩

def firstEvening : Stores :=
  (DailySimulationRunner.run promptPolicy plainDigest oneWon 1 0 opening).final

theorem firstEvening_reached : Attempts promptPolicy plainDigest oneWon opening firstEvening :=
  .single ⟨0, 0, rfl, leaves_final _ _⟩

/-- Created, shipped and invoiced on one day, the order has a chain that ends
with its status. -/
theorem lifecycles_chained_firstEvening :
    EndsIn OrderStep (lifecycle firstEvening.ops.orderHistory 1) .invoiced := by
  have hmem : (⟨1, 7, some "006A", 1, "USD", .invoiced⟩ : OrderRow) ∈ firstEvening.ops.orders := by
    decide +kernel
  have hknown : HistoriesKnown opening.ops := by
    constructor <;> exact fun _ hmem => nomatch hmem
  exact (lifecycles_chained hknown firstEvening_reached).1 _ hmem (by decide)

end Simulator
end Northwind
