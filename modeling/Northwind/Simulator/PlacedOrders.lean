import Northwind.Simulator.DayRuns

/-!
# Where the recorded orders come from

The orders of a day are planned once: until one of them is recorded nothing of
the plan can change, and then it is not planned again.  So every recorded order
is in the database or is one of the plan that the planner would still make, and
no two of them have one id.

An opportunity with one Closed Won event has at most one order.
-/

namespace Northwind
namespace Simulator

open CrashPrograms SimulationState OpsEventApplier

variable {policy : SimulationPolicy} {sha256 : Sha256} {crmPlan : Nat → List CrmChange}
variable {w : Nat} {s t : Stores} {event event' : BusinessEvent}

/-! ## Marks -/

theorem OpsCommits.mem_marks {events : List BusinessEvent} {db db' : OpsDatabase} {id : String}
    (h : OpsCommits events db db') :
    id ∈ db'.appliedEvents ↔
      id ∈ db.appliedEvents ∨ ∃ event, event ∈ events ∧ event.eventId = id := by
  obtain ⟨hsteps, hmarked⟩ := h.appliedBy
  constructor
  · exact hsteps.mem_marks
  · rintro (hid | ⟨event, hmem, rfl⟩)
    · exact hsteps.marks_subset hid
    · exact hmarked event hmem

/-- A recorded event that a transaction marks is one of its events. -/
theorem Journal.mem_of_marked {events : List BusinessEvent} {db : OpsDatabase}
    (hs : Journal sha256 w s) (hday : DayEvents w s events) (h : OpsCommits events s.ops db)
    (hmem : event ∈ s.control.events) :
    event.eventId ∈ db.appliedEvents ↔ event.eventId ∈ s.ops.appliedEvents ∨ event ∈ events := by
  rw [h.mem_marks]
  refine or_congr_right ⟨?_, fun h => ⟨event, h, rfl⟩⟩
  rintro ⟨other, hother, hid⟩
  rwa [← hs.recorded.eq_of_eventId (hday other hother).1 hmem hid]

/-- An Ops event without a marker is of the day in progress. -/
theorem Journal.date_of_unmarked (hs : Journal sha256 w s) (hmem : event ∈ s.control.events)
    (hsource : event.source = .ops) (hunmarked : event.eventId ∉ s.ops.appliedEvents) :
    event.businessDate = w + 1 := by
  rcases Nat.lt_or_ge event.businessDate (w + 1) with hlt | hge
  · exact absurd (hs.opsMarked event hmem hsource (Nat.le_of_lt_succ hlt)) hunmarked
  · exact le_antisymm (hs.dated event hmem) hge

theorem source_of_isOrderCreated (hcreated : Created sha256 event)
    (h : OpsRun.isOrderCreated event) : event.source = .ops := by
  rw [hcreated.source_eq]
  cases hbody : event.body <;> simp [OpsRun.isOrderCreated, hbody, EventBody.source] at h ⊢

theorem source_of_isFulfillment (hcreated : Created sha256 event)
    (h : OpsRun.isFulfillment event) : event.source = .ops := by
  rw [hcreated.source_eq]
  cases hbody : event.body <;> simp [OpsRun.isFulfillment, hbody, EventBody.source] at h ⊢

theorem isOrderCreated_iff : OpsRun.isOrderCreated event ↔
    ∃ order, event.body = .orderCreated order := by
  cases hbody : event.body <;> simp [OpsRun.isOrderCreated, hbody]

theorem not_isOrderCreated_of_isFulfillment (h : OpsRun.isFulfillment event) :
    ¬ OpsRun.isOrderCreated event := by
  cases hbody : event.body <;> simp [OpsRun.isOrderCreated, OpsRun.isFulfillment, hbody] at h ⊢

/-! ## Moves that leave the orders alone -/

/-- The stores agree in what the planner of the orders reads and in the orders
that are recorded, applied or marked. -/
structure SameOrders (s t : Stores) : Prop where
  crmFor : ∀ d, t.control.eventsFor d .crm = s.control.eventsFor d .crm
  crmThrough : ∀ d, t.control.eventsThrough d .crm = s.control.eventsThrough d .crm
  events : ∀ event, OpsRun.isOrderCreated event →
    (event ∈ t.control.events ↔ event ∈ s.control.events)
  keys : t.ops.orderKeys = s.ops.orderKeys
  marks : ∀ event, event ∈ s.control.events → OpsRun.isOrderCreated event →
    (event.eventId ∈ t.ops.appliedEvents ↔ event.eventId ∈ s.ops.appliedEvents)

theorem Moved.sameOrders {d : Nat} {applied : List SourceSystem} (h : Moved d applied s t) :
    SameOrders s t where
  crmFor d' := eventsFor_moved h d' .crm
  crmThrough d' := eventsThrough_moved h d' .crm
  events event _ := by rw [h.events]
  keys := by rw [h.ops]
  marks event _ _ := by rw [h.ops]

theorem sameOrders_record {events : List BusinessEvent}
    (h : ∀ event, event ∈ events → ¬ OpsRun.isOrderCreated event ∧ event.source ≠ .crm) :
    SameOrders s (s.record events) where
  crmFor d := eventsFor_insertEvents fun event hmem => (h event hmem).2
  crmThrough d := eventsThrough_insertEvents fun event hmem => (h event hmem).2
  events event horder := by
    refine ⟨fun hmem => ?_, fun hmem => events_subset_insertEvents _ _ hmem⟩
    exact (mem_of_mem_insertEvents hmem).resolve_right fun hnew => (h event hnew).1 horder
  keys := rfl
  marks _ _ _ := Iff.rfl

theorem sameOrders_recordFulfillment {plan : List BusinessEvent} (k : Nat)
    (h : ∀ event, event ∈ plan →
      Planned sha256 (w + 1) .ops event ∧ OpsRun.isFulfillment event) :
    SameOrders s (s.record (plan.take k)) :=
  sameOrders_record fun event hmem => by
    have hplan := h event (List.mem_of_mem_take hmem)
    refine ⟨not_isOrderCreated_of_isFulfillment hplan.2, ?_⟩
    rw [hplan.1.source]
    decide

theorem sameOrders_recordPostings {seed : Int} (k : Nat) :
    SameOrders s (s.record ((ErpRun.planPostings policy sha256 (w + 1) seed s).take k)) :=
  sameOrders_record fun event hmem => by
    have hplan : Planned sha256 (w + 1) .erp event :=
      planned_planPostings (List.mem_of_mem_take hmem)
    have hsource := hplan.source
    refine ⟨fun horder => ?_, by rw [hsource]; decide⟩
    rw [source_of_isOrderCreated hplan.created horder] at hsource
    cases hsource

/-- A transaction of fulfillment events changes no order key. -/
theorem orderKeys_of_fulfillment {events : List BusinessEvent} {db db' : OpsDatabase}
    (hkind : ∀ event, event ∈ events → OpsRun.isFulfillment event)
    (h : OpsCommits events db db') : db'.orderKeys = db.orderKeys := by
  refine h.effects.1.keeps (P := fun u => u.orderKeys = db.orderKeys) rfl ?_
  rintro event hmem u v hu ⟨_, applied, _, happlied, _, rfl⟩
  rcases happlied.orders with horders | ⟨order, hbody, _⟩
  · exact horders.trans hu
  · have hfulfillment := hkind event hmem
    simp [OpsRun.isFulfillment, hbody] at hfulfillment

theorem sameOrders_fulfillment {db : OpsDatabase} (hs : Journal sha256 w s)
    (h : OpsCommits (recordedFulfillment (w + 1) s) s.ops db) :
    SameOrders s { s with ops := db } where
  crmFor _ := rfl
  crmThrough _ := rfl
  events _ _ := Iff.rfl
  keys := orderKeys_of_fulfillment (fun event hmem => (mem_recordedFulfillment.mp hmem).2.2.2) h
  marks event hmem horder := by
    rw [hs.mem_of_marked dayEvents_fulfillment h hmem, or_iff_left]
    intro hfulfillment
    exact not_isOrderCreated_of_isFulfillment (mem_recordedFulfillment.mp hfulfillment).2.2.2
      horder

/-- A move as the orders see it. -/
inductive OrderMove (policy : SimulationPolicy) (sha256 : Sha256)
    (crmPlan : Nat → List CrmChange) (w : Nat) (s : Stores) : Stores → Prop
  | same {t : Stores} (same : SameOrders s t) : OrderMove policy sha256 crmPlan w s t
  | crmPlan (new : s.control.eventsFor (w + 1) .crm = []) (k : Nat) :
      OrderMove policy sha256 crmPlan w s (s.record ((CrmRun.plan sha256 crmPlan (w + 1)).take k))
  | orderPlan (crm : CrmSettled sha256 crmPlan (w + 1) s)
      (new : recordedOrders (w + 1) s = []) (k : Nat) :
      OrderMove policy sha256 crmPlan w s
        (s.record ((OpsRun.planOrders policy sha256 (w + 1) s).take k))
  | orders {events : List BusinessEvent} {db : OpsDatabase}
      (crm : CrmSettled sha256 crmPlan (w + 1) s)
      (same : ∀ event, event ∈ events ↔ event ∈ recordedOrders (w + 1) s)
      (committed : OpsCommits events s.ops db) :
      OrderMove policy sha256 crmPlan w s { s with ops := db }

theorem Move.orderMove (h : Move policy sha256 crmPlan w s t) :
    OrderMove policy sha256 crmPlan w s t := by
  cases h with
  | control _ moved => exact .same moved.sameOrders
  | crmPlan _ new k => exact .crmPlan new k
  | crmApplied _ _ moved => exact .same moved.sameOrders
  | orderPlan _ crm new k => exact .orderPlan crm new k
  | orders _ crm _ same committed => exact .orders crm same committed
  | fulfillmentPlan _ _ k =>
      exact .same (sameOrders_recordFulfillment k fun _ => planned_planFulfillment)
  | casePlan _ _ k =>
      exact .same (sameOrders_recordFulfillment k fun _ => planned_planSupportCases)
  | fulfillment journal _ committed => exact .same (sameOrders_fulfillment journal committed)
  | opsApplied _ _ moved => exact .same moved.sameOrders
  | postingPlan _ _ _ _ seed k => exact .same (sameOrders_recordPostings k)
  | postings =>
      exact .same ⟨fun _ => rfl, fun _ => rfl, fun _ _ => Iff.rfl, rfl, fun _ _ _ => Iff.rfl⟩
  | erpApplied _ _ _ moved => exact .same moved.sameOrders
  | completed =>
      exact .same ⟨fun _ => rfl, fun _ => rfl, fun _ _ => Iff.rfl, rfl, fun _ _ _ => Iff.rfl⟩

/-! ## Recorded orders -/

/-- Every recorded order is in the database, or one of the plan that stands. -/
structure OrdersPlaced (policy : SimulationPolicy) (sha256 : Sha256)
    (crmPlan : Nat → List CrmChange) (w : Nat) (s : Stores) : Prop where
  settled : ∀ event, event ∈ s.control.events → event.businessDate = w + 1 →
    OpsRun.isOrderCreated event → CrmSettled sha256 crmPlan (w + 1) s
  placed : ∀ event, event ∈ s.control.events → ∀ order, event.body = .orderCreated order →
    event.eventId ∈ s.ops.appliedEvents → order.orderId ∈ s.ops.orders.map OrderRow.orderId
  planned : ∀ event, event ∈ s.control.events → OpsRun.isOrderCreated event →
    event.eventId ∉ s.ops.appliedEvents → event ∈ OpsRun.planOrders policy sha256 (w + 1) s
  distinct : ∀ event, event ∈ s.control.events → ∀ event', event' ∈ s.control.events →
    ∀ order, event.body = .orderCreated order → ∀ order', event'.body = .orderCreated order' →
      order.orderId = order'.orderId → event = event'

theorem OrdersPlaced.congr (h : OrdersPlaced policy sha256 crmPlan w s) (hsame : SameOrders s t) :
    OrdersPlaced policy sha256 crmPlan w t := by
  have hold : ∀ {event order}, event ∈ t.control.events → event.body = .orderCreated order →
      event ∈ s.control.events ∧ OpsRun.isOrderCreated event := by
    intro event order hmem hbody
    have horder := isOrderCreated_iff.mpr ⟨order, hbody⟩
    exact ⟨(hsame.events event horder).mp hmem, horder⟩
  refine ⟨fun event hmem hdate horder => ?_, fun event hmem order hbody hmarked => ?_,
    fun event hmem horder hunmarked => ?_,
    fun event hmem event' hmem' order hbody order' hbody' hid => ?_⟩
  · exact (h.settled event ((hsame.events event horder).mp hmem) hdate horder).congr
      (hsame.crmFor _)
  · obtain ⟨hmem, horder⟩ := hold hmem hbody
    rw [orders_map_orderId, hsame.keys, ← orders_map_orderId]
    exact h.placed event hmem order hbody ((hsame.marks event hmem horder).mp hmarked)
  · have hmem := (hsame.events event horder).mp hmem
    rw [planOrders_congr (hsame.crmThrough _) hsame.keys]
    exact h.planned event hmem horder fun hmarked =>
      hunmarked ((hsame.marks event hmem horder).mpr hmarked)
  · exact h.distinct event (hold hmem hbody).1 event' (hold hmem' hbody').1 order hbody order'
      hbody' hid

/-- A planned order has an id that is not in use. -/
theorem OpsRun.planned_orderId {order : OrderCreated} {d : Nat}
    (h : event ∈ OpsRun.planOrders policy sha256 d s) (hbody : event.body = .orderCreated order) :
    order.orderId ∉ s.ops.orders.map OrderRow.orderId := by
  obtain ⟨i, _, _, order', _, _, _, _, _, hid, _, rfl⟩ := OpsDailyPlanner.mem_plan h
  obtain rfl := EventBody.orderCreated.inj hbody
  intro hmem
  have := lt_nextId hmem
  omega

/-- Two planned orders of one id are one order. -/
theorem OpsRun.eq_of_planned_orderId {order order' : OrderCreated} {d : Nat}
    (h : event ∈ OpsRun.planOrders policy sha256 d s)
    (h' : event' ∈ OpsRun.planOrders policy sha256 d s)
    (hbody : event.body = .orderCreated order) (hbody' : event'.body = .orderCreated order')
    (hid : order.orderId = order'.orderId) : event = event' := by
  obtain ⟨i, crmEvent, _, o, hget, hmake, _, _, _, hi, _, heq⟩ := OpsDailyPlanner.mem_plan h
  obtain ⟨i', crmEvent', _, o', hget', hmake', _, _, _, hi', _, heq'⟩ :=
    OpsDailyPlanner.mem_plan h'
  have ho : o = order := EventBody.orderCreated.inj ((congrArg _ heq).symm.trans hbody)
  have ho' : o' = order' := EventBody.orderCreated.inj ((congrArg _ heq').symm.trans hbody')
  rw [ho] at hi
  rw [ho'] at hi'
  obtain rfl : i = i' := by omega
  obtain rfl := Option.some.inj (hget.symm.trans hget')
  exact Option.some.inj (hmake.symm.trans hmake')

/-- Nothing of the plan is recorded yet: a plan with a settled CRM stands. -/
theorem OrdersPlaced.recordOrders (hinjective : sha256.Injective) (hs : Journal sha256 w s)
    (h : OrdersPlaced policy sha256 crmPlan w s) (hcrm : CrmSettled sha256 crmPlan (w + 1) s)
    (hnew : recordedOrders (w + 1) s = []) (k : Nat) :
    OrdersPlaced policy sha256 crmPlan w
      (s.record ((OpsRun.planOrders policy sha256 (w + 1) s).take k)) := by
  have hplanned : ∀ event, event ∈ (OpsRun.planOrders policy sha256 (w + 1) s).take k →
      event ∈ OpsRun.planOrders policy sha256 (w + 1) s := fun _ => List.mem_of_mem_take
  have hcrmEvents : ∀ event, event ∈ (OpsRun.planOrders policy sha256 (w + 1) s).take k →
      event.source ≠ .crm := by
    intro event hmem
    rw [(planned_planOrders (hplanned event hmem)).1.source]
    decide
  have hsettled := hcrm.congr (crm_record hcrmEvents).1
  have hsamePlan : OpsRun.planOrders policy sha256 (w + 1) (s.record _) =
      OpsRun.planOrders policy sha256 (w + 1) s :=
    planOrders_congr (crm_record hcrmEvents).2 rfl
  -- an order that was recorded before this day is in the database
  have hold : ∀ event, event ∈ s.control.events → OpsRun.isOrderCreated event →
      event.eventId ∈ s.ops.appliedEvents := by
    intro event hmem horder
    by_contra hunmarked
    have hsource := source_of_isOrderCreated (hs.recorded.created event hmem) horder
    have hdate := hs.date_of_unmarked hmem hsource hunmarked
    have hrecorded := mem_recordedOrders.mpr ⟨hmem, hdate, hsource, horder⟩
    rw [hnew] at hrecorded
    cases hrecorded
  have hsplit : ∀ event, event ∈ (s.record ((OpsRun.planOrders policy sha256 (w + 1) s).take
      k)).control.events → event ∈ s.control.events ∨ (event ∉ s.control.events ∧
        event ∈ OpsRun.planOrders policy sha256 (w + 1) s) := by
    intro event hmem
    by_cases hmem' : event ∈ s.control.events
    · exact .inl hmem'
    · exact .inr ⟨hmem', hplanned event ((mem_of_mem_insertEvents hmem).resolve_left hmem')⟩
  refine ⟨fun _ _ _ _ => hsettled, fun event hmem order hbody hmarked => ?_,
    fun event hmem horder hunmarked => ?_,
    fun event hmem event' hmem' order hbody order' hbody' hid => ?_⟩
  · rcases hsplit event hmem with hmem | ⟨hmem, hplan⟩
    · exact h.placed event hmem order hbody hmarked
    · have hcreated := (planned_planOrders hplan).1
      have hunmarked := hs.not_mem_opsMarks hinjective hcreated.created hcreated.source hmem
      exact absurd hmarked hunmarked
  · rw [hsamePlan]
    rcases hsplit event hmem with hmem | ⟨_, hplan⟩
    · exact absurd (hold event hmem horder) hunmarked
    · exact hplan
  · have hplace : ∀ {event order}, event ∈ s.control.events → event.body = .orderCreated order →
        order.orderId ∈ s.ops.orders.map OrderRow.orderId := fun hmem hbody =>
      h.placed _ hmem _ hbody (hold _ hmem (isOrderCreated_iff.mpr ⟨_, hbody⟩))
    rcases hsplit event hmem with hmem | ⟨_, hplan⟩ <;>
      rcases hsplit event' hmem' with hmem' | ⟨_, hplan'⟩
    · exact h.distinct event hmem event' hmem' order hbody order' hbody' hid
    · exact absurd (hid ▸ hplace hmem hbody) (OpsRun.planned_orderId hplan' hbody')
    · exact absurd (hid ▸ hplace hmem' hbody') (OpsRun.planned_orderId hplan hbody)
    · exact OpsRun.eq_of_planned_orderId hplan hplan' hbody hbody' hid

/-- After their transaction the recorded orders are in the database. -/
theorem OrdersPlaced.apply {events : List BusinessEvent} {db : OpsDatabase}
    (hs : Journal sha256 w s) (h : OrdersPlaced policy sha256 crmPlan w s)
    (hsame : ∀ event, event ∈ events ↔ event ∈ recordedOrders (w + 1) s)
    (hcommits : OpsCommits events s.ops db) :
    OrdersPlaced policy sha256 crmPlan w { s with ops := db } := by
  have hday := dayEvents_orders hsame
  refine ⟨h.settled, ?_, fun event hmem horder hunmarked => ?_, h.distinct⟩
  · refine hcommits.effects.1.keeps (P := fun u => ∀ event, event ∈ s.control.events →
      ∀ order, event.body = .orderCreated order → event.eventId ∈ u.appliedEvents →
        order.orderId ∈ u.orders.map OrderRow.orderId) h.placed ?_
    rintro other hother u v hu ⟨_, applied, _, happlied, hdone, rfl⟩ event hmem order hbody hmarked
    change order.orderId ∈ applied.orders.map OrderRow.orderId
    rw [orders_map_orderId]
    rcases List.mem_append.mp hmarked with hmarked | hmarked
    · have hplaced := hu event hmem order hbody hmarked
      rw [orders_map_orderId] at hplaced
      exact List.map_subset _ happlied.orderKeys_subset hplaced
    · obtain rfl := hs.recorded.eq_of_eventId hmem (hday other hother).1
        (List.mem_singleton.mp hmarked)
      rw [hbody] at hdone
      obtain ⟨customerId, hkey⟩ := hdone
      exact List.mem_map_of_mem hkey
  · -- no order is left without a marker
    have hsource := source_of_isOrderCreated (hs.recorded.created event hmem) horder
    have hunmarked' := (hs.mem_of_marked hday hcommits hmem).not.mp hunmarked
    have hdate := hs.date_of_unmarked hmem hsource fun hmarked => hunmarked' (.inl hmarked)
    exact absurd (.inr ((hsame event).mpr (mem_recordedOrders.mpr ⟨hmem, hdate, hsource, horder⟩)))
      hunmarked'

/-- A settled CRM plan has nothing more to record. -/
theorem CrmSettled.plan_eq_nil {d : Nat} (h : CrmSettled sha256 crmPlan d s)
    (hnew : s.control.eventsFor d .crm = []) : CrmRun.plan sha256 crmPlan d = [] :=
  h.resolve_left fun hne => hne hnew

theorem OrdersPlaced.recordCrm (hs : Journal sha256 w s)
    (h : OrdersPlaced policy sha256 crmPlan w s)
    (hnew : s.control.eventsFor (w + 1) .crm = []) (k : Nat) :
    OrdersPlaced policy sha256 crmPlan w
      (s.record ((CrmRun.plan sha256 crmPlan (w + 1)).take k)) := by
  by_cases hplan : CrmRun.plan sha256 crmPlan (w + 1) = []
  · rw [hplan, List.take_nil]
    exact h
  -- no order of the day is recorded before the CRM events
  have hnone : ∀ event, event ∈ s.control.events → OpsRun.isOrderCreated event →
      event.businessDate ≠ w + 1 := fun event hmem horder hdate =>
    hplan ((h.settled event hmem hdate horder).plan_eq_nil hnew)
  have hold : ∀ event, event ∈ (s.record ((CrmRun.plan sha256 crmPlan (w + 1)).take
      k)).control.events → OpsRun.isOrderCreated event → event ∈ s.control.events := by
    intro event hmem horder
    refine (mem_of_mem_insertEvents hmem).resolve_right fun hnew => ?_
    obtain ⟨change, _, rfl⟩ := List.mem_map.mp (List.mem_of_mem_take hnew)
    cases horder
  refine ⟨fun event hmem hdate horder => absurd hdate (hnone event (hold event hmem horder)
    horder), fun event hmem order hbody => h.placed event (hold event hmem
      (isOrderCreated_iff.mpr ⟨order, hbody⟩)) order hbody, fun event hmem horder hunmarked => ?_,
    fun event hmem event' hmem' order hbody order' hbody' => h.distinct event
      (hold event hmem (isOrderCreated_iff.mpr ⟨order, hbody⟩)) event'
      (hold event' hmem' (isOrderCreated_iff.mpr ⟨order', hbody'⟩)) order hbody order' hbody'⟩
  have hmem := hold event hmem horder
  exact absurd (hs.date_of_unmarked hmem (source_of_isOrderCreated
    (hs.recorded.created event hmem) horder) hunmarked) (hnone event hmem horder)

/-- The Journal of the store a move starts from. -/
theorem Move.before (h : Move policy sha256 crmPlan w s t) : Journal sha256 w s := by
  cases h <;> assumption

theorem invariant_ordersPlaced (hinjective : sha256.Injective) :
    Invariant policy sha256 crmPlan (OrdersPlaced policy sha256 crmPlan) where
  move w s t h hmove _ := by
    have hs := hmove.before
    cases hmove.orderMove with
    | same same => exact h.congr same
    | crmPlan new k => exact h.recordCrm hs new k
    | orderPlan crm new k => exact h.recordOrders hinjective hs crm new k
    | orders _ same committed => exact h.apply hs same committed
  complete w s h hs hdone _ := by
    refine ⟨fun event hmem hdate _ => ?_, h.placed, fun event hmem horder hunmarked => ?_,
      h.distinct⟩
    · have := hs.dated event hmem
      omega
    · have hsource := source_of_isOrderCreated (hs.recorded.created event hmem) horder
      exact absurd (hdone.marked event hmem hsource (hs.date_of_unmarked hmem hsource hunmarked))
        hunmarked

/-! ## Opportunities -/

/-- At most one Closed Won event is recorded of an opportunity. -/
def OneClosedWon (s : Stores) : Prop :=
  ∀ event, event ∈ s.control.events → ∀ event', event' ∈ s.control.events →
    ∀ change, OpsDailyPlanner.closedWon event = some change →
    ∀ change', OpsDailyPlanner.closedWon event' = some change' →
      change.entityId = change'.entityId → event = event'

theorem OneClosedWon.of_subset (h : OneClosedWon t)
    (hsubset : s.control.events ⊆ t.control.events) : OneClosedWon s :=
  fun event hmem event' hmem' => h event (hsubset hmem) event' (hsubset hmem')

namespace OpsDatabase

/-- The opportunities that have an order, each as often as it has one. -/
def opportunityRefs (db : OpsDatabase) : List String :=
  db.orders.filterMap OrderRow.opportunityRef

theorem opportunityRefs_eq (db : OpsDatabase) :
    db.opportunityRefs = db.orderKeys.filterMap (fun key => key.2.2) := by
  rw [opportunityRefs, orderKeys, List.filterMap_map]
  rfl

end OpsDatabase

/-- A planned order is of an opportunity without one. -/
theorem OpsRun.planned_ref {order : OrderCreated} {d : Nat}
    (h : event ∈ OpsRun.planOrders policy sha256 d s) (hbody : event.body = .orderCreated order) :
    order.opportunityRef ∉ s.ops.opportunityRefs := by
  obtain ⟨_, crmEvent, change, order', _, _, hmem, hwon, hnew, _, href, rfl⟩ :=
    OpsDailyPlanner.mem_plan h
  obtain rfl := EventBody.orderCreated.inj hbody
  intro hconverted
  rw [href] at hconverted
  refine hnew (List.mem_filter.mpr ⟨hconverted, decide_eq_true ?_⟩)
  refine List.mem_map.mpr ⟨crmEvent, hmem, ?_⟩
  cases hcrm : crmEvent.body <;> simp [OpsDailyPlanner.closedWon, hcrm] at hwon
  obtain ⟨_, rfl⟩ := hwon
  rfl

/-- Two planned orders of one opportunity come from one Closed Won event. -/
theorem OpsRun.eq_of_planned_ref {order order' : OrderCreated} {d : Nat}
    (hs : WellRecorded sha256 s.control) (hone : OneClosedWon s)
    (h : event ∈ OpsRun.planOrders policy sha256 d s)
    (h' : event' ∈ OpsRun.planOrders policy sha256 d s)
    (hbody : event.body = .orderCreated order) (hbody' : event'.body = .orderCreated order')
    (href : order.opportunityRef = order'.opportunityRef) : event = event' := by
  obtain ⟨i, crmEvent, change, o, hget, hmake, hmem, hwon, _, _, ho, heq⟩ :=
    OpsDailyPlanner.mem_plan h
  obtain ⟨i', crmEvent', change', o', hget', hmake', hmem', hwon', _, _, ho', heq'⟩ :=
    OpsDailyPlanner.mem_plan h'
  rw [EventBody.orderCreated.inj ((congrArg _ heq).symm.trans hbody)] at ho
  rw [EventBody.orderCreated.inj ((congrArg _ heq').symm.trans hbody')] at ho'
  obtain rfl := hone crmEvent (mem_eventsThrough.mp hmem).1 crmEvent'
    (mem_eventsThrough.mp hmem').1 change hwon change' hwon' (ho.symm.trans (href.trans ho'))
  have hnodup : (sortedById ((s.control.eventsThrough d .crm).filter
      (OpsDailyPlanner.isEligible policy sha256 d
        (OpsRun.converted s.ops (OpsRun.entityIds (s.control.eventsThrough d .crm)))))).Nodup := by
    refine (List.Perm.nodup_iff (List.perm_insertionSort _ _)).mpr ?_
    exact hs.nodup_eventsThrough.of_map.filter _
  have hlt := List.getElem?_eq_some_iff.mp hget |>.1
  obtain rfl := (List.getElem?_inj hlt hnodup).mp (hget.trans hget'.symm)
  exact Option.some.inj (hmake.symm.trans hmake')

theorem count_concat_le_one {α : Type} [DecidableEq α] {x y : α} {xs : List α}
    (h : xs.count x ≤ 1) (hy : y ∉ xs) : (xs ++ [y]).count x ≤ 1 := by
  rw [List.count_append]
  by_cases heq : y = x
  · rw [List.count_eq_zero_of_not_mem (heq ▸ hy), heq, List.count_singleton_self]
  · rwa [List.count_eq_zero_of_not_mem (l := [y]) (by simpa using Ne.symm heq)]

/-- An opportunity gets no second order in a transaction. -/
theorem OrdersPlaced.count_refs {events : List BusinessEvent} {db : OpsDatabase} {ref : String}
    (hs : Journal sha256 w s) (h : OrdersPlaced policy sha256 crmPlan w s)
    (hone : OneClosedWon s) (href : s.ops.opportunityRefs.count ref ≤ 1)
    (hday : DayEvents w s events) (hcommits : OpsCommits events s.ops db) :
    db.opportunityRefs.count ref ≤ 1 := by
  let Inv : OpsDatabase → Prop := fun u =>
    s.ops.appliedEvents ⊆ u.appliedEvents ∧ u.opportunityRefs.count ref ≤ 1 ∧
      ∀ event, event ∈ s.control.events → ∀ order, event.body = .orderCreated order →
        event.eventId ∉ u.appliedEvents → order.opportunityRef ∉ u.opportunityRefs
  have hplanned : ∀ {event order}, event ∈ s.control.events → event.body = .orderCreated order →
      event.eventId ∉ s.ops.appliedEvents →
        event ∈ OpsRun.planOrders policy sha256 (w + 1) s := fun hmem hbody hunmarked =>
    h.planned _ hmem (isOrderCreated_iff.mpr ⟨_, hbody⟩) hunmarked
  have hstart : Inv s.ops := ⟨List.Subset.refl _, href, fun event hmem order hbody hunmarked =>
    OpsRun.planned_ref (hplanned hmem hbody hunmarked) hbody⟩
  refine (hcommits.effects.1.keeps (P := Inv) hstart ?_).2.1
  rintro event hevent u v ⟨hmarks, hcount, hfree⟩ ⟨hunmarked, applied, _, happlied, _, rfl⟩
  have hrecorded := (hday event hevent).1
  refine ⟨List.Subset.trans hmarks (List.subset_append_left _ _), ?_⟩
  change applied.opportunityRefs.count ref ≤ 1 ∧ ∀ other, other ∈ s.control.events → ∀ order,
    other.body = .orderCreated order → other.eventId ∉ u.appliedEvents ++ [event.eventId] →
      order.opportunityRef ∉ applied.opportunityRefs
  rw [OpsDatabase.opportunityRefs_eq]
  rcases happlied.orders with hkeys | ⟨order, hbody, _, hkeys⟩
  · rw [hkeys, ← OpsDatabase.opportunityRefs_eq]
    refine ⟨hcount, fun other hother o ho hnew => hfree other hother o ho fun hmarked => ?_⟩
    exact hnew (List.mem_append_left _ hmarked)
  · rw [hkeys, List.filterMap_append, ← OpsDatabase.opportunityRefs_eq]
    have hfresh := hfree event hrecorded order hbody hunmarked
    refine ⟨count_concat_le_one hcount hfresh, fun other hother o ho hnew => ?_⟩
    have hnew' : other.eventId ∉ u.appliedEvents ∧ other.eventId ≠ event.eventId := by
      simpa using hnew
    refine fun hmem => (List.mem_append.mp hmem).elim (hfree other hother o ho hnew'.1) ?_
    intro hsingle
    have href : o.opportunityRef = order.opportunityRef := List.mem_singleton.mp hsingle
    have heq := OpsRun.eq_of_planned_ref hs.recorded hone
      (hplanned hother ho fun hmarked => hnew'.1 (hmarks hmarked))
      (hplanned hrecorded hbody fun hmarked => hunmarked (hmarks hmarked)) ho hbody href
    exact hnew'.2 (by rw [heq])

/-- Where every opportunity is won once, none gets a second order. -/
theorem invariant_opportunityRefs (hinjective : sha256.Injective) (ref : String) :
    Invariant policy sha256 crmPlan (fun w s => OrdersPlaced policy sha256 crmPlan w s ∧
      (OneClosedWon s → s.ops.opportunityRefs.count ref ≤ 1)) :=
  (invariant_ordersPlaced hinjective).and
    (fun w s t hplaced href hmove _ _ hone => by
      have hone' := hone.of_subset hmove.events.1
      rcases hmove.ops with hsame | ⟨events, hday, hcommits⟩
      · rw [hsame]
        exact href hone'
      · exact hplaced.count_refs hmove.before hone' (href hone') hday hcommits)
    (fun w s _ href _ _ _ hone => href hone)

theorem Unstarted.ordersPlaced {b : Nat} (h : Unstarted b s) :
    OrdersPlaced policy sha256 crmPlan b s := by
  constructor <;> simp [h.events]

end Simulator
end Northwind
