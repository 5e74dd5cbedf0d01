import Northwind.Simulator.FulfillmentDays

/-!
# Support cases come on their day

Cases are planned from the recorded events alone.  An attempt that crashed may
have given a case an id that the next one gives again, but no delivery gets a
second opening, and no id a second resolution or closure; and each of them comes
on the day that its delay names.
-/

namespace Northwind
namespace Simulator

open CrashPrograms CrashPrograms.Program SimulationState OpsEventApplier

variable {policy : SimulationPolicy} {sha256 : Sha256} {crmPlan : Nat → List CrmChange}
variable {w d : Nat} {s t : Stores} {event event' : BusinessEvent}

/-! ## The plan of the cases -/

namespace SupportCasePlanner

variable {events : List BusinessEvent} {runDate first : Nat}

theorem mem_alreadyOpened {shipmentId : Nat} : shipmentId ∈ alreadyOpened events ↔
    ∃ event opening, event ∈ events ∧ event.body = .supportCaseOpened opening ∧
      opening.shipmentId = shipmentId := by
  simp only [alreadyOpened, List.mem_filterMap]
  refine exists_congr fun event => ?_
  cases hbody : event.body <;> simp

theorem mem_resolvedCaseIds {caseId : Nat} : caseId ∈ resolvedCaseIds events ↔
    ∃ event resolution, event ∈ events ∧ event.body = .supportCaseResolved resolution ∧
      resolution.caseId = caseId := by
  simp only [resolvedCaseIds, List.mem_filterMap]
  refine exists_congr fun event => ?_
  cases hbody : event.body <;> simp

theorem mem_closedCaseIds {caseId : Nat} : caseId ∈ closedCaseIds events ↔
    ∃ event closure, event ∈ events ∧ event.body = .supportCaseClosed closure ∧
      closure.caseId = caseId := by
  simp only [closedCaseIds, List.mem_filterMap]
  refine exists_congr fun event => ?_
  cases hbody : event.body <;> simp

theorem mem_eligible : event ∈ eligible sha256 runDate events ↔
    event ∈ events ∧ ∃ delivery, event.body = .shipmentDelivered delivery ∧
      delivery.shipmentId ∉ alreadyOpened events ∧ opensCase sha256 event = true ∧
      event.businessDate + openingDelay sha256 event ≤ runDate := by
  rw [eligible, mem_sortedById, List.mem_filter]
  refine and_congr_right fun _ => ?_
  cases hbody : event.body <;> simp [isEligible, hbody, and_assoc]

/-- The payload of the opening of a delivery. -/
def openingOf (caseId : Nat) (delivery : ShipmentDelivered) : SupportCaseOpened where
  caseId := caseId
  shipmentId := delivery.shipmentId
  orderId := delivery.orderId
  priority := "P3"

theorem mem_openings_iff : event ∈ openings sha256 runDate events first ↔
    ∃ i deliveryEvent delivery, (eligible sha256 runDate events)[i]? = some deliveryEvent ∧
      deliveryEvent.body = .shipmentDelivered delivery ∧
      event = sha256.createEvent runDate
        (.supportCaseOpened (openingOf (first + i) delivery)) := by
  rw [openings, mem_planNumbered]
  refine exists_congr fun i => exists_congr fun deliveryEvent => ?_
  cases hbody : deliveryEvent.body <;> simp [openingFor, hbody, openingOf, eq_comm]

theorem mem_resolutions_iff {resolved : List Nat} :
    event ∈ events.filterMap (resolutionFor sha256 runDate resolved) ↔
      ∃ opened opening, opened ∈ events ∧ opened.body = .supportCaseOpened opening ∧
        opening.caseId ∉ resolved ∧
        opened.businessDate + resolutionDelay sha256 opened ≤ runDate ∧
        event = sha256.createEvent runDate
          (.supportCaseResolved ⟨opening.caseId, opening.priority⟩) := by
  rw [List.mem_filterMap]
  refine exists_congr fun opened => ?_
  cases hbody : opened.body <;> simp [resolutionFor, hbody, eq_comm]

theorem mem_closures_iff {closed : List Nat} :
    event ∈ events.filterMap (closureFor sha256 runDate closed) ↔
      ∃ resolved resolution, resolved ∈ events ∧
        resolved.body = .supportCaseResolved resolution ∧ resolution.caseId ∉ closed ∧
        resolved.businessDate + closureDelay sha256 resolved ≤ runDate ∧
        event = sha256.createEvent runDate
          (.supportCaseClosed ⟨resolution.caseId, resolution.priority⟩) := by
  rw [List.mem_filterMap]
  refine exists_congr fun resolved => ?_
  cases hbody : resolved.body <;> simp [closureFor, hbody, eq_comm]

end SupportCasePlanner

open SupportCasePlanner

/-- What the case planner reads on the day after `w`. -/
abbrev opsEvents (w : Nat) (s : Stores) : List BusinessEvent :=
  s.control.eventsThrough (w + 1) .ops

theorem mem_planSupportCases : event ∈ OpsRun.planSupportCases sha256 (w + 1) s ↔
    (∃ i deliveryEvent delivery,
      (eligible sha256 (w + 1) (opsEvents w s))[i]? = some deliveryEvent ∧
      deliveryEvent.body = .shipmentDelivered delivery ∧
      event = sha256.createEvent (w + 1) (.supportCaseOpened (openingOf
        (nextId (s.ops.supportCases.map SupportCaseRow.caseId) + i) delivery))) ∨
    (∃ opened opening, opened ∈ opsEvents w s ∧ opened.body = .supportCaseOpened opening ∧
      opening.caseId ∉ resolvedCaseIds (opsEvents w s) ∧
      opened.businessDate + resolutionDelay sha256 opened ≤ w + 1 ∧
      event = sha256.createEvent (w + 1)
        (.supportCaseResolved ⟨opening.caseId, opening.priority⟩)) ∨
    ∃ resolved resolution, resolved ∈ opsEvents w s ∧
      resolved.body = .supportCaseResolved resolution ∧
      resolution.caseId ∉ closedCaseIds (opsEvents w s) ∧
      resolved.businessDate + closureDelay sha256 resolved ≤ w + 1 ∧
      event = sha256.createEvent (w + 1)
        (.supportCaseClosed ⟨resolution.caseId, resolution.priority⟩) := by
  rw [OpsRun.planSupportCases, SupportCasePlanner.plan, List.mem_append, List.mem_append,
    mem_openings_iff, mem_resolutions_iff, mem_closures_iff, or_assoc]
  refine or_congr_right (or_congr_left ?_)
  constructor
  · rintro ⟨opened, opening, hmem, hbody, hnew, hdue, heq⟩
    refine ⟨opened, opening, (List.mem_append.mp hmem).resolve_right fun hopening => ?_, hbody,
      hnew, hdue, heq⟩
    -- a resolution takes a day at least
    obtain ⟨_, _, _, _, _, rfl⟩ := mem_openings_iff.mp hopening
    rw [resolutionDelay] at hdue
    change w + 1 + _ ≤ w + 1 at hdue
    omega
  · rintro ⟨opened, opening, hmem, hrest⟩
    exact ⟨opened, opening, List.mem_append_left _ hmem, hrest⟩

/-! ## What is due -/

/-- The openings, resolutions and closures that are due by `w` are recorded. -/
structure CasesThrough (sha256 : Sha256) (w : Nat) (s : Stores) : Prop where
  opened : ∀ event, event ∈ s.control.events → ∀ delivery,
    event.body = .shipmentDelivered delivery → opensCase sha256 event = true →
    event.businessDate + openingDelay sha256 event ≤ w →
      delivery.shipmentId ∈ alreadyOpened s.control.events
  resolved : ∀ event, event ∈ s.control.events → ∀ opening,
    event.body = .supportCaseOpened opening →
    event.businessDate + resolutionDelay sha256 event ≤ w →
      opening.caseId ∈ resolvedCaseIds s.control.events
  closed : ∀ event, event ∈ s.control.events → ∀ resolution,
    event.body = .supportCaseResolved resolution →
    event.businessDate + closureDelay sha256 event ≤ w →
      resolution.caseId ∈ closedCaseIds s.control.events

theorem CasesThrough.move (h : CasesThrough sha256 w s)
    (hmove : Move policy sha256 crmPlan w s t) : CasesThrough sha256 w t := by
  have hold : ∀ {event : BusinessEvent} {delay : Nat}, event ∈ t.control.events →
      event.businessDate + delay ≤ w → event ∈ s.control.events := by
    intro event delay hmem hdue
    refine (hmove.events.2 event hmem).resolve_right fun hnew => ?_
    omega
  have hsubset := hmove.events.1
  refine ⟨fun event hmem delivery hbody hopens hdue => ?_, fun event hmem opening hbody hdue => ?_,
    fun event hmem resolution hbody hdue => ?_⟩
  · obtain ⟨known, opening, hknown, hrest⟩ := mem_alreadyOpened.mp
      (h.opened event (hold hmem hdue) delivery hbody hopens hdue)
    exact mem_alreadyOpened.mpr ⟨known, opening, hsubset hknown, hrest⟩
  · obtain ⟨known, resolution, hknown, hrest⟩ := mem_resolvedCaseIds.mp
      (h.resolved event (hold hmem hdue) opening hbody hdue)
    exact mem_resolvedCaseIds.mpr ⟨known, resolution, hsubset hknown, hrest⟩
  · obtain ⟨known, closure, hknown, hrest⟩ := mem_closedCaseIds.mp
      (h.closed event (hold hmem hdue) resolution hbody hdue)
    exact mem_closedCaseIds.mpr ⟨known, closure, hsubset hknown, hrest⟩

/-- The work of a day records the cases that are due on it. -/
theorem casesThrough_of_work (hinjective : sha256.Injective) (hs : Journal sha256 (w + 1) s)
    (hworked : WorkedOff policy sha256 w s) : CasesThrough sha256 (w + 1) s := by
  obtain ⟨p, q, r, hwork⟩ := hworked
  have hops : ∀ {event : BusinessEvent}, event ∈ s.control.events → event.source = .ops →
      event ∈ opsEvents w q ∨ event ∈ OpsRun.planSupportCases sha256 (w + 1) q := by
    intro event hmem hsource
    have hrecorded := (hwork.same event (by simp [hsource])).mp hmem
    refine ((hwork.mem_cases hinjective).mp hrecorded).imp_left fun hold => ?_
    exact mem_eventsThrough.mpr ⟨hold, hwork.journal.dated event hrecorded, hsource⟩
  have hplanned : ∀ {event : BusinessEvent},
      event ∈ OpsRun.planSupportCases sha256 (w + 1) q → event ∈ s.control.events := by
    intro event hplan
    have hsource := (planned_planSupportCases hplan).1.source
    exact (hwork.same event (by simp [hsource])).mpr
      ((hwork.mem_cases hinjective).mpr (.inr hplan))
  have hknown : opsEvents w q ⊆ s.control.events := by
    intro event hmem
    obtain ⟨hrecorded, _, hsource⟩ := mem_eventsThrough.mp hmem
    exact (hwork.same event (by simp [hsource])).mpr
      ((hwork.mem_cases hinjective).mpr (.inl hrecorded))
  have hsourceOf : ∀ {event : BusinessEvent}, event ∈ s.control.events →
      OpsRun.isFulfillment event → event.source = .ops := fun hmem hkind =>
    source_of_isFulfillment (hs.recorded.created _ hmem) hkind
  refine ⟨fun event hmem delivery hbody hopens hdue => ?_, fun event hmem opening hbody hdue => ?_,
    fun event hmem resolution hbody hdue => ?_⟩
  · have hread : event ∈ opsEvents w q := by
      refine (hops hmem (hsourceOf hmem (by simp [OpsRun.isFulfillment, hbody]))).resolve_right
        (Work.not_isCase ?_ ?_ ?_)
      all_goals simp [hbody]
    by_cases hopened : delivery.shipmentId ∈ alreadyOpened (opsEvents w q)
    · obtain ⟨known, opening, hmem, hrest⟩ := mem_alreadyOpened.mp hopened
      exact mem_alreadyOpened.mpr ⟨known, opening, hknown hmem, hrest⟩
    · obtain ⟨i, hget⟩ := List.getElem?_of_mem
        (mem_eligible.mpr ⟨hread, delivery, hbody, hopened, hopens, hdue⟩)
      have hplan := mem_planSupportCases.mpr (.inl ⟨i, event, delivery, hget, hbody, rfl⟩)
      exact mem_alreadyOpened.mpr ⟨_, _, hplanned hplan, rfl, rfl⟩
  · have hread : event ∈ opsEvents w q := by
      refine (hops hmem (hsourceOf hmem (by simp [OpsRun.isFulfillment, hbody]))).resolve_right
        fun hplan => ?_
      have hdate := (planned_planSupportCases hplan).1.businessDate
      rw [resolutionDelay] at hdue
      omega
    by_cases hresolved : opening.caseId ∈ resolvedCaseIds (opsEvents w q)
    · obtain ⟨known, resolution, hmem, hrest⟩ := mem_resolvedCaseIds.mp hresolved
      exact mem_resolvedCaseIds.mpr ⟨known, resolution, hknown hmem, hrest⟩
    · have hplan := mem_planSupportCases.mpr
        (.inr (.inl ⟨event, opening, hread, hbody, hresolved, hdue, rfl⟩))
      exact mem_resolvedCaseIds.mpr ⟨_, _, hplanned hplan, rfl, rfl⟩
  · have hread : event ∈ opsEvents w q := by
      refine (hops hmem (hsourceOf hmem (by simp [OpsRun.isFulfillment, hbody]))).resolve_right
        fun hplan => ?_
      have hdate := (planned_planSupportCases hplan).1.businessDate
      rw [closureDelay] at hdue
      omega
    by_cases hclosed : resolution.caseId ∈ closedCaseIds (opsEvents w q)
    · obtain ⟨known, closure, hmem, hrest⟩ := mem_closedCaseIds.mp hclosed
      exact mem_closedCaseIds.mpr ⟨known, closure, hknown hmem, hrest⟩
    · have hplan := mem_planSupportCases.mpr
        (.inr (.inr ⟨event, resolution, hread, hbody, hclosed, hdue, rfl⟩))
      exact mem_closedCaseIds.mpr ⟨_, _, hplanned hplan, rfl, rfl⟩

/-! ## The days of the events -/

/-- A support case is opened, resolved or closed. -/
def isCaseEvent (event : BusinessEvent) : Prop :=
  match event.body with
  | .supportCaseOpened _ | .supportCaseResolved _ | .supportCaseClosed _ => True
  | _ => False

/-- Every recorded opening is of a delivery, every resolution of an opening and every closure of
a resolution, on the day that the delay counted from there names; and there is one opening for
a shipment, and one resolution and one closure for an id. -/
structure CasesOnDueDays (sha256 : Sha256) (s : Stores) : Prop where
  openings : ∀ event, event ∈ s.control.events → ∀ opening,
    event.body = .supportCaseOpened opening →
      ∃ deliveryEvent delivery, deliveryEvent ∈ s.control.events ∧
        deliveryEvent.body = .shipmentDelivered delivery ∧
        opensCase sha256 deliveryEvent = true ∧
        event = sha256.createEvent
          (deliveryEvent.businessDate + openingDelay sha256 deliveryEvent)
          (.supportCaseOpened (openingOf opening.caseId delivery))
  resolutions : ∀ event, event ∈ s.control.events → ∀ resolution,
    event.body = .supportCaseResolved resolution →
      ∃ opened opening, opened ∈ s.control.events ∧
        opened.body = .supportCaseOpened opening ∧
        event = sha256.createEvent (opened.businessDate + resolutionDelay sha256 opened)
          (.supportCaseResolved ⟨opening.caseId, opening.priority⟩)
  closures : ∀ event, event ∈ s.control.events → ∀ closure,
    event.body = .supportCaseClosed closure →
      ∃ resolved resolution, resolved ∈ s.control.events ∧
        resolved.body = .supportCaseResolved resolution ∧
        event = sha256.createEvent (resolved.businessDate + closureDelay sha256 resolved)
          (.supportCaseClosed ⟨resolution.caseId, resolution.priority⟩)
  openedOnce : ∀ event, event ∈ s.control.events → ∀ event', event' ∈ s.control.events →
    ∀ opening, event.body = .supportCaseOpened opening →
    ∀ opening', event'.body = .supportCaseOpened opening' →
      opening.shipmentId = opening'.shipmentId → event = event'
  resolvedOnce : ∀ event, event ∈ s.control.events → ∀ event', event' ∈ s.control.events →
    ∀ resolution, event.body = .supportCaseResolved resolution →
    ∀ resolution', event'.body = .supportCaseResolved resolution' →
      resolution.caseId = resolution'.caseId → event = event'
  closedOnce : ∀ event, event ∈ s.control.events → ∀ event', event' ∈ s.control.events →
    ∀ closure, event.body = .supportCaseClosed closure →
    ∀ closure', event'.body = .supportCaseClosed closure' →
      closure.caseId = closure'.caseId → event = event'

namespace CasesOnDueDays

theorem congr (h : CasesOnDueDays sha256 s)
    (hsubset : s.control.events ⊆ t.control.events)
    (hkept : ∀ event, event ∈ t.control.events → isCaseEvent event → event ∈ s.control.events) :
    CasesOnDueDays sha256 t := by
  have hopened : ∀ {event : BusinessEvent}, event ∈ t.control.events →
      ∀ {opening}, event.body = .supportCaseOpened opening → event ∈ s.control.events :=
    fun hmem _ hbody => hkept _ hmem (by simp [isCaseEvent, hbody])
  have hresolved : ∀ {event : BusinessEvent}, event ∈ t.control.events →
      ∀ {resolution}, event.body = .supportCaseResolved resolution → event ∈ s.control.events :=
    fun hmem _ hbody => hkept _ hmem (by simp [isCaseEvent, hbody])
  have hclosed : ∀ {event : BusinessEvent}, event ∈ t.control.events →
      ∀ {closure}, event.body = .supportCaseClosed closure → event ∈ s.control.events :=
    fun hmem _ hbody => hkept _ hmem (by simp [isCaseEvent, hbody])
  refine ⟨fun event hmem opening hbody => ?_, fun event hmem resolution hbody => ?_,
    fun event hmem closure hbody => ?_, fun event hmem event' hmem' opening hbody opening' hbody' =>
      h.openedOnce event (hopened hmem hbody) event' (hopened hmem' hbody') opening hbody opening'
        hbody', fun event hmem event' hmem' resolution hbody resolution' hbody' =>
      h.resolvedOnce event (hresolved hmem hbody) event' (hresolved hmem' hbody') resolution hbody
        resolution' hbody', fun event hmem event' hmem' closure hbody closure' hbody' =>
      h.closedOnce event (hclosed hmem hbody) event' (hclosed hmem' hbody') closure hbody closure'
        hbody'⟩
  · obtain ⟨deliveryEvent, delivery, hdelivery, hrest⟩ :=
      h.openings event (hopened hmem hbody) opening hbody
    exact ⟨deliveryEvent, delivery, hsubset hdelivery, hrest⟩
  · obtain ⟨opened, opening, hopening, hrest⟩ :=
      h.resolutions event (hresolved hmem hbody) resolution hbody
    exact ⟨opened, opening, hsubset hopening, hrest⟩
  · obtain ⟨resolved, resolution, hresolution, hrest⟩ :=
      h.closures event (hclosed hmem hbody) closure hbody
    exact ⟨resolved, resolution, hsubset hresolution, hrest⟩

theorem record {events : List BusinessEvent} (h : CasesOnDueDays sha256 s)
    (hevents : ∀ event, event ∈ events → ¬ isCaseEvent event) :
    CasesOnDueDays sha256 (s.record events) :=
  h.congr (events_subset_insertEvents _ _) fun event hmem hkind =>
    (mem_of_mem_insertEvents hmem).resolve_right fun hnew => hevents event hnew hkind

theorem same (h : CasesOnDueDays sha256 s) (hevents : t.control.events = s.control.events) :
    CasesOnDueDays sha256 t := by
  refine h.congr ?_ fun event hmem _ => hevents ▸ hmem
  rw [hevents]
  exact List.Subset.refl _

/-- Every opening has the one priority, and so has every resolution. -/
theorem priority_of_opening (h : CasesOnDueDays sha256 s) (hmem : event ∈ s.control.events)
    {opening : SupportCaseOpened} (hbody : event.body = .supportCaseOpened opening) :
    opening.priority = "P3" := by
  obtain ⟨_, delivery, _, _, _, heq⟩ := h.openings event hmem opening hbody
  rw [heq] at hbody
  have hopening := EventBody.supportCaseOpened.inj hbody
  exact (congrArg SupportCaseOpened.priority hopening).symm

theorem priority_of_resolution (h : CasesOnDueDays sha256 s) (hmem : event ∈ s.control.events)
    {resolution : SupportCaseChanged} (hbody : event.body = .supportCaseResolved resolution) :
    resolution.priority = "P3" := by
  obtain ⟨opened, opening, hopened, hopening, heq⟩ := h.resolutions event hmem resolution hbody
  rw [heq] at hbody
  have hresolution := EventBody.supportCaseResolved.inj hbody
  exact (congrArg SupportCaseChanged.priority hresolution).symm.trans
    (h.priority_of_opening hopened hopening)

end CasesOnDueDays

/-- A shipment is delivered by one event. -/
theorem OnDueDays.delivery_unique {delivery delivery' : ShipmentDelivered}
    (h : OnDueDays policy sha256 s) (hfulfilling : Fulfilling policy sha256 crmPlan w s)
    (hmem : event ∈ s.control.events) (hmem' : event' ∈ s.control.events)
    (hbody : event.body = .shipmentDelivered delivery)
    (hbody' : event'.body = .shipmentDelivered delivery')
    (hid : delivery.shipmentId = delivery'.shipmentId) : event = event' := by
  obtain ⟨shipped, shipment, hshipped, hshipment, heq⟩ := h.deliveries event hmem delivery hbody
  obtain ⟨shipped', shipment', hshipped', hshipment', heq'⟩ :=
    h.deliveries event' hmem' delivery' hbody'
  have hdelivery := hbody
  have hdelivery' := hbody'
  rw [heq] at hdelivery
  rw [heq'] at hdelivery'
  have hdelivered := EventBody.shipmentDelivered.inj hdelivery
  have hdelivered' := EventBody.shipmentDelivered.inj hdelivery'
  have hids : shipment.shipmentId = shipment'.shipmentId := by
    have hof := congrArg ShipmentDelivered.shipmentId hdelivered
    have hof' := congrArg ShipmentDelivered.shipmentId hdelivered'
    exact hof.trans (hid.trans hof'.symm)
  obtain rfl := hfulfilling.shipments.distinct shipped hshipped shipped' hshipped' shipment
    hshipment shipment' hshipment' (.inl hids)
  obtain rfl := EventBody.shipmentCreated.inj (hshipment.symm.trans hshipment')
  exact heq.trans heq'.symm

theorem nodup_eligible (hs : WellRecorded sha256 s.control) :
    ((eligible sha256 (w + 1) (opsEvents w s)).map SimulationEvent.eventId).Nodup := by
  refine (List.Perm.nodup_iff ((List.perm_insertionSort _ _).map _)).mpr ?_
  exact hs.nodup_eventsThrough.sublist (List.filter_sublist.map _)

section Plan

variable {opening : SupportCaseOpened} {resolution closure : SupportCaseChanged}

theorem planned_opening (hplan : event ∈ OpsRun.planSupportCases sha256 (w + 1) s)
    (hbody : event.body = .supportCaseOpened opening) :
    ∃ i deliveryEvent delivery,
      (eligible sha256 (w + 1) (opsEvents w s))[i]? = some deliveryEvent ∧
      deliveryEvent.body = .shipmentDelivered delivery ∧
      opening = openingOf (nextId (s.ops.supportCases.map SupportCaseRow.caseId) + i) delivery ∧
      event = sha256.createEvent (w + 1) (.supportCaseOpened opening) := by
  rcases mem_planSupportCases.mp hplan with ⟨i, deliveryEvent, delivery, hget, hdelivery, rfl⟩ |
    ⟨_, _, _, _, _, _, rfl⟩ | ⟨_, _, _, _, _, _, rfl⟩
  · obtain rfl := EventBody.supportCaseOpened.inj hbody
    exact ⟨i, deliveryEvent, delivery, hget, hdelivery, rfl, rfl⟩
  · cases hbody
  · cases hbody

theorem planned_resolution (hplan : event ∈ OpsRun.planSupportCases sha256 (w + 1) s)
    (hbody : event.body = .supportCaseResolved resolution) :
    ∃ opened opening, opened ∈ opsEvents w s ∧ opened.body = .supportCaseOpened opening ∧
      opening.caseId ∉ resolvedCaseIds (opsEvents w s) ∧
      opened.businessDate + resolutionDelay sha256 opened ≤ w + 1 ∧
      resolution = ⟨opening.caseId, opening.priority⟩ ∧
      event = sha256.createEvent (w + 1) (.supportCaseResolved resolution) := by
  rcases mem_planSupportCases.mp hplan with ⟨_, _, _, _, _, rfl⟩ |
    ⟨opened, opening, hmem, hopened, hnew, hdue, rfl⟩ | ⟨_, _, _, _, _, _, rfl⟩
  · cases hbody
  · obtain rfl := EventBody.supportCaseResolved.inj hbody
    exact ⟨opened, opening, hmem, hopened, hnew, hdue, rfl, rfl⟩
  · cases hbody

theorem planned_closure (hplan : event ∈ OpsRun.planSupportCases sha256 (w + 1) s)
    (hbody : event.body = .supportCaseClosed closure) :
    ∃ resolved resolution, resolved ∈ opsEvents w s ∧
      resolved.body = .supportCaseResolved resolution ∧
      resolution.caseId ∉ closedCaseIds (opsEvents w s) ∧
      resolved.businessDate + closureDelay sha256 resolved ≤ w + 1 ∧
      closure = ⟨resolution.caseId, resolution.priority⟩ ∧
      event = sha256.createEvent (w + 1) (.supportCaseClosed closure) := by
  rcases mem_planSupportCases.mp hplan with ⟨_, _, _, _, _, rfl⟩ | ⟨_, _, _, _, _, _, rfl⟩ |
    ⟨resolved, resolution, hmem, hresolved, hnew, hdue, rfl⟩
  · cases hbody
  · cases hbody
  · obtain rfl := EventBody.supportCaseClosed.inj hbody
    exact ⟨resolved, resolution, hmem, hresolved, hnew, hdue, rfl, rfl⟩

theorem mem_opsEvents (hs : Journal sha256 w s) (hkind : OpsRun.isFulfillment event) :
    event ∈ opsEvents w s ↔ event ∈ s.control.events := by
  refine ⟨fun hmem => (mem_eventsThrough.mp hmem).1, fun hmem => ?_⟩
  exact mem_eventsThrough.mpr ⟨hmem, hs.dated event hmem,
    source_of_isFulfillment (hs.recorded.created event hmem) hkind⟩

theorem isFulfillment_of_isCaseEvent (h : isCaseEvent event) : OpsRun.isFulfillment event := by
  cases hbody : event.body <;> simp [isCaseEvent, OpsRun.isFulfillment, hbody] at h ⊢

/-- The lists of the planner are those of all recorded events. -/
theorem mem_alreadyOpened_opsEvents (hs : Journal sha256 w s) {shipmentId : Nat} :
    shipmentId ∈ alreadyOpened (opsEvents w s) ↔
      shipmentId ∈ alreadyOpened s.control.events := by
  rw [mem_alreadyOpened, mem_alreadyOpened]
  refine exists_congr fun event => exists_congr fun opening => ?_
  refine and_congr_left fun hrest => mem_opsEvents hs ?_
  exact isFulfillment_of_isCaseEvent (by simp [isCaseEvent, hrest.1])

theorem mem_resolvedCaseIds_opsEvents (hs : Journal sha256 w s) {caseId : Nat} :
    caseId ∈ resolvedCaseIds (opsEvents w s) ↔ caseId ∈ resolvedCaseIds s.control.events := by
  rw [mem_resolvedCaseIds, mem_resolvedCaseIds]
  refine exists_congr fun event => exists_congr fun resolution => ?_
  refine and_congr_left fun hrest => mem_opsEvents hs ?_
  exact isFulfillment_of_isCaseEvent (by simp [isCaseEvent, hrest.1])

theorem mem_closedCaseIds_opsEvents (hs : Journal sha256 w s) {caseId : Nat} :
    caseId ∈ closedCaseIds (opsEvents w s) ↔ caseId ∈ closedCaseIds s.control.events := by
  rw [mem_closedCaseIds, mem_closedCaseIds]
  refine exists_congr fun event => exists_congr fun closure => ?_
  refine and_congr_left fun hrest => mem_opsEvents hs ?_
  exact isFulfillment_of_isCaseEvent (by simp [isCaseEvent, hrest.1])

end Plan

/-- An event that is recorded or planned, and another one: where they share a key, they are one,
if this holds of the recorded ones and of the planned ones and no planned one has a key of a
recorded one. -/
theorem eq_of_recorded_or_planned {α : Type} {known : List BusinessEvent}
    (plan : List BusinessEvent) (body : α → EventBody) (key : α → Nat)
    (hold : ∀ event, event ∈ known → ∀ event', event' ∈ known → ∀ x, event.body = body x →
      ∀ x', event'.body = body x' → key x = key x' → event = event')
    (hnew : ∀ event, event ∈ plan → ∀ event', event' ∈ plan → ∀ x, event.body = body x →
      ∀ x', event'.body = body x' → key x = key x' → event = event')
    (hmixed : ∀ event, event ∈ known → ∀ event', event' ∈ plan → ∀ x, event.body = body x →
      ∀ x', event'.body = body x' → key x ≠ key x') :
    ∀ event, event ∈ known ∨ event ∈ plan → ∀ event', event' ∈ known ∨ event' ∈ plan →
      ∀ x, event.body = body x → ∀ x', event'.body = body x' → key x = key x' →
        event = event' := by
  rintro event (hmem | hmem) event' (hmem' | hmem') x hbody x' hbody' hkey
  · exact hold event hmem event' hmem' x hbody x' hbody' hkey
  · exact absurd hkey (hmixed event hmem event' hmem' x hbody x' hbody')
  · exact absurd hkey.symm (hmixed event' hmem' event hmem x' hbody' x hbody)
  · exact hnew event hmem event' hmem' x hbody x' hbody' hkey

section Record

variable {opening opening' : SupportCaseOpened}
variable {resolution resolution' closure closure' : SupportCaseChanged}

/-- A planned opening is the only one of its shipment. -/
theorem planned_openings_unique (hdays : OnDueDays policy sha256 s)
    (hfulfilling : Fulfilling policy sha256 crmPlan w s) (hs : Journal sha256 w s)
    (hplan : event ∈ OpsRun.planSupportCases sha256 (w + 1) s)
    (hplan' : event' ∈ OpsRun.planSupportCases sha256 (w + 1) s)
    (hbody : event.body = .supportCaseOpened opening)
    (hbody' : event'.body = .supportCaseOpened opening')
    (hid : opening.shipmentId = opening'.shipmentId) : event = event' := by
  obtain ⟨i, deliveryEvent, delivery, hget, hdelivery, rfl, heq⟩ := planned_opening hplan hbody
  obtain ⟨i', deliveryEvent', delivery', hget', hdelivery', rfl, heq'⟩ :=
    planned_opening hplan' hbody'
  have hknown := (mem_eventsThrough.mp (mem_eligible.mp (List.mem_of_getElem? hget)).1).1
  have hknown' := (mem_eventsThrough.mp (mem_eligible.mp (List.mem_of_getElem? hget')).1).1
  obtain rfl := hdays.delivery_unique hfulfilling hknown hknown' hdelivery hdelivery' hid
  obtain rfl := EventBody.shipmentDelivered.inj (hdelivery.symm.trans hdelivery')
  have hlt := (List.getElem?_eq_some_iff.mp hget).1
  obtain rfl := (List.getElem?_inj hlt (nodup_eligible hs.recorded).of_map).mp
    (hget.trans hget'.symm)
  exact heq.trans heq'.symm

/-- An opening was not due the day before. -/
theorem planned_opening_day (hs : Journal sha256 w s) (hthrough : CasesThrough sha256 w s)
    (hplan : event ∈ OpsRun.planSupportCases sha256 (w + 1) s)
    (hbody : event.body = .supportCaseOpened opening) :
    ∃ deliveryEvent delivery, deliveryEvent ∈ s.control.events ∧
      deliveryEvent.body = .shipmentDelivered delivery ∧
      opensCase sha256 deliveryEvent = true ∧
      event = sha256.createEvent
        (deliveryEvent.businessDate + openingDelay sha256 deliveryEvent)
        (.supportCaseOpened (openingOf opening.caseId delivery)) := by
  obtain ⟨i, deliveryEvent, delivery, hget, hdelivery, rfl, heq⟩ := planned_opening hplan hbody
  obtain ⟨hmem, delivery', hdelivery', hnew, hopens, hdue⟩ :=
    mem_eligible.mp (List.mem_of_getElem? hget)
  obtain rfl := EventBody.shipmentDelivered.inj (hdelivery.symm.trans hdelivery')
  have hrecorded := (mem_eventsThrough.mp hmem).1
  rw [mem_alreadyOpened_opsEvents hs] at hnew
  have hday : w + 1 = deliveryEvent.businessDate + openingDelay sha256 deliveryEvent := by
    by_contra hne
    exact hnew (hthrough.opened deliveryEvent hrecorded delivery hdelivery hopens (by omega))
  refine ⟨deliveryEvent, delivery, hrecorded, hdelivery, hopens, ?_⟩
  rw [← hday]
  exact heq

theorem planned_resolution_day (hs : Journal sha256 w s) (hthrough : CasesThrough sha256 w s)
    (hplan : event ∈ OpsRun.planSupportCases sha256 (w + 1) s)
    (hbody : event.body = .supportCaseResolved resolution) :
    ∃ opened opening, opened ∈ s.control.events ∧ opened.body = .supportCaseOpened opening ∧
      event = sha256.createEvent (opened.businessDate + resolutionDelay sha256 opened)
        (.supportCaseResolved ⟨opening.caseId, opening.priority⟩) := by
  obtain ⟨opened, opening, hmem, hopened, hnew, hdue, rfl, heq⟩ := planned_resolution hplan hbody
  have hrecorded := (mem_eventsThrough.mp hmem).1
  rw [mem_resolvedCaseIds_opsEvents hs] at hnew
  have hday : w + 1 = opened.businessDate + resolutionDelay sha256 opened := by
    by_contra hne
    exact hnew (hthrough.resolved opened hrecorded opening hopened (by omega))
  refine ⟨opened, opening, hrecorded, hopened, ?_⟩
  rw [← hday]
  exact heq

theorem planned_closure_day (hs : Journal sha256 w s) (hthrough : CasesThrough sha256 w s)
    (hplan : event ∈ OpsRun.planSupportCases sha256 (w + 1) s)
    (hbody : event.body = .supportCaseClosed closure) :
    ∃ resolved resolution, resolved ∈ s.control.events ∧
      resolved.body = .supportCaseResolved resolution ∧
      event = sha256.createEvent (resolved.businessDate + closureDelay sha256 resolved)
        (.supportCaseClosed ⟨resolution.caseId, resolution.priority⟩) := by
  obtain ⟨resolved, resolution, hmem, hresolved, hnew, hdue, rfl, heq⟩ :=
    planned_closure hplan hbody
  have hrecorded := (mem_eventsThrough.mp hmem).1
  rw [mem_closedCaseIds_opsEvents hs] at hnew
  have hday : w + 1 = resolved.businessDate + closureDelay sha256 resolved := by
    by_contra hne
    exact hnew (hthrough.closed resolved hrecorded resolution hresolved (by omega))
  refine ⟨resolved, resolution, hrecorded, hresolved, ?_⟩
  rw [← hday]
  exact heq

/-- The recorded part of a plan of cases comes on its day, and once. -/
theorem CasesOnDueDays.recordCases (h : CasesOnDueDays sha256 s)
    (hdays : OnDueDays policy sha256 s) (hfulfilling : Fulfilling policy sha256 crmPlan w s)
    (hs : Journal sha256 w s) (hthrough : CasesThrough sha256 w s) (k : Nat) :
    CasesOnDueDays sha256
      (s.record ((OpsRun.planSupportCases sha256 (w + 1) s).take k)) := by
  have hsubset : s.control.events ⊆
      (s.record ((OpsRun.planSupportCases sha256 (w + 1) s).take k)).control.events :=
    events_subset_insertEvents _ _
  have hsplit : ∀ event, event ∈ (s.record ((OpsRun.planSupportCases sha256
      (w + 1) s).take k)).control.events → event ∈ s.control.events ∨
        event ∈ OpsRun.planSupportCases sha256 (w + 1) s := fun event hmem =>
    (mem_of_mem_insertEvents hmem).imp_right List.mem_of_mem_take
  have hopenedOnce := eq_of_recorded_or_planned
    (OpsRun.planSupportCases sha256 (w + 1) s) EventBody.supportCaseOpened SupportCaseOpened.shipmentId
    h.openedOnce
    (fun _ hplan _ hplan' _ hbody _ hbody' hid =>
      planned_openings_unique hdays hfulfilling hs hplan hplan' hbody hbody' hid)
    (fun event hmem event' hplan opening hbody opening' hbody' hid => by
      obtain ⟨i, _, delivery, hget, hdelivery, rfl, _⟩ := planned_opening hplan hbody'
      obtain ⟨_, delivery', hdelivery', hnew, _⟩ := mem_eligible.mp (List.mem_of_getElem? hget)
      obtain rfl := EventBody.shipmentDelivered.inj (hdelivery.symm.trans hdelivery')
      rw [mem_alreadyOpened_opsEvents hs] at hnew
      exact hnew (mem_alreadyOpened.mpr ⟨event, opening, hmem, hbody, hid⟩))
  have hresolvedOnce := eq_of_recorded_or_planned
    (OpsRun.planSupportCases sha256 (w + 1) s) EventBody.supportCaseResolved SupportCaseChanged.caseId
    h.resolvedOnce
    (fun event hplan event' hplan' resolution hbody resolution' hbody' hid => by
      obtain ⟨opened, opening, hmem, hopened, _, _, rfl, heq⟩ := planned_resolution hplan hbody
      obtain ⟨opened', opening', hmem', hopened', _, _, rfl, heq'⟩ :=
        planned_resolution hplan' hbody'
      rw [heq, heq', h.priority_of_opening (mem_eventsThrough.mp hmem).1 hopened,
        h.priority_of_opening (mem_eventsThrough.mp hmem').1 hopened']
      rw [show opening.caseId = opening'.caseId from hid])
    (fun event hmem event' hplan resolution hbody resolution' hbody' hid => by
      obtain ⟨opened, opening, _, _, hnew, _, rfl, _⟩ := planned_resolution hplan hbody'
      rw [mem_resolvedCaseIds_opsEvents hs] at hnew
      exact hnew (mem_resolvedCaseIds.mpr ⟨event, resolution, hmem, hbody, hid⟩))
  have hclosedOnce := eq_of_recorded_or_planned
    (OpsRun.planSupportCases sha256 (w + 1) s) EventBody.supportCaseClosed SupportCaseChanged.caseId
    h.closedOnce
    (fun event hplan event' hplan' closure hbody closure' hbody' hid => by
      obtain ⟨resolved, resolution, hmem, hresolved, _, _, rfl, heq⟩ := planned_closure hplan hbody
      obtain ⟨resolved', resolution', hmem', hresolved', _, _, rfl, heq'⟩ :=
        planned_closure hplan' hbody'
      rw [heq, heq', h.priority_of_resolution (mem_eventsThrough.mp hmem).1 hresolved,
        h.priority_of_resolution (mem_eventsThrough.mp hmem').1 hresolved']
      rw [show resolution.caseId = resolution'.caseId from hid])
    (fun event hmem event' hplan closure hbody closure' hbody' hid => by
      obtain ⟨resolved, resolution, _, _, hnew, _, rfl, _⟩ := planned_closure hplan hbody'
      rw [mem_closedCaseIds_opsEvents hs] at hnew
      exact hnew (mem_closedCaseIds.mpr ⟨event, closure, hmem, hbody, hid⟩))
  refine ⟨fun event hmem opening hbody => ?_, fun event hmem resolution hbody => ?_,
    fun event hmem closure hbody => ?_,
    fun event hmem event' hmem' => hopenedOnce event (hsplit event hmem) event'
      (hsplit event' hmem'),
    fun event hmem event' hmem' => hresolvedOnce event (hsplit event hmem) event'
      (hsplit event' hmem'),
    fun event hmem event' hmem' => hclosedOnce event (hsplit event hmem) event'
      (hsplit event' hmem')⟩
  · obtain ⟨deliveryEvent, delivery, hdelivery, hrest⟩ := (hsplit event hmem).elim
      (fun hold => h.openings event hold opening hbody)
      (fun hplan => planned_opening_day hs hthrough hplan hbody)
    exact ⟨deliveryEvent, delivery, hsubset hdelivery, hrest⟩
  · obtain ⟨opened, opening, hopened, hrest⟩ := (hsplit event hmem).elim
      (fun hold => h.resolutions event hold resolution hbody)
      (fun hplan => planned_resolution_day hs hthrough hplan hbody)
    exact ⟨opened, opening, hsubset hopened, hrest⟩
  · obtain ⟨resolved, resolution, hresolved, hrest⟩ := (hsplit event hmem).elim
      (fun hold => h.closures event hold closure hbody)
      (fun hplan => planned_closure_day hs hthrough hplan hbody)
    exact ⟨resolved, resolution, hsubset hresolved, hrest⟩

end Record

/-- No other move records an event of a case. -/
theorem CasesOnDueDays.move (h : CasesOnDueDays sha256 s) (hdays : OnDueDays policy sha256 s)
    (hfulfilling : Fulfilling policy sha256 crmPlan w s) (hthrough : CasesThrough sha256 w s)
    (hmove : Move policy sha256 crmPlan w s t) : CasesOnDueDays sha256 t := by
  have hs := hmove.before
  have hother : ∀ {event : BusinessEvent} {source : SourceSystem},
      Planned sha256 (w + 1) source event → source ≠ .ops → ¬ isCaseEvent event := by
    intro event source hplanned hsource hkind
    have hops := source_of_isFulfillment hplanned.created (isFulfillment_of_isCaseEvent hkind)
    exact hsource (hplanned.source.symm.trans hops)
  cases hmove with
  | control _ moved => exact h.same moved.events
  | crmPlan =>
      exact h.record fun event hmem =>
        hother (planned_crmPlan (List.mem_of_mem_take hmem)) (by decide)
  | crmApplied _ _ moved => exact h.same moved.events
  | orderPlan =>
      refine h.record fun event hmem hkind => ?_
      exact not_isOrderCreated_of_isFulfillment (isFulfillment_of_isCaseEvent hkind)
        (planned_planOrders (List.mem_of_mem_take hmem)).2
  | orders => exact h.same rfl
  | fulfillmentPlan =>
      refine h.record fun event hmem hkind => ?_
      rcases OpsRun.mem_planFulfillment.mp (List.mem_of_mem_take hmem) with hplan |
        ⟨_, _, _, _, _, rfl⟩ | ⟨_, _, _, _, _, rfl⟩
      · obtain ⟨_, _, _, _, _, rfl⟩ := OpsRun.mem_planShipments.mp hplan
        exact hkind
      · exact hkind
      · exact hkind
  | casePlan _ _ k => exact h.recordCases hdays hfulfilling hs hthrough k
  | fulfillment => exact h.same rfl
  | opsApplied _ _ moved => exact h.same moved.events
  | postingPlan =>
      exact h.record fun event hmem =>
        hother (planned_planPostings (List.mem_of_mem_take hmem)) (by decide)
  | postings => exact h.same rfl
  | erpApplied _ _ _ moved => exact h.same moved.events
  | completed => exact h.same rfl

/-! ## Runs -/

theorem supportCases_dayByDay (hinjective : sha256.Injective) :
    DayByDay policy sha256 crmPlan (Fulfilling policy sha256 crmPlan)
      (fun w s => FulfilledThrough policy sha256 w s ∧ CasesThrough sha256 w s)
      (fun s => OnDueDays policy sha256 s ∧ CasesOnDueDays sha256 s) where
  invariant := invariant_fulfilling hinjective
  kept _ _ _ _ h hmove := ⟨h.1.move hmove, h.2.move hmove⟩
  worked _ _ h hs hworked :=
    ⟨fulfilledThrough_of_work hinjective h hs hworked, casesThrough_of_work hinjective hs hworked⟩
  dated _ _ _ h hthrough hdays hmove :=
    ⟨hdays.1.move hinjective h hthrough.1 hmove, hdays.2.move hdays.1 h hthrough.2 hmove⟩

section Runs

variable {start : Stores} {b : Nat}

theorem Unstarted.casesOnDueDays (h : Unstarted b s) :
    CasesThrough sha256 b s ∧ CasesOnDueDays sha256 s := by
  constructor
  · constructor <;> simp [h.events]
  · constructor <;> simp [h.events]

/-- **Support cases on their day.**  In every store that a run of attempts and crashes reaches,
openings, resolutions and closures are on the days that the delays name, one opening for a
shipment and one resolution and closure for an id, and what is due by the watermark is recorded.
The resolution of an id counts from an opening of that id: openings are recorded one by one,
and a crash between two of them leaves the next id to be given out again. -/
theorem supportCases_onDueDays (hinjective : sha256.Injective) (hstart : Unstarted b start)
    (hids : (start.ops.shipments.map ShipmentRow.shipmentId).Nodup)
    (hreached : Attempts policy sha256 crmPlan start t) :
    CasesOnDueDays sha256 t ∧
      ∀ w, t.control.lastCompleted = some w → CasesThrough sha256 w t := by
  obtain ⟨w, hjournal, _, hthrough, hdays⟩ :=
    (supportCases_dayByDay hinjective).reached hinjective hstart.journal (hstart.fulfilling hids)
      ⟨hstart.onDueDays.1, hstart.casesOnDueDays.1⟩
      ⟨hstart.onDueDays.2, hstart.casesOnDueDays.2⟩ hreached
  refine ⟨hdays.2, fun w' hw' => ?_⟩
  obtain rfl := Option.some.inj (hjournal.lastCompleted.symm.trans hw')
  exact hthrough.2

/-- The day after the delivery. -/
def caseEvening : Stores :=
  (DailySimulationRunner.run promptPolicy spelledDigest oneWon (1 + 1) 0 wonEvening).final

theorem caseEvening_reached : Attempts promptPolicy spelledDigest oneWon opening caseEvening := by
  have hleaves : (DailySimulationRunner.run promptPolicy spelledDigest oneWon (1 + 1) 0).Leaves
      wonEvening caseEvening := by
    rw [caseEvening]
    exact leaves_final _ _
  exact wonEvening_reached.tail ⟨0, 1, by decide +kernel, hleaves⟩

/-- A case is opened for the shipment of the first day. -/
theorem supportCases_onDueDays_opened :
    CasesOnDueDays spelledDigest caseEvening ∧
      alreadyOpened caseEvening.control.events = [1] := by
  have hstart : Unstarted 0 opening := ⟨rfl, rfl, rfl⟩
  exact ⟨(supportCases_onDueDays spelledDigest_injective hstart List.nodup_nil
    caseEvening_reached).1, by decide +kernel⟩

end Runs

end Simulator
end Northwind
