import Northwind.Simulator.DayMoves

/-!
# An attempt is a sequence of moves

The program of a day is walked through once: from a store whose journal ends
with day `w`, every store it passes through is one that moves lead to, up to the
end, an error or a crash.  A doubling error is raised only where a transaction
meets events that are not ready for it.
-/

namespace Northwind
namespace Simulator

open CrashPrograms CrashPrograms.Program SimulationState SimulationStateStore

/-! ## Queries after a record -/

section Queries

variable {β : Type} {s : SimulationState β} {d : Nat} {source : SourceSystem}

/-- Events outside a filter do not show in it. -/
theorem filter_insertEvents
    {p : SimulationEvent β → Bool} {events : List (SimulationEvent β)}
    (h : ∀ event, event ∈ events → p event = false) :
    (s.insertEvents events).events.filter p = s.events.filter p := by
  induction events generalizing s with
  | nil => rfl
  | cons event events ih =>
      have hhead : (s.insertEvent event).events.filter p = s.events.filter p := by
        have hevent := h event List.mem_cons_self
        rw [insertEvent]
        split
        · rfl
        · simp [hevent]
      rw [insertEvents_cons, ih fun other hmem => h other (List.mem_cons_of_mem _ hmem), hhead]

theorem eventsFor_insertEvents
    {events : List (SimulationEvent β)}
    (h : ∀ event, event ∈ events → event.source ≠ source) :
    (s.insertEvents events).eventsFor d source = s.eventsFor d source := by
  rw [eventsFor, filter_insertEvents fun event hmem => by simp [h event hmem]]
  rfl

theorem eventsThrough_insertEvents
    {events : List (SimulationEvent β)}
    (h : ∀ event, event ∈ events → event.source ≠ source) :
    (s.insertEvents events).eventsThrough d source = s.eventsThrough d source := by
  rw [eventsThrough, filter_insertEvents fun event hmem => by simp [h event hmem]]
  rfl

end Queries

variable {policy : SimulationPolicy} {sha256 : Sha256} {crmPlan : Nat → List CrmChange}
variable {w d : Nat} {s t : Stores}

/-! ## Transactions -/

theorem opsApply_commits (s : Stores) (events : List BusinessEvent) :
    (inOps (OpsEventApplier.apply events)).Meets (fun t => t = s)
      (fun _ t => ∃ db, t = { s with ops := db } ∧ OpsCommits events s.ops db)
      (fun e t => t = s ∧
        ∀ foreign, OpsSound foreign s.ops → Ready foreign events s.ops → e.isDoubling = false) s := by
  rw [inOps, meets_onPart, meets_transaction]
  refine ((apply_spec events s.ops).and (meets_result _ s.ops)).mono (fun _ h => h.1) ?_ ?_
  · exact fun n db h => ⟨rfl, db, rfl, n, h.2⟩
  · exact fun _ _ h => ⟨rfl, h.1⟩

theorem erpApply_commits (s : Stores) (events : List BusinessEvent) :
    (inErp (ErpEventApplier.apply events)).Meets (fun t => t = s)
      (fun _ t => ∃ db, t = { s with erp := db } ∧ ErpCommits events s.erp db)
      (fun e t => t = s ∧ (ErpReady events s.erp → e.isDoubling = false)) s := by
  rw [inErp, meets_onPart, meets_transaction]
  refine ((erpApply_spec events s.erp).and (meets_result _ s.erp)).mono (fun _ h => h.1) ?_ ?_
  · exact fun n db h => ⟨rfl, db, rfl, n, h.2⟩
  · exact fun _ _ h => ⟨rfl, h.1⟩

/-- What an applied transaction has done, step by step. -/
theorem OpsCommits.appliedBy
    {events : List BusinessEvent} {db db' : OpsDatabase} (h : OpsCommits events db db') :
    AppliedBy events db db' ∧ ∀ event, event ∈ events → event.eventId ∈ db'.appliedEvents := by
  obtain ⟨_, hok, rfl⟩ := h
  exact (apply_spec events db).of_ok hok

theorem ErpCommits.appliedBy
    {events : List BusinessEvent} {db db' : ErpDatabase} (h : ErpCommits events db db') :
    ErpAppliedBy events db db' ∧
      ∀ event, event ∈ events → event.eventId ∈ db'.appliedEvents := by
  obtain ⟨_, hok, rfl⟩ := h
  exact (erpApply_spec events db).of_ok hok

/-! ## What stays known -/

section Known

theorem eventsFor_moved {applied : List SourceSystem} (h : Moved d applied s t) (d' : Nat)
    (source : SourceSystem) : t.control.eventsFor d' source = s.control.eventsFor d' source := by
  rw [eventsFor, eventsFor, h.events]

theorem eventsThrough_moved {applied : List SourceSystem} (h : Moved d applied s t) (d' : Nat)
    (source : SourceSystem) :
    t.control.eventsThrough d' source = s.control.eventsThrough d' source := by
  rw [eventsThrough, eventsThrough, h.events]

theorem CrmSettled.congr
    (hs : CrmSettled sha256 crmPlan d s)
    (h : t.control.eventsFor d .crm = s.control.eventsFor d .crm) :
    CrmSettled sha256 crmPlan d t := by
  rwa [CrmSettled, h]

theorem recordedOrders_congr (h : t.control.eventsFor d .ops = s.control.eventsFor d .ops) :
    recordedOrders d t = recordedOrders d s := by
  rw [recordedOrders, recordedOrders, h]

/-- The planned orders depend on the CRM events and on the keys of the order
table. -/
theorem planOrders_congr
    (hcrm : t.control.eventsThrough d .crm = s.control.eventsThrough d .crm)
    (hops : t.ops.orderKeys = s.ops.orderKeys) :
    OpsRun.planOrders policy sha256 d t = OpsRun.planOrders policy sha256 d s := by
  have hrefs : t.ops.orders.filterMap OrderRow.opportunityRef =
      s.ops.orders.filterMap OrderRow.opportunityRef := by
    have hmap : ∀ db : OpsDatabase, db.orders.filterMap OrderRow.opportunityRef =
        db.orderKeys.filterMap (fun key => key.2.2) := by
      intro db
      rw [OpsDatabase.orderKeys, List.filterMap_map]
      rfl
    rw [hmap, hmap, hops]
  rw [OpsRun.planOrders, OpsRun.planOrders, hcrm, OpsRun.converted, OpsRun.converted, hrefs,
    orders_map_orderId, orders_map_orderId, hops]

theorem OrdersSettled.congr
    (hs : OrdersSettled policy sha256 d s)
    (hevents : t.control.eventsFor d .ops = s.control.eventsFor d .ops)
    (hcrm : t.control.eventsThrough d .crm = s.control.eventsThrough d .crm)
    (hops : t.ops.orderKeys = s.ops.orderKeys) :
    OrdersSettled policy sha256 d t := by
  rwa [OrdersSettled, recordedOrders_congr hevents, planOrders_congr hcrm hops]

theorem OrdersDone.moved
    {applied : List SourceSystem} (hs : OrdersDone policy sha256 crmPlan d s)
    (h : Moved d applied s t) : OrdersDone policy sha256 crmPlan d t where
  crm := hs.crm.congr (eventsFor_moved h d .crm)
  settled := hs.settled.congr (eventsFor_moved h d .ops) (eventsThrough_moved h d .crm)
    (by rw [h.ops])
  marked := by
    rw [recordedOrders_congr (eventsFor_moved h d .ops), h.ops]
    exact hs.marked

theorem OpsDone.congr
    (hs : OpsDone policy sha256 crmPlan d s) (hops : t.ops = s.ops)
    (hevents : ∀ event : BusinessEvent, event.source ≠ .erp →
      (event ∈ t.control.events ↔ event ∈ s.control.events)) :
    OpsDone policy sha256 crmPlan d t := by
  obtain ⟨hmarked, p, hrecorded, hcommits, hsame⟩ := hs
  refine ⟨fun event hmem hsource hdate => ?_, p, hrecorded, by rw [hops]; exact hcommits,
    fun event hsource => (hevents event hsource).trans (hsame event hsource)⟩
  rw [hops]
  exact hmarked event ((hevents event (by simp [hsource])).mp hmem) hsource hdate

theorem OpsDone.moved
    {applied : List SourceSystem} (hs : OpsDone policy sha256 crmPlan d s)
    (h : Moved d applied s t) : OpsDone policy sha256 crmPlan d t :=
  hs.congr h.ops fun event _ => by rw [h.events]

/-- Finance records postings only. -/
theorem OpsDone.record
    {events : List BusinessEvent} (hs : OpsDone policy sha256 crmPlan d s)
    (h : ∀ event, event ∈ events → event.source = .erp) :
    OpsDone policy sha256 crmPlan d (s.record events) :=
  hs.congr rfl fun event hsource => by
    refine ⟨fun hmem => ?_, fun hmem => events_subset_insertEvents _ _ hmem⟩
    exact (mem_of_mem_insertEvents hmem).resolve_right fun hnew => hsource (h event hnew)

theorem ErpMarked.moved
    {applied : List SourceSystem} (hs : ErpMarked d s) (h : Moved d applied s t) :
    ErpMarked d t := by
  intro event hmem hsource hdate
  rw [h.erp]
  exact hs event (h.events ▸ hmem) hsource hdate

/-- The events of a plan of Operations keep what is known of CRM. -/
theorem crm_record
    {events : List BusinessEvent} (h : ∀ event, event ∈ events → event.source ≠ .crm) :
    (s.record events).control.eventsFor d .crm = s.control.eventsFor d .crm ∧
      (s.record events).control.eventsThrough d .crm = s.control.eventsThrough d .crm :=
  ⟨eventsFor_insertEvents h, eventsThrough_insertEvents h⟩

theorem mem_recordedOrders {event : BusinessEvent} :
    event ∈ recordedOrders d s ↔
      event ∈ s.control.events ∧ event.businessDate = d ∧ event.source = .ops ∧
        OpsRun.isOrderCreated event := by
  rw [recordedOrders, List.mem_filter, mem_eventsFor, and_assoc, and_assoc]

theorem mem_recordedFulfillment {event : BusinessEvent} :
    event ∈ recordedFulfillment d s ↔
      event ∈ s.control.events ∧ event.businessDate = d ∧ event.source = .ops ∧
        OpsRun.isFulfillment event := by
  rw [recordedFulfillment, List.mem_filter, mem_eventsFor, and_assoc, and_assoc]

/-- Fulfillment and cases are no orders. -/
theorem mem_recordedOrders_record
    {events : List BusinessEvent}
    (h : ∀ event, event ∈ events → OpsRun.isFulfillment event) (event : BusinessEvent) :
    event ∈ recordedOrders d (s.record events) ↔ event ∈ recordedOrders d s := by
  rw [mem_recordedOrders, mem_recordedOrders]
  refine and_congr_left fun hkind => ⟨fun hmem => ?_, fun hmem => ?_⟩
  · refine (mem_of_mem_insertEvents hmem).resolve_right fun hnew => ?_
    have hfulfillment := h event hnew
    cases hbody : event.body <;>
      simp [OpsRun.isFulfillment, OpsRun.isOrderCreated, hbody] at hfulfillment hkind
  · exact events_subset_insertEvents _ _ hmem

/-- An event of Operations is an order or comes after one. -/
theorem isOrderCreated_or_isFulfillment
    {event : BusinessEvent} (hcreated : Created sha256 event) (hsource : event.source = .ops) :
    OpsRun.isOrderCreated event ∨ OpsRun.isFulfillment event := by
  rw [hcreated.source_eq] at hsource
  cases hbody : event.body <;>
    simp [OpsRun.isFulfillment, OpsRun.isOrderCreated, EventBody.source, hbody] at hsource ⊢

end Known

/-! ## The CRM run -/

/-- A doubling error has its cause in the store it leaves. -/
def Explained (policy : SimulationPolicy) (sha256 : Sha256) (crmPlan : Nat → List CrmChange)
    (w : Nat) (e : RunError) (t : Stores) : Prop :=
  e.isDoubling = true → Doubling policy sha256 crmPlan w t

theorem explained_of_not_doubling {e : RunError} (h : e.isDoubling = false) :
    Explained policy sha256 crmPlan w e t := by
  intro hdoubling
  rw [h] at hdoubling
  cases hdoubling

/-- From stores with `K` the program makes moves of the day after `w`. -/
abbrev Makes (policy : SimulationPolicy) (sha256 : Sha256) (crmPlan : Nat → List CrmChange)
    (w : Nat) {α : Type} (K : Stores → Prop) (p : RunProgram α) (L : α → Stores → Prop) : Prop :=
  BySteps (Move policy sha256 crmPlan w) (Explained policy sha256 crmPlan w) K p L

section Walk

variable {seed : Int}

/-- A claim changes nothing that is known. -/
theorem claim_makes
    {K : Stores → Prop} (hjournal : ∀ s, K s → Journal sha256 w s)
    (hmoved : ∀ s t, K s → Moved (w + 1) [] s t → K t) :
    Makes policy sha256 crmPlan w K
      (inControl (claimRun policy.isWeeklySlaBreachDate (w + 1) seed)) (fun _ => K) := by
  intro s hs
  have hmove : ∀ t, Moved (w + 1) [] s t →
      Relation.ReflTransGen (Move policy sha256 crmPlan w) s t :=
    fun t h => Relation.ReflTransGen.single (.control (hjournal s hs) h)
  refine (claim_spec policy.isWeeklySlaBreachDate (w + 1) seed (hjournal s hs).rowed).mono hmove
    ?_ ?_
  · exact fun _ t h => ⟨hmove t h, hmoved s t hs h⟩
  · exact fun e t h => ⟨hmove t h.1, explained_of_not_doubling h.2⟩

/-- A look at a source run changes nothing. -/
theorem sourceRunState_makes {K : Stores → Prop} (source : SourceSystem) :
    Makes policy sha256 crmPlan w K (inControl (sourceRunState d source)) (fun _ => K) := by
  intro s hs
  refine (sourceRunState_spec s d source).mono ?_ ?_ ?_
  · rintro _ rfl
    exact Relation.ReflTransGen.refl
  · rintro _ _ ⟨rfl, _⟩
    exact ⟨Relation.ReflTransGen.refl, hs⟩
  · rintro e _ ⟨rfl, hdoubling⟩
    exact ⟨Relation.ReflTransGen.refl, explained_of_not_doubling hdoubling⟩

theorem journal_record
    (events : List BusinessEvent) {source : SourceSystem} (hs : Journal sha256 w s)
    (h : ∀ event, event ∈ events → Planned sha256 (w + 1) source event) (k : Nat) :
    Journal sha256 w (s.record (events.take k)) :=
  hs.record fun event hmem =>
    ⟨(h event (List.mem_of_mem_take hmem)).created,
      (h event (List.mem_of_mem_take hmem)).businessDate⟩

theorem take_length_eq (events : List BusinessEvent) :
    s.record events = s.record (events.take events.length) := by
  rw [List.take_length]

/-- What is known once the CRM events of the day are settled. -/
structure AfterCrm (sha256 : Sha256) (crmPlan : Nat → List CrmChange) (w : Nat) (s : Stores) :
    Prop where
  journal : Journal sha256 w s
  crm : CrmSettled sha256 crmPlan (w + 1) s

/-- Recording a whole plan settles it. -/
theorem eventsFor_record_ne_nil
    {events : List BusinessEvent} {source : SourceSystem} (hinjective : sha256.Injective)
    (hs : WellRecorded sha256 s.control)
    (h : ∀ event, event ∈ events → Planned sha256 d source event) (hne : events ≠ []) :
    (s.record events).control.eventsFor d source ≠ [] := by
  obtain ⟨event, hmem⟩ := List.exists_mem_of_ne_nil events hne
  have hplanned := h event hmem
  obtain ⟨known, hknown, hid⟩ :=
    List.mem_map.mp (eventId_mem_insertEvents (s := s.control) hmem)
  have hcreated := (hs.insertEvents fun event hmem => (h event hmem).created).created known hknown
  rw [hplanned.created, hcreated] at hid
  obtain ⟨hdate, hsource, _⟩ := hinjective hid
  rw [← hcreated.source_eq, ← hplanned.created.source_eq, hplanned.source] at hsource
  rw [hplanned.businessDate] at hdate
  exact List.ne_nil_of_mem (mem_eventsFor.mpr ⟨hknown, hdate, hsource⟩)

theorem crmRecorded_makes (hinjective : sha256.Injective) (stores : Stores) :
    Makes policy sha256 crmPlan w (fun s => s = stores ∧ Journal sha256 w s)
      (inControl (recordedOr (stores.control.eventsFor (w + 1) .crm)
        (CrmRun.plan sha256 crmPlan (w + 1))))
      (fun _ => AfterCrm sha256 crmPlan w) := by
  rintro s ⟨rfl, hs⟩
  have hmove : s.control.eventsFor (w + 1) .crm = [] → ∀ k,
      Relation.ReflTransGen (Move policy sha256 crmPlan w) s
        (s.record ((CrmRun.plan sha256 crmPlan (w + 1)).take k)) :=
    fun hnew k => Relation.ReflTransGen.single (.crmPlan hs hnew k)
  refine (recordedOr_stores_spec s _ _).mono ?_ ?_ ?_
  · rintro _ ⟨hnew, k, rfl⟩
    exact hmove hnew k
  · rintro events _ (⟨hknown, _, rfl⟩ | ⟨hnew, rfl, rfl⟩)
    · exact ⟨Relation.ReflTransGen.refl, hs, .inl hknown⟩
    · have hjournal := journal_record (CrmRun.plan sha256 crmPlan (w + 1)) hs
        (fun _ => planned_crmPlan) (CrmRun.plan sha256 crmPlan (w + 1)).length
      have hmoved := hmove hnew (CrmRun.plan sha256 crmPlan (w + 1)).length
      rw [← take_length_eq] at hjournal hmoved
      refine ⟨hmoved, hjournal, ?_⟩
      by_cases hplan : CrmRun.plan sha256 crmPlan (w + 1) = []
      · exact .inr hplan
      · exact .inl (eventsFor_record_ne_nil hinjective hs.recorded
          (fun event => planned_crmPlan) hplan)
  · rintro e _ ⟨hdoubling, hnew, k, rfl⟩
    exact ⟨hmove hnew k, explained_of_not_doubling hdoubling⟩

theorem crmRun_makes (hinjective : sha256.Injective) :
    Makes policy sha256 crmPlan w (Journal sha256 w)
      (CrmRun.run policy sha256 crmPlan (w + 1) seed) (fun _ => AfterCrm sha256 crmPlan w) := by
  rw [CrmRun.run]
  refine (claim_makes (fun _ h => h) (fun _ _ h hmoved => h.moved hmoved)).bind fun _ => ?_
  refine (bySteps_read (L := fun stores s => s = stores ∧ Journal sha256 w s)
    (fun s hs => ⟨rfl, hs⟩)).bind fun stores => ?_
  refine (crmRecorded_makes hinjective stores).bind fun events => ?_
  intro s hs
  refine (mark_spec s (w + 1) .crm _ _).mono ?_ ?_ ?_
  · rintro _ rfl
    exact Relation.ReflTransGen.refl
  · intro _ t hmoved
    exact ⟨Relation.ReflTransGen.single (.crmApplied hs.journal hs.crm hmoved),
      hs.journal.moved hmoved, hs.crm.congr (eventsFor_moved hmoved _ _)⟩
  · rintro e _ ⟨rfl, hdoubling⟩
    exact ⟨Relation.ReflTransGen.refl, explained_of_not_doubling hdoubling⟩

/-! ## The Ops run -/

/-- The order events of the day are these, and no attempt adds to them. -/
structure OrdersKnown (policy : SimulationPolicy) (sha256 : Sha256)
    (crmPlan : Nat → List CrmChange) (w : Nat) (events : List BusinessEvent) (s : Stores) :
    Prop where
  journal : Journal sha256 w s
  crm : CrmSettled sha256 crmPlan (w + 1) s
  settled : OrdersSettled policy sha256 (w + 1) s
  same : ∀ event, event ∈ events ↔ event ∈ recordedOrders (w + 1) s

theorem ordersKnown_record (hinjective : sha256.Injective) (hs : AfterCrm sha256 crmPlan w s)
    (hnew : recordedOrders (w + 1) s = []) :
    OrdersKnown policy sha256 crmPlan w (OpsRun.planOrders policy sha256 (w + 1) s)
      (s.record (OpsRun.planOrders policy sha256 (w + 1) s)) := by
  have hplanned : ∀ event, event ∈ OpsRun.planOrders policy sha256 (w + 1) s →
      Planned sha256 (w + 1) .ops event ∧ OpsRun.isOrderCreated event :=
    fun _ => planned_planOrders
  have hsame : ∀ event, event ∈ OpsRun.planOrders policy sha256 (w + 1) s ↔
      event ∈ recordedOrders (w + 1)
        (s.record (OpsRun.planOrders policy sha256 (w + 1) s)) := by
    intro event
    have hmem : event ∈ (s.control.insertEvents _).events ↔ _ :=
      mem_insertEvents hinjective hs.journal.recorded fun event hmem =>
        ⟨(hplanned event hmem).1.created, by simp [(hplanned event hmem).1.source]⟩
    rw [mem_recordedOrders, Stores.record, hmem]
    constructor
    · intro h
      have hevent := hplanned event h
      exact ⟨.inr h, hevent.1.businessDate, hevent.1.source, hevent.2⟩
    · rintro ⟨hold | hnew', hrest⟩
      · have hrecorded := mem_recordedOrders.mpr ⟨hold, hrest⟩
        rw [hnew] at hrecorded
        cases hrecorded
      · exact hnew'
  have hjournal := journal_record (OpsRun.planOrders policy sha256 (w + 1) s) hs.journal
    (fun event hmem => (hplanned event hmem).1)
    (OpsRun.planOrders policy sha256 (w + 1) s).length
  rw [← take_length_eq] at hjournal
  refine ⟨hjournal, hs.crm.congr (crm_record fun event hmem => ?_).1, ?_, hsame⟩
  · simp [(hplanned event hmem).1.source]
  · by_cases hplan : OpsRun.planOrders policy sha256 (w + 1) s = []
    · right
      rw [hplan]
      exact hplan
    · left
      obtain ⟨event, hmem⟩ := List.exists_mem_of_ne_nil _ hplan
      exact List.ne_nil_of_mem ((hsame event).mp hmem)

theorem recordOrders_makes (hinjective : sha256.Injective) :
    Makes policy sha256 crmPlan w (AfterCrm sha256 crmPlan w)
      (OpsRun.recordOrders policy sha256 (w + 1))
      (OrdersKnown policy sha256 crmPlan w) := by
  rw [OpsRun.recordOrders]
  refine (bySteps_read (L := fun stores s => s = stores ∧ AfterCrm sha256 crmPlan w s)
    (fun s hs => ⟨rfl, hs⟩)).bind fun stores => ?_
  rintro s ⟨rfl, hs⟩
  have hmove : recordedOrders (w + 1) s = [] → ∀ k,
      Relation.ReflTransGen (Move policy sha256 crmPlan w) s
        (s.record ((OpsRun.planOrders policy sha256 (w + 1) s).take k)) :=
    fun hnew k => Relation.ReflTransGen.single (.orderPlan hs.journal hs.crm hnew k)
  refine (recordedOr_stores_spec s _ _).mono ?_ ?_ ?_
  · rintro _ ⟨hnew, k, rfl⟩
    exact hmove hnew k
  · rintro events _ (⟨hknown, rfl, rfl⟩ | ⟨hnew, rfl, rfl⟩)
    · exact ⟨Relation.ReflTransGen.refl, hs.journal, hs.crm, .inl hknown, fun _ => Iff.rfl⟩
    · have hmoved := hmove hnew (OpsRun.planOrders policy sha256 (w + 1) s).length
      rw [← take_length_eq] at hmoved
      exact ⟨hmoved, ordersKnown_record hinjective hs hnew⟩
  · rintro e _ ⟨hdoubling, hnew, k, rfl⟩
    exact ⟨hmove hnew k, explained_of_not_doubling hdoubling⟩

/-- Applying nothing changes nothing. -/
theorem AppliedBy.eq_of_nil {db db' : OpsDatabase} (h : AppliedBy [] db db') : db' = db := by
  induction h with
  | refl => rfl
  | tail _ hstep ih =>
      obtain ⟨_, hmem, _⟩ := hstep
      cases hmem

theorem Ready.congr
    {events events' : List BusinessEvent} {foreign : String → Prop} {db : OpsDatabase}
    (h : Ready foreign events db) (hsame : ∀ event, event ∈ events' → event ∈ events) :
    Ready foreign events' db :=
  ⟨fun event hmem => h.own event (hsame event hmem),
    fun event hmem => h.fresh event (hsame event hmem), fun event hmem event' hmem' =>
    h.distinct event (hsame event hmem) event' (hsame event' hmem')⟩

theorem ErpReady.congr
    {events events' : List BusinessEvent} {db : ErpDatabase} (h : ErpReady events db)
    (hsame : ∀ event, event ∈ events' → event ∈ events) : ErpReady events' db :=
  ⟨fun event hmem => h.fresh event (hsame event hmem), fun event hmem event' hmem' =>
    h.distinct event (hsame event hmem) event' (hsame event' hmem')⟩

/-- What is known once the orders of the day are applied. -/
structure AfterOrders (policy : SimulationPolicy) (sha256 : Sha256)
    (crmPlan : Nat → List CrmChange) (w : Nat) (s : Stores) : Prop where
  journal : Journal sha256 w s
  done : OrdersDone policy sha256 crmPlan (w + 1) s

theorem OrdersKnown.apply
    {events : List BusinessEvent} {db : OpsDatabase}
    (hs : OrdersKnown policy sha256 crmPlan w events s) (h : OpsCommits events s.ops db) :
    AfterOrders policy sha256 crmPlan w { s with ops := db } := by
  obtain ⟨hsteps, hmarked⟩ := h.appliedBy
  refine ⟨hs.journal.applyOps (fun event hmem => ?_) hsteps, hs.crm, ?_,
    fun event hmem => hmarked event ((hs.same event).mpr hmem)⟩
  · have hrecorded := mem_recordedOrders.mp ((hs.same event).mp hmem)
    exact ⟨hrecorded.1, hrecorded.2.2.1⟩
  · by_cases hnone : recordedOrders (w + 1) s = []
    · have hnil : events = [] := by
        rw [List.eq_nil_iff_forall_not_mem]
        intro event hmem
        have hrecorded := (hs.same event).mp hmem
        rw [hnone] at hrecorded
        cases hrecorded
      rw [hnil] at hsteps
      rw [hsteps.eq_of_nil]
      exact hs.settled
    · exact .inl hnone

theorem applyOrders_makes (events : List BusinessEvent) :
    Makes policy sha256 crmPlan w (OrdersKnown policy sha256 crmPlan w events)
      (inOps (OpsEventApplier.apply events)) (fun _ => AfterOrders policy sha256 crmPlan w) := by
  intro s hs
  refine (opsApply_commits s events).mono ?_ ?_ ?_
  · rintro _ rfl
    exact Relation.ReflTransGen.refl
  · rintro _ _ ⟨db, rfl, hcommits⟩
    exact ⟨Relation.ReflTransGen.single (.orders hs.journal hs.crm hs.settled hs.same hcommits),
      hs.apply hcommits⟩
  · rintro e _ ⟨rfl, herror⟩
    refine ⟨Relation.ReflTransGen.refl, fun hdoubling => .orders hs.journal hs.settled ?_⟩
    rintro ⟨foreign, hsound, hready⟩
    have hnot := herror foreign hsound (hready.congr fun event hmem => (hs.same event).mp hmem)
    rw [hnot] at hdoubling
    cases hdoubling

/-- What is known once the fulfillment and the support cases are recorded. -/
structure AfterRecording (policy : SimulationPolicy) (sha256 : Sha256)
    (crmPlan : Nat → List CrmChange) (w : Nat) (s : Stores) : Prop where
  journal : Journal sha256 w s
  recorded : CasesRecorded policy sha256 crmPlan (w + 1) s

theorem recordFulfillment_makes :
    Makes policy sha256 crmPlan w (AfterOrders policy sha256 crmPlan w)
      (OpsRun.recordFulfillment policy sha256 (w + 1))
      (fun _ => AfterRecording policy sha256 crmPlan w) := by
  rw [OpsRun.recordFulfillment]
  refine (bySteps_read (L := fun stores s => s = stores ∧ AfterOrders policy sha256 crmPlan w s)
    (fun s hs => ⟨rfl, hs⟩)).bind fun stores => ?_
  have hfirst : Makes policy sha256 crmPlan w
      (fun s => s = stores ∧ AfterOrders policy sha256 crmPlan w s)
      (inControl (recordEvents (OpsRun.planFulfillment policy sha256 (w + 1) stores)))
      (fun _ s => Journal sha256 w s ∧ FulfillmentRecorded policy sha256 crmPlan (w + 1) s) := by
    rintro s ⟨rfl, hs⟩
    have hjournal := journal_record (OpsRun.planFulfillment policy sha256 (w + 1) s) hs.journal
      (fun _ hmem => (planned_planFulfillment hmem).1)
    have hmove := fun k => Relation.ReflTransGen.single
      (Move.fulfillmentPlan hs.journal hs.done k)
    refine (record_spec s _).mono ?_ ?_ ?_
    · rintro _ ⟨k, rfl⟩
      exact hmove k
    · rintro _ _ rfl
      rw [take_length_eq]
      refine ⟨hmove _, hjournal _, s, hs.done, ?_⟩
      rw [List.take_length]
    · rintro e _ ⟨hdoubling, k, rfl⟩
      exact ⟨hmove k, explained_of_not_doubling hdoubling⟩
  refine hfirst.bind fun _ => ?_
  refine (bySteps_read (L := fun stores s => s = stores ∧ Journal sha256 w s ∧
    FulfillmentRecorded policy sha256 crmPlan (w + 1) s) (fun s hs => ⟨rfl, hs⟩)).bind
      fun stores => ?_
  rintro s ⟨rfl, hs, hrecorded⟩
  have hjournal := journal_record (OpsRun.planSupportCases sha256 (w + 1) s) hs
    (fun _ hmem => (planned_planSupportCases hmem).1)
  have hmove := fun k => Relation.ReflTransGen.single (Move.casePlan hs hrecorded k)
  refine (record_spec s _).mono ?_ ?_ ?_
  · rintro _ ⟨k, rfl⟩
    exact hmove k
  · rintro _ _ rfl
    rw [take_length_eq]
    refine ⟨hmove _, hjournal _, s, hrecorded, ?_⟩
    rw [List.take_length]
  · rintro e _ ⟨hdoubling, k, rfl⟩
    exact ⟨hmove k, explained_of_not_doubling hdoubling⟩

/-- What is known once Operations is done with the day. -/
structure AfterOps (policy : SimulationPolicy) (sha256 : Sha256)
    (crmPlan : Nat → List CrmChange) (w : Nat) (s : Stores) : Prop where
  journal : Journal sha256 w s
  done : OpsDone policy sha256 crmPlan (w + 1) s

/-- The orders of a day stay those that were applied first. -/
theorem CasesRecorded.ordersMarked
    (h : CasesRecorded policy sha256 crmPlan d s) :
    ∀ event, event ∈ recordedOrders d s → event.eventId ∈ s.ops.appliedEvents := by
  obtain ⟨q, ⟨p, hdone, rfl⟩, rfl⟩ := h
  intro event hmem
  have hcases := (mem_recordedOrders_record
    (fun _ hmem => (planned_planSupportCases hmem).2) event).mp hmem
  exact hdone.marked event ((mem_recordedOrders_record
    (fun _ hmem => (planned_planFulfillment hmem).2) event).mp hcases)

theorem AfterRecording.apply
    {db : OpsDatabase} (hs : AfterRecording policy sha256 crmPlan w s)
    (h : OpsCommits (recordedFulfillment (w + 1) s) s.ops db) :
    AfterOps policy sha256 crmPlan w { s with ops := db } := by
  obtain ⟨hsteps, hmarked⟩ := h.appliedBy
  refine ⟨hs.journal.applyOps (fun event hmem => ?_) hsteps, fun event hmem hsource hdate => ?_,
    s, hs.recorded, h, fun _ _ => Iff.rfl⟩
  · have hrecorded := mem_recordedFulfillment.mp hmem
    exact ⟨hrecorded.1, hrecorded.2.2.1⟩
  · obtain horder | hfulfillment :=
      isOrderCreated_or_isFulfillment (hs.journal.recorded.created event hmem) hsource
    · exact hsteps.marks_subset (hs.recorded.ordersMarked event
        (mem_recordedOrders.mpr ⟨hmem, hdate, hsource, horder⟩))
    · exact hmarked event (mem_recordedFulfillment.mpr ⟨hmem, hdate, hsource, hfulfillment⟩)

theorem applyFulfillment_makes :
    Makes policy sha256 crmPlan w (AfterRecording policy sha256 crmPlan w)
      (OpsRun.applyFulfillment (w + 1)) (fun _ => AfterOps policy sha256 crmPlan w) := by
  rw [OpsRun.applyFulfillment]
  refine (bySteps_read (L := fun stores s => s = stores ∧ AfterRecording policy sha256 crmPlan w s)
    (fun s hs => ⟨rfl, hs⟩)).bind fun stores => ?_
  rintro s ⟨rfl, hs⟩
  refine (opsApply_commits s (recordedFulfillment (w + 1) s)).mono ?_ ?_ ?_
  · rintro _ rfl
    exact Relation.ReflTransGen.refl
  · rintro _ _ ⟨db, rfl, hcommits⟩
    exact ⟨Relation.ReflTransGen.single (.fulfillment hs.journal hs.recorded hcommits),
      hs.apply hcommits⟩
  · rintro e _ ⟨rfl, herror⟩
    refine ⟨Relation.ReflTransGen.refl, fun hdoubling => .fulfillment hs.journal hs.recorded ?_⟩
    rintro ⟨foreign, hsound, hready⟩
    rw [herror foreign hsound hready] at hdoubling
    cases hdoubling

theorem opsRun_makes (hinjective : sha256.Injective) :
    Makes policy sha256 crmPlan w (AfterCrm sha256 crmPlan w)
      (OpsRun.run policy sha256 (w + 1) seed) (fun _ => AfterOps policy sha256 crmPlan w) := by
  rw [OpsRun.run]
  refine (claim_makes (fun _ h => h.journal) (fun _ _ h hmoved => ⟨h.journal.moved hmoved,
    h.crm.congr (eventsFor_moved hmoved _ _)⟩)).bind fun _ => ?_
  refine (sourceRunState_makes .crm).bind fun crm => bySteps_ite (fun _ => bySteps_raise fun s _ =>
    explained_of_not_doubling rfl) fun _ => ?_
  rw [OpsRun.work]
  refine (recordOrders_makes hinjective).bind fun events => ?_
  refine (applyOrders_makes events).bind fun orders => ?_
  refine recordFulfillment_makes.bind fun _ => ?_
  refine applyFulfillment_makes.bind fun fulfillment => ?_
  refine (bySteps_read (L := fun _ => AfterOps policy sha256 crmPlan w)
    (fun s hs => hs)).bind fun stores => ?_
  intro s hs
  refine (mark_spec s (w + 1) .ops _ _).mono ?_ ?_ ?_
  · rintro _ rfl
    exact Relation.ReflTransGen.refl
  · intro _ t hmoved
    exact ⟨Relation.ReflTransGen.single (.opsApplied hs.journal hs.done hmoved),
      hs.journal.moved hmoved, hs.done.moved hmoved⟩
  · rintro e _ ⟨rfl, hdoubling⟩
    exact ⟨Relation.ReflTransGen.refl, explained_of_not_doubling hdoubling⟩

/-! ## The ERP run -/

/-- The posting events of the day are these. -/
structure PostingsKnown (policy : SimulationPolicy) (sha256 : Sha256)
    (crmPlan : Nat → List CrmChange) (w : Nat) (events : List BusinessEvent) (s : Stores) :
    Prop where
  journal : Journal sha256 w s
  done : OpsDone policy sha256 crmPlan (w + 1) s
  same : ∀ event, event ∈ events ↔ event ∈ s.control.eventsFor (w + 1) .erp

theorem postingsKnown_record (hinjective : sha256.Injective)
    (hs : AfterOps policy sha256 crmPlan w s)
    (hnew : s.control.eventsFor (w + 1) .erp = []) :
    PostingsKnown policy sha256 crmPlan w (ErpRun.planPostings policy sha256 (w + 1) seed s)
      (s.record (ErpRun.planPostings policy sha256 (w + 1) seed s)) := by
  have hplanned : ∀ event, event ∈ ErpRun.planPostings policy sha256 (w + 1) seed s →
      Planned sha256 (w + 1) .erp event :=
    fun _ => planned_planPostings
  have hjournal := journal_record (ErpRun.planPostings policy sha256 (w + 1) seed s) hs.journal
    hplanned (ErpRun.planPostings policy sha256 (w + 1) seed s).length
  rw [← take_length_eq] at hjournal
  refine ⟨hjournal, hs.done.record fun event hmem => (hplanned event hmem).source,
    fun event => ?_⟩
  have hmem : event ∈ (s.control.insertEvents _).events ↔ _ :=
    mem_insertEvents hinjective hs.journal.recorded fun event hmem =>
      ⟨(hplanned event hmem).created, by simp [(hplanned event hmem).source]⟩
  rw [mem_eventsFor, Stores.record, hmem]
  constructor
  · intro h
    exact ⟨.inr h, (hplanned event h).businessDate, (hplanned event h).source⟩
  · rintro ⟨hold | hnew', hrest⟩
    · have hrecorded := mem_eventsFor.mpr ⟨hold, hrest⟩
      rw [hnew] at hrecorded
      cases hrecorded
    · exact hnew'

theorem recordPostings_makes (hinjective : sha256.Injective) :
    Makes policy sha256 crmPlan w (AfterOps policy sha256 crmPlan w)
      (ErpRun.recordPostings policy sha256 (w + 1) seed)
      (PostingsKnown policy sha256 crmPlan w) := by
  rw [ErpRun.recordPostings]
  refine (bySteps_read (L := fun stores s => s = stores ∧ AfterOps policy sha256 crmPlan w s)
    (fun s hs => ⟨rfl, hs⟩)).bind fun stores => ?_
  refine bySteps_ite (fun hempty => ?_) fun _ => ?_
  · rw [ErpRun.planAndRecord]
    refine bySteps_ite (fun _ => bySteps_raise fun s _ => explained_of_not_doubling rfl)
      fun hknown => ?_
    rw [ErpRun.recordPlan]
    have hrecord : Makes policy sha256 crmPlan w
        (fun s => s = stores ∧ AfterOps policy sha256 crmPlan w s)
        (inControl (recordEvents (ErpRun.planPostings policy sha256 (w + 1) seed stores)))
        (fun _ => PostingsKnown policy sha256 crmPlan w
          (ErpRun.planPostings policy sha256 (w + 1) seed stores)) := by
      rintro s ⟨rfl, hs⟩
      have hnew : s.control.eventsFor (w + 1) .erp = [] := List.isEmpty_iff.mp hempty
      have hmove := fun k => Relation.ReflTransGen.single
        (Move.postingPlan hs.journal hs.done hnew (not_not.mp hknown) seed k)
      refine (record_spec s _).mono ?_ ?_ ?_
      · rintro _ ⟨k, rfl⟩
        exact hmove k
      · rintro _ _ rfl
        have hmoved := hmove (ErpRun.planPostings policy sha256 (w + 1) seed s).length
        rw [← take_length_eq] at hmoved
        exact ⟨hmoved, postingsKnown_record hinjective hs hnew⟩
      · rintro e _ ⟨hdoubling, k, rfl⟩
        exact ⟨hmove k, explained_of_not_doubling hdoubling⟩
    exact hrecord.bind fun _ => bySteps_pure fun s hs => hs
  · refine bySteps_pure fun s hs => ?_
    obtain ⟨rfl, hs⟩ := hs
    exact ⟨hs.journal, hs.done, fun _ => Iff.rfl⟩

/-- What is known once Finance is done with the day. -/
structure AfterErp (policy : SimulationPolicy) (sha256 : Sha256)
    (crmPlan : Nat → List CrmChange) (w : Nat) (s : Stores) : Prop where
  journal : Journal sha256 w s
  done : OpsDone policy sha256 crmPlan (w + 1) s
  marked : ErpMarked (w + 1) s

theorem applyPostings_makes (events : List BusinessEvent) :
    Makes policy sha256 crmPlan w (PostingsKnown policy sha256 crmPlan w events)
      (inErp (ErpEventApplier.apply events)) (fun _ => AfterErp policy sha256 crmPlan w) := by
  intro s hs
  refine (erpApply_commits s events).mono ?_ ?_ ?_
  · rintro _ rfl
    exact Relation.ReflTransGen.refl
  · rintro _ _ ⟨db, rfl, hcommits⟩
    obtain ⟨hsteps, hmarked⟩ := hcommits.appliedBy
    refine ⟨Relation.ReflTransGen.single (.postings hs.journal hs.done hs.same hcommits),
      hs.journal.applyErp (fun event hmem => ?_) hsteps,
      hs.done.congr rfl fun _ _ => Iff.rfl, fun event hmem hsource hdate => ?_⟩
    · have hrecorded := mem_eventsFor.mp ((hs.same event).mp hmem)
      exact ⟨hrecorded.1, hrecorded.2.2⟩
    · exact hmarked event ((hs.same event).mpr (mem_eventsFor.mpr ⟨hmem, hdate, hsource⟩))
  · rintro e _ ⟨rfl, herror⟩
    refine ⟨Relation.ReflTransGen.refl, fun hdoubling => .postings hs.journal hs.done ?_⟩
    intro hready
    rw [herror (hready.congr fun event hmem => (hs.same event).mp hmem)] at hdoubling
    cases hdoubling

theorem erpRun_makes (hinjective : sha256.Injective) :
    Makes policy sha256 crmPlan w (AfterOps policy sha256 crmPlan w)
      (ErpRun.run policy sha256 (w + 1) seed) (fun _ _ => True) := by
  rw [ErpRun.run]
  refine (claim_makes (fun _ h => h.journal) (fun _ _ h hmoved => ⟨h.journal.moved hmoved,
    h.done.moved hmoved⟩)).bind fun _ => ?_
  refine (sourceRunState_makes .ops).bind fun ops => bySteps_ite (fun _ =>
    bySteps_raise fun s _ => explained_of_not_doubling rfl) fun _ => ?_
  rw [ErpRun.work]
  refine (recordPostings_makes hinjective).bind fun events => ?_
  refine (applyPostings_makes events).bind fun applied => ?_
  have hmark : Makes policy sha256 crmPlan w (AfterErp policy sha256 crmPlan w)
      (inControl (markSourceApplied (w + 1) .erp events.length applied))
      (fun _ => AfterErp policy sha256 crmPlan w) := by
    intro s hs
    refine (mark_spec s (w + 1) .erp _ _).mono ?_ ?_ ?_
    · rintro _ rfl
      exact Relation.ReflTransGen.refl
    · intro _ t hmoved
      exact ⟨Relation.ReflTransGen.single (.erpApplied hs.journal hs.done hs.marked hmoved),
        hs.journal.moved hmoved, hs.done.moved hmoved, hs.marked.moved hmoved⟩
    · rintro e _ ⟨rfl, hdoubling⟩
      exact ⟨Relation.ReflTransGen.refl, explained_of_not_doubling hdoubling⟩
  refine hmark.bind fun _ => ?_
  intro s hs
  refine (complete_spec s (w + 1)).mono ?_ ?_ ?_
  · exact fun t hmoved => Relation.ReflTransGen.single (.control hs.journal hmoved)
  · rintro _ _ ⟨rfl, _⟩
    exact ⟨Relation.ReflTransGen.single (.completed hs.journal hs.done hs.marked), trivial⟩
  · rintro e _ ⟨rfl, hdoubling⟩
    exact ⟨Relation.ReflTransGen.refl, explained_of_not_doubling hdoubling⟩

/-! ## Attempts -/

theorem lastCompletedDate_makes :
    Makes policy sha256 crmPlan w (fun _ => True) (inControl lastCompletedDate)
      (fun _ _ => True) := by
  intro s _
  rw [inControl, meets_onPart, lastCompletedDate, meets_bind, meets_read]
  cases s.control.lastCompleted with
  | none =>
      exact (meets_raise _).mpr ⟨Relation.ReflTransGen.refl, explained_of_not_doubling rfl⟩
  | some last => exact (meets_pure _).mpr ⟨Relation.ReflTransGen.refl, trivial⟩

/-- The program of the day after `w` makes moves, and raises a doubling error
only where a transaction meets events that are not ready. -/
theorem run_makes (hinjective : sha256.Injective) :
    Makes policy sha256 crmPlan w (Journal sha256 w)
      (DailySimulationRunner.run policy sha256 crmPlan (w + 1) seed) (fun _ _ => True) := by
  rw [DailySimulationRunner.run]
  refine (crmRun_makes hinjective).bind fun _ => ?_
  refine (opsRun_makes hinjective).bind fun _ => ?_
  refine (erpRun_makes hinjective).bind fun _ => ?_
  refine lastCompletedDate_makes.bind fun last => ?_
  exact bySteps_ite (fun _ => bySteps_raise fun _ _ => explained_of_not_doubling rfl)
    fun _ => bySteps_pure fun _ _ => trivial

/-- An attempt is a sequence of moves. -/
theorem moves_of_attempt (hinjective : sha256.Injective) (hs : Journal sha256 w s)
    (h : DailySimulationRunner.Attempt policy sha256 crmPlan seed s t) :
    Relation.ReflTransGen (Move policy sha256 crmPlan w) s t := by
  obtain ⟨w', hw, hleaves⟩ := h
  obtain rfl := Option.some.inj (hs.lastCompleted.symm.trans hw)
  exact (run_makes hinjective).leaves hs hleaves

end Walk

end Simulator
end Northwind
