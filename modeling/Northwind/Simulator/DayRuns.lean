import Northwind.Simulator.DayTraversal
import Northwind.Simulator.OpsEffects

/-!
# Runs of days

A run is a sequence of attempts, each at the day after the watermark and each up
to its end, its error or a crash.  It starts from the databases that the
simulator finds and a control store that has just been created.

What holds at the start and is kept by the moves holds in every store a run
reaches; and an error of a later attempt finds it too.
-/

namespace Northwind
namespace Simulator

open CrashPrograms CrashPrograms.Program SimulationState SimulationStateStore OpsEventApplier

variable {policy : SimulationPolicy} {sha256 : Sha256} {crmPlan : Nat → List CrmChange}
variable {w : Nat} {s t : Stores}

/-! ## Journals -/

theorem OpsCommits.effects
    {events : List BusinessEvent} {db db' : OpsDatabase} (h : OpsCommits events db db') :
    EffectsBy events db db' ∧ ∀ event, event ∈ events → event.eventId ∈ db'.appliedEvents := by
  obtain ⟨_, hok, rfl⟩ := h
  exact (apply_effects events db).of_ok hok

/-- The events of an Ops transaction are recorded events of the day. -/
def DayEvents (w : Nat) (s : Stores) (events : List BusinessEvent) : Prop :=
  ∀ event, event ∈ events →
    event ∈ s.control.events ∧ event.businessDate = w + 1 ∧ event.source = .ops

theorem dayEvents_orders {events : List BusinessEvent}
    (h : ∀ event, event ∈ events ↔ event ∈ recordedOrders (w + 1) s) : DayEvents w s events := by
  intro event hmem
  have hrecorded := mem_recordedOrders.mp ((h event).mp hmem)
  exact ⟨hrecorded.1, hrecorded.2.1, hrecorded.2.2.1⟩

theorem dayEvents_fulfillment : DayEvents w s (recordedFulfillment (w + 1) s) := by
  intro event hmem
  have hrecorded := mem_recordedFulfillment.mp hmem
  exact ⟨hrecorded.1, hrecorded.2.1, hrecorded.2.2.1⟩

/-- A move leaves the Ops database as it is, or applies events of the day. -/
theorem Move.ops (h : Move policy sha256 crmPlan w s t) :
    t.ops = s.ops ∨ ∃ events, DayEvents w s events ∧ OpsCommits events s.ops t.ops := by
  cases h with
  | control _ moved => exact .inl moved.ops
  | crmPlan => exact .inl rfl
  | crmApplied _ _ moved => exact .inl moved.ops
  | orderPlan => exact .inl rfl
  | orders _ _ _ same committed => exact .inr ⟨_, dayEvents_orders same, committed⟩
  | fulfillmentPlan => exact .inl rfl
  | casePlan => exact .inl rfl
  | fulfillment _ _ committed => exact .inr ⟨_, dayEvents_fulfillment, committed⟩
  | opsApplied _ _ moved => exact .inl moved.ops
  | postingPlan => exact .inl rfl
  | postings => exact .inl rfl
  | erpApplied _ _ _ moved => exact .inl moved.ops
  | completed => exact .inl rfl

/-- A move records events of the day, and loses none. -/
theorem Move.events (h : Move policy sha256 crmPlan w s t) :
    s.control.events ⊆ t.control.events ∧
      ∀ event, event ∈ t.control.events →
        event ∈ s.control.events ∨ (Created sha256 event ∧ event.businessDate = w + 1) := by
  have hsame : ∀ {t : Stores}, t.control.events = s.control.events →
      s.control.events ⊆ t.control.events ∧ ∀ event, event ∈ t.control.events →
        event ∈ s.control.events ∨ (Created sha256 event ∧ event.businessDate = w + 1) := by
    intro t heq
    rw [heq]
    exact ⟨List.Subset.refl _, fun _ => .inl⟩
  have hrecord : ∀ (plan : List BusinessEvent) (source : SourceSystem) (k : Nat),
      (∀ event, event ∈ plan → Planned sha256 (w + 1) source event) →
      s.control.events ⊆ (s.record (plan.take k)).control.events ∧
        ∀ event, event ∈ (s.record (plan.take k)).control.events →
          event ∈ s.control.events ∨ (Created sha256 event ∧ event.businessDate = w + 1) := by
    intro plan source k hplanned
    refine ⟨events_subset_insertEvents _ _, fun event hmem => ?_⟩
    refine (mem_of_mem_insertEvents hmem).imp_right fun hnew => ?_
    have hplan := hplanned event (List.mem_of_mem_take hnew)
    exact ⟨hplan.created, hplan.businessDate⟩
  cases h with
  | control _ moved => exact hsame moved.events
  | crmPlan _ _ k => exact hrecord _ .crm k fun _ => planned_crmPlan
  | crmApplied _ _ moved => exact hsame moved.events
  | orderPlan _ _ _ k => exact hrecord _ .ops k fun _ hmem => (planned_planOrders hmem).1
  | orders => exact hsame rfl
  | fulfillmentPlan _ _ k =>
      exact hrecord _ .ops k fun _ hmem => (planned_planFulfillment hmem).1
  | casePlan _ _ k => exact hrecord _ .ops k fun _ hmem => (planned_planSupportCases hmem).1
  | fulfillment => exact hsame rfl
  | opsApplied _ _ moved => exact hsame moved.events
  | postingPlan _ _ _ _ seed k => exact hrecord _ .erp k fun _ => planned_planPostings
  | postings => exact hsame rfl
  | erpApplied _ _ _ moved => exact hsame moved.events
  | completed => exact hsame rfl

/-- A move keeps the journal of the day, or completes it. -/
theorem Move.journal (h : Move policy sha256 crmPlan w s t) :
    Journal sha256 w t ∨
      (t = s.complete (w + 1) ∧ Journal sha256 (w + 1) t ∧ Journal sha256 w s ∧
        OpsDone policy sha256 crmPlan (w + 1) s ∧ ErpMarked (w + 1) s) := by
  have hops : ∀ {events : List BusinessEvent} {db : OpsDatabase}, Journal sha256 w s →
      DayEvents w s events → OpsCommits events s.ops db →
        Journal sha256 w { s with ops := db } := by
    intro events db hs hday hcommits
    refine hs.applyOps (fun event hmem => ?_) hcommits.appliedBy.1
    exact ⟨(hday event hmem).1, (hday event hmem).2.2⟩
  cases h with
  | control hs moved => exact .inl (hs.moved moved)
  | crmPlan hs _ k => exact .inl (journal_record _ hs (fun _ => planned_crmPlan) k)
  | crmApplied hs _ moved => exact .inl (hs.moved moved)
  | orderPlan hs _ _ k =>
      exact .inl (journal_record _ hs (fun _ hmem => (planned_planOrders hmem).1) k)
  | orders hs _ _ same committed => exact .inl (hops hs (dayEvents_orders same) committed)
  | fulfillmentPlan hs _ k =>
      exact .inl (journal_record _ hs (fun _ hmem => (planned_planFulfillment hmem).1) k)
  | casePlan hs _ k =>
      exact .inl (journal_record _ hs (fun _ hmem => (planned_planSupportCases hmem).1) k)
  | fulfillment hs _ committed => exact .inl (hops hs dayEvents_fulfillment committed)
  | opsApplied hs _ moved => exact .inl (hs.moved moved)
  | postingPlan hs _ _ _ seed k =>
      exact .inl (journal_record _ hs (fun _ => planned_planPostings) k)
  | postings hs _ same committed =>
      refine .inl (hs.applyErp (fun event hmem => ?_) committed.appliedBy.1)
      have hrecorded := mem_eventsFor.mp ((same event).mp hmem)
      exact ⟨hrecorded.1, hrecorded.2.2⟩
  | erpApplied hs _ _ moved => exact .inl (hs.moved moved)
  | completed hs done marked => exact .inr ⟨rfl, hs.complete done.marked marked, hs, done, marked⟩

/-! ## Invariants -/

/-- An invariant of the days: kept by the moves of a day, and carried over to the
next one. -/
structure Invariant (policy : SimulationPolicy) (sha256 : Sha256)
    (crmPlan : Nat → List CrmChange) (Inv : Nat → Stores → Prop) : Prop where
  move : ∀ w s t, Inv w s → Move policy sha256 crmPlan w s t → Journal sha256 w t → Inv w t
  complete : ∀ w s, Inv w s → Journal sha256 w s → OpsDone policy sha256 crmPlan (w + 1) s →
    ErpMarked (w + 1) s → Inv (w + 1) (s.complete (w + 1))

/-- Another invariant, where the first one is known. -/
theorem Invariant.and {Inv Inv' : Nat → Stores → Prop}
    (h : Invariant policy sha256 crmPlan Inv)
    (move : ∀ w s t, Inv w s → Inv' w s → Move policy sha256 crmPlan w s t →
      Journal sha256 w t → Inv w t → Inv' w t)
    (complete : ∀ w s, Inv w s → Inv' w s → Journal sha256 w s →
      OpsDone policy sha256 crmPlan (w + 1) s → ErpMarked (w + 1) s →
        Inv' (w + 1) (s.complete (w + 1))) :
    Invariant policy sha256 crmPlan (fun w s => Inv w s ∧ Inv' w s) where
  move w s t hs hmove ht := by
    have hInv := h.move w s t hs.1 hmove ht
    exact ⟨hInv, move w s t hs.1 hs.2 hmove ht hInv⟩
  complete w s hs hjournal hdone hmarked :=
    ⟨h.complete w s hs.1 hjournal hdone hmarked, complete w s hs.1 hs.2 hjournal hdone hmarked⟩

theorem Invariant.inter {Inv Inv' : Nat → Stores → Prop}
    (h : Invariant policy sha256 crmPlan Inv) (h' : Invariant policy sha256 crmPlan Inv') :
    Invariant policy sha256 crmPlan (fun w s => Inv w s ∧ Inv' w s) :=
  h.and (fun w s t _ hs hmove ht _ => h'.move w s t hs hmove ht)
    (fun w s _ hs hjournal hdone hmarked => h'.complete w s hs hjournal hdone hmarked)

/-- One attempt after another. -/
def Attempts (policy : SimulationPolicy) (sha256 : Sha256) (crmPlan : Nat → List CrmChange) :
    Stores → Stores → Prop :=
  Relation.ReflTransGen
    (fun s t => ∃ seed, DailySimulationRunner.Attempt policy sha256 crmPlan seed s t)

section Invariants

variable {Inv : Nat → Stores → Prop} {start : Stores}

/-- The moves of an attempt end in the day in progress or in the next one. -/
theorem Invariant.moves
    (hinv : Invariant policy sha256 crmPlan Inv) (hs : Journal sha256 w s) (h : Inv w s)
    (hmoves : Relation.ReflTransGen (Move policy sha256 crmPlan w) s t) :
    (Journal sha256 w t ∧ Inv w t) ∨ (Journal sha256 (w + 1) t ∧ Inv (w + 1) t) := by
  induction hmoves with
  | refl => exact .inl ⟨hs, h⟩
  | @tail u v _ hmove ih =>
      obtain ⟨hu, hInv⟩ | ⟨hu, _⟩ := ih
      · obtain hv | ⟨rfl, hv, _, hdone, hmarked⟩ := hmove.journal
        · exact .inl ⟨hv, hinv.move w _ _ hInv hmove hv⟩
        · exact .inr ⟨hv, hinv.complete w _ hInv hu hdone hmarked⟩
      · -- a completed day has no further moves
        have hlast : Journal sha256 w u := by
          cases hmove <;> assumption
        have := hlast.lastCompleted.symm.trans hu.lastCompleted
        simp at this

theorem Invariant.reached
    (hinv : Invariant policy sha256 crmPlan Inv) (hinjective : sha256.Injective)
    (hstart : Journal sha256 w start) (h : Inv w start)
    (hreached : Attempts policy sha256 crmPlan start t) :
    ∃ w', w ≤ w' ∧ Journal sha256 w' t ∧ Inv w' t := by
  induction hreached with
  | refl => exact ⟨w, le_refl w, hstart, h⟩
  | tail _ hattempt ih =>
      obtain ⟨w', hle, hjournal, hInv⟩ := ih
      obtain ⟨seed, hattempt⟩ := hattempt
      obtain hend | hend := hinv.moves hjournal hInv
        (moves_of_attempt hinjective hjournal hattempt)
      · exact ⟨w', hle, hend⟩
      · exact ⟨w' + 1, Nat.le_succ_of_le hle, hend⟩

/-- A doubling error of an attempt has its cause in a store with the invariant. -/
theorem Invariant.explains
    (hinv : Invariant policy sha256 crmPlan Inv) (hinjective : sha256.Injective)
    (hs : Journal sha256 w s) (h : Inv w s) {seed : Int} {e : RunError}
    (herror : (DailySimulationRunner.run policy sha256 crmPlan (w + 1) seed s).result = .error e)
    (hdoubling : e.isDoubling = true) :
    ∃ t, t = (DailySimulationRunner.run policy sha256 crmPlan (w + 1) seed s).final ∧
      Inv w t ∧ Doubling policy sha256 crmPlan w t := by
  have hmakes : Makes policy sha256 crmPlan w (Journal sha256 w)
      (DailySimulationRunner.run policy sha256 crmPlan (w + 1) seed) (fun _ _ => True) :=
    run_makes hinjective
  have hend := (hmakes s hs).2
  rw [herror] at hend
  obtain ⟨hmoves, hexplained⟩ := hend
  have hcause := hexplained hdoubling
  refine ⟨_, rfl, ?_, hcause⟩
  obtain hend | hend := hinv.moves hs h hmoves
  · exact hend.2
  · have hlast : Journal sha256 w
        (DailySimulationRunner.run policy sha256 crmPlan (w + 1) seed s).final := by
      cases hcause <;> assumption
    have := hlast.lastCompleted.symm.trans hend.1.lastCompleted
    simp at this

end Invariants

/-! ## Starts -/

/-- Before the first day: nothing is recorded and nothing is marked. -/
structure Unstarted (b : Nat) (s : Stores) : Prop where
  control : s.control = initialized b
  ops : s.ops.appliedEvents = []
  erp : s.erp.appliedEvents = []

theorem Unstarted.events {b : Nat} (h : Unstarted b s) : s.control.events = [] := by
  rw [h.control]
  rfl

theorem Unstarted.journal {b : Nat} (h : Unstarted b s) : Journal sha256 b s where
  lastCompleted := by
    rw [h.control]
    rfl
  recorded := by
    constructor <;> simp [h.events]
  dated := by simp [h.events]
  opsMarked := by simp [h.events]
  erpMarked := by simp [h.events]
  opsMarks := by simp [h.ops]
  erpMarks := by simp [h.erp]
  rowed := by
    rw [h.control]
    rintro d source hrow
    cases hrow
  ahead := by
    rintro d _ source ⟨row, hrow, _⟩
    rw [h.control] at hrow
    cases hrow

end Simulator
end Northwind
