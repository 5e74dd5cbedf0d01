import Northwind.Simulator.SourceRuns

/-!
# Recorded events

Recording a list of events passes through the stores that hold more and more of
it.  Event ids stay distinct, and an event that is already recorded changes
nothing; no Ops or ERP event is lost to another one of its id.

A query answers its events in the order of their ids, so that it depends on
which events are recorded and not on when.
-/

namespace Northwind
namespace Simulator

open CrashPrograms CrashPrograms.Program

namespace SimulationState

variable {β : Type} {s : SimulationState β}

/-- The inserts of `record_events`. -/
def insertEvents (s : SimulationState β) (events : List (SimulationEvent β)) :
    SimulationState β :=
  events.foldl insertEvent s

theorem insertEvents_cons
    (s : SimulationState β) (event : SimulationEvent β) (events : List (SimulationEvent β)) :
    s.insertEvents (event :: events) = (s.insertEvent event).insertEvents events :=
  rfl

theorem insertEvents_append (s : SimulationState β) (xs ys : List (SimulationEvent β)) :
    s.insertEvents (xs ++ ys) = (s.insertEvents xs).insertEvents ys :=
  List.foldl_append

theorem insertEvents_sameControl (s : SimulationState β) (events : List (SimulationEvent β)) :
    SameControl s (s.insertEvents events) := by
  induction events generalizing s with
  | nil => exact SameControl.refl s
  | cons event events ih => exact (sameControl_insertEvent s event).trans (ih _)

theorem insertEvent_of_known {event : SimulationEvent β}
    (h : event.eventId ∈ s.events.map SimulationEvent.eventId) :
    s.insertEvent event = s := by
  obtain ⟨known, hmem, hid⟩ := List.mem_map.mp h
  rw [insertEvent, if_pos (List.any_eq_true.mpr ⟨known, hmem, by simpa using hid⟩)]

theorem insertEvent_of_new {event : SimulationEvent β}
    (h : event.eventId ∉ s.events.map SimulationEvent.eventId) :
    s.insertEvent event = { s with events := s.events ++ [event] } := by
  rw [insertEvent, if_neg]
  intro hany
  obtain ⟨known, hmem, hid⟩ := List.any_eq_true.mp hany
  exact h (List.mem_map.mpr ⟨known, hmem, by simpa using hid⟩)

theorem events_subset_insertEvent (s : SimulationState β) (event : SimulationEvent β) :
    s.events ⊆ (s.insertEvent event).events := by
  rw [insertEvent]
  split
  · exact List.Subset.refl _
  · exact List.subset_append_left _ _

theorem events_subset_insertEvents (s : SimulationState β) (events : List (SimulationEvent β)) :
    s.events ⊆ (s.insertEvents events).events := by
  induction events generalizing s with
  | nil => exact List.Subset.refl _
  | cons event events ih => exact List.Subset.trans (events_subset_insertEvent s event) (ih _)

theorem mem_of_mem_insertEvent {event x : SimulationEvent β}
    (h : x ∈ (s.insertEvent event).events) :
    x ∈ s.events ∨ x = event := by
  rw [insertEvent] at h
  split at h
  · exact .inl h
  · exact (List.mem_append.mp h).imp_right List.mem_singleton.mp

theorem mem_of_mem_insertEvents {events : List (SimulationEvent β)} {x : SimulationEvent β}
    (h : x ∈ (s.insertEvents events).events) :
    x ∈ s.events ∨ x ∈ events := by
  induction events generalizing s with
  | nil => exact .inl h
  | cons event events ih =>
      obtain hmem | hmem := ih h
      · refine (mem_of_mem_insertEvent hmem).imp_right fun heq => ?_
        rw [heq]
        exact List.mem_cons_self
      · exact .inr (List.mem_cons_of_mem _ hmem)

/-- An inserted event is recorded under its id, by itself or by an earlier one. -/
theorem eventId_mem_insertEvents {events : List (SimulationEvent β)} {x : SimulationEvent β}
    (h : x ∈ events) :
    x.eventId ∈ (s.insertEvents events).events.map SimulationEvent.eventId := by
  induction events generalizing s with
  | nil => cases h
  | cons event events ih =>
      obtain rfl | hmem := List.mem_cons.mp h
      · refine List.map_subset _ (events_subset_insertEvents _ events) ?_
        by_cases hknown : x.eventId ∈ s.events.map SimulationEvent.eventId
        · rwa [insertEvent_of_known hknown]
        · rw [insertEvent_of_new hknown]
          simp
      · exact ih hmem

theorem nodup_insertEvents {events : List (SimulationEvent β)}
    (h : (s.events.map SimulationEvent.eventId).Nodup) :
    ((s.insertEvents events).events.map SimulationEvent.eventId).Nodup := by
  induction events generalizing s with
  | nil => exact h
  | cons event events ih =>
      refine ih ?_
      by_cases hknown : event.eventId ∈ s.events.map SimulationEvent.eventId
      · rwa [insertEvent_of_known hknown]
      · rw [insertEvent_of_new hknown, List.map_append, List.map_singleton]
        exact List.nodup_append.mpr ⟨h, List.nodup_singleton _, by grind⟩

end SimulationState

open SimulationState SimulationStateStore

section Recording

variable {β : Type}

/-- Recording passes through the stores that hold the first events of its list;
it raises only where the source run of one of them is not there. -/
theorem recordEvents_spec (s : SimulationState β) (events : List (SimulationEvent β)) :
    (recordEvents events).Meets (fun t => ∃ k, t = s.insertEvents (events.take k))
      (fun _ t => t = s.insertEvents events)
      (fun e t => e = .eventNotClaimed ∧ (∃ k, t = s.insertEvents (events.take k)) ∧
        ∃ event, event ∈ events ∧ s.sourceRuns event.businessDate event.source = none)
      s := by
  let Inv : List (SimulationEvent β) → SimulationState β → Prop := fun rest t =>
    ∃ done, events = done ++ rest ∧ t = s.insertEvents done
  have hstate : ∀ done rest, events = done ++ rest →
      ∃ k, s.insertEvents done = s.insertEvents (events.take k) := by
    rintro done rest rfl
    exact ⟨done.length, by rw [List.take_left]⟩
  refine (meets_forEach Inv ?_ events ⟨[], rfl, rfl⟩).mono (fun _ h => h) ?_ (fun _ _ h => h)
  · rintro event rest _ ⟨done, hsplit, rfl⟩
    have hrows := (insertEvents_sameControl s done).sourceRuns
    simp only [recordEvent, meets_bind, meets_read, meets_ite, meets_raise, meets_write]
    refine ⟨fun hnone => ⟨trivial, hstate done _ hsplit, event, ?_, ?_⟩,
      fun _ => ⟨hstate done _ hsplit, done ++ [event], ?_, ?_⟩⟩
    · rw [hsplit]
      simp
    · rw [← hrows]
      exact hnone
    · rw [hsplit, List.append_assoc]
      rfl
    · rw [insertEvents_append]
      rfl
  · rintro _ _ ⟨done, hsplit, rfl⟩
    rw [List.append_nil] at hsplit
    rw [hsplit]

/-- The recorded events of a date, or the plan and its recording. -/
theorem recordedOr_spec (s : SimulationState β) (known plan : List (SimulationEvent β)) :
    (recordedOr known plan).Meets
      (fun t => known = [] ∧ ∃ k, t = s.insertEvents (plan.take k))
      (fun events t => (known ≠ [] ∧ events = known ∧ t = s) ∨
        (known = [] ∧ events = plan ∧ t = s.insertEvents plan))
      (fun e t => e = .eventNotClaimed ∧ known = [] ∧
        (∃ k, t = s.insertEvents (plan.take k)) ∧
        ∃ event, event ∈ plan ∧ s.sourceRuns event.businessDate event.source = none)
      s := by
  rw [recordedOr]
  cases known with
  | nil =>
      refine ((recordEvents_spec s plan).mono (fun _ h => ⟨rfl, h⟩) (fun _ _ h => h)
        (fun _ _ h => ⟨h.1, rfl, h.2⟩)).bind fun _ t ht => ?_
      exact (meets_pure _).mpr (.inr ⟨rfl, rfl, ht⟩)
  | cons event known => exact (meets_pure _).mpr (.inl ⟨by simp, rfl, rfl⟩)

end Recording

/-! ## Events of the planners -/

section Events

variable {sha256 : Sha256} {s : SimulationState EventBody} {d : Nat} {source : SourceSystem}

/-- An event as `SourceEvent.create` makes it. -/
def Created (sha256 : Sha256) (event : BusinessEvent) : Prop :=
  event = sha256.createEvent event.businessDate event.body

theorem created_createEvent (d : Nat) (body : EventBody) :
    Created sha256 (sha256.createEvent d body) :=
  rfl

theorem Created.source_eq {event : BusinessEvent} (h : Created sha256 event) :
    event.source = event.body.source := by
  rw [h]
  rfl

/-- Every recorded event is one the planners made, under an id of its own. -/
structure WellRecorded (sha256 : Sha256) (s : SimulationState EventBody) : Prop where
  created : ∀ event, event ∈ s.events → Created sha256 event
  nodup : (s.events.map SimulationEvent.eventId).Nodup

theorem WellRecorded.insertEvents {events : List BusinessEvent} (hs : WellRecorded sha256 s)
    (h : ∀ event, event ∈ events → Created sha256 event) :
    WellRecorded sha256 (s.insertEvents events) :=
  ⟨fun event hmem => (mem_of_mem_insertEvents hmem).elim (hs.created event) (h event),
    nodup_insertEvents hs.nodup⟩

theorem WellRecorded.eq_of_eventId {event event' : BusinessEvent} (hs : WellRecorded sha256 s)
    (hmem : event ∈ s.events) (hmem' : event' ∈ s.events)
    (hid : event.eventId = event'.eventId) :
    event = event' :=
  List.inj_on_of_nodup_map hs.nodup hmem hmem' hid

/-- Two created events of one id are one event, where one is not of CRM. -/
theorem Created.eq_of_eventId {event event' : BusinessEvent} (hinjective : sha256.Injective)
    (h : Created sha256 event) (h' : Created sha256 event') (hsource : event.source ≠ .crm)
    (hid : event.eventId = event'.eventId) :
    event = event' := by
  rw [h, h'] at hid
  rw [h.source_eq] at hsource
  obtain ⟨hdate, _, hbody⟩ := hinjective hid
  rw [h, h', hdate, hbody hsource]

/-- Ops and ERP events are recorded, one and all. -/
theorem mem_insertEvents {events : List BusinessEvent} {event : BusinessEvent}
    (hinjective : sha256.Injective) (hs : WellRecorded sha256 s)
    (h : ∀ event, event ∈ events → Created sha256 event ∧ event.source ≠ .crm) :
    event ∈ (s.insertEvents events).events ↔ event ∈ s.events ∨ event ∈ events := by
  refine ⟨mem_of_mem_insertEvents, fun hmem => ?_⟩
  obtain hmem | hmem := hmem
  · exact events_subset_insertEvents s events hmem
  · obtain ⟨known, hknown, hid⟩ := List.mem_map.mp (eventId_mem_insertEvents (s := s) hmem)
    have hcreated := (hs.insertEvents fun event hmem => (h event hmem).1).created known hknown
    rwa [(h event hmem).1.eq_of_eventId hinjective hcreated (h event hmem).2 hid.symm]

/-! ## Queries -/

theorem mem_eventsThrough {event : BusinessEvent} :
    event ∈ s.eventsThrough d source ↔
      event ∈ s.events ∧ event.businessDate ≤ d ∧ event.source = source := by
  rw [eventsThrough, List.mem_insertionSort]
  simp

theorem mem_eventsFor {event : BusinessEvent} :
    event ∈ s.eventsFor d source ↔
      event ∈ s.events ∧ event.businessDate = d ∧ event.source = source := by
  rw [eventsFor, List.mem_insertionSort]
  simp

/-- Sorting by distinct ids depends on the members only. -/
theorem sortedById_eq {events events' : List BusinessEvent}
    (hnodup : (events.map SimulationEvent.eventId).Nodup)
    (hnodup' : (events'.map SimulationEvent.eventId).Nodup)
    (h : ∀ event, event ∈ events ↔ event ∈ events') :
    sortedById events = sortedById events' := by
  have hperm : events.Perm events' :=
    (List.perm_ext_iff_of_nodup hnodup.of_map hnodup'.of_map).mpr h
  have hsorted : (sortedById events).Perm (sortedById events') :=
    (List.perm_insertionSort _ _).trans (hperm.trans (List.perm_insertionSort _ _).symm)
  refine hsorted.eq_of_pairwise ?_ (List.pairwise_insertionSort _ _)
    (List.pairwise_insertionSort _ _)
  intro event event' hmem hmem' hle hle'
  replace hmem := mem_sortedById.mp hmem
  replace hmem' := mem_sortedById.mp hmem'
  exact List.inj_on_of_nodup_map hnodup hmem ((h event').mpr hmem') (le_antisymm hle hle')

theorem WellRecorded.nodup_filter (hs : WellRecorded sha256 s) (p : BusinessEvent → Bool) :
    ((s.events.filter p).map SimulationEvent.eventId).Nodup :=
  hs.nodup.sublist (List.filter_sublist.map _)

theorem WellRecorded.nodup_eventsThrough (hs : WellRecorded sha256 s) :
    ((s.eventsThrough d source).map SimulationEvent.eventId).Nodup := by
  refine (List.Perm.nodup_iff ((List.perm_insertionSort _ _).map _)).mpr ?_
  exact hs.nodup_filter _

end Events

end Simulator
end Northwind
