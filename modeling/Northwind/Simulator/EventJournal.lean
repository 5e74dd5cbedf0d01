import Northwind.Simulator.SourceRunPhases

/-!
# The journal of the days before and of the day in progress

Every event of a completed day is recorded and marked; of the day in progress,
some may be recorded and not marked.
-/

namespace Northwind
namespace Simulator

open CrashPrograms CrashPrograms.Program SimulationState SimulationStateStore

/-- The recorded events and the markers, where the days up to `w` are done. -/
structure Journal (sha256 : Sha256) (w : Nat) (s : Stores) : Prop where
  lastCompleted : s.control.lastCompleted = some w
  recorded : WellRecorded sha256 s.control
  dated : ∀ event, event ∈ s.control.events → event.businessDate ≤ w + 1
  opsMarked : ∀ event, event ∈ s.control.events → event.source = .ops →
    event.businessDate ≤ w → event.eventId ∈ s.ops.appliedEvents
  erpMarked : ∀ event, event ∈ s.control.events → event.source = .erp →
    event.businessDate ≤ w → event.eventId ∈ s.erp.appliedEvents
  opsMarks : ∀ id, id ∈ s.ops.appliedEvents →
    ∃ event, event ∈ s.control.events ∧ event.source = .ops ∧ event.eventId = id
  erpMarks : ∀ id, id ∈ s.erp.appliedEvents →
    ∃ event, event ∈ s.control.events ∧ event.source = .erp ∧ event.eventId = id
  rowed : Rowed s.control
  ahead : ∀ d, w + 1 < d → ∀ source, ¬ s.control.SourceApplied d source

/-- The Ops events of a date are all marked. -/
def OpsMarked (d : Nat) (s : Stores) : Prop :=
  ∀ event, event ∈ s.control.events → event.source = .ops → event.businessDate = d →
    event.eventId ∈ s.ops.appliedEvents

def ErpMarked (d : Nat) (s : Stores) : Prop :=
  ∀ event, event ∈ s.control.events → event.source = .erp → event.businessDate = d →
    event.eventId ∈ s.erp.appliedEvents

namespace Journal

variable {sha256 : Sha256} {w : Nat} {s t : Stores}

theorem moved {applied : List SourceSystem} (hs : Journal sha256 w s)
    (h : Moved (w + 1) applied s t) : Journal sha256 w t where
  lastCompleted := h.lastCompleted.trans hs.lastCompleted
  recorded := ⟨by rw [h.events]; exact hs.recorded.created,
    by rw [h.events]; exact hs.recorded.nodup⟩
  dated := by rw [h.events]; exact hs.dated
  opsMarked := by rw [h.events, h.ops]; exact hs.opsMarked
  erpMarked := by rw [h.events, h.erp]; exact hs.erpMarked
  opsMarks := by rw [h.events, h.ops]; exact hs.opsMarks
  erpMarks := by rw [h.events, h.erp]; exact hs.erpMarks
  rowed := h.rowed hs.rowed
  ahead d hd source happlied := by
    obtain hold | ⟨rfl, _⟩ := h.applied d source happlied
    · exact hs.ahead d hd source hold
    · omega

/-- Events of the day in progress are recorded. -/
theorem record {events : List BusinessEvent} (hs : Journal sha256 w s)
    (h : ∀ event, event ∈ events → Created sha256 event ∧ event.businessDate = w + 1) :
    Journal sha256 w (s.record events) := by
  have hcontrol := insertEvents_sameControl s.control events
  have hold : ∀ event, event ∈ (s.record events).control.events → event.businessDate ≤ w →
      event ∈ s.control.events := by
    intro event hmem hdate
    refine (mem_of_mem_insertEvents hmem).resolve_right fun hnew => ?_
    have := (h event hnew).2
    omega
  refine ⟨hcontrol.lastCompleted.trans hs.lastCompleted,
    hs.recorded.insertEvents fun event hmem => (h event hmem).1, fun event hmem => ?_,
    fun event hmem hsource hdate => hs.opsMarked event (hold event hmem hdate) hsource hdate,
    fun event hmem hsource hdate => hs.erpMarked event (hold event hmem hdate) hsource hdate,
    fun id hid => ?_, fun id hid => ?_, ?_, ?_⟩
  · exact (mem_of_mem_insertEvents hmem).elim (hs.dated event) fun hnew => (h event hnew).2.le
  · obtain ⟨event, hmem, hsource, hevent⟩ := hs.opsMarks id hid
    exact ⟨event, events_subset_insertEvents _ _ hmem, hsource, hevent⟩
  · obtain ⟨event, hmem, hsource, hevent⟩ := hs.erpMarks id hid
    exact ⟨event, events_subset_insertEvents _ _ hmem, hsource, hevent⟩
  · intro d source hrow
    change ((s.control.insertEvents events).sourceRuns d source).isSome at hrow
    change ((s.control.insertEvents events).runs d).isSome
    rw [hcontrol.sourceRuns] at hrow
    rw [hcontrol.runs]
    exact hs.rowed d source hrow
  · intro d hd source happlied
    refine hs.ahead d hd source ?_
    change (s.control.insertEvents events).SourceApplied d source at happlied
    rwa [SourceApplied, hcontrol.sourceRuns] at happlied

/-- Recorded Ops events are applied. -/
theorem applyOps {events : List BusinessEvent} {db : OpsDatabase} (hs : Journal sha256 w s)
    (h : ∀ event, event ∈ events → event ∈ s.control.events ∧ event.source = .ops)
    (hby : AppliedBy events s.ops db) :
    Journal sha256 w { s with ops := db } := by
  refine
    { hs with
      opsMarked := fun event hmem hsource hdate =>
        hby.marks_subset (hs.opsMarked event hmem hsource hdate)
      opsMarks := fun id hid => ?_ }
  rcases hby.mem_marks hid with hid | ⟨event, hevent, rfl⟩
  · exact hs.opsMarks id hid
  · exact ⟨event, (h event hevent).1, (h event hevent).2, rfl⟩

/-- Recorded ERP events are applied. -/
theorem applyErp {events : List BusinessEvent} {db : ErpDatabase} (hs : Journal sha256 w s)
    (h : ∀ event, event ∈ events → event ∈ s.control.events ∧ event.source = .erp)
    (hby : ErpAppliedBy events s.erp db) :
    Journal sha256 w { s with erp := db } := by
  refine
    { hs with
      erpMarked := fun event hmem hsource hdate =>
        hby.marks_subset (hs.erpMarked event hmem hsource hdate)
      erpMarks := fun id hid => ?_ }
  rcases hby.mem_marks hid with hid | ⟨event, hevent, rfl⟩
  · exact hs.erpMarks id hid
  · exact ⟨event, (h event hevent).1, (h event hevent).2, rfl⟩

/-- The day is completed. -/
theorem complete (hs : Journal sha256 w s) (hops : OpsMarked (w + 1) s)
    (herp : ErpMarked (w + 1) s) :
    Journal sha256 (w + 1) (s.complete (w + 1)) where
  lastCompleted := rfl
  recorded := ⟨hs.recorded.created, hs.recorded.nodup⟩
  dated event hmem := (hs.dated event hmem).trans (Nat.le_succ _)
  opsMarked event hmem hsource hdate := by
    obtain hdate | hdate := Nat.lt_or_eq_of_le hdate
    · exact hs.opsMarked event hmem hsource (Nat.le_of_lt_succ hdate)
    · exact hops event hmem hsource hdate
  erpMarked event hmem hsource hdate := by
    obtain hdate | hdate := Nat.lt_or_eq_of_le hdate
    · exact hs.erpMarked event hmem hsource (Nat.le_of_lt_succ hdate)
    · exact herp event hmem hsource hdate
  opsMarks := hs.opsMarks
  erpMarks := hs.erpMarks
  rowed d source hrow := by
    have hrun := hs.rowed d source hrow
    change ((s.control.updateRunState (w + 1) .completed).runs d).isSome
    by_cases hdate : d = w + 1
    · subst hdate
      simpa [updateRunState] using hrun
    · simpa [updateRunState, hdate] using hrun
  ahead d hd := hs.ahead d (by omega)

/-- An event that is not recorded has no marker. -/
theorem not_mem_opsMarks {event : BusinessEvent} (hinjective : sha256.Injective)
    (hs : Journal sha256 w s) (hcreated : Created sha256 event) (hsource : event.source = .ops)
    (hnew : event ∉ s.control.events) :
    event.eventId ∉ s.ops.appliedEvents := by
  intro hmarked
  obtain ⟨known, hmem, _, hid⟩ := hs.opsMarks _ hmarked
  refine hnew ?_
  rwa [hcreated.eq_of_eventId hinjective (hs.recorded.created known hmem) (by simp [hsource])
    hid.symm]

end Journal

end Simulator
end Northwind
