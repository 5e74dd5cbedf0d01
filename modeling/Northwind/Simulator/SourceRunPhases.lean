import Northwind.Simulator.ErpApplied
import Northwind.Simulator.OpsApplied
import Northwind.Simulator.RecordedEvents

/-!
# What the phases of the source runs do

A claim and a mark change rows of the control store.  Every other phase records
a planned list, or applies a list in one transaction.  Each has one lemma that
says which stores it passes through, which one it ends in and what an error
leaves behind; the rest of the development runs the three source runs by them.
-/

namespace Northwind
namespace Simulator

open CrashPrograms CrashPrograms.Program SimulationState SimulationStateStore

/-! ## Control rows -/

section Control

variable {β : Type} {s : SimulationState β}

/-- No source is applied that was not. -/
def NoneApplied (s t : SimulationState β) : Prop :=
  ∀ d source, t.SourceApplied d source → s.SourceApplied d source

/-- A date with a source-run row has a run row. -/
def Rowed (s : SimulationState β) : Prop :=
  ∀ d source, (s.sourceRuns d source).isSome → (s.runs d).isSome

theorem sourceApplied_setSourceRun
    {d d' : Nat} {source source' : SourceSystem} {row : SourceRun}
    (h : (s.setSourceRun d source row).SourceApplied d' source') :
    s.SourceApplied d' source' ∨ (d' = d ∧ source' = source ∧ row.state = .applied) := by
  by_cases hkey : d' = d ∧ source' = source
  · obtain ⟨rfl, rfl⟩ := hkey
    obtain ⟨run, hrun, hstate⟩ := h
    rw [setSourceRun_sourceRuns_self] at hrun
    exact .inr ⟨rfl, rfl, Option.some.inj hrun ▸ hstate⟩
  · refine .inl ?_
    rw [SourceApplied] at h ⊢
    by_cases hdate : d' = d
    · subst hdate
      rwa [setSourceRun_sourceRuns_of_ne (fun hsource => hkey ⟨rfl, hsource⟩)] at h
    · have hsame := (sameOutside_setSourceRun s d source row).sourceRuns d' hdate
      rwa [hsame] at h

theorem rowed_setSourceRun
    {d : Nat} {source : SourceSystem} {row : SourceRun} (hs : Rowed s)
    (hrun : (s.runs d).isSome) :
    Rowed (s.setSourceRun d source row) := by
  intro d' source' hrow
  by_cases hdate : d' = d
  · subst hdate
    exact hrun
  · rw [(sameOutside_setSourceRun s d source row).sourceRuns d' hdate] at hrow
    exact hs d' source' hrow

theorem noneApplied_claiming (hs : Rowed s) (d : Nat) (breach : Bool) (k : Nat) :
    NoneApplied s (s.claiming d breach k) ∧ Rowed (s.claiming d breach k) := by
  have houtside := sameOutside_claiming s d breach k
  refine ⟨fun d' source happlied => ?_, fun d' source hsome => ?_⟩
  · by_cases hdate : d' = d
    · subst hdate
      obtain ⟨run, hsome, hstate⟩ := happlied
      rw [claiming_sourceRuns] at hsome
      split at hsome
      · cases hsome
        cases hstate
      · exact ⟨run, hsome, hstate⟩
    · rwa [SourceApplied, houtside.sourceRuns d' hdate] at happlied
  · by_cases hdate : d' = d
    · subst hdate
      rw [claiming_runs]
      rfl
    · rw [houtside.sourceRuns d' hdate] at hsome
      rw [houtside.runs d' hdate]
      exact hs d' source hsome

/-- A claim applies no source and meets no key in use. -/
theorem claimRun_noneApplied
    (breach : Nat → Int → Bool) (d : Nat) (seed : Int) (hs : Rowed s) :
    (claimRun breach d seed).Meets (fun t => NoneApplied s t ∧ Rowed t)
      (fun _ t => NoneApplied s t ∧ Rowed t)
      (fun e t => (NoneApplied s t ∧ Rowed t) ∧ e ≠ .duplicateKey) s := by
  have hrefl : NoneApplied s s ∧ Rowed s := ⟨fun _ _ h => h, hs⟩
  cases hw : s.lastCompleted with
  | none =>
      rw [claimRun, meets_bind, meets_fetchWatermark]
      exact ⟨fun w hw' => absurd (hw.symm.trans hw') (Option.some_ne_none w).symm,
        fun _ => ⟨hrefl, by decide⟩⟩
  | some w =>
      by_cases hlater : w + 1 < d
      · exact meets_claimRun_of_later hw hlater ⟨hrefl, by decide⟩
      cases hrow : s.runState d with
      | some state =>
          exact meets_claimRun_of_runState hw (by omega) hrow (fun _ => hrefl) (fun _ => hrefl)
      | none =>
          have hrun : s.runs d = none := Option.map_eq_none_iff.mp hrow
          have hunclaimed : s.Unclaimed d := by
            refine ⟨hrun, fun source => Option.not_isSome_iff_eq_none.mp fun hsome => ?_⟩
            have hrowed := hs d source hsome
            rw [hrun] at hrowed
            cases hrowed
          have hclaim := claimRun_of_unclaimed breach seed hw (by omega) hunclaimed
          have hclaiming := noneApplied_claiming hs d (breach d seed)
          refine ⟨fun t ht => ?_, ?_⟩
          · rw [hclaim] at ht
            simp only [List.mem_cons, List.not_mem_nil, or_false] at ht
            obtain rfl | rfl | rfl | rfl := ht
            · exact hrefl
            · exact hclaiming 0
            · exact hclaiming 1
            · exact hclaiming 2
          · rw [hclaim]
            exact hclaiming 3

end Control

/-! ## The three stores -/

def RunError.isDoubling : RunError → Bool
  | .control error => error = .duplicateKey
  | .ops error => error.isDoubling
  | .erp error => error.isDoubling

/-- `record_events` -/
def Stores.record (s : Stores) (events : List BusinessEvent) : Stores :=
  { s with control := s.control.insertEvents events }

/-- Control rows differ, and only the listed sources of the date are applied anew. -/
structure Moved (d : Nat) (applied : List SourceSystem) (s t : Stores) : Prop where
  ops : t.ops = s.ops
  erp : t.erp = s.erp
  events : t.control.events = s.control.events
  lastCompleted : t.control.lastCompleted = s.control.lastCompleted
  applied : ∀ d' source, t.control.SourceApplied d' source →
    s.control.SourceApplied d' source ∨ (d' = d ∧ source ∈ applied)
  rowed : Rowed s.control → Rowed t.control

theorem Moved.refl (d : Nat) (applied : List SourceSystem) (s : Stores) :
    Moved d applied s s :=
  ⟨rfl, rfl, rfl, rfl, fun _ _ h => .inl h, fun h => h⟩

section Phases

variable {s : Stores} {d : Nat} {source : SourceSystem}

theorem claim_spec (breach : Nat → Int → Bool) (d : Nat) (seed : Int)
    (hs : Rowed s.control) :
    (inControl (claimRun breach d seed)).Meets (Moved d [] s) (fun _ => Moved d [] s)
      (fun e t => Moved d [] s t ∧ e.isDoubling = false) s := by
  have hmoved : ∀ t : SimulationState EventBody, SameOutside d s.control t →
      (NoneApplied s.control t ∧ Rowed t) → Moved d [] s { s with control := t } :=
    fun t houtside hrows => ⟨rfl, rfl, houtside.events, houtside.lastCompleted,
      fun d' source h => .inl (hrows.1 d' source h), fun _ => hrows.2⟩
  rw [inControl, meets_onPart]
  refine ((claimRun_sameOutside breach d seed).and (claimRun_noneApplied breach d seed hs)).mono
    ?_ ?_ ?_
  · exact fun t h => hmoved t h.1 h.2
  · exact fun _ t h => hmoved t h.1 h.2
  · exact fun e t h => ⟨hmoved t h.1 h.2.1, by simpa [RunError.isDoubling] using h.2.2⟩

theorem sourceRunState_spec (s : Stores) (d : Nat) (source : SourceSystem) :
    (inControl (sourceRunState d source)).Meets (fun t => t = s)
      (fun state t => t = s ∧ (state = .applied → s.control.SourceApplied d source))
      (fun e t => t = s ∧ e.isDoubling = false) s := by
  rw [inControl, meets_onPart, sourceRunState, meets_bind, meets_read]
  cases hrow : s.control.sourceRuns d source with
  | none => exact (meets_raise _).mpr ⟨rfl, rfl⟩
  | some run => exact (meets_pure _).mpr ⟨rfl, fun hstate => ⟨run, hrow, hstate⟩⟩

theorem mark_spec (s : Stores) (d : Nat) (source : SourceSystem) (generated applied : Int) :
    (inControl (markSourceApplied d source generated applied)).Meets (fun t => t = s)
      (fun _ => Moved d [source] s) (fun e t => t = s ∧ e.isDoubling = false) s := by
  rw [inControl, meets_onPart]
  simp only [markSourceApplied, applySource, meets_ite, meets_raise, meets_bind, meets_read,
    meets_write]
  refine ⟨fun _ => ⟨trivial, rfl⟩, fun _ => ⟨fun _ => ⟨trivial, rfl⟩,
    fun hrow => ⟨fun _ => ⟨trivial, rfl⟩, fun _ => ⟨trivial, ?_⟩⟩⟩⟩
  refine ⟨rfl, rfl, rfl, rfl, fun d' source' h => ?_, fun hs => ?_⟩
  · exact (sourceApplied_setSourceRun h).imp_right fun h => ⟨h.1, by simp [h.2.1]⟩
  · exact rowed_setSourceRun hs (hs d source (Option.isSome_iff_ne_none.mpr hrow))

theorem recordedOr_stores_spec (s : Stores) (known plan : List BusinessEvent) :
    (inControl (recordedOr known plan)).Meets
      (fun t => known = [] ∧ ∃ k, t = s.record (plan.take k))
      (fun events t => (known ≠ [] ∧ events = known ∧ t = s) ∨
        (known = [] ∧ events = plan ∧ t = s.record plan))
      (fun e t => e.isDoubling = false ∧ known = [] ∧ ∃ k, t = s.record (plan.take k)) s := by
  rw [inControl, meets_onPart]
  refine (recordedOr_spec s.control known plan).mono ?_ ?_ ?_
  · rintro _ ⟨hknown, k, rfl⟩
    exact ⟨hknown, k, rfl⟩
  · rintro events _ (⟨hknown, hevents, rfl⟩ | ⟨hknown, hevents, rfl⟩)
    · exact .inl ⟨hknown, hevents, rfl⟩
    · exact .inr ⟨hknown, hevents, rfl⟩
  · rintro _ _ ⟨rfl, hknown, ⟨k, rfl⟩, _⟩
    exact ⟨rfl, hknown, k, rfl⟩

theorem record_spec (s : Stores) (events : List BusinessEvent) :
    (inControl (recordEvents events)).Meets (fun t => ∃ k, t = s.record (events.take k))
      (fun _ t => t = s.record events)
      (fun e t => e.isDoubling = false ∧ ∃ k, t = s.record (events.take k)) s := by
  rw [inControl, meets_onPart]
  refine (recordEvents_spec s.control events).mono ?_ ?_ ?_
  · rintro _ ⟨k, rfl⟩
    exact ⟨k, rfl⟩
  · rintro _ _ rfl
    rfl
  · rintro _ _ ⟨rfl, ⟨k, rfl⟩, _⟩
    exact ⟨rfl, k, rfl⟩

/-- The completed day `d`. -/
def Stores.complete (s : Stores) (d : Nat) : Stores :=
  { s with
    control := { s.control.updateRunState d .completed with lastCompleted := some d } }

theorem complete_spec (s : Stores) (d : Nat) :
    (inControl (completeRun d)).Meets (Moved d [] s)
      (fun _ t => t = s.complete d ∧ ∃ w, s.control.lastCompleted = some w ∧ d = w + 1)
      (fun e t => t = s ∧ e.isDoubling = false) s := by
  have hmoved : Moved d [] s { s with control := s.control.updateRunState d .completed } := by
    refine ⟨rfl, rfl, rfl, rfl, fun _ _ h => .inl h, fun hs d' source hrow => ?_⟩
    have hrun := hs d' source hrow
    by_cases hdate : d' = d
    · subst hdate
      simpa [updateRunState] using hrun
    · simpa [updateRunState, hdate] using hrun
  rw [inControl, meets_onPart, completeRun, meets_bind, meets_fetchWatermark]
  refine ⟨fun w hw => ?_, fun _ => ⟨rfl, rfl⟩⟩
  simp only [meets_ite, meets_raise, meets_bind, meets_read, meets_write]
  refine ⟨fun _ => ⟨trivial, rfl⟩, fun hd => ⟨fun _ => ⟨trivial, rfl⟩, fun _ => ?_⟩⟩
  exact ⟨Moved.refl d [] s, hmoved, rfl, w, hw, not_not.mp hd⟩

end Phases

end Simulator
end Northwind
