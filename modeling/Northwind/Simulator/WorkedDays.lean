import Northwind.Simulator.OrderToCash

/-!
# Days that are worked off

A day that is completed went through Operations in one attempt: its fulfillment
was planned from one store, its support cases from the next, and all of them were
applied.  The moves do not tell that these stores were sound, so the program is
followed once more, up to the transaction and from there to its end.

What is due on a day can then be compared with what was planned on it.
-/

namespace Northwind
namespace Simulator

open CrashPrograms CrashPrograms.Program SimulationState SimulationStateStore OpsEventApplier

variable {policy : SimulationPolicy} {sha256 : Sha256} {crmPlan : Nat → List CrmChange}
variable {w : Nat} {s t : Stores} {seed : Int} {event : BusinessEvent}

/-! ## Events that are recorded first -/

theorem sublist_insertEvents (s : SimulationState EventBody) (events : List BusinessEvent) :
    s.events.Sublist (s.insertEvents events).events := by
  induction events generalizing s with
  | nil => exact List.Sublist.refl _
  | cons event events ih =>
      refine List.Sublist.trans ?_ (ih (s.insertEvent event))
      rw [insertEvent]
      split
      · exact List.Sublist.refl _
      · exact List.sublist_append_left _ _

theorem WellRecorded.of_insertEvents {s : SimulationState EventBody}
    {events : List BusinessEvent} (h : WellRecorded sha256 (s.insertEvents events)) :
    WellRecorded sha256 s where
  created event hmem := h.created event (events_subset_insertEvents s events hmem)
  nodup := h.nodup.sublist ((sublist_insertEvents s events).map SimulationEvent.eventId)

/-! ## The work of a day -/

/-- Operations has worked off the day after `w`: fulfillment was planned from `p`, the
support cases from `q`, and what `r` had recorded of them was applied. -/
structure Work (policy : SimulationPolicy) (sha256 : Sha256) (w : Nat) (p q r s : Stores) :
    Prop where
  fulfillment : q = p.record (OpsRun.planFulfillment policy sha256 (w + 1) p)
  cases : r = q.record (OpsRun.planSupportCases sha256 (w + 1) q)
  journal : Journal sha256 w r
  committed : OpsCommits (recordedFulfillment (w + 1) r) r.ops s.ops
  same : ∀ event, event.source ≠ .erp →
    (event ∈ s.control.events ↔ event ∈ r.control.events)

def WorkedOff (policy : SimulationPolicy) (sha256 : Sha256) (w : Nat) (s : Stores) : Prop :=
  ∃ p q r, Work policy sha256 w p q r s

namespace Work

variable {p q r : Stores}

theorem recordedCases (h : Work policy sha256 w p q r s) : WellRecorded sha256 q.control := by
  have hrecorded := h.journal.recorded
  rw [h.cases] at hrecorded
  exact hrecorded.of_insertEvents

theorem recordedFulfillment (h : Work policy sha256 w p q r s) :
    WellRecorded sha256 p.control := by
  have hrecorded := h.recordedCases
  rw [h.fulfillment] at hrecorded
  exact hrecorded.of_insertEvents

theorem mem_cases (h : Work policy sha256 w p q r s) (hinjective : sha256.Injective) :
    event ∈ r.control.events ↔
      event ∈ q.control.events ∨ event ∈ OpsRun.planSupportCases sha256 (w + 1) q := by
  rw [h.cases]
  refine mem_insertEvents hinjective h.recordedCases fun event hmem => ?_
  have hplanned := (planned_planSupportCases hmem).1
  exact ⟨hplanned.created, by simp [hplanned.source]⟩

theorem mem_fulfillment (h : Work policy sha256 w p q r s) (hinjective : sha256.Injective) :
    event ∈ q.control.events ↔
      event ∈ p.control.events ∨ event ∈ OpsRun.planFulfillment policy sha256 (w + 1) p := by
  rw [h.fulfillment]
  refine mem_insertEvents hinjective h.recordedFulfillment fun event hmem => ?_
  have hplanned := (planned_planFulfillment hmem).1
  exact ⟨hplanned.created, by simp [hplanned.source]⟩

theorem ops_planned (h : Work policy sha256 w p q r s) : r.ops = p.ops := by
  have hcases := congrArg Stores.ops h.cases
  have hfulfillment := congrArg Stores.ops h.fulfillment
  exact hcases.trans hfulfillment

end Work

/-! ## What the phases leave alone -/

/-- The Ops database, the watermark and all events but postings are as they were. -/
structure Aside (s t : Stores) : Prop where
  ops : t.ops = s.ops
  lastCompleted : t.control.lastCompleted = s.control.lastCompleted
  events : ∀ event, event.source ≠ .erp →
    (event ∈ t.control.events ↔ event ∈ s.control.events)

theorem Aside.refl (s : Stores) : Aside s s :=
  ⟨rfl, rfl, fun _ _ => Iff.rfl⟩

theorem Aside.trans {u : Stores} (h : Aside s t) (h' : Aside t u) : Aside s u :=
  ⟨h'.ops.trans h.ops, h'.lastCompleted.trans h.lastCompleted,
    fun event hsource => (h'.events event hsource).trans (h.events event hsource)⟩

theorem Moved.aside {d : Nat} {applied : List SourceSystem} (h : Moved d applied s t) :
    Aside s t :=
  ⟨h.ops, h.lastCompleted, fun event _ => by rw [h.events]⟩

theorem aside_record {events : List BusinessEvent}
    (h : ∀ event, event ∈ events → event.source = .erp) : Aside s (s.record events) where
  ops := rfl
  lastCompleted := (insertEvents_sameControl s.control events).lastCompleted
  events event hsource := by
    refine ⟨fun hmem => ?_, fun hmem => events_subset_insertEvents _ _ hmem⟩
    exact (mem_of_mem_insertEvents hmem).resolve_right fun hnew => hsource (h event hnew)

theorem WorkedOff.aside (hs : WorkedOff policy sha256 w s) (h : Aside s t) :
    WorkedOff policy sha256 w t := by
  obtain ⟨p, q, r, hwork⟩ := hs
  refine ⟨p, q, r, hwork.fulfillment, hwork.cases, hwork.journal, ?_, fun event hsource => ?_⟩
  · rw [h.ops]
    exact hwork.committed
  · exact (h.events event hsource).trans (hwork.same event hsource)

/-- The program writes aside of what an attempt knows. -/
def WritesAside {α : Type} (p : RunProgram α) : Prop :=
  ∀ s, p.Meets (Aside s) (fun _ => Aside s) (fun _ => Aside s) s

theorem WritesAside.keeps {α : Type} {p : RunProgram α} {P : Stores → Prop}
    (h : WritesAside p) (hP : ∀ s t, P s → Aside s t → P t) : p.Keeps P :=
  fun s hs => (h s).mono (fun t ht => hP s t hs ht) (fun _ t ht => hP s t hs ht)
    (fun _ t ht => hP s t hs ht)

theorem WritesAside.bind {α β : Type} {p : RunProgram α} {f : α → RunProgram β}
    (hp : WritesAside p) (hf : ∀ a, WritesAside (f a)) : WritesAside (p >>= f) := by
  intro s
  refine Program.Meets.bind (hp s) fun a t ht => ?_
  exact (hf a t).mono (fun _ h => ht.trans h) (fun _ _ h => ht.trans h) (fun _ _ h => ht.trans h)

theorem writesAside_ite {α : Type} {c : Prop} [Decidable c] {p q : RunProgram α}
    (hp : WritesAside p) (hq : WritesAside q) : WritesAside (if c then p else q) :=
  fun s => (meets_ite p q).mpr ⟨fun _ => hp s, fun _ => hq s⟩

theorem writesAside_pure {α : Type} (a : α) : WritesAside (pure a) :=
  fun s => (meets_pure a).mpr (Aside.refl s)

theorem writesAside_raise {α : Type} (e : RunError) : WritesAside (raise e : RunProgram α) :=
  fun s => (meets_raise e).mpr (Aside.refl s)

theorem writesAside_read : WritesAside (read : RunProgram Stores) :=
  fun s => meets_read.mpr (Aside.refl s)

theorem claimRun_aside (breach : Nat → Int → Bool) (d : Nat) :
    WritesAside (inControl (claimRun breach d seed)) := by
  intro s
  rw [inControl, meets_onPart]
  have haside : ∀ t, SameOutside d s.control t → Aside s { s with control := t } :=
    fun t h => ⟨rfl, h.lastCompleted, fun event _ => by rw [h.events]⟩
  exact (claimRun_sameOutside breach d seed).mono haside (fun _ => haside) (fun _ => haside)

theorem sourceRunState_aside (d : Nat) (source : SourceSystem) :
    WritesAside (inControl (sourceRunState d source)) := by
  refine fun s => (sourceRunState_spec s d source).mono ?_ ?_ ?_
  · rintro _ rfl
    exact Aside.refl _
  · rintro _ _ ⟨rfl, _⟩
    exact Aside.refl _
  · rintro _ _ ⟨rfl, _⟩
    exact Aside.refl _

theorem mark_aside (d : Nat) (source : SourceSystem) (generated applied : Int) :
    WritesAside (inControl (markSourceApplied d source generated applied)) := by
  refine fun s => (mark_spec s d source generated applied).mono ?_ ?_ ?_
  · rintro _ rfl
    exact Aside.refl _
  · exact fun _ _ h => h.aside
  · rintro _ _ ⟨rfl, _⟩
    exact Aside.refl _

theorem erpApply_aside (events : List BusinessEvent) :
    WritesAside (inErp (ErpEventApplier.apply events)) := by
  refine fun s => (erpApply_commits s events).mono ?_ ?_ ?_
  · rintro _ rfl
    exact Aside.refl _
  · rintro _ _ ⟨db, rfl, _⟩
    exact ⟨rfl, rfl, fun _ _ => Iff.rfl⟩
  · rintro _ _ ⟨rfl, _⟩
    exact Aside.refl _

theorem recordPostings_aside (d : Nat) :
    WritesAside (ErpRun.recordPostings policy sha256 d seed) := by
  rw [ErpRun.recordPostings]
  refine writesAside_read.bind fun stores => writesAside_ite ?_ (writesAside_pure _)
  rw [ErpRun.planAndRecord]
  refine writesAside_ite (writesAside_raise _) ?_
  rw [ErpRun.recordPlan]
  refine WritesAside.bind (fun s => ?_) fun _ => writesAside_pure _
  have haside : ∀ k, Aside s
      (s.record ((ErpRun.planPostings policy sha256 d seed stores).take k)) := fun k =>
    aside_record fun event hmem => (planned_planPostings (List.mem_of_mem_take hmem)).source
  refine (record_spec s _).mono ?_ ?_ ?_
  · rintro _ ⟨k, rfl⟩
    exact haside k
  · rintro _ _ rfl
    rw [take_length_eq]
    exact haside _
  · rintro _ _ ⟨_, k, rfl⟩
    exact haside k

/-! ## Before the transaction -/

/-- The days up to `w` are completed and no more. -/
def Open (w : Nat) (s : Stores) : Prop :=
  s.control.lastCompleted = some w

theorem Open.aside (hs : Open w s) (h : Aside s t) : Open w t :=
  h.lastCompleted.trans hs

theorem Open.record (hs : Open w s) (events : List BusinessEvent) :
    Open w (s.record events) :=
  (insertEvents_sameControl s.control events).lastCompleted.trans hs

theorem recordedOr_open (known plan : List BusinessEvent) :
    (inControl (recordedOr known plan)).Keeps (Open w) := by
  refine fun s hs => (recordedOr_stores_spec s known plan).mono ?_ ?_ ?_
  · rintro _ ⟨_, k, rfl⟩
    exact hs.record _
  · rintro _ _ (⟨_, _, rfl⟩ | ⟨_, _, rfl⟩)
    · exact hs
    · exact hs.record _
  · rintro _ _ ⟨_, _, k, rfl⟩
    exact hs.record _

theorem recordEvents_open (events : List BusinessEvent) :
    (inControl (recordEvents events)).Keeps (Open w) := by
  refine fun s hs => (record_spec s events).mono ?_ ?_ ?_
  · rintro _ ⟨k, rfl⟩
    exact hs.record _
  · rintro _ _ rfl
    exact hs.record _
  · rintro _ _ ⟨_, k, rfl⟩
    exact hs.record _

theorem opsApply_open (events : List BusinessEvent) :
    (inOps (OpsEventApplier.apply events)).Keeps (Open w) := by
  refine fun s hs => (opsApply_commits s events).mono ?_ ?_ ?_
  · rintro _ rfl
    exact hs
  · rintro _ _ ⟨db, rfl, _⟩
    exact hs
  · rintro _ _ ⟨rfl, _⟩
    exact hs

theorem crmRun_open (d : Nat) : (CrmRun.run policy sha256 crmPlan d seed).Keeps (Open w) := by
  have haside : ∀ s t, Open w s → Aside s t → Open w t := fun _ _ hs h => hs.aside h
  rw [CrmRun.run]
  refine ((claimRun_aside _ _).keeps haside).bind fun _ => ?_
  refine (writesAside_read.keeps haside).bind fun stores => ?_
  refine (recordedOr_open _ _).bind fun events => ?_
  exact (mark_aside _ _ _ _).keeps haside

theorem opsRun_open (d : Nat) : (OpsRun.run policy sha256 d seed).Keeps (Open w) := by
  have haside : ∀ s t, Open w s → Aside s t → Open w t := fun _ _ hs h => hs.aside h
  have hread : (read : RunProgram Stores).Keeps (Open w) := writesAside_read.keeps haside
  rw [OpsRun.run]
  refine ((claimRun_aside _ _).keeps haside).bind fun _ => ?_
  refine ((sourceRunState_aside _ _).keeps haside).bind fun crm => keeps_ite (keeps_raise _) ?_
  rw [OpsRun.work, OpsRun.recordOrders, OpsRun.recordFulfillment, OpsRun.applyFulfillment]
  refine (hread.bind fun stores => recordedOr_open _ _).bind fun events => ?_
  refine (opsApply_open events).bind fun orders => ?_
  refine (hread.bind fun stores => (recordEvents_open _).bind fun _ =>
    hread.bind fun stores' => recordEvents_open _).bind fun _ => ?_
  refine (hread.bind fun stores => opsApply_open _).bind fun fulfillment => ?_
  exact hread.bind fun stores => (mark_aside _ _ _ _).keeps haside

/-! ## The transaction -/

theorem AfterRecording.work {db : OpsDatabase} (hs : AfterRecording policy sha256 crmPlan w s)
    (h : OpsCommits (recordedFulfillment (w + 1) s) s.ops db) :
    WorkedOff policy sha256 w { s with ops := db } := by
  obtain ⟨q, ⟨p, hdone, hq⟩, hcases⟩ := hs.recorded
  exact ⟨p, q, s, hq, hcases, hs.journal, h, fun _ _ => Iff.rfl⟩

theorem applyFulfillment_works :
    Makes policy sha256 crmPlan w (AfterRecording policy sha256 crmPlan w)
      (OpsRun.applyFulfillment (w + 1))
      (fun _ s => AfterOps policy sha256 crmPlan w s ∧ WorkedOff policy sha256 w s) := by
  rw [OpsRun.applyFulfillment]
  refine (bySteps_read (L := fun stores s => s = stores ∧ AfterRecording policy sha256 crmPlan w s)
    (fun s hs => ⟨rfl, hs⟩)).bind fun stores => ?_
  rintro s ⟨rfl, hs⟩
  have hmakes : Makes policy sha256 crmPlan w (AfterRecording policy sha256 crmPlan w)
      (OpsRun.applyFulfillment (w + 1)) (fun _ => AfterOps policy sha256 crmPlan w) :=
    applyFulfillment_makes
  have hmeets := hmakes s hs
  rw [OpsRun.applyFulfillment, meets_bind, meets_read] at hmeets
  refine (hmeets.and (opsApply_commits s (recordedFulfillment (w + 1) s))).mono
    (fun _ h => h.1) ?_ (fun _ _ h => h.1)
  rintro _ _ ⟨⟨hmoves, hafter⟩, db, rfl, hcommits⟩
  exact ⟨hmoves, hafter, hs.work hcommits⟩

theorem opsRun_works (hinjective : sha256.Injective) :
    Makes policy sha256 crmPlan w (AfterCrm sha256 crmPlan w)
      (OpsRun.run policy sha256 (w + 1) seed) (fun _ => WorkedOff policy sha256 w) := by
  rw [OpsRun.run]
  refine (claim_makes (fun _ h => h.journal) (fun _ _ h hmoved => ⟨h.journal.moved hmoved,
    h.crm.congr (eventsFor_moved hmoved _ _)⟩)).bind fun _ => ?_
  refine (sourceRunState_makes .crm).bind fun crm => bySteps_ite (fun _ => bySteps_raise fun s _ =>
    explained_of_not_doubling rfl) fun _ => ?_
  rw [OpsRun.work]
  refine (recordOrders_makes hinjective).bind fun events => ?_
  refine (applyOrders_makes events).bind fun orders => ?_
  refine recordFulfillment_makes.bind fun _ => ?_
  refine applyFulfillment_works.bind fun fulfillment => ?_
  refine (bySteps_read (L := fun _ s => AfterOps policy sha256 crmPlan w s ∧
    WorkedOff policy sha256 w s) (fun s hs => hs)).bind fun stores => ?_
  rintro s ⟨hs, hworked⟩
  refine (mark_spec s (w + 1) .ops _ _).mono ?_ ?_ ?_
  · rintro _ rfl
    exact Relation.ReflTransGen.refl
  · intro _ t hmoved
    exact ⟨Relation.ReflTransGen.single (.opsApplied hs.journal hs.done hmoved),
      hworked.aside hmoved.aside⟩
  · rintro e _ ⟨rfl, hdoubling⟩
    exact ⟨Relation.ReflTransGen.refl, explained_of_not_doubling hdoubling⟩

/-! ## Behind the transaction -/

theorem completeRun_worked (d : Nat) :
    (inControl (completeRun d)).Keeps (WorkedOff policy sha256 w) := by
  refine fun s hs => (complete_spec s d).mono ?_ ?_ ?_
  · exact fun _ h => hs.aside h.aside
  · rintro _ _ ⟨rfl, _⟩
    obtain ⟨p, q, r, hwork⟩ := hs
    exact ⟨p, q, r, hwork.fulfillment, hwork.cases, hwork.journal, hwork.committed, hwork.same⟩
  · rintro _ _ ⟨rfl, _⟩
    exact hs

theorem erpRun_worked (d : Nat) :
    (ErpRun.run policy sha256 d seed).Keeps (WorkedOff policy sha256 w) := by
  have haside : ∀ s t, WorkedOff policy sha256 w s → Aside s t → WorkedOff policy sha256 w t :=
    fun _ _ hs h => hs.aside h
  rw [ErpRun.run]
  refine ((claimRun_aside _ _).keeps haside).bind fun _ => ?_
  refine ((sourceRunState_aside _ _).keeps haside).bind fun ops => keeps_ite (keeps_raise _) ?_
  rw [ErpRun.work]
  refine ((recordPostings_aside _).keeps haside).bind fun events => ?_
  refine ((erpApply_aside events).keeps haside).bind fun applied => ?_
  exact ((mark_aside _ _ _ _).keeps haside).bind fun _ => completeRun_worked d

theorem lastCompletedDate_aside : WritesAside (inControl lastCompletedDate) := by
  intro s
  rw [inControl, meets_onPart, lastCompletedDate, meets_bind, meets_read]
  cases s.control.lastCompleted with
  | none => exact (meets_raise _).mpr (Aside.refl s)
  | some last => exact (meets_pure _).mpr (Aside.refl s)

/-- An attempt leaves the day open, or has worked it off. -/
theorem open_or_workedOff (hinjective : sha256.Injective) (hs : Journal sha256 w s)
    (h : DailySimulationRunner.Attempt policy sha256 crmPlan seed s t) :
    Open w t ∨ WorkedOff policy sha256 w t := by
  obtain ⟨w', hw, hleaves⟩ := h
  obtain rfl := Option.some.inj (hs.lastCompleted.symm.trans hw)
  refine Program.Meets.leaves (I := fun t => Open w t ∨ WorkedOff policy sha256 w t) ?_ hleaves
  rw [DailySimulationRunner.run]
  refine Program.Meets.bind (((crmRun_makes hinjective s hs).and
    (crmRun_open (w + 1) s hs.lastCompleted)).mono (fun _ h => .inl h.2) (fun _ _ h => h)
      (fun _ _ h => .inl h.2)) ?_
  rintro _ u ⟨⟨_, hcrm⟩, hopen⟩
  refine Program.Meets.bind (((opsRun_works hinjective u hcrm).and
    (opsRun_open (w + 1) u hopen)).mono (fun _ h => .inl h.2) (fun _ _ h => h.1.2)
      (fun _ _ h => .inl h.2)) ?_
  intro _ v hworked
  have haside : ∀ s t, WorkedOff policy sha256 w s → Aside s t → WorkedOff policy sha256 w t :=
    fun _ _ hs h => hs.aside h
  refine Program.Meets.mono (I := WorkedOff policy sha256 w)
    (Q := fun _ => WorkedOff policy sha256 w) (E := fun _ => WorkedOff policy sha256 w) ?_
    (fun _ h => .inr h) (fun _ _ h => .inr h) (fun _ _ h => .inr h)
  refine ((erpRun_worked (w + 1)).bind fun _ => ?_) v hworked
  exact (lastCompletedDate_aside.keeps haside).bind fun last =>
    keeps_ite (keeps_raise _) (keeps_pure _)

/-! ## Days over runs -/

/-- What is done by a watermark, and what holds of the dates of the events.  A move keeps
what is done by the days before; the work of a day does what is due on it. -/
structure DayByDay (policy : SimulationPolicy) (sha256 : Sha256)
    (crmPlan : Nat → List CrmChange) (Inv Done : Nat → Stores → Prop)
    (Dated : Stores → Prop) : Prop where
  invariant : Invariant policy sha256 crmPlan Inv
  kept : ∀ w s t, Inv w s → Done w s → Move policy sha256 crmPlan w s t → Done w t
  worked : ∀ w t, Inv (w + 1) t → Journal sha256 (w + 1) t → WorkedOff policy sha256 w t →
    Done (w + 1) t
  dated : ∀ w s t, Inv w s → Done w s → Dated s → Move policy sha256 crmPlan w s t → Dated t

section DayByDay

variable {Inv Done : Nat → Stores → Prop} {Dated : Stores → Prop} {start : Stores}

/-- The moves of an attempt end in the day in progress, or behind it. -/
theorem DayByDay.moves (h : DayByDay policy sha256 crmPlan Inv Done Dated)
    (hs : Journal sha256 w s) (hInv : Inv w s) (hdone : Done w s) (hdated : Dated s)
    (hmoves : Relation.ReflTransGen (Move policy sha256 crmPlan w) s t) :
    ((Journal sha256 w t ∧ Inv w t ∧ Done w t) ∨ (Journal sha256 (w + 1) t ∧ Inv (w + 1) t)) ∧
      Dated t := by
  induction hmoves with
  | refl => exact ⟨.inl ⟨hs, hInv, hdone⟩, hdated⟩
  | @tail u v _ hmove ih =>
      obtain ⟨⟨hu, hInv, hdone⟩ | ⟨hu, _⟩, hdated⟩ := ih
      · refine ⟨?_, h.dated w u v hInv hdone hdated hmove⟩
        obtain hv | ⟨rfl, hv, _, hops, hmarked⟩ := hmove.journal
        · exact .inl ⟨hv, h.invariant.move w u v hInv hmove hv, h.kept w u v hInv hdone hmove⟩
        · exact .inr ⟨hv, h.invariant.complete w u hInv hu hops hmarked⟩
      · -- a completed day has no further moves
        have := hmove.before.lastCompleted.symm.trans hu.lastCompleted
        simp at this

theorem DayByDay.reached (h : DayByDay policy sha256 crmPlan Inv Done Dated)
    (hinjective : sha256.Injective) (hstart : Journal sha256 w start) (hInv : Inv w start)
    (hdone : Done w start) (hdated : Dated start)
    (hreached : Attempts policy sha256 crmPlan start t) :
    ∃ w', Journal sha256 w' t ∧ Inv w' t ∧ Done w' t ∧ Dated t := by
  induction hreached with
  | refl => exact ⟨w, hstart, hInv, hdone, hdated⟩
  | tail _ hattempt ih =>
      obtain ⟨w', hjournal, hInv, hdone, hdated⟩ := ih
      obtain ⟨seed, hattempt⟩ := hattempt
      obtain ⟨⟨hend, hInv, hdone⟩ | ⟨hend, hInv⟩, hdated⟩ := h.moves hjournal hInv hdone hdated
        (moves_of_attempt hinjective hjournal hattempt)
      · exact ⟨w', hend, hInv, hdone, hdated⟩
      · obtain hopen | hworked := open_or_workedOff hinjective hjournal hattempt
        · have := hopen.symm.trans hend.lastCompleted
          simp at this
        · exact ⟨w' + 1, hend, hInv, h.worked w' _ hInv hend hworked, hdated⟩

end DayByDay

/-! ## What a marked event has brought -/

/-- An event that has its marker was recorded before the move. -/
theorem Move.mem_of_marked (h : Move policy sha256 crmPlan w s t)
    (ht : WellRecorded sha256 t.control) (hmem : event ∈ t.control.events)
    (hmarked : event.eventId ∈ t.ops.appliedEvents) : event ∈ s.control.events := by
  have hs := h.before
  obtain ⟨known, hknown, hid⟩ : ∃ known, known ∈ s.control.events ∧
      known.eventId = event.eventId := by
    have hold : event.eventId ∈ s.ops.appliedEvents →
        ∃ known, known ∈ s.control.events ∧ known.eventId = event.eventId := fun hmarked => by
      obtain ⟨known, hknown, _, hid⟩ := hs.opsMarks _ hmarked
      exact ⟨known, hknown, hid⟩
    rcases h.ops with hsame | ⟨events, hday, hcommits⟩
    · exact hold (hsame ▸ hmarked)
    · rcases hcommits.mem_marks.mp hmarked with hmarked | ⟨other, hother, hid⟩
      · exact hold hmarked
      · exact ⟨other, (hday other hother).1, hid⟩
  rwa [ht.eq_of_eventId hmem (h.events.1 hknown) hid.symm]

/-- What every event brings and no other event takes away is there of the marked events. -/
theorem invariant_brought {B : EventBody → OpsDatabase → Prop}
    (hown : ∀ event db db', EffectStep event db db' → B event.body db')
    (hkept : ∀ event db db' body, EffectStep event db db' → B body db → B body db') :
    Invariant policy sha256 crmPlan (fun _ s => ∀ event, event ∈ s.control.events →
      event.eventId ∈ s.ops.appliedEvents → B event.body s.ops) where
  move w s t h hmove ht := by
    intro event hmem hmarked
    have hs := hmove.before
    have hknown := hmove.mem_of_marked ht.recorded hmem hmarked
    rcases hmove.ops with hsame | ⟨events, hday, hcommits⟩
    · rw [hsame] at hmarked ⊢
      exact h event hknown hmarked
    · refine hcommits.effects.1.keeps (P := fun u => ∀ event,
        event ∈ s.control.events → event.eventId ∈ u.appliedEvents → B event.body u) h ?_
        event hknown hmarked
      intro other hother u v hu hstep event hmem hmarked
      rw [hstep.markStep.appliedEvents] at hmarked
      rcases List.mem_append.mp hmarked with hold | hnew
      · exact hkept other u v event.body hstep (hu event hmem hold)
      · obtain rfl := hs.recorded.eq_of_eventId hmem (hday other hother).1
          (List.mem_singleton.mp hnew)
        exact hown event u v hstep
  complete _ _ h _ _ _ := h

theorem invariant_shipmentIds :
    Invariant policy sha256 crmPlan
      (fun _ s => (s.ops.shipments.map ShipmentRow.shipmentId).Nodup) where
  move w s t h hmove _ := by
    rcases hmove.ops with hsame | ⟨events, _, hcommits⟩
    · rwa [hsame]
    · refine hcommits.effects.1.keeps (P := fun u =>
        (u.shipments.map ShipmentRow.shipmentId).Nodup) h ?_
      rintro event _ u v hu ⟨_, applied, _, happlied, _, rfl⟩
      change (applied.shipments.map ShipmentRow.shipmentId).Nodup
      rw [shipments_map_shipmentId] at hu ⊢
      rcases happlied.shipments with hkeys | ⟨shipment, _, hnew, _, hkeys⟩
      · rwa [hkeys]
      · rw [shipments_map_shipmentId] at hnew
        rw [hkeys, List.map_append]
        exact nodup_concat hu hnew
  complete _ _ h _ _ _ := h

end Simulator
end Northwind
