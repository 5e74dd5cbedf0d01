import Mathlib.Logic.Relation
import Northwind.Simulator.SimulationState

/-!
# What the completion watermark says

The store's methods are called in any order, with any dates, sources and
events.  As long as the day after the watermark is only completed once it has
been claimed, every date up to the watermark has a completed run with its three
source runs applied.
-/

namespace Northwind
namespace Simulator

open CrashPrograms CrashPrograms.Program SimulationState SimulationStateStore

inductive StateCall (β : Type) where
  | initializeState (baseline : Nat)
  | claimRun (runDate : Nat) (seed : Int)
  | markSourceApplied
      (runDate : Nat) (source : SourceSystem) (recordsGenerated recordsApplied : Int)
  | recordEvents (events : List (SimulationEvent β))
  | completeRun (runDate : Nat)

variable {β : Type} (isWeeklySlaBreachDate : Nat → Int → Bool)

/-- The method a call runs, its result dropped. -/
def StateCall.program : StateCall β → StateProgram β PUnit
  | .initializeState baseline => SimulationStateStore.initializeState baseline
  | .claimRun runDate seed => do
      let _ ← SimulationStateStore.claimRun isWeeklySlaBreachDate runDate seed
      pure ⟨⟩
  | .markSourceApplied runDate source recordsGenerated recordsApplied =>
      SimulationStateStore.markSourceApplied runDate source recordsGenerated recordsApplied
  | .recordEvents events => SimulationStateStore.recordEvents events
  | .completeRun runDate => SimulationStateStore.completeRun runDate

/-- The store after a call that returns or raises. -/
def StateCall.after (call : StateCall β) (s : SimulationState β) : SimulationState β :=
  (call.program isWeeklySlaBreachDate s).final

/-- The store `initialize` creates. -/
def initialized (baseline : Nat) : SimulationState β :=
  (SimulationStateStore.initializeState baseline SimulationState.empty).final

/-- One completed call of any method. -/
def CallStep (s t : SimulationState β) : Prop :=
  ∃ call : StateCall β, t = call.after isWeeklySlaBreachDate s

/-- A call that completes the day after the watermark finds it claimed. -/
def CompletesClaimed (s : SimulationState β) (call : StateCall β) : Prop :=
  ∀ w, s.lastCompleted = some w → call = .completeRun (w + 1) → (s.runs (w + 1)).isSome

def ClaimedCallStep (s t : SimulationState β) : Prop :=
  ∃ call : StateCall β,
    CompletesClaimed s call ∧ t = call.after isWeeklySlaBreachDate s

namespace SimulationState

/-- A completed run row, and exactly three source-run rows, all applied. -/
def DateCompleted (s : SimulationState β) (d : Nat) : Prop :=
  s.runState d = some .completed ∧
    s.sourceRowsOf d = [(.crm, .applied), (.ops, .applied), (.erp, .applied)]

/-- Every date after the baseline and up to the watermark is completed. -/
structure MeansCompleted (b w : Nat) (s : SimulationState β) : Prop where
  baseline : s.baseline = some b
  baseline_le : b ≤ w
  lastCompleted : s.lastCompleted = some w
  completed : ∀ d, b < d → d ≤ w → s.DateCompleted d

/-- Dates after the watermark are claimed with all their rows, or have none. -/
def WholeAfter (w : Nat) (s : SimulationState β) : Prop :=
  ∀ d, w < d → s.Claimed d ∨ s.Unclaimed d

/-- The watermark stays or moves on by one day. -/
def Advances (s t : SimulationState β) : Prop :=
  t.lastCompleted = s.lastCompleted ∨
    ∃ w, s.lastCompleted = some w ∧ t.lastCompleted = some (w + 1)

variable {s t : SimulationState β} {b w d : Nat}

theorem DateCompleted.congr
    (h : s.DateCompleted d) (hruns : t.runs d = s.runs d)
    (hsources : t.sourceRuns d = s.sourceRuns d) :
    t.DateCompleted d := by
  obtain ⟨hrun, hrows⟩ := h
  refine ⟨?_, ?_⟩
  · rw [runState, hruns]
    exact hrun
  · rw [sourceRowsOf, hsources]
    exact hrows

theorem Claimed.congr
    (h : s.Claimed d) (hruns : t.runs d = s.runs d)
    (hsources : t.sourceRuns d = s.sourceRuns d) :
    t.Claimed d := by
  rw [Claimed, hruns, hsources]
  exact h

theorem Unclaimed.congr
    (h : s.Unclaimed d) (hruns : t.runs d = s.runs d)
    (hsources : t.sourceRuns d = s.sourceRuns d) :
    t.Unclaimed d := by
  rw [Unclaimed, hruns, hsources]
  exact h

theorem SameControl.meansCompleted
    (h : SameControl s t) (hs : s.MeansCompleted b w) : t.MeansCompleted b w where
  baseline := h.baseline.trans hs.baseline
  baseline_le := hs.baseline_le
  lastCompleted := h.lastCompleted.trans hs.lastCompleted
  completed d hb hd :=
    (hs.completed d hb hd).congr (congrFun h.runs d) (congrFun h.sourceRuns d)

theorem SameControl.wholeAfter
    (h : SameControl s t) (hs : s.WholeAfter w) : t.WholeAfter w := by
  intro d hd
  have hruns := congrFun h.runs d
  have hsources := congrFun h.sourceRuns d
  exact (hs d hd).imp (·.congr hruns hsources) (·.congr hruns hsources)

/-- Dates other than the changed one keep what they have. -/
theorem SameOutside.wholeAfter
    (h : SameOutside d s t) (hs : s.WholeAfter w)
    (hd : w < d → t.Claimed d ∨ t.Unclaimed d) :
    t.WholeAfter w := by
  intro d' hd'
  by_cases hsame : d' = d
  · subst hsame
    exact hd hd'
  · have hruns := h.runs d' hsame
    have hsources := h.sourceRuns d' hsame
    exact (hs d' hd').imp (·.congr hruns hsources) (·.congr hruns hsources)

theorem SameOutside.meansCompleted
    (h : SameOutside d s t) (hs : s.MeansCompleted b w)
    (hd : b < d → d ≤ w → t.DateCompleted d) :
    t.MeansCompleted b w where
  baseline := h.baseline.trans hs.baseline
  baseline_le := hs.baseline_le
  lastCompleted := h.lastCompleted.trans hs.lastCompleted
  completed d' hb hw := by
    by_cases hsame : d' = d
    · subst hsame
      exact hd hb hw
    · exact (hs.completed d' hb hw).congr (h.runs d' hsame) (h.sourceRuns d' hsame)

/-- A completed run row stays, and its sources stay applied when one of them is
marked once more. -/
theorem DateCompleted.setSourceRun
    (h : s.DateCompleted d) (source : SourceSystem) (generated applied : Int) :
    (s.setSourceRun d source ⟨.applied, generated, applied⟩).DateCompleted d := by
  refine ⟨h.1, sourceRowsOf_eq_applied_iff.mpr fun source' => ?_⟩
  by_cases hsource : source' = source
  · subst hsource
    exact ⟨_, setSourceRun_sourceRuns_self s d source' _, rfl⟩
  · rw [SourceApplied, setSourceRun_sourceRuns_of_ne hsource]
    exact sourceRowsOf_eq_applied_iff.mp h.2 source'

theorem Claimed.setSourceRun
    (h : s.Claimed d) (source : SourceSystem) (run : SourceRun) :
    (s.setSourceRun d source run).Claimed d := by
  refine ⟨h.1, fun source' => ?_⟩
  by_cases hsource : source' = source
  · subst hsource
    rw [setSourceRun_sourceRuns_self]
    rfl
  · rw [setSourceRun_sourceRuns_of_ne hsource]
    exact h.2 source'

end SimulationState
/-! ## One call -/

section Calls

variable {breach : Nat → Int → Bool} {b w d : Nat} {s : SimulationState β}

/-- The watermark means what it says, and later dates are claimed whole. -/
def Sound (b w : Nat) (s : SimulationState β) : Prop :=
  s.MeansCompleted b w ∧ s.WholeAfter w

theorem Sound.of_sameControl {t : SimulationState β}
    (hs : Sound b w s) (h : SameControl s t) : Sound b w t :=
  ⟨h.meansCompleted hs.1, h.wholeAfter hs.2⟩

theorem claimRun_keeps (hs : Sound b w s) (seed : Int) :
    (SimulationStateStore.claimRun breach d seed).Meets (fun _ => True)
      (fun _ => Sound b w) (fun _ => Sound b w) s := by
  obtain ⟨hmeans, hwhole⟩ := hs
  have hw := hmeans.lastCompleted
  by_cases hlater : w + 1 < d
  · exact meets_claimRun_of_later hw hlater ⟨hmeans, hwhole⟩
  cases hrow : s.runState d with
  | some state =>
      exact meets_claimRun_of_runState hw (by omega) hrow (fun _ => trivial)
        (fun _ => ⟨hmeans, hwhole⟩)
  | none =>
      have hincomplete : b < d → ¬ d ≤ w := by
        intro hb hd
        have hcompleted := (hmeans.completed d hb hd).1
        rw [hrow] at hcompleted
        cases hcompleted
      by_cases hd : w < d
      · -- the next date has no row, so its claim makes all four
        have hunclaimed : s.Unclaimed d := by
          refine (hwhole d hd).resolve_left fun hclaimed => ?_
          rw [Claimed, Option.map_eq_none_iff.mp hrow] at hclaimed
          cases hclaimed.1
        have hrun := claimRun_of_unclaimed breach seed hw (by omega) hunclaimed
        have houtside := (claimRun_sameOutside (s := s) breach d seed).last
        rw [hrun] at houtside
        refine ⟨fun _ _ => trivial, ?_⟩
        rw [hrun]
        exact ⟨houtside.meansCompleted hmeans (fun hb hw => absurd hw (hincomplete hb)),
          houtside.wholeAfter hwhole (fun _ => .inl (claimed_claiming s d _))⟩
      · refine (claimRun_sameOutside breach d seed).mono (fun _ _ => trivial) ?_ ?_
        all_goals
          intro _ t houtside
          exact ⟨houtside.meansCompleted hmeans (fun hb hw => absurd hw (hincomplete hb)),
            houtside.wholeAfter hwhole (fun hlt => absurd hlt hd)⟩

theorem markSourceApplied_keeps
    (hs : Sound b w s) (source : SourceSystem) (generated applied : Int) :
    (SimulationStateStore.markSourceApplied d source generated applied).Meets (fun _ => True)
      (fun _ => Sound b w) (fun _ => Sound b w) s := by
  obtain ⟨hmeans, hwhole⟩ := hs
  refine meets_markSourceApplied trivial (fun _ => ⟨hmeans, hwhole⟩) fun hrow => ?_
  have houtside := sameOutside_setSourceRun s d source ⟨.applied, generated, applied⟩
  refine ⟨houtside.meansCompleted hmeans fun hb hd => ?_, houtside.wholeAfter hwhole fun hd => ?_⟩
  · exact (hmeans.completed d hb hd).setSourceRun source generated applied
  · refine .inl (((hwhole d hd).resolve_right fun hunclaimed => ?_).setSourceRun source _)
    rw [hunclaimed.2 source] at hrow
    cases hrow

/-- The two updates of a completion, on a date that has been claimed. -/
theorem Sound.complete
    (hs : Sound b w s) (hclaimed : (s.runs (w + 1)).isSome)
    (hcount : s.pendingCount (w + 1) sources = 0) :
    Sound b (w + 1)
      { s.updateRunState (w + 1) .completed with lastCompleted := some (w + 1) } := by
  obtain ⟨hmeans, hwhole⟩ := hs
  have houtside := sameOutside_updateRunState s (w + 1) .completed
  have hrows : s.Claimed (w + 1) := by
    refine (hwhole (w + 1) (by omega)).resolve_right fun hunclaimed => ?_
    rw [hunclaimed.1] at hclaimed
    cases hclaimed
  have hcompleted : (s.updateRunState (w + 1) .completed).DateCompleted (w + 1) := by
    refine ⟨?_, sourceRowsOf_eq_applied_iff.mpr fun source => ?_⟩
    · obtain ⟨run, hrun⟩ := Option.isSome_iff_exists.mp hclaimed
      simp [runState, updateRunState, hrun]
    · obtain ⟨run, hrun⟩ := Option.isSome_iff_exists.mp (hrows.2 source)
      exact ⟨run, hrun, pendingCount_eq_zero_iff.mp hcount source (mem_sources source) run hrun⟩
  refine ⟨⟨houtside.baseline.trans hmeans.baseline, Nat.le_succ_of_le hmeans.baseline_le, rfl, ?_⟩, ?_⟩
  · intro d hb hd
    obtain hlt | rfl := Nat.lt_or_eq_of_le hd
    · have hne : d ≠ w + 1 := by omega
      exact (hmeans.completed d hb (by omega)).congr (houtside.runs d hne)
        (houtside.sourceRuns d hne)
    · exact hcompleted
  · intro d hd
    have hne : d ≠ w + 1 := by omega
    exact (hwhole d (by omega)).imp
      (·.congr (houtside.runs d hne) (houtside.sourceRuns d hne))
      (·.congr (houtside.runs d hne) (houtside.sourceRuns d hne))

/-- Every call keeps the meaning of the watermark, given its condition. -/
theorem Sound.after
    {call : StateCall β} (hs : Sound b w s) (hcall : CompletesClaimed s call) :
    ∃ w', Sound b w' (call.after breach s) := by
  cases call with
  | initializeState baseline =>
      refine ⟨w, Meets.last (I := fun _ => True) ?_⟩
      exact meets_initializeState hs.1.baseline hs.1.lastCompleted hs hs
  | claimRun runDate seed =>
      refine ⟨w, Meets.last (I := fun _ => True) ?_⟩
      rw [StateCall.program, meets_bind]
      exact (claimRun_keeps hs seed).mono (fun _ h => h)
        (fun _ _ h => (meets_pure _).mpr h) (fun _ _ h => h)
  | markSourceApplied runDate source generated applied =>
      exact ⟨w, (markSourceApplied_keeps hs source generated applied).last⟩
  | recordEvents events =>
      exact ⟨w, hs.of_sameControl (recordEvents_sameControl events).last⟩
  | completeRun runDate =>
      refine Meets.last (P := fun t => ∃ w', Sound b w' t) (I := fun _ => True) ?_
      refine meets_completeRun (fun _ => ⟨w, hs⟩) fun w' hw' hd hcount => ?_
      obtain rfl : w = w' := Option.some.inj (hs.1.lastCompleted.symm.trans hw')
      subst hd
      exact ⟨trivial, trivial, w + 1, hs.complete (hcall w hw' rfl) hcount⟩

/-- The day after the watermark, completed without a claim: the watermark moves
onto a date that has no run row. -/
theorem not_meansCompleted_of_unclaimed
    (hs : Sound b w s) (hrow : s.runs (w + 1) = none) (w' : Nat) :
    ¬ ((StateCall.completeRun (w + 1)).after breach s).MeansCompleted b w' := by
  obtain ⟨hmeans, hwhole⟩ := hs
  have hunclaimed : s.Unclaimed (w + 1) := by
    refine (hwhole (w + 1) (by omega)).resolve_left fun hclaimed => ?_
    rw [Claimed, hrow] at hclaimed
    cases hclaimed.1
  have hcount : s.pendingCount (w + 1) sources = 0 := by
    rw [pendingCount_eq_zero_iff]
    intro source _ run hrun
    rw [hunclaimed.2 source] at hrun
    cases hrun
  have hb := hmeans.baseline_le
  refine Meets.last (P := fun t => ¬ t.MeansCompleted b w') (I := fun _ => True)
    (meets_completeRun_of_pendingCount hmeans.lastCompleted rfl hcount trivial trivial ?_)
  intro hmeans'
  have hw' : w + 1 = w' := Option.some.inj hmeans'.lastCompleted
  have hcompleted := (hmeans'.completed (w + 1) (by omega) (by omega)).1
  simp [runState, updateRunState, hrow] at hcompleted

/-- No call moves the watermark back, and none moves it by more than a day. -/
theorem advances_after
    (call : StateCall β) (hbaseline : s.baseline = some b) (hw : s.lastCompleted = some w) :
    Advances s (call.after breach s) := by
  have hsame : Advances s s := .inl rfl
  cases call with
  | initializeState baseline =>
      exact Meets.last (I := fun _ => True) (meets_initializeState hbaseline hw hsame hsame)
  | claimRun runDate seed =>
      refine Meets.last (I := fun _ => True) ?_
      rw [StateCall.program, meets_bind]
      exact (claimRun_sameOutside breach runDate seed).mono (fun _ _ => trivial)
        (fun _ _ h => (meets_pure _).mpr (.inl h.lastCompleted)) (fun _ _ h => .inl h.lastCompleted)
  | markSourceApplied runDate source generated applied =>
      refine Meets.last (I := fun _ => True) ?_
      exact meets_markSourceApplied trivial (fun _ => hsame) (fun _ => .inl rfl)
  | recordEvents events =>
      exact .inl (recordEvents_sameControl events).last.lastCompleted
  | completeRun runDate =>
      refine Meets.last (I := fun _ => True) ?_
      refine meets_completeRun (fun _ => hsame) fun w' hw' hd _ => ?_
      exact ⟨trivial, trivial, .inr ⟨w', hw', congrArg some hd⟩⟩

end Calls

/-! ## Every run -/

section Runs

variable {breach : Nat → Int → Bool} {b : Nat} {s : SimulationState β}

theorem sound_initialized (b : Nat) : Sound b b (initialized b : SimulationState β) := by
  refine ⟨⟨rfl, Nat.le_refl b, rfl, fun d hb hd => absurd hb (by omega)⟩,
    fun d _ => .inr ⟨rfl, fun _ => rfl⟩⟩

/-- In every state reached by calls that complete no unclaimed date, the dates
after the baseline and up to the watermark are completed with their three
sources applied; one more call keeps that exactly when it, too, completes no
unclaimed date, and moves the watermark by a day at most. -/
theorem completed_through_watermark_of_run
    (hrun : Relation.ReflTransGen (ClaimedCallStep breach) (initialized b) s) :
    (∃ w, s.MeansCompleted b w) ∧
      ∀ call : StateCall β,
        Advances s (call.after breach s) ∧
          ((∃ w, (call.after breach s).MeansCompleted b w) ↔ CompletesClaimed s call) := by
  have hsound : ∃ w, Sound b w s := by
    induction hrun with
    | refl => exact ⟨b, sound_initialized b⟩
    | tail _ hstep ih =>
        obtain ⟨w, hs⟩ := ih
        obtain ⟨call, hcall, rfl⟩ := hstep
        exact hs.after hcall
  obtain ⟨w, hs⟩ := hsound
  refine ⟨⟨w, hs.1⟩, fun call => ⟨advances_after call hs.1.baseline hs.1.lastCompleted, ?_⟩⟩
  constructor
  · rintro ⟨w', hmeans⟩ w₁ hw₁ rfl
    obtain rfl : w = w₁ := Option.some.inj (hs.1.lastCompleted.symm.trans hw₁)
    by_contra hrow
    rw [Option.not_isSome_iff_eq_none] at hrow
    exact not_meansCompleted_of_unclaimed hs hrow w' hmeans
  · intro hcall
    obtain ⟨w', hs'⟩ := hs.after hcall
    exact ⟨w', hs'.1⟩

end Runs

/-- A policy without SLA breaches. -/
def noBreach : Nat → Int → Bool :=
  fun _ _ => false

/-- The calls of a day that goes through. -/
def firstDay : List (StateCall Unit) :=
  [.claimRun 1 0, .markSourceApplied 1 .crm 0 0, .markSourceApplied 1 .ops 0 0,
    .markSourceApplied 1 .erp 0 0, .completeRun 1]

def afterCalls (calls : List (StateCall Unit)) : SimulationState Unit :=
  calls.foldl (fun s call => call.after noBreach s) (initialized 0)

theorem firstDay_meansCompleted :
    (afterCalls firstDay).lastCompleted = some 1 ∧
      ∃ w, (afterCalls firstDay).MeansCompleted 0 w := by
  have hcall : ∀ (s : SimulationState Unit) (call : StateCall Unit),
      CompletesClaimed s call → ClaimedCallStep noBreach s (call.after noBreach s) :=
    fun s call h => ⟨call, h, rfl⟩
  have hrun : Relation.ReflTransGen (ClaimedCallStep noBreach) (initialized 0)
      (afterCalls firstDay) := by
    have hclaim := Relation.ReflTransGen.single (hcall (initialized 0) (.claimRun 1 0) nofun)
    have hcrm := hclaim.tail (hcall _ (.markSourceApplied 1 .crm 0 0) nofun)
    have hops := hcrm.tail (hcall _ (.markSourceApplied 1 .ops 0 0) nofun)
    have herp := hops.tail (hcall _ (.markSourceApplied 1 .erp 0 0) nofun)
    refine herp.tail (hcall _ (.completeRun 1) ?_)
    intro w hw _
    obtain rfl : 0 = w := Option.some.inj hw
    rfl
  exact ⟨rfl, (completed_through_watermark_of_run hrun).1⟩

/-- The first day, completed before anything else is called. -/
theorem exists_unclaimed_completion :
    ¬ ∀ (b : Nat) (s : SimulationState Unit),
      Relation.ReflTransGen (CallStep noBreach) (initialized b) s →
        ∃ w, s.MeansCompleted b w := by
  intro h
  obtain ⟨w, hmeans⟩ := h 0 _ (.single ⟨.completeRun 1, rfl⟩)
  have hw : 1 = w := Option.some.inj hmeans.lastCompleted
  have hcompleted := (hmeans.completed 1 (by omega) (by omega)).1
  cases hcompleted

end Simulator
end Northwind
