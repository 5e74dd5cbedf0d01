import Northwind.Simulator.CompletionWatermark

/-!
# Running a day again after a crash in the control store

The scheduler runs CRM, Ops and ERP for every due date.  Between their calls of
the control store the three do their own work, which writes nothing to it: what
their planners and appliers answer is a parameter of each date, and it may be
another one on a retry.

A crash leaves the store between two statements of a call.  The next run of the
day goes through from every such state but one kind: a date whose first claim
has inserted its run row and not all of its source-run rows.
-/

namespace Northwind
namespace Simulator

open CrashPrograms CrashPrograms.Program SimulationState SimulationStateStore

/-- What the source systems answer on a date: the id and body of each planned
event, and how many events the appliers counted. -/
structure DayWork (β : Type) where
  crm : List (String × β)
  orders : List (String × β)
  fulfillment : List (String × β)
  supportCases : List (String × β)
  opsApplied : Nat
  postings : List (String × β)
  erpApplied : Nat

/-- `SourceEvent.create` for a date and a source -/
def createEvents {β : Type} (runDate : Nat) (source : SourceSystem)
    (drafts : List (String × β)) : List (SimulationEvent β) :=
  drafts.map (fun draft => ⟨draft.1, runDate, source, draft.2⟩)

section DailySimulationRunner

variable {β : Type}

/-- The recorded events of a date, or the plan, recorded, where there is none. -/
def recordedOr (known plan : List (SimulationEvent β)) :
    StateProgram β (List (SimulationEvent β)) :=
  if known.isEmpty then do
    recordEvents plan
    pure plan
  else pure known

variable (isWeeklySlaBreachDate : Nat → Int → Bool) (isOrderCreated : β → Bool)

/-- `CrmRun.run` -/
def crmRun (work : DayWork β) (runDate : Nat) (seed : Int) : StateProgram β PUnit := do
  let _ ← claimRun isWeeklySlaBreachDate runDate seed
  let s ← read
  let events ← recordedOr (s.eventsFor runDate .crm) (createEvents runDate .crm work.crm)
  markSourceApplied runDate .crm events.length events.length

/-- `OpsRun.run` after its first check -/
def opsWork (work : DayWork β) (runDate : Nat) : StateProgram β PUnit := do
  let s ← read
  let _ ← recordedOr
    ((s.eventsFor runDate .ops).filter (fun event => isOrderCreated event.body))
    (createEvents runDate .ops work.orders)
  recordEvents (createEvents runDate .ops work.fulfillment)
  recordEvents (createEvents runDate .ops work.supportCases)
  let s ← read
  markSourceApplied runDate .ops (s.eventsFor runDate .ops).length work.opsApplied

/-- `OpsRun.run` -/
def opsRun (work : DayWork β) (runDate : Nat) (seed : Int) : StateProgram β PUnit := do
  let _ ← claimRun isWeeklySlaBreachDate runDate seed
  let crm ← sourceRunState runDate .crm
  if crm ≠ .applied then raise .crmNotApplied
  else opsWork isOrderCreated work runDate

/-- `ErpRun.run` after its first check -/
def erpWork (work : DayWork β) (runDate : Nat) : StateProgram β PUnit := do
  let s ← read
  let events ← recordedOr (s.eventsFor runDate .erp) (createEvents runDate .erp work.postings)
  markSourceApplied runDate .erp events.length work.erpApplied
  completeRun runDate

/-- `ErpRun.run` -/
def erpRun (work : DayWork β) (runDate : Nat) (seed : Int) : StateProgram β PUnit := do
  let _ ← claimRun isWeeklySlaBreachDate runDate seed
  let ops ← sourceRunState runDate .ops
  if ops ≠ .applied then raise .opsNotApplied
  else erpWork work runDate

/-- One pass of the loop of `run_through`. -/
def runDay (work : DayWork β) (seed : Int) (runDate : Nat) : StateProgram β PUnit := do
  crmRun isWeeklySlaBreachDate work runDate seed
  opsRun isWeeklySlaBreachDate isOrderCreated work runDate seed
  erpRun isWeeklySlaBreachDate work runDate seed
  let last ← lastCompletedDate
  if last ≠ runDate then raise .dateNotCompleted
  else pure ⟨⟩

/-- `DailySimulationRunner.run_through` -/
def runThrough (work : Nat → DayWork β) (throughDate : Nat) (seed : Int) :
    StateProgram β (List Nat) := do
  let dates ← dueDates throughDate
  forEach
    (fun runDate =>
      runDay isWeeklySlaBreachDate isOrderCreated (work runDate) seed runDate)
    dates
  pure dates

end DailySimulationRunner

/-! ## A day that goes through -/

section Day

variable {β : Type} {breach : Nat → Int → Bool} {isOrder : β → Bool} {work : DayWork β}
variable {s t : SimulationState β} {w d : Nat}

/-- The watermark is known, and later dates are claimed whole or not at all. -/
def Resumable (w : Nat) (s : SimulationState β) : Prop :=
  s.lastCompleted = some w ∧ s.WholeAfter w

/-- The day after the watermark is claimed and the sources of the list are applied. -/
structure InProgress (w : Nat) (applied : List SourceSystem) (s : SimulationState β) :
    Prop where
  lastCompleted : s.lastCompleted = some w
  wholeAfter : s.WholeAfter w
  claimed : s.Claimed (w + 1)
  applied : ∀ source, source ∈ applied → s.SourceApplied (w + 1) source

theorem InProgress.of_sameControl
    {applied : List SourceSystem} (hs : InProgress w applied s) (h : SameControl s t) :
    InProgress w applied t where
  lastCompleted := h.lastCompleted.trans hs.lastCompleted
  wholeAfter := h.wholeAfter hs.wholeAfter
  claimed := hs.claimed.congr (congrFun h.runs _) (congrFun h.sourceRuns _)
  applied source hmem := by
    rw [SourceApplied, h.sourceRuns]
    exact hs.applied source hmem

/-- Marking a source adds it to the applied ones. -/
theorem InProgress.setSourceRun
    {applied : List SourceSystem} (hs : InProgress w applied s)
    (source : SourceSystem) (generated count : Int) :
    InProgress w (source :: applied)
      (s.setSourceRun (w + 1) source ⟨.applied, generated, count⟩) := by
  have houtside :=
    sameOutside_setSourceRun s (w + 1) source ⟨.applied, generated, count⟩
  have hclaimed := hs.claimed.setSourceRun source ⟨.applied, generated, count⟩
  refine ⟨hs.lastCompleted, houtside.wholeAfter hs.wholeAfter fun _ => .inl hclaimed,
    hclaimed, fun source' hmem => ?_⟩
  by_cases hsource : source' = source
  · subst hsource
    exact ⟨_, setSourceRun_sourceRuns_self s (w + 1) source' _, rfl⟩
  · rw [SourceApplied, setSourceRun_sourceRuns_of_ne hsource]
    exact hs.applied source' ((List.mem_cons.mp hmem).resolve_left hsource)

variable (breach) in
/-- The first claim of the day after the watermark. -/
theorem claimRun_of_resumable (hs : Resumable w s) (seed : Int) :
    (claimRun breach (w + 1) seed).Meets (fun _ => True) (fun _ => InProgress w [])
      (fun _ _ => False) s := by
  obtain ⟨hw, hwhole⟩ := hs
  obtain hclaimed | hunclaimed := hwhole (w + 1) (by omega)
  · obtain ⟨run, hrun⟩ := Option.isSome_iff_exists.mp hclaimed.1
    have hstate : s.runState (w + 1) = some run.state := by
      rw [runState, hrun, Option.map_some]
    exact meets_claimRun_of_runState hw (by omega) hstate (fun _ => trivial)
      (fun _ => ⟨hw, hwhole, hclaimed, List.forall_mem_nil _⟩)
  · have hrun := claimRun_of_unclaimed breach seed hw (by omega) hunclaimed
    have houtside := (claimRun_sameOutside (s := s) breach (w + 1) seed).last
    rw [hrun] at houtside
    have hclaimed := claimed_claiming s (w + 1) (breach (w + 1) seed)
    refine ⟨fun _ _ => trivial, ?_⟩
    rw [hrun]
    exact ⟨houtside.lastCompleted.trans hw, houtside.wholeAfter hwhole fun _ => .inl hclaimed,
      hclaimed, List.forall_mem_nil _⟩

/-- A later claim of the same day changes nothing. -/
theorem claimRun_of_inProgress
    {applied : List SourceSystem} (hs : InProgress w applied s) (seed : Int) :
    (claimRun breach (w + 1) seed).Meets (fun _ => True) (fun _ => InProgress w applied)
      (fun _ _ => False) s := by
  obtain ⟨run, hrun⟩ := Option.isSome_iff_exists.mp hs.claimed.1
  have hstate : s.runState (w + 1) = some run.state := by
    rw [runState, hrun, Option.map_some]
  exact meets_claimRun_of_runState hs.lastCompleted (by omega) hstate (fun _ => trivial)
    (fun _ => hs)

/-- Planned events of a claimed day are recorded without an error. -/
theorem recordEvents_of_inProgress
    {applied : List SourceSystem} (hs : InProgress w applied s)
    (source : SourceSystem) (drafts : List (String × β)) :
    (recordEvents (createEvents (w + 1) source drafts)).Meets (fun _ => True)
      (fun _ => InProgress w applied) (fun _ _ => False) s := by
  refine (recordEvents_of_claimed ?_).mono (fun _ _ => trivial)
    (fun _ _ h => hs.of_sameControl h) (fun _ _ h => h)
  intro event hmem
  obtain ⟨draft, _, rfl⟩ := List.mem_map.mp hmem
  exact hs.claimed.2 source

theorem recordedOr_of_inProgress
    {applied : List SourceSystem} (hs : InProgress w applied s)
    (known : List (SimulationEvent β)) (source : SourceSystem) (drafts : List (String × β)) :
    (recordedOr known (createEvents (w + 1) source drafts)).Meets (fun _ => True)
      (fun _ => InProgress w applied) (fun _ _ => False) s := by
  rw [recordedOr, meets_ite]
  refine ⟨fun _ => ?_, fun _ => (meets_pure _).mpr hs⟩
  exact (recordEvents_of_inProgress hs source drafts).bind fun _ _ h => (meets_pure _).mpr h

theorem markSourceApplied_of_inProgress
    {applied : List SourceSystem} {source : SourceSystem} (hs : InProgress w applied s)
    (hpreceding : ∀ source', source' ∈ source.preceding → source' ∈ applied)
    (generated count : Nat) :
    (markSourceApplied (w + 1) source generated count).Meets (fun _ => True)
      (fun _ => InProgress w (source :: applied)) (fun _ _ => False) s :=
  meets_markSourceApplied_of_applied (Int.natCast_nonneg _) (Int.natCast_nonneg _)
    (hs.claimed.2 source) (fun source' hmem => hs.applied source' (hpreceding source' hmem))
    trivial (hs.setSourceRun source generated count)

theorem crmRun_of_resumable (hs : Resumable w s) (seed : Int) :
    (crmRun breach work (w + 1) seed).Meets (fun _ => True) (fun _ => InProgress w [.crm])
      (fun _ _ => False) s := by
  refine (claimRun_of_resumable breach hs seed).bind fun _ t ht => ?_
  rw [meets_bind, meets_read]
  refine (recordedOr_of_inProgress ht _ .crm work.crm).bind fun events u hu => ?_
  exact markSourceApplied_of_inProgress hu (by decide) events.length events.length

theorem meets_sourceRunState
    {I : SimulationState β → Prop} {Q : SourceRunState → SimulationState β → Prop}
    {E : SimulationStateError → SimulationState β → Prop} {source : SourceSystem}
    (happlied : s.SourceApplied d source) (hQ : Q .applied s) :
    (sourceRunState d source).Meets I Q E s := by
  obtain ⟨run, hrun, hstate⟩ := happlied
  rw [sourceRunState, meets_bind, meets_read, hrun]
  exact (meets_pure _).mpr (hstate ▸ hQ)

theorem opsRun_of_inProgress (hs : InProgress w [.crm] s) (seed : Int) :
    (opsRun breach isOrder work (w + 1) seed).Meets (fun _ => True)
      (fun _ => InProgress w [.ops, .crm]) (fun _ _ => False) s := by
  refine (claimRun_of_inProgress hs seed).bind fun _ t ht => ?_
  rw [meets_bind]
  refine meets_sourceRunState (ht.applied .crm (by decide)) ?_
  rw [if_neg (by decide), opsWork, meets_bind, meets_read]
  refine (recordedOr_of_inProgress ht _ .ops work.orders).bind fun _ u hu => ?_
  refine (recordEvents_of_inProgress hu .ops work.fulfillment).bind fun _ u hu => ?_
  refine (recordEvents_of_inProgress hu .ops work.supportCases).bind fun _ u hu => ?_
  rw [meets_bind, meets_read]
  exact markSourceApplied_of_inProgress hu (by decide) _ work.opsApplied

/-- The day after `w` is completed and the store is ready for the next one. -/
structure DayDone (w : Nat) (s : SimulationState β) : Prop where
  resumable : Resumable (w + 1) s
  completed : s.DateCompleted (w + 1)

theorem InProgress.complete (hs : InProgress w [.erp, .ops, .crm] s) :
    DayDone w { s.updateRunState (w + 1) .completed with lastCompleted := some (w + 1) } := by
  have houtside := sameOutside_updateRunState s (w + 1) .completed
  refine ⟨⟨rfl, fun d hd => ?_⟩, ?_, sourceRowsOf_eq_applied_iff.mpr fun source => ?_⟩
  · have hne : d ≠ w + 1 := by omega
    exact (hs.wholeAfter d (by omega)).imp
      (·.congr (houtside.runs d hne) (houtside.sourceRuns d hne))
      (·.congr (houtside.runs d hne) (houtside.sourceRuns d hne))
  · obtain ⟨run, hrun⟩ := Option.isSome_iff_exists.mp hs.claimed.1
    simp [runState, updateRunState, hrun]
  · exact hs.applied source (by cases source <;> decide)

theorem erpRun_of_inProgress (hs : InProgress w [.ops, .crm] s) (seed : Int) :
    (erpRun breach work (w + 1) seed).Meets (fun _ => True) (fun _ => DayDone w)
      (fun _ _ => False) s := by
  refine (claimRun_of_inProgress hs seed).bind fun _ t ht => ?_
  rw [meets_bind]
  refine meets_sourceRunState (ht.applied .ops (by decide)) ?_
  rw [if_neg (by decide), erpWork, meets_bind, meets_read]
  refine (recordedOr_of_inProgress ht _ .erp work.postings).bind fun events u hu => ?_
  refine (markSourceApplied_of_inProgress hu (by decide) events.length work.erpApplied).bind
    fun _ v hv => ?_
  exact meets_completeRun_of_pendingCount hv.lastCompleted rfl
    (pendingCount_of_applied fun source _ => hv.applied source (by cases source <;> decide))
    trivial trivial hv.complete

/-- The day after the watermark goes through, whatever the source systems
answer. -/
theorem runDay_of_resumable (hs : Resumable w s) (seed : Int) :
    (runDay breach isOrder work seed (w + 1)).Meets (fun _ => True) (fun _ => DayDone w)
      (fun _ _ => False) s := by
  refine (crmRun_of_resumable hs seed).bind fun _ t ht => ?_
  refine (opsRun_of_inProgress ht seed).bind fun _ t ht => ?_
  refine (erpRun_of_inProgress ht seed).bind fun _ t ht => ?_
  rw [lastCompletedDate, meets_bind, meets_bind, meets_read, ht.resumable.1, meets_pure,
    if_neg (by simp), meets_pure]
  exact ht

theorem range_map_eq_cons {through x : Nat} {xs : List Nat}
    (h : (List.range (through - w)).map (fun day => w + 1 + day) = x :: xs) :
    w < through ∧ x = w + 1 ∧
      xs = (List.range (through - (w + 1))).map (fun day => w + 1 + 1 + day) := by
  obtain ⟨n, hn⟩ : ∃ n, through - w = n + 1 := by
    cases hn : through - w with
    | zero => simp [hn] at h
    | succ n => exact ⟨n, rfl⟩
  rw [hn, List.range_succ_eq_map, List.map_cons, List.map_map] at h
  obtain ⟨rfl, rfl⟩ := List.cons.inj h
  have hrest : through - (w + 1) = n := by omega
  refine ⟨by omega, rfl, ?_⟩
  rw [hrest]
  refine List.map_congr_left fun day _ => ?_
  change w + 1 + (day + 1) = w + 1 + 1 + day
  omega

variable (breach isOrder) in
/-- Every due date goes through, in order. -/
theorem runThrough_of_resumable
    (work : Nat → DayWork β) {through : Nat} (hs : Resumable w s) (hw : w < through)
    (seed : Int) :
    (runThrough breach isOrder work through seed).Meets (fun _ => True)
      (fun _ t => Resumable through t ∧ t.DateCompleted through) (fun _ _ => False) s := by
  -- what is still to do are the dates after the watermark
  let Inv : List Nat → SimulationState β → Prop := fun rest t =>
    ∃ v, v ≤ through ∧ rest = (List.range (through - v)).map (fun day => v + 1 + day) ∧
      Resumable v t ∧ (w < v → t.DateCompleted v)
  have hbody : ∀ x xs t, Inv (x :: xs) t →
      (runDay breach isOrder (work x) seed x).Meets (fun _ => True) (fun _ => Inv xs)
        (fun _ _ => False) t := by
    rintro x xs t ⟨v, _, hdates, hresumable, _⟩
    obtain ⟨hv, rfl, rfl⟩ := range_map_eq_cons hdates.symm
    refine (runDay_of_resumable hresumable seed).mono (fun _ h => h) ?_ (fun _ _ h => h)
    intro _ u hu
    exact ⟨v + 1, hv, rfl, hu.resumable, fun _ => hu.completed⟩
  rw [runThrough, dueDates, lastCompletedDate, meets_bind, meets_bind, meets_bind, meets_read,
    hs.1, meets_pure, meets_pure]
  refine (meets_forEach Inv hbody _ ⟨w, by omega, rfl, hs, fun h => absurd h (by omega)⟩).bind ?_
  rintro _ t ⟨v, hv, hdates, hresumable, hcompleted⟩
  have hlength := congrArg List.length hdates
  simp only [List.length_nil, List.length_map, List.length_range] at hlength
  obtain rfl : v = through := by omega
  exact (meets_pure _).mpr ⟨hresumable, hcompleted hw⟩

end Day

/-! ## Crashes -/

section Crashes

variable {β : Type} (breach : Nat → Int → Bool)

/-- A call that returns, raises or crashes: `t` is left by its first `k`
statements. -/
def CrashStep (s t : SimulationState β) : Prop :=
  ∃ (call : StateCall β) (k : Nat), (call.program breach).Stops s k t

/-- The call does not crash after some and not all of the four inserts of the
first claim of the day after the watermark. -/
def ClaimsWhole (s : SimulationState β) (call : StateCall β) (k : Nat) : Prop :=
  ∀ w seed, s.lastCompleted = some w → call = .claimRun (w + 1) seed →
    s.runs (w + 1) = none → k = 0 ∨ 4 ≤ k

def WholeClaimStep (s t : SimulationState β) : Prop :=
  ∃ (call : StateCall β) (k : Nat),
    ClaimsWhole s call k ∧ (call.program breach).Stops s k t

/-- The scheduler, started on the store, completes every due date: the day after
the watermark is claimed with all its rows, nothing raises and the watermark
ends on the last date. -/
def Recovers (isOrder : β → Bool) (s : SimulationState β) : Prop :=
  ∀ (work : Nat → DayWork β) (seed : Int) (w through : Nat),
    s.lastCompleted = some w → w < through →
      (claimRun breach (w + 1) seed s).final.Claimed (w + 1) ∧
        (∃ dates, (runThrough breach isOrder work through seed s).result = .ok dates) ∧
        (runThrough breach isOrder work through seed s).final.lastCompleted = some through ∧
        (runThrough breach isOrder work through seed s).final.DateCompleted through

end Crashes

section Recovery

variable {β : Type} {breach : Nat → Int → Bool} {isOrder : β → Bool}
variable {s t : SimulationState β} {w d k : Nat} {call : StateCall β}

theorem Resumable.recovers (hs : Resumable w s) : Recovers breach isOrder s := by
  intro work seed w' through hw' hthrough
  obtain rfl : w = w' := Option.some.inj (hs.1.symm.trans hw')
  obtain ⟨_, _, hclaim⟩ := (claimRun_of_resumable breach hs seed).ok
  obtain ⟨dates, hresult, hend, hcompleted⟩ :=
    (runThrough_of_resumable breach isOrder work hs hthrough seed).ok
  exact ⟨hclaim.claimed, ⟨dates, hresult⟩, hend.1, hcompleted⟩

variable (breach) in
/-- The states of a claim that is not a first one of the day after the watermark. -/
theorem claimRun_keeps_resumable
    (hs : Resumable w s) (hcall : d = w + 1 → (s.runs (w + 1)).isSome) (seed : Int) :
    (claimRun breach d seed).Meets (Resumable w) (fun _ => Resumable w) (fun _ => Resumable w)
      s := by
  by_cases hlater : w + 1 < d
  · exact meets_claimRun_of_later hs.1 hlater hs
  cases hrow : s.runState d with
  | some state => exact meets_claimRun_of_runState hs.1 (by omega) hrow (fun _ => hs) (fun _ => hs)
  | none =>
      have hne : d ≠ w + 1 := by
        rintro rfl
        have hsome := hcall rfl
        rw [Option.map_eq_none_iff.mp hrow] at hsome
        cases hsome
      have hkeep : ∀ t, SameOutside d s t → Resumable w t := fun t h =>
        ⟨h.lastCompleted.trans hs.1, h.wholeAfter hs.2 fun hd => absurd hd (by omega)⟩
      exact (claimRun_sameOutside breach d seed).mono hkeep (fun _ => hkeep) (fun _ => hkeep)

theorem initializeState_keeps_resumable (hs : Resumable w s) (baseline : Nat) :
    (SimulationStateStore.initializeState baseline).Meets (Resumable w)
      (fun _ => Resumable w) (fun _ => Resumable w) s := by
  simp only [SimulationStateStore.initializeState, insertWatermark, meets_bind, meets_read, hs.1,
    reduceCtorEq, if_false, meets_pure]
  cases s.baseline with
  | none => exact (meets_write _).mpr ⟨hs, hs⟩
  | some known =>
      rw [meets_ite, meets_raise, meets_pure]
      exact ⟨fun _ => hs, fun _ => hs⟩

theorem markSourceApplied_keeps_resumable
    (hs : Resumable w s) (source : SourceSystem) (generated applied : Int) :
    (SimulationStateStore.markSourceApplied d source generated applied).Meets (Resumable w)
      (fun _ => Resumable w) (fun _ => Resumable w) s := by
  refine meets_markSourceApplied hs (fun _ => hs) fun hrow => ?_
  have houtside := sameOutside_setSourceRun s d source ⟨.applied, generated, applied⟩
  refine ⟨hs.1, houtside.wholeAfter hs.2 fun hd => .inl ?_⟩
  refine ((hs.2 d hd).resolve_right fun hunclaimed => ?_).setSourceRun source _
  rw [hunclaimed.2 source] at hrow
  cases hrow

/-- Completing a date, or crashing between its two updates, leaves a store that
can go on. -/
theorem completeRun_keeps_resumable (hs : Resumable w s) :
    (SimulationStateStore.completeRun d).Meets (fun t => ∃ v, Resumable v t)
      (fun _ t => ∃ v, Resumable v t) (fun _ t => ∃ v, Resumable v t) s := by
  refine meets_completeRun (fun _ => ⟨w, hs⟩) fun v hv hd _ => ?_
  obtain rfl : w = v := Option.some.inj (hs.1.symm.trans hv)
  subst hd
  have houtside := sameOutside_updateRunState s (w + 1) .completed
  have hrows : (s.updateRunState (w + 1) .completed).Claimed (w + 1) ∨
      (s.updateRunState (w + 1) .completed).Unclaimed (w + 1) := by
    refine (hs.2 (w + 1) (by omega)).imp (fun h => ⟨?_, h.2⟩) (fun h => ⟨?_, h.2⟩)
    · simpa [updateRunState] using h.1
    · simpa [updateRunState] using h.1
  have hupdate : Resumable w (s.updateRunState (w + 1) .completed) :=
    ⟨hs.1, houtside.wholeAfter hs.2 fun _ => hrows⟩
  refine ⟨⟨w, hs⟩, ⟨w, hupdate⟩, w + 1, rfl, fun d hd => ?_⟩
  exact hupdate.2 d (by omega)

/-- The states of a first claim, one after each of its inserts. -/
theorem states_of_first_claim
    (hs : Resumable w s) (hrow : s.runs (w + 1) = none) (seed : Int) :
    ((StateCall.claimRun (w + 1) seed).program breach s).states =
      [s, s.claiming (w + 1) (breach (w + 1) seed) 0,
        s.claiming (w + 1) (breach (w + 1) seed) 1,
        s.claiming (w + 1) (breach (w + 1) seed) 2,
        s.claiming (w + 1) (breach (w + 1) seed) 3] := by
  have hunclaimed : s.Unclaimed (w + 1) := by
    refine (hs.2 (w + 1) (by omega)).resolve_left fun hclaimed => ?_
    rw [Claimed, hrow] at hclaimed
    cases hclaimed.1
  have hrun := claimRun_of_unclaimed breach seed hs.1 (by omega) hunclaimed
  rw [StateCall.program, run_bind_ok hrun, run_pure]
  rfl

/-- A call that keeps the condition leaves a store the scheduler can go on from. -/
theorem Resumable.step
    (hs : Resumable w s) (hcall : ClaimsWhole s call k)
    (hstops : (call.program breach).Stops s k t) :
    ∃ v, Resumable v t := by
  cases call with
  | initializeState baseline =>
      exact ⟨w, (initializeState_keeps_resumable hs baseline).leaves ⟨k, hstops⟩⟩
  | markSourceApplied runDate source generated applied =>
      exact ⟨w, (markSourceApplied_keeps_resumable hs source generated applied).leaves
        ⟨k, hstops⟩⟩
  | recordEvents events =>
      have hsame := (recordEvents_sameControl events).leaves ⟨k, hstops⟩
      exact ⟨w, hsame.lastCompleted.trans hs.1, hsame.wholeAfter hs.2⟩
  | completeRun runDate => exact (completeRun_keeps_resumable hs).leaves ⟨k, hstops⟩
  | claimRun runDate seed =>
      by_cases hfirst : runDate = w + 1 ∧ s.runs (w + 1) = none
      · obtain ⟨rfl, hrow⟩ := hfirst
        have hstate : (s :: _)[k]? = some t :=
          (congrArg (·[k]?) (states_of_first_claim hs hrow seed)).symm.trans hstops
        have hk := hcall w seed hs.1 rfl hrow
        obtain rfl | hk := hk
        · obtain rfl : s = t := Option.some.inj hstate
          exact ⟨w, hs⟩
        · -- the fourth insert is the last one
          have hlt : k < 5 := (List.getElem?_eq_some_iff.mp hstate).1
          obtain rfl : k = 4 := by omega
          obtain rfl := Option.some.inj hstate
          have hclaimed := claimed_claiming s (w + 1) (breach (w + 1) seed)
          have houtside := sameOutside_claiming s (w + 1) (breach (w + 1) seed) 3
          exact ⟨w, houtside.lastCompleted.trans hs.1,
            houtside.wholeAfter hs.2 fun _ => .inl hclaimed⟩
      · have hkeep := claimRun_keeps_resumable breach (d := runDate) hs
          (fun hd => Option.isSome_iff_ne_none.mpr fun hrow => hfirst ⟨hd, hrow⟩) seed
        have hprogram : ((StateCall.claimRun runDate seed).program breach).Meets (Resumable w)
            (fun _ => Resumable w) (fun _ => Resumable w) s :=
          hkeep.bind fun _ _ h => (meets_pure _).mpr h
        exact ⟨w, hprogram.leaves ⟨k, hstops⟩⟩

/-! ## A claim cut short -/

/-- The day after the watermark has its run row and lacks the row of a source. -/
structure Wedged (w : Nat) (source : SourceSystem) (s : SimulationState β) : Prop where
  lastCompleted : s.lastCompleted = some w
  run : (s.runs (w + 1)).isSome
  missing : s.sourceRuns (w + 1) source = none

variable {source : SourceSystem}

theorem Wedged.of_sameControl (hs : Wedged w source s) (h : SameControl s t) :
    Wedged w source t :=
  ⟨h.lastCompleted.trans hs.lastCompleted, h.runs ▸ hs.run, h.sourceRuns ▸ hs.missing⟩

/-- The claim of a retry finds the run row and inserts nothing. -/
theorem claimRun_of_wedged (hs : Wedged w source s) (seed : Int) :
    (claimRun breach (w + 1) seed).Meets (fun _ => True) (fun _ => Wedged w source)
      (fun _ => Wedged w source) s := by
  obtain ⟨run, hrun⟩ := Option.isSome_iff_exists.mp hs.run
  have hstate : s.runState (w + 1) = some run.state := by
    rw [runState, hrun, Option.map_some]
  exact meets_claimRun_of_runState hs.lastCompleted (by omega) hstate (fun _ => trivial)
    (fun _ => hs)

theorem recordEvents_of_wedged (hs : Wedged w source s) (events : List (SimulationEvent β)) :
    (recordEvents events).Meets (fun _ => True) (fun _ => Wedged w source)
      (fun _ => Wedged w source) s :=
  (recordEvents_sameControl events).mono (fun _ _ => trivial)
    (fun _ _ h => hs.of_sameControl h) (fun _ _ h => hs.of_sameControl h)

theorem recordedOr_of_wedged
    (hs : Wedged w source s) (known plan : List (SimulationEvent β)) :
    (recordedOr known plan).Meets (fun _ => True) (fun _ => Wedged w source)
      (fun _ => Wedged w source) s := by
  rw [recordedOr, meets_ite]
  refine ⟨fun _ => ?_, fun _ => (meets_pure _).mpr hs⟩
  exact (recordEvents_of_wedged hs plan).bind fun _ _ h => (meets_pure _).mpr h

/-- A source without its row is never marked. -/
theorem markSourceApplied_of_wedged
    (hs : Wedged w source s) (marked : SourceSystem) (generated applied : Int) :
    (SimulationStateStore.markSourceApplied (w + 1) marked generated applied).Meets
      (fun _ => True) (fun _ t => source ≠ marked ∧ Wedged w source t)
      (fun _ => Wedged w source) s := by
  refine meets_markSourceApplied trivial (fun _ => hs) fun hrow => ?_
  have hne : source ≠ marked := by
    rintro rfl
    rw [hs.missing] at hrow
    cases hrow
  exact ⟨hne, hs.lastCompleted, hs.run, (setSourceRun_sourceRuns_of_ne hne).trans hs.missing⟩

theorem sourceRunState_of_wedged (hs : Wedged w source s) (known : SourceSystem) :
    (sourceRunState (w + 1) known).Meets (fun _ => True) (fun _ => Wedged w source)
      (fun _ => Wedged w source) s := by
  rw [sourceRunState, meets_bind, meets_read]
  cases s.sourceRuns (w + 1) known with
  | none => exact (meets_raise _).mpr hs
  | some run => exact (meets_pure _).mpr hs

theorem crmRun_of_wedged (work : DayWork β) (hs : Wedged w source s) (seed : Int) :
    (crmRun breach work (w + 1) seed).Meets (fun _ => True)
      (fun _ t => source ≠ .crm ∧ Wedged w source t) (fun _ => Wedged w source) s := by
  refine (claimRun_of_wedged hs seed).bind fun _ t ht => ?_
  rw [meets_bind, meets_read]
  refine (recordedOr_of_wedged ht _ _).bind fun events u hu => ?_
  exact markSourceApplied_of_wedged hu .crm _ _

theorem opsRun_of_wedged (work : DayWork β) (hs : Wedged w source s) (seed : Int) :
    (opsRun breach isOrder work (w + 1) seed).Meets (fun _ => True)
      (fun _ t => source ≠ .ops ∧ Wedged w source t) (fun _ => Wedged w source) s := by
  refine (claimRun_of_wedged hs seed).bind fun _ t ht => ?_
  refine (sourceRunState_of_wedged ht .crm).bind fun crm t ht => ?_
  rw [meets_ite, meets_raise]
  refine ⟨fun _ => ht, fun _ => ?_⟩
  rw [opsWork, meets_bind, meets_read]
  refine (recordedOr_of_wedged ht _ _).bind fun _ u hu => ?_
  refine (recordEvents_of_wedged hu _).bind fun _ u hu => ?_
  refine (recordEvents_of_wedged hu _).bind fun _ u hu => ?_
  rw [meets_bind, meets_read]
  exact markSourceApplied_of_wedged hu .ops _ _

theorem erpRun_of_wedged (work : DayWork β) (hs : Wedged w .erp s) (seed : Int) :
    (erpRun breach work (w + 1) seed).Meets (fun _ => True) (fun _ _ => False)
      (fun _ => Wedged w .erp) s := by
  refine (claimRun_of_wedged hs seed).bind fun _ t ht => ?_
  refine (sourceRunState_of_wedged ht .ops).bind fun ops t ht => ?_
  rw [meets_ite, meets_raise]
  refine ⟨fun _ => ht, fun _ => ?_⟩
  rw [erpWork, meets_bind, meets_read]
  refine (recordedOr_of_wedged ht _ _).bind fun events u hu => ?_
  exact (markSourceApplied_of_wedged hu .erp _ _).bind fun _ _ h => absurd rfl h.1

/-- Every retry of the day raises, whatever the source systems answer, and leaves
the store as stuck as before. -/
theorem runDay_of_wedged (work : DayWork β) (hs : Wedged w source s) (seed : Int) :
    (runDay breach isOrder work seed (w + 1)).Meets (fun _ => True) (fun _ _ => False)
      (fun _ => Wedged w source) s := by
  refine (crmRun_of_wedged work hs seed).bind fun _ t ht => ?_
  refine (opsRun_of_wedged work ht.2 seed).bind fun _ u hu => ?_
  obtain rfl : source = .erp := by
    cases source with
    | crm => exact absurd rfl ht.1
    | ops => exact absurd rfl hu.1
    | erp => rfl
  exact (erpRun_of_wedged work hu.2 seed).bind fun _ _ h => h.elim

variable (breach isOrder) in
theorem runThrough_of_wedged
    (work : Nat → DayWork β) {through : Nat} (hs : Wedged w source s) (hw : w < through)
    (seed : Int) :
    (runThrough breach isOrder work through seed).Meets (fun _ => True) (fun _ _ => False)
      (fun _ => Wedged w source) s := by
  rw [runThrough, dueDates, lastCompletedDate, meets_bind, meets_bind, meets_bind, meets_read,
    hs.lastCompleted, meets_pure, meets_pure]
  obtain ⟨n, hn⟩ : ∃ n, through - w = n + 1 := ⟨through - w - 1, by omega⟩
  rw [hn, List.range_succ_eq_map, List.map_cons, forEach]
  refine Meets.bind (Q := fun _ _ => False) ?_ fun _ _ h => h.elim
  exact (runDay_of_wedged (work (w + 1)) hs seed).bind fun _ _ h => h.elim

theorem Wedged.not_recovers (hs : Wedged w source s) : ¬ Recovers breach isOrder s := by
  intro h
  let work : Nat → DayWork β := fun _ => ⟨[], [], [], [], 0, [], 0⟩
  obtain ⟨_, ⟨dates, hresult⟩, _⟩ := h work 0 w (w + 1) hs.lastCompleted (Nat.lt_succ_self w)
  have hend :=
    (runThrough_of_wedged breach isOrder work hs (Nat.lt_succ_self w) 0).2
  rw [hresult] at hend
  exact hend

/-- A crash after some and not all of the inserts of a first claim. -/
theorem wedged_of_stops
    (hs : Resumable w s) (hcall : ¬ ClaimsWhole s call k)
    (hstops : (call.program breach).Stops s k t) :
    ∃ source, Wedged w source t := by
  simp only [ClaimsWhole, not_forall, not_or] at hcall
  obtain ⟨w', seed, hw', rfl, hrow, hzero, hfour⟩ := hcall
  obtain rfl : w = w' := Option.some.inj (hs.1.symm.trans hw')
  have hunclaimed : s.Unclaimed (w + 1) := by
    refine (hs.2 (w + 1) (by omega)).resolve_left fun hclaimed => ?_
    rw [Claimed, hrow] at hclaimed
    cases hclaimed.1
  have hstate : (s :: _)[k]? = some t :=
    (congrArg (·[k]?) (states_of_first_claim hs hrow seed)).symm.trans hstops
  obtain ⟨j, hj, rfl⟩ : ∃ j, j < 3 ∧ s.claiming (w + 1) (breach (w + 1) seed) j = t := by
    obtain rfl | rfl | rfl : k = 1 ∨ k = 2 ∨ k = 3 := by omega
    · exact ⟨0, by omega, Option.some.inj hstate⟩
    · exact ⟨1, by omega, Option.some.inj hstate⟩
    · exact ⟨2, by omega, Option.some.inj hstate⟩
  have houtside := sameOutside_claiming s (w + 1) (breach (w + 1) seed) j
  refine ⟨.erp, houtside.lastCompleted.trans hs.1, by rw [claiming_runs]; rfl, ?_⟩
  have herp : SourceSystem.erp ∉ sources.take j := by
    obtain rfl | rfl | rfl : j = 0 ∨ j = 1 ∨ j = 2 := by omega
    all_goals decide
  rw [claiming_sourceRuns, if_neg herp, hunclaimed.2 .erp]

/-! ## Every run -/

theorem resumable_initialized (b : Nat) : Resumable b (initialized b : SimulationState β) :=
  ⟨rfl, fun _ _ => .inr ⟨rfl, fun _ => rfl⟩⟩

/-- After any calls and crashes of which none cuts the first claim of a due date
short, the scheduler completes the next dates; one more call, or a crash inside
it, keeps that exactly when it, too, does not. -/
theorem recovers_of_run
    {b : Nat} (hrun : Relation.ReflTransGen (WholeClaimStep breach) (initialized b) s) :
    Recovers breach isOrder s ∧
      ∀ (call : StateCall β) (k : Nat) (t : SimulationState β),
        (call.program breach).Stops s k t →
          (Recovers breach isOrder t ↔ ClaimsWhole s call k) := by
  have hresumable : ∃ w, Resumable w s := by
    induction hrun with
    | refl => exact ⟨b, resumable_initialized b⟩
    | tail _ hstep ih =>
        obtain ⟨w, hs⟩ := ih
        obtain ⟨call, k, hcall, hstops⟩ := hstep
        exact hs.step hcall hstops
  obtain ⟨w, hs⟩ := hresumable
  refine ⟨hs.recovers, fun call k t hstops => ⟨fun hrecovers => ?_, fun hcall => ?_⟩⟩
  · by_contra hcall
    obtain ⟨source, hwedged⟩ := wedged_of_stops hs hcall hstops
    exact hwedged.not_recovers hrecovers
  · obtain ⟨v, ht⟩ := hs.step hcall hstops
    exact ht.recovers

end Recovery

/-! ## The scheduler's own calls -/

section Scheduler

variable {β : Type} (breach : Nat → Int → Bool)

/-- `t` is reached from `s` by calls that return, raise or crash. -/
def Reached (s t : SimulationState β) : Prop :=
  Relation.ReflTransGen (CrashStep breach) s t

/-- A program that passes through reached states only, whether it ends or raises. -/
def Reaches {α : Type} (p : StateProgram β α) (s : SimulationState β) : Prop :=
  ∀ t, Reached breach s t →
    p.Meets (Reached breach s) (fun _ => Reached breach s) (fun _ => Reached breach s) t

variable {breach} {isOrder : β → Bool} {s : SimulationState β} {α γ : Type}

theorem Reaches.bind
    {p : StateProgram β α} {f : α → StateProgram β γ}
    (hp : Reaches breach p s) (hf : ∀ a, Reaches breach (f a) s) :
    Reaches breach (p >>= f) s :=
  fun t ht => (hp t ht).bind fun a u hu => hf a u hu

theorem reaches_pure (a : α) : Reaches breach (pure a) s :=
  fun _ ht => (meets_pure a).mpr ht

theorem reaches_raise (e : SimulationStateError) :
    Reaches breach (raise e : StateProgram β α) s :=
  fun _ ht => (meets_raise e).mpr ht

theorem reaches_read : Reaches breach (read : StateProgram β (SimulationState β)) s :=
  fun _ ht => meets_read.mpr ht

/-- One call, from its return, its error or its crash. -/
theorem reaches_program (call : StateCall β) : Reaches breach (call.program breach) s := by
  intro t ht
  have hstep : ∀ u, (call.program breach).Leaves t u → Reached breach s u :=
    fun u ⟨k, hk⟩ => ht.tail ⟨call, k, hk⟩
  exact (meets_leaves _ t).mono hstep (fun _ => hstep) (fun _ => hstep)

theorem reaches_claimRun (d : Nat) (seed : Int) : Reaches breach (claimRun breach d seed) s := by
  intro t ht
  have hprogram := (meets_bind _ _).mp (reaches_program (.claimRun d seed) t ht)
  exact hprogram.mono (fun _ h => h) (fun _ _ h => h.2) (fun _ _ h => h)

theorem reaches_recordEvents (events : List (SimulationEvent β)) :
    Reaches breach (recordEvents events) s :=
  reaches_program (.recordEvents events)

theorem reaches_sourceRunState (d : Nat) (source : SourceSystem) :
    Reaches breach (sourceRunState d source : StateProgram β SourceRunState) s := by
  refine reaches_read.bind fun t => ?_
  cases t.sourceRuns d source with
  | none => exact reaches_raise _
  | some run => exact reaches_pure _

theorem reaches_lastCompletedDate :
    Reaches breach (lastCompletedDate : StateProgram β Nat) s := by
  refine reaches_read.bind fun t => ?_
  cases t.lastCompleted with
  | none => exact reaches_raise _
  | some last => exact reaches_pure _

theorem reaches_recordedOr (known plan : List (SimulationEvent β)) :
    Reaches breach (recordedOr known plan) s := by
  rw [recordedOr]
  split
  · exact (reaches_recordEvents plan).bind fun _ => reaches_pure _
  · exact reaches_pure _

theorem reaches_runDay (work : DayWork β) (seed : Int) (d : Nat) :
    Reaches breach (runDay breach isOrder work seed d) s := by
  have hmark : ∀ source generated applied,
      Reaches breach (SimulationStateStore.markSourceApplied d source generated applied) s :=
    fun source generated applied => reaches_program (.markSourceApplied d source generated applied)
  have hcrm : Reaches breach (crmRun breach work d seed) s :=
    (reaches_claimRun d seed).bind fun _ => reaches_read.bind fun _ =>
      (reaches_recordedOr _ _).bind fun _ => hmark _ _ _
  have hops : Reaches breach (opsRun breach isOrder work d seed) s := by
    refine (reaches_claimRun d seed).bind fun _ => (reaches_sourceRunState d .crm).bind fun _ => ?_
    split
    · exact reaches_raise _
    · exact reaches_read.bind fun _ => (reaches_recordedOr _ _).bind fun _ =>
        (reaches_recordEvents _).bind fun _ => (reaches_recordEvents _).bind fun _ =>
          reaches_read.bind fun _ => hmark _ _ _
  have herp : Reaches breach (erpRun breach work d seed) s := by
    refine (reaches_claimRun d seed).bind fun _ => (reaches_sourceRunState d .ops).bind fun _ => ?_
    split
    · exact reaches_raise _
    · exact reaches_read.bind fun _ => (reaches_recordedOr _ _).bind fun _ =>
        (hmark _ _ _).bind fun _ => reaches_program (.completeRun d)
  refine hcrm.bind fun _ => hops.bind fun _ => herp.bind fun _ =>
    reaches_lastCompletedDate.bind fun last => ?_
  split
  · exact reaches_raise _
  · exact reaches_pure _

/-- Whatever a run of the scheduler leaves, ended or crashed anywhere, calls of
the store leave, each of them ended or crashed. -/
theorem reached_of_runThrough
    (work : Nat → DayWork β) {through : Nat} {seed : Int} {t : SimulationState β}
    (hleaves : (runThrough breach isOrder work through seed).Leaves s t) :
    Reached breach s t := by
  have hloop : ∀ dates : List Nat, Reaches breach
      (forEach (fun d => runDay breach isOrder (work d) seed d) dates) s := by
    intro dates
    induction dates with
    | nil => exact reaches_pure _
    | cons d dates ih => exact (reaches_runDay (work d) seed d).bind fun _ => ih
  have hdue : Reaches breach (dueDates through : StateProgram β (List Nat)) s :=
    reaches_lastCompletedDate.bind fun _ => reaches_pure _
  have hall : Reaches breach (runThrough breach isOrder work through seed) s :=
    hdue.bind fun dates => (hloop dates).bind fun _ => reaches_pure _
  exact (hall s Relation.ReflTransGen.refl).leaves hleaves

end Scheduler

/-! ## Two crashes -/

/-- The day after the watermark, crashed between the two updates of its
completion. -/
def crashedCompletion : SimulationState Unit :=
  (afterCalls (firstDay.take 4)).updateRunState 1 .completed

theorem crashedCompletion_recovers : Recovers noBreach (fun _ => false) crashedCompletion := by
  have hstep : ∀ (s t : SimulationState Unit) (call : StateCall Unit) (k : Nat),
      ClaimsWhole s call k → (call.program noBreach).Stops s k t → WholeClaimStep noBreach s t :=
    fun _ _ call k hcall hstops => ⟨call, k, hcall, hstops⟩
  have hclaim := Relation.ReflTransGen.single
    (hstep (initialized 0) (afterCalls (firstDay.take 1)) (.claimRun 1 0) 4
      (fun _ _ _ _ _ => .inr (Nat.le_refl 4)) rfl)
  have hcrm := hclaim.tail
    (hstep _ (afterCalls (firstDay.take 2)) (.markSourceApplied 1 .crm 0 0) 1 nofun rfl)
  have hops := hcrm.tail
    (hstep _ (afterCalls (firstDay.take 3)) (.markSourceApplied 1 .ops 0 0) 1 nofun rfl)
  have herp := hops.tail
    (hstep _ (afterCalls (firstDay.take 4)) (.markSourceApplied 1 .erp 0 0) 1 nofun rfl)
  have hcomplete := herp.tail (hstep _ crashedCompletion (.completeRun 1) 1 nofun rfl)
  exact (recovers_of_run hcomplete).1

/-- The first claim of the first day, crashed after its first insert. -/
theorem exists_wedged :
    ¬ ∀ (b : Nat) (s : SimulationState Unit),
      Relation.ReflTransGen (CrashStep noBreach) (initialized b) s →
        Recovers noBreach (fun _ => false) s := by
  intro h
  have hwedged : Wedged 0 .crm ((initialized 0 : SimulationState Unit).claiming 1 false 0) :=
    ⟨rfl, rfl, rfl⟩
  exact hwedged.not_recovers (h 0 _ (.single ⟨.claimRun 1 0, 1, rfl⟩))

end Simulator
end Northwind
