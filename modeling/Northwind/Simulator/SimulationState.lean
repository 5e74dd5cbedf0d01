import Mathlib.Data.List.Sort
import Northwind.Library.CrashPrograms

/-!
# The control store of the daily simulation

`SimulationStateStore` keeps the completion watermark, the run of every claimed
date with its three source runs, and the planned events.  No method opens a
transaction, so every statement commits on its own and is a write of its own;
several selects in a row are one read.

Dates are day ordinals.  A table with a primary key is the row of each key; the
source of a source run is one of three by the table's CHECK.  An event keeps
its id, date and source, and a body for the rest of its row.
-/

namespace Northwind
namespace Simulator

open CrashPrograms

inductive SourceSystem where
  | crm
  | ops
  | erp
deriving DecidableEq

/-- `SOURCES` -/
def sources : List SourceSystem :=
  [.crm, .ops, .erp]

theorem mem_sources (source : SourceSystem) : source ∈ sources := by
  cases source <;> decide

/-- `SOURCES[:source_index]` -/
def SourceSystem.preceding (source : SourceSystem) : List SourceSystem :=
  sources.takeWhile (· ≠ source)

inductive RunState where
  | inProgress
  | completed
deriving DecidableEq

inductive SourceRunState where
  | pending
  | applied
deriving DecidableEq

structure SimulationRun where
  state : RunState
  weeklySlaBreach : Bool
deriving DecidableEq

structure SourceRun where
  state : SourceRunState
  recordsGenerated : Int
  recordsApplied : Int
deriving DecidableEq

structure SimulationEvent (β : Type) where
  eventId : String
  businessDate : Nat
  source : SourceSystem
  body : β

/-- The two metadata rows and the three tables. -/
structure SimulationState (β : Type) where
  baseline : Option Nat
  lastCompleted : Option Nat
  runs : Nat → Option SimulationRun
  sourceRuns : Nat → SourceSystem → Option SourceRun
  events : List (SimulationEvent β)

/-- `noWatermark` is the TypeError of subscripting a missing row, `negativeCount`
a ValueError and `duplicateKey` the error of an INSERT on a key in use. -/
inductive SimulationStateError where
  | differentBaseline
  | notInitialized
  | noWatermark
  | claimedOutOfOrder
  | sourceNotClaimed
  | sourceOutOfOrder
  | negativeCount
  | completedOutOfOrder
  | sourcesPending
  | eventNotClaimed
  | duplicateKey
  | crmNotApplied
  | opsNotApplied
  | dateNotCompleted
deriving DecidableEq

def SimulationStateError.message : SimulationStateError → String
  | .differentBaseline => "simulation state already belongs to a different baseline date"
  | .notInitialized => "simulation state has not been initialized"
  | .noWatermark => "'NoneType' object is not subscriptable"
  | .claimedOutOfOrder => "simulation dates must be claimed in order"
  | .sourceNotClaimed => "source run has not been claimed"
  | .sourceOutOfOrder => "source systems must apply in CRM, Ops, ERP order"
  | .negativeCount => "record counts cannot be negative"
  | .completedOutOfOrder => "simulation dates must complete in order"
  | .sourcesPending => "all source systems must apply before completion"
  | .eventNotClaimed => "events may be recorded only for a claimed source run"
  | .duplicateKey => "Constraint Error: Duplicate key"
  | .crmNotApplied => "CRM must apply before Ops planning"
  | .opsNotApplied => "Ops must apply before ERP planning"
  | .dateNotCompleted => "ERP did not complete the simulation date"

abbrev StateProgram (β : Type) : Type → Type :=
  Program (SimulationState β) SimulationStateError

namespace SimulationState

variable {β : Type}

/-! ## Statements -/

/-- The store before its first `initialize`. -/
def empty : SimulationState β where
  baseline := none
  lastCompleted := none
  runs := fun _ => none
  sourceRuns := fun _ _ => none
  events := []

def setRun (s : SimulationState β) (runDate : Nat) (run : SimulationRun) :
    SimulationState β :=
  { s with runs := Function.update s.runs runDate (some run) }

def setSourceRun
    (s : SimulationState β) (runDate : Nat) (source : SourceSystem) (run : SourceRun) :
    SimulationState β :=
  { s with
    sourceRuns :=
      Function.update s.sourceRuns runDate
        (Function.update (s.sourceRuns runDate) source (some run)) }

/-- `UPDATE simulation_runs SET state = …`, which changes nothing where the date
has no row. -/
def updateRunState (s : SimulationState β) (runDate : Nat) (state : RunState) :
    SimulationState β :=
  { s with
    runs :=
      Function.update s.runs runDate
        ((s.runs runDate).map (fun run => { run with state := state })) }

/-- `INSERT INTO simulation_events … ON CONFLICT (event_id) DO NOTHING` -/
def insertEvent (s : SimulationState β) (event : SimulationEvent β) : SimulationState β :=
  if s.events.any (fun known => known.eventId = event.eventId) then s
  else { s with events := s.events ++ [event] }

/-- The source runs of a date that are there and not applied. -/
def pendingCount
    (s : SimulationState β) (runDate : Nat) (among : List SourceSystem) : Nat :=
  among.countP
    (fun source =>
      match s.sourceRuns runDate source with
      | some run => run.state ≠ .applied
      | none => false)

/-- The source-run rows of a date. -/
def sourceRowsOf (s : SimulationState β) (runDate : Nat) :
    List (SourceSystem × SourceRunState) :=
  sources.filterMap
    (fun source => (s.sourceRuns runDate source).map (fun run => (source, run.state)))

def runState (s : SimulationState β) (runDate : Nat) : Option RunState :=
  (s.runs runDate).map SimulationRun.state

/-- `events_through`, in the order of the event ids -/
def eventsThrough
    (s : SimulationState β) (throughDate : Nat) (source : SourceSystem) :
    List (SimulationEvent β) :=
  (s.events.filter
      (fun event => event.businessDate ≤ throughDate && event.source = source)).insertionSort
    (fun event event' => event.eventId ≤ event'.eventId)

/-- `events_for` -/
def eventsFor
    (s : SimulationState β) (runDate : Nat) (source : SourceSystem) :
    List (SimulationEvent β) :=
  (s.events.filter
      (fun event => event.businessDate = runDate && event.source = source)).insertionSort
    (fun event event' => event.eventId ≤ event'.eventId)

end SimulationState

/-! ## Methods -/

namespace SimulationStateStore

open Program

variable {β : Type}

/-- `INSERT INTO simulation_runs`, for a date not known to have a row -/
def insertRun (runDate : Nat) (run : SimulationRun) : StateProgram β PUnit := do
  let s ← read
  if (s.runs runDate).isSome then raise .duplicateKey
  else write (fun s => s.setRun runDate run)

def insertSourceRun (runDate : Nat) (source : SourceSystem) : StateProgram β PUnit := do
  let s ← read
  if (s.sourceRuns runDate source).isSome then raise .duplicateKey
  else write (fun s => s.setSourceRun runDate source ⟨.pending, 0, 0⟩)

/-- `last_completed_date` -/
def lastCompletedDate : StateProgram β Nat := do
  let s ← read
  match s.lastCompleted with
  | none => raise .notInitialized
  | some last => pure last

/-- The watermark as `claim_run` and `complete_run` fetch it. -/
def fetchWatermark : StateProgram β Nat := do
  let s ← read
  match s.lastCompleted with
  | none => raise .noWatermark
  | some last => pure last

def insertWatermark (baseline : Nat) : StateProgram β PUnit := do
  let s ← read
  if s.lastCompleted = none then
    write (fun s => { s with lastCompleted := some baseline })
  else pure ⟨⟩

/-- `initialize` -/
def initializeState (baseline : Nat) : StateProgram β PUnit := do
  let s ← read
  insertWatermark baseline
  match s.baseline with
  | none => write (fun s => { s with baseline := some baseline })
  | some known => if known ≠ baseline then raise .differentBaseline else pure ⟨⟩

/-- `due_dates` -/
def dueDates (throughDate : Nat) : StateProgram β (List Nat) := do
  let current ← lastCompletedDate
  pure ((List.range (throughDate - current)).map (fun day => current + 1 + day))

section Claim

-- `SimulationPolicy.is_weekly_sla_breach_date`
variable (isWeeklySlaBreachDate : Nat → Int → Bool)

/-- The four inserts of a date that is claimed for the first time. -/
def insertClaim (runDate : Nat) (seed : Int) : StateProgram β PUnit := do
  insertRun runDate ⟨.inProgress, isWeeklySlaBreachDate runDate seed⟩
  forEach (fun source => insertSourceRun runDate source) sources

/-- What `claim_run` does with the run row it finds. -/
def claimRow (runDate : Nat) (seed : Int) : Option RunState → StateProgram β Bool
  | some .completed => pure false
  | none => do
      insertClaim isWeeklySlaBreachDate runDate seed
      pure true
  | some .inProgress => do
      write (fun s => s.updateRunState runDate .inProgress)
      pure true

def claimRun (runDate : Nat) (seed : Int) : StateProgram β Bool := do
  let last ← fetchWatermark
  if last + 1 < runDate then raise .claimedOutOfOrder
  else do
    let s ← read
    claimRow isWeeklySlaBreachDate runDate seed (s.runState runDate)

end Claim

/-- The update of `mark_source_applied` -/
def applySource
    (runDate : Nat) (source : SourceSystem) (recordsGenerated recordsApplied : Int) :
    StateProgram β PUnit :=
  write
    (fun s =>
      s.setSourceRun runDate source ⟨.applied, recordsGenerated, recordsApplied⟩)

def markSourceApplied
    (runDate : Nat) (source : SourceSystem) (recordsGenerated recordsApplied : Int) :
    StateProgram β PUnit :=
  if recordsGenerated < 0 ∨ recordsApplied < 0 then raise .negativeCount
  else do
    let s ← read
    if s.sourceRuns runDate source = none then raise .sourceNotClaimed
    else if s.pendingCount runDate source.preceding ≠ 0 then raise .sourceOutOfOrder
    else applySource runDate source recordsGenerated recordsApplied

def completeRun (runDate : Nat) : StateProgram β PUnit := do
  let last ← fetchWatermark
  if runDate ≠ last + 1 then raise .completedOutOfOrder
  else do
    let s ← read
    if s.pendingCount runDate sources ≠ 0 then raise .sourcesPending
    else do
      write (fun s => s.updateRunState runDate .completed)
      write (fun s => { s with lastCompleted := some runDate })

def sourceRunState (runDate : Nat) (source : SourceSystem) :
    StateProgram β SourceRunState := do
  let s ← read
  match s.sourceRuns runDate source with
  | none => raise .sourceNotClaimed
  | some run => pure run.state

def recordEvent (event : SimulationEvent β) : StateProgram β PUnit := do
  let s ← read
  if s.sourceRuns event.businessDate event.source = none then raise .eventNotClaimed
  else write (fun s => s.insertEvent event)

def recordEvents (events : List (SimulationEvent β)) : StateProgram β PUnit :=
  forEach recordEvent events

end SimulationStateStore

/-! ## Rows -/

namespace SimulationState

variable {β : Type} {s t : SimulationState β} {d d' : Nat}

/-- A date with a run row and all three source-run rows. -/
def Claimed (s : SimulationState β) (runDate : Nat) : Prop :=
  (s.runs runDate).isSome ∧ ∀ source, (s.sourceRuns runDate source).isSome

/-- A date with no row at all. -/
def Unclaimed (s : SimulationState β) (runDate : Nat) : Prop :=
  s.runs runDate = none ∧ ∀ source, s.sourceRuns runDate source = none

def SourceApplied (s : SimulationState β) (runDate : Nat) (source : SourceSystem) : Prop :=
  ∃ run, s.sourceRuns runDate source = some run ∧ run.state = .applied

/-- Everything but the events is the same. -/
structure SameControl (s t : SimulationState β) : Prop where
  baseline : t.baseline = s.baseline
  lastCompleted : t.lastCompleted = s.lastCompleted
  runs : t.runs = s.runs
  sourceRuns : t.sourceRuns = s.sourceRuns

/-- Everything but the rows of one date is the same. -/
structure SameOutside (runDate : Nat) (s t : SimulationState β) : Prop where
  baseline : t.baseline = s.baseline
  lastCompleted : t.lastCompleted = s.lastCompleted
  runs : ∀ d, d ≠ runDate → t.runs d = s.runs d
  sourceRuns : ∀ d, d ≠ runDate → t.sourceRuns d = s.sourceRuns d
  events : t.events = s.events

/-- The run row of a first claim and its first `k` source-run rows. -/
def claiming
    (s : SimulationState β) (runDate : Nat) (weeklySlaBreach : Bool) (k : Nat) :
    SimulationState β :=
  (sources.take k).foldl
    (fun t source => t.setSourceRun runDate source ⟨.pending, 0, 0⟩)
    (s.setRun runDate ⟨.inProgress, weeklySlaBreach⟩)

theorem SameControl.refl (s : SimulationState β) : SameControl s s :=
  ⟨rfl, rfl, rfl, rfl⟩

theorem SameOutside.refl (d : Nat) (s : SimulationState β) : SameOutside d s s :=
  ⟨rfl, rfl, fun _ _ => rfl, fun _ _ => rfl, rfl⟩

theorem SameOutside.trans
    {u : SimulationState β} (h : SameOutside d s t) (h' : SameOutside d t u) :
    SameOutside d s u where
  baseline := h'.baseline.trans h.baseline
  lastCompleted := h'.lastCompleted.trans h.lastCompleted
  runs d₁ hne := (h'.runs d₁ hne).trans (h.runs d₁ hne)
  sourceRuns d₁ hne := (h'.sourceRuns d₁ hne).trans (h.sourceRuns d₁ hne)
  events := h'.events.trans h.events

theorem sameOutside_setRun (s : SimulationState β) (d : Nat) (run : SimulationRun) :
    SameOutside d s (s.setRun d run) :=
  ⟨rfl, rfl, fun _ hne => Function.update_of_ne hne _ _, fun _ _ => rfl, rfl⟩

theorem sameOutside_setSourceRun
    (s : SimulationState β) (d : Nat) (source : SourceSystem) (run : SourceRun) :
    SameOutside d s (s.setSourceRun d source run) :=
  ⟨rfl, rfl, fun _ _ => rfl, fun _ hne => Function.update_of_ne hne _ _, rfl⟩

theorem sameOutside_updateRunState
    (s : SimulationState β) (d : Nat) (state : RunState) :
    SameOutside d s (s.updateRunState d state) :=
  ⟨rfl, rfl, fun _ hne => Function.update_of_ne hne _ _, fun _ _ => rfl, rfl⟩

theorem sameControl_insertEvent
    (s : SimulationState β) (event : SimulationEvent β) :
    SameControl s (s.insertEvent event) := by
  rw [insertEvent]
  split
  · exact SameControl.refl s
  · exact ⟨rfl, rfl, rfl, rfl⟩

theorem SameControl.trans
    {u : SimulationState β} (h : SameControl s t) (h' : SameControl t u) :
    SameControl s u :=
  ⟨h'.baseline.trans h.baseline, h'.lastCompleted.trans h.lastCompleted,
    h'.runs.trans h.runs, h'.sourceRuns.trans h.sourceRuns⟩

/-- Setting the state a run already has changes nothing. -/
theorem updateRunState_self {state : RunState} (h : s.runState d = some state) :
    s.updateRunState d state = s := by
  obtain ⟨run, hrun, rfl⟩ := Option.map_eq_some_iff.mp h
  have hupdate :
      Function.update s.runs d ((s.runs d).map (fun r => { r with state := run.state })) =
        s.runs := by
    rw [hrun]
    exact Function.update_eq_self_iff.mpr hrun.symm
  rw [updateRunState, hupdate]

theorem setSourceRun_sourceRuns_self
    (s : SimulationState β) (d : Nat) (source : SourceSystem) (run : SourceRun) :
    (s.setSourceRun d source run).sourceRuns d source = some run := by
  simp [setSourceRun]

theorem setSourceRun_sourceRuns_of_ne
    {source source' : SourceSystem} {run : SourceRun} (hne : source' ≠ source) :
    (s.setSourceRun d source run).sourceRuns d source' = s.sourceRuns d source' := by
  simp [setSourceRun, hne]

theorem pendingCount_eq_zero_iff {among : List SourceSystem} :
    s.pendingCount d among = 0 ↔
      ∀ source, source ∈ among → ∀ run,
        s.sourceRuns d source = some run → run.state = .applied := by
  rw [pendingCount, List.countP_eq_zero]
  constructor
  · intro h source hmem run hrun
    simpa [hrun] using h source hmem
  · intro h source hmem
    cases hrun : s.sourceRuns d source with
    | none => simp
    | some run => simpa using h source hmem run hrun

theorem pendingCount_of_applied
    {among : List SourceSystem}
    (h : ∀ source, source ∈ among → s.SourceApplied d source) :
    s.pendingCount d among = 0 := by
  rw [pendingCount_eq_zero_iff]
  intro source hmem run hrun
  obtain ⟨run', hrun', hstate⟩ := h source hmem
  obtain rfl : run = run' := Option.some.inj (hrun.symm.trans hrun')
  exact hstate

theorem sourceRowsOf_eq_applied_iff :
    s.sourceRowsOf d = [(.crm, .applied), (.ops, .applied), (.erp, .applied)] ↔
      ∀ source, s.SourceApplied d source := by
  constructor
  · intro h source
    have hmem : (source, SourceRunState.applied) ∈ s.sourceRowsOf d := by
      rw [h]
      cases source <;> decide
    obtain ⟨source', _, hrow⟩ := List.mem_filterMap.mp hmem
    obtain ⟨run, hrun, hpair⟩ := Option.map_eq_some_iff.mp hrow
    obtain ⟨rfl, hstate⟩ := Prod.mk.inj hpair
    exact ⟨run, hrun, hstate⟩
  · intro h
    obtain ⟨crm, hcrm, hcrmState⟩ := h .crm
    obtain ⟨ops, hops, hopsState⟩ := h .ops
    obtain ⟨erp, herp, herpState⟩ := h .erp
    simp [sourceRowsOf, sources, hcrm, hops, herp, hcrmState, hopsState, herpState]

theorem foldl_setSourceRun (row : SourceRun) (rest : List SourceSystem) :
    let t := rest.foldl (fun t source => t.setSourceRun d source row) s
    t.runs = s.runs ∧
      ∀ source, t.sourceRuns d source =
        if source ∈ rest then some row else s.sourceRuns d source := by
  induction rest generalizing s with
  | nil => simp
  | cons source rest ih =>
      obtain ⟨hruns, hrows⟩ := ih (s := s.setSourceRun d source row)
      refine ⟨hruns, fun source' => (hrows source').trans ?_⟩
      by_cases hsource : source' = source
      · subst hsource
        simp [setSourceRun_sourceRuns_self]
      · simp [hsource, setSourceRun_sourceRuns_of_ne hsource]

theorem claiming_runs (breach : Bool) (k : Nat) :
    (s.claiming d breach k).runs d = some ⟨.inProgress, breach⟩ := by
  rw [claiming, (foldl_setSourceRun _ _).1]
  simp [setRun]

theorem claiming_sourceRuns (breach : Bool) (k : Nat) (source : SourceSystem) :
    (s.claiming d breach k).sourceRuns d source =
      if source ∈ sources.take k then some ⟨.pending, 0, 0⟩ else s.sourceRuns d source :=
  (foldl_setSourceRun _ _).2 source

theorem sameOutside_claiming (s : SimulationState β) (d : Nat) (breach : Bool) (k : Nat) :
    SameOutside d s (s.claiming d breach k) := by
  have hfold : ∀ (rest : List SourceSystem) (t : SimulationState β), SameOutside d s t →
      SameOutside d s
        (rest.foldl (fun t source => t.setSourceRun d source ⟨.pending, 0, 0⟩) t) := by
    intro rest
    induction rest with
    | nil => exact fun _ h => h
    | cons source rest ih =>
        exact fun t h => ih _ (h.trans (sameOutside_setSourceRun t d source _))
  exact hfold _ _ (sameOutside_setRun s d _)

theorem claimed_claiming (s : SimulationState β) (d : Nat) (breach : Bool) :
    (s.claiming d breach 3).Claimed d := by
  refine ⟨by rw [claiming_runs]; rfl, fun source => ?_⟩
  have hmem : source ∈ sources.take 3 := mem_sources source
  rw [claiming_sourceRuns, if_pos hmem]
  rfl

end SimulationState

/-! ## Specifications -/

namespace SimulationStateStore

open Program SimulationState

variable {β : Type} {s : SimulationState β} {d : Nat}
variable {I : SimulationState β → Prop} {E : SimulationStateError → SimulationState β → Prop}

theorem meets_fetchWatermark {Q : Nat → SimulationState β → Prop} :
    fetchWatermark.Meets I Q E s ↔
      (∀ w, s.lastCompleted = some w → Q w s) ∧
        (s.lastCompleted = none → E .noWatermark s) := by
  rw [fetchWatermark, meets_bind, meets_read]
  cases s.lastCompleted with
  | none => simp
  | some w => simp

/-- The inserts of a first claim change the rows of its date only. -/
theorem insertClaim_sameOutside (breach : Nat → Int → Bool) (d : Nat) (seed : Int) :
    (insertClaim breach d seed).Meets (SameOutside d s)
      (fun _ => SameOutside d s) (fun _ => SameOutside d s) s := by
  have hsource : ∀ source (t : SimulationState β), SameOutside d s t →
      (insertSourceRun d source).Meets (SameOutside d s)
        (fun _ => SameOutside d s) (fun _ => SameOutside d s) t := by
    intro source t ht
    simp only [insertSourceRun, meets_bind, meets_read, meets_ite, meets_raise, meets_write]
    exact ⟨fun _ => ht, fun _ => ⟨ht, ht.trans (sameOutside_setSourceRun t d source _)⟩⟩
  have hrefl := SameOutside.refl d s
  simp only [insertClaim, insertRun, meets_bind, meets_read, meets_ite, meets_raise,
    meets_write]
  refine ⟨fun _ => hrefl, fun _ => ⟨hrefl, ?_⟩⟩
  exact meets_forEach (fun _ => SameOutside d s) (fun source _ t => hsource source t)
    sources (sameOutside_setRun s d _)

theorem insertRun_of_none {run : SimulationRun} (h : s.runs d = none) :
    insertRun d run s = ⟨[s], s.setRun d run, .ok ⟨⟩⟩ := by
  rw [insertRun, run_bind_ok (run_read s), if_neg (by simp [h]), run_write]
  rfl

theorem insertSourceRun_of_none {source : SourceSystem} (h : s.sourceRuns d source = none) :
    insertSourceRun d source s =
      ⟨[s], s.setSourceRun d source ⟨.pending, 0, 0⟩, .ok ⟨⟩⟩ := by
  rw [insertSourceRun, run_bind_ok (run_read s), if_neg (by simp [h]), run_write]
  rfl

/-- The run of a first claim: four inserts, and a state between any two. -/
theorem claimRun_of_unclaimed
    (breach : Nat → Int → Bool) (seed : Int) {w : Nat}
    (hw : s.lastCompleted = some w) (hd : d ≤ w + 1) (hs : s.Unclaimed d) :
    claimRun breach d seed s =
      ⟨[s, s.claiming d (breach d seed) 0, s.claiming d (breach d seed) 1,
          s.claiming d (breach d seed) 2],
        s.claiming d (breach d seed) 3, .ok true⟩ := by
  have hwatermark : fetchWatermark s = ⟨[], s, .ok w⟩ := by
    rw [fetchWatermark, run_bind_ok (run_read s), hw]
    rfl
  have hrow : s.runState d = none := by
    rw [runState, hs.1, Option.map_none]
  have hfree : ∀ k source, source ∉ sources.take k →
      (s.claiming d (breach d seed) k).sourceRuns d source = none := by
    intro k source hsource
    rw [claiming_sourceRuns, if_neg hsource, hs.2 source]
  have hinsert : ∀ k source, source ∉ sources.take k →
      insertSourceRun d source (s.claiming d (breach d seed) k) =
        ⟨[s.claiming d (breach d seed) k],
          (s.claiming d (breach d seed) k).setSourceRun d source ⟨.pending, 0, 0⟩, .ok ⟨⟩⟩ :=
    fun k source hsource => insertSourceRun_of_none (hfree k source hsource)
  have hcrm : insertSourceRun d .crm (s.claiming d (breach d seed) 0) =
      ⟨[s.claiming d (breach d seed) 0], s.claiming d (breach d seed) 1, .ok ⟨⟩⟩ :=
    hinsert 0 .crm (by decide)
  have hops : insertSourceRun d .ops (s.claiming d (breach d seed) 1) =
      ⟨[s.claiming d (breach d seed) 1], s.claiming d (breach d seed) 2, .ok ⟨⟩⟩ :=
    hinsert 1 .ops (by decide)
  have herp : insertSourceRun d .erp (s.claiming d (breach d seed) 2) =
      ⟨[s.claiming d (breach d seed) 2], s.claiming d (breach d seed) 3, .ok ⟨⟩⟩ :=
    hinsert 2 .erp (by decide)
  have hsources :
      forEach (fun source => insertSourceRun d source) sources
          (s.claiming d (breach d seed) 0) =
        ⟨[s.claiming d (breach d seed) 0, s.claiming d (breach d seed) 1,
          s.claiming d (breach d seed) 2], s.claiming d (breach d seed) 3, .ok ⟨⟩⟩ := by
    rw [sources, forEach, run_bind_ok hcrm, forEach, run_bind_ok hops, forEach,
      run_bind_ok herp, forEach, run_pure]
    rfl
  have hclaim :
      insertClaim breach d seed s =
        ⟨[s, s.claiming d (breach d seed) 0, s.claiming d (breach d seed) 1,
          s.claiming d (breach d seed) 2], s.claiming d (breach d seed) 3, .ok ⟨⟩⟩ := by
    have hrun : insertRun d ⟨.inProgress, breach d seed⟩ s =
        ⟨[s], s.claiming d (breach d seed) 0, .ok ⟨⟩⟩ := insertRun_of_none hs.1
    rw [insertClaim, run_bind_ok hrun, hsources]
    rfl
  rw [claimRun, run_bind_ok hwatermark, if_neg (by omega), run_bind_ok (run_read s), hrow,
    claimRow, run_bind_ok hclaim, run_pure]
  rfl

/-- A claim changes the rows of its date only. -/
theorem claimRun_sameOutside (breach : Nat → Int → Bool) (d : Nat) (seed : Int) :
    (claimRun breach d seed).Meets (SameOutside d s)
      (fun _ => SameOutside d s) (fun _ => SameOutside d s) s := by
  have hrefl := SameOutside.refl d s
  rw [claimRun, meets_bind, meets_fetchWatermark]
  refine ⟨fun w hw => ?_, fun _ => hrefl⟩
  simp only [meets_ite, meets_raise, meets_bind, meets_read]
  refine ⟨fun _ => hrefl, fun _ => ?_⟩
  cases hrow : s.runState d with
  | none =>
      rw [claimRow, meets_bind]
      exact (insertClaim_sameOutside breach d seed).mono
        (fun _ h => h) (fun _ _ h => (meets_pure true).mpr h) (fun _ _ h => h)
  | some state =>
      cases state with
      | completed => exact (meets_pure false).mpr hrefl
      | inProgress =>
          simp only [claimRow, meets_bind, meets_write, meets_pure]
          exact ⟨hrefl, sameOutside_updateRunState s d .inProgress⟩

theorem meets_claimRun_of_later
    {breach : Nat → Int → Bool} {seed : Int} {w : Nat} {Q : Bool → SimulationState β → Prop}
    (hw : s.lastCompleted = some w) (hd : w + 1 < d) (hE : E .claimedOutOfOrder s) :
    (claimRun breach d seed).Meets I Q E s := by
  rw [claimRun, meets_bind, meets_fetchWatermark]
  refine ⟨?_, fun hnone => absurd (hw.symm.trans hnone) (Option.some_ne_none w)⟩
  intro w' hw'
  obtain rfl : w = w' := Option.some.inj (hw.symm.trans hw')
  rw [if_pos hd, meets_raise]
  exact hE

/-- A date with a run row is claimed again without a change. -/
theorem meets_claimRun_of_runState
    {breach : Nat → Int → Bool} {seed : Int} {w : Nat} {state : RunState}
    {Q : Bool → SimulationState β → Prop}
    (hw : s.lastCompleted = some w) (hd : d ≤ w + 1) (hstate : s.runState d = some state)
    (hI : state ≠ .completed → I s) (hQ : ∀ claimed, Q claimed s) :
    (claimRun breach d seed).Meets I Q E s := by
  rw [claimRun, meets_bind, meets_fetchWatermark]
  refine ⟨?_, fun hnone => absurd (hw.symm.trans hnone) (Option.some_ne_none w)⟩
  intro w' hw'
  obtain rfl : w = w' := Option.some.inj (hw.symm.trans hw')
  rw [if_neg (by omega), meets_bind, meets_read, hstate]
  cases state with
  | completed => exact (meets_pure false).mpr (hQ false)
  | inProgress =>
      simp only [claimRow, meets_bind, meets_write, meets_pure, updateRunState_self hstate]
      exact ⟨hI (by decide), hQ true⟩

/-- A source is marked only where its row is, and an error changes nothing. -/
theorem meets_markSourceApplied
    {source : SourceSystem} {generated applied : Int}
    {Q : PUnit → SimulationState β → Prop}
    (hI : I s) (hE : ∀ e, E e s)
    (hQ : (s.sourceRuns d source).isSome →
      Q ⟨⟩ (s.setSourceRun d source ⟨.applied, generated, applied⟩)) :
    (markSourceApplied d source generated applied).Meets I Q E s := by
  simp only [markSourceApplied, applySource, meets_ite, meets_raise, meets_bind, meets_read,
    meets_write]
  refine ⟨fun _ => hE _, fun _ => ⟨fun _ => hE _, fun hrow => ⟨fun _ => hE _, fun _ => ?_⟩⟩⟩
  exact ⟨hI, hQ (Option.isSome_iff_ne_none.mpr hrow)⟩

/-- A source whose row is there, with the preceding ones applied, is marked. -/
theorem meets_markSourceApplied_of_applied
    {source : SourceSystem} {generated applied : Int}
    {Q : PUnit → SimulationState β → Prop}
    (hgenerated : 0 ≤ generated) (happlied : 0 ≤ applied)
    (hrow : (s.sourceRuns d source).isSome)
    (hpreceding : ∀ source', source' ∈ source.preceding → s.SourceApplied d source')
    (hI : I s) (hQ : Q ⟨⟩ (s.setSourceRun d source ⟨.applied, generated, applied⟩)) :
    (markSourceApplied d source generated applied).Meets I Q E s := by
  have hcount := pendingCount_of_applied hpreceding
  rw [markSourceApplied, if_neg (by omega), meets_bind, meets_read,
    if_neg (Option.isSome_iff_ne_none.mp hrow), if_neg (by omega)]
  exact (meets_write _).mpr ⟨hI, hQ⟩

/-- What a completed `complete_run` has checked, and its two updates. -/
theorem meets_completeRun
    {Q : PUnit → SimulationState β → Prop} (hE : ∀ e, E e s)
    (h : ∀ w, s.lastCompleted = some w → d = w + 1 → s.pendingCount d sources = 0 →
      I s ∧ I (s.updateRunState d .completed) ∧
        Q ⟨⟩ { s.updateRunState d .completed with lastCompleted := some d }) :
    (completeRun d).Meets I Q E s := by
  rw [completeRun, meets_bind, meets_fetchWatermark]
  refine ⟨fun w hw => ?_, fun _ => hE _⟩
  simp only [meets_ite, meets_raise, meets_bind, meets_read, meets_write]
  refine ⟨fun _ => hE _, fun hd => ⟨fun _ => hE _, fun hcount => ?_⟩⟩
  obtain ⟨hs, hupdate, hend⟩ := h w hw (not_not.mp hd) (not_not.mp hcount)
  exact ⟨hs, hupdate, hend⟩

theorem meets_completeRun_of_pendingCount
    {w : Nat} {Q : PUnit → SimulationState β → Prop}
    (hw : s.lastCompleted = some w) (hd : d = w + 1) (hcount : s.pendingCount d sources = 0)
    (hI : I s) (hupdate : I (s.updateRunState d .completed))
    (hQ : Q ⟨⟩ { s.updateRunState d .completed with lastCompleted := some d }) :
    (completeRun d).Meets I Q E s := by
  rw [completeRun, meets_bind, meets_fetchWatermark]
  refine ⟨?_, fun hnone => absurd (hw.symm.trans hnone) (Option.some_ne_none w)⟩
  intro w' hw'
  obtain rfl : w = w' := Option.some.inj (hw.symm.trans hw')
  rw [if_neg (not_not.mpr hd), meets_bind, meets_read, if_neg (not_not.mpr hcount)]
  simp only [meets_bind, meets_write]
  exact ⟨hI, hupdate, hQ⟩

/-- Recording changes the events only, whether it ends or raises. -/
theorem recordEvents_sameControl (events : List (SimulationEvent β)) :
    (recordEvents events).Meets (SameControl s)
      (fun _ => SameControl s) (fun _ => SameControl s) s := by
  refine meets_forEach (fun _ => SameControl s) ?_ events (SameControl.refl s)
  intro event _ t ht
  simp only [recordEvent, meets_bind, meets_read, meets_ite, meets_raise, meets_write]
  exact ⟨fun _ => ht, fun _ => ⟨ht, ht.trans (sameControl_insertEvent t event)⟩⟩

/-- Events of claimed source runs are all recorded. -/
theorem recordEvents_of_claimed
    {events : List (SimulationEvent β)}
    (hclaimed : ∀ event, event ∈ events →
      (s.sourceRuns event.businessDate event.source).isSome) :
    (recordEvents events).Meets (SameControl s)
      (fun _ => SameControl s) (fun _ _ => False) s := by
  refine (meets_forEach
    (fun rest t => SameControl s t ∧ ∀ event, event ∈ rest → event ∈ events) ?_
    events ⟨SameControl.refl s, fun _ h => h⟩).mono (fun _ h => h) (fun _ _ h => h.1) (fun _ _ h => h)
  rintro event rest t ⟨ht, hrest⟩
  have hrow := hclaimed event (hrest event List.mem_cons_self)
  rw [← ht.sourceRuns, Option.isSome_iff_ne_none] at hrow
  rw [recordEvent, meets_bind, meets_read, if_neg hrow, meets_write]
  exact ⟨ht, ht.trans (sameControl_insertEvent t event),
    fun event' hmem => hrest event' (List.mem_cons_of_mem _ hmem)⟩

/-- An initialized store is not changed by initializing it again. -/
theorem meets_initializeState
    {b w baseline : Nat} {Q : PUnit → SimulationState β → Prop}
    (hbaseline : s.baseline = some b) (hw : s.lastCompleted = some w)
    (hQ : Q ⟨⟩ s) (hE : E .differentBaseline s) :
    (initializeState baseline).Meets I Q E s := by
  simp only [initializeState, insertWatermark, meets_bind, meets_read, hw, reduceCtorEq,
    if_false, meets_pure, hbaseline, meets_ite, meets_raise]
  exact ⟨fun _ => hE, fun _ => hQ⟩

end SimulationStateStore
end Simulator
end Northwind
