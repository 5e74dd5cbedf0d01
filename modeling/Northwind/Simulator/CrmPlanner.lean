import Northwind.Simulator.CrmEvents

/-!
# Planning the stage events of one day

`stageEvents` selects open opportunities, stalls the first few and moves the
others one stage on.

The random generator, the digest of an event id and the rounded shares of the
policy are parameters of the planner.
-/

namespace Northwind
namespace Simulator

/-- `OPEN_STAGES` -/
def openStages : List String :=
  ["Prospecting", "Qualification", "Proposal", "Negotiation"]

/-- `STAGE_SUCCESSOR` -/
def stageSuccessor : List (String × String) :=
  [("Prospecting", "Qualification"), ("Qualification", "Proposal"),
    ("Proposal", "Negotiation"), ("Negotiation", "Closed Won")]

/-- `row.get("StageName") in OPEN_STAGES` -/
def isOpen (r : Row) : Bool :=
  match r "StageName" with
  | some (.text stage) => stage ∈ openStages
  | _ => false

/-- `bool(value)` of a cell. -/
def truthy : Option Value → Bool
  | none => false
  | some (.text s) => s ≠ ""
  | some (.number n) => n ≠ 0
  | some (.flag b) => b

theorem take_subperm (rows : List Row) (n : Nat) : (rows.take n).Subperm rows :=
  (List.take_sublist n rows).subperm

structure CrmDailyPlanner where
  /-- `SimulationPolicy.proportional_daily_volume` -/
  proportionalDailyVolume : Nat → Nat
  /-- `round(n * anomalies.stalled_opportunity)` -/
  stalledOpportunities : Nat → Nat
  /-- `random.Random.sample` -/
  sample : List Row → Nat → List Row
  sample_subperm : ∀ rows n, (sample rows n).Subperm rows
  /-- The digest of `SourceEvent.create`: date, event type, entity and payload. -/
  digest : String → String → String → Payload → String

namespace CrmDailyPlanner

variable (planner : CrmDailyPlanner)

/-- `CrmDailyPlanner._timestamp` -/
def timestamp (runDate : String) : String :=
  runDate ++ "T08:00:00.000+0000"

/-- `SourceEvent.create` of a CRM event. -/
def create (runDate eventType entityId : String) (payload : Payload) : SourceEvent where
  eventId := planner.digest runDate eventType entityId payload
  sourceSystem := "crm"
  eventType := eventType
  entityId := entityId
  payload := payload

/-- The entries every stage event has. -/
def stagePayload (runDate stage : String) (r : Row) : Payload :=
  [("StageName", some (.text stage)),
    ("LastModifiedById", some (.text
      (if truthy (r "OwnerId") then cellText (r "OwnerId") else "REP-0001"))),
    ("LastModifiedDate", some (.text (timestamp runDate))),
    ("SystemModstamp", some (.text (timestamp runDate)))]

def stalledEvent (runDate : String) (r : Row) : SourceEvent :=
  planner.create runDate "opportunity_stalled" (cellText (r "Id"))
    (stagePayload runDate (cellText (r "StageName")) r)

def stageChangedEvent (runDate : String) (r : Row) : SourceEvent :=
  let nextStage := (stageSuccessor.lookup (cellText (r "StageName"))).getD ""
  let account : Payload :=
    if truthy (r "AccountId") then [("AccountId", some (.text (cellText (r "AccountId"))))]
    else []
  let closing : Payload :=
    if nextStage = "Closed Won" then
      [("Probability", some (.number 100)), ("CloseDate", some (.text runDate))]
    else []
  planner.create runDate "opportunity_stage_changed" (cellText (r "Id"))
    (stagePayload runDate nextStage r ++ account ++ closing)

/-- `CrmDailyPlanner._stage_events` -/
def stageEvents (runDate : String) (opportunities : List Row)
    (openOpportunityPopulation : Option Nat) : List SourceEvent :=
  let openRows := opportunities.filter isOpen
  if openRows.isEmpty then []
  else
    let population := openOpportunityPopulation.getD openRows.length
    let transitionCount := max 1 (planner.proportionalDailyVolume population)
    let selected := planner.sample openRows (min transitionCount openRows.length)
    let stalledCount :=
      min selected.length (max 1 (planner.stalledOpportunities selected.length))
    let stalledIds := (selected.take stalledCount).map (fun r => cellText (r "Id"))
    selected.map (fun r =>
      if cellText (r "Id") ∈ stalledIds then planner.stalledEvent runDate r
      else planner.stageChangedEvent runDate r)

/-! ## What is planned -/

/-- An open row has one of the stages with a successor. -/
theorem exists_successor_of_isOpen {r : Row} (h : isOpen r = true) :
    ∃ stage next, r "StageName" = some (.text stage) ∧
      stageSuccessor.lookup stage = some next := by
  unfold isOpen at h
  split at h
  · rename_i stage hstage
    have hsuccessor : ∀ s ∈ openStages, (stageSuccessor.lookup s).isSome = true := by
      decide
    obtain ⟨next, hnext⟩ := Option.isSome_iff_exists.mp
      (hsuccessor stage (by simpa using h))
    exact ⟨stage, next, hstage, hnext⟩
  · cases h

/-- A planned stage change is the change of an open row of the snapshot. -/
theorem exists_row_of_stageChanged
    {runDate : String} {opportunities : List Row} {population : Option Nat}
    {event : SourceEvent}
    (hevent : event ∈ planner.stageEvents runDate opportunities population)
    (htype : event.eventType = "opportunity_stage_changed") :
    ∃ r ∈ opportunities, isOpen r = true ∧ event = planner.stageChangedEvent runDate r := by
  simp only [stageEvents] at hevent
  split at hevent
  · cases hevent
  · obtain ⟨r, hr, hmade⟩ := List.mem_map.mp hevent
    obtain ⟨hmem, hopen⟩ := List.mem_filter.mp ((planner.sample_subperm _ _).subset hr)
    refine ⟨r, hmem, hopen, ?_⟩
    split at hmade
    · rw [← hmade] at htype
      change "opportunity_stalled" = "opportunity_stage_changed" at htype
      exact absurd htype (by decide)
    · exact hmade.symm

theorem lookup_stageName_stageChanged
    (runDate : String) {r : Row} {stage next : String}
    (hstage : r "StageName" = some (.text stage))
    (hnext : stageSuccessor.lookup stage = some next) :
    (planner.stageChangedEvent runDate r).payload.lookup "StageName" =
      some (some (.text next)) := by
  simp [stageChangedEvent, create, stagePayload, hstage, cellText, hnext]

end CrmDailyPlanner

end Simulator
end Northwind
