import Northwind.Simulator.DayRecovery
import Northwind.Simulator.ErpPostings

/-!
# The three source runs of a day and their stores

`CrmRun`, `OpsRun` and `ErpRun` work on the control store, the Ops database and
the ERP database.  A statement of the control store commits on its own; what an
applier does is one transaction.  A crash may fall before any of these writes.

The CRM planner is a parameter: it reads CRM files, which change only after the
events of a date are recorded.  The CRM publisher and the reconciler write to
none of the three stores; where one of them raises, it leaves what a crash
before the next write leaves.
-/

namespace Northwind
namespace Simulator

open CrashPrograms CrashPrograms.Program SimulationStateStore

structure Stores where
  control : SimulationState EventBody
  ops : OpsDatabase
  erp : ErpDatabase

inductive RunError where
  | control (error : SimulationStateError)
  | ops (error : OpsError)
  | erp (error : ErpError)
deriving DecidableEq

abbrev RunProgram : Type → Type :=
  Program Stores RunError

def inControl {α : Type} (p : StateProgram EventBody α) : RunProgram α :=
  onPart Stores.control (fun control stores => { stores with control := control })
    RunError.control p

/-- A connection to the Ops database: commit, or roll back on an error. -/
def inOps {α : Type} (p : OpsProgram α) : RunProgram α :=
  onPart Stores.ops (fun ops stores => { stores with ops := ops }) RunError.ops
    (transaction p)

/-- A connection to the ERP database: commit, or roll back on an error. -/
def inErp {α : Type} (p : ErpProgram α) : RunProgram α :=
  onPart Stores.erp (fun erp stores => { stores with erp := erp }) RunError.erp
    (transaction p)

section

variable (policy : SimulationPolicy) (sha256 : Sha256)

/-! ## CRM -/

namespace CrmRun

-- `CrmDailyPlanner.plan` on the CRM files of a date
variable (crmPlan : Nat → List CrmChange)

/-- The planned events of a date. -/
def plan (runDate : Nat) : List BusinessEvent :=
  (crmPlan runDate).map (fun change => sha256.createEvent runDate (.crmChange change))

/-- `CrmRun.run` -/
def run (runDate : Nat) (seed : Int) : RunProgram PUnit := do
  let _ ← inControl (claimRun policy.isWeeklySlaBreachDate runDate seed)
  let stores ← read
  let events ← inControl
    (recordedOr (stores.control.eventsFor runDate .crm) (plan sha256 crmPlan runDate))
  inControl (markSourceApplied runDate .crm events.length events.length)

end CrmRun

/-! ## Ops -/

namespace OpsRun

def isOrderCreated (event : BusinessEvent) : Bool :=
  match event.body with
  | .orderCreated _ => true
  | _ => false

/-- The event types of the second transaction. -/
def isFulfillment (event : BusinessEvent) : Bool :=
  match event.body with
  | .shipmentCreated _ | .shipmentDelivered _ | .invoiceCreated _
  | .supportCaseOpened _ | .supportCaseResolved _ | .supportCaseClosed _ => true
  | _ => false

/-- `entity_id` of a CRM event -/
def entityIds (events : List BusinessEvent) : List String :=
  events.map (fun event => event.body.entityId)

/-- The opportunities among the given ones that have an order. -/
def converted (db : OpsDatabase) (opportunityRefs : List String) : List String :=
  (db.orders.filterMap OrderRow.opportunityRef).filter (· ∈ opportunityRefs)

/-- `_read_snapshot` and `OpsDailyPlanner.plan` -/
def planOrders (runDate : Nat) (stores : Stores) : List BusinessEvent :=
  let crmEvents := stores.control.eventsThrough runDate .crm
  OpsDailyPlanner.plan policy sha256 runDate crmEvents
    (converted stores.ops (entityIds crmEvents))
    (nextId (stores.ops.orders.map OrderRow.orderId))

def orderIds (events : List BusinessEvent) : List Nat :=
  events.filterMap
    (fun event =>
      match event.body with
      | .orderCreated order => some order.orderId
      | _ => none)

def shipped (db : OpsDatabase) (orderIds : List Nat) : List Nat :=
  (db.shipments.map ShipmentRow.orderId).filter (· ∈ orderIds)

def invoiced (db : OpsDatabase) (orderIds : List Nat) : List Nat :=
  (db.invoices.map InvoiceRow.orderId).filter (· ∈ orderIds)

def delivered (db : OpsDatabase) (orderIds : List Nat) : List Nat :=
  (db.shipments.filter
      (fun row => row.orderId ∈ orderIds && row.deliveredDate.isSome)).map
    ShipmentRow.shipmentId

/-- `_plan_fulfillment` -/
def planFulfillment (runDate : Nat) (stores : Stores) : List BusinessEvent :=
  let events := stores.control.eventsThrough runDate .ops
  FulfillmentPlanner.plan policy sha256 runDate events
    (shipped stores.ops (orderIds events)) (invoiced stores.ops (orderIds events))
    (delivered stores.ops (orderIds events))
    (nextId (stores.ops.shipments.map ShipmentRow.shipmentId))

/-- `_plan_support_cases` -/
def planSupportCases (runDate : Nat) (stores : Stores) : List BusinessEvent :=
  SupportCasePlanner.plan sha256 runDate (stores.control.eventsThrough runDate .ops)
    (nextId (stores.ops.supportCases.map SupportCaseRow.caseId))

/-- The order events of a date, recorded, and planned first where there is none. -/
def recordOrders (runDate : Nat) : RunProgram (List BusinessEvent) := do
  let stores ← read
  inControl
    (recordedOr ((stores.control.eventsFor runDate .ops).filter isOrderCreated)
      (planOrders policy sha256 runDate stores))

/-- The fulfillment events, then the support-case events. -/
def recordFulfillment (runDate : Nat) : RunProgram PUnit := do
  let stores ← read
  inControl (recordEvents (planFulfillment policy sha256 runDate stores))
  let stores ← read
  inControl (recordEvents (planSupportCases sha256 runDate stores))

def applyFulfillment (runDate : Nat) : RunProgram Nat := do
  let stores ← read
  inOps
    (OpsEventApplier.apply ((stores.control.eventsFor runDate .ops).filter isFulfillment))

/-- `OpsRun.run` after its first check -/
def work (runDate : Nat) : RunProgram PUnit := do
  let orderEvents ← recordOrders policy sha256 runDate
  let orders ← inOps (OpsEventApplier.apply orderEvents)
  recordFulfillment policy sha256 runDate
  let fulfillment ← applyFulfillment runDate
  let stores ← read
  inControl
    (markSourceApplied runDate .ops (stores.control.eventsFor runDate .ops).length
      (orders + fulfillment : Nat))

/-- `OpsRun.run` -/
def run (runDate : Nat) (seed : Int) : RunProgram PUnit := do
  let _ ← inControl (claimRun policy.isWeeklySlaBreachDate runDate seed)
  let crm ← inControl (sourceRunState runDate .crm)
  if crm ≠ .applied then raise (.control .crmNotApplied)
  else work policy sha256 runDate

end OpsRun

/-! ## ERP -/

namespace ErpRun

/-- The planned postings of the invoices read. -/
def planPostings (runDate : Nat) (seed : Int) (stores : Stores) : List BusinessEvent :=
  let invoices := readOpsInvoices stores.ops
  ErpDailyPlanner.plan policy sha256 runDate seed
    (invoices.map (enriched stores.erp)) (postedOrderIds stores.erp invoices)
    (nextId (stores.erp.revenuePostings.map RevenuePostingRow.postingId))

def recordPlan (plan : List BusinessEvent) : RunProgram (List BusinessEvent) := do
  inControl (recordEvents plan)
  pure plan

/-- `_read_erp_snapshot`, the plan and its recording -/
def planAndRecord (runDate : Nat) (seed : Int) (stores : Stores) :
    RunProgram (List BusinessEvent) :=
  let missing := missingCompanies stores.erp (readOpsInvoices stores.ops)
  if missing ≠ [] then raise (.erp (.unknownCompanies missing))
  else recordPlan (planPostings policy sha256 runDate seed stores)

/-- The posting events of a date, recorded, and planned first where there is none. -/
def recordPostings (runDate : Nat) (seed : Int) : RunProgram (List BusinessEvent) := do
  let stores ← read
  if (stores.control.eventsFor runDate .erp).isEmpty then
    planAndRecord policy sha256 runDate seed stores
  else pure (stores.control.eventsFor runDate .erp)

/-- `ErpRun.run` after its first check -/
def work (runDate : Nat) (seed : Int) : RunProgram PUnit := do
  let events ← recordPostings policy sha256 runDate seed
  let applied ← inErp (ErpEventApplier.apply events)
  inControl (markSourceApplied runDate .erp events.length applied)
  inControl (completeRun runDate)

/-- `ErpRun.run` -/
def run (runDate : Nat) (seed : Int) : RunProgram PUnit := do
  let _ ← inControl (claimRun policy.isWeeklySlaBreachDate runDate seed)
  let ops ← inControl (sourceRunState runDate .ops)
  if ops ≠ .applied then raise (.control .opsNotApplied)
  else work policy sha256 runDate seed

end ErpRun

/-! ## Days -/

namespace DailySimulationRunner

variable (crmPlan : Nat → List CrmChange)

/-- One pass of the loop of `run_through`. -/
def run (runDate : Nat) (seed : Int) : RunProgram PUnit := do
  CrmRun.run policy sha256 crmPlan runDate seed
  OpsRun.run policy sha256 runDate seed
  ErpRun.run policy sha256 runDate seed
  let last ← inControl lastCompletedDate
  if last ≠ runDate then raise (.control .dateNotCompleted)
  else pure ⟨⟩

/-- One attempt at the day after the watermark, up to its end, its error or a
crash before any write. -/
def Attempt (seed : Int) (stores stores' : Stores) : Prop :=
  ∃ w, stores.control.lastCompleted = some w ∧
    (run policy sha256 crmPlan (w + 1) seed).Leaves stores stores'

end DailySimulationRunner

end

end Simulator
end Northwind
