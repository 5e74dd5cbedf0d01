import Northwind.Generator.HistoryBackfill

/-!
# Candidates of the history backfill

The rows that the backfill infers histories from: the orders joined with their shipment
and their invoice, the shipments, the invoices and the support cases.  An order has one
candidate (`map_entityId_sources`), as it has at most one shipment and one invoice.

Whatever is inferred for a candidate carries the id of the candidate and one event id
for each transition (`labelled_infer`).
-/

namespace Northwind
namespace Generator

open Simulator StatusChains HistoryBackfill

/-! ## Tables -/

structure OpsOrder where
  orderId : Nat
  status : OrderStatus
  createdAt : Nat
  requestedDeliveryDate : Nat
  updatedAt : Nat

structure OpsShipment where
  shipmentId : Nat
  orderId : Nat
  shipDate : Nat
  promisedDeliveryDate : Nat
  deliveredDate : Option Nat

structure OpsInvoice where
  invoiceId : Nat
  orderId : Nat
  status : InvoiceStatus
  createdAt : Nat
  updatedAt : Option Nat

structure OpsSupportCase where
  caseId : Nat
  status : CaseStatus
  openedAt : Nat
  resolutionHours : Option Nat
  updatedAt : Option Nat

/-- The current-state tables with their primary keys, and the unique `order_id` of
shipments and of invoices. -/
structure OpsTables where
  orders : List OpsOrder
  shipments : List OpsShipment
  invoices : List OpsInvoice
  supportCases : List OpsSupportCase
  pk_orders : (orders.map OpsOrder.orderId).Nodup
  pk_shipments : (shipments.map OpsShipment.shipmentId).Nodup
  uq_shipments_ord : (shipments.map OpsShipment.orderId).Nodup
  pk_invoices : (invoices.map OpsInvoice.invoiceId).Nodup
  uq_invoices_order : (invoices.map OpsInvoice.orderId).Nodup
  pk_cases : (supportCases.map OpsSupportCase.caseId).Nodup

/-! ## Targets -/

/-- `TARGETS` -/
inductive HistoryTarget where
  | orders
  | shipments
  | invoices
  | supportCases
deriving DecidableEq

namespace HistoryTarget

def name : HistoryTarget → String
  | orders => "inferred_order_status_history"
  | shipments => "inferred_shipment_status_history"
  | invoices => "inferred_invoice_status_history"
  | supportCases => "inferred_support_case_status_history"

/-- The states of a target's entities. -/
def Status : HistoryTarget → Type
  | orders => OrderStatus
  | shipments => ShipmentStatus
  | invoices => InvoiceStatus
  | supportCases => CaseStatus

/-- The rows of a target's query. -/
def Candidate : HistoryTarget → Type
  | orders => OrderCandidate
  | shipments => ShipmentCandidate
  | invoices => InvoiceCandidate
  | supportCases => SupportCaseCandidate

/-- `row[0]` -/
def entityId : ∀ target : HistoryTarget, target.Candidate → Nat
  | orders => OrderCandidate.orderId
  | shipments => ShipmentCandidate.shipmentId
  | invoices => InvoiceCandidate.invoiceId
  | supportCases => SupportCaseCandidate.caseId

/-- `_infer` -/
def infer (hexdigest : String → String) :
    ∀ target : HistoryTarget, target.Candidate → Inference target.Status
  | orders => HistoryBackfill.inferOrder hexdigest
  | shipments => HistoryBackfill.inferShipment hexdigest
  | invoices => HistoryBackfill.inferInvoice hexdigest
  | supportCases => HistoryBackfill.inferSupportCase hexdigest

/-- The transitions of a target, by the words in their event ids. -/
def transitions : HistoryTarget → List String
  | orders => ["PENDING", "SHIPPED", "INVOICED", "CANCELLED"]
  | shipments => ["SHIPPED", "DELIVERED"]
  | invoices => ["ISSUED", "VOID"]
  | supportCases => ["OPEN", "RESOLVED", "CLOSED"]

end HistoryTarget

/-! ## Queries -/

/-- `LEFT JOIN` -/
def leftJoin {β : Type} (rows : List β) (on : β → Bool) : List (Option β) :=
  if rows.filter on = [] then [none] else (rows.filter on).map some

namespace OpsTables

variable (tables : OpsTables)

def orderCandidates (order : OpsOrder) : List OrderCandidate :=
  (leftJoin tables.shipments (fun shipment => shipment.orderId = order.orderId)).flatMap
    (fun shipment =>
      (leftJoin tables.invoices (fun invoice => invoice.orderId = order.orderId)).map
        (fun invoice =>
          { orderId := order.orderId
            status := order.status
            created := some (.datetime order.createdAt)
            due := some (.date order.requestedDeliveryDate)
            ship := shipment.map (fun shipment => .date shipment.shipDate)
            invoice := invoice.map (fun invoice => .datetime invoice.createdAt)
            updated := some (.datetime order.updatedAt) }))

def shipmentCandidate (shipment : OpsShipment) : ShipmentCandidate where
  shipmentId := shipment.shipmentId
  ship := some (.date shipment.shipDate)
  delivered := shipment.deliveredDate.map .date
  promised := some (.date shipment.promisedDeliveryDate)

def invoiceCandidate (invoice : OpsInvoice) : InvoiceCandidate where
  invoiceId := invoice.invoiceId
  status := invoice.status
  created := some (.datetime invoice.createdAt)
  updated := invoice.updatedAt.map .datetime

def supportCaseCandidate (case : OpsSupportCase) : SupportCaseCandidate where
  caseId := case.caseId
  status := case.status
  opened := some case.openedAt
  resolutionHours := case.resolutionHours
  updated := case.updatedAt

/-- The rows of a target's query before its WHERE clause. -/
def sources : ∀ target : HistoryTarget, List target.Candidate
  | .orders => tables.orders.flatMap tables.orderCandidates
  | .shipments => tables.shipments.map shipmentCandidate
  | .invoices => tables.invoices.map invoiceCandidate
  | .supportCases => tables.supportCases.map supportCaseCandidate

/-- The primary key of a target's table. -/
def entityIds : HistoryTarget → List Nat
  | .orders => tables.orders.map OpsOrder.orderId
  | .shipments => tables.shipments.map OpsShipment.shipmentId
  | .invoices => tables.invoices.map OpsInvoice.invoiceId
  | .supportCases => tables.supportCases.map OpsSupportCase.caseId

theorem nodup_entityIds (target : HistoryTarget) : (tables.entityIds target).Nodup := by
  cases target with
  | orders => exact tables.pk_orders
  | shipments => exact tables.pk_shipments
  | invoices => exact tables.pk_invoices
  | supportCases => exact tables.pk_cases

/-- A join by a unique column has one row. -/
theorem exists_leftJoin_eq {β : Type} {rows : List β} {key : β → Nat}
    (hunique : (rows.map key).Nodup) (k : Nat) :
    ∃ joined, leftJoin rows (fun row => key row = k) = [joined] := by
  rw [leftJoin]
  split
  · exact ⟨none, rfl⟩
  · rename_i hne
    obtain ⟨row, rest, hrows⟩ := List.exists_cons_of_ne_nil hne
    have hkeys : ((rows.filter (fun row => key row = k)).map key).Nodup :=
      hunique.sublist (List.filter_sublist.map key)
    have hall : ∀ row ∈ rows.filter (fun row => key row = k), key row = k := fun row hrow =>
      of_decide_eq_true (List.mem_filter.mp hrow).2
    rw [hrows] at hkeys hall ⊢
    cases rest with
    | nil => exact ⟨some row, rfl⟩
    | cons other rest =>
        have hsame : key row = key other :=
          (hall row (by simp)).trans (hall other (by simp)).symm
        simp [hsame] at hkeys

/-- An order has one candidate. -/
theorem exists_orderCandidates_eq (order : OpsOrder) :
    ∃ candidate, tables.orderCandidates order = [candidate] ∧
      candidate.orderId = order.orderId := by
  obtain ⟨shipment, hshipment⟩ := exists_leftJoin_eq tables.uq_shipments_ord order.orderId
  obtain ⟨invoice, hinvoice⟩ := exists_leftJoin_eq tables.uq_invoices_order order.orderId
  rw [orderCandidates, hshipment, hinvoice]
  exact ⟨_, rfl, rfl⟩

/-- Each entity has one candidate. -/
theorem map_entityId_sources (target : HistoryTarget) :
    (tables.sources target).map target.entityId = tables.entityIds target := by
  cases target with
  | orders =>
      have hone : ∀ order ∈ tables.orders,
          (tables.orderCandidates order).map OrderCandidate.orderId = [order.orderId] := by
        intro order _
        obtain ⟨candidate, hcandidate, hid⟩ := tables.exists_orderCandidates_eq order
        rw [hcandidate, List.map_singleton, hid]
      calc (tables.orders.flatMap tables.orderCandidates).map OrderCandidate.orderId
          = tables.orders.flatMap (fun order => [order.orderId]) := by
            rw [List.map_flatMap]
            exact List.flatMap_congr hone
        _ = tables.orders.map OpsOrder.orderId := List.flatMap_pure_eq_map _ _
  | shipments => exact List.map_map
  | invoices => exact List.map_map
  | supportCases => exact List.map_map

end OpsTables

/-! ## What is inferred -/

namespace HistoryBackfill

variable {status : Type} {hexdigest : String → String} {name : String} {entityId : Nat}

/-- Rows of one entity, with an event id for each of some transitions. -/
def Labelled (hexdigest : String → String) (name : String) (entityId : Nat)
    (transitions : List String) (rows : List (StatusHistoryRow status)) : Prop :=
  ∃ labels : List String, labels.Sublist transitions ∧
    rows.map (fun row => (row.recordId, row.sourceEventId)) =
      labels.map (fun label => (entityId, inferredEventId hexdigest name entityId label))

variable {transitions transitions' : List String} {rows : List (StatusHistoryRow status)}

theorem labelled_nil :
    Labelled hexdigest name entityId transitions ([] : List (StatusHistoryRow status)) :=
  ⟨[], List.nil_sublist _, rfl⟩

theorem Labelled.mono (h : Labelled hexdigest name entityId transitions rows)
    (hsub : transitions.Sublist transitions') :
    Labelled hexdigest name entityId transitions' rows := by
  obtain ⟨labels, hlabels, hrows⟩ := h
  exact ⟨labels, hlabels.trans hsub, hrows⟩

/-- One more row with the next transition. -/
theorem Labelled.concat (h : Labelled hexdigest name entityId transitions rows)
    {row : StatusHistoryRow status} {label : String} (hrecord : row.recordId = entityId)
    (hevent : row.sourceEventId = inferredEventId hexdigest name entityId label) :
    Labelled hexdigest name entityId (transitions ++ [label]) (rows ++ [row]) := by
  obtain ⟨labels, hlabels, hrows⟩ := h
  refine ⟨labels ++ [label], hlabels.append (List.Sublist.refl _), ?_⟩
  rw [List.map_append, List.map_append, hrows, List.map_singleton, List.map_singleton, hrecord,
    hevent]

theorem labelled_singleton {row : StatusHistoryRow status} {label : String}
    (hrecord : row.recordId = entityId)
    (hevent : row.sourceEventId = inferredEventId hexdigest name entityId label) :
    Labelled hexdigest name entityId [label] [row] := by
  have hnil : Labelled hexdigest name entityId [] ([] : List (StatusHistoryRow status)) :=
    labelled_nil
  exact hnil.concat hrecord hevent

/-- What an inference writes is labelled. -/
def InferenceLabelled (hexdigest : String → String) (name : String) (entityId : Nat)
    (transitions : List String) (inference : Inference status) : Prop :=
  ∀ rows invalid, inference = some (rows, invalid) →
    Labelled hexdigest name entityId transitions rows

theorem inferenceLabelled_none :
    InferenceLabelled hexdigest name entityId transitions (none : Inference status) :=
  fun _ _ h => nomatch h

theorem inferenceLabelled_some {invalid : Bool}
    (h : Labelled hexdigest name entityId transitions rows) :
    InferenceLabelled hexdigest name entityId transitions (some (rows, invalid)) := by
  intro rows' invalid' heq
  obtain ⟨rfl, rfl⟩ := Prod.mk.inj (Option.some.inj heq)
  exact h

end HistoryBackfill

namespace HistoryTarget

variable (hexdigest : String → String)

/-- An inference for a candidate of a target is labelled. -/
def Labels (target : HistoryTarget) (candidate : target.Candidate) : Prop :=
  InferenceLabelled hexdigest target.name (target.entityId candidate) target.transitions
    (target.infer hexdigest candidate)

section Orders

variable (row : OrderCandidate) (created : SourceTime)

theorem labelled_shippedRows :
    Labelled hexdigest orders.name row.orderId ["PENDING", "SHIPPED"]
      (shippedRows hexdigest row created) := by
  have hpending : Labelled hexdigest orders.name row.orderId ["PENDING"]
      [orderRow hexdigest row none .pending "PENDING" created row.due .onTime] :=
    labelled_singleton rfl rfl
  rw [shippedRows]
  split
  · exact hpending.mono (by decide)
  · exact hpending.concat rfl rfl

theorem labelled_inferInvoiced (shipped : SourceTime) :
    InferenceLabelled hexdigest orders.name row.orderId orders.transitions
      (inferInvoiced hexdigest row created shipped) := by
  have hshipped := labelled_shippedRows hexdigest row created
  rw [inferInvoiced]
  split
  · exact inferenceLabelled_some (hshipped.mono (by decide))
  · split
    · exact inferenceLabelled_none
    · have hsub : (["PENDING", "SHIPPED"] ++ ["INVOICED"]).Sublist orders.transitions := by decide
      exact inferenceLabelled_some ((hshipped.concat rfl rfl).mono hsub)

theorem labelled_inferCancelled :
    InferenceLabelled hexdigest orders.name row.orderId orders.transitions
      (inferCancelled hexdigest row created) := by
  have hshipped := labelled_shippedRows hexdigest row created
  rw [inferCancelled]
  split
  · exact inferenceLabelled_some (hshipped.mono (by decide))
  · have hsub : (["PENDING", "SHIPPED"] ++ ["CANCELLED"]).Sublist orders.transitions := by decide
    exact inferenceLabelled_some ((hshipped.concat rfl rfl).mono hsub)

theorem labels_orders : orders.Labels hexdigest row := by
  change InferenceLabelled hexdigest orders.name row.orderId orders.transitions
    (inferOrder hexdigest row)
  rw [inferOrder]
  split
  · exact inferenceLabelled_some labelled_nil
  · rename_i created _
    split
    · exact labelled_inferInvoiced hexdigest row created _
    · exact labelled_inferCancelled hexdigest row created
    · exact inferenceLabelled_some ((labelled_shippedRows hexdigest row created).mono (by decide))

end Orders

theorem labels_shipments (row : ShipmentCandidate) : shipments.Labels hexdigest row := by
  change InferenceLabelled hexdigest shipments.name row.shipmentId shipments.transitions
    (inferShipment hexdigest row)
  rw [inferShipment]
  split
  · exact inferenceLabelled_some labelled_nil
  · rename_i ship _
    have hship : Labelled hexdigest shipments.name row.shipmentId ["SHIPPED"]
        [historyRow hexdigest "inferred_shipment_status_history" row.shipmentId none
          ShipmentStatus.shipped "SHIPPED" ship row.promised (slaStatus ship row.promised)] :=
      labelled_singleton rfl rfl
    split
    · exact inferenceLabelled_some (hship.mono (by decide))
    · split
      · exact inferenceLabelled_some (hship.mono (by decide))
      · exact inferenceLabelled_some (hship.concat rfl rfl)

theorem labels_invoices (row : InvoiceCandidate) : invoices.Labels hexdigest row := by
  change InferenceLabelled hexdigest invoices.name row.invoiceId invoices.transitions
    (inferInvoice hexdigest row)
  rw [inferInvoice]
  split
  · exact inferenceLabelled_some labelled_nil
  · rename_i created _
    have hissued : Labelled hexdigest invoices.name row.invoiceId ["ISSUED"]
        [historyRow hexdigest "inferred_invoice_status_history" row.invoiceId none
          InvoiceStatus.issued "ISSUED" created none .onTime] :=
      labelled_singleton rfl rfl
    split
    · exact inferenceLabelled_some (hissued.mono (by decide))
    · split
      · exact inferenceLabelled_some (hissued.mono (by decide))
      · split
        · exact inferenceLabelled_some (hissued.mono (by decide))
        · exact inferenceLabelled_some (hissued.concat rfl rfl)

section Cases

variable (row : SupportCaseCandidate)

theorem labelled_inferClosed (resolved : Nat) {events : List (StatusHistoryRow CaseStatus)}
    (h : Labelled hexdigest supportCases.name row.caseId ["OPEN", "RESOLVED"] events) :
    InferenceLabelled hexdigest supportCases.name row.caseId supportCases.transitions
      (inferClosed hexdigest row resolved events) := by
  rw [inferClosed]
  split
  · exact inferenceLabelled_some (h.mono (by decide))
  · split
    · exact inferenceLabelled_some (h.mono (by decide))
    · split
      · exact inferenceLabelled_some (h.mono (by decide))
      · exact inferenceLabelled_some (h.concat rfl rfl)

theorem labelled_opened (opened : Nat) :
    Labelled hexdigest supportCases.name row.caseId ["OPEN"]
      [caseRow hexdigest row none .opened "OPEN" opened none .onTime] :=
  labelled_singleton rfl rfl

theorem labelled_inferResolved (opened resolved : Nat) :
    InferenceLabelled hexdigest supportCases.name row.caseId supportCases.transitions
      (inferResolved hexdigest row opened resolved) := by
  have hopened := labelled_opened hexdigest row opened
  rw [inferResolved]
  split
  · exact inferenceLabelled_some (hopened.mono (by decide))
  · split
    · exact inferenceLabelled_none
    · exact labelled_inferClosed hexdigest row resolved (hopened.concat rfl rfl)

theorem labels_supportCases : supportCases.Labels hexdigest row := by
  change InferenceLabelled hexdigest supportCases.name row.caseId supportCases.transitions
    (inferSupportCase hexdigest row)
  rw [inferSupportCase]
  split
  · exact inferenceLabelled_some labelled_nil
  · rename_i opened _
    have hopened := labelled_opened hexdigest row opened
    split
    · exact inferenceLabelled_some (hopened.mono (by decide))
    · split
      · exact inferenceLabelled_some (hopened.mono (by decide))
      · split
        · exact inferenceLabelled_none
        · exact labelled_inferResolved hexdigest row opened _

end Cases

/-- What is inferred has the id of its entity, and an event id for each transition. -/
theorem labelled_infer (target : HistoryTarget) (candidate : target.Candidate) :
    target.Labels hexdigest candidate := by
  cases target with
  | orders => exact labels_orders hexdigest candidate
  | shipments => exact labels_shipments hexdigest candidate
  | invoices => exact labels_invoices hexdigest candidate
  | supportCases => exact labels_supportCases hexdigest candidate

theorem nodup_transitions (target : HistoryTarget) : target.transitions.Nodup := by
  cases target with
  | _ => decide

end HistoryTarget

end Generator
end Northwind
