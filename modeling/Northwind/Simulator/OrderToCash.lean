import Northwind.Library.JsonText
import Northwind.Library.SpelledTexts
import Northwind.Simulator.PlacedShipments
import Northwind.Simulator.PostingDays
import Northwind.Simulator.StatusLifecycles

/-!
# Nothing is doubled from order to cash

Order and shipment ids are the next ones of the database at planning time, and
what is eligible is read from the events and from the tables.  A crash may leave
any part of a plan recorded, and the next attempt plans on top of it.  Still no
opportunity gets a second order, no order a second shipment or invoice, and no
order of an invoice a second posting; and no attempt meets a number in use.

The ledger is the last part: a posting that is recorded and not applied has an
invoice, and its id and its order are not in the ledger.
-/

namespace Northwind
namespace Simulator

open CrashPrograms CrashPrograms.Program SimulationState OpsEventApplier

variable {policy : SimulationPolicy} {sha256 : Sha256} {crmPlan : Nat → List CrmChange}
variable {w d : Nat} {s t : Stores} {event event' : BusinessEvent}

/-! ## The Ops tables -/

/-- The keys of the Ops tables that have to be told apart. -/
structure OpsKept (foreign : String → Prop) (db : OpsDatabase) : Prop where
  sound : OpsSound foreign db
  shipments : (db.shipments.map ShipmentRow.orderId).Nodup
  invoices : (db.invoices.map InvoiceRow.orderId).Nodup
  invoiceIds : (db.invoices.map InvoiceRow.invoiceId).Nodup

theorem nodup_concat {α : Type} {x : α} {xs : List α} (h : xs.Nodup) (hx : x ∉ xs) :
    (xs ++ [x]).Nodup := by
  refine List.nodup_append.mpr ⟨h, List.nodup_singleton x, ?_⟩
  rintro y hy _ hsingle rfl
  exact hx (List.mem_singleton.mp hsingle ▸ hy)

section Ops

variable {foreign : String → Prop} {events : List BusinessEvent} {db db' : OpsDatabase}

theorem OpsKept.markStep (h : OpsKept foreign db) (hstep : MarkStep event db db') :
    OpsKept foreign db' := by
  have hsound := h.sound.markStep hstep
  obtain ⟨_, applied, happlied, _, rfl⟩ := hstep
  refine ⟨hsound, ?_, ?_, ?_⟩
  · have hshipments := h.shipments
    change (applied.shipments.map ShipmentRow.orderId).Nodup
    rw [shipments_map_orderId] at hshipments ⊢
    obtain hkeys | ⟨shipment, _, _, hnew, hkeys⟩ := happlied.shipments
    · rwa [hkeys]
    · rw [shipments_map_orderId] at hnew
      rw [hkeys, List.map_append]
      exact nodup_concat hshipments hnew
  · change (applied.invoices.map InvoiceRow.orderId).Nodup
    obtain hinvoices | ⟨row, _, _, hnew, _, hinvoices⟩ := happlied.invoices
    · rw [hinvoices]
      exact h.invoices
    · rw [hinvoices, List.map_append]
      exact nodup_concat h.invoices hnew
  · change (applied.invoices.map InvoiceRow.invoiceId).Nodup
    obtain hinvoices | ⟨row, _, hnew, _, _, hinvoices⟩ := happlied.invoices
    · rw [hinvoices]
      exact h.invoiceIds
    · rw [hinvoices, List.map_append]
      exact nodup_concat h.invoiceIds hnew

theorem OpsKept.appliedBy (h : OpsKept foreign db) (hby : AppliedBy events db db') :
    OpsKept foreign db' := by
  induction hby with
  | refl => exact h
  | tail _ hstep ih =>
      obtain ⟨event, _, hstep⟩ := hstep
      exact ih.markStep hstep

/-- No invoice is lost. -/
theorem AppliedBy.invoices_subset (hby : AppliedBy events db db') :
    db.invoices ⊆ db'.invoices := by
  induction hby with
  | refl => exact List.Subset.refl _
  | tail _ hstep ih =>
      obtain ⟨event, _, _, applied, happlied, _, rfl⟩ := hstep
      refine List.Subset.trans ih ?_
      change _ ⊆ applied.invoices
      obtain hinvoices | ⟨row, _, _, _, _, hinvoices⟩ := happlied.invoices
      · rw [hinvoices]
        exact List.Subset.refl _
      · rw [hinvoices]
        exact List.subset_append_left _ _

end Ops

theorem invariant_opsKept (foreign : String → Prop) :
    Invariant policy sha256 crmPlan (fun _ s => OpsKept foreign s.ops) where
  move w s t h hmove _ := by
    rcases hmove.ops with hsame | ⟨events, _, hcommits⟩
    · rwa [hsame]
    · exact h.appliedBy hcommits.appliedBy.1
  complete _ _ h _ _ _ := h

theorem Move.invoices_subset (h : Move policy sha256 crmPlan w s t) :
    s.ops.invoices ⊆ t.ops.invoices := by
  rcases h.ops with hsame | ⟨events, _, hcommits⟩
  · rw [hsame]
    exact List.Subset.refl _
  · exact hcommits.appliedBy.1.invoices_subset

/-! ## Planned postings -/

theorem documentNumber_injective (companyCode : String) :
    Function.Injective (documentNumber companyCode) :=
  (append_left_injective (companyCode ++ "-")).comp (zeroPadded_injective 12)

/-- A posting of an invoice, with an id and an order that the ledger does not have. -/
structure Unposted (invoices : List InvoiceRow) (db : ErpDatabase)
    (posting : RevenuePostingCreated) : Prop where
  invoice : ∃ invoice, invoice ∈ invoices ∧ invoice.invoiceId = posting.invoiceId ∧
    invoice.orderId = posting.orderRef
  document : posting.documentNumber = documentNumber posting.companyCode posting.invoiceId
  id : ∀ row, row ∈ db.revenuePostings → row.postingId ≠ posting.postingId
  order : db.rowsOf posting.orderRef = []

theorem opsInvoice_eq_some {db : OpsDatabase} {row : InvoiceRow} {invoice : OpsInvoice}
    (h : opsInvoice db row = some invoice) :
    row.invoiceId = invoice.invoiceId ∧ row.orderId = invoice.orderId := by
  rw [opsInvoice] at h
  split at h
  · cases h
  · split at h
    · cases h
    · obtain ⟨customer, _, rfl⟩ := Option.map_eq_some_iff.mp h
      exact ⟨rfl, rfl⟩

theorem mem_readOpsInvoices {db : OpsDatabase} {invoice : OpsInvoice}
    (h : invoice ∈ readOpsInvoices db) :
    ∃ row, row ∈ db.invoices ∧ row.invoiceId = invoice.invoiceId ∧
      row.orderId = invoice.orderId := by
  obtain ⟨row, hmem, hrow⟩ := List.mem_filterMap.mp h
  exact ⟨row, (List.mem_insertionSort _).mp hmem, opsInvoice_eq_some hrow⟩

theorem OpsKept.onePerOrder {foreign : String → Prop} {db : OpsDatabase}
    (h : OpsKept foreign db) : OnePerOrder db := by
  have hsorted : ((db.invoices.insertionSort
      (fun row row' => row.invoiceId ≤ row'.invoiceId)).map InvoiceRow.orderId).Nodup :=
    (List.Perm.nodup_iff ((List.perm_insertionSort _ _).map _)).mpr h.invoices
  rw [OnePerOrder, readOpsInvoices, List.Nodup, List.pairwise_map, List.pairwise_filterMap]
  rw [List.Nodup, List.pairwise_map] at hsorted
  refine hsorted.imp fun {row row'} hne invoice hrow invoice' hrow' => ?_
  rwa [← (opsInvoice_eq_some hrow).2, ← (opsInvoice_eq_some hrow').2]

section Plan

variable {seed : Int} {posting posting' : RevenuePostingCreated}

/-- A planned posting is of an invoice that is read and whose order has no row. -/
theorem exists_invoice_of_planned (h : posting ∈ plannedPostings policy sha256 d seed s) :
    ∃ invoice id, invoice ∈ readOpsInvoices s.ops ∧ s.erp.rowsOf invoice.orderId = [] ∧
      posting = ErpDailyPlanner.postingOf policy sha256 id (enriched s.erp invoice) := by
  obtain ⟨x, hx, rfl⟩ := List.mem_map.mp h
  obtain ⟨y, hy, rfl⟩ := List.mem_map.mp hx
  have helig := (List.mem_insertionSort _).mp (List.fst_mem_of_mem_zipIdx hy)
  obtain ⟨hmem, helig⟩ := List.mem_filter.mp helig
  obtain ⟨invoice, hinvoice, heq⟩ := List.mem_map.mp hmem
  have hposted := (isEligible_iff.mp helig).1
  rw [← heq] at hposted
  refine ⟨invoice, _, hinvoice, ?_, by rw [heq]⟩
  exact not_not.mp ((mem_postedOrderIds hinvoice).not.mp hposted)

theorem unposted_of_planned (h : posting ∈ plannedPostings policy sha256 d seed s) :
    Unposted s.ops.invoices s.erp posting := by
  have hid := ErpDailyPlanner.le_postingId h
  obtain ⟨invoice, id, hmem, hrows, rfl⟩ := exists_invoice_of_planned h
  obtain ⟨row, hrow, hinvoice⟩ := mem_readOpsInvoices hmem
  refine ⟨⟨row, hrow, hinvoice⟩, rfl, fun row hrow heq => ?_, hrows⟩
  have hlt := lt_nextId (List.mem_map_of_mem (f := RevenuePostingRow.postingId) hrow)
  omega

/-- Planned postings are told apart by their ids and by their orders. -/
theorem eq_of_planned (hone : OnePerOrder s.ops)
    (h : posting ∈ plannedPostings policy sha256 d seed s)
    (h' : posting' ∈ plannedPostings policy sha256 d seed s)
    (hclash : posting.postingId = posting'.postingId ∨ posting.orderRef = posting'.orderRef) :
    posting = posting' := by
  rcases hclash with hid | horder
  · exact List.inj_on_of_nodup_map ErpDailyPlanner.nodup_postings h h' hid
  · obtain ⟨invoice, id, hmem, _, rfl⟩ := exists_invoice_of_planned h
    have hof : ∀ {other : RevenuePostingCreated},
        other ∈ plannedPostings policy sha256 d seed s → other.orderRef = invoice.orderId →
          other ∈ (plannedPostings policy sha256 d seed s).filter
            (fun posting => posting.orderRef = invoice.orderId) :=
      fun hother href => List.mem_filter.mpr ⟨hother, decide_eq_true href⟩
    have hfilter := hof h rfl
    have hfilter' := hof h' horder.symm
    rcases plannedPostings_filter hone hmem with ⟨hnone, _⟩ | ⟨⟨id', hone⟩, _⟩
    · rw [hnone] at hfilter
      cases hfilter
    · rw [hone] at hfilter hfilter'
      rw [List.mem_singleton.mp hfilter, List.mem_singleton.mp hfilter']

end Plan

/-! ## The ledger -/

/-- The document numbers of the ledger that look like those of the planner belong to the
invoices they are made from. -/
def DocumentsKnown (invoices : List InvoiceRow) (db : ErpDatabase) : Prop :=
  ∀ row, row ∈ db.revenuePostings → ∀ n,
    row.documentNumber = documentNumber row.companyCode n →
      ∃ invoice, invoice ∈ invoices ∧ invoice.invoiceId = n ∧
        row.orderRef = some invoice.orderId

/-- No order has got a second row, and no posting of the events is there that waits
for its marker. -/
structure LedgerKept (start : ErpDatabase) (events : List BusinessEvent)
    (invoices : List InvoiceRow) (db : ErpDatabase) : Prop where
  once : ∀ orderId, (start.rowsOf orderId).length ≤ 1 → (db.rowsOf orderId).length ≤ 1
  documents : DocumentsKnown invoices db
  unposted : ∀ event, event ∈ events → ∀ posting, event.body = .revenuePostingCreated posting →
    event.eventId ∉ db.appliedEvents → Unposted invoices db posting
  distinct : ∀ event, event ∈ events → ∀ event', event' ∈ events →
    ∀ posting, event.body = .revenuePostingCreated posting →
    ∀ posting', event'.body = .revenuePostingCreated posting' →
    event.eventId ∉ db.appliedEvents → event'.eventId ∉ db.appliedEvents →
      (posting.postingId = posting'.postingId ∨ posting.orderRef = posting'.orderRef) →
        event.eventId = event'.eventId

section Ledger

variable {start db db' : ErpDatabase} {events events' : List BusinessEvent}
variable {invoices invoices' : List InvoiceRow}

theorem Unposted.mono {posting : RevenuePostingCreated} (h : Unposted invoices db posting)
    (hsubset : invoices ⊆ invoices') : Unposted invoices' db posting := by
  obtain ⟨invoice, hmem, hinvoice⟩ := h.invoice
  exact { h with invoice := ⟨invoice, hsubset hmem, hinvoice⟩ }

/-- Invoices may come, and events that are no postings. -/
theorem LedgerKept.mono (h : LedgerKept start events invoices db)
    (hevents : ∀ event, event ∈ events' → ∀ posting,
      event.body = .revenuePostingCreated posting → event ∈ events)
    (hsubset : invoices ⊆ invoices') : LedgerKept start events' invoices' db where
  once := h.once
  documents row hrow n hnumber := by
    obtain ⟨invoice, hmem, hinvoice⟩ := h.documents row hrow n hnumber
    exact ⟨invoice, hsubset hmem, hinvoice⟩
  unposted event hmem posting hbody hunmarked :=
    (h.unposted event (hevents event hmem posting hbody) posting hbody hunmarked).mono hsubset
  distinct event hmem event' hmem' posting hbody posting' hbody' :=
    h.distinct event (hevents event hmem posting hbody) event'
      (hevents event' hmem' posting' hbody') posting hbody posting' hbody'

theorem rowsOf_concat {posting : RevenuePostingCreated}
    (h : db'.revenuePostings = db.revenuePostings ++ [posting.row]) (orderId : Nat) :
    db'.rowsOf orderId =
      db.rowsOf orderId ++ if posting.orderRef = orderId then [posting.row] else [] := by
  rw [ErpDatabase.rowsOf, h, List.filter_append, ErpDatabase.rowsOf]
  refine congrArg _ ?_
  by_cases horder : posting.orderRef = orderId
  · rw [if_pos horder, List.filter_cons_of_pos (by simp [RevenuePostingCreated.row, horder]),
      List.filter_nil]
  · rw [if_neg horder, List.filter_cons_of_neg (by simp [RevenuePostingCreated.row, horder]),
      List.filter_nil]

/-- A posting of the events goes into the ledger. -/
theorem LedgerKept.markStep (h : LedgerKept start events invoices db) (hmem : event ∈ events)
    (hstep : ErpMarkStep event db db') : LedgerKept start events invoices db' := by
  obtain ⟨hunmarked, posting, applied, hbody, hposted, rfl⟩ := hstep
  have hfresh := h.unposted event hmem posting hbody hunmarked
  obtain ⟨_, row, hrow, hid, _⟩ | ⟨_, rfl⟩ := hposted
  · exact absurd hid (hfresh.id row hrow)
  have hold : ∀ {other : BusinessEvent}, other.eventId ∉ db.appliedEvents ++ [event.eventId] →
      other.eventId ∉ db.appliedEvents ∧ other.eventId ≠ event.eventId := by
    intro other hother
    simpa using hother
  refine ⟨fun orderId hstart => ?_, fun row hrow n hnumber => ?_,
    fun other hother posting' hbody' hnew => ?_,
    fun other hother other' hother' p hp p' hp' hnew hnew' => ?_⟩
  · rw [rowsOf_concat rfl]
    by_cases horder : posting.orderRef = orderId
    · rw [if_pos horder, ← horder, hfresh.order]
      exact le_refl 1
    · rw [if_neg horder, List.append_nil]
      exact h.once orderId hstart
  · obtain hrow | hrow := List.mem_append.mp hrow
    · exact h.documents row hrow n hnumber
    · obtain rfl := List.mem_singleton.mp hrow
      obtain ⟨invoice, hinvoice, hinvoiceId, horder⟩ := hfresh.invoice
      have hn : posting.invoiceId = n :=
        documentNumber_injective posting.companyCode (hfresh.document.symm.trans hnumber)
      exact ⟨invoice, hinvoice, hinvoiceId.trans hn, congrArg some horder.symm⟩
  · obtain ⟨hunmarked', hne⟩ := hold hnew
    have hother' := h.unposted other hother posting' hbody' hunmarked'
    have hdistinct := h.distinct event hmem other hother posting hbody posting' hbody' hunmarked
      hunmarked'
    refine { hother' with id := fun row hrow => ?_, order := ?_ }
    · obtain hrow | hrow := List.mem_append.mp hrow
      · exact hother'.id row hrow
      · obtain rfl := List.mem_singleton.mp hrow
        exact fun hid => hne (hdistinct (.inl hid)).symm
    · rw [rowsOf_concat rfl, hother'.order, if_neg fun horder => hne (hdistinct (.inr horder)).symm,
        List.append_nil]
  · exact h.distinct other hother other' hother' p hp p' hp' (hold hnew).1 (hold hnew').1

theorem LedgerKept.appliedBy (h : LedgerKept start events invoices db)
    (hsubset : events' ⊆ events) (hby : ErpAppliedBy events' db db') :
    LedgerKept start events invoices db' := by
  induction hby with
  | refl => exact h
  | tail _ hstep ih =>
      obtain ⟨event, hevent, hstep⟩ := hstep
      exact ih.markStep (hsubset hevent) hstep

/-- Postings that wait for their markers bring free ids and free document numbers. -/
theorem LedgerKept.ready (h : LedgerKept start events invoices db)
    (hids : (invoices.map InvoiceRow.invoiceId).Nodup) (hsubset : events' ⊆ events) :
    ErpReady events' db := by
  refine ⟨fun event hmem posting hbody hunmarked row hrow => ?_,
    fun event hmem event' hmem' posting hbody posting' hbody' hunmarked hunmarked' hclash => ?_⟩
  · have hfresh := h.unposted event (hsubset hmem) posting hbody hunmarked
    refine ⟨hfresh.id row hrow, fun ⟨hcompany, hnumber⟩ => ?_⟩
    rw [hfresh.document, ← hcompany] at hnumber
    obtain ⟨invoice, hinvoice, hid, href⟩ := h.documents row hrow _ hnumber
    obtain ⟨invoice', hinvoice', hid', horder'⟩ := hfresh.invoice
    obtain rfl := List.inj_on_of_nodup_map hids hinvoice hinvoice' (hid.trans hid'.symm)
    have hmem : row ∈ db.rowsOf posting.orderRef :=
      List.mem_filter.mpr ⟨hrow, decide_eq_true (href.trans (congrArg some horder'))⟩
    rw [hfresh.order] at hmem
    cases hmem
  · have hfresh := h.unposted event (hsubset hmem) posting hbody hunmarked
    have hfresh' := h.unposted event' (hsubset hmem') posting' hbody' hunmarked'
    refine h.distinct event (hsubset hmem) event' (hsubset hmem') posting hbody posting' hbody'
      hunmarked hunmarked' (hclash.imp_right fun ⟨hcompany, hnumber⟩ => ?_)
    rw [hfresh.document, hfresh'.document, hcompany] at hnumber
    have hid := documentNumber_injective posting'.companyCode hnumber
    obtain ⟨invoice, hinvoice, hinvoiceId, horder⟩ := hfresh.invoice
    obtain ⟨invoice', hinvoice', hinvoiceId', horder'⟩ := hfresh'.invoice
    obtain rfl := List.inj_on_of_nodup_map hids hinvoice hinvoice'
      (hinvoiceId.trans (hid.trans hinvoiceId'.symm))
    exact horder.symm.trans horder'

end Ledger

/-! ## Moves of the ledger -/

/-- The ledger of a store. -/
abbrev LedgerStands (start : ErpDatabase) (s : Stores) : Prop :=
  LedgerKept start s.control.events s.ops.invoices s.erp

section Moves

variable {start : ErpDatabase} {foreign : String → Prop}

theorem LedgerStands.moved {applied : List SourceSystem} (h : LedgerStands start s)
    (hmoved : Moved d applied s t) : LedgerStands start t := by
  rwa [LedgerStands, hmoved.events, hmoved.ops, hmoved.erp]

/-- Events of CRM and of Operations are no postings. -/
theorem LedgerStands.record {plan : List BusinessEvent} {source : SourceSystem}
    (h : LedgerStands start s) (hsource : source ≠ .erp)
    (hplan : ∀ event, event ∈ plan → Planned sha256 d source event) (k : Nat) :
    LedgerStands start (s.record (plan.take k)) := by
  refine h.mono (fun event hmem posting hbody => ?_) (List.Subset.refl _)
  refine (mem_of_mem_insertEvents hmem).resolve_right fun hnew => hsource ?_
  have hplanned := hplan event (List.mem_of_mem_take hnew)
  rw [← hplanned.source, hplanned.created.source_eq, hbody]
  rfl

/-- A plan of postings is made where all the recorded ones have their markers. -/
theorem LedgerStands.recordPostings {seed : Int} (hs : Journal sha256 w s)
    (hops : OpsKept foreign s.ops) (h : LedgerStands start s)
    (hnew : s.control.eventsFor (w + 1) .erp = []) (k : Nat) :
    LedgerStands start
      (s.record ((ErpRun.planPostings policy sha256 (w + 1) seed s).take k)) := by
  have hplanned : ∀ event, event ∈ (s.record ((ErpRun.planPostings policy sha256 (w + 1)
      seed s).take k)).control.events → ∀ posting, event.body = .revenuePostingCreated posting →
      event.eventId ∉ s.erp.appliedEvents →
        posting ∈ plannedPostings policy sha256 (w + 1) seed s ∧
          event = sha256.createEvent (w + 1) (.revenuePostingCreated posting) := by
    intro event hmem posting hbody hunmarked
    rcases mem_of_mem_insertEvents hmem with hmem | hmem
    · have hsource : event.source = .erp := by
        rw [(hs.recorded.created event hmem).source_eq, hbody]
        rfl
      rcases Nat.lt_or_eq_of_le (hs.dated event hmem) with hlt | hdate
      · exact absurd (hs.erpMarked event hmem hsource (Nat.le_of_lt_succ hlt)) hunmarked
      · have hday := mem_eventsFor.mpr ⟨hmem, hdate, hsource⟩
        rw [hnew] at hday
        cases hday
    · have hplan := List.mem_of_mem_take hmem
      rw [planPostings_eq_map] at hplan
      obtain ⟨posting', hposting', rfl⟩ := List.mem_map.mp hplan
      obtain rfl := EventBody.revenuePostingCreated.inj hbody
      exact ⟨hposting', rfl⟩
  refine ⟨h.once, h.documents, fun event hmem posting hbody hunmarked => ?_,
    fun event hmem event' hmem' posting hbody posting' hbody' hunmarked hunmarked' hclash => ?_⟩
  · exact unposted_of_planned (hplanned event hmem posting hbody hunmarked).1
  · obtain ⟨hposting, rfl⟩ := hplanned event hmem posting hbody hunmarked
    obtain ⟨hposting', rfl⟩ := hplanned event' hmem' posting' hbody' hunmarked'
    rw [eq_of_planned hops.onePerOrder hposting hposting' hclash]

/-- The ledger stands in every store of a run. -/
theorem invariant_ledgerStands (start : ErpDatabase) (foreign : String → Prop) :
    Invariant policy sha256 crmPlan
      (fun _ s => OpsKept foreign s.ops ∧ LedgerStands start s) := by
  refine (invariant_opsKept foreign).and (fun w s t hops h hmove _ _ => ?_)
    (fun _ _ _ h _ _ _ => h)
  have hsubset := hmove.invoices_subset
  cases hmove with
  | control _ moved => exact h.moved moved
  | crmPlan _ _ k => exact h.record (by decide) (fun _ => planned_crmPlan) k
  | crmApplied _ _ moved => exact h.moved moved
  | orderPlan _ _ _ k => exact h.record (by decide) (fun _ hmem => (planned_planOrders hmem).1) k
  | orders => exact h.mono (fun _ hmem _ _ => hmem) hsubset
  | fulfillmentPlan _ _ k =>
      exact h.record (by decide) (fun _ hmem => (planned_planFulfillment hmem).1) k
  | casePlan _ _ k =>
      exact h.record (by decide) (fun _ hmem => (planned_planSupportCases hmem).1) k
  | fulfillment => exact h.mono (fun _ hmem _ _ => hmem) hsubset
  | opsApplied _ _ moved => exact h.moved moved
  | postingPlan journal _ new _ seed k => exact h.recordPostings journal hops new k
  | postings _ _ same committed =>
      exact h.appliedBy (fun event hmem => (mem_eventsFor.mp ((same event).mp hmem)).1)
        committed.appliedBy.1
  | erpApplied _ _ _ moved => exact h.moved moved
  | completed => exact h

end Moves

/-! ## Runs -/

/-- The tables a simulation finds: keys are told apart, numbers belong to the rows
they are made from, and no history row has the id of an event to come. -/
structure Seeded (sha256 : Sha256) (s : Stores) : Prop where
  ops : OpsKept (· ∈ s.ops.historyIds) s.ops
  own : ∀ d body, (sha256.createEvent d body).eventId ∉ s.ops.historyIds
  documents : DocumentsKnown s.ops.invoices s.erp

/-- No key that is there once in the tables of the start, or not at all, is there
twice. -/
structure Undoubled (start s : Stores) : Prop where
  orders : ∀ ref, start.ops.opportunityRefs.count ref ≤ 1 → s.ops.opportunityRefs.count ref ≤ 1
  shipments : (s.ops.shipments.map ShipmentRow.orderId).Nodup
  invoices : (s.ops.invoices.map InvoiceRow.orderId).Nodup
  postings : ∀ invoice, invoice ∈ s.ops.invoices →
    (start.erp.rowsOf invoice.orderId).length ≤ 1 → (s.erp.rowsOf invoice.orderId).length ≤ 1

section Runs

variable {start : Stores} {b : Nat}

/-- What is known of the orders, the shipments and the ledger of a run. -/
abbrev Standing (policy : SimulationPolicy) (sha256 : Sha256) (crmPlan : Nat → List CrmChange)
    (start : Stores) (w : Nat) (s : Stores) : Prop :=
  (OrdersPlaced policy sha256 crmPlan w s ∧ ShipmentsPlaced policy sha256 crmPlan w s) ∧
    OpsKept (· ∈ start.ops.historyIds) s.ops ∧ LedgerStands start.erp s

theorem invariant_standing (hinjective : sha256.Injective) (start : Stores) :
    Invariant policy sha256 crmPlan (Standing policy sha256 crmPlan start) :=
  (invariant_shipmentsPlaced hinjective).inter (invariant_ledgerStands start.erp _)

theorem Seeded.standing (hstart : Unstarted b start) (h : Seeded sha256 start) :
    Standing policy sha256 crmPlan start b start := by
  refine ⟨⟨hstart.ordersPlaced, hstart.shipmentsPlaced⟩, h.ops, fun _ hrows => hrows, h.documents,
    fun event hmem => ?_, fun event hmem => ?_⟩
  · rw [hstart.events] at hmem
    cases hmem
  · rw [hstart.events] at hmem
    cases hmem

/-- The orders of a day are ready for their transaction. -/
theorem Standing.readyOrders (hs : Journal sha256 w s)
    (hown : ∀ d body, (sha256.createEvent d body).eventId ∉ start.ops.historyIds)
    (h : Standing policy sha256 crmPlan start w s) :
    Ready (· ∈ start.ops.historyIds) (recordedOrders (w + 1) s) s.ops := by
  have horders := h.1.1
  refine ⟨fun event hmem => ?_, fun event hmem hunmarked => ?_,
    fun event hmem event' hmem' _ _ hclash => ?_⟩
  · rw [hs.recorded.created event (mem_recordedOrders.mp hmem).1]
    exact hown _ _
  · obtain ⟨hrecorded, _, _, horder⟩ := mem_recordedOrders.mp hmem
    obtain ⟨order, hbody⟩ := isOrderCreated_iff.mp horder
    rw [hbody]
    exact OpsRun.planned_orderId (horders.planned event hrecorded horder hunmarked) hbody
  · obtain ⟨hrecorded, _, _, horder⟩ := mem_recordedOrders.mp hmem
    obtain ⟨hrecorded', _, _, horder'⟩ := mem_recordedOrders.mp hmem'
    obtain ⟨order, hbody⟩ := isOrderCreated_iff.mp horder
    obtain ⟨order', hbody'⟩ := isOrderCreated_iff.mp horder'
    rw [hbody, hbody'] at hclash
    rw [horders.distinct event hrecorded event' hrecorded' order hbody order' hbody' hclash]

/-- So are the shipments, the invoices and the rest of its fulfillment. -/
theorem Standing.readyFulfillment (hs : Journal sha256 w s)
    (hown : ∀ d body, (sha256.createEvent d body).eventId ∉ start.ops.historyIds)
    (h : Standing policy sha256 crmPlan start w s) :
    Ready (· ∈ start.ops.historyIds) (recordedFulfillment (w + 1) s) s.ops := by
  have hshipments := h.1.2
  refine ⟨fun event hmem => ?_, fun event hmem hunmarked => ?_,
    fun event hmem event' hmem' _ _ hclash => ?_⟩
  · rw [hs.recorded.created event (mem_recordedFulfillment.mp hmem).1]
    exact hown _ _
  · obtain ⟨hrecorded, _, _, hkind⟩ := mem_recordedFulfillment.mp hmem
    cases hbody : event.body with
    | shipmentCreated shipment =>
        have hplan := hshipments.planned event hrecorded ⟨shipment, hbody⟩ hunmarked
        have hfree := OpsRun.planned_shipment hplan hbody
        exact ⟨hfree.1, hfree.2.1⟩
    | orderCreated order => simp [OpsRun.isFulfillment, hbody] at hkind
    | _ => trivial
  · have hrecorded := (mem_recordedFulfillment.mp hmem).1
    have hrecorded' := (mem_recordedFulfillment.mp hmem').1
    have hkind := (mem_recordedFulfillment.mp hmem).2.2.2
    cases hbody : event.body with
    | shipmentCreated shipment =>
        cases hbody' : event'.body with
        | shipmentCreated shipment' =>
            rw [hbody, hbody'] at hclash
            rw [hshipments.distinct event hrecorded event' hrecorded' shipment hbody shipment'
              hbody' hclash]
        | _ => simp [hbody, hbody', Clash] at hclash
    | orderCreated order => simp [OpsRun.isFulfillment, hbody] at hkind
    | _ => simp [hbody, Clash] at hclash

/-- No transaction of a run meets a number in use. -/
theorem Standing.not_doubling
    (hown : ∀ d body, (sha256.createEvent d body).eventId ∉ start.ops.historyIds)
    (h : Standing policy sha256 crmPlan start w s) : ¬ Doubling policy sha256 crmPlan w s := by
  intro hdoubling
  cases hdoubling with
  | orders journal _ unready => exact unready ⟨_, h.2.1.sound, h.readyOrders journal hown⟩
  | fulfillment journal _ unready =>
      exact unready ⟨_, h.2.1.sound, h.readyFulfillment journal hown⟩
  | postings _ _ unready =>
      exact unready (h.2.2.ready h.2.1.invoiceIds fun event hmem => (mem_eventsFor.mp hmem).1)

theorem Standing.undoubled (h : Standing policy sha256 crmPlan start w s)
    (hrefs : ∀ ref, start.ops.opportunityRefs.count ref ≤ 1 →
      s.ops.opportunityRefs.count ref ≤ 1) : Undoubled start s where
  orders := hrefs
  shipments := h.2.1.shipments
  invoices := h.2.1.invoices
  postings invoice _ := h.2.2.once invoice.orderId

/-- In every store that a run reaches, nothing is doubled on the way from order to
cash, and no attempt from it meets an id or a unique number in use. -/
theorem orderToCash_undoubled {t : Stores} (hinjective : sha256.Injective)
    (hstart : Unstarted b start) (hseeded : Seeded sha256 start)
    (hreached : Attempts policy sha256 crmPlan start t) (hone : OneClosedWon t) :
    Undoubled start t ∧
      ∀ w seed e, t.control.lastCompleted = some w →
        (DailySimulationRunner.run policy sha256 crmPlan (w + 1) seed t).result = .error e →
          e.isDoubling = false := by
  obtain ⟨w, _, hjournal, hstanding⟩ := (invariant_standing hinjective start).reached hinjective
    hstart.journal (hseeded.standing hstart) hreached
  refine ⟨hstanding.undoubled fun ref href => ?_, fun w' seed e hw' herror => ?_⟩
  · obtain ⟨_, _, _, _, hcount⟩ := (invariant_opportunityRefs hinjective ref).reached hinjective
      hstart.journal ⟨hstart.ordersPlaced, fun _ => href⟩ hreached
    exact hcount hone
  · obtain rfl := Option.some.inj (hjournal.lastCompleted.symm.trans hw')
    by_contra hdoubling
    obtain ⟨t', _, hend, hcause⟩ := (invariant_standing hinjective start).explains hinjective
      hjournal hstanding herror (Bool.not_eq_false _ |>.mp hdoubling)
    exact hend.not_doubling hseeded.own hcause

end Runs

/-! ## One opportunity is won -/

def sourceText : SourceSystem → String
  | .crm => "crm"
  | .ops => "ops"
  | .erp => "erp"

/-- The values of an event, spelled one after the other. -/
def spelledDigest : Sha256 where
  digest _ _ := 0
  hexdigest d source eventType entityId payload :=
    SpelledTexts.spellAll (cellText (EventBody.integer d) :: sourceText source :: eventType ::
      entityId :: payload.map (fun entry => cellText entry.2))

theorem cellText_integer_inj {n n' : Int} :
    cellText (EventBody.integer n) = cellText (EventBody.integer n') ↔ n = n' :=
  ⟨fun h => Texts.intText_injective (congrArg String.toList h), fun h => by rw [h]⟩

theorem cellText_string (s : String) : cellText (EventBody.string s) = s :=
  rfl

/-- The values of a payload tell it apart from the others of its type. -/
theorem EventBody.eq_of_values {body body' : EventBody} (hcrm : body.source ≠ .crm)
    (hsource : body.source = body'.source) (htype : body.eventType = body'.eventType)
    (hvalues : body.payload.map (fun entry => cellText entry.2) =
      body'.payload.map (fun entry => cellText entry.2)) :
    body = body' := by
  cases body <;> cases body' <;>
    simp_all [EventBody.source, EventBody.eventType, EventBody.payload, cellText_integer_inj,
      cellText_string]
  all_goals
    rename_i known known'
    cases known
    cases known'
    simp_all

theorem spelledDigest_injective : spelledDigest.Injective := by
  intro d d' body body' h
  have htexts := SpelledTexts.spellAll_injective h
  simp only [List.cons.injEq] at htexts
  obtain ⟨hdate, hsource, htype, _, hvalues⟩ := htexts
  have hsource' : body.source = body'.source := by
    cases hs : body.source <;> cases hs' : body'.source <;> simp_all [sourceText]
  refine ⟨?_, hsource', fun hcrm => EventBody.eq_of_values hcrm hsource' htype hvalues⟩
  exact Int.ofNat.inj (cellText_integer_inj.mp hdate)

def wonEvening : Stores :=
  (DailySimulationRunner.run promptPolicy spelledDigest oneWon (0 + 1) 0 opening).final

theorem wonEvening_reached : Attempts promptPolicy spelledDigest oneWon opening wonEvening := by
  have hleaves : (DailySimulationRunner.run promptPolicy spelledDigest oneWon (0 + 1) 0).Leaves
      opening wonEvening := by
    rw [wonEvening]
    exact leaves_final _ _
  exact .single ⟨0, 0, rfl, hleaves⟩

/-- The opportunity is won by one event and has an order, which is posted. -/
theorem wonEvening_won :
    (wonEvening.control.events.filter
      (fun event => (OpsDailyPlanner.closedWon event).isSome)).length = 1 ∧
      wonEvening.ops.opportunityRefs = ["006A"] ∧ (wonEvening.erp.rowsOf 1).length = 1 := by
  decide +kernel

theorem oneClosedWon_wonEvening : OneClosedWon wonEvening := by
  intro event hmem event' hmem' change hwon change' hwon' _
  obtain ⟨only, honly⟩ := List.length_eq_one_iff.mp wonEvening_won.1
  have hfilter : ∀ {event : BusinessEvent} {change : CrmChange},
      event ∈ wonEvening.control.events → OpsDailyPlanner.closedWon event = some change →
        event = only := by
    intro event change hmem hwon
    have hsome : (OpsDailyPlanner.closedWon event).isSome := by rw [hwon]; rfl
    refine List.mem_singleton.mp ?_
    rw [← honly]
    exact List.mem_filter.mpr ⟨hmem, hsome⟩
  rw [hfilter hmem hwon, hfilter hmem' hwon']

theorem seeded_opening : Seeded spelledDigest opening := by
  refine ⟨⟨⟨?_, ?_, ?_, ?_⟩, List.nodup_nil, List.nodup_nil, List.nodup_nil⟩, ?_, ?_⟩
  all_goals simp [opening, stockedOps, chartedErp, OpsDatabase.historyIds, DocumentsKnown]

/-- The order of the first day is the only one, and so are its shipment, its invoice and
its posting. -/
theorem orderToCash_undoubled_won :
    Undoubled opening wonEvening ∧ wonEvening.ops.opportunityRefs = ["006A"] ∧
      (wonEvening.erp.rowsOf 1).length = 1 := by
  have hstart : Unstarted 0 opening := ⟨rfl, rfl, rfl⟩
  exact ⟨(orderToCash_undoubled spelledDigest_injective hstart seeded_opening wonEvening_reached
    oneClosedWon_wonEvening).1, wonEvening_won.2⟩

end Simulator
end Northwind
