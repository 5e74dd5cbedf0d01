import Mathlib.Logic.Relation
import Northwind.Simulator.OpsDatabase

/-!
# What applying an Ops event changes

The keys of the Ops tables are what the constraints and the next plans read.
Applying an event adds at most one key to one of the tables and rows of its own
id to the status histories; status updates change no key.

No collision and no broken constraint is raised for an event whose ids are free,
on a database whose derived numbers belong to the rows they are derived from.
-/

namespace Northwind
namespace Simulator

open CrashPrograms CrashPrograms.Program OpsDatabase

/-! ## Keys -/

def OrderRow.key (row : OrderRow) : Nat × Nat × Option String :=
  (row.orderId, row.customerId, row.opportunityRef)

def ShipmentRow.key (row : ShipmentRow) : Nat × Nat :=
  (row.shipmentId, row.orderId)

def SupportCaseRow.key (row : SupportCaseRow) : Nat × Nat :=
  (row.caseId, row.customerId)

namespace OpsDatabase

def orderKeys (db : OpsDatabase) : List (Nat × Nat × Option String) :=
  db.orders.map OrderRow.key

def shipmentKeys (db : OpsDatabase) : List (Nat × Nat) :=
  db.shipments.map ShipmentRow.key

def caseKeys (db : OpsDatabase) : List (Nat × Nat) :=
  db.supportCases.map SupportCaseRow.key

/-- The event ids of the four status histories. -/
def historyIds (db : OpsDatabase) : List String :=
  db.orderHistory.map StatusHistoryRow.sourceEventId ++
    db.shipmentHistory.map StatusHistoryRow.sourceEventId ++
    db.invoiceHistory.map StatusHistoryRow.sourceEventId ++
    db.caseHistory.map StatusHistoryRow.sourceEventId

end OpsDatabase

theorem OpsDatabase.mem_historyIds {db : OpsDatabase} {id : String} :
    id ∈ db.historyIds ↔
      (∃ row, row ∈ db.orderHistory ∧ row.sourceEventId = id) ∨
      (∃ row, row ∈ db.shipmentHistory ∧ row.sourceEventId = id) ∨
      (∃ row, row ∈ db.invoiceHistory ∧ row.sourceEventId = id) ∨
      (∃ row, row ∈ db.caseHistory ∧ row.sourceEventId = id) := by
  simp only [historyIds, List.mem_append, List.mem_map, or_assoc]

/-- A collision of ids or a broken uniqueness constraint. -/
def OpsError.isDoubling : OpsError → Bool
  | .orderIdCollision _ | .shipmentIdCollision _ | .uniqueViolation _ => true
  | _ => false

/-- Derived numbers belong to the rows they are derived from, lines have their
order, and a history row has its marker or is of a `foreign` event. -/
structure OpsSound (foreign : String → Prop) (db : OpsDatabase) : Prop where
  accounts : ∀ row, row ∈ db.customers → ∀ n,
    row.accountNumber = OpsEventApplier.accountNumber n → row.customerId = n
  lines : ∀ row, row ∈ db.orderLines → row.orderId ∈ db.orders.map OrderRow.orderId
  numbers : ∀ row, row ∈ db.invoices → ∀ n,
    row.invoiceNumber = OpsEventApplier.invoiceNumber n → row.orderId = n
  histories : ∀ id, id ∈ db.historyIds → id ∈ db.appliedEvents ∨ foreign id

/-- The ids an event brings are not in use. -/
def FreshBody (db : OpsDatabase) : EventBody → Prop
  | .orderCreated order => order.orderId ∉ db.orders.map OrderRow.orderId
  | .shipmentCreated shipment =>
      shipment.shipmentId ∉ db.shipments.map ShipmentRow.shipmentId ∧
        shipment.orderId ∉ db.shipments.map ShipmentRow.orderId
  | _ => True

/-- An event that has not been applied and brings free ids. -/
structure Fresh (foreign : String → Prop) (db : OpsDatabase) (event : BusinessEvent) : Prop where
  unmarked : event.eventId ∉ db.appliedEvents
  own : ¬ foreign event.eventId
  body : FreshBody db event.body

/-- What an applied event has changed, its marker apart. -/
structure Applied (event : BusinessEvent) (db db' : OpsDatabase) : Prop where
  products : db'.products = db.products
  customers : db'.customers = db.customers ∨
    ∃ n, db'.customers = db.customers ++ [⟨n, OpsEventApplier.accountNumber n, "US01"⟩]
  orders : db'.orderKeys = db.orderKeys ∨
    ∃ order, event.body = .orderCreated order ∧
      order.orderId ∉ db.orders.map OrderRow.orderId ∧
        db'.orderKeys =
          db.orderKeys ++ [(order.orderId, order.customerId, some order.opportunityRef)]
  lines : ∀ row, row ∈ db'.orderLines →
    row ∈ db.orderLines ∨ row.orderId ∈ db'.orders.map OrderRow.orderId
  shipments : db'.shipmentKeys = db.shipmentKeys ∨
    ∃ shipment, event.body = .shipmentCreated shipment ∧
      shipment.shipmentId ∉ db.shipments.map ShipmentRow.shipmentId ∧
      shipment.orderId ∉ db.shipments.map ShipmentRow.orderId ∧
        db'.shipmentKeys = db.shipmentKeys ++ [(shipment.shipmentId, shipment.orderId)]
  invoices : db'.invoices = db.invoices ∨
    ∃ row, event.body.eventType = "invoice_created" ∧
      row.invoiceId ∉ db.invoices.map InvoiceRow.invoiceId ∧
      row.orderId ∉ db.invoices.map InvoiceRow.orderId ∧
      row.invoiceNumber = OpsEventApplier.invoiceNumber row.orderId ∧
        db'.invoices = db.invoices ++ [row]
  cases : db'.caseKeys = db.caseKeys ∨
    ∃ opening customerId, event.body = .supportCaseOpened opening ∧
      opening.caseId ∉ db.supportCases.map SupportCaseRow.caseId ∧
      (∃ ref, (opening.orderId, customerId, ref) ∈ db.orderKeys) ∧
        db'.caseKeys = db.caseKeys ++ [(opening.caseId, customerId)]
  histories : ∀ id, id ∈ db'.historyIds → id ∈ db.historyIds ∨ id = event.eventId
  appliedEvents : db'.appliedEvents = db.appliedEvents

theorem Applied.refl (event : BusinessEvent) (db : OpsDatabase) : Applied event db db where
  products := rfl
  customers := .inl rfl
  orders := .inl rfl
  lines _ hmem := .inl hmem
  shipments := .inl rfl
  invoices := .inl rfl
  cases := .inl rfl
  histories _ hmem := .inl hmem
  appliedEvents := rfl

/-! ## Statements -/

namespace OpsEventApplier

variable {I : OpsDatabase → Prop} {Q : PUnit → OpsDatabase → Prop}
variable {E : OpsError → OpsDatabase → Prop} {db : OpsDatabase} {foreign : String → Prop}

@[simp] theorem meets_insertRow
    {ρ : Type} {table : OpsTable} {rows : OpsDatabase → List ρ}
    {store : List ρ → OpsDatabase → OpsDatabase} {clashes : ρ → Bool} {row : ρ} :
    (insertRow table rows store clashes row).Meets I Q E db ↔
      ((∃ known, known ∈ rows db ∧ clashes known = true) → E (.uniqueViolation table) db) ∧
        ((∀ known, known ∈ rows db → clashes known = false) →
          I db ∧ Q ⟨⟩ (store (rows db ++ [row]) db)) := by
  simp [insertRow]

/-- Rows updated without their key. -/
theorem map_key_update
    {ρ κ : Type} {key : ρ → κ} {update : ρ → ρ} (h : ∀ row, key (update row) = key row)
    (rows : List ρ) :
    (rows.map update).map key = rows.map key := by
  rw [List.map_map]
  exact List.map_congr_left fun row _ => h row

theorem accountNumber_injective : Function.Injective accountNumber :=
  (append_left_injective "ACC-").comp (zeroPadded_injective 6)

theorem invoiceNumber_injective : Function.Injective invoiceNumber :=
  (append_left_injective "OPS-").comp (zeroPadded_injective 12)

/-! ## Orders -/

theorem firstProduct_eq_none_iff {db : OpsDatabase} :
    firstProduct db = none ↔ db.products = [] := by
  rw [firstProduct, List.head?_eq_none_iff, ← List.length_eq_zero_iff, List.length_insertionSort,
    List.length_eq_zero_iff]

theorem ensureCustomer_spec (foreign : String → Prop) (customerId : Nat) (db : OpsDatabase) :
    (ensureCustomer customerId).Meets (fun _ => True)
      (fun _ db' => ∃ customers, db' = { db with customers := customers } ∧
        (customers = db.customers ∨
          ∃ n, customers = db.customers ++ [⟨n, accountNumber n, "US01"⟩]))
      (fun _ _ => ¬ OpsSound foreign db) db := by
  simp only [ensureCustomer, insertCustomer, meets_bind, meets_read, meets_ite, meets_pure,
    meets_insertRow]
  refine ⟨fun _ => ⟨_, rfl, .inl rfl⟩, fun hnone => ⟨?_, fun _ => ⟨trivial, _, rfl, .inr ⟨_, rfl⟩⟩⟩⟩
  rintro ⟨known, hmem, hclash⟩ hsound
  have hne : known.customerId ≠ customerId := by
    intro heq
    exact hnone (List.any_eq_true.mpr ⟨known, hmem, by simpa using heq⟩)
  have hnumber : known.accountNumber = accountNumber customerId := by
    simpa [hne] using hclash
  exact hne (hsound.accounts known hmem customerId hnumber)

/-- A fresh event has no row in the status histories. -/
theorem not_mem_historyIds
    {event : BusinessEvent} (hsound : OpsSound foreign db) (hfresh : Fresh foreign db event) :
    event.eventId ∉ db.historyIds :=
  fun hmem => (hsound.histories _ hmem).elim hfresh.unmarked hfresh.own

theorem insertNewOrder_spec
    (foreign : String → Prop) {event : BusinessEvent} {order : OrderCreated}
    (hbody : event.body = .orderCreated order)
    {db : OpsDatabase} (hnew : order.orderId ∉ db.orders.map OrderRow.orderId) :
    (insertNewOrder event order).Meets (fun _ => True)
      (fun _ db' => Applied event db db' ∧ db'.customers = db.customers ∧ db.products ≠ [] ∧
        (order.orderId, order.customerId, some order.opportunityRef) ∈ db'.orderKeys)
      (fun e _ => OpsSound foreign db → Fresh foreign db event →
        e = .noProductCatalog ∧ db.products = []) db := by
  simp only [insertNewOrder, insertOrder, insertOrderHistory, insertFirstLine, insertOrderLine,
    meets_bind, meets_read, meets_insertRow, true_and]
  refine ⟨?_, fun _ => ⟨?_, fun _ => ?_⟩⟩
  · rintro ⟨known, hmem, hclash⟩
    exact absurd (List.mem_map.mpr ⟨known, hmem, by simpa using hclash⟩) hnew
  · rintro ⟨known, hmem, hclash⟩ hsound hfresh
    refine absurd ?_ (not_mem_historyIds hsound hfresh)
    exact mem_historyIds.mpr (.inl ⟨known, hmem, by simpa using hclash⟩)
  · have hproduct : ∀ orders orderHistory,
        firstProduct { db with orders := orders, orderHistory := orderHistory } =
          firstProduct db := fun _ _ => rfl
    rw [hproduct]
    cases hfirst : firstProduct db with
    | none => exact (meets_raise _).mpr fun _ _ => ⟨rfl, firstProduct_eq_none_iff.mp hfirst⟩
    | some product =>
        have hproducts : db.products ≠ [] := by
          intro hnil
          cases hfirst.symm.trans (firstProduct_eq_none_iff.mpr hnil)
        simp only [meets_insertRow]
        refine ⟨?_, fun _ => ⟨trivial, ?_, trivial, hproducts, ?_⟩⟩
        · -- an order without a row has no lines, and the line id is the next one
          rintro ⟨known, hmem, hclash⟩ hsound _
          have horder : known.orderId ≠ order.orderId := by
            intro heq
            exact hnew (heq ▸ hsound.lines known hmem)
          have hline : known.orderLineId ≠ nextId (db.orderLines.map OrderLineRow.orderLineId) :=
            (lt_nextId (List.mem_map_of_mem hmem)).ne
          simp [horder, hline] at hclash
        · have hrefl := Applied.refl event db
          exact
            { hrefl with
              orders := .inr ⟨order, hbody, hnew, by simp [OpsDatabase.orderKeys, OrderRow.key]⟩
              lines := by
                intro row hrow
                obtain hold | rfl := List.mem_append.mp hrow |>.imp_right List.mem_singleton.mp
                · exact .inl hold
                · exact .inr (by simp)
              histories := by
                intro id hid
                simp only [mem_historyIds, List.mem_append, List.mem_singleton] at hid ⊢
                grind }
        · simp [OpsDatabase.orderKeys, OrderRow.key]

/-- A new customer row keeps the database sound. -/
theorem opsSound_withCustomers
    {customers : List CustomerRow} (hsound : OpsSound foreign db)
    (h : customers = db.customers ∨
      ∃ n, customers = db.customers ++ [⟨n, accountNumber n, "US01"⟩]) :
    OpsSound foreign { db with customers := customers } where
  accounts row hmem n hnumber := by
    obtain rfl | ⟨m, rfl⟩ := h
    · exact hsound.accounts row hmem n hnumber
    · obtain hold | hnew := List.mem_append.mp hmem
      · exact hsound.accounts row hold n hnumber
      · obtain rfl := List.mem_singleton.mp hnew
        exact accountNumber_injective hnumber
  lines := hsound.lines
  numbers := hsound.numbers
  histories := hsound.histories

/-- An order is there after its event; a fresh one fails on an empty catalog only. -/
theorem applyOrder_spec
    (foreign : String → Prop) {event : BusinessEvent} {order : OrderCreated}
    (hbody : event.body = .orderCreated order)
    (db : OpsDatabase) :
    (applyOrder event order).Meets (fun _ => True)
      (fun _ db' => Applied event db db' ∧
        (order.orderId ∉ db.orders.map OrderRow.orderId → db.products ≠ []) ∧
        ∃ customerId, (order.orderId, customerId, some order.opportunityRef) ∈ db'.orderKeys)
      (fun e _ => OpsSound foreign db → Fresh foreign db event →
        e = .noProductCatalog ∧ db.products = []) db := by
  rw [applyOrder]
  have hcustomer := (ensureCustomer_spec foreign order.customerId db).mono (fun _ h => h)
    (fun _ _ h => h)
    (fun e _ hunsound hsound (_ : Fresh foreign db event) =>
      (hunsound hsound).elim (C := e = .noProductCatalog ∧ db.products = []))
  refine hcustomer.bind ?_
  rintro _ _ ⟨customers, rfl, hcustomers⟩
  rw [meets_bind, meets_read]
  cases hfind : db.orders.find? (fun row => row.orderId = order.orderId) with
  | some existing =>
      have hmem := List.mem_of_find?_eq_some hfind
      have hid : existing.orderId = order.orderId := by simpa using List.find?_some hfind
      have hnotNew : order.orderId ∈ db.orders.map OrderRow.orderId :=
        List.mem_map.mpr ⟨existing, hmem, hid⟩
      simp only [meets_ite, meets_raise, meets_pure]
      refine ⟨fun _ _ hfresh => ?_, fun href => ⟨?_, fun hnew => absurd hnotNew hnew, ?_⟩⟩
      · have hnew := hfresh.body
        rw [hbody] at hnew
        exact absurd hnotNew hnew
      · exact { Applied.refl event db with customers := hcustomers }
      · refine ⟨existing.customerId, List.mem_map.mpr ⟨existing, hmem, ?_⟩⟩
        rw [OrderRow.key, hid, not_not.mp href]
  | none =>
      have hnew : order.orderId ∉ db.orders.map OrderRow.orderId := by
        rintro hmem
        obtain ⟨row, hrow, hid⟩ := List.mem_map.mp hmem
        simpa [hid] using List.find?_eq_none.mp hfind row hrow
      have hnew' : order.orderId ∉
          ({ db with customers := customers } : OpsDatabase).orders.map OrderRow.orderId := hnew
      refine (insertNewOrder_spec foreign hbody hnew').mono (fun _ h => h) ?_ ?_
      · rintro _ db' ⟨happlied, hsame, hproducts, hkey⟩
        exact ⟨{ happlied with customers := hsame ▸ hcustomers }, fun _ => hproducts, _, hkey⟩
      · intro e _ herror hsound hfresh
        exact herror (opsSound_withCustomers hsound hcustomers)
          ⟨hfresh.unmarked, hfresh.own, hfresh.body⟩

/-! ## Shipments and deliveries -/

/-- An order has a new status, or none, and one row more in its history, or none. -/
def OrderAdvanced (event : BusinessEvent) (db db' : OpsDatabase) : Prop :=
  ∃ orders history, db' = { db with orders := orders, orderHistory := history } ∧
    orders.map OrderRow.key = db.orderKeys ∧
      ∀ row, row ∈ history → row ∈ db.orderHistory ∨ row.sourceEventId = event.eventId

theorem OrderAdvanced.refl (event : BusinessEvent) (db : OpsDatabase) :
    OrderAdvanced event db db :=
  ⟨db.orders, db.orderHistory, rfl, rfl, fun _ hmem => .inl hmem⟩

theorem advanceOrder_spec
    {event : BusinessEvent} {row : StatusHistoryRow OrderStatus}
    (hrow : row.sourceEventId = event.eventId) (orderId : Nat) (status : OrderStatus)
    (db : OpsDatabase) :
    (insertOrderHistory row >>= fun _ => updateOrderStatus orderId status).Meets
      (fun _ => True) (fun _ => OrderAdvanced event db)
      (fun _ _ => ∃ known, known ∈ db.orderHistory ∧ known.sourceEventId = event.eventId)
      db := by
  simp only [insertOrderHistory, updateOrderStatus, meets_bind, meets_insertRow, meets_write,
    true_and]
  refine ⟨?_, fun _ => ⟨_, _, rfl, ?_, ?_⟩⟩
  · rintro ⟨known, hmem, hclash⟩
    exact ⟨known, hmem, hrow ▸ by simpa using hclash⟩
  · exact map_key_update (fun row => by split <;> rfl) db.orders
  · intro known hmem
    obtain hold | hnew := List.mem_append.mp hmem
    · exact .inl hold
    · exact .inr (List.mem_singleton.mp hnew ▸ hrow)

theorem shipOrder_spec
    (event : BusinessEvent) (shipment : ShipmentCreated) (status : OrderStatus)
    (db : OpsDatabase) :
    (shipOrder event shipment status).Meets (fun _ => True)
      (fun _ => OrderAdvanced event db)
      (fun _ _ => ∃ known, known ∈ db.orderHistory ∧ known.sourceEventId = event.eventId)
      db := by
  rw [shipOrder, meets_ite]
  exact ⟨fun _ => advanceOrder_spec rfl shipment.orderId .shipped db,
    fun _ => (meets_pure _).mpr (OrderAdvanced.refl event db)⟩

theorem insertNewShipment_spec
    {event : BusinessEvent} {shipment : ShipmentCreated}
    (hbody : event.body = .shipmentCreated shipment) (order : OrderRow) (db : OpsDatabase) :
    (insertNewShipment event shipment order).Meets (fun _ => True)
      (fun _ db' => Applied event db db')
      (fun e _ => OpsSound foreign db → Fresh foreign db event → e.isDoubling = false) db := by
  simp only [insertNewShipment, insertShipment, insertShipmentHistory, meets_bind,
    meets_insertRow, true_and]
  refine ⟨?_, fun hnew => ⟨?_, fun hfree => ?_⟩⟩
  · rintro ⟨known, hmem, hclash⟩ _ hfresh
    have hids := hfresh.body
    rw [hbody] at hids
    obtain hid | hid : known.shipmentId = shipment.shipmentId ∨
        known.orderId = shipment.orderId := by simpa using hclash
    · exact absurd (List.mem_map.mpr ⟨known, hmem, hid⟩) hids.1
    · exact absurd (List.mem_map.mpr ⟨known, hmem, hid⟩) hids.2
  · rintro ⟨known, hmem, hclash⟩ hsound hfresh
    refine absurd ?_ (not_mem_historyIds hsound hfresh)
    exact mem_historyIds.mpr (.inr (.inl ⟨known, hmem, by simpa using hclash⟩))
  · refine (shipOrder_spec event shipment order.status _).mono (fun _ h => h) ?_ ?_
    · rintro _ _ ⟨orders, history, rfl, horders, hhistory⟩
      have hids : ∀ known, known ∈ db.shipments → known.shipmentId ≠ shipment.shipmentId ∧
          known.orderId ≠ shipment.orderId := fun known hmem => by simpa using hnew known hmem
      exact
        { Applied.refl event db with
          orders := .inl horders
          lines := fun _ hmem => .inl hmem
          shipments := .inr ⟨shipment, hbody, by grind, by grind,
            by simp [shipmentKeys, ShipmentRow.key]⟩
          histories := by
            intro id hid
            simp only [mem_historyIds, List.mem_append, List.mem_singleton] at hid ⊢
            grind }
    · intro e _ hmem hsound hfresh
      have hid : event.eventId ∈ db.historyIds := mem_historyIds.mpr (.inl hmem)
      exact absurd hid (not_mem_historyIds hsound hfresh)

/-- A shipment raises no doubling error for free ids. -/
theorem applyShipment_spec
    {event : BusinessEvent} {shipment : ShipmentCreated}
    (hbody : event.body = .shipmentCreated shipment) (db : OpsDatabase) :
    (applyShipment event shipment).Meets (fun _ => True)
      (fun _ db' => Applied event db db')
      (fun e _ => OpsSound foreign db → Fresh foreign db event → e.isDoubling = false) db := by
  rw [applyShipment, meets_bind, meets_read]
  cases hfind : db.shipments.find? (fun row => row.shipmentId = shipment.shipmentId) with
  | some existing =>
      have hid : existing.shipmentId = shipment.shipmentId := by
        simpa using List.find?_some hfind
      simp only [meets_ite, meets_raise, meets_pure]
      refine ⟨fun _ _ hfresh => ?_, fun _ => Applied.refl event db⟩
      have hids := hfresh.body
      rw [hbody] at hids
      exact absurd (List.mem_map.mpr ⟨existing, List.mem_of_find?_eq_some hfind, hid⟩) hids.1
  | none =>
      rw [shipExistingOrder]
      cases db.orders.find? (fun row => row.orderId = shipment.orderId) with
      | none => exact (meets_raise _).mpr fun _ _ => rfl
      | some order =>
          simp only [meets_ite, meets_raise]
          exact ⟨fun _ _ _ => rfl, fun _ => insertNewShipment_spec hbody order db⟩

theorem applyDelivery_spec
    (event : BusinessEvent) (delivery : ShipmentDelivered) (db : OpsDatabase) :
    (applyDelivery event delivery).Meets (fun _ => True)
      (fun _ db' => Applied event db db')
      (fun e _ => OpsSound foreign db → Fresh foreign db event → e.isDoubling = false) db := by
  rw [applyDelivery, meets_bind, meets_read]
  cases db.shipments.find? (fun row => row.shipmentId = delivery.shipmentId) with
  | none => exact (meets_raise _).mpr fun _ _ => rfl
  | some shipment =>
      simp only [updateDeliveredDate, insertShipmentHistory, meets_ite, meets_pure, meets_bind,
        meets_write, meets_insertRow, true_and]
      refine ⟨fun _ => Applied.refl event db, fun _ => ⟨?_, fun _ => ?_⟩⟩
      · rintro ⟨known, hmem, hclash⟩ hsound hfresh
        refine absurd ?_ (not_mem_historyIds hsound hfresh)
        exact mem_historyIds.mpr (.inr (.inl ⟨known, hmem, by simpa using hclash⟩))
      · exact
          { Applied.refl event db with
            shipments := .inl (map_key_update (fun row => by split <;> rfl) db.shipments)
            histories := by
              intro id hid
              simp only [mem_historyIds, List.mem_append, List.mem_singleton] at hid ⊢
              grind }

/-! ## Invoices -/

theorem invoiceOrder_spec
    (event : BusinessEvent) (invoice : InvoiceCreated) (status : OrderStatus)
    (db : OpsDatabase) :
    (invoiceOrder event invoice status).Meets (fun _ => True)
      (fun _ => OrderAdvanced event db)
      (fun _ _ => ∃ known, known ∈ db.orderHistory ∧ known.sourceEventId = event.eventId)
      db := by
  rw [invoiceOrder, meets_ite]
  exact ⟨fun _ => advanceOrder_spec rfl invoice.orderId .invoiced db,
    fun _ => (meets_pure _).mpr (OrderAdvanced.refl event db)⟩

theorem insertNewInvoice_spec
    {event : BusinessEvent} {invoice : InvoiceCreated}
    (hbody : event.body = .invoiceCreated invoice) (order : OrderRow) (amount : Int)
    {db : OpsDatabase} (hnew : invoice.orderId ∉ db.invoices.map InvoiceRow.orderId) :
    (insertNewInvoice event invoice order amount
        (nextId (db.invoices.map InvoiceRow.invoiceId))).Meets (fun _ => True)
      (fun _ db' => Applied event db db')
      (fun e _ => OpsSound foreign db → Fresh foreign db event → e.isDoubling = false) db := by
  simp only [insertNewInvoice, insertInvoice, insertInvoiceHistory, meets_bind,
    meets_insertRow, true_and]
  refine ⟨?_, fun _ => ⟨?_, fun _ => ?_⟩⟩
  · -- the id is the next one, and a number in use is the number of this order
    rintro ⟨known, hmem, hclash⟩ hsound _
    have hid : known.invoiceId ≠ nextId (db.invoices.map InvoiceRow.invoiceId) :=
      (lt_nextId (List.mem_map_of_mem hmem)).ne
    have horder : known.orderId ≠ invoice.orderId := by
      intro heq
      exact hnew (List.mem_map.mpr ⟨known, hmem, heq⟩)
    have hnumber : known.invoiceNumber ≠ invoiceNumber invoice.orderId := fun heq =>
      horder (hsound.numbers known hmem invoice.orderId heq)
    simp [hid, horder, hnumber] at hclash
  · rintro ⟨known, hmem, hclash⟩ hsound hfresh
    refine absurd ?_ (not_mem_historyIds hsound hfresh)
    exact mem_historyIds.mpr (.inr (.inr (.inl ⟨known, hmem, by simpa using hclash⟩)))
  · refine (invoiceOrder_spec event invoice order.status _).mono (fun _ h => h) ?_ ?_
    · rintro _ _ ⟨orders, history, rfl, horders, hhistory⟩
      have hid : nextId (db.invoices.map InvoiceRow.invoiceId) ∉
          db.invoices.map InvoiceRow.invoiceId := fun hmem => (lt_nextId hmem).ne rfl
      exact
        { Applied.refl event db with
          orders := .inl horders
          lines := fun _ hmem => .inl hmem
          invoices := .inr ⟨_, by rw [hbody]; rfl, hid, hnew, rfl, rfl⟩
          histories := by
            intro id hid
            simp only [mem_historyIds, List.mem_append, List.mem_singleton] at hid ⊢
            grind }
    · intro e _ hmem hsound hfresh
      have hid : event.eventId ∈ db.historyIds := mem_historyIds.mpr (.inl hmem)
      exact absurd hid (not_mem_historyIds hsound hfresh)

theorem applyInvoice_spec
    {event : BusinessEvent} {invoice : InvoiceCreated}
    (hbody : event.body = .invoiceCreated invoice) (db : OpsDatabase) :
    (applyInvoice event invoice).Meets (fun _ => True)
      (fun _ db' => Applied event db db')
      (fun e _ => OpsSound foreign db → Fresh foreign db event → e.isDoubling = false) db := by
  simp only [applyInvoice, meets_bind, meets_read, meets_ite, meets_pure]
  refine ⟨fun _ => Applied.refl event db, fun hnone => ?_⟩
  have hnew : invoice.orderId ∉ db.invoices.map InvoiceRow.orderId := by
    intro hmem
    obtain ⟨row, hrow, hid⟩ := List.mem_map.mp hmem
    exact hnone (List.any_eq_true.mpr ⟨row, hrow, by simpa using hid⟩)
  rw [invoiceExistingOrder]
  cases db.orders.find? (fun row => row.orderId = invoice.orderId) with
  | none => exact (meets_raise _).mpr fun _ _ => rfl
  | some order =>
      simp only [meets_ite, meets_raise]
      exact ⟨fun _ _ _ => rfl, fun _ => ⟨fun _ _ _ => rfl,
        fun _ => insertNewInvoice_spec hbody order _ hnew⟩⟩

/-! ## Support cases -/

/-- A case is there after its opening. -/
theorem applySupportCase_spec
    {event : BusinessEvent} {opening : SupportCaseOpened}
    (hbody : event.body = .supportCaseOpened opening) (db : OpsDatabase) :
    (applySupportCase event opening).Meets (fun _ => True)
      (fun _ db' => Applied event db db' ∧
        opening.caseId ∈ db'.supportCases.map SupportCaseRow.caseId)
      (fun e _ => OpsSound foreign db → Fresh foreign db event → e.isDoubling = false) db := by
  simp only [applySupportCase, meets_bind, meets_read, meets_ite, meets_pure]
  refine ⟨fun hsome => ⟨Applied.refl event db, ?_⟩, fun hnone => ?_⟩
  · obtain ⟨row, hrow, hid⟩ := List.any_eq_true.mp hsome
    exact List.mem_map.mpr ⟨row, hrow, by simpa using hid⟩
  have hnew : opening.caseId ∉ db.supportCases.map SupportCaseRow.caseId := by
    intro hmem
    obtain ⟨row, hrow, hid⟩ := List.mem_map.mp hmem
    exact hnone (List.any_eq_true.mpr ⟨row, hrow, by simpa using hid⟩)
  rw [openCase]
  cases hfind : db.orders.find? (fun row => row.orderId = opening.orderId) with
  | none => exact (meets_raise _).mpr fun _ _ => rfl
  | some order =>
      have hid : order.orderId = opening.orderId := by simpa using List.find?_some hfind
      simp only [insertSupportCase, insertCaseHistory, meets_bind, meets_insertRow, true_and]
      refine ⟨?_, fun _ => ⟨?_, fun _ => ⟨?_, by simp⟩⟩⟩
      · rintro ⟨known, hmem, hclash⟩
        exact absurd (List.mem_map.mpr ⟨known, hmem, by simpa using hclash⟩) hnew
      · rintro ⟨known, hmem, hclash⟩ hsound hfresh
        refine absurd ?_ (not_mem_historyIds hsound hfresh)
        exact mem_historyIds.mpr (.inr (.inr (.inr ⟨known, hmem, by simpa using hclash⟩)))
      · have hkey : (opening.orderId, order.customerId, order.opportunityRef) ∈ db.orderKeys :=
          List.mem_map.mpr ⟨order, List.mem_of_find?_eq_some hfind, by rw [OrderRow.key, hid]⟩
        exact
          { Applied.refl event db with
            cases := .inr ⟨opening, order.customerId, hbody, hnew, ⟨_, hkey⟩,
              by simp [caseKeys, SupportCaseRow.key]⟩
            histories := by
              intro id hid
              simp only [mem_historyIds, List.mem_append, List.mem_singleton] at hid ⊢
              grind }

theorem changeCase_spec
    {event : BusinessEvent} {row : StatusHistoryRow CaseStatus}
    (hrow : row.sourceEventId = event.eventId) (caseId : Nat) (status : CaseStatus)
    (db : OpsDatabase) :
    (updateCaseStatus caseId status >>= fun _ => insertCaseHistory row).Meets
      (fun _ => True) (fun _ db' => Applied event db db')
      (fun e _ => OpsSound foreign db → Fresh foreign db event → e.isDoubling = false) db := by
  simp only [updateCaseStatus, insertCaseHistory, meets_bind, meets_write, meets_insertRow,
    true_and]
  refine ⟨?_, fun _ => ?_⟩
  · rintro ⟨known, hmem, hclash⟩ hsound hfresh
    refine absurd ?_ (not_mem_historyIds hsound hfresh)
    exact mem_historyIds.mpr
      (.inr (.inr (.inr ⟨known, hmem, hrow ▸ by simpa using hclash⟩)))
  · exact
      { Applied.refl event db with
        cases := .inl (map_key_update (fun row => by split <;> rfl) db.supportCases)
        histories := by
          intro id hid
          simp only [mem_historyIds, List.mem_append, List.mem_singleton] at hid ⊢
          grind }

theorem applySupportResolution_spec
    (event : BusinessEvent) (resolution : SupportCaseChanged) (db : OpsDatabase) :
    (applySupportResolution event resolution).Meets (fun _ => True)
      (fun _ db' => Applied event db db')
      (fun e _ => OpsSound foreign db → Fresh foreign db event → e.isDoubling = false) db := by
  rw [applySupportResolution, meets_bind, meets_read]
  cases db.supportCases.find? (fun row => row.caseId = resolution.caseId) with
  | none => exact (meets_raise _).mpr fun _ _ => rfl
  | some row =>
      simp only [meets_ite, meets_pure]
      exact ⟨fun _ => Applied.refl event db,
        fun _ => changeCase_spec rfl resolution.caseId .resolved db⟩

theorem applySupportClosure_spec
    (event : BusinessEvent) (closure : SupportCaseChanged) (db : OpsDatabase) :
    (applySupportClosure event closure).Meets (fun _ => True)
      (fun _ db' => Applied event db db')
      (fun e _ => OpsSound foreign db → Fresh foreign db event → e.isDoubling = false) db := by
  rw [applySupportClosure, meets_bind, meets_read]
  cases db.supportCases.find? (fun row => row.caseId = closure.caseId) with
  | none => exact (meets_raise _).mpr fun _ _ => rfl
  | some row =>
      simp only [meets_ite, meets_pure]
      exact ⟨fun _ => Applied.refl event db,
        fun _ => changeCase_spec rfl closure.caseId .closed db⟩

/-! ## Every event -/

/-- What is there after an event, whichever rows were there before. -/
def Done (db : OpsDatabase) : EventBody → Prop
  | .orderCreated order =>
      ∃ customerId, (order.orderId, customerId, some order.opportunityRef) ∈ db.orderKeys
  | .supportCaseOpened opening =>
      opening.caseId ∈ db.supportCases.map SupportCaseRow.caseId
  | _ => True

theorem applyEvent_spec (foreign : String → Prop) (event : BusinessEvent) (db : OpsDatabase) :
    (applyEvent event).Meets (fun _ => True)
      (fun _ db' => Applied event db db' ∧ Done db' event.body)
      (fun e _ => OpsSound foreign db → Fresh foreign db event → e.isDoubling = false) db := by
  rw [applyEvent]
  cases hbody : event.body with
  | orderCreated order =>
      refine (applyOrder_spec foreign hbody db).mono (fun _ h => h) (fun _ _ h => ⟨h.1, h.2.2⟩) ?_
      rintro e _ herror hsound hfresh
      rw [(herror hsound hfresh).1]
      rfl
  | shipmentCreated shipment =>
      exact (applyShipment_spec hbody db).mono (fun _ h => h) (fun _ _ h => ⟨h, trivial⟩)
        (fun _ _ h => h)
  | shipmentDelivered delivery =>
      exact (applyDelivery_spec event delivery db).mono (fun _ h => h)
        (fun _ _ h => ⟨h, trivial⟩) (fun _ _ h => h)
  | invoiceCreated invoice =>
      exact (applyInvoice_spec hbody db).mono (fun _ h => h) (fun _ _ h => ⟨h, trivial⟩)
        (fun _ _ h => h)
  | supportCaseOpened opening => exact applySupportCase_spec hbody db
  | supportCaseResolved resolution =>
      exact (applySupportResolution_spec event resolution db).mono (fun _ h => h)
        (fun _ _ h => ⟨h, trivial⟩) (fun _ _ h => h)
  | supportCaseClosed closure =>
      exact (applySupportClosure_spec event closure db).mono (fun _ h => h)
        (fun _ _ h => ⟨h, trivial⟩) (fun _ _ h => h)
  | crmChange change => exact (meets_raise _).mpr fun _ _ => rfl
  | revenuePostingCreated posting => exact (meets_raise _).mpr fun _ _ => rfl

end OpsEventApplier

/-! ## Transactions -/

section Transactions

open OpsEventApplier

variable {foreign : String → Prop} {db : OpsDatabase}

/-- One event applied and marked. -/
def MarkStep (event : BusinessEvent) (db db' : OpsDatabase) : Prop :=
  event.eventId ∉ db.appliedEvents ∧
    ∃ applied, Applied event db applied ∧ Done applied event.body ∧
      db' = { applied with appliedEvents := db.appliedEvents ++ [event.eventId] }

/-- Events of a list, applied and marked one after another. -/
def AppliedBy (events : List BusinessEvent) : OpsDatabase → OpsDatabase → Prop :=
  Relation.ReflTransGen (fun db db' => ∃ event, event ∈ events ∧ MarkStep event db db')

/-- Two bodies that bring the same key. -/
def Clash : EventBody → EventBody → Prop
  | .orderCreated order, .orderCreated order' => order.orderId = order'.orderId
  | .shipmentCreated shipment, .shipmentCreated shipment' =>
      shipment.shipmentId = shipment'.shipmentId ∨ shipment.orderId = shipment'.orderId
  | _, _ => False

/-- The unmarked events of a list bring free ids, each its own. -/
structure Ready (foreign : String → Prop) (events : List BusinessEvent) (db : OpsDatabase) :
    Prop where
  own : ∀ event, event ∈ events → ¬ foreign event.eventId
  fresh : ∀ event, event ∈ events → event.eventId ∉ db.appliedEvents →
    FreshBody db event.body
  distinct : ∀ event, event ∈ events → ∀ event', event' ∈ events →
    event.eventId ∉ db.appliedEvents → event'.eventId ∉ db.appliedEvents →
      Clash event.body event'.body → event.eventId = event'.eventId

theorem MarkStep.appliedEvents
    {event : BusinessEvent} {db' : OpsDatabase} (h : MarkStep event db db') :
    db'.appliedEvents = db.appliedEvents ++ [event.eventId] := by
  obtain ⟨_, applied, _, _, rfl⟩ := h
  rfl

/-- No marker is lost. -/
theorem AppliedBy.marks_subset {events : List BusinessEvent} {db' : OpsDatabase}
    (h : AppliedBy events db db') : db.appliedEvents ⊆ db'.appliedEvents := by
  induction h with
  | refl => exact List.Subset.refl _
  | tail _ hstep ih =>
      obtain ⟨event, _, hstep⟩ := hstep
      rw [hstep.appliedEvents]
      exact List.Subset.trans ih (List.subset_append_left _ _)

/-- A new marker is of an event of the list. -/
theorem AppliedBy.mem_marks {events : List BusinessEvent} {db' : OpsDatabase} {id : String}
    (h : AppliedBy events db db') (hid : id ∈ db'.appliedEvents) :
    id ∈ db.appliedEvents ∨ ∃ event, event ∈ events ∧ event.eventId = id := by
  induction h with
  | refl => exact .inl hid
  | tail _ hstep ih =>
      obtain ⟨event, hevent, hstep⟩ := hstep
      rw [hstep.appliedEvents] at hid
      rcases List.mem_append.mp hid with hold | hnew
      · exact ih hold
      · exact .inr ⟨event, hevent, (List.mem_singleton.mp hnew).symm⟩

theorem orders_map_orderId (db : OpsDatabase) :
    db.orders.map OrderRow.orderId = db.orderKeys.map Prod.fst := by
  rw [orderKeys, List.map_map]
  rfl

theorem shipments_map_shipmentId (db : OpsDatabase) :
    db.shipments.map ShipmentRow.shipmentId = db.shipmentKeys.map Prod.fst := by
  rw [shipmentKeys, List.map_map]
  rfl

theorem shipments_map_orderId (db : OpsDatabase) :
    db.shipments.map ShipmentRow.orderId = db.shipmentKeys.map Prod.snd := by
  rw [shipmentKeys, List.map_map]
  rfl

/-- Order keys are never lost. -/
theorem Applied.orderKeys_subset
    {event : BusinessEvent} {db' : OpsDatabase} (h : Applied event db db') :
    db.orderKeys ⊆ db'.orderKeys := by
  obtain horders | ⟨order, _, _, horders⟩ := h.orders
  · rw [horders]
    exact List.Subset.refl _
  · rw [horders]
    exact List.subset_append_left _ _

theorem OpsSound.markStep
    {event : BusinessEvent} {db' : OpsDatabase} (hsound : OpsSound foreign db)
    (h : MarkStep event db db') :
    OpsSound foreign db' := by
  obtain ⟨_, applied, happlied, _, rfl⟩ := h
  refine ⟨fun row hmem n hnumber => ?_, fun row hmem => ?_, fun row hmem n hnumber => ?_,
    fun id hmem => ?_⟩
  · obtain hcustomers | ⟨m, hcustomers⟩ := happlied.customers
    · exact hsound.accounts row (hcustomers ▸ hmem) n hnumber
    · obtain hold | hnew := List.mem_append.mp (hcustomers ▸ hmem)
      · exact hsound.accounts row hold n hnumber
      · obtain rfl := List.mem_singleton.mp hnew
        exact accountNumber_injective hnumber
  · obtain hold | hnew := happlied.lines row hmem
    · have horder := hsound.lines row hold
      rw [orders_map_orderId] at horder ⊢
      exact List.map_subset _ happlied.orderKeys_subset horder
    · exact hnew
  · obtain hinvoices | ⟨row', _, _, _, hrow', hinvoices⟩ := happlied.invoices
    · exact hsound.numbers row (hinvoices ▸ hmem) n hnumber
    · obtain hold | hnew := List.mem_append.mp (hinvoices ▸ hmem)
      · exact hsound.numbers row hold n hnumber
      · obtain rfl := List.mem_singleton.mp hnew
        exact invoiceNumber_injective (hrow'.symm.trans hnumber)
  · obtain hold | rfl := happlied.histories id hmem
    · exact (hsound.histories id hold).imp_left (List.mem_append_left _)
    · exact .inl (List.mem_append_right _ (List.mem_singleton_self _))

/-- What an event adds leaves a body fresh that does not clash with it. -/
theorem FreshBody.applied
    {event : BusinessEvent} {db' : OpsDatabase} {body : EventBody} (hfresh : FreshBody db body)
    (h : Applied event db db') (hclash : ¬ Clash event.body body) :
    FreshBody db' body := by
  cases body with
  | orderCreated order =>
      rw [FreshBody, orders_map_orderId] at hfresh ⊢
      obtain horders | ⟨order', hbody, _, horders⟩ := h.orders
      · rwa [horders]
      · have hne : order'.orderId ≠ order.orderId := by
          rw [hbody] at hclash
          exact hclash
        simpa [horders, hne.symm] using hfresh
  | shipmentCreated shipment =>
      rw [FreshBody, shipments_map_shipmentId, shipments_map_orderId] at hfresh ⊢
      obtain hshipments | ⟨shipment', hbody, _, _, hshipments⟩ := h.shipments
      · rwa [hshipments]
      · have hne : shipment'.shipmentId ≠ shipment.shipmentId ∧
            shipment'.orderId ≠ shipment.orderId := by
          rw [hbody] at hclash
          exact not_or.mp hclash
        simpa [hshipments, hne.1.symm, hne.2.symm] using hfresh
  | _ => trivial

theorem Ready.markStep
    {events : List BusinessEvent} {event : BusinessEvent} {db' : OpsDatabase}
    (hready : Ready foreign events db) (hmem : event ∈ events) (h : MarkStep event db db') :
    Ready foreign events db' := by
  have hmarks := h.appliedEvents
  obtain ⟨hunmarked, applied, happlied, _, rfl⟩ := h
  have hold : ∀ {other : BusinessEvent}, other.eventId ∉ db.appliedEvents ++ [event.eventId] →
      other.eventId ∉ db.appliedEvents ∧ other.eventId ≠ event.eventId := by
    intro other hother
    simpa using hother
  refine ⟨hready.own, fun other hother hother' => ?_,
    fun other hother other' hmem' h₁ h₂ hclash => ?_⟩
  · obtain ⟨hunmarked', hne⟩ := hold hother'
    have hfresh : FreshBody applied other.body := by
      refine FreshBody.applied (hready.fresh other hother hunmarked') happlied fun hclash => ?_
      exact hne (hready.distinct event hmem other hother hunmarked hunmarked' hclash).symm
    cases hbody : other.body with
    | orderCreated order => rwa [hbody] at hfresh
    | shipmentCreated shipment => rwa [hbody] at hfresh
    | _ => trivial
  · exact hready.distinct other hother other' hmem' (hold h₁).1 (hold h₂).1 hclash

theorem applyOnce_spec (foreign : String → Prop) (event : BusinessEvent) (db : OpsDatabase) :
    (applyOnce event).Meets (fun _ => True)
      (fun _ db' => (event.eventId ∈ db.appliedEvents ∧ db' = db) ∨ MarkStep event db db')
      (fun e _ => OpsSound foreign db → ¬ foreign event.eventId →
        (event.eventId ∉ db.appliedEvents → FreshBody db event.body) →
          e.isDoubling = false) db := by
  simp only [applyOnce, applyUnmarked, meets_ite, meets_raise, meets_bind, meets_read,
    meets_pure]
  refine ⟨fun _ _ _ _ => rfl, fun _ => ⟨fun hmem => .inl ⟨hmem, trivial⟩, fun hunmarked => ?_⟩⟩
  refine (applyEvent_spec foreign event db).mono (fun _ h => h) ?_ ?_
  · rintro _ applied ⟨happlied, hdone⟩
    simp only [insertAppliedEvent, meets_bind, meets_pure, meets_insertRow, true_and]
    refine ⟨?_, fun _ => .inr ⟨hunmarked, applied, happlied, hdone, ?_⟩⟩
    · rintro ⟨known, hmem, hclash⟩
      obtain rfl : known = event.eventId := by simpa using hclash
      exact absurd (happlied.appliedEvents ▸ hmem) hunmarked
    · rw [← happlied.appliedEvents]
  · exact fun e _ herror hsound hown hfresh => herror hsound ⟨hunmarked, hown, hfresh hunmarked⟩

theorem apply_spec_of_foreign
    (foreign : String → Prop) (events : List BusinessEvent) (db : OpsDatabase) :
    (apply events).Meets (fun _ => True)
      (fun _ db' => AppliedBy events db db' ∧
        ∀ event, event ∈ events → event.eventId ∈ db'.appliedEvents)
      (fun e _ => OpsSound foreign db → Ready foreign events db → e.isDoubling = false) db := by
  have hmem : ∀ event, event ∈ inOrder events ↔ event ∈ events := fun event =>
    List.mem_insertionSort _
  have hloop : (sumEach applyOnce (inOrder events)).Meets (fun _ => True)
      (fun _ db' =>
        Relation.ReflTransGen (fun t t' => ∃ event, event ∈ inOrder events ∧ MarkStep event t t')
            db db' ∧
          ∀ event, event ∈ inOrder events → event.eventId ∈ db'.appliedEvents)
      (fun e _ => OpsSound foreign db ∧ Ready foreign events db → e.isDoubling = false) db := by
    refine meets_sumEach_once (R := fun t => OpsSound foreign t ∧ Ready foreign events t)
      (F := fun e : OpsError => e.isDoubling = false) ?_ ?_ ?_ ?_ db
    · refine fun event t => (applyOnce_spec foreign event t).mono (fun _ h => h) (fun _ _ h => h) ?_
      rintro e _ herror hevent ⟨hsound, hready⟩
      have hevent' := (hmem event).mp hevent
      exact herror hsound (hready.own event hevent') (hready.fresh event hevent')
    · intro event t t' hstep
      rw [hstep.appliedEvents]
      exact List.mem_append_right _ (List.mem_singleton_self _)
    · intro event other t t' hstep hmarked
      rw [hstep.appliedEvents]
      exact List.mem_append_left _ hmarked
    · rintro event hevent t t' ⟨hsound, hready⟩ hstep
      exact ⟨hsound.markStep hstep, hready.markStep ((hmem event).mp hevent) hstep⟩
  refine hloop.mono (fun _ h => h) ?_ (fun _ _ h hsound hready => h ⟨hsound, hready⟩)
  rintro _ db' ⟨hsteps, hmarked⟩
  refine ⟨hsteps.lift id ?_, fun event hevent => hmarked event ((hmem event).mpr hevent)⟩
  rintro t t' ⟨event, hevent, hstep⟩
  exact ⟨event, (hmem event).mp hevent, hstep⟩

/-- A transaction marks every event of its list; it raises no doubling error
where the unmarked ones bring free ids, each its own. -/
theorem apply_spec (events : List BusinessEvent) (db : OpsDatabase) :
    (apply events).Meets (fun _ => True)
      (fun _ db' => AppliedBy events db db' ∧
        ∀ event, event ∈ events → event.eventId ∈ db'.appliedEvents)
      (fun e _ => ∀ foreign, OpsSound foreign db → Ready foreign events db →
        e.isDoubling = false) db :=
  Meets.forall_error fun foreign => apply_spec_of_foreign foreign events db

end Transactions

end Simulator
end Northwind
