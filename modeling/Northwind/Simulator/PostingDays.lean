import Northwind.Simulator.SourceRunPhases

/-!
# When an invoice is posted

The ERP runs of consecutive days plan the postings of the invoices that are due,
and hold back what becomes due on a breach date.  What is held back is backlog
on the next day, and a backlog is posted whatever the day is.

A day is taken with the counts that its source run ends with: as many postings
applied as planned.
-/

namespace Northwind
namespace Simulator

open CrashPrograms CrashPrograms.Program SimulationState SimulationStateStore ErpEventApplier

/-! ## Applied postings -/

section Applying

variable {db : ErpDatabase}

/-- A posting with a new id is passed over as applied, or adds its row. -/
theorem applyOnce_counted
    {event : BusinessEvent} {posting : RevenuePostingCreated}
    (hbody : event.body = .revenuePostingCreated posting)
    (hnew : ∀ row, row ∈ db.revenuePostings → row.postingId ≠ posting.postingId) :
    (applyOnce event).Meets (fun _ => True)
      (fun n db' => (n = 0 ∧ db' = db) ∨
        (n = 1 ∧ db'.revenuePostings = db.revenuePostings ++ [posting.row]))
      (fun _ _ => True) db := by
  rw [applyOnce, hbody]
  simp only [applyUnmarked, meets_ite, meets_raise, meets_bind, meets_read, meets_pure]
  refine ⟨fun _ => trivial, fun _ => ⟨fun _ => .inl ⟨trivial, trivial⟩, fun _ => ?_⟩⟩
  refine (applyPosting_spec posting db).mono (fun _ h => h) ?_ (fun _ _ _ => trivial)
  intro _ applied hposted
  have hledger : applied.revenuePostings = db.revenuePostings ++ [posting.row] := by
    obtain ⟨_, row, hrow, hid, _⟩ | ⟨_, rfl⟩ := hposted
    · exact absurd hid (hnew row hrow)
    · rfl
  simp only [ErpEventApplier.insertAppliedEvent, meets_bind, meets_read, meets_ite, meets_raise,
    meets_write, meets_pure, implies_true, true_and]
  exact fun _ => .inr hledger

/-- Postings with new ids, each its own: where as many are applied as there are,
the ledger goes on by all their rows. -/
theorem apply_counted
    {make : RevenuePostingCreated → BusinessEvent}
    (hmake : ∀ posting, (make posting).body = .revenuePostingCreated posting)
    {postings : List RevenuePostingCreated}
    (hdistinct : (postings.map RevenuePostingCreated.postingId).Nodup)
    (hnew : ∀ posting, posting ∈ postings →
      ∀ row, row ∈ db.revenuePostings → row.postingId ≠ posting.postingId) :
    (ErpEventApplier.apply (postings.map make)).Meets (fun _ => True)
      (fun n db' => n ≤ postings.length ∧ (n = postings.length →
        db'.revenuePostings = db.revenuePostings ++ postings.map RevenuePostingCreated.row))
      (fun _ _ => True) db := by
  rw [ErpEventApplier.apply]
  induction postings generalizing db with
  | nil => exact (meets_pure _).mpr ⟨le_refl 0, fun _ => (List.append_nil _).symm⟩
  | cons posting postings ih =>
      rw [List.map_cons, List.nodup_cons] at hdistinct
      have hhead := applyOnce_counted (hmake posting) (hnew posting List.mem_cons_self)
      refine hhead.bind fun n db' hdb' => ?_
      have hnew' : ∀ other, other ∈ postings →
          ∀ row, row ∈ db'.revenuePostings → row.postingId ≠ other.postingId := by
        intro other hother row hrow
        obtain ⟨_, rfl⟩ | ⟨_, hledger⟩ := hdb'
        · exact hnew other (List.mem_cons_of_mem _ hother) row hrow
        · obtain hold | hadded := List.mem_append.mp (hledger ▸ hrow)
          · exact hnew other (List.mem_cons_of_mem _ hother) row hold
          · intro hid
            rw [List.mem_singleton.mp hadded] at hid
            exact hdistinct.1 (List.mem_map.mpr ⟨other, hother, hid.symm⟩)
      refine (ih hdistinct.2 hnew').bind fun k db'' hdb'' => (meets_pure _).mpr ?_
      obtain ⟨hle, hall⟩ := hdb''
      obtain ⟨rfl, _⟩ | ⟨rfl, hledger⟩ := hdb'
      · rw [List.length_cons]
        exact ⟨by omega, fun heq => absurd heq (by omega)⟩
      · rw [List.length_cons]
        refine ⟨by omega, fun heq => ?_⟩
        rw [hall (by omega), hledger, List.append_assoc, List.map_cons]
        rfl

end Applying

/-! ## Planned postings -/

namespace ErpDailyPlanner

variable (policy : SimulationPolicy) (sha256 : Sha256)

/-- The eligible invoices in the order of their ids. -/
def eligible (runDate : Nat) (seed : Int) (invoices : List OpsInvoice) (posted : List Nat) :
    List OpsInvoice :=
  (invoices.filter (isEligible policy sha256 runDate seed posted)).insertionSort
    (fun invoice invoice' => invoice.invoiceId ≤ invoice'.invoiceId)

/-- The payload of a planned posting. -/
def postingOf (postingId : Nat) (invoice : OpsInvoice) : RevenuePostingCreated where
  postingId := postingId
  documentNumber := documentNumber invoice.companyCode invoice.invoiceId
  invoiceId := invoice.invoiceId
  invoiceNumber := invoice.invoiceNumber
  orderRef := invoice.orderId
  companyCode := invoice.companyCode
  companyCurrency := invoice.companyCurrency
  documentCurrency := invoice.documentCurrency
  amountDoc := invoice.amountDoc
  postingDate := invoice.invoiceDate
  invoiceToErpDelayDays := postingDelay policy sha256 invoice

/-- The payloads of a plan. -/
def postings (runDate : Nat) (seed : Int) (invoices : List OpsInvoice) (posted : List Nat)
    (first : Nat) : List RevenuePostingCreated :=
  (numbered first (eligible policy sha256 runDate seed invoices posted)).map
    (fun x => postingOf policy sha256 x.1 x.2)

variable {policy} {sha256} {runDate : Nat} {seed : Int} {invoices : List OpsInvoice}
variable {posted : List Nat} {first : Nat}

theorem plan_eq_map :
    plan policy sha256 runDate seed invoices posted first =
      (postings policy sha256 runDate seed invoices posted first).map
        (fun posting => sha256.createEvent runDate (.revenuePostingCreated posting)) := by
  rw [plan, planNumbered, postings, List.map_map, ← List.filterMap_eq_map]
  rfl

theorem postings_map_postingId :
    (postings policy sha256 runDate seed invoices posted first).map
        RevenuePostingCreated.postingId =
      (eligible policy sha256 runDate seed invoices posted).zipIdx.map (fun x => first + x.2) := by
  rw [postings, numbered, List.map_map, List.map_map]
  rfl

theorem nodup_postings :
    ((postings policy sha256 runDate seed invoices posted first).map
      RevenuePostingCreated.postingId).Nodup := by
  have hindices : ((eligible policy sha256 runDate seed invoices posted).zipIdx.map
      Prod.snd).Nodup := by
    rw [List.zipIdx_map_snd]
    exact List.nodup_range' 1
  have hmap : (eligible policy sha256 runDate seed invoices posted).zipIdx.map
      (fun x => first + x.2) = ((eligible policy sha256 runDate seed invoices posted).zipIdx.map
        Prod.snd).map (first + ·) := by
    rw [List.map_map]
    rfl
  rw [postings_map_postingId, hmap]
  exact hindices.map (add_right_injective first)

theorem le_postingId {posting : RevenuePostingCreated}
    (h : posting ∈ postings policy sha256 runDate seed invoices posted first) :
    first ≤ posting.postingId := by
  have hmem := List.mem_map_of_mem (f := RevenuePostingCreated.postingId) h
  rw [postings_map_postingId] at hmem
  obtain ⟨x, _, heq⟩ := List.mem_map.mp hmem
  rw [← heq]
  exact Nat.le_add_right _ _

end ErpDailyPlanner

/-- The rows of one key in a list where keys are distinct. -/
theorem filter_key_eq_singleton {α κ : Type} [DecidableEq κ] {key : α → κ} {xs : List α} {x : α}
    (h : (xs.map key).Nodup) (hx : x ∈ xs) :
    xs.filter (fun y => key y = key x) = [x] := by
  induction xs with
  | nil => cases hx
  | cons y ys ih =>
      rw [List.map_cons, List.nodup_cons] at h
      obtain rfl | hmem := List.mem_cons.mp hx
      · have hrest : ys.filter (fun y => key y = key x) = [] := by
          rw [List.filter_eq_nil_iff]
          intro y hy hkey
          exact h.1 (List.mem_map.mpr ⟨y, hy, of_decide_eq_true hkey⟩)
        rw [List.filter_cons_of_pos (by simp), hrest]
      · have hne : key y ≠ key x := by
          intro heq
          exact h.1 (List.mem_map.mpr ⟨x, hmem, heq.symm⟩)
        rw [List.filter_cons_of_neg (by simpa using hne), ih h.2 hmem]

theorem numbered_filter {α : Type} {p : α → Bool} (first : Nat) (xs : List α) :
    ((numbered first xs).filter (fun x => p x.2)).map Prod.snd = xs.filter p := by
  have hxs : (numbered first xs).map Prod.snd = xs := by
    rw [numbered, List.map_map]
    exact List.zipIdx_map_fst 0 xs
  conv_rhs => rw [← hxs, List.filter_map]
  rfl

/-! ## Ledgers -/

/-- The rows of an order. -/
def ErpDatabase.rowsOf (db : ErpDatabase) (orderId : Nat) : List RevenuePostingRow :=
  db.revenuePostings.filter (fun row => row.orderRef = some orderId)

section Plan

variable {policy : SimulationPolicy} {sha256 : Sha256} {d : Nat} {seed : Int} {s : Stores}
variable {invoice : OpsInvoice}

/-- The payloads of `planPostings`. -/
def plannedPostings (policy : SimulationPolicy) (sha256 : Sha256) (d : Nat) (seed : Int)
    (s : Stores) : List RevenuePostingCreated :=
  let invoices := readOpsInvoices s.ops
  ErpDailyPlanner.postings policy sha256 d seed (invoices.map (enriched s.erp))
    (postedOrderIds s.erp invoices) (nextId (s.erp.revenuePostings.map RevenuePostingRow.postingId))

theorem planPostings_eq_map :
    ErpRun.planPostings policy sha256 d seed s =
      (plannedPostings policy sha256 d seed s).map
        (fun posting => sha256.createEvent d (.revenuePostingCreated posting)) :=
  ErpDailyPlanner.plan_eq_map

/-- No two invoices of one order are issued. -/
def OnePerOrder (db : OpsDatabase) : Prop :=
  ((readOpsInvoices db).map OpsInvoice.orderId).Nodup

theorem mem_postedOrderIds (h : invoice ∈ readOpsInvoices s.ops) :
    invoice.orderId ∈ postedOrderIds s.erp (readOpsInvoices s.ops) ↔
      s.erp.rowsOf invoice.orderId ≠ [] := by
  have hmem : invoice.orderId ∈ (readOpsInvoices s.ops).map OpsInvoice.orderId :=
    List.mem_map_of_mem h
  simp only [postedOrderIds, ErpDatabase.rowsOf, List.mem_filter, List.mem_filterMap,
    decide_eq_true hmem, and_true, ne_eq, List.filter_eq_nil_iff]
  simp only [decide_eq_true_eq, not_forall, not_not, exists_prop]

/-- The rows that a plan adds for the order of an invoice. -/
theorem plannedPostings_filter (honce : OnePerOrder s.ops)
    (h : invoice ∈ readOpsInvoices s.ops) :
    ((plannedPostings policy sha256 d seed s).filter
        (fun posting => posting.orderRef = invoice.orderId) = [] ∧
      ErpDailyPlanner.isEligible policy sha256 d seed
        (postedOrderIds s.erp (readOpsInvoices s.ops)) invoice = false) ∨
    ((∃ id, (plannedPostings policy sha256 d seed s).filter
        (fun posting => posting.orderRef = invoice.orderId) =
          [ErpDailyPlanner.postingOf policy sha256 id (enriched s.erp invoice)]) ∧
      ErpDailyPlanner.isEligible policy sha256 d seed
        (postedOrderIds s.erp (readOpsInvoices s.ops)) invoice = true) := by
  let posted := postedOrderIds s.erp (readOpsInvoices s.ops)
  let invoices := (readOpsInvoices s.ops).map (enriched s.erp)
  let first := nextId (s.erp.revenuePostings.map RevenuePostingRow.postingId)
  let eligible := ErpDailyPlanner.eligible policy sha256 d seed invoices posted
  have hkeys : (invoices.map OpsInvoice.orderId).Nodup := by
    rw [List.map_map]
    exact honce
  have hmem : enriched s.erp invoice ∈ invoices := List.mem_map_of_mem h
  have hone : invoices.filter (fun other => other.orderId = invoice.orderId) =
      [enriched s.erp invoice] := filter_key_eq_singleton hkeys hmem
  have hperm : (eligible.filter (fun other => other.orderId = invoice.orderId)).Perm
      ([enriched s.erp invoice].filter
        (ErpDailyPlanner.isEligible policy sha256 d seed posted)) := by
    rw [← hone, List.filter_filter]
    have hswap := (List.perm_insertionSort
      (fun invoice invoice' : OpsInvoice => invoice.invoiceId ≤ invoice'.invoiceId)
      (invoices.filter (ErpDailyPlanner.isEligible policy sha256 d seed posted))).filter
        (fun other => other.orderId = invoice.orderId)
    rw [List.filter_filter] at hswap
    refine hswap.trans (List.Perm.of_eq (List.filter_congr fun other _ => ?_))
    exact Bool.and_comm _ _
  have hplanned : (plannedPostings policy sha256 d seed s).filter
        (fun posting => posting.orderRef = invoice.orderId) =
      ((numbered first eligible).filter
        (fun x => x.2.orderId = invoice.orderId)).map
          (fun x => ErpDailyPlanner.postingOf policy sha256 x.1 x.2) := by
    rw [plannedPostings, ErpDailyPlanner.postings, List.filter_map]
    rfl
  have hnumbered := numbered_filter (p := fun other : OpsInvoice =>
    decide (other.orderId = invoice.orderId)) first eligible
  have hsame : ErpDailyPlanner.isEligible policy sha256 d seed posted (enriched s.erp invoice) =
      ErpDailyPlanner.isEligible policy sha256 d seed posted invoice := rfl
  by_cases heligible : ErpDailyPlanner.isEligible policy sha256 d seed posted invoice = true
  · refine .inr ⟨?_, heligible⟩
    rw [List.filter_cons_of_pos (hsame.trans heligible), List.filter_nil,
      List.perm_singleton] at hperm
    rw [hperm] at hnumbered
    obtain ⟨x, hx, hinvoice⟩ := List.map_eq_singleton_iff.mp hnumbered
    rw [hplanned, hx]
    exact ⟨x.1, by rw [List.map_singleton, hinvoice]⟩
  · refine .inl ⟨?_, Bool.not_eq_true _ |>.mp heligible⟩
    rw [List.filter_cons_of_neg (by rwa [hsame]), List.filter_nil, List.perm_nil] at hperm
    rw [hperm, List.map_eq_nil_iff] at hnumbered
    rw [hplanned, hnumbered]
    rfl

/-- A plan adds no row for an order without an invoice. -/
theorem plannedPostings_filter_of_absent {orderId : Nat}
    (h : orderId ∉ (readOpsInvoices s.ops).map OpsInvoice.orderId) :
    (plannedPostings policy sha256 d seed s).filter
      (fun posting => posting.orderRef = orderId) = [] := by
  rw [List.filter_eq_nil_iff]
  intro posting hposting horder
  obtain ⟨x, hx, rfl⟩ := List.mem_map.mp hposting
  obtain ⟨y, hy, rfl⟩ := List.mem_map.mp hx
  have hmem := (List.mem_filter.mp ((List.mem_insertionSort _).mp
    (List.fst_mem_of_mem_zipIdx hy))).1
  obtain ⟨invoice, hinvoice, heq⟩ := List.mem_map.mp hmem
  refine h (List.mem_map.mpr ⟨invoice, hinvoice, ?_⟩)
  have horder' : y.1.orderId = orderId := of_decide_eq_true horder
  rw [← horder', ← heq]
  rfl

end Plan

/-! ## A successful day -/

section Day

variable {policy : SimulationPolicy} {sha256 : Sha256} {d : Nat} {seed : Int} {s : Stores}

/-- The ledger after a day: the counts of its source run, and the rows of the
plan where as many postings were applied as planned. -/
def DayPosted (policy : SimulationPolicy) (sha256 : Sha256) (d : Nat) (seed : Int)
    (s t : Stores) : Prop :=
  ∃ run, t.control.sourceRuns d .erp = some run ∧
    (run.recordsApplied = run.recordsGenerated →
      t.erp.revenuePostings = s.erp.revenuePostings ++
        (plannedPostings policy sha256 d seed s).map RevenuePostingCreated.row)

theorem eventsFor_congr {control control' : SimulationState EventBody} {source : SourceSystem}
    (h : control'.events = control.events) :
    control'.eventsFor d source = control.eventsFor d source := by
  rw [SimulationState.eventsFor, SimulationState.eventsFor, h]

theorem completeRun_keeps (s : SimulationState EventBody) (d : Nat) :
    (completeRun d).Meets (fun _ => True) (fun _ t => t.sourceRuns = s.sourceRuns)
      (fun _ _ => True) s := by
  rw [completeRun, meets_bind, meets_fetchWatermark]
  refine ⟨fun w _ => ?_, fun _ => trivial⟩
  simp only [meets_ite, meets_raise, meets_bind, meets_read, meets_write, true_and]
  exact ⟨fun _ => trivial, fun _ => ⟨fun _ => trivial, fun _ => rfl⟩⟩

/-- The plan is recorded from the stores the day starts with. -/
theorem recordPostings_plan (hunplanned : s.control.eventsFor d .erp = []) :
    (ErpRun.recordPostings policy sha256 d seed).Meets (fun _ => True)
      (fun events t => events = ErpRun.planPostings policy sha256 d seed s ∧
        t.erp = s.erp ∧ t.ops = s.ops)
      (fun _ _ => True) s := by
  simp only [ErpRun.recordPostings, meets_bind, meets_read, hunplanned, List.isEmpty_nil,
    if_true, ErpRun.planAndRecord, meets_ite, meets_raise, implies_true, true_and]
  intro _
  rw [ErpRun.recordPlan]
  refine ((record_spec s _).mono (fun _ _ => trivial) (fun _ _ h => h)
    (fun _ _ _ => trivial)).bind fun _ t ht => (meets_pure _).mpr ?_
  rw [ht]
  exact ⟨rfl, rfl, rfl⟩

theorem work_posted (hunplanned : s.control.eventsFor d .erp = []) :
    (ErpRun.work policy sha256 d seed).Meets (fun _ => True)
      (fun _ t => DayPosted policy sha256 d seed s t) (fun _ _ => True) s := by
  rw [ErpRun.work]
  refine (recordPostings_plan hunplanned).bind ?_
  rintro _ t ⟨rfl, herp, hops⟩
  have hledger : (inErp (ErpEventApplier.apply (ErpRun.planPostings policy sha256 d seed s))).Meets
      (fun _ => True)
      (fun n u => u.control = t.control ∧
        (n = (plannedPostings policy sha256 d seed s).length →
          u.erp.revenuePostings = s.erp.revenuePostings ++
            (plannedPostings policy sha256 d seed s).map RevenuePostingCreated.row))
      (fun _ _ => True) t := by
    rw [inErp, meets_onPart, meets_transaction, planPostings_eq_map, herp]
    refine (apply_counted (fun _ => rfl) ErpDailyPlanner.nodup_postings ?_).mono
      (fun _ h => h) (fun _ _ h => ⟨trivial, rfl, h.2⟩) (fun _ _ h => h)
    intro posting hposting row hrow hid
    have hnext := ErpDailyPlanner.le_postingId hposting
    have hlt := lt_nextId (List.mem_map_of_mem (f := RevenuePostingRow.postingId) hrow)
    omega
  refine hledger.bind ?_
  rintro n u ⟨_, hrows⟩
  have hmark : (inControl (markSourceApplied d .erp
        (ErpRun.planPostings policy sha256 d seed s).length n)).Meets (fun _ => True)
      (fun _ v => v.erp = u.erp ∧ v.control.sourceRuns d .erp =
        some ⟨.applied, (ErpRun.planPostings policy sha256 d seed s).length, n⟩)
      (fun _ _ => True) u := by
    rw [inControl, meets_onPart]
    simp only [markSourceApplied, applySource, meets_ite, meets_raise, meets_bind, meets_read,
      meets_write, implies_true, true_and]
    exact fun _ _ _ => setSourceRun_sourceRuns_self _ _ _ _
  refine hmark.bind ?_
  rintro _ v ⟨hsame, hrun⟩
  rw [inControl, meets_onPart]
  refine (completeRun_keeps v.control d).mono (fun _ _ => trivial) ?_ (fun _ _ _ => trivial)
  intro _ control hcontrol
  refine ⟨_, by rw [hcontrol]; exact hrun, fun hcounts => ?_⟩
  refine (congrArg ErpDatabase.revenuePostings hsame).trans (hrows ?_)
  rw [planPostings_eq_map, List.length_map] at hcounts
  exact Int.ofNat_inj.mp hcounts

/-- What a successful ERP run of a day does to the ledger. -/
theorem run_posted (hunplanned : s.control.eventsFor d .erp = []) :
    (ErpRun.run policy sha256 d seed).Meets (fun _ => True)
      (fun _ t => DayPosted policy sha256 d seed s t) (fun _ _ => True) s := by
  rw [ErpRun.run, meets_bind, inControl, meets_onPart]
  refine (claimRun_sameOutside policy.isWeeklySlaBreachDate d seed).mono (fun _ _ => trivial) ?_
    (fun _ _ _ => trivial)
  intro _ control houtside
  refine ((sourceRunState_spec { s with control := control } d .ops).mono (fun _ _ => trivial)
    (fun _ _ h => h.1) (fun _ _ _ => trivial)).bind ?_
  rintro state t rfl
  simp only [meets_ite, meets_raise, implies_true, true_and]
  intro _
  have hsame : control.eventsFor d .erp = [] :=
    (eventsFor_congr houtside.events).trans hunplanned
  exact work_posted (s := { s with control := control }) hsame

end Day

/-! ## Consecutive days -/

section Days

variable {policy : SimulationPolicy} {sha256 : Sha256} {seed : Int} {first days : Nat}
variable {morning evening : Nat → Stores} {invoice : OpsInvoice}

/-- Successful ERP runs of consecutive days, from the stores of the morning to
those of the evening.  Invoices arrive between the runs, one for an order, and
nobody else writes to the ledger. -/
structure PostingDays (policy : SimulationPolicy) (sha256 : Sha256) (seed : Int)
    (first days : Nat) (morning evening : Nat → Stores) : Prop where
  ran : ∀ d, first ≤ d → d < first + days →
    (ErpRun.run policy sha256 d seed (morning d)).result = .ok ⟨⟩ ∧
      (ErpRun.run policy sha256 d seed (morning d)).final = evening d
  unplanned : ∀ d, first ≤ d → d < first + days → (morning d).control.eventsFor d .erp = []
  applied : ∀ d, first ≤ d → d < first + days →
    ∀ run, (evening d).control.sourceRuns d .erp = some run →
      run.recordsApplied = run.recordsGenerated
  ledger : ∀ d, first ≤ d → d + 1 < first + days →
    (morning (d + 1)).erp.revenuePostings = (evening d).erp.revenuePostings
  arrived : ∀ d, first ≤ d → d + 1 < first + days →
    readOpsInvoices (morning d).ops ⊆ readOpsInvoices (morning (d + 1)).ops
  onePerOrder : ∀ d, first ≤ d → d < first + days → OnePerOrder (morning d).ops

/-- `invoice_date + timedelta(days=delay)` -/
def dueDate (policy : SimulationPolicy) (sha256 : Sha256) (invoice : OpsInvoice) : Nat :=
  invoice.invoiceDate + ErpDailyPlanner.postingDelay policy sha256 invoice

/-- The due date, or the day after it where that is a breach date. -/
def postedOn (policy : SimulationPolicy) (sha256 : Sha256) (seed : Int) (invoice : OpsInvoice) :
    Nat :=
  if policy.isWeeklySlaBreachDate (dueDate policy sha256 invoice) seed then
    dueDate policy sha256 invoice + 1
  else dueDate policy sha256 invoice

theorem dueDate_le_postedOn :
    dueDate policy sha256 invoice ≤ postedOn policy sha256 seed invoice := by
  rw [postedOn]
  split
  · exact Nat.le_succ _
  · exact le_refl _

/-- An invoice without a posting is eligible from the day on that it is posted. -/
theorem isEligible_iff {d : Nat} {posted : List Nat} :
    ErpDailyPlanner.isEligible policy sha256 d seed posted invoice = true ↔
      invoice.orderId ∉ posted ∧ postedOn policy sha256 seed invoice ≤ d := by
  have hdue : invoice.invoiceDate + ErpDailyPlanner.postingDelay policy sha256 invoice =
      dueDate policy sha256 invoice := rfl
  simp only [ErpDailyPlanner.isEligible, hdue, Bool.and_eq_true, decide_eq_true_eq,
    Bool.not_eq_true', Bool.and_eq_false_iff, decide_eq_false_iff_not, and_assoc]
  refine and_congr_right fun _ => ?_
  rw [postedOn]
  obtain hlt | rfl | hlt := lt_trichotomy (dueDate policy sha256 invoice) d
  · refine iff_of_true ⟨hlt.le, .inr hlt.ne⟩ ?_
    split
    · exact hlt
    · exact hlt.le
  · split
    · next hbreach => simp [hbreach]
    · next hbreach => simpa using hbreach
  · refine iff_of_false (fun h => hlt.not_ge h.1) ?_
    split
    · omega
    · exact hlt.not_ge

namespace PostingDays

variable (h : PostingDays policy sha256 seed first days morning evening)
include h

/-- The rows of an order go on by those of the plan. -/
theorem rowsOf_evening {d : Nat} (hfirst : first ≤ d) (hd : d < first + days) (orderId : Nat) :
    (evening d).erp.rowsOf orderId = (morning d).erp.rowsOf orderId ++
      ((plannedPostings policy sha256 d seed (morning d)).filter
        (fun posting => posting.orderRef = orderId)).map RevenuePostingCreated.row := by
  obtain ⟨hok, hfinal⟩ := h.ran d hfirst hd
  obtain ⟨run, hrun, hledger⟩ :=
    hfinal ▸ (run_posted (h.unplanned d hfirst hd)).of_ok hok
  rw [ErpDatabase.rowsOf, hledger (h.applied d hfirst hd run hrun), List.filter_append,
    List.filter_map]
  refine congrArg _ (congrArg _ (List.filter_congr fun posting _ => ?_))
  simp [RevenuePostingCreated.row]

/-- Invoices that are there stay. -/
theorem arrived_by {d d' : Nat} (hfirst : first ≤ d) (hle : d ≤ d') (hd' : d' < first + days) :
    readOpsInvoices (morning d).ops ⊆ readOpsInvoices (morning d').ops := by
  induction d', hle using Nat.le_induction with
  | base => exact List.Subset.refl _
  | succ d' hle ih =>
      exact List.Subset.trans (ih (Nat.lt_of_succ_lt hd')) (h.arrived d' (hfirst.trans hle) hd')

variable {appears : Nat}

/-- Before an invoice appears, its order has none. -/
theorem not_mem_orderIds (happears : first ≤ appears) (hrange : appears < first + days)
    (harrives : ∀ d, first ≤ d → d < first + days →
      (invoice ∈ readOpsInvoices (morning d).ops ↔ appears ≤ d))
    {d : Nat} (hfirst : first ≤ d) (hd : d < appears) :
    invoice.orderId ∉ (readOpsInvoices (morning d).ops).map OpsInvoice.orderId := by
  intro hmem
  obtain ⟨other, hother, hid⟩ := List.mem_map.mp hmem
  have hlater := h.arrived_by hfirst hd.le hrange hother
  have hinvoice := (harrives appears happears hrange).mpr (le_refl _)
  have heq : other = invoice :=
    List.inj_on_of_nodup_map (h.onePerOrder appears happears hrange) hlater hinvoice hid
  rw [heq] at hother
  exact hd.not_ge ((harrives d hfirst (hd.trans hrange)).mp hother)

/-- What one day does for the order of an invoice: nothing before the day it is
posted on, one posting on that day and none where there is one. -/
theorem rowsOf_day (happears : first ≤ appears) (hrange : appears < first + days)
    (harrives : ∀ d, first ≤ d → d < first + days →
      (invoice ∈ readOpsInvoices (morning d).ops ↔ appears ≤ d))
    (hdue : appears ≤ dueDate policy sha256 invoice)
    {d : Nat} (hfirst : first ≤ d) (hd : d < first + days) :
    ((evening d).erp.rowsOf invoice.orderId = (morning d).erp.rowsOf invoice.orderId ∧
      ((morning d).erp.rowsOf invoice.orderId ≠ [] ∨
        d < postedOn policy sha256 seed invoice)) ∨
    ((∃ row, (evening d).erp.rowsOf invoice.orderId = [row] ∧
      row.documentNumber = documentNumber invoice.companyCode invoice.invoiceId) ∧
      postedOn policy sha256 seed invoice ≤ d) := by
  rw [h.rowsOf_evening hfirst hd]
  by_cases hthere : appears ≤ d
  · have hmem := (harrives d hfirst hd).mpr hthere
    obtain ⟨hplanned, heligible⟩ | ⟨⟨id, hplanned⟩, heligible⟩ :=
      plannedPostings_filter (h.onePerOrder d hfirst hd) hmem
    · refine .inl ⟨by rw [hplanned, List.map_nil, List.append_nil], ?_⟩
      rw [← mem_postedOrderIds hmem]
      by_contra hneither
      obtain ⟨hposted, hlate⟩ := not_or.mp hneither
      exact absurd (isEligible_iff.mpr ⟨hposted, Nat.le_of_not_lt hlate⟩) (by simp [heligible])
    · obtain ⟨hposted, hlate⟩ := isEligible_iff.mp heligible
      rw [mem_postedOrderIds hmem, not_not] at hposted
      refine .inr ⟨⟨_, by rw [hplanned, hposted]; rfl, rfl⟩, hlate⟩
  · have hbefore := Nat.lt_of_not_le hthere
    have habsent := h.not_mem_orderIds happears hrange harrives hfirst hbefore
    refine .inl ⟨?_, .inr ((hbefore.trans_le hdue).trans_le dueDate_le_postedOn)⟩
    rw [plannedPostings_filter_of_absent habsent, List.map_nil, List.append_nil]

/-- An invoice that is due no earlier than it appears is posted exactly once: on
its due date, or on the day after it where that is a breach date. -/
theorem posted_once (happears : first ≤ appears)
    (harrives : ∀ d, first ≤ d → d < first + days →
      (invoice ∈ readOpsInvoices (morning d).ops ↔ appears ≤ d))
    (hdue : appears ≤ dueDate policy sha256 invoice)
    (hunposted : (morning first).erp.rowsOf invoice.orderId = [])
    (hlong : postedOn policy sha256 seed invoice < first + days)
    {d : Nat} (hfirst : first ≤ d) (hd : d < first + days) :
    (d < postedOn policy sha256 seed invoice → (evening d).erp.rowsOf invoice.orderId = []) ∧
    (postedOn policy sha256 seed invoice ≤ d →
      ∃ row, (evening d).erp.rowsOf invoice.orderId = [row] ∧
        row.documentNumber = documentNumber invoice.companyCode invoice.invoiceId) := by
  have hrange : appears < first + days := (hdue.trans dueDate_le_postedOn).trans_lt hlong
  induction d, hfirst using Nat.le_induction with
  | base =>
      obtain ⟨hsame, hearly⟩ | ⟨hrow, hlate⟩ :=
        h.rowsOf_day happears hrange harrives hdue (le_refl first) hd
      · have hbefore := hearly.resolve_left (fun hne => hne hunposted)
        exact ⟨fun _ => hsame.trans hunposted, fun hle => absurd hbefore hle.not_gt⟩
      · exact ⟨fun hlt => absurd hlt hlate.not_gt, fun _ => hrow⟩
  | succ d hfirst ih =>
      obtain ⟨hbefore, hafter⟩ := ih (Nat.lt_of_succ_lt hd)
      have hnight : (morning (d + 1)).erp.rowsOf invoice.orderId =
          (evening d).erp.rowsOf invoice.orderId := by
        rw [ErpDatabase.rowsOf, h.ledger d hfirst hd, ErpDatabase.rowsOf]
      obtain ⟨hsame, hearly⟩ | ⟨hrow, hlate⟩ :=
        h.rowsOf_day happears hrange harrives hdue (hfirst.trans (Nat.le_succ d)) hd
      · rw [hnight] at hsame hearly
        rw [hsame]
        refine ⟨fun hlt => hbefore (Nat.lt_of_succ_lt hlt), fun hle => ?_⟩
        -- what is not early has a row, and so had one the day before
        have hne := hearly.resolve_right hle.not_gt
        exact hafter (Nat.le_of_not_lt fun hlt => hne (hbefore hlt))
      · exact ⟨fun hlt => absurd hlt hlate.not_gt, fun _ => hrow⟩

end PostingDays

end Days

/-! ## An invoice held back -/

/-- Every day is a breach date, and every digest is the same. -/
def breachPolicy : SimulationPolicy where
  isWeeklySlaBreachDate _ _ := true

def constantDigest : Sha256 where
  digest _ byte := if byte = 0 then 0 else 255
  hexdigest _ _ _ _ _ := "0"

def heldInvoice : OpsInvoice where
  invoiceId := 3
  invoiceNumber := "OPS-000000000007"
  orderId := 7
  invoiceDate := 0
  companyCode := "US01"
  companyCurrency := ""
  documentCurrency := "USD"
  amountDoc := 1999

def heldOps : OpsDatabase where
  customers := [⟨1, "ACC-000001", "US01"⟩]
  products := []
  warehouses := []
  carriers := []
  orders := [⟨7, 1, some "006a", 0, "USD", .invoiced⟩]
  orderLines := []
  shipments := []
  invoices := [⟨3, "OPS-000000000007", 7, 0, "USD", 1999, .issued⟩]
  supportCases := []
  orderHistory := []
  shipmentHistory := []
  invoiceHistory := []
  caseHistory := []
  appliedEvents := []

def heldErp : ErpDatabase where
  companies := [⟨"US01", "USD"⟩]
  glAccounts := [⟨"4000", "REVENUE", true⟩]
  costCenters := [⟨"CC1", "US01", true, 0, none⟩]
  fxRates := []
  revenuePostings := []
  appliedEvents := []

/-- A date with its rows, CRM and Ops applied. -/
def opsAppliedOn (d : Nat) (s : SimulationState EventBody) : SimulationState EventBody :=
  (((s.setRun d ⟨.inProgress, true⟩).setSourceRun d .crm ⟨.applied, 0, 0⟩).setSourceRun d .ops
    ⟨.applied, 0, 0⟩).setSourceRun d .erp ⟨.pending, 0, 0⟩

def heldMorning : Nat → Stores
  | 0 => ⟨{ SimulationState.empty with lastCompleted := some 0 }, heldOps, heldErp⟩
  | d + 1 =>
      let night := (ErpRun.run breachPolicy constantDigest d 0 (heldMorning d)).final
      { night with control := opsAppliedOn (d + 1) { night.control with lastCompleted := some d } }

def heldEvening (d : Nat) : Stores :=
  (ErpRun.run breachPolicy constantDigest d 0 (heldMorning d)).final

theorem heldDays : PostingDays breachPolicy constantDigest 0 1 2 heldMorning heldEvening := by
  have hdays : ∀ {d}, 1 ≤ d → d < 1 + 2 → d = 1 ∨ d = 2 := fun h h' => by omega
  refine ⟨fun d h h' => ?_, fun d h h' => ?_, fun d h h' run hrun => ?_, fun d h h' => ?_,
    fun d h h' => ?_, fun d h h' => ?_⟩
  · obtain rfl | rfl := hdays h h'
    · exact ⟨by rfl, rfl⟩
    · exact ⟨by rfl, rfl⟩
  · obtain rfl | rfl := hdays h h'
    · rfl
    · rfl
  · obtain rfl | rfl := hdays h h'
    · cases hrun
      rfl
    · cases hrun
      rfl
  · obtain rfl : d = 1 := by omega
    rfl
  · obtain rfl : d = 1 := by omega
    exact List.Subset.refl _
  · obtain rfl | rfl := hdays h h'
    · exact List.nodup_singleton _
    · exact List.nodup_singleton _

/-- Due on the first of two breach dates, posted on the second one. -/
theorem posted_once_held :
    (heldEvening 1).erp.rowsOf 7 = [] ∧
      ∃ row, (heldEvening 2).erp.rowsOf 7 = [row] ∧ row.documentNumber = "US01-000000000003" := by
  have harrives : ∀ d, 1 ≤ d → d < 1 + 2 →
      (heldInvoice ∈ readOpsInvoices (heldMorning d).ops ↔ 1 ≤ d) := by
    intro d h h'
    obtain rfl | rfl : d = 1 ∨ d = 2 := by omega
    · exact iff_of_true (List.mem_singleton_self _) h
    · exact iff_of_true (List.mem_singleton_self _) h
  have hposted : ∀ {d}, 1 ≤ d → d < 1 + 2 → _ := fun {d} (h : 1 ≤ d) (h' : d < 1 + 2) =>
    heldDays.posted_once (le_refl 1) harrives (by decide) rfl (by decide) h h'
  exact ⟨(hposted (le_refl 1) (by decide)).1 (by decide),
    (hposted (by decide) (by decide)).2 (le_refl 2)⟩

end Simulator
end Northwind
