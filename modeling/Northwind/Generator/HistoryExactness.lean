import Northwind.Generator.HistoryRestarts

/-!
# What the history backfill comes to

`history_backfill_exact`: when a target is reported complete after any crashes and
restarts, its history is that of the start and the inferred rows of every entity that
had none, the tables are as they were, further runs add nothing, and a dry run at the
start would have reported the same batches.

This holds as long as no row of the history has the event id of another entity: such an
id keeps an inferred row from being inserted (`claimedInvoice_not_exact`).
-/

namespace Northwind
namespace Generator
namespace HistoryBackfill

open Simulator Keysets

/-! ## The batches of a target -/

section Logs

variable {target : HistoryTarget}

def predictions (log : List CommittedBatch) : List BatchResult :=
  log.map (fun batch => batch.result.predicted)

theorem upToCompleted_append_of_open {log : List CommittedBatch}
    (hopen : ∀ batch ∈ log, batch.result.completed = false) (log' : List CommittedBatch) :
    upToCompleted (log ++ log') = log ++ upToCompleted log' := by
  induction log with
  | nil => rfl
  | cons batch log ih =>
      rw [List.forall_mem_cons] at hopen
      rw [List.cons_append, upToCompleted, hopen.1, ih hopen.2]
      rfl

theorem upToCompleted_append_of_completed {log : List CommittedBatch}
    (hcompleted : ∃ batch ∈ log, batch.result.completed = true) (log' : List CommittedBatch) :
    upToCompleted (log ++ log') = upToCompleted log := by
  induction log with
  | nil =>
      obtain ⟨batch, hmem, _⟩ := hcompleted
      exact nomatch hmem
  | cons first log ih =>
      rw [List.cons_append, upToCompleted, upToCompleted]
      split
      · rfl
      · rename_i hfirst
        obtain ⟨batch, hmem, hbatch⟩ := hcompleted
        rcases List.mem_cons.mp hmem with rfl | hlater
        · exact absurd hbatch hfirst
        · rw [ih ⟨batch, hlater, hbatch⟩]

variable {hexdigest : String → String} {batchSize : Nat} {sources : List target.Candidate}
variable {start state state' : HistoryState target} {log : List CommittedBatch} {n : Nat}
variable {reported : BatchResult}

/-- A target at its commits with the batches so far: a dry run of their size reports
them, and goes on as the next batches will. -/
structure Logged (hexdigest : String → String) (sources : List target.Candidate)
    (start state : HistoryState target) (log : List CommittedBatch) (n : Nat) : Prop where
  walked : Walked hexdigest sources start state n
  completed : state.ledger.completed = true ↔ ∃ batch ∈ log, batch.result.completed = true
  foretold : state.ledger.completed = false → ∀ batchSize,
    (∀ batch ∈ log, batch.batchSize = batchSize) → ∀ batches,
      dryRunFrom hexdigest batchSize sources start.history (log.length + batches) none =
        (dryRunFrom hexdigest batchSize sources start.history batches
          ((checkpointAt sources start n).map toString)).map (fun results =>
            predictions log ++ results)
  ended : state.ledger.completed = true → ∀ batchSize,
    (∀ batch ∈ log, batch.batchSize = batchSize) → ∀ batches,
      dryRunFrom hexdigest batchSize sources start.history batches none =
        some ((predictions (upToCompleted log)).take batches)

theorem logged_start (hfresh : start.progress = none) :
    Logged hexdigest sources start start [] 0 where
  walked := walked_start hfresh
  completed := by
    rw [HistoryState.ledger, hfresh]
    simp [Progress.inserted]
  foretold := fun _ batchSize _ batches => by
    rw [List.length_nil, Nat.zero_add, checkpointAt, checkpoint_zero, Option.map_none]
    exact Option.map_id'.symm
  ended := fun h => by
    rw [HistoryState.ledger, hfresh] at h
    cases h

/-- Before the completion no batch has reported it. -/
theorem Logged.open_of_not_completed (h : Logged hexdigest sources start state log n)
    (hopen : state.ledger.completed = false) :
    ∀ batch ∈ log, batch.result.completed = false := by
  intro batch hmem
  by_contra hcompleted
  have htrue := h.completed.mpr ⟨batch, hmem, eq_true_of_ne_false hcompleted⟩
  rw [hopen] at htrue
  cases htrue

/-- One more batch of `run`. -/
theorem Logged.runBatch (hsound : Sound hexdigest sources start) (hsize : 1 ≤ batchSize)
    (h : Logged hexdigest sources start state log n)
    (hbatch : runBatch hexdigest batchSize sources state = some (state', reported)) :
    ∃ n', Logged hexdigest sources start state' (log ++ [⟨target, batchSize, reported⟩]) n' := by
  obtain ⟨hcompleted, rfl, hreport, hwalked⟩ | ⟨hopen, hcompleted, hpage, rfl, hwalked⟩ |
    ⟨hopen, hopen', hpage, batch, hbuild, rfl, hwalked⟩ := h.walked.runBatch hsound hsize hbatch
  · -- The target was complete already.
    refine ⟨n, hwalked, iff_of_true hcompleted ?_, ?_, ?_⟩
    · exact ⟨_, List.mem_append_right _ (List.mem_singleton_self _), hreport⟩
    · intro hfalse
      exact absurd (hcompleted.symm.trans hfalse) Bool.noConfusion
    · intro _ size hsizes
      rw [upToCompleted_append_of_completed (h.completed.mp hcompleted)]
      exact h.ended hcompleted size (fun batch hmem => hsizes batch (List.mem_append_left _ hmem))
  · -- The batch found no more rows.
    refine ⟨n, hwalked, iff_of_true hcompleted ?_, ?_, ?_⟩
    · exact ⟨_, List.mem_append_right _ (List.mem_singleton_self _), rfl⟩
    · intro hfalse
      exact absurd (hcompleted.symm.trans hfalse) Bool.noConfusion
    · intro _ size hsizes batches
      obtain rfl : batchSize = size :=
        hsizes _ (List.mem_append_right _ (List.mem_singleton_self _))
      have hwhole := h.foretold hopen batchSize
        (fun batch hmem => hsizes batch (List.mem_append_left _ hmem)) (batches + 1)
      rw [dryRunFrom_end hsound hpage, Option.map_some] at hwhole
      have hcount : log.length + (batches + 1) = batches + (log.length + 1) := by omega
      rw [hcount] at hwhole
      rw [upToCompleted_append_of_open (h.open_of_not_completed hopen), dryRunFrom_take hwhole]
      simp [predictions, upToCompleted, BatchResult.predicted, result]
  · -- The batch took the next rows.
    refine ⟨n + batchSize, hwalked, ?_, ?_, ?_⟩
    · refine iff_of_false (by rw [hopen']; exact Bool.noConfusion) ?_
      rintro ⟨other, hmem, hreport⟩
      rcases List.mem_append.mp hmem with hold | hlast
      · rw [h.open_of_not_completed hopen other hold] at hreport
        cases hreport
      · rw [List.mem_singleton.mp hlast] at hreport
        cases hreport
    · intro _ size hsizes batches
      obtain rfl : batchSize = size :=
        hsizes _ (List.mem_append_right _ (List.mem_singleton_self _))
      have hsame := h.foretold hopen batchSize
        (fun batch hmem => hsizes batch (List.mem_append_left _ hmem)) (batches + 1)
      rw [dryRunFrom_page hsound hpage hbuild, Option.map_map] at hsame
      rw [List.length_append, List.length_singleton, Nat.add_assoc, Nat.add_comm 1, hsame]
      congr 1
      funext results
      simp [predictions, BatchResult.predicted, result]
    · intro htrue
      exact absurd (htrue.symm.trans hopen') Bool.noConfusion

end Logs

/-! ## Databases -/

section Databases

variable {hexdigest : String → String} {target : HistoryTarget}
variable {start db : HistoryDatabase} {log : List CommittedBatch}

theorem Committed.runFor (h : Committed hexdigest start db log) {batchSize : Nat}
    (hsize : 1 ≤ batchSize) (target : HistoryTarget) (k batches : Nat) :
    Committed hexdigest start (runFor hexdigest target batchSize k batches db).database
      (log ++ (runFor hexdigest target batchSize k batches db).committed) := by
  induction k generalizing batches db log with
  | zero =>
      cases batches with
      | zero => simpa [HistoryBackfill.runFor] using h
      | succ batches => simpa [HistoryBackfill.runFor] using h
  | succ k ih =>
      cases batches with
      | zero => simpa [HistoryBackfill.runFor] using h
      | succ batches =>
          rw [HistoryBackfill.runFor]
          cases hbatch : HistoryBackfill.runBatch hexdigest batchSize (db.tables.sources target)
              (db.states target) with
          | none => simpa using h
          | some next =>
              obtain ⟨state, reported⟩ := next
              have hstep := h.batch hsize hbatch
              dsimp only
              split
              · exact hstep
              · have hrest := ih hstep batches
                rwa [List.append_assoc] at hrest

theorem Runs.committed (h : Runs hexdigest start db log) : Committed hexdigest start db log := by
  induction h with
  | none => exact .none
  | run _ target args k ih => exact ih.runFor args.size_pos target k args.maxBatches

theorem batchesOf_append (log log' : List CommittedBatch) :
    batchesOf target (log ++ log') = batchesOf target log ++ batchesOf target log' :=
  List.filter_append _ _

/-- The tables stay, and the batches of a target are logged. -/
theorem logged_of_committed
    (hsound : Sound hexdigest (start.tables.sources target) (start.states target))
    (hfresh : (start.states target).progress = none) (h : Committed hexdigest start db log) :
    db.tables = start.tables ∧ ∃ n, Logged hexdigest (start.tables.sources target)
      (start.states target) (db.states target) (batchesOf target log) n := by
  induction h with
  | none => exact ⟨rfl, 0, logged_start hfresh⟩
  | batch _ hsize hbatch ih =>
      rename_i db log other state reported _ batchSize
      obtain ⟨htables, n, hlogged⟩ := ih
      refine ⟨htables, ?_⟩
      rw [batchesOf_append]
      by_cases hsame : other = target
      · subst hsame
        rw [htables] at hbatch
        obtain ⟨n', hnext⟩ := hlogged.runBatch hsound hsize hbatch
        refine ⟨n', ?_⟩
        simpa [batchesOf] using hnext
      · refine ⟨n, ?_⟩
        rw [db.withState_other state (Ne.symm hsame)]
        simpa [batchesOf, hsame] using hlogged

/-- A batch leaves the history of a complete target as it is. -/
theorem history_of_committed (hcompleted : (start.states target).ledger.completed = true)
    (h : Committed hexdigest start db log) :
    (db.states target).history = (start.states target).history ∧
      (db.states target).ledger.completed = true := by
  induction h with
  | none => exact ⟨rfl, hcompleted⟩
  | batch _ hsize hbatch ih =>
      rename_i db log other state reported _ batchSize
      by_cases hsame : other = target
      · subst hsame
        rw [HistoryBackfill.runBatch, if_pos ih.2] at hbatch
        cases hbatch
        rw [db.withState_same]
        exact ih
      · rw [db.withState_other state (Ne.symm hsame)]
        exact ih

/-- A completed target has the inferred rows of all its entities without a history. -/
theorem Logged.history_eq {sources : List target.Candidate} {start state : HistoryState target}
    {n : Nat} (h : Logged hexdigest sources start state log n)
    (hcompleted : state.ledger.completed = true) :
    (∀ row ∈ eligible sources start, (target.infer hexdigest row).isSome) ∧
      state.history = start.history ++
        (eligible sources start).flatMap (inferredRows hexdigest) := by
  have hall : (eligible sources start).take n = eligible sources start :=
    List.take_of_length_le (h.walked.completed hcompleted)
  have hinferable := h.walked.inferable
  have hhistory := h.walked.history
  rw [hall] at hinferable hhistory
  exact ⟨hinferable, hhistory⟩

/-- Once a target has been reported complete, its history is that of the start and the
rows inferred for every entity without one; the tables are unchanged, further runs add
nothing, and a dry run at the start reports the batches up to the completion. -/
theorem history_backfill_exact
    (hfresh : (start.states target).progress = none)
    (hdigest : Set.InjOn hexdigest (eventTexts target (start.tables.sources target)))
    (hunclaimed : ∀ row ∈ withoutHistory (start.tables.sources target)
      (start.states target).history, ∀ new ∈ inferredRows hexdigest row,
        ∀ recorded ∈ (start.states target).history, recorded.sourceEventId ≠ new.sourceEventId)
    (hruns : Runs hexdigest start db log)
    (hreported : ∃ batch ∈ batchesOf target log, batch.result.completed = true) :
    db.tables = start.tables ∧
    (∀ row ∈ eligible (start.tables.sources target) (start.states target),
      (target.infer hexdigest row).isSome) ∧
    (db.states target).history = (start.states target).history ++
      (eligible (start.tables.sources target) (start.states target)).flatMap
        (inferredRows hexdigest) ∧
    (∀ db' log', Runs hexdigest db db' log' →
      (db'.states target).history = (db.states target).history) ∧
    ∀ args : HistoryArguments,
      (∀ batch ∈ batchesOf target log, batch.batchSize = args.batchSize) →
        dryRun hexdigest target args start =
          some ((predictions (upToCompleted (batchesOf target log))).take args.maxBatches) := by
  have hsound : Sound hexdigest (start.tables.sources target) (start.states target) := by
    refine ⟨?_, hdigest, hunclaimed⟩
    rw [OpsTables.map_entityId_sources]
    exact start.tables.nodup_entityIds target
  obtain ⟨htables, n, hlogged⟩ := logged_of_committed hsound hfresh hruns.committed
  have hcompleted := hlogged.completed.mpr hreported
  obtain ⟨hinferable, hhistory⟩ := hlogged.history_eq hcompleted
  refine ⟨htables, hinferable, hhistory, fun db' log' hlater => ?_, fun args hsizes => ?_⟩
  · exact (history_of_committed hcompleted hlater.committed).1
  · exact hlogged.ended hcompleted args.batchSize hsizes args.maxBatches

end Databases

/-! ## Two invoices -/

/-- Two orders of 2026-07-01 with an invoice each. -/
def twoInvoices : OpsTables where
  orders := [⟨1, .invoiced, atHour 739798 8, 739805, atHour 739799 8⟩,
    ⟨2, .invoiced, atHour 739798 9, 739805, atHour 739799 9⟩]
  shipments := []
  invoices := [⟨1, 1, .issued, atHour 739799 8, none⟩, ⟨2, 2, .issued, atHour 739799 9, none⟩]
  supportCases := []
  pk_orders := by decide
  pk_shipments := by decide
  uq_shipments_ord := by decide
  pk_invoices := by decide
  uq_invoices_order := by decide
  pk_cases := by decide

/-- A history of the second invoice, under an event id. -/
def issuedUnder (eventId : String) : StatusHistoryRow InvoiceStatus where
  recordId := 2
  previousStatus := none
  newStatus := .issued
  occurredAt := atHour 739799 9
  sourceEventId := eventId
  slaDueAt := none
  slaStatus := .onTime

/-- The second invoice has a history, the ledgers are empty. -/
def invoicesWith (eventId : String) : HistoryDatabase where
  tables := twoInvoices
  states
    | .invoices => ⟨[issuedUnder eventId], none⟩
    | _ => ⟨[], none⟩

/-- Two batches of ten rows. -/
def twoBatches : HistoryArguments where
  batchSize := 10
  maxBatches := 2
  size_pos := by decide
  size_le := by decide
  batches_pos := Nat.zero_lt_two

/-- The history of the first invoice. -/
def issuedFirst : StatusHistoryRow InvoiceStatus :=
  historyRow (fun text => text) "inferred_invoice_status_history" 1 none .issued "ISSUED"
    (.datetime (atHour 739799 8)) none .onTime

/-- The invoices behind the first batch. -/
def afterFirst (eventId : String) : HistoryState .invoices where
  history := insertRow [issuedUnder eventId] issuedFirst
  progress := some ⟨some (toString 1), 1, 1, false⟩

theorem history_afterFirst (eventId : String) :
    (afterFirst eventId).history = if eventId = issuedFirst.sourceEventId then [issuedUnder eventId]
      else [issuedUnder eventId, issuedFirst] := by
  have hinsert : (afterFirst eventId).history = insertRow [issuedUnder eventId] issuedFirst := rfl
  rw [hinsert, insertRow]
  by_cases hsame : eventId = issuedFirst.sourceEventId
  · rw [if_pos hsame, if_pos ⟨_, List.mem_singleton_self _, hsame⟩]
  · rw [if_neg hsame, if_neg]
    · rfl
    · rintro ⟨recorded, hmem, hrecorded⟩
      rw [List.mem_singleton.mp hmem] at hrecorded
      exact hsame hrecorded

/-- The first batch takes the first invoice, and the second one finds no more. -/
theorem runFor_twoInvoices (eventId : String) :
    runFor (fun text => text) .invoices 10 2 2 (invoicesWith eventId) =
      ⟨.returned, [⟨.invoices, 10, ⟨1, 1, 1, 0, 1, false, false⟩⟩,
          ⟨.invoices, 10, ⟨0, 0, 0, 0, 0, false, true⟩⟩],
        ((invoicesWith eventId).withState .invoices (afterFirst eventId)).withState .invoices
          ⟨(afterFirst eventId).history, some ⟨some (toString 1), 1, 1, true⟩⟩⟩ := by
  have hfirst : runBatch (fun text => text) 10 (twoInvoices.sources .invoices)
      ((invoicesWith eventId).states .invoices) =
        some (afterFirst eventId, ⟨1, 1, 1, 0, 1, false, false⟩) := rfl
  have hnone : fetchCandidates 10 (twoInvoices.sources .invoices) (afterFirst eventId).history
      (some (toString 1)) = some [] := by
    have hnat : (toString 1).toNat? = some 1 := Nat.toNat?_repr 1
    rw [fetchCandidates, hnat, history_afterFirst]
    split
    · rfl
    · rfl
  have hsecond : runBatch (fun text => text) 10 (twoInvoices.sources .invoices)
      (afterFirst eventId) =
        some (⟨(afterFirst eventId).history, some ⟨some (toString 1), 1, 1, true⟩⟩,
          ⟨0, 0, 0, 0, 0, false, true⟩) := by
    have hledger : (afterFirst eventId).ledger = ⟨some (toString 1), 1, 1, false⟩ := rfl
    rw [runBatch, hledger, if_neg Bool.false_ne_true, hnone]
    rfl
  have htables : (invoicesWith eventId).tables = twoInvoices := rfl
  rw [runFor, htables, hfirst]
  dsimp only
  rw [if_neg Bool.false_ne_true, runFor, HistoryDatabase.withState_same]
  have htables' : ((invoicesWith eventId).withState .invoices (afterFirst eventId)).tables =
      twoInvoices := rfl
  rw [htables', hsecond]
  rfl

/-- Both runs of the two invoices: what was written and what a dry run foretells. -/
theorem history_backfill_exact_invoices :
    ∃ db log, Runs (fun text => text) (invoicesWith "simulated") db log ∧
      (db.states .invoices).history = [issuedUnder "simulated", issuedFirst] ∧
      dryRun (fun text => text) .invoices twoBatches (invoicesWith "simulated") =
        some [⟨1, 1, 1, 0, 1, true, false⟩, ⟨0, 0, 0, 0, 0, true, true⟩] := by
  have hruns : Runs (fun text => text) (invoicesWith "simulated") _ _ :=
    Runs.none.run .invoices twoBatches 2
  have hrun : runFor (fun text => text) .invoices twoBatches.batchSize 2 twoBatches.maxBatches
      (invoicesWith "simulated") = _ := runFor_twoInvoices "simulated"
  rw [hrun] at hruns
  have hunclaimed : ∀ row ∈ withoutHistory ((invoicesWith "simulated").tables.sources .invoices)
      ((invoicesWith "simulated").states .invoices).history,
      ∀ new ∈ inferredRows (fun text => text) row,
        ∀ recorded ∈ ((invoicesWith "simulated").states .invoices).history,
          recorded.sourceEventId ≠ new.sourceEventId := by
    intro row hrow new hnew recorded hrecorded
    have hfirst : row = OpsTables.invoiceCandidate ⟨1, 1, .issued, atHour 739799 8, none⟩ :=
      List.mem_singleton.mp hrow
    rw [hfirst] at hnew
    have hissued : new = issuedFirst := List.mem_singleton.mp hnew
    have hold : recorded = issuedUnder "simulated" := List.mem_singleton.mp hrecorded
    rw [hissued, hold]
    exact fun hsame => absurd (congrArg String.length hsame) (by decide)
  have hexact := @history_backfill_exact (fun text => text) .invoices (invoicesWith "simulated") _ _
    rfl (fun _ _ _ _ h => h) hunclaimed hruns
    ⟨_, List.mem_cons_of_mem _ List.mem_cons_self, rfl⟩
  obtain ⟨_, _, hhistory, _, hdry⟩ := hexact
  exact ⟨_, _, hruns, hhistory, hdry twoBatches (by decide)⟩

/-- Whatever rows the history has at the start, a completed target has these and the
inferred rows of all entities without a history. -/
def HistoryBackfillExact : Prop :=
  ∀ (hexdigest : String → String) (target : HistoryTarget) (start db : HistoryDatabase)
    (log : List CommittedBatch), Function.Injective hexdigest →
    (start.states target).progress = none → Runs hexdigest start db log →
    (∃ batch ∈ batchesOf target log, batch.result.completed = true) →
      (db.states target).history.Perm ((start.states target).history ++
        (eligible (start.tables.sources target) (start.states target)).flatMap
          (inferredRows hexdigest))

/-- The history of the second invoice has the event id of the first one's issue, whose
row is therefore not inserted. -/
theorem claimedInvoice_not_exact : ¬ HistoryBackfillExact := by
  intro hall
  have hruns : Runs (fun text => text) (invoicesWith issuedFirst.sourceEventId) _ _ :=
    Runs.none.run .invoices twoBatches 2
  have hrun : runFor (fun text => text) .invoices twoBatches.batchSize 2 twoBatches.maxBatches
      (invoicesWith issuedFirst.sourceEventId) = _ := runFor_twoInvoices issuedFirst.sourceEventId
  rw [hrun] at hruns
  have hperm := hall (fun text => text) .invoices _ _ _ Function.injective_id rfl hruns
    ⟨_, List.mem_cons_of_mem _ List.mem_cons_self, rfl⟩
  have hlength := hperm.length_eq
  rw [HistoryDatabase.withState_same, history_afterFirst, if_pos rfl] at hlength
  cases hlength

end HistoryBackfill
end Generator
end Northwind
