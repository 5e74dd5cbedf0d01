import Northwind.FakeForce.BulkIngestRuns

/-!
# Aborting an ingest job

`transition_job` accepts an abort of a job in progress, and the worker looks at
the state of its job before it opens the upload and after the last batch, not
between batches.  An abort therefore stops the job exactly when the running
execution, if there is one, has no batch left to commit (`NothingLeft`).
-/

namespace Northwind
namespace FakeForce

open Batches

namespace BulkIngestWorker

variable (W : BulkIngestWorker) (input : Option CsvUpload)

/-- The reader yields no further batch. -/
def NoFurtherBatch (rest : List CsvRow) : Prop :=
  rest = [] ∨ ∃ error, nextBatch W.batchRecords [] rest = .error error

/-- The execution has no batch left to commit. -/
def NothingLeft (s : IngestState) : Prop :=
  match s.phase with
  | .idle | .raised _ => True
  | .started => ∀ spec rows, W.openUpload input = .ok (spec, rows) →
      W.NoFurtherBatch (resumeRows s.store rows)
  | .streaming _ rest _ _ => W.NoFurtherBatch rest
  | .decided .. => False

/-- A step that aborts the job only when nothing is left to commit. -/
def AbortingStep (s s' : IngestState) : Prop :=
  ∃ a, W.IngestStep input s a s' ∧ (a = .patch .aborted → W.NothingLeft input s)

/-- What a batch writes: table rows, row results and checkpoints. -/
def SameRows (store store' : IngestStore) : Prop :=
  store'.table = store.table ∧ store'.results = store.results ∧
    store'.checkpoints = store.checkpoints

variable {W input}

theorem SameRows.refl (store : IngestStore) : SameRows store store :=
  ⟨rfl, rfl, rfl⟩

theorem SameRows.trans {store store' store'' : IngestStore}
    (h : SameRows store store') (h' : SameRows store' store'') : SameRows store store'' :=
  ⟨h'.1.trans h.1, h'.2.1.trans h.2.1, h'.2.2.trans h.2.2⟩

/-- Aborted, with no batch left to commit. -/
structure Stopped (W : BulkIngestWorker) (input : Option CsvUpload) (s : IngestState) :
    Prop where
  aborted : s.store.state = .aborted
  nothingLeft : W.NothingLeft input s

theorem not_transition_of_aborted {store store' : IngestStore} {next : BulkJobState}
    {errorCode errorMessage : Option String} (h : store.state = .aborted) :
    store.transitionJob next errorCode errorMessage ≠ .ok store' := by
  intro hnext
  have hallowed := (transitionJob_eq_ok_iff.mp hnext).1
  simp [h, allowedTransitions] at hallowed

/-- A stopped job stays stopped and unwritten, whatever happens next. -/
theorem Stopped.step {s s' : IngestState} {a : IngestAction} (h : Stopped W input s)
    (hstep : W.IngestStep input s a s') : Stopped W input s' ∧ SameRows s.store s'.store := by
  cases hstep with
  | crash => exact ⟨⟨h.aborted, trivial⟩, SameRows.refl _⟩
  | close _ hnext => exact absurd hnext (not_transition_of_aborted h.aborted)
  | abort hnext => exact absurd hnext (not_transition_of_aborted h.aborted)
  | worker hworker =>
      cases hworker with
      | start hstate _ =>
          have := h.aborted
          simp [hstate] at this
      | restart hstate =>
          have := h.aborted
          simp [hstate] at this
      | openFile hopen =>
          exact ⟨⟨h.aborted, h.nothingLeft _ _ hopen⟩, SameRows.refl _⟩
      | openFails _ => exact ⟨⟨h.aborted, trivial⟩, SameRows.refl _⟩
      | lookup hunread hcut _ =>
          rcases h.nothingLeft with hnil | ⟨error, herror⟩
          · exact absurd hnil hunread
          · rw [herror] at hcut
            cases hcut
      | surplus _ => exact ⟨⟨h.aborted, trivial⟩, SameRows.refl _⟩
      | commit _ => exact h.nothingLeft.elim
      | raise _ _ => exact ⟨⟨h.aborted, trivial⟩, SameRows.refl _⟩
      | complete hnext => exact absurd hnext (not_transition_of_aborted h.aborted)
      | completeRefused _ => exact ⟨⟨h.aborted, trivial⟩, SameRows.refl _⟩
      | fail hnext => exact absurd hnext (not_transition_of_aborted h.aborted)
      | failRefused _ => exact ⟨⟨h.aborted, trivial⟩, SameRows.refl _⟩

theorem Stopped.run {s s' : IngestState} (h : Stopped W input s)
    (hrun : Relation.ReflTransGen (W.AnyIngestStep input) s s') :
    Stopped W input s' ∧ SameRows s.store s'.store := by
  induction hrun with
  | refl => exact ⟨h, SameRows.refl _⟩
  | tail _ hstep ih =>
      obtain ⟨a, hstep⟩ := hstep
      obtain ⟨hstopped, hsame⟩ := ih.1.step hstep
      exact ⟨hstopped, ih.2.trans hsame⟩

/-- Only an abort makes a job aborted. -/
theorem aborted_of_step {s s' : IngestState} {a : IngestAction}
    (hstep : W.IngestStep input s a s') (haborted : s'.store.state = .aborted) :
    s.store.state = .aborted ∨ (a = .patch .aborted ∧ s'.phase = s.phase ∧
      SameRows s.store s'.store) := by
  have hmoved : ∀ {store store' : IngestStore} {next : BulkJobState}
      {errorCode errorMessage : Option String}, next ≠ .aborted →
      store.transitionJob next errorCode errorMessage = .ok store' →
        store'.state ≠ .aborted := by
    intro store store' next errorCode errorMessage hne hnext
    rw [(transitionJob_eq_ok_iff.mp hnext).2]
    exact hne
  cases hstep with
  | crash => exact Or.inl haborted
  | close _ hnext => exact absurd haborted (hmoved (by decide) hnext)
  | abort hnext =>
      obtain ⟨-, rfl⟩ := transitionJob_eq_ok_iff.mp hnext
      exact Or.inr ⟨rfl, rfl, SameRows.refl _⟩
  | worker hworker =>
      cases hworker with
      | start _ hnext => exact absurd haborted (hmoved (by decide) hnext)
      | complete hnext => exact absurd haborted (hmoved (by decide) hnext)
      | fail hnext => exact absurd haborted (hmoved (by decide) hnext)
      | commit hcommit =>
          left
          simpa [commitBatch_eq hcommit] using haborted
      | restart _ => exact Or.inl haborted
      | openFile _ => exact Or.inl haborted
      | openFails _ => exact Or.inl haborted
      | lookup _ _ _ => exact Or.inl haborted
      | surplus _ => exact Or.inl haborted
      | raise _ _ => exact Or.inl haborted
      | completeRefused _ => exact Or.inl haborted
      | failRefused _ => exact Or.inl haborted

/-- In a run that aborts only when nothing is left, an aborted job is stopped. -/
theorem stopped_of_run {start s : IngestState} (hcreated : W.Created start)
    (hrun : Relation.ReflTransGen (W.AbortingStep input) start s) :
    s.store.state = .aborted → Stopped W input s := by
  induction hrun with
  | refl =>
      intro haborted
      rw [hcreated.state] at haborted
      cases haborted
  | @tail s s' _ hstep ih =>
      intro haborted
      obtain ⟨a, hstep, hleft⟩ := hstep
      rcases aborted_of_step hstep haborted with hbefore | ⟨ha, hphase, hsame⟩
      · exact ((ih hbefore).step hstep).1
      · refine ⟨haborted, ?_⟩
        have hnothing := hleft ha
        unfold NothingLeft at hnothing ⊢
        rw [hphase]
        unfold resumeRows at hnothing ⊢
        rw [hsame.2.2]
        exact hnothing

/-- **An aborted job writes nothing further**, when it is aborted while nothing
is left to commit. -/
theorem aborted_writes_nothing_of_run {start s s' : IngestState} (hcreated : W.Created start)
    (hrun : Relation.ReflTransGen (W.AbortingStep input) start s)
    (haborted : s.store.state = .aborted)
    (hlater : Relation.ReflTransGen (W.AnyIngestStep input) s s') :
    s'.store.state = .aborted ∧ SameRows s.store s'.store := by
  obtain ⟨hstopped, hsame⟩ := (stopped_of_run hcreated hrun haborted).run hlater
  exact ⟨hstopped.aborted, hsame⟩

/-- An aborted job stays aborted. -/
theorem aborted_step {s s' : IngestState} {a : IngestAction} (haborted : s.store.state = .aborted)
    (hstep : W.IngestStep input s a s') : s'.store.state = .aborted := by
  cases hstep with
  | crash => exact haborted
  | close _ hnext => exact absurd hnext (not_transition_of_aborted haborted)
  | abort hnext => exact absurd hnext (not_transition_of_aborted haborted)
  | worker hworker =>
      cases hworker with
      | start _ hnext => exact absurd hnext (not_transition_of_aborted haborted)
      | complete hnext => exact absurd hnext (not_transition_of_aborted haborted)
      | fail hnext => exact absurd hnext (not_transition_of_aborted haborted)
      | commit hcommit => simpa [commitBatch_eq hcommit] using haborted
      | restart _ => exact haborted
      | openFile _ => exact haborted
      | openFails _ => exact haborted
      | lookup _ _ _ => exact haborted
      | surplus _ => exact haborted
      | raise _ _ => exact haborted
      | completeRefused _ => exact haborted
      | failRefused _ => exact haborted

/-- A run to a job that is not aborted contains no abort. -/
theorem abortingRun_of_not_aborted {s s' : IngestState}
    (hrun : Relation.ReflTransGen (W.AnyIngestStep input) s s')
    (hstate : s'.store.state ≠ .aborted) : Relation.ReflTransGen (W.AbortingStep input) s s' := by
  induction hrun with
  | refl => exact .refl
  | tail _ hstep ih =>
      obtain ⟨a, hstep⟩ := hstep
      refine (ih fun haborted => hstate (aborted_step haborted hstep)).tail ⟨a, hstep, ?_⟩
      rintro rfl
      cases hstep with
      | abort hnext =>
          rw [(transitionJob_eq_ok_iff.mp hnext).2] at hstate
          exact absurd rfl hstate

/-- Both batches are committed, the job is aborted behind the last of them, and the
last transition of the execution is refused. -/
theorem aborted_writes_nothing_after_last_batch :
    ∃ s s', Relation.ReflTransGen ((accountWorker 1).AbortingStep (some repeatedId))
        createdAccountJob s ∧
      s.store.state = .aborted ∧ s.store.results.length = 2 ∧ s.phase ≠ .idle ∧
      Relation.ReflTransGen ((accountWorker 1).AnyIngestStep (some repeatedId)) s s' ∧
      s'.phase = .idle ∧ s'.store.state = .aborted ∧ SameRows s.store s'.store := by
  have hcreated := created_createdAccountJob 1
  have hopen : (accountWorker 1).openUpload (some repeatedId) =
      .ok (accountIngest, dictRows ["Id", "Name"] repeatedId.lines.tail) := rfl
  have hfit : ∀ row ∈ dictRows ["Id", "Name"] repeatedId.lines.tail, row.surplus = [] := by
    decide
  obtain ⟨store, hstart, hstore, hstate⟩ := hcreated.exists_inProgress rfl
  obtain ⟨processed, failed, hopened, hphase⟩ :=
    exists_streaming_of_inProgress hopen hstore hstate
  obtain ⟨first, processed, failed, hfirst, hfirstStore, hfirstPhase, hfirstState⟩ :=
    exists_next_batch (Nat.le_refl 1) hopen hfit hstore hphase (by decide)
  obtain ⟨last, processed, failed, hlast, hlastStore, hlastPhase, hlastState⟩ :=
    exists_next_batch (Nat.le_refl 1) hopen hfit hfirstStore hfirstPhase (by decide)
  have hprogress : last.state = .inProgress := hlastState.trans (hfirstState.trans hstate)
  obtain ⟨aborted, habort⟩ : ∃ aborted, last.transitionJob .aborted none none = .ok aborted :=
    ⟨_, transitionJob_eq_ok_iff.mpr ⟨by simp [hprogress, allowedTransitions], rfl⟩⟩
  have haborted := (transitionJob_eq_ok_iff.mp habort).2
  have hrun := (abortingRun_of_not_aborted (hstart.trans (hopened.trans (hfirst.trans hlast)))
    (by simp [hprogress])).tail ⟨_, .abort habort, fun _ => .inl (by decide)⟩
  obtain ⟨error, hrefused⟩ : ∃ error, aborted.transitionJob .jobComplete none none = .error error := by
    cases hnext : aborted.transitionJob .jobComplete none none with
    | error error => exact ⟨error, rfl⟩
    | ok store => exact absurd hnext (not_transition_of_aborted (by rw [haborted]))
  have hlater : Relation.ReflTransGen ((accountWorker 1).AnyIngestStep (some repeatedId))
      ⟨aborted, .streaming accountIngest [] processed failed⟩ ⟨aborted, .idle⟩ :=
    Relation.ReflTransGen.single ⟨_, .worker (.completeRefused hrefused)⟩
  have hresults : aborted.results.length = 2 := by
    rw [haborted, hlastStore.results, List.length_map,
      length_outcomes createdAccountJob.store.table hopen]
    rfl
  exact ⟨_, _, hrun, by rw [haborted], hresults, by simp, hlater, rfl,
    aborted_writes_nothing_of_run hcreated hrun (by rw [haborted]) hlater⟩

/-- A decided batch can be committed, whatever the state of the job. -/
theorem IngestInvariant.exists_commit_decided {b : Nat} {initial : List TableRow}
    {store : IngestStore} {spec : IngestSpec} {outcomes : List RowOutcome} {bytes : Nat}
    {rest : List CsvRow} {processed failed : Nat}
    (h : W.IngestInvariant input initial b
      ⟨store, .decided spec outcomes bytes rest processed failed⟩) :
    ∃ s', Relation.ReflTransGen (W.AnyIngestStep input)
        ⟨store, .decided spec outcomes bytes rest processed failed⟩ s' ∧
      ¬ SameRows store s'.store := by
  obtain ⟨rows, hopen, -, houtcomes, -⟩ := h.phase
  obtain ⟨store', hcommit⟩ := h.store.exists_commit hopen processed failed bytes
  rw [h.store.table, ← houtcomes] at hcommit
  refine ⟨_, Relation.ReflTransGen.single ⟨_, .worker (.commit hcommit)⟩, ?_⟩
  rw [commitBatch_eq hcommit]
  intro hsame
  simpa using congrArg List.length hsame.2.2

/-- The condition is exact: while a batch is left, the execution can go on to
commit it, in an aborted job as in any other. -/
theorem exists_further_write {b : Nat} {s : IngestState} {initial : List TableRow}
    (hsize : 1 ≤ W.batchRecords) (h : W.IngestInvariant input initial b s)
    (hleft : ¬ W.NothingLeft input s) :
    ∃ s', Relation.ReflTransGen (W.AnyIngestStep input) s s' ∧ ¬ SameRows s.store s'.store := by
  have hstreaming : ∀ {b store spec rest processed failed},
      W.IngestInvariant input initial b ⟨store, .streaming spec rest processed failed⟩ →
      ¬ W.NoFurtherBatch rest →
      ∃ s', Relation.ReflTransGen (W.AnyIngestStep input)
        ⟨store, .streaming spec rest processed failed⟩ s' ∧ ¬ SameRows store s'.store := by
    intro b store spec rest processed failed h hmore
    obtain ⟨rows, hopen, -⟩ := h.phase
    obtain ⟨upload, hinput⟩ := input_of_openUpload hopen
    obtain ⟨hunread, hcut⟩ := not_or.mp hmore
    cases hnext : nextBatch W.batchRecords [] rest with
    | error error => exact absurd ⟨error, hnext⟩ hcut
    | ok cut =>
        have hlookup : W.WorkerStep input ⟨store, .streaming spec rest processed failed⟩
            ⟨store, .decided spec (W.applyBatch spec store.table cut.1) upload.byteSize cut.2
              processed failed⟩ := .lookup hunread hnext hinput
        obtain ⟨b', h'⟩ := h.worker hsize hlookup
        obtain ⟨s', hrun, hwritten⟩ := h'.exists_commit_decided
        exact ⟨s', Relation.ReflTransGen.head ⟨_, .worker hlookup⟩ hrun, hwritten⟩
  obtain ⟨store, phase⟩ := s
  cases phase with
  | idle => exact absurd trivial hleft
  | raised error => exact absurd trivial hleft
  | decided => exact h.exists_commit_decided
  | streaming spec rest processed failed => exact hstreaming h hleft
  | started =>
      simp only [NothingLeft, not_forall] at hleft
      obtain ⟨spec, rows, hopen, hmore⟩ := hleft
      have hopened : W.WorkerStep input ⟨store, .started⟩ ⟨store, .streaming spec
          (resumeRows store rows) (ingestProgress store.checkpoints).recordsProcessed
          (ingestProgress store.checkpoints).recordsFailed⟩ := .openFile hopen
      obtain ⟨b', h'⟩ := h.worker hsize hopened
      obtain ⟨s', hrun, hwritten⟩ := hstreaming h' hmore
      exact ⟨s', Relation.ReflTransGen.head ⟨_, .worker hopened⟩ hrun, hwritten⟩

/-- A job aborted right after its execution has opened the upload. -/
theorem aborted_job_goes_on_writing :
    ¬ ∀ (W : BulkIngestWorker) (input : Option CsvUpload) (start s s' : IngestState),
      1 ≤ W.batchRecords → W.Created start →
      Relation.ReflTransGen (W.AnyIngestStep input) start s → s.store.state = .aborted →
      Relation.ReflTransGen (W.AnyIngestStep input) s s' →
        s'.store.state = .aborted ∧ SameRows s.store s'.store := by
  intro hall
  have hcreated := created_createdAccountJob 1
  have hopen : (accountWorker 1).openUpload (some repeatedId) =
      .ok (accountIngest, dictRows ["Id", "Name"] repeatedId.lines.tail) := rfl
  obtain ⟨store, hrun, hstore, hstate⟩ := hcreated.exists_inProgress rfl
  obtain ⟨processed, failed, hopened, -⟩ := exists_streaming_of_inProgress hopen hstore hstate
  obtain ⟨aborted, habort⟩ : ∃ aborted, store.transitionJob .aborted none none = .ok aborted :=
    ⟨_, transitionJob_eq_ok_iff.mpr ⟨by simp [hstate, allowedTransitions], rfl⟩⟩
  have haborted := (hrun.trans hopened).tail ⟨_, .abort habort⟩
  obtain ⟨b, h⟩ := invariant_of_run (Nat.le_refl 1) hcreated haborted
  have hleft : ¬ (accountWorker 1).NothingLeft (some repeatedId)
      ⟨aborted, .streaming accountIngest
        ((dictRows ["Id", "Name"] repeatedId.lines.tail).drop ((accountWorker 1).batchRecords * 0))
        processed failed⟩ := by
    rintro (hnil | ⟨error, herror⟩)
    · exact absurd hnil (by decide)
    · cases herror
  obtain ⟨s', hlater, hwritten⟩ := exists_further_write (Nat.le_refl 1) h hleft
  have hstate' : aborted.state = .aborted := by
    rw [(transitionJob_eq_ok_iff.mp habort).2]
  exact hwritten (hall (accountWorker 1) (some repeatedId) createdAccountJob _ s' (Nat.le_refl 1)
    hcreated haborted hstate' hlater).2

end BulkIngestWorker

end FakeForce
end Northwind
