import Northwind.FakeForce.BulkIngestRuns

/-!
# Uploads of an ingest job

An upload checks that its job is Open, streams its chunks to a temporary file
and replaces `input.csv` at the end.  The check and the replace are steps of
their own, and a PATCH, the worker or other uploads run between them.

The bytes of the file are parsed by the standard library's CSV reader, which is
a parameter.
-/

namespace Northwind
namespace FakeForce

/-- The ingest routes with their worker and their upload store. -/
structure IngestService where
  worker : BulkIngestWorker
  maxUploadBytes : Nat
  parse : List UInt8 → CsvUpload

/-- One job: its store and worker, its `input.csv`, and the temporary files of
the uploads that are still streaming. -/
structure UploadWorld where
  ingest : IngestState
  input : Option (List UInt8)
  uploads : List (List UInt8)

inductive UploadAction where
  | begin
  | chunk
  | replace
  | discard
  | ingest (a : IngestAction)
deriving DecidableEq

namespace IngestService

open BulkIngestWorker

variable (S : IngestService)

/-- The job's own state. -/
def jobState (s : UploadWorld) : BulkJobState :=
  s.ingest.store.state

/-- Requests, the worker and crashes around one ingest job.  `discard` is an
upload that ends without its replace: too large, or its client is gone. -/
inductive UploadStep : UploadWorld → UploadAction → UploadWorld → Prop
  | begin {s : UploadWorld} :
      jobState s = .jobOpen →
      UploadStep s .begin { s with uploads := s.uploads ++ [[]] }
  | chunk {s : UploadWorld} {before after : List (List UInt8)} {written bytes : List UInt8} :
      s.uploads = before ++ written :: after →
      (written ++ bytes).length ≤ S.maxUploadBytes →
      UploadStep s .chunk { s with uploads := before ++ (written ++ bytes) :: after }
  | replace {s : UploadWorld} {before after : List (List UInt8)} {written : List UInt8} :
      s.uploads = before ++ written :: after →
      UploadStep s .replace { s with input := some written, uploads := before ++ after }
  | discard {s : UploadWorld} {before after : List (List UInt8)} {written : List UInt8} :
      s.uploads = before ++ written :: after →
      UploadStep s .discard { s with uploads := before ++ after }
  | ingest {s : UploadWorld} {a : IngestAction} {next : IngestState} :
      S.worker.IngestStep (s.input.map S.parse) s.ingest a next →
      UploadStep s (.ingest a)
        { s with ingest := next, uploads := if a = .crash then [] else s.uploads }

/-- A step that closes the job only while no upload is streaming. -/
def ClosingStep (s s' : UploadWorld) : Prop :=
  ∃ a, S.UploadStep s a s' ∧ (a = .ingest (.patch .uploadComplete) → s.uploads = [])

def AnyUploadStep (s s' : UploadWorld) : Prop :=
  ∃ a, S.UploadStep s a s'

/-- A job as it is created, before anything is uploaded. -/
structure JobCreated (s : UploadWorld) : Prop where
  jobOpen : jobState s = .jobOpen
  input : s.input = none
  uploads : s.uploads = []

variable {S}

/-- A state of the job that is entered from Open or from a later state. -/
theorem ne_open_of_transition {store store' : IngestStore} {next : BulkJobState}
    {errorCode errorMessage : Option String} (hne : next ≠ .jobOpen)
    (h : store.transitionJob next errorCode errorMessage = .ok store') :
    store'.state ≠ .jobOpen := by
  rw [(transitionJob_eq_ok_iff.mp h).2]
  exact hne

/-- What a step of the worker or a PATCH does to the state of the job: it never
goes back to Open, and only the closing PATCH leads to UploadComplete. -/
theorem state_of_ingestStep {W : BulkIngestWorker} {input : Option CsvUpload}
    {s s' : IngestState} {a : IngestAction} (hstep : W.IngestStep input s a s') :
    (s'.store.state = .jobOpen → s.store.state = .jobOpen) ∧
      (s'.store.state = .uploadComplete →
        s.store.state = .uploadComplete ∨ a = .patch .uploadComplete) := by
  have hmoved : ∀ {store store' : IngestStore} {next : BulkJobState}
      {errorCode errorMessage : Option String},
      next ≠ .jobOpen → next ≠ .uploadComplete →
      store.transitionJob next errorCode errorMessage = .ok store' →
        (store'.state = .jobOpen → store.state = .jobOpen) ∧
          (store'.state = .uploadComplete →
            store.state = .uploadComplete ∨ a = .patch .uploadComplete) := by
    intro store store' next errorCode errorMessage hne hne' hnext
    rw [(transitionJob_eq_ok_iff.mp hnext).2]
    exact ⟨fun h => absurd h hne, fun h => absurd h hne'⟩
  cases hstep with
  | crash => exact ⟨id, Or.inl⟩
  | close _ hnext => exact ⟨fun h => absurd h (ne_open_of_transition (by decide) hnext),
      fun _ => Or.inr rfl⟩
  | abort hnext => exact hmoved (by decide) (by decide) hnext
  | worker hworker =>
      cases hworker with
      | start _ hnext => exact hmoved (by decide) (by decide) hnext
      | complete hnext => exact hmoved (by decide) (by decide) hnext
      | fail hnext => exact hmoved (by decide) (by decide) hnext
      | commit hcommit =>
          rw [commitBatch_eq hcommit]
          exact ⟨id, Or.inl⟩
      | restart _ => exact ⟨id, Or.inl⟩
      | openFile _ => exact ⟨id, Or.inl⟩
      | openFails _ => exact ⟨id, Or.inl⟩
      | lookup _ _ _ => exact ⟨id, Or.inl⟩
      | surplus _ => exact ⟨id, Or.inl⟩
      | raise _ _ => exact ⟨id, Or.inl⟩
      | completeRefused _ => exact ⟨id, Or.inl⟩
      | failRefused _ => exact ⟨id, Or.inl⟩

/-- Closed, with no upload streaming. -/
structure Settled (s : UploadWorld) : Prop where
  closed : jobState s ≠ .jobOpen
  uploads : s.uploads = []

/-- Nothing touches the file of a settled job. -/
theorem Settled.step {s s' : UploadWorld} {a : UploadAction} (h : Settled s)
    (hstep : S.UploadStep s a s') : Settled s' ∧ s'.input = s.input := by
  have hnone : ∀ {before after : List (List UInt8)} {written : List UInt8},
      s.uploads ≠ before ++ written :: after := by
    intro before after written hsplit
    rw [h.uploads] at hsplit
    simp at hsplit
  cases hstep with
  | begin hopen => exact absurd hopen h.closed
  | chunk hsplit _ => exact absurd hsplit hnone
  | replace hsplit => exact absurd hsplit hnone
  | discard hsplit => exact absurd hsplit hnone
  | ingest hingest =>
      refine ⟨⟨fun hopen => h.closed ((state_of_ingestStep hingest).1 hopen), ?_⟩, rfl⟩
      simp [h.uploads]

theorem Settled.run {s s' : UploadWorld} (h : Settled s)
    (hrun : Relation.ReflTransGen S.AnyUploadStep s s') :
    Settled s' ∧ s'.input = s.input := by
  induction hrun with
  | refl => exact ⟨h, rfl⟩
  | tail _ hstep ih =>
      obtain ⟨a, hstep⟩ := hstep
      obtain ⟨hsettled, hinput⟩ := ih.1.step hstep
      exact ⟨hsettled, hinput.trans ih.2⟩

/-- Closing jobs only between uploads leaves a closed job settled. -/
theorem settled_of_run {start s : UploadWorld} (hcreated : JobCreated start)
    (hrun : Relation.ReflTransGen S.ClosingStep start s) :
    jobState s = .uploadComplete → Settled s := by
  induction hrun with
  | refl =>
      intro hclosed
      rw [hcreated.jobOpen] at hclosed
      cases hclosed
  | @tail s s' _ hstep ih =>
      intro hclosed
      obtain ⟨a, hstep, hbetween⟩ := hstep
      by_cases hbefore : jobState s = .uploadComplete
      · exact ((ih hbefore).step hstep).1
      · cases hstep with
        | begin _ => exact absurd hclosed hbefore
        | chunk _ _ => exact absurd hclosed hbefore
        | replace _ => exact absurd hclosed hbefore
        | discard _ => exact absurd hclosed hbefore
        | ingest hingest =>
            rcases (state_of_ingestStep hingest).2 hclosed with h | rfl
            · exact absurd h hbefore
            · refine ⟨?_, by simp [hbetween rfl]⟩
              rw [hclosed]
              decide

theorem ne_open_of_close {W : BulkIngestWorker} {input : Option CsvUpload}
    {s s' : IngestState} (hstep : W.IngestStep input s (.patch .uploadComplete) s') :
    s'.store.state ≠ .jobOpen := by
  cases hstep with
  | close _ hnext => exact ne_open_of_transition (by decide) hnext

/-- What a step can do to an Open job without an execution. -/
theorem ingestStep_of_open {W : BulkIngestWorker} {input : Option CsvUpload}
    {s s' : IngestState} {a : IngestAction} (hopen : s.store.state = .jobOpen)
    (hidle : s.phase = .idle) (hstep : W.IngestStep input s a s') :
    s' = s ∨ a = .patch .uploadComplete ∨
      (s'.store.state = .aborted ∧ s'.phase = .idle) := by
  obtain ⟨store, phase⟩ := s
  obtain rfl : phase = .idle := hidle
  change store.state = .jobOpen at hopen
  cases hstep with
  | crash => exact .inl rfl
  | close _ _ => exact .inr (.inl rfl)
  | abort hnext => exact .inr (.inr ⟨by rw [(transitionJob_eq_ok_iff.mp hnext).2], rfl⟩)
  | worker hworker =>
      cases hworker with
      | start hstate _ =>
          rw [hopen] at hstate
          cases hstate
      | restart hstate =>
          rw [hopen] at hstate
          cases hstate
      | raise hactive _ => exact absurd rfl hactive

/-- Nothing happens to a job that was aborted before an execution. -/
theorem ingestStep_of_aborted {W : BulkIngestWorker} {input : Option CsvUpload}
    {s s' : IngestState} {a : IngestAction} (haborted : s.store.state = .aborted)
    (hidle : s.phase = .idle) (hstep : W.IngestStep input s a s') : s' = s := by
  obtain ⟨store, phase⟩ := s
  obtain rfl : phase = .idle := hidle
  change store.state = .aborted at haborted
  have hrefused : ∀ {next : BulkJobState} {store' : IngestStore},
      store.transitionJob next none none ≠ .ok store' := by
    intro next store' hnext
    have hallowed := (transitionJob_eq_ok_iff.mp hnext).1
    rw [haborted] at hallowed
    cases hallowed
  cases hstep with
  | crash => rfl
  | close _ hnext => exact absurd hnext hrefused
  | abort hnext => exact absurd hnext hrefused
  | worker hworker =>
      cases hworker with
      | start hstate _ =>
          rw [haborted] at hstate
          cases hstate
      | restart hstate =>
          rw [haborted] at hstate
          cases hstate
      | raise hactive _ => exact absurd rfl hactive

variable (S) in
/-- How far a job has come: still Open, aborted before it was closed, or run over
the file that it was closed with. -/
inductive Progress (start : IngestState) (s : UploadWorld) : Prop
  | waiting : jobState s = .jobOpen → s.ingest = start → Progress start s
  | dropped : jobState s = .aborted → s.ingest.phase = .idle → Progress start s
  | closed : Settled s →
      Relation.ReflTransGen (S.worker.AnyIngestStep (s.input.map S.parse)) start s.ingest →
      Progress start s

theorem Progress.step {start : IngestState} {s s' : UploadWorld} (hidle : start.phase = .idle)
    (h : S.Progress start s) (hstep : S.ClosingStep s s') : S.Progress start s' := by
  obtain ⟨a, hstep, hbetween⟩ := hstep
  cases h with
  | waiting hopen hstart =>
      subst hstart
      cases hstep with
      | begin _ => exact .waiting hopen rfl
      | chunk _ _ => exact .waiting hopen rfl
      | replace _ => exact .waiting hopen rfl
      | discard _ => exact .waiting hopen rfl
      | @ingest a next hingest =>
          rcases ingestStep_of_open hopen hidle hingest with rfl | rfl | ⟨haborted, hphase⟩
          · exact .waiting hopen rfl
          · exact .closed ⟨ne_open_of_close hingest, by simp [hbetween rfl]⟩
              (.single ⟨_, hingest⟩)
          · exact .dropped haborted hphase
  | dropped haborted hphase =>
      cases hstep with
      | begin _ => exact .dropped haborted hphase
      | chunk _ _ => exact .dropped haborted hphase
      | replace _ => exact .dropped haborted hphase
      | discard _ => exact .dropped haborted hphase
      | ingest hingest =>
          obtain rfl := ingestStep_of_aborted haborted hphase hingest
          exact .dropped haborted hphase
  | closed hsettled hran =>
      have hnext := hsettled.step hstep
      refine .closed hnext.1 ?_
      rw [hnext.2]
      cases hstep with
      | begin _ => exact hran
      | chunk _ _ => exact hran
      | replace _ => exact hran
      | discard _ => exact hran
      | ingest hingest => exact hran.tail ⟨_, hingest⟩

/-- **The uploaded CSV is frozen**: once the job is UploadComplete its file
stays what it is, if the job was closed while no upload was streaming. -/
theorem input_frozen_of_run {start s s' : UploadWorld} (hcreated : JobCreated start)
    (hrun : Relation.ReflTransGen S.ClosingStep start s)
    (hclosed : jobState s = .uploadComplete)
    (hlater : Relation.ReflTransGen S.AnyUploadStep s s') :
    s'.input = s.input :=
  ((settled_of_run hcreated hrun hclosed).run hlater).2

/-- Uploads of one cell, such as a header of one column. -/
def cellService : IngestService where
  worker := accountWorker 1
  maxUploadBytes := 100
  parse := fun bytes =>
    { lines := if bytes = [] then [] else [[String.ofList (bytes.map fun b => Char.ofNat b.toNat)]]
      byteSize := bytes.length }

def createdUpload : UploadWorld where
  ingest := createdAccountJob
  input := none
  uploads := []

/-- The job closed over an uploaded file, with the given uploads streaming. -/
def closedOver (input : List UInt8) (uploads : List (List UInt8)) : UploadWorld where
  ingest := ⟨{ createdAccountJob.store with state := .uploadComplete }, .idle⟩
  input := some input
  uploads := uploads

theorem created_createdUpload : JobCreated createdUpload :=
  ⟨rfl, rfl, rfl⟩

theorem close_cellService (input : List UInt8) (uploads : List (List UInt8)) :
    cellService.UploadStep ⟨createdAccountJob, some input, uploads⟩
      (.ingest (.patch .uploadComplete)) (closedOver input uploads) :=
  .ingest (.close (by simp) rfl)

/-- One upload, then the close; after it a further upload is refused, and the job is
taken up and restarted. -/
theorem input_frozen_after_one_upload :
    ∃ s s', Relation.ReflTransGen cellService.ClosingStep createdUpload s ∧
      jobState s = .uploadComplete ∧ s.input = some [73, 100] ∧
      (¬ ∃ s'', cellService.UploadStep s .begin s'') ∧
      Relation.ReflTransGen cellService.AnyUploadStep s s' ∧ jobState s' = .inProgress ∧
      s'.input = s.input := by
  have hchunk : cellService.UploadStep ⟨createdAccountJob, none, [[]]⟩ .chunk
      ⟨createdAccountJob, none, [[73, 100]]⟩ :=
    @UploadStep.chunk cellService ⟨createdAccountJob, none, [[]]⟩ [] [] [] [73, 100] rfl (by decide)
  have hreplace : cellService.UploadStep ⟨createdAccountJob, none, [[73, 100]]⟩ .replace
      ⟨createdAccountJob, some [73, 100], []⟩ :=
    @UploadStep.replace cellService ⟨createdAccountJob, none, [[73, 100]]⟩ [] [] [73, 100] rfl
  have hrun : Relation.ReflTransGen cellService.ClosingStep createdUpload
      (closedOver [73, 100] []) := by
    refine Relation.ReflTransGen.head ⟨.begin, .begin rfl, nofun⟩ ?_
    refine Relation.ReflTransGen.head ⟨.chunk, hchunk, nofun⟩ ?_
    refine Relation.ReflTransGen.head ⟨.replace, hreplace, nofun⟩ ?_
    exact Relation.ReflTransGen.single ⟨_, close_cellService _ _, fun _ => rfl⟩
  have hrefused : ¬ ∃ s'', cellService.UploadStep (closedOver [73, 100] []) .begin s'' := by
    rintro ⟨s'', hbegin⟩
    cases hbegin with
    | begin hopen => cases hopen
  have hstart : cellService.worker.WorkerStep ((some [73, 100]).map cellService.parse)
      (closedOver [73, 100] []).ingest
      ⟨{ createdAccountJob.store with state := .inProgress }, .started⟩ := .start rfl rfl
  have hlater : Relation.ReflTransGen cellService.AnyUploadStep (closedOver [73, 100] [])
      ⟨⟨{ createdAccountJob.store with state := .inProgress }, .idle⟩, some [73, 100], []⟩ :=
    Relation.ReflTransGen.head ⟨_, .ingest (.worker hstart)⟩
      (Relation.ReflTransGen.single ⟨_, .ingest .crash⟩)
  exact ⟨_, _, hrun, rfl, rfl, hrefused, hlater, rfl,
    input_frozen_of_run created_createdUpload hrun rfl hlater⟩

/-- While an upload streams on after the close, the file can still change. -/
theorem exists_later_replace {s : UploadWorld} {written : List UInt8}
    (hstreaming : written ∈ s.uploads) (hother : s.input ≠ some written) :
    ∃ s', Relation.ReflTransGen S.AnyUploadStep s s' ∧ s'.input ≠ s.input := by
  obtain ⟨before, after, hsplit⟩ := List.append_of_mem hstreaming
  exact ⟨_, Relation.ReflTransGen.single ⟨_, .replace hsplit⟩, Ne.symm hother⟩

/-- A second upload passes the check, the job is closed over the first file,
and the second upload replaces it. -/
theorem input_replaced_after_close :
    ¬ ∀ (S : IngestService) (start s s' : UploadWorld), JobCreated start →
      Relation.ReflTransGen S.AnyUploadStep start s → jobState s = .uploadComplete →
      Relation.ReflTransGen S.AnyUploadStep s s' → s'.input = s.input := by
  intro hall
  have hreplace : cellService.UploadStep ⟨createdAccountJob, none, [[]]⟩ .replace
      ⟨createdAccountJob, some [], []⟩ :=
    @UploadStep.replace cellService ⟨createdAccountJob, none, [[]]⟩ [] [] [] rfl
  have hchunk : cellService.UploadStep ⟨createdAccountJob, some [], [[]]⟩ .chunk
      ⟨createdAccountJob, some [], [[73, 100]]⟩ :=
    @UploadStep.chunk cellService ⟨createdAccountJob, some [], [[]]⟩ [] [] [] [73, 100] rfl
      (by decide)
  have hrun : Relation.ReflTransGen cellService.AnyUploadStep createdUpload
      (closedOver [] [[73, 100]]) := by
    refine Relation.ReflTransGen.head ⟨.begin, .begin rfl⟩ ?_
    refine Relation.ReflTransGen.head ⟨_, hreplace⟩ ?_
    refine Relation.ReflTransGen.head ⟨.begin, .begin rfl⟩ ?_
    refine Relation.ReflTransGen.head ⟨_, hchunk⟩ ?_
    exact Relation.ReflTransGen.single ⟨_, close_cellService _ _⟩
  obtain ⟨s', hlater, hchanged⟩ := exists_later_replace (S := cellService)
    (s := closedOver [] [[73, 100]]) List.mem_cons_self (by decide)
  exact hchanged (hall cellService createdUpload _ s' created_createdUpload hrun rfl hlater)

end IngestService

end FakeForce
end Northwind
