import Northwind.FakeForce.BulkDispatch
import Mathlib.Algebra.Ring.Nat
import Mathlib.Logic.Relation

/-!
# Runs of the bulk dispatch

`DispatchInvariant` ties the calls in memory to the rows of the table.  From it
come three results about every run: no job has two calls and none that is to be
run is without one, rows only move along the allowed transitions, and the
background comes to an end with every live job Open or in a final state.

That a job has one call is what the models of a single execution take for
granted.
-/

namespace Northwind
namespace FakeForce

/-! ## The invariant -/

/-- What holds of the rows, of the calls that are pending and of the threads: every job has
at most one call, and a live job that is to be run has one. -/
structure DispatchInvariant (settings : BulkSettings) (s : BulkServer) : Prop where
  ids : s.tables.jobIds.Nodup
  accepts : ∀ job ∈ s.tables.jobs, job.jobType.Accepts job
  single : (s.pending.map Submission.jobId).Nodup
  known : ∀ submission ∈ s.pending, ∃ job ∈ s.tables.jobs, submission.For job
  fits : ∀ task ∈ s.running, ∀ job ∈ s.tables.jobs, job.jobId = task.submission.jobId →
    task.phase.Fits job.state
  kept : s.process = .serving → ∀ job ∈ s.tables.jobs, job.Live s.now → job.state.Resumable →
    job.jobId ∈ s.pending.map Submission.jobId
  idle : s.process ≠ .serving → s.pending = []
  bounded : s.running.length ≤ settings.bulkWorkers

namespace DispatchInvariant

open BulkServer JobTables

variable {settings : BulkSettings} {s s' : BulkServer}

theorem of_fresh (h : s.Fresh) : DispatchInvariant settings s := by
  have hrunning : s.running = [] := by
    have hpending := h.pending
    simp only [pending, List.append_eq_nil_iff, List.map_eq_nil_iff] at hpending
    exact hpending.2
  refine ⟨?_, ?_, ?_, ?_, ?_, ?_, fun _ => h.pending, ?_⟩
  · simp [jobIds, h.jobs]
  · simp [h.jobs]
  · simp [h.pending]
  · simp [h.pending]
  · simp [hrunning]
  · simp [h.jobs]
  · simp [hrunning]

/-- Rows that advance under the calls that are pending. -/
theorem advance (h : DispatchInvariant settings s) {tables : JobTables} {f : BulkJob → BulkJob}
    (hjobs : tables.jobs = s.tables.jobs.map f)
    (hf : ∀ job ∈ s.tables.jobs, job.Advances (f job)) :
    tables.jobIds = s.tables.jobIds ∧ (∀ job ∈ tables.jobs, job.jobType.Accepts job) ∧
      ∀ submission ∈ s.pending, ∃ job ∈ tables.jobs, submission.For job := by
  refine ⟨?_, fun job hjob => ?_, fun submission hsubmission => ?_⟩
  · rw [jobIds, jobIds, hjobs, List.map_map]
    exact List.map_congr_left fun job hjob => (hf job hjob).jobId
  · rw [hjobs] at hjob
    obtain ⟨old, hold, rfl⟩ := List.mem_map.mp hjob
    rw [(hf old hold).jobType]
    exact (hf old hold).accepts (h.accepts old hold)
  · obtain ⟨job, hjob, hid, htype, hstate⟩ := h.known submission hsubmission
    have hadvances := hf job hjob
    refine ⟨f job, ?_, hadvances.jobId.trans hid, hadvances.jobType.trans htype,
      hadvances.ne_jobOpen hstate⟩
    rw [hjobs]
    exact List.mem_map_of_mem hjob

/-- The calls are only reordered. -/
theorem reorder (h : DispatchInvariant settings s) (htables : s'.tables = s.tables)
    (hnow : s'.now = s.now) (hprocess : s'.process = s.process)
    (hpending : s'.pending.Perm s.pending)
    (hfits : ∀ task ∈ s'.running, task ∈ s.running ∨ task.phase = .waking)
    (hbounded : s'.running.length ≤ settings.bulkWorkers) : DispatchInvariant settings s' where
  ids := htables ▸ h.ids
  accepts := htables ▸ h.accepts
  single := (hpending.map Submission.jobId).nodup_iff.mpr h.single
  known submission hsubmission := by
    rw [htables]
    exact h.known submission (hpending.mem_iff.mp hsubmission)
  fits task htask job hjob hid := by
    rw [htables] at hjob
    rcases hfits task htask with hold | hwaking
    · exact h.fits task hold job hjob hid
    · have hmem : task.submission ∈ s'.pending :=
        List.mem_append_right _ (List.mem_map_of_mem htask)
      obtain ⟨known, hknown, hknownId, -, hstate⟩ :=
        h.known task.submission (hpending.mem_iff.mp hmem)
      rw [hwaking, eq_of_jobId h.ids hjob hknown (hid.trans hknownId.symm)]
      exact hstate
  kept hserving job hjob hlive hresumable := by
    rw [htables] at hjob
    rw [hnow] at hlive
    exact (hpending.map Submission.jobId).mem_iff.mpr
      (h.kept (hprocess ▸ hserving) job hjob hlive hresumable)
  idle hidle := List.perm_nil.mp (h.idle (hprocess ▸ hidle) ▸ hpending)
  bounded := hbounded

/-! ### The turn of a thread -/

section Work

variable {before after : List Task} {task : Task} {next : Option Task} {tables : JobTables}

variable (s before after) in
/-- The calls besides that of the thread between `before` and `after`. -/
def besides : List Submission :=
  s.accepted ++ s.queue ++ (before ++ after).map Task.submission

variable (s before after next tables) in
/-- The server after the turn of that thread. -/
def worked : BulkServer :=
  { s with running := before ++ next.toList ++ after, tables := tables }

theorem perm_besides (hsplit : s.running = before ++ task :: after) :
    s.pending.Perm (task.submission :: besides s before after) := by
  rw [List.perm_iff_count]
  intro call
  simp only [pending, besides, hsplit, List.count_append, List.count_cons, List.map_append,
    List.map_cons]
  omega

variable (s before after next tables) in
theorem perm_worked : (pending (worked s before after next tables)).Perm
    (next.toList.map Task.submission ++ besides s before after) := by
  rw [List.perm_iff_count]
  intro call
  simp only [pending, worked, besides, List.count_append, List.map_append]
  omega

/-- No other call is for the job of the thread. -/
theorem ne_of_mem_besides (h : DispatchInvariant settings s)
    (hsplit : s.running = before ++ task :: after) {call : Submission}
    (hcall : call ∈ besides s before after) : call.jobId ≠ task.submission.jobId := by
  have hsingle := ((perm_besides hsplit).map Submission.jobId).nodup_iff.mp h.single
  rw [List.map_cons, List.nodup_cons] at hsingle
  intro heq
  exact hsingle.1 (heq ▸ List.mem_map_of_mem hcall)

/-- What the turn makes of the rows: that of its job goes on, the others stay. -/
structure WorkedRows (s : BulkServer) (task : Task) (next : Option Task) (tables : JobTables)
    (job : BulkJob) (f : BulkJob → BulkJob) : Prop where
  mem : job ∈ s.tables.jobs
  jobId : job.jobId = task.submission.jobId
  jobs : tables.jobs = s.tables.jobs.map f
  continues : task.Continues s.now job (f job) next
  others : ∀ row ∈ s.tables.jobs, row.jobId ≠ task.submission.jobId → f row = row

variable {job : BulkJob} {f : BulkJob → BulkJob}

theorem WorkedRows.advances (hrows : WorkedRows s task next tables job f)
    (hids : s.tables.jobIds.Nodup) : ∀ row ∈ s.tables.jobs, row.Advances (f row) := by
  intro row hrow
  by_cases hrowId : row.jobId = task.submission.jobId
  · rw [eq_of_jobId hids hrow hrows.mem (hrowId.trans hrows.jobId.symm)]
    exact hrows.continues.advances
  · rw [hrows.others row hrow hrowId]
    exact .refl row

theorem WorkedRows.row_cases (hrows : WorkedRows s task next tables job f)
    (hids : s.tables.jobIds.Nodup) {row : BulkJob} (hrow : row ∈ tables.jobs) :
    row = f job ∧ row.jobId = task.submission.jobId ∨
      row ∈ s.tables.jobs ∧ row.jobId ≠ task.submission.jobId := by
  rw [hrows.jobs] at hrow
  obtain ⟨old, hold, rfl⟩ := List.mem_map.mp hrow
  by_cases holdId : old.jobId = task.submission.jobId
  · rw [(hrows.advances hids old hold).jobId,
      eq_of_jobId hids hold hrows.mem (holdId.trans hrows.jobId.symm)]
    exact .inl ⟨rfl, hrows.jobId⟩
  · rw [hrows.others old hold holdId]
    exact .inr ⟨hold, holdId⟩

theorem single_worked (h : DispatchInvariant settings s)
    (hsplit : s.running = before ++ task :: after)
    (hrows : WorkedRows s task next tables job f) :
    ((pending (worked s before after next tables)).map Submission.jobId).Nodup := by
  have hsingle := ((perm_besides hsplit).map Submission.jobId).nodup_iff.mp h.single
  rw [List.map_cons, List.nodup_cons] at hsingle
  refine ((perm_worked s before after next tables).map Submission.jobId).nodup_iff.mpr ?_
  cases next with
  | none => exact hsingle.2
  | some task' =>
      rw [List.map_append, Option.toList_some, List.map_singleton, List.map_singleton,
        (hrows.continues.stays task' rfl).1, List.singleton_append, List.nodup_cons]
      exact hsingle

/-- The turn brings no new call. -/
theorem mem_pending_of_worked (hsplit : s.running = before ++ task :: after)
    (hrows : WorkedRows s task next tables job f) {call : Submission}
    (hcall : call ∈ pending (worked s before after next tables)) : call ∈ s.pending := by
  refine (perm_besides hsplit).mem_iff.mpr ?_
  rcases List.mem_append.mp ((perm_worked s before after next tables).mem_iff.mp hcall) with
    hnext | hother
  · obtain ⟨task', htask', rfl⟩ := List.mem_map.mp hnext
    rw [(hrows.continues.stays task' (Option.mem_toList.mp htask')).1]
    exact List.mem_cons_self
  · exact List.mem_cons_of_mem _ hother

theorem fits_worked (h : DispatchInvariant settings s)
    (hsplit : s.running = before ++ task :: after)
    (hrows : WorkedRows s task next tables job f) {task' : Task}
    (htask' : task' ∈ before ++ next.toList ++ after) {row : BulkJob} (hrow : row ∈ tables.jobs)
    (hrowId : row.jobId = task'.submission.jobId) : task'.phase.Fits row.state := by
  have hmem : task' ∈ next.toList ∨ task' ∈ before ++ after := by
    simp only [List.mem_append] at htask' ⊢
    tauto
  rcases hmem with hnext | hother
  · obtain ⟨hsame, hfits⟩ := hrows.continues.stays task' (Option.mem_toList.mp hnext)
    rcases hrows.row_cases h.ids hrow with ⟨rfl, -⟩ | ⟨-, hne⟩
    · exact hfits
    · exact absurd (hrowId.trans (congrArg Submission.jobId hsame)) hne
  · have hbesides : task'.submission ∈ besides s before after :=
      List.mem_append_right _ (List.mem_map_of_mem hother)
    rcases hrows.row_cases h.ids hrow with ⟨-, hjobId⟩ | ⟨hold, -⟩
    · exact absurd (hrowId.symm.trans hjobId) (h.ne_of_mem_besides hsplit hbesides)
    · refine h.fits task' ?_ row hold hrowId
      rw [hsplit]
      simp only [List.mem_append, List.mem_cons] at hother ⊢
      tauto

theorem kept_worked (h : DispatchInvariant settings s)
    (hsplit : s.running = before ++ task :: after)
    (hrows : WorkedRows s task next tables job f) (hserving : s.process = .serving)
    {row : BulkJob} (hrow : row ∈ tables.jobs) (hlive : row.Live s.now)
    (hresumable : row.state.Resumable) :
    row.jobId ∈ (pending (worked s before after next tables)).map Submission.jobId := by
  refine ((perm_worked s before after next tables).map Submission.jobId).mem_iff.mpr ?_
  rw [List.map_append]
  rcases hrows.row_cases h.ids hrow with ⟨rfl, hjobId⟩ | ⟨hold, hne⟩
  · cases next with
    | none => exact absurd ⟨hlive, hresumable⟩ (hrows.continues.ends rfl)
    | some task' =>
        rw [hjobId, ← (hrows.continues.stays task' rfl).1]
        exact List.mem_append_left _ List.mem_cons_self
  · have hmem := ((perm_besides hsplit).map Submission.jobId).mem_iff.mp
      (h.kept hserving row hold hlive hresumable)
    rw [List.map_cons, List.mem_cons] at hmem
    exact List.mem_append_right _ (hmem.resolve_left hne)

theorem work_step (h : DispatchInvariant settings s) {failure : Option (String × String)}
    (hsplit : s.running = before ++ task :: after)
    (hwork : task.step s.now failure s.tables = (next, tables)) :
    DispatchInvariant settings (worked s before after next tables) := by
  have htask : task ∈ s.running := by
    rw [hsplit]
    simp
  have hcall : task.submission ∈ s.pending :=
    List.mem_append_right _ (List.mem_map_of_mem htask)
  obtain ⟨job, hjob, hid, htype, hstate⟩ := h.known task.submission hcall
  obtain ⟨f, hjobs, hcontinues, hothers⟩ := Task.step_cases h.ids hjob hid
    (htype ▸ h.accepts job hjob) (h.fits task htask job hjob hid) hwork
  have hrows : WorkedRows s task next tables job f := ⟨hjob, hid, hjobs, hcontinues, hothers⟩
  obtain ⟨hids, haccepts, hknown⟩ := h.advance hjobs (hrows.advances h.ids)
  refine ⟨hids ▸ h.ids, haccepts, h.single_worked hsplit hrows, ?_, ?_, ?_, ?_, ?_⟩
  · intro call hmem
    exact hknown call (mem_pending_of_worked hsplit hrows hmem)
  · intro task' htask' row hrow hrowId
    exact h.fits_worked hsplit hrows htask' hrow hrowId
  · intro hserving row hrow hlive hresumable
    exact h.kept_worked hsplit hrows hserving hrow hlive hresumable
  · intro hidle
    rw [h.idle hidle] at hcall
    cases hcall
  · have hlength := h.bounded
    rw [hsplit] at hlength
    have hnext : next.toList.length ≤ 1 := by cases next <;> simp
    simp only [worked, List.length_append, List.length_cons] at hlength ⊢
    omega

end Work

theorem background_step (h : DispatchInvariant settings s) (hstep : Background settings s s') :
    DispatchInvariant settings s' := by
  cases hstep with
  | submit hsplit =>
      refine h.reorder rfl rfl rfl ?_ (fun task htask => Or.inl htask) h.bounded
      rw [List.perm_iff_count]
      intro call
      simp only [pending, hsplit, List.count_append, List.count_cons, List.count_nil]
      omega
  | take hsplit hroom =>
      refine h.reorder rfl rfl rfl ?_ (fun task htask => ?_) ?_
      · rw [List.perm_iff_count]
        intro call
        simp only [pending, hsplit, List.count_append, List.count_cons, List.count_nil,
          List.map_append, List.map_cons, List.map_nil]
        omega
      · rcases List.mem_append.mp htask with hold | hnew
        · exact Or.inl hold
        · exact Or.inr (by rw [List.mem_singleton.mp hnew])
      · rw [List.length_append, List.length_singleton]
        exact hroom
  | work hsplit hwork => exact h.work_step hsplit hwork

theorem abort_step (h : DispatchInvariant settings s) {tables : JobTables} {jobId : String}
    (hmoved : s.tables.transitionJob jobId .aborted none none = .ok tables) :
    DispatchInvariant settings { s with tables := tables } := by
  have hjobs := (transitionJob_ok hmoved).2
  have hadvances : ∀ job ∈ s.tables.jobs, job.Advances (movedRow jobId .aborted none none job) :=
    fun job hjob => advances_movedRow h.ids hmoved hjob
  obtain ⟨hids, haccepts, hknown⟩ := h.advance hjobs hadvances
  refine ⟨by rw [hids]; exact h.ids, haccepts, h.single, hknown, ?_, ?_, h.idle, h.bounded⟩
  · intro task htask row hrow hrowId
    change row ∈ tables.jobs at hrow
    rw [hjobs] at hrow
    obtain ⟨old, hold, rfl⟩ := List.mem_map.mp hrow
    rw [(hadvances old hold).jobId] at hrowId
    by_cases hid : old.jobId = jobId
    · rw [movedRow, if_pos hid]
      exact TaskPhase.Fits.aborted
    · rw [movedRow, if_neg hid]
      exact h.fits task htask old hold hrowId
  · intro hserving row hrow hlive hresumable
    change row ∈ tables.jobs at hrow
    rw [hjobs] at hrow
    obtain ⟨old, hold, rfl⟩ := List.mem_map.mp hrow
    by_cases hid : old.jobId = jobId
    · rw [movedRow, if_pos hid] at hresumable
      exact absurd (show BulkJobState.Resumable .aborted from hresumable) (by decide)
    · rw [movedRow, if_neg hid] at hlive hresumable ⊢
      exact h.kept hserving old hold hlive hresumable

/-- The job that an update closes was Open, so that no call is pending for it. -/
theorem close_step (h : DispatchInvariant settings s) {tables : JobTables} {jobId : String}
    {calls : List Submission} (hserving : s.process = .serving)
    (hmoved : s.tables.transitionJob jobId .uploadComplete none none = .ok tables)
    (htype : ∃ job ∈ s.tables.jobs, job.jobId = jobId ∧ job.jobType = .ingest)
    (hcalls : (calls = [] ∧ tables.getJob s.now jobId = none) ∨ calls = [⟨.ingest, jobId⟩]) :
    DispatchInvariant settings { s with tables := tables, accepted := s.accepted ++ calls } := by
  obtain ⟨⟨job, hjob, hid, hnext⟩, hjobs⟩ := transitionJob_ok hmoved
  have hopen : job.state = .jobOpen := by
    cases hstate : job.state <;> rw [hstate] at hnext <;> revert hnext <;> decide
  have hingest : job.jobType = .ingest := by
    obtain ⟨found, hfound, hfoundId, hfoundType⟩ := htype
    rwa [eq_of_jobId h.ids hfound hjob (hfoundId.trans hid.symm)] at hfoundType
  have hfree : jobId ∉ s.pending.map Submission.jobId := by
    intro hmem
    obtain ⟨call, hcall, rfl⟩ := List.mem_map.mp hmem
    obtain ⟨known, hknown, hknownId, -, hstate⟩ := h.known call hcall
    rw [eq_of_jobId h.ids hknown hjob (hknownId.trans hid.symm)] at hstate
    exact hstate hopen
  have hadvances : ∀ row ∈ s.tables.jobs,
      row.Advances (movedRow jobId .uploadComplete none none row) :=
    fun row hrow => advances_movedRow h.ids hmoved hrow
  obtain ⟨hids, haccepts, hknown⟩ := h.advance hjobs hadvances
  have hrow : movedRow jobId .uploadComplete none none job ∈ tables.jobs := by
    rw [hjobs]
    exact List.mem_map_of_mem hjob
  have hrowEq : movedRow jobId .uploadComplete none none job =
      job.moved .uploadComplete none none := if_pos hid
  have hperm : (pending { s with tables := tables, accepted := s.accepted ++ calls }).Perm
      (calls ++ s.pending) := by
    rw [List.perm_iff_count]
    intro call
    simp only [pending, List.count_append]
    omega
  refine ⟨by rw [hids]; exact h.ids, haccepts, ?_, ?_, ?_, ?_,
    fun hidle => absurd hserving hidle, h.bounded⟩
  · refine (hperm.map Submission.jobId).nodup_iff.mpr ?_
    rcases hcalls with ⟨rfl, -⟩ | rfl
    · exact h.single
    · exact List.nodup_cons.mpr ⟨hfree, h.single⟩
  · intro call hcall
    rcases List.mem_append.mp (hperm.mem_iff.mp hcall) with hnew | hold
    · rcases hcalls with ⟨rfl, -⟩ | rfl
      · cases hnew
      · rw [List.mem_singleton.mp hnew]
        refine ⟨_, hrow, (hadvances job hjob).jobId.trans hid,
          (hadvances job hjob).jobType.trans hingest, ?_⟩
        rw [hrowEq]
        exact fun heq => BulkJobState.noConfusion heq
    · exact hknown call hold
  · intro task htask row hmem hrowId
    change row ∈ tables.jobs at hmem
    rw [hjobs] at hmem
    obtain ⟨old, hold, rfl⟩ := List.mem_map.mp hmem
    rw [(hadvances old hold).jobId] at hrowId
    have hne : old.jobId ≠ jobId := by
      intro heq
      refine hfree (List.mem_map.mpr ⟨task.submission, ?_, hrowId.symm.trans heq⟩)
      exact List.mem_append_right _ (List.mem_map_of_mem htask)
    rw [movedRow, if_neg hne]
    exact h.fits task htask old hold hrowId
  · intro _ row hmem hlive hresumable
    change row ∈ tables.jobs at hmem
    refine (hperm.map Submission.jobId).mem_iff.mpr ?_
    rw [hjobs] at hmem
    obtain ⟨old, hold, rfl⟩ := List.mem_map.mp hmem
    rw [List.map_append, List.mem_append]
    by_cases holdId : old.jobId = jobId
    · rw [eq_of_jobId h.ids hold hjob (holdId.trans hid.symm)] at hlive ⊢
      rcases hcalls with ⟨rfl, hnone⟩ | rfl
      · exact absurd hlive (not_live_of_getJob hnone hrow
          ((hadvances job hjob).jobId.trans hid))
      · exact Or.inl (List.mem_singleton.mpr ((hadvances job hjob).jobId.trans hid))
    · rw [movedRow, if_neg holdId] at hlive hresumable ⊢
      exact Or.inr (h.kept hserving old hold hlive hresumable)

/-- A new row under an id that no row and so no call has. -/
theorem create_step (h : DispatchInvariant settings s) {tables : JobTables} {job : BulkJob}
    {calls : List Submission} (hserving : s.process = .serving)
    (hcreate : createJob job s.tables = .ok tables) (haccepts : job.jobType.Accepts job)
    (hcalls : (calls = [] ∧ job.state = .jobOpen) ∨
      (calls = [⟨job.jobType, job.jobId⟩] ∧ job.state ≠ .jobOpen)) :
    DispatchInvariant settings { s with tables := tables, accepted := s.accepted ++ calls } := by
  have hnew : job.jobId ∉ s.tables.jobIds := by
    intro hmem
    rw [createJob, if_pos hmem] at hcreate
    cases hcreate
  obtain rfl := createJob_eq hcreate
  have hfree : job.jobId ∉ s.pending.map Submission.jobId := by
    intro hmem
    obtain ⟨call, hcall, hcallId⟩ := List.mem_map.mp hmem
    obtain ⟨known, hknown, hknownId, -, -⟩ := h.known call hcall
    exact hnew (mem_jobIds.mpr ⟨known, hknown, hknownId.trans hcallId⟩)
  have hperm : (pending { s with
      tables := { s.tables with jobs := s.tables.jobs ++ [job] },
      accepted := s.accepted ++ calls }).Perm (calls ++ s.pending) := by
    rw [List.perm_iff_count]
    intro call
    simp only [pending, List.count_append]
    omega
  refine ⟨?_, ?_, ?_, ?_, ?_, ?_, fun hidle => absurd hserving hidle, h.bounded⟩
  · rw [jobIds, List.map_append, List.map_singleton]
    refine List.nodup_append.mpr ⟨h.ids, List.nodup_singleton _, ?_⟩
    rintro _ hold _ hsingle rfl
    rw [List.mem_singleton.mp hsingle] at hold
    exact hnew hold
  · intro row hrow
    rcases List.mem_append.mp hrow with hold | hsingle
    · exact h.accepts row hold
    · rw [List.mem_singleton.mp hsingle]
      exact haccepts
  · refine (hperm.map Submission.jobId).nodup_iff.mpr ?_
    rcases hcalls with ⟨rfl, -⟩ | ⟨rfl, -⟩
    · exact h.single
    · exact List.nodup_cons.mpr ⟨hfree, h.single⟩
  · intro call hcall
    rcases List.mem_append.mp (hperm.mem_iff.mp hcall) with hnewCall | hold
    · rcases hcalls with ⟨rfl, -⟩ | ⟨rfl, hstate⟩
      · cases hnewCall
      · rw [List.mem_singleton.mp hnewCall]
        exact ⟨job, List.mem_append_right _ (List.mem_singleton_self _), rfl, rfl, hstate⟩
    · obtain ⟨known, hknown, hfor⟩ := h.known call hold
      exact ⟨known, List.mem_append_left _ hknown, hfor⟩
  · intro task htask row hrow hrowId
    rcases List.mem_append.mp hrow with hold | hsingle
    · exact h.fits task htask row hold hrowId
    · rw [List.mem_singleton.mp hsingle] at hrowId
      refine absurd (List.mem_map.mpr ⟨task.submission, ?_, hrowId.symm⟩) hfree
      exact List.mem_append_right _ (List.mem_map_of_mem htask)
  · intro _ row hrow hlive hresumable
    refine (hperm.map Submission.jobId).mem_iff.mpr ?_
    rw [List.map_append, List.mem_append]
    rcases List.mem_append.mp hrow with hold | hsingle
    · exact Or.inr (h.kept hserving row hold hlive hresumable)
    · rw [List.mem_singleton.mp hsingle] at hresumable ⊢
      rcases hcalls with ⟨-, hstate⟩ | ⟨rfl, -⟩
      · rw [hstate] at hresumable
        exact absurd hresumable (by decide)
      · exact Or.inl (List.mem_singleton_self _)

/-- Nothing is pending where the process has ended. -/
theorem of_idle (h : DispatchInvariant settings s) {tables : JobTables} {process : ServerProcess}
    (hids : tables.jobIds.Nodup) (hrows : ∀ job ∈ tables.jobs, job ∈ s.tables.jobs)
    (hprocess : process ≠ .serving) :
    DispatchInvariant settings { s with
      process := process, tables := tables, accepted := [], queue := [], running := [] } where
  ids := hids
  accepts job hjob := h.accepts job (hrows job hjob)
  single := List.nodup_nil
  known _ hcall := by cases hcall
  fits _ htask := by cases htask
  kept hserving := absurd hserving hprocess
  idle _ := rfl
  bounded := Nat.zero_le _

theorem idle_lists (h : DispatchInvariant settings s) (hidle : s.process ≠ .serving) :
    s.accepted = [] ∧ s.queue = [] ∧ s.running = [] := by
  have hpending := h.idle hidle
  simp only [pending, List.append_eq_nil_iff, List.map_eq_nil_iff] at hpending
  exact ⟨hpending.1.1, hpending.1.2, hpending.2⟩

theorem resume_step (h : DispatchInvariant settings s) (hprocess : s.process = .recovered) :
    DispatchInvariant settings { s with
      process := .serving
      queue := (s.tables.resumableJobs .query s.now).map (⟨.query, ·⟩) ++
        (s.tables.resumableJobs .ingest s.now).map (⟨.ingest, ·⟩) } := by
  obtain ⟨haccepted, -, hrunning⟩ := h.idle_lists (by rw [hprocess]; decide)
  have hpending : (pending { s with
      process := .serving
      queue := (s.tables.resumableJobs .query s.now).map (⟨.query, ·⟩) ++
        (s.tables.resumableJobs .ingest s.now).map (⟨.ingest, ·⟩) }) =
      (s.tables.resumableJobs .query s.now).map (Submission.mk .query) ++
        (s.tables.resumableJobs .ingest s.now).map (Submission.mk .ingest) := by
    simp only [pending, haccepted, hrunning, List.nil_append, List.map_nil, List.append_nil]
  have hids : ∀ {worker : BulkJobType} {jobIds : List String},
      (jobIds.map (Submission.mk worker)).map Submission.jobId = jobIds := by
    intro worker jobIds
    rw [List.map_map]
    exact List.map_id jobIds
  refine ⟨h.ids, h.accepts, ?_, ?_, ?_, ?_, fun hidle => absurd rfl hidle, h.bounded⟩
  · rw [hpending, List.map_append, hids, hids]
    refine List.nodup_append.mpr ⟨nodup_resumableJobs h.ids, nodup_resumableJobs h.ids, ?_⟩
    rintro jobId hquery _ hingest rfl
    obtain ⟨job, hjob, htype, -, -, hid⟩ := mem_resumableJobs.mp hquery
    obtain ⟨job', hjob', htype', -, -, hid'⟩ := mem_resumableJobs.mp hingest
    rw [eq_of_jobId h.ids hjob' hjob (hid'.trans hid.symm), htype] at htype'
    cases htype'
  · intro call hcall
    have hfor : ∀ {worker : BulkJobType} {jobId : String},
        jobId ∈ s.tables.resumableJobs worker s.now →
        ∃ job ∈ s.tables.jobs, (Submission.mk worker jobId).For job := by
      intro worker jobId hmem
      obtain ⟨job, hjob, htype, hresumable, -, hid⟩ := mem_resumableJobs.mp hmem
      refine ⟨job, hjob, hid, htype, fun hopen => ?_⟩
      rw [hopen] at hresumable
      exact absurd hresumable (by decide)
    rw [hpending] at hcall
    rcases List.mem_append.mp hcall with hquery | hingest
    · obtain ⟨jobId, hmem, rfl⟩ := List.mem_map.mp hquery
      exact hfor hmem
    · obtain ⟨jobId, hmem, rfl⟩ := List.mem_map.mp hingest
      exact hfor hmem
  · intro task htask
    rw [hrunning] at htask
    cases htask
  · intro _ job hjob hlive hresumable
    rw [hpending, List.map_append, hids, hids, List.mem_append]
    cases htype : job.jobType with
    | query => exact Or.inl (mem_resumableJobs.mpr ⟨job, hjob, htype, hresumable, hlive, rfl⟩)
    | ingest => exact Or.inr (mem_resumableJobs.mpr ⟨job, hjob, htype, hresumable, hlive, rfl⟩)

theorem step (h : DispatchInvariant settings s) (hstep : Step settings s s') :
    DispatchInvariant settings s' := by
  cases hstep with
  | background hbackground => exact h.background_step hbackground
  | createQuery hserving hcreate =>
      exact h.create_step hserving hcreate ⟨rfl, Option.some_ne_none _⟩
        (Or.inr ⟨rfl, fun heq => BulkJobState.noConfusion heq⟩)
  | createIngest hserving hcreate =>
      have hcreated := h.create_step hserving hcreate ⟨rfl, Option.some_ne_none _⟩
        (Or.inl ⟨rfl, rfl⟩)
      rwa [List.append_nil] at hcreated
  | updateIngest hserving hupdate =>
      rcases updateBulkIngestJob_cases h.ids hupdate with
        ⟨rfl, hnone⟩ | ⟨hmoved, hnone⟩ | ⟨hmoved, htype, hcalls⟩
      · rw [hnone, List.append_nil]
        exact h
      · rw [hnone, List.append_nil]
        exact h.abort_step hmoved
      · exact h.close_step hserving hmoved htype hcalls
  | updateQuery hserving hupdate =>
      rcases updateBulkQueryJob_cases hupdate with rfl | hmoved
      · exact h
      · exact h.abort_step hmoved
  | pass hle =>
      refine ⟨h.ids, h.accepts, h.single, h.known, h.fits, ?_, h.idle, h.bounded⟩
      intro hserving job hjob hlive hresumable
      exact h.kept hserving job hjob (fun time htime => lt_of_le_of_lt hle (hlive time htime))
        hresumable
  | crash => exact h.of_idle h.ids (fun _ hjob => hjob) (by decide)
  | recover hdown hexpire =>
      obtain ⟨haccepted, hqueue, hrunning⟩ := h.idle_lists (by rw [hdown]; decide)
      have hjobs := jobs_of_expireJobs hexpire
      have hrecovered := h.of_idle
        (by
          rw [jobIds, hjobs]
          exact h.ids.sublist (List.filter_sublist.map BulkJob.jobId))
        (fun job hjob => by
          rw [hjobs] at hjob
          exact (List.mem_filter.mp hjob).1)
        (show ServerProcess.recovered ≠ .serving by decide)
      rw [haccepted, hqueue, hrunning]
      exact hrecovered
  | resume hrecovered => exact h.resume_step hrecovered

theorem of_run {start : BulkServer} (hstart : start.Fresh)
    (hrun : Relation.ReflTransGen (Step settings) start s) : DispatchInvariant settings s := by
  induction hrun with
  | refl => exact of_fresh hstart
  | tail _ hstep ih => exact ih.step hstep

end DispatchInvariant

/-! ## A query that a crash interrupts -/

def BulkSettings.twoWorkers : BulkSettings := ⟨2, 24⟩

/-- A server before its first start. -/
def BulkServer.unstarted : BulkServer :=
  ⟨.down, 0, JobTables.empty, [], [], []⟩

theorem BulkServer.fresh_unstarted : BulkServer.unstarted.Fresh :=
  ⟨rfl, rfl, rfl⟩

/-- The row of a query job. -/
def BulkServer.leadExtract : BulkJob :=
  createdQueryJob .twoWorkers 0 "7500001" "SELECT Id FROM Lead" "a1"

/-- The server that has started again after a crash behind the creation of the job. -/
def BulkServer.restarted : BulkServer where
  process := .serving
  now := 0
  tables := { JobTables.empty with jobs := [leadExtract] }
  accepted := []
  queue := [⟨.query, "7500001"⟩]
  running := []

theorem BulkServer.run_restarted :
    Relation.ReflTransGen (BulkServer.Step .twoWorkers) unstarted restarted := by
  have hrecover : ∀ {s : BulkServer}, s.process = .down →
      s.tables.expireJobs s.now none = .ok s.tables →
      BulkServer.Step .twoWorkers s { s with process := .recovered } :=
    fun hdown hexpire => .recover hdown hexpire
  have hcreate : JobTables.createJob leadExtract JobTables.empty =
      .ok { JobTables.empty with jobs := [leadExtract] } := rfl
  have hserving := (Relation.ReflTransGen.single (hrecover (s := unstarted) rfl rfl)).tail
    (.resume rfl)
  have hcrashed := (hserving.tail (.createQuery rfl hcreate)).tail .crash
  exact (hcrashed.tail (hrecover rfl rfl)).tail (.resume rfl)

/-! ## Calls -/

/-- What the dispatch promises in every state: no more threads than workers, at most one call
for each job, and for a live job that is to be run one call of the right worker. -/
structure BulkServer.Dispatched (settings : BulkSettings) (s : BulkServer) : Prop where
  bounded : s.running.length ≤ settings.bulkWorkers
  single : (s.pending.map Submission.jobId).Nodup
  called : s.process = .serving → ∀ job ∈ s.tables.jobs, job.Live s.now → job.state.Resumable →
    ⟨job.jobType, job.jobId⟩ ∈ s.pending

theorem DispatchInvariant.dispatched {settings : BulkSettings} {s : BulkServer}
    (h : DispatchInvariant settings s) : s.Dispatched settings where
  bounded := h.bounded
  single := h.single
  called hserving job hjob hlive hresumable := by
    obtain ⟨call, hcall, hid⟩ := List.mem_map.mp (h.kept hserving job hjob hlive hresumable)
    obtain ⟨known, hknown, hknownId, htype, -⟩ := h.known call hcall
    rw [JobTables.eq_of_jobId h.ids hknown hjob (hknownId.trans hid)] at htype
    rw [htype, ← hid]
    exact hcall

/-- **One call for each job.**  However requests, threads, crashes and starts interleave, no
job has two calls, and none that is to be run is without one. -/
theorem dispatched_of_run {settings : BulkSettings} {start s : BulkServer}
    (hstart : start.Fresh)
    (hrun : Relation.ReflTransGen (BulkServer.Step settings) start s) :
    s.Dispatched settings :=
  (DispatchInvariant.of_run hstart hrun).dispatched

/-- After a crash between the row of a job and its submission the job has its call. -/
theorem dispatched_restarted :
    BulkServer.restarted.Dispatched .twoWorkers ∧
      BulkServer.restarted.pending = [⟨.query, "7500001"⟩] :=
  ⟨dispatched_of_run BulkServer.fresh_unstarted BulkServer.run_restarted, rfl⟩

/-! ## Rows -/

/-- What becomes of a row over a run: transitions that are allowed, and none from a final
state. -/
structure BulkJob.Follows (job job' : BulkJob) : Prop where
  row : job'.moved job.state job.errorCode job.errorMessage = job
  path : Relation.ReflTransGen (fun state next => next ∈ allowedTransitions state)
    job.state job'.state
  settled : job.state.Final → job' = job

namespace BulkJob

variable {job job' job'' : BulkJob}

theorem Follows.refl (job : BulkJob) : job.Follows job :=
  ⟨rfl, .refl, fun _ => rfl⟩

theorem Follows.live_iff {now : Int} (h : job.Follows job') : job'.Live now ↔ job.Live now := by
  have hexpires : job'.expiresAt = job.expiresAt := (congrArg BulkJob.expiresAt h.row :)
  rw [Live, Live, hexpires]

theorem Follows.advance (h : job.Follows job') (hnext : job'.Advances job'') :
    job.Follows job'' := by
  refine ⟨?_, ?_, fun hfinal => ?_⟩
  · conv_rhs => rw [← h.row, ← hnext.row]
    rfl
  · rcases hnext.state with rfl | hstate
    · exact h.path
    · exact h.path.tail hstate
  · obtain rfl := h.settled hfinal
    refine hnext.state.resolve_right fun hstate => ?_
    rw [hfinal] at hstate
    cases hstate

end BulkJob

namespace BulkServer

open JobTables

variable {settings : BulkSettings} {s s' : BulkServer}

/-- Time does not go back, and a row that is still live has advanced. -/
theorem Step.rows (h : DispatchInvariant settings s) (hstep : Step settings s s') :
    s.now ≤ s'.now ∧ ∀ job ∈ s.tables.jobs, job.Live s'.now →
      ∃ job' ∈ s'.tables.jobs, job.Advances job' := by
  have hsame : ∀ {rows : List BulkJob}, (∀ job ∈ s.tables.jobs, job ∈ rows) →
      ∀ job ∈ s.tables.jobs, ∃ job' ∈ rows, job.Advances job' :=
    fun hrows job hjob => ⟨job, hrows job hjob, .refl job⟩
  have hmap : ∀ {f : BulkJob → BulkJob} {rows : List BulkJob}, rows = s.tables.jobs.map f →
      (∀ job ∈ s.tables.jobs, job.Advances (f job)) →
      ∀ job ∈ s.tables.jobs, ∃ job' ∈ rows, job.Advances job' := by
    rintro f rows rfl hf job hjob
    exact ⟨f job, List.mem_map_of_mem hjob, hf job hjob⟩
  have hmoved : ∀ {jobId : String} {next : BulkJobState} {tables : JobTables},
      s.tables.transitionJob jobId next none none = .ok tables →
      ∀ job ∈ s.tables.jobs, ∃ job' ∈ tables.jobs, job.Advances job' :=
    fun hmove => hmap (transitionJob_ok hmove).2 fun job hjob => advances_movedRow h.ids hmove hjob
  cases hstep with
  | background hbackground =>
      cases hbackground with
      | submit => exact ⟨le_rfl, fun job hjob _ => hsame (fun _ => id) job hjob⟩
      | take => exact ⟨le_rfl, fun job hjob _ => hsame (fun _ => id) job hjob⟩
      | @work before after task failure next tables hsplit hwork =>
          have htask : task ∈ s.running := by
            rw [hsplit]
            simp
          obtain ⟨called, hcalled, hid, htype, -⟩ := h.known task.submission
            (List.mem_append_right _ (List.mem_map_of_mem htask))
          obtain ⟨f, hjobs, hcontinues, hothers⟩ := Task.step_cases h.ids hcalled hid
            (htype ▸ h.accepts called hcalled) (h.fits task htask called hcalled hid) hwork
          refine ⟨le_rfl, fun job hjob _ => hmap hjobs (fun row hrow => ?_) job hjob⟩
          by_cases hrowId : row.jobId = task.submission.jobId
          · rw [eq_of_jobId h.ids hrow hcalled (hrowId.trans hid.symm)]
            exact hcontinues.advances
          · rw [hothers row hrow hrowId]
            exact .refl row
  | createQuery _ hcreate =>
      obtain rfl := createJob_eq hcreate
      exact ⟨le_rfl, fun job hjob _ => hsame (fun _ => List.mem_append_left _) job hjob⟩
  | createIngest _ hcreate =>
      obtain rfl := createJob_eq hcreate
      exact ⟨le_rfl, fun job hjob _ => hsame (fun _ => List.mem_append_left _) job hjob⟩
  | updateIngest _ hupdate =>
      rcases updateBulkIngestJob_cases h.ids hupdate with
        ⟨rfl, -⟩ | ⟨hmove, -⟩ | ⟨hmove, -, -⟩
      · exact ⟨le_rfl, fun job hjob _ => hsame (fun _ => id) job hjob⟩
      · exact ⟨le_rfl, fun job hjob _ => hmoved hmove job hjob⟩
      · exact ⟨le_rfl, fun job hjob _ => hmoved hmove job hjob⟩
  | updateQuery _ hupdate =>
      rcases updateBulkQueryJob_cases hupdate with rfl | hmove
      · exact ⟨le_rfl, fun job hjob _ => hsame (fun _ => id) job hjob⟩
      · exact ⟨le_rfl, fun job hjob _ => hmoved hmove job hjob⟩
  | pass hle => exact ⟨hle, fun job hjob _ => hsame (fun _ => id) job hjob⟩
  | crash => exact ⟨le_rfl, fun job hjob _ => hsame (fun _ => id) job hjob⟩
  | @recover raisesAt tables hdown hexpire =>
      refine ⟨le_rfl, fun job hjob hlive => ⟨job, ?_, .refl job⟩⟩
      change job ∈ tables.jobs
      rw [jobs_of_expireJobs hexpire, List.mem_filter, decide_eq_true_iff]
      refine ⟨hjob, fun hexpired => ?_⟩
      obtain ⟨old, hold, hover, hid⟩ := mem_expiredIds.mp hexpired
      rw [eq_of_jobId h.ids hold hjob hid] at hover
      exact hover hlive
  | resume => exact ⟨le_rfl, fun job hjob _ => hsame (fun _ => id) job hjob⟩

end BulkServer

/-- **Rows over runs.**  A job that has not expired is still there: its state has come along
allowed transitions, and a row in a final state is as it was. -/
theorem followed_of_run {settings : BulkSettings} {start s s' : BulkServer}
    (hstart : start.Fresh)
    (hrun : Relation.ReflTransGen (BulkServer.Step settings) start s)
    (hlater : Relation.ReflTransGen (BulkServer.Step settings) s s') :
    ∀ job ∈ s.tables.jobs, job.Live s'.now → ∃ job' ∈ s'.tables.jobs, job.Follows job' := by
  intro job hjob
  induction hlater with
  | refl => exact fun _ => ⟨job, hjob, .refl job⟩
  | @tail t u hto hstep ih =>
      intro hlive
      have hinvariant := DispatchInvariant.of_run hstart (hrun.trans hto)
      obtain ⟨hle, hrows⟩ := hstep.rows hinvariant
      obtain ⟨job', hjob', hfollows⟩ :=
        ih fun time htime => lt_of_le_of_lt hle (hlive time htime)
      obtain ⟨job'', hjob'', hadvances⟩ := hrows job' hjob' (hfollows.live_iff.mpr hlive)
      exact ⟨job'', hjob'', hfollows.advance hadvances⟩

theorem followed_restarted :
    ∃ job ∈ BulkServer.restarted.tables.jobs, BulkServer.leadExtract.Follows job :=
  followed_of_run BulkServer.fresh_unstarted BulkServer.run_restarted .refl
    BulkServer.leadExtract List.mem_cons_self (by decide)

/-! ## The end of the background -/

/-- The steps that a thread is at most to take from a phase on. -/
def TaskPhase.weight : TaskPhase → Nat
  | .waking => 5
  | .checked => 4
  | .loaded => 3
  | .streaming => 2
  | .streamed _ => 1

/-- The steps that the background is at most to take. -/
def BulkServer.weight (s : BulkServer) : Nat :=
  7 * s.accepted.length + 6 * s.queue.length +
    (s.running.map fun task => task.phase.weight).sum

theorem Task.weight_step {now : Int} {failure : Option (String × String)} {task : Task}
    {s s' : JobTables} {next : Option Task} (h : task.step now failure s = (next, s')) :
    (next.toList.map fun task => task.phase.weight).sum < task.phase.weight := by
  have hnext : next = (task.step now failure s).1 := (congrArg Prod.fst h).symm
  subst hnext
  obtain ⟨submission, phase⟩ := task
  cases phase with
  | waking =>
      simp only [step]
      split
      · simp [TaskPhase.weight]
      · split <;> simp [TaskPhase.weight]
  | checked =>
      simp only [step]
      split
      · simp [TaskPhase.weight]
      · split
        · simp [TaskPhase.weight]
        · split
          · simp [TaskPhase.weight]
          · split <;> simp [TaskPhase.weight]
  | loaded =>
      simp only [step]
      split
      · simp [TaskPhase.weight]
      · split <;> simp [TaskPhase.weight]
  | streaming => simp [step, TaskPhase.weight]
  | streamed outcome =>
      cases outcome with
      | none =>
          simp only [step]
          split <;> simp [TaskPhase.weight]
      | some error =>
          obtain ⟨code, message⟩ := error
          simp only [step]
          split <;> simp [TaskPhase.weight]

namespace BulkServer

variable {settings : BulkSettings} {s s' : BulkServer}

theorem Background.weight_lt (hstep : Background settings s s') : s'.weight < s.weight := by
  cases hstep with
  | submit hsplit =>
      simp only [weight, hsplit, List.length_append, List.length_cons, List.length_nil]
      omega
  | take hsplit _ =>
      simp only [weight, hsplit, List.length_cons, List.map_append, List.sum_append, List.map_cons,
        List.map_nil, List.sum_cons, List.sum_nil, TaskPhase.weight]
      omega
  | work hsplit hwork =>
      have hless := Task.weight_step hwork
      simp only [weight, hsplit, List.map_append, List.sum_append, List.map_cons, List.sum_cons]
      omega

/-- While a call is pending, a submission, a free thread or a busy one can go on. -/
theorem exists_background (hworkers : 0 < settings.bulkWorkers) (hpending : s.pending ≠ []) :
    ∃ s', Background settings s s' := by
  cases hrunning : s.running with
  | cons task rest =>
      have hsplit : s.running = [] ++ task :: rest := hrunning
      exact ⟨_, .work hsplit (rfl : task.step s.now none s.tables = (_, _))⟩
  | nil =>
      cases hqueue : s.queue with
      | cons call rest => exact ⟨_, .take hqueue (by rw [hrunning]; exact hworkers)⟩
      | nil =>
          cases haccepted : s.accepted with
          | cons call rest =>
              have hsplit : s.accepted = [] ++ call :: rest := haccepted
              exact ⟨_, .submit hsplit⟩
          | nil =>
              rw [pending, haccepted, hqueue, hrunning] at hpending
              exact absurd rfl hpending

theorem Background.process_eq (hstep : Background settings s s') : s'.process = s.process := by
  cases hstep <;> rfl

end BulkServer

/-- A run without requests: so many steps of the background, and the clock passes in
between. -/
inductive BulkServer.Unattended (settings : BulkSettings) (s : BulkServer) :
    Nat → BulkServer → Prop
  | refl : Unattended settings s 0 s
  | background {n : Nat} {t u : BulkServer} :
      Unattended settings s n t → Background settings t u → Unattended settings s (n + 1) u
  | pass {n : Nat} {t : BulkServer} {now : Int} :
      Unattended settings s n t → t.now ≤ now → Unattended settings s n { t with now := now }

namespace BulkServer.Unattended

variable {settings : BulkSettings} {s t : BulkServer} {n : Nat}

theorem steps (h : Unattended settings s n t) : Relation.ReflTransGen (Step settings) s t := by
  induction h with
  | refl => exact .refl
  | background _ hstep ih => exact ih.tail (.background hstep)
  | pass _ hlater ih => exact ih.tail (.pass hlater)

theorem process_eq (h : Unattended settings s n t) : t.process = s.process := by
  induction h with
  | refl => rfl
  | background _ hstep ih => exact hstep.process_eq.trans ih
  | pass _ _ ih => exact ih

/-- Every step of the background uses up some of the weight, and the clock none of it. -/
theorem add_weight_le (h : Unattended settings s n t) : n + t.weight ≤ s.weight := by
  induction h with
  | refl => exact Nat.le_of_eq (Nat.zero_add _)
  | background _ hstep ih =>
      have hless := hstep.weight_lt
      omega
  | pass _ _ ih => exact ih

end BulkServer.Unattended

/-- **The end of the background.**  Without new requests the dispatch comes to an end, in at
most `weight` steps however the clock passes, and where it can take no further step every live
job is Open or final. -/
theorem background_ends {settings : BulkSettings} {start s : BulkServer}
    (hworkers : 0 < settings.bulkWorkers) (hstart : start.Fresh)
    (hrun : Relation.ReflTransGen (BulkServer.Step settings) start s)
    (hserving : s.process = .serving) :
    ∀ n t, BulkServer.Unattended settings s n t →
      n ≤ s.weight ∧
        ((∀ u, ¬BulkServer.Background settings t u) →
          ∀ job ∈ t.tables.jobs, job.Live t.now → job.state = .jobOpen ∨ job.state.Final) := by
  intro n t hto
  refine ⟨(Nat.le_add_right _ _).trans hto.add_weight_le, fun hend job hjob hlive => ?_⟩
  have hprocess : t.process = .serving := hto.process_eq.trans hserving
  have hinvariant := DispatchInvariant.of_run hstart (hrun.trans hto.steps)
  have hpending : t.pending = [] := by
    by_contra hne
    obtain ⟨u, hu⟩ := BulkServer.exists_background hworkers hne
    exact hend u hu
  by_contra hover
  have hresumable : job.state.Resumable := by
    cases hstate : job.state with
    | jobOpen => exact absurd (Or.inl hstate) hover
    | uploadComplete => exact Or.inl rfl
    | inProgress => exact Or.inr rfl
    | jobComplete => exact absurd (Or.inr (by rw [hstate]; rfl)) hover
    | failed => exact absurd (Or.inr (by rw [hstate]; rfl)) hover
    | aborted => exact absurd (Or.inr (by rw [hstate]; rfl)) hover
  have hcalled := hinvariant.kept hprocess job hjob hlive hresumable
  rw [hpending] at hcalled
  cases hcalled

/-- The server with a thread at the job, at a time and with a state of the row. -/
def BulkServer.working (now : Int) (state : BulkJobState) (phase : TaskPhase) : BulkServer where
  process := .serving
  now := now
  tables := { JobTables.empty with jobs := [{ leadExtract with state := state }] }
  accepted := []
  queue := []
  running := [⟨⟨.query, "7500001"⟩, phase⟩]

theorem BulkServer.work_working {now : Int} {state state' : BulkJobState} {phase phase' : TaskPhase}
    (h : Task.step now none ⟨⟨.query, "7500001"⟩, phase⟩ (working now state phase).tables =
      (some ⟨⟨.query, "7500001"⟩, phase'⟩, (working now state' phase').tables)) :
    Background .twoWorkers (working now state phase) (working now state' phase') :=
  @Background.work .twoWorkers (working now state phase) [] [] ⟨⟨.query, "7500001"⟩, phase⟩ none
    (some ⟨⟨.query, "7500001"⟩, phase'⟩) _ rfl h

/-- The thread takes its steps, an hour passes while it streams, and the job is complete. -/
theorem background_ends_restarted :
    ∃ t, BulkServer.Unattended .twoWorkers BulkServer.restarted 6 t ∧ t.now = 3600000000 ∧
      t.tables.jobs.map BulkJob.state = [.jobComplete] ∧
      6 ≤ BulkServer.restarted.weight ∧ BulkServer.restarted.weight = 6 := by
  have htaken : BulkServer.Background .twoWorkers BulkServer.restarted
      (.working 0 .uploadComplete .waking) := .take rfl (by decide)
  have hchecked : BulkServer.Background .twoWorkers (.working 0 .uploadComplete .waking)
      (.working 0 .uploadComplete .checked) := BulkServer.work_working rfl
  have hloaded : BulkServer.Background .twoWorkers (.working 0 .uploadComplete .checked)
      (.working 0 .uploadComplete .loaded) := BulkServer.work_working rfl
  have hstarted : BulkServer.Background .twoWorkers (.working 0 .uploadComplete .loaded)
      (.working 0 .inProgress .streaming) := BulkServer.work_working rfl
  have hstreaming : BulkServer.Unattended .twoWorkers BulkServer.restarted 4
      (.working 3600000000 .inProgress .streaming) :=
    ((((BulkServer.Unattended.refl.background htaken).background hchecked).background
      hloaded).background hstarted).pass (by decide)
  have hstreamed : BulkServer.Background .twoWorkers (.working 3600000000 .inProgress .streaming)
      (.working 3600000000 .inProgress (.streamed none)) := BulkServer.work_working rfl
  have hdone := (hstreaming.background hstreamed).background
    (@BulkServer.Background.work .twoWorkers (.working 3600000000 .inProgress (.streamed none))
      [] [] ⟨⟨.query, "7500001"⟩, .streamed none⟩ none none _ rfl rfl)
  exact ⟨_, hdone, rfl, rfl, (background_ends (by decide) BulkServer.fresh_unstarted
    BulkServer.run_restarted rfl 6 _ hdone).1, rfl⟩

end FakeForce
end Northwind
