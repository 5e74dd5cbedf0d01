import Northwind.Simulator.CrmPublisher

/-!
# Publishing again after a crash

A crash leaves the first `k` writes of a call.  The manifest is the last one, so
the second call reads the current rows anew, from the directories the first one
has written to.  `restartSafe_iff` says for which events it still ends with what
an uninterrupted call would have written.

Both calls may rank rows of equal versions in any way: a second call is safe when
everything it may leave is something an uninterrupted call may leave.
-/

namespace Northwind
namespace Simulator

open CrashPrefixes NewestPerKey FakeForce

/-! ## Writing the same files twice -/

section Files

variable {files files' : List (Path × List Row)}

theorem read_after_files_of_notMem
    {path : Path} (hpath : path ∉ files.map Prod.fst) (s : CrmStore) :
    (after CrmStore.write s (files.map CrmDeltaPublisher.fileWrite)).disk.read path =
      s.disk.read path := by
  induction files generalizing s with
  | nil => rfl
  | cons file files ih =>
      rw [List.map_cons, List.mem_cons, not_or] at hpath
      rw [List.map_cons, after_cons, ih hpath.2, CrmDeltaPublisher.fileWrite,
        CrmDeltaPublisher.read_write_delta, Function.update_of_ne hpath.1]

theorem read_after_files_of_mem
    (hnodup : (files.map Prod.fst).Nodup) {file : Path × List Row} (hfile : file ∈ files)
    (s : CrmStore) :
    (after CrmStore.write s (files.map CrmDeltaPublisher.fileWrite)).disk.read file.1 =
      some file.2 := by
  induction files generalizing s with
  | nil => cases hfile
  | cons first files ih =>
      obtain ⟨hnotMem, hrest⟩ := List.nodup_cons.mp hnodup
      rw [List.map_cons, after_cons]
      rcases List.mem_cons.mp hfile with rfl | hfile
      · rw [read_after_files_of_notMem hnotMem, CrmDeltaPublisher.fileWrite,
          CrmDeltaPublisher.read_write_delta, Function.update_self]
      · exact ih hrest hfile _

theorem manifests_after_files (files : List (Path × List Row)) (s : CrmStore) :
    (after CrmStore.write s (files.map CrmDeltaPublisher.fileWrite)).manifests =
      s.manifests := by
  induction files generalizing s with
  | nil => rfl
  | cons file files ih =>
      rw [List.map_cons, after_cons, ih]
      rfl

/-- Lists of files with the same targets differ in the rows of some target. -/
theorem files_eq_of_rows_eq
    (htargets : files.map Prod.fst = files'.map Prod.fst)
    (hrows : ∀ file ∈ files, ∀ file' ∈ files', file.1 = file'.1 → file.2 = file'.2) :
    files = files' := by
  induction files generalizing files' with
  | nil =>
      cases files' with
      | nil => rfl
      | cons file' files' => cases htargets
  | cons file files ih =>
      cases files' with
      | nil => cases htargets
      | cons file' files' =>
          obtain ⟨htarget, hrest⟩ := List.cons.inj htargets
          have hfile : file = file' := Prod.ext htarget
            (hrows file List.mem_cons_self file' List.mem_cons_self htarget)
          have hfiles : files = files' := ih hrest (fun f hf f' hf' =>
            hrows f (List.mem_cons_of_mem _ hf) f' (List.mem_cons_of_mem _ hf'))
          rw [hfile, hfiles]

/-- Writing files over some of the same targets leaves what writing only the
second list leaves exactly when both lists have the same rows. -/
theorem read_rewrite_iff
    {before : List (Path × List Row)} (hnodup : (files.map Prod.fst).Nodup)
    (htargets : files.map Prod.fst = files'.map Prod.fst)
    (hbefore : ∀ path ∈ before.map Prod.fst, path ∈ files.map Prod.fst) (s : CrmStore) :
    (after CrmStore.write (after CrmStore.write s (before.map CrmDeltaPublisher.fileWrite))
        (files.map CrmDeltaPublisher.fileWrite)).disk.read =
      (after CrmStore.write s (files'.map CrmDeltaPublisher.fileWrite)).disk.read ↔
      files = files' := by
  constructor
  · intro hread
    apply files_eq_of_rows_eq htargets
    intro file hfile file' hfile' htarget
    have hnow := read_after_files_of_mem hnodup hfile
      (after CrmStore.write s (before.map CrmDeltaPublisher.fileWrite))
    rw [htargets] at hnodup
    have honce := read_after_files_of_mem hnodup hfile' s
    rw [hread, htarget, honce] at hnow
    exact (Option.some.inj hnow).symm
  · rintro rfl
    funext path
    by_cases hpath : path ∈ files.map Prod.fst
    · obtain ⟨file, hfile, rfl⟩ := List.mem_map.mp hpath
      rw [read_after_files_of_mem hnodup hfile, read_after_files_of_mem hnodup hfile]
    · have hnot : path ∉ before.map Prod.fst := fun h => hpath (hbefore path h)
      rw [read_after_files_of_notMem hpath, read_after_files_of_notMem hnot,
        read_after_files_of_notMem hpath]

end Files

namespace CrmDeltaPublisher

variable (P : CrmDeltaPublisher)

/-! ## The second call -/

/-- The store a call leaves. -/
def published (ties : P.Ties) (runDate : String) (events : List SourceEvent)
    (s : CrmStore) : CrmStore :=
  after CrmStore.write s (P.publish ties runDate events s).1

/-- The store a call leaves that crashes after `k` writes. -/
def crashed (ties : P.Ties) (runDate : String) (events : List SourceEvent)
    (s : CrmStore) (k : Nat) : CrmStore :=
  after CrmStore.write s ((P.publish ties runDate events s).1.take k)

/-- The same partitions and the same manifests. -/
structure SameContents (s s' : CrmStore) : Prop where
  files : s.disk.read = s'.disk.read
  manifests : s.manifests = s'.manifests

/-- The second call succeeds and leaves what an uninterrupted call could have
left. -/
def RestartSafeAt (ties : P.Ties) (runDate : String) (events : List SourceEvent)
    (s : CrmStore) (k : Nat) : Prop :=
  ∀ retry : P.Ties, ∃ (uninterrupted : P.Ties) (parts : CrmParts),
    (P.publish retry runDate events (P.crashed ties runDate events s k)).2 = .ok parts ∧
    (P.publish uninterrupted runDate events s).2 = .ok parts ∧
    SameContents (P.published retry runDate events (P.crashed ties runDate events s k))
      (P.published uninterrupted runDate events s)

/-! ## The condition -/

/-- A row of the greatest version. -/
def Newest (object : CrmObject) (rows : List Row) (r : Row) : Prop :=
  r ∈ rows ∧ ∀ r' ∈ rows,
    Row.version (P.versionField object) r' ≤ Row.version (P.versionField object) r

/-- The rows of a record beside its delta of the date, and those the events ask
to put into it. -/
def rowsBesideDelta (ties : P.Ties) (disk : Disk) (object : CrmObject) (runDate : String)
    (events : List SourceEvent) (id : String) : List Row :=
  rowsOfId disk
      ((P.storedFiles disk object).filter (fun path => path ≠ P.deltaTarget object runDate)) id ++
    (events.map (P.requestedRow ties disk object)).filter (fun r => r "Id" = some (.text id))

/-- The event takes the same cells from both rows. -/
structure TakesSame (object : CrmObject) (event : SourceEvent) (q p : Row) : Prop where
  kept : ∀ column ∈ P.schema object, event.payload.lookup column = none → q column = p column
  stage : object = .opportunities → event.inHistory = true →
    "StageName" ∈ P.schema .opportunities → q "StageName" = p "StageName"
  creator : object = .opportunities → event.inHistory = true →
    event.payload.lookup "LastModifiedById" = none → "OwnerId" ∈ P.schema .opportunities →
      cellText (q "OwnerId") = cellText (p "OwnerId")

/-- The events of an object can be materialized again over their own delta. -/
def Repeatable (ties : P.Ties) (disk : Disk) (object : CrmObject) (runDate : String)
    (events : List SourceEvent) : Prop :=
  ∀ event ∈ events,
    (event.isCreate = true ↔
      P.rowsBesideDelta ties disk object runDate events event.entityId = []) ∧
    (event.isCreate = false → ∀ q,
      P.Newest object (P.rowsBesideDelta ties disk object runDate events event.entityId) q →
        ∃ p, P.Newest object (P.storedRows disk object event.entityId) p ∧
          P.TakesSame object event q p)

/-! ## The files of a call -/

/-- The files a call writes, whatever it reads. -/
def plannedTargets (runDate : String) (tagged : List (CrmObject × SourceEvent)) : List Path :=
  (groupOrder tagged).map (fun object => P.deltaTarget object runDate) ++
    if ((groupOf tagged .opportunities).filter SourceEvent.inHistory).isEmpty then []
    else [P.historyTarget runDate]

theorem isEmpty_historyRows (ties : P.Ties) (disk : Disk) (events : List SourceEvent) :
    (P.historyRows ties disk events).isEmpty =
      (events.filter SourceEvent.inHistory).isEmpty := by
  rw [historyRows, List.isEmpty_map]

theorem targets_plannedFiles
    (ties : P.Ties) (runDate : String) (tagged : List (CrmObject × SourceEvent)) (disk : Disk) :
    (P.plannedFiles ties runDate tagged disk).map Prod.fst = P.plannedTargets runDate tagged := by
  rw [plannedFiles, plannedTargets, List.map_append, List.map_map, isEmpty_historyRows]
  apply congrArg
  split <;> rfl

theorem nodup_plannedTargets (runDate : String) (tagged : List (CrmObject × SourceEvent)) :
    (P.plannedTargets runDate tagged).Nodup := by
  have hdeltas : ((groupOrder tagged).map
      (fun object => P.deltaTarget object runDate)).Nodup := by
    apply List.Nodup.map _ (nodup_groupOrder tagged)
    intro object other htarget
    by_contra hne
    exact P.deltaTarget_ne hne runDate htarget
  rw [plannedTargets]
  split
  · rw [List.append_nil]
    exact hdeltas
  · rw [List.nodup_append]
    refine ⟨hdeltas, List.nodup_singleton _, ?_⟩
    intro path hpath history hhistory
    obtain ⟨object, _, rfl⟩ := List.mem_map.mp hpath
    rw [List.mem_singleton.mp hhistory]
    exact P.deltaTarget_ne_historyTarget object runDate

/-- The first files of a call are the deltas of the first objects, and perhaps
the history. -/
theorem take_plannedFiles
    (ties : P.Ties) (runDate : String) (tagged : List (CrmObject × SourceEvent)) (disk : Disk)
    (k : Nat) :
    ∃ history : List (Path × List Row),
      (P.plannedFiles ties runDate tagged disk).take k =
        ((groupOrder tagged).take k).map (P.deltaFile ties runDate tagged disk) ++ history ∧
      ∀ file ∈ history, file.1 = P.historyTarget runDate := by
  refine ⟨_, by rw [plannedFiles, List.take_append, List.map_take], ?_⟩
  intro file hfile
  have hmem := List.mem_of_mem_take hfile
  split at hmem
  · cases hmem
  · rw [List.mem_singleton.mp hmem]

/-! ## What the second call reads -/

section Crash

variable {P} {ties : P.Ties} {runDate : String} {events : List SourceEvent} {s : CrmStore}
  {tagged : List (CrmObject × SourceEvent)} {k : Nat}

/-- The disk after the first `k` files of a call. -/
def writtenTo (P : CrmDeltaPublisher) (ties : P.Ties) (runDate : String)
    (tagged : List (CrmObject × SourceEvent)) (s : CrmStore) (k : Nat) : Disk :=
  (after CrmStore.write s
    (((P.plannedFiles ties runDate tagged s.disk).take k).map fileWrite)).disk

theorem read_writtenTo_of_notMem
    {path : Path}
    (hdeltas : ∀ object ∈ (groupOrder tagged).take k, path ≠ P.deltaTarget object runDate)
    (hhistory : path ≠ P.historyTarget runDate) :
    (P.writtenTo ties runDate tagged s k).read path = s.disk.read path := by
  apply read_after_files_of_notMem
  obtain ⟨history, htake, htargets⟩ := P.take_plannedFiles ties runDate tagged s.disk k
  rw [htake, List.map_append, List.mem_append, List.map_map]
  rintro (hmem | hmem)
  · obtain ⟨object, hobject, rfl⟩ := List.mem_map.mp hmem
    exact hdeltas object hobject rfl
  · obtain ⟨file, hfile, rfl⟩ := List.mem_map.mp hmem
    exact hhistory (htargets file hfile)

theorem read_writtenTo_deltaTarget
    {object : CrmObject} (hobject : object ∈ (groupOrder tagged).take k) :
    (P.writtenTo ties runDate tagged s k).read (P.deltaTarget object runDate) =
      some ((groupOf tagged object).map (P.requestedRow ties s.disk object)) := by
  have hnodup : (((P.plannedFiles ties runDate tagged s.disk).take k).map Prod.fst).Nodup := by
    rw [List.map_take, targets_plannedFiles]
    exact (P.nodup_plannedTargets runDate tagged).sublist (List.take_sublist _ _)
  obtain ⟨history, htake, _⟩ := P.take_plannedFiles ties runDate tagged s.disk k
  have hmem : P.deltaFile ties runDate tagged s.disk object ∈
      (P.plannedFiles ties runDate tagged s.disk).take k := by
    rw [htake]
    exact List.mem_append_left _ (List.mem_map_of_mem hobject)
  exact read_after_files_of_mem hnodup hmem s

theorem read_writtenTo_baseSource (object : CrmObject) :
    (P.writtenTo ties runDate tagged s k).read (P.baseSource object) =
      s.disk.read (P.baseSource object) := by
  apply read_writtenTo_of_notMem
  · intro other _
    rw [deltaTarget, objectRoot, List.append_assoc]
    exact P.baseSource_ne object _
  · exact P.baseSource_ne object _

/-- Deltas of an object other than the written ones read as before. -/
theorem read_writtenTo_of_isDelta
    {object : CrmObject} {path : Path} (hdelta : P.isDelta object path = true)
    (hpath : object ∈ (groupOrder tagged).take k → path ≠ P.deltaTarget object runDate) :
    (P.writtenTo ties runDate tagged s k).read path = s.disk.read path := by
  apply read_writtenTo_of_notMem
  · rintro other hother rfl
    by_cases hne : other = object
    · subst hne
      exact hpath hother rfl
    · rw [P.isDelta_deltaTarget_of_ne hne] at hdelta
      cases hdelta
  · rintro rfl
    rw [P.isDelta_historyTarget] at hdelta
    cases hdelta

theorem sameFiles_writtenTo
    {object : CrmObject} (hobject : object ∉ (groupOrder tagged).take k) :
    P.SameFiles object (P.writtenTo ties runDate tagged s k) s.disk :=
  ⟨read_writtenTo_baseSource object,
    fun _ hdelta => read_writtenTo_of_isDelta hdelta (fun hmem => absurd hmem hobject)⟩

/-- The second call finds the rows beside the delta and those put into it. -/
theorem mem_storedRows_writtenTo
    {object : CrmObject} (hobject : object ∈ (groupOrder tagged).take k) (id : String) (r : Row) :
    r ∈ P.storedRows (P.writtenTo ties runDate tagged s k) object id ↔
      r ∈ P.rowsBesideDelta ties s.disk object runDate (groupOf tagged object) id := by
  have htarget : (P.writtenTo ties runDate tagged s k).read (P.deltaTarget object runDate) =
      some ((groupOf tagged object).map (P.requestedRow ties s.disk object)) :=
    read_writtenTo_deltaTarget hobject
  have hbase : (P.writtenTo ties runDate tagged s k).read (P.baseSource object) =
      s.disk.read (P.baseSource object) :=
    read_writtenTo_baseSource object
  have hother : ∀ path, P.isDelta object path = true → path ≠ P.deltaTarget object runDate →
      (P.writtenTo ties runDate tagged s k).read path = s.disk.read path :=
    fun path hdelta hne => read_writtenTo_of_isDelta hdelta (fun _ => hne)
  have hne : P.baseSource object ≠ P.deltaTarget object runDate := by
    rw [deltaTarget, objectRoot, List.append_assoc]
    exact P.baseSource_ne object _
  rw [storedRows, rowsBesideDelta, mem_rowsOfId, List.mem_append, mem_rowsOfId,
    List.mem_filter, decide_eq_true_eq, and_comm (b := r "Id" = _), ← and_or_left]
  refine and_congr_right (fun _ => ?_)
  constructor
  · rintro ⟨path, hpath, rows, hread, hr⟩
    rcases (P.mem_storedFiles _ object path).mp hpath with rfl | ⟨hsome, hdelta⟩
    · rw [hbase] at hread
      exact Or.inl ⟨_, List.mem_filter.mpr
        ⟨(P.mem_storedFiles _ object _).mpr (Or.inl rfl), by simpa using hne⟩, rows, hread, hr⟩
    · by_cases heq : path = P.deltaTarget object runDate
      · subst heq
        rw [htarget] at hread
        rw [Option.some.inj hread]
        exact Or.inr hr
      · rw [hother path hdelta heq] at hread hsome
        exact Or.inl ⟨path, List.mem_filter.mpr
          ⟨(P.mem_storedFiles _ object path).mpr (Or.inr ⟨hsome, hdelta⟩), by simpa using heq⟩,
            rows, hread, hr⟩
  · rintro (⟨path, hpath, rows, hread, hr⟩ | hr)
    · obtain ⟨hstored, hbeside⟩ := List.mem_filter.mp hpath
      have heq : path ≠ P.deltaTarget object runDate := by
        simpa using hbeside
      rcases (P.mem_storedFiles _ object path).mp hstored with rfl | ⟨hsome, hdelta⟩
      · exact ⟨_, (P.mem_storedFiles _ object _).mpr (Or.inl rfl), rows, hbase.trans hread, hr⟩
      · have hsame := hother path hdelta heq
        exact ⟨path, (P.mem_storedFiles _ object path).mpr
          (Or.inr ⟨hsame.symm ▸ hsome, hdelta⟩), rows, hsame.trans hread, hr⟩
    · exact ⟨_, (P.mem_storedFiles _ object _).mpr (Or.inr
        ⟨by rw [htarget, Option.isSome_some], P.isDelta_deltaTarget object runDate⟩), _, htarget,
          hr⟩

end Crash

/-! ## The same rows -/

theorem updatedRow_eq_iff
    (object : CrmObject) (q p : Row) (payload : Payload) :
    P.updatedRow object (some q) payload = P.updatedRow object (some p) payload ↔
      ∀ column ∈ P.schema object, payload.lookup column = none → q column = p column := by
  constructor
  · intro h column hcolumn hnone
    have hcell := congrFun h column
    simpa only [updatedRow, if_pos hcolumn, hnone, Option.bind_some] using hcell
  · intro h
    funext column
    rw [updatedRow, updatedRow]
    split
    · rename_i hcolumn
      cases hlookup : payload.lookup column with
      | none => exact h column hcolumn hlookup
      | some value => rfl
    · rfl

theorem previousCell_some (r : Row) (column : String) :
    P.previousCell (some r) column =
      if column ∈ P.schema .opportunities then some (r column) else none :=
  rfl

theorem historyRow_eq_iff (q p : Row) (event : SourceEvent) :
    P.historyRow (some q) event = P.historyRow (some p) event ↔
      ("StageName" ∈ P.schema .opportunities → q "StageName" = p "StageName") ∧
        (event.payload.lookup "LastModifiedById" = none →
          "OwnerId" ∈ P.schema .opportunities →
            cellText (q "OwnerId") = cellText (p "OwnerId")) := by
  constructor
  · intro h
    constructor
    · intro hstage
      have hcell := congrFun h "PreviousStageName"
      simpa [historyRow, List.lookup_cons, previousCell_some, hstage] using hcell
    · intro hnone howner
      have hcell := congrFun h "CreatedById"
      simpa [historyRow, List.lookup_cons, previousCell_some, hnone, howner] using hcell
  · rintro ⟨hstage, howner⟩
    have hprevious : P.previousCell (some q) "StageName" =
        P.previousCell (some p) "StageName" := by
      rw [previousCell_some, previousCell_some]
      split
      · rename_i hmem
        rw [hstage hmem]
      · rfl
    have hcreated : cellText ((event.payload.lookup "LastModifiedById").getD
          ((P.previousCell (some q) "OwnerId").getD (some (.text "")))) =
        cellText ((event.payload.lookup "LastModifiedById").getD
          ((P.previousCell (some p) "OwnerId").getD (some (.text "")))) := by
      cases hlookup : event.payload.lookup "LastModifiedById" with
      | some value => rfl
      | none =>
          rw [previousCell_some, previousCell_some]
          split
          · rename_i hmem
            exact howner hlookup hmem
          · rfl
    simp only [historyRow, hprevious, hcreated]

/-- An event asks for the same rows whichever of two rows its record has. -/
def SameRows (object : CrmObject) (event : SourceEvent) (q p : Option Row) : Prop :=
  P.updatedRow object q event.payload = P.updatedRow object p event.payload ∧
    (object = .opportunities → event.inHistory = true →
      P.historyRow q event = P.historyRow p event)

theorem sameRows_some_iff (object : CrmObject) (event : SourceEvent) (q p : Row) :
    P.SameRows object event (some q) (some p) ↔ P.TakesSame object event q p := by
  rw [SameRows, updatedRow_eq_iff, historyRow_eq_iff]
  constructor
  · rintro ⟨hkept, hhistory⟩
    exact ⟨hkept, fun hobject hin => (hhistory hobject hin).1,
      fun hobject hin => (hhistory hobject hin).2⟩
  · rintro ⟨hkept, hstage, hcreator⟩
    exact ⟨hkept, fun hobject hin => ⟨hstage hobject hin, hcreator hobject hin⟩⟩

/-- Two calls write the same files exactly when every event asks for the same
rows in both. -/
theorem plannedFiles_eq_iff
    (ties ties' : P.Ties) (runDate : String) (tagged : List (CrmObject × SourceEvent))
    (disk disk' : Disk) :
    P.plannedFiles ties runDate tagged disk = P.plannedFiles ties' runDate tagged disk' ↔
      ∀ object ∈ groupOrder tagged, ∀ event ∈ groupOf tagged object,
        P.SameRows object event (P.currentRow ties disk object event.entityId)
          (P.currentRow ties' disk' object event.entityId) := by
  have hdeltas : (groupOrder tagged).map (P.deltaFile ties runDate tagged disk) =
      (groupOrder tagged).map (P.deltaFile ties' runDate tagged disk') ↔
        ∀ object ∈ groupOrder tagged, ∀ event ∈ groupOf tagged object,
          P.requestedRow ties disk object event = P.requestedRow ties' disk' object event := by
    simp only [List.map_inj_left, deltaFile, Prod.mk.injEq, true_and]
  have hhistory : P.historyRows ties disk (groupOf tagged .opportunities) =
      P.historyRows ties' disk' (groupOf tagged .opportunities) ↔
        ∀ event ∈ groupOf tagged .opportunities, event.inHistory = true →
          P.historyRow (P.currentRow ties disk .opportunities event.entityId) event =
            P.historyRow (P.currentRow ties' disk' .opportunities event.entityId) event := by
    simp only [historyRows, List.map_inj_left, List.mem_filter, and_imp]
  have hfiles : P.plannedFiles ties runDate tagged disk =
      P.plannedFiles ties' runDate tagged disk' ↔
        (groupOrder tagged).map (P.deltaFile ties runDate tagged disk) =
          (groupOrder tagged).map (P.deltaFile ties' runDate tagged disk') ∧
        P.historyRows ties disk (groupOf tagged .opportunities) =
          P.historyRows ties' disk' (groupOf tagged .opportunities) := by
    have hempty := (P.isEmpty_historyRows ties disk (groupOf tagged .opportunities)).trans
      (P.isEmpty_historyRows ties' disk' (groupOf tagged .opportunities)).symm
    rw [plannedFiles, plannedFiles]
    constructor
    · intro h
      obtain ⟨hfirst, hsecond⟩ := List.append_inj h (by rw [List.length_map, List.length_map])
      refine ⟨hfirst, ?_⟩
      rw [hempty] at hsecond
      split at hsecond
      · rename_i hnil
        rw [List.isEmpty_iff.mp hnil, List.isEmpty_iff.mp (hempty.trans hnil)]
      · exact (Prod.mk.inj (List.cons.inj hsecond).1).2
    · rintro ⟨hfirst, hsecond⟩
      rw [hfirst, hsecond]
  rw [hfiles, hdeltas, hhistory]
  constructor
  · rintro ⟨hrequested, hrows⟩ object hobject event hevent
    refine ⟨hrequested object hobject event hevent, ?_⟩
    rintro rfl hin
    exact hrows event hevent hin
  · intro h
    refine ⟨fun object hobject event hevent => (h object hobject event hevent).1, ?_⟩
    intro event hevent hin
    have hobject := (groupOf_ne_nil_iff tagged .opportunities).mp (List.ne_nil_of_mem hevent)
    exact (h .opportunities hobject event hevent).2 rfl hin

/-! ## Safe exactly when the rows are the same -/

section Safe

variable {P} {ties : P.Ties} {runDate : String} {events : List SourceEvent} {s : CrmStore}
  {tagged : List (CrmObject × SourceEvent)} {k : Nat}

/-- A successful call, on a date without a manifest. -/
theorem published_of_accepted
    (ties : P.Ties) (htagged : events.mapM tagEvent = .ok tagged) (hnone : s.manifests runDate = none)
    (haccepted : P.AllAccepted s.disk tagged) :
    P.publish ties runDate events s =
        ((P.plannedFiles ties runDate tagged s.disk).map fileWrite ++
          [P.manifestWrite runDate tagged], .ok (P.plannedParts runDate tagged)) ∧
      P.published ties runDate events s =
        (after CrmStore.write s
          ((P.plannedFiles ties runDate tagged s.disk).map fileWrite)).write
            (P.manifestWrite runDate tagged) := by
  have hpublish := (P.publish_eq_ok_iff ties runDate htagged hnone _ _).mpr
    ⟨haccepted, rfl, rfl⟩
  refine ⟨hpublish, ?_⟩
  rw [published, hpublish, after_append, after_cons, after_nil]

/-- Before the manifest is written a crash leaves some of the planned files. -/
theorem crashed_of_accepted
    (htagged : events.mapM tagEvent = .ok tagged) (hnone : s.manifests runDate = none)
    (haccepted : P.AllAccepted s.disk tagged)
    (hk : k < (P.publish ties runDate events s).1.length) :
    P.crashed ties runDate events s k =
      after CrmStore.write s
        (((P.plannedFiles ties runDate tagged s.disk).take k).map fileWrite) := by
  obtain ⟨hpublish, _⟩ := published_of_accepted ties htagged hnone haccepted
  rw [hpublish, List.length_append, List.length_singleton] at hk
  rw [crashed, hpublish, List.take_append_of_le_length (by omega), List.map_take]

theorem restartSafeAt_iff_sameFiles
    (htagged : events.mapM tagEvent = .ok tagged) (hnone : s.manifests runDate = none)
    (haccepted : P.AllAccepted s.disk tagged)
    (hk : k < (P.publish ties runDate events s).1.length) :
    P.RestartSafeAt ties runDate events s k ↔
      ∀ retry : P.Ties, ∃ uninterrupted : P.Ties,
        P.AllAccepted (P.writtenTo ties runDate tagged s k) tagged ∧
        P.plannedFiles retry runDate tagged (P.writtenTo ties runDate tagged s k) =
          P.plannedFiles uninterrupted runDate tagged s.disk := by
  have hcrashed := crashed_of_accepted htagged hnone haccepted hk
  have hnone' : (P.crashed ties runDate events s k).manifests runDate = none := by
    rw [hcrashed, manifests_after_files, hnone]
  have hdisk : (P.crashed ties runDate events s k).disk =
      P.writtenTo ties runDate tagged s k := by
    rw [hcrashed, writtenTo]
  have hrewrite : ∀ retry uninterrupted : P.Ties,
      (after CrmStore.write
        (after CrmStore.write s
          (((P.plannedFiles ties runDate tagged s.disk).take k).map fileWrite))
        ((P.plannedFiles retry runDate tagged
          (P.writtenTo ties runDate tagged s k)).map fileWrite)).disk.read =
        (after CrmStore.write s
          ((P.plannedFiles uninterrupted runDate tagged s.disk).map fileWrite)).disk.read ↔
        P.plannedFiles retry runDate tagged (P.writtenTo ties runDate tagged s k) =
          P.plannedFiles uninterrupted runDate tagged s.disk := by
    intro retry uninterrupted
    apply read_rewrite_iff
    · rw [targets_plannedFiles]
      exact P.nodup_plannedTargets runDate tagged
    · rw [targets_plannedFiles, targets_plannedFiles]
    · intro path hpath
      rw [List.map_take, targets_plannedFiles] at hpath
      rw [targets_plannedFiles]
      exact List.mem_of_mem_take hpath
  apply forall_congr'
  intro retry
  apply exists_congr
  intro uninterrupted
  obtain ⟨honce, hleftOnce⟩ := published_of_accepted uninterrupted htagged hnone
    haccepted
  constructor
  · rintro ⟨parts, hretry, _, hsame⟩
    obtain ⟨hagain, _, _⟩ := (P.publish_eq_ok_iff retry runDate htagged hnone' _ _).mp
      (Prod.ext rfl hretry)
    obtain ⟨_, hleftAgain⟩ := published_of_accepted retry htagged hnone' hagain
    have hfiles := hsame.files
    rw [hleftAgain, hleftOnce, hdisk, hcrashed] at hfiles
    rw [hdisk] at hagain
    exact ⟨hagain, (hrewrite retry uninterrupted).mp hfiles⟩
  · rintro ⟨hagain, hfiles⟩
    rw [← hdisk] at hagain
    obtain ⟨htwice, hleftAgain⟩ := published_of_accepted retry htagged hnone' hagain
    refine ⟨_, by rw [htwice], by rw [honce], ?_, ?_⟩
    · rw [hleftAgain, hleftOnce, hdisk, hcrashed]
      exact (hrewrite retry uninterrupted).mpr hfiles
    · rw [hleftAgain, hleftOnce, hcrashed]
      simp only [CrmStore.write, manifestWrite, manifests_after_files]

/-- A call on a date with a manifest of the same events writes nothing. -/
theorem publish_of_manifest
    (ties : P.Ties) (htagged : events.mapM tagEvent = .ok tagged) {manifest : CrmManifest}
    (hmanifest : s.manifests runDate = some manifest)
    (hevents : manifest.events = eventSet tagged) :
    P.publish ties runDate events s = ([], .ok manifest.parts) := by
  rw [publish, htagged]
  simp only [hmanifest]
  exact if_neg (not_not_intro hevents)

theorem restartSafeAt_of_manifest
    (htagged : events.mapM tagEvent = .ok tagged) {manifest : CrmManifest}
    (hmanifest : s.manifests runDate = some manifest)
    (hevents : manifest.events = eventSet tagged) :
    P.RestartSafeAt ties runDate events s k := by
  have hpublish := fun ties' : P.Ties =>
    publish_of_manifest ties' htagged hmanifest hevents
  have hcrashed : P.crashed ties runDate events s k = s := by
    rw [crashed, hpublish, List.take_nil, after_nil]
  intro retry
  refine ⟨retry, manifest.parts, ?_⟩
  rw [hcrashed, hpublish]
  exact ⟨rfl, rfl, rfl, rfl⟩

/-- After the last write the manifest stands, and the second call returns. -/
theorem restartSafeAt_of_length_le
    (htagged : events.mapM tagEvent = .ok tagged) (hnone : s.manifests runDate = none)
    (haccepted : P.AllAccepted s.disk tagged)
    (hk : (P.publish ties runDate events s).1.length ≤ k) :
    P.RestartSafeAt ties runDate events s k := by
  obtain ⟨hpublish, hleft⟩ := published_of_accepted ties htagged hnone haccepted
  have hcrashed : P.crashed ties runDate events s k = P.published ties runDate events s := by
    rw [crashed, published, List.take_of_length_le hk]
  have hmanifest : (P.published ties runDate events s).manifests runDate =
      some ⟨eventSet tagged, P.plannedParts runDate tagged⟩ := by
    rw [hleft]
    exact Function.update_self _ _ _
  intro retry
  have hretry := publish_of_manifest retry htagged hmanifest rfl
  refine ⟨ties, P.plannedParts runDate tagged, ?_, by rw [hpublish], ?_⟩
  · rw [hcrashed, hretry]
  · rw [hcrashed, published, hretry, after_nil]
    exact ⟨rfl, rfl⟩

/-! ## The condition on the rows -/

theorem accepted_writtenTo_iff
    {object : CrmObject} (hobject : object ∈ (groupOrder tagged).take k)
    (haccepted : P.Accepted s.disk object (groupOf tagged object)) :
    P.Accepted (P.writtenTo ties runDate tagged s k) object (groupOf tagged object) ↔
      ∀ event ∈ groupOf tagged object,
        (event.isCreate = true ↔ P.rowsBesideDelta ties s.disk object runDate
          (groupOf tagged object) event.entityId = []) := by
  have hnil : ∀ id, P.storedRows (P.writtenTo ties runDate tagged s k) object id = [] ↔
      P.rowsBesideDelta ties s.disk object runDate (groupOf tagged object) id = [] := by
    intro id
    rw [List.eq_nil_iff_forall_not_mem, List.eq_nil_iff_forall_not_mem]
    exact forall_congr' (fun r => not_congr (mem_storedRows_writtenTo hobject id r))
  constructor
  · intro h event hevent
    rw [h.known event hevent, hnil]
  · intro h
    refine ⟨?_, haccepted.distinct, ?_⟩
    · rw [read_writtenTo_baseSource]
      exact haccepted.base
    · intro event hevent
      rw [h event hevent, hnil]

/-- What the database keeps of a nonempty list is a newest row. -/
theorem newest_of_currentRow
    {object : CrmObject} {disk : Disk} {id : String} {r : Row}
    (h : P.currentRow ties disk object id = some r) :
    P.Newest object (P.storedRows disk object id) r :=
  ⟨(ties object id).pick_mem h, (ties object id).le_pick h⟩

/-- A newest row is what some database keeps. -/
theorem exists_ties_currentRow
    {object : CrmObject} {disk : Disk} {id : String} {r : Row}
    (h : P.Newest object (P.storedRows disk object id) r) :
    ∃ ties : P.Ties, P.currentRow ties disk object id = some r := by
  obtain ⟨T, hT⟩ := TieBreak.exists_choosing (Row.version (P.versionField object)) h.1 h.2
  have heach : ∀ (other : CrmObject) (otherId : String),
      ∃ T' : TieBreak (Row.version (P.versionField other)), other = object → otherId = id →
        T'.pick (P.storedRows disk object id) = some r := by
    intro other otherId
    by_cases heq : other = object
    · subst heq
      exact ⟨T, fun _ _ => hT⟩
    · exact ⟨TieBreak.firstInScan _, fun h _ => absurd h heq⟩
  choose ties hties using heach
  exact ⟨ties, hties object id rfl rfl⟩

theorem newest_writtenTo_iff
    {object : CrmObject} (hobject : object ∈ (groupOrder tagged).take k) (id : String) (r : Row) :
    P.Newest object (P.storedRows (P.writtenTo ties runDate tagged s k) object id) r ↔
      P.Newest object (P.rowsBesideDelta ties s.disk object runDate
        (groupOf tagged object) id) r := by
  simp only [Newest, mem_storedRows_writtenTo hobject]

/-- A second call that finds repeatable events asks for rows of the first. -/
theorem exists_sameRows_of_repeatable
    (haccepted : P.AllAccepted s.disk tagged)
    (hrepeatable : ∀ object ∈ (groupOrder tagged).take k,
      P.Repeatable ties s.disk object runDate (groupOf tagged object))
    (retry : P.Ties) :
    ∃ uninterrupted : P.Ties, ∀ object ∈ groupOrder tagged, ∀ event ∈ groupOf tagged object,
      P.SameRows object event
        (P.currentRow retry (P.writtenTo ties runDate tagged s k) object event.entityId)
        (P.currentRow uninterrupted s.disk object event.entityId) := by
  -- One choice for every event; a record has no second event to satisfy.
  have hevent : ∀ object ∈ groupOrder tagged, ∀ event ∈ groupOf tagged object,
      ∃ T : TieBreak (Row.version (P.versionField object)), P.SameRows object event
        (P.currentRow retry (P.writtenTo ties runDate tagged s k) object event.entityId)
        (T.pick (P.storedRows s.disk object event.entityId)) := by
    intro object hobject event hevent
    by_cases hwritten : object ∈ (groupOrder tagged).take k
    · obtain ⟨hfresh, hchanged⟩ := hrepeatable object hwritten event hevent
      have hknown := (haccepted object hobject).known event hevent
      have hagain := (accepted_writtenTo_iff hwritten (haccepted object hobject)).mpr
        (fun event hevent => (hrepeatable object hwritten event hevent).1)
      cases hcreate : event.isCreate with
      | true =>
          refine ⟨retry object event.entityId, ?_⟩
          have hnone := (P.currentRow_eq_none_iff retry s.disk object event.entityId).mpr
            (hknown.mp hcreate)
          have hnone' := (P.currentRow_eq_none_iff retry _ object event.entityId).mpr
            ((hagain.known event hevent).mp hcreate)
          rw [currentRow] at hnone
          rw [hnone, hnone']
          exact ⟨rfl, fun _ _ => rfl⟩
      | false =>
          have hsome : P.currentRow retry (P.writtenTo ties runDate tagged s k) object
              event.entityId ≠ none := by
            rw [Ne, currentRow_eq_none_iff, ← hagain.known event hevent, hcreate]
            exact Bool.false_ne_true
          obtain ⟨q, hq⟩ := Option.ne_none_iff_exists'.mp hsome
          have hnewest := (newest_writtenTo_iff hwritten _ q).mp (newest_of_currentRow hq)
          obtain ⟨p, hp, hsame⟩ := hchanged hcreate q hnewest
          obtain ⟨chosen, hchosen⟩ := exists_ties_currentRow hp
          refine ⟨chosen object event.entityId, ?_⟩
          rw [currentRow] at hchosen
          rw [hq, hchosen, sameRows_some_iff]
          exact hsame
    · refine ⟨retry object event.entityId, ?_⟩
      rw [P.currentRow_congr (sameFiles_writtenTo hwritten)]
      exact ⟨rfl, fun _ _ => rfl⟩
  have hrecord : ∀ (object : CrmObject) (id : String),
      ∃ T : TieBreak (Row.version (P.versionField object)),
        ∀ event ∈ groupOf tagged object, event.entityId = id → P.SameRows object event
          (P.currentRow retry (P.writtenTo ties runDate tagged s k) object id)
          (T.pick (P.storedRows s.disk object id)) := by
    intro object id
    by_cases hexists : ∃ event ∈ groupOf tagged object, event.entityId = id
    · obtain ⟨event, hmem, rfl⟩ := hexists
      have hobject := (groupOf_ne_nil_iff tagged object).mp (List.ne_nil_of_mem hmem)
      obtain ⟨T, hT⟩ := hevent object hobject event hmem
      refine ⟨T, fun other hother hid => ?_⟩
      have hsame : other = event :=
        List.inj_on_of_nodup_map (haccepted object hobject).distinct hother hmem hid
      rw [hsame]
      exact hT
    · exact ⟨TieBreak.firstInScan _, fun event hmem hid => absurd ⟨event, hmem, hid⟩ hexists⟩
  choose uninterrupted huninterrupted using hrecord
  exact ⟨uninterrupted, fun object _ event hmem =>
    huninterrupted object event.entityId event hmem rfl⟩

/-- A second call that always leaves the same files finds repeatable events. -/
theorem repeatable_of_restartSafeAt
    (htagged : events.mapM tagEvent = .ok tagged) (hnone : s.manifests runDate = none)
    (haccepted : P.AllAccepted s.disk tagged)
    (hk : k < (P.publish ties runDate events s).1.length)
    (hsafe : P.RestartSafeAt ties runDate events s k)
    {object : CrmObject} (hwritten : object ∈ (groupOrder tagged).take k) :
    P.Repeatable ties s.disk object runDate (groupOf tagged object) := by
  intro event hevent
  have hobject := List.mem_of_mem_take hwritten
  rw [restartSafeAt_iff_sameFiles htagged hnone haccepted hk] at hsafe
  simp only [plannedFiles_eq_iff] at hsafe
  constructor
  · obtain ⟨_, hagain, _⟩ := hsafe ties
    exact (accepted_writtenTo_iff hwritten (haccepted object hobject)).mp
      (hagain object hobject) event hevent
  · intro hcreate q hq
    obtain ⟨retry, hretry⟩ := exists_ties_currentRow ((newest_writtenTo_iff hwritten _ q).mpr hq)
    obtain ⟨uninterrupted, _, hrows⟩ := hsafe retry
    have hsome : P.currentRow uninterrupted s.disk object event.entityId ≠ none := by
      rw [Ne, currentRow_eq_none_iff, ← (haccepted object hobject).known event hevent, hcreate]
      exact Bool.false_ne_true
    obtain ⟨p, hp⟩ := Option.ne_none_iff_exists'.mp hsome
    have hsame := hrows object hobject event hevent
    rw [hretry, hp, sameRows_some_iff] at hsame
    exact ⟨p, newest_of_currentRow hp, hsame⟩

end Safe

/-- Repeatable events, with the rows bounded by their lists. -/
theorem repeatable_iff_forall_mem
    (ties : P.Ties) (disk : Disk) (object : CrmObject) (runDate : String)
    (events : List SourceEvent) :
    P.Repeatable ties disk object runDate events ↔
      ∀ event ∈ events,
        let rows := P.rowsBesideDelta ties disk object runDate events event.entityId
        let stored := P.storedRows disk object event.entityId
        let version := Row.version (P.versionField object)
        (event.isCreate = true ↔ rows = []) ∧
          (event.isCreate = false → ∀ q ∈ rows, (∀ r ∈ rows, version r ≤ version q) →
            ∃ p ∈ stored, (∀ r ∈ stored, version r ≤ version p) ∧
              P.TakesSame object event q p) := by
  simp only [Repeatable, Newest, and_imp, and_assoc]

instance (object : CrmObject) (event : SourceEvent) (q p : Row) :
    Decidable (P.TakesSame object event q p) :=
  decidable_of_iff
    ((∀ column ∈ P.schema object, event.payload.lookup column = none → q column = p column) ∧
      (object = .opportunities → event.inHistory = true →
        "StageName" ∈ P.schema .opportunities → q "StageName" = p "StageName") ∧
      (object = .opportunities → event.inHistory = true →
        event.payload.lookup "LastModifiedById" = none → "OwnerId" ∈ P.schema .opportunities →
          cellText (q "OwnerId") = cellText (p "OwnerId")))
    ⟨fun h => ⟨h.1, h.2.1, h.2.2⟩, fun h => ⟨h.kept, h.stage, h.creator⟩⟩

instance (ties : P.Ties) (disk : Disk) (object : CrmObject) (runDate : String)
    (events : List SourceEvent) : Decidable (P.Repeatable ties disk object runDate events) :=
  decidable_of_iff _ (P.repeatable_iff_forall_mem ties disk object runDate events).symm

/-- A call that succeeds uninterrupted is safe to repeat after a crash exactly when
all its writes were done, or every event of every object already written is
repeatable: a creation leaves no row of its record behind, and a change takes
from each newest row the cells it takes from some newest row stored before. -/
theorem restartSafe_iff
    (ties : P.Ties) (runDate : String) {events : List SourceEvent} {s : CrmStore} (k : Nat)
    {tagged : List (CrmObject × SourceEvent)} {parts : CrmParts}
    (htagged : events.mapM tagEvent = .ok tagged)
    (hok : (P.publish ties runDate events s).2 = .ok parts) :
    P.RestartSafeAt ties runDate events s k ↔
      (P.publish ties runDate events s).1.length ≤ k ∨
        ∀ object ∈ (groupOrder tagged).take k,
          P.Repeatable ties s.disk object runDate (groupOf tagged object) := by
  cases hmanifest : s.manifests runDate with
  | some manifest =>
      have hevents : manifest.events = eventSet tagged := by
        by_contra hne
        rw [publish, htagged] at hok
        simp only [hmanifest, if_pos hne] at hok
        cases hok
      have hpublish := publish_of_manifest ties htagged hmanifest hevents
      constructor
      · intro _
        left
        rw [hpublish]
        exact Nat.zero_le k
      · intro _
        exact restartSafeAt_of_manifest htagged hmanifest hevents
  | none =>
      obtain ⟨haccepted, _, _⟩ := (P.publish_eq_ok_iff ties runDate htagged hmanifest _ _).mp
        (Prod.ext rfl hok)
      rcases le_or_gt (P.publish ties runDate events s).1.length k with hk | hk
      · exact ⟨fun _ => Or.inl hk,
          fun _ => restartSafeAt_of_length_le htagged hmanifest haccepted hk⟩
      · constructor
        · intro hsafe
          right
          intro object hwritten
          exact repeatable_of_restartSafeAt htagged hmanifest haccepted hk hsafe hwritten
        · rintro (hdone | hrepeatable)
          · exact absurd hk (not_lt_of_ge hdone)
          · rw [restartSafeAt_iff_sameFiles htagged hmanifest haccepted hk]
            intro retry
            obtain ⟨uninterrupted, hrows⟩ :=
              exists_sameRows_of_repeatable haccepted hrepeatable retry
            refine ⟨uninterrupted, ?_, (P.plannedFiles_eq_iff _ _ _ _ _ _).mpr hrows⟩
            intro object hobject
            by_cases hwritten : object ∈ (groupOrder tagged).take k
            · exact (accepted_writtenTo_iff hwritten (haccepted object hobject)).mpr
                (fun event hevent => (hrepeatable object hwritten event hevent).1)
            · exact (P.accepted_congr (sameFiles_writtenTo hwritten) _).mpr
                (haccepted object hobject)

end CrmDeltaPublisher

/-! ## Days over the seeded store -/

def accountCreated : SourceEvent where
  eventId := "crm-1"
  sourceSystem := "crm"
  eventType := "account_created"
  entityId := "0012"
  payload :=
    [("Id", some (.text "0012")), ("Name", some (.text "New")),
      ("LastModifiedDate", some (.text "2026-07-25T08:00:00.000+0000"))]

/-- A change of the seeded opportunity. -/
def opportunityChange (eventType stage : String) : SourceEvent where
  eventId := "crm-2"
  sourceSystem := "crm"
  eventType := eventType
  entityId := "0061"
  payload :=
    [("StageName", some (.text stage)),
      ("LastModifiedDate", some (.text "2026-07-25T08:00:00.000+0000"))]

def stageChanged : SourceEvent :=
  opportunityChange "opportunity_stage_changed" "Negotiation"

def stalled : SourceEvent :=
  opportunityChange "opportunity_stalled" "Proposal"

/-- A crash between the delta and the manifest of a day without history. -/
theorem restart_safe_after_stalled :
    deployedPublisher.RestartSafeAt scanTies "2026-07-25" [stalled] seededStore 1 := by
  have htagged : [stalled].mapM tagEvent = .ok [(.opportunities, stalled)] := rfl
  have hok : (deployedPublisher.publish scanTies "2026-07-25" [stalled] seededStore).2 =
      .ok ⟨none, some (deployedPublisher.deltaTarget .opportunities "2026-07-25"), none⟩ := by
    decide +kernel
  apply (deployedPublisher.restartSafe_iff scanTies "2026-07-25" 1 htagged hok).mpr
  right
  decide +kernel

/-- A day that succeeds uninterrupted, crashed after its first delta: when it created
an account the second call fails, and when it changed a stage the second call
writes another stage history. -/
theorem restart_unsafe_after_delta :
    ((deployedPublisher.publish scanTies "2026-07-25" [accountCreated, stageChanged]
        seededStore).2.isOk = true ∧
      (deployedPublisher.publish scanTies "2026-07-25" [accountCreated, stageChanged]
        (deployedPublisher.crashed scanTies "2026-07-25" [accountCreated, stageChanged]
          seededStore 1)).2 = .error (.alreadyExists "0012") ∧
      ¬ deployedPublisher.RestartSafeAt scanTies "2026-07-25" [accountCreated, stageChanged]
        seededStore 1) ∧
    (deployedPublisher.publish scanTies "2026-07-25" [stageChanged] seededStore).2.isOk = true ∧
      ¬ deployedPublisher.RestartSafeAt scanTies "2026-07-25" [stageChanged] seededStore 1 := by
  have hcreated : (deployedPublisher.publish scanTies "2026-07-25" [accountCreated, stageChanged]
      (deployedPublisher.crashed scanTies "2026-07-25" [accountCreated, stageChanged]
        seededStore 1)).2 = .error (.alreadyExists "0012") := by
    decide +kernel
  refine ⟨⟨by decide +kernel, hcreated, ?_⟩, by decide +kernel, ?_⟩
  · intro hsafe
    obtain ⟨_, parts, hretry, _⟩ := hsafe scanTies
    rw [hcreated] at hretry
    cases hretry
  · intro hsafe
    have hok : (deployedPublisher.publish scanTies "2026-07-25" [stageChanged] seededStore).2 =
        .ok ⟨none, some (deployedPublisher.deltaTarget .opportunities "2026-07-25"),
          some (deployedPublisher.historyTarget "2026-07-25")⟩ := by
      decide +kernel
    have htagged : [stageChanged].mapM tagEvent = .ok [(.opportunities, stageChanged)] := rfl
    obtain ⟨haccepted, _, _⟩ := (deployedPublisher.publish_eq_ok_iff scanTies "2026-07-25"
      htagged rfl _ _).mp (Prod.ext rfl hok)
    have hrepeatable : deployedPublisher.Repeatable scanTies seededStore.disk .opportunities
        "2026-07-25" (groupOf [(.opportunities, stageChanged)] .opportunities) :=
      CrmDeltaPublisher.repeatable_of_restartSafeAt htagged rfl haccepted (by decide +kernel)
        hsafe (by decide)
    revert hrepeatable
    decide +kernel

end Simulator
end Northwind
