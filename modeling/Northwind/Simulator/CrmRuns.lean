import Northwind.FakeForce.CompactionRuns
import Northwind.Simulator.CrmCurrentRow

/-!
# Days of publications with compactions between them

A run publishes days, each of which may crash after some of its writes, and
compacts the deltas in between, plan, merge and unlink as steps of their own.

The rows of a record stay aligned when every delta is: each of its rows is newer
than the base row, and newer or older than every other stored row, by
`LastModifiedDate` and by the publisher's version column alike.  Then the planner
and the publisher agree in every state (`resolutions_agree_of_run`).
-/

namespace Northwind
namespace Simulator

open CrashPrefixes NewestPerKey FakeForce

/-- A publisher and the data roots of the compactor. -/
structure CrmDeployment where
  publisher : CrmDeltaPublisher
  dataRoots : List Path
  /-- The deltas are published into a data root. -/
  rootMem : publisher.root ∈ dataRoots
  /-- No data root is inside another one. -/
  unnested : ∀ root ∈ dataRoots, ∀ root' ∈ dataRoots, root <+: root' → root = root'
  /-- The base files are not in the directory of an object. -/
  baseApart : ∀ root ∈ dataRoots, ∀ object other : CrmObject,
    ¬ (root ++ [object.name]) <+: publisher.baseSource other
  /-- The statements of the reader name the column. -/
  stageColumn : "StageName" ∈ publisher.schema .opportunities

/-- The aliases `catalog.json` gives the CRM objects. -/
def catalogAliases : List (String × String) :=
  [("CreatedById", "OwnerId"), ("LastModifiedById", "OwnerId"),
    ("SystemModstamp", "LastModifiedDate")]

def CrmObject.datasetName : CrmObject → String
  | .accounts => "Account"
  | .opportunities => "Opportunity"

namespace CrmDeployment

variable (D : CrmDeployment)

/-- The entry of `catalog.json`, parsed over the base file: a stored column is
never an alias. -/
def objectSpec (object : CrmObject) : DatasetSpec where
  objectName := object.datasetName
  sources := [D.publisher.baseSource object]
  idField := "Id"
  softDeleteField := some "IsDeleted"
  dataRoots := D.dataRoots
  deltaPatterns := [[object.name, "**", "*.parquet"]]
  versionField := some "SystemModstamp"
  compatibilityAliases :=
    catalogAliases.filter (fun pair => pair.1 ∉ D.publisher.schema object)
  idStored := by
    rw [List.lookup_eq_none_iff]
    intro pair hpair
    have hname : ∀ pair ∈ catalogAliases, ("Id" == pair.1) = false := by
      decide
    simpa using hname pair (List.mem_of_mem_filter hpair)

/-! ## The files of an object -/

/-- In the directory of an object below some data root. -/
def Below (object : CrmObject) (path : Path) : Prop :=
  ∃ root ∈ D.dataRoots, (root ++ [object.name]) <+: path

variable {D}

/-- Below two data roots a path goes through the same directory. -/
theorem name_eq_of_below
    {root root' : Path} (hroot : root ∈ D.dataRoots) (hroot' : root' ∈ D.dataRoots)
    {name name' : String} {path : Path}
    (h : (root ++ [name]) <+: path) (h' : (root' ++ [name']) <+: path) :
    name = name' := by
  have hpath := (List.prefix_append root [name]).trans h
  have hpath' := (List.prefix_append root' [name']).trans h'
  have heq : root = root' := by
    rcases List.prefix_or_prefix_of_prefix hpath hpath' with hle | hle
    · exact D.unnested root hroot root' hroot' hle
    · exact (D.unnested root' hroot' root hroot hle).symm
  subst heq
  have hsame := (List.prefix_of_prefix_length_le h h' (by simp)).eq_of_length (by simp)
  exact (List.cons.inj (List.append_cancel_left hsame)).1

theorem Below.object_eq
    {object other : CrmObject} {path : Path}
    (h : D.Below object path) (h' : D.Below other path) :
    object = other := by
  obtain ⟨root, hroot, hstart⟩ := h
  obtain ⟨root', hroot', hstart'⟩ := h'
  exact CrmDeltaPublisher.CrmObject.name_injective (name_eq_of_below hroot hroot' hstart hstart')

theorem Below.ne_baseSource
    {object : CrmObject} {path : Path} (h : D.Below object path) (other : CrmObject) :
    path ≠ D.publisher.baseSource other := by
  obtain ⟨root, hroot, hstart⟩ := h
  rintro rfl
  exact D.baseApart root hroot object other hstart

theorem below_of_isDelta
    {object : CrmObject} {path : Path} (h : D.publisher.isDelta object path = true) :
    D.Below object path := by
  obtain ⟨rest, rfl⟩ := D.publisher.exists_eq_of_isDelta h
  refine ⟨D.publisher.root, D.rootMem, rest, ?_⟩
  rw [List.append_assoc]
  rfl

theorem not_below_historyTarget (object : CrmObject) (runDate : String) :
    ¬ D.Below object (D.publisher.historyTarget runDate) := by
  rintro ⟨root, hroot, hstart⟩
  have hhistory : (D.publisher.root ++ ["opportunity_history"]) <+:
      D.publisher.historyTarget runDate :=
    ⟨["business_date=" ++ runDate, "delta.parquet"], by
      rw [CrmDeltaPublisher.historyTarget, List.append_assoc]
      rfl⟩
  have hname := name_eq_of_below hroot D.rootMem hstart hhistory
  cases object <;> exact absurd hname (by decide)

/-- The compactor of an object stays in its directories. -/
theorem below_of_mem_deltaRoots
    {object : CrmObject} {root : Path} (hroot : root ∈ (D.objectSpec object).deltaRoots)
    (rest : Path) :
    D.Below object (root ++ rest) := by
  rw [DatasetSpec.deltaRoots, mem_sortedSet] at hroot
  have hliteral : ([object.name, "**", "*.parquet"].takeWhile
      (fun segment => !wildcards.any (fun w => segment.toList.contains w))) = [object.name] := by
    cases object <;> decide +kernel
  obtain ⟨pattern, hpattern, hmem⟩ := List.mem_flatMap.mp hroot
  rw [List.mem_singleton.mp hpattern, hliteral] at hmem
  obtain ⟨dataRoot, hdataRoot, rfl⟩ := List.mem_map.mp hmem
  exact ⟨dataRoot, hdataRoot, List.prefix_append _ _⟩

/-- A pattern without wildcards matches itself only. -/
theorem itemsMatch_literals (name segment : List Char) :
    itemsMatch (name.map SegmentItem.literal) segment = true → segment = name := by
  induction name generalizing segment with
  | nil =>
      intro h
      simpa [itemsMatch] using h
  | cons c name ih =>
      intro h
      cases segment with
      | nil => simp [itemsMatch] at h
      | cons d segment =>
          simp only [List.map_cons, itemsMatch, Bool.and_eq_true, beq_iff_eq] at h
          rw [ih segment h.2, h.1]

theorem eq_of_segmentMatches_name
    {object : CrmObject} {segment : String} (h : segmentMatches object.name segment = true) :
    segment = object.name := by
  have hitems : segmentItems object.name.length object.name.toList =
      object.name.toList.map SegmentItem.literal := by
    cases object <;> decide +kernel
  rw [segmentMatches, hitems] at h
  exact String.toList_inj.mp (itemsMatch_literals _ _ h)

theorem exists_segment_of_globMatches
    {object : CrmObject} {rest : Path}
    (h : globMatches [object.name, "**", "*.parquet"] rest = true) :
    ∃ below, rest = object.name :: below := by
  cases rest with
  | nil => cases object <;> cases h
  | cons segment below =>
      have hsegment : globMatches [object.name, "**", "*.parquet"] (segment :: below) =
          (segmentMatches object.name segment && globMatches ["**", "*.parquet"] below) := by
        cases object <;> rfl
      rw [hsegment, Bool.and_eq_true] at h
      exact ⟨below, by rw [eq_of_segmentMatches_name h.1]⟩

theorem below_of_isDeltaPath
    {object : CrmObject} {path : Path} (h : (D.objectSpec object).isDeltaPath path = true) :
    D.Below object path := by
  rw [DatasetSpec.isDeltaPath, Bool.and_eq_true, DatasetSpec.matchesDelta, DatasetSpec.reachedBy,
    List.any_eq_true] at h
  obtain ⟨⟨pattern, hpattern, hroots⟩, _⟩ := h
  rw [List.mem_singleton.mp hpattern, List.any_eq_true] at hroots
  obtain ⟨root, hroot, hyields⟩ := hroots
  by_cases hstart : root.isPrefixOf path = true
  · obtain ⟨rest, rfl⟩ := List.isPrefixOf_iff_prefix.mp hstart
    rw [globYields, relativeTo?, if_pos hstart] at hyields
    simp only [List.drop_left] at hyields
    obtain ⟨below, rfl⟩ := exists_segment_of_globMatches hyields
    refine ⟨root, hroot, below, ?_⟩
    rw [List.append_assoc]
    rfl
  · rw [globYields, relativeTo?, if_neg hstart] at hyields
    cases hyields

end CrmDeployment

/-! ## Steps -/

/-- The store and where the compactor stands with each object. -/
structure CrmWorld where
  store : CrmStore
  compactor : CrmObject → CompactorPhase

inductive CrmAction (D : CrmDeployment) where
  /-- `publish`, which crashes after `k` writes or ends before. -/
  | publish (ties : D.publisher.Ties) (runDate : String) (events : List SourceEvent) (k : Nat)
  | plan (object : CrmObject) (host : Host)
  | merge (object : CrmObject)
  | unlink (object : CrmObject)
  | stop (object : CrmObject)

namespace CrmDeployment

variable (D : CrmDeployment)

/-- The writes of a publication that get done. -/
def writesDone (ties : D.publisher.Ties) (runDate : String) (events : List SourceEvent)
    (s : CrmStore) (k : Nat) : List CrmWrite :=
  (D.publisher.publish ties runDate events s).1.take k

/-- One step of the publisher or of the compactor of one object. -/
inductive Step (E : RankEngine) : CrmWorld → CrmAction D → CrmWorld → Prop
  | publish {s : CrmWorld} {ties : D.publisher.Ties} {runDate : String}
      {events : List SourceEvent} {k : Nat} :
      Step E s (.publish ties runDate events k)
        { s with
          store := after CrmStore.write s.store (D.writesDone ties runDate events s.store k) }
  | plan {s : CrmWorld} {object : CrmObject} {host : Host} {p : CompactionPlan}
      (idle : s.compactor object = .idle)
      (planned : FakeForce.plan (D.objectSpec object) host s.store.disk = .ok p)
      (worthwhile : p.partitions ≠ []) :
      Step E s (.plan object host)
        { s with compactor := Function.update s.compactor object (.planned p) }
  | merge {s : CrmWorld} {object : CrmObject} {p : CompactionPlan} {disk : Disk} {written : Nat}
      (planned : s.compactor object = .planned p)
      (write : writeMerged (D.objectSpec object) E
        (s.store.disk.mkdirs p.compactedPath.parent) (p.basePaths ++ p.partitions)
        p.compactedPath = some (disk, written)) :
      Step E s (.merge object)
        { store := { s.store with disk := disk }
          compactor := Function.update s.compactor object (.removing p p.partitions) }
  | unlink {s : CrmWorld} {object : CrmObject} {p : CompactionPlan} {path : Path}
      {rest : List Path}
      (removing : s.compactor object = .removing p (path :: rest)) :
      Step E s (.unlink object)
        { store := { s.store with disk := (removePartition s.store.disk path).1 }
          compactor := Function.update s.compactor object (.removing p rest) }
  | stop {s : CrmWorld} {object : CrmObject} :
      Step E s (.stop object)
        { s with compactor := Function.update s.compactor object .idle }

/-! ## The condition -/

/-- The stored rows of an object outside one file: of the base, of the deltas and
of the merged bases. -/
def storedBeside (disk : Disk) (object : CrmObject) (target : Path) : Set Row :=
  {r | ∃ path rows, path ≠ target ∧
    (path = D.publisher.baseSource object ∨ D.Below object path) ∧
    disk.read path = some rows ∧ r ∈ rows}

/-- A delta fits the stored rows: its rows carry an id, and with them every record
is still aligned. -/
structure Fits (disk : Disk) (object : CrmObject) (target : Path) (rows : List Row) : Prop where
  text : ∀ r ∈ rows, ∃ id, r "Id" = some (.text id)
  aligned : ∀ id, D.publisher.AlignedRows object
    (ofId (D.publisher.baseRows disk object) id)
    {r | r "Id" = some (.text id) ∧ (r ∈ D.storedBeside disk object target ∨ r ∈ rows)}

/-- Every delta of a list of writes fits the rows stored when it is written. -/
def EachFits : CrmStore → List CrmWrite → Prop
  | _, [] => True
  | s, write :: writes =>
      (∀ object path rows, write = .replaceDelta path rows →
        D.publisher.isDelta object path = true → D.Fits s.disk object path rows) ∧
      EachFits (s.write write) writes

/-- What a step must meet, judged on the state before it. -/
def MeetsCondition (s : CrmWorld) : CrmAction D → Prop
  | .publish ties runDate events k =>
      D.EachFits s.store (D.writesDone ties runDate events s.store k)
  | _ => True

/-! ## The invariant -/

/-- All stored rows of an object. -/
def stored (disk : Disk) (object : CrmObject) : Set Row :=
  {r | ∃ path rows, (path = D.publisher.baseSource object ∨ D.Below object path) ∧
    disk.read path = some rows ∧ r ∈ rows}

/-- The base files hold one row per id, and the rows of every record are aligned. -/
structure TreeInvariant (disk : Disk) : Prop where
  base : ∀ object, ∃ rows, disk.read (D.publisher.baseSource object) = some rows ∧
    OneRowPerId rows
  text : ∀ object, ∀ r ∈ D.stored disk object, ∃ id, r "Id" = some (.text id)
  aligned : ∀ object id, D.publisher.AlignedRows object
    (ofId (D.publisher.baseRows disk object) id)
    {r | r "Id" = some (.text id) ∧ r ∈ D.stored disk object}

/-- The compactor reads and writes files of the object only. -/
def PhaseBelow (object : CrmObject) : CompactorPhase → Prop
  | .idle => True
  | .planned p =>
      (∀ path ∈ p.basePaths ++ p.partitions,
        path = D.publisher.baseSource object ∨ D.Below object path) ∧
      D.Below object p.compactedPath ∧ ∀ path ∈ p.partitions, D.Below object path
  | .removing _ rest => ∀ path ∈ rest, D.Below object path

structure WorldInvariant (s : CrmWorld) : Prop where
  tree : D.TreeInvariant s.store.disk
  phase : ∀ object, D.PhaseBelow object (s.compactor object)

variable {D}

/-- Storing no new rows keeps the invariant. -/
theorem TreeInvariant.shrink
    {disk disk' : Disk} (h : D.TreeInvariant disk)
    (hbase : ∀ object, disk'.read (D.publisher.baseSource object) =
      disk.read (D.publisher.baseSource object))
    (hstored : ∀ object, D.stored disk' object ⊆ D.stored disk object) :
    D.TreeInvariant disk' := by
  refine ⟨?_, ?_, ?_⟩
  · intro object
    rw [hbase]
    exact h.base object
  · exact fun object r hr => h.text object r (hstored object hr)
  · intro object id
    rw [CrmDeltaPublisher.baseRows, hbase]
    exact (h.aligned object id).mono (fun r hr => ⟨hr.1, hstored object hr.2⟩)

/-- A changed file that belongs to no object changes no stored row. -/
theorem stored_subset_of_not_below
    {disk disk' : Disk} {object : CrmObject} {target : Path}
    (hread : ∀ path, path ≠ target → disk'.read path = disk.read path)
    (hbase : target ≠ D.publisher.baseSource object) (hbelow : ¬ D.Below object target) :
    D.stored disk' object ⊆ D.stored disk object := by
  rintro r ⟨path, rows, hpath, hrows, hr⟩
  have hne : path ≠ target := by
    rintro rfl
    exact hpath.elim hbase hbelow
  rw [hread path hne] at hrows
  exact ⟨path, rows, hpath, hrows, hr⟩

/-- After one file changed, a stored row was stored beside it or is in it. -/
theorem mem_stored_cases
    {disk disk' : Disk} {object : CrmObject} {target : Path}
    (hread : ∀ path, path ≠ target → disk'.read path = disk.read path)
    {r : Row} (hr : r ∈ D.stored disk' object) :
    r ∈ D.storedBeside disk object target ∨
      ∃ rows, disk'.read target = some rows ∧ r ∈ rows := by
  obtain ⟨path, rows, hpath, hrows, hmem⟩ := hr
  by_cases heq : path = target
  · subst heq
    exact Or.inr ⟨rows, hrows, hmem⟩
  · rw [hread path heq] at hrows
    exact Or.inl ⟨path, rows, heq, hpath, hrows, hmem⟩

theorem storedBeside_subset (disk : Disk) (object : CrmObject) (target : Path) :
    D.storedBeside disk object target ⊆ D.stored disk object := by
  rintro r ⟨path, rows, _, hpath, hrows, hr⟩
  exact ⟨path, rows, hpath, hrows, hr⟩

/-- A file of one object changed without storing new rows. -/
theorem TreeInvariant.change
    {disk disk' : Disk} (h : D.TreeInvariant disk) {object : CrmObject} {target : Path}
    (hbelow : D.Below object target)
    (hread : ∀ path, path ≠ target → disk'.read path = disk.read path)
    (hrows : ∀ rows, disk'.read target = some rows → ∀ r ∈ rows, r ∈ D.stored disk object) :
    D.TreeInvariant disk' := by
  apply h.shrink
  · intro other
    exact hread _ (hbelow.ne_baseSource other).symm
  · intro other
    by_cases heq : other = object
    · subst heq
      intro r hr
      rcases mem_stored_cases hread hr with hbeside | ⟨rows, htarget, hmem⟩
      · exact storedBeside_subset _ _ _ hbeside
      · exact hrows rows htarget r hmem
    · exact stored_subset_of_not_below hread (hbelow.ne_baseSource other)
        (fun hother => heq (hother.object_eq hbelow))

/-- A delta that fits is written. -/
theorem TreeInvariant.write_delta
    {s : CrmStore} (h : D.TreeInvariant s.disk) {object : CrmObject} {target : Path}
    {rows : List Row} (hbelow : D.Below object target)
    (hfits : D.Fits s.disk object target rows) :
    D.TreeInvariant (s.write (.replaceDelta target rows)).disk := by
  have hread : ∀ path, path ≠ target →
      (s.write (.replaceDelta target rows)).disk.read path = s.disk.read path := by
    intro path hne
    rw [CrmDeltaPublisher.read_write_delta, Function.update_of_ne hne]
  have hself : (s.write (.replaceDelta target rows)).disk.read target = some rows := by
    rw [CrmDeltaPublisher.read_write_delta, Function.update_self]
  have hbase : ∀ other, (s.write (.replaceDelta target rows)).disk.read
      (D.publisher.baseSource other) = s.disk.read (D.publisher.baseSource other) :=
    fun other => hread _ (hbelow.ne_baseSource other).symm
  have hcases : ∀ r ∈ D.stored (s.write (.replaceDelta target rows)).disk object,
      r ∈ D.storedBeside s.disk object target ∨ r ∈ rows := by
    intro r hr
    rcases mem_stored_cases hread hr with hbeside | ⟨rows', htarget, hmem⟩
    · exact Or.inl hbeside
    · rw [hself] at htarget
      rw [Option.some.inj htarget]
      exact Or.inr hmem
  have hother : ∀ other, other ≠ object →
      D.stored (s.write (.replaceDelta target rows)).disk other ⊆ D.stored s.disk other :=
    fun other hne => stored_subset_of_not_below hread (hbelow.ne_baseSource other)
      (fun hbelow' => hne (hbelow'.object_eq hbelow))
  refine ⟨?_, ?_, ?_⟩
  · intro other
    rw [hbase]
    exact h.base other
  · intro other r hr
    by_cases heq : other = object
    · subst heq
      rcases hcases r hr with hbeside | hmem
      · exact h.text other r (storedBeside_subset _ _ _ hbeside)
      · exact hfits.text r hmem
    · exact h.text other r (hother other heq hr)
  · intro other id
    rw [CrmDeltaPublisher.baseRows, hbase]
    by_cases heq : other = object
    · subst heq
      exact (hfits.aligned id).mono (fun r hr => ⟨hr.1, hcases r hr.2⟩)
    · exact (h.aligned other id).mono (fun r hr => ⟨hr.1, hother other heq hr.2⟩)

/-- The stage history is no file of an object. -/
theorem TreeInvariant.write_history
    {s : CrmStore} (h : D.TreeInvariant s.disk) (runDate : String) (rows : List Row) :
    D.TreeInvariant
      (s.write (.replaceDelta (D.publisher.historyTarget runDate) rows)).disk := by
  have hread : ∀ path, path ≠ D.publisher.historyTarget runDate →
      (s.write (.replaceDelta (D.publisher.historyTarget runDate) rows)).disk.read path =
        s.disk.read path := by
    intro path hne
    rw [CrmDeltaPublisher.read_write_delta, Function.update_of_ne hne]
  have hbase : ∀ object, D.publisher.historyTarget runDate ≠ D.publisher.baseSource object :=
    fun object => (D.publisher.baseSource_ne object _).symm
  apply h.shrink
  · exact fun object => hread _ (hbase object).symm
  · exact fun object => stored_subset_of_not_below hread (hbase object)
      (not_below_historyTarget object runDate)

/-- Writes of a publication whose deltas fit keep the invariant. -/
theorem TreeInvariant.after_writes
    {runDate : String} {s : CrmStore} (h : D.TreeInvariant s.disk) {writes : List CrmWrite}
    (htargets : ∀ path rows, CrmWrite.replaceDelta path rows ∈ writes →
      (∃ object, path = D.publisher.deltaTarget object runDate) ∨
        path = D.publisher.historyTarget runDate)
    (hfits : D.EachFits s writes) :
    D.TreeInvariant (after CrmStore.write s writes).disk := by
  induction writes generalizing s with
  | nil => exact h
  | cons write writes ih =>
      obtain ⟨hfirst, hrest⟩ := hfits
      rw [after_cons]
      apply ih _ (fun path rows hmem => htargets path rows (List.mem_cons_of_mem _ hmem)) hrest
      cases write with
      | replaceManifest date manifest => exact h
      | replaceDelta path rows =>
          rcases htargets path rows List.mem_cons_self with ⟨object, rfl⟩ | rfl
          · have hdelta := D.publisher.isDelta_deltaTarget object runDate
            exact h.write_delta (below_of_isDelta hdelta) (hfirst object _ rows rfl hdelta)
          · exact h.write_history runDate rows

/-! ## Steps keep the invariant -/

/-- What a plan lists and where it writes. -/
theorem phaseBelow_of_plan
    {object : CrmObject} {host : Host} {disk : Disk} {p : CompactionPlan}
    (hplan : FakeForce.plan (D.objectSpec object) host disk = .ok p) :
    D.PhaseBelow object (.planned p) := by
  obtain ⟨_, _, hpartitions, _, hbase, root, hroot, hcompacted⟩ :=
    (plan_eq_ok_iff _ _ _ _).mp hplan
  have hlisted : ∀ path ∈ p.partitions, D.Below object path := by
    intro path hpath
    exact below_of_isDeltaPath ((DatasetSpec.mem_publishedDeltas hpartitions path).mp hpath).2
  have hcompactedFile : ∀ root ∈ (D.objectSpec object).deltaRoots,
      D.Below object (DatasetSpec.compactedFile root) := by
    intro root hroot
    rw [DatasetSpec.compactedFile, List.append_assoc]
    exact below_of_mem_deltaRoots hroot _
  refine ⟨?_, ?_, hlisted⟩
  · intro path hpath
    rcases List.mem_append.mp hpath with hsource | hpartition
    · rw [hbase, DatasetSpec.effectiveBase] at hsource
      split at hsource
      · rename_i compacted hfound
        obtain ⟨root, hroot, rfl⟩ := List.mem_map.mp (List.mem_of_find?_eq_some hfound)
        rw [List.mem_singleton.mp hsource]
        exact Or.inr (hcompactedFile root hroot)
      · exact Or.inl (List.mem_singleton.mp hsource)
    · exact Or.inr (hlisted path hpartition)
  · rw [hcompacted]
    exact hcompactedFile root (DatasetSpec.writableRoot_mem hroot)

/-- The merged file holds rows that were stored. -/
theorem TreeInvariant.merge
    {E : RankEngine} {object : CrmObject} {p : CompactionPlan} {disk disk' : Disk}
    {written : Nat} (h : D.TreeInvariant disk) (hphase : D.PhaseBelow object (.planned p))
    (hwrite : writeMerged (D.objectSpec object) E (disk.mkdirs p.compactedPath.parent)
      (p.basePaths ++ p.partitions) p.compactedPath = some (disk', written)) :
    D.TreeInvariant disk' := by
  simp only [writeMerged, Disk.read_mkdirs, Option.bind_eq_bind,
    Option.bind_eq_some_iff] at hwrite
  obtain ⟨versionField, _, rows, hrows, hdisk⟩ := hwrite
  cases hdisk
  obtain ⟨hsources, hbelow, _⟩ := hphase
  apply h.change hbelow
  · intro path hne
    rw [Disk.read_replace_of_ne _ _ hne, Disk.read_mkdirs]
  · intro merged hmerged r hr
    rw [Disk.read_replace_self] at hmerged
    rw [← Option.some.inj hmerged] at hr
    obtain ⟨hmem, _⟩ := isNewest_of_mem_newestPerKey _ hr
    obtain ⟨path, hpath, content, hcontent, hin⟩ := (mem_of_sourceReader hrows r).mp hmem
    exact ⟨path, content, hsources path hpath, hcontent, hin⟩

theorem TreeInvariant.unlink
    {object : CrmObject} {disk : Disk} {path : Path} (h : D.TreeInvariant disk)
    (hbelow : D.Below object path) :
    D.TreeInvariant (removePartition disk path).1 := by
  apply h.change hbelow
  · exact fun other hne => read_removePartition_of_ne disk hne
  · intro rows hrows
    rw [read_removePartition_self] at hrows
    cases hrows

theorem PhaseBelow.update
    {phases : CrmObject → CompactorPhase} (h : ∀ object, D.PhaseBelow object (phases object))
    {object : CrmObject} {phase : CompactorPhase} (hphase : D.PhaseBelow object phase)
    (other : CrmObject) :
    D.PhaseBelow other (Function.update phases object phase other) := by
  by_cases heq : other = object
  · subst heq
    rw [Function.update_self]
    exact hphase
  · rw [Function.update_of_ne heq]
    exact h other

/-- A step that meets the condition keeps the invariant. -/
theorem WorldInvariant.step
    {E : RankEngine} {s s' : CrmWorld} {a : CrmAction D} (h : D.WorldInvariant s)
    (hstep : D.Step E s a s') (hmeets : D.MeetsCondition s a) :
    D.WorldInvariant s' := by
  cases hstep with
  | @publish ties runDate events k =>
      have htargets : ∀ path rows, CrmWrite.replaceDelta path rows ∈
          D.writesDone ties runDate events s.store k →
          (∃ object, path = D.publisher.deltaTarget object runDate) ∨
            path = D.publisher.historyTarget runDate :=
        fun path rows hmem => D.publisher.target_of_mem_publish (List.mem_of_mem_take hmem)
      exact ⟨h.tree.after_writes htargets hmeets, h.phase⟩
  | plan idle planned worthwhile =>
      exact ⟨h.tree, PhaseBelow.update h.phase (phaseBelow_of_plan planned)⟩
  | @merge object p disk written planned write =>
      have hphase := h.phase object
      rw [planned] at hphase
      exact ⟨h.tree.merge hphase write, PhaseBelow.update h.phase hphase.2.2⟩
  | @unlink object p path rest removing =>
      have hphase := h.phase object
      rw [removing] at hphase
      refine ⟨h.tree.unlink (hphase path List.mem_cons_self), PhaseBelow.update h.phase ?_⟩
      exact fun other hother => hphase other (List.mem_cons_of_mem _ hother)
  | stop =>
      exact ⟨h.tree, PhaseBelow.update h.phase True.intro⟩

/-! ## Runs -/

variable (D) in
/-- A seeded world: base files with one row per id, nothing published. -/
structure Seeded (s : CrmWorld) : Prop where
  base : ∀ object, ∃ rows, s.store.disk.read (D.publisher.baseSource object) = some rows ∧
    OneRowPerId rows
  fresh : ∀ object path, D.Below object path → s.store.disk.read path = none
  idle : ∀ object, s.compactor object = .idle

variable (D) in
/-- A step that meets the condition. -/
def MeetingStep (E : RankEngine) (s s' : CrmWorld) : Prop :=
  ∃ a, D.Step E s a s' ∧ D.MeetsCondition s a

theorem Seeded.mem_baseRows {s : CrmWorld} (h : D.Seeded s) {object : CrmObject} {r : Row}
    (hr : r ∈ D.stored s.store.disk object) :
    r ∈ D.publisher.baseRows s.store.disk object := by
  obtain ⟨path, rows, rfl | hbelow, hrows, hmem⟩ := hr
  · rw [CrmDeltaPublisher.baseRows, hrows, Option.getD_some]
    exact hmem
  · rw [h.fresh object path hbelow] at hrows
    cases hrows

theorem Seeded.invariant {s : CrmWorld} (h : D.Seeded s) : D.WorldInvariant s := by
  have hstored : ∀ object, ∀ r ∈ D.stored s.store.disk object,
      r ∈ D.publisher.baseRows s.store.disk object :=
    fun object r hr => h.mem_baseRows hr
  have hsame : ∀ object, ∀ r ∈ D.publisher.baseRows s.store.disk object,
      ∀ r' ∈ D.publisher.baseRows s.store.disk object, r "Id" = r' "Id" → r = r' := by
    intro object r hr r' hr' hid
    obtain ⟨rows, hrows, hone⟩ := h.base object
    rw [CrmDeltaPublisher.baseRows, hrows, Option.getD_some] at hr hr'
    exact List.inj_on_of_nodup_map hone.distinct hr hr' hid
  refine ⟨⟨h.base, ?_, ?_⟩, ?_⟩
  · intro object r hr
    have hr' := hstored object r hr
    obtain ⟨rows, hrows, hone⟩ := h.base object
    rw [CrmDeltaPublisher.baseRows, hrows, Option.getD_some] at hr'
    exact hone.text r hr'
  · intro object id
    refine ⟨?_, ?_, ?_⟩
    · rintro r ⟨hr, hid⟩ r' ⟨hr', hid'⟩
      exact hsame object r hr r' hr' (hid.trans hid'.symm)
    · rintro b ⟨hb, hid⟩ r ⟨hid', hr⟩
      exact Or.inl (hsame object b hb r (hstored object r hr) (hid.trans hid'.symm))
    · rintro r ⟨hid, hr⟩ r' ⟨hid', hr'⟩
      exact Or.inl (hsame object r (hstored object r hr) r' (hstored object r' hr')
        (hid.trans hid'.symm))
  · intro object
    rw [h.idle object]
    exact True.intro

theorem WorldInvariant.of_run
    {E : RankEngine} {start s : CrmWorld} (hstart : D.Seeded start)
    (hrun : Relation.ReflTransGen (D.MeetingStep E) start s) :
    D.WorldInvariant s := by
  induction hrun with
  | refl => exact hstart.invariant
  | tail _ hlast ih =>
      obtain ⟨a, hstep, hmeets⟩ := hlast
      exact ih.step hstep hmeets

/-- Over a seeded world a delta fits that has one row per id, each newer than the
base row of its id. -/
theorem Seeded.fits
    {s : CrmWorld} (h : D.Seeded s) {object : CrmObject} {target : Path} {rows : List Row}
    (hone : OneRowPerId rows)
    (hnewer : ∀ b ∈ D.publisher.baseRows s.store.disk object, ∀ r ∈ rows, b "Id" = r "Id" →
      Overlay.NewerByBoth (Row.version "LastModifiedDate")
        (Row.version (D.publisher.versionField object)) b r) :
    D.Fits s.store.disk object target rows := by
  refine ⟨hone.text, fun id => ?_⟩
  have haligned := h.invariant.tree.aligned object id
  have hbase : ∀ r ∈ D.storedBeside s.store.disk object target,
      r ∈ D.publisher.baseRows s.store.disk object :=
    fun r hr => h.mem_baseRows (storedBeside_subset _ _ _ hr)
  refine ⟨haligned.one_base, ?_, ?_⟩
  · rintro b ⟨hb, hid⟩ r ⟨hid', hr | hr⟩
    · exact haligned.base_first b ⟨hb, hid⟩ r ⟨hid', storedBeside_subset _ _ _ hr⟩
    · exact Or.inr (hnewer b hb r hr (hid.trans hid'.symm))
  · rintro r ⟨hid, hr | hr⟩ r' ⟨hid', hr' | hr'⟩
    · exact haligned.ordered r ⟨hid, storedBeside_subset _ _ _ hr⟩ r'
        ⟨hid', storedBeside_subset _ _ _ hr'⟩
    · exact Or.inr (Or.inl (hnewer r (hbase r hr) r' hr' (hid.trans hid'.symm)))
    · exact Or.inr (Or.inr (hnewer r' (hbase r' hr') r hr (hid'.trans hid.symm)))
    · exact Or.inl (List.inj_on_of_nodup_map hone.distinct hr hr' (hid.trans hid'.symm))

/-! ## Agreement -/

variable (D) in
/-- The planner and the publisher resolve every id to the same row, whichever rows
the database keeps among equal versions. -/
def ResolutionsAgree (disk : Disk) : Prop :=
  ∀ (E : RankEngine) (ties : D.publisher.Ties) (object : CrmObject), ∃ rows,
    D.publisher.reader.relation E disk (D.publisher.baseSource object) object = some rows ∧
    ∀ id, rows.filter (fun r => r "Id" = some (.text id)) =
      (D.publisher.currentRow ties disk object id).toList

variable (D) in
/-- Events planned over a store and published into it: every planned stage change
has a history row from the stage it was planned from to the successor of that
stage. -/
def HistoryFollowsPlan (s : CrmStore) : Prop :=
  ∀ (E : RankEngine) (hashOrder : List Row → List Row) (limit : Nat)
    (opportunities : List Row) (planner : CrmDailyPlanner) (population : Option Nat)
    (ties : D.publisher.Ties) (runDate : String) (others : List SourceEvent)
    (writes : List CrmWrite) (parts : CrmParts),
    (∀ rows, (hashOrder rows).Perm rows) →
    D.publisher.reader.openOpportunities E hashOrder limit s.disk
      (D.publisher.baseSource .opportunities) = some opportunities →
    s.manifests runDate = none →
    D.publisher.publish ties runDate
      (others ++ planner.stageEvents runDate opportunities population) s = (writes, .ok parts) →
    ∀ event ∈ planner.stageEvents runDate opportunities population,
      event.eventType = "opportunity_stage_changed" →
      ∃ r ∈ opportunities, ∃ stage next history row,
        event = planner.stageChangedEvent runDate r ∧
        r "StageName" = some (.text stage) ∧ stageSuccessor.lookup stage = some next ∧
        .replaceDelta (D.publisher.historyTarget runDate) history ∈ writes ∧ row ∈ history ∧
        row "Id" = some (.text event.eventId) ∧
        row "OpportunityId" = some (.text event.entityId) ∧
        row "PreviousStageName" = some (.text stage) ∧ row "StageName" = some (.text next)

/-- Aligned records are resolved alike. -/
theorem TreeInvariant.resolutionsAgree {disk : Disk} (h : D.TreeInvariant disk) :
    D.ResolutionsAgree disk := by
  intro E ties object
  obtain ⟨base, hbase, hone⟩ := h.base object
  apply D.publisher.relation_resolves_currentRow E ties hbase hone
  intro id
  have haligned := h.aligned object id
  rw [CrmDeltaPublisher.baseRows, hbase, Option.getD_some] at haligned
  apply haligned.mono
  rintro r ⟨hr, hid⟩
  obtain ⟨path, rows, hdelta, hrows, hmem⟩ := (D.publisher.mem_deltaRows disk object r).mp hr
  exact ⟨hid, path, rows, Or.inr (below_of_isDelta hdelta), hrows, hmem⟩

/-- The rows of the relation are stored rows. -/
theorem mem_stored_of_mem_relation
    {E : RankEngine} {disk : Disk} {object : CrmObject} {rows : List Row}
    (hrelation : D.publisher.reader.relation E disk (D.publisher.baseSource object) object =
      some rows) {r : Row} (hr : r ∈ rows) :
    r ∈ D.stored disk object := by
  cases hbase : disk.read (D.publisher.baseSource object) with
  | none =>
      rw [CrmSnapshotReader.relation, hbase] at hrelation
      cases hrelation
  | some base =>
      have hrows := (D.publisher.reader.relation_eq_some E hbase).symm.trans hrelation
      rw [← Option.some.inj hrows] at hr
      rcases List.mem_append.mp hr with hkept | hlatest
      · exact ⟨_, base, Or.inl rfl, hbase, List.mem_of_mem_filter hkept⟩
      · obtain ⟨path, content, hdelta, hcontent, hmem⟩ :=
          (D.publisher.mem_deltaRows disk object r).mp (isNewest_of_mem_newestPerKey _ hlatest).1
        exact ⟨path, content, Or.inr (below_of_isDelta hdelta), hcontent, hmem⟩

/-- A row the planner reads is the current row of its id. -/
theorem TreeInvariant.currentRow_of_planned
    {E : RankEngine} {hashOrder : List Row → List Row} {limit : Nat} {disk : Disk}
    {opportunities : List Row} (h : D.TreeInvariant disk)
    (horder : ∀ rows, (hashOrder rows).Perm rows)
    (hread : D.publisher.reader.openOpportunities E hashOrder limit disk
      (D.publisher.baseSource .opportunities) = some opportunities)
    (ties : D.publisher.Ties) {r : Row} (hr : r ∈ opportunities) :
    D.publisher.currentRow ties disk .opportunities (cellText (r "Id")) = some r := by
  obtain ⟨rows, hrelation, hmem⟩ :=
    D.publisher.reader.mem_of_mem_openOpportunities horder hread hr
  obtain ⟨id, hid⟩ := h.text .opportunities r (mem_stored_of_mem_relation hrelation hmem)
  obtain ⟨rows', hrelation', hsame⟩ := h.resolutionsAgree E ties .opportunities
  rw [hrelation] at hrelation'
  rw [← Option.some.inj hrelation'] at hsame
  have hfound : r ∈ rows.filter (fun r => r "Id" = some (.text id)) :=
    List.mem_filter.mpr ⟨hmem, by simpa using hid⟩
  rw [hsame id, Option.mem_toList] at hfound
  rw [hid]
  exact hfound

/-- The history of a successful publication has a row of each of its events. -/
theorem exists_history_of_publish
    {ties : D.publisher.Ties} {runDate : String} {events : List SourceEvent} {s : CrmStore}
    {writes : List CrmWrite} {parts : CrmParts} (hnone : s.manifests runDate = none)
    (hpublish : D.publisher.publish ties runDate events s = (writes, .ok parts))
    {event : SourceEvent} (hevent : event ∈ events)
    (htag : tagEvent event = .ok (.opportunities, event)) (hin : event.inHistory = true) :
    ∃ history, .replaceDelta (D.publisher.historyTarget runDate) history ∈ writes ∧
      D.publisher.historyRow
        (D.publisher.currentRow ties s.disk .opportunities event.entityId) event ∈ history := by
  have hok : (D.publisher.publish ties runDate events s).2 = .ok parts := by
    rw [hpublish]
  obtain ⟨tagged, htagged⟩ := D.publisher.exists_tagged_of_publish_ok hok
  obtain ⟨_, rfl, _⟩ := (D.publisher.publish_eq_ok_iff ties runDate htagged hnone _ _).mp hpublish
  have hgroup := CrmDeltaPublisher.mem_groupOf_of_tagged htagged hevent htag
  have hrow : D.publisher.historyRow
      (D.publisher.currentRow ties s.disk .opportunities event.entityId) event ∈
        D.publisher.historyRows ties s.disk (groupOf tagged .opportunities) :=
    List.mem_map_of_mem (List.mem_filter.mpr ⟨hgroup, hin⟩)
  refine ⟨_, List.mem_append_left _ ?_, hrow⟩
  have hne : (D.publisher.historyRows ties s.disk (groupOf tagged .opportunities)).isEmpty ≠
      true := by
    rw [Ne, List.isEmpty_iff]
    exact List.ne_nil_of_mem hrow
  apply List.mem_map.mpr
  refine ⟨(D.publisher.historyTarget runDate, _), ?_, rfl⟩
  rw [CrmDeltaPublisher.plannedFiles, if_neg hne]
  exact List.mem_append_right _ List.mem_cons_self

/-- A stage change is an event of an opportunity, and leaves history. -/
theorem tagEvent_stageChangedEvent
    (planner : CrmDailyPlanner) (runDate : String) (r : Row) :
    tagEvent (planner.stageChangedEvent runDate r) =
        .ok (.opportunities, planner.stageChangedEvent runDate r) ∧
      (planner.stageChangedEvent runDate r).inHistory = true := by
  have hsystem : (planner.stageChangedEvent runDate r).sourceSystem = "crm" := rfl
  have htype : (planner.stageChangedEvent runDate r).eventType =
      "opportunity_stage_changed" := rfl
  have haccount : startsWith "opportunity_stage_changed" "account_" = false := by
    decide +kernel
  have hopportunity : startsWith "opportunity_stage_changed" "opportunity_" = true := by
    decide +kernel
  constructor
  · simp [tagEvent, objectFor, hsystem, htype, haccount, hopportunity]
  · simp [SourceEvent.inHistory, htype]

theorem TreeInvariant.historyFollowsPlan {s : CrmStore} (h : D.TreeInvariant s.disk) :
    D.HistoryFollowsPlan s := by
  intro E hashOrder limit opportunities planner population ties runDate others writes parts
    horder hread hnone hpublish event hevent htype
  obtain ⟨r, hr, hopen, rfl⟩ := planner.exists_row_of_stageChanged hevent htype
  obtain ⟨stage, next, hstage, hnext⟩ := CrmDailyPlanner.exists_successor_of_isOpen hopen
  obtain ⟨htag, hin⟩ := tagEvent_stageChangedEvent planner runDate r
  obtain ⟨history, hhistory, hrow⟩ := exists_history_of_publish hnone hpublish
    (List.mem_append_right others hevent) htag hin
  have hcurrent := h.currentRow_of_planned horder hread ties hr
  obtain ⟨hid, hopportunity, hprevious, hname⟩ := D.publisher.historyRow_cells r D.stageColumn
    (planner.lookup_stageName_stageChanged runDate hstage hnext)
  have hentity : (planner.stageChangedEvent runDate r).entityId = cellText (r "Id") := rfl
  rw [hentity, hcurrent] at hrow
  exact ⟨r, hr, stage, next, history, _, rfl, hstage, hnext, hhistory, hrow, hid,
    hopportunity, hprevious.trans hstage, hname⟩

end CrmDeployment

/-- In every run of publications, crashed anywhere, and compactions, plan, merge and
unlink apart, in which every delta fits the rows stored when it is written: the
planner and the publisher resolve every id to the same row, and the history of a
planned day starts from the stages it was planned from. -/
theorem resolutions_agree_of_run
    (D : CrmDeployment) (E : RankEngine) {start s : CrmWorld} (hstart : D.Seeded start)
    (hrun : Relation.ReflTransGen (D.MeetingStep E) start s) :
    D.ResolutionsAgree s.store.disk ∧ D.HistoryFollowsPlan s.store := by
  have h := CrmDeployment.WorldInvariant.of_run hstart hrun
  exact ⟨h.tree.resolutionsAgree, h.tree.historyFollowsPlan⟩

/-! ## Days around the seed -/

/-- The deployment: the deltas are published into the second data root. -/
def crmDeployment : CrmDeployment where
  publisher := deployedPublisher
  dataRoots := [["app", "seed"], ["app", "state", "simulation", "crm"]]
  rootMem := by decide
  unnested := by decide
  baseApart := by
    intro root hroot object other
    cases object <;> cases other <;> revert root <;> decide
  stageColumn := by decide

def seededWorld : CrmWorld where
  store := seededStore
  compactor := fun _ => .idle

/-- A planner that takes the rows as they come. -/
def scanPlanner : CrmDailyPlanner where
  proportionalDailyVolume := fun _ => 1
  stalledOpportunities := fun _ => 0
  sample := fun rows n => rows.take n
  sample_subperm := take_subperm
  digest := fun runDate eventType entityId _ => runDate ++ "|" ++ eventType ++ "|" ++ entityId

/-- The planned change of the seeded opportunity. -/
def plannedChange (runDate : String) : SourceEvent :=
  scanPlanner.stageChangedEvent runDate
    (Row.ofCells [("Id", .text "0061"), ("StageName", .text "Proposal")])

/-- What the first write of a day with that change leaves. -/
def worldAfter (runDate : String) : CrmWorld where
  store := after CrmStore.write seededStore
    (crmDeployment.writesDone scanTies runDate [plannedChange runDate] seededStore 1)
  compactor := fun _ => .idle

theorem seeded_seededWorld : crmDeployment.Seeded seededWorld := by
  refine ⟨?_, ?_, fun _ => rfl⟩
  · intro object
    cases object
    · refine ⟨_, rfl, ?_, by decide +kernel⟩
      intro r hr
      rw [List.mem_singleton.mp hr]
      exact ⟨"0011", rfl⟩
    · refine ⟨_, rfl, ?_, by decide +kernel⟩
      intro r hr
      rw [List.mem_singleton.mp hr]
      exact ⟨"0061", rfl⟩
  · intro object path hbelow
    have hpaths : seededStore.disk.paths =
        [deployedPublisher.baseSource .opportunities, deployedPublisher.baseSource .accounts] := by
      decide +kernel
    by_contra hread
    have hmem := (seededStore.disk.mem_paths path).mpr (Option.ne_none_iff_isSome.mp hread)
    rw [hpaths] at hmem
    rcases List.mem_pair.mp hmem with rfl | rfl
    · exact hbelow.ne_baseSource .opportunities rfl
    · exact hbelow.ne_baseSource .accounts rfl

/-- The first write of the day is the delta of the opportunity. -/
theorem writesDone_plannedChange :
    crmDeployment.writesDone scanTies "2026-07-25" [plannedChange "2026-07-25"] seededStore 1 =
      [.replaceDelta (deployedPublisher.deltaTarget .opportunities "2026-07-25")
        [deployedPublisher.requestedRow scanTies seededStore.disk .opportunities
          (plannedChange "2026-07-25")]] := by
  have htagged : [plannedChange "2026-07-25"].mapM tagEvent =
      .ok [(.opportunities, plannedChange "2026-07-25")] := rfl
  have hok : (deployedPublisher.publish scanTies "2026-07-25" [plannedChange "2026-07-25"]
      seededStore).2.toBool = true := by
    decide +kernel
  cases hresult : (deployedPublisher.publish scanTies "2026-07-25"
      [plannedChange "2026-07-25"] seededStore).2 with
  | error e =>
      rw [hresult] at hok
      cases hok
  | ok parts =>
      obtain ⟨_, hwrites, _⟩ := (deployedPublisher.publish_eq_ok_iff scanTies "2026-07-25"
        htagged rfl _ _).mp (Prod.ext rfl hresult)
      exact (congrArg (List.take 1) hwrites).trans rfl

/-- One day newer than the seed, crashed after its delta. -/
theorem resolutions_agree_after_newer_day :
    crmDeployment.ResolutionsAgree (worldAfter "2026-07-25").store.disk ∧
      crmDeployment.HistoryFollowsPlan (worldAfter "2026-07-25").store := by
  apply resolutions_agree_of_run crmDeployment firstInScanEngine seeded_seededWorld
  refine Relation.ReflTransGen.single ⟨.publish scanTies "2026-07-25"
    [plannedChange "2026-07-25"] 1, CrmDeployment.Step.publish, ?_⟩
  change crmDeployment.EachFits seededStore (crmDeployment.writesDone scanTies "2026-07-25"
    [plannedChange "2026-07-25"] seededStore 1)
  rw [writesDone_plannedChange]
  refine ⟨?_, True.intro⟩
  intro object path rows hwrite hdelta
  cases hwrite
  have hobject : object = .opportunities := by
    by_contra hne
    exact absurd (hdelta.symm.trans
      (deployedPublisher.isDelta_deltaTarget_of_ne (Ne.symm hne) "2026-07-25")) (by decide)
  subst hobject
  apply seeded_seededWorld.fits
  · refine ⟨?_, List.nodup_singleton _⟩
    intro r hr
    rw [List.mem_singleton.mp hr]
    exact ⟨"0061", by decide +kernel⟩
  · decide +kernel

/-- The seed was modified after the day that is published: the planner reads the
delta, the publisher keeps the seed row. -/
theorem resolutions_disagree_on_older_day :
    ¬ ∀ (D : CrmDeployment) (E : RankEngine) (start s : CrmWorld), D.Seeded start →
      Relation.ReflTransGen (fun s s' => ∃ a, D.Step E s a s') start s →
        D.ResolutionsAgree s.store.disk ∧ D.HistoryFollowsPlan s.store := by
  intro hall
  obtain ⟨hagree, _⟩ := hall crmDeployment firstInScanEngine seededWorld
    (worldAfter "2026-07-23") seeded_seededWorld
    (Relation.ReflTransGen.single ⟨.publish scanTies "2026-07-23"
      [plannedChange "2026-07-23"] 1, CrmDeployment.Step.publish⟩)
  obtain ⟨rows, hrelation, hsame⟩ := hagree firstInScanEngine scanTies .opportunities
  have hplanned : (crmDeployment.publisher.reader.relation firstInScanEngine
      (worldAfter "2026-07-23").store.disk
      (crmDeployment.publisher.baseSource .opportunities) .opportunities).map
        (fun rows => (rows.filter (fun r => r "Id" = some (.text "0061"))).map
          (fun r => r "StageName")) = some [some (.text "Negotiation")] := by
    decide +kernel
  have hpublished : (crmDeployment.publisher.currentRow scanTies
      (worldAfter "2026-07-23").store.disk .opportunities "0061").toList.map
        (fun r => r "StageName") = [some (.text "Proposal")] := by
    decide +kernel
  rw [hrelation, Option.map_some, hsame, hpublished] at hplanned
  exact absurd hplanned (by decide)

end Simulator
end Northwind
