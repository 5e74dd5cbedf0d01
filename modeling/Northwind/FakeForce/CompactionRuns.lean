import Northwind.FakeForce.Compaction
import Northwind.Library.Overlay
import Mathlib.Data.List.Find
import Mathlib.Logic.Relation

/-!
# Compaction one write at a time

`compact` is cut into the points where it can crash and where other processes
can run: planning, creating the directory, publishing the merged file, and each
unlink.  `compact_run` connects the pieces back to the function.

`Answers` is the invariant: for every id, the base and the partitions on disk
are a `Overlay.Faithful` split of everything published so far.  Every step keeps
it when it meets its condition, and `serves_newest_of_run` concludes that the
view then serves exactly the newest rows at every point of every run.

A partition may be unlinked only when no older row of one of its ids is left
behind in another partition: the merged base already holds the newest row, but
any partition hides the base.
-/

namespace Northwind
namespace FakeForce

open NewestPerKey

/-! ## The rows a tree answers with -/

/-- The rows of one id. -/
def DatasetSpec.ofId (spec : DatasetSpec) (rows : List Row) (id : Option Value) : Set Row :=
  {r | r ∈ rows ∧ spec.idOf r = id}

/-- The delta partitions on disk, in path order. -/
def DatasetSpec.deltaPaths (spec : DatasetSpec) (disk : Disk) : List Path :=
  sortedSet (disk.paths.filter spec.isDeltaPath)

/-- The rows of the effective base. -/
def DatasetSpec.baseRows (spec : DatasetSpec) (disk : Disk) : List Row :=
  rowsAt spec disk.read (sortedSet (spec.effectiveBase disk))

/-- The rows of the partitions that are not base files. -/
def DatasetSpec.deltaRows (spec : DatasetSpec) (disk : Disk) : List Row :=
  rowsAt spec disk.read
    ((spec.deltaPaths disk).filter (fun path => path ∉ spec.effectiveBase disk))

/-- The view serves the newest published row of every id, once.  A row without
an id is nobody's newest row, so nothing is said about it. -/
structure ServesNewest (spec : DatasetSpec) (versionField : String)
    (published served : List Row) : Prop where
  newest : ∀ r ∈ served, (spec.idOf r).isSome = true →
    IsNewest spec.idOf (Row.version versionField) published r
  every : ∀ r ∈ published, (spec.idOf r).isSome = true →
    ∃ s ∈ served, spec.idOf s = spec.idOf r
  once : ∀ id : Option Value, id.isSome = true →
    (served.filter (fun r => spec.idOf r = id)).length ≤ 1

/-- Versions tell the published rows of an id apart. -/
def Identified (spec : DatasetSpec) (versionField : String) (rows : List Row) : Prop :=
  ∀ id : Option Value, id.isSome = true →
    Set.InjOn (Row.version versionField) (spec.ofId rows id)

/-- Every row is newer than the published rows of its id. -/
def NewerThan (spec : DatasetSpec) (versionField : String)
    (published rows : List Row) : Prop :=
  ∀ r ∈ rows, (spec.idOf r).isSome = true → ∀ r' ∈ published,
    spec.idOf r' = spec.idOf r → r'.version versionField < r.version versionField

/-- The base holds one row per id. -/
def OneRowPerId (spec : DatasetSpec) (base : List Row) : Prop :=
  ∀ id : Option Value, id.isSome = true →
    (base.filter (fun r => spec.idOf r = id)).length ≤ 1

/-- The tree still answers for everything published. -/
structure Answers (spec : DatasetSpec) (versionField : String)
    (published : List Row) (disk : Disk) : Prop where
  supported : spec.DeltasSupported disk
  baseFiles : ∀ path ∈ spec.effectiveBase disk, (disk.read path).isSome = true
  oneRow : OneRowPerId spec (spec.baseRows disk)
  identified : Identified spec versionField published
  faithful : ∀ id : Option Value, id.isSome = true →
    Overlay.Faithful (Row.version versionField) (spec.ofId published id)
      (spec.ofId (spec.baseRows disk) id) (spec.ofId (spec.deltaRows disk) id)

namespace DatasetSpec

@[simp] theorem mem_ofId (spec : DatasetSpec) (rows : List Row) (id : Option Value) (r : Row) :
    r ∈ spec.ofId rows id ↔ r ∈ rows ∧ spec.idOf r = id :=
  Iff.rfl

theorem ofId_append
    (spec : DatasetSpec) (rows rows' : List Row) (id : Option Value) :
    spec.ofId (rows ++ rows') id = spec.ofId rows id ∪ spec.ofId rows' id := by
  ext r
  simp [or_and_right]

theorem nodup_deltaPaths (spec : DatasetSpec) (disk : Disk) :
    (spec.deltaPaths disk).Nodup :=
  nodup_sortedSet _

theorem mem_deltaPaths (spec : DatasetSpec) (disk : Disk) (path : Path) :
    path ∈ spec.deltaPaths disk ↔
      (disk.read path).isSome = true ∧ spec.isDeltaPath path = true := by
  rw [deltaPaths, mem_sortedSet, List.mem_filter, disk.mem_paths]

theorem mem_baseRows (spec : DatasetSpec) (disk : Disk) (r : Row) :
    r ∈ spec.baseRows disk ↔
      ∃ path ∈ spec.effectiveBase disk, ∃ rows, disk.read path = some rows ∧
        r ∈ rows.map spec.aliased := by
  simp only [baseRows, mem_rowsAt, mem_sortedSet]

theorem mem_deltaRows (spec : DatasetSpec) (disk : Disk) (r : Row) :
    r ∈ spec.deltaRows disk ↔
      ∃ path, spec.isDeltaPath path = true ∧ path ∉ spec.effectiveBase disk ∧
        ∃ rows, disk.read path = some rows ∧ r ∈ rows.map spec.aliased := by
  rw [deltaRows, mem_rowsAt]
  constructor
  · rintro ⟨path, hpath, rows, hread, hr⟩
    obtain ⟨hdelta, hbase⟩ := List.mem_filter.mp hpath
    exact ⟨path, ((mem_deltaPaths spec disk path).mp hdelta).2, by simpa using hbase,
      rows, hread, hr⟩
  · rintro ⟨path, hdelta, hbase, rows, hread, hr⟩
    refine ⟨path, List.mem_filter.mpr ⟨?_, by simpa using hbase⟩, rows, hread, hr⟩
    exact (mem_deltaPaths spec disk path).mpr ⟨by rw [hread]; rfl, hdelta⟩

/-- The base files depend only on which merged bases are there. -/
theorem effectiveBase_congr
    (spec : DatasetSpec) {disk disk' : Disk}
    (h : ∀ root ∈ spec.deltaRoots,
      disk'.isFile (compactedFile root) = disk.isFile (compactedFile root)) :
    spec.effectiveBase disk' = spec.effectiveBase disk := by
  have hbase : spec.compactedBase disk' = spec.compactedBase disk := by
    unfold compactedBase
    apply List.find?_congr
    intro path hpath
    obtain ⟨root, hroot, rfl⟩ := List.mem_map.mp hpath
    exact h root hroot
  simp only [effectiveBase, hbase]

/-- The base rows depend only on the base files. -/
theorem baseRows_congr
    (spec : DatasetSpec) {disk disk' : Disk}
    (hbase : spec.effectiveBase disk' = spec.effectiveBase disk)
    (hread : ∀ path ∈ spec.effectiveBase disk, disk'.read path = disk.read path) :
    spec.baseRows disk' = spec.baseRows disk := by
  unfold baseRows rowsAt
  rw [hbase]
  apply List.flatMap_congr
  intro path hpath
  rw [hread path ((mem_sortedSet _ path).mp hpath)]

end DatasetSpec

theorem NoTies.identified
    {spec : DatasetSpec} {versionField : String} {rows : List Row}
    (h : NoTies spec versionField rows) :
    Identified spec versionField rows := by
  intro id _ r hr r' hr' hver
  exact h.versionsIdentify r hr.1 r' hr'.1 (hr.2.trans hr'.2.symm) hver

/-- Newer rows that tell each other apart stay apart from the older ones. -/
theorem Identified.append_newer
    {spec : DatasetSpec} {versionField : String} {published rows : List Row}
    (h : Identified spec versionField published)
    (hrows : Identified spec versionField rows)
    (hnewer : NewerThan spec versionField published rows) :
    Identified spec versionField (published ++ rows) := by
  intro id hid r hr r' hr' hver
  rw [DatasetSpec.ofId_append] at hr hr'
  rcases hr with hr | hr <;> rcases hr' with hr' | hr'
  · exact h id hid hr hr' hver
  · have hlt := hnewer r' hr'.1 (by rw [hr'.2]; exact hid) r hr.1 (hr.2.trans hr'.2.symm)
    exact absurd hver hlt.ne
  · have hlt := hnewer r hr.1 (by rw [hr.2]; exact hid) r' hr'.1 (hr'.2.trans hr.2.symm)
    exact absurd hver hlt.ne'
  · exact hrows id hid hr hr' hver

/-- A list with rows of an id has a newest one. -/
theorem exists_newest_ofId
    (spec : DatasetSpec) (versionField : String) (rows : List Row) (id : Option Value)
    (hne : (spec.ofId rows id).Nonempty) :
    ∃ r, Overlay.Newest (Row.version versionField) (spec.ofId rows id) r := by
  obtain ⟨r, hr, hid⟩ := hne
  obtain ⟨m, hm, hmid⟩ :=
    (mem_keys_newestPerKey (TieBreak.firstInScan (Row.version versionField))
      rows id).mpr ⟨r, hr, hid⟩
  obtain ⟨hmem, hmax⟩ := isNewest_of_mem_newestPerKey _ hm
  exact ⟨m, ⟨hmem, hmid⟩, fun r' hr' => hmax r' hr'.1 (hr'.2.trans hmid.symm)⟩

theorem OneRowPerId.subsingleton
    {spec : DatasetSpec} {base : List Row} (h : OneRowPerId spec base)
    {id : Option Value} (hid : id.isSome = true) :
    (spec.ofId base id).Subsingleton := by
  intro a ha b hb
  have hmem : ∀ r ∈ spec.ofId base id, r ∈ base.filter (fun r => spec.idOf r = id) :=
    fun r hr => List.mem_filter.mpr ⟨hr.1, by simpa using hr.2⟩
  have ha' := hmem a ha
  have hb' := hmem b hb
  have hlength := h id hid
  rcases hlist : base.filter (fun r => spec.idOf r = id) with _ | ⟨x, _ | ⟨y, rest⟩⟩
  · rw [hlist] at ha'
    simp at ha'
  · rw [hlist, List.mem_singleton] at ha' hb'
    rw [ha', hb']
  · rw [hlist] at hlength
    simp at hlength

/-! ## The view of a tree that answers -/

section View

variable {spec : DatasetSpec} {versionField : String}
variable {published : List Row} {disk : Disk}

theorem view_eq_antiJoinRows
    (E : RankEngine) (hversion : spec.versionField = some versionField)
    (hsupported : spec.DeltasSupported disk)
    (hbase : ∀ path ∈ spec.effectiveBase disk, (disk.read path).isSome = true) :
    view spec E disk =
      some (antiJoinRows spec E versionField (spec.baseRows disk) (spec.deltaRows disk)) := by
  have hdeltas : spec.publishedDeltas disk = .ok (spec.deltaPaths disk) :=
    (DatasetSpec.publishedDeltas_eq_ok_iff spec disk _).mpr ⟨hsupported, rfl⟩
  have hsources : spec.resolveSources disk =
      .ok (sortedSet (spec.effectiveBase disk ++ spec.deltaPaths disk)) := by
    unfold DatasetSpec.resolveSources
    rw [hdeltas]
    rfl
  have hbasePaths : (sortedSet (spec.effectiveBase disk ++ spec.deltaPaths disk)).filter
      (fun p => p ∈ spec.effectiveBase disk) = sortedSet (spec.effectiveBase disk) :=
    filter_sortedSet_append_left _ _
  have hdeltaPaths : (sortedSet (spec.effectiveBase disk ++ spec.deltaPaths disk)).filter
      (fun p => p ∉ spec.effectiveBase disk) =
        (spec.deltaPaths disk).filter (fun p => p ∉ spec.effectiveBase disk) := by
    unfold DatasetSpec.deltaPaths
    exact filter_sortedSet_append_right _ _
  have hbaseFiles : ∀ path ∈ sortedSet (spec.effectiveBase disk),
      (disk.read path).isSome = true :=
    fun path hpath => hbase path ((mem_sortedSet _ path).mp hpath)
  have hdeltaFiles : ∀ path ∈ (spec.deltaPaths disk).filter
      (fun p => p ∉ spec.effectiveBase disk), (disk.read path).isSome = true :=
    fun path hpath =>
      ((DatasetSpec.mem_deltaPaths spec disk path).mp (List.mem_filter.mp hpath).1).1
  obtain ⟨base, hbaseRows, hbaseMap⟩ := sourceReader_eq_rowsAt spec hbaseFiles
  obtain ⟨deltas, hdeltaRows, hdeltaMap⟩ := sourceReader_eq_rowsAt spec hdeltaFiles
  unfold view
  rw [hsources]
  simp only
  rw [rows_latestVersionSql E hversion (by rw [hbasePaths]; exact hbaseRows)
    (by rw [hdeltaPaths]; exact hdeltaRows), hbaseMap, hdeltaMap]
  rfl

/-- An anti-join over a faithful split serves the newest rows. -/
theorem servesNewest_antiJoinRows
    (E : RankEngine) {base deltas : List Row}
    (hidentified : Identified spec versionField published)
    (hone : OneRowPerId spec base)
    (hfaithful : ∀ id : Option Value, id.isSome = true →
      Overlay.Faithful (Row.version versionField) (spec.ofId published id)
        (spec.ofId base id) (spec.ofId deltas id)) :
    ServesNewest spec versionField published
      (antiJoinRows spec E versionField base deltas) := by
  refine ⟨?_, ?_, ?_⟩
  · intro r hr hid
    have hserved : Overlay.Served (Row.version versionField)
        (spec.ofId base (spec.idOf r)) (spec.ofId deltas (spec.idOf r)) r := by
      rcases (mem_antiJoinRows spec E versionField _ _ r).mp hr with ⟨hbase, hfree⟩ | hnew
      · refine Or.inl ⟨⟨hbase, rfl⟩, ?_⟩
        rintro ⟨d, hd, hdid⟩
        have hequal := hfree d hd
        rw [hdid] at hequal
        simp [sqlEquals, hid] at hequal
      · obtain ⟨hmem, hmax⟩ := isNewest_of_mem_newestPerKey _ hnew
        exact Or.inr ⟨⟨hmem, rfl⟩, fun r' hr' => hmax r' hr'.1 hr'.2⟩
    obtain ⟨hmem, hmax⟩ := (hfaithful _ hid).newest_of_served (hidentified _ hid)
      (hone.subsingleton hid) (exists_newest_ofId spec versionField published _) hserved
    exact ⟨hmem.1, fun r' hr' hkey => hmax r' ⟨hr', hkey⟩⟩
  · intro r hr hid
    obtain ⟨top, htop⟩ :=
      exists_newest_ofId spec versionField published (spec.idOf r) ⟨r, hr, rfl⟩
    have hstored : top ∈ base ++ deltas := by
      rcases (hfaithful _ hid).newest_stored top htop with hb | hd
      · exact List.mem_append_left _ hb.1
      · exact List.mem_append_right _ hd.1
    obtain ⟨s, hs, hsid⟩ := exists_mem_antiJoinRows E _ _ hstored
    exact ⟨s, hs, hsid.trans htop.1.2⟩
  · intro id hid
    exact length_filter_antiJoinRows_le E _ _ hid (hone id hid)

/-- A tree that answers has a view, and it serves the newest rows published. -/
theorem Answers.serves
    (E : RankEngine) (hversion : spec.versionField = some versionField)
    (h : Answers spec versionField published disk) :
    ∃ served, view spec E disk = some served ∧
      ServesNewest spec versionField published served :=
  ⟨_, view_eq_antiJoinRows E hversion h.supported h.baseFiles,
    servesNewest_antiJoinRows E h.identified h.oneRow h.faithful⟩

end View

/-! ## The compactor, write by write -/

/-- Where the compactor process stands. -/
inductive CompactorPhase where
  | idle
  | planned (p : CompactionPlan)
  /-- The merged file is published; these partitions are still to be unlinked. -/
  | removing (p : CompactionPlan) (rest : List Path)

/-- The partitions the compaction in progress has listed. -/
def CompactorPhase.listed : CompactorPhase → List Path
  | .idle => []
  | .planned p => p.partitions
  | .removing p _ => p.partitions

/-- The tree, the compactor, and every row published so far. -/
structure CompactionState where
  disk : Disk
  phase : CompactorPhase
  published : List Row

inductive CompactionAction where
  | publish (path : Path) (rows : List Row)
  | plan (host : Host)
  | prepare
  | merge
  | unlink
  | finish
  | crash

/-- One step.  A published partition is new: no file is at its path, the
compaction in progress does not list it, and its rows are newer than the
published rows of their ids. -/
inductive CompactionStep (spec : DatasetSpec) (E : RankEngine) (versionField : String) :
    CompactionState → CompactionAction → CompactionState → Prop
  | publish {s : CompactionState} {path : Path} {rows : List Row}
      (delta : spec.isDeltaPath path = true)
      (supported : DatasetSpec.supported path = true)
      (fresh : s.disk.read path = none)
      (unlisted : path ∉ s.phase.listed)
      (newer : NewerThan spec versionField s.published (rows.map spec.aliased))
      (identified : Identified spec versionField (rows.map spec.aliased)) :
      CompactionStep spec E versionField s (.publish path rows)
        { s with
          disk := (s.disk.mkdirs path.parent).replace path rows
          published := s.published ++ rows.map spec.aliased }
  | plan {s : CompactionState} {host : Host} {p : CompactionPlan}
      (idle : s.phase = .idle)
      (planned : FakeForce.plan spec host s.disk = .ok p)
      (worthwhile : p.partitions ≠ []) :
      CompactionStep spec E versionField s (.plan host) { s with phase := .planned p }
  | prepare {s : CompactionState} {p : CompactionPlan}
      (planned : s.phase = .planned p) :
      CompactionStep spec E versionField s .prepare
        { s with disk := s.disk.mkdirs p.compactedPath.parent }
  | merge {s : CompactionState} {p : CompactionPlan} {disk : Disk} {written : Nat}
      (planned : s.phase = .planned p)
      (write : writeMerged spec E s.disk (p.basePaths ++ p.partitions) p.compactedPath =
        some (disk, written)) :
      CompactionStep spec E versionField s .merge
        { s with disk := disk, phase := .removing p p.partitions }
  | unlink {s : CompactionState} {p : CompactionPlan} {path : Path} {rest : List Path}
      (removing : s.phase = .removing p (path :: rest)) :
      CompactionStep spec E versionField s .unlink
        { s with disk := (removePartition s.disk path).1, phase := .removing p rest }
  | finish {s : CompactionState} {p : CompactionPlan}
      (removing : s.phase = .removing p []) :
      CompactionStep spec E versionField s .finish { s with phase := .idle }
  | crash {s : CompactionState} :
      CompactionStep spec E versionField s .crash { s with phase := .idle }

/-- Unlinking `path` leaves no older row of one of its ids in front: of every id
that another partition holds, one of the other partitions holds a row at least
as new. -/
def LeavesNewest (spec : DatasetSpec) (versionField : String) (disk : Disk) (path : Path) :
    Prop :=
  ∀ r ∈ rowsAt spec disk.read [path], (spec.idOf r).isSome = true →
    (∃ d ∈ rowsAt spec disk.read ((spec.deltaPaths disk).erase path),
      spec.idOf d = spec.idOf r) →
    ∃ d ∈ rowsAt spec disk.read ((spec.deltaPaths disk).erase path),
      spec.idOf d = spec.idOf r ∧ r.version versionField ≤ d.version versionField

/-- What a step must meet, judged on the state before it. -/
def MeetsCondition (spec : DatasetSpec) (versionField : String) (s : CompactionState) :
    CompactionAction → Prop
  | .plan host => WriterMatchesReader spec host s.disk
  | .unlink => ∀ p path rest, s.phase = .removing p (path :: rest) →
      LeavesNewest spec versionField s.disk path
  | _ => True

/-- The plan still describes the tree. -/
structure PlanStands (spec : DatasetSpec) (disk : Disk) (p : CompactionPlan) : Prop where
  basePaths : p.basePaths = spec.effectiveBase disk
  partitions : ∀ path ∈ p.partitions, spec.isDeltaPath path = true
  destination : ∃ root ∈ spec.deltaRoots, p.compactedPath = DatasetSpec.compactedFile root ∧
    ∀ earlier ∈ spec.deltaRoots, earlier < root →
      disk.isFile (DatasetSpec.compactedFile earlier) = false

/-- The merged base is what the reader takes, and it covers what is left of the
listed partitions. -/
structure RemovalStands (spec : DatasetSpec) (versionField : String) (disk : Disk)
    (p : CompactionPlan) (rest : List Path) : Prop where
  partitions : ∀ path ∈ rest, spec.isDeltaPath path = true
  listed : ∀ path ∈ rest, path ∈ p.partitions
  removed : ∀ path ∈ p.partitions, path ∉ rest → disk.read path = none
  base : ∃ root, spec.effectiveBase disk = [DatasetSpec.compactedFile root]
  covered : ∀ r ∈ rowsAt spec disk.read rest, (spec.idOf r).isSome = true →
    ∃ b ∈ spec.baseRows disk, spec.idOf b = spec.idOf r ∧
      r.version versionField ≤ b.version versionField

/-- What holds of the compactor between two steps. -/
def PhaseInvariant (spec : DatasetSpec) (versionField : String) (disk : Disk) :
    CompactorPhase → Prop
  | .idle => True
  | .planned p => PlanStands spec disk p
  | .removing p rest => RemovalStands spec versionField disk p rest

/-- The invariant of a run. -/
structure RunInvariant (spec : DatasetSpec) (versionField : String) (s : CompactionState) :
    Prop where
  answers : Answers spec versionField s.published s.disk
  phase : PhaseInvariant spec versionField s.disk s.phase

/-! ## Each step keeps the invariant -/

theorem DatasetSpec.ne_compactedFile_of_isDeltaPath
    {spec : DatasetSpec} {path : Path} (h : spec.isDeltaPath path = true) (root : Path) :
    path ≠ compactedFile root := by
  intro heq
  rw [heq, isDeltaPath_compactedFile] at h
  cases h

/-- Writing or removing one partition does not move the base. -/
theorem DatasetSpec.effectiveBase_of_read_eq
    {spec : DatasetSpec} {disk disk' : Disk} {path : Path}
    (hdelta : spec.isDeltaPath path = true)
    (hread : ∀ q, q ≠ path → disk'.read q = disk.read q) :
    spec.effectiveBase disk' = spec.effectiveBase disk := by
  apply spec.effectiveBase_congr
  intro root _
  rw [Disk.isFile_eq_read, Disk.isFile_eq_read,
    hread _ (ne_compactedFile_of_isDeltaPath hdelta root).symm]

section Steps

variable {spec : DatasetSpec} {E : RankEngine} {versionField : String}
variable {published : List Row} {disk : Disk}

/-- Publishing a new, newer partition. -/
theorem Answers.publish
    (h : Answers spec versionField published disk)
    {path : Path} {rows : List Row}
    (hdelta : spec.isDeltaPath path = true)
    (hsupported : DatasetSpec.supported path = true)
    (hfresh : disk.read path = none)
    (hnewer : NewerThan spec versionField published (rows.map spec.aliased))
    (hidentified : Identified spec versionField (rows.map spec.aliased)) :
    Answers spec versionField (published ++ rows.map spec.aliased)
      ((disk.mkdirs path.parent).replace path rows) := by
  have hself : ((disk.mkdirs path.parent).replace path rows).read path = some rows :=
    Disk.read_replace_self _ _ _
  have hother : ∀ q, q ≠ path →
      ((disk.mkdirs path.parent).replace path rows).read q = disk.read q := by
    intro q hq
    rw [Disk.read_replace_of_ne _ _ hq, Disk.read_mkdirs]
  have heffective := DatasetSpec.effectiveBase_of_read_eq hdelta hother
  have hnotBase : path ∉ spec.effectiveBase disk := by
    intro hmem
    have hfile := h.baseFiles path hmem
    rw [hfresh] at hfile
    cases hfile
  have hbaseRead : ∀ q ∈ spec.effectiveBase disk,
      ((disk.mkdirs path.parent).replace path rows).read q = disk.read q :=
    fun q hq => hother q (fun heq => hnotBase (heq ▸ hq))
  have hbaseRows := spec.baseRows_congr heffective hbaseRead
  have hdeltaRows : ∀ r, r ∈ spec.deltaRows ((disk.mkdirs path.parent).replace path rows) ↔
      r ∈ spec.deltaRows disk ∨ r ∈ rows.map spec.aliased := by
    intro r
    rw [DatasetSpec.mem_deltaRows, DatasetSpec.mem_deltaRows, heffective]
    constructor
    · rintro ⟨q, hq, hqbase, content, hread, hr⟩
      by_cases heq : q = path
      · rw [heq, hself] at hread
        cases hread
        exact Or.inr hr
      · rw [hother q heq] at hread
        exact Or.inl ⟨q, hq, hqbase, content, hread, hr⟩
    · rintro (⟨q, hq, hqbase, content, hread, hr⟩ | hr)
      · have hne : q ≠ path := by
          intro heq
          rw [heq, hfresh] at hread
          cases hread
        exact ⟨q, hq, hqbase, content, (hother q hne).trans hread, hr⟩
      · exact ⟨path, hdelta, hnotBase, rows, hself, hr⟩
  constructor
  · intro q hread hmatch
    by_cases heq : q = path
    · rw [heq]
      exact hsupported
    · rw [hother q heq] at hread
      exact h.supported q hread hmatch
  · rw [heffective]
    intro q hq
    rw [hbaseRead q hq]
    exact h.baseFiles q hq
  · rw [hbaseRows]
    exact h.oneRow
  · exact h.identified.append_newer hidentified hnewer
  · intro id hid
    have hnewerId : ∀ r ∈ spec.ofId (rows.map spec.aliased) id,
        ∀ r' ∈ spec.ofId published id, r'.version versionField < r.version versionField :=
      fun r hr r' hr' =>
        hnewer r hr.1 (by rw [hr.2]; exact hid) r' hr'.1 (hr'.2.trans hr.2.symm)
    have hoverlay : spec.ofId
        (spec.deltaRows ((disk.mkdirs path.parent).replace path rows)) id =
          spec.ofId (spec.deltaRows disk) id ∪ spec.ofId (rows.map spec.aliased) id := by
      ext r
      simp only [DatasetSpec.mem_ofId, Set.mem_union, hdeltaRows r]
      tauto
    rw [DatasetSpec.ofId_append, hbaseRows, hoverlay]
    exact (h.faithful id hid).publish hnewerId

/-- Nothing but directories changed. -/
theorem Answers.of_read_eq
    (h : Answers spec versionField published disk) {disk' : Disk}
    (hread : disk'.read = disk.read) :
    Answers spec versionField published disk' := by
  have heffective : spec.effectiveBase disk' = spec.effectiveBase disk :=
    spec.effectiveBase_congr (fun root _ => by
      rw [Disk.isFile_eq_read, Disk.isFile_eq_read, hread])
  have hbaseRows := spec.baseRows_congr heffective (fun q _ => by rw [hread])
  constructor
  · intro q hq
    rw [hread] at hq
    exact h.supported q hq
  · rw [heffective, hread]
    exact h.baseFiles
  · rw [hbaseRows]
    exact h.oneRow
  · exact h.identified
  · intro id hid
    have hoverlay : spec.ofId (spec.deltaRows disk') id =
        spec.ofId (spec.deltaRows disk) id := by
      ext r
      simp only [DatasetSpec.mem_ofId, DatasetSpec.mem_deltaRows, heffective, hread]
    rw [hbaseRows, hoverlay]
    exact h.faithful id hid

/-- Publishing the merged file of a plan made on these base files. -/
theorem Answers.merge
    (h : Answers spec versionField published disk)
    (hversion : spec.versionField = some versionField)
    {p : CompactionPlan} {root : Path} {disk' : Disk} {written : Nat}
    (hroot : root ∈ spec.deltaRoots)
    (hpath : p.compactedPath = DatasetSpec.compactedFile root)
    (hearlier : ∀ earlier ∈ spec.deltaRoots, earlier < root →
      disk.isFile (DatasetSpec.compactedFile earlier) = false)
    (hbasePaths : p.basePaths = spec.effectiveBase disk)
    (hpartitions : ∀ path ∈ p.partitions, spec.isDeltaPath path = true)
    (hwrite : writeMerged spec E disk (p.basePaths ++ p.partitions) p.compactedPath =
      some (disk', written)) :
    Answers spec versionField published disk' ∧
      spec.effectiveBase disk' = [DatasetSpec.compactedFile root] ∧
      (∀ q, q ≠ DatasetSpec.compactedFile root → disk'.read q = disk.read q) ∧
      ∀ r ∈ rowsAt spec disk.read (p.basePaths ++ p.partitions),
        ∃ b ∈ spec.baseRows disk', spec.idOf b = spec.idOf r ∧
          r.version versionField ≤ b.version versionField := by
  unfold writeMerged at hwrite
  rw [hversion] at hwrite
  simp only [Option.bind_eq_bind, Option.bind_some, Option.bind_eq_some_iff] at hwrite
  obtain ⟨rows, hrows, hpublished⟩ := hwrite
  cases hpublished
  rw [hpath]
  have hother : ∀ q, q ≠ DatasetSpec.compactedFile root →
      (disk.replace (DatasetSpec.compactedFile root)
        (mergedRows spec E versionField rows)).read q = disk.read q :=
    fun q hq => Disk.read_replace_of_ne disk _ hq
  have hself : (disk.replace (DatasetSpec.compactedFile root)
      (mergedRows spec E versionField rows)).read (DatasetSpec.compactedFile root) =
        some (mergedRows spec E versionField rows) :=
    Disk.read_replace_self _ _ _
  generalize disk.replace (DatasetSpec.compactedFile root)
    (mergedRows spec E versionField rows) = after at hother hself ⊢
  have heffective : spec.effectiveBase after = [DatasetSpec.compactedFile root] := by
    rw [DatasetSpec.effectiveBase_eq_compactedFile_iff hroot
      (by rw [Disk.isFile_eq_read, hself]; rfl)]
    intro earlier hmem hlt
    rw [Disk.isFile_eq_read,
      hother _ (fun heq => hlt.ne (DatasetSpec.compactedFile_injective heq)),
      ← Disk.isFile_eq_read]
    exact hearlier earlier hmem hlt
  have hbaseRows : ∀ r, r ∈ spec.baseRows after ↔
      r ∈ (mergedRows spec E versionField rows).map spec.aliased := by
    intro r
    simp [DatasetSpec.mem_baseRows, heffective, hself]
  -- Every merged row was in the base or in a partition.
  have hsource : ∀ raw ∈ rows,
      spec.aliased raw ∈ spec.baseRows disk ∨ spec.aliased raw ∈ spec.deltaRows disk := by
    intro raw hraw
    obtain ⟨path, hmem, content, hread, hr⟩ := (mem_of_sourceReader hrows raw).mp hraw
    rw [DatasetSpec.mem_baseRows, DatasetSpec.mem_deltaRows]
    by_cases hbase : path ∈ spec.effectiveBase disk
    · exact Or.inl ⟨path, hbase, content, hread, List.mem_map_of_mem hr⟩
    · rcases List.mem_append.mp hmem with hmem | hmem
      · exact absurd (hbasePaths ▸ hmem) hbase
      · exact Or.inr ⟨path, hpartitions path hmem, hbase, content, hread,
          List.mem_map_of_mem hr⟩
  have hcovers : ∀ raw ∈ rows, ∃ b ∈ spec.baseRows after,
      spec.idOf b = spec.idOf raw ∧
        (spec.aliased raw).version versionField ≤ b.version versionField := by
    intro raw hraw
    obtain ⟨m, hm, hmid⟩ :=
      (mem_keys_newestPerKey (E (spec.versionColumn versionField)) rows
        (spec.idOf raw)).mpr ⟨raw, hraw, rfl⟩
    have hnewest := isNewest_of_mem_newestPerKey _ hm
    refine ⟨spec.aliased m, (hbaseRows _).mpr (List.mem_map_of_mem hm), ?_, ?_⟩
    · rw [DatasetSpec.idOf_aliased, hmid]
    · rw [version_aliased, version_aliased]
      exact hnewest.2 raw hraw hmid.symm
  have hdrawn : ∀ b ∈ spec.baseRows after,
      b ∈ spec.baseRows disk ∨ b ∈ spec.deltaRows disk := by
    intro b hb
    obtain ⟨m, hm, rfl⟩ := List.mem_map.mp ((hbaseRows b).mp hb)
    exact hsource m (isNewest_of_mem_newestPerKey _ hm).1
  refine ⟨?_, heffective, hother, ?_⟩
  · constructor
    · intro q hread hmatch
      by_cases heq : q = DatasetSpec.compactedFile root
      · rw [heq]
        exact DatasetSpec.supported_compactedFile root
      · rw [hother q heq] at hread
        exact h.supported q hread hmatch
    · intro q hq
      rw [heffective, List.mem_singleton] at hq
      rw [hq, hself]
      rfl
    · intro id _
      have hlist : spec.baseRows after =
          (mergedRows spec E versionField rows).map spec.aliased := by
        unfold DatasetSpec.baseRows
        rw [heffective]
        simp [sortedSet, rowsAt, hself]
      rw [hlist]
      apply length_filter_idOf_le_one
      have hnodup : ((mergedRows spec E versionField rows).map spec.idOf).Nodup :=
        nodup_keys_newestPerKey _ rows
      simpa [List.map_map, Function.comp_def] using hnodup
    · exact h.identified
    · intro id hid
      refine (h.faithful id hid).merge (h.oneRow.subsingleton hid) ?_ ?_ ?_ ?_
      · intro b hb
        exact (hdrawn b hb.1).imp (fun hmem => ⟨hmem, hb.2⟩) (fun hmem => ⟨hmem, hb.2⟩)
      · intro r hr hnewest
        obtain ⟨path, hmem, content, hread, hraw⟩ := (DatasetSpec.mem_baseRows spec disk r).mp hr.1
        obtain ⟨raw, hrawmem, rfl⟩ := List.mem_map.mp hraw
        have hrawRows : raw ∈ rows := by
          rw [mem_of_sourceReader hrows]
          exact ⟨path, List.mem_append_left _ (hbasePaths ▸ hmem), content, hread, hrawmem⟩
        obtain ⟨b, hb, hbid, hle⟩ := hcovers raw hrawRows
        have hbId : spec.idOf b = id := by
          rw [hbid, ← DatasetSpec.idOf_aliased]
          exact hr.2
        have hbPublished : b ∈ spec.ofId published id := by
          rcases hdrawn b hb with hmem' | hmem'
          · exact (h.faithful id hid).base_published ⟨hmem', hbId⟩
          · exact (h.faithful id hid).overlay_published ⟨hmem', hbId⟩
        have heq := h.identified id hid hnewest.1 hbPublished
          (le_antisymm hle (hnewest.2 b hbPublished))
        rw [heq]
        exact ⟨hb, hbId⟩
      · rintro r ⟨hr, hrid⟩
        obtain ⟨q, hq, _, content, hread, hmem⟩ := (DatasetSpec.mem_deltaRows spec disk r).mp hr
        have hne := DatasetSpec.ne_compactedFile_of_isDeltaPath hq root
        refine ⟨(DatasetSpec.mem_deltaRows spec after r).mpr ⟨q, hq, ?_, content, ?_, hmem⟩, hrid⟩
        · rw [heffective, List.mem_singleton]
          exact hne
        · rw [hother q hne]
          exact hread
      · rintro r ⟨hr, hrid⟩
        obtain ⟨q, hq, _, content, hread, hmem⟩ :=
          (DatasetSpec.mem_deltaRows spec after r).mp hr
        rw [hother q (DatasetSpec.ne_compactedFile_of_isDeltaPath hq root)] at hread
        by_cases hbase : q ∈ spec.effectiveBase disk
        · exact Or.inl ⟨(DatasetSpec.mem_baseRows spec disk r).mpr
            ⟨q, hbase, content, hread, hmem⟩, hrid⟩
        · exact Or.inr ⟨(DatasetSpec.mem_deltaRows spec disk r).mpr
            ⟨q, hq, hbase, content, hread, hmem⟩, hrid⟩
  · intro r hr
    obtain ⟨path, hmem, content, hread, hraw⟩ := (mem_rowsAt r).mp hr
    obtain ⟨raw, hrawmem, rfl⟩ := List.mem_map.mp hraw
    rw [DatasetSpec.idOf_aliased]
    apply hcovers raw
    rw [mem_of_sourceReader hrows]
    exact ⟨path, hmem, content, hread, hrawmem⟩

/-- Unlinking a merged partition that leaves the newest rows in front. -/
theorem Answers.unlink
    (h : Answers spec versionField published disk)
    {path root : Path}
    (hdelta : spec.isDeltaPath path = true)
    (heffective : spec.effectiveBase disk = [DatasetSpec.compactedFile root])
    (hcovered : ∀ r ∈ rowsAt spec disk.read [path], (spec.idOf r).isSome = true →
      ∃ b ∈ spec.baseRows disk, spec.idOf b = spec.idOf r ∧
        r.version versionField ≤ b.version versionField)
    (hsafe : LeavesNewest spec versionField disk path) :
    Answers spec versionField published (removePartition disk path).1 := by
  have hself := read_removePartition_self disk path
  have hother : ∀ q, q ≠ path → (removePartition disk path).1.read q = disk.read q :=
    fun q hq => read_removePartition_of_ne disk hq
  generalize (removePartition disk path).1 = after at hself hother ⊢
  have heffective' := DatasetSpec.effectiveBase_of_read_eq hdelta hother
  have hbaseRead : ∀ q ∈ spec.effectiveBase disk, after.read q = disk.read q := by
    intro q hq
    rw [heffective, List.mem_singleton] at hq
    rw [hq]
    exact hother _ (DatasetSpec.ne_compactedFile_of_isDeltaPath hdelta root).symm
  have hbaseRows := spec.baseRows_congr heffective' hbaseRead
  -- The partitions left are the others, and the base is not one of them.
  have hleft : ∀ r, r ∈ spec.deltaRows after ↔
      r ∈ rowsAt spec disk.read ((spec.deltaPaths disk).erase path) := by
    intro r
    rw [DatasetSpec.mem_deltaRows, mem_rowsAt]
    constructor
    · rintro ⟨q, hq, _, content, hread, hr⟩
      have hne : q ≠ path := by
        intro heq
        rw [heq, hself] at hread
        cases hread
      rw [hother q hne] at hread
      refine ⟨q, ?_, content, hread, hr⟩
      rw [(spec.nodup_deltaPaths disk).mem_erase_iff]
      exact ⟨hne, (DatasetSpec.mem_deltaPaths spec disk q).mpr ⟨by rw [hread]; rfl, hq⟩⟩
    · rintro ⟨q, hq, content, hread, hr⟩
      obtain ⟨hne, hmem⟩ := (spec.nodup_deltaPaths disk).mem_erase_iff.mp hq
      have hqdelta := ((DatasetSpec.mem_deltaPaths spec disk q).mp hmem).2
      refine ⟨q, hqdelta, ?_, content, (hother q hne).trans hread, hr⟩
      rw [heffective', heffective, List.mem_singleton]
      exact DatasetSpec.ne_compactedFile_of_isDeltaPath hqdelta root
  have hsub : ∀ r ∈ spec.deltaRows after, r ∈ spec.deltaRows disk := by
    intro r hr
    obtain ⟨q, hq, hbase, content, hread, hmem⟩ :=
      (DatasetSpec.mem_deltaRows spec after r).mp hr
    have hne : q ≠ path := by
      intro heq
      rw [heq, hself] at hread
      cases hread
    rw [hother q hne] at hread
    rw [heffective'] at hbase
    exact (DatasetSpec.mem_deltaRows spec disk r).mpr ⟨q, hq, hbase, content, hread, hmem⟩
  have hdropped : ∀ r ∈ spec.deltaRows disk, r ∉ spec.deltaRows after →
      r ∈ rowsAt spec disk.read [path] := by
    intro r hr hgone
    obtain ⟨q, hq, hbase, content, hread, hmem⟩ := (DatasetSpec.mem_deltaRows spec disk r).mp hr
    have heq : q = path := by
      by_contra hne
      apply hgone
      refine (DatasetSpec.mem_deltaRows spec after r).mpr ⟨q, hq, ?_, content, ?_, hmem⟩
      · rw [heffective']
        exact hbase
      · rw [hother q hne]
        exact hread
    rw [mem_rowsAt]
    exact ⟨path, List.mem_singleton_self path, content, heq ▸ hread, hmem⟩
  constructor
  · intro q hread hmatch
    by_cases heq : q = path
    · rw [heq, hself] at hread
      cases hread
    · rw [hother q heq] at hread
      exact h.supported q hread hmatch
  · rw [heffective']
    intro q hq
    rw [hbaseRead q hq]
    exact h.baseFiles q hq
  · rw [hbaseRows]
    exact h.oneRow
  · exact h.identified
  · intro id hid
    rw [hbaseRows]
    apply (h.faithful id hid).drop (h.identified id hid)
    · intro r hr
      exact ⟨hsub r hr.1, hr.2⟩
    · intro r hr hgone
      have hr' := hdropped r hr.1 (fun hmem => hgone ⟨hmem, hr.2⟩)
      obtain ⟨b, hb, hbid, hle⟩ := hcovered r hr' (by rw [hr.2]; exact hid)
      exact ⟨b, ⟨hb, hbid.trans hr.2⟩, hle⟩
    · rintro r hr hgone ⟨d, hd⟩
      have hr' := hdropped r hr.1 (fun hmem => hgone ⟨hmem, hr.2⟩)
      obtain ⟨d', hd', hdid, hle⟩ := hsafe r hr' (by rw [hr.2]; exact hid)
        ⟨d, (hleft d).mp hd.1, hd.2.trans hr.2.symm⟩
      exact ⟨d', ⟨(hleft d').mpr hd', hdid.trans hr.2⟩, hle⟩

/-- A plan survives changes to a single partition. -/
theorem PlanStands.of_read_eq_off
    {p : CompactionPlan} (h : PlanStands spec disk p)
    {path : Path} {disk' : Disk} (hdelta : spec.isDeltaPath path = true)
    (hother : ∀ q, q ≠ path → disk'.read q = disk.read q) :
    PlanStands spec disk' p := by
  obtain ⟨root, hroot, hpath, hearlier⟩ := h.destination
  refine ⟨?_, h.partitions, root, hroot, hpath, ?_⟩
  · rw [DatasetSpec.effectiveBase_of_read_eq hdelta hother]
    exact h.basePaths
  · intro earlier hmem hlt
    have hne := (DatasetSpec.ne_compactedFile_of_isDeltaPath hdelta earlier).symm
    rw [Disk.isFile_eq_read, hother _ hne, ← Disk.isFile_eq_read]
    exact hearlier earlier hmem hlt

/-- A base that is a merged file is untouched by changes to one partition. -/
theorem baseRows_of_read_eq_off
    {root path : Path} {disk' : Disk}
    (hbase : spec.effectiveBase disk = [DatasetSpec.compactedFile root])
    (hdelta : spec.isDeltaPath path = true)
    (hother : ∀ q, q ≠ path → disk'.read q = disk.read q) :
    spec.baseRows disk' = spec.baseRows disk := by
  apply spec.baseRows_congr (DatasetSpec.effectiveBase_of_read_eq hdelta hother)
  intro q hq
  rw [hbase, List.mem_singleton] at hq
  rw [hq]
  exact hother _ (DatasetSpec.ne_compactedFile_of_isDeltaPath hdelta root).symm

/-- A removal survives the publication of a partition it does not list. -/
theorem RemovalStands.publish
    {p : CompactionPlan} {rest : List Path}
    (h : RemovalStands spec versionField disk p rest)
    {path : Path} {disk' : Disk} (hdelta : spec.isDeltaPath path = true)
    (hunlisted : path ∉ p.partitions)
    (hother : ∀ q, q ≠ path → disk'.read q = disk.read q) :
    RemovalStands spec versionField disk' p rest := by
  obtain ⟨root, hbase⟩ := h.base
  have hlisted : ∀ q ∈ p.partitions, disk'.read q = disk.read q :=
    fun q hq => hother q (fun heq => hunlisted (heq ▸ hq))
  refine ⟨h.partitions, h.listed, ?_, ⟨root, ?_⟩, ?_⟩
  · intro q hq hgone
    rw [hlisted q hq]
    exact h.removed q hq hgone
  · rw [DatasetSpec.effectiveBase_of_read_eq hdelta hother]
    exact hbase
  · intro r hr hid
    rw [baseRows_of_read_eq_off hbase hdelta hother]
    apply h.covered r _ hid
    obtain ⟨q, hq, content, hread, hmem⟩ := (mem_rowsAt r).mp hr
    rw [hlisted q (h.listed q hq)] at hread
    exact (mem_rowsAt r).mpr ⟨q, hq, content, hread, hmem⟩

/-- Unlinking the next partition of a removal. -/
theorem RemovalStands.unlink
    {p : CompactionPlan} {path : Path} {rest : List Path}
    (h : RemovalStands spec versionField disk p (path :: rest)) :
    RemovalStands spec versionField (removePartition disk path).1 p rest := by
  obtain ⟨root, hbase⟩ := h.base
  have hdelta := h.partitions path List.mem_cons_self
  have hself := read_removePartition_self disk path
  have hother : ∀ q, q ≠ path → (removePartition disk path).1.read q = disk.read q :=
    fun q hq => read_removePartition_of_ne disk hq
  refine ⟨fun q hq => h.partitions q (List.mem_cons_of_mem _ hq),
    fun q hq => h.listed q (List.mem_cons_of_mem _ hq), ?_, ⟨root, ?_⟩, ?_⟩
  · intro q hq hgone
    by_cases heq : q = path
    · rw [heq]
      exact hself
    · rw [hother q heq]
      exact h.removed q hq (by simp [heq, hgone])
  · rw [DatasetSpec.effectiveBase_of_read_eq hdelta hother]
    exact hbase
  · intro r hr hid
    rw [baseRows_of_read_eq_off hbase hdelta hother]
    apply h.covered r _ hid
    obtain ⟨q, hq, content, hread, hmem⟩ := (mem_rowsAt r).mp hr
    have hne : q ≠ path := by
      intro heq
      rw [heq, hself] at hread
      cases hread
    rw [hother q hne] at hread
    exact (mem_rowsAt r).mpr ⟨q, List.mem_cons_of_mem _ hq, content, hread, hmem⟩

/-- One step that meets its condition keeps the invariant. -/
theorem RunInvariant.step
    (hversion : spec.versionField = some versionField)
    {s s' : CompactionState} {a : CompactionAction}
    (h : RunInvariant spec versionField s)
    (hstep : CompactionStep spec E versionField s a s')
    (hmeets : MeetsCondition spec versionField s a) :
    RunInvariant spec versionField s' := by
  obtain ⟨hanswers, hphase⟩ := h
  cases hstep with
  | @publish path rows hdelta hsupported hfresh hunlisted hnewer hidentified =>
      refine ⟨hanswers.publish hdelta hsupported hfresh hnewer hidentified, ?_⟩
      have hother : ∀ q, q ≠ path →
          ((s.disk.mkdirs path.parent).replace path rows).read q = s.disk.read q := by
        intro q hq
        rw [Disk.read_replace_of_ne _ _ hq, Disk.read_mkdirs]
      obtain ⟨disk, phase, published⟩ := s
      cases phase with
      | idle => trivial
      | planned p => exact PlanStands.of_read_eq_off hphase hdelta hother
      | removing p rest => exact RemovalStands.publish hphase hdelta hunlisted hother
  | @plan host p hidle hplan _ =>
      obtain ⟨_, _, hdeltas, _, hbase, root, hroot, hpath⟩ :=
        (plan_eq_ok_iff spec host s.disk p).mp hplan
      have hpartitions : ∀ path ∈ p.partitions, spec.isDeltaPath path = true :=
        fun path hmem => ((DatasetSpec.mem_publishedDeltas hdeltas path).mp hmem).2
      exact ⟨hanswers, hbase, hpartitions, root, DatasetSpec.writableRoot_mem hroot, hpath,
        hmeets root hroot⟩
  | @prepare p hplanned =>
      rw [hplanned] at hphase
      have hread := Disk.read_mkdirs s.disk p.compactedPath.parent
      refine ⟨hanswers.of_read_eq hread, ?_⟩
      obtain ⟨root, hroot, hpath, hearlier⟩ := hphase.destination
      rw [hplanned]
      refine ⟨?_, hphase.partitions, root, hroot, hpath, ?_⟩
      · rw [hphase.basePaths]
        exact (spec.effectiveBase_congr (fun root _ => by
          rw [Disk.isFile_eq_read, Disk.isFile_eq_read, hread])).symm
      · intro earlier hmem hlt
        rw [Disk.isFile_eq_read, hread, ← Disk.isFile_eq_read]
        exact hearlier earlier hmem hlt
  | @merge p disk' written hplanned hwrite =>
      rw [hplanned] at hphase
      obtain ⟨root, hroot, hpath, hearlier⟩ := hphase.destination
      obtain ⟨hanswers', hbase, hother, hcovered⟩ := hanswers.merge hversion hroot hpath
        hearlier hphase.basePaths hphase.partitions hwrite
      refine ⟨hanswers', hphase.partitions, fun _ hmem => hmem,
        fun _ hmem hgone => absurd hmem hgone, ⟨root, hbase⟩, ?_⟩
      intro r hr _
      apply hcovered r
      obtain ⟨q, hq, content, hread, hmem⟩ := (mem_rowsAt r).mp hr
      rw [hother q (DatasetSpec.ne_compactedFile_of_isDeltaPath
        (hphase.partitions q hq) root)] at hread
      exact (mem_rowsAt r).mpr ⟨q, List.mem_append_right _ hq, content, hread, hmem⟩
  | @unlink p path rest hremoving =>
      rw [hremoving] at hphase
      obtain ⟨root, hbase⟩ := hphase.base
      have hcovered : ∀ r ∈ rowsAt spec s.disk.read [path], (spec.idOf r).isSome = true →
          ∃ b ∈ spec.baseRows s.disk, spec.idOf b = spec.idOf r ∧
            r.version versionField ≤ b.version versionField := by
        intro r hr
        apply hphase.covered r
        obtain ⟨q, hq, content, hread, hmem⟩ := (mem_rowsAt r).mp hr
        rw [List.mem_singleton] at hq
        exact (mem_rowsAt r).mpr ⟨q, by rw [hq]; exact List.mem_cons_self, content, hread, hmem⟩
      exact ⟨hanswers.unlink (hphase.partitions path List.mem_cons_self) hbase hcovered
        (hmeets p path rest hremoving), hphase.unlink⟩
  | finish _ => exact ⟨hanswers, trivial⟩
  | crash => exact ⟨hanswers, trivial⟩

/-! ## Whole runs -/

/-- A base with one row per id under partitions newer than it. -/
structure FreshlyPublished (spec : DatasetSpec) (versionField : String) (disk : Disk) :
    Prop where
  supported : spec.DeltasSupported disk
  baseFiles : ∀ path ∈ spec.effectiveBase disk, (disk.read path).isSome = true
  oneRow : OneRowPerId spec (spec.baseRows disk)
  identified : Identified spec versionField (spec.baseRows disk ++ spec.deltaRows disk)
  newer : NewerThan spec versionField (spec.baseRows disk) (spec.deltaRows disk)

/-- A base with one row per id, of which no row is newer than all rows of its id in
the partitions laid over it. -/
structure RightAtRest (spec : DatasetSpec) (versionField : String) (disk : Disk) :
    Prop where
  supported : spec.DeltasSupported disk
  baseFiles : ∀ path ∈ spec.effectiveBase disk, (disk.read path).isSome = true
  oneRow : OneRowPerId spec (spec.baseRows disk)
  identified : Identified spec versionField (spec.baseRows disk ++ spec.deltaRows disk)
  superseded : ∀ b ∈ spec.baseRows disk, (spec.idOf b).isSome = true →
    (∃ d ∈ spec.deltaRows disk, spec.idOf d = spec.idOf b) →
      ∃ d ∈ spec.deltaRows disk, spec.idOf d = spec.idOf b ∧
        b.version versionField ≤ d.version versionField

theorem RightAtRest.answers (h : RightAtRest spec versionField disk) :
    Answers spec versionField (spec.baseRows disk ++ spec.deltaRows disk) disk where
  supported := h.supported
  baseFiles := h.baseFiles
  oneRow := h.oneRow
  identified := h.identified
  faithful := by
    intro id hid
    rw [DatasetSpec.ofId_append]
    apply Overlay.Faithful.of_superseded
    rintro b ⟨hb, rfl⟩ ⟨d, hd, hdid⟩
    obtain ⟨d, hd, hdid, hle⟩ := h.superseded b hb hid ⟨d, hd, hdid⟩
    exact ⟨d, ⟨hd, hdid⟩, hle⟩

/-- A view that serves the newest rows has no partition laid over a newer base row. -/
theorem superseded_of_serves
    (hversion : spec.versionField = some versionField)
    (hsupported : spec.DeltasSupported disk)
    (hbase : ∀ path ∈ spec.effectiveBase disk, (disk.read path).isSome = true)
    {served : List Row} (hview : view spec E disk = some served)
    (hserves : ServesNewest spec versionField
      (spec.baseRows disk ++ spec.deltaRows disk) served)
    {b d : Row} (hb : b ∈ spec.baseRows disk) (hid : (spec.idOf b).isSome = true)
    (hd : d ∈ spec.deltaRows disk) (hdid : spec.idOf d = spec.idOf b) :
    ∃ d ∈ spec.deltaRows disk, spec.idOf d = spec.idOf b ∧
      b.version versionField ≤ d.version versionField := by
  obtain ⟨r, hr, hrid⟩ := hserves.every b (List.mem_append_left _ hb) hid
  have hle := (hserves.newest r hr (by rwa [hrid])).2 b (List.mem_append_left _ hb) hrid.symm
  rw [view_eq_antiJoinRows E hversion hsupported hbase] at hview
  cases hview
  refine ⟨r, ?_, hrid, hle⟩
  rcases (mem_antiJoinRows spec E versionField _ _ r).mp hr with ⟨_, hfree⟩ | hnew
  · have hequal := hfree d hd
    rw [hdid, ← hrid] at hequal
    simp [sqlEquals, hrid, hid] at hequal
  · exact (isNewest_of_mem_newestPerKey _ hnew).1

theorem FreshlyPublished.rightAtRest (h : FreshlyPublished spec versionField disk) :
    RightAtRest spec versionField disk where
  supported := h.supported
  baseFiles := h.baseFiles
  oneRow := h.oneRow
  identified := h.identified
  superseded := by
    rintro b hb hid ⟨d, hd, hdid⟩
    exact ⟨d, hd, hdid, (h.newer d hd (by rwa [hdid]) b hb hdid.symm).le⟩

/-- The steps of a run, each meeting its condition. -/
def MeetingStep (spec : DatasetSpec) (E : RankEngine) (versionField : String)
    (s s' : CompactionState) : Prop :=
  ∃ a, CompactionStep spec E versionField s a s' ∧ MeetsCondition spec versionField s a

/-- Any step of a run. -/
def AnyStep (spec : DatasetSpec) (E : RankEngine) (versionField : String)
    (s s' : CompactionState) : Prop :=
  ∃ a, CompactionStep spec E versionField s a s'

theorem MeetingStep.any
    {s s' : CompactionState} (h : MeetingStep spec E versionField s s') :
    AnyStep spec E versionField s s' := by
  obtain ⟨a, hstep, _⟩ := h
  exact ⟨a, hstep⟩

/-- The state before the first compaction. -/
def CompactionState.start (spec : DatasetSpec) (disk : Disk) : CompactionState :=
  ⟨disk, .idle, spec.baseRows disk ++ spec.deltaRows disk⟩

theorem RunInvariant.of_run
    (hversion : spec.versionField = some versionField)
    (hstart : FreshlyPublished spec versionField disk)
    {s : CompactionState}
    (hrun : Relation.ReflTransGen (MeetingStep spec E versionField)
      (CompactionState.start spec disk) s) :
    RunInvariant spec versionField s := by
  induction hrun with
  | refl => exact ⟨hstart.rightAtRest.answers, trivial⟩
  | tail _ hstep ih =>
      obtain ⟨a, hstep, hmeets⟩ := hstep
      exact ih.step hversion hstep hmeets

end Steps

/-- In a run of publications, compactions and crashes in which no plan is made
past an earlier merged base and no partition is unlinked in front of an older
row of one of its ids: at every point the view serves the newest published row
of every id, and a removal that is through has left none of its partitions. -/
theorem serves_newest_of_run
    (spec : DatasetSpec) (E E' : RankEngine) (versionField : String)
    (hversion : spec.versionField = some versionField)
    (disk : Disk) (hstart : FreshlyPublished spec versionField disk)
    (s : CompactionState)
    (hrun : Relation.ReflTransGen (MeetingStep spec E versionField)
      (CompactionState.start spec disk) s) :
    (∃ served, view spec E' s.disk = some served ∧
      ServesNewest spec versionField s.published served) ∧
    ∀ p, s.phase = .removing p [] → ∀ path ∈ p.partitions, s.disk.read path = none := by
  have hinv := RunInvariant.of_run hversion hstart hrun
  refine ⟨hinv.answers.serves E' hversion, ?_⟩
  intro p hphase path hmem
  have hremoval := hinv.phase
  rw [hphase] at hremoval
  exact hremoval.removed path hmem List.not_mem_nil

/-- The loop of `_remove` is a run of unlinks. -/
theorem remove_run
    (spec : DatasetSpec) (E : RankEngine) (versionField : String)
    (p : CompactionPlan) (published : List Row) (disk : Disk) (rest : List Path) :
    Relation.ReflTransGen (AnyStep spec E versionField)
      ⟨disk, .removing p rest, published⟩
      ⟨(remove disk rest).1, .removing p [], published⟩ := by
  induction rest generalizing disk with
  | nil => exact Relation.ReflTransGen.refl
  | cons path rest ih =>
      refine Relation.ReflTransGen.head ⟨.unlink, ?_⟩ (ih (removePartition disk path).1)
      exact CompactionStep.unlink rfl

/-- A merging call of `compact` is a run of the compactor with nothing in
between. -/
theorem compact_run
    {spec : DatasetSpec} {E : RankEngine} {host : Host} {versionField : String}
    {before after : Disk} {p : CompactionPlan} (published : List Row)
    (h : Merged spec E host before after p) :
    Relation.ReflTransGen (AnyStep spec E versionField)
      ⟨before, .idle, published⟩ ⟨after, .idle, published⟩ := by
  obtain ⟨merged, written, hwrite, rfl⟩ := h.written
  refine Relation.ReflTransGen.head
    ⟨.plan host, CompactionStep.plan rfl h.planned h.worthwhile⟩ ?_
  refine Relation.ReflTransGen.head ⟨.prepare, CompactionStep.prepare rfl⟩ ?_
  refine Relation.ReflTransGen.head ⟨.merge, CompactionStep.merge rfl hwrite⟩ ?_
  exact Relation.ReflTransGen.tail
    (remove_run spec E versionField p published merged p.partitions)
    ⟨.finish, CompactionStep.finish rfl⟩

/-! ## Two partitions of one Opportunity -/

/-- One served row that is older than a published one of its stamp's id. -/
theorem not_servesNewest_of_stamp
    (id stage : String) {published served : List Row} {stamp newer : String}
    (hserved : served.map (fun r => r "SystemModstamp") = [some (.text stamp)])
    (hlt : stamp < newer)
    (hpublished : opportunityRow id stage newer ∈ published) :
    ¬ ServesNewest deployedOpportunity "SystemModstamp" published served := by
  intro hserves
  obtain ⟨r, hr, hid⟩ := hserves.every _ hpublished rfl
  have hstamp : r "SystemModstamp" = some (.text stamp) := by
    have hmem : r "SystemModstamp" ∈ served.map (fun r => r "SystemModstamp") :=
      List.mem_map_of_mem hr
    rw [hserved] at hmem
    exact List.mem_singleton.mp hmem
  have hversion : r.version "SystemModstamp" = ((Value.text stamp : Value) : WithBot Value) :=
    hstamp
  have hle := (hserves.newest r hr (by rw [hid]; rfl)).2 _ hpublished hid.symm
  rw [hversion] at hle
  exact absurd ((Value.text_lt_text stamp newer).mpr hlt)
    (not_lt_of_ge (WithBot.coe_le_coe.mp hle))

/-- The seed row of one Opportunity under two partitions that hold it. -/
def twoPartitions (first second : Row) : Disk :=
  ((((seededDisk [opportunityRow "006a" "Prospecting" "2026-07-24T08:00:00Z"]).mkdirs
    (opportunityPartition "2026-07-25").parent).replace
      (opportunityPartition "2026-07-25") [first]).mkdirs
    (opportunityPartition "2026-07-26").parent).replace
      (opportunityPartition "2026-07-26") [second]

theorem effectiveBase_twoPartitions (first second : Row) :
    deployedOpportunity.effectiveBase (twoPartitions first second) =
      [["app", "seed", "crm_opportunities.parquet"]] :=
  rfl

theorem paths_twoPartitions (first second : Row) :
    (twoPartitions first second).paths =
      [opportunityPartition "2026-07-26", opportunityPartition "2026-07-25",
        ["app", "seed", "crm_opportunities.parquet"]] :=
  rfl

theorem deltaPaths_twoPartitions (first second : Row) :
    deployedOpportunity.deltaPaths (twoPartitions first second) =
      [opportunityPartition "2026-07-25", opportunityPartition "2026-07-26"] := by
  unfold DatasetSpec.deltaPaths
  rw [paths_twoPartitions]
  decide +kernel

theorem baseRows_twoPartitions (first second : Row) :
    deployedOpportunity.baseRows (twoPartitions first second) =
      [opportunityRow "006a" "Prospecting" "2026-07-24T08:00:00Z"] := by
  unfold DatasetSpec.baseRows
  rw [effectiveBase_twoPartitions]
  rfl

theorem deltaRows_twoPartitions (first second : Row) :
    deployedOpportunity.deltaRows (twoPartitions first second) = [first, second] := by
  unfold DatasetSpec.deltaRows
  rw [effectiveBase_twoPartitions, deltaPaths_twoPartitions]
  rfl

theorem supported_twoPartitions (first second : Row) :
    deployedOpportunity.DeltasSupported (twoPartitions first second) := by
  have hpaths : ∀ path ∈ [opportunityPartition "2026-07-26",
      opportunityPartition "2026-07-25", ["app", "seed", "crm_opportunities.parquet"]],
      deployedOpportunity.matchesDelta path = true → DatasetSpec.supported path = true := by
    decide +kernel
  intro path hread
  have hmem := (Disk.mem_paths _ path).mpr hread
  rw [paths_twoPartitions] at hmem
  exact hpaths path hmem

theorem freshlyPublished_twoPartitions
    {first second : Row}
    (hties : NoTies deployedOpportunity "SystemModstamp"
      [opportunityRow "006a" "Prospecting" "2026-07-24T08:00:00Z", first, second])
    (hnewer : NewerThan deployedOpportunity "SystemModstamp"
      [opportunityRow "006a" "Prospecting" "2026-07-24T08:00:00Z"] [first, second]) :
    FreshlyPublished deployedOpportunity "SystemModstamp" (twoPartitions first second) := by
  refine ⟨?_, ?_, ?_, ?_, ?_⟩
  · exact supported_twoPartitions first second
  · rw [effectiveBase_twoPartitions, List.forall_mem_singleton]
    rfl
  · rw [baseRows_twoPartitions]
    intro id _
    exact length_filter_idOf_le_one (by simp) id
  · rw [baseRows_twoPartitions, deltaRows_twoPartitions]
    exact hties.identified
  · rw [baseRows_twoPartitions, deltaRows_twoPartitions]
    exact hnewer

/-- What the compactor plans for the two partitions on a read-only seed. -/
def twoPartitionsPlan : CompactionPlan where
  objectName := "Opportunity"
  basePaths := [["app", "seed", "crm_opportunities.parquet"]]
  partitions := [opportunityPartition "2026-07-25", opportunityPartition "2026-07-26"]
  compactedPath :=
    ["app", "state", "simulation", "crm", "opportunities", "compacted", "base.parquet"]

theorem plan_twoPartitions (first second : Row) :
    plan deployedOpportunity seedReadOnly (twoPartitions first second) =
      .ok twoPartitionsPlan := by
  rw [plan_eq_ok_iff]
  refine ⟨by decide, by decide, ?_, rfl, (effectiveBase_twoPartitions first second).symm,
    ["app", "state", "simulation", "crm", "opportunities"], rfl, rfl⟩
  rw [DatasetSpec.publishedDeltas_eq_ok_iff]
  exact ⟨supported_twoPartitions first second, (deltaPaths_twoPartitions first second).symm⟩

/-- The tree once the merged base is published. -/
def mergedTree (first second : Row) : Disk :=
  (twoPartitions first second).replace twoPartitionsPlan.compactedPath
    (mergedRows deployedOpportunity firstInScanEngine "SystemModstamp"
      [opportunityRow "006a" "Prospecting" "2026-07-24T08:00:00Z", first, second])

theorem writerMatchesReader_twoPartitions (first second : Row) :
    WriterMatchesReader deployedOpportunity seedReadOnly (twoPartitions first second) := by
  have hnone : ∀ earlier ∈ deployedOpportunity.deltaRoots,
      DatasetSpec.compactedFile earlier ∉ [opportunityPartition "2026-07-26",
        opportunityPartition "2026-07-25", ["app", "seed", "crm_opportunities.parquet"]] := by
    decide +kernel
  intro root _ earlier hmem _
  rw [Disk.isFile_eq_read, Bool.eq_false_iff, Ne, ← Disk.mem_paths]
  exact hnone earlier hmem

theorem plan_step_twoPartitions (first second : Row) (published : List Row) :
    CompactionStep deployedOpportunity firstInScanEngine "SystemModstamp"
      ⟨twoPartitions first second, .idle, published⟩ (.plan seedReadOnly)
      ⟨twoPartitions first second, .planned twoPartitionsPlan, published⟩ :=
  CompactionStep.plan rfl (plan_twoPartitions first second) (by decide)

theorem merge_step_twoPartitions (first second : Row) (published : List Row) :
    CompactionStep deployedOpportunity firstInScanEngine "SystemModstamp"
      ⟨twoPartitions first second, .planned twoPartitionsPlan, published⟩ .merge
      ⟨mergedTree first second, .removing twoPartitionsPlan twoPartitionsPlan.partitions,
        published⟩ :=
  CompactionStep.merge rfl rfl

theorem twoPartitions_merge_run (first second : Row) :
    Relation.ReflTransGen
      (MeetingStep deployedOpportunity firstInScanEngine "SystemModstamp")
      (CompactionState.start deployedOpportunity (twoPartitions first second))
      ⟨mergedTree first second,
        .removing twoPartitionsPlan twoPartitionsPlan.partitions,
        (CompactionState.start deployedOpportunity (twoPartitions first second)).published⟩ := by
  refine Relation.ReflTransGen.head ⟨.plan seedReadOnly,
    plan_step_twoPartitions first second _,
    writerMatchesReader_twoPartitions first second⟩ ?_
  exact Relation.ReflTransGen.single
    ⟨.merge, merge_step_twoPartitions first second _, trivial⟩

/-- The state after the first unlink. -/
def halfRemoved (first second : Row) : CompactionState :=
  ⟨(removePartition (mergedTree first second) (opportunityPartition "2026-07-25")).1,
    .removing twoPartitionsPlan [opportunityPartition "2026-07-26"],
    (CompactionState.start deployedOpportunity (twoPartitions first second)).published⟩

/-- Path order and version order agree. -/
def newerSecond : CompactionState :=
  halfRemoved (opportunityRow "006a" "Proposal" "2026-07-25T08:00:00Z")
    (opportunityRow "006a" "Negotiation" "2026-07-26T08:00:00Z")

theorem serves_newest_of_run_in_path_order :
    (∃ served,
      view deployedOpportunity firstInScanEngine newerSecond.disk = some served ∧
      ServesNewest deployedOpportunity "SystemModstamp" newerSecond.published served) ∧
    ∀ p, newerSecond.phase = .removing p [] →
      ∀ path ∈ p.partitions, newerSecond.disk.read path = none := by
  apply serves_newest_of_run deployedOpportunity firstInScanEngine firstInScanEngine
    "SystemModstamp" rfl
    (twoPartitions (opportunityRow "006a" "Proposal" "2026-07-25T08:00:00Z")
      (opportunityRow "006a" "Negotiation" "2026-07-26T08:00:00Z"))
  · apply freshlyPublished_twoPartitions
    · unfold NoTies
      simp
      decide
    · unfold NewerThan
      decide
  · refine (twoPartitions_merge_run _ _).tail ⟨.unlink, CompactionStep.unlink rfl, ?_⟩
    intro p path rest hphase
    cases hphase
    unfold LeavesNewest
    decide +kernel

/-- The partition of the earlier path holds the newest row: once it is gone the
other one hides the merged base that still has that row. -/
theorem older_partition_hides_merged_base :
    FreshlyPublished deployedOpportunity "SystemModstamp"
      (twoPartitions (opportunityRow "006a" "Negotiation" "2026-07-27T08:00:00Z")
        (opportunityRow "006a" "Proposal" "2026-07-26T08:00:00Z")) ∧
    ∃ s, Relation.ReflTransGen
        (AnyStep deployedOpportunity firstInScanEngine "SystemModstamp")
        (CompactionState.start deployedOpportunity
          (twoPartitions (opportunityRow "006a" "Negotiation" "2026-07-27T08:00:00Z")
            (opportunityRow "006a" "Proposal" "2026-07-26T08:00:00Z"))) s ∧
      ¬ ∃ served, view deployedOpportunity firstInScanEngine s.disk = some served ∧
        ServesNewest deployedOpportunity "SystemModstamp" s.published served := by
  refine ⟨?_, halfRemoved (opportunityRow "006a" "Negotiation" "2026-07-27T08:00:00Z")
    (opportunityRow "006a" "Proposal" "2026-07-26T08:00:00Z"), ?_, ?_⟩
  · apply freshlyPublished_twoPartitions
    · unfold NoTies
      simp
      decide
    · unfold NewerThan
      decide
  · have hmerge := twoPartitions_merge_run
      (opportunityRow "006a" "Negotiation" "2026-07-27T08:00:00Z")
      (opportunityRow "006a" "Proposal" "2026-07-26T08:00:00Z")
    exact (Relation.ReflTransGen.mono (fun _ _ hstep => MeetingStep.any hstep) _ _ hmerge).tail
      ⟨.unlink, CompactionStep.unlink rfl⟩
  · rintro ⟨served, hview, hserves⟩
    have hstamps : served.map (fun r => r "SystemModstamp") =
        [some (.text "2026-07-26T08:00:00Z")] := by
      have hcomputed : (view deployedOpportunity firstInScanEngine
          (halfRemoved (opportunityRow "006a" "Negotiation" "2026-07-27T08:00:00Z")
            (opportunityRow "006a" "Proposal" "2026-07-26T08:00:00Z")).disk).map
          (List.map (fun r : Row => r "SystemModstamp")) =
            some [some (.text "2026-07-26T08:00:00Z")] := by
        decide +kernel
      rw [hview] at hcomputed
      exact Option.some.inj hcomputed
    have hlt : "2026-07-26T08:00:00Z" < "2026-07-27T08:00:00Z" := by decide
    refine not_servesNewest_of_stamp "006a" "Negotiation" hstamps hlt ?_ hserves
    simp only [halfRemoved, CompactionState.start, deltaRows_twoPartitions]
    simp

end FakeForce
end Northwind
