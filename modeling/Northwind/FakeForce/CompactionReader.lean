import Northwind.FakeForce.CompactionRuns

/-!
# A reader next to a running compaction

The serving process resolves an object in three looks at the tree: the
effective base, then the partitions (memoized behind a fingerprint taken
first), then the effective base again while it builds the statement.  It opens
the files last.  A compaction in another process may do any of its writes
between two of these looks.

`read_serves_newest_of_run` is about every interleaving of one compactor with a
reader that serves request after request.  A read that finds all its files
serves the newest rows, as long as no partition lies over a newer base row at the
start and no partition is unlinked behind the back of a reader that has looked up
its base and not yet the partitions, unless that base or another partition holds
a row at least as new.
-/

namespace Northwind
namespace FakeForce

open NewestPerKey

/-- The value of `structural_fingerprint`. -/
abbrev Fingerprint := List (Path × Option Nat) × List (Path × List (String × Nat))

/-- Where the serving process stands in one request. -/
inductive ReaderPhase where
  | idle
  /-- `current_sources` has computed the fingerprint. -/
  | signed (fingerprint : Fingerprint)
  /-- `_resolve_sources` has the effective base. -/
  | based (fingerprint : Fingerprint) (base : List Path)
  | resolved (sources : List Path)
  /-- `_latest_version_sql` has asked for the effective base again. -/
  | named (sources baseFiles : List Path)
  /-- The files were opened; `none` is a missing file. -/
  | answered (rows : Option (List Row))

structure ReaderState where
  phase : ReaderPhase
  cache : Option (Fingerprint × List Path)

/-- One step of the serving process on the tree as it is. -/
inductive ReaderStep (spec : DatasetSpec) (E : RankEngine) (disk : Disk) :
    ReaderState → ReaderState → Prop
  | sign {t : ReaderState} (idle : t.phase = .idle) :
      ReaderStep spec E disk t { t with phase := .signed (spec.structuralFingerprint disk) }
  | hit {t : ReaderState} {fingerprint : Fingerprint} {sources : List Path}
      (signed : t.phase = .signed fingerprint)
      (cached : t.cache = some (fingerprint, sources)) :
      ReaderStep spec E disk t { t with phase := .resolved sources }
  | base {t : ReaderState} {fingerprint : Fingerprint}
      (signed : t.phase = .signed fingerprint)
      (stale : ∀ sources, t.cache ≠ some (fingerprint, sources)) :
      ReaderStep spec E disk t { t with phase := .based fingerprint (spec.effectiveBase disk) }
  | deltas {t : ReaderState} {fingerprint : Fingerprint} {base deltas : List Path}
      (based : t.phase = .based fingerprint base)
      (listed : spec.publishedDeltas disk = .ok deltas) :
      ReaderStep spec E disk t
        { phase := .resolved (sortedSet (base ++ deltas))
          cache := some (fingerprint, sortedSet (base ++ deltas)) }
  | unsupported {t : ReaderState} {fingerprint : Fingerprint} {base : List Path}
      {error : CatalogError}
      (based : t.phase = .based fingerprint base)
      (failed : spec.publishedDeltas disk = .error error) :
      ReaderStep spec E disk t { t with phase := .idle }
  | name {t : ReaderState} {sources : List Path}
      (resolved : t.phase = .resolved sources) :
      ReaderStep spec E disk t { t with phase := .named sources (spec.effectiveBase disk) }
  | openFiles {t : ReaderState} {sources baseFiles : List Path}
      (named : t.phase = .named sources baseFiles) :
      ReaderStep spec E disk t
        { t with phase :=
            .answered ((latestVersionSql spec sources baseFiles).rows spec E disk.read) }
  | finish {t : ReaderState} {rows : Option (List Row)}
      (answered : t.phase = .answered rows) :
      ReaderStep spec E disk t { t with phase := .idle }

/-- The two processes over one tree. -/
structure SharedState where
  compaction : CompactionState
  reader : ReaderState

/-- No partition is published. -/
def CompactionAction.isCompactors : CompactionAction → Prop
  | .publish _ _ => False
  | _ => True

/-- A step of the compactor or of the reader. -/
inductive SharedAction where
  | compactor (a : CompactionAction)
  | reader

inductive SharedStep (spec : DatasetSpec) (E : RankEngine) (versionField : String) :
    SharedState → SharedAction → SharedState → Prop
  | compactor {s : SharedState} {a : CompactionAction} {compaction : CompactionState}
      (compactors : a.isCompactors)
      (step : CompactionStep spec E versionField s.compaction a compaction) :
      SharedStep spec E versionField s (.compactor a) { s with compaction := compaction }
  | reader {s : SharedState} {reader : ReaderState}
      (step : ReaderStep spec E s.compaction.disk s.reader reader) :
      SharedStep spec E versionField s .reader { s with reader := reader }

/-- A reader that holds only its base does not lose the newest row of an id of
`path`: that base or another partition holds a row at least as new. -/
def ReaderKeepsNewest (spec : DatasetSpec) (versionField : String) (disk : Disk)
    (path : Path) (base : List Path) : Prop :=
  ∀ r ∈ rowsAt spec disk.read [path], (spec.idOf r).isSome = true →
    ∃ d ∈ rowsAt spec disk.read (base ++ (spec.deltaPaths disk).erase path),
      spec.idOf d = spec.idOf r ∧ r.version versionField ≤ d.version versionField

/-- What a step must meet, judged on the state before it. -/
def MeetsReaderCondition (spec : DatasetSpec) (versionField : String) (s : SharedState) :
    SharedAction → Prop
  | .reader => True
  | .compactor a =>
      MeetsCondition spec versionField s.compaction a ∧
      (a = .unlink → ∀ p path rest, s.compaction.phase = .removing p (path :: rest) →
        ∀ fingerprint base, s.reader.phase = .based fingerprint base →
          ReaderKeepsNewest spec versionField s.compaction.disk path base)

/-! ## What a compactor's step changes -/

/-- The rows at `path` include the newest published row of every id. -/
def HoldsNewest (spec : DatasetSpec) (versionField : String) (published rows : List Row) :
    Prop :=
  ∀ id : Option Value, id.isSome = true → ∀ r,
    Overlay.Newest (Row.version versionField) (spec.ofId published id) r → r ∈ rows

/-- Every row with an id was published. -/
def AllPublished (spec : DatasetSpec) (published rows : List Row) : Prop :=
  ∀ r ∈ rows, (spec.idOf r).isSome = true → r ∈ published

/-- A step of the compactor changes nothing a reader reads, publishes a merged
base with every newest row, or unlinks one partition. -/
inductive DiskChange (spec : DatasetSpec) (versionField : String) (published : List Row)
    (disk disk' : Disk) : Prop
  | same (read : disk'.read = disk.read)
  | merged (root : Path) (isRoot : root ∈ spec.deltaRoots)
      (others : ∀ q, q ≠ DatasetSpec.compactedFile root → disk'.read q = disk.read q)
      (written : (disk'.read (DatasetSpec.compactedFile root)).isSome = true)
      (stored : AllPublished spec published
        (rowsAt spec disk'.read [DatasetSpec.compactedFile root]))
      (newest : HoldsNewest spec versionField published
        (rowsAt spec disk'.read [DatasetSpec.compactedFile root]))
      (oneRow : OneRowPerId spec (rowsAt spec disk'.read [DatasetSpec.compactedFile root]))
  | unlinked (path : Path) (isDelta : spec.isDeltaPath path = true)
      (others : ∀ q, q ≠ path → disk'.read q = disk.read q)
      (gone : disk'.read path = none)

/-- Without publications a plan lists every partition on disk. -/
def PlanComplete (spec : DatasetSpec) (s : CompactionState) : Prop :=
  ∀ p, s.phase = .planned p → ∀ q ∈ spec.deltaPaths s.disk, q ∈ p.partitions

section Changes

variable {spec : DatasetSpec} {E : RankEngine} {versionField : String}
variable {published : List Row} {disk disk' : Disk}

theorem rowsAt_congr
    {read read' : Path → Option (List Row)} {paths : List Path}
    (h : ∀ path ∈ paths, read' path = read path) :
    rowsAt spec read' paths = rowsAt spec read paths := by
  unfold rowsAt
  apply List.flatMap_congr
  intro path hpath
  rw [h path hpath]

/-- What a step of the compactor does to the files. -/
theorem diskChange_of_step
    (hversion : spec.versionField = some versionField)
    {s s' : CompactionState} {a : CompactionAction}
    (hinv : RunInvariant spec versionField s) (hcomplete : PlanComplete spec s)
    (hcompactors : a.isCompactors)
    (hstep : CompactionStep spec E versionField s a s')
    (hmeets : MeetsCondition spec versionField s a) :
    DiskChange spec versionField s.published s.disk s'.disk ∧
      s'.published = s.published ∧ PlanComplete spec s' := by
  have hinv' := hinv.step hversion hstep hmeets
  obtain ⟨hanswers, hphase⟩ := hinv
  cases hstep with
  | publish => exact absurd hcompactors id
  | @plan host p hidle hplan _ =>
      refine ⟨.same rfl, rfl, ?_⟩
      intro p' hp' q hq
      cases hp'
      obtain ⟨_, _, hdeltas, _⟩ := (plan_eq_ok_iff spec host s.disk p).mp hplan
      have hread := (DatasetSpec.mem_deltaPaths spec s.disk q).mp hq
      exact (DatasetSpec.mem_publishedDeltas hdeltas q).mpr hread
  | @prepare p hplanned =>
      refine ⟨.same (Disk.read_mkdirs _ _), rfl, ?_⟩
      intro p' hp' q hq
      apply hcomplete p' hp' q
      rw [DatasetSpec.mem_deltaPaths] at hq ⊢
      simpa using hq
  | @merge p disk' written hplanned hwrite =>
      rw [hplanned] at hphase
      obtain ⟨root, hroot, hpath, hearlier⟩ := hphase.destination
      obtain ⟨hanswers', hbase, hother, hcovered⟩ := hanswers.merge hversion hroot hpath
        hearlier hphase.basePaths hphase.partitions hwrite
      have hrows : rowsAt spec disk'.read [DatasetSpec.compactedFile root] =
          spec.baseRows disk' := by
        unfold DatasetSpec.baseRows
        rw [hbase]
        rfl
      have hstored : AllPublished spec s.published (spec.baseRows disk') :=
        fun b hb hid => ((hanswers'.faithful _ hid).base_published ⟨hb, rfl⟩).1
      have hnewest : HoldsNewest spec versionField s.published (spec.baseRows disk') := by
        intro id hid r hr
        have hplan : r ∈ rowsAt spec s.disk.read (p.basePaths ++ p.partitions) := by
          rw [mem_rowsAt]
          rcases (hanswers.faithful id hid).newest_stored r hr with hb | hd
          · obtain ⟨q, hq, content, hread, hmem⟩ :=
              (DatasetSpec.mem_baseRows spec s.disk r).mp hb.1
            rw [← hphase.basePaths] at hq
            exact ⟨q, List.mem_append_left _ hq, content, hread, hmem⟩
          · obtain ⟨q, hq, _, content, hread, hmem⟩ :=
              (DatasetSpec.mem_deltaRows spec s.disk r).mp hd.1
            have hlisted := hcomplete p hplanned q
              ((DatasetSpec.mem_deltaPaths spec s.disk q).mpr ⟨by rw [hread]; rfl, hq⟩)
            exact ⟨q, List.mem_append_right _ hlisted, content, hread, hmem⟩
        obtain ⟨b, hb, hbid, hle⟩ := hcovered r hplan
        have hbPublished : b ∈ spec.ofId s.published id :=
          ⟨hstored b hb (by rw [hbid, hr.1.2]; exact hid), hbid.trans hr.1.2⟩
        have heq : r = b := hanswers.identified id hid hr.1 hbPublished
          (le_antisymm hle (hr.2 b hbPublished))
        rw [heq]
        exact hb
      have hfile : (disk'.read (DatasetSpec.compactedFile root)).isSome = true :=
        hanswers'.baseFiles _ (by rw [hbase]; exact List.mem_singleton_self _)
      refine ⟨.merged root hroot hother hfile ?_ ?_ ?_, rfl, ?_⟩
      · rw [hrows]
        exact hstored
      · rw [hrows]
        exact hnewest
      · rw [hrows]
        exact hanswers'.oneRow
      · intro p' hp'
        cases hp'
  | @unlink p path rest hremoving =>
      rw [hremoving] at hphase
      refine ⟨.unlinked path (hphase.partitions path List.mem_cons_self)
        (fun q hq => read_removePartition_of_ne s.disk hq)
        (read_removePartition_self s.disk path), rfl, ?_⟩
      intro p' hp'
      cases hp'
  | finish _ =>
      refine ⟨.same rfl, rfl, ?_⟩
      intro p' hp'
      cases hp'
  | crash =>
      refine ⟨.same rfl, rfl, ?_⟩
      intro p' hp'
      cases hp'

/-! ## What a reader's looks at the tree are worth -/

/-- A base list a reader may hold: the configured sources, none of which is a
merged base, or one merged base, which then stays on disk. -/
def BaseStands (spec : DatasetSpec) (disk : Disk) (base : List Path) : Prop :=
  (base = spec.sources ∧
    ∀ root ∈ spec.deltaRoots, DatasetSpec.compactedFile root ∉ spec.sources) ∨
  ∃ root ∈ spec.deltaRoots, base = [DatasetSpec.compactedFile root] ∧
    (disk.read (DatasetSpec.compactedFile root)).isSome = true

/-- With this base and the partitions on disk the reader has every newest row. -/
structure BasedStands (spec : DatasetSpec) (versionField : String) (published : List Row)
    (disk : Disk) (base : List Path) : Prop where
  baseStands : BaseStands spec disk base
  stored : AllPublished spec published (rowsAt spec disk.read base)
  newest : (∀ q ∈ base, (disk.read q).isSome = true) →
    HoldsNewest spec versionField published
      (rowsAt spec disk.read (base ++ spec.deltaPaths disk))

/-- The resolved sources hold every newest row as long as all of them exist. -/
structure SourcesStand (spec : DatasetSpec) (versionField : String) (published : List Row)
    (disk : Disk) (sources : List Path) : Prop where
  parts : ∃ base deltas, sources = sortedSet (base ++ sortedSet deltas) ∧
    BaseStands spec disk base ∧
    (∀ q ∈ deltas, spec.isDeltaPath q = true) ∧
    ∀ q ∈ spec.deltaPaths disk, q ∈ deltas
  stored : AllPublished spec published (rowsAt spec disk.read sources)
  newest : (∀ q ∈ sources, (disk.read q).isSome = true) →
    HoldsNewest spec versionField published (rowsAt spec disk.read sources)

/-- The statement's two parts are a faithful split as long as all files exist. -/
structure NamedStands (spec : DatasetSpec) (versionField : String) (published : List Row)
    (disk : Disk) (sources baseFiles : List Path) : Prop where
  mergedFile : ∀ root ∈ spec.deltaRoots, DatasetSpec.compactedFile root ∈ sources →
    (disk.read (DatasetSpec.compactedFile root)).isSome = true
  isolated : ∀ root ∈ spec.deltaRoots, DatasetSpec.compactedFile root ∈ baseFiles →
    baseFiles = [DatasetSpec.compactedFile root]
  nodup : sources.Nodup
  stored : AllPublished spec published (rowsAt spec disk.read sources)
  oneRow : (∀ q ∈ sources, (disk.read q).isSome = true) →
    OneRowPerId spec (rowsAt spec disk.read (sources.filter (fun q => q ∈ baseFiles)))
  faithful : (∀ q ∈ sources, (disk.read q).isSome = true) →
    ∀ id : Option Value, id.isSome = true →
      Overlay.Faithful (Row.version versionField) (spec.ofId published id)
        (spec.ofId (rowsAt spec disk.read (sources.filter (fun q => q ∈ baseFiles))) id)
        (spec.ofId (rowsAt spec disk.read (sources.filter (fun q => q ∉ baseFiles))) id)

/-- What is known of the reader between two steps. -/
def ReaderPhaseInvariant (spec : DatasetSpec) (versionField : String) (published : List Row)
    (disk : Disk) : ReaderPhase → Prop
  | .idle => True
  | .signed _ => True
  | .based _ base => BasedStands spec versionField published disk base
  | .resolved sources => SourcesStand spec versionField published disk sources
  | .named sources baseFiles => NamedStands spec versionField published disk sources baseFiles
  | .answered none => True
  | .answered (some rows) => ServesNewest spec versionField published rows

/-- The invariant of a shared run. -/
structure SharedInvariant (spec : DatasetSpec) (versionField : String) (s : SharedState) :
    Prop where
  run : RunInvariant spec versionField s.compaction
  complete : PlanComplete spec s.compaction
  phase : ReaderPhaseInvariant spec versionField s.compaction.published s.compaction.disk
    s.reader.phase
  cache : ∀ fingerprint sources, s.reader.cache = some (fingerprint, sources) →
    SourcesStand spec versionField s.compaction.published s.compaction.disk sources

end Changes

/-! ## The reader's own steps -/

section ReaderSteps

variable {spec : DatasetSpec} {E : RankEngine} {versionField : String}
variable {published : List Row} {disk : Disk}

/-- The effective base of a tree with all its base files. -/
theorem baseStands_effectiveBase
    (hfiles : ∀ path ∈ spec.effectiveBase disk, (disk.read path).isSome = true) :
    BaseStands spec disk (spec.effectiveBase disk) := by
  cases hbase : spec.compactedBase disk with
  | some path =>
      obtain ⟨before, root, after, hroots, hpath, hfile, _⟩ :=
        (DatasetSpec.compactedBase_eq_some_iff spec disk path).mp hbase
      refine Or.inr ⟨root, ?_, ?_, ?_⟩
      · rw [hroots]
        exact List.mem_append_right _ List.mem_cons_self
      · simp only [DatasetSpec.effectiveBase, hbase, hpath]
      · rw [hpath]
        simpa using hfile
  | none =>
      have heffective : spec.effectiveBase disk = spec.sources := by
        simp only [DatasetSpec.effectiveBase, hbase]
      refine Or.inl ⟨heffective, ?_⟩
      intro root hroot hmem
      unfold DatasetSpec.compactedBase at hbase
      rw [List.find?_eq_none] at hbase
      have hmissing := hbase _ (List.mem_map_of_mem hroot)
      rw [heffective] at hfiles
      rw [Disk.isFile_eq_read] at hmissing
      exact hmissing (hfiles _ hmem)

/-- Looking up the base. -/
theorem basedStands_effectiveBase (h : Answers spec versionField published disk) :
    BasedStands spec versionField published disk (spec.effectiveBase disk) := by
  have hbaseRows : ∀ r, r ∈ rowsAt spec disk.read (spec.effectiveBase disk) ↔
      r ∈ spec.baseRows disk := by
    intro r
    rw [DatasetSpec.mem_baseRows, mem_rowsAt]
  refine ⟨baseStands_effectiveBase h.baseFiles, ?_, ?_⟩
  · intro r hr hid
    exact ((h.faithful _ hid).base_published ⟨(hbaseRows r).mp hr, rfl⟩).1
  · intro _ id hid r hr
    rw [mem_rowsAt]
    rcases (h.faithful id hid).newest_stored r hr with hb | hd
    · obtain ⟨q, hq, hread⟩ := (DatasetSpec.mem_baseRows spec disk r).mp hb.1
      exact ⟨q, List.mem_append_left _ hq, hread⟩
    · obtain ⟨q, hq, _, content, hread, hmem⟩ := (DatasetSpec.mem_deltaRows spec disk r).mp hd.1
      have hlisted := (DatasetSpec.mem_deltaPaths spec disk q).mpr ⟨by rw [hread]; rfl, hq⟩
      exact ⟨q, List.mem_append_right _ hlisted, content, hread, hmem⟩

/-- Every row of a partition on disk was published. -/
theorem Answers.allPublished_deltaPaths (h : Answers spec versionField published disk) :
    AllPublished spec published (rowsAt spec disk.read (spec.deltaPaths disk)) := by
  intro r hr hid
  obtain ⟨q, hq, content, hread, hmem⟩ := (mem_rowsAt r).mp hr
  have hdelta := ((DatasetSpec.mem_deltaPaths spec disk q).mp hq).2
  by_cases hbase : q ∈ spec.effectiveBase disk
  · exact ((h.faithful _ hid).base_published
      ⟨(DatasetSpec.mem_baseRows spec disk r).mpr ⟨q, hbase, content, hread, hmem⟩, rfl⟩).1
  · exact ((h.faithful _ hid).overlay_published
      ⟨(DatasetSpec.mem_deltaRows spec disk r).mpr
        ⟨q, hdelta, hbase, content, hread, hmem⟩, rfl⟩).1

/-- Listing the partitions. -/
theorem BasedStands.deltas
    {base deltas : List Path}
    (h : BasedStands spec versionField published disk base)
    (hanswers : Answers spec versionField published disk)
    (hdeltas : spec.publishedDeltas disk = .ok deltas) :
    SourcesStand spec versionField published disk (sortedSet (base ++ deltas)) := by
  obtain ⟨_, rfl⟩ := (DatasetSpec.publishedDeltas_eq_ok_iff spec disk deltas).mp hdeltas
  have hrows : ∀ r, r ∈ rowsAt spec disk.read
      (sortedSet (base ++ sortedSet (disk.paths.filter spec.isDeltaPath))) ↔
        r ∈ rowsAt spec disk.read (base ++ spec.deltaPaths disk) := by
    intro r
    simp only [mem_rowsAt, mem_sortedSet, DatasetSpec.deltaPaths, List.mem_append]
  refine ⟨⟨base, _, rfl, h.baseStands, ?_, ?_⟩, ?_, ?_⟩
  · intro q hq
    exact (List.mem_filter.mp hq).2
  · intro q hq
    exact (mem_sortedSet _ q).mp hq
  · intro r hr hid
    obtain ⟨q, hq, content, hread, hmem⟩ := (mem_rowsAt r).mp ((hrows r).mp hr)
    rcases List.mem_append.mp hq with hq | hq
    · exact h.stored r ((mem_rowsAt r).mpr ⟨q, hq, content, hread, hmem⟩) hid
    · exact hanswers.allPublished_deltaPaths r
        ((mem_rowsAt r).mpr ⟨q, hq, content, hread, hmem⟩) hid
  · intro hfiles id hid r hr
    rw [hrows]
    apply h.newest _ id hid r hr
    intro q hq
    exact hfiles q ((mem_sortedSet _ q).mpr (List.mem_append_left _ hq))

/-- A held base that contains a merged base is that file alone. -/
theorem BaseStands.eq_of_mem
    {base : List Path} (h : BaseStands spec disk base)
    {root : Path} (hroot : root ∈ spec.deltaRoots)
    (hmem : DatasetSpec.compactedFile root ∈ base) :
    base = [DatasetSpec.compactedFile root] ∧
      (disk.read (DatasetSpec.compactedFile root)).isSome = true := by
  rcases h with ⟨rfl, hfree⟩ | ⟨root', _, rfl, hfile⟩
  · exact absurd hmem (hfree root hroot)
  · have heq := DatasetSpec.compactedFile_injective (List.mem_singleton.mp hmem)
    rw [heq]
    exact ⟨rfl, hfile⟩

/-- Once a merged base exists, some merged base is the effective base. -/
theorem effectiveBase_of_isFile
    {root : Path} (hroot : root ∈ spec.deltaRoots)
    (hfile : (disk.read (DatasetSpec.compactedFile root)).isSome = true) :
    ∃ root' ∈ spec.deltaRoots, spec.effectiveBase disk = [DatasetSpec.compactedFile root'] := by
  cases hbase : spec.compactedBase disk with
  | some path =>
      obtain ⟨before, root', after, hroots, hpath, _, _⟩ :=
        (DatasetSpec.compactedBase_eq_some_iff spec disk path).mp hbase
      refine ⟨root', ?_, ?_⟩
      · rw [hroots]
        exact List.mem_append_right _ List.mem_cons_self
      · simp only [DatasetSpec.effectiveBase, hbase, hpath]
  | none =>
      unfold DatasetSpec.compactedBase at hbase
      rw [List.find?_eq_none] at hbase
      have hmissing := hbase _ (List.mem_map_of_mem hroot)
      rw [Disk.isFile_eq_read] at hmissing
      exact absurd hfile hmissing

/-- A base held from before the merge shares no file with the effective base. -/
theorem effectiveBase_notMem_of_ne
    {base deltas : List Path} (hbase : BaseStands spec disk base)
    (hfiles : ∀ path ∈ spec.effectiveBase disk, (disk.read path).isSome = true)
    (hdeltas : ∀ q ∈ deltas, spec.isDeltaPath q = true)
    (hne : base ≠ spec.effectiveBase disk) :
    ∀ q ∈ base ++ deltas, q ∉ spec.effectiveBase disk := by
  intro q hq heffective
  rcases baseStands_effectiveBase hfiles with ⟨hsources, hfree⟩ | ⟨root, hroot, hmerged, _⟩
  · rcases hbase with ⟨hbaseSources, _⟩ | ⟨root, hroot, _, hfile⟩
    · exact hne (hbaseSources.trans hsources.symm)
    · obtain ⟨root', hroot', heq⟩ := effectiveBase_of_isFile hroot hfile
      apply hfree root' hroot'
      rw [← hsources, heq]
      exact List.mem_singleton_self _
  · rw [hmerged, List.mem_singleton] at heffective
    rw [heffective] at hq
    rcases List.mem_append.mp hq with hq | hq
    · exact hne ((hbase.eq_of_mem hroot hq).1.trans hmerged.symm)
    · exact DatasetSpec.ne_compactedFile_of_isDeltaPath (hdeltas _ hq) root rfl

/-- Looking up the base again while building the statement. -/
theorem SourcesStand.name
    {sources : List Path}
    (h : SourcesStand spec versionField published disk sources)
    (hanswers : Answers spec versionField published disk) :
    NamedStands spec versionField published disk sources (spec.effectiveBase disk) := by
  obtain ⟨base, deltas, hsources, hbase, hdeltas, hlisted⟩ := h.parts
  have hdeltaMem : ∀ q ∈ sortedSet deltas, spec.isDeltaPath q = true :=
    fun q hq => hdeltas q ((mem_sortedSet deltas q).mp hq)
  have hmergedFile : ∀ root ∈ spec.deltaRoots, DatasetSpec.compactedFile root ∈ sources →
      (disk.read (DatasetSpec.compactedFile root)).isSome = true := by
    intro root hroot hmem
    rw [hsources, mem_sortedSet] at hmem
    rcases List.mem_append.mp hmem with hmem | hmem
    · exact (hbase.eq_of_mem hroot hmem).2
    · exact absurd rfl
        (DatasetSpec.ne_compactedFile_of_isDeltaPath (hdeltaMem _ hmem) root)
  have hisolated : ∀ root ∈ spec.deltaRoots,
      DatasetSpec.compactedFile root ∈ spec.effectiveBase disk →
        spec.effectiveBase disk = [DatasetSpec.compactedFile root] :=
    fun root hroot hmem =>
      ((baseStands_effectiveBase hanswers.baseFiles).eq_of_mem hroot hmem).1
  have hnodup : sources.Nodup := by
    rw [hsources]
    exact nodup_sortedSet _
  by_cases heq : base = spec.effectiveBase disk
  · -- The base has not moved: the split is the one on disk.
    have hbasePart : sources.filter (fun q => q ∈ spec.effectiveBase disk) =
        sortedSet (spec.effectiveBase disk) := by
      rw [hsources, heq]
      exact filter_sortedSet_append_left _ _
    have hdeltaPart : ∀ r, r ∈ rowsAt spec disk.read
        (sources.filter (fun q => q ∉ spec.effectiveBase disk)) ↔ r ∈ spec.deltaRows disk := by
      intro r
      rw [hsources, heq, filter_sortedSet_append_right, mem_rowsAt, DatasetSpec.mem_deltaRows]
      constructor
      · rintro ⟨q, hq, content, hread, hmem⟩
        obtain ⟨hq, hqbase⟩ := List.mem_filter.mp hq
        exact ⟨q, hdeltaMem q hq, by simpa using hqbase, content, hread, hmem⟩
      · rintro ⟨q, hq, hqbase, content, hread, hmem⟩
        have hq' := hlisted q
          ((DatasetSpec.mem_deltaPaths spec disk q).mpr ⟨by rw [hread]; rfl, hq⟩)
        exact ⟨q, List.mem_filter.mpr ⟨(mem_sortedSet deltas q).mpr hq', by simpa using hqbase⟩,
          content, hread, hmem⟩
    refine ⟨hmergedFile, hisolated, hnodup, h.stored, ?_, ?_⟩
    · intro _
      rw [hbasePart]
      exact hanswers.oneRow
    · intro _ id hid
      have hoverlay : spec.ofId (rowsAt spec disk.read
          (sources.filter (fun q => q ∉ spec.effectiveBase disk))) id =
            spec.ofId (spec.deltaRows disk) id := by
        ext r
        rw [DatasetSpec.mem_ofId, DatasetSpec.mem_ofId, hdeltaPart r]
      rw [hoverlay, hbasePart]
      exact hanswers.faithful id hid
  · -- The base has moved: every file counts as a delta and they are ranked together.
    have hapart : ∀ q ∈ sources, q ∉ spec.effectiveBase disk := by
      intro q hq
      rw [hsources, mem_sortedSet] at hq
      exact effectiveBase_notMem_of_ne hbase hanswers.baseFiles hdeltaMem heq q hq
    have hbasePart : sources.filter (fun q => q ∈ spec.effectiveBase disk) = [] := by
      rw [List.filter_eq_nil_iff]
      intro q hq
      simpa using hapart q hq
    have hdeltaPart : sources.filter (fun q => q ∉ spec.effectiveBase disk) = sources := by
      rw [List.filter_eq_self]
      intro q hq
      simpa using hapart q hq
    refine ⟨hmergedFile, hisolated, hnodup, h.stored, ?_, ?_⟩
    · intro _ id _
      rw [hbasePart]
      exact Nat.zero_le 1
    · intro hfiles id hid
      rw [hbasePart, hdeltaPart]
      refine Overlay.Faithful.of_newest_mem ?_ ?_
        (exists_newest_ofId spec versionField published id) ?_ ?_
      · rintro r ⟨hr, _⟩
        simp [rowsAt] at hr
      · intro r hr
        exact ⟨h.stored r hr.1 (by rw [hr.2]; exact hid), hr.2⟩
      · intro r hr
        exact Or.inr ⟨h.newest hfiles id hid r hr, hr.1.2⟩
      · intro _ r hr
        exact ⟨h.newest hfiles id hid r hr, hr.1.2⟩

/-- Opening the files. -/
theorem NamedStands.openFiles
    {sources baseFiles : List Path} {rows : List Row}
    (hversion : spec.versionField = some versionField)
    (h : NamedStands spec versionField published disk sources baseFiles)
    (hidentified : Identified spec versionField published)
    (hrows : (latestVersionSql spec sources baseFiles).rows spec E disk.read = some rows) :
    ServesNewest spec versionField published rows := by
  have hfiles := files_of_rows_latestVersionSql hversion hrows
  obtain ⟨base, hbase, hbaseMap⟩ := sourceReader_eq_rowsAt spec (fun path hpath =>
    hfiles path (List.mem_filter.mp hpath).1 : ∀ path ∈ sources.filter
      (fun q => q ∈ baseFiles), (disk.read path).isSome = true)
  obtain ⟨deltas, hdeltas, hdeltaMap⟩ := sourceReader_eq_rowsAt spec (fun path hpath =>
    hfiles path (List.mem_filter.mp hpath).1 : ∀ path ∈ sources.filter
      (fun q => q ∉ baseFiles), (disk.read path).isSome = true)
  rw [rows_latestVersionSql E hversion hbase hdeltas, hbaseMap, hdeltaMap] at hrows
  cases hrows
  exact servesNewest_antiJoinRows E hidentified (h.oneRow hfiles) (h.faithful hfiles)

end ReaderSteps

/-! ## What survives a step of the compactor -/

section Survival

variable {spec : DatasetSpec} {E : RankEngine} {versionField : String}
variable {published : List Row} {disk disk' : Disk}

/-- A merged base is never removed. -/
theorem DiskChange.isSome_compactedFile
    (h : DiskChange spec versionField published disk disk')
    {root : Path} (hfile : (disk.read (DatasetSpec.compactedFile root)).isSome = true) :
    (disk'.read (DatasetSpec.compactedFile root)).isSome = true := by
  cases h with
  | same hread =>
      rw [hread]
      exact hfile
  | merged root' _ hothers hwritten _ _ _ =>
      by_cases heq : DatasetSpec.compactedFile root = DatasetSpec.compactedFile root'
      · rw [heq]
        exact hwritten
      · rw [hothers _ heq]
        exact hfile
  | unlinked path hdelta hothers _ =>
      rw [hothers _ (DatasetSpec.ne_compactedFile_of_isDeltaPath hdelta root).symm]
      exact hfile

theorem BaseStands.change
    {base : List Path} (h : BaseStands spec disk base)
    (hchange : DiskChange spec versionField published disk disk') :
    BaseStands spec disk' base := by
  rcases h with hsources | ⟨root, hroot, hbase, hfile⟩
  · exact Or.inl hsources
  · exact Or.inr ⟨root, hroot, hbase, hchange.isSome_compactedFile hfile⟩

/-- A compactor's step brings no unpublished row into a file. -/
theorem AllPublished.change
    {paths : List Path} (h : AllPublished spec published (rowsAt spec disk.read paths))
    (hchange : DiskChange spec versionField published disk disk') :
    AllPublished spec published (rowsAt spec disk'.read paths) := by
  intro r hr hid
  obtain ⟨q, hq, content, hread, hmem⟩ := (mem_rowsAt r).mp hr
  have hold : disk.read q = some content → r ∈ published :=
    fun hread' => h r ((mem_rowsAt r).mpr ⟨q, hq, content, hread', hmem⟩) hid
  cases hchange with
  | same hsame =>
      rw [hsame] at hread
      exact hold hread
  | merged root _ hothers _ hstored _ _ =>
      by_cases heq : q = DatasetSpec.compactedFile root
      · apply hstored r _ hid
        exact (mem_rowsAt r).mpr
          ⟨_, List.mem_singleton_self _, content, heq ▸ hread, hmem⟩
      · rw [hothers q heq] at hread
        exact hold hread
  | unlinked path _ hothers hgone =>
      have hne : q ≠ path := by
        intro heq
        rw [heq, hgone] at hread
        cases hread
      rw [hothers q hne] at hread
      exact hold hread

/-- The compactor adds no partition. -/
theorem DiskChange.mem_deltaPaths
    (h : DiskChange spec versionField published disk disk')
    {q : Path} (hq : q ∈ spec.deltaPaths disk') :
    q ∈ spec.deltaPaths disk := by
  rw [DatasetSpec.mem_deltaPaths] at hq ⊢
  refine ⟨?_, hq.2⟩
  cases h with
  | same hread =>
      rw [← hread]
      exact hq.1
  | merged root _ hothers _ _ _ _ =>
      rw [← hothers q (DatasetSpec.ne_compactedFile_of_isDeltaPath hq.2 root)]
      exact hq.1
  | unlinked path _ hothers hgone =>
      have hne : q ≠ path := by
        intro heq
        rw [heq, hgone] at hq
        cases hq.1
      rw [← hothers q hne]
      exact hq.1

/-- Files that are all there after an unlink were not touched by it. -/
theorem notMem_of_unlinked
    {paths : List Path} {path : Path} (hgone : disk'.read path = none)
    (hfiles : ∀ q ∈ paths, (disk'.read q).isSome = true) :
    path ∉ paths := by
  intro hmem
  have hfile := hfiles path hmem
  rw [hgone] at hfile
  cases hfile

theorem SourcesStand.change
    {sources : List Path}
    (h : SourcesStand spec versionField published disk sources)
    (hchange : DiskChange spec versionField published disk disk') :
    SourcesStand spec versionField published disk' sources := by
  obtain ⟨base, deltas, hsources, hbase, hdeltas, hlisted⟩ := h.parts
  refine ⟨⟨base, deltas, hsources, hbase.change hchange, hdeltas,
    fun q hq => hlisted q (hchange.mem_deltaPaths hq)⟩, h.stored.change hchange, ?_⟩
  intro hfiles
  cases hchange with
  | same hread =>
      rw [hread] at hfiles ⊢
      exact h.newest hfiles
  | merged root _ hothers _ _ hnewest _ =>
      by_cases hmem : DatasetSpec.compactedFile root ∈ sources
      · intro id hid r hr
        obtain ⟨q, hq, hrow⟩ := (mem_rowsAt r).mp (hnewest id hid r hr)
        rw [List.mem_singleton] at hq
        exact (mem_rowsAt r).mpr ⟨q, by rw [hq]; exact hmem, hrow⟩
      · have hsame : ∀ q ∈ sources, disk'.read q = disk.read q :=
          fun q hq => hothers q (fun heq => hmem (heq ▸ hq))
        rw [rowsAt_congr hsame]
        exact h.newest (fun q hq => by rw [← hsame q hq]; exact hfiles q hq)
  | unlinked path _ hothers hgone =>
      have hsame : ∀ q ∈ sources, disk'.read q = disk.read q :=
        fun q hq => hothers q (fun heq => notMem_of_unlinked hgone hfiles (heq ▸ hq))
      rw [rowsAt_congr hsame]
      exact h.newest (fun q hq => by rw [← hsame q hq]; exact hfiles q hq)

/-- The rows of a base and of the partitions on disk. -/
theorem mem_rowsAt_append_deltaPaths
    (spec : DatasetSpec) (disk : Disk) (base : List Path) (r : Row) :
    r ∈ rowsAt spec disk.read (base ++ spec.deltaPaths disk) ↔
      ∃ q, (q ∈ base ∨ spec.isDeltaPath q = true) ∧
        ∃ rows, disk.read q = some rows ∧ r ∈ rows.map spec.aliased := by
  rw [mem_rowsAt]
  constructor
  · rintro ⟨q, hq, hrow⟩
    refine ⟨q, (List.mem_append.mp hq).imp_right ?_, hrow⟩
    exact fun hdelta => ((DatasetSpec.mem_deltaPaths spec disk q).mp hdelta).2
  · rintro ⟨q, hq, rows, hread, hmem⟩
    refine ⟨q, List.mem_append.mpr (hq.imp_right ?_), rows, hread, hmem⟩
    exact fun hdelta =>
      (DatasetSpec.mem_deltaPaths spec disk q).mpr ⟨by rw [hread]; rfl, hdelta⟩

/-- A reader between its base and the partitions needs the condition when a
partition is unlinked. -/
theorem BasedStands.change
    {base : List Path}
    (h : BasedStands spec versionField published disk base)
    (hanswers : Answers spec versionField published disk)
    (hchange : DiskChange spec versionField published disk disk')
    (hkeeps : ∀ path, (disk.read path).isSome = true → disk'.read path = none →
      ReaderKeepsNewest spec versionField disk path base) :
    BasedStands spec versionField published disk' base := by
  refine ⟨h.baseStands.change hchange, h.stored.change hchange, ?_⟩
  intro hfiles id hid r hr
  rw [mem_rowsAt_append_deltaPaths]
  cases hchange with
  | same hread =>
      rw [hread] at hfiles ⊢
      rw [← mem_rowsAt_append_deltaPaths]
      exact h.newest hfiles id hid r hr
  | merged root _ hothers _ _ hnewest _ =>
      by_cases hmem : DatasetSpec.compactedFile root ∈ base
      · obtain ⟨q, hq, hrow⟩ := (mem_rowsAt r).mp (hnewest id hid r hr)
        rw [List.mem_singleton] at hq
        exact ⟨q, Or.inl (by rw [hq]; exact hmem), hrow⟩
      · have hsame : ∀ q, q ∈ base ∨ spec.isDeltaPath q = true →
            disk'.read q = disk.read q := by
          rintro q (hq | hq)
          · exact hothers q (fun heq => hmem (heq ▸ hq))
          · exact hothers q (DatasetSpec.ne_compactedFile_of_isDeltaPath hq root)
        have hrow := h.newest (fun q hq => by
          rw [← hsame q (Or.inl hq)]
          exact hfiles q hq) id hid r hr
        obtain ⟨q, hq, rows, hread, hrmem⟩ := (mem_rowsAt_append_deltaPaths spec disk base r).mp hrow
        exact ⟨q, hq, rows, (hsame q hq).trans hread, hrmem⟩
  | unlinked path hdelta hothers hgone =>
      have hnotBase := notMem_of_unlinked hgone hfiles
      have hrow := h.newest (fun q hq => by
        rw [← hothers q (fun heq => hnotBase (heq ▸ hq))]
        exact hfiles q hq) id hid r hr
      obtain ⟨q, hq, rows, hread, hrmem⟩ := (mem_rowsAt_append_deltaPaths spec disk base r).mp hrow
      by_cases heq : q = path
      · -- The newest row goes: the condition finds it elsewhere.
        have hpath : r ∈ rowsAt spec disk.read [path] :=
          (mem_rowsAt r).mpr ⟨path, List.mem_singleton_self _, rows, heq ▸ hread, hrmem⟩
        obtain ⟨d, hd, hdid, hle⟩ := hkeeps path (by rw [← heq, hread]; rfl) hgone r hpath
          (by rw [hr.1.2]; exact hid)
        obtain ⟨q', hq', rows', hread', hdmem⟩ := (mem_rowsAt d).mp hd
        have hsome : (spec.idOf d).isSome = true := by
          rw [hdid, hr.1.2]
          exact hid
        have hdPublished : d ∈ published := by
          rcases List.mem_append.mp hq' with hq' | hq'
          · exact h.stored d ((mem_rowsAt d).mpr ⟨q', hq', rows', hread', hdmem⟩) hsome
          · exact hanswers.allPublished_deltaPaths d ((mem_rowsAt d).mpr
              ⟨q', List.mem_of_mem_erase hq', rows', hread', hdmem⟩) hsome
        have hdId : d ∈ spec.ofId published id := ⟨hdPublished, hdid.trans hr.1.2⟩
        have hrd : r = d := hanswers.identified id hid hr.1 hdId
          (le_antisymm hle (hr.2 d hdId))
        rcases List.mem_append.mp hq' with hq' | hq'
        · refine ⟨q', Or.inl hq', rows', ?_, hrd ▸ hdmem⟩
          rw [hothers q' (fun heq' => hnotBase (heq' ▸ hq'))]
          exact hread'
        · obtain ⟨hne, hq'⟩ := (spec.nodup_deltaPaths disk).mem_erase_iff.mp hq'
          refine ⟨q', Or.inr ((DatasetSpec.mem_deltaPaths spec disk q').mp hq').2, rows', ?_,
            hrd ▸ hdmem⟩
          rw [hothers q' hne]
          exact hread'
      · exact ⟨q, hq, rows, (hothers q heq).trans hread, hrmem⟩

/-- The part of the sources a statement treats as base, when it is a merged one. -/
theorem filter_baseFiles_eq_singleton
    {sources : List Path} {path : Path} (hnodup : sources.Nodup) (hmem : path ∈ sources) :
    sources.filter (fun q => q ∈ [path]) = [path] := by
  have hperm : (sources.filter (fun q => q ∈ [path])).Perm [path] := by
    rw [List.perm_ext_iff_of_nodup (hnodup.filter _) (List.nodup_singleton path)]
    intro q
    rw [List.mem_filter]
    simp only [List.mem_singleton, decide_eq_true_eq]
    constructor
    · exact fun h => h.2
    · rintro rfl
      exact ⟨hmem, rfl⟩
  exact List.perm_singleton.mp hperm

theorem NamedStands.change
    {sources baseFiles : List Path}
    (h : NamedStands spec versionField published disk sources baseFiles)
    (hanswers : Answers spec versionField published disk)
    (hchange : DiskChange spec versionField published disk disk') :
    NamedStands spec versionField published disk' sources baseFiles := by
  have hstored := h.stored.change hchange
  have hmergedFile : ∀ root ∈ spec.deltaRoots, DatasetSpec.compactedFile root ∈ sources →
      (disk'.read (DatasetSpec.compactedFile root)).isSome = true :=
    fun root hroot hmem => hchange.isSome_compactedFile (h.mergedFile root hroot hmem)
  -- Untouched sources keep both parts.
  have huntouched : (∀ q ∈ sources, disk'.read q = disk.read q) →
      NamedStands spec versionField published disk' sources baseFiles := by
    intro hsame
    have hbefore : (∀ q ∈ sources, (disk'.read q).isSome = true) →
        ∀ q ∈ sources, (disk.read q).isSome = true :=
      fun hfiles q hq => by rw [← hsame q hq]; exact hfiles q hq
    have hbase : rowsAt spec disk'.read (sources.filter (fun q => q ∈ baseFiles)) =
        rowsAt spec disk.read (sources.filter (fun q => q ∈ baseFiles)) :=
      rowsAt_congr (fun q hq => hsame q (List.mem_filter.mp hq).1)
    have hdelta : rowsAt spec disk'.read (sources.filter (fun q => q ∉ baseFiles)) =
        rowsAt spec disk.read (sources.filter (fun q => q ∉ baseFiles)) :=
      rowsAt_congr (fun q hq => hsame q (List.mem_filter.mp hq).1)
    refine ⟨hmergedFile, h.isolated, h.nodup, hstored, ?_, ?_⟩
    · intro hfiles
      rw [hbase]
      exact h.oneRow (hbefore hfiles)
    · intro hfiles
      rw [hbase, hdelta]
      exact h.faithful (hbefore hfiles)
  cases hchange with
  | same hread => exact huntouched (fun q _ => by rw [hread])
  | unlinked path _ hothers hgone =>
      by_cases hmem : path ∈ sources
      · have hmissing : ¬ ∀ q ∈ sources, (disk'.read q).isSome = true :=
          fun hfiles => notMem_of_unlinked hgone hfiles hmem
        exact ⟨hmergedFile, h.isolated, h.nodup, hstored,
          fun hfiles => absurd hfiles hmissing, fun hfiles => absurd hfiles hmissing⟩
      · exact huntouched (fun q hq => hothers q (fun heq => hmem (heq ▸ hq)))
  | merged root hroot hothers _ hrootStored hnewest hone =>
      by_cases hmem : DatasetSpec.compactedFile root ∈ sources
      swap
      · exact huntouched (fun q hq => hothers q (fun heq => hmem (heq ▸ hq)))
      have hbefore : (∀ q ∈ sources, (disk'.read q).isSome = true) →
          ∀ q ∈ sources, (disk.read q).isSome = true := by
        intro hfiles q hq
        by_cases heq : q = DatasetSpec.compactedFile root
        · rw [heq]
          exact h.mergedFile root hroot hmem
        · rw [← hothers q heq]
          exact hfiles q hq
      have hdeltaStored : ∀ id : Option Value, id.isSome = true →
          spec.ofId (rowsAt spec disk'.read (sources.filter (fun q => q ∉ baseFiles))) id ⊆
            spec.ofId published id := by
        rintro id hid r ⟨hr, hrid⟩
        obtain ⟨q, hq, hrow⟩ := (mem_rowsAt r).mp hr
        exact ⟨hstored r ((mem_rowsAt r).mpr ⟨q, (List.mem_filter.mp hq).1, hrow⟩)
          (by rw [hrid]; exact hid), hrid⟩
      by_cases hbaseFile : DatasetSpec.compactedFile root ∈ baseFiles
      · -- The rewritten file is the whole base part.
        have hsingle := h.isolated root hroot hbaseFile
        have hbasePart : sources.filter (fun q => q ∈ baseFiles) =
            [DatasetSpec.compactedFile root] := by
          rw [hsingle]
          exact filter_baseFiles_eq_singleton h.nodup hmem
        have hdelta : rowsAt spec disk'.read (sources.filter (fun q => q ∉ baseFiles)) =
            rowsAt spec disk.read (sources.filter (fun q => q ∉ baseFiles)) := by
          apply rowsAt_congr
          intro q hq
          apply hothers q
          intro heq
          have hnot := (List.mem_filter.mp hq).2
          rw [heq] at hnot
          simp [hbaseFile] at hnot
        refine ⟨hmergedFile, h.isolated, h.nodup, hstored, ?_, ?_⟩
        · intro _
          rw [hbasePart]
          exact hone
        · intro hfiles id hid
          have hold := h.faithful (hbefore hfiles) id hid
          refine Overlay.Faithful.of_newest_mem ?_ (hdeltaStored id hid)
            (exists_newest_ofId spec versionField published id) ?_ ?_
          · rw [hbasePart]
            exact fun r hr => ⟨hrootStored r hr.1 (by rw [hr.2]; exact hid), hr.2⟩
          · rw [hbasePart]
            exact fun r hr => Or.inl ⟨hnewest id hid r hr, hr.1.2⟩
          · rw [hdelta]
            exact fun hne r hr =>
              hold.newest_mem_overlay (hanswers.identified id hid) hne hr
      · -- The rewritten file is ranked with the deltas and holds the newest rows.
        have hbase : rowsAt spec disk'.read (sources.filter (fun q => q ∈ baseFiles)) =
            rowsAt spec disk.read (sources.filter (fun q => q ∈ baseFiles)) := by
          apply rowsAt_congr
          intro q hq
          apply hothers q
          intro heq
          have hin := (List.mem_filter.mp hq).2
          rw [heq] at hin
          simp [hbaseFile] at hin
        have hdeltaNewest : ∀ id : Option Value, id.isSome = true → ∀ r,
            Overlay.Newest (Row.version versionField) (spec.ofId published id) r →
              r ∈ spec.ofId
                (rowsAt spec disk'.read (sources.filter (fun q => q ∉ baseFiles))) id := by
          intro id hid r hr
          obtain ⟨q, hq, hrow⟩ := (mem_rowsAt r).mp (hnewest id hid r hr)
          rw [List.mem_singleton] at hq
          refine ⟨(mem_rowsAt r).mpr ⟨q, List.mem_filter.mpr ⟨?_, ?_⟩, hrow⟩, hr.1.2⟩
          · rw [hq]
            exact hmem
          · rw [hq]
            simpa using hbaseFile
        refine ⟨hmergedFile, h.isolated, h.nodup, hstored, ?_, ?_⟩
        · intro hfiles
          rw [hbase]
          exact h.oneRow (hbefore hfiles)
        · intro hfiles id hid
          refine Overlay.Faithful.of_newest_mem ?_ (hdeltaStored id hid)
            (exists_newest_ofId spec versionField published id) ?_ ?_
          · rw [hbase]
            exact (h.faithful (hbefore hfiles) id hid).base_published
          · exact fun r hr => Or.inr (hdeltaNewest id hid r hr)
          · exact fun _ r hr => hdeltaNewest id hid r hr

/-- What is known of the reader survives a step of the compactor. -/
theorem ReaderPhaseInvariant.change
    {phase : ReaderPhase}
    (h : ReaderPhaseInvariant spec versionField published disk phase)
    (hanswers : Answers spec versionField published disk)
    (hchange : DiskChange spec versionField published disk disk')
    (hkeeps : ∀ fingerprint base, phase = .based fingerprint base →
      ∀ path, (disk.read path).isSome = true → disk'.read path = none →
        ReaderKeepsNewest spec versionField disk path base) :
    ReaderPhaseInvariant spec versionField published disk' phase := by
  cases phase with
  | idle => trivial
  | signed _ => trivial
  | based fingerprint base =>
      exact BasedStands.change h hanswers hchange (hkeeps fingerprint base rfl)
  | resolved sources => exact SourcesStand.change h hchange
  | named sources baseFiles => exact NamedStands.change h hanswers hchange
  | answered rows =>
      cases rows with
      | none => trivial
      | some rows => exact h

/-- Only an unlink removes a file, and it removes the partition at its head. -/
theorem removed_by_unlink
    {s s' : CompactionState} {a : CompactionAction}
    (hcompactors : a.isCompactors)
    (hstep : CompactionStep spec E versionField s a s')
    {path : Path} (hfile : (s.disk.read path).isSome = true)
    (hgone : s'.disk.read path = none) :
    a = .unlink ∧ ∃ p rest, s.phase = .removing p (path :: rest) := by
  have hkept : s'.disk.read path ≠ s.disk.read path := by
    intro heq
    rw [← heq, hgone] at hfile
    cases hfile
  cases hstep with
  | publish => exact absurd hcompactors id
  | plan => exact absurd rfl hkept
  | prepare =>
      rw [Disk.read_mkdirs] at hkept
      exact absurd rfl hkept
  | @merge p disk' written _ hwrite =>
      simp only [writeMerged, Option.bind_eq_bind, Option.bind_eq_some_iff] at hwrite
      obtain ⟨_, _, rows, _, hpublished⟩ := hwrite
      cases hpublished
      by_cases heq : path = p.compactedPath
      · rw [heq] at hgone
        simp at hgone
      · exact absurd (Disk.read_replace_of_ne _ _ heq) hkept
  | @unlink p q rest hremoving =>
      by_cases heq : path = q
      · exact ⟨rfl, p, rest, heq ▸ hremoving⟩
      · exact absurd (read_removePartition_of_ne s.disk heq) hkept
  | finish => exact absurd rfl hkept
  | crash => exact absurd rfl hkept

/-- One step of either process that meets its condition keeps the invariant. -/
theorem SharedInvariant.step
    (hversion : spec.versionField = some versionField)
    {s s' : SharedState} {a : SharedAction}
    (h : SharedInvariant spec versionField s)
    (hstep : SharedStep spec E versionField s a s')
    (hmeets : MeetsReaderCondition spec versionField s a) :
    SharedInvariant spec versionField s' := by
  obtain ⟨hrun, hcomplete, hphase, hcache⟩ := h
  have hanswers := hrun.answers
  cases hstep with
  | @compactor a compaction hcompactors hstep =>
      obtain ⟨hcondition, hreader⟩ := hmeets
      obtain ⟨hchange, hpublished, hcomplete'⟩ :=
        diskChange_of_step hversion hrun hcomplete hcompactors hstep hcondition
      refine ⟨hrun.step hversion hstep hcondition, hcomplete', ?_, ?_⟩
      · simp only [hpublished]
        refine hphase.change hanswers hchange ?_
        intro fingerprint base hbased path hfile hgone
        obtain ⟨haction, p, rest, hremoving⟩ :=
          removed_by_unlink hcompactors hstep hfile hgone
        exact hreader haction p path rest hremoving fingerprint base hbased
      · simp only [hpublished]
        intro fingerprint sources hcached
        exact (hcache fingerprint sources hcached).change hchange
  | @reader reader hstep =>
      refine ⟨hrun, hcomplete, ?_, ?_⟩
      · cases hstep with
        | sign => trivial
        | hit _ hcached => exact hcache _ _ hcached
        | base => exact basedStands_effectiveBase hanswers
        | deltas hbased hlisted =>
            rw [hbased] at hphase
            exact BasedStands.deltas hphase hanswers hlisted
        | unsupported => trivial
        | name hresolved =>
            rw [hresolved] at hphase
            exact SourcesStand.name hphase hanswers
        | @openFiles sources baseFiles hnamed =>
            rw [hnamed] at hphase
            change ReaderPhaseInvariant spec versionField s.compaction.published
              s.compaction.disk (.answered
                ((latestVersionSql spec sources baseFiles).rows spec E s.compaction.disk.read))
            cases hrows : (latestVersionSql spec sources baseFiles).rows spec E
                s.compaction.disk.read with
            | none => trivial
            | some rows =>
                exact NamedStands.openFiles hversion hphase hanswers.identified hrows
        | finish => trivial
      · intro fingerprint sources hcached
        cases hstep with
        | sign => exact hcache _ _ hcached
        | hit => exact hcache _ _ hcached
        | base => exact hcache _ _ hcached
        | deltas hbased hlisted =>
            cases hcached
            rw [hbased] at hphase
            exact BasedStands.deltas hphase hanswers hlisted
        | unsupported => exact hcache _ _ hcached
        | name => exact hcache _ _ hcached
        | openFiles => exact hcache _ _ hcached
        | finish => exact hcache _ _ hcached

/-- The steps of a shared run, each meeting its condition. -/
def SharedMeetingStep (spec : DatasetSpec) (E : RankEngine) (versionField : String)
    (s s' : SharedState) : Prop :=
  ∃ a, SharedStep spec E versionField s a s' ∧ MeetsReaderCondition spec versionField s a

/-- Any step of a shared run. -/
def SharedAnyStep (spec : DatasetSpec) (E : RankEngine) (versionField : String)
    (s s' : SharedState) : Prop :=
  ∃ a, SharedStep spec E versionField s a s'

/-- The two processes before either has done anything. -/
def SharedState.start (spec : DatasetSpec) (disk : Disk) : SharedState :=
  ⟨CompactionState.start spec disk, ⟨.idle, none⟩⟩

theorem SharedInvariant.of_run
    (hversion : spec.versionField = some versionField)
    (hrest : RightAtRest spec versionField disk)
    {s : SharedState}
    (hrun : Relation.ReflTransGen (SharedMeetingStep spec E versionField)
      (SharedState.start spec disk) s) :
    SharedInvariant spec versionField s := by
  induction hrun with
  | refl =>
      refine ⟨⟨hrest.answers, trivial⟩, ?_, trivial, ?_⟩
      · intro p hp
        cases hp
      · intro fingerprint sources hcached
        cases hcached
  | tail _ hstep ih =>
      obtain ⟨a, hstep, hmeets⟩ := hstep
      exact ih.step hversion hstep hmeets

end Survival

/-- From a tree that is right at rest, in every interleaving of a compactor and a
reader whose steps meet their conditions, a read that finds all its files serves the
newest rows. -/
theorem read_serves_newest_of_run
    (spec : DatasetSpec) (E : RankEngine) (versionField : String)
    (hversion : spec.versionField = some versionField)
    (disk : Disk) (hrest : RightAtRest spec versionField disk)
    (s : SharedState)
    (hrun : Relation.ReflTransGen (SharedMeetingStep spec E versionField)
      (SharedState.start spec disk) s)
    (rows : List Row) (hread : s.reader.phase = .answered (some rows)) :
    ServesNewest spec versionField s.compaction.published rows := by
  have hphase := (SharedInvariant.of_run hversion hrest hrun).phase
  rw [hread] at hphase
  exact hphase

/-! ## A read that straddles a compaction -/

/-- The stages of the Opportunity: seed, first partition, second partition. -/
def twoDays : Disk :=
  twoPartitions (opportunityRow "006a" "Proposal" "2026-07-25T08:00:00Z")
    (opportunityRow "006a" "Negotiation" "2026-07-26T08:00:00Z")

def twoDaysMerged : Disk :=
  mergedTree (opportunityRow "006a" "Proposal" "2026-07-25T08:00:00Z")
    (opportunityRow "006a" "Negotiation" "2026-07-26T08:00:00Z")

def twoDaysCompacted : Disk :=
  (remove twoDaysMerged twoPartitionsPlan.partitions).1

theorem freshlyPublished_twoDays :
    FreshlyPublished deployedOpportunity "SystemModstamp" twoDays := by
  apply freshlyPublished_twoPartitions
  · unfold NoTies
    simp
    decide
  · unfold NewerThan
    decide

theorem publishedDeltas_of_supported
    {disk : Disk} {deltas : List Path}
    (hsupported : ∀ path ∈ disk.paths,
      deployedOpportunity.matchesDelta path = true → DatasetSpec.supported path = true)
    (hdeltas : deltas = sortedSet (disk.paths.filter deployedOpportunity.isDeltaPath)) :
    deployedOpportunity.publishedDeltas disk = .ok deltas :=
  (DatasetSpec.publishedDeltas_eq_ok_iff _ _ _).mpr
    ⟨fun path hread => hsupported path ((Disk.mem_paths disk path).mpr hread), hdeltas⟩

/-- Between its two looks at the base the reader lists both partitions. -/
theorem read_serves_newest_around_merge :
    ∃ s rows, s.reader.phase = .answered (some rows) ∧
      ServesNewest deployedOpportunity "SystemModstamp"
        (SharedState.compaction s).published rows := by
  have hdeltas : deployedOpportunity.publishedDeltas twoDaysMerged =
      .ok twoPartitionsPlan.partitions :=
    publishedDeltas_of_supported (by decide +kernel) (by decide +kernel)
  have hserved : ((latestVersionSql deployedOpportunity
      (sortedSet (deployedOpportunity.effectiveBase twoDays ++ twoPartitionsPlan.partitions))
      (deployedOpportunity.effectiveBase twoDaysMerged)).rows deployedOpportunity
        firstInScanEngine twoDaysMerged.read).isSome = true := by
    decide +kernel
  obtain ⟨rows, hrows⟩ := Option.isSome_iff_exists.mp hserved
  refine ⟨⟨⟨twoDaysMerged, .removing twoPartitionsPlan twoPartitionsPlan.partitions,
        (CompactionState.start deployedOpportunity twoDays).published⟩,
      ⟨.answered ((latestVersionSql deployedOpportunity
          (sortedSet (deployedOpportunity.effectiveBase twoDays ++
            twoPartitionsPlan.partitions))
          (deployedOpportunity.effectiveBase twoDaysMerged)).rows deployedOpportunity
            firstInScanEngine twoDaysMerged.read),
        some (deployedOpportunity.structuralFingerprint twoDays,
          sortedSet (deployedOpportunity.effectiveBase twoDays ++
            twoPartitionsPlan.partitions))⟩⟩, rows,
    congrArg ReaderPhase.answered hrows, ?_⟩
  refine read_serves_newest_of_run deployedOpportunity firstInScanEngine "SystemModstamp" rfl
    twoDays freshlyPublished_twoDays.rightAtRest _ ?_ rows (congrArg ReaderPhase.answered hrows)
  refine Relation.ReflTransGen.head ⟨.reader, .reader (.sign rfl), trivial⟩ ?_
  refine Relation.ReflTransGen.head ⟨.reader, .reader (.base rfl
    (fun _ hcached => by cases hcached)), trivial⟩ ?_
  refine Relation.ReflTransGen.head ⟨.compactor (.plan seedReadOnly), .compactor trivial
    (plan_step_twoPartitions _ _ _), writerMatchesReader_twoPartitions _ _,
    fun haction => by cases haction⟩ ?_
  refine Relation.ReflTransGen.head ⟨.compactor .merge, .compactor trivial
    (merge_step_twoPartitions _ _ _), trivial, fun haction => by cases haction⟩ ?_
  refine Relation.ReflTransGen.head ⟨.reader, .reader (.deltas rfl hdeltas), trivial⟩ ?_
  refine Relation.ReflTransGen.head ⟨.reader, .reader (.name rfl), trivial⟩ ?_
  exact Relation.ReflTransGen.single ⟨.reader, .reader (.openFiles rfl), trivial⟩

/-- The base is looked up before the compaction, the rest after it: the reader
finds no partitions and takes the seed file for one. -/
theorem straddling_read_serves_seed_row :
    RightAtRest deployedOpportunity "SystemModstamp" twoDays ∧
    ∃ s rows, Relation.ReflTransGen
        (SharedAnyStep deployedOpportunity firstInScanEngine "SystemModstamp")
        (SharedState.start deployedOpportunity twoDays) s ∧
      s.reader.phase = .answered (some rows) ∧
      ¬ ServesNewest deployedOpportunity "SystemModstamp" s.compaction.published rows := by
  have hdeltas : deployedOpportunity.publishedDeltas twoDaysCompacted = .ok [] :=
    publishedDeltas_of_supported (by decide +kernel) (by decide +kernel)
  have hserved : ((latestVersionSql deployedOpportunity
      (sortedSet (deployedOpportunity.effectiveBase twoDays ++ []))
      (deployedOpportunity.effectiveBase twoDaysCompacted)).rows deployedOpportunity
        firstInScanEngine twoDaysCompacted.read).map
          (List.map (fun r : Row => r "SystemModstamp")) =
        some [some (.text "2026-07-24T08:00:00Z")] := by
    decide +kernel
  obtain ⟨rows, hrows, hstamps⟩ := Option.map_eq_some_iff.mp hserved
  have hlt : "2026-07-24T08:00:00Z" < "2026-07-26T08:00:00Z" := by decide
  refine ⟨freshlyPublished_twoDays.rightAtRest,
    ⟨⟨twoDaysCompacted, .removing twoPartitionsPlan [],
        (CompactionState.start deployedOpportunity twoDays).published⟩,
      ⟨.answered ((latestVersionSql deployedOpportunity
          (sortedSet (deployedOpportunity.effectiveBase twoDays ++ []))
          (deployedOpportunity.effectiveBase twoDaysCompacted)).rows deployedOpportunity
            firstInScanEngine twoDaysCompacted.read),
        some (deployedOpportunity.structuralFingerprint twoDays,
          sortedSet (deployedOpportunity.effectiveBase twoDays ++ []))⟩⟩, rows, ?_,
    congrArg ReaderPhase.answered hrows,
    not_servesNewest_of_stamp "006a" "Negotiation" hstamps hlt ?_⟩
  · refine Relation.ReflTransGen.head ⟨.reader, .reader (.sign rfl)⟩ ?_
    refine Relation.ReflTransGen.head ⟨.reader, .reader (.base rfl
      (fun _ hcached => by cases hcached))⟩ ?_
    refine Relation.ReflTransGen.head ⟨.compactor (.plan seedReadOnly), .compactor trivial
      (plan_step_twoPartitions _ _ _)⟩ ?_
    refine Relation.ReflTransGen.head ⟨.compactor .merge, .compactor trivial
      (merge_step_twoPartitions _ _ _)⟩ ?_
    refine Relation.ReflTransGen.head ⟨.compactor .unlink, .compactor trivial
      (.unlink rfl)⟩ ?_
    refine Relation.ReflTransGen.head ⟨.compactor .unlink, .compactor trivial
      (.unlink rfl)⟩ ?_
    refine Relation.ReflTransGen.head ⟨.reader, .reader
      (.deltas rfl hdeltas)⟩ ?_
    refine Relation.ReflTransGen.head ⟨.reader, .reader (.name rfl)⟩ ?_
    exact Relation.ReflTransGen.single ⟨.reader, .reader (.openFiles rfl)⟩
  · simp only [CompactionState.start, twoDays, deltaRows_twoPartitions]
    simp

end FakeForce
end Northwind
