import Northwind.FakeForce.LatestVersionView

/-!
# Compacting the published partitions of an object

`compact` merges the effective base and every published partition into one
file, publishes it, then unlinks the partitions it listed.

The writer puts the merged file under the first delta root that is writable;
the reader takes the merged file of the first delta root that holds one.
`everyCompactionPreserves_iff` says exactly when the two agree: over any run of
publications and compactions, a compaction that finishes keeps every id and its
newest row reachable if and only if no delta root that sorts before the chosen
one already holds a merged base.
-/

namespace Northwind
namespace FakeForce

open NewestPerKey

/-- What the operating system answers during one run. -/
structure Host where
  /-- `os.access(path, os.W_OK)` -/
  writable : Path → Bool
  /-- `require_disk_reserve` passes in this directory. -/
  reserveMet : Path → Bool

inductive CompactionError where
  | noVersionField (objectName : String)
  | noDeltaPartitions (objectName : String)
  | noWritableRoot (objectName : String) (roots : List Path)
  | catalog (error : CatalogError)
  | notADirectory (path : Path)
  | insufficientDiskSpace (directory : Path)
  | missingFile
deriving DecidableEq

structure CompactionPlan where
  objectName : String
  basePaths : List Path
  partitions : List Path
  compactedPath : Path
deriving DecidableEq

structure CompactionResult where
  objectName : String
  partitionsMerged : Nat
  rowsWritten : Nat
  removed : Nat
deriving DecidableEq

/-- `_nearest_existing_ancestor_is_writable` -/
def nearestExistingAncestorIsWritable (host : Host) (disk : Disk) (path : Path) : Bool :=
  match path.inits.reverse.find? disk.pathExists with
  | some ancestor => host.writable ancestor
  | none => false

namespace DatasetSpec

/-- The first delta root that can be written to. -/
def writableRoot (spec : DatasetSpec) (host : Host) (disk : Disk) : Option Path :=
  spec.deltaRoots.find? (nearestExistingAncestorIsWritable host disk)

/-- The stored column the versions come from. -/
def versionColumn (spec : DatasetSpec) (versionField : String) : String :=
  (spec.compatibilityAliases.lookup versionField).getD versionField

end DatasetSpec

/-- `DeltaCompactor.plan` -/
def plan (spec : DatasetSpec) (host : Host) (disk : Disk) :
    Except CompactionError CompactionPlan :=
  if spec.versionField = none then .error (.noVersionField spec.objectName)
  else if spec.deltaPatterns = [] then .error (.noDeltaPartitions spec.objectName)
  else
    match spec.publishedDeltas disk with
    | .error e => .error (.catalog e)
    | .ok partitions =>
        match spec.writableRoot host disk with
        | none => .error (.noWritableRoot spec.objectName spec.deltaRoots)
        | some root =>
            .ok {
              objectName := spec.objectName
              basePaths := spec.effectiveBase disk
              partitions := partitions
              compactedPath := DatasetSpec.compactedFile root }

/-- The rows `_write_merged` copies: the stored columns, one row per id. -/
def mergedRows (spec : DatasetSpec) (E : RankEngine) (versionField : String)
    (rows : List Row) : List Row :=
  newestPerKey spec.idOf (E (spec.versionColumn versionField)) rows

/-- One turn of the loop of `_remove`, and whether it unlinked the file. -/
def removePartition (disk : Disk) (path : Path) : Disk × Bool :=
  if disk.isFile path then
    let unlinked := disk.unlink path
    if (unlinked.entries path.parent).isEmpty then (unlinked.rmdir path.parent, true)
    else (unlinked, true)
  else (disk, false)

/-- `DeltaCompactor._remove` -/
def remove (disk : Disk) : List Path → Disk × Nat
  | [] => (disk, 0)
  | path :: paths =>
      let step := removePartition disk path
      let rest := remove step.1 paths
      (rest.1, (if step.2 then 1 else 0) + rest.2)

/-- `_write_merged`: read the planned files, publish the merged one. -/
def writeMerged (spec : DatasetSpec) (E : RankEngine) (disk : Disk)
    (paths : List Path) (destination : Path) : Option (Disk × Nat) := do
  let versionField ← spec.versionField
  let rows ← sourceReader disk.read paths
  let merged := mergedRows spec E versionField rows
  return (disk.replace destination merged, merged.length)

/-- `DeltaCompactor.compact`: the tree afterwards, and the result or error. -/
def compact (spec : DatasetSpec) (E : RankEngine) (host : Host) (disk : Disk) :
    Disk × Except CompactionError CompactionResult :=
  match plan spec host disk with
  | .error e => (disk, .error e)
  | .ok plan =>
      if plan.partitions = [] then (disk, .ok ⟨plan.objectName, 0, 0, 0⟩)
      else
        let destination := plan.compactedPath
        match destination.parent.inits.find? disk.isFile with
        | some file => (disk, .error (.notADirectory file))
        | none =>
            let ready := disk.mkdirs destination.parent
            if host.reserveMet destination.parent then
              match writeMerged spec E ready (plan.basePaths ++ plan.partitions)
                  destination with
              | none => (ready, .error .missingFile)
              | some (published, rows) =>
                  let removed := remove published plan.partitions
                  (removed.1,
                    .ok ⟨plan.objectName, plan.partitions.length, rows, removed.2⟩)
            else (ready, .error (.insufficientDiskSpace destination.parent))

theorem plan_eq_ok_iff
    (spec : DatasetSpec) (host : Host) (disk : Disk) (p : CompactionPlan) :
    plan spec host disk = .ok p ↔
      spec.versionField ≠ none ∧ spec.deltaPatterns ≠ [] ∧
      spec.publishedDeltas disk = .ok p.partitions ∧
      p.objectName = spec.objectName ∧
      p.basePaths = spec.effectiveBase disk ∧
      ∃ root, spec.writableRoot host disk = some root ∧
        p.compactedPath = DatasetSpec.compactedFile root := by
  unfold plan
  constructor
  · intro h
    by_cases hversion : spec.versionField = none
    · simp [hversion] at h
    by_cases hpatterns : spec.deltaPatterns = []
    · simp [hversion, hpatterns] at h
    simp only [hversion, hpatterns, if_false] at h
    cases hdeltas : spec.publishedDeltas disk with
    | error e => simp [hdeltas] at h
    | ok partitions =>
        cases hroot : spec.writableRoot host disk with
        | none => simp [hdeltas, hroot] at h
        | some root =>
            simp only [hdeltas, hroot, Except.ok.injEq] at h
            subst h
            exact ⟨hversion, hpatterns, rfl, rfl, rfl, root, rfl, rfl⟩
  · rintro ⟨hversion, hpatterns, hdeltas, hname, hbase, root, hroot, hpath⟩
    obtain ⟨name, basePaths, partitions, compactedPath⟩ := p
    simp only at hdeltas hname hbase hpath
    subst hname hbase hpath
    simp [hversion, hpatterns, hdeltas, hroot]

/-! ## What a finished compaction leaves behind -/

theorem read_removePartition_self (disk : Disk) (path : Path) :
    (removePartition disk path).1.read path = none := by
  unfold removePartition
  split
  · simp only
    split <;> simp
  · rename_i hmissing
    simpa using hmissing

theorem read_removePartition_of_ne
    (disk : Disk) {path other : Path} (h : other ≠ path) :
    (removePartition disk path).1.read other = disk.read other := by
  unfold removePartition
  split
  · simp only
    split <;> simp [Disk.read_unlink_of_ne disk h]
  · rfl

theorem read_remove (disk : Disk) (paths : List Path) (path : Path) :
    (remove disk paths).1.read path =
      if path ∈ paths then none else disk.read path := by
  induction paths generalizing disk with
  | nil => simp [remove]
  | cons head paths ih =>
      simp only [remove, ih, List.mem_cons]
      by_cases hpaths : path ∈ paths
      · simp [hpaths]
      · by_cases hhead : path = head
        · subst hhead
          simp [hpaths, read_removePartition_self]
        · simp [hpaths, hhead, read_removePartition_of_ne disk hhead]

/-- A compaction that finishes and had something to merge. -/
structure Merged (spec : DatasetSpec) (E : RankEngine) (host : Host)
    (before after : Disk) (p : CompactionPlan) : Prop where
  planned : plan spec host before = .ok p
  worthwhile : p.partitions ≠ []
  finished : ∃ result, compact spec E host before = (after, .ok result)

/-- A merging compaction writes the merged file and then removes. -/
theorem Merged.written
    {spec : DatasetSpec} {E : RankEngine} {host : Host}
    {before after : Disk} {p : CompactionPlan}
    (h : Merged spec E host before after p) :
    ∃ published rows,
      writeMerged spec E (before.mkdirs p.compactedPath.parent)
        (p.basePaths ++ p.partitions) p.compactedPath = some (published, rows) ∧
      after = (remove published p.partitions).1 := by
  obtain ⟨result, hresult⟩ := h.finished
  unfold compact at hresult
  rw [h.planned] at hresult
  simp only [h.worthwhile, if_false] at hresult
  split at hresult
  · cases hresult
  · split at hresult
    · split at hresult
      · cases hresult
      · rename_i published rows hwrite
        exact ⟨published, rows, hwrite, (Prod.mk.inj hresult).1.symm⟩
    · cases hresult

/-- The tree a merging compaction leaves: the merged file is in place, the
listed partitions are gone and every other file is untouched. -/
theorem Merged.read_after
    {spec : DatasetSpec} {E : RankEngine} {host : Host}
    {before after : Disk} {p : CompactionPlan}
    (h : Merged spec E host before after p) :
    ∃ versionField rows,
      spec.versionField = some versionField ∧
      sourceReader before.read (p.basePaths ++ p.partitions) = some rows ∧
      after.read p.compactedPath =
        (if p.compactedPath ∈ p.partitions then none
          else some (mergedRows spec E versionField rows)) ∧
      ∀ path, path ≠ p.compactedPath →
        after.read path = if path ∈ p.partitions then none else before.read path := by
  obtain ⟨published, written, hwrite, rfl⟩ := h.written
  simp only [writeMerged, Disk.read_mkdirs, Option.bind_eq_bind,
    Option.bind_eq_some_iff] at hwrite
  obtain ⟨versionField, hversion, rows, hrows, hpublished⟩ := hwrite
  cases hpublished
  refine ⟨versionField, rows, hversion, hrows, ?_, ?_⟩
  · rw [read_remove, Disk.read_replace_self]
  · intro path hpath
    rw [read_remove, Disk.read_replace_of_ne _ _ hpath, Disk.read_mkdirs]

namespace DatasetSpec

theorem compactedFile_injective : Function.Injective compactedFile := by
  intro a b h
  simpa [compactedFile] using h

theorem writableRoot_mem
    {spec : DatasetSpec} {host : Host} {disk : Disk} {root : Path}
    (h : spec.writableRoot host disk = some root) :
    root ∈ spec.deltaRoots :=
  List.mem_of_find?_eq_some h

/-- The reader takes the merged base of `root` exactly when it is there and no
root that sorts before holds one. -/
theorem compactedBase_eq_compactedFile_iff
    {spec : DatasetSpec} (disk : Disk) {root : Path}
    (hroot : root ∈ spec.deltaRoots) :
    spec.compactedBase disk = some (compactedFile root) ↔
      disk.isFile (compactedFile root) = true ∧
      ∀ earlier ∈ spec.deltaRoots, earlier < root →
        disk.isFile (compactedFile earlier) = false := by
  rw [compactedBase_eq_some_iff]
  constructor
  · rintro ⟨before, root', after, hsplit, hfile, hisFile, hbefore⟩
    have heq := compactedFile_injective hfile
    subst heq
    refine ⟨hisFile, ?_⟩
    intro earlier hmem hlt
    exact hbefore earlier ((mem_before_sortedSet_iff hsplit).mpr ⟨hmem, hlt⟩)
  · rintro ⟨hisFile, hbefore⟩
    obtain ⟨before, after, hsplit⟩ := List.append_of_mem hroot
    refine ⟨before, root, after, hsplit, rfl, hisFile, ?_⟩
    intro earlier hmem
    obtain ⟨hearlier, hlt⟩ := (mem_before_sortedSet_iff hsplit).mp hmem
    exact hbefore earlier hearlier hlt

end DatasetSpec

/-- No delta root that sorts before the chosen one already holds a merged
base, so the file the writer publishes is the one the reader takes. -/
def WriterMatchesReader (spec : DatasetSpec) (host : Host) (disk : Disk) : Prop :=
  ∀ root, spec.writableRoot host disk = some root →
    ∀ earlier ∈ spec.deltaRoots, earlier < root →
      disk.isFile (DatasetSpec.compactedFile earlier) = false

namespace DatasetSpec

theorem supported_compactedFile (root : Path) :
    supported (compactedFile root) = true := by
  simp only [supported, compactedFile, Path.name_append_singleton]
  decide

/-- A root that holds a merged base keeps the configured sources out. -/
theorem effectiveBase_eq_compactedFile_iff
    {spec : DatasetSpec} {disk : Disk} {root : Path}
    (hroot : root ∈ spec.deltaRoots)
    (hfile : disk.isFile (compactedFile root) = true) :
    spec.effectiveBase disk = [compactedFile root] ↔
      ∀ earlier ∈ spec.deltaRoots, earlier < root →
        disk.isFile (compactedFile earlier) = false := by
  have hiff := compactedBase_eq_compactedFile_iff disk hroot
  unfold effectiveBase
  cases hbase : spec.compactedBase disk with
  | some path =>
      rw [hbase, Option.some.injEq, hfile] at hiff
      simpa only [List.cons.injEq, and_true, true_and] using hiff
  | none =>
      unfold compactedBase at hbase
      rw [List.find?_eq_none] at hbase
      exact absurd hfile (hbase _ (List.mem_map_of_mem hroot))

end DatasetSpec

/-- The version read through the aliases is the stored column's. -/
theorem version_aliased
    (spec : DatasetSpec) (versionField : String) (r : Row) :
    (spec.aliased r).version versionField =
      r.version (spec.versionColumn versionField) := by
  unfold Row.version DatasetSpec.aliased DatasetSpec.versionColumn
  cases spec.compatibilityAliases.lookup versionField <;> rfl

section Finished

variable {spec : DatasetSpec} {E : RankEngine} {host : Host}
variable {before after : Disk} {p : CompactionPlan}

/-- No partition is left after a merging compaction. -/
theorem Merged.publishedDeltas_after (h : Merged spec E host before after p) :
    spec.publishedDeltas after = .ok [] := by
  obtain ⟨_, _, hdeltas, _, _, root, _, hpath⟩ :=
    (plan_eq_ok_iff spec host before p).mp h.planned
  obtain ⟨_, _, _, _, _, hother⟩ := h.read_after
  have hsupported := ((spec.publishedDeltas_eq_ok_iff before p.partitions).mp hdeltas).1
  rw [DatasetSpec.publishedDeltas_eq_ok_iff]
  constructor
  · intro path hread hmatch
    by_cases heq : path = p.compactedPath
    · rw [heq, hpath]
      exact DatasetSpec.supported_compactedFile root
    · rw [hother path heq] at hread
      split at hread
      · simp at hread
      · exact hsupported path hread hmatch
  · have hnone : after.paths.filter spec.isDeltaPath = [] := by
      rw [List.filter_eq_nil_iff]
      intro path hmem hdelta
      have hread := (after.mem_paths path).mp hmem
      have hne : path ≠ p.compactedPath := by
        intro heq
        rw [heq, hpath, DatasetSpec.isDeltaPath_compactedFile] at hdelta
        cases hdelta
      rw [hother path hne] at hread
      split at hread
      · simp at hread
      · rename_i hnot
        exact hnot ((DatasetSpec.mem_publishedDeltas hdeltas path).mpr ⟨hread, hdelta⟩)
    rw [hnone]
    rfl

/-- The reader's base is the file just written exactly when no root that sorts
before the chosen one held a merged base. -/
theorem Merged.effectiveBase_after_iff (h : Merged spec E host before after p) :
    spec.effectiveBase after = [p.compactedPath] ↔
      WriterMatchesReader spec host before := by
  obtain ⟨_, _, hdeltas, _, _, root, hroot, hpath⟩ :=
    (plan_eq_ok_iff spec host before p).mp h.planned
  obtain ⟨_, _, _, _, hself, hother⟩ := h.read_after
  have hmem := DatasetSpec.writableRoot_mem hroot
  have hnotListed := DatasetSpec.compactedFile_notMem_publishedDeltas hdeltas
  have hfile : after.isFile (DatasetSpec.compactedFile root) = true := by
    rw [← hpath, Disk.isFile_eq_read, hself, if_neg (by rw [hpath]; exact hnotListed root)]
    rfl
  have hsame : ∀ earlier, earlier < root →
      after.isFile (DatasetSpec.compactedFile earlier) =
        before.isFile (DatasetSpec.compactedFile earlier) := by
    intro earlier hlt
    have hne : DatasetSpec.compactedFile earlier ≠ p.compactedPath := by
      rw [hpath]
      exact fun heq => hlt.ne (DatasetSpec.compactedFile_injective heq)
    rw [Disk.isFile_eq_read, Disk.isFile_eq_read, hother _ hne,
      if_neg (hnotListed earlier)]
  rw [hpath, DatasetSpec.effectiveBase_eq_compactedFile_iff hmem hfile]
  unfold WriterMatchesReader
  rw [hroot]
  constructor
  · intro hfree root' heq earlier hearlier hlt
    cases heq
    rw [← hsame earlier hlt]
    exact hfree earlier hearlier hlt
  · intro hfree earlier hearlier hlt
    rw [hsame earlier hlt]
    exact hfree root rfl earlier hearlier hlt

/-- The view after a merging compaction is the merged file with its aliases. -/
theorem Merged.view_after (h : Merged spec E host before after p)
    (hbase : spec.effectiveBase after = [p.compactedPath]) :
    ∃ versionField rows,
      spec.versionField = some versionField ∧
      sourceReader before.read (p.basePaths ++ p.partitions) = some rows ∧
      view spec E after = some ((mergedRows spec E versionField rows).map spec.aliased) := by
  obtain ⟨_, _, hdeltas, _, _, root, _, hpath⟩ :=
    (plan_eq_ok_iff spec host before p).mp h.planned
  obtain ⟨versionField, rows, hversion, hrows, hself, _⟩ := h.read_after
  have hnotListed := DatasetSpec.compactedFile_notMem_publishedDeltas hdeltas root
  rw [← hpath] at hnotListed
  rw [if_neg hnotListed] at hself
  have hsources : spec.resolveSources after = .ok [p.compactedPath] := by
    unfold DatasetSpec.resolveSources
    rw [h.publishedDeltas_after, hbase]
    rfl
  refine ⟨versionField, rows, hversion, hrows, ?_⟩
  unfold view
  rw [hsources, hbase]
  simp [latestVersionSql, hversion, LatestVersionSql.rows, sourceReader, hself]

end Finished

/-! ## Runs of publications and compactions -/

/-- The rows of every file a reader of this tree resolves, with the aliases. -/
def resolvedRows (spec : DatasetSpec) (disk : Disk) : Option (List Row) :=
  match spec.resolveSources disk with
  | .ok sources => (sourceReader disk.read sources).map (List.map spec.aliased)
  | .error _ => none

/-- The reader takes the file just written as its base, and serves every id of
the files it resolved before once, by a newest row of that id. -/
def KeepsRowsReachable (spec : DatasetSpec) (E : RankEngine)
    (before after : Disk) (p : CompactionPlan) : Prop :=
  spec.effectiveBase after = [p.compactedPath] ∧
  ∃ versionField stored served,
    spec.versionField = some versionField ∧
    resolvedRows spec before = some stored ∧
    view spec E after = some served ∧
    (served.map spec.idOf).Nodup ∧
    (∀ id, (∃ r ∈ served, spec.idOf r = id) ↔ ∃ r ∈ stored, spec.idOf r = id) ∧
    ∀ r ∈ served, IsNewest spec.idOf (Row.version versionField) stored r

/-- One operation on the tree. -/
inductive TreeOp where
  | publish (path : Path) (rows : List Row)
  | compact (host : Host)

def TreeOp.run (spec : DatasetSpec) (E : RankEngine) (disk : Disk) : TreeOp → Disk
  | .publish path rows => (disk.mkdirs path.parent).replace path rows
  | .compact host => (FakeForce.compact spec E host disk).1

/-- `P` holds of every merging compaction of a run that finishes. -/
def AtEveryMerge (spec : DatasetSpec) (E : RankEngine)
    (P : Host → Disk → Disk → CompactionPlan → Prop) : Disk → List TreeOp → Prop
  | _, [] => True
  | disk, op :: ops =>
      (∀ host, op = .compact host → ∀ after p,
        Merged spec E host disk after p → P host disk after p) ∧
      AtEveryMerge spec E P (op.run spec E disk) ops

theorem AtEveryMerge.congr
    {spec : DatasetSpec} {E : RankEngine}
    {P Q : Host → Disk → Disk → CompactionPlan → Prop}
    (hstep : ∀ host before after p,
      Merged spec E host before after p → (P host before after p ↔ Q host before after p))
    (start : Disk) (ops : List TreeOp) :
    AtEveryMerge spec E P start ops ↔ AtEveryMerge spec E Q start ops := by
  induction ops generalizing start with
  | nil => rfl
  | cons op ops ih =>
      unfold AtEveryMerge
      rw [ih]
      apply and_congr_left
      intro _
      constructor
      · intro h host hop after p hmerged
        exact (hstep host start after p hmerged).mp (h host hop after p hmerged)
      · intro h host hop after p hmerged
        exact (hstep host start after p hmerged).mpr (h host hop after p hmerged)

/-- A merging compaction keeps every row reachable exactly when the writer's
root is the one the reader looks in. -/
theorem Merged.keepsRowsReachable_iff
    {spec : DatasetSpec} {E : RankEngine} {host : Host}
    {before after : Disk} {p : CompactionPlan}
    (h : Merged spec E host before after p) :
    KeepsRowsReachable spec E before after p ↔ WriterMatchesReader spec host before := by
  rw [← h.effectiveBase_after_iff]
  refine ⟨fun hkeeps => hkeeps.1, fun hbase => ⟨hbase, ?_⟩⟩
  obtain ⟨versionField, rows, hversion, hrows, hview⟩ := h.view_after hbase
  obtain ⟨_, _, hdeltas, _, hbasePaths, _, _, _⟩ :=
    (plan_eq_ok_iff spec host before p).mp h.planned
  have hresolve : spec.resolveSources before =
      .ok (sortedSet (p.basePaths ++ p.partitions)) := by
    unfold DatasetSpec.resolveSources
    rw [hdeltas, hbasePaths]
    rfl
  have hreadable := (exists_sourceReader_iff _ _).mp ⟨rows, hrows⟩
  obtain ⟨stored, hstored⟩ : ∃ stored,
      sourceReader before.read (sortedSet (p.basePaths ++ p.partitions)) = some stored := by
    rw [exists_sourceReader_iff]
    intro path hpath
    exact hreadable path ((mem_sortedSet _ path).mp hpath)
  have hsame : ∀ r, r ∈ rows ↔ r ∈ stored := by
    intro r
    rw [mem_of_sourceReader hrows, mem_of_sourceReader hstored]
    simp only [mem_sortedSet]
  refine ⟨versionField, stored.map spec.aliased, _, hversion, ?_, hview, ?_, ?_, ?_⟩
  · unfold resolvedRows
    rw [hresolve]
    simp [hstored]
  · have hnodup : ((mergedRows spec E versionField rows).map spec.idOf).Nodup :=
      nodup_keys_newestPerKey _ rows
    simpa [List.map_map, Function.comp_def] using hnodup
  · intro id
    have hkeys : (∃ r ∈ mergedRows spec E versionField rows, spec.idOf r = id) ↔
        ∃ r ∈ rows, spec.idOf r = id :=
      mem_keys_newestPerKey _ rows id
    simpa [hsame] using hkeys
  · intro r hr
    obtain ⟨m, hm, rfl⟩ := List.mem_map.mp hr
    obtain ⟨hmem, hmax⟩ := isNewest_of_mem_newestPerKey _ hm
    refine ⟨List.mem_map_of_mem ((hsame m).mp hmem), ?_⟩
    intro r' hr' hkey
    obtain ⟨m', hm', rfl⟩ := List.mem_map.mp hr'
    rw [version_aliased, version_aliased]
    apply hmax m' ((hsame m').mpr hm')
    simpa using hkey

/-- In every run of publications and compactions: each compaction that finishes
is read back and loses no row, exactly when before each of them no delta root
that sorts before the first writable one holds a merged base. -/
theorem everyCompactionKeepsRowsReachable_iff
    (spec : DatasetSpec) (E : RankEngine) (start : Disk) (ops : List TreeOp) :
    AtEveryMerge spec E (fun _ before after p => KeepsRowsReachable spec E before after p)
        start ops ↔
      AtEveryMerge spec E (fun host before _ _ => WriterMatchesReader spec host before)
        start ops :=
  AtEveryMerge.congr
    (fun _ _ _ _ hmerged => hmerged.keepsRowsReachable_iff) start ops

/-! ## A seed root that is writable in the first run only -/

/-- The mounted seed and an empty state directory. -/
def seededDisk (seed : List Row) : Disk :=
  (((⟨∅, ∅, 0⟩ : Disk).mkdirs ["app", "state"]).mkdirs ["app", "seed"]).replace
    ["app", "seed", "crm_opportunities.parquet"] seed

def everythingWritable : Host :=
  ⟨fun _ => true, fun _ => true⟩

def seedReadOnly : Host :=
  ⟨fun path => !(["app", "seed"].isPrefixOf path), fun _ => true⟩

/-- One day of publications before each of two compactions. -/
def remountedRun : List TreeOp :=
  [.publish (opportunityPartition "2026-07-25")
      [opportunityRow "006a" "Proposal" "2026-07-25T08:00:00Z"],
    .compact everythingWritable,
    .publish (opportunityPartition "2026-07-26")
      [opportunityRow "006a" "Negotiation" "2026-07-26T08:00:00Z"],
    .compact seedReadOnly]

/-- The second run publishes under the state root, where no reader looks as
long as the seed root holds the first merged base. -/
theorem remountedRun_loses_a_partition :
    ¬ AtEveryMerge deployedOpportunity firstInScanEngine
      (fun _ before after p => KeepsRowsReachable deployedOpportunity firstInScanEngine
        before after p)
      (seededDisk [opportunityRow "006a" "Prospecting" "2026-07-24T08:00:00Z"])
      remountedRun := by
  rintro ⟨_, _, _, hlast, _⟩
  have hkeeps := hlast seedReadOnly rfl _
    { objectName := "Opportunity"
      basePaths := [["app", "seed", "opportunities", "compacted", "base.parquet"]]
      partitions := [opportunityPartition "2026-07-26"]
      compactedPath :=
        ["app", "state", "simulation", "crm", "opportunities", "compacted", "base.parquet"] }
    ⟨rfl, by decide, ⟨"Opportunity", 1, 1, 1⟩, rfl⟩
  have hbase := hkeeps.1
  revert hbase
  decide +kernel

end FakeForce
end Northwind
