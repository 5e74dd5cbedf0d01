import Northwind.FakeForce.Compaction
import Northwind.FakeForce.QueryPlans

/-!
# Snapshot ids

`DatasetCatalog.snapshot_id` hashes, for every object, the files it resolves
with their signatures.  Within one run of publications and compactions a
signature names one content, so without a collision of the hash two trees of one
snapshot id serve the same rows of every object
(`Service.objectRows_eq_of_snapshotId`).

The memo in front of the id is left out, and of what it hashes the size, the
mode and the schema; the last two do not change while the process runs.
-/

namespace Northwind
namespace FakeForce

/-- What `_compute_snapshot_id` hashes for one object. -/
structure SnapshotEntry where
  name : String
  idField : String
  softDeleteField : Option String
  sources : List (Path × Option Nat)
deriving DecidableEq

/-- The serving process: its catalog, its database and its hash function. -/
structure Service where
  objects : List DatasetSpec
  ranking : RankEngine
  queries : QueryEngine
  digest : List SnapshotEntry → String

namespace Service

/-- The entry of one object, from its current sources. -/
def snapshotEntry (spec : DatasetSpec) (disk : Disk) : Except CatalogError SnapshotEntry :=
  match spec.resolveSources disk with
  | .error e => .error e
  | .ok sources =>
      .ok ⟨spec.objectName, spec.idField, spec.softDeleteField,
        sources.map (fun path => (path, DatasetSpec.fileSignature disk path))⟩

/-- `DatasetCatalog.snapshot_id` -/
def snapshotId (service : Service) (disk : Disk) : Except CatalogError String :=
  match service.objects.mapM (fun spec => snapshotEntry spec disk) with
  | .error e => .error e
  | .ok entries => .ok (service.digest entries)

/-- The rows a connection opened now serves for the object of a query. -/
def objectRows (service : Service) (plan : QueryPlan) (disk : Disk) : Option (List Row) :=
  match service.objects.find? (fun spec => spec.objectName = plan.objectName) with
  | none => none
  | some spec => view spec service.ranking disk

end Service

/-! ## Trees of one run -/

theorem follows_removePartition (disk : Disk) (path : Path) :
    Disk.Follows disk (removePartition disk path).1 := by
  have hunlink := disk.follows_unlink path
  unfold removePartition
  split
  · simp only
    split
    · exact hunlink.trans (Disk.follows_rmdir _ _)
    · exact hunlink
  · exact Disk.Follows.refl disk

theorem follows_remove (disk : Disk) (paths : List Path) :
    Disk.Follows disk (remove disk paths).1 := by
  induction paths generalizing disk with
  | nil => exact Disk.Follows.refl disk
  | cons path paths ih =>
      exact (follows_removePartition disk path).trans (ih (removePartition disk path).1)

theorem follows_writeMerged
    {spec : DatasetSpec} {E : RankEngine} {disk published : Disk}
    {paths : List Path} {destination : Path} {rows : Nat}
    (h : writeMerged spec E disk paths destination = some (published, rows)) :
    Disk.Follows disk published := by
  obtain ⟨versionField, _, h⟩ := Option.bind_eq_some_iff.mp h
  obtain ⟨read, _, h⟩ := Option.bind_eq_some_iff.mp h
  have hpublished : disk.replace destination (mergedRows spec E versionField read) =
      published := congrArg Prod.fst (Option.some.inj h)
  rw [← hpublished]
  exact disk.follows_replace destination (mergedRows spec E versionField read)

theorem follows_compact (spec : DatasetSpec) (E : RankEngine) (host : Host) (disk : Disk) :
    Disk.Follows disk (compact spec E host disk).1 := by
  unfold compact
  cases hplan : plan spec host disk with
  | error e => exact Disk.Follows.refl disk
  | ok p =>
      have hready := disk.follows_mkdirs p.compactedPath.parent
      by_cases hempty : p.partitions = []
      · simp only [hempty, if_true]
        exact Disk.Follows.refl disk
      · simp only [hempty, if_false]
        cases hfile : p.compactedPath.parent.inits.find? disk.isFile with
        | some file => exact Disk.Follows.refl disk
        | none =>
            by_cases hreserve : host.reserveMet p.compactedPath.parent = true
            · simp only [hreserve, if_true]
              cases hwritten : writeMerged spec E (disk.mkdirs p.compactedPath.parent)
                  (p.basePaths ++ p.partitions) p.compactedPath with
              | none => exact hready
              | some written =>
                  have hwrite := follows_writeMerged hwritten
                  exact (hready.trans hwrite).trans (follows_remove written.1 p.partitions)
            · simp only [hreserve]
              exact hready

theorem TreeOp.follows (spec : DatasetSpec) (E : RankEngine) (disk : Disk) (op : TreeOp) :
    Disk.Follows disk (op.run spec E disk) := by
  cases op with
  | publish path rows =>
      exact (disk.follows_mkdirs path.parent).trans (Disk.follows_replace _ path rows)
  | compact host => exact follows_compact spec E host disk

/-! ## One snapshot id, one set of rows -/

theorem find?_eq_of_agree
    {α : Type} {p q : α → Bool} {mem : α → Prop} {xs : List α}
    (hp : ∀ x, xs.find? p = some x → mem x)
    (hq : ∀ x, xs.find? q = some x → mem x)
    (h : ∀ x, mem x → p x = q x) :
    xs.find? p = xs.find? q := by
  induction xs with
  | nil => rfl
  | cons x xs ih =>
      rw [List.find?_cons, List.find?_cons]
      cases hpx : p x with
      | true =>
          have hmem := hp x (by rw [List.find?_cons, hpx])
          rw [← h x hmem, hpx]
      | false =>
          cases hqx : q x with
          | true =>
              have hmem := hq x (by rw [List.find?_cons, hqx])
              rw [h x hmem, hqx] at hpx
              cases hpx
          | false =>
              simp only [List.find?_cons, hpx, hqx] at hp hq
              exact ih hp hq

theorem sourceReader_congr
    {read read' : Path → Option (List Row)} {paths : List Path}
    (h : ∀ path ∈ paths, read' path = read path) :
    sourceReader read' paths = sourceReader read paths := by
  induction paths with
  | nil => rfl
  | cons path paths ih =>
      have hrest := ih (fun q hq => h q (List.mem_cons_of_mem _ hq))
      simp only [sourceReader, h path List.mem_cons_self, hrest]

section SameSources

variable {spec : DatasetSpec} {past now : Disk} {sources : List Path}

theorem mem_sources_of_compactedBase
    {disk : Disk} {compacted : Path}
    (hsources : spec.resolveSources disk = .ok sources)
    (hbase : spec.compactedBase disk = some compacted) :
    compacted ∈ sources := by
  unfold DatasetSpec.resolveSources at hsources
  cases hdeltas : spec.publishedDeltas disk with
  | error e =>
      rw [hdeltas] at hsources
      cases hsources
  | ok deltas =>
      rw [hdeltas] at hsources
      rw [← Except.ok.inj hsources, mem_sortedSet, DatasetSpec.effectiveBase, hbase]
      simp

/-- The same sources with the same files have the same base among them. -/
theorem effectiveBase_eq_of_sources
    (hpast : spec.resolveSources past = .ok sources)
    (hnow : spec.resolveSources now = .ok sources)
    (hread : ∀ path ∈ sources, now.read path = past.read path) :
    spec.effectiveBase now = spec.effectiveBase past := by
  have hbase : spec.compactedBase now = spec.compactedBase past := by
    apply find?_eq_of_agree (fun c hc => mem_sources_of_compactedBase hnow hc)
      (fun c hc => mem_sources_of_compactedBase hpast hc)
    intro c hc
    rw [Disk.isFile_eq_read, Disk.isFile_eq_read, hread c hc]
  simp only [DatasetSpec.effectiveBase, hbase]

theorem view_eq_of_sources
    (E : RankEngine)
    (hpast : spec.resolveSources past = .ok sources)
    (hnow : spec.resolveSources now = .ok sources)
    (hread : ∀ path ∈ sources, now.read path = past.read path) :
    view spec E now = view spec E past := by
  have hpart : ∀ keep : Path → Bool,
      sourceReader now.read (sources.filter keep) =
        sourceReader past.read (sources.filter keep) :=
    fun keep => sourceReader_congr (fun path hpath => hread path (List.mem_filter.mp hpath).1)
  have hall := sourceReader_congr hread
  simp only [view, hpast, hnow, effectiveBase_eq_of_sources hpast hnow hread, latestVersionSql]
  split
  · simp only [LatestVersionSql.rows, hall]
  · split_ifs <;> simp only [LatestVersionSql.rows, hpart]

end SameSources

/-- Equal entries of one run name the same files with the same contents. -/
theorem sources_of_snapshotEntry
    {spec : DatasetSpec} {past now : Disk} {entry : SnapshotEntry}
    (hpast : Service.snapshotEntry spec past = .ok entry)
    (hnow : Service.snapshotEntry spec now = .ok entry)
    (hfollows : Disk.Follows past now) (hstamped : past.Stamped) :
    ∃ sources, spec.resolveSources past = .ok sources ∧
      spec.resolveSources now = .ok sources ∧
      ∀ path ∈ sources, now.read path = past.read path := by
  cases hsources : spec.resolveSources past with
  | error e =>
      rw [Service.snapshotEntry, hsources] at hpast
      cases hpast
  | ok sources =>
      cases hsources' : spec.resolveSources now with
      | error e =>
          rw [Service.snapshotEntry, hsources'] at hnow
          cases hnow
      | ok sources' =>
          rw [Service.snapshotEntry, hsources] at hpast
          rw [Service.snapshotEntry, hsources'] at hnow
          have hentry := (Except.ok.inj hnow).trans (Except.ok.inj hpast).symm
          have hsigned := congrArg SnapshotEntry.sources hentry
          simp only at hsigned
          have hpaths : sources' = sources := by
            have hmap := congrArg (List.map Prod.fst) hsigned
            simpa [List.map_map, Function.comp_def] using hmap
          subst hpaths
          refine ⟨sources', rfl, rfl, ?_⟩
          intro path hpath
          have hpair := List.map_inj_left.mp hsigned path hpath
          exact hfollows.read_eq hstamped (Prod.mk.inj hpair).2

/-- Without collisions, two trees of one run with one snapshot id serve the same
rows of every object. -/
theorem Service.objectRows_eq_of_snapshotId
    {service : Service} {past now : Disk} {id : String}
    (hinjective : Function.Injective service.digest)
    (hpast : service.snapshotId past = .ok id)
    (hnow : service.snapshotId now = .ok id)
    (hfollows : Disk.Follows past now) (hstamped : past.Stamped)
    (plan : QueryPlan) :
    service.objectRows plan now = service.objectRows plan past := by
  unfold Service.snapshotId at hpast hnow
  cases hentries : service.objects.mapM (fun spec => Service.snapshotEntry spec past) with
  | error e =>
      rw [hentries] at hpast
      cases hpast
  | ok entries =>
      cases hentries' : service.objects.mapM (fun spec => Service.snapshotEntry spec now) with
      | error e =>
          rw [hentries'] at hnow
          cases hnow
      | ok entries' =>
          rw [hentries] at hpast
          rw [hentries'] at hnow
          have hsame : entries' = entries := by
            apply hinjective
            rw [Except.ok.inj hpast, Except.ok.inj hnow]
          subst hsame
          rw [DatasetSpec.mapM_eq_ok_iff] at hentries hentries'
          unfold Service.objectRows
          cases hfound : service.objects.find?
              (fun spec => spec.objectName = plan.objectName) with
          | none => rfl
          | some spec =>
              have hmem := List.mem_of_find?_eq_some hfound
              obtain ⟨i, hi, hget⟩ := List.getElem_of_mem hmem
              have hlength := hentries.length_eq
              have hi' : i < entries'.length := by omega
              have hentry := List.forall₂_iff_get.mp hentries |>.2 i hi hi'
              have hentry' := List.forall₂_iff_get.mp hentries' |>.2 i hi hi'
              simp only [List.get_eq_getElem, hget] at hentry hentry'
              obtain ⟨sources, hp, hn, hread⟩ :=
                sources_of_snapshotEntry hentry hentry' hfollows hstamped
              exact view_eq_of_sources service.ranking hp hn hread

/-! ## One exposed object -/

/-- Paths and modification times as text. -/
def listing (entries : List SnapshotEntry) : String :=
  String.ofList (entries.flatMap (fun entry => entry.sources.flatMap (fun source =>
    source.1.flatMap (fun part => '/' :: part.toList) ++
      '@' :: Nat.toDigits 10 (source.2.getD 0))))

/-- One exposed object. -/
def opportunityService : Service :=
  ⟨[deployedOpportunity], firstInScanEngine, .stable, listing⟩

/-- A seed of two opportunities. -/
def twoOpportunities : Disk :=
  seededDisk [opportunityRow "006a" "Prospecting" "2026-07-24T08:00:00Z",
    opportunityRow "006b" "Proposal" "2026-07-24T09:00:00Z"]

end FakeForce
end Northwind
