import Northwind.FakeForce.LatestVersionView
import Northwind.Simulator.CrmPlanner

/-!
# The planner's view of the current CRM rows

`relation` lays the newest delta of every id over the base file and never
compares the two.  It ranks the deltas by `LastModifiedDate`.
-/

namespace Northwind
namespace Simulator

open NewestPerKey FakeForce

structure CrmSnapshotReader where
  deltaRoot : Option Path

namespace CrmSnapshotReader

variable (reader : CrmSnapshotReader)

/-- The delta files `_relation` ranks. -/
def deltaPaths (disk : Disk) (object : CrmObject) : List Path :=
  match reader.deltaRoot with
  | none => []
  | some root =>
      sortedSet (disk.paths.filter
        (globYields (root ++ [object.name]) ["**", "*.parquet"]))

/-- `CrmSnapshotReader._relation`; `none` when the base file is missing. -/
def relation (E : RankEngine) (disk : Disk) (basePath : Path) (object : CrmObject) :
    Option (List Row) :=
  match disk.read basePath with
  | none => none
  | some base =>
      let paths := reader.deltaPaths disk object
      if paths = [] then some base
      else
        let deltas := paths.flatMap (fun path => (disk.read path).getD [])
        let latestDelta := newestPerKey (fun r => r "Id") (E "LastModifiedDate") deltas
        some (base.filter (fun b =>
          !latestDelta.any (fun delta => sqlEquals (delta "Id") (b "Id"))) ++ latestDelta)

/-- The opportunities `read` samples: the open ones, in the order of a hash of
their ids, at most `limit` of them. -/
def openOpportunities (E : RankEngine) (hashOrder : List Row → List Row) (limit : Nat)
    (disk : Disk) (opportunitiesPath : Path) : Option (List Row) :=
  (reader.relation E disk opportunitiesPath .opportunities).map (fun rows =>
    (hashOrder (rows.filter isOpen)).take limit)

/-- The rows of `relation` do not depend on whether there are deltas. -/
theorem relation_eq_some
    (E : RankEngine) {disk : Disk} {basePath : Path} {object : CrmObject} {base : List Row}
    (hbase : disk.read basePath = some base) :
    let deltas := (reader.deltaPaths disk object).flatMap (fun path => (disk.read path).getD [])
    reader.relation E disk basePath object =
      some (base.filter (fun b => !(newestPerKey (fun r => r "Id") (E "LastModifiedDate")
        deltas).any (fun delta => sqlEquals (delta "Id") (b "Id"))) ++
        newestPerKey (fun r => r "Id") (E "LastModifiedDate") deltas) := by
  simp only [relation, hbase]
  split
  · rename_i hnil
    simp [hnil]
  · rfl

theorem mem_of_mem_openOpportunities
    {E : RankEngine} {hashOrder : List Row → List Row} {limit : Nat} {disk : Disk}
    {path : Path} {opportunities : List Row}
    (horder : ∀ rows, (hashOrder rows).Perm rows)
    (h : reader.openOpportunities E hashOrder limit disk path = some opportunities)
    {r : Row} (hr : r ∈ opportunities) :
    ∃ rows, reader.relation E disk path .opportunities = some rows ∧ r ∈ rows := by
  obtain ⟨rows, hrows, rfl⟩ := Option.map_eq_some_iff.mp h
  have hmem := (horder _).mem_iff.mp (List.mem_of_mem_take hr)
  exact ⟨rows, hrows, List.mem_of_mem_filter hmem⟩

end CrmSnapshotReader

end Simulator
end Northwind
