import Northwind.Library.Overlay
import Northwind.Simulator.CrmPublisher
import Northwind.Simulator.CrmSnapshot

/-!
# The current row of a record, resolved twice

The planner resolves a record through `CrmSnapshotReader.relation`, the publisher
through `CrmDeltaPublisher.currentRow`.  The one lays the newest delta over the
base, ranking by `LastModifiedDate`; the other ranks base and deltas together, by
`SystemModstamp` where the base has it.

`relation_resolves_currentRow` says that both resolve every id to the same row of
a tree whose rows are aligned, record by record.
-/

namespace Northwind
namespace Simulator

open NewestPerKey FakeForce

/-- The rows of one id. -/
def ofId (rows : List Row) (id : String) : Set Row :=
  {r | r ∈ rows ∧ r "Id" = some (.text id)}

/-- A base file with one row per id. -/
structure OneRowPerId (rows : List Row) : Prop where
  text : ∀ r ∈ rows, ∃ id, r "Id" = some (.text id)
  distinct : (rows.map (fun r => r "Id")).Nodup

/-- A list of at most one element is the optional element it holds. -/
theorem eq_toList_of_mem_iff
    {α : Type} {l : List α} {o : Option α}
    (hlength : l.length ≤ 1) (hmem : ∀ x, x ∈ l ↔ o = some x) :
    l = o.toList := by
  match l with
  | [] =>
      cases o with
      | none => rfl
      | some x => exact absurd ((hmem x).mpr rfl) List.not_mem_nil
  | [x] =>
      rw [(hmem x).mp List.mem_cons_self]
      rfl
  | _ :: _ :: _ =>
      simp at hlength

namespace CrmDeltaPublisher

variable (P : CrmDeltaPublisher)

/-- The reader over the directories the publisher writes to. -/
def reader : CrmSnapshotReader :=
  ⟨some P.root⟩

def baseRows (disk : Disk) (object : CrmObject) : List Row :=
  (disk.read (P.baseSource object)).getD []

def deltaRows (disk : Disk) (object : CrmObject) : List Row :=
  (P.reader.deltaPaths disk object).flatMap (fun path => (disk.read path).getD [])

/-- Rows ordered the same way by the reader's version and the publisher's. -/
abbrev AlignedRows (object : CrmObject) (base records : Set Row) : Prop :=
  Overlay.Aligned (Row.version "LastModifiedDate") (Row.version (P.versionField object))
    base records

theorem mem_deltaRows (disk : Disk) (object : CrmObject) (r : Row) :
    r ∈ P.deltaRows disk object ↔
      ∃ path rows, P.isDelta object path = true ∧ disk.read path = some rows ∧ r ∈ rows := by
  rw [deltaRows, List.mem_flatMap]
  simp only [CrmSnapshotReader.deltaPaths, reader, mem_sortedSet, List.mem_filter,
    Disk.mem_paths]
  constructor
  · rintro ⟨path, ⟨hsome, hdelta⟩, hr⟩
    obtain ⟨rows, hrows⟩ := Option.isSome_iff_exists.mp hsome
    rw [hrows, Option.getD_some] at hr
    exact ⟨path, rows, hdelta, hrows, hr⟩
  · rintro ⟨path, rows, hdelta, hrows, hr⟩
    refine ⟨path, ⟨by rw [hrows, Option.isSome_some], hdelta⟩, ?_⟩
    rw [hrows, Option.getD_some]
    exact hr

/-- The publisher ranks the rows of the base and of the deltas together. -/
theorem mem_storedRows_iff (disk : Disk) (object : CrmObject) (id : String) (r : Row) :
    r ∈ P.storedRows disk object id ↔
      r ∈ ofId (P.baseRows disk object) id ∪ ofId (P.deltaRows disk object) id := by
  rw [storedRows, mem_rowsOfId, ofId, ofId, Set.mem_union, Set.mem_ofPred_eq, Set.mem_ofPred_eq,
    ← or_and_right, and_comm]
  refine and_congr_left (fun _ => ?_)
  rw [mem_deltaRows]
  constructor
  · rintro ⟨path, hpath, rows, hrows, hr⟩
    rcases (P.mem_storedFiles disk object path).mp hpath with rfl | ⟨_, hdelta⟩
    · left
      rw [baseRows, hrows, Option.getD_some]
      exact hr
    · exact Or.inr ⟨path, rows, hdelta, hrows, hr⟩
  · rintro (hr | ⟨path, rows, hdelta, hrows, hr⟩)
    · rw [baseRows] at hr
      cases hbase : disk.read (P.baseSource object) with
      | none =>
          rw [hbase] at hr
          cases hr
      | some rows =>
          rw [hbase] at hr
          exact ⟨_, (P.mem_storedFiles disk object _).mpr (Or.inl rfl), rows, hbase, hr⟩
    · exact ⟨path, (P.mem_storedFiles disk object path).mpr
        (Or.inr ⟨by rw [hrows, Option.isSome_some], hdelta⟩), rows, hrows, hr⟩

/-- The publisher keeps the newest of the aligned rows. -/
theorem currentRow_eq_some_iff
    (ties : P.Ties) {disk : Disk} {object : CrmObject} {id : String}
    (haligned : P.AlignedRows object (ofId (P.baseRows disk object) id)
      (ofId (P.deltaRows disk object) id)) (r : Row) :
    P.currentRow ties disk object id = some r ↔
      Overlay.Newest (Row.version (P.versionField object))
        (ofId (P.baseRows disk object) id ∪ ofId (P.deltaRows disk object) id) r := by
  have hpicked : ∀ m, P.currentRow ties disk object id = some m →
      Overlay.Newest (Row.version (P.versionField object))
        (ofId (P.baseRows disk object) id ∪ ofId (P.deltaRows disk object) id) m := by
    intro m hm
    refine ⟨(P.mem_storedRows_iff disk object id m).mp ((ties object id).pick_mem hm), ?_⟩
    intro r' hr'
    exact (ties object id).le_pick hm r' ((P.mem_storedRows_iff disk object id r').mpr hr')
  constructor
  · exact hpicked r
  · intro hr
    obtain ⟨m, hm⟩ := (ties object id).exists_pick
      ((P.mem_storedRows_iff disk object id r).mpr hr.1)
    rw [haligned.newest_unique hr (hpicked m hm)]
    exact hm

/-! ## The rows of the relation -/

section Relation

variable {P} {E : RankEngine} {object : CrmObject} {base deltas : List Row} {id : String}

theorem exists_newest_delta_iff (id : String) :
    (∃ m ∈ newestPerKey (fun r : Row => r "Id") (E "LastModifiedDate") deltas,
      m "Id" = some (.text id)) ↔ (ofId deltas id).Nonempty :=
  mem_keys_newestPerKey (E "LastModifiedDate") deltas (some (Value.text id))

/-- Of aligned deltas the reader keeps the newest row of an id. -/
theorem mem_newestPerKey_iff_newest
    (haligned : P.AlignedRows object (ofId base id) (ofId deltas id)) (r : Row) :
    (r ∈ newestPerKey (fun r => r "Id") (E "LastModifiedDate") deltas ∧
        r "Id" = some (.text id)) ↔
      Overlay.Newest (Row.version "LastModifiedDate") (ofId deltas id) r := by
  have hkept : ∀ m ∈ newestPerKey (fun r => r "Id") (E "LastModifiedDate") deltas,
      m "Id" = some (.text id) →
        Overlay.Newest (Row.version "LastModifiedDate") (ofId deltas id) m := by
    intro m hm hid
    obtain ⟨hmem, hmax⟩ := isNewest_of_mem_newestPerKey _ hm
    exact ⟨⟨hmem, hid⟩, fun r' hr' => hmax r' hr'.1 (hr'.2.trans hid.symm)⟩
  constructor
  · rintro ⟨hr, hid⟩
    exact hkept r hr hid
  · intro hr
    obtain ⟨m, hm, hmid⟩ := (exists_newest_delta_iff (E := E) id).mpr ⟨r, hr.1⟩
    have hnewest := hkept m hm hmid
    have hsame : m = r := by
      rcases haligned.ordered m hnewest.1 r hr.1 with heq | hnewer | holder
      · exact heq
      · exact absurd hnewer.1 (not_lt_of_ge (hnewest.2 r hr.1))
      · exact absurd holder.1 (not_lt_of_ge (hr.2 m hnewest.1))
    rw [← hsame]
    exact ⟨hm, hmid⟩

/-- A base row is left out exactly when some delta has its id. -/
theorem any_latestDelta_eq_true_iff (id : String) :
    (newestPerKey (fun r => r "Id") (E "LastModifiedDate") deltas).any
        (fun delta => sqlEquals (delta "Id") (some (.text id))) = true ↔
      (ofId deltas id).Nonempty := by
  have hequals : ∀ a : Option Value,
      sqlEquals a (some (.text id)) = true ↔ a = some (.text id) := by
    intro a
    rw [sqlEquals_eq_true_iff]
    constructor
    · exact fun h => h.2
    · rintro rfl
      exact ⟨rfl, rfl⟩
  simp only [List.any_eq_true, hequals]
  exact exists_newest_delta_iff id

/-- What `relation` returns of a base and deltas. -/
def relationRows (E : RankEngine) (base deltas : List Row) : List Row :=
  let latestDelta := newestPerKey (fun r => r "Id") (E "LastModifiedDate") deltas
  base.filter (fun b =>
    !latestDelta.any (fun delta => sqlEquals (delta "Id") (b "Id"))) ++ latestDelta

theorem mem_relationRows_iff_served
    (haligned : P.AlignedRows object (ofId base id) (ofId deltas id)) (r : Row) :
    (r ∈ relationRows E base deltas ∧ r "Id" = some (.text id)) ↔
      Overlay.Served (Row.version "LastModifiedDate") (ofId base id) (ofId deltas id) r := by
  rw [relationRows, List.mem_append, or_and_right, mem_newestPerKey_iff_newest haligned,
    Overlay.Served]
  apply or_congr_left
  rw [List.mem_filter, and_right_comm]
  refine and_congr_right (fun hr => ?_)
  rw [hr.2, Bool.not_eq_true', ← any_latestDelta_eq_true_iff (E := E), Bool.not_eq_true]

/-- The ids of the relation are distinct. -/
theorem nodup_relationRows (hone : OneRowPerId base) :
    ((relationRows E base deltas).map (fun r => r "Id")).Nodup := by
  rw [relationRows, List.map_append]
  apply List.Nodup.append
  · exact hone.distinct.sublist (List.Sublist.map _ List.filter_sublist)
  · exact nodup_keys_newestPerKey _ _
  · intro key hkey hkey'
    obtain ⟨b, hb, rfl⟩ := List.mem_map.mp hkey
    obtain ⟨delta, hdelta, hsame⟩ := List.mem_map.mp hkey'
    obtain ⟨hbase, hfree⟩ := List.mem_filter.mp hb
    obtain ⟨id, hid⟩ := hone.text b hbase
    rw [Bool.not_eq_true', List.any_eq_false] at hfree
    apply hfree delta hdelta
    rw [sqlEquals_eq_true_iff, hsame, hid]
    exact ⟨rfl, rfl⟩

end Relation

/-- Over aligned rows the planner and the publisher resolve every id to the same
row, whichever row the database keeps among equal versions. -/
theorem relation_resolves_currentRow
    (E : RankEngine) (ties : P.Ties) {disk : Disk} {object : CrmObject} {base : List Row}
    (hbase : disk.read (P.baseSource object) = some base) (hone : OneRowPerId base)
    (haligned : ∀ id, P.AlignedRows object (ofId base id) (ofId (P.deltaRows disk object) id)) :
    ∃ rows, P.reader.relation E disk (P.baseSource object) object = some rows ∧
      ∀ id, rows.filter (fun r => r "Id" = some (.text id)) =
        (P.currentRow ties disk object id).toList := by
  refine ⟨relationRows E base (P.deltaRows disk object),
    P.reader.relation_eq_some E hbase, ?_⟩
  intro id
  apply eq_toList_of_mem_iff
  · exact length_ofKey_le_one (nodup_relationRows hone) (some (.text id))
  · intro r
    have hbaseRows : P.baseRows disk object = base := by
      rw [baseRows, hbase, Option.getD_some]
    have hsame := haligned id
    rw [← hbaseRows] at hsame
    rw [List.mem_filter, decide_eq_true_eq, mem_relationRows_iff_served (haligned id),
      P.currentRow_eq_some_iff ties hsame, hbaseRows]
    exact (haligned id).served_iff_newest r

end CrmDeltaPublisher

end Simulator
end Northwind
