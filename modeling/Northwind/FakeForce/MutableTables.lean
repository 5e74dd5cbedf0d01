import Northwind.FakeForce.CatalogEntries
import Northwind.FakeForce.LatestVersionView
import Mathlib.Algebra.Order.Ring.Nat
import Mathlib.Data.List.Perm.Subperm
import Mathlib.Logic.Function.Basic

/-!
# The tables of mutable objects

`initializeMutableTables` copies the files of every mutable object into a
table and puts a unique index on its id.  `latestVersionRelation` is the
statement a read-only object is served by.

A relation lists its column names and its rows; the order of both is left
open.  The engine's readers are a parameter: all that is known of them is that
several files have as many rows together as apart.

`createMutableTable_isView_iff` says when the table of an object is its
read-only view, and `startsAsViews_iff` says it for a whole catalog.
`view_of_latestVersionRelation` ties the relation to the rows of
`LatestVersionView`.
-/

namespace Northwind
namespace FakeForce

open NewestPerKey

structure Relation where
  columns : List String
  rows : List Row

/-- Equal up to the order of columns and rows. -/
def Relation.Same (t u : Relation) : Prop :=
  t.columns.Perm u.columns ∧ t.rows.Perm u.rows

/-- The formats `_source_reader` tells apart. -/
inductive SourceFormat where
  | parquet
  | csv
deriving DecidableEq

/-- `read_parquet` and `read_csv_auto`, with `union_by_name = true`. -/
structure FileReaders where
  scan : SourceFormat → List Path → Option Relation
  rowCount : Path → Nat
  length_rows : ∀ format paths t, scan format paths = some t →
    t.rows.length = (paths.map rowCount).sum

inductive EngineError where
  | catalog (error : CatalogError)
  | emptySourceSet
  | mixedFormats
  | unreadable (paths : List Path)
  | unknownColumn (column : String)
  | duplicateKey
deriving DecidableEq

/-- The format all the files share. -/
def sourceFormat (paths : List Path) : Option SourceFormat :=
  if paths.all (fun path => endsWith path.name ".parquet") then some .parquet
  else if paths.all (fun path =>
      endsWith path.name ".csv" || endsWith path.name ".csv.gz") then some .csv
  else none

/-- `DuckDBEngine._source_reader`, read by the engine. -/
def sourceRelation (readers : FileReaders) (paths : List Path)
    (schema : Option (List Field)) : Except EngineError Relation :=
  match paths with
  | [] =>
      match schema with
      | none => .error .emptySourceSet
      | some fields => .ok ⟨fields.map Field.name, []⟩
  | path :: paths =>
      match sourceFormat (path :: paths) with
      | none => .error .mixedFormats
      | some format =>
          match readers.scan format (path :: paths) with
          | some t => .ok t
          | none => .error (.unreadable (path :: paths))

/-- `DuckDBEngine._aliased_reader`, read by the engine. -/
def aliasedRelation (readers : FileReaders) (object : CatalogObject) (paths : List Path) :
    Except EngineError Relation := do
  let t ← sourceRelation readers paths (some object.schema)
  if paths = [] then return t
  match object.spec.compatibilityAliases.find? (fun pair => pair.2 ∉ t.columns) with
  | some pair => throw (.unknownColumn pair.2)
  | none =>
      return {
        columns := t.columns ++ object.spec.compatibilityAliases.map Prod.fst
        rows := t.rows.map object.spec.aliased }

/-- The columns a statement names are columns of what it reads. -/
def requireColumns (t : Relation) (columns : List String) : Except EngineError Unit :=
  match columns.find? (fun column => column ∉ t.columns) with
  | some column => .error (.unknownColumn column)
  | none => .ok ()

/-- `DuckDBEngine._newest_per_id_sql` -/
def newestPerIdRelation (E : RankEngine) (object : CatalogObject) (versionField : String)
    (t : Relation) : Except EngineError Relation := do
  requireColumns t [object.spec.idField, versionField]
  return ⟨t.columns, newestPerId object.spec E versionField t.rows⟩

/-- `UNION ALL BY NAME`: a column of both sides is one column. -/
def unionColumns (left right : List String) : List String :=
  left ++ right.diff left

/-- `DuckDBEngine._latest_version_sql`, run by the engine. -/
def latestVersionRelation (readers : FileReaders) (E : RankEngine) (disk : Disk)
    (object : CatalogObject) : Except EngineError Relation := do
  let sources ← (object.spec.resolveSources disk).mapError EngineError.catalog
  match object.spec.versionField with
  | none => aliasedRelation readers object sources
  | some versionField =>
      let baseFiles := object.spec.effectiveBase disk
      let basePaths := sources.filter (fun path => path ∈ baseFiles)
      let deltaPaths := sources.filter (fun path => path ∉ baseFiles)
      if deltaPaths = [] then aliasedRelation readers object basePaths
      else
        let deltas ← aliasedRelation readers object deltaPaths
        let latest ← newestPerIdRelation E object versionField deltas
        if basePaths = [] then return latest
        else
          let base ← aliasedRelation readers object basePaths
          requireColumns base [object.spec.idField]
          return {
            columns := unionColumns base.columns latest.columns
            rows := base.rows.filter (fun b => !latest.rows.any (fun d =>
              sqlEquals (object.spec.idOf d) (object.spec.idOf b))) ++ latest.rows }

/-! ## The copy -/

/-- `ff_mutable_<name>`, and whether its unique index is there. -/
structure MutableTable where
  relation : Relation
  uniqueIndex : Bool

/-- The persistent tables, by object name. -/
abbrev MutableTables := String → Option MutableTable

/-- A unique index admits any number of NULLs. -/
def DistinctIds (spec : DatasetSpec) (rows : List Row) : Prop :=
  (rows.filterMap spec.idOf).Nodup

instance (spec : DatasetSpec) (rows : List Row) : Decidable (DistinctIds spec rows) :=
  inferInstanceAs (Decidable (List.Nodup _))

/-- What a table becomes by `CREATE TABLE IF NOT EXISTS` and
`CREATE UNIQUE INDEX IF NOT EXISTS`, each committed on its own. -/
def createMutableTable (readers : FileReaders) (disk : Disk) (object : CatalogObject)
    (existing : Option MutableTable) : Option MutableTable × Option EngineError :=
  match object.spec.resolveSources disk with
  | .error e => (existing, some (.catalog e))
  | .ok sources =>
      match sourceRelation readers sources none with
      | .error e => (existing, some e)
      | .ok t =>
          let table := existing.getD ⟨t, false⟩
          if table.uniqueIndex then (some table, none)
          else if object.spec.idField ∉ table.relation.columns then
            (some table, some (.unknownColumn object.spec.idField))
          else if DistinctIds object.spec table.relation.rows then
            (some { table with uniqueIndex := true }, none)
          else (some table, some .duplicateKey)

/-- `DuckDBEngine.initialize_mutable_tables`: the first failure ends the loop. -/
def initializeMutableTables (readers : FileReaders) (disk : Disk) :
    List CatalogObject → MutableTables → MutableTables × Option EngineError
  | [], tables => (tables, none)
  | object :: objects, tables =>
      if object.mode = .mutable then
        let created := createMutableTable readers disk object (tables object.spec.objectName)
        let tables' := Function.update tables object.spec.objectName created.1
        match created.2 with
        | some e => (tables', some e)
        | none => initializeMutableTables readers disk objects tables'
      else initializeMutableTables readers disk objects tables

/-! ## Reading base and deltas apart -/

namespace CatalogObject

/-- The files that nothing supersedes by version alone. -/
def basePaths (object : CatalogObject) (disk : Disk) (sources : List Path) : List Path :=
  match object.spec.versionField with
  | none => sources
  | some _ => sources.filter (fun path => path ∈ object.spec.effectiveBase disk)

/-- The files ranked by version. -/
def deltaPaths (object : CatalogObject) (disk : Disk) (sources : List Path) : List Path :=
  match object.spec.versionField with
  | none => []
  | some _ => sources.filter (fun path => path ∉ object.spec.effectiveBase disk)

end CatalogObject

/-- The aliased rows of some of the files, nothing without any file. -/
def partRelation (readers : FileReaders) (object : CatalogObject) (paths : List Path) :
    Except EngineError Relation :=
  if paths = [] then .ok ⟨[], []⟩ else aliasedRelation readers object paths

/-- What the ranking names is a column of what it reads. -/
def Rankable (object : CatalogObject) (disk : Disk) (sources : List Path)
    (base deltas : Relation) : Prop :=
  object.deltaPaths disk sources ≠ [] →
    object.spec.idField ∈ deltas.columns ∧
    (∀ versionField ∈ object.spec.versionField, versionField ∈ deltas.columns) ∧
    (object.basePaths disk sources ≠ [] → object.spec.idField ∈ base.columns)

theorem requireColumns_eq_ok_iff (t : Relation) (columns : List String) (u : Unit) :
    requireColumns t columns = .ok u ↔ ∀ column ∈ columns, column ∈ t.columns := by
  unfold requireColumns
  split
  · rename_i column hfind
    have hmem := List.mem_of_find?_eq_some hfind
    have hnot := List.find?_some hfind
    constructor
    · intro h
      cases h
    · intro h
      exact absurd (h column hmem) (of_decide_eq_true hnot)
  · rename_i hfind
    rw [List.find?_eq_none] at hfind
    simpa using hfind

@[simp] theorem antiJoinRows_nil_right
    (spec : DatasetSpec) (E : RankEngine) (versionField : String) (base : List Row) :
    antiJoinRows spec E versionField base [] = base := by
  simp [antiJoinRows, newestPerId]

@[simp] theorem antiJoinRows_nil_left
    (spec : DatasetSpec) (E : RankEngine) (versionField : String) (deltas : List Row) :
    antiJoinRows spec E versionField [] deltas =
      newestPerId spec E versionField deltas := by
  simp [antiJoinRows]

@[simp] theorem unionColumns_nil_right (columns : List String) :
    unionColumns columns [] = columns := by
  simp [unionColumns]

@[simp] theorem unionColumns_nil_left (columns : List String) :
    unionColumns [] columns = columns := by
  simp [unionColumns]

@[simp] theorem partRelation_nil (readers : FileReaders) (object : CatalogObject) :
    partRelation readers object [] = .ok ⟨[], []⟩ :=
  if_pos rfl

theorem partRelation_of_ne_nil
    (readers : FileReaders) (object : CatalogObject) {paths : List Path} (h : paths ≠ []) :
    partRelation readers object paths = aliasedRelation readers object paths :=
  if_neg h

theorem newestPerIdRelation_eq_ok_iff
    (E : RankEngine) (object : CatalogObject) (versionField : String) (t latest : Relation) :
    newestPerIdRelation E object versionField t = .ok latest ↔
      object.spec.idField ∈ t.columns ∧ versionField ∈ t.columns ∧
      latest = ⟨t.columns, newestPerId object.spec E versionField t.rows⟩ := by
  unfold newestPerIdRelation
  rw [except_bind_eq_ok_iff]
  simp only [requireColumns_eq_ok_iff, List.forall_mem_cons, List.not_mem_nil,
    false_implies, implies_true, and_true]
  constructor
  · rintro ⟨_, ⟨hid, hversion⟩, h⟩
    exact ⟨hid, hversion, (Except.ok.inj h).symm⟩
  · rintro ⟨hid, hversion, rfl⟩
    exact ⟨(), ⟨hid, hversion⟩, rfl⟩

/-- A view over files, in any of its shapes. -/
theorem latestVersionRelation_eq_ok_iff
    (readers : FileReaders) (E : RankEngine) {disk : Disk} {object : CatalogObject}
    {sources : List Path} (hsources : object.spec.resolveSources disk = .ok sources)
    (hsome : sources ≠ []) (view : Relation) :
    latestVersionRelation readers E disk object = .ok view ↔
      ∃ base deltas,
        partRelation readers object (object.basePaths disk sources) = .ok base ∧
        partRelation readers object (object.deltaPaths disk sources) = .ok deltas ∧
        Rankable object disk sources base deltas ∧
        view = ⟨unionColumns base.columns deltas.columns,
          antiJoinRows object.spec E (object.spec.versionField.getD "")
            base.rows deltas.rows⟩ := by
  unfold latestVersionRelation Rankable CatalogObject.basePaths CatalogObject.deltaPaths
  rw [hsources]
  change (match object.spec.versionField with
    | none => aliasedRelation readers object sources
    | some versionField => _) = .ok view ↔ _
  cases hversion : object.spec.versionField with
  | none =>
      simp only [partRelation_nil, partRelation_of_ne_nil readers object hsome]
      constructor
      · intro h
        exact ⟨view, ⟨[], []⟩, h, rfl, by simp, by simp⟩
      · rintro ⟨base, deltas, hbase, hdeltas, _, rfl⟩
        cases hdeltas
        simpa using hbase
  | some versionField =>
      simp only [Option.getD_some]
      by_cases hdelta : sources.filter (fun path => path ∉ object.spec.effectiveBase disk) = []
      · have hbase : sources.filter (fun path => path ∈ object.spec.effectiveBase disk) ≠ [] := by
          intro hnone
          apply hsome
          rw [List.eq_nil_iff_forall_not_mem]
          intro path hpath
          rw [List.filter_eq_nil_iff] at hdelta hnone
          have h := hdelta path hpath
          have h' := hnone path hpath
          simp only [decide_eq_true_eq] at h h'
          exact h h'
        rw [if_pos hdelta, hdelta, partRelation_of_ne_nil readers object hbase]
        simp only [partRelation_nil]
        constructor
        · intro h
          exact ⟨view, ⟨[], []⟩, h, rfl, by simp, by simp⟩
        · rintro ⟨base, deltas, hread, hdeltas, _, rfl⟩
          cases hdeltas
          simpa using hread
      · rw [if_neg hdelta, partRelation_of_ne_nil readers object hdelta]
        simp only [except_bind_eq_ok_iff, newestPerIdRelation_eq_ok_iff]
        by_cases hbase : sources.filter (fun path => path ∈ object.spec.effectiveBase disk) = []
        · simp only [hbase, if_true, partRelation_nil]
          constructor
          · rintro ⟨deltas, hdeltas, latest, ⟨hid, hcolumn, rfl⟩, h⟩
            refine ⟨⟨[], []⟩, deltas, rfl, hdeltas, fun _ => ⟨hid, by simpa using hcolumn, by simp⟩, ?_⟩
            rw [← Except.ok.inj h, unionColumns_nil_left, antiJoinRows_nil_left]
          · rintro ⟨base, deltas, hread, hdeltas, hrank, rfl⟩
            cases hread
            obtain ⟨hid, hcolumn, _⟩ := hrank hdelta
            refine ⟨deltas, hdeltas, _, ⟨hid, by simpa using hcolumn, rfl⟩, ?_⟩
            rw [unionColumns_nil_left, antiJoinRows_nil_left]
            rfl
        · simp only [if_neg hbase, partRelation_of_ne_nil readers object hbase,
            except_bind_eq_ok_iff, requireColumns_eq_ok_iff]
          constructor
          · rintro ⟨deltas, hdeltas, latest, ⟨hid, hcolumn, rfl⟩, base, hread, _, hbaseId, h⟩
            refine ⟨base, deltas, hread, hdeltas,
              fun _ => ⟨hid, by simpa using hcolumn, fun _ => by simpa using hbaseId⟩, ?_⟩
            exact (Except.ok.inj h).symm
          · rintro ⟨base, deltas, hread, hdeltas, hrank, rfl⟩
            obtain ⟨hid, hcolumn, hbaseId⟩ := hrank hdelta
            refine ⟨deltas, hdeltas, _, ⟨hid, by simpa using hcolumn, rfl⟩,
              base, hread, (), by simpa using hbaseId hbase, rfl⟩

/-! ## When ranking leaves every row in place -/

section KeepsAll

variable (spec : DatasetSpec) (E : RankEngine) (versionField : String)

/-- The newest rows are some of the rows. -/
theorem newestPerId_subperm (rows : List Row) :
    (newestPerId spec E versionField rows).Subperm rows :=
  List.subperm_of_subset (nodup_newestPerKey _ _)
    (fun _ hr => (isNewest_of_mem_newestPerKey (E versionField) hr).1)

/-- The ranking keeps all of the rows when no id is repeated. -/
theorem newestPerId_perm_iff (rows : List Row) :
    (newestPerId spec E versionField rows).Perm rows ↔ (rows.map spec.idOf).Nodup := by
  constructor
  · intro hperm
    rw [← (hperm.map spec.idOf).nodup_iff]
    exact nodup_keys_newestPerKey _ _
  · intro hnodup
    have hid : VersionsIdentify spec.idOf (Row.version versionField) rows := by
      intro r hr r' hr' hkey _
      exact List.inj_on_of_nodup_map hnodup hr hr' hkey
    symm
    apply (perm_newestPerKey_iff (E versionField) hid).mpr
    refine ⟨hnodup.of_map _, ?_⟩
    intro r
    constructor
    · intro hr
      refine ⟨hr, ?_⟩
      intro r' hr' hkey
      rw [List.inj_on_of_nodup_map hnodup hr' hr hkey]
    · intro hr
      exact hr.1

/-- No base row has the id of a delta. -/
def ApartIds (base deltas : List Row) : Prop :=
  ∀ b ∈ base, ∀ d ∈ deltas, sqlEquals (spec.idOf d) (spec.idOf b) = false

/-- The anti-join loses no row when no row is superseded. -/
theorem antiJoinRows_perm_append_iff (base deltas : List Row) :
    (antiJoinRows spec E versionField base deltas).Perm (base ++ deltas) ↔
      (deltas.map spec.idOf).Nodup ∧ ApartIds spec base deltas := by
  have hsub := newestPerId_subperm spec E versionField deltas
  constructor
  · intro hperm
    have hlength := hperm.length_eq
    unfold antiJoinRows at hlength
    simp only [List.length_append] at hlength
    have hkept := List.length_filter_le
      (fun b => !(newestPerId spec E versionField deltas).any
        (fun d => sqlEquals (spec.idOf d) (spec.idOf b))) base
    have hlatest := hsub.length_le
    have hall : (newestPerId spec E versionField deltas).Perm deltas :=
      hsub.perm_of_length_le (by omega)
    refine ⟨(newestPerId_perm_iff spec E versionField deltas).mp hall, ?_⟩
    intro b hb d hd
    have hfree := List.length_filter_eq_length_iff.mp
      (show (base.filter (fun b => !(newestPerId spec E versionField deltas).any
        (fun d => sqlEquals (spec.idOf d) (spec.idOf b)))).length = base.length by omega) b hb
    rw [Bool.not_eq_true', List.any_eq_false] at hfree
    rw [Bool.eq_false_iff]
    exact hfree d (hall.mem_iff.mpr hd)
  · rintro ⟨hnodup, hapart⟩
    have hall := (newestPerId_perm_iff spec E versionField deltas).mpr hnodup
    have hbase : base.filter (fun b => !(newestPerId spec E versionField deltas).any
        (fun d => sqlEquals (spec.idOf d) (spec.idOf b))) = base := by
      rw [List.filter_eq_self]
      intro b hb
      rw [Bool.not_eq_true', List.any_eq_false]
      intro d hd
      rw [hapart b hb d (hall.mem_iff.mp hd)]
      exact Bool.false_ne_true
    unfold antiJoinRows
    simp only [hbase]
    exact hall.append_left base

/-- A view with as many rows as its files has all of them. -/
theorem antiJoinRows_perm_append_of_length
    {spec : DatasetSpec} {E : RankEngine} {versionField : String} {base deltas : List Row}
    (h : (antiJoinRows spec E versionField base deltas).length =
      base.length + deltas.length) :
    (antiJoinRows spec E versionField base deltas).Perm (base ++ deltas) := by
  have hsubperm : (antiJoinRows spec E versionField base deltas).Subperm (base ++ deltas) := by
    unfold antiJoinRows
    exact List.Subperm.append List.filter_sublist.subperm
      (newestPerId_subperm spec E versionField deltas)
  apply hsubperm.perm_of_length_le
  rw [List.length_append, h]

end KeepsAll

/-- Distinct ids of base and deltas together, with one NULL among the deltas
at most, are all that the view asks for. -/
theorem distinct_deltas_iff
    {spec : DatasetSpec} {base deltas : List Row} (h : DistinctIds spec (base ++ deltas)) :
    ((deltas.map spec.idOf).Nodup ∧ ApartIds spec base deltas) ↔
      (deltas.filter (fun d => spec.idOf d = none)).length ≤ 1 := by
  unfold DistinctIds at h
  rw [List.filterMap_append] at h
  obtain ⟨_, hdeltas, hdisjoint⟩ := List.nodup_append.mp h
  constructor
  · rintro ⟨hnodup, _⟩
    exact length_filter_idOf_le_one hnodup none
  · intro hnull
    refine ⟨?_, ?_⟩
    · rw [List.nodup_iff_count_le_one]
      intro id
      rw [List.count, List.countP_map]
      cases id with
      | none =>
          rw [← List.countP_eq_length_filter] at hnull
          refine le_of_eq_of_le (List.countP_congr ?_) hnull
          intro d _
          simp
      | some value =>
          have hcount := List.nodup_iff_count_le_one.mp hdeltas value
          rw [List.count, List.countP_filterMap] at hcount
          refine le_of_eq_of_le (List.countP_congr ?_) hcount
          intro d _
          cases hid : spec.idOf d <;> simp [hid]
    · intro b hb d hd
      rw [Bool.eq_false_iff, Ne, sqlEquals_eq_true_iff]
      rintro ⟨hsome, heq⟩
      obtain ⟨value, hvalue⟩ := Option.isSome_iff_exists.mp hsome
      exact hdisjoint value (List.mem_filterMap.mpr ⟨b, hb, heq ▸ hvalue⟩)
        value (List.mem_filterMap.mpr ⟨d, hd, hvalue⟩) rfl

/-! ## The copy against the view -/

theorem length_sourceRelation
    {readers : FileReaders} {paths : List Path} {schema : Option (List Field)} {t : Relation}
    (h : sourceRelation readers paths schema = .ok t) :
    t.rows.length = (paths.map readers.rowCount).sum := by
  unfold sourceRelation at h
  split at h
  · split at h
    · cases h
    · cases h
      rfl
  · split at h
    · cases h
    · split at h
      · rename_i hscan
        cases h
        exact readers.length_rows _ _ _ hscan
      · cases h

/-- Aliases add columns, not rows. -/
theorem length_partRelation
    {readers : FileReaders} {object : CatalogObject} {paths : List Path} {t : Relation}
    (h : partRelation readers object paths = .ok t) :
    t.rows.length = (paths.map readers.rowCount).sum := by
  by_cases hpaths : paths = []
  · subst hpaths
    rw [partRelation_nil] at h
    cases h
    rfl
  · rw [partRelation_of_ne_nil readers object hpaths] at h
    unfold aliasedRelation at h
    rw [except_bind_eq_ok_iff] at h
    obtain ⟨source, hsource, h⟩ := h
    rw [if_neg hpaths] at h
    split at h
    · cases h
    · cases h
      rw [List.length_map]
      exact length_sourceRelation hsource

theorem ne_nil_of_sourceRelation
    {readers : FileReaders} {paths : List Path} {t : Relation}
    (h : sourceRelation readers paths none = .ok t) : paths ≠ [] := by
  rintro rfl
  cases h

/-- The base files and the delta files are the sources. -/
theorem sum_basePaths_add_sum_deltaPaths
    (object : CatalogObject) (disk : Disk) (sources : List Path) (count : Path → Nat) :
    ((object.basePaths disk sources).map count).sum +
      ((object.deltaPaths disk sources).map count).sum = (sources.map count).sum := by
  unfold CatalogObject.basePaths CatalogObject.deltaPaths
  cases object.spec.versionField with
  | none => simp
  | some versionField =>
      simp only
      induction sources with
      | nil => rfl
      | cons path sources ih =>
          by_cases hbase : path ∈ object.spec.effectiveBase disk
          · simp only [hbase, List.filter_cons, decide_true, if_true, List.map_cons,
              List.sum_cons, not_true, decide_false, Bool.false_eq_true, if_false]
            omega
          · simp only [hbase, List.filter_cons, decide_true, if_true, List.map_cons,
              List.sum_cons, not_false_eq_true, decide_false, Bool.false_eq_true, if_false]
            omega

/-- The condition under which the copied files are what the view serves: they
are read without an alias, a partition column or a superseded row. -/
def CopiesView (readers : FileReaders) (disk : Disk) (object : CatalogObject) : Prop :=
  ∃ sources all base deltas,
    object.spec.resolveSources disk = .ok sources ∧ sources ≠ [] ∧
    sourceRelation readers sources none = .ok all ∧
    partRelation readers object (object.basePaths disk sources) = .ok base ∧
    partRelation readers object (object.deltaPaths disk sources) = .ok deltas ∧
    all.Same ⟨unionColumns base.columns deltas.columns, base.rows ++ deltas.rows⟩ ∧
    Rankable object disk sources base deltas ∧
    object.spec.idField ∈ all.columns ∧ DistinctIds object.spec all.rows ∧
    (deltas.rows.filter (fun d => object.spec.idOf d = none)).length ≤ 1 ∧
    ∀ field ∈ object.schema, field.name ∈ all.columns

/-- A table is the read-only view of its object, with every declared field. -/
def IsView (readers : FileReaders) (E : RankEngine) (disk : Disk) (object : CatalogObject)
    (table : MutableTable) : Prop :=
  ∃ view, latestVersionRelation readers E disk object = .ok view ∧
    table.relation.Same view ∧ ∀ field ∈ object.schema, field.name ∈ table.relation.columns

/-- A first run leaves the copied files behind a unique index. -/
theorem createMutableTable_none_eq_iff
    (readers : FileReaders) (disk : Disk) (object : CatalogObject) (table : Option MutableTable) :
    createMutableTable readers disk object none = (table, none) ↔
      ∃ sources all, object.spec.resolveSources disk = .ok sources ∧
        sourceRelation readers sources none = .ok all ∧
        object.spec.idField ∈ all.columns ∧ DistinctIds object.spec all.rows ∧
        table = some ⟨all, true⟩ := by
  unfold createMutableTable
  constructor
  · intro h
    split at h
    · cases h
    · rename_i sources hsources
      split at h
      · cases h
      · rename_i all hall
        simp only [Option.getD_none, Bool.false_eq_true, if_false] at h
        split at h
        · cases h
        · rename_i hid
          split at h
          · rename_i hdistinct
            cases h
            exact ⟨sources, all, hsources, hall, not_not.mp hid, hdistinct, rfl⟩
          · cases h
  · rintro ⟨sources, all, hsources, hall, hid, hdistinct, rfl⟩
    simp [hsources, hall, hid, hdistinct]

/-- The table of a mutable object starts out as its read-only view exactly
when the copied files are what the view serves. -/
theorem createMutableTable_isView_iff
    (readers : FileReaders) (E : RankEngine) (disk : Disk) (object : CatalogObject) :
    (∃ table, createMutableTable readers disk object none = (some table, none) ∧
      IsView readers E disk object table) ↔
    CopiesView readers disk object := by
  constructor
  · rintro ⟨table, hcreated, view, hview, ⟨hcolumns, hrows⟩, hschema⟩
    obtain ⟨sources, all, hsources, hall, hid, hdistinct, htable⟩ :=
      (createMutableTable_none_eq_iff readers disk object _).mp hcreated
    cases htable
    have hsome := ne_nil_of_sourceRelation hall
    obtain ⟨base, deltas, hbase, hdeltas, hrank, rfl⟩ :=
      (latestVersionRelation_eq_ok_iff readers E hsources hsome view).mp hview
    -- The view has as many rows as the files, so it dropped none of them.
    have hlength : (antiJoinRows object.spec E (object.spec.versionField.getD "")
        base.rows deltas.rows).length = base.rows.length + deltas.rows.length := by
      rw [← hrows.length_eq, length_sourceRelation hall, length_partRelation hbase,
        length_partRelation hdeltas]
      exact (sum_basePaths_add_sum_deltaPaths object disk sources readers.rowCount).symm
    have hwhole := antiJoinRows_perm_append_of_length hlength
    have hperm := hrows.trans hwhole
    have hapart : DistinctIds object.spec (base.rows ++ deltas.rows) :=
      (hperm.filterMap _).nodup_iff.mp hdistinct
    refine ⟨sources, all, base, deltas, hsources, hsome, hall, hbase, hdeltas,
      ⟨hcolumns, hperm⟩, hrank, hid, hdistinct, ?_, hschema⟩
    exact (distinct_deltas_iff hapart).mp
      ((antiJoinRows_perm_append_iff _ E _ _ _).mp hwhole)
  · rintro ⟨sources, all, base, deltas, hsources, hsome, hall, hbase, hdeltas,
      ⟨hcolumns, hperm⟩, hrank, hid, hdistinct, hnull, hschema⟩
    have hapart : DistinctIds object.spec (base.rows ++ deltas.rows) :=
      (hperm.filterMap _).nodup_iff.mp hdistinct
    have hwhole := (antiJoinRows_perm_append_iff object.spec E
      (object.spec.versionField.getD "") _ _).mpr ((distinct_deltas_iff hapart).mpr hnull)
    refine ⟨⟨all, true⟩, ?_,
      ⟨unionColumns base.columns deltas.columns, antiJoinRows object.spec E
        (object.spec.versionField.getD "") base.rows deltas.rows⟩,
      ?_, ⟨hcolumns, hperm.trans hwhole.symm⟩, hschema⟩
    · exact (createMutableTable_none_eq_iff readers disk object _).mpr
        ⟨sources, all, hsources, hall, hid, hdistinct, rfl⟩
    · exact (latestVersionRelation_eq_ok_iff readers E hsources hsome _).mpr
        ⟨base, deltas, hbase, hdeltas, hrank, rfl⟩

theorem perm_basePaths_append_deltaPaths
    (object : CatalogObject) (disk : Disk) (sources : List Path) :
    sources.Perm (object.basePaths disk sources ++ object.deltaPaths disk sources) := by
  unfold CatalogObject.basePaths CatalogObject.deltaPaths
  cases object.spec.versionField with
  | none => simp
  | some versionField =>
      simp only [decide_not]
      exact (List.filter_append_perm _ sources).symm

theorem columns_of_partRelation
    {readers : FileReaders} {object : CatalogObject} {paths : List Path} {t : Relation}
    (hpaths : paths ≠ []) (h : partRelation readers object paths = .ok t) :
    ∀ pair ∈ object.spec.compatibilityAliases, pair.1 ∈ t.columns := by
  intro pair hpair
  rw [partRelation_of_ne_nil readers object hpaths] at h
  unfold aliasedRelation at h
  rw [except_bind_eq_ok_iff] at h
  obtain ⟨source, _, h⟩ := h
  rw [if_neg hpaths] at h
  split at h
  · cases h
  · cases h
    exact List.mem_append_right _ (List.mem_map_of_mem hpair)

theorem mem_unionColumns (left right : List String) (column : String) :
    column ∈ unionColumns left right ↔ column ∈ left ∨ column ∈ right := by
  unfold unionColumns
  rw [List.mem_append]
  constructor
  · rintro (h | h)
    · exact Or.inl h
    · exact Or.inr (List.diff_subset _ _ h)
  · rintro (h | h)
    · exact Or.inl h
    · by_cases hleft : column ∈ left
      · exact Or.inl hleft
      · exact Or.inr (List.mem_diff_of_mem h hleft)

theorem nodup_unionColumns
    {left right : List String} (hleft : left.Nodup) (hright : right.Nodup) :
    (unionColumns left right).Nodup := by
  unfold unionColumns
  refine List.nodup_append.mpr ⟨hleft, hright.diff, ?_⟩
  intro a ha b hb hab
  subst hab
  exact (hright.mem_sdiff_iff.mp hb).2 ha

/-- The copy adds no alias: where it matches the view every alias is stored. -/
theorem CopiesView.aliases_stored
    {readers : FileReaders} {disk : Disk} {object : CatalogObject} {sources : List Path}
    {all : Relation} (h : CopiesView readers disk object)
    (hsources : object.spec.resolveSources disk = .ok sources)
    (hall : sourceRelation readers sources none = .ok all) :
    ∀ pair ∈ object.spec.compatibilityAliases, pair.1 ∈ all.columns := by
  obtain ⟨sources', all', base, deltas, hsources', hsome, hall', hbase, hdeltas, ⟨hcolumns, _⟩, _⟩ := h
  rw [hsources] at hsources'
  cases hsources'
  rw [hall] at hall'
  cases hall'
  intro pair hpair
  rw [hcolumns.mem_iff, mem_unionColumns]
  by_cases hbasePaths : object.basePaths disk sources = []
  · right
    apply columns_of_partRelation _ hdeltas pair hpair
    intro hdeltaPaths
    have hperm := perm_basePaths_append_deltaPaths object disk sources
    rw [hbasePaths, hdeltaPaths] at hperm
    exact hsome hperm.eq_nil
  · left
    exact columns_of_partRelation hbasePaths hbase pair hpair

/-! ## Every mutable object of a catalog -/

/-- A table with its index is left as it is. -/
theorem createMutableTable_of_indexed
    {readers : FileReaders} {disk : Disk} {object : CatalogObject} {table : MutableTable}
    (hcreated : createMutableTable readers disk object none = (some table, none)) :
    createMutableTable readers disk object (some table) = (some table, none) := by
  obtain ⟨sources, all, hsources, hall, _, _, htable⟩ :=
    (createMutableTable_none_eq_iff readers disk object _).mp hcreated
  cases htable
  simp [createMutableTable, hsources, hall]

/-- Objects of distinct names are initialized independently of each other. -/
theorem initializeMutableTables_iff
    (readers : FileReaders) (disk : Disk) {objects : List CatalogObject}
    (hnames : (objects.map (fun object => object.spec.objectName)).Nodup)
    (tables after : MutableTables) :
    initializeMutableTables readers disk objects tables = (after, none) ↔
      (∀ object ∈ objects, object.mode = .mutable →
        createMutableTable readers disk object (tables object.spec.objectName) =
          (after object.spec.objectName, none)) ∧
      ∀ name, (∀ object ∈ objects, object.mode = .mutable →
        object.spec.objectName ≠ name) → after name = tables name := by
  induction objects generalizing tables with
  | nil =>
      simp only [initializeMutableTables, List.not_mem_nil, false_implies, implies_true,
        true_and, Prod.mk.injEq, and_true]
      constructor
      · rintro rfl name _
        rfl
      · intro h
        exact (funext fun name => (h name trivial).symm)
  | cons object objects ih =>
      rw [List.map_cons, List.nodup_cons] at hnames
      obtain ⟨hfresh, hnames⟩ := hnames
      have hother : ∀ other ∈ objects, other.spec.objectName ≠ object.spec.objectName := by
        intro other hmem heq
        exact hfresh (heq ▸ List.mem_map_of_mem hmem)
      unfold initializeMutableTables
      simp only [List.forall_mem_cons]
      by_cases hmode : object.mode = .mutable
      · rw [if_pos hmode]
        cases hcreated : createMutableTable readers disk object
            (tables object.spec.objectName) with
        | mk table error =>
            cases error with
            | some e =>
                constructor
                · intro h
                  cases h
                · rintro ⟨⟨h, _⟩, _⟩
                  cases h hmode
            | none =>
                simp only
                rw [ih hnames]
                constructor
                · rintro ⟨hobjects, hothers⟩
                  have hself : after object.spec.objectName = table := by
                    rw [hothers _ (fun other hmem _ => hother other hmem),
                      Function.update_self]
                  refine ⟨⟨fun _ => by rw [hself], ?_⟩, ?_⟩
                  · intro other hmem hmutable
                    have h := hobjects other hmem hmutable
                    rwa [Function.update_of_ne (hother other hmem)] at h
                  · rintro name ⟨hne, hnone⟩
                    rw [hothers name hnone, Function.update_of_ne (hne hmode).symm]
                · rintro ⟨⟨hself, hobjects⟩, hothers⟩
                  have htable : table = after object.spec.objectName :=
                    congrArg Prod.fst (hself hmode)
                  refine ⟨?_, ?_⟩
                  · intro other hmem hmutable
                    rw [Function.update_of_ne (hother other hmem)]
                    exact hobjects other hmem hmutable
                  · intro name hnone
                    by_cases hname : name = object.spec.objectName
                    · rw [hname, Function.update_self, htable]
                    · rw [Function.update_of_ne hname]
                      exact hothers name ⟨fun _ => Ne.symm hname, hnone⟩
      · rw [if_neg hmode, ih hnames]
        simp [hmode]

/-- The tables of all mutable objects start out as their read-only views, and
a second run changes nothing. -/
def StartsAsViews (readers : FileReaders) (E : RankEngine) (disk : Disk)
    (objects : List CatalogObject) : Prop :=
  ∃ tables, initializeMutableTables readers disk objects (fun _ => none) = (tables, none) ∧
    (∀ object ∈ objects, object.mode = .mutable →
      ∃ table, tables object.spec.objectName = some table ∧
        IsView readers E disk object table) ∧
    initializeMutableTables readers disk objects tables = (tables, none)

/-- The mutable objects of a catalog start out as their views, and a second run
changes nothing, exactly when for every one of them the copied files are what the
view serves. -/
theorem startsAsViews_iff
    (readers : FileReaders) (E : RankEngine) (disk : Disk) {objects : List CatalogObject}
    (hnames : (objects.map (fun object => object.spec.objectName)).Nodup) :
    StartsAsViews readers E disk objects ↔
      ∀ object ∈ objects, object.mode = .mutable → CopiesView readers disk object := by
  constructor
  · rintro ⟨tables, hfirst, hviews, _⟩ object hmem hmutable
    obtain ⟨table, htable, hview⟩ := hviews object hmem hmutable
    have hcreated := ((initializeMutableTables_iff readers disk hnames _ _).mp hfirst).1
      object hmem hmutable
    rw [htable] at hcreated
    exact (createMutableTable_isView_iff readers E disk object).mp ⟨table, hcreated, hview⟩
  · intro h
    have hcreated : ∀ object ∈ objects, object.mode = .mutable →
        ∃ table, createMutableTable readers disk object none = (some table, none) ∧
          IsView readers E disk object table :=
      fun object hmem hmutable =>
        (createMutableTable_isView_iff readers E disk object).mpr (h object hmem hmutable)
    -- The table of a name is the copy of the one mutable object of that name.
    let owner := fun name : String => objects.find?
      (fun object => object.mode = .mutable ∧ object.spec.objectName = name)
    let tables : MutableTables := fun name =>
      (owner name).bind (fun object => (createMutableTable readers disk object none).1)
    have howner : ∀ object ∈ objects, object.mode = .mutable →
        owner object.spec.objectName = some object := by
      intro object hmem hmutable
      cases hfind : owner object.spec.objectName with
      | none =>
          have hnone := List.find?_eq_none.mp hfind object hmem
          simp [hmutable] at hnone
      | some other =>
          have hboth := List.find?_some hfind
          have hname := of_decide_eq_true hboth
          rw [List.inj_on_of_nodup_map hnames (List.mem_of_find?_eq_some hfind) hmem hname.2]
    have hnone : ∀ name, (∀ object ∈ objects, object.mode = .mutable →
        object.spec.objectName ≠ name) → tables name = none := by
      intro name hne
      have hfind : owner name = none := by
        rw [List.find?_eq_none]
        intro object hmem hboth
        obtain ⟨hmutable, hname⟩ := of_decide_eq_true hboth
        exact hne object hmem hmutable hname
      simp only [tables, hfind, Option.bind_none]
    have htables : ∀ object ∈ objects, object.mode = .mutable →
        tables object.spec.objectName =
          (createMutableTable readers disk object none).1 := by
      intro object hmem hmutable
      simp only [tables, howner object hmem hmutable, Option.bind_some]
    refine ⟨tables, ?_, ?_, ?_⟩
    · rw [initializeMutableTables_iff readers disk hnames]
      refine ⟨?_, hnone⟩
      intro object hmem hmutable
      obtain ⟨table, hok, _⟩ := hcreated object hmem hmutable
      rw [htables object hmem hmutable, hok]
    · intro object hmem hmutable
      obtain ⟨table, hok, hview⟩ := hcreated object hmem hmutable
      refine ⟨table, ?_, hview⟩
      rw [htables object hmem hmutable, hok]
    · rw [initializeMutableTables_iff readers disk hnames]
      refine ⟨?_, fun _ _ => rfl⟩
      intro object hmem hmutable
      obtain ⟨table, hok, _⟩ := hcreated object hmem hmutable
      rw [htables object hmem hmutable, hok]
      exact createMutableTable_of_indexed hok

/-! ## Readers without partition columns -/

theorem length_rows_sourceReader
    {read : Path → Option (List Row)} {paths : List Path} {rows : List Row}
    (h : sourceReader read paths = some rows) :
    rows.length = (paths.map (fun path => ((read path).getD []).length)).sum := by
  induction paths generalizing rows with
  | nil =>
      cases h
      rfl
  | cons path paths ih =>
      simp only [sourceReader, Option.bind_eq_bind, Option.bind_eq_some_iff] at h
      obtain ⟨content, hcontent, rest, hrest, hrows⟩ := h
      cases hrows
      rw [List.length_append, ih hrest, List.map_cons, List.sum_cons, hcontent]
      rfl

/-- Readers that join the rows and the column names of the files. -/
def plainReaders (columns : Path → List String) (disk : Disk) : FileReaders where
  scan _ paths := (sourceReader disk.read paths).map
    (fun rows => ⟨(paths.flatMap columns).dedup, rows⟩)
  rowCount path := ((disk.read path).getD []).length
  length_rows := by
    intro _ paths t h
    obtain ⟨rows, hrows, rfl⟩ := Option.map_eq_some_iff.mp h
    exact length_rows_sourceReader hrows

theorem sourceRelation_plainReaders
    {columns : Path → List String} {disk : Disk} {paths : List Path}
    {schema : Option (List Field)} {t : Relation} (hpaths : paths ≠ [])
    (h : sourceRelation (plainReaders columns disk) paths schema = .ok t) :
    sourceReader disk.read paths = some t.rows ∧
      t.columns = (paths.flatMap columns).dedup := by
  unfold sourceRelation at h
  split at h
  · exact absurd rfl hpaths
  · split at h
    · cases h
    · split at h
      · rename_i hscan
        cases h
        obtain ⟨rows, hrows, rfl⟩ := Option.map_eq_some_iff.mp hscan
        exact ⟨hrows, rfl⟩
      · cases h

/-- Plain readers read the rows of the files, with the aliases. -/
theorem rows_partRelation_plainReaders
    {columns : Path → List String} {disk : Disk} {object : CatalogObject}
    {paths : List Path} {t : Relation}
    (h : partRelation (plainReaders columns disk) object paths = .ok t) :
    ∃ rows, sourceReader disk.read paths = some rows ∧
      t.rows = rows.map object.spec.aliased := by
  by_cases hpaths : paths = []
  · subst hpaths
    rw [partRelation_nil] at h
    cases h
    exact ⟨[], rfl, rfl⟩
  · rw [partRelation_of_ne_nil _ object hpaths] at h
    unfold aliasedRelation at h
    rw [except_bind_eq_ok_iff] at h
    obtain ⟨source, hsource, h⟩ := h
    obtain ⟨hrows, _⟩ := sourceRelation_plainReaders hpaths hsource
    rw [if_neg hpaths] at h
    split at h
    · cases h
    · cases h
      exact ⟨source.rows, hrows, rfl⟩

theorem columns_partRelation_plainReaders
    {columns : Path → List String} {disk : Disk} {object : CatalogObject}
    {paths : List Path} {t : Relation}
    (haliases : object.spec.compatibilityAliases = [])
    (h : partRelation (plainReaders columns disk) object paths = .ok t) :
    t.columns = (paths.flatMap columns).dedup := by
  by_cases hpaths : paths = []
  · subst hpaths
    rw [partRelation_nil] at h
    cases h
    rfl
  · rw [partRelation_of_ne_nil _ object hpaths] at h
    unfold aliasedRelation at h
    rw [except_bind_eq_ok_iff] at h
    obtain ⟨source, hsource, h⟩ := h
    obtain ⟨_, hcolumns⟩ := sourceRelation_plainReaders hpaths hsource
    rw [if_neg hpaths, haliases] at h
    cases h
    simpa using hcolumns

/-- The rows of the relation are the rows of the view. -/
theorem view_of_latestVersionRelation
    {columns : Path → List String} {E : RankEngine} {disk : Disk} {object : CatalogObject}
    {t : Relation}
    (h : latestVersionRelation (plainReaders columns disk) E disk object = .ok t) :
    view object.spec E disk = some t.rows := by
  cases hsources : object.spec.resolveSources disk with
  | error e =>
      unfold latestVersionRelation at h
      rw [hsources] at h
      cases h
  | ok sources =>
      unfold view
      rw [hsources]
      simp only
      by_cases hsome : sources = []
      · subst hsome
        unfold latestVersionRelation at h
        rw [hsources] at h
        unfold latestVersionSql
        cases hversion : object.spec.versionField with
        | none =>
            rw [hversion] at h
            cases h
            rfl
        | some versionField =>
            rw [hversion] at h
            cases h
            rfl
      · obtain ⟨base, deltas, hbase, hdeltas, _, rfl⟩ :=
          (latestVersionRelation_eq_ok_iff _ E hsources hsome t).mp h
        obtain ⟨baseRows, hbaseRead, hbaseRows⟩ := rows_partRelation_plainReaders hbase
        obtain ⟨deltaRows, hdeltaRead, hdeltaRows⟩ := rows_partRelation_plainReaders hdeltas
        unfold CatalogObject.basePaths at hbaseRead
        unfold CatalogObject.deltaPaths at hdeltaRead
        rw [hbaseRows, hdeltaRows]
        cases hversion : object.spec.versionField with
        | none =>
            rw [hversion] at hbaseRead hdeltaRead
            cases hdeltaRead
            simp [latestVersionSql, hversion, LatestVersionSql.rows, hbaseRead]
        | some versionField =>
            rw [hversion] at hbaseRead hdeltaRead
            exact rows_latestVersionSql E hversion hbaseRead hdeltaRead

/-- Without aliases and partition columns the files need not be read apart. -/
theorem same_of_plainReaders
    {columns : Path → List String} {disk : Disk} {object : CatalogObject}
    {sources : List Path} {all base deltas : Relation}
    (haliases : object.spec.compatibilityAliases = [])
    (hall : sourceRelation (plainReaders columns disk) sources none = .ok all)
    (hbase : partRelation (plainReaders columns disk) object
      (object.basePaths disk sources) = .ok base)
    (hdeltas : partRelation (plainReaders columns disk) object
      (object.deltaPaths disk sources) = .ok deltas) :
    all.Same ⟨unionColumns base.columns deltas.columns, base.rows ++ deltas.rows⟩ := by
  have hsome := ne_nil_of_sourceRelation hall
  have hperm := perm_basePaths_append_deltaPaths object disk sources
  obtain ⟨hrows, hcolumns⟩ := sourceRelation_plainReaders hsome hall
  constructor
  · rw [hcolumns, columns_partRelation_plainReaders haliases hbase,
      columns_partRelation_plainReaders haliases hdeltas,
      List.perm_ext_iff_of_nodup (List.nodup_dedup _)
        (nodup_unionColumns (List.nodup_dedup _) (List.nodup_dedup _))]
    intro column
    have hmem := (hperm.flatMap_right columns).mem_iff (a := column)
    rw [List.flatMap_append, List.mem_append] at hmem
    rw [mem_unionColumns, List.mem_dedup, List.mem_dedup, List.mem_dedup]
    exact hmem
  · have halias : object.spec.aliased = id := by
      funext r column
      simp [DatasetSpec.aliased, haliases]
    have hread : ∀ {paths rows}, sourceReader disk.read paths = some rows →
        rows = rowsAt object.spec disk.read paths := by
      intro paths rows hrows
      obtain ⟨rows', hrows', hrowsAt⟩ := sourceReader_eq_rowsAt object.spec
        ((exists_sourceReader_iff disk.read paths).mp ⟨rows, hrows⟩)
      rw [hrows] at hrows'
      cases hrows'
      rwa [halias, List.map_id] at hrowsAt
    obtain ⟨baseRows, hbaseRead, hbaseRows⟩ := rows_partRelation_plainReaders hbase
    obtain ⟨deltaRows, hdeltaRead, hdeltaRows⟩ := rows_partRelation_plainReaders hdeltas
    rw [halias, List.map_id] at hbaseRows hdeltaRows
    rw [hread hrows, hbaseRows, hdeltaRows, hread hbaseRead, hread hdeltaRead]
    unfold rowsAt
    rw [← List.flatMap_append]
    exact hperm.flatMap_right _

/-! ## Accepted entries whose table is not their view -/

/-- An object whose rows all arrive as deltas, before the first of them. -/
def historyEntry : Json :=
  .object
    [("name", .string "OpportunityHistory"),
      ("sources", .array [.string "opportunity_history.parquet"]),
      ("schema", .object [("Id", .string "string"), ("IsDeleted", .string "boolean")]),
      ("mode", .string "mutable")]

def emptyDisk : Disk :=
  ⟨∅, ∅, 0⟩

def noSchemas : SchemaReader where
  footer _ := none
  header _ := none

/-- What `historyEntry` is accepted as. -/
def historyObject : CatalogObject where
  spec := {
    objectName := "OpportunityHistory"
    sources := []
    idField := "Id"
    softDeleteField := some "IsDeleted"
    dataRoots := [["app", "state"]]
    deltaPatterns := []
    versionField := none
    compatibilityAliases := []
    idStored := lookup_noAliases "Id" }
  mode := .mutable
  schema := [⟨"Id", .other⟩, ⟨"IsDeleted", .boolean⟩]

/-- An object with a partition that supersedes a row of its base. -/
def opportunityEntry : Json :=
  .object
    [("name", .string "Opportunity"),
      ("sources", .array [.string "crm_opportunities.parquet"]),
      ("soft_delete_field", .null),
      ("delta_patterns", .array [.string "opportunities/**/*.parquet"]),
      ("version_field", .string "SystemModstamp"),
      ("mode", .string "mutable")]

/-- A seed row and its newer version in one partition. -/
def supersededDisk : Disk :=
  (emptyDisk.replace ["app", "seed", "crm_opportunities.parquet"]
      [opportunityRow "006a" "Proposal" "2026-07-24T00:00:00Z"]).replace
    (opportunityPartition "2026-07-25")
      [opportunityRow "006a" "Negotiation" "2026-07-25T08:00:00Z"]

def opportunityColumns : List String :=
  ["Id", "StageName", "LastModifiedDate", "SystemModstamp"]

def opportunitySchemas : SchemaReader where
  footer _ := some (opportunityColumns.map (fun column => ⟨column, .other⟩))
  header _ := none

/-- What `opportunityEntry` is accepted as. -/
def mutableOpportunity : CatalogObject where
  spec := {
    objectName := "Opportunity"
    sources := [["app", "seed", "crm_opportunities.parquet"]]
    idField := "Id"
    softDeleteField := none
    dataRoots := [["app", "seed"], ["app", "state", "simulation", "crm"]]
    deltaPatterns := [["opportunities", "**", "*.parquet"]]
    versionField := some "SystemModstamp"
    compatibilityAliases := []
    idStored := lookup_noAliases "Id" }
  mode := .mutable
  schema := opportunityColumns.map (fun column => ⟨column, .other⟩)

/-- The entry with an alias for a column that the files store. -/
def aliasedEntry : Json :=
  .object
    [("name", .string "Opportunity"),
      ("sources", .array [.string "crm_opportunities.parquet"]),
      ("soft_delete_field", .null),
      ("delta_patterns", .array [.string "opportunities/**/*.parquet"]),
      ("version_field", .string "SystemModstamp"),
      ("compatibility_aliases", .object [("LastModifiedDate", .string "SystemModstamp")]),
      ("mode", .string "mutable")]

def opportunityBase : List Row :=
  [opportunityRow "006a" "Proposal" "2026-07-24T00:00:00Z"]

def createdOpportunity : List Row :=
  [opportunityRow "006b" "Prospecting" "2026-07-25T08:00:00Z"]

/-- The seed and a partition with a new id. -/
def createdDisk : Disk :=
  (emptyDisk.replace ["app", "seed", "crm_opportunities.parquet"] opportunityBase).replace
    (opportunityPartition "2026-07-25") createdOpportunity

/-- The alias is not in effect, and a partition of new ids supersedes nothing. -/
theorem startsAsViews_of_created :
    parseObject opportunitySchemas [["app", "seed"], ["app", "state", "simulation", "crm"]]
        createdDisk aliasedEntry = .ok mutableOpportunity ∧
      StartsAsViews (plainReaders (fun _ => opportunityColumns) createdDisk) firstInScanEngine
        createdDisk [mutableOpportunity] ∧
      (latestVersionRelation (plainReaders (fun _ => opportunityColumns) createdDisk)
        firstInScanEngine createdDisk mutableOpportunity).toOption.map
          (fun t => t.rows.map (fun r => r "Id")) =
        some [some (.text "006a"), some (.text "006b")] := by
  refine ⟨rfl, ?_, by decide +kernel⟩
  apply (startsAsViews_iff (plainReaders (fun _ => opportunityColumns) createdDisk)
    firstInScanEngine createdDisk (by simp)).mpr
  intro object hmem _
  rw [List.mem_singleton.mp hmem]
  have hsources : mutableOpportunity.spec.resolveSources createdDisk =
      .ok [["app", "seed", "crm_opportunities.parquet"], opportunityPartition "2026-07-25"] := by
    decide +kernel
  have hbasePaths : mutableOpportunity.basePaths createdDisk
      [["app", "seed", "crm_opportunities.parquet"], opportunityPartition "2026-07-25"] =
        [["app", "seed", "crm_opportunities.parquet"]] := by
    decide +kernel
  have hdeltaPaths : mutableOpportunity.deltaPaths createdDisk
      [["app", "seed", "crm_opportunities.parquet"], opportunityPartition "2026-07-25"] =
        [opportunityPartition "2026-07-25"] := by
    decide +kernel
  have hall : sourceRelation (plainReaders (fun _ => opportunityColumns) createdDisk)
      [["app", "seed", "crm_opportunities.parquet"], opportunityPartition "2026-07-25"] none =
        .ok ⟨opportunityColumns, opportunityBase ++ createdOpportunity⟩ := rfl
  have hbase : partRelation (plainReaders (fun _ => opportunityColumns) createdDisk)
      mutableOpportunity (mutableOpportunity.basePaths createdDisk
        [["app", "seed", "crm_opportunities.parquet"], opportunityPartition "2026-07-25"]) =
      .ok ⟨opportunityColumns, opportunityBase⟩ := by
    rw [hbasePaths]
    rfl
  have hdeltas : partRelation (plainReaders (fun _ => opportunityColumns) createdDisk)
      mutableOpportunity (mutableOpportunity.deltaPaths createdDisk
        [["app", "seed", "crm_opportunities.parquet"], opportunityPartition "2026-07-25"]) =
      .ok ⟨opportunityColumns, createdOpportunity⟩ := by
    rw [hdeltaPaths]
    rfl
  refine ⟨_, _, _, _, hsources, List.cons_ne_nil _ _, hall, hbase, hdeltas,
    same_of_plainReaders rfl hall hbase hdeltas, ?_, by decide, by decide, by decide, by decide⟩
  intro _
  exact ⟨by decide, by decide, fun _ => by decide⟩

/-- Where a run fails the mutable objects do not start out as their views. -/
theorem not_startsAsViews_of_failed
    {readers : FileReaders} {disk : Disk} {objects : List CatalogObject} {e : EngineError}
    (E : RankEngine)
    (h : (initializeMutableTables readers disk objects (fun _ => none)).2 = some e) :
    ¬ StartsAsViews readers E disk objects := by
  rintro ⟨tables, hok, _⟩
  rw [hok] at h
  cases h

/-- Without a file the copy has no schema to fall back on, and a superseded
row breaks its unique index; the views of both objects can be made. -/
theorem startsAsViews_fails :
    (parseObject noSchemas [["app", "state"]] emptyDisk historyEntry = .ok historyObject ∧
      (latestVersionRelation (plainReaders (fun _ => []) emptyDisk) firstInScanEngine
        emptyDisk historyObject).toOption.map Relation.columns = some ["Id", "IsDeleted"] ∧
      ¬ StartsAsViews (plainReaders (fun _ => []) emptyDisk) firstInScanEngine emptyDisk
        [historyObject]) ∧
    (parseObject opportunitySchemas [["app", "seed"], ["app", "state", "simulation", "crm"]]
        supersededDisk opportunityEntry = .ok mutableOpportunity ∧
      (latestVersionRelation (plainReaders (fun _ => opportunityColumns) supersededDisk)
        firstInScanEngine supersededDisk mutableOpportunity).toOption.map
          (fun t => (t.rows.map (fun r => r "StageName"))) =
        some [some (.text "Negotiation")] ∧
      ¬ StartsAsViews (plainReaders (fun _ => opportunityColumns) supersededDisk)
        firstInScanEngine supersededDisk [mutableOpportunity]) := by
  refine ⟨⟨rfl, rfl, ?_⟩, rfl, ?_, ?_⟩
  · have hfailed : (initializeMutableTables (plainReaders (fun _ => []) emptyDisk) emptyDisk
        [historyObject] (fun _ => none)).2 = some .emptySourceSet := rfl
    exact not_startsAsViews_of_failed firstInScanEngine hfailed
  · decide +kernel
  · have hfailed : (initializeMutableTables
        (plainReaders (fun _ => opportunityColumns) supersededDisk) supersededDisk
          [mutableOpportunity] (fun _ => none)).2 = some .duplicateKey := by
      decide +kernel
    exact not_startsAsViews_of_failed firstInScanEngine hfailed

end FakeForce
end Northwind
