import Mathlib.Data.List.Dedup
import Mathlib.Data.List.Sort
import Mathlib.Data.String.Basic
import Northwind.Library.VersionLog

/-!
# The registry of source contracts

A sync reads the columns of every table of a source and writes a new version of
a table where the registry has none with the fingerprint of these columns.

Retired versions are searched too, and a table that is gone, or has no column, is
not visited.  So the registry mirrors a source exactly as long as every table has
columns, none goes away and none comes back to columns it had before others:
`mirrors_iff_straight`.
-/

namespace Northwind
namespace Generator

open VersionLog

/-! ## Sources -/

/-- The keys of `SOURCE_SCHEMAS`. -/
inductive RegisteredSystem where
  | ops
  | erp
deriving DecidableEq

def sourceSchema : RegisteredSystem → String
  | .ops => "ops"
  | .erp => "erp"

structure Column where
  ordinalPosition : Nat
  columnName : String
  dataType : String
  isNullable : Bool
  characterMaximumLength : Option Nat
  numericPrecision : Option Nat
  numericScale : Option Nat
deriving DecidableEq

/-- A row of `information_schema.columns` -/
structure InformationRow where
  tableName : String
  column : Column
deriving DecidableEq

/-- The tables of a source schema and the columns they have; names and positions of
columns are unique in a table. -/
structure SourceTables where
  tableNames : List String
  rows : List InformationRow
  owned : ∀ row ∈ rows, row.tableName ∈ tableNames
  names : (rows.map (fun row => (row.tableName, row.column.columnName))).Nodup
  positions : (rows.map (fun row => (row.tableName, row.column.ordinalPosition))).Nodup

/-- `ORDER BY table_name, ordinal_position` -/
def inOrder (row row' : InformationRow) : Prop :=
  row.tableName < row'.tableName ∨
    (row.tableName = row'.tableName ∧
      row.column.ordinalPosition ≤ row'.column.ordinalPosition)

instance : DecidableRel inOrder :=
  fun row row' =>
    inferInstanceAs
      (Decidable (row.tableName < row'.tableName ∨
        (row.tableName = row'.tableName ∧
          row.column.ordinalPosition ≤ row'.column.ordinalPosition)))

def columnsIn (rows : List InformationRow) (tableName : String) : List Column :=
  (rows.filter (fun row => row.tableName = tableName)).map InformationRow.column

/-- `read_columns`: the tables in their order, each with its columns. -/
def readColumns (source : SourceTables) : List (String × List Column) :=
  let rows := source.rows.insertionSort inOrder
  (rows.map InformationRow.tableName).dedup.map (fun name => (name, columnsIn rows name))

/-! ## The registry -/

structure TableVersion (φ : Type) where
  tableVersionId : Nat
  sourceSystem : RegisteredSystem
  sourceSchema : String
  tableName : String
  version : Nat
  schemaFingerprint : φ
  retired : Bool

structure ColumnVersion where
  tableVersionId : Nat
  column : Column

/-- `metadata.table_versions` with its identity counter, and
`metadata.column_versions`. -/
structure Registry (φ : Type) where
  tableVersions : List (TableVersion φ)
  columnVersions : List ColumnVersion
  nextTableVersionId : Nat

/-- A row of the view `metadata.current_columns` -/
structure CurrentColumn (φ : Type) where
  sourceSystem : RegisteredSystem
  sourceSchema : String
  tableName : String
  version : Nat
  schemaFingerprint : φ
  column : Column

structure TableReport where
  table : String
  version : Nat
  changed : Bool
deriving DecidableEq

namespace Registry

variable {φ : Type}

def empty : Registry φ :=
  ⟨[], [], 1⟩

def columnsOf (registry : Registry φ) (tableVersionId : Nat) : List Column :=
  (registry.columnVersions.filter (fun row => row.tableVersionId = tableVersionId)).map
    ColumnVersion.column

/-- `metadata.current_columns` -/
def currentColumns (registry : Registry φ) : List (CurrentColumn φ) :=
  (registry.tableVersions.filter (fun row => !row.retired)).flatMap
    (fun row =>
      (registry.columnsOf row.tableVersionId).map
        (fun column =>
          ⟨row.sourceSystem, row.sourceSchema, row.tableName, row.version,
            row.schemaFingerprint, column⟩))

end Registry

section

variable {φ : Type}

/-- `source_system = %s AND source_schema = %s AND table_name = %s` -/
def isVersionOf (system : RegisteredSystem) (schema tableName : String)
    (row : TableVersion φ) : Bool :=
  row.sourceSystem = system && row.sourceSchema = schema && row.tableName = tableName

/-- `coalesce(max(version), 0) + 1` -/
def nextVersion (registry : Registry φ) (system : RegisteredSystem) (schema tableName : String) :
    Nat :=
  ((registry.tableVersions.filter (isVersionOf system schema tableName)).map
    TableVersion.version).foldr max 0 + 1

def retire (system : RegisteredSystem) (schema tableName : String) (row : TableVersion φ) :
    TableVersion φ :=
  if isVersionOf system schema tableName row && !row.retired then
    { row with retired := true }
  else row

/-- The three writes of `record_table` -/
def insertVersion (registry : Registry φ) (system : RegisteredSystem) (schema tableName : String)
    (version : Nat) (contractHash : φ) (columns : List Column) : Registry φ where
  tableVersions :=
    registry.tableVersions.map (retire system schema tableName) ++
      [⟨registry.nextTableVersionId, system, schema, tableName, version, contractHash, false⟩]
  columnVersions :=
    registry.columnVersions ++
      columns.map (fun column => ⟨registry.nextTableVersionId, column⟩)
  nextTableVersionId := registry.nextTableVersionId + 1

variable [DecidableEq φ] (fingerprint : List Column → φ)

/-- `record_table` -/
def recordTable (registry : Registry φ) (system : RegisteredSystem) (schema tableName : String)
    (columns : List Column) (dryRun : Bool) : Registry φ × TableReport :=
  let contractHash := fingerprint columns
  match registry.tableVersions.find?
      (fun row =>
        isVersionOf system schema tableName row && row.schemaFingerprint = contractHash) with
  | some current => (registry, ⟨tableName, current.version, false⟩)
  | none =>
      let version := nextVersion registry system schema tableName
      if dryRun then (registry, ⟨tableName, version, true⟩)
      else
        (insertVersion registry system schema tableName version contractHash columns,
          ⟨tableName, version, true⟩)

def recordTables (system : RegisteredSystem) (dryRun : Bool) :
    Registry φ → List (String × List Column) → Registry φ × List TableReport
  | registry, [] => (registry, [])
  | registry, (name, columns) :: tables =>
      let recorded := recordTable fingerprint registry system (sourceSchema system) name columns
        dryRun
      let rest := recordTables system dryRun recorded.1 tables
      (rest.1, recorded.2 :: rest.2)

/-- `sync_system` -/
def syncSystem (source : SourceTables) (registry : Registry φ) (system : RegisteredSystem)
    (dryRun : Bool) : Registry φ × List TableReport :=
  recordTables fingerprint system dryRun registry (readColumns source)

/-- The registry after a non-dry sync of each of the sources. -/
def syncAll (syncs : List (RegisteredSystem × SourceTables)) : Registry φ :=
  syncs.foldl (fun registry sync => (syncSystem fingerprint sync.2 registry sync.1 false).1)
    Registry.empty

end

/-! ## What the registry shows of a source -/

/-- The columns of a table of a source, where it is there. -/
def SourceTables.contract? (source : SourceTables) (tableName : String) : Option (List Column) :=
  (readColumns source).lookup tableName

/-- The versions of a table that are not retired. -/
def currentVersions {φ : Type} (registry : Registry φ) (system : RegisteredSystem)
    (tableName : String) : List (TableVersion φ) :=
  registry.tableVersions.filter
    (fun row => isVersionOf system (sourceSchema system) tableName row && !row.retired)

/-- The columns of a system that the view shows, each under its table. -/
def shownColumns {φ : Type} (registry : Registry φ) (system : RegisteredSystem) :
    List InformationRow :=
  (registry.currentColumns.filter (fun row => row.sourceSystem = system)).map
    (fun row => ⟨row.tableName, row.column⟩)

/-- The view lists the tables and columns of the source, each once; a table that
is there has one current version and any other one has none. -/
structure Mirrors {φ : Type} (registry : Registry φ) (system : RegisteredSystem)
    (source : SourceTables) : Prop where
  columns : (shownColumns registry system).Perm source.rows
  present : ∀ tableName ∈ source.tableNames,
    (currentVersions registry system tableName).length = 1
  absent : ∀ tableName, tableName ∉ source.tableNames →
    currentVersions registry system tableName = []

/-- No table of the source is without columns. -/
def SourceTables.TablesHaveColumns (source : SourceTables) : Prop :=
  ∀ tableName ∈ source.tableNames, ∃ row ∈ source.rows, row.tableName = tableName

/-- The sources of a system, one for each of its syncs. -/
def sourcesOf (system : RegisteredSystem) (syncs : List (RegisteredSystem × SourceTables)) :
    List SourceTables :=
  syncs.filterMap (fun sync => if sync.1 = system then some sync.2 else none)

/-! ## Versions as a log -/

section Log

variable {φ : Type} {registry : Registry φ} {system system' : RegisteredSystem}
variable {name name' : String}

/-- The versions of a table: their fingerprints, and which are retired. -/
def versionLog (registry : Registry φ) (system : RegisteredSystem) (tableName : String) :
    List (Version φ) :=
  (registry.tableVersions.filter (isVersionOf system (sourceSchema system) tableName)).map
    (fun row => ⟨row.schemaFingerprint, row.retired⟩)

theorem isVersionOf_iff {schema : String} {row : TableVersion φ} :
    isVersionOf system schema name row = true ↔
      row.sourceSystem = system ∧ row.sourceSchema = schema ∧ row.tableName = name := by
  simp [isVersionOf, and_assoc]

theorem isVersionOf_comp_retire (schema schema' : String) :
    isVersionOf system' schema' name' ∘ retire (φ := φ) system schema name =
      isVersionOf system' schema' name' := by
  funext row
  rw [Function.comp_apply, retire]
  split <;> rfl

theorem length_current_versionLog (registry : Registry φ) (system : RegisteredSystem)
    (name : String) :
    (current (versionLog registry system name)).length =
      (currentVersions registry system name).length := by
  rw [current, versionLog, currentVersions, List.length_map, List.filter_map, List.length_map,
    List.filter_filter]
  simp [Bool.and_comm]

theorem mem_contracts_versionLog {f : φ} :
    f ∈ (versionLog registry system name).map Version.contract ↔
      ∃ row, row ∈ registry.tableVersions ∧
        isVersionOf system (sourceSchema system) name row = true ∧ row.schemaFingerprint = f := by
  simp only [versionLog, List.map_map, List.mem_map, List.mem_filter, Function.comp_def, and_assoc]

variable [DecidableEq φ] {fingerprint : List Column → φ} {columns : List Column}

/-- A recorded table is observed by its log. -/
theorem versionLog_recordTable :
    versionLog
        (recordTable fingerprint registry system (sourceSchema system) name columns false).1
        system name =
      observe (versionLog registry system name) (some (fingerprint columns)) := by
  have hmem : fingerprint columns ∈ (versionLog registry system name).map Version.contract ↔ _ :=
    mem_contracts_versionLog
  rw [recordTable, observe]
  cases hfind : registry.tableVersions.find? (fun row =>
      isVersionOf system (sourceSchema system) name row &&
        row.schemaFingerprint = fingerprint columns) with
  | some known =>
      have hknown := List.find?_some hfind
      simp only [Bool.and_eq_true, decide_eq_true_iff] at hknown
      rw [if_pos (hmem.mpr ⟨known, List.mem_of_find?_eq_some hfind, hknown⟩)]
  | none =>
      have hnew : fingerprint columns ∉
          (versionLog registry system name).map Version.contract := by
        intro hold
        obtain ⟨row, hrow, hversion, hfingerprint⟩ := hmem.mp hold
        have hno := List.find?_eq_none.mp hfind row hrow
        simp [hversion, hfingerprint] at hno
      rw [if_neg hnew]
      have hself : isVersionOf system (sourceSchema system) name
          (⟨registry.nextTableVersionId, system, sourceSchema system, name,
            nextVersion registry system (sourceSchema system) name, fingerprint columns,
            false⟩ : TableVersion φ) = true := by
        simp [isVersionOf]
      simp only [Bool.false_eq_true, if_false, insertVersion, versionLog, List.filter_append,
        List.filter_map, List.map_append, List.map_map, List.filter_singleton, hself, cond_true,
        List.map_singleton]
      congr 1
      rw [isVersionOf_comp_retire]
      refine List.map_congr_left fun row hrow => ?_
      have hversion := (List.mem_filter.mp hrow).2
      simp only [Function.comp_apply, retire, hversion, Bool.true_and]
      cases hretired : row.retired <;> simp [hretired]

/-- Other tables and other systems are left as they are. -/
theorem versionLog_recordTable_of_ne (h : ¬ (system' = system ∧ name' = name)) :
    versionLog
        (recordTable fingerprint registry system (sourceSchema system) name columns false).1
        system' name' =
      versionLog registry system' name' := by
  rw [recordTable]
  split
  · rfl
  · have hother : ∀ schema version, isVersionOf system' (sourceSchema system') name'
        (⟨registry.nextTableVersionId, system, schema, name, version, fingerprint columns,
          false⟩ : TableVersion φ) = false := by
      intro schema version
      rw [Bool.eq_false_iff, Ne, isVersionOf_iff]
      exact fun hversion => h ⟨hversion.1.symm, hversion.2.2.symm⟩
    simp only [Bool.false_eq_true, if_false, insertVersion, versionLog, List.filter_append,
      List.filter_map, List.map_map, List.filter_singleton, hother, cond_false, List.append_nil]
    rw [isVersionOf_comp_retire]
    refine List.map_congr_left fun row hrow => ?_
    have hversion := isVersionOf_iff.mp (List.mem_filter.mp hrow).2
    have hnot : isVersionOf system (sourceSchema system) name row = false := by
      rw [Bool.eq_false_iff, Ne, isVersionOf_iff]
      exact fun hversion' =>
        h ⟨hversion.1.symm.trans hversion'.1, hversion.2.2.symm.trans hversion'.2.2⟩
    simp only [Function.comp_apply, retire, hnot, Bool.false_and, Bool.false_eq_true, if_false]

theorem versionLog_recordTables_of_ne (h : system' ≠ system)
    (tables : List (String × List Column)) :
    versionLog (recordTables fingerprint system false registry tables).1 system' name' =
      versionLog registry system' name' := by
  induction tables generalizing registry with
  | nil => rfl
  | cons table tables ih =>
      rw [recordTables, ih]
      exact versionLog_recordTable_of_ne fun hsame => h hsame.1

/-- A table is observed once, or not at all where it is not there. -/
theorem versionLog_recordTables (tables : List (String × List Column))
    (hnodup : (tables.map Prod.fst).Nodup) :
    versionLog (recordTables fingerprint system false registry tables).1 system name' =
      observe (versionLog registry system name') ((tables.lookup name').map fingerprint) := by
  induction tables generalizing registry with
  | nil => rfl
  | cons table tables ih =>
      obtain ⟨name, columns⟩ := table
      obtain ⟨hnot, hnodup⟩ := List.nodup_cons.mp hnodup
      rw [recordTables, ih hnodup]
      by_cases hname : name' = name
      · subst hname
        have hnone : tables.lookup name' = none := by
          rw [List.lookup_eq_none_iff]
          intro table hmem
          have hne : name' ≠ table.1 := by
            rintro rfl
            exact hnot (List.mem_map.mpr ⟨table, hmem, rfl⟩)
          simpa using hne
        rw [hnone, versionLog_recordTable]
        simp [observe]
      · rw [versionLog_recordTable_of_ne fun hsame => hname hsame.2]
        have hbeq : (name' == name) = false := by simpa using hname
        rw [List.lookup_cons, hbeq]

theorem sourcesOf_concat (syncs : List (RegisteredSystem × SourceTables))
    (source : SourceTables) :
    sourcesOf system (syncs ++ [(system', source)]) =
      if system' = system then sourcesOf system syncs ++ [source] else sourcesOf system syncs := by
  rw [sourcesOf, List.filterMap_append]
  by_cases hsystem : system' = system
  · simp [sourcesOf, hsystem]
  · simp [sourcesOf, hsystem]

theorem readColumns_names (source : SourceTables) :
    ((readColumns source).map Prod.fst).Nodup := by
  rw [readColumns, List.map_map]
  simpa [Function.comp_def] using List.nodup_dedup _

/-- The log of a table has observed the table in every synced source. -/
theorem versionLog_syncAll (syncs : List (RegisteredSystem × SourceTables)) :
    versionLog (syncAll fingerprint syncs) system name =
      observeAll []
        ((sourcesOf system syncs).map (fun source => (source.contract? name).map fingerprint)) := by
  induction syncs using List.reverseRecOn with
  | nil => rfl
  | append_singleton syncs sync ih =>
      obtain ⟨system', source⟩ := sync
      have hsync : syncAll fingerprint (syncs ++ [(system', source)]) =
          (syncSystem fingerprint source (syncAll fingerprint syncs) system' false).1 := by
        rw [syncAll, List.foldl_append]
        rfl
      rw [hsync, sourcesOf_concat, syncSystem]
      by_cases hsystem : system' = system
      · subst hsystem
        rw [if_pos rfl, List.map_append, List.map_singleton, observeAll_concat, ← ih]
        exact versionLog_recordTables _ (readColumns_names source)
      · rw [if_neg hsystem, ← ih]
        exact versionLog_recordTables_of_ne (Ne.symm hsystem) _

end Log

/-! ## Versions and their columns -/

section Stored

variable {φ : Type} {fingerprint : List Column → φ} {registry : Registry φ}
variable {system : RegisteredSystem} {name : String} {columns : List Column}

/-- The columns of a source, in the order of their positions. -/
def InPositions (columns : List Column) : Prop :=
  columns.Pairwise (fun column column' => column.ordinalPosition < column'.ordinalPosition)

/-- The columns that a table is listed with. -/
structure Listed (columns : List Column) : Prop where
  nonempty : columns ≠ []
  positions : InPositions columns

/-- Every version has an id of its own and the columns of its fingerprint. -/
structure Stored (fingerprint : List Column → φ) (registry : Registry φ) : Prop where
  ids : (registry.tableVersions.map TableVersion.tableVersionId).Nodup
  below : ∀ row, row ∈ registry.tableVersions →
    row.tableVersionId < registry.nextTableVersionId
  columnsBelow : ∀ row, row ∈ registry.columnVersions →
    row.tableVersionId < registry.nextTableVersionId
  schema : ∀ row, row ∈ registry.tableVersions → row.sourceSchema = sourceSchema row.sourceSystem
  columns : ∀ row, row ∈ registry.tableVersions →
    fingerprint (registry.columnsOf row.tableVersionId) = row.schemaFingerprint ∧
      Listed (registry.columnsOf row.tableVersionId)

theorem Stored.empty (fingerprint : List Column → φ) : Stored fingerprint Registry.empty where
  ids := List.nodup_nil
  below _ hmem := nomatch hmem
  columnsBelow _ hmem := nomatch hmem
  schema _ hmem := nomatch hmem
  columns _ hmem := nomatch hmem

theorem retire_fields {system : RegisteredSystem} {schema name : String} (row : TableVersion φ) :
    (retire system schema name row).tableVersionId = row.tableVersionId ∧
      (retire system schema name row).sourceSystem = row.sourceSystem ∧
      (retire system schema name row).sourceSchema = row.sourceSchema ∧
      (retire system schema name row).schemaFingerprint = row.schemaFingerprint := by
  rw [retire]
  split <;> exact ⟨rfl, rfl, rfl, rfl⟩

/-- The new version has the new columns, and the old ones keep theirs. -/
theorem columnsOf_insertVersion (hstored : Stored fingerprint registry)
    (version : Nat) (contractHash : φ) (id : Nat) :
    (insertVersion registry system (sourceSchema system) name version contractHash
        columns).columnsOf id =
      if id = registry.nextTableVersionId then columns else registry.columnsOf id := by
  rw [Registry.columnsOf, insertVersion, List.filter_append, List.map_append]
  split
  · subst id
    have hold : registry.columnVersions.filter
        (fun row => row.tableVersionId = registry.nextTableVersionId) = [] := by
      rw [List.filter_eq_nil_iff]
      intro row hmem
      simpa using (hstored.columnsBelow row hmem).ne
    simp [hold, List.filter_map, Function.comp_def]
  · rename_i hid
    have hnew : (columns.map (fun column => (⟨registry.nextTableVersionId, column⟩ :
        ColumnVersion))).filter (fun row => row.tableVersionId = id) = [] := by
      rw [List.filter_eq_nil_iff]
      intro row hmem
      obtain ⟨column, _, rfl⟩ := List.mem_map.mp hmem
      simpa using Ne.symm hid
    rw [hnew, List.map_nil, List.append_nil]
    rfl

theorem Stored.insertVersion (hstored : Stored fingerprint registry) (version : Nat)
    (hlisted : Listed columns) :
    Stored fingerprint
      (insertVersion registry system (sourceSchema system) name version (fingerprint columns)
        columns) := by
  have hids : (registry.tableVersions.map (retire system (sourceSchema system) name)).map
      TableVersion.tableVersionId = registry.tableVersions.map TableVersion.tableVersionId := by
    rw [List.map_map]
    exact List.map_congr_left fun row _ => (retire_fields row).1
  refine ⟨?_, ?_, ?_, ?_, ?_⟩
  · rw [Generator.insertVersion, List.map_append, hids, List.map_singleton]
    refine List.nodup_append.mpr ⟨hstored.ids, List.nodup_singleton _, ?_⟩
    intro id hid id' hid' heq
    obtain ⟨row, hrow, rfl⟩ := List.mem_map.mp hid
    exact (hstored.below row hrow).ne (heq.trans (List.mem_singleton.mp hid'))
  · intro row hmem
    obtain hmem | hmem := List.mem_append.mp hmem
    · obtain ⟨old, hold, rfl⟩ := List.mem_map.mp hmem
      rw [(retire_fields old).1]
      exact (hstored.below old hold).trans (Nat.lt_succ_self _)
    · rw [List.mem_singleton.mp hmem]
      exact Nat.lt_succ_self _
  · intro row hmem
    obtain hmem | hmem := List.mem_append.mp hmem
    · exact (hstored.columnsBelow row hmem).trans (Nat.lt_succ_self _)
    · obtain ⟨column, _, rfl⟩ := List.mem_map.mp hmem
      exact Nat.lt_succ_self _
  · intro row hmem
    obtain hmem | hmem := List.mem_append.mp hmem
    · obtain ⟨old, hold, rfl⟩ := List.mem_map.mp hmem
      rw [(retire_fields old).2.1, (retire_fields old).2.2.1]
      exact hstored.schema old hold
    · rw [List.mem_singleton.mp hmem]
  · intro row hmem
    rw [columnsOf_insertVersion hstored]
    obtain hmem | hmem := List.mem_append.mp hmem
    · obtain ⟨old, hold, rfl⟩ := List.mem_map.mp hmem
      rw [(retire_fields old).1, (retire_fields old).2.2.2, if_neg (hstored.below old hold).ne]
      exact hstored.columns old hold
    · rw [List.mem_singleton.mp hmem, if_pos rfl]
      exact ⟨rfl, hlisted⟩

variable [DecidableEq φ]

theorem Stored.recordTable (hstored : Stored fingerprint registry)
    (hlisted : Listed columns) :
    Stored fingerprint
      (recordTable fingerprint registry system (sourceSchema system) name columns false).1 := by
  rw [Generator.recordTable]
  split
  · exact hstored
  · exact hstored.insertVersion _ hlisted

theorem Stored.recordTables {tables : List (String × List Column)}
    (hstored : Stored fingerprint registry)
    (hlisted : ∀ table, table ∈ tables → Listed table.2) :
    Stored fingerprint (recordTables fingerprint system false registry tables).1 := by
  induction tables generalizing registry with
  | nil => exact hstored
  | cons table tables ih =>
      rw [Generator.recordTables]
      exact ih (hstored.recordTable (hlisted table List.mem_cons_self))
        fun other hother => hlisted other (List.mem_cons_of_mem _ hother)

end Stored

/-! ## Sources as tables -/

section Sources

variable {source : SourceTables} {name : String} {columns : List Column}

instance : Std.Total inOrder where
  total row row' := by
    rcases lt_trichotomy row.tableName row'.tableName with hlt | heq | hlt
    · exact .inl (.inl hlt)
    · rcases le_total row.column.ordinalPosition row'.column.ordinalPosition with hle | hle
      · exact .inl (.inr ⟨heq, hle⟩)
      · exact .inr (.inr ⟨heq.symm, hle⟩)
    · exact .inr (.inl hlt)

instance : IsTrans InformationRow inOrder where
  trans a b c hab hbc := by
    rcases hab with hab | ⟨hab, hab'⟩ <;> rcases hbc with hbc | ⟨hbc, hbc'⟩
    · exact .inl (hab.trans hbc)
    · exact .inl (hbc ▸ hab)
    · exact .inl (hab ▸ hbc)
    · exact .inr ⟨hab.trans hbc, hab'.trans hbc'⟩

theorem mem_columnsIn {rows : List InformationRow} {column : Column} :
    column ∈ columnsIn rows name ↔ ⟨name, column⟩ ∈ rows := by
  rw [columnsIn, List.mem_map]
  constructor
  · rintro ⟨⟨tableName, column'⟩, hrow, rfl⟩
    obtain ⟨hmem, hname⟩ := List.mem_filter.mp hrow
    obtain rfl : tableName = name := decide_eq_true_iff.mp hname
    exact hmem
  · intro hmem
    exact ⟨_, List.mem_filter.mpr ⟨hmem, decide_eq_true rfl⟩, rfl⟩

/-- A table is read with its columns, in the order of their positions. -/
theorem listed_of_mem {table : String × List Column} (h : table ∈ readColumns source) :
    Listed table.2 := by
  obtain ⟨name, hname, rfl⟩ := List.mem_map.mp h
  refine ⟨?_, ?_⟩
  · obtain ⟨row, hrow, rfl⟩ := List.mem_map.mp (List.mem_dedup.mp hname)
    exact List.ne_nil_of_mem (mem_columnsIn.mpr hrow)
  · have hsorted := List.pairwise_insertionSort inOrder source.rows
    have hdistinct : (source.rows.insertionSort inOrder).Pairwise (fun row row' =>
        (row.tableName, row.column.ordinalPosition) ≠
          (row'.tableName, row'.column.ordinalPosition)) := by
      refine List.pairwise_map.mp ?_
      exact ((List.perm_insertionSort inOrder source.rows).map _).nodup_iff.mpr source.positions
    rw [InPositions, columnsIn, List.pairwise_map]
    refine ((hsorted.and hdistinct).filter _).imp_of_mem fun hrow hrow' ⟨hle, hne⟩ => ?_
    have hname := decide_eq_true_iff.mp (List.mem_filter.mp hrow).2
    have hname' := decide_eq_true_iff.mp (List.mem_filter.mp hrow').2
    rcases hle with hlt | ⟨_, hle⟩
    · rw [hname, hname'] at hlt
      exact absurd hlt (lt_irrefl _)
    · refine lt_of_le_of_ne hle fun heq => hne ?_
      rw [hname, hname', heq]

theorem contract?_eq_some_iff :
    source.contract? name = some columns ↔ (name, columns) ∈ readColumns source := by
  rw [SourceTables.contract?]
  constructor
  · intro h
    obtain ⟨before, after, heq, _⟩ := List.lookup_eq_some_iff.mp h
    rw [heq]
    simp
  · intro h
    cases hlookup : (readColumns source).lookup name with
    | none =>
        have hno := List.lookup_eq_none_iff.mp hlookup _ h
        simp at hno
    | some columns' =>
        obtain ⟨before, after, heq, _⟩ := List.lookup_eq_some_iff.mp hlookup
        have hmem : (name, columns') ∈ readColumns source := by
          rw [heq]
          simp
        have hsame := List.inj_on_of_nodup_map (readColumns_names source) h hmem rfl
        rw [(Prod.mk.inj hsame).2]

theorem mem_contract {column : Column} (h : source.contract? name = some columns) :
    column ∈ columns ↔ ⟨name, column⟩ ∈ source.rows := by
  obtain ⟨name', _, heq⟩ := List.mem_map.mp (contract?_eq_some_iff.mp h)
  obtain ⟨rfl, rfl⟩ := Prod.mk.inj heq
  rw [mem_columnsIn, List.mem_insertionSort]

/-- A table is there where it has a column. -/
theorem contract?_isSome_iff :
    (∃ columns, source.contract? name = some columns) ↔
      ∃ row, row ∈ source.rows ∧ row.tableName = name := by
  simp only [contract?_eq_some_iff, readColumns, List.mem_map, List.mem_dedup,
    List.mem_insertionSort]
  constructor
  · rintro ⟨columns, name', ⟨row, hrow, rfl⟩, heq⟩
    exact ⟨row, hrow, (Prod.mk.inj heq).1⟩
  · rintro ⟨row, hrow, rfl⟩
    exact ⟨_, row.tableName, ⟨row, hrow, rfl⟩, rfl⟩

theorem nodup_of_inPositions (h : InPositions columns) : columns.Nodup :=
  h.imp fun hlt heq => (heq ▸ hlt).ne rfl

/-- Columns in the order of their positions are determined by their set. -/
theorem eq_of_inPositions {columns' : List Column} (h : InPositions columns)
    (h' : InPositions columns') (hmem : ∀ column, column ∈ columns ↔ column ∈ columns') :
    columns = columns' := by
  have hperm : columns.Perm columns' :=
    (List.perm_ext_iff_of_nodup (nodup_of_inPositions h) (nodup_of_inPositions h')).mpr hmem
  exact hperm.eq_of_pairwise (fun _ _ _ _ hlt hlt' => absurd hlt' hlt.asymm) h h'

end Sources

/-! ## What the view shows -/

section Shown

variable {φ : Type} {registry : Registry φ} {system : RegisteredSystem} {name : String}

theorem mem_currentVersions {row : TableVersion φ} :
    row ∈ currentVersions registry system name ↔
      row ∈ registry.tableVersions ∧ row.sourceSystem = system ∧
        row.sourceSchema = sourceSchema system ∧ row.tableName = name ∧ row.retired = false := by
  simp [currentVersions, isVersionOf, and_assoc]

theorem shownColumns_eq (registry : Registry φ) (system : RegisteredSystem) :
    shownColumns registry system =
      (registry.tableVersions.filter (fun row => !row.retired && row.sourceSystem = system)).flatMap
        (fun row =>
          (registry.columnsOf row.tableVersionId).map
            (fun column => ⟨row.tableName, column⟩)) := by
  rw [shownColumns, Registry.currentColumns]
  induction registry.tableVersions with
  | nil => rfl
  | cons row rows ih =>
      by_cases hretired : row.retired = true
      · simpa [hretired] using ih
      · by_cases hsystem : row.sourceSystem = system
        · simpa [hretired, hsystem, List.filter_map, Function.comp_def] using ih
        · simpa [hretired, hsystem, List.filter_map, Function.comp_def] using ih

variable {fingerprint : List Column → φ}

theorem mem_shownColumns {column : Column} (hstored : Stored fingerprint registry) :
    ⟨name, column⟩ ∈ shownColumns registry system ↔
      ∃ row, row ∈ currentVersions registry system name ∧
        column ∈ registry.columnsOf row.tableVersionId := by
  rw [shownColumns_eq, List.mem_flatMap]
  simp only [mem_currentVersions, List.mem_filter, List.mem_map, Bool.and_eq_true,
    Bool.not_eq_true', decide_eq_true_iff, InformationRow.mk.injEq]
  constructor
  · rintro ⟨row, ⟨hmem, hretired, hsystem⟩, column', hcolumn, hname, rfl⟩
    exact ⟨row, ⟨hmem, hsystem, hsystem ▸ hstored.schema row hmem, hname, hretired⟩, hcolumn⟩
  · rintro ⟨row, ⟨hmem, hsystem, _, hname, hretired⟩, hcolumn⟩
    exact ⟨row, ⟨hmem, hretired, hsystem⟩, column, hcolumn, hname, rfl⟩

/-- Where a table has one current version at most, no column is shown twice. -/
theorem nodup_shownColumns (hstored : Stored fingerprint registry)
    (hone : ∀ name, (currentVersions registry system name).length ≤ 1) :
    (shownColumns registry system).Nodup := by
  rw [shownColumns_eq, List.nodup_flatMap]
  constructor
  · intro row hrow
    have hpositions := (hstored.columns row (List.mem_filter.mp hrow).1).2.positions
    refine (nodup_of_inPositions hpositions).map fun column column' heq => ?_
    exact (InformationRow.mk.inj heq).2
  · have hnodup := hstored.ids.of_map.filter
      (fun row => !row.retired && decide (row.sourceSystem = system))
    refine hnodup.imp_of_mem fun {row row'} hrow hrow' hne => ?_
    intro shown hshown hshown'
    obtain ⟨column, _, rfl⟩ := List.mem_map.mp hshown
    obtain ⟨column', _, heq⟩ := List.mem_map.mp hshown'
    have hname : row'.tableName = row.tableName := (InformationRow.mk.inj heq).1
    have hcurrent : ∀ {r : TableVersion φ}, r ∈ registry.tableVersions.filter
        (fun row => !row.retired && decide (row.sourceSystem = system)) →
          r ∈ currentVersions registry system r.tableName := by
      intro r hr
      obtain ⟨hmem, hr⟩ := List.mem_filter.mp hr
      simp only [Bool.and_eq_true, Bool.not_eq_true', decide_eq_true_iff] at hr
      exact mem_currentVersions.mpr ⟨hmem, hr.2, hr.2 ▸ hstored.schema r hmem, rfl, hr.1⟩
    have hmem := hcurrent hrow
    have hmem' := hname ▸ hcurrent hrow'
    refine hne ?_
    obtain hlength | hlength := Nat.le_one_iff_eq_zero_or_eq_one.mp (hone row.tableName)
    · rw [List.length_eq_zero_iff.mp hlength] at hmem
      cases hmem
    · obtain ⟨only, honly⟩ := List.length_eq_one_iff.mp hlength
      rw [honly, List.mem_singleton] at hmem hmem'
      rw [hmem, hmem']

theorem length_currentVersions_of_log {f : Option φ}
    (h : current (versionLog registry system name) = f.toList) :
    (currentVersions registry system name).length = f.toList.length := by
  rw [← length_current_versionLog, h]

/-- The current versions of a table and its log. -/
theorem current_versionLog (registry : Registry φ) (system : RegisteredSystem) (name : String) :
    current (versionLog registry system name) =
      (currentVersions registry system name).map TableVersion.schemaFingerprint := by
  rw [current, versionLog, currentVersions, List.filter_map, List.map_map, List.filter_filter]
  simp [Function.comp_def, Bool.and_comm]

theorem mem_of_currentVersions_eq {only : TableVersion φ}
    (h : currentVersions registry system name = [only]) :
    only ∈ currentVersions registry system name := by
  rw [h]
  exact List.mem_singleton_self _

/-- A registry that mirrors a source has seen columns of every table. -/
theorem Mirrors.tablesHaveColumns {source : SourceTables} (hstored : Stored fingerprint registry)
    (hmirrors : Mirrors registry system source) : source.TablesHaveColumns := by
  intro name hname
  obtain ⟨only, honly⟩ := List.length_eq_one_iff.mp (hmirrors.present name hname)
  have hcurrent := mem_of_currentVersions_eq honly
  have hlisted := (hstored.columns only (mem_currentVersions.mp hcurrent).1).2
  obtain ⟨column, hcolumn⟩ := List.exists_mem_of_ne_nil _ hlisted.nonempty
  have hshown := (mem_shownColumns hstored).mpr ⟨only, hcurrent, hcolumn⟩
  exact ⟨_, hmirrors.columns.mem_iff.mp hshown, rfl⟩

/-- Where every table has columns, the tables are those with a contract. -/
theorem SourceTables.TablesHaveColumns.contract?_eq_none_iff {source : SourceTables}
    (hhave : source.TablesHaveColumns) :
    source.contract? name = none ↔ name ∉ source.tableNames := by
  rw [Option.eq_none_iff_forall_ne_some]
  constructor
  · intro hnone hname
    obtain ⟨columns, hcolumns⟩ := contract?_isSome_iff.mpr (hhave name hname)
    exact hnone columns hcolumns
  · intro hname columns hcolumns
    obtain ⟨row, hrow, rfl⟩ := contract?_isSome_iff.mp ⟨columns, hcolumns⟩
    exact hname (source.owned row hrow)

/-- The logs of a registry that mirrors a source show its columns. -/
theorem Mirrors.current_eq {source : SourceTables} (hstored : Stored fingerprint registry)
    (hmirrors : Mirrors registry system source) (name : String) :
    current (versionLog registry system name) =
      ((source.contract? name).map fingerprint).toList := by
  have hhave := hmirrors.tablesHaveColumns hstored
  cases hcontract : source.contract? name with
  | none =>
      have habsent := hmirrors.absent name (hhave.contract?_eq_none_iff.mp hcontract)
      rw [current_versionLog, habsent]
      rfl
  | some columns =>
      obtain ⟨row, hrow, rfl⟩ := contract?_isSome_iff.mp ⟨columns, hcontract⟩
      obtain ⟨only, honly⟩ :=
        List.length_eq_one_iff.mp (hmirrors.present row.tableName (source.owned row hrow))
      have hmem := (mem_currentVersions.mp (mem_of_currentVersions_eq honly)).1
      obtain ⟨hfp, hlisted⟩ := hstored.columns only hmem
      have hcolumns : registry.columnsOf only.tableVersionId = columns := by
        refine eq_of_inPositions hlisted.positions
          (listed_of_mem (contract?_eq_some_iff.mp hcontract)).positions fun column => ?_
        rw [mem_contract hcontract, ← hmirrors.columns.mem_iff, mem_shownColumns hstored, honly]
        simp
      rw [current_versionLog, honly, List.map_singleton, ← hfp, hcolumns]
      rfl

/-- Logs that show the columns of a source have them in the registry. -/
theorem shownColumns_perm {source : SourceTables}
    (hfingerprint : Function.Injective fingerprint) (hstored : Stored fingerprint registry)
    (hlog : ∀ name, current (versionLog registry system name) =
      ((source.contract? name).map fingerprint).toList) :
    (shownColumns registry system).Perm source.rows := by
  have hone : ∀ name, (currentVersions registry system name).length ≤ 1 := by
    intro name
    rw [length_currentVersions_of_log (hlog name)]
    cases source.contract? name <;> simp
  refine (List.perm_ext_iff_of_nodup (nodup_shownColumns hstored hone)
    source.names.of_map).mpr fun ⟨name, column⟩ => ?_
  rw [mem_shownColumns hstored]
  have hcurrent := hlog name
  rw [current_versionLog] at hcurrent
  cases hcontract : source.contract? name with
  | none =>
      rw [hcontract] at hcurrent
      have hnil := List.map_eq_nil_iff.mp hcurrent
      refine iff_of_false (by simp [hnil]) fun hmem => ?_
      obtain ⟨columns, hcolumns⟩ := contract?_isSome_iff.mpr ⟨_, hmem, rfl⟩
      rw [hcontract] at hcolumns
      cases hcolumns
  | some columns =>
      rw [hcontract] at hcurrent
      obtain ⟨only, honly, hfp⟩ := List.map_eq_singleton_iff.mp hcurrent
      have hmem := (mem_currentVersions.mp (mem_of_currentVersions_eq honly)).1
      have hcolumns : registry.columnsOf only.tableVersionId = columns :=
        hfingerprint ((hstored.columns only hmem).1.trans hfp)
      rw [honly, ← mem_contract hcontract, ← hcolumns]
      simp

/-- A registry mirrors a source of tables with columns where the log of every table
shows its columns. -/
theorem mirrors_iff {source : SourceTables} (hfingerprint : Function.Injective fingerprint)
    (hstored : Stored fingerprint registry) :
    Mirrors registry system source ↔
      source.TablesHaveColumns ∧
        ∀ name, current (versionLog registry system name) =
          ((source.contract? name).map fingerprint).toList := by
  constructor
  · intro hmirrors
    exact ⟨hmirrors.tablesHaveColumns hstored, hmirrors.current_eq hstored⟩
  · rintro ⟨hhave, hlog⟩
    refine ⟨shownColumns_perm hfingerprint hstored hlog, fun name hname => ?_,
      fun name hname => ?_⟩
    · obtain ⟨columns, hcolumns⟩ := contract?_isSome_iff.mpr (hhave name hname)
      rw [length_currentVersions_of_log (hlog name), hcolumns]
      rfl
    · have hlength := length_currentVersions_of_log (hlog name)
      rw [hhave.contract?_eq_none_iff.mpr hname] at hlength
      exact List.length_eq_zero_iff.mp hlength

end Shown

/-! ## Every sequence of syncs -/

section Syncs

variable {φ : Type} [DecidableEq φ] {fingerprint : List Column → φ}

theorem stored_syncAll (syncs : List (RegisteredSystem × SourceTables)) :
    Stored fingerprint (syncAll fingerprint syncs) := by
  induction syncs using List.reverseRecOn with
  | nil => exact Stored.empty fingerprint
  | append_singleton syncs sync ih =>
      rw [syncAll, List.foldl_append]
      exact ih.recordTables fun table hmem => listed_of_mem hmem

/-- What a table of a system was in each of its synced sources. -/
def observed (system : RegisteredSystem) (name : String)
    (syncs : List (RegisteredSystem × SourceTables)) : List (Option (List Column)) :=
  (sourcesOf system syncs).map (fun source => source.contract? name)

/-- After every sync the registry mirrors the source, for every sequence of
syncs, exactly if every table has columns, no table goes away and no table comes
back to columns that it had before others. -/
theorem mirrors_iff_straight (hfingerprint : Function.Injective fingerprint)
    (syncs : List (RegisteredSystem × SourceTables)) (system : RegisteredSystem) :
    (∀ before after source, syncs = before ++ after →
        (sourcesOf system before).getLast? = some source →
          Mirrors (syncAll fingerprint before) system source) ↔
      (∀ source ∈ sourcesOf system syncs, source.TablesHaveColumns) ∧
        ∀ name, Straight (observed system name syncs) := by
  have hlog : ∀ before name, versionLog (syncAll fingerprint before) system name =
      observeAll [] ((observed system name before).map (Option.map fingerprint)) := by
    intro before name
    rw [versionLog_syncAll, observed, List.map_map]
    rfl
  have hlatest : ∀ {before source} name, (sourcesOf system before).getLast? = some source →
      latest ((observed system name before).map (Option.map fingerprint)) =
        (source.contract? name).map fingerprint := by
    intro before source name hlast
    simp [latest, observed, List.getLast?_map, hlast]
  constructor
  · intro h
    refine ⟨fun source hsource => ?_, fun name => ?_⟩
    · obtain ⟨olds, news, hsources⟩ := List.append_of_mem hsource
      rw [List.append_cons] at hsources
      obtain ⟨before, after, hsyncs, hbefore, _⟩ := List.filterMap_eq_append_iff.mp hsources
      have hlast : (sourcesOf system before).getLast? = some source := by
        rw [sourcesOf, hbefore, List.getLast?_concat]
      exact (h before after source hsyncs hlast).tablesHaveColumns (stored_syncAll before)
    rw [← straight_map_iff hfingerprint, ← current_eq_latest_iff]
    intro before' after' heq
    -- what a log has seen first is what it has seen after some of the syncs
    obtain ⟨olds, news, hobserved, rfl, _⟩ := List.map_eq_append_iff.mp heq
    obtain ⟨sources, rest, hsources, rfl, _⟩ := List.map_eq_append_iff.mp hobserved
    obtain ⟨before, after, hsyncs, rfl, _⟩ := List.filterMap_eq_append_iff.mp hsources
    change current (observeAll [] ((observed system name before).map _)) =
      (latest ((observed system name before).map _)).toList
    cases hlast : (sourcesOf system before).getLast? with
    | none =>
        have hnil : observed system name before = [] := by
          rw [observed, List.getLast?_eq_none_iff.mp hlast, List.map_nil]
        rw [hnil]
        rfl
    | some source =>
        have hmirrors := h before after source hsyncs hlast
        rw [hlatest name hlast, ← hlog]
        exact ((mirrors_iff hfingerprint (stored_syncAll before)).mp hmirrors).2 name
  · rintro ⟨hhave, h⟩ before after source heq hlast
    have hsource : source ∈ sourcesOf system syncs := by
      rw [heq, sourcesOf, List.filterMap_append]
      exact List.mem_append_left _ (List.mem_of_getLast? hlast)
    refine (mirrors_iff hfingerprint (stored_syncAll before)).mpr
      ⟨hhave source hsource, fun name => ?_⟩
    rw [hlog, ← hlatest name hlast]
    refine (current_eq_latest_iff _).mpr ?_ _ [] (List.append_nil _).symm
    rw [straight_map_iff hfingerprint]
    have hsplit : observed system name syncs =
        observed system name before ++ observed system name after := by
      rw [heq, observed, sourcesOf, List.filterMap_append, List.map_append]
      rfl
    exact straight_of_append (hsplit ▸ h name)

/-- A source of one table with one column. -/
def amountTable (dataType : String) : SourceTables where
  tableNames := ["orders"]
  rows := [⟨"orders", ⟨1, "amount", dataType, false, none, none, none⟩⟩]
  owned _ hrow :=
    List.mem_singleton.mpr (congrArg InformationRow.tableName (List.mem_singleton.mp hrow))
  names := List.nodup_singleton _
  positions := List.nodup_singleton _

/-- A source of tables without columns. -/
def bareTables (tableNames : List String) : SourceTables where
  tableNames := tableNames
  rows := []
  owned _ hrow := absurd hrow List.not_mem_nil
  names := List.nodup_nil
  positions := List.nodup_nil

theorem mirrors_iff_straight_changed :
    Mirrors
      (syncAll (fun columns => columns)
        [(.ops, amountTable "integer"), (.ops, amountTable "text")])
      .ops (amountTable "text") := by
  refine (mirrors_iff_straight Function.injective_id
    [(.ops, amountTable "integer"), (.ops, amountTable "text")] .ops).mpr ⟨?_, ?_⟩ _ [] _ rfl rfl
  · intro source hsource
    rcases List.mem_pair.mp hsource with rfl | rfl
    · exact fun name hname => ⟨_, List.mem_singleton_self _, (List.mem_singleton.mp hname).symm⟩
    · exact fun name hname => ⟨_, List.mem_singleton_self _, (List.mem_singleton.mp hname).symm⟩
  intro name
  have hread : ∀ dataType, readColumns (amountTable dataType) =
      [("orders", [⟨1, "amount", dataType, false, none, none, none⟩])] := fun _ => rfl
  have hobserved : observed .ops name
      [(.ops, amountTable "integer"), (.ops, amountTable "text")] =
        [] ++ [(amountTable "integer").contract? name] ++
          [(amountTable "text").contract? name] := rfl
  rw [hobserved, straight_concat, straight_concat]
  simp only [SourceTables.contract?, hread]
  by_cases hname : name = "orders"
  · subst hname
    refine ⟨⟨fun _ _ _ h => absurd h (by simp), ?_⟩, ?_⟩
    · exact ⟨fun h => (nomatch h), fun c _ h => (nomatch h)⟩
    · refine ⟨fun h => (nomatch h), fun c hc hmem => ?_⟩
      rw [List.nil_append, List.mem_singleton] at hmem
      exact absurd (hc.trans hmem) (by decide)
  · have hbeq : (name == "orders") = false := by simpa using hname
    simp only [List.lookup_cons, hbeq, List.lookup_nil]
    refine ⟨⟨fun _ _ _ h => absurd h (by simp), ?_⟩, ?_⟩
    · exact ⟨fun _ => rfl, fun c h => (nomatch h)⟩
    · exact ⟨fun _ => rfl, fun c h => (nomatch h)⟩

/-- A table that changes and changes back, a table that is dropped, and a table that
has no column. -/
theorem changed_back_or_dropped_not_mirrored :
    ¬ Mirrors
        (syncAll (fun columns => columns)
          [(.ops, amountTable "integer"), (.ops, amountTable "text"),
            (.ops, amountTable "integer")])
        .ops (amountTable "integer") ∧
      ¬ Mirrors
        (syncAll (fun columns => columns) [(.ops, amountTable "integer"), (.ops, bareTables [])])
        .ops (bareTables []) ∧
      ¬ Mirrors (syncAll (fun columns => columns) [(.ops, bareTables ["markers"])])
        .ops (bareTables ["markers"]) := by
  refine ⟨?_, ?_, ?_⟩
  · intro h
    exact absurd h.columns (by decide +kernel)
  · intro h
    exact absurd h.columns (by decide +kernel)
  · intro h
    exact absurd (h.present "markers" (by decide)) (by decide +kernel)

end Syncs

end Generator
end Northwind
