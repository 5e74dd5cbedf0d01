import Northwind.FakeForce.Catalog
import Northwind.Library.NewestPerKey

/-!
# The latest-version view of an object

`latestVersionSql` chooses one of the shapes of `DuckDBEngine._latest_version_sql`
from the resolved sources; `LatestVersionSql.rows` is what the chosen statement
returns, as a list in no particular order.

The anti-join shape lets any delta of an id replace the base row without
comparing versions.  `view_perm_ranked_iff` says exactly when that is the same
as ranking base and deltas together.
-/

namespace Northwind
namespace FakeForce

open NewestPerKey

/-- How the engine breaks ties when it ranks by a column. -/
abbrev RankEngine := (column : String) → TieBreak (Row.version column)

/-- SQL equality in a filter: NULL equals nothing. -/
def sqlEquals (a b : Option Value) : Bool :=
  a.isSome && decide (a = b)

theorem sqlEquals_eq_true_iff (a b : Option Value) :
    sqlEquals a b = true ↔ a.isSome = true ∧ a = b := by
  simp [sqlEquals]

/-- The rows of several files; `none` when one of them is missing.  The column that
DuckDB makes of directories such as `business_date=2026-07-25` is left out: no id, version
or delete field is read from it. -/
def sourceReader (read : Path → Option (List Row)) :
    List Path → Option (List Row)
  | [] => some []
  | path :: paths => do
      let rows ← read path
      let rest ← sourceReader read paths
      return rows ++ rest

/-- `_aliased_reader`: a row with the compatibility aliases added. -/
def DatasetSpec.aliased (spec : DatasetSpec) (r : Row) : Row :=
  fun column =>
    match spec.compatibilityAliases.lookup column with
    | some source => r source
    | none => r column

/-- The id column of a row. -/
def DatasetSpec.idOf (spec : DatasetSpec) (r : Row) : Option Value :=
  r spec.idField

/-- The statement `_latest_version_sql` builds. -/
inductive LatestVersionSql where
  | everyRow (paths : List Path)
  | baseOnly (paths : List Path)
  | newest (versionField : String) (deltaPaths : List Path)
  | antiJoin (versionField : String) (basePaths deltaPaths : List Path)

/-- `DuckDBEngine._latest_version_sql`, from the two resolutions it makes. -/
def latestVersionSql (spec : DatasetSpec) (sources baseFiles : List Path) :
    LatestVersionSql :=
  match spec.versionField with
  | none => .everyRow sources
  | some versionField =>
      let basePaths := sources.filter (fun path => path ∈ baseFiles)
      let deltaPaths := sources.filter (fun path => path ∉ baseFiles)
      if deltaPaths = [] then .baseOnly basePaths
      else if basePaths = [] then .newest versionField deltaPaths
      else .antiJoin versionField basePaths deltaPaths

/-- `_newest_per_id_sql` over rows that already carry the aliases. -/
def newestPerId (spec : DatasetSpec) (E : RankEngine) (versionField : String)
    (rows : List Row) : List Row :=
  newestPerKey spec.idOf (E versionField) rows

/-- Base rows no delta supersedes, followed by the newest deltas. -/
def antiJoinRows (spec : DatasetSpec) (E : RankEngine) (versionField : String)
    (base deltas : List Row) : List Row :=
  let latest := newestPerId spec E versionField deltas
  base.filter (fun b => !latest.any (fun d => sqlEquals (spec.idOf d) (spec.idOf b))) ++ latest

/-- The rows the statement returns when the named files have these rows. -/
def LatestVersionSql.rows (spec : DatasetSpec) (E : RankEngine)
    (read : Path → Option (List Row)) : LatestVersionSql → Option (List Row)
  | .everyRow paths => do
      let rows ← sourceReader read paths
      return rows.map spec.aliased
  | .baseOnly paths => do
      let rows ← sourceReader read paths
      return rows.map spec.aliased
  | .newest versionField deltaPaths => do
      let deltas ← sourceReader read deltaPaths
      return newestPerId spec E versionField (deltas.map spec.aliased)
  | .antiJoin versionField basePaths deltaPaths => do
      let base ← sourceReader read basePaths
      let deltas ← sourceReader read deltaPaths
      return antiJoinRows spec E versionField
        (base.map spec.aliased) (deltas.map spec.aliased)

/-- What a connection opened on one state of the tree serves. -/
def view (spec : DatasetSpec) (E : RankEngine) (disk : Disk) : Option (List Row) :=
  match spec.resolveSources disk with
  | .ok sources =>
      (latestVersionSql spec sources (spec.effectiveBase disk)).rows spec E disk.read
  | .error _ => none

/-! ## Reading files -/

theorem mem_of_sourceReader
    {read : Path → Option (List Row)} {paths : List Path} {rows : List Row}
    (h : sourceReader read paths = some rows) (r : Row) :
    r ∈ rows ↔ ∃ path ∈ paths, ∃ content, read path = some content ∧ r ∈ content := by
  induction paths generalizing rows with
  | nil =>
      cases h
      simp
  | cons path paths ih =>
      simp only [sourceReader, Option.bind_eq_bind, Option.bind_eq_some_iff] at h
      obtain ⟨content, hcontent, rest, hrest, hrows⟩ := h
      cases hrows
      rw [List.mem_append, ih hrest]
      constructor
      · rintro (hr | ⟨q, hq, hread⟩)
        · exact ⟨path, List.mem_cons_self, content, hcontent, hr⟩
        · exact ⟨q, List.mem_cons_of_mem _ hq, hread⟩
      · rintro ⟨q, hq, content', hread, hr⟩
        rcases List.mem_cons.mp hq with rfl | hq
        · rw [hcontent] at hread
          cases hread
          exact Or.inl hr
        · exact Or.inr ⟨q, hq, content', hread, hr⟩

theorem exists_sourceReader_iff
    (read : Path → Option (List Row)) (paths : List Path) :
    (∃ rows, sourceReader read paths = some rows) ↔
      ∀ path ∈ paths, (read path).isSome = true := by
  induction paths with
  | nil => simp [sourceReader]
  | cons path paths ih =>
      rw [List.forall_mem_cons, ← ih]
      simp only [sourceReader, Option.bind_eq_bind, Option.bind_eq_some_iff]
      constructor
      · rintro ⟨_, content, hcontent, rest, hrest, _⟩
        exact ⟨by rw [hcontent]; rfl, rest, hrest⟩
      · rintro ⟨hcontent, rest, hrest⟩
        obtain ⟨content, hcontent⟩ := Option.isSome_iff_exists.mp hcontent
        exact ⟨_, content, hcontent, rest, hrest, rfl⟩

/-- The rows of the files that are there, with the aliases. -/
def rowsAt (spec : DatasetSpec) (read : Path → Option (List Row)) (paths : List Path) :
    List Row :=
  paths.flatMap (fun path => ((read path).getD []).map spec.aliased)

theorem mem_rowsAt
    {spec : DatasetSpec} {read : Path → Option (List Row)} {paths : List Path} (r : Row) :
    r ∈ rowsAt spec read paths ↔
      ∃ path ∈ paths, ∃ rows, read path = some rows ∧ r ∈ rows.map spec.aliased := by
  simp only [rowsAt, List.mem_flatMap]
  constructor
  · rintro ⟨path, hpath, hr⟩
    cases hread : read path with
    | none => simp [hread] at hr
    | some rows => exact ⟨path, hpath, rows, hread, by simpa [hread] using hr⟩
  · rintro ⟨path, hpath, rows, hread, hr⟩
    exact ⟨path, hpath, by simpa [hread] using hr⟩

/-- Files that are all there are read completely. -/
theorem sourceReader_eq_rowsAt
    (spec : DatasetSpec) {read : Path → Option (List Row)} {paths : List Path}
    (h : ∀ path ∈ paths, (read path).isSome = true) :
    ∃ rows, sourceReader read paths = some rows ∧
      rows.map spec.aliased = rowsAt spec read paths := by
  induction paths with
  | nil => exact ⟨[], rfl, rfl⟩
  | cons path paths ih =>
      obtain ⟨hpath, hpaths⟩ := List.forall_mem_cons.mp h
      obtain ⟨rows, hrows⟩ := Option.isSome_iff_exists.mp hpath
      obtain ⟨rest, hrest, hmap⟩ := ih hpaths
      refine ⟨rows ++ rest, by simp [sourceReader, hrows, hrest], ?_⟩
      rw [List.map_append, hmap]
      simp [rowsAt, hrows]

/-! ## The rows of each shape -/

section Shapes

variable (spec : DatasetSpec) (E : RankEngine) (versionField : String)

/-- No tie: two rows of one id never share a version. -/
def NoTies (rows : List Row) : Prop :=
  rows.Pairwise (fun a b =>
    spec.idOf a = spec.idOf b → a.version versionField ≠ b.version versionField)

theorem NoTies.versionsIdentify
    {spec : DatasetSpec} {versionField : String} {rows : List Row}
    (h : NoTies spec versionField rows) :
    VersionsIdentify spec.idOf (Row.version versionField) rows := by
  intro r hr r' hr' hid hver
  by_contra hne
  have hsymm : Std.Symm (fun a b : Row =>
      spec.idOf a = spec.idOf b → a.version versionField ≠ b.version versionField) :=
    ⟨fun a b hab hba => (hab hba.symm).symm⟩
  exact List.Pairwise.forall h hr hr' hne hid hver

/-- A base row survives the anti-join when no delta has its (non-NULL) id. -/
theorem mem_antiJoinRows (base deltas : List Row) (r : Row) :
    r ∈ antiJoinRows spec E versionField base deltas ↔
      (r ∈ base ∧ ∀ d ∈ deltas, sqlEquals (spec.idOf d) (spec.idOf r) = false) ∨
      r ∈ newestPerId spec E versionField deltas := by
  unfold antiJoinRows newestPerId
  simp only [List.mem_append, List.mem_filter, Bool.not_eq_true', List.any_eq_false,
    Bool.not_eq_true]
  apply or_congr_left
  apply and_congr_right
  intro _
  constructor
  · intro h d hd
    obtain ⟨m, hm, hid⟩ :=
      (mem_keys_newestPerKey (E versionField) deltas (spec.idOf d)).mpr ⟨d, hd, rfl⟩
    rw [← hid]
    exact h m hm
  · intro h d hd
    exact h d (isNewest_of_mem_newestPerKey (E versionField) hd).1

/-- Some delta of the id of every superseded base row is at least as new, and
a NULL id is not on both sides. -/
def DeltasSupersede (base deltas : List Row) : Prop :=
  ∀ b ∈ base, ∀ d ∈ deltas, spec.idOf b = spec.idOf d →
    (spec.idOf b).isSome = true ∧
    ∃ d' ∈ deltas, spec.idOf d' = spec.idOf b ∧
      b.version versionField ≤ d'.version versionField

variable {spec E versionField}

/-- The anti-join keeps the newest rows when the deltas supersede the base. -/
theorem mem_antiJoinRows_iff_isNewest
    {base deltas : List Row}
    (hone : (base.map spec.idOf).Nodup)
    (hid : VersionsIdentify spec.idOf (Row.version versionField) (base ++ deltas))
    (hsup : DeltasSupersede spec versionField base deltas) (r : Row) :
    r ∈ antiJoinRows spec E versionField base deltas ↔
      IsNewest spec.idOf (Row.version versionField) (base ++ deltas) r := by
  have hidDeltas : VersionsIdentify spec.idOf (Row.version versionField) deltas :=
    hid.mono (fun r hr => List.mem_append_right base hr)
  rw [mem_antiJoinRows, newestPerId, mem_newestPerKey_iff _ hidDeltas]
  constructor
  · rintro (⟨hbase, hfree⟩ | ⟨hdelta, hmax⟩)
    · refine ⟨List.mem_append_left _ hbase, ?_⟩
      intro r' hr' hkey
      rcases List.mem_append.mp hr' with hr' | hr'
      · rw [List.inj_on_of_nodup_map hone hr' hbase hkey]
      · obtain ⟨hsome, _⟩ := hsup r hbase r' hr' hkey.symm
        have := hfree r' hr'
        rw [hkey] at this
        simp [sqlEquals, hsome] at this
    · refine ⟨List.mem_append_right _ hdelta, ?_⟩
      intro r' hr' hkey
      rcases List.mem_append.mp hr' with hr' | hr'
      · obtain ⟨_, d, hd, hdid, hle⟩ := hsup r' hr' r hdelta hkey
        exact hle.trans (hmax d hd (hdid.trans hkey))
      · exact hmax r' hr' hkey
  · rintro ⟨hr, hmax⟩
    by_cases hdelta : ∃ d ∈ deltas, spec.idOf d = spec.idOf r
    · right
      obtain ⟨d, hd, hdid⟩ := hdelta
      rcases List.mem_append.mp hr with hr' | hr'
      · obtain ⟨_, d', hd', hdid', hle⟩ := hsup r hr' d hd hdid.symm
        have heq := hid r hr d' (List.mem_append_right _ hd') hdid'.symm
          (le_antisymm hle (hmax d' (List.mem_append_right _ hd') hdid'))
        subst heq
        exact ⟨hd', fun x hx => hmax x (List.mem_append_right _ hx)⟩
      · exact ⟨hr', fun x hx => hmax x (List.mem_append_right _ hx)⟩
    · left
      rcases List.mem_append.mp hr with hr' | hr'
      · refine ⟨hr', ?_⟩
        intro d hd
        rw [Bool.eq_false_iff, Ne, sqlEquals_eq_true_iff]
        rintro ⟨_, heq⟩
        exact hdelta ⟨d, hd, heq⟩
      · exact absurd ⟨r, hr', rfl⟩ hdelta

/-- The ids of the view are distinct unless a NULL id is on both sides. -/
theorem nodup_ids_antiJoinRows
    {base deltas : List Row}
    (hone : (base.map spec.idOf).Nodup)
    (hsup : DeltasSupersede spec versionField base deltas) :
    ((antiJoinRows spec E versionField base deltas).map spec.idOf).Nodup := by
  unfold antiJoinRows newestPerId
  simp only [List.map_append]
  apply List.Nodup.append
  · exact hone.sublist (List.Sublist.map _ List.filter_sublist)
  · exact nodup_keys_newestPerKey _ _
  · intro k hk hk'
    obtain ⟨b, hb, rfl⟩ := List.mem_map.mp hk
    obtain ⟨d, hd, hdid⟩ := List.mem_map.mp hk'
    obtain ⟨hbase, hfree⟩ := List.mem_filter.mp hb
    have hdelta := (isNewest_of_mem_newestPerKey (E versionField) hd).1
    obtain ⟨hsome, _⟩ := hsup b hbase d hdelta hdid.symm
    rw [Bool.not_eq_true', List.any_eq_false] at hfree
    apply hfree d hd
    rw [sqlEquals_eq_true_iff, hdid]
    exact ⟨hsome, rfl⟩

/-- Every id of the base and of the deltas is served. -/
theorem exists_mem_antiJoinRows
    (E : RankEngine) (base deltas : List Row) {r : Row} (hr : r ∈ base ++ deltas) :
    ∃ s ∈ antiJoinRows spec E versionField base deltas, spec.idOf s = spec.idOf r := by
  by_cases hdelta : ∃ d ∈ deltas, spec.idOf d = spec.idOf r
  · obtain ⟨m, hm, hid⟩ :=
      (mem_keys_newestPerKey (E versionField) deltas (spec.idOf r)).mpr hdelta
    exact ⟨m, (mem_antiJoinRows spec E versionField base deltas m).mpr (Or.inr hm), hid⟩
  · refine ⟨r, (mem_antiJoinRows spec E versionField base deltas r).mpr (Or.inl ⟨?_, ?_⟩), rfl⟩
    · rcases List.mem_append.mp hr with hbase | hr
      · exact hbase
      · exact absurd ⟨r, hr, rfl⟩ hdelta
    · intro d hd
      rw [Bool.eq_false_iff, Ne, sqlEquals_eq_true_iff]
      rintro ⟨_, heq⟩
      exact hdelta ⟨d, hd, heq⟩

theorem length_filter_idOf_le_one
    {rows : List Row} (hnodup : (rows.map spec.idOf).Nodup) (id : Option Value) :
    (rows.filter (fun r => spec.idOf r = id)).length ≤ 1 :=
  length_ofKey_le_one hnodup id

/-- An id the base holds once is served once. -/
theorem length_filter_antiJoinRows_le
    (E : RankEngine) (base deltas : List Row) {id : Option Value} (hid : id.isSome = true)
    (hone : (base.filter (fun r => spec.idOf r = id)).length ≤ 1) :
    ((antiJoinRows spec E versionField base deltas).filter
      (fun r => spec.idOf r = id)).length ≤ 1 := by
  have hlatest : ((newestPerId spec E versionField deltas).filter
      (fun r => spec.idOf r = id)).length ≤ 1 :=
    length_filter_idOf_le_one (nodup_keys_newestPerKey _ _) id
  unfold antiJoinRows
  simp only [List.filter_append, List.length_append]
  by_cases hdelta : ∃ d ∈ newestPerId spec E versionField deltas, spec.idOf d = id
  · obtain ⟨d, hd, hdid⟩ := hdelta
    have hhidden : (base.filter (fun b => !(newestPerId spec E versionField deltas).any
        (fun d => sqlEquals (spec.idOf d) (spec.idOf b)))).filter
          (fun r => spec.idOf r = id) = [] := by
      rw [List.filter_eq_nil_iff]
      intro b hb hbid
      have hbid' : spec.idOf b = id := by simpa using hbid
      have hfree := (List.mem_filter.mp hb).2
      rw [Bool.not_eq_true', List.any_eq_false] at hfree
      apply hfree d hd
      rw [sqlEquals_eq_true_iff, hdid, hbid']
      exact ⟨hid, rfl⟩
    rw [hhidden, List.length_nil, Nat.zero_add]
    exact hlatest
  · have hnone : (newestPerId spec E versionField deltas).filter
        (fun r => spec.idOf r = id) = [] := by
      rw [List.filter_eq_nil_iff]
      intro d hd hdid
      exact hdelta ⟨d, hd, by simpa using hdid⟩
    rw [hnone, List.length_nil, Nat.add_zero]
    exact (List.Sublist.length_le (List.Sublist.filter _ List.filter_sublist)).trans hone

end Shapes

/-! ## The chosen statement against the plain ranking -/

@[simp] theorem DatasetSpec.idOf_aliased (spec : DatasetSpec) (r : Row) :
    spec.idOf (spec.aliased r) = spec.idOf r := by
  simp [idOf, aliased, spec.idStored]

/-- All three shapes of a versioned object return the anti-join's rows. -/
theorem rows_latestVersionSql
    {spec : DatasetSpec} (E : RankEngine) {versionField : String}
    (hversion : spec.versionField = some versionField)
    {read : Path → Option (List Row)} {sources baseFiles : List Path}
    {base deltas : List Row}
    (hbase : sourceReader read (sources.filter (fun p => p ∈ baseFiles)) = some base)
    (hdeltas : sourceReader read (sources.filter (fun p => p ∉ baseFiles)) = some deltas) :
    (latestVersionSql spec sources baseFiles).rows spec E read =
      some (antiJoinRows spec E versionField
        (base.map spec.aliased) (deltas.map spec.aliased)) := by
  unfold latestVersionSql
  rw [hversion]
  simp only
  split
  · rename_i hnone
    rw [hnone] at hdeltas
    cases hdeltas
    simp [LatestVersionSql.rows, hbase, antiJoinRows, newestPerId]
  · split
    · rename_i hnone
      rw [hnone] at hbase
      cases hbase
      simp only [LatestVersionSql.rows, hdeltas, Option.bind_eq_bind, Option.bind_some]
      rfl
    · simp only [LatestVersionSql.rows, hbase, hdeltas, Option.bind_eq_bind, Option.bind_some]
      rfl

/-- A statement that returns rows has read all the files it names. -/
theorem files_of_rows_latestVersionSql
    {spec : DatasetSpec} {E : RankEngine} {versionField : String}
    (hversion : spec.versionField = some versionField)
    {read : Path → Option (List Row)} {sources baseFiles : List Path} {rows : List Row}
    (h : (latestVersionSql spec sources baseFiles).rows spec E read = some rows) :
    ∀ path ∈ sources, (read path).isSome = true := by
  have hread : ∀ paths, (∃ content, sourceReader read paths = some content) →
      ∀ path ∈ paths, (read path).isSome = true :=
    fun paths => (exists_sourceReader_iff read paths).mp
  have hparts : (∀ path ∈ sources.filter (fun p => p ∈ baseFiles), (read path).isSome = true) ∧
      ∀ path ∈ sources.filter (fun p => p ∉ baseFiles), (read path).isSome = true := by
    unfold latestVersionSql at h
    rw [hversion] at h
    simp only at h
    split at h
    · rename_i hnone
      simp only [LatestVersionSql.rows, Option.bind_eq_bind, Option.bind_eq_some_iff] at h
      obtain ⟨content, hcontent, _⟩ := h
      refine ⟨hread _ ⟨content, hcontent⟩, ?_⟩
      rw [hnone]
      exact List.forall_mem_nil _
    · split at h
      · rename_i hnone
        simp only [LatestVersionSql.rows, Option.bind_eq_bind, Option.bind_eq_some_iff] at h
        obtain ⟨content, hcontent, _⟩ := h
        refine ⟨?_, hread _ ⟨content, hcontent⟩⟩
        rw [hnone]
        exact List.forall_mem_nil _
      · simp only [LatestVersionSql.rows, Option.bind_eq_bind, Option.bind_eq_some_iff] at h
        obtain ⟨base, hbase, deltas, hdeltas, _⟩ := h
        exact ⟨hread _ ⟨base, hbase⟩, hread _ ⟨deltas, hdeltas⟩⟩
  intro path hpath
  by_cases hbase : path ∈ baseFiles
  · exact hparts.1 path (List.mem_filter.mpr ⟨hpath, by simpa using hbase⟩)
  · exact hparts.2 path (List.mem_filter.mpr ⟨hpath, by simpa using hbase⟩)

/-- The anti-join is the plain ranking exactly when every base row is
superseded by a delta that is at least as new and no NULL id is on both sides. -/
theorem antiJoinRows_perm_ranked_iff
    {spec : DatasetSpec} (E E' : RankEngine) {versionField : String}
    {base deltas : List Row}
    (hone : (base.map spec.idOf).Nodup)
    (hid : VersionsIdentify spec.idOf (Row.version versionField) (base ++ deltas)) :
    (antiJoinRows spec E versionField base deltas).Perm
        (newestPerId spec E' versionField (base ++ deltas)) ↔
      DeltasSupersede spec versionField base deltas := by
  constructor
  · intro hperm b hb d hd hkey
    have hnodup : ((antiJoinRows spec E versionField base deltas).map spec.idOf).Nodup := by
      rw [(hperm.map spec.idOf).nodup_iff]
      exact nodup_keys_newestPerKey _ _
    obtain ⟨m, hm, hmid⟩ :=
      (mem_keys_newestPerKey (E versionField) deltas (spec.idOf d)).mpr ⟨d, hd, rfl⟩
    have hmdelta := (isNewest_of_mem_newestPerKey (E versionField) hm).1
    have hmview : m ∈ antiJoinRows spec E versionField base deltas :=
      (mem_antiJoinRows spec E versionField base deltas m).mpr (Or.inr hm)
    have hmnew := isNewest_of_mem_newestPerKey (E' versionField) (hperm.mem_iff.mp hmview)
    refine ⟨?_, m, hmdelta, hmid.trans hkey.symm,
      hmnew.2 b (List.mem_append_left _ hb) (hkey.trans hmid.symm)⟩
    -- A NULL id would leave the base row in place next to the newest delta.
    by_contra hnull
    unfold antiJoinRows at hnodup
    rw [List.map_append] at hnodup
    have hkept : b ∈ base.filter (fun b =>
        !(newestPerId spec E versionField deltas).any
          (fun d => sqlEquals (spec.idOf d) (spec.idOf b))) := by
      rw [List.mem_filter, Bool.not_eq_true', List.any_eq_false]
      refine ⟨hb, ?_⟩
      intro x _ heq
      obtain ⟨hsome, hxb⟩ := (sqlEquals_eq_true_iff _ _).mp heq
      rw [hxb] at hsome
      exact hnull hsome
    have hlatest : spec.idOf b ∈ (newestPerId spec E versionField deltas).map spec.idOf := by
      rw [hkey, ← hmid]
      exact List.mem_map_of_mem hm
    exact List.disjoint_of_nodup_append hnodup (List.mem_map_of_mem hkept) hlatest
  · intro hsup
    unfold newestPerId
    rw [perm_newestPerKey_iff _ hid]
    exact ⟨(nodup_ids_antiJoinRows hone hsup).of_map _,
      mem_antiJoinRows_iff_isNewest hone hid hsup⟩

/-- The latest-version statement returns the newest row of every id, once,
exactly when a strictly newer delta stands behind every superseded base row and
no NULL id is both in the base and in the deltas. -/
theorem latestVersionSql_perm_ranked_iff
    (spec : DatasetSpec) (E E' : RankEngine) (versionField : String)
    (hversion : spec.versionField = some versionField)
    (read : Path → Option (List Row)) (sources baseFiles : List Path)
    (base deltas : List Row)
    (hbase : sourceReader read (sources.filter (fun p => p ∈ baseFiles)) = some base)
    (hdeltas : sourceReader read (sources.filter (fun p => p ∉ baseFiles)) = some deltas)
    (hone : (base.map spec.idOf).Nodup)
    (hties : NoTies spec versionField ((base ++ deltas).map spec.aliased)) :
    (∃ rows,
      (latestVersionSql spec sources baseFiles).rows spec E read = some rows ∧
      rows.Perm (newestPerId spec E' versionField ((base ++ deltas).map spec.aliased))) ↔
    ∀ b ∈ base, ∀ d ∈ deltas, spec.idOf b = spec.idOf d →
      (spec.idOf b).isSome = true ∧
      ∃ d' ∈ deltas, spec.idOf d' = spec.idOf b ∧
        (spec.aliased b).version versionField < (spec.aliased d').version versionField := by
  rw [rows_latestVersionSql E hversion hbase hdeltas]
  simp only [Option.some.injEq, exists_eq_left']
  have hid := NoTies.versionsIdentify hties
  rw [List.map_append] at hties hid ⊢
  have hone' : ((base.map spec.aliased).map spec.idOf).Nodup := by
    simpa [List.map_map, Function.comp_def] using hone
  rw [antiJoinRows_perm_ranked_iff E E' hone' hid]
  unfold DeltasSupersede
  simp only [List.forall_mem_map, DatasetSpec.idOf_aliased]
  have hstrict : ∀ b ∈ base, ∀ d ∈ deltas, spec.idOf d = spec.idOf b →
      (spec.aliased b).version versionField ≠ (spec.aliased d).version versionField := by
    intro b hb d hd hkey
    apply (List.pairwise_append.mp hties).2.2 _ (List.mem_map_of_mem hb) _
      (List.mem_map_of_mem hd)
    simpa using hkey.symm
  constructor
  · intro h b hb d hd hkey
    obtain ⟨hsome, r, hr, hkey', hle⟩ := h b hb d hd hkey
    obtain ⟨d', hd', rfl⟩ := List.mem_map.mp hr
    rw [DatasetSpec.idOf_aliased] at hkey'
    exact ⟨hsome, d', hd', hkey', lt_of_le_of_ne hle (hstrict b hb d' hd' hkey')⟩
  · intro h b hb d hd hkey
    obtain ⟨hsome, d', hd', hkey', hlt⟩ := h b hb d hd hkey
    refine ⟨hsome, spec.aliased d', List.mem_map_of_mem hd', ?_, hlt.le⟩
    rw [DatasetSpec.idOf_aliased]
    exact hkey'

/-! ## An Opportunity whose delta is older than its base row -/

/-- An Opportunity row with one modification stamp. -/
def opportunityRow (id stage modstamp : String) : Row :=
  Row.ofCells
    [("Id", .text id), ("StageName", .text stage),
      ("LastModifiedDate", .text modstamp), ("SystemModstamp", .text modstamp)]

/-- The engine that keeps the first row in scan order among equal versions. -/
def firstInScanEngine : RankEngine :=
  fun column => TieBreak.firstInScan (Row.version column)

/-- One partition of the deployed Opportunity. -/
def opportunityPartition (day : String) : Path :=
  ["app", "state", "simulation", "crm", "opportunities",
    "business_date=" ++ day, "delta.parquet"]

/-- The seed file and one published partition. -/
def seedAndPartition (base delta : Row) (path : Path) : Option (List Row) :=
  if path = ["app", "seed", "crm_opportunities.parquet"] then some [base]
  else if path = opportunityPartition "2026-07-25" then some [delta]
  else none

theorem latestVersionSql_perm_ranked_of_newer_delta :
    ∃ rows,
      (latestVersionSql deployedOpportunity
        [["app", "seed", "crm_opportunities.parquet"], opportunityPartition "2026-07-25"]
        [["app", "seed", "crm_opportunities.parquet"]]).rows
          deployedOpportunity firstInScanEngine
          (seedAndPartition (opportunityRow "006a" "Proposal" "2026-07-24T00:00:00Z")
            (opportunityRow "006a" "Negotiation" "2026-07-25T08:00:00Z")) = some rows ∧
      rows.Perm (newestPerId deployedOpportunity firstInScanEngine "SystemModstamp"
        ([opportunityRow "006a" "Proposal" "2026-07-24T00:00:00Z",
          opportunityRow "006a" "Negotiation" "2026-07-25T08:00:00Z"].map
            deployedOpportunity.aliased)) := by
  apply (latestVersionSql_perm_ranked_iff deployedOpportunity firstInScanEngine
    firstInScanEngine "SystemModstamp" rfl _ _ _
    [opportunityRow "006a" "Proposal" "2026-07-24T00:00:00Z"]
    [opportunityRow "006a" "Negotiation" "2026-07-25T08:00:00Z"]
    rfl rfl (by simp) (by unfold NoTies; simp; decide)).mpr
  simp only [List.mem_singleton, forall_eq, exists_eq_left]
  decide

/-- The stale delta is served in place of the newer base row. -/
theorem latestVersionSql_serves_stale_delta :
    ([opportunityRow "006a" "Negotiation" "2026-07-26T08:00:00Z"].map
        deployedOpportunity.idOf).Nodup ∧
    NoTies deployedOpportunity "SystemModstamp"
      ([opportunityRow "006a" "Negotiation" "2026-07-26T08:00:00Z",
        opportunityRow "006a" "Proposal" "2026-07-25T08:00:00Z"].map
          deployedOpportunity.aliased) ∧
    ¬ ∃ rows,
      (latestVersionSql deployedOpportunity
        [["app", "seed", "crm_opportunities.parquet"], opportunityPartition "2026-07-25"]
        [["app", "seed", "crm_opportunities.parquet"]]).rows
          deployedOpportunity firstInScanEngine
          (seedAndPartition (opportunityRow "006a" "Negotiation" "2026-07-26T08:00:00Z")
            (opportunityRow "006a" "Proposal" "2026-07-25T08:00:00Z")) = some rows ∧
      rows.Perm (newestPerId deployedOpportunity firstInScanEngine "SystemModstamp"
        ([opportunityRow "006a" "Negotiation" "2026-07-26T08:00:00Z",
          opportunityRow "006a" "Proposal" "2026-07-25T08:00:00Z"].map
            deployedOpportunity.aliased)) := by
  refine ⟨by simp, by unfold NoTies; simp; decide, ?_⟩
  rintro ⟨rows, hrows, hperm⟩
  have hserved := congrArg (Option.map (List.map (fun r : Row => r "StageName"))) hrows
  have hranked := hperm.map (fun r : Row => r "StageName")
  have hview : rows.map (fun r : Row => r "StageName") = [some (.text "Proposal")] :=
    (Option.some.inj hserved).symm
  rw [hview] at hranked
  revert hranked
  decide

end FakeForce
end Northwind
