import Northwind.Sources.Disk

/-!
# The source catalog: which files make up an object

A `DatasetSpec` names the base files of an object and the patterns its delta
partitions are published under.  Compaction writes a merged base beside the
partitions; once that file exists it stands in for the configured base.

`effectiveBase` and `publishedDeltas` each read the directory tree on their
own, and `resolveSources` reads them one after the other.  Resolution is
memoized behind `structuralFingerprint`, a signature of the base files and of
the immediate entries of every delta root.

Patterns are given by their parts.  Symbolic links are left out, so resolving
a candidate returns it unchanged.
-/

namespace Northwind
namespace FakeForce

/-- `COMPACTED_DIRECTORY` -/
def compactedDirectory : String := "compacted"

/-- `COMPACTED_BASE_FILENAME` -/
def compactedBaseFilename : String := "base.parquet"

/-- `_SUPPORTED_SUFFIXES` -/
def supportedSuffixes : List String := [".parquet", ".csv", ".csv.gz"]

/-- `_WILDCARDS` -/
def wildcards : List Char := ['*', '?', '[']

/-- The configuration of one exposed object. -/
structure DatasetSpec where
  objectName : String
  sources : List Path
  idField : String
  softDeleteField : Option String
  dataRoots : List Path
  deltaPatterns : List (List String)
  versionField : Option String
  /-- Pairs of an alias and the stored column it reads. -/
  compatibilityAliases : List (String × String)
  /-- `_parse_object`: the id is a stored column, and a stored column is never
  an alias. -/
  idStored : compatibilityAliases.lookup idField = none := by rfl

theorem lookup_noAliases (idField : String) :
    ([] : List (String × String)).lookup idField = none :=
  rfl

/-- The `Opportunity` entry of `catalog.json` under the compose data roots.
The generated seed stores every alias column itself, so none is added. -/
def deployedOpportunity : DatasetSpec where
  objectName := "Opportunity"
  sources := [["app", "seed", "crm_opportunities.parquet"]]
  idField := "Id"
  softDeleteField := some "IsDeleted"
  dataRoots := [["app", "seed"], ["app", "state", "simulation", "crm"]]
  deltaPatterns := [["opportunities", "**", "*.parquet"]]
  versionField := some "SystemModstamp"
  compatibilityAliases := []

inductive CatalogError where
  | unsupportedSourceFormat (candidate : Path)
deriving DecidableEq

/-! ## Glob patterns -/

/-- One item of a path-segment pattern. -/
inductive SegmentItem where
  | star
  | anyChar
  | oneOf (negated : Bool) (ranges : List (Char × Char))
  | literal (c : Char)
deriving DecidableEq

/-- The ranges between the brackets of `[...]`. -/
def classRanges : List Char → List (Char × Char)
  | a :: '-' :: b :: rest => (a, b) :: classRanges rest
  | a :: rest => (a, a) :: classRanges rest
  | [] => []

/-- Read one bracket class; `none` when the bracket never closes. -/
def readClass (cs : List Char) : Option (SegmentItem × List Char) :=
  let negated := cs.head? = some '!'
  let body := if negated then cs.tail else cs
  -- A closing bracket in first position belongs to the class.
  let first := body.take 1
  let inside := first ++ (body.drop 1).takeWhile (· ≠ ']')
  match (body.drop 1).dropWhile (· ≠ ']') with
  | ']' :: rest => some (.oneOf negated (classRanges inside), rest)
  | _ => none

/-- Items of a segment pattern; the fuel is the number of characters left. -/
def segmentItems : Nat → List Char → List SegmentItem
  | 0, _ => []
  | _ + 1, [] => []
  | fuel + 1, '*' :: rest => .star :: segmentItems fuel rest
  | fuel + 1, '?' :: rest => .anyChar :: segmentItems fuel rest
  | fuel + 1, '[' :: rest =>
      match readClass rest with
      | some (item, rest') => item :: segmentItems fuel rest'
      | none => .literal '[' :: segmentItems fuel rest
  | fuel + 1, c :: rest => .literal c :: segmentItems fuel rest

/-- Whether a class contains a character. -/
def classContains (ranges : List (Char × Char)) (c : Char) : Bool :=
  ranges.any (fun r => r.1 ≤ c && c ≤ r.2)

/-- `fnmatch` of one path segment. -/
def itemsMatch : List SegmentItem → List Char → Bool
  | [], cs => cs.isEmpty
  | .star :: items, cs => cs.tails.any (fun rest => itemsMatch items rest)
  | .anyChar :: items, _ :: cs => itemsMatch items cs
  | .oneOf negated ranges :: items, c :: cs =>
      (classContains ranges c != negated) && itemsMatch items cs
  | .literal a :: items, c :: cs => a == c && itemsMatch items cs
  | _ :: _, [] => false

def segmentMatches (pattern segment : String) : Bool :=
  itemsMatch (segmentItems pattern.length pattern.toList) segment.toList

/-- `Path.glob`: `**` stands for any number of directories, and for
directories only when it is the last part. -/
def globMatches : List String → Path → Bool
  | [], path => path.isEmpty
  | ["**"], _ => false
  | part :: parts, path =>
      if part = "**" then
        path.tails.any (fun rest => globMatches parts rest)
      else
        match path with
        | [] => false
        | segment :: rest => segmentMatches part segment && globMatches parts rest

/-- The path below `root`, if it is below it. -/
def relativeTo? (root path : Path) : Option Path :=
  if root.isPrefixOf path then some (path.drop root.length) else none

/-- Whether `root.glob(pattern)` yields `path`. -/
def globYields (root : Path) (pattern : List String) (path : Path) : Bool :=
  match relativeTo? root path with
  | some rest => globMatches pattern rest
  | none => false

/-- `DatasetCatalog._expand_source` -/
def expandSource (disk : Disk) (pattern : List String) (roots : List Path) :
    Except CatalogError (List Path) :=
  let candidates :=
    disk.paths.filter (fun path => roots.any (fun root => globYields root pattern path))
  match candidates.find?
      (fun path => !supportedSuffixes.any (fun suffix => endsWith path.name suffix)) with
  | some candidate => .error (.unsupportedSourceFormat candidate)
  | none => .ok (sortedSet candidates)

namespace DatasetSpec

/-- `DatasetSpec.delta_roots`: the directories a pattern can publish into. -/
def deltaRoots (spec : DatasetSpec) : List Path :=
  sortedSet (spec.deltaPatterns.flatMap (fun pattern =>
    let literal := pattern.takeWhile
      (fun segment => !wildcards.any (fun w => segment.toList.contains w))
    spec.dataRoots.map (fun root => root ++ literal)))

/-- The merged base of one delta root. -/
def compactedFile (root : Path) : Path :=
  root ++ [compactedDirectory] ++ [compactedBaseFilename]

/-- `DatasetSpec.compacted_base`: the first root with an existing merged file. -/
def compactedBase (spec : DatasetSpec) (disk : Disk) : Option Path :=
  (spec.deltaRoots.map compactedFile).find? disk.isFile

/-- `DatasetSpec.effective_base` -/
def effectiveBase (spec : DatasetSpec) (disk : Disk) : List Path :=
  match spec.compactedBase disk with
  | some compacted => [compacted]
  | none => spec.sources

/-- `DatasetSpec.published_deltas`: partitions since the last compaction. -/
def publishedDeltas (spec : DatasetSpec) (disk : Disk) :
    Except CatalogError (List Path) := do
  let deltas ← spec.deltaPatterns.mapM
    (fun pattern => expandSource disk pattern spec.dataRoots)
  return sortedSet
    (deltas.flatten.filter (fun path => path.parent.name ≠ compactedDirectory))

/-- `DatasetSpec._resolve_sources` on one state of the tree. -/
def resolveSources (spec : DatasetSpec) (disk : Disk) :
    Except CatalogError (List Path) := do
  let base := spec.effectiveBase disk
  let deltas ← spec.publishedDeltas disk
  return sortedSet (base ++ deltas)

/-- `_file_signature`, without the size. -/
def fileSignature (disk : Disk) (path : Path) : Option Nat :=
  (disk.files.lookup path).map File.mtime

/-- `_directory_signature`: names and modification times of the entries. -/
def directorySignature (disk : Disk) (directory : Path) : List (String × Nat) :=
  (disk.entries directory).insertionSort (fun a b => toLex a ≤ toLex b)

/-- `DatasetSpec.structural_fingerprint` -/
def structuralFingerprint (spec : DatasetSpec) (disk : Disk) :
    List (Path × Option Nat) × List (Path × List (String × Nat)) :=
  (spec.sources.map (fun path => (path, fileSignature disk path)),
    spec.deltaRoots.map (fun root => (root, directorySignature disk root)))

/-! ## What a resolution lists -/

/-- Some pattern of the list reaches the path below some root. -/
def reachedBy (patterns : List (List String)) (roots : List Path) (path : Path) : Bool :=
  patterns.any (fun pattern => roots.any (fun root => globYields root pattern path))

/-- A path some delta pattern reaches below some data root. -/
def matchesDelta (spec : DatasetSpec) (path : Path) : Bool :=
  reachedBy spec.deltaPatterns spec.dataRoots path

/-- The name of the file has a supported suffix. -/
def supported (path : Path) : Bool :=
  supportedSuffixes.any (fun suffix => endsWith path.name suffix)

/-- A path `published_deltas` lists when a file is there. -/
def isDeltaPath (spec : DatasetSpec) (path : Path) : Bool :=
  spec.matchesDelta path && decide (path.parent.name ≠ compactedDirectory)

/-- Every file the delta patterns reach can be read by the engine. -/
def DeltasSupported (spec : DatasetSpec) (disk : Disk) : Prop :=
  ∀ path, (disk.read path).isSome = true → spec.matchesDelta path = true →
    supported path = true

/-- One pattern expands to its matching files, or fails on one of them. -/
theorem expandSource_eq_ok_iff
    (disk : Disk) (pattern : List String) (roots : List Path)
    (found : List Path) :
    expandSource disk pattern roots = .ok found ↔
      (∀ path ∈ disk.paths,
        roots.any (fun root => globYields root pattern path) = true →
          supported path = true) ∧
      found = sortedSet (disk.paths.filter
        (fun path => roots.any (fun root => globYields root pattern path))) := by
  unfold expandSource
  simp only
  split
  · rename_i candidate hfind
    have hbad := List.find?_some hfind
    have hmem := List.mem_filter.mp (List.mem_of_find?_eq_some hfind)
    constructor
    · intro h
      cases h
    · rintro ⟨hall, _⟩
      have hgood := hall candidate hmem.1 hmem.2
      unfold supported at hgood
      rw [hgood] at hbad
      simp at hbad
  · rename_i hfind
    rw [List.find?_eq_none] at hfind
    constructor
    · intro h
      refine ⟨?_, (Except.ok.inj h).symm⟩
      intro path hpath hglob
      have h' := hfind path (List.mem_filter.mpr ⟨hpath, hglob⟩)
      simpa [supported] using h'
    · rintro ⟨_, rfl⟩
      rfl

/-- A list maps without error exactly when every element does. -/
theorem mapM_eq_ok_iff
    {α β ε : Type} (f : α → Except ε β) (xs : List α) (ys : List β) :
    xs.mapM f = .ok ys ↔ List.Forall₂ (fun x y => f x = .ok y) xs ys := by
  induction xs generalizing ys with
  | nil =>
      rw [List.mapM_nil, List.forall₂_nil_left_iff]
      exact ⟨fun h => (Except.ok.inj h).symm, fun h => by rw [h]; rfl⟩
  | cons x xs ih =>
      rw [List.mapM_cons, List.forall₂_cons_left_iff]
      cases hx : f x with
      | error e =>
          constructor
          · intro h
            cases h
          · rintro ⟨y, rest, hok, _⟩
            cases hok
      | ok y =>
          cases hr : xs.mapM f with
          | error e =>
              constructor
              · intro h
                cases h
              · rintro ⟨_, rest, _, hrest, _⟩
                rw [(ih rest).mpr hrest] at hr
                cases hr
          | ok rest =>
              constructor
              · intro h
                cases h
                exact ⟨y, rest, rfl, (ih rest).mp hr, rfl⟩
              · rintro ⟨y', rest', hok, hrest, rfl⟩
                cases hok
                rw [(ih rest').mpr hrest] at hr
                cases hr
                rfl

/-- Expanding every pattern lists the files any of them reaches. -/
theorem mem_flatten_of_expanded
    {disk : Disk} {roots : List Path}
    {patterns : List (List String)} {found : List (List Path)}
    (hfound : List.Forall₂
      (fun pattern paths => expandSource disk pattern roots = .ok paths)
      patterns found) :
    (∀ path ∈ disk.paths, reachedBy patterns roots path = true →
        supported path = true) ∧
      ∀ path, path ∈ found.flatten ↔
        path ∈ disk.paths ∧ reachedBy patterns roots path = true := by
  unfold reachedBy
  induction hfound with
  | nil => simp
  | @cons pattern paths patterns found hpattern _ ih =>
      obtain ⟨hsupported, rfl⟩ := (expandSource_eq_ok_iff disk pattern _ paths).mp hpattern
      refine ⟨?_, ?_⟩
      · intro path hpath hmatch
        rw [List.any_cons, Bool.or_eq_true] at hmatch
        rcases hmatch with hhead | htail
        · exact hsupported path hpath hhead
        · exact ih.1 path hpath htail
      · intro path
        rw [List.flatten_cons, List.mem_append, mem_sortedSet, List.mem_filter, ih.2 path,
          List.any_cons, Bool.or_eq_true]
        tauto

/-- With readable files every pattern can be expanded. -/
theorem exists_expanded
    {disk : Disk} {roots : List Path} {patterns : List (List String)}
    (hsupported : ∀ path ∈ disk.paths, reachedBy patterns roots path = true →
      supported path = true) :
    ∃ found, List.Forall₂
      (fun pattern paths => expandSource disk pattern roots = .ok paths)
      patterns found := by
  unfold reachedBy at hsupported
  induction patterns with
  | nil => exact ⟨[], List.Forall₂.nil⟩
  | cons pattern patterns ih =>
      obtain ⟨rest, hrest⟩ := ih (by
        intro path hpath hmatch
        apply hsupported path hpath
        rw [List.any_cons, hmatch, Bool.or_true])
      refine ⟨_, List.Forall₂.cons
        ((expandSource_eq_ok_iff disk pattern _ _).mpr ⟨?_, rfl⟩) hrest⟩
      intro path hpath hglob
      apply hsupported path hpath
      rw [List.any_cons, hglob, Bool.true_or]

/-- `published_deltas` lists the files on the delta paths, in path order. -/
theorem publishedDeltas_eq_ok_iff
    (spec : DatasetSpec) (disk : Disk) (deltas : List Path) :
    spec.publishedDeltas disk = .ok deltas ↔
      spec.DeltasSupported disk ∧
      deltas = sortedSet (disk.paths.filter spec.isDeltaPath) := by
  constructor
  · intro h
    unfold publishedDeltas at h
    cases hm : spec.deltaPatterns.mapM
        (fun pattern => expandSource disk pattern spec.dataRoots) with
    | error e =>
        rw [hm] at h
        cases h
    | ok found =>
        rw [hm] at h
        obtain ⟨hsupported, hmem⟩ :=
          mem_flatten_of_expanded ((mapM_eq_ok_iff _ _ found).mp hm)
        refine ⟨?_, (Except.ok.inj h).symm.trans ?_⟩
        · intro path hread
          exact hsupported path ((disk.mem_paths path).mpr hread)
        · apply sortedSet_congr
          intro path
          simp only [List.mem_filter, isDeltaPath, matchesDelta, Bool.and_eq_true, hmem path]
          tauto
  · rintro ⟨hsupported, rfl⟩
    have hreadable : ∀ path ∈ disk.paths,
        reachedBy spec.deltaPatterns spec.dataRoots path = true →
          supported path = true :=
      fun path hpath => hsupported path ((disk.mem_paths path).mp hpath)
    obtain ⟨found, hfound⟩ := exists_expanded hreadable
    have hm := (mapM_eq_ok_iff _ _ found).mpr hfound
    obtain ⟨_, hmem⟩ := mem_flatten_of_expanded hfound
    unfold publishedDeltas
    rw [hm]
    apply congrArg Except.ok
    apply sortedSet_congr
    intro path
    simp only [List.mem_filter, isDeltaPath, matchesDelta, Bool.and_eq_true, hmem path]
    tauto

/-- Membership form of `publishedDeltas_eq_ok_iff`. -/
theorem mem_publishedDeltas
    {spec : DatasetSpec} {disk : Disk} {deltas : List Path}
    (h : spec.publishedDeltas disk = .ok deltas) (path : Path) :
    path ∈ deltas ↔
      (disk.read path).isSome = true ∧ spec.isDeltaPath path = true := by
  obtain ⟨_, rfl⟩ := (publishedDeltas_eq_ok_iff spec disk deltas).mp h
  rw [mem_sortedSet, List.mem_filter, disk.mem_paths]

/-- A merged base is never listed as a partition. -/
theorem isDeltaPath_compactedFile (spec : DatasetSpec) (root : Path) :
    spec.isDeltaPath (compactedFile root) = false := by
  unfold isDeltaPath compactedFile
  rw [Path.parent_append_singleton, Path.name_append_singleton]
  simp

theorem compactedFile_notMem_publishedDeltas
    {spec : DatasetSpec} {disk : Disk} {deltas : List Path}
    (h : spec.publishedDeltas disk = .ok deltas) (root : Path) :
    compactedFile root ∉ deltas := by
  intro hmem
  have hdelta := ((mem_publishedDeltas h _).mp hmem).2
  rw [isDeltaPath_compactedFile] at hdelta
  cases hdelta

/-- The reader's base is the merged base of the first root that holds one. -/
theorem compactedBase_eq_some_iff
    (spec : DatasetSpec) (disk : Disk) (path : Path) :
    spec.compactedBase disk = some path ↔
      ∃ before root after, spec.deltaRoots = before ++ root :: after ∧
        compactedFile root = path ∧ disk.isFile path = true ∧
        ∀ earlier ∈ before, disk.isFile (compactedFile earlier) = false := by
  unfold compactedBase
  rw [List.find?_eq_some_iff_append]
  constructor
  · rintro ⟨hfile, before, after, hsplit, hbefore⟩
    obtain ⟨roots, rest, hroots, rfl, hrest⟩ := List.map_eq_append_iff.mp hsplit
    obtain ⟨root, tail, rfl, rfl, rfl⟩ := List.map_eq_cons_iff.mp hrest
    refine ⟨roots, root, tail, hroots, rfl, hfile, ?_⟩
    intro earlier hearlier
    simpa using hbefore _ (List.mem_map_of_mem hearlier)
  · rintro ⟨before, root, after, hroots, rfl, hfile, hbefore⟩
    refine ⟨hfile, before.map compactedFile, after.map compactedFile, ?_, ?_⟩
    · simp [hroots]
    · intro path hpath
      obtain ⟨earlier, hearlier, rfl⟩ := List.mem_map.mp hpath
      simpa using hbefore earlier hearlier

end DatasetSpec
end FakeForce
end Northwind
