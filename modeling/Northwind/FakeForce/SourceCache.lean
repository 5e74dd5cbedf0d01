import Northwind.Library.Memos
import Northwind.Sources.Trees
import Northwind.FakeForce.CompactionReader
import Northwind.FakeForce.Snapshots

/-!
# The caches of the source catalog

Every object memoizes its resolved files behind `structural_fingerprint`, and
the catalog memoizes its snapshot id behind the content fingerprints.  A
fingerprint signs the immediate entries of the delta roots, so it sees what
happens in a delta root and in a directory right below one, and nothing deeper.

`currentSources_eq_resolveSources_iff` says, for every run of changes to the
tree and calls, when a cached resolution is the one the files would give now:
unless something the fingerprint sees has moved since, exactly when no file
further down came or went.  The snapshot id is always the one that
`_compute_snapshot_id` gives, as that one reads the cached resolutions too.
-/

namespace Northwind
namespace FakeForce

/-- One element of the key of the snapshot id, from `content_fingerprint`. -/
abbrev ContentFingerprint := Fingerprint × List (Path × Option Nat)

instance : DecidableEq Fingerprint :=
  instDecidableEqProd

/-- Why a call raises. -/
inductive SnapshotError where
  | catalog (error : CatalogError)
  | fileNotFound (path : Path)
deriving DecidableEq

/-- The resolution cache of every object, by its name, and the snapshot cache. -/
structure CatalogCaches where
  sources : String → Memo Fingerprint (List Path)
  snapshot : Memo (List ContentFingerprint) String

/-- A call that reads and fills the caches; what it filled stays when it
raises. -/
abbrev Cached (α : Type) := ExceptT SnapshotError (StateM CatalogCaches) α

/-- The value of a call, or why it raised, and the caches it leaves. -/
def Cached.at {α : Type} (call : Cached α) (caches : CatalogCaches) :
    Except SnapshotError α × CatalogCaches :=
  call.run.run caches

/-- `DatasetCatalog`, with the hash of what identifies a snapshot. -/
structure DatasetCatalog where
  objects : List DatasetSpec
  names_nodup : (objects.map DatasetSpec.objectName).Nodup
  digest : List SnapshotEntry → String

namespace DatasetSpec

/-- `DatasetSpec.current_sources` -/
def currentSources (spec : DatasetSpec) (disk : Disk) : Cached (List Path) :=
  ExceptT.mk (fun caches =>
    let got := (caches.sources spec.objectName).get (spec.structuralFingerprint disk)
      ((spec.resolveSources disk).mapError SnapshotError.catalog)
    (got.1, { caches with sources := Function.update caches.sources spec.objectName got.2 }))

/-- `DatasetSpec.content_fingerprint` -/
def contentFingerprint (spec : DatasetSpec) (disk : Disk) : Cached ContentFingerprint := do
  let structural := spec.structuralFingerprint disk
  let sources ← spec.currentSources disk
  return (structural, sources.map (fun path => (path, fileSignature disk path)))

/-- `path.stat()` of every file: the first missing one raises. -/
def statAll (disk : Disk) (paths : List Path) :
    Except SnapshotError (List (Path × Option Nat)) :=
  paths.mapM (fun path =>
    match fileSignature disk path with
    | some modified => .ok (path, some modified)
    | none => .error (.fileNotFound path))

/-- The payload of one object in `_compute_snapshot_id`. -/
def snapshotPayload (spec : DatasetSpec) (disk : Disk) : Cached SnapshotEntry := do
  let sources ← spec.currentSources disk
  let stats ← ExceptT.mk (pure (statAll disk sources))
  return ⟨spec.objectName, spec.idField, spec.softDeleteField, stats⟩

end DatasetSpec

namespace DatasetCatalog

/-- `sorted(self._objects)` -/
def sortedObjects (catalog : DatasetCatalog) : List DatasetSpec :=
  catalog.objects.insertionSort (fun a b => a.objectName ≤ b.objectName)

/-- `DatasetCatalog._compute_snapshot_id` -/
def computeSnapshotId (catalog : DatasetCatalog) (disk : Disk) : Cached String := do
  let payload ← catalog.sortedObjects.mapM (fun spec => spec.snapshotPayload disk)
  return catalog.digest payload

/-- `self._snapshot_cache.get(fingerprint, self._compute_snapshot_id)` -/
def rememberId (catalog : DatasetCatalog) (disk : Disk)
    (fingerprint : List ContentFingerprint) : Cached String := do
  let caches ← get
  match caches.snapshot.lookup fingerprint with
  | some id => return id
  | none =>
      let id ← catalog.computeSnapshotId disk
      modify (fun caches => { caches with snapshot := ⟨some (fingerprint, id)⟩ })
      return id

/-- `DatasetCatalog.snapshot_id` -/
def snapshotId (catalog : DatasetCatalog) (disk : Disk) : Cached String := do
  let fingerprint ← catalog.sortedObjects.mapM (fun spec => spec.contentFingerprint disk)
  catalog.rememberId disk fingerprint

end DatasetCatalog

/-! ## Calls from caches that give the same answers -/

section Calls

variable {α β : Type} {caches caches' : CatalogCaches}

@[simp] theorem Cached.at_pure (value : α) (caches : CatalogCaches) :
    Cached.at (pure value) caches = (.ok value, caches) :=
  rfl

theorem Cached.at_bind_ok
    {call : Cached α} {next : α → Cached β} {value : α}
    (h : call.at caches = (.ok value, caches')) :
    Cached.at (call >>= next) caches = (next value).at caches' := by
  unfold Cached.at at h ⊢
  rw [ExceptT.run_bind, StateT.run_bind, h]
  rfl

theorem Cached.at_bind_error
    {call : Cached α} {next : α → Cached β} {error : SnapshotError}
    (h : call.at caches = (.error error, caches')) :
    Cached.at (call >>= next) caches = (.error error, caches') := by
  unfold Cached.at at h ⊢
  rw [ExceptT.run_bind, StateT.run_bind, h]
  rfl

/-- What `current_sources` answers from these caches. -/
def DatasetSpec.answer (spec : DatasetSpec) (disk : Disk) (caches : CatalogCaches) :
    Except SnapshotError (List Path) :=
  ((spec.currentSources disk).at caches).1

/-- What one object's cache holds comes from the tree `disk`. -/
abbrev DatasetSpec.KeptFrom (spec : DatasetSpec) (caches : CatalogCaches) :
    Option Disk → Prop :=
  (caches.sources spec.objectName).KeptFrom spec.structuralFingerprint
    (fun disk => (spec.resolveSources disk).mapError SnapshotError.catalog)

/-- Calls on the tree `disk` lead from `caches` to `caches'`: every object is
answered as before, and its cache is as before or filled from this tree. -/
structure Reread (objects : List DatasetSpec) (disk : Disk)
    (caches caches' : CatalogCaches) : Prop where
  answers : ∀ spec ∈ objects, spec.answer disk caches' = spec.answer disk caches
  sources : ∀ spec ∈ objects,
    caches'.sources spec.objectName = caches.sources spec.objectName ∨
      spec.KeptFrom caches' (some disk)
  snapshot : caches'.snapshot = caches.snapshot

/-- From such caches the call gives the value, and it leaves such caches. -/
def Reads (objects : List DatasetSpec) (disk : Disk) (caches : CatalogCaches)
    (call : Cached α) (value : Except SnapshotError α) : Prop :=
  ∀ caches', Reread objects disk caches caches' →
    (call.at caches').1 = value ∧ Reread objects disk caches (call.at caches').2

variable {objects : List DatasetSpec} {disk : Disk}

theorem reads_pure (value : α) : Reads objects disk caches (pure value) (.ok value) :=
  fun _ h => ⟨rfl, h⟩

theorem reads_bind
    {call : Cached α} {next : α → Cached β}
    {value : Except SnapshotError α} {values : α → Except SnapshotError β}
    (hcall : Reads objects disk caches call value)
    (hnext : ∀ a, Reads objects disk caches (next a) (values a)) :
    Reads objects disk caches (call >>= next) (value >>= values) := by
  intro caches' hreread
  obtain ⟨hvalue, hkept⟩ := hcall caches' hreread
  rcases hat : call.at caches' with ⟨outcome, after⟩
  rw [hat] at hvalue hkept
  subst hvalue
  cases outcome with
  | ok a =>
      rw [Cached.at_bind_ok hat]
      exact hnext a after hkept
  | error e =>
      rw [Cached.at_bind_error hat]
      exact ⟨rfl, hkept⟩

theorem reads_mapM
    {γ : Type} {calls : γ → Cached α} {values : γ → Except SnapshotError α} {xs : List γ}
    (h : ∀ x ∈ xs, Reads objects disk caches (calls x) (values x)) :
    Reads objects disk caches (xs.mapM calls) (xs.mapM values) := by
  induction xs with
  | nil =>
      rw [List.mapM_nil, List.mapM_nil]
      exact reads_pure []
  | cons x xs ih =>
      rw [List.mapM_cons, List.mapM_cons]
      refine reads_bind (h x List.mem_cons_self) (fun a => ?_)
      exact reads_bind (ih fun y hy => h y (List.mem_cons_of_mem x hy))
        (fun rest => reads_pure (a :: rest))

theorem at_currentSources (spec : DatasetSpec) (disk : Disk) (caches : CatalogCaches) :
    (spec.currentSources disk).at caches =
      (((caches.sources spec.objectName).get (spec.structuralFingerprint disk)
          ((spec.resolveSources disk).mapError SnapshotError.catalog)).1,
        { caches with
          sources := Function.update caches.sources spec.objectName
            ((caches.sources spec.objectName).get (spec.structuralFingerprint disk)
              ((spec.resolveSources disk).mapError SnapshotError.catalog)).2 }) :=
  rfl

/-- Objects of one name are one object. -/
theorem DatasetCatalog.eq_of_name
    {catalog : DatasetCatalog} {spec spec' : DatasetSpec}
    (h : spec ∈ catalog.objects) (h' : spec' ∈ catalog.objects)
    (hname : spec.objectName = spec'.objectName) : spec = spec' :=
  List.inj_on_of_nodup_map catalog.names_nodup h h' hname

theorem reread_refl (objects : List DatasetSpec) (disk : Disk) (caches : CatalogCaches) :
    Reread objects disk caches caches :=
  ⟨fun _ _ => rfl, fun _ _ => Or.inl rfl, rfl⟩

theorem Reread.trans
    {caches'' : CatalogCaches}
    (h : Reread objects disk caches caches') (h' : Reread objects disk caches' caches'') :
    Reread objects disk caches caches'' := by
  refine ⟨fun spec hmem => (h'.answers spec hmem).trans (h.answers spec hmem), ?_,
    h'.snapshot.trans h.snapshot⟩
  intro spec hmem
  rcases h'.sources spec hmem with hsame | hfilled
  · rw [DatasetSpec.KeptFrom, hsame]
    exact h.sources spec hmem
  · exact Or.inr hfilled

/-- `current_sources` changes no answer. -/
theorem reread_currentSources
    {catalog : DatasetCatalog} {spec : DatasetSpec} (hmem : spec ∈ catalog.objects)
    (disk : Disk) (caches : CatalogCaches) :
    Reread catalog.objects disk caches ((spec.currentSources disk).at caches).2 := by
  refine ⟨fun spec' hmem' => ?_, fun spec' hmem' => ?_, rfl⟩
  · unfold DatasetSpec.answer
    rw [at_currentSources, at_currentSources, at_currentSources]
    by_cases hname : spec'.objectName = spec.objectName
    · rw [DatasetCatalog.eq_of_name hmem' hmem hname]
      simp only [Function.update_self]
      rw [Memo.get_get]
    · simp only [Function.update_of_ne hname]
  · rw [at_currentSources]
    by_cases hname : spec'.objectName = spec.objectName
    · rw [DatasetCatalog.eq_of_name hmem' hmem hname]
      simp only [DatasetSpec.KeptFrom, Function.update_self]
      exact Memo.keptFrom_get spec.structuralFingerprint
        (fun disk => (spec.resolveSources disk).mapError SnapshotError.catalog)
        (caches.sources spec.objectName) disk
    · exact Or.inl (Function.update_of_ne hname _ _)

theorem reads_currentSources
    {catalog : DatasetCatalog} {spec : DatasetSpec} (hmem : spec ∈ catalog.objects)
    (disk : Disk) (caches : CatalogCaches) :
    Reads catalog.objects disk caches (spec.currentSources disk)
      (spec.answer disk caches) :=
  fun caches' hreread => ⟨hreread.answers spec hmem,
    hreread.trans (reread_currentSources hmem disk caches')⟩

end Calls

/-! ## The snapshot id -/

section SnapshotId

variable {catalog : DatasetCatalog} {disk : Disk} {caches : CatalogCaches}

namespace DatasetSpec

/-- The content fingerprint of an object that resolves to these files. -/
def contents (spec : DatasetSpec) (disk : Disk) (sources : List Path) : ContentFingerprint :=
  (spec.structuralFingerprint disk, sources.map (fun path => (path, fileSignature disk path)))

/-- The stat of one signed file. -/
def statOf (entry : Path × Option Nat) : Except SnapshotError (Path × Option Nat) :=
  match entry.2 with
  | some modified => .ok (entry.1, some modified)
  | none => .error (.fileNotFound entry.1)

/-- The payload of an object with this content fingerprint. -/
def payload (spec : DatasetSpec) (fingerprint : ContentFingerprint) :
    Except SnapshotError SnapshotEntry := do
  let stats ← fingerprint.2.mapM statOf
  return ⟨spec.objectName, spec.idField, spec.softDeleteField, stats⟩

theorem reads_contentFingerprint
    {spec : DatasetSpec} (hmem : spec ∈ catalog.objects) (disk : Disk) (caches : CatalogCaches) :
    Reads catalog.objects disk caches (spec.contentFingerprint disk)
      (spec.answer disk caches >>= fun sources => .ok (spec.contents disk sources)) :=
  reads_bind (reads_currentSources hmem disk caches)
    (fun sources => reads_pure (spec.contents disk sources))

theorem reads_snapshotPayload
    {spec : DatasetSpec} (hmem : spec ∈ catalog.objects) (disk : Disk) (caches : CatalogCaches) :
    Reads catalog.objects disk caches (spec.snapshotPayload disk)
      (spec.answer disk caches >>= fun sources => spec.payload (spec.contents disk sources)) := by
  refine reads_bind (reads_currentSources hmem disk caches) (fun sources => ?_)
  have hstats : statAll disk sources =
      (spec.contents disk sources).2.mapM statOf := by
    rw [contents, List.mapM_map]
    rfl
  rw [payload, ← hstats]
  refine reads_bind ?_ (fun stats => reads_pure _)
  exact fun caches' hreread => ⟨rfl, hreread⟩

end DatasetSpec

/-- The payloads of objects with these content fingerprints. -/
def payloads (objects : List DatasetSpec) (fingerprints : List ContentFingerprint) :
    Except SnapshotError (List SnapshotEntry) :=
  (objects.zip fingerprints).mapM (fun entry => entry.1.payload entry.2)

/-- The content fingerprints decide the payloads; without them there are none. -/
theorem payloads_of_answers
    (objects : List DatasetSpec) (answers : DatasetSpec → Except SnapshotError (List Path))
    (disk : Disk) :
    (∃ error error',
      objects.mapM (fun spec =>
        answers spec >>= fun sources => .ok (spec.contents disk sources)) = .error error ∧
      objects.mapM (fun spec =>
        answers spec >>= fun sources => spec.payload (spec.contents disk sources)) =
          .error error') ∨
    ∃ fingerprints,
      objects.mapM (fun spec =>
        answers spec >>= fun sources => .ok (spec.contents disk sources)) =
          .ok fingerprints ∧
      objects.mapM (fun spec =>
        answers spec >>= fun sources => spec.payload (spec.contents disk sources)) =
          payloads objects fingerprints := by
  unfold payloads
  induction objects with
  | nil => exact Or.inr ⟨[], rfl, rfl⟩
  | cons spec objects ih =>
      simp only [List.mapM_cons]
      cases hanswer : answers spec with
      | error e => exact Or.inl ⟨e, e, rfl, rfl⟩
      | ok sources =>
          rcases ih with ⟨error, error', hfirst, hsecond⟩ | ⟨fingerprints, hfirst, hsecond⟩
          · rw [hfirst, hsecond]
            left
            cases hpayload : spec.payload (spec.contents disk sources) with
            | error e =>
                refine ⟨error, e, rfl, ?_⟩
                change (spec.payload (spec.contents disk sources) >>= _) = _
                rw [hpayload]
                rfl
            | ok entry =>
                refine ⟨error, error', rfl, ?_⟩
                change (spec.payload (spec.contents disk sources) >>= _) = _
                rw [hpayload]
                rfl
          · rw [hfirst, hsecond]
            refine Or.inr ⟨spec.contents disk sources :: fingerprints, rfl, ?_⟩
            rw [List.zip_cons_cons, List.mapM_cons]
            rfl

namespace DatasetCatalog

theorem mem_sortedObjects (catalog : DatasetCatalog) (spec : DatasetSpec) :
    spec ∈ catalog.sortedObjects ↔ spec ∈ catalog.objects :=
  List.mem_insertionSort _

theorem reads_fingerprints (catalog : DatasetCatalog) (disk : Disk) (caches : CatalogCaches) :
    Reads catalog.objects disk caches
      (catalog.sortedObjects.mapM (fun spec => spec.contentFingerprint disk))
      (catalog.sortedObjects.mapM (fun spec =>
        spec.answer disk caches >>= fun sources => .ok (spec.contents disk sources))) :=
  reads_mapM fun spec hmem =>
    spec.reads_contentFingerprint ((catalog.mem_sortedObjects spec).mp hmem) disk caches

theorem reads_computeSnapshotId
    (catalog : DatasetCatalog) (disk : Disk) (caches : CatalogCaches) :
    Reads catalog.objects disk caches (catalog.computeSnapshotId disk)
      (catalog.sortedObjects.mapM (fun spec =>
        spec.answer disk caches >>= fun sources => spec.payload (spec.contents disk sources)) >>=
          fun entries => .ok (catalog.digest entries)) := by
  refine reads_bind (reads_mapM fun spec hmem => ?_) (fun entries => reads_pure _)
  exact spec.reads_snapshotPayload ((catalog.mem_sortedObjects spec).mp hmem) disk caches

/-- The kept snapshot id is the one its content fingerprints give. -/
def Sealed (catalog : DatasetCatalog) (caches : CatalogCaches) : Prop :=
  ∀ fingerprints id, caches.snapshot.lookup fingerprints = some id →
    payloads catalog.sortedObjects fingerprints >>=
      (fun entries => .ok (catalog.digest entries)) = .ok id

theorem at_rememberId_of_hit
    {fingerprints : List ContentFingerprint} {id : String}
    (h : caches.snapshot.lookup fingerprints = some id) :
    (catalog.rememberId disk fingerprints).at caches = (.ok id, caches) := by
  have hget : Cached.at (get : Cached CatalogCaches) caches = (.ok caches, caches) := rfl
  rw [rememberId, Cached.at_bind_ok hget, h]
  rfl

theorem at_rememberId_of_computed
    {fingerprints : List ContentFingerprint} {id : String} {caches' : CatalogCaches}
    (h : caches.snapshot.lookup fingerprints = none)
    (hcomputed : (catalog.computeSnapshotId disk).at caches = (.ok id, caches')) :
    (catalog.rememberId disk fingerprints).at caches =
      (.ok id, { caches' with snapshot := ⟨some (fingerprints, id)⟩ }) := by
  have hget : Cached.at (get : Cached CatalogCaches) caches = (.ok caches, caches) := rfl
  rw [rememberId, Cached.at_bind_ok hget, h]
  exact Cached.at_bind_ok hcomputed

theorem at_rememberId_of_raised
    {fingerprints : List ContentFingerprint} {error : SnapshotError} {caches' : CatalogCaches}
    (h : caches.snapshot.lookup fingerprints = none)
    (hcomputed : (catalog.computeSnapshotId disk).at caches = (.error error, caches')) :
    (catalog.rememberId disk fingerprints).at caches = (.error error, caches') := by
  have hget : Cached.at (get : Cached CatalogCaches) caches = (.ok caches, caches) := rfl
  rw [rememberId, Cached.at_bind_ok hget, h]
  exact Cached.at_bind_error hcomputed

/-- What one call of `snapshot_id` does: it gives what `_compute_snapshot_id`
gives, and besides the caches of the objects it may fill the snapshot cache. -/
theorem at_snapshotId (hsealed : catalog.Sealed caches) (disk : Disk) :
    ((catalog.snapshotId disk).at caches).1.toOption =
        ((catalog.computeSnapshotId disk).at caches).1.toOption ∧
      catalog.Sealed ((catalog.snapshotId disk).at caches).2 ∧
      ∃ reread, Reread catalog.objects disk caches reread ∧
        ((catalog.snapshotId disk).at caches).2.sources = reread.sources := by
  obtain ⟨hfingerprints, hreread⟩ :=
    catalog.reads_fingerprints disk caches caches (reread_refl _ _ _)
  have hcompute := catalog.reads_computeSnapshotId disk caches
  have hdirect := (hcompute caches (reread_refl _ _ _)).1
  rcases hat : Cached.at (catalog.sortedObjects.mapM
    (fun spec => spec.contentFingerprint disk)) caches with ⟨outcome, between⟩
  simp only [hat] at hfingerprints hreread
  obtain ⟨hlater, hreread'⟩ := hcompute between hreread
  rw [hdirect]
  rcases payloads_of_answers catalog.sortedObjects
    (fun spec => spec.answer disk caches) disk with
      ⟨error, error', hfirst, hsecond⟩ | ⟨fingerprints, hfirst, hsecond⟩
  · rw [hfirst] at hfingerprints
    rw [hsecond, snapshotId, Cached.at_bind_error (hat.trans (by rw [hfingerprints]))]
    exact ⟨rfl, by rw [Sealed, hreread.snapshot]; exact hsealed, between, hreread, rfl⟩
  · rw [hfirst] at hfingerprints
    rw [hsecond] at hlater ⊢
    rw [snapshotId, Cached.at_bind_ok (hat.trans (by rw [hfingerprints]))]
    cases hlookup : between.snapshot.lookup fingerprints with
    | some id =>
        rw [at_rememberId_of_hit hlookup]
        rw [hreread.snapshot] at hlookup
        refine ⟨?_, by rw [Sealed, hreread.snapshot]; exact hsealed, between, hreread, rfl⟩
        rw [hsealed fingerprints id hlookup]
    | none =>
        rcases hcomputed : (catalog.computeSnapshotId disk).at between with ⟨outcome', after⟩
        rw [hcomputed] at hlater hreread'
        simp only at hlater hreread'
        rw [← hlater]
        cases outcome' with
        | ok id =>
            rw [at_rememberId_of_computed hlookup hcomputed]
            refine ⟨rfl, ?_, after, hreread', rfl⟩
            intro fingerprints' id' hkept
            rw [Memo.lookup_eq_some_iff, Option.some.injEq, Prod.mk.injEq] at hkept
            obtain ⟨rfl, rfl⟩ := hkept
            exact hlater.symm
        | error e =>
            rw [at_rememberId_of_raised hlookup hcomputed]
            exact ⟨rfl, by rw [Sealed, hreread'.snapshot]; exact hsealed, after, hreread', rfl⟩

end DatasetCatalog

end SnapshotId

/-! ## What the fingerprint sees -/

namespace DatasetSpec

variable {spec : DatasetSpec} {past now : Disk}

/-- A file in a delta root or in a directory right below one. -/
def Watched (spec : DatasetSpec) (path : Path) : Prop :=
  path.parent ∈ spec.deltaRoots ∨ path.parent.parent ∈ spec.deltaRoots

instance (spec : DatasetSpec) (path : Path) : Decidable (spec.Watched path) :=
  inferInstanceAs (Decidable (_ ∨ _))

theorem mem_directorySignature (disk : Disk) (directory : Path) (entry : String × Nat) :
    entry ∈ directorySignature disk directory ↔ entry ∈ disk.entries directory :=
  List.mem_insertionSort _

/-- One fingerprint means the same entries in every delta root. -/
theorem mem_entries_of_fingerprint
    (hfingerprint : spec.structuralFingerprint past = spec.structuralFingerprint now)
    {root : Path} (hroot : root ∈ spec.deltaRoots) (entry : String × Nat) :
    entry ∈ past.entries root ↔ entry ∈ now.entries root := by
  have hroots := List.map_inj_left.mp (congrArg Prod.snd hfingerprint) root hroot
  have hsame : directorySignature past root = directorySignature now root :=
    congrArg Prod.snd hroots
  rw [← mem_directorySignature, ← mem_directorySignature, hsame]

/-- Below one fingerprint no watched file came or went. -/
theorem isFile_eq_of_watched
    (h : Disk.LeadsTo past now) (hpast : past.Rooted) (hnow : now.Rooted)
    (hfingerprint : spec.structuralFingerprint past = spec.structuralFingerprint now)
    {path : Path} (hwatched : spec.Watched path) :
    now.isFile path = past.isFile path := by
  by_cases hroot : path.parent ∈ spec.deltaRoots
  · exact h.isFile_eq_of_entries hpast hnow (mem_entries_of_fingerprint hfingerprint hroot)
  · have hbelow := hwatched.resolve_left hroot
    have hne : path.parent ≠ [] := by
      intro hnil
      rw [hnil] at hbelow hroot
      exact hroot hbelow
    exact h.isFile_eq_of_dirs_eq hpast hnow hne
      (h.dirs_eq_of_entries hpast hne (mem_entries_of_fingerprint hfingerprint hbelow))

theorem watched_compactedFile {root : Path} (hroot : root ∈ spec.deltaRoots) :
    spec.Watched (compactedFile root) := by
  right
  rw [compactedFile, Path.parent_append_singleton, Path.parent_append_singleton]
  exact hroot

/-- Below one fingerprint the base is the same. -/
theorem effectiveBase_eq_of_fingerprint
    (h : Disk.LeadsTo past now) (hpast : past.Rooted) (hnow : now.Rooted)
    (hfingerprint : spec.structuralFingerprint past = spec.structuralFingerprint now) :
    spec.effectiveBase now = spec.effectiveBase past := by
  have hbase : spec.compactedBase now = spec.compactedBase past := by
    unfold compactedBase
    apply List.find?_congr
    intro path hmem
    obtain ⟨root, hroot, rfl⟩ := List.mem_map.mp hmem
    exact isFile_eq_of_watched h hpast hnow hfingerprint (watched_compactedFile hroot)
  unfold effectiveBase
  rw [hbase]

/-- `_resolve_sources` lists the base and the files on the delta paths. -/
theorem resolveSources_eq_ok_iff (spec : DatasetSpec) (disk : Disk) (sources : List Path) :
    spec.resolveSources disk = .ok sources ↔
      spec.DeltasSupported disk ∧
      sources = sortedSet (spec.effectiveBase disk ++
        sortedSet (disk.paths.filter spec.isDeltaPath)) := by
  unfold resolveSources
  cases hdeltas : spec.publishedDeltas disk with
  | ok deltas =>
      obtain ⟨hsupported, rfl⟩ := (publishedDeltas_eq_ok_iff spec disk deltas).mp hdeltas
      constructor
      · intro h
        exact ⟨hsupported, (Except.ok.inj h).symm⟩
      · rintro ⟨_, rfl⟩
        rfl
  | error e =>
      constructor
      · intro h
        cases h
      · rintro ⟨hsupported, _⟩
        rw [(publishedDeltas_eq_ok_iff spec disk _).mpr ⟨hsupported, rfl⟩] at hdeltas
        cases hdeltas

/-- Of the files the fingerprint does not see, those that are listed are the
same, and all that a pattern reaches now can be read. -/
def DeepKept (spec : DatasetSpec) (past now : Disk) : Prop :=
  (∀ path, spec.isDeltaPath path = true → ¬ spec.Watched path →
    path ∉ spec.effectiveBase now → now.isFile path = past.isFile path) ∧
  ∀ path, spec.matchesDelta path = true → ¬ spec.Watched path →
    now.isFile path = true → supported path = true

theorem mem_resolved (spec : DatasetSpec) (disk : Disk) (path : Path) :
    path ∈ spec.effectiveBase disk ++ sortedSet (disk.paths.filter spec.isDeltaPath) ↔
      path ∈ spec.effectiveBase disk ∨
        disk.isFile path = true ∧ spec.isDeltaPath path = true := by
  rw [List.mem_append, mem_sortedSet, List.mem_filter, Disk.mem_paths, Disk.isFile_eq_read]

/-- An earlier resolution stands under the same fingerprint exactly when nothing
deeper has changed. -/
theorem resolveSources_eq_iff_deepKept
    (h : Disk.LeadsTo past now) (hpast : past.Rooted) (hnow : now.Rooted)
    (hfingerprint : spec.structuralFingerprint past = spec.structuralFingerprint now)
    {sources : List Path} (hsources : spec.resolveSources past = .ok sources) :
    spec.resolveSources past = spec.resolveSources now ↔ spec.DeepKept past now := by
  have hbase := effectiveBase_eq_of_fingerprint h hpast hnow hfingerprint
  have hwatched : ∀ path, spec.Watched path → now.isFile path = past.isFile path :=
    fun _ hw => isFile_eq_of_watched h hpast hnow hfingerprint hw
  rw [hsources, eq_comm, resolveSources_eq_ok_iff]
  obtain ⟨hsupported, rfl⟩ := (resolveSources_eq_ok_iff spec past sources).mp hsources
  constructor
  · rintro ⟨hsupported', hsame⟩
    refine ⟨fun path hdelta _ hnotbase => ?_, fun path hmatch _ hfile => ?_⟩
    · have hmem := Iff.of_eq (congrArg (path ∈ ·) hsame)
      rw [mem_sortedSet, mem_sortedSet, mem_resolved, mem_resolved, ← hbase] at hmem
      rw [Bool.eq_iff_iff]
      simpa [hdelta, hnotbase, iff_comm] using hmem
    · rw [Disk.isFile_eq_read] at hfile
      exact hsupported' path hfile hmatch
  · rintro ⟨hlisted, hreadable⟩
    constructor
    · intro path hread hmatch
      by_cases hw : spec.Watched path
      · rw [← Disk.isFile_eq_read, hwatched path hw, Disk.isFile_eq_read] at hread
        exact hsupported path hread hmatch
      · exact hreadable path hmatch hw (by rw [Disk.isFile_eq_read, hread])
    · apply sortedSet_congr
      intro path
      rw [mem_resolved, mem_resolved, ← hbase]
      by_cases hnotbase : path ∈ spec.effectiveBase now
      · simp only [hnotbase, true_or]
      · by_cases hdelta : spec.isDeltaPath path = true
        · by_cases hw : spec.Watched path
          · rw [hwatched path hw]
          · rw [hlisted path hdelta hw hnotbase]
        · simp only [hdelta, and_false, Bool.false_eq_true]

end DatasetSpec

/-! ## Runs of changes and calls -/

/-- The tree and the caches.  `resolvedOn` remembers, besides what the code
keeps, on which tree the cached files of an object were listed. -/
structure CatalogState where
  disk : Disk
  caches : CatalogCaches
  resolvedOn : String → Option Disk

namespace CatalogState

/-- The process has just started. -/
def Started (s : CatalogState) : Prop :=
  s.disk.Rooted ∧ s.caches = ⟨fun _ => Memo.empty, Memo.empty⟩ ∧ s.resolvedOn = fun _ => none

/-- A call leaves these caches. -/
def leave (s : CatalogState) (caches : CatalogCaches) : CatalogState where
  disk := s.disk
  caches := caches
  resolvedOn := fun name =>
    if caches.sources name = s.caches.sources name then s.resolvedOn name else some s.disk

end CatalogState

/-- Some process changes the tree, or the service calls its catalog. -/
inductive CatalogStep (catalog : DatasetCatalog) : CatalogState → CatalogState → Prop
  | change {s : CatalogState} (op : FileOp) (allowed : op.Allowed s.disk) :
      CatalogStep catalog s { s with disk := op.run s.disk }
  | currentSources {s : CatalogState} (spec : DatasetSpec) (mem : spec ∈ catalog.objects) :
      CatalogStep catalog s (s.leave ((spec.currentSources s.disk).at s.caches).2)
  | snapshotId {s : CatalogState} :
      CatalogStep catalog s (s.leave ((catalog.snapshotId s.disk).at s.caches).2)
  | refresh {s : CatalogState} :
      CatalogStep catalog s
        { s with
          caches := ⟨fun _ => Memo.empty, Memo.empty⟩
          resolvedOn := fun _ => none }

/-- Every cached resolution was listed on the tree it is remembered with, from
which the present one comes. -/
structure Traced (catalog : DatasetCatalog) (s : CatalogState) : Prop where
  rooted : s.disk.Rooted
  kept : ∀ spec ∈ catalog.objects, spec.KeptFrom s.caches (s.resolvedOn spec.objectName)
  past : ∀ name past, s.resolvedOn name = some past →
    past.Rooted ∧ Disk.LeadsTo past s.disk
  snapshot : catalog.Sealed s.caches

section Runs

variable {catalog : DatasetCatalog} {s s' : CatalogState}

theorem sealed_empty (catalog : DatasetCatalog) (sources : String → Memo Fingerprint (List Path)) :
    catalog.Sealed ⟨sources, Memo.empty⟩ :=
  fun _ _ h => nomatch Memo.lookup_eq_some_iff.mp h

theorem traced_of_started (h : s.Started) : Traced catalog s := by
  obtain ⟨hrooted, hcaches, hresolved⟩ := h
  refine ⟨hrooted, ?_, ?_, ?_⟩
  · intro spec _
    rw [hcaches, hresolved]
    rfl
  · intro name past hpast
    rw [hresolved] at hpast
    cases hpast
  · rw [hcaches]
    exact sealed_empty catalog _

/-- A call that only rereads keeps the tracing. -/
theorem Traced.leave
    (h : Traced catalog s) {caches reread : CatalogCaches}
    (hreread : Reread catalog.objects s.disk s.caches reread)
    (hsources : caches.sources = reread.sources) (hsealed : catalog.Sealed caches) :
    Traced catalog (s.leave caches) := by
  refine ⟨h.rooted, ?_, ?_, hsealed⟩
  · intro spec hmem
    unfold CatalogState.leave DatasetSpec.KeptFrom
    simp only
    by_cases hsame : caches.sources spec.objectName = s.caches.sources spec.objectName
    · rw [if_pos hsame, hsame]
      exact h.kept spec hmem
    · rw [if_neg hsame, hsources]
      rw [hsources] at hsame
      exact (hreread.sources spec hmem).resolve_left hsame
  · intro name past hpast
    unfold CatalogState.leave at hpast
    simp only at hpast
    split at hpast
    · exact h.past name past hpast
    · rw [← Option.some.inj hpast]
      exact ⟨h.rooted, Disk.LeadsTo.refl s.disk⟩

theorem Traced.step (h : Traced catalog s) (hstep : CatalogStep catalog s s') :
    Traced catalog s' := by
  cases hstep with
  | change op allowed =>
      refine ⟨FileOp.rooted_run h.rooted allowed, h.kept, ?_, h.snapshot⟩
      intro name past hpast
      obtain ⟨hrooted, hleads⟩ := h.past name past hpast
      exact ⟨hrooted, hleads.trans (FileOp.leadsTo_run allowed)⟩
  | currentSources spec mem =>
      have hreread := reread_currentSources mem s.disk s.caches
      refine h.leave hreread rfl ?_
      rw [DatasetCatalog.Sealed, hreread.snapshot]
      exact h.snapshot
  | snapshotId =>
      obtain ⟨_, hsealed, reread, hreread, hsources⟩ :=
        DatasetCatalog.at_snapshotId h.snapshot s.disk
      exact h.leave hreread hsources hsealed
  | refresh =>
      exact ⟨h.rooted, fun _ _ => rfl, fun _ _ hpast => (nomatch hpast),
        sealed_empty catalog _⟩

theorem traced_of_run
    {start : CatalogState} (hstart : start.Started)
    (hrun : Relation.ReflTransGen (CatalogStep catalog) start s) : Traced catalog s := by
  induction hrun with
  | refl => exact traced_of_started hstart
  | tail _ hstep ih => exact ih.step hstep

theorem mapError_eq_ok_iff
    {α ε ε' : Type} {f : ε → ε'} {outcome : Except ε α} {value : α} :
    outcome.mapError f = .ok value ↔ outcome = .ok value := by
  cases outcome <;> simp [Except.mapError]

theorem mapError_eq_iff
    {α ε ε' : Type} {f : ε → ε'} {outcome outcome' : Except ε α} {value : α}
    (h : outcome.mapError f = .ok value) :
    outcome.mapError f = outcome'.mapError f ↔ outcome = outcome' := by
  rw [h, mapError_eq_ok_iff.mp h, eq_comm, mapError_eq_ok_iff, eq_comm]

/-- In every run a cached resolution is the present one exactly when the
fingerprint has moved since it was listed or no deeper file came or went; the
snapshot id is the one `_compute_snapshot_id` gives. -/
theorem currentSources_eq_resolveSources_iff
    {start : CatalogState} (hstart : start.Started)
    (hrun : Relation.ReflTransGen (CatalogStep catalog) start s) :
    (∀ spec ∈ catalog.objects,
      ((spec.currentSources s.disk).at s.caches).1 =
          (spec.resolveSources s.disk).mapError SnapshotError.catalog ↔
        ∀ past, s.resolvedOn spec.objectName = some past →
          spec.structuralFingerprint past = spec.structuralFingerprint s.disk →
            spec.DeepKept past s.disk) ∧
      ((catalog.snapshotId s.disk).at s.caches).1.toOption =
        ((catalog.computeSnapshotId s.disk).at s.caches).1.toOption := by
  have htraced := traced_of_run hstart hrun
  refine ⟨fun spec hmem => ?_, (DatasetCatalog.at_snapshotId htraced.snapshot s.disk).1⟩
  have hkept := htraced.kept spec hmem
  rw [at_currentSources]
  refine (Memo.get_eq_iff hkept s.disk).trans
    (forall_congr' fun past => imp_congr_right fun hpast => imp_congr_right fun hfingerprint => ?_)
  rw [hpast] at hkept
  obtain ⟨sources, _, hsources⟩ := hkept
  obtain ⟨hrooted, hleads⟩ := htraced.past _ past hpast
  rw [mapError_eq_iff hsources]
  exact DatasetSpec.resolveSources_eq_iff_deepKept hleads hrooted htraced.rooted
    hfingerprint (mapError_eq_ok_iff.mp hsources)

/-- A list of changes is a run. -/
theorem run_changes
    (catalog : DatasetCatalog) (s : CatalogState) (ops : List FileOp)
    (hops : FileOp.AllAllowed s.disk ops) :
    Relation.ReflTransGen (CatalogStep catalog) s
      { s with disk := ops.foldl FileOp.run s.disk } := by
  induction ops generalizing s with
  | nil => exact Relation.ReflTransGen.refl
  | cons op ops ih =>
      exact Relation.ReflTransGen.head (CatalogStep.change op hops.1)
        (ih { s with disk := op.run s.disk } hops.2)

end Runs

/-! ## A partition two directories down -/

/-- The deployed Opportunity as the only object. -/
def deployedCatalog : DatasetCatalog where
  objects := [deployedOpportunity]
  names_nodup := List.nodup_singleton _
  digest := fun _ => ""

def deltaDirectory : Path := ["app", "state", "simulation", "crm", "opportunities"]

/-- The seed, and a directory for the partitions of one month. -/
def seedTree : List FileOp :=
  [.mkdir ["app"], .mkdir ["app", "seed"],
    .replace ["app", "seed", "crm_opportunities.parquet"] [],
    .mkdir ["app", "state"], .mkdir ["app", "state", "simulation"],
    .mkdir ["app", "state", "simulation", "crm"], .mkdir deltaDirectory,
    .mkdir (deltaDirectory ++ ["2026"]), .mkdir (deltaDirectory ++ ["2026", "07"])]

def startedBare : CatalogState :=
  ⟨Disk.bare, ⟨fun _ => Memo.empty, Memo.empty⟩, fun _ => none⟩

theorem started_startedBare : startedBare.Started :=
  ⟨Disk.rooted_bare, rfl, rfl⟩

/-- The service has resolved the Opportunity on the seed. -/
def seedResolved : CatalogState :=
  let seeded := { startedBare with disk := seedTree.foldl FileOp.run startedBare.disk }
  seeded.leave ((deployedOpportunity.currentSources seeded.disk).at seeded.caches).2

/-- A partition was published at `path` since. -/
def publishedAt (path : Path) : CatalogState :=
  { seedResolved with disk := (FileOp.replace path []).run seedResolved.disk }

theorem run_publishedAt
    {path : Path} (hallowed : (FileOp.replace path []).Allowed seedResolved.disk) :
    Relation.ReflTransGen (CatalogStep deployedCatalog) startedBare (publishedAt path) := by
  refine ((run_changes deployedCatalog startedBare seedTree (by decide +kernel)).tail
    (.currentSources deployedOpportunity (List.mem_singleton_self _))).tail
    (.change (.replace path []) hallowed)

/-- A partition right below a directory of the delta root moves the fingerprint,
and is listed. -/
theorem currentSources_eq_resolveSources_published :
    let s := publishedAt (deltaDirectory ++ ["2026", "part.parquet"])
    ((deployedOpportunity.currentSources s.disk).at s.caches).1 =
        (deployedOpportunity.resolveSources s.disk).mapError SnapshotError.catalog := by
  intro s
  refine ((currentSources_eq_resolveSources_iff started_startedBare
    (run_publishedAt (by decide +kernel))).1 deployedOpportunity
      (List.mem_singleton_self _)).mpr ?_
  intro past hpast hfingerprint
  simp only [publishedAt, seedResolved, CatalogState.leave] at hpast
  split at hpast
  · cases hpast
  · rw [← Option.some.inj hpast] at hfingerprint
    exact absurd hfingerprint (by decide +kernel)

/-- The deeper partition is not listed. -/
theorem deepPartition_not_resolved :
    ¬ ∀ (catalog : DatasetCatalog) (start s : CatalogState), start.Started →
      Relation.ReflTransGen (CatalogStep catalog) start s →
        ∀ spec ∈ catalog.objects,
          ((spec.currentSources s.disk).at s.caches).1 =
            (spec.resolveSources s.disk).mapError SnapshotError.catalog := by
  intro h
  have hsame := h deployedCatalog startedBare
    (publishedAt (deltaDirectory ++ ["2026", "07", "part.parquet"])) started_startedBare
    (run_publishedAt (by decide +kernel)) deployedOpportunity (List.mem_singleton_self _)
  have hlisted := congrArg Except.toOption hsame
  exact absurd hlisted (by decide +kernel)

end FakeForce
end Northwind
