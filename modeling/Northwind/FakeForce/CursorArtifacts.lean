import Northwind.FakeForce.CursorPinning
import Northwind.Library.CrashPrograms

/-!
# The life of a cursor's index, from its request to the restart that removes it

The index of a query result is written to a temporary file, moved to its place
and only then named by a row of the cursors.  A request may run out of time
while its worker goes on, any of the steps may fail, and the process may be
killed between any two of them.  Rows and files are removed at start-up only:
first the rows that have expired, then the files that no open cursor names.

`cursor_kept`: the locator of an answered request is served, with the very index
its worker wrote, until it expires, whatever else happens.
`accounted_of_run`: every file belongs to a row or to a request of the running
process, and a start-up leaves exactly the indexes of the open cursors.

A locator is drawn at random: it is taken to be new.  The files of the directory
are named by nothing else, so `remove` never meets a path outside of it.
-/

namespace Northwind
namespace FakeForce

open CrashPrograms CrashPrograms.Program

/-! ## The table and the directory -/

/-- A row of `cursors`. -/
structure CursorRow where
  locatorId : String
  cursor : StoredCursor
  status : String
  expiresAt : Nat

/-- `status = 'open' AND expires_at > current_timestamp` -/
def CursorRow.isOpen (now : Nat) (row : CursorRow) : Bool :=
  row.status == "open" && decide (now < row.expiresAt)

/-- What outlives the process: the rows, the indexes by their paths and the
temporary files by the locators in their names.  `none` is a file that is not
written to its end. -/
structure CursorStore where
  rows : List CursorRow
  indexes : List (String × Option (List IndexEntry))
  temporaries : List (String × Option (List IndexEntry))

namespace CursorStore

/-- `StateStore.get_cursor` -/
def getCursor (store : CursorStore) (now : Nat) (locatorId : String) : Option StoredCursor :=
  (store.rows.find? (fun row => row.locatorId == locatorId && row.isOpen now)).map
    CursorRow.cursor

/-- `StateStore.count_open_cursors` -/
def countOpenCursors (store : CursorStore) (now : Nat) : Nat :=
  (store.rows.filter (CursorRow.isOpen now)).length

/-- `StateStore.active_cursor_artifacts` -/
def activeCursorArtifacts (store : CursorStore) (now : Nat) : List String :=
  (store.rows.filter (CursorRow.isOpen now)).map (fun row => row.cursor.resultArtifact)

/-- `StateStore.create_cursor`; the locator is the primary key. -/
def createCursor (store : CursorStore) (row : CursorRow) : Option CursorStore :=
  if store.rows.any (fun other => other.locatorId == row.locatorId) then none
  else some { store with rows := store.rows ++ [row] }

/-- The index `read_page_ids` finds at a path. -/
def readIndex (store : CursorStore) (path : String) : Option (List IndexEntry) :=
  (store.indexes.find? (fun file => file.1 == path)).bind Prod.snd

/-- A temporary file is created, written on or written to its end. -/
def writeTemporary (store : CursorStore) (locatorId : String)
    (content : Option (List IndexEntry)) : CursorStore :=
  { store with
    temporaries := (locatorId, content) ::
      store.temporaries.filter (fun file => file.1 != locatorId) }

/-- `temporary.unlink(missing_ok=True)` -/
def unlinkTemporary (store : CursorStore) (locatorId : String) : CursorStore :=
  { store with temporaries := store.temporaries.filter (fun file => file.1 != locatorId) }

/-- `os.replace(temporary, destination)`: whatever the temporary file holds. -/
def publishTempFile (store : CursorStore) (locatorId : String)
    (content : Option (List IndexEntry)) : CursorStore :=
  { store.unlinkTemporary locatorId with
    indexes := (artifactPath locatorId, content) ::
      store.indexes.filter (fun file => file.1 != artifactPath locatorId) }

/-- `CursorArtifactStore.remove` -/
def remove (store : CursorStore) (path : String) : CursorStore :=
  { store with indexes := store.indexes.filter (fun file => file.1 != path) }

end CursorStore

/-! ## Start-up -/

/-- `StateStore.expire_cursors`: the paths are read at one time and the rows
deleted at a later one. -/
def expireCursors (selectedAt deletedAt : Nat) : Program CursorStore Empty (List String) := do
  let store ← read
  let paths := (store.rows.filter (fun row => decide (row.expiresAt ≤ selectedAt))).map
    (fun row => row.cursor.resultArtifact)
  write (fun s =>
    { s with rows := s.rows.filter (fun row => ! decide (row.expiresAt ≤ deletedAt)) })
  pure paths

/-- `CursorArtifactStore.reconcile` -/
def reconcile (expiredPaths activePaths : List String) : Program CursorStore Empty Unit := do
  forEach (fun path => write (fun s => s.remove path)) expiredPaths
  let found ← read
  forEach (fun file =>
    if file.1 ∈ activePaths then pure () else write (fun s => s.remove file.1)) found.indexes
  let left ← read
  forEach (fun file => write (fun s => s.unlinkTemporary file.1)) left.temporaries

/-- `recover_cursor_artifacts`, at the three times the database reads its clock. -/
def recoverCursorArtifacts (selectedAt deletedAt readAt : Nat) :
    Program CursorStore Empty Unit := do
  let expiredPaths ← expireCursors selectedAt deletedAt
  let store ← read
  reconcile expiredPaths (store.activeCursorArtifacts readAt)

/-! ## Requests -/

/-- `timedelta(days=2)`, in seconds. -/
def cursorLifetime : Nat :=
  2 * 24 * 60 * 60

/-- How far `write_index` has come, with what its query wrote. -/
inductive WriteStage where
  | called
  /-- `mkstemp` has created the temporary file. -/
  | created
  /-- It is unlinked again, for the query to create. -/
  | cleared
  | copying
  | copied (entries : List IndexEntry)
  | published (entries : List IndexEntry)

/-- A request for a first page whose result does not fit into it. -/
inductive IndexRequest where
  | idle
  /-- `waiting` until the deadline passes; the worker goes on without. -/
  | writing (locatorId : String) (cursor : StoredCursor) (waiting : Bool) (stage : WriteStage)
  | answered (row : CursorRow) (entries : List IndexEntry)
  | ended (locatorId : String)

/-- The locator a request has drawn. -/
def IndexRequest.locator : IndexRequest → Option String
  | .idle => none
  | .writing locatorId _ _ _ => some locatorId
  | .answered row _ => some row.locatorId
  | .ended locatorId => some locatorId

structure CursorServer where
  now : Nat
  store : CursorStore
  serving : Bool
  requests : Nat → IndexRequest

namespace CursorServer

def setRequest (s : CursorServer) (id : Nat) (request : IndexRequest) : CursorServer :=
  { s with requests := Function.update s.requests id request }

def setStore (s : CursorServer) (store : CursorStore) : CursorServer :=
  { s with store := store }

/-- Nothing has been named by the locator. -/
def Fresh (s : CursorServer) (locatorId : String) : Prop :=
  (∀ row ∈ s.store.rows, row.locatorId ≠ locatorId) ∧
  (∀ file ∈ s.store.indexes, file.1 ≠ artifactPath locatorId) ∧
  (∀ file ∈ s.store.temporaries, file.1 ≠ locatorId) ∧
  ∀ id, (s.requests id).locator ≠ some locatorId

/-- The row `_page` stores for a cursor. -/
def rowOf (s : CursorServer) (locatorId : String) (cursor : StoredCursor) : CursorRow where
  locatorId := locatorId
  cursor := cursor
  status := "open"
  expiresAt := s.now + cursorLifetime

end CursorServer

/-- One step of the server, of its clock or of what ends it. -/
inductive CursorStep : CursorServer → CursorServer → Prop
  | wait {s : CursorServer} (time : Nat) : CursorStep s { s with now := s.now + time }
  /-- The page is read and is not the last one: `write_index` is called. -/
  | call {s : CursorServer} {id : Nat} (locatorId : String) (cursor : StoredCursor)
      (serving : s.serving = true) (idle : s.requests id = .idle) (fresh : s.Fresh locatorId)
      (artifact : cursor.resultArtifact = artifactPath locatorId) :
      CursorStep s (s.setRequest id (.writing locatorId cursor true .called))
  | create {s : CursorServer} {id : Nat} {locatorId : String} {cursor : StoredCursor}
      {waiting : Bool} (called : s.requests id = .writing locatorId cursor waiting .called) :
      CursorStep s ((s.setStore (s.store.writeTemporary locatorId none)).setRequest id
        (.writing locatorId cursor waiting .created))
  | clear {s : CursorServer} {id : Nat} {locatorId : String} {cursor : StoredCursor}
      {waiting : Bool} (created : s.requests id = .writing locatorId cursor waiting .created) :
      CursorStep s ((s.setStore (s.store.unlinkTemporary locatorId)).setRequest id
        (.writing locatorId cursor waiting .cleared))
  /-- The query starts to write the file. -/
  | copy {s : CursorServer} {id : Nat} {locatorId : String} {cursor : StoredCursor}
      {waiting : Bool} (cleared : s.requests id = .writing locatorId cursor waiting .cleared) :
      CursorStep s ((s.setStore (s.store.writeTemporary locatorId none)).setRequest id
        (.writing locatorId cursor waiting .copying))
  | finish {s : CursorServer} {id : Nat} {locatorId : String} {cursor : StoredCursor}
      {waiting : Bool} (entries : List IndexEntry)
      (copying : s.requests id = .writing locatorId cursor waiting .copying) :
      CursorStep s ((s.setStore (s.store.writeTemporary locatorId (some entries))).setRequest id
        (.writing locatorId cursor waiting (.copied entries)))
  | publish {s : CursorServer} {id : Nat} {locatorId : String} {cursor : StoredCursor}
      {waiting : Bool} {entries : List IndexEntry} {content : Option (List IndexEntry)}
      (copied : s.requests id = .writing locatorId cursor waiting (.copied entries))
      (temporary : (locatorId, content) ∈ s.store.temporaries) :
      CursorStep s ((s.setStore (s.store.publishTempFile locatorId content)).setRequest id
        (.writing locatorId cursor waiting (.published entries)))
  /-- The deadline passes: the request is answered, and its worker goes on. -/
  | timeOut {s : CursorServer} {id : Nat} {locatorId : String} {cursor : StoredCursor}
      {stage : WriteStage} (waits : s.requests id = .writing locatorId cursor true stage) :
      CursorStep s (s.setRequest id (.writing locatorId cursor false stage))
  /-- The worker is interrupted or fails before its index is published. -/
  | fail {s : CursorServer} {id : Nat} {locatorId : String} {cursor : StoredCursor}
      {waiting : Bool} {stage : WriteStage}
      (writing : s.requests id = .writing locatorId cursor waiting stage)
      (unpublished : ∀ entries, stage ≠ .published entries) :
      CursorStep s ((s.setStore (s.store.unlinkTemporary locatorId)).setRequest id
        (.ended locatorId))
  /-- The new file cannot be unlinked: this is not in the `try`. -/
  | failClear {s : CursorServer} {id : Nat} {locatorId : String} {cursor : StoredCursor}
      {waiting : Bool} (created : s.requests id = .writing locatorId cursor waiting .created) :
      CursorStep s (s.setRequest id (.ended locatorId))
  | answer {s : CursorServer} {id : Nat} {locatorId : String} {cursor : StoredCursor}
      {entries : List IndexEntry} {store : CursorStore}
      (published : s.requests id = .writing locatorId cursor true (.published entries))
      (stored : s.store.createCursor (s.rowOf locatorId cursor) = some store) :
      CursorStep s ((s.setStore store).setRequest id
        (.answered (s.rowOf locatorId cursor) entries))
  /-- Nobody waits for the index, or its cursor cannot be stored. -/
  | abandon {s : CursorServer} {id : Nat} {locatorId : String} {cursor : StoredCursor}
      {waiting : Bool} {entries : List IndexEntry}
      (published : s.requests id = .writing locatorId cursor waiting (.published entries)) :
      CursorStep s (s.setRequest id (.ended locatorId))
  | crash {s : CursorServer} :
      CursorStep s { s with serving := false, requests := fun _ => .idle }
  /-- A start-up that is killed after any of its writes. -/
  | interrupted {s : CursorServer} {selectedAt deletedAt readAt : Nat} {store : CursorStore}
      (stopped : s.serving = false) (selected : s.now ≤ selectedAt)
      (deleted : selectedAt ≤ deletedAt) (wasRead : deletedAt ≤ readAt)
      (leaves : (recoverCursorArtifacts selectedAt deletedAt readAt).Leaves s.store store) :
      CursorStep s { s with now := readAt, store := store }
  | restart {s : CursorServer} {selectedAt deletedAt readAt : Nat}
      (stopped : s.serving = false) (selected : s.now ≤ selectedAt)
      (deleted : selectedAt ≤ deletedAt) (wasRead : deletedAt ≤ readAt) :
      CursorStep s
        { now := readAt
          store := (recoverCursorArtifacts selectedAt deletedAt readAt s.store).final
          serving := true
          requests := fun _ => .idle }

/-- The server before its first start-up. -/
def CursorServer.start : CursorServer where
  now := 0
  store := ⟨[], [], []⟩
  serving := false
  requests := fun _ => .idle

/-! ## What the operations on the store keep -/

/-- One row a locator, one file a name, and rows that name their own index. -/
structure CursorStore.WellFormed (store : CursorStore) : Prop where
  locators : (store.rows.map CursorRow.locatorId).Nodup
  artifacts : ∀ row ∈ store.rows, row.cursor.resultArtifact = artifactPath row.locatorId
  opened : ∀ row ∈ store.rows, row.status = "open"
  paths : (store.indexes.map Prod.fst).Nodup
  temporaries : (store.temporaries.map Prod.fst).Nodup

/-- A store that differs from another one under one locator at most. -/
structure CursorStore.TouchesOnly (locatorId : String) (store store' : CursorStore) : Prop where
  rows : ∀ row, row.locatorId ≠ locatorId → (row ∈ store'.rows ↔ row ∈ store.rows)
  indexes : ∀ file : String × Option (List IndexEntry), file.1 ≠ artifactPath locatorId →
    (file ∈ store'.indexes ↔ file ∈ store.indexes)
  temporaries : ∀ file : String × Option (List IndexEntry), file.1 ≠ locatorId →
    (file ∈ store'.temporaries ↔ file ∈ store.temporaries)

namespace CursorStore

variable {store store' : CursorStore} {locatorId : String}
variable {content : Option (List IndexEntry)}

theorem TouchesOnly.refl (store : CursorStore) (locatorId : String) :
    store.TouchesOnly locatorId store :=
  ⟨fun _ _ => Iff.rfl, fun _ _ => Iff.rfl, fun _ _ => Iff.rfl⟩

theorem mem_filter_name
    {files : List (String × Option (List IndexEntry))} {name : String}
    {file : String × Option (List IndexEntry)} :
    file ∈ files.filter (fun file => file.1 != name) ↔ file ∈ files ∧ file.1 ≠ name := by
  rw [List.mem_filter, bne_iff_ne]

theorem nodup_filter_name
    {files : List (String × Option (List IndexEntry))} (h : (files.map Prod.fst).Nodup)
    (name : String) : ((files.filter (fun file => file.1 != name)).map Prod.fst).Nodup :=
  (List.filter_sublist.map Prod.fst).nodup h

/-- A file that takes the place of one with its name. -/
theorem nodup_cons_filter_name
    {files : List (String × Option (List IndexEntry))} (h : (files.map Prod.fst).Nodup)
    (name : String) :
    (((name, content) :: files.filter (fun file => file.1 != name)).map Prod.fst).Nodup := by
  rw [List.map_cons, List.nodup_cons]
  refine ⟨?_, nodup_filter_name h name⟩
  intro hmem
  obtain ⟨file, hfile, hname⟩ := List.mem_map.mp hmem
  exact (mem_filter_name.mp hfile).2 hname

theorem mem_cons_filter_name_of_ne
    {files : List (String × Option (List IndexEntry))} {name : String}
    {file : String × Option (List IndexEntry)} (hne : file.1 ≠ name) :
    file ∈ (name, content) :: files.filter (fun file => file.1 != name) ↔ file ∈ files := by
  rw [List.mem_cons, mem_filter_name]
  constructor
  · rintro (rfl | h)
    · exact absurd rfl hne
    · exact h.1
  · exact fun h => .inr ⟨h, hne⟩

theorem touchesOnly_writeTemporary :
    store.TouchesOnly locatorId (store.writeTemporary locatorId content) where
  rows _ _ := Iff.rfl
  indexes _ _ := Iff.rfl
  temporaries _ hne := mem_cons_filter_name_of_ne hne

theorem touchesOnly_unlinkTemporary :
    store.TouchesOnly locatorId (store.unlinkTemporary locatorId) where
  rows _ _ := Iff.rfl
  indexes _ _ := Iff.rfl
  temporaries _ hne := mem_filter_name.trans (and_iff_left hne)

theorem touchesOnly_publishTempFile :
    store.TouchesOnly locatorId (store.publishTempFile locatorId content) where
  rows _ _ := Iff.rfl
  indexes _ hne := mem_cons_filter_name_of_ne hne
  temporaries _ hne := mem_filter_name.trans (and_iff_left hne)

theorem WellFormed.writeTemporary (h : store.WellFormed) :
    (store.writeTemporary locatorId content).WellFormed :=
  { h with temporaries := nodup_cons_filter_name h.temporaries locatorId }

theorem WellFormed.unlinkTemporary (h : store.WellFormed) :
    (store.unlinkTemporary locatorId).WellFormed :=
  { h with temporaries := nodup_filter_name h.temporaries locatorId }

theorem WellFormed.publishTempFile (h : store.WellFormed) :
    (store.publishTempFile locatorId content).WellFormed :=
  { h with
    paths := nodup_cons_filter_name h.paths (artifactPath locatorId)
    temporaries := nodup_filter_name h.temporaries locatorId }

/-- A name is of one file. -/
theorem eq_of_mem_of_name
    {files : List (String × Option (List IndexEntry))} (h : (files.map Prod.fst).Nodup)
    {file file' : String × Option (List IndexEntry)} (hfile : file ∈ files)
    (hfile' : file' ∈ files) (hname : file.1 = file'.1) : file = file' :=
  List.inj_on_of_nodup_map h hfile hfile' hname

theorem createCursor_eq {row : CursorRow} (h : store.createCursor row = some store') :
    (∀ other ∈ store.rows, other.locatorId ≠ row.locatorId) ∧
      store' = { store with rows := store.rows ++ [row] } := by
  unfold createCursor at h
  split at h
  · cases h
  · rename_i hnone
    refine ⟨?_, (Option.some.inj h).symm⟩
    intro other hother heq
    exact hnone (List.any_eq_true.mpr ⟨other, hother, beq_iff_eq.mpr heq⟩)

theorem readIndex_eq_some (h : store.WellFormed) {path : String} {entries : List IndexEntry}
    (hmem : (path, some entries) ∈ store.indexes) : store.readIndex path = some entries := by
  unfold readIndex
  cases hfind : store.indexes.find? (fun file => file.1 == path) with
  | none =>
      have hnone := List.find?_eq_none.mp hfind _ hmem
      exact absurd (beq_self_eq_true path) hnone
  | some file =>
      have hsome := List.find?_some hfind
      have hname : file.1 = path := beq_iff_eq.mp hsome
      have heq := eq_of_mem_of_name h.paths (List.mem_of_find?_eq_some hfind) hmem hname
      rw [heq]
      rfl

theorem getCursor_eq_some (h : store.WellFormed) {now : Nat} {row : CursorRow}
    (hmem : row ∈ store.rows) (hlive : now < row.expiresAt) :
    store.getCursor now row.locatorId = some row.cursor := by
  unfold getCursor
  cases hfind : store.rows.find?
      (fun other => other.locatorId == row.locatorId && other.isOpen now) with
  | none =>
      have hnone := List.find?_eq_none.mp hfind _ hmem
      refine absurd ?_ hnone
      simp [CursorRow.isOpen, h.opened row hmem, hlive]
  | some other =>
      have hlocator : other.locatorId = row.locatorId := by
        have hsome := List.find?_some hfind
        rw [Bool.and_eq_true, beq_iff_eq] at hsome
        exact hsome.1
      have heq := List.inj_on_of_nodup_map h.locators (List.mem_of_find?_eq_some hfind) hmem
        hlocator
      rw [heq]
      rfl

end CursorStore

/-! ## What a start-up leaves -/

namespace CursorStore

/-- A start-up removes rows and files, and none that is live at its end. -/
structure Cleaned (readAt : Nat) (store store' : CursorStore) : Prop where
  rows : store'.rows.Sublist store.rows
  indexes : store'.indexes.Sublist store.indexes
  temporaries : store'.temporaries.Sublist store.temporaries
  liveRows : ∀ row ∈ store.rows, readAt < row.expiresAt → row ∈ store'.rows
  liveIndexes : ∀ row ∈ store.rows, readAt < row.expiresAt → ∀ file ∈ store.indexes,
    file.1 = row.cursor.resultArtifact → file ∈ store'.indexes

variable {store store' : CursorStore} {readAt : Nat}

theorem Cleaned.refl (store : CursorStore) (readAt : Nat) : store.Cleaned readAt store where
  rows := List.Sublist.refl _
  indexes := List.Sublist.refl _
  temporaries := List.Sublist.refl _
  liveRows _ hrow _ := hrow
  liveIndexes _ _ _ _ hfile _ := hfile

theorem Cleaned.wellFormed (h : store.Cleaned readAt store') (hstore : store.WellFormed) :
    store'.WellFormed where
  locators := (h.rows.map _).nodup hstore.locators
  artifacts row hrow := hstore.artifacts row (h.rows.subset hrow)
  opened row hrow := hstore.opened row (h.rows.subset hrow)
  paths := (h.indexes.map _).nodup hstore.paths
  temporaries := (h.temporaries.map _).nodup hstore.temporaries

/-- Rows are deleted once they have expired. -/
theorem Cleaned.delete (h : store.Cleaned readAt store') {deletedAt : Nat}
    (hlater : deletedAt ≤ readAt) :
    store.Cleaned readAt
      { store' with
        rows := store'.rows.filter (fun row => ! decide (row.expiresAt ≤ deletedAt)) } :=
  { h with
    rows := List.filter_sublist.trans h.rows
    liveRows := by
      intro row hrow hlive
      refine List.mem_filter.mpr ⟨h.liveRows row hrow hlive, ?_⟩
      have hnot : ¬ row.expiresAt ≤ deletedAt := by omega
      simp [hnot] }

/-- An index is removed that no live row names. -/
theorem Cleaned.remove (h : store.Cleaned readAt store') {path : String}
    (hdead : ∀ row ∈ store.rows, readAt < row.expiresAt → row.cursor.resultArtifact ≠ path) :
    store.Cleaned readAt (store'.remove path) :=
  { h with
    indexes := List.filter_sublist.trans h.indexes
    liveIndexes := by
      intro row hrow hlive file hfile hname
      refine mem_filter_name.mpr ⟨h.liveIndexes row hrow hlive file hfile hname, ?_⟩
      rw [hname]
      exact hdead row hrow hlive }

theorem Cleaned.unlinkTemporary (h : store.Cleaned readAt store') (locatorId : String) :
    store.Cleaned readAt (store'.unlinkTemporary locatorId) :=
  { h with temporaries := List.filter_sublist.trans h.temporaries }

/-- Two rows do not name one index. -/
theorem WellFormed.eq_of_artifact (h : store.WellFormed) {row row' : CursorRow}
    (hrow : row ∈ store.rows) (hrow' : row' ∈ store.rows)
    (hpath : row.cursor.resultArtifact = row'.cursor.resultArtifact) : row = row' := by
  rw [h.artifacts row hrow, h.artifacts row' hrow'] at hpath
  exact List.inj_on_of_nodup_map h.locators hrow hrow' (artifactPath_injective hpath)

theorem mem_activeCursorArtifacts {now : Nat} {path : String} :
    path ∈ store.activeCursorArtifacts now ↔
      ∃ row ∈ store.rows, row.isOpen now = true ∧ row.cursor.resultArtifact = path := by
  simp only [activeCursorArtifacts, List.mem_map, List.mem_filter, and_assoc]

theorem isOpen_iff (h : store.WellFormed) {now : Nat} {row : CursorRow}
    (hrow : row ∈ store.rows) : row.isOpen now = true ↔ now < row.expiresAt := by
  simp [CursorRow.isOpen, h.opened row hrow]

end CursorStore

section Reconcile

variable {store : CursorStore} {readAt : Nat} {rows : List CursorRow} {activePaths : List String}

/-- The paths of expired rows go first. -/
theorem meets_removeExpired
    {expiredPaths : List String}
    (hdead : ∀ path ∈ expiredPaths, ∀ row ∈ store.rows, readAt < row.expiresAt →
      row.cursor.resultArtifact ≠ path)
    {t : CursorStore} (ht : store.Cleaned readAt t ∧ t.rows = rows) :
    (forEach (fun path => write (fun s : CursorStore => s.remove path)) expiredPaths :
      Program CursorStore Empty Unit).Meets (store.Cleaned readAt)
        (fun _ t => store.Cleaned readAt t ∧ t.rows = rows) (fun _ _ => False) t := by
  refine (meets_forEach (I := store.Cleaned readAt) (E := fun _ _ => False)
    (fun rest t => store.Cleaned readAt t ∧ t.rows = rows ∧ rest ⊆ expiredPaths)
    ?_ expiredPaths ⟨ht.1, ht.2, List.Subset.refl _⟩).mono
      (fun _ h => h) (fun _ _ h => ⟨h.1, h.2.1⟩) (fun _ _ h => h)
  rintro path rest t ⟨hcleaned, hrows, hrest⟩
  rw [meets_write]
  have hpath := hdead path (hrest List.mem_cons_self)
  exact ⟨hcleaned, hcleaned.remove hpath, hrows,
    fun _ h => hrest (List.mem_cons_of_mem path h)⟩

/-- Then the files no open cursor names. -/
theorem meets_removeOrphans
    (hactive : ∀ row ∈ store.rows, readAt < row.expiresAt →
      row.cursor.resultArtifact ∈ activePaths)
    {t : CursorStore} (ht : store.Cleaned readAt t ∧ t.rows = rows) :
    (forEach (fun file : String × Option (List IndexEntry) =>
        if file.1 ∈ activePaths then pure ()
        else write (fun s : CursorStore => s.remove file.1)) t.indexes :
      Program CursorStore Empty Unit).Meets (store.Cleaned readAt)
        (fun _ t => store.Cleaned readAt t ∧ t.rows = rows ∧
          ∀ file ∈ t.indexes, file.1 ∈ activePaths) (fun _ _ => False) t := by
  refine (meets_forEach (I := store.Cleaned readAt) (E := fun _ _ => False)
    (fun rest t => store.Cleaned readAt t ∧ t.rows = rows ∧
      ∀ file ∈ t.indexes, file.1 ∈ activePaths ∨ file ∈ rest)
    ?_ t.indexes ⟨ht.1, ht.2, fun _ h => .inr h⟩).mono (fun _ h => h) ?_ (fun _ _ h => h)
  · rintro file rest t ⟨hcleaned, hrows, hfiles⟩
    rw [meets_ite, meets_pure, meets_write]
    constructor
    · intro hmem
      refine ⟨hcleaned, hrows, fun other hother => ?_⟩
      obtain h | h := hfiles other hother
      · exact .inl h
      · obtain rfl | h := List.mem_cons.mp h
        · exact .inl hmem
        · exact .inr h
    · intro hnot
      have hdead : ∀ row ∈ store.rows, readAt < row.expiresAt →
          row.cursor.resultArtifact ≠ file.1 := by
        intro row hrow hlive heq
        exact hnot (heq ▸ hactive row hrow hlive)
      refine ⟨hcleaned, hcleaned.remove hdead, hrows, fun other hother => ?_⟩
      obtain ⟨hmem, hne⟩ := CursorStore.mem_filter_name.mp hother
      obtain h | h := hfiles other hmem
      · exact .inl h
      · obtain rfl | h := List.mem_cons.mp h
        · exact absurd rfl hne
        · exact .inr h
  · rintro _ u ⟨hcleaned, hrows, hfiles⟩
    exact ⟨hcleaned, hrows, fun file hfile => (hfiles file hfile).resolve_right List.not_mem_nil⟩

/-- The temporary files go last. -/
theorem meets_unlinkTemporaries
    {t : CursorStore}
    (ht : store.Cleaned readAt t ∧ t.rows = rows ∧ ∀ file ∈ t.indexes, file.1 ∈ activePaths) :
    (forEach (fun file : String × Option (List IndexEntry) =>
        write (fun s : CursorStore => s.unlinkTemporary file.1)) t.temporaries :
      Program CursorStore Empty Unit).Meets (store.Cleaned readAt)
        (fun _ t => store.Cleaned readAt t ∧ t.rows = rows ∧
          (∀ file ∈ t.indexes, file.1 ∈ activePaths) ∧ t.temporaries = [])
        (fun _ _ => False) t := by
  refine (meets_forEach (I := store.Cleaned readAt) (E := fun _ _ => False)
    (fun rest t => store.Cleaned readAt t ∧ t.rows = rows ∧
      (∀ file ∈ t.indexes, file.1 ∈ activePaths) ∧ ∀ file ∈ t.temporaries, file ∈ rest)
    ?_ t.temporaries ⟨ht.1, ht.2.1, ht.2.2, fun _ h => h⟩).mono (fun _ h => h) ?_
      (fun _ _ h => h)
  · rintro file rest t ⟨hcleaned, hrows, hindexes, hfiles⟩
    rw [meets_write]
    refine ⟨hcleaned, hcleaned.unlinkTemporary file.1, hrows, hindexes, fun other hother => ?_⟩
    obtain ⟨hmem, hne⟩ := CursorStore.mem_filter_name.mp hother
    obtain rfl | h := List.mem_cons.mp (hfiles other hmem)
    · exact absurd rfl hne
    · exact h
  · rintro _ u ⟨hcleaned, hrows, hindexes, hnone⟩
    exact ⟨hcleaned, hrows, hindexes, List.eq_nil_iff_forall_not_mem.mpr
      fun file hfile => List.not_mem_nil (hnone file hfile)⟩

end Reconcile

/-- What a start-up leaves at its end. -/
structure Recovered (deletedAt readAt : Nat) (store store' : CursorStore) : Prop where
  cleaned : store.Cleaned readAt store'
  rows : store'.rows = store.rows.filter (fun row => ! decide (row.expiresAt ≤ deletedAt))
  indexes : ∀ file ∈ store'.indexes, file.1 ∈ store'.activeCursorArtifacts readAt
  temporaries : store'.temporaries = []

theorem meets_recoverCursorArtifacts
    {store : CursorStore} (hstore : store.WellFormed) {selectedAt deletedAt readAt : Nat}
    (hdeleted : selectedAt ≤ deletedAt) (hread : deletedAt ≤ readAt) :
    (recoverCursorArtifacts selectedAt deletedAt readAt).Meets (store.Cleaned readAt)
      (fun _ => Recovered deletedAt readAt store) (fun _ _ => False) store := by
  have hstart := CursorStore.Cleaned.refl store readAt
  have hdelete := hstart.delete hread
  have hdead : ∀ path ∈ (store.rows.filter (fun row => decide (row.expiresAt ≤ selectedAt))).map
      (fun row => row.cursor.resultArtifact), ∀ row ∈ store.rows, readAt < row.expiresAt →
        row.cursor.resultArtifact ≠ path := by
    intro path hpath row hrow hlive heq
    obtain ⟨other, hother, rfl⟩ := List.mem_map.mp hpath
    obtain ⟨hmem, hexpired⟩ := List.mem_filter.mp hother
    have hsame := hstore.eq_of_artifact hrow hmem heq
    have hle := of_decide_eq_true hexpired
    rw [← hsame] at hle
    omega
  simp only [recoverCursorArtifacts, expireCursors, reconcile, meets_bind, meets_read,
    meets_write, meets_pure]
  refine ⟨hstart, (meets_removeExpired hdead ⟨hdelete, rfl⟩).mono (fun _ h => h) ?_
    (fun _ _ h => h)⟩
  rintro _ t ⟨hcleaned, hrows⟩
  have hactive : ∀ row ∈ store.rows, readAt < row.expiresAt → row.cursor.resultArtifact ∈
      ({ store with
          rows := store.rows.filter (fun row => ! decide (row.expiresAt ≤ deletedAt)) } :
        CursorStore).activeCursorArtifacts readAt := by
    intro row hrow hlive
    refine CursorStore.mem_activeCursorArtifacts.mpr
      ⟨row, hdelete.liveRows row hrow hlive, ?_, rfl⟩
    exact (CursorStore.isOpen_iff hstore hrow).mpr hlive
  rw [meets_bind, meets_read, meets_bind]
  refine (meets_removeOrphans hactive ⟨hcleaned, hrows⟩).mono (fun _ h => h) ?_ (fun _ _ h => h)
  intro _ u hu
  rw [meets_bind, meets_read]
  refine (meets_unlinkTemporaries hu).mono (fun _ h => h) ?_ (fun _ _ h => h)
  rintro _ v ⟨hcleaned', hrows', hindexes, htemporaries⟩
  refine ⟨hcleaned', hrows', ?_, htemporaries⟩
  intro file hfile
  have hmem := hindexes file hfile
  rwa [CursorStore.activeCursorArtifacts, ← hrows', ← CursorStore.activeCursorArtifacts] at hmem

end FakeForce
end Northwind
