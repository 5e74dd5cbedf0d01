import Northwind.FakeForce.Catalog
import Northwind.Library.CrashPrefixes
import Northwind.Library.NewestPerKey
import Northwind.Simulator.CrmEvents

/-!
# Publishing the CRM deltas of one day

`publish` writes one delta per object, then the stage history, then the
manifest; the manifest makes a second call return at once.  A crash leaves a
prefix of these writes, and the call is made again with the same events.

Besides the definitions this module holds what later ones use of them: which
files the current rows of an object depend on, and the writes of a successful
call as one list (`publish_eq_ok_iff`).

Among rows of equal versions the database may rank any one first, in every call
anew.  A write goes through a temporary file and `os.replace`.
-/

namespace Northwind
namespace Simulator

open CrashPrefixes NewestPerKey FakeForce

/-- The publisher: the delta root, and the base file of each object with the
columns of its schema. -/
structure CrmDeltaPublisher where
  root : Path
  baseSource : CrmObject → Path
  schema : CrmObject → List String
  /-- The base files are the seed, outside the delta root. -/
  baseOutside : ∀ object : CrmObject, root.isPrefixOf (baseSource object) = false

/-- The event ids of a manifest; an object without events has no entry. -/
structure CrmEventSet where
  accounts : Option (List String)
  opportunities : Option (List String)
deriving DecidableEq

structure CrmParts where
  accounts : Option Path
  opportunities : Option Path
  opportunityHistory : Option Path
deriving DecidableEq

structure CrmManifest where
  events : CrmEventSet
  parts : CrmParts

/-- The Parquet files and the manifest of every date. -/
structure CrmStore where
  disk : Disk
  manifests : String → Option CrmManifest

inductive CrmWrite where
  | replaceDelta (path : Path) (rows : List Row)
  | replaceManifest (runDate : String) (manifest : CrmManifest)

def CrmStore.write (s : CrmStore) : CrmWrite → CrmStore
  | .replaceDelta path rows =>
      { s with disk := (s.disk.mkdirs path.parent).replace path rows }
  | .replaceManifest runDate manifest =>
      { s with manifests := Function.update s.manifests runDate (some manifest) }

namespace CrmDeltaPublisher

variable (P : CrmDeltaPublisher)

/-- The directory of an object's deltas. -/
def objectRoot (object : CrmObject) : Path :=
  P.root ++ [object.name]

/-- A file that `(root / object).glob("**/*.parquet")` yields. -/
def isDelta (object : CrmObject) (path : Path) : Bool :=
  globYields (P.objectRoot object) ["**", "*.parquet"] path

def deltaTarget (object : CrmObject) (runDate : String) : Path :=
  P.objectRoot object ++ ["business_date=" ++ runDate, "delta.parquet"]

def historyTarget (runDate : String) : Path :=
  P.root ++ ["opportunity_history", "business_date=" ++ runDate, "delta.parquet"]

/-! ## Current rows -/

/-- The version column `_current_rows` ranks by. -/
def versionField (object : CrmObject) : String :=
  if "SystemModstamp" ∈ P.schema object then "SystemModstamp" else "LastModifiedDate"

/-- The paths `_current_rows` reads: the base file and the deltas. -/
def storedFiles (disk : Disk) (object : CrmObject) : List Path :=
  P.baseSource object :: sortedSet (disk.paths.filter (P.isDelta object))

/-- The rows of one id in some files. -/
def rowsOfId (disk : Disk) (paths : List Path) (id : String) : List Row :=
  (paths.flatMap (fun path => (disk.read path).getD [])).filter
    (fun r => r "Id" = some (.text id))

/-- All stored rows of one id. -/
def storedRows (disk : Disk) (object : CrmObject) (id : String) : List Row :=
  rowsOfId disk (P.storedFiles disk object) id

/-- How the database ranks rows of equal versions, for every object and id. -/
abbrev Ties := (object : CrmObject) → String → TieBreak (Row.version (P.versionField object))

/-- The row `_current_rows` keeps of one id. -/
def currentRow (ties : P.Ties) (disk : Disk) (object : CrmObject) (id : String) : Option Row :=
  (ties object id).pick (P.storedRows disk object id)

/-- `CrmDeltaPublisher._current_rows` -/
def currentRows (ties : P.Ties) (disk : Disk) (object : CrmObject) (ids : List String) :
    Except CrmDeltaError (List (String × Row)) :=
  if disk.isFile (P.baseSource object) then
    .ok (ids.dedup.filterMap (fun id =>
      (P.currentRow ties disk object id).map (fun r => (id, r))))
  else .error (.missingBase object)

/-! ## Rows to write -/

/-- A row updated with a payload, in the columns of the base schema. -/
def updatedRow (object : CrmObject) (previous : Option Row) (payload : Payload) : Row :=
  fun column =>
    if column ∈ P.schema object then
      match payload.lookup column with
      | some value => value
      | none => previous.bind (fun r => r column)
    else none

/-- One event of `_materialize`, with the row its record has now. -/
def materializeEvent (object : CrmObject) (previous : Option Row) (event : SourceEvent) :
    Except CrmDeltaError Row :=
  match previous, event.isCreate with
  | some _, true => .error (.alreadyExists event.entityId)
  | none, false => .error (.unknownRecord event.entityId)
  | previous, _ => .ok (P.updatedRow object previous event.payload)

/-- `CrmDeltaPublisher._materialize` -/
def materialize (ties : P.Ties) (disk : Disk) (object : CrmObject) (events : List SourceEvent) :
    Except CrmDeltaError (List Row) :=
  if (events.map SourceEvent.entityId).Nodup then
    match P.currentRows ties disk object (events.map SourceEvent.entityId) with
    | .error e => .error e
    | .ok existing =>
        events.mapM (fun event =>
          P.materializeEvent object (existing.lookup event.entityId) event)
  else .error .duplicateRecord

/-- `before.get(column)`: the key is there when the column is in the schema. -/
def previousCell (before : Option Row) (column : String) : Option (Option Value) :=
  before.bind (fun r => if column ∈ P.schema .opportunities then some (r column) else none)

/-- One row of the stage history, with the row the record had before. -/
def historyRow (before : Option Row) (event : SourceEvent) : Row :=
  let get := fun key => event.payload.lookup key
  let newStage := (get "StageName").getD
    ((P.previousCell before "StageName").getD (some (.text "")))
  let createdBy := (get "LastModifiedById").getD
    ((P.previousCell before "OwnerId").getD (some (.text "")))
  let cells : List (String × Option Value) :=
    [("Id", some (.text event.eventId)),
      ("OpportunityId", some (.text event.entityId)),
      ("PreviousStageName", (P.previousCell before "StageName").getD none),
      ("StageName", some (.text (cellText newStage))),
      ("CreatedDate", some (.text (cellText ((get "LastModifiedDate").getD none)))),
      ("CreatedById", some (.text (cellText createdBy))),
      ("SystemModstamp", some (.text (cellText
        ((get "SystemModstamp").getD ((get "LastModifiedDate").getD none)))))]
  fun column => (cells.lookup column).getD none

/-- `CrmDeltaPublisher._opportunity_history_rows` -/
def opportunityHistoryRows (ties : P.Ties) (disk : Disk) (events : List SourceEvent) :
    Except CrmDeltaError (List Row) :=
  if events.isEmpty then .ok []
  else
    match P.currentRows ties disk .opportunities (events.map SourceEvent.entityId) with
    | .error e => .error e
    | .ok existing =>
        .ok ((events.filter SourceEvent.inHistory).map
          (fun event => P.historyRow (existing.lookup event.entityId) event))

/-! ## Publication -/

/-- `sorted(event.event_id for event in values)` of one group. -/
def sortedEventIds (tagged : List (CrmObject × SourceEvent)) (object : CrmObject) :
    Option (List String) :=
  let events := groupOf tagged object
  if events.isEmpty then none
  else some ((events.map SourceEvent.eventId).insertionSort (· ≤ ·))

def eventSet (tagged : List (CrmObject × SourceEvent)) : CrmEventSet where
  accounts := sortedEventIds tagged .accounts
  opportunities := sortedEventIds tagged .opportunities

/-- Materialize and write the deltas, one object after the other. -/
def publishObjects (ties : P.Ties) (runDate : String)
    (tagged : List (CrmObject × SourceEvent)) :
    List CrmObject → CrmStore → List CrmWrite × Except CrmDeltaError Unit
  | [], _ => ([], .ok ())
  | object :: objects, s =>
      match P.materialize ties s.disk object (groupOf tagged object) with
      | .error e => ([], .error e)
      | .ok rows =>
          let write := CrmWrite.replaceDelta (P.deltaTarget object runDate) rows
          let rest := publishObjects ties runDate tagged objects (s.write write)
          (write :: rest.1, rest.2)

/-- The parts of a manifest. -/
def partsOf (runDate : String) (tagged : List (CrmObject × SourceEvent))
    (withHistory : Bool) : CrmParts where
  accounts :=
    if (groupOf tagged .accounts).isEmpty then none else some (P.deltaTarget .accounts runDate)
  opportunities :=
    if (groupOf tagged .opportunities).isEmpty then none
    else some (P.deltaTarget .opportunities runDate)
  opportunityHistory := if withHistory then some (P.historyTarget runDate) else none

/-- `CrmDeltaPublisher.publish`: the writes and the result. -/
def publish (ties : P.Ties) (runDate : String) (events : List SourceEvent) (s : CrmStore) :
    List CrmWrite × Except CrmDeltaError CrmParts :=
  match events.mapM tagEvent with
  | .error e => ([], .error e)
  | .ok tagged =>
      match s.manifests runDate with
      | some manifest =>
          if manifest.events ≠ eventSet tagged then ([], .error .differentEventSet)
          else ([], .ok manifest.parts)
      | none =>
          -- Read before the delta is written, which would hide the prior stage.
          match P.opportunityHistoryRows ties s.disk (groupOf tagged .opportunities) with
          | .error e => ([], .error e)
          | .ok historyRows =>
              let written := P.publishObjects ties runDate tagged (groupOrder tagged) s
              match written.2 with
              | .error e => (written.1, .error e)
              | .ok () =>
                  let history :=
                    if historyRows.isEmpty then []
                    else [CrmWrite.replaceDelta (P.historyTarget runDate) historyRows]
                  let parts := P.partsOf runDate tagged (!historyRows.isEmpty)
                  (written.1 ++ history ++
                    [.replaceManifest runDate ⟨eventSet tagged, parts⟩], .ok parts)

/-! ## Which files the rows of an object depend on -/

@[simp] theorem read_write_delta (s : CrmStore) (path : Path) (rows : List Row) :
    (s.write (.replaceDelta path rows)).disk.read =
      Function.update s.disk.read path (some rows) := by
  funext p
  by_cases hp : p = path
  · subst hp
    simp [CrmStore.write]
  · rw [Function.update_of_ne hp]
    simp [CrmStore.write, Disk.read_replace_of_ne _ _ hp]

theorem isDelta_deltaTarget (object : CrmObject) (runDate : String) :
    P.isDelta object (P.deltaTarget object runDate) = true := by
  have hname : segmentMatches "*.parquet" "delta.parquet" = true := by
    decide +kernel
  have hbelow : relativeTo? (P.objectRoot object) (P.deltaTarget object runDate) =
      some ["business_date=" ++ runDate, "delta.parquet"] := by
    simp [relativeTo?, deltaTarget]
  simp [isDelta, globYields, hbelow, globMatches, hname]

/-- A delta of an object is below its directory. -/
theorem exists_eq_of_isDelta {object : CrmObject} {path : Path}
    (h : P.isDelta object path = true) :
    ∃ rest, path = P.root ++ object.name :: rest := by
  have hbelow : (P.objectRoot object).isPrefixOf path = true := by
    by_contra hnot
    simp [isDelta, globYields, relativeTo?, hnot] at h
  obtain ⟨rest, hrest⟩ := List.isPrefixOf_iff_prefix.mp hbelow
  refine ⟨rest, ?_⟩
  rw [← hrest, objectRoot, List.append_assoc]
  rfl

theorem CrmObject.name_injective : Function.Injective CrmObject.name := by
  intro object other h
  cases object <;> cases other <;> first | rfl | exact absurd h (by decide)

theorem isDelta_deltaTarget_of_ne
    {object other : CrmObject} (hne : other ≠ object) (runDate : String) :
    P.isDelta object (P.deltaTarget other runDate) = false := by
  by_contra h
  obtain ⟨rest, hrest⟩ := P.exists_eq_of_isDelta (Bool.eq_true_of_not_eq_false h)
  rw [deltaTarget, objectRoot, List.append_assoc, List.append_cancel_left_eq] at hrest
  exact hne (CrmObject.name_injective (List.cons.inj hrest).1)

theorem isDelta_historyTarget (object : CrmObject) (runDate : String) :
    P.isDelta object (P.historyTarget runDate) = false := by
  by_contra h
  obtain ⟨rest, hrest⟩ := P.exists_eq_of_isDelta (Bool.eq_true_of_not_eq_false h)
  rw [historyTarget, List.append_cancel_left_eq] at hrest
  have hname := (List.cons.inj hrest).1
  cases object <;> exact absurd hname (by decide)

/-- No base file is below the delta root. -/
theorem baseSource_ne (object : CrmObject) (rest : Path) :
    P.baseSource object ≠ P.root ++ rest := by
  intro h
  have houtside := P.baseOutside object
  rw [h, List.isPrefixOf_iff_prefix.mpr (List.prefix_append P.root rest)] at houtside
  cases houtside

theorem deltaTarget_ne {object other : CrmObject} (hne : object ≠ other) (runDate : String) :
    P.deltaTarget object runDate ≠ P.deltaTarget other runDate := by
  intro h
  have hdelta := P.isDelta_deltaTarget_of_ne hne runDate
  rw [h, P.isDelta_deltaTarget] at hdelta
  cases hdelta

theorem deltaTarget_ne_historyTarget (object : CrmObject) (runDate : String) :
    P.deltaTarget object runDate ≠ P.historyTarget runDate := by
  intro h
  have hdelta := P.isDelta_deltaTarget object runDate
  rw [h, P.isDelta_historyTarget] at hdelta
  cases hdelta

/-- The files of an object hold the same on both trees. -/
structure SameFiles (object : CrmObject) (disk disk' : Disk) : Prop where
  base : disk.read (P.baseSource object) = disk'.read (P.baseSource object)
  deltas : ∀ path, P.isDelta object path = true → disk.read path = disk'.read path

variable {P} in
theorem SameFiles.of_write
    {object : CrmObject} {s : CrmStore} {path : Path}
    (hbase : P.baseSource object ≠ path) (hdelta : P.isDelta object path = false)
    (rows : List Row) :
    P.SameFiles object (s.write (.replaceDelta path rows)).disk s.disk := by
  refine ⟨?_, ?_⟩
  · rw [read_write_delta, Function.update_of_ne hbase]
  · intro p hp
    have hne : p ≠ path := by
      rintro rfl
      rw [hdelta] at hp
      cases hp
    rw [read_write_delta, Function.update_of_ne hne]

theorem mem_storedFiles (disk : Disk) (object : CrmObject) (path : Path) :
    path ∈ P.storedFiles disk object ↔
      path = P.baseSource object ∨
        (disk.read path).isSome = true ∧ P.isDelta object path = true := by
  rw [storedFiles, List.mem_cons, mem_sortedSet, List.mem_filter, Disk.mem_paths]

theorem mem_rowsOfId (disk : Disk) (paths : List Path) (id : String) (r : Row) :
    r ∈ rowsOfId disk paths id ↔
      r "Id" = some (.text id) ∧
        ∃ path ∈ paths, ∃ rows, disk.read path = some rows ∧ r ∈ rows := by
  rw [rowsOfId, List.mem_filter, List.mem_flatMap, and_comm, decide_eq_true_eq]
  refine and_congr_right (fun _ => exists_congr (fun path => and_congr_right (fun _ => ?_)))
  cases disk.read path <;> simp

/-- The stored rows of an object depend on its own files only. -/
theorem storedRows_congr
    {object : CrmObject} {disk disk' : Disk}
    (h : P.SameFiles object disk disk') (id : String) :
    P.storedRows disk object id = P.storedRows disk' object id := by
  have hfiles : P.storedFiles disk object = P.storedFiles disk' object := by
    apply congrArg (List.cons (P.baseSource object))
    apply sortedSet_congr
    intro path
    simp only [List.mem_filter, Disk.mem_paths]
    refine and_congr_left (fun hdelta => ?_)
    rw [h.deltas path hdelta]
  have hread : ∀ path ∈ P.storedFiles disk' object, disk.read path = disk'.read path := by
    intro path hpath
    rcases (P.mem_storedFiles disk' object path).mp hpath with rfl | ⟨_, hdelta⟩
    · exact h.base
    · exact h.deltas path hdelta
  rw [storedRows, storedRows, hfiles, rowsOfId, rowsOfId]
  apply congrArg (List.filter _)
  exact List.flatMap_congr (fun path hpath => by rw [hread path hpath])

theorem currentRow_congr
    {object : CrmObject} {disk disk' : Disk}
    (h : P.SameFiles object disk disk') (ties : P.Ties) (id : String) :
    P.currentRow ties disk object id = P.currentRow ties disk' object id := by
  rw [currentRow, currentRow, P.storedRows_congr h]

/-! ## What the functions compute -/

theorem currentRow_eq_none_iff
    (ties : P.Ties) (disk : Disk) (object : CrmObject) (id : String) :
    P.currentRow ties disk object id = none ↔ P.storedRows disk object id = [] := by
  rw [currentRow]
  constructor
  · intro hnone
    exact (ties object id).pick_nil hnone
  · intro hnil
    rw [hnil]
    by_contra hsome
    obtain ⟨r, hr⟩ := Option.ne_none_iff_exists'.mp hsome
    exact List.not_mem_nil ((ties object id).pick_mem hr)

/-- Looking up what a function finds for every id of a list. -/
theorem lookup_filterMap
    (ids : List String) (find : String → Option Row) (id : String) :
    (ids.filterMap (fun id => (find id).map (fun r => (id, r)))).lookup id =
      if id ∈ ids then find id else none := by
  induction ids with
  | nil => rfl
  | cons first ids ih =>
      rw [List.filterMap_cons]
      by_cases heq : id = first
      · subst heq
        rw [if_pos List.mem_cons_self]
        cases hfind : find id with
        | none => simp only [Option.map_none, ih, hfind, ite_self]
        | some r => simp only [Option.map_some, List.lookup_cons_self]
      · have hmem : id ∈ first :: ids ↔ id ∈ ids := by
          simp [heq]
        cases hfind : find first with
        | none => simp only [Option.map_none, ih, hmem]
        | some r =>
            have hne : (id == first) = false := by
              simpa using heq
            simp only [Option.map_some, List.lookup_cons, hne, ih, hmem]

/-- `_current_rows` fails on a missing base only, and finds the current rows. -/
theorem exists_currentRows
    (ties : P.Ties) {disk : Disk} {object : CrmObject}
    (hbase : (disk.read (P.baseSource object)).isSome = true) (ids : List String) :
    ∃ existing, P.currentRows ties disk object ids = .ok existing ∧
      ∀ id ∈ ids, existing.lookup id = P.currentRow ties disk object id := by
  refine ⟨_, if_pos (by simpa using hbase), ?_⟩
  intro id hid
  rw [lookup_filterMap, if_pos (List.mem_dedup.mpr hid)]

/-- The row an event asks for: its payload over the current row. -/
def requestedRow (ties : P.Ties) (disk : Disk) (object : CrmObject) (event : SourceEvent) : Row :=
  P.updatedRow object (P.currentRow ties disk object event.entityId) event.payload

/-- `_materialize` accepts the events of an object: one per record, creations of
unknown records and changes of known ones. -/
structure Accepted (disk : Disk) (object : CrmObject) (events : List SourceEvent) : Prop where
  base : (disk.read (P.baseSource object)).isSome = true
  distinct : (events.map SourceEvent.entityId).Nodup
  known : ∀ event ∈ events,
    (event.isCreate = true ↔ P.storedRows disk object event.entityId = [])

theorem materializeEvent_eq_ok_iff
    (object : CrmObject) (previous : Option Row) (event : SourceEvent) (r : Row) :
    P.materializeEvent object previous event = .ok r ↔
      (event.isCreate = true ↔ previous = none) ∧
        r = P.updatedRow object previous event.payload := by
  cases previous <;> cases hcreate : event.isCreate <;>
    simp [materializeEvent, hcreate, eq_comm]

/-- Mapping a function that succeeds under a condition. -/
theorem mapM_eq_ok_map_iff
    {α β ε : Type} {f : α → Except ε β} {condition : α → Prop} {g : α → β} {xs : List α}
    (h : ∀ x ∈ xs, ∀ y, f x = .ok y ↔ condition x ∧ y = g x) (ys : List β) :
    xs.mapM f = .ok ys ↔ (∀ x ∈ xs, condition x) ∧ ys = xs.map g := by
  rw [DatasetSpec.mapM_eq_ok_iff]
  induction xs generalizing ys with
  | nil => simp
  | cons x xs ih =>
      have hrest := ih (fun y hy => h y (List.mem_cons_of_mem x hy))
      rw [List.forall₂_cons_left_iff]
      simp only [h x List.mem_cons_self, hrest, List.forall_mem_cons, List.map_cons]
      constructor
      · rintro ⟨_, _, ⟨hx, rfl⟩, ⟨hxs, rfl⟩, rfl⟩
        exact ⟨⟨hx, hxs⟩, rfl⟩
      · rintro ⟨⟨hx, hxs⟩, rfl⟩
        exact ⟨_, _, ⟨hx, rfl⟩, ⟨hxs, rfl⟩, rfl⟩

theorem materialize_eq_ok_iff
    (ties : P.Ties) (disk : Disk) (object : CrmObject) (events : List SourceEvent)
    (rows : List Row) :
    P.materialize ties disk object events = .ok rows ↔
      P.Accepted disk object events ∧
        rows = events.map (P.requestedRow ties disk object) := by
  rw [materialize]
  by_cases hdistinct : (events.map SourceEvent.entityId).Nodup
  · rw [if_pos hdistinct]
    by_cases hbase : (disk.read (P.baseSource object)).isSome = true
    · obtain ⟨existing, hexisting, hlookup⟩ :=
        P.exists_currentRows ties hbase (events.map SourceEvent.entityId)
      rw [hexisting]
      have heach : ∀ event ∈ events, ∀ r,
          P.materializeEvent object (existing.lookup event.entityId) event = .ok r ↔
            (event.isCreate = true ↔ P.storedRows disk object event.entityId = []) ∧
              r = P.requestedRow ties disk object event := by
        intro event hevent r
        rw [hlookup _ (List.mem_map_of_mem hevent), materializeEvent_eq_ok_iff,
          currentRow_eq_none_iff, requestedRow]
      exact (mapM_eq_ok_map_iff heach rows).trans
        ⟨fun h => ⟨⟨hbase, hdistinct, h.1⟩, h.2⟩, fun h => ⟨h.1.known, h.2⟩⟩
    · have hmissing : P.currentRows ties disk object (events.map SourceEvent.entityId) =
          .error (.missingBase object) :=
        if_neg (by simpa using hbase)
      rw [hmissing]
      exact ⟨nofun, fun h => absurd h.1.base hbase⟩
  · rw [if_neg hdistinct]
    exact ⟨nofun, fun h => absurd h.1.distinct hdistinct⟩

/-- The rows of the stage history. -/
def historyRows (ties : P.Ties) (disk : Disk) (events : List SourceEvent) : List Row :=
  (events.filter SourceEvent.inHistory).map (fun event =>
    P.historyRow (P.currentRow ties disk .opportunities event.entityId) event)

theorem opportunityHistoryRows_eq_ok_iff
    (ties : P.Ties) (disk : Disk) (events : List SourceEvent) (rows : List Row) :
    P.opportunityHistoryRows ties disk events = .ok rows ↔
      (events ≠ [] → (disk.read (P.baseSource .opportunities)).isSome = true) ∧
        rows = P.historyRows ties disk events := by
  rw [opportunityHistoryRows]
  cases hevents : events with
  | nil =>
      exact ⟨fun h => ⟨fun hne => absurd rfl hne, (Except.ok.inj h).symm⟩,
        fun h => by rw [h.2]; rfl⟩
  | cons event rest =>
      rw [← hevents, if_neg (by simp [hevents])]
      have hne : events ≠ [] := by
        simp [hevents]
      by_cases hbase : (disk.read (P.baseSource .opportunities)).isSome = true
      · obtain ⟨existing, hexisting, hlookup⟩ :=
          P.exists_currentRows ties hbase (events.map SourceEvent.entityId)
        have hrows : (events.filter SourceEvent.inHistory).map
            (fun event => P.historyRow (existing.lookup event.entityId) event) =
              P.historyRows ties disk events := by
          apply List.map_congr_left
          intro event hevent
          rw [hlookup _ (List.mem_map_of_mem (List.mem_of_mem_filter hevent))]
        simp only [hexisting, hrows, Except.ok.injEq]
        exact ⟨fun h => ⟨fun _ => hbase, h.symm⟩, fun h => h.2.symm⟩
      · have hmissing : P.currentRows ties disk .opportunities
            (events.map SourceEvent.entityId) = .error (.missingBase .opportunities) :=
          if_neg (by simpa using hbase)
        simp only [hmissing]
        exact ⟨nofun, fun h => absurd (h.1 hne) hbase⟩

theorem requestedRow_congr
    {object : CrmObject} {disk disk' : Disk}
    (h : P.SameFiles object disk disk') (ties : P.Ties) (event : SourceEvent) :
    P.requestedRow ties disk object event = P.requestedRow ties disk' object event := by
  rw [requestedRow, requestedRow, P.currentRow_congr h]

theorem accepted_congr
    {object : CrmObject} {disk disk' : Disk}
    (h : P.SameFiles object disk disk') (events : List SourceEvent) :
    P.Accepted disk object events ↔ P.Accepted disk' object events := by
  have hrows : ∀ id, P.storedRows disk object id = P.storedRows disk' object id :=
    P.storedRows_congr h
  constructor
  · rintro ⟨hbase, hdistinct, hknown⟩
    refine ⟨h.base ▸ hbase, hdistinct, fun event hevent => ?_⟩
    rw [hknown event hevent, hrows]
  · rintro ⟨hbase, hdistinct, hknown⟩
    refine ⟨h.base.symm ▸ hbase, hdistinct, fun event hevent => ?_⟩
    rw [hknown event hevent, hrows]

/-- The delta of one object. -/
def deltaFile (ties : P.Ties) (runDate : String) (tagged : List (CrmObject × SourceEvent))
    (disk : Disk) (object : CrmObject) : Path × List Row :=
  (P.deltaTarget object runDate,
    (groupOf tagged object).map (P.requestedRow ties disk object))

theorem deltaFile_congr
    {object : CrmObject} {disk disk' : Disk}
    (h : P.SameFiles object disk disk') (ties : P.Ties) (runDate : String)
    (tagged : List (CrmObject × SourceEvent)) :
    P.deltaFile ties runDate tagged disk object = P.deltaFile ties runDate tagged disk' object := by
  apply congrArg (Prod.mk (P.deltaTarget object runDate))
  exact List.map_congr_left (fun event _ => P.requestedRow_congr h ties event)

/-- A delta is no file of the other object. -/
theorem sameFiles_write_delta
    {object other : CrmObject} (hne : object ≠ other) (runDate : String) (rows : List Row)
    (s : CrmStore) :
    P.SameFiles other (s.write (.replaceDelta (P.deltaTarget object runDate) rows)).disk
      s.disk := by
  apply SameFiles.of_write
  · rw [deltaTarget, objectRoot, List.append_assoc]
    exact P.baseSource_ne other _
  · exact P.isDelta_deltaTarget_of_ne hne runDate

def fileWrite (file : Path × List Row) : CrmWrite :=
  .replaceDelta file.1 file.2

/-- Writing the deltas in turn is writing what each object asks for at first. -/
theorem publishObjects_eq_ok_iff
    (ties : P.Ties) (runDate : String) (tagged : List (CrmObject × SourceEvent))
    {objects : List CrmObject} (hnodup : objects.Nodup) (s : CrmStore)
    (writes : List CrmWrite) :
    P.publishObjects ties runDate tagged objects s = (writes, .ok ()) ↔
      (∀ object ∈ objects, P.Accepted s.disk object (groupOf tagged object)) ∧
        writes = (objects.map (P.deltaFile ties runDate tagged s.disk)).map fileWrite := by
  induction objects generalizing s writes with
  | nil =>
      simp [publishObjects, eq_comm]
  | cons object objects ih =>
      obtain ⟨hnotMem, hrest⟩ := List.nodup_cons.mp hnodup
      have hmaterialize := P.materialize_eq_ok_iff ties s.disk object (groupOf tagged object)
      rw [publishObjects]
      cases hrows : P.materialize ties s.disk object (groupOf tagged object) with
      | error e =>
          constructor
          · intro h
            cases (Prod.mk.inj h).2
          · rintro ⟨haccepted, _⟩
            have hok := (hmaterialize _).mpr ⟨haccepted object List.mem_cons_self, rfl⟩
            rw [hrows] at hok
            cases hok
      | ok rows =>
          obtain ⟨hobject, rfl⟩ := (hmaterialize rows).mp hrows
          have hsame : ∀ other ∈ objects, P.SameFiles other
              (s.write (fileWrite (P.deltaFile ties runDate tagged s.disk object))).disk
              s.disk := by
            intro other hother
            have hne : object ≠ other := by
              rintro rfl
              exact hnotMem hother
            exact P.sameFiles_write_delta hne runDate _ s
          have hstep := ih hrest (s.write (fileWrite
            (P.deltaFile ties runDate tagged s.disk object)))
          rw [List.map_congr_left (fun other hother =>
            P.deltaFile_congr (hsame other hother) ties runDate tagged)] at hstep
          have haccepted := forall₂_congr (fun other (hother : other ∈ objects) =>
            P.accepted_congr (hsame other hother) (groupOf tagged other))
          rw [List.forall_mem_cons, List.map_cons, List.map_cons]
          constructor
          · intro h
            obtain ⟨hwrites, hok⟩ := Prod.mk.inj h
            obtain ⟨hothers, hwritten⟩ := (hstep _).mp (Prod.ext rfl hok)
            refine ⟨⟨hobject, haccepted.mp hothers⟩, ?_⟩
            rw [← hwrites, ← hwritten]
            rfl
          · rintro ⟨⟨_, hothers⟩, rfl⟩
            have hwritten := (hstep _).mpr ⟨haccepted.mpr hothers, rfl⟩
            have hwrites := congrArg Prod.fst hwritten
            have hok := congrArg Prod.snd hwritten
            exact Prod.ext (congrArg (List.cons _) hwrites) hok

/-! ## The writes of a successful call -/

/-- The files a call writes, each with its rows. -/
def plannedFiles (ties : P.Ties) (runDate : String)
    (tagged : List (CrmObject × SourceEvent)) (disk : Disk) : List (Path × List Row) :=
  let history := P.historyRows ties disk (groupOf tagged .opportunities)
  (groupOrder tagged).map (P.deltaFile ties runDate tagged disk) ++
    if history.isEmpty then [] else [(P.historyTarget runDate, history)]

/-- The parts name the history when some event has a row in it. -/
def plannedParts (runDate : String) (tagged : List (CrmObject × SourceEvent)) : CrmParts :=
  P.partsOf runDate tagged
    (!((groupOf tagged .opportunities).filter SourceEvent.inHistory).isEmpty)

def manifestWrite (runDate : String) (tagged : List (CrmObject × SourceEvent)) : CrmWrite :=
  .replaceManifest runDate ⟨eventSet tagged, P.plannedParts runDate tagged⟩

/-- The events of every object are accepted. -/
def AllAccepted (disk : Disk) (tagged : List (CrmObject × SourceEvent)) : Prop :=
  ∀ object ∈ groupOrder tagged, P.Accepted disk object (groupOf tagged object)

/-- A call on a date without a manifest succeeds exactly when the events of every
object are accepted, whatever the database makes of equal versions. -/
theorem publish_eq_ok_iff
    (ties : P.Ties) (runDate : String) {events : List SourceEvent} {s : CrmStore}
    {tagged : List (CrmObject × SourceEvent)}
    (htagged : events.mapM tagEvent = .ok tagged) (hnone : s.manifests runDate = none)
    (writes : List CrmWrite) (parts : CrmParts) :
    P.publish ties runDate events s = (writes, .ok parts) ↔
      P.AllAccepted s.disk tagged ∧
        writes = (P.plannedFiles ties runDate tagged s.disk).map fileWrite ++
          [P.manifestWrite runDate tagged] ∧
        parts = P.plannedParts runDate tagged := by
  have hhistory := P.opportunityHistoryRows_eq_ok_iff ties s.disk (groupOf tagged .opportunities)
  have hobjects := P.publishObjects_eq_ok_iff ties runDate tagged (nodup_groupOrder tagged) s
  have hempty : (P.historyRows ties s.disk (groupOf tagged .opportunities)).isEmpty =
      ((groupOf tagged .opportunities).filter SourceEvent.inHistory).isEmpty := by
    rw [historyRows, List.isEmpty_map]
  rw [publish, htagged]
  simp only [hnone]
  cases hrows : P.opportunityHistoryRows ties s.disk (groupOf tagged .opportunities) with
  | error e =>
      constructor
      · intro h
        cases (Prod.mk.inj h).2
      · rintro ⟨haccepted, _⟩
        have hok := (hhistory _).mpr ⟨fun hne =>
          (haccepted .opportunities ((groupOf_ne_nil_iff _ _).mp hne)).base, rfl⟩
        rw [hrows] at hok
        cases hok
  | ok history =>
      obtain ⟨_, rfl⟩ := (hhistory _).mp hrows
      cases hwritten : P.publishObjects ties runDate tagged (groupOrder tagged) s with
      | mk written result =>
          cases result with
          | error e =>
              constructor
              · intro h
                cases (Prod.mk.inj h).2
              · rintro ⟨haccepted, _⟩
                have hok := (hobjects _).mpr ⟨haccepted, rfl⟩
                rw [hwritten] at hok
                cases (Prod.mk.inj hok).2
          | ok _ =>
              obtain ⟨haccepted, rfl⟩ := (hobjects _).mp hwritten
              have hfiles : (P.plannedFiles ties runDate tagged s.disk).map fileWrite =
                  ((groupOrder tagged).map (P.deltaFile ties runDate tagged s.disk)).map
                    fileWrite ++
                  if (P.historyRows ties s.disk (groupOf tagged .opportunities)).isEmpty then []
                  else [CrmWrite.replaceDelta (P.historyTarget runDate)
                    (P.historyRows ties s.disk (groupOf tagged .opportunities))] := by
                rw [plannedFiles, List.map_append]
                split <;> rfl
              simp only [Prod.mk.injEq, Except.ok.injEq, hfiles, hempty]
              constructor
              · rintro ⟨rfl, rfl⟩
                exact ⟨haccepted, rfl, rfl⟩
              · rintro ⟨_, rfl, rfl⟩
                exact ⟨rfl, rfl⟩

/-- A successful call has grouped its events by object. -/
theorem exists_tagged_of_publish_ok
    {ties : P.Ties} {runDate : String} {events : List SourceEvent} {s : CrmStore}
    {parts : CrmParts} (hok : (P.publish ties runDate events s).2 = .ok parts) :
    ∃ tagged, events.mapM tagEvent = .ok tagged := by
  cases htagged : events.mapM tagEvent with
  | ok tagged => exact ⟨tagged, rfl⟩
  | error e =>
      rw [publish, htagged] at hok
      cases hok

/-- An event is in the group of its object. -/
theorem mem_groupOf_of_tagged
    {events : List SourceEvent} {tagged : List (CrmObject × SourceEvent)}
    (htagged : events.mapM tagEvent = .ok tagged) {event : SourceEvent} (hevent : event ∈ events)
    {object : CrmObject} (hobject : tagEvent event = .ok (object, event)) :
    event ∈ groupOf tagged object := by
  rw [DatasetSpec.mapM_eq_ok_iff] at htagged
  have hmem : (object, event) ∈ tagged := by
    induction htagged with
    | nil => cases hevent
    | @cons first x events tagged hfirst _ ih =>
        rcases List.mem_cons.mp hevent with rfl | hrest
        · rw [hobject] at hfirst
          rw [Except.ok.inj hfirst]
          exact List.mem_cons_self
        · exact List.mem_cons_of_mem _ (ih hrest)
  exact List.mem_map_of_mem (List.mem_filter.mpr ⟨hmem, by simp⟩)

/-- The history row of an event over the row its record had. -/
theorem historyRow_cells
    (before : Row) {event : SourceEvent} {stage : String}
    (hcolumn : "StageName" ∈ P.schema .opportunities)
    (hstage : event.payload.lookup "StageName" = some (some (.text stage))) :
    P.historyRow (some before) event "Id" = some (.text event.eventId) ∧
    P.historyRow (some before) event "OpportunityId" = some (.text event.entityId) ∧
    P.historyRow (some before) event "PreviousStageName" = before "StageName" ∧
    P.historyRow (some before) event "StageName" = some (.text stage) := by
  simp [historyRow, List.lookup_cons, previousCell, hcolumn, hstage, cellText]

/-- A call, failing or not, writes deltas of its objects and the history. -/
theorem target_of_mem_publishObjects
    {ties : P.Ties} {runDate : String} {tagged : List (CrmObject × SourceEvent)}
    {objects : List CrmObject} {s : CrmStore} {path : Path} {rows : List Row}
    (h : CrmWrite.replaceDelta path rows ∈
      (P.publishObjects ties runDate tagged objects s).1) :
    ∃ object, path = P.deltaTarget object runDate := by
  induction objects generalizing s with
  | nil => cases h
  | cons object objects ih =>
      rw [publishObjects] at h
      cases hrows : P.materialize ties s.disk object (groupOf tagged object) with
      | error e =>
          rw [hrows] at h
          cases h
      | ok written =>
          rw [hrows] at h
          rcases List.mem_cons.mp h with hfirst | hrest
          · cases hfirst
            exact ⟨object, rfl⟩
          · exact ih hrest

theorem target_of_mem_publish
    {ties : P.Ties} {runDate : String} {events : List SourceEvent} {s : CrmStore}
    {path : Path} {rows : List Row}
    (h : CrmWrite.replaceDelta path rows ∈ (P.publish ties runDate events s).1) :
    (∃ object, path = P.deltaTarget object runDate) ∨ path = P.historyTarget runDate := by
  rw [publish] at h
  split at h
  · cases h
  · split at h
    · split at h <;> cases h
    · split at h
      · cases h
      · simp only at h
        split at h
        · exact Or.inl (P.target_of_mem_publishObjects h)
        · rcases List.mem_append.mp h with hfiles | hmanifest
          · rcases List.mem_append.mp hfiles with hdelta | hhistory
            · exact Or.inl (P.target_of_mem_publishObjects hdelta)
            · split at hhistory
              · cases hhistory
              · cases List.mem_singleton.mp hhistory
                exact Or.inr rfl
          · cases List.mem_singleton.mp hmanifest

end CrmDeltaPublisher

/-! ## A seeded store -/

/-- The publisher of the deployment, over seed files of few columns. -/
def deployedPublisher : CrmDeltaPublisher where
  root := ["app", "state", "simulation", "crm"]
  baseSource := fun object => ["app", "seed", "crm_" ++ object.name ++ ".parquet"]
  schema := fun object =>
    match object with
    | .accounts => ["Id", "Name", "LastModifiedDate"]
    | .opportunities => ["Id", "StageName", "LastModifiedDate"]
  baseOutside := fun object => by
    cases object <;> rfl

/-- The database that keeps the first row in scan order. -/
def scanTies : deployedPublisher.Ties :=
  fun _ _ => TieBreak.firstInScan _

/-- One seeded account, one seeded opportunity, nothing published. -/
def seededStore : CrmStore where
  disk :=
    ((⟨∅, ∅, 0⟩ : Disk).replace (deployedPublisher.baseSource .accounts)
      [Row.ofCells [("Id", .text "0011"), ("Name", .text "Old"),
        ("LastModifiedDate", .text "2026-07-24T08:00:00.000+0000")]]).replace
        (deployedPublisher.baseSource .opportunities)
        [Row.ofCells [("Id", .text "0061"), ("StageName", .text "Proposal"),
          ("LastModifiedDate", .text "2026-07-24T08:00:00.000+0000")]]
  manifests := fun _ => none

end Simulator
end Northwind
