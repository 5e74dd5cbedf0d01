import Northwind.FakeForce.Compaction
import Northwind.Simulator.CrmRestart
import Northwind.Simulator.CrmRuns

/-!
# The history partition of a day in progress

A day completes only after `validate_opportunity_history_partition` has found
its stage-history partition, its rows and its manifest entry in order.  The
compactor of `OpportunityHistory` folds the published partitions into one file
and unlinks them, and the publisher, which finds the manifest, writes nothing
again.

What pyarrow says of a Parquet file is a parameter.
-/

namespace Northwind
namespace Simulator

open FakeForce

/-- `pq.ParquetFile` on a partition: the error it raises, or whether the schema
is the one of the stage history. -/
abbrev PartitionReader := List Row → Except String Bool

inductive HistoryProblem where
  | unexpectedPartition
  | manifestMissing
  | partitionNotReferenced
  | noOpportunityEventIds
  | manifestLacks (eventIds : List String)
  | partitionMissing
  | incompatibleSchema
  | unreadable (error : String)
  | duplicateIds (ids : List String)
  | rowsMissing (eventIds : List String)
  | rowsNotBacked (ids : List String)
  | wrongOpportunityId (eventId : String)
  | wrongStageName (eventId : String)
  | wrongCreatedDate (eventId : String)
  | wrongSystemModstamp (eventId : String)
  | previousStageNotNull (eventId : String)
  | invalidStageTransition (eventId : String)
  | outsidePartition (eventId : String)
deriving DecidableEq

def HistoryProblem.message : HistoryProblem → String
  | .unexpectedPartition => "unexpected OpportunityHistory partition"
  | .manifestMissing => "CRM publication manifest is missing"
  | .partitionNotReferenced => "CRM manifest does not reference the OpportunityHistory partition"
  | .noOpportunityEventIds => "CRM manifest has no opportunity event IDs"
  | .manifestLacks ids =>
      "CRM manifest is missing OpportunityHistory event IDs: " ++ ", ".intercalate ids
  | .partitionMissing => "OpportunityHistory partition is missing"
  | .incompatibleSchema => "OpportunityHistory partition has an incompatible schema"
  | .unreadable error => "OpportunityHistory partition cannot be read: " ++ error
  | .duplicateIds ids =>
      "OpportunityHistory partition has duplicate Id values: " ++ ", ".intercalate ids
  | .rowsMissing ids => "OpportunityHistory rows missing for event IDs: " ++ ", ".intercalate ids
  | .rowsNotBacked ids =>
      "OpportunityHistory rows not backed by CRM events: " ++ ", ".intercalate ids
  | .wrongOpportunityId id => "OpportunityHistory " ++ id ++ " has the wrong OpportunityId"
  | .wrongStageName id => "OpportunityHistory " ++ id ++ " has the wrong StageName"
  | .wrongCreatedDate id => "OpportunityHistory " ++ id ++ " has the wrong CreatedDate"
  | .wrongSystemModstamp id => "OpportunityHistory " ++ id ++ " has the wrong SystemModstamp"
  | .previousStageNotNull id =>
      "OpportunityHistory " ++ id ++ " must begin with a null previous stage"
  | .invalidStageTransition id =>
      "OpportunityHistory " ++ id ++ " has an invalid stage transition"
  | .outsidePartition id =>
      "OpportunityHistory " ++ id ++ " is outside its business-date partition"

/-- `OpportunityHistoryValidationReport` -/
structure HistoryReport where
  runDate : String
  expectedEvents : Nat
  actualRows : Nat
  problems : List HistoryProblem
deriving DecidableEq

/-- `sorted(set(ids))` -/
def sortedIds (ids : List String) : List String :=
  ids.dedup.insertionSort (· ≤ ·)

/-- A problem where a list of ids is not empty. -/
def listed (problem : List String → HistoryProblem) (ids : List String) :
    List HistoryProblem :=
  if ids = [] then [] else [problem ids]

/-- A problem where a check fails. -/
def flagged (failed : Bool) (problem : HistoryProblem) : List HistoryProblem :=
  if failed then [problem] else []

/-- `payload.get(key)` -/
def payloadGet (payload : Payload) (key : String) : Option Value :=
  (payload.lookup key).getD none

/-- `_validate_manifest`, after `_read_manifest` -/
def manifestProblems (manifest : Option CrmManifest) (target : Path)
    (expected : List SourceEvent) : List HistoryProblem :=
  match manifest with
  | none => [.manifestMissing]
  | some manifest =>
      flagged (manifest.parts.opportunityHistory ≠ some target) .partitionNotReferenced ++
        match manifest.events.opportunities with
        | none => [.noOpportunityEventIds]
        | some ids =>
            listed .manifestLacks
              (sortedIds ((expected.map SourceEvent.eventId).filter (fun id => id ∉ ids)))

/-- The checks of one row against its event. -/
def rowProblems (runDate : String) (row : Row) (event : SourceEvent) : List HistoryProblem :=
  let get := payloadGet event.payload
  let modified := get "LastModifiedDate"
  let stamp := (event.payload.lookup "SystemModstamp").getD modified
  let previous := row "PreviousStageName"
  flagged (row "OpportunityId" ≠ some (.text event.entityId)) (.wrongOpportunityId event.eventId) ++
    flagged (row "StageName" ≠ get "StageName") (.wrongStageName event.eventId) ++
    flagged (cellText (row "CreatedDate") ≠ cellText modified) (.wrongCreatedDate event.eventId) ++
    flagged (cellText (row "SystemModstamp") ≠ cellText stamp)
      (.wrongSystemModstamp event.eventId) ++
    flagged (event.eventType = "opportunity_created" ∧ previous ≠ none)
      (.previousStageNotNull event.eventId) ++
    flagged
      (event.eventType = "opportunity_stage_changed" ∧
        (previous = none ∨ previous = row "StageName"))
      (.invalidStageTransition event.eventId) ++
    flagged (!startsWith (cellText (row "CreatedDate")) runDate) (.outsidePartition event.eventId)

/-- `_validate_rows` -/
def rowsProblems (runDate : String) (rows : List Row) (expected : List SourceEvent) :
    List HistoryProblem :=
  let actualIds := rows.map (fun row => cellText (row "Id"))
  let expectedIds := expected.map SourceEvent.eventId
  listed .duplicateIds (sortedIds (actualIds.filter (fun id => 1 < actualIds.count id))) ++
    listed .rowsMissing (sortedIds (expectedIds.filter (fun id => id ∉ actualIds))) ++
    listed .rowsNotBacked (sortedIds (actualIds.filter (fun id => id ∉ expectedIds))) ++
    rows.flatMap (fun row =>
      -- the dictionary keeps the last event of an id
      match expected.reverse.find? (fun event => event.eventId = cellText (row "Id")) with
      | none => []
      | some event => rowProblems runDate row event)

/-- What the validation finds in the partition, and how many rows it counts. -/
def partitionProblems (reader : PartitionReader) (runDate : String)
    (partition : Option (List Row)) (expected : List SourceEvent) :
    Nat × List HistoryProblem :=
  match partition with
  | none => (0, [.partitionMissing])
  | some rows =>
      match reader rows with
      | .error error => (0, [.unreadable error])
      | .ok compatible =>
          (rows.length,
            flagged (!compatible) .incompatibleSchema ++ rowsProblems runDate rows expected)

/-- `expected` of the validation: the day's events with a row in the history. -/
def historyEvents (events : List SourceEvent) : List SourceEvent :=
  events.filter (fun event => event.sourceSystem = "crm" && event.inHistory)

namespace CrmDeltaPublisher

variable (P : CrmDeltaPublisher)

/-- `validate_opportunity_history_partition` -/
def validateHistoryPartition (reader : PartitionReader) (runDate : String)
    (events : List SourceEvent) (s : CrmStore) : HistoryReport :=
  let expected := historyEvents events
  let target := P.historyTarget runDate
  if expected.isEmpty then
    ⟨runDate, 0, 0, flagged (s.disk.isFile target) .unexpectedPartition⟩
  else
    let partition := partitionProblems reader runDate (s.disk.read target) expected
    ⟨runDate, expected.length, partition.1,
      manifestProblems (s.manifests runDate) target expected ++ partition.2⟩

inductive RetryError where
  | crm (error : CrmDeltaError)
  | otherSource (error : String)
  | reconciliation (history : List HistoryProblem) (others : List String)

/-- A run of the day whose CRM events are recorded, up to its reconciliation:
the CRM publication, then Ops and ERP, which read neither the files nor the
manifests (`others` is their error or the problems found in their databases),
then the checks that `complete_run` waits for. -/
def retry (reader : PartitionReader) (ties : P.Ties) (runDate : String)
    (events : List SourceEvent) (others : Except String (List String)) (s : CrmStore) :
    Except RetryError Unit :=
  match (P.publish ties runDate events s).2, others with
  | .error e, _ => .error (.crm e)
  | .ok _, .error e => .error (.otherSource e)
  | .ok _, .ok otherProblems =>
      let history := (P.validateHistoryPartition reader runDate events s).problems
      if history = [] ∧ otherProblems = [] then .ok ()
      else .error (.reconciliation history otherProblems)

/-- The CRM part of the day has been published: the manifest with the day's event
set, and the history partition of its history events. -/
structure HistoryPublished (runDate : String) (events : List SourceEvent) (s : CrmStore) :
    Prop where
  manifest : ∃ tagged manifest, events.mapM tagEvent = .ok tagged ∧
    s.manifests runDate = some manifest ∧ manifest.events = eventSet tagged
  partition : (s.disk.read (P.historyTarget runDate)).isSome = true
  history : historyEvents events ≠ []

end CrmDeltaPublisher

/-- The store after a compaction of one object. -/
def compactedStore (spec : DatasetSpec) (E : RankEngine) (host : Host) (s : CrmStore) :
    CrmStore :=
  { s with disk := (compact spec E host s.disk).1 }

/-- Nothing stops a planned merge: no file is in the way of its directory, there
is enough disk space and every base file is there. -/
structure CanMerge (host : Host) (disk : Disk) (p : CompactionPlan) : Prop where
  directory : p.compactedPath.parent.inits.find? disk.isFile = none
  reserve : host.reserveMet p.compactedPath.parent = true
  base : ∀ path ∈ p.basePaths, (disk.read path).isSome = true

/-- The compaction lists a file among its partitions, and merges them. -/
def MergesPartition (spec : DatasetSpec) (host : Host) (disk : Disk) (target : Path) : Prop :=
  ∃ p, plan spec host disk = .ok p ∧ target ∈ p.partitions ∧ CanMerge host disk p

/-! ## What a compaction does to one file -/

section Compactions

variable {spec : DatasetSpec} {host : Host} {disk : Disk} {target : Path} {p : CompactionPlan}

/-- A planned merge of readable files is written. -/
theorem exists_writeMerged
    (E : RankEngine) (hplan : plan spec host disk = .ok p)
    (hbase : ∀ path ∈ p.basePaths, (disk.read path).isSome = true) (directory destination : Path) :
    ∃ written, writeMerged spec E (disk.mkdirs directory) (p.basePaths ++ p.partitions)
      destination = some written := by
  obtain ⟨hversion, _, hdeltas, _⟩ := (plan_eq_ok_iff spec host disk p).mp hplan
  obtain ⟨versionField, hversion⟩ := Option.ne_none_iff_exists'.mp hversion
  have hreadable : ∀ path ∈ p.basePaths ++ p.partitions, (disk.read path).isSome = true := by
    intro path hpath
    rcases List.mem_append.mp hpath with hpath | hpath
    · exact hbase path hpath
    · exact ((DatasetSpec.mem_publishedDeltas hdeltas path).mp hpath).1
  obtain ⟨rows, hrows⟩ := (exists_sourceReader_iff disk.read _).mpr hreadable
  simp [writeMerged, hversion, hrows]

theorem merged_of_canMerge
    (E : RankEngine) (hplan : plan spec host disk = .ok p) (hpartitions : p.partitions ≠ [])
    (hcan : CanMerge host disk p) :
    Merged spec E host disk (compact spec E host disk).1 p := by
  obtain ⟨⟨published, rows⟩, hwritten⟩ :=
    exists_writeMerged E hplan hcan.base p.compactedPath.parent p.compactedPath
  refine ⟨hplan, hpartitions, ?_⟩
  rw [compact, hplan]
  simp only [hpartitions, if_false, hcan.directory, hcan.reserve, if_true, hwritten]
  exact ⟨_, rfl⟩

/-- A compaction that merges nothing leaves every file as it was. -/
theorem read_compact_of_not
    (E : RankEngine) (hplan : plan spec host disk = .ok p)
    (hnot : ¬ (p.partitions ≠ [] ∧ CanMerge host disk p)) :
    (compact spec E host disk).1.read = disk.read := by
  rw [compact, hplan]
  by_cases hpartitions : p.partitions = []
  · simp only [hpartitions, if_true]
  simp only [hpartitions, if_false]
  cases hdirectory : p.compactedPath.parent.inits.find? disk.isFile with
  | some file => rfl
  | none =>
      cases hreserve : host.reserveMet p.compactedPath.parent with
      | false => exact Disk.read_mkdirs disk _
      | true =>
          have hbase : ¬ ∀ path ∈ p.basePaths, (disk.read path).isSome = true :=
            fun hbase => hnot ⟨hpartitions, hdirectory, hreserve, hbase⟩
          have hmissing : sourceReader disk.read (p.basePaths ++ p.partitions) = none := by
            rw [Option.eq_none_iff_forall_ne_some]
            intro rows hrows
            refine hbase fun path hpath => ?_
            exact (exists_sourceReader_iff disk.read _).mp ⟨rows, hrows⟩ path
              (List.mem_append_left _ hpath)
          have hwritten : writeMerged spec E (disk.mkdirs p.compactedPath.parent)
              (p.basePaths ++ p.partitions) p.compactedPath = none := by
            simp [writeMerged, hmissing]
          simp only [if_true, hwritten, Disk.read_mkdirs]

/-- The merged file is in a directory of its own. -/
theorem historyTarget_ne_compactedFile (P : CrmDeltaPublisher) (runDate : String) (root : Path) :
    P.historyTarget runDate ≠ DatasetSpec.compactedFile root := by
  intro h
  have hname := congrArg Path.name h
  rw [DatasetSpec.compactedFile, Path.name_append_singleton] at hname
  have hdelta : Path.name (P.historyTarget runDate) = "delta.parquet" := by
    simp [Path.name, CrmDeltaPublisher.historyTarget]
  rw [hdelta] at hname
  revert hname
  decide

variable (spec host disk) in
/-- A compaction takes the partition away when it merges it, and leaves it as it
was otherwise. -/
theorem read_compact_historyTarget
    (P : CrmDeltaPublisher) (E : RankEngine) (runDate : String) :
    (MergesPartition spec host disk (P.historyTarget runDate) →
        (compact spec E host disk).1.read (P.historyTarget runDate) = none) ∧
      (¬ MergesPartition spec host disk (P.historyTarget runDate) →
        (compact spec E host disk).1.read (P.historyTarget runDate) =
          disk.read (P.historyTarget runDate)) := by
  have hmerged : ∀ p, Merged spec E host disk (compact spec E host disk).1 p →
      (compact spec E host disk).1.read (P.historyTarget runDate) =
        if P.historyTarget runDate ∈ p.partitions then none
        else disk.read (P.historyTarget runDate) := by
    intro p h
    obtain ⟨_, _, _, _, _, hother⟩ := h.read_after
    obtain ⟨_, _, _, _, _, root, _, hpath⟩ := (plan_eq_ok_iff spec host disk p).mp h.planned
    exact hother _ (hpath ▸ historyTarget_ne_compactedFile P runDate root)
  constructor
  · rintro ⟨p, hplan, hmem, hcan⟩
    rw [hmerged p (merged_of_canMerge E hplan (List.ne_nil_of_mem hmem) hcan), if_pos hmem]
  · intro hnot
    cases hplan : plan spec host disk with
    | error e =>
        rw [compact, hplan]
    | ok p =>
        by_cases hcan : p.partitions ≠ [] ∧ CanMerge host disk p
        · rw [hmerged p (merged_of_canMerge E hplan hcan.1 hcan.2), if_neg]
          exact fun hmem => hnot ⟨p, hplan, hmem, hcan.2⟩
        · rw [read_compact_of_not E hplan hcan]

end Compactions

/-! ## What the validation reports -/

section Validation

variable {P : CrmDeltaPublisher} {reader : PartitionReader} {runDate : String}
variable {events : List SourceEvent} {s t : CrmStore}

theorem mem_flagged {failed : Bool} {problem q : HistoryProblem} :
    q ∈ flagged failed problem ↔ failed = true ∧ q = problem := by
  rw [flagged]
  split <;> simp_all

theorem mem_listed {problem : List String → HistoryProblem} {ids : List String}
    {q : HistoryProblem} :
    q ∈ listed problem ids ↔ ids ≠ [] ∧ q = problem ids := by
  rw [listed]
  split <;> simp_all

/-- No check of the rows reports a missing partition. -/
theorem partitionMissing_notMem_rowsProblems
    (runDate : String) (rows : List Row) (expected : List SourceEvent) :
    .partitionMissing ∉ rowsProblems runDate rows expected := by
  intro h
  simp only [rowsProblems, List.mem_append, mem_listed, List.mem_flatMap, reduceCtorEq, and_false,
    or_false, false_or] at h
  obtain ⟨row, _, hrow⟩ := h
  cases hfind : expected.reverse.find? (fun event => event.eventId = cellText (row "Id")) with
  | none =>
      rw [hfind] at hrow
      cases hrow
  | some event =>
      rw [hfind] at hrow
      simp [rowProblems, mem_flagged] at hrow

/-- A partition that is there is not reported as missing. -/
theorem partitionMissing_mem_iff (partition : Option (List Row)) (expected : List SourceEvent) :
    .partitionMissing ∈ (partitionProblems reader runDate partition expected).2 ↔
      partition = none := by
  cases partition with
  | none => simp [partitionProblems]
  | some rows =>
      have hrows := partitionMissing_notMem_rowsProblems runDate rows expected
      cases hreader : reader rows with
      | error error => simp [partitionProblems, hreader]
      | ok compatible => simp [partitionProblems, hreader, mem_flagged, hrows]

variable (reader s) in
/-- A day with history events reports its partition missing exactly when it is. -/
theorem partitionMissing_mem_problems_iff (hhistory : historyEvents events ≠ []) :
    .partitionMissing ∈ (P.validateHistoryPartition reader runDate events s).problems ↔
      s.disk.read (P.historyTarget runDate) = none := by
  have hmanifest : ∀ manifest, HistoryProblem.partitionMissing ∉
      manifestProblems manifest (P.historyTarget runDate) (historyEvents events) := by
    rintro (_ | manifest) h
    · simp [manifestProblems] at h
    · cases hids : manifest.events.opportunities with
      | none => simp [manifestProblems, hids, mem_flagged] at h
      | some ids => simp [manifestProblems, hids, mem_flagged, mem_listed] at h
  have hnonempty : (historyEvents events).isEmpty = false := by
    simpa using hhistory
  rw [CrmDeltaPublisher.validateHistoryPartition]
  simp only [hnonempty, Bool.false_eq_true, if_false, List.mem_append, hmanifest, false_or]
  exact partitionMissing_mem_iff _ _

variable (reader events) in
/-- The report depends on the day's partition and manifest only. -/
theorem validateHistoryPartition_congr
    (hread : t.disk.read (P.historyTarget runDate) = s.disk.read (P.historyTarget runDate))
    (hmanifest : t.manifests runDate = s.manifests runDate) :
    P.validateHistoryPartition reader runDate events t =
      P.validateHistoryPartition reader runDate events s := by
  simp only [CrmDeltaPublisher.validateHistoryPartition, Disk.isFile_eq_read, hread, hmanifest]

/-- A published day is not published again: the call reads its manifest only. -/
theorem publish_of_published
    (ties : P.Ties) (h : P.HistoryPublished runDate events s)
    (hmanifest : t.manifests runDate = s.manifests runDate) :
    (P.publish ties runDate events t).2 = (P.publish ties runDate events s).2 := by
  obtain ⟨tagged, manifest, htagged, hknown, hevents⟩ := h.manifest
  rw [CrmDeltaPublisher.publish, CrmDeltaPublisher.publish, htagged]
  simp only [hmanifest, hknown, hevents, ne_eq, not_true_eq_false, if_false]

/-- A history event is an event of an opportunity. -/
theorem tagEvent_of_inHistory {event : SourceEvent}
    (hsystem : event.sourceSystem = "crm") (hin : event.inHistory = true) :
    tagEvent event = .ok (.opportunities, event) := by
  have hobject : objectFor event = .ok .opportunities := by
    rw [SourceEvent.inHistory, Bool.or_eq_true, decide_eq_true_eq, decide_eq_true_eq] at hin
    have hcreated : startsWith "opportunity_created" "account_" = false ∧
        startsWith "opportunity_created" "opportunity_" = true := by
      decide +kernel
    have hchanged : startsWith "opportunity_stage_changed" "account_" = false ∧
        startsWith "opportunity_stage_changed" "opportunity_" = true := by
      decide +kernel
    rcases hin with htype | htype
    · simp [objectFor, htype, hcreated]
    · simp [objectFor, htype, hchanged]
  simp [tagEvent, hsystem, hobject]

/-- A compaction keeps the reported problems, and lets every retry that would have
completed complete, exactly when it does not merge the day's history partition. -/
theorem compaction_harmless_iff
    (ties : P.Ties) (spec : DatasetSpec) (E : RankEngine) (host : Host)
    (h : P.HistoryPublished runDate events s) :
    ((P.validateHistoryPartition reader runDate events (compactedStore spec E host s)).problems =
          (P.validateHistoryPartition reader runDate events s).problems ∧
        ∀ others, P.retry reader ties runDate events others s = .ok () →
          P.retry reader ties runDate events others (compactedStore spec E host s) = .ok ()) ↔
      ¬ MergesPartition spec host s.disk (P.historyTarget runDate) := by
  obtain ⟨hmerges, hkeeps⟩ := read_compact_historyTarget spec host s.disk P E runDate
  constructor
  · rintro ⟨hproblems, _⟩ hmerge
    have hmissing := (partitionMissing_mem_problems_iff reader (compactedStore spec E host s)
      h.history).mpr (hmerges hmerge)
    rw [hproblems, partitionMissing_mem_problems_iff reader s h.history] at hmissing
    have hpartition := h.partition
    rw [hmissing] at hpartition
    cases hpartition
  · intro hnot
    have hread : (compactedStore spec E host s).disk.read (P.historyTarget runDate) =
        s.disk.read (P.historyTarget runDate) := hkeeps hnot
    have hreport := validateHistoryPartition_congr reader events hread rfl
    refine ⟨congrArg HistoryReport.problems hreport, fun others hretry => ?_⟩
    have hpublish := publish_of_published (t := compactedStore spec E host s) ties h rfl
    simp only [CrmDeltaPublisher.retry, hpublish, hreport]
    exact hretry

/-- The history rows of a call are those of its history events. -/
theorem filter_groupOf_eq_historyEvents {tagged : List (CrmObject × SourceEvent)}
    (htagged : events.mapM tagEvent = .ok tagged) :
    (groupOf tagged .opportunities).filter SourceEvent.inHistory = historyEvents events := by
  rw [DatasetSpec.mapM_eq_ok_iff] at htagged
  induction htagged with
  | nil => rfl
  | @cons event x events tagged hevent _ ih =>
      obtain ⟨hsystem, hobject⟩ : event.sourceSystem = "crm" ∧ x.2 = event := by
        rw [tagEvent] at hevent
        split at hevent
        · cases hevent
        · rename_i hcrm
          split at hevent
          · cases hevent
          · cases hevent
            exact ⟨not_not.mp hcrm, rfl⟩
      rw [historyEvents, List.filter_cons, ← historyEvents, ← ih]
      cases hin : event.inHistory with
      | true =>
          have htag := tagEvent_of_inHistory hsystem hin
          rw [hevent] at htag
          cases htag
          simp [groupOf, hsystem, hin]
      | false =>
          simp only [hsystem, Bool.and_false, Bool.false_eq_true, if_false]
          by_cases hopportunity : x.1 = .opportunities
          · simp [groupOf, hopportunity, hobject, hin]
          · simp [groupOf, hopportunity]

/-- What a successful publication of a day with history events leaves: the rows of
these events, and a manifest that names the partition. -/
theorem published_history
    {ties : P.Ties} {parts : CrmParts} {tagged : List (CrmObject × SourceEvent)}
    (htagged : events.mapM tagEvent = .ok tagged) (hnone : s.manifests runDate = none)
    (hok : (P.publish ties runDate events s).2 = .ok parts) (hhistory : historyEvents events ≠ []) :
    (P.published ties runDate events s).disk.read (P.historyTarget runDate) =
        some (P.historyRows ties s.disk (groupOf tagged .opportunities)) ∧
      (P.published ties runDate events s).manifests runDate =
        some ⟨CrmDeltaPublisher.eventSet tagged, P.plannedParts runDate tagged⟩ := by
  obtain ⟨haccepted, _⟩ :=
    (P.publish_eq_ok_iff ties runDate htagged hnone _ _).mp (Prod.ext rfl hok)
  obtain ⟨_, hpublished⟩ :=
    CrmDeltaPublisher.published_of_accepted ties htagged hnone haccepted
  have hne : (P.historyRows ties s.disk (groupOf tagged .opportunities)).isEmpty ≠ true := by
    rw [P.isEmpty_historyRows, filter_groupOf_eq_historyEvents htagged, Ne, List.isEmpty_iff]
    exact hhistory
  have hfile : (P.historyTarget runDate, P.historyRows ties s.disk (groupOf tagged .opportunities)) ∈
      P.plannedFiles ties runDate tagged s.disk := by
    rw [CrmDeltaPublisher.plannedFiles, if_neg hne]
    exact List.mem_append_right _ List.mem_cons_self
  have hnodup : ((P.plannedFiles ties runDate tagged s.disk).map Prod.fst).Nodup := by
    rw [P.targets_plannedFiles]
    exact P.nodup_plannedTargets runDate tagged
  rw [hpublished]
  exact ⟨read_after_files_of_mem hnodup hfile s, Function.update_self _ _ _⟩

/-- A successful publication of a day with history events leaves its partition
and its manifest. -/
theorem historyPublished_of_publish
    {ties : P.Ties} {parts : CrmParts} (hnone : s.manifests runDate = none)
    (hok : (P.publish ties runDate events s).2 = .ok parts) (hhistory : historyEvents events ≠ []) :
    P.HistoryPublished runDate events (P.published ties runDate events s) := by
  obtain ⟨tagged, htagged⟩ := P.exists_tagged_of_publish_ok hok
  obtain ⟨hread, hmanifest⟩ := published_history htagged hnone hok hhistory
  exact ⟨⟨tagged, _, htagged, hmanifest, rfl⟩, Option.isSome_iff_exists.mpr ⟨_, hread⟩, hhistory⟩

end Validation

/-! ## The deployed objects -/

section Deployment

variable {D : CrmDeployment} {host : Host} {disk : Disk} {runDate : String}

/-- The `OpportunityHistory` entry of `catalog.json` over its base file. -/
def CrmDeployment.historySpec (D : CrmDeployment) (source : Path) : DatasetSpec where
  objectName := "OpportunityHistory"
  sources := [source]
  idField := "Id"
  softDeleteField := none
  dataRoots := D.dataRoots
  deltaPatterns := [["opportunity_history", "**", "*.parquet"]]
  versionField := some "SystemModstamp"
  compatibilityAliases := []
  idStored := lookup_noAliases "Id"

/-- The compactors of the other objects stay out of the stage history. -/
theorem not_mergesPartition_objectSpec (object : CrmObject) :
    ¬ MergesPartition (D.objectSpec object) host disk (D.publisher.historyTarget runDate) := by
  rintro ⟨p, hplan, hmem, _⟩
  obtain ⟨_, _, hdeltas, _⟩ := (plan_eq_ok_iff _ host disk p).mp hplan
  have hdelta := ((DatasetSpec.mem_publishedDeltas hdeltas _).mp hmem).2
  exact CrmDeployment.not_below_historyTarget object runDate
    (CrmDeployment.below_of_isDeltaPath hdelta)

end Deployment

/-! ## The deployed stage history -/

/-- The seed with its empty stage history. -/
def seededHistoryStore : CrmStore :=
  { seededStore with
    disk := seededStore.disk.replace ["app", "seed", "crm_opportunity_history.parquet"] [] }

/-- A day that changes the stage of the seeded opportunity, published. -/
def publishedHistoryStore : CrmStore :=
  deployedPublisher.published scanTies "2026-07-25" [stageChanged] seededHistoryStore

def deployedHistorySpec : DatasetSpec :=
  crmDeployment.historySpec ["app", "seed", "crm_opportunity_history.parquet"]

/-- Every file opens and has the schema of the stage history. -/
def openPartition : PartitionReader :=
  fun _ => .ok true

theorem historyPublished_publishedHistoryStore :
    deployedPublisher.HistoryPublished "2026-07-25" [stageChanged] publishedHistoryStore := by
  have hok : (deployedPublisher.publish scanTies "2026-07-25" [stageChanged]
      seededHistoryStore).2 =
        .ok ⟨none, some (deployedPublisher.deltaTarget .opportunities "2026-07-25"),
          some (deployedPublisher.historyTarget "2026-07-25")⟩ := by
    decide +kernel
  exact historyPublished_of_publish rfl hok (by decide)

/-- Compacting the opportunities of that day changes nothing for it. -/
theorem opportunity_compaction_harmless :
    (deployedPublisher.validateHistoryPartition openPartition "2026-07-25" [stageChanged]
        (compactedStore (crmDeployment.objectSpec .opportunities) firstInScanEngine seedReadOnly
          publishedHistoryStore)).problems =
      (deployedPublisher.validateHistoryPartition openPartition "2026-07-25" [stageChanged]
        publishedHistoryStore).problems :=
  ((compaction_harmless_iff scanTies (crmDeployment.objectSpec .opportunities) firstInScanEngine
    seedReadOnly historyPublished_publishedHistoryStore).mpr
      (not_mergesPartition_objectSpec .opportunities)).1

/-- Compacting the stage history of that day takes its partition away, and the
retry that would have completed does not. -/
theorem history_compaction_blocks_day :
    ((deployedPublisher.validateHistoryPartition openPartition "2026-07-25" [stageChanged]
        publishedHistoryStore).problems = [] ∧
      (deployedPublisher.validateHistoryPartition openPartition "2026-07-25" [stageChanged]
        (compactedStore deployedHistorySpec firstInScanEngine seedReadOnly
          publishedHistoryStore)).problems = [.partitionMissing]) ∧
    (deployedPublisher.retry openPartition scanTies "2026-07-25" [stageChanged] (.ok [])
        publishedHistoryStore).isOk = true ∧
      (deployedPublisher.retry openPartition scanTies "2026-07-25" [stageChanged] (.ok [])
        (compactedStore deployedHistorySpec firstInScanEngine seedReadOnly
          publishedHistoryStore)).isOk = false := by
  decide +kernel

end Simulator
end Northwind
