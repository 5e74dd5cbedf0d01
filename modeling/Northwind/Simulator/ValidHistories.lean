import Northwind.Library.SpelledTexts
import Northwind.Simulator.HistoryPartitions
import Northwind.Simulator.PublishablePlans
import Mathlib.Data.List.Perm.Basic

/-!
# The validator and the publisher of the stage history

A partition without a problem has one row for each history event of the plan, with
what the publisher writes for it (`corresponds_of_valid`).

The other way, the partition of a published plan has a problem exactly where the
publisher reads another current row than the planner did, one that has no stage or
has the new stage already.
-/

namespace Northwind
namespace Simulator

open FakeForce NewestPerKey

/-! ## Reports without a problem -/

@[simp] theorem flagged_eq_nil_iff {failed : Bool} {problem : HistoryProblem} :
    flagged failed problem = [] ↔ failed = false := by
  cases failed <;> simp [flagged]

@[simp] theorem sortedIds_eq_nil_iff {ids : List String} : sortedIds ids = [] ↔ ids = [] := by
  rw [sortedIds, ← List.length_eq_zero_iff, List.length_insertionSort, List.length_eq_zero_iff,
    List.dedup_eq_nil]

@[simp] theorem listed_eq_nil_iff {problem : List String → HistoryProblem} {ids : List String} :
    listed problem ids = [] ↔ ids = [] := by
  rw [listed]
  split <;> simp_all

/-- A row that passes the checks against its event. -/
structure RowValid (runDate : String) (row : Row) (event : SourceEvent) : Prop where
  opportunity : row "OpportunityId" = some (.text event.entityId)
  stage : row "StageName" = payloadGet event.payload "StageName"
  created : cellText (row "CreatedDate") = cellText (payloadGet event.payload "LastModifiedDate")
  modstamp : cellText (row "SystemModstamp") =
    cellText ((event.payload.lookup "SystemModstamp").getD
      (payloadGet event.payload "LastModifiedDate"))
  first : event.eventType = "opportunity_created" → row "PreviousStageName" = none
  moved : event.eventType = "opportunity_stage_changed" →
    row "PreviousStageName" ≠ none ∧ row "PreviousStageName" ≠ row "StageName"
  date : startsWith (cellText (row "CreatedDate")) runDate = true

theorem rowProblems_eq_nil_iff {runDate : String} {row : Row} {event : SourceEvent} :
    rowProblems runDate row event = [] ↔ RowValid runDate row event := by
  simp only [rowProblems, List.append_eq_nil_iff, flagged_eq_nil_iff, decide_eq_false_iff_not,
    ne_eq, not_not, not_and, not_or, Bool.not_eq_false']
  constructor
  · rintro ⟨⟨⟨⟨⟨⟨hopportunity, hstage⟩, hcreated⟩, hmodstamp⟩, hfirst⟩, hmoved⟩, hdate⟩
    exact ⟨hopportunity, hstage, hcreated, hmodstamp, hfirst, hmoved, hdate⟩
  · rintro ⟨hopportunity, hstage, hcreated, hmodstamp, hfirst, hmoved, hdate⟩
    exact ⟨⟨⟨⟨⟨⟨hopportunity, hstage⟩, hcreated⟩, hmodstamp⟩, hfirst⟩, hmoved⟩, hdate⟩

/-- Among events of different ids the dictionary finds each by its id. -/
theorem find?_reverse_eq_some_iff {expected : List SourceEvent}
    (hnodup : (expected.map SourceEvent.eventId).Nodup) {id : String} {event : SourceEvent} :
    expected.reverse.find? (fun event => event.eventId = id) = some event ↔
      event ∈ expected ∧ event.eventId = id := by
  constructor
  · intro h
    exact ⟨List.mem_reverse.mp (List.mem_of_find?_eq_some h), by simpa using List.find?_some h⟩
  · rintro ⟨hmem, hid⟩
    obtain ⟨found, hfound⟩ : ∃ found,
        expected.reverse.find? (fun event => event.eventId = id) = some found := by
      rw [← Option.isSome_iff_exists, List.find?_isSome]
      exact ⟨event, List.mem_reverse.mpr hmem, decide_eq_true hid⟩
    have hsame : found.eventId = event.eventId := by
      rw [hid]
      simpa using List.find?_some hfound
    rw [hfound, List.inj_on_of_nodup_map hnodup
      (List.mem_reverse.mp (List.mem_of_find?_eq_some hfound)) hmem hsame]

/-- The rows are those of the expected events, one of each, and pass their checks. -/
theorem rowsProblems_eq_nil_iff {runDate : String} {rows : List Row}
    {expected : List SourceEvent} (hnodup : (expected.map SourceEvent.eventId).Nodup) :
    rowsProblems runDate rows expected = [] ↔
      (rows.map (fun row => cellText (row "Id"))).Perm (expected.map SourceEvent.eventId) ∧
        ∀ row ∈ rows, ∀ event ∈ expected, event.eventId = cellText (row "Id") →
          RowValid runDate row event := by
  simp only [rowsProblems, List.append_eq_nil_iff, listed_eq_nil_iff, sortedIds_eq_nil_iff,
    List.flatMap_eq_nil_iff]
  have hids : ((rows.map (fun row => cellText (row "Id"))).filter
        (fun id => 1 < (rows.map (fun row => cellText (row "Id"))).count id) = [] ∧
      (expected.map SourceEvent.eventId).filter
        (fun id => id ∉ rows.map (fun row => cellText (row "Id"))) = []) ∧
      (rows.map (fun row => cellText (row "Id"))).filter
        (fun id => id ∉ expected.map SourceEvent.eventId) = [] ↔
      (rows.map (fun row => cellText (row "Id"))).Perm (expected.map SourceEvent.eventId) := by
    generalize rows.map (fun row => cellText (row "Id")) = actual
    generalize expected.map SourceEvent.eventId = ids at hnodup
    simp only [List.filter_eq_nil_iff, decide_eq_true_eq, not_lt, not_not]
    constructor
    · rintro ⟨⟨honce, hmissing⟩, hunexpected⟩
      have hactual : actual.Nodup := by
        rw [List.nodup_iff_count_le_one]
        intro id
        by_cases hid : id ∈ actual
        · exact honce id hid
        · rw [List.count_eq_zero_of_not_mem hid]
          exact Nat.zero_le 1
      rw [List.perm_ext_iff_of_nodup hactual hnodup]
      exact fun id => ⟨hunexpected id, hmissing id⟩
    · intro hperm
      refine ⟨⟨?_, fun id hid => hperm.mem_iff.mpr hid⟩, fun id hid => hperm.mem_iff.mp hid⟩
      intro id _
      exact List.nodup_iff_count_le_one.mp (hperm.nodup_iff.mpr hnodup) id
  rw [hids]
  refine and_congr_right (fun _ => forall₂_congr (fun row _ => ?_))
  cases hfind : expected.reverse.find? (fun event => event.eventId = cellText (row "Id")) with
  | none =>
      refine iff_of_true rfl ?_
      intro event hevent hid
      rw [(find?_reverse_eq_some_iff hnodup).mpr ⟨hevent, hid⟩] at hfind
      cases hfind
  | some event =>
      obtain ⟨hmem, hid⟩ := (find?_reverse_eq_some_iff hnodup).mp hfind
      rw [rowProblems_eq_nil_iff]
      constructor
      · intro hvalid event' hevent' hid'
        rw [List.inj_on_of_nodup_map hnodup hevent' hmem (hid'.trans hid.symm)]
        exact hvalid
      · exact fun h => h event hmem hid

/-! ## What the publisher writes -/

/-- A time stamp of a day is the text of nothing but itself. -/
theorem eq_text_of_cellText {v : Option Value} {runDate : String}
    (h : cellText v = CrmDailyPlanner.timestamp runDate) :
    v = some (.text (CrmDailyPlanner.timestamp runDate)) := by
  have hlength : 18 ≤ (cellText v).length := by
    have htime : "T08:00:00.000+0000".length = 18 := by
      decide
    rw [h, CrmDailyPlanner.timestamp, String.length_append, htime]
    exact Nat.le_add_left _ _
  have hplus : '+' ∈ (cellText v).toList := by
    rw [h, CrmDailyPlanner.timestamp, String.toList_append]
    exact List.mem_append_right _ (by decide)
  rcases v with _ | (_ | _) | n | text
  · exact absurd hlength (by decide)
  · exact absurd hlength (by decide)
  · exact absurd hlength (by decide)
  · have hdigits : ∀ m : Nat, '+' ∉ Nat.toDigits 10 m := fun m hmem =>
      absurd (Nat.isDigit_of_mem_toDigits (by decide) (by decide) hmem) (by decide)
    cases n with
    | ofNat n =>
        change '+' ∈ (String.ofList (Nat.toDigits 10 n)).toList at hplus
        rw [String.toList_ofList] at hplus
        exact absurd hplus (hdigits n)
    | negSucc n =>
        change '+' ∈ ("-" ++ String.ofList (Nat.toDigits 10 (n + 1))).toList at hplus
        simp only [String.toList_append, String.toList_ofList] at hplus
        rcases List.mem_append.mp hplus with hsign | hdigit
        · exact absurd hsign (by decide)
        · exact absurd hdigit (hdigits (n + 1))
  · exact congrArg (fun t => some (Value.text t)) h

namespace CrmDeltaPublisher

variable (P : CrmDeltaPublisher)

/-- A row with what the publisher writes for an event; the stage before is none for
a creation and another stage for a change. -/
structure Carries (row : Row) (event : SourceEvent) : Prop where
  id : cellText (row "Id") = event.eventId
  cells : ∀ before, ∀ column ∈ ["OpportunityId", "StageName", "CreatedDate", "SystemModstamp"],
    row column = P.historyRow before event column
  creation : row "PreviousStageName" = none ↔ event.eventType = "opportunity_created"
  moved : row "PreviousStageName" ≠ none → row "PreviousStageName" ≠ row "StageName"

/-- The rows are in one-to-one correspondence with the history events. -/
def Corresponds (rows : List Row) (events : List SourceEvent) : Prop :=
  ∃ matched, matched.Perm (historyEvents events) ∧ List.Forall₂ P.Carries rows matched

/-- Every opportunity that the events move on has a current row, for the publisher,
with a stage that is not the new one. -/
def MovesOn (ties : P.Ties) (disk : Disk) (events : List SourceEvent) : Prop :=
  ∀ event ∈ events, event.eventType = "opportunity_stage_changed" →
    ∃ r, P.currentRow ties disk .opportunities event.entityId = some r ∧
      r "StageName" ≠ none ∧ r "StageName" ≠ payloadGet event.payload "StageName"

variable {P} {runDate : String}

/-- The cells of a planned event's row. -/
theorem historyRow_of_writesHistory {event : SourceEvent}
    (h : CrmDailyPlanner.WritesHistory runDate event) (before : Option Row) :
    P.historyRow before event "Id" = some (.text event.eventId) ∧
    P.historyRow before event "OpportunityId" = some (.text event.entityId) ∧
    P.historyRow before event "PreviousStageName" =
      (P.previousCell before "StageName").getD none ∧
    P.historyRow before event "StageName" = payloadGet event.payload "StageName" ∧
    P.historyRow before event "CreatedDate" =
      some (.text (CrmDailyPlanner.timestamp runDate)) ∧
    P.historyRow before event "SystemModstamp" =
      some (.text (CrmDailyPlanner.timestamp runDate)) := by
  obtain ⟨stage, hstage⟩ := h.stage
  simp [historyRow, List.lookup_cons, payloadGet, hstage, h.modified, h.modstamp, cellText]

theorem inHistory_cases {event : SourceEvent} (h : event.inHistory = true) :
    event.eventType = "opportunity_created" ∨
      event.eventType = "opportunity_stage_changed" := by
  rw [SourceEvent.inHistory, Bool.or_eq_true, decide_eq_true_eq, decide_eq_true_eq] at h
  exact h

/-- A valid row carries what the publisher writes for its event. -/
theorem carries_of_rowValid {row : Row} {event : SourceEvent}
    (hwrites : CrmDailyPlanner.WritesHistory runDate event) (hin : event.inHistory = true)
    (hid : cellText (row "Id") = event.eventId) (hvalid : RowValid runDate row event) :
    P.Carries row event := by
  have hmodified : payloadGet event.payload "LastModifiedDate" =
      some (.text (CrmDailyPlanner.timestamp runDate)) := by
    rw [payloadGet, hwrites.modified, Option.getD_some]
  have hcreated := hvalid.created
  have hmodstamp := hvalid.modstamp
  rw [hmodified] at hcreated
  rw [hwrites.modstamp, Option.getD_some] at hmodstamp
  refine ⟨hid, ?_, ?_, ?_⟩
  · intro before column hcolumn
    obtain ⟨_, hopportunity, _, hstage, hdate, hstamp⟩ :=
      historyRow_of_writesHistory (P := P) hwrites before
    simp only [List.mem_cons, List.not_mem_nil, or_false] at hcolumn
    rcases hcolumn with rfl | rfl | rfl | rfl
    · rw [hvalid.opportunity, hopportunity]
    · rw [hvalid.stage, hstage]
    · rw [eq_text_of_cellText hcreated, hdate]
    · rw [eq_text_of_cellText hmodstamp, hstamp]
  · refine ⟨fun hnone => ?_, hvalid.first⟩
    rcases inHistory_cases hin with htype | htype
    · exact htype
    · exact absurd hnone (hvalid.moved htype).1
  · intro hprevious
    rcases inHistory_cases hin with htype | htype
    · exact absurd (hvalid.first htype) hprevious
    · exact (hvalid.moved htype).2

/-! ## What the validator accepts -/

section Validator

variable {reader : PartitionReader} {events : List SourceEvent}

/-- A day with history events has no problem exactly if neither its manifest nor its
partition has one. -/
theorem problems_eq_nil_iff (hhistory : historyEvents events ≠ []) (t : CrmStore) :
    (P.validateHistoryPartition reader runDate events t).problems = [] ↔
      manifestProblems (t.manifests runDate) (P.historyTarget runDate)
          (historyEvents events) = [] ∧
        ∃ rows, t.disk.read (P.historyTarget runDate) = some rows ∧ reader rows = .ok true ∧
          rowsProblems runDate rows (historyEvents events) = [] := by
  have hnonempty : (historyEvents events).isEmpty = false := by
    simpa using hhistory
  rw [validateHistoryPartition]
  simp only [hnonempty, Bool.false_eq_true, if_false, List.append_eq_nil_iff]
  refine and_congr_right (fun _ => ?_)
  cases hread : t.disk.read (P.historyTarget runDate) with
  | none => simp [partitionProblems]
  | some rows =>
      cases hreader : reader rows with
      | error error => simp [partitionProblems, hreader]
      | ok compatible => cases compatible <;> simp [partitionProblems, hreader]

/-- Without a problem the rows correspond to the events. -/
theorem corresponds_of_valid
    (hwrites : ∀ event ∈ events, event.inHistory = true →
      CrmDailyPlanner.WritesHistory runDate event)
    (hnodup : ((historyEvents events).map SourceEvent.eventId).Nodup)
    (hhistory : historyEvents events ≠ []) {t : CrmStore}
    (hvalid : (P.validateHistoryPartition reader runDate events t).problems = []) :
    P.Corresponds ((t.disk.read (P.historyTarget runDate)).getD []) events := by
  obtain ⟨_, rows, hread, _, hrows⟩ := (problems_eq_nil_iff hhistory t).mp hvalid
  obtain ⟨hperm, hchecked⟩ := (rowsProblems_eq_nil_iff hnodup).mp hrows
  have hids : List.Forall₂ (fun id (event : SourceEvent) => id = event.eventId)
      ((historyEvents events).map SourceEvent.eventId) (historyEvents events) := by
    rw [List.forall₂_map_left_iff, List.forall₂_same]
    exact fun _ _ => rfl
  obtain ⟨matched, hmatched, hsame⟩ := List.perm_comp_forall₂ hperm hids
  rw [List.forall₂_map_left_iff] at hmatched
  rw [hread, Option.getD_some]
  refine ⟨matched, hsame, ?_⟩
  rw [List.forall₂_iff_get] at hmatched ⊢
  refine ⟨hmatched.1, fun i hi hi' => ?_⟩
  have hid := hmatched.2 i hi hi'
  have hevent := hsame.mem_iff.mp (List.get_mem matched ⟨i, hi'⟩)
  obtain ⟨hmem, hin⟩ := List.mem_filter.mp hevent
  rw [Bool.and_eq_true] at hin
  exact carries_of_rowValid (hwrites _ hmem hin.2) hin.2 hid
    (hchecked _ (List.get_mem rows ⟨i, hi⟩) _ hevent hid.symm)

/-- The manifest of a published day names the partition and its events. -/
theorem manifestProblems_published {tagged : List (CrmObject × SourceEvent)}
    (htagged : events.mapM tagEvent = .ok tagged) (hhistory : historyEvents events ≠ []) :
    manifestProblems (some ⟨eventSet tagged, P.plannedParts runDate tagged⟩)
      (P.historyTarget runDate) (historyEvents events) = [] := by
  have hfilter := filter_groupOf_eq_historyEvents htagged
  have hgroup : (groupOf tagged .opportunities).isEmpty = false := by
    rw [← hfilter] at hhistory
    simp only [List.isEmpty_eq_false_iff]
    rintro hnil
    rw [hnil] at hhistory
    exact hhistory rfl
  have hnonempty : (historyEvents events).isEmpty = false := by
    simpa using hhistory
  have hparts : (P.plannedParts runDate tagged).opportunityHistory =
      some (P.historyTarget runDate) := by
    simp [plannedParts, partsOf, hfilter, hnonempty]
  have hids : (eventSet tagged).opportunities =
      some (((groupOf tagged .opportunities).map SourceEvent.eventId).insertionSort (· ≤ ·)) := by
    simp [eventSet, sortedEventIds, hgroup]
  simp only [manifestProblems, hparts, hids, ne_eq, not_true_eq_false, decide_false,
    List.append_eq_nil_iff, flagged_eq_nil_iff, listed_eq_nil_iff, sortedIds_eq_nil_iff, true_and]
  rw [List.filter_eq_nil_iff]
  intro id hid
  rw [← hfilter] at hid
  obtain ⟨event, hevent, rfl⟩ := List.mem_map.mp hid
  rw [decide_eq_true_eq, not_not, List.mem_insertionSort]
  exact List.mem_map_of_mem (List.mem_of_mem_filter hevent)

theorem mem_historyEvents {event : SourceEvent}
    (hwrites : ∀ event ∈ events, event.inHistory = true →
      CrmDailyPlanner.WritesHistory runDate event) :
    event ∈ historyEvents events ↔ event ∈ events ∧ event.inHistory = true := by
  rw [historyEvents, List.mem_filter, Bool.and_eq_true, decide_eq_true_eq]
  constructor
  · rintro ⟨hmem, _, hin⟩
    exact ⟨hmem, hin⟩
  · rintro ⟨hmem, hin⟩
    exact ⟨hmem, (hwrites event hmem hin).sourceSystem, hin⟩

/-- The written row of a planned event passes its checks exactly if the stage before
it is none for a creation and another stage for a change. -/
theorem rowValid_historyRow_iff {event : SourceEvent} {before : Option Row}
    (hwrites : CrmDailyPlanner.WritesHistory runDate event) :
    RowValid runDate (P.historyRow before event) event ↔
      (event.eventType = "opportunity_created" →
          (P.previousCell before "StageName").getD none = none) ∧
        (event.eventType = "opportunity_stage_changed" →
          (P.previousCell before "StageName").getD none ≠ none ∧
            (P.previousCell before "StageName").getD none ≠
              payloadGet event.payload "StageName") := by
  obtain ⟨_, hopportunity, hprevious, hstage, hdate, hstamp⟩ :=
    historyRow_of_writesHistory (P := P) hwrites before
  have hmodified : payloadGet event.payload "LastModifiedDate" =
      some (.text (CrmDailyPlanner.timestamp runDate)) := by
    rw [payloadGet, hwrites.modified, Option.getD_some]
  constructor
  · intro hvalid
    rw [← hprevious, ← hstage]
    exact ⟨hvalid.first, hvalid.moved⟩
  · rintro ⟨hfirst, hmoved⟩
    refine ⟨hopportunity, hstage, ?_, ?_, ?_, ?_, ?_⟩
    · rw [hdate, hmodified]
    · rw [hstamp, hwrites.modstamp, Option.getD_some]
    · rw [hprevious]
      exact hfirst
    · rw [hprevious, hstage]
      exact hmoved
    · rw [hdate, startsWith, List.isPrefixOf_iff_prefix, cellText, CrmDailyPlanner.timestamp,
        String.toList_append]
      exact List.prefix_append _ _

/-- The partition of a published plan has no problem exactly if every opportunity
moves on from its current row. -/
theorem published_valid_iff {s : CrmStore} {ties : P.Ties} {parts : CrmParts}
    {tagged : List (CrmObject × SourceEvent)} (htagged : events.mapM tagEvent = .ok tagged)
    (hnone : s.manifests runDate = none) (hok : (P.publish ties runDate events s).2 = .ok parts)
    (hcolumn : "StageName" ∈ P.schema .opportunities)
    (hwrites : ∀ event ∈ events, event.inHistory = true →
      CrmDailyPlanner.WritesHistory runDate event)
    (hnodup : ((historyEvents events).map SourceEvent.eventId).Nodup)
    (hhistory : historyEvents events ≠ [])
    (hreader : ∀ ties disk events, reader (P.historyRows ties disk events) = .ok true) :
    (P.validateHistoryPartition reader runDate events
        (P.published ties runDate events s)).problems = [] ↔
      P.MovesOn ties s.disk events := by
  obtain ⟨hread, hmanifest⟩ := published_history htagged hnone hok hhistory
  obtain ⟨haccepted, _⟩ :=
    (P.publish_eq_ok_iff ties runDate htagged hnone _ _).mp (Prod.ext rfl hok)
  have hfilter := filter_groupOf_eq_historyEvents htagged
  have hrows : P.historyRows ties s.disk (groupOf tagged .opportunities) =
      (historyEvents events).map (fun event =>
        P.historyRow (P.currentRow ties s.disk .opportunities event.entityId) event) := by
    rw [historyRows, hfilter]
  rw [problems_eq_nil_iff hhistory, hmanifest, manifestProblems_published htagged hhistory, hread]
  simp only [true_and, Option.some.injEq, exists_eq_left', hreader]
  rw [rowsProblems_eq_nil_iff hnodup, hrows]
  have hhistoryRow : ∀ event ∈ historyEvents events,
      CrmDailyPlanner.WritesHistory runDate event := by
    intro event hevent
    obtain ⟨hmem, hin⟩ := (mem_historyEvents hwrites).mp hevent
    exact hwrites event hmem hin
  have hids : (((historyEvents events).map (fun event =>
      P.historyRow (P.currentRow ties s.disk .opportunities event.entityId) event)).map
        (fun row => cellText (row "Id"))) = (historyEvents events).map SourceEvent.eventId := by
    rw [List.map_map]
    apply List.map_congr_left
    intro event hevent
    rw [Function.comp_apply, (historyRow_of_writesHistory (hhistoryRow event hevent) _).1]
    rfl
  -- a creation has no current row
  have hfirst : ∀ event ∈ historyEvents events, event.eventType = "opportunity_created" →
      P.currentRow ties s.disk .opportunities event.entityId = none := by
    intro event hevent htype
    rw [← hfilter] at hevent
    have hgroup := List.mem_of_mem_filter hevent
    have hknown := (haccepted .opportunities
      ((groupOf_ne_nil_iff tagged _).mp (List.ne_nil_of_mem hgroup))).known event hgroup
    have hcreate : event.isCreate = true := by
      rw [SourceEvent.isCreate, htype]
      decide +kernel
    exact (P.currentRow_eq_none_iff ties _ _ _).mpr (hknown.mp hcreate)
  rw [hids]
  constructor
  · rintro ⟨_, hchecked⟩ event hevent htype
    have hmem := (mem_historyEvents hwrites).mpr ⟨hevent, by simp [SourceEvent.inHistory, htype]⟩
    have hvalid := hchecked _ (List.mem_map_of_mem hmem) event hmem
      (by rw [(historyRow_of_writesHistory (hhistoryRow event hmem) _).1]; rfl)
    obtain ⟨hprevious, hmoved⟩ :=
      ((rowValid_historyRow_iff (hhistoryRow event hmem)).mp hvalid).2 htype
    cases hcurrent : P.currentRow ties s.disk .opportunities event.entityId with
    | none =>
        rw [hcurrent] at hprevious
        exact absurd rfl hprevious
    | some r =>
        rw [hcurrent, previousCell_some, if_pos hcolumn, Option.getD_some] at hprevious hmoved
        exact ⟨r, rfl, hprevious, hmoved⟩
  · intro hmoves
    refine ⟨List.Perm.refl _, ?_⟩
    intro row hrow event hevent hid
    obtain ⟨event', hevent', rfl⟩ := List.mem_map.mp hrow
    rw [(historyRow_of_writesHistory (hhistoryRow event' hevent') _).1] at hid
    obtain rfl : event = event' := List.inj_on_of_nodup_map hnodup hevent hevent' hid
    rw [rowValid_historyRow_iff (hhistoryRow event hevent)]
    refine ⟨fun htype => ?_, fun htype => ?_⟩
    · rw [hfirst event hevent htype]
      rfl
    · obtain ⟨r, hcurrent, hprevious, hmoved⟩ :=
        hmoves event ((mem_historyEvents hwrites).mp hevent).1 htype
      rw [hcurrent, previousCell_some, if_pos hcolumn, Option.getD_some]
      exact ⟨hprevious, hmoved⟩

end Validator

/-! ## A planned day -/

section Planned

variable {day : P.CrmDay} {s : CrmStore} {snapshot : CrmSnapshot} {events : List SourceEvent}

/-- The history events of a plan have distinct ids. -/
theorem nodup_eventIds (hsound : P.SoundTree s.disk) (hread : day.snapshot s = some snapshot)
    (hplan : day.plan snapshot = some events)
    (hdigest : ∀ date type id payload type' id' payload',
      day.digest date type id payload = day.digest date type' id' payload' →
        type = type' ∧ id = id') :
    ((historyEvents events).map SourceEvent.eventId).Nodup := by
  obtain ⟨first, created, selected, staged, tagged, hcreated, hselected, hstaged, htagged, _,
    hopportunities⟩ := exists_groups hplan
  obtain ⟨_, hsampled⟩ := sampled_opportunities hsound hread
  have hnodup := nodup_created (hcreated .opportunities).2
  have hnodup' := nodup_staged hsampled hselected hstaged
  have hcreates : ∀ event ∈ created .opportunities, event.isCreate = true := by
    intro event hevent
    obtain ⟨_, _, hnew⟩ := CrmDailyPlanner.exists_left_of_forall₂ (hcreated .opportunities).2 hevent
    exact hnew.isCreate
  have hchanges : ∀ event ∈ staged, event.isCreate = false := by
    intro event hevent
    obtain ⟨_, _, hstage⟩ := CrmDailyPlanner.exists_left_of_forall₂ hstaged hevent
    exact hstage.isCreate
  have hgroup : historyEvents events =
      (created .opportunities ++ staged).filter SourceEvent.inHistory := by
    rw [← filter_groupOf_eq_historyEvents htagged, hopportunities]
  -- an event is known by its type and its record
  have hsame : ∀ event ∈ created .opportunities ++ staged,
      ∀ event' ∈ created .opportunities ++ staged,
        event.eventType = event'.eventType → event.entityId = event'.entityId →
          event = event' := by
    intro event hevent event' hevent' htype hentity
    have hkind : event.isCreate = event'.isCreate := by
      rw [SourceEvent.isCreate, SourceEvent.isCreate, htype]
    rcases List.mem_append.mp hevent with hmem | hmem <;>
      rcases List.mem_append.mp hevent' with hmem' | hmem'
    · exact List.inj_on_of_nodup_map hnodup hmem hmem' hentity
    · rw [hcreates event hmem, hchanges event' hmem'] at hkind
      cases hkind
    · rw [hchanges event hmem, hcreates event' hmem'] at hkind
      cases hkind
    · exact List.inj_on_of_nodup_map hnodup' hmem hmem' hentity
  have hall : (created .opportunities ++ staged).Nodup := by
    refine List.Nodup.append (hnodup.of_map _) (hnodup'.of_map _) ?_
    intro event hmem hmem'
    have hkind := hcreates event hmem
    rw [hchanges event hmem'] at hkind
    cases hkind
  rw [hgroup]
  apply List.Nodup.map_on ?_ (hall.filter _)
  intro event hevent event' hevent' hid
  have hmem : event ∈ events := List.mem_of_mem_filter (hgroup ▸ hevent)
  have hmem' : event' ∈ events := List.mem_of_mem_filter (hgroup ▸ hevent')
  rw [CrmDailyPlanner.eventId_of_mem_plan hplan hmem,
    CrmDailyPlanner.eventId_of_mem_plan hplan hmem'] at hid
  obtain ⟨htype, hentity⟩ := hdigest _ _ _ _ _ _ _ hid
  exact hsame event (List.mem_of_mem_filter hevent) event' (List.mem_of_mem_filter hevent')
    htype hentity

/-- For every plan on a sound tree: the rows of a partition without a problem correspond
to the history events.  The partition of an uninterrupted publication has no problem
exactly if every opportunity that the plan moves on has, for the publisher, a stage that
is not the new one. -/
theorem validator_agrees_iff (hsound : P.SoundTree s.disk)
    (hread : day.snapshot s = some snapshot) (hplan : day.plan snapshot = some events)
    (hdigest : ∀ date type id payload type' id' payload',
      day.digest date type id payload = day.digest date type' id' payload' →
        type = type' ∧ id = id')
    {reader : PartitionReader}
    (hreader : ∀ ties disk events, reader (P.historyRows ties disk events) = .ok true) :
    (∀ t, (P.validateHistoryPartition reader day.runDate events t).problems = [] →
        P.Corresponds ((t.disk.read (P.historyTarget day.runDate)).getD []) events) ∧
      ∀ ties parts, s.manifests day.runDate = none →
        (P.publish ties day.runDate events s).2 = .ok parts →
        ((P.validateHistoryPartition reader day.runDate events
            (P.published ties day.runDate events s)).problems = [] ↔
          P.MovesOn ties s.disk events) := by
  have hwrites : ∀ event ∈ events, event.inHistory = true →
      CrmDailyPlanner.WritesHistory day.runDate event := fun event hevent hin =>
    CrmDailyPlanner.writesHistory_of_mem_plan hplan hevent hin
  have hnodup := nodup_eventIds hsound hread hplan hdigest
  obtain ⟨event, hevent, hin⟩ := CrmDailyPlanner.exists_created_of_plan hplan
  have hhistory : historyEvents events ≠ [] :=
    List.ne_nil_of_mem ((mem_historyEvents hwrites).mpr ⟨hevent, hin⟩)
  obtain ⟨hcolumns, _⟩ := CrmSnapshotReader.exists_rows_of_read hread
  have hcolumn := hcolumns .opportunities "StageName" (by simp [namedColumns])
  refine ⟨fun t hvalid => corresponds_of_valid hwrites hnodup hhistory hvalid, ?_⟩
  intro ties parts hnone hok
  obtain ⟨tagged, htagged⟩ := P.exists_tagged_of_publish_ok hok
  exact published_valid_iff htagged hnone hok hcolumn hwrites hnodup hhistory hreader

end Planned

end CrmDeltaPublisher

/-! ## A seed that is newer than the partitions -/

/-- A day whose event ids spell the type and the record. -/
def spelledDay (runDate : String) : seedPublisher.CrmDay :=
  { firstOutcomes runDate with digest := fun _ type id _ => SpelledTexts.spellAll [type, id] }

theorem spelledDay_digest (runDate date type id : String) (payload : Payload)
    (type' id' : String) (payload' : Payload)
    (h : (spelledDay runDate).digest date type id payload =
      (spelledDay runDate).digest date type' id' payload') : type = type' ∧ id = id' := by
  have htexts := SpelledTexts.spellAll_injective h
  exact ⟨(List.cons.inj htexts).1, List.head_eq_of_cons_eq (List.cons.inj htexts).2⟩

theorem validator_agrees_iff_ordinary :
    ∃ snapshot events, (spelledDay "2026-07-25").snapshot ordinaryStore = some snapshot ∧
      (spelledDay "2026-07-25").plan snapshot = some events ∧
      (∀ t, (seedPublisher.validateHistoryPartition openPartition "2026-07-25" events t).problems =
          [] → seedPublisher.Corresponds
            ((t.disk.read (seedPublisher.historyTarget "2026-07-25")).getD []) events) ∧
        ∀ ties parts, ordinaryStore.manifests "2026-07-25" = none →
          (seedPublisher.publish ties "2026-07-25" events ordinaryStore).2 = .ok parts →
          ((seedPublisher.validateHistoryPartition openPartition "2026-07-25" events
              (seedPublisher.published ties "2026-07-25" events ordinaryStore)).problems = [] ↔
            seedPublisher.MovesOn ties ordinaryStore.disk events) := by
  obtain ⟨snapshot, events, hsnapshot, hplan⟩ :=
    exists_plan (spelledDay "2026-07-25") ordinaryStore (by decide +kernel)
  refine ⟨snapshot, events, hsnapshot, hplan, ?_⟩
  have hsound : seedPublisher.SoundTree ordinaryStore.disk :=
    soundTree_storeOf (by decide) (by intro object; cases object <;> decide +kernel)
  exact CrmDeltaPublisher.validator_agrees_iff hsound hsnapshot hplan
    (spelledDay_digest "2026-07-25") (fun _ _ _ => rfl)

/-- A record of a numbered id, as of a date. -/
def numberedRow (object : CrmObject) (stage date : String) (i : Nat) : Row :=
  Row.ofCells [("Id", .text (newId object i)), ("OwnerId", .text "REP-0001"),
    ("StageName", .text stage), ("LastModifiedDate", .text (CrmDailyPlanner.timestamp date)),
    ("SystemModstamp", .text (CrmDailyPlanner.timestamp date))]

/-- Two thousand opportunities whose seed was made the day after a partition. -/
def reseededStore : CrmStore where
  disk :=
    (((⟨∅, ∅, 0⟩ : Disk).replace (seedPublisher.baseSource .accounts)
      [numberedRow .accounts "" "2026-07-24" 0]).replace
        (seedPublisher.baseSource .opportunities)
        ((List.range 2000).map (numberedRow .opportunities "Qualification" "2026-07-24"))).replace
      (seedPublisher.deltaTarget .opportunities "2026-07-23")
      ((List.range 2000).map (numberedRow .opportunities "Prospecting" "2026-07-23"))
  manifests := fun _ => none

theorem read_reseeded_accounts :
    reseededStore.disk.read (seedPublisher.baseSource .accounts) =
      some [numberedRow .accounts "" "2026-07-24" 0] := by
  rw [reseededStore, Disk.read_replace_of_ne _ _ (by decide),
    Disk.read_replace_of_ne _ _ (by decide), Disk.read_replace_self]

theorem read_reseeded_opportunities :
    reseededStore.disk.read (seedPublisher.baseSource .opportunities) =
      some ((List.range 2000).map (numberedRow .opportunities "Qualification" "2026-07-24")) := by
  rw [reseededStore, Disk.read_replace_of_ne _ _ (by decide), Disk.read_replace_self]

theorem deltaRows_reseeded :
    seedPublisher.deltaRows reseededStore.disk .accounts = [] ∧
    seedPublisher.deltaRows reseededStore.disk .opportunities =
      (List.range 2000).map (numberedRow .opportunities "Prospecting" "2026-07-23") := by
  have hpaths : seedPublisher.reader.deltaPaths reseededStore.disk .accounts = [] ∧
      seedPublisher.reader.deltaPaths reseededStore.disk .opportunities =
        [seedPublisher.deltaTarget .opportunities "2026-07-23"] := by
    decide +kernel
  constructor
  · rw [CrmDeltaPublisher.deltaRows, hpaths.1, List.flatMap_nil]
  · rw [CrmDeltaPublisher.deltaRows, hpaths.2, List.flatMap_singleton, reseededStore,
      Disk.read_replace_self, Option.getD_some]

theorem nodup_numberedIds (object : CrmObject) (count : Nat) :
    ((List.range count).map (fun i : Nat => some (Value.text (newId object i)))).Nodup := by
  apply List.Nodup.map _ List.nodup_range
  intro i j hsame
  have hid : newId object i = newId object j := by
    simpa using hsame
  exact Int.ofNat_inj.mp (newId_injective object hid)

theorem soundTree_reseeded : seedPublisher.SoundTree reseededStore.disk := by
  have hone : ∀ (object : CrmObject) (stage date : String) (count : Nat),
      OneRowPerId ((List.range count).map (numberedRow object stage date)) := by
    intro object stage date count
    refine ⟨?_, ?_⟩
    · intro r hr
      obtain ⟨i, _, rfl⟩ := List.mem_map.mp hr
      exact ⟨newId object i, rfl⟩
    · rw [List.map_map]
      exact nodup_numberedIds object count
  refine ⟨?_, ?_⟩
  · intro object rows hread
    cases object with
    | accounts =>
        rw [read_reseeded_accounts, Option.some.injEq] at hread
        subst hread
        exact hone .accounts "" "2026-07-24" 1
    | opportunities =>
        rw [read_reseeded_opportunities, Option.some.injEq] at hread
        subst hread
        exact hone .opportunities "Qualification" "2026-07-24" 2000
  · intro object r hr
    cases object with
    | accounts =>
        rw [deltaRows_reseeded.1] at hr
        cases hr
    | opportunities =>
        rw [deltaRows_reseeded.2] at hr
        exact (hone .opportunities "Prospecting" "2026-07-23" 2000).text r hr

/-- The planner sees the opportunities of the partition, all of them. -/
theorem relation_reseeded :
    ∃ rows, seedPublisher.reader.relation plainEngine.rank reseededStore.disk
        (seedPublisher.baseSource .opportunities) .opportunities = some rows ∧
      (∀ r ∈ rows, ∃ i < 2000, r = numberedRow .opportunities "Prospecting" "2026-07-23" i) ∧
      2000 ≤ rows.length := by
  have hdeltas := deltaRows_reseeded.2
  let base := (List.range 2000).map (numberedRow .opportunities "Qualification" "2026-07-24")
  let partition := (List.range 2000).map (numberedRow .opportunities "Prospecting" "2026-07-23")
  have hrelation : seedPublisher.reader.relation plainEngine.rank reseededStore.disk
      (seedPublisher.baseSource .opportunities) .opportunities =
        some (CrmDeltaPublisher.relationRows plainEngine.rank base partition) := by
    rw [← show _ = partition from hdeltas]
    exact seedPublisher.reader.relation_eq_some plainEngine.rank read_reseeded_opportunities
  refine ⟨_, hrelation, ?_, ?_⟩
  · intro r hr
    rcases List.mem_append.mp hr with hkept | hnewest
    · obtain ⟨hbase, hfree⟩ := List.mem_filter.mp hkept
      obtain ⟨i, hi, rfl⟩ := List.mem_map.mp hbase
      have hdelta : (ofId partition (newId .opportunities i)).Nonempty :=
        ⟨_, List.mem_map_of_mem hi, rfl⟩
      have hany := (CrmDeltaPublisher.any_latestDelta_eq_true_iff (E := plainEngine.rank) _).mpr
        hdelta
      rw [Bool.not_eq_true', ← Bool.not_eq_true] at hfree
      exact absurd hany hfree
    · obtain ⟨i, hi, rfl⟩ := List.mem_map.mp (isNewest_of_mem_newestPerKey _ hnewest).1
      exact ⟨i, List.mem_range.mp hi, rfl⟩
  · have hids : (List.range 2000).map (fun i : Nat =>
        some (Value.text (newId .opportunities i))) ⊆
        (CrmDeltaPublisher.relationRows plainEngine.rank base partition).map (fun r => r "Id") := by
      intro id hid
      obtain ⟨i, hi, rfl⟩ := List.mem_map.mp hid
      have hstored : seedPublisher.storedRows reseededStore.disk .opportunities
          (newId .opportunities i) ≠ [] := by
        apply List.ne_nil_of_mem
        rw [CrmDeltaPublisher.mem_storedRows_iff, hdeltas]
        exact Or.inr ⟨List.mem_map_of_mem hi, rfl⟩
      obtain ⟨r, hr, hid⟩ := (CrmDeltaPublisher.exists_mem_relation_iff hrelation _).mpr hstored
      exact List.mem_map.mpr ⟨r, hr, hid⟩
    have hlength := (List.subperm_of_subset (nodup_numberedIds .opportunities 2000) hids).length_le
    rwa [List.length_map, List.length_map, List.length_range] at hlength

/-- The largest suffix of numbered ids. -/
theorem largestSuffix_range {engine : SnapshotEngine} {object : CrmObject} {rows : List Row}
    {count : Nat} (hne : rows ≠ [])
    (hrows : ∀ r ∈ rows, ∃ i : Nat, i < count ∧ r "Id" = some (.text (newId object i)))
    (hcount : count ≤ bigintBound) :
    0 ≤ engine.largestSuffix rows ∧ engine.largestSuffix rows < count := by
  have hsuffix : ∀ r ∈ rows, ∃ i : Nat, i < count ∧ engine.suffixNumber r = some (i : Int) := by
    intro r hr
    obtain ⟨i, hi, hid⟩ := hrows r hr
    have hlower : -bigintBound ≤ (i : Int) := by
      rw [bigintBound]
      omega
    exact ⟨i, hi, engine.suffixNumber_newId hid hlower (by omega)⟩
  obtain ⟨r, hr⟩ := List.exists_mem_of_ne_nil rows hne
  obtain ⟨i, _, hi⟩ := hsuffix r hr
  have hpositive := SnapshotEngine.le_largestSuffix hr hi
  refine ⟨(Int.natCast_nonneg i).trans hpositive, ?_⟩
  rw [SnapshotEngine.largestSuffix]
  cases hmax : (rows.filterMap engine.suffixNumber).max? with
  | none =>
      rw [List.max?_eq_none_iff] at hmax
      exact absurd (List.mem_filterMap.mpr ⟨r, hr, hi⟩) (hmax ▸ List.not_mem_nil)
  | some m =>
      obtain ⟨r', hr', hm⟩ := List.mem_filterMap.mp (List.max?_mem hmax)
      obtain ⟨j, hj, hsame⟩ := hsuffix r' hr'
      rw [hsame, Option.some.injEq] at hm
      rw [Option.getD_some, ← hm]
      exact_mod_cast hj

theorem relation_reseeded_accounts :
    seedPublisher.reader.relation plainEngine.rank reseededStore.disk
        (seedPublisher.baseSource .accounts) .accounts =
      some [numberedRow .accounts "" "2026-07-24" 0] := by
  have hrelation : seedPublisher.reader.relation plainEngine.rank reseededStore.disk
      (seedPublisher.baseSource .accounts) .accounts =
        some (CrmDeltaPublisher.relationRows plainEngine.rank
          [numberedRow .accounts "" "2026-07-24" 0] []) := by
    rw [← deltaRows_reseeded.1]
    exact seedPublisher.reader.relation_eq_some plainEngine.rank read_reseeded_accounts
  exact hrelation

/-- What the planner has of the reseeded store. -/
structure Reseeded (snapshot : CrmSnapshot) : Prop where
  prospects : ∀ r ∈ snapshot.opportunities, ∃ i : Nat, i < 2000 ∧
    r "Id" = some (.text (newId .opportunities i)) ∧ r "StageName" = some (.text "Prospecting")
  sampled : 3 ≤ snapshot.opportunities.length
  population : ∃ population, snapshot.openOpportunityPopulation = some population ∧
    2000 ≤ population
  accounts : snapshot.accountPopulation = some 1
  next : ∀ object, ∃ n, snapshot.nextSequence object = some n ∧ 0 < n ∧ n ≤ 2000

theorem exists_snapshot_reseeded :
    ∃ snapshot, (spelledDay "2026-07-25").snapshot reseededStore = some snapshot ∧
      Reseeded snapshot := by
  obtain ⟨rows, hrelation, hrows, hlength⟩ := relation_reseeded
  have haccountNext : plainEngine.nextId [numberedRow .accounts "" "2026-07-24" 0] = some 1 := by
    decide +kernel
  have hnonempty : rows ≠ [] := List.ne_nil_of_length_pos (by omega)
  have hnumbered : ∀ r ∈ rows, ∃ i : Nat, i < 2000 ∧
      r "Id" = some (.text (newId .opportunities i)) := by
    intro r hr
    obtain ⟨i, hi, rfl⟩ := hrows r hr
    exact ⟨i, hi, rfl⟩
  obtain ⟨hlower, hupper⟩ : 0 ≤ plainEngine.largestSuffix rows ∧
      plainEngine.largestSuffix rows < (2000 : Nat) :=
    largestSuffix_range hnonempty hnumbered (by decide)
  have hnext : plainEngine.nextId rows = some (plainEngine.largestSuffix rows + 1) := by
    rw [SnapshotEngine.nextId, if_pos]
    rw [bigintBound]
    omega
  have hopen : rows.filter isOpen = rows := by
    rw [List.filter_eq_self]
    intro r hr
    obtain ⟨i, _, rfl⟩ := hrows r hr
    rfl
  have hcolumns : ∀ object ∈ [CrmObject.accounts, .opportunities],
      ∀ column ∈ namedColumns object, column ∈ seedPublisher.schema object := by
    intro object _ column hcolumn
    exact List.mem_append_left _ hcolumn
  let accounts := [numberedRow .accounts "" "2026-07-24" 0]
  let snapshot : CrmSnapshot := {
    accounts :=
      (accounts.take (min 1 (max 100 (noStalls.proportionalDailyVolume 1 * 2)))).map
        (Row.select (namedColumns .accounts))
    opportunities :=
      (rows.take (min rows.length (noStalls.proportionalDailyVolume rows.length))).map
        (Row.select (namedColumns .opportunities))
    accountPopulation := some 1
    openOpportunityPopulation := some rows.length
    accountNextSequence := some 1
    opportunityNextSequence := some (plainEngine.largestSuffix rows + 1)
    ownerIds := (accounts.filterMap (fun r => r "OwnerId")).dedup.take 1024 }
  have hread : (spelledDay "2026-07-25").snapshot reseededStore = some snapshot := by
    rw [CrmDeltaPublisher.CrmDay.snapshot, CrmSnapshotReader.read, if_pos hcolumns]
    simp only [spelledDay, firstOutcomes, relation_reseeded_accounts, hrelation, haccountNext,
      hnext, hopen, Option.bind_eq_bind, Option.bind_some]
    rfl
  refine ⟨snapshot, hread, ?_, ?_, ⟨rows.length, rfl, hlength⟩, rfl, ?_⟩
  · intro r hr
    obtain ⟨row, hrow, rfl⟩ := List.mem_map.mp hr
    obtain ⟨i, hi, rfl⟩ := hrows row (List.mem_of_mem_take hrow)
    exact ⟨i, hi, rfl, rfl⟩
  · have hvolume := three_le_noStalls_volume hlength
    rw [List.length_map, List.length_take]
    omega
  · intro object
    cases object with
    | accounts => exact ⟨1, rfl, by omega, by omega⟩
    | opportunities => exact ⟨_, rfl, by omega, by omega⟩

theorem createdCount_reseeded {snapshot : CrmSnapshot} (h : Reseeded snapshot)
    (object : CrmObject) :
    0 < (spelledDay "2026-07-25").planner.createdCount snapshot object ∧
      (spelledDay "2026-07-25").planner.createdCount snapshot object ≤ 2 := by
  have haccounts : (spelledDay "2026-07-25").planner.accountCount snapshot = 1 := by
    rw [CrmDailyPlanner.accountCount, h.accounts]
    exact (by decide +kernel : noStalls.proportionalDailyVolume 1 = 1)
  have hopportunities : 0 < opportunityCount 1 ∧ opportunityCount 1 ≤ 2 := by
    decide +kernel
  cases object with
  | accounts =>
      rw [CrmDailyPlanner.createdCount, haccounts]
      omega
  | opportunities =>
      rw [CrmDailyPlanner.createdCount, haccounts]
      exact hopportunities

theorem firstSequence_reseeded {snapshot : CrmSnapshot} (h : Reseeded snapshot)
    (object : CrmObject) :
    ∃ n, CrmDailyPlanner.firstSequence (spelledDay "2026-07-25").inputs.int snapshot object =
        some n ∧ snapshot.nextSequence object = some n ∧ 0 < n ∧ n ≤ 2000 := by
  obtain ⟨n, hnext, hpositive, hle⟩ := h.next object
  refine ⟨n, ?_, hnext, hpositive, hle⟩
  rw [CrmDailyPlanner.firstSequence, hnext]
  exact if_pos (by omega)

theorem numbersFree_reseeded {snapshot : CrmSnapshot} (h : Reseeded snapshot) :
    (spelledDay "2026-07-25").NumbersFree reseededStore.disk snapshot := by
  intro object first hsequence n hlower hupper hbound
  obtain ⟨next, hfirst, hnext, hpositive, hle⟩ := firstSequence_reseeded h object
  rw [hsequence, Option.some.injEq] at hfirst
  obtain ⟨_, htwo⟩ := createdCount_reseeded h object
  rcases hbound with hlarge | ⟨hzero, _⟩
  · rw [bigintBound] at hlarge
    omega
  · rw [hnext, Option.some.injEq] at hzero
    omega

theorem exists_plan_reseeded {snapshot : CrmSnapshot} (h : Reseeded snapshot) :
    ∃ events, (spelledDay "2026-07-25").plan snapshot = some events := by
  have hfirst : ∀ object, ∃ n, CrmDailyPlanner.firstSequence
      (spelledDay "2026-07-25").inputs.int snapshot object = some n := fun object =>
    (firstSequence_reseeded h object).imp (fun _ hn => hn.1)
  have hdates : ∀ days, ∃ text,
      (spelledDay "2026-07-25").inputs.daysLater "2026-07-25" days = some text := fun _ => ⟨_, rfl⟩
  exact CrmDailyPlanner.exists_plan hfirst hdates (createdCount_reseeded h .accounts).1

/-- Some opportunity of the partition is to move on. -/
theorem exists_change_reseeded {snapshot : CrmSnapshot} {events : List SourceEvent}
    (hread : (spelledDay "2026-07-25").snapshot reseededStore = some snapshot)
    (h : Reseeded snapshot) (hplan : (spelledDay "2026-07-25").plan snapshot = some events) :
    ∃ event ∈ events, event.eventType = "opportunity_stage_changed" ∧
      ∃ i : Nat, i < 2000 ∧ event.entityId = newId .opportunities i ∧
        payloadGet event.payload "StageName" = some (.text "Qualification") := by
  let planner := (spelledDay "2026-07-25").planner
  have hids : ((snapshot.opportunities.filter isOpen).map (fun r => cellText (r "Id"))).Nodup :=
    (CrmDeltaPublisher.sampled_opportunities soundTree_reseeded hread).2.sublist
      (List.filter_sublist.map _)
  have hopen : snapshot.opportunities.filter isOpen = snapshot.opportunities := by
    rw [List.filter_eq_self]
    intro r hr
    obtain ⟨i, _, _, hstage⟩ := h.prospects r hr
    rw [isOpen, hstage]
    decide
  obtain ⟨population, hpopulation, hmany⟩ := h.population
  have hsampled := h.sampled
  have hnonempty : snapshot.opportunities.filter isOpen ≠ [] := by
    rw [hopen]
    exact List.ne_nil_of_length_pos (by omega)
  obtain ⟨_, hchanged⟩ := countOf_stageEvents noStalls firstRows planner.digest "2026-07-25"
    snapshot.openOpportunityPopulation hids hnonempty
  rw [hopen, hpopulation, Option.getD_some] at hchanged
  have hthree : 3 ≤ min (noStalls.proportionalDailyVolume population)
      snapshot.opportunities.length := le_min (three_le_noStalls_volume hmany) hsampled
  generalize min (noStalls.proportionalDailyVolume population)
    snapshot.opportunities.length = selected at hchanged hthree
  have hstalled : 2 * max 1 (noStalls.stalledOpportunities selected) < selected :=
    stalledOpportunities_lt hthree
  have hsome : 0 < countOf "opportunity_stage_changed" (planner.stageEvents "2026-07-25"
      snapshot.opportunities (some population)) := by
    refine lt_of_lt_of_eq ?_ hchanged.symm
    omega
  obtain ⟨event, hevent, htype⟩ := List.countP_pos_iff.mp hsome
  rw [decide_eq_true_eq] at htype
  obtain ⟨r, hr, _, rfl⟩ := planner.exists_row_of_stageChanged hevent htype
  obtain ⟨i, hi, hid, hstage⟩ := h.prospects r hr
  refine ⟨_, ?_, htype, i, hi, ?_, ?_⟩
  · obtain ⟨_, _, _, rfl⟩ := CrmDailyPlanner.exists_parts_of_plan hplan
    rw [← hpopulation] at hevent
    exact List.mem_append_right _ hevent
  · exact congrArg cellText hid
  · rw [payloadGet, planner.lookup_stageName_stageChanged "2026-07-25" hstage rfl,
      Option.getD_some]

/-- The publisher finds the row of the seed. -/
theorem currentRow_reseeded (ties : seedPublisher.Ties) {i : Nat} (hi : i < 2000) :
    seedPublisher.currentRow ties reseededStore.disk .opportunities (newId .opportunities i) =
      some (numberedRow .opportunities "Qualification" "2026-07-24" i) := by
  have hmem := List.mem_range.mpr hi
  have hbase : seedPublisher.baseRows reseededStore.disk .opportunities =
      (List.range 2000).map (numberedRow .opportunities "Qualification" "2026-07-24") := by
    rw [CrmDeltaPublisher.baseRows, read_reseeded_opportunities, Option.getD_some]
  have hstored : numberedRow .opportunities "Qualification" "2026-07-24" i ∈
      seedPublisher.storedRows reseededStore.disk .opportunities (newId .opportunities i) := by
    rw [CrmDeltaPublisher.mem_storedRows_iff, hbase]
    exact Or.inl ⟨List.mem_map_of_mem hmem, rfl⟩
  obtain ⟨m, hm⟩ := (ties .opportunities (newId .opportunities i)).exists_pick hstored
  rw [CrmDeltaPublisher.currentRow, hm]
  have hnewest := (ties .opportunities (newId .opportunities i)).le_pick hm _ hstored
  have hstoredM := (ties .opportunities (newId .opportunities i)).pick_mem hm
  rw [CrmDeltaPublisher.mem_storedRows_iff, hbase, deltaRows_reseeded.2] at hstoredM
  have hsame : ∀ {stage date : String} {j : Nat}, numberedRow .opportunities stage date j "Id" =
      some (.text (newId .opportunities i)) → j = i := by
    intro stage date j hid
    have hnewId : newId .opportunities j = newId .opportunities i :=
      Value.text.inj (Option.some.inj hid)
    exact Int.ofNat_inj.mp (newId_injective .opportunities hnewId)
  rcases hstoredM with ⟨hm, hid⟩ | ⟨hm, hid⟩
  · obtain ⟨j, _, rfl⟩ := List.mem_map.mp hm
    rw [hsame hid]
  · obtain ⟨j, _, rfl⟩ := List.mem_map.mp hm
    have holder : ¬ ((.text (CrmDailyPlanner.timestamp "2026-07-24") : Value) : WithBot Value) ≤
        (.text (CrmDailyPlanner.timestamp "2026-07-23") : Value) := by
      rw [WithBot.coe_le_coe]
      decide +kernel
    exact absurd hnewest holder

/-- Problem-free partitions correspond to the history events, and an uninterrupted
publication of a plan leaves no problem. -/
def HistoriesAgree : Prop :=
  ∀ (P : CrmDeltaPublisher) (day : P.CrmDay) (s : CrmStore) (snapshot : CrmSnapshot)
    (events : List SourceEvent) (reader : PartitionReader), P.SoundTree s.disk →
    day.snapshot s = some snapshot → day.plan snapshot = some events →
    (∀ date type id payload type' id' payload',
      day.digest date type id payload = day.digest date type' id' payload' →
        type = type' ∧ id = id') →
    (∀ ties disk events, reader (P.historyRows ties disk events) = .ok true) →
    (∀ t, (P.validateHistoryPartition reader day.runDate events t).problems = [] →
      P.Corresponds ((t.disk.read (P.historyTarget day.runDate)).getD []) events) ∧
    ∀ ties parts, s.manifests day.runDate = none →
      (P.publish ties day.runDate events s).2 = .ok parts →
      (P.validateHistoryPartition reader day.runDate events
        (P.published ties day.runDate events s)).problems = []

/-- The planner moves an opportunity of the partition on to the stage that the seed,
which the publisher reads, has already. -/
theorem reseeded_histories_disagree : ¬ HistoriesAgree := by
  intro hall
  obtain ⟨snapshot, hread, hreseeded⟩ := exists_snapshot_reseeded
  obtain ⟨events, hplan⟩ := exists_plan_reseeded hreseeded
  let day := spelledDay "2026-07-25"
  have hpublishable := (CrmDeltaPublisher.publishable_iff soundTree_reseeded hread hplan).mpr
    (numbersFree_reseeded hreseeded)
  obtain ⟨parts, hok⟩ := hpublishable.succeeds rfl day.ties
  obtain ⟨_, hvalid⟩ := hall seedPublisher day reseededStore snapshot events openPartition
    soundTree_reseeded hread hplan (spelledDay_digest "2026-07-25") (fun _ _ _ => rfl)
  have hwrites : ∀ event ∈ events, event.inHistory = true →
      CrmDailyPlanner.WritesHistory "2026-07-25" event := fun event hevent hin =>
    CrmDailyPlanner.writesHistory_of_mem_plan hplan hevent hin
  obtain ⟨event, hevent, htype, i, hi, hid, hstage⟩ := exists_change_reseeded hread hreseeded hplan
  have hhistory : historyEvents events ≠ [] :=
    List.ne_nil_of_mem ((CrmDeltaPublisher.mem_historyEvents hwrites).mpr
      ⟨hevent, by simp [SourceEvent.inHistory, htype]⟩)
  obtain ⟨tagged, htagged⟩ := seedPublisher.exists_tagged_of_publish_ok hok
  have hmoves := (CrmDeltaPublisher.published_valid_iff htagged rfl hok (by decide) hwrites
    (CrmDeltaPublisher.nodup_eventIds soundTree_reseeded hread hplan
      (spelledDay_digest "2026-07-25")) hhistory (fun _ _ _ => rfl)).mp
    (hvalid day.ties parts rfl hok)
  obtain ⟨r, hcurrent, _, hmoved⟩ := hmoves event hevent htype
  rw [hid, currentRow_reseeded day.ties hi, Option.some.injEq] at hcurrent
  rw [← hcurrent, hstage] at hmoved
  exact hmoved rfl

end Simulator
end Northwind
