import Northwind.Simulator.CrmCurrentRow
import Northwind.Simulator.CrmPlans
import Northwind.Simulator.CrmRestart

/-!
# Every plan can be published

The reader takes the number after the largest suffix of the current ids, the
planner makes ids of the numbers from there on, and the publisher looks whether
the records are there.

`plans_publishable_iff`: over consecutive days the plan is accepted unless a
record has the id of one of the next numbers, which takes a number that is no
`BIGINT`, or a negative one after the sequence `0`, which the planner takes for
an absent one.
-/

namespace Northwind
namespace Simulator

open CrashPrefixes NewestPerKey FakeForce

namespace CrmDeltaPublisher

variable (P : CrmDeltaPublisher)

/-- What a CRM day is run with, besides the store. -/
structure CrmDay where
  runDate : String
  seed : Int
  policy : CrmPolicy
  engine : SnapshotEngine
  random : RandomSample
  digest : String → String → String → Payload → String
  inputs : PlanInputs
  ties : P.Ties

/-- Base files with one row per id, and published rows with ids. -/
structure SoundTree (disk : Disk) : Prop where
  base : ∀ object rows, disk.read (P.baseSource object) = some rows → OneRowPerId rows
  deltas : ∀ object, ∀ r ∈ P.deltaRows disk object, ∃ id, r "Id" = some (.text id)

/-- The events pass the checks of every object, and a call on a date that is not
published yet succeeds. -/
structure Publishable (s : CrmStore) (runDate : String) (events : List SourceEvent) : Prop where
  accepted : ∃ tagged, events.mapM tagEvent = .ok tagged ∧
    ∀ object, P.Accepted s.disk object (groupOf tagged object)
  succeeds : s.manifests runDate = none →
    ∀ ties, ∃ parts, (P.publish ties runDate events s).2 = .ok parts

namespace CrmDay

variable {P} (day : P.CrmDay)

def planner : CrmDailyPlanner :=
  day.policy.planner day.random day.digest

/-- `CrmSnapshotReader.read` over the publisher's directories. -/
def snapshot (s : CrmStore) : Option CrmSnapshot :=
  P.reader.read day.policy day.engine P.schema s.disk P.baseSource day.seed

/-- `CrmDailyPlanner.plan` -/
def plan (snapshot : CrmSnapshot) : Option (List SourceEvent) :=
  day.planner.plan day.inputs day.runDate snapshot

/-- No record has the id of one of the day's next numbers, as far as these are no
`BIGINT`, or negative after the sequence `0`. -/
def NumbersFree (disk : Disk) (snapshot : CrmSnapshot) : Prop :=
  ∀ object first,
    CrmDailyPlanner.firstSequence day.inputs.int snapshot object = some first →
    ∀ n, first ≤ n → n < first + day.planner.createdCount snapshot object →
      bigintBound ≤ n ∨ snapshot.nextSequence object = some 0 ∧ n < 0 →
      P.storedRows disk object (newId object n) = []

end CrmDay

/-- A day whose plan is published. -/
def PublishedDay (s s' : CrmStore) : Prop :=
  ∃ (day : P.CrmDay) (snapshot : CrmSnapshot) (events : List SourceEvent) (parts : CrmParts),
    day.snapshot s = some snapshot ∧ day.plan snapshot = some events ∧
    (P.publish day.ties day.runDate events s).2 = .ok parts ∧
    s' = after CrmStore.write s (P.publish day.ties day.runDate events s).1

/-! ## What the reader sees -/

section Reading

variable {P} {disk : Disk} {object : CrmObject}

/-- The relation of a base that is there. -/
theorem exists_base_of_relation {E : RankEngine} {rows : List Row}
    (hrows : P.reader.relation E disk (P.baseSource object) object = some rows) :
    ∃ base, disk.read (P.baseSource object) = some base ∧
      rows = relationRows E base (P.deltaRows disk object) := by
  cases hbase : disk.read (P.baseSource object) with
  | none => simp [CrmSnapshotReader.relation, hbase] at hrows
  | some base =>
      have hrelation : P.reader.relation E disk (P.baseSource object) object = _ :=
        P.reader.relation_eq_some E hbase
      rw [hrows, Option.some.injEq] at hrelation
      exact ⟨base, rfl, hrelation⟩

/-- A record has a row in the relation exactly when some row of it is stored. -/
theorem exists_mem_relation_iff {E : RankEngine} {rows : List Row}
    (hrows : P.reader.relation E disk (P.baseSource object) object = some rows) (id : String) :
    (∃ r ∈ rows, r "Id" = some (.text id)) ↔ P.storedRows disk object id ≠ [] := by
  obtain ⟨base, hbase, rfl⟩ := exists_base_of_relation hrows
  have hbaseRows : P.baseRows disk object = base := by
    rw [baseRows, hbase, Option.getD_some]
  constructor
  · rintro ⟨r, hr, hid⟩
    apply List.ne_nil_of_mem
    rw [mem_storedRows_iff, hbaseRows]
    rcases List.mem_append.mp hr with hkept | hnewest
    · exact Or.inl ⟨List.mem_of_mem_filter hkept, hid⟩
    · exact Or.inr ⟨(isNewest_of_mem_newestPerKey _ hnewest).1, hid⟩
  · intro hne
    obtain ⟨r, hr⟩ := List.exists_mem_of_ne_nil _ hne
    rw [mem_storedRows_iff, hbaseRows] at hr
    by_cases hdelta : (ofId (P.deltaRows disk object) id).Nonempty
    · obtain ⟨m, hm, hid⟩ := (exists_newest_delta_iff (E := E) id).mpr hdelta
      exact ⟨m, List.mem_append_right _ hm, hid⟩
    · rcases hr with hr | hr
      · refine ⟨r, List.mem_append_left _ (List.mem_filter.mpr ⟨hr.1, ?_⟩), hr.2⟩
        rw [hr.2, Bool.not_eq_true', ← Bool.not_eq_true, any_latestDelta_eq_true_iff]
        exact hdelta
      · exact absurd ⟨r, hr⟩ hdelta

/-- The rows of the relation have ids, each its own. -/
theorem SoundTree.relation (hsound : P.SoundTree disk) {E : RankEngine} {rows : List Row}
    (hrows : P.reader.relation E disk (P.baseSource object) object = some rows) :
    (∀ r ∈ rows, ∃ id, r "Id" = some (.text id)) ∧ (rows.map (fun r => r "Id")).Nodup := by
  obtain ⟨base, hbase, rfl⟩ := exists_base_of_relation hrows
  have hone := hsound.base object base hbase
  refine ⟨?_, nodup_relationRows hone⟩
  intro r hr
  rcases List.mem_append.mp hr with hkept | hnewest
  · exact hone.text r (List.mem_of_mem_filter hkept)
  · exact hsound.deltas object r (isNewest_of_mem_newestPerKey _ hnewest).1

/-- No record has the id of a number above the largest suffix. -/
theorem storedRows_newId {engine : SnapshotEngine} {rows : List Row}
    (hrows : P.reader.relation engine.rank disk (P.baseSource object) object = some rows)
    {n : Int} (hlargest : engine.largestSuffix rows < n) (hbound : n < bigintBound) :
    P.storedRows disk object (newId object n) = [] := by
  by_contra hne
  obtain ⟨r, hr, hid⟩ := (exists_mem_relation_iff hrows _).mpr hne
  have hlower := engine.le_largestSuffix_bound rows
  have hle := SnapshotEngine.le_largestSuffix hr
    (engine.suffixNumber_newId hid (hlower.trans hlargest.le) hbound)
  omega

end Reading

/-! ## The checks of a plan -/

section Checks

variable {P} {day : P.CrmDay} {s : CrmStore} {snapshot : CrmSnapshot} {events : List SourceEvent}

/-- The sampled opportunities are stored, each once. -/
theorem sampled_opportunities (hsound : P.SoundTree s.disk)
    (hread : day.snapshot s = some snapshot) :
    (∀ r ∈ snapshot.opportunities,
        P.storedRows s.disk .opportunities (cellText (r "Id")) ≠ []) ∧
      (snapshot.opportunities.map (fun r => cellText (r "Id"))).Nodup := by
  obtain ⟨_, rows, hrows, size, hsampled⟩ := CrmSnapshotReader.exists_rows_of_read hread
  obtain ⟨hrelation, _⟩ := hrows .opportunities
  obtain ⟨htext, hnodup⟩ := hsound.relation hrelation
  let openRows := (rows .opportunities).filter isOpen
  let sampled := (day.engine.hashOrder day.seed openRows).take size
  have hmem : ∀ r ∈ sampled, r ∈ rows .opportunities := fun r hr =>
    List.mem_of_mem_filter
      ((day.engine.hashOrder_perm day.seed openRows).mem_iff.mp (List.mem_of_mem_take hr))
  have hid : ∀ r : Row, Row.select (namedColumns .opportunities) r "Id" = r "Id" := fun r =>
    if_pos (by simp [namedColumns])
  rw [hsampled]
  constructor
  · intro r hr
    obtain ⟨row, hrow, rfl⟩ := List.mem_map.mp hr
    obtain ⟨id, htextId⟩ := htext row (hmem row hrow)
    rw [hid, htextId]
    exact (exists_mem_relation_iff hrelation id).mp ⟨row, hmem row hrow, htextId⟩
  · rw [List.map_map]
    have hsampledIds : (sampled.map (fun r => r "Id")).Nodup := by
      have hopen : (openRows.map (fun r => r "Id")).Nodup :=
        hnodup.sublist (List.filter_sublist.map _)
      have hordered := ((day.engine.hashOrder_perm day.seed openRows).map
        (fun r => r "Id")).nodup_iff.mpr hopen
      exact hordered.sublist ((List.take_sublist _ _).map _)
    apply List.Nodup.map_on ?_ (hsampledIds.of_map _)
    intro r hr r' hr' hsame
    simp only [Function.comp_apply, hid] at hsame
    obtain ⟨id, htextId⟩ := htext r (hmem r hr)
    obtain ⟨id', htextId'⟩ := htext r' (hmem r' hr')
    rw [htextId, htextId'] at hsame
    apply List.inj_on_of_nodup_map hsampledIds hr hr'
    rw [htextId, htextId', show id = id' from hsame]

/-- Events of one object. -/
theorem mapM_tagEvent {object : CrmObject} {events : List SourceEvent}
    (h : ∀ event ∈ events, tagEvent event = .ok (object, event)) :
    events.mapM tagEvent = .ok (events.map (Prod.mk object)) := by
  rw [DatasetSpec.mapM_eq_ok_iff, List.forall₂_map_right_iff, List.forall₂_same]
  exact h

theorem groupOf_map (object other : CrmObject) (events : List SourceEvent) :
    groupOf (events.map (Prod.mk other)) object = if other = object then events else [] := by
  rw [groupOf, List.filter_map, List.map_map]
  by_cases h : other = object
  · simp [h, Function.comp_def]
  · simp [h, Function.comp_def]

theorem groupOf_append (tagged tagged' : List (CrmObject × SourceEvent)) (object : CrmObject) :
    groupOf (tagged ++ tagged') object = groupOf tagged object ++ groupOf tagged' object := by
  rw [groupOf, List.filter_append, List.map_append]
  rfl

/-- A planned day in groups: the new records of each object, and the stage events. -/
theorem exists_groups (hplan : day.plan snapshot = some events) :
    ∃ (first : CrmObject → Int) (created : CrmObject → List SourceEvent)
        (selected : List Row) (staged : List SourceEvent)
        (tagged : List (CrmObject × SourceEvent)),
      (∀ object,
        CrmDailyPlanner.firstSequence day.inputs.int snapshot object = some (first object) ∧
        List.Forall₂
          (fun (index : Nat) event => CrmDailyPlanner.IsNew object (first object + index) event)
          (List.range (day.planner.createdCount snapshot object)) (created object)) ∧
      selected.Subperm snapshot.opportunities ∧
      List.Forall₂ CrmDailyPlanner.IsStageEvent selected staged ∧
      events.mapM tagEvent = .ok tagged ∧ groupOf tagged .accounts = created .accounts ∧
      groupOf tagged .opportunities = created .opportunities ++ staged := by
  obtain ⟨first, created, hcreated, rfl⟩ := CrmDailyPlanner.exists_parts_of_plan hplan
  obtain ⟨selected, hselected, hstaged⟩ := day.planner.exists_selected day.runDate
    snapshot.opportunities snapshot.openOpportunityPopulation
  have hnew : ∀ object, ∀ event ∈ created object, tagEvent event = .ok (object, event) := by
    intro object event hevent
    obtain ⟨index, _, hindex⟩ := CrmDailyPlanner.exists_left_of_forall₂ (hcreated object).2 hevent
    exact hindex.tagged
  have hstage : ∀ event ∈ day.planner.stageEvents day.runDate snapshot.opportunities
      snapshot.openOpportunityPopulation, tagEvent event = .ok (.opportunities, event) := by
    intro event hevent
    obtain ⟨r, _, hr⟩ := CrmDailyPlanner.exists_left_of_forall₂ hstaged hevent
    exact hr.tagged
  let staged := day.planner.stageEvents day.runDate snapshot.opportunities
    snapshot.openOpportunityPopulation
  let tagged := (created .accounts).map (Prod.mk CrmObject.accounts) ++
    (created .opportunities).map (Prod.mk CrmObject.opportunities) ++
    staged.map (Prod.mk CrmObject.opportunities)
  refine ⟨first, created, selected, staged, tagged, hcreated,
    hselected.trans List.filter_sublist.subperm, hstaged, ?_, ?_, ?_⟩
  · rw [List.mapM_append, List.mapM_append, mapM_tagEvent (hnew .accounts),
      mapM_tagEvent (hnew .opportunities), mapM_tagEvent hstage]
    rfl
  · simp [tagged, groupOf_append, groupOf_map]
  · simp [tagged, groupOf_append, groupOf_map]

/-- The new ids of an object are distinct. -/
theorem nodup_created {object : CrmObject} {first : Int} {count : Nat}
    {created : List SourceEvent}
    (h : List.Forall₂ (fun (index : Nat) event => CrmDailyPlanner.IsNew object (first + index) event)
      (List.range count) created) :
    (created.map SourceEvent.entityId).Nodup := by
  have hids : created.map SourceEvent.entityId =
      (List.range count).map (fun index : Nat => newId object (first + index)) := by
    rw [← List.forall₂_eq_eq_eq, List.forall₂_map_left_iff, List.forall₂_map_right_iff]
    exact List.Forall₂.flip (h.imp (fun _ _ hevent => hevent.entityId))
  rw [hids]
  apply List.Nodup.map _ List.nodup_range
  intro index index' hsame
  have hnumbers := newId_injective object hsame
  omega

/-- An object's new records are accepted exactly when none of them is there. -/
theorem created_absent_iff {object : CrmObject} {first : Int} {count : Nat}
    {created : List SourceEvent}
    (h : List.Forall₂ (fun (index : Nat) event => CrmDailyPlanner.IsNew object (first + index) event)
      (List.range count) created) :
    (∀ event ∈ created,
        (event.isCreate = true ↔ P.storedRows s.disk object event.entityId = [])) ↔
      ∀ n, first ≤ n → n < first + count → P.storedRows s.disk object (newId object n) = [] := by
  constructor
  · intro hknown n hlower hupper
    have hindex : (n - first).toNat ∈ List.range count := by
      rw [List.mem_range]
      omega
    obtain ⟨event, hevent, hnew⟩ := CrmDailyPlanner.exists_right_of_forall₂ h hindex
    have habsent := (hknown event hevent).mp hnew.isCreate
    have hn : first + (n - first).toNat = n := by
      omega
    rwa [hnew.entityId, hn] at habsent
  · intro habsent event hevent
    obtain ⟨index, hindex, hnew⟩ := CrmDailyPlanner.exists_left_of_forall₂ h hevent
    rw [List.mem_range] at hindex
    refine iff_of_true hnew.isCreate ?_
    rw [hnew.entityId]
    exact habsent _ (by omega) (by omega)

/-- The numbers of the day are free as far as the snapshot has not made sure. -/
theorem numbersFree_iff (hread : day.snapshot s = some snapshot) :
    day.NumbersFree s.disk snapshot ↔ ∀ object first,
      CrmDailyPlanner.firstSequence day.inputs.int snapshot object = some first →
      ∀ n, first ≤ n → n < first + day.planner.createdCount snapshot object →
        P.storedRows s.disk object (newId object n) = [] := by
  obtain ⟨_, rows, hrows, _⟩ := CrmSnapshotReader.exists_rows_of_read hread
  constructor
  · intro hfree object first hfirst n hlower hupper
    obtain ⟨hrelation, hnext⟩ := hrows object
    by_cases hbound : bigintBound ≤ n
    · exact hfree object first hfirst n hlower hupper (Or.inl hbound)
    rw [not_le] at hbound
    by_cases hzero : day.engine.largestSuffix (rows object) + 1 = 0
    · rw [hzero] at hnext
      by_cases hnegative : n < 0
      · exact hfree object first hfirst n hlower hupper (Or.inr ⟨hnext, hnegative⟩)
      · exact storedRows_newId hrelation (by omega) hbound
    · have hsequence : first = day.engine.largestSuffix (rows object) + 1 := by
        rw [CrmDailyPlanner.firstSequence, hnext] at hfirst
        simp only [ne_eq, hzero, not_false_eq_true, if_true, Option.some.injEq] at hfirst
        exact hfirst.symm
      exact storedRows_newId hrelation (by omega) hbound
  · intro hall object first hfirst n hlower hupper _
    exact hall object first hfirst n hlower hupper

/-- The stage events are about distinct opportunities. -/
theorem nodup_staged {opportunities selected : List Row} {staged : List SourceEvent}
    (hnodup : (opportunities.map (fun r => cellText (r "Id"))).Nodup)
    (hselected : selected.Subperm opportunities)
    (hstaged : List.Forall₂ CrmDailyPlanner.IsStageEvent selected staged) :
    (staged.map SourceEvent.entityId).Nodup := by
  have hids : staged.map SourceEvent.entityId = selected.map (fun r => cellText (r "Id")) := by
    rw [← List.forall₂_eq_eq_eq, List.forall₂_map_left_iff, List.forall₂_map_right_iff]
    exact List.Forall₂.flip (hstaged.imp (fun _ _ hevent => hevent.entityId))
  obtain ⟨sampled, hperm, hsublist⟩ := hselected
  rw [hids, ← (hperm.map _).nodup_iff]
  exact hnodup.sublist (hsublist.map _)

/-- A base that is read is there. -/
theorem isSome_base_of_snapshot (hread : day.snapshot s = some snapshot) (object : CrmObject) :
    (s.disk.read (P.baseSource object)).isSome = true := by
  obtain ⟨_, rows, hrows, _⟩ := CrmSnapshotReader.exists_rows_of_read hread
  obtain ⟨hrelation, _⟩ := hrows object
  obtain ⟨base, hbase, _⟩ := exists_base_of_relation hrelation
  rw [hbase, Option.isSome_some]

/-- The plan of a sound tree is accepted exactly when its numbers are free. -/
theorem publishable_iff (hsound : P.SoundTree s.disk) (hread : day.snapshot s = some snapshot)
    (hplan : day.plan snapshot = some events) :
    P.Publishable s day.runDate events ↔ day.NumbersFree s.disk snapshot := by
  obtain ⟨first, created, selected, staged, tagged, hcreated, hselected, hstaged, htagged,
    haccounts, hopportunities⟩ := exists_groups hplan
  obtain ⟨hstored, hnodup⟩ := sampled_opportunities hsound hread
  rw [numbersFree_iff hread]
  constructor
  · rintro ⟨⟨tagged', htagged', haccepted⟩, _⟩ object first' hfirst'
    rw [htagged] at htagged'
    cases htagged'
    obtain ⟨hfirst, hnew⟩ := hcreated object
    rw [hfirst] at hfirst'
    cases hfirst'
    apply (created_absent_iff hnew).mp
    intro event hevent
    apply (haccepted object).known event
    cases object with
    | accounts =>
        rw [haccounts]
        exact hevent
    | opportunities =>
        rw [hopportunities]
        exact List.mem_append_left _ hevent
  · intro hfree
    have habsent : ∀ object, ∀ event ∈ created object,
        (event.isCreate = true ↔ P.storedRows s.disk object event.entityId = []) := by
      intro object
      obtain ⟨hfirst, hnew⟩ := hcreated object
      exact (created_absent_iff hnew).mpr (hfree object (first object) hfirst)
    have hpresent : ∀ event ∈ staged, event.isCreate = false ∧
        P.storedRows s.disk .opportunities event.entityId ≠ [] := by
      intro event hevent
      obtain ⟨r, hr, hstage⟩ := CrmDailyPlanner.exists_left_of_forall₂ hstaged hevent
      refine ⟨hstage.isCreate, ?_⟩
      rw [hstage.entityId]
      exact hstored r (hselected.subset hr)
    have hdistinct : ∀ object, ((groupOf tagged object).map SourceEvent.entityId).Nodup := by
      intro object
      cases object with
      | accounts =>
          rw [haccounts]
          exact nodup_created (hcreated .accounts).2
      | opportunities =>
          rw [hopportunities, List.map_append]
          refine List.Nodup.append (nodup_created (hcreated .opportunities).2)
            (nodup_staged hnodup hselected hstaged) ?_
          intro id hid hid'
          obtain ⟨event, hevent, rfl⟩ := List.mem_map.mp hid
          obtain ⟨event', hevent', hsame⟩ := List.mem_map.mp hid'
          obtain ⟨_, hstored'⟩ := hpresent event' hevent'
          obtain ⟨index, _, hnew⟩ :=
            CrmDailyPlanner.exists_left_of_forall₂ (hcreated .opportunities).2 hevent
          rw [hsame] at hstored'
          exact hstored' ((habsent .opportunities event hevent).mp hnew.isCreate)
    have hknown : ∀ object, ∀ event ∈ groupOf tagged object,
        (event.isCreate = true ↔ P.storedRows s.disk object event.entityId = []) := by
      intro object event hevent
      cases object with
      | accounts =>
          rw [haccounts] at hevent
          exact habsent .accounts event hevent
      | opportunities =>
          rw [hopportunities] at hevent
          rcases List.mem_append.mp hevent with hevent | hevent
          · exact habsent .opportunities event hevent
          · obtain ⟨hcreate, hstored'⟩ := hpresent event hevent
            exact iff_of_false (by rw [hcreate]; exact Bool.false_ne_true) hstored'
    have haccepted : ∀ object, P.Accepted s.disk object (groupOf tagged object) := fun object =>
      ⟨isSome_base_of_snapshot hread object, hdistinct object, hknown object⟩
    refine ⟨⟨tagged, htagged, haccepted⟩, ?_⟩
    intro hnone ties
    exact ⟨_, congrArg Prod.snd ((P.publish_eq_ok_iff ties day.runDate htagged hnone _ _).mpr
      ⟨fun object _ => haccepted object, rfl, rfl⟩)⟩

end Checks

/-! ## From day to day -/

section Days

variable {P} {day : P.CrmDay} {s s' : CrmStore} {snapshot : CrmSnapshot}
  {events : List SourceEvent}

/-- A file whose rows have ids leaves the tree sound. -/
theorem SoundTree.replace (hsound : P.SoundTree s.disk) {path : Path} {rows : List Row}
    (hbase : ∀ object, P.baseSource object ≠ path)
    (htext : ∀ object, P.isDelta object path = true →
      ∀ r ∈ rows, ∃ id, r "Id" = some (.text id)) :
    P.SoundTree (s.write (.replaceDelta path rows)).disk := by
  refine ⟨?_, ?_⟩
  · intro object base hread
    rw [read_write_delta, Function.update_of_ne (hbase object)] at hread
    exact hsound.base object base hread
  · intro object r hr
    obtain ⟨target, written, hdelta, hread, hmem⟩ := (P.mem_deltaRows _ object r).mp hr
    rw [read_write_delta] at hread
    by_cases heq : target = path
    · subst heq
      rw [Function.update_self, Option.some.injEq] at hread
      subst hread
      exact htext object hdelta r hmem
    · rw [Function.update_of_ne heq] at hread
      exact hsound.deltas object r
        ((P.mem_deltaRows _ object r).mpr ⟨target, written, hdelta, hread, hmem⟩)

theorem SoundTree.replaceAll (hsound : P.SoundTree s.disk) {files : List (Path × List Row)}
    (hfiles : ∀ file ∈ files, (∀ object, P.baseSource object ≠ file.1) ∧
      ∀ object, P.isDelta object file.1 = true →
        ∀ r ∈ file.2, ∃ id, r "Id" = some (.text id)) :
    P.SoundTree (after CrmStore.write s (files.map fileWrite)).disk := by
  induction files generalizing s with
  | nil => exact hsound
  | cons file files ih =>
      obtain ⟨hbase, htext⟩ := hfiles file List.mem_cons_self
      exact ih (hsound.replace hbase htext)
        (fun file' hfile' => hfiles file' (List.mem_cons_of_mem _ hfile'))

/-- An accepted event asks for a row with an id, if it brings the id of the record
or is about one that is there. -/
theorem exists_id_of_requestedRow {disk : Disk} {object : CrmObject} {event : SourceEvent}
    (ties : P.Ties) (hcolumn : "Id" ∈ P.schema object)
    (hevent : event.payload.lookup "Id" = some (some (.text event.entityId)) ∨
      event.payload.lookup "Id" = none ∧ P.storedRows disk object event.entityId ≠ []) :
    ∃ id, P.requestedRow ties disk object event "Id" = some (.text id) := by
  rw [requestedRow, updatedRow, if_pos hcolumn]
  rcases hevent with hid | ⟨hnone, hstored⟩
  · rw [hid]
    exact ⟨event.entityId, rfl⟩
  · rw [hnone]
    obtain ⟨r, hr⟩ := Option.ne_none_iff_exists'.mp
      (mt (P.currentRow_eq_none_iff ties disk object event.entityId).mp hstored)
    have hmem : r ∈ P.storedRows disk object event.entityId := (ties object _).pick_mem hr
    rw [hr]
    exact ⟨event.entityId, ((mem_rowsOfId _ _ _ _).mp hmem).1⟩

/-- A published day leaves a sound tree. -/
theorem SoundTree.publishedDay (hsound : P.SoundTree s.disk) (h : P.PublishedDay s s') :
    P.SoundTree s'.disk := by
  obtain ⟨day, snapshot, events, parts, hread, hplan, hok, rfl⟩ := h
  obtain ⟨hcolumns, _⟩ := CrmSnapshotReader.exists_rows_of_read hread
  obtain ⟨first, created, selected, staged, tagged, hcreated, hselected, hstaged, htagged,
    haccounts, hopportunities⟩ := exists_groups hplan
  cases hmanifest : s.manifests day.runDate with
  | some manifest =>
      have hwrites : (P.publish day.ties day.runDate events s).1 = [] := by
        rw [publish, htagged]
        simp only [hmanifest]
        split <;> rfl
      rw [hwrites]
      exact hsound
  | none =>
      obtain ⟨haccepted, hwrites, _⟩ := (P.publish_eq_ok_iff day.ties day.runDate htagged
        hmanifest _ _).mp (Prod.ext rfl hok)
      have hbrings : ∀ object, ∀ event ∈ groupOf tagged object,
          event.payload.lookup "Id" = some (some (.text event.entityId)) ∨
            event.payload.lookup "Id" = none ∧
              P.storedRows s.disk object event.entityId ≠ [] := by
        intro object event hevent
        cases object with
        | accounts =>
            rw [haccounts] at hevent
            obtain ⟨_, _, hnew⟩ :=
              CrmDailyPlanner.exists_left_of_forall₂ (hcreated .accounts).2 hevent
            exact Or.inl hnew.id
        | opportunities =>
            have hgroup := hevent
            rw [hopportunities] at hevent
            rcases List.mem_append.mp hevent with hevent | hevent
            · obtain ⟨_, _, hnew⟩ :=
                CrmDailyPlanner.exists_left_of_forall₂ (hcreated .opportunities).2 hevent
              exact Or.inl hnew.id
            · obtain ⟨_, _, hstage⟩ := CrmDailyPlanner.exists_left_of_forall₂ hstaged hevent
              have hknown := (haccepted .opportunities ((groupOf_ne_nil_iff tagged _).mp
                (List.ne_nil_of_mem hgroup))).known event hgroup
              rw [hstage.isCreate] at hknown
              exact Or.inr ⟨hstage.id, fun hnil => Bool.false_ne_true (hknown.mpr hnil)⟩
      have hafter : (after CrmStore.write s (P.publish day.ties day.runDate events s).1).disk =
          (after CrmStore.write s
            ((P.plannedFiles day.ties day.runDate tagged s.disk).map fileWrite)).disk := by
        rw [show (P.publish day.ties day.runDate events s).1 = _ from hwrites, after_append]
        rfl
      rw [hafter]
      apply hsound.replaceAll
      intro file hfile
      rcases List.mem_append.mp hfile with hdelta | hhistory
      · obtain ⟨object, hobject, rfl⟩ := List.mem_map.mp hdelta
        refine ⟨fun other => ?_, fun other hother r hr => ?_⟩
        · rw [deltaFile, deltaTarget, objectRoot, List.append_assoc]
          exact P.baseSource_ne other _
        · obtain rfl : other = object := by
            by_contra hne
            rw [deltaFile, P.isDelta_deltaTarget_of_ne (Ne.symm hne)] at hother
            cases hother
          obtain ⟨event, hevent, rfl⟩ := List.mem_map.mp hr
          exact exists_id_of_requestedRow day.ties
            (hcolumns other "Id" (by cases other <;> simp [namedColumns]))
            (hbrings other event hevent)
      · split at hhistory
        · cases hhistory
        · rw [List.mem_singleton.mp hhistory]
          refine ⟨fun other => P.baseSource_ne other _, fun other hother => ?_⟩
          rw [P.isDelta_historyTarget] at hother
          cases hother

theorem soundTree_of_run (hsound : P.SoundTree s.disk)
    (hrun : Relation.ReflTransGen P.PublishedDay s s') : P.SoundTree s'.disk := by
  induction hrun with
  | refl => exact hsound
  | tail _ hday ih => exact ih.publishedDay hday

end Days

/-- Over any run of published days from base files with one row per id: the plan of
the next day passes every check of the publisher exactly if no record has the id of
one of the next numbers that is no `BIGINT`, or negative after the sequence `0`. -/
theorem plans_publishable_iff {start s : CrmStore} (hstart : P.SoundTree start.disk)
    (hrun : Relation.ReflTransGen P.PublishedDay start s) (day : P.CrmDay)
    {snapshot : CrmSnapshot} {events : List SourceEvent}
    (hread : day.snapshot s = some snapshot) (hplan : day.plan snapshot = some events) :
    P.Publishable s day.runDate events ↔ day.NumbersFree s.disk snapshot :=
  publishable_iff (soundTree_of_run hstart hrun) hread hplan

end CrmDeltaPublisher

/-! ## A store of few rows -/

/-- The publisher of the deployment, over seed files with the columns of the reader. -/
def seedPublisher : CrmDeltaPublisher :=
  { deployedPublisher with
    schema := fun object => namedColumns object ++ ["LastModifiedDate", "SystemModstamp"] }

/-- A database that keeps the rows in scan order and reads plain numbers. -/
def plainEngine : SnapshotEngine where
  rank := fun _ => TieBreak.firstInScan _
  hashOrder _ rows := rows
  hashOrder_perm _ rows := List.Perm.refl rows
  distinct values := values.dedup
  distinct_perm values := List.Perm.refl _
  tryCastBigint text := (spelledInt text).filter (fun n => -bigintBound ≤ n ∧ n < bigintBound)
  tryCast_range text n h := by
    obtain ⟨_, hrange⟩ := Option.filter_eq_some_iff.mp h
    exact of_decide_eq_true hrange
  tryCast_digits n hlower hupper := by
    rw [spelledInt_zeroPaddedInt, Option.filter_some, if_pos (by simp [hlower, hupper])]

/-- A day on which every call of the random generator gives its first outcome. -/
def firstOutcomes (runDate : String) : seedPublisher.CrmDay where
  runDate := runDate
  seed := 0
  policy := noStalls
  engine := plainEngine
  random := firstRows
  digest := fun runDate eventType entityId _ => runDate ++ "|" ++ eventType ++ "|" ++ entityId
  inputs := ⟨fun _ _ => 0, fun _ _ => 0, spelledInt, fun runDate _ => some runDate⟩
  ties := fun _ _ => TieBreak.firstInScan _

/-- One account and two opportunities, of which the second is open. -/
def storeOf (accountId closedId openId : String) : CrmStore where
  disk :=
    ((⟨∅, ∅, 0⟩ : Disk).replace (seedPublisher.baseSource .accounts)
      [Row.ofCells [("Id", .text accountId), ("OwnerId", .text "REP-0001")]]).replace
        (seedPublisher.baseSource .opportunities)
        [Row.ofCells [("Id", .text closedId), ("StageName", .text "Closed Won")],
          Row.ofCells [("Id", .text openId), ("StageName", .text "Prospecting")]]
  manifests := fun _ => none

theorem soundTree_storeOf {accountId closedId openId : String} (hne : closedId ≠ openId)
    (hdeltas : ∀ object, seedPublisher.reader.deltaPaths
      (storeOf accountId closedId openId).disk object = []) :
    seedPublisher.SoundTree (storeOf accountId closedId openId).disk := by
  refine ⟨?_, ?_⟩
  · intro object rows hread
    cases object with
    | accounts =>
        have hapart : seedPublisher.baseSource .accounts ≠
            seedPublisher.baseSource .opportunities := by
          decide
        rw [storeOf, Disk.read_replace_of_ne _ _ hapart, Disk.read_replace_self,
          Option.some.injEq] at hread
        subst hread
        refine ⟨?_, List.nodup_singleton _⟩
        intro r hr
        rw [List.mem_singleton.mp hr]
        exact ⟨accountId, rfl⟩
    | opportunities =>
        rw [storeOf, Disk.read_replace_self, Option.some.injEq] at hread
        subst hread
        refine ⟨?_, ?_⟩
        · intro r hr
          rcases List.mem_pair.mp hr with rfl | rfl
          · exact ⟨closedId, rfl⟩
          · exact ⟨openId, rfl⟩
        · refine List.nodup_cons.mpr ⟨?_, List.nodup_singleton _⟩
          intro hmem
          cases List.mem_singleton.mp hmem
          exact hne rfl
  · intro object r hr
    rw [CrmDeltaPublisher.deltaRows, hdeltas] at hr
    cases hr

def ordinaryStore : CrmStore :=
  storeOf "001000000000000001" "006000000000000001" "006000000000000002"

/-- No suffix of an opportunity is above minus one, and the open one has less. -/
def minusOneStore : CrmStore :=
  storeOf "001000000000000001" "006-00000000000001" "006-00000000000002"

/-- A day that is planned has a snapshot and events. -/
theorem exists_plan (day : seedPublisher.CrmDay) (s : CrmStore)
    (h : ((day.snapshot s).bind day.plan).isSome = true) :
    ∃ snapshot events, day.snapshot s = some snapshot ∧ day.plan snapshot = some events := by
  obtain ⟨events, hevents⟩ := Option.isSome_iff_exists.mp h
  obtain ⟨snapshot, hsnapshot, hplan⟩ := Option.bind_eq_some_iff.mp hevents
  exact ⟨snapshot, events, hsnapshot, hplan⟩

theorem plans_publishable_iff_ordinary :
    ∃ snapshot events, (firstOutcomes "2026-07-25").snapshot ordinaryStore = some snapshot ∧
      (firstOutcomes "2026-07-25").plan snapshot = some events ∧
      (seedPublisher.Publishable ordinaryStore "2026-07-25" events ↔
        (firstOutcomes "2026-07-25").NumbersFree ordinaryStore.disk snapshot) := by
  obtain ⟨snapshot, events, hsnapshot, hplan⟩ :=
    exists_plan (firstOutcomes "2026-07-25") ordinaryStore (by decide +kernel)
  refine ⟨snapshot, events, hsnapshot, hplan, ?_⟩
  have hsound : seedPublisher.SoundTree ordinaryStore.disk :=
    soundTree_storeOf (by decide) (by intro object; cases object <;> decide +kernel)
  exact seedPublisher.plans_publishable_iff hsound Relation.ReflTransGen.refl _ hsnapshot hplan

/-- Every plan of a sound tree can be published, on every day. -/
def EveryPlanPublishable : Prop :=
  ∀ (P : CrmDeltaPublisher) (start s : CrmStore), P.SoundTree start.disk →
    Relation.ReflTransGen P.PublishedDay start s →
    ∀ (day : P.CrmDay) (snapshot : CrmSnapshot) (events : List SourceEvent),
      day.snapshot s = some snapshot → day.plan snapshot = some events →
      P.Publishable s day.runDate events

/-- After the sequence `0` the planner goes by the open opportunities alone, and makes
the id of the closed one again. -/
theorem minusOne_not_publishable : ¬ EveryPlanPublishable := by
  intro hall
  obtain ⟨snapshot, events, hsnapshot, hplan⟩ :=
    exists_plan (firstOutcomes "2026-07-25") minusOneStore (by decide +kernel)
  have hsound : seedPublisher.SoundTree minusOneStore.disk :=
    soundTree_storeOf (by decide) (by intro object; cases object <;> decide +kernel)
  obtain ⟨_, hsucceeds⟩ := hall seedPublisher minusOneStore minusOneStore hsound
    Relation.ReflTransGen.refl _ snapshot events hsnapshot hplan
  obtain ⟨parts, hok⟩ := hsucceeds rfl (firstOutcomes "2026-07-25").ties
  have hraises : (((firstOutcomes "2026-07-25").snapshot minusOneStore).bind
      (firstOutcomes "2026-07-25").plan).map (fun events =>
        (seedPublisher.publish (firstOutcomes "2026-07-25").ties "2026-07-25" events
          minusOneStore).2.toBool) = some false := by
    decide +kernel
  rw [hsnapshot, Option.bind_some, hplan, Option.map_some] at hraises
  have hdate : (firstOutcomes "2026-07-25").runDate = "2026-07-25" := rfl
  rw [hdate] at hok
  rw [hok] at hraises
  cases hraises

end Simulator
end Northwind
