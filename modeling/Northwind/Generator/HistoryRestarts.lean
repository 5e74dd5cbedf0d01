import Northwind.Generator.HistoryRuns
import Northwind.Library.JsonText
import Mathlib

/-!
# Restarts of the history backfill

`Walked` is what holds of a target at every commit: of the entities without a history,
in the order of their ids, the first ones have got their inferred rows, and the ledger
has the id of the last of them.  The rows behind this id are the same as at the start,
although the batches fill the table that the query filters by.
-/

namespace Northwind
namespace Generator
namespace HistoryBackfill

open Simulator Keysets

/-! ## Event ids -/

/-- The text whose digest is the id of an inferred row. -/
def eventText (name : String) (entityId : Nat) (transition : String) : String :=
  "inferred_baseline:" ++ name ++ ":" ++ toString entityId ++ ":" ++ transition

theorem toList_eventText (name : String) (entityId : Nat) (transition : String) :
    (eventText name entityId transition).toList = "inferred_baseline:".toList ++ name.toList ++
      (':' :: ((toString entityId).toList ++ (':' :: transition.toList))) := by
  have happend : (eventText name entityId transition).toList =
      "inferred_baseline:".toList ++ name.toList ++ ":".toList ++ (toString entityId).toList ++
        ":".toList ++ transition.toList := by
    unfold eventText
    rw [String.toList_append, String.toList_append, String.toList_append, String.toList_append,
      String.toList_append]
  rw [happend, List.append_assoc _ ":".toList transition.toList,
    List.append_assoc _ _ (":".toList ++ _), List.append_assoc _ ":".toList _]
  rfl

theorem isDigit_of_mem_toString (n : Nat) : ∀ c ∈ (toString n).toList, c.isDigit = true := by
  intro c hc
  rw [Nat.toString_eq_ofList_toDigits, String.toList_ofList] at hc
  exact Nat.isDigit_of_mem_toDigits (by decide) (by decide) hc

/-- The text tells apart entities and transitions. -/
theorem eventText_inj {name transition transition' : String} {entityId entityId' : Nat}
    (h : eventText name entityId transition = eventText name entityId' transition') :
    entityId = entityId' ∧ transition = transition' := by
  have hchars := congrArg String.toList h
  rw [toList_eventText, toList_eventText] at hchars
  have htail := List.tail_eq_of_cons_eq (List.append_cancel_left hchars)
  obtain ⟨hid, hrest⟩ := Texts.append_inj_of_all (isDigit_of_mem_toString entityId)
    (isDigit_of_mem_toString entityId') (by decide : ':'.isDigit = false)
    (by decide : ':'.isDigit = false) htail
  have hrepr : Nat.repr entityId = Nat.repr entityId' := String.toList_injective hid
  exact ⟨Nat.repr_injective hrepr, String.toList_injective (List.tail_eq_of_cons_eq hrest)⟩

section Inferred

variable {target : HistoryTarget} (hexdigest : String → String)

/-- `_infer(row)`, or nothing where it raises. -/
def inferredRows (candidate : target.Candidate) : List (StatusHistoryRow target.Status) :=
  ((target.infer hexdigest candidate).map Prod.fst).getD []

/-- The texts that are hashed for the candidates of a target. -/
def eventTexts (target : HistoryTarget) (sources : List target.Candidate) : Set String :=
  {text | ∃ candidate ∈ sources, ∃ transition ∈ target.transitions,
    text = eventText target.name (target.entityId candidate) transition}

theorem labelled_inferredRows (candidate : target.Candidate) :
    Labelled hexdigest target.name (target.entityId candidate) target.transitions
      (inferredRows hexdigest candidate) := by
  rw [inferredRows]
  cases hinfer : target.infer hexdigest candidate with
  | none => exact labelled_nil
  | some inferred =>
      obtain ⟨rows, invalid⟩ := inferred
      exact target.labelled_infer hexdigest candidate rows invalid hinfer

/-- An inferred row belongs to its entity. -/
theorem recordId_of_mem_inferredRows {candidate : target.Candidate}
    {row : StatusHistoryRow target.Status} (hrow : row ∈ inferredRows hexdigest candidate) :
    row.recordId = target.entityId candidate := by
  obtain ⟨labels, _, hrows⟩ := labelled_inferredRows hexdigest candidate
  have hmem := List.mem_map_of_mem (f := fun row => (row.recordId, row.sourceEventId)) hrow
  rw [hrows] at hmem
  obtain ⟨label, _, hlabel⟩ := List.mem_map.mp hmem
  exact (Prod.mk.inj hlabel).1.symm

/-- The event ids of the rows of one candidate. -/
theorem eventIds_inferredRows (candidate : target.Candidate) :
    ∃ labels : List String, labels.Sublist target.transitions ∧
      (inferredRows hexdigest candidate).map StatusHistoryRow.sourceEventId =
        labels.map (fun label =>
          hexdigest (eventText target.name (target.entityId candidate) label)) := by
  obtain ⟨labels, hlabels, hrows⟩ := labelled_inferredRows hexdigest candidate
  have hids := congrArg (List.map Prod.snd) hrows
  rw [List.map_map, List.map_map] at hids
  exact ⟨labels, hlabels, hids⟩

variable {hexdigest}

/-- Distinct texts have distinct digests, so no two inferred rows share an event id. -/
theorem nodup_eventIds {sources rows : List target.Candidate}
    (hdigest : Set.InjOn hexdigest (eventTexts target sources)) (hrows : ∀ row ∈ rows, row ∈ sources)
    (hdistinct : (rows.map target.entityId).Nodup) :
    ((rows.flatMap (inferredRows hexdigest)).map StatusHistoryRow.sourceEventId).Nodup := by
  rw [List.map_flatMap, List.nodup_flatMap]
  constructor
  · intro row hrow
    obtain ⟨labels, hlabels, hids⟩ := eventIds_inferredRows hexdigest row
    rw [hids]
    refine List.Nodup.map_on ?_ (target.nodup_transitions.sublist hlabels)
    intro label hlabel label' hlabel' hsame
    have htext := hdigest ⟨row, hrows row hrow, label, hlabels.subset hlabel, rfl⟩
      ⟨row, hrows row hrow, label', hlabels.subset hlabel', rfl⟩ hsame
    exact (eventText_inj htext).2
  · refine (List.pairwise_map.mp hdistinct).imp_of_mem fun {row row'} hrow hrow' hne => ?_
    obtain ⟨labels, hlabels, hids⟩ := eventIds_inferredRows hexdigest row
    obtain ⟨labels', hlabels', hids'⟩ := eventIds_inferredRows hexdigest row'
    rw [Function.onFun, hids, hids', List.disjoint_left]
    intro eventId hmem hmem'
    obtain ⟨label, hlabel, rfl⟩ := List.mem_map.mp hmem
    obtain ⟨label', hlabel', hsame⟩ := List.mem_map.mp hmem'
    have htext := hdigest ⟨row', hrows row' hrow', label', hlabels'.subset hlabel', rfl⟩
      ⟨row, hrows row hrow, label, hlabels.subset hlabel, rfl⟩ hsame
    exact hne (eventText_inj htext).1.symm

end Inferred

/-! ## Insertions -/

section Inserts

variable {status : Type}

/-- Rows with new and distinct event ids are all appended. -/
theorem insertRows_eq {history rows : List (StatusHistoryRow status)}
    (hnew : ∀ row ∈ rows, ∀ recorded ∈ history, recorded.sourceEventId ≠ row.sourceEventId)
    (hdistinct : (rows.map StatusHistoryRow.sourceEventId).Nodup) :
    insertRows history rows = history ++ rows := by
  induction rows generalizing history with
  | nil => exact (List.append_nil history).symm
  | cons row rows ih =>
      rw [List.map_cons, List.nodup_cons] at hdistinct
      obtain ⟨hfirst, hrest⟩ := hdistinct
      have hinsert : insertRow history row = history ++ [row] := by
        rw [insertRow, if_neg]
        rintro ⟨recorded, hrecorded, hsame⟩
        exact hnew row List.mem_cons_self recorded hrecorded hsame
      have hstep : insertRows (history ++ [row]) rows = history ++ [row] ++ rows := by
        refine ih (fun other hother recorded hrecorded => ?_) hrest
        rcases List.mem_append.mp hrecorded with hold | hlast
        · exact hnew other (List.mem_cons_of_mem _ hother) recorded hold
        · rw [List.mem_singleton.mp hlast]
          intro hsame
          exact hfirst (hsame ▸ List.mem_map_of_mem hother)
      rw [insertRows, List.foldl_cons, hinsert]
      exact hstep.trans (List.append_assoc history [row] rows)

variable {target : HistoryTarget} {hexdigest : String → String}

/-- A batch that is built has the inferred rows of its candidates. -/
theorem buildBatch_eq_some {rows : List target.Candidate} {batch : InferenceBatch target.Status}
    (h : buildBatch hexdigest rows = some batch) :
    (∀ row ∈ rows, (target.infer hexdigest row).isSome) ∧
      batch.inserts = rows.flatMap (inferredRows hexdigest) := by
  induction rows generalizing batch with
  | nil =>
      cases h
      exact ⟨(fun _ hmem => nomatch hmem), rfl⟩
  | cons row rows ih =>
      rw [buildBatch] at h
      cases hinfer : target.infer hexdigest row with
      | none =>
          rw [hinfer] at h
          cases h
      | some inferred =>
          obtain ⟨events, invalid⟩ := inferred
          rw [hinfer] at h
          obtain ⟨rest, hrest, rfl⟩ := Option.map_eq_some_iff.mp h
          obtain ⟨hsome, hinserts⟩ := ih hrest
          have hrow : (target.infer hexdigest row).isSome := hinfer ▸ rfl
          refine ⟨List.forall_mem_cons.mpr ⟨hrow, hsome⟩, ?_⟩
          rw [List.flatMap_cons, ← hinserts, inferredRows, hinfer]
          rfl

end Inserts

/-! ## A target at its commits -/

section Walks

variable {target : HistoryTarget} {hexdigest : String → String} {batchSize : Nat}
variable {sources : List target.Candidate} {start state state' : HistoryState target}
variable {result : BatchResult} {n : Nat}

/-- The entities without a history, in the order of their ids. -/
def eligible (sources : List target.Candidate) (start : HistoryState target) :
    List target.Candidate :=
  ordered target.entityId (withoutHistory sources start.history)

/-- The checkpoint behind the first `n` of them. -/
def checkpointAt (sources : List target.Candidate) (start : HistoryState target) (n : Nat) :
    Option Nat :=
  checkpoint target.entityId (withoutHistory sources start.history) n

/-- The `n`-th of them and those that follow it, as far as a batch reaches. -/
def pageAt (batchSize : Nat) (sources : List target.Candidate) (start : HistoryState target)
    (n : Nat) : List target.Candidate :=
  ((eligible sources start).drop n).take batchSize

/-- The first `n` of them have got their rows. -/
structure Walked (hexdigest : String → String) (sources : List target.Candidate)
    (start state : HistoryState target) (n : Nat) : Prop where
  history : state.history = start.history ++
    ((eligible sources start).take n).flatMap (inferredRows hexdigest)
  inferable : ∀ row ∈ (eligible sources start).take n, (target.infer hexdigest row).isSome
  lastKey : state.ledger.lastKey = (checkpointAt sources start n).map toString
  completed : state.ledger.completed = true → (eligible sources start).length ≤ n

/-- One candidate for each entity, digests that tell the texts of their rows apart, and
no row of the history with the event id of another entity. -/
structure Sound (hexdigest : String → String) (sources : List target.Candidate)
    (start : HistoryState target) : Prop where
  distinct : (sources.map target.entityId).Nodup
  digest : Set.InjOn hexdigest (eventTexts target sources)
  unclaimed : ∀ row ∈ withoutHistory sources start.history,
    ∀ new ∈ inferredRows hexdigest row, ∀ recorded ∈ start.history,
      recorded.sourceEventId ≠ new.sourceEventId

theorem walked_start (hfresh : start.progress = none) : Walked hexdigest sources start start 0 where
  history := (List.append_nil _).symm
  inferable := fun _ hmem => nomatch hmem
  lastKey := by
    rw [HistoryState.ledger, hfresh]
    rfl
  completed := fun h => by
    rw [HistoryState.ledger, hfresh] at h
    cases h

theorem Sound.nodup_withoutHistory (hsound : Sound hexdigest sources start) :
    ((withoutHistory sources start.history).map target.entityId).Nodup :=
  hsound.distinct.sublist (List.filter_sublist.map _)

theorem Sound.nodup_eligible (hsound : Sound hexdigest sources start) :
    ((eligible sources start).map target.entityId).Nodup :=
  ((perm_ordered target.entityId).map target.entityId).nodup_iff.mpr hsound.nodup_withoutHistory

theorem mem_withoutHistory_of_mem_eligible {row : target.Candidate}
    (h : row ∈ eligible sources start) : row ∈ withoutHistory sources start.history :=
  (perm_ordered target.entityId).mem_iff.mp h

/-- Behind the checkpoint the query finds what it would have found at the start. -/
theorem Walked.behind_eq (hsound : Sound hexdigest sources start)
    (h : Walked hexdigest sources start state n) :
    behind target.entityId (checkpointAt sources start n) (withoutHistory sources state.history) =
      behind target.entityId (checkpointAt sources start n)
        (withoutHistory sources start.history) := by
  rw [behind, behind, withoutHistory, withoutHistory, List.filter_filter, List.filter_filter]
  refine List.filter_congr (fun row _ => ?_)
  by_cases hbehind : Behind (checkpointAt sources start n) (target.entityId row)
  · have hothers : ∀ recorded ∈ ((eligible sources start).take n).flatMap (inferredRows hexdigest),
        recorded.recordId ≠ target.entityId row := by
      intro recorded hrecorded hsame
      obtain ⟨earlier, hearlier, hrow⟩ := List.mem_flatMap.mp hrecorded
      rw [recordId_of_mem_inferredRows hexdigest hrow] at hsame
      exact not_behind_checkpoint hsound.nodup_withoutHistory hearlier (hsame ▸ hbehind)
    have hiff : (∀ recorded ∈ state.history, recorded.recordId ≠ target.entityId row) ↔
        ∀ recorded ∈ start.history, recorded.recordId ≠ target.entityId row := by
      rw [h.history, List.forall_mem_append]
      exact and_iff_left hothers
    simp only [hbehind, hiff]
  · simp only [hbehind, decide_false, Bool.false_and]

/-- The text of the checkpoint leads to the next page. -/
theorem fetchCandidates_eq (hsound : Sound hexdigest sources start) (batchSize : Nat)
    {history : List (StatusHistoryRow target.Status)}
    (hbehind : behind target.entityId (checkpointAt sources start n)
        (withoutHistory sources history) =
      behind target.entityId (checkpointAt sources start n)
        (withoutHistory sources start.history)) :
    fetchCandidates batchSize sources history ((checkpointAt sources start n).map toString) =
      some (pageAt batchSize sources start n) := by
  have hpage : page target.entityId batchSize (checkpointAt sources start n)
      (withoutHistory sources history) = pageAt batchSize sources start n := by
    rw [page_congr hbehind]
    exact page_checkpoint hsound.nodup_withoutHistory batchSize n
  cases hcheckpoint : checkpointAt sources start n with
  | none =>
      rw [hcheckpoint] at hpage
      rw [Option.map_none, fetchCandidates, hpage]
  | some k =>
      rw [hcheckpoint] at hpage
      have hnat : (toString k).toNat? = some k := Nat.toNat?_repr k
      rw [Option.map_some, fetchCandidates, hnat, Option.map_some, hpage]

/-- The last id of a page is the checkpoint behind it. -/
theorem lastKeyOf_pageAt (hsound : Sound hexdigest sources start)
    (hpage : pageAt batchSize sources start n ≠ []) :
    lastKeyOf (pageAt batchSize sources start n) =
      (checkpointAt sources start (n + batchSize)).map toString := by
  have hposition := page_checkpoint hsound.nodup_withoutHistory batchSize n
  have hne : page target.entityId batchSize (checkpointAt sources start n)
      (withoutHistory sources start.history) ≠ [] := by
    rw [checkpointAt, hposition]
    exact hpage
  have hlast := checkpoint_page hsound.nodup_withoutHistory hne
  rw [hposition] at hlast
  rw [checkpointAt, ← hlast, Option.map_map]
  rfl

/-- The rows of the next page join those of the earlier ones. -/
theorem Walked.advanced (hsound : Sound hexdigest sources start)
    (h : Walked hexdigest sources start state n) (hcompleted : state.ledger.completed = false)
    (hpage : pageAt batchSize sources start n ≠ []) {batch : InferenceBatch target.Status}
    (hbatch : buildBatch hexdigest (pageAt batchSize sources start n) = some batch) :
    Walked hexdigest sources start (advanced state (pageAt batchSize sources start n) batch)
      (n + batchSize) := by
  obtain ⟨hinferable, hinserts⟩ := buildBatch_eq_some hbatch
  have htake : (eligible sources start).take (n + batchSize) =
      (eligible sources start).take n ++ pageAt batchSize sources start n :=
    List.take_add
  have hmem : ∀ row ∈ (eligible sources start).take (n + batchSize),
      row ∈ withoutHistory sources start.history := fun row hrow =>
    mem_withoutHistory_of_mem_eligible (List.mem_of_mem_take hrow)
  have hids := nodup_eventIds hsound.digest
    (fun row hrow => (List.mem_filter.mp (hmem row hrow)).1)
    (hsound.nodup_eligible.sublist ((List.take_sublist _ _).map _))
  rw [htake, List.flatMap_append, List.map_append, List.nodup_append'] at hids
  obtain ⟨_, hrest, hdisjoint⟩ := hids
  have hinsert : insertRows state.history batch.inserts = state.history ++ batch.inserts := by
    rw [hinserts]
    refine insertRows_eq (fun row hrow recorded hrecorded hsame => ?_) hrest
    rw [h.history] at hrecorded
    rcases List.mem_append.mp hrecorded with hold | hearlier
    · obtain ⟨candidate, hcandidate, hnew⟩ := List.mem_flatMap.mp hrow
      have hlater : candidate ∈ (eligible sources start).take (n + batchSize) := by
        rw [htake]
        exact List.mem_append_right _ hcandidate
      exact hsound.unclaimed candidate (hmem candidate hlater) row hnew recorded hold hsame
    · exact hdisjoint (List.mem_map_of_mem hearlier) (hsame ▸ List.mem_map_of_mem hrow)
  refine ⟨?_, ?_, lastKeyOf_pageAt hsound hpage, ?_⟩
  · calc insertRows state.history batch.inserts
        = start.history ++ ((eligible sources start).take n).flatMap (inferredRows hexdigest) ++
            (pageAt batchSize sources start n).flatMap (inferredRows hexdigest) := by
          rw [hinsert, h.history, hinserts]
      _ = start.history ++ ((eligible sources start).take (n + batchSize)).flatMap
            (inferredRows hexdigest) := by
          rw [htake, List.flatMap_append, List.append_assoc]
  · rw [htake]
    exact List.forall_mem_append.mpr ⟨h.inferable, hinferable⟩
  · intro htrue
    exact absurd (htrue.symm.trans hcompleted) Bool.noConfusion

/-- All that a batch of `run` can do. -/
theorem Walked.runBatch (hsound : Sound hexdigest sources start) (hsize : 1 ≤ batchSize)
    (h : Walked hexdigest sources start state n)
    (hbatch : runBatch hexdigest batchSize sources state = some (state', result)) :
    (state.ledger.completed = true ∧ state' = ⟨state.history, some state.ledger⟩ ∧
      result.completed = true ∧ Walked hexdigest sources start state' n) ∨
    (state.ledger.completed = false ∧ state'.ledger.completed = true ∧
      pageAt batchSize sources start n = [] ∧
      result = HistoryBackfill.result ([] : List target.Candidate) ⟨[], 0⟩ false true ∧
      Walked hexdigest sources start state' n) ∨
    (state.ledger.completed = false ∧ state'.ledger.completed = false ∧
      pageAt batchSize sources start n ≠ [] ∧
      ∃ batch, buildBatch hexdigest (pageAt batchSize sources start n) = some batch ∧
        result = HistoryBackfill.result (pageAt batchSize sources start n) batch false false ∧
        Walked hexdigest sources start state' (n + batchSize)) := by
  have hfetch := fetchCandidates_eq hsound batchSize (h.behind_eq hsound)
  rw [← h.lastKey] at hfetch
  rw [HistoryBackfill.runBatch, hfetch] at hbatch
  split at hbatch
  · rename_i hcompleted
    cases hbatch
    exact Or.inl ⟨hcompleted, rfl, rfl, h.history, h.inferable, h.lastKey, h.completed⟩
  · rename_i hcompleted
    have hopen := eq_false_of_ne_true hcompleted
    rw [Option.bind_some] at hbatch
    split at hbatch
    · rename_i hempty
      have hnil := List.isEmpty_iff.mp hempty
      rw [hnil] at hbatch
      cases hbatch
      have hend : (eligible sources start).length ≤ n := by
        rw [pageAt, List.take_eq_nil_iff, List.drop_eq_nil_iff] at hnil
        exact hnil.resolve_left (Nat.one_le_iff_ne_zero.mp hsize)
      exact Or.inr (Or.inl ⟨hopen, rfl, hnil, rfl, h.history, h.inferable, h.lastKey, fun _ => hend⟩)
    · rename_i hnonempty
      have hpage : pageAt batchSize sources start n ≠ [] := fun hnil =>
        hnonempty (List.isEmpty_iff.mpr hnil)
      obtain ⟨batch, hbuild, heq⟩ := Option.map_eq_some_iff.mp hbatch
      obtain ⟨rfl, rfl⟩ := Prod.mk.inj heq
      exact Or.inr (Or.inr ⟨hopen, hopen, hpage, batch, hbuild, rfl,
        h.advanced hsound hopen hpage hbuild⟩)

end Walks

/-! ## Dry runs -/

section DryRuns

variable {target : HistoryTarget} {hexdigest : String → String} {batchSize : Nat}
variable {sources : List target.Candidate} {start : HistoryState target} {n : Nat}

/-- Fewer batches report a part of what more batches report. -/
theorem dryRunFrom_take {history : List (StatusHistoryRow target.Status)} {batches more : Nat}
    {lastKey : Option String} {results : List BatchResult}
    (h : dryRunFrom hexdigest batchSize sources history (batches + more) lastKey = some results) :
    dryRunFrom hexdigest batchSize sources history batches lastKey =
      some (results.take batches) := by
  induction batches generalizing lastKey results with
  | zero => rw [dryRunFrom, List.take_zero]
  | succ batches ih =>
      rw [Nat.succ_add, dryRunFrom] at h
      rw [dryRunFrom]
      obtain ⟨rows, hrows, h⟩ := Option.bind_eq_some_iff.mp h
      rw [hrows, Option.bind_some]
      split at h
      · rename_i hempty
        rw [if_pos hempty]
        cases h
        rw [List.take_of_length_le (by simp)]
      · rename_i hnonempty
        rw [if_neg hnonempty]
        obtain ⟨batch, hbatch, h⟩ := Option.bind_eq_some_iff.mp h
        obtain ⟨rest, hrest, rfl⟩ := Option.map_eq_some_iff.mp h
        rw [hbatch, Option.bind_some, ih hrest, Option.map_some, List.take_succ_cons]

/-- One batch of a dry run, in the middle of the rows. -/
theorem dryRunFrom_page (hsound : Sound hexdigest sources start)
    (hpage : pageAt batchSize sources start n ≠ []) {batch : InferenceBatch target.Status}
    (hbatch : buildBatch hexdigest (pageAt batchSize sources start n) = some batch)
    (batches : Nat) :
    dryRunFrom hexdigest batchSize sources start.history (batches + 1)
        ((checkpointAt sources start n).map toString) =
      (dryRunFrom hexdigest batchSize sources start.history batches
        ((checkpointAt sources start (n + batchSize)).map toString)).map
          (fun results => result (pageAt batchSize sources start n) batch true false :: results) := by
  have hempty : ¬ (pageAt batchSize sources start n).isEmpty = true := fun h =>
    hpage (List.isEmpty_iff.mp h)
  rw [dryRunFrom, fetchCandidates_eq hsound batchSize rfl, Option.bind_some, if_neg hempty, hbatch,
    Option.bind_some, lastKeyOf_pageAt hsound hpage]

/-- A dry run behind the last row. -/
theorem dryRunFrom_end (hsound : Sound hexdigest sources start)
    (hpage : pageAt batchSize sources start n = []) (batches : Nat) :
    dryRunFrom hexdigest batchSize sources start.history (batches + 1)
        ((checkpointAt sources start n).map toString) =
      some [result ([] : List target.Candidate) ⟨[], 0⟩ true true] := by
  rw [dryRunFrom, fetchCandidates_eq hsound batchSize rfl, Option.bind_some, hpage]
  rfl

end DryRuns

end HistoryBackfill
end Generator
end Northwind
