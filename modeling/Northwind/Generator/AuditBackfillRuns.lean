import Northwind.Generator.AuditBackfill
import Mathlib.Data.String.Basic

/-!
# Runs of the audit backfill

`Walked` is what holds of a table at every commit: its batches so far are the first
keys of the table in order, their rows are backfilled and the other rows are as at the
start, and the ledger has the last of these keys and their number.
-/

namespace Northwind
namespace Generator
namespace AuditBackfill

open Keysets

/-! ## A table at its commits -/

section Walks

variable {κ : Type} {table : AuditTable}

/-- The keys of a table in order. -/
def orderedKeys [LinearOrder κ] (rows : List (AuditRow κ table)) : List κ :=
  ordered (fun k => k) (rows.map AuditRow.key)

/-- The rows with the backfilled ones among them. -/
def backfilledUpTo [DecidableEq κ] (keys : List κ) (rows : List (AuditRow κ table)) :
    List (AuditRow κ table) :=
  rows.map (fun row => if row.key ∈ keys then backfilled row else row)

/-- The first `n` rows of a table have been in its batches. -/
structure Walked [LinearOrder κ] (text : κ → String) (start : List (AuditRow κ table))
    (state : TargetState κ table) (batches : List (Batch κ)) (n : Nat) : Prop where
  rows : state.rows = backfilledUpTo ((orderedKeys start).take n) start
  batches : (batches.map Batch.keys).flatten = (orderedKeys start).take n
  lastKey : state.ledger.lastKey =
    (checkpoint (fun k => k) (start.map AuditRow.key) n).map text
  scanned : state.ledger.rowsScanned = ((orderedKeys start).take n).length
  completed : state.ledger.completed = true → start.length ≤ n

variable [LinearOrder κ] {text : κ → String} {cast : String → Option κ} {batchSize : Nat}
variable {start : List (AuditRow κ table)} {state state' : TargetState κ table}
variable {batches : List (Batch κ)} {batch : Batch κ} {n : Nat}

theorem length_orderedKeys : (orderedKeys start).length = start.length := by
  rw [orderedKeys, length_ordered, List.length_map]

theorem walked_start (hfresh : state.progress = none) : Walked text state.rows state [] 0 where
  rows := by
    rw [backfilledUpTo, List.take_zero]
    simp
  batches := rfl
  lastKey := by
    rw [TargetState.ledger, hfresh]
    rfl
  scanned := by
    rw [TargetState.ledger, hfresh]
    rfl
  completed := fun h => by
    rw [TargetState.ledger, hfresh] at h
    cases h

/-- The keys stay as they are. -/
theorem map_key_backfilledUpTo (keys : List κ) :
    (backfilledUpTo keys start).map AuditRow.key = start.map AuditRow.key := by
  rw [backfilledUpTo, List.map_map]
  refine List.map_congr_left (fun row _ => ?_)
  rw [Function.comp_apply]
  split
  · rfl
  · rfl

/-- Keys that come up for the first time are backfilled with the earlier ones. -/
theorem updateSql_backfilledUpTo {keys keys' : List κ} (hnew : ∀ k ∈ keys', k ∉ keys) :
    updateSql keys' (backfilledUpTo keys start) = backfilledUpTo (keys ++ keys') start := by
  rw [updateSql, backfilledUpTo, backfilledUpTo, List.map_map]
  refine List.map_congr_left (fun row _ => ?_)
  rw [Function.comp_apply]
  by_cases hold : row.key ∈ keys
  · have hnot : row.key ∉ keys' := fun hmem => hnew row.key hmem hold
    simp [hold, selects, backfilled, hnot]
  · by_cases hmem : row.key ∈ keys'
    · cases hneeds : needsBackfill row.source row.fields with
      | false =>
          have hsame := targetSet_of_not_needsBackfill hneeds
          simp [hold, hmem, selects, backfilled, hneeds, hsame]
      | true => simp [hold, hmem, selects, backfilled, hneeds]
    · simp [hold, hmem, selects]

/-- The ledger leads to the page behind the first rows. -/
theorem keysBehind_eq (hcast : ∀ k, cast (text k) = some k) (h : Walked text start state batches n) :
    keysBehind cast batchSize state.rows state.ledger.lastKey =
      some (page (fun k => k) batchSize (checkpoint (fun k => k) (start.map AuditRow.key) n)
        (start.map AuditRow.key)) := by
  rw [h.lastKey, h.rows]
  cases hcheckpoint : checkpoint (fun k => k) (start.map AuditRow.key) n with
  | none => rw [Option.map_none, keysBehind, map_key_backfilledUpTo]
  | some k => rw [Option.map_some, keysBehind, hcast, map_key_backfilledUpTo, Option.map_some]

/-- No batch raises. -/
theorem exists_runBatch (hcast : ∀ k, cast (text k) = some k) (batchSize : Nat)
    (h : Walked text start state batches n) :
    ∃ state' batch, runBatch text cast batchSize state = some (state', batch) := by
  rw [runBatch, keysBehind_eq hcast h]
  split
  · exact ⟨_, _, rfl⟩
  · exact ⟨_, _, rfl⟩

/-- The next keys behind the first ones. -/
theorem Walked.advanced (hunique : (start.map AuditRow.key).Nodup)
    (h : Walked text start state batches n) (hcompleted : state.ledger.completed = false)
    {keys : List κ} (hkeys : keys = ((orderedKeys start).drop n).take batchSize)
    (hlast : keys.getLast? =
      checkpoint (fun k => k) (start.map AuditRow.key) (n + batchSize)) (updated : Nat) :
    Walked text start (advanced text state keys) (batches ++ [⟨keys, updated, false⟩])
      (n + batchSize) := by
  have htake : (orderedKeys start).take (n + batchSize) = (orderedKeys start).take n ++ keys := by
    rw [hkeys, List.take_add]
  have hnew : ∀ k ∈ keys, k ∉ (orderedKeys start).take n := by
    have hnodup : (orderedKeys start).Nodup := (perm_ordered _).nodup_iff.mpr hunique
    rw [← List.take_append_drop n (orderedKeys start)] at hnodup
    intro k hk hold
    rw [hkeys] at hk
    exact (List.disjoint_of_nodup_append hnodup) hold (List.mem_of_mem_take hk)
  refine ⟨?_, ?_, ?_, ?_, ?_⟩
  · calc updateSql keys state.rows
        = updateSql keys (backfilledUpTo ((orderedKeys start).take n) start) := by rw [h.rows]
      _ = backfilledUpTo ((orderedKeys start).take (n + batchSize)) start := by
        rw [updateSql_backfilledUpTo hnew, htake]
  · rw [List.map_append, List.flatten_append, h.batches, htake]
    simp
  · exact congrArg (Option.map text) hlast
  · calc state.ledger.rowsScanned + keys.length
        = ((orderedKeys start).take n).length + keys.length := by rw [h.scanned]
      _ = ((orderedKeys start).take (n + batchSize)).length := by rw [htake, List.length_append]
  · intro htrue
    exact absurd (htrue.symm.trans hcompleted) Bool.noConfusion

/-- One batch: it completes the table behind its last row, or it takes the next rows. -/
theorem Walked.runBatch (hcast : ∀ k, cast (text k) = some k) (hsize : 0 < batchSize)
    (hunique : (start.map AuditRow.key).Nodup) (h : Walked text start state batches n)
    (hbatch : runBatch text cast batchSize state = some (state', batch)) :
    ∃ n', Walked text start state' (batches ++ [batch]) n' ∧
      (batch.completed = false → n < n' ∧ n < start.length) := by
  have hdistinct : ((start.map AuditRow.key).map (fun k => k)).Nodup := by
    rwa [List.map_id']
  have hnone : (batches.map Batch.keys ++ [[]]).flatten = (orderedKeys start).take n := by
    rw [List.flatten_append, h.batches]
    exact List.append_nil _
  obtain ⟨_, rfl, rfl⟩ | ⟨hcompleted, keys, hkeys, hcases⟩ := runBatch_cases hbatch
  · refine ⟨n, ⟨h.rows, ?_, h.lastKey, h.scanned, h.completed⟩, fun hfalse => nomatch hfalse⟩
    rwa [List.map_append]
  rw [keysBehind_eq hcast h] at hkeys
  obtain rfl := Option.some.inj hkeys
  obtain ⟨hnil, rfl, rfl⟩ | ⟨hne, rfl, rfl⟩ := hcases
  · have hlength := length_le_of_page_eq_nil hdistinct hsize hnil
    rw [List.length_map] at hlength
    refine ⟨n, ⟨h.rows, ?_, h.lastKey, h.scanned, fun _ => hlength⟩, fun hfalse => nomatch hfalse⟩
    rwa [List.map_append]
  · have hpage := page_checkpoint hdistinct batchSize n
    have hlast := checkpoint_page hdistinct hne
    rw [Option.map_id'] at hlast
    refine ⟨n + batchSize, h.advanced hunique hcompleted hpage hlast _, fun _ => ?_⟩
    refine ⟨Nat.lt_add_of_pos_right hsize, ?_⟩
    by_contra hend
    rw [hpage, List.drop_eq_nil_of_le, List.take_nil] at hne
    · exact hne rfl
    · rw [length_ordered, List.length_map]
      exact Nat.le_of_not_lt hend

end Walks

/-! ## The tables of a database -/

section Logs

variable {κ : AuditTable → Type} {table : AuditTable}

theorem batchesOf_append (log log' : List (Commit κ)) :
    batchesOf table (log ++ log') = batchesOf table log ++ batchesOf table log' :=
  List.filterMap_append

theorem batchesOf_same (batch : Batch (κ table)) :
    batchesOf table [(⟨table, batch⟩ : Commit κ)] = [batch] := by
  simp [batchesOf]

theorem batchesOf_other {other : AuditTable} (hne : other ≠ table) (batch : Batch (κ other)) :
    batchesOf table [(⟨other, batch⟩ : Commit κ)] = [] := by
  simp [batchesOf, hne]

/-- A key of lists without repetition is in one of them. -/
theorem countP_mem_eq_one {β : Type} [DecidableEq β] {xss : List (List β)} {x : β}
    (hnodup : xss.flatten.Nodup) (hx : x ∈ xss.flatten) :
    xss.countP (fun xs => x ∈ xs) = 1 := by
  induction xss with
  | nil => exact nomatch hx
  | cons xs xss ih =>
      rw [List.flatten_cons, List.nodup_append'] at hnodup
      obtain ⟨_, hrest, hdisjoint⟩ := hnodup
      rw [List.flatten_cons, List.mem_append] at hx
      by_cases hhead : x ∈ xs
      · have hnone : xss.countP (fun xs => x ∈ xs) = 0 := by
          rw [List.countP_eq_zero]
          intro ys hys hmem
          rw [decide_eq_true_eq] at hmem
          exact hdisjoint hhead (List.mem_flatten.mpr ⟨ys, hys, hmem⟩)
        rw [List.countP_cons, hnone]
        simp [hhead]
      · rw [List.countP_cons, ih hrest (hx.resolve_left hhead)]
        simp [hhead]

end Logs

section Runs

variable {κ : AuditTable → Type} [∀ table, LinearOrder (κ table)]
variable {text : ∀ table, κ table → String} {cast : ∀ table, String → Option (κ table)}
variable {start db : Database κ} {log : List (Commit κ)} {args : Arguments}

/-- A run commits batches, as far as it gets. -/
theorem Committed.runFor (h : Committed text cast start db log) (args : Arguments) (k : Nat)
    (tables : List AuditTable) (batches : Nat) :
    Committed text cast start (runFor text cast args k tables batches db).database
      (log ++ (runFor text cast args k tables batches db).commits) := by
  induction k generalizing tables batches db log with
  | zero =>
      cases tables with
      | nil => simpa [AuditBackfill.runFor] using h
      | cons table rest => simpa [AuditBackfill.runFor] using h
  | succ k ih =>
      cases tables with
      | nil => simpa [AuditBackfill.runFor] using h
      | cons table rest =>
          rw [AuditBackfill.runFor]
          cases hbatch : runBatch (text table) (cast table) args.batchSize (db table) with
          | none => simpa using h
          | some result =>
              obtain ⟨state, batch⟩ := result
              have hstep := h.batch args hbatch
              dsimp only
              split
              · have hrest := ih hstep (table :: rest) (batches + 1)
                rwa [List.append_assoc] at hrest
              · have hrest := ih hstep rest 0
                rwa [List.append_assoc] at hrest

theorem Runs.committed (h : Runs text cast start db log) : Committed text cast start db log := by
  induction h with
  | none => exact .none
  | run _ args system k ih => exact ih.runFor args k (targets system) 0

/-- The texts of keys cast back, and keys are unique. -/
structure Keyed (text : ∀ table, κ table → String) (cast : ∀ table, String → Option (κ table))
    (start : Database κ) : Prop where
  casts : ∀ table k, cast table (text table k) = some k
  unique : ∀ table, ((start table).rows.map AuditRow.key).Nodup

/-- What holds of every table at every commit. -/
def AllWalked (text : ∀ table, κ table → String) (start db : Database κ)
    (log : List (Commit κ)) : Prop :=
  ∀ table, ∃ n, Walked (text table) (start table).rows (db table) (batchesOf table log) n

theorem AllWalked.batch (hkeyed : Keyed text cast start) (h : AllWalked text start db log)
    {table : AuditTable} {state : TargetState (κ table) table} {batch : Batch (κ table)}
    (hbatch : runBatch (text table) (cast table) args.batchSize (db table) = some (state, batch)) :
    AllWalked text start (Function.update db table state) (log ++ [⟨table, batch⟩]) := by
  intro table'
  obtain ⟨n, hwalked⟩ := h table'
  rw [batchesOf_append]
  by_cases hsame : table = table'
  · subst hsame
    rw [Function.update_self, batchesOf_same]
    obtain ⟨n', hnext, _⟩ := hwalked.runBatch (hkeyed.casts table) args.size_pos
      (hkeyed.unique table) hbatch
    exact ⟨n', hnext⟩
  · rw [Function.update_of_ne (Ne.symm hsame), batchesOf_other hsame, List.append_nil]
    exact ⟨n, hwalked⟩

theorem allWalked_of_committed (hkeyed : Keyed text cast start)
    (hfresh : ∀ table, (start table).progress = none) (h : Committed text cast start db log) :
    AllWalked text start db log := by
  induction h with
  | none => exact fun table => ⟨0, walked_start (hfresh table)⟩
  | batch _ args hbatch ih => exact ih.batch hkeyed hbatch

/-! ## A run until completion -/

/-- A target is worked off in finitely many batches: each takes some of the rows that
are left, or it is the last one. -/
theorem exists_returned_target (hkeyed : Keyed text cast start) (table : AuditTable)
    {rest : List AuditTable}
    (hrest : ∀ db log, AllWalked text start db log →
      ∃ k, (runFor text cast args k rest 0 db).ending = .returned)
    (left : Nat) {batches n : Nat} (hall : AllWalked text start db log)
    (hn : Walked (text table) (start table).rows (db table) (batchesOf table log) n)
    (hleft : (start table).rows.length ≤ n + left) :
    ∃ k, (runFor text cast args k (table :: rest) batches db).ending = .returned := by
  induction left using Nat.strong_induction_on generalizing db log batches n with
  | _ left ih =>
      obtain ⟨state, batch, hbatch⟩ := exists_runBatch (hkeyed.casts table) args.batchSize hn
      have hnext := hall.batch hkeyed hbatch
      by_cases hcontinue :
          (!batch.completed && (batches + 1 < args.maxBatches || args.untilComplete)) = true
      · obtain ⟨n', hwalked, hmore⟩ := hn.runBatch (hkeyed.casts table) args.size_pos
          (hkeyed.unique table) hbatch
        have hopen : batch.completed = false := by
          rw [Bool.and_eq_true, Bool.not_eq_true'] at hcontinue
          exact hcontinue.1
        obtain ⟨hlt, hend⟩ := hmore hopen
        have hwalked' : Walked (text table) (start table).rows
            (Function.update db table state table)
            (batchesOf table (log ++ [⟨table, batch⟩])) n' := by
          rw [Function.update_self, batchesOf_append, batchesOf_same]
          exact hwalked
        have hlater : ∃ k, (runFor text cast args k (table :: rest) (batches + 1)
            (Function.update db table state)).ending = .returned :=
          ih (left - 1) (by omega) hnext hwalked' (by omega)
        obtain ⟨k, hk⟩ := hlater
        refine ⟨k + 1, ?_⟩
        rw [runFor, hbatch]
        dsimp only
        rw [if_pos hcontinue]
        exact hk
      · obtain ⟨k, hk⟩ := hrest _ _ hnext
        refine ⟨k + 1, ?_⟩
        rw [runFor, hbatch]
        dsimp only
        rw [if_neg hcontinue]
        exact hk

/-- Every run returns, from every state that batches lead to. -/
theorem exists_returned (hkeyed : Keyed text cast start) (args : Arguments)
    (tables : List AuditTable) (h : AllWalked text start db log) :
    ∃ k, (runFor text cast args k tables 0 db).ending = .returned := by
  induction tables generalizing db log with
  | nil => exact ⟨0, rfl⟩
  | cons table rest ih =>
      obtain ⟨n, hn⟩ := h table
      exact exists_returned_target hkeyed table (fun _ _ => ih) (start table).rows.length h hn
        (Nat.le_add_left _ n)

/-- What is completed stays completed throughout a run. -/
theorem completed_runFor {table : AuditTable} (hcompleted : (db table).ledger.completed = true)
    (k : Nat) (tables : List AuditTable) (batches : Nat) :
    ((runFor text cast args k tables batches db).database table).ledger.completed = true := by
  induction k generalizing tables batches db with
  | zero =>
      cases tables with
      | nil => exact hcompleted
      | cons _ _ => exact hcompleted
  | succ k ih =>
      cases tables with
      | nil => exact hcompleted
      | cons other rest =>
          rw [runFor]
          cases hbatch : runBatch (text other) (cast other) args.batchSize (db other) with
          | none => exact hcompleted
          | some result =>
              obtain ⟨state, batch⟩ := result
              have hafter : (Function.update db other state table).ledger.completed = true := by
                by_cases hsame : table = other
                · subst hsame
                  rw [Function.update_self]
                  exact completed_runBatch hbatch hcompleted
                · rwa [Function.update_of_ne hsame]
              dsimp only
              split
              · exact ih hafter (other :: rest) (batches + 1)
              · exact ih hafter rest 0

/-- A run until completion that returns has completed its targets. -/
theorem completed_of_returned (huntil : args.untilComplete = true) {k : Nat}
    {tables : List AuditTable} {batches : Nat}
    (hreturned : (runFor text cast args k tables batches db).ending = .returned) :
    ∀ table ∈ tables,
      ((runFor text cast args k tables batches db).database table).ledger.completed = true := by
  induction k generalizing tables batches db with
  | zero =>
      cases tables with
      | nil => exact fun _ hmem => nomatch hmem
      | cons _ _ => cases hreturned
  | succ k ih =>
      cases tables with
      | nil => exact fun _ hmem => nomatch hmem
      | cons table rest =>
          rw [runFor] at hreturned ⊢
          cases hbatch : runBatch (text table) (cast table) args.batchSize (db table) with
          | none =>
              rw [hbatch] at hreturned
              cases hreturned
          | some result =>
              obtain ⟨state, batch⟩ := result
              rw [hbatch] at hreturned
              dsimp only at hreturned ⊢
              split at hreturned
              · rename_i hcontinue
                rw [if_pos hcontinue]
                exact ih hreturned
              · rename_i hstop
                rw [if_neg hstop]
                have hbatched : batch.completed = true := by simpa [huntil] using hstop
                have hafter : (Function.update db table state table).ledger.completed = true := by
                  rw [Function.update_self]
                  exact completed_of_runBatch hbatch hbatched
                intro table' hmem
                rcases List.mem_cons.mp hmem with rfl | hlater
                · exact completed_runFor hafter k rest 0
                · exact ih hreturned table' hlater

/-- Fields with values are kept at every commit. -/
theorem Walked.kept {κ : Type} {table : AuditTable} [LinearOrder κ] {text : κ → String}
    {start : List (AuditRow κ table)} {state : TargetState κ table} {batches : List (Batch κ)}
    {n : Nat} (h : Walked text start state batches n) : List.Forall₂ Kept start state.rows := by
  rw [h.rows, backfilledUpTo, List.forall₂_map_right_iff, List.forall₂_same]
  intro row _
  split
  · exact (filled_backfilled row).toKept
  · exact kept_refl row

/-- A completed table has been walked to its end. -/
theorem Walked.whole {κ : Type} {table : AuditTable} [LinearOrder κ] {text : κ → String}
    {start : List (AuditRow κ table)} {state : TargetState κ table} {batches : List (Batch κ)}
    {n : Nat} (hunique : (start.map AuditRow.key).Nodup) (h : Walked text start state batches n)
    (hcompleted : state.ledger.completed = true) :
    (∀ row ∈ start, batches.countP (fun batch => row.key ∈ batch.keys) = 1) ∧
      state.ledger.rowsScanned = start.length ∧ List.Forall₂ Filled start state.rows := by
  have hall : (orderedKeys start).take n = orderedKeys start := by
    apply List.take_of_length_le
    rw [length_orderedKeys]
    exact h.completed hcompleted
  have hkey : ∀ row ∈ start, row.key ∈ orderedKeys start := fun row hrow =>
    (perm_ordered _).mem_iff.mpr (List.mem_map_of_mem hrow)
  refine ⟨?_, ?_, ?_⟩
  · intro row hrow
    have hflat : (batches.map Batch.keys).flatten = orderedKeys start := h.batches.trans hall
    have hnodup : (batches.map Batch.keys).flatten.Nodup := by
      rw [hflat]
      exact (perm_ordered _).nodup_iff.mpr hunique
    have hmem : row.key ∈ (batches.map Batch.keys).flatten := by
      rw [hflat]
      exact hkey row hrow
    have hone := countP_mem_eq_one hnodup hmem
    rwa [List.countP_map] at hone
  · rw [h.scanned, hall, length_orderedKeys]
  · rw [h.rows, hall, backfilledUpTo, List.forall₂_map_right_iff, List.forall₂_same]
    intro row hrow
    rw [if_pos (hkey row hrow)]
    exact filled_backfilled row

/-- After any runs, ended or crashed, fields with values are as at the start; and a run
until completion returns and leaves its tables with each row in one committed batch, all
rows counted and all audit fields filled. -/
theorem backfill_covers_once
    (hcasts : ∀ table k, cast table (text table k) = some k)
    (hunique : ∀ table, ((start table).rows.map AuditRow.key).Nodup)
    (hfresh : ∀ table, (start table).progress = none)
    (hruns : Runs text cast start db log)
    (huntil : args.untilComplete = true) (system : SourceSystem) :
    (∀ table, List.Forall₂ Kept (start table).rows (db table).rows) ∧
    ∃ k outcome, runFor text cast args k (targets system) 0 db = outcome ∧
      outcome.ending = .returned ∧ ∀ table ∈ targets system,
        (∀ row ∈ (start table).rows, (batchesOf table (log ++ outcome.commits)).countP
          (fun batch => row.key ∈ batch.keys) = 1) ∧
        (∃ progress, (outcome.database table).progress = some progress ∧
          progress.completed = true ∧ progress.rowsScanned = (start table).rows.length) ∧
        List.Forall₂ Filled (start table).rows (outcome.database table).rows := by
  have hkeyed : Keyed text cast start := ⟨hcasts, hunique⟩
  have hwalked := allWalked_of_committed hkeyed hfresh hruns.committed
  constructor
  · intro table
    obtain ⟨n, hn⟩ := hwalked table
    exact hn.kept
  · obtain ⟨k, hreturned⟩ := exists_returned hkeyed args (targets system) hwalked
    refine ⟨k, _, rfl, hreturned, fun table htable => ?_⟩
    have hcompleted := completed_of_returned huntil hreturned table htable
    have hlast := allWalked_of_committed hkeyed hfresh
      (hruns.committed.runFor args k (targets system) 0)
    obtain ⟨n, hn⟩ := hlast table
    obtain ⟨honce, hscanned, hfilled⟩ := hn.whole (hunique table) hcompleted
    refine ⟨honce, ?_, hfilled⟩
    generalize (runFor text cast args k (targets system) 0 db).database table = state at *
    rw [TargetState.ledger] at hcompleted hscanned
    cases hprogress : state.progress with
    | none =>
        rw [hprogress] at hcompleted
        cases hcompleted
    | some progress =>
        rw [hprogress] at hcompleted hscanned
        exact ⟨progress, rfl, hcompleted, hscanned⟩

end Runs

/-! ## Two warehouses -/

/-- Two warehouses without audit fields, and no other rows. -/
def twoWarehouses : Database (fun _ => String)
  | .warehouses => ⟨[⟨"WH-B", .warehouses, ⟨none, none⟩⟩, ⟨"WH-A", .warehouses, ⟨none, none⟩⟩], none⟩
  | _ => ⟨[], none⟩

/-- Batches of one row, until completion. -/
def singleRows : Arguments where
  batchSize := 1
  maxBatches := 1
  untilComplete := true
  size_pos := by decide
  size_le := by decide
  batches_pos := by decide

/-- A run that crashes behind three batches, of which the last one is of warehouses. -/
theorem backfill_covers_once_warehouses :
    ∃ k outcome, runFor (fun _ k => k) (fun _ s => some s) singleRows k (targets .ops) 0
        (runFor (fun _ k => k) (fun _ s => some s) singleRows 3 (targets .ops) 0
          twoWarehouses).database = outcome ∧
      outcome.ending = .returned ∧
      List.Forall₂ Filled (twoWarehouses .warehouses).rows
        (outcome.database .warehouses).rows := by
  have hunique : ∀ table, ((twoWarehouses table).rows.map AuditRow.key).Nodup := by
    intro table
    cases table with
    | warehouses => exact (by decide : ["WH-B", "WH-A"].Nodup)
    | _ => exact List.nodup_nil
  have hfresh : ∀ table, (twoWarehouses table).progress = none := by
    intro table
    cases table with
    | _ => rfl
  have hruns : Runs (fun _ k => k) (fun _ s => some s) twoWarehouses _ _ :=
    Runs.none.run singleRows .ops 3
  have hcovers := backfill_covers_once (fun _ _ => rfl) hunique hfresh hruns
    (rfl : singleRows.untilComplete = true) .ops
  obtain ⟨_, k, outcome, hrun, hreturned, htables⟩ := hcovers
  exact ⟨k, outcome, hrun, hreturned, (htables .warehouses (by decide)).2.2⟩

end AuditBackfill
end Generator
end Northwind
