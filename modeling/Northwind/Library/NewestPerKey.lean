import Mathlib.Data.List.Dedup
import Mathlib.Data.List.MinMax
import Mathlib.Data.List.Perm.Basic
import Mathlib.Data.List.Nodup

/-!
# Keeping the newest element of every key

A log of versioned records holds several records of one key.  A reader wants
one record per key, the one of greatest version.  This module develops that
operation over an arbitrary record type, key and linearly ordered version.

The engine that ranks the records is free to break ties between equal
versions.  That freedom is a parameter, `TieBreak`, and every fact below holds
for all of its values.

Results used by the developments on top:

* `isNewest_of_mem_newestPerKey`: what is kept is a newest record of its key;
* `keys_newestPerKey`: every key is kept exactly once;
* `mem_newestPerKey_iff`: without ties the result does not depend on the
  tie-breaking;
* `perm_newestPerKey_iff`: a list is the ranking, up to order, exactly when it
  lists the newest records once.
-/

namespace Northwind
namespace NewestPerKey

universe u v w

variable {ρ : Type u} {κ : Type v} {ν : Type w}
variable [LinearOrder ν]

/-- `r` is an element of `rows` that no element of its key exceeds. -/
def IsNewest
    (key : ρ → κ) (ver : ρ → ν) (rows : List ρ) (r : ρ) : Prop :=
  r ∈ rows ∧ ∀ r' ∈ rows, key r' = key r → ver r' ≤ ver r

/-- Two records of one key and one version are the same record. -/
def VersionsIdentify
    (key : ρ → κ) (ver : ρ → ν) (rows : List ρ) : Prop :=
  ∀ r ∈ rows, ∀ r' ∈ rows, key r = key r' → ver r = ver r' → r = r'

/-- One of the maximal records of a list, chosen by the ranking engine. -/
structure TieBreak (ver : ρ → ν) where
  pick : List ρ → Option ρ
  pick_mem : ∀ {rows r}, pick rows = some r → r ∈ rows
  le_pick : ∀ {rows r}, pick rows = some r → ∀ r' ∈ rows, ver r' ≤ ver r
  pick_nil : ∀ {rows}, pick rows = none → rows = []

/-- The engine that keeps the first maximal record in scan order. -/
def TieBreak.firstInScan (ver : ρ → ν) : TieBreak ver where
  pick := List.argmax ver
  pick_mem := fun h => List.argmax_mem h
  le_pick := fun h _ hr' => List.le_of_mem_argmax hr' h
  pick_nil := fun h => List.argmax_eq_none.mp h

/-- A nonempty list always has a chosen record. -/
theorem TieBreak.exists_pick
    {ver : ρ → ν} (T : TieBreak ver) {rows : List ρ} {r : ρ}
    (hr : r ∈ rows) :
    ∃ m, T.pick rows = some m := by
  cases hm : T.pick rows with
  | some m => exact ⟨m, rfl⟩
  | none =>
      rw [T.pick_nil hm] at hr
      simp at hr

/-- Some engine chooses any given maximal record of a list. -/
theorem TieBreak.exists_choosing
    (ver : ρ → ν) {rows : List ρ} {r : ρ}
    (hr : r ∈ rows) (hmax : ∀ r' ∈ rows, ver r' ≤ ver r) :
    ∃ T : TieBreak ver, T.pick rows = some r := by
  classical
  refine ⟨{
    pick := fun rows' => if rows' = rows then some r else (firstInScan ver).pick rows'
    pick_mem := ?_
    le_pick := ?_
    pick_nil := ?_ }, if_pos rfl⟩
  · intro rows' m hm
    split at hm
    · rename_i heq
      rw [← Option.some.inj hm, heq]
      exact hr
    · exact (firstInScan ver).pick_mem hm
  · intro rows' m hm
    split at hm
    · rename_i heq
      rw [← Option.some.inj hm, heq]
      exact hmax
    · exact (firstInScan ver).le_pick hm
  · intro rows' hm
    split at hm
    · cases hm
    · exact (firstInScan ver).pick_nil hm

/-- With one record per version a key has one newest record. -/
theorem IsNewest.unique
    {key : ρ → κ} {ver : ρ → ν} {rows : List ρ}
    (hid : VersionsIdentify key ver rows) {r r' : ρ}
    (hr : IsNewest key ver rows r) (hr' : IsNewest key ver rows r')
    (hkey : key r = key r') :
    r = r' := by
  apply hid r hr.1 r' hr'.1 hkey
  exact le_antisymm (hr'.2 r hr.1 hkey) (hr.2 r' hr'.1 hkey.symm)

section Ranking

variable [DecidableEq κ] {key : ρ → κ} {ver : ρ → ν}

/-- The records of one key. -/
def ofKey (key : ρ → κ) (k : κ) (rows : List ρ) : List ρ :=
  rows.filter (fun r => key r = k)

@[simp] theorem mem_ofKey
    (key : ρ → κ) (k : κ) (rows : List ρ) (r : ρ) :
    r ∈ ofKey key k rows ↔ r ∈ rows ∧ key r = k := by
  simp [ofKey]

/-- Records of distinct keys hold at most one of each. -/
theorem length_ofKey_le_one
    {rows : List ρ} (hnodup : (rows.map key).Nodup) (k : κ) :
    (ofKey key k rows).length ≤ 1 := by
  have hcount := List.nodup_iff_count_le_one.mp hnodup k
  rw [List.count, List.countP_map, List.countP_eq_length_filter] at hcount
  simpa only [ofKey, Function.comp_def, beq_eq_decide] using hcount

/-- Rank the records of every key and keep rank one. -/
def newestPerKey
    (key : ρ → κ) (T : TieBreak ver) (rows : List ρ) : List ρ :=
  (rows.map key).dedup.filterMap (fun k => T.pick (ofKey key k rows))

/-- The engine's choice among the records of one key is a newest record. -/
theorem isNewest_of_pick_ofKey
    (T : TieBreak ver) {rows : List ρ} {k : κ} {r : ρ}
    (h : T.pick (ofKey key k rows) = some r) :
    key r = k ∧ IsNewest key ver rows r := by
  obtain ⟨hr, hk⟩ := (mem_ofKey key k rows r).mp (T.pick_mem h)
  refine ⟨hk, hr, ?_⟩
  intro r' hr' hkey
  exact T.le_pick h r' ((mem_ofKey key k rows r').mpr ⟨hr', hkey.trans hk⟩)

/-- A kept record is a newest record of its key. -/
theorem isNewest_of_mem_newestPerKey
    (T : TieBreak ver) {rows : List ρ} {r : ρ}
    (h : r ∈ newestPerKey key T rows) :
    IsNewest key ver rows r := by
  obtain ⟨k, _, hpick⟩ := List.mem_filterMap.mp h
  exact (isNewest_of_pick_ofKey T hpick).2

/-- Every key of the input is kept exactly once, in first-occurrence order. -/
theorem keys_newestPerKey
    (T : TieBreak ver) (rows : List ρ) :
    (newestPerKey key T rows).map key = (rows.map key).dedup := by
  have hpick : ∀ k ∈ (rows.map key).dedup,
      (T.pick (ofKey key k rows)).map key = some k := by
    intro k hk
    obtain ⟨r, hr, hrk⟩ := List.mem_map.mp (List.mem_dedup.mp hk)
    obtain ⟨m, hm⟩ :=
      T.exists_pick ((mem_ofKey key k rows r).mpr ⟨hr, hrk⟩)
    rw [hm, Option.map_some, (isNewest_of_pick_ofKey T hm).1]
  unfold newestPerKey
  rw [List.map_filterMap]
  calc
    (rows.map key).dedup.filterMap
        (fun k => (T.pick (ofKey key k rows)).map key)
      = (rows.map key).dedup.filterMap some :=
        List.filterMap_congr hpick
    _ = (rows.map key).dedup := List.filterMap_some

theorem nodup_keys_newestPerKey
    (T : TieBreak ver) (rows : List ρ) :
    ((newestPerKey key T rows).map key).Nodup := by
  rw [keys_newestPerKey]
  exact List.nodup_dedup _

theorem nodup_newestPerKey
    (T : TieBreak ver) (rows : List ρ) :
    (newestPerKey key T rows).Nodup :=
  List.Nodup.of_map key (nodup_keys_newestPerKey T rows)

/-- The kept records have exactly the keys of the input. -/
theorem mem_keys_newestPerKey
    (T : TieBreak ver) (rows : List ρ) (k : κ) :
    (∃ r ∈ newestPerKey key T rows, key r = k) ↔ ∃ r ∈ rows, key r = k := by
  have h : k ∈ (newestPerKey key T rows).map key ↔ k ∈ rows.map key := by
    rw [keys_newestPerKey, List.mem_dedup]
  simpa only [List.mem_map] using h

@[simp] theorem newestPerKey_nil (T : TieBreak ver) :
    newestPerKey key T ([] : List ρ) = [] := by
  simp [newestPerKey]

/-- Without ties the kept records are the newest ones, for every engine. -/
theorem mem_newestPerKey_iff
    (T : TieBreak ver) {rows : List ρ}
    (hid : VersionsIdentify key ver rows) (r : ρ) :
    r ∈ newestPerKey key T rows ↔ IsNewest key ver rows r := by
  refine ⟨isNewest_of_mem_newestPerKey T, ?_⟩
  intro hr
  obtain ⟨m, hm, hkey⟩ :=
    (mem_keys_newestPerKey T rows (key r)).mpr ⟨r, hr.1, rfl⟩
  have hnew := isNewest_of_mem_newestPerKey T hm
  rw [IsNewest.unique hid hr hnew hkey.symm]
  exact hm

/-- A list with one record per key that keeps newest ones is the ranking. -/
theorem perm_newestPerKey_iff
    (T : TieBreak ver) {rows out : List ρ}
    (hid : VersionsIdentify key ver rows) :
    out.Perm (newestPerKey key T rows) ↔
      out.Nodup ∧ ∀ r, r ∈ out ↔ IsNewest key ver rows r := by
  constructor
  · intro hperm
    refine ⟨hperm.nodup_iff.mpr (nodup_newestPerKey T rows), ?_⟩
    intro r
    rw [hperm.mem_iff, mem_newestPerKey_iff T hid]
  · rintro ⟨hnodup, hmem⟩
    rw [List.perm_ext_iff_of_nodup hnodup (nodup_newestPerKey T rows)]
    intro r
    rw [hmem r, mem_newestPerKey_iff T hid]

end Ranking

omit [LinearOrder ν] in
/-- Versions that identify records still do so in fewer records. -/
theorem VersionsIdentify.mono
    {key : ρ → κ} {ver : ρ → ν} {rows fewer : List ρ}
    (hid : VersionsIdentify key ver rows)
    (hsub : ∀ r ∈ fewer, r ∈ rows) :
    VersionsIdentify key ver fewer :=
  fun r hr r' hr' => hid r (hsub r hr) r' (hsub r' hr')

/-- A newest record stays newest when records are dropped around it. -/
theorem IsNewest.mono
    {key : ρ → κ} {ver : ρ → ν} {rows fewer : List ρ} {r : ρ}
    (hr : IsNewest key ver rows r)
    (hsub : ∀ r' ∈ fewer, r' ∈ rows) (hmem : r ∈ fewer) :
    IsNewest key ver fewer r :=
  ⟨hmem, fun r' hr' => hr.2 r' (hsub r' hr')⟩

end NewestPerKey
end Northwind
