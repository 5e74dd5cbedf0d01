import Mathlib.Data.List.Chain

/-!
# Chains of status changes

The changes of one thing, first to last, are a chain where the first one starts
from no status, every other one from the status the one before it ends with,
and the times never go back.
-/

namespace Northwind
namespace StatusChains

universe u v

structure Change (σ : Type u) (τ : Type v) where
  previous : Option σ
  next : σ
  time : τ

variable {σ : Type u} {τ : Type v} {step : Option σ → σ → Prop}
variable {changes : List (Change σ τ)} {change change' : Change σ τ}

/-- The status that the last change ends with. -/
def current (changes : List (Change σ τ)) : Option σ :=
  changes.getLast?.map Change.next

@[simp] theorem current_nil : current ([] : List (Change σ τ)) = none :=
  rfl

@[simp] theorem current_singleton : current [change] = some change.next :=
  rfl

@[simp] theorem current_concat : current (changes ++ [change]) = some change.next := by
  rw [current, List.getLast?_concat, Option.map_some]

/-! ## Logs of many things -/

section Logs

variable {ρ κ : Type*} [DecidableEq κ] {key : ρ → κ} {toChange : ρ → Change σ τ}
variable {rows : List ρ} {row : ρ} {k : κ}

/-- The changes of one thing, in the order of the log. -/
def changesOf (key : ρ → κ) (toChange : ρ → Change σ τ) (rows : List ρ) (k : κ) :
    List (Change σ τ) :=
  (rows.filter (fun row => key row = k)).map toChange

theorem mem_changesOf :
    change ∈ changesOf key toChange rows k ↔
      ∃ row, row ∈ rows ∧ key row = k ∧ toChange row = change := by
  simp [changesOf, and_assoc]

theorem changesOf_eq_nil (h : ∀ row, row ∈ rows → key row ≠ k) :
    changesOf key toChange rows k = [] := by
  rw [changesOf, List.filter_eq_nil_iff.mpr (by simpa using h), List.map_nil]

theorem changesOf_concat :
    changesOf key toChange (rows ++ [row]) (key row) =
      changesOf key toChange rows (key row) ++ [toChange row] := by
  simp [changesOf, List.filter_append]

theorem changesOf_concat_of_ne (h : key row ≠ k) :
    changesOf key toChange (rows ++ [row]) k = changesOf key toChange rows k := by
  simp [changesOf, List.filter_append, h]

end Logs

/-! ## Chains -/

variable [LE τ]

structure Chain (step : Option σ → σ → Prop) (changes : List (Change σ τ)) : Prop where
  starts : ∀ change, change ∈ changes.head? → change.previous = none
  follows : changes.IsChain fun change change' =>
    change'.previous = some change.next ∧ change.time ≤ change'.time
  allowed : ∀ change, change ∈ changes → step change.previous change.next

theorem chain_nil : Chain step ([] : List (Change σ τ)) where
  starts _ h := nomatch h
  follows := .nil
  allowed _ h := nomatch h

@[simp] theorem chain_singleton :
    Chain step [change] ↔ change.previous = none ∧ step change.previous change.next := by
  constructor
  · intro h
    exact ⟨h.starts change rfl, h.allowed change (List.mem_singleton_self _)⟩
  · rintro ⟨hprevious, hallowed⟩
    refine ⟨fun other hother => ?_, .singleton _, fun other hother => ?_⟩
    · obtain rfl : change = other := by simpa using hother
      exact hprevious
    · obtain rfl := List.mem_singleton.mp hother
      exact hallowed

/-- A chain goes on by a change from its current status, no earlier than its
last one. -/
theorem chain_concat :
    Chain step (changes ++ [change]) ↔
      Chain step changes ∧ change.previous = current changes ∧
        step change.previous change.next ∧
          ∀ last, last ∈ changes.getLast? → last.time ≤ change.time := by
  rcases changes.eq_nil_or_concat with rfl | ⟨earlier, last, rfl⟩
  · simp [chain_nil]
  · rw [List.concat_eq_append] at *
    have hhead : (earlier ++ [last] ++ [change]).head? = (earlier ++ [last]).head? :=
      List.head?_append_of_ne_nil _ (by simp)
    constructor
    · intro h
      have hpair : change.previous = some last.next ∧ last.time ≤ change.time := by
        have hlast := (List.isChain_append.mp h.follows).2.2
        exact hlast last (by simp) change (by simp)
      refine ⟨⟨fun other hother => h.starts other (hhead ▸ hother),
        (List.isChain_append.mp h.follows).1,
        fun other hother => h.allowed other (List.mem_append_left _ hother)⟩, ?_, ?_, ?_⟩
      · rw [current_concat]
        exact hpair.1
      · exact h.allowed change (List.mem_append_right _ (List.mem_singleton_self _))
      · intro other hother
        obtain rfl : last = other := by simpa using hother
        exact hpair.2
    · rintro ⟨h, hprevious, hallowed, htime⟩
      rw [current_concat] at hprevious
      refine ⟨fun other hother => h.starts other (hhead ▸ hother), ?_, ?_⟩
      · refine List.isChain_append.mpr ⟨h.follows, .singleton _, ?_⟩
        intro other hother other' hother'
        obtain rfl : last = other := by simpa using hother
        obtain rfl : change = other' := by simpa using hother'
        exact ⟨hprevious, htime last (by simp)⟩
      · intro other hother
        obtain hold | hnew := List.mem_append.mp hother
        · exact h.allowed other hold
        · exact List.mem_singleton.mp hnew ▸ hallowed

theorem chain_pair :
    Chain step [change, change'] ↔
      (change.previous = none ∧ step change.previous change.next) ∧
        change'.previous = some change.next ∧ step change'.previous change'.next ∧
          change.time ≤ change'.time := by
  have h : Chain step ([change] ++ [change']) ↔ _ := chain_concat
  simpa using h

theorem chain_triple {change'' : Change σ τ} :
    Chain step [change, change', change''] ↔
      Chain step [change, change'] ∧ change''.previous = some change'.next ∧
        step change''.previous change''.next ∧ change'.time ≤ change''.time := by
  have h : Chain step ([change, change'] ++ [change'']) ↔ _ := chain_concat
  simpa [current] using h

/-- The changes are a chain that ends with a status. -/
structure EndsIn (step : Option σ → σ → Prop) (changes : List (Change σ τ)) (status : σ) :
    Prop where
  chain : Chain step changes
  current : current changes = some status

theorem endsIn_singleton (hprevious : change.previous = none)
    (hallowed : step none change.next) : EndsIn step [change] change.next :=
  ⟨chain_singleton.mpr ⟨hprevious, hprevious ▸ hallowed⟩, rfl⟩

theorem EndsIn.concat {status : σ} (h : EndsIn step changes status)
    (hprevious : change.previous = some status) (hallowed : step (some status) change.next)
    (htime : ∀ earlier, earlier ∈ changes → earlier.time ≤ change.time) :
    EndsIn step (changes ++ [change]) change.next where
  chain := by
    refine chain_concat.mpr ⟨h.chain, hprevious.trans h.current.symm, hprevious ▸ hallowed, ?_⟩
    exact fun last hlast => htime last (List.mem_of_mem_getLast? hlast)
  current := current_concat

theorem EndsIn.unique {status status' : σ} (h : EndsIn step changes status)
    (h' : EndsIn step changes status') : status = status' :=
  Option.some.inj (h.current.symm.trans h'.current)

end StatusChains
end Northwind
