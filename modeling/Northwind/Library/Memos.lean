import Mathlib.Data.Option.Basic
import Mathlib.Tactic.Basic

/-!
# A value kept behind a fingerprint

A memo keeps the last computed value together with the key it was computed
under, and computes again only when the key has moved.  Its answer is right
exactly when the world it was computed in and the present one, once they have
one key, have one value as well (`Memo.get_eq_iff`).
-/

namespace Northwind

universe u v w x

/-- The last value and the key it belongs to, once there is one. -/
structure Memo (κ : Type u) (α : Type v) where
  entry : Option (κ × α)
deriving DecidableEq

namespace Memo

variable {κ : Type u} {α : Type v} {ε : Type w} {W : Type x}

/-- Nothing kept yet. -/
def empty : Memo κ α :=
  ⟨none⟩

/-- The kept value, if it was computed under the key. -/
def lookup [DecidableEq κ] (m : Memo κ α) (key : κ) : Option α :=
  (m.entry.filter (fun kept => kept.1 = key)).map Prod.snd

/-- A failed computation leaves the memo as it was. -/
def get [DecidableEq κ] (m : Memo κ α) (key : κ) (compute : Except ε α) :
    Except ε α × Memo κ α :=
  match m.lookup key with
  | some value => (.ok value, m)
  | none =>
      match compute with
      | .ok value => (.ok value, ⟨some (key, value)⟩)
      | .error e => (.error e, m)

section Get

variable [DecidableEq κ] {m : Memo κ α} {key : κ} {value : α}

@[simp] theorem lookup_eq_some_iff :
    m.lookup key = some value ↔ m.entry = some (key, value) := by
  unfold lookup
  simp only [Option.map_eq_some_iff, Option.filter_eq_some_iff, decide_eq_true_iff]
  constructor
  · rintro ⟨⟨key', value'⟩, ⟨hentry, rfl⟩, rfl⟩
    exact hentry
  · exact fun hentry => ⟨(key, value), ⟨hentry, rfl⟩, rfl⟩

theorem get_of_hit (compute : Except ε α) (h : m.lookup key = some value) :
    m.get key compute = (.ok value, m) := by
  unfold get
  rw [h]

theorem get_of_miss_ok (h : m.lookup key = none) :
    m.get key (.ok value : Except ε α) = (.ok value, ⟨some (key, value)⟩) := by
  unfold get
  rw [h]

theorem get_of_miss_error (e : ε) (h : m.lookup key = none) :
    m.get key (.error e : Except ε α) = (.error e, m) := by
  unfold get
  rw [h]

theorem get_fst_of_miss (compute : Except ε α) (h : m.lookup key = none) :
    (m.get key compute).1 = compute := by
  cases compute with
  | ok value => rw [get_of_miss_ok h]
  | error e => rw [get_of_miss_error e h]

/-- Asking once more gives the same answer and keeps the memo. -/
theorem get_get (m : Memo κ α) (key : κ) (compute : Except ε α) :
    (m.get key compute).2.get key compute = m.get key compute := by
  cases hlookup : m.lookup key with
  | some value => rw [get_of_hit compute hlookup, get_of_hit compute hlookup]
  | none =>
      cases compute with
      | ok value =>
          rw [get_of_miss_ok hlookup]
          exact get_of_hit _ (lookup_eq_some_iff.mpr rfl)
      | error e => rw [get_of_miss_error e hlookup, get_of_miss_error e hlookup]

end Get

/-! ## Worlds -/

section Worlds

variable (key : W → κ) (compute : W → Except ε α)

/-- The kept value comes from the world `past`; without one nothing is kept. -/
def KeptFrom (m : Memo κ α) : Option W → Prop
  | none => m = empty
  | some past => ∃ value, m.entry = some (key past, value) ∧ compute past = .ok value

variable [DecidableEq κ] {key compute} {m : Memo κ α} {past : Option W}

/-- The answer is the present value exactly when the world the kept value comes
from has that value, as long as it has the present key. -/
theorem get_eq_iff (h : m.KeptFrom key compute past) (now : W) :
    (m.get (key now) (compute now)).1 = compute now ↔
      ∀ before, past = some before → key before = key now →
        compute before = compute now := by
  cases past with
  | none =>
      have hmiss : m.lookup (key now) = none := by
        rw [show m = empty from h]
        rfl
      rw [get_fst_of_miss _ hmiss]
      exact ⟨fun _ _ hbefore => (nomatch hbefore), fun _ => rfl⟩
  | some before =>
      obtain ⟨value, hentry, hvalue⟩ := h
      by_cases hkey : key before = key now
      · rw [hkey] at hentry
        rw [get_of_hit _ (lookup_eq_some_iff.mpr hentry)]
        constructor
        · intro hanswer before' hbefore _
          rw [← Option.some.inj hbefore, hvalue]
          exact hanswer
        · intro hagree
          rw [← hagree before rfl hkey, hvalue]
      · have hmiss : m.lookup (key now) = none := by
          cases hlookup : m.lookup (key now) with
          | none => rfl
          | some value' =>
              have hentry' := lookup_eq_some_iff.mp hlookup
              rw [hentry] at hentry'
              exact absurd (congrArg Prod.fst (Option.some.inj hentry')) hkey
        rw [get_fst_of_miss _ hmiss]
        refine ⟨fun _ before' hbefore hkey' => ?_, fun _ => rfl⟩
        rw [← Option.some.inj hbefore] at hkey'
        exact absurd hkey' hkey

/-- After a call the memo is as it was, or its value comes from the present
world. -/
theorem keptFrom_get
    (key : W → κ) (compute : W → Except ε α) (m : Memo κ α) (now : W) :
    (m.get (key now) (compute now)).2 = m ∨
      (m.get (key now) (compute now)).2.KeptFrom key compute (some now) := by
  cases hlookup : m.lookup (key now) with
  | some value => exact Or.inl (by rw [get_of_hit _ hlookup])
  | none =>
      cases hnow : compute now with
      | ok value =>
          rw [get_of_miss_ok hlookup]
          exact Or.inr ⟨value, rfl, hnow⟩
      | error e => exact Or.inl (by rw [get_of_miss_error e hlookup])

end Worlds

end Memo
end Northwind
