import Mathlib.Data.List.Basic

/-!
# Redrawing what is rejected

A value is drawn for every item.  In each round the rejected values are replaced,
all at once and in order, by the next values of an array; after a bounded number of
rounds, or when no value is rejected any more, the values are kept as they are.

`trace` also keeps the values that were replaced.  All of these were rejected
(`rejected_of_mem_earlier`), so an item ends with a value that is not rejected
exactly when it was given one.
-/

namespace Northwind
namespace Redraws

universe u v

variable {α : Type u} {β : Type v} (rejected : α → β → Bool)

/-- One round over the items with their values. -/
def redraw (draw : Nat → β) : Nat → List (α × β) → List (α × β)
  | _, [] => []
  | k, (item, value) :: entries =>
      if rejected item value then (item, draw k) :: redraw draw (k + 1) entries
      else (item, value) :: redraw draw k entries

/-- A bounded number of rounds, numbered from one on. -/
def redraws (draws : Nat → Nat → β) : Nat → Nat → List (α × β) → List (α × β)
  | 0, _, entries => entries
  | rounds + 1, round, entries =>
      if entries.any (fun entry => rejected entry.1 entry.2) then
        redraws draws rounds (round + 1) (redraw rejected (draws round) 0 entries)
      else entries

/-- A value for every item, and the rounds. -/
def sample (draws : Nat → Nat → β) (rounds : Nat) (items : List α) : List (α × β) :=
  redraws rejected draws rounds 1 (items.zipIdx.map (fun item => (item.1, draws 0 item.2)))

/-! ## All values of an item -/

/-- An item with its value and the values it had before. -/
structure Drawn (α : Type u) (β : Type v) where
  item : α
  earlier : List β
  value : β

/-- The values an item was given. -/
def Drawn.given (drawn : Drawn α β) : List β :=
  drawn.earlier ++ [drawn.value]

def Drawn.entry (drawn : Drawn α β) : α × β :=
  (drawn.item, drawn.value)

def retrace (draw : Nat → β) : Nat → List (Drawn α β) → List (Drawn α β)
  | _, [] => []
  | k, drawn :: rest =>
      if rejected drawn.item drawn.value then
        ⟨drawn.item, drawn.given, draw k⟩ :: retrace draw (k + 1) rest
      else drawn :: retrace draw k rest

def retraces (draws : Nat → Nat → β) : Nat → Nat → List (Drawn α β) → List (Drawn α β)
  | 0, _, drawn => drawn
  | rounds + 1, round, drawn =>
      if (drawn.map Drawn.entry).any (fun entry => rejected entry.1 entry.2) then
        retraces draws rounds (round + 1) (retrace rejected (draws round) 0 drawn)
      else drawn

/-- `sample` with the values that were replaced. -/
def trace (draws : Nat → Nat → β) (rounds : Nat) (items : List α) : List (Drawn α β) :=
  retraces rejected draws rounds 1 (items.zipIdx.map (fun item => ⟨item.1, [], draws 0 item.2⟩))

section Traces

variable {rejected}

theorem map_entry_retrace (draw : Nat → β) (k : Nat) (drawn : List (Drawn α β)) :
    (retrace rejected draw k drawn).map Drawn.entry =
      redraw rejected draw k (drawn.map Drawn.entry) := by
  induction drawn generalizing k with
  | nil => rfl
  | cons d drawn ih =>
      by_cases hrejected : rejected d.item d.value = true
      · simp [retrace, redraw, Drawn.entry, hrejected, ← ih]
      · simp [retrace, redraw, Drawn.entry, hrejected, ← ih]

theorem map_entry_retraces (draws : Nat → Nat → β) (rounds round : Nat)
    (drawn : List (Drawn α β)) :
    (retraces rejected draws rounds round drawn).map Drawn.entry =
      redraws rejected draws rounds round (drawn.map Drawn.entry) := by
  induction rounds generalizing round drawn with
  | zero => rfl
  | succ rounds ih =>
      rw [retraces, redraws]
      split
      · rw [ih, map_entry_retrace]
      · rfl

/-- The trace ends with the sample. -/
theorem map_entry_trace (draws : Nat → Nat → β) (rounds : Nat) (items : List α) :
    (trace rejected draws rounds items).map Drawn.entry = sample rejected draws rounds items := by
  rw [trace, map_entry_retraces, List.map_map]
  rfl

theorem map_item_retrace (draw : Nat → β) (k : Nat) (drawn : List (Drawn α β)) :
    (retrace rejected draw k drawn).map Drawn.item = drawn.map Drawn.item := by
  induction drawn generalizing k with
  | nil => rfl
  | cons d drawn ih =>
      rw [retrace]
      split
      · rw [List.map_cons, List.map_cons, ih]
      · rw [List.map_cons, List.map_cons, ih]

/-- The items stay in their order. -/
theorem map_item_trace (draws : Nat → Nat → β) (rounds : Nat) (items : List α) :
    (trace rejected draws rounds items).map Drawn.item = items := by
  have hrounds : ∀ (rounds round : Nat) (drawn : List (Drawn α β)),
      (retraces rejected draws rounds round drawn).map Drawn.item = drawn.map Drawn.item := by
    intro rounds
    induction rounds with
    | zero => exact fun round drawn => rfl
    | succ rounds ih =>
        intro round drawn
        rw [retraces]
        split
        · rw [ih, map_item_retrace]
        · rfl
  rw [trace, hrounds, List.map_map]
  exact List.zipIdx_map_fst 0 items

/-- A property of the drawn values that every draw has. -/
theorem forall_retrace {p : Drawn α β → Prop} {draw : Nat → β}
    (hstep : ∀ drawn, p drawn → rejected drawn.item drawn.value = true →
      ∀ k, p ⟨drawn.item, drawn.given, draw k⟩)
    {drawn : List (Drawn α β)} (h : ∀ d ∈ drawn, p d) (k : Nat) :
    ∀ d ∈ retrace rejected draw k drawn, p d := by
  induction drawn generalizing k with
  | nil => exact h
  | cons d drawn ih =>
      have hrest := fun k => ih (fun d' hd' => h d' (List.mem_cons_of_mem _ hd')) k
      have hd := h d List.mem_cons_self
      rw [retrace]
      split
      · rename_i hrejected
        exact List.forall_mem_cons.mpr ⟨hstep d hd hrejected k, hrest (k + 1)⟩
      · exact List.forall_mem_cons.mpr ⟨hd, hrest k⟩

/-- What the first draws have and every redraw keeps holds of the whole trace. -/
theorem forall_trace {p : Drawn α β → Prop} {draws : Nat → Nat → β}
    (hstep : ∀ round drawn, p drawn → rejected drawn.item drawn.value = true →
      ∀ k, p ⟨drawn.item, drawn.given, draws round k⟩)
    {items : List α} (hfirst : ∀ item ∈ items, ∀ k, p ⟨item, [], draws 0 k⟩) (rounds : Nat) :
    ∀ d ∈ trace rejected draws rounds items, p d := by
  have hrounds : ∀ (rounds round : Nat) (drawn : List (Drawn α β)), (∀ d ∈ drawn, p d) →
      ∀ d ∈ retraces rejected draws rounds round drawn, p d := by
    intro rounds
    induction rounds with
    | zero => exact fun round drawn h => h
    | succ rounds ih =>
        intro round drawn h
        rw [retraces]
        split
        · exact ih _ _ (forall_retrace (hstep round) h 0)
        · exact h
  apply hrounds
  intro d hd
  obtain ⟨⟨item, k⟩, hitem, rfl⟩ := List.mem_map.mp hd
  exact hfirst item (List.fst_mem_of_mem_zipIdx hitem) k

variable {draws : Nat → Nat → β} {rounds : Nat} {items : List α} {d : Drawn α β}

/-- A value was replaced because it was rejected. -/
theorem rejected_of_mem_earlier (hd : d ∈ trace rejected draws rounds items) :
    ∀ value ∈ d.earlier, rejected d.item value = true := by
  refine forall_trace (p := fun d => ∀ value ∈ d.earlier, rejected d.item value = true)
    ?_ (fun _ _ _ value hvalue => nomatch hvalue) rounds d hd
  intro round drawn hearlier hrejected k value hvalue
  rcases List.mem_append.mp hvalue with hold | hlast
  · exact hearlier value hold
  · rw [List.mem_singleton.mp hlast]
    exact hrejected

/-- Of the values that an item was given only the last one may be accepted. -/
theorem eq_value_of_mem_given (hd : d ∈ trace rejected draws rounds items) {value : β}
    (hvalue : value ∈ d.given) (haccepted : rejected d.item value = false) : value = d.value := by
  rcases List.mem_append.mp hvalue with hold | hlast
  · rw [rejected_of_mem_earlier hd value hold] at haccepted
    cases haccepted
  · exact List.mem_singleton.mp hlast

theorem value_mem_given (d : Drawn α β) : d.value ∈ d.given :=
  List.mem_append_right _ (List.mem_singleton_self _)

end Traces

end Redraws
end Northwind
