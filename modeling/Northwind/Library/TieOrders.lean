import Mathlib.Data.List.Sort

/-!
# Orders of a list under a relation with ties

`IsOrderOf r rows ordered`: `ordered` lists the rows, and nothing stands before
what must precede it.  Rows that `r` does not tell apart may stand in any order,
so a list has several orders; but where no tie crosses a position, every order
has the same rows before it, and the head of one order continues with the tail
of another.
-/

namespace Northwind
namespace TieOrders

universe u

variable {α : Type u} {r : α → α → Bool}

/-- `ordered` is one of the orders of `rows`. -/
structure IsOrderOf (r : α → α → Bool) (rows ordered : List α) : Prop where
  perm : ordered.Perm rows
  sorted : ordered.Pairwise (fun a b => r a b = true)

/-- The rows at the two sides of a position are tied. -/
def TieAt (r : α → α → Bool) (ordered : List α) (position : Nat) : Prop :=
  0 < position ∧ ∃ a b, ordered[position - 1]? = some a ∧ ordered[position]? = some b ∧
    r b a = true

instance (ordered : List α) (position : Nat) : Decidable (TieAt r ordered position) := by
  unfold TieAt
  cases ordered[position - 1]? with
  | none => exact isFalse (by simp)
  | some a =>
      cases ordered[position]? with
      | none => exact isFalse (by simp)
      | some b => exact decidable_of_iff (0 < position ∧ r b a = true) (by simp)

/-- In an order, what a downward closed predicate keeps stands in front. -/
theorem split_of_downward
    {ordered : List α} {p : α → Bool}
    (hsorted : ordered.Pairwise (fun a b => r a b = true))
    (hdown : ∀ a b, r a b = true → p b = true → p a = true) :
    ordered.filter p = ordered.take (ordered.countP p) ∧
      ordered.filter (fun a => !p a) = ordered.drop (ordered.countP p) := by
  induction ordered with
  | nil => simp
  | cons a ordered ih =>
      obtain ⟨hfirst, hrest⟩ := List.pairwise_cons.mp hsorted
      cases hp : p a with
      | true =>
          obtain ⟨htake, hdrop⟩ := ih hrest
          simp [hp, htake, hdrop]
      | false =>
          have hnone : ∀ b ∈ ordered, p b = false := by
            intro b hb
            by_contra hb'
            rw [Bool.not_eq_false] at hb'
            have ha := hdown a b (hfirst b hb) hb'
            rw [hp] at ha
            cases ha
          have hfilter : ordered.filter p = [] := by
            rw [List.filter_eq_nil_iff]
            intro b hb
            simp [hnone b hb]
          have hcount : ordered.countP p = 0 := by
            rw [List.countP_eq_length_filter, hfilter]
            rfl
          have hall : ordered.filter (fun a => !p a) = ordered := by
            rw [List.filter_eq_self]
            intro b hb
            simp [hnone b hb]
          simp [hp, hfilter, hcount, hall]

section Splice

variable {rows ordered ordered' witness : List α} {position : Nat}

/-- Before a strict position stand exactly the rows that must precede what
stands at it. -/
theorem countP_of_strict
    (htotal : ∀ a b, r a b = true ∨ r b a = true)
    (htrans : ∀ a b c, r a b = true → r b c = true → r a c = true)
    (hsorted : ordered.Pairwise (fun a b => r a b = true))
    {a b : α} (hposition : 0 < position)
    (ha : ordered[position - 1]? = some a) (hb : ordered[position]? = some b)
    (hstrict : ¬ r b a = true) :
    ordered.countP (fun x => !r b x) = position := by
  obtain ⟨hlt, hbget⟩ := List.getElem?_eq_some_iff.mp hb
  obtain ⟨_, haget⟩ := List.getElem?_eq_some_iff.mp ha
  have hget : ∀ i j (hi : i < ordered.length) (hj : j < ordered.length),
      i ≤ j → r ordered[i] ordered[j] = true := by
    intro i j hi hj hij
    rcases Nat.lt_or_eq_of_le hij with hij | rfl
    · exact List.pairwise_iff_getElem.mp hsorted i j hi hj hij
    · rcases htotal ordered[i] ordered[i] with h | h <;> exact h
  have hbefore : ∀ x ∈ ordered.take position, (!r b x) = true := by
    intro x hx
    obtain ⟨i, hi, rfl⟩ := List.getElem_of_mem hx
    rw [List.length_take] at hi
    rw [List.getElem_take, Bool.not_eq_true', ← Bool.not_eq_true]
    intro hbx
    apply hstrict
    rw [← haget]
    exact htrans _ _ _ hbx (hget i (position - 1) (by omega) (by omega) (by omega))
  have hafter : ∀ x ∈ ordered.drop position, ¬ (!r b x) = true := by
    intro x hx
    obtain ⟨i, hi, rfl⟩ := List.getElem_of_mem hx
    rw [List.length_drop] at hi
    have hle := hget position (position + i) hlt (by omega) (by omega)
    rw [hbget] at hle
    rw [List.getElem_drop, hle]
    decide
  rw [← List.take_append_drop position ordered, List.countP_append,
    List.countP_eq_length.mpr hbefore, List.countP_eq_zero.mpr hafter, List.length_take]
  omega

/-- Where no tie crosses a position, two orders have the same rows before it, and
the head of the one with the tail of the other is an order again. -/
theorem IsOrderOf.splice
    (htotal : ∀ a b, r a b = true ∨ r b a = true)
    (htrans : ∀ a b c, r a b = true → r b c = true → r a c = true)
    (h : IsOrderOf r rows ordered) (h' : IsOrderOf r rows ordered')
    (hwitness : IsOrderOf r rows witness)
    (hstrict : ¬ TieAt r witness position) :
    (ordered.take position).Perm (ordered'.take position) ∧
      IsOrderOf r rows (ordered.take position ++ ordered'.drop position) := by
  have hlength := hwitness.perm.length_eq
  have hlengths := h.perm.length_eq
  have hlengths' := h'.perm.length_eq
  rcases Nat.eq_zero_or_pos position with rfl | hposition
  · exact ⟨List.Perm.refl _, h'⟩
  rcases Nat.lt_or_ge position rows.length with hinside | hbeyond
  swap
  · rw [List.take_of_length_le (by omega), List.take_of_length_le (by omega),
      List.drop_of_length_le (by omega), List.append_nil]
    exact ⟨h.perm.trans h'.perm.symm, h⟩
  have ha : witness[position - 1]? = some witness[position - 1] :=
    List.getElem?_eq_getElem (by omega)
  have hb : witness[position]? = some witness[position] :=
    List.getElem?_eq_getElem (by omega)
  generalize witness[position - 1] = a at ha
  generalize witness[position] = b at hb
  have hnot : ¬ r b a = true := fun hba => hstrict ⟨hposition, a, b, ha, hb, hba⟩
  have hcount := countP_of_strict htotal htrans hwitness.sorted hposition ha hb hnot
  have hdown : ∀ x y, r x y = true → (!r b y) = true → (!r b x) = true := by
    intro x y hxy hy
    rw [Bool.not_eq_true', ← Bool.not_eq_true] at hy ⊢
    exact fun hbx => hy (htrans _ _ _ hbx hxy)
  obtain ⟨htake, _⟩ := split_of_downward h.sorted hdown
  obtain ⟨htake', hdrop'⟩ := split_of_downward h'.sorted hdown
  rw [(h.perm.trans hwitness.perm.symm).countP_eq, hcount] at htake
  rw [(h'.perm.trans hwitness.perm.symm).countP_eq, hcount] at htake' hdrop'
  have hsame : (ordered.take position).Perm (ordered'.take position) := by
    rw [← htake, ← htake']
    exact (h.perm.trans h'.perm.symm).filter _
  refine ⟨hsame, ?_, ?_⟩
  · have hwhole := (hsame.append_right (ordered'.drop position)).trans
      (List.Perm.of_eq (List.take_append_drop position ordered'))
    exact hwhole.trans h'.perm
  · rw [List.pairwise_append]
    refine ⟨h.sorted.sublist (List.take_sublist _ _), h'.sorted.sublist (List.drop_sublist _ _),
      ?_⟩
    intro x hx y hy
    rw [← htake, List.mem_filter] at hx
    rw [← hdrop', List.mem_filter] at hy
    have hbx : ¬ r b x = true := by simpa using hx.2
    have hby : r b y = true := by simpa using hy.2
    rcases htotal x b with hxb | hbx'
    · exact htrans _ _ _ hxb hby
    · exact absurd hbx' hbx

end Splice

end TieOrders
end Northwind
