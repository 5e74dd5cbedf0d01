import Mathlib.Data.List.Sort

/-!
# Windows of a list

`window l n s` is the stretch of at most `s` elements from position `n`.
Windows taken one after the other tile the list, and the window of a list
numbered by position is what a range of positions selects.
-/

namespace Northwind
namespace Windows

universe u

variable {α : Type u}

/-- At most `size` elements from position `start`. -/
def window (l : List α) (start size : Nat) : List α :=
  (l.drop start).take size

theorem length_window (l : List α) (start size : Nat) :
    (window l start size).length = min size (l.length - start) := by
  simp [window]

/-- A window and what comes after it. -/
theorem window_append_drop (l : List α) (start size : Nat) :
    window l start size ++ l.drop (start + size) = l.drop start := by
  unfold window
  rw [← List.drop_drop]
  exact List.take_append_drop size (l.drop start)

/-- A window over two lists. -/
theorem window_append (l l' : List α) (start size : Nat) :
    window (l ++ l') start size =
      window l start size ++
        window l' (start - l.length) (size - (window l start size).length) := by
  have hlength := length_window l start size
  unfold window at hlength ⊢
  rw [List.drop_append, List.take_append, List.length_drop, hlength]
  congr 2
  omega

/-- A window that reaches the end is the rest of the list. -/
theorem window_eq_drop
    {l : List α} {start size : Nat} (h : l.length ≤ start + size) :
    window l start size = l.drop start := by
  unfold window
  apply List.take_of_length_le
  rw [List.length_drop]
  omega

theorem mem_of_mem_window
    {l : List α} {start size : Nat} {a : α} (h : a ∈ window l start size) :
    a ∈ l :=
  List.mem_of_mem_drop (List.mem_of_mem_take h)

/-- A window depends only on what stands before its end. -/
theorem window_eq_of_take_eq
    {l l' : List α} {start size bound : Nat}
    (hsame : l'.take bound = l.take bound) (hbound : start + size ≤ bound) :
    window l' start size = window l start size := by
  have hshift : ∀ m : List α, window m start size = window (m.take bound) start size := by
    intro m
    unfold window
    rw [List.drop_take, List.take_take, Nat.min_eq_left (by omega)]
  rw [hshift l', hshift l, hsame]

/-- Positions from `start` up to `start + size` select the window. -/
theorem map_fst_filter_zipIdx (l : List α) (start size : Nat) :
    ((l.zipIdx).filter (fun x => start ≤ x.2 ∧ x.2 < start + size)).map Prod.fst =
      window l start size := by
  have hsplit : l = l.take start ++ (window l start size ++ l.drop (start + size)) := by
    rw [window_append_drop, List.take_append_drop]
  have hbefore : ((l.take start).zipIdx).filter
      (fun x => start ≤ x.2 ∧ x.2 < start + size) = [] := by
    rw [List.filter_eq_nil_iff]
    intro x hx
    have hlt := List.snd_lt_add_of_mem_zipIdx hx
    rw [List.length_take] at hlt
    simp only [decide_eq_true_eq]
    omega
  rcases Nat.lt_or_ge l.length start with hshort | hlong
  · have hnil : window l start size ++ l.drop (start + size) = [] := by
      rw [window_append_drop, List.drop_eq_nil_iff]
      omega
    have hall : l.take start = l := List.take_of_length_le (by omega)
    rw [hall] at hbefore
    rw [hbefore, (List.append_eq_nil_iff.mp hnil).1]
    rfl
  · have hstart : (l.take start).length = start := by
      rw [List.length_take]
      omega
    have hinside : ((window l start size).zipIdx start).filter
        (fun x => start ≤ x.2 ∧ x.2 < start + size) =
          (window l start size).zipIdx start := by
      rw [List.filter_eq_self]
      intro x hx
      have hge := List.le_snd_of_mem_zipIdx hx
      have hlt := List.snd_lt_add_of_mem_zipIdx hx
      have hlength := length_window l start size
      simp only [decide_eq_true_eq]
      omega
    have hafter : ((l.drop (start + size)).zipIdx (start + (window l start size).length)).filter
        (fun x => start ≤ x.2 ∧ x.2 < start + size) = [] := by
      rw [List.filter_eq_nil_iff]
      intro x hx
      have hge := List.le_snd_of_mem_zipIdx hx
      have hlt := List.snd_lt_add_of_mem_zipIdx hx
      have hlength := length_window l start size
      rw [List.length_drop] at hlt
      simp only [decide_eq_true_eq]
      omega
    conv_lhs => rw [hsplit]
    rw [List.zipIdx_append, List.zipIdx_append, List.filter_append, List.filter_append,
      hbefore, hstart, Nat.zero_add, hinside, hafter, List.append_nil, List.nil_append,
      List.zipIdx_map_fst]

end Windows
end Northwind
