import Mathlib.Data.List.Sort

/-!
# Keyset pagination

A page holds the next items behind a checkpoint, in the order of their keys, and its
last key is the next checkpoint.  `page_checkpoint` says what a page is by position:
the checkpoint behind the first `n` items is followed by the items from the `n`-th on.
The pages of a walk therefore cut the ordered list into pieces, whatever their sizes.

An item counts only as far as it lies behind the checkpoint, so what happens to
earlier items between two pages is of no consequence (`page_congr`).
-/

namespace Northwind
namespace Keysets

universe u v

variable {α : Type u} {κ : Type v} [LinearOrder κ] (key : α → κ)

/-- `key > last`, or no checkpoint yet. -/
def Behind (last : Option κ) (k : κ) : Prop :=
  ∀ l ∈ last, l < k

instance (last : Option κ) (k : κ) : Decidable (Behind last k) :=
  inferInstanceAs (Decidable (∀ l ∈ last, l < k))

/-- `ORDER BY key` -/
def ordered (xs : List α) : List α :=
  xs.insertionSort (fun x y => key x ≤ key y)

/-- The items behind a checkpoint. -/
def behind (last : Option κ) (xs : List α) : List α :=
  xs.filter (fun x => Behind last (key x))

/-- `WHERE key > last ORDER BY key LIMIT size` -/
def page (size : Nat) (last : Option κ) (xs : List α) : List α :=
  (ordered key (behind key last xs)).take size

/-- The key of the last of the first `n` items. -/
def checkpoint (xs : List α) (n : Nat) : Option κ :=
  ((ordered key xs).take n).getLast?.map key

section Ordering

variable {xs : List α}

theorem perm_ordered : (ordered key xs).Perm xs :=
  List.perm_insertionSort _ xs

theorem length_ordered : (ordered key xs).length = xs.length :=
  (perm_ordered key).length_eq

variable {key} in
/-- Distinct keys ascend strictly. -/
theorem pairwise_ordered (hdistinct : (xs.map key).Nodup) :
    (ordered key xs).Pairwise (fun x y => key x < key y) := by
  have htotal : Std.Total (fun x y : α => key x ≤ key y) := ⟨fun x y => le_total (key x) (key y)⟩
  have htrans : IsTrans α (fun x y : α => key x ≤ key y) := ⟨fun _ _ _ => le_trans⟩
  have hsorted := List.pairwise_insertionSort (fun x y : α => key x ≤ key y) xs
  have hkeys : (ordered key xs).Pairwise (fun x y => key x ≠ key y) :=
    List.pairwise_map.mp (((perm_ordered key).map key).nodup_iff.mpr hdistinct)
  exact (hsorted.and hkeys).imp (fun h => lt_of_le_of_ne h.1 h.2)

variable {key} in
/-- Ordering the items behind a checkpoint leaves out the others. -/
theorem ordered_behind (hdistinct : (xs.map key).Nodup) (last : Option κ) :
    ordered key (behind key last xs) = behind key last (ordered key xs) := by
  have hbehind : ((behind key last xs).map key).Nodup :=
    hdistinct.sublist (List.filter_sublist.map key)
  refine List.Perm.eq_of_pairwise (fun x y _ _ hxy hyx => absurd hxy (lt_asymm hyx))
    (pairwise_ordered hbehind) ((pairwise_ordered hdistinct).filter _) ?_
  exact (perm_ordered key).trans ((perm_ordered key).symm.filter _)

end Ordering

/-! ## Pages by position -/

section Pages

variable {key} {xs ys : List α}

/-- The first `n` items end with the checkpoint. -/
theorem not_behind_checkpoint (hdistinct : (xs.map key).Nodup) {n : Nat} {x : α}
    (hx : x ∈ (ordered key xs).take n) : ¬ Behind (checkpoint key xs n) (key x) := by
  intro hbehind
  have hsorted := (pairwise_ordered hdistinct).sublist (List.take_sublist n _)
  have hne := List.ne_nil_of_mem hx
  rw [checkpoint, List.getLast?_eq_some_getLast hne] at hbehind
  have hlt := hbehind _ rfl
  rw [← List.dropLast_append_getLast hne] at hx hsorted
  rcases List.mem_append.mp hx with hearlier | hlast
  · have hle := (List.pairwise_append.mp hsorted).2.2 x hearlier _ (List.mem_singleton_self _)
    exact lt_asymm hle hlt
  · rw [List.mem_singleton.mp hlast] at hlt
    exact lt_irrefl _ hlt

/-- The others lie behind it. -/
theorem behind_of_mem_drop (hdistinct : (xs.map key).Nodup) {n : Nat} {y : α}
    (hy : y ∈ (ordered key xs).drop n) : Behind (checkpoint key xs n) (key y) := by
  have hsorted := pairwise_ordered hdistinct
  rw [← List.take_append_drop n (ordered key xs), List.pairwise_append] at hsorted
  intro l hl
  obtain ⟨x, hx, rfl⟩ := Option.map_eq_some_iff.mp hl
  exact hsorted.2.2 x (List.mem_of_getLast? hx) y hy

theorem behind_checkpoint (hdistinct : (xs.map key).Nodup) (n : Nat) :
    behind key (checkpoint key xs n) (ordered key xs) = (ordered key xs).drop n := by
  have hnone : behind key (checkpoint key xs n) ((ordered key xs).take n) = [] := by
    rw [behind, List.filter_eq_nil_iff]
    intro x hx hbehind
    exact not_behind_checkpoint hdistinct hx (of_decide_eq_true hbehind)
  have hall : behind key (checkpoint key xs n) ((ordered key xs).drop n) =
      (ordered key xs).drop n := by
    rw [behind, List.filter_eq_self]
    exact fun y hy => decide_eq_true (behind_of_mem_drop hdistinct hy)
  have hsplit : behind key (checkpoint key xs n)
      ((ordered key xs).take n ++ (ordered key xs).drop n) =
      behind key (checkpoint key xs n) ((ordered key xs).take n) ++
        behind key (checkpoint key xs n) ((ordered key xs).drop n) :=
    List.filter_append _ _
  rwa [List.take_append_drop, hnone, hall, List.nil_append] at hsplit

/-- The page behind the first `n` items starts with the `n`-th. -/
theorem page_checkpoint (hdistinct : (xs.map key).Nodup) (size n : Nat) :
    page key size (checkpoint key xs n) xs = ((ordered key xs).drop n).take size := by
  rw [page, ordered_behind hdistinct, behind_checkpoint hdistinct]

/-- The last key of a page is the checkpoint behind it. -/
theorem checkpoint_page (hdistinct : (xs.map key).Nodup) {size n : Nat}
    (hpage : page key size (checkpoint key xs n) xs ≠ []) :
    (page key size (checkpoint key xs n) xs).getLast?.map key = checkpoint key xs (n + size) := by
  rw [page_checkpoint hdistinct] at hpage ⊢
  rw [checkpoint, List.take_add, List.getLast?_append_of_ne_nil _ hpage]

theorem checkpoint_zero : checkpoint key xs 0 = none :=
  rfl

/-- An empty page comes behind all items. -/
theorem length_le_of_page_eq_nil (hdistinct : (xs.map key).Nodup) {size n : Nat}
    (hsize : 0 < size) (hpage : page key size (checkpoint key xs n) xs = []) : xs.length ≤ n := by
  rw [page_checkpoint hdistinct, List.take_eq_nil_iff] at hpage
  have hdrop := hpage.resolve_left hsize.ne'
  rwa [List.drop_eq_nil_iff, length_ordered] at hdrop

/-- A page depends on the items behind its checkpoint only. -/
theorem page_congr {last : Option κ} (h : behind key last xs = behind key last ys) (size : Nat) :
    page key size last xs = page key size last ys := by
  rw [page, page, h]

end Pages

end Keysets
end Northwind
