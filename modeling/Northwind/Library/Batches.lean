import Mathlib.Data.List.Basic
import Mathlib.Data.List.NodupEquivFin

/-!
# A list worked off in batches

`batch size xs b` is the `b`-th batch of a list; `folded` works the batches off
one after the other, and each batch sees what came of the batches before it.

The second half is about keys that are admitted once.  A batch admits a key
that is not taken, was not admitted before and occurs once in the batch, so
the position admitted for a key is the first one at which the key is alone in
its batch.
-/

namespace Northwind
namespace Batches

universe u v

section Cutting

variable {α : Type u} (size : Nat) (xs : List α)

/-- The `b`-th batch. -/
def batch (b : Nat) : List α :=
  (xs.drop (size * b)).take size

theorem length_batch (b : Nat) :
    (batch size xs b).length = min size (xs.length - size * b) := by
  simp [batch]

theorem take_succ_batch (b : Nat) :
    xs.take (size * (b + 1)) = xs.take (size * b) ++ batch size xs b := by
  rw [Nat.mul_succ, List.take_add, batch]

theorem batch_map {β : Type v} (f : α → β) (b : Nat) :
    batch size (xs.map f) b = (batch size xs b).map f := by
  simp [batch, List.map_take, List.map_drop]

/-- An element of a batch, by its position in the whole list. -/
theorem mem_batch_iff {x : α} (hsize : 0 < size) (b : Nat) :
    x ∈ batch size xs b ↔ ∃ i, i / size = b ∧ xs[i]? = some x := by
  rw [List.mem_iff_getElem?]
  constructor
  · rintro ⟨k, hk⟩
    have hlt : k < size := by
      have hlength := (List.getElem?_eq_some_iff.mp hk).1
      rw [length_batch] at hlength
      omega
    refine ⟨size * b + k, ?_, ?_⟩
    · rw [Nat.mul_add_div hsize, Nat.div_eq_of_lt hlt, Nat.add_zero]
    · rw [batch, List.getElem?_take_of_lt hlt, List.getElem?_drop] at hk
      exact hk
  · rintro ⟨i, rfl, hi⟩
    refine ⟨i % size, ?_⟩
    rw [batch, List.getElem?_take_of_lt (Nat.mod_lt i hsize), List.getElem?_drop,
      Nat.div_add_mod]
    exact hi

end Cutting

section Folding

variable {α : Type u} {β : Type v} (step : List β → List α → List β)
variable (size : Nat) (xs : List α)

/-- What the first `b` batches produce. -/
def folded : Nat → List β
  | 0 => []
  | b + 1 => folded b ++ step (folded b) (batch size xs b)

@[simp] theorem folded_zero : folded step size xs 0 = [] :=
  rfl

theorem folded_succ (b : Nat) :
    folded step size xs (b + 1) =
      folded step size xs b ++ step (folded step size xs b) (batch size xs b) :=
  rfl

/-- A step that keeps a view of its batch keeps it of the whole list. -/
theorem map_folded
    {γ : Type u} {g : β → γ} {f : α → γ}
    (hstep : ∀ done batch, (step done batch).map g = batch.map f) (b : Nat) :
    (folded step size xs b).map g = (xs.take (size * b)).map f := by
  induction b with
  | zero => simp
  | succ b ih =>
      rw [folded_succ, List.map_append, ih, hstep, take_succ_batch, List.map_append]

theorem length_folded
    (hstep : ∀ done batch, (step done batch).length = batch.length) (b : Nat) :
    (folded step size xs b).length = min (size * b) xs.length := by
  induction b with
  | zero => simp
  | succ b ih =>
      rw [folded_succ, List.length_append, ih, hstep, length_batch, Nat.mul_succ]
      omega

/-- What a position becomes, when each batch is mapped. -/
theorem getElem?_folded
    {f : List β → List α → α → β}
    (hstep : ∀ done batch, step done batch = batch.map (f done batch))
    (hsize : 0 < size) {b i : Nat} (hi : i / size < b) :
    (folded step size xs b)[i]? =
      xs[i]?.map (f (folded step size xs (i / size)) (batch size xs (i / size))) := by
  have hlength := length_folded step size xs (fun done batch => by simp [hstep])
  by_cases hend : i < xs.length
  · induction b with
    | zero => exact absurd hi (Nat.not_lt_zero _)
    | succ b ih =>
        have hib : i < size * (b + 1) := by
          rw [Nat.mul_comm]
          exact (Nat.div_lt_iff_lt_mul hsize).mp hi
        rw [folded_succ, hstep]
        by_cases hold : i / size < b
        · have hlt : i < size * b := by
            rw [Nat.mul_comm]
            exact (Nat.div_lt_iff_lt_mul hsize).mp hold
          rw [List.getElem?_append_left (by rw [hlength]; omega)]
          exact ih hold
        · have hb : i / size = b := by omega
          have hle : size * b ≤ i := by
            rw [← hb]
            exact Nat.mul_div_le i size
          rw [List.getElem?_append_right (by rw [hlength]; omega), List.getElem?_map, hlength,
            Nat.min_eq_left (by omega), hb]
          congr 1
          rw [Nat.mul_succ] at hib
          rw [batch, List.getElem?_take_of_lt (by omega), List.getElem?_drop,
            Nat.add_sub_cancel' hle]
  · rw [List.getElem?_eq_none (by rw [hlength]; omega), List.getElem?_eq_none (by omega)]
    rfl

end Folding

section Admission

variable {κ : Type u} [DecidableEq κ] (taken : List κ)

/-- One batch: a key passes if it is free, was not admitted before and occurs
once in the batch. -/
def admitBatch (done batch : List (Option κ)) : List (Option κ) :=
  batch.map fun key =>
    key.filter fun x => x ∉ taken ∧ some x ∉ done ∧ batch.count (some x) = 1

variable (size : Nat) (keys : List (Option κ))

/-- What the first `b` batches admitBatch, position by position. -/
abbrev admitted (b : Nat) : List (Option κ) :=
  folded (admitBatch taken) size keys b

/-- No other position of the batch holds the key of position `i`. -/
def Alone (i : Nat) : Prop :=
  ∀ j, j / size = i / size → keys[j]? = keys[i]? → j = i

/-- The first position of its key that is alone in its batch. -/
def FirstAlone (i : Nat) : Prop :=
  Alone size keys i ∧ ∀ j, j < i → keys[j]? = keys[i]? → ¬ Alone size keys j

theorem two_le_count_iff {x : Option κ} {batch : List (Option κ)} :
    2 ≤ batch.count x ↔ ∃ i j : Nat, i < j ∧ batch[i]? = some x ∧ batch[j]? = some x := by
  have hduplicate : 2 ≤ batch.count x ↔ List.Duplicate x batch := by
    rw [List.duplicate_iff_two_le_count]
    rw [lawful_beq_subsingleton (instBEqOfDecidableEq : BEq (Option κ)) inferInstance]
  rw [hduplicate, List.duplicate_iff_exists_distinct_get]
  constructor
  · rintro ⟨i, j, hij, hi, hj⟩
    exact ⟨i, j, hij, by simp [hi], by simp [hj]⟩
  · rintro ⟨i, j, hij, hi, hj⟩
    obtain ⟨hilt, hi⟩ := List.getElem?_eq_some_iff.mp hi
    obtain ⟨hjlt, hj⟩ := List.getElem?_eq_some_iff.mp hj
    exact ⟨⟨i, hilt⟩, ⟨j, hjlt⟩, hij, hi.symm, hj.symm⟩

variable {size keys} in
/-- A key occurs once in its batch if its position is alone there. -/
theorem count_batch_eq_one_iff (hsize : 0 < size) {i : Nat} {x : Option κ}
    (hi : keys[i]? = some x) :
    (batch size keys (i / size)).count x = 1 ↔ Alone size keys i := by
  have hget : ∀ k, k < size →
      (batch size keys (i / size))[k]? = keys[size * (i / size) + k]? := by
    intro k hk
    rw [batch, List.getElem?_take_of_lt hk, List.getElem?_drop]
  have hpos : 0 < (batch size keys (i / size)).count x :=
    List.count_pos_iff.mpr ((mem_batch_iff size keys hsize _).mpr ⟨i, rfl, hi⟩)
  constructor
  · intro hone j hj hkey
    by_contra hne
    have hoffset : ∀ k, k / size = i / size → keys[k]? = some x →
        (batch size keys (i / size))[k % size]? = some x := by
      intro k hk hkx
      rw [hget _ (Nat.mod_lt k hsize), ← hk, Nat.div_add_mod]
      exact hkx
    have hmod : j % size ≠ i % size := by
      intro hmod
      apply hne
      rw [← Nat.div_add_mod j size, ← Nat.div_add_mod i size, hj, hmod]
    have htwo : 2 ≤ (batch size keys (i / size)).count x := by
      rw [two_le_count_iff]
      rcases Nat.lt_or_gt_of_ne hmod with h | h
      · exact ⟨_, _, h, hoffset j hj (hkey.trans hi), hoffset i rfl hi⟩
      · exact ⟨_, _, h, hoffset i rfl hi, hoffset j hj (hkey.trans hi)⟩
    omega
  · intro halone
    by_contra hne
    obtain ⟨k, l, hkl, hk, hl⟩ := two_le_count_iff.mp
      (show 2 ≤ (batch size keys (i / size)).count x by omega)
    have hin : ∀ m, (batch size keys (i / size))[m]? = some x →
        m < size ∧ size * (i / size) + m = i := by
      intro m hm
      have hlt : m < size := by
        have hlength := (List.getElem?_eq_some_iff.mp hm).1
        rw [length_batch] at hlength
        omega
      refine ⟨hlt, halone _ ?_ ?_⟩
      · rw [Nat.mul_add_div hsize, Nat.div_eq_of_lt hlt, Nat.add_zero]
      · rw [← hget m hlt, hm, hi]
    have := hin k hk
    have := hin l hl
    omega

/-- Position by position, a batch lets the free keys pass that are alone. -/
theorem getElem?_admitted (hsize : 0 < size) {b i : Nat} (hb : i / size < b) (x : κ) :
    (admitted taken size keys b)[i]? = some (some x) ↔
      keys[i]? = some (some x) ∧ x ∉ taken ∧ some x ∉ admitted taken size keys (i / size) ∧
        Alone size keys i := by
  rw [getElem?_folded (admitBatch taken) size keys
    (f := fun done batch key =>
      key.filter fun x => x ∉ taken ∧ some x ∉ done ∧ batch.count (some x) = 1)
    (fun done batch => rfl) hsize hb]
  cases hkey : keys[i]? with
  | none => simp
  | some key =>
      cases key with
      | none => simp
      | some y =>
          have hcount := count_batch_eq_one_iff hsize hkey
          by_cases hyx : y = x
          · subst hyx
            simp [Option.filter_some, hcount]
          · simp [Option.filter_some, hyx]

variable {taken} in
/-- A free key has been admitted once some position of it was alone. -/
theorem mem_admitted_iff (hsize : 0 < size) {x : κ} (hx : x ∉ taken) (b : Nat) :
    some x ∈ admitted taken size keys b ↔
      ∃ i, i / size < b ∧ keys[i]? = some (some x) ∧ Alone size keys i := by
  induction b with
  | zero => simp
  | succ b ih =>
      rw [admitted, folded_succ, List.mem_append, ih, admitBatch, List.mem_map]
      constructor
      · rintro (⟨i, hi, h⟩ | ⟨key, hmem, hkey⟩)
        · exact ⟨i, Nat.lt_succ_of_lt hi, h⟩
        · rw [Option.filter_eq_some_iff] at hkey
          obtain ⟨rfl, hpass⟩ := hkey
          obtain ⟨i, rfl, hi⟩ := (mem_batch_iff size keys hsize b).mp hmem
          simp only [decide_eq_true_eq] at hpass
          exact ⟨i, Nat.lt_succ_self _, hi, (count_batch_eq_one_iff hsize hi).mp hpass.2.2⟩
      · rintro ⟨i, hi, hkey, halone⟩
        by_cases hold : ∃ i, i / size < b ∧ keys[i]? = some (some x) ∧ Alone size keys i
        · exact Or.inl hold
        · right
          have hb : i / size = b := by
            by_contra hne
            exact hold ⟨i, by omega, hkey, halone⟩
          subst hb
          refine ⟨some x, (mem_batch_iff size keys hsize _).mpr ⟨i, rfl, hkey⟩, ?_⟩
          rw [Option.filter_eq_some_iff]
          simp only [decide_eq_true_eq]
          exact ⟨trivial, hx, fun hmem => hold (ih.mp hmem),
            (count_batch_eq_one_iff hsize hkey).mpr halone⟩

variable {taken keys} in
/-- **The position admitted for a key** is the first one alone in its batch. -/
theorem admitted_iff_firstAlone (hsize : 0 < size) {b i : Nat} (hb : i / size < b)
    {x : κ} (hx : x ∉ taken) (hkey : keys[i]? = some (some x)) :
    (admitted taken size keys b)[i]? = some (some x) ↔ FirstAlone size keys i := by
  rw [getElem?_admitted taken size keys hsize hb, mem_admitted_iff size keys hsize hx]
  constructor
  · rintro ⟨-, -, hnew, halone⟩
    refine ⟨halone, fun j hj hsame hj' => ?_⟩
    by_cases hdiv : j / size = i / size
    · have := halone j hdiv hsame
      omega
    · have hle := Nat.div_le_div_right (c := size) hj.le
      exact hnew ⟨j, by omega, hsame.trans hkey, hj'⟩
  · rintro ⟨halone, hfirst⟩
    refine ⟨hkey, hx, ?_, halone⟩
    rintro ⟨j, hj, hsame, hj'⟩
    have hlt : j < i := by
      by_contra hge
      have := Nat.div_le_div_right (c := size) (show i ≤ j by omega)
      omega
    exact hfirst j hlt (hsame.trans hkey.symm) hj'

end Admission

end Batches
end Northwind
