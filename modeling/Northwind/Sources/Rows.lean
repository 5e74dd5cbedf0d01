import Mathlib.Data.List.Dedup
import Mathlib.Data.List.Sort
import Mathlib.Data.String.Basic
import Mathlib.Data.Prod.Lex
import Mathlib.Order.WithBot

/-!
# Rows, columns and paths of the stored Parquet data

A row maps every column name to a nullable value.  A column the file does not
carry reads as NULL, which is what `union_by_name = true` makes of it.

Version columns are ranked `DESC` with NULLs last, so a NULL version is the
least one: `Row.version` reads the column in `WithBot Value`.

A path is the list of its parts, compared part by part as `pathlib` does.
-/

namespace Northwind

/-- A cell that is not NULL. -/
inductive Value where
  | flag (b : Bool)
  | number (n : Int)
  | text (s : String)
deriving DecidableEq

instance lawfulBEqCell : LawfulBEq (Option Value) :=
  inferInstance

/-- Order key of a value: values of one column share the constructor. -/
def Value.orderKey : Value → ℕ ×ₗ ℤ ×ₗ String
  | .flag b => toLex (0, toLex (b.toInt, ""))
  | .number n => toLex (1, toLex (n, ""))
  | .text s => toLex (2, toLex (0, s))

theorem Value.orderKey_injective :
    Function.Injective Value.orderKey := by
  intro x y h
  cases x <;> cases y <;>
    simp [Value.orderKey, Prod.ext_iff] at h ⊢
  · rename_i b c
    cases b <;> cases c <;> simp_all
  · exact h
  · exact h

instance : LinearOrder Value :=
  LinearOrder.lift' Value.orderKey Value.orderKey_injective

/-- Text values compare as their strings do. -/
theorem Value.text_lt_text (s t : String) :
    Value.text s < Value.text t ↔ s < t := by
  change Value.orderKey (.text s) < Value.orderKey (.text t) ↔ s < t
  simp [Value.orderKey, Prod.Lex.toLex_lt_toLex]

/-- A row: every column name with its nullable value. -/
abbrev Row := String → Option Value

/-- The row with the given cells, NULL elsewhere. -/
def Row.ofCells (cells : List (String × Value)) : Row :=
  fun column => cells.lookup column

/-- The value a row is ranked by; NULL ranks last. -/
def Row.version (column : String) (r : Row) : WithBot Value :=
  r column

/-- A path below the file-system root, as its parts. -/
abbrev Path := List String

/-- `str(value)` of a cell. -/
def cellText : Option Value → String
  | none => "None"
  | some (.text s) => s
  | some (.number n) => toString n
  | some (.flag true) => "True"
  | some (.flag false) => "False"

instance lawfulBEqPath : LawfulBEq Path :=
  inferInstance

/-- `Path.parent`. -/
def Path.parent (p : Path) : Path :=
  p.dropLast

/-- `Path.name`; the root has the empty name. -/
def Path.name (p : Path) : String :=
  p.getLast?.getD ""

@[simp] theorem Path.name_append_singleton (p : Path) (s : String) :
    Path.name (p ++ [s]) = s := by
  simp [Path.name]

@[simp] theorem Path.parent_append_singleton (p : Path) (s : String) :
    Path.parent (p ++ [s]) = p := by
  simp [Path.parent]

/-- `str.endswith`. -/
def endsWith (s suffix : String) : Bool :=
  suffix.toList.isSuffixOf s.toList

/-- `tuple(sorted(set(paths)))`. -/
def sortedSet (paths : List Path) : List Path :=
  paths.dedup.insertionSort (· ≤ ·)

@[simp] theorem mem_sortedSet (paths : List Path) (p : Path) :
    p ∈ sortedSet paths ↔ p ∈ paths := by
  simp [sortedSet]

theorem nodup_sortedSet (paths : List Path) :
    (sortedSet paths).Nodup := by
  unfold sortedSet
  rw [(List.perm_insertionSort _ _).nodup_iff]
  exact List.nodup_dedup paths

theorem sorted_sortedSet (paths : List Path) :
    (sortedSet paths).Pairwise (· ≤ ·) :=
  List.pairwise_insertionSort (· ≤ ·) paths.dedup

/-- What stands before an element of a sorted set is what is smaller. -/
theorem mem_before_sortedSet_iff
    {paths before after : List Path} {p q : Path}
    (h : sortedSet paths = before ++ p :: after) :
    q ∈ before ↔ q ∈ sortedSet paths ∧ q < p := by
  have hsorted := sorted_sortedSet paths
  have hnodup := nodup_sortedSet paths
  rw [h] at hsorted hnodup
  have hle := (List.pairwise_append.mp hsorted).2.2
  have hge := (List.pairwise_cons.mp (List.pairwise_append.mp hsorted).2.1).1
  have hne := (List.nodup_append.mp hnodup).2.2
  rw [h]
  constructor
  · intro hq
    exact ⟨List.mem_append_left _ hq,
      lt_of_le_of_ne (hle q hq p List.mem_cons_self) (hne q hq p List.mem_cons_self)⟩
  · rintro ⟨hq, hlt⟩
    rcases List.mem_append.mp hq with hq | hq
    · exact hq
    · rcases List.mem_cons.mp hq with rfl | hq
      · exact absurd hlt (lt_irrefl q)
      · exact absurd (hge q hq) (not_le_of_gt hlt)

/-- A strictly listed set is the sorted set of any list with its members. -/
theorem sortedSet_eq_of_mem_iff
    {paths listed : List Path}
    (hsorted : listed.Pairwise (· ≤ ·)) (hnodup : listed.Nodup)
    (hmem : ∀ p, p ∈ paths ↔ p ∈ listed) :
    sortedSet paths = listed := by
  have hperm : (sortedSet paths).Perm listed := by
    rw [List.perm_ext_iff_of_nodup (nodup_sortedSet paths) hnodup]
    intro p
    rw [mem_sortedSet, hmem p]
  exact hperm.eq_of_pairwise
    (fun a b _ _ hab hba => le_antisymm hab hba) (sorted_sortedSet paths) hsorted

theorem sortedSet_congr
    {paths paths' : List Path} (hmem : ∀ p, p ∈ paths ↔ p ∈ paths') :
    sortedSet paths = sortedSet paths' :=
  sortedSet_eq_of_mem_iff (sorted_sortedSet paths') (nodup_sortedSet paths')
    (fun p => by rw [mem_sortedSet, hmem p])

/-- The first part of a sorted union, recovered by a membership filter. -/
theorem filter_sortedSet_append_left (paths paths' : List Path) :
    (sortedSet (paths ++ paths')).filter (fun p => p ∈ paths) = sortedSet paths := by
  symm
  apply sortedSet_eq_of_mem_iff
  · exact (sorted_sortedSet _).filter _
  · exact (nodup_sortedSet _).filter _
  · intro p
    simp only [List.mem_filter, mem_sortedSet, List.mem_append, decide_eq_true_eq]
    tauto

/-- What a sorted union adds to its first part. -/
theorem filter_sortedSet_append_right (paths paths' : List Path) :
    (sortedSet (paths ++ sortedSet paths')).filter (fun p => p ∉ paths) =
      (sortedSet paths').filter (fun p => p ∉ paths) := by
  have hright : sortedSet ((sortedSet paths').filter (fun p => p ∉ paths)) =
      (sortedSet paths').filter (fun p => p ∉ paths) :=
    sortedSet_eq_of_mem_iff ((sorted_sortedSet _).filter _) ((nodup_sortedSet _).filter _)
      (fun p => Iff.rfl)
  rw [← hright]
  symm
  apply sortedSet_eq_of_mem_iff
  · exact (sorted_sortedSet _).filter _
  · exact (nodup_sortedSet _).filter _
  · intro p
    simp only [List.mem_filter, mem_sortedSet, List.mem_append, decide_eq_true_eq]
    tauto

end Northwind
