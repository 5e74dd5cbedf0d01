import Mathlib.Data.Nat.Digits.Defs
import Mathlib.Data.String.Basic

/-!
# Numbers in names and keys

A format such as `:012d` writes a number in decimal digits and pads it with
zeros to its width; a longer number is not cut.
-/

namespace Northwind

/-- `f"{n:0{width}d}"` -/
def zeroPadded (width n : Nat) : String :=
  String.ofList (List.leftpad width '0' (Nat.toDigits 10 n))

theorem ofDigitChars_zeros (k : Nat) (digits : List Char) :
    Nat.ofDigitChars 10 (List.replicate k '0' ++ digits) 0 = Nat.ofDigitChars 10 digits 0 := by
  induction k with
  | zero => rfl
  | succ k ih =>
      rw [List.replicate_succ, List.cons_append, Nat.ofDigitChars_cons]
      exact ih

theorem leftpad_toDigits_injective (width : Nat) :
    Function.Injective (fun n => List.leftpad width '0' (Nat.toDigits 10 n)) := by
  intro m n h
  have hnumber := congrArg (fun cs => Nat.ofDigitChars 10 cs 0) h
  simpa only [List.leftpad, ofDigitChars_zeros, Nat.ofDigitChars_ten_toDigits] using hnumber

theorem zeroPadded_injective (width : Nat) : Function.Injective (zeroPadded width) := by
  intro m n h
  have hlist := congrArg String.toList h
  simp only [zeroPadded, String.toList_ofList] at hlist
  exact leftpad_toDigits_injective width hlist

theorem append_left_injective (s : String) : Function.Injective (s ++ ·) := by
  intro t u h
  have hlist := congrArg String.toList h
  simp only [String.toList_append] at hlist
  exact String.toList_injective (List.append_cancel_left hlist)

/-- `max` of a list, `0` for the empty one, is a bound of its numbers. -/
theorem le_foldr_max {numbers : List Nat} {n : Nat} (h : n ∈ numbers) :
    n ≤ numbers.foldr max 0 := by
  induction numbers with
  | nil => cases h
  | cons m numbers ih =>
      rw [List.foldr_cons]
      obtain rfl | hmem := List.mem_cons.mp h
      · exact Nat.le_max_left n _
      · exact (ih hmem).trans (Nat.le_max_right m _)

end Northwind
