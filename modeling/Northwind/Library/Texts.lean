import Mathlib.Data.List.Basic
import Mathlib.Data.String.Basic

/-!
# Characters of a text

What holds of all characters of a text is decided on the text.  A text of one
kind of characters can be told from what follows it where the kind ends, and the
text of an integer has digits and a sign only and names the integer.
-/

namespace Northwind
namespace Texts

/-- A statement about the characters of a text is decided on the text. -/
instance decidableOnText (p : Char → Prop) [DecidablePred p] (text : List Char) :
    Decidable (∀ c ∈ text, p c) :=
  List.decidableBAll p text

instance decidableOnFirst (p : Char → Prop) [DecidablePred p] (first : Option Char) :
    Decidable (∀ c ∈ first, p c) :=
  Option.decidableForallMem first

/-- Texts of one kind of characters end where the kind ends. -/
theorem append_inj_of_all {p : Char → Bool} {s t u v : List Char} {c d : Char}
    (hs : ∀ x ∈ s, p x = true) (ht : ∀ x ∈ t, p x = true) (hc : p c = false) (hd : p d = false)
    (h : s ++ c :: u = t ++ d :: v) : s = t ∧ c :: u = d :: v := by
  induction s generalizing t with
  | nil =>
      cases t with
      | nil => exact ⟨rfl, h⟩
      | cons y t =>
          have hhead : c = y := List.head_eq_of_cons_eq h
          rw [hhead, ht y List.mem_cons_self] at hc
          cases hc
  | cons x s ih =>
      cases t with
      | nil =>
          have hhead : x = d := List.head_eq_of_cons_eq h
          rw [← hhead, hs x List.mem_cons_self] at hd
          cases hd
      | cons y t =>
          obtain ⟨hxy, hrest⟩ := List.cons.inj h
          obtain ⟨hst, huv⟩ := ih (fun z hz => hs z (List.mem_cons_of_mem _ hz))
            (fun z hz => ht z (List.mem_cons_of_mem _ hz)) hrest
          exact ⟨by rw [hxy, hst], huv⟩

theorem isDigit_or_minus_of_mem_int {n : Int} {c : Char} (h : c ∈ (toString n).toList) :
    c.isDigit = true ∨ c = '-' := by
  have hdigits : ∀ {m : Nat}, c ∈ (String.ofList (Nat.toDigits 10 m)).toList →
      c.isDigit = true := by
    intro m hmem
    rw [String.toList_ofList] at hmem
    exact Nat.isDigit_of_mem_toDigits (by decide) (by decide) hmem
  cases n with
  | ofNat m => exact Or.inl (hdigits h)
  | negSucc m =>
      change c ∈ ("-" ++ String.ofList (Nat.toDigits 10 (m + 1))).toList at h
      rw [String.toList_append] at h
      rcases List.mem_append.mp h with hsign | hdigit
      · exact Or.inr (List.mem_singleton.mp hsign)
      · exact Or.inl (hdigits hdigit)

theorem intText_injective : Function.Injective (fun n : Int => (toString n).toList) := by
  have hdigits : ∀ {m n : Nat}, Nat.toDigits 10 m = Nat.toDigits 10 n → m = n := by
    intro m n h
    have hnumber := congrArg (fun cs => Nat.ofDigitChars 10 cs 0) h
    simpa only [Nat.ofDigitChars_ten_toDigits] using hnumber
  have hsign : ∀ {m n : Nat},
      (String.ofList (Nat.toDigits 10 m)).toList ≠
        ("-" ++ String.ofList (Nat.toDigits 10 n)).toList := by
    intro m n h
    rw [String.toList_append, String.toList_ofList] at h
    have hmem : '-' ∈ Nat.toDigits 10 m := by
      rw [h]
      exact List.mem_append_left _ (by decide)
    exact absurd (Nat.isDigit_of_mem_toDigits (by decide) (by decide) hmem) (by decide)
  intro m n h
  cases m with
  | ofNat m =>
      cases n with
      | ofNat n =>
          have hsame := String.ofList_injective (String.toList_injective h)
          rw [hdigits hsame]
      | negSucc n => exact absurd h hsign
  | negSucc m =>
      cases n with
      | ofNat n => exact absurd h.symm hsign
      | negSucc n =>
          change ("-" ++ String.ofList (Nat.toDigits 10 (m + 1))).toList =
            ("-" ++ String.ofList (Nat.toDigits 10 (n + 1))).toList at h
          simp only [String.toList_append, String.toList_ofList] at h
          have hsame := hdigits (List.append_cancel_left h)
          rw [Nat.succ.inj hsame]

end Texts
end Northwind
