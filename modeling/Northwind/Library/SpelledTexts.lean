import Mathlib.Data.String.Basic

/-!
# Lists of texts spelled in one text

Every character of a text is marked, and a full stop ends the text.  So the texts
can be read back, whatever characters they have and whatever follows.
-/

namespace Northwind
namespace SpelledTexts

/-- A text with its marks and its end. -/
def spell : List Char → List Char
  | [] => ['.']
  | c :: text => '+' :: c :: spell text

/-- The texts, one after the other. -/
def spellAll (texts : List String) : String :=
  String.ofList (texts.flatMap (fun text => spell text.toList))

theorem spell_append_inj {text text' rest rest' : List Char}
    (h : spell text ++ rest = spell text' ++ rest') : text = text' ∧ rest = rest' := by
  induction text generalizing text' with
  | nil =>
      cases text' with
      | nil => exact ⟨rfl, List.tail_eq_of_cons_eq h⟩
      | cons c text' => exact absurd (List.head_eq_of_cons_eq h) (by decide)
  | cons c text ih =>
      cases text' with
      | nil => exact absurd (List.head_eq_of_cons_eq h) (by decide)
      | cons c' text' =>
          obtain ⟨hc, htail⟩ := List.cons.inj (List.tail_eq_of_cons_eq h)
          obtain ⟨htext, hrest⟩ := ih htail
          exact ⟨by rw [hc, htext], hrest⟩

theorem spellAll_injective : Function.Injective spellAll := by
  intro texts texts' h
  have hlist := congrArg String.toList h
  rw [spellAll, spellAll, String.toList_ofList, String.toList_ofList] at hlist
  clear h
  induction texts generalizing texts' with
  | nil =>
      cases texts' with
      | nil => rfl
      | cons text' texts' =>
          rw [List.flatMap_cons] at hlist
          cases htext : text'.toList <;> rw [htext] at hlist <;> cases hlist
  | cons text texts ih =>
      cases texts' with
      | nil =>
          rw [List.flatMap_cons] at hlist
          cases htext : text.toList <;> rw [htext] at hlist <;> cases hlist
      | cons text' texts' =>
          rw [List.flatMap_cons, List.flatMap_cons] at hlist
          obtain ⟨htext, hrest⟩ := spell_append_inj hlist
          rw [String.toList_inj.mp htext, ih hrest]

end SpelledTexts
end Northwind
