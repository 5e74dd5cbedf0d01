import Northwind.Library.Texts

/-!
# The text of a flat JSON object

The compact encoding of an object whose members are texts, numbers, booleans and
nulls.  A character outside printable ASCII is escaped by its UTF-16 code units, so
the whole text is ASCII.

* `objectText_injective`: the text gives back the members;
* `separator_inj`: behind any text and a separator an object can be read back too,
  since no object ends within a text of another one.

The type of the floating-point numbers and their texts are parameters.
-/

namespace Northwind
namespace JsonText

open Texts

universe u

/-! ## Texts -/

/-- Four hexadecimal digits. -/
def hex4 (n : Nat) : List Char :=
  [Nat.digitChar (n / 4096 % 16), Nat.digitChar (n / 256 % 16), Nat.digitChar (n / 16 % 16),
    Nat.digitChar (n % 16)]

def unicodeEscape (unit : Nat) : List Char :=
  '\\' :: 'u' :: hex4 unit

/-- One code unit, or a surrogate pair. -/
def escapePoint (n : Nat) : List Char :=
  if n < 0x10000 then unicodeEscape n
  else
    unicodeEscape (0xd800 + (n - 0x10000) / 0x400) ++
      unicodeEscape (0xdc00 + (n - 0x10000) % 0x400)

/-- The characters with an escape of two characters. -/
def shortEscapes : List (Char × Char) :=
  [('"', '"'), ('\\', '\\'), ('\n', 'n'), ('\r', 'r'), ('\t', 't'), ('\x0c', 'f'), ('\x08', 'b')]

def escapeChar (c : Char) : List Char :=
  match shortEscapes.lookup c with
  | some e => ['\\', e]
  | none => if 0x20 ≤ c.toNat ∧ c.toNat ≤ 0x7e then [c] else escapePoint c.toNat

def escape (text : List Char) : List Char :=
  text.flatMap escapeChar

def quote (text : String) : List Char :=
  '"' :: (escape text.toList ++ ['"'])

/-! ## Objects -/

inductive Scalar (φ : Type u) where
  | null
  | flag (value : Bool)
  | int (value : Int)
  | float (value : φ)
  | text (value : String)

/-- The characters of numbers. -/
def isNumberChar (c : Char) : Bool :=
  c.isDigit || c ∈ ['-', '+', '.', 'e']

/-- Texts of floating-point numbers: another one for each, and none of an integer. -/
structure FloatText (φ : Type u) where
  text : φ → List Char
  injective : Function.Injective text
  numeric : ∀ x, ∀ c ∈ text x, isNumberChar c = true
  ne_int : ∀ x (n : Int), text x ≠ (toString n).toList

section Objects

variable {φ : Type u} (floats : FloatText φ)

def scalarText : Scalar φ → List Char
  | .null => "null".toList
  | .flag true => "true".toList
  | .flag false => "false".toList
  | .int n => (toString n).toList
  | .float x => floats.text x
  | .text s => quote s

abbrev Member (φ : Type u) : Type u :=
  String × Scalar φ

def memberText (member : Member φ) : List Char :=
  quote member.1 ++ ':' :: scalarText floats member.2

/-- The members after the first one, each behind its comma, and the end. -/
def restText : List (Member φ) → List Char
  | [] => ['}']
  | member :: members => ',' :: (memberText floats member ++ restText members)

def objectText : List (Member φ) → List Char
  | [] => ['{', '}']
  | member :: members => '{' :: (memberText floats member ++ restText floats members)

end Objects

/-! ## Texts are read back -/

theorem digitChar_inj {m n : Nat} (hm : m < 16) (hn : n < 16)
    (h : Nat.digitChar m = Nat.digitChar n) : m = n := by
  have hall : ∀ a < 16, ∀ b < 16, Nat.digitChar a = Nat.digitChar b → a = b := by
    decide
  exact hall m hm n hn h

theorem unicodeEscape_append_inj {m n : Nat} (hm : m < 0x10000) (hn : n < 0x10000)
    {u v : List Char} (h : unicodeEscape m ++ u = unicodeEscape n ++ v) : m = n ∧ u = v := by
  simp only [unicodeEscape, hex4, List.cons_append, List.nil_append, List.cons.injEq,
    true_and] at h
  obtain ⟨h3, h2, h1, h0, hrest⟩ := h
  have h3' := digitChar_inj (Nat.mod_lt _ (by decide)) (Nat.mod_lt _ (by decide)) h3
  have h2' := digitChar_inj (Nat.mod_lt _ (by decide)) (Nat.mod_lt _ (by decide)) h2
  have h1' := digitChar_inj (Nat.mod_lt _ (by decide)) (Nat.mod_lt _ (by decide)) h1
  have h0' := digitChar_inj (Nat.mod_lt _ (by decide)) (Nat.mod_lt _ (by decide)) h0
  exact ⟨by omega, hrest⟩

/-- No character is a surrogate. -/
theorem not_surrogate (c : Char) : c.toNat < 0xd800 ∨ 0xdfff < c.toNat ∧ c.toNat < 0x110000 := by
  rcases c.valid with h | ⟨hlow, hhigh⟩
  · exact Or.inl h
  · exact Or.inr ⟨hlow, hhigh⟩

theorem escapePoint_append_inj {c d : Char} {u v : List Char}
    (h : escapePoint c.toNat ++ u = escapePoint d.toNat ++ v) : c = d ∧ u = v := by
  have hc := not_surrogate c
  have hd := not_surrogate d
  have hchars : c.toNat = d.toNat → c = d := fun hsame => Char.toNat_inj.mp hsame
  unfold escapePoint at h
  split at h <;> split at h
  · obtain ⟨hsame, hrest⟩ := unicodeEscape_append_inj (by omega) (by omega) h
    exact ⟨hchars hsame, hrest⟩
  · rw [List.append_assoc] at h
    obtain ⟨hsame, _⟩ := unicodeEscape_append_inj (by omega) (by omega) h
    omega
  · rw [List.append_assoc] at h
    obtain ⟨hsame, _⟩ := unicodeEscape_append_inj (by omega) (by omega) h
    omega
  · rw [List.append_assoc, List.append_assoc] at h
    obtain ⟨hhigh, hrest⟩ := unicodeEscape_append_inj (by omega) (by omega) h
    obtain ⟨hlow, hrest'⟩ := unicodeEscape_append_inj (by omega) (by omega) hrest
    exact ⟨hchars (by omega), hrest'⟩

theorem escapePoint_eq_cons (n : Nat) : ∃ w, escapePoint n = '\\' :: 'u' :: w := by
  rw [escapePoint]
  split
  · exact ⟨hex4 n, rfl⟩
  · exact ⟨_, rfl⟩

/-- What the code of a character looks like. -/
theorem escapeChar_cases (c : Char) :
    (∃ e, (c, e) ∈ shortEscapes ∧ escapeChar c = ['\\', e]) ∨
      (c ≠ '"' ∧ c ≠ '\\' ∧ escapeChar c = [c]) ∨ escapeChar c = escapePoint c.toNat := by
  cases hshort : shortEscapes.lookup c with
  | some e =>
      obtain ⟨_, _, hsplit, _⟩ := List.lookup_eq_some_iff.mp hshort
      refine Or.inl ⟨e, ?_, by rw [escapeChar, hshort]⟩
      rw [hsplit]
      exact List.mem_append_right _ List.mem_cons_self
  | none =>
      have hcode : escapeChar c =
          if 0x20 ≤ c.toNat ∧ c.toNat ≤ 0x7e then [c] else escapePoint c.toNat := by
        rw [escapeChar, hshort]
      by_cases hprint : 0x20 ≤ c.toNat ∧ c.toNat ≤ 0x7e
      · rw [if_pos hprint] at hcode
        refine Or.inr (Or.inl ⟨?_, ?_, hcode⟩)
        · rintro rfl
          exact absurd hshort (by decide)
        · rintro rfl
          exact absurd hshort (by decide)
      · rw [if_neg hprint] at hcode
        exact Or.inr (Or.inr hcode)

/-- The codes of characters are read one by one. -/
theorem escapeChar_append_inj {c d : Char} {u v : List Char}
    (h : escapeChar c ++ u = escapeChar d ++ v) : c = d ∧ u = v := by
  have hshort : ∀ x ∈ shortEscapes, x.2 ≠ 'u' ∧ ∀ y ∈ shortEscapes, x.2 = y.2 → x.1 = y.1 := by
    decide
  obtain ⟨w, hw⟩ := escapePoint_eq_cons c.toNat
  obtain ⟨w', hw'⟩ := escapePoint_eq_cons d.toNat
  rcases escapeChar_cases c with ⟨e, hmem, hc⟩ | ⟨_, hplain, hc⟩ | hc <;>
    rcases escapeChar_cases d with ⟨e', hmem', hd⟩ | ⟨_, hplain', hd⟩ | hd <;>
      rw [hc, hd] at h
  · simp only [List.cons_append, List.nil_append, List.cons.injEq, true_and] at h
    exact ⟨(hshort _ hmem).2 _ hmem' h.1, h.2⟩
  · exact absurd (List.head_eq_of_cons_eq h).symm hplain'
  · rw [hw'] at h
    simp only [List.cons_append, List.nil_append, List.cons.injEq, true_and] at h
    exact absurd h.1 (hshort _ hmem).1
  · exact absurd (List.head_eq_of_cons_eq h) hplain
  · simp only [List.cons_append, List.nil_append, List.cons.injEq] at h
    exact h
  · rw [hw'] at h
    exact absurd (List.head_eq_of_cons_eq h) hplain
  · rw [hw] at h
    simp only [List.cons_append, List.nil_append, List.cons.injEq, true_and] at h
    exact absurd h.1.symm (hshort _ hmem').1
  · rw [hw] at h
    exact absurd (List.head_eq_of_cons_eq h).symm hplain'
  · exact escapePoint_append_inj h

/-- No code begins with a quote. -/
theorem escapeChar_ne_quote (c : Char) (u v : List Char) : escapeChar c ++ u ≠ '"' :: v := by
  intro h
  rcases escapeChar_cases c with ⟨e, _, hc⟩ | ⟨hquote, _, hc⟩ | hc
  · rw [hc] at h
    exact absurd (List.head_eq_of_cons_eq h) (by decide)
  · rw [hc] at h
    exact hquote (List.head_eq_of_cons_eq h)
  · obtain ⟨w, hw⟩ := escapePoint_eq_cons c.toNat
    rw [hc, hw] at h
    exact absurd (List.head_eq_of_cons_eq h) (by decide)

theorem escape_append_inj {s t u v : List Char}
    (h : escape s ++ '"' :: u = escape t ++ '"' :: v) : s = t ∧ u = v := by
  induction s generalizing t with
  | nil =>
      cases t with
      | nil => exact ⟨rfl, List.tail_eq_of_cons_eq h⟩
      | cons d t =>
          rw [escape, escape, List.flatMap_nil, List.flatMap_cons, List.append_assoc] at h
          exact absurd h.symm (escapeChar_ne_quote d _ _)
  | cons c s ih =>
      cases t with
      | nil =>
          rw [escape, escape, List.flatMap_nil, List.flatMap_cons, List.append_assoc] at h
          exact absurd h (escapeChar_ne_quote c _ _)
      | cons d t =>
          rw [escape, escape, List.flatMap_cons, List.flatMap_cons, List.append_assoc,
            List.append_assoc] at h
          obtain ⟨hc, hrest⟩ := escapeChar_append_inj h
          obtain ⟨hs, huv⟩ := ih hrest
          exact ⟨by rw [hc, hs], huv⟩

theorem quote_append_inj {s t : String} {u v : List Char}
    (h : quote s ++ u = quote t ++ v) : s = t ∧ u = v := by
  rw [quote, quote, List.cons_append, List.cons_append, List.append_assoc, List.append_assoc] at h
  obtain ⟨hchars, hrest⟩ := escape_append_inj (List.tail_eq_of_cons_eq h)
  exact ⟨String.toList_inj.mp hchars, hrest⟩

/-! ## Objects are read back -/

/-- The characters of everything but texts. -/
def isBare (c : Char) : Bool :=
  c ∉ ['"', '\\', '{', '}', ',', ':']

theorem isBare_of_isNumberChar {c : Char} (h : isNumberChar c = true) : isBare c = true := by
  rw [isBare, decide_eq_true_iff]
  intro hmem
  have hnone : ∀ d ∈ ['"', '\\', '{', '}', ',', ':'], isNumberChar d = false := by
    decide
  rw [hnone c hmem] at h
  cases h

theorem isNumberChar_of_mem_int {n : Int} {c : Char} (h : c ∈ (toString n).toList) :
    isNumberChar c = true := by
  rcases isDigit_or_minus_of_mem_int h with hdigit | rfl
  · rw [isNumberChar, hdigit, Bool.true_or]
  · decide

section Objects

variable {φ : Type u} {floats : FloatText φ}

/-- Every scalar is a text or a word of bare characters. -/
theorem isBare_of_mem_scalarText {value : Scalar φ} (htext : ∀ s, value ≠ .text s) {c : Char}
    (h : c ∈ scalarText floats value) : isBare c = true := by
  cases value with
  | null => exact (by decide : ∀ d ∈ "null".toList, isBare d = true) c h
  | flag b =>
      cases b with
      | true => exact (by decide : ∀ d ∈ "true".toList, isBare d = true) c h
      | false => exact (by decide : ∀ d ∈ "false".toList, isBare d = true) c h
  | int n => exact isBare_of_isNumberChar (isNumberChar_of_mem_int h)
  | float x => exact isBare_of_isNumberChar (floats.numeric x c h)
  | text s => exact absurd rfl (htext s)

/-- The words of number characters are those of the numbers. -/
theorem all_isNumberChar_iff {value : Scalar φ} (htext : ∀ s, value ≠ .text s) :
    (scalarText floats value).all isNumberChar = true ↔
      (∃ n, value = .int n) ∨ ∃ x, value = .float x := by
  rw [List.all_eq_true]
  cases value with
  | null =>
      refine iff_of_false (fun h => absurd (h 'n' (by decide : 'n' ∈ "null".toList)) (by decide)) ?_
      rintro (⟨n, hn⟩ | ⟨x, hx⟩) <;> contradiction
  | flag b =>
      refine iff_of_false (fun h => ?_) ?_
      · cases b with
        | true => exact absurd (h 't' (by decide : 't' ∈ "true".toList)) (by decide)
        | false => exact absurd (h 'f' (by decide : 'f' ∈ "false".toList)) (by decide)
      · rintro (⟨n, hn⟩ | ⟨x, hx⟩) <;> contradiction
  | int n => exact iff_of_true (fun c hc => isNumberChar_of_mem_int hc) (Or.inl ⟨n, rfl⟩)
  | float x => exact iff_of_true (floats.numeric x) (Or.inr ⟨x, rfl⟩)
  | text s => exact absurd rfl (htext s)

/-- A bare word is the text of one scalar. -/
theorem scalarText_inj {a b : Scalar φ} (ha : ∀ s, a ≠ .text s) (hb : ∀ s, b ≠ .text s)
    (h : scalarText floats a = scalarText floats b) : a = b := by
  by_cases hnumber : (scalarText floats a).all isNumberChar = true
  · have hnumber' := hnumber
    rw [h] at hnumber'
    rcases (all_isNumberChar_iff ha).mp hnumber with ⟨m, rfl⟩ | ⟨x, rfl⟩ <;>
      rcases (all_isNumberChar_iff hb).mp hnumber' with ⟨n, rfl⟩ | ⟨y, rfl⟩
    · rw [intText_injective h]
    · exact absurd h.symm (floats.ne_int y m)
    · exact absurd h (floats.ne_int x n)
    · rw [floats.injective h]
  · have hnumber' := hnumber
    rw [h] at hnumber'
    rw [all_isNumberChar_iff ha] at hnumber
    rw [all_isNumberChar_iff hb] at hnumber'
    rcases a with _ | (_ | _) | m | x | s
    case int => exact absurd (Or.inl ⟨m, rfl⟩) hnumber
    case float => exact absurd (Or.inr ⟨x, rfl⟩) hnumber
    case text => exact absurd rfl (ha s)
    all_goals
      rcases b with _ | (_ | _) | n | y | t
      case int => exact absurd (Or.inl ⟨n, rfl⟩) hnumber'
      case float => exact absurd (Or.inr ⟨y, rfl⟩) hnumber'
      case text => exact absurd rfl (hb t)
      all_goals first | rfl | simp [scalarText] at h

/-- No bare word before a comma or a brace is the text of a text. -/
theorem bare_ne_quote {w : List Char} {c : Char} {s : String} {u v : List Char}
    (hw : ∀ x ∈ w, isBare x = true) (hc : c = ',' ∨ c = '}') : w ++ c :: u ≠ quote s ++ v := by
  intro h
  cases w with
  | nil =>
      have hhead : c = '"' := List.head_eq_of_cons_eq h
      rcases hc with rfl | rfl <;> exact absurd hhead (by decide)
  | cons x w =>
      have hhead : x = '"' := List.head_eq_of_cons_eq h
      have hx := hw x List.mem_cons_self
      rw [hhead] at hx
      exact absurd hx (by decide)

/-- A scalar before a comma or the end of an object is read back. -/
theorem scalarText_append_inj {a b : Scalar φ} {u v : List Char} {c d : Char}
    (hc : c = ',' ∨ c = '}') (hd : d = ',' ∨ d = '}')
    (h : scalarText floats a ++ c :: u = scalarText floats b ++ d :: v) :
    a = b ∧ c :: u = d :: v := by
  by_cases ha : ∃ s, a = .text s
  · obtain ⟨s, rfl⟩ := ha
    by_cases hb : ∃ t, b = .text t
    · obtain ⟨t, rfl⟩ := hb
      obtain ⟨hst, hrest⟩ := quote_append_inj h
      exact ⟨by rw [hst], hrest⟩
    · have hbare : ∀ t, b ≠ .text t := fun t ht => hb ⟨t, ht⟩
      exact absurd h.symm (bare_ne_quote (fun x hx => isBare_of_mem_scalarText hbare hx) hd)
  · have hbare : ∀ s, a ≠ .text s := fun s hs => ha ⟨s, hs⟩
    by_cases hb : ∃ t, b = .text t
    · obtain ⟨t, rfl⟩ := hb
      exact absurd h (bare_ne_quote (fun x hx => isBare_of_mem_scalarText hbare hx) hc)
    · have hbare' : ∀ t, b ≠ .text t := fun t ht => hb ⟨t, ht⟩
      have hend : ∀ {e : Char}, e = ',' ∨ e = '}' → isBare e = false := by
        rintro e (rfl | rfl) <;> decide
      obtain ⟨hword, hrest⟩ := append_inj_of_all
        (fun x hx => isBare_of_mem_scalarText hbare hx)
        (fun x hx => isBare_of_mem_scalarText hbare' hx) (hend hc) (hend hd) h
      exact ⟨scalarText_inj hbare hbare' hword, hrest⟩

theorem memberText_append_inj {m n : Member φ} {u v : List Char} {c d : Char}
    (hc : c = ',' ∨ c = '}') (hd : d = ',' ∨ d = '}')
    (h : memberText floats m ++ c :: u = memberText floats n ++ d :: v) :
    m = n ∧ c :: u = d :: v := by
  rw [memberText, memberText, List.append_assoc, List.append_assoc] at h
  obtain ⟨hkey, hvalue⟩ := quote_append_inj h
  obtain ⟨hscalar, hrest⟩ := scalarText_append_inj hc hd (List.tail_eq_of_cons_eq hvalue)
  exact ⟨Prod.ext hkey hscalar, hrest⟩

variable (floats) in
/-- What follows a member begins with a comma or a brace. -/
theorem restText_eq_cons (members : List (Member φ)) :
    ∃ c w, restText floats members = c :: w ∧ (c = ',' ∨ c = '}') := by
  cases members with
  | nil => exact ⟨'}', [], rfl, Or.inr rfl⟩
  | cons m members => exact ⟨',', _, rfl, Or.inl rfl⟩

theorem memberText_restText_inj {m n : Member φ} {ms ns : List (Member φ)}
    (h : memberText floats m ++ restText floats ms = memberText floats n ++ restText floats ns) :
    m = n ∧ restText floats ms = restText floats ns := by
  obtain ⟨c, w, hms, hc⟩ := restText_eq_cons floats ms
  obtain ⟨d, w', hns, hd⟩ := restText_eq_cons floats ns
  rw [hms, hns] at h ⊢
  exact memberText_append_inj hc hd h

theorem restText_injective : Function.Injective (restText floats) := by
  intro ms ns h
  induction ms generalizing ns with
  | nil =>
      cases ns with
      | nil => rfl
      | cons n ns => exact absurd (List.head_eq_of_cons_eq h) (by decide)
  | cons m ms ih =>
      cases ns with
      | nil => exact absurd (List.head_eq_of_cons_eq h) (by decide)
      | cons n ns =>
          obtain ⟨hmn, hrest⟩ := memberText_restText_inj (List.tail_eq_of_cons_eq h)
          rw [hmn, ih hrest]

/-- The text of an object gives back its members. -/
theorem objectText_injective : Function.Injective (objectText floats) := by
  intro ms ns h
  have hquote : ∀ {m : Member φ} {rest : List Char}, '}' :: [] ≠ memberText floats m ++ rest :=
    fun heq => absurd (List.head_eq_of_cons_eq heq) (by decide)
  cases ms with
  | nil =>
      cases ns with
      | nil => rfl
      | cons n ns => exact absurd (List.tail_eq_of_cons_eq h) hquote
  | cons m ms =>
      cases ns with
      | nil => exact absurd (List.tail_eq_of_cons_eq h).symm hquote
      | cons n ns =>
          obtain ⟨hmn, hrest⟩ := memberText_restText_inj (List.tail_eq_of_cons_eq h)
          rw [hmn, restText_injective hrest]

end Objects

/-! ## Objects behind a separator -/

/-- Where a reader of an object is. -/
inductive Place where
  | outside
  | inText
  | escaped
deriving DecidableEq

/-- A reader that gives up at a backslash or an opening brace outside the texts. -/
def Place.next : Place → Char → Option Place
  | .outside, c =>
      if c = '"' then some .inText
      else if c = '\\' ∨ c = '{' then none
      else some .outside
  | .inText, c =>
      if c = '"' then some .outside
      else if c = '\\' then some .escaped
      else some .inText
  | .escaped, _ => some .inText

def scan : Place → List Char → Option Place
  | place, [] => some place
  | place, c :: text => (place.next c).bind (fun next => scan next text)

theorem scan_append (place : Place) (u v : List Char) :
    scan place (u ++ v) = (scan place u).bind (fun next => scan next v) := by
  induction u generalizing place with
  | nil => rfl
  | cons c u ih =>
      rw [List.cons_append, scan, scan]
      cases place.next c with
      | none => rfl
      | some next => exact ih next

/-- Without quotes and backslashes the reader stays where it is. -/
theorem scan_outside {text : List Char} (h : ∀ c ∈ text, isBare c = true ∨ c = ',' ∨ c = ':') :
    scan .outside text = some .outside := by
  induction text with
  | nil => rfl
  | cons c text ih =>
      have hc : Place.next .outside c = some .outside := by
        have hnot : ∀ d ∈ ['"', '\\', '{'], c ≠ d := by
          rintro d hd rfl
          rcases h c List.mem_cons_self with hbare | rfl | rfl
          · have hall : ∀ d ∈ ['"', '\\', '{'], isBare d = false := by
              decide
            rw [hall c hd] at hbare
            cases hbare
          · exact absurd hd (by decide)
          · exact absurd hd (by decide)
        rw [Place.next, if_neg (hnot '"' (by decide)), if_neg]
        rintro (hback | hbrace)
        · exact hnot '\\' (by decide) hback
        · exact hnot '{' (by decide) hbrace
      rw [scan, hc]
      exact ih (fun d hd => h d (List.mem_cons_of_mem _ hd))

theorem scan_inText {text : List Char} (h : ∀ c ∈ text, c ≠ '"' ∧ c ≠ '\\') :
    scan .inText text = some .inText := by
  induction text with
  | nil => rfl
  | cons c text ih =>
      obtain ⟨hquote, hback⟩ := h c List.mem_cons_self
      rw [scan, Place.next, if_neg hquote, if_neg hback]
      exact ih (fun d hd => h d (List.mem_cons_of_mem _ hd))

theorem scan_unicodeEscape (unit : Nat) : scan .inText (unicodeEscape unit) = some .inText := by
  have hdigit : ∀ n < 16, Nat.digitChar n ≠ '"' ∧ Nat.digitChar n ≠ '\\' := by
    decide
  have hhex : scan .inText (hex4 unit) = some .inText := by
    apply scan_inText
    intro c hc
    simp only [hex4, List.mem_cons, List.not_mem_nil, or_false] at hc
    rcases hc with rfl | rfl | rfl | rfl <;> exact hdigit _ (Nat.mod_lt _ (by decide))
  exact hhex

/-- The code of a character keeps the reader in its text. -/
theorem scan_escapeChar (c : Char) : scan .inText (escapeChar c) = some .inText := by
  rcases escapeChar_cases c with ⟨e, _, hc⟩ | ⟨hquote, hback, hc⟩ | hc
  · rw [hc]
    rfl
  · rw [hc]
    apply scan_inText
    intro d hd
    rw [List.mem_singleton.mp hd]
    exact ⟨hquote, hback⟩
  · rw [hc, escapePoint]
    split
    · exact scan_unicodeEscape _
    · rw [scan_append, scan_unicodeEscape, Option.bind_some]
      exact scan_unicodeEscape _

theorem scan_quote (s : String) : scan .outside (quote s) = some .outside := by
  have hescape : ∀ text : List Char, scan .inText (escape text) = some .inText := by
    intro text
    induction text with
    | nil => rfl
    | cons c text ih =>
        rw [escape, List.flatMap_cons, scan_append, scan_escapeChar, Option.bind_some]
        exact ih
  change scan .inText (escape s.toList ++ ['"']) = some .outside
  rw [scan_append, hescape]
  rfl

section Separators

variable {φ : Type u} {floats : FloatText φ}

theorem scan_scalarText (value : Scalar φ) :
    scan .outside (scalarText floats value) = some .outside := by
  by_cases htext : ∃ s, value = .text s
  · obtain ⟨s, rfl⟩ := htext
    exact scan_quote s
  · exact scan_outside (fun c hc =>
      Or.inl (isBare_of_mem_scalarText (fun s hs => htext ⟨s, hs⟩) hc))

theorem scan_memberText (member : Member φ) :
    scan .outside (memberText floats member) = some .outside := by
  rw [memberText, scan_append, scan_quote, Option.bind_some]
  exact scan_scalarText member.2

theorem scan_restText (members : List (Member φ)) :
    scan .outside (restText floats members) = some .outside := by
  induction members with
  | nil => rfl
  | cons member members ih =>
      change scan .outside (memberText floats member ++ restText floats members) = some .outside
      rw [scan_append, scan_memberText, Option.bind_some]
      exact ih

variable (floats) in
/-- An object is an opening brace and a text that the reader accepts. -/
theorem exists_scan_objectText (members : List (Member φ)) :
    ∃ body, objectText floats members = '{' :: body ∧ scan .outside body = some .outside := by
  cases members with
  | nil => exact ⟨['}'], rfl, rfl⟩
  | cons member members =>
      refine ⟨_, rfl, ?_⟩
      rw [scan_append, scan_memberText, Option.bind_some]
      exact scan_restText members

/-- Readers that are inside and outside of the texts stay apart. -/
theorem scan_apart {text : List Char} {place place' : Place}
    (h : scan .outside text = some place) (h' : scan .inText text = some place') :
    place = .outside ∧ place' = .inText ∨ place = .inText ∧ place' = .outside := by
  have hboth : ∀ {p q : Place}, p = .outside ∧ q = .inText ∨ p = .inText ∧ q = .outside →
      scan p text = some place → scan q text = some place' →
        place = .outside ∧ place' = .inText ∨ place = .inText ∧ place' = .outside := by
    clear h h'
    induction text with
    | nil =>
        intro p q hpq hp hq
        rwa [← Option.some.inj hp, ← Option.some.inj hq]
    | cons c text ih =>
        intro p q hpq hp hq
        obtain ⟨p', hnext, hrest⟩ := Option.bind_eq_some_iff.mp hp
        obtain ⟨q', hnext', hrest'⟩ := Option.bind_eq_some_iff.mp hq
        refine ih ?_ hrest hrest'
        -- a backslash is outside the texts for one of them
        rcases hpq with ⟨rfl, rfl⟩ | ⟨rfl, rfl⟩ <;> simp only [Place.next] at hnext hnext' <;>
          split_ifs at hnext hnext' <;> simp_all
  exact hboth (Or.inl ⟨rfl, rfl⟩) h h'

/-- An object behind a separator does not end another object. -/
theorem objectText_ne_append {members members' : List (Member φ)} {c : Char} {u : List Char}
    (hc : isBare c = true) : objectText floats members ≠ u ++ c :: objectText floats members' := by
  intro h
  obtain ⟨body, hbody, hscan⟩ := exists_scan_objectText floats members
  obtain ⟨body', hbody', hscan'⟩ := exists_scan_objectText floats members'
  rw [hbody, hbody'] at h
  have hseparator : c ≠ '"' ∧ c ≠ '\\' ∧ c ≠ '{' := by
    refine ⟨?_, ?_, ?_⟩ <;> rintro rfl <;> exact absurd hc (by decide)
  obtain ⟨hquote, hback, hbrace⟩ := hseparator
  cases u with
  | nil => exact hbrace (List.head_eq_of_cons_eq h).symm
  | cons b u =>
      have hsplit : body = u ++ c :: '{' :: body' := List.tail_eq_of_cons_eq h
      rw [hsplit, scan_append] at hscan
      obtain ⟨place, _, hrest⟩ := Option.bind_eq_some_iff.mp hscan
      have hinside : place ≠ .outside → scan .inText body' = some .outside := by
        intro hplace
        cases place with
        | outside => exact absurd rfl hplace
        | inText => simpa [scan, Place.next, hquote, hback] using hrest
        | escaped => simpa [scan, Place.next] using hrest
      by_cases hplace : place = .outside
      · rw [hplace] at hrest
        simp [scan, Place.next, hquote, hback, hbrace] at hrest
      · rcases scan_apart hscan' (hinside hplace) with ⟨_, h'⟩ | ⟨h', _⟩ <;> cases h'

/-- Behind any text and a separator an object is read back. -/
theorem separator_inj {members members' : List (Member φ)} {c : Char} {u v : List Char}
    (hc : isBare c = true)
    (h : u ++ c :: objectText floats members = v ++ c :: objectText floats members') :
    u = v ∧ members = members' := by
  rcases List.append_eq_append_iff.mp h with ⟨w, hw, hrest⟩ | ⟨w, hw, hrest⟩
  · cases w with
    | nil =>
        rw [List.append_nil] at hw
        exact ⟨hw.symm, objectText_injective (List.tail_eq_of_cons_eq hrest)⟩
    | cons b w => exact absurd (List.tail_eq_of_cons_eq hrest) (objectText_ne_append hc)
  · cases w with
    | nil =>
        rw [List.append_nil] at hw
        exact ⟨hw, (objectText_injective (List.tail_eq_of_cons_eq hrest)).symm⟩
    | cons b w => exact absurd (List.tail_eq_of_cons_eq hrest) (objectText_ne_append hc)

end Separators

end JsonText
end Northwind
