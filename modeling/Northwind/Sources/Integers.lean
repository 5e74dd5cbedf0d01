import Mathlib.Data.List.DropRight
import Northwind.Sources.Numbers

/-!
# Integers read from text

`int(text)` reads the decimal digits of every script.  It strips the white space
around a number, takes one sign, allows single underscores between digits, and
refuses a text of more than 4300 digits.
-/

namespace Northwind

/-! ## Decimal digits -/

/-- The zeros of the scripts of Unicode 15.0; the other nine digits follow each. -/
def decimalZeros : List Nat :=
  [0x30, 0x660, 0x6f0, 0x7c0, 0x966, 0x9e6, 0xa66, 0xae6, 0xb66, 0xbe6, 0xc66, 0xce6, 0xd66,
   0xde6, 0xe50, 0xed0, 0xf20, 0x1040, 0x1090, 0x17e0, 0x1810, 0x1946, 0x19d0, 0x1a80, 0x1a90,
   0x1b50, 0x1bb0, 0x1c40, 0x1c50, 0xa620, 0xa8d0, 0xa900, 0xa9d0, 0xa9f0, 0xaa50, 0xabf0, 0xff10,
   0x104a0, 0x10d30, 0x11066, 0x110f0, 0x11136, 0x111d0, 0x112f0, 0x11450, 0x114d0, 0x11650,
   0x116c0, 0x11730, 0x118e0, 0x11950, 0x11c50, 0x11d50, 0x11da0, 0x11f50, 0x16a60, 0x16ac0,
   0x16b50, 0x1d7ce, 0x1d7d8, 0x1d7e2, 0x1d7ec, 0x1d7f6, 0x1e140, 0x1e2f0, 0x1e4f0, 0x1e950,
   0x1fbf0]

/-- `unicodedata.decimal` -/
def decimalValue (c : Char) : Option Nat :=
  (decimalZeros.find? fun start => start ≤ c.toNat ∧ c.toNat < start + 10).map
    fun start => c.toNat - start

def isDecimalDigit (c : Char) : Bool :=
  (decimalValue c).isSome

/-- `str.isdecimal` -/
def isDecimal (cs : List Char) : Bool :=
  !cs.isEmpty && cs.all isDecimalDigit

/-- The number that decimal digits spell. -/
def ofDecimals (cs : List Char) : Nat :=
  cs.foldl (fun value c => 10 * value + (decimalValue c).getD 0) 0

/-- The white space outside of ASCII. -/
def wideSpaces : List Nat :=
  [0x85, 0xa0, 0x1680, 0x2000, 0x2001, 0x2002, 0x2003, 0x2004, 0x2005, 0x2006, 0x2007, 0x2008,
   0x2009, 0x200a, 0x2028, 0x2029, 0x202f, 0x205f, 0x3000]

/-- The character that `int` reads in place of one outside of ASCII. -/
def asciiOf (c : Char) : Char :=
  if c.toNat < 127 then c
  else if c.toNat ∈ wideSpaces then ' '
  else (decimalValue c).elim '?' Nat.digitChar

/-! ## Reading -/

/-- The characters that `int` strips. -/
def isSpace (c : Char) : Bool :=
  c ∈ [' ', '\t', '\n', '\x0b', '\x0c', '\r']

def strip (cs : List Char) : List Char :=
  (cs.dropWhile isSpace).rdropWhile isSpace

/-- The digits that follow a digit. -/
def readDigits : Nat → List Char → Option Nat
  | value, [] => some value
  | value, '_' :: c :: rest =>
      if c.isDigit then readDigits (10 * value + (c.toNat - '0'.toNat)) rest else none
  | value, c :: rest =>
      if c.isDigit then readDigits (10 * value + (c.toNat - '0'.toNat)) rest else none

def readNatural : List Char → Option Nat
  | [] => none
  | c :: rest => if c.isDigit then readDigits (c.toNat - '0'.toNat) rest else none

/-- The integer that a text spells, however many digits it has. -/
def spelledInt (text : String) : Option Int :=
  match strip (text.toList.map asciiOf) with
  | '-' :: digits => (readNatural digits).map fun n => -Int.ofNat n
  | '+' :: digits => (readNatural digits).map Int.ofNat
  | digits => (readNatural digits).map Int.ofNat

/-- `sys.int_info.default_max_str_digits` -/
def intMaxStrDigits : Nat := 4300

/-- A text with more digits than `int` reads. -/
def TooManyDigits (cs : List Char) : Prop :=
  intMaxStrDigits < cs.countP isDecimalDigit

instance (cs : List Char) : Decidable (TooManyDigits cs) :=
  inferInstanceAs (Decidable (_ < _))

/-- `int(text)`; `none` is a `ValueError`. -/
def readInt (text : String) : Option Int :=
  if TooManyDigits text.toList then none else spelledInt text

theorem readDigits_of_isDigit {value : Nat} {cs : List Char}
    (h : ∀ c ∈ cs, c.isDigit = true) :
    readDigits value cs = some (Nat.ofDigitChars 10 cs value) := by
  induction cs generalizing value with
  | nil => rfl
  | cons c cs ih =>
      have hdigit := h c List.mem_cons_self
      have hunderscore : c ≠ '_' := by
        rintro rfl
        exact absurd hdigit (by decide)
      rw [readDigits, if_pos hdigit, ih fun c hc => h c (List.mem_cons_of_mem _ hc),
        Nat.ofDigitChars_cons]
      rintro c' rest rfl
      exact absurd rfl hunderscore

theorem strip_of_not_isSpace {cs : List Char} (h : ∀ c ∈ cs, isSpace c = false) :
    strip cs = cs := by
  have hdrop : cs.dropWhile isSpace = cs := by
    cases cs with
    | nil => rfl
    | cons c cs => rw [List.dropWhile_cons_of_neg (by simp [h c List.mem_cons_self])]
  rw [strip, hdrop, List.rdropWhile_eq_self_iff]
  intro hne hspaceLast
  rw [h _ (List.getLast_mem hne)] at hspaceLast
  cases hspaceLast

theorem not_isSpace_of_isDigit {c : Char} (hdigit : c.isDigit = true) : isSpace c = false := by
  rw [isSpace, decide_eq_false_iff_not]
  intro hmem
  simp only [List.mem_cons, List.not_mem_nil, or_false] at hmem
  rcases hmem with rfl | rfl | rfl | rfl | rfl | rfl <;> exact absurd hdigit (by decide)

theorem readNatural_of_isDigit {cs : List Char} (hne : cs ≠ [])
    (h : ∀ c ∈ cs, c.isDigit = true) :
    readNatural cs = some (Nat.ofDigitChars 10 cs 0) := by
  cases cs with
  | nil => exact absurd rfl hne
  | cons c cs =>
      rw [readNatural, if_pos (h c List.mem_cons_self),
        readDigits_of_isDigit fun c hc => h c (List.mem_cons_of_mem _ hc),
        Nat.ofDigitChars_cons, Nat.mul_zero, Nat.zero_add]

/-- ASCII characters are read as they are. -/
theorem asciiOf_of_lt {c : Char} (h : c.toNat < 127) : asciiOf c = c := by
  rw [asciiOf, if_pos h]

theorem asciiOf_of_isDigit {c : Char} (hdigit : c.isDigit = true) : asciiOf c = c := by
  obtain ⟨_, hnine⟩ := Char.isDigit_iff_toNat.mp hdigit
  exact asciiOf_of_lt (Nat.lt_of_le_of_lt hnine (by decide))

theorem map_asciiOf_of_isDigit {cs : List Char} (h : ∀ c ∈ cs, c.isDigit = true) :
    cs.map asciiOf = cs := by
  rw [List.map_congr_left fun c hc => asciiOf_of_isDigit (h c hc), List.map_id']

/-- The number of ASCII digits after a sign or none, whatever script they came from. -/
theorem spelledInt_of_map_isDigit {cs : List Char} (hne : cs ≠ [])
    (h : ∀ c ∈ cs.map asciiOf, c.isDigit = true) :
    spelledInt (String.ofList cs) = some (Nat.ofDigitChars 10 (cs.map asciiOf) 0 : Int) := by
  have hne' : cs.map asciiOf ≠ [] := by simpa using hne
  rw [spelledInt, String.toList_ofList,
    strip_of_not_isSpace fun c hc => not_isSpace_of_isDigit (h c hc)]
  generalize cs.map asciiOf = digits at h hne'
  split
  · exact absurd (h '-' List.mem_cons_self) (by decide)
  · exact absurd (h '+' List.mem_cons_self) (by decide)
  · rw [readNatural_of_isDigit hne' h]
    rfl

/-- A text of digits is read as their value. -/
theorem spelledInt_of_isDigit {cs : List Char} (hne : cs ≠ [])
    (h : ∀ c ∈ cs, c.isDigit = true) :
    spelledInt (String.ofList cs) = some (Nat.ofDigitChars 10 cs 0 : Int) := by
  have hmap := map_asciiOf_of_isDigit h
  rw [spelledInt_of_map_isDigit hne (by rwa [hmap]), hmap]

/-- A minus sign before digits. -/
theorem spelledInt_of_minus {cs : List Char} (hne : cs ≠ [])
    (h : ∀ c ∈ cs, c.isDigit = true) :
    spelledInt (String.ofList ('-' :: cs)) = some (-(Nat.ofDigitChars 10 cs 0 : Int)) := by
  have hspace : ∀ c ∈ '-' :: cs, isSpace c = false := by
    intro c hc
    rcases List.mem_cons.mp hc with rfl | hc
    · decide
    · exact not_isSpace_of_isDigit (h c hc)
  have hmap : ('-' :: cs).map asciiOf = '-' :: cs := by
    rw [List.map_cons, asciiOf_of_lt (by decide), map_asciiOf_of_isDigit h]
  rw [spelledInt, String.toList_ofList, hmap, strip_of_not_isSpace hspace]
  change (readNatural cs).map _ = _
  rw [readNatural_of_isDigit hne h]
  rfl

/-- `int(str(n)) == n` -/
theorem spelledInt_toDigits (n : Nat) :
    spelledInt (String.ofList (Nat.toDigits 10 n)) = some (n : Int) := by
  have hdigits : ∀ c ∈ Nat.toDigits 10 n, c.isDigit = true := fun c hc =>
    Nat.isDigit_of_mem_toDigits (by decide) (by decide) hc
  have hvalue := Nat.ofDigitChars_ten_toDigits (n := n)
  rw [spelledInt_of_isDigit (by simp) hdigits, hvalue]

/-! ## Digits of every script -/

theorem exists_start_of_decimalValue {c : Char} {digit : Nat}
    (h : decimalValue c = some digit) :
    ∃ start ∈ decimalZeros, c.toNat = start + digit ∧ digit < 10 := by
  obtain ⟨start, hfound, rfl⟩ := Option.map_eq_some_iff.mp h
  have hrange := List.find?_some hfound
  simp only [decide_eq_true_eq] at hrange
  exact ⟨start, List.mem_of_find?_eq_some hfound, by omega, by omega⟩

theorem decimalValue_of_isDigit {c : Char} (hdigit : c.isDigit = true) :
    decimalValue c = some (c.toNat - '0'.toNat) := by
  obtain ⟨hzero, hnine⟩ := Char.isDigit_iff_toNat.mp hdigit
  have h0 : '0'.toNat = 0x30 := rfl
  have h9 : '9'.toNat = 0x39 := rfl
  rw [decimalValue, decimalZeros, List.find?_cons_of_pos (by simp only [decide_eq_true_eq]; omega)]
  rfl

theorem isDecimalDigit_of_isDigit {c : Char} (hdigit : c.isDigit = true) :
    isDecimalDigit c = true := by
  rw [isDecimalDigit, decimalValue_of_isDigit hdigit]
  rfl

/-- No digit is white space, and in ASCII there are no others than the ten. -/
theorem decimalZeros_apart :
    ∀ start ∈ decimalZeros, (start < 127 → start = 0x30) ∧
      ∀ space ∈ wideSpaces, space < start ∨ start + 10 ≤ space := by
  decide

theorem ofNat_eq_digitChar : ∀ digit < 10, Char.ofNat (0x30 + digit) = Nat.digitChar digit := by
  decide

/-- A digit of any script is read as the ASCII digit of its value. -/
theorem asciiOf_of_decimalValue {c : Char} {digit : Nat} (h : decimalValue c = some digit) :
    asciiOf c = Nat.digitChar digit := by
  obtain ⟨start, hstart, hvalue, hten⟩ := exists_start_of_decimalValue h
  obtain ⟨hascii, hspaces⟩ := decimalZeros_apart start hstart
  by_cases hlt : c.toNat < 127
  · rw [hascii (by omega)] at hvalue
    rw [asciiOf_of_lt hlt, ← Char.ofNat_toNat c, hvalue]
    exact ofNat_eq_digitChar digit hten
  · have hspace : c.toNat ∉ wideSpaces := by
      intro hmem
      have hapart := hspaces _ hmem
      omega
    rw [asciiOf, if_neg hlt, if_neg hspace, h, Option.elim_some]

theorem isDigit_asciiOf {c : Char} (h : isDecimalDigit c = true) :
    (asciiOf c).isDigit = true := by
  obtain ⟨digit, hvalue⟩ := Option.isSome_iff_exists.mp h
  obtain ⟨_, _, _, hten⟩ := exists_start_of_decimalValue hvalue
  rw [asciiOf_of_decimalValue hvalue, Nat.isDigit_digitChar, decide_eq_true hten]

theorem ofDigitChars_map_asciiOf {cs : List Char} (h : ∀ c ∈ cs, isDecimalDigit c = true)
    (value : Nat) :
    Nat.ofDigitChars 10 (cs.map asciiOf) value =
      cs.foldl (fun value c => 10 * value + (decimalValue c).getD 0) value := by
  induction cs generalizing value with
  | nil => rfl
  | cons c cs ih =>
      obtain ⟨digit, hvalue⟩ := Option.isSome_iff_exists.mp (h c List.mem_cons_self)
      obtain ⟨_, _, _, hten⟩ := exists_start_of_decimalValue hvalue
      rw [List.map_cons, asciiOf_of_decimalValue hvalue,
        Nat.ofDigitChars_cons_digitChar_of_lt_ten hten,
        ih (fun c hc => h c (List.mem_cons_of_mem _ hc)), List.foldl_cons, hvalue,
        Option.getD_some]

/-- Decimal digits of any script are read as the number they spell, up to the limit. -/
theorem readInt_of_isDecimal {cs : List Char} (h : isDecimal cs = true) :
    readInt (String.ofList cs) =
      if intMaxStrDigits < cs.length then none else some (ofDecimals cs : Int) := by
  simp only [isDecimal, Bool.and_eq_true, Bool.not_eq_true', List.isEmpty_eq_false_iff,
    List.all_eq_true] at h
  obtain ⟨hne, hdigits⟩ := h
  have hascii : ∀ c ∈ cs.map asciiOf, c.isDigit = true := by
    intro c hc
    obtain ⟨d, hd, rfl⟩ := List.mem_map.mp hc
    exact isDigit_asciiOf (hdigits d hd)
  simp only [readInt, TooManyDigits, String.toList_ofList, List.countP_eq_length.mpr hdigits]
  rw [spelledInt_of_map_isDigit hne hascii, ofDigitChars_map_asciiOf hdigits]
  rfl

theorem isDecimal_of_isDigit {cs : List Char} (hne : cs ≠ [])
    (h : ∀ c ∈ cs, c.isDigit = true) : isDecimal cs = true := by
  simp only [isDecimal, Bool.and_eq_true, Bool.not_eq_true', List.isEmpty_eq_false_iff,
    List.all_eq_true]
  exact ⟨hne, fun c hc => isDecimalDigit_of_isDigit (h c hc)⟩

/-- ASCII digits spell the number they are written for. -/
theorem ofDecimals_toDigits (n : Nat) : ofDecimals (Nat.toDigits 10 n) = n := by
  have hdigits : ∀ c ∈ Nat.toDigits 10 n, c.isDigit = true := fun c hc =>
    Nat.isDigit_of_mem_toDigits (by decide) (by decide) hc
  rw [ofDecimals, ← ofDigitChars_map_asciiOf fun c hc => isDecimalDigit_of_isDigit (hdigits c hc),
    map_asciiOf_of_isDigit hdigits]
  exact Nat.ofDigitChars_ten_toDigits

/-- Zeros spell zero. -/
theorem ofDecimals_replicate_zero (n : Nat) : ofDecimals (List.replicate n '0') = 0 := by
  rw [ofDecimals]
  induction n with
  | zero => rfl
  | succ n ih => exact ih

/-! ## Integers padded with zeros -/

/-- `f"{n:0{width}d}"` of an integer; the sign counts. -/
def zeroPaddedInt (width : Nat) : Int → String
  | .ofNat n => zeroPadded width n
  | .negSucc n => "-" ++ zeroPadded (width - 1) (n + 1)

theorem isDigit_of_mem_zeroPadded {width n : Nat} {c : Char}
    (hc : c ∈ List.leftpad width '0' (Nat.toDigits 10 n)) : c.isDigit = true := by
  rcases List.mem_append.mp hc with hzero | hdigit
  · rw [List.eq_of_mem_replicate hzero]
    decide
  · exact Nat.isDigit_of_mem_toDigits (by decide) (by decide) hdigit

theorem ofDigitChars_leftpad (width n : Nat) :
    Nat.ofDigitChars 10 (List.leftpad width '0' (Nat.toDigits 10 n)) 0 = n := by
  rw [List.leftpad, ofDigitChars_zeros]
  exact Nat.ofDigitChars_ten_toDigits

/-- Leading zeros do not change the number. -/
theorem spelledInt_zeroPaddedInt (width : Nat) (n : Int) :
    spelledInt (zeroPaddedInt width n) = some n := by
  have hne : ∀ w m, List.leftpad w '0' (Nat.toDigits 10 m) ≠ [] := fun w m => by
    simp [List.leftpad]
  cases n with
  | ofNat n =>
      rw [zeroPaddedInt, zeroPadded,
        spelledInt_of_isDigit (hne width n) (fun c hc => isDigit_of_mem_zeroPadded hc),
        ofDigitChars_leftpad]
      rfl
  | negSucc n =>
      have htext : "-" ++ zeroPadded (width - 1) (n + 1) =
          String.ofList ('-' :: List.leftpad (width - 1) '0' (Nat.toDigits 10 (n + 1))) := by
        rw [zeroPadded, ← String.toList_inj]
        simp [String.toList_append]
      rw [zeroPaddedInt, htext,
        spelledInt_of_minus (hne _ _) (fun c hc => isDigit_of_mem_zeroPadded hc),
        ofDigitChars_leftpad]
      rfl

theorem zeroPaddedInt_injective (width : Nat) : Function.Injective (zeroPaddedInt width) := by
  intro m n h
  have hread := congrArg spelledInt h
  rw [spelledInt_zeroPaddedInt, spelledInt_zeroPaddedInt] at hread
  exact Option.some.inj hread

end Northwind
