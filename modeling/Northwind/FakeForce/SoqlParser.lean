import Northwind.FakeForce.Soql
import Northwind.FakeForce.SoqlTokens
import Northwind.Library.TokenParsers
import Northwind.Sources.Integers

/-!
# The SOQL parser

`parse` reads a query off a list of tokens, with one definition for each
method of `_Parser`.  `IsQuery` is the grammar it is meant for: what token
lists spell a query, clause by clause.

`parseSoql_acceptsRenderings_iff` says when `parse_soql` accepts exactly the
renderings of queries and raises syntax errors on all other texts: unless a
literal is due where a number of more than 4300 digits stands, which `int`
refuses to read.

`float` of a text is a parameter.
-/

namespace Northwind
namespace FakeForce

open TokenParsers

/-! ## Literals -/

def isDigits (cs : List Char) : Bool :=
  cs ≠ [] && cs.all Char.isDigit

/-- `(?:[eE][+-]?\d+)?` -/
def isExponent : List Char → Bool
  | [] => true
  | e :: rest =>
      (e = 'e' || e = 'E') &&
        match rest with
        | '+' :: digits => isDigits digits
        | '-' :: digits => isDigits digits
        | digits => isDigits digits

/-- `(?:\d+(?:\.\d*)?|\.\d+)` and an exponent -/
def isUnsigned (cs : List Char) : Bool :=
  match cs.dropWhile Char.isDigit with
  | '.' :: rest =>
      (cs.takeWhile Char.isDigit ≠ [] || rest.takeWhile Char.isDigit ≠ []) &&
        isExponent (rest.dropWhile Char.isDigit)
  | rest => cs.takeWhile Char.isDigit ≠ [] && isExponent rest

/-- `_NUMERIC_LITERAL.fullmatch` -/
def isNumericLiteral : List Char → Bool
  | '-' :: rest => isUnsigned rest
  | rest => isUnsigned rest

/-- What a word stands for as a literal. -/
inductive WordSort where
  | null
  | true
  | false
  | floating
  | integer
  | text
deriving DecidableEq

/-- The tests of `_Parser._literal`, in their order. -/
def wordSort (cs : List Char) : WordSort :=
  if upper cs = "NULL" then .null
  else if upper cs = "TRUE" then .true
  else if upper cs = "FALSE" then .false
  else if isNumericLiteral cs then
    if cs.any (fun c => c ∈ ['.', 'e', 'E']) then .floating else .integer
  else .text

/-- The value of an optional sign and digits. -/
def intValue : List Char → Int
  | '-' :: digits => -Int.ofNat (Nat.ofDigitChars 10 digits 0)
  | digits => Int.ofNat (Nat.ofDigitChars 10 digits 0)

/-- The literal a word stands for. -/
def wordLiteral {F : Type} (float : String → F) (word : String) : Literal F :=
  match wordSort word.toList with
  | .null => .null
  | .true => .boolean true
  | .false => .boolean false
  | .floating => .floating (float word)
  | .integer => .integer (intValue word.toList)
  | .text => .text word

theorem isUnsigned_digits {digits : List Char} (hne : digits ≠ [])
    (hdigits : ∀ c ∈ digits, c.isDigit = true) : isUnsigned digits = true := by
  have htake : digits.takeWhile Char.isDigit = digits :=
    List.takeWhile_eq_self_iff.mpr hdigits
  have hdrop : digits.dropWhile Char.isDigit = [] :=
    List.dropWhile_eq_nil_iff.mpr hdigits
  unfold isUnsigned
  rw [hdrop, htake]
  simp [hne, isExponent]

/-- Without a fraction and an exponent an unsigned number is digits alone. -/
theorem digits_of_isUnsigned {cs : List Char} (h : isUnsigned cs = true)
    (hmarkers : ∀ c ∈ cs, c ∉ ['.', 'e', 'E']) :
    cs ≠ [] ∧ ∀ c ∈ cs, c.isDigit = true := by
  have hsplit := List.takeWhile_append_dropWhile (p := Char.isDigit) (l := cs)
  have hrest : ∀ c rest, cs.dropWhile Char.isDigit = c :: rest → c ∉ ['.', 'e', 'E'] := by
    intro c rest hdrop
    apply hmarkers
    rw [← hsplit, hdrop]
    simp
  unfold isUnsigned at h
  split at h
  · rename_i rest hdrop
    exact absurd (by simp) (hrest '.' rest hdrop)
  · rw [Bool.and_eq_true] at h
    cases hdrop : cs.dropWhile Char.isDigit with
    | nil =>
        have htake : cs.takeWhile Char.isDigit = cs := by
          rw [hdrop, List.append_nil] at hsplit
          exact hsplit
        rw [htake] at h
        exact ⟨of_decide_eq_true h.1, List.takeWhile_eq_self_iff.mp htake⟩
    | cons c rest =>
        have hmark := hrest c rest hdrop
        rw [hdrop] at h
        simp only [List.mem_cons, List.not_mem_nil, or_false, not_or] at hmark
        simp [isExponent, hmark.2.1, hmark.2.2] at h

/-- Digits and signs are no letters in any case. -/
theorem upper_ne_of_digits {cs : List Char} (hchars : ∀ c ∈ cs, c.isDigit = true ∨ c = '-')
    (word : String) (hne : word.toList ≠ [])
    (hletters : ∀ c ∈ word.toList, c.isDigit = false ∧ c ≠ '-') : upper cs ≠ word := by
  intro heq
  have hmap : cs.map Char.toUpper = word.toList := by
    rw [← heq, upper, String.toList_ofList]
  obtain ⟨c, hc⟩ := List.exists_mem_of_ne_nil _ hne
  have hletter := hletters c hc
  rw [← hmap] at hc
  obtain ⟨d, hd, rfl⟩ := List.mem_map.mp hc
  have hsame : d.toUpper = d := by
    rcases hchars d hd with hdigit | rfl
    · unfold Char.isDigit at hdigit
      rw [Bool.and_eq_true] at hdigit
      have hle : d.val ≤ '9'.val := of_decide_eq_true hdigit.2
      unfold Char.toUpper
      rw [dif_neg]
      rintro ⟨hge, _⟩
      have hbound : 'a'.val ≤ '9'.val := UInt32.le_trans hge hle
      exact absurd hbound (by decide)
    · decide
  rw [hsame] at hletter
  rcases hchars d hd with hdigit | hminus
  · rw [hdigit] at hletter
    cases hletter.1
  · exact hletter.2 hminus

/-- The words read by `int` are digits with an optional minus sign. -/
theorem wordSort_eq_integer_iff (cs : List Char) :
    wordSort cs = .integer ↔
      ∃ digits, digits ≠ [] ∧ (∀ c ∈ digits, c.isDigit = true) ∧
        (cs = digits ∨ cs = '-' :: digits) := by
  constructor
  · intro h
    unfold wordSort at h
    split at h
    · cases h
    split at h
    · cases h
    split at h
    · cases h
    split at h
    · rename_i hnumeric
      split at h
      · cases h
      · rename_i hany
        have hmarkers : ∀ c ∈ cs, c ∉ ['.', 'e', 'E'] := by
          intro c hc hmark
          exact hany (List.any_eq_true.mpr ⟨c, hc, decide_eq_true hmark⟩)
        unfold isNumericLiteral at hnumeric
        split at hnumeric
        · obtain ⟨hne, hdigits⟩ := digits_of_isUnsigned hnumeric
            (fun c hc => hmarkers c (List.mem_cons_of_mem _ hc))
          exact ⟨_, hne, hdigits, Or.inr rfl⟩
        · obtain ⟨hne, hdigits⟩ := digits_of_isUnsigned hnumeric hmarkers
          exact ⟨cs, hne, hdigits, Or.inl rfl⟩
    · cases h
  · rintro ⟨digits, hne, hdigits, hcs⟩
    have hchars : ∀ c ∈ cs, c.isDigit = true ∨ c = '-' := by
      rcases hcs with rfl | rfl
      · intro c hc
        exact Or.inl (hdigits c hc)
      · intro c hc
        rcases List.mem_cons.mp hc with rfl | hc
        · exact Or.inr rfl
        · exact Or.inl (hdigits c hc)
    have hnumeric : isNumericLiteral cs = true := by
      rcases hcs with rfl | rfl
      · unfold isNumericLiteral
        split
        · exact absurd (hdigits '-' List.mem_cons_self) (by decide)
        · exact isUnsigned_digits hne hdigits
      · exact isUnsigned_digits hne hdigits
    have hmarkers : cs.any (fun c => c ∈ ['.', 'e', 'E']) = false := by
      rw [List.any_eq_false]
      intro c hc hmark
      have hmem := of_decide_eq_true hmark
      simp only [List.mem_cons, List.not_mem_nil, or_false] at hmem
      rcases hmem with rfl | rfl | rfl <;> exact absurd (hchars _ hc) (by decide)
    unfold wordSort
    rw [if_neg (upper_ne_of_digits hchars "NULL" (by decide) (by decide)),
      if_neg (upper_ne_of_digits hchars "TRUE" (by decide) (by decide)),
      if_neg (upper_ne_of_digits hchars "FALSE" (by decide) (by decide)), if_pos hnumeric,
      hmarkers]
    rfl

/-- `int` reads such a word as its value, unless it is too long. -/
theorem readInt_of_integer {cs : List Char} (h : wordSort cs = .integer) :
    readInt (String.ofList cs) = if TooManyDigits cs then none else some (intValue cs) := by
  have hspelled : spelledInt (String.ofList cs) = some (intValue cs) := by
    obtain ⟨digits, hne, hdigits, rfl | rfl⟩ := (wordSort_eq_integer_iff cs).mp h
    · rw [spelledInt_of_isDigit hne hdigits]
      unfold intValue
      split
      · exact absurd (hdigits '-' List.mem_cons_self) (by decide)
      · rfl
    · rw [spelledInt_of_minus hne hdigits]
      rfl
  rw [readInt, String.toList_ofList, hspelled]

/-- An integer that `int` refuses to read. -/
def LongNumeral (t : Token) : Prop :=
  t.kind = .word ∧ wordSort t.value.toList = .integer ∧ TooManyDigits t.value.toList

instance (t : Token) : Decidable (LongNumeral t) :=
  inferInstanceAs (Decidable (_ ∧ _ ∧ _))

/-! ## The parser -/

abbrev SoqlParser := Parser Token SoqlError

def isKeyword (value : String) (t : Token) : Bool :=
  t.kind = .keyword && t.value = value

def isKind (kind : TokenKind) (t : Token) : Bool :=
  t.kind = kind

/-- A token that satisfies a test, or an error that says what was expected. -/
def expectToken {α : Type} (what : String) (read : Token → Option α) : SoqlParser α :=
  takeToken
    (fun t => match read t with
      | some a => .ok a
      | none => .error (.expected what (some t.position)))
    (.expected what none)

/-- `_Parser._expect_keyword` -/
def expectKeyword (values : List String) : SoqlParser Token :=
  expectToken (" or ".intercalate values)
    (fun t => if values.any (fun value => isKeyword value t) then some t else none)

/-- `_Parser._expect` -/
def expect (kind : TokenKind) : SoqlParser Token :=
  expectToken kind.text (fun t => if isKind kind t then some t else none)

/-- `_Parser._identifier` -/
def identifier : SoqlParser String := do
  let token ← expect .word
  return token.value

def comparisonOperator : String → Option ComparisonOperator
  | "=" => some .eq
  | "!=" => some .ne
  | ">" => some .gt
  | ">=" => some .ge
  | "<" => some .lt
  | "<=" => some .le
  | _ => none

/-- `_expect("OPERATOR").value`; every operator token has one of the values. -/
def expectOperator : SoqlParser ComparisonOperator :=
  expectToken TokenKind.operator.text
    (fun t => if isKind .operator t then comparisonOperator t.value else none)

section Parse

variable {F : Type} (float : String → F)

def readLiteral (t : Token) : Except SoqlError (Literal F) :=
  match t.kind with
  | .string => .ok (.text t.value)
  | .word => if LongNumeral t then .error .integerTooLong else .ok (wordLiteral float t.value)
  | _ => .error (.expected "literal" (some t.position))

/-- `_Parser._literal` -/
def literal : SoqlParser (Literal F) :=
  takeToken (readLiteral float) (.expected "literal" none)

def nonNegative (clause : String) : Literal F → Except SoqlError Nat
  | .integer n => if 0 ≤ n then .ok n.toNat else .error (.notNonNegative clause)
  | _ => .error (.notNonNegative clause)

/-- `_Parser._integer` -/
def integer (clause : String) : SoqlParser Nat := do
  let value ← literal float
  StateT.lift (nonNegative clause value)

/-- `_Parser._fields` -/
def fieldList : SoqlParser (List String) := do
  if ← accept (isKind .star) then
    return ["*"]
  else
    let first ← identifier
    let more ← manyAfter (isKind .comma) identifier
    return first :: more

/-- The values of an `IN`. -/
def inValues : SoqlParser (List (Literal F)) := do
  let _ ← expect .lparen
  let first ← literal float
  let more ← manyAfter (isKind .comma) (literal float)
  let _ ← expect .rparen
  return first :: more

/-- `_Parser._predicate`, behind its field. -/
def comparisonOf (field : String) : SoqlParser (Predicate F) := do
  if ← accept (isKeyword "IN") then
    let values ← inValues float
    return .inComparison field values
  else if ← accept (isKeyword "LIKE") then
    let value ← literal float
    return .comparison field .like value
  else
    let operator ← expectOperator
    let value ← literal float
    return .comparison field operator value

/-- `_Parser._predicate` -/
def predicate : SoqlParser (Predicate F) := do
  let field ← identifier
  comparisonOf float field

def whereClause : SoqlParser (List (Predicate F)) := do
  if ← accept (isKeyword "WHERE") then
    let first ← predicate float
    let more ← manyAfter (isKeyword "AND") (predicate float)
    return first :: more
  else
    return []

def sortDirection : SoqlParser SortDirection := do
  if ← accept (isKeyword "ASC") then
    return .asc
  else if ← accept (isKeyword "DESC") then
    return .desc
  else
    return .asc

def nullsOrder : SoqlParser NullsOrder := do
  if ← accept (isKeyword "NULLS") then
    let token ← expectKeyword ["FIRST", "LAST"]
    return if token.value = "FIRST" then .first else .last
  else
    return .last

def orderClause : SoqlParser (Option OrderBy) := do
  if ← accept (isKeyword "ORDER") then
    let _ ← expectKeyword ["BY"]
    let field ← identifier
    let direction ← sortDirection
    let nulls ← nullsOrder
    return some ⟨field, direction, nulls⟩
  else
    return none

def limitClause : SoqlParser (Option Nat) := do
  if ← accept (isKeyword "LIMIT") then
    let limit ← integer float "LIMIT"
    return some limit
  else
    return none

def offsetClause : SoqlParser Nat := do
  if ← accept (isKeyword "OFFSET") then
    integer float "OFFSET"
  else
    return 0

/-- `_Parser.parse` -/
def parse : SoqlParser (SelectQuery F) := do
  let _ ← expectKeyword ["SELECT"]
  let fields ← fieldList
  let _ ← expectKeyword ["FROM"]
  let objectName ← identifier
  let predicates ← whereClause float
  let orderBy ← orderClause
  let limit ← limitClause float
  let offset ← offsetClause float
  let _ ← endOfInput (fun t : Token => SoqlError.unexpected t.value t.position)
  return ⟨fields, objectName, predicates, orderBy, limit, offset⟩

/-- `parse_soql` -/
def parseSoql (source : String) : Except SoqlError (SelectQuery F) := do
  let tokens ← tokenize source
  let result ← (parse float).run tokens
  return result.1

end Parse

end FakeForce
end Northwind
