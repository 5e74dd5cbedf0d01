import Northwind.Library.Texts

/-!
# The tokens of a SOQL text

`tokenize` cuts a text into strings, punctuation, operators, keywords and
words.  `Written` says what it means for a text to consist of given tokens, at
their positions: white space may stand anywhere between tokens, and has to
stand between two that would otherwise run into each other.

`tokenize_eq_ok_iff` says that the tokenizer finds exactly the tokens a text is
written with.  Characters are classified as Python does for ASCII text.
-/

namespace Northwind
namespace FakeForce

inductive TokenKind where
  | string
  | comma
  | lparen
  | rparen
  | star
  | operator
  | keyword
  | word
deriving DecidableEq

/-- The name of the kind in an error. -/
def TokenKind.text : TokenKind → String
  | .string => "STRING"
  | .comma => "COMMA"
  | .lparen => "LPAREN"
  | .rparen => "RPAREN"
  | .star => "STAR"
  | .operator => "OPERATOR"
  | .keyword => "KEYWORD"
  | .word => "WORD"

/-- `_Token` -/
structure Token where
  kind : TokenKind
  value : String
  position : Nat
deriving DecidableEq

/-- What `parse_soql` raises: a `SoqlSyntaxError`, save for the `ValueError` of
`int` on a text of too many digits. -/
inductive SoqlError where
  | unterminatedString (position : Nat)
  | invalidOperator (operator : String) (position : Nat)
  | unexpectedCharacter (char : Char) (position : Nat)
  | unexpected (value : String) (position : Nat)
  | expected (what : String) (position : Option Nat)
  | notNonNegative (clause : String)
  | integerTooLong
deriving DecidableEq

def SoqlError.isSyntaxError : SoqlError → Bool
  | integerTooLong => false
  | _ => true

/-- Where a token was expected. -/
def placeText : Option Nat → String
  | some position => "position " ++ toString position
  | none => "end of query"

/-- The texts of the errors, over `repr` of a string. -/
def SoqlError.message (repr : String → String) : SoqlError → String
  | unterminatedString position => "unterminated string at position " ++ toString position
  | invalidOperator operator position =>
      "invalid operator " ++ repr operator ++ " at position " ++ toString position
  | unexpectedCharacter char position =>
      "unexpected character " ++ repr (String.singleton char) ++ " at position " ++
        toString position
  | unexpected value position =>
      "unexpected " ++ repr value ++ " at position " ++ toString position
  | expected what position => "expected " ++ what ++ " at " ++ placeText position
  | notNonNegative clause => clause ++ " requires a non-negative integer"
  | integerTooLong => "Exceeds the limit (4300 digits) for integer string conversion"

/-- `_KEYWORDS` -/
def keywords : List String :=
  ["SELECT", "FROM", "WHERE", "AND", "IN", "LIKE", "ORDER", "BY", "ASC", "DESC", "NULLS",
    "FIRST", "LAST", "LIMIT", "OFFSET"]

/-- `_PUNCTUATION` -/
def punctuation : Char → Option TokenKind
  | ',' => some .comma
  | '(' => some .lparen
  | ')' => some .rparen
  | '*' => some .star
  | _ => none

/-- `str.isspace` of one ASCII character. -/
def isspace (c : Char) : Bool :=
  c ∈ [' ', '\t', '\n', '\x0b', '\x0c', '\r', '\x1c', '\x1d', '\x1e', '\x1f']

def startsOperator (c : Char) : Bool :=
  c ∈ ['<', '>', '=', '!']

def operators : List String :=
  ["=", "!=", ">", ">=", "<", "<="]

/-- A character that no word contains. -/
def endsWord (c : Char) : Bool :=
  isspace c || c ∈ ['\'', ',', '(', ')', '*', '<', '>', '=', '!']

/-- `str.upper` of ASCII text. -/
def upper (cs : List Char) : String :=
  String.ofList (cs.map Char.toUpper)

/-- The value of a string and what follows its closing quote. -/
def scanString : List Char → Option (List Char × List Char)
  | [] => none
  | '\'' :: '\'' :: rest => (scanString rest).map (fun r => ('\'' :: r.1, r.2))
  | '\'' :: rest => some ([], rest)
  | c :: rest => (scanString rest).map (fun r => (c :: r.1, r.2))

/-- An operator and what follows it. -/
def scanOperator (c : Char) : List Char → List Char × List Char
  | '=' :: rest => ([c, '='], rest)
  | rest => ([c], rest)

/-- A keyword in upper case, or a word as it stands. -/
def wordToken (text : List Char) (position : Nat) : Token :=
  if upper text ∈ keywords then ⟨.keyword, upper text, position⟩
  else ⟨.word, String.ofList text, position⟩

/-- One turn of the loop of `tokenize` on a character that is no white space. -/
def nextToken (position : Nat) (c : Char) (rest : List Char) :
    Except SoqlError (Token × List Char) :=
  if c = '\'' then
    match scanString rest with
    | some (value, rest') => .ok (⟨.string, String.ofList value, position⟩, rest')
    | none => .error (.unterminatedString position)
  else
    match punctuation c with
    | some kind => .ok (⟨kind, String.singleton c, position⟩, rest)
    | none =>
        if startsOperator c then
          let operator := String.ofList (scanOperator c rest).1
          if operator ∈ operators then
            .ok (⟨.operator, operator, position⟩, (scanOperator c rest).2)
          else .error (.invalidOperator operator position)
        else
          let value := (c :: rest).takeWhile (fun d => !endsWord d)
          if value = [] then .error (.unexpectedCharacter c position)
          else .ok (wordToken value position, (c :: rest).dropWhile (fun d => !endsWord d))

theorem length_of_scanString {cs value rest : List Char} (h : scanString cs = some (value, rest)) :
    rest.length < cs.length := by
  fun_induction scanString cs generalizing value rest with
  | case1 => cases h
  | case2 cs ih =>
      obtain ⟨⟨value', rest'⟩, hscan, heq⟩ := Option.map_eq_some_iff.mp h
      cases heq
      have := ih hscan
      simp only [List.length_cons]
      omega
  | case3 cs _ =>
      cases h
      simp
  | case4 c cs _ _ ih =>
      obtain ⟨⟨value', rest'⟩, hscan, heq⟩ := Option.map_eq_some_iff.mp h
      cases heq
      have := ih hscan
      simp only [List.length_cons]
      omega

theorem length_scanOperator (c : Char) (rest : List Char) :
    (scanOperator c rest).2.length ≤ rest.length := by
  unfold scanOperator
  split
  · simp
  · exact le_rfl

/-- A turn of the loop consumes at least its first character. -/
theorem length_of_nextToken {position : Nat} {c : Char} {rest rest' : List Char} {t : Token}
    (h : nextToken position c rest = .ok (t, rest')) : rest'.length < (c :: rest).length := by
  unfold nextToken at h
  split at h
  · split at h
    · rename_i hscan
      cases h
      have := length_of_scanString hscan
      simp only [List.length_cons]
      omega
    · cases h
  · split at h
    · cases h
      simp
    · split at h
      · simp only at h
        split at h
        · cases h
          have := length_scanOperator c rest
          simp only [List.length_cons]
          omega
        · cases h
      · simp only at h
        split at h
        · cases h
        · rename_i hvalue
          cases h
          have hlength := congrArg List.length
            (List.takeWhile_append_dropWhile (p := fun d => !endsWord d) (l := c :: rest))
          rw [List.length_append] at hlength
          have hpos := List.length_pos_iff.mpr hvalue
          omega

/-- The loop of `tokenize`, at a position of the text. -/
def tokenizeFrom (position : Nat) (cs : List Char) : Except SoqlError (List Token) :=
  match cs with
  | [] => .ok []
  | c :: rest =>
      if isspace c then tokenizeFrom (position + 1) rest
      else
        match h : nextToken position c rest with
        | .error e => .error e
        | .ok (t, rest') =>
            have := length_of_nextToken h
            (tokenizeFrom (position + ((c :: rest).length - rest'.length)) rest').map
              (fun tokens => t :: tokens)
termination_by cs.length
decreasing_by
  · exact Nat.lt_succ_self rest.length
  · exact this

/-- `tokenize` -/
def tokenize (source : String) : Except SoqlError (List Token) :=
  tokenizeFrom 0 source.toList

/-! ## How tokens are written -/

/-- The inside of a string: a quote is written twice. -/
def doubled (value : List Char) : List Char :=
  value.flatMap (fun c => if c = '\'' then ['\'', '\''] else [c])

/-- The texts of a token. -/
inductive Spelling : Token → List Char → Prop
  | string (value : List Char) (n : Nat) :
      Spelling ⟨.string, String.ofList value, n⟩ ('\'' :: (doubled value ++ ['\'']))
  | punctuation {c : Char} {kind : TokenKind} (h : punctuation c = some kind) (n : Nat) :
      Spelling ⟨kind, String.singleton c, n⟩ [c]
  | operator {op : String} (h : op ∈ operators) (n : Nat) :
      Spelling ⟨.operator, op, n⟩ op.toList
  | keyword {text : List Char} (h : upper text ∈ keywords) (n : Nat) :
      Spelling ⟨.keyword, upper text, n⟩ text
  | word {text : List Char} (hne : text ≠ []) (hchars : ∀ c ∈ text, endsWord c = false)
      (h : upper text ∉ keywords) (n : Nat) :
      Spelling ⟨.word, String.ofList text, n⟩ text

def Token.isWord (t : Token) : Bool :=
  t.kind = .word || t.kind = .keyword

/-- Two tokens that would be read as something else without white space. -/
def RunsInto (t t' : Token) : Prop :=
  (t.isWord = true ∧ t'.isWord = true) ∨ (t.kind = .string ∧ t'.kind = .string) ∨
    (t.kind = .operator ∧ t.value ∈ ["=", "<", ">"] ∧ t'.kind = .operator ∧ t'.value = "=")

/-- A text consists of tokens, from a position on. -/
inductive Written : Nat → List Char → List Token → Prop
  | nil {n : Nat} {space : List Char} (hspace : ∀ c ∈ space, isspace c = true) :
      Written n space []
  | cons {n : Nat} {space text rest : List Char} {t : Token} {ts : List Token}
      (hspace : ∀ c ∈ space, isspace c = true) (htext : Spelling t text)
      (hposition : t.position = n + space.length)
      (hrest : Written (n + (space.length + text.length)) rest ts)
      (hgap : ∀ t' ∈ ts.head?, RunsInto t t' → ∃ c ∈ rest.head?, isspace c = true) :
      Written n (space ++ (text ++ rest)) (t :: ts)

/-- A token goes on with the character when it is read. -/
def Token.runsOn (t : Token) (c : Char) : Bool :=
  match t.kind with
  | .string => c = '\''
  | .operator => t.value ∈ ["=", "<", ">"] && c = '='
  | .keyword => !endsWord c
  | .word => !endsWord c
  | _ => false

theorem scanString_eq_some_iff (cs value rest : List Char) :
    scanString cs = some (value, rest) ↔
      cs = doubled value ++ '\'' :: rest ∧ rest.head? ≠ some '\'' := by
  constructor
  · intro h
    fun_induction scanString cs generalizing value with
    | case1 => cases h
    | case2 cs ih =>
        obtain ⟨⟨value', rest'⟩, hscan, heq⟩ := Option.map_eq_some_iff.mp h
        cases heq
        obtain ⟨rfl, hhead⟩ := ih _ hscan
        exact ⟨rfl, hhead⟩
    | case3 cs hquote =>
        cases h
        refine ⟨rfl, ?_⟩
        intro hhead
        obtain ⟨tail, rfl⟩ := List.head?_eq_some_iff.mp hhead
        exact hquote tail rfl
    | case4 c cs _ hquote ih =>
        obtain ⟨⟨value', rest'⟩, hscan, heq⟩ := Option.map_eq_some_iff.mp h
        cases heq
        obtain ⟨rfl, hhead⟩ := ih _ hscan
        refine ⟨?_, hhead⟩
        have hne : c ≠ '\'' := by
          rintro rfl
          exact hquote rfl
        simp [doubled, hne]
  · rintro ⟨rfl, hhead⟩
    induction value with
    | nil =>
        change scanString ('\'' :: rest) = _
        cases rest with
        | nil => rfl
        | cons d rest =>
            have hne : d ≠ '\'' := by
              rintro rfl
              exact hhead rfl
            rw [scanString]
            intro tail heq
            cases heq
            exact hne rfl
    | cons c value ih =>
        by_cases hquote : c = '\''
        · subst hquote
          change scanString ('\'' :: '\'' :: (doubled value ++ '\'' :: rest)) = _
          rw [scanString, ih]
          rfl
        · have hdoubled : doubled (c :: value) = c :: doubled value := by
            simp [doubled, hquote]
          rw [hdoubled, List.cons_append, scanString, ih]
          · rfl
          · intro tail heq _
            exact hquote heq
          · intro heq
            exact hquote heq

/-- A character inside a word is nothing else. -/
theorem not_endsWord {c : Char} (h : endsWord c = false) :
    isspace c = false ∧ c ≠ '\'' ∧ punctuation c = none ∧ startsOperator c = false := by
  unfold endsWord at h
  rw [Bool.or_eq_false_iff] at h
  obtain ⟨hspace, hother⟩ := h
  have hne := of_decide_eq_false hother
  simp only [List.mem_cons, List.not_mem_nil, or_false, not_or] at hne
  refine ⟨hspace, hne.1, ?_, ?_⟩
  · unfold punctuation
    split <;> simp_all
  · unfold startsOperator
    simp only [List.mem_cons, List.not_mem_nil, or_false, decide_eq_false_iff_not, not_or]
    tauto

/-- What holds of the characters that end a word. -/
theorem of_endsWord {c : Char} (h : endsWord c = true) (P : Char → Prop)
    (hall : ∀ d ∈ [' ', '\t', '\n', '\x0b', '\x0c', '\r', '\x1c', '\x1d', '\x1e', '\x1f',
      '\'', ',', '(', ')', '*', '<', '>', '=', '!'], P d) : P c := by
  apply hall
  unfold endsWord isspace at h
  rw [Bool.or_eq_true] at h
  rcases h with h | h
  · exact List.mem_append_left _ (of_decide_eq_true h)
  · exact List.mem_append_right
      [' ', '\t', '\n', '\x0b', '\x0c', '\r', '\x1c', '\x1d', '\x1e', '\x1f']
      (of_decide_eq_true h)

/-- Letters alone change by `upper`, so a keyword has no other character. -/
theorem not_endsWord_of_keyword {text : List Char} (h : upper text ∈ keywords) :
    text ≠ [] ∧ ∀ c ∈ text, endsWord c = false := by
  have hletters : ∀ k ∈ keywords, k.toList ≠ [] ∧ ∀ c ∈ k.toList, endsWord c = false := by
    decide
  obtain ⟨hne, hchars⟩ := hletters _ h
  rw [upper, String.toList_ofList] at hne hchars
  refine ⟨by simpa using hne, ?_⟩
  intro c hc
  have hupper := hchars _ (List.mem_map_of_mem hc)
  by_contra hends
  rw [Bool.not_eq_false] at hends
  have hsame : c.toUpper = c :=
    of_endsWord hends (fun d => d.toUpper = d) (by decide)
  rw [hsame, hends] at hupper
  cases hupper

/-- A word is taken up to the first character that ends it. -/
theorem span_word {text rest : List Char} (hchars : ∀ c ∈ text, endsWord c = false)
    (hrest : ∀ c ∈ rest.head?, endsWord c = true) :
    (text ++ rest).takeWhile (fun c => !endsWord c) = text ∧
      (text ++ rest).dropWhile (fun c => !endsWord c) = rest := by
  induction text with
  | nil =>
      cases rest with
      | nil => exact ⟨rfl, rfl⟩
      | cons c rest =>
          have hc := hrest c rfl
          simp [hc]
  | cons c text ih =>
      obtain ⟨htake, hdrop⟩ := ih (fun c hc => hchars c (List.mem_cons_of_mem _ hc))
      have hc := hchars c List.mem_cons_self
      simp [hc, htake, hdrop]

theorem Spelling.ne_nil {t : Token} {text : List Char} (h : Spelling t text) : text ≠ [] := by
  cases h with
  | string value n => exact List.cons_ne_nil _ _
  | punctuation h n => exact List.cons_ne_nil _ _
  | operator h n =>
      have hne : ∀ op ∈ operators, op.toList ≠ [] := by decide
      exact hne _ h
  | keyword h n => exact (not_endsWord_of_keyword h).1
  | word hne hchars h n => exact hne

/-- The spelling of what `wordToken` makes of a text without an ending. -/
theorem spelling_wordToken {text : List Char} (hne : text ≠ [])
    (hchars : ∀ c ∈ text, endsWord c = false) (n : Nat) :
    Spelling (wordToken text n) text ∧ (wordToken text n).position = n ∧
      ∀ c, (wordToken text n).runsOn c = !endsWord c := by
  unfold wordToken
  split
  · rename_i hkeyword
    exact ⟨Spelling.keyword hkeyword n, rfl, fun _ => rfl⟩
  · rename_i hword
    exact ⟨Spelling.word hne hchars hword n, rfl, fun _ => rfl⟩

/-- Reading a word, keyword or not. -/
theorem nextToken_word {text rest' : List Char} {c : Char} {rest : List Char} {n : Nat}
    (hsplit : c :: rest = text ++ rest') (hne : text ≠ [])
    (hchars : ∀ d ∈ text, endsWord d = false) (hrest : ∀ d ∈ rest'.head?, endsWord d = true) :
    nextToken n c rest = .ok (wordToken text n, rest') := by
  have hc : endsWord c = false := by
    cases text with
    | nil => exact absurd rfl hne
    | cons d text =>
        cases hsplit
        exact hchars _ List.mem_cons_self
  obtain ⟨_, hquote, hpunctuation, hoperator⟩ := not_endsWord hc
  obtain ⟨htake, hdrop⟩ := span_word hchars hrest
  unfold nextToken
  rw [if_neg hquote, hpunctuation]
  simp only [hoperator, Bool.false_eq_true, if_false, hsplit, htake, hdrop, if_neg hne]

theorem scanOperator_cases (c : Char) (rest : List Char) :
    (∃ rest', rest = '=' :: rest' ∧ scanOperator c rest = ([c, '='], rest')) ∨
      ((∀ d ∈ rest.head?, d ≠ '=') ∧ scanOperator c rest = ([c], rest)) := by
  unfold scanOperator
  split
  · rename_i rest'
    exact Or.inl ⟨rest', rfl, rfl⟩
  · rename_i hne
    refine Or.inr ⟨?_, rfl⟩
    intro d hd heq
    subst heq
    obtain ⟨rest', rfl⟩ := List.head?_eq_some_iff.mp hd
    exact hne rest' rfl

/-- What the scan of an operator leaves does not go on with it. -/
theorem scanOperator_spec (c : Char) (rest : List Char) (n : Nat) :
    c :: rest = (scanOperator c rest).1 ++ (scanOperator c rest).2 ∧
      ∀ d ∈ (scanOperator c rest).2.head?,
        (Token.mk .operator (String.ofList (scanOperator c rest).1) n).runsOn d = false := by
  rcases scanOperator_cases c rest with ⟨rest', rfl, hscan⟩ | ⟨hne, hscan⟩
  · rw [hscan]
    refine ⟨rfl, ?_⟩
    intro d _
    have hlong : String.ofList [c, '='] ∉ ["=", "<", ">"] := by
      intro hmem
      simp only [List.mem_cons, List.not_mem_nil, or_false] at hmem
      rcases hmem with h | h | h <;>
        · have hlength := congrArg (fun s : String => s.toList.length) h
          simp at hlength
    simp only [Token.runsOn, hlong, decide_false, Bool.false_and]
  · rw [hscan]
    refine ⟨rfl, ?_⟩
    intro d hd
    simp only [Token.runsOn, hne d hd, decide_false, Bool.and_false]

/-- An operator takes an equals sign that follows it. -/
theorem nextToken_operator {op : String} {c : Char} {rest rest' : List Char} {n : Nat}
    (hop : op ∈ operators) (hsplit : c :: rest = op.toList ++ rest')
    (hrest : ∀ d ∈ rest'.head?, (Token.mk .operator op n).runsOn d = false) :
    nextToken n c rest = .ok (⟨.operator, op, n⟩, rest') := by
  have hscan : scanOperator c rest = (op.toList, rest') := by
    simp only [operators, List.mem_cons, List.not_mem_nil, or_false] at hop
    rcases hop with rfl | rfl | rfl | rfl | rfl | rfl <;> cases hsplit <;>
      first
      | rfl
      | rcases scanOperator_cases _ rest' with ⟨rest'', rfl, _⟩ | ⟨_, hscan⟩
        · exact absurd (hrest '=' rfl) (by simp [Token.runsOn])
        · exact hscan
  have hfirst : c ≠ '\'' ∧ punctuation c = none ∧ startsOperator c = true := by
    have hall : ∀ op ∈ operators, ∀ d ∈ op.toList.head?,
        d ≠ '\'' ∧ punctuation d = none ∧ startsOperator d = true := by
      decide
    apply hall op hop c
    cases hlist : op.toList with
    | nil => exact absurd hlist (Spelling.operator hop 0).ne_nil
    | cons d ds =>
        rw [hlist] at hsplit
        cases hsplit
        rfl
  obtain ⟨hquote, hpunctuation, hoperator⟩ := hfirst
  unfold nextToken
  rw [if_neg hquote, hpunctuation]
  simp only [hoperator, if_true, hscan, String.ofList_toList, hop]

/-- One turn reads the longest token that the text begins with. -/
theorem nextToken_eq_ok_iff {c : Char} (hspace : isspace c = false) (n : Nat)
    (rest rest' : List Char) (t : Token) :
    nextToken n c rest = .ok (t, rest') ↔
      ∃ text, c :: rest = text ++ rest' ∧ Spelling t text ∧ t.position = n ∧
        ∀ d ∈ rest'.head?, t.runsOn d = false := by
  constructor
  · intro h
    unfold nextToken at h
    split at h
    · rename_i hquote
      split at h
      · rename_i value rest'' hscan
        cases h
        obtain ⟨rfl, hhead⟩ := (scanString_eq_some_iff _ _ _).mp hscan
        subst hquote
        refine ⟨_, ?_, Spelling.string value n, rfl, ?_⟩
        · simp
        · intro d hd
          rw [Option.mem_def] at hd
          rw [hd] at hhead
          simpa [Token.runsOn] using hhead
      · cases h
    · rename_i hquote
      split at h
      · rename_i kind hkind
        cases h
        refine ⟨[c], rfl, Spelling.punctuation hkind n, rfl, ?_⟩
        intro d _
        unfold punctuation at hkind
        split at hkind <;> cases hkind <;> rfl
      · rename_i hpunctuation
        split at h
        · simp only at h
          split at h
          · rename_i hop
            cases h
            obtain ⟨hsplit, hrest⟩ := scanOperator_spec c rest n
            refine ⟨_, ?_, Spelling.operator hop n, rfl, hrest⟩
            rw [String.toList_ofList]
            exact hsplit
          · cases h
        · simp only at h
          split at h
          · cases h
          · rename_i hvalue
            cases h
            have hchars : ∀ d ∈ (c :: rest).takeWhile (fun d => !endsWord d),
                endsWord d = false := by
              intro d hd
              have hall := List.all_takeWhile (p := fun d => !endsWord d) (l := c :: rest)
              simpa using List.all_eq_true.mp hall d hd
            obtain ⟨hspelling, hposition, hruns⟩ := spelling_wordToken hvalue hchars n
            refine ⟨_, List.takeWhile_append_dropWhile.symm, hspelling, hposition, ?_⟩
            intro d hd
            have hnot := List.head?_dropWhile_not (fun d => !endsWord d) (c :: rest)
            rw [Option.mem_def.mp hd] at hnot
            rw [hruns d]
            exact hnot
  · rintro ⟨text, hsplit, hspelling, hposition, hrest⟩
    cases hspelling with
    | string value m =>
        cases hposition
        rw [List.cons_append, List.cons.injEq] at hsplit
        obtain ⟨rfl, rfl⟩ := hsplit
        have hhead : rest'.head? ≠ some '\'' := by
          intro hhead
          have := hrest '\'' hhead
          simp [Token.runsOn] at this
        unfold nextToken
        rw [if_pos rfl, List.append_assoc, List.singleton_append,
          (scanString_eq_some_iff _ value rest').mpr ⟨rfl, hhead⟩]
    | @punctuation d kind hkind m =>
        cases hposition
        cases hsplit
        have hquote : c ≠ '\'' := by
          rintro rfl
          cases hkind
        unfold nextToken
        rw [if_neg hquote, hkind]
        rfl
    | operator hop m =>
        cases hposition
        exact nextToken_operator hop hsplit hrest
    | keyword hkeyword m =>
        cases hposition
        obtain ⟨hne, hchars⟩ := not_endsWord_of_keyword hkeyword
        rw [nextToken_word hsplit hne hchars (fun d hd => by simpa [Token.runsOn] using hrest d hd)]
        unfold wordToken
        rw [if_pos hkeyword]
    | word hne hchars hword m =>
        cases hposition
        rw [nextToken_word hsplit hne hchars (fun d hd => by simpa [Token.runsOn] using hrest d hd)]
        unfold wordToken
        rw [if_neg hword]

/-! ## The tokens of a text -/

/-- The first character of a token tells its sort. -/
theorem Spelling.head {t : Token} {d : Char} {text : List Char} (h : Spelling t (d :: text)) :
    isspace d = false ∧ (d = '\'' ↔ t.kind = .string) ∧
      (endsWord d = false ↔ t.isWord = true) ∧
      (d = '=' ↔ t.kind = .operator ∧ t.value = "=") := by
  generalize htext : d :: text = whole at h
  cases h with
  | string value n =>
      cases htext
      exact ⟨by decide, by simp, by simp [Token.isWord, endsWord], by simp⟩
  | @punctuation c kind hkind n =>
      cases htext
      unfold FakeForce.punctuation at hkind
      split at hkind <;> cases hkind <;>
        exact ⟨by decide, by simp, by simp [Token.isWord, endsWord], by simp⟩
  | @operator op hop n =>
      have hall : ∀ op ∈ operators, ∀ d ∈ op.toList.head?, isspace d = false ∧ d ≠ '\'' ∧
          endsWord d = true ∧ (d = '=' ↔ op = "=") := by
        decide
      obtain ⟨hspace, hquote, hends, hequals⟩ := hall op hop d (by rw [← htext]; rfl)
      exact ⟨hspace, by simp [hquote], by simp [Token.isWord, hends], by simpa using hequals⟩
  | @keyword text hkeyword n =>
      cases htext
      have hd := (not_endsWord_of_keyword hkeyword).2 d List.mem_cons_self
      obtain ⟨hspace, hquote, _, hoperator⟩ := not_endsWord hd
      refine ⟨hspace, by simp [hquote], by simp [Token.isWord, hd], ?_⟩
      have hne : d ≠ '=' := by
        rintro rfl
        cases hoperator
      simp [hne]
  | word hne hchars hword n =>
      cases htext
      have hd := hchars d List.mem_cons_self
      obtain ⟨hspace, hquote, _, hoperator⟩ := not_endsWord hd
      refine ⟨hspace, by simp [hquote], by simp [Token.isWord, hd], ?_⟩
      have hne : d ≠ '=' := by
        rintro rfl
        cases hoperator
      simp [hne]

/-- A token goes on with the first character of another one when the two would
run into each other. -/
theorem runsOn_iff (t : Token) {t' : Token} {d : Char} {text : List Char}
    (h : Spelling t' (d :: text)) : t.runsOn d = true ↔ RunsInto t t' := by
  obtain ⟨_, hquote, hword, hequals⟩ := h.head
  obtain ⟨kind, value, n⟩ := t
  unfold Token.runsOn RunsInto
  cases kind <;> simp [Token.isWord] at * <;> tauto

theorem not_runsOn_space (t : Token) {d : Char} (h : isspace d = true) : t.runsOn d = false := by
  have hquote : d ≠ '\'' := by
    rintro rfl
    cases h
  have hequals : d ≠ '=' := by
    rintro rfl
    cases h
  have hends : endsWord d = true := by
    rw [endsWord, h, Bool.true_or]
  unfold Token.runsOn
  split <;> simp [hquote, hequals, hends]

/-- White space stands where two tokens would run into each other, exactly
when the first ends where it does. -/
theorem gap_iff (t : Token) {n : Nat} {rest : List Char} {ts : List Token}
    (h : Written n rest ts) :
    (∀ t' ∈ ts.head?, RunsInto t t' → ∃ c ∈ rest.head?, isspace c = true) ↔
      ∀ d ∈ rest.head?, t.runsOn d = false := by
  cases h with
  | nil hspace =>
      constructor
      · intro _ d hd
        exact not_runsOn_space t (hspace d (List.mem_of_mem_head? hd))
      · intro _ t' ht'
        cases ht'
  | @cons _ space text rest t' ts hspace htext _ _ _ =>
      cases space with
      | nil =>
          cases text with
          | nil => exact absurd rfl htext.ne_nil
          | cons d text =>
              have hruns := runsOn_iff t htext
              have hd := htext.head.1
              simp only [List.nil_append, List.cons_append, List.head?_cons, Option.mem_some_iff,
                forall_eq', exists_eq_left', hd, Bool.false_eq_true, imp_false]
              rw [← hruns, Bool.not_eq_true]
      | cons c space =>
          have hc := hspace c List.mem_cons_self
          simp only [List.cons_append, List.head?_cons, Option.mem_some_iff, forall_eq',
            exists_eq_left', hc, implies_true, true_iff]
          exact not_runsOn_space t hc

theorem Written.space {n : Nat} {c : Char} {rest : List Char} {ts : List Token}
    (hc : isspace c = true) (h : Written (n + 1) rest ts) : Written n (c :: rest) ts := by
  cases h with
  | nil hspace => exact Written.nil (List.forall_mem_cons.mpr ⟨hc, hspace⟩)
  | @cons _ space text rest t ts hspace htext hposition hrest hgap =>
      refine Written.cons (List.forall_mem_cons.mpr ⟨hc, hspace⟩) htext ?_ ?_ hgap
      · rw [hposition, List.length_cons]
        omega
      · have heq : n + ((c :: space).length + text.length) =
            n + 1 + (space.length + text.length) := by
          rw [List.length_cons]
          omega
        rw [heq]
        exact hrest

/-- A text behind white space. -/
theorem Written.of_space {n : Nat} {c : Char} {rest : List Char} {ts : List Token}
    (hc : isspace c = true) (h : Written n (c :: rest) ts) : Written (n + 1) rest ts := by
  generalize hcs : c :: rest = cs at h
  cases h with
  | nil hspace =>
      subst hcs
      exact Written.nil (fun d hd => hspace d (List.mem_cons_of_mem _ hd))
  | @cons _ space text rest' t ts hspace htext hposition hrest hgap =>
      cases space with
      | nil =>
          cases text with
          | nil => exact absurd rfl htext.ne_nil
          | cons d text =>
              cases hcs
              rw [htext.head.1] at hc
              cases hc
      | cons d space =>
          cases hcs
          refine Written.cons (fun e he => hspace e (List.mem_cons_of_mem _ he)) htext ?_ ?_ hgap
          · rw [hposition, List.length_cons]
            omega
          · have heq : n + 1 + (space.length + text.length) =
                n + ((c :: space).length + text.length) := by
              rw [List.length_cons]
              omega
            rw [heq]
            exact hrest

/-- A text that begins with a token. -/
theorem Written.of_not_space {n : Nat} {c : Char} {rest : List Char} {ts : List Token}
    (hc : isspace c = false) (h : Written n (c :: rest) ts) :
    ∃ t ts' text rest', ts = t :: ts' ∧ c :: rest = text ++ rest' ∧ Spelling t text ∧
      t.position = n ∧ Written (n + text.length) rest' ts' ∧
      ∀ d ∈ rest'.head?, t.runsOn d = false := by
  generalize hcs : c :: rest = cs at h
  cases h with
  | nil hspace =>
      subst hcs
      have hspaceC := hspace c List.mem_cons_self
      rw [hc] at hspaceC
      cases hspaceC
  | @cons _ space text rest' t ts hspace htext hposition hrest hgap =>
      cases space with
      | cons d space =>
          cases hcs
          have hspaceC := hspace c List.mem_cons_self
          rw [hc] at hspaceC
          cases hspaceC
      | nil =>
          rw [List.length_nil, Nat.zero_add] at hrest
          exact ⟨t, ts, text, rest', rfl, rfl, htext, hposition, hrest,
            (gap_iff t hrest).mp hgap⟩

/-- The tokenizer finds exactly the tokens that a text is written with. -/
theorem tokenizeFrom_eq_ok_iff (n : Nat) (cs : List Char) (ts : List Token) :
    tokenizeFrom n cs = .ok ts ↔ Written n cs ts := by
  fun_induction tokenizeFrom n cs generalizing ts with
  | case1 n =>
      constructor
      · intro h
        cases h
        exact Written.nil (List.forall_mem_nil _)
      · intro h
        generalize hcs : ([] : List Char) = cs at h
        cases h with
        | nil hspace => rfl
        | cons hspace htext _ _ _ =>
            have hnil := List.append_eq_nil_iff.mp (List.append_eq_nil_iff.mp hcs.symm).2
            exact absurd hnil.1 htext.ne_nil
  | case2 n c rest hspace ih =>
      rw [ih]
      exact ⟨Written.space hspace, Written.of_space hspace⟩
  | case3 n c rest hspace e herror =>
      rw [Bool.not_eq_true] at hspace
      constructor
      · intro h
        cases h
      · intro h
        obtain ⟨t, ts', text, rest', rfl, hsplit, htext, hposition, _, hruns⟩ :=
          h.of_not_space hspace
        rw [(nextToken_eq_ok_iff hspace n rest rest' t).mpr
          ⟨text, hsplit, htext, hposition, hruns⟩] at herror
        cases herror
  | case4 n c rest hspace t rest' hnext hlength ih =>
      rw [Bool.not_eq_true] at hspace
      obtain ⟨text, hsplit, htext, hposition, hruns⟩ :=
        (nextToken_eq_ok_iff hspace n rest rest' t).mp hnext
      have hcount : (c :: rest).length - rest'.length = text.length := by
        rw [hsplit, List.length_append]
        omega
      rw [hcount] at ih ⊢
      constructor
      · intro h
        cases hrest : tokenizeFrom (n + text.length) rest' with
        | error e =>
            rw [hrest] at h
            cases h
        | ok ts' =>
            rw [hrest] at h
            cases h
            have hwritten := (ih ts').mp hrest
            rw [hsplit]
            exact Written.cons (List.forall_mem_nil _) htext hposition
              (by simpa using hwritten) ((gap_iff t hwritten).mpr hruns)
      · intro h
        obtain ⟨t', ts', text', rest'', rfl, hsplit', htext', hposition', hwritten, hruns'⟩ :=
          h.of_not_space hspace
        have hnext' := (nextToken_eq_ok_iff hspace n rest rest'' t').mpr
          ⟨text', hsplit', htext', hposition', hruns'⟩
        rw [hnext] at hnext'
        cases hnext'
        have hlengths : text'.length = text.length := by
          have h := congrArg List.length (hsplit.symm.trans hsplit')
          rw [List.length_append, List.length_append] at h
          omega
        rw [hlengths] at hwritten
        rw [(ih ts').mpr hwritten]
        rfl

theorem tokenize_eq_ok_iff (source : String) (ts : List Token) :
    tokenize source = .ok ts ↔ Written 0 source.toList ts :=
  tokenizeFrom_eq_ok_iff 0 source.toList ts

/-- Every error of the tokenizer is a syntax error. -/
theorem isSyntaxError_of_tokenizeFrom {n : Nat} {cs : List Char} {e : SoqlError}
    (h : tokenizeFrom n cs = .error e) : e.isSyntaxError = true := by
  fun_induction tokenizeFrom n cs with
  | case1 n => cases h
  | case2 n c rest hspace ih => exact ih h
  | case3 n c rest hspace e' herror =>
      cases h
      unfold nextToken at herror
      split at herror
      · split at herror
        · cases herror
        · cases herror
          rfl
      · split at herror
        · cases herror
        · split at herror
          · simp only at herror
            split at herror
            · cases herror
            · cases herror
              rfl
          · simp only at herror
            split at herror
            · cases herror
              rfl
            · cases herror
  | case4 n c rest hspace t rest' hnext hlength ih =>
      cases hrest : tokenizeFrom (n + ((c :: rest).length - rest'.length)) rest' with
      | error e' =>
          rw [hrest] at h
          cases h
          exact ih hrest
      | ok ts =>
          rw [hrest] at h
          cases h

end FakeForce
end Northwind
