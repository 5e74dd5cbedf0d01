import Northwind.FakeForce.SoqlParser
import Mathlib.Data.List.Chain

/-!
# The grammar of SOQL queries

`IsQuery` lists the token lists that spell a query; `Renders` is a text written
with such tokens.  `LiteralDue` are the beginnings of queries after which a
literal stands.

Each method of the parser reads exactly its part of the grammar; the rules of
`TokenParsers` put the parts together.  `parseSoql_acceptsRenderings_iff` says
when the parser accepts exactly the renderings of queries and raises syntax
errors on all other texts: unless a number of more than 4300 digits stands where
a literal is due.
-/

namespace Northwind
namespace FakeForce

open TokenParsers

/-! ## The forms -/

/-- A word that is no keyword. -/
def IsName (us : List Token) (name : String) : Prop :=
  ∃ t, us = [t] ∧ t.kind = .word ∧ name = t.value

/-- `*`, or names with commas between them. -/
inductive IsFieldList : List Token → List String → Prop
  | star {t : Token} (ht : isKind .star t = true) : IsFieldList [t] ["*"]
  | names {us vs : List Token} {first : String} {more : List String}
      (hfirst : IsName us first) (hmore : Many (isKind .comma) IsName vs more) :
      IsFieldList (us ++ vs) (first :: more)

section Forms

variable {F : Type} (float : String → F)

/-- A string or a word that stands for a literal. -/
def Spells (t : Token) (value : Literal F) : Prop :=
  (t.kind = .string ∧ value = .text t.value) ∨
    (t.kind = .word ∧ value = wordLiteral float t.value)

def IsLiteral (us : List Token) (value : Literal F) : Prop :=
  ∃ t, us = [t] ∧ Spells float t value

/-- A comparison, a `LIKE` or an `IN` list. -/
inductive IsPredicate : List Token → Predicate F → Prop
  | inList {field inKeyword opening first closing : Token} {vs : List Token}
      {value : Literal F} {more : List (Literal F)}
      (hfield : field.kind = .word) (hin : isKeyword "IN" inKeyword = true)
      (hopening : isKind .lparen opening = true) (hfirst : Spells float first value)
      (hmore : Many (isKind .comma) (IsLiteral float) vs more)
      (hclosing : isKind .rparen closing = true) :
      IsPredicate (field :: inKeyword :: opening :: first :: (vs ++ [closing]))
        (.inComparison field.value (value :: more))
  | like {field likeKeyword right : Token} {value : Literal F}
      (hfield : field.kind = .word) (hlike : isKeyword "LIKE" likeKeyword = true)
      (hvalue : Spells float right value) :
      IsPredicate [field, likeKeyword, right] (.comparison field.value .like value)
  | comparison {field operator right : Token} {comparison : ComparisonOperator}
      {value : Literal F} (hfield : field.kind = .word)
      (hoperator : isKind .operator operator = true)
      (hcomparison : comparisonOperator operator.value = some comparison)
      (hvalue : Spells float right value) :
      IsPredicate [field, operator, right] (.comparison field.value comparison value)

/-- Nothing, or predicates with `AND` between them. -/
inductive IsWhere : List Token → List (Predicate F) → Prop
  | none : IsWhere [] []
  | predicates {t : Token} {us vs : List Token} {first : Predicate F}
      {more : List (Predicate F)} (ht : isKeyword "WHERE" t = true)
      (hfirst : IsPredicate float us first)
      (hmore : Many (isKeyword "AND") (IsPredicate float) vs more) :
      IsWhere (t :: (us ++ vs)) (first :: more)

inductive IsDirection : List Token → SortDirection → Prop
  | default : IsDirection [] .asc
  | asc {t : Token} (ht : isKeyword "ASC" t = true) : IsDirection [t] .asc
  | desc {t : Token} (ht : isKeyword "DESC" t = true) : IsDirection [t] .desc

inductive IsNulls : List Token → NullsOrder → Prop
  | default : IsNulls [] .last
  | first {nulls t : Token} (hnulls : isKeyword "NULLS" nulls = true)
      (ht : isKeyword "FIRST" t = true) : IsNulls [nulls, t] .first
  | last {nulls t : Token} (hnulls : isKeyword "NULLS" nulls = true)
      (ht : isKeyword "LAST" t = true) : IsNulls [nulls, t] .last

inductive IsOrder : List Token → Option OrderBy → Prop
  | none : IsOrder [] none
  | orderBy {order by_ field : Token} {us vs : List Token} {direction : SortDirection}
      {nulls : NullsOrder} (horder : isKeyword "ORDER" order = true)
      (hby : isKeyword "BY" by_ = true) (hfield : field.kind = .word)
      (hdirection : IsDirection us direction) (hnulls : IsNulls vs nulls) :
      IsOrder (order :: by_ :: field :: (us ++ vs)) (some ⟨field.value, direction, nulls⟩)

inductive IsLimit : List Token → Option Nat → Prop
  | none : IsLimit [] none
  | limit {t right : Token} {n : Nat} (ht : isKeyword "LIMIT" t = true)
      (hvalue : Spells float right (.integer n)) : IsLimit [t, right] (some n)

inductive IsOffset : List Token → Nat → Prop
  | none : IsOffset [] 0
  | offset {t right : Token} {n : Nat} (ht : isKeyword "OFFSET" t = true)
      (hvalue : Spells float right (.integer n)) : IsOffset [t, right] n

/-- The tokens of a query, clause by clause. -/
inductive IsQuery : List Token → SelectQuery F → Prop
  | query {select from_ object : Token} {fields where_ order limit offset : List Token}
      {q : SelectQuery F} (hselect : isKeyword "SELECT" select = true)
      (hfields : IsFieldList fields q.fields) (hfrom : isKeyword "FROM" from_ = true)
      (hobject : object.kind = .word) (hname : q.objectName = object.value)
      (hwhere : IsWhere float where_ q.predicates) (horder : IsOrder order q.orderBy)
      (hlimit : IsLimit float limit q.limit) (hoffset : IsOffset float offset q.offset) :
      IsQuery (select :: (fields ++ from_ :: object :: (where_ ++ (order ++ (limit ++ offset))))) q

/-- A text written with the tokens of a query. -/
def Renders (source : String) (q : SelectQuery F) : Prop :=
  ∃ ts, Written 0 source.toList ts ∧ IsQuery float ts q

/-! ### Where a literal is due -/

/-- A literal is due after an operator, after `LIKE`, and in the list of an `IN`. -/
inductive PredicateDue : List Token → Prop
  | inFirst {field inKeyword opening : Token} (hfield : field.kind = .word)
      (hin : isKeyword "IN" inKeyword = true) (hopening : isKind .lparen opening = true) :
      PredicateDue [field, inKeyword, opening]
  | inMore {field inKeyword opening first : Token} {vs : List Token} {value : Literal F}
      (hfield : field.kind = .word) (hin : isKeyword "IN" inKeyword = true)
      (hopening : isKind .lparen opening = true) (hfirst : Spells float first value)
      (hmore : ManyDue (isKind .comma) (IsLiteral float) (fun us => us = []) vs) :
      PredicateDue (field :: inKeyword :: opening :: first :: vs)
  | like {field likeKeyword : Token} (hfield : field.kind = .word)
      (hlike : isKeyword "LIKE" likeKeyword = true) : PredicateDue [field, likeKeyword]
  | comparison {field operator : Token} {comparison : ComparisonOperator}
      (hfield : field.kind = .word) (hoperator : isKind .operator operator = true)
      (hcomparison : comparisonOperator operator.value = some comparison) :
      PredicateDue [field, operator]

inductive WhereDue : List Token → Prop
  | first {t : Token} {us : List Token} (ht : isKeyword "WHERE" t = true)
      (h : PredicateDue float us) : WhereDue (t :: us)
  | more {t : Token} {us vs : List Token} {first : Predicate F}
      (ht : isKeyword "WHERE" t = true) (hfirst : IsPredicate float us first)
      (hmore : ManyDue (isKeyword "AND") (IsPredicate float) (PredicateDue float) vs) :
      WhereDue (t :: (us ++ vs))

/-- A literal is due in the conditions, and after `LIMIT` and `OFFSET`. -/
inductive ClausesDue : List Token → Prop
  | where_ {us : List Token} (h : WhereDue float us) : ClausesDue us
  | limit {where_ order : List Token} {t : Token} {predicates : List (Predicate F)}
      {orderBy : Option OrderBy} (hwhere : IsWhere float where_ predicates)
      (horder : IsOrder order orderBy) (ht : isKeyword "LIMIT" t = true) :
      ClausesDue (where_ ++ (order ++ [t]))
  | offset {where_ order limit : List Token} {t : Token} {predicates : List (Predicate F)}
      {orderBy : Option OrderBy} {n : Option Nat} (hwhere : IsWhere float where_ predicates)
      (horder : IsOrder order orderBy) (hlimit : IsLimit float limit n)
      (ht : isKeyword "OFFSET" t = true) :
      ClausesDue (where_ ++ (order ++ (limit ++ [t])))

/-- The beginnings of queries after which a literal stands. -/
inductive LiteralDue : List Token → Prop
  | clauses {select from_ object : Token} {fields us : List Token} {names : List String}
      (hselect : isKeyword "SELECT" select = true) (hfields : IsFieldList fields names)
      (hfrom : isKeyword "FROM" from_ = true) (hobject : object.kind = .word)
      (h : ClausesDue float us) :
      LiteralDue (select :: (fields ++ from_ :: object :: us))

end Forms

/-! ### White space in a query -/

/-- Two neighbours that need no white space, unless both are words. -/
def WordsApart (t t' : Token) : Prop :=
  RunsInto t t' → t.isWord = true ∧ t'.isWord = true

/-- A token that is neither a string nor an operator. -/
def Standalone (t : Token) : Prop :=
  t.kind ≠ .string ∧ t.kind ≠ .operator

theorem wordsApart_of_standalone_left {t : Token} (t' : Token) (h : Standalone t) :
    WordsApart t t' := by
  rintro (hwords | ⟨hstring, _⟩ | ⟨hoperator, _⟩)
  · exact hwords
  · exact absurd hstring h.1
  · exact absurd hoperator h.2

theorem wordsApart_of_standalone_right (t : Token) {t' : Token} (h : Standalone t') :
    WordsApart t t' := by
  rintro (hwords | ⟨_, hstring⟩ | ⟨_, _, hoperator, _⟩)
  · exact hwords
  · exact absurd hstring h.1
  · exact absurd hoperator h.2

theorem standalone_of_isKeyword {value : String} {t : Token} (h : isKeyword value t = true) :
    Standalone t := by
  unfold isKeyword at h
  rw [Bool.and_eq_true] at h
  have hkind : t.kind = .keyword := of_decide_eq_true h.1
  exact ⟨by rw [hkind]; decide, by rw [hkind]; decide⟩

theorem standalone_of_isKind {kind : TokenKind} {t : Token} (h : isKind kind t = true)
    (hne : kind ≠ .string ∧ kind ≠ .operator) : Standalone t := by
  have hkind : t.kind = kind := of_decide_eq_true h
  exact ⟨by rw [hkind]; exact hne.1, by rw [hkind]; exact hne.2⟩

theorem standalone_of_word {t : Token} (h : t.kind = .word) : Standalone t :=
  ⟨by rw [h]; decide, by rw [h]; decide⟩

/-- Neighbours in a list of tokens. -/
abbrev Spaced (ts : List Token) : Prop :=
  ts.IsChain WordsApart

/-- A part of a query that may follow any token. -/
def SpacedPart (ts : List Token) : Prop :=
  Spaced ts ∧ ∀ t ∈ ts.head?, Standalone t

theorem spaced_singleton (t : Token) : Spaced [t] :=
  List.IsChain.singleton t

theorem SpacedPart.nil : SpacedPart [] :=
  ⟨List.IsChain.nil, fun t ht => by cases ht⟩

theorem SpacedPart.cons {t : Token} {ts : List Token} (ht : Standalone t) (h : Spaced ts) :
    SpacedPart (t :: ts) := by
  refine ⟨List.isChain_cons.mpr ⟨fun t' _ => wordsApart_of_standalone_left t' ht, h⟩, ?_⟩
  intro t' ht'
  cases ht'
  exact ht

theorem Spaced.append {us vs : List Token} (hus : Spaced us) (hvs : SpacedPart vs) :
    Spaced (us ++ vs) := by
  refine List.isChain_append.mpr ⟨hus, hvs.1, ?_⟩
  intro t _ t' ht'
  exact wordsApart_of_standalone_right t (hvs.2 t' ht')

theorem SpacedPart.append {us vs : List Token} (hus : SpacedPart us) (hvs : SpacedPart vs) :
    SpacedPart (us ++ vs) := by
  refine ⟨hus.1.append hvs, ?_⟩
  cases us with
  | nil => exact hvs.2
  | cons t us => exact hus.2

/-- Forms behind standalone opening tokens. -/
theorem spacedPart_many {α : Type} {opens : Token → Bool} {Forms : List Token → α → Prop}
    (hopens : ∀ t, opens t = true → Standalone t) (hforms : ∀ us a, Forms us a → Spaced us)
    {us : List Token} {as : List α} (h : Many opens Forms us as) : SpacedPart us := by
  induction h with
  | nil => exact SpacedPart.nil
  | @cons t us vs a as ht ha _ ih =>
      exact (SpacedPart.cons (hopens t ht) (hforms us a ha)).append ih

theorem standalone_comma (t : Token) (h : isKind .comma t = true) : Standalone t :=
  standalone_of_isKind h (by decide)

theorem spaced_name {us : List Token} {name : String} (h : IsName us name) : SpacedPart us := by
  obtain ⟨t, rfl, hword, _⟩ := h
  exact SpacedPart.cons (standalone_of_word hword) List.IsChain.nil

section Spacing

variable {F : Type} {float : String → F}

theorem spaced_literal (us : List Token) (value : Literal F) (h : IsLiteral float us value) :
    Spaced us := by
  obtain ⟨t, rfl, _⟩ := h
  exact spaced_singleton t

/-- A literal is no operator. -/
theorem wordsApart_literal {t t' : Token} {value : Literal F}
    (ht : t.kind ≠ .string) (h : Spells float t' value) : WordsApart t t' := by
  rintro (hwords | ⟨hstring, _⟩ | ⟨_, _, hoperator, _⟩)
  · exact hwords
  · exact absurd hstring ht
  · rcases h with ⟨hkind, _⟩ | ⟨hkind, _⟩ <;>
      · rw [hkind] at hoperator
        cases hoperator

theorem spaced_predicate (us : List Token) (p : Predicate F) (h : IsPredicate float us p) :
    Spaced us := by
  cases h with
  | @inList field inKeyword opening first closing us value more hfield hin hopening hfirst hmore
      hclosing =>
      have hmany : SpacedPart us := spacedPart_many standalone_comma spaced_literal hmore
      have hvalues := (spaced_singleton first).append (hmany.append
        (SpacedPart.cons (standalone_of_isKind hclosing (by decide)) List.IsChain.nil))
      have hlist := SpacedPart.cons (standalone_of_isKind hopening (by decide)) hvalues
      exact (SpacedPart.cons (standalone_of_word hfield)
        (SpacedPart.cons (standalone_of_isKeyword hin) hlist.1).1).1
  | like hfield hlike hvalue =>
      exact (SpacedPart.cons (standalone_of_word hfield)
        (SpacedPart.cons (standalone_of_isKeyword hlike) (spaced_singleton _)).1).1
  | comparison hfield hoperator hcomparison hvalue =>
      refine (SpacedPart.cons (standalone_of_word hfield)
        (List.isChain_cons_cons.mpr ⟨wordsApart_literal ?_ hvalue, spaced_singleton _⟩)).1
      rw [of_decide_eq_true hoperator]
      decide

theorem spacedPart_where {us : List Token} {predicates : List (Predicate F)}
    (h : IsWhere float us predicates) : SpacedPart us := by
  cases h with
  | none => exact SpacedPart.nil
  | @predicates t us vs p ps ht hfirst hmore =>
      have hmany : SpacedPart vs :=
        spacedPart_many (fun t ht => standalone_of_isKeyword ht) spaced_predicate hmore
      exact SpacedPart.cons (standalone_of_isKeyword ht)
        ((spaced_predicate _ _ hfirst).append hmany)

theorem spacedPart_order {us : List Token} {o : Option OrderBy} (h : IsOrder us o) :
    SpacedPart us := by
  cases h with
  | none => exact SpacedPart.nil
  | @orderBy order by_ field us vs direction nulls horder hby hfield hdirection hnulls =>
      have hdir : SpacedPart us := by
        cases hdirection with
        | default => exact SpacedPart.nil
        | asc ht => exact SpacedPart.cons (standalone_of_isKeyword ht) List.IsChain.nil
        | desc ht => exact SpacedPart.cons (standalone_of_isKeyword ht) List.IsChain.nil
      have hnul : SpacedPart vs := by
        cases hnulls with
        | default => exact SpacedPart.nil
        | first hkeyword ht =>
            exact SpacedPart.cons (standalone_of_isKeyword hkeyword) (spaced_singleton _)
        | last hkeyword ht =>
            exact SpacedPart.cons (standalone_of_isKeyword hkeyword) (spaced_singleton _)
      have hfieldPart := SpacedPart.cons (standalone_of_word hfield) (hdir.append hnul).1
      have hbyPart := SpacedPart.cons (standalone_of_isKeyword hby) hfieldPart.1
      exact SpacedPart.cons (standalone_of_isKeyword horder) hbyPart.1

theorem spacedPart_limit {us : List Token} {n : Option Nat} (h : IsLimit float us n) :
    SpacedPart us := by
  cases h with
  | none => exact SpacedPart.nil
  | limit ht _ => exact SpacedPart.cons (standalone_of_isKeyword ht) (spaced_singleton _)

theorem spacedPart_offset {us : List Token} {n : Nat} (h : IsOffset float us n) :
    SpacedPart us := by
  cases h with
  | none => exact SpacedPart.nil
  | offset ht _ => exact SpacedPart.cons (standalone_of_isKeyword ht) (spaced_singleton _)

theorem spacedPart_fieldList {us : List Token} {names : List String} (h : IsFieldList us names) :
    SpacedPart us := by
  cases h with
  | star ht => exact SpacedPart.cons (standalone_of_isKind ht (by decide)) List.IsChain.nil
  | names hfirst hmore =>
      exact (spaced_name hfirst).append
        (spacedPart_many standalone_comma (fun _ _ hname => (spaced_name hname).1) hmore)

/-- In a query only words need white space between them: none is required
beside punctuation, operators and quotes. -/
theorem IsQuery.spaced {ts : List Token} {q : SelectQuery F} (h : IsQuery float ts q) :
    Spaced ts := by
  cases h with
  | query hselect hfields hfrom hobject hname hwhere horder hlimit hoffset =>
      have hclauses := (spacedPart_where hwhere).append ((spacedPart_order horder).append
        ((spacedPart_limit hlimit).append (spacedPart_offset hoffset)))
      have hobjectPart := SpacedPart.cons (standalone_of_word hobject) hclauses.1
      have hfromPart := SpacedPart.cons (standalone_of_isKeyword hfrom) hobjectPart.1
      exact (SpacedPart.cons (standalone_of_isKeyword hselect)
        ((spacedPart_fieldList hfields).append hfromPart).1).1

end Spacing

/-! ## What each method reads -/

/-- No clause opens with the next token. -/
def NotKeyword (values : List String) (o : Option Token) : Prop :=
  ∀ t ∈ o, ∀ value ∈ values, isKeyword value t = false

/-- A parser of SOQL, whose one fault are the long numerals. -/
abbrev ReadsSoql {α : Type} (p : SoqlParser α) (Forms : List Token → α → Prop)
    (Follow : Option Token → Prop) (Due : List Token → Prop) : Prop :=
  Reads SoqlError.integerTooLong LongNumeral p Forms Follow Due

theorem readsSoql_expectToken {α : Type} (what : String) (read : Token → Option α) :
    ReadsSoql (expectToken what read) (fun us a => ∃ t, us = [t] ∧ read t = some a)
      (fun _ => True) (fun _ => False) := by
  refine (Reads.takeToken ?_ ?_).congr ?_ (fun _ h => h) (fun _ => Iff.rfl)
  · intro t h
    split at h <;> cases h
  · intro h
    cases h
  · intro us a
    constructor
    · rintro ⟨t, rfl, h⟩
      exact ⟨t, rfl, by rw [h]⟩
    · rintro ⟨t, rfl, h⟩
      refine ⟨t, rfl, ?_⟩
      split at h
      · rename_i b hb
        cases h
        exact hb
      · cases h

theorem readsSoql_expectKeyword (values : List String) :
    ReadsSoql (expectKeyword values)
      (fun us t => us = [t] ∧ ∃ value ∈ values, isKeyword value t = true)
      (fun _ => True) (fun _ => False) := by
  refine (readsSoql_expectToken _ _).congr ?_ (fun _ h => h) (fun _ => Iff.rfl)
  intro us t
  constructor
  · rintro ⟨rfl, h⟩
    exact ⟨t, rfl, if_pos (List.any_eq_true.mpr h)⟩
  · rintro ⟨t', rfl, h⟩
    split at h
    · rename_i hany
      cases h
      exact ⟨rfl, List.any_eq_true.mp hany⟩
    · cases h

theorem readsSoql_expect (kind : TokenKind) :
    ReadsSoql (expect kind) (fun us t => us = [t] ∧ isKind kind t = true)
      (fun _ => True) (fun _ => False) := by
  refine (readsSoql_expectToken _ _).congr ?_ (fun _ h => h) (fun _ => Iff.rfl)
  intro us t
  constructor
  · rintro ⟨rfl, h⟩
    exact ⟨t, rfl, if_pos h⟩
  · rintro ⟨t', rfl, h⟩
    split at h
    · rename_i hkind
      cases h
      exact ⟨rfl, hkind⟩
    · cases h

theorem readsSoql_expectOperator :
    ReadsSoql expectOperator
      (fun us comparison => ∃ t, us = [t] ∧ isKind .operator t = true ∧
        comparisonOperator t.value = some comparison)
      (fun _ => True) (fun _ => False) := by
  refine (readsSoql_expectToken _ _).congr ?_ (fun _ h => h) (fun _ => Iff.rfl)
  intro us comparison
  constructor
  · rintro ⟨t, rfl, hkind, h⟩
    exact ⟨t, rfl, (if_pos hkind).trans h⟩
  · rintro ⟨t, rfl, h⟩
    split at h
    · rename_i hkind
      exact ⟨t, rfl, hkind, h⟩
    · cases h

theorem readsSoql_identifier :
    ReadsSoql identifier IsName (fun _ => True) (fun _ => False) := by
  refine ((readsSoql_expect .word).map Token.value).congr ?_ (fun _ h => h) (fun _ => Iff.rfl)
  intro us name
  constructor
  · rintro ⟨t, rfl, hkind, rfl⟩
    exact ⟨t, ⟨rfl, decide_eq_true hkind⟩, rfl⟩
  · rintro ⟨t, ⟨rfl, hkind⟩, rfl⟩
    exact ⟨t, rfl, of_decide_eq_true hkind, rfl⟩

/-- The next token does not go on with a list. -/
def NotComma (o : Option Token) : Prop :=
  ∀ t ∈ o, isKind .comma t = false

theorem isKind_ne {kind kind' : TokenKind} {t : Token} (h : isKind kind t = true)
    (hne : kind ≠ kind') : isKind kind' t = false := by
  have hkind : t.kind = kind := of_decide_eq_true h
  exact decide_eq_false (fun heq => hne (hkind.symm.trans heq))

theorem isKind_of_isKeyword {value : String} {t : Token} (h : isKeyword value t = true) :
    isKind .keyword t = true := by
  unfold isKeyword at h
  rw [Bool.and_eq_true] at h
  exact h.1

theorem isKeyword_of_ne_keyword {value : String} {t : Token} (h : t.kind ≠ .keyword) :
    isKeyword value t = false := by
  simp [isKeyword, h]

theorem isKeyword_ne {value value' : String} {t : Token} (h : isKeyword value t = true)
    (hne : value ≠ value') : isKeyword value' t = false := by
  unfold isKeyword at *
  rw [Bool.and_eq_true] at h
  have hvalue : t.value = value := of_decide_eq_true h.2
  simp [hvalue, hne]

theorem readsSoql_names :
    ReadsSoql (manyAfter (isKind .comma) identifier) (Many (isKind .comma) IsName) NotComma
      (fun _ => False) := by
  refine (readsSoql_identifier.manyAfter ?_ ?_).congr (fun _ _ => Iff.rfl) (fun _ h => h) ?_
  · intro t _
    trivial
  · intro o ho
    exact ⟨trivial, ho⟩
  · intro us
    exact ⟨False.elim, not_manyDue⟩

theorem readsSoql_fieldList :
    ReadsSoql fieldList IsFieldList NotComma (fun _ => False) := by
  have hnames : ReadsSoql (identifier >>= fun first =>
      manyAfter (isKind .comma) identifier >>= fun more => pure (first :: more))
      (Sequence IsName (fun first us all =>
        ∃ more, Many (isKind .comma) IsName us more ∧ all = first :: more)) NotComma
      (SequenceDue IsName (fun _ => False) (fun _ _ => False)) :=
    readsSoql_identifier.bind (fun first => readsSoql_names.map (first :: ·))
      (fun _ _ => trivial) (fun _ _ => trivial)
  refine (Reads.branch (Reads.pure ["*"] NotComma) hnames ?_ ?_ ?_).congr
    ?_ (fun _ h => h) ?_
  · exact fun _ ho => ⟨ho, ho⟩
  · rintro us all rest ⟨before, first, after, rfl, ⟨t, rfl, hword, _⟩, _⟩ _ t' ht'
    cases ht'
    exact isKind_ne (decide_eq_true hword) (by decide)
  · rintro us t (hfalse | ⟨_, _, _, _, _, hfalse⟩)
    · exact hfalse.elim
    · exact hfalse.elim
  · intro us all
    constructor
    · rintro (⟨ht⟩ | ⟨hfirst, hmore⟩)
      · exact Or.inl ⟨_, [], rfl, ht, rfl, rfl⟩
      · exact Or.inr ⟨_, _, _, rfl, hfirst, _, hmore, rfl⟩
    · rintro (⟨t, after, rfl, ht, rfl, rfl⟩ | ⟨before, first, after, rfl, hfirst, more, hmore, rfl⟩)
      · exact IsFieldList.star ht
      · exact IsFieldList.names hfirst hmore
  · intro us
    constructor
    · intro hfalse
      exact hfalse.elim
    · rintro (⟨_, _, _, _, hfalse⟩ | hfalse | ⟨_, _, _, _, _, hfalse⟩) <;> exact hfalse

section Literals

variable {F : Type} (float : String → F)

theorem readsSoql_literal :
    ReadsSoql (literal float) (IsLiteral float) (fun _ => True) (fun us => us = []) := by
  apply Reads.takeFaulty
  · intro t value h
    unfold readLiteral at h
    split at h
    · rename_i hkind
      exact Or.inl ⟨hkind, (Except.ok.inj h).symm⟩
    · rename_i hkind
      split at h
      · cases h
      · exact Or.inr ⟨hkind, (Except.ok.inj h).symm⟩
    · cases h
  · rintro t value (⟨hkind, rfl⟩ | ⟨hkind, rfl⟩) hlong
    · unfold readLiteral
      rw [hkind]
    · unfold readLiteral
      rw [hkind]
      exact if_neg hlong
  · intro t
    unfold readLiteral
    constructor
    · intro h
      split at h
      · cases h
      · split at h
        · rename_i hlong
          exact hlong
        · cases h
      · cases h
    · intro hlong
      rw [hlong.1]
      exact if_pos hlong
  · intro h
    cases h

theorem readsSoql_integer (clause : String) :
    ReadsSoql (integer float clause)
      (fun us (n : Nat) => ∃ t, us = [t] ∧ Spells float t (.integer n)) (fun _ => True)
      (fun us => us = []) := by
  have hcheck : ∀ value : Literal F, nonNegative clause value ≠ .error .integerTooLong := by
    intro value h
    unfold nonNegative at h
    split at h
    · split at h <;> cases h
    · cases h
  refine ((readsSoql_literal float).bind (fun value => Reads.check _ (hcheck value))
    (fun _ _ => trivial) (fun _ _ => trivial)).congr ?_ (fun _ h => h) ?_
  · intro us n
    constructor
    · rintro ⟨t, rfl, hspells⟩
      refine ⟨[t], _, [], rfl, ⟨t, rfl, hspells⟩, rfl, ?_⟩
      simp [nonNegative]
    · rintro ⟨before, value, after, rfl, ⟨t, rfl, hspells⟩, rfl, hvalue⟩
      refine ⟨t, rfl, ?_⟩
      unfold nonNegative at hvalue
      split at hvalue
      · rename_i m
        split at hvalue
        · rename_i hm
          cases hvalue
          rw [Int.toNat_of_nonneg hm]
          exact hspells
        · cases hvalue
      · cases hvalue
  · intro us
    constructor
    · intro hnil
      exact Or.inl hnil
    · rintro (hnil | ⟨_, _, _, _, _, hfalse⟩)
      · exact hnil
      · exact hfalse.elim

/-- What the values of an `IN` are read from. -/
inductive IsInList : List Token → List (Literal F) → Prop
  | values {opening first closing : Token} {vs : List Token} {value : Literal F}
      {more : List (Literal F)} (hopening : isKind .lparen opening = true)
      (hfirst : Spells float first value)
      (hmore : Many (isKind .comma) (IsLiteral float) vs more)
      (hclosing : isKind .rparen closing = true) :
      IsInList (opening :: first :: (vs ++ [closing])) (value :: more)

inductive InListDue : List Token → Prop
  | first {opening : Token} (hopening : isKind .lparen opening = true) : InListDue [opening]
  | more {opening first : Token} {vs : List Token} {value : Literal F}
      (hopening : isKind .lparen opening = true) (hfirst : Spells float first value)
      (hmore : ManyDue (isKind .comma) (IsLiteral float) (fun us => us = []) vs) :
      InListDue (opening :: first :: vs)

theorem readsSoql_literals :
    ReadsSoql (manyAfter (isKind .comma) (literal float))
      (Many (isKind .comma) (IsLiteral float)) NotComma
      (ManyDue (isKind .comma) (IsLiteral float) (fun us => us = [])) :=
  (readsSoql_literal float).manyAfter (fun _ _ => trivial) (fun _ ho => ⟨trivial, ho⟩)

theorem readsSoql_inValues :
    ReadsSoql (inValues float) (IsInList float) (fun _ => True) (InListDue float) := by
  have hclose : ∀ values : List (Literal F), ReadsSoql
      (expect .rparen >>= fun _ => pure values)
      (fun us all => ∃ t, (us = [t] ∧ isKind .rparen t = true) ∧ all = values)
      (fun _ => True) (fun _ => False) :=
    fun values => (readsSoql_expect .rparen).map (fun _ => values)
  have hmore : ∀ first : Literal F, ReadsSoql
      (manyAfter (isKind .comma) (literal float) >>= fun more =>
        expect .rparen >>= fun _ => pure (first :: more))
      (Sequence (Many (isKind .comma) (IsLiteral float)) (fun more us all =>
        ∃ t, (us = [t] ∧ isKind .rparen t = true) ∧ all = first :: more)) (fun _ => True)
      (SequenceDue (Many (isKind .comma) (IsLiteral float))
        (ManyDue (isKind .comma) (IsLiteral float) (fun us => us = [])) (fun _ _ => False)) := by
    intro first
    refine (readsSoql_literals float).bind (fun more => hclose (first :: more)) ?_ ?_
    · rintro more us all rest ⟨t, ⟨rfl, ht⟩, rfl⟩ _ t' ht'
      cases ht'
      exact isKind_ne ht (by decide)
    · intro _ _ _ hfalse
      exact hfalse.elim
  refine ((readsSoql_expect .lparen).bind (fun _ => (readsSoql_literal float).bind hmore
    (fun _ _ => trivial) (fun _ _ => trivial)) (fun _ _ => trivial)
      (fun _ _ => trivial)).congr ?_ (fun _ h => h) ?_
  · intro us all
    constructor
    · rintro ⟨hopening, hfirst, hmany, hclosing⟩
      exact ⟨[_], _, _, rfl, ⟨rfl, hopening⟩, [_], _, _, rfl, ⟨_, rfl, hfirst⟩,
        _, _, _, rfl, hmany, _, ⟨rfl, hclosing⟩, rfl⟩
    · rintro ⟨_, t, _, rfl, ⟨rfl, hopening⟩, _, first, _, rfl, ⟨_, rfl, hfirst⟩,
        vs, more, _, rfl, hmany, closing, ⟨rfl, hclosing⟩, rfl⟩
      exact IsInList.values hopening hfirst hmany hclosing
  · intro us
    constructor
    · rintro (⟨hopening⟩ | ⟨hopening, hfirst, hmany⟩)
      · exact Or.inr ⟨[_], _, [], rfl, ⟨rfl, hopening⟩, Or.inl rfl⟩
      · exact Or.inr ⟨[_], _, _, rfl, ⟨rfl, hopening⟩,
          Or.inr ⟨[_], _, _, rfl, ⟨_, rfl, hfirst⟩, Or.inl hmany⟩⟩
    · rintro (hfalse | ⟨_, t, _, rfl, ⟨rfl, hopening⟩, rfl | ⟨_, first, _, rfl,
        ⟨_, rfl, hfirst⟩, hmany | ⟨_, _, _, _, _, hfalse⟩⟩⟩)
      · exact hfalse.elim
      · exact InListDue.first hopening
      · exact InListDue.more hopening hfirst hmany
      · exact hfalse.elim

/-- What follows the field of a predicate. -/
inductive IsComparisonOf (field : String) : List Token → Predicate F → Prop
  | inList {t : Token} {us : List Token} {values : List (Literal F)}
      (ht : isKeyword "IN" t = true) (hvalues : IsInList float us values) :
      IsComparisonOf field (t :: us) (.inComparison field values)
  | like {t right : Token} {value : Literal F} (ht : isKeyword "LIKE" t = true)
      (hvalue : Spells float right value) :
      IsComparisonOf field [t, right] (.comparison field .like value)
  | comparison {t right : Token} {comparison : ComparisonOperator} {value : Literal F}
      (ht : isKind .operator t = true) (hcomparison : comparisonOperator t.value = some comparison)
      (hvalue : Spells float right value) :
      IsComparisonOf field [t, right] (.comparison field comparison value)

inductive ComparisonDue : List Token → Prop
  | inList {t : Token} {us : List Token} (ht : isKeyword "IN" t = true)
      (h : InListDue float us) : ComparisonDue (t :: us)
  | like {t : Token} (ht : isKeyword "LIKE" t = true) : ComparisonDue [t]
  | comparison {t : Token} {comparison : ComparisonOperator}
      (ht : isKind .operator t = true)
      (hcomparison : comparisonOperator t.value = some comparison) : ComparisonDue [t]

theorem readsSoql_comparisonOf (field : String) :
    ReadsSoql (comparisonOf float field) (IsComparisonOf float field) (fun _ => True)
      (ComparisonDue float) := by
  have hin : ReadsSoql (inValues float >>= fun values =>
      pure (Predicate.inComparison field values))
      (fun us p => ∃ values, IsInList float us values ∧ p = .inComparison field values)
      (fun _ => True) (InListDue float) :=
    (readsSoql_inValues float).map (Predicate.inComparison field)
  have hright : ∀ comparison : ComparisonOperator, ReadsSoql (literal float >>= fun value =>
      pure (Predicate.comparison field comparison value))
      (fun us p => ∃ value, IsLiteral float us value ∧ p = .comparison field comparison value)
      (fun _ => True) (fun us => us = []) :=
    fun comparison => (readsSoql_literal float).map (Predicate.comparison field comparison)
  let IsOperator := fun (us : List Token) (comparison : ComparisonOperator) =>
    ∃ t, us = [t] ∧ isKind .operator t = true ∧ comparisonOperator t.value = some comparison
  let IsRight := fun (comparison : ComparisonOperator) (us : List Token) (p : Predicate F) =>
    ∃ value, IsLiteral float us value ∧ p = .comparison field comparison value
  have hoperator : ReadsSoql (expectOperator >>= fun comparison => literal float >>= fun value =>
      pure (Predicate.comparison field comparison value)) (Sequence IsOperator IsRight)
      (fun _ => True) (SequenceDue IsOperator (fun _ => False) (fun _ us => us = [])) :=
    readsSoql_expectOperator.bind hright (fun _ _ => trivial) (fun _ _ => trivial)
  -- An operator is no keyword, so the tests of the branches exclude each other.
  have hclosed : ∀ {t : Token} {value : String}, isKind .operator t = true →
      isKeyword value t = false := by
    intro t value ht
    apply isKeyword_of_ne_keyword
    rw [of_decide_eq_true ht]
    decide
  have hlike : ReadsSoql (do
      if ← accept (isKeyword "LIKE") then
        let value ← literal float
        return Predicate.comparison field .like value
      else
        let operator ← expectOperator
        let value ← literal float
        return Predicate.comparison field operator value)
      (fun us p => Opened (isKeyword "LIKE") (IsRight .like) us p ∨
        Sequence IsOperator IsRight us p) (fun _ => True)
      (fun us => OpenedDue (isKeyword "LIKE") (fun us => us = []) us ∨
        SequenceDue IsOperator (fun _ => False) (fun _ us => us = []) us) := by
    refine Reads.branch (hright .like) hoperator (fun _ _ => ⟨trivial, trivial⟩) ?_ ?_
    · rintro us p rest ⟨_, comparison, _, rfl, ⟨t, rfl, ht, _⟩, _⟩ _ t' ht'
      cases ht'
      exact hclosed ht
    · rintro us t (hfalse | ⟨_, _, _, rfl, ⟨t, rfl, ht, _⟩, _⟩) _ t' ht'
      · exact hfalse.elim
      · cases ht'
        exact hclosed ht
  refine (Reads.branch hin hlike (fun _ _ => ⟨trivial, trivial⟩) ?_ ?_).congr ?_
    (fun _ h => h) ?_
  · rintro us p rest (⟨t, _, rfl, ht, _⟩ | ⟨_, comparison, _, rfl, ⟨t, rfl, ht, _⟩, _⟩) _ t' ht'
    · cases ht'
      exact isKeyword_ne ht (by decide)
    · cases ht'
      exact hclosed ht
  · rintro us t (⟨t, _, rfl, ht, _⟩ | hfalse | ⟨_, _, _, rfl, ⟨t, rfl, ht, _⟩, _⟩) _ t' ht'
    · cases ht'
      exact isKeyword_ne ht (by decide)
    · exact hfalse.elim
    · cases ht'
      exact hclosed ht
  · intro us p
    constructor
    · rintro (⟨ht, hvalues⟩ | ⟨ht, hvalue⟩ | ⟨ht, hcomparison, hvalue⟩)
      · exact Or.inl ⟨_, _, rfl, ht, _, hvalues, rfl⟩
      · exact Or.inr (Or.inl ⟨_, _, rfl, ht, _, ⟨_, rfl, hvalue⟩, rfl⟩)
      · exact Or.inr (Or.inr ⟨[_], _, _, rfl, ⟨_, rfl, ht, hcomparison⟩,
          _, ⟨_, rfl, hvalue⟩, rfl⟩)
    · rintro (⟨t, us, rfl, ht, values, hvalues, rfl⟩ |
        ⟨t, _, rfl, ht, value, ⟨right, rfl, hvalue⟩, rfl⟩ |
        ⟨_, comparison, _, rfl, ⟨t, rfl, ht, hcomparison⟩, value, ⟨right, rfl, hvalue⟩, rfl⟩)
      · exact IsComparisonOf.inList ht hvalues
      · exact IsComparisonOf.like ht hvalue
      · exact IsComparisonOf.comparison ht hcomparison hvalue
  · intro us
    constructor
    · rintro (⟨ht, hdue⟩ | ⟨ht⟩ | ⟨ht, hcomparison⟩)
      · exact Or.inl ⟨_, _, rfl, ht, hdue⟩
      · exact Or.inr (Or.inl ⟨_, _, rfl, ht, rfl⟩)
      · exact Or.inr (Or.inr (Or.inr ⟨[_], _, [], rfl, ⟨_, rfl, ht, hcomparison⟩, rfl⟩))
    · rintro (⟨t, us, rfl, ht, hdue⟩ | ⟨t, _, rfl, ht, rfl⟩ | hfalse |
        ⟨_, comparison, _, rfl, ⟨t, rfl, ht, hcomparison⟩, rfl⟩)
      · exact ComparisonDue.inList ht hdue
      · exact ComparisonDue.like ht
      · exact hfalse.elim
      · exact ComparisonDue.comparison ht hcomparison

theorem readsSoql_predicate :
    ReadsSoql (predicate float) (IsPredicate float) (fun _ => True) (PredicateDue float) := by
  refine (readsSoql_identifier.bind (readsSoql_comparisonOf float) (fun _ _ => trivial)
    (fun _ _ => trivial)).congr ?_ (fun _ h => h) ?_
  · intro us p
    constructor
    · rintro (⟨hfield, hin, hopening, hfirst, hmore, hclosing⟩ | ⟨hfield, hlike, hvalue⟩ |
        ⟨hfield, hoperator, hcomparison, hvalue⟩)
      · exact ⟨[_], _, _, rfl, ⟨_, rfl, hfield, rfl⟩,
          .inList hin (.values hopening hfirst hmore hclosing)⟩
      · exact ⟨[_], _, _, rfl, ⟨_, rfl, hfield, rfl⟩, .like hlike hvalue⟩
      · exact ⟨[_], _, _, rfl, ⟨_, rfl, hfield, rfl⟩, .comparison hoperator hcomparison hvalue⟩
    · rintro ⟨_, field, _, rfl, ⟨t, rfl, hfield, rfl⟩, ⟨hin, ⟨hopening, hfirst, hmore, hclosing⟩⟩ |
        ⟨hlike, hvalue⟩ | ⟨hoperator, hcomparison, hvalue⟩⟩
      · exact IsPredicate.inList hfield hin hopening hfirst hmore hclosing
      · exact IsPredicate.like hfield hlike hvalue
      · exact IsPredicate.comparison hfield hoperator hcomparison hvalue
  · intro us
    constructor
    · rintro (⟨hfield, hin, hopening⟩ | ⟨hfield, hin, hopening, hfirst, hmore⟩ |
        ⟨hfield, hlike⟩ | ⟨hfield, hoperator, hcomparison⟩)
      · exact Or.inr ⟨[_], _, _, rfl, ⟨_, rfl, hfield, rfl⟩, .inList hin (.first hopening)⟩
      · exact Or.inr ⟨[_], _, _, rfl, ⟨_, rfl, hfield, rfl⟩,
          .inList hin (.more hopening hfirst hmore)⟩
      · exact Or.inr ⟨[_], _, _, rfl, ⟨_, rfl, hfield, rfl⟩, .like hlike⟩
      · exact Or.inr ⟨[_], _, _, rfl, ⟨_, rfl, hfield, rfl⟩, .comparison hoperator hcomparison⟩
    · rintro (hfalse | ⟨_, _, _, rfl, ⟨t, rfl, hfield, rfl⟩, ⟨hin, ⟨hopening⟩ |
        ⟨hopening, hfirst, hmore⟩⟩ | ⟨hlike⟩ | ⟨hoperator, hcomparison⟩⟩)
      · exact hfalse.elim
      · exact PredicateDue.inFirst hfield hin hopening
      · exact PredicateDue.inMore hfield hin hopening hfirst hmore
      · exact PredicateDue.like hfield hlike
      · exact PredicateDue.comparison hfield hoperator hcomparison

theorem readsSoql_whereClause :
    ReadsSoql (whereClause float) (IsWhere float) (NotKeyword ["WHERE", "AND"])
      (WhereDue float) := by
  have hand : ∀ {o : Option Token}, NotKeyword ["WHERE", "AND"] o →
      ∀ t ∈ o, isKeyword "AND" t = false :=
    fun h t ht => h t ht "AND" (by simp)
  have hmore : ReadsSoql (manyAfter (isKeyword "AND") (predicate float))
      (Many (isKeyword "AND") (IsPredicate float)) (NotKeyword ["WHERE", "AND"])
      (ManyDue (isKeyword "AND") (IsPredicate float) (PredicateDue float)) :=
    (readsSoql_predicate float).manyAfter (fun _ _ => trivial) (fun _ ho => ⟨trivial, hand ho⟩)
  have hpredicates : ReadsSoql (predicate float >>= fun first =>
      manyAfter (isKeyword "AND") (predicate float) >>= fun more => pure (first :: more))
      (Sequence (IsPredicate float) (fun first us all =>
        ∃ more, Many (isKeyword "AND") (IsPredicate float) us more ∧ all = first :: more))
      (NotKeyword ["WHERE", "AND"])
      (SequenceDue (IsPredicate float) (PredicateDue float) (fun _ =>
        ManyDue (isKeyword "AND") (IsPredicate float) (PredicateDue float))) :=
    (readsSoql_predicate float).bind (fun first => hmore.map (first :: ·))
      (fun _ _ => trivial) (fun _ _ => trivial)
  refine (hpredicates.branch (Reads.pure [] (NotKeyword ["WHERE", "AND"]))
    (fun _ ho => ⟨ho, ho⟩) ?_ ?_).congr ?_ (fun _ h => h) ?_
  · rintro us all rest ⟨rfl, _⟩ hrest t ht
    exact hrest t ht "WHERE" (by simp)
  · intro _ _ hfalse
    exact hfalse.elim
  · intro us all
    constructor
    · rintro (_ | ⟨ht, hfirst, hmany⟩)
      · exact Or.inr ⟨rfl, rfl⟩
      · exact Or.inl ⟨_, _, rfl, ht, _, _, _, rfl, hfirst, _, hmany, rfl⟩
    · rintro (⟨t, _, rfl, ht, us, first, vs, rfl, hfirst, more, hmany, rfl⟩ | ⟨rfl, rfl⟩)
      · exact IsWhere.predicates ht hfirst hmany
      · exact IsWhere.none
  · intro us
    constructor
    · rintro (⟨ht, hdue⟩ | ⟨ht, hfirst, hmany⟩)
      · exact Or.inl ⟨_, _, rfl, ht, Or.inl hdue⟩
      · exact Or.inl ⟨_, _, rfl, ht, Or.inr ⟨_, _, _, rfl, hfirst, hmany⟩⟩
    · rintro (⟨t, _, rfl, ht, hdue | ⟨us, first, vs, rfl, hfirst, hmany⟩⟩ | hfalse)
      · exact WhereDue.first ht hdue
      · exact WhereDue.more ht hfirst hmany
      · exact hfalse.elim

theorem readsSoql_sortDirection :
    ReadsSoql sortDirection IsDirection (NotKeyword ["ASC", "DESC"]) (fun _ => False) := by
  have hdesc : ReadsSoql (do
      if ← accept (isKeyword "DESC") then
        return SortDirection.desc
      else
        return SortDirection.asc)
      (fun us d => Opened (isKeyword "DESC") (fun us d => us = [] ∧ d = .desc) us d ∨
        (us = [] ∧ d = .asc)) (NotKeyword ["ASC", "DESC"])
      (fun us => OpenedDue (isKeyword "DESC") (fun _ => False) us ∨ False) := by
    refine (Reads.pure SortDirection.desc (NotKeyword ["ASC", "DESC"])).branch
      (Reads.pure SortDirection.asc _) (fun _ ho => ⟨ho, ho⟩) ?_ (fun hfalse => hfalse.elim)
    rintro us d rest ⟨rfl, _⟩ hrest t ht
    exact hrest t ht "DESC" (by simp)
  refine ((Reads.pure SortDirection.asc (NotKeyword ["ASC", "DESC"])).branch hdesc
    (fun _ ho => ⟨ho, ho⟩) ?_ ?_).congr ?_ (fun _ h => h) ?_
  · rintro us d rest (⟨t, _, rfl, ht, rfl, _⟩ | ⟨rfl, _⟩) hrest t' ht'
    · cases ht'
      exact isKeyword_ne ht (by decide)
    · exact hrest t' ht' "ASC" (by simp)
  · rintro us t (⟨_, _, _, _, hfalse⟩ | hfalse) <;> exact hfalse.elim
  · intro us d
    constructor
    · rintro (_ | ⟨ht⟩ | ⟨ht⟩)
      · exact Or.inr (Or.inr ⟨rfl, rfl⟩)
      · exact Or.inl ⟨_, _, rfl, ht, rfl, rfl⟩
      · exact Or.inr (Or.inl ⟨_, _, rfl, ht, rfl, rfl⟩)
    · rintro (⟨t, _, rfl, ht, rfl, rfl⟩ | ⟨t, _, rfl, ht, rfl, rfl⟩ | ⟨rfl, rfl⟩)
      · exact IsDirection.asc ht
      · exact IsDirection.desc ht
      · exact IsDirection.default
  · intro us
    constructor
    · intro hfalse
      exact hfalse.elim
    · rintro (⟨_, _, _, _, hfalse⟩ | ⟨_, _, _, _, hfalse⟩ | hfalse) <;> exact hfalse

theorem readsSoql_nullsOrder :
    ReadsSoql nullsOrder IsNulls (NotKeyword ["NULLS"]) (fun _ => False) := by
  have hwhich : ReadsSoql (expectKeyword ["FIRST", "LAST"] >>= fun token =>
      pure (if token.value = "FIRST" then NullsOrder.first else .last))
      (fun us nulls => ∃ t, (us = [t] ∧ ∃ value ∈ ["FIRST", "LAST"], isKeyword value t = true) ∧
        nulls = if t.value = "FIRST" then NullsOrder.first else .last)
      (fun _ => True) (fun _ => False) :=
    (readsSoql_expectKeyword ["FIRST", "LAST"]).map
      (fun token => if token.value = "FIRST" then NullsOrder.first else .last)
  have hvalue : ∀ {value : String} {t : Token}, isKeyword value t = true → t.value = value := by
    intro value t ht
    unfold isKeyword at ht
    rw [Bool.and_eq_true] at ht
    exact of_decide_eq_true ht.2
  refine (hwhich.branch (Reads.pure NullsOrder.last (NotKeyword ["NULLS"]))
    (fun _ ho => ⟨trivial, ho⟩) ?_ (fun hfalse => hfalse.elim)).congr ?_ (fun _ h => h) ?_
  · rintro us nulls rest ⟨rfl, _⟩ hrest t ht
    exact hrest t ht "NULLS" (by simp)
  · intro us nulls
    constructor
    · rintro (_ | ⟨hnulls, ht⟩ | ⟨hnulls, ht⟩)
      · exact Or.inr ⟨rfl, rfl⟩
      · exact Or.inl ⟨_, _, rfl, hnulls, _, ⟨rfl, "FIRST", by simp, ht⟩,
          by rw [if_pos (hvalue ht)]⟩
      · refine Or.inl ⟨_, _, rfl, hnulls, _, ⟨rfl, "LAST", by simp, ht⟩, ?_⟩
        rw [hvalue ht]
        rfl
    · rintro (⟨nullsToken, _, rfl, hnulls, t, ⟨rfl, value, hmem, ht⟩, rfl⟩ | ⟨rfl, rfl⟩)
      · simp only [List.mem_cons, List.not_mem_nil, or_false] at hmem
        rcases hmem with rfl | rfl
        · rw [if_pos (hvalue ht)]
          exact IsNulls.first hnulls ht
        · rw [hvalue ht]
          exact IsNulls.last hnulls ht
      · exact IsNulls.default
  · intro us
    constructor
    · intro hfalse
      exact hfalse.elim
    · rintro (⟨_, _, _, _, hfalse⟩ | hfalse) <;> exact hfalse

theorem readsSoql_orderClause :
    ReadsSoql orderClause IsOrder (NotKeyword ["ORDER", "ASC", "DESC", "NULLS"])
      (fun _ => False) := by
  let Follow := NotKeyword ["ORDER", "ASC", "DESC", "NULLS"]
  have hnulls : ∀ (field : String) (direction : SortDirection), ReadsSoql
      (nullsOrder >>= fun nulls => pure (some (⟨field, direction, nulls⟩ : OrderBy)))
      (fun us o => ∃ nulls, IsNulls us nulls ∧ o = some ⟨field, direction, nulls⟩) Follow
      (fun _ => False) :=
    fun field direction => (readsSoql_nullsOrder.map
      (fun nulls => some (⟨field, direction, nulls⟩ : OrderBy))).congr (fun _ _ => Iff.rfl)
        (fun o ho t ht value hvalue => ho t ht value (by simp at hvalue; simp [hvalue]))
        (fun _ => Iff.rfl)
  have hdirection : ∀ field : String, ReadsSoql
      (sortDirection >>= fun direction => nullsOrder >>= fun nulls =>
        pure (some (⟨field, direction, nulls⟩ : OrderBy)))
      (Sequence IsDirection (fun direction us o =>
        ∃ nulls, IsNulls us nulls ∧ o = some ⟨field, direction, nulls⟩)) Follow
      (SequenceDue IsDirection (fun _ => False) (fun _ _ => False)) := by
    intro field
    refine readsSoql_sortDirection.bind (hnulls field) ?_ (fun hfalse => hfalse.elim)
    rintro direction us o rest ⟨nulls, hforms, _⟩ hrest t ht value hvalue
    cases hforms with
    | default => exact hrest t ht value (by simp at hvalue; rcases hvalue with rfl | rfl <;> simp)
    | first hkeyword _ =>
        cases ht
        exact isKeyword_ne hkeyword (by rintro rfl; simp at hvalue)
    | last hkeyword _ =>
        cases ht
        exact isKeyword_ne hkeyword (by rintro rfl; simp at hvalue)
  refine (((readsSoql_expectKeyword ["BY"]).bind (fun _ => readsSoql_identifier.bind hdirection
    (fun _ _ => trivial) (fun _ _ => trivial)) (fun _ _ => trivial) (fun _ _ => trivial)).branch
      (Reads.pure none Follow) (fun _ ho => ⟨ho, ho⟩) ?_
        (fun hfalse => hfalse.elim)).congr ?_ (fun _ h => h) ?_
  · rintro us o rest ⟨rfl, _⟩ hrest t ht
    exact hrest t ht "ORDER" (by simp)
  · intro us o
    constructor
    · rintro (_ | ⟨horder, hby, hfield, hdir, hnul⟩)
      · exact Or.inr ⟨rfl, rfl⟩
      · exact Or.inl ⟨_, _, rfl, horder, [_], _, _, rfl, ⟨rfl, "BY", by simp, hby⟩,
          [_], _, _, rfl, ⟨_, rfl, hfield, rfl⟩, _, _, _, rfl, hdir, _, hnul, rfl⟩
    · rintro (⟨order, _, rfl, horder, _, by_, _, rfl, ⟨rfl, value, hmem, hby⟩, _, name, _, rfl,
        ⟨field, rfl, hfield, rfl⟩, us, direction, vs, rfl, hdir, nulls, hnul, rfl⟩ | ⟨rfl, rfl⟩)
      · rw [List.mem_singleton.mp hmem] at hby
        change IsOrder (order :: by_ :: field :: (us ++ vs)) _
        exact IsOrder.orderBy horder hby hfield hdir hnul
      · exact IsOrder.none
  · intro us
    constructor
    · intro hfalse
      exact hfalse.elim
    · rintro (⟨_, _, _, _, hfalse | ⟨_, _, _, _, _, hfalse | ⟨_, _, _, _, _, hfalse |
        ⟨_, _, _, _, _, hfalse⟩⟩⟩⟩ | hfalse) <;> exact hfalse

theorem readsSoql_limitClause :
    ReadsSoql (limitClause float) (IsLimit float) (NotKeyword ["LIMIT"])
      (fun us => ∃ t, us = [t] ∧ isKeyword "LIMIT" t = true) := by
  have hlimit : ReadsSoql (integer float "LIMIT" >>= fun limit => pure (some limit))
      (fun us o => ∃ n : Nat, (∃ t, us = [t] ∧ Spells float t (.integer n)) ∧ o = some n)
      (fun _ => True) (fun us => us = []) :=
    (readsSoql_integer float "LIMIT").map some
  refine (hlimit.branch (Reads.pure none (NotKeyword ["LIMIT"])) (fun _ ho => ⟨trivial, ho⟩) ?_
    (fun hfalse => hfalse.elim)).congr ?_ (fun _ h => h) ?_
  · rintro us o rest ⟨rfl, _⟩ hrest t ht
    exact hrest t ht "LIMIT" (by simp)
  · intro us o
    constructor
    · rintro (_ | ⟨ht, hvalue⟩)
      · exact Or.inr ⟨rfl, rfl⟩
      · exact Or.inl ⟨_, _, rfl, ht, _, ⟨_, rfl, hvalue⟩, rfl⟩
    · rintro (⟨t, _, rfl, ht, n, ⟨right, rfl, hvalue⟩, rfl⟩ | ⟨rfl, rfl⟩)
      · exact IsLimit.limit ht hvalue
      · exact IsLimit.none
  · intro us
    constructor
    · rintro ⟨t, rfl, ht⟩
      exact Or.inl ⟨t, _, rfl, ht, rfl⟩
    · rintro (⟨t, _, rfl, ht, rfl⟩ | hfalse)
      · exact ⟨t, rfl, ht⟩
      · exact hfalse.elim

theorem readsSoql_offsetClause :
    ReadsSoql (offsetClause float) (IsOffset float) (NotKeyword ["OFFSET"])
      (fun us => ∃ t, us = [t] ∧ isKeyword "OFFSET" t = true) := by
  refine ((readsSoql_integer float "OFFSET").branch (Reads.pure 0 (NotKeyword ["OFFSET"]))
    (fun _ ho => ⟨trivial, ho⟩) ?_ (fun hfalse => hfalse.elim)).congr ?_ (fun _ h => h) ?_
  · rintro us n rest ⟨rfl, _⟩ hrest t ht
    exact hrest t ht "OFFSET" (by simp)
  · intro us n
    constructor
    · rintro (_ | ⟨ht, hvalue⟩)
      · exact Or.inr ⟨rfl, rfl⟩
      · exact Or.inl ⟨_, _, rfl, ht, _, rfl, hvalue⟩
    · rintro (⟨t, _, rfl, ht, right, rfl, hvalue⟩ | ⟨rfl, rfl⟩)
      · exact IsOffset.offset ht hvalue
      · exact IsOffset.none
  · intro us
    constructor
    · rintro ⟨t, rfl, ht⟩
      exact Or.inl ⟨t, _, rfl, ht, rfl⟩
    · rintro (⟨t, _, rfl, ht, rfl⟩ | hfalse)
      · exact ⟨t, rfl, ht⟩
      · exact hfalse.elim

/-! ## The clauses of a query, from the last to the first -/

/-- The next token opens one of the clauses, if there is one. -/
def OpensClause (values : List String) (o : Option Token) : Prop :=
  ∀ t ∈ o, ∃ value ∈ values, isKeyword value t = true

theorem OpensClause.notKeyword {values excluded : List String} {o : Option Token}
    (h : OpensClause values o) (hdisjoint : ∀ value ∈ values, value ∉ excluded) :
    NotKeyword excluded o := by
  intro t ht value hvalue
  obtain ⟨opening, hmem, hopens⟩ := h t ht
  exact isKeyword_ne hopens (fun heq => hdisjoint opening hmem (heq ▸ hvalue))

theorem opensClause_none (values : List String) : OpensClause values none := by
  intro t ht
  cases ht

theorem OpensClause.cons {values : List String} {o : Option Token} (value : String)
    (h : OpensClause values o) : OpensClause (value :: values) o := by
  intro t ht
  obtain ⟨opening, hmem, hopens⟩ := h t ht
  exact ⟨opening, List.mem_cons_of_mem _ hmem, hopens⟩

theorem opensClause_some {value : String} {values : List String} {t : Token}
    (h : isKeyword value t = true) : OpensClause (value :: values) (some t) := by
  intro t' ht'
  cases ht'
  exact ⟨value, List.mem_cons_self, h⟩

variable {float}

theorem IsOffset.opensClause {us : List Token} {n : Nat} {rest : List Token}
    {values : List String} (h : IsOffset float us n) (hrest : OpensClause values rest.head?) :
    OpensClause ("OFFSET" :: values) (us ++ rest).head? := by
  cases h with
  | none => exact hrest.cons _
  | offset ht _ => exact opensClause_some ht

theorem IsLimit.opensClause {us : List Token} {n : Option Nat} {rest : List Token}
    {values : List String} (h : IsLimit float us n) (hrest : OpensClause values rest.head?) :
    OpensClause ("LIMIT" :: values) (us ++ rest).head? := by
  cases h with
  | none => exact hrest.cons _
  | limit ht _ => exact opensClause_some ht

theorem IsOrder.opensClause {us : List Token} {o : Option OrderBy} {rest : List Token}
    {values : List String} (h : IsOrder us o) (hrest : OpensClause values rest.head?) :
    OpensClause ("ORDER" :: values) (us ++ rest).head? := by
  cases h with
  | none => exact hrest.cons _
  | orderBy horder _ _ _ _ => exact opensClause_some horder

theorem IsWhere.opensClause {us : List Token} {predicates : List (Predicate F)}
    {rest : List Token} {values : List String} (h : IsWhere float us predicates)
    (hrest : OpensClause values rest.head?) :
    OpensClause ("WHERE" :: values) (us ++ rest).head? := by
  cases h with
  | none => exact hrest.cons _
  | predicates ht _ _ => exact opensClause_some ht

variable (float)

/-- `OFFSET` and the end of the query. -/
theorem readsSoql_offsetTail {α : Type} (f : Nat → α) :
    ReadsSoql (offsetClause float >>= fun offset =>
      endOfInput (fun t : Token => SoqlError.unexpected t.value t.position) >>= fun _ =>
        pure (f offset))
      (fun us a => ∃ n, IsOffset float us n ∧ a = f n) (fun o => o = none)
      (fun us => ∃ t, us = [t] ∧ isKeyword "OFFSET" t = true) := by
  have hend : ∀ offset : Nat, ReadsSoql
      (endOfInput (fun t : Token => SoqlError.unexpected t.value t.position) >>= fun _ =>
        pure (f offset)) (fun us a => ∃ _ : Unit, us = [] ∧ a = f offset) (fun o => o = none)
      (fun _ => False) := by
    intro offset
    have hunexpected : ∀ t : Token,
        SoqlError.unexpected t.value t.position ≠ SoqlError.integerTooLong := by
      intro t h
      cases h
    exact (Reads.endOfInput hunexpected).map (fun _ => f offset)
  refine ((readsSoql_offsetClause float).bind hend ?_ (fun hfalse => hfalse.elim)).congr
    ?_ (fun _ h => h) ?_
  · rintro n us a rest ⟨_, rfl, _⟩ hrest
    change NotKeyword _ rest.head?
    rw [hrest]
    exact (opensClause_none []).notKeyword (by simp)
  · intro us a
    constructor
    · rintro ⟨n, hoffset, rfl⟩
      exact ⟨us, n, [], by simp, hoffset, (), rfl, rfl⟩
    · rintro ⟨before, n, after, rfl, hoffset, _, rfl, rfl⟩
      rw [List.append_nil]
      exact ⟨n, hoffset, rfl⟩
  · intro us
    constructor
    · intro hdue
      exact Or.inl hdue
    · rintro (hdue | ⟨_, _, _, _, _, hfalse⟩)
      · exact hdue
      · exact hfalse.elim

/-- `LIMIT`, `OFFSET` and the end of the query. -/
theorem readsSoql_limitTail {α : Type} (f : Option Nat → Nat → α) :
    ReadsSoql (limitClause float >>= fun limit => offsetClause float >>= fun offset =>
      endOfInput (fun t : Token => SoqlError.unexpected t.value t.position) >>= fun _ =>
        pure (f limit offset))
      (fun us a => ∃ limit offset l n, us = limit ++ offset ∧ IsLimit float limit l ∧
        IsOffset float offset n ∧ a = f l n)
      (fun o => o = none)
      (fun us => (∃ t, us = [t] ∧ isKeyword "LIMIT" t = true) ∨
        ∃ limit l t, us = limit ++ [t] ∧ IsLimit float limit l ∧ isKeyword "OFFSET" t = true) := by
  refine ((readsSoql_limitClause float).bind (fun limit => readsSoql_offsetTail float (f limit))
    ?_ ?_).congr ?_ (fun _ h => h) ?_
  · rintro l us a rest ⟨n, hoffset, _⟩ hrest
    apply (hoffset.opensClause (hrest ▸ opensClause_none [])).notKeyword
    simp
  · rintro l us t ⟨t', rfl, ht'⟩ _
    have hnext : OpensClause ("OFFSET" :: []) (([t'] ++ [t]).head?) := opensClause_some ht'
    exact hnext.notKeyword (by simp)
  · intro us a
    constructor
    · rintro ⟨limit, offset, l, n, rfl, hlimit, hoffset, rfl⟩
      exact ⟨limit, l, offset, rfl, hlimit, n, hoffset, rfl⟩
    · rintro ⟨limit, l, offset, rfl, hlimit, n, hoffset, rfl⟩
      exact ⟨limit, offset, l, n, rfl, hlimit, hoffset, rfl⟩
  · intro us
    constructor
    · rintro (hlimit | ⟨limit, l, t, rfl, hlimit, ht⟩)
      · exact Or.inl hlimit
      · exact Or.inr ⟨limit, l, [t], rfl, hlimit, t, rfl, ht⟩
    · rintro (hlimit | ⟨limit, l, _, rfl, hlimit, t, rfl, ht⟩)
      · exact Or.inl hlimit
      · exact Or.inr ⟨limit, l, t, rfl, hlimit, ht⟩

/-- `ORDER BY` and what follows it. -/
theorem readsSoql_orderTail {α : Type} (f : Option OrderBy → Option Nat → Nat → α) :
    ReadsSoql (orderClause >>= fun orderBy => limitClause float >>= fun limit =>
      offsetClause float >>= fun offset =>
      endOfInput (fun t : Token => SoqlError.unexpected t.value t.position) >>= fun _ =>
        pure (f orderBy limit offset))
      (fun us a => ∃ order limit offset o l n, us = order ++ (limit ++ offset) ∧
        IsOrder order o ∧ IsLimit float limit l ∧ IsOffset float offset n ∧ a = f o l n)
      (fun o => o = none)
      (fun us => ∃ order o vs, us = order ++ vs ∧ IsOrder order o ∧
        ((∃ t, vs = [t] ∧ isKeyword "LIMIT" t = true) ∨
          ∃ limit l t, vs = limit ++ [t] ∧ IsLimit float limit l ∧
            isKeyword "OFFSET" t = true)) := by
  refine (readsSoql_orderClause.bind (fun orderBy => readsSoql_limitTail float (f orderBy))
    ?_ ?_).congr ?_ (fun _ h => h) ?_
  · rintro o us a rest ⟨limit, offset, l, n, rfl, hlimit, hoffset, _⟩ hrest
    rw [List.append_assoc]
    apply (hlimit.opensClause
      (hoffset.opensClause (hrest ▸ opensClause_none []))).notKeyword
    simp
  · rintro o us t (⟨t', rfl, ht'⟩ | ⟨limit, l, t', rfl, hlimit, ht'⟩) _
    · have hnext : OpensClause ("LIMIT" :: []) (([t'] ++ [t]).head?) := opensClause_some ht'
      exact hnext.notKeyword (by simp)
    · rw [List.append_assoc]
      have hnext : OpensClause ("OFFSET" :: []) (([t'] ++ [t]).head?) := opensClause_some ht'
      exact (hlimit.opensClause hnext).notKeyword (by simp)
  · intro us a
    constructor
    · rintro ⟨order, limit, offset, o, l, n, rfl, horder, hlimit, hoffset, rfl⟩
      exact ⟨order, o, _, rfl, horder, limit, offset, l, n, rfl, hlimit, hoffset, rfl⟩
    · rintro ⟨order, o, _, rfl, horder, limit, offset, l, n, rfl, hlimit, hoffset, rfl⟩
      exact ⟨order, limit, offset, o, l, n, rfl, horder, hlimit, hoffset, rfl⟩
  · intro us
    constructor
    · rintro ⟨order, o, vs, rfl, horder, hdue⟩
      exact Or.inr ⟨order, o, vs, rfl, horder, hdue⟩
    · rintro (hfalse | ⟨order, o, vs, rfl, horder, hdue⟩)
      · exact hfalse.elim
      · exact ⟨order, o, vs, rfl, horder, hdue⟩

/-- The clauses behind the name of the object. -/
theorem readsSoql_clauses {α : Type}
    (f : List (Predicate F) → Option OrderBy → Option Nat → Nat → α) :
    ReadsSoql (whereClause float >>= fun predicates => orderClause >>= fun orderBy =>
      limitClause float >>= fun limit => offsetClause float >>= fun offset =>
      endOfInput (fun t : Token => SoqlError.unexpected t.value t.position) >>= fun _ =>
        pure (f predicates orderBy limit offset))
      (fun us a => ∃ where_ order limit offset ps o l n,
        us = where_ ++ (order ++ (limit ++ offset)) ∧ IsWhere float where_ ps ∧
        IsOrder order o ∧ IsLimit float limit l ∧ IsOffset float offset n ∧ a = f ps o l n)
      (fun o => o = none) (ClausesDue float) := by
  refine ((readsSoql_whereClause float).bind
    (fun predicates => readsSoql_orderTail float (f predicates)) ?_ ?_).congr
      ?_ (fun _ h => h) ?_
  · rintro ps us a rest ⟨order, limit, offset, o, l, n, rfl, horder, hlimit, hoffset, _⟩ hrest
    rw [List.append_assoc, List.append_assoc]
    apply (horder.opensClause (hlimit.opensClause
      (hoffset.opensClause (hrest ▸ opensClause_none [])))).notKeyword
    simp
  · rintro ps us t ⟨order, o, vs, rfl, horder, hdue⟩ _
    rw [List.append_assoc]
    rcases hdue with ⟨t', rfl, ht'⟩ | ⟨limit, l, t', rfl, hlimit, ht'⟩
    · have hnext : OpensClause ("LIMIT" :: []) (([t'] ++ [t]).head?) := opensClause_some ht'
      exact (horder.opensClause hnext).notKeyword (by simp)
    · rw [List.append_assoc]
      have hnext : OpensClause ("OFFSET" :: []) (([t'] ++ [t]).head?) := opensClause_some ht'
      exact (horder.opensClause (hlimit.opensClause hnext)).notKeyword (by simp)
  · intro us a
    constructor
    · rintro ⟨where_, order, limit, offset, ps, o, l, n, rfl, hwhere, horder, hlimit, hoffset, rfl⟩
      exact ⟨where_, ps, _, rfl, hwhere, order, limit, offset, o, l, n, rfl, horder, hlimit,
        hoffset, rfl⟩
    · rintro ⟨where_, ps, _, rfl, hwhere, order, limit, offset, o, l, n, rfl, horder, hlimit,
        hoffset, rfl⟩
      exact ⟨where_, order, limit, offset, ps, o, l, n, rfl, hwhere, horder, hlimit, hoffset, rfl⟩
  · intro us
    constructor
    · rintro (hdue | ⟨hwhere, horder, ht⟩ | ⟨hwhere, horder, hlimit, ht⟩)
      · exact Or.inl hdue
      · exact Or.inr ⟨_, _, _, rfl, hwhere, _, _, _, rfl, horder, Or.inl ⟨_, rfl, ht⟩⟩
      · exact Or.inr ⟨_, _, _, rfl, hwhere, _, _, _, rfl, horder,
          Or.inr ⟨_, _, _, rfl, hlimit, ht⟩⟩
    · rintro (hdue | ⟨where_, ps, _, rfl, hwhere, order, o, _, rfl, horder, ⟨t, rfl, ht⟩ |
        ⟨limit, l, t, rfl, hlimit, ht⟩⟩)
      · exact ClausesDue.where_ hdue
      · exact ClausesDue.limit hwhere horder ht
      · exact ClausesDue.offset hwhere horder hlimit ht

/-- The parser reads exactly the queries. -/
theorem readsSoql_parse :
    ReadsSoql (parse float) (IsQuery float) (fun o => o = none) (LiteralDue float) := by
  have hobject : ∀ fields : List String, ReadsSoql (identifier >>= fun objectName =>
      whereClause float >>= fun predicates => orderClause >>= fun orderBy =>
      limitClause float >>= fun limit => offsetClause float >>= fun offset =>
      endOfInput (fun t : Token => SoqlError.unexpected t.value t.position) >>= fun _ =>
        pure (⟨fields, objectName, predicates, orderBy, limit, offset⟩ : SelectQuery F)) _ _ _ :=
    fun fields => readsSoql_identifier.bind
      (fun objectName => readsSoql_clauses float (fun predicates orderBy limit offset =>
        (⟨fields, objectName, predicates, orderBy, limit, offset⟩ : SelectQuery F)))
      (fun _ _ => trivial) (fun _ _ => trivial)
  have hfrom : ∀ fields : List String, ReadsSoql (expectKeyword ["FROM"] >>= fun _ =>
      identifier >>= fun objectName =>
      whereClause float >>= fun predicates => orderClause >>= fun orderBy =>
      limitClause float >>= fun limit => offsetClause float >>= fun offset =>
      endOfInput (fun t : Token => SoqlError.unexpected t.value t.position) >>= fun _ =>
        pure (⟨fields, objectName, predicates, orderBy, limit, offset⟩ : SelectQuery F)) _ _ _ :=
    fun fields => (readsSoql_expectKeyword ["FROM"]).bind (fun _ => hobject fields)
      (fun _ _ => trivial) (fun _ _ => trivial)
  have hcomma : ∀ {t : Token} {value : String}, isKeyword value t = true →
      isKind .comma t = false :=
    fun ht => isKind_ne (isKind_of_isKeyword ht) (by decide)
  refine ((readsSoql_expectKeyword ["SELECT"]).bind (fun _ => readsSoql_fieldList.bind hfrom
    ?_ ?_) (fun _ _ => trivial) (fun _ _ => trivial)).congr ?_ (fun _ h => h) ?_
  · rintro fields us q rest ⟨_, t, _, rfl, ⟨rfl, value, _, ht⟩, _⟩ _ t' ht'
    cases ht'
    exact hcomma ht
  · rintro fields us t (hfalse | ⟨_, t', _, rfl, ⟨rfl, value, _, ht'⟩, _⟩) _ t'' ht''
    · exact hfalse.elim
    · cases ht''
      exact hcomma ht'
  · intro us q
    constructor
    · rintro ⟨hselect, hfields, hfrom', hobject', hname, hwhere, horder, hlimit, hoffset⟩
      obtain ⟨fields, objectName, predicates, orderBy, limit, offset⟩ := q
      exact ⟨[_], _, _, rfl, ⟨rfl, "SELECT", by simp, hselect⟩, _, _, _, rfl, hfields,
        [_], _, _, rfl, ⟨rfl, "FROM", by simp, hfrom'⟩, [_], _, _, rfl, ⟨_, rfl, hobject', hname⟩,
        _, _, _, _, _, _, _, _, rfl, hwhere, horder, hlimit, hoffset, rfl⟩
    · rintro ⟨_, select, _, rfl, ⟨rfl, value, hmem, hselect⟩, fields, names, _, rfl, hfields,
        _, from_, _, rfl, ⟨rfl, value', hmem', hfrom'⟩, _, name, _, rfl,
        ⟨object, rfl, hobject', rfl⟩, where_, order, limit, offset, ps, o, l, n, rfl,
        hwhere, horder, hlimit, hoffset, rfl⟩
      rw [List.mem_singleton.mp hmem] at hselect
      rw [List.mem_singleton.mp hmem'] at hfrom'
      change IsQuery float (select :: (fields ++ from_ :: object ::
        (where_ ++ (order ++ (limit ++ offset))))) _
      exact IsQuery.query hselect hfields hfrom' hobject' rfl hwhere horder hlimit hoffset
  · intro us
    constructor
    · rintro ⟨hselect, hfields, hfrom', hobject', hdue⟩
      exact Or.inr ⟨[_], _, _, rfl, ⟨rfl, "SELECT", by simp, hselect⟩,
        Or.inr ⟨_, _, _, rfl, hfields, Or.inr ⟨[_], _, _, rfl, ⟨rfl, "FROM", by simp, hfrom'⟩,
          Or.inr ⟨[_], _, _, rfl, ⟨_, rfl, hobject', rfl⟩, hdue⟩⟩⟩⟩
    · rintro (hfalse | ⟨_, select, _, rfl, ⟨rfl, value, hmem, hselect⟩, hfalse |
        ⟨fields, names, _, rfl, hfields, hfalse | ⟨_, from_, _, rfl, ⟨rfl, value', hmem', hfrom'⟩,
        hfalse | ⟨_, name, us, rfl, ⟨object, rfl, hobject', rfl⟩, hdue⟩⟩⟩⟩)
      · exact hfalse.elim
      · exact hfalse.elim
      · exact hfalse.elim
      · exact hfalse.elim
      · rw [List.mem_singleton.mp hmem] at hselect
        rw [List.mem_singleton.mp hmem'] at hfrom'
        change LiteralDue float (select :: (fields ++ from_ :: object :: us))
        exact LiteralDue.clauses hselect hfields hfrom' hobject' hdue

end Literals

/-! ## `parse_soql` against the renderings of queries -/

section Renderings

variable {F : Type} (float : String → F)

/-- The parser accepts exactly the renderings of each query, and raises syntax
errors alone. -/
def AcceptsRenderings (source : String) : Prop :=
  (∀ q, parseSoql float source = .ok q ↔ Renders float source q) ∧
    ∀ e, parseSoql float source = .error e → e.isSyntaxError = true

theorem isSyntaxError_of_ne {e : SoqlError} (h : e ≠ .integerTooLong) :
    e.isSyntaxError = true := by
  cases e <;> first | rfl | exact absurd rfl h

/-- What `parse_soql` does with the tokens of a text. -/
theorem parseSoql_of_tokenize {source : String} {ts : List Token}
    (h : tokenize source = .ok ts) :
    parseSoql float source = ((parse float).run ts).map Prod.fst := by
  unfold parseSoql
  rw [h]
  change (parse float).run ts >>= _ = _
  cases (parse float).run ts <;> rfl

theorem renders_iff {source : String} {ts : List Token} (h : tokenize source = .ok ts)
    (q : SelectQuery F) : Renders float source q ↔ IsQuery float ts q := by
  constructor
  · rintro ⟨ts', hwritten, hquery⟩
    rw [(tokenize_eq_ok_iff source ts').mpr hwritten] at h
    cases h
    exact hquery
  · intro hquery
    exact ⟨ts, (tokenize_eq_ok_iff source ts).mp h, hquery⟩

theorem ends_parse : Ends (parse float) :=
  Ends.bind fun _ => Ends.bind fun _ => Ends.bind fun _ => Ends.bind fun _ =>
    Ends.bind fun _ => Ends.bind fun _ => Ends.bind fun _ => Ends.bind fun _ =>
      Ends.endOfInput _ _

/-- On tokens with no long number where a literal is due the parser accepts
exactly the queries. -/
theorem run_parse_eq_ok_iff {ts : List Token}
    (hclean : Clean LongNumeral (LiteralDue float) ts) (q : SelectQuery F) :
    ((parse float).run ts).map Prod.fst = .ok q ↔ IsQuery float ts q :=
  (readsSoql_parse float).accepts_iff (ends_parse float) rfl hclean q

/-- `parse_soql` accepts exactly the renderings of queries, and raises syntax
errors on all other texts, exactly when no integer of more than 4300 digits
stands where a literal is due. -/
theorem parseSoql_acceptsRenderings_iff (source : String) :
    AcceptsRenderings float source ↔
      ∀ before t after, Written 0 source.toList (before ++ t :: after) →
        LiteralDue float before → ¬ LongNumeral t := by
  cases htokens : tokenize source with
  | error e =>
      have hnever : ∀ ts, ¬ Written 0 source.toList ts := by
        intro ts hwritten
        rw [(tokenize_eq_ok_iff source ts).mpr hwritten] at htokens
        cases htokens
      have hparse : parseSoql float source = .error e := by
        unfold parseSoql
        rw [htokens]
        rfl
      constructor
      · intro _ before t after hwritten
        exact absurd hwritten (hnever _)
      · intro _
        refine ⟨?_, ?_⟩
        · intro q
          rw [hparse]
          constructor
          · intro h
            cases h
          · rintro ⟨ts, hwritten, _⟩
            exact absurd hwritten (hnever ts)
        · intro e' h
          rw [hparse] at h
          cases h
          exact isSyntaxError_of_tokenizeFrom htokens
  | ok ts =>
      have hclean_iff : Clean LongNumeral (LiteralDue float) ts ↔
          ∀ before t after, Written 0 source.toList (before ++ t :: after) →
            LiteralDue float before → ¬ LongNumeral t := by
        constructor
        · intro h before t after hwritten
          rw [(tokenize_eq_ok_iff source _).mpr hwritten] at htokens
          cases htokens
          exact h before t after rfl
        · rintro h before t after rfl
          exact h before t after ((tokenize_eq_ok_iff source _).mp htokens)
      rw [← hclean_iff]
      unfold AcceptsRenderings
      rw [parseSoql_of_tokenize float htokens]
      constructor
      · rintro ⟨_, herrors⟩
        by_contra hnot
        have hfault := (readsSoql_parse float).fault_of_not_clean hnot
        have hbad := herrors .integerTooLong (by rw [hfault]; rfl)
        cases hbad
      · intro hclean
        refine ⟨?_, ?_⟩
        · intro q
          rw [run_parse_eq_ok_iff float hclean q, renders_iff float htokens q]
        · intro e h
          apply isSyntaxError_of_ne
          rintro rfl
          cases hrun : (parse float).run ts with
          | error e =>
              rw [hrun] at h
              cases h
              exact (readsSoql_parse float).ne_fault hclean hrun
          | ok r =>
              rw [hrun] at h
              cases h

/-! ### A limit that `int` refuses to read -/

/-- `SELECT a FROM b LIMIT`, up to a word of digits. -/
def limitTokens (digits : List Char) : List Token :=
  [⟨.keyword, "SELECT", 0⟩, ⟨.word, "a", 7⟩, ⟨.keyword, "FROM", 9⟩, ⟨.word, "b", 14⟩,
    ⟨.keyword, "LIMIT", 16⟩, ⟨.word, String.ofList digits, 22⟩]

/-- One more token, between two blanks. -/
theorem Written.before {n m : Nat} {text rest : List Char} {t : Token} {ts : List Token}
    (h : Written m (' ' :: rest) ts) (htext : Spelling t text) (hposition : t.position = n + 1)
    (hm : n + (1 + text.length) = m) :
    Written n (' ' :: (text ++ ' ' :: rest)) (t :: ts) := by
  subst hm
  exact Written.cons (by decide : ∀ c ∈ [' '], isspace c = true) htext hposition h
    (fun _ _ _ => ⟨' ', rfl, rfl⟩)

theorem tokenize_limit {digits : List Char} (hne : digits ≠ [])
    (hdigits : ∀ c ∈ digits, c.isDigit = true) :
    tokenize ("SELECT a FROM b LIMIT " ++ String.ofList digits) = .ok (limitTokens digits) := by
  have hchars : ∀ c ∈ digits, endsWord c = false := by
    intro c hc
    by_contra hends
    rw [Bool.not_eq_false] at hends
    have hdigit : c.isDigit = false :=
      of_endsWord hends (fun d => d.isDigit = false) (by decide)
    rw [hdigits c hc] at hdigit
    cases hdigit
  have hkeywords : ∀ word ∈ keywords, word.toList ≠ [] ∧
      ∀ c ∈ word.toList, c.isDigit = false ∧ c ≠ '-' := by
    decide
  have hupper : upper digits ∉ keywords := fun hmem =>
    upper_ne_of_digits (fun c hc => Or.inl (hdigits c hc)) _ (hkeywords _ hmem).1
      (hkeywords _ hmem).2 rfl
  have hspace : ∀ c ∈ [' '], isspace c = true := by decide
  have hlast : Written 21 (' ' :: (digits ++ [])) [⟨.word, String.ofList digits, 22⟩] :=
    Written.cons hspace (Spelling.word hne hchars hupper 22) rfl
      (Written.nil (List.forall_mem_nil _)) (fun t' ht' => by cases ht')
  rw [List.append_nil] at hlast
  have hlimit : Written 15 (' ' :: ("LIMIT".toList ++ ' ' :: digits)) _ :=
    hlast.before (Spelling.keyword (by decide) 16) rfl rfl
  have hobject : Written 13 (' ' :: (['b'] ++ ' ' :: ("LIMIT".toList ++ ' ' :: digits))) _ :=
    hlimit.before (Spelling.word (by simp) (by decide) (by decide) 14) rfl rfl
  have hfrom : Written 8 (' ' :: ("FROM".toList ++
      ' ' :: (['b'] ++ ' ' :: ("LIMIT".toList ++ ' ' :: digits)))) _ :=
    hobject.before (Spelling.keyword (by decide) 9) rfl rfl
  have hfield : Written 6 (' ' :: (['a'] ++ ' ' :: ("FROM".toList ++
      ' ' :: (['b'] ++ ' ' :: ("LIMIT".toList ++ ' ' :: digits))))) _ :=
    hfrom.before (Spelling.word (by simp) (by decide) (by decide) 7) rfl rfl
  have hselect : Written 0 ([] ++ ("SELECT".toList ++ ' ' :: (['a'] ++ ' ' :: ("FROM".toList ++
      ' ' :: (['b'] ++ ' ' :: ("LIMIT".toList ++ ' ' :: digits)))))) _ :=
    Written.cons (List.forall_mem_nil _) (Spelling.keyword (by decide) 0) rfl hfield
      (fun _ _ _ => ⟨' ', rfl, rfl⟩)
  have htext : ("SELECT a FROM b LIMIT " ++ String.ofList digits).toList =
      "SELECT a FROM b LIMIT ".toList ++ digits := by
    simp [String.toList_append]
  have htokens : limitTokens digits = [⟨.keyword, upper "SELECT".toList, 0⟩,
      ⟨.word, String.ofList ['a'], 7⟩, ⟨.keyword, upper "FROM".toList, 9⟩,
      ⟨.word, String.ofList ['b'], 14⟩, ⟨.keyword, upper "LIMIT".toList, 16⟩,
      ⟨.word, String.ofList digits, 22⟩] := by
    have hselect : upper "SELECT".toList = "SELECT" := by decide
    have hfrom : upper "FROM".toList = "FROM" := by decide
    have hlimit : upper "LIMIT".toList = "LIMIT" := by decide
    rw [hselect, hfrom, hlimit]
    rfl
  rw [tokenize_eq_ok_iff, htext, htokens]
  exact hselect

/-- A query with such a limit is refused by something else than a syntax error. -/
theorem not_acceptsRenderings_of_long {digits : List Char}
    (hlong : intMaxStrDigits < digits.length) (hdigits : ∀ c ∈ digits, c.isDigit = true) :
    ¬ AcceptsRenderings float ("SELECT a FROM b LIMIT " ++ String.ofList digits) := by
  have hne : digits ≠ [] := by
    rintro rfl
    cases hlong
  rintro ⟨_, herrors⟩
  have hdue : LiteralDue float [⟨.keyword, "SELECT", 0⟩, ⟨.word, "a", 7⟩, ⟨.keyword, "FROM", 9⟩,
      ⟨.word, "b", 14⟩, ⟨.keyword, "LIMIT", 16⟩] :=
    LiteralDue.clauses rfl (IsFieldList.names ⟨⟨.word, "a", 7⟩, rfl, rfl, rfl⟩ Many.nil) rfl rfl
      (ClausesDue.limit IsWhere.none IsOrder.none rfl)
  have hnumeral : LongNumeral ⟨.word, String.ofList digits, 22⟩ := by
    refine ⟨rfl, ?_, ?_⟩
    · rw [String.toList_ofList]
      exact (wordSort_eq_integer_iff digits).mpr ⟨digits, hne, hdigits, Or.inl rfl⟩
    · rw [String.toList_ofList, TooManyDigits,
        List.countP_eq_length.mpr fun c hc => isDecimalDigit_of_isDigit (hdigits c hc)]
      exact hlong
  have hdirty : ¬ Clean LongNumeral (LiteralDue float) (limitTokens digits) :=
    fun hclean => hclean _ _ [] rfl hdue hnumeral
  have hfault := (readsSoql_parse float).fault_of_not_clean hdirty
  have hbad := herrors .integerTooLong (by
    rw [parseSoql_of_tokenize float (tokenize_limit hne hdigits), hfault]
    rfl)
  cases hbad

end Renderings

/-- The shortest limit that is too long for `int`. -/
theorem parseSoql_refuses_long_limit :
    ¬ AcceptsRenderings (fun text : String => text)
      ("SELECT a FROM b LIMIT " ++ String.ofList (List.replicate 4301 '0')) := by
  apply not_acceptsRenderings_of_long
  · rw [List.length_replicate]
    decide
  · intro c hc
    rw [List.eq_of_mem_replicate hc]
    rfl

end FakeForce
end Northwind
