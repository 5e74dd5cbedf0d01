import Northwind.FakeForce.Catalog
import Northwind.FakeForce.Soql

/-!
# WHERE clauses and what they select

`_where` makes one clause of every predicate.  Text is compared without regard to
case where the field is a text field and the literal a string; a comparison with
null becomes IS NULL.  An IN list looks at all of its literals at once, and knows
no null.

A clause is true, false or unknown of a row, and selects it where it is true.
How the database compares two values of any types is a parameter.
-/

namespace Northwind
namespace FakeForce

/-! ## Clauses -/

/-- `_quote_identifier` -/
def quoteIdentifier (name : String) : String :=
  "\"" ++ name.replace "\"" "\"\"" ++ "\""

def Literal.isText {F : Type} : Literal F → Bool
  | .text _ => true
  | _ => false

def Literal.isNull {F : Type} : Literal F → Bool
  | .null => true
  | _ => false

theorem Literal.isNull_iff {F : Type} {value : Literal F} : value.isNull = true ↔ value = .null := by
  cases value <;> simp [isNull]

/-- A clause of the WHERE list. -/
inductive Clause (F : Type) where
  | foldedIn (field : String) (values : List (Literal F))
  | plainIn (field : String) (values : List (Literal F))
  | isNull (field : String)
  | isNotNull (field : String)
  | insensitiveLike (field : String) (value : Literal F)
  | folded (field : String) (operator : ComparisonOperator) (value : Literal F)
  | plain (field : String) (operator : ComparisonOperator) (value : Literal F)
deriving DecidableEq

namespace Clause

variable {F : Type}

/-- The text of a clause. -/
def sql : Clause F → String
  | foldedIn field values =>
      "lower(" ++ quoteIdentifier field ++ ") IN (" ++
        ", ".intercalate (values.map fun _ => "lower(?)") ++ ")"
  | plainIn field values =>
      quoteIdentifier field ++ " IN (" ++ ", ".intercalate (values.map fun _ => "?") ++ ")"
  | isNull field => quoteIdentifier field ++ " IS NULL"
  | isNotNull field => quoteIdentifier field ++ " IS NOT NULL"
  | insensitiveLike field _ => quoteIdentifier field ++ " ILIKE ?"
  | folded field operator _ =>
      "lower(" ++ quoteIdentifier field ++ ") " ++ operator.text ++ " lower(?)"
  | plain field operator _ => quoteIdentifier field ++ " " ++ operator.text ++ " ?"

/-- The parameters that a clause takes. -/
def parameters : Clause F → List (Literal F)
  | foldedIn _ values | plainIn _ values => values
  | isNull _ | isNotNull _ => []
  | insensitiveLike _ value | folded _ _ value | plain _ _ value => [value]

end Clause

structure QueryValidationError where
  code : String
  message : String
deriving DecidableEq

/-- The part of a dataset specification that `_where` reads: the names of the schema,
with the text fields marked. -/
structure FilterSpec where
  fields : List (String × Bool)
  supportsNe : Bool

namespace FilterSpec

variable (spec : FilterSpec) (casefold : String → String)

/-- `_field_name` -/
def fieldName (field : String) : Except QueryValidationError String :=
  match ((spec.fields.map Prod.fst).filter fun name => casefold name = casefold field).getLast? with
  | some name => .ok name
  | none => .error ⟨"INVALID_FIELD", "No such column '" ++ field ++ "' on entity"⟩

/-- `_is_text_field` -/
def isTextField (name : String) : Bool :=
  (spec.fields.lookup name).getD false

variable {F : Type}

/-- `_where` of one predicate. -/
def clause (predicate : Predicate F) : Except QueryValidationError (Clause F) :=
  match predicate with
  | .inComparison field values => do
      let name ← spec.fieldName casefold field
      .ok (if spec.isTextField name ∧ values.all Literal.isText then .foldedIn name values
        else .plainIn name values)
  | .comparison field operator value =>
      if operator = .ne ∧ spec.supportsNe = false then
        .error ⟨"MALFORMED_QUERY", "Only equals comparisons permitted"⟩
      else do
        let name ← spec.fieldName casefold field
        if value.isNull then
          match operator with
          | .eq => .ok (.isNull name)
          | .ne => .ok (.isNotNull name)
          | _ => .error ⟨"MALFORMED_QUERY", "NULL only supports = or !="⟩
        else if spec.isTextField name ∧ Literal.isText value then
          match operator with
          | .like => .ok (.insensitiveLike name value)
          | .eq | .ne => .ok (.folded name operator value)
          | _ => .ok (.plain name operator value)
        else .ok (.plain name operator value)

/-- `_where` -/
def whereClauses (predicates : List (Predicate F)) :
    Except QueryValidationError (List (Clause F) × List (Literal F)) :=
  (predicates.mapM (spec.clause casefold)).map fun clauses =>
    (clauses, clauses.flatMap Clause.parameters)

end FilterSpec

/-! ## Three-valued logic -/

/-- True, false or unknown. -/
abbrev Truth := Option Bool

def Truth.or : Truth → Truth → Truth
  | some true, _ => some true
  | _, some true => some true
  | some false, some false => some false
  | _, _ => none

/-- The disjunction of a list. -/
def Truth.any (truths : List Truth) : Truth :=
  truths.foldr Truth.or (some false)

theorem Truth.or_eq_true_iff {a b : Truth} : a.or b = some true ↔ a = some true ∨ b = some true := by
  rcases a with _ | _ | _ <;> rcases b with _ | _ | _ <;> simp [Truth.or]

theorem Truth.any_eq_true_iff {truths : List Truth} :
    Truth.any truths = some true ↔ some true ∈ truths := by
  induction truths with
  | nil => simp [Truth.any]
  | cons a truths ih =>
      rw [Truth.any, List.foldr_cons, Truth.or_eq_true_iff, List.mem_cons, ← ih, eq_comm]
      rfl

/-! ## What a clause selects -/

/-- How the database folds case and compares values that are not NULL. -/
structure SqlEngine (F : Type) where
  lower : String → String
  compare : ComparisonOperator → Literal F → Literal F → Truth
  insensitiveLike : Literal F → Literal F → Truth
  compare_text : ∀ s t, compare .eq (.text s) (.text t) = some (decide (s = t))

namespace SqlEngine

variable {F : Type} (E : SqlEngine F)

/-- `lower(…)` -/
def fold : Literal F → Literal F
  | .text value => .text (E.lower value)
  | value => value

/-- A comparison with NULL is unknown. -/
def strict (compare : Literal F → Literal F → Truth) : Literal F → Literal F → Truth
  | .null, _ => none
  | _, .null => none
  | a, b => compare a b

/-- A clause on a row. -/
def truth (row : String → Literal F) : Clause F → Truth
  | .foldedIn field values =>
      Truth.any (values.map fun value =>
        strict (E.compare .eq) (E.fold (row field)) (E.fold value))
  | .plainIn field values =>
      Truth.any (values.map fun value => strict (E.compare .eq) (row field) value)
  | .isNull field => some (row field).isNull
  | .isNotNull field => some (!(row field).isNull)
  | .insensitiveLike field value => strict E.insensitiveLike (row field) value
  | .folded field operator value =>
      strict (E.compare operator) (E.fold (row field)) (E.fold value)
  | .plain field operator value => strict (E.compare operator) (row field) value

/-- The clause of a predicate selects a row. -/
def Selects (spec : FilterSpec) (casefold : String → String) (predicate : Predicate F)
    (row : String → Literal F) : Prop :=
  ∃ clause, spec.clause casefold predicate = .ok clause ∧ E.truth row clause = some true

/-- The clauses of `_where`, joined by AND, select the rows that every predicate
selects, and take their parameters in order. -/
theorem selects_whereClauses {E : SqlEngine F} {spec : FilterSpec} {casefold : String → String}
    {predicates : List (Predicate F)} {clauses : List (Clause F)} {parameters : List (Literal F)}
    (h : spec.whereClauses casefold predicates = .ok (clauses, parameters))
    (row : String → Literal F) :
    ((∀ clause ∈ clauses, E.truth row clause = some true) ↔
        ∀ predicate ∈ predicates, E.Selects spec casefold predicate row) ∧
      parameters = clauses.flatMap Clause.parameters := by
  unfold FilterSpec.whereClauses at h
  cases hmap : predicates.mapM (spec.clause casefold) with
  | error e =>
      rw [hmap] at h
      cases h
  | ok made =>
      rw [hmap] at h
      obtain ⟨rfl, rfl⟩ := Prod.mk.inj (Except.ok.inj h)
      refine ⟨?_, rfl⟩
      have hmade := (DatasetSpec.mapM_eq_ok_iff _ _ _).mp hmap
      clear h hmap
      induction hmade with
      | nil => simp
      | @cons predicate clause predicates made hclause _ ih =>
          have hselects : E.Selects spec casefold predicate row ↔
              E.truth row clause = some true := by
            rw [Selects, hclause]
            simp only [Except.ok.injEq, exists_eq_left']
          rw [List.forall_mem_cons, List.forall_mem_cons, hselects]
          exact and_congr_right fun _ => ih

end SqlEngine

/-- The text fields of a row hold texts or NULL. -/
def FilterSpec.Conforms {F : Type} (spec : FilterSpec) (row : String → Literal F) : Prop :=
  ∀ name, spec.isTextField name = true → row name = .null ∨ ∃ s, row name = .text s

/-! ## IN and the equalities -/

section InComparison

variable {F : Type} {E : SqlEngine F} {spec : FilterSpec} {casefold : String → String}
variable {field name : String} {values : List (Literal F)} {value : Literal F}
variable {row : String → Literal F}

open FilterSpec SqlEngine

theorem strict_eq_true {compare : Literal F → Literal F → Truth} {a b : Literal F}
    (h : strict compare a b = some true) : a ≠ .null ∧ b ≠ .null ∧ compare a b = some true := by
  cases a <;> cases b <;> simp_all [strict]

theorem strict_of_ne {compare : Literal F → Literal F → Truth} {a b : Literal F}
    (ha : a ≠ .null) (hb : b ≠ .null) : strict compare a b = compare a b := by
  cases a <;> cases b <;> simp_all [strict]

/-- The clause of an equality. -/
theorem clause_eq (hfield : spec.fieldName casefold field = .ok name) (value : Literal F) :
    spec.clause casefold (.comparison field .eq value) = .ok
      (if value.isNull then .isNull name
        else if spec.isTextField name = true ∧ value.isText = true then .folded name .eq value
        else .plain name .eq value) := by
  rw [FilterSpec.clause, if_neg (by simp), hfield]
  change (if value.isNull = true then _ else if _ then _ else _) = _
  split
  · rfl
  · split <;> rfl

/-- What `field = value` selects: NULL where the value is null, texts without regard to
case where both sides are texts. -/
theorem selects_eq_iff (hfield : spec.fieldName casefold field = .ok name) :
    E.Selects spec casefold (.comparison field .eq value) row ↔
      if value.isNull then row name = .null
      else if spec.isTextField name = true ∧ value.isText = true then
        strict (E.compare .eq) (E.fold (row name)) (E.fold value) = some true
      else strict (E.compare .eq) (row name) value = some true := by
  rw [Selects, clause_eq hfield]
  simp only [Except.ok.injEq, exists_eq_left']
  split
  · rw [truth, Option.some.injEq, Literal.isNull_iff]
  · split <;> rfl

/-- What `field IN values` selects: without regard to case only where all values are
texts. -/
theorem selects_in_iff (hfield : spec.fieldName casefold field = .ok name) :
    E.Selects spec casefold (.inComparison field values) row ↔
      if spec.isTextField name = true ∧ values.all Literal.isText = true then
        ∃ value ∈ values, strict (E.compare .eq) (E.fold (row name)) (E.fold value) = some true
      else ∃ value ∈ values, strict (E.compare .eq) (row name) value = some true := by
  have hclause : spec.clause casefold (.inComparison field values) = .ok
      (if spec.isTextField name = true ∧ values.all Literal.isText = true then
        .foldedIn name values else .plainIn name values) := by
    rw [FilterSpec.clause, hfield]
    rfl
  rw [Selects, hclause]
  simp only [Except.ok.injEq, exists_eq_left']
  split
  · rw [truth, Truth.any_eq_true_iff, List.mem_map]
  · rw [truth, Truth.any_eq_true_iff, List.mem_map]

/-- A text that is not compared with regard to case. -/
theorem strict_fold_text {s c : String} (hrow : row name = .text c) :
    strict (E.compare .eq) (E.fold (row name)) (E.fold (.text s)) = some true ↔
      E.lower c = E.lower s := by
  rw [hrow, fold, fold, strict_of_ne (by simp) (by simp), E.compare_text]
  simp

/-- The lists of literals for which IN is the disjunction of the equalities: no null is
among them, and a text field is given strings only, or every text that is a string
of the list but for the case is equal to one of the literals. -/
structure Disjunctive (E : SqlEngine F) (spec : FilterSpec) (name : String)
    (values : List (Literal F)) : Prop where
  noNull : Literal.null ∉ values
  texts : spec.isTextField name = false ∨ values.all Literal.isText = true ∨
    ∀ s, Literal.text s ∈ values → ∀ c, E.lower c = E.lower s →
      ∃ value ∈ values, value ≠ .null ∧ E.compare .eq (.text c) value = some true

/-- **IN and the equalities** select the same rows in exactly these cases. -/
theorem in_iff_equalities (hfield : spec.fieldName casefold field = .ok name) :
    (∀ row, spec.Conforms row →
      (E.Selects spec casefold (.inComparison field values) row ↔
        ∃ value ∈ values, E.Selects spec casefold (.comparison field .eq value) row)) ↔
      Disjunctive E spec name values := by
  constructor
  · intro h
    have hnull : Literal.null ∉ values := by
      intro hmem
      -- a row of NULLs is selected by the equality only
      have hrow := (h (fun _ => .null) fun _ _ => .inl rfl).mpr
        ⟨.null, hmem, (selects_eq_iff hfield).mpr (by simp [Literal.isNull])⟩
      rw [selects_in_iff hfield] at hrow
      split at hrow
      · obtain ⟨value, _, htrue⟩ := hrow
        exact (strict_eq_true htrue).1 rfl
      · obtain ⟨value, _, htrue⟩ := hrow
        exact (strict_eq_true htrue).1 rfl
    refine ⟨hnull, ?_⟩
    by_cases htext : spec.isTextField name = true
    · by_cases hall : values.all Literal.isText = true
      · exact .inr (.inl hall)
      · refine .inr (.inr fun s hs c hcase => ?_)
        -- a row with the text in the other case
        have hselects := (h (fun _ => .text c) fun _ _ => .inr ⟨c, rfl⟩).mpr
          ⟨.text s, hs, (selects_eq_iff hfield).mpr (by
            rw [if_neg (by simp [Literal.isNull]), if_pos ⟨htext, rfl⟩]
            exact (strict_fold_text rfl).mpr hcase)⟩
        rw [selects_in_iff hfield, if_neg fun hboth => hall hboth.2] at hselects
        obtain ⟨value, hvalue, htrue⟩ := hselects
        have hall := strict_eq_true htrue
        exact ⟨value, hvalue, hall.2.1, hall.2.2⟩
    · exact .inl (by simpa using htext)
  · intro h row hrow
    have heq : ∀ value ∈ values, (E.Selects spec casefold (.comparison field .eq value) row ↔
        if spec.isTextField name = true ∧ value.isText = true then
          strict (E.compare .eq) (E.fold (row name)) (E.fold value) = some true
        else strict (E.compare .eq) (row name) value = some true) := by
      intro value hvalue
      have hne : ¬ value.isNull = true := fun hnull =>
        h.noNull (Literal.isNull_iff.mp hnull ▸ hvalue)
      rw [selects_eq_iff hfield, if_neg hne]
    rw [selects_in_iff hfield]
    by_cases htext : spec.isTextField name = true
    · by_cases hall : values.all Literal.isText = true
      · rw [if_pos ⟨htext, hall⟩]
        refine exists_congr fun value => and_congr_right fun hvalue => ?_
        rw [heq value hvalue, if_pos ⟨htext, List.all_eq_true.mp hall value hvalue⟩]
      · have hcases := (h.texts.resolve_left (by simp [htext])).resolve_left hall
        rw [if_neg fun hboth => hall hboth.2]
        constructor
        · rintro ⟨value, hvalue, htrue⟩
          refine ⟨value, hvalue, (heq value hvalue).mpr ?_⟩
          split
          · rename_i hboth
            obtain ⟨hrowNull, _, hcompare⟩ := strict_eq_true htrue
            obtain ⟨c, hc⟩ := (hrow name htext).resolve_left hrowNull
            cases value with
            | text s =>
                rw [hc, E.compare_text, Option.some.injEq, decide_eq_true_eq] at hcompare
                rw [strict_fold_text hc, hcompare]
            | _ => cases hboth.2
          · exact htrue
        · rintro ⟨value, hvalue, hselects⟩
          have htrue := (heq value hvalue).mp hselects
          split at htrue
          · rename_i hboth
            cases value with
            | text s =>
                obtain ⟨hrowNull, _⟩ := strict_eq_true htrue
                have hne : row name ≠ .null := fun hnull => hrowNull (by rw [hnull]; rfl)
                obtain ⟨c, hc⟩ := (hrow name htext).resolve_left hne
                rw [strict_fold_text hc] at htrue
                obtain ⟨other, hother, hotherNull, hcompare⟩ := hcases s hvalue c htrue
                refine ⟨other, hother, ?_⟩
                rw [hc, strict_of_ne (by simp) hotherNull]
                exact hcompare
            | _ => cases hboth.2
          · exact ⟨value, hvalue, htrue⟩
    · rw [if_neg fun hboth => htext hboth.1]
      refine exists_congr fun value => and_congr_right fun hvalue => ?_
      rw [heq value hvalue, if_neg fun hboth => htext hboth.1]

end InComparison

/-- An object with a text field and a number. -/
def leadFilter : FilterSpec := ⟨[("Name", true), ("Employees", false)], true⟩

/-- Texts and numbers are compared with their own kind only. -/
def sameKind : SqlEngine Empty where
  lower := fun s => String.ofList (s.toList.map Char.toLower)
  compare := fun operator a b =>
    match operator, a, b with
    | .eq, .text s, .text t => some (decide (s = t))
    | .eq, .integer m, .integer n => some (decide (m = n))
    | _, _, _ => some false
  insensitiveLike := fun _ _ => some false
  compare_text := fun _ _ => rfl

theorem in_iff_equalities_numbers :
    (∀ row, leadFilter.Conforms row →
      (sameKind.Selects leadFilter id (.inComparison "Employees" [.integer 1, .integer 2]) row ↔
        ∃ value ∈ [.integer 1, .integer 2],
          sameKind.Selects leadFilter id (.comparison "Employees" .eq value) row)) ↔
      Disjunctive sameKind leadFilter "Employees" [.integer 1, .integer 2] :=
  in_iff_equalities (by decide)

/-- `Name IN ('acme', null)` selects neither a NULL nor `Acme`. -/
theorem mixedIn_not_equalities :
    ¬ ∀ row, leadFilter.Conforms row →
      (sameKind.Selects leadFilter id (.inComparison "Name" [.text "acme", .null]) row ↔
        ∃ value ∈ [.text "acme", .null],
          sameKind.Selects leadFilter id (.comparison "Name" .eq value) row) := by
  intro h
  have hrow := (h (fun _ => .null) fun _ _ => .inl rfl).mpr
    ⟨.null, by simp, .isNull "Name", by decide, rfl⟩
  obtain ⟨clause, hclause, htrue⟩ := hrow
  have hplain : clause = .plainIn "Name" [.text "acme", .null] := by
    have hmodel : leadFilter.clause id (.inComparison "Name" [.text "acme", .null]) =
        .ok (.plainIn "Name" [.text "acme", (.null : Literal Empty)]) := by decide
    exact (Except.ok.inj (hmodel.symm.trans hclause)).symm
  rw [hplain] at htrue
  revert htrue
  decide

end FakeForce
end Northwind
