import Northwind.Sources.Rows
import Northwind.Library.Windows

/-!
# Planned queries and their result lists

A `QueryPlan` is what `LazyQueryService.plan` makes of an accepted query over
one object: the rows it keeps (the soft-delete filter and the WHERE clauses),
its ORDER BY, LIMIT and OFFSET, and the public columns.

The database is free in one respect only: the order of rows that its ORDER BY
does not tell apart.  That freedom is `QueryEngine`.
-/

namespace Northwind
namespace FakeForce

inductive SortDirection where
  | asc
  | desc
deriving DecidableEq

inductive NullsOrder where
  | first
  | last
deriving DecidableEq

structure OrderBy where
  field : String
  direction : SortDirection
  nulls : NullsOrder
deriving DecidableEq

/-- `a` may stand before `b` under this ORDER BY. -/
def OrderBy.allows (o : OrderBy) (a b : Row) : Bool :=
  match a o.field, b o.field with
  | none, none => true
  | none, some _ => o.nulls = .first
  | some _, none => o.nulls = .last
  | some x, some y =>
      match o.direction with
      | .asc => x ≤ y
      | .desc => y ≤ x

theorem OrderBy.allows_total (o : OrderBy) (a b : Row) :
    o.allows a b = true ∨ o.allows b a = true := by
  obtain ⟨field, direction, nulls⟩ := o
  unfold allows
  cases a field with
  | none =>
      cases b field with
      | none => exact Or.inl rfl
      | some y => cases nulls <;> simp
  | some x =>
      cases b field with
      | none => cases nulls <;> simp
      | some y =>
          cases direction with
          | asc => simpa using le_total x y
          | desc => simpa using le_total y x

theorem OrderBy.allows_trans (o : OrderBy) {a b c : Row}
    (hab : o.allows a b = true) (hbc : o.allows b c = true) :
    o.allows a c = true := by
  obtain ⟨field, direction, nulls⟩ := o
  unfold allows at *
  cases ha : a field with
  | none =>
      cases hb : b field with
      | none => simpa [ha, hb] using hbc
      | some y => cases hc : c field <;> simp_all
  | some x =>
      cases hb : b field with
      | none => cases hc : c field <;> simp_all
      | some y =>
          cases hc : c field with
          | none => simpa [hb, hc] using hbc
          | some z =>
              cases direction with
              | asc =>
                  have hxy : x ≤ y := by simpa [ha, hb] using hab
                  have hyz : y ≤ z := by simpa [hb, hc] using hbc
                  simpa using hxy.trans hyz
              | desc =>
                  have hyx : y ≤ x := by simpa [ha, hb] using hab
                  have hzy : z ≤ y := by simpa [hb, hc] using hbc
                  simpa using hzy.trans hyx

/-- How the database orders the rows of a statement. -/
structure QueryEngine where
  order : Option OrderBy → List Row → List Row
  order_perm : ∀ o rows, (order o rows).Perm rows
  order_sorted : ∀ o rows, (order (some o) rows).Pairwise (fun a b => o.allows a b = true)

/-- The engine that keeps the order of the files among equal rows. -/
def QueryEngine.stable : QueryEngine where
  order := fun o rows =>
    match o with
    | none => rows
    | some o => rows.insertionSort (fun a b => o.allows a b = true)
  order_perm := by
    intro o rows
    cases o with
    | none => exact List.Perm.refl rows
    | some o => exact List.perm_insertionSort _ rows
  order_sorted := by
    intro o rows
    have htotal : Std.Total (fun a b => o.allows a b = true) := ⟨o.allows_total⟩
    have htrans : IsTrans Row (fun a b => o.allows a b = true) :=
      ⟨fun _ _ _ => o.allows_trans⟩
    exact List.pairwise_insertionSort _ rows

/-- One accepted query over one object. -/
structure QueryPlan where
  objectName : String
  /-- The public columns, `*` already expanded. -/
  fields : List String
  idField : String
  /-- The WHERE clause of `source_sql`. -/
  keeps : Row → Bool
  orderBy : Option OrderBy
  limit : Option Nat
  offset : Nat

namespace QueryPlan

variable (plan : QueryPlan)

/-- The internal id column. -/
def recordId (r : Row) : Option Value :=
  r plan.idField

/-- Append `LIMIT` and `OFFSET` to an ordered statement. -/
def limitOffset (ordered : List Row) : List Row :=
  match plan.limit with
  | none => ordered.drop plan.offset
  | some limit => (ordered.drop plan.offset).take limit

/-- The rows of `source_sql`. -/
def sourceRows (E : QueryEngine) (rows : List Row) : List Row :=
  E.order plan.orderBy (rows.filter plan.keeps)

/-- The rows of `sql`: the full ordered result list. -/
def results (E : QueryEngine) (rows : List Row) : List Row :=
  plan.limitOffset (plan.sourceRows E rows)

end QueryPlan

/-- `API_VERSION` -/
def apiVersion : String := "v60.0"

/-- One record of a response body. -/
structure Record where
  type : String
  url : String
  fields : List (String × Option Value)
deriving DecidableEq

/-- `LazyQueryService._records` on one row. -/
def QueryPlan.record (plan : QueryPlan) (r : Row) : Record where
  type := plan.objectName
  url := "/services/data/" ++ apiVersion ++ "/sobjects/" ++ plan.objectName ++ "/" ++
    cellText (plan.recordId r)
  fields := plan.fields.map (fun field => (field, r field))

namespace QueryPlan

theorem mem_limitOffset {plan : QueryPlan} {ordered : List Row} {r : Row}
    (h : r ∈ plan.limitOffset ordered) :
    r ∈ ordered := by
  unfold limitOffset at h
  split at h
  · exact List.mem_of_mem_drop h
  · exact List.mem_of_mem_drop (List.mem_of_mem_take h)

theorem mem_sourceRows {plan : QueryPlan} {E : QueryEngine} {rows : List Row} {r : Row} :
    r ∈ plan.sourceRows E rows ↔ r ∈ rows ∧ plan.keeps r = true := by
  unfold sourceRows
  rw [(E.order_perm plan.orderBy _).mem_iff, List.mem_filter]

/-- A result row is a source row the query keeps. -/
theorem mem_results {plan : QueryPlan} {E : QueryEngine} {rows : List Row} {r : Row}
    (h : r ∈ plan.results E rows) :
    r ∈ rows ∧ plan.keeps r = true :=
  mem_sourceRows.mp (mem_limitOffset h)

end QueryPlan

/-- `SELECT Id, Name FROM Account ORDER BY Name` -/
def accountQuery : QueryPlan where
  objectName := "Account"
  fields := ["Id", "Name"]
  idField := "Id"
  keeps := fun r => r "IsDeleted" = some (.flag false)
  orderBy := some ⟨"Name", .asc, .last⟩
  limit := none
  offset := 0

/-- `SELECT Id, StageName FROM Opportunity` -/
def opportunityQuery : QueryPlan where
  objectName := "Opportunity"
  fields := ["Id", "StageName"]
  idField := "Id"
  keeps := fun _ => true
  orderBy := none
  limit := none
  offset := 0

/-- An Account row. -/
def accountRow (id name : String) (isDeleted : Bool) : Row :=
  Row.ofCells [("Id", .text id), ("Name", .text name), ("IsDeleted", .flag isDeleted)]

/-- Six accounts, one of them deleted and two of one name. -/
def accountRows : List Row :=
  [accountRow "001c" "Delta" false, accountRow "001a" "Acme" false,
    accountRow "001b" "Brown" true, accountRow "001d" "Acme" false,
    accountRow "001e" "Crown" false, accountRow "001f" "Baker" false]

end FakeForce
end Northwind
