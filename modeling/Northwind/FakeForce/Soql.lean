import Northwind.FakeForce.QueryPlans

/-!
# SOQL queries

The typed syntax that `parse_soql` returns and the query service plans.  The
floating numbers of literals are a parameter.
-/

namespace Northwind
namespace FakeForce

/-- A literal of a query. -/
inductive Literal (F : Type) where
  | text (value : String)
  | integer (value : Int)
  | floating (value : F)
  | boolean (value : Bool)
  | null
deriving DecidableEq

inductive ComparisonOperator where
  | eq
  | ne
  | gt
  | ge
  | lt
  | le
  | like
deriving DecidableEq

/-- How an operator is written. -/
def ComparisonOperator.text : ComparisonOperator → String
  | .eq => "="
  | .ne => "!="
  | .gt => ">"
  | .ge => ">="
  | .lt => "<"
  | .le => "<="
  | .like => "LIKE"

/-- `Comparison` or `InComparison` -/
inductive Predicate (F : Type) where
  | comparison (field : String) (operator : ComparisonOperator) (value : Literal F)
  | inComparison (field : String) (values : List (Literal F))
deriving DecidableEq

/-- `SelectQuery`; the fields of `SELECT *` are the one name `*`. -/
structure SelectQuery (F : Type) where
  fields : List String
  objectName : String
  predicates : List (Predicate F)
  orderBy : Option OrderBy
  limit : Option Nat
  offset : Nat
deriving DecidableEq

end FakeForce
end Northwind
