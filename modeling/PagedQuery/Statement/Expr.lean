import PagedQuery.Request.Basic
import PagedQuery.Value

/-!
# Expressions

The scalar expressions of a select statement, independent of the dialect that
they will be written in.

* `ColumnRef`, `Literal`, `Comparison`, `Aggregation`, `WindowFunction`: the leaves and operators;
* `Expr`: the expressions.
-/

namespace PagedQuery

/-- A column, qualified by the alias of a relation or not. -/
structure ColumnRef where
  qualifier : Option String
  name : String
deriving DecidableEq

/-- A literal that is written into the statement. -/
inductive Literal where
  | null
  | bool (value : Bool)
  | int (value : Int)
  | float (value : Binary64)
  | string (value : String)
deriving DecidableEq

/-- The infix comparisons. -/
inductive Comparison where
  | eq
  | notEq
  | lt
  | le
  | gt
  | ge
  | like
  /-- The match of a text vector with a text query. -/
  | textMatch
deriving DecidableEq

namespace Comparison

/-- The operator as it is written. -/
def symbol : Comparison → String
  | .eq => "="
  | .notEq => "!="
  | .lt => "<"
  | .le => "<="
  | .gt => ">"
  | .ge => ">="
  | .like => "LIKE"
  | .textMatch => "@@"

end Comparison

/-- The arithmetic operators. Division is of floating point numbers. -/
inductive ArithmeticOp where
  | add
  | subtract
  | multiply
  | divide
deriving DecidableEq

/-- The aggregate functions. -/
inductive Aggregation where
  | sum
  | avg
  | count
  | countDistinct
  | min
  | max
deriving DecidableEq

namespace Aggregation

/-- The name that messages use. -/
def label : Aggregation → String
  | .sum => "Sum"
  | .avg => "Avg"
  | .count => "Count"
  | .countDistinct => "CountDistinct"
  | .min => "Min"
  | .max => "Max"

end Aggregation

/-- The window functions, none of which has an argument. -/
inductive WindowFunction where
  | rowNumber
  | countAll
deriving DecidableEq

inductive Expr where
  | column (column : ColumnRef)
  | literal (literal : Literal)
  /-- A value that is bound to a placeholder. -/
  | param (value : Value)
  | compare (left : Expr) (op : Comparison) (right : Expr)
  | inList (expr : Expr) (values : List Expr)
  | all (parts : List Expr)
  | any (parts : List Expr)
  | not (expr : Expr)
  /-- A piece of a statement, taken as it is. -/
  | raw (sql : String)
  | arithmetic (op : ArithmeticOp) (left right : Expr)
  | isNull (expr : Expr)
  | isNotNull (expr : Expr)
  /-- The value of the first branch whose condition holds. -/
  | case (branches : List (Expr × Expr)) (otherwise : Option Expr)
  | coalesce (exprs : List Expr)
  | call (function : String) (args : List Expr)
  | cast (expr : Expr) (typeName : String)
  /-- An aggregate; the count of rows has no argument. -/
  | aggregate (func : Aggregation) (arg : Option Expr)
  | window (func : WindowFunction) (partitionBy : List Expr) (orderBy : List (Expr × Direction))
  /-- All columns, of one relation or of every one. -/
  | wildcard (qualifier : Option String)

namespace Expr

def null : Expr :=
  .literal .null

def int (i : Int) : Expr :=
  .literal (.int i)

def string (s : String) : Expr :=
  .literal (.string s)

/-- An unqualified column. -/
def bare (name : String) : Expr :=
  .column ⟨none, name⟩

/-- `value` where the condition holds and null elsewhere. -/
def whenElseNull (condition value : Expr) : Expr :=
  .case [(condition, value)] (some null)

end Expr

/-- A qualifier, unless it is empty. -/
def qualifierOf (name : String) : Option String :=
  if name = "" then none else some name

end PagedQuery
