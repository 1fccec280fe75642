import PagedQuery.Statement.Expr

/-!
# Select statements

* `Select`, `Relation`, `Join`: statements, what they read, and joined relations;
* `Relation.qualifier`: the name by which columns of a relation are qualified.
-/

namespace PagedQuery

/-- An expression of the select list, with the name of its column in the result. -/
structure SelectItem where
  expr : Expr
  aliasName : Option String

inductive JoinKind where
  | inner
  | left
deriving DecidableEq

mutual

structure Select where
  distinct : Bool
  items : List SelectItem
  source : Relation
  joins : List Join
  filter : Option Expr
  groupBy : List Expr
  orderBy : List (Expr × Direction)
  limit : Option Nat
  offset : Option Nat

inductive Relation where
  | table (schema name : String) (aliasName : Option String)
  /-- A query of the caller, taken as it is. -/
  | custom (sql aliasName : String)
  | derived (select : Select) (aliasName : String)

structure Join where
  kind : JoinKind
  relation : Relation
  condition : Expr

end

/-- The statement that selects nothing from a relation. -/
def Select.of (source : Relation) : Select :=
  { distinct := false, items := [], source, joins := [], filter := none, groupBy := []
    orderBy := [], limit := none, offset := none }

/-- The name by which columns of a relation are qualified; a plain table has none. -/
def Relation.qualifier : Relation → Option String
  | .table _ _ aliasName => aliasName.bind qualifierOf
  | .custom _ aliasName => qualifierOf aliasName
  | .derived _ aliasName => qualifierOf aliasName

end PagedQuery
