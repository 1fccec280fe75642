import PagedQuery.Field

/-!
# Filters

A filter is a tree of conjunctions, disjunctions and negations over leaves.
A leaf compares one field with literals, which stay the texts the caller sent
until the type of the field is known.

* `LeafOp`, `Leaf`, `Filter`: comparisons, leaves and trees;
* `Filter.leaves`, `flattenFilters`: the leaves from left to right.
-/

namespace PagedQuery

/-- The comparisons of a leaf. -/
inductive LeafOp where
  | eq
  /-- Equality of strings without regard to case. -/
  | eqi
  | ge
  | gt
  | le
  | lt
  | isIn
  | isNull
  | contains
  | textSearch
deriving DecidableEq

namespace LeafOp

def name : LeafOp → String
  | .eq => "eq"
  | .eqi => "eqi"
  | .ge => "ge"
  | .gt => "gt"
  | .le => "le"
  | .lt => "lt"
  | .isIn => "in"
  | .isNull => "is_null"
  | .contains => "contains"
  | .textSearch => "text_search"

def ofName? : String → Option LeafOp
  | "eq" => some .eq
  | "eqi" => some .eqi
  | "ge" => some .ge
  | "gt" => some .gt
  | "le" => some .le
  | "lt" => some .lt
  | "in" => some .isIn
  | "is_null" => some .isNull
  | "contains" => some .contains
  | "text_search" => some .textSearch
  | _ => none

/-- Whether the comparison is one of strings, whatever type the leaf declares. -/
def isStringOnly : LeafOp → Bool
  | .eqi => true
  | .contains => true
  | .textSearch => true
  | _ => false

end LeafOp

/-- One comparison of a field with literals. -/
structure Leaf where
  op : LeafOp
  field : String
  /-- The declared type. -/
  fieldType : FieldType
  /-- The literals as they were sent. -/
  values : List String
deriving DecidableEq

inductive Filter where
  | all (filters : List Filter)
  | any (filters : List Filter)
  | not (filter : Filter)
  | leaf (leaf : Leaf)

namespace Filter

mutual

/-- The leaves of a filter, from left to right. -/
def leaves : Filter → List Leaf
  | .all filters => leavesOf filters
  | .any filters => leavesOf filters
  | .not filter => leaves filter
  | .leaf l => [l]

/-- The leaves of filters, one filter after the other. -/
def leavesOf : List Filter → List Leaf
  | [] => []
  | filter :: rest => leaves filter ++ leavesOf rest

end

end Filter

/-- The leaves of all filters of a request. -/
def flattenFilters (filters : List Filter) : List Leaf :=
  Filter.leavesOf filters

end PagedQuery
