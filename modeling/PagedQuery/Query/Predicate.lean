import PagedQuery.Query.Literal
import PagedQuery.Dialect.Functions

/-!
# Predicates

A filter becomes a condition on the columns of one relation. Every literal is
bound to a placeholder, as a value of the type of its field.

* `Leaf.resolveType`: the type that the literals of a leaf are read as;
* `Leaf.predicate`, `Filter.predicate`: the condition of a leaf and of a filter;
* `predicateOf`: the condition of all filters of a request.
-/

namespace PagedQuery

/-- What predicates are made with. -/
structure Context where
  catalog : Catalog
  dialect : Dialect

/-- The column of a relation. -/
def columnOf (qualifier : Option String) (name : String) : Expr :=
  .column ⟨qualifier, name⟩

namespace Leaf

/-- The only literal of a leaf. -/
def single (leaf : Leaf) : Except CompileError String :=
  match leaf.values with
  | [value] => .ok value
  | values => .error (.invalidQuery (.valueCount leaf.op leaf.field values.length))

/-- The type of the literals: what the leaf declares and what is known must agree, and at
least one of them must say something. -/
def resolveType (leaf : Leaf) (catalog : Catalog) : Except CompileError FieldType :=
  let actual := catalog.fieldType leaf.field
  if leaf.fieldType = .unknown then
    if actual = .unknown then .error (.unsupportedFilter leaf.op .unknown) else .ok actual
  else if actual = .unknown ∨ leaf.fieldType = actual then .ok leaf.fieldType
  else .error (.typeMismatch leaf.field leaf.fieldType actual)

/-- The bound value of a literal. -/
def bind (leaf : Leaf) (fieldType : FieldType) (text : String) : Except CompileError Expr :=
  match Literal.parse? text fieldType with
  | some value => .ok (.param value)
  | none => .error (.invalidLiteral leaf.field text fieldType)

/-- The comparison of the operators that compare with one typed literal. -/
def comparison? : LeafOp → Option Comparison
  | .eq => some .eq
  | .ge => some .ge
  | .gt => some .gt
  | .le => some .le
  | .lt => some .lt
  | _ => none

/-- The condition of a comparison of strings. -/
def stringPredicate (dialect : Dialect) (column : Expr) (text : String) : LeafOp → Expr
  | .eqi =>
    .compare (.call "LOWER" [column]) .eq (.call "LOWER" [.param (.string text)])
  | .contains => .compare column .like (.param (.string (Literal.likePattern text)))
  | _ => dialect.textSearch column (.param (.string text))

/-- The condition of a leaf on the columns of a relation. -/
def predicate (ctx : Context) (qualifier : Option String) (leaf : Leaf) :
    Except CompileError Expr :=
  let column := columnOf qualifier leaf.field
  if leaf.op = .isNull then .ok (.isNull column)
  else if leaf.op.isStringOnly then
    let actual := ctx.catalog.fieldType leaf.field
    if actual = .string ∨ actual = .unknown then do
      let text ← leaf.single
      .ok (stringPredicate ctx.dialect column text leaf.op)
    else .error (.unsupportedFilter leaf.op actual)
  else do
    let fieldType ← leaf.resolveType ctx.catalog
    match comparison? leaf.op with
    | none =>
      if leaf.values.isEmpty then .error (.invalidQuery (.emptyInFilter leaf.field))
      else .ok (.inList column (← leaf.values.mapM (leaf.bind fieldType)))
    | some op => .ok (.compare column op (← leaf.bind fieldType (← leaf.single)))

end Leaf

mutual

/-- The condition of a filter on the columns of a relation. -/
def Filter.predicate (ctx : Context) (qualifier : Option String) :
    Filter → Except CompileError Expr
  | .all filters => do .ok (.all (← Filter.predicates ctx qualifier filters))
  | .any filters => do .ok (.any (← Filter.predicates ctx qualifier filters))
  | .not filter => do .ok (.not (← filter.predicate ctx qualifier))
  | .leaf l => l.predicate ctx qualifier
termination_by structural f => f

def Filter.predicates (ctx : Context) (qualifier : Option String) :
    List Filter → Except CompileError (List Expr)
  | [] => .ok []
  | filter :: rest => do
    let first ← filter.predicate ctx qualifier
    .ok (first :: (← Filter.predicates ctx qualifier rest))
termination_by structural fs => fs

end

/-- The condition that all filters hold, if there are any. -/
def predicateOf (ctx : Context) (qualifier : Option String) (filters : List Filter) :
    Except CompileError (Option Expr) := do
  match ← Filter.predicates ctx qualifier filters with
  | [] => .ok none
  | [only] => .ok (some only)
  | parts => .ok (some (.all parts))

end PagedQuery
