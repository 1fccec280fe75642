import PagedQuery.Proofs.Statement.Data

/-!
# Parameters of statements

The parameters of a statement are the values that it binds, in the order in
which they are written. They are the values among the data of the statement, so
they can be read off the tree or off its lexemes.

* `Expr.params`, `Select.params`: the parameters in a tree, from left to right;
* `Select.values_data`: they are the values among the data;
* `Select.params_lexemes`: they are the placeholders among the lexemes.
-/

namespace PagedQuery

/-! ## Parameters -/

mutual

/-- The parameters of an expression, from left to right. -/
def Expr.params : Expr → List Value
  | .column _ => []
  | .literal _ => []
  | .param value => [value]
  | .compare left _ right => left.params ++ right.params
  | .inList expr values => expr.params ++ Expr.paramsList values
  | .all parts => Expr.paramsList parts
  | .any parts => Expr.paramsList parts
  | .not expr => expr.params
  | .raw _ => []
  | .arithmetic _ left right => left.params ++ right.params
  | .isNull expr => expr.params
  | .isNotNull expr => expr.params
  | .case branches otherwise => Expr.paramsBranches branches ++ Expr.paramsOption otherwise
  | .coalesce exprs => Expr.paramsList exprs
  | .call _ args => Expr.paramsList args
  | .cast expr _ => expr.params
  | .aggregate _ arg => Expr.paramsOption arg
  | .window _ partitionBy orderBy => Expr.paramsList partitionBy ++ Expr.paramsKeys orderBy
  | .wildcard _ => []
termination_by structural e => e

def Expr.paramsList : List Expr → List Value
  | [] => []
  | expr :: rest => expr.params ++ Expr.paramsList rest
termination_by structural es => es

def Expr.paramsBranches : List (Expr × Expr) → List Value
  | [] => []
  | (condition, value) :: rest => condition.params ++ value.params ++ Expr.paramsBranches rest
termination_by structural branches => branches

def Expr.paramsOption : Option Expr → List Value
  | none => []
  | some expr => expr.params
termination_by structural e => e

def Expr.paramsKeys : List (Expr × Direction) → List Value
  | [] => []
  | (expr, _) :: rest => expr.params ++ Expr.paramsKeys rest
termination_by structural keys => keys

end

mutual

/-- The parameters of a statement, clause by clause. -/
def Select.params : Select → List Value
  | ⟨_, items, source, joins, filter, groupBy, orderBy, _, _⟩ =>
    Expr.paramsList (items.map SelectItem.expr) ++ source.params ++ Select.joinParams joins ++
      Expr.paramsOption filter ++ Expr.paramsList groupBy ++ Expr.paramsKeys orderBy
termination_by structural s => s

def Relation.params : Relation → List Value
  | .table .. => []
  | .custom .. => []
  | .derived select _ => select.params
termination_by structural r => r

def Select.joinParams : List Join → List Value
  | [] => []
  | ⟨_, relation, condition⟩ :: rest =>
    relation.params ++ condition.params ++ Select.joinParams rest
termination_by structural joins => joins

end

/-! ## Values among the data -/

/-- The values among data. -/
def Datum.value? : Datum → Option Value
  | .value v => some v
  | _ => none

/-- Names have no values. -/
@[simp] theorem filterMap_value?_name (name : Option String) :
    (name.map Datum.name).toList.filterMap Datum.value? = [] := by
  cases name <;> rfl

@[simp] theorem ColumnRef.values_data (column : ColumnRef) :
    column.data.filterMap Datum.value? = [] := by
  simp [ColumnRef.data, Datum.value?]

@[simp] theorem Literal.values_data (literal : Literal) :
    literal.data.filterMap Datum.value? = [] := by
  cases literal <;> rfl

mutual

theorem Expr.values_data (e : Expr) : e.data.filterMap Datum.value? = e.params := by
  cases e with
  | column ref => exact ref.values_data
  | literal value => exact value.values_data
  | param value => rfl
  | compare left op right =>
    simp [Expr.data, Expr.params, left.values_data, right.values_data]
  | inList expr values =>
    simp [Expr.data, Expr.params, expr.values_data, Expr.values_dataList values]
  | all parts => exact Expr.values_dataList parts
  | any parts => exact Expr.values_dataList parts
  | not expr => exact expr.values_data
  | raw sql => rfl
  | arithmetic op left right =>
    simp [Expr.data, Expr.params, left.values_data, right.values_data]
  | isNull expr => exact expr.values_data
  | isNotNull expr => exact expr.values_data
  | case branches otherwise =>
    simp [Expr.data, Expr.params, Expr.values_dataBranches branches,
      Expr.values_dataOption otherwise]
  | coalesce exprs => exact Expr.values_dataList exprs
  | call function args => exact Expr.values_dataList args
  | cast expr typeName => exact expr.values_data
  | aggregate func arg => exact Expr.values_dataOption arg
  | window func partitionBy orderBy =>
    simp [Expr.data, Expr.params, Expr.values_dataList partitionBy,
      Expr.values_dataKeys orderBy]
  | wildcard qualifier => exact filterMap_value?_name qualifier
termination_by structural e

theorem Expr.values_dataList (es : List Expr) :
    (Expr.dataList es).filterMap Datum.value? = Expr.paramsList es := by
  cases es with
  | nil => rfl
  | cons expr rest =>
    simp [Expr.dataList, Expr.paramsList, expr.values_data, Expr.values_dataList rest]
termination_by structural es

theorem Expr.values_dataBranches (branches : List (Expr × Expr)) :
    (Expr.dataBranches branches).filterMap Datum.value? = Expr.paramsBranches branches := by
  cases branches with
  | nil => rfl
  | cons branch rest =>
    obtain ⟨condition, value⟩ := branch
    simp [Expr.dataBranches, Expr.paramsBranches, condition.values_data, value.values_data,
      Expr.values_dataBranches rest]
termination_by structural branches

theorem Expr.values_dataOption (e : Option Expr) :
    (Expr.dataOption e).filterMap Datum.value? = Expr.paramsOption e := by
  cases e with
  | none => rfl
  | some expr => exact expr.values_data
termination_by structural e

theorem Expr.values_dataKeys (keys : List (Expr × Direction)) :
    (Expr.dataKeys keys).filterMap Datum.value? = Expr.paramsKeys keys := by
  cases keys with
  | nil => rfl
  | cons key rest =>
    obtain ⟨expr, direction⟩ := key
    simp [Expr.dataKeys, Expr.paramsKeys, expr.values_data, Expr.values_dataKeys rest]
termination_by structural keys

end

theorem SelectItem.values_data (item : SelectItem) :
    item.data.filterMap Datum.value? = item.expr.params := by
  unfold SelectItem.data
  split
  · exact item.expr.values_data
  · split
    · exact item.expr.values_data
    · simp [item.expr.values_data, Datum.value?]

theorem SelectItem.values_flatMap_data (items : List SelectItem) :
    (items.flatMap SelectItem.data).filterMap Datum.value? =
      Expr.paramsList (items.map SelectItem.expr) := by
  induction items with
  | nil => rfl
  | cons item rest ih => simp [Expr.paramsList, item.values_data, ih]

mutual

theorem Select.values_data (s : Select) : s.data.filterMap Datum.value? = s.params := by
  obtain ⟨distinct, items, source, joins, filter, groupBy, orderBy, limit, offset⟩ := s
  simp only [Select.data, Select.params, List.filterMap_append, SelectItem.values_flatMap_data,
    source.values_data, Select.values_joinData joins, Expr.values_dataOption,
    Expr.values_dataList, Expr.values_dataKeys]
termination_by structural s

theorem Relation.values_data (relation : Relation) :
    relation.data.filterMap Datum.value? = relation.params := by
  cases relation with
  | table schema name aliasName =>
    by_cases h : schema = "" <;> simp [Relation.data, Relation.params, Datum.value?, h]
  | custom sql aliasName => rfl
  | derived select aliasName =>
    simp [Relation.data, Relation.params, select.values_data, Datum.value?]
termination_by structural relation

theorem Select.values_joinData (joins : List Join) :
    (Select.joinData joins).filterMap Datum.value? = Select.joinParams joins := by
  cases joins with
  | nil => rfl
  | cons join rest =>
    obtain ⟨kind, relation, condition⟩ := join
    simp [Select.joinData, Select.joinParams, relation.values_data, condition.values_data,
      Select.values_joinData rest]
termination_by structural joins

end

/-! ## The values of a written statement -/

namespace Lexeme

@[simp] theorem params_append (a b : List Lexeme) : params (a ++ b) = params a ++ params b :=
  List.filterMap_append

@[simp] theorem params_nil : params [] = [] := rfl

@[simp] theorem params_cons (lexeme : Lexeme) (rest : List Lexeme) :
    params (lexeme :: rest) = (param? lexeme).toList ++ params rest := by
  cases h : param? lexeme <;> simp [params, h]

/-- The values of placeholders are the values among the data. -/
theorem params_eq_values (lexemes : List Lexeme) :
    params lexemes = (data lexemes).filterMap Datum.value? := by
  have hparam : param? = fun lexeme => (datum? lexeme).bind Datum.value? := by
    funext lexeme
    cases lexeme <;> rfl
  rw [params, data, List.filterMap_filterMap, hparam]

end Lexeme

/-- The placeholders of a statement, from left to right, are its parameters. -/
theorem Select.params_lexemes (dialect : Dialect) (s : Select) :
    Lexeme.params (s.lexemes dialect) = s.params := by
  rw [Lexeme.params_eq_values, s.data_lexemes, s.values_data]

end PagedQuery
