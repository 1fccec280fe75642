import PagedQuery.Statement.Text

/-!
# Names and strings of statements

Apart from keywords, functions, operators and numbers, a statement consists of
what its tree supplies: the names of schemas, tables, columns and aliases,
string literals, bound values and pieces taken as they are. They can be read off
the tree or off its lexemes.

* `Datum`: a name, string, value or piece;
* `Expr.data`, `Select.data`: what a tree supplies, from left to right;
* `Select.data_lexemes`: it is the data among the lexemes.
-/

namespace PagedQuery

/-- What a tree supplies to the text of a statement. -/
inductive Datum where
  /-- The name of a schema, table or column, or an alias. -/
  | name (text : String)
  | string (text : String)
  | value (value : Value)
  /-- A piece of a statement, taken as it is. -/
  | piece (sql : String)
deriving DecidableEq

/-! ## Data of trees -/

/-- A column, after the name of its relation if it is qualified. -/
def ColumnRef.data (column : ColumnRef) : List Datum :=
  (column.qualifier.map Datum.name).toList ++ [.name column.name]

def Literal.data : Literal → List Datum
  | .string s => [.string s]
  | _ => []

mutual

/-- The data of an expression, from left to right. A quotient writes its operands as they are. -/
def Expr.data : Expr → List Datum
  | .column ref => ref.data
  | .literal value => value.data
  | .param value => [.value value]
  | .compare left _ right => left.data ++ right.data
  | .inList expr values => expr.data ++ Expr.dataList values
  | .all parts => Expr.dataList parts
  | .any parts => Expr.dataList parts
  | .not expr => expr.data
  | .raw sql => [.piece sql]
  | .arithmetic _ left right => left.data ++ right.data
  | .isNull expr => expr.data
  | .isNotNull expr => expr.data
  | .case branches otherwise => Expr.dataBranches branches ++ Expr.dataOption otherwise
  | .coalesce exprs => Expr.dataList exprs
  | .call _ args => Expr.dataList args
  | .cast expr _ => expr.data
  | .aggregate _ arg => Expr.dataOption arg
  | .window _ partitionBy orderBy => Expr.dataList partitionBy ++ Expr.dataKeys orderBy
  | .wildcard qualifier => (qualifier.map Datum.name).toList
termination_by structural e => e

def Expr.dataList : List Expr → List Datum
  | [] => []
  | expr :: rest => expr.data ++ Expr.dataList rest
termination_by structural es => es

def Expr.dataBranches : List (Expr × Expr) → List Datum
  | [] => []
  | (condition, value) :: rest => condition.data ++ value.data ++ Expr.dataBranches rest
termination_by structural branches => branches

def Expr.dataOption : Option Expr → List Datum
  | none => []
  | some expr => expr.data
termination_by structural e => e

def Expr.dataKeys : List (Expr × Direction) → List Datum
  | [] => []
  | (expr, _) :: rest => expr.data ++ Expr.dataKeys rest
termination_by structural keys => keys

end

/-- An alias, unless it only repeats the name of the column. -/
def SelectItem.data (item : SelectItem) : List Datum :=
  match item.aliasName with
  | none => item.expr.data
  | some aliasName =>
    if item.expr.isColumnNamed aliasName then item.expr.data
    else item.expr.data ++ [.name aliasName]

mutual

/-- The data of a statement, clause by clause. -/
def Select.data : Select → List Datum
  | ⟨_, items, source, joins, filter, groupBy, orderBy, _, _⟩ =>
    items.flatMap SelectItem.data ++ source.data ++ Select.joinData joins ++
      Expr.dataOption filter ++ Expr.dataList groupBy ++ Expr.dataKeys orderBy
termination_by structural s => s

/-- An empty schema is no name. -/
def Relation.data : Relation → List Datum
  | .table schema name aliasName =>
    (if schema = "" then [] else [.name schema]) ++ .name name ::
      (aliasName.map Datum.name).toList
  | .custom sql aliasName => [.piece sql, .name aliasName]
  | .derived select aliasName => select.data ++ [.name aliasName]
termination_by structural r => r

def Select.joinData : List Join → List Datum
  | [] => []
  | ⟨_, relation, condition⟩ :: rest =>
    relation.data ++ condition.data ++ Select.joinData rest
termination_by structural joins => joins

end

/-! ## Data of lexemes -/

namespace Lexeme

def datum? : Lexeme → Option Datum
  | .name text => some (.name text)
  | .quoted text => some (.string text)
  | .param value => some (.value value)
  | .raw sql => some (.piece sql)
  | _ => none

/-- The data of a list of lexemes. -/
def data (lexemes : List Lexeme) : List Datum :=
  lexemes.filterMap datum?

@[simp] theorem datum?_space : datum? .space = none := rfl

@[simp] theorem datum?_word (text : String) : datum? (.word text) = none := rfl

@[simp] theorem datum?_symbol (text : String) : datum? (.symbol text) = none := rfl

@[simp] theorem datum?_name (text : String) : datum? (.name text) = some (.name text) := rfl

@[simp] theorem datum?_raw (sql : String) : datum? (.raw sql) = some (.piece sql) := rfl

@[simp] theorem data_append (a b : List Lexeme) : data (a ++ b) = data a ++ data b :=
  List.filterMap_append

@[simp] theorem data_nil : data [] = [] := rfl

@[simp] theorem data_cons (lexeme : Lexeme) (rest : List Lexeme) :
    data (lexeme :: rest) = (datum? lexeme).toList ++ data rest := by
  cases h : datum? lexeme <;> simp [data, h]

@[simp] theorem data_words (ws : List String) : data (words ws) = [] := by
  fun_induction words ws with
  | case1 => rfl
  | case2 w => rfl
  | case3 w next rest ih => simpa using ih

/-- A separator without data adds none. -/
theorem data_join {separator : List Lexeme} (hsep : data separator = [])
    (parts : List (List Lexeme)) :
    data (join separator parts) = parts.flatMap data := by
  fun_induction join separator parts with
  | case1 => rfl
  | case2 part => simp
  | case3 part next rest ih => simp [hsep, ih]

@[simp] theorem data_join_comma (parts : List (List Lexeme)) :
    data (join comma parts) = parts.flatMap data :=
  data_join rfl parts

@[simp] theorem data_join_spaced (word : String) (parts : List (List Lexeme)) :
    data (join (spaced word) parts) = parts.flatMap data :=
  data_join rfl parts

@[simp] theorem data_join_space (parts : List (List Lexeme)) :
    data (join [.space] parts) = parts.flatMap data :=
  data_join rfl parts

@[simp] theorem data_spaced (word : String) : data (spaced word) = [] := rfl

@[simp] theorem data_parenthesized (lexemes : List Lexeme) :
    data (parenthesized lexemes) = data lexemes := by
  simp [parenthesized]

@[simp] theorem data_application (function : String) (args : List Lexeme) :
    data (application function args) = data args := by
  simp [application]

end Lexeme

/-! ## Data of a written statement -/

@[simp] theorem ColumnRef.data_lexemes (column : ColumnRef) :
    Lexeme.data column.lexemes = column.data := by
  unfold ColumnRef.lexemes ColumnRef.data
  split <;> simp [*]

@[simp] theorem Literal.data_lexemes (literal : Literal) :
    Lexeme.data literal.lexemes = literal.data := by
  unfold Literal.lexemes
  split <;> rfl

@[simp] theorem Comparison.datum?_lexeme (op : Comparison) : op.lexeme.datum? = none := by
  cases op <;> rfl

@[simp] theorem Direction.data_lexemes (direction : Direction) :
    Lexeme.data direction.lexemes = [] := by
  cases direction <;> rfl

@[simp] theorem WindowFunction.data_lexemes (func : WindowFunction) :
    Lexeme.data func.lexemes = [] := by
  cases func <;> rfl

@[simp] theorem data_wildcardLexemes (qualifier : Option String) :
    Lexeme.data (wildcardLexemes qualifier) = (qualifier.map Datum.name).toList := by
  cases qualifier <;> rfl

variable (dialect : Dialect)

@[simp] theorem ArithmeticOp.data_lexemes (left right : List Lexeme) (op : ArithmeticOp) :
    Lexeme.data (op.lexemes dialect left right) = Lexeme.data left ++ Lexeme.data right := by
  cases op <;> simp [ArithmeticOp.lexemes]

@[simp] theorem Aggregation.data_lexemes (arg : List Lexeme) (func : Aggregation) :
    Lexeme.data (func.lexemes arg) = Lexeme.data arg := by
  cases func <;> simp [Aggregation.lexemes]

@[simp] theorem data_clauseOf (keywords : List String) (list : List (List Lexeme)) :
    (clauseOf keywords list).flatMap Lexeme.data = list.flatMap Lexeme.data := by
  unfold clauseOf
  cases list with
  | nil => rfl
  | cons part rest => simp

mutual

theorem Expr.data_lexemes (e : Expr) : Lexeme.data (e.lexemes dialect) = e.data := by
  cases e with
  | column ref => simp [Expr.lexemes, Expr.data]
  | literal value => simp [Expr.lexemes, Expr.data]
  | param value => rfl
  | compare left op right =>
    simp [Expr.lexemes, Expr.data, left.data_lexemes, right.data_lexemes]
  | inList expr values =>
    simp [Expr.lexemes, Expr.data, expr.data_lexemes, Expr.data_lexemesList values]
  | all parts =>
    cases parts with
    | nil => rfl
    | cons part rest =>
      have ih := Expr.data_lexemesList (part :: rest)
      simp [Expr.lexemes, Expr.data, ih]
  | any parts =>
    cases parts with
    | nil => rfl
    | cons part rest =>
      have ih := Expr.data_lexemesList (part :: rest)
      simp [Expr.lexemes, Expr.data, ih]
  | not expr => simp [Expr.lexemes, Expr.data, expr.data_lexemes]
  | raw sql => rfl
  | arithmetic op left right =>
    simp [Expr.lexemes, Expr.data, left.data_lexemes, right.data_lexemes]
  | isNull expr => simp [Expr.lexemes, Expr.data, expr.data_lexemes]
  | isNotNull expr => simp [Expr.lexemes, Expr.data, expr.data_lexemes]
  | case branches otherwise =>
    simp [Expr.lexemes, Expr.data, Expr.data_lexemesBranches branches,
      Expr.data_lexemesElse otherwise]
  | coalesce exprs => simp [Expr.lexemes, Expr.data, Expr.data_lexemesList exprs]
  | call function args => simp [Expr.lexemes, Expr.data, Expr.data_lexemesList args]
  | cast expr typeName => simp [Expr.lexemes, Expr.data, expr.data_lexemes]
  | aggregate func arg => simp [Expr.lexemes, Expr.data, Expr.data_lexemesArgument arg]
  | window func partitionBy orderBy =>
    simp [Expr.lexemes, Expr.data, Expr.data_lexemesList partitionBy,
      Expr.data_lexemesKeys orderBy]
  | wildcard qualifier => simp [Expr.lexemes, Expr.data]
termination_by structural e

theorem Expr.data_lexemesList (es : List Expr) :
    (Expr.lexemesList dialect es).flatMap Lexeme.data = Expr.dataList es := by
  cases es with
  | nil => rfl
  | cons expr rest =>
    simp [Expr.lexemesList, Expr.dataList, expr.data_lexemes, Expr.data_lexemesList rest]
termination_by structural es

theorem Expr.data_lexemesBranches (branches : List (Expr × Expr)) :
    Lexeme.data (Expr.lexemesBranches dialect branches) = Expr.dataBranches branches := by
  cases branches with
  | nil => rfl
  | cons branch rest =>
    obtain ⟨condition, value⟩ := branch
    simp [Expr.lexemesBranches, Expr.dataBranches, condition.data_lexemes,
      value.data_lexemes, Expr.data_lexemesBranches rest]
termination_by structural branches

theorem Expr.data_lexemesElse (e : Option Expr) :
    Lexeme.data (Expr.lexemesElse dialect e) = Expr.dataOption e := by
  cases e with
  | none => rfl
  | some expr => simp [Expr.lexemesElse, Expr.dataOption, expr.data_lexemes]
termination_by structural e

theorem Expr.data_lexemesArgument (e : Option Expr) :
    Lexeme.data (Expr.lexemesArgument dialect e) = Expr.dataOption e := by
  cases e with
  | none => rfl
  | some expr => simp [Expr.lexemesArgument, Expr.dataOption, expr.data_lexemes]
termination_by structural e

theorem Expr.data_lexemesKeys (keys : List (Expr × Direction)) :
    (Expr.lexemesKeys dialect keys).flatMap Lexeme.data = Expr.dataKeys keys := by
  cases keys with
  | nil => rfl
  | cons key rest =>
    obtain ⟨expr, direction⟩ := key
    simp [Expr.lexemesKeys, Expr.dataKeys, expr.data_lexemes, Expr.data_lexemesKeys rest]
termination_by structural keys

end

theorem Expr.data_conditionLexemes (e : Expr) :
    Lexeme.data (e.conditionLexemes dialect) = e.data := by
  cases e with
  | all parts =>
    cases parts with
    | nil => rfl
    | cons part rest =>
      have ih := Expr.data_lexemesList dialect (part :: rest)
      simp [Expr.conditionLexemes, Expr.data, ih]
  | _ => exact Expr.data_lexemes dialect _

theorem SelectItem.data_lexemes (item : SelectItem) :
    Lexeme.data (item.lexemes dialect) = item.data := by
  unfold SelectItem.lexemes SelectItem.data
  cases item.aliasName with
  | none => exact Expr.data_lexemes dialect _
  | some aliasName =>
    by_cases hsame : item.expr.isColumnNamed aliasName
    · simp only [hsame, if_true, Expr.data_lexemes]
    · simp [hsame, Expr.data_lexemes, aliasLexemes]

theorem SelectItem.flatMap_data_lexemes (items : List SelectItem) :
    (items.map (SelectItem.lexemes dialect)).flatMap Lexeme.data =
      items.flatMap SelectItem.data := by
  rw [List.flatMap_map]
  simp only [SelectItem.data_lexemes]

theorem data_optionalClause (keywords : List String) (list : List (List Lexeme)) :
    Lexeme.data (optionalClause keywords list) = list.flatMap Lexeme.data := by
  unfold optionalClause clauseOf
  cases list with
  | nil => rfl
  | cons part rest => simp

theorem data_limitLexemes (limit offset : Option Nat) :
    Lexeme.data (limitLexemes dialect limit offset) = [] := by
  unfold limitLexemes
  split <;> try rfl
  cases dialect <;> rfl

theorem data_tableLexemes (schema name : String) (aliasName : Option String) :
    Lexeme.data (tableLexemes schema name aliasName) =
      (Relation.table schema name aliasName).data := by
  unfold tableLexemes Relation.data
  cases aliasName <;> by_cases h : schema = "" <;> simp [h, aliasLexemes]

theorem data_filterLexemes (filter : Option Expr) :
    Lexeme.data (filterLexemes dialect filter) = Expr.dataOption filter := by
  cases filter with
  | none => rfl
  | some e => simp [filterLexemes, Expr.dataOption, e.data_conditionLexemes]

mutual

/-- The data among the lexemes of a statement are those of its tree, from left to right. -/
theorem Select.data_lexemes (s : Select) :
    Lexeme.data (s.lexemes dialect) = s.data := by
  obtain ⟨distinct, items, source, joins, filter, groupBy, orderBy, limit, offset⟩ := s
  have hdistinct : Lexeme.data (if distinct then [.word "DISTINCT", .space] else []) = [] := by
    cases distinct <;> rfl
  simp only [Select.lexemes, Select.data, Lexeme.data_append, Lexeme.data_cons,
    Lexeme.datum?_word, Lexeme.datum?_space, hdistinct, Lexeme.data_join_comma,
    SelectItem.flatMap_data_lexemes, Lexeme.data_spaced, source.data_lexemes,
    Select.data_joinLexemes joins, data_filterLexemes, data_optionalClause,
    Expr.data_lexemesList, Expr.data_lexemesKeys, data_limitLexemes, Option.toList_none,
    List.nil_append, List.append_nil]
termination_by structural s

theorem Relation.data_lexemes (relation : Relation) :
    Lexeme.data (relation.lexemes dialect) = relation.data := by
  cases relation with
  | table schema name aliasName => exact data_tableLexemes schema name aliasName
  | custom sql aliasName =>
    simp [Relation.lexemes, Relation.data, aliasLexemes]
  | derived select aliasName =>
    simp [Relation.lexemes, Relation.data, aliasLexemes, select.data_lexemes]
termination_by structural relation

theorem Select.data_joinLexemes (joins : List Join) :
    Lexeme.data (Select.joinLexemes dialect joins) = Select.joinData joins := by
  cases joins with
  | nil => rfl
  | cons join rest =>
    obtain ⟨kind, relation, condition⟩ := join
    simp [Select.joinLexemes, Select.joinData, relation.data_lexemes,
      Expr.data_conditionLexemes, Select.data_joinLexemes rest]
termination_by structural joins

end

end PagedQuery
