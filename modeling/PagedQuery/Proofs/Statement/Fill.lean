import PagedQuery.Statement.Text

/-!
# Statements with texts in the place of parameters

Putting a piece of text in the place of each parameter of a statement changes
its lexemes at the placeholders and nowhere else, and makes no new fault.

* `Expr.fill`, `Select.fill`: a tree with a piece of text for each parameter;
* `Select.lexemes_fill`: the lexemes of the filled statement;
* `Select.fault?_fill`: its faults.
-/

namespace PagedQuery

/-! ## Texts in the place of parameters -/

mutual

/-- An expression with the text `r value` in the place of each parameter `value`. -/
def Expr.fill (r : Value → String) : Expr → Expr
  | .column ref => .column ref
  | .literal value => .literal value
  | .param value => .raw (r value)
  | .compare left op right => .compare (left.fill r) op (right.fill r)
  | .inList expr values => .inList (expr.fill r) (Expr.fillList r values)
  | .all parts => .all (Expr.fillList r parts)
  | .any parts => .any (Expr.fillList r parts)
  | .not expr => .not (expr.fill r)
  | .raw sql => .raw sql
  | .arithmetic op left right => .arithmetic op (left.fill r) (right.fill r)
  | .isNull expr => .isNull (expr.fill r)
  | .isNotNull expr => .isNotNull (expr.fill r)
  | .case branches otherwise =>
    .case (Expr.fillBranches r branches) (Expr.fillOption r otherwise)
  | .coalesce exprs => .coalesce (Expr.fillList r exprs)
  | .call function args => .call function (Expr.fillList r args)
  | .cast expr typeName => .cast (expr.fill r) typeName
  | .aggregate func arg => .aggregate func (Expr.fillOption r arg)
  | .window func partitionBy orderBy =>
    .window func (Expr.fillList r partitionBy) (Expr.fillKeys r orderBy)
  | .wildcard qualifier => .wildcard qualifier
termination_by structural e => e

def Expr.fillList (r : Value → String) : List Expr → List Expr
  | [] => []
  | expr :: rest => expr.fill r :: Expr.fillList r rest
termination_by structural es => es

def Expr.fillBranches (r : Value → String) : List (Expr × Expr) → List (Expr × Expr)
  | [] => []
  | (condition, value) :: rest =>
    (condition.fill r, value.fill r) :: Expr.fillBranches r rest
termination_by structural branches => branches

def Expr.fillOption (r : Value → String) : Option Expr → Option Expr
  | none => none
  | some expr => some (expr.fill r)
termination_by structural e => e

def Expr.fillKeys (r : Value → String) : List (Expr × Direction) → List (Expr × Direction)
  | [] => []
  | (expr, direction) :: rest => (expr.fill r, direction) :: Expr.fillKeys r rest
termination_by structural keys => keys

end

def SelectItem.fill (r : Value → String) (item : SelectItem) : SelectItem :=
  { item with expr := item.expr.fill r }

mutual

/-- A statement with the text `r value` in the place of each parameter `value`. -/
def Select.fill (r : Value → String) : Select → Select
  | ⟨distinct, items, source, joins, filter, groupBy, orderBy, limit, offset⟩ =>
    ⟨distinct, items.map (SelectItem.fill r), source.fill r, Select.fillJoins r joins,
      Expr.fillOption r filter, Expr.fillList r groupBy, Expr.fillKeys r orderBy, limit, offset⟩
termination_by structural s => s

def Relation.fill (r : Value → String) : Relation → Relation
  | .table schema name aliasName => .table schema name aliasName
  | .custom sql aliasName => .custom sql aliasName
  | .derived select aliasName => .derived (select.fill r) aliasName
termination_by structural relation => relation

def Select.fillJoins (r : Value → String) : List Join → List Join
  | [] => []
  | ⟨kind, relation, condition⟩ :: rest =>
    ⟨kind, relation.fill r, condition.fill r⟩ :: Select.fillJoins r rest
termination_by structural joins => joins

end

/-! ## Lists of lexemes -/

namespace Lexeme

/-- A lexeme with the text `r value` in the place of a placeholder of `value`. -/
def fill (r : Value → String) : Lexeme → Lexeme
  | .param value => .raw (r value)
  | lexeme => lexeme

@[simp] theorem fill_space (r : Value → String) : fill r .space = .space := rfl

@[simp] theorem fill_word (r : Value → String) (text : String) :
    fill r (.word text) = .word text := rfl

@[simp] theorem fill_symbol (r : Value → String) (text : String) :
    fill r (.symbol text) = .symbol text := rfl

@[simp] theorem map_fill_words (r : Value → String) (ws : List String) :
    (words ws).map (fill r) = words ws := by
  fun_induction words ws with
  | case1 => rfl
  | case2 w => simp
  | case3 w next rest ih => simp [ih]

@[simp] theorem map_fill_join (r : Value → String) (separator : List Lexeme)
    (parts : List (List Lexeme)) :
    (join separator parts).map (fill r) =
      join (separator.map (fill r)) (parts.map (List.map (fill r))) := by
  fun_induction join separator parts with
  | case1 => rfl
  | case2 part => rfl
  | case3 part next rest ih => simpa [join] using ih

@[simp] theorem map_fill_comma (r : Value → String) : comma.map (fill r) = comma := rfl

@[simp] theorem map_fill_spaced (r : Value → String) (word : String) :
    (spaced word).map (fill r) = spaced word := rfl

@[simp] theorem map_fill_parenthesized (r : Value → String) (lexemes : List Lexeme) :
    (parenthesized lexemes).map (fill r) = parenthesized (lexemes.map (fill r)) := by
  simp [parenthesized]

@[simp] theorem map_fill_application (r : Value → String) (function : String)
    (args : List Lexeme) :
    (application function args).map (fill r) = application function (args.map (fill r)) := by
  simp [application]

end Lexeme

/-! ## Writing and filling -/

@[simp] theorem ColumnRef.map_fill_lexemes (r : Value → String) (column : ColumnRef) :
    column.lexemes.map (Lexeme.fill r) = column.lexemes := by
  unfold ColumnRef.lexemes
  split <;> rfl

@[simp] theorem Literal.map_fill_lexemes (r : Value → String) (literal : Literal) :
    literal.lexemes.map (Lexeme.fill r) = literal.lexemes := by
  unfold Literal.lexemes
  split <;> rfl

@[simp] theorem Comparison.fill_lexeme (r : Value → String) (op : Comparison) :
    op.lexeme.fill r = op.lexeme := by
  cases op <;> rfl

@[simp] theorem Direction.map_fill_lexemes (r : Value → String) (direction : Direction) :
    direction.lexemes.map (Lexeme.fill r) = direction.lexemes := by
  cases direction <;> rfl

@[simp] theorem WindowFunction.map_fill_lexemes (r : Value → String) (func : WindowFunction) :
    func.lexemes.map (Lexeme.fill r) = func.lexemes := by
  cases func <;> rfl

@[simp] theorem map_fill_wildcardLexemes (r : Value → String) (qualifier : Option String) :
    (wildcardLexemes qualifier).map (Lexeme.fill r) = wildcardLexemes qualifier := by
  cases qualifier <;> rfl

@[simp] theorem ArithmeticOp.map_fill_lexemes (r : Value → String) (dialect : Dialect)
    (left right : List Lexeme) (op : ArithmeticOp) :
    (op.lexemes dialect left right).map (Lexeme.fill r) =
      op.lexemes dialect (left.map (Lexeme.fill r)) (right.map (Lexeme.fill r)) := by
  cases op <;> simp [ArithmeticOp.lexemes]

@[simp] theorem Aggregation.map_fill_lexemes (r : Value → String) (arg : List Lexeme)
    (func : Aggregation) :
    (func.lexemes arg).map (Lexeme.fill r) = func.lexemes (arg.map (Lexeme.fill r)) := by
  cases func <;> simp [Aggregation.lexemes]

@[simp] theorem map_fill_clauseOf (r : Value → String) (keywords : List String)
    (list : List (List Lexeme)) :
    (clauseOf keywords list).map (List.map (Lexeme.fill r)) =
      clauseOf keywords (list.map (List.map (Lexeme.fill r))) := by
  unfold clauseOf
  cases list with
  | nil => rfl
  | cons part rest => simp

variable (dialect : Dialect) (r : Value → String)

mutual

theorem Expr.lexemes_fill (e : Expr) :
    (e.fill r).lexemes dialect = (e.lexemes dialect).map (Lexeme.fill r) := by
  cases e with
  | column ref => simp [Expr.fill, Expr.lexemes]
  | literal value => simp [Expr.fill, Expr.lexemes]
  | param value => rfl
  | compare left op right =>
    simp [Expr.fill, Expr.lexemes, left.lexemes_fill, right.lexemes_fill]
  | inList expr values =>
    simp [Expr.fill, Expr.lexemes, expr.lexemes_fill, Expr.lexemesList_fill values]
  | all parts =>
    cases parts with
    | nil => rfl
    | cons part rest =>
      have ih := Expr.lexemesList_fill (part :: rest)
      simp only [Expr.fillList] at ih
      simp [Expr.fill, Expr.fillList, Expr.lexemes, ih]
  | any parts =>
    cases parts with
    | nil => rfl
    | cons part rest =>
      have ih := Expr.lexemesList_fill (part :: rest)
      simp only [Expr.fillList] at ih
      simp [Expr.fill, Expr.fillList, Expr.lexemes, ih]
  | not expr => simp [Expr.fill, Expr.lexemes, expr.lexemes_fill]
  | raw sql => rfl
  | arithmetic op left right =>
    simp [Expr.fill, Expr.lexemes, left.lexemes_fill, right.lexemes_fill]
  | isNull expr => simp [Expr.fill, Expr.lexemes, expr.lexemes_fill]
  | isNotNull expr => simp [Expr.fill, Expr.lexemes, expr.lexemes_fill]
  | case branches otherwise =>
    simp [Expr.fill, Expr.lexemes, Expr.lexemesBranches_fill branches,
      Expr.lexemesElse_fill otherwise]
  | coalesce exprs => simp [Expr.fill, Expr.lexemes, Expr.lexemesList_fill exprs]
  | call function args => simp [Expr.fill, Expr.lexemes, Expr.lexemesList_fill args]
  | cast expr typeName => simp [Expr.fill, Expr.lexemes, expr.lexemes_fill]
  | aggregate func arg => simp [Expr.fill, Expr.lexemes, Expr.lexemesArgument_fill arg]
  | window func partitionBy orderBy =>
    simp [Expr.fill, Expr.lexemes, Expr.lexemesList_fill partitionBy,
      Expr.lexemesKeys_fill orderBy]
  | wildcard qualifier => simp [Expr.fill, Expr.lexemes]
termination_by structural e

theorem Expr.lexemesList_fill (es : List Expr) :
    Expr.lexemesList dialect (Expr.fillList r es) =
      (Expr.lexemesList dialect es).map (List.map (Lexeme.fill r)) := by
  cases es with
  | nil => rfl
  | cons expr rest =>
    simp [Expr.fillList, Expr.lexemesList, expr.lexemes_fill, Expr.lexemesList_fill rest]
termination_by structural es

theorem Expr.lexemesBranches_fill (branches : List (Expr × Expr)) :
    Expr.lexemesBranches dialect (Expr.fillBranches r branches) =
      (Expr.lexemesBranches dialect branches).map (Lexeme.fill r) := by
  cases branches with
  | nil => rfl
  | cons branch rest =>
    obtain ⟨condition, value⟩ := branch
    simp [Expr.fillBranches, Expr.lexemesBranches, condition.lexemes_fill, value.lexemes_fill,
      Expr.lexemesBranches_fill rest]
termination_by structural branches

theorem Expr.lexemesElse_fill (e : Option Expr) :
    Expr.lexemesElse dialect (Expr.fillOption r e) =
      (Expr.lexemesElse dialect e).map (Lexeme.fill r) := by
  cases e with
  | none => rfl
  | some expr => simp [Expr.fillOption, Expr.lexemesElse, expr.lexemes_fill]
termination_by structural e

theorem Expr.lexemesArgument_fill (e : Option Expr) :
    Expr.lexemesArgument dialect (Expr.fillOption r e) =
      (Expr.lexemesArgument dialect e).map (Lexeme.fill r) := by
  cases e with
  | none => rfl
  | some expr => simp [Expr.fillOption, Expr.lexemesArgument, expr.lexemes_fill]
termination_by structural e

theorem Expr.lexemesKeys_fill (keys : List (Expr × Direction)) :
    Expr.lexemesKeys dialect (Expr.fillKeys r keys) =
      (Expr.lexemesKeys dialect keys).map (List.map (Lexeme.fill r)) := by
  cases keys with
  | nil => rfl
  | cons key rest =>
    obtain ⟨expr, direction⟩ := key
    simp [Expr.fillKeys, Expr.lexemesKeys, expr.lexemes_fill, Expr.lexemesKeys_fill rest]
termination_by structural keys

end

theorem Expr.conditionLexemes_fill (e : Expr) :
    (e.fill r).conditionLexemes dialect = (e.conditionLexemes dialect).map (Lexeme.fill r) := by
  cases e with
  | all parts =>
    cases parts with
    | nil => rfl
    | cons part rest =>
      have ih := Expr.lexemesList_fill dialect r (part :: rest)
      simp only [Expr.fillList] at ih
      simp [Expr.fill, Expr.fillList, Expr.conditionLexemes, ih]
  | _ => exact Expr.lexemes_fill dialect r _

theorem Expr.isColumnNamed_fill (aliasName : String) (e : Expr) :
    (e.fill r).isColumnNamed aliasName = e.isColumnNamed aliasName := by
  cases e <;> rfl

theorem SelectItem.lexemes_fill (item : SelectItem) :
    (item.fill r).lexemes dialect = (item.lexemes dialect).map (Lexeme.fill r) := by
  obtain ⟨expr, aliasName⟩ := item
  cases aliasName with
  | none => exact expr.lexemes_fill dialect r
  | some aliasName =>
    simp only [SelectItem.lexemes, SelectItem.fill, expr.isColumnNamed_fill,
      expr.lexemes_fill]
    split
    · rfl
    · simp [aliasLexemes, Lexeme.fill]

theorem map_fill_optionalClause (keywords : List String) (list : List (List Lexeme)) :
    (optionalClause keywords list).map (Lexeme.fill r) =
      optionalClause keywords (list.map (List.map (Lexeme.fill r))) := by
  unfold optionalClause
  rw [← map_fill_clauseOf, List.map_flatMap, List.flatMap_map]
  rfl

theorem map_fill_limitLexemes (limit offset : Option Nat) :
    (limitLexemes dialect limit offset).map (Lexeme.fill r) =
      limitLexemes dialect limit offset := by
  unfold limitLexemes
  split <;> try rfl
  cases dialect <;> rfl

theorem map_fill_tableLexemes (schema name : String) (aliasName : Option String) :
    (tableLexemes schema name aliasName).map (Lexeme.fill r) =
      tableLexemes schema name aliasName := by
  unfold tableLexemes
  cases aliasName <;> by_cases h : schema = "" <;> simp [h, Lexeme.fill, aliasLexemes]

theorem filterLexemes_fill (filter : Option Expr) :
    filterLexemes dialect (Expr.fillOption r filter) =
      (filterLexemes dialect filter).map (Lexeme.fill r) := by
  cases filter with
  | none => rfl
  | some e => simp [filterLexemes, Expr.fillOption, e.conditionLexemes_fill]

mutual

theorem Select.lexemes_fill (s : Select) :
    (s.fill r).lexemes dialect = (s.lexemes dialect).map (Lexeme.fill r) := by
  obtain ⟨distinct, items, source, joins, filter, groupBy, orderBy, limit, offset⟩ := s
  have hitems : (items.map (SelectItem.fill r)).map (SelectItem.lexemes dialect) =
      (items.map (SelectItem.lexemes dialect)).map (List.map (Lexeme.fill r)) := by
    simp [SelectItem.lexemes_fill]
  have hdistinct : (if distinct then [Lexeme.word "DISTINCT", .space] else []).map
      (Lexeme.fill r) = if distinct then [Lexeme.word "DISTINCT", .space] else [] := by
    cases distinct <;> rfl
  simp only [Select.fill, Select.lexemes, hitems, source.lexemes_fill,
    Select.joinLexemes_fill joins, filterLexemes_fill, Expr.lexemesList_fill,
    Expr.lexemesKeys_fill, ← map_fill_optionalClause, List.map_append, List.map_cons,
    hdistinct, map_fill_limitLexemes, Lexeme.map_fill_join, Lexeme.map_fill_comma,
    Lexeme.map_fill_spaced, Lexeme.fill_word, Lexeme.fill_space]
termination_by structural s

theorem Relation.lexemes_fill (relation : Relation) :
    (relation.fill r).lexemes dialect = (relation.lexemes dialect).map (Lexeme.fill r) := by
  cases relation with
  | table schema name aliasName => exact (map_fill_tableLexemes r schema name aliasName).symm
  | custom sql aliasName =>
    simp [Relation.fill, Relation.lexemes, aliasLexemes, Lexeme.fill]
  | derived select aliasName =>
    simp [Relation.fill, Relation.lexemes, aliasLexemes, Lexeme.fill, select.lexemes_fill]
termination_by structural relation

theorem Select.joinLexemes_fill (joins : List Join) :
    Select.joinLexemes dialect (Select.fillJoins r joins) =
      (Select.joinLexemes dialect joins).map (Lexeme.fill r) := by
  cases joins with
  | nil => rfl
  | cons join rest =>
    obtain ⟨kind, relation, condition⟩ := join
    simp [Select.fillJoins, Select.joinLexemes, relation.lexemes_fill,
      Expr.conditionLexemes_fill, Select.joinLexemes_fill rest]
termination_by structural joins

end

mutual

theorem Expr.fault?_fill (e : Expr) : (e.fill r).fault? = e.fault? := by
  cases e with
  | column ref => rfl
  | literal value => rfl
  | param value => rfl
  | compare left op right =>
    simp [Expr.fill, Expr.fault?, left.fault?_fill, right.fault?_fill]
  | inList expr values =>
    have hempty : (Expr.fillList r values).isEmpty = values.isEmpty := by
      cases values <;> rfl
    simp [Expr.fill, Expr.fault?, hempty, expr.fault?_fill, Expr.faultList?_fill values]
  | all parts => simp [Expr.fill, Expr.fault?, Expr.faultList?_fill parts]
  | any parts => simp [Expr.fill, Expr.fault?, Expr.faultList?_fill parts]
  | not expr => simp [Expr.fill, Expr.fault?, expr.fault?_fill]
  | raw sql => rfl
  | arithmetic op left right =>
    simp [Expr.fill, Expr.fault?, left.fault?_fill, right.fault?_fill]
  | isNull expr => simp [Expr.fill, Expr.fault?, expr.fault?_fill]
  | isNotNull expr => simp [Expr.fill, Expr.fault?, expr.fault?_fill]
  | case branches otherwise =>
    simp [Expr.fill, Expr.fault?, Expr.faultBranches?_fill branches,
      Expr.faultOption?_fill otherwise]
  | coalesce exprs => simp [Expr.fill, Expr.fault?, Expr.faultList?_fill exprs]
  | call function args => simp [Expr.fill, Expr.fault?, Expr.faultList?_fill args]
  | cast expr typeName => simp [Expr.fill, Expr.fault?, expr.fault?_fill]
  | aggregate func arg =>
    have ih := Expr.faultOption?_fill arg
    cases arg with
    | none => cases func <;> rfl
    | some expr =>
      simp only [Expr.fillOption, Expr.faultOption?] at ih
      cases func <;> simp [Expr.fill, Expr.fillOption, Expr.fault?, Expr.faultOption?, ih]
  | window func partitionBy orderBy =>
    simp [Expr.fill, Expr.fault?, Expr.faultList?_fill partitionBy,
      Expr.faultKeys?_fill orderBy]
  | wildcard qualifier => rfl
termination_by structural e

theorem Expr.faultList?_fill (es : List Expr) :
    Expr.faultList? (Expr.fillList r es) = Expr.faultList? es := by
  cases es with
  | nil => rfl
  | cons expr rest =>
    simp [Expr.fillList, Expr.faultList?, expr.fault?_fill, Expr.faultList?_fill rest]
termination_by structural es

theorem Expr.faultBranches?_fill (branches : List (Expr × Expr)) :
    Expr.faultBranches? (Expr.fillBranches r branches) = Expr.faultBranches? branches := by
  cases branches with
  | nil => rfl
  | cons branch rest =>
    obtain ⟨condition, value⟩ := branch
    simp [Expr.fillBranches, Expr.faultBranches?, condition.fault?_fill, value.fault?_fill,
      Expr.faultBranches?_fill rest]
termination_by structural branches

theorem Expr.faultOption?_fill (e : Option Expr) :
    Expr.faultOption? (Expr.fillOption r e) = Expr.faultOption? e := by
  cases e with
  | none => rfl
  | some expr => simp [Expr.fillOption, Expr.faultOption?, expr.fault?_fill]
termination_by structural e

theorem Expr.faultKeys?_fill (keys : List (Expr × Direction)) :
    Expr.faultKeys? (Expr.fillKeys r keys) = Expr.faultKeys? keys := by
  cases keys with
  | nil => rfl
  | cons key rest =>
    obtain ⟨expr, direction⟩ := key
    simp [Expr.fillKeys, Expr.faultKeys?, expr.fault?_fill, Expr.faultKeys?_fill rest]
termination_by structural keys

end

theorem Expr.faultList?_map_fill (items : List SelectItem) :
    Expr.faultList? ((items.map (SelectItem.fill r)).map SelectItem.expr) =
      Expr.faultList? (items.map SelectItem.expr) := by
  induction items with
  | nil => rfl
  | cons item rest ih =>
    simp only [List.map_cons, Expr.faultList?, ih]
    simp [SelectItem.fill, Expr.fault?_fill]

mutual

theorem Select.fault?_fill (s : Select) : (s.fill r).fault? = s.fault? := by
  obtain ⟨distinct, items, source, joins, filter, groupBy, orderBy, limit, offset⟩ := s
  have hempty : (items.map (SelectItem.fill r)).isEmpty = items.isEmpty := by
    cases items <;> rfl
  simp only [Select.fill, Select.fault?, hempty, Expr.faultList?_map_fill, source.fault?_fill,
    Select.joinFault?_fill joins, Expr.faultOption?_fill, Expr.faultList?_fill,
    Expr.faultKeys?_fill]
termination_by structural s

theorem Relation.fault?_fill (relation : Relation) :
    (relation.fill r).fault? = relation.fault? := by
  cases relation with
  | table schema name aliasName => rfl
  | custom sql aliasName => rfl
  | derived select aliasName => simp [Relation.fill, Relation.fault?, select.fault?_fill]
termination_by structural relation

theorem Select.joinFault?_fill (joins : List Join) :
    Select.joinFault? (Select.fillJoins r joins) = Select.joinFault? joins := by
  cases joins with
  | nil => rfl
  | cons join rest =>
    obtain ⟨kind, relation, condition⟩ := join
    simp [Select.fillJoins, Select.joinFault?, relation.fault?_fill, Expr.fault?_fill,
      Select.joinFault?_fill rest]
termination_by structural joins

end

end PagedQuery
