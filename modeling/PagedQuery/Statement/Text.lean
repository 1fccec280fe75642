import PagedQuery.Statement.Lexeme
import PagedQuery.Statement.Select

/-!
# Statement text

Each part of a statement has its lexemes and, apart from them, the first fault
that keeps it from being written. A statement without a fault is written in one
line, with `?` for every bound value.

* `Expr.lexemes`, `Select.lexemes`: how expressions and statements are written;
* `Expr.fault?`, `Select.fault?`: what cannot be written;
* `Select.write`: text and bound values, or the fault.
-/

namespace PagedQuery

/-- Why a statement cannot be written. -/
inductive WriteError where
  /-- A select list without items. -/
  | emptySelect
  /-- A choice among no values. -/
  | emptyInList
  /-- An aggregate of nothing, other than the count of rows. -/
  | missingArgument (func : Aggregation)
deriving DecidableEq

def WriteError.message : WriteError → String
  | .emptySelect => "SELECT requires at least one item"
  | .emptyInList => "IN requires at least one value"
  | .missingArgument func => func.label ++ " requires an argument"

/-! ## Leaves -/

/-- A name after the qualifier, if there is one. -/
def ColumnRef.lexemes (column : ColumnRef) : List Lexeme :=
  match column.qualifier with
  | none => [.name column.name]
  | some qualifier => [.name qualifier, .symbol ".", .name column.name]

def Literal.lexemes : Literal → List Lexeme
  | .null => [.word "NULL"]
  | .bool true => [.word "TRUE"]
  | .bool false => [.word "FALSE"]
  | .int i => [.number (toString i)]
  | .float x => [.number (toString x)]
  | .string s => [.quoted s]

def Comparison.lexeme : Comparison → Lexeme
  | .like => .word "LIKE"
  | op => .symbol op.symbol

def Direction.lexemes : Direction → List Lexeme
  | .ascending => [.space, .word "ASC"]
  | .descending => [.space, .word "DESC"]

/-- Two operands with an arithmetic operator; both sides of a quotient are made floating
point numbers. -/
def ArithmeticOp.lexemes (dialect : Dialect) (left right : List Lexeme) :
    ArithmeticOp → List Lexeme
  | .add => Lexeme.parenthesized (left ++ [.space, .symbol "+", .space] ++ right)
  | .subtract => Lexeme.parenthesized (left ++ [.space, .symbol "-", .space] ++ right)
  | .multiply => Lexeme.parenthesized (left ++ [.space, .symbol "*", .space] ++ right)
  | .divide =>
    let double (operand : List Lexeme) :=
      Lexeme.application "CAST"
        (operand ++ Lexeme.spaced "AS" ++ Lexeme.words dialect.doubleWords)
    Lexeme.parenthesized (double left ++ [.space, .symbol "/", .space] ++ double right)

/-- An aggregate of an argument. -/
def Aggregation.lexemes (arg : List Lexeme) : Aggregation → List Lexeme
  | .sum => Lexeme.application "SUM" arg
  | .avg => Lexeme.application "AVG" arg
  | .count => Lexeme.application "COUNT" arg
  | .countDistinct => Lexeme.application "COUNT" (.word "DISTINCT" :: .space :: arg)
  | .min => Lexeme.application "MIN" arg
  | .max => Lexeme.application "MAX" arg

def WindowFunction.lexemes : WindowFunction → List Lexeme
  | .rowNumber => Lexeme.application "ROW_NUMBER" []
  | .countAll => Lexeme.application "COUNT" [.symbol "*"]

/-- All columns, of one relation or of every one. -/
def wildcardLexemes : Option String → List Lexeme
  | none => [.symbol "*"]
  | some qualifier => [.name qualifier, .symbol ".", .symbol "*"]

/-- A keyword and a list after it, both omitted if the list is empty. -/
def clauseOf (keywords : List String) (list : List (List Lexeme)) : List (List Lexeme) :=
  if list.isEmpty then []
  else [Lexeme.words keywords ++ .space :: Lexeme.join Lexeme.comma list]

/-! ## Expressions -/

mutual

/-- How an expression is written. -/
def Expr.lexemes (dialect : Dialect) : Expr → List Lexeme
  | .column ref => ref.lexemes
  | .literal value => value.lexemes
  | .param value => [.param value]
  | .compare left op right =>
    left.lexemes dialect ++ [.space, op.lexeme, .space] ++ right.lexemes dialect
  | .inList expr values =>
    expr.lexemes dialect ++ Lexeme.spaced "IN" ++
      Lexeme.parenthesized (Lexeme.join Lexeme.comma (Expr.lexemesList dialect values))
  | .all [] => [.number "1", .space, .symbol "=", .space, .number "1"]
  | .all (part :: parts) =>
    Lexeme.parenthesized
      (Lexeme.join (Lexeme.spaced "AND") (Expr.lexemesList dialect (part :: parts)))
  | .any [] => [.number "1", .space, .symbol "=", .space, .number "0"]
  | .any (part :: parts) =>
    Lexeme.parenthesized
      (Lexeme.join (Lexeme.spaced "OR") (Expr.lexemesList dialect (part :: parts)))
  | .not expr => .word "NOT" :: .space :: Lexeme.parenthesized (expr.lexemes dialect)
  | .raw sql => [.raw sql]
  | .arithmetic op left right =>
    op.lexemes dialect (left.lexemes dialect) (right.lexemes dialect)
  | .isNull expr => expr.lexemes dialect ++ .space :: Lexeme.words ["IS", "NULL"]
  | .isNotNull expr => expr.lexemes dialect ++ .space :: Lexeme.words ["IS", "NOT", "NULL"]
  | .case branches otherwise =>
    .word "CASE" :: Expr.lexemesBranches dialect branches ++
      Expr.lexemesElse dialect otherwise ++ [.space, .word "END"]
  | .coalesce exprs =>
    Lexeme.application "COALESCE" (Lexeme.join Lexeme.comma (Expr.lexemesList dialect exprs))
  | .call function args =>
    Lexeme.application function (Lexeme.join Lexeme.comma (Expr.lexemesList dialect args))
  | .cast expr typeName =>
    Lexeme.application "CAST"
      (expr.lexemes dialect ++ Lexeme.spaced "AS" ++ [.word typeName])
  | .aggregate func arg => func.lexemes (Expr.lexemesArgument dialect arg)
  | .window func partitionBy orderBy =>
    func.lexemes ++ Lexeme.spaced "OVER" ++
      Lexeme.parenthesized (Lexeme.join [.space]
        (clauseOf ["PARTITION", "BY"] (Expr.lexemesList dialect partitionBy) ++
          clauseOf ["ORDER", "BY"] (Expr.lexemesKeys dialect orderBy)))
  | .wildcard qualifier => wildcardLexemes qualifier
termination_by structural e => e

def Expr.lexemesList (dialect : Dialect) : List Expr → List (List Lexeme)
  | [] => []
  | expr :: rest => expr.lexemes dialect :: Expr.lexemesList dialect rest
termination_by structural es => es

/-- The branches of a case expression. -/
def Expr.lexemesBranches (dialect : Dialect) : List (Expr × Expr) → List Lexeme
  | [] => []
  | (condition, value) :: rest =>
    Lexeme.spaced "WHEN" ++ condition.lexemes dialect ++ Lexeme.spaced "THEN" ++
      value.lexemes dialect ++ Expr.lexemesBranches dialect rest
termination_by structural branches => branches

/-- The last part of a case expression. -/
def Expr.lexemesElse (dialect : Dialect) : Option Expr → List Lexeme
  | none => []
  | some expr => Lexeme.spaced "ELSE" ++ expr.lexemes dialect
termination_by structural e => e

/-- The argument of an aggregate; a star stands for the rows. -/
def Expr.lexemesArgument (dialect : Dialect) : Option Expr → List Lexeme
  | none => [.symbol "*"]
  | some expr => expr.lexemes dialect
termination_by structural e => e

/-- Sort keys with their directions. -/
def Expr.lexemesKeys (dialect : Dialect) : List (Expr × Direction) → List (List Lexeme)
  | [] => []
  | (expr, direction) :: rest =>
    (expr.lexemes dialect ++ direction.lexemes) :: Expr.lexemesKeys dialect rest
termination_by structural keys => keys

end

/-- A condition; the parts of a conjunction need no parentheses around them. -/
def Expr.conditionLexemes (dialect : Dialect) : Expr → List Lexeme
  | .all (part :: parts) =>
    Lexeme.join (Lexeme.spaced "AND") (Expr.lexemesList dialect (part :: parts))
  | expr => expr.lexemes dialect

mutual

/-- The first fault of an expression. -/
def Expr.fault? : Expr → Option WriteError
  | .column _ => none
  | .literal _ => none
  | .param _ => none
  | .compare left _ right => left.fault? <|> right.fault?
  | .inList expr values =>
    if values.isEmpty then some .emptyInList else expr.fault? <|> Expr.faultList? values
  | .all parts => Expr.faultList? parts
  | .any parts => Expr.faultList? parts
  | .not expr => expr.fault?
  | .raw _ => none
  | .arithmetic _ left right => left.fault? <|> right.fault?
  | .isNull expr => expr.fault?
  | .isNotNull expr => expr.fault?
  | .case branches otherwise => Expr.faultBranches? branches <|> Expr.faultOption? otherwise
  | .coalesce exprs => Expr.faultList? exprs
  | .call _ args => Expr.faultList? args
  | .cast expr _ => expr.fault?
  | .aggregate .count arg => Expr.faultOption? arg
  | .aggregate func none => some (.missingArgument func)
  | .aggregate _ (some arg) => arg.fault?
  | .window _ partitionBy orderBy => Expr.faultList? partitionBy <|> Expr.faultKeys? orderBy
  | .wildcard _ => none
termination_by structural e => e

def Expr.faultList? : List Expr → Option WriteError
  | [] => none
  | expr :: rest => expr.fault? <|> Expr.faultList? rest
termination_by structural es => es

def Expr.faultBranches? : List (Expr × Expr) → Option WriteError
  | [] => none
  | (condition, value) :: rest =>
    condition.fault? <|> value.fault? <|> Expr.faultBranches? rest
termination_by structural branches => branches

def Expr.faultOption? : Option Expr → Option WriteError
  | none => none
  | some expr => expr.fault?
termination_by structural e => e

def Expr.faultKeys? : List (Expr × Direction) → Option WriteError
  | [] => none
  | (expr, _) :: rest => expr.fault? <|> Expr.faultKeys? rest
termination_by structural keys => keys

end

/-! ## Statements -/

/-- Whether an expression is a column of that very name, so that naming it adds nothing. -/
def Expr.isColumnNamed (aliasName : String) : Expr → Bool
  | .column ref => ref.name = aliasName
  | _ => false

/-- An alias after `AS`. -/
def aliasLexemes (aliasName : String) : List Lexeme :=
  Lexeme.spaced "AS" ++ [.name aliasName]

def SelectItem.lexemes (dialect : Dialect) (item : SelectItem) : List Lexeme :=
  match item.aliasName with
  | none => item.expr.lexemes dialect
  | some aliasName =>
    if item.expr.isColumnNamed aliasName then item.expr.lexemes dialect
    else item.expr.lexemes dialect ++ aliasLexemes aliasName

/-- A keyword clause of a statement, with a space before it. -/
def optionalClause (keywords : List String) (list : List (List Lexeme)) : List Lexeme :=
  (clauseOf keywords list).flatMap fun clause => .space :: clause

/-- A number after a keyword. -/
def numberClause (keyword : String) (n : Nat) : List Lexeme :=
  .space :: .word keyword :: .space :: [.number (toString n)]

/-- The limit that is written where an offset needs one. -/
def noLimit : Nat :=
  Nat.pow 2 64 - 1

/-- Limit and offset. Only one dialect knows an offset without a limit. -/
def limitLexemes (dialect : Dialect) (limit offset : Option Nat) : List Lexeme :=
  match limit, offset with
  | some limit, some offset => numberClause "LIMIT" limit ++ numberClause "OFFSET" offset
  | some limit, none => numberClause "LIMIT" limit
  | none, some offset =>
    match dialect with
    | .postgres => numberClause "OFFSET" offset
    | .mysql => numberClause "LIMIT" noLimit ++ numberClause "OFFSET" offset
    | .clickhouse => numberClause "LIMIT" noLimit ++ numberClause "OFFSET" offset
  | none, none => []

/-- A table; an empty schema is left out. -/
def tableLexemes (schema name : String) (aliasName : Option String) : List Lexeme :=
  (if schema = "" then [] else [.name schema, .symbol "."]) ++ .name name ::
    match aliasName with
    | none => []
    | some aliasName => aliasLexemes aliasName

def JoinKind.words : JoinKind → List String
  | .inner => ["INNER", "JOIN"]
  | .left => ["LEFT", "JOIN"]

/-- A condition after `WHERE`. -/
def filterLexemes (dialect : Dialect) : Option Expr → List Lexeme
  | none => []
  | some filter => Lexeme.spaced "WHERE" ++ filter.conditionLexemes dialect

mutual

/-- How a statement is written. -/
def Select.lexemes (dialect : Dialect) : Select → List Lexeme
  | ⟨distinct, items, source, joins, filter, groupBy, orderBy, limit, offset⟩ =>
    .word "SELECT" :: .space ::
      (if distinct then [.word "DISTINCT", .space] else []) ++
      Lexeme.join Lexeme.comma (items.map (SelectItem.lexemes dialect)) ++
      Lexeme.spaced "FROM" ++ source.lexemes dialect ++
      Select.joinLexemes dialect joins ++
      filterLexemes dialect filter ++
      optionalClause ["GROUP", "BY"] (Expr.lexemesList dialect groupBy) ++
      optionalClause ["ORDER", "BY"] (Expr.lexemesKeys dialect orderBy) ++
      limitLexemes dialect limit offset
termination_by structural s => s

def Relation.lexemes (dialect : Dialect) : Relation → List Lexeme
  | .table schema name aliasName => tableLexemes schema name aliasName
  | .custom sql aliasName => Lexeme.parenthesized [.raw sql] ++ aliasLexemes aliasName
  | .derived select aliasName =>
    Lexeme.parenthesized (select.lexemes dialect) ++ aliasLexemes aliasName
termination_by structural r => r

def Select.joinLexemes (dialect : Dialect) : List Join → List Lexeme
  | [] => []
  | ⟨kind, relation, condition⟩ :: rest =>
    .space :: Lexeme.words kind.words ++ .space :: relation.lexemes dialect ++
      Lexeme.spaced "ON" ++ condition.conditionLexemes dialect ++ Select.joinLexemes dialect rest
termination_by structural joins => joins

end

mutual

/-- The first fault of a statement, in the order of its text. -/
def Select.fault? : Select → Option WriteError
  | ⟨_, items, source, joins, filter, groupBy, orderBy, _, _⟩ =>
    if items.isEmpty then some .emptySelect
    else
      Expr.faultList? (items.map SelectItem.expr) <|> source.fault? <|> Select.joinFault? joins <|>
        Expr.faultOption? filter <|> Expr.faultList? groupBy <|> Expr.faultKeys? orderBy
termination_by structural s => s

def Relation.fault? : Relation → Option WriteError
  | .table .. => none
  | .custom .. => none
  | .derived select _ => select.fault?
termination_by structural r => r

def Select.joinFault? : List Join → Option WriteError
  | [] => none
  | ⟨_, relation, condition⟩ :: rest =>
    relation.fault? <|> condition.fault? <|> Select.joinFault? rest
termination_by structural joins => joins

end

/-- Writes a statement: its text and the values of its placeholders. -/
def Select.write (select : Select) (dialect : Dialect) : Except WriteError ParametrizedQuery :=
  match select.fault? with
  | some fault => .error fault
  | none =>
    let lexemes := select.lexemes dialect
    .ok { sql := Lexeme.text dialect lexemes, params := Lexeme.params lexemes }

end PagedQuery
