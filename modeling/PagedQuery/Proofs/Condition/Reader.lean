import PagedQuery.Proofs.Statement.Tokens
import PagedQuery.Statement.Expr

/-!
# Reading conditions

A reader for the conditions of statements, which knows the precedence of their
operators and nothing of how they were written. Comparisons, choices and null
tests bind tightest, then `NOT`, then `AND`, then `OR`; parentheses group.
Question marks stand for the bound values, one after the other.

* `Operand`, `Condition`: what is read;
* `bindValues?`: tokens with the bound values in the place of the question marks;
* `readOperand?`, `readPredicate?`: operands, and what binds tightest;
* `readFactor?`, `readConjunction?`, `readDisjunction?`: the other levels of precedence;
* `Dialect.readWhere?`: the condition of a clause.
-/

namespace PagedQuery

/-- What conditions compare. -/
inductive Operand where
  | column (column : ColumnRef)
  | value (value : Value)
  | call (function : String) (args : List Operand)

inductive Condition where
  | compare (left : Operand) (op : Comparison) (right : Operand)
  | isIn (operand : Operand) (values : List Operand)
  | isNull (operand : Operand)
  | not (condition : Condition)
  | and (left right : Condition)
  | or (left right : Condition)

/-! ## Tokens with values -/

/-- A token, or the value that is bound to a question mark. -/
inductive BoundToken where
  | token (token : Token)
  | value (value : Value)
deriving DecidableEq

/-- Question marks take the values in order; none may be missing or left over. -/
def bindValues? : List Token → List Value → Option (List BoundToken)
  | [], [] => some []
  | [], _ :: _ => none
  | .mark :: _, [] => none
  | .mark :: tokens, value :: values => (bindValues? tokens values).map (.value value :: ·)
  | token :: tokens, values => (bindValues? tokens values).map (.token token :: ·)

/-- What is read from the beginning of a list of tokens, and what follows it. -/
abbrev Reader (α : Type) := List BoundToken → Option (α × List BoundToken)

variable {α : Type}

/-- What follows a given token. -/
def skip? (token : Token) : List BoundToken → Option (List BoundToken)
  | .token first :: rest => if first = token then some rest else none
  | _ => none

/-- At most `n` further items, each after a separator. -/
def readFurther? (separator : Token) (item : Reader α) : (n : Nat) → Reader (List α)
  | 0, tokens => some ([], tokens)
  | n + 1, tokens =>
    match skip? separator tokens with
    | none => some ([], tokens)
    | some rest => do
      let (first, rest) ← item rest
      let (others, rest) ← readFurther? separator item n rest
      some (first :: others, rest)

/-- Items with separators between them, the first one apart. -/
def readSeparated? (separator : Token) (item : Reader α) (tokens : List BoundToken) :
    Option ((α × List α) × List BoundToken) := do
  let (first, rest) ← item tokens
  let (others, rest) ← readFurther? separator item rest.length rest
  some ((first, others), rest)

/-- Items in parentheses. -/
def readList? (item : Reader α) (tokens : List BoundToken) :
    Option (List α × List BoundToken) := do
  let rest ← skip? (.symbol "(") tokens
  let ((first, others), rest) ← readSeparated? (.symbol ",") item rest
  let rest ← skip? (.symbol ")") rest
  some (first :: others, rest)

/-! ## Operands -/

/-- A column whose name or qualifier has been read. -/
def readColumn? (name : String) (tokens : List BoundToken) :
    Option (Operand × List BoundToken) :=
  match skip? (.symbol ".") tokens with
  | none => some (.column ⟨none, name⟩, tokens)
  | some (.token token :: rest) =>
    token.name?.map fun column => (.column ⟨some name, column⟩, rest)
  | some _ => none

/-- A column, a bound value, a whole number, or the call of a function. Calls may be nested
`depth` deep. -/
def readOperand? : (depth : Nat) → Reader Operand
  | _, .value value :: rest => some (.value value, rest)
  | _, .token (.delimited name) :: rest => readColumn? name rest
  | _, .token (.number text) :: rest =>
    if text.toList.all Char.isDigit then
      some (.value (.int (Nat.ofDigitChars 10 text.toList 0)), rest)
    else none
  | depth, .token (.word text) :: rest =>
    if Identifier.isPlain text.toList then readColumn? text rest
    else match depth with
      | 0 => none
      | depth + 1 => (readList? (readOperand? depth) rest).map fun (args, rest) =>
        (.call text args, rest)
  | _, _ => none

/-! ## Levels of precedence -/

/-- The comparison that an operator stands for. -/
def Token.comparison? : Token → Option Comparison
  | .symbol "=" => some .eq
  | .symbol "!=" => some .notEq
  | .symbol "<" => some .lt
  | .symbol "<=" => some .le
  | .symbol ">" => some .gt
  | .symbol ">=" => some .ge
  | .symbol "@@" => some .textMatch
  | .word "LIKE" => some .like
  | _ => none

/-- What a left operand is compared with: null, a list of values, or a right operand. -/
def readRelation? (left : Operand) (tokens : List BoundToken) :
    Option (Condition × List BoundToken) :=
  match skip? (.word "IS") tokens, skip? (.word "IN") tokens, tokens with
  | some rest, _, _ => (skip? (.word "NULL") rest).map fun rest => (.isNull left, rest)
  | none, some rest, _ =>
    (readList? (readOperand? rest.length) rest).map fun (values, rest) => (.isIn left values, rest)
  | none, none, .token token :: rest => do
    let op ← token.comparison?
    let (right, rest) ← readOperand? rest.length rest
    some (.compare left op right, rest)
  | none, none, _ => none

/-- A condition in parentheses, or a comparison, choice or null test. -/
def readPredicate? (inner : Reader Condition) (tokens : List BoundToken) :
    Option (Condition × List BoundToken) :=
  match skip? (.symbol "(") tokens with
  | some rest => do
    let (condition, rest) ← inner rest
    let rest ← skip? (.symbol ")") rest
    some (condition, rest)
  | none => do
    let (left, rest) ← readOperand? tokens.length tokens
    readRelation? left rest

/-- A predicate after at most `n` negations. -/
def readNegated? (inner : Reader Condition) : (n : Nat) → Reader Condition
  | 0, tokens => readPredicate? inner tokens
  | n + 1, tokens =>
    match skip? (.word "NOT") tokens with
    | none => readPredicate? inner tokens
    | some rest => (readNegated? inner n rest).map fun (condition, rest) => (.not condition, rest)

/-- A predicate after any negations. -/
def readFactor? (inner : Reader Condition) (tokens : List BoundToken) :
    Option (Condition × List BoundToken) :=
  readNegated? inner tokens.length tokens

/-- Factors with `AND` between them. -/
def readConjunction? (inner : Reader Condition) (tokens : List BoundToken) :
    Option (Condition × List BoundToken) :=
  (readSeparated? (.word "AND") (readFactor? inner) tokens).map fun ((first, others), rest) =>
    (others.foldl .and first, rest)

/-- Conjunctions with `OR` between them. -/
def readDisjunction? (inner : Reader Condition) (tokens : List BoundToken) :
    Option (Condition × List BoundToken) :=
  (readSeparated? (.word "OR") (readConjunction? inner) tokens).map fun ((first, others), rest) =>
    (others.foldl .or first, rest)

/-- A condition; less than `depth` parentheses may stand inside each other. -/
def readCondition? : (depth : Nat) → Reader Condition
  | 0 => fun _ => none
  | depth + 1 => readDisjunction? (readCondition? depth)

/-- The condition after `WHERE`, which must be the whole text. Parentheses are never nested
deeper than there are tokens. -/
def Dialect.readWhere? (dialect : Dialect) (text : String) (values : List Value) :
    Option Condition := do
  let tokens ← dialect.lex text.toList
  let bound ← bindValues? tokens values
  let rest ← skip? (.word "WHERE") bound
  match ← readCondition? (rest.length + 1) rest with
  | (condition, []) => some condition
  | _ => none

example :
    Dialect.readWhere? .postgres " WHERE NOT a = 1 AND b IS NULL OR t.c IN (?, 2)" [.int 3] =
      some (.or
        (.and (.not (.compare (.column ⟨none, "a"⟩) .eq (.value (.int 1))))
          (.isNull (.column ⟨none, "b"⟩)))
        (.isIn (.column ⟨some "t", "c"⟩) [.value (.int 3), .value (.int 2)])) := by
  cbv

end PagedQuery
