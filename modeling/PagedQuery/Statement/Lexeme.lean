import PagedQuery.Dialect.Basic
import PagedQuery.Value

/-!
# Lexemes

A statement is written as a list of lexemes. Its text is what the lexemes
write, one after the other; its bound values are those of its placeholders.
Text and values are two readings of one list, so they cannot disagree.

* `Lexeme`, `Lexeme.chars`: the lexemes, and what each writes in a dialect;
* `Lexeme.text`, `Lexeme.params`: the two readings of a list;
* `Lexeme.join`: lists with a separator between them.
-/

namespace PagedQuery

inductive Lexeme where
  | space
  /-- A keyword, or the name of a function or type. -/
  | word (text : String)
  /-- Punctuation, or an operator. -/
  | symbol (text : String)
  | number (text : String)
  /-- A schema, table, column or alias. -/
  | name (text : String)
  /-- A string literal. -/
  | quoted (text : String)
  /-- The placeholder of a bound value. -/
  | param (value : Value)
  /-- A piece of a statement, taken as it is. -/
  | raw (sql : String)
deriving DecidableEq

namespace Lexeme

/-- What a lexeme writes. -/
def chars (dialect : Dialect) : Lexeme → List Char
  | .space => [' ']
  | .word text => text.toList
  | .symbol text => text.toList
  | .number text => text.toList
  | .name text => dialect.quoteIdentifier text
  | .quoted text => Identifier.quoted '\x27' text.toList
  | .param _ => ['?']
  | .raw sql => sql.toList

/-- The text of a list of lexemes. -/
def text (dialect : Dialect) (lexemes : List Lexeme) : String :=
  String.ofList (lexemes.flatMap (chars dialect))

def param? : Lexeme → Option Value
  | .param value => some value
  | _ => none

/-- The bound values of a list of lexemes, in the order of their placeholders. -/
def params (lexemes : List Lexeme) : List Value :=
  lexemes.filterMap param?

/-- Words with spaces between them. -/
def words : List String → List Lexeme
  | [] => []
  | [w] => [.word w]
  | w :: next :: rest => .word w :: .space :: words (next :: rest)

/-- Lists of lexemes with a separator between them. -/
def join (separator : List Lexeme) : List (List Lexeme) → List Lexeme
  | [] => []
  | [part] => part
  | part :: next :: rest => part ++ separator ++ join separator (next :: rest)

/-- A comma and a space. -/
def comma : List Lexeme :=
  [.symbol ",", .space]

/-- A word between spaces. -/
def spaced (word : String) : List Lexeme :=
  [.space, .word word, .space]

/-- Lexemes in parentheses. -/
def parenthesized (lexemes : List Lexeme) : List Lexeme :=
  .symbol "(" :: lexemes ++ [.symbol ")"]

/-- A call of a function. -/
def application (function : String) (args : List Lexeme) : List Lexeme :=
  .word function :: parenthesized args

end Lexeme

end PagedQuery
