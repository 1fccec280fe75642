/-!
# Dialects

* `Dialect`: the target databases;
* `Dialect.quoteIdentifier`: how names are written;
* `Dialect.doubleType`: the type of floating point numbers.
-/

namespace PagedQuery

inductive Dialect where
  | postgres
  | mysql
  | clickhouse
deriving DecidableEq

namespace Dialect

def name : Dialect → String
  | .postgres => "postgres"
  | .mysql => "mysql"
  | .clickhouse => "clickhouse"

def ofName? : String → Option Dialect
  | "postgres" | "postgresql" => some .postgres
  | "mysql" => some .mysql
  | "clickhouse" => some .clickhouse
  | _ => none

/-- The quotes around identifiers. -/
def identifierQuote : Dialect → Char
  | .postgres => '\x22'
  | .mysql => '\x60'
  | .clickhouse => '\x22'

/-- The words of the type name of floating point numbers. -/
def doubleWords : Dialect → List String
  | .postgres => ["DOUBLE", "PRECISION"]
  | .mysql => ["DOUBLE"]
  | .clickhouse => ["Float64"]

/-- The type name of floating point numbers. -/
def doubleType (dialect : Dialect) : String :=
  String.intercalate " " dialect.doubleWords

end Dialect

namespace Identifier

/-- The characters that a plain name may begin with. -/
def isHead (c : Char) : Bool :=
  c.isLower || c = '_'

/-- The characters that may follow in a plain name. -/
def isTail (c : Char) : Bool :=
  c.isLower || c.isDigit || c = '_'

/-- Whether a name needs no quotes: lower case letters, digits and underscores, not beginning
with a digit. -/
def isPlain : List Char → Bool
  | [] => false
  | c :: rest => isHead c && rest.all isTail

/-- Writes a quote character twice. -/
def doubleQuotes (quote : Char) (text : List Char) : List Char :=
  text.flatMap fun c => if c = quote then [c, c] else [c]

/-- A text in quotes, with every quote inside doubled. -/
def quoted (quote : Char) (text : List Char) : List Char :=
  quote :: doubleQuotes quote text ++ [quote]

end Identifier

/-- A name as it is written in a statement: bare if it is plain, otherwise in quotes. -/
def Dialect.quoteIdentifier (dialect : Dialect) (name : String) : List Char :=
  if Identifier.isPlain name.toList then name.toList
  else Identifier.quoted dialect.identifierQuote name.toList

end PagedQuery
