import PagedQuery.Binary64.Decimal
import PagedQuery.Calendar.Date
import PagedQuery.Json.Printer

/-!
# Values

The scalars that are bound to a statement and that come back in rows.

* `Value`, `Value.text`: the values and their plain text;
* `ParametrizedQuery`: statement text with the values of its placeholders.
-/

namespace PagedQuery

/-- A typed scalar. Integers have 64 signed bits. -/
inductive Value where
  | null
  | bool (value : Bool)
  | int (value : Int)
  | float (value : Binary64)
  | string (value : String)
  | date (value : Date)
  | timestamp (value : Timestamp)
deriving DecidableEq

namespace Value

/-- The plain text of a value: strings as they are, dates and times in ISO form. -/
def text : Value → String
  | .null => "NULL"
  | .bool true => "true"
  | .bool false => "false"
  | .int i => toString i
  | .float x => toString x
  | .string s => s
  | .date d => d.text
  | .timestamp t => t.text

/-- The JSON text of a value; dates and times are strings. -/
def jsonChars : Value → List Char
  | .null => "null".toList
  | .bool true => "true".toList
  | .bool false => "false".toList
  | .int i => (toString i).toList
  | .float x => (Binary64.format Binary64.Style.json x).toList
  | .string s => Json.quote s
  | .date d => Json.quote d.text
  | .timestamp t => Json.quote t.text

end Value

/-- Statement text and the values of its `?` placeholders, in the order of the text. -/
structure ParametrizedQuery where
  sql : String
  params : List Value
deriving DecidableEq

/-- Texts with commas between them. -/
def commaSeparated : List (List Char) → List Char
  | [] => []
  | [text] => text
  | text :: next :: rest => text ++ ',' :: commaSeparated (next :: rest)

/-- The JSON text of a query. -/
def ParametrizedQuery.jsonText (q : ParametrizedQuery) : String :=
  String.ofList <|
    '\x7b' :: Json.quote "sql" ++ ':' :: Json.quote q.sql ++ ',' :: Json.quote "params" ++
      ':' :: '[' :: commaSeparated (q.params.map Value.jsonChars) ++ [']', '\x7d']

end PagedQuery
