import PagedQuery.Query.Error
import PagedQuery.Calendar.Reader

/-!
# Literals

* `Literal.date?`: dates and timestamps in their four forms;
* `Literal.parse?`: the value of a literal text of a given type;
* `Literal.likePattern`: the pattern of texts that contain a given one.
-/

namespace PagedQuery.Literal

/-- A date, a local timestamp with `T` or a blank, or a timestamp with a zone; the first form
that fits counts. -/
def date? (text : List Char) : Option Value :=
  (Date.read? text).map .date <|>
  (Timestamp.readLocal? (· = 'T') text).map .timestamp <|>
  (Timestamp.readLocal? Text.isBlank text).map .timestamp <|>
  (Timestamp.readZoned? text).map .timestamp

/-- A floating point number that is neither infinite nor not-a-number. -/
def double? (text : List Char) : Option Value :=
  match Binary64.read? text with
  | some x => if x.isFinite then some (.float x) else none
  | none => none

/-- The value of a literal text. Blanks around it count in strings only. -/
def parse? (text : String) : FieldType → Option Value
  | .integer => (Text.readInt64? (Text.trim text.toList)).map .int
  | .double => double? (Text.trim text.toList)
  | .string => some (.string text)
  | .date => date? (Text.trim text.toList)
  | .unknown => none

/-- The characters that have a meaning in patterns. -/
def isPatternChar (c : Char) : Bool :=
  c = '\\' || c = '%' || c = '_'

/-- A text with a backslash before each character that has a meaning in patterns. -/
def escapePattern (text : List Char) : List Char :=
  text.flatMap fun c => if isPatternChar c then ['\\', c] else [c]

/-- The pattern of the texts that contain a given one. -/
def likePattern (text : String) : String :=
  String.ofList ('%' :: escapePattern text.toList ++ ['%'])

end PagedQuery.Literal
