/-!
# Source fields

What is known about the fields of a source: their declared type, how a time
is stored in a number, and flags that restrict their use.

* `FieldType`, `FieldType.read?`: declared types and their names;
* `FieldMetadata`: what is known about one field;
* `Catalog`: metadata by field name.
-/

namespace PagedQuery

/-- The declared type of a field. -/
inductive FieldType where
  | integer
  | double
  | string
  | date
  | unknown
deriving DecidableEq

namespace FieldType

/-- The canonical name. -/
def name : FieldType → String
  | .integer => "INTEGER"
  | .double => "DOUBLE"
  | .string => "STRING"
  | .date => "DATE"
  | .unknown => "UNKNOWN"

def isNumeric : FieldType → Bool
  | .integer => true
  | .double => true
  | _ => false

/-- The lower case of a character where it is an ASCII letter, which is also so for the
kelvin sign. -/
def lowerChar (c : Char) : Char :=
  if c = '\u212A' then 'k' else c.toLower

/-- The type of a name or of one of its synonyms, in any case of letters. -/
def read? (text : String) : Option FieldType :=
  match String.ofList (text.toList.map lowerChar) with
  | "integer" | "int" | "long" | "bigint" => some .integer
  | "double" | "float" | "decimal" | "number" => some .double
  | "string" | "text" | "varchar" => some .string
  | "date" | "datetime" | "timestamp" => some .date
  | "unknown" => some .unknown
  | _ => none

/-- What is said about a text that names no type. -/
def unknownNameMessage (text : String) : String :=
  "Unknown field type '" ++ text ++
    "'. Valid options: INTEGER, DOUBLE, STRING, DATE, UNKNOWN"

end FieldType

/-- How a time is stored in a number. -/
inductive TimePattern where
  /-- The year alone. -/
  | year
  /-- Seconds since 1970. -/
  | epochSeconds
  /-- Milliseconds since 1970. -/
  | epochMillis
deriving DecidableEq

namespace TimePattern

def name : TimePattern → String
  | .year => "year"
  | .epochSeconds => "epoch_seconds"
  | .epochMillis => "epoch_millis"

/-- The name that messages use. -/
def label : TimePattern → String
  | .year => "Year"
  | .epochSeconds => "EpochSeconds"
  | .epochMillis => "EpochMillis"

def ofName? : String → Option TimePattern
  | "year" | "year_only" => some .year
  | "epoch_seconds" | "seconds" => some .epochSeconds
  | "epoch_millis" | "millis" => some .epochMillis
  | _ => none

end TimePattern

/-- A mark on a field. -/
inductive FieldFlag where
  /-- The field refers to media that can be played. -/
  | playable
  /-- The source is partitioned by the field. -/
  | partition
  /-- The field may be listed and filtered by, but never aggregated. -/
  | rawDataOnly
deriving DecidableEq

namespace FieldFlag

def name : FieldFlag → String
  | .playable => "PLAYABLE"
  | .partition => "PARTITION"
  | .rawDataOnly => "RAW_DATA_ONLY"

def ofName? : String → Option FieldFlag
  | "PLAYABLE" => some .playable
  | "PARTITION" => some .partition
  | "RAW_DATA_ONLY" => some .rawDataOnly
  | _ => none

end FieldFlag

/-- What is known about one field. -/
structure FieldMetadata where
  name : String
  fieldType : FieldType
  /-- Free parameters of whoever connects to the source. -/
  params : List (String × String)
  timePattern : Option TimePattern
  flags : List FieldFlag
deriving DecidableEq

def FieldMetadata.isRawDataOnly (field : FieldMetadata) : Bool :=
  field.flags.contains .rawDataOnly

/-- Field metadata by name; every name occurs once. -/
structure Catalog where
  fields : List FieldMetadata

namespace Catalog

def empty : Catalog := ⟨[]⟩

/-- Adds a field in place of an earlier one of the same name. -/
def insert (catalog : Catalog) (field : FieldMetadata) : Catalog :=
  ⟨catalog.fields.filter (fun known => known.name ≠ field.name) ++ [field]⟩

/-- The catalog of a list of fields, of which later ones count. -/
def ofList (fields : List FieldMetadata) : Catalog :=
  fields.foldl insert empty

def get? (catalog : Catalog) (name : String) : Option FieldMetadata :=
  catalog.fields.find? fun field => field.name = name

/-- The declared type of a field, `unknown` without metadata. -/
def fieldType (catalog : Catalog) (name : String) : FieldType :=
  match catalog.get? name with
  | some field => field.fieldType
  | none => .unknown

/-- Whether a field may not be aggregated. -/
def isRawDataOnly (catalog : Catalog) (name : String) : Bool :=
  (catalog.get? name).any FieldMetadata.isRawDataOnly

def size (catalog : Catalog) : Nat :=
  catalog.fields.length

end Catalog

end PagedQuery
