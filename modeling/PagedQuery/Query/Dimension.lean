import PagedQuery.Query.Alias
import PagedQuery.Query.Predicate
import PagedQuery.Histogram

/-!
# Dimensions

A dimension is a group that has been checked against what is known of its
field. It belongs to no relation yet: the same dimension is written for the
outer query, for a derived table and for joined sub-selects.

* `TimeSource`, `timeSource`: how a field gives a time;
* `Dimension`, `Dimension.ofGroup`: checked groups;
* `Dimension.expr`: the value that rows are grouped by.
-/

namespace PagedQuery

/-- How a column holds a time. -/
inductive TimeSource where
  /-- As a date or timestamp. -/
  | native
  /-- As the number of the year, which is never truncated. -/
  | year
  | epochSeconds
  | epochMillis
deriving DecidableEq

def TimeSource.ofPattern : TimePattern → TimeSource
  | .year => .year
  | .epochSeconds => .epochSeconds
  | .epochMillis => .epochMillis

/-- How a field gives a time: dates as they are, integers by their pattern. -/
def timeSource (catalog : Catalog) (field : String) : Except CompileError TimeSource :=
  match catalog.get? field with
  | none => .error (.unknownField field)
  | some metadata =>
    match metadata.timePattern with
    | none =>
      if metadata.fieldType = .date then .ok .native
      else .error (.unsupportedTimeSource field (.noPattern metadata.fieldType))
    | some pattern =>
      if metadata.fieldType = .integer then .ok (.ofPattern pattern)
      else
        .error (.unsupportedTimeSource field (.patternNeedsInteger pattern metadata.fieldType))

inductive DimensionShape where
  | attribute
  | time (source : TimeSource) (granularity : Granularity)
  | histogram (points : List Binary64)

/-- A checked group. -/
structure Dimension where
  field : String
  shape : DimensionShape
  aliasName : Option String
  /-- The type of the values that rows are grouped by. -/
  outputType : FieldType

/-- An alias for a name. -/
def issueAlias (aliases : Aliases) (name : String) : Except CompileError (String × Aliases) :=
  match aliases.generate name with
  | (some aliasName, aliases) => .ok (aliasName, aliases)
  | (none, _) => .error (.aliasExhausted name)

namespace Dimension

/-- The label `lower;upper` for each point, then the one past the last point; an end that is
open is left empty. -/
def bucketLabels : (lower : String) → List Binary64 → List String
  | lower, [] => [lower ++ ";"]
  | lower, point :: rest =>
    (lower ++ ";" ++ toString point) :: bucketLabels (toString point) rest

/-- The label of the bucket that a number falls into, null for null. -/
def histogramCase (value : Expr) (points : List Binary64) : Expr :=
  let labels := (bucketLabels "" points).map Expr.string
  let below := (points.zip labels).map fun (point, label) =>
    (Expr.compare value .lt (.literal (.float point)), label)
  .case ((.isNull value, .null) :: below) labels.getLast?

/-- The value that rows of a relation are grouped by. -/
def expr (dialect : Dialect) (qualifier : Option String) (d : Dimension) : Expr :=
  let column := columnOf qualifier d.field
  match d.shape with
  | .attribute => column
  | .time .year _ => column
  | .time .native granularity => dialect.truncate column granularity
  | .time .epochSeconds granularity => dialect.truncate (dialect.epochSeconds column) granularity
  | .time .epochMillis granularity => dialect.truncate (dialect.epochMillis column) granularity
  | .histogram points => histogramCase column points

def selectItem (dialect : Dialect) (qualifier : Option String) (d : Dimension) : SelectItem :=
  { expr := d.expr dialect qualifier, aliasName := d.aliasName }

/-- Checks the group of an attribute; it has an alias only if a sort refers to it. -/
def ofAttribute (catalog : Catalog) (sorted : Bool) (field : String) (aliases : Aliases) :
    Except CompileError (Dimension × Aliases) := do
  let (aliasName, aliases) ←
    if sorted then
      (issueAlias aliases field).map fun (aliasName, aliases) => (some aliasName, aliases)
    else .ok (none, aliases)
  .ok ({ field, shape := .attribute, aliasName, outputType := catalog.fieldType field }, aliases)

/-- Checks the group of a time. A column of years has no finer unit. -/
def ofTime (catalog : Catalog) (field : String) (granularity : Granularity)
    (aliases : Aliases) : Except CompileError (Dimension × Aliases) := do
  let source ← timeSource catalog field
  if source = .year ∧ granularity ≠ .year then
    .error (.unsupportedGranularity field granularity)
  else
    let (aliasName, aliases) ← issueAlias aliases ("time_" ++ granularity.unit ++ "_" ++ field)
    .ok ({ field, shape := .time source granularity, aliasName := some aliasName
           outputType := if source = .year then .integer else .date }, aliases)

/-- Checks the group of a histogram, which needs a field that is known to be a number. -/
def ofHistogram (catalog : Catalog) (field : String) (start finish bucketSize : Binary64)
    (aliases : Aliases) : Except CompileError (Dimension × Aliases) :=
  match catalog.get? field with
  | none => .error (.unknownField field)
  | some metadata =>
    if !metadata.fieldType.isNumeric then
      .error (.typeMismatch field .double metadata.fieldType)
    else match Histogram.points? Arithmetic.binary64 start finish bucketSize with
      | none => .error (.invalidHistogram field start finish bucketSize)
      | some points => do
        let (aliasName, aliases) ← issueAlias aliases ("hist_" ++ field)
        .ok
          ({ field, shape := .histogram points, aliasName := some aliasName
             outputType := .string }, aliases)

/-- Checks a group; `sorted` tells whether a sort refers to it. -/
def ofGroup (catalog : Catalog) (sorted : Bool) (group : Group) (aliases : Aliases) :
    Except CompileError (Dimension × Aliases) :=
  if catalog.isRawDataOnly group.field then .error (.rawDataOnly group.field)
  else match group with
    | .attribute field => ofAttribute catalog sorted field aliases
    | .time field granularity => ofTime catalog field granularity aliases
    | .histogram field start finish bucketSize =>
      ofHistogram catalog field start finish bucketSize aliases

/-- Checks the groups of a request, the first of which has the number `index`. -/
def ofGroups (catalog : Catalog) (sorted : List Nat) (index : Nat) :
    List Group → Aliases → Except CompileError (List Dimension × Aliases)
  | [], aliases => .ok ([], aliases)
  | group :: rest, aliases => do
    let (first, aliases) ← ofGroup catalog (sorted.contains index) group aliases
    let (dimensions, aliases) ← ofGroups catalog sorted (index + 1) rest aliases
    .ok (first :: dimensions, aliases)

end Dimension

end PagedQuery
