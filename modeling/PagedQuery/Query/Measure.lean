import PagedQuery.Query.Dimension

/-!
# Measures

A measure is a metric or statistic that has been checked, with the alias of
its column. Two kinds of metrics need more than the rows of the source. A last
value needs the greatest time of each group, which a joined sub-select
computes, one for each time field. A percentile needs the rank of each row and
the number of rows of its group, which a derived table adds as helper columns,
one pair for each field.

* `lastValueTimes`, `percentileWindows`: what the metrics of a request share;
* `Measure`, `Measure.ofMetrics`, `Measure.ofStats`: checked metrics and statistics;
* `percentileSource`, `lastValueJoin`: the derived table and the joined sub-selects.
-/

namespace PagedQuery

/-- The stand-in for null among numbers in join conditions. -/
def numericSentinel : Int := -999999999

/-- The stand-in for null among strings in join conditions. -/
def stringSentinel : String := "__NULL__"

/-- The alias of the derived table that adds helper columns. -/
def percentileAlias : String := "p"

/-- The alias of the source inside a joined sub-select. -/
def lastValueSourceAlias : String := "s"

/-- The column of the greatest time in a joined sub-select. -/
def maxTimeColumn : String := "max_time"

/-- The alias of the joined sub-select of a time field, by its position. -/
def lastValueAlias (join : Nat) : String :=
  "lv_" ++ toString join

/-- The column of a dimension in a joined sub-select, by its position. -/
def groupColumn (index : Nat) : String :=
  "g_" ++ toString index

/-! ## Shared parts -/

/-- The texts of a list, each where it occurs first. -/
def distinctTexts : (seen : List String) → List String → List String
  | _, [] => []
  | seen, text :: rest =>
    if seen.contains text then distinctTexts seen rest
    else text :: distinctTexts (seen ++ [text]) rest

/-- The time fields of the last values, each where it occurs first. The `n`-th one is joined
under the alias `lastValueAlias n`. -/
def lastValueTimes (metrics : List Metric) : List String :=
  distinctTexts [] <| metrics.filterMap fun
    | .lastValue _ timeField => some timeField
    | _ => none

/-- The helper columns of a percentile field: rank, and number of rows. -/
structure PercentileWindow where
  field : String
  rankColumn : String
  countColumn : String
deriving DecidableEq

def PercentileWindow.ofField (aliases : Aliases) (field : String) : PercentileWindow :=
  { field
    rankColumn := aliases.fit ("rn_" ++ field)
    countColumn := aliases.fit ("cnt_" ++ field) }

/-- The helper columns of the percentile fields, each where it occurs first. -/
def percentileWindows (aliases : Aliases) (metrics : List Metric) : List PercentileWindow :=
  (distinctTexts [] <| metrics.filterMap fun
    | .percentile field _ => some field
    | _ => none).map (PercentileWindow.ofField aliases)

/-! ## Measures -/

inductive MeasureShape where
  | aggregate (func : Aggregation) (field : Option String)
  /-- The value on the rows whose time is the one of the joined sub-select. -/
  | lastValue (field timeField : String) (join : Nat)
  | percentile (window : PercentileWindow) (margin : Binary64)
  /-- The number of nulls. -/
  | nullCount (field : String)
  | calc (expression : String)

/-- A checked metric or statistic. -/
structure Measure where
  shape : MeasureShape
  aliasName : String

namespace Measure

/-- The value of a measure over the rows of a relation. -/
def expr (qualifier : Option String) (m : Measure) : Expr :=
  match m.shape with
  | .aggregate func field => .aggregate func (field.map (columnOf qualifier))
  | .lastValue field timeField join =>
    .aggregate .max (some
      (.whenElseNull
        (.compare (columnOf qualifier timeField) .eq
          (columnOf (some (lastValueAlias join)) maxTimeColumn))
        (columnOf qualifier field)))
  | .percentile window margin =>
    .aggregate .min (some
      (.whenElseNull
        (.compare
          (.arithmetic .multiply
            (.arithmetic .divide (columnOf qualifier window.rankColumn)
              (columnOf qualifier window.countColumn))
            (.int 100))
          .ge (.literal (.float margin)))
        (columnOf qualifier window.field)))
  | .nullCount field =>
    .aggregate .sum (some (.case [(.isNull (columnOf qualifier field), .int 1)] (some (.int 0))))
  | .calc expression => .raw expression

def selectItem (qualifier : Option String) (m : Measure) : SelectItem :=
  { expr := m.expr qualifier, aliasName := some m.aliasName }

/-- Sums and averages need a field that is not known to be anything but a number. -/
def checkNumeric (catalog : Catalog) (field : String) : Except CompileError Unit :=
  let actual := catalog.fieldType field
  if actual.isNumeric ∨ actual = .unknown then .ok ()
  else .error (.typeMismatch field .double actual)

/-- Whether a number is a percentage. -/
def isPercentage (margin : Binary64) : Bool :=
  margin.isFinite && Binary64.le (Binary64.ofNat 0) margin &&
    Binary64.le margin (Binary64.ofNat 100)

/-- The shape of a metric and the name its alias is made from. `times` are the time fields of
all last values. -/
def shapeOf (catalog : Catalog) (times : List String) (aliases : Aliases) :
    Metric → Except CompileError (MeasureShape × String)
  | .sum field => do
    checkNumeric catalog field
    .ok (.aggregate .sum (some field), "sum_" ++ field)
  | .avg field => do
    checkNumeric catalog field
    .ok (.aggregate .avg (some field), "avg_" ++ field)
  | .min field => .ok (.aggregate .min (some field), "min_" ++ field)
  | .max field => .ok (.aggregate .max (some field), "max_" ++ field)
  | .distinctCount field =>
    .ok (.aggregate .countDistinct (some field), "distinct_count_" ++ field)
  | .count (some field) => .ok (.aggregate .count (some field), "count_" ++ field)
  | .count none => .ok (.aggregate .count none, "count_all")
  | .lastValue field timeField =>
    .ok (.lastValue field timeField (times.idxOf timeField), "last_value_" ++ field)
  | .percentile field margin =>
    if isPercentage margin then
      .ok (.percentile (PercentileWindow.ofField aliases field) margin, "percentile_" ++ field)
    else .error (.invalidMetric (.marginOutOfRange field margin))
  | .calc expression name =>
    if Text.isBlankText expression then .error (.invalidMetric .emptyExpression)
    else .ok (.calc expression, name.getD "calc")

/-- The first field of a metric that may not be aggregated. -/
def rawDataOnlyField? (catalog : Catalog) (metric : Metric) : Option String :=
  metric.fields.find? catalog.isRawDataOnly

/-- Checks a metric. -/
def ofMetric (catalog : Catalog) (times : List String) (metric : Metric) (aliases : Aliases) :
    Except CompileError (Measure × Aliases) :=
  match rawDataOnlyField? catalog metric with
  | some field => .error (.rawDataOnly field)
  | none => do
    let (shape, name) ← shapeOf catalog times aliases metric
    let (aliasName, aliases) ← issueAlias aliases name
    .ok ({ shape, aliasName }, aliases)

/-- Checks metrics one after the other. -/
def ofMetrics (catalog : Catalog) (times : List String) :
    List Metric → Aliases → Except CompileError (List Measure × Aliases)
  | [], aliases => .ok ([], aliases)
  | metric :: rest, aliases => do
    let (first, aliases) ← ofMetric catalog times metric aliases
    let (measures, aliases) ← ofMetrics catalog times rest aliases
    .ok (first :: measures, aliases)

def statShape (field : String) : StatKind → MeasureShape
  | .min => .aggregate .min (some field)
  | .max => .aggregate .max (some field)
  | .count => .aggregate .count (some field)
  | .distinctCount => .aggregate .countDistinct (some field)
  | .nullCount => .nullCount field

/-- Checks a statistic. -/
def ofStat (catalog : Catalog) (stat : Stat) (aliases : Aliases) :
    Except CompileError (Measure × Aliases) :=
  if catalog.isRawDataOnly stat.field then .error (.rawDataOnly stat.field)
  else do
    let (aliasName, aliases) ← issueAlias aliases (stat.kind.name ++ "_" ++ stat.field)
    .ok ({ shape := statShape stat.field stat.kind, aliasName }, aliases)

/-- Checks statistics one after the other. -/
def ofStats (catalog : Catalog) :
    List Stat → Aliases → Except CompileError (List Measure × Aliases)
  | [], aliases => .ok ([], aliases)
  | stat :: rest, aliases => do
    let (first, aliases) ← ofStat catalog stat aliases
    let (measures, aliases) ← ofStats catalog rest aliases
    .ok (first :: measures, aliases)

end Measure

/-! ## Derived tables and joins -/

/-- The helper columns of a window. -/
def PercentileWindow.selectItems (qualifier : Option String) (partition : List Expr)
    (window : PercentileWindow) : List SelectItem :=
  [{ expr := .window .rowNumber partition [(columnOf qualifier window.field, .ascending)]
     aliasName := some window.rankColumn },
   { expr := .window .countAll partition [], aliasName := some window.countColumn }]

/-- The source with helper columns, ranked within the groups after filtering. -/
def percentileSource (dialect : Dialect) (base : Relation) (filter : Option Expr)
    (dimensions : List Dimension) (windows : List PercentileWindow) : Relation :=
  let inner := base.qualifier
  let partition := dimensions.map (Dimension.expr dialect inner)
  .derived
    { Select.of base with
      items := { expr := .wildcard inner, aliasName := none } ::
        windows.flatMap (PercentileWindow.selectItems inner partition)
      filter }
    percentileAlias

/-- What stands for null in join conditions between values of a type. -/
def sentinelFor (dialect : Dialect) : FieldType → Expr
  | .integer => .int numericSentinel
  | .double => .int numericSentinel
  | .date => dialect.timestampSentinel
  | .string => .string stringSentinel
  | .unknown => .string stringSentinel

/-- The condition that a dimension is the same in the outer query and in a joined sub-select,
null being the same as null. -/
def sameGroup (dialect : Dialect) (outer : Option String) (joined : String) (index : Nat)
    (d : Dimension) : Expr :=
  let sentinel := sentinelFor dialect d.outputType
  .compare (.coalesce [d.expr dialect outer, sentinel]) .eq
    (.coalesce [columnOf (some joined) (groupColumn index), sentinel])

/-- The join with the greatest time of each group of the filtered source. -/
def lastValueJoin (dialect : Dialect) (index : Nat) (timeField : String) (source : Relation)
    (filter : Option Expr) (dimensions : List Dimension) (outer : Option String) : Join :=
  let inner := source.qualifier
  let aliasName := lastValueAlias index
  let keys := dimensions.map (Dimension.expr dialect inner)
  let conditions := dimensions.zipIdx.map fun (d, i) => sameGroup dialect outer aliasName i d
  { kind := .left
    relation := .derived
      { Select.of source with
        items :=
          (keys.zipIdx.map fun (key, i) => { expr := key, aliasName := some (groupColumn i) }) ++
            [{ expr := .aggregate .max (some (columnOf inner timeField))
               aliasName := some maxTimeColumn }]
        groupBy := keys
        filter }
      aliasName
    condition :=
      if conditions.isEmpty then .compare (.int 1) .eq (.int 1) else .all conditions }

end PagedQuery
