import PagedQuery.Binary64.Decimal

/-!
# Groups, metrics and statistics

* `Granularity`, `Group`: what rows are grouped by;
* `Metric`: what is computed for each group;
* `StatKind`, `Stat`: what is computed for a whole field.
-/

namespace PagedQuery

/-- The unit that a time is truncated to. -/
inductive Granularity where
  | second
  | minute
  | hour
  | day
  | week
  | month
  | quarter
  | year
deriving DecidableEq

namespace Granularity

/-- The name of the unit. -/
def unit : Granularity → String
  | .second => "second"
  | .minute => "minute"
  | .hour => "hour"
  | .day => "day"
  | .week => "week"
  | .month => "month"
  | .quarter => "quarter"
  | .year => "year"

/-- The name in requests. -/
def name : Granularity → String
  | .second => "SECOND"
  | .minute => "MINUTE"
  | .hour => "HOUR"
  | .day => "DAY"
  | .week => "WEEK"
  | .month => "MONTH"
  | .quarter => "QUARTER"
  | .year => "YEAR"

def ofName? : String → Option Granularity
  | "SECOND" | "second" => some .second
  | "MINUTE" | "minute" => some .minute
  | "HOUR" | "hour" => some .hour
  | "DAY" | "day" => some .day
  | "WEEK" | "week" => some .week
  | "MONTH" | "month" => some .month
  | "QUARTER" | "quarter" => some .quarter
  | "YEAR" | "year" => some .year
  | _ => none

end Granularity

/-- A dimension that rows are grouped by. -/
inductive Group where
  /-- The value of a field. -/
  | attribute (field : String)
  /-- A time, truncated. -/
  | time (field : String) (granularity : Granularity)
  /-- The bucket that a number falls into. -/
  | histogram (field : String) (start finish bucketSize : Binary64)
deriving DecidableEq

/-- The field that a group reads. -/
def Group.field : Group → String
  | .attribute field => field
  | .time field _ => field
  | .histogram field _ _ _ => field

/-- A value computed for each group. -/
inductive Metric where
  | sum (field : String)
  | min (field : String)
  | max (field : String)
  | avg (field : String)
  /-- The number of values, or of rows if no field is given. -/
  | count (field : Option String)
  | distinctCount (field : String)
  /-- The value on the rows with the greatest time. -/
  | lastValue (field timeField : String)
  /-- The least value that at least `margin` percent of the rows do not exceed. -/
  | percentile (field : String) (margin : Binary64)
  /-- An expression of the caller, taken as it is. -/
  | calc (expression : String) (name : Option String)
deriving DecidableEq

namespace Metric

/-- The fields that a metric reads. -/
def fields : Metric → List String
  | .sum field => [field]
  | .min field => [field]
  | .max field => [field]
  | .avg field => [field]
  | .count field => field.toList
  | .distinctCount field => [field]
  | .lastValue field timeField => [field, timeField]
  | .percentile field _ => [field]
  | .calc .. => []

def isPercentile : Metric → Bool
  | .percentile .. => true
  | _ => false

end Metric

/-- A statistic of a whole field. -/
inductive StatKind where
  | min
  | max
  | count
  | distinctCount
  | nullCount
deriving DecidableEq

namespace StatKind

def name : StatKind → String
  | .min => "min"
  | .max => "max"
  | .count => "count"
  | .distinctCount => "distinct_count"
  | .nullCount => "null_count"

def ofName? : String → Option StatKind
  | "min" => some .min
  | "max" => some .max
  | "count" => some .count
  | "distinct_count" => some .distinctCount
  | "null_count" => some .nullCount
  | _ => none

end StatKind

structure Stat where
  field : String
  kind : StatKind
deriving DecidableEq

end PagedQuery
