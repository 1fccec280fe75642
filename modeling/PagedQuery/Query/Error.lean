import PagedQuery.Statement.Text

/-!
# Compile errors

* `QueryFault`, `TimeSourceFault`, `MetricFault`: causes with a text of their own;
* `CompileError`: why a query has no statement;
* `CompileError.message`: what is said about it.
-/

namespace PagedQuery

/-- Why the clauses of a query do not make one. -/
inductive QueryFault where
  | emptyTableName
  | emptyCustomSql
  | nothingAsked
  | fieldsWithAggregates
  | statsWithGroups
  | emptyFieldName
  | rawWithAggregateSorts
  | rawSortOnAggregates
  | aggregateSortOnFields
  | otherKind (declared : RequestKind)
  | emptyInFilter (field : String)
  | valueCount (op : LeafOp) (field : String) (count : Nat)
deriving DecidableEq

def QueryFault.message : QueryFault → String
  | .emptyTableName => "schema and table names must not be empty"
  | .emptyCustomSql => "custom SQL must not be empty"
  | .nothingAsked => "query needs at least one field, group, metric or stat"
  | .fieldsWithAggregates => "raw fields cannot be combined with groups, metrics or stats"
  | .statsWithGroups => "stats are computed over whole fields and cannot be grouped"
  | .emptyFieldName => "field names must not be empty"
  | .rawWithAggregateSorts => "raw and aggregate sorts are mutually exclusive"
  | .rawSortOnAggregates => "raw sorts apply to raw queries only"
  | .aggregateSortOnFields => "aggregate sorts apply to aggregated queries only"
  | .otherKind declared => "clauses do not match query type " ++ declared.label
  | .emptyInFilter field => "'in' filter on '" ++ field ++ "' needs at least one value"
  | .valueCount op field count =>
    "'" ++ op.name ++ "' filter on '" ++ field ++ "' needs exactly one value, got " ++
      toString count

/-- Why a field gives no time. -/
inductive TimeSourceFault where
  | noPattern (fieldType : FieldType)
  | patternNeedsInteger (pattern : TimePattern) (fieldType : FieldType)
deriving DecidableEq

def TimeSourceFault.message : TimeSourceFault → String
  | .noPattern fieldType => "type " ++ fieldType.name ++ " has no time pattern"
  | .patternNeedsInteger pattern fieldType =>
    "pattern " ++ pattern.label ++ " requires an INTEGER column, found " ++ fieldType.name

/-- Why a metric cannot be computed. -/
inductive MetricFault where
  | marginOutOfRange (field : String) (margin : Binary64)
  | emptyExpression
deriving DecidableEq

def MetricFault.message : MetricFault → String
  | .marginOutOfRange field margin =>
    "percentile margin for '" ++ field ++ "' must be within [0, 100], got " ++ toString margin
  | .emptyExpression => "calc metric needs an expression"

inductive CompileError where
  | invalidQuery (fault : QueryFault)
  /-- A field must be known and is not. -/
  | unknownField (field : String)
  | typeMismatch (field : String) (expected actual : FieldType)
  | unsupportedFilter (op : LeafOp) (fieldType : FieldType)
  | invalidLiteral (field value : String) (fieldType : FieldType)
  | invalidHistogram (field : String) (start finish bucketSize : Binary64)
  | unsupportedTimeSource (field : String) (fault : TimeSourceFault)
  | unsupportedGranularity (field : String) (granularity : Granularity)
  | invalidMetric (fault : MetricFault)
  /-- A field that may not be aggregated is. -/
  | rawDataOnly (field : String)
  /-- A sort refers to a group or metric that is not there. -/
  | unresolvedSort (target : SortTarget)
  | aliasExhausted (name : String)
  | unwritable (fault : WriteError)
deriving DecidableEq

def CompileError.message : CompileError → String
  | .invalidQuery fault => "Invalid query: " ++ fault.message
  | .unknownField field => "No metadata for field '" ++ field ++ "'"
  | .typeMismatch field expected actual =>
    "Field '" ++ field ++ "' has type " ++ actual.name ++ " but " ++ expected.name ++
      " was expected"
  | .unsupportedFilter op fieldType =>
    "Filter '" ++ op.name ++ "' is not supported for type " ++ fieldType.name
  | .invalidLiteral field value fieldType =>
    "Value '" ++ value ++ "' for field '" ++ field ++ "' is not a valid " ++ fieldType.name
  | .invalidHistogram field start finish bucketSize =>
    "Invalid histogram on '" ++ field ++ "': start=" ++ toString start ++ ", end=" ++
      toString finish ++ ", bucket_size=" ++ toString bucketSize ++
      " (need start < end, bucket_size > 0 and at least one full bucket)"
  | .unsupportedTimeSource field fault =>
    "Field '" ++ field ++ "' cannot be used as time: " ++ fault.message
  | .unsupportedGranularity field granularity =>
    "Granularity '" ++ granularity.unit ++ "' is not supported for field '" ++ field ++ "'"
  | .invalidMetric fault => "Invalid metric: " ++ fault.message
  | .rawDataOnly field => "Field '" ++ field ++ "' is raw-data-only and cannot be aggregated"
  | .unresolvedSort (.group index) => "Sort references unknown group #" ++ toString index
  | .unresolvedSort (.metric index) => "Sort references unknown metric #" ++ toString index
  | .aliasExhausted name => "Alias counter exhausted for '" ++ name ++ "'"
  | .unwritable fault => "SQL rendering failed: " ++ fault.message

end PagedQuery
