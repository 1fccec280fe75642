import PagedQuery.Json.Record
import PagedQuery.Request.Basic

/-!
# Writing requests as JSON

Everything is written under its first name, with every field, whether or not
it has its default value.

* `Filter.toJson`, `Group.toJson`, `Metric.toJson`, `Stat.toJson`, `SortClause.toJson`.
-/

namespace PagedQuery

open Json

/-- A finite double as the shortest number that reads back; there is no number for others. -/
def Binary64.toJson : Binary64 → Json
  | .finite negative m q _ =>
    let (digits, exponent) := if m = 0 then (0, 0) else shortest m q
    .number (.decimal negative digits exponent)
  | _ => .null

/-- A record under a tag. -/
def Json.ofTagged (tag : String) (members : List (String × Json)) : Json :=
  ofMembers ((tagKey, ofString tag) :: members)

/-- A text, if there is one. -/
def Json.ofString? : Option String → Json
  | some text => ofString text
  | none => .null

def Leaf.toJson (l : Leaf) : Json :=
  ofTagged l.op.name
    [("field_path", ofString l.field), ("field_type", ofString l.fieldType.name),
      ("values", ofStrings l.values)]

namespace Filter

mutual

def toJson : Filter → Json
  | .all filters => ofTagged "and" [("filters", .array (toJsons filters))]
  | .any filters => ofTagged "or" [("filters", .array (toJsons filters))]
  | .not filter => ofTagged "not" [("filter", filter.toJson)]
  | .leaf l => l.toJson

def toJsons : List Filter → List Json
  | [] => []
  | filter :: rest => filter.toJson :: toJsons rest

end

end Filter

def Group.toJson : Group → Json
  | .attribute field => ofTagged "attribute" [("field", ofString field)]
  | .time field granularity =>
    ofTagged "time" [("field", ofString field), ("granularity", ofString granularity.name)]
  | .histogram field start finish bucketSize =>
    ofTagged "histogram"
      [("field", ofString field), ("start", start.toJson), ("end", finish.toJson),
        ("bucket_size", bucketSize.toJson)]

def Metric.toJson : Metric → Json
  | .sum field => ofTagged "sum" [("field", ofString field)]
  | .min field => ofTagged "min" [("field", ofString field)]
  | .max field => ofTagged "max" [("field", ofString field)]
  | .avg field => ofTagged "avg" [("field", ofString field)]
  | .count field => ofTagged "count" [("field", ofString? field)]
  | .distinctCount field => ofTagged "distinct_count" [("field", ofString field)]
  | .lastValue field timeField =>
    ofTagged "last_value" [("field", ofString field), ("time_field", ofString timeField)]
  | .percentile field margin =>
    ofTagged "percentile" [("field", ofString field), ("margin", margin.toJson)]
  | .calc expression name =>
    ofTagged "calc" [("expression", ofString expression), ("name", ofString? name)]

def Stat.toJson (s : Stat) : Json :=
  ofMembers [("field", ofString s.field), ("kind", ofString s.kind.name)]

def SortClause.toJson : SortClause → Json
  | .raw field direction =>
    ofTagged "raw" [("field", ofString field), ("direction", ofString direction.name)]
  | .agg (.group index) direction =>
    ofTagged "agg" [("group", ofNat index), ("direction", ofString direction.name)]
  | .agg (.metric index) direction =>
    ofTagged "agg" [("metric", ofNat index), ("direction", ofString direction.name)]

end PagedQuery
