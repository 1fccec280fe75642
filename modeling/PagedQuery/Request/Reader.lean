import PagedQuery.Json.Reader
import PagedQuery.Json.Record
import PagedQuery.Request.Basic

/-!
# Reading requests

Requests are JSON records; filters, groups, metrics and sorts are tagged. What
a tag decides about is read as a whole before the tag is known, so there every
number and string counts, also those of fields that nobody asks for.

* `Filter.ofJson?`, `Group.ofJson?`, `Metric.ofJson?`, `Stat.ofJson?`, `SortClause.ofJson?`;
* `Filter.read?`, `SortClause.read?`: a filter or a sort that stands alone;
* `Request.ofJson?`, `Request.read?`: a whole request.
-/

namespace PagedQuery

open Json

/-- A finite number. -/
def Binary64.ofJson? : Json → Option Binary64
  | .number n => n.toBinary64?
  | _ => none

/-- A count, or a position. -/
def Json.natural? : Json → Option Nat
  | .number n => n.toUInt64?
  | _ => none

/-- A list of values of one kind. -/
def Json.list? (decode : Json → Option α) (value : Json) : Option (List α) :=
  value.items?.bind fun items => items.mapM decode

/-- A list whose items are tagged, inside `outer` arrays and objects. -/
def Json.taggedList? (outer : Nat) (decode : Json → Option α) (value : Json) :
    Option (List α) :=
  if value.isSound outer then value.list? decode else none

/-- The tagged value that a whole text writes. -/
def Json.readTagged? (decode : Json → Option α) (text : String) : Option α :=
  (Json.read? text).bind fun value => if value.isSound 0 then decode value else none

/-! ## Filters -/

/-- The text of a literal. Integers of 64 bits are kept as they are, other numbers are read as
doubles. -/
def Json.literal? : Json → Option String
  | .string text => text
  | .bool value => some (if value then "true" else "false")
  | .number n =>
    match n.toInt64? with
    | some i => some (toString i)
    | none => n.toBinary64?.map toString
  | _ => none

/-- The texts of a list of literals, or of a single one. -/
def Json.literals? : Json → Option (List String)
  | .array items => items.mapM literal?
  | value => value.literal?.map fun text => [text]

/-- What the tag of a filter says. -/
inductive FilterKind where
  | all
  | any
  | not
  | leaf (op : LeafOp)

namespace FilterKind

def ofName? : String → Option FilterKind
  | "and" => some .all
  | "or" => some .any
  | "not" => some .not
  | name => (LeafOp.ofName? name).map .leaf

/-- The kinds in the order of their numbers. -/
def byNumber : List FilterKind :=
  [.all, .any, .not, .leaf .eq, .leaf .eqi, .leaf .ge, .leaf .gt, .leaf .le, .leaf .lt,
    .leaf .isIn, .leaf .isNull, .leaf .contains, .leaf .textSearch]

/-- The kind of a tag: a name or, inside another filter, also a number. -/
def ofTag? (inner : Bool) : Json → Option FilterKind
  | .string name => name.bind ofName?
  | .number n => if inner then n.toUInt64?.bind fun i => byNumber[i]? else none
  | _ => none

end FilterKind

/-- A leaf without its tag. -/
def Leaf.ofJson? (op : LeafOp) (value : Json) : Option Leaf := do
  let r ← Record.of? [["field_path"], ["field_type"], ["values", "value"]] value
  some {
    op
    field := ← r.required? "field_path" string?
    fieldType := ← r.orDefault? "field_type" .unknown fun type => type.string?.bind FieldType.read?
    values := ← r.orDefault? "values" [] literals? }

/-- A filter of which at most `depth` stand inside each other. -/
def Filter.ofJsonWithin? : (depth : Nat) → (inner : Bool) → Json → Option Filter
  | 0, _, _ => none
  | depth + 1, inner, value => do
    let (tag, body) ← value.tagged?
    match ← FilterKind.ofTag? inner tag with
    | .all => do
      let r ← Record.of? [["filters"]] body
      (r.required? "filters" (list? (ofJsonWithin? depth true))).map .all
    | .any => do
      let r ← Record.of? [["filters"]] body
      (r.required? "filters" (list? (ofJsonWithin? depth true))).map .any
    | .not => do
      let r ← Record.of? [["filter"]] body
      (r.required? "filter" (ofJsonWithin? depth true)).map .not
    | .leaf op => (Leaf.ofJson? op body).map .leaf

/-- A filter. Sound values are never deep enough to reach the bound. -/
def Filter.ofJson? (value : Json) : Option Filter :=
  Filter.ofJsonWithin? maxDepth false value

/-- The filter that a JSON text writes. -/
def Filter.read? (text : String) : Option Filter :=
  Json.readTagged? Filter.ofJson? text

/-! ## Groups, metrics and statistics -/

def Group.ofJson? (value : Json) : Option Group := do
  let (tag, body) ← value.tagged?
  match ← tag.string? with
  | "attribute" =>
    let r ← Record.of? [["field"]] body
    some (.attribute (← r.required? "field" string?))
  | "time" =>
    let r ← Record.of? [["field"], ["granularity"]] body
    some (.time (← r.required? "field" string?)
      (← r.required? "granularity" fun unit =>
        (unit.choice? isNullOrEmpty).bind Granularity.ofName?))
  | "histogram" =>
    let r ← Record.of? [["field"], ["start"], ["end"], ["bucket_size"]] body
    some (.histogram (← r.required? "field" string?)
      (← r.required? "start" Binary64.ofJson?) (← r.required? "end" Binary64.ofJson?)
      (← r.required? "bucket_size" Binary64.ofJson?))
  | _ => none

/-- The metric of a field alone. -/
def Metric.ofField? (make : String → Metric) (body : Json) : Option Metric := do
  let r ← Record.of? [["field"]] body
  (r.required? "field" string?).map make

def Metric.ofJson? (value : Json) : Option Metric := do
  let (tag, body) ← value.tagged?
  match ← tag.string? with
  | "sum" => Metric.ofField? .sum body
  | "min" => Metric.ofField? .min body
  | "max" => Metric.ofField? .max body
  | "avg" => Metric.ofField? .avg body
  | "count" =>
    let r ← Record.of? [["field"]] body
    (r.orDefault? "field" none (Record.orNull? string?)).map .count
  | "distinct_count" => Metric.ofField? .distinctCount body
  | "last_value" =>
    let r ← Record.of? [["field"], ["time_field"]] body
    some (.lastValue (← r.required? "field" string?) (← r.required? "time_field" string?))
  | "percentile" | "percentiles" =>
    let r ← Record.of? [["field"], ["margin"]] body
    some (.percentile (← r.required? "field" string?) (← r.required? "margin" Binary64.ofJson?))
  | "calc" =>
    let r ← Record.of? [["expression"], ["name"]] body
    some (.calc (← r.required? "expression" string?)
      (← r.orDefault? "name" none (Record.orNull? string?)))
  | _ => none

def Stat.ofJson? (value : Json) : Option Stat := do
  let r ← Record.of? [["field"], ["kind"]] value
  some {
    field := ← r.required? "field" string?
    kind := ← r.required? "kind" fun kind => (kind.choice? isNull).bind StatKind.ofName? }

/-! ## Sorts -/

namespace SortClause

/-- The direction of a sort, ascending unless the record says otherwise. -/
def direction? (isNothing : Json → Bool) (r : Record) : Option Direction :=
  r.orDefault? "direction" .ascending fun direction =>
    (direction.choice? isNothing).bind Direction.ofName?

/-- A sort by a field, without its tag. -/
def rawOfJson? (isNothing : Json → Bool) (body : Json) : Option SortClause := do
  let r ← Record.of? [["field"], ["direction"]] body
  some (.raw (← r.required? "field" string?) (← direction? isNothing r))

/-- What an aggregate sort refers to: the first member that names a list. -/
def target? (members : List (String × Json)) : Option SortTarget :=
  match withKeys ["group", "metric"] members with
  | (list, index) :: _ =>
    index.natural?.map (if list = "group" then SortTarget.group else SortTarget.metric)
  | [] => none

/-- A sort by a group or metric, without its tag. It has no form without names. -/
def aggOfJson? (isNothing : Json → Bool) (body : Json) : Option SortClause := do
  let members ← body.members?
  let r ← Record.ofMembers? [["direction"]] members
  some (.agg (← target? members) (← direction? isNothing r))

def ofJson? (value : Json) : Option SortClause := do
  let (tag, body) ← value.tagged?
  match ← tag.string? with
  | "raw" => rawOfJson? isNullOrEmpty body
  | "agg" => aggOfJson? isNullOrEmpty body
  | _ => none

/-- The sort that a JSON text writes. -/
def read? (text : String) : Option SortClause :=
  Json.readTagged? ofJson? text

end SortClause

/-! ## Requests -/

namespace RequestKind

def ofJson? (value : Json) : Option RequestKind :=
  (value.choice? isNull).bind ofName?

end RequestKind

namespace Request

/-- The fields of a request. -/
def shape : Shape :=
  [["type"], ["fields"], ["filters"], ["groups"], ["metrics"], ["stats"], ["sorts"],
    ["offset"], ["limit"], ["distinct"]]

/-- The request of a JSON value. -/
def ofJson? (value : Json) : Option Request := do
  let r ← Record.of? shape value
  some {
    kind := ← r.orDefault? "type" none (Record.orNull? RequestKind.ofJson?)
    fields := ← r.orDefault? "fields" [] (list? string?)
    filters := ← r.orDefault? "filters" [] (taggedList? 1 Filter.ofJson?)
    groups := ← r.orDefault? "groups" [] (taggedList? 1 Group.ofJson?)
    metrics := ← r.orDefault? "metrics" [] (taggedList? 1 Metric.ofJson?)
    stats := ← r.orDefault? "stats" [] (list? Stat.ofJson?)
    sorts := ← r.orDefault? "sorts" [] (taggedList? 1 SortClause.ofJson?)
    offset := ← r.nullable? "offset" natural?
    limit := ← r.nullable? "limit" natural?
    distinct := ← r.orDefault? "distinct" false bool? }

/-- The request that a JSON text writes. -/
def read? (text : String) : Option Request :=
  (Json.read? text).bind ofJson?

end Request

end PagedQuery
