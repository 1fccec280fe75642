import PagedQuery.Request.Filter
import PagedQuery.Request.Aggregate

/-!
# Requests

* `Direction`, `SortTarget`, `SortClause`: what rows are ordered by;
* `RequestKind`, `Request`: a whole request.
-/

namespace PagedQuery

inductive Direction where
  | ascending
  | descending
deriving DecidableEq

namespace Direction

def name : Direction → String
  | .ascending => "asc"
  | .descending => "desc"

def ofName? : String → Option Direction
  | "asc" | "ASC" => some .ascending
  | "desc" | "DESC" => some .descending
  | _ => none

end Direction

/-- What an aggregate sort refers to, by position. -/
inductive SortTarget where
  | group (index : Nat)
  | metric (index : Nat)
deriving DecidableEq

inductive SortClause where
  /-- By a field of the source. -/
  | raw (field : String) (direction : Direction)
  /-- By a group or metric of the request. -/
  | agg (target : SortTarget) (direction : Direction)
deriving DecidableEq

/-- The declared shape of a request. -/
inductive RequestKind where
  | raw
  | agg
  | stats
deriving DecidableEq

namespace RequestKind

def name : RequestKind → String
  | .raw => "raw"
  | .agg => "agg"
  | .stats => "stats"

/-- The name that messages use. -/
def label : RequestKind → String
  | .raw => "Raw"
  | .agg => "Agg"
  | .stats => "Stats"

def ofName? : String → Option RequestKind
  | "raw" => some .raw
  | "agg" | "aggregation" => some .agg
  | "stats" => some .stats
  | _ => none

end RequestKind

/-- A structured query, without the source it is put to. -/
structure Request where
  kind : Option RequestKind
  fields : List String
  filters : List Filter
  groups : List Group
  metrics : List Metric
  stats : List Stat
  sorts : List SortClause
  offset : Option Nat
  limit : Option Nat
  distinct : Bool

/-- The request that asks for nothing. -/
def Request.empty : Request :=
  { kind := none, fields := [], filters := [], groups := [], metrics := [], stats := []
    sorts := [], offset := none, limit := none, distinct := false }

end PagedQuery
