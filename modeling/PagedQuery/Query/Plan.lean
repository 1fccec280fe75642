import PagedQuery.Query.Measure

/-!
# Queries

A query is a request put to a source. It is checked as a whole, planned as a
select statement, and written in a dialect.

* `Source`, `Query`: what is asked of what, and the calls that build it up;
* `Query.check`: whether the clauses fit together;
* `Query.plan`: the select statement;
* `Query.compile`, `compileRequest`: its text and bound values.
-/

namespace PagedQuery

/-- The alias of the source wherever it needs one. -/
def baseAlias : String := "t"

/-- Where rows come from. -/
inductive Source where
  | table (schema name : String)
  /-- A query of the caller. -/
  | custom (sql : String)
deriving DecidableEq

namespace Source

/-- The relation of a source. A query always has an alias. -/
def relation (aliasName : Option String) : Source → Relation
  | .table schema name => .table schema name aliasName
  | .custom sql => .custom sql (aliasName.getD baseAlias)

def isCustom : Source → Bool
  | .custom _ => true
  | .table .. => false

/-- Names and queries must not be blank. -/
def check : Source → Except CompileError Unit
  | .table schema name =>
    if Text.isBlankText schema || Text.isBlankText name then
      .error (.invalidQuery .emptyTableName)
    else .ok ()
  | .custom sql =>
    if Text.isBlankText sql then .error (.invalidQuery .emptyCustomSql) else .ok ()

end Source

/-- The settings of a compilation. -/
structure CompileOptions where
  dialect : Dialect
  maxAliasLength : Nat
deriving DecidableEq

def CompileOptions.default : CompileOptions :=
  { dialect := .postgres, maxAliasLength := Aliases.defaultMaxLength }

/-- A request put to a source. -/
structure Query where
  source : Source
  catalog : Catalog
  request : Request

namespace Query

/-! ## Building -/

def new (source : Source) (catalog : Catalog) : Query :=
  { source, catalog, request := Request.empty }

def withKind (q : Query) (kind : RequestKind) : Query :=
  { q with request := { q.request with kind := some kind } }

def withFields (q : Query) (fields : List String) : Query :=
  { q with request := { q.request with fields := q.request.fields ++ fields } }

def withFilters (q : Query) (filters : List Filter) : Query :=
  { q with request := { q.request with filters := q.request.filters ++ filters } }

def withGroups (q : Query) (groups : List Group) : Query :=
  { q with request := { q.request with groups := q.request.groups ++ groups } }

def withMetrics (q : Query) (metrics : List Metric) : Query :=
  { q with request := { q.request with metrics := q.request.metrics ++ metrics } }

def withStats (q : Query) (stats : List Stat) : Query :=
  { q with request := { q.request with stats := q.request.stats ++ stats } }

def withSorts (q : Query) (sorts : List SortClause) : Query :=
  { q with request := { q.request with sorts := q.request.sorts ++ sorts } }

def withOffset (q : Query) (offset : Nat) : Query :=
  { q with request := { q.request with offset := some offset } }

def withLimit (q : Query) (limit : Nat) : Query :=
  { q with request := { q.request with limit := some limit } }

def withDistinct (q : Query) (distinct : Bool) : Query :=
  { q with request := { q.request with distinct } }

end Query

/-! ## Checks -/

namespace SortClause

def isRaw : SortClause → Bool
  | .raw .. => true
  | .agg .. => false

def isAgg : SortClause → Bool
  | .raw .. => false
  | .agg .. => true

end SortClause

namespace Request

/-- Whether the request asks for anything but fields. -/
def isAggregated (r : Request) : Bool :=
  !r.groups.isEmpty || !r.metrics.isEmpty || !r.stats.isEmpty

/-- Whether the clauses are those of a kind of request. -/
def hasKind (r : Request) : RequestKind → Bool
  | .raw => !r.fields.isEmpty
  | .agg => !r.groups.isEmpty || !r.metrics.isEmpty
  | .stats => !r.stats.isEmpty && r.groups.isEmpty && r.metrics.isEmpty

/-- The first reason for which the clauses do not fit together. -/
def fault? (r : Request) : Option QueryFault :=
  let rawSorts := r.sorts.any SortClause.isRaw
  let aggSorts := r.sorts.any SortClause.isAgg
  if r.fields.isEmpty && !r.isAggregated then some .nothingAsked
  else if !r.fields.isEmpty && r.isAggregated then some .fieldsWithAggregates
  else if !r.stats.isEmpty && !r.groups.isEmpty then some .statsWithGroups
  else if r.fields.any Text.isBlankText then some .emptyFieldName
  else if rawSorts && aggSorts then some .rawWithAggregateSorts
  else if rawSorts && r.isAggregated then some .rawSortOnAggregates
  else if aggSorts && !r.isAggregated then some .aggregateSortOnFields
  else match r.kind with
    | some kind => if r.hasKind kind then none else some (.otherKind kind)
    | none => none

end Request

namespace Query

/-- Checks that the clauses of a query fit together. -/
def check (q : Query) : Except CompileError Unit := do
  q.source.check
  match q.request.fault? with
  | some fault => .error (.invalidQuery fault)
  | none => .ok ()

/-! ## Planning -/

/-- The positions of the groups that sorts refer to. -/
def sortedGroups (sorts : List SortClause) : List Nat :=
  sorts.filterMap fun
    | .agg (.group index) _ => some index
    | _ => none

/-- What a sort orders by: a column of the source, or the alias of a group or metric. -/
def sortKey (dimensions : List Dimension) (measures : List Measure) (outer : Option String) :
    SortClause → Except CompileError (Expr × Direction)
  | .raw field direction => .ok (columnOf outer field, direction)
  | .agg target direction =>
    let aliasName := match target with
      | .group index => dimensions[index]?.bind Dimension.aliasName
      | .metric index => measures[index]?.map Measure.aliasName
    match aliasName with
    | some aliasName => .ok (.bare aliasName, direction)
    | none => .error (.unresolvedSort target)

/-- The joins of the last values, the first of which has the number `index`. -/
def lastValueJoins (q : Query) (ctx : Context) (dimensions : List Dimension)
    (outer : Option String) (index : Nat) : List String → Except CompileError (List Join)
  | [] => .ok []
  | timeField :: rest => do
    let source := q.source.relation (some lastValueSourceAlias)
    let filter ← predicateOf ctx source.qualifier q.request.filters
    let first := lastValueJoin ctx.dialect index timeField source filter dimensions outer
    .ok (first :: (← q.lastValueJoins ctx dimensions outer (index + 1) rest))

/-- The select list: fields, groups, metrics and statistics. -/
def selectItems (q : Query) (dialect : Dialect) (outer : Option String)
    (dimensions : List Dimension) (measures stats : List Measure) : List SelectItem :=
  (q.request.fields.map fun field => { expr := columnOf outer field, aliasName := none }) ++
  dimensions.map (Dimension.selectItem dialect outer) ++
  measures.map (Measure.selectItem outer) ++
  stats.map (Measure.selectItem outer)

/-- The select statement of a query. With percentiles the filters go into the derived table
that ranks the rows. -/
def plan (q : Query) (options : CompileOptions) : Except CompileError Select := do
  let r := q.request
  let ctx : Context := { catalog := q.catalog, dialect := options.dialect }
  let times := lastValueTimes r.metrics
  let aliases := Aliases.new options.maxAliasLength
  let windows := percentileWindows aliases r.metrics
  let (dimensions, aliases) ←
    Dimension.ofGroups q.catalog (sortedGroups r.sorts) 0 r.groups aliases
  let (measures, aliases) ← Measure.ofMetrics q.catalog times r.metrics aliases
  let (stats, _) ← Measure.ofStats q.catalog r.stats aliases
  let needsAlias := q.source.isCustom || !windows.isEmpty || !times.isEmpty
  let base := q.source.relation (if needsAlias then some baseAlias else none)
  let filter ← predicateOf ctx base.qualifier r.filters
  let source :=
    if windows.isEmpty then base
    else percentileSource options.dialect base filter dimensions windows
  let outer := source.qualifier
  let joins ← q.lastValueJoins ctx dimensions outer 0 times
  let orderBy ← r.sorts.mapM (sortKey dimensions measures outer)
  .ok {
    distinct := r.distinct
    items := q.selectItems options.dialect outer dimensions measures stats
    source
    joins
    filter := if windows.isEmpty then filter else none
    groupBy := dimensions.map (Dimension.expr options.dialect outer)
    orderBy
    limit := r.limit
    offset := r.offset }

/-- The text and bound values of a query. -/
def compile (q : Query) (options : CompileOptions) : Except CompileError ParametrizedQuery := do
  q.check
  let select ← q.plan options
  match select.write options.dialect with
  | .ok query => .ok query
  | .error fault => .error (.unwritable fault)

end Query

/-- Compiles a request that is put to a source. -/
def compileRequest (request : Request) (source : Source) (catalog : Catalog)
    (options : CompileOptions) : Except CompileError ParametrizedQuery :=
  Query.compile { source, catalog, request } options

end PagedQuery
