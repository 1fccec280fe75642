import PagedQuery.Proofs.Query.Lexing
import PagedQuery.Proofs.Query.Values

/-!
# Groups of a query

The rows of a source that pass the filters of a query, grouped by the keys of
its dimensions, and what metrics and statistics are of the rows of a group.
Nothing here looks at how a query is planned; the plan of a query has one row
for each group.

* `Metric.over`, `Stat.over`: metrics and statistics of a list of rows;
* `Query.filteredRows`, `Query.groups`: the rows of a query and their groups;
* `PlanParts.cells_select`: the rows of a plan;
* `Query.rows_latestSelect`: the rows of a joined sub-select.
-/

namespace PagedQuery

variable {δ : Type} [LinearOrder δ]

/-! ## Metrics and statistics of rows -/

/-- The data in a column. -/
def dataOf (rows : List (Row δ)) (field : String) : List δ :=
  rows.filterMap fun row => Row.cell row field

/-- The rows that carry the greatest time. -/
def latestRows (rows : List (Row δ)) (timeField : String) : List (Row δ) :=
  rows.filter fun row =>
    (Row.cell row timeField).isSome && Row.cell row timeField = (dataOf rows timeField).max?

/-- The greatest datum on the rows that carry the greatest time. -/
def lastValueOf (rows : List (Row δ)) (field timeField : String) : Option δ :=
  (dataOf (latestRows rows timeField) field).max?

/-- The number of rows that a datum is not exceeded in. -/
def reachedBy (rows : List (Row δ)) (field : String) (datum : δ) : Nat :=
  rows.countP fun row => (Row.cell row field).any (· ≤ datum)

/-- The least datum that is not exceeded in at least `margin` percent of the rows. -/
def percentileOf (rows : List (Row δ)) (field : String) (margin : ℚ) : Option δ :=
  ((dataOf rows field).filter fun datum =>
    margin * rows.length ≤ 100 * (reachedBy rows field datum : ℚ)).min?

/-- What a metric is of a list of rows. An expression of the caller is left open. -/
def Metric.over (db : Warehouse δ) (rows : List (Row δ)) : Metric → Option δ
  | .sum field => db.summarize .sum (dataOf rows field)
  | .avg field => db.summarize .avg (dataOf rows field)
  | .min field => db.summarize .min (dataOf rows field)
  | .max field => db.summarize .max (dataOf rows field)
  | .distinctCount field => db.summarize .countDistinct (dataOf rows field)
  | .count (some field) => db.summarize .count (dataOf rows field)
  | .count none => some (db.number rows.length)
  | .lastValue field timeField => lastValueOf rows field timeField
  | .percentile field margin => percentileOf rows field margin.toRat
  | .calc .. => none

/-- What a statistic is of a list of rows. -/
def Stat.over (db : Warehouse δ) (rows : List (Row δ)) (stat : Stat) : Option δ :=
  match stat.kind with
  | .min => db.summarize .min (dataOf rows stat.field)
  | .max => db.summarize .max (dataOf rows stat.field)
  | .count => db.summarize .count (dataOf rows stat.field)
  | .distinctCount => db.summarize .countDistinct (dataOf rows stat.field)
  | .nullCount =>
    db.summarize .sum (rows.map fun row =>
      db.number (if (Row.cell row stat.field).isNone then 1 else 0))

/-! ## Groups -/

/-- A dimension without its alias. -/
def Dimension.unnamed (d : Dimension) : Dimension :=
  { d with aliasName := none }

/-- The dimensions of a query that compiles. -/
def Query.dimensions (q : Query) (options : CompileOptions) : List Dimension :=
  match Dimension.ofGroups q.catalog (Query.sortedGroups q.request.sorts) 0 q.request.groups
      (Aliases.new options.maxAliasLength) with
  | .ok (dimensions, _) => dimensions.map Dimension.unnamed
  | .error _ => []

/-- The rows of the source that pass the filters. -/
def Query.filteredRows (db : Warehouse δ) (q : Query) (dialect : Dialect) : List (Row δ) :=
  ((q.source.relation none).rows db).filter (q.passes db dialect)

/-- The filtered rows by their keys. -/
def Query.groups (db : Warehouse δ) (q : Query) (options : CompileOptions) :
    List (List (Option δ) × List (Row δ)) :=
  keyedGroups (q.dimensions options) (fun d row => d.key db options.dialect row)
    (q.filteredRows db options.dialect)

theorem Query.groups_of_dimensions {db : Warehouse δ} {q : Query} {options : CompileOptions}
    {dimensions : List Dimension} {after : Aliases}
    (h : Dimension.ofGroups q.catalog (Query.sortedGroups q.request.sorts) 0 q.request.groups
      (Aliases.new options.maxAliasLength) = .ok (dimensions, after)) :
    q.groups db options = keyedGroups dimensions (fun d row => d.key db options.dialect row)
      (q.filteredRows db options.dialect) := by
  rw [groups, Query.dimensions, h]
  exact keyedGroups_map ..

/-- A group makes the same dimension, but for its alias, whatever sorts there are. -/
theorem Dimension.unnamed_eq_of_ofGroup {catalog : Catalog} {sorted sorted' : Bool} {group : Group}
    {d d' : Dimension} {before before' after after' : Aliases}
    (h : ofGroup catalog sorted group before = .ok (d, after))
    (h' : ofGroup catalog sorted' group before' = .ok (d', after')) :
    d.unnamed = d'.unnamed := by
  have hattribute {sorted : Bool} {field : String} {d : Dimension} {before after : Aliases}
      (h : ofAttribute catalog sorted field before = .ok (d, after)) :
      d.unnamed = ⟨field, .attribute, none, catalog.fieldType field⟩ := by
    dsimp only [ofAttribute] at h
    split at h
    · obtain ⟨⟨aliasName, aliases⟩, -, h⟩ := bind_eq_ok_iff.mp h
      cases h
      rfl
    · cases h
      rfl
  unfold ofGroup at h h'
  split at h
  · cases h
  rw [if_neg (by assumption)] at h'
  cases group with
  | «attribute» field => rw [hattribute h, hattribute h']
  | time field granularity =>
    obtain ⟨source, hsource, h⟩ := bind_eq_ok_iff.mp h
    obtain ⟨source', hsource', h'⟩ := bind_eq_ok_iff.mp h'
    cases Except.ok.inj (hsource.symm.trans hsource')
    split at h
    · cases h
    · rw [if_neg (by assumption)] at h'
      obtain ⟨_, -, h⟩ := bind_eq_ok_iff.mp h
      obtain ⟨_, -, h'⟩ := bind_eq_ok_iff.mp h'
      cases h
      cases h'
      rfl
  | histogram field start finish bucketSize =>
    simp only [ofHistogram] at h h'
    split at h
    · cases h
    split at h
    · cases h
    split at h
    · cases h
    · rename_i hmetadata _ _ points hpoints
      rw [hmetadata] at h'
      dsimp only at h'
      rw [if_neg (by assumption), hpoints] at h'
      obtain ⟨_, -, h⟩ := bind_eq_ok_iff.mp h
      obtain ⟨_, -, h'⟩ := bind_eq_ok_iff.mp h'
      cases h
      cases h'
      rfl

theorem Dimension.forall₂_unnamed_of_ofGroups {catalog : Catalog} {sorted sorted' : List Nat}
    {groups : List Group} {dimensions dimensions' : List Dimension} {index : Nat}
    {before before' after after' : Aliases}
    (h : ofGroups catalog sorted index groups before = .ok (dimensions, after))
    (h' : ofGroups catalog sorted' index groups before' = .ok (dimensions', after')) :
    dimensions.map unnamed = dimensions'.map unnamed := by
  induction groups generalizing dimensions dimensions' index before before' with
  | nil =>
    cases h
    cases h'
    rfl
  | cons group rest ih =>
    obtain ⟨⟨first, between⟩, hfirst, h⟩ := bind_eq_ok_iff.mp h
    obtain ⟨⟨others, _⟩, hothers, h⟩ := bind_eq_ok_iff.mp h
    obtain ⟨⟨first', between'⟩, hfirst', h'⟩ := bind_eq_ok_iff.mp h'
    obtain ⟨⟨others', _⟩, hothers', h'⟩ := bind_eq_ok_iff.mp h'
    cases h
    cases h'
    rw [List.map_cons, List.map_cons, unnamed_eq_of_ofGroup hfirst hfirst', ih hothers hothers']

/-! ## Rows of plans -/

theorem PlanParts.Fits.dimensions_unnamed {p : PlanParts} {q : Query} {options : CompileOptions}
    (h : p.Fits q options) : p.dimensions.map Dimension.unnamed = q.dimensions options := by
  obtain ⟨_, _, _, hdimensions, -, -⟩ := h.aliased
  rw [Query.dimensions, hdimensions]

/-- The same query with some of its metrics. Sorts refer to metrics by position and are given
anew, as is the kind, which tells whether there have to be metrics. -/
def Query.keepingMetrics (q : Query) (keep : Metric → Bool) (kind : Option RequestKind)
    (sorts : List SortClause) : Query :=
  { q with request := { q.request with kind, metrics := q.request.metrics.filter keep, sorts } }

theorem Query.windows_eq_nil {q : Query} {options : CompileOptions}
    (h : ∀ metric ∈ q.request.metrics, metric.isPercentile = false) : q.windows options = [] := by
  rw [windows, percentileWindows, List.filterMap_eq_nil_iff.mpr]
  · rfl
  · intro metric hmetric
    cases metric with
    | percentile field margin => cases h _ hmetric
    | _ => rfl

/-- A request without fields asks for something else. -/
theorem Request.isAggregated_of_fields_eq_nil {r : Request} (h : r.fault? = none)
    (hfields : r.fields = []) : r.isAggregated = true := by
  by_contra hplain
  rw [Bool.not_eq_true] at hplain
  simp [fault?, hfields, hplain] at h

/-- Dimensions do not depend on metrics and sorts, but for their aliases. -/
theorem PlanParts.Fits.dimensions_keepingMetrics {p p' : PlanParts} {q : Query}
    {options : CompileOptions} {keep : Metric → Bool} {kind : Option RequestKind}
    {sorts : List SortClause} (h : p.Fits q options)
    (h' : p'.Fits (q.keepingMetrics keep kind sorts) options) :
    (q.keepingMetrics keep kind sorts).dimensions options = q.dimensions options := by
  obtain ⟨_, _, _, hdimensions, -, -⟩ := h.aliased
  obtain ⟨_, _, _, hdimensions', -, -⟩ := h'.aliased
  rw [← h.dimensions_unnamed, ← h'.dimensions_unnamed]
  exact Dimension.forall₂_unnamed_of_ofGroups hdimensions' hdimensions

section

variable {db : Warehouse δ} {p : PlanParts} {q : Query} {options : CompileOptions}

theorem PlanParts.Fits.groups_eq (h : p.Fits q options) :
    q.groups db options = keyedGroups p.dimensions (fun d row => d.key db options.dialect row)
      (q.filteredRows db options.dialect) := by
  obtain ⟨_, _, _, hdimensions, -, -⟩ := h.aliased
  exact Query.groups_of_dimensions hdimensions

/-- The value of a dimension in a group is its part of the key of the group. -/
theorem map_eval_dimensions {dimensions : List Dimension} {dialect : Dialect}
    {qualifier : Option String} {scopes : List (Scope δ)}
    {group : List (Option δ) × List (Scope δ)}
    (hgroup : group ∈ keyedGroups dimensions
      (fun d scope => d.key db dialect (scope qualifier)) scopes) :
    dimensions.map (fun d => (d.expr dialect qualifier).eval db (db.ofGroup group.2)) =
      group.1 := by
  by_cases hdimensions : dimensions = []
  · subst hdimensions
    rw [List.mem_singleton.mp hgroup]
    rfl
  · obtain ⟨row, hrow, -⟩ := exists_of_mem_keyedGroups hgroup hdimensions
    cases hrows : group.2 with
    | nil =>
      rw [hrows] at hrow
      cases hrow
    | cons first rest =>
      have hfirst : first ∈ group.2 := hrows ▸ List.mem_cons_self
      rw [← key_of_mem_keyedGroups hgroup hfirst]
      exact List.map_congr_left fun d _ => d.eval_expr dialect qualifier _

theorem keyedGroups_exprs (dimensions : List Dimension) (dialect : Dialect)
    (qualifier : Option String) (scopes : List (Scope δ)) :
    keyedGroups (dimensions.map (Dimension.expr dialect qualifier))
        (fun key scope => key.value db scope) scopes =
      keyedGroups dimensions (fun d scope => d.key db dialect (scope qualifier)) scopes := by
  rw [keyedGroups_map]
  refine congrArg (keyedGroups dimensions · scopes) ?_
  funext d scope
  exact d.eval_expr dialect qualifier _

/-- The filtered rows are what a statement over the source selects from. -/
theorem filter_rows_relation {aliasName : Option String} {filter : Option Expr}
    (hfilter : predicateOf (q.context options) (q.source.relation aliasName).qualifier
      q.request.filters = .ok filter) :
    (((q.source.relation aliasName).rows db).map
        (Scope.single (q.source.relation aliasName).qualifier)).filter
          (fun scope => filter.all fun condition => db.holds condition scope) =
      (q.filteredRows db options.dialect).map
        (Scope.single (q.source.relation aliasName).qualifier) := by
  have hrows : (q.source.relation aliasName).rows db = (q.source.relation none).rows db := by
    cases q.source <;> rfl
  rw [List.filter_map, hrows, Query.filteredRows]
  refine congrArg (List.map _) (List.filter_congr fun row _ => ?_)
  rw [Function.comp_apply, all_holds_eq_passes hfilter, Scope.single_self]

theorem dataOf_map_scope (db : Warehouse δ) (qualifier : Option String) (scopes : List (Scope δ))
    (field : String) :
    dataOf (scopes.map fun scope => scope qualifier) field =
      scopes.filterMap fun scope => (columnOf qualifier field).value db scope := by
  rw [dataOf, List.filterMap_map]
  rfl

theorem flatMap_latestItems {dimensions : List Dimension} {timeField : String} {source : Relation}
    {filter : Option Expr} {scopes : List (Scope δ)} {group : List (Option δ) × List (Scope δ)}
    (hgroup : group ∈ keyedGroups dimensions
      (fun d scope => d.key db options.dialect (scope source.qualifier)) scopes) :
    (latestSelect options.dialect timeField source filter dimensions).items.flatMap
        (db.itemCells (db.ofGroup group.2)) =
      latestRow group.1
        (dataOf (group.2.map fun scope => scope source.qualifier) timeField).max? := by
  have hkey (d : Dimension) (i : Nat) :
      db.itemCells (db.ofGroup group.2)
          ⟨d.expr options.dialect source.qualifier, some (groupColumn i)⟩ =
        [(groupColumn i, (d.expr options.dialect source.qualifier).eval db
          (db.ofGroup group.2))] := by
    rw [db.itemCells_eq (d.expr_ne_wildcard _ _),
      SelectItem.outputName?_of_alias (show _ = some (groupColumn i) from rfl)]
    rfl
  rw [latestSelect, List.flatMap_append, latestRow, ← map_eval_dimensions hgroup,
    dataOf_map_scope db]
  congr 1
  rw [List.zipIdx_map, List.zipIdx_map, List.map_map, List.map_map, List.flatMap_map,
    List.map_eq_flatMap]
  exact congrArg (List.flatMap · _) (funext fun key => hkey key.1 key.2)

/-- A joined sub-select has one row for each group, with the key and the greatest time. -/
theorem Query.rows_latestSelect {filter : Option Expr}
    (hfilter : predicateOf (q.context options) (some lastValueSourceAlias) q.request.filters =
      .ok filter) (dimensions : List Dimension) (timeField : String) :
    (latestSelect options.dialect timeField (q.source.relation (some lastValueSourceAlias)) filter
        dimensions).rows db =
      (keyedGroups dimensions (fun d row => d.key db options.dialect row)
        (q.filteredRows db options.dialect)).map fun group =>
          latestRow group.1 (dataOf group.2 timeField).max? := by
  have hqualifier := q.source.qualifier_relation_some (show lastValueSourceAlias ≠ "" by decide)
  have haggregated : (latestSelect options.dialect timeField
      (q.source.relation (some lastValueSourceAlias)) filter dimensions).IsAggregated :=
    .inr ⟨_, List.mem_append_right _ (List.mem_singleton_self _), rfl⟩
  have hscopes : (latestSelect options.dialect timeField
      (q.source.relation (some lastValueSourceAlias)) filter dimensions).scopes db =
        (q.filteredRows db options.dialect).map (Scope.single
          (q.source.relation (some lastValueSourceAlias)).qualifier) := by
    rw [← hqualifier] at hfilter
    exact filter_rows_relation hfilter
  have hgroups : keyedGroups
      (latestSelect options.dialect timeField (q.source.relation (some lastValueSourceAlias)) filter
        dimensions).groupBy (fun key scope => key.value db scope)
        ((q.filteredRows db options.dialect).map (Scope.single
          (q.source.relation (some lastValueSourceAlias)).qualifier)) =
      keyedGroups dimensions (fun d scope => d.key db options.dialect
        (scope (q.source.relation (some lastValueSourceAlias)).qualifier))
        ((q.filteredRows db options.dialect).map (Scope.single
          (q.source.relation (some lastValueSourceAlias)).qualifier)) :=
    keyedGroups_exprs ..
  rw [Select.rows_of_isAggregated db haggregated, hscopes, hgroups]
  refine (List.map_congr_left fun group hgroup => flatMap_latestItems hgroup).trans ?_
  rw [keyedGroups_map_rows, List.map_map]
  simp only [Scope.single_self]
  refine List.map_congr_left fun group _ => ?_
  simp only [Function.comp_apply, List.map_map, Function.comp_def, Scope.single_self, List.map_id']

end

namespace Measure

theorem expr_ne_wildcard (m : Measure) (qualifier other : Option String) :
    m.expr qualifier ≠ .wildcard other := by
  obtain ⟨shape, aliasName⟩ := m
  cases shape <;> rintro ⟨⟩

/-- Only an expression of the caller may go without an aggregate. -/
theorem hasAggregate_expr {m : Measure} (h : ∀ expression, m.shape ≠ .calc expression)
    (qualifier : Option String) : (m.expr qualifier).hasAggregate = true := by
  obtain ⟨shape, aliasName⟩ := m
  cases shape with
  | «calc» expression => exact absurd rfl (h expression)
  | _ => rfl

section

variable {db : Warehouse δ} {qualifier : Option String} {scopes : List (Scope δ)}

theorem eval_aggregate (func : Aggregation) (field : String) :
    (Expr.aggregate func (some (columnOf qualifier field))).eval db (db.ofGroup scopes) =
      db.summarize func (dataOf (scopes.map fun scope => scope qualifier) field) := by
  rw [dataOf_map_scope db]
  cases func <;> rfl

/-- A metric is computed from the rows of one relation, unless it needs a sub-select. -/
theorem eval_of_metric {catalog : Catalog} {times : List String} {aliases : Aliases}
    {metric : Metric} {m : Measure} {name : String}
    (h : shapeOf catalog times aliases metric = .ok (m.shape, name))
    (hcalc : metric.isCalc = false) (hpercentile : metric.isPercentile = false)
    (htime : metric.timeField? = none) :
    (m.expr qualifier).eval db (db.ofGroup scopes) =
      metric.over db (scopes.map fun scope => scope qualifier) := by
  obtain ⟨shape, aliasName⟩ := m
  cases metric with
  | sum field =>
    obtain ⟨-, -, h⟩ := bind_eq_ok_iff.mp h
    cases h
    exact eval_aggregate ..
  | avg field =>
    obtain ⟨-, -, h⟩ := bind_eq_ok_iff.mp h
    cases h
    exact eval_aggregate ..
  | count field =>
    cases field with
    | none =>
      cases h
      change some (db.number scopes.length) = some (db.number (scopes.map _).length)
      rw [List.length_map]
    | some field =>
      cases h
      exact eval_aggregate ..
  | lastValue field timeField => cases htime
  | percentile field margin => cases hpercentile
  | «calc» expression given => cases hcalc
  | min field =>
    cases h
    exact eval_aggregate ..
  | max field =>
    cases h
    exact eval_aggregate ..
  | distinctCount field =>
    cases h
    exact eval_aggregate ..

/-- A statistic is computed from the rows of one relation. -/
theorem eval_of_stat {stat : Stat} {m : Measure} (h : m.shape = statShape stat.field stat.kind) :
    (m.expr qualifier).eval db (db.ofGroup scopes) =
      stat.over db (scopes.map fun scope => scope qualifier) := by
  obtain ⟨shape, aliasName⟩ := m
  obtain ⟨field, kind⟩ := stat
  cases h
  cases kind with
  | nullCount =>
    have hvalue (scope : Scope δ) :
        (Expr.case [(.isNull (columnOf qualifier field), .int 1)] (some (.int 0))).value db scope =
          some (db.number (if (Row.cell (scope qualifier) field).isNone then 1 else 0)) := by
      cases hcell : Row.cell (scope qualifier) field <;>
        simp [Expr.value, Expr.eval, Expr.evalBranches, Expr.evalOption, Expr.int, columnOf, hcell,
          Truth.ofBool, Warehouse.literal]
    change db.summarize .sum (scopes.filterMap _) = db.summarize .sum _
    rw [funext hvalue, List.map_map]
    exact congrArg _ (congrFun List.filterMap_eq_map scopes)
  | _ => exact eval_aggregate ..

end

end Measure

namespace PlanParts.Fits

variable {db : Warehouse δ} {p : PlanParts} {q : Query} {options : CompileOptions}
  (h : p.Fits q options)
include h

/-- Groups, statistics and metrics other than expressions of the caller put rows together. -/
theorem isAggregated_select
    (haggregated : q.request.groups ≠ [] ∨ q.request.stats ≠ [] ∨
      ∃ metric ∈ q.request.metrics, metric.isCalc = false) :
    (p.select q options).IsAggregated := by
  rcases haggregated with hgroups | hstats | ⟨metric, hmetric, hcalc⟩
  · refine .inl fun hgroupBy => hgroups ?_
    have hdimensions : p.dimensions = [] := List.map_eq_nil_iff.mp hgroupBy
    rw [← List.length_eq_zero_iff, ← h.length_dimensions, hdimensions]
    rfl
  · obtain ⟨_, _, _, -, -, hstatistics⟩ := h.aliased
    obtain ⟨stat, hstat⟩ := List.exists_mem_of_ne_nil _ hstats
    obtain ⟨m, hm, hshape⟩ :=
      exists_mem_of_forall₂ (Measure.ofStats_forall₂ hstatistics).flip hstat
    have hexpression (expression : String) : m.shape ≠ .calc expression := by
      rw [hshape]
      cases stat.kind <;> rintro ⟨⟩
    refine .inr ⟨m.selectItem (p.outer q options), ?_, m.hasAggregate_expr hexpression _⟩
    exact List.mem_append_right _ (List.mem_map_of_mem hm)
  · obtain ⟨m, hm, name, hshape⟩ := exists_mem_of_forall₂ h.shapes.flip hmetric
    have hexpression (expression : String) : m.shape ≠ .calc expression := by
      intro hm
      obtain ⟨given, rfl⟩ := (Measure.shapeOf_eq_ok hshape).2.2 expression hm
      cases hcalc
    refine .inr ⟨m.selectItem (p.outer q options), ?_, m.hasAggregate_expr hexpression _⟩
    exact List.mem_append_left _ (List.mem_append_right _ (List.mem_map_of_mem hm))

theorem isAggregated_select_of_request (haggregated : q.request.isAggregated = true)
    (hmetrics : ∀ metric ∈ q.request.metrics, metric.isCalc = false) :
    (p.select q options).IsAggregated := by
  refine h.isAggregated_select ?_
  simp only [Request.isAggregated, Bool.or_eq_true, Bool.not_eq_true', List.isEmpty_eq_false_iff]
    at haggregated
  rcases haggregated with (hgroups | hne) | hstats
  · exact .inl hgroups
  · obtain ⟨metric, hmetric⟩ := List.exists_mem_of_ne_nil _ hne
    exact .inr (.inr ⟨metric, hmetric, hmetrics metric hmetric⟩)
  · exact .inr (.inl hstats)

omit h in
theorem expr_ne_wildcard {item : SelectItem} (hfields : q.request.fields = [])
    (hitem : item ∈ (p.select q options).items) (qualifier : Option String) :
    item.expr ≠ .wildcard qualifier := by
  simp only [select, Query.selectItems, hfields, List.map_nil, List.nil_append, List.mem_append,
    List.mem_map] at hitem
  rcases hitem with (⟨d, -, rfl⟩ | ⟨m, -, rfl⟩) | ⟨m, -, rfl⟩
  · exact d.expr_ne_wildcard _ _ qualifier
  · exact m.expr_ne_wildcard _ qualifier
  · exact m.expr_ne_wildcard _ qualifier

omit h in
/-- The plan of an aggregated query has one row for each group, with the key of the group, the
metrics and the statistics. -/
theorem cells_select (hfields : q.request.fields = [])
    (haggregated : (p.select q options).IsAggregated) :
    (p.select q options).cells db =
      (keyedGroups p.dimensions
        (fun d scope => d.key db options.dialect (scope (p.outer q options)))
        ((p.select q options).scopes db)).map fun group =>
          group.1 ++
            p.measures.map (fun m => (m.expr (p.outer q options)).eval db (db.ofGroup group.2)) ++
            p.stats.map fun m => (m.expr (p.outer q options)).eval db (db.ofGroup group.2) := by
  have hgroups : keyedGroups (p.select q options).groupBy (fun key scope => key.value db scope)
      ((p.select q options).scopes db) = keyedGroups p.dimensions
        (fun d scope => d.key db options.dialect (scope (p.outer q options)))
        ((p.select q options).scopes db) := keyedGroups_exprs ..
  have hcells (env : Env δ) :
      ((p.select q options).items.flatMap (db.itemCells env)).map Prod.snd =
        (p.select q options).items.map fun item => item.expr.eval db env := by
    rw [List.map_flatMap, List.map_eq_flatMap]
    refine List.flatMap_congr fun item hitem => ?_
    rw [db.itemCells_eq (expr_ne_wildcard hfields hitem)]
    rfl
  have hrow (group : List (Option δ) × List (Scope δ)) (hgroup : group ∈ keyedGroups p.dimensions
      (fun d scope => d.key db options.dialect (scope (p.outer q options)))
      ((p.select q options).scopes db)) :
      ((p.select q options).items.flatMap (db.itemCells (db.ofGroup group.2))).map Prod.snd =
        group.1 ++
          p.measures.map (fun m => (m.expr (p.outer q options)).eval db (db.ofGroup group.2)) ++
          p.stats.map fun m => (m.expr (p.outer q options)).eval db (db.ofGroup group.2) := by
    rw [hcells, items_eq hfields]
    simp only [List.map_append, List.map_map]
    rw [← map_eval_dimensions hgroup, ← List.append_assoc]
    rfl
  -- Groups differ in their keys, so that a plan with distinct rows loses none of them.
  have hkeys : (((keyedGroups p.dimensions
      (fun d scope => d.key db options.dialect (scope (p.outer q options)))
      ((p.select q options).scopes db)).map fun group => (p.select q options).items.flatMap
        (db.itemCells (db.ofGroup group.2))).map fun row =>
          (row.map Prod.snd).take p.dimensions.length).Nodup := by
    rw [List.map_map, List.map_congr_left fun group hgroup => ?_]
    · exact nodup_map_fst_keyedGroups _ _ _
    · rw [Function.comp_apply, hrow group hgroup, List.append_assoc,
        ← length_of_mem_keyedGroups hgroup, List.take_left]
  rw [Select.cells, Select.rows_of_isAggregated db haggregated, hgroups]
  dsimp only
  rw [(List.Nodup.of_map _ hkeys).dedup, ite_self, List.map_map]
  exact List.map_congr_left hrow

/-! ### Rows that a plan selects from -/

theorem outer_ne_qualifier {join : Join} (hjoin : join ∈ p.joins) :
    p.outer q options ≠ join.relation.qualifier := by
  have hnodup := h.nodup_qualifiers
  rw [Select.relations, List.map_cons, List.nodup_cons] at hnodup
  intro hqualifier
  refine hnodup.1 ?_
  change p.outer q options ∈ _
  rw [hqualifier]
  exact List.mem_map_of_mem (List.mem_map_of_mem hjoin)

end PlanParts.Fits

theorem PlanParts.outer_ne_lastValueAlias (p : PlanParts) (q : Query) (options : CompileOptions)
    (k : Nat) : p.outer q options ≠ some (lastValueAlias k) := by
  rcases p.outer_cases q options with ⟨hnone, -⟩ | ⟨aliasName, hsome, hlength⟩
  · rw [hnone]
    rintro ⟨⟩
  · rw [hsome]
    exact fun heq => lastValueAlias_ne k hlength (Option.some.inj heq).symm

/-- The rows that a plan joins further rows to: those that pass the filters, with helper columns
if there are percentiles. -/
def PlanParts.baseRows (db : Warehouse δ) (p : PlanParts) (q : Query) (options : CompileOptions) :
    List (Row δ) :=
  if (q.windows options).isEmpty then q.filteredRows db options.dialect
  else (rankedSelect options.dialect (q.base options) p.filter p.dimensions
    (q.windows options)).rows db

theorem PlanParts.Fits.scopes_select {db : Warehouse δ} {p : PlanParts} {q : Query}
    {options : CompileOptions} (h : p.Fits q options) :
    (p.select q options).scopes db =
      Select.joined db p.joins
        ((p.baseRows db q options).map (Scope.single (p.outer q options))) := by
  unfold Select.scopes PlanParts.baseRows
  change (Select.joined db p.joins (((p.source q options).rows db).map
    (Scope.single (p.outer q options)))).filter _ = _
  by_cases hwindows : q.windows options = []
  · have hempty : (q.windows options).isEmpty = true := List.isEmpty_iff.mpr hwindows
    have hsource := source_of_windows_eq_nil (p := p) hwindows
    have houter : p.outer q options = (q.base options).qualifier := by rw [outer, hsource]
    -- The filter reads the outer relation only, so it may as well come before the joins.
    have hpasses : (fun scope : Scope δ => p.filter.all fun condition => db.holds condition scope) =
        fun scope => q.passes db options.dialect (scope (p.outer q options)) :=
      funext fun scope => by rw [houter]; exact all_holds_eq_passes h.filter scope
    have hfilter : (p.select q options).filter = p.filter := if_pos hempty
    rw [hfilter, hpasses, Select.filter_joined _ fun join hjoin => h.outer_ne_qualifier hjoin,
      ← hpasses, if_pos hempty, houter, hsource]
    exact congrArg (Select.joined db p.joins) (filter_rows_relation h.filter)
  · have hempty : (q.windows options).isEmpty = false := by simpa using hwindows
    have hfilter : (p.select q options).filter = none := by simp [select, hempty]
    rw [hfilter, source_of_windows_ne_nil hwindows, hempty]
    exact List.filter_true _

end PagedQuery
