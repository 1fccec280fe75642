import PagedQuery.Proofs.Outcome
import PagedQuery.Query.Plan

/-!
# Parts of a plan

Planning a query makes its dimensions, measures, conditions, joins and sort
keys, one after the other, and puts them together. Whatever is said about a
plan is said about these parts.

* `PlanParts`, `PlanParts.Fits`: the parts, and what it means that planning made them;
* `PlanParts.select`: the statement they make;
* `Query.plan_eq_ok_iff`: planned statements are those made of parts that fit;
* `Measure.ofMetric_of_shape`, `Query.check_of_table`: parts that are made without an error.
-/

namespace PagedQuery

namespace Query

/-- The helper columns that the percentiles of a query need. -/
def windows (q : Query) (options : CompileOptions) : List PercentileWindow :=
  percentileWindows (Aliases.new options.maxAliasLength) q.request.metrics

/-- The time fields of the last values of a query. -/
def times (q : Query) : List String :=
  lastValueTimes q.request.metrics

def context (q : Query) (options : CompileOptions) : Context :=
  { catalog := q.catalog, dialect := options.dialect }

/-- The source as the outer query reads it, or the derived table of the percentiles. -/
def base (q : Query) (options : CompileOptions) : Relation :=
  q.source.relation
    (if q.source.isCustom || !(q.windows options).isEmpty || !q.times.isEmpty then some baseAlias
      else none)

end Query

/-- What a plan is made of. -/
structure PlanParts where
  dimensions : List Dimension
  measures : List Measure
  stats : List Measure
  filter : Option Expr
  joins : List Join
  orderBy : List (Expr × Direction)

namespace PlanParts

variable (p : PlanParts) (q : Query) (options : CompileOptions)

/-- What the outer query reads. -/
def source : Relation :=
  if (q.windows options).isEmpty then q.base options
  else percentileSource options.dialect (q.base options) p.filter p.dimensions (q.windows options)

/-- The alias of what the outer query reads. -/
def outer : Option String :=
  (p.source q options).qualifier

/-- The statement that the parts make. -/
def select : Select :=
  { distinct := q.request.distinct
    items := q.selectItems options.dialect (p.outer q options) p.dimensions p.measures p.stats
    source := p.source q options
    joins := p.joins
    filter := if (q.windows options).isEmpty then p.filter else none
    groupBy := p.dimensions.map (Dimension.expr options.dialect (p.outer q options))
    orderBy := p.orderBy
    limit := q.request.limit
    offset := q.request.offset }

/-- The parts are those that planning the query makes. Each kind of part with an alias goes on
with the aliases that the one before it left. -/
structure Fits : Prop where
  aliased : ∃ afterGroups afterMetrics afterStats : Aliases,
    Dimension.ofGroups q.catalog (Query.sortedGroups q.request.sorts) 0 q.request.groups
        (Aliases.new options.maxAliasLength) = .ok (p.dimensions, afterGroups) ∧
      Measure.ofMetrics q.catalog q.times q.request.metrics afterGroups =
        .ok (p.measures, afterMetrics) ∧
      Measure.ofStats q.catalog q.request.stats afterMetrics = .ok (p.stats, afterStats)
  filter : predicateOf (q.context options) (q.base options).qualifier q.request.filters =
    .ok p.filter
  joins : q.lastValueJoins (q.context options) p.dimensions (p.outer q options) 0 q.times =
    .ok p.joins
  orderBy : q.request.sorts.mapM
    (Query.sortKey p.dimensions p.measures (p.outer q options)) = .ok p.orderBy

end PlanParts

theorem Query.plan_eq_ok_iff {q : Query} {options : CompileOptions} {select : Select} :
    q.plan options = .ok select ↔
      ∃ p : PlanParts, p.Fits q options ∧ select = p.select q options := by
  unfold Query.plan
  constructor
  · intro h
    obtain ⟨⟨dimensions, afterGroups⟩, hdimensions, h⟩ := bind_eq_ok_iff.mp h
    obtain ⟨⟨measures, afterMetrics⟩, hmeasures, h⟩ := bind_eq_ok_iff.mp h
    obtain ⟨⟨stats, afterStats⟩, hstats, h⟩ := bind_eq_ok_iff.mp h
    obtain ⟨filter, hfilter, h⟩ := bind_eq_ok_iff.mp h
    obtain ⟨joins, hjoins, h⟩ := bind_eq_ok_iff.mp h
    obtain ⟨orderBy, horderBy, h⟩ := bind_eq_ok_iff.mp h
    cases h
    exact ⟨{ dimensions, measures, stats, filter, joins, orderBy },
      { aliased := ⟨afterGroups, afterMetrics, afterStats, hdimensions, hmeasures, hstats⟩
        filter := hfilter
        joins := hjoins
        orderBy := horderBy }, rfl⟩
  · rintro ⟨p, ⟨⟨afterGroups, afterMetrics, afterStats, hdimensions, hmeasures, hstats⟩, hfilter,
      hjoins, horderBy⟩, rfl⟩
    refine bind_eq_ok_iff.mpr ⟨_, hdimensions, ?_⟩
    refine bind_eq_ok_iff.mpr ⟨_, hmeasures, ?_⟩
    refine bind_eq_ok_iff.mpr ⟨_, hstats, ?_⟩
    refine bind_eq_ok_iff.mpr ⟨_, hfilter, ?_⟩
    refine bind_eq_ok_iff.mpr ⟨_, hjoins, ?_⟩
    exact bind_eq_ok_iff.mpr ⟨_, horderBy, rfl⟩

/-! ## Measures and checks that succeed -/

/-- A metric with a shape is measured under the alias that is issued for it. -/
theorem Measure.ofMetric_of_shape {catalog : Catalog} {times : List String} {metric : Metric}
    {aliases after : Aliases} {shape : MeasureShape} {name aliasName : String}
    (hfields : rawDataOnlyField? catalog metric = none)
    (hshape : shapeOf catalog times aliases metric = .ok (shape, name))
    (h : issueAlias aliases name = .ok (aliasName, after)) :
    ofMetric catalog times metric aliases = .ok (⟨shape, aliasName⟩, after) := by
  unfold ofMetric
  rw [hfields]
  refine bind_eq_ok_iff.mpr ⟨_, hshape, ?_⟩
  exact bind_eq_ok_iff.mpr ⟨_, h, rfl⟩

theorem Measure.ofMetrics_cons {catalog : Catalog} {times : List String} {metric : Metric}
    {rest : List Metric} {aliases between after : Aliases} {first : Measure}
    {measures : List Measure} (hfirst : ofMetric catalog times metric aliases = .ok (first, between))
    (hrest : ofMetrics catalog times rest between = .ok (measures, after)) :
    ofMetrics catalog times (metric :: rest) aliases = .ok (first :: measures, after) := by
  refine bind_eq_ok_iff.mpr ⟨_, hfirst, ?_⟩
  exact bind_eq_ok_iff.mpr ⟨_, hrest, rfl⟩

/-- A query of a table with a name is checked by its request alone. -/
theorem Query.check_of_table {q : Query} {schema name : String}
    (hsource : q.source = .table schema name) (hschema : Text.isBlankText schema = false)
    (hname : Text.isBlankText name = false) (h : q.request.fault? = none) : q.check = .ok () := by
  have hcheck : q.source.check = .ok () := by
    rw [hsource]
    simp [Source.check, hschema, hname]
  unfold Query.check
  rw [hcheck, h]
  rfl

/-- A query compiles to what is written of its plan. -/
theorem Query.compile_eq_ok_iff {q : Query} {options : CompileOptions}
    {query : ParametrizedQuery} :
    q.compile options = .ok query ↔
      q.check = .ok () ∧
        ∃ select, q.plan options = .ok select ∧ select.write options.dialect = .ok query := by
  unfold Query.compile
  rw [bind_eq_ok_iff]
  constructor
  · rintro ⟨⟨⟩, hcheck, h⟩
    obtain ⟨select, hplan, h⟩ := bind_eq_ok_iff.mp h
    refine ⟨hcheck, select, hplan, ?_⟩
    cases hwrite : select.write options.dialect with
    | error fault =>
      rw [hwrite] at h
      cases h
    | ok written =>
      rw [hwrite] at h
      cases h
      rfl
  · rintro ⟨hcheck, select, hplan, hwrite⟩
    refine ⟨(), hcheck, bind_eq_ok_iff.mpr ⟨select, hplan, ?_⟩⟩
    rw [hwrite]

end PagedQuery
