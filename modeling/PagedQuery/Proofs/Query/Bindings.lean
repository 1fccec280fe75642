import PagedQuery.Proofs.Query.Aliases
import PagedQuery.Proofs.Query.Scans

/-!
# Bindings of a compiled query

The filters of a request stand at every scan of the planned statement and
nowhere else, so the bound values are the literals of the filters, once for
each scan. The dialect is a matter of text only: it decides neither whether a
request compiles, nor the error, nor the bound values.

* `PlanParts.Fits.scans`: where the filters stand in a plan;
* `Query.plan_sameOutcome`: the outcome of planning in two dialects;
* `Query.compile_binds_filters`: scans and bound values of a compiled query.
-/

namespace PagedQuery

/-! ## The statement of a plan -/

/-- The number of distinct time fields of the last values of a request. -/
def Request.lastValueScans (r : Request) : Nat :=
  (r.metrics.filterMap Metric.timeField?).toFinset.card

/-- Requests that fit together ask for something. -/
theorem Request.asks_of_fault?_eq_none {r : Request} (h : r.fault? = none) :
    r.fields ≠ [] ∨ r.groups ≠ [] ∨ r.metrics ≠ [] ∨ r.stats ≠ [] := by
  by_contra hnone
  simp only [not_or, not_not] at hnone
  obtain ⟨hfields, hgroups, hmetrics, hstats⟩ := hnone
  simp [Request.fault?, Request.isAggregated, hfields, hgroups, hmetrics, hstats] at h

namespace PlanParts.Fits

variable {p : PlanParts} {q : Query} {options : CompileOptions} (h : p.Fits q options)
include h

theorem selectItems_ne_nil (hask : q.request.fault? = none) :
    (p.select q options).items ≠ [] := by
  obtain ⟨_, _, _, hdimensions, hmeasures, hstats⟩ := h.aliased
  have hgroups := Dimension.ofGroups_forall₂ hdimensions
  have hmetrics := Measure.ofMetrics_forall₂ hmeasures
  have hstatistics := Measure.ofStats_forall₂ hstats
  intro hnil
  simp only [select, Query.selectItems, List.append_eq_nil_iff, List.map_eq_nil_iff] at hnil
  obtain ⟨⟨⟨hfields, hd⟩, hm⟩, hs⟩ := hnil
  rw [hd, List.forall₂_nil_right_iff] at hgroups
  rw [hm, List.forall₂_nil_right_iff] at hmetrics
  rw [hs, List.forall₂_nil_right_iff] at hstatistics
  rcases Request.asks_of_fault?_eq_none hask with hne | hne | hne | hne
  · exact hne hfields
  · exact hne hgroups
  · exact hne hmetrics
  · exact hne hstatistics

theorem plainClauses (hask : q.request.fault? = none) :
    (p.select q options).PlainClauses where
  items_ne_nil := h.selectItems_ne_nil hask
  items := h.items (Expr.IsPlain.kept _) fun _ _ _ => .raw _
  groupBy := h.groupBy (Expr.IsPlain.kept _)
  orderBy := h.orderBy_expr (Expr.IsPlain.kept _)

/-- The outer query or the derived table of the percentiles scans the source, and so does one
sub-select for each distinct time field of the last values. -/
theorem bindsFilters (hask : q.request.fault? = none) {literals : List (List Value)}
    (hliterals : (flattenFilters q.request.filters).mapM (Leaf.literals? q.catalog) =
      some literals) :
    (p.select q options).BindsFilters q (q.context options) literals.flatten
      (1 + q.request.lastValueScans) := by
  have hplain := h.plainClauses hask
  have hjoins : Join.BindFilters q (q.context options) literals.flatten
      q.request.lastValueScans p.joins := by
    rw [Request.lastValueScans, ← length_lastValueTimes]
    exact Query.lastValueJoins_bindFilters h.dimensions_isFinite hliterals h.joins
  by_cases hwindows : (q.windows options).isEmpty
  · have hfilter : (p.select q options).filter = p.filter := if_pos hwindows
    rw [Nat.add_comm]
    exact .of_source hplain (if_pos hwindows) (by rw [hfilter]; exact h.filter) hliterals hjoins
  · have hranked : (rankedSelect options.dialect (q.base options) p.filter p.dimensions
        (q.windows options)).BindsFilters q (q.context options) literals.flatten 1 :=
      .of_source (rankedSelect_plainClauses h.dimensions_isFinite ..) rfl h.filter hliterals .nil
    exact .of_derived hplain (if_neg hwindows) (if_neg hwindows) hranked hjoins

end PlanParts.Fits

/-! ## Dialects -/

namespace Query

theorem lastValueJoins_sameOutcome {q : Query} {ctx ctx' : Context}
    (hcatalog : ctx.catalog = ctx'.catalog) (dimensions dimensions' : List Dimension)
    (outer outer' : Option String) (index : Nat) (times : List String) :
    SameOutcome (fun _ _ => True) (q.lastValueJoins ctx dimensions outer index times)
      (q.lastValueJoins ctx' dimensions' outer' index times) := by
  induction times generalizing index with
  | nil => exact .ok trivial
  | cons timeField rest ih =>
    refine (predicateOf_sameOutcome hcatalog _ _ _).bind fun _ _ _ => ?_
    exact (ih (index + 1)).bind fun _ _ _ => .ok trivial

theorem sortKey_sameOutcome (dimensions : List Dimension) (measures : List Measure)
    (outer outer' : Option String) (sort : SortClause) :
    SameOutcome (fun _ _ => True) (sortKey dimensions measures outer sort)
      (sortKey dimensions measures outer' sort) := by
  cases sort with
  | raw field direction => exact .ok trivial
  | agg target direction =>
    -- an aggregate sort does not look at the outer alias
    change SameOutcome _ (sortKey dimensions measures outer (.agg target direction))
      (sortKey dimensions measures outer (.agg target direction))
    cases sortKey dimensions measures outer (.agg target direction) with
    | error e => exact .error e
    | ok key => exact .ok trivial

/-- Whether a query can be planned, and the error if not, does not depend on the dialect. -/
theorem plan_sameOutcome (q : Query) (options : CompileOptions) (dialect : Dialect) :
    SameOutcome (fun _ _ => True) (q.plan { options with dialect }) (q.plan options) := by
  have hcatalog : (q.context { options with dialect }).catalog = (q.context options).catalog := rfl
  unfold plan
  refine (SameOutcome.of_eq rfl).bind ?_
  rintro ⟨dimensions, aliases⟩ _ rfl
  refine (SameOutcome.of_eq rfl).bind ?_
  rintro ⟨measures, aliases⟩ _ rfl
  refine (SameOutcome.of_eq rfl).bind ?_
  rintro ⟨stats, aliases⟩ _ rfl
  dsimp only
  refine (predicateOf_sameOutcome hcatalog _ _ _).bind fun _ _ _ => ?_
  refine (lastValueJoins_sameOutcome hcatalog _ _ _ _ _ _).bind fun _ _ _ => ?_
  refine (SameOutcome.mapM (sortKey_sameOutcome _ _ _ _) _).bind fun _ _ _ => ?_
  exact .ok trivial

end Query

/-! ## Compiled queries -/

namespace Query

variable {q : Query} {options : CompileOptions} {select : Select}

theorem fault?_eq_none_of_check (h : q.check = .ok ()) : q.request.fault? = none := by
  unfold check at h
  obtain ⟨⟨⟩, -, h⟩ := bind_eq_ok_iff.mp h
  split at h
  · cases h
  · assumption

theorem plan_bindsFilters (hcheck : q.check = .ok ()) (hplan : q.plan options = .ok select) :
    ∃ literals,
      (flattenFilters q.request.filters).mapM (Leaf.literals? q.catalog) = some literals ∧
      select.BindsFilters q (q.context options) literals.flatten
        (1 + q.request.lastValueScans) := by
  obtain ⟨p, hfits, rfl⟩ := plan_eq_ok_iff.mp hplan
  obtain ⟨literals, hliterals, -, -⟩ := predicateOf_eq_ok hfits.filter
  exact ⟨literals, hliterals, hfits.bindsFilters (fault?_eq_none_of_check hcheck) hliterals⟩

/-- Every plan of a checked query can be written. -/
theorem compile_of_plan (hcheck : q.check = .ok ()) (hplan : q.plan options = .ok select) :
    ∃ query, q.compile options = .ok query ∧ query.params = select.params := by
  obtain ⟨literals, -, hbinds⟩ := plan_bindsFilters hcheck hplan
  have hwrite : select.write options.dialect = .ok _ :=
    Select.write_eq_ok_iff.mpr ⟨hbinds.fault?, rfl⟩
  exact ⟨_, compile_eq_ok_iff.mpr ⟨hcheck, select, hplan, hwrite⟩, rfl⟩

theorem exists_compile_of_fits {p : PlanParts} (hcheck : q.check = .ok ())
    (h : p.Fits q options) : ∃ query, q.compile options = .ok query := by
  obtain ⟨query, hquery, -⟩ := compile_of_plan hcheck (plan_eq_ok_iff.mpr ⟨p, h, rfl⟩)
  exact ⟨query, hquery⟩

theorem compile_of_plan_error {e : CompileError} (hcheck : q.check = .ok ())
    (hplan : q.plan options = .error e) : q.compile options = .error e := by
  unfold compile
  rw [hcheck, hplan]
  rfl

/-- The dialect decides neither the error of a query nor what it binds. -/
theorem map_params_compile (q : Query) (options : CompileOptions) (dialect : Dialect) :
    (q.compile { options with dialect }).map ParametrizedQuery.params =
      (q.compile options).map ParametrizedQuery.params := by
  cases hcheck : q.check with
  | error e =>
    unfold compile
    rw [hcheck]
    rfl
  | ok _ =>
    have houtcome := q.plan_sameOutcome options dialect
    cases hplan : q.plan options with
    | error e =>
      rw [hplan] at houtcome
      generalize hplan' : q.plan { options with dialect } = outcome at houtcome
      cases houtcome
      rw [compile_of_plan_error hcheck hplan, compile_of_plan_error hcheck hplan']
    | ok select =>
      rw [hplan] at houtcome
      generalize hplan' : q.plan { options with dialect } = outcome at houtcome
      cases houtcome with
      | @ok select' _ _ =>
      obtain ⟨literals, hliterals, hbinds⟩ := plan_bindsFilters hcheck hplan
      obtain ⟨literals', hliterals', hbinds'⟩ := plan_bindsFilters hcheck hplan'
      cases Option.some.inj (hliterals.symm.trans hliterals')
      obtain ⟨query, hquery, hparams⟩ := compile_of_plan hcheck hplan
      obtain ⟨query', hquery', hparams'⟩ := compile_of_plan hcheck hplan'
      rw [hquery, hquery']
      refine congrArg Except.ok ?_
      rw [hparams, hparams', hbinds.params, hbinds'.params]

/-- In the plan of a query that compiles, every statement that reads the source is filtered by
the filters of the request, bound to its own alias, and no other statement has a filter. The
bound values are the literals of the leaves of the filters, from left to right, once for each
scan: one for the rows and one for each distinct time field of the last values. Whether a query
compiles, its error and its bound values are the same in all dialects. -/
theorem compile_binds_filters (q : Query) (options : CompileOptions) :
    (∀ query, q.compile options = .ok query →
      ∃ select literals,
        q.plan options = .ok select ∧
        select.write options.dialect = .ok query ∧
        (∀ s ∈ select.nested, s.FiltersScan q (q.context options)) ∧
        (select.nested.filter Select.isScan).length = 1 + q.request.lastValueScans ∧
        (flattenFilters q.request.filters).mapM (Leaf.literals? q.catalog) = some literals ∧
        query.params =
          (List.replicate (1 + q.request.lastValueScans) literals.flatten).flatten) ∧
    ∀ dialect,
      (q.compile { options with dialect }).map ParametrizedQuery.params =
        (q.compile options).map ParametrizedQuery.params := by
  refine ⟨?_, q.map_params_compile options⟩
  intro query hquery
  obtain ⟨hcheck, select, hplan, hwrite⟩ := compile_eq_ok_iff.mp hquery
  obtain ⟨literals, hliterals, hbinds⟩ := plan_bindsFilters hcheck hplan
  obtain ⟨-, hwritten⟩ := Select.write_eq_ok_iff.mp hwrite
  refine ⟨select, literals, hplan, hwrite, hbinds.filtered, hbinds.scans, hliterals, ?_⟩
  rw [hwritten]
  exact hbinds.params

end Query

/-- The last reading at a site, of the readings that pass a filter. -/
def lastReadings : Query :=
  { source := .table "public" "readings"
    catalog := .empty
    request :=
      { Request.empty with
        filters :=
          [.any
            [.leaf { op := .eq, field := "site", fieldType := .integer, values := ["7"] },
              .not (.leaf
                { op := .contains, field := "name", fieldType := .string, values := ["a"] })],
            .leaf { op := .isNull, field := "gone", fieldType := .unknown, values := [] }]
        groups := [.attribute "site"]
        metrics := [.lastValue "value" "time"] } }

theorem check_lastReadings : lastReadings.check = .ok () :=
  Query.check_of_table rfl (by decide +kernel) (by decide +kernel) rfl

theorem plan_lastReadings : ∃ select, lastReadings.plan .default = .ok select := by
  obtain ⟨aliases, halias, -⟩ :=
    issueAlias_of_unasked (Aliases.unasked_new 63 "last_value_value")
  generalize (Aliases.new 63).fit "last_value_value" = aliasName at halias
  have hmetrics : Measure.ofMetrics .empty ["time"] [.lastValue "value" "time"] (Aliases.new 63) =
      .ok ([⟨.lastValue "value" "time" 0, aliasName⟩], aliases) :=
    Measure.ofMetrics_cons (Measure.ofMetric_of_shape rfl rfl halias) rfl
  have hfilter (ctx : Context) (hctx : ctx = ⟨.empty, .postgres⟩) (qualifier : Option String) :
      ∃ filter, predicateOf ctx qualifier lastReadings.request.filters = .ok filter := by
    subst hctx
    exact ⟨_, rfl⟩
  obtain ⟨filter, hbase⟩ := hfilter _ rfl (some "t")
  obtain ⟨joined, hjoined⟩ := hfilter _ rfl (some "s")
  let site : Dimension := ⟨"site", .attribute, none, .unknown⟩
  let join := lastValueJoin .postgres 0 "time" (lastReadings.source.relation (some "s")) joined
    [site] (some "t")
  refine ⟨_, Query.plan_eq_ok_iff.mpr
    ⟨⟨[site], [⟨.lastValue "value" "time" 0, aliasName⟩], [], filter, [join], []⟩, ?_, rfl⟩⟩
  exact
    { aliased := ⟨_, aliases, aliases, rfl, hmetrics, rfl⟩
      filter := hbase
      joins := bind_eq_ok_iff.mpr ⟨_, hjoined, rfl⟩
      orderBy := rfl }

theorem literals_lastReadings :
    (flattenFilters lastReadings.request.filters).mapM (Leaf.literals? lastReadings.catalog) =
      some [[.int 7], [.string "%a%"], []] := by
  have htype : Catalog.empty.fieldType "site" = .unknown := rfl
  have hseven : Literal.parse? "7" .integer = some (.int 7) := rfl
  have hpattern : Literal.likePattern "a" = "%a%" := rfl
  simp [flattenFilters, Filter.leavesOf, Filter.leaves, lastReadings, Request.empty,
    Leaf.literals?, Leaf.literal?, Leaf.resolveType, htype, hseven, hpattern]

/-- The readings are scanned twice, so the two literals are bound twice, in all dialects. -/
theorem compile_binds_filters_lastReadings :
    ∃ query select,
      lastReadings.compile .default = .ok query ∧
      lastReadings.plan .default = .ok select ∧
      (∀ s ∈ select.nested, s.FiltersScan lastReadings (lastReadings.context .default)) ∧
      (select.nested.filter Select.isScan).length = 2 ∧
      query.params = [.int 7, .string "%a%", .int 7, .string "%a%"] ∧
      ∀ dialect,
        (lastReadings.compile { CompileOptions.default with dialect }).map
            ParametrizedQuery.params =
          .ok query.params := by
  obtain ⟨select, hplan⟩ := plan_lastReadings
  obtain ⟨query, hquery, -⟩ := Query.compile_of_plan check_lastReadings hplan
  obtain ⟨hscans, hdialects⟩ := Query.compile_binds_filters lastReadings .default
  obtain ⟨planned, literals, hplanned, -, hfiltered, hcount, hliterals, hparams⟩ :=
    hscans query hquery
  cases Option.some.inj (literals_lastReadings.symm.trans hliterals)
  refine ⟨query, planned, hquery, hplanned, hfiltered, hcount, hparams, ?_⟩
  intro dialect
  rw [hdialects, hquery]
  rfl

end PagedQuery
