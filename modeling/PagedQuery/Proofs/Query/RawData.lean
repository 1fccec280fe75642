import PagedQuery.Proofs.Query.Faults

/-!
# Fields that may not be aggregated

Some fields may be shown row by row but not be put together. A request that
groups by such a field, or computes a metric or a statistic of it, does not
compile. In the statements of a request that compiles, the columns of these
fields are read by filters, selected as they are, and sorted by as they are.

* `Dimension.isRawDataOnly_of_ofGroup`, `Measure.isRawDataOnly_of_ofMetrics`,
  `Measure.isRawDataOnly_of_ofStats`: what is checked may be aggregated;
* `Query.IsHelper`, `Query.MayAggregate`: helper columns, and columns that may be aggregated;
* `Select.KeepsRawData`: statements that aggregate no other columns;
* `Query.keepsRawData_of_compile`: the statements of a query that compiles.
-/

namespace PagedQuery

variable {catalog : Catalog} {before : Aliases}

/-! ## Checks -/

theorem Dimension.isRawDataOnly_of_ofGroup {sorted : Bool} {group : Group} {d : Dimension}
    {after : Aliases} (h : ofGroup catalog sorted group before = .ok (d, after)) :
    catalog.isRawDataOnly group.field = false := by
  unfold ofGroup at h
  split at h
  · cases h
  · rename_i hraw
    exact Bool.eq_false_of_not_eq_true hraw

theorem Dimension.isRawDataOnly_of_ofGroups {sorted : List Nat} {index : Nat}
    {groups : List Group} {dimensions : List Dimension} {after : Aliases}
    (h : ofGroups catalog sorted index groups before = .ok (dimensions, after)) :
    ∀ group ∈ groups, catalog.isRawDataOnly group.field = false := by
  intro group hgroup
  have hchecked := (ofGroups_forall₂ h).flip
  obtain ⟨d, -, _, _, _, hofGroup⟩ := exists_mem_of_forall₂ hchecked hgroup
  exact isRawDataOnly_of_ofGroup hofGroup

namespace Measure

/-- All fields of a metric are looked at. -/
theorem isRawDataOnly_of_ofMetric {times : List String} {metric : Metric} {m : Measure}
    {after : Aliases} (h : ofMetric catalog times metric before = .ok (m, after)) :
    ∀ field ∈ metric.fields, catalog.isRawDataOnly field = false := by
  unfold ofMetric at h
  split at h
  · cases h
  · rename_i hnone
    intro field hfield
    exact Bool.eq_false_of_not_eq_true (List.find?_eq_none.mp hnone field hfield)

theorem isRawDataOnly_of_ofMetrics {times : List String} {metrics : List Metric}
    {measures : List Measure} {after : Aliases}
    (h : ofMetrics catalog times metrics before = .ok (measures, after)) :
    ∀ metric ∈ metrics, ∀ field ∈ metric.fields, catalog.isRawDataOnly field = false := by
  induction metrics generalizing measures before with
  | nil => exact fun _ hmetric => absurd hmetric List.not_mem_nil
  | cons metric rest ih =>
    obtain ⟨⟨first, between⟩, hfirst, h⟩ := bind_eq_ok_iff.mp h
    obtain ⟨⟨others, _⟩, hothers, h⟩ := bind_eq_ok_iff.mp h
    cases h
    exact List.forall_mem_cons.mpr ⟨isRawDataOnly_of_ofMetric hfirst, ih hothers⟩

theorem isRawDataOnly_of_ofStats {stats : List Stat} {measures : List Measure}
    {after : Aliases} (h : ofStats catalog stats before = .ok (measures, after)) :
    ∀ stat ∈ stats, catalog.isRawDataOnly stat.field = false := by
  induction stats generalizing measures before with
  | nil => exact fun _ hstat => absurd hstat List.not_mem_nil
  | cons stat rest ih =>
    obtain ⟨⟨first, between⟩, hfirst, h⟩ := bind_eq_ok_iff.mp h
    obtain ⟨⟨others, _⟩, hothers, h⟩ := bind_eq_ok_iff.mp h
    cases h
    refine List.forall_mem_cons.mpr ⟨?_, ih hothers⟩
    unfold ofStat at hfirst
    split at hfirst
    · cases hfirst
    · rename_i hraw
      exact Bool.eq_false_of_not_eq_true hraw

end Measure

/-! ## Columns that may be aggregated -/

namespace Query

variable (q : Query) (options : CompileOptions)

/-- The columns that derived tables and joined sub-selects compute. -/
inductive IsHelper : ColumnRef → Prop where
  | rank {window : PercentileWindow} (h : window ∈ q.windows options) :
    IsHelper ⟨some percentileAlias, window.rankColumn⟩
  | count {window : PercentileWindow} (h : window ∈ q.windows options) :
    IsHelper ⟨some percentileAlias, window.countColumn⟩
  | latest (k : Nat) : IsHelper ⟨some (lastValueAlias k), maxTimeColumn⟩
  | group (k i : Nat) : IsHelper ⟨some (lastValueAlias k), groupColumn i⟩

/-- Helper columns, and columns of fields that are not for raw data only. -/
def MayAggregate (ref : ColumnRef) : Prop :=
  q.catalog.isRawDataOnly ref.name = false ∨ q.IsHelper options ref

end Query

/-- An expression looks at one row: there is no aggregate and no window in it. -/
def Expr.IsRowwise (e : Expr) : Prop :=
  ∀ sub ∈ e.subexprs, (∀ func arg, sub ≠ .aggregate func arg) ∧
    ∀ func partitionBy orderBy, sub ≠ .window func partitionBy orderBy

/-- Whether an expression is an aggregate or a window itself. -/
def Expr.spansRows : Expr → Bool
  | .aggregate .. => true
  | .window .. => true
  | _ => false

theorem Expr.ne_of_spansRows {e : Expr} (h : e.spansRows = false) :
    (∀ func arg, e ≠ .aggregate func arg) ∧
      ∀ func partitionBy orderBy, e ≠ .window func partitionBy orderBy := by
  constructor
  · rintro func arg rfl
    cases h
  · rintro func partitionBy orderBy rfl
    cases h

/-- Outside of its filter, which looks at one row, a statement reads fields for raw data only as
columns of the result of a request that is not aggregated, and as sort keys. It selects them as
they are. -/
structure Select.KeepsRawData (q : Query) (options : CompileOptions) (s : Select) : Prop where
  items : ∀ item ∈ s.items,
    (q.request.isAggregated = false ∧
      ∃ field ∈ q.request.fields, item.expr = columnOf s.source.qualifier field) ∨
    item.expr = .wildcard s.source.qualifier ∨
    ∀ ref ∈ item.expr.columns, q.MayAggregate options ref
  joins : ∀ join ∈ s.joins, ∀ ref ∈ join.condition.columns, q.MayAggregate options ref
  filter : ∀ e ∈ s.filter, e.IsRowwise
  groupBy : ∀ e ∈ s.groupBy, ∀ ref ∈ e.columns, q.catalog.isRawDataOnly ref.name = false
  orderBy : ∀ key ∈ s.orderBy, s.NamesOutput key.1 ∨
    ∃ field direction, .raw field direction ∈ q.request.sorts ∧
      key.1 = columnOf s.source.qualifier field

/-! ## Filters -/

section

variable {ctx : Context} {qualifier : Option String} {e : Expr}

theorem Leaf.isRowwise_stringPredicate (dialect : Dialect) (qualifier : Option String)
    (field text : String) (op : LeafOp) :
    (stringPredicate dialect (columnOf qualifier field) text op).IsRowwise := by
  unfold stringPredicate
  split
  · simp [Expr.IsRowwise, Expr.subexprs, Expr.subexprsList, columnOf]
  · simp [Expr.IsRowwise, Expr.subexprs, columnOf]
  · cases dialect <;>
      simp [Dialect.textSearch, Expr.IsRowwise, Expr.subexprs, Expr.subexprsList, Expr.int,
        columnOf]

theorem Leaf.isRowwise_predicate {leaf : Leaf} (h : leaf.predicate ctx qualifier = .ok e) :
    e.IsRowwise := by
  rcases predicate_cases h with ⟨-, rfl⟩ | ⟨text, -, -, rfl⟩ | ⟨values, -, -, -, -, rfl⟩ |
    ⟨op, text, value, -, -, -, rfl⟩
  · simp [Expr.IsRowwise, Expr.subexprs, columnOf]
  · exact isRowwise_stringPredicate ctx.dialect qualifier leaf.field text leaf.op
  · intro sub hsub
    simp only [Expr.subexprs, columnOf, List.mem_cons, List.mem_append, List.not_mem_nil,
      or_false, Expr.mem_subexprsList, List.mem_map] at hsub
    rcases hsub with rfl | rfl | ⟨e, ⟨value, -, rfl⟩, hsub⟩
    · exact Expr.ne_of_spansRows rfl
    · exact Expr.ne_of_spansRows rfl
    · cases List.mem_singleton.mp hsub
      exact Expr.ne_of_spansRows rfl
  · simp [Expr.IsRowwise, Expr.subexprs, columnOf]

theorem Expr.IsRowwise.list {sub : Expr} {es : List Expr} (h : ∀ e ∈ es, e.IsRowwise)
    (hsub : sub ∈ Expr.subexprsList es) :
    (∀ func arg, sub ≠ .aggregate func arg) ∧
      ∀ func partitionBy orderBy, sub ≠ .window func partitionBy orderBy := by
  obtain ⟨e, he, hsub⟩ := Expr.mem_subexprsList.mp hsub
  exact h e he sub hsub

theorem Expr.IsRowwise.all {es : List Expr} (h : ∀ e ∈ es, e.IsRowwise) :
    (Expr.all es).IsRowwise := by
  intro sub hsub
  rcases List.mem_cons.mp hsub with rfl | hsub
  · exact Expr.ne_of_spansRows rfl
  · exact list h hsub

theorem Expr.IsRowwise.any {es : List Expr} (h : ∀ e ∈ es, e.IsRowwise) :
    (Expr.any es).IsRowwise := by
  intro sub hsub
  rcases List.mem_cons.mp hsub with rfl | hsub
  · exact Expr.ne_of_spansRows rfl
  · exact list h hsub

theorem Expr.IsRowwise.not (h : e.IsRowwise) : (Expr.not e).IsRowwise := by
  intro sub hsub
  rcases List.mem_cons.mp hsub with rfl | hsub
  · exact Expr.ne_of_spansRows rfl
  · exact h sub hsub

theorem Filter.isRowwise_predicates {filters : List Filter} {es : List Expr}
    (h : Filter.predicates ctx qualifier filters = .ok es) : ∀ e ∈ es, e.IsRowwise := by
  have hlist {fs : List Filter} {es : List Expr}
      (h : List.Forall₂ (fun _ e => e.IsRowwise) fs es) : ∀ e ∈ es, e.IsRowwise := by
    intro e he
    obtain ⟨-, -, hrowwise⟩ := exists_mem_of_forall₂ h he
    exact hrowwise
  refine hlist (Filter.predicates_induction ?_ ?_ ?_ ?_ filters h)
  · exact fun leaf e hleaf => Leaf.isRowwise_predicate hleaf
  · exact fun _ e hrowwise => hrowwise.not
  · exact fun _ es hes => .all (hlist hes)
  · exact fun _ es hes => .any (hlist hes)

theorem isRowwise_of_predicateOf {filters : List Filter} {condition : Option Expr}
    (h : predicateOf ctx qualifier filters = .ok condition) : ∀ e ∈ condition, e.IsRowwise := by
  rw [predicateOf_eq] at h
  obtain ⟨es, hes, h⟩ := bind_eq_ok_iff.mp h
  cases h
  have hrowwise := Filter.isRowwise_predicates hes
  intro e he
  unfold conjunctionOf at he
  split at he
  · cases he
  · cases he
    exact hrowwise _ List.mem_cons_self
  · cases he
    exact .all hrowwise

end

namespace PlanParts.Fits

variable {p : PlanParts} {q : Query} {options : CompileOptions} (h : p.Fits q options)
include h

theorem isRawDataOnly_group : ∀ group ∈ q.request.groups,
    q.catalog.isRawDataOnly group.field = false := by
  obtain ⟨_, _, _, hdimensions, -, -⟩ := h.aliased
  exact Dimension.isRawDataOnly_of_ofGroups hdimensions

theorem isRawDataOnly_metric : ∀ metric ∈ q.request.metrics, ∀ field ∈ metric.fields,
    q.catalog.isRawDataOnly field = false := by
  obtain ⟨_, _, _, -, hmeasures, -⟩ := h.aliased
  exact Measure.isRawDataOnly_of_ofMetrics hmeasures

theorem isRawDataOnly_stat : ∀ stat ∈ q.request.stats,
    q.catalog.isRawDataOnly stat.field = false := by
  obtain ⟨_, _, _, -, -, hstats⟩ := h.aliased
  exact Measure.isRawDataOnly_of_ofStats hstats

theorem isRawDataOnly_dimension {d : Dimension} (hd : d ∈ p.dimensions) :
    q.catalog.isRawDataOnly d.field = false := by
  obtain ⟨_, _, _, hdimensions, -, -⟩ := h.aliased
  obtain ⟨group, hgroup, _, _, _, hofGroup⟩ :=
    exists_mem_of_forall₂ (Dimension.ofGroups_forall₂ hdimensions) hd
  rw [(Dimension.issues_of_ofGroup hofGroup).2.1]
  exact h.isRawDataOnly_group group hgroup

/-- Dimensions are written for the outer query, the derived table and the joined sub-selects. -/
theorem isRawDataOnly_groupBy {dialect : Dialect} {qualifier : Option String} {e : Expr}
    (he : e ∈ p.dimensions.map (Dimension.expr dialect qualifier)) :
    ∀ ref ∈ e.columns, q.catalog.isRawDataOnly ref.name = false := by
  obtain ⟨d, hd, rfl⟩ := List.mem_map.mp he
  intro ref href
  rw [d.columns_expr dialect qualifier href]
  exact h.isRawDataOnly_dimension hd

theorem isRawDataOnly_window {window : PercentileWindow} (hwindow : window ∈ q.windows options) :
    q.catalog.isRawDataOnly window.field = false := by
  obtain ⟨field, hfield, rfl⟩ := List.mem_map.mp hwindow
  obtain ⟨metric, hmetric, hof⟩ := List.mem_filterMap.mp (mem_distinctTexts.mp hfield).1
  cases metric <;> cases hof
  exact h.isRawDataOnly_metric _ hmetric _ List.mem_cons_self

theorem isRawDataOnly_time {timeField : String} (htime : timeField ∈ q.times) :
    q.catalog.isRawDataOnly timeField = false := by
  obtain ⟨metric, hmetric, hof⟩ := List.mem_filterMap.mp (mem_distinctTexts.mp htime).1
  cases metric <;> cases hof
  exact h.isRawDataOnly_metric _ hmetric _ (List.mem_cons_of_mem _ List.mem_cons_self)

/-- A measure reads fields of its metric, and helper columns. -/
theorem mayAggregate_measure {m : Measure} (hm : m ∈ p.measures) {ref : ColumnRef}
    (href : ref ∈ (m.expr (p.outer q options)).columns) : q.MayAggregate options ref := by
  obtain ⟨metric, hmetric, name, hshape⟩ := exists_mem_of_forall₂ h.shapes hm
  rcases Measure.columns_of_metric _ hshape href with
    ⟨field, hfield, rfl⟩ | ⟨field, margin, rfl, href⟩ | ⟨field, timeField, rfl, rfl⟩
  · exact .inl (h.isRawDataOnly_metric metric hmetric field hfield)
  · have hwindow := Query.ofField_mem_windows options hmetric
    have houter : p.outer q options = some percentileAlias := by
      rw [outer, source_of_windows_ne_nil (List.ne_nil_of_mem hwindow)]
      rfl
    rw [houter] at href
    rcases href with rfl | rfl
    · exact .inr (.rank hwindow)
    · exact .inr (.count hwindow)
  · exact .inr (.latest _)

theorem mayAggregate_stat {m : Measure} (hm : m ∈ p.stats) {ref : ColumnRef}
    (href : ref ∈ (m.expr (p.outer q options)).columns) : q.MayAggregate options ref := by
  obtain ⟨_, _, _, -, -, hstats⟩ := h.aliased
  obtain ⟨stat, hstat, hshape⟩ := exists_mem_of_forall₂ (Measure.ofStats_forall₂ hstats) hm
  rw [Measure.columns_of_stat _ hshape href]
  exact .inl (h.isRawDataOnly_stat stat hstat)

/-! ### Statements of a plan -/

theorem keepsRawData (hask : q.request.fault? = none) :
    (p.select q options).KeepsRawData q options where
  items := by
    intro item hitem
    simp only [select, Query.selectItems, List.mem_append, List.mem_map] at hitem
    rcases hitem with ((⟨field, hfield, rfl⟩ | ⟨d, hd, rfl⟩) | ⟨m, hm, rfl⟩) | ⟨m, hm, rfl⟩
    · refine .inl ⟨?_, field, hfield, rfl⟩
      by_contra haggregated
      rw [Request.fields_eq_nil hask (by simpa using haggregated)] at hfield
      exact absurd hfield List.not_mem_nil
    · refine .inr (.inr fun ref href => ?_)
      exact .inl (h.isRawDataOnly_groupBy (List.mem_map_of_mem hd) ref href)
    · exact .inr (.inr fun ref href => h.mayAggregate_measure hm href)
    · exact .inr (.inr fun ref href => h.mayAggregate_stat hm href)
  joins := by
    intro join hjoin ref href
    obtain ⟨k, timeField, filter, -, -, rfl⟩ := h.join_cases hjoin
    rcases columns_lastValueJoin _ href with ⟨d, hd, rfl⟩ | ⟨i, -, rfl⟩
    · exact .inl (h.isRawDataOnly_dimension hd)
    · exact .inr (.group k i)
  filter := by
    intro e he
    simp only [select] at he
    split at he
    · exact isRowwise_of_predicateOf h.filter e he
    · cases he
  groupBy _ he := h.isRawDataOnly_groupBy he
  orderBy _ hkey := h.orderBy_cases hkey

/-- The derived table takes all columns as they are and ranks rows by fields of percentiles. -/
theorem keepsRawData_ranked (base : Relation) :
    (rankedSelect options.dialect base p.filter p.dimensions (q.windows options)).KeepsRawData
      q options where
  items := by
    intro item hitem
    rcases List.mem_cons.mp hitem with rfl | hitem
    · exact .inr (.inl rfl)
    · refine .inr (.inr fun ref href => .inl ?_)
      obtain ⟨window, hwindow, hitem⟩ := List.mem_flatMap.mp hitem
      rcases columns_windowItem hitem href with ⟨d, hd, rfl⟩ | rfl
      · exact h.isRawDataOnly_dimension hd
      · exact h.isRawDataOnly_window hwindow
  joins _ hjoin := absurd hjoin List.not_mem_nil
  filter := isRowwise_of_predicateOf h.filter
  groupBy _ he := absurd he List.not_mem_nil
  orderBy _ hkey := absurd hkey List.not_mem_nil

theorem keepsRawData_latest {timeField : String} (htime : timeField ∈ q.times)
    {filter : Option Expr} {qualifier : Option String}
    (hfilter : predicateOf (q.context options) qualifier q.request.filters = .ok filter)
    (source : Relation) :
    (latestSelect options.dialect timeField source filter p.dimensions).KeepsRawData
      q options where
  items := by
    intro item hitem
    refine .inr (.inr fun ref href => .inl ?_)
    rcases List.mem_append.mp hitem with hitem | hitem
    · obtain ⟨⟨key, i⟩, hkey, rfl⟩ := List.mem_map.mp hitem
      exact h.isRawDataOnly_groupBy (List.fst_mem_of_mem_zipIdx hkey) ref href
    · cases List.mem_singleton.mp hitem
      cases List.mem_singleton.mp href
      exact h.isRawDataOnly_time htime
  joins _ hjoin := absurd hjoin List.not_mem_nil
  filter := isRowwise_of_predicateOf hfilter
  groupBy _ he := h.isRawDataOnly_groupBy he
  orderBy _ hkey := absurd hkey List.not_mem_nil

theorem keepsRawData_nested (hask : q.request.fault? = none) :
    ∀ s ∈ (p.select q options).nested, s.KeepsRawData q options := by
  intro s hs
  rcases h.nested_cases hs with rfl | ⟨rfl, -⟩ | ⟨timeField, filter, htime, hfilter, rfl⟩
  · exact h.keepsRawData hask
  · exact h.keepsRawData_ranked _
  · exact h.keepsRawData_latest htime hfilter _

end PlanParts.Fits

/-! ## Queries -/

/-- A request that groups by a field for raw data only, or computes a metric or a statistic of
one, does not compile. In the statements of a request that compiles, in derived tables and joins
as well, such a field is read by filters, as a column of the result and as a sort key only. All
other columns are of fields that may be aggregated, helper columns, or names of the result. -/
theorem Query.keepsRawData_of_compile (q : Query) (options : CompileOptions) :
    ((∃ group ∈ q.request.groups, q.catalog.isRawDataOnly group.field = true) ∨
      (∃ metric ∈ q.request.metrics, ∃ field ∈ metric.fields,
        q.catalog.isRawDataOnly field = true) ∨
      (∃ stat ∈ q.request.stats, q.catalog.isRawDataOnly stat.field = true) →
        ∃ e, q.compile options = .error e) ∧
    ∀ query, q.compile options = .ok query →
      ∃ select, q.plan options = .ok select ∧ select.write options.dialect = .ok query ∧
        ∀ s ∈ select.nested, s.KeepsRawData q options := by
  constructor
  · intro hraw
    cases hcompile : q.compile options with
    | error e => exact ⟨e, rfl⟩
    | ok query =>
      exfalso
      obtain ⟨-, select, hplan, -⟩ := compile_eq_ok_iff.mp hcompile
      obtain ⟨p, hfits, -⟩ := plan_eq_ok_iff.mp hplan
      rcases hraw with ⟨group, hgroup, hfield⟩ | ⟨metric, hmetric, field, hmem, hfield⟩ |
        ⟨stat, hstat, hfield⟩
      · exact absurd hfield (by simp [hfits.isRawDataOnly_group group hgroup])
      · exact absurd hfield (by simp [hfits.isRawDataOnly_metric metric hmetric field hmem])
      · exact absurd hfield (by simp [hfits.isRawDataOnly_stat stat hstat])
  · intro query hcompile
    obtain ⟨hcheck, select, hplan, hwrite⟩ := compile_eq_ok_iff.mp hcompile
    obtain ⟨p, hfits, rfl⟩ := plan_eq_ok_iff.mp hplan
    exact ⟨_, hplan, hwrite, hfits.keepsRawData_nested (fault?_eq_none_of_check hcheck)⟩

/-- The codes of a table that may be listed, in order. -/
def codes : Query :=
  { source := .table "public" "codes"
    catalog := ⟨[{ name := "code", fieldType := .string, params := [], timePattern := none
                   flags := [.rawDataOnly] }]⟩
    request :=
      { Request.empty with
        fields := ["code"]
        filters := [.not (.leaf
          { op := .isNull, field := "code", fieldType := .unknown, values := [] })]
        sorts := [.raw "code" .ascending] } }

/-- The codes may be listed but not be counted. -/
theorem keepsRawData_of_compile_codes :
    codes.catalog.isRawDataOnly "code" = true ∧
    (∃ query select, codes.compile .default = .ok query ∧ codes.plan .default = .ok select ∧
      ∀ s ∈ select.nested, s.KeepsRawData codes .default) ∧
    ∃ e, (codes.withMetrics [.count (some "code")]).compile .default = .error e := by
  have hraw : codes.catalog.isRawDataOnly "code" = true := by decide +kernel
  have hfield : Text.isBlankText "code" = false := by decide +kernel
  have hrequest : codes.request.fault? = none := by
    simp [codes, Request.empty, Request.fault?, Request.isAggregated, SortClause.isRaw,
      SortClause.isAgg, hfield]
  have hcheck : codes.check = .ok () :=
    Query.check_of_table rfl (by decide +kernel) (by decide +kernel) hrequest
  have hplan : ∃ select, codes.plan .default = .ok select := ⟨_, rfl⟩
  obtain ⟨select, hplan⟩ := hplan
  obtain ⟨query, hquery, -⟩ := Query.compile_of_plan hcheck hplan
  refine ⟨hraw, ?_, ?_⟩
  · obtain ⟨planned, hplanned, -, hkeeps⟩ :=
      (Query.keepsRawData_of_compile codes .default).2 query hquery
    exact ⟨query, planned, hquery, hplanned, hkeeps⟩
  · refine (Query.keepsRawData_of_compile (codes.withMetrics _) .default).1 (.inr (.inl ?_))
    exact ⟨_, List.mem_cons_self, "code", List.mem_cons_self, hraw⟩

end PagedQuery
