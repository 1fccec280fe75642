import PagedQuery.Proofs.Query.HelperColumns

/-!
# Plain metrics

Helper columns are read by percentiles only. All other metrics, as far as the
caller does not write them, are what they are in the query without percentiles,
even where joins repeat rows.

* `Metric.isPlain`, `Query.plainCells`: metrics that read no helper columns, and their cells;
* `AgreeOn`, `Measure.eval_congr`: rows in which such metrics are the same;
* `PlanParts.Fits.cells_keepingPlain`: the rows of the query without percentiles.
-/

namespace PagedQuery

/-- Whether a metric is neither a percentile nor an expression of the caller. -/
def Metric.isPlain (metric : Metric) : Bool :=
  !metric.isPercentile && !metric.isCalc

variable {δ : Type}

/-- The cells of a row without those of metrics that are not plain. -/
def Query.plainCells (q : Query) (cells : List (Option δ)) : List (Option δ) :=
  let rest := cells.drop q.request.groups.length
  cells.take q.request.groups.length ++
    ((q.request.metrics.zip rest).filter (·.1.isPlain)).map Prod.snd ++
      rest.drop q.request.metrics.length

theorem Query.plainCells_append {q : Query} {key metrics stats : List (Option δ)}
    (hkey : key.length = q.request.groups.length)
    (hmetrics : metrics.length = q.request.metrics.length) :
    q.plainCells (key ++ metrics ++ stats) =
      key ++ ((q.request.metrics.zip metrics).filter (·.1.isPlain)).map Prod.snd ++ stats := by
  have hzip : q.request.metrics.zip (metrics ++ stats) = q.request.metrics.zip metrics := by
    conv_lhs => rw [← List.append_nil q.request.metrics, List.zip_append hmetrics.symm]
    rw [List.zip_nil_left, List.append_nil]
  rw [List.append_assoc key metrics stats, plainCells, ← hkey, List.take_left, List.drop_left, hzip,
    ← hmetrics, List.drop_left]

variable [LinearOrder δ] {db : Warehouse δ}

/-! ## Scopes that agree -/

/-- Two scopes agree on some fields of what the outer query reads, and on the joined rows. -/
structure AgreeOn (fields : List String) (outer outer' : Option String) (scope scope' : Scope δ) :
    Prop where
  cells : ∀ field ∈ fields, Row.cell (scope outer) field = Row.cell (scope' outer') field
  joined : ∀ k, scope (some (lastValueAlias k)) = scope' (some (lastValueAlias k))

section

variable {fields : List String} {outer outer' : Option String}

/-- Joins do not depend on the aliases of dimensions. -/
theorem lastValueJoin_unnamed (dialect : Dialect) (index : Nat) (timeField : String)
    (source : Relation) (filter : Option Expr) (dimensions : List Dimension)
    (outer : Option String) :
    lastValueJoin dialect index timeField source filter (dimensions.map Dimension.unnamed) outer =
      lastValueJoin dialect index timeField source filter dimensions outer := by
  unfold lastValueJoin
  rw [List.zipIdx_map]
  simp only [List.map_map]
  rfl

/-- The same rows are joined to scopes that agree. -/
theorem AgreeOn.step {q : Query} {options : CompileOptions} {filter : Option Expr}
    (hfilter : predicateOf (q.context options) (some lastValueSourceAlias) q.request.filters =
      .ok filter)
    {dimensions : List Dimension} (hdimensions : ∀ d ∈ dimensions, d.field ∈ fields)
    (houter : ∀ k, outer ≠ some (lastValueAlias k))
    (houter' : ∀ k, outer' ≠ some (lastValueAlias k)) (k : Nat) (timeField : String) {scope scope' : Scope δ}
    (h : AgreeOn fields outer outer' scope scope') :
    List.Forall₂ (AgreeOn fields outer outer')
      ((lastValueJoin options.dialect k timeField (q.source.relation (some lastValueSourceAlias))
        filter dimensions outer).step db scope)
      ((lastValueJoin options.dialect k timeField (q.source.relation (some lastValueSourceAlias))
        filter dimensions outer').step db scope') := by
  have hkey : (dimensions.map fun d => d.key db options.dialect (scope outer)) =
      dimensions.map fun d => d.key db options.dialect (scope' outer') :=
    List.map_congr_left fun d hd => Dimension.key_congr (h.cells d.field (hdimensions d hd))
  refine Join.forall₂_step ?_ ?_ ?_ fun row => ?_
  · rfl
  · rfl
  · unfold Warehouse.matching
    refine List.filter_congr fun row hrow => ?_
    rw [lastValueJoin_relation, Relation.rows, Query.rows_latestSelect hfilter] at hrow
    obtain ⟨group, hgroup, rfl⟩ := List.mem_map.mp hrow
    rw [lastValueJoin_qualifier, lastValueJoin_qualifier, Bool.eq_iff_iff,
      holds_lastValueJoin_iff (length_of_mem_keyedGroups hgroup) (Function.update_self ..),
      holds_lastValueJoin_iff (length_of_mem_keyedGroups hgroup) (Function.update_self ..),
      Function.update_of_ne (houter k), Function.update_of_ne (houter' k), hkey]
  · rw [lastValueJoin_qualifier]
    refine ⟨fun field hfield => ?_, fun k' => ?_⟩
    · rw [Function.update_of_ne (houter k), Function.update_of_ne (houter' k)]
      exact h.cells field hfield
    · simp only [Function.update_apply, h.joined k']

end

/-! ## Measures over scopes that agree -/

/-- A shape that reads some fields, and no helper columns. -/
def MeasureShape.IsOver (fields : List String) : MeasureShape → Prop
  | .aggregate _ field => ∀ name ∈ field, name ∈ fields
  | .lastValue field timeField _ => field ∈ fields ∧ timeField ∈ fields
  | .nullCount field => field ∈ fields
  | .percentile .. => False
  | .calc _ => False

theorem MeasureShape.isOver_of_metric {catalog : Catalog} {times : List String}
    {aliases : Aliases} {metric : Metric} {shape : MeasureShape} {name : String}
    (h : Measure.shapeOf catalog times aliases metric = .ok (shape, name))
    (hplain : metric.isPlain = true) {fields : List String}
    (hfields : ∀ field ∈ metric.fields, field ∈ fields) : shape.IsOver fields := by
  cases metric with
  | sum field =>
    obtain ⟨-, -, h⟩ := bind_eq_ok_iff.mp h
    cases h
    simpa [IsOver, Metric.fields] using hfields
  | avg field =>
    obtain ⟨-, -, h⟩ := bind_eq_ok_iff.mp h
    cases h
    simpa [IsOver, Metric.fields] using hfields
  | count field =>
    cases field <;> cases h
    · intro name hname
      cases hname
    · simpa [IsOver, Metric.fields] using hfields
  | lastValue field timeField =>
    cases h
    simpa [IsOver, Metric.fields] using hfields
  | percentile field margin => cases hplain
  | «calc» expression given => cases hplain
  | _ =>
    cases h
    simpa [IsOver, Metric.fields] using hfields

theorem MeasureShape.isOver_statShape {fields : List String} {field : String}
    (hfield : field ∈ fields) (kind : StatKind) :
    (Measure.statShape field kind).IsOver fields := by
  cases kind <;> simpa [Measure.statShape, IsOver] using hfield

section

variable {fields : List String} {outer outer' : Option String} {scopes scopes' : List (Scope δ)}
  (h : List.Forall₂ (AgreeOn fields outer outer') scopes scopes')
include h

theorem eval_aggregate_congr (func : Aggregation) {arg arg' : Expr}
    (harg : ∀ scope scope', AgreeOn fields outer outer' scope scope' →
      arg.value db scope = arg'.value db scope') :
    (Expr.aggregate func (some arg)).eval db (db.ofGroup scopes) =
      (Expr.aggregate func (some arg')).eval db (db.ofGroup scopes') := by
  have hdata : (scopes.filterMap fun scope => arg.value db scope) =
      scopes'.filterMap fun scope => arg'.value db scope :=
    filterMap_eq_filterMap_of_forall₂ h fun scope _ scope' => harg scope scope'
  have hsummary := congrArg (fun data : List δ => db.summarize func data) hdata
  cases func <;> exact hsummary

/-- A measure that reads no helper columns is the same over scopes that agree. -/
theorem Measure.eval_congr {m m' : Measure} (hsame : m.shape = m'.shape)
    (hover : m.shape.IsOver fields) :
    (m.expr outer).eval db (db.ofGroup scopes) = (m'.expr outer').eval db (db.ofGroup scopes') := by
  have hcolumn {field : String} (hfield : field ∈ fields) (scope scope' : Scope δ)
      (hagree : AgreeOn fields outer outer' scope scope') :
      (columnOf outer field).value db scope = (columnOf outer' field).value db scope' :=
    hagree.cells field hfield
  obtain ⟨shape, aliasName⟩ := m
  obtain ⟨shape, aliasName'⟩ := m'
  cases hsame
  cases shape with
  | aggregate func field =>
    cases field with
    | some field => exact eval_aggregate_congr h func (hcolumn (hover field rfl))
    | none => cases func <;> simp [expr, Expr.eval, Warehouse.ofGroup, h.length_eq]
  | lastValue field timeField k =>
    refine eval_aggregate_congr h _ fun scope scope' hagree => ?_
    have hfield := hcolumn hover.1 scope scope' hagree
    have htime := hcolumn hover.2 scope scope' hagree
    simp only [columnOf, Expr.value_column] at hfield htime
    simp only [Expr.whenElseNull, Expr.value, Expr.eval, Expr.evalBranches, columnOf,
      Env.ofRow_scope, hfield, htime, hagree.joined k]
    rfl
  | nullCount field =>
    refine eval_aggregate_congr h _ fun scope scope' hagree => ?_
    have hfield := hcolumn hover scope scope' hagree
    simp only [columnOf, Expr.value_column] at hfield
    simp only [Expr.value, Expr.eval, Expr.evalBranches, columnOf, Env.ofRow_scope, hfield]
    rfl
  | percentile window margin => exact hover.elim
  | «calc» expression => exact hover.elim

end

/-! ## Plans with and without percentiles -/

theorem Query.times_keepingPlain (q : Query) (kind : Option RequestKind)
    (sorts : List SortClause) : (q.keepingMetrics Metric.isPlain kind sorts).times = q.times := by
  refine congrArg (distinctTexts []) ?_
  change (q.request.metrics.filter Metric.isPlain).filterMap Metric.timeField? =
    q.request.metrics.filterMap Metric.timeField?
  rw [List.filterMap_filter]
  refine congrArg (List.filterMap · q.request.metrics) (funext fun metric => ?_)
  cases metric <;> rfl

theorem Query.windows_keepingPlain (q : Query) (kind : Option RequestKind)
    (sorts : List SortClause) (options : CompileOptions) :
    (q.keepingMetrics Metric.isPlain kind sorts).windows options = [] := by
  refine Query.windows_eq_nil fun metric hmetric => ?_
  have hplain := (List.mem_filter.mp hmetric).2
  rw [Metric.isPlain, Bool.and_eq_true, Bool.not_eq_true'] at hplain
  exact hplain.1

namespace PlanParts.Fits

variable {p p' : PlanParts} {q q' : Query} {options : CompileOptions}
  {kind : Option RequestKind} {sorts : List SortClause} (h : p.Fits q options)
  (h' : p'.Fits q' options) (hq' : q' = q.keepingMetrics Metric.isPlain kind sorts)
include h

theorem joins_eq :
    ∃ filter, (q.times ≠ [] → predicateOf (q.context options) (some lastValueSourceAlias)
        q.request.filters = .ok filter) ∧
      p.joins = q.times.zipIdx.map fun (timeField, k) =>
        lastValueJoin options.dialect k timeField (q.source.relation (some lastValueSourceAlias))
          filter (q.dimensions options) (p.outer q options) := by
  obtain ⟨filter, hfilter, hjoins⟩ := Query.lastValueJoins_eq_ok h.joins
  refine ⟨filter, hfilter, hjoins.trans ?_⟩
  simp only [← h.dimensions_unnamed, lastValueJoin_unnamed]
  rfl

include h' hq'

theorem forall₂_baseRows (hhelpers : q.HelpersApart db options) :
    List.Forall₂ (AgreeOn q.request.readFields (p.outer q options) (p'.outer q' options))
      ((p.baseRows db q options).map (Scope.single (p.outer q options)))
      ((p'.baseRows db q' options).map (Scope.single (p'.outer q' options))) := by
  have hrows : p'.baseRows db q' options =
      (q.filteredRows db options.dialect).zipIdx.map Prod.fst := by
    subst hq'
    rw [baseRows, Query.windows_keepingPlain, List.zipIdx_map_fst]
    rfl
  rw [h.baseRows_eq, hrows, List.map_map, List.map_map, List.forall₂_map_left_iff,
    List.forall₂_map_right_iff, List.forall₂_same]
  refine fun position _ => ⟨fun field hfield => ?_, fun k => ?_⟩
  · rw [Function.comp_apply, Function.comp_apply, Scope.single_self, Scope.single_self]
    exact hhelpers.cell_field hfield
  · rw [Function.comp_apply, Function.comp_apply, Scope.single, Scope.single,
      Function.update_of_ne (p.outer_ne_lastValueAlias q options k).symm,
      Function.update_of_ne (p'.outer_ne_lastValueAlias q' options k).symm]

/-- Both plans select from scopes that agree. -/
theorem forall₂_scopes (hhelpers : q.HelpersApart db options) :
    List.Forall₂ (AgreeOn q.request.readFields (p.outer q options) (p'.outer q' options))
      ((p.select q options).scopes db) ((p'.select q' options).scopes db) := by
  have hbase := h.forall₂_baseRows h' hq' hhelpers
  subst hq'
  obtain ⟨filter, hfilter, hjoins⟩ := h.joins_eq
  obtain ⟨filter', hfilter', hjoins'⟩ := h'.joins_eq
  rw [h.scopes_select, h'.scopes_select]
  -- Where a join repeats rows, it repeats them in both plans.
  refine Select.forall₂_joined ?_ hbase
  rw [hjoins, hjoins', Query.times_keepingPlain, h.dimensions_keepingMetrics h']
  by_cases htimes : q.times = []
  · rw [htimes]
    exact .nil
  rw [Query.times_keepingPlain] at hfilter'
  cases Except.ok.inj ((hfilter htimes).symm.trans (hfilter' htimes))
  rw [List.forall₂_map_left_iff, List.forall₂_map_right_iff, List.forall₂_same]
  rintro ⟨timeField, k⟩ - scope scope' hagree
  refine AgreeOn.step (hfilter htimes) (fun d hd => ?_) (p.outer_ne_lastValueAlias q options)
    (p'.outer_ne_lastValueAlias _ options) k timeField hagree
  rw [← h.dimensions_unnamed] at hd
  obtain ⟨named, hnamed, rfl⟩ := List.mem_map.mp hd
  have hfield := h.field_mem_readFields hnamed
  exact hfield

theorem map_eval_measures {scopes scopes' : List (Scope δ)}
    (hscopes : List.Forall₂ (AgreeOn q.request.readFields (p.outer q options)
      (p'.outer q' options)) scopes scopes') :
    ((q.request.metrics.zip
        (p.measures.map fun m => (m.expr (p.outer q options)).eval db (db.ofGroup scopes))).filter
          (·.1.isPlain)).map Prod.snd =
      p'.measures.map fun m => (m.expr (p'.outer q' options)).eval db (db.ofGroup scopes') := by
  subst hq'
  have hshapes' := h'.shapes
  rw [Query.times_keepingPlain] at hshapes'
  refine map_snd_filter_zip_of_forall₂ h.shapes hshapes' fun metric hmetric hplain m m' hm hm' => ?_
  obtain ⟨name, hshape⟩ := hm
  obtain ⟨name', hshape'⟩ := hm'
  have hsame := congrArg Prod.fst (Except.ok.inj (hshape.symm.trans hshape'))
  exact Measure.eval_congr hscopes hsame (MeasureShape.isOver_of_metric hshape hplain
    fun _ hfield => Request.metric_mem_readFields hmetric hfield)

theorem map_eval_stats_congr {scopes scopes' : List (Scope δ)}
    (hscopes : List.Forall₂ (AgreeOn q.request.readFields (p.outer q options)
      (p'.outer q' options)) scopes scopes') :
    p.stats.map (fun m => (m.expr (p.outer q options)).eval db (db.ofGroup scopes)) =
      p'.stats.map fun m => (m.expr (p'.outer q' options)).eval db (db.ofGroup scopes') := by
  subst hq'
  obtain ⟨_, _, _, -, -, hstats⟩ := h.aliased
  obtain ⟨_, _, _, -, -, hstats'⟩ := h'.aliased
  refine map_eq_map_of_forall₂_left (Measure.ofStats_forall₂ hstats)
    (Measure.ofStats_forall₂ hstats') fun stat hstat m m' hshape hshape' => ?_
  refine Measure.eval_congr hscopes (hshape.trans hshape'.symm) ?_
  rw [hshape]
  exact MeasureShape.isOver_statShape (Request.stat_mem_readFields hstat) _

/-- Scopes that agree have the same keys in both plans. -/
theorem map_key_of_agree {outer outer' : Option String} {scope scope' : Scope δ}
    (hagree : AgreeOn q.request.readFields outer outer' scope scope') :
    (p.dimensions.map fun d => d.key db options.dialect (scope outer)) =
      p'.dimensions.map fun d => d.key db options.dialect (scope' outer') := by
  subst hq'
  have hdimensions : p.dimensions.map Dimension.unnamed = p'.dimensions.map Dimension.unnamed := by
    rw [h.dimensions_unnamed, h'.dimensions_unnamed, h.dimensions_keepingMetrics h']
  have hunnamed := congrArg (List.map fun d => Dimension.key db options.dialect d (scope' outer'))
    hdimensions
  rw [List.map_map, List.map_map] at hunnamed
  refine Eq.trans (List.map_congr_left fun d hd => ?_) hunnamed
  exact Dimension.key_congr (hagree.cells _ (h.field_mem_readFields hd))

/-- Both plans have the same groups, of scopes that agree. -/
theorem forall₂_groups (hhelpers : q.HelpersApart db options) :
    List.Forall₂ (fun group group' => group.1 = group'.1 ∧
      List.Forall₂ (AgreeOn q.request.readFields (p.outer q options) (p'.outer q' options))
        group.2 group'.2)
      (keyedGroups p.dimensions
        (fun d scope => d.key db options.dialect (scope (p.outer q options)))
        ((p.select q options).scopes db))
      (keyedGroups p'.dimensions
        (fun d scope => d.key db options.dialect (scope (p'.outer q' options)))
        ((p'.select q' options).scopes db)) := by
  have hlength : p.dimensions.length = p'.dimensions.length := by
    rw [h.length_dimensions, h'.length_dimensions, hq']
    rfl
  have hempty : p.dimensions.isEmpty = p'.dimensions.isEmpty := by
    rw [Bool.eq_iff_iff, List.isEmpty_iff_length_eq_zero, List.isEmpty_iff_length_eq_zero, hlength]
  exact forall₂_keyedGroups (h.forall₂_scopes h' hq' hhelpers) hempty fun _ _ hagree =>
    h.map_key_of_agree h' hq' hagree

/-- The rows of the query with plain metrics are the rows of the query, less the cells of the other
metrics. -/
theorem cells_keepingPlain (hhelpers : q.HelpersApart db options) (hfields : q.request.fields = [])
    (haggregated : (p.select q options).IsAggregated)
    (haggregated' : (p'.select q' options).IsAggregated) :
    (p'.select q' options).cells db = ((p.select q options).cells db).map q.plainCells := by
  have hfields' : q'.request.fields = [] := by rw [hq']; exact hfields
  rw [cells_select hfields haggregated, cells_select hfields' haggregated', List.map_map]
  refine (map_eq_map_of_forall₂ (h.forall₂_groups h' hq' hhelpers)
    fun group hgroup group' hrelated => ?_).symm
  obtain ⟨hkeys, hscopes⟩ := hrelated
  have hlength : group.1.length = q.request.groups.length := by
    rw [length_of_mem_keyedGroups hgroup, h.length_dimensions]
  have hmeasures : (p.measures.map fun m => (m.expr (p.outer q options)).eval db
      (db.ofGroup group.2)).length = q.request.metrics.length := by
    rw [List.length_map, h.shapes.length_eq]
  rw [Function.comp_apply, Query.plainCells_append hlength hmeasures,
    h.map_eval_measures h' hq' hscopes, h.map_eval_stats_congr h' hq' hscopes, hkeys]

end PlanParts.Fits

end PagedQuery
