import PagedQuery.Proofs.Query.Bindings
import PagedQuery.Proofs.Query.Groups
import PagedQuery.Proofs.Relational.Exact

/-!
# Last values

A last value is read off a join with the greatest time of each group. Keys are
compared with a datum in the place of null, so a row is joined to its own group
and to no other one, as long as no row has that datum. Then the joins change
nothing but the last values.

* `Warehouse.AvoidsSentinels`, `map_key_eq_of_filled_eq`: rows that joins tell apart;
* `matching_lastValueJoin`: the only row that a row is joined to;
* `PlanParts.Fits.scopes_lastValues`: the rows that a plan selects from;
* `Query.cells_of_compile_lastValues`: the rows of a query with last values.
-/

namespace PagedQuery

variable {δ : Type} [LinearOrder δ] {db : Warehouse δ}

/-! ## Keys and data in the place of null -/

/-- No dimension of a row has the datum that stands for null. -/
def Warehouse.AvoidsSentinels (db : Warehouse δ) (dialect : Dialect) (dimensions : List Dimension)
    (row : Row δ) : Prop :=
  ∀ d ∈ dimensions, d.key db dialect row ≠ some (db.sentinel dialect d.outputType)

/-- Keys that agree with data in the place of nulls are the same. -/
theorem map_key_eq_of_filled_eq {dialect : Dialect} {dimensions : List Dimension}
    {row other : Row δ} (hrow : db.AvoidsSentinels dialect dimensions row)
    (hother : db.AvoidsSentinels dialect dimensions other)
    (h : db.filled dialect dimensions (dimensions.map fun d => d.key db dialect row) =
      db.filled dialect dimensions (dimensions.map fun d => d.key db dialect other)) :
    (dimensions.map fun d => d.key db dialect row) =
      dimensions.map fun d => d.key db dialect other := by
  rw [db.filled_map_eq_iff (List.length_map _)] at h
  refine List.map_congr_left fun d hd => ?_
  obtain ⟨i, hi⟩ := List.getElem?_of_mem hd
  have hdatum := h i d hi
  rw [List.getElem?_map, hi] at hdatum
  -- A null on one side only would be filled with the datum that the other side avoids.
  rcases getD_eq_getD_iff.mp hdatum with hsame | ⟨-, hfilled⟩ | ⟨hfilled, -⟩
  · exact hsame
  · exact absurd hfilled (hother d hd)
  · exact absurd hfilled (hrow d hd)

/-! ## Joins -/

section

variable {q : Query} {options : CompileOptions} {dimensions : List Dimension}

/-- The filtered rows with the key of a row. -/
def Query.membersOf (db : Warehouse δ) (q : Query) (dialect : Dialect)
    (dimensions : List Dimension) (row : Row δ) : List (Row δ) :=
  (q.filteredRows db dialect).filter fun other =>
    (dimensions.map fun d => d.key db dialect other) = dimensions.map fun d => d.key db dialect row

/-- A filtered row matches one row of a join, that of its own group. -/
theorem matching_lastValueJoin {filter : Option Expr}
    (hfilter : predicateOf (q.context options) (some lastValueSourceAlias) q.request.filters =
      .ok filter)
    (havoids : ∀ row ∈ q.filteredRows db options.dialect,
      db.AvoidsSentinels options.dialect dimensions row)
    {outer : Option String} {k : Nat} (houter : outer ≠ some (lastValueAlias k))
    (timeField : String) {scope : Scope δ} {row : Row δ}
    (hrow : row ∈ q.filteredRows db options.dialect) (hscope : scope outer = row) :
    let join := lastValueJoin options.dialect k timeField
      (q.source.relation (some lastValueSourceAlias)) filter dimensions outer
    db.matching join.relation.qualifier (join.relation.rows db) join.condition scope =
      [latestRow (dimensions.map fun d => d.key db options.dialect row)
        (dataOf (q.membersOf db options.dialect dimensions row) timeField).max?] := by
  intro join
  have hqualifier : join.relation.qualifier = some (lastValueAlias k) := lastValueJoin_qualifier ..
  have hrows : join.relation.rows db = _ :=
    Query.rows_latestSelect hfilter dimensions timeField
  rw [Warehouse.matching, hrows, hqualifier, List.filter_map, filter_keyedGroups hrow]
  · rfl
  · intro group hgroup
    rw [Function.comp_apply, holds_lastValueJoin_iff (length_of_mem_keyedGroups hgroup)
      (Function.update_self ..), Function.update_of_ne houter, hscope]
    refine ⟨fun hfilled => ?_, fun hkey => by rw [← hkey]⟩
    -- Without dimensions the only group may be one of no rows.
    by_cases hdimensions : dimensions = []
    · subst hdimensions
      rw [List.mem_singleton.mp hgroup]
      rfl
    · obtain ⟨other, hother, hkey⟩ := exists_of_mem_keyedGroups hgroup hdimensions
      rw [rows_of_mem_keyedGroups hgroup, List.mem_filter] at hother
      rw [← hkey] at hfilled ⊢
      exact map_key_eq_of_filled_eq (havoids row hrow) (havoids other hother.1) hfilled

/-- The scope of a filtered row after some joins: the row itself, and for each join the greatest
time of its group. -/
def Query.Extends (db : Warehouse δ) (q : Query) (dialect : Dialect) (dimensions : List Dimension)
    (outer : Option String) (joined : List (String × Nat)) (row : Row δ) (scope : Scope δ) : Prop :=
  row ∈ q.filteredRows db dialect ∧ scope outer = row ∧
    ∀ timeField k, (timeField, k) ∈ joined → scope (some (lastValueAlias k)) =
      latestRow (dimensions.map fun d => d.key db dialect row)
        (dataOf (q.membersOf db dialect dimensions row) timeField).max?

/-- Each join adds its row to the scope of every filtered row. -/
theorem forall₂_joined_lastValues {filter : Option Expr}
    (hfilter : predicateOf (q.context options) (some lastValueSourceAlias) q.request.filters =
      .ok filter)
    (havoids : ∀ row ∈ q.filteredRows db options.dialect,
      db.AvoidsSentinels options.dialect dimensions row)
    {outer : Option String} (houter : ∀ k, outer ≠ some (lastValueAlias k))
    {joined pairs : List (String × Nat)} (hnodup : ((joined ++ pairs).map Prod.snd).Nodup)
    {rows : List (Row δ)} {scopes : List (Scope δ)}
    (h : List.Forall₂ (q.Extends db options.dialect dimensions outer joined) rows scopes) :
    List.Forall₂ (q.Extends db options.dialect dimensions outer (joined ++ pairs)) rows
      (Select.joined db (pairs.map fun (timeField, k) =>
        lastValueJoin options.dialect k timeField
          (q.source.relation (some lastValueSourceAlias)) filter dimensions outer) scopes) := by
  -- The rows joined so far stay as they are, since each join has an alias of its own.
  induction pairs generalizing joined scopes with
  | nil => simpa [Select.joined] using h
  | cons pair rest ih =>
    obtain ⟨timeField, k⟩ := pair
    rw [List.append_cons] at hnodup ⊢
    have hlast : k ∉ joined.map Prod.snd := by
      rw [List.map_append, List.map_append, List.nodup_append] at hnodup
      have hdisjoint := hnodup.1
      rw [List.nodup_append] at hdisjoint
      exact fun hk => hdisjoint.2.2 k hk k List.mem_cons_self rfl
    rw [List.map_cons, Select.joined_cons]
    refine ih hnodup ?_
    rw [← List.flatMap_singleton' rows]
    refine List.rel_flatMap h fun row scope hextends => ?_
    obtain ⟨hrow, hscope, hjoined⟩ := hextends
    rw [Join.step_eq_singleton
      (matching_lastValueJoin hfilter havoids (houter k) timeField hrow hscope),
      lastValueJoin_qualifier]
    refine .cons ⟨hrow, ?_, fun timeField' k' hpair => ?_⟩ .nil
    · rw [Function.update_of_ne (houter k), hscope]
    · rcases List.mem_append.mp hpair with hpair | hpair
      · have hne : k' ≠ k := fun heq => hlast (heq ▸ List.mem_map_of_mem hpair)
        rw [Function.update_of_ne fun heq =>
          hne (lastValueAlias_injective (Option.some.inj heq)), hjoined _ _ hpair]
      · cases List.mem_singleton.mp hpair
        rw [Function.update_self]

end

namespace PlanParts.Fits

variable {p : PlanParts} {q : Query} {options : CompileOptions} (h : p.Fits q options)
include h

/-- Without percentiles, a plan selects from the filtered rows, each with the rows of its group. -/
theorem scopes_lastValues (hwindows : q.windows options = [])
    (havoids : ∀ row ∈ q.filteredRows db options.dialect,
      db.AvoidsSentinels options.dialect p.dimensions row) :
    List.Forall₂ (q.Extends db options.dialect p.dimensions (p.outer q options) q.times.zipIdx)
      (q.filteredRows db options.dialect) ((p.select q options).scopes db) := by
  have hbase : List.Forall₂
      (q.Extends db options.dialect p.dimensions (p.outer q options) [])
      (q.filteredRows db options.dialect)
      ((p.baseRows db q options).map (Scope.single (p.outer q options))) := by
    rw [baseRows, if_pos (List.isEmpty_iff.mpr hwindows), List.forall₂_map_right_iff,
      List.forall₂_same]
    exact fun row hrow => ⟨hrow, Scope.single_self .., fun _ _ hpair =>
      absurd hpair List.not_mem_nil⟩
  obtain ⟨filter, hfilter, hjoins⟩ := Query.lastValueJoins_eq_ok h.joins
  rw [h.scopes_select, hjoins]
  by_cases htimes : q.times = []
  · rw [htimes]
    exact hbase
  · refine forall₂_joined_lastValues (hfilter htimes) havoids
      (p.outer_ne_lastValueAlias q options) ?_ hbase
    rw [List.nil_append, List.zipIdx_map_snd]
    exact List.nodup_range'

end PlanParts.Fits

/-! ## Last values of groups -/

/-- The rows of a group are the members of the group of each of them. -/
theorem Query.membersOf_eq {q : Query} {dialect : Dialect} {dimensions : List Dimension}
    {group : List (Option δ) × List (Row δ)}
    (hgroup : group ∈ keyedGroups dimensions (fun d row => d.key db dialect row)
      (q.filteredRows db dialect)) {row : Row δ} (hrow : row ∈ group.2) :
    q.membersOf db dialect dimensions row = group.2 := by
  rw [membersOf, key_of_mem_keyedGroups hgroup hrow, ← rows_of_mem_keyedGroups hgroup]

/-- The value of a last value in a group. -/
theorem Query.eval_lastValue {q : Query} {dialect : Dialect} {dimensions : List Dimension}
    {outer : Option String} {joined : List (String × Nat)} {field timeField : String} {k : Nat}
    {aliasName : String} (hjoined : (timeField, k) ∈ joined)
    {group : List (Option δ) × List (Row δ)} {scopes : List (Scope δ)}
    (hgroup : group ∈ keyedGroups dimensions (fun d row => d.key db dialect row)
      (q.filteredRows db dialect))
    (h : List.Forall₂ (q.Extends db dialect dimensions outer joined) group.2 scopes) :
    (Measure.expr outer ⟨.lastValue field timeField k, aliasName⟩).eval db (db.ofGroup scopes) =
      lastValueOf group.2 field timeField := by
  have hcompare (a b : Option δ) :
      db.compare .eq a b = .holds ↔ (a.isSome && decide (a = b)) = true := by
    cases a <;> cases b <;>
      simp [Warehouse.compare, Warehouse.relates, Truth.ofBool_eq_holds_iff]
  change db.summarize .max (scopes.filterMap _) = _
  rw [lastValueOf, latestRows, dataOf, List.filterMap_filter, Warehouse.summarize]
  refine congrArg List.max? (Eq.symm ?_)
  refine filterMap_eq_filterMap_of_forall₂ h fun row hrow scope hextends => ?_
  obtain ⟨-, rfl, hlatest⟩ := hextends
  have htime := hlatest timeField k hjoined
  rw [Query.membersOf_eq hgroup hrow] at htime
  simp only [Expr.whenElseNull, Expr.value, Expr.eval, Expr.evalBranches, Expr.evalOption, columnOf,
    Env.ofRow_scope, htime, cell_latestRow_maxTimeColumn, db.toTruth_ofTruth, hcompare, Expr.null,
    Warehouse.literal]

/-! ## Compiled queries -/

namespace PlanParts.Fits

variable {p : PlanParts} {q : Query} {options : CompileOptions} (h : p.Fits q options)
include h

theorem map_eval_stats (scopes : List (Scope δ)) :
    p.stats.map (fun m => (m.expr (p.outer q options)).eval db (db.ofGroup scopes)) =
      q.request.stats.map (Stat.over db (scopes.map fun scope => scope (p.outer q options))) := by
  obtain ⟨_, _, _, -, -, hstats⟩ := h.aliased
  exact (map_eq_map_of_forall₂ (Measure.ofStats_forall₂ hstats) fun stat _ m hshape =>
    (Measure.eval_of_stat hshape).symm).symm

/-- The rows of a plan without percentiles and without expressions of the caller. -/
theorem cells_of_lastValues (hfields : q.request.fields = [])
    (haggregated : (p.select q options).IsAggregated)
    (hmetrics : ∀ metric ∈ q.request.metrics,
      metric.isPercentile = false ∧ metric.isCalc = false)
    (havoids : ∀ row ∈ q.filteredRows db options.dialect,
      db.AvoidsSentinels options.dialect p.dimensions row) :
    (p.select q options).cells db =
      (q.groups db options).map fun group =>
        group.1 ++ q.request.metrics.map (Metric.over db group.2) ++
          q.request.stats.map (Stat.over db group.2) := by
  have hwindows : q.windows options = [] :=
    Query.windows_eq_nil fun metric hmetric => (hmetrics metric hmetric).1
  have hgroups : List.Forall₂ (fun group group' => group.1 = group'.1 ∧
      List.Forall₂ (q.Extends db options.dialect p.dimensions (p.outer q options) q.times.zipIdx)
        group.2 group'.2)
      (keyedGroups p.dimensions (fun d row => d.key db options.dialect row)
        (q.filteredRows db options.dialect))
      (keyedGroups p.dimensions
        (fun d scope => d.key db options.dialect (scope (p.outer q options)))
        ((p.select q options).scopes db)) :=
    forall₂_keyedGroups (h.scopes_lastValues hwindows havoids) rfl fun row scope hextends => by
      rw [hextends.2.1]
  rw [cells_select hfields haggregated, h.groups_eq]
  refine (map_eq_map_of_forall₂ hgroups fun group hgroup group' hrelated => ?_).symm
  obtain ⟨hkey, hrows⟩ := hrelated
  have houter : group.2 = group'.2.map fun scope => scope (p.outer q options) := by
    rw [← List.map_id group.2]
    exact map_eq_map_of_forall₂ hrows fun row _ scope hextends => hextends.2.1.symm
  have hmeasures : q.request.metrics.map (Metric.over db group.2) =
      p.measures.map fun m =>
        (m.expr (p.outer q options)).eval db (db.ofGroup group'.2) := by
    refine map_eq_map_of_forall₂ h.shapes fun metric hmetric m hshape => ?_
    obtain ⟨name, hshape⟩ := hshape
    obtain ⟨hpercentile, hcalc⟩ := hmetrics metric hmetric
    cases htime : metric.timeField? with
    | none => rw [houter, Measure.eval_of_metric hshape hcalc hpercentile htime]
    | some timeField =>
      obtain ⟨shape, aliasName⟩ := m
      cases metric with
      | lastValue field timeField =>
        cases hshape
        cases htime
        refine (Query.eval_lastValue ?_ hgroup hrows).symm
        rw [List.mk_mem_zipIdx_iff_getElem?,
          List.getElem?_idxOf (Query.timeField_mem_times hmetric)]
      | _ => cases htime
  rw [h.map_eval_stats, ← hmeasures, ← houter, hkey]

/-- The hypothesis on sentinels is about dimensions without aliases. -/
theorem avoidsSentinels {row : Row δ}
    (havoids : db.AvoidsSentinels options.dialect (q.dimensions options) row) :
    db.AvoidsSentinels options.dialect p.dimensions row := by
  rw [← h.dimensions_unnamed] at havoids
  exact fun d hd => havoids d.unnamed (List.mem_map_of_mem hd)

end PlanParts.Fits

namespace Query

variable {q : Query} {options : CompileOptions} {query : ParametrizedQuery}

/-- The rows of an aggregated query without percentiles and without expressions of the caller. -/
theorem exists_cells_of_compile (h : q.compile options = .ok query)
    (haggregated : q.request.isAggregated = true)
    (hmetrics : ∀ metric ∈ q.request.metrics,
      metric.isPercentile = false ∧ metric.isCalc = false)
    (havoids : ∀ row ∈ q.filteredRows db options.dialect,
      db.AvoidsSentinels options.dialect (q.dimensions options) row) :
    ∃ p : PlanParts, p.Fits q options ∧ q.plan options = .ok (p.select q options) ∧
      (p.select q options).write options.dialect = .ok query ∧
      (p.select q options).cells db = (q.groups db options).map fun group =>
        group.1 ++ q.request.metrics.map (Metric.over db group.2) ++
          q.request.stats.map (Stat.over db group.2) := by
  obtain ⟨hcheck, select, hplan, hwrite⟩ := compile_eq_ok_iff.mp h
  obtain ⟨p, hfits, rfl⟩ := plan_eq_ok_iff.mp hplan
  have hfields := Request.fields_eq_nil (fault?_eq_none_of_check hcheck) haggregated
  exact ⟨p, hfits, hplan, hwrite, hfits.cells_of_lastValues hfields
    (hfits.isAggregated_select_of_request haggregated fun metric hmetric =>
      (hmetrics metric hmetric).2) hmetrics fun row hrow =>
        hfits.avoidsSentinels (havoids row hrow)⟩

/-- As long as no filtered row has a key with the datum that stands for null, a filtered row
matches one row of each join. Then a query with last values has one row for each group, null being
a key like any other: a last value is the greatest datum on the rows with the greatest time of
the group, and everything else is what it is in the query without last values. -/
theorem cells_of_compile_lastValues (h : q.compile options = .ok query)
    (haggregated : q.request.isAggregated = true)
    (hmetrics : ∀ metric ∈ q.request.metrics,
      metric.isPercentile = false ∧ metric.isCalc = false)
    (havoids : ∀ row ∈ q.filteredRows db options.dialect,
      db.AvoidsSentinels options.dialect (q.dimensions options) row) :
    ∃ select, q.plan options = .ok select ∧ select.write options.dialect = .ok query ∧
      (∀ join ∈ select.joins, ∀ scope : Scope δ,
        scope select.source.qualifier ∈ q.filteredRows db options.dialect →
          (db.matching join.relation.qualifier (join.relation.rows db) join.condition
            scope).length = 1) ∧
      (select.cells db = (q.groups db options).map fun group =>
        group.1 ++ q.request.metrics.map (Metric.over db group.2) ++
          q.request.stats.map (Stat.over db group.2)) ∧
      ∀ kind sorts query',
        (q.keepingMetrics (·.timeField?.isNone) kind sorts).compile options = .ok query' →
        ∃ select', (q.keepingMetrics (·.timeField?.isNone) kind sorts).plan options = .ok select' ∧
          select'.write options.dialect = .ok query' ∧
          select'.cells db = (q.groups db options).map fun group =>
            group.1 ++
              (q.request.metrics.filter (·.timeField?.isNone)).map (Metric.over db group.2) ++
              q.request.stats.map (Stat.over db group.2) := by
  obtain ⟨p, hfits, hplan, hwrite, hcells⟩ :=
    exists_cells_of_compile h haggregated hmetrics havoids
  refine ⟨_, hplan, hwrite, fun join hjoin scope hscope => ?_, hcells,
    fun kind sorts query' h' => ?_⟩
  · obtain ⟨k, timeField, filter, -, hfilter, rfl⟩ := hfits.join_cases hjoin
    have havoids' (row : Row δ) (hrow : row ∈ q.filteredRows db options.dialect) :
        db.AvoidsSentinels options.dialect p.dimensions row :=
      hfits.avoidsSentinels (havoids row hrow)
    have hmatching := matching_lastValueJoin hfilter havoids'
      (p.outer_ne_lastValueAlias q options k) timeField hscope rfl
    rw [hmatching]
    rfl
  · obtain ⟨hcheck, -, -⟩ := compile_eq_ok_iff.mp h
    obtain ⟨hcheck', select', hplan', -⟩ := compile_eq_ok_iff.mp h'
    obtain ⟨p', hfits', rfl⟩ := plan_eq_ok_iff.mp hplan'
    have hdimensions := hfits.dimensions_keepingMetrics hfits'
    have hfields := Request.fields_eq_nil (fault?_eq_none_of_check hcheck) haggregated
    have havoids' : ∀ row ∈ (q.keepingMetrics (·.timeField?.isNone) kind sorts).filteredRows db
        options.dialect, db.AvoidsSentinels options.dialect
          ((q.keepingMetrics (·.timeField?.isNone) kind sorts).dimensions options) row := by
      rw [hdimensions]
      exact havoids
    obtain ⟨p', -, hplan', hwrite', hcells'⟩ := exists_cells_of_compile h'
      (Request.isAggregated_of_fields_eq_nil (fault?_eq_none_of_check hcheck') hfields)
      (fun metric hmetric => hmetrics metric (List.mem_of_mem_filter hmetric)) havoids'
    refine ⟨_, hplan', hwrite', ?_⟩
    rw [hcells', groups, hdimensions]
    rfl

end Query

/-- Two readings at one site, one at an unknown site, and one that is gone. -/
def readings : Warehouse StoredDatum :=
  .inMemory fun _ _ =>
    [[("site", some (.number 7)), ("value", some (.number 9)), ("time", some (.number 10))],
      [("site", some (.number 7)), ("value", some (.number 5)), ("time", some (.number 20))],
      [("site", none), ("name", some (.text "b")), ("value", some (.number 4))],
      [("site", some (.number 7)), ("gone", some (.number 1)), ("time", some (.number 30))]]

/-- The unknown site is a group of its own, and has no last reading without a time. -/
theorem cells_lastReadings :
    ∃ query select, lastReadings.compile .default = .ok query ∧
      lastReadings.plan .default = .ok select ∧
      (∀ join ∈ select.joins, ∀ scope : Scope StoredDatum,
        scope select.source.qualifier ∈ lastReadings.filteredRows readings .postgres →
          (readings.matching join.relation.qualifier (join.relation.rows readings) join.condition
            scope).length = 1) ∧
      select.cells readings = [[some (.number 7), some (.number 5)], [none, none]] := by
  obtain ⟨planned, hplanned⟩ := plan_lastReadings
  obtain ⟨query, hquery, -⟩ := Query.compile_of_plan check_lastReadings hplanned
  have havoids : ∀ row ∈ lastReadings.filteredRows readings .postgres,
      readings.AvoidsSentinels .postgres (lastReadings.dimensions .default) row := by
    unfold Warehouse.AvoidsSentinels
    decide +kernel
  obtain ⟨select, hplan, -, hmatching, hcells, -⟩ :=
    Query.cells_of_compile_lastValues hquery rfl (by decide) havoids
  refine ⟨query, select, hquery, hplan, hmatching, hcells.trans ?_⟩
  decide +kernel

end PagedQuery
