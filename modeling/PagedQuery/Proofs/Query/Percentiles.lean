import PagedQuery.Proofs.Query.PlainMetrics
import PagedQuery.Proofs.Relational.Exact

/-!
# Percentiles

A percentile is planned as the least value of a field among the rows whose
number, in the order of the field, is a large enough part of the number of rows
of the group. That is an order statistic of the group, whatever order equal
values come in. Rows without a value count as reached if null comes first.

* `percentileIn`: the percentile of a group, with null before or after all data;
* `value_reachedField`: what a percentile is the least of;
* `PlanParts.Fits.eval_percentile`: the percentile of a group;
* `Query.percentiles_of_compile`: the rows of a query with a percentile.
-/

namespace PagedQuery

variable {δ : Type} [LinearOrder δ] {db : Warehouse δ}

/-! ## Percentiles of groups -/

/-- The least datum such that at least `margin` percent of the rows come no later. -/
def percentileIn (nullFirst : Bool) (rows : List (Row δ)) (field : String) (margin : ℚ) :
    Option δ :=
  ((dataOf rows field).filter fun datum =>
    margin * rows.length ≤ 100 * (reachedIn nullFirst rows field datum : ℚ)).min?

/-- With null after all data, the rows that come no later than a datum are those that do not
exceed it. -/
theorem reachedIn_false (rows : List (Row δ)) (field : String) (datum : δ) :
    reachedIn false rows field datum = reachedBy rows field datum := by
  refine List.countP_congr fun row _ => ?_
  cases Row.cell row field <;> rfl

theorem percentileIn_false (rows : List (Row δ)) (field : String) (margin : ℚ) :
    percentileIn false rows field margin = percentileOf rows field margin := by
  simp only [percentileIn, percentileOf, reachedIn_false]

/-- What a percentile is the least of: the field where enough rows are reached. -/
def reachedField (outer : Option String) (window : PercentileWindow) (margin : Binary64) : Expr :=
  .whenElseNull
    (.compare
      (.arithmetic .multiply
        (.arithmetic .divide (columnOf outer window.rankColumn)
          (columnOf outer window.countColumn))
        (.int 100))
      .ge (.literal (.float margin)))
    (columnOf outer window.field)

theorem value_reachedField (hexact : db.IsExact) {outer : Option String}
    {window : PercentileWindow} {margin : Binary64} (hfinite : margin.isFinite = true)
    {scope : Scope δ} {rank count : Nat} (hcount : count ≠ 0)
    (hrankCell : Row.cell (scope outer) window.rankColumn = some (db.number rank))
    (hcountCell : Row.cell (scope outer) window.countColumn = some (db.number count)) :
    (reachedField outer window margin).value db scope =
      if margin.toRat * count ≤ 100 * (rank : ℚ) then Row.cell (scope outer) window.field
      else none := by
  have hcount : (0 : ℚ) < count := by exact_mod_cast Nat.pos_of_ne_zero hcount
  have hreached : (db.number margin.toRat ≤ db.number ((rank : ℚ) / count * (100 : Int))) ↔
      margin.toRat * count ≤ 100 * (rank : ℚ) := by
    rw [db.number.le_iff_le, Int.cast_ofNat, div_mul_eq_mul_div, le_div_iff₀ hcount,
      mul_comm (rank : ℚ)]
  simp only [reachedField, Expr.whenElseNull, Expr.value, Expr.eval, Expr.evalBranches,
    Expr.evalOption, columnOf, Env.ofRow_scope, hrankCell, hcountCell, Option.bind_some,
    hexact.divide _ _ hcount.ne', Expr.int, Warehouse.literal, hexact.multiply,
    hexact.float _ hfinite, Warehouse.compare, Warehouse.relates, db.toTruth_ofTruth,
    Truth.ofBool_eq_holds_iff, decide_eq_true_iff, hreached, Expr.null]

theorem min?_congr {data data' : List δ} (h : ∀ datum, datum ∈ data ↔ datum ∈ data') :
    data.min? = data'.min? := by
  refine Option.ext fun datum => ?_
  rw [List.min?_eq_some_iff, List.min?_eq_some_iff]
  simp only [h]

namespace PlanParts.Fits

variable {p : PlanParts} {q : Query} {options : CompileOptions} (h : p.Fits q options)
include h

/-- The groups of a query, as groups of positions. -/
theorem groups_eq_positions :
    q.groups db options =
      (keyedGroups p.dimensions (fun d position => d.key db options.dialect position.1)
        (q.filteredRows db options.dialect).zipIdx).map fun group =>
          (group.1, group.2.map Prod.fst) := by
  rw [h.groups_eq, ← keyedGroups_map_rows, List.zipIdx_map_fst]

/-- The groups of a plan are those of the query. -/
theorem scopes_eq_positions (hhelpers : q.HelpersApart db options) :
    keyedGroups p.dimensions
        (fun d scope => d.key db options.dialect (scope (p.outer q options)))
        ((p.select q options).scopes db) =
      (keyedGroups p.dimensions (fun d position => d.key db options.dialect position.1)
        (q.filteredRows db options.dialect).zipIdx).map fun group =>
          (group.1, group.2.flatMap (p.scopesAt db q options)) := by
  rw [h.scopes_eq_flatMap]
  refine keyedGroups_flatMap fun position _ => ⟨h.scopesAt_ne_nil position, fun scope hscope => ?_⟩
  refine List.map_congr_left fun d hd => Dimension.key_congr ?_
  rw [h.scope_of_mem_scopesAt hscope]
  exact hhelpers.cell_field (h.field_mem_readFields hd)

omit h in
/-- The positions of a group are those of the rows with its key. -/
theorem mem_positions_iff {group : List (Option δ) × List (Row δ × Nat)}
    (hgroup : group ∈ keyedGroups p.dimensions
      (fun d position => d.key db options.dialect position.1)
      (q.filteredRows db options.dialect).zipIdx) {row : Row δ} {i : Nat} :
    (row, i) ∈ group.2 ↔ (q.filteredRows db options.dialect)[i]? = some row ∧
      keyOf db options.dialect p.dimensions row = group.1 := by
  rw [rows_of_mem_keyedGroups hgroup, List.mem_filter, List.mk_mem_zipIdx_iff_getElem?,
    decide_eq_true_iff]
  rfl

omit h in
theorem map_fst_positions {group : List (Option δ) × List (Row δ × Nat)}
    (hgroup : group ∈ keyedGroups p.dimensions
      (fun d position => d.key db options.dialect position.1)
      (q.filteredRows db options.dialect).zipIdx) :
    group.2.map Prod.fst = (q.filteredRows db options.dialect).filter fun row =>
      keyOf db options.dialect p.dimensions row = group.1 := by
  conv_rhs => rw [← List.zipIdx_map_fst 0 (q.filteredRows db options.dialect), List.filter_map]
  exact congrArg (List.map Prod.fst) (rows_of_mem_keyedGroups hgroup)

/-- On the rows of a position, the field is there if enough rows of the group come no later. -/
theorem value_scopesAt (hexact : db.IsExact) (hhelpers : q.HelpersApart db options)
    {window : PercentileWindow} (hwindow : window ∈ q.windows options)
    (hfield : window.field ∈ q.request.readFields) {margin : Binary64}
    (hfinite : margin.isFinite = true) {group : List (Option δ) × List (Row δ × Nat)}
    (hgroup : group ∈ keyedGroups p.dimensions
      (fun d position => d.key db options.dialect position.1)
      (q.filteredRows db options.dialect).zipIdx) (row : Row δ) (i : Nat)
    (hposition : (row, i) ∈ group.2) {scope : Scope δ}
    (hscope : scope ∈ p.scopesAt db q options (row, i)) :
    (reachedField (p.outer q options) window margin).value db scope =
      if margin.toRat * group.2.length ≤ 100 * (db.rankOf
          [(columnOf (q.base options).qualifier window.field, .ascending)]
          (keyOf db options.dialect p.dimensions) (q.filteredRows db options.dialect) window.field i
            : ℚ)
      then Row.cell row window.field else none := by
  obtain ⟨hi, hkey⟩ := (mem_positions_iff hgroup).mp hposition
  have hrow : row ∈ q.filteredRows db options.dialect := List.mem_of_getElem? hi
  have hcount : (partitionOf (keyOf db options.dialect p.dimensions)
      (q.filteredRows db options.dialect) i).length = group.2.length := by
    have hlength := congrArg List.length (map_partitionOf
      (keyOf db options.dialect p.dimensions) hi)
    rw [List.length_map, List.length_map, hkey, ← map_fst_positions hgroup, List.length_map]
      at hlength
    exact hlength
  have houter : scope (p.outer q options) = row ++ (q.windows options).flatMap (helperCells db
      options.dialect p.dimensions (q.base options).qualifier (q.filteredRows db options.dialect)
      i) := h.scope_of_mem_scopesAt hscope
  have hne : group.2.length ≠ 0 := mt List.length_eq_zero_iff.mp (List.ne_nil_of_mem hposition)
  rw [value_reachedField hexact hfinite hne, houter, hhelpers.cell_field hfield]
  · rw [houter]
    exact hhelpers.cell_helper hrow hwindow List.mem_cons_self
  · rw [houter, ← hcount]
    exact hhelpers.cell_helper hrow hwindow (List.mem_cons_of_mem _ List.mem_cons_self)

/-- A percentile in a group is the least datum with enough rows of the group up to it. -/
theorem eval_percentile (hexact : db.IsExact) (hhelpers : q.HelpersApart db options)
    {field : String} {margin : Binary64} (hmetric : .percentile field margin ∈ q.request.metrics)
    (hfinite : margin.isFinite = true) {group : List (Option δ) × List (Row δ × Nat)}
    (hgroup : group ∈ keyedGroups p.dimensions
      (fun d position => d.key db options.dialect position.1)
      (q.filteredRows db options.dialect).zipIdx) (aliasName : String) :
    (Measure.expr (p.outer q options) ⟨.percentile
        (PercentileWindow.ofField (Aliases.new options.maxAliasLength) field) margin,
        aliasName⟩).eval db (db.ofGroup (group.2.flatMap (p.scopesAt db q options))) =
      percentileIn (db.nullsFirst .ascending) (group.2.map Prod.fst) field margin.toRat := by
  have hwindow := Query.ofField_mem_windows options hmetric
  have hfield : field ∈ q.request.readFields :=
    Request.metric_mem_readFields hmetric (List.mem_singleton_self _)
  have hvalue := h.value_scopesAt hexact hhelpers hwindow hfield hfinite hgroup
  change ((group.2.flatMap (p.scopesAt db q options)).filterMap fun scope =>
    (reachedField (p.outer q options) _ margin).value db scope).min? = _
  rw [percentileIn]
  -- Joins may repeat the rows of a position, and a least datum does not depend on how often.
  refine min?_congr fun datum => ?_
  have horderBy : [(columnOf (q.base options).qualifier field, Direction.ascending)].map Prod.snd =
      [.ascending] := rfl
  have hranks := db.exists_rankOf_iff (keyOf db options.dialect p.dimensions)
    (q.filteredRows db options.dialect) field horderBy
    (P := fun n => margin.toRat * group.2.length ≤ 100 * (n : ℚ))
    (fun m n hle hm => hm.trans (by gcongr)) group.1 datum
  rw [← map_fst_positions hgroup] at hranks
  rw [List.mem_filter, List.length_map, decide_eq_true_iff, ← hranks, List.mem_filterMap]
  constructor
  · rintro ⟨scope, hscope, hdatum⟩
    obtain ⟨⟨row, i⟩, hposition, hscope⟩ := List.mem_flatMap.mp hscope
    obtain ⟨hi, hkey⟩ := (mem_positions_iff hgroup).mp hposition
    rw [hvalue row i hposition hscope, Option.ite_none_right_eq_some] at hdatum
    exact ⟨i, row, hi, hkey, hdatum.2, hdatum.1⟩
  · rintro ⟨i, row, hi, hkey, hcell, hreached⟩
    have hposition := (mem_positions_iff hgroup).mpr ⟨hi, hkey⟩
    obtain ⟨scope, hscope⟩ := List.exists_mem_of_ne_nil _ (h.scopesAt_ne_nil (row, i))
    refine ⟨scope, List.mem_flatMap.mpr ⟨_, hposition, hscope⟩, ?_⟩
    rw [hvalue row i hposition hscope]
    exact (if_pos hreached).trans hcell

/-- The column of a percentile. -/
theorem getElem?_cells_percentile (hexact : db.IsExact) (hhelpers : q.HelpersApart db options)
    (hfields : q.request.fields = []) {i : Nat} {field : String} {margin : Binary64}
    (hmetric : q.request.metrics[i]? = some (.percentile field margin)) :
    List.Forall₂
      (fun cells group => cells.take q.request.groups.length = group.1 ∧
        cells[q.request.groups.length + i]? =
          some (percentileIn (db.nullsFirst .ascending) group.2 field margin.toRat))
      ((p.select q options).cells db) (q.groups db options) := by
  have hmem := List.mem_of_getElem? hmetric
  have haggregated : (p.select q options).IsAggregated :=
    h.isAggregated_select (.inr (.inr ⟨_, hmem, rfl⟩))
  rw [cells_select hfields haggregated, h.scopes_eq_positions hhelpers, h.groups_eq_positions,
    List.map_map, List.forall₂_map_left_iff, List.forall₂_map_right_iff, List.forall₂_same]
  intro group hgroup
  have hlength : group.1.length = q.request.groups.length := by
    rw [length_of_mem_keyedGroups hgroup, h.length_dimensions]
  obtain ⟨⟨shape, aliasName⟩, hm, name, hshape⟩ := getElem?_of_forall₂ h.shapes.flip hmetric
  rw [Measure.shapeOf] at hshape
  split at hshape
  case isFalse => cases hshape
  case isTrue hmargin =>
    cases hshape
    simp only [Measure.isPercentage, Bool.and_eq_true] at hmargin
    have hlt : i < p.measures.length := (List.getElem?_eq_some_iff.mp hm).1
    rw [Function.comp_apply, List.append_assoc, ← hlength, List.take_left,
      List.getElem?_append_right (Nat.le_add_right _ _), Nat.add_sub_cancel_left,
      List.getElem?_append_left (by rwa [List.length_map]), List.getElem?_map, hm, Option.map_some,
      h.eval_percentile hexact hhelpers hmem hmargin.1.1 hgroup]
    exact ⟨rfl, rfl⟩

end PlanParts.Fits

/-- In exact arithmetic, with null after all data and helper columns that do not clash, a query
with a percentile has one row for each group, null being a key like any other, and the percentile
is the least datum that is not exceeded in enough rows of the group. The plain metrics and the
statistics are what they are in the query without any other metrics. -/
theorem Query.percentiles_of_compile {q : Query} {options : CompileOptions}
    {query : ParametrizedQuery} (h : q.compile options = .ok query) (hexact : db.IsExact)
    (hnulls : db.nullsFirst .ascending = false) (hhelpers : q.HelpersApart db options)
    {i : Nat} {field : String} {margin : Binary64}
    (hmetric : q.request.metrics[i]? = some (.percentile field margin)) :
    ∃ select, q.plan options = .ok select ∧ select.write options.dialect = .ok query ∧
      List.Forall₂
        (fun cells group => cells.take q.request.groups.length = group.1 ∧
          cells[q.request.groups.length + i]? = some (percentileOf group.2 field margin.toRat))
        (select.cells db) (q.groups db options) ∧
      ∀ kind sorts query',
        (q.keepingMetrics Metric.isPlain kind sorts).compile options = .ok query' →
        ∃ select', (q.keepingMetrics Metric.isPlain kind sorts).plan options = .ok select' ∧
          select'.write options.dialect = .ok query' ∧
          select'.cells db = (select.cells db).map q.plainCells := by
  obtain ⟨hcheck, select, hplan, hwrite⟩ := compile_eq_ok_iff.mp h
  obtain ⟨p, hfits, rfl⟩ := plan_eq_ok_iff.mp hplan
  have hmem := List.mem_of_getElem? hmetric
  have hfields := Request.fields_eq_nil_of_metric (fault?_eq_none_of_check hcheck) hmem
  have hcells := hfits.getElem?_cells_percentile hexact hhelpers hfields hmetric
  simp only [hnulls, percentileIn_false] at hcells
  refine ⟨_, hplan, hwrite, hcells, fun kind sorts query' h' => ?_⟩
  obtain ⟨hcheck', select', hplan', hwrite'⟩ := compile_eq_ok_iff.mp h'
  obtain ⟨p', hfits', rfl⟩ := plan_eq_ok_iff.mp hplan'
  have haggregated : (p.select q options).IsAggregated :=
    hfits.isAggregated_select (.inr (.inr ⟨_, hmem, rfl⟩))
  have haggregated' := hfits'.isAggregated_select_of_request
    (Request.isAggregated_of_fields_eq_nil (fault?_eq_none_of_check hcheck') hfields)
    fun metric hmetric => by
      have hplain := (List.mem_filter.mp hmetric).2
      rw [Metric.isPlain, Bool.and_eq_true, Bool.not_eq_true', Bool.not_eq_true'] at hplain
      exact hplain.2
  exact ⟨_, hplan', hwrite',
    hfits.cells_keepingPlain hfits' rfl hhelpers hfields haggregated haggregated'⟩

/-- Rows with a key and a further cell, cut to them. -/
theorem map_take_succ_of_forall₂ {α β : Type} (f : β → α) {n : Nat} {rows : List (List α)}
    {groups : List (List α × β)}
    (h : List.Forall₂ (fun cells group => cells.take n = group.1 ∧ cells[n]? = some (f group.2))
      rows groups) :
    rows.map (List.take (n + 1)) = groups.map fun group => group.1 ++ [f group.2] := by
  refine map_eq_map_of_forall₂ h fun cells _ group hgroup => ?_
  obtain ⟨hkey, hcell⟩ := hgroup
  rw [← hkey]
  exact List.take_add_one.trans (congrArg (_ ++ Option.toList ·) hcell)

/-- The median amounts and the sums of amounts by site. -/
def mediansBySite : Query :=
  { source := .table "sales" "orders"
    catalog := .empty
    request :=
      { Request.empty with
        groups := [.attribute "site"]
        metrics := [.percentile "amount" (.ofNat 50), .sum "amount"] } }

/-- Orders at two sites and at an unknown one, some without an amount. -/
def orders : Warehouse StoredDatum :=
  .inMemory fun _ _ =>
    [[("site", some (.text "a")), ("amount", some (.number 30))],
      [("site", some (.text "a")), ("amount", some (.number 10))],
      [("site", some (.text "a")), ("amount", none)],
      [("site", some (.text "a")), ("amount", some (.number 10))],
      [("site", none), ("amount", some (.number 7))],
      [("site", some (.text "b")), ("amount", none)]]

/-- A percentile is checked against its margin only, where no field is kept from aggregates. -/
theorem Measure.ofMetric_percentile (times : List String) (field : String) {margin : Binary64}
    (hmargin : isPercentage margin = true) {aliases after : Aliases} {name aliasName : String}
    (hname : "percentile_" ++ field = name)
    (h : issueAlias aliases name = .ok (aliasName, after)) :
    ofMetric .empty times (.percentile field margin) aliases =
      .ok (⟨.percentile (PercentileWindow.ofField aliases field) margin, aliasName⟩, after) := by
  have hshape : shapeOf .empty times aliases (.percentile field margin) =
      .ok (.percentile (PercentileWindow.ofField aliases field) margin, name) := by
    rw [← hname]
    exact if_pos hmargin
  exact ofMetric_of_shape rfl hshape h

theorem compile_mediansBySite : ∃ query, mediansBySite.compile .default = .ok query := by
  have hcheck : mediansBySite.check = .ok () :=
    Query.check_of_table rfl (by decide +kernel) (by decide +kernel) rfl
  have hmargin : Measure.isPercentage (.ofNat 50) = true := by decide +kernel
  have hdistinct :
      (Aliases.new 63).fit "sum_amount" ≠ (Aliases.new 63).fit "percentile_amount" := by
    decide +kernel
  obtain ⟨between, hpercentile, -, hothers⟩ :=
    issueAlias_of_unasked (Aliases.unasked_new 63 "percentile_amount")
  obtain ⟨after, hsum, -⟩ :=
    issueAlias_of_unasked (hothers _ (Aliases.unasked_new 63 "sum_amount") hdistinct)
  let percentile : Measure :=
    ⟨.percentile (PercentileWindow.ofField (Aliases.new 63) "amount") (.ofNat 50),
      (Aliases.new 63).fit "percentile_amount"⟩
  let sum : Measure := ⟨.aggregate .sum (some "amount"), between.fit "sum_amount"⟩
  have hfirst : Measure.ofMetric .empty [] (.percentile "amount" (.ofNat 50)) (Aliases.new 63) =
      .ok (percentile, between) :=
    Measure.ofMetric_percentile [] "amount" hmargin (by decide) hpercentile
  have hmeasures := Measure.ofMetrics_cons hfirst (ofMetrics_sumAmount hsum)
  let parts : PlanParts :=
    ⟨[⟨"site", .attribute, none, .unknown⟩], [percentile, sum], [], none, [], []⟩
  have hfits : parts.Fits mediansBySite .default :=
    { aliased := ⟨_, after, after, rfl, hmeasures, rfl⟩
      filter := rfl
      joins := rfl
      orderBy := rfl }
  exact Query.exists_compile_of_fits hcheck hfits

theorem helpersApart_mediansBySite : mediansBySite.HelpersApart orders .default where
  nodup := by decide +kernel
  rows := by decide +kernel
  fields := by decide +kernel

theorem compile_sumsBy (field : String) :
    ∃ query, (sumsBy field []).compile .default = .ok query := by
  obtain ⟨after, hsum, -⟩ := issueAlias_of_unasked (Aliases.unasked_new 63 "sum_amount")
  let sum : Measure := ⟨.aggregate .sum (some "amount"), (Aliases.new 63).fit "sum_amount"⟩
  have hmeasures := ofMetrics_sumAmount hsum
  let parts : PlanParts := ⟨[⟨field, .attribute, none, .unknown⟩], [sum], [], none, [], []⟩
  have hfits : parts.Fits (sumsBy field []) .default :=
    { aliased := ⟨_, after, after, rfl, hmeasures, rfl⟩
      filter := rfl
      joins := rfl
      orderBy := rfl }
  exact Query.exists_compile_of_fits (check_sumsBy rfl) hfits

/-- What is measured of all orders. -/
def totals (metrics : List Metric) : Query :=
  { source := .table "sales" "orders"
    catalog := .empty
    request := { Request.empty with metrics } }

theorem compile_totals (dialect : Dialect) {metrics : List Metric} (hne : metrics ≠ [])
    (htimes : lastValueTimes metrics = []) {measures : List Measure} {after : Aliases}
    (h : Measure.ofMetrics .empty [] metrics (Aliases.new 63) = .ok (measures, after)) :
    ∃ query, (totals metrics).compile ⟨dialect, 63⟩ = .ok query := by
  have hfault : (totals metrics).request.fault? = none := by
    simp [totals, Request.empty, Request.fault?, Request.isAggregated, hne]
  have hcheck : (totals metrics).check = .ok () :=
    Query.check_of_table rfl (by decide +kernel) (by decide +kernel) hfault
  have hqueryTimes : (totals metrics).times = [] := htimes
  let parts : PlanParts := ⟨[], measures, [], none, [], []⟩
  have hfits : parts.Fits (totals metrics) ⟨dialect, 63⟩ :=
    { aliased := ⟨Aliases.new 63, after, after, rfl, hqueryTimes ▸ h, rfl⟩
      filter := rfl
      joins := by
        rw [hqueryTimes]
        rfl
      orderBy := rfl }
  exact Query.exists_compile_of_fits hcheck hfits

/-- Half of the orders at the first site have amounts up to the median, the one without an amount
counted. The unknown site is a group of its own, and a site without amounts has no median. -/
theorem percentiles_mediansBySite :
    ∃ query select, mediansBySite.compile .default = .ok query ∧
      mediansBySite.plan .default = .ok select ∧
      (select.cells orders).map (List.take 2) =
        [[some (.text "a"), some (.number 10)], [none, some (.number 7)],
          [some (.text "b"), none]] ∧
      ∃ query' select', (sumsBy "site" []).compile .default = .ok query' ∧
        (sumsBy "site" []).plan .default = .ok select' ∧
        select'.cells orders = (select.cells orders).map mediansBySite.plainCells := by
  obtain ⟨query, hquery⟩ := compile_mediansBySite
  obtain ⟨select, hplan, -, hpercentiles, hplain⟩ := Query.percentiles_of_compile (i := 0) hquery
    (Warehouse.inMemory_isExact _) rfl helpersApart_mediansBySite rfl
  obtain ⟨query', hquery'⟩ := compile_sumsBy "site"
  obtain ⟨select', hplan', -, hcells⟩ := hplain none [] query' hquery'
  refine ⟨query, select, hquery, hplan, ?_, query', select', hquery', hplan', hcells⟩
  refine (map_take_succ_of_forall₂ (percentileOf · "amount" (Binary64.ofNat 50).toRat)
    hpercentiles).trans ?_
  decide +kernel

end PagedQuery
