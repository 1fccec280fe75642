import PagedQuery.Proofs.Query.Bindings

/-!
# Names of output columns

Aliases of sorted groups, times, histograms, metrics and statistics are issued
one after the other and never twice. A group by an attribute that no sort refers
to keeps the name of its field, which nothing keeps apart from the aliases.

* `PlanParts.Fits.aliases_nodup`: no two columns of a plan have the same alias;
* `SelectItem.outputName?`: the name of a column in the result;
* `Query.outputNames_of_sorts`: the columns that have the name of a sort key.
-/

namespace PagedQuery

/-! ## Aliases of dimensions and measures -/

namespace Dimension

/-- A group of an attribute has an alias if a sort refers to it, and every other group has one. -/
theorem issues_of_ofGroup {catalog : Catalog} {sorted : Bool} {group : Group} {d : Dimension}
    {before after : Aliases} (h : ofGroup catalog sorted group before = .ok (d, after)) :
    before.Issues d.aliasName.toList after ∧ d.field = group.field ∧
      (d.aliasName = none ↔ group = .attribute d.field ∧ sorted = false) ∧
      (group = .attribute d.field → d.shape = .attribute) := by
  unfold ofGroup at h
  split at h
  · cases h
  cases group with
  | «attribute» field =>
    dsimp only [ofAttribute] at h
    split at h
    · rename_i hsorted
      cases halias : issueAlias before field with
      | error e =>
        rw [halias] at h
        cases h
      | ok issued =>
        rw [halias] at h
        cases h
        exact ⟨issues_of_issueAlias halias, rfl, by simp [hsorted], fun _ => rfl⟩
    · rename_i hsorted
      cases h
      exact ⟨.nil _, rfl, ⟨fun _ => ⟨rfl, by simpa using hsorted⟩, fun _ => rfl⟩, fun _ => rfl⟩
  | time field granularity =>
    obtain ⟨source, -, h⟩ := bind_eq_ok_iff.mp h
    split at h
    · cases h
    · obtain ⟨⟨aliasName, aliases⟩, halias, h⟩ := bind_eq_ok_iff.mp h
      cases h
      exact ⟨issues_of_issueAlias halias, rfl, by simp, by simp⟩
  | histogram field start finish bucketSize =>
    simp only [ofHistogram] at h
    split at h
    · cases h
    split at h
    · cases h
    split at h
    · cases h
    · obtain ⟨⟨aliasName, aliases⟩, halias, h⟩ := bind_eq_ok_iff.mp h
      cases h
      exact ⟨issues_of_issueAlias halias, rfl, by simp, by simp⟩

theorem issues_of_ofGroups {catalog : Catalog} {sorted : List Nat} {groups : List Group}
    {dimensions : List Dimension} {index : Nat} {before after : Aliases}
    (h : ofGroups catalog sorted index groups before = .ok (dimensions, after)) :
    before.Issues (dimensions.filterMap Dimension.aliasName) after := by
  induction groups generalizing dimensions index before with
  | nil =>
    cases h
    exact .nil _
  | cons group rest ih =>
    obtain ⟨⟨first, between⟩, hfirst, h⟩ := bind_eq_ok_iff.mp h
    obtain ⟨⟨others, _⟩, hothers, h⟩ := bind_eq_ok_iff.mp h
    cases h
    have hissues := (issues_of_ofGroup hfirst).1.append (ih hothers)
    cases halias : first.aliasName with
    | none => simpa [halias] using hissues
    | some aliasName => simpa [halias] using hissues

/-- The dimension of each group, checked as one that a sort refers to or not. -/
theorem getElem?_of_ofGroups {catalog : Catalog} {sorted : List Nat} {groups : List Group}
    {dimensions : List Dimension} {index : Nat} {before after : Aliases}
    (h : ofGroups catalog sorted index groups before = .ok (dimensions, after)) {k : Nat}
    {d : Dimension} (hd : dimensions[k]? = some d) :
    ∃ group before after, groups[k]? = some group ∧
      ofGroup catalog (sorted.contains (index + k)) group before = .ok (d, after) := by
  induction groups generalizing dimensions index before k with
  | nil =>
    cases h
    cases hd
  | cons group rest ih =>
    obtain ⟨⟨first, between⟩, hfirst, h⟩ := bind_eq_ok_iff.mp h
    obtain ⟨⟨others, _⟩, hothers, h⟩ := bind_eq_ok_iff.mp h
    cases h
    cases k with
    | zero =>
      cases hd
      exact ⟨group, before, between, rfl, hfirst⟩
    | succ k =>
      obtain ⟨other, before', after', hother, hd⟩ := ih hothers hd
      refine ⟨other, before', after', hother, ?_⟩
      rwa [Nat.add_right_comm, Nat.add_assoc] at hd

end Dimension

namespace Measure

theorem issues_of_ofMetric {catalog : Catalog} {times : List String} {metric : Metric}
    {m : Measure} {before after : Aliases}
    (h : ofMetric catalog times metric before = .ok (m, after)) :
    before.Issues [m.aliasName] after ∧
      ∃ name, shapeOf catalog times before metric = .ok (m.shape, name) := by
  unfold ofMetric at h
  split at h
  · cases h
  · obtain ⟨⟨shape, name⟩, hshape, h⟩ := bind_eq_ok_iff.mp h
    obtain ⟨⟨aliasName, aliases⟩, halias, h⟩ := bind_eq_ok_iff.mp h
    cases h
    exact ⟨issues_of_issueAlias halias, name, hshape⟩

theorem issues_of_ofMetrics {catalog : Catalog} {times : List String} {metrics : List Metric}
    {measures : List Measure} {before after : Aliases}
    (h : ofMetrics catalog times metrics before = .ok (measures, after)) :
    before.Issues (measures.map Measure.aliasName) after := by
  induction metrics generalizing measures before with
  | nil =>
    cases h
    exact .nil _
  | cons metric rest ih =>
    obtain ⟨⟨first, between⟩, hfirst, h⟩ := bind_eq_ok_iff.mp h
    obtain ⟨⟨others, _⟩, hothers, h⟩ := bind_eq_ok_iff.mp h
    cases h
    exact (issues_of_ofMetric hfirst).1.append (ih hothers)

/-- The names issued so far do not decide the shape of a metric, only their length does. -/
theorem shapeOf_eq_of_maxLength {aliases aliases' : Aliases}
    (h : aliases.maxLength = aliases'.maxLength) (catalog : Catalog) (times : List String)
    (metric : Metric) : shapeOf catalog times aliases metric = shapeOf catalog times aliases' metric := by
  have hwindow (field : String) :
      PercentileWindow.ofField aliases field = PercentileWindow.ofField aliases' field := by
    simp [PercentileWindow.ofField, Aliases.fit, Aliases.base, h]
  cases metric with
  | percentile field margin => simp only [shapeOf, hwindow]
  | count field => cases field <;> rfl
  | _ => rfl

/-- Each measure has the shape of its metric, whatever names were issued before. -/
theorem shapes_of_ofMetrics {catalog : Catalog} {times : List String} {metrics : List Metric}
    {measures : List Measure} {aliases before after : Aliases}
    (h : ofMetrics catalog times metrics before = .ok (measures, after))
    (hlength : before.maxLength = aliases.maxLength) :
    List.Forall₂ (fun metric m => ∃ name, shapeOf catalog times aliases metric = .ok (m.shape, name))
      metrics measures := by
  induction metrics generalizing measures before with
  | nil =>
    cases h
    exact .nil
  | cons metric rest ih =>
    obtain ⟨⟨first, between⟩, hfirst, h⟩ := bind_eq_ok_iff.mp h
    obtain ⟨⟨others, _⟩, hothers, h⟩ := bind_eq_ok_iff.mp h
    cases h
    obtain ⟨hissues, name, hshape⟩ := issues_of_ofMetric hfirst
    refine .cons ⟨name, ?_⟩ (ih hothers (hissues.maxLength.trans hlength))
    rwa [shapeOf_eq_of_maxLength hlength] at hshape

theorem issues_of_ofStats {catalog : Catalog} {stats : List Stat} {measures : List Measure}
    {before after : Aliases} (h : ofStats catalog stats before = .ok (measures, after)) :
    before.Issues (measures.map Measure.aliasName) after := by
  induction stats generalizing measures before with
  | nil =>
    cases h
    exact .nil _
  | cons stat rest ih =>
    obtain ⟨⟨first, between⟩, hfirst, h⟩ := bind_eq_ok_iff.mp h
    obtain ⟨⟨others, _⟩, hothers, h⟩ := bind_eq_ok_iff.mp h
    cases h
    have hissues : before.Issues [first.aliasName] between := by
      unfold ofStat at hfirst
      split at hfirst
      · cases hfirst
      · obtain ⟨⟨aliasName, aliases⟩, halias, hfirst⟩ := bind_eq_ok_iff.mp hfirst
        cases hfirst
        exact issues_of_issueAlias halias
    exact hissues.append (ih hothers)

end Measure

/-! ## Names in the result -/

/-- The name of an expression that is a column. -/
def Expr.columnName? : Expr → Option String
  | .column ref => some ref.name
  | _ => none

/-- The alias that is written after an item, unless it only repeats the name of the column. -/
def SelectItem.writtenAlias? (item : SelectItem) : Option String :=
  item.aliasName.filter fun aliasName => !item.expr.isColumnNamed aliasName

/-- The name of the column of an item in the result: the alias that is written, and otherwise
the name of the column that the item is. -/
def SelectItem.outputName? (item : SelectItem) : Option String :=
  item.writtenAlias? <|> item.expr.columnName?

/-- The written alias is what stands after the expression. -/
theorem SelectItem.lexemes_eq (dialect : Dialect) (item : SelectItem) :
    item.lexemes dialect =
      item.expr.lexemes dialect ++ (item.writtenAlias?.map aliasLexemes).getD [] := by
  obtain ⟨expr, aliasName⟩ := item
  cases aliasName with
  | none => simp [lexemes, writtenAlias?]
  | some aliasName =>
    by_cases hnamed : expr.isColumnNamed aliasName <;>
      simp [lexemes, writtenAlias?, Option.filter, hnamed]

/-- An alias is the output name whether it is written or not. -/
theorem SelectItem.outputName?_of_alias {item : SelectItem} {aliasName : String}
    (h : item.aliasName = some aliasName) : item.outputName? = some aliasName := by
  obtain ⟨expr, _⟩ := item
  cases h
  by_cases hnamed : expr.isColumnNamed aliasName
  · cases expr with
    | column ref =>
      have hname : ref.name = aliasName := by simpa [Expr.isColumnNamed] using hnamed
      simp [outputName?, writtenAlias?, Option.filter, hnamed, Expr.columnName?, hname]
    | _ => cases hnamed
  · simp [outputName?, writtenAlias?, Option.filter, hnamed]

theorem SelectItem.outputName?_of_no_alias {item : SelectItem} (h : item.aliasName = none) :
    item.outputName? = item.expr.columnName? := by
  simp [outputName?, writtenAlias?, h]

/-! ## Columns of a plan -/

namespace Request

/-- Fields do not go together with groups, metrics and statistics. -/
theorem fields_eq_nil {r : Request} (h : r.fault? = none) (haggregated : r.isAggregated = true) :
    r.fields = [] := by
  by_contra hfields
  have hsome : r.fields.isEmpty = false := by simpa [List.isEmpty_iff] using hfields
  simp [fault?, hsome, haggregated] at h

/-- Fields do not go together with a metric. -/
theorem fields_eq_nil_of_metric {r : Request} (h : r.fault? = none) {metric : Metric}
    (hmetric : metric ∈ r.metrics) : r.fields = [] := by
  refine fields_eq_nil h ?_
  simp [isAggregated, List.ne_nil_of_mem hmetric]

/-- One aggregate sort makes a request aggregated, and all sorts aggregate sorts. -/
theorem isAggregated_of_isAgg {r : Request} (h : r.fault? = none)
    (hsorts : r.sorts.any SortClause.isAgg = true) :
    r.isAggregated = true ∧ ∀ sort ∈ r.sorts, ∃ target direction, sort = .agg target direction := by
  constructor
  · by_contra hplain
    rw [Bool.not_eq_true] at hplain
    simp only [fault?, hsorts, hplain, Bool.not_false, Bool.and_true, if_true] at h
    repeat' split at h
    all_goals cases h
  · intro sort hsort
    cases sort with
    | raw field direction =>
      have hraw : r.sorts.any SortClause.isRaw = true := List.any_eq_true.mpr ⟨_, hsort, rfl⟩
      simp only [fault?, hsorts, hraw, Bool.and_true, if_true] at h
      repeat' split at h
      all_goals cases h
    | agg target direction => exact ⟨target, direction, rfl⟩

end Request

/-- The position in the select list of what an aggregate sort refers to: groups come first, and
then metrics. -/
def SortTarget.position (r : Request) : SortTarget → Nat
  | .group index => index
  | .metric index => r.groups.length + index

/-- An item is the column of the group or metric that an aggregate sort refers to. -/
def SortTarget.IsColumn (q : Query) (options : CompileOptions) (outer : Option String)
    (item : SelectItem) : SortTarget → Prop
  | .group index =>
    ∃ group d isSorted before after, q.request.groups[index]? = some group ∧
      Dimension.ofGroup q.catalog isSorted group before = .ok (d, after) ∧
      item = d.selectItem options.dialect outer
  | .metric index =>
    ∃ (metric : Metric) (m : Measure) (name : String),
      q.request.metrics[index]? = some metric ∧
      Measure.shapeOf q.catalog q.times (Aliases.new options.maxAliasLength) metric =
        .ok (m.shape, name) ∧
      item = m.selectItem outer

/-- The group at a position is an attribute that no sort refers to. -/
def Request.HasBareGroup (r : Request) (index : Nat) (field : String) : Prop :=
  r.groups[index]? = some (.attribute field) ∧ index ∉ Query.sortedGroups r.sorts

/-- An aggregate sort orders by the alias of what it refers to. -/
theorem Query.sortKey_agg_eq_ok {dimensions : List Dimension} {measures : List Measure}
    {outer : Option String} {target : SortTarget} {direction : Direction} {key : Expr × Direction}
    (h : sortKey dimensions measures outer (.agg target direction) = .ok key) :
    ∃ name, key = (.bare name, direction) ∧ match target with
      | .group index => ∃ d, dimensions[index]? = some d ∧ d.aliasName = some name
      | .metric index => ∃ m, measures[index]? = some m ∧ m.aliasName = name := by
  simp only [sortKey] at h
  split at h
  · rename_i name halias
    cases h
    refine ⟨name, rfl, ?_⟩
    cases target with
    | group index => exact Option.bind_eq_some_iff.mp halias
    | metric index => exact Option.map_eq_some_iff.mp halias
  · cases h

namespace PlanParts.Fits

variable {p : PlanParts} {q : Query} {options : CompileOptions} (h : p.Fits q options)
include h

/-- No two columns of a plan have the same alias. -/
theorem aliases_nodup :
    ((p.select q options).items.filterMap SelectItem.aliasName).Nodup := by
  obtain ⟨afterGroups, afterMetrics, afterStats, hdimensions, hmeasures, hstats⟩ := h.aliased
  have hissues := ((Dimension.issues_of_ofGroups hdimensions).append
    (Measure.issues_of_ofMetrics hmeasures)).append (Measure.issues_of_ofStats hstats)
  have haliases : (p.select q options).items.filterMap SelectItem.aliasName =
      p.dimensions.filterMap Dimension.aliasName ++ p.measures.map Measure.aliasName ++
        p.stats.map Measure.aliasName := by
    simp [select, Query.selectItems, Function.comp_def, Dimension.selectItem, Measure.selectItem]
  rw [haliases]
  exact hissues.nodup

/-- Columns with the same alias stand at the same position. -/
theorem position_unique {i j : Nat} {item other : SelectItem} {aliasName : String}
    (hitem : (p.select q options).items[i]? = some item)
    (hother : (p.select q options).items[j]? = some other)
    (halias : item.aliasName = some aliasName) (halias' : other.aliasName = some aliasName) :
    i = j := by
  have hdistinct := List.pairwise_filterMap.mp h.aliases_nodup
  rw [List.pairwise_iff_getElem] at hdistinct
  obtain ⟨hi, rfl⟩ := List.getElem?_eq_some_iff.mp hitem
  obtain ⟨hj, rfl⟩ := List.getElem?_eq_some_iff.mp hother
  rcases Nat.lt_trichotomy i j with hlt | rfl | hlt
  · exact absurd rfl (hdistinct i j hi hj hlt _ halias _ halias')
  · rfl
  · exact absurd rfl (hdistinct j i hj hi hlt _ halias' _ halias)

theorem length_dimensions : p.dimensions.length = q.request.groups.length := by
  obtain ⟨_, _, _, hdimensions, -, -⟩ := h.aliased
  exact (Dimension.ofGroups_forall₂ hdimensions).length_eq.symm

/-- The dimension of each group. -/
theorem dimension_of_getElem? {i : Nat} {d : Dimension} (hd : p.dimensions[i]? = some d) :
    ∃ group before after, q.request.groups[i]? = some group ∧
      Dimension.ofGroup q.catalog ((Query.sortedGroups q.request.sorts).contains i) group before =
        .ok (d, after) := by
  obtain ⟨_, _, _, hdimensions, -, -⟩ := h.aliased
  simpa using Dimension.getElem?_of_ofGroups hdimensions hd

/-- Each measure has the shape of its metric. -/
theorem shapes : List.Forall₂
    (fun metric m => ∃ name,
      Measure.shapeOf q.catalog q.times (Aliases.new options.maxAliasLength) metric =
        .ok (m.shape, name))
    q.request.metrics p.measures := by
  obtain ⟨_, _, _, hdimensions, hmeasures, -⟩ := h.aliased
  exact Measure.shapes_of_ofMetrics hmeasures (Dimension.issues_of_ofGroups hdimensions).maxLength

omit h in
/-- Groups come first in the select list of a request without fields. -/
theorem items_eq (hfields : q.request.fields = []) :
    (p.select q options).items =
      p.dimensions.map (Dimension.selectItem options.dialect (p.outer q options)) ++
        (p.measures ++ p.stats).map (Measure.selectItem (p.outer q options)) := by
  simp [select, Query.selectItems, hfields]

omit h in
theorem items_getElem?_of_dimension (hfields : q.request.fields = []) {i : Nat} {d : Dimension}
    (hd : p.dimensions[i]? = some d) :
    (p.select q options).items[i]? =
      some (d.selectItem options.dialect (p.outer q options)) := by
  have hlt : i < p.dimensions.length := (List.getElem?_eq_some_iff.mp hd).1
  rw [items_eq hfields, List.getElem?_append_left (by simpa using hlt), List.getElem?_map, hd]
  rfl

theorem items_getElem?_of_measure (hfields : q.request.fields = []) {i : Nat} {m : Measure}
    (hm : p.measures[i]? = some m) :
    (p.select q options).items[q.request.groups.length + i]? =
      some (m.selectItem (p.outer q options)) := by
  have hlt : i < p.measures.length := (List.getElem?_eq_some_iff.mp hm).1
  rw [items_eq hfields, ← h.length_dimensions, List.getElem?_append_right (by simp),
    List.getElem?_map, List.length_map, Nat.add_sub_cancel_left, List.getElem?_append_left hlt, hm]
  rfl

/-- The column that a sort key names, and where it stands. -/
theorem column_of_sortKey (hfields : q.request.fields = []) {target : SortTarget}
    {direction : Direction} {key : Expr × Direction}
    (hkey : Query.sortKey p.dimensions p.measures (p.outer q options) (.agg target direction) =
      .ok key) :
    ∃ name item, key = (.bare name, direction) ∧
      (p.select q options).items[target.position q.request]? = some item ∧
      target.IsColumn q options (p.outer q options) item ∧ item.aliasName = some name := by
  obtain ⟨name, rfl, htarget⟩ := Query.sortKey_agg_eq_ok hkey
  cases target with
  | group index =>
    obtain ⟨d, hd, halias⟩ := htarget
    obtain ⟨group, before, after, hgroup, hofGroup⟩ := h.dimension_of_getElem? hd
    exact ⟨name, _, rfl, items_getElem?_of_dimension hfields hd,
      ⟨group, d, _, before, after, hgroup, hofGroup, rfl⟩, halias⟩
  | metric index =>
    obtain ⟨m, hm, halias⟩ := htarget
    obtain ⟨metric, hmetric, name', hshape⟩ := getElem?_of_forall₂ h.shapes hm
    exact ⟨name, _, rfl, h.items_getElem?_of_measure hfields hm,
      ⟨metric, m, name', hmetric, hshape, rfl⟩, congrArg some halias⟩

/-- A column without an alias is that of an attribute that no sort refers to. -/
theorem hasBareGroup_of_no_alias (hfields : q.request.fields = []) {i : Nat} {item : SelectItem}
    (hitem : (p.select q options).items[i]? = some item) (halias : item.aliasName = none) :
    ∃ field, item.expr = columnOf (p.outer q options) field ∧ q.request.HasBareGroup i field := by
  rw [items_eq hfields, List.getElem?_append] at hitem
  split at hitem
  · rw [List.getElem?_map] at hitem
    obtain ⟨d, hd, rfl⟩ := Option.map_eq_some_iff.mp hitem
    obtain ⟨group, before, after, hgroup, hofGroup⟩ := h.dimension_of_getElem? hd
    obtain ⟨-, -, hbare, hshape⟩ := Dimension.issues_of_ofGroup hofGroup
    obtain ⟨rfl, hsorted⟩ := hbare.mp halias
    refine ⟨d.field, ?_, hgroup, by simpa using hsorted⟩
    simp [Dimension.selectItem, Dimension.expr, hshape rfl]
  · rw [List.getElem?_map] at hitem
    obtain ⟨m, -, rfl⟩ := Option.map_eq_some_iff.mp hitem
    cases halias

/-- An attribute that no sort refers to keeps the name of its field. -/
theorem item_of_hasBareGroup (hfields : q.request.fields = []) {i : Nat} {field : String}
    (hbare : q.request.HasBareGroup i field) :
    (p.select q options).items[i]? = some ⟨columnOf (p.outer q options) field, none⟩ := by
  obtain ⟨hgroup, hsorted⟩ := hbare
  have hlt : i < p.dimensions.length := by
    rw [h.length_dimensions]
    exact (List.getElem?_eq_some_iff.mp hgroup).1
  have hd : p.dimensions[i]? = some p.dimensions[i] := List.getElem?_eq_getElem hlt
  obtain ⟨group, before, after, hgroup', hofGroup⟩ := h.dimension_of_getElem? hd
  cases Option.some.inj (hgroup.symm.trans hgroup')
  obtain ⟨-, hfield, halias, hshape⟩ := Dimension.issues_of_ofGroup hofGroup
  have hattribute : Group.attribute field = .attribute p.dimensions[i].field :=
    congrArg Group.attribute hfield.symm
  rw [items_getElem?_of_dimension hfields hd, Dimension.selectItem, Dimension.expr,
    hshape hattribute, halias.mpr ⟨hattribute, by simpa using hsorted⟩, hfield]
  rfl

end PlanParts.Fits

/-! ## Sorted columns -/

/-- In the plan of a query that compiles with aggregate sorts, there is one sort key for each
sort, and it names the column of the group or metric that the sort refers to. Other columns have
that name exactly if they are groups by an attribute of that name that no sort refers to. -/
theorem Query.outputNames_of_sorts {q : Query} {options : CompileOptions}
    {query : ParametrizedQuery} (h : q.compile options = .ok query)
    (hsorts : q.request.sorts.any SortClause.isAgg = true) :
    ∃ select, q.plan options = .ok select ∧
      select.orderBy.length = q.request.sorts.length ∧
      ∀ (i : Nat) (key : Expr × Direction), select.orderBy[i]? = some key →
        ∃ (target : SortTarget) (name : String) (item : SelectItem),
        q.request.sorts[i]? = some (.agg target key.2) ∧
        key.1 = .bare name ∧
        select.items[target.position q.request]? = some item ∧
        target.IsColumn q options select.source.qualifier item ∧
        ∀ (j : Nat) (other : SelectItem), select.items[j]? = some other →
          (other.outputName? = some name ↔
            j = target.position q.request ∨ q.request.HasBareGroup j name) := by
  obtain ⟨hcheck, select, hplan, -⟩ := compile_eq_ok_iff.mp h
  obtain ⟨p, hfits, rfl⟩ := plan_eq_ok_iff.mp hplan
  have hfault := fault?_eq_none_of_check hcheck
  obtain ⟨haggregated, hagg⟩ := Request.isAggregated_of_isAgg hfault hsorts
  have hfields := Request.fields_eq_nil hfault haggregated
  have hkeys := forall₂_of_mapM_eq_ok hfits.orderBy
  refine ⟨_, hplan, hkeys.length_eq.symm, fun i key hkey => ?_⟩
  obtain ⟨sort, hsort, hsortKey⟩ := getElem?_of_forall₂ hkeys hkey
  obtain ⟨target, direction, rfl⟩ := hagg sort (List.mem_of_getElem? hsort)
  obtain ⟨name, item, rfl, hitem, hcolumn, halias⟩ := hfits.column_of_sortKey hfields hsortKey
  refine ⟨target, name, item, hsort, rfl, hitem, hcolumn, fun j other hother => ⟨fun hname => ?_, ?_⟩⟩
  · cases halias' : other.aliasName with
    | some aliasName =>
      have hsame : aliasName = name := by
        rw [SelectItem.outputName?_of_alias halias'] at hname
        exact Option.some.inj hname
      subst hsame
      exact .inl (hfits.position_unique hother hitem halias' halias)
    | none =>
      obtain ⟨field, hexpr, hbare⟩ := hfits.hasBareGroup_of_no_alias hfields hother halias'
      rw [SelectItem.outputName?_of_no_alias halias', hexpr] at hname
      cases hname
      exact .inr hbare
  · rintro (rfl | hbare)
    · cases Option.some.inj (hitem.symm.trans hother)
      exact SelectItem.outputName?_of_alias halias
    · cases Option.some.inj ((hfits.item_of_hasBareGroup hfields hbare).symm.trans hother)
      rfl

/-- The sums of the orders, grouped by a field. -/
def sumsBy (field : String) (sorts : List SortClause) : Query :=
  { source := .table "sales" "orders"
    catalog := .empty
    request :=
      { Request.empty with
        groups := [.attribute field]
        metrics := [.sum "amount"]
        sorts } }

/-- The greatest sums first, and equal ones by site. -/
def sumsBySite : Query :=
  sumsBy "site" [.agg (.metric 0) .descending, .agg (.group 0) .ascending]

/-- The least sums first, grouped by a field of the name that the sums have in the result. -/
def sumsBySum : Query :=
  sumsBy "sum_amount" [.agg (.metric 0) .ascending]

theorem check_sumsBy {field : String} {sorts : List SortClause}
    (h : (sumsBy field sorts).request.fault? = none) : (sumsBy field sorts).check = .ok () :=
  Query.check_of_table rfl (by decide +kernel) (by decide +kernel) h

theorem ofMetrics_sumAmount {aliases after : Aliases} {aliasName : String}
    (h : issueAlias aliases "sum_amount" = .ok (aliasName, after)) :
    Measure.ofMetrics .empty [] [.sum "amount"] aliases =
      .ok ([⟨.aggregate .sum (some "amount"), aliasName⟩], after) :=
  Measure.ofMetrics_cons (Measure.ofMetric_of_shape rfl rfl h) rfl

theorem plan_sumsBySite : ∃ select, sumsBySite.plan .default = .ok select := by
  have hdistinct : (Aliases.new 63).fit "sum_amount" ≠ (Aliases.new 63).fit "site" := by
    decide +kernel
  obtain ⟨between, hsite, -, hothers⟩ := issueAlias_of_unasked (Aliases.unasked_new 63 "site")
  obtain ⟨after, hsum, -⟩ :=
    issueAlias_of_unasked (hothers _ (Aliases.unasked_new 63 "sum_amount") hdistinct)
  let site : Dimension := ⟨"site", .attribute, some ((Aliases.new 63).fit "site"), .unknown⟩
  let sum : Measure := ⟨.aggregate .sum (some "amount"), between.fit "sum_amount"⟩
  have hdimensions : Dimension.ofGroups .empty [0] 0 [.attribute "site"] (Aliases.new 63) =
      .ok ([site], between) := by
    change ((issueAlias (Aliases.new 63) "site").map _ >>= _) >>= _ = _
    rw [hsite]
    rfl
  have hmeasures := ofMetrics_sumAmount hsum
  let keys : List (Expr × Direction) :=
    [(.bare sum.aliasName, .descending), (.bare ((Aliases.new 63).fit "site"), .ascending)]
  refine ⟨_, Query.plan_eq_ok_iff.mpr ⟨⟨[site], [sum], [], none, [], keys⟩, ?_, rfl⟩⟩
  exact
    { aliased := ⟨between, after, after, hdimensions, hmeasures, rfl⟩
      filter := rfl
      joins := rfl
      orderBy := rfl }

/-- Among sums by site, the first sort key names the second column, and no other column. -/
theorem outputNames_of_sorts_sumsBySite :
    ∃ query select name, sumsBySite.compile .default = .ok query ∧
      sumsBySite.request.sorts.any SortClause.isAgg = true ∧
      sumsBySite.plan .default = .ok select ∧
      select.orderBy[0]? = some (.bare name, .descending) ∧
      ∀ (i : Nat) (item : SelectItem), select.items[i]? = some item →
        (item.outputName? = some name ↔ i = 1) := by
  obtain ⟨select, hplan⟩ := plan_sumsBySite
  have hcheck : sumsBySite.check = .ok () := check_sumsBy rfl
  obtain ⟨query, hquery, -⟩ := Query.compile_of_plan hcheck hplan
  obtain ⟨planned, hplanned, hlength, hkeys⟩ := Query.outputNames_of_sorts hquery rfl
  have hpositive : 0 < planned.orderBy.length := by
    rw [hlength]
    decide
  have hkey := List.getElem?_eq_getElem hpositive
  generalize planned.orderBy[0] = key at hkey
  obtain ⟨key, direction⟩ := key
  obtain ⟨target, name, item, hsort, rfl, hitem, -, hnames⟩ := hkeys 0 _ hkey
  cases hsort
  refine ⟨query, planned, name, hquery, rfl, hplanned, hkey, fun i item hitem => ?_⟩
  rw [hnames i item hitem]
  have hbare : ¬ sumsBySite.request.HasBareGroup i name := by
    rintro ⟨hgroup, hsorted⟩
    cases i with
    | zero => exact hsorted List.mem_cons_self
    | succ i => cases hgroup
  exact or_iff_left hbare

/-- The only sort key of the sums by sum is the name of both columns. -/
theorem not_sort_names_one_column :
    ∃ query select, sumsBySum.compile .default = .ok query ∧
      sumsBySum.plan .default = .ok select ∧
      select.orderBy = [(.bare "sum_amount", .ascending)] ∧
      select.items.map SelectItem.outputName? = [some "sum_amount", some "sum_amount"] := by
  have hfit : (Aliases.new 63).fit "sum_amount" = "sum_amount" := by decide +kernel
  obtain ⟨after, hsum, -⟩ := issueAlias_of_unasked (Aliases.unasked_new 63 "sum_amount")
  rw [hfit] at hsum
  let field : Dimension := ⟨"sum_amount", .attribute, none, .unknown⟩
  let sum : Measure := ⟨.aggregate .sum (some "amount"), "sum_amount"⟩
  have hmeasures := ofMetrics_sumAmount hsum
  let parts : PlanParts := ⟨[field], [sum], [], none, [], [(.bare "sum_amount", .ascending)]⟩
  have hplan : sumsBySum.plan .default = .ok (parts.select sumsBySum .default) := by
    refine Query.plan_eq_ok_iff.mpr ⟨parts, ?_, rfl⟩
    exact
      { aliased := ⟨_, after, after, rfl, hmeasures, rfl⟩
        filter := rfl
        joins := rfl
        orderBy := rfl }
  have hcheck : sumsBySum.check = .ok () := check_sumsBy rfl
  obtain ⟨query, hquery, -⟩ := Query.compile_of_plan hcheck hplan
  exact ⟨query, _, hquery, hplan, rfl, rfl⟩

end PagedQuery
