import PagedQuery.Proofs.Query.Bindings
import PagedQuery.Proofs.Query.Columns
import PagedQuery.Proofs.Query.Naming
import Std.Data.String.ToNat

/-!
# Scopes

The same groups and filters are written for the outer query, for the derived
table of the percentiles and for each joined sub-select. In each of them, every
column belongs to a relation that the statement reads, and is a column that this
relation has.

* `Select.Resolves`, `Select.WellScoped`: columns that a statement may use, and statements that
  use no other columns;
* `PlanParts.Reads`, `PlanParts.Fits.resolves`: the columns that a plan reads, and that it may;
* `Query.wellScoped_of_compile`: the statements of a query that compiles are well scoped.
-/

namespace PagedQuery

/-! ## Columns and relations -/

namespace Select

variable (s : Select)

/-- The relations that a statement reads. -/
def relations : List Relation :=
  s.source :: s.joins.map Join.relation

/-- A column is qualified by the alias of a relation of the statement. It has no qualifier only
if the statement reads nothing but a table without an alias. -/
def Binds (ref : ColumnRef) : Prop :=
  ref.qualifier ∈ s.relations.map Relation.qualifier ∧
    (ref.qualifier = none → s.joins = [] ∧ ∃ schema name, s.source = .table schema name none)

/-- The select list has a column of a name: as the alias of an item, or as one of the `fields`
that are known to be among all columns of the source. -/
def Produces (fields : List String) (name : String) : Prop :=
  (∃ item ∈ s.items, item.aliasName = some name) ∨
    name ∈ fields ∧ ∃ item ∈ s.items, item.expr = .wildcard s.source.qualifier

/-- A column belongs to a relation of the statement, and if that is a statement itself, it has
the column. -/
def Resolves (fields : List String) (ref : ColumnRef) : Prop :=
  s.Binds ref ∧
    ∀ inner aliasName, .derived inner aliasName ∈ s.relations →
      (Relation.derived inner aliasName).qualifier = ref.qualifier →
        inner.Produces fields ref.name

/-- The columns in all clauses but the sort keys. -/
def columns : List ColumnRef :=
  s.items.flatMap (fun item => item.expr.columns) ++
    s.joins.flatMap (fun join => join.condition.columns) ++
    s.filter.toList.flatMap Expr.columns ++ s.groupBy.flatMap Expr.columns

/-- An expression names a column of the result. -/
def NamesOutput (e : Expr) : Prop :=
  ∃ name, e = .bare name ∧ ∃ item ∈ s.items, item.aliasName = some name

/-- Rows are put together. -/
def IsAggregated : Prop :=
  s.groupBy ≠ [] ∨ ∃ item ∈ s.items, item.expr.hasAggregate = true

/-- Every column of the result is a group, or reads columns within aggregates only. -/
def IsGrouped : Prop :=
  ∀ item ∈ s.items, item.expr ∈ s.groupBy ∨ item.expr.looseColumns = []

/-- The relations of a statement are told apart by their aliases, it uses no column but theirs,
and if it puts rows together, what it selects is defined for each group. -/
structure WellScoped (fields : List String) : Prop where
  distinct : (s.relations.map Relation.qualifier).Nodup
  columns : ∀ ref ∈ s.columns, s.Resolves fields ref
  orderBy : ∀ key ∈ s.orderBy, s.NamesOutput key.1 ∨ ∀ ref ∈ key.1.columns, s.Resolves fields ref
  joins : ∀ join ∈ s.joins, ∀ ref ∈ join.condition.columns,
    ref.qualifier = s.source.qualifier ∨ ref.qualifier = join.relation.qualifier
  grouped : s.IsAggregated → s.IsGrouped

variable {s} {fields : List String}

/-- A statement that reads only an aliased source uses the columns of that source. -/
theorem WellScoped.of_source {aliasName : String} (hsource : s.source.qualifier = some aliasName)
    (hscan : s.source.isScan = true) (hjoins : s.joins = []) (horderBy : s.orderBy = [])
    (hcolumns : ∀ ref ∈ s.columns, ref.qualifier = some aliasName)
    (hgrouped : s.IsAggregated → s.IsGrouped) : s.WellScoped fields := by
  have hrelations : s.relations = [s.source] := by rw [relations, hjoins, List.map_nil]
  constructor
  case distinct =>
    rw [hrelations]
    exact List.nodup_singleton _
  case columns =>
    intro ref href
    have hqualifier := hcolumns ref href
    refine ⟨⟨?_, fun hnone => ?_⟩, fun inner other hmem _ => ?_⟩
    · rw [hrelations, hqualifier, ← hsource]
      exact List.mem_singleton_self _
    · rw [hqualifier] at hnone
      cases hnone
    · rw [hrelations] at hmem
      rw [← List.mem_singleton.mp hmem] at hscan
      cases hscan
  case orderBy =>
    rw [horderBy]
    exact fun _ hkey => absurd hkey List.not_mem_nil
  case joins =>
    rw [hjoins]
    exact fun _ hjoin => absurd hjoin List.not_mem_nil
  case grouped => exact hgrouped

theorem mem_columns_iff {ref : ColumnRef} :
    ref ∈ s.columns ↔
      (∃ item ∈ s.items, ref ∈ item.expr.columns) ∨
      (∃ join ∈ s.joins, ref ∈ join.condition.columns) ∨
      (∃ e ∈ s.filter, ref ∈ e.columns) ∨ ∃ e ∈ s.groupBy, ref ∈ e.columns := by
  simp [columns, List.mem_append, List.mem_flatMap]

end Select

namespace Select

theorem mem_nestedInJoins {joins : List Join} {s : Select} :
    s ∈ nestedInJoins joins ↔ ∃ join ∈ joins, s ∈ join.relation.nested := by
  induction joins with
  | nil => simp [nestedInJoins]
  | cons join rest ih => simp [nestedInJoins_cons, ih]

/-- There is nothing but the statement itself in a statement that reads the source. -/
theorem eq_of_mem_nested {s t : Select} (hsource : s.source.nested = []) (hjoins : s.joins = [])
    (h : t ∈ s.nested) : t = s := by
  rw [nested_eq, hsource, hjoins] at h
  exact List.mem_singleton.mp h

end Select

/-! ## Statements over the source -/

section

variable {fields : List String} {aliasName : String} {base : Relation} {filter : Option Expr}
  {dialect : Dialect} {dimensions : List Dimension}
  (hbase : base.qualifier = some aliasName) (hscan : base.isScan = true)
  (hfilter : ∀ e ∈ filter, e.ReadsOnly base.qualifier)
include hbase hscan hfilter

/-- The derived table of the percentiles reads the source, row by row. -/
theorem rankedSelect_wellScoped (windows : List PercentileWindow) :
    (rankedSelect dialect base filter dimensions windows).WellScoped fields := by
  refine .of_source hbase hscan rfl rfl ?_ ?_
  · intro ref href
    rw [← hbase]
    rcases Select.mem_columns_iff.mp href with ⟨item, hitem, href⟩ | ⟨join, hjoin, -⟩ |
      ⟨e, he, href⟩ | ⟨e, he, -⟩
    · rcases List.mem_cons.mp hitem with rfl | hitem
      · cases List.mem_singleton.mp href
        rfl
      · obtain ⟨window, -, hitem⟩ := List.mem_flatMap.mp hitem
        have href := columns_windowItem hitem href
        rcases href with ⟨d, -, rfl⟩ | rfl <;> rfl
    · exact absurd hjoin List.not_mem_nil
    · exact hfilter e he ref href
    · exact absurd he List.not_mem_nil
  · rintro (hgroupBy | ⟨item, hitem, haggregate⟩)
    · exact absurd rfl hgroupBy
    · exact absurd haggregate (by simp [hasAggregate_rankedItems hitem])

/-- A joined sub-select reads the source, and has one column for each group and the greatest
time. -/
theorem latestSelect_wellScoped (timeField : String) :
    (latestSelect dialect timeField base filter dimensions).WellScoped fields := by
  refine .of_source hbase hscan rfl rfl ?_ ?_
  · intro ref href
    rw [← hbase]
    rcases Select.mem_columns_iff.mp href with ⟨item, hitem, href⟩ | ⟨join, hjoin, -⟩ |
      ⟨e, he, href⟩ | ⟨e, he, href⟩
    · rcases List.mem_append.mp hitem with hitem | hitem
      · obtain ⟨⟨key, i⟩, hkey, rfl⟩ := List.mem_map.mp hitem
        obtain ⟨d, -, rfl⟩ := List.mem_map.mp (List.fst_mem_of_mem_zipIdx hkey)
        rw [d.columns_expr dialect _ href]
      · cases List.mem_singleton.mp hitem
        cases List.mem_singleton.mp href
        rfl
    · exact absurd hjoin List.not_mem_nil
    · exact hfilter e he ref href
    · obtain ⟨d, -, rfl⟩ := List.mem_map.mp he
      rw [d.columns_expr dialect _ href]
  · intro _ item hitem
    rcases List.mem_append.mp hitem with hitem | hitem
    · obtain ⟨⟨key, i⟩, hkey, rfl⟩ := List.mem_map.mp hitem
      exact .inl (List.fst_mem_of_mem_zipIdx hkey)
    · cases List.mem_singleton.mp hitem
      exact .inr rfl

end

/-! ## Aliases of relations -/

theorem lastValueAlias_injective : Function.Injective lastValueAlias := by
  intro k l h
  exact Nat.repr_inj.mp ((String.append_right_inj _).mp h)

/-- The aliases of joined sub-selects are longer than the other aliases of relations. -/
theorem lastValueAlias_ne (k : Nat) {aliasName : String} (h : aliasName.length ≤ 3) :
    lastValueAlias k ≠ aliasName := by
  rintro rfl
  have hdigits : 0 < (toString k).length := by
    rw [← String.length_toList]
    exact List.length_pos_iff.mpr (Nat.toList_repr ▸ Nat.toDigits_ne_nil)
  rw [lastValueAlias, String.length_append] at h
  have hprefix : "lv_".length = 3 := rfl
  omega

theorem groupColumn_injective : Function.Injective groupColumn := by
  intro i j h
  exact Nat.repr_inj.mp ((String.append_right_inj _).mp h)

theorem groupColumn_ne_maxTimeColumn (i : Nat) : groupColumn i ≠ maxTimeColumn := by
  intro h
  have hfirst := congrArg (fun name => name.toList.head?) h
  simp [groupColumn, maxTimeColumn] at hfirst

theorem Source.qualifier_relation_some (source : Source) {aliasName : String}
    (h : aliasName ≠ "") : (source.relation (some aliasName)).qualifier = some aliasName := by
  cases source <;> simp [Source.relation, Relation.qualifier, qualifierOf, h]

theorem lastValueJoin_qualifier (dialect : Dialect) (index : Nat) (timeField : String)
    (source : Relation) (filter : Option Expr) (dimensions : List Dimension)
    (outer : Option String) :
    (lastValueJoin dialect index timeField source filter dimensions outer).relation.qualifier =
      some (lastValueAlias index) := by
  have hne : lastValueAlias index ≠ "" := lastValueAlias_ne index (by decide)
  rw [lastValueJoin_relation, Relation.qualifier, qualifierOf, if_neg hne]

/-! ## Joins of a plan -/

/-- The joins of the last values, with the condition that the filters make for their sources. -/
theorem Query.lastValueJoins_eq_ok {q : Query} {ctx : Context} {dimensions : List Dimension}
    {outer : Option String} {index : Nat} {times : List String} {joins : List Join}
    (h : q.lastValueJoins ctx dimensions outer index times = .ok joins) :
    ∃ filter,
      (times ≠ [] → predicateOf ctx (some lastValueSourceAlias) q.request.filters = .ok filter) ∧
      joins = (times.zipIdx index).map fun (timeField, k) =>
        lastValueJoin ctx.dialect k timeField (q.source.relation (some lastValueSourceAlias))
          filter dimensions outer := by
  induction times generalizing index joins with
  | nil =>
    cases h
    exact ⟨none, fun hne => absurd rfl hne, rfl⟩
  | cons timeField rest ih =>
    obtain ⟨filter, hfilter, h⟩ := bind_eq_ok_iff.mp h
    obtain ⟨others, hothers, h⟩ := bind_eq_ok_iff.mp h
    cases h
    obtain ⟨filter', hfilter', rfl⟩ := ih hothers
    rw [q.source.qualifier_relation_some (by decide)] at hfilter
    refine ⟨filter, fun _ => hfilter, ?_⟩
    rw [List.zipIdx_cons, List.map_cons]
    congr 1
    cases rest with
    | nil => rfl
    | cons other rest =>
      cases Except.ok.inj (hfilter.symm.trans (hfilter' (List.cons_ne_nil _ _)))
      rfl

/-! ## Columns of a plan -/

/-- The field of a raw sort. -/
def SortClause.field? : SortClause → Option String
  | .raw field _ => some field
  | .agg .. => none

/-- The fields that a request reads outside of its filters. -/
def Request.readFields (r : Request) : List String :=
  r.fields ++ r.groups.map Group.field ++ r.metrics.flatMap Metric.fields ++
    r.stats.map Stat.field ++ r.sorts.filterMap SortClause.field?

namespace Request

variable {r : Request}

theorem group_mem_readFields {group : Group} (hgroup : group ∈ r.groups) :
    group.field ∈ r.readFields := by
  simp only [readFields, List.mem_append]
  exact .inl (.inl (.inl (.inr (List.mem_map_of_mem hgroup))))

theorem metric_mem_readFields {metric : Metric} (hmetric : metric ∈ r.metrics) {field : String}
    (hfield : field ∈ metric.fields) : field ∈ r.readFields := by
  simp only [readFields, List.mem_append]
  exact .inl (.inl (.inr (List.mem_flatMap_of_mem hmetric hfield)))

theorem stat_mem_readFields {stat : Stat} (hstat : stat ∈ r.stats) :
    stat.field ∈ r.readFields := by
  simp only [readFields, List.mem_append]
  exact .inl (.inr (List.mem_map_of_mem hstat))

end Request

/-- A percentile has the helper columns of its field. -/
theorem Query.ofField_mem_windows {q : Query} (options : CompileOptions) {field : String}
    {margin : Binary64} (hmetric : .percentile field margin ∈ q.request.metrics) :
    PercentileWindow.ofField (Aliases.new options.maxAliasLength) field ∈ q.windows options := by
  refine List.mem_map_of_mem (mem_distinctTexts.mpr ⟨?_, List.not_mem_nil⟩)
  exact List.mem_filterMap.mpr ⟨_, hmetric, rfl⟩

theorem Query.timeField_mem_times {q : Query} {field timeField : String}
    (hmetric : .lastValue field timeField ∈ q.request.metrics) : timeField ∈ q.times := by
  refine mem_distinctTexts.mpr ⟨?_, List.not_mem_nil⟩
  exact List.mem_filterMap.mpr ⟨_, hmetric, rfl⟩

/-- The columns that the outer query of a plan reads: columns of its source, which are fields of
the request if the source is a derived table, helper columns, and columns of the joined
sub-selects. -/
inductive PlanParts.Reads (p : PlanParts) (q : Query) (options : CompileOptions) :
    ColumnRef → Prop where
  | source {name : String} (h : q.windows options = [] ∨ name ∈ q.request.readFields) :
    Reads p q options ⟨p.outer q options, name⟩
  | window {window : PercentileWindow} {name : String} (hwindow : window ∈ q.windows options)
    (h : name = window.rankColumn ∨ name = window.countColumn) :
    Reads p q options ⟨p.outer q options, name⟩
  | latest {k : Nat} (hk : k < q.times.length) :
    Reads p q options ⟨some (lastValueAlias k), maxTimeColumn⟩
  | group {k i : Nat} (hk : k < q.times.length) (hi : i < p.dimensions.length) :
    Reads p q options ⟨some (lastValueAlias k), groupColumn i⟩

theorem Query.base_eq (q : Query) (options : CompileOptions) :
    (∃ schema name, q.source = .table schema name ∧ q.windows options = [] ∧ q.times = [] ∧
      q.base options = .table schema name none) ∨
    q.base options = q.source.relation (some baseAlias) := by
  unfold Query.base
  split
  · exact .inr rfl
  · rename_i hplain
    simp only [Bool.or_eq_true, Bool.not_eq_true', not_or, Bool.not_eq_true, Bool.not_eq_false,
      List.isEmpty_iff] at hplain
    obtain ⟨⟨htable, hwindows⟩, htimes⟩ := hplain
    cases hsource : q.source with
    | custom sql =>
      rw [hsource] at htable
      cases htable
    | table schema name => exact .inl ⟨schema, name, rfl, hwindows, htimes, rfl⟩

namespace PlanParts

variable {p : PlanParts} {q : Query} {options : CompileOptions}

theorem source_of_windows_eq_nil (hwindows : q.windows options = []) :
    p.source q options = q.base options := by
  simp [source, hwindows]

theorem source_of_windows_ne_nil (hwindows : q.windows options ≠ []) :
    p.source q options =
      .derived (rankedSelect options.dialect (q.base options) p.filter p.dimensions
        (q.windows options)) percentileAlias := by
  simp only [source, List.isEmpty_iff, hwindows, if_false]
  rfl

/-- The outer query reads a table without an alias, or a relation whose alias is no longer than
that of a join can be. -/
theorem outer_cases (p : PlanParts) (q : Query) (options : CompileOptions) :
    (p.outer q options = none ∧ q.windows options = [] ∧ q.times = [] ∧
      ∃ schema name, p.source q options = .table schema name none) ∨
    ∃ aliasName, p.outer q options = some aliasName ∧ aliasName.length ≤ 3 := by
  by_cases hwindows : q.windows options = []
  · have hsource := source_of_windows_eq_nil (p := p) hwindows
    rcases q.base_eq options with ⟨schema, name, -, -, htimes, hbase⟩ | hbase
    · rw [hbase] at hsource
      exact .inl ⟨by rw [outer, hsource]; rfl, hwindows, htimes, schema, name, hsource⟩
    · refine .inr ⟨baseAlias, ?_, by decide⟩
      rw [outer, hsource, hbase, q.source.qualifier_relation_some (by decide)]
  · refine .inr ⟨percentileAlias, ?_, by decide⟩
    rw [outer, source_of_windows_ne_nil hwindows]
    rfl

end PlanParts

namespace PlanParts.Fits

variable {p : PlanParts} {q : Query} {options : CompileOptions} (h : p.Fits q options)
include h

theorem field_mem_readFields {d : Dimension} (hd : d ∈ p.dimensions) :
    d.field ∈ q.request.readFields := by
  obtain ⟨_, _, _, hdimensions, -, -⟩ := h.aliased
  obtain ⟨group, hgroup, _, _, _, hofGroup⟩ :=
    exists_mem_of_forall₂ (Dimension.ofGroups_forall₂ hdimensions) hd
  rw [(Dimension.issues_of_ofGroup hofGroup).2.1]
  exact Request.group_mem_readFields hgroup

theorem reads_dimension {d : Dimension} (hd : d ∈ p.dimensions) {ref : ColumnRef}
    (href : ref ∈ (d.expr options.dialect (p.outer q options)).columns) :
    p.Reads q options ref := by
  rw [d.columns_expr options.dialect _ href]
  exact .source (.inr (h.field_mem_readFields hd))

theorem reads_measure {m : Measure} (hm : m ∈ p.measures) {ref : ColumnRef}
    (href : ref ∈ (m.expr (p.outer q options)).columns) : p.Reads q options ref := by
  obtain ⟨metric, hmetric, name, hshape⟩ := exists_mem_of_forall₂ h.shapes hm
  rcases Measure.columns_of_metric _ hshape href with
    ⟨field, hfield, rfl⟩ | ⟨field, margin, rfl, href⟩ | ⟨field, timeField, rfl, rfl⟩
  · exact .source (.inr (Request.metric_mem_readFields hmetric hfield))
  · have hwindow := Query.ofField_mem_windows options hmetric
    rcases href with rfl | rfl
    · exact .window hwindow (.inl rfl)
    · exact .window hwindow (.inr rfl)
  · exact .latest (List.idxOf_lt_length_iff.mpr (Query.timeField_mem_times hmetric))

theorem reads_stat {m : Measure} (hm : m ∈ p.stats) {ref : ColumnRef}
    (href : ref ∈ (m.expr (p.outer q options)).columns) : p.Reads q options ref := by
  obtain ⟨_, _, _, -, -, hstats⟩ := h.aliased
  obtain ⟨stat, hstat, hshape⟩ := exists_mem_of_forall₂ (Measure.ofStats_forall₂ hstats) hm
  rw [Measure.columns_of_stat _ hshape href]
  exact .source (.inr (Request.stat_mem_readFields hstat))

/-- The join of each time field stands where the field stands among the time fields. -/
theorem join_cases {join : Join} (hjoin : join ∈ p.joins) :
    ∃ k timeField filter, q.times[k]? = some timeField ∧
      predicateOf (q.context options) (some lastValueSourceAlias) q.request.filters =
        .ok filter ∧
      join = lastValueJoin options.dialect k timeField
        (q.source.relation (some lastValueSourceAlias)) filter p.dimensions (p.outer q options) := by
  obtain ⟨filter, hfilter, hjoins⟩ := Query.lastValueJoins_eq_ok h.joins
  rw [hjoins] at hjoin
  obtain ⟨⟨timeField, k⟩, hmem, rfl⟩ := List.mem_map.mp hjoin
  have hk : q.times[k]? = some timeField := List.mk_mem_zipIdx_iff_getElem?.mp hmem
  exact ⟨k, timeField, filter, hk, hfilter (List.ne_nil_of_mem (List.mem_of_getElem? hk)), rfl⟩

theorem reads_columns {ref : ColumnRef} (href : ref ∈ (p.select q options).columns) :
    p.Reads q options ref := by
  rcases Select.mem_columns_iff.mp href with ⟨item, hitem, href⟩ | ⟨join, hjoin, href⟩ |
    ⟨e, he, href⟩ | ⟨e, he, href⟩
  · simp only [select, Query.selectItems, List.mem_append, List.mem_map] at hitem
    rcases hitem with ((⟨field, hfield, rfl⟩ | ⟨d, hd, rfl⟩) | ⟨m, hm, rfl⟩) | ⟨m, hm, rfl⟩
    · cases List.mem_singleton.mp href
      refine .source (.inr ?_)
      simp [Request.readFields, hfield]
    · exact h.reads_dimension hd href
    · exact h.reads_measure hm href
    · exact h.reads_stat hm href
  · obtain ⟨k, timeField, filter, hk, -, rfl⟩ := h.join_cases hjoin
    have hlt : k < q.times.length := (List.getElem?_eq_some_iff.mp hk).1
    rcases columns_lastValueJoin _ href with ⟨d, hd, rfl⟩ | ⟨i, hi, rfl⟩
    · exact .source (.inr (h.field_mem_readFields hd))
    · exact .group hlt hi
  · simp only [select] at he
    split at he
    · rename_i hwindows
      have hwindows := List.isEmpty_iff.mp hwindows
      have hqualifier := readsOnly_of_predicateOf h.filter e he ref href
      obtain ⟨qualifier, name⟩ := ref
      have houter : p.outer q options = qualifier := by
        rw [outer, source_of_windows_eq_nil hwindows, ← hqualifier]
      rw [← houter]
      exact .source (.inl hwindows)
    · cases he
  · obtain ⟨d, hd, rfl⟩ := List.mem_map.mp he
    exact h.reads_dimension hd href

/-! ### Relations of a plan -/

theorem map_qualifier_joins :
    p.joins.map (fun join => join.relation.qualifier) =
      (List.range q.times.length).map fun k => some (lastValueAlias k) := by
  obtain ⟨filter, -, hjoins⟩ := Query.lastValueJoins_eq_ok h.joins
  rw [hjoins, List.map_map, List.range_eq_range', ← List.zipIdx_map_snd 0, List.map_map]
  refine List.map_congr_left fun pair _ => ?_
  rw [Function.comp_apply, lastValueJoin_qualifier]
  rfl

theorem map_qualifier_relations :
    (p.select q options).relations.map Relation.qualifier =
      p.outer q options :: (List.range q.times.length).map fun k => some (lastValueAlias k) := by
  rw [← h.map_qualifier_joins, Select.relations, List.map_cons, List.map_map]
  rfl

theorem nodup_qualifiers : ((p.select q options).relations.map Relation.qualifier).Nodup := by
  rw [h.map_qualifier_relations, List.nodup_cons]
  constructor
  · intro hmem
    obtain ⟨k, -, hk⟩ := List.mem_map.mp hmem
    rcases p.outer_cases q options with ⟨hnone, -⟩ | ⟨aliasName, hsome, hlength⟩
    · rw [hnone] at hk
      cases hk
    · rw [hsome] at hk
      exact lastValueAlias_ne k hlength (Option.some.inj hk)
  · refine List.Nodup.map ?_ List.nodup_range
    exact (Option.some_injective _).comp lastValueAlias_injective

/-- A column is resolved by the only relation with its qualifier. -/
theorem resolves_of_mem {ref : ColumnRef} {relation : Relation}
    (hrelation : relation ∈ (p.select q options).relations)
    (hqualifier : relation.qualifier = ref.qualifier)
    (hproduces : ∀ inner aliasName, relation = .derived inner aliasName →
      inner.Produces q.request.readFields ref.name) :
    (p.select q options).Resolves q.request.readFields ref := by
  refine ⟨⟨?_, fun hnone => ?_⟩, fun inner aliasName hmem hother => ?_⟩
  · rw [← hqualifier]
    exact List.mem_map_of_mem hrelation
  · have hmem : none ∈ (p.select q options).relations.map Relation.qualifier := by
      rw [← hnone, ← hqualifier]
      exact List.mem_map_of_mem hrelation
    rw [h.map_qualifier_relations] at hmem
    rcases List.mem_cons.mp hmem with houter | hmem
    · rcases p.outer_cases q options with ⟨-, -, htimes, htable⟩ | ⟨aliasName, hsome, -⟩
      · have hjoins : p.joins.map (fun join => join.relation.qualifier) = [] := by
          rw [h.map_qualifier_joins, htimes]
          rfl
        exact ⟨List.map_eq_nil_iff.mp hjoins, htable⟩
      · rw [hsome] at houter
        cases houter
    · obtain ⟨k, -, hk⟩ := List.mem_map.mp hmem
      cases hk
  · exact hproduces inner aliasName
      (List.inj_on_of_nodup_map h.nodup_qualifiers hrelation hmem (hqualifier.trans hother.symm))

/-- There is a join for each time field. -/
theorem exists_join {k : Nat} (hk : k < q.times.length) :
    ∃ filter, lastValueJoin options.dialect k q.times[k]
      (q.source.relation (some lastValueSourceAlias)) filter p.dimensions (p.outer q options) ∈
        (p.select q options).joins := by
  obtain ⟨filter, -, hjoins⟩ := Query.lastValueJoins_eq_ok h.joins
  have hmem : (q.times[k], k) ∈ q.times.zipIdx 0 :=
    List.mk_mem_zipIdx_iff_getElem?.mpr (List.getElem?_eq_getElem hk)
  refine ⟨filter, ?_⟩
  change _ ∈ p.joins
  rw [hjoins]
  exact List.mem_map.mpr ⟨_, hmem, rfl⟩

/-- A column of the greatest times is resolved if the sub-select has an item of its name. -/
theorem resolves_of_latest {k : Nat} (hk : k < q.times.length) {name : String}
    (hname : ∀ source filter,
      ∃ item ∈ (latestSelect options.dialect q.times[k] source filter p.dimensions).items,
        item.aliasName = some name) :
    (p.select q options).Resolves q.request.readFields ⟨some (lastValueAlias k), name⟩ := by
  obtain ⟨filter, hjoin⟩ := h.exists_join hk
  refine h.resolves_of_mem (List.mem_cons_of_mem _ (List.mem_map_of_mem hjoin))
    (lastValueJoin_qualifier ..) fun inner aliasName hinner => ?_
  rw [lastValueJoin_relation] at hinner
  cases hinner
  exact .inl (hname _ _)

/-- Every column that a plan reads is one that it may read. -/
theorem resolves {ref : ColumnRef} (hreads : p.Reads q options ref) :
    (p.select q options).Resolves q.request.readFields ref := by
  have hsource : p.source q options ∈ (p.select q options).relations := List.mem_cons_self
  -- Only a derived table has to produce what is read of it.
  have hscan (hwindows : q.windows options = []) (inner : Select) (aliasName : String) :
      p.source q options ≠ .derived inner aliasName := by
    rw [source_of_windows_eq_nil hwindows]
    rcases q.base_eq options with ⟨_, _, -, -, -, hbase⟩ | hbase
    · rw [hbase]
      intro hderived
      cases hderived
    · intro hderived
      have hisScan := q.source.relation_isScan (some baseAlias)
      rw [← hbase, hderived] at hisScan
      cases hisScan
  cases hreads with
  | @source name hname =>
    refine h.resolves_of_mem hsource rfl fun inner aliasName hinner => ?_
    rcases hname with hwindows | hfield
    · exact absurd hinner (hscan hwindows inner aliasName)
    · by_cases hwindows : q.windows options = []
      · exact absurd hinner (hscan hwindows inner aliasName)
      · rw [source_of_windows_ne_nil hwindows] at hinner
        cases hinner
        exact .inr ⟨hfield, _, List.mem_cons_self, rfl⟩
  | @window window name hwindow hname =>
    refine h.resolves_of_mem hsource rfl fun inner aliasName hinner => ?_
    rw [source_of_windows_ne_nil (List.ne_nil_of_mem hwindow)] at hinner
    cases hinner
    refine .inl ?_
    simp only [rankedSelect, List.mem_cons, List.mem_flatMap]
    rcases hname with rfl | rfl
    · exact ⟨_, .inr ⟨window, hwindow, List.mem_cons_self⟩, rfl⟩
    · exact ⟨_, .inr ⟨window, hwindow, List.mem_cons_of_mem _ List.mem_cons_self⟩, rfl⟩
  | latest hk =>
    refine h.resolves_of_latest hk fun source filter => ?_
    exact ⟨_, List.mem_append_right _ (List.mem_singleton_self _), rfl⟩
  | @group k i hk hi =>
    refine h.resolves_of_latest hk fun source filter => ?_
    have hkey : i < (p.dimensions.map (Dimension.expr options.dialect source.qualifier)).length := by
      rwa [List.length_map]
    have hmem := List.mk_mem_zipIdx_iff_getElem?.mpr (List.getElem?_eq_getElem hkey)
    exact ⟨_, List.mem_append_left _ (List.mem_map.mpr ⟨_, hmem, rfl⟩), rfl⟩

/-! ### Well-scoped statements -/

/-- A sort key names a column of the result, or is a column of a raw sort. -/
theorem orderBy_cases {key : Expr × Direction} (hkey : key ∈ (p.select q options).orderBy) :
    (p.select q options).NamesOutput key.1 ∨
      ∃ field direction, .raw field direction ∈ q.request.sorts ∧
        key.1 = columnOf (p.outer q options) field := by
  obtain ⟨sort, hsort, hsortKey⟩ := exists_mem_of_forall₂ (forall₂_of_mapM_eq_ok h.orderBy) hkey
  cases sort with
  | raw field direction =>
    cases hsortKey
    exact .inr ⟨field, direction, hsort, rfl⟩
  | agg target direction =>
    obtain ⟨name, rfl, htarget⟩ := Query.sortKey_agg_eq_ok hsortKey
    refine .inl ⟨name, rfl, ?_⟩
    simp only [select, Query.selectItems, List.mem_append, List.mem_map]
    cases target with
    | group index =>
      obtain ⟨d, hd, halias⟩ := htarget
      exact ⟨_, .inl (.inl (.inr ⟨d, List.mem_of_getElem? hd, rfl⟩)), halias⟩
    | metric index =>
      obtain ⟨m, hm, halias⟩ := htarget
      exact ⟨_, .inl (.inr ⟨m, List.mem_of_getElem? hm, rfl⟩), congrArg some halias⟩

theorem orderBy_resolves {key : Expr × Direction} (hkey : key ∈ (p.select q options).orderBy) :
    (p.select q options).NamesOutput key.1 ∨
      ∀ ref ∈ key.1.columns, (p.select q options).Resolves q.request.readFields ref := by
  rcases h.orderBy_cases hkey with hnames | ⟨field, direction, hsort, hfield⟩
  · exact .inl hnames
  · refine .inr fun ref href => ?_
    rw [hfield] at href
    cases List.mem_singleton.mp href
    refine h.resolves (.source (.inr ?_))
    simp only [Request.readFields, List.mem_append, List.mem_filterMap]
    exact .inr ⟨_, hsort, rfl⟩

omit h in
theorem isGrouped (hfields : q.request.fields = []) : (p.select q options).IsGrouped := by
  intro item hitem
  simp only [select, Query.selectItems, hfields, List.map_nil, List.nil_append, List.mem_append,
    List.mem_map] at hitem
  rcases hitem with (⟨d, hd, rfl⟩ | ⟨m, -, rfl⟩) | ⟨m, -, rfl⟩
  · exact .inl (List.mem_map_of_mem hd)
  · exact .inr (m.looseColumns_expr _)
  · exact .inr (m.looseColumns_expr _)

/-- Only an aggregated request has groups, metrics and statistics. -/
theorem isAggregated_of_select (haggregated : (p.select q options).IsAggregated) :
    q.request.isAggregated = true := by
  by_contra hplain
  simp only [Request.isAggregated, Bool.or_eq_true, Bool.not_eq_true', List.isEmpty_eq_false_iff,
    not_or, not_not] at hplain
  obtain ⟨⟨hgroups, hmetrics⟩, hstats⟩ := hplain
  obtain ⟨_, _, _, hdimensions, hmeasures, hstatistics⟩ := h.aliased
  rw [hgroups] at hdimensions
  rw [hmetrics] at hmeasures
  rw [hstats] at hstatistics
  have hdimensions := List.forall₂_nil_left_iff.mp (Dimension.ofGroups_forall₂ hdimensions)
  have hmeasures := List.forall₂_nil_left_iff.mp (Measure.ofMetrics_forall₂ hmeasures)
  have hstatistics := List.forall₂_nil_left_iff.mp (Measure.ofStats_forall₂ hstatistics)
  rcases haggregated with hgroupBy | ⟨item, hitem, haggregate⟩
  · exact hgroupBy (by rw [select, hdimensions, List.map_nil])
  · simp only [select, Query.selectItems, hdimensions, hmeasures, hstatistics, List.map_nil,
      List.append_nil, List.mem_map] at hitem
    obtain ⟨field, -, rfl⟩ := hitem
    cases haggregate

theorem wellScoped (hfault : q.request.fault? = none) :
    (p.select q options).WellScoped q.request.readFields where
  distinct := h.nodup_qualifiers
  columns _ href := h.resolves (h.reads_columns href)
  orderBy _ hkey := h.orderBy_resolves hkey
  joins := by
    intro join hjoin ref href
    obtain ⟨k, timeField, filter, hk, -, rfl⟩ := h.join_cases hjoin
    rcases columns_lastValueJoin _ href with ⟨d, -, rfl⟩ | ⟨i, -, rfl⟩
    · exact .inl rfl
    · exact .inr (lastValueJoin_qualifier ..).symm
  grouped haggregated :=
    isGrouped (Request.fields_eq_nil hfault (h.isAggregated_of_select haggregated))

/-- The statements of a plan: the outer query, the derived table of the percentiles, and the
joined sub-selects. -/
theorem nested_cases {s : Select} (hs : s ∈ (p.select q options).nested) :
    s = p.select q options ∨
    (s = rankedSelect options.dialect (q.base options) p.filter p.dimensions
        (q.windows options) ∧ q.base options = q.source.relation (some baseAlias)) ∨
    ∃ timeField filter, timeField ∈ q.times ∧
      predicateOf (q.context options) (some lastValueSourceAlias) q.request.filters = .ok filter ∧
      s = latestSelect options.dialect timeField
        (q.source.relation (some lastValueSourceAlias)) filter p.dimensions := by
  rw [Select.nested_eq, List.mem_cons, List.mem_append] at hs
  rcases hs with rfl | hs | hs
  · exact .inl rfl
  · change s ∈ (p.source q options).nested at hs
    have hnested : (q.base options).nested = [] := q.source.relation_nested _
    by_cases hwindows : q.windows options = []
    · rw [source_of_windows_eq_nil hwindows, hnested] at hs
      exact absurd hs List.not_mem_nil
    · rcases q.base_eq options with ⟨_, _, -, hnone, -, -⟩ | hbase
      · exact absurd hnone hwindows
      rw [source_of_windows_ne_nil hwindows] at hs
      exact .inr (.inl ⟨Select.eq_of_mem_nested hnested rfl hs, hbase⟩)
  · obtain ⟨join, hjoin, hs⟩ := Select.mem_nestedInJoins.mp hs
    obtain ⟨k, timeField, filter, hk, hfilter, rfl⟩ := h.join_cases hjoin
    rw [lastValueJoin_relation] at hs
    exact .inr (.inr ⟨timeField, filter, List.mem_of_getElem? hk, hfilter,
      Select.eq_of_mem_nested (q.source.relation_nested _) rfl hs⟩)

/-- All statements of a plan are well scoped. -/
theorem wellScoped_nested (hfault : q.request.fault? = none) :
    ∀ s ∈ (p.select q options).nested, s.WellScoped q.request.readFields := by
  intro s hs
  rcases h.nested_cases hs with rfl | ⟨rfl, hbase⟩ | ⟨timeField, filter, -, hfilter, rfl⟩
  · exact h.wellScoped hfault
  · have hqualifier := q.source.qualifier_relation_some (show baseAlias ≠ "" by decide)
    rw [← hbase] at hqualifier
    refine rankedSelect_wellScoped hqualifier ?_ (readsOnly_of_predicateOf h.filter) _
    rw [hbase]
    exact q.source.relation_isScan _
  · have hqualifier := q.source.qualifier_relation_some (show lastValueSourceAlias ≠ "" by decide)
    refine latestSelect_wellScoped hqualifier (q.source.relation_isScan _) ?_ _
    rw [hqualifier]
    exact readsOnly_of_predicateOf hfilter

/-! ### Sub-selects of metrics -/

/-- Each metric has a measure of its shape. -/
theorem measure_of_metric {i : Nat} {metric : Metric}
    (hmetric : q.request.metrics[i]? = some metric) :
    ∃ (m : Measure) (name : String),
      p.measures[i]? = some m ∧
      Measure.shapeOf q.catalog q.times (Aliases.new options.maxAliasLength) metric =
        .ok (m.shape, name) := by
  have hlt : i < p.measures.length := by
    rw [← h.shapes.length_eq]
    exact (List.getElem?_eq_some_iff.mp hmetric).1
  have hm : p.measures[i]? = some p.measures[i] := List.getElem?_eq_getElem hlt
  obtain ⟨other, hother, name, hshape⟩ := getElem?_of_forall₂ h.shapes hm
  cases Option.some.inj (hmetric.symm.trans hother)
  exact ⟨_, name, hm, hshape⟩

/-- The column of a metric, and the shape that the metric has. -/
theorem column_of_metric (hfields : q.request.fields = []) {i : Nat} {metric : Metric}
    (hmetric : q.request.metrics[i]? = some metric) :
    ∃ (m : Measure) (name : String),
      Measure.shapeOf q.catalog q.times (Aliases.new options.maxAliasLength) metric =
        .ok (m.shape, name) ∧
      (p.select q options).items[(SortTarget.metric i).position q.request]? =
        some (m.selectItem (p.outer q options)) := by
  obtain ⟨m, name, hm, hshape⟩ := h.measure_of_metric hmetric
  exact ⟨m, name, hshape, h.items_getElem?_of_measure hfields hm⟩

/-- The column of a last value reads the join that computes the greatest value of its time
field. -/
theorem latest_of_metric (hfields : q.request.fields = []) {i : Nat} {field timeField : String}
    (hmetric : q.request.metrics[i]? = some (.lastValue field timeField)) :
    ∃ (k : Nat) (name : String) (inner : Select),
      (p.select q options).items[(SortTarget.metric i).position q.request]? =
        some (Measure.selectItem (p.outer q options) ⟨.lastValue field timeField k, name⟩) ∧
      (∃ join ∈ (p.select q options).joins,
        join.relation = .derived inner (lastValueAlias k)) ∧
      inner.items.filter (fun item => item.aliasName = some maxTimeColumn) =
        [⟨.aggregate .max (some (columnOf inner.source.qualifier timeField)),
          some maxTimeColumn⟩] := by
  obtain ⟨⟨shape, name⟩, _, hshape, hitem⟩ := h.column_of_metric hfields hmetric
  cases hshape
  have htime : timeField ∈ q.times := Query.timeField_mem_times (List.mem_of_getElem? hmetric)
  have hk : q.times.idxOf timeField < q.times.length := List.idxOf_lt_length_iff.mpr htime
  obtain ⟨filter, hjoin⟩ := h.exists_join hk
  rw [List.getElem_idxOf hk] at hjoin
  refine ⟨_, name, _, hitem, ⟨_, hjoin, lastValueJoin_relation ..⟩, ?_⟩
  rw [latestSelect, List.filter_append, List.filter_eq_nil_iff.mpr]
  · rfl
  · rintro item hitem
    obtain ⟨⟨key, i⟩, -, rfl⟩ := List.mem_map.mp hitem
    simpa using groupColumn_ne_maxTimeColumn i

/-- The column of a percentile reads helper columns of the derived table. -/
theorem window_of_metric (hfields : q.request.fields = []) {i : Nat} {field : String}
    {margin : Binary64} (hmetric : q.request.metrics[i]? = some (.percentile field margin)) :
    ∃ (window : PercentileWindow) (name : String) (inner : Select) (partition : List Expr),
      window.field = field ∧
      (p.select q options).items[(SortTarget.metric i).position q.request]? =
        some (Measure.selectItem (p.outer q options) ⟨.percentile window margin, name⟩) ∧
      (p.select q options).source = .derived inner percentileAlias ∧
      ∀ item ∈ window.selectItems inner.source.qualifier partition, item ∈ inner.items := by
  obtain ⟨⟨shape, name⟩, _, hshape, hitem⟩ := h.column_of_metric hfields hmetric
  rw [Measure.shapeOf] at hshape
  split at hshape
  · cases hshape
    have hwindow := Query.ofField_mem_windows options (List.mem_of_getElem? hmetric)
    refine ⟨_, name, _, p.dimensions.map (Dimension.expr options.dialect (q.base options).qualifier),
      rfl, hitem, source_of_windows_ne_nil (List.ne_nil_of_mem hwindow), fun item hitem => ?_⟩
    exact List.mem_cons_of_mem _ (List.mem_flatMap.mpr ⟨_, hwindow, hitem⟩)
  · cases hshape

end PlanParts.Fits

/-! ## Compiled queries -/

/-- The statements of a query that compiles are well scoped, the outer query is grouped if the
request is aggregated, and the column of a metric that needs a sub-select reads columns that the
sub-select computes for that metric: a last value the greatest value of its own time field, a
percentile the rank by its own field. -/
theorem Query.wellScoped_of_compile {q : Query} {options : CompileOptions}
    {query : ParametrizedQuery} (h : q.compile options = .ok query) :
    ∃ select, q.plan options = .ok select ∧
      (∀ s ∈ select.nested, s.WellScoped q.request.readFields) ∧
      (q.request.isAggregated = true → select.IsGrouped) ∧
      (∀ (i : Nat) (field timeField : String),
        q.request.metrics[i]? = some (.lastValue field timeField) →
          ∃ (k : Nat) (name : String) (inner : Select),
            select.items[(SortTarget.metric i).position q.request]? =
              some (Measure.selectItem select.source.qualifier
                ⟨.lastValue field timeField k, name⟩) ∧
            (∃ join ∈ select.joins, join.relation = .derived inner (lastValueAlias k)) ∧
            inner.items.filter (fun item => item.aliasName = some maxTimeColumn) =
              [⟨.aggregate .max (some (columnOf inner.source.qualifier timeField)),
                some maxTimeColumn⟩]) ∧
      ∀ (i : Nat) (field : String) (margin : Binary64),
        q.request.metrics[i]? = some (.percentile field margin) →
          ∃ (window : PercentileWindow) (name : String) (inner : Select) (partition : List Expr),
            window.field = field ∧
            select.items[(SortTarget.metric i).position q.request]? =
              some (Measure.selectItem select.source.qualifier
                ⟨.percentile window margin, name⟩) ∧
            select.source = .derived inner percentileAlias ∧
            ∀ item ∈ window.selectItems inner.source.qualifier partition, item ∈ inner.items := by
  obtain ⟨hcheck, select, hplan, -⟩ := compile_eq_ok_iff.mp h
  obtain ⟨p, hfits, rfl⟩ := plan_eq_ok_iff.mp hplan
  have hfault := fault?_eq_none_of_check hcheck
  have hfields (i : Nat) (metric : Metric) (hmetric : q.request.metrics[i]? = some metric) :
      q.request.fields = [] :=
    Request.fields_eq_nil_of_metric hfault (List.mem_of_getElem? hmetric)
  refine ⟨_, hplan, hfits.wellScoped_nested hfault, fun haggregated => ?_, ?_, ?_⟩
  · exact PlanParts.Fits.isGrouped (Request.fields_eq_nil hfault haggregated)
  · intro i field timeField hmetric
    exact hfits.latest_of_metric (hfields i _ hmetric) hmetric
  · intro i field margin hmetric
    exact hfits.window_of_metric (hfields i _ hmetric) hmetric

/-- The last readings read the greatest times from the only join. -/
theorem wellScoped_of_compile_lastReadings :
    ∃ query select, lastReadings.compile .default = .ok query ∧
      lastReadings.plan .default = .ok select ∧
      (∀ s ∈ select.nested, s.WellScoped ["site", "value", "time"]) ∧
      select.IsGrouped ∧
      ∃ (k : Nat) (name : String) (inner : Select),
        select.items[1]? = some (Measure.selectItem select.source.qualifier
          ⟨.lastValue "value" "time" k, name⟩) ∧
        (∃ join ∈ select.joins, join.relation = .derived inner (lastValueAlias k)) ∧
        inner.items.filter (fun item => item.aliasName = some maxTimeColumn) =
          [⟨.aggregate .max (some (columnOf inner.source.qualifier "time")),
            some maxTimeColumn⟩] := by
  obtain ⟨select, hplan⟩ := plan_lastReadings
  obtain ⟨query, hquery, -⟩ := Query.compile_of_plan check_lastReadings hplan
  obtain ⟨planned, hplanned, hscoped, hgrouped, hlatest, -⟩ := Query.wellScoped_of_compile hquery
  exact ⟨query, planned, hquery, hplanned, hscoped, hgrouped rfl, hlatest 0 "value" "time" rfl⟩

end PagedQuery
