import PagedQuery.Proofs.Query.Naming

/-!
# What sorts refer to

An aggregate sort refers to a group or a metric by its number. Aliases are given
to the groups that sorts refer to before any group is planned, and sort keys
look them up after all of them are: a sort fails only if there is no group or
metric of its number.

* `SortTarget.InRange`, `Request.FirstUnresolved`: numbers that exist, and the first that does not;
* `Query.Prepared`: the query is checked, and its columns and filters are planned;
* `PlanParts.Ready`: the parts of a plan, whatever its sort keys are;
* `SortClause.OrdersBy`: the sort key that a sort asks for;
* `Query.orderBy_of_prepared`: the sort keys of a query, or the sort it fails with.
-/

namespace PagedQuery

/-! ## Numbers of groups and metrics -/

/-- There is a group or metric of the number that an aggregate sort refers to. -/
def SortTarget.InRange (r : Request) : SortTarget → Prop
  | .group index => index < r.groups.length
  | .metric index => index < r.metrics.length

/-- What a sort refers to exists. Sorts by a field refer to nothing that has a number. -/
def SortClause.Resolves (r : Request) : SortClause → Prop
  | .raw _ _ => True
  | .agg target _ => target.InRange r

/-- The first sort that refers to nothing refers to `target`. -/
def Request.FirstUnresolved (r : Request) (target : SortTarget) : Prop :=
  ∃ before direction after, r.sorts = before ++ .agg target direction :: after ∧
    (∀ sort ∈ before, sort.Resolves r) ∧ ¬ target.InRange r

theorem Query.mem_sortedGroups {sorts : List SortClause} {index : Nat} :
    index ∈ sortedGroups sorts ↔ ∃ direction, .agg (.group index) direction ∈ sorts := by
  rw [sortedGroups, List.mem_filterMap]
  constructor
  · rintro ⟨sort, hsort, hindex⟩
    split at hindex
    · cases hindex
      exact ⟨_, hsort⟩
    · cases hindex
  · rintro ⟨direction, hsort⟩
    exact ⟨_, hsort, rfl⟩

/-! ## Plans without sort keys -/

/-- The groups, metrics and statistics of the query are planned as these. Each kind goes on with
the aliases that the one before it left. -/
def Query.HasColumns (q : Query) (options : CompileOptions) (dimensions : List Dimension)
    (measures stats : List Measure) : Prop :=
  ∃ afterGroups afterMetrics afterStats : Aliases,
    Dimension.ofGroups q.catalog (Query.sortedGroups q.request.sorts) 0 q.request.groups
        (Aliases.new options.maxAliasLength) = .ok (dimensions, afterGroups) ∧
      Measure.ofMetrics q.catalog q.times q.request.metrics afterGroups =
        .ok (measures, afterMetrics) ∧
      Measure.ofStats q.catalog q.request.stats afterMetrics = .ok (stats, afterStats)

/-- The query is checked, and all of its groups, metrics, statistics and filters are planned. -/
structure Query.Prepared (q : Query) (options : CompileOptions) : Prop where
  check : q.check = .ok ()
  columns : ∃ dimensions measures stats, q.HasColumns options dimensions measures stats
  filter : ∃ filter, predicateOf (q.context options) (q.base options).qualifier q.request.filters =
    .ok filter

theorem PlanParts.Fits.prepared {p : PlanParts} {q : Query} {options : CompileOptions}
    (h : p.Fits q options) (hcheck : q.check = .ok ()) : q.Prepared options where
  check := hcheck
  columns := ⟨_, _, _, h.aliased⟩
  filter := ⟨_, h.filter⟩

/-- The parts are those that planning the query makes, whatever their sort keys are. -/
structure PlanParts.Ready (p : PlanParts) (q : Query) (options : CompileOptions) : Prop where
  columns : q.HasColumns options p.dimensions p.measures p.stats
  filter : predicateOf (q.context options) (q.base options).qualifier q.request.filters =
    .ok p.filter
  joins : q.lastValueJoins (q.context options) p.dimensions (p.outer q options) 0 q.times =
    .ok p.joins

theorem Query.exists_lastValueJoins {q : Query} {ctx : Context} {qualifier : Option String}
    {filter : Option Expr} (h : predicateOf ctx qualifier q.request.filters = .ok filter)
    (dimensions : List Dimension) (outer : Option String) (index : Nat) (times : List String) :
    ∃ joins, q.lastValueJoins ctx dimensions outer index times = .ok joins := by
  induction times generalizing index with
  | nil => exact ⟨[], rfl⟩
  | cons timeField rest ih =>
    -- each join plans the filters once more, for its own rows of the source
    have hcatalog : ctx.catalog = ctx.catalog := rfl
    have hsame := predicateOf_sameOutcome hcatalog qualifier
      (q.source.relation (some lastValueSourceAlias)).qualifier q.request.filters
    rw [h] at hsame
    obtain ⟨joinFilter, hfilter, -⟩ := hsame.exists_of_ok
    obtain ⟨others, hothers⟩ := ih (index + 1)
    let first := lastValueJoin ctx.dialect index timeField
      (q.source.relation (some lastValueSourceAlias)) joinFilter dimensions outer
    refine ⟨first :: others, bind_eq_ok_iff.mpr ⟨joinFilter, hfilter, ?_⟩⟩
    exact bind_eq_ok_iff.mpr ⟨others, hothers, rfl⟩

theorem Query.Prepared.exists_ready {q : Query} {options : CompileOptions}
    (h : q.Prepared options) : ∃ p : PlanParts, p.Ready q options := by
  obtain ⟨dimensions, measures, stats, hcolumns⟩ := h.columns
  obtain ⟨filter, hfilter⟩ := h.filter
  let p : PlanParts := ⟨dimensions, measures, stats, filter, [], []⟩
  obtain ⟨joins, hjoins⟩ :=
    Query.exists_lastValueJoins hfilter dimensions (p.outer q options) 0 q.times
  exact ⟨{ p with joins },
    { columns := hcolumns
      filter := hfilter
      joins := hjoins }⟩

namespace PlanParts.Ready

variable {p : PlanParts} {q : Query} {options : CompileOptions} (h : p.Ready q options)
include h

theorem fits {orderBy : List (Expr × Direction)}
    (hkeys : q.request.sorts.mapM (Query.sortKey p.dimensions p.measures (p.outer q options)) =
      .ok orderBy) : { p with orderBy }.Fits q options where
  aliased := h.columns
  filter := h.filter
  joins := h.joins
  orderBy := hkeys

/-- Nothing but a sort key can fail any more. -/
theorem plan_eq : q.plan options =
    q.request.sorts.mapM (Query.sortKey p.dimensions p.measures (p.outer q options)) >>=
      fun orderBy => .ok ({ p with orderBy }.select q options) := by
  obtain ⟨afterGroups, afterMetrics, afterStats, hdimensions, hmeasures, hstats⟩ := h.columns
  unfold Query.plan
  refine (bind_of_ok hdimensions).trans ?_
  refine (bind_of_ok hmeasures).trans ?_
  refine (bind_of_ok hstats).trans ?_
  refine (bind_of_ok h.filter).trans ?_
  exact bind_of_ok h.joins

theorem length_dimensions : p.dimensions.length = q.request.groups.length := by
  obtain ⟨_, _, _, hdimensions, -, -⟩ := h.columns
  exact (Dimension.ofGroups_forall₂ hdimensions).length_eq.symm

theorem length_measures : p.measures.length = q.request.metrics.length := by
  obtain ⟨_, _, _, -, hmeasures, -⟩ := h.columns
  exact (Measure.ofMetrics_forall₂ hmeasures).length_eq.symm

/-- A group that a sort refers to has an alias, whatever kind of group it is. -/
theorem exists_alias_of_sorted {index : Nat} {d : Dimension} (hd : p.dimensions[index]? = some d)
    (hsorted : index ∈ Query.sortedGroups q.request.sorts) : ∃ name, d.aliasName = some name := by
  obtain ⟨_, _, _, hdimensions, -, -⟩ := h.columns
  obtain ⟨group, before, after, -, hofGroup⟩ := Dimension.getElem?_of_ofGroups hdimensions hd
  obtain ⟨-, -, hbare, -⟩ := Dimension.issues_of_ofGroup hofGroup
  refine Option.ne_none_iff_exists'.mp fun hnone => ?_
  obtain ⟨-, hunsorted⟩ := hbare.mp hnone
  rw [Nat.zero_add, ← Bool.not_eq_true, List.contains_iff_mem] at hunsorted
  exact hunsorted hsorted

/-- A sort of the request has a sort key if what it refers to exists. -/
theorem exists_sortKey (outer : Option String) {sort : SortClause} (hsort : sort ∈ q.request.sorts)
    (hresolves : sort.Resolves q.request) :
    ∃ key, Query.sortKey p.dimensions p.measures outer sort = .ok key := by
  cases sort with
  | raw field direction => exact ⟨_, rfl⟩
  | agg target direction =>
    cases target with
    | group index =>
      have hindex : index < p.dimensions.length := h.length_dimensions ▸ hresolves
      have hd := List.getElem?_eq_getElem hindex
      -- the sort is one of those because of which the group has an alias
      obtain ⟨name, halias⟩ :=
        h.exists_alias_of_sorted hd (Query.mem_sortedGroups.mpr ⟨direction, hsort⟩)
      exact ⟨(.bare name, direction), by simp [Query.sortKey, hd, halias]⟩
    | metric index =>
      have hindex : index < p.measures.length := h.length_measures ▸ hresolves
      have hm := List.getElem?_eq_getElem hindex
      exact ⟨(.bare p.measures[index].aliasName, direction), by simp [Query.sortKey, hm]⟩

theorem sortKey_of_not_inRange (outer : Option String) {target : SortTarget}
    (hrange : ¬ target.InRange q.request) (direction : Direction) :
    Query.sortKey p.dimensions p.measures outer (.agg target direction) =
      .error (.unresolvedSort target) := by
  cases target with
  | group index =>
    have hd : p.dimensions[index]? = none := by
      rw [List.getElem?_eq_none_iff, h.length_dimensions]
      exact Nat.le_of_not_lt hrange
    simp [Query.sortKey, hd]
  | metric index =>
    have hm : p.measures[index]? = none := by
      rw [List.getElem?_eq_none_iff, h.length_measures]
      exact Nat.le_of_not_lt hrange
    simp [Query.sortKey, hm]

/-- A sort of the request has a sort key exactly if what it refers to exists. -/
theorem exists_sortKey_iff (outer : Option String) {sort : SortClause}
    (hsort : sort ∈ q.request.sorts) :
    (∃ key, Query.sortKey p.dimensions p.measures outer sort = .ok key) ↔
      sort.Resolves q.request := by
  refine ⟨?_, h.exists_sortKey outer hsort⟩
  rintro ⟨key, hkey⟩
  cases sort with
  | raw field direction => trivial
  | agg target direction =>
    by_contra hrange
    rw [h.sortKey_of_not_inRange outer hrange] at hkey
    cases hkey

/-- There are sort keys exactly if everything that a sort refers to exists. -/
theorem exists_orderBy_iff (outer : Option String) :
    (∃ orderBy, q.request.sorts.mapM (Query.sortKey p.dimensions p.measures outer) = .ok orderBy) ↔
      ∀ sort ∈ q.request.sorts, sort.Resolves q.request := by
  rw [exists_mapM_eq_ok_iff]
  exact forall₂_congr fun _ hsort => h.exists_sortKey_iff outer hsort

/-- The sort keys fail at the first sort that refers to nothing. -/
theorem mapM_sortKey_eq_error_iff (outer : Option String) {e : CompileError} :
    q.request.sorts.mapM (Query.sortKey p.dimensions p.measures outer) = .error e ↔
      ∃ target, e = .unresolvedSort target ∧ q.request.FirstUnresolved target := by
  rw [mapM_eq_error_iff]
  constructor
  · rintro ⟨before, sort, after, hsorts, hbefore, herror⟩
    have hresolves (other : SortClause) (hother : other ∈ before) : other.Resolves q.request :=
      (h.exists_sortKey_iff outer (by simp [hsorts, hother])).mp (hbefore other hother)
    have hunresolved : ¬ sort.Resolves q.request := by
      rw [← h.exists_sortKey_iff outer (by simp [hsorts]), herror]
      exact fun ⟨_, hkey⟩ => nomatch hkey
    cases sort with
    | raw field direction => exact absurd trivial hunresolved
    | agg target direction =>
      rw [h.sortKey_of_not_inRange outer hunresolved] at herror
      cases herror
      exact ⟨target, rfl, before, direction, after, hsorts, hresolves, hunresolved⟩
  · rintro ⟨target, rfl, before, direction, after, hsorts, hbefore, hrange⟩
    refine ⟨before, _, after, hsorts, fun sort hsort => ?_,
      h.sortKey_of_not_inRange outer hrange direction⟩
    exact h.exists_sortKey outer (by simp [hsorts, hsort]) (hbefore sort hsort)

end PlanParts.Ready

/-! ## Sort keys -/

/-- The sort key that a sort asks for, in its direction: a column of the source, or the alias of
the column that the sort refers to. -/
def SortClause.OrdersBy (q : Query) (options : CompileOptions) (select : Select) :
    SortClause → Expr × Direction → Prop
  | .raw field direction, key => key = (columnOf select.source.qualifier field, direction)
  | .agg target direction, key =>
    ∃ name item, key = (.bare name, direction) ∧
      select.items[target.position q.request]? = some item ∧
      target.IsColumn q options select.source.qualifier item ∧ item.aliasName = some name

theorem PlanParts.Fits.forall₂_ordersBy {p : PlanParts} {q : Query} {options : CompileOptions}
    (h : p.Fits q options) (hfault : q.request.fault? = none) :
    List.Forall₂ (SortClause.OrdersBy q options (p.select q options)) q.request.sorts
      (p.select q options).orderBy := by
  have hkeys := forall₂_of_mapM_eq_ok h.orderBy
  rw [List.forall₂_iff_zip] at hkeys ⊢
  refine ⟨hkeys.1, fun {sort key} hzip => ?_⟩
  have hkey := hkeys.2 hzip
  cases sort with
  | raw field direction =>
    cases hkey
    rfl
  | agg target direction =>
    -- with an aggregate sort there are no fields, so that groups come first in the select list
    have hagg : q.request.sorts.any SortClause.isAgg = true :=
      List.any_eq_true.mpr ⟨_, (List.of_mem_zip hzip).1, rfl⟩
    have hfields :=
      Request.fields_eq_nil hfault (Request.isAggregated_of_isAgg hfault hagg).1
    exact h.column_of_sortKey hfields hkey

namespace Query

variable {q : Query} {options : CompileOptions}

/-- Only a sort can fail in a query whose columns and filters are planned. -/
theorem Prepared.compile_eq_error_iff (h : q.Prepared options) {e : CompileError} :
    q.compile options = .error e ↔
      ∃ target, e = .unresolvedSort target ∧ q.request.FirstUnresolved target := by
  obtain ⟨p, hready⟩ := h.exists_ready
  rw [← hready.mapM_sortKey_eq_error_iff (p.outer q options)]
  have hplan := hready.plan_eq
  cases hkeys : q.request.sorts.mapM
      (sortKey p.dimensions p.measures (p.outer q options)) with
  | error e' =>
    rw [hkeys] at hplan
    rw [compile_of_plan_error h.check hplan]
    simp
  | ok orderBy =>
    obtain ⟨query, hquery⟩ := exists_compile_of_fits h.check (hready.fits hkeys)
    rw [hquery]
    simp

theorem Prepared.exists_compile_iff (h : q.Prepared options) :
    (∃ query, q.compile options = .ok query) ↔
      ∀ sort ∈ q.request.sorts, sort.Resolves q.request := by
  obtain ⟨p, hready⟩ := h.exists_ready
  rw [← hready.exists_orderBy_iff (p.outer q options)]
  constructor
  · rintro ⟨query, hquery⟩
    obtain ⟨-, select, hplan, -⟩ := compile_eq_ok_iff.mp hquery
    rw [hready.plan_eq] at hplan
    obtain ⟨orderBy, hkeys, -⟩ := bind_eq_ok_iff.mp hplan
    exact ⟨orderBy, hkeys⟩
  · rintro ⟨orderBy, hkeys⟩
    exact exists_compile_of_fits h.check (hready.fits hkeys)

/-- A query whose columns and filters are planned fails with the first aggregate sort that refers
to no group or metric. If there is none, it compiles: each group that a sort refers to has an
alias, and there is one sort key for each sort, in their order and with their directions. -/
theorem orderBy_of_prepared (h : q.Prepared options) :
    ((∃ target, q.compile options = .error (.unresolvedSort target)) ↔
      ∃ sort ∈ q.request.sorts, ¬ sort.Resolves q.request) ∧
    (∀ target, q.compile options = .error (.unresolvedSort target) ↔
      q.request.FirstUnresolved target) ∧
    ((∀ sort ∈ q.request.sorts, sort.Resolves q.request) →
      ∃ query select, q.compile options = .ok query ∧ q.plan options = .ok select ∧
        select.write options.dialect = .ok query ∧
        (∀ index ∈ sortedGroups q.request.sorts, ∃ item name,
          select.items[index]? = some item ∧
          (SortTarget.group index).IsColumn q options select.source.qualifier item ∧
          item.aliasName = some name) ∧
        List.Forall₂ (SortClause.OrdersBy q options select) q.request.sorts select.orderBy) := by
  refine ⟨⟨?_, ?_⟩, fun target => ?_, fun hresolves => ?_⟩
  · rintro ⟨target, htarget⟩
    by_contra! hresolves
    obtain ⟨query, hquery⟩ := h.exists_compile_iff.mpr hresolves
    rw [hquery] at htarget
    cases htarget
  · rintro ⟨sort, hsort, hunresolved⟩
    -- the sort that decides the error may be an earlier one
    cases hcompile : q.compile options with
    | error e =>
      obtain ⟨target, rfl, -⟩ := h.compile_eq_error_iff.mp hcompile
      exact ⟨target, rfl⟩
    | ok query => exact absurd (h.exists_compile_iff.mp ⟨query, hcompile⟩ sort hsort) hunresolved
  · rw [h.compile_eq_error_iff]
    simp
  · obtain ⟨query, hquery⟩ := h.exists_compile_iff.mpr hresolves
    obtain ⟨-, select, hplan, hwrite⟩ := compile_eq_ok_iff.mp hquery
    obtain ⟨p, hfits, rfl⟩ := plan_eq_ok_iff.mp hplan
    have hkeys := hfits.forall₂_ordersBy (fault?_eq_none_of_check h.check)
    refine ⟨query, _, hquery, hplan, hwrite, fun index hindex => ?_, hkeys⟩
    obtain ⟨direction, hsort⟩ := mem_sortedGroups.mp hindex
    obtain ⟨key, -, name, item, -, hitem, hcolumn, halias⟩ :=
      exists_mem_of_forall₂ hkeys.flip hsort
    exact ⟨item, name, hitem, hcolumn, halias⟩

end Query

/-- Sorts of the sums by site, the second and third of which refer to metrics that do not exist. -/
def sumsByMissing : Query :=
  sumsBy "site"
    [.agg (.group 0) .ascending, .agg (.metric 3) .descending, .agg (.metric 1) .ascending]

theorem prepared_sumsBySite : sumsBySite.Prepared .default := by
  obtain ⟨select, hplan⟩ := plan_sumsBySite
  obtain ⟨p, hfits, -⟩ := Query.plan_eq_ok_iff.mp hplan
  exact hfits.prepared (check_sumsBy rfl)

theorem prepared_sumsByMissing : sumsByMissing.Prepared .default where
  check := check_sumsBy rfl
  -- the same groups are sorted, so that the columns are the same
  columns := prepared_sumsBySite.columns
  filter := prepared_sumsBySite.filter

/-- The sums by site have a sort key for each sort, and a site with an alias; among the sorts that
refer to missing metrics the first one decides the error. -/
theorem orderBy_of_prepared_sums :
    (sumsBySite.Prepared .default ∧ ∃ query select, sumsBySite.compile .default = .ok query ∧
      sumsBySite.plan .default = .ok select ∧
      select.orderBy.map Prod.snd = [.descending, .ascending] ∧
      ∃ item name, select.items[0]? = some item ∧ item.aliasName = some name) ∧
    sumsByMissing.Prepared .default ∧
      sumsByMissing.compile .default = .error (.unresolvedSort (.metric 3)) := by
  have hresolves : ∀ sort ∈ sumsBySite.request.sorts, sort.Resolves sumsBySite.request := by
    simp [sumsBySite, sumsBy, SortClause.Resolves, SortTarget.InRange]
  have hfirst : sumsByMissing.request.FirstUnresolved (.metric 3) := by
    refine ⟨[.agg (.group 0) .ascending], .descending, _, rfl, ?_, ?_⟩
    · simp [sumsByMissing, sumsBy, SortClause.Resolves, SortTarget.InRange]
    · simp [sumsByMissing, sumsBy, SortTarget.InRange]
  obtain ⟨-, -, hsorted⟩ := Query.orderBy_of_prepared prepared_sumsBySite
  obtain ⟨-, hmissing, -⟩ := Query.orderBy_of_prepared prepared_sumsByMissing
  obtain ⟨query, select, hquery, hplan, -, haliases, hkeys⟩ := hsorted hresolves
  obtain ⟨item, name, hitem, -, halias⟩ := haliases 0 (by decide)
  refine ⟨⟨prepared_sumsBySite, query, select, hquery, hplan, ?_, item, name, hitem, halias⟩,
    prepared_sumsByMissing, (hmissing _).mpr hfirst⟩
  generalize select.orderBy = keys at hkeys ⊢
  obtain _ | ⟨⟨_, _, rfl, -⟩, _ | ⟨⟨_, _, rfl, -⟩, _ | _⟩⟩ := hkeys
  rfl

end PagedQuery
