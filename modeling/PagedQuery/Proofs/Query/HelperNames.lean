import PagedQuery.Proofs.Query.Percentiles

/-!
# Names of helper columns

A helper column is named after its percentile field: the field is made fit for
an alias behind `rn_` or `cnt_`, and nothing keeps track of the names. So fields
that differ only in characters that are cleaned, or only behind the length that
is left, share their helper columns, and a column of the source may have such a
name as well.

* `Aliases.stem`, `Aliases.toList_fit_append`: what is left of a field in such a name;
* `Query.nodup_helperColumns_iff`, `Query.mem_helperColumns_iff`: when names meet;
* `Query.helperColumns_of_compile`: the helper columns of a compiled query.
-/

namespace PagedQuery

/-- The percentile fields of a request, each where it occurs first. -/
def Request.percentileFields (r : Request) : List String :=
  distinctTexts [] <| r.metrics.filterMap fun
    | .percentile field _ => some field
    | _ => none

/-! ## Fields behind a tag -/

namespace Aliases

/-- What is left of a field behind a tag: its characters, those that aliases do not have replaced,
as far as there is room. -/
def stem (a : Aliases) (tag field : String) : List Char :=
  (field.toList.map cleanChar).take (a.maxLength - tag.toList.length)

variable {a : Aliases} {tag field other : String}

theorem toList_fit_append (htag : tag.toList ≠ [])
    (hclean : tag.toList.map cleanChar = tag.toList)
    (hroom : tag.toList.length ≤ a.maxLength) (field : String) :
    (a.fit (tag ++ field)).toList = tag.toList ++ a.stem tag field := by
  have hne : (tag ++ field).toList ≠ [] := by
    rw [String.toList_append]
    exact List.append_ne_nil_of_left_ne_nil htag _
  unfold fit base clean stem
  rw [if_neg hne, String.toList_ofList, String.toList_append, List.map_append, hclean,
    List.take_append, List.take_of_length_le hroom]

/-- Fields that are the same behind a tag are the same behind a longer one. -/
theorem stem_eq_of_length_le {longer : String} (hlength : tag.toList.length ≤ longer.toList.length)
    (h : a.stem tag field = a.stem tag other) : a.stem longer field = a.stem longer other := by
  have hle : a.maxLength - longer.toList.length ≤ a.maxLength - tag.toList.length := by omega
  have htake := congrArg (List.take (a.maxLength - longer.toList.length)) h
  unfold stem at htake ⊢
  rwa [List.take_take, List.take_take, Nat.min_eq_left hle] at htake

end Aliases

/-! ## Helper columns of a field -/

namespace PercentileWindow

variable (maxLength : Nat) (field : String)

theorem toList_rankColumn :
    (ofField (Aliases.new maxLength) field).rankColumn.toList =
      "rn_".toList ++ (Aliases.new maxLength).stem "rn_" field := by
  refine Aliases.toList_fit_append (by decide) (by decide) ?_ field
  exact Nat.le_trans (by decide) (Nat.le_max_right maxLength Aliases.leastMaxLength)

theorem toList_countColumn :
    (ofField (Aliases.new maxLength) field).countColumn.toList =
      "cnt_".toList ++ (Aliases.new maxLength).stem "cnt_" field := by
  refine Aliases.toList_fit_append (by decide) (by decide) ?_ field
  exact Nat.le_trans (by decide) (Nat.le_max_right maxLength Aliases.leastMaxLength)

variable {maxLength field} {other : String}

theorem rankColumn_eq_iff :
    (ofField (Aliases.new maxLength) field).rankColumn =
        (ofField (Aliases.new maxLength) other).rankColumn ↔
      (Aliases.new maxLength).stem "rn_" field = (Aliases.new maxLength).stem "rn_" other := by
  rw [← String.toList_inj, toList_rankColumn, toList_rankColumn, List.append_cancel_left_eq]

theorem countColumn_eq_iff :
    (ofField (Aliases.new maxLength) field).countColumn =
        (ofField (Aliases.new maxLength) other).countColumn ↔
      (Aliases.new maxLength).stem "cnt_" field = (Aliases.new maxLength).stem "cnt_" other := by
  rw [← String.toList_inj, toList_countColumn, toList_countColumn, List.append_cancel_left_eq]

/-- Ranks and counts begin differently. -/
theorem rankColumn_ne_countColumn :
    (ofField (Aliases.new maxLength) field).rankColumn ≠
      (ofField (Aliases.new maxLength) other).countColumn := by
  intro heq
  have hchars := congrArg String.toList heq
  rw [toList_rankColumn, toList_countColumn] at hchars
  have hhead : 'r' = 'c' := congrArg (List.headD · 'r') hchars
  exact absurd hhead (by decide)

/-- The names of the helper columns of a field. -/
def columns (window : PercentileWindow) : List String :=
  [window.rankColumn, window.countColumn]

theorem nodup_columns (maxLength : Nat) (field : String) :
    (ofField (Aliases.new maxLength) field).columns.Nodup := by
  simp [columns, rankColumn_ne_countColumn]

/-- Two fields share no helper column exactly if their counts are apart, for which there is less
room. -/
theorem disjoint_columns_iff :
    List.Disjoint (ofField (Aliases.new maxLength) field).columns
        (ofField (Aliases.new maxLength) other).columns ↔
      (Aliases.new maxLength).stem "cnt_" field ≠ (Aliases.new maxLength).stem "cnt_" other := by
  constructor
  · intro hdisjoint heq
    refine hdisjoint (List.mem_cons_of_mem _ List.mem_cons_self) ?_
    rw [countColumn_eq_iff.mpr heq]
    exact List.mem_cons_of_mem _ List.mem_cons_self
  · intro hne name hname hother
    rcases List.mem_pair.mp hname with rfl | rfl
    · rcases List.mem_pair.mp hother with hsame | hsame
      · exact hne (Aliases.stem_eq_of_length_le (by decide) (rankColumn_eq_iff.mp hsame))
      · exact rankColumn_ne_countColumn hsame
    · rcases List.mem_pair.mp hother with hsame | hsame
      · exact rankColumn_ne_countColumn hsame.symm
      · exact hne (countColumn_eq_iff.mp hsame)

end PercentileWindow

/-! ## Helper columns of a query -/

namespace Query

theorem helperColumns_eq (q : Query) (options : CompileOptions) :
    q.helperColumns options = q.request.percentileFields.flatMap fun field =>
      (PercentileWindow.ofField (Aliases.new options.maxAliasLength) field).columns :=
  List.flatMap_map ..

/-- Helper columns are distinct exactly if the percentile fields are, as far as the names of counts
keep them. -/
theorem nodup_helperColumns_iff (q : Query) (options : CompileOptions) :
    (q.helperColumns options).Nodup ↔
      (q.request.percentileFields.map
        ((Aliases.new options.maxAliasLength).stem "cnt_")).Nodup := by
  rw [helperColumns_eq, List.nodup_flatMap,
    and_iff_right fun field _ => PercentileWindow.nodup_columns options.maxAliasLength field]
  refine Iff.trans ?_ List.pairwise_map.symm
  exact List.Pairwise.iff fun _ _ => PercentileWindow.disjoint_columns_iff

/-- A helper column is a tag and what is left of a percentile field. -/
theorem mem_helperColumns_iff {q : Query} {options : CompileOptions} {name : String} :
    name ∈ q.helperColumns options ↔ ∃ field ∈ q.request.percentileFields,
      ∃ tag ∈ ["rn_", "cnt_"],
        name.toList = tag.toList ++ (Aliases.new options.maxAliasLength).stem tag field := by
  rw [helperColumns_eq, List.mem_flatMap]
  refine exists_congr fun field => and_congr_right fun _ => ?_
  rw [PercentileWindow.columns, List.mem_pair, ← String.toList_inj, ← String.toList_inj,
    PercentileWindow.toList_rankColumn, PercentileWindow.toList_countColumn]
  simp only [List.mem_pair, exists_eq_or_imp, exists_eq_left]

/-- The derived table of the percentiles has the columns of the source and the helper columns. -/
theorem items_rankedSelect (q : Query) (options : CompileOptions) (base : Relation)
    (filter : Option Expr) (dimensions : List Dimension) :
    ∃ helpers, (rankedSelect options.dialect base filter dimensions (q.windows options)).items =
        ⟨.wildcard base.qualifier, none⟩ :: helpers ∧
      helpers.map SelectItem.aliasName = (q.helperColumns options).map some := by
  refine ⟨_, rfl, ?_⟩
  rw [helperColumns, List.map_flatMap, List.map_flatMap]
  rfl

/-- The derived table of a query with a percentile has the columns of the source and the helper
columns. The latter are distinct exactly if no two percentile fields are the same once they are
cleaned and cut to the room behind `cnt_`. A field that the groups, metrics and statistics read
is apart from them exactly if it is not `rn_` or `cnt_` before a percentile field that is cleaned
and cut to the room. -/
theorem helperColumns_of_compile {q : Query} {options : CompileOptions}
    {query : ParametrizedQuery} (h : q.compile options = .ok query) {field : String}
    {margin : Binary64} (hmetric : .percentile field margin ∈ q.request.metrics) :
    ∃ select ranked helpers, q.plan options = .ok select ∧
      select.write options.dialect = .ok query ∧
      select.source = .derived ranked percentileAlias ∧
      ranked.items = ⟨.wildcard ranked.source.qualifier, none⟩ :: helpers ∧
      helpers.map SelectItem.aliasName = (q.helperColumns options).map some ∧
      ((q.helperColumns options).Nodup ↔
        (q.request.percentileFields.map
          ((Aliases.new options.maxAliasLength).stem "cnt_")).Nodup) ∧
      ∀ read ∈ q.request.readFields, read ∈ q.helperColumns options ↔
        ∃ field ∈ q.request.percentileFields, ∃ tag ∈ ["rn_", "cnt_"],
          read.toList = tag.toList ++ (Aliases.new options.maxAliasLength).stem tag field := by
  obtain ⟨-, select, hplan, hwrite⟩ := compile_eq_ok_iff.mp h
  obtain ⟨p, -, rfl⟩ := plan_eq_ok_iff.mp hplan
  have hwindow := ofField_mem_windows options hmetric
  obtain ⟨helpers, hitems, haliases⟩ :=
    q.items_rankedSelect options (q.base options) p.filter p.dimensions
  exact ⟨_, _, helpers, hplan, hwrite,
    PlanParts.source_of_windows_ne_nil (List.ne_nil_of_mem hwindow), hitems, haliases,
    q.nodup_helperColumns_iff options, fun read _ => mem_helperColumns_iff⟩

end Query

/-- The median amounts by site have helper columns of their own. -/
theorem helperColumns_mediansBySite :
    ∃ query select ranked helpers, mediansBySite.compile .default = .ok query ∧
      .percentile "amount" (.ofNat 50) ∈ mediansBySite.request.metrics ∧
      mediansBySite.plan .default = .ok select ∧
      select.source = .derived ranked percentileAlias ∧
      ranked.items = ⟨.wildcard ranked.source.qualifier, none⟩ :: helpers ∧
      helpers.map SelectItem.aliasName = [some "rn_amount", some "cnt_amount"] ∧
      ∀ read ∈ mediansBySite.request.readFields, some read ∉ helpers.map SelectItem.aliasName := by
  obtain ⟨query, hquery⟩ := compile_mediansBySite
  have hmetric : .percentile "amount" (.ofNat 50) ∈ mediansBySite.request.metrics :=
    List.mem_cons_self
  obtain ⟨select, ranked, helpers, hplan, -, hsource, hitems, haliases, -, hreads⟩ :=
    Query.helperColumns_of_compile hquery hmetric
  have hcolumns : mediansBySite.helperColumns .default = ["rn_amount", "cnt_amount"] := by
    decide +kernel
  refine ⟨query, select, ranked, helpers, hquery, hmetric, hplan, hsource, hitems, ?_, ?_⟩
  · rw [haliases, hcolumns]
    rfl
  · intro read hread hmem
    rw [haliases, List.mem_map_of_injective (Option.some_injective _), hreads read hread] at hmem
    revert read
    decide +kernel

/-- The medians of two prices whose names are the same in the characters of aliases, and the sum
of a column that has the name of their ranks. -/
def unitPrices : Query :=
  totals [.sum "rn_unit_price", .percentile "unit price" (.ofNat 50),
    .percentile "unit_price" (.ofNat 50)]

theorem compile_unitPrices : ∃ query, unitPrices.compile .default = .ok query := by
  have hmargin : Measure.isPercentage (.ofNat 50) = true := by decide +kernel
  let a := Aliases.new 63
  have hsum : a.Unasked "sum_rn_unit_price" := Aliases.unasked_new 63 _
  let b := (a.count (a.base "sum_rn_unit_price") 1).issue (a.fit "sum_rn_unit_price")
  have hsumAlias := issueAlias_of_generate (Aliases.generate_of_unasked hsum)
  have hfirst : b.Unasked "percentile_unit price" :=
    (Aliases.unasked_new 63 _).issue_of_ne (by decide +kernel) 1
  let c := (b.count (b.base "percentile_unit price") 1).issue (b.fit "percentile_unit price")
  have hfirstAlias := issueAlias_of_generate (Aliases.generate_of_unasked hfirst)
  -- The second percentile has the alias of the first one as its base, and takes the next form.
  have hbase : a.base "percentile_unit price" = a.base "percentile_unit_price" := by
    decide +kernel
  have hcounter : c.counter (c.base "percentile_unit_price") ≤ 1 := by
    rw [Aliases.counter_issue, Aliases.counter_count, if_pos]
    exact hbase
  have hfree : c.candidate (c.base "percentile_unit_price") 1 ∉ c.issued := by
    have hsumNe : a.fit "sum_rn_unit_price" ≠ a.candidate (a.base "percentile_unit_price") 1 := by
      decide +kernel
    have hfirstNe :
        a.fit "percentile_unit price" ≠ a.candidate (a.base "percentile_unit_price") 1 := by
      decide +kernel
    intro hissued
    rcases Aliases.mem_issue.mp hissued with hsame | hissued
    · exact hfirstNe hsame
    rcases Aliases.mem_issue.mp hissued with hsame | hissued
    · exact hsumNe hsame
    · exact Std.HashSet.not_mem_empty hissued
  obtain ⟨aliasName, after, hsecondAlias⟩ := exists_issueAlias hcounter (by decide) hfree
  have hfirstMeasure := Measure.ofMetric_percentile [] "unit price" hmargin (by decide) hfirstAlias
  have hsecondMeasure :=
    Measure.ofMetric_percentile [] "unit_price" hmargin (by decide) hsecondAlias
  have hsumMeasure : Measure.ofMetric .empty [] (.sum "rn_unit_price") a =
      .ok (⟨.aggregate .sum (some "rn_unit_price"), a.fit "sum_rn_unit_price"⟩, b) :=
    Measure.ofMetric_of_shape rfl rfl hsumAlias
  have hnone : Measure.ofMetrics .empty [] [] after = .ok ([], after) := rfl
  have hmeasures := Measure.ofMetrics_cons hsumMeasure
    (Measure.ofMetrics_cons hfirstMeasure (Measure.ofMetrics_cons hsecondMeasure hnone))
  exact compile_totals .postgres (List.cons_ne_nil _ _) rfl hmeasures

/-- Helper columns of two fields can have the same names, which a column of the source can have
as well. -/
theorem not_helperColumns_apart :
    ∃ query select ranked, unitPrices.compile .default = .ok query ∧
      unitPrices.plan .default = .ok select ∧
      select.source = .derived ranked percentileAlias ∧
      ranked.items.map SelectItem.aliasName = [none, some "rn_unit_price", some "cnt_unit_price",
        some "rn_unit_price", some "cnt_unit_price"] ∧
      "rn_unit_price" ∈ unitPrices.request.readFields := by
  obtain ⟨query, hquery⟩ := compile_unitPrices
  obtain ⟨-, select, hplan, -⟩ := Query.compile_eq_ok_iff.mp hquery
  obtain ⟨p, -, rfl⟩ := Query.plan_eq_ok_iff.mp hplan
  have hwindows : unitPrices.windows .default ≠ [] := List.cons_ne_nil _ _
  refine ⟨query, _, _, hquery, hplan, PlanParts.source_of_windows_ne_nil hwindows, ?_, ?_⟩
  · obtain ⟨helpers, hitems, haliases⟩ :=
      unitPrices.items_rankedSelect .default (unitPrices.base .default) p.filter p.dimensions
    have hcolumns : unitPrices.helperColumns .default =
        ["rn_unit_price", "cnt_unit_price", "rn_unit_price", "cnt_unit_price"] := by
      decide +kernel
    rw [hitems, List.map_cons, haliases, hcolumns]
    rfl
  · decide

end PagedQuery
