import PagedQuery.Proofs.Query.Literals
import PagedQuery.Proofs.Query.Parts
import PagedQuery.Proofs.Statement.Mentions

/-!
# Columns that a plan reads

Each expression of a plan is made for one relation, by whose alias it qualifies
its columns. A dimension reads the column of its field and aggregates nothing,
a filter reads the columns of its leaves, and a measure reads nothing outside of
an aggregate.

* `Dimension.columns_expr`: columns of dimensions;
* `columns_lastValueJoin`, `columns_windowItem`: columns of join conditions and helper columns;
* `readsOnly_of_predicateOf`: columns of filters;
* `Measure.looseColumns_expr`, `Measure.columns_of_metric`: columns of measures.
-/

namespace PagedQuery

/-! ## Dimensions -/

section

variable {P : Mention → Prop} {aggregated : Bool} {e : Expr}

theorem Expr.mentionsOnly_columnOf {qualifier : Option String} {name : String}
    (h : P (.column ⟨qualifier, name⟩ aggregated)) :
    (columnOf qualifier name).MentionsOnly P aggregated := by
  intro mention hmention
  cases List.mem_singleton.mp hmention
  exact h

theorem Dialect.mentionsOnly_truncate (dialect : Dialect) (h : e.MentionsOnly P aggregated)
    (granularity : Granularity) : (dialect.truncate e granularity).MentionsOnly P aggregated := by
  unfold Expr.MentionsOnly at h ⊢
  cases dialect <;> cases granularity <;>
    simpa [truncate, truncateByFormat, reformatted, Expr.mentions, Expr.mentionsList, Expr.string,
      Expr.int, or_imp, forall_and] using h

theorem Dialect.mentionsOnly_epochSeconds (dialect : Dialect) (h : e.MentionsOnly P aggregated) :
    (dialect.epochSeconds e).MentionsOnly P aggregated := by
  unfold Expr.MentionsOnly at h ⊢
  cases dialect <;> simpa [epochSeconds, Expr.mentions, Expr.mentionsList] using h

theorem Dialect.mentionsOnly_epochMillis (dialect : Dialect) (h : e.MentionsOnly P aggregated) :
    (dialect.epochMillis e).MentionsOnly P aggregated := by
  unfold Expr.MentionsOnly at h ⊢
  cases dialect <;> simpa [epochMillis, Expr.mentions, Expr.mentionsList, Expr.int] using h

theorem Dimension.mentionsOnly_histogramCase (h : e.MentionsOnly P aggregated)
    (points : List Binary64) : (Dimension.histogramCase e points).MentionsOnly P aggregated := by
  have hlabels : ∀ label ∈ (bucketLabels "" points).map Expr.string,
      label.mentions aggregated = [] := by
    intro label hlabel
    obtain ⟨text, -, rfl⟩ := List.mem_map.mp hlabel
    rfl
  intro mention hmention
  simp only [histogramCase, Expr.mentions, List.mem_append, Expr.mem_mentionsBranches,
    Expr.mem_mentionsOption] at hmention
  rcases hmention with ⟨branch, hbranch, hmention⟩ | ⟨label, hlabel, hmention⟩
  · rcases List.mem_cons.mp hbranch with rfl | hbranch
    · simp only [Expr.mentions, Expr.null, List.not_mem_nil, or_false] at hmention
      exact h mention hmention
    · obtain ⟨⟨point, label⟩, hmem, rfl⟩ := List.mem_map.mp hbranch
      have hlabel := hlabels label (List.of_mem_zip hmem).2
      simp only [Expr.mentions, hlabel, List.append_nil, List.not_mem_nil, or_false] at hmention
      exact h mention hmention
  · rw [hlabels label (List.mem_of_getLast? hlabel)] at hmention
    exact absurd hmention List.not_mem_nil

end

namespace Dimension

variable (dialect : Dialect) (qualifier : Option String) (d : Dimension)

/-- A dimension mentions only the column of its field. -/
theorem mentionsOnly_expr (aggregated : Bool) :
    (d.expr dialect qualifier).MentionsOnly (· = .column ⟨qualifier, d.field⟩ aggregated)
      aggregated := by
  have hcolumn : (columnOf qualifier d.field).MentionsOnly
      (· = .column ⟨qualifier, d.field⟩ aggregated) aggregated := Expr.mentionsOnly_columnOf rfl
  unfold expr
  split
  · exact hcolumn
  · exact hcolumn
  · exact dialect.mentionsOnly_truncate hcolumn _
  · exact dialect.mentionsOnly_truncate (dialect.mentionsOnly_epochSeconds hcolumn) _
  · exact dialect.mentionsOnly_truncate (dialect.mentionsOnly_epochMillis hcolumn) _
  · exact mentionsOnly_histogramCase hcolumn _

theorem columns_expr {ref : ColumnRef} (h : ref ∈ (d.expr dialect qualifier).columns) :
    ref = ⟨qualifier, d.field⟩ := by
  obtain ⟨aggregated, hmention⟩ := Expr.mem_columns.mp h
  cases d.mentionsOnly_expr dialect qualifier false _ hmention
  rfl

end Dimension

/-! ## Conditions of joins -/

section

variable (dialect : Dialect)

theorem mentions_sentinelFor (fieldType : FieldType) (aggregated : Bool) :
    (sentinelFor dialect fieldType).mentions aggregated = [] := by
  cases fieldType <;> cases dialect <;> rfl

theorem columns_sameGroup {outer : Option String} {joined : String} {index : Nat} {d : Dimension}
    {ref : ColumnRef} (h : ref ∈ (sameGroup dialect outer joined index d).columns) :
    ref = ⟨outer, d.field⟩ ∨ ref = ⟨some joined, groupColumn index⟩ := by
  obtain ⟨aggregated, hmention⟩ := Expr.mem_columns.mp h
  simp only [sameGroup, Expr.mentions, Expr.mentionsList, mentions_sentinelFor, columnOf,
    List.append_nil, List.mem_append, List.mem_singleton] at hmention
  rcases hmention with hmention | hmention
  · cases d.mentionsOnly_expr dialect outer false _ hmention
    exact .inl rfl
  · cases hmention
    exact .inr rfl

/-- The condition of a join compares the dimensions of the outer query with the groups of the
joined sub-select. -/
theorem columns_lastValueJoin {index : Nat} {timeField : String} {source : Relation}
    {filter : Option Expr} {dimensions : List Dimension} {outer : Option String} {ref : ColumnRef}
    (h : ref ∈ (lastValueJoin dialect index timeField source filter dimensions
      outer).condition.columns) :
    (∃ d ∈ dimensions, ref = ⟨outer, d.field⟩) ∨
      ∃ i < dimensions.length, ref = ⟨some (lastValueAlias index), groupColumn i⟩ := by
  unfold lastValueJoin at h
  dsimp only at h
  split at h
  · exact absurd h List.not_mem_nil
  · obtain ⟨e, he, href⟩ := Expr.mem_columns_all.mp h
    obtain ⟨⟨d, i⟩, hd, rfl⟩ := List.mem_map.mp he
    obtain ⟨hlt, hget⟩ := List.mem_zipIdx' hd
    rcases columns_sameGroup dialect href with rfl | rfl
    · exact .inl ⟨d, List.fst_mem_of_mem_zipIdx hd, rfl⟩
    · exact .inr ⟨i, hlt, rfl⟩

end

/-! ## Helper columns -/

/-- A helper column reads the dimensions and the field of its window. -/
theorem columns_windowItem {qualifier : Option String} {dimensions : List Dimension}
    {dialect : Dialect} {window : PercentileWindow} {item : SelectItem}
    (hitem : item ∈ window.selectItems qualifier
      (dimensions.map (Dimension.expr dialect qualifier)))
    {ref : ColumnRef} (href : ref ∈ item.expr.columns) :
    (∃ d ∈ dimensions, ref = ⟨qualifier, d.field⟩) ∨ ref = ⟨qualifier, window.field⟩ := by
  have hpartition {e : Expr} (he : e ∈ dimensions.map (Dimension.expr dialect qualifier))
      (href : ref ∈ e.columns) : ∃ d ∈ dimensions, ref = ⟨qualifier, d.field⟩ := by
    obtain ⟨d, hd, rfl⟩ := List.mem_map.mp he
    exact ⟨d, hd, d.columns_expr dialect qualifier href⟩
  rcases List.mem_cons.mp hitem with rfl | hitem
  · rcases Expr.mem_columns_window.mp href with ⟨e, he, href⟩ | ⟨key, hkey, href⟩
    · exact .inl (hpartition he href)
    · cases List.mem_singleton.mp hkey
      exact .inr (List.mem_singleton.mp href)
  · cases List.mem_singleton.mp hitem
    rcases Expr.mem_columns_window.mp href with ⟨e, he, href⟩ | ⟨key, hkey, -⟩
    · exact .inl (hpartition he href)
    · exact absurd hkey List.not_mem_nil

/-- The derived table of the percentiles does not put rows together. -/
theorem hasAggregate_rankedItems {dialect : Dialect} {base : Relation} {filter : Option Expr}
    {dimensions : List Dimension} {windows : List PercentileWindow} {item : SelectItem}
    (hitem : item ∈ (rankedSelect dialect base filter dimensions windows).items) :
    item.expr.hasAggregate = false := by
  rw [Expr.hasAggregate, ← Bool.not_eq_true, List.contains_iff_mem]
  intro hmention
  have hpartition (h : Mention.aggregate ∈
      Expr.mentionsList (dimensions.map (Dimension.expr dialect base.qualifier)) false) : False := by
    obtain ⟨e, he, hmention⟩ := Expr.mem_mentionsList.mp h
    obtain ⟨d, -, rfl⟩ := List.mem_map.mp he
    cases d.mentionsOnly_expr dialect base.qualifier false _ hmention
  rcases List.mem_cons.mp hitem with rfl | hitem
  · cases List.mem_singleton.mp hmention
  · obtain ⟨window, -, hitem⟩ := List.mem_flatMap.mp hitem
    rcases List.mem_cons.mp hitem with rfl | hitem
    · rcases List.mem_append.mp hmention with hmention | hmention
      · exact hpartition hmention
      · cases List.mem_singleton.mp hmention
    · cases List.mem_singleton.mp hitem
      rcases List.mem_append.mp hmention with hmention | hmention
      · exact hpartition hmention
      · cases hmention

/-! ## Filters -/

section

variable {ctx : Context} {qualifier : Option String} {filters : List Filter} {e : Expr}

theorem Leaf.columns_predicate {leaf : Leaf} (h : leaf.predicate ctx qualifier = .ok e) :
    ∀ ref ∈ e.columns, ref = ⟨qualifier, leaf.field⟩ := by
  have hparams (values : List Value) (aggregated : Bool) :
      Expr.mentionsList (values.map Expr.param) aggregated = [] := by
    induction values with
    | nil => rfl
    | cons value rest ih => exact ih
  rcases predicate_cases h with ⟨-, rfl⟩ | ⟨text, hop, -, rfl⟩ | ⟨values, -, -, -, -, rfl⟩ |
    ⟨op, text, value, -, -, -, rfl⟩
  · simp [Expr.columns, Expr.mentions, columnOf, Mention.column?]
  · revert hop
    cases leaf.op <;> cases ctx.dialect <;>
      simp [LeafOp.isStringOnly, stringPredicate, Dialect.textSearch, Expr.columns, Expr.mentions,
        Expr.mentionsList, Expr.int, columnOf, Mention.column?]
  · simp [Expr.columns, Expr.mentions, hparams, columnOf, Mention.column?]
  · simp [Expr.columns, Expr.mentions, columnOf, Mention.column?]

theorem Filter.readsOnly_all {es : List Expr} (h : ∀ e ∈ es, e.ReadsOnly qualifier) :
    (Expr.all es).ReadsOnly qualifier := by
  intro ref href
  obtain ⟨e, he, href⟩ := Expr.mem_columns_all.mp href
  exact h e he ref href

theorem Filter.readsOnly_predicates {es : List Expr}
    (h : Filter.predicates ctx qualifier filters = .ok es) :
    ∀ e ∈ es, e.ReadsOnly qualifier := by
  have hlist {fs : List Filter} {es : List Expr}
      (h : List.Forall₂ (fun _ e => e.ReadsOnly qualifier) fs es) :
      ∀ e ∈ es, e.ReadsOnly qualifier := by
    intro e he
    obtain ⟨-, -, hreads⟩ := exists_mem_of_forall₂ h he
    exact hreads
  refine hlist (Filter.predicates_induction ?_ ?_ ?_ ?_ filters h)
  · intro leaf e hleaf ref href
    rw [Leaf.columns_predicate hleaf ref href]
  · intro _ e h
    exact h
  · intro _ es h
    exact readsOnly_all (hlist h)
  · intro _ es h
    exact readsOnly_all (hlist h)

/-- The condition of the filters reads the columns of the relation that it is made for. -/
theorem readsOnly_of_predicateOf {condition : Option Expr}
    (h : predicateOf ctx qualifier filters = .ok condition) :
    ∀ e ∈ condition, e.ReadsOnly qualifier := by
  rw [predicateOf_eq] at h
  obtain ⟨es, hes, h⟩ := bind_eq_ok_iff.mp h
  cases h
  have hreads := Filter.readsOnly_predicates hes
  intro e he
  unfold conjunctionOf at he
  split at he
  · cases he
  · cases he
    exact hreads _ List.mem_cons_self
  · cases he
    exact Filter.readsOnly_all hreads

end

/-! ## Measures -/

namespace Measure

variable (qualifier : Option String)

/-- A measure reads no column outside of an aggregate. -/
theorem looseColumns_expr (m : Measure) : (m.expr qualifier).looseColumns = [] := by
  obtain ⟨shape, aliasName⟩ := m
  cases shape with
  | aggregate func field => cases field <;> rfl
  | _ => rfl

/-- What a measure reads of a metric: the fields of the metric, the helper columns of a
percentile, and the greatest time of a last value. -/
theorem columns_of_metric {catalog : Catalog} {times : List String} {aliases : Aliases}
    {metric : Metric} {m : Measure} {name : String}
    (h : shapeOf catalog times aliases metric = .ok (m.shape, name)) {ref : ColumnRef}
    (href : ref ∈ (m.expr qualifier).columns) :
    (∃ field ∈ metric.fields, ref = ⟨qualifier, field⟩) ∨
    (∃ field margin, metric = .percentile field margin ∧
      (ref = ⟨qualifier, (PercentileWindow.ofField aliases field).rankColumn⟩ ∨
        ref = ⟨qualifier, (PercentileWindow.ofField aliases field).countColumn⟩)) ∨
    ∃ field timeField, metric = .lastValue field timeField ∧
      ref = ⟨some (lastValueAlias (times.idxOf timeField)), maxTimeColumn⟩ := by
  obtain ⟨shape, aliasName⟩ := m
  cases metric with
  | sum field =>
    obtain ⟨-, -, h⟩ := bind_eq_ok_iff.mp h
    cases h
    exact .inl ⟨field, List.mem_cons_self, List.mem_singleton.mp href⟩
  | avg field =>
    obtain ⟨-, -, h⟩ := bind_eq_ok_iff.mp h
    cases h
    exact .inl ⟨field, List.mem_cons_self, List.mem_singleton.mp href⟩
  | count field =>
    cases field with
    | none =>
      cases h
      exact absurd href List.not_mem_nil
    | some field =>
      cases h
      exact .inl ⟨field, List.mem_cons_self, List.mem_singleton.mp href⟩
  | lastValue field timeField =>
    cases h
    have href : ref ∈ [ColumnRef.mk qualifier timeField, ⟨_, maxTimeColumn⟩, ⟨qualifier, field⟩] :=
      href
    simp only [List.mem_cons, List.not_mem_nil, or_false] at href
    rcases href with rfl | rfl | rfl
    · exact .inl ⟨timeField, by simp [Metric.fields], rfl⟩
    · exact .inr (.inr ⟨field, timeField, rfl, rfl⟩)
    · exact .inl ⟨field, List.mem_cons_self, rfl⟩
  | percentile field margin =>
    rw [shapeOf] at h
    split at h
    · cases h
      have href : ref ∈ [ColumnRef.mk qualifier (PercentileWindow.ofField aliases field).rankColumn,
          ⟨qualifier, (PercentileWindow.ofField aliases field).countColumn⟩, ⟨qualifier, field⟩] :=
        href
      simp only [List.mem_cons, List.not_mem_nil, or_false] at href
      rcases href with rfl | rfl | rfl
      · exact .inr (.inl ⟨field, margin, rfl, .inl rfl⟩)
      · exact .inr (.inl ⟨field, margin, rfl, .inr rfl⟩)
      · exact .inl ⟨field, List.mem_cons_self, rfl⟩
    · cases h
  | «calc» expression given =>
    rw [shapeOf] at h
    split at h
    · cases h
    · cases h
      exact absurd href List.not_mem_nil
  | min field =>
    cases h
    exact .inl ⟨field, List.mem_cons_self, List.mem_singleton.mp href⟩
  | max field =>
    cases h
    exact .inl ⟨field, List.mem_cons_self, List.mem_singleton.mp href⟩
  | distinctCount field =>
    cases h
    exact .inl ⟨field, List.mem_cons_self, List.mem_singleton.mp href⟩

/-- A measure reads of a statistic the field of the statistic. -/
theorem columns_of_stat {stat : Stat} {m : Measure} (h : m.shape = statShape stat.field stat.kind)
    {ref : ColumnRef} (href : ref ∈ (m.expr qualifier).columns) :
    ref = ⟨qualifier, stat.field⟩ := by
  obtain ⟨shape, aliasName⟩ := m
  obtain ⟨field, kind⟩ := stat
  cases h
  cases kind <;> exact List.mem_singleton.mp href

end Measure

end PagedQuery
