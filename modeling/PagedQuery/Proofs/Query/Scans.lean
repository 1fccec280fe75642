import Mathlib.Data.Finset.Card
import PagedQuery.Proofs.Query.Literals
import PagedQuery.Proofs.Query.Plain
import PagedQuery.Proofs.Query.PlanParts
import PagedQuery.Proofs.Statement.Placeholders

/-!
# Scans

A planned statement reads the source once, and once more for each time field of
its last values. Every one of these scans is filtered by the filters of the
request, bound to its own alias, so all of them range over the same rows, and
the bound values are as many copies of the literals.

* `Select.nested`, `Relation.isScan`: the statements in a statement, and those that read a source;
* `PlanParts.nested_select`: the statements of a plan;
* `Query.compile_binds_filters`: scans and bound values of a compiled query.
-/

namespace PagedQuery

/-! ## Statements in a statement -/

mutual

/-- A statement and all statements in it. -/
def Select.nested : Select → List Select
  | ⟨distinct, items, source, joins, filter, groupBy, orderBy, limit, offset⟩ =>
    ⟨distinct, items, source, joins, filter, groupBy, orderBy, limit, offset⟩ ::
      (source.nested ++ Select.nestedInJoins joins)
termination_by structural s => s

def Relation.nested : Relation → List Select
  | .table .. => []
  | .custom .. => []
  | .derived select _ => select.nested
termination_by structural r => r

def Select.nestedInJoins : List Join → List Select
  | [] => []
  | ⟨_, relation, _⟩ :: rest => relation.nested ++ Select.nestedInJoins rest
termination_by structural joins => joins

end

/-- Whether a relation is read from the database and not from another statement. -/
def Relation.isScan : Relation → Bool
  | .table .. => true
  | .custom .. => true
  | .derived .. => false

/-- Whether a statement reads the database itself. -/
def Select.isScan (s : Select) : Bool :=
  s.source.isScan

/-- The time field of a last value. -/
def Metric.timeField? : Metric → Option String
  | .lastValue _ timeField => some timeField
  | _ => none

theorem Select.nested_eq (s : Select) :
    s.nested = s :: (s.source.nested ++ Select.nestedInJoins s.joins) := by
  obtain ⟨distinct, items, source, joins, filter, groupBy, orderBy, limit, offset⟩ := s
  rw [Select.nested]

theorem Select.nestedInJoins_cons (join : Join) (rest : List Join) :
    Select.nestedInJoins (join :: rest) = join.relation.nested ++ Select.nestedInJoins rest := by
  cases join
  rfl

theorem Select.joinParams_cons (join : Join) (rest : List Join) :
    Select.joinParams (join :: rest) =
      join.relation.params ++ join.condition.params ++ Select.joinParams rest := by
  cases join
  rfl

theorem Select.joinFault?_cons (join : Join) (rest : List Join) :
    Select.joinFault? (join :: rest) =
      (join.relation.fault? <|> join.condition.fault? <|> Select.joinFault? rest) := by
  cases join
  rfl

theorem Source.relation_isScan (source : Source) (aliasName : Option String) :
    (source.relation aliasName).isScan = true := by
  cases source <;> rfl

theorem Source.relation_nested (source : Source) (aliasName : Option String) :
    (source.relation aliasName).nested = [] := by
  cases source <;> rfl

theorem Source.relation_params (source : Source) (aliasName : Option String) :
    (source.relation aliasName).params = [] := by
  cases source <;> rfl

theorem Source.relation_fault? (source : Source) (aliasName : Option String) :
    (source.relation aliasName).fault? = none := by
  cases source <;> rfl

/-! ## Time fields -/

theorem mem_distinctTexts {text : String} {seen texts : List String} :
    text ∈ distinctTexts seen texts ↔ text ∈ texts ∧ text ∉ seen := by
  fun_induction distinctTexts seen texts with
  | case1 => simp
  | case2 seen first rest hseen ih =>
    have hmem : first ∈ seen := List.contains_iff_mem.mp hseen
    rw [ih, List.mem_cons]
    constructor
    · rintro ⟨hrest, hnot⟩
      exact ⟨Or.inr hrest, hnot⟩
    · rintro ⟨rfl | hrest, hnot⟩
      · exact absurd hmem hnot
      · exact ⟨hrest, hnot⟩
  | case3 seen first rest hseen ih =>
    have hmem : first ∉ seen := fun h => hseen (List.contains_iff_mem.mpr h)
    simp only [List.mem_cons, ih, List.mem_append, List.not_mem_nil, or_false, not_or]
    constructor
    · rintro (rfl | ⟨hrest, hnot, -⟩)
      · exact ⟨Or.inl rfl, hmem⟩
      · exact ⟨Or.inr hrest, hnot⟩
    · rintro ⟨rfl | hrest, hnot⟩
      · exact Or.inl rfl
      · by_cases heq : text = first
        · exact Or.inl heq
        · exact Or.inr ⟨hrest, hnot, heq⟩

theorem nodup_distinctTexts (seen texts : List String) : (distinctTexts seen texts).Nodup := by
  fun_induction distinctTexts seen texts with
  | case1 => exact List.nodup_nil
  | case2 seen first rest hseen ih => exact ih
  | case3 seen first rest hseen ih =>
    refine List.nodup_cons.mpr ⟨?_, ih⟩
    intro hmem
    exact (mem_distinctTexts.mp hmem).2 (List.mem_append_right _ (List.mem_singleton_self _))

theorem lastValueTimes_eq (metrics : List Metric) :
    lastValueTimes metrics = distinctTexts [] (metrics.filterMap Metric.timeField?) := rfl

/-- There is one join for each distinct time field. -/
theorem length_lastValueTimes (metrics : List Metric) :
    (lastValueTimes metrics).length = (metrics.filterMap Metric.timeField?).toFinset.card := by
  have hset : (lastValueTimes metrics).toFinset =
      (metrics.filterMap Metric.timeField?).toFinset := by
    ext text
    rw [List.mem_toFinset, List.mem_toFinset, lastValueTimes_eq, mem_distinctTexts]
    simp
  have hnodup : (lastValueTimes metrics).Nodup := nodup_distinctTexts _ _
  rw [← hset, List.toFinset_card_of_nodup hnodup]

/-! ## Filtered scans -/

/-- How a statement of a plan uses the filters of the query: the filter of a scan is theirs,
bound to the alias of the scan, and no other statement has a filter. Joins scan nothing. -/
structure Select.FiltersScan (q : Query) (ctx : Context) (s : Select) : Prop where
  scan : s.isScan = true →
    (∃ aliasName, s.source = q.source.relation aliasName) ∧
      predicateOf ctx s.source.qualifier q.request.filters = .ok s.filter
  noScan : s.isScan = false → s.filter = none
  joins : ∀ join ∈ s.joins, join.relation.isScan = false

/-- The statements in a statement use the filters of the query as they should, `scans` of them
read the source, `count` of them. -/
structure Select.BindsFilters (q : Query) (ctx : Context) (literals : List Value) (count : Nat)
    (s : Select) : Prop where
  filtered : ∀ t ∈ s.nested, t.FiltersScan q ctx
  scans : (s.nested.filter Select.isScan).length = count
  params : s.params = (List.replicate count literals).flatten
  fault? : s.fault? = none

/-- The same of the statements in a list of joins, none of which reads the source directly. -/
structure Join.BindFilters (q : Query) (ctx : Context) (literals : List Value) (count : Nat)
    (joins : List Join) : Prop where
  noScan : ∀ join ∈ joins, join.relation.isScan = false
  filtered : ∀ t ∈ Select.nestedInJoins joins, t.FiltersScan q ctx
  scans : ((Select.nestedInJoins joins).filter Select.isScan).length = count
  params : Select.joinParams joins = (List.replicate count literals).flatten
  fault? : Select.joinFault? joins = none

section

variable {q : Query} {ctx : Context} {literals : List Value} {m n : Nat}

theorem Join.BindFilters.nil : Join.BindFilters q ctx literals 0 [] where
  noScan _ hjoin := absurd hjoin List.not_mem_nil
  filtered _ ht := absurd ht List.not_mem_nil
  scans := rfl
  params := rfl
  fault? := rfl

theorem Join.BindFilters.cons {join : Join} {rest : List Join} {inner : Select}
    {aliasName : String} (hrelation : join.relation = .derived inner aliasName)
    (hcondition : join.condition.IsPlain) (hinner : inner.BindsFilters q ctx literals m)
    (hrest : Join.BindFilters q ctx literals n rest) :
    Join.BindFilters q ctx literals (m + n) (join :: rest) where
  noScan := by
    intro other hother
    rcases List.mem_cons.mp hother with rfl | hother
    · rw [hrelation]
      rfl
    · exact hrest.noScan other hother
  filtered := by
    intro t ht
    rw [Select.nestedInJoins_cons, hrelation] at ht
    rcases List.mem_append.mp ht with ht | ht
    · exact hinner.filtered t ht
    · exact hrest.filtered t ht
  scans := by
    rw [Select.nestedInJoins_cons, hrelation, List.filter_append, List.length_append, hrest.scans]
    exact congrArg (· + n) hinner.scans
  params := by
    rw [Select.joinParams_cons, hrelation, hcondition.params, hrest.params, List.append_nil,
      List.replicate_add, List.flatten_append, ← hinner.params]
    rfl
  fault? := by
    rw [Select.joinFault?_cons, hrelation, hcondition.fault?, hrest.fault?]
    exact congrArg (· <|> none <|> none) hinner.fault?

/-- A statement over the source itself is one scan more than its joins. -/
theorem Select.BindsFilters.of_source {s : Select} {aliasName : Option String}
    {leafLiterals : List (List Value)} (hplain : s.PlainClauses)
    (hsource : s.source = q.source.relation aliasName)
    (hfilter : predicateOf ctx (q.source.relation aliasName).qualifier q.request.filters =
      .ok s.filter)
    (hliterals : (flattenFilters q.request.filters).mapM (Leaf.literals? ctx.catalog) =
      some leafLiterals)
    (hjoins : Join.BindFilters q ctx leafLiterals.flatten n s.joins) :
    s.BindsFilters q ctx leafLiterals.flatten (n + 1) := by
  have hisScan : s.isScan = true := by
    rw [Select.isScan, hsource]
    exact q.source.relation_isScan _
  have hnested : s.nested = s :: Select.nestedInJoins s.joins := by
    rw [Select.nested_eq, hsource, q.source.relation_nested, List.nil_append]
  obtain ⟨leafLiterals', hliterals', hvalues, hwritable⟩ := predicateOf_eq_ok hfilter
  cases Option.some.inj (hliterals.symm.trans hliterals')
  constructor
  case filtered =>
    intro t ht
    rw [hnested] at ht
    rcases List.mem_cons.mp ht with rfl | ht
    · exact
        { scan := fun _ => ⟨⟨aliasName, hsource⟩, by rw [hsource]; exact hfilter⟩
          noScan := fun hnoScan => absurd (hnoScan.symm.trans hisScan) Bool.false_ne_true
          joins := hjoins.noScan }
    · exact hjoins.filtered t ht
  case scans =>
    rw [hnested, List.filter_cons_of_pos hisScan, List.length_cons, hjoins.scans]
  case params =>
    rw [hplain.params_eq, hsource, q.source.relation_params, hjoins.params, hvalues,
      List.nil_append, List.replicate_succ', List.flatten_append, List.flatten_singleton]
  case fault? =>
    rw [hplain.fault?_eq, hsource, q.source.relation_fault?, hjoins.fault?, hwritable]
    rfl

/-- A statement over a derived table leaves the filters to the statements in it. -/
theorem Select.BindsFilters.of_derived {s inner : Select} {aliasName : String}
    (hplain : s.PlainClauses) (hsource : s.source = .derived inner aliasName)
    (hfilter : s.filter = none) (hinner : inner.BindsFilters q ctx literals m)
    (hjoins : Join.BindFilters q ctx literals n s.joins) :
    s.BindsFilters q ctx literals (m + n) := by
  have hnoScan : s.isScan = false := by
    rw [Select.isScan, hsource]
    rfl
  have hnested : s.nested = s :: (inner.nested ++ Select.nestedInJoins s.joins) := by
    rw [Select.nested_eq, hsource]
    rfl
  constructor
  case filtered =>
    intro t ht
    rw [hnested] at ht
    rcases List.mem_cons.mp ht with rfl | ht
    · exact
        { scan := fun hisScan => absurd (hnoScan.symm.trans hisScan) Bool.false_ne_true
          noScan := fun _ => hfilter
          joins := hjoins.noScan }
    rcases List.mem_append.mp ht with ht | ht
    · exact hinner.filtered t ht
    · exact hjoins.filtered t ht
  case scans =>
    rw [hnested, List.filter_cons_of_neg (by simp [hnoScan]), List.filter_append,
      List.length_append, hinner.scans, hjoins.scans]
  case params =>
    rw [hplain.params_eq, hsource, hfilter, hjoins.params, List.replicate_add, List.flatten_append]
    exact (List.append_nil _).trans (congrArg (· ++ _) hinner.params)
  case fault? =>
    rw [hplain.fault?_eq, hsource, hfilter, hjoins.fault?]
    exact congrArg (· <|> none <|> none) hinner.fault?

end

/-- Each joined sub-select is one filtered scan. -/
theorem Query.lastValueJoins_bindFilters {q : Query} {ctx : Context} {dimensions : List Dimension}
    {outer : Option String} {literals : List (List Value)}
    (hdimensions : ∀ d ∈ dimensions, d.shape.IsFinite)
    (hliterals : (flattenFilters q.request.filters).mapM (Leaf.literals? ctx.catalog) =
      some literals)
    {index : Nat} {times : List String} {joins : List Join}
    (h : q.lastValueJoins ctx dimensions outer index times = .ok joins) :
    Join.BindFilters q ctx literals.flatten times.length joins := by
  induction times generalizing index joins with
  | nil =>
    cases h
    exact .nil
  | cons timeField rest ih =>
    obtain ⟨filter, hfilter, h⟩ := bind_eq_ok_iff.mp h
    obtain ⟨others, hothers, h⟩ := bind_eq_ok_iff.mp h
    cases h
    have hlatest : (latestSelect ctx.dialect timeField
        (q.source.relation (some lastValueSourceAlias)) filter dimensions).BindsFilters q ctx
          literals.flatten 1 :=
      .of_source (latestSelect_plainClauses hdimensions ..) rfl hfilter hliterals .nil
    have hcondition := (Expr.IsPlain.kept ctx.dialect).lastValueCondition hdimensions index
      timeField (q.source.relation (some lastValueSourceAlias)) filter outer
    rw [List.length_cons, Nat.add_comm]
    exact .cons (lastValueJoin_relation ..) hcondition hlatest (ih hothers)

end PagedQuery
