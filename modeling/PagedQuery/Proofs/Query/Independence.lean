import PagedQuery.Proofs.Condition.Kinds
import PagedQuery.Proofs.Query.Bindings
import PagedQuery.Proofs.Statement.Placeholders

/-!
# Independence of the literals

The literals of a request are bound and never written. Requests that are alike
but for the literals of their filters compile, if they do, to one text, and bind
values of one kind at each position.

* `Request.blank`: a request without its literals, of which only the numbers are left;
* `Leaf.form`, `Filter.form`: the text of a condition, which a blank filter has as well;
* `Leaf.kinds`: the kinds of the values that a leaf binds;
* `compileRequest_independent`: text and kinds of compiled requests.
-/

namespace PagedQuery

/-! ## Blank requests -/

/-- A leaf with empty literals. -/
def Leaf.blank (leaf : Leaf) : Leaf :=
  { leaf with values := leaf.values.map fun _ => "" }

mutual

/-- A filter with empty literals. -/
def Filter.blank : Filter → Filter
  | .all filters => .all (Filter.blanks filters)
  | .any filters => .any (Filter.blanks filters)
  | .not filter => .not filter.blank
  | .leaf l => .leaf l.blank
termination_by structural f => f

def Filter.blanks : List Filter → List Filter
  | [] => []
  | filter :: rest => filter.blank :: Filter.blanks rest
termination_by structural fs => fs

end

/-- A request with empty literals. -/
def Request.blank (r : Request) : Request :=
  { r with filters := Filter.blanks r.filters }

/-! ## Text -/

/-- What a placeholder writes, whatever value is bound to it. -/
def mark (_ : Value) : String := "?"

/-- The condition of a leaf with marks in the place of its literals. -/
def Leaf.form (dialect : Dialect) (qualifier : Option String) (leaf : Leaf) : Expr :=
  let column := columnOf qualifier leaf.field
  if leaf.op = .isNull then .isNull column
  else if leaf.op.isStringOnly then (stringPredicate dialect column "" leaf.op).fill mark
  else match comparison? leaf.op with
    | none => .inList column (leaf.values.map fun _ => .raw "?")
    | some op => .compare column op (.raw "?")

mutual

/-- The condition of a filter with marks in the place of its literals. -/
def Filter.form (dialect : Dialect) (qualifier : Option String) : Filter → Expr
  | .all filters => .all (Filter.forms dialect qualifier filters)
  | .any filters => .any (Filter.forms dialect qualifier filters)
  | .not filter => .not (filter.form dialect qualifier)
  | .leaf l => l.form dialect qualifier
termination_by structural f => f

def Filter.forms (dialect : Dialect) (qualifier : Option String) : List Filter → List Expr
  | [] => []
  | filter :: rest => filter.form dialect qualifier :: Filter.forms dialect qualifier rest
termination_by structural fs => fs

end

/-! ### Blank filters have the same form -/

theorem Leaf.form_blank (dialect : Dialect) (qualifier : Option String) (leaf : Leaf) :
    leaf.blank.form dialect qualifier = leaf.form dialect qualifier := by
  simp [Leaf.form, Leaf.blank]

mutual

theorem Filter.form_blank (dialect : Dialect) (qualifier : Option String) (f : Filter) :
    f.blank.form dialect qualifier = f.form dialect qualifier := by
  cases f with
  | all filters =>
    exact congrArg Expr.all (Filter.forms_blanks dialect qualifier filters)
  | any filters =>
    exact congrArg Expr.any (Filter.forms_blanks dialect qualifier filters)
  | not filter => exact congrArg Expr.not (filter.form_blank dialect qualifier)
  | leaf l => exact l.form_blank dialect qualifier
termination_by structural f

theorem Filter.forms_blanks (dialect : Dialect) (qualifier : Option String) (fs : List Filter) :
    Filter.forms dialect qualifier (Filter.blanks fs) = Filter.forms dialect qualifier fs := by
  cases fs with
  | nil => rfl
  | cons filter rest =>
    simp only [Filter.blanks, Filter.forms, filter.form_blank, Filter.forms_blanks dialect _ rest]
termination_by structural fs

end

/-! ### Conditions have the form of their filters -/

theorem fillList_map_param (values : List Value) :
    Expr.fillList mark (values.map .param) = values.map fun _ => .raw "?" := by
  induction values with
  | nil => rfl
  | cons value rest ih => simp [Expr.fillList, Expr.fill, mark, ih]

theorem Leaf.fill_stringPredicate (dialect : Dialect) (qualifier : Option String) (field : String)
    (text : String) (op : LeafOp) :
    (stringPredicate dialect (columnOf qualifier field) text op).fill mark =
      (stringPredicate dialect (columnOf qualifier field) "" op).fill mark := by
  unfold stringPredicate
  split
  · rfl
  · rfl
  · cases dialect <;> rfl

theorem Leaf.fill_predicate {ctx : Context} {qualifier : Option String} {leaf : Leaf} {e : Expr}
    (h : leaf.predicate ctx qualifier = .ok e) :
    e.fill mark = leaf.form ctx.dialect qualifier := by
  rcases predicate_cases h with ⟨hop, rfl⟩ | ⟨text, hop, -, rfl⟩ |
    ⟨values, hop, -, hlength, -, rfl⟩ | ⟨op, text, value, hop, -, -, rfl⟩
  · simp [form, hop, Expr.fill, columnOf]
  · have hnull : leaf.op ≠ .isNull := by
      intro hnull
      simp [hnull, LeafOp.isStringOnly] at hop
    simp only [form, hnull, hop, if_true, if_false]
    exact fill_stringPredicate ..
  · simp [form, hop, LeafOp.isStringOnly, comparison?, Expr.fill, columnOf, fillList_map_param,
      List.map_const', hlength]
  · have hnull : leaf.op ≠ .isNull := by
      intro hnull
      simp [hnull, comparison?] at hop
    have hstring : leaf.op.isStringOnly = false := by
      revert hop
      cases leaf.op <;> simp [comparison?, LeafOp.isStringOnly]
    simp [form, hnull, hstring, hop, Expr.fill, columnOf, mark]

theorem Filter.fillList_eq_forms {dialect : Dialect} {qualifier : Option String}
    {fs : List Filter} {es : List Expr}
    (h : List.Forall₂ (fun f e => e.fill mark = f.form dialect qualifier) fs es) :
    Expr.fillList mark es = Filter.forms dialect qualifier fs := by
  induction h with
  | nil => rfl
  | cons hfirst _ ih => rw [Expr.fillList, Filter.forms, hfirst, ih]

theorem Filter.fill_predicates {ctx : Context} {qualifier : Option String} (fs : List Filter)
    {es : List Expr} (h : Filter.predicates ctx qualifier fs = .ok es) :
    Expr.fillList mark es = Filter.forms ctx.dialect qualifier fs := by
  refine Filter.fillList_eq_forms (Filter.predicates_induction ?_ ?_ ?_ ?_ fs h)
  · exact fun leaf e hleaf => leaf.fill_predicate hleaf
  · exact fun filter e hfilter => congrArg Expr.not hfilter
  · exact fun filters es hfilters => congrArg Expr.all (Filter.fillList_eq_forms hfilters)
  · exact fun filters es hfilters => congrArg Expr.any (Filter.fillList_eq_forms hfilters)

theorem fillOption_conjunctionOf (r : Value → String) (es : List Expr) :
    Expr.fillOption r (conjunctionOf es) = conjunctionOf (Expr.fillList r es) := by
  cases es with
  | nil => rfl
  | cons e rest => cases rest <;> rfl

/-- Filters that are alike but for their literals make conditions of one text. -/
theorem predicateOf_fill {ctx : Context} {qualifier : Option String}
    {filters filters' : List Filter} {condition condition' : Option Expr} (hblank : Filter.blanks filters = Filter.blanks filters')
    (h : predicateOf ctx qualifier filters = .ok condition)
    (h' : predicateOf ctx qualifier filters' = .ok condition') :
    Expr.fillOption mark condition = Expr.fillOption mark condition' := by
  rw [predicateOf_eq] at h h'
  obtain ⟨es, hes, h⟩ := bind_eq_ok_iff.mp h
  obtain ⟨es', hes', h'⟩ := bind_eq_ok_iff.mp h'
  cases h
  cases h'
  rw [fillOption_conjunctionOf, fillOption_conjunctionOf, Filter.fill_predicates filters hes,
    Filter.fill_predicates filters' hes', ← Filter.forms_blanks, hblank, Filter.forms_blanks]

/-! ### Plans -/

/-- A query with other filters. -/
def Query.refiltered (q : Query) (filters : List Filter) : Query :=
  { q with request := { q.request with filters } }

section

variable {q : Query} {options : CompileOptions} {filters : List Filter}

theorem Query.fill_lastValueJoins {ctx : Context} {dimensions : List Dimension}
    {outer : Option String} {index : Nat} {times : List String} {joins joins' : List Join}
    (hblank : Filter.blanks q.request.filters = Filter.blanks filters)
    (h : q.lastValueJoins ctx dimensions outer index times = .ok joins)
    (h' : (q.refiltered filters).lastValueJoins ctx dimensions outer index times = .ok joins') :
    Select.fillJoins mark joins = Select.fillJoins mark joins' := by
  induction times generalizing index joins joins' with
  | nil =>
    cases h
    cases h'
    rfl
  | cons timeField rest ih =>
    obtain ⟨filter, hfilter, h⟩ := bind_eq_ok_iff.mp h
    obtain ⟨filter', hfilter', h'⟩ := bind_eq_ok_iff.mp h'
    obtain ⟨others, hothers, h⟩ := bind_eq_ok_iff.mp h
    obtain ⟨others', hothers', h'⟩ := bind_eq_ok_iff.mp h'
    cases h
    cases h'
    have hsame := predicateOf_fill hblank hfilter hfilter'
    have hrest := ih hothers hothers'
    simp only [lastValueJoin, Select.of, Select.fillJoins, Relation.fill, Select.fill, hsame, hrest]
    rfl

/-- The alias of what the outer query reads does not depend on the filters. -/
theorem PlanParts.outer_refiltered (p p' : PlanParts) (q : Query) (options : CompileOptions)
    (filters : List Filter) :
    p'.outer (q.refiltered filters) options = p.outer q options := by
  unfold PlanParts.outer PlanParts.source
  change Relation.qualifier (if (q.windows options).isEmpty then q.base options else _) = _
  split
  · rfl
  · rfl

/-- Plans of queries that are alike but for the literals have one text. -/
theorem Query.fill_plan {select select' : Select}
    (hblank : Filter.blanks q.request.filters = Filter.blanks filters)
    (h : q.plan options = .ok select) (h' : (q.refiltered filters).plan options = .ok select') :
    select.fill mark = select'.fill mark := by
  obtain ⟨p, hfits, rfl⟩ := plan_eq_ok_iff.mp h
  obtain ⟨p', hfits', rfl⟩ := plan_eq_ok_iff.mp h'
  have houter := PlanParts.outer_refiltered p p' q options filters
  obtain ⟨⟨afterGroups, afterMetrics, afterStats, hdimensions, hmeasures, hstats⟩, hfilter, hjoins,
    horderBy⟩ := hfits
  obtain ⟨⟨afterGroups', afterMetrics', afterStats', hdimensions', hmeasures', hstats'⟩, hfilter',
    hjoins', horderBy'⟩ := hfits'
  rw [houter] at hjoins' horderBy'
  -- the parts that carry aliases do not look at the filters
  have hsame : p'.dimensions = p.dimensions ∧ afterGroups' = afterGroups := by
    simpa using hdimensions'.symm.trans hdimensions
  obtain ⟨hsameDimensions, rfl⟩ := hsame
  have hsame : p'.measures = p.measures ∧ afterMetrics' = afterMetrics := by
    simpa using hmeasures'.symm.trans hmeasures
  obtain ⟨hsameMeasures, rfl⟩ := hsame
  have hsameStats : p'.stats = p.stats ∧ afterStats' = afterStats := by
    simpa using hstats'.symm.trans hstats
  rw [hsameDimensions] at hjoins' horderBy'
  rw [hsameMeasures] at horderBy'
  have hsameOrder : p'.orderBy = p.orderBy := Except.ok.inj (horderBy'.symm.trans horderBy)
  have hsameFilter := predicateOf_fill hblank hfilter hfilter'
  have hsameJoins := Query.fill_lastValueJoins hblank hjoins hjoins'
  have hsameSource :
      (p.source q options).fill mark = (p'.source (q.refiltered filters) options).fill mark := by
    unfold PlanParts.source
    rw [hsameDimensions]
    change _ = Relation.fill mark (if (q.windows options).isEmpty then q.base options
      else percentileSource options.dialect (q.base options) p'.filter p.dimensions
        (q.windows options))
    split
    · rfl
    · simp only [percentileSource, Relation.fill, Select.fill, Select.of, hsameFilter]
  have hselect : p'.select (q.refiltered filters) options =
      { p.select q options with
        source := p'.source (q.refiltered filters) options
        joins := p'.joins
        filter := if (q.windows options).isEmpty then p'.filter else none } := by
    unfold PlanParts.select
    rw [houter, hsameDimensions, hsameMeasures, hsameStats.1, hsameOrder]
    rfl
  have hclause : Expr.fillOption mark (if (q.windows options).isEmpty then p.filter else none) =
      Expr.fillOption mark (if (q.windows options).isEmpty then p'.filter else none) := by
    split
    · exact hsameFilter
    · rfl
  rw [hselect]
  simp only [PlanParts.select, Select.fill, hsameSource, hsameJoins, hclause]

end

/-! ## Kinds of values -/

/-- The type of the fields that have a value; nulls and truth values are of none. -/
def Value.kind? : Value → Option FieldType
  | .int _ => some .integer
  | .float _ => some .double
  | .string _ => some .string
  | .date _ => some .date
  | .timestamp _ => some .date
  | .null => none
  | .bool _ => none

/-- The value of a literal has the type that the literal is read as. -/
theorem Literal.kind?_of_parse? {text : String} {fieldType : FieldType} {value : Value}
    (h : parse? text fieldType = some value) : value.kind? = some fieldType := by
  have hadmits := admits_of_parse? h
  unfold FieldType.admits at hadmits
  split at hadmits
  · rfl
  · rfl
  · rfl
  · rfl
  · rfl
  · cases hadmits

/-- The types of the values that a leaf binds. -/
def Leaf.kinds (catalog : Catalog) (leaf : Leaf) : List FieldType :=
  if leaf.op = .isNull then []
  else if leaf.op.isStringOnly then leaf.values.map fun _ => .string
  else match leaf.resolveType catalog with
    | .ok fieldType => leaf.values.map fun _ => fieldType
    | .error _ => []

theorem Leaf.kinds_blank (catalog : Catalog) (leaf : Leaf) :
    leaf.blank.kinds catalog = leaf.kinds catalog := by
  have htype : leaf.blank.resolveType catalog = leaf.resolveType catalog := rfl
  unfold Leaf.kinds
  rw [htype]
  simp [Leaf.blank]

/-- The values of literals that are read as one type have that type. -/
theorem map_kind?_of_mapM_parse? {fieldType : FieldType} {texts : List String}
    {values : List Value} (h : texts.mapM (Literal.parse? · fieldType) = some values) :
    values.map Value.kind? = texts.map fun _ => some fieldType := by
  induction texts generalizing values with
  | nil =>
    cases h
    rfl
  | cons text rest ih =>
    rw [List.mapM_cons] at h
    obtain ⟨value, hvalue, h⟩ := Option.bind_eq_some_iff.mp h
    obtain ⟨others, hothers, h⟩ := Option.bind_eq_some_iff.mp h
    cases h
    rw [List.map_cons, List.map_cons, Literal.kind?_of_parse? hvalue, ih hothers]

/-- The literals of a typed comparison have the type that they are read as. -/
theorem Leaf.map_kind?_typed {catalog : Catalog} {leaf : Leaf} {values : List Value}
    (hnull : leaf.op ≠ .isNull) (hstring : leaf.op.isStringOnly = false)
    (h : leaf.values.mapM (leaf.literal? catalog) = some values) :
    values.map Value.kind? = (leaf.kinds catalog).map some := by
  unfold Leaf.kinds
  simp only [hnull, hstring, if_false, Bool.false_eq_true]
  unfold Leaf.literal? at h
  cases htype : leaf.resolveType catalog with
  | ok fieldType =>
    simp only [htype] at h
    simpa using map_kind?_of_mapM_parse? h
  | error e =>
    simp only [htype] at h
    cases hvalues : leaf.values with
    | nil =>
      rw [hvalues] at h
      cases h
      rfl
    | cons text rest =>
      rw [hvalues] at h
      cases h

/-- One literal is a list of literals. -/
theorem mapM_singleton {α β : Type} (f : α → Option β) (a : α) :
    [a].mapM f = (f a).map fun b => [b] := by
  rw [List.mapM_cons]
  cases f a <;> rfl

theorem Leaf.map_kind?_literals {catalog : Catalog} {leaf : Leaf} {values : List Value}
    (h : leaf.literals? catalog = some values) :
    values.map Value.kind? = (leaf.kinds catalog).map some := by
  unfold Leaf.literals? at h
  split at h
  · rename_i hop
    cases h
    simp [Leaf.kinds, hop]
  · rename_i hop hvalues
    cases h
    simp [Leaf.kinds, hop, hvalues, LeafOp.isStringOnly, Value.kind?]
  · rename_i hop hvalues
    cases h
    simp [Leaf.kinds, hop, hvalues, LeafOp.isStringOnly, Value.kind?]
  · rename_i hop hvalues
    cases h
    simp [Leaf.kinds, hop, hvalues, LeafOp.isStringOnly, Value.kind?]
  · rename_i hop
    exact map_kind?_typed (by simp [hop]) (by simp [hop, LeafOp.isStringOnly]) h
  · rename_i text hvalues hnull heqi hsearch hcontains hin
    have hstring : leaf.op.isStringOnly = false := by
      revert heqi hsearch hcontains
      cases leaf.op <;> simp [LeafOp.isStringOnly]
    refine map_kind?_typed hnull hstring ?_
    rw [hvalues, mapM_singleton]
    exact h
  · cases h

mutual

theorem Filter.leaves_blank (f : Filter) : f.blank.leaves = f.leaves.map Leaf.blank := by
  cases f with
  | all filters => exact Filter.leavesOf_blanks filters
  | any filters => exact Filter.leavesOf_blanks filters
  | not filter => exact filter.leaves_blank
  | leaf l => rfl
termination_by structural f

theorem Filter.leavesOf_blanks (fs : List Filter) :
    Filter.leavesOf (Filter.blanks fs) = (Filter.leavesOf fs).map Leaf.blank := by
  cases fs with
  | nil => rfl
  | cons filter rest =>
    simp only [Filter.blanks, Filter.leavesOf, filter.leaves_blank, Filter.leavesOf_blanks rest,
      List.map_append]
termination_by structural fs

end

/-- The types of the values that filters bind, which are those of the blank filters. -/
theorem map_kind?_flatten {catalog : Catalog} {leaves : List Leaf} {literals : List (List Value)}
    (h : leaves.mapM (Leaf.literals? catalog) = some literals) :
    literals.flatten.map Value.kind? =
      ((leaves.map Leaf.blank).flatMap (Leaf.kinds catalog)).map some := by
  induction leaves generalizing literals with
  | nil =>
    cases h
    rfl
  | cons leaf rest ih =>
    rw [List.mapM_cons] at h
    obtain ⟨values, hvalues, h⟩ := Option.bind_eq_some_iff.mp h
    obtain ⟨others, hothers, h⟩ := Option.bind_eq_some_iff.mp h
    cases h
    simp only [List.flatten_cons, List.map_append, List.map_cons, List.flatMap_cons,
      Leaf.kinds_blank, Leaf.map_kind?_literals hvalues, ih hothers]

/-! ## Compiled requests -/

/-- Requests that are alike but for the literals of their filters differ in their filters only. -/
theorem Request.eq_of_blank {r r' : Request} (h : r.blank = r'.blank) :
    r' = { r with filters := r'.filters } ∧ Filter.blanks r.filters = Filter.blanks r'.filters := by
  obtain ⟨kind, fields, filters, groups, metrics, stats, sorts, offset, limit, distinct⟩ := r
  simp only [blank, Request.mk.injEq] at h
  obtain ⟨rfl, rfl, hblank, rfl, rfl, rfl, rfl, rfl, rfl, rfl⟩ := h
  exact ⟨rfl, hblank⟩

namespace Query

variable {q : Query} {options : CompileOptions} {filters : List Filter}
  {query query' : ParametrizedQuery}

/-- The text of a written statement is the text of the statement with marks. -/
theorem text_fill_select (dialect : Dialect) (select : Select) :
    Lexeme.text dialect ((select.fill mark).lexemes dialect) =
      Lexeme.text dialect (select.lexemes dialect) := by
  rw [Select.lexemes_fill]
  exact Lexeme.text_fill_mark dialect (select.lexemes dialect)

theorem sql_compile_refiltered (hblank : Filter.blanks q.request.filters = Filter.blanks filters)
    (h : q.compile options = .ok query) (h' : (q.refiltered filters).compile options = .ok query') :
    query.sql = query'.sql := by
  obtain ⟨-, select, hplan, hwrite⟩ := compile_eq_ok_iff.mp h
  obtain ⟨-, select', hplan', hwrite'⟩ := compile_eq_ok_iff.mp h'
  obtain ⟨-, rfl⟩ := Select.write_eq_ok_iff.mp hwrite
  obtain ⟨-, rfl⟩ := Select.write_eq_ok_iff.mp hwrite'
  calc Lexeme.text options.dialect (select.lexemes options.dialect)
      = Lexeme.text options.dialect ((select.fill mark).lexemes options.dialect) :=
        (text_fill_select _ _).symm
    _ = Lexeme.text options.dialect ((select'.fill mark).lexemes options.dialect) := by
        rw [fill_plan hblank hplan hplan']
    _ = Lexeme.text options.dialect (select'.lexemes options.dialect) := text_fill_select _ _

/-- The kinds of the bound values are those of the blank filters, once for each scan. -/
theorem kinds_compile (h : q.compile options = .ok query) :
    query.params.map Value.kind? =
      ((List.replicate (1 + q.request.lastValueScans)
        ((Filter.leavesOf (Filter.blanks q.request.filters)).flatMap
          (Leaf.kinds q.catalog))).flatten).map some := by
  obtain ⟨hcheck, select, hplan, hwrite⟩ := compile_eq_ok_iff.mp h
  obtain ⟨-, rfl⟩ := Select.write_eq_ok_iff.mp hwrite
  obtain ⟨literals, hliterals, hbinds⟩ := plan_bindsFilters hcheck hplan
  have hkinds := map_kind?_flatten hliterals
  rw [flattenFilters, ← Filter.leavesOf_blanks] at hkinds
  simp only [hbinds.params, List.map_flatten, List.map_replicate, hkinds]

end Query

/-- Two requests that are equal but for the literals of their filters, each leaf having as many
in both, compile to the same text if they compile, and the values they bind are of the same
kinds: integers, floating point numbers, strings, and dates or timestamps. -/
theorem compileRequest_independent {r r' : Request} {source : Source} {catalog : Catalog}
    {options : CompileOptions} {query query' : ParametrizedQuery} (hblank : r.blank = r'.blank)
    (h : compileRequest r source catalog options = .ok query)
    (h' : compileRequest r' source catalog options = .ok query') :
    query.sql = query'.sql ∧
      query.params.map Value.kind? = query'.params.map Value.kind? ∧
      ∀ value ∈ query.params, value.kind?.isSome := by
  obtain ⟨hrequest, hfilters⟩ := Request.eq_of_blank hblank
  obtain ⟨q, hq⟩ : ∃ q : Query, q = ⟨source, catalog, r⟩ := ⟨_, rfl⟩
  have hq' : q.refiltered r'.filters = ⟨source, catalog, r'⟩ := by
    rw [hq, hrequest]
    rfl
  unfold compileRequest at h h'
  rw [← hq] at h
  rw [← hq'] at h'
  have hblanks : Filter.blanks q.request.filters = Filter.blanks r'.filters := by
    rw [hq, hfilters]
  have hkinds := Query.kinds_compile h
  refine ⟨Query.sql_compile_refiltered hblanks h h', ?_, ?_⟩
  · rw [hkinds, Query.kinds_compile h', hblanks]
    rfl
  · intro value hvalue
    have hmem := List.mem_map_of_mem (f := Value.kind?) hvalue
    rw [hkinds] at hmem
    obtain ⟨fieldType, -, heq⟩ := List.mem_map.mp hmem
    rw [← heq]
    rfl

/-- The readings at a site, or those whose name contains a text. -/
def siteRequest (site text : String) : Request :=
  { Request.empty with
    fields := ["name"]
    filters :=
      [.any
        [.leaf { op := .eq, field := "site", fieldType := .integer, values := [site] },
          .leaf { op := .contains, field := "name", fieldType := .string, values := [text] }]] }

theorem check_siteRequest (site text : String) :
    Query.check ⟨.table "public" "readings", .empty, siteRequest site text⟩ = .ok () := by
  have hfield : Text.isBlankText "name" = false := by decide +kernel
  have hrequest : (siteRequest site text).fault? = none := by
    simp [siteRequest, Request.empty, Request.fault?, Request.isAggregated, hfield]
  exact Query.check_of_table rfl (by decide +kernel) (by decide +kernel) hrequest

/-- What looks like a piece of a statement is bound like any other text. -/
theorem compileRequest_independent_sites :
    ∃ query query' : ParametrizedQuery,
      compileRequest (siteRequest "7" "a") (.table "public" "readings") .empty .default =
        .ok query ∧
      compileRequest (siteRequest "12" "' OR 1 = 1") (.table "public" "readings") .empty
        .default = .ok query' ∧
      query'.params = [.int 12, .string "%' OR 1 = 1%"] ∧
      query.sql = query'.sql ∧
      query.params.map Value.kind? = query'.params.map Value.kind? := by
  have hplan : ∃ select,
      Query.plan ⟨.table "public" "readings", .empty, siteRequest "7" "a"⟩ .default = .ok select :=
    ⟨_, rfl⟩
  have hplan' : ∃ select,
      Query.plan ⟨.table "public" "readings", .empty, siteRequest "12" "' OR 1 = 1"⟩ .default =
          .ok select ∧
        select.params = [.int 12, .string "%' OR 1 = 1%"] :=
    ⟨_, rfl, rfl⟩
  obtain ⟨select, hplan⟩ := hplan
  obtain ⟨select', hplan', hparams'⟩ := hplan'
  obtain ⟨query, h, -⟩ := Query.compile_of_plan (check_siteRequest _ _) hplan
  obtain ⟨query', h', hselect'⟩ := Query.compile_of_plan (check_siteRequest _ _) hplan'
  have hblank : (siteRequest "7" "a").blank = (siteRequest "12" "' OR 1 = 1").blank := rfl
  obtain ⟨hsql, hkinds, -⟩ := compileRequest_independent hblank h h'
  exact ⟨query, query', h, h', hselect'.trans hparams', hsql, hkinds⟩

end PagedQuery
