import PagedQuery.Proofs.Query.Bindings
import PagedQuery.Proofs.Statement.Tokenized

/-!
# Lexical plans

A plan takes the names and strings of its request as they come, but writes them
as names and strings only. All else that it writes of its own are keywords,
functions, operators, finite numbers and the sentinel for timestamps, as long as
the request has no expression and the source is no query of the caller.

* `Expr.IsLexical.kept`: every way to build expressions outside of filters keeps them lexical;
* `predicateOf_isLexical`: the conditions of the filters are lexical as well;
* `Query.plan_isLexical`: whole plans;
* `Query.lex_plan`: the tokens of what is written of a plan, and what they carry.
-/

namespace PagedQuery

variable {dialect : Dialect}

/-- Whether a metric is an expression of the caller. -/
def Metric.isCalc : Metric → Bool
  | .calc .. => true
  | _ => false

theorem Expr.IsLexical.kept (dialect : Dialect) : Expr.Kept dialect (Expr.IsLexical dialect) where
  column := .column
  wildcard := .wildcard
  null := .null
  int := .int
  string := .string
  float := .float
  sentinel := .sentinel dialect
  compare := .compare
  arithmetic := .arithmetic
  isNull := .isNull
  case := .case
  coalesce := .coalesce
  all := .all
  call := .call
  cast := fun htype h => h.cast htype
  aggregate := fun func h => .aggregate func (by simpa using h)
  countRows := .aggregate .count (by simp)
  window := .window

/-! ## Filters -/

theorem Dialect.textSearch_isLexical {e query : Expr} (h : e.IsLexical dialect)
    (hquery : query.IsLexical dialect) : (dialect.textSearch e query).IsLexical dialect := by
  have hkept := Expr.IsLexical.kept dialect
  cases dialect with
  | postgres => exact .compare _ (hkept.call₁ (by decide) h) (hkept.call₁ (by decide) hquery)
  | mysql =>
    refine .compare _ (hkept.call₂ (by decide) ?_ ?_) (.int 0)
    · exact hkept.call₁ (by decide) h
    · exact hkept.call₁ (by decide) hquery
  | clickhouse => exact .compare _ (hkept.call₂ (by decide) h hquery) (.int 0)

theorem Leaf.stringPredicate_isLexical {column : Expr} (h : column.IsLexical dialect)
    (text : String) (op : LeafOp) : (stringPredicate dialect column text op).IsLexical dialect := by
  have hkept := Expr.IsLexical.kept dialect
  unfold stringPredicate
  split
  · exact .compare _ (hkept.call₁ (by decide) h) (hkept.call₁ (by decide) (.param _))
  · exact h.compare _ (.param _)
  · exact Dialect.textSearch_isLexical h (.param _)

theorem Leaf.predicate_isLexical {ctx : Context} {qualifier : Option String} {leaf : Leaf}
    {e : Expr} (h : leaf.predicate ctx qualifier = .ok e) : e.IsLexical ctx.dialect := by
  have hcolumn := (Expr.IsLexical.kept ctx.dialect).columnOf qualifier leaf.field
  rcases predicate_cases h with ⟨-, rfl⟩ | ⟨text, -, -, rfl⟩ | ⟨values, -, -, -, -, rfl⟩ |
    ⟨op, text, value, -, -, -, rfl⟩
  · exact hcolumn.isNull
  · exact stringPredicate_isLexical hcolumn text leaf.op
  · refine hcolumn.inList fun e he => ?_
    obtain ⟨value, -, rfl⟩ := List.mem_map.mp he
    exact .param value
  · exact hcolumn.compare op (.param value)

theorem Filter.predicates_isLexical {ctx : Context} {qualifier : Option String}
    (fs : List Filter) {es : List Expr} (h : Filter.predicates ctx qualifier fs = .ok es) :
    ∀ e ∈ es, e.IsLexical ctx.dialect := by
  have hall {filters : List Filter} {parts : List Expr}
      (hparts : List.Forall₂ (fun _ e => e.IsLexical ctx.dialect) filters parts) :
      ∀ e ∈ parts, e.IsLexical ctx.dialect := by
    intro e he
    obtain ⟨-, -, h⟩ := exists_mem_of_forall₂ hparts he
    exact h
  refine hall (Filter.predicates_induction ?_ ?_ ?_ ?_ fs h)
  · exact fun leaf e hleaf => leaf.predicate_isLexical hleaf
  · exact fun filter e hfilter => hfilter.not
  · exact fun filters es hfilters => .all (hall hfilters)
  · exact fun filters es hfilters => .any (hall hfilters)

/-- The condition of the filters of a request. -/
theorem predicateOf_isLexical {ctx : Context} {qualifier : Option String} {filters : List Filter}
    {filter : Option Expr} (h : predicateOf ctx qualifier filters = .ok filter) :
    ∀ e ∈ filter, e.IsLexical ctx.dialect := by
  rw [predicateOf_eq] at h
  obtain ⟨es, hes, h⟩ := bind_eq_ok_iff.mp h
  cases h
  have hparts := Filter.predicates_isLexical filters hes
  intro e he
  cases es with
  | nil => cases he
  | cons first rest =>
    cases rest with
    | nil =>
      cases he
      exact hparts e List.mem_cons_self
    | cons second others =>
      cases he
      exact .all hparts

/-! ## Relations and joins -/

theorem Source.relation_isLexical {source : Source} (h : source.isCustom = false)
    (aliasName : Option String) : (source.relation aliasName).IsLexical dialect := by
  cases source with
  | table schema name => exact Relation.isLexical_table schema name aliasName
  | custom sql => cases h

section

variable {filter : Option Expr} {dimensions : List Dimension}
  (hfilter : ∀ e ∈ filter, e.IsLexical dialect)
  (hdimensions : ∀ d ∈ dimensions, d.shape.IsFinite)
include hfilter hdimensions

theorem rankedSelect_isLexical {base : Relation} (hbase : base.IsLexical dialect)
    (windows : List PercentileWindow) :
    (rankedSelect dialect base filter dimensions windows).IsLexical dialect := by
  have hitems := (Expr.IsLexical.kept dialect).rankedItems hdimensions base filter windows
  exact Select.isLexical_of_clauses hitems hbase
    (fun join hjoin => absurd hjoin List.not_mem_nil) hfilter
    (fun e he => absurd he List.not_mem_nil) (fun key hkey => absurd hkey List.not_mem_nil)

theorem latestSelect_isLexical {source : Relation} (hsource : source.IsLexical dialect)
    (timeField : String) :
    (latestSelect dialect timeField source filter dimensions).IsLexical dialect := by
  have hkept := Expr.IsLexical.kept dialect
  have hitems := hkept.latestItems hdimensions timeField source filter
  have hkeys := hkept.dimensionKeys hdimensions source.qualifier
  exact Select.isLexical_of_clauses hitems hsource
    (fun join hjoin => absurd hjoin List.not_mem_nil) hfilter hkeys
    (fun key hkey => absurd hkey List.not_mem_nil)

end

namespace Query

variable {q : Query} {options : CompileOptions}

theorem lastValueJoins_isLexical {ctx : Context} {dimensions : List Dimension}
    {outer : Option String} {index : Nat} {times : List String} {joins : List Join}
    (hsource : q.source.isCustom = false) (hdimensions : ∀ d ∈ dimensions, d.shape.IsFinite)
    (h : q.lastValueJoins ctx dimensions outer index times = .ok joins) :
    ∀ join ∈ joins,
      join.relation.IsLexical ctx.dialect ∧ join.condition.IsLexical ctx.dialect := by
  induction times generalizing index joins with
  | nil =>
    cases h
    exact fun join hjoin => absurd hjoin List.not_mem_nil
  | cons timeField rest ih =>
    obtain ⟨filter, hfilter, h⟩ := bind_eq_ok_iff.mp h
    obtain ⟨others, hothers, h⟩ := bind_eq_ok_iff.mp h
    cases h
    have hlatest := latestSelect_isLexical (predicateOf_isLexical hfilter) hdimensions
      (q.source.relation_isLexical hsource (some lastValueSourceAlias)) timeField
    have hcondition := (Expr.IsLexical.kept ctx.dialect).lastValueCondition hdimensions index
      timeField (q.source.relation (some lastValueSourceAlias)) filter outer
    exact List.forall_mem_cons.mpr
      ⟨⟨Relation.isLexical_derived hlatest _, hcondition⟩, ih hothers⟩

/-! ## Plans -/

/-- The statement that is planned for a table, if the request has no expression of the caller. -/
theorem plan_isLexical {select : Select} (hsource : q.source.isCustom = false)
    (hcalc : ∀ metric ∈ q.request.metrics, metric.isCalc = false)
    (hplan : q.plan options = .ok select) : select.IsLexical options.dialect := by
  obtain ⟨p, hfits, rfl⟩ := plan_eq_ok_iff.mp hplan
  have hkept := Expr.IsLexical.kept options.dialect
  have hdimensions := hfits.dimensions_isFinite
  have hfilter : ∀ e ∈ p.filter, e.IsLexical options.dialect := predicateOf_isLexical hfits.filter
  have hbase : (q.base options).IsLexical options.dialect := q.source.relation_isLexical hsource _
  refine Select.isLexical_of_clauses (hfits.items hkept ?_) ?_ ?_ ?_ (hfits.groupBy hkept)
    (hfits.orderBy_expr hkept)
  · intro expression given hmetric
    cases hcalc _ hmetric
  · change (p.source q options).IsLexical options.dialect
    unfold PlanParts.source
    split
    · exact hbase
    · exact Relation.isLexical_derived (rankedSelect_isLexical hfilter hdimensions hbase _) _
  · exact lastValueJoins_isLexical hsource hdimensions hfits.joins
  · intro e he
    change e ∈ (if (q.windows options).isEmpty then p.filter else none) at he
    split at he
    · exact hfilter e he
    · cases he

/-- What is written of a plan is read as the tokens of the plan, lexeme by lexeme. The
identifiers among them carry the names of the plan, one each and from left to right, the strings
carry its strings, and there are as many question marks as bound values. The source must be a
table, and the request without expressions of the caller. Every plan of a query that passes its
check can be written. -/
theorem lex_plan {select : Select} (hsource : q.source.isCustom = false)
    (hcalc : ∀ metric ∈ q.request.metrics, metric.isCalc = false)
    (hplan : q.plan options = .ok select) :
    (q.check = .ok () → ∃ query, select.write options.dialect = .ok query) ∧
    ∀ query, select.write options.dialect = .ok query →
      ∃ tokens,
        options.dialect.lex query.sql.toList = some tokens ∧
        tokens = (select.lexemes options.dialect).flatMap (Lexeme.tokens options.dialect) ∧
        tokens.filterMap Token.name? = select.names ∧
        tokens.filterMap Token.string? = select.strings options.dialect ∧
        tokens.count .mark = query.params.length := by
  have hlexical := plan_isLexical hsource hcalc hplan
  refine ⟨fun hcheck => ?_, fun query hwrite => ?_⟩
  · obtain ⟨literals, -, hbinds⟩ := plan_bindsFilters hcheck hplan
    exact ⟨_, Select.write_eq_ok_iff.mpr ⟨hbinds.fault?, rfl⟩⟩
  · have hparams : query.params = select.params := by
      obtain ⟨-, rfl⟩ := Select.write_eq_ok_iff.mp hwrite
      rfl
    refine ⟨select.tokens options.dialect, hlexical.lex_write hwrite, rfl,
      hlexical.names_tokens, hlexical.strings_tokens, ?_⟩
    rw [hparams]
    exact hlexical.count_mark_tokens

/-- Names with quotes, and with what looks like a string or a placeholder. -/
def oddNames : Query :=
  { source := .table "My \x22schema\x22" "orders"
    catalog := .empty
    request :=
      { Request.empty with
        fields := ["a\x22b", "it's ?"]
        filters :=
          [.leaf { op := .contains, field := "\x60c", fieldType := .string, values := ["'?"] }] } }

/-- Each odd name is one identifier, and the only question mark is that of the bound value. -/
theorem lex_plan_oddNames :
    ∃ select query tokens,
      oddNames.plan { CompileOptions.default with dialect := .mysql } = .ok select ∧
      select.write .mysql = .ok query ∧
      query.params = [.string "%'?%"] ∧
      Dialect.lex .mysql query.sql.toList = some tokens ∧
      tokens.filterMap Token.name? =
        ["a\x22b", "it's ?", "My \x22schema\x22", "orders", "\x60c"] ∧
      tokens.filterMap Token.string? = [] ∧
      tokens.count .mark = 1 := by
  obtain ⟨select, hplan, hfault, hparams, hnames, hstrings⟩ : ∃ select : Select,
      oddNames.plan { CompileOptions.default with dialect := .mysql } = .ok select ∧
      select.fault? = none ∧
      select.params = [.string "%'?%"] ∧
      select.names = ["a\x22b", "it's ?", "My \x22schema\x22", "orders", "\x60c"] ∧
      select.strings .mysql = [] :=
    ⟨_, rfl, rfl, rfl, rfl, rfl⟩
  have hwrite : select.write .mysql = .ok _ := Select.write_eq_ok_iff.mpr ⟨hfault, rfl⟩
  obtain ⟨-, hread⟩ := lex_plan rfl (fun metric hmetric => absurd hmetric List.not_mem_nil) hplan
  obtain ⟨tokens, hlex, -, hnamed, hstringed, hmarks⟩ := hread _ hwrite
  refine ⟨select, _, tokens, hplan, hwrite, hparams, hlex, hnamed.trans hnames,
    hstringed.trans hstrings, ?_⟩
  rw [hmarks]
  exact congrArg List.length hparams

end Query

end PagedQuery
