import PagedQuery.Proofs.Condition.Meaning
import PagedQuery.Proofs.Condition.ReadBack
import PagedQuery.Proofs.Query.Lexing

/-!
# Filters as they are read

The condition that filters become is read back as what they mean: whatever the
filters are and however deep, nothing regroups by the precedence of operators,
and every literal is compared with its own column.

* `Leaf.reads_predicate`: the condition of a leaf;
* `Filter.IsReadAs`, `Filter.reads_predicates`: the conditions of filters;
* `readWhere_eq_meaning`: the condition of the filters of a request.
-/

namespace PagedQuery

/-! ## Leaves -/

namespace Leaf

variable {dialect : Dialect} {qualifier : Option String}

/-- The column of a field. -/
theorem reads_columnOf (field : String) :
    (columnOf qualifier field).ReadsAs dialect (.column ⟨qualifier, field⟩) :=
  .column _

/-- Comparisons of strings, by the operator of the leaf. -/
theorem reads_stringPredicate {op : LeafOp} (hop : op.isStringOnly = true) (field text : String) :
    ∃ condition,
      (stringPredicate dialect (columnOf qualifier field) text op).IsReadWhole dialect condition ∧
      ∀ (db : Database) (row : ColumnRef → Value),
        condition.eval db row = match op with
          | .eqi => db.compare .eq (db.lower (row ⟨qualifier, field⟩)) (db.lower (.string text))
          | .contains =>
            db.compare .like (row ⟨qualifier, field⟩) (.string (Literal.likePattern text))
          | _ => db.textSearch dialect (row ⟨qualifier, field⟩) (.string text) := by
  have hcolumn : (columnOf qualifier field).ReadsAs dialect _ := reads_columnOf field
  have hlower {e : Expr} {operand : Operand} (h : e.ReadsAs dialect operand) :
      (Expr.call "LOWER" [e]).ReadsAs dialect (.call "LOWER" [operand]) :=
    h.call₁ (by decide) (by decide)
  cases op with
  | eqi =>
    exact ⟨_, ((hlower hcolumn).compare .eq (hlower (.param _))).isReadWhole rfl, fun _ _ => rfl⟩
  | contains => exact ⟨_, (hcolumn.compare .like (.param _)).isReadWhole rfl, fun _ _ => rfl⟩
  | textSearch =>
    have hquery : (Expr.param (.string text)).ReadsAs dialect _ := .param _
    cases dialect with
    | postgres =>
      have hvector : (Expr.call "TO_TSVECTOR" [columnOf qualifier field]).ReadsAs .postgres _ :=
        hcolumn.call₁ (by decide) (by decide)
      have hwords : (Expr.call "PLAINTO_TSQUERY" [.param (.string text)]).ReadsAs .postgres _ :=
        hquery.call₁ (by decide) (by decide)
      exact ⟨_, (hvector.compare .textMatch hwords).isReadWhole rfl, fun _ _ => rfl⟩
    | mysql =>
      have hposition : (Expr.call "INSTR" [.call "LOWER" [columnOf qualifier field],
          .call "LOWER" [.param (.string text)]]).ReadsAs .mysql _ :=
        (hlower hcolumn).call₂ (by decide) (by decide) (hlower hquery)
      exact ⟨_, (hposition.compare .gt (.int 0)).isReadWhole rfl, fun _ _ => rfl⟩
    | clickhouse =>
      have hposition : (Expr.call "positionCaseInsensitive" [columnOf qualifier field,
          .param (.string text)]).ReadsAs .clickhouse _ :=
        hcolumn.call₂ (by decide) (by decide) hquery
      exact ⟨_, (hposition.compare .gt (.int 0)).isReadWhole rfl, fun _ _ => rfl⟩
  | _ => cases hop

/-- The condition of a leaf is read as what the leaf means. -/
theorem reads_predicate {ctx : Context} {leaf : Leaf} {e : Expr}
    (h : leaf.predicate ctx qualifier = .ok e) :
    ∃ condition, e.IsReadWhole ctx.dialect condition ∧
      ∀ (db : Database) (row : ColumnRef → Value),
        condition.eval db row =
          leaf.meaning db ctx.dialect ctx.catalog fun field => row ⟨qualifier, field⟩ := by
  have hcolumn : (columnOf qualifier leaf.field).ReadsAs ctx.dialect _ := reads_columnOf _
  rcases predicate_cases h with ⟨hop, rfl⟩ | ⟨text, hop, hvalues, rfl⟩ |
    ⟨values, hop, hparsed, -, hne, rfl⟩ | ⟨op, text, value, hop, hvalues, hvalue, rfl⟩
  · refine ⟨_, hcolumn.isNull.isReadWhole rfl, fun db row => ?_⟩
    obtain ⟨op, field, fieldType, values⟩ := leaf
    cases hop
    rfl
  · obtain ⟨condition, hread, heval⟩ := reads_stringPredicate hop leaf.field text
    refine ⟨condition, hread, fun db row => ?_⟩
    rw [heval]
    obtain ⟨op, field, fieldType, values⟩ := leaf
    subst hvalues
    cases op with
    | eqi => rfl
    | contains => rfl
    | textSearch => rfl
    | _ => cases hop
  · obtain ⟨first, rest, rfl⟩ := List.exists_cons_of_ne_nil hne
    have hrest : List.Forall₂ (Expr.ReadsAs ctx.dialect) (rest.map .param)
        (rest.map Operand.value) :=
      List.forall₂_map_left_iff.mpr (List.forall₂_map_right_iff.mpr
        (List.forall₂_same.mpr fun value _ => .param value))
    refine ⟨_, (hcolumn.inList (.param first) hrest).isReadWhole rfl, fun db row => ?_⟩
    have hliterals : leaf.literals? ctx.catalog = some (first :: rest) := by
      simp [literals?, hop, hparsed]
    simp [meaning, hop, hliterals, Condition.eval, Operand.eval, Function.comp_def]
  · refine ⟨_, (hcolumn.compare op (.param value)).isReadWhole rfl, fun db row => ?_⟩
    obtain ⟨leafOp, field, fieldType, values⟩ := leaf
    subst hvalues
    cases leafOp <;> cases hop <;>
      simp [meaning, literals?, hvalue, Condition.eval, Operand.eval]

end Leaf

/-! ## Filters -/

/-- The expression is read as a condition that is, in every row and every database, what the
filter means. -/
def Filter.IsReadAs (ctx : Context) (qualifier : Option String) (f : Filter) (e : Expr) : Prop :=
  ∃ condition, e.IsReadWhole ctx.dialect condition ∧
    ∀ (db : Database) (row : ColumnRef → Value),
      condition.eval db row =
        f.meaning db ctx.dialect ctx.catalog fun field => row ⟨qualifier, field⟩

namespace Filter.IsReadAs

variable {ctx : Context} {qualifier : Option String} {f : Filter} {fs : List Filter} {e : Expr}
  {es : List Expr}

theorem not (h : f.IsReadAs ctx qualifier e) :
    (Filter.not f).IsReadAs ctx qualifier (.not e) := by
  obtain ⟨condition, hread, heval⟩ := h
  refine ⟨_, hread.factor.not.isReadWhole rfl, fun db row => ?_⟩
  rw [Condition.eval, heval, Filter.meaning]

/-- The conditions of a list of filters, one for each. -/
theorem exists_conditions (h : List.Forall₂ (IsReadAs ctx qualifier) fs es) :
    ∃ conditions, List.Forall₂ (Expr.IsReadWhole ctx.dialect) es conditions ∧
      ∀ (db : Database) (row : ColumnRef → Value),
        conditions.map (Condition.eval db row) =
          Filter.meanings db ctx.dialect ctx.catalog (fun field => row ⟨qualifier, field⟩) fs := by
  induction h with
  | nil => exact ⟨[], .nil, fun _ _ => rfl⟩
  | cons hfirst _ ih =>
    obtain ⟨condition, hread, heval⟩ := hfirst
    obtain ⟨conditions, hreads, hevals⟩ := ih
    refine ⟨condition :: conditions, .cons hread hreads, fun db row => ?_⟩
    rw [List.map_cons, heval, hevals, Filter.meanings]

theorem all (h : List.Forall₂ (IsReadAs ctx qualifier) fs es) :
    (Filter.all fs).IsReadAs ctx qualifier (.all es) := by
  obtain ⟨conditions, hread, heval⟩ := exists_conditions h
  cases hread with
  | nil =>
    refine ⟨_, .allNil, fun db row => ?_⟩
    rw [Filter.meaning, ← heval]
    exact db.compare_eq_int 1 1
  | @cons part condition parts conditions hfirst hothers =>
    refine ⟨_, .all hfirst.factor (hothers.imp fun _ _ hpart => hpart.factor), fun db row => ?_⟩
    rw [Condition.eval_foldl_and, heval, Filter.meaning]

theorem any (h : List.Forall₂ (IsReadAs ctx qualifier) fs es) :
    (Filter.any fs).IsReadAs ctx qualifier (.any es) := by
  obtain ⟨conditions, hread, heval⟩ := exists_conditions h
  cases hread with
  | nil =>
    refine ⟨_, .anyNil, fun db row => ?_⟩
    rw [Filter.meaning, ← heval]
    exact db.compare_eq_int 1 0
  | @cons part condition parts conditions hfirst hothers =>
    refine ⟨_, .any hfirst.factor (hothers.imp fun _ _ hpart => hpart.factor), fun db row => ?_⟩
    rw [Condition.eval_foldl_or, heval, Filter.meaning]

end Filter.IsReadAs

/-- The conditions of filters are read as what the filters mean. -/
theorem Filter.reads_predicates {ctx : Context} {qualifier : Option String} (fs : List Filter)
    {es : List Expr} (h : Filter.predicates ctx qualifier fs = .ok es) :
    List.Forall₂ (IsReadAs ctx qualifier) fs es := by
  refine Filter.predicates_induction ?_ ?_ ?_ ?_ fs h
  · exact fun leaf e hleaf => leaf.reads_predicate hleaf
  · exact fun filter e hfilter => hfilter.not
  · exact fun filters es hfilters => .all hfilters
  · exact fun filters es hfilters => .any hfilters

/-- The text that is written after `WHERE` for filters, read by the precedence of its operators
and with the values that it binds, is in every row and every database the conjunction of what
the filters mean. -/
theorem readWhere_eq_meaning {ctx : Context} {qualifier : Option String} {filters : List Filter}
    {filter : Option Expr} (hne : filters ≠ [])
    (h : predicateOf ctx qualifier filters = .ok filter) :
    ∃ condition,
      ctx.dialect.readWhere? (Lexeme.text ctx.dialect (filterLexemes ctx.dialect filter))
          (Lexeme.params (filterLexemes ctx.dialect filter)) = some condition ∧
      ∀ (db : Database) (row : ColumnRef → Value),
        condition.eval db row =
          .all (Filter.meanings db ctx.dialect ctx.catalog (fun field => row ⟨qualifier, field⟩)
            filters) := by
  have hlexical := predicateOf_isLexical h
  rw [predicateOf_eq] at h
  obtain ⟨es, hes, h⟩ := bind_eq_ok_iff.mp h
  have hfilters := Filter.reads_predicates filters hes
  have hfold : ∃ e, filter = some e ∧ (Filter.all filters).IsReadAs ctx qualifier e := by
    cases h
    cases hfilters with
    | nil => exact absurd rfl hne
    | @cons f e fs es hfirst hothers =>
      cases hothers with
      | nil =>
        -- a single filter is written without a conjunction around it
        obtain ⟨condition, hread, heval⟩ := hfirst
        refine ⟨e, rfl, condition, hread, fun db row => ?_⟩
        rw [heval, Filter.meaning]
        exact (Truth.and_holds _).symm
      | cons hsecond hrest => exact ⟨_, rfl, .all (.cons hfirst (.cons hsecond hrest))⟩
  obtain ⟨e, rfl, condition, hread, heval⟩ := hfold
  exact ⟨condition, Dialect.readWhere?_of_isReadWhole (hlexical e rfl) hread, heval⟩

/-- A database that compares whole numbers and takes other values to be equal only to
themselves. -/
def plainDatabase : Database where
  holds
    | .lt, .int i, .int j => i < j
    | .le, .int i, .int j => i ≤ j
    | .gt, .int i, .int j => j < i
    | .ge, .int i, .int j => j ≤ i
    | .eq, left, right => left = right
    | _, _, _ => false
  call := fun _ _ => .null
  eq_int := fun i j => by simp

/-- The readings of a site, and those whose value is not high, as long as they are not gone. -/
def readingFilters : List Filter :=
  [.any
    [.leaf { op := .eq, field := "site", fieldType := .integer, values := ["7"] },
      .not (.all
        [.leaf { op := .ge, field := "value", fieldType := .integer, values := ["3"] },
          .any []])],
    .leaf { op := .isNull, field := "gone", fieldType := .unknown, values := [] }]

/-- A reading of another site without a value. -/
def emptyReading : ColumnRef → Value
  | ⟨some "t", "site"⟩ => .int 8
  | _ => .null

/-- The comparison with the missing value is unknown, but does not matter. -/
theorem readWhere_eq_meaning_readings :
    ∃ condition,
      Dialect.readWhere? .postgres
          " WHERE (t.site = ? OR NOT ((t.value >= ? AND 1 = 0))) AND t.gone IS NULL"
          [.int 7, .int 3] = some condition ∧
        condition.eval plainDatabase emptyReading = .holds := by
  have hfilter : predicateOf ⟨.empty, .postgres⟩ (some "t") readingFilters = .ok _ := rfl
  obtain ⟨condition, hread, heval⟩ := readWhere_eq_meaning (List.cons_ne_nil _ _) hfilter
  refine ⟨condition, hread, ?_⟩
  rw [heval]
  rfl

end PagedQuery
