import PagedQuery.Proofs.Query.Literals
import PagedQuery.Proofs.Statement.Mentions

/-!
# Kinds of literals

The condition of a filter is made of the conditions of its leaves. Each of them
is about one column, and what it binds has the type of that column: the type
that the catalog knows, or the one that the leaf declares where nothing is
known. Only comparisons of strings do not ask what the leaf declares.

* `FieldType.admits`: the values of a type;
* `Leaf.literalType`: the type that the literals of a leaf must have;
* `Expr.atoms`: the conditions that a condition is made of;
* `Leaf.WellTyped`: a column and what it is compared with;
* `wellTyped_of_predicateOf`: the conditions of the leaves of filters.
-/

namespace PagedQuery

/-! ## Types of values -/

/-- Whether a value is of the type. Doubles are finite, and dates may have a time of day. -/
def FieldType.admits : FieldType → Value → Bool
  | .integer, .int _ => true
  | .double, .float x => x.isFinite
  | .string, .string _ => true
  | .date, .date _ => true
  | .date, .timestamp _ => true
  | _, _ => false

/-- A literal is read as a value of the type. -/
theorem Literal.admits_of_parse? {text : String} {fieldType : FieldType} {value : Value}
    (h : parse? text fieldType = some value) : fieldType.admits value = true := by
  cases fieldType with
  | integer =>
    obtain ⟨i, -, rfl⟩ := Option.map_eq_some_iff.mp h
    rfl
  | double =>
    change double? _ = some value at h
    unfold double? at h
    split at h
    · split at h
      · rename_i hfinite
        cases h
        exact hfinite
      · cases h
    · cases h
  | string =>
    cases h
    rfl
  | date =>
    simp only [parse?, date?, Option.orElse_eq_orElse, Option.orElse_eq_or, Option.or_eq_some_iff,
      Option.map_eq_some_iff] at h
    rcases h with ⟨date, -, rfl⟩ |
      ⟨-, ⟨local₁, -, rfl⟩ | ⟨-, ⟨local₂, -, rfl⟩ | ⟨-, zoned, -, rfl⟩⟩⟩
    · rfl
    · rfl
    · rfl
    · rfl
  | unknown => cases h

namespace Leaf

/-- The type that the literals of a leaf must have: the one that is known of the field, and the
declared one if none is. -/
def literalType (catalog : Catalog) (leaf : Leaf) : FieldType :=
  match catalog.fieldType leaf.field with
  | .unknown => leaf.fieldType
  | known => known

/-- The literals of a leaf are read as that type, which says something. -/
theorem resolveType_eq_ok {catalog : Catalog} {leaf : Leaf} {fieldType : FieldType}
    (h : leaf.resolveType catalog = .ok fieldType) :
    fieldType = leaf.literalType catalog ∧ fieldType ≠ .unknown := by
  unfold resolveType at h
  unfold literalType
  by_cases hdeclared : leaf.fieldType = .unknown
  · -- nothing is declared, so the type is known
    simp only [hdeclared, if_true] at h
    split at h
    · cases h
    · rename_i hknown
      cases h
      exact ⟨by split <;> simp_all, hknown⟩
  · simp only [hdeclared, if_false] at h
    split at h
    · rename_i hagree
      cases h
      refine ⟨?_, hdeclared⟩
      rcases hagree with hunknown | hsame
      · rw [hunknown]
      · rw [← hsame]
        split
        · rfl
        · rfl
    · cases h

/-- A literal of a leaf has the type that it must have. -/
theorem admits_of_literal? {catalog : Catalog} {leaf : Leaf} {text : String} {value : Value}
    (h : leaf.literal? catalog text = some value) :
    leaf.literalType catalog ≠ .unknown ∧ (leaf.literalType catalog).admits value = true := by
  unfold literal? at h
  split at h
  · rename_i fieldType htype
    obtain ⟨rfl, hknown⟩ := resolveType_eq_ok htype
    exact ⟨hknown, Literal.admits_of_parse? h⟩
  · cases h

/-! ## Conditions of leaves -/

/-- The condition of a leaf is about its column alone. It binds nothing to test for null, one
string to compare strings, in a column that may have them, and else the literals of the leaf, all
of the type that they must have. -/
structure WellTyped (catalog : Catalog) (qualifier : Option String) (leaf : Leaf) (e : Expr) :
    Prop where
  column : e.columns = [⟨qualifier, leaf.field⟩]
  null : leaf.op = .isNull → e.params = []
  strings : leaf.op.isStringOnly = true →
    (catalog.fieldType leaf.field = .string ∨ catalog.fieldType leaf.field = .unknown) ∧
      ∃ text, e.params = [.string text]
  typed : leaf.op ≠ .isNull → leaf.op.isStringOnly = false →
    leaf.literalType catalog ≠ .unknown ∧ e.params.length = leaf.values.length ∧
      ∀ value ∈ e.params, (leaf.literalType catalog).admits value = true

theorem columns_inList (e : Expr) (values : List Value) :
    (Expr.inList e (values.map .param)).columns = e.columns := by
  have hparams : Expr.mentionsList (values.map .param) false = [] := by
    induction values with
    | nil => rfl
    | cons value rest ih => simpa [Expr.mentionsList, Expr.mentions] using ih
  rw [Expr.columns, Expr.mentions, hparams, List.append_nil]
  rfl

/-- A comparison of strings, in any dialect, is about one column and binds one string. -/
theorem wellTyped_stringPredicate {catalog : Catalog} {leaf : Leaf}
    (hop : leaf.op.isStringOnly = true)
    (htype : catalog.fieldType leaf.field = .string ∨ catalog.fieldType leaf.field = .unknown)
    (dialect : Dialect) (qualifier : Option String) (text : String) :
    leaf.WellTyped catalog qualifier
      (stringPredicate dialect (columnOf qualifier leaf.field) text leaf.op) := by
  have hnull : leaf.op ≠ .isNull := by
    intro h
    rw [h] at hop
    cases hop
  have hshape : ∃ bound,
      (stringPredicate dialect (columnOf qualifier leaf.field) text leaf.op).params =
        [.string bound] ∧
      (stringPredicate dialect (columnOf qualifier leaf.field) text leaf.op).columns =
        [⟨qualifier, leaf.field⟩] := by
    unfold stringPredicate
    split
    · exact ⟨text, rfl, rfl⟩
    · exact ⟨Literal.likePattern text, rfl, rfl⟩
    · exact ⟨text, by cases dialect <;> rfl, by cases dialect <;> rfl⟩
  obtain ⟨bound, hparams, hcolumns⟩ := hshape
  exact
    { column := hcolumns
      null := fun h => absurd h hnull
      strings := fun _ => ⟨htype, bound, hparams⟩
      typed := fun _ h => absurd hop (by rw [h]; exact Bool.false_ne_true) }

/-- The known type of a field whose strings are compared. -/
theorem fieldType_of_predicate {ctx : Context} {qualifier : Option String} {leaf : Leaf} {e : Expr}
    (hop : leaf.op.isStringOnly = true) (h : leaf.predicate ctx qualifier = .ok e) :
    ctx.catalog.fieldType leaf.field = .string ∨ ctx.catalog.fieldType leaf.field = .unknown := by
  have hnull : leaf.op ≠ .isNull := by
    intro hnull
    rw [hnull] at hop
    cases hop
  rw [predicate, if_neg hnull, if_pos hop] at h
  dsimp only at h
  split at h
  · assumption
  · cases h

/-- The condition that a leaf becomes. -/
theorem wellTyped_predicate {ctx : Context} {qualifier : Option String} {leaf : Leaf} {e : Expr}
    (h : leaf.predicate ctx qualifier = .ok e) : leaf.WellTyped ctx.catalog qualifier e := by
  rcases predicate_cases h with ⟨hop, rfl⟩ | ⟨text, hop, -, rfl⟩ |
    ⟨values, hop, hparsed, hlength, hne, rfl⟩ | ⟨op, text, value, hop, hvalues, hvalue, rfl⟩
  · exact
      { column := rfl
        null := fun _ => rfl
        strings := fun hstring => absurd hstring (by rw [hop]; exact Bool.false_ne_true)
        typed := fun hnull => absurd hop hnull }
  · exact wellTyped_stringPredicate hop (fieldType_of_predicate hop h) ..
  · -- every value of a choice is that of a literal
    have hadmits : ∀ value ∈ values, leaf.literalType ctx.catalog ≠ .unknown ∧
        (leaf.literalType ctx.catalog).admits value = true := by
      intro value hvalue
      obtain ⟨text, -, htext⟩ := exists_of_mapM_eq_some hparsed hvalue
      exact admits_of_literal? htext
    have hparams : (Expr.inList (columnOf qualifier leaf.field) (values.map .param)).params =
        values := by
      rw [Expr.params, paramsList_map_param]
      rfl
    obtain ⟨first, rest, rfl⟩ := List.exists_cons_of_ne_nil hne
    exact
      { column := columns_inList ..
        null := fun hnull => by rw [hnull] at hop; cases hop
        strings := fun hstring => absurd hstring (by rw [hop]; exact Bool.false_ne_true)
        typed := fun _ _ => by
          rw [hparams]
          exact ⟨(hadmits first List.mem_cons_self).1, hlength, fun v hv => (hadmits v hv).2⟩ }
  · obtain ⟨hknown, hadmits⟩ := admits_of_literal? hvalue
    exact
      { column := rfl
        null := fun hnull => by rw [hnull] at hop; cases hop
        strings := fun hstring => by
          revert hop hstring
          cases leaf.op <;> exact nofun
        typed := fun _ _ => ⟨hknown, by rw [hvalues]; rfl, by
          intro v hv
          cases List.mem_singleton.mp hv
          exact hadmits⟩ }

end Leaf

/-! ## Conditions of filters -/

mutual

/-- The conditions that a condition is made of by conjunction, disjunction and negation. -/
def Expr.atoms : Expr → List Expr
  | .all parts => Expr.atomsOf parts
  | .any parts => Expr.atomsOf parts
  | .not e => e.atoms
  | e => [e]
termination_by structural e => e

def Expr.atomsOf : List Expr → List Expr
  | [] => []
  | e :: rest => e.atoms ++ Expr.atomsOf rest
termination_by structural es => es

end

theorem Expr.atoms_conjunctionOf (es : List Expr) :
    (conjunctionOf es).elim [] Expr.atoms = Expr.atomsOf es := by
  unfold conjunctionOf
  split
  · rfl
  · exact (List.append_nil _).symm
  · rfl

/-- The condition of a leaf is not made of others. -/
theorem Leaf.atoms_predicate {ctx : Context} {qualifier : Option String} {leaf : Leaf} {e : Expr}
    (h : leaf.predicate ctx qualifier = .ok e) : e.atoms = [e] := by
  rcases predicate_cases h with ⟨-, rfl⟩ | ⟨text, -, -, rfl⟩ | ⟨values, -, -, -, -, rfl⟩ |
    ⟨op, text, value, -, -, -, rfl⟩
  · rfl
  · unfold stringPredicate
    split
    · rfl
    · rfl
    · cases ctx.dialect <;> rfl
  · rfl
  · rfl

/-- The condition is made of one condition for each leaf of the filter, and binds what they bind. -/
def Filter.AtomsFit (catalog : Catalog) (qualifier : Option String) (f : Filter) (e : Expr) :
    Prop :=
  List.Forall₂ (Leaf.WellTyped catalog qualifier) f.leaves e.atoms ∧
    e.params = e.atoms.flatMap Expr.params

theorem Filter.AtomsFit.list {catalog : Catalog} {qualifier : Option String} {fs : List Filter}
    {es : List Expr} (h : List.Forall₂ (AtomsFit catalog qualifier) fs es) :
    List.Forall₂ (Leaf.WellTyped catalog qualifier) (leavesOf fs) (Expr.atomsOf es) ∧
      Expr.paramsList es = (Expr.atomsOf es).flatMap Expr.params := by
  induction h with
  | nil => exact ⟨.nil, rfl⟩
  | cons hfirst _ ih =>
    obtain ⟨htyped, hparams⟩ := hfirst
    obtain ⟨htyped', hparams'⟩ := ih
    refine ⟨List.rel_append htyped htyped', ?_⟩
    rw [Expr.paramsList, Expr.atomsOf, List.flatMap_append, hparams, hparams']

/-- The condition of filters is made of one condition for each of their leaves, from left to right,
and binds what these bind. Each is about the column of its leaf, and what it binds is of the type
that is known of the column, or of the declared type where none is known. Comparisons of strings
bind strings and are made with columns of strings, or of which nothing is known, whatever is
declared. -/
theorem wellTyped_of_predicateOf {ctx : Context} {qualifier : Option String}
    {filters : List Filter} {condition : Option Expr}
    (h : predicateOf ctx qualifier filters = .ok condition) :
    List.Forall₂ (Leaf.WellTyped ctx.catalog qualifier) (flattenFilters filters)
        (condition.elim [] Expr.atoms) ∧
      Expr.paramsOption condition = (condition.elim [] Expr.atoms).flatMap Expr.params := by
  rw [predicateOf_eq] at h
  obtain ⟨es, hes, h⟩ := bind_eq_ok_iff.mp h
  cases h
  rw [Expr.atoms_conjunctionOf, paramsOption_conjunctionOf]
  refine Filter.AtomsFit.list (Filter.predicates_induction ?_ ?_ ?_ ?_ filters hes)
  · intro leaf e hleaf
    have hatoms := Leaf.atoms_predicate hleaf
    refine ⟨?_, ?_⟩
    · rw [hatoms]
      exact .cons (Leaf.wellTyped_predicate hleaf) .nil
    · rw [hatoms, List.flatMap_singleton]
  · exact fun filter e hfilter => hfilter
  · exact fun filters es hfilters => Filter.AtomsFit.list hfilters
  · exact fun filters es hfilters => Filter.AtomsFit.list hfilters

/-- Fields of orders, of one of which the type is not known. -/
def orderCatalog : Catalog :=
  .ofList
    [⟨"price", .double, [], none, []⟩, ⟨"day", .date, [], none, []⟩,
      ⟨"name", .unknown, [], none, []⟩]

/-- Orders by price, day, name and a field that the catalog does not have. The name is declared to
be a number, which does not matter for a comparison of strings. -/
def orderFilters : List Filter :=
  [.any
    [.leaf { op := .ge, field := "price", fieldType := .unknown, values := ["2.5"] },
      .not (.leaf
        { op := .isIn, field := "day", fieldType := .date
          values := ["2024-01-31", "2024-01-31T10:00:00Z"] })],
    .leaf { op := .eqi, field := "name", fieldType := .integer, values := ["Ada"] },
    .leaf { op := .lt, field := "rank", fieldType := .integer, values := [" 7 "] }]

theorem wellTyped_of_predicateOf_orders :
    ∃ condition,
      predicateOf ⟨orderCatalog, .clickhouse⟩ (some "t") orderFilters = .ok (some condition) ∧
      condition.params.map Value.text =
        ["2.5", "2024-01-31", "2024-01-31T10:00:00", "Ada", "7"] ∧
      List.Forall₂ (Leaf.WellTyped orderCatalog (some "t")) (flattenFilters orderFilters)
        condition.atoms := by
  have hfilters : ∃ condition,
      predicateOf ⟨orderCatalog, .clickhouse⟩ (some "t") orderFilters = .ok (some condition) ∧
      condition.params.map Value.text =
        ["2.5", "2024-01-31", "2024-01-31T10:00:00", "Ada", "7"] :=
    ⟨_, rfl, by decide +kernel⟩
  obtain ⟨condition, hcondition, htexts⟩ := hfilters
  obtain ⟨htyped, -⟩ := wellTyped_of_predicateOf hcondition
  exact ⟨condition, hcondition, htexts, htyped⟩

end PagedQuery
