import PagedQuery.Proofs.Statement.Numbers

/-!
# Lexical expressions and statements

Expressions and statements whose lexemes are all read as what they are: words
and operators in the characters of their kind, finite numbers, and no pieces but
the sentinel for timestamps. Names and strings may be anything.

* `Lexeme.AreTokens`, `Expr.IsLexical`, `Select.IsLexical`: lexemes, expressions, statements;
* `Expr.IsLexical.compare`, `Expr.IsLexical.call`, …: one lemma for each way to build one;
* `Select.isLexical_of_clauses`: statements are lexical if their clauses are.
-/

namespace PagedQuery

/-! ## Lists of lexemes -/

namespace Lexeme

variable {dialect : Dialect}

/-- Lexemes that are read as what they are. -/
def AreTokens (dialect : Dialect) (lexemes : List Lexeme) : Prop :=
  ∀ x ∈ lexemes, x.IsToken dialect

@[simp] theorem areTokens_nil : AreTokens dialect [] := fun _ h => absurd h List.not_mem_nil

@[simp] theorem areTokens_cons (x : Lexeme) (rest : List Lexeme) :
    AreTokens dialect (x :: rest) ↔ x.IsToken dialect ∧ AreTokens dialect rest :=
  List.forall_mem_cons

@[simp] theorem areTokens_append (a b : List Lexeme) :
    AreTokens dialect (a ++ b) ↔ AreTokens dialect a ∧ AreTokens dialect b :=
  List.forall_mem_append

@[simp] theorem isToken_space : IsToken dialect .space := trivial

@[simp] theorem isToken_word (text : String) :
    IsToken dialect (.word text) ↔ isWord text.toList = true := Iff.rfl

@[simp] theorem isToken_symbol (text : String) :
    IsToken dialect (.symbol text) ↔ isSymbol text.toList = true := Iff.rfl

@[simp] theorem isToken_number (text : String) :
    IsToken dialect (.number text) ↔ isNumber text.toList = true := Iff.rfl

@[simp] theorem isToken_name (text : String) : IsToken dialect (.name text) := trivial

@[simp] theorem isToken_quoted (text : String) : IsToken dialect (.quoted text) := trivial

@[simp] theorem isToken_param (value : Value) : IsToken dialect (.param value) := trivial

@[simp] theorem areTokens_words (ws : List String) :
    AreTokens dialect (words ws) ↔ ∀ w ∈ ws, isWord w.toList = true := by
  fun_induction words ws with
  | case1 => simp
  | case2 w => simp
  | case3 w next rest ih => simp [ih]

theorem areTokens_join {separator : List Lexeme} (hseparator : AreTokens dialect separator)
    (parts : List (List Lexeme)) :
    AreTokens dialect (join separator parts) ↔ ∀ part ∈ parts, AreTokens dialect part := by
  fun_induction join separator parts with
  | case1 => simp
  | case2 part => simp
  | case3 part next rest ih => simp [hseparator, ih]

@[simp] theorem areTokens_comma : AreTokens dialect comma := by
  simp +decide [comma]

@[simp] theorem areTokens_spaced (word : String) :
    AreTokens dialect (spaced word) ↔ isWord word.toList = true := by
  simp [spaced]

@[simp] theorem areTokens_join_comma (parts : List (List Lexeme)) :
    AreTokens dialect (join comma parts) ↔ ∀ part ∈ parts, AreTokens dialect part :=
  areTokens_join areTokens_comma parts

@[simp] theorem areTokens_parenthesized (lexemes : List Lexeme) :
    AreTokens dialect (parenthesized lexemes) ↔ AreTokens dialect lexemes := by
  simp +decide [parenthesized]

@[simp] theorem areTokens_application (function : String) (args : List Lexeme) :
    AreTokens dialect (application function args) ↔
      isWord function.toList = true ∧ AreTokens dialect args := by
  simp [application]

end Lexeme

open Lexeme

/-! ## Expressions -/

/-- An expression whose lexemes are read as what they are. -/
def Expr.IsLexical (dialect : Dialect) (e : Expr) : Prop :=
  AreTokens dialect (e.lexemes dialect)

variable {dialect : Dialect}

theorem ColumnRef.areTokens_lexemes (column : ColumnRef) : AreTokens dialect column.lexemes := by
  unfold ColumnRef.lexemes
  split <;> simp +decide

theorem areTokens_wildcardLexemes (qualifier : Option String) :
    AreTokens dialect (wildcardLexemes qualifier) := by
  cases qualifier <;> simp +decide [wildcardLexemes]

theorem Direction.areTokens_lexemes (direction : Direction) :
    AreTokens dialect direction.lexemes := by
  cases direction <;> simp +decide [Direction.lexemes]

theorem Comparison.isToken_lexeme (op : Comparison) : op.lexeme.IsToken dialect := by
  cases op <;> simp +decide [Comparison.lexeme, Comparison.symbol]

theorem Aggregation.areTokens_lexemes {arg : List Lexeme} (func : Aggregation)
    (h : AreTokens dialect arg) : AreTokens dialect (func.lexemes arg) := by
  cases func <;> simp +decide [Aggregation.lexemes, h]

theorem WindowFunction.areTokens_lexemes (func : WindowFunction) :
    AreTokens dialect func.lexemes := by
  cases func <;> simp +decide [WindowFunction.lexemes]

theorem ArithmeticOp.areTokens_lexemes {left right : List Lexeme} (op : ArithmeticOp)
    (hl : AreTokens dialect left) (hr : AreTokens dialect right) :
    AreTokens dialect (op.lexemes dialect left right) := by
  have hdouble : ∀ w ∈ dialect.doubleWords, isWord w.toList = true := by
    cases dialect <;> decide
  cases op with
  | divide => simpa +decide [ArithmeticOp.lexemes, hl, hr] using hdouble
  | _ => simp +decide [ArithmeticOp.lexemes, hl, hr]

theorem areTokens_clauseOf (keywords : List String) {list : List (List Lexeme)}
    (hkeywords : ∀ w ∈ keywords, isWord w.toList = true)
    (h : ∀ part ∈ list, AreTokens dialect part) :
    ∀ part ∈ clauseOf keywords list, AreTokens dialect part := by
  unfold clauseOf
  split
  · exact fun part hpart => absurd hpart List.not_mem_nil
  · simpa using ⟨hkeywords, h⟩

namespace Expr

theorem areTokens_lexemesList {es : List Expr} (h : ∀ e ∈ es, e.IsLexical dialect) :
    ∀ part ∈ lexemesList dialect es, AreTokens dialect part := by
  induction es with
  | nil => simp [lexemesList]
  | cons e rest ih =>
    rw [List.forall_mem_cons] at h
    rw [lexemesList, List.forall_mem_cons]
    exact ⟨h.1, ih h.2⟩

theorem areTokens_lexemesKeys {keys : List (Expr × Direction)}
    (h : ∀ key ∈ keys, key.1.IsLexical dialect) :
    ∀ part ∈ lexemesKeys dialect keys, AreTokens dialect part := by
  induction keys with
  | nil => simp [lexemesKeys]
  | cons key rest ih =>
    rw [List.forall_mem_cons] at h
    rw [lexemesKeys, List.forall_mem_cons, areTokens_append]
    exact ⟨⟨h.1, key.2.areTokens_lexemes⟩, ih h.2⟩

theorem areTokens_lexemesBranches {branches : List (Expr × Expr)}
    (h : ∀ branch ∈ branches, branch.1.IsLexical dialect ∧ branch.2.IsLexical dialect) :
    AreTokens dialect (lexemesBranches dialect branches) := by
  induction branches with
  | nil => exact areTokens_nil
  | cons branch rest ih =>
    rw [List.forall_mem_cons] at h
    obtain ⟨⟨hcondition, hvalue⟩, hrest⟩ := h
    unfold IsLexical at hcondition hvalue
    simp +decide [lexemesBranches, hcondition, hvalue, ih hrest]

namespace IsLexical

theorem column (ref : ColumnRef) : (Expr.column ref).IsLexical dialect :=
  ref.areTokens_lexemes

theorem param (value : Value) : (Expr.param value).IsLexical dialect := by
  simp [IsLexical, lexemes]

theorem null : Expr.null.IsLexical dialect := by
  simp +decide [IsLexical, Expr.null, lexemes, Literal.lexemes]

theorem int (i : Int) : (Expr.int i).IsLexical dialect := by
  simpa [IsLexical, Expr.int, lexemes, Literal.lexemes] using isNumber_toString_int i

theorem string (s : String) : (Expr.string s).IsLexical dialect := by
  simp [IsLexical, Expr.string, lexemes, Literal.lexemes]

theorem float {x : Binary64} (h : x.isFinite = true) :
    (Expr.literal (.float x)).IsLexical dialect := by
  simpa [IsLexical, lexemes, Literal.lexemes] using Binary64.isNumber_toString h

theorem sentinel (dialect : Dialect) : dialect.timestampSentinel.IsLexical dialect := by
  have hraw : ∃ sql, dialect.timestampSentinel = .raw sql := by
    cases dialect <;> exact ⟨_, rfl⟩
  obtain ⟨sql, hsql⟩ := hraw
  rw [hsql, IsLexical, lexemes, areTokens_cons]
  exact ⟨hsql.symm, areTokens_nil⟩

theorem wildcard (qualifier : Option String) : (Expr.wildcard qualifier).IsLexical dialect :=
  areTokens_wildcardLexemes qualifier

variable {e left right : Expr}

theorem compare (op : Comparison) (hl : left.IsLexical dialect) (hr : right.IsLexical dialect) :
    (Expr.compare left op right).IsLexical dialect := by
  unfold IsLexical at *
  simp [lexemes, hl, hr, op.isToken_lexeme]

theorem arithmetic (op : ArithmeticOp) (hl : left.IsLexical dialect)
    (hr : right.IsLexical dialect) : (Expr.arithmetic op left right).IsLexical dialect :=
  op.areTokens_lexemes hl hr

theorem inList {values : List Expr} (h : e.IsLexical dialect)
    (hvalues : ∀ value ∈ values, value.IsLexical dialect) :
    (Expr.inList e values).IsLexical dialect := by
  have hlist := areTokens_lexemesList hvalues
  unfold IsLexical at *
  simpa +decide [lexemes, h] using hlist

theorem all {parts : List Expr} (h : ∀ part ∈ parts, part.IsLexical dialect) :
    (Expr.all parts).IsLexical dialect := by
  have hlist := areTokens_lexemesList h
  cases parts with
  | nil => simp +decide [IsLexical, lexemes]
  | cons part rest =>
    have hsep : AreTokens dialect (spaced "AND") := by simp +decide
    simpa [IsLexical, lexemes, areTokens_join hsep] using hlist

theorem any {parts : List Expr} (h : ∀ part ∈ parts, part.IsLexical dialect) :
    (Expr.any parts).IsLexical dialect := by
  have hlist := areTokens_lexemesList h
  cases parts with
  | nil => simp +decide [IsLexical, lexemes]
  | cons part rest =>
    have hsep : AreTokens dialect (spaced "OR") := by simp +decide
    simpa [IsLexical, lexemes, areTokens_join hsep] using hlist

theorem not (h : e.IsLexical dialect) : (Expr.not e).IsLexical dialect := by
  unfold IsLexical at *
  simp +decide [lexemes, h]

theorem isNull (h : e.IsLexical dialect) : (Expr.isNull e).IsLexical dialect := by
  unfold IsLexical at *
  simp +decide [lexemes, h]

theorem case {branches : List (Expr × Expr)} {otherwise : Option Expr}
    (hbranches : ∀ branch ∈ branches, branch.1.IsLexical dialect ∧ branch.2.IsLexical dialect)
    (ho : ∀ e ∈ otherwise, e.IsLexical dialect) :
    (Expr.case branches otherwise).IsLexical dialect := by
  have hbody := areTokens_lexemesBranches hbranches
  have helse : AreTokens dialect (lexemesElse dialect otherwise) := by
    cases otherwise with
    | none => exact areTokens_nil
    | some e =>
      have he : AreTokens dialect (e.lexemes dialect) := ho e rfl
      simp +decide [lexemesElse, he]
  simp +decide [IsLexical, lexemes, hbody, helse]

theorem coalesce {es : List Expr} (h : ∀ e ∈ es, e.IsLexical dialect) :
    (Expr.coalesce es).IsLexical dialect := by
  have hlist := areTokens_lexemesList h
  simpa +decide [IsLexical, lexemes] using hlist

theorem call {function : String} {args : List Expr} (hfunction : isWord function.toList = true)
    (h : ∀ e ∈ args, e.IsLexical dialect) : (Expr.call function args).IsLexical dialect := by
  have hlist := areTokens_lexemesList h
  simpa [IsLexical, lexemes, hfunction] using hlist

theorem cast {typeName : String} (h : e.IsLexical dialect)
    (htype : isWord typeName.toList = true) : (Expr.cast e typeName).IsLexical dialect := by
  unfold IsLexical at *
  simp +decide [lexemes, h, htype]

theorem aggregate {arg : Option Expr} (func : Aggregation)
    (h : ∀ e ∈ arg, e.IsLexical dialect) : (Expr.aggregate func arg).IsLexical dialect := by
  refine func.areTokens_lexemes ?_
  cases arg with
  | none => simp +decide [lexemesArgument]
  | some e => exact h e rfl

theorem window {partitionBy : List Expr} {orderBy : List (Expr × Direction)}
    (func : WindowFunction) (hp : ∀ e ∈ partitionBy, e.IsLexical dialect)
    (ho : ∀ key ∈ orderBy, key.1.IsLexical dialect) :
    (Expr.window func partitionBy orderBy).IsLexical dialect := by
  have hpartition := areTokens_clauseOf ["PARTITION", "BY"] (by decide)
    (areTokens_lexemesList hp)
  have horder := areTokens_clauseOf ["ORDER", "BY"] (by decide)
    (areTokens_lexemesKeys ho)
  have hsep : AreTokens dialect [.space] := by simp
  have hclauses := List.forall_mem_append.mpr ⟨hpartition, horder⟩
  simpa +decide [IsLexical, lexemes, func.areTokens_lexemes, areTokens_join hsep] using hclauses

/-- Leaving out the outer parentheses leaves out no other lexeme. -/
theorem areTokens_conditionLexemes (h : e.IsLexical dialect) :
    AreTokens dialect (e.conditionLexemes dialect) := by
  cases e with
  | all parts =>
    cases parts with
    | nil => exact h
    | cons part rest => simpa [IsLexical, lexemes, conditionLexemes] using h
  | _ => exact h

end IsLexical

end Expr

/-! ## Statements -/

/-- A relation whose lexemes are read as what they are. -/
def Relation.IsLexical (dialect : Dialect) (relation : Relation) : Prop :=
  AreTokens dialect (relation.lexemes dialect)

/-- A statement whose lexemes are read as what they are. -/
def Select.IsLexical (dialect : Dialect) (s : Select) : Prop :=
  AreTokens dialect (s.lexemes dialect)

theorem areTokens_aliasLexemes (aliasName : String) :
    AreTokens dialect (aliasLexemes aliasName) := by
  simp +decide [aliasLexemes]

theorem SelectItem.areTokens_lexemes {item : SelectItem} (h : item.expr.IsLexical dialect) :
    AreTokens dialect (item.lexemes dialect) := by
  unfold SelectItem.lexemes
  split
  · exact h
  · split
    · exact h
    · exact (areTokens_append _ _).mpr ⟨h, areTokens_aliasLexemes _⟩

theorem areTokens_optionalClause (keywords : List String) {list : List (List Lexeme)}
    (hkeywords : ∀ w ∈ keywords, isWord w.toList = true)
    (h : ∀ part ∈ list, AreTokens dialect part) :
    AreTokens dialect (optionalClause keywords list) := by
  have hclauses := areTokens_clauseOf keywords hkeywords h
  intro x hx
  obtain ⟨clause, hclause, hx⟩ := List.mem_flatMap.mp hx
  rcases List.mem_cons.mp hx with rfl | hx
  · exact isToken_space
  · exact hclauses clause hclause x hx

theorem areTokens_numberClause (keyword : String) (n : Nat)
    (hkeyword : isWord keyword.toList = true) :
    AreTokens dialect (numberClause keyword n) := by
  have hnumber : isNumber (toString n).toList = true := isNumber_toString_int n
  simpa [numberClause, hkeyword] using hnumber

theorem areTokens_limitLexemes (limit offset : Option Nat) :
    AreTokens dialect (limitLexemes dialect limit offset) := by
  have hlimit (n : Nat) : AreTokens dialect (numberClause "LIMIT" n) :=
    areTokens_numberClause _ n (by decide)
  have hoffset (n : Nat) : AreTokens dialect (numberClause "OFFSET" n) :=
    areTokens_numberClause _ n (by decide)
  unfold limitLexemes
  split
  · exact (areTokens_append _ _).mpr ⟨hlimit _, hoffset _⟩
  · exact hlimit _
  · cases dialect with
    | postgres => exact hoffset _
    | mysql => exact (areTokens_append _ _).mpr ⟨hlimit _, hoffset _⟩
    | clickhouse => exact (areTokens_append _ _).mpr ⟨hlimit _, hoffset _⟩
  · exact areTokens_nil

theorem areTokens_filterLexemes {filter : Option Expr}
    (h : ∀ e ∈ filter, e.IsLexical dialect) :
    AreTokens dialect (filterLexemes dialect filter) := by
  cases filter with
  | none => exact areTokens_nil
  | some e =>
    have hcondition := (h e rfl).areTokens_conditionLexemes
    simp +decide [filterLexemes, hcondition]

/-- Names may be anything. -/
theorem Relation.isLexical_table (schema name : String) (aliasName : Option String) :
    (Relation.table schema name aliasName).IsLexical dialect := by
  change AreTokens dialect (tableLexemes schema name aliasName)
  unfold tableLexemes
  cases aliasName with
  | none => split <;> simp +decide
  | some aliasName => split <;> simp +decide [areTokens_aliasLexemes]

theorem Relation.isLexical_derived {select : Select} (h : select.IsLexical dialect)
    (aliasName : String) : (Relation.derived select aliasName).IsLexical dialect := by
  unfold Relation.IsLexical Select.IsLexical at *
  simp [Relation.lexemes, h, areTokens_aliasLexemes]

theorem areTokens_joinLexemes {joins : List Join}
    (h : ∀ join ∈ joins, join.relation.IsLexical dialect ∧ join.condition.IsLexical dialect) :
    AreTokens dialect (Select.joinLexemes dialect joins) := by
  induction joins with
  | nil => exact areTokens_nil
  | cons join rest ih =>
    rw [List.forall_mem_cons] at h
    obtain ⟨⟨hrelation, hcondition⟩, hrest⟩ := h
    obtain ⟨kind, relation, condition⟩ := join
    have hkind : ∀ w ∈ kind.words, isWord w.toList = true := by
      cases kind <;> decide
    have hon := hcondition.areTokens_conditionLexemes
    unfold Relation.IsLexical at hrelation
    simpa +decide [Select.joinLexemes, hrelation, hon, ih hrest] using hkind

/-- A statement is lexical if its clauses are. -/
theorem Select.isLexical_of_clauses {s : Select}
    (hitems : ∀ item ∈ s.items, item.expr.IsLexical dialect)
    (hsource : s.source.IsLexical dialect)
    (hjoins : ∀ join ∈ s.joins,
      join.relation.IsLexical dialect ∧ join.condition.IsLexical dialect)
    (hfilter : ∀ e ∈ s.filter, e.IsLexical dialect)
    (hgroupBy : ∀ e ∈ s.groupBy, e.IsLexical dialect)
    (horderBy : ∀ key ∈ s.orderBy, key.1.IsLexical dialect) : s.IsLexical dialect := by
  obtain ⟨distinct, items, source, joins, filter, groupBy, orderBy, limit, offset⟩ := s
  have hlist : ∀ part ∈ items.map (SelectItem.lexemes dialect), AreTokens dialect part := by
    intro part hpart
    obtain ⟨item, hitem, rfl⟩ := List.mem_map.mp hpart
    exact SelectItem.areTokens_lexemes (hitems item hitem)
  have hdistinct : AreTokens dialect (if distinct then [.word "DISTINCT", .space] else []) := by
    cases distinct <;> simp +decide
  have hgroup := areTokens_optionalClause ["GROUP", "BY"] (by decide)
    (Expr.areTokens_lexemesList hgroupBy)
  have horder := areTokens_optionalClause ["ORDER", "BY"] (by decide)
    (Expr.areTokens_lexemesKeys horderBy)
  have hselect : IsToken dialect (.word "SELECT") := by simp +decide
  have hfrom : AreTokens dialect (spaced "FROM") := by simp +decide
  unfold Select.IsLexical
  simp only [Select.lexemes, areTokens_append, areTokens_cons, areTokens_join_comma]
  exact ⟨⟨⟨⟨⟨⟨⟨⟨⟨hselect, isToken_space, hdistinct⟩, hlist⟩, hfrom⟩, hsource⟩,
    areTokens_joinLexemes hjoins⟩, areTokens_filterLexemes hfilter⟩, hgroup⟩, horder⟩,
    areTokens_limitLexemes limit offset⟩

end PagedQuery
