import Mathlib.Data.List.Chain
import PagedQuery.Statement.Text

/-!
# Spacing of lexemes

However an expression or statement is made, two lexemes that would run together
never stand side by side: a space, a parenthesis or a comma is between them, or
a point after a name.

* `Lexeme.Separate`, `Lexeme.Spaced`: lexemes that do not run together, and lists of them;
* `Lexeme.Follows`: lists that may follow any other;
* `Expr.spaced_lexemes`, `Select.spaced_lexemes`: expressions and statements are such lists.
-/

namespace PagedQuery

namespace Lexeme

/-! ## Gaps -/

/-- Spaces, parentheses and commas, which no token runs into. -/
def isGap : Lexeme → Bool
  | .space => true
  | .symbol text => text = "(" || text = ")" || text = ","
  | _ => false

/-- Lexemes that do not run together. -/
inductive Separate : Lexeme → Lexeme → Prop where
  | after {x y : Lexeme} (h : x.isGap = true) : Separate x y
  | before {x y : Lexeme} (h : y.isGap = true) : Separate x y
  | afterPoint {y : Lexeme} : Separate (.symbol ".") y
  | beforePoint {text : String} : Separate (.name text) (.symbol ".")

/-- No two lexemes run together. -/
def Spaced (lexemes : List Lexeme) : Prop :=
  lexemes.IsChain Separate

@[simp] theorem isGap_space : isGap .space = true := by simp [isGap]

@[simp] theorem isGap_open : isGap (.symbol "(") = true := by simp [isGap]

@[simp] theorem isGap_close : isGap (.symbol ")") = true := by simp [isGap]

@[simp] theorem isGap_comma : isGap (.symbol ",") = true := by simp [isGap]

@[simp] theorem spaced_nil : Spaced [] := List.isChain_nil

@[simp] theorem spaced_singleton (x : Lexeme) : Spaced [x] := List.isChain_singleton x

@[simp] theorem spaced_gap_cons {g : Lexeme} (hg : g.isGap = true) (b : List Lexeme) :
    Spaced (g :: b) ↔ Spaced b := by
  unfold Spaced
  rw [List.isChain_cons]
  exact and_iff_right fun _ _ => .after hg

@[simp] theorem spaced_append_gap_cons {g : Lexeme} (hg : g.isGap = true) (a b : List Lexeme) :
    Spaced (a ++ g :: b) ↔ Spaced a ∧ Spaced b := by
  have hrest := spaced_gap_cons hg b
  unfold Spaced at *
  rw [List.isChain_append, hrest]
  refine ⟨fun h => ⟨h.1, h.2.1⟩, fun h => ⟨h.1, h.2, ?_⟩⟩
  intro x _ y hy
  cases Option.some.inj hy
  exact .before hg

/-- A single lexeme before a gap. -/
@[simp] theorem spaced_cons_gap_cons {g : Lexeme} (hg : g.isGap = true) (x : Lexeme)
    (b : List Lexeme) : Spaced (x :: g :: b) ↔ Spaced b := by
  simpa using spaced_append_gap_cons hg [x] b

@[simp] theorem spaced_append_gap {g : Lexeme} (hg : g.isGap = true) (a : List Lexeme) :
    Spaced (a ++ [g]) ↔ Spaced a := by
  simpa using spaced_append_gap_cons hg a []

@[simp] theorem spaced_parenthesized (lexemes : List Lexeme) :
    Spaced (parenthesized lexemes) ↔ Spaced lexemes := by
  simp [parenthesized]

@[simp] theorem spaced_application (function : String) (args : List Lexeme) :
    Spaced (application function args) ↔ Spaced args := by
  simp [application, parenthesized]

theorem spaced_words (ws : List String) : Spaced (words ws) := by
  fun_induction words ws with
  | case1 => simp
  | case2 w => simp
  | case3 w next rest ih => simpa using ih

/-- Lists with a separator that nothing runs into. -/
theorem spaced_join {separator : List Lexeme}
    (hseparator : ∀ a b, Spaced (a ++ separator ++ b) ↔ Spaced a ∧ Spaced b)
    (parts : List (List Lexeme)) :
    Spaced (join separator parts) ↔ ∀ part ∈ parts, Spaced part := by
  fun_induction join separator parts with
  | case1 => simp
  | case2 part => simp
  | case3 part next rest ih => simp only [hseparator, ih, List.forall_mem_cons]

@[simp] theorem spaced_join_comma (parts : List (List Lexeme)) :
    Spaced (join comma parts) ↔ ∀ part ∈ parts, Spaced part :=
  spaced_join (by simp [comma]) parts

@[simp] theorem spaced_join_spaced (word : String) (parts : List (List Lexeme)) :
    Spaced (join (spaced word) parts) ↔ ∀ part ∈ parts, Spaced part :=
  spaced_join (by simp [spaced]) parts

@[simp] theorem spaced_join_space (parts : List (List Lexeme)) :
    Spaced (join [.space] parts) ↔ ∀ part ∈ parts, Spaced part :=
  spaced_join (by simp) parts

/-- Lists that may follow any other. -/
def Follows (b : List Lexeme) : Prop :=
  ∀ a, Spaced a → Spaced (a ++ b)

theorem follows_nil : Follows [] := fun a ha => by rwa [List.append_nil]

theorem follows_space_cons {b : List Lexeme} (hb : Spaced b) : Follows (.space :: b) :=
  fun a ha => (spaced_append_gap_cons isGap_space a b).mpr ⟨ha, hb⟩

theorem Follows.append {a b : List Lexeme} (ha : Follows a) (hb : Follows b) :
    Follows (a ++ b) := by
  intro c hc
  rw [← List.append_assoc]
  exact hb _ (ha c hc)

end Lexeme

open Lexeme

/-! ## Expressions -/

theorem ColumnRef.spaced_lexemes (column : ColumnRef) : Spaced column.lexemes := by
  unfold ColumnRef.lexemes
  split
  · exact spaced_singleton _
  · exact .cons_cons .beforePoint (.cons_cons .afterPoint (.singleton _))

theorem Literal.spaced_lexemes (literal : Literal) : Spaced literal.lexemes := by
  unfold Literal.lexemes
  split <;> exact spaced_singleton _

theorem Direction.follows_lexemes (direction : Direction) : Follows direction.lexemes := by
  cases direction <;> exact follows_space_cons (spaced_singleton _)

theorem spaced_wildcardLexemes (qualifier : Option String) :
    Spaced (wildcardLexemes qualifier) := by
  cases qualifier with
  | none => exact spaced_singleton _
  | some q => exact .cons_cons .beforePoint (.cons_cons .afterPoint (.singleton _))

theorem ArithmeticOp.spaced_lexemes (dialect : Dialect) {left right : List Lexeme}
    (op : ArithmeticOp) (hl : Spaced left) (hr : Spaced right) :
    Spaced (op.lexemes dialect left right) := by
  cases op <;> simp [ArithmeticOp.lexemes, hl, hr, spaced, spaced_words, parenthesized, application]

theorem Aggregation.spaced_lexemes {arg : List Lexeme} (func : Aggregation) (h : Spaced arg) :
    Spaced (func.lexemes arg) := by
  cases func <;> simp [Aggregation.lexemes, h]

theorem WindowFunction.spaced_lexemes (func : WindowFunction) : Spaced func.lexemes := by
  cases func <;> simp [WindowFunction.lexemes]

theorem spaced_clauseOf (keywords : List String) {list : List (List Lexeme)}
    (h : ∀ part ∈ list, Spaced part) : ∀ part ∈ clauseOf keywords list, Spaced part := by
  unfold clauseOf
  split
  · exact fun part hpart => absurd hpart List.not_mem_nil
  · simpa [spaced_words] using h

variable (dialect : Dialect)

mutual

/-- The lexemes of an expression do not run together. -/
theorem Expr.spaced_lexemes (e : Expr) : Spaced (e.lexemes dialect) := by
  cases e with
  | column ref => exact ref.spaced_lexemes
  | literal value => exact value.spaced_lexemes
  | param value => exact spaced_singleton _
  | compare left op right => simp [Expr.lexemes, left.spaced_lexemes, right.spaced_lexemes]
  | inList expr values =>
    simpa [Expr.lexemes, spaced, expr.spaced_lexemes] using Expr.spaced_lexemesList values
  | all parts =>
    cases parts with
    | nil => simp [Expr.lexemes]
    | cons part rest =>
      have hparts := Expr.spaced_lexemesList (part :: rest)
      simpa [Expr.lexemes] using hparts
  | any parts =>
    cases parts with
    | nil => simp [Expr.lexemes]
    | cons part rest =>
      have hparts := Expr.spaced_lexemesList (part :: rest)
      simpa [Expr.lexemes] using hparts
  | not expr => simp [Expr.lexemes, expr.spaced_lexemes]
  | raw sql => exact spaced_singleton _
  | arithmetic op left right =>
    exact op.spaced_lexemes dialect left.spaced_lexemes right.spaced_lexemes
  | isNull expr => simp [Expr.lexemes, spaced_words, expr.spaced_lexemes]
  | isNotNull expr => simp [Expr.lexemes, spaced_words, expr.spaced_lexemes]
  | case branches otherwise =>
    have hend : Follows [.space, .word "END"] := follows_space_cons (spaced_singleton _)
    have hbody := (Expr.follows_lexemesBranches branches).append
      ((Expr.follows_lexemesElse otherwise).append hend)
    simpa [Expr.lexemes] using hbody [.word "CASE"] (spaced_singleton _)
  | coalesce exprs => simpa [Expr.lexemes] using Expr.spaced_lexemesList exprs
  | call function args => simpa [Expr.lexemes] using Expr.spaced_lexemesList args
  | cast expr typeName => simp [Expr.lexemes, spaced, expr.spaced_lexemes]
  | aggregate func arg => exact func.spaced_lexemes (Expr.spaced_lexemesArgument arg)
  | window func partitionBy orderBy =>
    have hpartition := spaced_clauseOf ["PARTITION", "BY"] (Expr.spaced_lexemesList partitionBy)
    have horder := spaced_clauseOf ["ORDER", "BY"] (Expr.spaced_lexemesKeys orderBy)
    simpa [Expr.lexemes, spaced, func.spaced_lexemes] using
      List.forall_mem_append.mpr ⟨hpartition, horder⟩
  | wildcard qualifier => exact spaced_wildcardLexemes qualifier
termination_by structural e

theorem Expr.spaced_lexemesList (es : List Expr) :
    ∀ part ∈ Expr.lexemesList dialect es, Spaced part := by
  cases es with
  | nil => simp [Expr.lexemesList]
  | cons expr rest =>
    simpa [Expr.lexemesList] using ⟨expr.spaced_lexemes, Expr.spaced_lexemesList rest⟩
termination_by structural es

theorem Expr.follows_lexemesBranches (branches : List (Expr × Expr)) :
    Follows (Expr.lexemesBranches dialect branches) := by
  cases branches with
  | nil => exact follows_nil
  | cons branch rest =>
    obtain ⟨condition, value⟩ := branch
    have hfirst : Follows (Lexeme.spaced "WHEN" ++ condition.lexemes dialect ++
        Lexeme.spaced "THEN" ++ value.lexemes dialect) := by
      refine follows_space_cons ?_
      simp [Lexeme.spaced, condition.spaced_lexemes, value.spaced_lexemes]
    simpa [Expr.lexemesBranches] using hfirst.append (Expr.follows_lexemesBranches rest)
termination_by structural branches

theorem Expr.follows_lexemesElse (e : Option Expr) : Follows (Expr.lexemesElse dialect e) := by
  cases e with
  | none => exact follows_nil
  | some expr => exact follows_space_cons (by simp [expr.spaced_lexemes])
termination_by structural e

theorem Expr.spaced_lexemesArgument (e : Option Expr) :
    Spaced (Expr.lexemesArgument dialect e) := by
  cases e with
  | none => exact spaced_singleton _
  | some expr => exact expr.spaced_lexemes
termination_by structural e

theorem Expr.spaced_lexemesKeys (keys : List (Expr × Direction)) :
    ∀ part ∈ Expr.lexemesKeys dialect keys, Spaced part := by
  cases keys with
  | nil => simp [Expr.lexemesKeys]
  | cons key rest =>
    obtain ⟨expr, direction⟩ := key
    have hfirst := direction.follows_lexemes _ expr.spaced_lexemes
    simpa [Expr.lexemesKeys] using ⟨hfirst, Expr.spaced_lexemesKeys rest⟩
termination_by structural keys

end

theorem Expr.spaced_conditionLexemes (e : Expr) : Spaced (e.conditionLexemes dialect) := by
  cases e with
  | all parts =>
    cases parts with
    | nil => exact Expr.spaced_lexemes dialect (.all [])
    | cons part rest =>
      simpa [Expr.conditionLexemes] using Expr.spaced_lexemesList dialect (part :: rest)
  | _ => exact Expr.spaced_lexemes dialect _

/-! ## Statements -/

theorem SelectItem.spaced_lexemes (item : SelectItem) : Spaced (item.lexemes dialect) := by
  have hexpr := item.expr.spaced_lexemes dialect
  unfold SelectItem.lexemes
  split
  · exact hexpr
  · split
    · exact hexpr
    · simp [aliasLexemes, Lexeme.spaced, hexpr]

theorem follows_aliasLexemes (aliasName : String) : Follows (aliasLexemes aliasName) :=
  follows_space_cons (by simp)

theorem follows_optionalClause (keywords : List String) {list : List (List Lexeme)}
    (h : ∀ part ∈ list, Spaced part) : Follows (optionalClause keywords list) := by
  unfold optionalClause clauseOf
  split
  · exact follows_nil
  · simpa using follows_space_cons (b := words keywords ++ .space :: join comma list)
      (by simpa [spaced_words] using h)

theorem follows_numberClause (keyword : String) (n : Nat) : Follows (numberClause keyword n) :=
  follows_space_cons (by simp)

theorem follows_limitLexemes (limit offset : Option Nat) :
    Follows (limitLexemes dialect limit offset) := by
  unfold limitLexemes
  split
  · exact (follows_numberClause _ _).append (follows_numberClause _ _)
  · exact follows_numberClause _ _
  · cases dialect with
    | postgres => exact follows_numberClause _ _
    | mysql => exact (follows_numberClause _ _).append (follows_numberClause _ _)
    | clickhouse => exact (follows_numberClause _ _).append (follows_numberClause _ _)
  · exact follows_nil

theorem spaced_tableLexemes (schema name : String) (aliasName : Option String) :
    Spaced (tableLexemes schema name aliasName) := by
  have hname : Spaced ((if schema = "" then [] else [.name schema, .symbol "."]) ++
      [.name name]) := by
    split
    · exact spaced_singleton _
    · exact .cons_cons .beforePoint (.cons_cons .afterPoint (.singleton _))
  unfold tableLexemes
  cases aliasName with
  | none => exact hname
  | some a => simpa using follows_aliasLexemes a _ hname

theorem follows_filterLexemes (filter : Option Expr) :
    Follows (filterLexemes dialect filter) := by
  cases filter with
  | none => exact follows_nil
  | some e => exact follows_space_cons (by simp [e.spaced_conditionLexemes dialect])

mutual

/-- The lexemes of a statement do not run together. -/
theorem Select.spaced_lexemes (s : Select) : Spaced (s.lexemes dialect) := by
  obtain ⟨distinct, items, source, joins, filter, groupBy, orderBy, limit, offset⟩ := s
  have hitems : ∀ part ∈ items.map (SelectItem.lexemes dialect), Spaced part := by
    intro part hpart
    obtain ⟨item, -, rfl⟩ := List.mem_map.mp hpart
    exact item.spaced_lexemes dialect
  have hhead : Spaced (.word "SELECT" :: .space ::
      (if distinct then [.word "DISTINCT", .space] else []) ++
      join comma (items.map (SelectItem.lexemes dialect))) := by
    cases distinct <;> simpa using hitems
  have hfrom : Follows (Lexeme.spaced "FROM" ++ source.lexemes dialect) :=
    follows_space_cons (by simp [source.spaced_lexemes])
  have hclauses := ((((hfrom.append (Select.follows_joinLexemes joins)).append
    (follows_filterLexemes dialect filter)).append
    (follows_optionalClause ["GROUP", "BY"] (Expr.spaced_lexemesList dialect groupBy))).append
    (follows_optionalClause ["ORDER", "BY"] (Expr.spaced_lexemesKeys dialect orderBy))).append
    (follows_limitLexemes dialect limit offset)
  simpa [Select.lexemes] using hclauses _ hhead
termination_by structural s

theorem Relation.spaced_lexemes (relation : Relation) : Spaced (relation.lexemes dialect) := by
  cases relation with
  | table schema name aliasName => exact spaced_tableLexemes schema name aliasName
  | custom sql aliasName => exact follows_aliasLexemes aliasName _ (by simp)
  | derived select aliasName =>
    exact follows_aliasLexemes aliasName _ (by simp [select.spaced_lexemes])
termination_by structural relation

theorem Select.follows_joinLexemes (joins : List Join) :
    Follows (Select.joinLexemes dialect joins) := by
  cases joins with
  | nil => exact follows_nil
  | cons join rest =>
    obtain ⟨kind, relation, condition⟩ := join
    have hfirst : Follows (.space :: Lexeme.words kind.words ++ .space ::
        relation.lexemes dialect ++ Lexeme.spaced "ON" ++ condition.conditionLexemes dialect) := by
      refine follows_space_cons ?_
      simp [Lexeme.spaced, spaced_words, relation.spaced_lexemes,
        condition.spaced_conditionLexemes dialect]
    simpa [Select.joinLexemes] using hfirst.append (Select.follows_joinLexemes rest)
termination_by structural joins

end

end PagedQuery
