import PagedQuery.Proofs.Statement.Lexical
import PagedQuery.Proofs.Statement.Placeholders

/-!
# Tokens of statements

What is written of a lexical statement is read as its tokens, lexeme by lexeme.
The identifiers among the tokens carry the names of the statement and nothing
else, the strings carry its strings, and there is one question mark for each
parameter.

* `Select.names`, `Select.strings`: the names and strings that a statement writes;
* `Select.IsLexical.lex_write`: the tokens of a written statement;
* `Select.IsLexical.names_tokens`, `strings_tokens`, `count_mark_tokens`: what they carry.
-/

namespace PagedQuery

open Lexeme

variable {dialect : Dialect}

/-! ## Names and strings of statements -/

def Datum.name? : Datum → Option String
  | .name text => some text
  | _ => none

/-- The strings that a datum writes. A piece has those of its own text. -/
def Datum.strings (dialect : Dialect) : Datum → List String
  | .string text => [text]
  | .piece sql => ((dialect.lex sql.toList).getD []).filterMap Token.string?
  | _ => []

/-- The names that a statement writes, from left to right. -/
def Select.names (s : Select) : List String :=
  s.data.filterMap Datum.name?

/-- The strings that a statement writes, from left to right. -/
def Select.strings (dialect : Dialect) (s : Select) : List String :=
  s.data.flatMap (Datum.strings dialect)

namespace Lexeme

variable {x : Lexeme}

/-- Keywords, functions and types are no names, nor is anything in the sentinel. -/
theorem IsToken.names (h : x.IsToken dialect) :
    (x.tokens dialect).filterMap Token.name? = x.datum?.toList.filterMap Datum.name? := by
  cases x with
  | word text =>
    obtain ⟨-, hplain⟩ := isWord_eq_true_iff.mp h
    simp [tokens, Token.name?, hplain]
  | number text =>
    rw [tokens, Token.ofNumber.eq_def]
    split <;> rfl
  | name text =>
    by_cases hplain : Identifier.isPlain text.toList <;>
      simp [tokens, Token.ofName, Token.name?, Datum.name?, hplain]
  | raw sql =>
    have hsentinel : Expr.raw sql = dialect.timestampSentinel := h
    cases dialect <;> cases hsentinel <;> decide +kernel
  | _ => rfl

theorem IsToken.strings (h : x.IsToken dialect) :
    (x.tokens dialect).filterMap Token.string? =
      x.datum?.toList.flatMap (Datum.strings dialect) := by
  cases x with
  | number text =>
    rw [tokens, Token.ofNumber.eq_def]
    split <;> rfl
  | name text =>
    by_cases hplain : Identifier.isPlain text.toList <;>
      simp [tokens, Token.ofName, Token.string?, Datum.strings, hplain]
  | raw sql => simp [tokens, Datum.strings]
  | _ => rfl

theorem IsToken.count_mark (h : x.IsToken dialect) :
    (x.tokens dialect).count .mark = x.param?.toList.length := by
  cases x with
  | number text =>
    rw [tokens, Token.ofNumber.eq_def]
    split <;> rfl
  | name text =>
    by_cases hplain : Identifier.isPlain text.toList <;>
      simp [tokens, Token.ofName, param?, hplain]
  | raw sql =>
    have hsentinel : Expr.raw sql = dialect.timestampSentinel := h
    cases dialect <;> cases hsentinel <;> decide +kernel
  | _ => simp [tokens, param?]

variable {lexemes : List Lexeme}

theorem AreTokens.names (h : AreTokens dialect lexemes) :
    (lexemes.flatMap (tokens dialect)).filterMap Token.name? =
      (data lexemes).filterMap Datum.name? := by
  induction lexemes with
  | nil => rfl
  | cons x rest ih =>
    obtain ⟨hx, hrest⟩ := (areTokens_cons x rest).mp h
    simp only [List.flatMap_cons, List.filterMap_append, data_cons, hx.names, ih hrest]

theorem AreTokens.strings (h : AreTokens dialect lexemes) :
    (lexemes.flatMap (tokens dialect)).filterMap Token.string? =
      (data lexemes).flatMap (Datum.strings dialect) := by
  induction lexemes with
  | nil => rfl
  | cons x rest ih =>
    obtain ⟨hx, hrest⟩ := (areTokens_cons x rest).mp h
    simp only [List.flatMap_cons, List.filterMap_append, List.flatMap_append, data_cons,
      hx.strings, ih hrest]

theorem AreTokens.count_mark (h : AreTokens dialect lexemes) :
    (lexemes.flatMap (tokens dialect)).count .mark = (params lexemes).length := by
  induction lexemes with
  | nil => rfl
  | cons x rest ih =>
    obtain ⟨hx, hrest⟩ := (areTokens_cons x rest).mp h
    rw [List.flatMap_cons, List.count_append, hx.count_mark, ih hrest, params_cons,
      List.length_append]

end Lexeme

/-- The tokens of a statement, one lexeme after the other. -/
def Select.tokens (dialect : Dialect) (s : Select) : List Token :=
  (s.lexemes dialect).flatMap (Lexeme.tokens dialect)

namespace Select.IsLexical

variable {s : Select}

theorem names_tokens (h : s.IsLexical dialect) :
    (s.tokens dialect).filterMap Token.name? = s.names := by
  rw [tokens, h.names, s.data_lexemes, Select.names]

theorem strings_tokens (h : s.IsLexical dialect) :
    (s.tokens dialect).filterMap Token.string? = s.strings dialect := by
  rw [tokens, h.strings, s.data_lexemes, Select.strings]

theorem count_mark_tokens (h : s.IsLexical dialect) :
    (s.tokens dialect).count .mark = s.params.length := by
  rw [tokens, h.count_mark, s.params_lexemes]

/-- What is written of a lexical statement is read as its tokens. -/
theorem lex_write {query : ParametrizedQuery} (h : s.IsLexical dialect)
    (hwrite : s.write dialect = .ok query) :
    dialect.lex query.sql.toList = some (s.tokens dialect) := by
  obtain ⟨-, rfl⟩ := Select.write_eq_ok_iff.mp hwrite
  exact Lexeme.lex_text (s.spaced_lexemes dialect) h

end Select.IsLexical

end PagedQuery
