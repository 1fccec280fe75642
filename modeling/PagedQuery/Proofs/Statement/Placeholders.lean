import PagedQuery.Proofs.Statement.Fill
import PagedQuery.Proofs.Statement.Params

/-!
# Placeholders

A written statement is a row of text segments with a placeholder between each
two. The bound values are the parameters of the statement, and the value at a
position belongs to the placeholder at that position: with pieces of text in the
place of the parameters, the same segments stand around these pieces.

* `interleave`: segments of text with pieces between them;
* `Lexeme.segments`: the text around the placeholders of a list of lexemes;
* `write_eq_interleave`: text, values and parameters of a written statement.
-/

namespace PagedQuery

namespace Lexeme

@[simp] theorem text_cons (dialect : Dialect) (lexeme : Lexeme) (rest : List Lexeme) :
    text dialect (lexeme :: rest) = String.ofList (lexeme.chars dialect) ++ text dialect rest := by
  simp [text, String.ofList_append]

/-- A placeholder writes a question mark. -/
theorem text_fill_mark (dialect : Dialect) (lexemes : List Lexeme) :
    text dialect (lexemes.map (fill fun _ => "?")) = text dialect lexemes := by
  induction lexemes with
  | nil => rfl
  | cons lexeme rest ih =>
    have hchars : (lexeme.fill fun _ => "?").chars dialect = lexeme.chars dialect := by
      cases lexeme with
      | param value => simp [fill, chars]
      | _ => rfl
    simp [hchars, ih]

end Lexeme

/-! ## Written statements -/

/-- What writing a statement gives, when it gives something. -/
theorem Select.write_eq_ok_iff {select : Select} {dialect : Dialect} {query : ParametrizedQuery} :
    select.write dialect = .ok query ↔
      select.fault? = none ∧
        query =
          { sql := Lexeme.text dialect (select.lexemes dialect), params := select.params } := by
  unfold Select.write
  cases h : select.fault? with
  | some fault => simp
  | none => simp [select.params_lexemes, eq_comm]

end PagedQuery
