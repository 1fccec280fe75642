import PagedQuery.Proofs.Condition.Reader
import PagedQuery.Proofs.Statement.Tokenized

/-!
# Reading conditions back

What is written of an operand or condition is read as one, whatever follows it.
Nothing regroups: comparisons, choices and null tests are factors by themselves,
lists of conditions stand in parentheses, and a conjunction that is the whole
condition needs none.

* `Reads`: a text that a reader reads, whatever follows it;
* `Expr.ReadsAs`: expressions that are read as operands;
* `Expr.IsRead`, `Expr.IsReadWhole`: expressions that are read as factors, and as whole conditions;
* `Dialect.readWhere?_of_isReadWhole`: the condition of a clause.
-/

namespace PagedQuery

/-! ## Readers -/

section Readers

variable {α : Type} {item : Reader α} {follow : List BoundToken → Prop}
  {separator : Token}

/-- The reader reads `a` from the text, whatever follows it. -/
def Reads (item : Reader α) (follow : List BoundToken → Prop) (text : List BoundToken) (a : α) :
    Prop :=
  ∀ rest, follow rest → item (text ++ rest) = some (a, rest)

@[simp] theorem skip?_token (token first : Token) (rest : List BoundToken) :
    skip? token (.token first :: rest) = if first = token then some rest else none := rfl

@[simp] theorem skip?_value (token : Token) (value : Value) (rest : List BoundToken) :
    skip? token (.value value :: rest) = none := rfl

@[simp] theorem skip?_nil (token : Token) : skip? token [] = none := rfl

/-- Texts with a separator before each. -/
def separated (separator : Token) (texts : List (List BoundToken)) : List BoundToken :=
  texts.flatMap (.token separator :: ·)

theorem length_le_length_separated (separator : Token) (texts : List (List BoundToken)) :
    texts.length ≤ (separated separator texts).length := by
  induction texts with
  | nil => simp
  | cons text rest ih =>
    simp only [separated, List.flatMap_cons, List.length_append, List.length_cons] at ih ⊢
    omega

theorem readFurther?_separated {texts : List (List BoundToken)} {as : List α}
    (h : List.Forall₂ (Reads item follow) texts as)
    (hseparator : ∀ rest, follow (.token separator :: rest)) {rest : List BoundToken}
    (hrest : follow rest) (hstop : skip? separator rest = none) (n : Nat)
    (hn : texts.length ≤ n) :
    readFurther? separator item n (separated separator texts ++ rest) = some (as, rest) := by
  induction h generalizing n with
  | nil =>
    cases n with
    | zero => rfl
    | succ n => simp [separated, readFurther?, hstop]
  | @cons text a texts as hfirst htexts ih =>
    obtain ⟨n, rfl⟩ : ∃ m, n = m + 1 := ⟨n - 1, by simp at hn; omega⟩
    have hfollow : follow (separated separator texts ++ rest) := by
      cases texts with
      | nil => exact hrest
      | cons next others => exact hseparator _
    have hothers := ih n (by simpa using hn)
    have htext : separated separator (text :: texts) ++ rest =
        .token separator :: (text ++ (separated separator texts ++ rest)) := by
      simp [separated]
    simp only [htext, readFurther?, skip?_token, if_true, hfirst _ hfollow, hothers,
      Option.bind_eq_bind, Option.bind_some]

/-- Items with separators between them are read one by one. -/
theorem readSeparated?_append {text : List BoundToken} {texts : List (List BoundToken)} {a : α}
    {as : List α} (hfirst : Reads item follow text a)
    (h : List.Forall₂ (Reads item follow) texts as)
    (hseparator : ∀ rest, follow (.token separator :: rest)) {rest : List BoundToken}
    (hrest : follow rest) (hstop : skip? separator rest = none) :
    readSeparated? separator item (text ++ separated separator texts ++ rest) =
      some ((a, as), rest) := by
  have hfollow : follow (separated separator texts ++ rest) := by
    cases texts with
    | nil => exact hrest
    | cons next others => exact hseparator _
  have hlength : texts.length ≤ (separated separator texts ++ rest).length := by
    have hle := length_le_length_separated separator texts
    rw [List.length_append]
    omega
  have hothers := readFurther?_separated h hseparator hrest hstop _ hlength
  rw [List.append_assoc]
  simp only [readSeparated?, hfirst _ hfollow, hothers, Option.bind_eq_bind, Option.bind_some]

end Readers

/-! ## Lexemes with values -/

variable {dialect : Dialect}

/-- The tokens of a lexeme; a placeholder is its value. -/
def Lexeme.bound (dialect : Dialect) : Lexeme → List BoundToken
  | .param value => [.value value]
  | lexeme => (lexeme.tokens dialect).map .token

theorem bindValues?_append {tokens : List Token} (h : .mark ∉ tokens) (others : List Token)
    (values : List Value) :
    bindValues? (tokens ++ others) values =
      (bindValues? others values).map (tokens.map .token ++ ·) := by
  induction tokens with
  | nil => simp
  | cons token rest ih =>
    rw [List.mem_cons, not_or] at h
    obtain ⟨hne, hrest⟩ := h
    have hcons : bindValues? (token :: (rest ++ others)) values =
        (bindValues? (rest ++ others) values).map (.token token :: ·) := by
      cases token <;> first | rfl | exact absurd rfl hne
    rw [List.cons_append, hcons, ih hrest]
    cases bindValues? others values <;> rfl

/-- Every placeholder takes its own value. -/
theorem Lexeme.AreTokens.bindValues? {lexemes : List Lexeme} (h : AreTokens dialect lexemes) :
    bindValues? (lexemes.flatMap (tokens dialect)) (params lexemes) =
      some (lexemes.flatMap (bound dialect)) := by
  induction lexemes with
  | nil => rfl
  | cons x rest ih =>
    obtain ⟨hx, hrest⟩ := (areTokens_cons x rest).mp h
    by_cases hparam : ∃ value, x = .param value
    · obtain ⟨value, rfl⟩ := hparam
      have htail := ih hrest
      simp only [List.flatMap_cons, tokens, params_cons, param?, Option.toList_some,
        List.singleton_append, PagedQuery.bindValues?, htail, Option.map_some, bound]
    · have hnone : x.param? = none := by
        cases x <;> first | rfl | exact absurd ⟨_, rfl⟩ hparam
      have hmark : .mark ∉ x.tokens dialect := by
        rw [← List.count_eq_zero, hx.count_mark, hnone]
        rfl
      have hbound : x.bound dialect = (x.tokens dialect).map .token := by
        cases x <;> first | rfl | exact absurd ⟨_, rfl⟩ hparam
      rw [List.flatMap_cons, params_cons, hnone, Option.toList_none, List.nil_append,
        bindValues?_append hmark, ih hrest, List.flatMap_cons, hbound]
      rfl

namespace Lexeme

@[simp] theorem bound_space : bound dialect .space = [] := rfl

@[simp] theorem bound_word (text : String) : bound dialect (.word text) = [.token (.word text)] :=
  rfl

@[simp] theorem bound_symbol (text : String) :
    bound dialect (.symbol text) = [.token (.symbol text)] := rfl

@[simp] theorem bound_name (text : String) :
    bound dialect (.name text) = [.token (.ofName text)] := rfl

@[simp] theorem bound_param (value : Value) : bound dialect (.param value) = [.value value] := rfl

@[simp] theorem flatMap_bound_spaced (word : String) :
    (spaced word).flatMap (bound dialect) = [.token (.word word)] := rfl

theorem flatMap_bound_join {separator : List Lexeme} {token : Token}
    (h : separator.flatMap (bound dialect) = [.token token]) (part : List Lexeme)
    (parts : List (List Lexeme)) :
    (join separator (part :: parts)).flatMap (bound dialect) =
      part.flatMap (bound dialect) ++
        separated token (parts.map fun part => part.flatMap (bound dialect)) := by
  induction parts generalizing part with
  | nil => simp [join, separated]
  | cons next rest ih =>
    have htail := ih next
    simp only [join, List.flatMap_append, h, htail, separated, List.map_cons, List.flatMap_cons,
      List.append_assoc, List.cons_append, List.nil_append]

end Lexeme

/-- The tokens of an expression, with its values in the place of its placeholders. -/
def Expr.bound (dialect : Dialect) (e : Expr) : List BoundToken :=
  (e.lexemes dialect).flatMap (Lexeme.bound dialect)

theorem Expr.lexemesList_eq_map (es : List Expr) :
    Expr.lexemesList dialect es = es.map (Expr.lexemes dialect) := by
  induction es with
  | nil => rfl
  | cons e rest ih => rw [Expr.lexemesList, ih, List.map_cons]

/-- What is written of a list of expressions. -/
theorem Expr.flatMap_bound_join_lexemesList {separator : List Lexeme} {token : Token}
    (h : separator.flatMap (Lexeme.bound dialect) = [.token token]) (e : Expr) (es : List Expr) :
    (Lexeme.join separator (Expr.lexemesList dialect (e :: es))).flatMap (Lexeme.bound dialect) =
      e.bound dialect ++ separated token (es.map (Expr.bound dialect)) := by
  rw [Expr.lexemesList_eq_map, List.map_cons, Lexeme.flatMap_bound_join h, List.map_map]
  rfl

/-- A list of expressions in parentheses. -/
def Expr.boundList (dialect : Dialect) (e : Expr) (es : List Expr) : List BoundToken :=
  .token (.symbol "(") :: (e.bound dialect ++
    separated (.symbol ",") (es.map (Expr.bound dialect)) ++ [.token (.symbol ")")])

theorem Expr.flatMap_bound_parenthesized (e : Expr) (es : List Expr) :
    (Lexeme.parenthesized (Lexeme.join Lexeme.comma
      (Expr.lexemesList dialect (e :: es)))).flatMap (Lexeme.bound dialect) =
        Expr.boundList dialect e es := by
  have hcomma : Lexeme.comma.flatMap (Lexeme.bound dialect) = [.token (.symbol ",")] := rfl
  have hjoin := flatMap_bound_join_lexemesList hcomma e es
  rw [boundList, ← hjoin]
  simp [Lexeme.parenthesized]

/-- Readers of expressions that are short enough read a list of expressions. -/
theorem forall₂_reads {α : Type} {item : Reader α} {follow : List BoundToken → Prop}
    (separator : Token) {depth : Nat} {es : List Expr} {as : List α}
    (h : List.Forall₂ (fun e a => (e.bound dialect).length ≤ depth →
      Reads item follow (e.bound dialect) a) es as)
    (hlength : (separated separator (es.map (Expr.bound dialect))).length ≤ depth) :
    List.Forall₂ (Reads item follow) (es.map (Expr.bound dialect)) as := by
  induction h with
  | nil => exact .nil
  | @cons e a es as hfirst _ ih =>
    simp only [separated, List.map_cons, List.flatMap_cons, List.length_append,
      List.length_cons] at hlength
    exact .cons (hfirst (by omega)) (ih (by rw [separated]; omega))

/-! ## Operands -/

/-- No point follows, which would make a qualifier of a name. -/
def NoPoint (rest : List BoundToken) : Prop :=
  skip? (.symbol ".") rest = none

/-- An expression that is read as an operand. It begins neither with a parenthesis nor with a
negation. -/
structure Expr.ReadsAs (dialect : Dialect) (e : Expr) (operand : Operand) : Prop where
  reads : ∀ depth, (e.bound dialect).length ≤ depth →
    Reads (readOperand? depth) NoPoint (e.bound dialect) operand
  parenthesis : ∀ rest, skip? (.symbol "(") (e.bound dialect ++ rest) = none
  negation : ∀ rest, skip? (.word "NOT") (e.bound dialect ++ rest) = none

/-- An identifier is read as the name that it carries. -/
theorem readOperand?_ofName (depth : Nat) (name : String) (rest : List BoundToken) :
    readOperand? depth (.token (.ofName name) :: rest) = readColumn? name rest := by
  by_cases h : Identifier.isPlain name.toList
  · rw [Token.ofName, if_pos h]
    cases depth <;> simp only [readOperand?, h, if_true]
  · rw [Token.ofName, if_neg h]
    cases depth <;> rfl

theorem name?_ofName (name : String) : (Token.ofName name).name? = some name := by
  by_cases h : Identifier.isPlain name.toList <;> simp [Token.ofName, h, Token.name?]

theorem ofName_ne_symbol (name text : String) : Token.ofName name ≠ .symbol text := by
  unfold Token.ofName
  split <;> simp

/-- A keyword is not plain. -/
theorem ofName_ne_word {name text : String} (h : Identifier.isPlain text.toList = false) :
    Token.ofName name ≠ .word text := by
  unfold Token.ofName
  split
  · rename_i hplain
    rintro ⟨⟩
    rw [h] at hplain
    cases hplain
  · simp

namespace Expr.ReadsAs

variable {e : Expr} {operand : Operand}

theorem column (ref : ColumnRef) : (Expr.column ref).ReadsAs dialect (.column ref) := by
  obtain ⟨qualifier, name⟩ := ref
  have hnot : Identifier.isPlain "NOT".toList = false := by decide
  cases qualifier with
  | none =>
    have hbound : (Expr.column ⟨none, name⟩).bound dialect = [.token (.ofName name)] := rfl
    refine ⟨fun depth _ rest hrest => ?_, fun rest => ?_, fun rest => ?_⟩
    · unfold NoPoint at hrest
      rw [hbound, List.singleton_append, readOperand?_ofName, readColumn?, hrest]
    · simp [hbound, ofName_ne_symbol]
    · simp [hbound, ofName_ne_word hnot]
  | some qualifier =>
    have hbound : (Expr.column ⟨some qualifier, name⟩).bound dialect =
        [.token (.ofName qualifier), .token (.symbol "."), .token (.ofName name)] := rfl
    refine ⟨fun depth _ rest _ => ?_, fun rest => ?_, fun rest => ?_⟩
    · simp only [hbound, List.cons_append, List.nil_append, readOperand?_ofName, readColumn?,
        skip?_token, if_true, name?_ofName, Option.map_some]
    · simp [hbound, ofName_ne_symbol]
    · simp [hbound, ofName_ne_word hnot]

theorem param (value : Value) : (Expr.param value).ReadsAs dialect (.value value) := by
  have hbound : (Expr.param value).bound dialect = [.value value] := rfl
  refine ⟨fun depth _ rest _ => ?_, fun rest => rfl, fun rest => rfl⟩
  rw [hbound]
  cases depth <;> rfl

theorem int (n : Nat) : (Expr.int n).ReadsAs dialect (.value (.int n)) := by
  have htext : (toString (n : Int)).toList = Nat.toDigits 10 n := Nat.toList_repr
  have hdigits : (toString (n : Int)).toList.all Char.isDigit = true := by
    rw [htext, List.all_eq_true]
    exact fun c hc => Nat.isDigit_of_mem_toDigits (by decide) (by decide) hc
  have hvalue : Nat.ofDigitChars 10 (toString (n : Int)).toList 0 = n := by
    rw [htext]
    exact Nat.ofDigitChars_toDigits (by decide) (by decide)
  have htoken : Token.ofNumber (toString (n : Int)).toList = [.number (toString (n : Int))] := by
    rw [Lexeme.ofNumber_digits (htext ▸ Nat.fits_toDigits n), String.ofList_toList]
  have hbound : (Expr.int n).bound dialect = [.token (.number (toString (n : Int)))] := by
    simp only [bound, Expr.int, lexemes, Literal.lexemes, List.flatMap_cons, List.flatMap_nil,
      Lexeme.bound, Lexeme.tokens, htoken, List.map_cons, List.map_nil, List.append_nil]
  refine ⟨fun depth _ rest _ => ?_, fun rest => ?_, fun rest => ?_⟩
  · rw [hbound, List.singleton_append]
    cases depth <;> simp only [readOperand?, hdigits, if_true, hvalue]
  · simp [hbound]
  · simp [hbound]

/-- A list of operands. -/
theorem readList?_append {depth : Nat} {first : Expr} {others : List Expr} {operand : Operand}
    {operands : List Operand} (hfirst : first.ReadsAs dialect operand)
    (hothers : List.Forall₂ (ReadsAs dialect) others operands)
    (hlength : (boundList dialect first others).length ≤ depth + 2) (rest : List BoundToken) :
    readList? (readOperand? depth) (boundList dialect first others ++ rest) =
      some (operand :: operands, rest) := by
  simp only [boundList, List.length_cons, List.length_append, List.length_nil] at hlength
  have hread := hfirst.reads depth (by omega)
  have hreads := forall₂_reads (.symbol ",") (hothers.imp fun e o h => h.reads depth) (by omega)
  have hcomma (rest : List BoundToken) : NoPoint (.token (.symbol ",") :: rest) := rfl
  have hclose : NoPoint (.token (.symbol ")") :: rest) := rfl
  have hseparated := readSeparated?_append hread hreads hcomma hclose rfl
  have htext : boundList dialect first others ++ rest = .token (.symbol "(") ::
      (first.bound dialect ++ separated (.symbol ",") (others.map (bound dialect)) ++
        .token (.symbol ")") :: rest) := by
    simp [boundList]
  simp only [htext, readList?, skip?_token, if_true, hseparated, Option.bind_eq_bind,
    Option.bind_some]

theorem call {function : String} {first : Expr} {others : List Expr} {operands : List Operand}
    (hfunction : isWord function.toList = true) (hnot : function ≠ "NOT")
    (hfirst : first.ReadsAs dialect operand)
    (hothers : List.Forall₂ (ReadsAs dialect) others operands) :
    (Expr.call function (first :: others)).ReadsAs dialect
      (.call function (operand :: operands)) := by
  obtain ⟨-, hplain⟩ := isWord_eq_true_iff.mp hfunction
  have hbound : (Expr.call function (first :: others)).bound dialect =
      .token (.word function) :: boundList dialect first others := by
    rw [← flatMap_bound_parenthesized]
    simp [bound, lexemes, Lexeme.application]
  refine ⟨fun depth hdepth rest _ => ?_, fun rest => ?_, fun rest => ?_⟩
  · rw [hbound, List.length_cons] at hdepth
    obtain ⟨depth, rfl⟩ : ∃ d, depth = d + 1 := ⟨depth - 1, by omega⟩
    have hlength : (boundList dialect first others).length ≤ depth + 2 := by omega
    have hlist := readList?_append hfirst hothers hlength rest
    rw [hbound, List.cons_append, readOperand?, hplain, hlist]
    rfl
  · simp [hbound]
  · simp [hbound, hnot]

/-- Calls with one argument. -/
theorem call₁ {function : String} (hfunction : isWord function.toList = true)
    (hnot : function ≠ "NOT") (h : e.ReadsAs dialect operand) :
    (Expr.call function [e]).ReadsAs dialect (.call function [operand]) :=
  call hfunction hnot h .nil

/-- Calls with two arguments. -/
theorem call₂ {function : String} {e' : Expr} {operand' : Operand}
    (hfunction : isWord function.toList = true) (hnot : function ≠ "NOT")
    (h : e.ReadsAs dialect operand) (h' : e'.ReadsAs dialect operand') :
    (Expr.call function [e, e']).ReadsAs dialect (.call function [operand, operand']) :=
  call hfunction hnot h (.cons h' .nil)

/-- As many nested calls are allowed as there are tokens. -/
theorem readOperand?_append (h : e.ReadsAs dialect operand) {rest : List BoundToken}
    (hrest : NoPoint rest) :
    readOperand? (e.bound dialect ++ rest).length (e.bound dialect ++ rest) =
      some (operand, rest) :=
  h.reads _ (by simp) rest hrest

end Expr.ReadsAs

/-! ## Predicates and factors -/

/-- An expression that is read as a factor of a conjunction. -/
def Expr.IsRead (dialect : Dialect) (e : Expr) (condition : Condition) : Prop :=
  ∀ depth, (e.bound dialect).length ≤ depth →
    Reads (readFactor? (readCondition? depth)) NoPoint (e.bound dialect) condition

/-- What begins with no negation is a predicate. -/
theorem readNegated?_of_skip?_eq_none {inner : Reader Condition} {tokens : List BoundToken}
    (h : skip? (.word "NOT") tokens = none) (n : Nat) :
    readNegated? inner n tokens = readPredicate? inner tokens := by
  cases n with
  | zero => rfl
  | succ n => rw [readNegated?, h]

namespace Expr.ReadsAs

variable {e left right : Expr} {operand operandLeft operandRight : Operand}

/-- What is written after an operand decides which predicate it is. -/
theorem readFactor?_append (h : e.ReadsAs dialect operand) (inner : Reader Condition)
    {rest : List BoundToken} (hrest : NoPoint rest) :
    readFactor? inner (e.bound dialect ++ rest) = readRelation? operand rest := by
  rw [readFactor?, readNegated?_of_skip?_eq_none (h.negation rest), readPredicate?,
    h.parenthesis rest]
  simp only [h.readOperand?_append hrest, Option.bind_eq_bind, Option.bind_some]

theorem compare (op : Comparison) (hl : left.ReadsAs dialect operandLeft)
    (hr : right.ReadsAs dialect operandRight) :
    (Expr.compare left op right).IsRead dialect (.compare operandLeft op operandRight) := by
  obtain ⟨token, htoken, hop, hpoint, his, hin⟩ : ∃ token : Token,
      Lexeme.bound dialect op.lexeme = [.token token] ∧ token.comparison? = some op ∧
        token ≠ .symbol "." ∧ token ≠ .word "IS" ∧ token ≠ .word "IN" := by
    cases op <;> exact ⟨_, rfl, rfl, by decide, by decide, by decide⟩
  have hbound : (Expr.compare left op right).bound dialect =
      left.bound dialect ++ .token token :: right.bound dialect := by
    simp [bound, lexemes, htoken]
  intro depth _ rest hrest
  have hread := hr.readOperand?_append hrest
  rw [hbound, List.append_assoc, List.cons_append,
    hl.readFactor?_append _ (by simp [NoPoint, hpoint])]
  simp only [readRelation?, skip?_token, his, hin, if_false, hop, hread, Option.bind_eq_bind,
    Option.bind_some]

theorem inList {first : Expr} {others : List Expr} {value : Operand} {values : List Operand}
    (h : e.ReadsAs dialect operand) (hfirst : first.ReadsAs dialect value)
    (hothers : List.Forall₂ (ReadsAs dialect) others values) :
    (Expr.inList e (first :: others)).IsRead dialect (.isIn operand (value :: values)) := by
  have hbound : (Expr.inList e (first :: others)).bound dialect =
      e.bound dialect ++ .token (.word "IN") :: boundList dialect first others := by
    rw [← flatMap_bound_parenthesized]
    simp [bound, lexemes]
  intro depth _ rest _
  have hlength : (boundList dialect first others).length ≤
      (boundList dialect first others ++ rest).length + 2 := by
    rw [List.length_append]
    omega
  have hlist := readList?_append hfirst hothers hlength rest
  rw [hbound, List.append_assoc, List.cons_append, h.readFactor?_append _ (by simp [NoPoint])]
  simp only [readRelation?, skip?_token, if_true, if_false, Token.word.injEq, String.reduceEq,
    hlist, Option.map_some]

theorem isNull (h : e.ReadsAs dialect operand) :
    (Expr.isNull e).IsRead dialect (.isNull operand) := by
  have hbound : (Expr.isNull e).bound dialect =
      e.bound dialect ++ [.token (.word "IS"), .token (.word "NULL")] := by
    simp [bound, lexemes, Lexeme.words]
  intro depth _ rest hrest
  rw [hbound, List.append_assoc, h.readFactor?_append _ (by simp [NoPoint])]
  simp [readRelation?]

end Expr.ReadsAs

/-! ## Whole conditions -/

/-- What follows a whole condition: nothing, or the end of its parentheses. -/
def Ends (rest : List BoundToken) : Prop :=
  rest = [] ∨ ∃ others, rest = .token (.symbol ")") :: others

theorem Ends.skip?_eq_none {rest : List BoundToken} (h : Ends rest) {token : Token}
    (hne : token ≠ .symbol ")") : skip? token rest = none := by
  rcases h with rfl | ⟨others, rfl⟩
  · rfl
  · simp [hne.symm]

/-- What follows a conjunction: nothing that would go on with it. -/
def EndsConjunction (rest : List BoundToken) : Prop :=
  NoPoint rest ∧ skip? (.word "AND") rest = none

/-- The condition is read from the text as a whole, without its parentheses. -/
def ReadsWhole (text : List BoundToken) (condition : Condition) : Prop :=
  ∀ depth, text.length ≤ depth →
    Reads (readDisjunction? (readCondition? depth)) Ends text condition

/-- Factors with `AND` between them are a conjunction. -/
theorem reads_conjunction {inner : Reader Condition} {text : List BoundToken}
    {texts : List (List BoundToken)} {condition : Condition} {conditions : List Condition}
    (hfirst : Reads (readFactor? inner) NoPoint text condition)
    (hothers : List.Forall₂ (Reads (readFactor? inner) NoPoint) texts conditions) :
    Reads (readConjunction? inner) EndsConjunction (text ++ separated (.word "AND") texts)
      (conditions.foldl .and condition) := by
  intro rest hrest
  have hand (rest : List BoundToken) : NoPoint (.token (.word "AND") :: rest) := rfl
  simp only [readConjunction?, readSeparated?_append hfirst hothers hand hrest.1 hrest.2,
    Option.map_some]

/-- Conjunctions with `OR` between them are a disjunction. -/
theorem reads_disjunction {inner : Reader Condition} {text : List BoundToken}
    {texts : List (List BoundToken)} {condition : Condition} {conditions : List Condition}
    (hfirst : Reads (readConjunction? inner) EndsConjunction text condition)
    (hothers : List.Forall₂ (Reads (readConjunction? inner) EndsConjunction) texts conditions) :
    Reads (readDisjunction? inner) Ends (text ++ separated (.word "OR") texts)
      (conditions.foldl .or condition) := by
  intro rest hrest
  have hor (rest : List BoundToken) : EndsConjunction (.token (.word "OR") :: rest) := ⟨rfl, rfl⟩
  have hends : EndsConjunction rest :=
    ⟨hrest.skip?_eq_none (by decide), hrest.skip?_eq_none (by decide)⟩
  simp only [readDisjunction?,
    readSeparated?_append hfirst hothers hor hends (hrest.skip?_eq_none (by decide)),
    Option.map_some]

/-- A single factor is a conjunction. -/
theorem Reads.conjunction {inner : Reader Condition} {text : List BoundToken}
    {condition : Condition} (h : Reads (readFactor? inner) NoPoint text condition) :
    Reads (readConjunction? inner) EndsConjunction text condition := by
  have hreads := reads_conjunction h .nil
  rwa [separated, List.flatMap_nil, List.append_nil] at hreads

/-- A single conjunction is a disjunction. -/
theorem Reads.disjunction {inner : Reader Condition} {text : List BoundToken}
    {condition : Condition}
    (h : Reads (readConjunction? inner) EndsConjunction text condition) :
    Reads (readDisjunction? inner) Ends text condition := by
  have hreads := reads_disjunction h .nil
  rwa [separated, List.flatMap_nil, List.append_nil] at hreads

/-- A condition in parentheses is a predicate, whatever it is. -/
theorem ReadsWhole.predicate {text : List BoundToken} {condition : Condition}
    (h : ReadsWhole text condition) {depth : Nat} (hdepth : text.length < depth)
    (rest : List BoundToken) :
    readPredicate? (readCondition? depth)
        (.token (.symbol "(") :: (text ++ .token (.symbol ")") :: rest)) =
      some (condition, rest) := by
  obtain ⟨depth, rfl⟩ : ∃ d, depth = d + 1 := ⟨depth - 1, by omega⟩
  have hread := h depth (by omega) (.token (.symbol ")") :: rest) (.inr ⟨rest, rfl⟩)
  simp only [readPredicate?, skip?_token, if_true, readCondition?, hread, Option.bind_eq_bind,
    Option.bind_some]

/-- An expression that is read as a factor, and as a condition if it is written as one. -/
structure Expr.IsReadWhole (dialect : Dialect) (e : Expr) (condition : Condition) : Prop where
  factor : e.IsRead dialect condition
  whole : ReadsWhole ((e.conditionLexemes dialect).flatMap (Lexeme.bound dialect)) condition

namespace Expr.IsRead

variable {e : Expr} {condition : Condition}

theorem readsWhole (h : e.IsRead dialect condition) : ReadsWhole (e.bound dialect) condition :=
  fun depth hdepth => (h depth hdepth).conjunction.disjunction

/-- Expressions other than conjunctions are written alike in both places. -/
theorem isReadWhole (h : e.IsRead dialect condition)
    (hlexemes : e.conditionLexemes dialect = e.lexemes dialect) :
    e.IsReadWhole dialect condition :=
  ⟨h, by
    rw [hlexemes]
    exact h.readsWhole⟩

/-- Parentheses make a factor of any condition. -/
theorem of_parenthesized {text : List BoundToken} (h : ReadsWhole text condition)
    (hbound : e.bound dialect = .token (.symbol "(") :: (text ++ [.token (.symbol ")")])) :
    e.IsRead dialect condition := by
  intro depth hdepth rest _
  have hlength : text.length < depth := by
    rw [hbound, List.length_cons, List.length_append] at hdepth
    omega
  have htext : e.bound dialect ++ rest =
      .token (.symbol "(") :: (text ++ .token (.symbol ")") :: rest) := by
    simp [hbound]
  rw [htext, readFactor?, readNegated?_of_skip?_eq_none rfl]
  exact h.predicate hlength rest

theorem not (h : e.IsRead dialect condition) :
    (Expr.not e).IsRead dialect (.not condition) := by
  have hbound : (Expr.not e).bound dialect = .token (.word "NOT") :: .token (.symbol "(") ::
      (e.bound dialect ++ [.token (.symbol ")")]) := by
    simp [bound, lexemes, Lexeme.parenthesized]
  intro depth hdepth rest _
  have hlength : (e.bound dialect).length < depth := by
    rw [hbound, List.length_cons, List.length_cons, List.length_append] at hdepth
    omega
  have htext : (Expr.not e).bound dialect ++ rest = .token (.word "NOT") ::
      .token (.symbol "(") :: (e.bound dialect ++ .token (.symbol ")") :: rest) := by
    simp [hbound]
  have hpredicate := h.readsWhole.predicate hlength rest
  rw [htext, readFactor?, List.length_cons, readNegated?]
  simp only [skip?_token, if_true]
  rw [readNegated?_of_skip?_eq_none rfl, hpredicate]
  rfl

end Expr.IsRead

namespace Expr.IsReadWhole

variable {part : Expr} {parts : List Expr} {condition : Condition} {conditions : List Condition}

/-- The parts of a conjunction as they are written, with `AND` between them. -/
theorem all (hfirst : part.IsRead dialect condition)
    (hothers : List.Forall₂ (IsRead dialect) parts conditions) :
    (Expr.all (part :: parts)).IsReadWhole dialect (conditions.foldl .and condition) := by
  have hand : (Lexeme.spaced "AND").flatMap (Lexeme.bound dialect) = [.token (.word "AND")] := rfl
  have hjoin := flatMap_bound_join_lexemesList hand part parts
  have hwhole : ReadsWhole (part.bound dialect ++
      separated (.word "AND") (parts.map (bound dialect))) (conditions.foldl .and condition) := by
    intro depth hdepth
    rw [List.length_append] at hdepth
    have hreads := forall₂_reads (.word "AND") (hothers.imp fun e c h => h depth) (by omega)
    exact (reads_conjunction (hfirst depth (by omega)) hreads).disjunction
  refine ⟨.of_parenthesized hwhole ?_, ?_⟩
  · rw [← hjoin]
    simp [bound, lexemes, Lexeme.parenthesized]
  · rwa [conditionLexemes, hjoin]

theorem any (hfirst : part.IsRead dialect condition)
    (hothers : List.Forall₂ (IsRead dialect) parts conditions) :
    (Expr.any (part :: parts)).IsReadWhole dialect (conditions.foldl .or condition) := by
  have hor : (Lexeme.spaced "OR").flatMap (Lexeme.bound dialect) = [.token (.word "OR")] := rfl
  have hjoin := flatMap_bound_join_lexemesList hor part parts
  have hwhole : ReadsWhole (part.bound dialect ++
      separated (.word "OR") (parts.map (bound dialect))) (conditions.foldl .or condition) := by
    intro depth hdepth
    rw [List.length_append] at hdepth
    have hreads := forall₂_reads (.word "OR")
      (hothers.imp fun e c h hlength => (h depth hlength).conjunction) (by omega)
    exact reads_disjunction (hfirst depth (by omega)).conjunction hreads
  refine IsRead.isReadWhole (.of_parenthesized hwhole ?_) rfl
  rw [← hjoin]
  simp [bound, lexemes, Lexeme.parenthesized]

/-- An empty conjunction is written as an equation that holds. -/
theorem allNil : (Expr.all []).IsReadWhole dialect
    (.compare (.value (.int 1)) .eq (.value (.int 1))) := by
  have hequation : (Expr.compare (.int 1) .eq (.int 1)).IsRead dialect _ :=
    (ReadsAs.int 1).compare .eq (.int 1)
  exact IsRead.isReadWhole hequation rfl

/-- An empty disjunction is written as an equation that does not hold. -/
theorem anyNil : (Expr.any []).IsReadWhole dialect
    (.compare (.value (.int 1)) .eq (.value (.int 0))) := by
  have hequation : (Expr.compare (.int 1) .eq (.int 0)).IsRead dialect _ :=
    (ReadsAs.int 1).compare .eq (.int 0)
  exact IsRead.isReadWhole hequation rfl

end Expr.IsReadWhole

/-- The condition of a clause, read from its text with the values that it binds. -/
theorem Dialect.readWhere?_of_isReadWhole {e : Expr} {condition : Condition}
    (hlexical : e.IsLexical dialect) (h : e.IsReadWhole dialect condition) :
    dialect.readWhere? (Lexeme.text dialect (filterLexemes dialect (some e)))
        (Lexeme.params (filterLexemes dialect (some e))) = some condition := by
  have hfollows : Lexeme.Spaced (filterLexemes dialect (some e)) :=
    (follows_filterLexemes dialect (some e)) [] Lexeme.spaced_nil
  have htokens : Lexeme.AreTokens dialect (filterLexemes dialect (some e)) := by
    refine areTokens_filterLexemes ?_
    rintro _ ⟨⟩
    exact hlexical
  have hbound : (filterLexemes dialect (some e)).flatMap (Lexeme.bound dialect) =
      .token (.word "WHERE") :: (e.conditionLexemes dialect).flatMap (Lexeme.bound dialect) := by
    simp [filterLexemes]
  have hread := h.whole _ le_rfl [] (.inl rfl)
  rw [List.append_nil] at hread
  simp only [readWhere?, Lexeme.lex_text hfollows htokens, htokens.bindValues?, hbound,
    Option.bind_eq_bind, Option.bind_some, skip?_token, if_true, readCondition?, hread]

end PagedQuery
