import PagedQuery.Proofs.Statement.Spacing
import PagedQuery.Proofs.Statement.Tokens
import PagedQuery.Dialect.Functions

/-!
# Reading lexemes back

The text of lexemes that do not run together is read as the tokens of each
lexeme, one after the other. A name is read as one identifier that carries the
name, whatever its characters, and a string literal as one string.

* `Lexeme.tokens`, `Lexeme.IsToken`: what a lexeme is read as, and which lexemes are;
* `Lexeme.IsToken.read`: reading a single lexeme;
* `Lexeme.lex_text`: reading a list of lexemes.
-/

namespace PagedQuery

/-! ## Tokens of lexemes -/

/-- An identifier with the name that it carries. -/
def Token.ofName (name : String) : Token :=
  if Identifier.isPlain name.toList then .word name else .delimited name

/-- A number; its sign is a token of its own. -/
def Token.ofNumber : List Char → List Token
  | '-' :: digits => [.symbol "-", .number (String.ofList digits)]
  | digits => [.number (String.ofList digits)]

namespace Lexeme

/-- What a lexeme is read as. -/
def tokens (dialect : Dialect) : Lexeme → List Token
  | .space => []
  | .word text => [.word text]
  | .symbol text => [.symbol text]
  | .number text => Token.ofNumber text.toList
  | .name text => [.ofName text]
  | .quoted text => [.string text]
  | .param _ => [.mark]
  | .raw sql => (dialect.lex sql.toList).getD []

end Lexeme

/-- Keywords, and names of functions and types: words that could not be taken for a plain
name. -/
def isWord (text : List Char) : Bool :=
  Run.word.fits text && !Identifier.isPlain text

theorem isWord_eq_true_iff {text : List Char} :
    isWord text = true ↔ Run.word.fits text = true ∧ Identifier.isPlain text = false := by
  rw [isWord, Bool.and_eq_true, Bool.not_eq_true']

/-- Punctuation and operators. -/
def isSymbol : List Char → Bool
  | [c] => isPunctuation c || Run.operator.fits [c]
  | text => Run.operator.fits text

/-- Digits with points among them, after a minus or not. -/
def isNumber : List Char → Bool
  | '-' :: digits => Run.number.fits digits
  | digits => Run.number.fits digits

namespace Lexeme

/-- Lexemes that are read as what they are: words, symbols and numbers in the characters of their
kind, and no piece of a statement but the sentinel for timestamps. -/
def IsToken (dialect : Dialect) : Lexeme → Prop
  | .word text => isWord text.toList = true
  | .symbol text => isSymbol text.toList = true
  | .number text => isNumber text.toList = true
  | .raw sql => Expr.raw sql = dialect.timestampSentinel
  | _ => True

/-- Reading a lexeme gives its tokens, up to one that the lexer still stands in, and that one
does not go on with what may follow the lexeme. -/
structure Read (dialect : Dialect) (x : Lexeme) (completed : List Token) (s : Scan) : Prop where
  read : Scan.between.read dialect (x.chars dialect) = some (completed, s)
  complete : s.isComplete = true
  tokens : completed ++ s.pending = x.tokens dialect
  stops : ∀ y, Separate x y → ∀ c ∈ (y.chars dialect).head?, s.continues c = false

variable {dialect : Dialect}

/-- The characters that a gap writes. -/
def gapChars : List Char := [' ', '(', ')', ',']

theorem mem_gapChars (dialect : Dialect) {y : Lexeme} (hy : y.isGap = true) :
    ∃ c ∈ gapChars, y.chars dialect = [c] := by
  cases y with
  | space => exact ⟨' ', by decide, rfl⟩
  | symbol text =>
    simp only [isGap, Bool.or_eq_true, decide_eq_true_eq] at hy
    rcases hy with (rfl | rfl) | rfl
    · exact ⟨'(', by decide, rfl⟩
    · exact ⟨')', by decide, rfl⟩
    · exact ⟨',', by decide, rfl⟩
  | _ => cases hy

/-- What ends a token: a gap, and a point after a name. -/
theorem stops_of_separate {x y : Lexeme} {s : Scan} (hgap : x.isGap = false)
    (hpoint : x ≠ .symbol ".") (hname : ∀ text, x = .name text → s.continues '.' = false)
    (hstops : ∀ c ∈ gapChars, s.continues c = false) (hseparate : Separate x y) :
    ∀ c ∈ (y.chars dialect).head?, s.continues c = false := by
  intro c hc
  cases hseparate with
  | after h =>
    rw [hgap] at h
    cases h
  | before h =>
    obtain ⟨g, hg, hchars⟩ := mem_gapChars dialect h
    rw [hchars] at hc
    cases Option.some.inj hc
    exact hstops _ hg
  | afterPoint => exact absurd rfl hpoint
  | beforePoint =>
    cases Option.some.inj hc
    exact hname _ rfl

theorem run_stops (kind : Run) (text : List Char) :
    ∀ c ∈ gapChars, (Scan.run kind text).continues c = false := by
  intro c hc
  simp only [gapChars, List.mem_cons, List.not_mem_nil, or_false] at hc
  rcases hc with rfl | rfl | rfl | rfl <;> cases kind <;> rfl

theorem closing_stops {quote : Char} (hquote : dialect.IsQuote quote) (text : List Char) :
    ∀ c ∈ '.' :: gapChars, (Scan.closing quote text).continues c = false := by
  have hne : ∀ c ∈ '.' :: gapChars, c ≠ quote := by
    intro c hc
    simp only [gapChars, List.mem_cons, List.not_mem_nil, or_false] at hc
    rcases hquote with rfl | rfl
    · rcases hc with rfl | rfl | rfl | rfl | rfl <;> decide
    · rcases hc with rfl | rfl | rfl | rfl | rfl <;> cases dialect <;> decide
  exact fun c hc => decide_eq_false (hne c hc)

/-! ## Reading a single lexeme -/

theorem fits_of_isPlain {text : List Char} (h : Identifier.isPlain text = true) :
    Run.word.fits text = true := by
  cases text with
  | nil => cases h
  | cons c rest =>
    simp only [Identifier.isPlain, Bool.and_eq_true, List.all_eq_true] at h
    obtain ⟨hhead, hrest⟩ := h
    have halpha {d : Char} (hlower : d.isLower = true) : d.isAlpha = true :=
      (Bool.or_eq_true _ _).mpr (.inr hlower)
    refine Run.fits_eq_true_iff.mpr ⟨c, rest, rfl, ?_, ?_⟩
    · simp only [Identifier.isHead, Bool.or_eq_true, decide_eq_true_eq] at hhead
      rcases hhead with hlower | rfl
      · simp [Run.ofHead?, halpha hlower]
      · decide
    · intro d hd
      have htail := hrest d hd
      simp only [Identifier.isTail, Bool.or_eq_true, decide_eq_true_eq] at htail
      rcases htail with (hlower | hdigit) | rfl
      · simp [Run.continues, Char.isAlphanum, halpha hlower]
      · simp [Run.continues, Char.isAlphanum, hdigit]
      · decide

theorem Read.run {x : Lexeme} {kind : Run} {text : List Char} (hfits : kind.fits text = true)
    (hchars : x.chars dialect = text) (htokens : x.tokens dialect = [kind.token text])
    (hgap : x.isGap = false) (hpoint : x ≠ .symbol ".")
    (hname : ∀ name, x = .name name → kind.continues '.' = false) :
    x.Read dialect [] (.run kind text) where
  read := by rw [hchars, Run.read_of_fits hfits]
  complete := rfl
  tokens := htokens.symm
  stops := fun _ => stops_of_separate hgap hpoint hname (run_stops kind text)

theorem Read.quoted {x : Lexeme} {quote : Char} (text : List Char)
    (hquote : dialect.IsQuote quote) (hchars : x.chars dialect = Identifier.quoted quote text)
    (htokens : x.tokens dialect = [quotedToken quote text]) (hgap : x.isGap = false)
    (hpoint : x ≠ .symbol ".") : x.Read dialect [] (.closing quote text) where
  read := by rw [hchars, read_quoted hquote]
  complete := rfl
  tokens := htokens.symm
  stops := by
    have hstops := closing_stops hquote text
    exact fun _ => stops_of_separate hgap hpoint (fun _ _ => hstops '.' (by decide))
      fun c hc => hstops c (List.mem_cons_of_mem _ hc)

/-- A token of one character, after which the lexer stands between tokens. -/
theorem Read.single {x : Lexeme} {c : Char} {completed : List Token}
    (hbegin : Scan.begin dialect c = some (completed, .between)) (hchars : x.chars dialect = [c])
    (htokens : x.tokens dialect = completed) : x.Read dialect completed .between where
  read := by rw [hchars, Scan.read_begin, hbegin]
  complete := rfl
  tokens := (List.append_nil _).trans htokens.symm
  stops := fun _ _ _ _ => rfl

theorem ofNumber_digits {digits : List Char} (h : Run.number.fits digits = true) :
    Token.ofNumber digits = [.number (String.ofList digits)] := by
  unfold Token.ofNumber
  split
  · cases h
  · rfl

theorem operator_continues_eq_false {c : Char} (h : Run.ofHead? c = some .number) :
    Run.operator.continues c = false := by
  by_contra hoperator
  simp only [Run.continues, Run.isOperatorChar, Bool.not_eq_false, Bool.or_eq_true,
    decide_eq_true_eq] at hoperator
  rcases hoperator with
    (((((((rfl | rfl) | rfl) | rfl) | rfl) | rfl) | rfl) | rfl) | rfl <;> cases h

/-- Digits after a minus, which is an operator of its own. -/
theorem Read.negative {x : Lexeme} {digits : List Char} (hfits : Run.number.fits digits = true)
    (hchars : x.chars dialect = '-' :: digits)
    (htokens : x.tokens dialect = [.symbol "-", .number (String.ofList digits)])
    (hgap : x.isGap = false) (hpoint : x ≠ .symbol ".") (hname : ∀ name, x ≠ .name name) :
    x.Read dialect [.symbol "-"] (.run .number digits) where
  read := by
    have hminus : Scan.between.read dialect ['-'] = some ([], .run .operator ['-']) := by
      rw [Scan.read_begin]
      cases dialect <;> rfl
    have hread : Scan.between.read dialect digits = some ([], .run .number digits) :=
      Run.read_of_fits hfits
    obtain ⟨c, rest, rfl, hhead, -⟩ := Run.fits_eq_true_iff.mp hfits
    have hstop : (Scan.run .operator ['-']).Stops c := by
      exact ⟨rfl, operator_continues_eq_false hhead⟩
    have hdigits : (Scan.run .operator ['-']).read dialect (c :: rest) =
        some ([.symbol "-"], .run .number (c :: rest)) := by
      rw [hstop.read_cons, hread]
      rfl
    rw [hchars]
    exact Scan.read_append_eq_some hminus hdigits
  complete := rfl
  tokens := htokens.symm
  stops := fun _ => stops_of_separate hgap hpoint (fun name hx => absurd hx (hname name))
    (run_stops .number digits)

/-- The sentinel for timestamps. -/
theorem exists_read_sentinel {sql : String} (h : Expr.raw sql = dialect.timestampSentinel) :
    ∃ completed s, Read dialect (.raw sql) completed s := by
  cases dialect with
  | postgres =>
    cases h
    have hread : Scan.between.read .postgres "TIMESTAMP '9999-12-31 23:59:59'".toList =
        some ([.word "TIMESTAMP"], .closing stringQuote "9999-12-31 23:59:59".toList) := by
      decide +kernel
    refine ⟨_, _, hread, rfl, ?_, fun _ => stops_of_separate rfl (by simp) (by simp) ?_⟩
    · rw [tokens, Dialect.lex_of_read hread rfl]
      rfl
    · have hquote : Dialect.IsQuote .postgres stringQuote := .inl rfl
      exact fun c hc => closing_stops hquote _ c (List.mem_cons_of_mem _ hc)
  | mysql =>
    cases h
    have hread : Scan.between.read .mysql "TIMESTAMP('9999-12-31 23:59:59')".toList =
        some ([.word "TIMESTAMP", .symbol "(", .string "9999-12-31 23:59:59", .symbol ")"],
          .between) := by
      decide +kernel
    refine ⟨_, _, hread, rfl, ?_, fun _ _ _ _ => rfl⟩
    rw [tokens, Dialect.lex_of_read hread rfl]
    rfl
  | clickhouse =>
    cases h
    have hread : Scan.between.read .clickhouse "toDateTime('2105-12-31 23:59:59')".toList =
        some ([.word "toDateTime", .symbol "(", .string "2105-12-31 23:59:59", .symbol ")"],
          .between) := by
      decide +kernel
    refine ⟨_, _, hread, rfl, ?_, fun _ _ _ _ => rfl⟩
    rw [tokens, Dialect.lex_of_read hread rfl]
    rfl

theorem exists_read_symbol {text : String} (h : isSymbol text.toList = true) :
    ∃ completed s, Read dialect (.symbol text) completed s := by
  have hcases : (∃ c, isPunctuation c = true ∧ text.toList = [c]) ∨
      Run.operator.fits text.toList = true := by
    unfold isSymbol at h
    split at h
    · rename_i c heq
      rcases Bool.or_eq_true _ _ ▸ h with hc | hc
      · exact .inl ⟨c, hc, heq⟩
      · exact .inr (heq ▸ hc)
    · exact .inr h
  rcases hcases with ⟨c, hc, htext⟩ | hfits
  · refine ⟨[.symbol (String.ofList [c])], .between, .single ?_ htext ?_⟩
    · simp only [isPunctuation, Bool.or_eq_true, decide_eq_true_eq] at hc
      rcases hc with ((rfl | rfl) | rfl) | rfl <;> cases dialect <;> rfl
    · rw [← htext, String.ofList_toList]
      rfl
  · have hne {t : String} (ht : Run.operator.fits t.toList = false) : text ≠ t := by
      rintro rfl
      rw [ht] at hfits
      cases hfits
    refine ⟨_, _, .run hfits rfl ?_ ?_ ?_ (by simp)⟩
    · simp [tokens, Run.token]
    · simp [isGap, hne (t := "(") rfl, hne (t := ")") rfl, hne (t := ",") rfl]
    · simpa using hne (t := ".") rfl

theorem exists_read_number {text : String} (h : isNumber text.toList = true) :
    ∃ completed s, Read dialect (.number text) completed s := by
  unfold isNumber at h
  split at h
  · rename_i digits htext
    refine ⟨_, _, .negative h htext ?_ rfl (by simp) (by simp)⟩
    simp [tokens, htext, Token.ofNumber]
  · refine ⟨_, _, .run h rfl ?_ rfl (by simp) (by simp)⟩
    simp [tokens, ofNumber_digits h, Run.token]

/-- A lexeme is read as what it is. -/
theorem IsToken.read {x : Lexeme} (h : x.IsToken dialect) :
    ∃ completed s, x.Read dialect completed s := by
  cases x with
  | space => exact ⟨_, _, .single (by cases dialect <;> rfl) rfl rfl⟩
  | word text =>
    obtain ⟨hfits, -⟩ := isWord_eq_true_iff.mp h
    refine ⟨_, _, .run hfits rfl ?_ rfl (by simp) (by simp)⟩
    simp [tokens, Run.token]
  | symbol text => exact exists_read_symbol h
  | number text => exact exists_read_number h
  | name text =>
    by_cases hplain : Identifier.isPlain text.toList
    · refine ⟨_, _, .run (fits_of_isPlain hplain) ?_ ?_ rfl (by simp) (fun _ _ => rfl)⟩
      · simp [chars, Dialect.quoteIdentifier, hplain]
      · simp [tokens, Token.ofName, hplain, Run.token]
    · refine ⟨_, _, .quoted text.toList (.inr rfl) ?_ ?_ rfl (by simp)⟩
      · simp [chars, Dialect.quoteIdentifier, hplain]
      · have hquote : dialect.identifierQuote ≠ stringQuote := by
          cases dialect <;> decide
        simp [tokens, Token.ofName, hplain, quotedToken, hquote]
  | quoted text =>
    refine ⟨_, _, .quoted text.toList (.inl rfl) rfl ?_ rfl (by simp)⟩
    simp [tokens, quotedToken]
  | param value => exact ⟨_, _, .single (by cases dialect <;> rfl) rfl rfl⟩
  | raw sql => exact exists_read_sentinel h

/-! ## Reading lists of lexemes -/

theorem IsToken.chars_ne_nil {x : Lexeme} (h : x.IsToken dialect) : x.chars dialect ≠ [] := by
  intro hnil
  obtain ⟨completed, s, hread⟩ := h.read
  -- the lexer has read nothing, and every lexeme but a space is read as something
  have hnone : x.tokens dialect = [] := by
    have hcompleted := hread.read
    rw [hnil] at hcompleted
    cases hcompleted
    exact hread.tokens.symm
  cases x with
  | space => cases hnil
  | number text =>
    rw [tokens, Token.ofNumber.eq_def] at hnone
    split at hnone <;> cases hnone
  | raw sql =>
    cases dialect <;> cases h <;> cases hnil
  | _ => cases hnone

theorem exists_read_of_spaced {lexemes : List Lexeme} (hspaced : Spaced lexemes)
    (htokens : ∀ x ∈ lexemes, x.IsToken dialect) :
    ∃ completed s,
      Scan.between.read dialect (lexemes.flatMap (chars dialect)) = some (completed, s) ∧
      s.isComplete = true ∧
      completed ++ s.pending = lexemes.flatMap (tokens dialect) := by
  induction lexemes with
  | nil => exact ⟨[], .between, rfl, rfl, rfl⟩
  | cons x rest ih =>
    obtain ⟨hfirst, hspaced⟩ := List.isChain_cons.mp hspaced
    obtain ⟨others, last, hothers, hcomplete, htail⟩ :=
      ih hspaced fun y hy => htokens y (List.mem_cons_of_mem _ hy)
    obtain ⟨completed, s, hread⟩ := (htokens x List.mem_cons_self).read
    cases rest with
    | nil =>
      refine ⟨completed, s, ?_, hread.complete, ?_⟩
      · simpa using hread.read
      · simpa using hread.tokens
    | cons y more =>
      -- the next lexeme begins with a character that ends the token of the first one
      obtain ⟨c, tail, hchars⟩ : ∃ c tail, y.chars dialect = c :: tail :=
        List.exists_cons_of_ne_nil (htokens y (by simp)).chars_ne_nil
      have hstop : s.Stops c := by
        refine ⟨hread.complete, hread.stops y (hfirst y rfl) c ?_⟩
        rw [hchars]
        rfl
      have hnext : (y :: more).flatMap (chars dialect) =
          c :: (tail ++ more.flatMap (chars dialect)) := by
        rw [List.flatMap_cons, hchars, List.cons_append]
      have hrest : s.read dialect ((y :: more).flatMap (chars dialect)) =
          some (s.pending ++ others, last) := by
        rw [hnext, hstop.read_cons, ← hnext, hothers]
        rfl
      refine ⟨_, last, Scan.read_append_eq_some hread.read hrest, hcomplete, ?_⟩
      rw [List.flatMap_cons, ← hread.tokens, ← htail]
      simp only [List.append_assoc]

/-- The text of lexemes that do not run together is read as their tokens. -/
theorem lex_text {lexemes : List Lexeme} (hspaced : Spaced lexemes)
    (htokens : ∀ x ∈ lexemes, x.IsToken dialect) :
    dialect.lex (text dialect lexemes).toList = some (lexemes.flatMap (tokens dialect)) := by
  obtain ⟨completed, s, hread, hcomplete, heq⟩ := exists_read_of_spaced hspaced htokens
  rw [text, String.toList_ofList, Dialect.lex_of_read hread hcomplete, heq]

end Lexeme

end PagedQuery
