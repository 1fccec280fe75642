import PagedQuery.Statement.Lexeme

/-!
# Tokens of a text

A lexer for the statements of a dialect, which knows nothing of how they are
written. It knows bare words, identifiers in the quotes of the dialect, strings
in single quotes, numbers, punctuation, operators and question marks; a doubled
quote is the only escape.

* `Token`, `Token.name?`, `Token.string?`: tokens, and what they carry;
* `Scan`: where the lexer stands in a token;
* `Dialect.lex`: the tokens of a text, `none` where there is none;
* `Scan.read_append`, `Scan.Stops`: pieces of text, and where a token ends;
* `Run.read_of_fits`, `read_quoted`: how the lexer reads runs of characters and texts in quotes.
-/

namespace PagedQuery

/-! ## The lexer -/

inductive Token where
  /-- A keyword or a bare identifier. -/
  | word (text : String)
  /-- An identifier in quotes. -/
  | delimited (text : String)
  | string (text : String)
  | number (text : String)
  /-- Punctuation, or an operator. -/
  | symbol (text : String)
  | mark
deriving DecidableEq

/-- The name that an identifier carries. A word is an identifier if it is plain. -/
def Token.name? : Token → Option String
  | .word text => if Identifier.isPlain text.toList then some text else none
  | .delimited text => some text
  | _ => none

/-- The text that a string carries. -/
def Token.string? : Token → Option String
  | .string text => some text
  | _ => none

/-- The tokens that are runs of characters of one kind. -/
inductive Run where
  | word
  | number
  | operator
deriving DecidableEq

namespace Run

def isOperatorChar (c : Char) : Bool :=
  c = '=' || c = '!' || c = '<' || c = '>' || c = '@' || c = '+' || c = '-' || c = '*' || c = '/'

/-- The characters that a run goes on with. -/
def continues : Run → Char → Bool
  | .word, c => c.isAlphanum || c = '_'
  | .number, c => c.isDigit || c = '.'
  | .operator, c => isOperatorChar c

/-- The kind of run that a character begins. -/
def ofHead? (c : Char) : Option Run :=
  if c.isAlpha || c = '_' then some .word
  else if c.isDigit then some .number
  else if isOperatorChar c then some .operator
  else none

/-- Whether a text is one run. -/
def fits (kind : Run) : List Char → Bool
  | [] => false
  | c :: rest => ofHead? c = some kind && rest.all kind.continues

def token : Run → List Char → Token
  | .word, text => .word (String.ofList text)
  | .number, text => .number (String.ofList text)
  | .operator, text => .symbol (String.ofList text)

end Run

/-- Punctuation, each character of which is a token of its own. -/
def isPunctuation (c : Char) : Bool :=
  c = '(' || c = ')' || c = ',' || c = '.'

/-- The quotes around strings. -/
def stringQuote : Char := '\x27'

/-- The token of a text in quotes. -/
def quotedToken (quote : Char) (text : List Char) : Token :=
  if quote = stringQuote then .string (String.ofList text) else .delimited (String.ofList text)

/-- Where the lexer stands. -/
inductive Scan where
  | between
  | run (kind : Run) (text : List Char)
  | quoted (quote : Char) (text : List Char)
  /-- After a quote, which ends the text unless another one follows. -/
  | closing (quote : Char) (text : List Char)
deriving DecidableEq

namespace Scan

/-- Whether a character belongs to the token that the lexer stands in. -/
def continues : Scan → Char → Bool
  | .between, _ => false
  | .run kind _, c => kind.continues c
  | .quoted .., _ => true
  | .closing quote _, c => c = quote

/-- The token goes on with a character. -/
def push : Scan → Char → Scan
  | .between, _ => .between
  | .run kind text, c => .run kind (text ++ [c])
  | .quoted quote text, c => if c = quote then .closing quote text else .quoted quote (text ++ [c])
  | .closing quote text, c => .quoted quote (text ++ [c])

/-- The token that the lexer stands in, as far as it has read it. -/
def pending : Scan → List Token
  | .between => []
  | .run kind text => [kind.token text]
  | .quoted quote text => [quotedToken quote text]
  | .closing quote text => [quotedToken quote text]

/-- Whether the text may end here. -/
def isComplete : Scan → Bool
  | .quoted .. => false
  | _ => true

variable (dialect : Dialect)

/-- What a character begins. -/
def begin (c : Char) : Option (List Token × Scan) :=
  if c.isWhitespace then some ([], .between)
  else if isPunctuation c then some ([.symbol (String.ofList [c])], .between)
  else if c = '?' then some ([.mark], .between)
  else if c = stringQuote || c = dialect.identifierQuote then some ([], .quoted c [])
  else (Run.ofHead? c).map fun kind => ([], .run kind [c])

/-- The tokens that a character completes, and where the lexer stands after it. -/
def step (s : Scan) (c : Char) : Option (List Token × Scan) :=
  if s.continues c then some ([], s.push c)
  else (begin dialect c).map fun (tokens, next) => (s.pending ++ tokens, next)

/-- The tokens that a piece of text completes, and where the lexer stands after it. -/
def read (s : Scan) : List Char → Option (List Token × Scan)
  | [] => some ([], s)
  | c :: rest => do
    let (tokens, next) ← s.step dialect c
    let (others, last) ← next.read rest
    some (tokens ++ others, last)

end Scan

/-- The tokens of a text. -/
def Dialect.lex (dialect : Dialect) (text : List Char) : Option (List Token) := do
  let (tokens, last) ← Scan.between.read dialect text
  if last.isComplete then some (tokens ++ last.pending) else none

example : Dialect.lex .postgres "t.\x22a\x22\x22b\x22 >= -1.5 OR x = 'it''s'".toList =
    some [.word "t", .symbol ".", .delimited "a\x22b", .symbol ">=", .symbol "-", .number "1.5",
      .word "OR", .word "x", .symbol "=", .string "it's"] := by
  decide +kernel

/-! ## Reading a piece of text -/

namespace Scan

variable {dialect : Dialect} {s next last : Scan} {tokens others : List Token}

/-- What is read of two pieces, one after the other. -/
theorem read_append {piece piece' : List Char} (h : s.read dialect piece = some (tokens, next)) :
    s.read dialect (piece ++ piece') =
      (next.read dialect piece').map fun (others, last) => (tokens ++ others, last) := by
  induction piece generalizing s tokens with
  | nil =>
    cases h
    simp
  | cons c rest ih =>
    simp only [read, Option.bind_eq_bind, Option.bind_eq_some_iff] at h
    obtain ⟨⟨first, after⟩, hstep, ⟨more, last⟩, hrest, h⟩ := h
    cases h
    simp only [List.cons_append, read, hstep, ih hrest, Option.bind_eq_bind, Option.bind_some]
    cases last.read dialect piece' <;> simp

theorem read_append_eq_some {piece piece' : List Char}
    (h : s.read dialect piece = some (tokens, next))
    (h' : next.read dialect piece' = some (others, last)) :
    s.read dialect (piece ++ piece') = some (tokens ++ others, last) := by
  rw [read_append h, h']
  rfl

theorem read_singleton (s : Scan) (c : Char) : s.read dialect [c] = s.step dialect c := by
  simp only [read, Option.bind_eq_bind, Option.bind_some, List.append_nil]
  cases s.step dialect c <;> rfl

/-- A character of the token that the lexer stands in. -/
theorem read_push {c : Char} (h : s.continues c = true) :
    s.read dialect [c] = some ([], s.push c) := by
  rw [read_singleton, step, if_pos h]

/-- A character between two tokens. -/
theorem read_begin (c : Char) : between.read dialect [c] = begin dialect c := by
  rw [read_singleton, step]
  simp only [continues, pending, Bool.false_eq_true, if_false, List.nil_append]
  cases begin dialect c <;> rfl

/-- The token that the lexer stands in ends before a character. -/
structure Stops (s : Scan) (c : Char) : Prop where
  complete : s.isComplete = true
  continues : s.continues c = false

/-- Where a token ends, the lexer goes on as if it stood between tokens. -/
theorem Stops.read_cons {c : Char} (h : s.Stops c) (rest : List Char) :
    s.read dialect (c :: rest) =
      (between.read dialect (c :: rest)).map fun (tokens, last) => (s.pending ++ tokens, last) := by
  have hstep : s.step dialect c =
      (begin dialect c).map fun (tokens, next) => (s.pending ++ tokens, next) := by
    rw [step, h.continues]
    rfl
  have hbegin : between.step dialect c = begin dialect c := by
    rw [← read_singleton, read_begin]
  simp only [read, hstep, hbegin]
  cases begin dialect c with
  | none => rfl
  | some result =>
    obtain ⟨begun, next⟩ := result
    simp only [Option.map_some, Option.bind_eq_bind, Option.bind_some]
    cases next.read dialect rest <;> simp

end Scan

theorem Dialect.lex_of_read {dialect : Dialect} {text : List Char} {tokens : List Token}
    {s : Scan} (h : Scan.between.read dialect text = some (tokens, s))
    (hcomplete : s.isComplete = true) : dialect.lex text = some (tokens ++ s.pending) := by
  simp only [lex, h, Option.bind_eq_bind, Option.bind_some, hcomplete, if_true]

/-! ## Runs -/

namespace Run

variable {dialect : Dialect} {kind : Run}

theorem fits_eq_true_iff {text : List Char} :
    kind.fits text = true ↔
      ∃ c rest, text = c :: rest ∧ ofHead? c = some kind ∧
        ∀ d ∈ rest, kind.continues d = true := by
  cases text with
  | nil => simp [fits]
  | cons c rest =>
    simp only [fits, Bool.and_eq_true, decide_eq_true_eq, List.all_eq_true, List.cons.injEq]
    constructor
    · rintro ⟨hhead, hrest⟩
      exact ⟨c, rest, ⟨rfl, rfl⟩, hhead, hrest⟩
    · rintro ⟨_, _, ⟨rfl, rfl⟩, hhead, hrest⟩
      exact ⟨hhead, hrest⟩

/-- A run goes on as long as its characters do. -/
theorem read_continues (text : List Char) {piece : List Char}
    (h : ∀ c ∈ piece, kind.continues c = true) :
    (Scan.run kind text).read dialect piece = some ([], .run kind (text ++ piece)) := by
  induction piece generalizing text with
  | nil =>
    rw [List.append_nil]
    rfl
  | cons c rest ih =>
    have hfirst : (Scan.run kind text).read dialect [c] = some ([], .run kind (text ++ [c])) :=
      Scan.read_push (h c List.mem_cons_self)
    have hrest := ih (text ++ [c]) fun d hd => h d (List.mem_cons_of_mem _ hd)
    simpa using Scan.read_append_eq_some hfirst hrest

/-- A character that begins a run is of no other kind. -/
theorem begin_of_ofHead? {c : Char} (h : ofHead? c = some kind) :
    Scan.begin dialect c = some ([], .run kind [c]) := by
  have hne {x : Char} (hx : ofHead? x = none) : c ≠ x := by
    rintro rfl
    rw [hx] at h
    cases h
  have hblank : c.isWhitespace = false := by
    simp [Char.isWhitespace, hne (x := ' ') (by decide), hne (x := '\t') (by decide),
      hne (x := '\r') (by decide), hne (x := '\n') (by decide)]
  have hpunctuation : isPunctuation c = false := by
    simp [isPunctuation, hne (x := '(') (by decide), hne (x := ')') (by decide),
      hne (x := ',') (by decide), hne (x := '.') (by decide)]
  have hmark : c ≠ '?' := hne (by decide)
  have hstring : c ≠ stringQuote := hne (by decide)
  have hquote : c ≠ dialect.identifierQuote := by
    cases dialect <;> exact hne (by decide)
  simp [Scan.begin, hblank, hpunctuation, hmark, hstring, hquote, h]

theorem read_of_fits {text : List Char} (h : kind.fits text = true) :
    Scan.between.read dialect text = some ([], .run kind text) := by
  obtain ⟨c, rest, rfl, hhead, hrest⟩ := fits_eq_true_iff.mp h
  exact Scan.read_append_eq_some ((Scan.read_begin c).trans (begin_of_ofHead? hhead))
    (read_continues _ hrest)

end Run

/-! ## Texts in quotes -/

section

variable {dialect : Dialect}

/-- The text between quotes, in which every quote is doubled. -/
theorem read_doubleQuotes (quote : Char) (text piece : List Char) :
    (Scan.quoted quote text).read dialect (Identifier.doubleQuotes quote piece) =
      some ([], .quoted quote (text ++ piece)) := by
  induction piece generalizing text with
  | nil =>
    rw [List.append_nil]
    rfl
  | cons c rest ih =>
    have hfirst : (Scan.quoted quote text).read dialect (if c = quote then [c, c] else [c]) =
        some ([], .quoted quote (text ++ [c])) := by
      by_cases hc : c = quote
      · subst hc
        have hopen : (Scan.quoted c text).read dialect [c] = some ([], .closing c text) := by
          simpa [Scan.push] using Scan.read_push (s := .quoted c text) (c := c) rfl
        have hclose : (Scan.closing c text).read dialect [c] =
            some ([], .quoted c (text ++ [c])) :=
          Scan.read_push (by simp [Scan.continues])
        rw [if_pos rfl]
        exact Scan.read_append_eq_some hopen hclose
      · rw [if_neg hc]
        simpa [Scan.push, hc] using Scan.read_push (s := .quoted quote text) (c := c) rfl
    simpa [Identifier.doubleQuotes] using Scan.read_append_eq_some hfirst (ih (text ++ [c]))

/-- The quotes that the lexer of a dialect knows. -/
def Dialect.IsQuote (dialect : Dialect) (quote : Char) : Prop :=
  quote = stringQuote ∨ quote = dialect.identifierQuote

theorem read_quoted {quote : Char} (hquote : dialect.IsQuote quote) (text : List Char) :
    Scan.between.read dialect (Identifier.quoted quote text) =
      some ([], .closing quote text) := by
  have hbegin : Scan.between.read dialect [quote] = some ([], .quoted quote []) := by
    rw [Scan.read_begin]
    rcases hquote with rfl | rfl
    · cases dialect <;> rfl
    · cases dialect <;> rfl
  have hend : (Scan.quoted quote text).read dialect [quote] = some ([], .closing quote text) := by
    simpa [Scan.push] using Scan.read_push (s := .quoted quote text) (c := quote) rfl
  have hinner := Scan.read_append_eq_some hbegin (read_doubleQuotes quote [] text)
  exact Scan.read_append_eq_some hinner hend

end

end PagedQuery
