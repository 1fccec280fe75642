import PagedQuery.Json.Basic

/-!
# Reading JSON text

Text becomes tokens and tokens become a value, each by one pass that keeps an
explicit state: the scanner the token it is in, the reader the arrays and
objects that are open. Nesting is therefore unlimited here; a limit is the
business of whoever uses the value (`Json.isSound`).

* `Json.Token`, `Json.Token.scan?`: the tokens of a text;
* `Json.ofTokens?`: the value of a list of tokens;
* `Json.read?`: both.
-/

namespace PagedQuery.Json

/-! ## Tokens -/

inductive Token where
  | openArray
  | closeArray
  | openObject
  | closeObject
  | comma
  | colon
  | scalar (value : Json)

/-- The place inside a string escape: outside of one, after the backslash, or after `u` with
some of the four hexadecimal digits. -/
inductive Escape where
  | outside
  | started
  | hex (missing : Nat) (value : Nat)

/-- The token that the scanner is in. A string collects code points, with an escape by number
as the UTF-16 unit that it names; collected text is reversed. -/
inductive Mode where
  | gap
  | word (rest : List Char) (value : Json)
  | number (text : List Char)
  | string (units : List Nat) (escape : Escape)

structure Scanner where
  mode : Mode
  /-- The tokens found so far, the last one first. -/
  tokens : List Token

/-- Blank space between tokens. -/
def isGap (c : Char) : Bool :=
  c = ' ' || c = '\t' || c = '\n' || c = '\r'

def isNumberChar (c : Char) : Bool :=
  c.isDigit || c = '-' || c = '+' || c = '.' || c = 'e' || c = 'E'

/-- Joins surrogate pairs; `none` if half of one stands alone. -/
def joinUnits? : List Nat → Option (List Char)
  | [] => some []
  | high :: low :: rest =>
    if 0xD800 ≤ high ∧ high < 0xDC00 then
      if 0xDC00 ≤ low ∧ low < 0xE000 then
        (joinUnits? rest).map
          (Char.ofNat (0x10000 + (high - 0xD800) * 0x400 + (low - 0xDC00)) :: ·)
      else none
    else if 0xDC00 ≤ high ∧ high < 0xE000 then none
    else (joinUnits? (low :: rest)).map (Char.ofNat high :: ·)
  | [unit] => if 0xD800 ≤ unit ∧ unit < 0xE000 then none else some [Char.ofNat unit]

def hexDigit? (c : Char) : Option Nat :=
  if c.isDigit then some (c.toNat - '0'.toNat)
  else if 'a' ≤ c ∧ c ≤ 'f' then some (c.toNat - 'a'.toNat + 10)
  else if 'A' ≤ c ∧ c ≤ 'F' then some (c.toNat - 'A'.toNat + 10)
  else none

/-- The character named by a one letter escape. -/
def simpleEscape? : Char → Option Char
  | '\x22' => some '\x22'
  | '\\' => some '\\'
  | '/' => some '/'
  | 'b' => some '\x08'
  | 'f' => some '\x0c'
  | 'n' => some '\n'
  | 'r' => some '\r'
  | 't' => some '\t'
  | _ => none

namespace Scanner

def push (s : Scanner) (token : Token) : Scanner :=
  { mode := .gap, tokens := token :: s.tokens }

def goTo (s : Scanner) (mode : Mode) : Option Scanner :=
  some { s with mode }

/-- A character between tokens. -/
def begin (s : Scanner) (c : Char) : Option Scanner :=
  if isGap c then s.goTo .gap
  else if c.isDigit || c = '-' then s.goTo (.number [c])
  else match c with
    | '[' => some (s.push .openArray)
    | ']' => some (s.push .closeArray)
    | '\x7b' => some (s.push .openObject)
    | '\x7d' => some (s.push .closeObject)
    | ',' => some (s.push .comma)
    | ':' => some (s.push .colon)
    | '\x22' => s.goTo (.string [] .outside)
    | 'n' => s.goTo (.word "ull".toList .null)
    | 't' => s.goTo (.word "rue".toList (.bool true))
    | 'f' => s.goTo (.word "alse".toList (.bool false))
    | _ => none

/-- A character inside a string. -/
def inString (s : Scanner) (units : List Nat) (c : Char) : Escape → Option Scanner
  | .outside =>
    if c = '\x22' then
      some (s.push (.scalar (.string ((joinUnits? units.reverse).map String.ofList))))
    else if c = '\\' then s.goTo (.string units .started)
    else if c.toNat < 0x20 then none
    else s.goTo (.string (c.toNat :: units) .outside)
  | .started =>
    if c = 'u' then s.goTo (.string units (.hex 4 0))
    else (simpleEscape? c).bind fun named => s.goTo (.string (named.toNat :: units) .outside)
  | .hex missing value =>
    (hexDigit? c).bind fun digit =>
      let value := value * 16 + digit
      if missing ≤ 1 then s.goTo (.string (value :: units) .outside)
      else s.goTo (.string units (.hex (missing - 1) value))

/-- One more character of text. A number ends where a character cannot belong to it. -/
def feed (s : Scanner) (c : Char) : Option Scanner :=
  match s.mode with
  | .gap => s.begin c
  | .word [] _ => none
  | .word (expected :: rest) value =>
    if c ≠ expected then none
    else if rest = [] then some (s.push (.scalar value))
    else s.goTo (.word rest value)
  | .number text =>
    if isNumberChar c then s.goTo (.number (c :: text))
    else (Numeral.read? text.reverse).bind fun n => (s.push (.scalar (.number n))).begin c
  | .string units escape => s.inString units c escape

/-- The tokens at the end of the text, which may end a number but nothing else. -/
def finish? (s : Scanner) : Option (List Token) :=
  match s.mode with
  | .gap => some s.tokens.reverse
  | .number text =>
    (Numeral.read? text.reverse).map fun n => (s.push (.scalar (.number n))).tokens.reverse
  | _ => none

end Scanner

/-- The tokens of a text. -/
def Token.scan? (text : List Char) : Option (List Token) :=
  (text.foldlM Scanner.feed { mode := .gap, tokens := [] }).bind Scanner.finish?

/-! ## Values -/

/-- An array or object that is still open, its contents reversed. An object waits for the
value of `key`. -/
inductive Frame where
  | array (items : List Json)
  | object (members : List (Option String × Json)) (key : Option String)

/-- What may come next. -/
inductive Want where
  | value
  | valueOrClose
  | key
  | keyOrClose
  | colon
  | commaOrClose
  | nothing

structure Builder where
  want : Want
  /-- The open arrays and objects, the innermost first. -/
  stack : List Frame
  root : Json

namespace Builder

/-- Puts a finished value where it belongs. -/
def put (b : Builder) (value : Json) : Builder :=
  match b.stack with
  | [] => { want := .nothing, stack := [], root := value }
  | .array items :: outer =>
    { b with want := .commaOrClose, stack := .array (value :: items) :: outer }
  | .object members key :: outer =>
    { b with want := .commaOrClose, stack := .object ((key, value) :: members) key :: outer }

/-- A token where a value may begin. -/
def beginValue (b : Builder) : Token → Option Builder
  | .scalar value => some (b.put value)
  | .openArray => some { b with want := .valueOrClose, stack := .array [] :: b.stack }
  | .openObject => some { b with want := .keyOrClose, stack := .object [] none :: b.stack }
  | _ => none

/-- A token where a key must stand. -/
def beginKey (b : Builder) : Token → Option Builder
  | .scalar (.string key) =>
    match b.stack with
    | .object members _ :: outer =>
      some { b with want := .colon, stack := .object members key :: outer }
    | _ => none
  | _ => none

/-- Closes the innermost array or object, if the token is its end. -/
def close (b : Builder) : Token → Option Builder
  | .closeArray =>
    match b.stack with
    | .array items :: outer => some ({ b with stack := outer }.put (.array items.reverse))
    | _ => none
  | .closeObject =>
    match b.stack with
    | .object members _ :: outer =>
      some ({ b with stack := outer }.put (.object members.reverse))
    | _ => none
  | _ => none

/-- One more token. -/
def feed (b : Builder) (token : Token) : Option Builder :=
  match b.want with
  | .value => b.beginValue token
  | .valueOrClose => b.beginValue token <|> b.close token
  | .key => b.beginKey token
  | .keyOrClose => b.beginKey token <|> b.close token
  | .colon =>
    match token with
    | .colon => some { b with want := .value }
    | _ => none
  | .commaOrClose =>
    match token, b.stack with
    | .comma, .array _ :: _ => some { b with want := .value }
    | .comma, .object .. :: _ => some { b with want := .key }
    | token, _ => b.close token
  | .nothing => none

/-- The value, once it is complete. -/
def finish? (b : Builder) : Option Json :=
  match b.want with
  | .nothing => some b.root
  | _ => none

end Builder

/-- The value of a list of tokens. -/
def ofTokens? (tokens : List Token) : Option Json :=
  (tokens.foldlM Builder.feed { want := .value, stack := [], root := .null }).bind
    Builder.finish?

/-- The value of a JSON text: one value with nothing but space around it. -/
def read? (text : String) : Option Json :=
  (Token.scan? text.toList).bind ofTokens?

end PagedQuery.Json
