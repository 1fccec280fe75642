/-!
# YAML text

Lines and characters, and the white space inside a scalar, which is folded
once it is known what follows.

* `Yaml.lines?`: a text with line breaks of one kind;
* `Yaml.Place`, `Yaml.Input`: a place in a text, and what follows it;
* `Yaml.Gap`: white space inside a scalar.
-/

namespace PagedQuery.Yaml

/-! ## Characters -/

def byteOrderMark : Char := '\uFEFF'

/-- Whether a character may stand in a document: no control characters but tabs and breaks. -/
def isPrintable (c : Char) : Bool :=
  let n := c.toNat
  n = 0x09 || n = 0x0A || n = 0x0D || n = 0x85 || (0x20 ≤ n && n ≤ 0x7E) ||
    (0xA0 ≤ n && n ≤ 0xFFFD) || 0x10000 ≤ n

/-- Line breaks. Line and paragraph separators are kept apart from the others. -/
def isBreak (c : Char) : Bool :=
  c = '\n' || c = '\u2028' || c = '\u2029'

def isBlank (c : Char) : Bool :=
  c = ' ' || c = '\t'

/-- Whether a blank, a line break or the end of the text comes next. -/
def endsWord : List Char → Bool
  | [] => true
  | c :: _ => isBlank c || isBreak c

/-- Makes one line feed of each carriage return, with the line feed after it if there is one,
and of each next line character. -/
def unifyBreaks : List Char → List Char
  | [] => []
  | '\r' :: '\n' :: rest => '\n' :: unifyBreaks rest
  | '\r' :: rest => '\n' :: unifyBreaks rest
  | '\u0085' :: rest => '\n' :: unifyBreaks rest
  | c :: rest => c :: unifyBreaks rest

/-- The characters of a document, without the mark of its encoding. -/
def lines? (text : String) : Option (List Char) :=
  let chars := match text.toList with
    | c :: rest => if c = byteOrderMark then rest else c :: rest
    | [] => []
  if chars.all isPrintable then some (unifyBreaks chars) else none

/-! ## Places -/

structure Place where
  line : Nat
  column : Nat
  /-- The number of characters before. -/
  index : Nat

def Place.advance (p : Place) (c : Char) : Place :=
  if isBreak c then { line := p.line + 1, column := 0, index := p.index + 1 }
  else { p with column := p.column + 1, index := p.index + 1 }

structure Input where
  place : Place
  rest : List Char

namespace Input

def skip (i : Input) : Input :=
  match i.rest with
  | [] => i
  | c :: rest => { place := i.place.advance c, rest }

def skipMany (i : Input) : Nat → Input
  | 0 => i
  | n + 1 => i.skip.skipMany n

/-- Skips the characters before the first that fails the test. -/
def skipWhile (i : Input) (test : Char → Bool) : Input :=
  i.skipMany (i.rest.takeWhile test).length

end Input

/-- Whether a line begins here that separates documents. -/
def atMarker (column : Nat) (rest : List Char) : Bool :=
  column = 0 && match rest with
    | '-' :: '-' :: '-' :: after => endsWord after
    | '.' :: '.' :: '.' :: after => endsWord after
    | _ => false

/-! ## Gaps -/

/-- White space inside a scalar. -/
structure Gap where
  /-- The blanks before the first line break. -/
  blanks : List Char
  /-- Whether there is a line break, or an escaped one. -/
  broken : Bool
  /-- The first line break, unless it is escaped. -/
  first : List Char
  /-- The other line breaks. -/
  others : List Char

namespace Gap

def empty : Gap :=
  { blanks := [], broken := false, first := [], others := [] }

/-- The gap that an escaped line break begins. -/
def escaped : Gap :=
  { blanks := [], broken := true, first := [], others := [] }

def isEmpty (g : Gap) : Bool :=
  g.blanks.isEmpty && !g.broken

/-- One more character. Blanks around line breaks do not count. -/
def push (g : Gap) (c : Char) : Gap :=
  if isBreak c then
    if g.broken then { g with others := g.others ++ [c] }
    else { blanks := [], broken := true, first := [c], others := [] }
  else if g.broken then g
  else { g with blanks := g.blanks ++ [c] }

/-- What is left of a gap between two words: one line break becomes a space, of several the
first is dropped. -/
def folded (g : Gap) : List Char :=
  if g.broken then
    if g.first = ['\n'] then (if g.others = [] then [' '] else g.others)
    else g.first ++ g.others
  else g.blanks

end Gap

end PagedQuery.Yaml
