import PagedQuery.Yaml.Scalar

/-!
# YAML tokens

The scanner finds the words of a document and, from their columns, where
collections begin and end. A key is known as one only when its colon comes, so
the place of every word that could be a key is kept until then.

* `Yaml.Token`: the tokens;
* `Yaml.Scanner`, `Scanner.next?`: the state of the scanner, and one more token;
* `Token.scan?`: the tokens of a text.
-/

namespace PagedQuery.Yaml

inductive Token where
  | version
  | documentStart
  | documentEnd
  | blockSequence
  | blockMapping
  | blockEnd
  | flowSequence
  | flowSequenceEnd
  | flowMapping
  | flowMappingEnd
  | entry
  | comma
  | key
  | value
  | reference (name : String)
  | anchor (name : String)
  | tag (name : String)
  | scalar (plain : Bool) (text : String)
deriving DecidableEq

/-- A word that a colon would make a key. -/
structure PossibleKey where
  /-- Whether it must be a key, as everything at the column of a mapping. -/
  required : Bool
  /-- The number of the tokens before it. -/
  tokens : Nat
  place : Place

structure Scanner where
  input : Input
  tokens : Array Token
  /-- The columns of the open block collections, the innermost first. -/
  indents : List Nat
  /-- The possible key of each open bracket and of the block around them, the innermost
  first. -/
  keys : List (Option PossibleKey)
  /-- Whether a key may begin here. -/
  keyAllowed : Bool
  finished : Bool

namespace Scanner

def start (chars : List Char) : Scanner :=
  { input := ⟨⟨0, 0, 0⟩, chars⟩, tokens := #[], indents := [], keys := [none]
    keyAllowed := true, finished := false }

/-- Whether the scanner is inside brackets. -/
def inFlow (s : Scanner) : Bool :=
  decide (1 < s.keys.length)

def column (s : Scanner) : Nat :=
  s.input.place.column

def push (s : Scanner) (token : Token) : Scanner :=
  { s with tokens := s.tokens.push token }

/-- Puts a token before the last ones, after the first `count`. -/
def insert (s : Scanner) (count : Nat) (token : Token) : Scanner :=
  { s with tokens := s.tokens.insertIdxIfInBounds count token }

/-- A token that is a number of characters long. -/
def take (s : Scanner) (length : Nat) (token : Token) : Scanner :=
  { s with input := s.input.skipMany length, tokens := s.tokens.push token }

def allow (s : Scanner) (allowed : Bool) : Scanner :=
  { s with keyAllowed := allowed }

/-! ## Indentation -/

/-- Closes the block collections that are indented by more than `column`, or all of them. -/
def unroll (s : Scanner) (column : Option Nat) : Scanner :=
  if s.inFlow then s
  else
    let closed := s.indents.takeWhile fun indent => column.all fun column => column < indent
    { s with
      indents := s.indents.drop closed.length
      tokens := s.tokens ++ (closed.map fun _ => Token.blockEnd) }

/-- Opens a block collection at a column that is further in, after the first `count` tokens. -/
def roll (s : Scanner) (column count : Nat) (token : Token) : Scanner :=
  if !s.inFlow && s.indents.head?.all (fun indent => indent < column) then
    { s.insert count token with indents := column :: s.indents }
  else s

/-! ## Possible keys -/

/-- Gives up the innermost possible key, which must not have been one. -/
def dropKey? (s : Scanner) : Option Scanner :=
  match s.keys with
  | some key :: outer => if key.required then none else some { s with keys := none :: outer }
  | _ => some s

/-- Notes that a word begins here that may be a key. -/
def noteKey? (s : Scanner) : Option Scanner :=
  if s.keyAllowed then do
    let s ← s.dropKey?
    let key : PossibleKey :=
      { required := !s.inFlow && s.indents.head? = some s.column
        tokens := s.tokens.size
        place := s.input.place }
    some { s with keys := some key :: s.keys.drop 1 }
  else some s

/-- The greatest distance between the beginning of a key and its colon. -/
def maxKeyLength : Nat := 1024

/-- Gives up possible keys on other lines, and those too far back. -/
def dropStaleKeys? (s : Scanner) : Option Scanner := do
  let keys ← s.keys.mapM fun key =>
    match key with
    | some key =>
      if key.place.line < s.input.place.line ||
          key.place.index + maxKeyLength < s.input.place.index then
        if key.required then none else some none
      else some (some key)
    | none => some none
  some { s with keys }

/-! ## Between tokens -/

/-- Skips blanks, comments and line breaks, with at most `fuel` comments and breaks. -/
def skipGap (s : Scanner) : (fuel : Nat) → Scanner
  | 0 => s
  | fuel + 1 =>
    let i := s.input
    let i := if i.place.column = 0 && i.rest.head? = some byteOrderMark then i.skip else i
    let tabs := s.inFlow || !s.keyAllowed
    let i := i.skipWhile fun c => c = ' ' || (tabs && c = '\t')
    let i := if i.rest.head? = some '#' then i.skipWhile (fun c => !isBreak c) else i
    if i.rest.head?.any isBreak then
      skipGap { s with input := i.skip, keyAllowed := s.keyAllowed || !s.inFlow } fuel
    else { s with input := i }

/-! ## Single tokens -/

def isNameChar (c : Char) : Bool :=
  c.isAlphanum || c = '_' || c = '-'

/-- An anchor or an alias: a name after its indicator. -/
def name? (s : Scanner) (token : String → Token) : Option Scanner := do
  let s ← s.noteKey?
  let name := (s.input.rest.drop 1).takeWhile isNameChar
  let after := (s.input.rest.drop 1).drop name.length
  if name = [] then failure
  if !endsWord after && !after.head?.any ("?:,]\x7d%@\x60".toList.contains ·) then failure
  some ((s.take (1 + name.length) (token (String.ofList name))).allow false)

def isTagChar (c : Char) : Bool :=
  c.isAlphanum || "-_;/?:@&=+$.~*'()%".toList.contains c

/-- The name of the tags that have two exclamation marks. -/
def standardTag (suffix : String) : String :=
  "tag:yaml.org,2002:" ++ suffix

/-- A tag: a name in angle brackets, or one after one or two exclamation marks. -/
def tag? (s : Scanner) : Option Scanner := do
  let s ← s.noteKey?
  let (length, name) ← match s.input.rest.drop 1 with
    | '<' :: rest =>
      let name := rest.takeWhile fun c => isTagChar c || c = '!' || c = ',' || c = '[' || c = ']'
      if name ≠ [] && (rest.drop name.length).head? = some '>' then
        some (name.length + 3, String.ofList name)
      else none
    | '!' :: rest =>
      let name := rest.takeWhile isTagChar
      if name = [] then none else some (name.length + 2, standardTag (String.ofList name))
    | rest =>
      let name := rest.takeWhile isTagChar
      if (rest.drop name.length).head? = some '!' then none
      else some (name.length + 1, String.ofList ('!' :: name))
  let after := s.input.rest.drop length
  if !endsWord after && !(s.inFlow && after.head? = some ',') then failure
  some ((s.take length (.tag name)).allow false)

/-- The version directive: a percent sign, its name and two numbers. -/
def directive? (s : Scanner) : Option Scanner := do
  let s ← (s.unroll none).dropKey?
  let line := s.input.rest.takeWhile fun c => !isBreak c
  let words := ((String.ofList line).split isBlank).toList.map fun word => word.toString
  let words := (words.filter fun word => word ≠ "").takeWhile fun word => !word.startsWith "#"
  if words = ["%YAML", "1.1"] || words = ["%YAML", "1.2"] then
    some ((s.take line.length .version).allow false)
  else none

/-- A line that separates documents. -/
def marker? (s : Scanner) : Option Scanner := do
  let s ← (s.unroll none).dropKey?
  let token := if s.input.rest.head? = some '-' then Token.documentStart else .documentEnd
  some ((s.take 3 token).allow false)

def openBracket? (s : Scanner) (token : Token) : Option Scanner := do
  let s ← s.noteKey?
  some (({ s with keys := none :: s.keys }.take 1 token).allow true)

def closeBracket? (s : Scanner) (token : Token) : Option Scanner := do
  let s ← s.dropKey?
  let keys := if s.inFlow then s.keys.drop 1 else s.keys
  some (({ s with keys }.take 1 token).allow false)

def comma? (s : Scanner) : Option Scanner := do
  let s ← s.dropKey?
  some ((s.take 1 .comma).allow true)

/-- A dash before an item. -/
def entry? (s : Scanner) : Option Scanner := do
  if !s.inFlow && !s.keyAllowed then failure
  let s ← (s.roll s.column s.tokens.size .blockSequence).dropKey?
  some ((s.take 1 .entry).allow true)

/-- A question mark before a key. -/
def key? (s : Scanner) : Option Scanner := do
  if !s.inFlow && !s.keyAllowed then failure
  let s ← (s.roll s.column s.tokens.size .blockMapping).dropKey?
  some ((s.take 1 .key).allow !s.inFlow)

/-- A colon before a value. The word before it is a key if it still can be one. -/
def value? (s : Scanner) : Option Scanner :=
  match s.keys with
  | some key :: outer =>
    let s := (s.insert key.tokens .key).roll key.place.column key.tokens .blockMapping
    some (({ s with keys := none :: outer }.take 1 .value).allow false)
  | _ => do
    if !s.inFlow && !s.keyAllowed then failure
    let s := s.roll s.column s.tokens.size .blockMapping
    some ((s.take 1 .value).allow !s.inFlow)

def scalar (s : Scanner) (plain : Bool) (scanned : Scanned) : Scanner :=
  { s with input := scanned.input }.push (.scalar plain (String.ofList scanned.text))

def blockScalar? (s : Scanner) (literal : Bool) : Option Scanner := do
  let s ← s.dropKey?
  let scanned ← block? literal s.indents.head? s.input
  some ((s.scalar false scanned).allow true)

def quotedScalar? (s : Scanner) : Option Scanner := do
  let s ← s.noteKey?
  let scanned ← quoted? s.input
  some ((s.scalar false scanned).allow false)

/-- A plain scalar; a key may begin after it if its line has ended. -/
def plainScalar? (s : Scanner) : Option Scanner := do
  let s ← s.noteKey?
  let column := match s.indents with
    | indent :: _ => indent + 1
    | [] => 0
  let scanned ← plain? s.inFlow column s.input
  some ((s.scalar true scanned).allow scanned.broken)

/-- The characters that no plain scalar begins with, unless some are followed by a word. -/
def isIndicator (c : Char) : Bool :=
  "-?:,[]\x7b\x7d#&*!|>'\x22%@\x60".toList.contains c

/-- Whether a plain scalar may begin with a character, given what comes after it. -/
def beginsPlain (s : Scanner) (c : Char) (rest : List Char) : Bool :=
  !(endsWord [c] || isIndicator c) ||
    (c = '-' && !rest.head?.any isBlank) ||
    (!s.inFlow && (c = '?' || c = ':') && !endsWord rest)

/-- One more token. -/
def next? (s : Scanner) : Option Scanner := do
  let s := s.skipGap (s.input.rest.length + 1)
  let s ← s.dropStaleKeys?
  let s := s.unroll (some s.column)
  match s.input.rest with
  | [] => do
    let s ← (s.unroll none).dropKey?
    some { s with finished := true }
  | c :: rest =>
    if s.column = 0 && c = '%' then s.directive?
    else if atMarker s.column (c :: rest) then s.marker?
    else if c = '[' then s.openBracket? .flowSequence
    else if c = '\x7b' then s.openBracket? .flowMapping
    else if c = ']' then s.closeBracket? .flowSequenceEnd
    else if c = '\x7d' then s.closeBracket? .flowMappingEnd
    else if c = ',' then s.comma?
    else if c = '-' && endsWord rest then s.entry?
    else if c = '?' && (s.inFlow || endsWord rest) then s.key?
    else if c = ':' && (s.inFlow || endsWord rest) then s.value?
    else if c = '*' then s.name? .reference
    else if c = '&' then s.name? .anchor
    else if c = '!' then s.tag?
    else if c = '|' && !s.inFlow then s.blockScalar? true
    else if c = '>' && !s.inFlow then s.blockScalar? false
    else if c = '\'' || c = '\x22' then s.quotedScalar?
    else if s.beginsPlain c rest then s.plainScalar?
    else none

/-- Scans to the end, which takes at most `fuel` tokens. -/
def run? (s : Scanner) : (fuel : Nat) → Option Scanner
  | 0 => none
  | fuel + 1 => do
    let s ← s.next?
    if s.finished then some s else s.run? fuel

end Scanner

/-- The tokens of the characters of a document. -/
def Token.scan? (chars : List Char) : Option (List Token) :=
  ((Scanner.start chars).run? (chars.length + 2)).map fun s => s.tokens.toList

end PagedQuery.Yaml
