import PagedQuery.Yaml.Text

/-!
# YAML scalars

The three ways to write a text: plain, in quotes, and as a block of lines.

* `Yaml.plain?`: a plain scalar;
* `Yaml.quoted?`: one in single or double quotes;
* `Yaml.block?`: a block of lines, kept or folded.
-/

namespace PagedQuery.Yaml

/-- A scalar that has been read. -/
structure Scanned where
  text : List Char
  /-- Whether a line has ended after the text. -/
  broken : Bool
  input : Input

/-! ## Plain scalars -/

/-- The characters that end a plain scalar inside brackets. -/
def isFlowIndicator (c : Char) : Bool :=
  c = ',' || c = '[' || c = ']' || c = '\x7b' || c = '\x7d'

/-- Reads on in a plain scalar of which `text` is known, in reverse. Lines of it begin at
`column` or after. -/
def plainFrom? (flow : Bool) (column : Nat) (text : List Char) (gap : Gap) (place : Place) :
    List Char → Option Scanned
  | [] => some ⟨text.reverse, gap.broken, ⟨place, []⟩⟩
  | c :: rest =>
    let done := some (⟨text.reverse, gap.broken, ⟨place, c :: rest⟩⟩ : Scanned)
    if isBlank c || isBreak c then
      if c = '\t' && gap.broken && place.column < column then none
      else plainFrom? flow column text (gap.push c) (place.advance c) rest
    else if !gap.isEmpty && ((!flow && place.column < column) || c = '#' ||
        atMarker place.column (c :: rest)) then done
    else if flow && c = ':' && rest.head?.any (fun d => isFlowIndicator d || d = '?') then none
    else if c = ':' && endsWord rest then done
    else if flow && isFlowIndicator c then done
    else plainFrom? flow column (c :: (gap.folded.reverse ++ text)) .empty (place.advance c) rest

/-- A plain scalar. -/
def plain? (flow : Bool) (column : Nat) (i : Input) : Option Scanned :=
  plainFrom? flow column [] .empty i.place i.rest

/-! ## Quoted scalars -/

/-- What a backslash and a letter stand for. -/
def simpleEscape? : Char → Option Char
  | '0' => some '\x00'
  | 'a' => some '\x07'
  | 'b' => some '\x08'
  | 't' => some '\t'
  | '\t' => some '\t'
  | 'n' => some '\n'
  | 'v' => some '\x0b'
  | 'f' => some '\x0c'
  | 'r' => some '\r'
  | 'e' => some '\x1b'
  | ' ' => some ' '
  | '\x22' => some '\x22'
  | '/' => some '/'
  | '\\' => some '\\'
  | 'N' => some '\u0085'
  | '_' => some '\u00A0'
  | 'L' => some '\u2028'
  | 'P' => some '\u2029'
  | _ => none

/-- The number of hexadecimal digits after a letter. -/
def hexLength? : Char → Option Nat
  | 'x' => some 2
  | 'u' => some 4
  | 'U' => some 8
  | _ => none

def hexDigit? (c : Char) : Option Nat :=
  if c.isDigit then some (c.toNat - '0'.toNat)
  else if 'a' ≤ c ∧ c ≤ 'f' then some (c.toNat - 'a'.toNat + 10)
  else if 'A' ≤ c ∧ c ≤ 'F' then some (c.toNat - 'A'.toNat + 10)
  else none

/-- The character of a number. -/
def ofCodePoint? (n : Nat) : Option Char :=
  if h : n.isValidChar then some (Char.ofNatAux n h) else none

/-- Where in an escape the reader is: outside of one, after the backslash, or before some
hexadecimal digits. -/
inductive Escape where
  | outside
  | started
  | hex (missing : Nat) (value : Nat)

/-- Reads on in single quotes. -/
def singleFrom? (text : List Char) (gap : Gap) (place : Place) : List Char → Option Scanned
  | [] => none
  | '\'' :: '\'' :: rest =>
    singleFrom? ('\'' :: (gap.folded.reverse ++ text)) .empty
      ((place.advance '\'').advance '\'') rest
  | '\'' :: rest =>
    some ⟨(gap.folded.reverse ++ text).reverse, false, ⟨place.advance '\'', rest⟩⟩
  | c :: rest =>
    if isBlank c || isBreak c then singleFrom? text (gap.push c) (place.advance c) rest
    else if gap.broken && atMarker place.column (c :: rest) then none
    else singleFrom? (c :: (gap.folded.reverse ++ text)) .empty (place.advance c) rest

/-- Reads on in double quotes. -/
def doubleFrom? (text : List Char) (gap : Gap) (escape : Escape) (place : Place) :
    List Char → Option Scanned
  | [] => none
  | c :: rest =>
    let next := place.advance c
    match escape with
    | .started =>
      if isBreak c then doubleFrom? text .escaped .outside next rest
      else match simpleEscape? c, hexLength? c with
        | some plain, _ => doubleFrom? (plain :: text) .empty .outside next rest
        | none, some length => doubleFrom? text .empty (.hex length 0) next rest
        | none, none => none
    | .hex missing value =>
      match hexDigit? c with
      | none => none
      | some digit =>
        if missing ≤ 1 then
          match ofCodePoint? (value * 16 + digit) with
          | some plain => doubleFrom? (plain :: text) .empty .outside next rest
          | none => none
        else doubleFrom? text .empty (.hex (missing - 1) (value * 16 + digit)) next rest
    | .outside =>
      if isBlank c || isBreak c then doubleFrom? text (gap.push c) .outside next rest
      else if gap.broken && atMarker place.column (c :: rest) then none
      else
        let text := gap.folded.reverse ++ text
        if c = '\x22' then some ⟨text.reverse, false, ⟨next, rest⟩⟩
        else if c = '\\' then doubleFrom? text .empty .started next rest
        else doubleFrom? (c :: text) .empty .outside next rest

/-- A scalar in quotes, from the opening quote on. -/
def quoted? (i : Input) : Option Scanned :=
  match i.rest with
  | '\'' :: rest => singleFrom? [] .empty (i.place.advance '\'') rest
  | '\x22' :: rest => doubleFrom? [] .empty .outside (i.place.advance '\x22') rest
  | _ => none

/-! ## Blocks -/

/-- What becomes of the line breaks at the end of a block. -/
inductive Chomping where
  | strip
  | clip
  | keep
deriving DecidableEq

/-- The header of a block: the columns by which it is indented, if they are given, and the
chomping, in either order. -/
structure BlockHeader where
  indent : Option Nat
  chomping : Chomping

def chomping? : Char → Option Chomping
  | '-' => some .strip
  | '+' => some .keep
  | _ => none

/-- A header and the number of its characters. -/
def BlockHeader.read? (text : List Char) : Option (BlockHeader × Nat) :=
  let digit? (c : Char) : Option Nat := if c.isDigit then some (c.toNat - '0'.toNat) else none
  match text with
  | [] => some (⟨none, .clip⟩, 0)
  | c :: rest =>
    match chomping? c, digit? c with
    | some chomping, _ =>
      match rest.head?.bind digit? with
      | some 0 => none
      | some indent => some (⟨some indent, chomping⟩, 2)
      | none => some (⟨none, chomping⟩, 1)
    | none, some 0 => none
    | none, some indent =>
      match rest.head?.bind chomping? with
      | some chomping => some (⟨some indent, chomping⟩, 2)
      | none => some (⟨some indent, .clip⟩, 1)
    | none, none => some (⟨none, .clip⟩, 0)

/-- The empty lines before a line of a block: their breaks, the widest indentation, and what
follows the indentation of the line. Without a known indentation all spaces are skipped. -/
def emptyLines? (indent : Option Nat) (breaks : List Char) (widest : Nat) (place : Place) :
    List Char → Option (List Char × Nat × Input)
  | [] => some (breaks, max widest place.column, ⟨place, []⟩)
  | c :: rest =>
    let inside := indent.all fun indent => place.column < indent
    if inside && c = ' ' then emptyLines? indent breaks widest (place.advance c) rest
    else if inside && c = '\t' then none
    else if isBreak c then
      emptyLines? indent (breaks ++ [c]) (max widest place.column) (place.advance c) rest
    else some (breaks, max widest place.column, ⟨place, c :: rest⟩)

/-- What has been read of a block. -/
structure BlockState where
  text : List Char
  /-- The break after the last line. -/
  last : List Char
  /-- The breaks of the empty lines after it. -/
  empty : List Char
  /-- Whether the last line begins with a blank. -/
  blank : Bool

/-- The text up to a line of the block. In a folded block a single break between two lines that
begin with words becomes a space. -/
def BlockState.join (s : BlockState) (literal blank : Bool) : List Char :=
  if !literal && s.last = ['\n'] && !s.blank && !blank then
    s.text ++ (if s.empty = [] then [' '] else s.empty)
  else s.text ++ s.last ++ s.empty

/-- Reads the lines of a block, at most `fuel` of them. -/
def blockLines? (literal : Bool) (indent : Nat) (s : BlockState) (i : Input) :
    (fuel : Nat) → Option (BlockState × Input)
  | 0 => some (s, i)
  | fuel + 1 =>
    match i.rest with
    | [] => some (s, i)
    | c :: _ =>
      if i.place.column ≠ indent then some (s, i)
      else
        let line := i.rest.takeWhile fun c => !isBreak c
        let after := i.skipMany line.length
        match emptyLines? (some indent) [] 0 after.skip.place after.skip.rest with
        | none => none
        | some (empty, _, next) =>
          blockLines? literal indent
            { text := s.join literal (isBlank c) ++ line, last := after.rest.take 1, empty
              blank := isBlank c }
            next fuel

/-- A block of lines, from its indicator on, inside a collection that is indented by `parent`
columns, or by none. -/
def block? (literal : Bool) (parent : Option Nat) (i : Input) : Option Scanned := do
  let (header, length) ← BlockHeader.read? (i.rest.drop 1)
  let i := (i.skipMany (1 + length)).skipWhile isBlank
  let i := if i.rest.head? = some '#' then i.skipWhile (fun c => !isBreak c) else i
  if !i.rest.isEmpty && !i.rest.head?.any isBreak then failure
  let i := i.skip
  let given := header.indent.map fun columns => parent.getD 0 + columns
  let (empty, widest, i) ← emptyLines? given [] 0 i.place i.rest
  let least := match parent with
    | some columns => columns + 1
    | none => 1
  let indent := given.getD (max widest least)
  let (s, i) ←
    blockLines? literal indent { text := [], last := [], empty, blank := false } i
      (i.rest.length + 1)
  let text := match header.chomping with
    | .strip => s.text
    | .clip => s.text ++ s.last
    | .keep => s.text ++ s.last ++ s.empty
  some ⟨text, true, i⟩

end PagedQuery.Yaml
