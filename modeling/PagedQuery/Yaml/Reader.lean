import PagedQuery.Yaml.Basic
import PagedQuery.Yaml.Token

/-!
# Reading YAML

Tokens become a value. An alias stands for the value under its anchor, which
must have ended before.

* `Yaml.Nodes`: the values that begin at a token;
* `Yaml.ofTokens?`: the value of a document;
* `Yaml.read?`: the only document of a text.
-/

namespace PagedQuery.Yaml

/-- The tokens that are left, and the values under the anchors so far, the last first. -/
structure Nodes where
  tokens : List Token
  anchors : List (String × Yaml)

namespace Nodes

def skip (n : Nodes) : Nodes :=
  { n with tokens := n.tokens.drop 1 }

/-- Whether the next token is one of some. -/
def sees (n : Nodes) (tokens : List Token) : Bool :=
  n.tokens.head?.any fun token => tokens.contains token

/-- What stands before a value: an anchor and a tag, in either order. -/
structure Properties where
  anchor : Option String
  tag : Option String

def properties (n : Nodes) : Properties × Nodes :=
  match n.tokens with
  | .anchor anchor :: .tag tag :: rest => (⟨some anchor, some tag⟩, { n with tokens := rest })
  | .tag tag :: .anchor anchor :: rest => (⟨some anchor, some tag⟩, { n with tokens := rest })
  | .anchor anchor :: rest => (⟨some anchor, none⟩, { n with tokens := rest })
  | .tag tag :: rest => (⟨none, some tag⟩, { n with tokens := rest })
  | _ => (⟨none, none⟩, n)

/-- Puts a value under its anchor. -/
def define (n : Nodes) (p : Properties) (value : Yaml) : Yaml × Nodes :=
  match p.anchor with
  | some name => (value, { n with anchors := (name, value) :: n.anchors })
  | none => (value, n)

/-- Where a value may be left out, the tokens that follow it then. -/
def orNothing (n : Nodes) (stops : List Token)
    (read : Nodes → Option (Yaml × Nodes)) : Option (Yaml × Nodes) :=
  if n.sees stops then some (nothing, n) else read n

mutual

/-- A value. Block collections are possible where `block` says so, and a sequence that is not
indented where `indentless` says so. The nesting is at most `fuel`, which no list of tokens
exceeds by its length. -/
def node? (fuel : Nat) (block indentless : Bool) (n : Nodes) : Option (Yaml × Nodes) :=
  match fuel with
  | 0 => none
  | fuel + 1 =>
    match n.tokens with
    | .reference name :: _ => do
      let (_, value) ← n.anchors.find? fun anchor => anchor.1 = name
      some (value, n.skip)
    | _ => do
      let (p, n) := n.properties
      match n.tokens with
      | .scalar plain text :: _ => some (n.skip.define p (.scalar plain p.tag text))
      | .flowSequence :: _ => do
        let (items, n) ← flowItems? fuel true n.skip
        some (n.define p (.sequence items))
      | .flowMapping :: _ => do
        let (members, n) ← flowMembers? fuel true n.skip
        some (n.define p (.mapping members))
      | .blockSequence :: _ => do
        if !block then failure
        let (items, n) ← blockItems? fuel n.skip
        some (n.define p (.sequence items))
      | .blockMapping :: _ => do
        if !block then failure
        let (members, n) ← blockMembers? fuel n.skip
        some (n.define p (.mapping members))
      | .entry :: _ => do
        if !indentless then failure
        let (items, n) ← indentlessItems? fuel n
        some (n.define p (.sequence items))
      | _ =>
        if p.anchor.isNone && p.tag.isNone then none
        else some (n.define p (.scalar true p.tag ""))

/-- The items of an indented sequence, up to its end. -/
def blockItems? (fuel : Nat) (n : Nodes) : Option (List Yaml × Nodes) :=
  match fuel with
  | 0 => none
  | fuel + 1 =>
    if n.sees [.entry] then do
      let (item, n) ← n.skip.orNothing [.entry, .blockEnd] (node? fuel true false)
      let (items, n) ← blockItems? fuel n
      some (item :: items, n)
    else if n.sees [.blockEnd] then some ([], n.skip)
    else none

/-- The items of a sequence that is not indented, which has no end of its own. -/
def indentlessItems? (fuel : Nat) (n : Nodes) : Option (List Yaml × Nodes) :=
  match fuel with
  | 0 => none
  | fuel + 1 =>
    if n.sees [.entry] then do
      let (item, n) ←
        n.skip.orNothing [.entry, .key, .value, .blockEnd] (node? fuel true false)
      let (items, n) ← indentlessItems? fuel n
      some (item :: items, n)
    else some ([], n)

/-- The members of a block mapping, up to its end. -/
def blockMembers? (fuel : Nat) (n : Nodes) : Option (List (Yaml × Yaml) × Nodes) :=
  match fuel with
  | 0 => none
  | fuel + 1 =>
    let stops := [Token.key, .value, .blockEnd]
    if n.sees [.key] then do
      let (key, n) ← n.skip.orNothing stops (node? fuel true true)
      let (value, n) ←
        if n.sees [.value] then n.skip.orNothing stops (node? fuel true true)
        else some (nothing, n)
      let (members, n) ← blockMembers? fuel n
      some ((key, value) :: members, n)
    else if n.sees [.blockEnd] then some ([], n.skip)
    else none

/-- The items of a sequence in brackets; a member without braces is a mapping of its own. -/
def flowItems? (fuel : Nat) (first : Bool) (n : Nodes) : Option (List Yaml × Nodes) :=
  match fuel with
  | 0 => none
  | fuel + 1 =>
    if n.sees [.flowSequenceEnd] then some ([], n.skip)
    else if !first && !n.sees [.comma] then none
    else
      let n := if first then n else n.skip
      if n.sees [.flowSequenceEnd] then some ([], n.skip)
      else do
        let (item, n) ←
          if n.sees [.key] then do
            let stops := [Token.comma, .flowSequenceEnd]
            let (key, n) ← n.skip.orNothing (.value :: stops) (node? fuel false false)
            let (value, n) ←
              if n.sees [.value] then n.skip.orNothing stops (node? fuel false false)
              else some (nothing, n)
            some (Yaml.mapping [(key, value)], n)
          else node? fuel false false n
        let (items, n) ← flowItems? fuel false n
        some (item :: items, n)

/-- The members of a mapping in braces; a key alone has no value. -/
def flowMembers? (fuel : Nat) (first : Bool) (n : Nodes) :
    Option (List (Yaml × Yaml) × Nodes) :=
  match fuel with
  | 0 => none
  | fuel + 1 =>
    if n.sees [.flowMappingEnd] then some ([], n.skip)
    else if !first && !n.sees [.comma] then none
    else
      let n := if first then n else n.skip
      if n.sees [.flowMappingEnd] then some ([], n.skip)
      else do
        let stops := [Token.comma, .flowMappingEnd]
        let (member, n) ←
          if n.sees [.key] then do
            let (key, n) ← n.skip.orNothing (.value :: stops) (node? fuel false false)
            let (value, n) ←
              if n.sees [.value] then n.skip.orNothing stops (node? fuel false false)
              else some (nothing, n)
            some ((key, value), n)
          else do
            let (key, n) ← node? fuel false false n
            some ((key, nothing), n)
        let (members, n) ← flowMembers? fuel false n
        some (member :: members, n)

end

end Nodes

/-- The value of the tokens of a single document, with or without the lines around it. No
tokens at all are a document that holds nothing. -/
def ofTokens? (tokens : List Token) : Option Yaml := do
  let n : Nodes := ⟨tokens, []⟩
  let versioned := n.sees [.version]
  let n := if versioned then n.skip else n
  let marked := n.sees [.documentStart]
  if versioned && !marked then failure
  let n := if marked then n.skip else n
  let (value, n) ←
    if n.tokens.isEmpty || (marked && n.sees [.documentEnd, .documentStart, .version]) then
      some (nothing, n)
    else n.node? (tokens.length + 1) true false
  if n.tokens.all (fun token => token = .documentEnd) then some value else none

/-- The only document of a text. -/
def read? (text : String) : Option Yaml := do
  let tokens ← Token.scan? (← lines? text)
  ofTokens? tokens

end PagedQuery.Yaml
