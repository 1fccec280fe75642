/-!
# YAML values

A value keeps how its scalars are written, for that decides what they may be
read as: a text is any scalar, a number only a plain one.

* `Yaml`: the values;
* `Yaml.string?`, `Yaml.natural?`, `Yaml.choice?`: readings of a scalar;
* `Yaml.items?`, `Yaml.members?`: readings of a collection;
* `Yaml.record?`: a mapping with known keys.
-/

namespace PagedQuery

inductive Yaml where
  | scalar (plain : Bool) (tag : Option String) (text : String)
  | sequence (items : List Yaml)
  | mapping (members : List (Yaml × Yaml))

namespace Yaml

/-- What stands where nothing is written. -/
def nothing : Yaml :=
  .scalar true none ""

/-! ## Scalars -/

/-- Every scalar is a text. -/
def string? : Yaml → Option String
  | .scalar _ _ text => some text
  | _ => none

/-- Whether a plain text stands for no value. -/
def isNullText (text : String) : Bool :=
  text = "null" || text = "Null" || text = "NULL" || text = "~"

/-- The tag of values that are null. -/
def nullTag : String := "tag:yaml.org,2002:null"

/-- A value that may be null. -/
def orNull? (decode : Yaml → Option α) (value : Yaml) : Option (Option α) :=
  match value with
  | .scalar true none text =>
    if text = "" || isNullText text then some none else (decode value).map some
  | .scalar true (some tag) text =>
    if tag = nullTag then (if isNullText text then some none else none)
    else (decode value).map some
  | value => (decode value).map some

/-- The value of a digit in a base. -/
def digit? (base : Nat) (c : Char) : Option Nat :=
  let value? :=
    if c.isDigit then some (c.toNat - '0'.toNat)
    else if c.isAlpha then some (c.toLower.toNat - 'a'.toNat + 10)
    else none
  value?.bind fun value => if value < base then some value else none

/-- A number of at least one digit, below `2 ^ 64`. -/
def digits? (base : Nat) (text : List Char) : Option Nat :=
  if text = [] then none
  else
    (text.mapM (digit? base)).bind fun digits =>
      let value := digits.foldl (fun value digit => value * base + digit) 0
      if value < Nat.pow 2 64 then some value else none

/-- A natural number with an optional plus sign, in decimal digits without leading zeros, or
after `0x`, `0o` or `0b`. -/
def naturalText? (text : List Char) : Option Nat :=
  let unsigned := match text with
    | '+' :: rest => rest
    | text => text
  match unsigned with
  | '0' :: 'x' :: rest => digits? 16 rest
  | '0' :: 'o' :: rest => digits? 8 rest
  | '0' :: 'b' :: rest => digits? 2 rest
  | '0' :: _ :: _ => none
  | _ => digits? 10 unsigned

/-- Only plain scalars are numbers. -/
def natural? : Yaml → Option Nat
  | .scalar true _ text => naturalText? text.toList
  | _ => none

/-- The name of a choice that holds nothing: a text, or a tag of its own on a null. -/
def choice? : Yaml → Option String
  | .scalar plain (some tag) text =>
    match tag.toList with
    | '!' :: name =>
      if plain && (text = "" || isNullText text) then
        some (String.ofList (if name = [] then ['!'] else name))
      else none
    | _ => some text
  | .scalar _ none text => some text
  | _ => none

/-! ## Collections -/

/-- The items of a sequence; nothing at all is an empty one. -/
def items? : Yaml → Option (List Yaml)
  | .sequence items => some items
  | .scalar true _ "" => some []
  | _ => none

/-- The members of a mapping whose keys are texts; nothing at all is an empty one. -/
def members? : Yaml → Option (List (String × Yaml))
  | .mapping members => members.mapM fun (key, value) => key.string?.map fun key => (key, value)
  | .scalar true _ "" => some []
  | _ => none

/-- A list of values of one kind. -/
def list? (decode : Yaml → Option α) (value : Yaml) : Option (List α) :=
  value.items?.bind fun items => items.mapM decode

/-- The known members of a mapping, none of which may be repeated. -/
structure Record where
  fields : List (String × Yaml)

def record? (names : List String) (value : Yaml) : Option Record := do
  let members ← value.members?
  let fields := members.filter fun member => names.contains member.1
  if (fields.map Prod.fst).Nodup then some ⟨fields⟩ else none

namespace Record

def get? (r : Record) (name : String) : Option Yaml :=
  (r.fields.find? fun field => field.1 = name).map Prod.snd

/-- A member that must be there. -/
def required? (r : Record) (name : String) (decode : Yaml → Option α) : Option α :=
  (r.get? name).bind decode

/-- A member with a default. -/
def orDefault? (r : Record) (name : String) (default : α) (decode : Yaml → Option α) :
    Option α :=
  match r.get? name with
  | some value => decode value
  | none => some default

end Record

end Yaml

end PagedQuery
