import PagedQuery.Binary64.Decimal

/-!
# JSON values

A value keeps what its text says: the members of an object in their order,
repeated keys included, and numbers as they are written. A string whose
escapes name half of a surrogate pair has no Unicode text and is kept as
`none`, so that a reader that never looks at it need not refuse it.

* `Json.Numeral`: a number as written, with its integer and double readings;
* `Json`: the values;
* `Json.isSound`: what a reader that looks at every part demands.
-/

namespace PagedQuery

/-- A JSON number as it is written: an integer token, or one with a fraction or an exponent,
which stands for `± digits · 10 ^ exponent`. -/
inductive Json.Numeral where
  | integer (negative : Bool) (magnitude : Nat)
  | decimal (negative : Bool) (digits : Nat) (exponent : Int)
deriving DecidableEq

/-- A JSON value. -/
inductive Json where
  | null
  | bool (value : Bool)
  | number (value : Json.Numeral)
  | string (text : Option String)
  | array (items : List Json)
  | object (members : List (Option String × Json))

namespace Json

instance : Inhabited Json := ⟨.null⟩

/-! ## Numbers -/

namespace Numeral

/-- The nearest double, `none` when that is infinite. -/
def toBinary64? (n : Numeral) : Option Binary64 :=
  let value := match n with
    | .integer negative magnitude => Binary64.ofDecimal negative magnitude 0
    | .decimal negative digits exponent => Binary64.ofDecimal negative digits exponent
  if value.isFinite then some value else none

/-- The value of a non-negative integer token below `2 ^ 64`. -/
def toUInt64? : Numeral → Option Nat
  | .integer false magnitude => if magnitude < Nat.pow 2 64 then some magnitude else none
  | _ => none

/-- The value of an integer token of 64 signed bits. A negative zero is no integer. -/
def toInt64? : Numeral → Option Int
  | .integer false magnitude => if magnitude < Nat.pow 2 63 then some magnitude else none
  | .integer true magnitude =>
    if 0 < magnitude ∧ magnitude ≤ Nat.pow 2 63 then some (-magnitude) else none
  | .decimal .. => none

/-- Splits an exponent off: `e`, an optional sign and at least one digit. -/
def readExponent? : List Char → Option Int
  | [] => none
  | text =>
    let (negative, digits) := Binary64.splitSign text
    if digits ≠ [] ∧ digits.all Char.isDigit then
      some (if negative then -(Binary64.digitsValue digits : Int) else Binary64.digitsValue digits)
    else none

/-- What may follow the whole part of a number: a point with at least one digit, then an
exponent, either of them optional. -/
def readTail? (negative : Bool) (whole : List Char) : List Char → Option Numeral
  | [] => some (.integer negative (Binary64.digitsValue whole))
  | '.' :: rest =>
    let fraction := rest.takeWhile Char.isDigit
    let digits := Binary64.digitsValue (whole ++ fraction)
    let places : Int := fraction.length
    if fraction = [] then none
    else match rest.dropWhile Char.isDigit with
      | [] => some (.decimal negative digits (-places))
      | e :: text =>
        if e = 'e' ∨ e = 'E' then
          (readExponent? text).map fun exponent => .decimal negative digits (exponent - places)
        else none
  | e :: text =>
    if e = 'e' ∨ e = 'E' then
      (readExponent? text).map fun exponent =>
        .decimal negative (Binary64.digitsValue whole) exponent
    else none

/-- A number by the JSON grammar: no leading zeros, no plus sign, digits around the point. -/
def read? (text : List Char) : Option Numeral :=
  let (negative, rest) := match text with
    | '-' :: rest => (true, rest)
    | text => (false, text)
  let whole := rest.takeWhile Char.isDigit
  if whole = [] ∨ (whole.head? = some '0' ∧ 1 < whole.length) then none
  else readTail? negative whole (rest.dropWhile Char.isDigit)

end Numeral

/-! ## Members -/

/-- The string value of a text. -/
def ofString (text : String) : Json :=
  .string (some text)

def ofNat (n : Nat) : Json :=
  .number (.integer false n)

/-- An object with the given members, in that order. -/
def ofMembers (members : List (String × Json)) : Json :=
  .object (members.map fun (key, value) => (some key, value))

def ofStrings (texts : List String) : Json :=
  .array (texts.map ofString)

def string? : Json → Option String
  | .string text => text
  | _ => none

def bool? : Json → Option Bool
  | .bool value => some value
  | _ => none

def items? : Json → Option (List Json)
  | .array items => some items
  | _ => none

/-- The value of the first member of that key. -/
def get? (key : String) : Json → Option Json
  | .object members => (members.find? fun member => member.1 = some key).map Prod.snd
  | _ => none

/-! ## Soundness -/

/-- The most arrays and objects that may be open at once. -/
def maxDepth : Nat := 127

mutual

/-- Every string is Unicode text, every number is a finite double and at most `depth` arrays
and objects are open at once. -/
def isSoundWithin (depth : Nat) : Json → Bool
  | .null => true
  | .bool _ => true
  | .number n => n.toBinary64?.isSome
  | .string text => text.isSome
  | .array items => decide (0 < depth) && areSoundWithin (depth - 1) items
  | .object members => decide (0 < depth) && membersSoundWithin (depth - 1) members

def areSoundWithin (depth : Nat) : List Json → Bool
  | [] => true
  | item :: rest => isSoundWithin depth item && areSoundWithin depth rest

def membersSoundWithin (depth : Nat) : List (Option String × Json) → Bool
  | [] => true
  | (key, value) :: rest =>
    key.isSome && isSoundWithin depth value && membersSoundWithin depth rest

end

/-- Soundness of a value that stands inside `outer` arrays and objects. -/
def isSound (outer : Nat) (value : Json) : Bool :=
  value.isSoundWithin (maxDepth - outer)

end Json

end PagedQuery
