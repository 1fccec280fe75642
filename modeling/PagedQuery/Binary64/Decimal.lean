import PagedQuery.Binary64.Basic

/-!
# Decimal text of double precision numbers

Reading takes the double nearest to the written number. Writing takes the
fewest digits that read back, and of those the nearest to the value.

* `Binary64.ofDecimal`: `digits · 10 ^ exponent`, rounded once;
* `Binary64.read?`: decimal text, with `inf` and `nan`;
* `Binary64.shortest`: the digits and exponent that are written;
* `Binary64.Style`, `Binary64.format`: how they are laid out.
-/

namespace PagedQuery.Binary64

/-! ## Reading -/

/-- The double nearest to `± digits · 10 ^ exponent`. Past the first bound every value is
infinite and below the second every value is zero, so no huge power is ever taken. -/
def ofDecimal (negative : Bool) (digits : Nat) (exponent : Int) : Binary64 :=
  if digits = 0 then zero negative
  else if 400 < exponent then .infinite negative
  else if (digits.log2 : Int) + 1 + exponent < -400 then zero negative
  else if 0 ≤ exponent then ofRatio negative (digits * Nat.pow 10 exponent.toNat) 1
  else ofRatio negative digits (Nat.pow 10 (-exponent).toNat)

/-- Splits an optional sign off; the flag tells a minus. -/
def splitSign : List Char → Bool × List Char
  | '-' :: rest => (true, rest)
  | '+' :: rest => (false, rest)
  | text => (false, text)

/-- The value of a run of decimal digits. -/
def digitsValue (digits : List Char) : Nat :=
  Nat.ofDigitChars 10 digits 0

/-- The exponent after an `e`: an optional sign and at least one digit; 0 if there is no text. -/
def readExponent? : List Char → Option Int
  | [] => some 0
  | e :: rest =>
    if e = 'e' ∨ e = 'E' then
      let (negative, digits) := splitSign rest
      if digits ≠ [] ∧ digits.all Char.isDigit then
        some (if negative then -(digitsValue digits : Int) else digitsValue digits)
      else none
    else none

/-- The fraction digits after a point, if there is one, and what follows them. -/
def splitFraction : List Char → List Char × List Char
  | '.' :: rest => (rest.takeWhile Char.isDigit, rest.dropWhile Char.isDigit)
  | text => ([], text)

/-- An unsigned decimal number: digits with a point anywhere among them, at least one digit,
and an optional exponent. -/
def readUnsigned? (negative : Bool) (text : List Char) : Option Binary64 :=
  let whole := text.takeWhile Char.isDigit
  let (fraction, rest) := splitFraction (text.dropWhile Char.isDigit)
  if whole ++ fraction = [] then none
  else (readExponent? rest).map fun exponent =>
    ofDecimal negative (digitsValue (whole ++ fraction)) (exponent - fraction.length)

/-- A number as written: an optional sign, then a decimal number, `inf`, `infinity` or `nan`
in any case of letters. -/
def read? (text : List Char) : Option Binary64 :=
  let (negative, rest) := splitSign text
  let word := rest.map Char.toLower
  if word = "inf".toList ∨ word = "infinity".toList then some (.infinite negative)
  else if word = "nan".toList then some .nan
  else readUnsigned? negative rest

/-! ## Shortest digits -/

/-- The greatest `k` with `10 ^ k ≤ r`, for `r > 0`; the first guess comes from the bit
lengths and is at most three too large. -/
def decade (r : Rat) : Int :=
  let top := (((r.num.natAbs.log2 : Int) - r.den.log2 + 1) * 30103).fdiv 100000 + 1
  if tenPow top ≤ r then top
  else if tenPow (top - 1) ≤ r then top - 1
  else if tenPow (top - 2) ≤ r then top - 2
  else top - 3

/-- The numbers that round to `m · 2 ^ q`: a lower and an upper end, both included when `m`
is even. Below a power of two the grid is twice as fine. -/
def roundingInterval (m : Nat) (q : Int) : Rat × Rat :=
  let half := twoPow (q - 1)
  let below := if m = Nat.pow 2 52 ∧ -1074 < q then twoPow (q - 2) else half
  (magnitude m q - below, magnitude m q + half)

/-- Whether `r` reads back as `m · 2 ^ q`. -/
def readsBack (m : Nat) (q : Int) (r : Rat) : Bool :=
  let (low, high) := roundingInterval m q
  if m % 2 = 0 then decide (low ≤ r ∧ r ≤ high) else decide (low < r ∧ r < high)

/-- The multiple of `10 ^ k` to write for `m · 2 ^ q`: one of its two neighbours on that
grid, if one reads back; the nearer if both do, the greater if both are as near. -/
def onGrid? (m : Nat) (q : Int) (k : Int) : Option Nat :=
  let value := magnitude m q
  let lower := (value / tenPow k).floor.toNat
  let down := (lower : Rat) * tenPow k
  let up := ((lower + 1 : Nat) : Rat) * tenPow k
  match readsBack m q down, readsBack m q up with
  | false, false => none
  | true, false => some lower
  | false, true => some (lower + 1)
  | true, true => some (if value - down < up - value then lower else lower + 1)

/-- The coarsest decimal grid with a point that reads back, searched from `k` downwards. -/
def coarsest (m : Nat) (q : Int) (k : Int) : Nat → Nat × Int
  | 0 => ((magnitude m q / tenPow k).floor.toNat, k)
  | steps + 1 =>
    match onGrid? m q k with
    | some digits => (digits, k)
    | none => coarsest m q (k - 1) steps

/-- The digits and exponent written for a positive double: the fewest digits that read back.
Seventeen digits always do. -/
def shortest (m : Nat) (q : Int) : Nat × Int :=
  coarsest m q (decade (magnitude m q)) 17

/-! ## Layout -/

/-- How a double is laid out. -/
structure Style where
  /-- Whole numbers end in `.0`. -/
  pointZero : Bool
  /-- The places of the decimal point, counted from the first digit, that are written out;
  others take an exponent. `none` writes every number out. -/
  positional : Option (Int × Int)
  nanText : String
  /-- The text of an infinity, given whether it is negative. -/
  infiniteText : Bool → String

/-- Plain numbers, as in statements and messages: never an exponent. -/
def Style.plain : Style :=
  { pointZero := false, positional := none, nanText := "NaN",
    infiniteText := fun negative => if negative then "-inf" else "inf" }

/-- Numbers in JSON documents, which have no infinity: a point or an exponent always shows
that the number is not an integer. -/
def Style.json : Style :=
  { pointZero := true, positional := some (-5, 16), nanText := "null",
    infiniteText := fun _ => "null" }

/-- Removes the trailing zeros of a digit string, counting them. -/
def stripZeros (digits : List Char) : List Char × Nat :=
  let kept := (digits.reverse.dropWhile (· = '0')).reverse
  (kept, digits.length - kept.length)

/-- Digits with the decimal point after the first `point` of them, padded with zeros. -/
def layout (style : Style) (digits : List Char) (point : Int) : List Char :=
  if (digits.length : Int) ≤ point then
    digits ++ List.replicate (point - digits.length).toNat '0' ++
      (if style.pointZero then ['.', '0'] else [])
  else if 0 < point then
    digits.take point.toNat ++ '.' :: digits.drop point.toNat
  else
    '0' :: '.' :: List.replicate (-point).toNat '0' ++ digits

/-- Digits with a point after the first one and a power of ten. -/
def scientific (digits : List Char) (point : Int) : List Char :=
  let mantissa := match digits with
    | d :: e :: rest => d :: '.' :: e :: rest
    | digits => digits
  mantissa ++ 'e' :: (toString (point - 1)).toList

/-- The text of a double. -/
def format (style : Style) : Binary64 → String
  | .nan => style.nanText
  | .infinite negative => style.infiniteText negative
  | .finite negative m q _ =>
    let body :=
      if m = 0 then layout style ['0'] 1
      else
        let (digits, k) := shortest m q
        let (kept, dropped) := stripZeros (Nat.toDigits 10 digits)
        let point := (kept.length : Int) + k + dropped
        match style.positional with
        | none => layout style kept point
        | some (least, greatest) =>
          if least < point ∧ point ≤ greatest then layout style kept point
          else scientific kept point
    String.ofList (if negative then '-' :: body else body)

/-- The plain text of a double. -/
instance : ToString Binary64 := ⟨format Style.plain⟩

end PagedQuery.Binary64
